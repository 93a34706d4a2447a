import JobScheduler.LeaderElection

/-! Stopping an election. `stop` clears an armed timer and steps down, and leaves a
`watchTick` in progress to itself. It is final, and the callbacks pair up, as long as no
such tick is carried on and no promotion is cut off between the state and its callback. -/
namespace JobScheduler.LeaderElection

variable {κ : Type}

/-- The commands of a leader or of a candidate. -/
def Command.leads : Command κ → Bool
  | .acquire | .extend _ | .setHeartbeat _ => true
  | _ => false

/-- What an instance must not show once `stop` has returned. -/
def Act.leads : Act κ → Bool
  | .sent command | .succeeded command => command.leads
  | .armed | .onPromoted => true
  | _ => false

def hasStopped (acts : List (Act κ)) : Bool := acts.any fun act => act matches .stopped

/-- The last callback was `onPromoted`. -/
def up : List (Act κ) → Bool
  | [] => false
  | .onPromoted :: _ => true
  | .onDemoted :: _ => false
  | _ :: acts => up acts

def Paired : List (Act κ) → Prop
  | [] => True
  | .onPromoted :: acts => up acts = false ∧ Paired acts
  | .onDemoted :: acts => up acts = true ∧ Paired acts
  | _ :: acts => Paired acts

/-- Nothing that leads comes after a `stop` that has returned. -/
def Final : List (Act κ) → Prop
  | [] => True
  | act :: acts => (act.leads = true → hasStopped acts = false) ∧ Final acts

def Instance.stopCalled (x : Instance κ) : Bool := x.calls.any fun call => call.caller = .stop

/-- The call has nothing to go on with but a failed heartbeat read or write. -/
def Suspension.rejects (call : Suspension κ) : Bool :=
  match call.point, call.reply with
  | some .readingHeartbeat, some .failed | some (.announcing _), some .failed
  | some (.renewing _), some .failed => true
  | _, _ => false

/-- No `stop` finds a leader whose promotion has not been called back. After it no command
of a tick in progress succeeds, and the tick goes no further than its rejection. -/
def Instance.clean (x : Instance κ) : Turn κ → Bool
  | .fire => true
  | .stop => !(x.service.state = .leader && !up x.service.acts)
  | .serve index reply => !x.stopCalled || x.calls[index]?.all fun call =>
      call.caller = .stop || call.pending.isNone || !reply.succeeded
  | .resume index _ => !x.stopCalled || x.calls[index]?.all fun call =>
      call.caller = .stop || call.ready.isNone || call.rejects

/-- The state and the last callback that go with each point of a tick. -/
def Point.fits : Point κ → LeaderState → Bool → Prop
  | .readingHeartbeat, state, up | .staleness _, state, up | .acquiring, state, up
  | .acquired _, state, up | .demoted, state, up => state ≠ .leader ∧ up = false
  | .announcing _, state, up | .announced, state, up => state = .leader ∧ up = false
  | .promoted, state, up | .extending _, state, up | .extended _, state, up
  | .renewing _, state, up | .renewed, state, up => state = .leader ∧ up = true
  | .releasing _, state, up | .released, state, up => state ≠ .leader ∧ up = true

/-- A `stop` owes a callback before it is `demoted`. -/
def Point.owes (point : Point κ) (up : Bool) : Prop := point.demoting = true → up = true

/-- No `stop` has been called: the tick in progress goes with the state. -/
structure Working (x : Instance κ) : Prop where
  ticks : ∀ call ∈ x.calls, call.caller = .watchTick
  fits : ∀ call ∈ x.calls, ∀ point ∈ call.point, point.fits x.service.state (up x.service.acts)
  rests : x.service.watchTimer = true → (x.service.state = .leader ↔ up x.service.acts = true)
  unstopped : hasStopped x.service.acts = false

/-- After a `stop`: one call at most still owes a callback. -/
structure Stopping (x : Instance κ) : Prop where
  called : x.stopCalled = true
  disarmed : x.service.watchTimer = false
  follows : x.service.state ≠ .leader
  stops : ∀ call ∈ x.calls, call.caller = .stop →
    ∀ point ∈ call.point, point.owes (up x.service.acts)
  alone : ∀ i j : Nat, ∀ a ∈ x.calls[i]?, ∀ b ∈ x.calls[j]?, a.caller = .stop → b.caller = .stop →
    a.demoting = true → b.demoting = true → i = j

structure Ordered (x : Instance κ) : Prop where
  single : Single x
  paired : Paired x.service.acts
  final : Final x.service.acts
  stage : Working x ∨ Stopping x

theorem final_of_unstopped {acts : List (Act κ)} (unstopped : hasStopped acts = false) :
    Final acts := by
  induction acts with
  | nil => trivial
  | cons act acts ih =>
    obtain ⟨_,before⟩ := Bool.or_eq_false_iff.mp unstopped
    exact ⟨fun _ => before,ih before⟩

section Acts

@[simp] theorem up_sent (command : Command κ) (acts : List (Act κ)) :
    up (.sent command :: acts) = up acts := rfl
@[simp] theorem up_succeeded (command : Command κ) (acts : List (Act κ)) :
    up (.succeeded command :: acts) = up acts := rfl
@[simp] theorem up_armed (acts : List (Act κ)) : up (.armed :: acts) = up acts := rfl
@[simp] theorem up_stopped (acts : List (Act κ)) : up (.stopped :: acts) = up acts := rfl
@[simp] theorem up_onPromoted (acts : List (Act κ)) : up (.onPromoted :: acts) = true := rfl
@[simp] theorem up_onDemoted (acts : List (Act κ)) : up (.onDemoted :: acts) = false := rfl

end Acts

structure Resumed (before : Service κ) (next : Service κ × Option (Point κ)) : Prop where
  unstopped : hasStopped next.1.acts = false
  fits : ∀ point ∈ next.2, point.fits next.1.state (up next.1.acts)
  rests : next.1.watchTimer = true → (next.1.state = .leader ↔ up next.1.acts = true)
  paired : Paired before.acts → Paired next.1.acts

section Resume

attribute [local simp] goesOn Service.send Service.acquire Service.extend Service.promote
  Service.scheduleWatch Service.onPromoted Service.onDemoted Point.command Point.fits hasStopped
  Paired

variable {s : Service κ}

/-- A tick that goes on fits its next point, and one that ends leaves the state with the last
callback. -/
theorem resume_fits (now : Int) {point : Point κ} (reply : Reply κ) (disarmed : s.watchTimer = false)
    (fits : point.fits s.state (up s.acts)) :
    (∀ next ∈ (resume .watchTick s now point reply).2,
        next.fits (resume .watchTick s now point reply).1.state
          (up (resume .watchTick s now point reply).1.acts)) ∧
      ((resume .watchTick s now point reply).1.watchTimer = true →
        ((resume .watchTick s now point reply).1.state = .leader ↔
          up (resume .watchTick s now point reply).1.acts = true)) := by
  cases point with
  | extended held =>
    cases held with
    | true => simp_all [resume]
    | false => cases held : s.lock <;> simp_all [resume,Service.demote,Service.release]
  | staleness isStale => cases isStale <;> simp_all [resume]
  | acquired granted => cases granted <;> simp_all [resume]
  | readingHeartbeat | acquiring | announcing | extending | renewing =>
    cases reply <;> simp_all [resume]
  | _ => simp_all [resume]

theorem resume_unstopped (now : Int) (point : Point κ) (reply : Reply κ)
    (unstopped : hasStopped s.acts = false) :
    hasStopped (resume .watchTick s now point reply).1.acts = false := by
  simp only [hasStopped] at unstopped
  generalize caller : Caller.watchTick = own
  fun_cases resume own s now point reply <;>
    simp_all [Service.demote,Service.release]
  cases s.lock <;> simp_all

theorem resume_paired (now : Int) {point : Point κ} (reply : Reply κ)
    (fits : point.fits s.state (up s.acts)) (paired : Paired s.acts) :
    Paired (resume .watchTick s now point reply).1.acts := by
  generalize caller : Caller.watchTick = own
  fun_cases resume own s now point reply <;>
    simp_all [Service.demote,Service.release]
  cases s.lock <;> simp_all

theorem resume_resumed (now : Int) {point : Point κ} (reply : Reply κ)
    (disarmed : s.watchTimer = false) (unstopped : hasStopped s.acts = false)
    (fits : point.fits s.state (up s.acts)) : Resumed s (resume .watchTick s now point reply) where
  unstopped := resume_unstopped now point reply unstopped
  fits := (resume_fits now reply disarmed fits).1
  rests := (resume_fits now reply disarmed fits).2
  paired := resume_paired now reply fits

end Resume

theorem watchTick_paired {s : Service κ} (paired : Paired s.acts) :
    Paired s.clearTimers.watchTick.1.acts := by
  cases held : s.lock <;> by_cases leads : s.state = .leader <;>
    simp [Service.clearTimers,Service.watchTick,Service.extend,Service.send,held,leads,
      Point.command,Paired,paired]

variable {x : Instance κ} {index : Nat} {call : Suspension κ}

theorem rejects_resume {caller : Caller} {s : Service κ} {now : Int} {point : Point κ}
    {reply : Reply κ} (rejected : call.rejects = true) (isReady : call.ready = some (point,reply)) :
    resume caller s now point reply = (s,none) := by
  unfold Suspension.rejects at rejected
  split at rejected
  case h_4 => cases rejected
  all_goals
    rename_i here failed
    simp only [Suspension.ready,here,failed,Option.bind_some,Point.command,Option.map_some,
      Option.some.injEq,Prod.mk.injEq] at isReady
    obtain ⟨rfl,rfl⟩ := isReady
    rfl

theorem Working.others_settled (working : Working x) (single : Single x)
    (found : x.calls[index]? = some call) (live : call.point.isSome = true) :
    x.service.watchTimer = false ∧
      ∀ place ≠ index, ∀ other ∈ x.calls[place]?, other.point = none := by
  have ticking : ∀ place : Nat, ∀ other ∈ x.calls[place]?, other.point.isSome = true →
      other.ticking = true := by
    intro place other here going
    have caller := working.ticks other (List.mem_of_getElem? here)
    simp [Suspension.ticking,caller,going]
  have own := ticking index call found live
  refine ⟨single.disarmed found own,?_⟩
  intro place apart other here
  by_contra going
  have also := ticking place other here (Option.isSome_iff_ne_none.mpr going)
  exact apart (single.alone place index other here call found also own)

namespace Working

theorem set (working : Working x) (single : Single x) (found : x.calls[index]? = some call)
    (live : call.point.isSome = true) {service : Service κ} {point : Option (Point κ)}
    {reply : Option (Reply κ)} (unstopped : hasStopped service.acts = false)
    (fits : ∀ p ∈ point, p.fits service.state (up service.acts))
    (rests : service.watchTimer = true → (service.state = .leader ↔ up service.acts = true)) :
    Working ⟨service,x.calls.set index ⟨.watchTick,point,reply⟩⟩ := by
  obtain ⟨_,settled⟩ := working.others_settled single found live
  refine ⟨?_,?_,rests,unstopped⟩
  · intro other member
    rcases List.mem_or_eq_of_mem_set member with old | rfl
    · exact working.ticks other old
    · rfl
  · intro other member own here
    obtain ⟨place,there⟩ := List.getElem?_of_mem member
    rcases set_cases found there with ⟨_,rfl⟩ | ⟨apart,old⟩
    · exact fits own here
    · rw [settled place apart other old] at here
      cases here

theorem fire (working : Working x) (single : Single x) (armed : x.service.watchTimer = true) :
    Working (x.begins .watchTick (goesOn x.service.clearTimers.watchTick)) := by
  have rests := working.rests armed
  have clear := working.unstopped
  have begun : hasStopped x.service.clearTimers.watchTick.1.acts = false ∧
      x.service.clearTimers.watchTick.2.fits x.service.clearTimers.watchTick.1.state
        (up x.service.clearTimers.watchTick.1.acts) := by
    simp only [hasStopped] at clear
    by_cases leads : x.service.state = .leader
    · have leading := rests.mp leads
      cases held : x.service.lock <;>
        simp [Service.clearTimers,Service.watchTick,Service.extend,Service.send,leads,held,
          Point.command,Point.fits,hasStopped,clear,leading]
    · have quiet : up x.service.acts = false := Bool.eq_false_iff.mpr fun leading =>
        leads (rests.mpr leading)
      simp [Service.clearTimers,Service.watchTick,Service.send,leads,Point.command,Point.fits,
        hasStopped,clear,quiet]
  obtain ⟨unstopped,fits⟩ := begun
  refine ⟨?_,?_,?_,unstopped⟩
  · intro call member
    rcases List.mem_append.mp member with old | new
    · exact working.ticks call old
    · obtain rfl := List.mem_singleton.mp new
      rfl
  · intro call member point here
    rcases List.mem_append.mp member with old | new
    · have settled := single.quiet armed call old
      simp [Suspension.ticking,working.ticks call old,Option.mem_def.mp here] at settled
    · obtain rfl := List.mem_singleton.mp new
      obtain rfl := Option.some.inj here
      exact fits
  · intro again
    have never := watchTick_disarmed x.service
    rw [Instance.begins,goesOn] at again
    rw [never] at again
    cases again

theorem serve {command : Command κ} (working : Working x) (single : Single x) (reply : Reply κ)
    (found : x.calls[index]? = some call) (waits : call.pending = some command) :
    Working ⟨x.notes command reply,x.calls.set index { call with reply := some reply }⟩ := by
  obtain ⟨point,here,_⟩ := Suspension.pending_point waits
  have member := List.mem_of_getElem? found
  have live : call.point.isSome = true := by rw [here]; rfl
  have disarmed := (working.others_settled single found live).1
  have fits := working.fits call member
  have clear := working.unstopped
  rw [show call.caller = .watchTick from working.ticks call member]
  apply working.set single found live
  · unfold Instance.notes
    split <;> exact clear
  · unfold Instance.notes
    split <;> exact fits
  · intro armed
    unfold Instance.notes at armed
    split at armed <;> rw [disarmed] at armed <;> cases armed

theorem resume {point : Point κ} {reply : Reply κ} (working : Working x) (single : Single x)
    (now : Int) (found : x.calls[index]? = some call) (isReady : call.ready = some (point,reply)) :
    Working ⟨(LeaderElection.resume call.caller x.service now point reply).1,x.calls.set index
      ⟨call.caller,(LeaderElection.resume call.caller x.service now point reply).2,none⟩⟩ ∧
    (Paired x.service.acts →
      Paired (LeaderElection.resume call.caller x.service now point reply).1.acts) := by
  have here := Suspension.ready_point isReady
  have member := List.mem_of_getElem? found
  have live : call.point.isSome = true := by rw [here]; rfl
  have resumed := resume_resumed now reply (working.others_settled single found live).1
    working.unstopped (working.fits call member point here)
  rw [show call.caller = .watchTick from working.ticks call member]
  exact ⟨working.set single found live resumed.unstopped resumed.fits resumed.rests,resumed.paired⟩

theorem stop (working : Working x) (ordered : Ordered x) (clean : x.clean .stop = true) :
    Ordered x.stop := by
  have single : Single x.stop := single_step .stop ordered.single
  have unstopped := final_of_unstopped working.unstopped
  have paired := ordered.paired
  have onlyOwn : ∀ next, ∀ place : Nat, ∀ call ∈ (x.begins .stop next).calls[place]?,
      call.caller = .stop → place = x.calls.length ∧ call = ⟨.stop,next.2,none⟩ := by
    intro next place call here own
    rcases append_cases here with last | old
    · exact last
    · rw [working.ticks call (List.mem_of_getElem? old)] at own
      cases own
  have called : ∀ next, (x.begins .stop next).stopCalled = true := by
    intro next
    simp [Instance.stopCalled,Instance.begins]
  have alone : ∀ next, ∀ i j : Nat, ∀ a ∈ (x.begins .stop next).calls[i]?,
      ∀ b ∈ (x.begins .stop next).calls[j]?, a.caller = .stop → b.caller = .stop →
        a.demoting = true → b.demoting = true → i = j := by
    intro next i j a here b there first second _ _
    rw [(onlyOwn next i a here first).1,(onlyOwn next j b there second).1]
  unfold Instance.stop at single ⊢
  split
  · rename_i leads
    rw [if_pos leads] at single
    have leading : up x.service.acts = true := by simpa [Instance.clean,leads] using clean
    have stepping : (goesOn x.service.clearTimers.demote).1.watchTimer = false ∧
        (goesOn x.service.clearTimers.demote).1.state ≠ .leader ∧
        up (goesOn x.service.clearTimers.demote).1.acts = true ∧
        Paired (goesOn x.service.clearTimers.demote).1.acts ∧
        Final (goesOn x.service.clearTimers.demote).1.acts := by
      cases held : x.service.lock <;>
        simp [goesOn,Service.clearTimers,Service.demote,Service.release,Service.send,held,leading,
          Point.command,Paired,paired,Final,unstopped,Act.leads,Command.leads]
    obtain ⟨disarmed,follows,owed,pairs,final⟩ := stepping
    refine ⟨single,pairs,final,.inr ⟨called _,disarmed,follows,?_,alone _⟩⟩
    exact fun _ _ _ _ _ _ => owed
  · rename_i follows
    rw [if_neg follows] at single
    refine ⟨single,paired,⟨(absurd · Bool.false_ne_true),unstopped⟩,
      .inr ⟨called _,rfl,follows,?_,alone _⟩⟩
    intro call member own point here
    obtain ⟨place,there⟩ := List.getElem?_of_mem member
    obtain ⟨_,rfl⟩ := onlyOwn _ place call there own
    cases here

end Working

namespace Stopping

/-- A call moves on. The others keep what they owe unless this call has paid it. -/
theorem set (stopping : Stopping x) (found : x.calls[index]? = some call) {service : Service κ}
    {point : Option (Point κ)} {reply : Option (Reply κ)}
    (disarmed : service.watchTimer = false) (follows : service.state ≠ .leader)
    (owes : point.any Point.demoting = true → call.demoting = true)
    (paid : up service.acts = up x.service.acts ∨
      (call.caller = .stop ∧ call.demoting = true ∧ point.any Point.demoting = false)) :
    Stopping ⟨service,x.calls.set index ⟨call.caller,point,reply⟩⟩ := by
  have before : ∀ place : Nat, ∀ c ∈ (x.calls.set index ⟨call.caller,point,reply⟩)[place]?,
      c.caller = .stop → c.demoting = true →
        (place = index → point.any Point.demoting = true) ∧
          ∃ d ∈ x.calls[place]?, d.caller = .stop ∧ d.demoting = true := by
    intro place c here own owing
    rcases set_cases found here with ⟨rfl,rfl⟩ | ⟨apart,old⟩
    · exact ⟨fun _ => owing,call,found,own,owes owing⟩
    · exact ⟨(absurd · apart),c,old,own,owing⟩
  refine ⟨?_,disarmed,follows,?_,?_⟩
  · obtain ⟨other,member,own⟩ := List.any_eq_true.mp stopping.called
    obtain ⟨place,here⟩ := List.getElem?_of_mem member
    by_cases same : place = index
    · subst same
      obtain rfl := Option.some.inj (found.symm.trans here)
      have inside := (List.getElem?_eq_some_iff.mp found).1
      exact List.any_eq_true.mpr ⟨_,List.mem_set inside _,own⟩
    · refine List.any_eq_true.mpr ⟨other,List.mem_of_getElem? (i := place) ?_,own⟩
      rw [List.getElem?_set_ne (Ne.symm same)]
      exact here
  · intro other member own p here owing
    obtain ⟨place,there⟩ := List.getElem?_of_mem member
    have demoting : other.demoting = true := by
      simp [Suspension.demoting,Option.mem_def.mp here,owing]
    obtain ⟨still,d,old,caller,due⟩ := before place other there own demoting
    have owed : up x.service.acts = true := by
      obtain ⟨point,at_point,isDemoting⟩ := (Option.any_eq_true ..).mp due
      exact stopping.stops d (List.mem_of_getElem? old) caller point at_point isDemoting
    rcases paid with same | ⟨ownCaller,ownDemoting,gone⟩
    · exact same.trans owed
    · have last := stopping.alone place index d old call found caller ownCaller due ownDemoting
      rw [still last] at gone
      cases gone
  · intro i j a here b there first second owingA owingB
    obtain ⟨_,d,old,own,owing⟩ := before i a here first owingA
    obtain ⟨_,e,older,owner,owed⟩ := before j b there second owingB
    exact stopping.alone i j d old e older own owner owing owed

theorem stop (stopping : Stopping x) :
    Stopping (x.begins .stop (x.service.clearTimers.stopped,none)) := by
  have before : ∀ place : Nat, ∀ c ∈ (x.calls ++ [(⟨.stop,none,none⟩ : Suspension κ)])[place]?,
      c.demoting = true → x.calls[place]? = some c := by
    intro place c here owing
    rcases append_cases here with ⟨_,rfl⟩ | old
    · cases owing
    · exact old
  refine ⟨?_,rfl,stopping.follows,?_,?_⟩
  · simp [Instance.stopCalled,Instance.begins]
  · intro call member own point here
    rcases List.mem_append.mp member with old | new
    · exact stopping.stops call old own point here
    · obtain rfl := List.mem_singleton.mp new
      cases here
  · intro i j a here b there first second owingA owingB
    exact stopping.alone i j a (before i a here owingA) b (before j b there owingB) first second
      owingA owingB

theorem serve {command : Command κ} {reply : Reply κ} (stopping : Stopping x) (ordered : Ordered x)
    (found : x.calls[index]? = some call) (waits : call.pending = some command)
    (clean : x.clean (.serve index reply) = true) (single : Single
      ⟨x.notes command reply,x.calls.set index { call with reply := some reply }⟩) :
    Ordered ⟨x.notes command reply,x.calls.set index { call with reply := some reply }⟩ := by
  have owed : up (x.notes command reply).acts = up x.service.acts := by
    unfold Instance.notes
    split <;> rfl
  have quiet : reply.succeeded = true → command.leads = false := by
    intro succeeded
    simp only [Instance.clean,stopping.called,found,waits,succeeded,Option.all_some,
      Option.isNone_some,Bool.not_true,Bool.or_false,Bool.false_or,decide_eq_true_eq] at clean
    obtain ⟨point,here,sends⟩ := Suspension.pending_point waits
    have steps := ordered.single.stops call (List.mem_of_getElem? found) clean point here
    cases point with
    | releasing lock =>
      obtain rfl := Option.some.inj sends
      rfl
    | released | demoted => cases sends
    | _ => cases steps
  refine ⟨single,?_,?_,.inr (stopping.set found ?_ ?_ id (.inl owed))⟩
  · unfold Instance.notes
    split <;> exact ordered.paired
  · unfold Instance.notes
    split
    · rename_i succeeded
      exact ⟨fun leads => absurd leads (Bool.eq_false_iff.mp (quiet succeeded)),ordered.final⟩
    · exact ordered.final
  · unfold Instance.notes
    split <;> exact stopping.disarmed
  · unfold Instance.notes
    split <;> exact stopping.follows

theorem resume {point : Point κ} {reply : Reply κ} {now : Int} (stopping : Stopping x)
    (ordered : Ordered x) (found : x.calls[index]? = some call)
    (isReady : call.ready = some (point,reply)) (clean : x.clean (.resume index now) = true)
    (single : Single ⟨(LeaderElection.resume call.caller x.service now point reply).1,x.calls.set
      index ⟨call.caller,(LeaderElection.resume call.caller x.service now point reply).2,none⟩⟩) :
    Ordered ⟨(LeaderElection.resume call.caller x.service now point reply).1,x.calls.set index
      ⟨call.caller,(LeaderElection.resume call.caller x.service now point reply).2,none⟩⟩ := by
  have here := Suspension.ready_point isReady
  simp only [Instance.clean,stopping.called,found,isReady,Option.all_some,Option.isNone_some,
    Bool.not_true,Bool.or_false,Bool.false_or,Bool.or_eq_true,decide_eq_true_eq] at clean
  rcases clean with own | rejected
  · have steps := ordered.single.stops call (List.mem_of_getElem? found) own point here
    have owed := stopping.stops call (List.mem_of_getElem? found) own point here
    cases point with
    | releasing lock =>
      refine ⟨single,ordered.paired,ordered.final,.inr (stopping.set found stopping.disarmed
        stopping.follows ?_ (.inl rfl))⟩
      intro _
      rw [Suspension.demoting,here]
      rfl
    | released =>
      refine ⟨single,⟨owed rfl,ordered.paired⟩,⟨(absurd · Bool.false_ne_true),ordered.final⟩,
        .inr (stopping.set found stopping.disarmed stopping.follows (absurd · Bool.false_ne_true)
          (.inr ⟨own,?_,rfl⟩))⟩
      rw [Suspension.demoting,here]
      rfl
    | demoted =>
      have moved : Stopping ⟨x.service.stopped,x.calls.set index ⟨call.caller,none,none⟩⟩ :=
        stopping.set found stopping.disarmed stopping.follows (absurd · Bool.false_ne_true)
          (.inl rfl)
      rw [own] at single moved ⊢
      exact ⟨single,ordered.paired,⟨(absurd · Bool.false_ne_true),ordered.final⟩,.inr moved⟩
    | _ => cases steps
  · rw [rejects_resume rejected isReady] at single ⊢
    exact ⟨single,ordered.paired,ordered.final,.inr (stopping.set found stopping.disarmed
      stopping.follows (absurd · Bool.false_ne_true) (.inl rfl))⟩

end Stopping

theorem ordered_step (x : Instance κ) (turn : Turn κ) (clean : x.clean turn = true)
    (ordered : Ordered x) : Ordered (x.step turn) := by
  have single := single_step turn ordered.single
  have moves := x.step_moves turn
  generalize x.step turn = y at moves single
  cases moves with
  | idle => exact ordered
  | fire armed =>
    rcases ordered.stage with working | stopping
    · have fired := working.fire ordered.single armed
      exact ⟨single,watchTick_paired ordered.paired,final_of_unstopped fired.unstopped,.inl fired⟩
    · rw [stopping.disarmed] at armed
      cases armed
  | demote leads =>
    rcases ordered.stage with working | stopping
    · have stopped := working.stop ordered clean
      rw [Instance.stop,if_pos leads] at stopped
      exact stopped
    · exact absurd leads stopping.follows
  | stop follows =>
    rcases ordered.stage with working | stopping
    · have stopped := working.stop ordered clean
      rw [Instance.stop,if_neg follows] at stopped
      exact stopped
    · exact ⟨single,ordered.paired,⟨(absurd · Bool.false_ne_true),ordered.final⟩,
        .inr stopping.stop⟩
  | serve index call command reply found waits =>
    rcases ordered.stage with working | stopping
    · have served := working.serve ordered.single reply found waits
      refine ⟨single,?_,final_of_unstopped served.unstopped,.inl served⟩
      unfold Instance.notes
      split <;> exact ordered.paired
    · exact stopping.serve ordered found waits clean single
  | resume index call point reply now found isReady =>
    rcases ordered.stage with working | stopping
    · obtain ⟨resumed,paired⟩ := working.resume ordered.single now found isReady
      exact ⟨single,paired ordered.paired,final_of_unstopped resumed.unstopped,.inl resumed⟩
    · exact stopping.resume ordered found isReady clean single

theorem ordered_start : Ordered (Instance.start : Instance κ) where
  single := single_start
  paired := trivial
  final := ⟨fun _ => rfl,trivial⟩
  stage := .inl {
    ticks := fun _ member => by cases member
    fits := fun _ member => by cases member
    rests := fun _ => iff_of_false (fun leads => by cases leads) Bool.false_ne_true
    unstopped := rfl }

/-- As long as every `stop` is clean, a returned `stop` is final and the callbacks
alternate, `onPromoted` first. -/
theorem stop_is_final (turns : List (Turn κ))
    (clean : Instance.election.Along (fun x turn => x.clean turn = true) Instance.start turns) :
    Final (Instance.election.run (Instance.start : Instance κ) turns).service.acts ∧
      Paired (Instance.election.run (Instance.start : Instance κ) turns).service.acts := by
  have ordered := Transition.invariant_run Ordered ordered_step clean ordered_start
  exact ⟨ordered.final,ordered.paired⟩

def promotedThenStopped : List (Turn Nat) :=
  [.fire,.serve 0 (.heartbeat .absent),.resume 0 0,.resume 0 0,.serve 0 (.lock 7),.resume 0 0,
    .resume 0 0,.serve 0 .done,.resume 0 0,.resume 0 0,.resume 0 0,.fire,.serve 1 (.lock 7),
    .resume 1 0,.resume 1 0,.stop,.serve 1 .failed,.resume 1 0,.serve 2 .done,.resume 2 0,
    .resume 2 0,.resume 2 0]

theorem stop_is_final_promoted :
    Final (Instance.election.run (Instance.start : Instance Nat) promotedThenStopped).service.acts ∧
      Paired (Instance.election.run (Instance.start : Instance Nat) promotedThenStopped).service.acts :=
  stop_is_final promotedThenStopped (by decide +kernel)

/-- `stop` returns while the tick waits for the heartbeat, and the tick goes on to acquire. -/
theorem acquires_after_stop : ¬ ∀ turns : List (Turn Nat),
    Final (Instance.election.run Instance.start turns).service.acts ∧
      Paired (Instance.election.run Instance.start turns).service.acts := by
  intro stops
  have final := (stops [.fire,.stop,.serve 0 (.heartbeat .absent),.resume 0 0,.resume 0 0]).1
  exact absurd (final.1 rfl) (by decide)

end JobScheduler.LeaderElection
