import JobScheduler.LeaderElection
import JobScheduler.World
import Mathlib.Data.Fintype.Basic
import Mathlib.Logic.Function.Basic

/-! At most one active scheduler. Any number of instances elect a leader over one Redis
lock. An instance whose poll loop runs, or is about to, holds the lock unless it is inside
`demote`, where the lock goes before the loop stops. -/
namespace JobScheduler.LeaderElection

/-- The instance that a lock was granted to, and the random value of the grant. -/
abbrev Grant (ι : Type) := ι × Nat

/-- The instances and what they share in Redis. `granted` counts the values that have
been drawn. -/
structure Cluster (ι : Type) where
  instances : ι → Instance (Grant ι)
  lock : Option (Grant ι)
  heartbeat : HeartbeatValue
  granted : Nat

/-- `lapse` is the loss of the lock and `forget` the expiry of the heartbeat. -/
inductive Event (ι : Type) where
  | fire (i : ι)
  | stop (i : ι)
  | serve (i : ι) (index : Nat) (delivery : Delivery)
  | resume (i : ι) (index : Nat) (now : Int)
  | lapse
  | forget

def answer (delivery : Delivery) (reply : Reply κ) : Reply κ :=
  if delivery.answers then reply else .failed

namespace Cluster

variable {ι : Type} [DecidableEq ι] (c : Cluster ι)

/-- Redis runs a command. A lock is granted only while there is none, and its release or
extension compares its value. -/
def execute (i : ι) (delivery : Delivery) : Command (Grant ι) → Reply (Grant ι) × Cluster ι
  | .getHeartbeat => (answer delivery (.heartbeat c.heartbeat),c)
  | .setHeartbeat ts => (answer delivery .done,
      if delivery.applies then { c with heartbeat := .written ts } else c)
  | .acquire =>
    match c.lock with
    | some _ => (.failed,c)
    | none => (answer delivery (.lock (i,c.granted)),
        if delivery.applies then { c with lock := some (i,c.granted), granted := c.granted + 1 }
        else c)
  | .extend lock =>
    if c.lock = some lock then (answer delivery (.lock lock),c) else (.failed,c)
  | .release lock =>
    if c.lock = some lock then (answer delivery .done,
      if delivery.applies then { c with lock := none } else c)
    else (.failed,c)

def turn (i : ι) (t : Turn (Grant ι)) : Cluster ι :=
  { c with instances := Function.update c.instances i ((c.instances i).step t) }

theorem turn_self (i : ι) (t : Turn (Grant ι)) :
    (c.turn i t).instances i = (c.instances i).step t := Function.update_self ..

theorem turn_other {i j : ι} (t : Turn (Grant ι)) (apart : j ≠ i) :
    (c.turn i t).instances j = c.instances j := Function.update_of_ne apart ..

/-- What the turn gives its instance and every other instance has. -/
theorem turn_forall {i : ι} {t : Turn (Grant ι)} (P : ι → Instance (Grant ι) → Prop)
    (moved : P i ((c.instances i).step t)) (others : ∀ j, j ≠ i → P j (c.instances j)) (j : ι) :
    P j ((c.turn i t).instances j) := by
  by_cases own : j = i
  · subst own
    rw [turn_self]
    exact moved
  · rw [turn_other c t own]
    exact others j own

def step : Event ι → Cluster ι
  | .fire i => c.turn i .fire
  | .stop i => c.turn i .stop
  | .serve i index delivery =>
    match (c.instances i).calls[index]?.bind Suspension.pending with
    | none => c
    | some command => (c.execute i delivery command).2.turn i
        (.serve index (c.execute i delivery command).1)
  | .resume i index now => c.turn i (.resume index now)
  | .lapse => { c with lock := none }
  | .forget => { c with heartbeat := .absent }

def start (heartbeat : HeartbeatValue) : Cluster ι := ⟨fun _ => .start,none,heartbeat,0⟩

def election : Transition (Cluster ι) (Event ι) := ⟨step⟩

end Cluster

/-- Between `this.state = "leader"` and the callback of a promotion. -/
def Point.promoting : Point κ → Bool
  | .announcing _ | .announced => true
  | _ => false

/-- The lock has been granted, and the call is on its way to `onPromoted`. -/
def Point.claiming : Point κ → Option (Reply κ) → Bool
  | .acquiring, some (.lock _) | .acquired true, _ => true
  | point, _ => point.promoting

def Point.seeking : Point κ → Bool
  | .readingHeartbeat | .staleness _ | .acquiring | .acquired _ => true
  | _ => false

def Suspension.claiming (call : Suspension κ) : Bool :=
  call.point.any fun point => point.claiming call.reply

def Suspension.promoting (call : Suspension κ) : Bool := call.point.any Point.promoting

namespace Instance

variable (x : Instance κ)

def running : Bool := x.service.running

def claiming : Bool := x.calls.any Suspension.claiming

def demoting : Bool := x.calls.any Suspension.demoting

/-- The poll loop runs, or is about to. -/
def active : Bool := x.running || x.claiming

end Instance

namespace Cluster

variable {ι : Type} [DecidableEq ι] (c : Cluster ι)

/-- No `stop` during the heartbeat write of a promotion. No lock is granted while another
instance, inside `demote`, has yet to stop its loop. The lock is not lost while its holder
is on its way to starting the loop, nor while the loop runs outside `demote`. -/
def safe : Event ι → Prop
  | .stop i => (c.instances i).calls.any Suspension.promoting = false
  | .serve i index delivery =>
    (c.instances i).calls[index]?.bind Suspension.pending = some .acquire → c.lock = none →
      delivery.answers = true → ∀ j, j ≠ i → (c.instances j).running = true →
        (c.instances j).demoting = false
  | .lapse => ∀ g ∈ c.lock, (c.instances g.1).claiming = false ∧
      ((c.instances g.1).running = true → (c.instances g.1).demoting = true)
  | _ => True

instance safe.decidable [Fintype ι] : ∀ event, Decidable (c.safe event)
  | .fire _ | .resume .. | .forget => .isTrue trivial
  | .stop _ => inferInstanceAs (Decidable (_ = _))
  | .serve .. => inferInstanceAs (Decidable (_ = _ → _))
  | .lapse => inferInstanceAs (Decidable (∀ g ∈ c.lock, _))

def exclusive : Prop :=
  ∀ i j, (c.instances i).running = true → (c.instances j).running = true → i = j

def holds (i : ι) : Prop := ∃ g ∈ c.lock, g.1 = i

end Cluster

section Instances

variable {κ : Type} {x y : Instance κ} {index : Nat} {call : Suspension κ}

/-- The release of this lock is on its way. -/
def Suspension.releases (call : Suspension κ) (g : κ) : Prop :=
  call.point = some (.releasing g) ∧ call.reply = none

def Suspension.mentions (call : Suspension κ) (g : κ) : Prop :=
  call.point = some (.extending g) ∨ call.point = some (.releasing g) ∨ call.reply = some (.lock g)

/-- The instance may still use this lock. -/
def Instance.mentions (x : Instance κ) (g : κ) : Prop :=
  x.service.lock = some g ∨ ∃ call ∈ x.calls, call.mentions g

/-- One tick at most, and no leader seeks the lock. -/
structure Steady (x : Instance κ) : Prop where
  single : Single x
  follows : ∀ call ∈ x.calls, ∀ point ∈ call.point, point.seeking = true →
    x.service.state ≠ .leader

section Resume

theorem demote_moves (s : Service κ) : s.demote.1.running = s.running ∧
    s.demote.1.state = .follower ∧ s.demote.1.lock = s.lock ∧
    (s.demote.2 = .released ∨ ∃ g, s.lock = some g ∧ s.demote.2 = .releasing g) := by
  cases held : s.lock <;> simp [Service.demote,Service.release,Service.send,held]

attribute [local simp] goesOn Service.send Service.acquire Service.promote Service.scheduleWatch
  Service.onPromoted Service.onDemoted Service.stopped Point.claiming Point.promoting Point.demoting
  Point.seeking

variable (caller : Caller) (s : Service κ) (now : Int) (point : Point κ) (reply : Reply κ)

theorem resume_running (runs : (resume caller s now point reply).1.running = true) :
    s.running = true ∨ point = .announced := by
  revert runs
  fun_cases resume caller s now point reply <;> simp [demote_moves]

theorem resume_claiming (claims : (resume caller s now point reply).2.any
    (fun next => next.claiming none) = true) : point.claiming (some reply) = true := by
  revert claims
  fun_cases resume caller s now point reply <;> simp
  rcases (demote_moves s).2.2.2 with released | ⟨g,_,releasing⟩ <;> simp [*]

theorem resume_demoting (demoting : point.demoting = true) :
    (resume caller s now point reply).2.any Point.demoting = true ∨
      (resume caller s now point reply).1.running = false := by
  revert demoting
  fun_cases resume caller s now point reply <;> simp

/-- A release is sent by `demote` only, for the lock that the instance has. -/
theorem resume_releasing {g : κ}
    (releases : (resume caller s now point reply).2 = some (.releasing g)) :
    s.lock = some g ∧ point = .extended false := by
  revert releases
  fun_cases resume caller s now point reply <;> simp
  rcases (demote_moves s).2.2.2 with released | ⟨own,held,releasing⟩ <;> simp [*]

theorem resume_extending {g : κ} :
    (resume caller s now point reply).2 ≠ some (.extending g) := by
  fun_cases resume caller s now point reply <;> simp
  rcases (demote_moves s).2.2.2 with released | ⟨own,_,releasing⟩ <;> simp [*]

theorem resume_lock {g : κ} (holds : (resume caller s now point reply).1.lock = some g) :
    s.lock = some g ∨ reply = .lock g := by
  revert holds
  fun_cases resume caller s now point reply <;> simp +contextual [demote_moves]

theorem resume_seeking (follows : point.seeking = true → s.state ≠ .leader)
    (seeks : (resume caller s now point reply).2.any Point.seeking = true) :
    (resume caller s now point reply).1.state ≠ .leader := by
  revert seeks follows
  fun_cases resume caller s now point reply <;> simp [demote_moves]

theorem resume_leads (leads : (resume caller s now point reply).1.state = .leader) :
    s.state = .leader ∨ point = .acquired true := by
  revert leads
  fun_cases resume caller s now point reply <;> simp [demote_moves]

end Resume

theorem claiming_cases {point : Point κ} {reply : Option (Reply κ)}
    (claims : point.claiming reply = true) : point.promoting = true ∨ point.seeking = true := by
  cases point with
  | acquiring | acquired => exact .inr rfl
  | announcing | announced => exact .inl rfl
  | _ => cases claims

theorem ready_claiming {point : Point κ} {reply : Reply κ}
    (isReady : call.ready = some (point,reply)) (claims : point.claiming (some reply) = true) :
    call.claiming = true := by
  have here := Suspension.ready_point isReady
  cases point with
  | acquiring =>
    simp only [Suspension.ready,here,Option.bind_some,Point.command] at isReady
    obtain ⟨own,there,same⟩ := Option.map_eq_some_iff.mp isReady
    obtain ⟨_,rfl⟩ := Prod.mk.inj same
    simpa [Suspension.claiming,here,there] using claims
  | acquired granted =>
    cases granted with
    | true => simp [Suspension.claiming,here,Point.claiming]
    | false => cases claims
  | announcing | announced => simp [Suspension.claiming,here,Point.claiming,Point.promoting]
  | _ => cases claims

theorem ready_mentions {point : Point κ} {g : κ} (isReady : call.ready = some (point,.lock g)) :
    call.mentions g := by
  obtain ⟨own,here,shape⟩ := Option.bind_eq_some_iff.mp isReady
  split at shape
  · obtain ⟨_,same⟩ := Prod.mk.inj (Option.some.inj shape)
    cases same
  · obtain ⟨reply,there,same⟩ := Option.map_eq_some_iff.mp shape
    obtain ⟨_,rfl⟩ := Prod.mk.inj same
    exact .inr (.inr there)

/-- A call that is not stepping down is a tick. -/
theorem Single.ticks (single : Single x) (member : call ∈ x.calls) {point : Point κ}
    (here : call.point = some point) (climbs : point.steppingDown = false) :
    call.ticking = true := by
  cases caller : call.caller with
  | watchTick => simp [Suspension.ticking,caller,here]
  | stop =>
    have steps := single.stops call member caller point here
    rw [climbs] at steps
    cases steps

/-- Only ticks claim or seek the lock, so at most one call does. -/
theorem Single.claiming_ticks (single : Single x) (member : call ∈ x.calls)
    (claims : call.claiming = true) : call.ticking = true := by
  obtain ⟨point,here,claiming⟩ := (Option.any_eq_true ..).mp claims
  apply single.ticks member here
  cases point with
  | releasing | released | demoted => cases claiming
  | _ => rfl

theorem Single.seeking_ticks (single : Single x) (member : call ∈ x.calls) {point : Point κ}
    (here : call.point = some point) (seeks : point.seeking = true) : call.ticking = true := by
  apply single.ticks member here
  cases point with
  | releasing | released | demoted => cases seeks
  | _ => rfl

/-- What a turn of the instance itself, without a reply from Redis, can change. -/
structure Carries (x y : Instance κ) : Prop where
  running : y.running = true → x.active = true
  claiming : y.claiming = true → x.claiming = true
  demoting : x.demoting = true → y.demoting = true ∨ y.running = false
  releases : y.claiming = true → ∀ g, (∃ call ∈ y.calls, call.releases g) →
    ∃ call ∈ x.calls, call.releases g
  mentions : ∀ g, y.mentions g → x.mentions g

theorem Carries.refl (x : Instance κ) : Carries x x :=
  ⟨fun runs => by simp [Instance.active,runs],id,.inl,fun _ _ => id,fun _ => id⟩

theorem begins_carries {caller : Caller} {next : Service κ × Option (Point κ)}
    (runs : next.1.running = x.service.running) (lock : next.1.lock = x.service.lock)
    (quiet : next.2.any (fun point => point.claiming none) = false)
    (releases : ∀ g, next.2 = some (.releasing g) → x.service.lock = some g ∧ x.claiming = false)
    (prolongs : ∀ g, next.2 = some (.extending g) → x.service.lock = some g) :
    Carries x (x.begins caller next) := by
  have claims : (x.begins caller next).claiming = true → x.claiming = true := by
    intro claims
    obtain ⟨call,member,claiming⟩ := List.any_eq_true.mp claims
    rcases List.mem_append.mp member with old | new
    · exact List.any_eq_true.mpr ⟨call,old,claiming⟩
    · obtain rfl := List.mem_singleton.mp new
      rw [Suspension.claiming,quiet] at claiming
      cases claiming
  refine ⟨?_,claims,?_,?_,?_⟩
  · intro runsNow
    have before : x.running = true := runs.symm.trans runsNow
    simp [Instance.active,before]
  · intro demoting
    obtain ⟨call,member,inside⟩ := List.any_eq_true.mp demoting
    exact .inl (List.any_eq_true.mpr ⟨call,List.mem_append_left _ member,inside⟩)
  · rintro claiming g ⟨call,member,here,unanswered⟩
    rcases List.mem_append.mp member with old | new
    · exact ⟨call,old,here,unanswered⟩
    · obtain rfl := List.mem_singleton.mp new
      have unclaimed := (releases g here).2
      rw [claims claiming] at unclaimed
      cases unclaimed
  · rintro g (held | ⟨call,member,mentions⟩)
    · exact .inl (lock.symm.trans held)
    · rcases List.mem_append.mp member with old | new
      · exact .inr ⟨call,old,mentions⟩
      · obtain rfl := List.mem_singleton.mp new
        rcases mentions with extending | releasing | replied
        · exact .inl (prolongs g extending)
        · exact .inl (releases g releasing).1
        · cases replied

theorem demoting_set (next : Suspension κ) (found : x.calls[index]? = some call)
    (demotes : x.demoting = true) :
    call.demoting = true ∨ (x.calls.set index next).any Suspension.demoting = true := by
  obtain ⟨other,member,inside⟩ := List.any_eq_true.mp demotes
  obtain ⟨place,there⟩ := List.getElem?_of_mem member
  by_cases same : place = index
  · subst same
    obtain rfl := Option.some.inj (found.symm.trans there)
    exact .inl inside
  · refine .inr (List.any_eq_true.mpr ⟨other,List.mem_of_getElem? (i := place) ?_,inside⟩)
    rw [List.getElem?_set_ne (Ne.symm same)]
    exact there

theorem set_demoting {next : Suspension κ} (found : x.calls[index]? = some call)
    (demotes : next.demoting = true) : (x.calls.set index next).any Suspension.demoting = true :=
  List.any_eq_true.mpr ⟨next,List.mem_set (List.getElem?_eq_some_iff.mp found).1 _,demotes⟩

def Instance.resumed (x : Instance κ) (index : Nat) (call : Suspension κ) (now : Int)
    (point : Point κ) (reply : Reply κ) : Instance κ :=
  ⟨(resume call.caller x.service now point reply).1,x.calls.set index
    ⟨call.caller,(resume call.caller x.service now point reply).2,none⟩⟩

section Resumed

variable {now : Int} {point : Point κ} {reply : Reply κ}
variable (found : x.calls[index]? = some call) (isReady : call.ready = some (point,reply))

include found isReady

theorem point_claiming (claims : point.claiming (some reply) = true) : x.claiming = true :=
  List.any_eq_true.mpr ⟨call,List.mem_of_getElem? found,ready_claiming isReady claims⟩

theorem resumed_active (runs : (x.resumed index call now point reply).running = true) :
    x.active = true := by
  rcases resume_running _ _ _ _ _ runs with before | rfl
  · have was : x.running = true := before
    simp [Instance.active,was]
  · simp [Instance.active,point_claiming found isReady rfl]

theorem resumed_claiming (claims : (x.resumed index call now point reply).claiming = true) :
    x.claiming = true := by
  obtain ⟨other,among,claiming⟩ := List.any_eq_true.mp claims
  rcases List.mem_or_eq_of_mem_set among with old | rfl
  · exact List.any_eq_true.mpr ⟨other,old,claiming⟩
  · exact point_claiming found isReady (resume_claiming _ _ _ _ _ claiming)

theorem resumed_demoting (demotes : x.demoting = true) :
    (x.resumed index call now point reply).demoting = true ∨
      (x.resumed index call now point reply).running = false := by
  rcases demoting_set _ found demotes with inside | others
  · rw [Suspension.demoting,Suspension.ready_point isReady] at inside
    exact (resume_demoting call.caller x.service now point reply inside).imp_left
      fun still => set_demoting found still
  · exact .inl others

/-- A release is sent by a tick, and then no other call claims the lock. -/
theorem resumed_releases (single : Single x)
    (claims : (x.resumed index call now point reply).claiming = true) {g : κ}
    (releases : ∃ other ∈ (x.resumed index call now point reply).calls, other.releases g) :
    ∃ other ∈ x.calls, other.releases g := by
  have here := Suspension.ready_point isReady
  have member := List.mem_of_getElem? found
  obtain ⟨other,among,releasing,unanswered⟩ := releases
  rcases List.mem_or_eq_of_mem_set among with old | rfl
  · exact ⟨other,old,releasing,unanswered⟩
  · exfalso
    obtain ⟨_,rfl⟩ := resume_releasing _ _ _ _ _ releasing
    have ticks : call.ticking = true := single.ticks member here rfl
    obtain ⟨claimant,in_set,claiming⟩ := List.any_eq_true.mp claims
    obtain ⟨place,there⟩ := List.getElem?_of_mem in_set
    rcases set_cases found there with ⟨_,rfl⟩ | ⟨apart,old⟩
    · rw [Suspension.claiming,releasing] at claiming
      cases claiming
    · have also := single.claiming_ticks (List.mem_of_getElem? old) claiming
      exact apart (single.alone place index claimant old call found also ticks)

theorem resumed_mentions {g : κ} (mentions : (x.resumed index call now point reply).mentions g) :
    x.mentions g := by
  have member := List.mem_of_getElem? found
  rcases mentions with held | ⟨other,among,mentions⟩
  · rcases resume_lock _ _ _ _ _ held with before | rfl
    · exact .inl before
    · exact .inr ⟨call,member,ready_mentions isReady⟩
  · rcases List.mem_or_eq_of_mem_set among with old | rfl
    · exact .inr ⟨other,old,mentions⟩
    · rcases mentions with extending | releasing | replied
      · exact absurd extending (resume_extending _ _ _ _ _)
      · exact .inl (resume_releasing _ _ _ _ _ releasing).1
      · cases replied

theorem resumed_carries (single : Single x) :
    Carries x (x.resumed index call now point reply) where
  running := resumed_active found isReady
  claiming := resumed_claiming found isReady
  demoting := resumed_demoting found isReady
  releases claims _ := resumed_releases found isReady single claims
  mentions _ := resumed_mentions found isReady

end Resumed

/-- A turn without a reply from Redis, where no `stop` cuts off a promotion. -/
theorem turn_carries {turn : Turn κ} (steady : Steady x)
    (own : ∀ index reply, turn ≠ .serve index reply)
    (safe : turn = .stop → x.calls.any Suspension.promoting = false) : Carries x (x.step turn) := by
  have moves := x.step_moves turn
  generalize x.step turn = y at moves
  cases moves with
  | idle => exact .refl x
  | fire armed =>
    by_cases leads : x.service.state = .leader <;> cases held : x.service.lock <;>
      refine begins_carries ?_ ?_ ?_ ?_ ?_ <;>
        simp [goesOn,Service.clearTimers,Service.watchTick,Service.extend,Service.send,leads,held,
          Point.claiming,Point.promoting]
  | demote leads =>
    have unclaimed : x.claiming = false := by
      rw [Bool.eq_false_iff]
      intro claims
      obtain ⟨call,member,claiming⟩ := List.any_eq_true.mp claims
      obtain ⟨point,here,claimed⟩ := (Option.any_eq_true ..).mp claiming
      rcases claiming_cases claimed with promoting | seeking
      · have unpromoted := List.any_eq_false.mp (safe rfl) call member
        simp [Suspension.promoting,Option.mem_def.mp here,promoting] at unpromoted
      · exact steady.follows call member point here seeking leads
    cases held : x.service.lock <;> refine begins_carries ?_ ?_ ?_ ?_ ?_ <;>
      simp [goesOn,Service.clearTimers,Service.demote,Service.release,Service.send,held,
        Point.claiming,Point.promoting,unclaimed]
  | stop follows =>
    refine begins_carries ?_ ?_ ?_ ?_ ?_ <;> simp [Service.clearTimers,Service.stopped]
  | serve index call command reply => exact absurd rfl (own index reply)
  | resume index call point reply now found isReady =>
    exact resumed_carries found isReady steady.single

theorem watchTick_seeks (s : Service κ) : s.watchTick.1.state = s.state ∧
    (s.watchTick.2.seeking = true → s.state ≠ .leader) := by
  by_cases leads : s.state = .leader <;> cases held : s.lock <;>
    simp [Service.watchTick,Service.extend,Service.send,leads,held,Point.seeking]

theorem steady_step (turn : Turn κ) (steady : Steady x) : Steady (x.step turn) := by
  refine ⟨single_step turn steady.single,?_⟩
  have moves := x.step_moves turn
  generalize x.step turn = y at moves
  cases moves with
  | idle => exact steady.follows
  | fire armed =>
    obtain ⟨same,seeks⟩ := watchTick_seeks x.service.clearTimers
    intro call member point here seeking leads
    have before := same.symm.trans leads
    rcases List.mem_append.mp member with old | new
    · exact steady.follows call old point here seeking before
    · obtain rfl := List.mem_singleton.mp new
      obtain rfl := Option.some.inj here
      exact seeks seeking before
  | demote leads =>
    intro _ _ _ _ _ still
    have follower := (demote_moves x.service.clearTimers).2.1
    cases follower.symm.trans still
  | stop follows =>
    intro _ _ _ _ _ leads
    exact follows leads
  | serve index call command reply found waits =>
    intro other member point here seeking leads
    have before : x.service.state = .leader := by
      simp only [Instance.notes] at leads
      split at leads <;> exact leads
    rcases List.mem_or_eq_of_mem_set member with old | rfl
    · exact steady.follows other old point here seeking before
    · exact steady.follows call (List.mem_of_getElem? found) point here seeking before
  | resume index call point reply now found isReady =>
    have own := Suspension.ready_point isReady
    have among := List.mem_of_getElem? found
    intro other member next here seeking leads
    obtain ⟨place,there⟩ := List.getElem?_of_mem member
    rcases set_cases found there with ⟨_,rfl⟩ | ⟨apart,old⟩
    · refine resume_seeking _ _ _ _ _ (steady.follows call among point own) ?_ leads
      exact (Option.any_eq_true ..).mpr ⟨next,here,seeking⟩
    · have mine := List.mem_of_getElem? old
      rcases resume_leads _ _ _ _ _ leads with before | rfl
      · exact steady.follows other mine next here seeking before
      · exact apart (steady.single.alone place index other old call found
          (steady.single.seeking_ticks mine here seeking)
          (steady.single.seeking_ticks among own rfl))

theorem steady_start : Steady (Instance.start : Instance κ) :=
  ⟨single_start,fun _ member => by cases member⟩

section Serve

variable {command : Command κ} {reply : Reply κ}

theorem notes_kept (command : Command κ) (reply : Reply κ) :
    (x.notes command reply).running = x.service.running ∧
      (x.notes command reply).lock = x.service.lock := by
  unfold Instance.notes
  split <;> exact ⟨rfl,rfl⟩

def Instance.served (x : Instance κ) (index : Nat) (call : Suspension κ) (command : Command κ)
    (reply : Reply κ) : Instance κ :=
  ⟨x.notes command reply,x.calls.set index { call with reply := some reply }⟩

theorem step_serve (found : x.calls[index]? = some call) (waits : call.pending = some command) :
    x.step (.serve index reply) = x.served index call command reply := by
  simp only [Instance.step,found,waits,Instance.served]

theorem served_running : (x.served index call command reply).running = x.running :=
  (notes_kept command reply).1

/-- Only the grant of a lock makes a call claim it. -/
theorem served_claiming (found : x.calls[index]? = some call) (waits : call.pending = some command)
    (claims : (x.served index call command reply).claiming = true) :
    x.claiming = true ∨ (command = .acquire ∧ ∃ g, reply = .lock g) := by
  obtain ⟨other,member,claiming⟩ := List.any_eq_true.mp claims
  rcases List.mem_or_eq_of_mem_set member with old | rfl
  · exact .inl (List.any_eq_true.mpr ⟨other,old,claiming⟩)
  · obtain ⟨point,here,sends⟩ := Suspension.pending_point waits
    rw [Suspension.claiming,here] at claiming
    cases point with
    | acquiring =>
      cases reply with
      | lock g => exact .inr ⟨(Option.some.inj sends).symm,g,rfl⟩
      | _ => cases claiming
    | announcing =>
      refine .inl (List.any_eq_true.mpr ⟨call,List.mem_of_getElem? found,?_⟩)
      rw [Suspension.claiming,here]
      rfl
    | acquired | announced => cases sends
    | _ => cases claiming

theorem served_demoting (found : x.calls[index]? = some call) (demotes : x.demoting = true) :
    (x.served index call command reply).demoting = true :=
  (demoting_set _ found demotes).elim (fun inside => set_demoting found inside) id

theorem served_releases {g : κ}
    (releases : ∃ other ∈ (x.served index call command reply).calls, other.releases g) :
    ∃ other ∈ x.calls, other.releases g := by
  obtain ⟨other,member,releasing,unanswered⟩ := releases
  rcases List.mem_or_eq_of_mem_set member with old | rfl
  · exact ⟨other,old,releasing,unanswered⟩
  · cases unanswered

theorem served_mentions {g : κ} (found : x.calls[index]? = some call)
    (mentions : (x.served index call command reply).mentions g) :
    x.mentions g ∨ reply = .lock g := by
  rcases mentions with held | ⟨other,member,mentions⟩
  · exact .inl (.inl ((notes_kept command reply).2.symm.trans held))
  · rcases List.mem_or_eq_of_mem_set member with old | rfl
    · exact .inl (.inr ⟨other,old,mentions⟩)
    · rcases mentions with extending | releasing | replied
      · exact .inl (.inr ⟨call,List.mem_of_getElem? found,.inl extending⟩)
      · exact .inl (.inr ⟨call,List.mem_of_getElem? found,.inr (.inl releasing)⟩)
      · exact .inr (Option.some.inj replied)

/-- A reply that grants nothing. -/
theorem served_carries (found : x.calls[index]? = some call) (waits : call.pending = some command)
    (ungranted : command = .acquire → ∀ g, reply ≠ .lock g)
    (known : ∀ g, reply = .lock g → x.mentions g) :
    Carries x (x.served index call command reply) := by
  refine ⟨?_,?_,?_,?_,?_⟩
  · intro runs
    have before : x.running = true := served_running.symm.trans runs
    simp [Instance.active,before]
  · intro claims
    rcases served_claiming found waits claims with before | ⟨acquires,g,granted⟩
    · exact before
    · exact absurd granted (ungranted acquires g)
  · exact fun demotes => .inl (served_demoting found demotes)
  · exact fun _ g => served_releases
  · exact fun g mentions => (served_mentions found mentions).elim id (known g)

end Serve

end Instances

section Invariant

variable {ι : Type} {c : Cluster ι} {i : ι}

/-- An instance that is on its way to starting its loop holds the lock, and so does one
whose loop runs outside `demote`. -/
structure Guarded (c : Cluster ι) : Prop where
  steady : ∀ i, Steady (c.instances i)
  owned : ∀ i g, (c.instances i).mentions g → g.1 = i ∧ g.2 < c.granted
  fresh : ∀ g ∈ c.lock, g.2 < c.granted
  claimed : ∀ i, (c.instances i).claiming = true → c.holds i
  kept : ∀ i, (c.instances i).claiming = true → ∀ g,
    (∃ call ∈ (c.instances i).calls, call.releases g) → c.lock ≠ some g
  held : ∀ i, (c.instances i).running = true → c.holds i ∨ (c.instances i).demoting = true
  one : ∀ i j, (c.instances i).active = true → (c.instances j).active = true → i = j

theorem guarded_start (heartbeat : HeartbeatValue) : Guarded (Cluster.start heartbeat : Cluster ι) where
  steady _ := steady_start
  owned := by
    rintro i g (held | ⟨call,member,_⟩)
    · cases held
    · cases member
  fresh _ here := by cases here
  claimed _ claims := by cases claims
  kept _ claims := by cases claims
  held _ runs := by cases runs
  one _ _ active := by cases active

namespace Guarded

/-- The lock is lost while nobody depends on it. -/
theorem free (guarded : Guarded c) (unused : ∀ g ∈ c.lock, (c.instances g.1).claiming = false ∧
    ((c.instances g.1).running = true → (c.instances g.1).demoting = true)) :
    Guarded { c with lock := none } := by
  have unclaimed : ∀ i, (c.instances i).claiming ≠ true := by
    intro i claims
    obtain ⟨g,here,rfl⟩ := guarded.claimed i claims
    have idle := (unused g here).1
    rw [claims] at idle
    cases idle
  refine ⟨guarded.steady,guarded.owned,?_,?_,?_,?_,guarded.one⟩
  · intro g here
    cases here
  · exact fun i claims => absurd claims (unclaimed i)
  · exact fun i claims => absurd claims (unclaimed i)
  · intro i runs
    rcases guarded.held i runs with ⟨g,here,rfl⟩ | demotes
    · exact .inr ((unused g here).2 runs)
    · exact .inr demotes

/-- Only the release of the lock that is held frees it, and its sender is inside `demote`. -/
theorem release (guarded : Guarded c) {call : Suspension (Grant ι)} {g : Grant ι}
    (member : call ∈ (c.instances i).calls) (releases : call.releases g) (own : c.lock = some g) :
    Guarded { c with lock := none } := by
  have mine := (guarded.owned i g (.inr ⟨call,member,.inr (.inl releases.1)⟩)).1
  apply guarded.free
  intro other here
  obtain rfl := Option.some.inj (own.symm.trans here)
  rw [mine]
  refine ⟨?_,fun _ => List.any_eq_true.mpr ⟨call,member,?_⟩⟩
  · rw [Bool.eq_false_iff]
    exact fun claims => guarded.kept i claims g ⟨call,member,releases⟩ own
  · rw [Suspension.demoting,releases.1]
    rfl

theorem grant (guarded : Guarded c) (free : c.lock = none) (g : Grant ι) (fresh : g.2 = c.granted) :
    Guarded { c with lock := some g, granted := c.granted + 1 } := by
  have unheld : ∀ i, ¬ c.holds i := by
    rintro i ⟨g,here,_⟩
    rw [free] at here
    cases here
  refine ⟨guarded.steady,?_,?_,?_,?_,?_,guarded.one⟩
  · intro i g mentions
    obtain ⟨mine,drawn⟩ := guarded.owned i g mentions
    exact ⟨mine,Nat.lt_succ_of_lt drawn⟩
  · intro other here
    obtain rfl := Option.some.inj here
    exact fresh ▸ Nat.lt_succ_self _
  · exact fun i claims => absurd (guarded.claimed i claims) (unheld i)
  · exact fun i claims => absurd (guarded.claimed i claims) (unheld i)
  · intro i runs
    exact .inr ((guarded.held i runs).resolve_left (unheld i))

theorem heartbeat (guarded : Guarded c) (value : HeartbeatValue) :
    Guarded { c with heartbeat := value } :=
  ⟨guarded.steady,guarded.owned,guarded.fresh,guarded.claimed,guarded.kept,guarded.held,guarded.one⟩

variable [DecidableEq ι]

theorem turn (guarded : Guarded c) (t : Turn (Grant ι))
    (carries : Carries (c.instances i) ((c.instances i).step t)) : Guarded (c.turn i t) := by
  have active : ∀ j, ((c.turn i t).instances j).active = true → (c.instances j).active = true := by
    apply c.turn_forall (fun j y => y.active = true → (c.instances j).active = true)
    · intro active
      rcases Bool.or_eq_true_iff.mp active with runs | claims
      · exact carries.running runs
      · simp [Instance.active,carries.claiming claims]
    · exact fun _ _ => id
  refine ⟨?_,?_,guarded.fresh,?_,?_,?_,?_⟩
  · exact c.turn_forall (fun _ y => Steady y) (steady_step t (guarded.steady i))
      fun j _ => guarded.steady j
  · apply c.turn_forall (fun j y => ∀ g, y.mentions g → g.1 = j ∧ g.2 < c.granted)
    · exact fun g mentions => guarded.owned i g (carries.mentions g mentions)
    · exact fun j _ => guarded.owned j
  · apply c.turn_forall (fun j y => y.claiming = true → c.holds j)
    · exact fun claims => guarded.claimed i (carries.claiming claims)
    · exact fun j _ => guarded.claimed j
  · apply c.turn_forall (fun _ y => y.claiming = true → ∀ g, (∃ call ∈ y.calls, call.releases g) →
      c.lock ≠ some g)
    · exact fun claims g releases =>
        guarded.kept i (carries.claiming claims) g (carries.releases claims g releases)
    · exact fun j _ => guarded.kept j
  · apply c.turn_forall (fun j y => y.running = true → c.holds j ∨ y.demoting = true)
    · intro runs
      have still : (c.instances i).demoting = true → ((c.instances i).step t).demoting = true := by
        intro demotes
        refine (carries.demoting demotes).resolve_right fun halted => ?_
        rw [runs] at halted
        cases halted
      rcases Bool.or_eq_true_iff.mp (carries.running runs) with before | claims
      · exact (guarded.held i before).imp_right still
      · exact .inl (guarded.claimed i claims)
    · exact fun j _ => guarded.held j
  · exact fun j k first second => guarded.one j k (active j first) (active k second)

variable {index : Nat} {call : Suspension (Grant ι)} {command : Command (Grant ι)}
  {reply : Reply (Grant ι)}

theorem serve (guarded : Guarded c) (found : (c.instances i).calls[index]? = some call)
    (waits : call.pending = some command) (ungranted : command = .acquire → ∀ g, reply ≠ .lock g)
    (known : ∀ g, reply = .lock g → command = .extend g) :
    Guarded (c.turn i (.serve index reply)) := by
  apply guarded.turn
  rw [step_serve found waits]
  apply served_carries found waits ungranted
  intro g granted
  obtain ⟨point,here,sends⟩ := Suspension.pending_point waits
  rw [known g granted] at sends
  refine .inr ⟨call,List.mem_of_getElem? found,.inl ?_⟩
  cases point with
  | extending own =>
    obtain ⟨rfl⟩ := Option.some.inj sends
    exact here
  | _ => cases sends

theorem claim (guarded : Guarded c) (found : (c.instances i).calls[index]? = some call)
    (waits : call.pending = some .acquire)
    (idle : ∀ j, j ≠ i → (c.instances j).active = false) :
    Guarded (({ c with lock := some (i,c.granted), granted := c.granted + 1 } : Cluster ι).turn i
      (.serve index (.lock (i,c.granted)))) := by
  set d : Cluster ι := { c with lock := some (i,c.granted), granted := c.granted + 1 }
  have moved : (d.instances i).step (.serve index (.lock (i,c.granted))) =
      (c.instances i).served index call .acquire (.lock (i,c.granted)) := step_serve found waits
  have mine : d.holds i := ⟨(i,c.granted),rfl,rfl⟩
  have quiet : ∀ j, j ≠ i → (c.instances j).running = false ∧ (c.instances j).claiming = false :=
    fun j apart => Bool.or_eq_false_iff.mp (idle j apart)
  refine ⟨?_,?_,?_,?_,?_,?_,?_⟩
  · exact d.turn_forall (fun _ y => Steady y) (steady_step _ (guarded.steady i))
      fun j _ => guarded.steady j
  · apply d.turn_forall (fun j y => ∀ g, y.mentions g → g.1 = j ∧ g.2 < d.granted)
    · intro g mentions
      rw [moved] at mentions
      rcases served_mentions found mentions with before | granted
      · obtain ⟨own,drawn⟩ := guarded.owned i g before
        exact ⟨own,Nat.lt_succ_of_lt drawn⟩
      · obtain ⟨rfl⟩ := granted
        exact ⟨rfl,Nat.lt_succ_self _⟩
    · intro j _ g mentions
      obtain ⟨own,drawn⟩ := guarded.owned j g mentions
      exact ⟨own,Nat.lt_succ_of_lt drawn⟩
  · intro g here
    obtain rfl := Option.some.inj here
    exact Nat.lt_succ_self _
  · apply d.turn_forall (fun j y => y.claiming = true → d.holds j)
    · exact fun _ => mine
    · intro j apart claims
      exact absurd claims (Bool.eq_false_iff.mp (quiet j apart).2)
  · apply d.turn_forall (fun _ y => y.claiming = true → ∀ g,
      (∃ call ∈ y.calls, call.releases g) → d.lock ≠ some g)
    · intro _ g releases same
      rw [moved] at releases
      obtain ⟨other,member,releasing,_⟩ := served_releases releases
      have drawn := (guarded.owned i g (.inr ⟨other,member,.inr (.inl releasing)⟩)).2
      obtain rfl := Option.some.inj same
      exact absurd drawn (Nat.lt_irrefl _)
    · intro j apart claims
      exact absurd claims (Bool.eq_false_iff.mp (quiet j apart).2)
  · apply d.turn_forall (fun j y => y.running = true → d.holds j ∨ y.demoting = true)
    · exact fun _ => .inl mine
    · intro j apart runs
      exact absurd runs (Bool.eq_false_iff.mp (quiet j apart).1)
  · have alone := d.turn_forall (i := i) (t := .serve index (.lock (i,c.granted)))
      (fun j y => y.active = true → j = i) (fun _ => rfl)
      (fun j apart active => absurd active (Bool.eq_false_iff.mp (idle j apart)))
    exact fun j k first second => (alone j first).trans (alone k second).symm

theorem execute (guarded : Guarded c) (found : (c.instances i).calls[index]? = some call)
    (waits : call.pending = some command) (delivery : Delivery) :
    Guarded (c.execute i delivery command).2 := by
  cases command with
  | getHeartbeat => exact guarded
  | setHeartbeat ts =>
    simp only [Cluster.execute]
    split
    · exact guarded.heartbeat _
    · exact guarded
  | acquire =>
    simp only [Cluster.execute]
    split
    · exact guarded
    · rename_i free
      split
      · exact guarded.grant free _ rfl
      · exact guarded
  | extend lock =>
    simp only [Cluster.execute]
    split <;> exact guarded
  | release lock =>
    obtain ⟨point,here,sends⟩ := Suspension.pending_point waits
    have unanswered : call.reply = none := by
      cases replied : call.reply with
      | none => rfl
      | some => simp [Suspension.pending,replied] at waits
    have releases : call.releases lock := by
      cases point with
      | releasing own =>
        obtain ⟨rfl⟩ := Option.some.inj sends
        exact ⟨here,unanswered⟩
      | _ => cases sends
    simp only [Cluster.execute]
    split
    · rename_i own
      split
      · exact guarded.release (List.mem_of_getElem? found) releases own
      · exact guarded
    · exact guarded

end Guarded

variable [DecidableEq ι]

theorem execute_instances (delivery : Delivery) (command : Command (Grant ι)) :
    (c.execute i delivery command).2.instances = c.instances := by
  fun_cases Cluster.execute c i delivery command <;> (try split) <;> rfl

/-- Only a grant and an extension reply with a lock. -/
theorem execute_lock {delivery : Delivery} {command : Command (Grant ι)} {g : Grant ι}
    (granted : (c.execute i delivery command).1 = .lock g) :
    (command = .acquire ∧ c.lock = none ∧ delivery.answers = true) ∨ command = .extend g := by
  cases command with
  | getHeartbeat | setHeartbeat => cases delivery <;> cases granted
  | acquire =>
    simp only [Cluster.execute] at granted
    split at granted
    · cases granted
    · rename_i free
      cases delivery with
      | performed => exact .inl ⟨rfl,free,rfl⟩
      | _ => cases granted
  | extend own =>
    simp only [Cluster.execute] at granted
    split at granted <;> cases delivery <;> cases granted
    exact .inr rfl
  | release own =>
    simp only [Cluster.execute] at granted
    split at granted <;> cases delivery <;> cases granted

theorem guarded_step (event : Event ι) (safe : c.safe event) (guarded : Guarded c) :
    Guarded (c.step event) := by
  cases event with
  | fire i => exact guarded.turn .fire (turn_carries (guarded.steady i) nofun nofun)
  | stop i => exact guarded.turn .stop (turn_carries (guarded.steady i) nofun fun _ => safe)
  | resume i index now =>
    exact guarded.turn (.resume index now) (turn_carries (guarded.steady i) nofun nofun)
  | lapse => exact guarded.free safe
  | forget => exact guarded.heartbeat _
  | serve i index delivery =>
    simp only [Cluster.step]
    split
    · exact guarded
    rename_i command pending
    obtain ⟨call,found,waits⟩ := Option.bind_eq_some_iff.mp pending
    by_cases grants : command = .acquire ∧ c.lock = none ∧ delivery.answers = true
    · obtain ⟨rfl,free,answers⟩ := grants
      have unheld : ∀ j, ¬ c.holds j := by
        rintro j ⟨g,here,_⟩
        rw [free] at here
        cases here
      have granted : c.execute i delivery .acquire = (.lock (i,c.granted),
          { c with lock := some (i,c.granted), granted := c.granted + 1 }) := by
        cases delivery with
        | performed => simp [Cluster.execute,free,answer,Delivery.answers,Delivery.applies]
        | _ => cases answers
      rw [granted]
      apply guarded.claim found waits
      intro j apart
      rw [Bool.eq_false_iff]
      intro active
      rcases Bool.or_eq_true_iff.mp active with runs | claims
      · have demotes := (guarded.held j runs).resolve_left (unheld j)
        have outside := safe pending free answers j apart runs
        rw [demotes] at outside
        cases outside
      · exact unheld j (guarded.claimed j claims)
    · have same : ((c.execute i delivery command).2.instances i).calls[index]? = some call := by
        rw [execute_instances]
        exact found
      apply (guarded.execute found waits delivery).serve same waits
      · intro acquires g granted
        rcases execute_lock granted with grant | extends_
        · exact grants grant
        · rw [acquires] at extends_
          cases extends_
      · exact fun g granted => (execute_lock granted).resolve_left grants

theorem one_active {heartbeat : HeartbeatValue} {labels : List (Event ι)} {t : Cluster ι}
    (safe : Cluster.election.Along Cluster.safe (Cluster.start heartbeat) labels)
    (reached : Cluster.election.Reached (Cluster.start heartbeat) labels t) : t.exclusive := by
  have guarded := Transition.invariant_reached Guarded (fun _ event => guarded_step event) safe
    (guarded_start heartbeat) reached
  intro i j first second
  apply guarded.one
  · simp [Instance.active,first]
  · simp [Instance.active,second]

end Invariant

/-- A tick finds the heartbeat stale, takes the lock and starts the loop. -/
def elected (i : Bool) (now : Int) : List (Event Bool) :=
  [.fire i,.serve i 0 .performed,.resume i 0 now,.resume i 0 now,.serve i 0 .performed,
    .resume i 0 now,.resume i 0 now,.serve i 0 .performed,.resume i 0 now,.resume i 0 now]

def handover : List (Event Bool) :=
  elected true 0 ++ [.stop true,.serve true 1 .performed,.resume true 1 0,.resume true 1 0] ++
    elected false 40000

theorem one_active_handover :
    (Cluster.election.run (Cluster.start .absent) handover).exclusive ∧
      ((Cluster.election.run (Cluster.start .absent) handover).instances false).running = true :=
  ⟨one_active (by decide +kernel) ⟨handover,List.prefix_rfl,rfl⟩,by decide +kernel⟩

/-- The lock of a leader that steps down is free while its loop still runs. -/
theorem two_active : ¬ ∀ labels : List (Event Bool), (∀ event ∈ labels, event ≠ .lapse) →
    ∀ t, Cluster.election.Reached (Cluster.start .absent) labels t → t.exclusive := by
  intro claim
  let labels : List (Event Bool) :=
    elected true 0 ++ [.stop true,.serve true 1 .performed] ++ elected false 40000
  have both : ((Cluster.election.run (Cluster.start .absent) labels).instances true).running = true ∧
      ((Cluster.election.run (Cluster.start .absent) labels).instances false).running = true := by
    decide +kernel
  have one := claim labels (by simp [labels,elected]) _ ⟨labels,List.prefix_rfl,rfl⟩
  cases one true false both.1 both.2

end JobScheduler.LeaderElection
