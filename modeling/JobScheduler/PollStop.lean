import JobScheduler.PollSlots
import Mathlib.Algebra.BigOperators.Group.List.Basic

/-! What the poll loop still does after a stop. A stop clears one timer and a flag, and no tick
looks at the flag: a suspended tick goes on with its queues. The loop keeps still as long as
such a tick gets replies that leave it nothing to do. -/
namespace JobScheduler

open TimerLoop

/-- One turn of the loop in `drain`. -/
inductive Drain where
  | waits
  | timedOut
  | drained
  deriving DecidableEq

namespace PollLoop

/-- `drain(timeoutMs)` was called at `start`, and looks at the counter at `now`. -/
def drain (timeoutMs start now : Int) (fields : PollFields) : Drain :=
  if 0 < fields.activeJobs then if timeoutMs < now - start then .timedOut else .waits
  else .drained

def lastKey : String := queueKeyMap .scheduledReport

/-- The replies on which a tick ends: the time reading fails, or the last queue is empty, cannot
be read or does not let go of its ids. -/
def endsOn : (op : Op) → Except Thrown op.Reply → Bool
  | .redisTime, .error _ => true
  | .zrangebyscore key _ _ _ _, .ok results => key = lastKey && (results.getD []).isEmpty
  | .zrangebyscore key _ _ _ _, .error _ => key = lastKey
  | .zrem key _, .error _ => key = lastKey
  | _, _ => false

end PollLoop

open PollLoop

/-- The counter is the number of ids in the batches in flight, and no batch is empty. -/
structure Accounts (fields : PollFields) : Prop where
  counter : fields.activeJobs = fields.batches.flatten.length
  filled : ∀ jobIds ∈ fields.batches, jobIds ≠ []

section Accounting

variable {fields : PollFields}

theorem Accounts.dispatch (accounts : Accounts fields) {jobIds : List String} (some : jobIds ≠ []) :
    Accounts ⟨fields.activeJobs + jobIds.length,fields.batches ++ [jobIds]⟩ where
  counter := by simp [accounts.counter]
  filled batch member := by
    rcases List.mem_append.mp member with old | new
    · exact accounts.filled batch old
    · exact List.mem_singleton.mp new ▸ some

theorem Accounts.settle (accounts : Accounts fields) (index : Nat) :
    Accounts (PollLoop.settle index fields) := by
  unfold PollLoop.settle
  split
  · exact accounts
  · rename_i jobIds found
    obtain ⟨inside,rfl⟩ := List.getElem?_eq_some_iff.mp found
    refine ⟨?_,fun batch member => accounts.filled batch (List.mem_of_mem_eraseIdx member)⟩
    have mapped : index < (fields.batches.map List.length).length := by simpa using inside
    have total := List.CommMonoid.add_sum_eraseIdx mapped
    rw [List.getElem_map,List.eraseIdx_map,← List.length_flatten,← List.length_flatten,
      ← accounts.counter] at total
    exact (Nat.eq_sub_of_add_eq' total).symm

theorem Accounts.idle (accounts : Accounts fields) (none : fields.activeJobs = 0) :
    fields.batches = [] := by
  rw [accounts.counter,List.length_eq_zero_iff,List.flatten_eq_nil_iff] at none
  exact List.eq_nil_iff_forall_not_mem.mpr fun jobIds member =>
    accounts.filled jobIds member (none jobIds member)

end Accounting

abbrev Counted (s : PollState) : Prop := Kept Slots.monitor (fun _ _ => True) Accounts s

theorem counted_start (world : World) : Counted (PollLoop.start world) :=
  kept_initial world ⟨rfl,nofun⟩

theorem counted_step (instanceId : String) (s : PollState) (turn : PollTurn) (counted : Counted s) :
    Counted ((PollLoop.loop instanceId).step s turn) := by
  apply kept_step _ _ _ _ s turn counted
  · intro fields
    exact ⟨_,Slots.tick_keeps instanceId fields.activeJobs⟩
  · intro left op ω w _
    exact Slots.perform_answers left op ω w
  · intro left op fields allowed accounts
    cases op with
    | dispatch instanceId jobIds jobType => exact accounts.dispatch allowed.1
    | _ => exact accounts
  · intro index fields accounts
    exact accounts.settle index

namespace Winding

/-- After a reply that a tick ends on it awaits nothing more. -/
def monitor : Program.Monitor signature Thrown Bool where
  allowed ended _ := ended = false
  answers _ _ _ := True
  next _ op reply := endsOn op reply

@[simp] theorem monitor_allowed (ended : Bool) (op : Op) :
    monitor.allowed ended op = (ended = false) := rfl
@[simp] theorem monitor_answers (ended : Bool) (op : Op) (reply : Except Thrown op.Reply) :
    monitor.answers ended op reply = True := rfl
@[simp] theorem monitor_next (ended : Bool) (op : Op) (reply : Except Thrown op.Reply) :
    monitor.next ended op reply = endsOn op reply := rfl

attribute [local simp] endsOn lastKey Program.forall_except Program.perform await dateNow

theorem dequeue_winds (jobType : JobType) (nowMs : Int) (count : Nat) :
    Program.wp monitor (fun ended result => (ended = true → jobType = .scheduledReport) ∧
      ∀ jobIds, result = .ok jobIds → jobIds ≠ [] → ended = false)
      (RedisJobQueue.dequeue jobType nowMs count) false := by
  have last : decide (queueKeyMap jobType = lastKey) = true → jobType = .scheduledReport :=
    fun same => queueKeyMap_injective (of_decide_eq_true same)
  refine (Program.wp_bind ..).mpr ⟨rfl,?_⟩
  rintro (e | results) _
  · refine ⟨last,?_⟩
    rintro _ ⟨⟩
  · simp only [Program.wp_settled,Program.thenPost_ok]
    split
    · refine ⟨fun ended => last (Bool.and_eq_true_iff.mp ended).1,?_⟩
      rintro _ ⟨⟩ filled
      exact absurd rfl filled
    · rename_i some
      have goes : monitor.next false (.zrangebyscore (queueKeyMap jobType) 0 nowMs 0 count)
          (.ok results) = false := by
        have filled : (results.getD []).isEmpty = false := by
          simpa [List.isEmpty_eq_false_iff] using some
        simp [filled]
      refine (Program.wp_bind ..).mpr ⟨goes,?_⟩
      rintro (e | removed) _
      · refine ⟨last,?_⟩
        rintro _ ⟨⟩
      · exact ⟨(absurd · Bool.false_ne_true),fun _ _ _ => rfl⟩

theorem pollQueues_winds (instanceId : String) (nowMs : Int) (jobTypes : List JobType)
    {remainingSlots : Nat} {ended : Bool} (ready : ended = true → jobTypes = [])
    (lasts : ∀ rest, .scheduledReport :: rest <:+ jobTypes → rest = []) :
    Program.wp monitor (fun _ _ => True)
      (PollLoop.pollQueues instanceId nowMs jobTypes remainingSlots) ended := by
  induction jobTypes generalizing remainingSlots ended with
  | nil => trivial
  | cons jobType rest ih =>
    obtain rfl : ended = false := Bool.eq_false_iff.mpr fun ends => List.cons_ne_nil _ _ (ready ends)
    have later : ∀ ended, (ended = true → jobType = .scheduledReport) → ∀ slots,
        Program.wp monitor (fun _ _ => True) (PollLoop.pollQueues instanceId nowMs rest slots)
          ended := by
      intro ended last slots
      refine ih (fun ends => ?_) fun after suffix => lasts after (suffix.trans (List.suffix_cons ..))
      obtain rfl := last ends
      exact lasts rest List.suffix_rfl
    unfold PollLoop.pollQueues
    split
    · trivial
    · simp only [Program.wp_bind,Program.wp_tryCatch]
      apply Program.wp_mono (dequeue_winds jobType nowMs remainingSlots)
      rintro ended (e | jobIds) ⟨last,goes⟩
      · exact later ended last _
      · simp only [Program.thenPost_ok]
        split
        · exact later ended last _
        · rename_i some
          have filled : jobIds ≠ [] := fun empty => some (List.length_eq_zero_iff.mpr empty)
          refine (Program.wp_bind ..).mpr ⟨goes jobIds rfl filled,?_⟩
          rintro (e | value) _
          · exact later false (absurd · Bool.false_ne_true) _
          · exact later false (absurd · Bool.false_ne_true) _

theorem tick_winds (instanceId : String) (activeJobs : Nat) :
    Program.wp monitor (fun _ _ => True) (PollLoop.tick instanceId activeJobs) false := by
  unfold PollLoop.tick
  dsimp only
  split
  · trivial
  · have polls : ∀ nowMs, Program.wp monitor (fun _ _ => True) (PollLoop.pollQueues instanceId nowMs
        PollLoop.pollOrder (min (maxConcurrentJobs - activeJobs) pollBatchSize)) false := by
      intro nowMs
      refine pollQueues_winds instanceId nowMs PollLoop.pollOrder
        (absurd · Bool.false_ne_true) fun rest suffix => ?_
      simpa [PollLoop.pollOrder,List.suffix_cons_iff] using suffix
    simpa using polls

end Winding

abbrev PollAct := TimerLoop.Act signature Oracle

/-- A range read is issued, a batch is dispatched, or Redis removes ids for the loop. -/
def works : PollAct → Bool
  | .sends (.zrangebyscore _ _ _ _ _) | .runs (.dispatch _ _ _) => true
  | .serves (.zrem _ _) ω => ω.delivery.applies
  | _ => false

def resting : List PollAct → Bool
  | [] => false
  | .started :: _ => false
  | .stopped :: _ => true
  | _ :: earlier => resting earlier

def Quiet : List PollAct → Prop
  | [] => True
  | act :: earlier => (works act = true → resting earlier = false) ∧ Quiet earlier

/-- A stop finds a timer that the loop has lost the handle of, or a tick carries on its work
while the loop is stopped. -/
def carriesOn (s : PollState) : PollTurn → Bool
  | .stop => s.armed.any fun id => some id ≠ s.timer
  | .serve index ω => !s.running &&
    match s.ticks[index]? with
    | some (.waiting (.zrem _ _) _) => ω.delivery.applies
    | _ => false
  | .resume index _ => !s.running &&
    match s.ticks[index]? with
    | some (.served op reply _) => !endsOn op reply
    | _ => false
  | _ => false

instance Quiet.decidable : ∀ acts, Decidable (Quiet acts)
  | [] => .isTrue trivial
  | _ :: earlier => @instDecidableAnd _ _ inferInstance (Quiet.decidable earlier)

/-- After a stop no range is read, no batch dispatched and no id removed until the next start,
and a `drain` that ends before its timeout leaves no batch in flight. -/
def StopsWork (t : PollState) : Prop :=
  Quiet t.acts ∧ (resting t.acts = true → ∀ timeoutMs start now,
    PollLoop.drain timeoutMs start now t.fields = .drained → t.fields.batches = [])

theorem quiet_append {acts earlier : List PollAct}
    (shown : ∀ act ∈ acts, (∃ op, act = .sends op) ∨ ∃ op, act = .runs op)
    (awake : resting earlier = false) (quiet : Quiet earlier) :
    resting (acts ++ earlier) = false ∧ Quiet (acts ++ earlier) := by
  induction acts with
  | nil => exact ⟨awake,quiet⟩
  | cons act acts ih =>
    obtain ⟨later,calm⟩ := ih fun other member => shown other (List.mem_cons_of_mem act member)
    rcases shown act List.mem_cons_self with ⟨op,rfl⟩ | ⟨op,rfl⟩ <;>
      exact ⟨later,fun _ => later,calm⟩

/-- A stopped loop has no timer and is at rest. -/
structure Still (s : PollState) : Prop where
  unarmed : s.running = false → s.armed = []
  awake : s.running = true → resting s.acts = false
  quiet : Quiet s.acts
  winds : Kept Winding.monitor (fun _ _ => True) (fun _ => True) s

section Stopping

variable {instanceId : String} {s : PollState}

theorem Still.running (runs : s.running = true) (awake : resting s.acts = false)
    (quiet : Quiet s.acts) (winds : Kept Winding.monitor (fun _ _ => True) (fun _ => True) s) :
    Still s :=
  ⟨fun stopped => absurd (runs.symm.trans stopped) (by decide),fun _ => awake,quiet,winds⟩

theorem advance_quiet (instanceId : String) (ω : Oracle) (program : Async Unit)
    (awake : resting s.acts = false) (quiet : Quiet s.acts) :
    resting ((PollLoop.loop instanceId).advance ω s program).1.acts = false ∧
      Quiet ((PollLoop.loop instanceId).advance ω s program).1.acts := by
  obtain ⟨world,fields,acts,after,shown⟩ :=
    advance_frame (M := PollLoop.loop instanceId) (s := s) ω program
  rw [after]
  exact quiet_append shown awake quiet

theorem Still.ended (still : Still s) {index : Nat} {op : Op} {reply : Except Thrown op.Reply}
    {rest : Async Unit} (found : s.ticks[index]? = some (.served op reply rest))
    (ends : endsOn op reply = true) : ∃ result, rest = .settled result := by
  obtain ⟨ended,_,_,winds⟩ := still.winds.ticks _ (List.mem_of_getElem? found)
  cases rest with
  | settled result => exact ⟨result,rfl⟩
  | await next resume => exact absurd (ends.symm.trans winds.1) (by decide)

theorem still_start (world : World) : Still (PollLoop.start world) where
  unarmed _ := rfl
  awake := nofun
  quiet := trivial
  winds := kept_initial world trivial

theorem winds_step (instanceId : String) (s : PollState) (turn : PollTurn)
    (winds : Kept Winding.monitor (fun _ _ => True) (fun _ => True) s) :
    Kept Winding.monitor (fun _ _ => True) (fun _ => True) ((PollLoop.loop instanceId).step s turn) :=
  kept_step (fun fields => ⟨false,Winding.tick_winds instanceId fields.activeJobs⟩)
    (fun _ _ _ _ _ => trivial) (fun _ _ _ _ _ => trivial) (fun _ _ _ => trivial) s turn winds

theorem still_step (s : PollState) (turn : PollTurn) (leaves : carriesOn s turn = false)
    (still : Still s) : Still ((PollLoop.loop instanceId).step s turn) := by
  have winds := winds_step instanceId s turn still.winds
  have ⟨unarmed,awake,quiet,_⟩ := still
  have moves := (PollLoop.loop instanceId).step_moves s turn
  generalize (PollLoop.loop instanceId).step s turn = t at moves winds
  cases moves with
  | idle | event | others => exact ⟨unarmed,awake,quiet,winds⟩
  | start rests => exact .running rfl rfl ⟨nofun,quiet⟩ winds
  | stop =>
    refine ⟨fun _ => ?_,nofun,⟨nofun,quiet⟩,winds⟩
    refine List.filter_eq_nil_iff.mpr fun id member keeps => ?_
    exact List.any_eq_false.mp leaves id member keeps
  | fire index ω id found =>
    have runs : s.running = true := by
      rw [← Bool.not_eq_false]
      intro stopped
      rw [unarmed stopped] at found
      cases found
    obtain ⟨later,calm⟩ := advance_quiet instanceId
      (s := { s with armed := s.armed.eraseIdx index }) ω
      ((PollLoop.loop instanceId).tick s.fields) (awake runs) quiet
    exact .running ((advance_running ..).trans runs) later calm winds
  | serve index ω op resume found =>
    refine ⟨unarmed,awake,⟨fun worked => ?_,quiet⟩,winds⟩
    cases runs : s.running with
    | true => exact awake runs
    | false =>
      cases op with
      | zrem key jobIds =>
        have lost : ω.delivery.applies = false := by simpa [carriesOn,runs,found] using leaves
        exact absurd (lost.symm.trans worked) (by decide)
      | _ => cases worked
  | resume index ω op reply rest found =>
    cases runs : s.running with
    | true =>
      obtain ⟨later,calm⟩ := advance_quiet instanceId ω rest (awake runs) quiet
      exact .running ((advance_running ..).trans runs) later calm winds
    | false =>
      have ends : endsOn op reply = true := by simpa [carriesOn,runs,found] using leaves
      obtain ⟨result,rfl⟩ := still.ended found ends
      exact ⟨unarmed,awake,quiet,winds⟩
  | conclude index ω result found =>
    obtain same | ⟨runs,arms⟩ := conclude_frame { s with ticks := s.ticks.eraseIdx index } result
    · rw [same] at winds ⊢
      exact ⟨unarmed,awake,quiet,winds⟩
    · rw [arms] at winds ⊢
      exact .running runs (awake runs) quiet winds

theorem drained_idle {timeoutMs start now : Int} {fields : PollFields}
    (drained : PollLoop.drain timeoutMs start now fields = .drained) : fields.activeJobs = 0 := by
  unfold PollLoop.drain at drained
  split at drained
  · split at drained <;> cases drained
  · omega

/-- Stop means stop. -/
theorem stop_means_stop (instanceId : String) (world : World) {turns : List PollTurn}
    (leaves : (PollLoop.loop instanceId).transition.Along
      (fun s turn => carriesOn s turn = false) (PollLoop.start world) turns) {t : PollState}
    (reached : (PollLoop.loop instanceId).transition.Reached (PollLoop.start world) turns t) :
    StopsWork t := by
  have counted := Transition.invariant_reached Counted
    (fun s turn _ => counted_step instanceId s turn) leaves (counted_start world) reached
  have still := Transition.invariant_reached Still (fun s turn => still_step s turn) leaves
    (still_start world) reached
  refine ⟨still.quiet,fun _ timeoutMs start now drained => ?_⟩
  exact counted.fields.idle (drained_idle drained)

end Stopping

def unreachable : Oracle := { calm 60 with delivery := .lost (.error (text "ECONNRESET") none) }

/-- A tick that waits for the time at a stop ends when Redis cannot be reached. -/
theorem stop_means_stop_unreachable :
    StopsWork ((PollLoop.loop "a").transition.run (PollLoop.start dueWorld)
      (firstTick ++ [.stop,.serve 0 unreachable,.resume 0 (calm 60)])) :=
  stop_means_stop "a" dueWorld (by decide +kernel) ⟨_,List.prefix_rfl,rfl⟩

/-- A tick that reads a queue at the stop removes and dispatches what it reads. -/
theorem stop_carries_on : ¬ ∀ (turns : List PollTurn) (t : PollState),
    (PollLoop.loop "a").transition.Reached (PollLoop.start dueWorld) turns t → StopsWork t := by
  intro claim
  let turns : List PollTurn := firstTick ++ goOn 0 ++ [.stop] ++ goOn 0 ++ goOn 0
  have stops := claim turns _ ⟨turns,List.prefix_rfl,rfl⟩
  exact absurd stops.1 (by decide +kernel)

end JobScheduler
