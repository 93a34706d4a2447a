import JobScheduler.System
import JobScheduler.TimerLoop

/-! The slots of the poll loop. A tick takes no more ids than it found slots free at its
start, and dispatches what it takes; so the cap holds as long as no tick starts, with the
gate open, while another one still waits for its queues. -/
namespace JobScheduler

/-- The counter of the loop, and the batches whose dispatch has not settled. -/
structure PollFields where
  activeJobs : Nat
  batches : List (List String)

namespace PollLoop

def immediate : Op → Bool
  | .dateNow | .dispatch _ _ _ => true
  | _ => false

/-- `this.activeJobs += jobIds.length`, and the batch is in flight. -/
def effect : Op → PollFields → PollFields
  | .dispatch _ jobIds _, fields => ⟨fields.activeJobs + jobIds.length,fields.batches ++ [jobIds]⟩
  | _, fields => fields

/-- The `finally` of a dispatch that has resolved or rejected: it subtracts the length of its
batch from the counter, down to zero at most. -/
def settle (index : Nat) (fields : PollFields) : PollFields :=
  match fields.batches[index]? with
  | none => fields
  | some jobIds => ⟨fields.activeJobs - jobIds.length,fields.batches.eraseIdx index⟩

def loop (instanceId : String) : TimerLoop signature Thrown World Oracle PollFields Nat where
  perform := perform
  immediate := immediate
  effect := effect
  tick fields := tick instanceId fields.activeJobs
  event := settle

end PollLoop

abbrev PollState := TimerLoop.State signature Thrown World Oracle PollFields
abbrev PollTurn := TimerLoop.Turn World Oracle Nat

def PollLoop.start (world : World) : PollState := TimerLoop.initial world ⟨0,[]⟩

namespace Slots

/-- With `left` slots a tick asks for no more ids, and dispatches no more and at least one. -/
def allowed (left : Nat) : Op → Prop
  | .zrangebyscore _ _ _ _ count => count ≤ left
  | .dispatch _ jobIds _ => jobIds ≠ [] ∧ jobIds.length ≤ left
  | _ => True

def answers (_ : Nat) : (op : Op) → Except Thrown op.Reply → Prop
  | .zrangebyscore _ _ _ _ count, .ok results => (results.getD []).length ≤ count
  | .dispatch _ _ _, reply => reply = .ok ()
  | _, _ => True

def next (left : Nat) : (op : Op) → Except Thrown op.Reply → Nat
  | .dispatch _ jobIds _, _ => left - jobIds.length
  | _, _ => left

def monitor : Program.Monitor signature Thrown Nat where
  allowed := allowed
  answers := answers
  next := next

@[simp] theorem monitor_allowed : monitor.allowed = allowed := rfl
@[simp] theorem monitor_answers : monitor.answers = answers := rfl
@[simp] theorem monitor_next : monitor.next = next := rfl

/-- Redis keeps to the limit of a range read, and a dispatch is only begun. -/
theorem perform_answers (left : Nat) (op : Op) (ω : Oracle) (w : World) :
    answers left op (perform op ω w).1 := by
  cases op with
  | zrangebyscore key low high offset count =>
    simp only [perform]
    cases ω.delivery with
    | performed => simp [answers,SortedSet.zrangebyscore]
    | lost e => trivial
    | unacknowledged e => exact Nat.zero_le _
  | dispatch => rfl
  | _ => trivial

theorem next_le (left : Nat) (op : Op) (reply : Except Thrown op.Reply) :
    next left op reply ≤ left := by
  cases op with
  | dispatch => exact Nat.sub_le ..
  | _ => exact Nat.le_refl _

abbrev Keeps (program : Async α) (left : Nat) : Prop :=
  Program.wp monitor (fun _ _ => True) program left

section Tick

attribute [local simp] allowed answers next Program.forall_except Program.perform await dateNow

theorem dequeue_keeps (jobType : JobType) (nowMs : Int) {count left : Nat} (within : count ≤ left) :
    Program.wp monitor (fun after result => after = left ∧ ∀ jobIds, result = .ok jobIds →
      jobIds.length ≤ count) (RedisJobQueue.dequeue jobType nowMs count) left := by
  refine (Program.wp_bind ..).mpr ⟨within,?_⟩
  rintro (e | results) limited
  · exact ⟨rfl,nofun⟩
  · simp only [Program.wp_settled,Program.thenPost_ok]
    split
    · exact ⟨rfl,fun _ empty => Except.ok.inj empty ▸ Nat.zero_le count⟩
    · refine (Program.wp_bind ..).mpr ⟨trivial,?_⟩
      rintro (e | removed) _
      · exact ⟨rfl,nofun⟩
      · exact ⟨rfl,fun _ read => Except.ok.inj read ▸ limited⟩

theorem pollQueues_keeps (instanceId : String) (nowMs : Int) (jobTypes : List JobType)
    {remainingSlots left : Nat} (within : remainingSlots ≤ left) :
    Keeps (PollLoop.pollQueues instanceId nowMs jobTypes remainingSlots) left := by
  induction jobTypes generalizing remainingSlots left with
  | nil => trivial
  | cons jobType rest ih =>
    unfold PollLoop.pollQueues
    split
    · trivial
    · simp only [Keeps,Program.wp_bind,Program.wp_tryCatch]
      apply Program.wp_mono (dequeue_keeps jobType nowMs within)
      rintro after (e | jobIds) ⟨rfl,taken⟩
      · simpa using ih within
      · have room := taken jobIds rfl
        simp only [Program.thenPost_ok]
        split
        · simpa using ih within
        · rename_i some
          refine (Program.wp_bind ..).mpr ⟨⟨?_,room.trans within⟩,?_⟩
          · rintro rfl
            exact some rfl
          · rintro _ rfl
            exact ih (Nat.sub_le_sub_right within _)

theorem tick_keeps (instanceId : String) (activeJobs : Nat) :
    Keeps (PollLoop.tick instanceId activeJobs) (maxConcurrentJobs - activeJobs) := by
  unfold PollLoop.tick
  dsimp only
  split
  · trivial
  · have room : min (maxConcurrentJobs - activeJobs) pollBatchSize ≤ maxConcurrentJobs - activeJobs :=
      Nat.min_le_left ..
    simp [Keeps,pollQueues_keeps instanceId _ PollLoop.pollOrder room]

end Tick

end Slots

open TimerLoop

/-- A timer fires with the gate open while a tick of the loop is suspended. -/
def overlaps (s : PollState) : PollTurn → Bool
  | .fire _ _ => minFreeSlots ≤ maxConcurrentJobs - s.fields.activeJobs && s.ticks.any Tick.suspended
  | _ => false

/-- The jobs in flight and the slots that the suspended tick has left stay within the cap. -/
structure Capped (s : PollState) : Prop where
  cap : s.fields.activeJobs ≤ maxConcurrentJobs
  room : ∀ tick ∈ s.ticks, tick.suspended = true → ∃ left,
    s.fields.activeJobs + left ≤ maxConcurrentJobs ∧
      tick.Meets Slots.monitor (fun _ _ => True) left
  only : s.ticks.countP Tick.suspended ≤ 1

theorem runs_within (left : Nat) (op : Op) (ω : Oracle) (w : World) (fields : PollFields)
    (allowed : Slots.allowed left op) (room : fields.activeJobs + left ≤ maxConcurrentJobs) :
    Slots.answers left op (perform op ω w).1 ∧ (PollLoop.effect op fields).activeJobs +
      Slots.next left op (perform op ω w).1 ≤ maxConcurrentJobs := by
  refine ⟨Slots.perform_answers left op ω w,?_⟩
  cases op with
  | dispatch instanceId jobIds jobType =>
    have some : jobIds.length ≤ left := allowed.2
    simp only [PollLoop.effect,Slots.next]
    omega
  | _ => exact room

section Cap

variable {s : PollState} {instanceId : String}

/-- The backpressure gate: without enough free slots a tick does nothing. -/
theorem tick_closed (instanceId : String) {activeJobs : Nat}
    (closed : maxConcurrentJobs - activeJobs < minFreeSlots) :
    PollLoop.tick instanceId activeJobs = pure () := if_pos closed

theorem settle_le (index : Nat) (fields : PollFields) :
    (PollLoop.settle index fields).activeJobs ≤ fields.activeJobs := by
  unfold PollLoop.settle
  split
  · exact Nat.le_refl _
  · exact Nat.sub_le ..

theorem advance_capped (instanceId : String) (ω : Oracle) {program : Async Unit} {left : Nat}
    (keeps : Slots.Keeps program left) (room : s.fields.activeJobs + left ≤ maxConcurrentJobs) :
    ∃ later, ((PollLoop.loop instanceId).advance ω s program).1.fields.activeJobs + later ≤
        maxConcurrentJobs ∧
      ((PollLoop.loop instanceId).advance ω s program).2.Meets Slots.monitor (fun _ _ => True)
        later :=
  advance_meets (M := PollLoop.loop instanceId)
    (fun left (fields : PollFields) => fields.activeJobs + left ≤ maxConcurrentJobs)
    (fun left op ω w fields _ allowed room => runs_within left op ω w fields allowed room)
    ω keeps room

theorem capped_step (s : PollState) (turn : PollTurn) (apart : overlaps s turn = false)
    (capped : Capped s) : Capped ((PollLoop.loop instanceId).step s turn) := by
  have moves := (PollLoop.loop instanceId).step_moves s turn
  generalize (PollLoop.loop instanceId).step s turn = t at moves
  obtain ⟨cap,room,only⟩ := capped
  cases moves with
  | idle | start | stop | others => exact ⟨cap,room,only⟩
  | event index =>
    have less := settle_le index s.fields
    refine ⟨less.trans cap,fun tick member suspended => ?_,only⟩
    obtain ⟨left,fits,meets⟩ := room tick member suspended
    refine ⟨left,?_,meets⟩
    change (PollLoop.settle index s.fields).activeJobs + left ≤ maxConcurrentJobs
    omega
  | fire index ω id found =>
    let fired : PollState := { s with armed := s.armed.eraseIdx index }
    change Capped { ((PollLoop.loop instanceId).advance ω fired
      (PollLoop.tick instanceId s.fields.activeJobs)).1 with
        ticks := s.ticks ++ [((PollLoop.loop instanceId).advance ω fired
          (PollLoop.tick instanceId s.fields.activeJobs)).2] }
    by_cases closed : maxConcurrentJobs - s.fields.activeJobs < minFreeSlots
    · rw [tick_closed instanceId closed]
      refine ⟨cap,fun tick member suspended => ?_,?_⟩
      · rcases List.mem_append.mp member with old | new
        · exact room tick old suspended
        · obtain rfl := List.mem_singleton.mp new
          cases suspended
      · rw [List.countP_append]
        exact only
    · have settled : ∀ tick ∈ s.ticks, ¬ tick.suspended = true := by
        simpa [overlaps,Nat.not_lt.mp closed] using apart
      obtain ⟨later,fits,meets⟩ := advance_capped (s := fired) instanceId ω
        (Slots.tick_keeps instanceId s.fields.activeJobs) (Nat.add_sub_of_le cap).le
      refine ⟨(Nat.le_add_right ..).trans fits,fun tick member suspended => ?_,?_⟩
      · rcases List.mem_append.mp member with old | new
        · exact absurd suspended (settled tick old)
        · obtain rfl := List.mem_singleton.mp new
          exact ⟨later,fits,meets⟩
      · rw [List.countP_append,List.countP_eq_zero.mpr settled,Nat.zero_add]
        exact List.countP_le_length
  | serve index ω op resume found =>
    obtain ⟨left,fits,meets⟩ := room _ (List.mem_of_getElem? found) rfl
    have served := meets.serve (Slots.perform_answers left op ω s.world)
    have less : s.fields.activeJobs + Slots.next left op (perform op ω s.world).1 ≤
        maxConcurrentJobs :=
      (Nat.add_le_add_left (Slots.next_le left op _) _).trans fits
    obtain ⟨others,once⟩ := replace_only
      (.served op (perform op ω s.world).1 (resume (perform op ω s.world).1)) only found rfl
    refine ⟨cap,fun tick member suspended => ?_,once⟩
    rcases others tick member with rfl | settled
    · exact ⟨_,less,served⟩
    · exact absurd suspended (Bool.eq_false_iff.mp settled)
  | resume index ω op reply rest found =>
    obtain ⟨left,fits,meets⟩ := room _ (List.mem_of_getElem? found) rfl
    obtain ⟨later,within,goes⟩ := advance_capped instanceId ω meets fits
    obtain ⟨others,once⟩ := replace_only ((PollLoop.loop instanceId).advance ω s rest).2 only found rfl
    refine ⟨(Nat.le_add_right ..).trans within,fun tick member suspended => ?_,once⟩
    rcases others tick member with rfl | settled
    · exact ⟨later,within,goes⟩
    · exact absurd suspended (Bool.eq_false_iff.mp settled)
  | conclude index ω result found =>
    have fewer : (s.ticks.eraseIdx index).Sublist s.ticks := List.eraseIdx_sublist ..
    refine ⟨?_,fun tick member suspended => ?_,?_⟩
    · rw [conclude_fields]
      exact cap
    · rw [conclude_ticks] at member
      rw [conclude_fields]
      exact room tick (fewer.subset member) suspended
    · rw [conclude_ticks]
      exact fewer.countP_le.trans only

theorem capped_start (world : World) : Capped (PollLoop.start world) where
  cap := Nat.zero_le maxConcurrentJobs
  room := by simp [PollLoop.start,TimerLoop.initial]
  only := by simp [PollLoop.start,TimerLoop.initial]

/-- The concurrency cap. -/
theorem activeJobs_capped (instanceId : String) (world : World) {turns : List PollTurn}
    (apart : (PollLoop.loop instanceId).transition.Along
      (fun s turn => overlaps s turn = false) (PollLoop.start world) turns) {t : PollState}
    (reached : (PollLoop.loop instanceId).transition.Reached (PollLoop.start world) turns t) :
    t.fields.activeJobs ≤ maxConcurrentJobs :=
  (Transition.invariant_reached Capped (fun s turn => capped_step s turn) apart
    (capped_start world) reached).cap

end Cap

def dueSet : SortedSet String where
  entries := (List.range 60).map fun i => toLex (Int.ofNat i,String.ofList (List.replicate i 'a'))
  sorted := List.pairwise_lt_range.map _ fun _ _ below =>
    Prod.Lex.toLex_le_toLex.mpr (.inl (Int.ofNat_lt.mpr below))
  unique := by
    rw [List.map_map]
    refine List.nodup_range.map fun i j same => ?_
    simpa using congrArg String.length same

def dueWorld : World := World.empty.updateSet (queueKeyMap .reservationExpiry) dueSet

def goOn (index : Nat) : List PollTurn := [.serve index (calm 60),.resume index (calm 60)]

def firstTick : List PollTurn := [.start,.fire 0 (calm 60)]

theorem activeJobs_capped_due :
    ((PollLoop.loop "a").transition.run (PollLoop.start dueWorld)
      (firstTick ++ goOn 0 ++ goOn 0 ++ goOn 0)).fields.activeJobs ≤ maxConcurrentJobs :=
  activeJobs_capped "a" dueWorld (by decide +kernel) ⟨_,List.prefix_rfl,rfl⟩

/-- A stop and a start while a tick waits for the time lead to a second tick, and both find all
slots free and the same sixty ids in the queue. -/
theorem restart_exceeds : ¬ ∀ (turns : List PollTurn) (t : PollState),
    (PollLoop.loop "a").transition.Reached (PollLoop.start dueWorld) turns t →
      t.fields.activeJobs ≤ maxConcurrentJobs := by
  intro claim
  let turns : List PollTurn := firstTick ++ [.stop] ++ firstTick ++ goOn 0 ++ goOn 1 ++ goOn 0 ++
    goOn 1 ++ goOn 0 ++ goOn 1
  have exceeds : ((PollLoop.loop "a").transition.run (PollLoop.start dueWorld) turns).fields.activeJobs =
      120 := by
    decide +kernel
  have capped := claim turns _ ⟨turns,List.prefix_rfl,rfl⟩
  rw [exceeds] at capped
  exact absurd capped (by decide)

end JobScheduler
