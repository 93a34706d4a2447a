import JobScheduler.Exclusion

/-! Duplicate delivery is harmless: whatever ids are dequeued twice and whatever
stale copies are dispatched, a handler starts at most once per token of its job. -/
namespace JobScheduler

def startsHandler (jobId : String) (s : SystemState) : SystemLabel → Bool
  | .resume index _ =>
    match s.awaits index with
    | some (.handlerStart job) => job.jobId = jobId
    | _ => false
  | _ => false

namespace ExecutePhase

/-- Claimed, with the handler not invoked yet. -/
def isReady (jobId : String) : ExecutePhase → Bool
  | .claimed job => job.jobId = jobId
  | _ => false

def ready (jobId : String) : Stage jobId where
  test := isReady jobId
  idle := rfl
  claimed job owned := by simpa [isReady] using owned
  entered phase op reply owned := by
    unfold next at owned ⊢
    split at owned <;> first
      | exact .inl owned
      | exact .inr ⟨_,_,_,_,rfl,rfl,rfl⟩
      | cases owned

end ExecutePhase

open ExecutePhase

variable {jobId : String} {s : SystemState} {label : SystemLabel}

theorem startsHandler_awaits (starting : startsHandler jobId s label = true) :
    ∃ index ω call job rest, label = .resume index ω ∧ s.calls[index]? = some call ∧
      call.program = .await (.handlerStart job) rest ∧ job.jobId = jobId := by
  unfold startsHandler at starting
  split at starting
  · rename_i index ω
    split at starting
    · rename_i job awaiting
      obtain ⟨call,rest,found,awaits⟩ := State.awaits_eq_some.mp awaiting
      exact ⟨index,ω,call,job,rest,rfl,found,awaits,by simpa using starting⟩
    · cases starting
  · cases starting

theorem starting_call (followed : execution.Followed s)
    (starting : startsHandler jobId s label = true) :
    ∃ index ω call job rest, label = .resume index ω ∧ s.calls[index]? = some call ∧
      call.program = .await (.handlerStart job) rest ∧
      (ready jobId).token.holder call = true ∧
      (ready jobId).token.holder (call.advance (.handlerStart job) rest
        (perform (.handlerStart job) ω s.world).1) = false := by
  obtain ⟨index,ω,call,job,rest,rfl,found,awaits,same⟩ := startsHandler_awaits starting
  have phase : execution.phase call = .claimed job :=
    allowed_handlerStart (followed.allowed found awaits)
  refine ⟨index,ω,call,job,rest,rfl,found,awaits,?_,?_⟩
  · rw [holder_awaiting awaits,phase]
    simpa [ready,isReady] using same
  · simp only [Stage.token,execution_advance,phase]
    exact Bool.and_false _

/-- Invoking the handler spends the token that the claim took. -/
theorem start_spends (followed : execution.Followed s)
    (starting : startsHandler jobId s label = true) :
    (ready jobId).token.count (System.machine.step s label) + 1 ≤
      (ready jobId).token.count s + (resets jobId s label).toNat := by
  obtain ⟨index,ω,call,job,rest,rfl,found,awaits,before,after⟩ := starting_call followed starting
  have moved : System.machine.step s (.resume index ω) =
      System.machine.answered s index call (.handlerStart job) rest ω := by
    simp [Machine.step,found,awaits]
  have spent := (ready jobId).token.count_spent ω found awaits before after
  have issued : (ready jobId).token.issued s (System.machine.answered s index call
      (.handlerStart job) rest ω) = false := Bool.not_and_self _
  rw [moved]
  simp only [issued,Bool.toNat_false] at spent
  omega

theorem start_step (jobId : String) (label : SystemLabel) (followed : execution.Followed s)
    (kept : expires jobId s label = false) :
    (startsHandler jobId s label).toNat + (ready jobId).token.count (System.machine.step s label) ≤
      (ready jobId).token.count s + (resets jobId s label).toNat := by
  cases starting : startsHandler jobId s label with
  | true =>
    have spent := start_spends followed starting
    simp only [Bool.toNat_true]
    omega
  | false =>
    have moved := (ready jobId).token.count_step s label
    have issued : ((ready jobId).token.issued s (System.machine.step s label)).toNat ≤
        (resets jobId s label).toNat := by
      apply Bool.toNat_le_toNat
      intro issues
      rcases issued_by _ s label issues with reset | expired
      · exact reset
      · rw [kept] at expired
        cases expired
    simp only [Bool.toNat_false]
    omega

theorem start_run {labels : List SystemLabel} (followed : execution.Followed s)
    (kept : System.machine.Along (fun s label => expires jobId s label = false) s labels) :
    System.machine.countAlong (startsHandler jobId) s labels +
        (ready jobId).token.count (System.machine.run s labels) ≤
      (ready jobId).token.count s + System.machine.countAlong (resets jobId) s labels :=
  Machine.countAlong_potential execution.Followed (fun s label _ => execution_followed s label)
    (ready jobId).token.count (fun _ label kept followed => start_step jobId label followed kept)
    kept followed

/-- In every run the handlers of a job are invoked at most once more than its
document is turned back to pending. -/
theorem handler_invocations (world : World) (labels : List SystemLabel) (jobId : String)
    (kept : System.machine.Along (fun s label => expires jobId s label = false)
      (initial world) labels) :
    System.machine.countAlong (startsHandler jobId) (initial world) labels ≤
      1 + System.machine.countAlong (resets jobId) (initial world) labels := by
  have spent := start_run (execution.followed_initial world) kept
  have one := (ready jobId).token.count_initial world
  change (ready jobId).token.count (initial world) ≤ 1 at one
  omega

/-- Two dequeues deliver the same id, and a stale reset comes after them. -/
theorem handler_invocations_twice :
    let delivered := [.submit (.enqueue reportRequest)] ++ drive 0 3 0 ++
      [.submit (.run "a" reportId),.submit (.run "b" reportId)] ++ drive 1 9 0 ++ drive 2 9 0
    let reset := [.submit .watchdogTick] ++ drive 3 2 400000 ++ [.submit (.run "c" reportId)] ++
      drive 4 9 400000
    System.machine.countAlong (startsHandler reportId) (initial World.empty)
        (delivered ++ reset) ≤
      1 + System.machine.countAlong (resets reportId) (initial World.empty) (delivered ++ reset) :=
  handler_invocations World.empty _ _ (by decide +kernel)

end JobScheduler
