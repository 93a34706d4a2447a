import JobScheduler.Vocabulary

/-! The life of one execute call as a protocol: claim, handler, bookkeeping, failure
report. Every other call stays outside the operations of a claimed attempt. -/
namespace JobScheduler

/-- Operations that only the executor awaits. -/
def Op.executorOnly : Op → Bool
  | .job (.claimJob _ _ _) | .job (.markCompleted _ _ _ _) | .job (.markFailed _ _ _ _ _)
  | .job (.markDead _ _) | .handlerStart _ | .handlerSettle _ | .createExecution _
  | .commitDeadLetter _ _ _ _ => true
  | _ => false

/-- How far a call has come. `resolved` and `recorded` are the bookkeeping after a
handler that resolved, before and after its execution record; `relapsed` is the
`catch` block entered from there, `rejected` the one entered by the handler. -/
inductive ExecutePhase where
  | idle
  | claimed (job : IJob)
  | handling (job : IJob)
  | resolved (job : IJob)
  | recorded (job : IJob)
  | relapsed (job : IJob)
  | misreporting (job : IJob)
  | rejected (job : IJob)
  | reporting (job : IJob)

namespace ExecutePhase

def job? : ExecutePhase → Option IJob
  | .idle => none
  | .claimed job | .handling job | .resolved job | .recorded job | .relapsed job
  | .misreporting job | .rejected job | .reporting job => some job

def records (job : IJob) (status : JobExecutionStatus) (record : IExecution) : Prop :=
  record.jobId = job.jobId ∧ record.attempt = job.attempts ∧ record.status = status

def allowed : ExecutePhase → Op → Prop
  | .idle, .job (.claimJob _ _ _) => True
  | .idle, op => op.executorOnly = false
  | .claimed _, .dateNow | .claimed _, .publish .jobClaimed _
  | .claimed _, .setHeartbeat _ _ => True
  | .claimed job, .handlerStart started => started = job
  | .handling job, .handlerSettle settled => settled = job
  | .resolved _, .dateNow | .resolved _, .delHeartbeat _ => True
  | .resolved job, .job (.markCompleted jobId version _ _) =>
    jobId = job.jobId ∧ version = job.version + 1
  | .resolved job, .createExecution record => records job .completed record
  | .recorded _, .publish .jobCompleted _ => True
  | .relapsed _, .dateNow | .relapsed _, .delHeartbeat _ => True
  | .relapsed job, .createExecution record => records job .failed record
  | .rejected _, .dateNow | .rejected _, .delHeartbeat _ => True
  | .rejected job, .createExecution record => records job .failed record
  | .misreporting job, op | .reporting job, op =>
    match op with
    | .dateNow | .random | .startSession | .endSession | .publish .jobFailed _
    | .publish .jobRetrying _ | .zaddXX _ _ _ => True
    | .job (.markDead jobId version) =>
      jobId = job.jobId ∧ version = job.version + 1 ∧ job.maxAttempts ≤ job.attempts
    | .job (.markFailed jobId version _ _ _) =>
      jobId = job.jobId ∧ version = job.version + 1 ∧ job.attempts < job.maxAttempts
    | .commitDeadLetter letter _ _ _ =>
      letter.jobId = job.jobId ∧ job.maxAttempts ≤ job.attempts
    | _ => False
  | _, _ => False

def next : ExecutePhase → (op : Op) → Except Thrown op.Reply → ExecutePhase
  | .idle, .job (.claimJob _ _ _), .ok (some job) => .claimed job
  | .claimed job, .handlerStart _, .ok _ => .handling job
  | .claimed job, .handlerStart _, .error _ => .rejected job
  | .handling job, .handlerSettle _, .ok _ => .resolved job
  | .handling job, .handlerSettle _, .error _ => .rejected job
  | .resolved job, .createExecution _, .ok _ => .recorded job
  | .resolved job, _, .error _ => .relapsed job
  | .recorded job, _, .error _ => .relapsed job
  | .relapsed job, .createExecution _, _ => .misreporting job
  | .rejected job, .createExecution _, _ => .reporting job
  | phase, _, _ => phase

def monitor : Program.Monitor signature Thrown ExecutePhase where
  allowed := allowed
  answers _ _ _ := True
  next := next

@[simp] theorem monitor_allowed : monitor.allowed = allowed := rfl
@[simp] theorem monitor_answers : monitor.answers = fun _ _ _ => True := rfl
@[simp] theorem monitor_next : monitor.next = next := rfl

theorem allowed_handlerStart {phase : ExecutePhase} {job : IJob}
    (may : allowed phase (.handlerStart job)) : phase = .claimed job := by
  cases phase with
  | idle => cases may
  | claimed claimed => exact congrArg ExecutePhase.claimed (Eq.symm may)
  | _ => exact False.elim may

theorem allowed_handlerSettle {phase : ExecutePhase} {job : IJob}
    (may : allowed phase (.handlerSettle job)) : phase = .handling job := by
  cases phase with
  | idle => cases may
  | handling claimed => exact congrArg ExecutePhase.handling (Eq.symm may)
  | _ => exact False.elim may

theorem next_job {phase : ExecutePhase} {own : IJob} (op : Op) (reply : Except Thrown op.Reply)
    (job : phase.job? = some own) : (next phase op reply).job? = some own := by
  unfold next
  split <;> first | exact job | cases job

theorem next_idle {op : Op} (outside : op.executorOnly = false) (reply : Except Thrown op.Reply) :
    next .idle op reply = .idle := by
  cases op with
  | job write => cases write <;> first | rfl | cases outside
  | _ => rfl

theorem allowed_idle {op : Op} (outside : op.executorOnly = false) : allowed .idle op := by
  cases op with
  | job write => cases write <;> first | exact outside | trivial
  | _ => exact outside

abbrev Meets (phase : ExecutePhase) (program : Async α) : Prop :=
  Program.wp monitor (fun _ _ => True) program phase

theorem meets_within {ops : Op → Bool} {program : Async α} (within : Within ops program)
    (outside : ∀ op, ops op = true → op.executorOnly = false) : Meets .idle program :=
  Program.Uses.wp within (fun op listed => allowed_idle (outside op listed))
    (fun op reply listed => next_idle (outside op listed) reply) fun _ => trivial

section Executor

attribute [local simp] allowed next Program.forall_except Program.perform await dateNow
  publishToExchange HeartbeatWatchdog.writeHeartbeat HeartbeatWatchdog.clearHeartbeat
  JobRepository.claimJobCall JobRepository.markCompletedCall JobRepository.markFailedCall
  JobRepository.markDeadCall RedisJobQueue.reschedule records

theorem meets_create {phase : ExecutePhase} {job : IJob} (lastError : Text)
    (failing : phase = .misreporting job ∨ phase = .reporting job)
    (exhausted : job.maxAttempts ≤ job.attempts) :
    Meets phase (DeadLetterService.create job lastError) := by
  rcases failing with rfl | rfl <;>
    simp [DeadLetterService.create,Program.tryFinally,exhausted]

theorem meets_handleFailure {phase : ExecutePhase} (job : IJob) (error : Text)
    (failing : phase = .misreporting job ∨ phase = .reporting job) :
    Meets phase (RetryService.handleFailure job error (job.version + 1)) := by
  by_cases exhausted : job.maxAttempts ≤ job.attempts
  · have created := meets_create error failing exhausted
    rcases failing with rfl | rfl <;>
      simp [RetryService.handleFailure,exhausted,created]
  · have left : job.attempts < job.maxAttempts := by omega
    rcases failing with rfl | rfl <;>
      simp [RetryService.handleFailure,RetryService.computeNextRunAt,exhausted,left]

/-- The `catch` block, entered from a rejection or from failed bookkeeping. -/
theorem meets_recordFailure {phase : ExecutePhase} {job : IJob} (instanceId : String)
    (startedAt : Int) (error : Thrown) (caught : phase = .relapsed job ∨ phase = .rejected job) :
    Meets phase (JobExecutor.recordFailure instanceId startedAt job error) := by
  have handled := meets_handleFailure job error.message (.inl rfl)
  have reported := meets_handleFailure job error.message (.inr rfl)
  rcases caught with rfl | rfl <;> simp [JobExecutor.recordFailure,handled,reported]

/-- What the `try` block leaves to the `catch` block. -/
theorem attempt_phases (instanceId : String) (startedAt : Int) (job : IJob) :
    Program.wp monitor (Program.catchPost (fun _ _ => True) fun error phase =>
        Meets phase (JobExecutor.recordFailure instanceId startedAt job error))
      (JobExecutor.attempt bootstrapHandlers instanceId startedAt job) (.claimed job) := by
  have relapsed := fun error => meets_recordFailure instanceId startedAt error (.inl rfl : _ ∨ _ = ExecutePhase.rejected job)
  have rejected := fun error => meets_recordFailure instanceId startedAt error (.inr rfl : _ = ExecutePhase.relapsed job ∨ _)
  simp [JobExecutor.attempt,JobExecutor.handle,bootstrapHandlers,relapsed,rejected]

theorem meets_runClaimed (instanceId : String) (job : IJob) :
    Meets (.claimed job) (JobExecutor.runClaimed bootstrapHandlers instanceId job) := by
  have phases := attempt_phases instanceId
  simp [JobExecutor.runClaimed,phases]

theorem meets_execute (instanceId : String) (job : IJob) :
    Meets .idle (JobExecutor.execute bootstrapHandlers instanceId job) := by
  simp only [Meets,JobExecutor.execute,JobRepository.claimJobCall,Program.wp_bind]
  simp only [await,dateNow,Program.perform,Program.wp_await,Program.forall_except,
    Program.wp_settled,Program.thenPost_ok,Program.thenPost_error]
  refine ⟨rfl,?_,fun now _ => ⟨trivial,?_,?_⟩⟩
  · simp
  · simp
  · rintro (_ | claimed) _
    · simp
    · exact meets_runClaimed instanceId claimed

end Executor

theorem meets_program (request : Request) : Meets .idle (System.program request) := by
  cases request with
  | run instanceId jobId =>
    simp only [System.program,Worker.run,JobRepository.findByJobIdCall,Meets,Program.wp_bind]
    simp only [await,Program.perform,Program.wp_await,Program.forall_except,Program.wp_settled,
      Program.thenPost_ok,Program.thenPost_error]
    refine ⟨rfl,fun _ _ => trivial,?_⟩
    rintro (_ | job) _
    · trivial
    · exact meets_execute instanceId job
  | execute instanceId job => exact meets_execute instanceId job
  | _ =>
    -- Only the executor awaits an operation that a claimed attempt is about.
    refine meets_within (Within.program _) ?_
    intro op listed
    cases op with
    | job write => cases write <;> first | rfl | cases listed
    | _ => first | rfl | cases listed

end ExecutePhase

def execution : Protocol System.machine ExecutePhase where
  monitor := ExecutePhase.monitor
  start _ := .idle
  post _ _ := True
  meets := ExecutePhase.meets_program

@[simp] theorem execution_accept (request : Request) :
    execution.phase (System.machine.accept request) = .idle := rfl

@[simp] theorem execution_advance (call : SystemCall) (op : Op)
    (rest : Except Thrown op.Reply → Async Unit) (reply : Except Thrown op.Reply) :
    execution.phase (call.advance op rest reply) =
      ExecutePhase.next (execution.phase call) op reply := rfl

theorem execution_answers (s : SystemState) (label : SystemLabel) : execution.Answers s label := by
  cases label <;> simp [Protocol.Answers,execution]

theorem execution_followed (s : SystemState) (label : SystemLabel) (followed : execution.Followed s) :
    execution.Followed (System.machine.step s label) :=
  Protocol.followed_moves (System.machine.step_moves s label) (execution_answers s label) followed

end JobScheduler
