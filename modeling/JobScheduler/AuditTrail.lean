import JobScheduler.OutboxDelivery
import JobScheduler.Provenance
import JobScheduler.Reporting

/-! The audit trail of an attempt. Whatever fails while an attempt is reported, no record
and no message about it is written twice: each is sent from one place of a call, and an
attempt belongs to the one call that claimed it. -/
namespace JobScheduler

open JobRepository

inductive Trace where
  | completedRecord
  | failedRecord
  | completedMessage
  | failedMessage
  deriving DecidableEq

/-- The trace that an operation leaves, with the job and the attempt that it names. -/
def Op.trace : Op → Option (Trace × String × Nat)
  | .createExecution record =>
    some (if record.status = .completed then .completedRecord else .failedRecord,record.jobId,
      record.attempt)
  | .publish _ (.completed jobId _ _ _ _ _ attempt) => some (.completedMessage,jobId,attempt)
  | .publish _ (.failed jobId _ _ attempt _ _) => some (.failedMessage,jobId,attempt)
  | _ => none

def IExecution.tells (record : IExecution) (status : JobExecutionStatus) (jobId : String)
    (attempt : Nat) : Bool :=
  record.status = status && ofAttempt jobId attempt record

def tellsMessage (trace : Trace) (jobId : String) (attempt : Nat) :
    QueueName × EventPayload → Bool
  | (.completed,.completed own _ _ _ _ _ number) =>
    trace = .completedMessage && own = jobId && number = attempt
  | (.failed,.failed own _ _ number _ _) =>
    trace = .failedMessage && own = jobId && number = attempt
  | _ => false

def World.traces (w : World) (trace : Trace) (jobId : String) (attempt : Nat) : Nat :=
  match trace with
  | .completedRecord => w.executions.countP fun record => record.tells .completed jobId attempt
  | .failedRecord => w.executions.countP fun record => record.tells .failed jobId attempt
  | .completedMessage | .failedMessage => w.placed.countP (tellsMessage trace jobId attempt)

/-- A call before its claim, or its attempt with the traces that it has left. -/
inductive Trail where
  | idle
  | attempt (job : IJob) (left : List Trace)

namespace Trail

def allowed : Trail → Op → Prop
  | .idle, op => op.trace = none
  | .attempt job left, op => ∀ entry ∈ op.trace,
      entry.2.1 = job.jobId ∧ entry.2.2 = job.attempts ∧ entry.1 ∉ left

/-- The outbox holds death notices only. -/
def answers (_ : Trail) : (op : Op) → Except Thrown op.Reply → Prop := Addressing.answers

def next : Trail → (op : Op) → Except Thrown op.Reply → Trail
  | .idle, .job (.claimJob _ _ _), .ok (some job) => .attempt job []
  | .attempt job left, op, _ => .attempt job (op.trace.toList.map Prod.fst ++ left)
  | .idle, _, _ => .idle

def monitor : Program.Monitor signature Thrown Trail where
  allowed := allowed
  answers := answers
  next := next

@[simp] theorem monitor_allowed : monitor.allowed = allowed := rfl
@[simp] theorem monitor_answers : monitor.answers = answers := rfl
@[simp] theorem monitor_next : monitor.next = next := rfl

abbrev Meets (phase : Trail) (program : Async α) : Prop :=
  Program.wp monitor (fun _ _ => True) program phase

section Programs

attribute [local simp] allowed answers Addressing.answers next Op.trace Program.forall_except
  Program.perform await dateNow publishToExchange HeartbeatWatchdog.writeHeartbeat
  HeartbeatWatchdog.clearHeartbeat JobRepository.claimJobCall JobRepository.markCompletedCall
  JobRepository.markFailedCall JobRepository.markDeadCall RedisJobQueue.reschedule

variable {job : IJob} {left : List Trace}

theorem meets_create (lastError : Text) :
    Meets (.attempt job left) (DeadLetterService.create job lastError) := by
  simp [DeadLetterService.create,Program.tryFinally]

theorem meets_handleFailure (error : Text) (newVersion : Nat) (unsent : .failedMessage ∉ left) :
    Meets (.attempt job left) (RetryService.handleFailure job error newVersion) := by
  have created : ∀ left, Meets (.attempt job left) (DeadLetterService.create job error) :=
    fun _ => meets_create error
  by_cases exhausted : job.maxAttempts ≤ job.attempts
  · simp [RetryService.handleFailure,exhausted,created,unsent]
  · simp [RetryService.handleFailure,RetryService.computeNextRunAt,exhausted,unsent]

theorem meets_recordFailure (instanceId : String) (startedAt : Int) (error : Thrown)
    (unsent : .failedMessage ∉ left) (unwritten : .failedRecord ∉ left) :
    Meets (.attempt job left) (JobExecutor.recordFailure instanceId startedAt job error) := by
  have handled : Meets (.attempt job (.failedRecord :: left))
      (RetryService.handleFailure job error.message (job.version + 1)) :=
    meets_handleFailure error.message (job.version + 1) (by simp [unsent])
  simp [JobExecutor.recordFailure,handled,unwritten]

theorem meets_runClaimed (instanceId : String) (job : IJob) :
    Meets (.attempt job []) (JobExecutor.runClaimed bootstrapHandlers instanceId job) := by
  have failed : ∀ startedAt error left, .failedMessage ∉ left → .failedRecord ∉ left →
      Meets (.attempt job left) (JobExecutor.recordFailure instanceId startedAt job error) :=
    fun startedAt error left => meets_recordFailure instanceId startedAt error
  simp [JobExecutor.runClaimed,JobExecutor.attempt,JobExecutor.handle,bootstrapHandlers,failed]

theorem meets_execute (instanceId : String) (job : IJob) :
    Meets .idle (JobExecutor.execute bootstrapHandlers instanceId job) := by
  simp only [Meets,JobExecutor.execute,Program.wp_bind]
  simp
  rintro now (_ | claimed)
  · simp
  · exact meets_runClaimed instanceId claimed

theorem meets_run (instanceId jobId : String) : Meets .idle (Worker.run instanceId jobId) := by
  simp only [Meets,Worker.run,JobRepository.findByJobIdCall,Program.wp_bind]
  simp
  rintro (_ | job)
  · simp
  · exact meets_execute instanceId job

theorem meets_enqueue (request : CreateJobRequest) :
    Meets .idle (System.program (.enqueue request)) := by
  simp only [System.program,JobService.enqueue,Meets,Program.wp_bind]
  split
  · simp
  · rename_i definition known
    simp only [Program.wp_bind]
    refine Within.wp_idempotencyKeyFn known _ rfl (fun _ => rfl) ?_
    rintro (e | jobId)
    · trivial
    · simp [JobRepository.createJobCall,RedisJobQueue.enqueue]

theorem meets_cancel (jobId cancelledBy : String) :
    Meets .idle (System.program (.cancel jobId cancelledBy)) := by
  simp only [System.program,JobService.cancel,JobRepository.cancelJobCall,Meets,Program.wp_bind]
  simp
  rintro (_ | job)
  · simp
  · simp [RedisJobQueue.remove]

theorem trace_notice {key : RoutingKey} {payload : EventPayload} (dies : payload.key = .jobDead) :
    (Op.publish key payload).trace = none := by
  cases payload <;> first | rfl | cases dies

theorem meets_flushEvents (events : List IOutboxEvent)
    (notices : ∀ e ∈ events, e.isDeathNotice = true) :
    Meets .idle (OutboxPoller.flushEvents events) := by
  induction events with
  | nil => trivial
  | cons e events ih =>
    have rest := ih fun other member => notices other (List.mem_cons_of_mem e member)
    obtain ⟨_,dies⟩ : e.type = .jobDead ∧ e.payload.key = .jobDead := by
      simpa [IOutboxEvent.isDeathNotice] using notices e List.mem_cons_self
    have silent : (Op.publish e.type e.payload).trace = none := trace_notice dies
    simp [OutboxPoller.flushEvents,OutboxPoller.flushEvent,rest,silent,-Op.trace]
    simp

theorem meets_flush : Meets .idle OutboxPoller.flush := by
  have found := meets_flushEvents
  simpa [OutboxPoller.flush] using found

end Programs

theorem meets_program (request : Request) : Meets .idle (System.program request) := by
  cases request with
  | enqueue request => exact meets_enqueue request
  | cancel jobId cancelledBy => exact meets_cancel jobId cancelledBy
  | run instanceId jobId => exact meets_run instanceId jobId
  | execute instanceId job => exact meets_execute instanceId job
  | flush => exact meets_flush
  | _ =>
    refine Program.Uses.wp (Within.program _) (fun op listed => ?_) (fun op reply listed => ?_)
      fun _ => trivial
    · cases op <;> first | rfl | cases listed
    · cases op with
      | job write => cases write <;> first | rfl | cases listed
      | _ => rfl

end Trail

def trail : Protocol System.machine Trail where
  monitor := Trail.monitor
  start _ := .idle
  post _ _ := True
  meets := Trail.meets_program

@[simp] theorem trail_advance (call : SystemCall) (op : Op)
    (rest : Except Thrown op.Reply → Async Unit) (reply : Except Thrown op.Reply) :
    trail.phase (call.advance op rest reply) = Trail.next (trail.phase call) op reply := rfl

namespace Trail

/-- The call has claimed the attempt and not left this trace of it yet. -/
def owes (trace : Trace) (jobId : String) (attempt : Nat) : Trail → Bool
  | .idle => false
  | .attempt job left => job.jobId = jobId && job.attempts = attempt && trace ∉ left

theorem owes_next {trace : Trace} {jobId : String} {attempt : Nat} {phase : Trail} {op : Op}
    {reply : Except Thrown op.Reply} (owed : (next phase op reply).owes trace jobId attempt = true) :
    phase.owes trace jobId attempt = true ∨ ∃ target version now job,
      (⟨op,reply⟩ : Exchange signature Thrown) =
        ⟨.job (.claimJob target version now),.ok (some job)⟩ ∧
      job.jobId = jobId ∧ job.attempts = attempt := by
  cases phase with
  | idle =>
    right
    unfold next at owed
    split at owed
    · rename_i target version now job _
      simp only [owes,Bool.and_eq_true,decide_eq_true_eq] at owed
      exact ⟨target,version,now,job,rfl,owed.1⟩
    · contradiction
    · cases owed
  | attempt job left =>
    left
    simp only [next,owes,Bool.and_eq_true,decide_eq_true_eq,List.mem_append,not_or] at owed ⊢
    exact ⟨owed.1,owed.2.2⟩

theorem settles {trace : Trace} {jobId : String} {attempt : Nat} {phase : Trail} {op : Op}
    (may : phase.allowed op) (leaves : op.trace = some (trace,jobId,attempt))
    (reply : Except Thrown op.Reply) :
    phase.owes trace jobId attempt = true ∧ (next phase op reply).owes trace jobId attempt = false := by
  cases phase with
  | idle =>
    have silent : op.trace = none := may
    rw [leaves] at silent
    cases silent
  | attempt job left =>
    obtain ⟨rfl,rfl,new⟩ := may _ leaves
    simp [owes,next,leaves,new]

end Trail

/-- The right to leave a trace of an attempt: free until its claim, then held by the call
that has claimed it, until it leaves the trace. -/
def traceToken (trace : Trace) (jobId : String) (attempt : Nat) : Token System.machine where
  free w := w.attempts jobId < attempt
  holder call := (trail.phase call).owes trace jobId attempt
  fresh _ := rfl
  crashed _ held := held
  taken call op rest ω w awaits held := by
    rcases Trail.owes_next held with kept | ⟨target,version,now,job,same,rfl,rfl⟩
    · exact .inl kept
    · right
      obtain ⟨rfl,same⟩ := Exchange.mk.inj same
      have reply := eq_of_heq same
      obtain ⟨key,_⟩ := free_claimed reply
      obtain ⟨before,after⟩ := attempts_claimed reply
      subst key
      exact ⟨decide_eq_true before,by simp [after]⟩

section Tally

variable {trace : Trace} {jobId : String} {attempt : Nat}

/-- A message is placed at most once in the queue that it is looked for in. -/
theorem publish_traces (placed : RabbitMq.Placed) (key : RoutingKey) (payload : EventPayload) :
    (RabbitMq.publish placed .schedulerExchange key payload).countP
        (tellsMessage trace jobId attempt) ≤
      placed.countP (tellsMessage trace jobId attempt) +
        (decide ((Op.publish key payload).trace = some (trace,jobId,attempt))).toNat := by
  simp only [RabbitMq.publish,List.countP_append,List.countP_map]
  refine Nat.add_le_add_left ?_ _
  by_cases tells : (Op.publish key payload).trace = some (trace,jobId,attempt)
  · simp only [tells,decide_true,Bool.toNat_true]
    refine List.countP_le_length.trans ?_
    cases key <;> decide
  · rw [List.countP_eq_zero.mpr]
    · exact Nat.zero_le _
    · intro queue _ told
      apply tells
      cases payload <;> cases queue <;> simp_all [tellsMessage,Op.trace]

theorem inserts_traces (op : Op) (ω : Oracle) (status : JobExecutionStatus)
    (records : trace = if status = .completed then .completedRecord else .failedRecord) :
    (op.inserts ω).countP (fun record => record.tells status jobId attempt) ≤
      (decide (op.trace = some (trace,jobId,attempt))).toNat := by
  cases op with
  | createExecution record =>
    by_cases tells : record.tells status jobId attempt = true
    · obtain ⟨rfl,rfl,rfl⟩ : record.status = status ∧ record.jobId = jobId ∧
          record.attempt = attempt := by
        simpa [IExecution.tells,ofAttempt] using tells
      subst records
      simp only [Op.trace,decide_true,Bool.toNat_true,Op.inserts]
      split
      · exact List.countP_le_length
      · exact Nat.zero_le 1
    · simp only [Op.inserts]
      split
      · simp [tells]
      · exact Nat.zero_le _
  | _ => exact Nat.zero_le _

/-- An operation adds to a tally only by leaving the trace that is tallied. -/
theorem perform_traces (op : Op) (ω : Oracle) (w : World) :
    (perform op ω w).2.traces trace jobId attempt ≤ w.traces trace jobId attempt +
      (decide (op.trace = some (trace,jobId,attempt))).toNat := by
  have messages : (op.places ω w.placed).countP (tellsMessage trace jobId attempt) ≤
      w.placed.countP (tellsMessage trace jobId attempt) +
        (decide (op.trace = some (trace,jobId,attempt))).toNat := by
    cases op with
    | publish key payload =>
      simp only [Op.places]
      split
      · exact publish_traces w.placed key payload
      · exact Nat.le_add_right _ _
    | _ => exact Nat.le_add_right _ _
  cases trace with
  | completedRecord =>
    simp only [World.traces,perform_executions,List.countP_append]
    exact Nat.add_le_add_left (inserts_traces op ω .completed rfl) _
  | failedRecord =>
    simp only [World.traces,perform_executions,List.countP_append]
    exact Nat.add_le_add_left (inserts_traces op ω .failed rfl) _
  | completedMessage | failedMessage =>
    simp only [World.traces,perform_placed]
    exact messages

/-- What a queue gives up on goes to the queue of dead jobs, where nothing is tallied. -/
theorem environment_traces (event : StoreEvent) (w : World) :
    (System.environment event w).traces trace jobId attempt ≤ w.traces trace jobId attempt := by
  have messages : ∀ index, (RabbitMq.giveUp w.placed index).countP
      (tellsMessage trace jobId attempt) = w.placed.countP (tellsMessage trace jobId attempt) := by
    intro index
    unfold RabbitMq.giveUp
    split
    · rfl
    · rename_i queue payload _
      cases queue with
      | failed =>
        simp only [RabbitMq.deadLetterTarget,RabbitMq.publish,List.countP_append,List.countP_map]
        refine Nat.add_eq_left.mpr (List.countP_eq_zero.mpr fun queue routed => ?_)
        obtain rfl := bound_dead (RabbitMq.mem_route_bindings.mp routed)
        exact Bool.false_ne_true
      | _ => rfl
  cases event with
  | expireJobs now => cases trace <;> exact Nat.le_refl _
  | giveUp index =>
    cases trace with
    | completedRecord | failedRecord => exact Nat.le_refl _
    | completedMessage | failedMessage => exact Nat.le_of_eq (messages index)

end Tally

structure Trailed (s : SystemState) : Prop where
  misaddressed : Misaddressed s
  followed : trail.Followed s

variable {s : SystemState} {label : SystemLabel} {labels : List SystemLabel}
variable {trace : Trace} {jobId : String} {attempt : Nat}

theorem trail_answers (misaddressed : Misaddressed s) (label : SystemLabel) :
    trail.Answers s label := by
  have answered := addressing_answers misaddressed label
  cases label with
  | crash => exact fun _ _ => trivial
  | _ => exact answered

theorem trailed_initial : Trailed (initial World.empty) where
  misaddressed := misaddressed_initial
  followed := trail.followed_initial World.empty

theorem trailed_step (trailed : Trailed s) : Trailed (System.machine.step s label) where
  misaddressed := misaddressed_step trailed.misaddressed
  followed := Protocol.followed_moves (System.machine.step_moves s label)
    (trail_answers trailed.misaddressed label) trailed.followed

theorem deletes_expires (kept : deletes jobId s label = false) : expires jobId s label = false := by
  cases label with
  | environment event =>
    cases event with
    | expireJobs now => exact kept
    | giveUp index => rfl
  | _ => rfl

/-- As long as the document is kept, an attempt's traces use its right to leave them up. -/
theorem traces_step (trailed : Trailed s) (kept : deletes jobId s label = false) :
    (System.machine.step s label).world.traces trace jobId attempt +
        (traceToken trace jobId attempt).count (System.machine.step s label) ≤
      s.world.traces trace jobId attempt + (traceToken trace jobId attempt).count s := by
  have issued : (traceToken trace jobId attempt).issued s (System.machine.step s label) = false :=
    recordToken_issued attempt (deletes_expires kept)
  refine (traceToken trace jobId attempt).tally_moves (fun w => w.traces trace jobId attempt)
    (System.machine.step_moves s label) issued ?_ (environment_traces · s.world)
  intro index ω call op rest found awaits
  have added : (perform op ω s.world).2.traces trace jobId attempt ≤ s.world.traces trace jobId attempt +
      (decide (op.trace = some (trace,jobId,attempt))).toNat := perform_traces op ω s.world
  have may : (trail.phase call).allowed op := trailed.followed.allowed found awaits
  by_cases leaves : op.trace = some (trace,jobId,attempt)
  · obtain ⟨held,given⟩ := Trail.settles may leaves (perform op ω s.world).1
    simp only [leaves,decide_true,Bool.toNat_true] at added
    exact .inr ⟨added,held,given⟩
  · simp only [leaves,decide_false,Bool.toNat_false,Nat.add_zero] at added
    exact .inl added

/-- In every run that does not delete the document of a job, each of its attempts leaves at
most one execution record of either outcome and at most one message of either outcome in
the queue for it. -/
theorem traces_left_once (labels : List SystemLabel) (jobId : String)
    (kept : System.machine.Along (fun s label => deletes jobId s label = false)
      (initial World.empty) labels) :
    ∀ t, System.machine.Reached (initial World.empty) labels t →
      ∀ trace attempt, t.world.traces trace jobId attempt ≤ 1 := by
  intro t reached trace attempt
  have bounded := Machine.invariant_reached (fun s : SystemState => Trailed s ∧
      s.world.traces trace jobId attempt + (traceToken trace jobId attempt).count s ≤ 1)
    (fun s label kept holds => ⟨trailed_step holds.1,(traces_step holds.1 kept).trans holds.2⟩)
    kept ⟨trailed_initial,?_⟩ reached
  · exact Nat.le_of_add_right_le bounded.2
  · have blank : World.empty.traces trace jobId attempt = 0 := by cases trace <;> rfl
    have once := (traceToken trace jobId attempt).count_initial World.empty
    simpa [initial,blank] using once

/-- The success record and the success message of the report. -/
theorem traces_left_once_report :
    (System.machine.run (initial World.empty) executedReport).world.traces .completedMessage
      reportId 1 = 1 := by
  refine Nat.le_antisymm ?_ (by decide +kernel)
  exact traces_left_once executedReport reportId (by decide +kernel) _
    ⟨executedReport,List.prefix_rfl,rfl⟩ .completedMessage 1

end JobScheduler
