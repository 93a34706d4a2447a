import JobScheduler.System

/-! Which operations each program of the service awaits. -/
namespace JobScheduler

def Op.inEnqueue : Op → Bool
  | .uuidv4 | .job (.createJob _) | .zaddNX _ _ _ | .publish .jobScheduled _ => true
  | _ => false

def Op.inCancel : Op → Bool
  | .job (.cancelJob _) | .zrem _ _ | .dateNow | .publish .jobCancelled _ => true
  | _ => false

def Op.inTick : Op → Bool
  | .redisTime | .dateNow | .zrangebyscore _ _ _ _ _ | .zrem _ _ | .dispatch _ _ _ => true
  | _ => false

def Op.inReset : Op → Bool
  | .dateNow | .job (.resetStaleJobs _) => true
  | _ => false

def Op.inFlush : Op → Bool
  | .findOutbox _ _ | .publish _ _ | .dateNow | .completeOutbox _ _ | .retryOutbox _ _ _ _ => true
  | _ => false

def Op.inExecute : Op → Bool
  | .dateNow | .random | .setHeartbeat _ _ | .delHeartbeat _ | .handlerStart _ | .handlerSettle _ => true
  | .job (.claimJob _ _ _) | .job (.markCompleted _ _ _ _) | .job (.markFailed _ _ _ _ _)
  | .job (.markDead _ _) | .zaddXX _ _ _ | .createExecution _ => true
  | .startSession | .commitDeadLetter _ _ _ _ | .endSession => true
  | .publish .jobClaimed _ | .publish .jobCompleted _ | .publish .jobFailed _
  | .publish .jobRetrying _ => true
  | _ => false

/-- An execute call once it has claimed its job. -/
def Op.inAttempt : Op → Bool
  | .job (.claimJob _ _ _) => false
  | op => op.inExecute

def Op.inRun : Op → Bool
  | .findByJobId _ => true
  | op => op.inExecute

/-- The program awaits no other operation than these. -/
def Within (ops : Op → Bool) (program : Async α) : Prop :=
  Program.Uses (σ := signature) (fun op => ops op = true) program

namespace Within

variable {ops : Op → Bool}

theorem await {op : Op} (listed : ops op = true) : Within ops (JobScheduler.await op) :=
  uses_await listed

theorem pure (value : α) : Within ops (Pure.pure value) := Program.uses_pure value

theorem throw (e : Thrown) : Within ops (MonadExcept.throw e : Async α) := Program.uses_throw e

theorem bind {program : Async α} {next : α → Async β} (first : Within ops program)
    (rest : ∀ value, Within ops (next value)) : Within ops (program >>= next) :=
  Program.Uses.bind first rest

theorem tryCatch {program : Async α} {handler : Thrown → Async α} (first : Within ops program)
    (rescue : ∀ e, Within ops (handler e)) : Within ops (MonadExcept.tryCatch program handler) :=
  Program.Uses.tryCatch first rescue

theorem mono {more : Op → Bool} {program : Async α} (within : Within ops program)
    (includes : ∀ op, ops op = true → more op = true) : Within more program :=
  Program.Uses.mono within includes

theorem template (payload : JobPayload) (name : String) :
    Within ops (JobScheduler.template payload name) := by
  unfold JobScheduler.template
  split
  · exact pure _
  · split
    · exact throw _
    · exact pure _

theorem idempotencyKeyFn {jobType : JobType} {definition : JobDefinition}
    (known : jobDefinitions jobType = some definition) (payload : JobPayload) :
    Within (fun op => op matches .uuidv4) (definition.idempotencyKeyFn payload) := by
  cases jobType <;> cases known <;> dsimp only <;> split
  all_goals first
    | exact await rfl
    | exact bind (template ..) fun _ => pure _
    | exact bind (template ..) fun _ => bind (template ..) fun _ => pure _

theorem eq_uuidv4 {op : Op} (uuid : (op matches .uuidv4) = true) : op = .uuidv4 := by
  cases op <;> first | rfl | cases uuid

theorem wp_idempotencyKeyFn {m : Program.Monitor signature Thrown Q} {phase : Q}
    {post : Q → Except Thrown String → Prop} {jobType : JobType} {definition : JobDefinition}
    (known : jobDefinitions jobType = some definition) (payload : JobPayload)
    (allows : m.allowed phase .uuidv4) (stays : ∀ reply, m.next phase .uuidv4 reply = phase)
    (ends : ∀ result, post phase result) :
    Program.wp m post (definition.idempotencyKeyFn payload) phase := by
  apply Program.Uses.wp (idempotencyKeyFn known payload)
  · intro op uuid
    obtain rfl := eq_uuidv4 uuid
    exact allows
  · intro op reply uuid
    obtain rfl := eq_uuidv4 uuid
    exact stays reply
  · exact ends

theorem enqueue (request : CreateJobRequest) :
    Within Op.inEnqueue (JobService.enqueue request) := by
  unfold JobService.enqueue
  split
  · exact throw _
  · rename_i definition known
    have key : Within Op.inEnqueue (definition.idempotencyKeyFn (JobService.spread request)) := by
      refine (idempotencyKeyFn known _).mono fun op uuid => ?_
      rw [eq_uuidv4 uuid]
      rfl
    refine bind key fun jobId => bind (await rfl) fun job => ?_
    refine bind (bind (await rfl) fun _ => pure _) fun _ => ?_
    exact bind (await rfl) fun _ => pure _

theorem cancel (jobId cancelledBy : String) :
    Within Op.inCancel (JobService.cancel jobId cancelledBy) := by
  refine bind (await rfl) fun cancelled => ?_
  cases cancelled with
  | none => exact pure _
  | some job =>
    refine bind (bind (await rfl) fun _ => pure _) fun _ => bind (await rfl) fun now => ?_
    exact bind (await rfl) fun _ => pure _

theorem dequeue (jobType : JobType) (nowMs : Int) (count : Nat) :
    Within Op.inTick (RedisJobQueue.dequeue jobType nowMs count) := by
  refine bind (await rfl) fun results => ?_
  dsimp only
  split
  · exact pure _
  · exact bind (await rfl) fun _ => pure _

theorem pollQueues (instanceId : String) (nowMs : Int) (jobTypes : List JobType)
    (slots : Nat) : Within Op.inTick (PollLoop.pollQueues instanceId nowMs jobTypes slots) := by
  induction jobTypes generalizing slots with
  | nil => exact pure _
  | cons jobType rest ih =>
    unfold PollLoop.pollQueues
    split
    · exact pure _
    · refine bind (tryCatch (bind (dequeue ..) fun jobIds => ?_) fun _ => pure _)
        fun taken => ih _
      split
      · exact pure _
      · exact bind (await rfl) fun _ => pure _

theorem tick (instanceId : String) (activeJobs : Nat) :
    Within Op.inTick (PollLoop.tick instanceId activeJobs) := by
  unfold PollLoop.tick
  dsimp only
  split
  · exact pure _
  · refine bind (tryCatch (bind (await rfl) fun _ => pure _) fun _ => pure _) fun nowMs => ?_
    cases nowMs with
    | none => exact pure _
    | some nowMs => exact bind (await rfl) fun _ => pollQueues ..

theorem resetStaleJobsCall (ageMs : Nat) :
    Within Op.inReset (JobRepository.resetStaleJobsCall ageMs) :=
  bind (await rfl) fun _ => await rfl

theorem watchdogTick : Within Op.inReset HeartbeatWatchdog.tick :=
  tryCatch (bind (resetStaleJobsCall _) fun _ => pure _) fun _ => pure _

theorem flushEvents (events : List IOutboxEvent) :
    Within Op.inFlush (OutboxPoller.flushEvents events) := by
  induction events with
  | nil => exact pure _
  | cons event events ih =>
    refine bind (tryCatch (bind (await rfl) fun _ => bind (await rfl) fun _ => await rfl) ?_)
      fun _ => ih
    exact fun _ => await rfl

theorem flush : Within Op.inFlush OutboxPoller.flush :=
  bind (await rfl) fun events => flushEvents events

theorem create (job : IJob) (lastError : Text) :
    Within Op.inAttempt (DeadLetterService.create job lastError) := by
  refine bind (await rfl) fun _ => bind (tryCatch ?_ fun _ => ?_) fun _ => ?_
  · refine bind (await rfl) fun _ => bind (await rfl) fun _ => bind (await rfl) fun _ => ?_
    exact bind (await rfl) fun _ => bind (await rfl) fun _ => await rfl
  · exact bind (await rfl) fun _ => throw _
  · exact bind (await rfl) fun _ => pure _

theorem handleFailure (job : IJob) (error : Text) (newVersion : Nat) :
    Within Op.inAttempt (RetryService.handleFailure job error newVersion) := by
  refine bind (await rfl) fun _ => ?_
  split
  · exact bind (await rfl) fun _ => create job error
  · refine bind (bind (await rfl) fun _ => bind (await rfl) fun _ => pure _) fun _ => ?_
    refine bind (bind (await rfl) fun _ => await rfl) fun _ => ?_
    exact bind (bind (await rfl) fun _ => pure _) fun _ => await rfl

theorem recordFailure (instanceId : String) (startedAt : Int) (job : IJob) (error : Thrown) :
    Within Op.inAttempt (JobExecutor.recordFailure instanceId startedAt job error) := by
  refine bind (await rfl) fun _ => bind (await rfl) fun _ => bind (await rfl) fun _ => ?_
  exact bind (await rfl) fun _ => handleFailure ..

theorem attempt (instanceId : String) (startedAt : Int) (job : IJob) :
    Within Op.inAttempt (JobExecutor.attempt bootstrapHandlers instanceId startedAt job) := by
  simp only [JobExecutor.attempt,bootstrapHandlers,Bool.true_eq_false,if_false]
  refine bind (bind (await rfl) fun _ => await rfl) fun _ => ?_
  refine bind (await rfl) fun _ => bind (await rfl) fun _ => ?_
  refine bind (bind (await rfl) fun _ => await rfl) fun _ => bind (await rfl) fun _ => ?_
  exact bind (await rfl) fun _ => await rfl

theorem runClaimed (instanceId : String) (job : IJob) :
    Within Op.inAttempt (JobExecutor.runClaimed bootstrapHandlers instanceId job) := by
  refine bind (await rfl) fun _ => bind (await rfl) fun _ => bind (await rfl) fun _ => ?_
  refine bind (bind (await rfl) fun _ => await rfl) fun _ => ?_
  exact tryCatch (attempt ..) fun _ => recordFailure ..

theorem execute (instanceId : String) (job : IJob) :
    Within Op.inExecute (JobExecutor.execute bootstrapHandlers instanceId job) := by
  refine bind (bind (await rfl) fun _ => await rfl) fun claimed => ?_
  cases claimed with
  | none => exact pure _
  | some claimed =>
    apply (runClaimed instanceId claimed).mono
    intro op listed
    cases op with
    | job write => cases write <;> first | exact listed | rfl
    | _ => exact listed

theorem run (instanceId jobId : String) : Within Op.inRun (Worker.run instanceId jobId) := by
  refine bind (await rfl) fun found => ?_
  cases found with
  | none => exact pure _
  | some job =>
    apply (execute instanceId job).mono
    intro op listed
    cases op <;> first | rfl | exact listed

end Within

def Request.ops : Request → Op → Bool
  | .enqueue _ => Op.inEnqueue
  | .cancel _ _ => Op.inCancel
  | .tick _ _ => Op.inTick
  | .run _ _ => Op.inRun
  | .execute _ _ => Op.inExecute
  | .watchdogTick | .bootstrapReset => Op.inReset
  | .flush => Op.inFlush

theorem Within.program (request : Request) : Within request.ops (System.program request) := by
  cases request with
  | enqueue request => exact (Within.enqueue request).bind fun _ => .pure _
  | cancel jobId cancelledBy => exact (Within.cancel jobId cancelledBy).bind fun _ => .pure _
  | tick instanceId activeJobs => exact .tick instanceId activeJobs
  | run instanceId jobId => exact .run instanceId jobId
  | execute instanceId job => exact .execute instanceId job
  | watchdogTick => exact .watchdogTick
  | bootstrapReset => exact (Within.resetStaleJobsCall _).bind fun _ => .pure _
  | flush => exact .flush

end JobScheduler
