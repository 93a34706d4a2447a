import JobScheduler.Queue

/-! Execution of dequeued jobs: the dead-letter service, the retry service, the job
executor, the worker and the poll loop's tick, in the order in which they call each
other. Logging is left out. -/
namespace JobScheduler

namespace DeadLetterService

/-- The document and the event are written in one transaction; `endSession` runs
in the `finally` block. -/
def create (job : IJob) (lastError : Text) : Async Unit := do
  await .startSession
  Program.tryFinally
    (do
      let occurredAt ← dateNow
      let deadAt ← dateNow
      let expiresFrom ← dateNow
      let eventDeadAt ← dateNow
      let createdAt ← dateNow
      let errors : List IDeadLetterError := [⟨job.attempts,lastError,none,occurredAt⟩]
      await (.commitDeadLetter
        { jobId := job.jobId
          jobType := job.jobType
          tenantId := job.tenantId
          payload := job.payload
          attempts := job.attempts
          errors := errors.take 10
          deadAt := deadAt
          resolvedAt := none
          resolvedBy := none
          resolution := none
          expiresAt := expiresFrom + deadLetterTtlSeconds * 1000 }
        .jobDead
        (.dead job.jobId job.jobType job.tenantId job.attempts lastError eventDeadAt)
        createdAt))
    (await .endSession)

end DeadLetterService

namespace RetryService

/-- `new Date` truncates the sum, and `Math.random() * 1_000` is below one thousand. -/
def computeNextRunAt (attempt : Nat) : Async Int := do
  let delay := min (baseDelayMs * retryMultiplier ^ attempt) maxDelayMs
  let jitter ← await .random
  let now ← dateNow
  pure (now + delay + ↑(jitter % 1000))

def handleFailure (job : IJob) (error : Text) (newVersion : Nat) : Async Unit := do
  publishToExchange .jobFailed (.failed job.jobId job.jobType job.tenantId job.attempts
    job.maxAttempts error)
  if job.maxAttempts ≤ job.attempts then
    let _ ← JobRepository.markDeadCall job.jobId newVersion
    DeadLetterService.create job error
  else
    let nextRunAt ← computeNextRunAt job.attempts
    let _ ← JobRepository.markFailedCall job.jobId newVersion error nextRunAt
    let _ ← RedisJobQueue.reschedule job.jobType job.jobId nextRunAt
    publishToExchange .jobRetrying (.retrying job.jobId job.jobType job.tenantId job.attempts
      job.maxAttempts nextRunAt error)

end RetryService

namespace HeartbeatWatchdog

def heartbeatKey (jobId : String) : String := "scheduler:job:heartbeat:" ++ jobId

def writeHeartbeat (jobId instanceId : String) : Async Unit := do
  let ts ← dateNow
  await (.setHeartbeat (heartbeatKey jobId) ⟨instanceId,ts,heartbeatIntervalMs * 3 / 1000⟩)

def clearHeartbeat (jobId : String) : Async Unit := await (.delHeartbeat (heartbeatKey jobId))

/-- One tick of the watchdog: an error is logged and swallowed. -/
def tick : Async Unit :=
  try
    let _ ← JobRepository.resetStaleJobsCall staleRunningJobAgeMs
    pure ()
  catch _ => pure ()

end HeartbeatWatchdog

namespace JobExecutor

def noHandler (jobType : JobType) : Thrown :=
  .error (text ("No handler registered for jobType: " ++ jobType.name)) none

def handle (job : IJob) : Async Unit := do
  await (.handlerStart job)
  await (.handlerSettle job)

def attempt (handlers : JobType → Bool) (instanceId : String) (startedAt : Int) (claimed : IJob) :
    Async Unit := do
  if handlers claimed.jobType = false then throw (noHandler claimed.jobType)
  handle claimed
  let completedAt ← dateNow
  let finished ← dateNow
  let durationMs := finished - startedAt
  let _ ← JobRepository.markCompletedCall claimed.jobId (claimed.version + 1) completedAt
  HeartbeatWatchdog.clearHeartbeat claimed.jobId
  await (.createExecution
    { jobId := claimed.jobId
      jobType := claimed.jobType
      tenantId := claimed.tenantId
      attempt := claimed.attempts
      status := .completed
      instanceId := instanceId
      startedAt := startedAt
      completedAt := completedAt
      durationMs := durationMs
      error := none
      stack := none })
  publishToExchange .jobCompleted (.completed claimed.jobId claimed.jobType claimed.tenantId
    claimed.scheduledAt completedAt durationMs claimed.attempts)

def recordFailure (instanceId : String) (startedAt : Int) (claimed : IJob) (error : Thrown) :
    Async Unit := do
  let failedAt ← dateNow
  let durationMs := failedAt - startedAt
  HeartbeatWatchdog.clearHeartbeat claimed.jobId
  let completedAt ← dateNow
  await (.createExecution
    { jobId := claimed.jobId
      jobType := claimed.jobType
      tenantId := claimed.tenantId
      attempt := claimed.attempts
      status := .failed
      instanceId := instanceId
      startedAt := startedAt
      completedAt := completedAt
      durationMs := durationMs
      error := some error.message
      stack := error.stack })
  RetryService.handleFailure claimed error.message (claimed.version + 1)

/-- `execute` after a claim that was won. -/
def runClaimed (handlers : JobType → Bool) (instanceId : String) (claimed : IJob) : Async Unit := do
  let claimedAt ← dateNow
  publishToExchange .jobClaimed (.claimed claimed.jobId claimed.jobType claimed.tenantId
    claimed.attempts claimedAt instanceId)
  let startedAt ← dateNow
  HeartbeatWatchdog.writeHeartbeat claimed.jobId instanceId
  try attempt handlers instanceId startedAt claimed
  catch error => recordFailure instanceId startedAt claimed error

def execute (handlers : JobType → Bool) (instanceId : String) (job : IJob) : Async Unit := do
  match ← JobRepository.claimJobCall job.jobId job.version with
  | none => pure ()
  | some claimed => runClaimed handlers instanceId claimed

end JobExecutor

/-- The handler map of `bootstrapServer` has a handler for every job type. -/
def bootstrapHandlers : JobType → Bool := fun _ => true

namespace Worker

/-- `Worker.run`. `Worker.dispatch` starts one run for each id of its batch. -/
def run (instanceId jobId : String) : Async Unit := do
  match ← JobRepository.findByJobIdCall jobId with
  | none => pure ()
  | some job => JobExecutor.execute bootstrapHandlers instanceId job

end Worker

namespace PollLoop

def pollOrder : List JobType :=
  [.reservationExpiry,.payoutBatch,.orderAbandonment,.lowStockAlert,.scheduledReport]

/-- The loop over the queues. A failing dequeue is logged and its queue skipped. -/
def pollQueues (instanceId : String) (nowMs : Int) : List JobType → Nat → Async Unit
  | [], _ => pure ()
  | jobType :: rest, remainingSlots => do
    if remainingSlots = 0 then pure ()
    else
      let taken ← try
          let jobIds ← RedisJobQueue.dequeue jobType nowMs remainingSlots
          if jobIds.length = 0 then pure 0
          else
            await (.dispatch instanceId jobIds jobType)
            pure jobIds.length
        catch _ => pure 0
      pollQueues instanceId nowMs rest (remainingSlots - taken)

/-- One tick that reads `activeJobs` in-flight jobs. Redis's own clock decides what
is due; the local one is read for the skew warnings only. -/
def tick (instanceId : String) (activeJobs : Nat) : Async Unit := do
  let freeSlots := maxConcurrentJobs - activeJobs
  if freeSlots < minFreeSlots then pure ()
  else
    let nowMs ← try
        let nowMs ← await .redisTime
        pure (some nowMs)
      catch _ => pure none
    match nowMs with
    | none => pure ()
    | some nowMs =>
      let _ ← dateNow
      pollQueues instanceId nowMs pollOrder (min freeSlots pollBatchSize)

end PollLoop

end JobScheduler
