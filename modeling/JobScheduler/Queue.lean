import JobScheduler.World

/-! The Redis job queue, one sorted set for each job type, and the repository calls
as async functions: each reads the clocks that the source reads and then makes its
one store call. -/
namespace JobScheduler

abbrev await (op : Op) : Async op.Reply := Program.perform (σ := signature) op

theorem uses_await {allowed : Op → Prop} {op : Op} (may : allowed op) :
    Program.Uses (σ := signature) allowed (await op) :=
  (Program.uses_perform (σ := signature) op).mpr may

def dateNow : Async Int := await .dateNow

def queueKeyMap : JobType → String
  | .reservationExpiry => queueKeyPrefix ++ ":RESERVATION_EXPIRY"
  | .payoutBatch => queueKeyPrefix ++ ":PAYOUT_BATCH"
  | .orderAbandonment => queueKeyPrefix ++ ":ORDER_ABANDONMENT"
  | .lowStockAlert => queueKeyPrefix ++ ":LOW_STOCK_ALERT"
  | .scheduledReport => queueKeyPrefix ++ ":SCHEDULED_REPORT"

theorem queueKeyMap_injective : Function.Injective queueKeyMap := by
  intro a b same
  cases a <;> cases b <;> first | rfl | exact absurd same (by decide)

namespace RedisJobQueue

/-- `ZADD NX`: adds the id only if it is not queued yet. -/
def enqueue (jobType : JobType) (jobId : String) (nextRunAtMs : Int) : Async Bool := do
  let added ← await (.zaddNX (queueKeyMap jobType) nextRunAtMs jobId)
  pure (added = 1)

/-- Range read of the due ids, then their removal. The ids that were read are
returned whatever the removal counts. -/
def dequeue (jobType : JobType) (nowMs : Int) (count : Nat) : Async (List String) := do
  let results ← await (.zrangebyscore (queueKeyMap jobType) 0 nowMs 0 count)
  let jobIds := results.getD []
  if jobIds.length = 0 then
    pure []
  else
    let _ ← await (.zrem (queueKeyMap jobType) jobIds)
    pure jobIds

def remove (jobType : JobType) (jobId : String) : Async Bool := do
  let removed ← await (.zrem (queueKeyMap jobType) [jobId])
  pure (removed = 1)

/-- `ZADD XX`: updates the score only if the id is queued. -/
def reschedule (jobType : JobType) (jobId : String) (nextRunAtMs : Int) : Async Bool := do
  let updated ← await (.zaddXX (queueKeyMap jobType) nextRunAtMs jobId)
  pure (updated = 1)

end RedisJobQueue

namespace JobRepository

def createJobCall (input : EnqueueJobInput) : Async IJob := await (.job (.createJob input))

def claimJobCall (jobId : String) (version : Nat) : Async (Option IJob) := do
  let now ← dateNow
  await (.job (.claimJob jobId version now))

/-- The hook reads its own clock for the expiry. -/
def markCompletedCall (jobId : String) (version : Nat) (completedAt : Int) :
    Async (Option IJob) := do
  let now ← dateNow
  await (.job (.markCompleted jobId version completedAt now))

def markFailedCall (jobId : String) (version : Nat) (error : Text) (nextRunAt : Int) :
    Async (Option IJob) := do
  let now ← dateNow
  await (.job (.markFailed jobId version error nextRunAt now))

def markDeadCall (jobId : String) (version : Nat) : Async (Option IJob) :=
  await (.job (.markDead jobId version))

def cancelJobCall (jobId : String) : Async (Option IJob) := await (.job (.cancelJob jobId))

def resetStaleJobsCall (ageMs : Nat) : Async Nat := do
  let now ← dateNow
  await (.job (.resetStaleJobs (now - ageMs)))

def findByJobIdCall (jobId : String) : Async (Option IJob) := await (.findByJobId jobId)

end JobRepository

/-- `publishToExchange`: it rejects when no channel can be had or the publish throws. -/
def publishToExchange (key : RoutingKey) (payload : EventPayload) : Async Unit :=
  await (.publish key payload)

end JobScheduler
