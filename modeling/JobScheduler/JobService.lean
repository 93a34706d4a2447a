import JobScheduler.Queue

/-! Submission and cancellation of jobs: the job definitions with their idempotency
keys, and `JobService`. -/
namespace JobScheduler

structure JobDefinition where
  maxAttempts : Nat
  priority : JobPriority
  idempotencyKeyFn : JobPayload → Async String

def typeError : Thrown := .error (text "Cannot convert object to primitive value") none

/-- A `${...}` substitution of a payload field. -/
def template (payload : JobPayload) (name : String) : Async String :=
  match payload.field name with
  | none => pure "undefined"
  | some value =>
    match value.shown with
    | none => throw typeError
    | some shown => pure shown

/-- `payload.type !== jobType` -/
def hasType (payload : JobPayload) (jobType : JobType) : Bool :=
  match payload.field "type" with
  | some (.str name) => name = jobType.name
  | _ => false

def uuidv4 : Async String := await .uuidv4

def jobDefinitions : JobType → Option JobDefinition
  | .reservationExpiry => some {
      maxAttempts := maxRetries
      priority := .one
      idempotencyKeyFn := fun payload => do
        if hasType payload .reservationExpiry = false then uuidv4
        else
          let sagaId ← template payload "sagaId"
          pure ("RESERVATION_EXPIRY:" ++ sagaId) }
  | .payoutBatch => some {
      maxAttempts := 3
      priority := .one
      idempotencyKeyFn := fun payload => do
        if hasType payload .payoutBatch = false then uuidv4
        else
          let weekStartDate ← template payload "weekStartDate"
          pure ("PAYOUT_BATCH:" ++ weekStartDate) }
  | .orderAbandonment => some {
      maxAttempts := maxRetries
      priority := .two
      idempotencyKeyFn := fun payload => do
        if hasType payload .orderAbandonment = false then uuidv4
        else
          let cartId ← template payload "cartId"
          let stage ← template payload "stage"
          pure ("ORDER_ABANDONMENT:" ++ cartId ++ ":" ++ stage) }
  | .lowStockAlert => some {
      maxAttempts := maxRetries
      priority := .two
      idempotencyKeyFn := fun payload => do
        if hasType payload .lowStockAlert = false then uuidv4
        else
          let inventoryId ← template payload "inventoryId"
          pure ("LOW_STOCK_ALERT:" ++ inventoryId) }
  | .scheduledReport => some {
      maxAttempts := 3
      priority := .three
      idempotencyKeyFn := fun payload => do
        if hasType payload .scheduledReport = false then uuidv4
        else
          let reportType ← template payload "reportType"
          let periodStart ← template payload "periodStart"
          pure ("SCHEDULED_REPORT:" ++ reportType ++ ":" ++ periodStart) }

namespace JobService

/-- `{ type: request.jobType, ...request.payload }`: an own `type` of the request's
payload wins. -/
def spread (request : CreateJobRequest) : JobPayload :=
  if (request.payload.field "type").isSome then request.payload
  else ("type",.str request.jobType.name) :: request.payload

def unknownJobType (jobType : JobType) : Thrown :=
  .error (text ("Unknown jobType: " ++ jobType.name)) none

def enqueue (request : CreateJobRequest) : Async IJob := do
  match jobDefinitions request.jobType with
  | none => throw (unknownJobType request.jobType)
  | some definition =>
    let payload := spread request
    let jobId ← definition.idempotencyKeyFn payload
    let job ← JobRepository.createJobCall {
      jobId := jobId
      jobType := request.jobType
      tenantId := request.tenantId
      scheduledAt := request.scheduledAt
      nextRunAt := request.scheduledAt
      priority := definition.priority
      maxAttempts := definition.maxAttempts
      cronExpression := request.cronExpression
      payload := payload }
    let _ ← RedisJobQueue.enqueue request.jobType jobId request.scheduledAt
    publishToExchange .jobScheduled (.scheduled job.jobId job.jobType job.tenantId
      job.scheduledAt job.nextRunAt job.priority)
    pure job

def cancel (jobId cancelledBy : String) : Async (Option IJob) := do
  match ← JobRepository.cancelJobCall jobId with
  | none => pure none
  | some job =>
    let _ ← RedisJobQueue.remove job.jobType jobId
    let now ← dateNow
    publishToExchange .jobCancelled (.cancelled job.jobId job.jobType job.tenantId now
      cancelledBy)
    pure (some job)

end JobService

end JobScheduler
