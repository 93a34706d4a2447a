import Mathlib.Logic.Basic

/-! The shared types and constants of the service: job types and payloads, the job
document, requests, execution records, dead letters and outbox events. Times are
integer milliseconds since the epoch. -/
namespace JobScheduler

/-- A JavaScript string as UTF-16 code units, the unit of `length` and `slice`. -/
abbrev Text := List UInt16

def utf16 (c : Char) : List UInt16 :=
  if c.val < 0x10000 then [c.val.toUInt16]
  else
    let rest := c.val - 0x10000
    [(0xD800 + rest / 0x400).toUInt16,(0xDC00 + rest % 0x400).toUInt16]

def text (s : String) : Text := s.toList.flatMap utf16

/-- What a promise can reject with: an `Error`, or any other value, of which only
its `String(value)` is ever used. -/
inductive Thrown where
  | error (message : Text) (stack : Option Text)
  | value (shown : Text)
  deriving DecidableEq

namespace Thrown

/-- `error instanceof Error ? error.message : String(error)` -/
def message : Thrown → Text
  | .error message _ => message
  | .value shown => shown

/-- `error instanceof Error ? error.stack : undefined` -/
def stack : Thrown → Option Text
  | .error _ stack => stack
  | .value _ => none

end Thrown

inductive JobStatus where
  | pending
  | running
  | completed
  | failed
  | dead
  deriving DecidableEq

inductive JobType where
  | reservationExpiry
  | payoutBatch
  | orderAbandonment
  | lowStockAlert
  | scheduledReport
  deriving DecidableEq

/-- The name that the HTTP API, the payloads and the job ids use. -/
def JobType.name : JobType → String
  | .reservationExpiry => "RESERVATION_EXPIRY"
  | .payoutBatch => "PAYOUT_BATCH"
  | .orderAbandonment => "ORDER_ABANDONMENT"
  | .lowStockAlert => "LOW_STOCK_ALERT"
  | .scheduledReport => "SCHEDULED_REPORT"

inductive JobPriority where
  | one
  | two
  | three
  deriving DecidableEq

/-- A parsed JSON value. A number is kept as the text that `String(n)` gives. -/
inductive JsonValue where
  | null
  | bool (b : Bool)
  | num (shown : String)
  | str (s : String)
  | arr (items : List JsonValue)
  | obj (fields : List (String × JsonValue))

mutual

/-- The text a template literal substitutes. `none` is the TypeError thrown for an
object whose own `toString` is not callable. -/
def JsonValue.shown : JsonValue → Option String
  | .null => some "null"
  | .bool b => some (if b then "true" else "false")
  | .num shown => some shown
  | .str s => some s
  | .arr items => (JsonValue.joined items).map fun texts => String.intercalate "," texts
  | .obj fields =>
    if fields.any fun field => field.1 = "toString" then none else some "[object Object]"

/-- The elements as `Array.prototype.join` shows them, with `null` as nothing. -/
def JsonValue.joined : List JsonValue → Option (List String)
  | [] => some []
  | .null :: items => (JsonValue.joined items).map fun texts => "" :: texts
  | item :: items => do
    let first ← item.shown
    let texts ← JsonValue.joined items
    pure (first :: texts)

end

mutual

/-- What Mongoose keeps of a value when it minimizes a document: nothing of an object without
fields, unless an array holds it. -/
def JsonValue.minimized : JsonValue → Option JsonValue
  | .arr items => some (.arr (minimizedItems items))
  | .obj fields =>
    match minimizedFields fields with
    | [] => none
    | kept => some (.obj kept)
  | value => some value

def JsonValue.minimizedItems : List JsonValue → List JsonValue
  | [] => []
  | item :: items => item.minimized.getD (.obj []) :: minimizedItems items

def JsonValue.minimizedFields : List (String × JsonValue) → List (String × JsonValue)
  | [] => []
  | (name,value) :: fields =>
    match value.minimized with
    | none => minimizedFields fields
    | some kept => (name,kept) :: minimizedFields fields

end

/-- A payload is an open object: its schema is `strict: false`. -/
abbrev JobPayload := List (String × JsonValue)

def JobPayload.field (payload : JobPayload) (name : String) : Option JsonValue :=
  (payload.find? fun field => field.1 = name).map Prod.snd

/-- The payload as it is stored. -/
def JobPayload.minimized (payload : JobPayload) : JobPayload :=
  payload.filterMap fun field =>
    ((JobPayload.field payload field.1).bind JsonValue.minimized).map fun kept => (field.1,kept)

structure IJob where
  jobId : String
  jobType : JobType
  tenantId : String
  status : JobStatus
  priority : JobPriority
  scheduledAt : Int
  nextRunAt : Int
  cronExpression : Option String
  attempts : Nat
  maxAttempts : Nat
  lastAttemptAt : Option Int
  lastError : Option Text
  startedAt : Option Int
  completedAt : Option Int
  payload : JobPayload
  version : Nat
  expiresAt : Option Int

structure EnqueueJobInput where
  jobId : String
  jobType : JobType
  tenantId : String
  scheduledAt : Int
  nextRunAt : Int
  priority : JobPriority
  maxAttempts : Nat
  cronExpression : Option String
  payload : JobPayload

/-- A request that passed `createJobSchema`. `scheduledAt` is the time value of its
ISO date. -/
structure CreateJobRequest where
  jobType : JobType
  tenantId : String
  scheduledAt : Int
  payload : JobPayload
  cronExpression : Option String

inductive JobExecutionStatus where
  | completed
  | failed
  deriving DecidableEq

structure IExecution where
  jobId : String
  jobType : JobType
  tenantId : String
  attempt : Nat
  status : JobExecutionStatus
  instanceId : String
  startedAt : Int
  completedAt : Int
  durationMs : Int
  error : Option Text
  stack : Option Text

structure IDeadLetterError where
  attempt : Nat
  error : Text
  stack : Option Text
  occurredAt : Int

structure IDeadLetter where
  jobId : String
  jobType : JobType
  tenantId : String
  payload : JobPayload
  attempts : Nat
  errors : List IDeadLetterError
  deadAt : Int
  resolvedAt : Option Int
  resolvedBy : Option String
  resolution : Option Text
  expiresAt : Int

inductive OutboxEventStatus where
  | pending
  | completed
  | dead
  deriving DecidableEq

inductive RoutingKey where
  | jobCompleted
  | jobFailed
  | jobDead
  | jobScheduled
  | jobClaimed
  | jobRetrying
  | jobCancelled
  | jobHeartbeat
  deriving DecidableEq

/-- The bodies of the published messages, one constructor for each event type. -/
inductive EventPayload where
  | completed (jobId : String) (jobType : JobType) (tenantId : String) (scheduledAt executedAt
      durationMs : Int) (attempt : Nat)
  | failed (jobId : String) (jobType : JobType) (tenantId : String) (attempt maxAttempts : Nat)
      (error : Text)
  | dead (jobId : String) (jobType : JobType) (tenantId : String) (totalAttempts : Nat)
      (lastError : Text) (deadAt : Int)
  | scheduled (jobId : String) (jobType : JobType) (tenantId : String) (scheduledAt
      nextRunAt : Int) (priority : JobPriority)
  | claimed (jobId : String) (jobType : JobType) (tenantId : String) (attempt : Nat)
      (claimedAt : Int) (instanceId : String)
  | retrying (jobId : String) (jobType : JobType) (tenantId : String) (attempt maxAttempts : Nat)
      (nextRetryAt : Int) (error : Text)
  | cancelled (jobId : String) (jobType : JobType) (tenantId : String) (cancelledAt : Int)
      (cancelledBy : String)
  deriving DecidableEq

structure IOutboxEvent where
  id : Nat
  type : RoutingKey
  payload : EventPayload
  status : OutboxEventStatus
  retryCount : Nat
  lastError : Option Text
  processedAt : Option Int
  createdAt : Int

def pollBatchSize : Nat := 100
def minFreeSlots : Nat := 10
def heartbeatIntervalMs : Nat := 15000
def jobLockTtlMs : Nat := 300000
def staleRunningJobAgeMs : Nat := jobLockTtlMs
def queueKeyPrefix : String := "scheduler:queue"
def maxRetries : Nat := 5
def baseDelayMs : Nat := 1000
def maxDelayMs : Nat := 60000
def retryMultiplier : Nat := 2
def maxConcurrentJobs : Nat := 100
def completedJobTtlSeconds : Nat := 60 * 60 * 24 * 7
def deadLetterTtlSeconds : Nat := 60 * 60 * 24 * 30

end JobScheduler
