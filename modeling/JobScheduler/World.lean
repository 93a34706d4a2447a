import JobScheduler.Program
import JobScheduler.JobRepository
import JobScheduler.RabbitMq
import JobScheduler.SortedSet
import Mathlib.Data.String.Basic

/-! The stores that all instances share, and the operations that the service's code
awaits on them. Whatever the code cannot know in advance (clock readings, random
numbers, handler outcomes, failing calls) comes from an oracle, so that performing
an operation is a function. -/
namespace JobScheduler

abbrev DeadLetters := Collection IDeadLetter.jobId

/-- The JSON value of a heartbeat key. -/
structure Heartbeat where
  instanceId : String
  ts : Int
  ttlSeconds : Nat

structure World where
  jobs : Jobs
  sortedSets : String → SortedSet String
  heartbeats : String → Option Heartbeat
  executions : List IExecution
  deadLetters : DeadLetters
  outbox : List IOutboxEvent
  placed : RabbitMq.Placed

/-- How a call to a store ends: performed and answered, lost on the way, or
performed although its caller sees an error. -/
inductive Delivery where
  | performed
  | lost (e : Thrown)
  | unacknowledged (e : Thrown)

namespace Delivery

def applies : Delivery → Bool
  | .lost _ => false
  | _ => true

def answers : Delivery → Bool
  | .performed => true
  | _ => false

end Delivery

/-- What the environment decides about one operation. `refusal` is the error of a
schema validator or a unique index that refuses a document. -/
structure Oracle where
  clock : Int
  redisTime : Int
  random : Nat
  uuid : String
  delivery : Delivery
  refusal : Thrown
  publish : Option Thrown
  handler : Option Thrown

/-- The operations. `dispatch` hands a batch to the worker without waiting for it,
and a handler invocation is two operations, its start and its outcome. -/
inductive Op where
  | dateNow
  | random
  | uuidv4
  | redisTime
  | job (write : JobWrite)
  | findByJobId (jobId : String)
  | zaddNX (key : String) (score : Int) (member : String)
  | zaddXX (key : String) (score : Int) (member : String)
  | zrem (key : String) (members : List String)
  | zrangebyscore (key : String) (low high : Int) (offset count : Nat)
  | setHeartbeat (key : String) (value : Heartbeat)
  | delHeartbeat (key : String)
  | createExecution (record : IExecution)
  | startSession
  | commitDeadLetter (letter : IDeadLetter) (type : RoutingKey) (payload : EventPayload)
      (createdAt : Int)
  | endSession
  | publish (key : RoutingKey) (payload : EventPayload)
  | handlerStart (job : IJob)
  | handlerSettle (job : IJob)
  | dispatch (instanceId : String) (jobIds : List String) (jobType : JobType)
  | findOutbox (maxRetryCount limit : Nat)
  | completeOutbox (id : Nat) (processedAt : Int)
  | retryOutbox (id : Nat) (status : OutboxEventStatus) (retryCount : Nat) (lastError : Text)

abbrev Op.Reply : Op → Type
  | .dateNow | .redisTime => Int
  | .random => Nat
  | .uuidv4 => String
  | .job write => write.Reply
  | .findByJobId _ => Option IJob
  | .zaddNX _ _ _ | .zaddXX _ _ _ | .zrem _ _ => Nat
  | .zrangebyscore _ _ _ _ _ => Option (List String)
  | .findOutbox _ _ => List IOutboxEvent
  | _ => Unit

abbrev signature : Signature := ⟨Op,Op.Reply⟩

abbrev Async (α : Type) := Program signature Thrown α

namespace IExecution

/-- The validators of `ExecutionSchema` on the fields that a call fills. -/
def valid (record : IExecution) : Bool :=
  record.jobId ≠ "" && record.tenantId ≠ "" && record.instanceId ≠ "" && 1 ≤ record.attempt &&
    0 ≤ record.durationMs && record.error.all (·.length ≤ 2000) &&
    record.stack.all (·.length ≤ 5000)

end IExecution

namespace IDeadLetter

/-- The validators of `DeadLetterErrorSchema`: an empty string counts as missing. -/
def validError (entry : IDeadLetterError) : Bool :=
  entry.error ≠ [] && entry.error.length ≤ 2000 && entry.stack.all (·.length ≤ 5000)

/-- The validators of `DeadLetterSchema` on the fields that a call fills. -/
def valid (letter : IDeadLetter) : Bool :=
  letter.jobId ≠ "" && letter.tenantId ≠ "" && 1 ≤ letter.attempts &&
    letter.errors.all validError && letter.errors.length ≤ 10

end IDeadLetter

namespace World

def newEvent (w : World) (type : RoutingKey) (payload : EventPayload) (createdAt : Int) :
    IOutboxEvent where
  id := w.outbox.length
  type := type
  payload := payload
  status := .pending
  retryCount := 0
  lastError := none
  processedAt := none
  createdAt := createdAt

/-- The dead letter and its outbox event in one transaction: both or neither. -/
def commitDeadLetter (w : World) (letter : IDeadLetter) (type : RoutingKey)
    (payload : EventPayload) (createdAt : Int) : Option World :=
  if letter.valid then
    (w.deadLetters.insert letter).map fun letters =>
      { w with
        deadLetters := letters
        outbox := w.outbox ++ [w.newEvent type payload createdAt] }
  else none

/-- `find({status: "pending", retryCount: {$lt}}).sort({createdAt: 1}).limit(n)` -/
def findOutbox (w : World) (maxRetryCount limit : Nat) : List IOutboxEvent :=
  ((w.outbox.filter fun e => e.status = .pending && e.retryCount < maxRetryCount).insertionSort
    fun a b => a.createdAt ≤ b.createdAt).take limit

def updateOutbox (w : World) (id : Nat) (change : IOutboxEvent → IOutboxEvent) : World :=
  { w with outbox := w.outbox.map fun e => if e.id = id then change e else e }

def updateSet (w : World) (key : String) (set : SortedSet String) : World :=
  { w with sortedSets := fun other => if other = key then set else w.sortedSets other }

end World

/-- A store call that may be lost, or performed without its answer arriving. -/
def deliver (delivery : Delivery) (w : World) (answer : Except Thrown α × World) :
    Except Thrown α × World :=
  match delivery with
  | .performed => answer
  | .lost e => (.error e,w)
  | .unacknowledged e => (.error e,answer.2)

def perform : (op : Op) → Oracle → World → Except Thrown op.Reply × World
  | .dateNow, ω, w => (.ok ω.clock,w)
  | .random, ω, w => (.ok ω.random,w)
  | .uuidv4, ω, w => (.ok ω.uuid,w)
  | .redisTime, ω, w => deliver ω.delivery w (.ok ω.redisTime,w)
  | .job write, ω, w =>
    let answer := write.run w.jobs
    deliver ω.delivery w (.ok answer.1,{ w with jobs := answer.2 })
  | .findByJobId jobId, ω, w =>
    deliver ω.delivery w (.ok (JobRepository.findByJobId w.jobs jobId),w)
  | .zaddNX key score member, ω, w =>
    let answer := (w.sortedSets key).zaddNX score member
    deliver ω.delivery w (.ok answer.1,w.updateSet key answer.2)
  | .zaddXX key score member, ω, w =>
    let answer := (w.sortedSets key).zaddXX score member
    deliver ω.delivery w (.ok answer.1,w.updateSet key answer.2)
  | .zrem key members, ω, w =>
    let answer := (w.sortedSets key).zrem members
    deliver ω.delivery w (.ok answer.1,w.updateSet key answer.2)
  | .zrangebyscore key low high offset count, ω, w =>
    match ω.delivery with
    | .performed => (.ok (some ((w.sortedSets key).zrangebyscore low high offset count)),w)
    | .lost e => (.error e,w)
    -- `pipeline.exec` resolves although the command in it failed: `[error, undefined]`.
    | .unacknowledged _ => (.ok none,w)
  | .setHeartbeat key value, ω, w =>
    deliver ω.delivery w (.ok (),
      { w with heartbeats := fun other => if other = key then some value else w.heartbeats other })
  | .delHeartbeat key, ω, w =>
    deliver ω.delivery w (.ok (),
      { w with heartbeats := fun other => if other = key then none else w.heartbeats other })
  | .createExecution record, ω, w =>
    if record.valid then
      deliver ω.delivery w (.ok (),{ w with executions := w.executions ++ [record] })
    else (.error ω.refusal,w)
  | .startSession, ω, w => deliver ω.delivery w (.ok (),w)
  | .commitDeadLetter letter type payload createdAt, ω, w =>
    match w.commitDeadLetter letter type payload createdAt with
    | some committed => deliver ω.delivery w (.ok (),committed)
    | none => (.error ω.refusal,w)
  | .endSession, ω, w => deliver ω.delivery w (.ok (),w)
  | .publish key payload, ω, w =>
    match ω.publish with
    | some e => (.error e,w)
    | none => (.ok (),
        { w with placed := RabbitMq.publish w.placed .schedulerExchange key payload })
  | .handlerStart _, _, w => (.ok (),w)
  | .handlerSettle _, ω, w =>
    match ω.handler with
    | some e => (.error e,w)
    | none => (.ok (),w)
  | .dispatch _ _ _, _, w => (.ok (),w)
  | .findOutbox maxRetryCount limit, ω, w =>
    deliver ω.delivery w (.ok (w.findOutbox maxRetryCount limit),w)
  | .completeOutbox id processedAt, ω, w =>
    deliver ω.delivery w (.ok (),w.updateOutbox id fun e =>
      { e with status := .completed, processedAt := some processedAt })
  | .retryOutbox id status retryCount lastError, ω, w =>
    deliver ω.delivery w (.ok (),w.updateOutbox id fun e =>
      { e with status := status, retryCount := retryCount, lastError := some lastError })

end JobScheduler
