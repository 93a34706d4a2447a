import JobScheduler.Execution
import JobScheduler.Interleaving
import JobScheduler.JobService
import JobScheduler.OutboxPoller

/-! The whole system: any number of instances serving requests, polling, running
jobs, resetting stale ones and flushing the outbox over the shared stores. -/
namespace JobScheduler

/-- What starts a call. `execute` lets any copy of a document be delivered any
number of times, besides the copies that a worker run reads itself. -/
inductive Request where
  | enqueue (request : CreateJobRequest)
  | cancel (jobId cancelledBy : String)
  | tick (instanceId : String) (activeJobs : Nat)
  | run (instanceId jobId : String)
  | execute (instanceId : String) (job : IJob)
  | watchdogTick
  | bootstrapReset
  | flush

/-- Moves of the stores themselves. -/
inductive StoreEvent where
  | expireJobs (now : Int)
  | giveUp (index : Nat)

namespace System

def program : Request → Async Unit
  | .enqueue request => do
    let _ ← JobService.enqueue request
    pure ()
  | .cancel jobId cancelledBy => do
    let _ ← JobService.cancel jobId cancelledBy
    pure ()
  | .tick instanceId activeJobs => PollLoop.tick instanceId activeJobs
  | .run instanceId jobId => Worker.run instanceId jobId
  | .execute instanceId job => JobExecutor.execute bootstrapHandlers instanceId job
  | .watchdogTick => HeartbeatWatchdog.tick
  | .bootstrapReset => do
    let _ ← JobRepository.resetStaleJobsCall staleRunningJobAgeMs
    pure ()
  | .flush => OutboxPoller.flush

def starts : Op → List Request
  | .dispatch instanceId jobIds _ => jobIds.map fun jobId => .run instanceId jobId
  | _ => []

def environment : StoreEvent → World → World
  | .expireJobs now, w => { w with jobs := JobRepository.expire w.jobs now }
  | .giveUp index, w => { w with placed := RabbitMq.giveUp w.placed index }

def machine : Machine signature Thrown World Oracle Request StoreEvent where
  perform := perform
  starts := starts
  program := program
  environment := environment
  crashed := .error (text "process exited") none

@[simp] theorem machine_perform : machine.perform = perform := rfl

@[simp] theorem machine_starts : machine.starts = starts := rfl

@[simp] theorem machine_environment : machine.environment = environment := rfl

end System

abbrev SystemState := State signature Thrown World Request
abbrev SystemLabel := Label Oracle Request StoreEvent
abbrev SystemCall := Call signature Thrown Request

def World.empty : World where
  jobs := Collection.empty
  sortedSets := fun _ => SortedSet.empty
  heartbeats := fun _ => none
  executions := []
  deadLetters := Collection.empty
  outbox := []
  placed := []

def initial (world : World) : SystemState := ⟨world,[]⟩

theorem Protocol.followed_initial (P : Protocol System.machine Q) (world : World) :
    P.Followed (initial world) := P.followed_nil world

/-- Every external call succeeds at the given time, and a handler resolves. -/
def calm (now : Int) : Oracle where
  clock := now
  redisTime := now
  random := 0
  uuid := "00000000-0000-4000-8000-000000000000"
  delivery := .performed
  refusal := .error (text "validation failed") none
  publish := none
  handler := none

/-- A weekly report, whose definition allows the handler ten minutes. -/
def reportRequest : CreateJobRequest where
  jobType := .scheduledReport
  tenantId := "tenant"
  scheduledAt := 0
  payload := [("reportType",.str "WEEKLY_SELLER_SUMMARY"),("periodStart",.str "2024-01-01")]
  cronExpression := none

def reportId : String := "SCHEDULED_REPORT:WEEKLY_SELLER_SUMMARY:2024-01-01"

/-- Drive one call through a number of undisturbed operations. -/
def drive (index steps : Nat) (now : Int) : List SystemLabel :=
  List.replicate steps (.resume index (calm now))

end JobScheduler
