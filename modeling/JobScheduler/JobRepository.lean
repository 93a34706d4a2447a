import JobScheduler.Collection
import JobScheduler.Types

/-! The job collection and the writes of the job repository. Every write is one
atomic `findOneAndUpdate` or `updateMany`; `JobWrite` collects them, and one lemma
says what each does to the document of a given id. -/
namespace JobScheduler

abbrev Jobs := Collection IJob.jobId

namespace JobRepository

/-- The `findOneAndUpdate` hook of the schema: an update whose `$set.status` is
completed or failed also sets the expiry that the TTL index reads. -/
def preFindOneAndUpdate (now : Int) (status : JobStatus) (job : IJob) : IJob :=
  if status = .completed ∨ status = .failed then
    { job with expiresAt := some (now + completedJobTtlSeconds * 1000) }
  else job

/-- The document that `$setOnInsert` describes. -/
def inserted (input : EnqueueJobInput) : IJob where
  jobId := input.jobId
  jobType := input.jobType
  tenantId := input.tenantId
  status := .pending
  priority := input.priority
  scheduledAt := input.scheduledAt
  nextRunAt := input.nextRunAt
  cronExpression := input.cronExpression
  attempts := 0
  maxAttempts := input.maxAttempts
  lastAttemptAt := none
  lastError := none
  startedAt := none
  completedAt := none
  payload := input.payload.minimized
  version := 0
  expiresAt := none

def createJob (jobs : Jobs) (input : EnqueueJobInput) : IJob × Jobs :=
  jobs.upsert (inserted input)

/-- `{ status: "pending", version }` -/
def claimable (version : Nat) (job : IJob) : Bool :=
  job.status = .pending && job.version = version

def claimed (version : Nat) (now : Int) (job : IJob) : IJob :=
  { job with
    status := .running
    startedAt := some now
    lastAttemptAt := some now
    version := version + 1
    attempts := job.attempts + 1 }

def claimJob (jobs : Jobs) (jobId : String) (version : Nat) (now : Int) : Option IJob × Jobs :=
  jobs.findOneAndUpdate jobId (claimable version) (claimed version now) (fun _ => rfl)

/-- `{ status: "running", version }` -/
def runningAt (version : Nat) (job : IJob) : Bool :=
  job.status = .running && job.version = version

def completed (version : Nat) (completedAt now : Int) (job : IJob) : IJob :=
  preFindOneAndUpdate now .completed
    { job with status := .completed, completedAt := some completedAt, version := version + 1 }

def markCompleted (jobs : Jobs) (jobId : String) (version : Nat) (completedAt now : Int) :
    Option IJob × Jobs :=
  jobs.findOneAndUpdate jobId (runningAt version) (completed version completedAt now)
    (fun _ => rfl)

def failed (version : Nat) (error : Text) (nextRunAt now : Int) (job : IJob) : IJob :=
  preFindOneAndUpdate now .failed
    { job with
      status := .failed
      lastError := some (error.take 2000)
      nextRunAt := nextRunAt
      version := version + 1 }

def markFailed (jobs : Jobs) (jobId : String) (version : Nat) (error : Text)
    (nextRunAt now : Int) : Option IJob × Jobs :=
  jobs.findOneAndUpdate jobId (runningAt version) (failed version error nextRunAt now)
    (fun _ => rfl)

/-- `{ version }`, with no condition on the status. -/
def versionIs (version : Nat) (job : IJob) : Bool := job.version = version

def dead (version : Nat) (job : IJob) : IJob :=
  { job with status := .dead, version := version + 1 }

def markDead (jobs : Jobs) (jobId : String) (version : Nat) : Option IJob × Jobs :=
  jobs.findOneAndUpdate jobId (versionIs version) (dead version) (fun _ => rfl)

/-- `{ status: "pending" }` -/
def isPending (job : IJob) : Bool := job.status = .pending

def cancelled (job : IJob) : IJob := { job with status := .dead }

def cancelJob (jobs : Jobs) (jobId : String) : Option IJob × Jobs :=
  jobs.findOneAndUpdate jobId isPending cancelled (fun _ => rfl)

/-- `{ status: "running", startedAt: { $lt: cutoff } }`: an absent field is not
below the cutoff. -/
def stale (cutoff : Int) (job : IJob) : Bool :=
  job.status = .running && job.startedAt.any (· < cutoff)

def reset (job : IJob) : IJob := { job with status := .pending, startedAt := none }

def resetStaleJobs (jobs : Jobs) (cutoff : Int) : Nat × Jobs :=
  jobs.updateMany (stale cutoff) reset (fun _ => rfl)

def findByJobId (jobs : Jobs) (jobId : String) : Option IJob := jobs.lookup jobId

/-- The TTL monitor removes documents whose `expiresAt` has passed. -/
def expire (jobs : Jobs) (now : Int) : Jobs :=
  jobs.deleteMany fun job => job.expiresAt.any (· ≤ now)

end JobRepository

/-- The write calls of the repository with every value that they send. -/
inductive JobWrite where
  | createJob (input : EnqueueJobInput)
  | claimJob (jobId : String) (version : Nat) (now : Int)
  | markCompleted (jobId : String) (version : Nat) (completedAt now : Int)
  | markFailed (jobId : String) (version : Nat) (error : Text) (nextRunAt now : Int)
  | markDead (jobId : String) (version : Nat)
  | cancelJob (jobId : String)
  | resetStaleJobs (cutoff : Int)

namespace JobWrite

open JobRepository

abbrev Reply : JobWrite → Type
  | .createJob _ => IJob
  | .resetStaleJobs _ => Nat
  | _ => Option IJob

def run : (write : JobWrite) → Jobs → write.Reply × Jobs
  | .createJob input, jobs => JobRepository.createJob jobs input
  | .claimJob jobId version now, jobs => JobRepository.claimJob jobs jobId version now
  | .markCompleted jobId version completedAt now, jobs =>
    JobRepository.markCompleted jobs jobId version completedAt now
  | .markFailed jobId version error nextRunAt now, jobs =>
    JobRepository.markFailed jobs jobId version error nextRunAt now
  | .markDead jobId version, jobs => JobRepository.markDead jobs jobId version
  | .cancelJob jobId, jobs => JobRepository.cancelJob jobs jobId
  | .resetStaleJobs cutoff, jobs => JobRepository.resetStaleJobs jobs cutoff

def selects : JobWrite → IJob → Bool
  | .createJob _, _ => false
  | .claimJob jobId version _, job => job.jobId = jobId && claimable version job
  | .markCompleted jobId version _ _, job => job.jobId = jobId && runningAt version job
  | .markFailed jobId version _ _ _, job => job.jobId = jobId && runningAt version job
  | .markDead jobId version, job => job.jobId = jobId && versionIs version job
  | .cancelJob jobId, job => job.jobId = jobId && isPending job
  | .resetStaleJobs cutoff, job => stale cutoff job

def change : JobWrite → IJob → IJob
  | .createJob _, job => job
  | .claimJob _ version now, job => claimed version now job
  | .markCompleted _ version completedAt now, job => completed version completedAt now job
  | .markFailed _ version error nextRunAt now, job => failed version error nextRunAt now job
  | .markDead _ version, job => dead version job
  | .cancelJob _, job => cancelled job
  | .resetStaleJobs _, job => reset job

def update (write : JobWrite) (jobId : String) : Option IJob → Option IJob
  | some job => some (if write.selects job then write.change job else job)
  | none =>
    match write with
    | .createJob input => if input.jobId = jobId then some (inserted input) else none
    | _ => none

private theorem lookup_update {jobs : Jobs} {jobId other : String} {guard : IJob → Bool}
    {change : IJob → IJob} (keeps : ∀ job, (change job).jobId = job.jobId) :
    (jobs.findOneAndUpdate jobId guard change keeps).2.lookup other =
      (jobs.lookup other).map fun job =>
        if (job.jobId = jobId && guard job) = true then change job else job := by
  rw [Collection.lookup_findOneAndUpdate]
  cases found : jobs.lookup other with
  | none =>
    split
    · subst other; simp [found]
    · rfl
  | some job =>
    have same := Collection.lookup_key found
    subst same
    by_cases target : job.jobId = jobId
    · subst jobId; simp [found]
    · simp [target]

theorem lookup_run (write : JobWrite) (jobs : Jobs) (jobId : String) :
    (write.run jobs).2.lookup jobId = write.update jobId (jobs.lookup jobId) := by
  cases write with
  | createJob input =>
    simp only [run,JobRepository.createJob,Collection.lookup_upsert,Collection.upsert_fst]
    cases found : jobs.lookup jobId with
    | none =>
      by_cases same : jobId = input.jobId
      · subst same; simp [update,inserted,found]
      · simp [update,inserted,same,Ne.symm same]
    | some job =>
      by_cases same : jobId = input.jobId
      · subst same; simp [update,selects,inserted,found]
      · simp [update,selects,inserted,same]
  | resetStaleJobs cutoff =>
    apply (Collection.lookup_updateMany (stale cutoff) reset (fun _ => rfl) jobId).trans
    cases jobs.lookup jobId <;> rfl
  | claimJob _ _ _ | markCompleted _ _ _ _ | markFailed _ _ _ _ _ | markDead _ _ | cancelJob _ =>
    refine (lookup_update ?_).trans ?_
    · exact fun _ => rfl
    · cases jobs.lookup jobId <;> rfl

/-- The id that a single-document write addresses. -/
def target : JobWrite → Option String
  | .createJob _ | .resetStaleJobs _ => none
  | .claimJob jobId _ _ | .markCompleted jobId _ _ _ | .markFailed jobId _ _ _ _
  | .markDead jobId _ | .cancelJob jobId => some jobId

end JobWrite

end JobScheduler
