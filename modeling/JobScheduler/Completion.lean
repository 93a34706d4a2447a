import JobScheduler.RetryOutcome

/-! What becomes of a job whose handler resolves. The claim has stored the version that the
executor read plus one, and `markCompleted` is given that version plus one: it matches no
document, and the job stays as its claim stored it. -/
namespace JobScheduler

open JobRepository

/-- An execute call made with the stored document of a pending job, whose handler is
registered and resolves, with every external call succeeding. -/
structure ResolvedAttempt (handlers : JobType → Bool) (world : World) (job : IJob)
    (oracles : Nat → Oracle) : Prop where
  found : world.jobs.lookup job.jobId = some job
  pending : job.status = .pending
  registered : handlers job.jobType = true
  succeed : ∀ n, (oracles n).delivery = .performed ∧ (oracles n).publish = none
  resolves : ∀ n, (oracles n).handler = none

/-- The job is stored as completed, one attempt and two versions on. -/
def Completes (job : IJob) (w : World) : Prop :=
  ∃ stored, w.jobs.lookup job.jobId = some stored ∧ stored.status = .completed ∧
    stored.completedAt.isSome = true ∧ stored.attempts = job.attempts + 1 ∧
    stored.version = job.version + 2

theorem runClaimed_registered {handlers : JobType → Bool} {claimed : IJob}
    (registered : handlers claimed.jobType = true) (instanceId : String) :
    JobExecutor.runClaimed handlers instanceId claimed =
      JobExecutor.runClaimed bootstrapHandlers instanceId claimed := by
  simp [JobExecutor.runClaimed,JobExecutor.attempt,registered,bootstrapHandlers]

theorem resolved_owned {handlers : JobType → Bool} {world : World} {job : IJob}
    {oracles : Nat → Oracle} (resolved : ResolvedAttempt handlers world job oracles)
    (instanceId : String) :
    ∃ phase, Owned (claimed job.version (oracles 0).clock job) phase (Program.eval perform
      (JobExecutor.execute handlers instanceId job) oracles world).world := by
  have performed : (oracles 1).delivery = .performed := (resolved.succeed 1).1
  have fresh : claimable job.version job = true := by simp [claimable,resolved.pending]
  have registered : handlers (claimed job.version (oracles 0).clock job).jobType = true :=
    resolved.registered
  rw [execute_won performed resolved.found fresh,runClaimed_registered registered]
  exact owned_run (claim_owned performed resolved.found fresh)

/-- A job whose handler resolves is never completed. -/
theorem never_completes {handlers : JobType → Bool} {world : World} {job : IJob}
    {oracles : Nat → Oracle} (resolved : ResolvedAttempt handlers world job oracles)
    (instanceId : String) : ¬ Completes job (Program.eval perform
      (JobExecutor.execute handlers instanceId job) oracles world).world := by
  obtain ⟨phase,_,running⟩ := resolved_owned resolved instanceId
  rintro ⟨stored,found,completed,_⟩
  have same : (claimed job.version (oracles 0).clock job).jobId = job.jobId := rfl
  rw [same,found] at running
  obtain rfl := Option.some.inj running
  cases completed

def reportStored : World := { World.empty with jobs := ⟨[dequeuedReport],List.nodup_singleton _⟩ }

theorem resolvedReport :
    ResolvedAttempt bootstrapHandlers reportStored dequeuedReport fun n => calm n where
  found := by rfl
  pending := rfl
  registered := rfl
  succeed _ := ⟨rfl,rfl⟩
  resolves _ := rfl

theorem report_never_completes : ¬ Completes dequeuedReport (Program.eval perform
    (JobExecutor.execute bootstrapHandlers "a" dequeuedReport) (fun n => calm n) reportStored).world :=
  never_completes resolvedReport "a"

/-- The report is claimed to be completed, and it stays running. -/
theorem report_not_completed :
    ¬ ∀ handlers world job oracles instanceId, ResolvedAttempt handlers world job oracles →
      Completes job (Program.eval perform
        (JobExecutor.execute handlers instanceId job) oracles world).world := by
  intro completes
  obtain ⟨stored,found,completed,_⟩ := completes _ _ _ _ "a" resolvedReport
  obtain ⟨phase,_,running⟩ := resolved_owned resolvedReport "a"
  obtain rfl := Option.some.inj (running.symm.trans found)
  cases completed

end JobScheduler
