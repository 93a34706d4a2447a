import JobScheduler.Fencing

/-! What becomes of a job whose handler rejects with attempts left. The failed write
carries a version that no document has and the reschedule updates a member that the
dequeue removed, so the job neither becomes claimable nor returns to its queue. -/
namespace JobScheduler

open ExecutePhase JobRepository

/-- The stored document is claimable, due after the failure, and queued for then. -/
def WillRunAgain (jobId : String) (failedAt : Int) (w : World) : Prop :=
  ∃ stored, w.jobs.lookup jobId = some stored ∧ claimable stored.version stored = true ∧
    failedAt < stored.nextRunAt ∧
    (w.sortedSets (queueKeyMap stored.jobType)).score? jobId = some stored.nextRunAt

/-- The attempt of a dequeued job whose handler rejects although attempts are left,
with every external call succeeding. -/
structure RejectedAttempt (world : World) (job stored : IJob) (oracles : Nat → Oracle) : Prop where
  found : world.jobs.lookup job.jobId = some stored
  fresh : claimable job.version stored = true
  left : stored.attempts + 1 < stored.maxAttempts
  dequeued : job.jobId ∉ (world.sortedSets (queueKeyMap stored.jobType)).members
  succeed : ∀ n, (oracles n).delivery = .performed ∧ (oracles n).publish = none
  rejects : ∀ n, (oracles n).handler.isSome

/-- The catch block reads the clock right after claim, publish, heartbeat and handler. -/
def failureTime (oracles : Nat → Oracle) : Int := (oracles 9).clock

def Owned (own : IJob) (phase : ExecutePhase) (w : World) : Prop :=
  phase.job? = some own ∧ w.jobs.lookup own.jobId = some own

theorem owned_step {own : IJob} {phase : ExecutePhase} {op : Op} {ω : Oracle} {w : World}
    (may : allowed phase op) (owned : Owned own phase w) :
    Owned own (next phase op (perform op ω w).1) (perform op ω w).2 := by
  obtain ⟨job,stored⟩ := owned
  refine ⟨next_job op _ job,?_⟩
  rw [perform_lookup,stored]
  cases op with
  | job write => simp [Op.update,JobWrite.update,own_unselected may job]
  | _ => rfl

theorem owned_run {own : IJob} {instanceId : String} {oracles : Nat → Oracle} {w : World}
    (owned : Owned own (.claimed own) w) :
    ∃ phase, Owned own phase (Program.eval perform
      (JobExecutor.runClaimed bootstrapHandlers instanceId own) oracles w).world := by
  obtain ⟨phase,last,_⟩ := Program.eval_wp perform (Owned own) (fun _ => True)
    (fun phase op ω w may owned _ => ⟨trivial,owned_step may owned⟩)
    (meets_runClaimed instanceId own) owned fun _ => trivial
  exact ⟨phase,last⟩

def Stuck (own : IJob) (phase : ExecutePhase) (w : World) : Prop :=
  phase.job? = some own ∧ w.jobs.lookup own.jobId = some own ∧
    own.jobId ∉ (w.sortedSets (queueKeyMap own.jobType)).members

theorem stuck_step {own : IJob} {phase : ExecutePhase} {op : Op} {ω : Oracle} {w : World}
    (may : allowed phase op) (stuck : Stuck own phase w) :
    Stuck own (next phase op (perform op ω w).1) (perform op ω w).2 := by
  obtain ⟨job,stored,absent⟩ := stuck
  obtain ⟨still,kept⟩ := owned_step (ω := ω) may ⟨job,stored⟩
  refine ⟨still,kept,?_⟩
  rw [perform_sortedSets]
  intro member
  rcases requeue_members member with before | ⟨score,rfl⟩
  · exact absent before
  · cases phase with
    | idle => cases job
    | _ => exact False.elim may

theorem stuck_run {own : IJob} {instanceId : String} {oracles : Nat → Oracle} {w : World}
    (stuck : Stuck own (.claimed own) w) :
    ∃ phase, Stuck own phase (Program.eval perform
      (JobExecutor.runClaimed bootstrapHandlers instanceId own) oracles w).world := by
  obtain ⟨phase,last,_⟩ := Program.eval_wp perform (Stuck own) (fun _ => True)
    (fun phase op ω w may stuck _ => ⟨trivial,stuck_step may stuck⟩)
    (meets_runClaimed instanceId own) stuck fun _ => trivial
  exact ⟨phase,last⟩

section Won

variable {world : World} {job stored : IJob} {oracles : Nat → Oracle}
variable (performed : (oracles 1).delivery = .performed)
variable (found : world.jobs.lookup job.jobId = some stored)
variable (fresh : claimable job.version stored = true)

include performed found fresh

theorem execute_won (handlers : JobType → Bool) (instanceId : String) :
    Program.eval perform (JobExecutor.execute handlers instanceId job) oracles world =
      Program.eval perform
        (JobExecutor.runClaimed handlers instanceId (claimed job.version (oracles 0).clock stored))
        (fun n => oracles (n + 2))
        (perform (.job (.claimJob job.jobId job.version (oracles 0).clock)) (oracles 1) world).2 := by
  have won := claimJob_wins (oracles 0).clock performed found fresh
  have called : Program.eval perform (claimJobCall job.jobId job.version) oracles world =
      ⟨(perform (.job (.claimJob job.jobId job.version (oracles 0).clock)) (oracles 1) world).1,
        fun n => oracles (n + 2),
        (perform (.job (.claimJob job.jobId job.version (oracles 0).clock)) (oracles 1)
          world).2⟩ := rfl
  rw [JobExecutor.execute,Program.eval_bind,called,won]
  rfl

theorem claim_owned :
    Owned (claimed job.version (oracles 0).clock stored)
      (.claimed (claimed job.version (oracles 0).clock stored))
      (perform (.job (.claimJob job.jobId job.version (oracles 0).clock)) (oracles 1) world).2 := by
  have key : stored.jobId = job.jobId := Collection.lookup_key found
  have selected : (JobWrite.claimJob job.jobId job.version (oracles 0).clock).selects stored =
      true := by simp [JobWrite.selects,key,fresh]
  refine ⟨rfl,?_⟩
  rw [perform_lookup]
  change Op.update _ _ stored.jobId (world.jobs.lookup stored.jobId) = _
  rw [key,found]
  simp [Op.update,performed,Delivery.applies,JobWrite.update,selected,JobWrite.change]

end Won

/-- The attempt leaves the document as its claim stored it, out of its queue. -/
theorem rejected_stuck {world : World} {job stored : IJob} {oracles : Nat → Oracle}
    (rejected : RejectedAttempt world job stored oracles) (instanceId : String) :
    ∃ phase, Stuck (claimed job.version (oracles 0).clock stored) phase (Program.eval perform
      (JobExecutor.execute bootstrapHandlers instanceId job) oracles world).world := by
  have performed : (oracles 1).delivery = .performed := (rejected.succeed 1).1
  have key : stored.jobId = job.jobId := Collection.lookup_key rejected.found
  rw [execute_won performed rejected.found rejected.fresh]
  refine stuck_run ⟨rfl,(claim_owned performed rejected.found rejected.fresh).2,?_⟩
  rw [perform_sortedSets]
  change stored.jobId ∉ (world.sortedSets (queueKeyMap stored.jobType)).members
  rw [key]
  exact rejected.dequeued

/-- A rejected job with attempts left never runs again. -/
theorem never_runs_again {world : World} {job stored : IJob} {oracles : Nat → Oracle}
    (rejected : RejectedAttempt world job stored oracles) (instanceId : String) :
    ¬ WillRunAgain job.jobId (failureTime oracles) (Program.eval perform
      (JobExecutor.execute bootstrapHandlers instanceId job) oracles world).world := by
  obtain ⟨phase,_,running,absent⟩ := rejected_stuck rejected instanceId
  have key : stored.jobId = job.jobId := Collection.lookup_key rejected.found
  rintro ⟨last,found,claimable,_,_⟩
  have same : (JobRepository.claimed job.version (oracles 0).clock stored).jobId = job.jobId := key
  rw [same,found] at running
  obtain rfl := Option.some.inj running
  simp [JobRepository.claimable,JobRepository.claimed] at claimable

def dequeuedReport : IJob :=
  inserted {
    jobId := reportId
    jobType := .scheduledReport
    tenantId := "tenant"
    scheduledAt := 0
    nextRunAt := 0
    priority := .three
    maxAttempts := 3
    cronExpression := none
    payload := reportRequest.payload }

def rejecting (n : Nat) : Oracle :=
  { calm n with handler := some (.error (text "report service unavailable") none) }

theorem rejectedReport : RejectedAttempt
    { World.empty with jobs := ⟨[dequeuedReport],List.nodup_singleton _⟩ }
    dequeuedReport dequeuedReport rejecting where
  found := by rfl
  fresh := by decide
  left := by decide
  dequeued := List.not_mem_nil
  succeed _ := ⟨rfl,rfl⟩
  rejects _ := rfl

theorem report_never_runs_again :
    ¬ WillRunAgain reportId (failureTime rejecting) (Program.eval perform
      (JobExecutor.execute bootstrapHandlers "a" dequeuedReport) rejecting
      { World.empty with jobs := ⟨[dequeuedReport],List.nodup_singleton _⟩ }).world :=
  never_runs_again rejectedReport "a"

/-- The retry is claimed to happen, and it does not. -/
theorem report_not_retried :
    ¬ ∀ world job stored oracles instanceId, RejectedAttempt world job stored oracles →
      WillRunAgain job.jobId (failureTime oracles) (Program.eval perform
        (JobExecutor.execute bootstrapHandlers instanceId job) oracles world).world := by
  intro retried
  obtain ⟨last,found,claimable,_⟩ := retried _ _ _ _ "a" rejectedReport
  obtain ⟨phase,_,running,_⟩ := rejected_stuck rejectedReport "a"
  obtain rfl := Option.some.inj (running.symm.trans found)
  exact absurd claimable (by decide)

end JobScheduler
