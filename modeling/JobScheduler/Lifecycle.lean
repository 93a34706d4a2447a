import JobScheduler.DocumentHistory

/-! The lifecycle of a job document under arbitrary repository calls. Cancelled
documents carry no expiry and stay dead; completed ones stay completed as long as no
`markDead`, the one write without a condition on the status, presents their version. -/
namespace JobScheduler

open JobRepository

def JobStatus.leadsTo : JobStatus → JobStatus → Bool
  | .pending, .running | .pending, .dead => true
  | .running, .completed | .running, .failed | .running, .dead | .running, .pending => true
  | .failed, .dead => true
  | _, _ => false

/-- Terminal statuses stay, and all other changes are among those of the lifecycle. -/
structure Orderly (before after : IJob) : Prop where
  completed : before.status = .completed →
    after.status = .completed ∧ after.completedAt = before.completedAt
  dead : before.status = .dead → after.status = .dead
  moves : after.status ≠ before.status → before.status.leadsTo after.status = true

def Lifecycle (s : RepositoryState) (label : RepositoryLabel) : Prop :=
  ∀ jobId before after, s.world.jobs.lookup jobId = some before →
    (Repository.machine.step s label).world.jobs.lookup jobId = some after → Orderly before after

/-- A `markDead` takes effect on a completed document. -/
def killsCompleted (s : RepositoryState) (label : RepositoryLabel) : Bool :=
  match written s label with
  | some (.markDead jobId version) => (s.world.jobs.lookup jobId).any fun job =>
      versionIs version job && job.status = .completed
  | _ => false

theorem Orderly.refl (job : IJob) : Orderly job job where
  completed status := ⟨status,rfl⟩
  dead status := status
  moves changed := absurd rfl changed

variable {s : RepositoryState} {label : RepositoryLabel} {labels : List RepositoryLabel}
variable {jobId : String}

theorem Orderly.of_open {before after : IJob} (isOpen : before.status = .pending ∨ before.status = .running)
    (moves : before.status.leadsTo after.status = true) : Orderly before after where
  completed status := by rcases isOpen with is | is <;> rw [is] at status <;> cases status
  dead status := by rcases isOpen with is | is <;> rw [is] at status <;> cases status
  moves _ := moves

/-- All writes but `markDead` select open documents only. -/
theorem guarded_change {write : JobWrite} {job : IJob} (selected : write.selects job = true)
    (guarded : ∀ target version, write ≠ .markDead target version) :
    (job.status = .pending ∨ job.status = .running) ∧
      job.status.leadsTo (write.change job).status = true := by
  cases write with
  | createJob input => cases selected
  | markDead target version => exact absurd rfl (guarded target version)
  | claimJob target version now =>
    have pending : job.status = .pending := by
      simp only [JobWrite.selects,claimable,Bool.and_eq_true,decide_eq_true_eq] at selected
      exact selected.2.1
    exact ⟨.inl pending,by rw [pending]; rfl⟩
  | cancelJob target =>
    have pending : job.status = .pending := by
      simp only [JobWrite.selects,isPending,Bool.and_eq_true,decide_eq_true_eq] at selected
      exact selected.2
    exact ⟨.inl pending,by rw [pending]; rfl⟩
  | markCompleted _ version _ _ | markFailed _ version _ _ _ =>
    have running : job.status = .running := by
      simp only [JobWrite.selects,runningAt,Bool.and_eq_true,decide_eq_true_eq] at selected
      exact selected.2.1
    exact ⟨.inr running,by rw [running]; rfl⟩
  | resetStaleJobs cutoff =>
    have running : job.status = .running := by
      simp only [JobWrite.selects,stale,Bool.and_eq_true,decide_eq_true_eq] at selected
      exact selected.1
    exact ⟨.inr running,by rw [running]; rfl⟩

theorem dead_orderly (version : Nat) (job : IJob) :
    Orderly job (JobRepository.dead version job) ↔ job.status ≠ .completed := by
  constructor
  · intro orderly completed
    have kept := (orderly.completed completed).1
    cases kept
  · intro spared
    refine ⟨fun completed => absurd completed spared,fun _ => rfl,?_⟩
    intro changed
    cases status : job.status with
    | completed => exact absurd status spared
    | dead => rw [status] at changed; exact absurd rfl changed
    | _ => rfl

theorem lifecycle_iff : Lifecycle s label ↔ killsCompleted s label = false := by
  constructor
  · intro lifecycle
    rw [Bool.eq_false_iff]
    intro kills
    unfold killsCompleted at kills
    split at kills
    · rename_i jobId version writes
      obtain ⟨job,stored,hit⟩ := (Option.any_eq_true ..).mp kills
      obtain ⟨matched,completed⟩ : versionIs version job = true ∧ job.status = .completed := by
        simpa using hit
      have key : job.jobId = jobId := Collection.lookup_key stored
      have selected : (JobWrite.markDead jobId version).selects job = true := by
        simp [JobWrite.selects,key,matched]
      have later := Repository.effect_step writes stored selected
      exact (dead_orderly version job).mp (lifecycle jobId job _ stored later) completed
    · cases kills
  · intro spared jobId before after stored later
    have moves := Repository.document_moves s label jobId
    rw [stored,later] at moves
    cases moves with
    | kept => exact .refl before
    | changed write _ is selected =>
      by_cases kills : ∃ target version, write = .markDead target version
      · obtain ⟨target,version,rfl⟩ := kills
        have hit : before.jobId = target ∧ versionIs version before = true := by
          simpa [JobWrite.selects] using selected
        have key : before.jobId = jobId := Collection.lookup_key stored
        refine (dead_orderly version before).mpr fun completed => ?_
        obtain rfl : jobId = target := key.symm.trans hit.1
        simp [killsCompleted,is,stored,hit.2,completed] at spared
      · have guarded := guarded_change selected fun target version is => kills ⟨target,version,is⟩
        exact .of_open guarded.1 guarded.2

theorem lifecycle_run : Repository.machine.Along Lifecycle s labels ↔
    Repository.machine.Along (fun s label => killsCompleted s label = false) s labels :=
  Machine.along_congr (fun _ => True) (fun _ _ _ => trivial) (fun _ _ _ => lifecycle_iff) trivial

/-- Every document keeps to the lifecycle along a run exactly when no `markDead` takes
effect on a completed document. -/
theorem terminal_absorbing (world : World) (labels : List RepositoryLabel) :
    Repository.machine.Along Lifecycle ⟨world,[]⟩ labels ↔
      Repository.machine.Along (fun s label => killsCompleted s label = false) ⟨world,[]⟩ labels :=
  lifecycle_run

/-- A report is claimed and completed, and then a `markDead` presents its version. -/
theorem completed_job_dies :
    ¬ ∀ labels, Repository.machine.Along Lifecycle Repository.start labels := by
  intro lifecycle
  have spared := lifecycle_run.mp (lifecycle (alone 0 1 (.createJob reportInput) ++
    alone 1 2 (.claimJob reportId 0) ++ alone 2 2 (.markCompleted reportId 1 0) ++
    alone 3 1 (.markDead reportId 2)))
  exact absurd spared (by decide +kernel)

end JobScheduler
