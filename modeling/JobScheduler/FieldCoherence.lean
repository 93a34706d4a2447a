import JobScheduler.Cancellation

/-! The fields of a job document and its status. Each write of the repository sets and
clears what the status it writes needs, except that `markDead` takes over the expiry of a
document that has one. -/
namespace JobScheduler

open JobRepository

/-- The fields that go with each status. -/
structure IJob.Coherent (job : IJob) : Prop where
  pending : job.status = .pending → job.startedAt = none ∧ job.expiresAt = none
  running : job.status = .running → job.startedAt.isSome = true ∧ job.lastAttemptAt.isSome = true ∧
    1 ≤ job.attempts ∧ job.expiresAt = none
  completed : job.status = .completed → job.completedAt.isSome = true ∧
    job.startedAt.isSome = true ∧ job.expiresAt.isSome = true
  failed : job.status = .failed → job.expiresAt.isSome = true ∧
    ∃ error, job.lastError = some error ∧ error.length ≤ 2000
  counted : job.attempts ≤ job.version

/-- From some time on `resetStaleJobs` selects the document. -/
def IJob.Recoverable (job : IJob) : Prop :=
  ∀ ageMs : Nat, ∃ due : Int, ∀ now, due ≤ now → stale (now - ageMs) job = true

theorem inserted_coherent (input : EnqueueJobInput) : (inserted input).Coherent where
  pending _ := ⟨rfl,rfl⟩
  running := nofun
  completed := nofun
  failed := nofun
  counted := Nat.le_refl 0

section Writes

variable {job : IJob} (coherent : job.Coherent)

include coherent

theorem claimed_coherent (version : Nat) (now : Int) (claimable : claimable version job = true) :
    (claimed version now job).Coherent := by
  simp only [JobRepository.claimable,Bool.and_eq_true,decide_eq_true_eq] at claimable
  obtain ⟨pending,rfl⟩ := claimable
  have counted := coherent.counted
  constructor
  case running => exact fun _ => ⟨rfl,rfl,Nat.le_add_left 1 job.attempts,(coherent.pending pending).2⟩
  case counted => exact Nat.succ_le_succ counted
  all_goals
    intro other
    cases other

theorem completed_coherent (version : Nat) (completedAt now : Int)
    (runs : runningAt version job = true) : (completed version completedAt now job).Coherent := by
  simp only [runningAt,Bool.and_eq_true,decide_eq_true_eq] at runs
  obtain ⟨running,rfl⟩ := runs
  have counted := coherent.counted
  constructor
  case completed => exact fun _ => ⟨rfl,(coherent.running running).1,rfl⟩
  case counted => exact Nat.le_succ_of_le counted
  all_goals
    intro other
    cases other

theorem failed_coherent (version : Nat) (error : Text) (nextRunAt now : Int)
    (runs : runningAt version job = true) : (failed version error nextRunAt now job).Coherent := by
  simp only [runningAt,Bool.and_eq_true,decide_eq_true_eq] at runs
  obtain ⟨_,rfl⟩ := runs
  have counted := coherent.counted
  constructor
  case failed => exact fun _ => ⟨rfl,error.take 2000,rfl,List.length_take_le 2000 error⟩
  case counted => exact Nat.le_succ_of_le counted
  all_goals
    intro other
    cases other

theorem reset_coherent (running : job.status = .running) : (reset job).Coherent :=
  ⟨fun _ => ⟨rfl,(coherent.running running).2.2.2⟩,nofun,nofun,nofun,coherent.counted⟩

theorem coherent_of_dead {after : IJob} (dead : after.status = .dead)
    (attempts : after.attempts = job.attempts) (version : job.version ≤ after.version) :
    after.Coherent := by
  constructor
  case counted =>
    rw [attempts]
    exact coherent.counted.trans version
  all_goals
    intro status
    cases dead.symm.trans status

theorem change_coherent {write : JobWrite} (selected : write.selects job = true) :
    (write.change job).Coherent := by
  cases write with
  | createJob input => exact coherent
  | claimJob jobId version now =>
    exact claimed_coherent coherent version now (Bool.and_eq_true_iff.mp selected).2
  | markCompleted jobId version completedAt now =>
    exact completed_coherent coherent version completedAt now (Bool.and_eq_true_iff.mp selected).2
  | markFailed jobId version error nextRunAt now =>
    exact failed_coherent coherent version error nextRunAt now (Bool.and_eq_true_iff.mp selected).2
  | markDead jobId version =>
    have same : job.version = version := of_decide_eq_true (Bool.and_eq_true_iff.mp selected).2
    exact coherent_of_dead coherent rfl rfl (same ▸ Nat.le_succ _)
  | cancelJob jobId => exact coherent_of_dead coherent rfl rfl (Nat.le_refl _)
  | resetStaleJobs cutoff =>
    exact reset_coherent coherent (of_decide_eq_true (Bool.and_eq_true_iff.mp selected).1)

omit coherent in
theorem IJob.Coherent.recoverable (coherent : job.Coherent) (running : job.status = .running) :
    job.Recoverable := by
  intro ageMs
  obtain ⟨startedAt,started⟩ := Option.isSome_iff_exists.mp (coherent.running running).1
  refine ⟨startedAt + ageMs + 1,fun now late => ?_⟩
  have passed : startedAt < now - ageMs := by omega
  simp [stale,running,started,passed]

end Writes

variable {s : RepositoryState} {label : RepositoryLabel} {labels : List RepositoryLabel}

theorem moves_coherent {jobId : String} {write : Option JobWrite} {due : IJob → Bool}
    {before after : Option IJob} (moves : DocumentMoves jobId write due before after)
    (coherent : ∀ job ∈ before, job.Coherent) : ∀ job ∈ after, job.Coherent := by
  cases moves with
  | kept => exact coherent
  | created input is same => rintro _ ⟨⟩; exact inserted_coherent input
  | changed w stored is selected => rintro _ ⟨⟩; exact change_coherent (coherent stored rfl) selected
  | expired => rintro _ ⟨⟩

def FieldsCohere (s : RepositoryState) : Prop :=
  ∀ jobId, ∀ job ∈ s.world.jobs.lookup jobId, job.Coherent

theorem fieldsCohere_start : FieldsCohere Repository.start := by rintro jobId _ ⟨⟩

theorem fieldsCohere_step (s : RepositoryState) (label : RepositoryLabel) (cohere : FieldsCohere s) :
    FieldsCohere (Repository.machine.step s label) := fun jobId =>
  moves_coherent (Repository.document_moves s label jobId) (cohere jobId)

/-- In every state that the repository can reach, each document has the fields that its
status needs, and a running one will be selected by a stale reset. -/
theorem lifecycle_fields (labels : List RepositoryLabel) (t : RepositoryState)
    (reached : Repository.machine.Reached Repository.start labels t) :
    ∀ job ∈ t.world.jobs.docs, job.Coherent ∧ (job.status = .running → job.Recoverable) := by
  have cohere : FieldsCohere t :=
    Machine.always_reached FieldsCohere fieldsCohere_step fieldsCohere_start reached
  intro job member
  have own := cohere job.jobId job (Collection.lookup_of_mem member)
  exact ⟨own,own.recoverable⟩

def claimedReport : List RepositoryLabel :=
  alone 0 1 (.createJob reportInput) ++ alone 1 2 (.claimJob reportId 0)

theorem lifecycle_fields_claimed :
    (Repository.machine.run Repository.start claimedReport).world.jobs.docs.length = 1 ∧
      ∀ job ∈ (Repository.machine.run Repository.start claimedReport).world.jobs.docs,
        job.Coherent ∧ (job.status = .running → job.Recoverable) :=
  ⟨by decide +kernel,lifecycle_fields claimedReport _ ⟨claimedReport,List.prefix_rfl,rfl⟩⟩

/-- A `markDead` takes effect on a document that carries an expiry. -/
def killsExpiring (s : RepositoryState) (label : RepositoryLabel) : Bool :=
  match written s label with
  | some (.markDead jobId version) => (s.world.jobs.lookup jobId).any fun job =>
      versionIs version job && job.expiresAt.isSome
  | _ => false

def DeadEternal (s : RepositoryState) : Prop :=
  ∀ jobId, ∀ job ∈ s.world.jobs.lookup jobId, job.status = .dead → job.expiresAt = none

theorem deadEternal_start : DeadEternal Repository.start := by rintro jobId _ ⟨⟩

/-- Along the run no dead document has an expiry, and the TTL monitor deletes none. -/
structure DeadKept (s : RepositoryState) (labels : List RepositoryLabel) : Prop where
  eternal : ∀ t, Repository.machine.Reached s labels t → DeadEternal t
  undeleted : Repository.machine.Along (fun s label => ∀ jobId, ∀ job ∈ s.world.jobs.lookup jobId,
    job.status = .dead → deletes jobId s label = false) s labels

theorem change_eternal {write : JobWrite} {job : IJob} (coherent : job.Coherent)
    (eternal : job.status = .dead → job.expiresAt = none) (selected : write.selects job = true)
    (spared : ∀ jobId version, write = .markDead jobId version → job.expiresAt = none)
    (dead : (write.change job).status = .dead) : (write.change job).expiresAt = none := by
  cases write with
  | createJob input => exact eternal dead
  | markDead jobId version => exact spared jobId version rfl
  | cancelJob jobId =>
    have pending : job.status = .pending := of_decide_eq_true (Bool.and_eq_true_iff.mp selected).2
    exact (coherent.pending pending).2
  | _ => cases dead

theorem deadEternal_step (cohere : FieldsCohere s) (eternal : DeadEternal s) :
    DeadEternal (Repository.machine.step s label) ↔ killsExpiring s label = false := by
  constructor
  · intro later
    rw [Bool.eq_false_iff]
    intro kills
    unfold killsExpiring at kills
    split at kills
    · rename_i jobId version writes
      obtain ⟨job,stored,hit⟩ := (Option.any_eq_true ..).mp kills
      obtain ⟨matched,expires⟩ := Bool.and_eq_true_iff.mp hit
      have key : job.jobId = jobId := Collection.lookup_key stored
      have selected : (JobWrite.markDead jobId version).selects job = true := by
        simp [JobWrite.selects,key,matched]
      have none := later jobId _ (Repository.effect_step writes stored selected) rfl
      have same : job.expiresAt = Option.none := none
      rw [same] at expires
      cases expires
    · cases kills
  · intro spared jobId after later dead
    have moves := Repository.document_moves s label jobId
    generalize before : s.world.jobs.lookup jobId = stored at moves
    rw [later] at moves
    cases moves with
    | kept => exact eternal jobId after before dead
    | created input is same => cases dead
    | changed write old is selected =>
      refine change_eternal (cohere jobId old before) (eternal jobId old before) selected ?_ dead
      rintro target version rfl
      have hit : old.jobId = target ∧ versionIs version old = true := by
        simpa [JobWrite.selects] using selected
      have key : old.jobId = jobId := Collection.lookup_key before
      obtain rfl : jobId = target := key.symm.trans hit.1
      cases expires : old.expiresAt with
      | none => rfl
      | some expiresAt => simp [killsExpiring,is,before,hit.2,expires] at spared

theorem deadEternal_undeleted (eternal : DeadEternal s) (label : RepositoryLabel) {jobId : String}
    {job : IJob} (stored : s.world.jobs.lookup jobId = some job) (dead : job.status = .dead) :
    deletes jobId s label = false := by
  simp [deletes,stored,outlives_none (eternal jobId job stored dead)]

theorem deadKept_run (cohere : FieldsCohere s) (eternal : DeadEternal s) : DeadKept s labels ↔
    Repository.machine.Along (fun s label => killsExpiring s label = false) s labels := by
  have admitted : ∀ label ∈ labels, True := fun _ _ => trivial
  have always : (∀ t, Repository.machine.Reached s labels t → DeadEternal t) ↔
      Repository.machine.Along (fun s label => killsExpiring s label = false) s labels := by
    refine Machine.reached_iff_along (fun s => FieldsCohere s ∧ DeadEternal s)
      (fun s coherent => coherent.2) ?_ ?_ admitted ⟨cohere,eternal⟩
    · exact fun s label _ coherent later => (deadEternal_step coherent.1 coherent.2).mp later
    · exact fun s label _ coherent spared => ⟨fieldsCohere_step s label coherent.1,
        (deadEternal_step coherent.1 coherent.2).mpr spared⟩
  constructor
  · exact fun kept => always.mp kept.eternal
  · intro spared
    have eternal := always.mpr spared
    refine ⟨eternal,Machine.along_of_reached eternal fun t label stays => ?_⟩
    exact fun jobId job stored dead => deadEternal_undeleted stays label stored dead

/-- Dead documents stay without expiry exactly as long as no `markDead` takes effect on a
document that has one. -/
theorem dead_never_expires (labels : List RepositoryLabel) : DeadKept Repository.start labels ↔
    Repository.machine.Along (fun s label => killsExpiring s label = false) Repository.start labels :=
  deadKept_run fieldsCohere_start deadEternal_start

/-- A report fails, which sets its expiry, and then a `markDead` presents its version. -/
theorem failed_job_expires : ¬ ∀ labels, DeadKept Repository.start labels := by
  intro kept
  have spared := (deadKept_run fieldsCohere_start deadEternal_start).mp (kept (claimedReport ++
    alone 2 2 (.markFailed reportId 1 (text "timeout") 1000) ++ alone 3 1 (.markDead reportId 2)))
  exact absurd spared (by decide +kernel)

end JobScheduler
