import JobScheduler.DocumentHistory

/-! The optimistic lock. Every guarded write that takes effect moves the version of the
document from the one it expects to the next, and nothing else moves it: the version
counts these writes, and no version is spent twice. -/
namespace JobScheduler

open JobRepository

/-- The id and the version that a guarded write expects. -/
def JobWrite.expects : JobWrite → Option (String × Nat)
  | .claimJob jobId version _ | .markCompleted jobId version _ _
  | .markFailed jobId version _ _ _ | .markDead jobId version => some (jobId,version)
  | _ => none

def JobWrite.document : (write : JobWrite) → write.Reply → Option IJob
  | .createJob _, job => some job
  | .resetStaleJobs _, _ => none
  | .claimJob _ _ _, found | .markCompleted _ _ _ _, found | .markFailed _ _ _ _ _, found
  | .markDead _ _, found | .cancelJob _, found => found

variable {s : RepositoryState} {label : RepositoryLabel} {labels : List RepositoryLabel}
variable {jobId : String}

def returnsDocument (jobId : String) (version : Nat) (s : RepositoryState) :
    RepositoryLabel → Bool
  | .resume index ω =>
    match s.awaits index with
    | some (.job write) => write.expects = some (jobId,version) &&
        match (perform (.job write) ω s.world).1 with
        | .ok reply => (write.document reply).isSome
        | .error _ => false
    | _ => false
  | _ => false

/-- A write that expects this version takes effect, whether or not its reply arrives. -/
def succeeds (jobId : String) (version : Nat) (s : RepositoryState) (label : RepositoryLabel) :
    Bool :=
  (written s label).any fun write => write.expects = some (jobId,version) &&
    (s.world.jobs.lookup jobId).any write.selects

/-- A guarded write takes effect on the document, whatever version it expects. -/
def advances (jobId : String) (s : RepositoryState) (label : RepositoryLabel) : Bool :=
  (written s label).any fun write => (write.expects.any fun expected => expected.1 = jobId) &&
    (s.world.jobs.lookup jobId).any write.selects

def versionAt (jobId : String) (w : World) : Nat := (w.jobs.lookup jobId).elim 0 IJob.version

theorem expects_selected {write : JobWrite} {job : IJob} {version : Nat}
    (expects : write.expects = some (jobId,version)) (selected : write.selects job = true) :
    job.jobId = jobId ∧ job.version = version ∧ (write.change job).version = version + 1 := by
  cases write with
  | createJob | cancelJob | resetStaleJobs => cases expects
  | claimJob target expected now =>
    obtain ⟨rfl,rfl⟩ := Prod.mk.inj (Option.some.inj expects)
    simp only [JobWrite.selects,claimable,Bool.and_eq_true,decide_eq_true_eq] at selected
    exact ⟨selected.1,selected.2.2,rfl⟩
  | markCompleted target expected _ _ | markFailed target expected _ _ _ =>
    obtain ⟨rfl,rfl⟩ := Prod.mk.inj (Option.some.inj expects)
    simp only [JobWrite.selects,runningAt,Bool.and_eq_true,decide_eq_true_eq] at selected
    exact ⟨selected.1,selected.2.2,rfl⟩
  | markDead target expected =>
    obtain ⟨rfl,rfl⟩ := Prod.mk.inj (Option.some.inj expects)
    simp only [JobWrite.selects,versionIs,Bool.and_eq_true,decide_eq_true_eq] at selected
    exact ⟨selected.1,selected.2,rfl⟩

/-- A document in the reply of a guarded write is one that the write selected. -/
theorem document_selects {write : JobWrite} {jobs : Jobs} {version : Nat}
    (expects : write.expects = some (jobId,version))
    (found : (write.document (write.run jobs).1).isSome = true) :
    (jobs.lookup jobId).any write.selects = true := by
  have matched : ∀ (guard : IJob → Bool) (change : IJob → IJob)
      (keeps : ∀ job, (change job).jobId = job.jobId),
      (jobs.findOneAndUpdate jobId guard change keeps).1.isSome = true →
        (jobs.lookup jobId).any (fun job => job.jobId = jobId && guard job) = true := by
    intro guard change keeps replied
    rw [Collection.findOneAndUpdate_fst,Option.isSome_map] at replied
    obtain ⟨job,passes⟩ := Option.isSome_iff_exists.mp replied
    obtain ⟨stored,passes⟩ := Option.filter_eq_some_iff.mp passes
    simp [stored,Collection.lookup_key stored,passes]
  cases write with
  | createJob | cancelJob | resetStaleJobs => cases expects
  | claimJob target expected now =>
    obtain ⟨rfl,rfl⟩ := Prod.mk.inj (Option.some.inj expects)
    exact matched (claimable expected) (claimed expected now) (fun _ => rfl) found
  | markCompleted target expected completedAt now =>
    obtain ⟨rfl,rfl⟩ := Prod.mk.inj (Option.some.inj expects)
    exact matched (runningAt expected) (completed expected completedAt now) (fun _ => rfl) found
  | markFailed target expected error nextRunAt now =>
    obtain ⟨rfl,rfl⟩ := Prod.mk.inj (Option.some.inj expects)
    exact matched (runningAt expected) (failed expected error nextRunAt now) (fun _ => rfl) found
  | markDead target expected =>
    obtain ⟨rfl,rfl⟩ := Prod.mk.inj (Option.some.inj expects)
    exact matched (versionIs expected) (dead expected) (fun _ => rfl) found

theorem unexpecting_keeps {write : JobWrite} (none : write.expects = none) (job : IJob) :
    (write.change job).version = job.version := by
  cases write with
  | createJob | cancelJob | resetStaleJobs => rfl
  | _ => cases none

theorem succeeds_step {version : Nat} (succeeded : succeeds jobId version s label = true) :
    versionAt jobId s.world = version ∧
      versionAt jobId (Repository.machine.step s label).world = version + 1 := by
  obtain ⟨write,writes,hit⟩ := (Option.any_eq_true ..).mp succeeded
  obtain ⟨expects,matched⟩ : write.expects = some (jobId,version) ∧
      (s.world.jobs.lookup jobId).any write.selects = true := by simpa using hit
  obtain ⟨job,stored,selected⟩ := (Option.any_eq_true ..).mp matched
  obtain ⟨_,before,after⟩ := expects_selected expects selected
  have later := Repository.effect_step writes stored selected
  simp [versionAt,stored,later,before,after]

section Moves

variable {write : Option JobWrite} {due : IJob → Bool} {before after : Option IJob}

theorem moves_version (moves : DocumentMoves jobId write due before after)
    (key : ∀ job ∈ before, job.jobId = jobId) (kept : before.any due = false) :
    after.elim 0 IJob.version = before.elim 0 IJob.version +
      (write.any fun w => (w.expects.any fun expected => expected.1 = jobId) &&
        before.any w.selects).toNat := by
  cases moves with
  | kept _ spared =>
    cases write with
    | none => rfl
    | some w =>
      cases before with
      | none => simp
      | some job => simp [spared w rfl job rfl]
  | created input is same => simp [is,inserted]
  | changed w stored is selected =>
    cases expects : w.expects with
    | none => simp [is,expects,unexpecting_keeps expects]
    | some expected =>
      obtain ⟨same,held,next⟩ := expects_selected (show w.expects = some (expected.1,expected.2) from expects) selected
      simp [is,expects,selected,held,next,← same,key stored rfl]
  | expired stored _ gone => simp [gone] at kept

end Moves

theorem version_step (kept : deletes jobId s label = false) :
    versionAt jobId (Repository.machine.step s label).world =
      versionAt jobId s.world + (advances jobId s label).toNat :=
  moves_version (Repository.document_moves s label jobId)
    (fun _ stored => Collection.lookup_key stored) kept

theorem returned_succeeds {version : Nat} (returned : returnsDocument jobId version s label = true) :
    succeeds jobId version s label = true := by
  unfold returnsDocument at returned
  split at returned
  · rename_i index ω
    split at returned
    · rename_i write awaiting
      obtain ⟨expects,answered⟩ := Bool.and_eq_true_iff.mp returned
      split at answered
      · rename_i reply replied
        obtain ⟨performed,answer⟩ := deliver_ok replied
        have same : reply = (write.run s.world.jobs).1 := (Except.ok.inj answer).symm
        subst same
        have matched := document_selects (of_decide_eq_true expects) answered
        simp [succeeds,written,awaiting,performed,Delivery.applies,of_decide_eq_true expects,matched]
      · cases answered
    · cases returned
  · cases returned

/-- No version is spent twice. -/
theorem succeeds_run (version : Nat)
    (kept : Repository.machine.Along (fun s label => deletes jobId s label = false) s labels) :
    Repository.machine.countAlong (succeeds jobId version) s labels ≤
      if versionAt jobId s.world ≤ version then 1 else 0 := by
  induction labels generalizing s with
  | nil => exact Nat.zero_le _
  | cons label labels ih =>
    have later := ih kept.2
    have moved := version_step kept.1
    simp only [Machine.countAlong]
    cases succeeded : succeeds jobId version s label with
    | true =>
      obtain ⟨before,after⟩ := succeeds_step succeeded
      rw [after,if_neg (by omega)] at later
      rw [before,if_pos (Nat.le_refl _),Bool.toNat_true]
      omega
    | false =>
      rw [Bool.toNat_false]
      split at later
      · rw [if_pos (by omega)]
        omega
      · omega

theorem counts_run
    (kept : Repository.machine.Along (fun s label => deletes jobId s label = false) s labels) :
    versionAt jobId (Repository.machine.run s labels).world = versionAt jobId s.world +
        Repository.machine.countAlong (advances jobId) s labels ∧
      attemptsAt jobId (Repository.machine.run s labels).world = attemptsAt jobId s.world +
        Repository.machine.countAlong (claims jobId) s labels := by
  induction labels generalizing s with
  | nil => exact ⟨rfl,rfl⟩
  | cons label labels ih =>
    have version := version_step kept.1
    have attempts := Repository.attempts_step kept.1
    obtain ⟨versions,claimed⟩ := ih kept.2
    simp only [Machine.countAlong,Machine.run_cons]
    omega

/-- The guarded writes to one document in a run, in the order of their versions. -/
structure Linearised (jobId : String) (labels : List RepositoryLabel) : Prop where
  once : ∀ version, Repository.machine.countAlong (succeeds jobId version) Repository.start labels ≤ 1
  returned : Repository.machine.Along (fun s label => ∀ version,
    returnsDocument jobId version s label = true → succeeds jobId version s label = true)
    Repository.start labels
  grows : Repository.machine.Along (fun s label => versionAt jobId s.world ≤
    versionAt jobId (Repository.machine.step s label).world) Repository.start labels
  version : ∀ job, (Repository.machine.run Repository.start labels).world.jobs.lookup jobId =
    some job → job.version = Repository.machine.countAlong (advances jobId) Repository.start labels
  attempts : ∀ job, (Repository.machine.run Repository.start labels).world.jobs.lookup jobId =
    some job → job.attempts = Repository.machine.countAlong (claims jobId) Repository.start labels

/-- While the document is not deleted, at most one call that expects a version takes
effect, and version and attempts count the calls that did. -/
theorem optimistic_lock (jobId : String) (labels : List RepositoryLabel)
    (kept : Repository.machine.Along (fun s label => deletes jobId s label = false)
      Repository.start labels) : Linearised jobId labels where
  once version := (succeeds_run version kept).trans (by split <;> omega)
  returned := Machine.along_forall fun _ _ _ => returned_succeeds
  grows := Machine.along_mono (fun s label kept => (version_step kept).symm ▸ Nat.le_add_right _ _) kept
  version job stored := by
    have counted := (counts_run kept).1
    rw [versionAt,stored] at counted
    exact counted.trans (Nat.zero_add _)
  attempts job stored := by
    have counted := (counts_run kept).2
    rw [attemptsAt,stored] at counted
    exact counted.trans (Nat.zero_add _)

/-- Two claims race for a report, and the winner's run is completed. -/
theorem optimistic_lock_report : Linearised reportId
    (alone 0 1 (.createJob reportInput) ++ alone 1 2 (.claimJob reportId 0) ++
      alone 2 2 (.claimJob reportId 0) ++ alone 3 2 (.markCompleted reportId 1 0)) :=
  optimistic_lock reportId _ (by decide +kernel)

end JobScheduler
