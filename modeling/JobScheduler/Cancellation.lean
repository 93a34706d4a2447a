import JobScheduler.Lifecycle

/-! Cancellation is final. An open document carries no expiry, so a cancelled one never
expires; it stays dead because every write but `markDead` wants an open document. -/
namespace JobScheduler

open JobRepository

variable {s : RepositoryState} {label : RepositoryLabel} {labels : List RepositoryLabel}
variable {jobId : String} {write : Option JobWrite}

def cancels (jobId : String) (s : RepositoryState) (label : RepositoryLabel) : Bool :=
  match written s label with
  | some (.cancelJob target) => target = jobId && (s.world.jobs.lookup jobId).any isPending
  | _ => false

def pendingAt (jobId : String) (w : World) : Bool := (w.jobs.lookup jobId).any isPending

/-- The step begins a pending period of the job: it creates the document or restores it. -/
def opensPeriod (jobId : String) (s : RepositoryState) (label : RepositoryLabel) : Bool :=
  !pendingAt jobId s.world && pendingAt jobId (Repository.machine.step s label).world

/-- Pending and running documents do not expire. -/
def Unexpiring (stored : Option IJob) : Prop :=
  ∀ job ∈ stored, job.status = .pending ∨ job.status = .running → job.expiresAt = none

def Buried (stored : Option IJob) : Prop :=
  ∃ job, stored = some job ∧ job.status = .dead ∧ job.expiresAt = none

theorem outlives_none {job : IJob} (eternal : job.expiresAt = none) (label : RepositoryLabel) :
    outlives job label = false := by
  unfold outlives
  split
  · rw [eternal]; rfl
  · rfl

theorem change_unexpiring {write : JobWrite} {job : IJob} (selected : write.selects job = true)
    (unexpiring : Unexpiring (some job)) : Unexpiring (some (write.change job)) := by
  rintro _ ⟨⟩ isOpen
  by_cases kills : ∃ target version, write = .markDead target version
  · obtain ⟨target,version,rfl⟩ := kills
    rcases isOpen with is | is <;> cases is
  · have guarded := guarded_change selected fun target version is => kills ⟨target,version,is⟩
    have eternal := unexpiring job rfl guarded.1
    cases write with
    | markCompleted | markFailed => rcases isOpen with is | is <;> cases is
    | markDead target version => exact absurd ⟨target,version,rfl⟩ kills
    | _ => exact eternal

theorem moves_unexpiring {due : IJob → Bool} {before after : Option IJob}
    (moves : DocumentMoves jobId write due before after) (unexpiring : Unexpiring before) :
    Unexpiring after := by
  cases moves with
  | kept => exact unexpiring
  | created input is same => rintro _ ⟨⟩ _; rfl
  | changed w stored is selected => exact change_unexpiring selected unexpiring
  | expired => rintro _ ⟨⟩

theorem moves_buried {before after : Option IJob}
    (moves : DocumentMoves jobId write (fun job => outlives job label) before after)
    (buried : Buried before) : Buried after := by
  obtain ⟨job,rfl,dead,eternal⟩ := buried
  cases moves with
  | kept => exact ⟨job,rfl,dead,eternal⟩
  | changed w _ is selected =>
    by_cases kills : ∃ target version, w = .markDead target version
    · obtain ⟨target,version,rfl⟩ := kills
      exact ⟨_,rfl,rfl,eternal⟩
    · have guarded := guarded_change selected fun target version is => kills ⟨target,version,is⟩
      rw [dead] at guarded
      rcases guarded.1 with is | is <;> cases is
  | expired _ _ gone =>
    rw [outlives_none eternal] at gone
    cases gone

theorem unexpiring_run (jobId : String) (before : List RepositoryLabel) :
    Unexpiring ((Repository.machine.run Repository.start before).world.jobs.lookup jobId) := by
  refine Machine.always_run (fun s : RepositoryState => Unexpiring (s.world.jobs.lookup jobId))
    ?_ ?_ before
  · intro s label unexpiring
    exact moves_unexpiring (Repository.document_moves s label jobId) unexpiring
  · rintro _ ⟨⟩

theorem cancels_step (cancelled : cancels jobId s label = true) :
    ∃ job, s.world.jobs.lookup jobId = some job ∧ job.status = .pending ∧
      (Repository.machine.step s label).world.jobs.lookup jobId =
        some (JobRepository.cancelled job) := by
  unfold cancels at cancelled
  split at cancelled
  · rename_i target writes
    obtain ⟨same,matched⟩ := Bool.and_eq_true_iff.mp cancelled
    obtain ⟨job,stored,pending⟩ := (Option.any_eq_true ..).mp matched
    obtain rfl : target = jobId := of_decide_eq_true same
    have key : job.jobId = target := Collection.lookup_key stored
    refine ⟨job,stored,of_decide_eq_true pending,Repository.effect_step writes stored ?_⟩
    simp [JobWrite.selects,key,pending]
  · cases cancelled

theorem cancels_buries (unexpiring : Unexpiring (s.world.jobs.lookup jobId))
    (cancelled : cancels jobId s label = true) :
    Buried ((Repository.machine.step s label).world.jobs.lookup jobId) := by
  obtain ⟨job,stored,pending,after⟩ := cancels_step cancelled
  exact ⟨_,after,rfl,unexpiring job stored (.inl pending)⟩

theorem buried_unclaimed (buried : Buried (s.world.jobs.lookup jobId)) (label : RepositoryLabel) :
    claims jobId s label = false := by
  obtain ⟨job,stored,dead,_⟩ := buried
  unfold claims
  split
  · simp [stored,claimable,dead]
  · rfl

theorem buried_kept (buried : Buried (s.world.jobs.lookup jobId)) (label : RepositoryLabel) :
    deletes jobId s label = false := by
  obtain ⟨job,stored,_,eternal⟩ := buried
  simp [deletes,stored,outlives_none eternal]

/-- What follows a cancellation that took effect: the document stays, dead, and is
never claimed. -/
structure Final (jobId : String) (s : RepositoryState) (labels : List RepositoryLabel) :
    Prop where
  dead : ∀ t, Repository.machine.Reached s labels t →
    ∃ job, t.world.jobs.lookup jobId = some job ∧ job.status = .dead
  kept : Repository.machine.Along (fun s label => deletes jobId s label = false) s labels
  unclaimed : Repository.machine.Along (fun s label => claims jobId s label = false) s labels

theorem buried_run (buried : Buried (s.world.jobs.lookup jobId)) : Final jobId s labels := by
  have stays : ∀ t, Repository.machine.Reached s labels t → Buried (t.world.jobs.lookup jobId) :=
    fun t reached => Machine.always_reached (fun t : RepositoryState => Buried (t.world.jobs.lookup jobId))
      (fun t label => moves_buried (Repository.document_moves t label jobId)) buried reached
  refine ⟨fun t reached => ?_,?_,?_⟩
  · obtain ⟨job,stored,dead,_⟩ := stays t reached
    exact ⟨job,stored,dead⟩
  · exact Machine.along_of_reached stays fun t label buried => buried_kept buried label
  · exact Machine.along_of_reached stays fun t label buried => buried_unclaimed buried label

theorem takes_pending (taken : (claims jobId s label || cancels jobId s label) = true) :
    pendingAt jobId s.world = true ∧
      pendingAt jobId (Repository.machine.step s label).world = false := by
  rcases Bool.or_eq_true_iff.mp taken with claimed | cancelled
  · obtain ⟨job,version,now,stored,pending,after⟩ := Repository.claims_step claimed
    simp [pendingAt,stored,after,isPending,pending,JobRepository.claimed]
  · obtain ⟨job,stored,pending,after⟩ := cancels_step cancelled
    simp [pendingAt,stored,after,isPending,pending,JobRepository.cancelled]

variable (s label jobId) in
theorem takes_step : (claims jobId s label || cancels jobId s label).toNat +
      (pendingAt jobId (Repository.machine.step s label).world).toNat ≤
    (pendingAt jobId s.world).toNat + (opensPeriod jobId s label).toNat := by
  cases taken : claims jobId s label || cancels jobId s label with
  | true =>
    obtain ⟨before,after⟩ := takes_pending taken
    simp [before,after]
  | false =>
    simp only [opensPeriod]
    cases pendingAt jobId s.world <;>
      cases pendingAt jobId (Repository.machine.step s label).world <;> simp

variable (s labels jobId) in
theorem takes_run : Repository.machine.countAlong
        (fun s label => claims jobId s label || cancels jobId s label) s labels +
      (pendingAt jobId (Repository.machine.run s labels).world).toNat ≤
    (pendingAt jobId s.world).toNat +
      Repository.machine.countAlong (opensPeriod jobId) s labels := by
  have free : Repository.machine.Along (fun _ _ => True) s labels :=
    Machine.along_forall fun _ _ => trivial
  exact Machine.countAlong_potential (fun _ => True) (fun _ _ _ _ => trivial)
    (fun s => (pendingAt jobId s.world).toNat) (fun s label _ _ => takes_step s label jobId) free trivial

/-- After a cancellation took effect nothing revives, deletes or claims the document,
and one pending period ends in at most one claim or cancellation. -/
theorem cancellation_final (before after : List RepositoryLabel) (jobId : String) :
    (∀ label, cancels jobId (Repository.machine.run Repository.start before) label = true →
      Final jobId (Repository.machine.run Repository.start (before ++ [label])) after) ∧
    (Repository.machine.Along (fun s label => opensPeriod jobId s label = false)
        (Repository.machine.run Repository.start before) after →
      Repository.machine.countAlong (fun s label => claims jobId s label || cancels jobId s label)
        (Repository.machine.run Repository.start before) after ≤ 1) := by
  constructor
  · intro label cancelled
    have buried := cancels_buries (unexpiring_run jobId before) cancelled
    simpa [Machine.run] using buried_run buried
  · intro single
    have spent := takes_run (Repository.machine.run Repository.start before) after jobId
    have none : Repository.machine.countAlong (opensPeriod jobId)
        (Repository.machine.run Repository.start before) after = 0 :=
      Machine.countAlong_eq_zero.mpr single
    have once := Bool.toNat_le
      (pendingAt jobId (Repository.machine.run Repository.start before).world)
    omega

/-- A report is cancelled; a claim with its version, an enqueue of the same key and the
TTL monitor come after. -/
theorem cancellation_final_report :
    Final reportId (Repository.machine.run Repository.start
        (alone 0 1 (.createJob reportInput) ++ [.submit (.cancelJob reportId)] ++
          [.resume 1 (calm 0)]))
      (alone 2 2 (.claimJob reportId 0) ++ alone 3 1 (.createJob reportInput) ++
        [.environment (.expireJobs 1000)]) ∧
    Repository.machine.countAlong
        (fun s label => claims reportId s label || cancels reportId s label)
        (Repository.machine.run Repository.start (alone 0 1 (.createJob reportInput)))
        (alone 1 2 (.claimJob reportId 0) ++ alone 2 1 (.cancelJob reportId)) ≤ 1 :=
  ⟨(cancellation_final _ _ reportId).1 _ (by decide +kernel),
    (cancellation_final _ _ reportId).2 (by decide +kernel)⟩

end JobScheduler
