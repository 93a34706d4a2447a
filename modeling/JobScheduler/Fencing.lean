import JobScheduler.MutualExclusion

/-! Fencing of stale executions. A terminal write carries the version after the one
that the claim stored, so it never meets the run of its own claim; it takes effect
exactly when some later write has brought the document to that version. -/
namespace JobScheduler

open ExecutePhase JobRepository

def JobWrite.terminal : JobWrite → Bool
  | .markCompleted _ _ _ _ | .markFailed _ _ _ _ _ | .markDead _ _ => true
  | _ => false

/-- `markDead` has no condition on the status. -/
def JobWrite.kills : JobWrite → Bool
  | .markDead _ _ => true
  | _ => false

variable {s : SystemState} {label : SystemLabel} {labels : List SystemLabel}

/-- A terminal write changes a stored document only if this is still the document as
the writing call claimed it. -/
def Fenced (s : SystemState) (label : SystemLabel) : Prop :=
  ∀ index ω call write rest stored, label = .resume index ω → s.calls[index]? = some call →
    call.program = .await (.job write) rest → write.terminal = true → ω.delivery.applies = true →
    s.world.jobs.lookup stored.jobId = some stored → write.selects stored = true →
    (execution.phase call).job? = some stored

/-- The stored document has the version that terminal writes of this claim carry, and
a status that they accept. -/
def outrun (own : IJob) (write : JobWrite) (stored : IJob) : Bool :=
  stored.version = own.version + 1 && (stored.status = .running || write.kills)

def collides (s : SystemState) : SystemLabel → Bool
  | .resume index ω =>
    s.calls[index]?.any fun call =>
      match call.program.head, (execution.phase call).job? with
      | some (.job write), some own =>
        write.terminal && ω.delivery.applies &&
          (s.world.jobs.lookup own.jobId).any (outrun own write)
      | _, _ => false
  | _ => false

theorem terminal_selects {phase : ExecutePhase} {write : JobWrite}
    (may : allowed phase (.job write)) (terminal : write.terminal = true) :
    ∃ own, phase.job? = some own ∧ ∀ stored, write.selects stored = true ↔
      stored.jobId = own.jobId ∧ outrun own write stored = true := by
  cases write with
  | markCompleted jobId version completedAt now =>
    cases phase with
    | idle => cases may
    | resolved own =>
      obtain ⟨rfl,rfl⟩ := may
      refine ⟨own,rfl,fun stored => ?_⟩
      simp [JobWrite.selects,runningAt,outrun,JobWrite.kills,and_comm]
    | _ => exact False.elim may
  | markFailed jobId version error nextRunAt now =>
    cases phase with
    | idle => cases may
    | misreporting own | reporting own =>
      obtain ⟨rfl,rfl,_⟩ := may
      refine ⟨own,rfl,fun stored => ?_⟩
      simp [JobWrite.selects,runningAt,outrun,JobWrite.kills,and_comm]
    | _ => exact False.elim may
  | markDead jobId version =>
    cases phase with
    | idle => cases may
    | misreporting own | reporting own =>
      obtain ⟨rfl,rfl,_⟩ := may
      refine ⟨own,rfl,fun stored => ?_⟩
      simp [JobWrite.selects,versionIs,outrun,JobWrite.kills]
    | _ => exact False.elim may
  | _ => cases terminal

theorem outrun_other {own stored : IJob} {write : JobWrite} (meets : outrun own write stored = true) :
    own ≠ stored := by
  rintro rfl
  simp [outrun] at meets

theorem own_unselected {phase : ExecutePhase} {write : JobWrite} {own : IJob}
    (may : allowed phase (.job write)) (job : phase.job? = some own) : write.selects own = false := by
  have terminal : write.terminal = true := by
    cases phase with
    | idle => cases job
    | _ => cases write <;> first | rfl | exact False.elim may
  obtain ⟨_,same,selects⟩ := terminal_selects may terminal
  rw [job] at same
  obtain rfl := Option.some.inj same
  rw [Bool.eq_false_iff]
  intro selected
  exact outrun_other ((selects own).mp selected).2 rfl

theorem fenced_iff (followed : execution.Followed s) : Fenced s label ↔ collides s label = false := by
  constructor
  · intro fenced
    rw [Bool.eq_false_iff]
    intro collision
    unfold collides at collision
    split at collision
    · rename_i index ω
      obtain ⟨call,found,meets⟩ := (Option.any_eq_true ..).mp collision
      split at meets
      · rename_i write own head job
        obtain ⟨⟨terminal,applies⟩,matched⟩ :
            (write.terminal = true ∧ ω.delivery.applies = true) ∧
            (s.world.jobs.lookup own.jobId).any (outrun own write) = true := by simpa using meets
        obtain ⟨stored,present,reaches⟩ := (Option.any_eq_true ..).mp matched
        cases awaits : call.program with
        | settled result => simp [awaits,Program.head] at head
        | await op rest =>
          simp only [awaits,Program.head,Option.some.injEq] at head
          subst head
          obtain ⟨_,same,selects⟩ := terminal_selects (followed.allowed found awaits) terminal
          rw [job] at same
          obtain rfl := Option.some.inj same
          have key : stored.jobId = own.jobId := Collection.lookup_key present
          have selected := (selects stored).mpr ⟨key,reaches⟩
          have still := fenced index ω call write rest stored rfl found awaits terminal applies
            (by rw [key]; exact present) selected
          rw [job] at still
          exact outrun_other reaches (Option.some.inj still)
      · cases meets
    · cases collision
  · intro apart index ω call write rest stored is found awaits terminal applies present selected
    obtain ⟨own,job,selects⟩ := terminal_selects (followed.allowed found awaits) terminal
    obtain ⟨same,meets⟩ := (selects stored).mp selected
    subst is
    have collision : collides s (.resume index ω) = true := by
      rw [same] at present
      simp [collides,found,awaits,Program.head,job,terminal,applies,present,meets]
    rw [collision] at apart
    cases apart

theorem fenced_run (followed : execution.Followed s) :
    System.machine.Along Fenced s labels ↔
      System.machine.Along (fun s label => collides s label = false) s labels :=
  Machine.along_congr execution.Followed execution_followed (fun _ _ => fenced_iff) followed

/-- Every terminal write of a run stays within its own claim if and only if none of
them meets a document that has outrun the claim. -/
theorem terminal_writes_fenced (world : World) (labels : List SystemLabel) :
    System.machine.Along Fenced (initial world) labels ↔
      System.machine.Along (fun s label => collides s label = false) (initial world) labels :=
  fenced_run (execution.followed_initial world)

/-- The first handler of `overlap` resolves late, and its `markCompleted` completes
the run that the second instance claimed after the reset. -/
theorem stale_write_completes :
    ¬ ∀ labels, System.machine.Along Fenced (initial World.empty) labels := by
  intro fenced
  have apart := (fenced_run (execution.followed_initial World.empty)).mp
    (fenced (overlap ++ drive 2 5 400000))
  exact absurd apart (by decide +kernel)

end JobScheduler
