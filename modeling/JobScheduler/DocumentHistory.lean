import JobScheduler.Effects

/-! The history of one job document. Whatever calls a service interleaves, a step
either leaves the document of an id alone, creates it, lets one write change it, or
lets it expire. The repository's own calls, with any arguments, are such a service. -/
namespace JobScheduler

open JobRepository

/-- Calls of any kind over the shared stores. -/
def service {Demand : Type} (program : Demand → Async Unit) (starts : Op → List Demand) :
    Machine signature Thrown World Oracle Demand StoreEvent where
  perform := perform
  starts := starts
  program := program
  environment := System.environment
  crashed := .error (text "process exited") none

section Documents

variable {Demand : Type} {program : Demand → Async Unit} {starts : Op → List Demand}

/-- The job write that takes effect in a step. -/
def written (s : State signature Thrown World Demand) :
    Label Oracle Demand StoreEvent → Option JobWrite
  | .resume index ω =>
    match s.awaits index with
    | some (.job write) => if ω.delivery.applies then some write else none
    | _ => none
  | _ => none

theorem written_eq_some {s : State signature Thrown World Demand}
    {label : Label Oracle Demand StoreEvent} {write : JobWrite} (writes : written s label = some write) :
    ∃ index ω, label = .resume index ω ∧ s.awaits index = some (.job write) ∧
      ω.delivery.applies = true := by
  unfold written at writes
  split at writes
  · rename_i index ω
    split at writes
    · rename_i awaited awaiting
      split at writes
      · rename_i applies
        obtain rfl := Option.some.inj writes
        exact ⟨index,ω,rfl,awaiting,applies⟩
      · cases writes
    · cases writes
  · cases writes

/-- The step is a TTL deletion that finds the document due. -/
def outlives (job : IJob) : Label Oracle Demand StoreEvent → Bool
  | .environment (.expireJobs now) => job.expiresAt.any (· ≤ now)
  | _ => false

def deletes (jobId : String) (s : State signature Thrown World Demand)
    (label : Label Oracle Demand StoreEvent) : Bool :=
  (s.world.jobs.lookup jobId).any fun job => outlives job label

def claims (jobId : String) (s : State signature Thrown World Demand)
    (label : Label Oracle Demand StoreEvent) : Bool :=
  match written s label with
  | some (.claimJob target version _) =>
    target = jobId && (s.world.jobs.lookup jobId).any (claimable version)
  | _ => false

/-- All that a step can make of the document of `jobId`. -/
inductive DocumentMoves (jobId : String) (write : Option JobWrite) (due : IJob → Bool) :
    Option IJob → Option IJob → Prop where
  | kept (stored) (spared : ∀ w ∈ write, ∀ job ∈ stored, w.selects job = false) :
      DocumentMoves jobId write due stored stored
  | created (input) (is : write = some (.createJob input)) (same : input.jobId = jobId) :
      DocumentMoves jobId write due none (some (inserted input))
  | changed (w stored) (is : write = some w) (selected : w.selects stored = true) :
      DocumentMoves jobId write due (some stored) (some (w.change stored))
  | expired (stored) (unwritten : write = none) (gone : due stored = true) :
      DocumentMoves jobId write due (some stored) none

theorem written_moves (jobId : String) (write : JobWrite) (due : IJob → Bool)
    (stored : Option IJob) :
    DocumentMoves jobId (some write) due stored (write.update jobId stored) := by
  cases stored with
  | none =>
    cases write with
    | createJob input =>
      simp only [JobWrite.update]
      split
      · rename_i same
        exact .created input rfl same
      · exact .kept none (by simp)
    | _ => exact .kept none (by simp)
  | some job =>
    by_cases selected : write.selects job = true
    · simp only [JobWrite.update,selected,if_true]
      exact .changed write job rfl selected
    · simp only [JobWrite.update,selected]
      apply DocumentMoves.kept
      simpa using selected

variable (program starts) in
theorem document_moves (s : State signature Thrown World Demand)
    (label : Label Oracle Demand StoreEvent) (jobId : String) :
    DocumentMoves jobId (written s label) (fun job => outlives job label)
      (s.world.jobs.lookup jobId)
      (((service program starts).step s label).world.jobs.lookup jobId) := by
  have moves := (service program starts).step_moves s label
  generalize (service program starts).step s label = t at moves
  cases moves with
  | submit | absent | crash => exact .kept _ (by simp [written])
  | idle index ω settled => exact .kept _ (by simp [written,settled])
  | answer index ω call op rest found awaits =>
    have awaiting : s.awaits index = some op := State.awaits_eq_some.mpr ⟨call,rest,found,awaits⟩
    change DocumentMoves _ _ _ _ ((perform op ω s.world).2.jobs.lookup jobId)
    rw [perform_lookup]
    simp only [written,awaiting]
    cases op with
    | job write =>
      simp only [Op.update]
      split
      · exact written_moves jobId write _ _
      · exact .kept _ (by simp)
    | _ => exact .kept _ (by simp)
  | environment event =>
    cases event with
    | giveUp index => exact .kept _ (by simp [written])
    | expireJobs now =>
      change DocumentMoves _ _ _ _ ((expire s.world.jobs now).lookup jobId)
      rw [expire,Collection.lookup_deleteMany]
      cases s.world.jobs.lookup jobId with
      | none => exact .kept none (by simp)
      | some job =>
        by_cases gone : job.expiresAt.any (· ≤ now) = true
        · simp only [Option.filter_some,gone,Bool.not_true,Bool.false_eq_true,if_false]
          exact .expired job rfl gone
        · simp only [Option.filter_some,gone,Bool.not_false,if_true]
          exact .kept (some job) (by simp [written])

theorem effect_step {s : State signature Thrown World Demand}
    {label : Label Oracle Demand StoreEvent} {jobId : String} {write : JobWrite} {job : IJob}
    (writes : written s label = some write) (stored : s.world.jobs.lookup jobId = some job)
    (selected : write.selects job = true) :
    ((service program starts).step s label).world.jobs.lookup jobId = some (write.change job) := by
  have moves := document_moves program starts s label jobId
  rw [stored,writes] at moves
  generalize ((service program starts).step s label).world.jobs.lookup jobId = after at moves
  cases moves with
  | kept _ spared =>
    have missed := spared _ rfl job rfl
    rw [selected] at missed
    cases missed
  | changed w _ is _ =>
    obtain rfl := Option.some.inj is
    rfl
  | expired _ unwritten _ => cases unwritten

def attemptsAt (jobId : String) (w : World) : Nat := (w.jobs.lookup jobId).elim 0 IJob.attempts

theorem moves_attempts {jobId : String} {write : Option JobWrite} {due : IJob → Bool}
    {before after : Option IJob} (moves : DocumentMoves jobId write due before after)
    (key : ∀ job ∈ before, job.jobId = jobId) (kept : before.any due = false) :
    after.elim 0 IJob.attempts = before.elim 0 IJob.attempts +
      (match write with
        | some (.claimJob target version _) => target = jobId && before.any (claimable version)
        | _ => false).toNat := by
  cases moves with
  | kept _ spared =>
    split
    · rename_i target version now
      cases before with
      | none => simp
      | some job =>
        have missed := spared _ rfl job rfl
        simp only [JobWrite.selects,key job rfl] at missed
        by_cases same : jobId = target
        · simp_all
        · simp [Ne.symm same]
    · rfl
  | created input is same => simp [is,inserted]
  | changed w stored is selected =>
    subst is
    cases w with
    | claimJob target version now =>
      simp only [JobWrite.selects,Bool.and_eq_true,decide_eq_true_eq] at selected
      have same : target = jobId := selected.1.symm.trans (key stored rfl)
      simp [same,selected.2,JobWrite.change,claimed]
    | _ => rfl
  | expired stored _ gone => simp [gone] at kept

theorem attempts_step {s : State signature Thrown World Demand}
    {label : Label Oracle Demand StoreEvent} {jobId : String}
    (kept : deletes jobId s label = false) :
    attemptsAt jobId ((service program starts).step s label).world =
      attemptsAt jobId s.world + (claims jobId s label).toNat := by
  have counted := moves_attempts (document_moves program starts s label jobId)
    (fun _ stored => Collection.lookup_key stored) kept
  exact counted

theorem claims_step {s : State signature Thrown World Demand}
    {label : Label Oracle Demand StoreEvent} {jobId : String} (claimed : claims jobId s label = true) :
    ∃ job version now, s.world.jobs.lookup jobId = some job ∧ job.status = .pending ∧
      ((service program starts).step s label).world.jobs.lookup jobId =
        some (JobRepository.claimed version now job) := by
  unfold claims at claimed
  split at claimed
  · rename_i target version now writes
    obtain ⟨same,matched⟩ := Bool.and_eq_true_iff.mp claimed
    obtain ⟨job,stored,passes⟩ := (Option.any_eq_true ..).mp matched
    obtain rfl : target = jobId := of_decide_eq_true same
    have key : job.jobId = target := Collection.lookup_key stored
    have pending : job.status = .pending := by
      simp only [claimable,Bool.and_eq_true,decide_eq_true_eq] at passes
      exact passes.1
    refine ⟨job,version,now,stored,pending,effect_step writes stored ?_⟩
    simp [JobWrite.selects,key,passes]
  · cases claimed

end Documents

theorem System.document_moves (s : SystemState) (label : SystemLabel) (jobId : String) :
    DocumentMoves jobId (written s label) (fun job => outlives job label)
      (s.world.jobs.lookup jobId) ((System.machine.step s label).world.jobs.lookup jobId) :=
  JobScheduler.document_moves _ _ s label jobId

/-- A call of a repository method, with whatever arguments its caller has. -/
inductive RepositoryCall where
  | createJob (input : EnqueueJobInput)
  | claimJob (jobId : String) (version : Nat)
  | markCompleted (jobId : String) (version : Nat) (completedAt : Int)
  | markFailed (jobId : String) (version : Nat) (error : Text) (nextRunAt : Int)
  | markDead (jobId : String) (version : Nat)
  | cancelJob (jobId : String)
  | resetStaleJobs (ageMs : Nat)

namespace Repository

def program : RepositoryCall → Async Unit
  | .createJob input => do let _ ← createJobCall input; pure ()
  | .claimJob jobId version => do let _ ← claimJobCall jobId version; pure ()
  | .markCompleted jobId version completedAt => do
    let _ ← markCompletedCall jobId version completedAt
    pure ()
  | .markFailed jobId version error nextRunAt => do
    let _ ← markFailedCall jobId version error nextRunAt
    pure ()
  | .markDead jobId version => do let _ ← markDeadCall jobId version; pure ()
  | .cancelJob jobId => do let _ ← cancelJobCall jobId; pure ()
  | .resetStaleJobs ageMs => do let _ ← resetStaleJobsCall ageMs; pure ()

def machine : Machine signature Thrown World Oracle RepositoryCall StoreEvent :=
  service program fun _ => []

end Repository

abbrev RepositoryState := State signature Thrown World RepositoryCall
abbrev RepositoryLabel := Label Oracle RepositoryCall StoreEvent

def Repository.start : RepositoryState := ⟨World.empty,[]⟩

theorem Repository.document_moves (s : RepositoryState) (label : RepositoryLabel) (jobId : String) :
    DocumentMoves jobId (written s label) (fun job => outlives job label)
      (s.world.jobs.lookup jobId) ((Repository.machine.step s label).world.jobs.lookup jobId) :=
  JobScheduler.document_moves _ _ s label jobId

theorem Repository.effect_step {s : RepositoryState} {label : RepositoryLabel} {jobId : String}
    {write : JobWrite} {job : IJob} (writes : written s label = some write)
    (stored : s.world.jobs.lookup jobId = some job) (selected : write.selects job = true) :
    (Repository.machine.step s label).world.jobs.lookup jobId = some (write.change job) :=
  JobScheduler.effect_step writes stored selected

theorem Repository.attempts_step {s : RepositoryState} {label : RepositoryLabel} {jobId : String}
    (kept : deletes jobId s label = false) :
    attemptsAt jobId (Repository.machine.step s label).world =
      attemptsAt jobId s.world + (claims jobId s label).toNat :=
  JobScheduler.attempts_step kept

theorem Repository.claims_step {s : RepositoryState} {label : RepositoryLabel} {jobId : String}
    (claimed : claims jobId s label = true) :
    ∃ job version now, s.world.jobs.lookup jobId = some job ∧ job.status = .pending ∧
      (Repository.machine.step s label).world.jobs.lookup jobId =
        some (JobRepository.claimed version now job) :=
  JobScheduler.claims_step claimed

def reportInput : EnqueueJobInput where
  jobId := reportId
  jobType := .scheduledReport
  tenantId := "tenant"
  scheduledAt := 0
  nextRunAt := 0
  priority := .three
  maxAttempts := 3
  cronExpression := none
  payload := reportRequest.payload

def alone {Demand : Type} (index steps : Nat) (call : Demand) :
    List (Label Oracle Demand StoreEvent) :=
  .submit call :: List.replicate steps (.resume index (calm 0))

end JobScheduler
