import JobScheduler.DeadLettering
import JobScheduler.DocumentHistory
import JobScheduler.HandlerBudget

/-! The retry budget. A claim spends one attempt of the document it wins and nothing
gives one back, so the budget holds as long as no stale reset returns a document to
pending whose attempts are used up: nothing after that compares them again. -/
namespace JobScheduler

open JobRepository ExecutePhase

/-- A document that may still be claimed has an attempt left. -/
structure IJob.WithinBudget (job : IJob) : Prop where
  spent : job.attempts ≤ job.maxAttempts
  left : job.status = .pending → job.attempts < job.maxAttempts

def World.WithinBudget (w : World) : Prop :=
  ∀ jobId, ∀ job ∈ w.jobs.lookup jobId, job.WithinBudget

/-- A stale reset returns a document without attempts to pending. -/
def restoresExhausted (s : SystemState) (label : SystemLabel) : Bool :=
  match written s label with
  | some (.resetStaleJobs cutoff) =>
    s.world.jobs.docs.any fun job => stale cutoff job && job.maxAttempts ≤ job.attempts
  | _ => false

def Op.budgeted : Op → Bool
  | .job (.createJob input) => 1 ≤ input.maxAttempts
  | _ => true

theorem maxAttempts_pos {jobType : JobType} {definition : JobDefinition}
    (known : jobDefinitions jobType = some definition) : 1 ≤ definition.maxAttempts := by
  cases jobType <;> cases known <;> decide

theorem Within.enqueue_budgeted (request : CreateJobRequest) :
    Within Op.budgeted (JobService.enqueue request) := by
  unfold JobService.enqueue
  split
  · exact throw _
  · rename_i definition known
    have key : Within Op.budgeted (definition.idempotencyKeyFn (JobService.spread request)) := by
      refine (idempotencyKeyFn known _).mono fun op uuid => ?_
      rw [eq_uuidv4 uuid]
      rfl
    have affordable := maxAttempts_pos known
    refine bind key fun jobId => bind (await ?_) fun job => ?_
    · exact decide_eq_true affordable
    · refine bind (bind (await rfl) fun _ => pure _) fun _ => ?_
      exact bind (await rfl) fun _ => pure _

theorem Request.ops_budgeted {request : Request} {op : Op} (listed : request.ops op = true)
    (other : ∀ creation, request ≠ .enqueue creation) : op.budgeted = true := by
  cases op with
  | job write =>
    cases write with
    | createJob input =>
      cases request with
      | enqueue creation => exact absurd rfl (other creation)
      | _ => cases listed
    | _ => rfl
  | _ => rfl

theorem Within.budgeted (request : Request) : Within Op.budgeted (System.program request) := by
  by_cases enqueues : ∃ creation, request = .enqueue creation
  · obtain ⟨creation,rfl⟩ := enqueues
    exact (Within.enqueue_budgeted creation).bind fun _ => .pure _
  · apply (Within.program request).mono
    intro op listed
    exact Request.ops_budgeted listed fun creation is => enqueues ⟨creation,is⟩

/-- The creations of the service stay within the definitions' budgets. -/
def budgeting : Protocol System.machine Unit := .within (fun op => op.budgeted = true) Within.budgeted

variable {s : SystemState} {label : SystemLabel} {labels : List SystemLabel} {jobId : String}

theorem created_budgeted {input : EnqueueJobInput} (followed : budgeting.Followed s)
    (creates : written s label = some (.createJob input)) : 1 ≤ input.maxAttempts := by
  obtain ⟨index,ω,_,awaiting,_⟩ := written_eq_some creates
  obtain ⟨call,rest,found,awaits⟩ := State.awaits_eq_some.mp awaiting
  have allowed : (Op.job (.createJob input)).budgeted = true := followed.allowed found awaits
  exact of_decide_eq_true allowed

theorem inserted_withinBudget {input : EnqueueJobInput} (affordable : 1 ≤ input.maxAttempts) :
    (inserted input).WithinBudget where
  spent := Nat.zero_le _
  left _ := affordable

theorem change_withinBudget {write : JobWrite} {job : IJob} (selected : write.selects job = true)
    (within : job.WithinBudget)
    (spared : ∀ cutoff, write = .resetStaleJobs cutoff → job.attempts < job.maxAttempts) :
    (write.change job).WithinBudget := by
  cases write with
  | createJob input => exact within
  | claimJob target version now =>
    have pending : job.status = .pending := by
      simp only [JobWrite.selects,claimable,Bool.and_eq_true,decide_eq_true_eq] at selected
      exact selected.2.1
    have room := within.left pending
    refine ⟨?_,fun status => by cases status⟩
    change job.attempts + 1 ≤ job.maxAttempts
    omega
  | markCompleted | markFailed | markDead | cancelJob =>
    exact ⟨within.spent,fun status => by cases status⟩
  | resetStaleJobs cutoff => exact ⟨within.spent,fun _ => spared cutoff rfl⟩

theorem withinBudget_step (followed : budgeting.Followed s)
    (spared : restoresExhausted s label = false) (within : s.world.WithinBudget) :
    (System.machine.step s label).world.WithinBudget := by
  intro jobId after stored
  have moves := System.document_moves s label jobId
  rw [Option.mem_def.mp stored] at moves
  generalize before : s.world.jobs.lookup jobId = found at moves
  cases moves with
  | kept => exact within jobId after before
  | created input is => exact inserted_withinBudget (created_budgeted followed is)
  | changed write job is selected =>
    refine change_withinBudget selected (within jobId job before) ?_
    rintro cutoff rfl
    have isStale : stale cutoff job = true := selected
    simp only [restoresExhausted,is,List.any_eq_false] at spared
    have here := spared job (Collection.lookup_mem before)
    simp only [isStale,Bool.true_and,decide_eq_true_eq] at here
    omega

/-- The state of every document while no reset restores one without attempts. -/
structure Affordable (s : SystemState) : Prop where
  followed : budgeting.Followed s
  within : s.world.WithinBudget

theorem affordable_step (s : SystemState) (label : SystemLabel)
    (spared : restoresExhausted s label = false) (affordable : Affordable s) :
    Affordable (System.machine.step s label) where
  followed := Protocol.within_step label affordable.followed
  within := withinBudget_step affordable.followed spared affordable.within

/-- The attempts granted to the documents that `jobId` has in a run: those that are
deleted on the way, and the last. -/
def allowance (jobId : String) (s : SystemState) : List SystemLabel → Nat
  | [] => (s.world.jobs.lookup jobId).elim 0 IJob.maxAttempts
  | label :: labels =>
    (if deletes jobId s label then (s.world.jobs.lookup jobId).elim 0 IJob.maxAttempts else 0) +
      allowance jobId (System.machine.step s label) labels

theorem allowance_kept
    (kept : System.machine.Along (fun s label => deletes jobId s label = false) s labels) :
    allowance jobId s labels =
      ((System.machine.run s labels).world.jobs.lookup jobId).elim 0 IJob.maxAttempts := by
  induction labels generalizing s with
  | nil => rfl
  | cons label labels ih =>
    have later := ih kept.2
    simp only [allowance,kept.1,Machine.run_cons]
    simpa using later

variable (jobId) in
theorem attempts_le (within : s.world.WithinBudget) :
    attemptsAt jobId s.world ≤ (s.world.jobs.lookup jobId).elim 0 IJob.maxAttempts := by
  unfold attemptsAt
  cases stored : s.world.jobs.lookup jobId with
  | none => exact Nat.le_refl 0
  | some job => exact (within jobId job stored).spent

theorem deletes_unclaimed (deleted : deletes jobId s label = true) : claims jobId s label = false := by
  cases label with
  | environment event => rfl
  | _ => simp [deletes,outlives] at deleted

variable (jobId) in
/-- Claims are paid for by the documents that they win. -/
theorem claims_run (affordable : Affordable s)
    (spared : System.machine.Along (fun s label => restoresExhausted s label = false) s labels) :
    attemptsAt jobId s.world + System.machine.countAlong (claims jobId) s labels ≤
      allowance jobId s labels := by
  induction labels generalizing s with
  | nil => exact attempts_le jobId affordable.within
  | cons label labels ih =>
    have later := ih (affordable_step s label spared.1 affordable) spared.2
    simp only [Machine.countAlong,allowance]
    cases deleted : deletes jobId s label with
    | true =>
      have paid := attempts_le jobId affordable.within
      simp only [deletes_unclaimed deleted,Bool.toNat_false,if_true]
      omega
    | false =>
      have counted : attemptsAt jobId (System.machine.step s label).world =
        attemptsAt jobId s.world + (claims jobId s label).toNat := attempts_step deleted
      simp only [Bool.false_eq_true,if_false]
      omega

section Handlers

variable {index : Nat} {ω : Oracle} {call : SystemCall} {op : Op}
variable {rest : Except Thrown op.Reply → Async Unit}

def armed (jobId : String) (s : SystemState) : Nat := s.calls.countP (ready jobId).token.holder

theorem arms (found : s.calls[index]? = some call) (awaits : call.program = .await op rest)
    (armed : (ready jobId).token.holder (call.advance op rest (perform op ω s.world).1) = true) :
    (ready jobId).token.holder call = true ∨ claims jobId s (.resume index ω) = true := by
  have owned : (ready jobId).test (ExecutePhase.next (execution.phase call) op
      (perform op ω s.world).1) = true := (Bool.and_eq_true_iff.mp armed).2
  rcases (ready jobId).entered _ _ _ owned with kept | ⟨target,version,now,job,idle,rfl,won⟩
  · left
    rw [holder_awaiting awaits]
    exact kept
  · right
    rw [won] at owned
    rw [idle] at won
    have replied := claimed_replies won
    obtain ⟨key,_,_⟩ := free_claimed replied
    obtain rfl : target = jobId := key.symm.trans ((ready jobId).claimed job owned)
    obtain ⟨performed,stored,at_target,passes,_⟩ := claimJob_replies replied
    have awaiting : s.awaits index = some (.job (.claimJob target version now)) :=
      State.awaits_eq_some.mpr ⟨call,rest,found,awaits⟩
    simp [claims,written,awaiting,performed,Delivery.applies,at_target,passes]

theorem armed_answered (followed : execution.Followed s) (found : s.calls[index]? = some call)
    (awaits : call.program = .await op rest) :
    (startsHandler jobId s (.resume index ω)).toNat +
        armed jobId (System.machine.answered s index call op rest ω) ≤
      armed jobId s + (claims jobId s (.resume index ω)).toNat := by
  have counted := Machine.countP_answered (ready jobId).token.holder rest ω found
    (ready jobId).token.fresh
  simp only [System.machine_perform] at counted
  cases starting : startsHandler jobId s (.resume index ω) with
  | true =>
    obtain ⟨_,_,_,_,_,same,there,starts,before,after⟩ := starting_call followed starting
    obtain ⟨rfl,rfl⟩ := Label.resume.inj same
    obtain rfl := Option.some.inj (found.symm.trans there)
    obtain ⟨rfl,rfl⟩ := Program.await.inj (awaits.symm.trans starts)
    rw [before,after] at counted
    simp only [armed,Bool.toNat_true,Bool.toNat_false] at *
    omega
  | false =>
    have gained : ((ready jobId).token.holder
        (call.advance op rest (perform op ω s.world).1)).toNat ≤
          ((ready jobId).token.holder call).toNat + (claims jobId s (.resume index ω)).toNat := by
      cases holds : (ready jobId).token.holder (call.advance op rest (perform op ω s.world).1) with
      | false => exact Nat.zero_le _
      | true => rcases arms found awaits holds with held | claimed <;> simp [*]
    simp only [armed,Bool.toNat_false] at *
    omega

end Handlers

variable (jobId) in
theorem armed_step (followed : execution.Followed s) (label : SystemLabel) :
    (startsHandler jobId s label).toNat + armed jobId (System.machine.step s label) ≤
      armed jobId s + (claims jobId s label).toNat := by
  have moves := System.machine.step_moves s label
  generalize System.machine.step s label = t at moves
  cases moves with
  | submit request =>
    have fresh := (ready jobId).token.fresh request
    simp only [startsHandler,armed,List.countP_append,List.countP_singleton,fresh]
    simp
  | idle index ω settled => simp [startsHandler,settled]
  | answer index ω call op rest found awaits => exact armed_answered followed found awaits
  | absent => simp [startsHandler]
  | crash index call found =>
    have counted := Machine.countP_set (ready jobId).token.holder found
      (System.machine.crashCall call)
    have fewer : ((ready jobId).token.holder (System.machine.crashCall call)).toNat ≤
        ((ready jobId).token.holder call).toNat :=
      Bool.toNat_le_toNat ((ready jobId).token.crashed call)
    simp only [startsHandler,armed,Bool.toNat_false]
    omega
  | environment => simp [startsHandler,armed]

variable (labels jobId) in
/-- Each invocation of the handler has a claim of its own. -/
theorem armed_run (followed : execution.Followed s) :
    System.machine.countAlong (startsHandler jobId) s labels +
        armed jobId (System.machine.run s labels) ≤
      armed jobId s + System.machine.countAlong (claims jobId) s labels := by
  have free : System.machine.Along (fun _ _ => True) s labels :=
    Machine.along_forall fun _ _ => trivial
  exact Machine.countAlong_potential execution.Followed (fun s label _ => execution_followed s label)
    (armed jobId) (fun _ label _ followed => armed_step jobId followed label) free followed

/-- The retry budget of every document and handler along a run. -/
structure Budgeted (s : SystemState) (labels : List SystemLabel) : Prop where
  documents : ∀ t, System.machine.Reached s labels t →
    ∀ job ∈ t.world.jobs.docs, job.attempts ≤ job.maxAttempts
  handlers : ∀ jobId, System.machine.countAlong (startsHandler jobId) s labels ≤
    allowance jobId s labels
  undeleted : ∀ jobId job,
    System.machine.Along (fun s label => deletes jobId s label = false) s labels →
    (System.machine.run s labels).world.jobs.lookup jobId = some job →
    System.machine.countAlong (startsHandler jobId) s labels ≤ job.maxAttempts

/-- As long as no stale reset restores a document without attempts, no document
exceeds its attempts, and the handlers of a job are invoked at most that often. -/
theorem retry_budget (world : World) (labels : List SystemLabel) (within : world.WithinBudget)
    (spared : System.machine.Along (fun s label => restoresExhausted s label = false)
      (initial world) labels) : Budgeted (initial world) labels := by
  have affordable : Affordable (initial world) := ⟨budgeting.followed_initial world,within⟩
  have handlers : ∀ jobId, System.machine.countAlong (startsHandler jobId) (initial world) labels ≤
      allowance jobId (initial world) labels := by
    intro jobId
    have paid := claims_run jobId affordable spared
    have invoked := armed_run labels jobId (execution.followed_initial world)
    have none : armed jobId (initial world) = 0 := rfl
    omega
  refine ⟨?_,handlers,?_⟩
  · intro t reached job member
    have later := Machine.invariant_reached Affordable affordable_step spared affordable reached
    exact (later.within job.jobId job (Collection.lookup_of_mem member)).spent
  · intro jobId job kept stored
    have granted := handlers jobId
    rw [allowance_kept kept,stored] at granted
    exact granted

def restored : List SystemLabel :=
  [.submit (.enqueue reportRequest)] ++ drive 0 3 0 ++ [.submit (.run "a" reportId)] ++
    drive 1 7 0 ++ [.crash 1,.submit .watchdogTick] ++ drive 2 2 400000

theorem retry_budget_restored :
    Budgeted (initial World.empty) (restored ++ [.submit (.run "b" reportId)] ++ drive 3 9 400000) :=
  retry_budget World.empty _ (fun _ _ stored => by cases stored) (by decide +kernel)

/-- The third rejection of a report leaves its document running. The watchdog restores
it, and it is claimed and handled a fourth time. -/
theorem handled_beyond_budget :
    ¬ ∀ labels, Budgeted (initial World.empty) labels := by
  intro budgeted
  have budget := budgeted (exhausting ++ [.submit (.run "b" reportId)] ++ drive 12 9 1200000)
  have handled := budget.handlers reportId
  exact absurd handled (by decide +kernel)

end JobScheduler
