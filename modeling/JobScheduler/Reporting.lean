import JobScheduler.Exclusion

/-! Reporting of outcomes. Success is reported as success, and every attempt once, as
long as no bookkeeping after a resolved handler fails: one `try` block covers both, so
a failing bookkeeping call enters the `catch` block of the handler. -/
namespace JobScheduler

open ExecutePhase JobRepository

def settlement : Exchange signature Thrown → Option JobExecutionStatus
  | ⟨.handlerSettle _,.ok _⟩ => some .completed
  | ⟨.handlerSettle _,.error _⟩ => some .failed
  | _ => none

def handlerOutcome (call : SystemCall) : Option JobExecutionStatus :=
  call.history.findSome? settlement

/-- The writes that give a document the status failed or dead. -/
def JobWrite.fails : JobWrite → Bool
  | .markFailed _ _ _ _ _ | .markDead _ _ => true
  | _ => false

/-- The operation leaves a trace of a failed run: a record, an event, a status or a
dead letter. -/
def Op.leavesFailure (op : Op) (ω : Oracle) (w : World) : Bool :=
  match op with
  | .createExecution record => (op.inserts ω).any fun _ => record.status = .failed
  | .publish .jobFailed _ => ω.publish.isNone
  | .job write => write.fails && ω.delivery.applies && w.jobs.docs.any write.selects
  | .commitDeadLetter letter type payload createdAt =>
    ω.delivery.applies && (w.commitDeadLetter letter type payload createdAt).isSome
  | _ => false

/-- A call whose handler resolved leaves a trace of failure. -/
def misreports (s : SystemState) : SystemLabel → Bool
  | .resume index ω => s.calls[index]?.any fun call =>
      handlerOutcome call = some .completed &&
        call.program.head.any fun op => op.leavesFailure ω s.world
  | _ => false

/-- A record that is inserted carries the outcome of the handler of its call. -/
def recordsOutcome (s : SystemState) : SystemLabel → Bool
  | .resume index ω => s.calls[index]?.all fun call =>
      call.program.head.all fun op =>
        (op.inserts ω).all fun record => handlerOutcome call = some record.status
  | _ => true

def ofAttempt (jobId : String) (attempt : Nat) (record : IExecution) : Bool :=
  record.jobId = jobId && record.attempt = attempt

/-- Success is never reported as failure, and each attempt is recorded at most once,
with the outcome of its handler. -/
structure ReportsOutcome (world : World) (labels : List SystemLabel) : Prop where
  unfailed : System.machine.Along (fun s label => misreports s label = false) (initial world) labels
  outcome : System.machine.Along (fun s label => recordsOutcome s label = true)
    (initial world) labels
  once : ∀ t, System.machine.Reached (initial world) labels t → ∀ jobId attempt,
    t.world.executions.countP (ofAttempt jobId attempt) ≤ 1

def bookkeepingFails (s : SystemState) : SystemLabel → Bool
  | .resume index ω => s.calls[index]?.any fun call =>
      handlerOutcome call = some .completed &&
        call.program.head.any fun op => !(perform op ω s.world).1.isOk
  | _ => false

/-- Bookkeeping succeeds and no document expires. -/
def KeepsBooks (s : SystemState) (label : SystemLabel) : Prop :=
  bookkeepingFails s label = false ∧ ∀ job ∈ s.world.jobs.docs, expires job.jobId s label = false

instance (s : SystemState) (label : SystemLabel) : Decidable (KeepsBooks s label) :=
  inferInstanceAs (Decidable (_ ∧ ∀ job ∈ s.world.jobs.docs, _))

namespace ExecutePhase

def outcome : ExecutePhase → Option JobExecutionStatus
  | .idle | .claimed _ | .handling _ => none
  | .resolved _ | .recorded _ | .relapsed _ | .misreporting _ => some .completed
  | .rejected _ | .reporting _ => some .failed

/-- In the `catch` block although the handler has resolved. -/
def lapsed : ExecutePhase → Bool
  | .relapsed _ | .misreporting _ => true
  | _ => false

theorem outcome_next {phase : ExecutePhase} {op : Op} (ω : Oracle) (w : World)
    (may : allowed phase op) :
    (settlement ⟨op,(perform op ω w).1⟩).or phase.outcome =
      (next phase op (perform op ω w).1).outcome := by
  cases op with
  | handlerSettle job =>
    obtain rfl := allowed_handlerSettle may
    cases (perform (.handlerSettle job) ω w).1 <;> rfl
  | handlerStart job =>
    obtain rfl := allowed_handlerStart may
    rfl
  | _ =>
    simp only [settlement,Option.none_or]
    unfold next
    split <;> first | rfl | contradiction

end ExecutePhase

variable {jobId : String} {attempt : Nat} {s t : SystemState} {label : SystemLabel}
variable {labels : List SystemLabel}

def World.attempts (w : World) (jobId : String) : Nat :=
  ((w.jobs.lookup jobId).map IJob.attempts).getD 0

namespace ExecutePhase

def isOwing (jobId : String) (attempt : Nat) : ExecutePhase → Bool
  | .claimed job | .handling job | .resolved job | .rejected job =>
    job.jobId = jobId && job.attempts = attempt
  | _ => false

def owing (jobId : String) (attempt : Nat) : Stage jobId where
  test := isOwing jobId attempt
  idle := rfl
  claimed job owned := by
    have both : job.jobId = jobId ∧ job.attempts = attempt := by simpa [isOwing] using owned
    exact both.1
  entered phase op reply owned := by
    unfold next at owned ⊢
    split at owned <;> first
      | exact .inl owned
      | exact .inr ⟨_,_,_,_,rfl,rfl,rfl⟩
      | cases owned

end ExecutePhase

theorem attempts_perform (op : Op) (ω : Oracle) (w : World) :
    w.attempts jobId ≤ (perform op ω w).2.attempts jobId := by
  simp only [World.attempts,perform_lookup]
  cases op with
  | job write =>
    simp only [Op.update]
    split
    · cases stored : w.jobs.lookup jobId with
      | none => exact Nat.zero_le _
      | some job =>
        simp only [JobWrite.update,Option.map_some,Option.getD_some]
        split
        · cases write with
          | claimJob => exact Nat.le_succ job.attempts
          | markCompleted | markFailed =>
            simp [JobWrite.change,completed,failed,preFindOneAndUpdate]
          | _ => exact Nat.le_refl job.attempts
        · exact Nat.le_refl _
    · exact Nat.le_refl _
  | _ => exact Nat.le_refl _

theorem attempts_claimed {target : String} {version : Nat} {now : Int} {ω : Oracle} {w : World}
    {job : IJob} (won : (perform (.job (.claimJob target version now)) ω w).1 = .ok (some job)) :
    w.attempts target < job.attempts ∧
      (perform (.job (.claimJob target version now)) ω w).2.attempts target = job.attempts := by
  obtain ⟨performed,stored,found,passes,rfl⟩ := claimJob_replies won
  have key : stored.jobId = target := Collection.lookup_key found
  have selected : (JobWrite.claimJob target version now).selects stored = true := by
    simp [JobWrite.selects,key,passes]
  refine ⟨?_,?_⟩
  · rw [World.attempts,found]
    exact Nat.lt_succ_self stored.attempts
  · rw [World.attempts,perform_lookup,found]
    simp [Op.update,performed,Delivery.applies,JobWrite.update,selected,JobWrite.change]

/-- The right to record an attempt: free until its claim, then held by the claiming
call up to its record. -/
def recordToken (jobId : String) (attempt : Nat) : Token System.machine where
  free w := w.attempts jobId < attempt
  holder call := (owing jobId attempt).test (execution.phase call)
  fresh _ := rfl
  crashed _ held := held
  taken call op rest ω w awaits held := by
    have owed : (owing jobId attempt).test
        (ExecutePhase.next (execution.phase call) op (perform op ω w).1) = true := held
    rcases (owing jobId attempt).entered _ _ _ owed with kept | ⟨target,version,now,job,idle,rfl,won⟩
    · exact .inl kept
    · right
      rw [won] at owed
      rw [idle] at won
      obtain ⟨rfl,rfl⟩ : job.jobId = jobId ∧ job.attempts = attempt := by
        simpa [owing,isOwing] using owed
      have reply := claimed_replies won
      obtain ⟨key,_⟩ := free_claimed reply
      obtain ⟨before,after⟩ := attempts_claimed reply
      subst key
      exact ⟨decide_eq_true before,by simp [after]⟩

theorem recordToken_issued (attempt : Nat) (kept : expires jobId s label = false) :
    (recordToken jobId attempt).issued s (System.machine.step s label) = false := by
  have grows : s.world.attempts jobId ≤ (System.machine.step s label).world.attempts jobId := by
    have moves := System.machine.step_moves s label
    generalize System.machine.step s label = t at moves
    cases moves with
    | submit | idle | absent | crash => exact Nat.le_refl _
    | answer index ω call op rest found awaits => exact attempts_perform op ω s.world
    | environment event =>
      simp [World.attempts,environment_keeps kept]
  simp only [Token.issued,recordToken]
  cases held : decide (s.world.attempts jobId < attempt) with
  | true => rfl
  | false =>
    have spent : ¬ s.world.attempts jobId < attempt := of_decide_eq_false held
    have still : ¬ (System.machine.step s label).world.attempts jobId < attempt := by omega
    simp [still]

structure Booked (s : SystemState) : Prop where
  followed : execution.Followed s
  outcome : ∀ call ∈ s.calls, handlerOutcome call = (execution.phase call).outcome
  unlapsed : ∀ call ∈ s.calls, (execution.phase call).lapsed = false
  once : ∀ jobId attempt, s.world.executions.countP (ofAttempt jobId attempt) +
    (recordToken jobId attempt).count s ≤ 1

/-- Records come from an attempt that owes one, with the outcome of its handler. -/
theorem allowed_createExecution {phase : ExecutePhase} {record : IExecution}
    (may : allowed phase (.createExecution record)) (unlapsed : phase.lapsed = false) :
    phase.outcome = some record.status ∧
      isOwing record.jobId record.attempt phase = true ∧
      ∀ reply, isOwing record.jobId record.attempt (next phase (.createExecution record) reply) =
        false := by
  cases phase with
  | idle => cases may
  | resolved job =>
    obtain ⟨sameId,sameAttempt,status⟩ := may
    refine ⟨congrArg some status.symm,by simp [isOwing,sameId,sameAttempt],?_⟩
    rintro (_ | _) <;> rfl
  | rejected job =>
    obtain ⟨sameId,sameAttempt,status⟩ := may
    refine ⟨congrArg some status.symm,by simp [isOwing,sameId,sameAttempt],fun _ => rfl⟩
  | relapsed job => cases unlapsed
  | _ => exact False.elim may

theorem KeepsBooks.unexpired (keeps : KeepsBooks s label) (jobId : String) :
    expires jobId s label = false := by
  rw [Bool.eq_false_iff]
  intro expired
  obtain ⟨job,member,rfl⟩ := freed_document (Bool.or_eq_true_iff.mpr (.inr expired))
  rw [keeps.2 job member] at expired
  cases expired

theorem record_answer {index : Nat} {call : SystemCall} {op : Op}
    {rest : Except Thrown op.Reply → Async Unit} {ω : Oracle} (booked : Booked s)
    (found : s.calls[index]? = some call) (awaits : call.program = .await op rest)
    (issued : (recordToken jobId attempt).issued s
      (System.machine.answered s index call op rest ω) = false) :
    (op.inserts ω).countP (ofAttempt jobId attempt) +
        (recordToken jobId attempt).count (System.machine.answered s index call op rest ω) ≤
      (recordToken jobId attempt).count s := by
  have moved := (recordToken jobId attempt).count_moves (.answer index ω call op rest found awaits)
  by_cases inserts : (op.inserts ω).countP (ofAttempt jobId attempt) = 0
  · simp only [issued,Bool.toNat_false] at moved
    omega
  · cases op with
    | createExecution record =>
      have member := List.mem_of_getElem? found
      obtain ⟨_,owed,recorded⟩ := allowed_createExecution (booked.followed.allowed found awaits)
        (booked.unlapsed call member)
      obtain ⟨rfl,rfl⟩ : record.jobId = jobId ∧ record.attempt = attempt := by
        simp only [Op.inserts] at inserts
        split at inserts
        · simpa [ofAttempt] using inserts
        · simp at inserts
      have spent := (recordToken record.jobId record.attempt).count_spent ω found awaits owed
        (recorded _)
      have once : ((Op.createExecution record).inserts ω).countP
          (ofAttempt record.jobId record.attempt) ≤ 1 := by
        simp only [Op.inserts]
        split
        · exact List.countP_le_length
        · exact Nat.zero_le 1
      simp only [issued,Bool.toNat_false] at spent
      omega
    | _ => exact absurd rfl inserts

theorem record_step (attempt : Nat) (booked : Booked s) (kept : expires jobId s label = false) :
    (System.machine.step s label).world.executions.countP (ofAttempt jobId attempt) +
        (recordToken jobId attempt).count (System.machine.step s label) ≤
      s.world.executions.countP (ofAttempt jobId attempt) + (recordToken jobId attempt).count s := by
  have issued := recordToken_issued attempt kept
  have moves := System.machine.step_moves s label
  have counted := (recordToken jobId attempt).count_moves moves
  generalize System.machine.step s label = t at moves issued counted ⊢
  simp only [issued,Bool.toNat_false] at counted
  cases moves with
  | submit | idle | absent | crash => exact Nat.add_le_add_left counted _
  | answer index ω call op rest found awaits =>
    have spent := record_answer booked found awaits issued
    have appended : (System.machine.answered s index call op rest ω).world.executions =
        s.world.executions ++ op.inserts ω := perform_executions op ω s.world
    rw [appended,List.countP_append]
    omega
  | environment event => cases event <;> exact Nat.add_le_add_left counted _

/-- Only an error after a resolved handler leads a call astray. -/
theorem lapsed_next {phase : ExecutePhase} {op : Op} {reply : Except Thrown op.Reply}
    (before : phase.lapsed = false) (lapses : (next phase op reply).lapsed = true) :
    phase.outcome = some .completed ∧ reply.isOk = false := by
  unfold next at lapses
  split at lapses <;> first
    | exact ⟨rfl,rfl⟩
    | (rw [before] at lapses; cases lapses)
    | (simp [lapsed] at lapses; done)
    | simp [lapsed] at before

theorem booked_step (keeps : KeepsBooks s label) (booked : Booked s) :
    Booked (System.machine.step s label) where
  followed := execution_followed s label booked.followed
  outcome := by
    refine Machine.every_moves _ (System.machine.step_moves s label) (fun _ => rfl) ?_
      (fun _ _ _ _ same => same) booked.outcome
    intro index ω call op rest _ found awaits same
    have moved := outcome_next ω s.world (booked.followed.allowed found awaits)
    rw [← same] at moved
    refine Eq.trans ?_ moved
    simp only [handlerOutcome,Call.advance,List.findSome?_cons,System.machine_perform]
    cases settlement ⟨op,(perform op ω s.world).1⟩ <;> rfl
  unlapsed := by
    refine Machine.every_moves _ (System.machine.step_moves s label) (fun _ => rfl) ?_
      (fun _ _ _ _ same => same) booked.unlapsed
    intro index ω call op rest is found awaits unlapsed
    rw [execution_advance,Bool.eq_false_iff]
    intro lapses
    obtain ⟨resolved,failing⟩ := lapsed_next unlapsed lapses
    have outcome := booked.outcome call (List.mem_of_getElem? found)
    have succeeds := keeps.1
    rw [is] at succeeds
    simp [bookkeepingFails,found,outcome,resolved,awaits,Program.head] at succeeds
    rw [System.machine_perform] at failing
    simp [succeeds] at failing
  once jobId attempt := by
    have step := record_step attempt booked (keeps.unexpired jobId)
    have once := booked.once jobId attempt
    omega

theorem booked_initial : Booked (initial World.empty) where
  followed := execution.followed_initial World.empty
  outcome call member := by cases member
  unlapsed call member := by cases member
  once jobId attempt := by
    have one : (recordToken jobId attempt).count (initial World.empty) ≤ 1 :=
      (recordToken jobId attempt).count_initial World.empty
    have none : (initial World.empty).world.executions.countP (ofAttempt jobId attempt) = 0 := rfl
    omega

/-- Bookkeeping that has not failed leaves no trace of failure. -/
theorem unlapsed_leaves {phase : ExecutePhase} {op : Op} {ω : Oracle} {w : World}
    (may : allowed phase op) (unlapsed : phase.lapsed = false)
    (resolved : phase.outcome = some .completed) : op.leavesFailure ω w = false := by
  cases phase with
  | resolved job =>
    cases op with
    | createExecution record =>
      have completed : record.status = .completed := may.2.2
      simp [Op.leavesFailure,completed]
    | job write => cases write <;> first | rfl | exact False.elim may
    | commitDeadLetter => exact False.elim may
    | publish => exact False.elim may
    | _ => rfl
  | recorded job =>
    cases op with
    | publish key payload => cases key <;> first | rfl | exact False.elim may
    | _ => first | rfl | exact False.elim may
  | relapsed | misreporting => simp [lapsed] at unlapsed
  | _ => simp [outcome] at resolved

theorem booked_unfailed (booked : Booked s) : misreports s label = false := by
  rw [Bool.eq_false_iff]
  intro failing
  unfold misreports at failing
  split at failing
  · rename_i index ω
    obtain ⟨call,found,reports⟩ := (Option.any_eq_true ..).mp failing
    obtain ⟨resolved,traced⟩ : handlerOutcome call = some .completed ∧
        call.program.head.any (fun op => op.leavesFailure ω s.world) = true := by
      simpa using reports
    obtain ⟨op,head,leaves⟩ := (Option.any_eq_true ..).mp traced
    obtain ⟨rest,awaits⟩ := Program.head_eq_some.mp head
    have member := List.mem_of_getElem? found
    rw [booked.outcome call member] at resolved
    rw [unlapsed_leaves (booked.followed.allowed found awaits) (booked.unlapsed call member)
      resolved] at leaves
    cases leaves
  · cases failing

theorem booked_outcome (booked : Booked s) : recordsOutcome s label = true := by
  unfold recordsOutcome
  split
  · rename_i index ω
    rw [Option.all_eq_true]
    intro call found
    rw [Option.all_eq_true]
    intro op head
    rw [List.all_eq_true]
    intro record inserted
    cases op with
    | createExecution created =>
      obtain ⟨rest,awaits⟩ := Program.head_eq_some.mp head
      have member := List.mem_of_getElem? found
      obtain ⟨outcome,_⟩ := allowed_createExecution (booked.followed.allowed found awaits)
        (booked.unlapsed _ member)
      simp only [Op.inserts] at inserted
      split at inserted
      · obtain rfl := List.mem_singleton.mp inserted
        simp [booked.outcome _ member,outcome]
      · cases inserted
    | _ => cases inserted
  · rfl

theorem booked_run (keeps : System.machine.Along KeepsBooks s labels) (booked : Booked s) :
    System.machine.Along (fun s label => misreports s label = false ∧
      recordsOutcome s label = true) s labels :=
  Machine.along_invariant Booked (fun _ _ => booked_step)
    (fun _ _ _ booked => ⟨booked_unfailed booked,booked_outcome booked⟩) keeps booked

/-- Outcomes are reported as they are while bookkeeping succeeds. -/
theorem reports_outcome (labels : List SystemLabel)
    (keeps : System.machine.Along KeepsBooks (initial World.empty) labels) :
    ReportsOutcome World.empty labels where
  unfailed := Machine.along_mono (fun _ _ => And.left) (booked_run keeps booked_initial)
  outcome := Machine.along_mono (fun _ _ => And.right) (booked_run keeps booked_initial)
  once t reached jobId attempt := by
    have booked := Machine.invariant_reached Booked (fun s label => booked_step) keeps
      booked_initial reached
    have once := booked.once jobId attempt
    omega

/-- The handler of a report resolves and its execution is recorded; then the publish of
`job.completed` fails, and the same attempt is recorded as failed. -/
def unpublished : List SystemLabel :=
  [.submit (.enqueue reportRequest)] ++ drive 0 3 0 ++ [.submit (.tick "a" 0)] ++ drive 1 9 0 ++
  drive 2 16 0 ++ [.resume 2 { calm 0 with publish := some (.error (text "no channel") none) }] ++
  drive 2 5 0

theorem success_reported_failed : ¬ ∀ labels, ReportsOutcome World.empty labels := by
  intro reports
  exact absurd (reports unpublished).unfailed (by decide +kernel)

theorem reports_outcome_published :
    ReportsOutcome World.empty ([.submit (.enqueue reportRequest)] ++ drive 0 3 0 ++
      [.submit (.tick "a" 0)] ++ drive 1 9 0 ++ drive 2 17 0) :=
  reports_outcome _ (by decide +kernel)

end JobScheduler
