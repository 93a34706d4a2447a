import JobScheduler.DeadLettering

/-! What the catch block of `execute` writes about a rejection. The whole message goes
into the execution record and into the dead letter, whose schemas bound its length,
and a refused record ends the block before `handleFailure`. -/
namespace JobScheduler

open JobRepository

/-- What a handler rejects with: a value that has a message, or one on which
`String(error)` throws itself. -/
inductive Rejected where
  | shown (error : Thrown)
  | unshown (conversion : Thrown)

namespace JobExecutor

/-- The `catch` block for any rejection: the message is built before the first call. -/
def onRejection (instanceId : String) (startedAt : Int) (claimed : IJob) : Rejected → Async Unit
  | .shown error => recordFailure instanceId startedAt claimed error
  | .unshown conversion => do
    let _ ← dateNow
    throw conversion

def failedRecord (instanceId : String) (startedAt : Int) (claimed : IJob) (error : Thrown)
    (failedAt completedAt : Int) : IExecution where
  jobId := claimed.jobId
  jobType := claimed.jobType
  tenantId := claimed.tenantId
  attempt := claimed.attempts
  status := .failed
  instanceId := instanceId
  startedAt := startedAt
  completedAt := completedAt
  durationMs := failedAt - startedAt
  error := some error.message
  stack := error.stack

end JobExecutor

open JobExecutor

def StoresAvailable (oracles : Nat → Oracle) : Prop :=
  ∀ n, (oracles n).delivery = .performed ∧ (oracles n).publish = none

structure Identified (instanceId : String) (job : IJob) : Prop where
  jobId : job.jobId ≠ ""
  tenantId : job.tenantId ≠ ""
  instanceId : instanceId ≠ ""

def failurePath (instanceId : String) (startedAt : Int) (claimed : IJob) (rejected : Rejected)
    (oracles : Nat → Oracle) (w : World) : List Op :=
  Program.trace perform (onRejection instanceId startedAt claimed rejected) oracles w

def afterRejection (instanceId : String) (startedAt : Int) (claimed : IJob) (rejected : Rejected)
    (oracles : Nat → Oracle) (w : World) : World :=
  (Program.eval perform (onRejection instanceId startedAt claimed rejected) oracles w).world

/-- What a store is asked to write passes the validators of its schema. -/
def Op.Validated : Op → Prop
  | .createExecution record => record.valid = true
  | .commitDeadLetter letter _ _ _ => letter.valid = true
  | _ => True

def Op.reportsFailure : Op → Bool
  | .publish .jobFailed _ => true
  | _ => false

/-- Every record is valid, `handleFailure` is reached, and an exhausted job gets its
dead letter and its event. -/
structure FailureRecorded (instanceId : String) (startedAt : Int) (claimed : IJob)
    (rejected : Rejected) (oracles : Nat → Oracle) (w : World) : Prop where
  validated : ∀ op ∈ failurePath instanceId startedAt claimed rejected oracles w, op.Validated
  reached : (failurePath instanceId startedAt claimed rejected oracles w).any Op.reportsFailure = true
  filed : claimed.maxAttempts ≤ claimed.attempts →
    (afterRejection instanceId startedAt claimed rejected oracles w).letters claimed.jobId =
        w.letters claimed.jobId + 1 ∧
      (afterRejection instanceId startedAt claimed rejected oracles w).deathNotices claimed.jobId =
        w.deathNotices claimed.jobId + 1

def fitsExecution (startedAt failedAt : Int) (error : Thrown) : Bool :=
  startedAt ≤ failedAt && error.message.length ≤ 2000 && error.stack.all (·.length ≤ 5000)

def fitsDeadLetter (claimed : IJob) (error : Thrown) (w : World) : Bool :=
  error.message ≠ [] && (w.deadLetters.lookup claimed.jobId).isNone

/-- The rejections that are recorded in full. -/
def recordable (startedAt failedAt : Int) (claimed : IJob) (w : World) : Rejected → Bool
  | .shown error => fitsExecution startedAt failedAt error &&
      (claimed.attempts < claimed.maxAttempts || fitsDeadLetter claimed error w)
  | .unshown _ => false

section Recording

variable {instanceId : String} {startedAt : Int} {claimed : IJob} {error : Thrown}
variable {oracles : Nat → Oracle} {w : World}

def recordWritten (startedAt : Int) (instanceId : String) (claimed : IJob) (error : Thrown)
    (oracles : Nat → Oracle) : IExecution :=
  failedRecord instanceId startedAt claimed error (oracles 0).clock (oracles 2).clock

def recorded (record : IExecution) (claimed : IJob) (error : Thrown) : Async Unit := do
  await (.createExecution record)
  RetryService.handleFailure claimed error.message (claimed.version + 1)

def beforeRecord (claimed : IJob) : List Op :=
  [.dateNow,.delHeartbeat (HeartbeatWatchdog.heartbeatKey claimed.jobId),.dateNow]

theorem catch_enters (available : StoresAvailable oracles) :
    ∃ cleared : World, cleared.deadLetters = w.deadLetters ∧ cleared.outbox = w.outbox ∧
      failurePath instanceId startedAt claimed (.shown error) oracles w =
        beforeRecord claimed ++ Program.trace perform
          (recorded (recordWritten startedAt instanceId claimed error oracles) claimed error)
          (fun n => oracles (n + 3)) cleared ∧
      afterRejection instanceId startedAt claimed (.shown error) oracles w =
        (Program.eval perform
          (recorded (recordWritten startedAt instanceId claimed error oracles) claimed error)
          (fun n => oracles (n + 3)) cleared).world := by
  let heartbeat := HeartbeatWatchdog.heartbeatKey claimed.jobId
  have clears : (perform (.delHeartbeat heartbeat) (oracles 1) w).1 = .ok () := by
    simp only [perform,(available 1).1,deliver]
  refine ⟨(perform (.delHeartbeat heartbeat) (oracles 1) w).2,?_,?_,?_,?_⟩
  · simp only [perform,(available 1).1,deliver]
  · simp only [perform,(available 1).1,deliver]
  · exact congrArg (Op.dateNow :: ·) (Program.trace_answered clears)
  · rw [afterRejection,onRejection,recordFailure,dateNow,Program.eval_answered rfl,
      HeartbeatWatchdog.clearHeartbeat,Program.eval_answered clears]
    rfl

theorem path_refused (available : StoresAvailable oracles)
    (refused : (recordWritten startedAt instanceId claimed error oracles).valid = false) :
    failurePath instanceId startedAt claimed (.shown error) oracles w =
      beforeRecord claimed ++
        [.createExecution (recordWritten startedAt instanceId claimed error oracles)] := by
  obtain ⟨cleared,-,-,path,-⟩ := catch_enters available (w := w)
  have throws : (perform (.createExecution (recordWritten startedAt instanceId claimed error oracles))
      (oracles 3) cleared).1 = .error (oracles 3).refusal := by
    simp [perform,refused]
  rw [path,recorded,Program.trace_thrown throws]

theorem path_accepted (available : StoresAvailable oracles)
    (accepted : (recordWritten startedAt instanceId claimed error oracles).valid = true) :
    ∃ logged : World, logged.deadLetters = w.deadLetters ∧ logged.outbox = w.outbox ∧
      failurePath instanceId startedAt claimed (.shown error) oracles w =
        beforeRecord claimed ++
          .createExecution (recordWritten startedAt instanceId claimed error oracles) ::
          Program.trace perform (RetryService.handleFailure claimed error.message
            (claimed.version + 1)) (fun n => oracles (n + 4)) logged ∧
      afterRejection instanceId startedAt claimed (.shown error) oracles w =
        afterFailure claimed error.message (fun n => oracles (n + 4)) logged := by
  obtain ⟨cleared,letters,outbox,path,after⟩ := catch_enters available (w := w)
  let record := recordWritten startedAt instanceId claimed error oracles
  have records : (perform (.createExecution record) (oracles 3) cleared).1 = .ok () := by
    simp only [perform,(available 3).1,deliver,record,accepted,if_true]
  have written : (perform (.createExecution record) (oracles 3) cleared).2 =
      { cleared with executions := cleared.executions ++ [record] } := by
    simp only [perform,(available 3).1,deliver,record,accepted,if_true]
  refine ⟨(perform (.createExecution record) (oracles 3) cleared).2,?_,?_,?_,?_⟩
  · rw [written]
    exact letters
  · rw [written]
    exact outbox
  · rw [path,recorded,Program.trace_answered records]
  · rw [after,recorded,Program.eval_answered records]
    rfl

theorem handleFailure_validated {message : Text} {version : Nat}
    (valid : claimed.maxAttempts ≤ claimed.attempts → lettersValidly claimed message = true) :
    Program.Uses (σ := signature) Op.Validated
      (RetryService.handleFailure claimed message version) := by
  refine Program.Uses.bind (uses_await trivial) fun _ => ?_
  split
  · rename_i exhausted
    refine Program.Uses.bind (uses_await trivial) fun _ => Program.Uses.bind (uses_await trivial) fun _ => ?_
    refine Program.Uses.bind (Program.Uses.tryCatch ?_ ?_) fun _ =>
      Program.Uses.bind (uses_await trivial) fun _ => Program.uses_pure _
    · iterate 5 refine Program.Uses.bind (uses_await trivial) fun _ => ?_
      refine uses_await ?_
      simpa [Op.Validated,IDeadLetter.valid,IDeadLetter.validError,lettersValidly,Bool.and_assoc]
        using valid exhausted
    · exact fun e => Program.Uses.bind (uses_await trivial) fun _ => Program.uses_throw e
  · refine Program.Uses.bind ?_ fun nextRunAt => ?_
    · exact Program.Uses.bind (uses_await trivial) fun _ => Program.Uses.bind (uses_await trivial) fun _ =>
        Program.uses_pure _
    · refine Program.Uses.bind (Program.Uses.bind (uses_await trivial) fun _ => uses_await trivial) fun _ => ?_
      refine Program.Uses.bind (Program.Uses.bind (uses_await trivial) fun _ => Program.uses_pure _)
        fun _ => uses_await trivial

theorem handleFailure_reports (message : Text) (version : Nat) (oracles : Nat → Oracle) (w : World) :
    (Program.trace perform (RetryService.handleFailure claimed message version) oracles w).any
      Op.reportsFailure = true := rfl

end Recording

section Totality

variable {instanceId : String} {startedAt now : Int} {version : Nat} {stored : IJob}
variable {error : Thrown} {oracles : Nat → Oracle} {w : World}

theorem recordWritten_valid (identified : Identified instanceId stored) :
    (recordWritten startedAt instanceId (claimed version now stored) error oracles).valid =
      fitsExecution startedAt (oracles 0).clock error := by
  obtain ⟨jobId,tenantId,instanceId⟩ := identified
  simp [recordWritten,failedRecord,IExecution.valid,claimed,fitsExecution,jobId,tenantId,instanceId]

theorem letter_valid (identified : Identified instanceId stored)
    (short : error.message.length ≤ 2000) :
    lettersValidly (claimed version now stored) error.message = decide (error.message ≠ []) := by
  simp [lettersValidly,claimed,identified.jobId,identified.tenantId,short]

theorem committed_available (available : StoresAvailable oracles) (job : IJob) (message : Text) :
    committed job message oracles w =
      (lettersValidly job message && (w.deadLetters.lookup job.jobId).isNone) := by
  simp [committed,createCommits,(available _).1,(available _).2,Delivery.answers,Delivery.applies]

theorem unreached (available : StoresAvailable oracles) (identified : Identified instanceId stored)
    (long : fitsExecution startedAt (oracles 0).clock error = false) :
    ¬ FailureRecorded instanceId startedAt (claimed version now stored) (.shown error) oracles w := by
  intro recorded
  have reached := recorded.reached
  rw [path_refused available ((recordWritten_valid identified).trans long)] at reached
  exact Bool.false_ne_true reached

/-- A rejection that fits the execution record is reported, and an exhausted job gets
its letter exactly if the letter is valid and the first. -/
theorem recorded_iff_of_fits (available : StoresAvailable oracles)
    (identified : Identified instanceId stored)
    (fits : fitsExecution startedAt (oracles 0).clock error = true) :
    FailureRecorded instanceId startedAt (claimed version now stored) (.shown error) oracles w ↔
      ((claimed version now stored).maxAttempts ≤ (claimed version now stored).attempts →
        fitsDeadLetter (claimed version now stored) error w = true) := by
  have accepted : (recordWritten startedAt instanceId (claimed version now stored) error
      oracles).valid = true := (recordWritten_valid identified).trans fits
  have short : error.message.length ≤ 2000 := by
    simp only [fitsExecution,Bool.and_eq_true,decide_eq_true_eq] at fits
    exact fits.1.2
  obtain ⟨logged,letters,outbox,path,after⟩ := path_accepted available accepted (w := w)
  have valid : lettersValidly (claimed version now stored) error.message =
      decide (error.message ≠ []) := letter_valid identified short
  have later : StoresAvailable fun n => oracles (n + 4) := fun n => available (n + 4)
  have commits : committed (claimed version now stored) error.message (fun n => oracles (n + 4))
      logged = fitsDeadLetter (claimed version now stored) error w := by
    rw [committed_available later,valid,letters]
    rfl
  have effect (exhausted : (claimed version now stored).maxAttempts ≤
      (claimed version now stored).attempts) :=
    failure_effect error.message (fun n => oracles (n + 4)) logged exhausted
  have lettersKept (jobId : String) : logged.letters jobId = w.letters jobId := by
    rw [World.letters,letters,World.letters]
  have noticesKept (jobId : String) : logged.deathNotices jobId = w.deathNotices jobId := by
    rw [World.deathNotices,outbox,World.deathNotices]
  constructor
  · intro recorded exhausted
    have filed := (recorded.filed exhausted).1
    have counted := (effect exhausted).letters
    rw [commits] at counted
    rw [after,counted,lettersKept] at filed
    exact Bool.toNat_eq_one.mp (Nat.add_left_cancel filed)
  · intro fitsLetter
    refine ⟨?_,?_,?_⟩
    · intro op listed
      rw [path,List.mem_append,List.mem_cons] at listed
      rcases listed with early | rfl | late
      · simp only [beforeRecord,List.mem_cons,List.not_mem_nil,or_false] at early
        rcases early with rfl | rfl | rfl <;> trivial
      · exact accepted
      · refine Program.trace_uses (handleFailure_validated fun exhausted => ?_) op late
        have fitting := fitsLetter exhausted
        rw [fitsDeadLetter,Bool.and_eq_true] at fitting
        exact valid.trans fitting.1
    · rw [path,List.any_append,List.any_cons,handleFailure_reports]
      simp
    · intro exhausted
      have one : (committed (claimed version now stored) error.message
          (fun n => oracles (n + 4)) logged).toNat = 1 := by
        rw [commits,fitsLetter exhausted]
        rfl
      rw [after,(effect exhausted).letters,(effect exhausted).notices,one,lettersKept,noticesKept]
      exact ⟨rfl,rfl⟩

/-- A rejection is recorded in full exactly if it has a message of at most 2000 code units
and a stack of at most 5000, the clock has not gone back during the attempt, and, for
an exhausted job, the message is not empty and no letter exists yet. -/
theorem failure_recording_total_iff (instanceId : String) (startedAt : Int) (version : Nat)
    (now : Int) (stored : IJob) (rejected : Rejected) (oracles : Nat → Oracle) (w : World)
    (identified : Identified instanceId stored) (available : StoresAvailable oracles) :
    FailureRecorded instanceId startedAt (claimed version now stored) rejected oracles w ↔
      recordable startedAt (oracles 0).clock (claimed version now stored) w rejected = true := by
  cases rejected with
  | unshown conversion =>
    refine ⟨fun recorded => ?_,fun never => absurd never Bool.false_ne_true⟩
    exact absurd recorded.reached Bool.false_ne_true
  | shown error =>
    cases fits : fitsExecution startedAt (oracles 0).clock error with
    | false =>
      refine ⟨fun recorded => absurd recorded (unreached available identified fits),fun fitting => ?_⟩
      simp [recordable,fits] at fitting
    | true =>
      rw [recorded_iff_of_fits available identified fits,recordable,fits,Bool.true_and,
        Bool.or_eq_true,decide_eq_true_eq,← Nat.not_le,or_iff_not_imp_left,not_not]

end Totality

def lastChance : IJob := { dequeuedReport with attempts := 2, version := 2 }

theorem failure_recording_total_report :
    FailureRecorded "a" 0 (claimed 2 0 lastChance) (.shown (.value (text "timeout"))) (calm ·)
        World.empty ↔
      recordable 0 0 (claimed 2 0 lastChance) World.empty (.shown (.value (text "timeout"))) = true :=
  failure_recording_total_iff "a" 0 2 0 lastChance _ (calm ·) World.empty
    ⟨by decide,by decide,by decide⟩ fun _ => ⟨rfl,rfl⟩

/-- A message of 2001 code units is never reported, and a job whose last attempt rejects
with an empty message gets no dead letter. -/
theorem failures_unrecorded :
    (¬ ∀ instanceId startedAt version now stored rejected oracles w, Identified instanceId stored →
      StoresAvailable oracles →
      FailureRecorded instanceId startedAt (claimed version now stored) rejected oracles w) ∧
    ¬ FailureRecorded "a" 0 (claimed 2 0 lastChance) (.shown (.error [] none)) (calm ·)
      World.empty := by
  have identified : Identified "a" lastChance := ⟨by decide,by decide,by decide⟩
  have available : StoresAvailable (calm ·) := fun _ => ⟨rfl,rfl⟩
  constructor
  · intro total
    have long : fitsExecution 0 0 (.error (List.replicate 2001 65) none) = false := by decide +kernel
    exact unreached available identified long
      (total "a" 0 2 0 lastChance _ (calm ·) World.empty identified available)
  · intro recorded
    have fitting := (recorded_iff_of_fits available identified (by decide)).mp recorded (by decide)
    exact absurd fitting (by decide)

end JobScheduler
