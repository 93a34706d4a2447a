import JobScheduler.Effects
import JobScheduler.Lockstep
import JobScheduler.Vocabulary

/-! Availability of the broker. Two runs that differ in the outcomes of publishes only
execute jobs alike, as long as they agree on the publishes that the executor awaits
before it goes on with a job. The other publishes come last in their calls. -/
namespace JobScheduler

/-- What job execution reads and writes: all but the outbox and the broker's queues. -/
def World.stores (w : World) : World := { w with outbox := [], placed := [] }

/-- The events whose publish the executor awaits before it goes on with a job. -/
def RoutingKey.decisive : RoutingKey → Bool
  | .jobClaimed | .jobCompleted | .jobFailed => true
  | _ => false

def republish (outcome : Option Thrown) : SystemLabel → SystemLabel
  | .resume index ω => .resume index { ω with publish := outcome }
  | label => label

/-- A schedule, with the outcomes that publishes have in a second run. -/
abbrev TwoRuns := List (SystemLabel × Option Thrown)

def firstRun (runs : TwoRuns) : List SystemLabel := runs.map fun entry => entry.1

def secondRun (runs : TwoRuns) : List SystemLabel :=
  runs.map fun entry => republish entry.2 entry.1

def handlerInvoked (s : SystemState) : SystemLabel → Option IJob
  | .resume index _ =>
    match s.awaits index with
    | some (.handlerStart job) => some job
    | _ => none
  | _ => none

def handlersInvoked : SystemState → List SystemLabel → List IJob
  | _, [] => []
  | s, label :: labels =>
    (handlerInvoked s label).toList ++ handlersInvoked (System.machine.step s label) labels

/-- The same handlers are invoked, and documents, dead letters and queues are the same. -/
structure SameExecution (s t : SystemState) (runs : TwoRuns) : Prop where
  handlers : handlersInvoked s (firstRun runs) = handlersInvoked t (secondRun runs)
  jobs : (System.machine.run s (firstRun runs)).world.jobs =
    (System.machine.run t (secondRun runs)).world.jobs
  deadLetters : (System.machine.run s (firstRun runs)).world.deadLetters =
    (System.machine.run t (secondRun runs)).world.deadLetters
  sortedSets : (System.machine.run s (firstRun runs)).world.sortedSets =
    (System.machine.run t (secondRun runs)).world.sortedSets

def agrees (s : SystemState) (outcome : Option Thrown) : SystemLabel → Bool
  | .resume index ω =>
    match s.awaits index with
    | some (.publish key _) => !key.decisive || ω.publish = outcome
    | _ => true
  | _ => true

/-- The two runs agree on every decisive publish. -/
def Agree : SystemState → TwoRuns → Prop
  | _, [] => True
  | s, (label,outcome) :: runs =>
    agrees s outcome label = true ∧ Agree (System.machine.step s label) runs

instance Agree.decidable : ∀ s runs, Decidable (Agree s runs)
  | _, [] => .isTrue trivial
  | s, (label,_) :: runs =>
    @instDecidableAnd _ _ _ (Agree.decidable (System.machine.step s label) runs)

/-- Whether what a call still does can matter to the execution of jobs. -/
inductive Influence where
  | relevant
  | spent

namespace Influence

def allowed : Influence → Op → Prop
  | .relevant, .findOutbox _ _ | .relevant, .completeOutbox _ _
  | .relevant, .retryOutbox _ _ _ _ => False
  | .relevant, _ => True
  | .spent, op => op.inFlush = true

/-- A publish that is not decisive comes last. -/
def next : Influence → (op : Op) → Except Thrown op.Reply → Influence
  | .relevant, .publish key _, _ => if key.decisive then .relevant else .spent
  | influence, _, _ => influence

def monitor : Program.Monitor signature Thrown Influence where
  allowed := allowed
  answers _ _ _ := True
  next := next

@[simp] theorem monitor_allowed : monitor.allowed = allowed := rfl
@[simp] theorem monitor_answers : monitor.answers = fun _ _ _ => True := rfl
@[simp] theorem monitor_next : monitor.next = next := rfl

theorem next_spent (op : Op) (reply : Except Thrown op.Reply) : next .spent op reply = .spent := by
  cases op <;> rfl

abbrev Meets (influence : Influence) (program : Async α) : Prop :=
  Program.wp monitor (fun _ _ => True) program influence

theorem meets_within {ops : Op → Bool} {program : Async α} (within : Within ops program)
    (stays : ∀ op reply, ops op = true →
      allowed .relevant op ∧ next .relevant op reply = .relevant) :
    Meets .relevant program :=
  Program.Uses.wp within (fun op listed => (stays op (.error (.value [])) listed).1)
    (fun op reply listed => (stays op reply listed).2) fun _ => trivial

section Programs

attribute [local simp] allowed next RoutingKey.decisive Program.forall_except Program.perform
  await dateNow publishToExchange HeartbeatWatchdog.writeHeartbeat
  HeartbeatWatchdog.clearHeartbeat JobRepository.claimJobCall JobRepository.markCompletedCall
  JobRepository.markFailedCall JobRepository.markDeadCall RedisJobQueue.reschedule
  RedisJobQueue.enqueue RedisJobQueue.remove JobRepository.createJobCall
  JobRepository.cancelJobCall JobRepository.findByJobIdCall

theorem meets_enqueue (request : CreateJobRequest) :
    Meets .relevant (System.program (.enqueue request)) := by
  simp only [System.program,JobService.enqueue,Meets,Program.wp_bind]
  split
  · simp
  · rename_i definition known
    simp only [Program.wp_bind]
    apply Within.wp_idempotencyKeyFn known _ trivial fun _ => rfl
    rintro (e | jobId)
    · simp
    · simp

theorem meets_cancel (jobId cancelledBy : String) :
    Meets .relevant (System.program (.cancel jobId cancelledBy)) := by
  simp only [System.program,JobService.cancel,Meets,Program.wp_bind]
  simp
  rintro (_ | job)
  · simp
  · simp

theorem meets_handleFailure (job : IJob) (error : Text) (newVersion : Nat) :
    Meets .relevant (RetryService.handleFailure job error newVersion) := by
  by_cases exhausted : job.maxAttempts ≤ job.attempts
  · simp [RetryService.handleFailure,DeadLetterService.create,Program.tryFinally,exhausted]
  · simp [RetryService.handleFailure,RetryService.computeNextRunAt,exhausted]

theorem meets_runClaimed (instanceId : String) (job : IJob) :
    Meets .relevant (JobExecutor.runClaimed bootstrapHandlers instanceId job) := by
  have handled := fun error => meets_handleFailure job error (job.version + 1)
  have recorded : ∀ startedAt error,
      Meets .relevant (JobExecutor.recordFailure instanceId startedAt job error) := by
    intro startedAt error
    simp [JobExecutor.recordFailure,handled]
  simp [JobExecutor.runClaimed,JobExecutor.attempt,JobExecutor.handle,bootstrapHandlers,recorded]

theorem meets_execute (instanceId : String) (job : IJob) :
    Meets .relevant (JobExecutor.execute bootstrapHandlers instanceId job) := by
  simp only [Meets,JobExecutor.execute,Program.wp_bind]
  simp
  rintro now (_ | own)
  · simp
  · exact meets_runClaimed instanceId own

theorem meets_run (instanceId jobId : String) : Meets .relevant (Worker.run instanceId jobId) := by
  simp only [Meets,Worker.run,Program.wp_bind]
  simp
  rintro (_ | job)
  · simp
  · exact meets_execute instanceId job

end Programs

def start : Request → Influence
  | .flush => .spent
  | _ => .relevant

theorem meets_program (request : Request) : Meets (start request) (System.program request) := by
  cases request with
  | enqueue request => exact meets_enqueue request
  | cancel jobId cancelledBy => exact meets_cancel jobId cancelledBy
  | run instanceId jobId => exact meets_run instanceId jobId
  | execute instanceId job => exact meets_execute instanceId job
  | flush =>
    exact Program.Uses.wp Within.flush (fun _ listed => listed) (fun op reply _ => next_spent op reply)
      fun _ => trivial
  | _ =>
    apply meets_within (Within.program _)
    intro op reply listed
    cases op <;> first | exact ⟨trivial,rfl⟩ | cases listed

end Influence

def influence : Protocol System.machine Influence where
  monitor := Influence.monitor
  start := Influence.start
  post _ _ := True
  meets := Influence.meets_program

section Stores

variable {op : Op} (ω : Oracle) (w : World)

theorem perform_stores (may : Influence.allowed .relevant op) :
    (perform op ω w).1 = (perform op ω w.stores).1 ∧
      (perform op ω w).2.stores = (perform op ω w.stores).2.stores := by
  cases op with
  | findOutbox | completeOutbox | retryOutbox => exact False.elim may
  | commitDeadLetter letter type payload createdAt =>
    simp only [perform,World.commitDeadLetter,World.stores]
    cases letter.valid with
    | false => exact ⟨rfl,rfl⟩
    | true =>
      cases w.deadLetters.insert letter with
      | none => exact ⟨rfl,rfl⟩
      | some letters => cases ω.delivery <;> exact ⟨rfl,rfl⟩
  | createExecution record =>
    simp only [perform]
    cases record.valid with
    | false => exact ⟨rfl,rfl⟩
    | true => cases ω.delivery <;> exact ⟨rfl,rfl⟩
  | publish => simp only [perform]; cases ω.publish <;> exact ⟨rfl,rfl⟩
  | handlerSettle => simp only [perform]; cases ω.handler <;> exact ⟨rfl,rfl⟩
  | dateNow | random | uuidv4 | handlerStart | dispatch => exact ⟨rfl,rfl⟩
  | _ => simp only [perform]; cases ω.delivery <;> exact ⟨rfl,rfl⟩

theorem flush_stores (listed : op.inFlush = true) : (perform op ω w).2.stores = w.stores := by
  cases op with
  | publish => simp only [perform]; cases ω.publish <;> rfl
  | dateNow => rfl
  | findOutbox | completeOutbox | retryOutbox => simp only [perform]; cases ω.delivery <;> rfl
  | _ => cases listed

theorem perform_republish (outcome : Option Thrown) (other : ∀ key payload, op ≠ .publish key payload) :
    perform op { ω with publish := outcome } w = perform op ω w := by
  cases op with
  | publish key payload => exact absurd rfl (other key payload)
  | _ => rfl

end Stores

/-- The same call in both runs, or two calls that no longer matter. -/
def Twin (call twinned : SystemCall) : Prop :=
  call = twinned ∨ (influence.phase call = .spent ∧ influence.phase twinned = .spent)

/-- The stores of job execution are the same. -/
def Alike (w v : World) : Prop := w.stores = v.stores

theorem twin_accept (request : Request) :
    Twin (System.machine.accept request) (System.machine.accept request) := .inl rfl

theorem twin_crash (call twinned : SystemCall) (twin : Twin call twinned) :
    Twin (System.machine.crashCall call) (System.machine.crashCall twinned) := by
  rcases twin with rfl | spent
  · exact .inl rfl
  · exact .inr spent

variable {s t : SystemState} {index : Nat} {call twinned : SystemCall} {ω : Oracle}

/-- A call that no longer matters stays so and leaves the stores alone. -/
theorem spent_resumed (followed : influence.Followed s) (found : s.calls[index]? = some call)
    (spent : influence.phase call = .spent) (ω : Oracle) :
    influence.phase (System.machine.resumed call ω s.world).call = .spent ∧
      (System.machine.resumed call ω s.world).world.stores = s.world.stores ∧
      (System.machine.resumed call ω s.world).starts = [] := by
  simp only [Machine.resumed]
  split
  · exact ⟨spent,rfl,rfl⟩
  · rename_i op rest awaits
    have may : Influence.allowed (influence.phase call) op := followed.allowed found awaits
    rw [spent] at may
    refine ⟨?_,flush_stores ω s.world may,?_⟩
    · change Influence.next (influence.phase call) op _ = .spent
      rw [spent]
      exact Influence.next_spent op _
    · cases op <;> first | rfl | cases may

/-- A call that matters goes on alike in both runs, up to its last publish. -/
theorem relevant_resumed (followed : influence.Followed s) (found : s.calls[index]? = some call)
    (relevant : influence.phase call = .relevant) {outcome : Option Thrown}
    (agree : agrees s outcome (.resume index ω) = true) (alike : Alike s.world t.world) :
    Twin (System.machine.resumed call ω s.world).call
        (System.machine.resumed call { ω with publish := outcome } t.world).call ∧
      Alike (System.machine.resumed call ω s.world).world
        (System.machine.resumed call { ω with publish := outcome } t.world).world ∧
      (System.machine.resumed call ω s.world).starts =
        (System.machine.resumed call { ω with publish := outcome } t.world).starts := by
  simp only [Machine.resumed]
  split
  · exact ⟨.inl rfl,alike,rfl⟩
  · rename_i op rest awaits
    have may : Influence.allowed (influence.phase call) op := followed.allowed found awaits
    rw [relevant] at may
    obtain ⟨replyLeft,storesLeft⟩ := perform_stores ω s.world may
    obtain ⟨replyRight,storesRight⟩ := perform_stores ω t.world may
    have same : s.world.stores = t.world.stores := alike
    by_cases published : ∃ key payload, op = .publish key payload
    · obtain ⟨key,payload,rfl⟩ := published
      have untouched : ∀ ω w, (perform (.publish key payload) ω w).2.stores = w.stores :=
        fun ω w => flush_stores ω w rfl
      refine ⟨?_,?_,rfl⟩
      · cases decisive : key.decisive with
        | true =>
          have awaiting : s.awaits index = some (.publish key payload) :=
            State.awaits_eq_some.mpr ⟨call,rest,found,awaits⟩
          have settled : ω.publish = outcome := by
            simpa [agrees,awaiting,decisive] using agree
          left
          subst settled
          rw [System.machine_perform,replyLeft,same,← replyRight]
        | false =>
          have comes : ∀ reply, influence.phase (call.advance (.publish key payload) rest reply) =
              .spent := by
            intro reply
            change Influence.next (influence.phase call) (.publish key payload) reply = .spent
            rw [relevant]
            simp [Influence.next,decisive]
          exact .inr ⟨comes _,comes _⟩
      · exact (untouched _ _).trans (same.trans (untouched _ _).symm)
    · have other : ∀ key payload, op ≠ .publish key payload :=
        fun key payload is => published ⟨key,payload,is⟩
      simp only [System.machine_perform,perform_republish ω t.world outcome other]
      refine ⟨.inl ?_,?_,trivial⟩
      · rw [replyLeft,same,← replyRight]
      · rw [Alike,storesLeft,same,← storesRight]

/-- Two runs that execute jobs alike. -/
structure Together (s t : SystemState) : Prop where
  first : influence.Followed s
  second : influence.Followed t
  inStep : Machine.InStep Alike Twin s t

theorem influence_followed (label : SystemLabel) (followed : influence.Followed s) :
    influence.Followed (System.machine.step s label) := by
  refine Protocol.followed_moves (System.machine.step_moves s label) ?_ followed
  cases label <;> simp [Protocol.Answers,influence]

theorem together_step {label : SystemLabel} {outcome : Option Thrown}
    (agree : agrees s outcome label = true) (together : Together s t) :
    Together (System.machine.step s label) (System.machine.step t (republish outcome label)) where
  first := influence_followed label together.first
  second := influence_followed (republish outcome label) together.second
  inStep := by
    have worlds : s.world.stores = t.world.stores := together.inStep.worlds
    cases label with
    | submit request => exact Machine.inStep_submit twin_accept request together.inStep
    | crash index => exact Machine.inStep_crash twin_crash index together.inStep
    | environment event =>
      refine Machine.inStep_environment ?_ together.inStep
      intro _
      cases event with
      | giveUp index => exact worlds
      | expireJobs now =>
        exact congrArg (fun w : World => { w with jobs := JobRepository.expire w.jobs now }) worlds
    | resume index ω =>
      refine Machine.inStep_resume twin_accept ?_ together.inStep
      intro call twinned found paired twin
      by_cases relevant : influence.phase call = .relevant
      · obtain rfl : call = twinned := by
          rcases twin with same | ⟨spent,_⟩
          · exact same
          · rw [relevant] at spent
            cases spent
        exact relevant_resumed together.first found relevant agree worlds
      · have spent : influence.phase call = .spent := by
          cases phase : influence.phase call with
          | relevant => exact absurd phase relevant
          | spent => rfl
        have alsoSpent : influence.phase twinned = .spent := by
          rcases twin with rfl | ⟨_,spent⟩
          · exact spent
          · exact spent
        obtain ⟨left,storesLeft,startsLeft⟩ := spent_resumed together.first found spent ω
        obtain ⟨right,storesRight,startsRight⟩ := spent_resumed together.second paired alsoSpent
          { ω with publish := outcome }
        exact ⟨.inr ⟨left,right⟩,storesLeft.trans (worlds.trans storesRight.symm),
          startsLeft.trans startsRight.symm⟩

theorem spent_silent (followed : influence.Followed s) (found : s.calls[index]? = some call)
    (spent : influence.phase call = .spent) (ω : Oracle) :
    handlerInvoked s (.resume index ω) = none := by
  unfold handlerInvoked
  dsimp only
  split
  · rename_i job awaiting
    obtain ⟨other,rest,here,awaits⟩ := State.awaits_eq_some.mp awaiting
    obtain rfl := Option.some.inj (here.symm.trans found)
    have may : Influence.allowed (influence.phase other) (.handlerStart job) :=
      followed.allowed found awaits
    rw [spent] at may
    cases may
  · rfl

theorem together_invoked (label : SystemLabel) (outcome : Option Thrown) (together : Together s t) :
    handlerInvoked s label = handlerInvoked t (republish outcome label) := by
  cases label with
  | submit | crash | environment => rfl
  | resume index ω =>
    rcases Machine.forall₂_getElem? index together.inStep.calls with
      ⟨left,right⟩ | ⟨call,twinned,left,right,twin⟩
    · simp [handlerInvoked,republish,State.awaits,left,right]
    · rcases twin with rfl | ⟨spent,alsoSpent⟩
      · simp [handlerInvoked,republish,State.awaits,left,right]
      · have leftSilent := spent_silent together.first left spent ω
        have rightSilent := spent_silent together.second right alsoSpent
          { ω with publish := outcome }
        exact leftSilent.trans rightSilent.symm

theorem together_run {runs : TwoRuns} (agree : Agree s runs) (together : Together s t) :
    handlersInvoked s (firstRun runs) = handlersInvoked t (secondRun runs) ∧
      Together (System.machine.run s (firstRun runs)) (System.machine.run t (secondRun runs)) := by
  induction runs generalizing s t with
  | nil => exact ⟨rfl,together⟩
  | cons entry runs ih =>
    obtain ⟨label,outcome⟩ := entry
    obtain ⟨handlers,last⟩ := ih agree.2 (together_step agree.1 together)
    refine ⟨?_,last⟩
    have invoked := together_invoked label outcome together
    exact congrArg₂ (fun now later => Option.toList now ++ later) invoked handlers

/-- The broker's queues may differ from the start. -/
theorem together_initial (world : World) (placed : RabbitMq.Placed) :
    Together (initial world) (initial { world with placed := placed }) where
  first := influence.followed_initial world
  second := influence.followed_initial _
  inStep := ⟨rfl,.nil⟩

/-- Two runs from the same stores that agree on every decisive publish execute jobs
alike. -/
theorem same_execution (world : World) (placed : RabbitMq.Placed) (runs : TwoRuns)
    (agree : Agree (initial world) runs) :
    SameExecution (initial world) (initial { world with placed := placed }) runs := by
  obtain ⟨handlers,together⟩ := together_run agree (together_initial world placed)
  obtain ⟨jobs,sortedSets,_,_,deadLetters,_⟩ := World.mk.inj together.inStep.worlds
  exact ⟨handlers,jobs,deadLetters,sortedSets⟩

/-- Every publish of the second run succeeds, too. -/
def calmly (labels : List SystemLabel) : TwoRuns := labels.map fun label => (label,none)

def unpublishable : Option Thrown := some (.error (text "no channel") none)

/-- In the second run no channel can be had when the claim of a report is announced. -/
def claimUnannounced : TwoRuns :=
  calmly ([.submit (.enqueue reportRequest)] ++ drive 0 3 0 ++ [.submit (.tick "a" 0)] ++
    drive 1 9 0 ++ drive 2 4 0) ++ [(.resume 2 (calm 0),unpublishable)] ++ calmly (drive 2 4 0)

theorem claim_publish_decides :
    ¬ ∀ world placed runs,
      SameExecution (initial world) (initial { world with placed := placed }) runs := by
  intro same
  have handlers := (same World.empty [] claimUnannounced).handlers
  exact absurd (congrArg List.length handlers) (by decide +kernel)

/-- Whether a new report can be announced does not matter. -/
theorem same_execution_unscheduled :
    SameExecution (initial World.empty) (initial { World.empty with placed := [] })
      (calmly ([.submit (.enqueue reportRequest)] ++ drive 0 2 0) ++
        [(.resume 0 (calm 0),unpublishable)] ++ calmly ([.submit (.tick "a" 0)] ++ drive 1 9 0 ++
        drive 2 17 0)) :=
  same_execution World.empty [] _ (by decide +kernel)

end JobScheduler
