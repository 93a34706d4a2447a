import JobScheduler.ClockSkew
import JobScheduler.Lockstep
import JobScheduler.Vocabulary

/-! The programs of the service under two clocks. Each goes in tandem with itself, since no
program branches on a reading: readings are only stored, sent, or added up to a retry time. -/
namespace JobScheduler

open JobRepository

/-- Which operations two runs of one program await together. The state tells whether the
jitter of a retry has just been drawn, which never fails. -/
def clocks : Program.Coupling signature Thrown Bool where
  paired _ op twin := op.Like twin
  answers drew op twin reply answer := Program.Outcome (likeReply drew op twin) reply answer ∧
    (op = .random → reply.isOk = true)
  next _ op := op matches .random

/-- Two programs go alike under different clocks. -/
abbrev InTandem (related : α → β → Prop) (program : Async α) (other : Async β) : Prop :=
  Program.Tandem clocks false related program other

namespace InTandem

open Program

variable {related : α → β → Prop}

theorem await {op twin : Op} {related : op.Reply → twin.Reply → Prop} (like : op.Like twin)
    (quiet : op ≠ .random) (replies : ∀ reply answer, likeReply false op twin reply answer →
      related reply answer) : InTandem related (JobScheduler.await op) (JobScheduler.await twin) := by
  apply tandem_perform
  · exact like
  · cases op <;> first | rfl | exact absurd rfl quiet
  · rintro (e | reply) (d | answer) ⟨outcome,_⟩
    · exact outcome
    · exact False.elim outcome
    · exact False.elim outcome
    · exact replies reply answer outcome

theorem perform {op twin : Op} (like : op.Like twin) (quiet : op ≠ .random) :
    InTandem (fun _ _ => True) (JobScheduler.await op) (JobScheduler.await twin) :=
  await like quiet fun _ _ _ => trivial

theorem dateNow : InTandem (fun _ _ => True) JobScheduler.dateNow JobScheduler.dateNow :=
  perform (.same _) Op.noConfusion

theorem publish (key : RoutingKey) (payload other : EventPayload) :
    InTandem (fun _ _ => True) (publishToExchange key payload) (publishToExchange key other) :=
  perform (.publish key payload other) Op.noConfusion

theorem skip {before : α → β → Prop} {results : γ → δ → Prop} {program : Async α} {other : Async β}
    {next : α → Async γ} {after : β → Async δ} (first : InTandem before program other)
    (rest : ∀ value twin, InTandem results (next value) (after twin)) :
    InTandem results (program >>= next) (other >>= after) :=
  Tandem.bind first fun value twin _ => rest value twin

theorem discard {program : Async α} {other : Async β} {value : α → γ} {twin : β → δ}
    (first : InTandem related program other) :
    InTandem (fun _ _ => True) (do let reply ← program; pure (value reply))
      (do let reply ← other; pure (twin reply)) :=
  skip first fun _ _ => tandem_pure trivial

theorem key {jobType : JobType} {definition : JobDefinition}
    (known : jobDefinitions jobType = some definition) (payload : JobPayload) :
    InTandem (fun jobId twin => jobId = twin) (definition.idempotencyKeyFn payload)
      (definition.idempotencyKeyFn payload) := by
  apply Uses.tandem (Within.idempotencyKeyFn known payload)
  · exact fun op _ => .same op
  · intro op listed
    obtain rfl := Within.eq_uuidv4 listed
    rfl
  · rintro op reply answer listed ⟨outcome,_⟩
    obtain rfl := Within.eq_uuidv4 listed
    rcases reply with e | reply <;> rcases answer with d | answer
    · exact congrArg Except.error outcome
    · exact False.elim outcome
    · exact False.elim outcome
    · exact congrArg Except.ok outcome

theorem enqueue (request : CreateJobRequest) :
    InTandem IJob.Like (JobService.enqueue request) (JobService.enqueue request) := by
  unfold JobService.enqueue
  split
  · exact tandem_throw _
  · rename_i definition known
    apply Tandem.bind (key known _)
    rintro jobId _ rfl
    apply Tandem.bind (await (.same _) Op.noConfusion fun _ _ like => like)
    rintro job twin like
    refine skip (discard (perform (.same _) Op.noConfusion)) fun _ _ => ?_
    exact skip (publish _ _ _) fun _ _ => tandem_pure like

theorem cancel (jobId cancelledBy : String) :
    InTandem (Option.Rel IJob.Like) (JobService.cancel jobId cancelledBy)
      (JobService.cancel jobId cancelledBy) := by
  apply Tandem.bind (await (.same _) Op.noConfusion fun _ _ like => like)
  rintro _ _ like
  cases like with
  | none => exact tandem_pure .none
  | some like =>
    have jobs := like
    obtain ⟨_,_,_,_,rfl⟩ := like
    refine skip (discard (perform (.same _) Op.noConfusion)) fun _ _ => ?_
    exact skip dateNow fun _ _ => skip (publish _ _ _) fun _ _ => tandem_pure (.some jobs)

theorem dequeue (jobType : JobType) (nowMs : Int) (count : Nat) :
    InTandem (fun jobIds twin => jobIds = twin) (RedisJobQueue.dequeue jobType nowMs count)
      (RedisJobQueue.dequeue jobType nowMs count) := by
  apply Tandem.bind (await (.same _) Op.noConfusion fun _ _ same => same)
  rintro results _ rfl
  dsimp only
  split
  · exact tandem_pure rfl
  · exact skip (perform (.same _) Op.noConfusion) fun _ _ => tandem_pure rfl

theorem pollQueues (instanceId : String) (nowMs : Int) (jobTypes : List JobType) (slots : Nat) :
    InTandem (fun _ _ => True) (PollLoop.pollQueues instanceId nowMs jobTypes slots)
      (PollLoop.pollQueues instanceId nowMs jobTypes slots) := by
  induction jobTypes generalizing slots with
  | nil => exact tandem_pure trivial
  | cons jobType rest ih =>
    unfold PollLoop.pollQueues
    split
    · exact tandem_pure trivial
    · have taken : InTandem (fun taken twin : Nat => taken = twin)
          (do
            let jobIds ← RedisJobQueue.dequeue jobType nowMs slots
            if jobIds.length = 0 then pure 0
            else
              JobScheduler.await (.dispatch instanceId jobIds jobType)
              pure jobIds.length)
          (do
            let jobIds ← RedisJobQueue.dequeue jobType nowMs slots
            if jobIds.length = 0 then pure 0
            else
              JobScheduler.await (.dispatch instanceId jobIds jobType)
              pure jobIds.length) := by
        apply Tandem.bind (dequeue jobType nowMs slots)
        rintro jobIds _ rfl
        split
        · exact tandem_pure rfl
        · exact skip (perform (.same _) Op.noConfusion) fun _ _ => tandem_pure rfl
      apply Tandem.bind (taken.tryCatch fun _ => tandem_pure rfl)
      rintro count _ rfl
      exact ih (slots - count)

theorem tick (instanceId : String) (activeJobs : Nat) :
    InTandem (fun _ _ => True) (PollLoop.tick instanceId activeJobs)
      (PollLoop.tick instanceId activeJobs) := by
  unfold PollLoop.tick
  dsimp only
  split
  · exact tandem_pure trivial
  · have told : InTandem (fun nowMs twin : Option Int => nowMs = twin)
        (do let nowMs ← JobScheduler.await .redisTime; pure (some nowMs))
        (do let nowMs ← JobScheduler.await .redisTime; pure (some nowMs)) := by
      apply Tandem.bind (await (.same .redisTime) Op.noConfusion fun _ _ same => same)
      rintro nowMs _ rfl
      exact tandem_pure rfl
    apply Tandem.bind (told.tryCatch fun _ => tandem_pure rfl)
    rintro (_ | nowMs) _ rfl
    · exact tandem_pure trivial
    · exact skip dateNow fun _ _ => pollQueues ..

theorem resetStaleJobsCall (ageMs : Nat) :
    InTandem (fun _ _ => True) (JobRepository.resetStaleJobsCall ageMs)
      (JobRepository.resetStaleJobsCall ageMs) :=
  skip dateNow fun _ _ => perform (.job _ _ (.resetStaleJobs _ _)) Op.noConfusion

theorem watchdogTick : InTandem (fun _ _ => True) HeartbeatWatchdog.tick HeartbeatWatchdog.tick :=
  (discard (resetStaleJobsCall _)).tryCatch fun _ => tandem_pure trivial

theorem computeNextRunAt (attempt : Nat) :
    InTandem (fun nextRunAt twin => nextRunAt = twin) (RetryService.computeNextRunAt attempt)
      (RetryService.computeNextRunAt attempt) := by
  refine ⟨.same .random,?_⟩
  rintro (e | jitter) (d | drawn) ⟨outcome,draws⟩
  · cases draws rfl
  · cases draws rfl
  · exact False.elim outcome
  obtain rfl : jitter = drawn := outcome
  refine ⟨.same .dateNow,?_⟩
  rintro (e | now) (d | later) ⟨outcome,_⟩
  · exact ⟨rfl,outcome⟩
  · exact False.elim outcome
  · exact False.elim outcome
  obtain rfl : now = later := outcome rfl
  exact ⟨rfl,rfl⟩

theorem handle (job twin : IJob) :
    InTandem (fun _ _ => True) (JobExecutor.handle job) (JobExecutor.handle twin) :=
  skip (perform (.handlerStart _ _) Op.noConfusion) fun _ _ =>
    perform (.handlerSettle _ _) Op.noConfusion

section Executor

variable {job twin : IJob} (like : job.Like twin)

theorem tryFinally {program other : Async α} {cleanup : Async Unit}
    (first : InTandem (fun _ _ => True) program other)
    (last : InTandem (fun _ _ => True) cleanup cleanup) :
    InTandem (fun _ _ => True) (Program.tryFinally program cleanup)
      (Program.tryFinally other cleanup) := by
  apply skip (first.tryCatch fun e => skip last fun _ _ => tandem_throw e)
  intro value answer
  exact skip last fun _ _ => tandem_pure trivial

include like

theorem create (lastError : Text) : InTandem (fun _ _ => True)
    (DeadLetterService.create job lastError) (DeadLetterService.create twin lastError) := by
  obtain ⟨_,_,_,_,rfl⟩ := like
  apply skip (perform (.same .startSession) Op.noConfusion)
  intro _ _
  apply tryFinally
  · refine skip dateNow fun _ _ => skip dateNow fun _ _ => skip dateNow fun _ _ => ?_
    refine skip dateNow fun _ _ => skip dateNow fun _ _ => ?_
    exact perform (.commitDeadLetter _ _ _ _ _ _ _ _ rfl rfl) Op.noConfusion
  · exact perform (.same .endSession) Op.noConfusion

theorem handleFailure (error : Text) (newVersion : Nat) : InTandem (fun _ _ => True)
    (RetryService.handleFailure job error newVersion)
    (RetryService.handleFailure twin error newVersion) := by
  have created := create like error
  obtain ⟨_,_,_,_,rfl⟩ := like
  apply skip (publish _ _ _)
  intro _ _
  dsimp only
  split
  · exact skip (perform (.same _) Op.noConfusion) fun _ _ => created
  · apply Tandem.bind (computeNextRunAt _)
    rintro nextRunAt _ rfl
    refine skip (skip dateNow fun _ _ => perform (.job _ _ (.markFailed _ _ _ _ _ _))
      Op.noConfusion) fun _ _ => ?_
    exact skip (discard (perform (.same _) Op.noConfusion)) fun _ _ => publish _ _ _

theorem recordFailure (instanceId : String) (startedAt startedLater : Int) (error : Thrown) :
    InTandem (fun _ _ => True) (JobExecutor.recordFailure instanceId startedAt job error)
      (JobExecutor.recordFailure instanceId startedLater twin error) := by
  have handled := handleFailure like error.message
  obtain ⟨_,_,_,_,rfl⟩ := like
  refine skip dateNow fun _ _ => skip (perform (.same _) Op.noConfusion) fun _ _ => ?_
  refine skip dateNow fun _ _ => ?_
  exact skip (perform (.createExecution _ _ _ _) Op.noConfusion) fun _ _ => handled _

theorem attempt (instanceId : String) (startedAt startedLater : Int) :
    InTandem (fun _ _ => True) (JobExecutor.attempt bootstrapHandlers instanceId startedAt job)
      (JobExecutor.attempt bootstrapHandlers instanceId startedLater twin) := by
  obtain ⟨_,_,_,_,rfl⟩ := like
  simp only [JobExecutor.attempt,bootstrapHandlers,Bool.true_eq_false,if_false]
  refine skip (handle job _) fun _ _ => skip dateNow fun _ _ => skip dateNow fun _ _ => ?_
  refine skip (skip dateNow fun _ _ => perform (.job _ _ (.markCompleted _ _ _ _ _ _))
    Op.noConfusion) fun _ _ => skip (perform (.same _) Op.noConfusion) fun _ _ => ?_
  exact skip (perform (.createExecution _ _ _ _) Op.noConfusion) fun _ _ => publish _ _ _

theorem runClaimed (instanceId : String) : InTandem (fun _ _ => True)
    (JobExecutor.runClaimed bootstrapHandlers instanceId job)
    (JobExecutor.runClaimed bootstrapHandlers instanceId twin) := by
  have attempted := attempt like instanceId
  have recorded := recordFailure like instanceId
  obtain ⟨_,_,_,_,rfl⟩ := like
  refine skip dateNow fun _ _ => skip (publish _ _ _) fun _ _ => skip dateNow fun started later => ?_
  refine skip (skip dateNow fun _ _ => perform (.setHeartbeat _ _ _) Op.noConfusion) fun _ _ => ?_
  exact (attempted started later).tryCatch fun error => recorded started later error

theorem execute (instanceId : String) : InTandem (fun _ _ => True)
    (JobExecutor.execute bootstrapHandlers instanceId job)
    (JobExecutor.execute bootstrapHandlers instanceId twin) := by
  have claims : InTandem (Option.Rel IJob.Like)
      (JobRepository.claimJobCall job.jobId job.version)
      (JobRepository.claimJobCall twin.jobId twin.version) := by
    obtain ⟨_,_,_,_,rfl⟩ := like
    exact skip dateNow fun _ _ =>
      await (.job _ _ (.claimJob _ _ _ _)) Op.noConfusion fun _ _ like => like
  apply Tandem.bind claims
  intro claimed other related
  cases related with
  | none => exact tandem_pure trivial
  | some like => exact runClaimed like instanceId

end Executor

theorem run (instanceId jobId : String) : InTandem (fun _ _ => True)
    (Worker.run instanceId jobId) (Worker.run instanceId jobId) := by
  apply Tandem.bind (await (.same (.findByJobId jobId)) Op.noConfusion fun _ _ like => like)
  intro found other related
  cases related with
  | none => exact tandem_pure trivial
  | some like => exact execute like instanceId

end InTandem

def Call.drew (call : SystemCall) : Bool := call.history.head?.any fun last => last.op matches .random

/-- Two calls that go on alike, or two outbox flushes. -/
def ClockTwin (call twin : SystemCall) : Prop :=
  (call.drew = twin.drew ∧
    Program.Coupled clocks (fun _ _ _ => True) call.program twin.program call.drew) ∨
  (Within Op.inFlush call.program ∧ Within Op.inFlush twin.program)

theorem clockTwin_accept (request : Request) :
    ClockTwin (System.machine.accept request) (System.machine.accept request) := by
  have coupled : InTandem (fun _ _ => True) (System.program request) (System.program request) →
      ClockTwin (System.machine.accept request) (System.machine.accept request) :=
    fun tandem => .inl ⟨rfl,Program.Coupled.mono tandem fun _ _ _ _ => trivial⟩
  cases request with
  | enqueue request => exact coupled (InTandem.enqueue request).discard
  | cancel jobId cancelledBy => exact coupled (InTandem.cancel jobId cancelledBy).discard
  | tick instanceId activeJobs => exact coupled (InTandem.tick instanceId activeJobs)
  | run instanceId jobId => exact coupled (InTandem.run instanceId jobId)
  | execute instanceId job => exact coupled (InTandem.execute (.refl job) instanceId)
  | watchdogTick => exact coupled InTandem.watchdogTick
  | bootstrapReset => exact coupled (InTandem.resetStaleJobsCall _).discard
  | flush => exact .inr ⟨Within.flush,Within.flush⟩

theorem clockTwin_crash (call twin : SystemCall) (together : ClockTwin call twin) :
    ClockTwin (System.machine.crashCall call) (System.machine.crashCall twin) := by
  rcases together with ⟨drew,_⟩ | _
  · exact .inl ⟨drew,trivial⟩
  · exact .inr ⟨trivial,trivial⟩

section Steps

variable {w v : World} {call twin : SystemCall} {ω : Oracle} {clock : Int}

theorem flush_resumed (within : Within Op.inFlush call.program) (ω : Oracle) (w : World) :
    Within Op.inFlush (System.machine.resumed call ω w).call.program ∧
      (∀ jobId, (System.machine.resumed call ω w).world.jobs.lookup jobId = w.jobs.lookup jobId) ∧
      (∀ key, (System.machine.resumed call ω w).world.sortedSets key = w.sortedSets key) ∧
      (System.machine.resumed call ω w).world.deadLetters.docs = w.deadLetters.docs ∧
      (System.machine.resumed call ω w).starts = [] := by
  simp only [Machine.resumed]
  split
  · exact ⟨within,fun _ => rfl,fun _ => rfl,rfl,rfl⟩
  · rename_i op rest awaits
    rw [awaits] at within
    obtain ⟨listed,later⟩ := within
    refine ⟨later _ trivial,?_,?_,?_,?_⟩
    · intro jobId
      refine (perform_lookup op ω w jobId).trans ?_
      cases op <;> first | rfl | cases listed
    · intro key
      refine (perform_sortedSets op ω w key).trans ?_
      cases op <;> first | rfl | cases listed
    · refine (perform_deadLetters op ω w).trans ?_
      cases op <;> first | exact List.append_nil _ | cases listed
    · cases op <;> first | rfl | cases listed

theorem clockTwin_resumed (together : ClockTwin call twin) (worlds : w.Like v)
    (agrees : ∀ op ∈ call.program.head, ∀ other ∈ twin.program.head,
      op.agrees call.drew ω clock w v other) :
    ClockTwin (System.machine.resumed call ω w).call (System.machine.resumed twin (ω.at clock) v).call ∧
      (System.machine.resumed call ω w).world.Like (System.machine.resumed twin (ω.at clock) v).world ∧
      (System.machine.resumed call ω w).starts = (System.machine.resumed twin (ω.at clock) v).starts := by
  rcases together with ⟨drew,coupled⟩ | ⟨first,second⟩
  · simp only [Machine.resumed]
    cases left : call.program <;> cases right : twin.program <;> rw [left,right] at coupled
    · exact ⟨.inl ⟨drew,by rw [left,right]; trivial⟩,worlds,rfl⟩
    · exact False.elim coupled
    · exact False.elim coupled
    · rename_i op rest other others
      obtain ⟨like,later⟩ := coupled
      rw [left,right] at agrees
      have agree := agrees op rfl other rfl
      have replies := like_reply like worlds agree
      refine ⟨.inl ⟨?_,?_⟩,like_perform like worlds agree,?_⟩
      · cases like <;> rfl
      · refine later _ _ ⟨replies,?_⟩
        rintro rfl
        rfl
      · cases like <;> rfl
  · obtain ⟨within,jobs,sets,letters,starts⟩ := flush_resumed first ω w
    obtain ⟨also,others,keys,twins,begun⟩ := flush_resumed second (ω.at clock) v
    refine ⟨.inr ⟨within,also⟩,⟨?_,?_,?_⟩,starts.trans begun.symm⟩
    · intro jobId
      rw [jobs,others]
      exact worlds.jobs jobId
    · intro key
      rw [sets,keys]
      exact worlds.sortedSets key
    · intro jobId
      simp only [Collection.lookup,letters,twins]
      exact worlds.deadLetters jobId

end Steps

end JobScheduler
