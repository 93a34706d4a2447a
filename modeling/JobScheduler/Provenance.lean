import JobScheduler.OutboxDelivery
import JobScheduler.StoreCoherence
import JobScheduler.Testimony

/-! Where the traces of a job come from. Execution records, dead letters, outbox events and
messages repeat fields of the job document, and nothing compares the copies. They agree
with the document all the same: whoever writes a trace has been told its fields by the
store, and no write changes them. -/
namespace JobScheduler

open JobRepository

/-- What a trace can say about a job. -/
inductive JobFact where
  | tenancy (jobId : String) (jobType : JobType) (tenantId : String)
  | attempt (jobId : String) (number : Nat)
  | budget (jobId : String) (maxAttempts : Nat)
  | schedule (jobId : String) (scheduledAt : Int)
  | rank (jobId : String) (priority : JobPriority)
  | work (jobId : String) (payload : JobPayload)

namespace JobFact

def jobId : JobFact → String
  | .tenancy jobId _ _ | .attempt jobId _ | .budget jobId _ | .schedule jobId _ | .rank jobId _
  | .work jobId _ => jobId

/-- The document bears the fact out. An attempt is one of the claims that it has seen. -/
def trueOf : JobFact → IJob → Prop
  | .tenancy _ jobType tenantId, job => job.jobType = jobType ∧ job.tenantId = tenantId
  | .attempt _ number, job => 1 ≤ number ∧ number ≤ job.attempts
  | .budget _ maxAttempts, job => job.maxAttempts = maxAttempts
  | .schedule _ scheduledAt, job => job.scheduledAt = scheduledAt
  | .rank _ priority, job => job.priority = priority
  | .work _ payload, job => job.payload = payload

end JobFact

def IJob.facts (job : IJob) : List JobFact :=
  [.tenancy job.jobId job.jobType job.tenantId,.budget job.jobId job.maxAttempts,
    .schedule job.jobId job.scheduledAt,.rank job.jobId job.priority,.work job.jobId job.payload]

def IJob.claimFacts (job : IJob) : List JobFact := .attempt job.jobId job.attempts :: job.facts

def EventPayload.facts : EventPayload → List JobFact
  | .completed jobId jobType tenantId scheduledAt _ _ attempt =>
    [.tenancy jobId jobType tenantId,.schedule jobId scheduledAt,.attempt jobId attempt]
  | .failed jobId jobType tenantId attempt maxAttempts _
  | .retrying jobId jobType tenantId attempt maxAttempts _ _ =>
    [.tenancy jobId jobType tenantId,.attempt jobId attempt,.budget jobId maxAttempts]
  | .dead jobId jobType tenantId totalAttempts _ _ =>
    [.tenancy jobId jobType tenantId,.attempt jobId totalAttempts]
  | .scheduled jobId jobType tenantId scheduledAt _ priority =>
    [.tenancy jobId jobType tenantId,.schedule jobId scheduledAt,.rank jobId priority]
  | .claimed jobId jobType tenantId attempt _ _ =>
    [.tenancy jobId jobType tenantId,.attempt jobId attempt]
  | .cancelled jobId jobType tenantId _ _ => [.tenancy jobId jobType tenantId]

def IExecution.facts (record : IExecution) : List JobFact :=
  [.tenancy record.jobId record.jobType record.tenantId,.attempt record.jobId record.attempt]

def IDeadLetter.facts (letter : IDeadLetter) : List JobFact :=
  [.tenancy letter.jobId letter.jobType letter.tenantId,.attempt letter.jobId letter.attempts,
    .work letter.jobId letter.payload]

namespace World

def attests (w : World) (fact : JobFact) : Prop := ∃ job ∈ w.jobs.lookup fact.jobId, fact.trueOf job

/-- Some record, dead letter, outbox event or queued message says so. -/
def recorded (w : World) (fact : JobFact) : Prop :=
  (∃ record ∈ w.executions, fact ∈ record.facts) ∨
    (∃ letter ∈ w.deadLetters.docs, fact ∈ letter.facts) ∨
    (∃ event ∈ w.outbox, fact ∈ event.payload.facts) ∨
    ∃ message ∈ w.placed, fact ∈ message.2.facts

end World

def Op.facts : Op → List JobFact
  | .createExecution record => record.facts
  | .commitDeadLetter letter _ payload _ => letter.facts ++ payload.facts
  | .publish _ payload => payload.facts
  | .handlerStart claimed | .handlerSettle claimed => claimed.claimFacts
  | _ => []

def replyFacts : (op : Op) → Except Thrown op.Reply → List JobFact
  | .job (.createJob _), .ok job => job.facts
  | .job (.cancelJob _), .ok (some job) => job.facts
  | .job (.claimJob _ _ _), .ok (some job) => job.claimFacts
  | .findOutbox _ _, .ok events => events.flatMap fun e => e.payload.facts
  | _, _ => []

def provenance : Testimony signature Thrown JobFact where
  states := Op.facts
  tells := replyFacts

@[simp] theorem provenance_states : provenance.states = Op.facts := rfl
@[simp] theorem provenance_tells : provenance.tells = replyFacts := rfl

namespace Provenance

section Programs

attribute [local simp] Op.facts replyFacts IJob.facts IJob.claimFacts EventPayload.facts
  IExecution.facts IDeadLetter.facts Program.forall_except Program.perform await dateNow
  publishToExchange HeartbeatWatchdog.writeHeartbeat HeartbeatWatchdog.clearHeartbeat
  JobRepository.claimJobCall JobRepository.markCompletedCall JobRepository.markFailedCall
  JobRepository.markDeadCall RedisJobQueue.reschedule

variable {known : List JobFact}

theorem honest_create (job : IJob) (lastError : Text) (told : ∀ fact ∈ job.claimFacts, fact ∈ known) :
    provenance.Honest known (DeadLetterService.create job lastError) := by
  simp at told
  simp [DeadLetterService.create,Program.tryFinally,told]

theorem honest_handleFailure (job : IJob) (error : Text) (newVersion : Nat)
    (told : ∀ fact ∈ job.claimFacts, fact ∈ known) :
    provenance.Honest known (RetryService.handleFailure job error newVersion) := by
  have created := honest_create job error told
  simp at told
  by_cases exhausted : job.maxAttempts ≤ job.attempts
  · simp [RetryService.handleFailure,exhausted,created,told]
  · simp [RetryService.handleFailure,RetryService.computeNextRunAt,exhausted,told]

theorem honest_runClaimed (instanceId : String) (job : IJob)
    (told : ∀ fact ∈ job.claimFacts, fact ∈ known) :
    provenance.Honest known (JobExecutor.runClaimed bootstrapHandlers instanceId job) := by
  have handled := fun error => honest_handleFailure job error (job.version + 1) told
  simp at told
  have recorded : ∀ startedAt error, provenance.Honest known
      (JobExecutor.recordFailure instanceId startedAt job error) := by
    intro startedAt error
    simp [JobExecutor.recordFailure,handled,told]
  simp [JobExecutor.runClaimed,JobExecutor.attempt,JobExecutor.handle,bootstrapHandlers,recorded,told]

theorem honest_execute (instanceId : String) (job : IJob) :
    provenance.Honest known (JobExecutor.execute bootstrapHandlers instanceId job) := by
  simp only [Testimony.Honest,JobExecutor.execute,Program.wp_bind]
  simp
  rintro now (_ | claimed)
  · simp
  · exact honest_runClaimed instanceId claimed fun fact => List.mem_append_left known

theorem honest_run (instanceId jobId : String) :
    provenance.Honest known (Worker.run instanceId jobId) := by
  simp only [Testimony.Honest,Worker.run,JobRepository.findByJobIdCall,Program.wp_bind]
  simp
  rintro (_ | job)
  · simp
  · exact honest_execute instanceId job

theorem honest_enqueue (request : CreateJobRequest) :
    provenance.Honest known (System.program (.enqueue request)) := by
  simp only [System.program,Testimony.Honest,Program.wp_bind]
  unfold JobService.enqueue
  split
  · simp
  · rename_i definition known'
    simp only [Program.wp_bind]
    refine Within.wp_idempotencyKeyFn known' _ (by simp) (by simp) ?_
    rintro (e | jobId)
    · trivial
    · simp [JobRepository.createJobCall,RedisJobQueue.enqueue]

theorem honest_cancel (jobId cancelledBy : String) :
    provenance.Honest known (System.program (.cancel jobId cancelledBy)) := by
  simp only [System.program,Testimony.Honest,JobService.cancel,JobRepository.cancelJobCall,
    Program.wp_bind]
  simp
  rintro (_ | job)
  · simp
  · simp [RedisJobQueue.remove]

theorem honest_flushEvents (events : List IOutboxEvent)
    (told : ∀ e ∈ events, ∀ fact ∈ e.payload.facts, fact ∈ known) :
    provenance.Honest known (OutboxPoller.flushEvents events) := by
  induction events with
  | nil => trivial
  | cons e events ih =>
    have rest := ih fun other member => told other (List.mem_cons_of_mem e member)
    have own := told e List.mem_cons_self
    simp [OutboxPoller.flushEvents,OutboxPoller.flushEvent,rest,-EventPayload.facts]
    exact own

theorem honest_flush : provenance.Honest known OutboxPoller.flush := by
  simp only [OutboxPoller.flush,Testimony.Honest,Program.wp_bind]
  simp [-EventPayload.facts]
  intro events
  apply honest_flushEvents
  intro e member fact said
  exact List.mem_append_left known (List.mem_flatMap.mpr ⟨e,member,said⟩)

end Programs

theorem honest_program (request : Request) : provenance.Honest [] (System.program request) := by
  cases request with
  | enqueue request => exact honest_enqueue request
  | cancel jobId cancelledBy => exact honest_cancel jobId cancelledBy
  | run instanceId jobId => exact honest_run instanceId jobId
  | execute instanceId job => exact honest_execute instanceId job
  | flush => exact honest_flush
  | _ =>
    refine provenance.honest_within (Within.program _) fun op listed => ?_
    cases op <;> first | rfl | cases listed

end Provenance

/-- No write makes a document deny what it bore out before. -/
theorem change_trueOf (write : JobWrite) {fact : JobFact} {job : IJob} (bears : fact.trueOf job) :
    fact.trueOf (write.change job) := by
  cases fact with
  | attempt jobId number =>
    refine ⟨bears.1,bears.2.trans ?_⟩
    cases write with
    | claimJob => exact Nat.le_succ job.attempts
    | _ => exact Nat.le_refl job.attempts
  | _ => cases write <;> exact bears

theorem attests_facts {w : World} {job : IJob} (stored : w.jobs.lookup job.jobId = some job) :
    ∀ fact ∈ job.facts, w.attests fact := by
  intro fact said
  simp only [IJob.facts,List.mem_cons,List.not_mem_nil,or_false] at said
  rcases said with rfl | rfl | rfl | rfl | rfl
  · exact ⟨job,stored,rfl,rfl⟩
  all_goals exact ⟨job,stored,rfl⟩

section Replies

variable {ω : Oracle} {w : World} {job : IJob}

theorem createJob_stores {input : EnqueueJobInput}
    (replied : (perform (.job (.createJob input)) ω w).1 = .ok job) :
    (perform (.job (.createJob input)) ω w).2.jobs.lookup job.jobId = some job := by
  obtain ⟨performed,answer⟩ := deliver_ok replied
  obtain rfl : (JobRepository.createJob w.jobs input).1 = job := Except.ok.inj answer
  have key : (JobRepository.createJob w.jobs input).1.jobId = input.jobId :=
    createJob_jobId w.jobs input
  simp only [perform,performed,deliver]
  rw [key]
  exact (Collection.lookup_upsert (JobRepository.inserted input) input.jobId).trans (if_pos rfl)

theorem claimJob_stores {jobId : String} {version : Nat} {now : Int}
    (won : (perform (.job (.claimJob jobId version now)) ω w).1 = .ok (some job)) :
    (perform (.job (.claimJob jobId version now)) ω w).2.jobs.lookup job.jobId = some job ∧
      1 ≤ job.attempts := by
  obtain ⟨performed,stored,found,passes,rfl⟩ := claimJob_replies won
  have key : stored.jobId = jobId := Collection.lookup_key found
  have same : (claimed version now stored).jobId = jobId := key
  refine ⟨?_,Nat.succ_pos stored.attempts⟩
  rw [same,perform_lookup,found]
  simp [Op.update,performed,Delivery.applies,JobWrite.update,JobWrite.selects,key,passes,
    JobWrite.change]

/-- What the stores tell is true when they tell it, if what they hold is. -/
theorem replies_truthful {op : Op} {fact : JobFact} (recorded : w.recorded fact → w.attests fact)
    (told : fact ∈ replyFacts op (perform op ω w).1) : (perform op ω w).2.attests fact := by
  cases op with
  | job write =>
    cases write with
    | createJob input =>
      cases replied : (perform (.job (.createJob input)) ω w).1 with
      | error e => rw [replied] at told; cases told
      | ok job =>
        rw [replied] at told
        exact attests_facts (createJob_stores replied) fact told
    | cancelJob jobId =>
      rcases replied : (perform (.job (.cancelJob jobId)) ω w).1 with e | (_ | job)
      · rw [replied] at told; cases told
      · rw [replied] at told; cases told
      · rw [replied] at told
        obtain ⟨stored,_⟩ := cancelJob_replies replied
        have key : job.jobId = jobId := Collection.lookup_key stored
        exact attests_facts (by rw [key]; exact stored) fact told
    | claimJob jobId version now =>
      rcases replied : (perform (.job (.claimJob jobId version now)) ω w).1 with e | (_ | job)
      · rw [replied] at told; cases told
      · rw [replied] at told; cases told
      · rw [replied] at told
        obtain ⟨stored,counted⟩ := claimJob_stores replied
        rcases List.mem_cons.mp told with rfl | told
        · exact ⟨job,stored,counted,Nat.le_refl _⟩
        · exact attests_facts stored fact told
    | _ => cases told
  | findOutbox maxRetryCount limit =>
    cases replied : (perform (.findOutbox maxRetryCount limit) ω w).1 with
    | error e => rw [replied] at told; cases told
    | ok events =>
      rw [replied] at told
      obtain ⟨e,found,said⟩ := List.mem_flatMap.mp told
      rw [findOutbox_ok replied] at found
      obtain ⟨job,stored,bears⟩ := recorded (.inr (.inr (.inl ⟨e,mem_findOutbox found,said⟩)))
      refine ⟨job,?_,bears⟩
      rw [perform_lookup]
      exact stored
  | _ => cases told

end Replies

/-- Whatever is recorded after an operation was recorded before, or the operation says it. -/
theorem recorded_perform {op : Op} {ω : Oracle} {w : World} {fact : JobFact}
    (recorded : (perform op ω w).2.recorded fact) : w.recorded fact ∨ fact ∈ op.facts := by
  rcases recorded with ⟨record,member,said⟩ | ⟨letter,member,said⟩ | ⟨event,member,said⟩ |
    ⟨⟨queue,body⟩,member,said⟩
  · rw [perform_executions] at member
    rcases List.mem_append.mp member with old | new
    · exact .inl (.inl ⟨record,old,said⟩)
    · right
      cases op with
      | createExecution own =>
        simp only [Op.inserts] at new
        split at new
        · obtain rfl := List.mem_singleton.mp new
          exact said
        · cases new
      | _ => cases new
  · rw [perform_deadLetters] at member
    rcases List.mem_append.mp member with old | new
    · exact .inl (.inr (.inl ⟨letter,old,said⟩))
    · obtain ⟨⟨own,event⟩,commits,rfl⟩ := List.mem_map.mp new
      obtain ⟨type,payload,createdAt,rfl,_⟩ := commits_eq_some (Option.mem_toList.mp commits)
      exact .inr (List.mem_append_left _ said)
  · rw [perform_outbox] at member
    rcases List.mem_append.mp member with old | new
    · obtain ⟨before,stored,rfl⟩ := List.mem_map.mp old
      rw [marks_payload] at said
      exact .inl (.inr (.inr (.inl ⟨before,stored,said⟩)))
    · obtain ⟨⟨letter,own⟩,commits,rfl⟩ := List.mem_map.mp new
      obtain ⟨type,payload,createdAt,rfl,rfl⟩ := commits_eq_some (Option.mem_toList.mp commits)
      exact .inr (List.mem_append_right _ said)
  · rw [perform_placed] at member
    cases op with
    | publish key payload =>
      simp only [Op.places] at member
      split at member
      · rcases RabbitMq.mem_publish.mp member with old | ⟨_,rfl⟩
        · exact .inl (.inr (.inr (.inr ⟨_,old,said⟩)))
        · exact .inr said
      · exact .inl (.inr (.inr (.inr ⟨_,member,said⟩)))
    | _ => exact .inl (.inr (.inr (.inr ⟨_,member,said⟩)))

theorem recorded_environment {event : StoreEvent} {w : World} {fact : JobFact}
    (recorded : (System.environment event w).recorded fact) : w.recorded fact := by
  cases event with
  | expireJobs now => exact recorded
  | giveUp index =>
    rcases recorded with known | known | known | ⟨⟨queue,body⟩,member,said⟩
    · exact .inl known
    · exact .inr (.inl known)
    · exact .inr (.inr (.inl known))
    · refine .inr (.inr (.inr ?_))
      simp only [System.environment,RabbitMq.giveUp] at member
      split at member
      · exact ⟨_,member,said⟩
      · rename_i origin payload found
        split at member
        · exact ⟨_,member,said⟩
        · rcases RabbitMq.mem_publish.mp member with old | ⟨_,rfl⟩
          · exact ⟨_,old,said⟩
          · exact ⟨(origin,body),List.mem_of_getElem? found,said⟩

/-- A document that is not deleted goes on bearing out what it bore out. -/
theorem attests_step {s : SystemState} {label : SystemLabel} {fact : JobFact}
    (kept : deletes fact.jobId s label = false) (attests : s.world.attests fact) :
    (System.machine.step s label).world.attests fact := by
  obtain ⟨job,stored,bears⟩ := attests
  have moves := System.document_moves s label fact.jobId
  rw [deletes,Option.mem_def.mp stored] at kept
  rw [Option.mem_def.mp stored] at moves
  rw [World.attests]
  generalize (System.machine.step s label).world.jobs.lookup fact.jobId = after at moves
  cases moves with
  | kept => exact ⟨job,rfl,bears⟩
  | changed write _ is selected => exact ⟨_,rfl,change_trueOf write bears⟩
  | expired _ _ gone =>
    have due : outlives job label = true := gone
    simp [due] at kept

/-- The account of one job, as long as its document is not deleted. -/
def Provenance.account (jobId : String) : provenance.Account System.machine where
  honest := honest_program
  holds w fact := fact.jobId = jobId → w.attests fact
  recorded w fact := fact.jobId = jobId ∧ w.recorded fact
  condition s label := deletes jobId s label = false
  lasts s label kept fact holds same := by
    subst same
    exact attests_step kept (holds rfl)
  told op ω w recorded fact told same :=
    replies_truthful (fun known => recorded fact ⟨same,known⟩ same) told
  written op ω w fact recorded := (recorded_perform recorded.2).imp_left fun old => ⟨recorded.1,old⟩
  moved event w fact recorded := ⟨recorded.1,recorded_environment recorded.2⟩

variable {jobId : String} {labels : List SystemLabel} {t : SystemState}

theorem truthful_initial (jobId : String) :
    (Provenance.account jobId).Truthful (initial World.empty) := by
  apply Testimony.Account.truthful_nil
  rintro fact ⟨_,⟨_,member,_⟩ | ⟨_,member,_⟩ | ⟨_,member,_⟩ | ⟨_,member,_⟩⟩ <;> cases member

/-- In every run that does not delete the document of a job, all that any execution
record, dead letter, outbox event or message says about the job agrees with the document. -/
theorem traces_attested (labels : List SystemLabel) (jobId : String)
    (kept : System.machine.Along (fun s label => deletes jobId s label = false)
      (initial World.empty) labels) :
    ∀ t, System.machine.Reached (initial World.empty) labels t →
      ∀ fact, fact.jobId = jobId → t.world.recorded fact → t.world.attests fact := by
  intro t reached fact same recorded
  have truthful := Testimony.Account.truthful_reached kept (truthful_initial jobId) reached
  exact truthful.recorded fact ⟨same,recorded⟩ same

def executedReport : List SystemLabel :=
  [.submit (.enqueue reportRequest)] ++ drive 0 3 0 ++ [.submit (.tick "a" 0)] ++ drive 1 9 0 ++
  drive 2 17 0

theorem traces_attested_report :
    (System.machine.run (initial World.empty) executedReport).world.recorded
        (.attempt reportId 1) ∧
      (System.machine.run (initial World.empty) executedReport).world.attests
        (.attempt reportId 1) := by
  have wrote : (System.machine.run (initial World.empty) executedReport).world.executions.map
      (fun record => (record.jobId,record.attempt)) = [(reportId,1)] := by decide +kernel
  have listed := List.mem_singleton_self (reportId,1)
  rw [← wrote] at listed
  obtain ⟨record,member,same⟩ := List.mem_map.mp listed
  obtain ⟨id,attempt⟩ := Prod.mk.inj same
  have recorded : (System.machine.run (initial World.empty) executedReport).world.recorded
      (.attempt reportId 1) := by
    refine .inl ⟨record,member,?_⟩
    simp [IExecution.facts,id,attempt]
  refine ⟨recorded,?_⟩
  exact traces_attested executedReport reportId (by decide +kernel) _
    ⟨executedReport,List.prefix_rfl,rfl⟩ _ rfl recorded

end JobScheduler
