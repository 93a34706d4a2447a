import JobScheduler.DeadLettering

/-! Delivery of outbox events. Every message goes out on the scheduler exchange under
the key of its payload, and the queue of dead jobs is bound on the other exchange: the
broker drops the event, and the flush marks it completed. -/
namespace JobScheduler

def EventPayload.key : EventPayload → RoutingKey
  | .completed _ _ _ _ _ _ _ => .jobCompleted
  | .failed _ _ _ _ _ _ => .jobFailed
  | .dead _ _ _ _ _ _ => .jobDead
  | .scheduled _ _ _ _ _ _ => .jobScheduled
  | .claimed _ _ _ _ _ _ => .jobClaimed
  | .retrying _ _ _ _ _ _ _ => .jobRetrying
  | .cancelled _ _ _ _ _ => .jobCancelled

def IOutboxEvent.isDeathNotice (e : IOutboxEvent) : Bool :=
  e.type = .jobDead && e.payload.key = .jobDead

/-- Every completed event lies in the queue of its routing key. -/
def Delivered (w : World) : Prop :=
  ∀ e ∈ w.outbox, e.status = .completed →
    (RabbitMq.queues e.type).any (fun queue => (queue,e.payload) ∈ w.placed) = true

instance (w : World) : Decidable (Delivered w) :=
  inferInstanceAs (Decidable (∀ e ∈ w.outbox, _ → _))

def completesEvent (s : SystemState) : SystemLabel → Bool
  | .resume index ω =>
    match s.awaits index with
    | some (.completeOutbox id _) => ω.delivery.applies && s.world.outbox.any fun e => e.id = id
    | _ => false
  | _ => false

namespace Addressing

/-- Payloads go out under their own key, and the outbox gets death notices only. -/
def allowed : Op → Prop
  | .publish key payload => payload.key = key
  | .commitDeadLetter _ type payload _ => type = .jobDead ∧ payload.key = .jobDead
  | .retryOutbox _ status _ _ => status ≠ .completed
  | _ => True

def answers : (op : Op) → Except Thrown op.Reply → Prop
  | .findOutbox _ _, .ok events => ∀ e ∈ events, e.isDeathNotice = true
  | _, _ => True

def monitor : Program.Monitor signature Thrown Unit where
  allowed _ := allowed
  answers _ := answers
  next _ _ _ := ()

@[simp] theorem monitor_allowed : monitor.allowed = fun _ => allowed := rfl
@[simp] theorem monitor_answers : monitor.answers = fun _ => answers := rfl
@[simp] theorem monitor_next : monitor.next = fun _ _ _ => () := rfl

abbrev Meets (program : Async α) : Prop := Program.wp monitor (fun _ _ => True) program ()

theorem meets_within {ops : Op → Bool} {program : Async α} (within : Within ops program)
    (addressed : ∀ op, ops op = true → allowed op) : Meets program :=
  Program.Uses.wp within addressed (fun _ _ _ => rfl) fun _ => trivial

section Programs

attribute [local simp] allowed answers EventPayload.key Program.forall_except
  Program.perform await dateNow publishToExchange HeartbeatWatchdog.writeHeartbeat
  HeartbeatWatchdog.clearHeartbeat JobRepository.claimJobCall JobRepository.markCompletedCall
  JobRepository.markFailedCall JobRepository.markDeadCall RedisJobQueue.reschedule
  RedisJobQueue.enqueue RedisJobQueue.remove JobRepository.createJobCall
  JobRepository.cancelJobCall JobRepository.findByJobIdCall

theorem meets_enqueue (request : CreateJobRequest) :
    Meets (System.program (.enqueue request)) := by
  simp only [System.program,JobService.enqueue,Meets,Program.wp_bind]
  split
  · simp
  · rename_i definition known
    simp only [Program.wp_bind]
    apply Within.wp_idempotencyKeyFn known _ trivial fun _ => rfl
    rintro (e | jobId)
    · simp
    · simp

theorem meets_cancel (jobId cancelledBy : String) :
    Meets (System.program (.cancel jobId cancelledBy)) := by
  simp only [System.program,JobService.cancel,Meets,Program.wp_bind]
  simp
  rintro (_ | job)
  · simp
  · simp

theorem meets_create (job : IJob) (lastError : Text) :
    Meets (DeadLetterService.create job lastError) := by
  simp [DeadLetterService.create,Program.tryFinally]

theorem meets_handleFailure (job : IJob) (error : Text) (newVersion : Nat) :
    Meets (RetryService.handleFailure job error newVersion) := by
  have created := meets_create job error
  by_cases exhausted : job.maxAttempts ≤ job.attempts
  · simp [RetryService.handleFailure,exhausted,created]
  · simp [RetryService.handleFailure,RetryService.computeNextRunAt,exhausted]

theorem meets_runClaimed (instanceId : String) (job : IJob) :
    Meets (JobExecutor.runClaimed bootstrapHandlers instanceId job) := by
  have handled := fun error => meets_handleFailure job error (job.version + 1)
  have recorded : ∀ startedAt error,
      Meets (JobExecutor.recordFailure instanceId startedAt job error) := by
    intro startedAt error
    simp [JobExecutor.recordFailure,handled]
  simp [JobExecutor.runClaimed,JobExecutor.attempt,JobExecutor.handle,bootstrapHandlers,recorded]

theorem meets_execute (instanceId : String) (job : IJob) :
    Meets (JobExecutor.execute bootstrapHandlers instanceId job) := by
  simp only [Meets,JobExecutor.execute,Program.wp_bind]
  simp
  rintro now (_ | own)
  · simp
  · exact meets_runClaimed instanceId own

theorem meets_run (instanceId jobId : String) : Meets (Worker.run instanceId jobId) := by
  simp only [Meets,Worker.run,Program.wp_bind]
  simp
  rintro (_ | job)
  · simp
  · exact meets_execute instanceId job

theorem meets_flushEvents (events : List IOutboxEvent)
    (notices : ∀ e ∈ events, e.isDeathNotice = true) : Meets (OutboxPoller.flushEvents events) := by
  induction events with
  | nil => trivial
  | cons e events ih =>
    have rest := ih fun other member => notices other (List.mem_cons_of_mem e member)
    obtain ⟨type,key⟩ : e.type = .jobDead ∧ e.payload.key = .jobDead := by
      simpa [IOutboxEvent.isDeathNotice,-EventPayload.key] using notices e List.mem_cons_self
    simp [OutboxPoller.flushEvents,OutboxPoller.flushEvent,rest,type,key,-EventPayload.key]
    intro thrown
    split <;> simp

theorem meets_flush : Meets OutboxPoller.flush := by
  have found := meets_flushEvents
  simpa [OutboxPoller.flush] using found

end Programs

theorem meets_program (request : Request) : Meets (System.program request) := by
  cases request with
  | enqueue request => exact meets_enqueue request
  | cancel jobId cancelledBy => exact meets_cancel jobId cancelledBy
  | run instanceId jobId => exact meets_run instanceId jobId
  | execute instanceId job => exact meets_execute instanceId job
  | flush => exact meets_flush
  | _ =>
    apply meets_within (Within.program _)
    intro op listed
    cases op <;> trivial

end Addressing

def addressing : Protocol System.machine Unit where
  monitor := Addressing.monitor
  start _ := ()
  post _ _ := True
  meets := Addressing.meets_program

/-- No message in any queue announces a death, and the outbox holds nothing else. -/
structure Misaddressed (s : SystemState) : Prop where
  followed : addressing.Followed s
  notices : ∀ e ∈ s.world.outbox, e.isDeathNotice = true
  absent : ∀ message ∈ s.world.placed, message.2.key ≠ .jobDead

variable {s : SystemState} {label : SystemLabel} {labels : List SystemLabel}

theorem mem_findOutbox {w : World} {maxRetryCount limit : Nat} {e : IOutboxEvent}
    (found : e ∈ w.findOutbox maxRetryCount limit) : e ∈ w.outbox := by
  have sorted := List.mem_of_mem_take found
  rw [List.mem_insertionSort] at sorted
  exact List.mem_of_mem_filter sorted

theorem findOutbox_ok {w : World} {ω : Oracle} {maxRetryCount limit : Nat}
    {events : List IOutboxEvent}
    (replied : (perform (.findOutbox maxRetryCount limit) ω w).1 = .ok events) :
    events = w.findOutbox maxRetryCount limit :=
  (Except.ok.inj (deliver_ok replied).2).symm

theorem addressing_answers (misaddressed : Misaddressed s) (label : SystemLabel) :
    addressing.Answers s label := by
  cases label with
  | resume index ω =>
    intro call op rest _ _
    cases op with
    | findOutbox maxRetryCount limit =>
      cases replied : (perform (.findOutbox maxRetryCount limit) ω s.world).1 with
      | error e => simp [replied,addressing,Addressing.answers]
      | ok events =>
        obtain rfl := findOutbox_ok replied
        simp only [System.machine_perform,replied]
        intro e found
        exact misaddressed.notices e (mem_findOutbox found)
    | _ => trivial
  | _ => simp [Protocol.Answers,addressing]

theorem places_absent {op : Op} {ω : Oracle} {placed : RabbitMq.Placed}
    (may : Addressing.allowed op) (absent : ∀ message ∈ placed, message.2.key ≠ .jobDead) :
    ∀ message ∈ op.places ω placed, message.2.key ≠ .jobDead := by
  rintro ⟨queue,body⟩ member
  cases op with
  | publish key payload =>
    simp only [Op.places] at member
    split at member
    · rcases RabbitMq.mem_publish.mp member with old | ⟨bound,rfl⟩
      · exact absent _ old
      · intro dies
        have own : body.key = key := may
        rw [own] at dies
        subst dies
        revert bound
        cases queue <;> decide
    · exact absent _ member
  | _ => exact absent _ member

theorem giveUp_absent {index : Nat} {placed : RabbitMq.Placed}
    (absent : ∀ message ∈ placed, message.2.key ≠ .jobDead) :
    ∀ message ∈ RabbitMq.giveUp placed index, message.2.key ≠ .jobDead := by
  rintro ⟨queue,body⟩ member
  unfold RabbitMq.giveUp at member
  split at member
  · exact absent _ member
  · rename_i origin payload found
    split at member
    · exact absent _ member
    · rcases RabbitMq.mem_publish.mp member with old | ⟨_,rfl⟩
      · exact absent _ old
      · exact absent (origin,body) (List.mem_of_getElem? found)

theorem outbox_notices {op : Op} {ω : Oracle} {w : World} (may : Addressing.allowed op)
    (notices : ∀ e ∈ w.outbox, e.isDeathNotice = true) :
    ∀ e ∈ (perform op ω w).2.outbox, e.isDeathNotice = true := by
  intro e member
  rw [perform_outbox] at member
  rcases List.mem_append.mp member with old | new
  · obtain ⟨before,stored,rfl⟩ := List.mem_map.mp old
    simpa [IOutboxEvent.isDeathNotice] using notices before stored
  · obtain ⟨⟨letter,event⟩,commits,rfl⟩ := List.mem_map.mp new
    obtain ⟨type,payload,createdAt,rfl,rfl⟩ := commits_eq_some (Option.mem_toList.mp commits)
    obtain ⟨type,key⟩ := may
    simp [IOutboxEvent.isDeathNotice,World.newEvent,type,key]

theorem misaddressed_step (misaddressed : Misaddressed s) :
    Misaddressed (System.machine.step s label) := by
  have moves := System.machine.step_moves s label
  have followed := Protocol.followed_moves moves (addressing_answers misaddressed label)
    misaddressed.followed
  generalize System.machine.step s label = t at moves followed
  cases moves with
  | submit | idle | absent | crash => exact ⟨followed,misaddressed.notices,misaddressed.absent⟩
  | answer index ω call op rest found awaits =>
    have may : Addressing.allowed op := misaddressed.followed.allowed found awaits
    refine ⟨followed,outbox_notices may misaddressed.notices,?_⟩
    change ∀ message ∈ (perform op ω s.world).2.placed, _
    rw [perform_placed]
    exact places_absent may misaddressed.absent
  | environment event =>
    cases event with
    | expireJobs now => exact ⟨followed,misaddressed.notices,misaddressed.absent⟩
    | giveUp index => exact ⟨followed,misaddressed.notices,giveUp_absent misaddressed.absent⟩

/-- Under the misaddressing a delivered outbox is one without completed events. -/
theorem delivered_iff (misaddressed : Misaddressed s) :
    Delivered s.world ↔ ∀ e ∈ s.world.outbox, e.status ≠ .completed := by
  constructor
  · intro delivered e member completed
    obtain ⟨queue,_,placed⟩ := (Option.any_eq_true ..).mp (delivered e member completed)
    obtain ⟨_,key⟩ : e.type = .jobDead ∧ e.payload.key = .jobDead := by
      simpa [IOutboxEvent.isDeathNotice] using misaddressed.notices e member
    exact misaddressed.absent _ (of_decide_eq_true placed) key
  · intro pending e member completed
    exact absurd completed (pending e member)

theorem uncompleted_step (misaddressed : Misaddressed s)
    (spares : completesEvent s label = false)
    (uncompleted : ∀ e ∈ s.world.outbox, e.status ≠ .completed) :
    ∀ e ∈ (System.machine.step s label).world.outbox, e.status ≠ .completed := by
  have moves := System.machine.step_moves s label
  generalize System.machine.step s label = t at moves
  cases moves with
  | submit | idle | absent | crash => exact uncompleted
  | environment event => cases event <;> exact uncompleted
  | answer index ω call op rest found awaits =>
    intro e member
    have awaiting : s.awaits index = some op := State.awaits_eq_some.mpr ⟨call,rest,found,awaits⟩
    have may : Addressing.allowed op := misaddressed.followed.allowed found awaits
    change e ∈ (perform op ω s.world).2.outbox at member
    rw [perform_outbox] at member
    rcases List.mem_append.mp member with old | new
    · obtain ⟨before,stored,rfl⟩ := List.mem_map.mp old
      cases op with
      | completeOutbox id processedAt =>
        simp only [completesEvent,awaiting,Bool.and_eq_false_iff,List.any_eq_false,
          decide_eq_true_eq] at spares
        simp only [Op.marks]
        split
        · rename_i hits
          obtain ⟨applies,same⟩ : ω.delivery.applies = true ∧ before.id = id := by simpa using hits
          rcases spares with lost | missing
          · rw [applies] at lost
            cases lost
          · exact absurd same (missing before stored)
        · exact uncompleted before stored
      | retryOutbox id status retryCount lastError =>
        simp only [Op.marks]
        split
        · exact may
        · exact uncompleted before stored
      | _ => exact uncompleted before stored
    · obtain ⟨⟨letter,event⟩,commits,rfl⟩ := List.mem_map.mp new
      obtain ⟨type,payload,createdAt,_,rfl⟩ := commits_eq_some (Option.mem_toList.mp commits)
      simp [World.newEvent]

theorem completed_after (completes : completesEvent s label = true) :
    ∃ e ∈ (System.machine.step s label).world.outbox, e.status = .completed := by
  unfold completesEvent at completes
  split at completes
  · rename_i index ω
    split at completes
    · rename_i id processedAt awaiting
      obtain ⟨applies,stored⟩ := Bool.and_eq_true_iff.mp completes
      obtain ⟨e,member,same⟩ := List.any_eq_true.mp stored
      obtain ⟨call,rest,found,awaits⟩ := State.awaits_eq_some.mp awaiting
      have moved : System.machine.step s (.resume index ω) =
          System.machine.answered s index call (.completeOutbox id processedAt) rest ω := by
        simp [Machine.step,found,awaits]
      rw [moved]
      change ∃ e ∈ (perform (.completeOutbox id processedAt) ω s.world).2.outbox, _
      rw [perform_outbox]
      refine ⟨_,List.mem_append_left _ (List.mem_map_of_mem member),?_⟩
      have hit : e.id = id := of_decide_eq_true same
      simp [Op.marks,applies,hit]
    · cases completes
  · cases completes

theorem delivered_run (misaddressed : Misaddressed s)
    (uncompleted : ∀ e ∈ s.world.outbox, e.status ≠ .completed) :
    (∀ t, System.machine.Reached s labels t → Delivered t.world) ↔
      System.machine.Along (fun s label => completesEvent s label = false) s labels := by
  have admitted : ∀ label ∈ labels, True := fun _ _ => trivial
  refine Machine.reached_iff_along
    (fun s : SystemState => Misaddressed s ∧ ∀ e ∈ s.world.outbox, e.status ≠ .completed) ?_ ?_ ?_
    admitted ⟨misaddressed,uncompleted⟩
  · rintro s ⟨misaddressed,uncompleted⟩
    exact (delivered_iff misaddressed).mpr uncompleted
  · rintro s label - ⟨misaddressed,uncompleted⟩ delivered
    have after := (delivered_iff (misaddressed_step misaddressed)).mp delivered
    rw [Bool.eq_false_iff]
    intro completes
    obtain ⟨e,member,completed⟩ := completed_after completes
    exact after e member completed
  · rintro s label - ⟨misaddressed,uncompleted⟩ spares
    exact ⟨misaddressed_step misaddressed,uncompleted_step misaddressed spares uncompleted⟩

theorem misaddressed_initial : Misaddressed (initial World.empty) where
  followed := addressing.followed_initial World.empty
  notices e member := by cases member
  absent message member := by cases member

/-- Completed events lie in their queues along a run exactly when no event is ever
completed. -/
theorem outbox_delivers (labels : List SystemLabel) :
    (∀ t, System.machine.Reached (initial World.empty) labels t → Delivered t.world) ↔
      System.machine.Along (fun s label => completesEvent s label = false)
        (initial World.empty) labels := by
  apply delivered_run misaddressed_initial
  intro e member
  cases member

/-- The dead report's event is flushed once, with the broker up. -/
theorem death_notice_lost :
    ¬ ∀ labels t, System.machine.Reached (initial World.empty) labels t → Delivered t.world := by
  intro delivered
  have last := delivered (exhausting ++ [.submit .flush] ++ drive 12 4 1200000) _
    ⟨_,List.prefix_rfl,rfl⟩
  exact absurd last (by decide +kernel)

/-- Each queue holds the payloads made for it, but the queue of dead jobs: it holds what the
queue of failures gave up on. -/
def Sorted (w : World) : Prop :=
  ∀ message ∈ w.placed, RabbitMq.queues message.2.key = some message.1 ∨
    message.1 = .dead ∧ message.2.key = .jobFailed ∧ (QueueName.failed,message.2) ∈ w.placed

instance (w : World) : Decidable (Sorted w) :=
  inferInstanceAs (Decidable (∀ message ∈ w.placed, _ ∨ _ ∧ _ ∧ _))

theorem queues_bound {queue : QueueName} {key : RoutingKey}
    (bound : (queue,.schedulerExchange,key) ∈ RabbitMq.bindQueueCalls) :
    RabbitMq.queues key = some queue := by
  revert bound
  cases queue <;> cases key <;> decide

theorem bound_dead {queue : QueueName} {key : RoutingKey}
    (bound : (queue,.schedulerDlx,key) ∈ RabbitMq.bindQueueCalls) : queue = .dead := by
  revert bound
  cases queue <;> cases key <;> decide

theorem queues_failed {key : RoutingKey} (filed : RabbitMq.queues key = some .failed) :
    key = .jobFailed := by
  revert filed
  cases key <;> decide

theorem sorted_answer {op : Op} {ω : Oracle} {w : World} (may : Addressing.allowed op)
    (sorted : Sorted w) : Sorted (perform op ω w).2 := by
  rintro ⟨queue,body⟩ member
  rw [perform_placed] at member ⊢
  cases op with
  | publish key payload =>
    simp only [Op.places] at member ⊢
    split at member
    · rename_i places
      simp only [if_pos places]
      rcases RabbitMq.mem_publish.mp member with old | ⟨bound,rfl⟩
      · refine (sorted _ old).imp_right fun dead => ⟨dead.1,dead.2.1,?_⟩
        exact RabbitMq.mem_publish.mpr (.inl dead.2.2)
      · have own : body.key = key := may
        exact .inl (own ▸ queues_bound bound)
    · rename_i places
      simpa only [if_neg places] using sorted _ member
  | _ => exact sorted _ member

theorem sorted_giveUp {index : Nat} {w : World} (sorted : Sorted w) :
    Sorted (System.environment (.giveUp index) w) := by
  have kept : ∀ message ∈ w.placed, message ∈ RabbitMq.giveUp w.placed index := by
    intro message member
    unfold RabbitMq.giveUp
    split
    · exact member
    · split
      · exact member
      · exact List.mem_append_left _ member
  rintro ⟨queue,body⟩ member
  have old : (queue,body) ∈ w.placed → RabbitMq.queues body.key = some queue ∨
      queue = .dead ∧ body.key = .jobFailed ∧ (.failed,body) ∈ RabbitMq.giveUp w.placed index :=
    fun old => (sorted _ old).imp_right fun dead => ⟨dead.1,dead.2.1,kept _ dead.2.2⟩
  change (queue,body) ∈ RabbitMq.giveUp w.placed index at member
  unfold RabbitMq.giveUp at member
  split at member
  · exact old member
  · rename_i origin payload found
    split at member
    · exact old member
    · rename_i exchange key target
      rcases RabbitMq.mem_publish.mp member with before | ⟨bound,rfl⟩
      · exact old before
      · -- only the queue of failures has a dead-letter exchange
        obtain ⟨rfl,rfl,rfl⟩ : origin = .failed ∧ exchange = .schedulerDlx ∧ key = .jobDead := by
          cases origin <;> simp_all [RabbitMq.deadLetterTarget]
        have source := List.mem_of_getElem? found
        obtain filed | ⟨dead,_⟩ := sorted _ source
        · exact .inr ⟨bound_dead bound,queues_failed filed,kept _ source⟩
        · cases dead

end JobScheduler
