import JobScheduler.ExclusiveDelivery
import JobScheduler.IdempotencyKey

/-! Submissions among all other calls. Each enqueue is followed from the computation of its
id to the document that it creates and the queue that it adds the id to; nothing else
creates documents or adds ids. -/
namespace JobScheduler

open JobRepository

def QueueCall.adds : QueueCall → Bool
  | .enqueue _ _ _ => true
  | _ => false

def RepositoryCall.creates : RepositoryCall → Bool
  | .createJob _ => true
  | _ => false

/-- A call of the service, or one of the queue or of the repository with any arguments.
`createJob` and the queue's `enqueue` have one caller, the service's `enqueue`. -/
inductive Demand where
  | request (request : Request)
  | queue (call : QueueCall) (spares : call.adds = false)
  | repository (call : RepositoryCall) (spares : call.creates = false)

namespace Demand

def program : Demand → Async Unit
  | .request call => System.program call
  | .queue call _ => RedisJobQueue.program call
  | .repository call _ => Repository.program call

def starts (op : Op) : List Demand := (System.starts op).map .request

def machine : Machine signature Thrown World Oracle Demand StoreEvent := service program starts

end Demand

abbrev DemandState := State signature Thrown World Demand
abbrev DemandLabel := Label Oracle Demand StoreEvent
abbrev DemandCall := Call signature Thrown Demand

def Op.submits : Op → Bool
  | .uuidv4 | .job (.createJob _) | .zaddNX _ _ _ => true
  | _ => false

/-- How far a submission has come. -/
inductive Submission where
  | elsewhere
  | keying (request : CreateJobRequest)
  | drawn (request : CreateJobRequest) (uuid : String)
  | adding (jobType : JobType) (jobId : String)

namespace Submission

def allowed : Submission → Op → Prop
  | .elsewhere, op => op.submits = false
  | .keying request, .uuidv4 => request.ownType = false
  | .keying request, .job (.createJob input) => request.ownType = true ∧
      ∀ uuid, JobService.submitted request uuid = some input
  | .drawn request uuid, .job (.createJob input) => request.ownType = false ∧
      JobService.submitted request uuid = some input
  | .adding jobType jobId, .zaddNX key _ member => key = queueKeyMap jobType ∧ member = jobId
  | _, _ => False

def next : Submission → (op : Op) → Except Thrown op.Reply → Submission
  | .keying request, .uuidv4, .ok uuid => .drawn request uuid
  | .keying _, .job (.createJob input), .ok _ => .adding input.jobType input.jobId
  | .drawn _ _, .job (.createJob input), .ok _ => .adding input.jobType input.jobId
  | _, _, _ => .elsewhere

def monitor : Program.Monitor signature Thrown Submission where
  allowed := allowed
  answers _ _ _ := True
  next := next

@[simp] theorem monitor_allowed : monitor.allowed = allowed := rfl
@[simp] theorem monitor_answers : monitor.answers = fun _ _ _ => True := rfl
@[simp] theorem monitor_next : monitor.next = next := rfl

abbrev Meets (phase : Submission) (program : Async α) : Prop :=
  Program.wp monitor (fun _ _ => True) program phase

theorem meets_elsewhere {program : Async α} (within : Within (fun op => !op.submits) program) :
    Meets .elsewhere program :=
  Program.Uses.wp within (fun op spared => (Bool.not_eq_true' op.submits).mp spared)
    (fun _ _ _ => rfl) fun _ => trivial

section Enqueue

attribute [local simp] allowed next Program.forall_except Program.perform await publishToExchange
  RedisJobQueue.enqueue JobRepository.createJobCall Op.submits

theorem meets_submit (definition : JobDefinition) (request : CreateJobRequest) (jobId : String)
    {phase : Submission}
    (may : allowed phase (.job (.createJob (JobService.input definition request jobId))))
    (then_adds : ∀ job, next phase (.job (.createJob (JobService.input definition request jobId)))
      (.ok job) = .adding request.jobType jobId) :
    Meets phase (JobService.submit definition request jobId) := by
  simp only [JobService.submit,Meets,Program.wp_bind]
  refine ⟨may,?_⟩
  rintro (e | job) _
  · trivial
  · simp only [monitor_next,then_adds]
    simp

theorem meets_enqueue (request : CreateJobRequest) :
    Meets (.keying request) (JobService.enqueue request) := by
  obtain ⟨definition,known⟩ := JobService.known request
  rw [JobService.enqueue_eq known]
  cases own : request.ownType with
  | false =>
    simp only [if_true,Meets,Program.wp_bind]
    refine ⟨own,?_⟩
    rintro (e | uuid) _
    · trivial
    · refine meets_submit definition request uuid ⟨own,?_⟩ fun _ => rfl
      simp [JobService.submitted_eq known,own]
  | true =>
    simp only [Bool.true_eq_false,if_false]
    cases keyed : request.payload.key request.jobType with
    | none => trivial
    | some jobId =>
      refine meets_submit definition request jobId ⟨own,fun uuid => ?_⟩ fun _ => rfl
      simp [JobService.submitted_eq known,own,keyed]

end Enqueue

theorem spares_request {request : Request} (other : ∀ own, request ≠ .enqueue own) :
    Within (fun op => !op.submits) (System.program request) := by
  refine (Within.program request).mono fun op listed => ?_
  cases request with
  | enqueue own => exact absurd rfl (other own)
  | _ =>
    cases op with
    | job write => cases write <;> first | rfl | cases listed
    | _ => first | rfl | cases listed

theorem spares_queue {call : QueueCall} (spares : call.adds = false) :
    Within (fun op => !op.submits) (RedisJobQueue.program call) := by
  cases call with
  | enqueue jobType jobId nextRunAtMs => cases spares
  | dequeue jobType nowMs count =>
    have reads : Within (fun op => !op.submits) (RedisJobQueue.dequeue jobType nowMs count) := by
      refine (Within.dequeue jobType nowMs count).mono fun op listed => ?_
      cases op <;> first | rfl | cases listed
    exact reads.bind fun _ => .pure _
  | remove jobType jobId => exact (Within.bind (.await rfl) fun _ => .pure _).bind fun _ => .pure _
  | reschedule jobType jobId nextRunAtMs =>
    exact (Within.bind (.await rfl) fun _ => .pure _).bind fun _ => .pure _

theorem spares_repository {call : RepositoryCall} (spares : call.creates = false) :
    Within (fun op => !op.submits) (Repository.program call) := by
  cases call with
  | createJob input => cases spares
  | claimJob | markCompleted | markFailed | resetStaleJobs =>
    exact Within.bind (Within.bind (Within.await rfl) fun _ => Within.await rfl) fun _ => Within.pure _
  | markDead | cancelJob => exact (Within.await rfl).bind fun _ => .pure _

def start : Demand → Submission
  | .request (.enqueue request) => .keying request
  | _ => .elsewhere

theorem meets_program (demand : Demand) : Meets (start demand) demand.program := by
  cases demand with
  | request request =>
    by_cases enqueues : ∃ own, request = .enqueue own
    · obtain ⟨own,rfl⟩ := enqueues
      refine (Program.wp_bind ..).mpr (Program.wp_mono (meets_enqueue own) ?_)
      rintro phase (e | job) _
      · trivial
      · trivial
    · have outside : start (.request request) = .elsewhere := by
        cases request with
        | enqueue own => exact absurd ⟨own,rfl⟩ enqueues
        | _ => rfl
      rw [outside]
      exact meets_elsewhere (spares_request fun own same => enqueues ⟨own,same⟩)
  | queue call spares => exact meets_elsewhere (spares_queue spares)
  | repository call spares => exact meets_elsewhere (spares_repository spares)

end Submission

def submission : Protocol Demand.machine Submission where
  monitor := Submission.monitor
  start := Submission.start
  post _ _ := True
  meets := Submission.meets_program

def Call.drewId (call : DemandCall) (uuid : String) : Bool :=
  call.history.any fun
    | ⟨.uuidv4,.ok drawn⟩ => drawn = uuid
    | _ => false

/-- The enqueue whose id is being computed, and the id that it has drawn. -/
def Submission.source : Submission → Option (CreateJobRequest × Option String)
  | .keying request => some (request,none)
  | .drawn request uuid => some (request,some uuid)
  | _ => none

theorem start_source {demand : Demand} {request : CreateJobRequest} {uuid : Option String}
    (source : (Submission.start demand).source = some (request,uuid)) :
    demand = .request (.enqueue request) ∧ uuid = none := by
  unfold Submission.start at source
  split at source
  · obtain ⟨rfl,rfl⟩ := Prod.mk.inj (Option.some.inj source)
    exact ⟨rfl,rfl⟩
  · cases source

theorem next_source {phase : Submission} {op : Op} {reply : Except Thrown op.Reply}
    {request : CreateJobRequest} {uuid : Option String}
    (source : (Submission.next phase op reply).source = some (request,uuid)) :
    phase.source = some (request,none) ∧
      ∃ drawn, uuid = some drawn ∧ (⟨op,reply⟩ : Exchange signature Thrown) = ⟨.uuidv4,.ok drawn⟩ := by
  unfold Submission.next at source
  split at source
  · obtain ⟨rfl,rfl⟩ := Prod.mk.inj (Option.some.inj source)
    exact ⟨rfl,_,rfl,rfl⟩
  all_goals cases source

/-- A call that computes an id is the enqueue of its request, and its history shows what it
has drawn. -/
theorem phase_source {call : DemandCall} {request : CreateJobRequest} {uuid : Option String}
    (source : (submission.phase call).source = some (request,uuid)) :
    call.request = .request (.enqueue request) ∧ ∀ drawn ∈ uuid, call.drewId drawn = true := by
  obtain ⟨demand,program,history⟩ := call
  induction history generalizing uuid with
  | nil =>
    obtain ⟨is,rfl⟩ := start_source source
    exact ⟨is,nofun⟩
  | cons exchange history ih =>
    obtain ⟨op,reply⟩ := exchange
    obtain ⟨before,drawn,rfl,⟨rfl,rfl⟩⟩ := next_source source
    refine ⟨(ih before).1,?_⟩
    rintro _ ⟨⟩
    simp [Call.drewId]

namespace Submission

theorem allowed_createJob {phase : Submission} {input : EnqueueJobInput}
    (may : phase.allowed (.job (.createJob input))) : ∃ request,
      (phase = .keying request ∧ request.ownType = true ∧
        ∀ uuid, JobService.submitted request uuid = some input) ∨
      ∃ uuid, phase = .drawn request uuid ∧ request.ownType = false ∧
        JobService.submitted request uuid = some input := by
  cases phase with
  | elsewhere => cases may
  | keying request => exact ⟨request,.inl ⟨rfl,may⟩⟩
  | drawn request uuid => exact ⟨request,.inr ⟨uuid,rfl,may⟩⟩
  | adding => exact False.elim may

theorem allowed_zaddNX {phase : Submission} {key member : String} {score : Int}
    (may : phase.allowed (.zaddNX key score member)) :
    ∃ jobType, phase = .adding jobType member ∧ key = queueKeyMap jobType := by
  cases phase with
  | elsewhere => cases may
  | adding jobType jobId =>
    obtain ⟨rfl,rfl⟩ := may
    exact ⟨jobType,rfl,rfl⟩
  | _ => exact False.elim may

end Submission

theorem Demand.document_moves (s : DemandState) (label : DemandLabel) (jobId : String) :
    DocumentMoves jobId (written s label) (fun job => outlives job label)
      (s.world.jobs.lookup jobId) ((Demand.machine.step s label).world.jobs.lookup jobId) :=
  JobScheduler.document_moves _ _ s label jobId

theorem starts_enqueue (op : Op) (request : CreateJobRequest) :
    Demand.request (.enqueue request) ∉ Demand.starts op := by
  intro starts
  obtain ⟨started,listed,same⟩ := List.mem_map.mp starts
  obtain rfl := Demand.request.inj same
  cases op with
  | dispatch instanceId jobIds jobType =>
    obtain ⟨jobId,_,run⟩ := List.mem_map.mp listed
    cases run
  | _ => cases listed

section Steps

variable {s : DemandState} {label : DemandLabel}

theorem submission_step (s : DemandState) (label : DemandLabel) (followed : submission.Followed s) :
    submission.Followed (Demand.machine.step s label) := by
  refine Protocol.followed_moves (Demand.machine.step_moves s label) ?_ followed
  cases label <;> simp [Protocol.Answers,submission]

theorem created_by {input : EnqueueJobInput} (followed : submission.Followed s)
    (creates : written s label = some (.createJob input)) : ∃ call ∈ s.calls, ∃ request,
      call.request = .request (.enqueue request) ∧
      ∃ uuid, JobService.submitted request uuid = some input ∧
        (request.ownType = false → call.drewId uuid = true) := by
  obtain ⟨index,ω,_,awaiting,_⟩ := written_eq_some creates
  obtain ⟨call,rest,found,awaits⟩ := State.awaits_eq_some.mp awaiting
  refine ⟨call,List.mem_of_getElem? found,?_⟩
  obtain ⟨request,keyed | drawn⟩ := Submission.allowed_createJob (followed.allowed found awaits)
  · obtain ⟨phase,own,submitted⟩ := keyed
    have source : (submission.phase call).source = some (request,none) := by rw [phase]; rfl
    refine ⟨request,(phase_source source).1,"",submitted "",fun foreign => ?_⟩
    rw [own] at foreign
    cases foreign
  · obtain ⟨uuid,phase,_,submitted⟩ := drawn
    have source : (submission.phase call).source = some (request,some uuid) := by rw [phase]; rfl
    obtain ⟨is,drew⟩ := phase_source source
    exact ⟨request,is,uuid,submitted,fun _ => drew uuid rfl⟩

end Steps

end JobScheduler
