import JobScheduler.Submission

/-! Two submissions of the same work. They share their job id when both keep the type
field and, for orders, show the same cart id, which is no identifying field; then all
submissions of the two, however often and in whatever order, leave one document. -/
namespace JobScheduler

open JobRepository

/-- What the keys of two requests for the same work rest on. -/
structure ShareKey (request request' : CreateJobRequest) : Prop where
  ownType : request.ownType = true ∧ request'.ownType = true
  sameCart : request.jobType = .orderAbandonment → request.payload.interpolated "stage" = none ∨
    request.payload.interpolated "cartId" = request'.payload.interpolated "cartId"

def submitsOnly (request request' : CreateJobRequest) (label : DemandLabel) : Prop :=
  ∀ own, label = .submit (.request (.enqueue own)) → own = request ∨ own = request'

/-- Whatever fresh ids are drawn, the two requests get the same job id, and whatever calls
are made beside them, all their submissions together add at most one document. -/
structure Idempotent (request request' : CreateJobRequest) : Prop where
  sameId : ∀ uuid uuid', uuid ≠ uuid' →
    JobService.jobId request uuid = JobService.jobId request' uuid'
  oneDocument : ∀ (world : World) (labels : List DemandLabel) (t : DemandState),
    Demand.machine.Along (fun _ label => submitsOnly request request' label) ⟨world,[]⟩ labels →
    Demand.machine.Reached ⟨world,[]⟩ labels t →
    ∀ job ∈ t.world.jobs.docs, ∀ job' ∈ t.world.jobs.docs,
      world.jobs.lookup job.jobId = none → world.jobs.lookup job'.jobId = none → job = job'

section SameWork

variable {request request' : CreateJobRequest}

theorem identity_field (type : request.jobType = request'.jobType)
    (identity : request.identity = request'.identity) {name : String}
    (listed : name ∈ request.jobType.identifyingFields) :
    request.payload.interpolated name = request'.payload.interpolated name := by
  have same : request.payload.field name = request'.payload.field name := by
    rw [CreateJobRequest.identity,CreateJobRequest.identity,← type] at identity
    exact List.map_inj_left.mp identity name listed
  rw [JobPayload.interpolated,same]
  rfl

/-- The keys of the same work are the same, up to the cart id of an order. -/
theorem sameKey_iff (type : request.jobType = request'.jobType)
    (identity : request.identity = request'.identity) :
    request.payload.key request.jobType = request'.payload.key request'.jobType ↔
      (request.jobType = .orderAbandonment → request.payload.interpolated "stage" = none ∨
        request.payload.interpolated "cartId" = request'.payload.interpolated "cartId") := by
  have fields : ∀ name ∈ request.jobType.identifyingFields,
      request.payload.interpolated name = request'.payload.interpolated name :=
    fun _ listed => identity_field type identity listed
  rw [← type]
  by_cases order : request.jobType = .orderAbandonment
  · have stage := fields "stage" (by simp [order,JobType.identifyingFields])
    have parts : ∀ payload : JobPayload, payload.key .orderAbandonment =
        (payload.interpolated "cartId").bind fun cartId => (payload.interpolated "stage").map
          fun stage => JobType.orderAbandonment.name ++ ":" ++ cartId ++ ":" ++ stage :=
      fun payload => key_two rfl payload
    rw [order,parts,parts,← stage]
    cases request.payload.interpolated "stage" with
    | none => simp
    | some stage =>
      have injective : Function.Injective fun cartId =>
          JobType.orderAbandonment.name ++ ":" ++ cartId ++ ":" ++ stage := by
        intro cartId cartId' same
        exact String.toList_inj.mp (by simpa using congrArg String.toList same)
      have mapped : ∀ cart : Option String, (cart.bind fun cartId => (some stage).map fun stage =>
          JobType.orderAbandonment.name ++ ":" ++ cartId ++ ":" ++ stage) =
            cart.map fun cartId => JobType.orderAbandonment.name ++ ":" ++ cartId ++ ":" ++ stage := by
        rintro (_ | cartId)
        · rfl
        · rfl
      rw [mapped,mapped,(Option.map_injective injective).eq_iff]
      simp
  · have identifying : request.jobType.keyFields = request.jobType.identifyingFields := by
      cases is : request.jobType <;> first | rfl | exact absurd is order
    refine iff_of_true (key_congr fun name listed => fields name ?_) fun is => absurd is order
    exact identifying ▸ listed

/-- The computed ids agree for fresh drawn ids exactly when no id is drawn and the keys agree. -/
theorem sameId_iff (type : request.jobType = request'.jobType)
    (identity : request.identity = request'.identity) :
    (∀ uuid uuid', uuid ≠ uuid' →
      JobService.jobId request uuid = JobService.jobId request' uuid') ↔
    ShareKey request request' := by
  simp only [JobService.jobId_eq]
  constructor
  · intro same
    have first := same "a" "b" (by decide)
    have second := same "a" "c" (by decide)
    have third := same "d" "b" (by decide)
    cases own : request.ownType <;> cases own' : request'.ownType <;>
      simp only [own,own',if_true,if_false,Bool.true_eq_false] at first second third
    · simp at first
    · exact absurd (Option.some.inj (first.trans third.symm)) (by decide)
    · exact absurd (Option.some.inj (first.symm.trans second)) (by decide)
    · exact ⟨⟨own,own'⟩,(sameKey_iff type identity).mp first⟩
  · rintro ⟨⟨own,own'⟩,sameCart⟩ uuid uuid' _
    simp only [own,own',Bool.true_eq_false,if_false]
    exact (sameKey_iff type identity).mpr sameCart

/-- Of the enqueues, only the two requests are in progress, and every document that was
not there before has their key. -/
structure OneKey (request request' : CreateJobRequest) (world : World) (s : DemandState) : Prop where
  followed : submission.Followed s
  enqueues : ∀ call ∈ s.calls, ∀ own, call.request = .request (.enqueue own) →
    own = request ∨ own = request'
  stored : ∀ jobId, ∀ job ∈ s.world.jobs.lookup jobId, (world.jobs.lookup jobId).isSome = true ∨
    request.payload.key request.jobType = some jobId

theorem enqueues_step {s : DemandState} {label : DemandLabel}
    (only : submitsOnly request request' label)
    (enqueues : ∀ call ∈ s.calls, ∀ own, call.request = .request (.enqueue own) →
      own = request ∨ own = request') :
    ∀ call ∈ (Demand.machine.step s label).calls, ∀ own, call.request = .request (.enqueue own) →
      own = request ∨ own = request' := by
  intro later member own is
  cases Machine.origin_moves (Demand.machine.step_moves s label) member with
  | kept call before request _ => exact enqueues call before own (request.symm.trans is)
  | answered index ω call op rest _ found _ advanced =>
    subst advanced
    exact enqueues call (List.mem_of_getElem? found) own is
  | submitted submits _ => exact only own (is ▸ submits)
  | started op starts _ =>
    rw [is] at starts
    exact absurd starts (starts_enqueue op own)

theorem created_key {s : DemandState} {label : DemandLabel} {input : EnqueueJobInput}
    (share : ShareKey request request')
    (sameKey : request.payload.key request.jobType = request'.payload.key request'.jobType)
    {world : World} (one : OneKey request request' world s)
    (creates : written s label = some (.createJob input)) :
    request.payload.key request.jobType = some input.jobId := by
  obtain ⟨call,member,own,is,uuid,submitted,_⟩ := created_by one.followed creates
  have computed : JobService.jobId own uuid = some input.jobId := by
    rw [JobService.jobId,submitted]
    rfl
  rw [JobService.jobId_eq] at computed
  rcases one.enqueues call member own is with rfl | rfl
  · rw [share.ownType.1] at computed
    exact computed
  · rw [share.ownType.2] at computed
    exact sameKey.trans computed

theorem oneKey_step {world : World} (share : ShareKey request request')
    (sameKey : request.payload.key request.jobType = request'.payload.key request'.jobType)
    (s : DemandState) (label : DemandLabel) (only : submitsOnly request request' label)
    (one : OneKey request request' world s) :
    OneKey request request' world (Demand.machine.step s label) where
  followed := submission_step s label one.followed
  enqueues := enqueues_step only one.enqueues
  stored := by
    intro jobId after later
    have moves := Demand.document_moves s label jobId
    rw [Option.mem_def.mp later] at moves
    generalize before : s.world.jobs.lookup jobId = found at moves
    cases moves with
    | kept => exact one.stored jobId after before
    | created input is same => exact .inr (same ▸ created_key share sameKey one is)
    | changed write job is selected => exact one.stored jobId job before

/-- Two requests for the same work are one submission exactly when they share their key. -/
theorem submission_idempotent (type : request.jobType = request'.jobType)
    (identity : request.identity = request'.identity) :
    Idempotent request request' ↔ ShareKey request request' := by
  constructor
  · intro idempotent
    exact (sameId_iff type identity).mp idempotent.sameId
  · intro share
    have sameKey := (sameKey_iff type identity).mpr share.sameCart
    refine ⟨(sameId_iff type identity).mpr share,?_⟩
    intro world labels t only reached job stored job' stored' new new'
    have start : OneKey request request' world ⟨world,[]⟩ :=
      ⟨submission.followed_nil world,by simp,fun _ job found => .inl (Option.isSome_of_mem found)⟩
    have one : OneKey request request' world t :=
      Machine.invariant_reached (OneKey request request' world)
        (fun s label only => oneKey_step share sameKey s label only) only start reached
    have keyed : ∀ job ∈ t.world.jobs.docs, world.jobs.lookup job.jobId = none →
        request.payload.key request.jobType = some job.jobId := by
      intro job stored new
      rcases one.stored job.jobId job (Collection.lookup_of_mem stored) with old | keyed
      · rw [new] at old
        cases old
      · exact keyed
    have ids : job.jobId = job'.jobId :=
      Option.some.inj ((keyed job stored new).symm.trans (keyed job' stored' new'))
    exact List.inj_on_of_nodup_map t.world.jobs.unique stored stored' ids

end SameWork

def annotatedReport (name : String) (value : JsonValue) : CreateJobRequest :=
  { reportRequest with payload := (name,value) :: reportRequest.payload }

theorem annotated_idempotent :
    Idempotent reportRequest (annotatedReport "note" .null) ↔
      ShareKey reportRequest (annotatedReport "note" .null) :=
  submission_idempotent rfl rfl

/-- A client key `type` makes every submission of the report draw a new id. -/
theorem typed_report_differs : ¬ ∀ request request' : CreateJobRequest,
    request.jobType = request'.jobType → request.identity = request'.identity →
    Idempotent request request' := by
  intro idempotent
  have same := (idempotent reportRequest (annotatedReport "type" .null) rfl rfl).sameId "a" "b"
    (by decide)
  simp only [JobService.jobId_eq] at same
  exact absurd same (by decide +kernel)

end JobScheduler
