import JobScheduler.Delimited
import JobScheduler.System

/-! The ids of submitted jobs. A request whose payload keeps the type field of its job
type gets a key: the name of the job type and some fields of the payload, each after a
colon. Every other request draws an id. -/
namespace JobScheduler

/-- What a template literal substitutes for a payload field; `none` is the TypeError. -/
def JobPayload.interpolated (payload : JobPayload) (name : String) : Option String :=
  match payload.field name with
  | none => some "undefined"
  | some value => value.shown

theorem template_eq (payload : JobPayload) (name : String) :
    template payload name = (payload.interpolated name).elim (throw typeError) pure := by
  unfold template JobPayload.interpolated
  cases payload.field name with
  | none => rfl
  | some value =>
    dsimp only
    cases value.shown <;> rfl

def JobType.keyFields : JobType → List String
  | .reservationExpiry => ["sagaId"]
  | .payoutBatch => ["weekStartDate"]
  | .orderAbandonment => ["cartId","stage"]
  | .lowStockAlert => ["inventoryId"]
  | .scheduledReport => ["reportType","periodStart"]

def keyText (jobType : JobType) (parts : List String) : String :=
  parts.foldl (fun key part => key ++ ":" ++ part) jobType.name

def JobPayload.key (payload : JobPayload) (jobType : JobType) : Option String :=
  (jobType.keyFields.mapM payload.interpolated).map (keyText jobType)

section Parts

variable {jobType : JobType} {name other : String}

theorem key_one (fields : jobType.keyFields = [name]) (payload : JobPayload) :
    payload.key jobType =
      (payload.interpolated name).map fun part => jobType.name ++ ":" ++ part := by
  simp only [JobPayload.key,fields,List.mapM_cons,List.mapM_nil]
  cases payload.interpolated name <;> rfl

theorem key_two (fields : jobType.keyFields = [name,other]) (payload : JobPayload) :
    payload.key jobType = (payload.interpolated name).bind fun first =>
      (payload.interpolated other).map fun second =>
        jobType.name ++ ":" ++ first ++ ":" ++ second := by
  simp only [JobPayload.key,fields,List.mapM_cons,List.mapM_nil]
  cases payload.interpolated name with
  | none => rfl
  | some first => cases payload.interpolated other <;> rfl

theorem key_one_some (fields : jobType.keyFields = [name]) {payload : JobPayload} {jobId : String}
    (keyed : payload.key jobType = some jobId) : ∃ part, payload.interpolated name = some part ∧
      jobId = jobType.name ++ ":" ++ part := by
  rw [key_one fields] at keyed
  obtain ⟨part,shown,rfl⟩ := Option.map_eq_some_iff.mp keyed
  exact ⟨part,shown,rfl⟩

theorem key_two_some (fields : jobType.keyFields = [name,other]) {payload : JobPayload}
    {jobId : String} (keyed : payload.key jobType = some jobId) :
    ∃ first second, payload.interpolated name = some first ∧
      payload.interpolated other = some second ∧
      jobId = jobType.name ++ ":" ++ first ++ ":" ++ second := by
  rw [key_two fields] at keyed
  obtain ⟨first,shown,keyed⟩ := Option.bind_eq_some_iff.mp keyed
  obtain ⟨second,shown',rfl⟩ := Option.map_eq_some_iff.mp keyed
  exact ⟨first,second,shown,shown',rfl⟩

theorem template_one (payload : JobPayload) (heading : String) :
    (do let part ← template payload name; pure (heading ++ part) : Async String) =
      ((payload.interpolated name).map fun part => heading ++ part).elim (throw typeError) pure := by
  rw [template_eq]
  cases payload.interpolated name <;> rfl

theorem template_two (payload : JobPayload) (heading : String) :
    (do
      let first ← template payload name
      let second ← template payload other
      pure (heading ++ first ++ ":" ++ second) : Async String) =
      ((payload.interpolated name).bind fun first => (payload.interpolated other).map fun second =>
        heading ++ first ++ ":" ++ second).elim (throw typeError) pure := by
  simp only [template_eq]
  cases payload.interpolated name with
  | none => rfl
  | some first => cases payload.interpolated other <;> rfl

end Parts

theorem key_congr {jobType : JobType} {payload payload' : JobPayload}
    (shown : ∀ name ∈ jobType.keyFields, payload.interpolated name = payload'.interpolated name) :
    payload.key jobType = payload'.key jobType := by
  cases jobType with
  | reservationExpiry | payoutBatch | lowStockAlert =>
    rw [key_one rfl,key_one rfl,shown _ (List.mem_singleton_self _)]
  | orderAbandonment | scheduledReport =>
    rw [key_two rfl,key_two rfl,shown _ (List.mem_cons_self ..),
      shown _ (List.mem_cons_of_mem _ (List.mem_singleton_self _))]

theorem idempotencyKeyFn_eq {jobType : JobType} {definition : JobDefinition}
    (known : jobDefinitions jobType = some definition) (payload : JobPayload) :
    definition.idempotencyKeyFn payload =
      if hasType payload jobType = false then uuidv4
      else (payload.key jobType).elim (throw typeError) pure := by
  cases jobType <;> cases known <;> dsimp only
  case reservationExpiry => rw [key_one rfl,template_one]; rfl
  case payoutBatch => rw [key_one rfl,template_one]; rfl
  case orderAbandonment => rw [key_two rfl,template_two]; rfl
  case lowStockAlert => rw [key_one rfl,template_one]; rfl
  case scheduledReport => rw [key_two rfl,template_two]; rfl

/-- The client's payload has no type field, or the one of the job type. -/
def CreateJobRequest.ownType (request : CreateJobRequest) : Bool :=
  match request.payload.field "type" with
  | none => true
  | some (.str name) => name = request.jobType.name
  | some _ => false

namespace JobService

theorem field_spread (request : CreateJobRequest) {name : String} (other : name ≠ "type") :
    (spread request).field name = request.payload.field name := by
  unfold spread
  split
  · rfl
  · simp [JobPayload.field,Ne.symm other]

theorem type_spread (request : CreateJobRequest) : (spread request).field "type" =
    some ((request.payload.field "type").getD (.str request.jobType.name)) := by
  unfold spread
  split
  · rename_i sent
    obtain ⟨value,own⟩ := Option.isSome_iff_exists.mp sent
    simp [own]
  · rename_i unsent
    simp only [Option.not_isSome_iff_eq_none] at unsent
    simp [unsent]
    rfl

theorem hasType_spread (request : CreateJobRequest) :
    hasType (spread request) request.jobType = request.ownType := by
  rw [hasType,type_spread,CreateJobRequest.ownType]
  cases request.payload.field "type" with
  | none => simp
  | some value => cases value <;> rfl

theorem interpolated_spread (request : CreateJobRequest) {name : String} (other : name ≠ "type") :
    (spread request).interpolated name = request.payload.interpolated name := by
  rw [JobPayload.interpolated,field_spread request other]
  rfl

theorem key_spread (request : CreateJobRequest) :
    (spread request).key request.jobType = request.payload.key request.jobType := by
  refine key_congr fun name listed => interpolated_spread request ?_
  rintro rfl
  cases jobType : request.jobType <;> simp [jobType,JobType.keyFields] at listed

def input (definition : JobDefinition) (request : CreateJobRequest) (jobId : String) :
    EnqueueJobInput where
  jobId := jobId
  jobType := request.jobType
  tenantId := request.tenantId
  scheduledAt := request.scheduledAt
  nextRunAt := request.scheduledAt
  priority := definition.priority
  maxAttempts := definition.maxAttempts
  cronExpression := request.cronExpression
  payload := spread request

def submit (definition : JobDefinition) (request : CreateJobRequest) (jobId : String) :
    Async IJob := do
  let job ← JobRepository.createJobCall (input definition request jobId)
  let _ ← RedisJobQueue.enqueue request.jobType jobId request.scheduledAt
  publishToExchange .jobScheduled (.scheduled job.jobId job.jobType job.tenantId
    job.scheduledAt job.nextRunAt job.priority)
  pure job

/-- A request that keeps its type is submitted under its key, every other one under a
drawn id. -/
theorem enqueue_eq {request : CreateJobRequest} {definition : JobDefinition}
    (known : jobDefinitions request.jobType = some definition) :
    enqueue request = if request.ownType = false then uuidv4 >>= submit definition request
      else (request.payload.key request.jobType).elim (throw typeError)
        (submit definition request) := by
  have unfolded : enqueue request =
      definition.idempotencyKeyFn (spread request) >>= submit definition request := by
    simp only [enqueue,known]
    rfl
  rw [unfolded,idempotencyKeyFn_eq known,hasType_spread,key_spread]
  split
  · rfl
  · cases request.payload.key request.jobType <;> rfl

end JobService

/-- Only `uuidv4` has been answered, with the given id. -/
def drawing (uuid : String) : (op : Op) → Option (Except Thrown op.Reply)
  | .uuidv4 => some (.ok uuid)
  | _ => none

/-- What `enqueue` passes to `createJob` when `uuidv4` returns the given id. -/
def JobService.submitted (request : CreateJobRequest) (uuid : String) : Option EnqueueJobInput :=
  match (JobService.enqueue request).awaitsAfter (drawing uuid) with
  | some (.job (.createJob input)) => some input
  | _ => none

/-- The job id that `enqueue` computes; none if the key function throws. -/
def JobService.jobId (request : CreateJobRequest) (uuid : String) : Option String :=
  (JobService.submitted request uuid).map EnqueueJobInput.jobId

theorem JobService.submitted_eq {request : CreateJobRequest} {definition : JobDefinition}
    (known : jobDefinitions request.jobType = some definition) (uuid : String) :
    submitted request uuid = (if request.ownType = false then some uuid
      else request.payload.key request.jobType).map (input definition request) := by
  rw [submitted,enqueue_eq known]
  cases request.ownType with
  | false => rfl
  | true => cases request.payload.key request.jobType <;> rfl

theorem JobService.known (request : CreateJobRequest) :
    ∃ definition, jobDefinitions request.jobType = some definition := by
  cases request.jobType <;> exact ⟨_,rfl⟩

theorem JobService.jobId_eq (request : CreateJobRequest) (uuid : String) :
    jobId request uuid = if request.ownType = false then some uuid
      else request.payload.key request.jobType := by
  obtain ⟨definition,known⟩ := known request
  rw [jobId,submitted_eq known,Option.map_map]
  exact Option.map_id'

theorem JobType.name_plain (jobType : JobType) : ':' ∉ jobType.name.toList := by
  cases jobType <;> decide

theorem JobType.name_injective {jobType other : JobType} (same : jobType.name = other.name) :
    jobType = other := by
  cases jobType <;> cases other <;> first | rfl | exact absurd same (by decide)

/-- A key shows the job type before its first colon. -/
theorem key_heading {payload : JobPayload} {jobType : JobType} {jobId : String}
    (keyed : payload.key jobType = some jobId) :
    ':' ∈ jobId.toList ∧ Delimited.heading ':' jobId.toList = jobType.name.toList := by
  obtain ⟨rest,shape⟩ : ∃ rest : List Char, jobId.toList = jobType.name.toList ++ ':' :: rest := by
    cases jobType with
    | reservationExpiry | payoutBatch | lowStockAlert =>
      obtain ⟨part,_,rfl⟩ := key_one_some rfl keyed
      exact ⟨part.toList,by simp⟩
    | orderAbandonment | scheduledReport =>
      obtain ⟨first,second,_,_,rfl⟩ := key_two_some rfl keyed
      exact ⟨first.toList ++ ':' :: second.toList,by simp⟩
  rw [shape,Delimited.heading_append jobType.name_plain]
  simp

/-- The fields that tell the work of a job type apart. -/
def JobType.identifyingFields : JobType → List String
  | .reservationExpiry => ["sagaId"]
  | .payoutBatch => ["weekStartDate"]
  | .orderAbandonment => ["orderId","stage"]
  | .lowStockAlert => ["inventoryId"]
  | .scheduledReport => ["reportType","periodStart"]

def CreateJobRequest.identity (request : CreateJobRequest) : List (Option JsonValue) :=
  request.jobType.identifyingFields.map request.payload.field

/-- The identifying fields are present, and strings. -/
def CreateJobRequest.Declared (request : CreateJobRequest) : Prop :=
  ∀ name ∈ request.jobType.identifyingFields, ∃ s, request.payload.field name = some (.str s)

/-- Two payloads whose fields `name` and `other` are shown as texts that read the same
around a colon. -/
def ReadAlike (name other : String) (payload payload' : JobPayload) : Prop :=
  ∃ first second first' second', payload.interpolated name = some first ∧
    payload.interpolated other = some second ∧ payload'.interpolated name = some first' ∧
    payload'.interpolated other = some second' ∧
    Delimited.SameReading ':' first.toList second.toList first'.toList second'.toList

/-- Two requests of one job type for different work, each with its own type field, where
the key leaves the difference out: orders, whose key has a cart id in place of the order
id, or fields that contain the colon. -/
structure Collide (request request' : CreateJobRequest) : Prop where
  ownType : request.ownType = true ∧ request'.ownType = true
  alike : (request.jobType = .orderAbandonment ∧ request'.jobType = .orderAbandonment ∧
      ReadAlike "cartId" "stage" request.payload request'.payload) ∨
    (request.jobType = .scheduledReport ∧ request'.jobType = .scheduledReport ∧
      ReadAlike "reportType" "periodStart" request.payload request'.payload)

def Different (request request' : CreateJobRequest) : Prop :=
  request.jobType ≠ request'.jobType ∨ request.identity ≠ request'.identity

/-- The two requests are submitted under different ids, and `createJob` does not take
one for the other. -/
def KeptApart (request request' : CreateJobRequest) (uuid uuid' : String) : Prop :=
  ∀ input ∈ JobService.submitted request uuid, ∀ input' ∈ JobService.submitted request' uuid',
    input.jobId ≠ input'.jobId ∧ ∀ jobs : Jobs,
      (JobRepository.createJob (JobRepository.createJob jobs input).2 input').1 ≠
        (JobRepository.createJob jobs input).1

theorem createJob_jobId (jobs : Jobs) (input : EnqueueJobInput) :
    (JobRepository.createJob jobs input).1.jobId = input.jobId := by
  rw [JobRepository.createJob,Collection.upsert_fst]
  cases found : jobs.lookup (JobRepository.inserted input).jobId with
  | none => rfl
  | some job => exact Collection.lookup_key found

theorem keptApart_iff {request request' : CreateJobRequest} {uuid uuid' : String} :
    KeptApart request request' uuid uuid' ↔ ∀ jobId ∈ JobService.jobId request uuid,
      ∀ other ∈ JobService.jobId request' uuid', jobId ≠ other := by
  constructor
  · intro apart jobId computed other computed'
    obtain ⟨input,submitted,rfl⟩ := Option.map_eq_some_iff.mp computed
    obtain ⟨input',submitted',rfl⟩ := Option.map_eq_some_iff.mp computed'
    exact (apart input submitted input' submitted').1
  · intro apart input submitted input' submitted'
    have ids : input.jobId ≠ input'.jobId :=
      apart _ (Option.mem_map_of_mem _ submitted) _ (Option.mem_map_of_mem _ submitted')
    refine ⟨ids,fun jobs absorbed => ids ?_⟩
    rw [← createJob_jobId jobs input,← absorbed,createJob_jobId]

section Keys

variable {jobType : JobType} {name other : String} {payload payload' : JobPayload} {jobId : String}

theorem key_two_alike (fields : jobType.keyFields = [name,other]) :
    (∃ jobId, payload.key jobType = some jobId ∧ payload'.key jobType = some jobId) ↔
      ReadAlike name other payload payload' := by
  constructor
  · rintro ⟨jobId,keyed,keyed'⟩
    obtain ⟨first,second,shown,shown₂,rfl⟩ := key_two_some fields keyed
    obtain ⟨first',second',shown',shown₂',same⟩ := key_two_some fields keyed'
    refine ⟨first,second,first',second',shown,shown₂,shown',shown₂',?_⟩
    rw [← Delimited.append_sep_eq_iff]
    simpa using congrArg String.toList same
  · rintro ⟨first,second,first',second',shown,shown₂,shown',shown₂',same⟩
    refine ⟨jobType.name ++ ":" ++ first ++ ":" ++ second,?_,?_⟩
    · simp [key_two fields,shown,shown₂]
    · rw [← Delimited.append_sep_eq_iff] at same
      simp only [key_two fields,shown',shown₂',Option.bind_some,Option.map_some]
      refine congrArg some (String.toList_inj.mp ?_)
      simp [same]

theorem key_one_same (fields : jobType.keyFields = [name]) (keyed : payload.key jobType = some jobId)
    (keyed' : payload'.key jobType = some jobId) :
    payload.interpolated name = payload'.interpolated name := by
  obtain ⟨part,shown,rfl⟩ := key_one_some fields keyed
  obtain ⟨part',shown',same⟩ := key_one_some fields keyed'
  have parts : part.toList = part'.toList := by simpa using congrArg String.toList same
  rw [shown,shown',String.toList_inj.mp parts]

end Keys

section Requests

variable {request request' : CreateJobRequest} {uuid uuid' jobId : String}

/-- Drawn ids are fresh and no key is one of them, so an id in common is a key in common. -/
theorem shared_key (fresh : uuid ≠ uuid') (plain : ':' ∉ uuid.toList) (plain' : ':' ∉ uuid'.toList)
    (computed : JobService.jobId request uuid = some jobId)
    (computed' : JobService.jobId request' uuid' = some jobId) :
    (request.ownType = true ∧ request'.ownType = true) ∧ request.jobType = request'.jobType ∧
      request.payload.key request.jobType = some jobId ∧
      request'.payload.key request'.jobType = some jobId := by
  rw [JobService.jobId_eq] at computed computed'
  cases own : request.ownType <;> cases own' : request'.ownType <;>
    simp only [own,own',if_true,if_false,Bool.true_eq_false] at computed computed'
  · exact absurd (Option.some.inj (computed.trans computed'.symm)) fresh
  · obtain rfl := Option.some.inj computed
    exact absurd (key_heading computed').1 plain
  · obtain rfl := Option.some.inj computed'
    exact absurd (key_heading computed).1 plain'
  · refine ⟨⟨rfl,rfl⟩,?_,computed,computed'⟩
    have headings := (key_heading computed).2.symm.trans (key_heading computed').2
    exact JobType.name_injective (String.toList_inj.mp headings)

theorem same_identity {name : String} (type : request.jobType = request'.jobType)
    (fields : request.jobType.identifyingFields = [name]) (declared : request.Declared)
    (declared' : request'.Declared)
    (shown : request.payload.interpolated name = request'.payload.interpolated name) :
    request.identity = request'.identity := by
  have fields' := fields
  rw [type] at fields'
  obtain ⟨text,sent⟩ := declared name (by simp [fields])
  obtain ⟨text',sent'⟩ := declared' name (by simp [fields'])
  simp only [JobPayload.interpolated,sent,sent',JsonValue.shown,Option.some.injEq] at shown
  simp [CreateJobRequest.identity,fields,fields',sent,sent',shown]

/-- Different work gets different job ids, unless the key leaves the difference out. -/
theorem different_work_differs (declared : request.Declared) (declared' : request'.Declared)
    (fresh : uuid ≠ uuid') (plain : ':' ∉ uuid.toList) (plain' : ':' ∉ uuid'.toList) :
    (Different request request' → KeptApart request request' uuid uuid') ↔
      ¬ (Different request request' ∧ Collide request request') := by
  rw [keptApart_iff]
  constructor
  · rintro apart ⟨different,⟨own,own'⟩,alike⟩
    have computed : ∃ jobId, JobService.jobId request uuid = some jobId ∧
        JobService.jobId request' uuid' = some jobId := by
      simp only [JobService.jobId_eq,own,own',Bool.true_eq_false,if_false]
      rcases alike with ⟨type,type',alike⟩ | ⟨type,type',alike⟩
      · rw [type,type']
        exact (key_two_alike rfl).mpr alike
      · rw [type,type']
        exact (key_two_alike rfl).mpr alike
    obtain ⟨jobId,computed,computed'⟩ := computed
    exact apart different jobId computed jobId computed' rfl
  · rintro spared different jobId computed _ computed' rfl
    obtain ⟨own,type,keyed,keyed'⟩ := shared_key fresh plain plain' computed computed'
    rw [← type] at keyed'
    have shared : ∃ jobId, request.payload.key request.jobType = some jobId ∧
      request'.payload.key request.jobType = some jobId := ⟨jobId,keyed,keyed'⟩
    have told : ∀ name, request.jobType.identifyingFields = [name] →
        request.jobType.keyFields = [name] → False := by
      intro name identifying fields
      have shown := key_one_same fields keyed keyed'
      have same := same_identity type identifying declared declared' shown
      exact different.elim (fun types => types type) fun identities => identities same
    cases is : request.jobType with
    | reservationExpiry => exact told "sagaId" (by rw [is]; rfl) (by rw [is]; rfl)
    | payoutBatch => exact told "weekStartDate" (by rw [is]; rfl) (by rw [is]; rfl)
    | lowStockAlert => exact told "inventoryId" (by rw [is]; rfl) (by rw [is]; rfl)
    | orderAbandonment =>
      have alike := (key_two_alike (by rw [is]; rfl)).mp shared
      exact spared ⟨different,own,.inl ⟨is,type ▸ is,alike⟩⟩
    | scheduledReport =>
      have alike := (key_two_alike (by rw [is]; rfl)).mp shared
      exact spared ⟨different,own,.inr ⟨is,type ▸ is,alike⟩⟩

end Requests

theorem report_declared : reportRequest.Declared := by
  intro name listed
  simp only [reportRequest,JobType.identifyingFields,List.mem_cons,List.not_mem_nil,or_false]
    at listed
  rcases listed with rfl | rfl
  · exact ⟨"WEEKLY_SELLER_SUMMARY",rfl⟩
  · exact ⟨"2024-01-01",rfl⟩

def reminderRequest (orderId : String) : CreateJobRequest where
  jobType := .orderAbandonment
  tenantId := "tenant"
  scheduledAt := 0
  payload := [("orderId",.str orderId),("userId",.str "user"),("stage",.str "REMINDER")]
  cronExpression := none

theorem reminder_declared (orderId : String) : (reminderRequest orderId).Declared := by
  intro name listed
  simp only [reminderRequest,JobType.identifyingFields,List.mem_cons,List.not_mem_nil,or_false]
    at listed
  rcases listed with rfl | rfl
  · exact ⟨orderId,rfl⟩
  · exact ⟨"REMINDER",rfl⟩

theorem report_differs_reminder :
    (Different reportRequest (reminderRequest "1") →
      KeptApart reportRequest (reminderRequest "1") "a" "b") ↔
    ¬ (Different reportRequest (reminderRequest "1") ∧
      Collide reportRequest (reminderRequest "1")) :=
  different_work_differs report_declared (reminder_declared "1") (by decide) (by decide) (by decide)

/-- The reminders of two orders get one id: their payloads have no cart id. -/
theorem reminders_collide : ¬ ∀ request request' uuid uuid', request.Declared → request'.Declared →
    uuid ≠ uuid' → ':' ∉ uuid.toList → ':' ∉ uuid'.toList → Different request request' →
    KeptApart request request' uuid uuid' := by
  intro apart
  have different : Different (reminderRequest "1") (reminderRequest "2") := by
    refine .inr fun same => ?_
    have orders := JsonValue.str.inj (Option.some.inj (List.cons.inj same).1)
    exact absurd orders (by decide)
  exact (keptApart_iff.mp (apart (reminderRequest "1") (reminderRequest "2") "a" "b"
    (reminder_declared "1") (reminder_declared "2") (by decide) (by decide) (by decide) different))
    "ORDER_ABANDONMENT:undefined:REMINDER" rfl _ rfl rfl

end JobScheduler
