import JobScheduler.Provenance

/-! The handlers. Each posts one request to another service, built from the copy of the
document that the claim returned; the outcome is that of the post. Whether a retry or a
second instance repeats the work is up to the service that is called, so what it is told
has to be the same every time. -/
namespace JobScheduler

/-- What `axios.post` sends. Headers are in the order of the source. -/
structure HttpPost where
  url : String
  body : List (String × JsonValue)
  headers : List (String × String)

namespace Handlers

def address (env : String → Option String) (name path : String) : String :=
  (env name).getD "undefined" ++ path

/-- The object literal of these payload fields; JSON leaves out what is undefined. -/
def pick (payload : JobPayload) (names : List String) : List (String × JsonValue) :=
  names.filterMap fun name => (payload.field name).map fun value => (name,value)

def jobHeaders (job : IJob) : List (String × String) :=
  [("x-job-id",job.jobId),("x-tenant-id",job.tenantId)]

end Handlers

open Handlers

abbrev Handler := (String → Option String) → IJob → Option HttpPost

def ReservationExpiryHandler.handle : Handler := fun env job => do
  let sagaId ← job.payload.interpolated "sagaId"
  pure {
    url := address env "INVENTORY_SERVICE_URL" ("/internal/reservations/" ++ sagaId ++ "/expire")
    body := pick job.payload ["inventoryId","quantity"]
    headers := jobHeaders job }

def PayoutBatchHandler.handle : Handler := fun env job => do
  let weekStartDate ← job.payload.interpolated "weekStartDate"
  pure {
    url := address env "PAYMENT_SERVICE_URL" "/internal/payouts/batch"
    body := pick job.payload ["weekStartDate","thresholdAmount"]
    headers := jobHeaders job ++ [("idempotency-key","payout-" ++ weekStartDate)] }

/-- `payload.stage === "REMINDER"` -/
def isReminder (payload : JobPayload) : Bool :=
  match payload.field "stage" with
  | some (.str stage) => stage = "REMINDER"
  | _ => false

def OrderAbandonmentHandler.handle : Handler := fun env job =>
  if isReminder job.payload then
    pure {
      url := address env "NOTIFICATION_SERVICE_URL" "/internal/notifications/cart-reminder"
      body := pick job.payload ["orderId","userId"]
      headers := jobHeaders job }
  else do
    let orderId ← job.payload.interpolated "orderId"
    pure {
      url := address env "ORDER_SERVICE_URL" ("/internal/orders/" ++ orderId ++ "/abandon")
      body := [("reason",.str "Payment not completed within allowed window")]
      headers := jobHeaders job }

def LowStockAlertHandler.handle : Handler := fun env job =>
  pure {
    url := address env "NOTIFICATION_SERVICE_URL" "/internal/notifications/low-stock"
    body := pick job.payload ["inventoryId","storeId","quantityAvailable","reorderPoint"]
    headers := jobHeaders job }

def ScheduledReportHandler.handle : Handler := fun env job => do
  let reportType ← job.payload.interpolated "reportType"
  let periodStart ← job.payload.interpolated "periodStart"
  pure {
    url := address env "REPORTING_SERVICE_URL" "/internal/reports/generate"
    body := pick job.payload ["reportType","providers","periodStart","periodEnd","recipientIds"]
    headers := jobHeaders job ++
      [("idempotency-key","report-" ++ reportType ++ "-" ++ periodStart)] }

def handlerFor : JobType → Handler
  | .reservationExpiry => ReservationExpiryHandler.handle
  | .payoutBatch => PayoutBatchHandler.handle
  | .orderAbandonment => OrderAbandonmentHandler.handle
  | .lowStockAlert => LowStockAlertHandler.handle
  | .scheduledReport => ScheduledReportHandler.handle

/-- What the service is sent for a job, `handlers[claimed.jobType].handle(claimed)`. -/
def IJob.post (job : IJob) (env : String → Option String) : Option HttpPost :=
  handlerFor job.jobType env job

theorem post_congr {job other : IJob} (env : String → Option String) (id : job.jobId = other.jobId)
    (type : job.jobType = other.jobType) (tenant : job.tenantId = other.tenantId)
    (work : job.payload = other.payload) : job.post env = other.post env := by
  simp only [IJob.post,type]
  cases other.jobType <;>
    simp only [handlerFor,ReservationExpiryHandler.handle,PayoutBatchHandler.handle,
      OrderAbandonmentHandler.handle,LowStockAlertHandler.handle,ScheduledReportHandler.handle,
      jobHeaders,id,tenant,work]

def Op.invokes : Op → Option IJob
  | .handlerStart claimed => some claimed
  | _ => none

def Call.invocations (call : SystemCall) : List IJob :=
  call.history.filterMap fun exchange => exchange.op.invokes

theorem mem_invocations {call : SystemCall} {job : IJob} :
    job ∈ call.invocations ↔ ∃ exchange ∈ call.history, exchange.op = .handlerStart job := by
  have invokes : ∀ op : Op, op.invokes = some job ↔ op = .handlerStart job := by
    intro op
    cases op <;> simp [Op.invokes]
  simp [Call.invocations,invokes]

/-- A copy that was handed to a handler agrees with the stored document. -/
theorem invoked_attested {jobId : String} {t : SystemState}
    (truthful : (Provenance.account jobId).Truthful t) {call : SystemCall} (member : call ∈ t.calls)
    {job : IJob} (invoked : job ∈ call.invocations) (own : job.jobId = jobId) :
    ∃ stored, t.world.jobs.lookup jobId = some stored ∧ stored.jobType = job.jobType ∧
      stored.tenantId = job.tenantId ∧ stored.payload = job.payload := by
  obtain ⟨exchange,heard,is⟩ := mem_invocations.mp invoked
  have attested : ∀ fact ∈ job.claimFacts, fact.jobId = jobId → t.world.attests fact := by
    intro fact said
    apply truthful.known call member
    apply truthful.stated call member exchange heard
    rw [is]
    exact said
  obtain ⟨stored,found,type,tenant⟩ :=
    attested (.tenancy job.jobId job.jobType job.tenantId) (by simp [IJob.claimFacts,IJob.facts]) own
  obtain ⟨same,found',work⟩ :=
    attested (.work job.jobId job.payload) (by simp [IJob.claimFacts,IJob.facts]) own
  simp only [JobFact.jobId,own,Option.mem_def] at found found'
  obtain rfl : stored = same := Option.some.inj (found.symm.trans found')
  exact ⟨stored,found,type,tenant,work⟩

/-- Every invocation of a job's handler posts the same request, over all retries, resets,
duplicate deliveries and repeated submissions, as long as its document is not deleted. -/
theorem invocations_post_alike (env : String → Option String) (labels : List SystemLabel)
    (jobId : String) (kept : System.machine.Along (fun s label => deletes jobId s label = false)
      (initial World.empty) labels) :
    ∀ t, System.machine.Reached (initial World.empty) labels t →
      ∀ call ∈ t.calls, ∀ other ∈ t.calls, ∀ job ∈ call.invocations, ∀ job' ∈ other.invocations,
        job.jobId = jobId → job'.jobId = jobId → job.post env = job'.post env := by
  intro t reached call member other member' job invoked job' invoked' own own'
  have truthful := Testimony.Account.truthful_reached kept (truthful_initial jobId) reached
  obtain ⟨stored,found,type,tenant,work⟩ := invoked_attested truthful member invoked own
  obtain ⟨same,found',type',tenant',work'⟩ := invoked_attested truthful member' invoked' own'
  obtain rfl : stored = same := Option.some.inj (found.symm.trans found')
  exact post_congr env (own.trans own'.symm) (type.symm.trans type') (tenant.symm.trans tenant')
    (work.symm.trans work')

/-- The header by which a service can tell repeated posts apart. -/
def IJob.sentKey (job : IJob) (env : String → Option String) : Option String :=
  (job.post env).bind fun post => post.headers.lookup "idempotency-key"

section Stored

variable {payload : JobPayload} {name : String}

theorem minimized_text {value : JsonValue} {s : String} :
    value.minimized = some (.str s) ↔ value = .str s := by
  cases value with
  | obj fields =>
    rw [JsonValue.minimized]
    split <;> simp
  | _ => simp [JsonValue.minimized]

theorem field_filterMap (kept : String → Option JsonValue) (fields : JobPayload) :
    JobPayload.field (fields.filterMap fun field => (kept field.1).map fun value => (field.1,value)) name =
      (JobPayload.field fields name).bind fun _ => kept name := by
  induction fields with
  | nil => rfl
  | cons field fields ih =>
    obtain ⟨own,value⟩ := field
    by_cases same : own = name
    · subst same
      cases stays : kept own with
      | none => simpa [JobPayload.field,stays] using ih
      | some value => simp [JobPayload.field,stays]
    · cases stays : kept own <;> simpa [JobPayload.field,stays,same] using ih

theorem field_minimized (payload : JobPayload) (name : String) :
    payload.minimized.field name = (payload.field name).bind JsonValue.minimized := by
  rw [JobPayload.minimized,field_filterMap fun name => (payload.field name).bind JsonValue.minimized]
  cases payload.field name <;> rfl

theorem text_minimized {s : String} :
    payload.minimized.field name = some (.str s) ↔ payload.field name = some (.str s) := by
  rw [field_minimized,Option.bind_eq_some_iff]
  constructor
  · rintro ⟨value,found,kept⟩
    rwa [← minimized_text.mp kept]
  · exact fun found => ⟨.str s,found,rfl⟩

theorem hasType_iff {jobType : JobType} :
    hasType payload jobType = true ↔ payload.field "type" = some (.str jobType.name) := by
  unfold hasType
  split
  · rename_i name found
    simp [found]
  · rename_i other
    simpa using other jobType.name

theorem hasType_minimized (jobType : JobType) :
    hasType payload.minimized jobType = hasType payload jobType :=
  Bool.eq_iff_iff.mpr (hasType_iff.trans (text_minimized.trans hasType_iff.symm))

end Stored

/-- The payload that was submitted keeps its type only if the id is its key. -/
def IJob.keyed (job : IJob) : Prop :=
  ∃ payload : JobPayload, job.payload = payload.minimized ∧
    (hasType job.payload job.jobType = true → payload.key job.jobType = some job.jobId)

theorem submitted_keyed {request : CreateJobRequest} {uuid : String} {input : EnqueueJobInput}
    (submitted : JobService.submitted request uuid = some input) :
    (JobRepository.inserted input).keyed := by
  obtain ⟨definition,known⟩ := JobService.known request
  rw [JobService.submitted_eq known] at submitted
  obtain ⟨jobId,computed,rfl⟩ := Option.map_eq_some_iff.mp submitted
  refine ⟨JobService.spread request,rfl,fun own => ?_⟩
  have typed : hasType (JobService.spread request).minimized request.jobType = true := own
  rw [hasType_minimized,JobService.hasType_spread] at typed
  change (JobService.spread request).key request.jobType = some jobId
  rw [JobService.key_spread]
  simpa [typed] using computed

def submitting : Protocol System.machine Submission where
  monitor := Submission.monitor
  start request := Submission.start (.request request)
  post _ _ := True
  meets request := Submission.meets_program (.request request)

theorem submitting_step (s : SystemState) (label : SystemLabel) (followed : submitting.Followed s) :
    submitting.Followed (System.machine.step s label) := by
  refine Protocol.followed_moves (System.machine.step_moves s label) ?_ followed
  cases label <;> simp [Protocol.Answers,submitting]

/-- Stored documents are keyed, and so are the copies that calls claim and hand to handlers. -/
structure WellKeyed (s : SystemState) : Prop where
  submissions : submitting.Followed s
  executions : execution.Followed s
  stored : ∀ jobId, ∀ job ∈ s.world.jobs.lookup jobId, job.keyed
  claimed : ∀ call ∈ s.calls, ∀ job ∈ (execution.phase call).job?, job.keyed
  invoked : ∀ call ∈ s.calls, ∀ job ∈ call.invocations, job.keyed

section Keyed

variable {s : SystemState} {label : SystemLabel}

theorem stored_keyed (keyed : WellKeyed s) (jobId : String) :
    ∀ job ∈ (System.machine.step s label).world.jobs.lookup jobId, job.keyed := by
  have moves := System.document_moves s label jobId
  generalize before : s.world.jobs.lookup jobId = stored at moves
  generalize (System.machine.step s label).world.jobs.lookup jobId = after at moves
  cases moves with
  | kept =>
    intro job same
    exact keyed.stored jobId job (before.trans same)
  | created input is same =>
    rintro _ ⟨⟩
    obtain ⟨index,ω,_,awaiting,_⟩ := written_eq_some is
    obtain ⟨call,rest,found,awaits⟩ := State.awaits_eq_some.mp awaiting
    obtain ⟨request,⟨_,_,submitted⟩ | ⟨uuid,_,_,submitted⟩⟩ :=
      Submission.allowed_createJob (keyed.submissions.allowed found awaits)
    · exact submitted_keyed (submitted "")
    · exact submitted_keyed submitted
  | changed write job is selected =>
    rintro _ ⟨⟩
    have own := keyed.stored jobId job before
    cases write <;> exact own
  | expired => exact fun job absent => absurd absent (Option.not_mem_none job)

theorem next_keyed {phase : ExecutePhase} {op : Op} {ω : Oracle} {w : World}
    (stored : ∀ jobId, ∀ job ∈ w.jobs.lookup jobId, job.keyed)
    (claimed : ∀ job ∈ phase.job?, job.keyed) :
    ∀ job ∈ (ExecutePhase.next phase op (perform op ω w).1).job?, job.keyed := by
  cases before : phase.job? with
  | some own =>
    intro job now
    rw [ExecutePhase.next_job op _ before] at now
    exact claimed job (before.trans now)
  | none =>
    obtain rfl : phase = .idle := by cases phase <;> first | rfl | cases before
    intro job now
    cases op with
    | job write =>
      cases write with
      | claimJob target version clock =>
        rcases replied : (perform (.job (.claimJob target version clock)) ω w).1 with e | (_ | won)
        · rw [replied] at now; cases now
        · rw [replied] at now; cases now
        · rw [replied] at now
          obtain rfl := Option.some.inj now
          obtain ⟨_,pending,found,_,rfl⟩ := claimJob_replies replied
          exact stored target pending found
      | _ => cases now
    | _ => cases now

theorem wellKeyed_step (keyed : WellKeyed s) : WellKeyed (System.machine.step s label) where
  submissions := submitting_step s label keyed.submissions
  executions := execution_followed s label keyed.executions
  stored := stored_keyed keyed
  claimed := by
    refine Machine.every_moves (fun call => ∀ job ∈ (execution.phase call).job?, job.keyed)
      (System.machine.step_moves s label) ?_ ?_ ?_ keyed.claimed
    · exact fun request job absent => absurd absent (Option.not_mem_none job)
    · intro index ω call op rest _ _ _ before
      exact next_keyed keyed.stored before
    · exact fun index call _ _ before => before
  invoked := by
    intro later member job invoked
    obtain ⟨exchange,heard,is⟩ := mem_invocations.mp invoked
    rcases Machine.origin_moves (System.machine.step_moves s label) member with
      ⟨call,old,_,history⟩ | ⟨index,ω,call,op,rest,_,found,awaits,rfl⟩ | ⟨_,history⟩ |
      ⟨_,_,history⟩
    · rw [history] at heard
      exact keyed.invoked call old job (mem_invocations.mpr ⟨exchange,heard,is⟩)
    · have old := List.mem_of_getElem? found
      rcases List.mem_cons.mp heard with rfl | before
      · obtain rfl : op = .handlerStart job := is
        have phase := ExecutePhase.allowed_handlerStart (keyed.executions.allowed found awaits)
        exact keyed.claimed call old job (by rw [phase]; rfl)
      · exact keyed.invoked call old job (mem_invocations.mpr ⟨exchange,before,is⟩)
    all_goals
      rw [history] at heard
      cases heard

theorem wellKeyed_initial : WellKeyed (initial World.empty) where
  submissions := submitting.followed_initial World.empty
  executions := execution.followed_initial World.empty
  stored _ job absent := absurd absent (Option.not_mem_none job)
  claimed _ member := absurd member List.not_mem_nil
  invoked _ member := absurd member List.not_mem_nil

end Keyed

def JobPayload.textField (payload : JobPayload) (name : String) : Option String :=
  match payload.field name with
  | some (.str s) => some s
  | _ => none

def reportTypes : List String := ["WEEKLY_SELLER_SUMMARY","MONTHLY_PLATFORM_ANALYTICS"]

/-- A payout or a report whose payload has its own job type and, in the fields that its keys are
made of, the texts that `PayoutBatchPayload` and `ScheduledReportPayload` declare. -/
def IJob.declared (job : IJob) : Bool :=
  hasType job.payload job.jobType &&
    match job.jobType with
    | .payoutBatch => (job.payload.textField "weekStartDate").isSome
    | .scheduledReport => (job.payload.textField "reportType").any (· ∈ reportTypes) &&
        (job.payload.textField "periodStart").isSome
    | _ => false

theorem textField_eq_some {payload : JobPayload} {name s : String} :
    payload.textField name = some s ↔ payload.field name = some (.str s) := by
  unfold JobPayload.textField
  split
  · rename_i found
    simp [found]
  · rename_i other
    simpa using other s

theorem reportType_plain {type : String} (declared : type ∈ reportTypes) :
    ':' ∉ type.toList ∧ '-' ∉ type.toList := by
  simp only [reportTypes,List.mem_cons,List.not_mem_nil,or_false] at declared
  rcases declared with rfl | rfl <;> decide

theorem interpolated_text {payload : JobPayload} {name s : String}
    (found : payload.field name = some (.str s)) : payload.interpolated name = some s := by
  rw [JobPayload.interpolated,found]
  rfl

variable {job : IJob}

theorem declared_keys (env : String → Option String) (keyed : job.keyed)
    (declared : job.declared = true) :
    (∃ week, job.jobId = "PAYOUT_BATCH" ++ ":" ++ week ∧ job.sentKey env = some ("payout-" ++ week)) ∨
      ∃ type ∈ reportTypes, ∃ start, job.jobId = "SCHEDULED_REPORT" ++ ":" ++ type ++ ":" ++ start ∧
        job.sentKey env = some ("report-" ++ type ++ "-" ++ start) := by
  obtain ⟨own,fields⟩ := Bool.and_eq_true_iff.mp declared
  obtain ⟨payload,stored,key⟩ := keyed
  replace key := key own
  have shown : ∀ {name s : String}, job.payload.textField name = some s →
      job.payload.interpolated name = some s ∧ payload.interpolated name = some s := by
    intro name s text
    have found := textField_eq_some.mp text
    refine ⟨interpolated_text found,interpolated_text (text_minimized.mp ?_)⟩
    rwa [← stored]
  cases type : job.jobType with
  | payoutBatch =>
    rw [type] at fields key
    obtain ⟨week,text⟩ := Option.isSome_iff_exists.mp fields
    obtain ⟨sent,submitted⟩ := shown text
    rw [key_one rfl,submitted] at key
    refine .inl ⟨week,(Option.some.inj key).symm,?_⟩
    simp only [IJob.sentKey,IJob.post,type,handlerFor,PayoutBatchHandler.handle,sent]
    rfl
  | scheduledReport =>
    rw [type] at fields key
    obtain ⟨listed,started⟩ := Bool.and_eq_true_iff.mp fields
    obtain ⟨reportType,text,known⟩ := (Option.any_eq_true _ _).mp listed
    obtain ⟨start,text'⟩ := Option.isSome_iff_exists.mp started
    obtain ⟨sent,submitted⟩ := shown text
    obtain ⟨sent',submitted'⟩ := shown text'
    rw [key_two rfl,submitted,submitted'] at key
    refine .inr ⟨reportType,of_decide_eq_true known,start,(Option.some.inj key).symm,?_⟩
    simp only [IJob.sentKey,IJob.post,type,handlerFor,ScheduledReportHandler.handle,sent,sent']
    rfl
  | reservationExpiry | orderAbandonment | lowStockAlert =>
    rw [type] at fields
    cases fields

theorem sentKey_iff {job job' : IJob} (env : String → Option String) (keyed : job.keyed)
    (keyed' : job'.keyed) (declared : job.declared = true) (declared' : job'.declared = true) :
    job.sentKey env = job'.sentKey env ↔ job.jobId = job'.jobId := by
  rcases declared_keys env keyed declared with ⟨week,id,sent⟩ | ⟨type,listed,start,id,sent⟩ <;>
    rcases declared_keys env keyed' declared' with ⟨week',id',sent'⟩ | ⟨type',listed',start',id',sent'⟩
  · simp [id,id',sent,sent',← String.toList_inj]
  · simp [id,id',sent,sent',← String.toList_inj]
  · simp [id,id',sent,sent',← String.toList_inj]
  · obtain ⟨colon,dash⟩ := reportType_plain listed
    obtain ⟨colon',dash'⟩ := reportType_plain listed'
    have keys := Delimited.append_sep_inj dash dash' start.toList start'.toList
    have ids := Delimited.append_sep_inj colon colon' start.toList start'.toList
    simp [id,id',sent,sent',← String.toList_inj,keys,ids]

/-- Over all runs, two invocations for declared payouts and reports send the same idempotency key
exactly if they are for the same job. -/
theorem keys_tell_jobs_apart (env : String → Option String) (labels : List SystemLabel) :
    ∀ t, System.machine.Reached (initial World.empty) labels t →
      ∀ call ∈ t.calls, ∀ other ∈ t.calls, ∀ job ∈ call.invocations, ∀ job' ∈ other.invocations,
        job.declared = true → job'.declared = true →
        (job.sentKey env = job'.sentKey env ↔ job.jobId = job'.jobId) := by
  intro t reached call member other member' job invoked job' invoked' declared declared'
  have keyed := Machine.always_reached WellKeyed (fun s label => wellKeyed_step)
    wellKeyed_initial reached
  exact sentKey_iff env (keyed.invoked call member job invoked)
    (keyed.invoked other member' job' invoked') declared declared'

/-- A report is executed, reset as stale and executed again. -/
def repeated : List SystemLabel :=
  [.submit (.enqueue reportRequest)] ++ drive 0 3 0 ++ [.submit (.run "a" reportId)] ++
  drive 1 9 0 ++ [.submit .watchdogTick] ++ drive 2 2 400000 ++ [.submit (.run "b" reportId)] ++
  drive 3 9 400000

theorem repeated_invocations : ∃ call ∈ (System.machine.run (initial World.empty) repeated).calls,
    ∃ other ∈ (System.machine.run (initial World.empty) repeated).calls,
    ∃ job ∈ call.invocations, ∃ job' ∈ other.invocations, job.jobId = reportId ∧
      job'.jobId = reportId ∧ job.attempts = 1 ∧ job'.attempts = 2 ∧ job.declared = true ∧
      job'.declared = true := by
  have made : ((System.machine.run (initial World.empty) repeated).calls.flatMap
      Call.invocations).map (fun job => (job.jobId,job.attempts,job.declared)) =
        [(reportId,1,true),(reportId,2,true)] := by decide +kernel
  have first : (reportId,1,true) ∈ [(reportId,1,true),(reportId,2,true)] := List.mem_cons_self
  have second : (reportId,2,true) ∈ [(reportId,1,true),(reportId,2,true)] :=
    List.mem_cons_of_mem _ (List.mem_singleton_self _)
  rw [← made] at first second
  obtain ⟨job,listed,same⟩ := List.mem_map.mp first
  obtain ⟨job',listed',same'⟩ := List.mem_map.mp second
  obtain ⟨call,member,invoked⟩ := List.mem_flatMap.mp listed
  obtain ⟨other,member',invoked'⟩ := List.mem_flatMap.mp listed'
  simp only [Prod.mk.injEq] at same same'
  exact ⟨call,member,other,member',job,invoked,job',invoked',same.1,same'.1,same.2.1,same'.2.1,
    same.2.2,same'.2.2⟩

theorem invocations_post_alike_repeated :
    ∃ call ∈ (System.machine.run (initial World.empty) repeated).calls,
    ∃ other ∈ (System.machine.run (initial World.empty) repeated).calls,
    ∃ job ∈ call.invocations, ∃ job' ∈ other.invocations, job.attempts = 1 ∧ job'.attempts = 2 ∧
      job.post (fun _ => none) = job'.post fun _ => none := by
  obtain ⟨call,member,other,member',job,invoked,job',invoked',id,id',first,second,_⟩ :=
    repeated_invocations
  refine ⟨call,member,other,member',job,invoked,job',invoked',first,second,?_⟩
  exact invocations_post_alike (fun _ => none) repeated reportId (by decide +kernel) _
    ⟨repeated,List.prefix_rfl,rfl⟩ call member other member' job invoked job' invoked' id id'

theorem keys_tell_jobs_apart_repeated :
    ∃ call ∈ (System.machine.run (initial World.empty) repeated).calls,
    ∃ other ∈ (System.machine.run (initial World.empty) repeated).calls,
    ∃ job ∈ call.invocations, ∃ job' ∈ other.invocations, job.declared = true ∧
      (job.sentKey (fun _ => none) = job'.sentKey (fun _ => none) ↔ job.jobId = job'.jobId) := by
  obtain ⟨call,member,other,member',job,invoked,job',invoked',_,_,_,_,declared,declared'⟩ :=
    repeated_invocations
  refine ⟨call,member,other,member',job,invoked,job',invoked',declared,?_⟩
  exact keys_tell_jobs_apart (fun _ => none) repeated _ ⟨repeated,List.prefix_rfl,rfl⟩ call member
    other member' job invoked job' invoked' declared declared'

end JobScheduler
