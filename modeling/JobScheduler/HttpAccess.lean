import JobScheduler.HttpAnswers
import JobScheduler.Vocabulary

/-! Who may ask for what. Whatever is asked of the stores for a client, the client has been
authenticated and its route asks for this; nothing but a request creates or cancels a job. -/
namespace JobScheduler.Http

open Program Transcript

def submits (request : CreateJobRequest) : Op → Prop
  | .uuidv4 => True
  | .job (.createJob input) => ∃ uuid, JobService.submitted request uuid = some input
  | .zaddNX key score jobId => key = queueKeyMap request.jobType ∧ score = request.scheduledAt ∧
    ∃ uuid, JobService.jobId request uuid = some jobId
  | .publish key _ => key = .jobScheduled
  | _ => False

def cancels (jobId userId : String) : Op → Prop
  | .job (.cancelJob target) => target = jobId
  | .zrem _ removed => removed = [jobId]
  | .dateNow => True
  | .publish .jobCancelled (.cancelled _ _ _ _ cancelledBy) => cancelledBy = userId
  | _ => False

def housekeeping : Op → Bool
  | .job (.createJob _) | .job (.cancelJob _) => false
  | _ => true

/-- The request has come to the endpoint of the route, with the parameter of its path, and is of
this user. -/
def Takes (env : Env) (user : User) (request : HttpRequest) : Route → Prop
  | .createJob body => (∃ parameter, arrival env request = some (.createJob,.ok parameter)) ∧
    (request.body.fields >>= createJobSchema env) = some body
  | .getJob jobId => arrival env request = some (.getJob,.ok jobId)
  | .listJobs own query => (∃ parameter, arrival env request = some (.listJobs,.ok parameter)) ∧
    listJobsSchema env request.query = some query ∧ own = user
  | .cancelJob jobId own => arrival env request = some (.cancelJob,.ok jobId) ∧ own = user
  | .jobStats jobType => (∃ parameter, arrival env request = some (.jobStats,.ok parameter)) ∧
    jobType = JobPayload.field request.query "jobType"

def Route.asks : Route → (signature.extend own).Op → Prop
  | .createJob (some body), .inl op => submits body op
  | .cancelJob jobId user, .inl op => cancels jobId user.userId op
  | .getJob jobId, .inr (.findByJobId target) => target = jobId
  | .listJobs user query, .inr (.findByTenant tenantId status page limit) =>
    tenantId = user.userId ∧ status = query.status ∧ page = query.page ∧ limit = query.limit
  | .jobStats jobType, .inr (.countByStatus other) => other = jobType
  | _, .inr (.respond _) => True
  | _, _ => False

/-- What may be asked for a request. -/
def Permits (env : Env) : Request → (signature.extend own).Op → Prop
  | .http _, .inr (.respond _) => True
  | .http request, op => ∃ user route, authenticate env request = .ok user ∧
    Takes env user request route ∧ route.asks op
  | .background _ _, .inl op => housekeeping op = true
  | .background _ _, .inr _ => False

section Routes

variable {env : Env} {request : HttpRequest} {route : Route}

theorem bind_ok {first : Except Response α} {next : α → Except Response β} {value : β}
    (reached : (first >>= next) = .ok value) : ∃ middle, first = .ok middle ∧ next middle = .ok value := by
  cases first with
  | error refusal => cases reached
  | ok middle => exact ⟨middle,rfl,reached⟩

theorem validateRequest_ok {accepted : Option α} {errors : List String} {value : α}
    (passed : validateRequest accepted errors = .ok value) : accepted = some value := by
  cases accepted with
  | none => cases passed
  | some own => exact congrArg some (Except.ok.inj passed)

theorem middleware_takes {endpoint : Endpoint} {parameter : String}
    (arrived : arrival env request = some (endpoint,.ok parameter))
    (reached : endpoint.middleware env request parameter = .ok route) :
    ∃ user, authenticate env request = .ok user ∧ Takes env user request route := by
  cases endpoint with
  | health => cases reached
  | createJob =>
    obtain ⟨user,authentic,reached⟩ := bind_ok reached
    obtain ⟨body,valid,reached⟩ := bind_ok reached
    cases reached
    exact ⟨user,authentic,⟨parameter,arrived⟩,validateRequest_ok valid⟩
  | listJobs =>
    obtain ⟨user,authentic,reached⟩ := bind_ok reached
    obtain ⟨query,valid,reached⟩ := bind_ok reached
    cases reached
    exact ⟨user,authentic,⟨parameter,arrived⟩,validateRequest_ok valid,rfl⟩
  | jobStats =>
    obtain ⟨user,authentic,reached⟩ := bind_ok reached
    cases reached
    exact ⟨user,authentic,⟨parameter,arrived⟩,rfl⟩
  | getJob =>
    obtain ⟨user,authentic,reached⟩ := bind_ok reached
    cases reached
    exact ⟨user,authentic,arrived⟩
  | cancelJob =>
    obtain ⟨user,authentic,reached⟩ := bind_ok reached
    obtain ⟨_,_,reached⟩ := bind_ok reached
    cases reached
    exact ⟨user,authentic,arrived,rfl⟩

theorem app_takes (reached : app env request = .ok route) :
    ∃ user, authenticate env request = .ok user ∧ Takes env user request route := by
  unfold app at reached
  split at reached
  · cases reached
  · cases reached
  · split at reached
    · cases reached
    · cases reached
    · rename_i endpoint parameter arrived
      exact middleware_takes arrived reached

end Routes

section Uses

variable {request : CreateJobRequest}

theorem submit_uses {definition : JobDefinition} {jobId : String} (uuid : String)
    (submitted : JobService.submitted request uuid = some (JobService.input definition request jobId)) :
    Uses (submits request) (JobService.submit definition request jobId) := by
  refine Uses.bind ((uses_perform _).mpr ⟨uuid,submitted⟩) fun job => ?_
  have computed : JobService.jobId request uuid = some jobId := by
    rw [JobService.jobId,submitted]
    rfl
  refine Uses.bind (Uses.bind ((uses_perform _).mpr ⟨rfl,rfl,uuid,computed⟩) fun _ => uses_pure _)
    fun _ => ?_
  exact Uses.bind ((uses_perform _).mpr rfl) fun _ => uses_pure _

theorem enqueue_uses (request : CreateJobRequest) : Uses (submits request) (JobService.enqueue request) := by
  obtain ⟨definition,known⟩ := JobService.known request
  rw [JobService.enqueue_eq known]
  cases own : request.ownType with
  | false =>
    refine Uses.bind ((uses_perform _).mpr trivial) fun uuid => submit_uses uuid ?_
    simp [JobService.submitted_eq known,own]
  | true =>
    simp only [Bool.true_eq_false,if_false]
    cases keyed : request.payload.key request.jobType with
    | none => exact uses_throw _
    | some jobId =>
      refine submit_uses "" ?_
      simp [JobService.submitted_eq known,own,keyed]

theorem cancel_uses (jobId userId : String) :
    Uses (cancels jobId userId) (JobService.cancel jobId userId) := by
  refine Uses.bind ((uses_perform _).mpr rfl) fun cancelled => ?_
  cases cancelled with
  | none => exact uses_pure _
  | some job =>
    refine Uses.bind (Uses.bind ((uses_perform _).mpr rfl) fun _ => uses_pure _) fun _ => ?_
    refine Uses.bind ((uses_perform _).mpr trivial) fun now => ?_
    exact Uses.bind ((uses_perform _).mpr rfl) fun _ => uses_pure _

theorem housekeeping_uses (request : JobScheduler.Request) (own : external request = false) :
    Within housekeeping (System.program request) := by
  refine (Within.program request).mono fun op listed => ?_
  cases request with
  | enqueue request | cancel jobId cancelledBy => cases own
  | _ =>
    cases op with
    | job write => cases write <;> first | rfl | cases listed
    | _ => rfl

end Uses

variable {env : Env}

theorem handler_uses (route : Route) : Uses route.asks route.handler := by
  cases route with
  | createJob body =>
    cases body with
    | none => exact uses_throw _
    | some body => exact Uses.bind (uses_lift (enqueue_uses body) fun _ asks => asks) fun _ => uses_pure _
  | cancelJob jobId user =>
    refine Uses.bind (uses_lift (cancel_uses jobId user.userId) fun _ asks => asks) fun found => ?_
    cases found <;> exact uses_pure _
  | getJob jobId =>
    refine Uses.bind ((uses_perform _).mpr rfl) fun found => ?_
    cases found <;> exact uses_pure _
  | listJobs => exact Uses.bind ((uses_perform _).mpr ⟨rfl,rfl,rfl,rfl⟩) fun _ => uses_pure _
  | jobStats => exact Uses.bind ((uses_perform _).mpr rfl) fun _ => uses_pure _

theorem program_uses (request : Request) : Uses (Permits env request) (program env request) := by
  cases request with
  | http request =>
    simp only [program]
    cases reached : app env request with
    | error refusal => exact (uses_perform _).mpr trivial
    | ok route =>
      obtain ⟨user,authentic,takes⟩ := app_takes reached
      have handler : Uses (Permits env (.http request)) route.handler := by
        refine (handler_uses route).mono fun op asks => ?_
        rcases op with op | op
        · exact ⟨user,route,authentic,takes,asks⟩
        · cases op with
          | respond response => trivial
          | _ => exact ⟨user,route,authentic,takes,asks⟩
      refine Uses.bind (Uses.tryCatch (Uses.bind handler fun result => ?_) fun e => uses_pure _) fun _ =>
        (uses_perform _).mpr trivial
      cases result <;> exact uses_pure _
  | background request own => exact uses_lift (housekeeping_uses request own) fun _ asks => asks

variable {labels : List ServerLabel} {t : ServerState}

def Lists : Exchange (signature.extend own) Thrown → Prop
  | ⟨.inr (.findByTenant tenantId _ _ _),.ok result⟩ => ∀ doc ∈ result.data, doc.job.tenantId = tenantId
  | _ => True

theorem findByTenant_lists (order : SortOrder JobDocument.createdAt) (docs : List JobDocument)
    (tenantId : String) (status : Option JobStatus) (page limit : Nat) :
    ∀ doc ∈ (JobRepository.findByTenant order docs tenantId status page limit).data,
      doc.job.tenantId = tenantId := by
  intro doc listed
  have matching := List.mem_mergeSort.mp (List.mem_of_mem_drop (List.mem_of_mem_take listed))
  obtain ⟨own,_⟩ := Bool.and_eq_true_iff.mp (List.mem_filter.mp matching).2
  exact of_decide_eq_true own

theorem lists_reached (reached : (machine env).Reached ⟨World.empty,[]⟩ labels t) :
    ∀ call ∈ t.calls, ∀ exchange ∈ call.history, Lists exchange := by
  refine Machine.replies_reached ?_ reached
  intro op ω w
  rcases op with op | op
  · trivial
  · cases op with
    | findByTenant tenantId status page limit =>
      have reply : ((machine env).perform (.inr (.findByTenant tenantId status page limit)) ω w).1 =
          (deliver ω.delivery w (.ok (JobRepository.findByTenant env.order
            (w.jobs.docs.map fun job => ⟨job,env.createdAt job⟩) tenantId status page limit),w)).1 := rfl
      rw [reply]
      cases ω.delivery with
      | performed => exact findByTenant_lists _ _ tenantId status page limit
      | lost e | unacknowledged e => trivial
    | _ => trivial

structure Authorised (env : Env) (call : ServerCall) : Prop where
  permitted : ∀ exchange ∈ call.history, Permits env call.request exchange.op
  listed : ∀ request user query, call.request = .http request →
    app env request = .ok (.listJobs user query) → ∀ result, ⟨200,.page result⟩ ∈ sent call.history →
      ∀ doc ∈ result.data, doc.job.tenantId = user.userId

/-- In every run, whatever is asked of the stores on behalf of a client is asked for an
authenticated user by the route of the request, listings show users the jobs of their own tenant
only, and the service by itself neither creates nor cancels a job. -/
theorem clients_authorised (env : Env) (labels : List ServerLabel) :
    ∀ t, (machine env).Reached ⟨World.empty,[]⟩ labels t → ∀ call ∈ t.calls, Authorised env call := by
  intro t reached call member
  refine ⟨Machine.uses_reached program_uses reached call member,?_⟩
  intro request user query is accepted result response
  have answers := answers_reached reached member is _ response
  rw [Answers,accepted] at answers
  rcases answers with ⟨own,heard,same⟩ | ⟨e,_,same⟩
  · cases same
    exact lists_reached reached call member _ heard
  · obtain ⟨error,failed⟩ := errorHandler_fails env (.thrown e)
    rw [← same] at failed
    cases failed

theorem posted_authorised : ∃ call ∈ ((machine shop).run ⟨World.empty,[]⟩ posted).calls,
    sent call.history ≠ [] ∧ Authorised shop call := by
  obtain ⟨call,member,_,_,_,_,response⟩ := posted_created
  exact ⟨call,member,List.ne_nil_of_mem response,
    clients_authorised shop posted _ ⟨posted,List.prefix_rfl,rfl⟩ call member⟩

end JobScheduler.Http
