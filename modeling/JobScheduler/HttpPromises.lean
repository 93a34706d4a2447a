import JobScheduler.HttpAnswers

/-! What clients can rely on. The server is the service with an interface before it, so what the
service keeps, a response promises: a job that has been created stays, one that has been
cancelled stays dead, and whoever asks for a created job later finds it. -/
namespace JobScheduler.Http

open Program Transcript

variable {env : Env} {labels : List ServerLabel} {s t : ServerState}

/-- The server refines the service: each of its runs stands for a run of the service, with the
same submissions, crashes and moves of the environment. -/
theorem server_refines (env : Env) (labels : List ServerLabel) : ∃ inner,
    (front env).Follows labels inner ∧ (front env).Simulates
      ((machine env).run ⟨World.empty,[]⟩ labels) (System.machine.run (initial World.empty) inner) :=
  Front.simulates_run (Front.simulates_nil World.empty) labels

def deletes (jobId : String) (s : ServerState) (label : ServerLabel) : Bool :=
  (s.world.jobs.lookup jobId).any fun job => outlives job label

/-- No step of the run deletes the document of `jobId`. -/
def Keeps (env : Env) (jobId : String) (labels : List ServerLabel) : Prop :=
  (machine env).Along (fun s label => deletes jobId s label = false) ⟨World.empty,[]⟩ labels

def removes (key jobId : String) (s : ServerState) : ServerLabel → Bool
  | .resume index ω => (s.awaits index).any (Sum.elim (fun op => op.takes key jobId ω) fun _ => false)
  | _ => false

theorem stands_reached (reached : (machine env).Reached ⟨World.empty,[]⟩ labels t) :
    ∃ inner u, System.machine.Reached (initial World.empty) inner u ∧ (front env).Simulates t u := by
  obtain ⟨before,_,rfl⟩ := reached
  obtain ⟨inner,_,simulates⟩ := server_refines env before
  exact ⟨inner,_,⟨inner,List.prefix_rfl,rfl⟩,simulates⟩

section Refusals

def Jobless (accepted : Except Response α) : Prop :=
  ∀ refusal, accepted = .error refusal → refusal.job? = none

theorem jobless_pure (value : α) : Jobless (pure value) := by
  rintro refusal ⟨⟩

theorem jobless_throw {refusal : Response} (other : refusal.job? = none) :
    Jobless (throw refusal : Except Response α) := by
  rintro refusal ⟨⟩
  exact other

theorem jobless_bind {accepted : Except Response α} {next : α → Except Response β}
    (first : Jobless accepted) (rest : ∀ value, Jobless (next value)) : Jobless (accepted >>= next) := by
  cases accepted with
  | error refusal =>
    rintro same ⟨⟩
    exact first refusal rfl
  | ok value => exact rest value

theorem jobless_authenticate (env : Env) (request : HttpRequest) : Jobless (authenticate env request) := by
  unfold authenticate
  split
  · exact jobless_throw rfl
  · split
    · exact jobless_throw rfl
    · split
      · exact jobless_throw rfl
      · exact jobless_pure _

theorem jobless_validateRequest (accepted : Option α) (errors : List String) :
    Jobless (validateRequest accepted errors) := by
  cases accepted with
  | none => exact jobless_throw rfl
  | some value => exact jobless_pure value

theorem jobless_middleware (env : Env) (request : HttpRequest) (parameter : String) (endpoint : Endpoint) :
    Jobless (endpoint.middleware env request parameter) := by
  have authentic := jobless_authenticate env request
  cases endpoint with
  | health => exact jobless_throw rfl
  | createJob | listJobs | cancelJob =>
    exact jobless_bind authentic fun _ => jobless_bind (jobless_validateRequest _ _) fun _ => jobless_pure _
  | jobStats | getJob => exact jobless_bind authentic fun _ => jobless_pure _

theorem jobless_errorHandler (env : Env) (failure : Failure) : (errorHandler env failure).job? = none := by
  obtain ⟨error,failed⟩ := errorHandler_fails env failure
  rw [Response.job?,failed]

theorem jobless_app (env : Env) (request : HttpRequest) : Jobless (app env request) := by
  unfold app
  split
  · exact jobless_throw rfl
  · exact jobless_throw (jobless_errorHandler env _)
  · split
    · exact jobless_throw rfl
    · exact jobless_throw (jobless_errorHandler env _)
    · exact jobless_middleware env request _ _

/-- A response that carries a job comes from a handler. -/
theorem answers_job {request : HttpRequest} {status : Nat} {job : IJob} {history : Transcript}
    (answers : Answers env request ⟨status,.job job⟩ history) :
    ∃ route, app env request = .ok route ∧ Told route ⟨status,.job job⟩ history := by
  unfold Answers at answers
  split at answers
  · rename_i refusal refused
    subst answers
    cases jobless_app env request _ refused
  · rename_i route reached
    rcases answers with told | ⟨e,_,same⟩
    · exact ⟨route,reached,told⟩
    · have none_ := jobless_errorHandler env (.thrown e)
      rw [← same] at none_
      cases none_

end Refusals

section Receipts

variable {route : Route} {job : IJob} {history : Transcript}

theorem told_created (told : Told route ⟨201,.job job⟩ history) :
    ∃ body input, route = .createJob (some body) ∧ Receipts body input job history.inner := by
  cases route with
  | createJob body =>
    cases body with
    | none => exact told.elim
    | some body =>
      obtain ⟨input,created,receipts,same⟩ := told
      cases same
      exact ⟨body,input,rfl,receipts⟩
  | getJob jobId | cancelJob jobId user =>
    obtain ⟨found,_,same⟩ := told
    cases found <;> cases same
  | listJobs | jobStats =>
    obtain ⟨_,_,same⟩ := told
    cases same

theorem told_cancelled {jobId : String} {user : User}
    (told : Told (.cancelJob jobId user) ⟨200,.job job⟩ history) :
    Cancelled jobId job history.inner := by
  obtain ⟨found,heard,same⟩ := told
  cases found with
  | none => cases same
  | some found =>
    cases same
    exact heard

end Receipts

/-- What the answer to a client that a job is created says of the later states of a run. -/
structure Created (env : Env) (labels : List ServerLabel) (index : Nat) (call : ServerCall)
    (body : CreateJobRequest) (job : IJob) : Prop where
  computed : ∃ uuid, JobService.jobId body uuid = some job.jobId
  stored : ∃ input, (machine env).Since ⟨World.empty,[]⟩ labels index (.inl (.job (.createJob input)))
    (fun s label => deletes job.jobId s label = false) fun w => w.remembers job
  queued : (machine env).Since ⟨World.empty,[]⟩ labels index
    (.inl (.zaddNX (queueKeyMap body.jobType) body.scheduledAt job.jobId))
    (fun s label => removes (queueKeyMap body.jobType) job.jobId s label = false)
    fun w => job.jobId ∈ (w.sortedSets (queueKeyMap body.jobType)).members
  handedOver : ⟨.inl (.publish .jobScheduled (.scheduled job.jobId job.jobType job.tenantId
    job.scheduledAt job.nextRunAt job.priority)),.ok ()⟩ ∈ call.history

section Since

variable {index : Nat} {call : ServerCall}

theorem served_since {op : Op} {reply : Except Thrown op.Reply} {spares : Op → Oracle → Prop}
    {survives : StoreEvent → World → Prop} {holds : World → Prop}
    {condition : ServerState → ServerLabel → Prop} (ensures : Ensures op reply spares survives holds)
    (found : ((machine env).run ⟨World.empty,[]⟩ labels).calls[index]? = some call)
    (heard : ⟨op,reply⟩ ∈ inner call.history)
    (spared : ∀ s index ω op, condition s (.resume index ω) → s.awaits index = some (.inl op) →
      spares op ω)
    (survived : ∀ s event, condition s (.environment event) → survives event s.world) :
    (machine env).Since ⟨World.empty,[]⟩ labels index (.inl op) condition holds := by
  refine Machine.since_run found (mem_inner.mp heard) ensures.given ?_ ?_
  · intro s index ω op may awaits now
    -- What the server asks for itself leaves the stores as they are.
    rcases op with op | op
    · exact ensures.performs op ω s.world (spared s index ω op may awaits) now
    · exact now
  · exact fun s event may => ensures.moves event s.world (survived s event may)

theorem stored_since (found : ((machine env).run ⟨World.empty,[]⟩ labels).calls[index]? = some call)
    {input : EnqueueJobInput} {job : IJob}
    (created : ⟨.job (.createJob input),.ok job⟩ ∈ inner call.history) :
    (machine env).Since ⟨World.empty,[]⟩ labels index (.inl (.job (.createJob input)))
      (fun s label => deletes job.jobId s label = false) fun w => w.remembers job := by
  refine served_since (creation_ensures input job) found created (fun _ _ _ _ _ _ => trivial) ?_
  intro s event kept
  cases event <;> exact kept

theorem queued_since (found : ((machine env).run ⟨World.empty,[]⟩ labels).calls[index]? = some call)
    {key : String} {score : Int} {jobId : String} {added : Nat}
    (addition : ⟨.zaddNX key score jobId,.ok added⟩ ∈ inner call.history) :
    (machine env).Since ⟨World.empty,[]⟩ labels index (.inl (.zaddNX key score jobId))
      (fun s label => removes key jobId s label = false) fun w => jobId ∈ (w.sortedSets key).members := by
  refine served_since (addition_ensures key score jobId added) found addition ?_ fun _ _ _ => trivial
  intro s index ω op spared awaits
  simpa [removes,awaits] using spared

end Since

theorem created_reached {index : Nat} {call : ServerCall}
    (found : ((machine env).run ⟨World.empty,[]⟩ labels).calls[index]? = some call)
    {request : HttpRequest} (is : call.request = .http request) {job : IJob}
    (response : ⟨201,.job job⟩ ∈ sent call.history) :
    ∃ body, app env request = .ok (.createJob (some body)) ∧ Created env labels index call body job := by
  have member := List.mem_of_getElem? found
  have reached : (machine env).Reached ⟨World.empty,[]⟩ labels _ := ⟨labels,List.prefix_rfl,rfl⟩
  obtain ⟨route,accepted,told⟩ := answers_job (answers_reached reached member is _ response)
  obtain ⟨body,input,rfl,receipts⟩ := told_created told
  obtain ⟨inner,u,service,simulates⟩ := stands_reached reached
  obtain ⟨call',there,stands⟩ := simulates.call member
  have created : ⟨.job (.createJob input),.ok job⟩ ∈ call'.history := stands.history ▸ receipts.created
  have key : job.jobId = input.jobId :=
    Machine.replies_reached names_perform service call' there _ created
  obtain ⟨uuid,computed⟩ := receipts.computed
  obtain ⟨added,addition⟩ := receipts.added
  refine ⟨body,accepted,⟨uuid,?_⟩,⟨input,stored_since found receipts.created⟩,?_,
    mem_inner.mp receipts.announced⟩
  · rw [JobService.jobId,computed,key]
    rfl
  · rw [key]
    exact queued_since found addition

/-- In every run, a job that a client has been told is created is one that it asked for. Since the
collection has confirmed it, it holds the job while no document with this id is deleted; since
the sorted set of its type has, the id waits there until a step takes it off; and the broker's
channel has taken the message. -/
theorem created_job_lasts (env : Env) (labels : List ServerLabel) (index : Nat) (call : ServerCall)
    (found : ((machine env).run ⟨World.empty,[]⟩ labels).calls[index]? = some call)
    (request : HttpRequest) (is : call.request = .http request) (job : IJob)
    (response : ⟨201,.job job⟩ ∈ sent call.history) :
    ∃ body, app env request = .ok (.createJob (some body)) ∧ Created env labels index call body job :=
  created_reached found is response

theorem posted_job_lasts : ∃ index call body job, job.jobId = reportId ∧
    Created shop posted index call body job := by
  obtain ⟨call,member,request,is,job,named,response⟩ := posted_created
  obtain ⟨index,found⟩ := List.getElem?_of_mem member
  obtain ⟨body,_,created⟩ := created_job_lasts shop posted index call found request is job response
  exact ⟨index,call,body,job,named,created⟩

/-- In every run, a job that a client has been told is cancelled is never claimed again: its
document stays, dead and with the attempts that it had. -/
theorem cancelled_job_rests (env : Env) (labels : List ServerLabel) :
    ∀ t, (machine env).Reached ⟨World.empty,[]⟩ labels t →
      ∀ call ∈ t.calls, ∀ request, call.request = .http request →
        ∀ jobId user, app env request = .ok (.cancelJob jobId user) →
          ∀ job, ⟨200,.job job⟩ ∈ sent call.history → job.jobId = jobId ∧ t.world.rests job := by
  intro t reached call member request is jobId user accepted job response
  obtain ⟨route,again,told⟩ := answers_job (answers_reached reached member is _ response)
  obtain rfl : .cancelJob jobId user = route := Except.ok.inj (accepted.symm.trans again)
  have cancelled := told_cancelled told
  obtain ⟨inner,u,service,simulates⟩ := stands_reached reached
  obtain ⟨call',there,stands⟩ := simulates.call member
  rw [Transcript.inner,← stands.history] at cancelled
  rw [simulates.world]
  exact cancellation_lasts service there cancelled

def reportDelete : HttpRequest where
  method := "DELETE"
  originalUrl := "/api/v1/jobs/" ++ reportId
  jwtCookie := some "token"
  authorization := none
  query := []
  body := .absent

def deleted : List ServerLabel :=
  posted ++ .submit (.http reportDelete) :: List.replicate 5 (.resume 1 (calm 0))

theorem deleted_job_rests : ∃ job : IJob, job.jobId = reportId ∧
    ((machine shop).run ⟨World.empty,[]⟩ deleted).world.rests job := by
  have cancelled : ((machine shop).run ⟨World.empty,[]⟩ deleted).calls.any
      (responded shop (fun route => route matches .cancelJob _ _) (carries 200)) = true := by
    decide +kernel
  obtain ⟨call,member,cancelled⟩ := List.any_eq_true.mp cancelled
  obtain ⟨request,route,_,is,accepted,kind,response,carried⟩ := responded_request cancelled
  obtain ⟨job,rfl,named⟩ := carries_job carried
  cases route with
  | cancelJob jobId user =>
    exact ⟨job,named,(cancelled_job_rests shop deleted _ ⟨deleted,List.prefix_rfl,rfl⟩ call member request
      is jobId user accepted job response).2⟩
  | _ => cases kind

section Found

variable {job : IJob}

/-- A read of the job's document that does not throw finds the job. -/
def Finds (job : IJob) : Exchange (signature.extend own) Thrown → Prop
  | ⟨.inr (.findByJobId jobId),.ok found⟩ =>
    jobId = job.jobId → ∃ stored : IJob, found = some stored ∧ stored.identity = job.identity
  | _ => True

theorem finds_answer (remembers : s.world.remembers job) (op : (signature.extend own).Op) (ω : Oracle) :
    Finds job ⟨op,((machine env).perform op ω s.world).1⟩ := by
  rcases op with op | op
  · trivial
  · cases op with
    | findByJobId jobId =>
      have reply : ((machine env).perform (.inr (.findByJobId jobId)) ω s.world).1 =
          (deliver ω.delivery s.world (.ok (JobRepository.findByJobId s.world.jobs jobId),s.world)).1 := rfl
      rw [reply]
      cases delivered : ω.delivery with
      | performed =>
        rintro rfl
        exact remembers
      | lost e | unacknowledged e => trivial
    | _ => trivial

theorem remembers_later {labels later : List ServerLabel} {call : ServerCall}
    (member : call ∈ ((machine env).run ⟨World.empty,[]⟩ labels).calls) {request : HttpRequest}
    (is : call.request = .http request) (response : ⟨201,.job job⟩ ∈ sent call.history)
    (keeps : Keeps env job.jobId (labels ++ later)) :
    ((machine env).run ⟨World.empty,[]⟩ (labels ++ later)).world.remembers job := by
  obtain ⟨last,there,same,longer⟩ := Machine.history_run member later
  rw [← Machine.run_append] at there
  have still : ⟨201,.job job⟩ ∈ sent last.history :=
    ((longer.filterMap _).filterMap _).subset response
  obtain ⟨index,found⟩ := List.getElem?_of_mem there
  obtain ⟨body,_,created⟩ := created_reached found (same.trans is) still
  obtain ⟨input,stored⟩ := created.stored
  exact stored.along keeps

/-- Whoever asks for a job after some client has been told that it is created is given this job,
or told of an error, as long as no document with this id is deleted. -/
theorem created_job_found (env : Env) (labels later : List ServerLabel) (job : IJob)
    (keeps : Keeps env job.jobId (labels ++ later)) (first : ServerCall)
    (member : first ∈ ((machine env).run ⟨World.empty,[]⟩ labels).calls) (creation : HttpRequest)
    (asked : first.request = .http creation) (created : ⟨201,.job job⟩ ∈ sent first.history) :
    ∀ index call, ((machine env).run ⟨World.empty,[]⟩ labels).calls.length ≤ index →
      ((machine env).run ⟨World.empty,[]⟩ (labels ++ later)).calls[index]? = some call →
        ∀ request, call.request = .http request → app env request = .ok (.getJob job.jobId) →
          ∀ response ∈ sent call.history, (∃ e, response = errorHandler env (.thrown e)) ∨
            ∃ stored, response = ⟨200,.job stored⟩ ∧ stored.identity = job.identity := by
  intro index call new found request is accepted response answer
  have remembers : (machine env).Along (fun s _ => s.world.remembers job)
      ((machine env).run ⟨World.empty,[]⟩ labels) later := by
    refine Machine.along_of_reached ?_ fun _ _ remembers => remembers
    rintro t ⟨before,⟨after,rfl⟩,rfl⟩
    rw [← Machine.run_append]
    refine remembers_later member asked created ?_
    rw [← List.append_assoc] at keeps
    exact (Machine.along_append.mp keeps).1
  have finds : Machine.Newer (fun call : ServerCall => ∀ exchange ∈ call.history, Finds job exchange)
      ((machine env).run ⟨World.empty,[]⟩ labels).calls.length
      ((machine env).run ⟨World.empty,[]⟩ (labels ++ later)) := by
    rw [Machine.run_append]
    refine Machine.newer_run ?_ ?_ ?_ remembers
    · rintro request exchange ⟨⟩
    · intro s index ω call op rest here _ _ before exchange heard
      rcases List.mem_cons.mp heard with rfl | earlier
      · exact finds_answer here op ω
      · exact before exchange earlier
    · exact fun call before => before
  have answers := answers_reached ⟨_,List.prefix_rfl,rfl⟩ (List.mem_of_getElem? found) is _ answer
  rw [Answers,accepted] at answers
  rcases answers with ⟨stored,heard,rfl⟩ | thrown
  · obtain ⟨stored,rfl,same⟩ := finds index call new found _ heard rfl
    exact .inr ⟨stored,rfl,same⟩
  · exact .inl (thrown.imp fun e => And.right)

def reportGet : HttpRequest where
  method := "GET"
  originalUrl := "/api/v1/jobs/" ++ reportId
  jwtCookie := some "token"
  authorization := none
  query := []
  body := .absent

def looks : Route → Bool
  | .getJob jobId => jobId = reportId
  | _ => false

theorem looks_route {route : Route} (looks : looks route = true) : route = .getJob reportId := by
  cases route with
  | getJob jobId => exact congrArg Route.getJob (of_decide_eq_true looks)
  | _ => cases looks

def looked : List ServerLabel := .submit (.http reportGet) :: List.replicate 2 (.resume 1 (calm 0))

theorem posted_job_found : ∃ job : IJob, job.jobId = reportId ∧
    ∃ call ∈ ((machine shop).run ⟨World.empty,[]⟩ (posted ++ looked)).calls, ∃ stored : IJob,
      ⟨200,.job stored⟩ ∈ sent call.history ∧ stored.identity = job.identity := by
  have found : ((machine shop).run ⟨World.empty,[]⟩ (posted ++ looked)).calls[1]?.any
      (responded shop looks (carries 200)) = true := by
    decide +kernel
  have keeps : Keeps shop reportId (posted ++ looked) := by
    unfold Keeps
    decide +kernel
  have new : ((machine shop).run ⟨World.empty,[]⟩ posted).calls.length ≤ 1 := by decide +kernel
  obtain ⟨first,member,creation,asked,job,named,creates⟩ := posted_created
  obtain ⟨call,here,found⟩ := (Option.any_eq_true _ _).mp found
  obtain ⟨request,route,response,is,accepted,kind,answer,carried⟩ := responded_request found
  obtain rfl := looks_route kind
  rw [← named] at keeps accepted
  rcases created_job_found shop posted looked job keeps first member creation asked creates 1 call new
    here request is accepted response answer with ⟨e,rfl⟩ | ⟨stored,rfl,same⟩
  · obtain ⟨_,is,_⟩ := carries_job carried
    obtain ⟨error,failed⟩ := errorHandler_fails shop (.thrown e)
    rw [is] at failed
    cases failed
  · exact ⟨job,named,call,List.mem_of_getElem? here,stored,answer,same⟩

end Found

end JobScheduler.Http
