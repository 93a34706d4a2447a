import JobScheduler.HttpFront

/-! The answers of the interface. A request that no crash interrupts is answered exactly once
and last: by the middleware, with what the stores have told its handler, or by the error handler
with what has been thrown. -/
namespace JobScheduler.Http

open Program

abbrev Transcript := List (Exchange (signature.extend own) Thrown)

namespace Transcript

def sending : Exchange own Thrown → Option Response
  | ⟨.respond response,_⟩ => some response
  | _ => none

def sent (history : Transcript) : List Response := (history.filterMap Exchange.own).filterMap sending

def inner (history : Transcript) : List (Exchange signature Thrown) :=
  history.filterMap Exchange.inner

theorem mem_inner {op : Op} {reply : Except Thrown op.Reply} {history : Transcript} :
    ⟨op,reply⟩ ∈ history.inner ↔ ⟨.inl op,reply⟩ ∈ history := by
  constructor
  · intro heard
    obtain ⟨⟨own | own,told⟩,member,same⟩ := List.mem_filterMap.mp heard
    · obtain ⟨rfl,replied⟩ := Exchange.mk.inj (Option.some.inj same)
      obtain rfl := eq_of_heq replied
      exact member
    · cases same
  · exact fun member => List.mem_filterMap.mpr ⟨_,member,rfl⟩

end Transcript

open Transcript

def foundOr (message : String) : Option IJob → Response
  | none => ⟨404,.failure (text message)⟩
  | some job => ⟨200,.job job⟩

/-- The response of a handler says what the stores have told it. -/
def Told : Route → Response → Transcript → Prop
  | .createJob none, _, _ => False
  | .createJob (some body), response, history =>
    ∃ input job, Receipts body input job history.inner ∧ response = ⟨201,.job job⟩
  | .getJob jobId, response, history => ∃ found,
    ⟨.inr (.findByJobId jobId),.ok found⟩ ∈ history ∧
      response = foundOr ("Job " ++ jobId ++ " not found") found
  | .listJobs user query, response, history => ∃ result,
    ⟨.inr (.findByTenant user.userId query.status query.page query.limit),.ok result⟩ ∈ history ∧
      response = ⟨200,.page result⟩
  | .cancelJob jobId _, response, history => ∃ found,
    ⟨.job (.cancelJob jobId),.ok found⟩ ∈ history.inner ∧
      response = foundOr ("Job " ++ jobId ++ " not found or already running") found
  | .jobStats jobType, response, history => ∃ counts,
    ⟨.inr (.countByStatus jobType),.ok counts⟩ ∈ history ∧ response = ⟨200,.counts counts⟩

/-- The handler throws by itself, before it has asked for anything. -/
def Balks (e : Thrown) : Route → Prop
  | .createJob none => e = castError
  | .createJob (some body) => body.keyless ∧ e = typeError
  | _ => False

/-- The handler has thrown, or something that it has asked. -/
def Threw (route : Route) (e : Thrown) (history : Transcript) : Prop :=
  (∃ op, ⟨op,.error e⟩ ∈ history) ∨ Balks e route

/-- What a request may be answered with. -/
def Answers (env : Env) (request : HttpRequest) (response : Response) (history : Transcript) : Prop :=
  match app env request with
  | .error refusal => response = refusal
  | .ok route => Told route response history ∨
    ∃ e, Threw route e history ∧ response = errorHandler env (.thrown e)

def Response.job? (response : Response) : Option IJob :=
  match response.body with
  | .job job => some job
  | _ => none

theorem errorHandler_fails (env : Env) (failure : Failure) :
    ∃ error, (errorHandler env failure).body = .failure error := by
  cases failure with
  | app error => exact ⟨error.message,rfl⟩
  | thrown e =>
    simp only [errorHandler]
    split
    · exact ⟨_,rfl⟩
    · split
      · exact ⟨_,rfl⟩
      · split <;> exact ⟨_,rfl⟩

theorem told_suffix {route : Route} {response : Response} {before history : Transcript}
    (told : Told route response before) (suffix : before <:+ history) :
    Told route response history := by
  have inner : before.inner <:+ history.inner := suffix.filterMap _
  cases route with
  | createJob body =>
    cases body with
    | none => exact told
    | some body =>
      obtain ⟨input,job,receipts,is⟩ := told
      obtain ⟨added,addition⟩ := receipts.added
      exact ⟨input,job,⟨receipts.computed,inner.subset receipts.created,⟨added,inner.subset addition⟩,
        inner.subset receipts.announced⟩,is⟩
  | cancelJob jobId user =>
    obtain ⟨found,heard,is⟩ := told
    exact ⟨found,inner.subset heard,is⟩
  | _ =>
    obtain ⟨value,heard,is⟩ := told
    exact ⟨value,suffix.subset heard,is⟩

theorem answers_suffix {env : Env} {request : HttpRequest} {response : Response}
    {before history : Transcript} (answers : Answers env request response before)
    (suffix : before <:+ history) : Answers env request response history := by
  unfold Answers at answers ⊢
  split at answers
  · exact answers
  · refine answers.imp (fun told => told_suffix told suffix) fun ⟨e,threw,is⟩ => ⟨e,?_,is⟩
    exact threw.imp_left fun ⟨op,heard⟩ => ⟨op,suffix.subset heard⟩

/-- Nothing is asked after a response. -/
def MaySend (env : Env) : Request → Transcript → (signature.extend own).Op → Prop
  | .http request, history, op => history.sent = [] ∧
    ∀ response, op = .inr (.respond response) → Answers env request response history
  | .background _ _, _, _ => True

/-- The last that a request does is to respond. -/
def Ends : Request → Transcript → Except Thrown Unit → Prop
  | .http _, history, .ok _ => ∃ response before,
    history = ⟨.inr (.respond response),.ok ()⟩ :: before
  | .http _, history, .error e => e = System.machine.crashed ∨ ∃ response before,
    history = ⟨.inr (.respond response),.error e⟩ :: before
  | .background _ _, _, _ => True

section Programs

variable {env : Env} {request : HttpRequest} {route : Route}

theorem shows_serve {program : JobScheduler.Async α}
    {innerPost : List (Exchange signature Thrown) → Except Thrown α → Prop}
    {post : Transcript → Except Thrown α → Prop}
    (shows : Shows (fun _ _ => True) innerPost [] program)
    (settles : ∀ history result, history.sent = [] → innerPost history.inner result →
      post history result) :
    Shows (MaySend env (.http request)) post [] (serve program) := by
  refine shows_lift shows ?_ ?_
  · intro later op same _
    refine ⟨?_,by rintro response ⟨⟩⟩
    rw [sent,same]
    rfl
  · intro later result same shown
    refine settles later result ?_ shown
    rw [sent,same]
    rfl

theorem shows_await {op : Own} {next : op.Reply → Async α}
    {post : Transcript → Except Thrown α → Prop} (may : MaySend env (.http request) [] (.inr op))
    (thrown : ∀ e, post [⟨.inr op,.error e⟩] (.error e))
    (told : ∀ value, Shows (MaySend env (.http request)) post [⟨.inr op,.ok value⟩] (next value)) :
    Shows (MaySend env (.http request)) post [] (await op >>= next) := by
  refine (wp_bind ..).mpr ⟨may,?_⟩
  rintro (e | value) _
  · exact thrown e
  · exact told value

/-- Nothing has been sent, and a handler that returns has been told what it is to respond. -/
structure Handled (env : Env) (route : Route) (history : Transcript)
    (result : Except Thrown (Except AppError Response)) : Prop where
  quiet : history.sent = []
  told : ∀ answer, result = .ok answer → Told route (match answer with
    | .ok response => response
    | .error error => errorHandler env (.app error)) history
  threw : ∀ e, result = .error e → Threw route e history

theorem handled_ok {answer : Except AppError Response} {history : Transcript} (quiet : history.sent = [])
    (told : Told route (match answer with
      | .ok response => response
      | .error error => errorHandler env (.app error)) history) :
    Handled env route history (.ok answer) :=
  ⟨quiet,by rintro _ ⟨⟩; exact told,by rintro e ⟨⟩⟩

theorem handled_error {e : Thrown} {history : Transcript} (quiet : history.sent = [])
    (threw : Threw route e history) : Handled env route history (.error e) :=
  ⟨quiet,by rintro _ ⟨⟩,by rintro _ ⟨⟩; exact threw⟩

theorem threw_inner {e : Thrown} {history : Transcript} (refused : Refused history.inner e) :
    Threw route e history := by
  obtain ⟨op,heard⟩ := refused
  exact .inl ⟨.inl op,mem_inner.mp heard⟩

theorem threw_last (op : (signature.extend own).Op) (e : Thrown) (history : Transcript) :
    Threw route e (⟨op,.error e⟩ :: history) := .inl ⟨op,List.mem_cons_self⟩

theorem shows_handler (route : Route) :
    Shows (MaySend env (.http request)) (Handled env route) [] route.handler := by
  cases route with
  | createJob body =>
    cases body with
    | none => exact handled_error rfl (.inr rfl)
    | some body =>
      refine (wp_bind ..).mpr (shows_serve (shows_enqueue body) ?_)
      rintro history (e | job) quiet shown
      · refine handled_error quiet ?_
        rcases shown with refused | balks
        · exact threw_inner refused
        · exact .inr balks
      · obtain ⟨input,receipts⟩ := shown
        exact handled_ok quiet ⟨input,job,receipts,rfl⟩
  | cancelJob jobId user =>
    refine (wp_bind ..).mpr (shows_serve (shows_cancel jobId user.userId) ?_)
    rintro history (e | found) quiet shown
    · exact handled_error quiet (threw_inner shown)
    · cases found <;> exact handled_ok quiet ⟨_,shown,rfl⟩
  | getJob jobId =>
    refine shows_await ⟨rfl,by rintro response ⟨⟩⟩ (fun e => handled_error rfl (threw_last ..)) fun found => ?_
    cases found <;> exact handled_ok rfl ⟨_,List.mem_cons_self,rfl⟩
  | listJobs user query =>
    refine shows_await ⟨rfl,by rintro response ⟨⟩⟩ (fun e => handled_error rfl (threw_last ..)) fun result => ?_
    exact handled_ok rfl ⟨result,List.mem_cons_self,rfl⟩
  | jobStats jobType =>
    refine shows_await ⟨rfl,by rintro response ⟨⟩⟩ (fun e => handled_error rfl (threw_last ..)) fun counts => ?_
    exact handled_ok rfl ⟨counts,List.mem_cons_self,rfl⟩

theorem shows_respond {response : Response} {history : Transcript} (quiet : history.sent = [])
    (answers : Answers env request response history) :
    Shows (MaySend env (.http request)) (Ends (.http request)) history (await (.respond response)) := by
  refine ⟨⟨quiet,by rintro other ⟨⟩; exact answers⟩,?_⟩
  rintro (e | ⟨⟩) _
  · exact .inr ⟨response,history,rfl⟩
  · exact ⟨response,history,rfl⟩

theorem shows_asyncHandler (reaches : app env request = .ok route) :
    Shows (MaySend env (.http request)) (Ends (.http request)) [] (asyncHandler env route.handler) := by
  have answers : ∀ response history, Told route response history ∨
      (∃ e, Threw route e history ∧ response = errorHandler env (.thrown e)) →
        Answers env request response history := by
    intro response history either
    rw [Answers,reaches]
    exact either
  refine (wp_bind ..).mpr ((wp_tryCatch ..).mpr ((wp_bind ..).mpr (wp_mono (shows_handler route) ?_)))
  rintro history (e | answer) ⟨quiet,told,threw⟩
  · exact shows_respond quiet (answers _ _ (.inr ⟨e,threw e rfl,rfl⟩))
  · have response := told answer rfl
    cases answer <;> exact shows_respond quiet (answers _ _ (.inl response))

/-- Every request is answered as it may be, and last. -/
theorem shows_program (request : Request) :
    Shows (MaySend env request) (Ends request) [] (program env request) := by
  cases request with
  | http request =>
    simp only [program]
    cases reached : app env request with
    | error refusal =>
      refine shows_respond rfl ?_
      rw [Answers,reached]
    | ok route => exact shows_asyncHandler reached
  | background request own => exact shows_of_forall (fun _ _ => trivial) fun _ _ => trivial

end Programs

variable {env : Env} {labels : List ServerLabel} {t : ServerState}

theorem transcribed (reached : (machine env).Reached ⟨World.empty,[]⟩ labels t) :
    ∀ call ∈ t.calls, Machine.Transcribed (MaySend env) Ends call := by
  refine Machine.transcribed_reached shows_program ?_ reached
  intro request history
  cases request with
  | http request => exact .inl rfl
  | background request own => trivial

def Sends : Exchange (signature.extend own) Thrown → Prop
  | ⟨.inr (.respond _),.error _⟩ => False
  | _ => True

theorem sends_reached (reached : (machine env).Reached ⟨World.empty,[]⟩ labels t) :
    ∀ call ∈ t.calls, ∀ exchange ∈ call.history, Sends exchange := by
  refine Machine.replies_reached ?_ reached
  intro op ω w
  rcases op with op | op
  · trivial
  · cases op <;> trivial

/-- A request that may ask what it has asked has sent nothing, or an answer as the last. -/
theorem sent_last {request : HttpRequest} {history : Transcript}
    (asked : Justified (MaySend env (.http request)) history) :
    sent history = [] ∨ ∃ response, sent history = [response] ∧ Answers env request response history := by
  cases history with
  | nil => exact .inl rfl
  | cons exchange before =>
    obtain ⟨⟨quiet,answers⟩,_⟩ := asked
    obtain ⟨op | op,reply⟩ := exchange
    · exact .inl quiet
    · cases op with
      | respond response =>
        refine .inr ⟨response,congrArg (response :: ·) quiet,?_⟩
        exact answers_suffix (answers response rfl) (List.suffix_cons ..)
      | _ => exact .inl quiet

theorem answers_reached (reached : (machine env).Reached ⟨World.empty,[]⟩ labels t) {call : ServerCall}
    (member : call ∈ t.calls) {request : HttpRequest} (is : call.request = .http request) :
    ∀ response ∈ sent call.history, Answers env request response call.history := by
  have asked := (transcribed reached call member).asked
  rw [is] at asked
  intro response heard
  rcases sent_last asked with quiet | ⟨only,is,answers⟩
  · rw [quiet] at heard
    cases heard
  · rw [is] at heard
    rwa [List.mem_singleton.mp heard]

/-- How far a call for a request is with its answer. -/
structure Answered (env : Env) (request : HttpRequest) (call : ServerCall) : Prop where
  once : (sent call.history).length ≤ 1
  answers : ∀ response ∈ sent call.history, Answers env request response call.history
  before : call.inProgress = true → sent call.history = []
  after : call.program = .settled (.ok ()) → ∃ response, sent call.history = [response]
  interrupted : ∀ e, call.program = .settled (.error e) → e = System.machine.crashed

/-- In every run, a call for a request sends no second response, what it sends is an answer to
the request, and it settles with a response unless the process crashes. -/
theorem answered_once (env : Env) (labels : List ServerLabel) :
    ∀ t, (machine env).Reached ⟨World.empty,[]⟩ labels t →
      ∀ call ∈ t.calls, ∀ request, call.request = .http request → Answered env request call := by
  intro t reached call member request is
  have sends := sends_reached reached call member
  have answers := answers_reached reached member is
  have transcribed := transcribed reached call member
  obtain ⟨own,program,history⟩ := call
  obtain rfl : own = .http request := is
  have last := sent_last transcribed.asked
  refine ⟨?_,answers,?_,?_,?_⟩
  · rcases last with quiet | ⟨response,only,_⟩
    · simp [quiet]
    · simp [only]
  · intro open_
    obtain ⟨op,head⟩ := Option.isSome_iff_exists.mp open_
    obtain ⟨rest,rfl⟩ := Program.head_eq_some.mp head
    exact transcribed.shows.1.1
  · rintro rfl
    obtain ⟨response,before,rfl⟩ := transcribed.settled rfl
    rcases last with quiet | ⟨_,only,_⟩
    · cases quiet
    · exact ⟨_,only⟩
  · rintro e rfl
    rcases transcribed.settled rfl with crashed | ⟨response,before,rfl⟩
    · exact crashed
    · exact (sends _ List.mem_cons_self).elim

/-- Whether `express` takes a request for the exact path of a layer. -/
def exactly (layer : Layer) (request : HttpRequest) : Option (Except Thrown String) :=
  let mounted := (layer.mount ++ "/").toList
  let url := request.originalUrl.toList
  if request.method ≠ layer.method then none
  else if layer.path = "/:jobId" then
    if mounted.isPrefixOf url then some (.ok (String.ofList (url.drop mounted.length))) else none
  else if layer.path = "/" then if request.originalUrl = layer.mount then some (.ok "") else none
  else if request.originalUrl = layer.mount ++ layer.path then some (.ok "") else none

noncomputable def shop : Env where
  before _ := .passed
  takes := exactly
  jwtSecret := some "secret"
  verify token secret := if token = "token" ∧ secret = "secret" then some ⟨"user"⟩ else none
  isoDate shown := if shown = "1970-01-01" then some (some 0) else none
  parseObject _ := none
  number _ := none
  details _ _ := []
  inspect _ := ⟨"Error",none⟩
  order := (SortOrder.nonempty JobDocument.createdAt).some
  createdAt _ := 0
  countMatching _ _ := .ok fun _ => 0

def reportPost : HttpRequest where
  method := "POST"
  originalUrl := "/api/v1/jobs"
  jwtCookie := some "token"
  authorization := none
  query := []
  body := .object [("jobType",.str "SCHEDULED_REPORT"),("tenantId",.str "tenant"),
    ("scheduledAt",.str "1970-01-01"),("payload",.obj reportRequest.payload)]

def posted : List ServerLabel :=
  .submit (.http reportPost) :: List.replicate 4 (.resume 0 (calm 0))

def responded (env : Env) (asks : Route → Bool) (passes : Response → Bool) (call : ServerCall) : Bool :=
  match call.request with
  | .http request =>
    (match app env request with
      | .ok route => asks route
      | .error _ => false) && (sent call.history).any passes
  | .background _ _ => false

theorem responded_request {asks : Route → Bool} {passes : Response → Bool} {call : ServerCall}
    (responded : responded env asks passes call = true) : ∃ request route response,
      call.request = .http request ∧ app env request = .ok route ∧ asks route = true ∧
        response ∈ sent call.history ∧ passes response = true := by
  unfold Http.responded at responded
  split at responded
  · rename_i request is
    obtain ⟨accepted,said⟩ := Bool.and_eq_true_iff.mp responded
    obtain ⟨response,member,passed⟩ := List.any_eq_true.mp said
    split at accepted
    · rename_i route reached
      exact ⟨request,route,response,is,reached,accepted,member,passed⟩
    · cases accepted
  · cases responded

def carries (status : Nat) (response : Response) : Bool :=
  response.status = status && response.job?.any fun job => job.jobId = reportId

theorem carries_job {status : Nat} {response : Response} (carries : carries status response = true) :
    ∃ job, response = ⟨status,.job job⟩ ∧ job.jobId = reportId := by
  obtain ⟨own,body⟩ := response
  cases body with
  | job job =>
    obtain ⟨same,named⟩ := Bool.and_eq_true_iff.mp carries
    obtain rfl : own = status := of_decide_eq_true same
    exact ⟨job,rfl,of_decide_eq_true named⟩
  | _ => simp [Http.carries,Response.job?] at carries

theorem posted_created : ∃ call ∈ ((machine shop).run ⟨World.empty,[]⟩ posted).calls,
    ∃ request, call.request = .http request ∧
      ∃ job : IJob, job.jobId = reportId ∧ ⟨201,.job job⟩ ∈ sent call.history := by
  have created : ((machine shop).run ⟨World.empty,[]⟩ posted).calls.any
      (responded shop (fun _ => true) (carries 201)) = true := by
    decide +kernel
  obtain ⟨call,member,created⟩ := List.any_eq_true.mp created
  obtain ⟨request,_,_,is,_,_,response,carried⟩ := responded_request created
  obtain ⟨job,rfl,named⟩ := carries_job carried
  exact ⟨call,member,request,is,job,named,response⟩

theorem posted_answered : ∃ call ∈ ((machine shop).run ⟨World.empty,[]⟩ posted).calls,
    ∃ request, call.request = .http request ∧ Answered shop request call := by
  obtain ⟨call,member,request,is,_⟩ := posted_created
  exact ⟨call,member,request,is,
    answered_once shop posted _ ⟨posted,List.prefix_rfl,rfl⟩ call member request is⟩

end JobScheduler.Http
