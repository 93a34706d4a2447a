import JobScheduler.Extension
import JobScheduler.Listings
import JobScheduler.System

/-! The HTTP interface. A request goes through the middleware without a pause: either one of
them answers it, or it comes to a handler, which awaits the service and answers at last. The
third-party libraries (which route takes a request, tokens, validation, what a driver's errors
carry) are parameters. -/
namespace JobScheduler.Http

/-- What `express.json` and `express.urlencoded` make of a body. -/
inductive Body where
  | absent
  | array
  | object (fields : List (String × JsonValue))

/-- The query is as `qs` parses it: a repeated parameter is an array. -/
structure HttpRequest where
  method : String
  originalUrl : String
  jwtCookie : Option String
  authorization : Option String
  query : List (String × JsonValue)
  body : Body

inductive Endpoint where
  | health
  | createJob
  | listJobs
  | jobStats
  | getJob
  | cancelJob
  deriving DecidableEq

/-- A route as it is declared: its method, where its router is mounted, and the path below. -/
structure Layer where
  method : String
  mount : String
  path : String

def Endpoint.layer : Endpoint → Layer
  | .health => ⟨"GET","","/health"⟩
  | .createJob => ⟨"POST","/api/v1/jobs","/"⟩
  | .listJobs => ⟨"GET","/api/v1/jobs","/"⟩
  | .jobStats => ⟨"GET","/api/v1/jobs","/stats"⟩
  | .getJob => ⟨"GET","/api/v1/jobs","/:jobId"⟩
  | .cancelJob => ⟨"DELETE","/api/v1/jobs","/:jobId"⟩

def endpoints : List Endpoint := [.health,.createJob,.listJobs,.jobStats,.getJob,.cancelJob]

/-- What the packages before the routes do with a request: `cors` answers a preflight without a
body, and a parser may fail. -/
inductive Passage where
  | passed
  | answered (status : Nat)
  | failed (e : Thrown)

/-- The part of a verified token that handlers read. -/
structure User where
  userId : String

inductive ErrorCode where
  | number (code : Int)
  | string (code : String)
  deriving DecidableEq

structure ErrorInfo where
  name : String
  code : Option ErrorCode

/-- `takes` says whether `express` takes a request to a layer, with the parameter of the path or
the error of decoding it: it ignores letter case and a slash at the end, and takes `HEAD` for `GET`.
`isoDate` refuses a text, or gives the value of its date, if that is a date at all. `number` is
the integer that a text is converted to. `countMatching` is what a `jobType` that is not a text
selects. -/
structure Env where
  before : HttpRequest → Passage
  takes : Layer → HttpRequest → Option (Except Thrown String)
  jwtSecret : Option String
  verify : (token secret : String) → Option User
  isoDate : String → Option (Option Int)
  parseObject : String → Option (List (String × JsonValue))
  number : String → Option Int
  details : Endpoint → HttpRequest → List String
  inspect : Thrown → ErrorInfo
  order : SortOrder JobDocument.createdAt
  createdAt : IJob → Int
  countMatching : JsonValue → Jobs → Except Thrown (JobStatus → Nat)

inductive ResponseBody where
  | job (job : IJob)
  | page (result : PaginatedResult JobDocument)
  | counts (counts : JobStatus → Nat)
  | failure (error : Text)
  | invalid (errors : List String)
  | refused (error : String)
  | healthy
  | empty

structure Response where
  status : Nat
  body : ResponseBody

structure AppError where
  message : Text
  statusCode : Nat

def AppError.notFound (message : String) : AppError := ⟨text message,404⟩

/-- What `next` is called with. -/
inductive Failure where
  | app (error : AppError)
  | thrown (e : Thrown)

def internalError : Response := ⟨500,.failure (text "Internal server error")⟩

def errorHandler (env : Env) : Failure → Response
  | .app error => ⟨error.statusCode,.failure error.message⟩
  | .thrown e =>
    let info := env.inspect e
    if info.name = "ValidationError" then ⟨400,.failure e.message⟩
    else if info.name = "MongoServerError" ∧ info.code = some (.string "11000") then
      ⟨409,.failure (text "Duplicate key: resource already exists")⟩
    else if info.name = "JsonWebTokenError" ∨ info.name = "TokenExpiredError" then
      ⟨401,.failure (text "Invalid or expired token")⟩
    else internalError

/-- `req.cookies?.jwt ?? req.headers.authorization?.split(" ")[1]`, if it is not empty. -/
def HttpRequest.token (request : HttpRequest) : Option String :=
  (request.jwtCookie.or (request.authorization.bind fun header => (header.splitOn " ")[1]?)).filter
    fun token => token ≠ ""

def authenticate (env : Env) (request : HttpRequest) : Except Response User :=
  match request.token with
  | none => throw ⟨401,.refused "Authentication required"⟩
  | some token =>
    match env.jwtSecret.filter fun secret => secret ≠ "" with
    | none => throw ⟨500,.refused "Server configuration error"⟩
    | some secret =>
      match env.verify token secret with
      | none => throw ⟨401,.refused "Invalid token"⟩
      | some user => pure user

section Schemas

def jobTypeNamed (name : String) : Option JobType :=
  [JobType.reservationExpiry,.payoutBatch,.orderAbandonment,.lowStockAlert,.scheduledReport].find?
    fun jobType => jobType.name = name

def statusName : JobStatus → String
  | .pending => "pending"
  | .running => "running"
  | .completed => "completed"
  | .failed => "failed"
  | .dead => "dead"

def statusNamed (name : String) : Option JobStatus :=
  [JobStatus.pending,.running,.completed,.failed,.dead].find? fun status => statusName status = name

def joiString : JsonValue → Option String
  | .str s => if s = "" then none else some s
  | _ => none

def optional (value : Option α) (schema : α → Option β) : Option (Option β) :=
  match value with
  | none => some none
  | some value => (schema value).map some

def joiObject (env : Env) : JsonValue → Option (List (String × JsonValue))
  | .obj fields => some fields
  | .str shown => env.parseObject shown
  | _ => none

/-- The accepted request. It is absent if the date has no value. -/
def createJobSchema (env : Env) (body : List (String × JsonValue)) :
    Option (Option CreateJobRequest) := do
  let jobType ← (← JobPayload.field body "jobType" >>= joiString) |> jobTypeNamed
  let tenantId ← JobPayload.field body "tenantId" >>= joiString
  let scheduledAt ← JobPayload.field body "scheduledAt" >>= joiString >>= env.isoDate
  let cronExpression ← optional (JobPayload.field body "cronExpression") joiString
  let payload ← JobPayload.field body "payload" >>= joiObject env
  pure (scheduledAt.map fun time => ⟨jobType,tenantId,time,payload,cronExpression⟩)

def cancelJobSchema (body : List (String × JsonValue)) : Option Unit := do
  let reason ← optional (JobPayload.field body "reason") joiString
  if reason.all fun reason => (text reason).length ≤ 500 then some () else none

structure ListJobsQuery where
  status : Option JobStatus
  page : Nat
  limit : Nat

/-- `Joi.number().integer().min(1)`, which converts a text. -/
def joiPositive (env : Env) : JsonValue → Option Nat
  | .str shown => (env.number shown).bind fun n => if 1 ≤ n then some n.toNat else none
  | _ => none

def listJobsSchema (env : Env) (query : List (String × JsonValue)) : Option ListJobsQuery := do
  let status ← optional (JobPayload.field query "status") fun value => joiString value >>= statusNamed
  let _ ← optional (JobPayload.field query "jobType") fun value => joiString value >>= jobTypeNamed
  let page ← optional (JobPayload.field query "page") (joiPositive env)
  let limit ← optional (JobPayload.field query "limit") (joiPositive env)
  if limit.all (· ≤ 100) then some ⟨status,page.getD 1,limit.getD 20⟩ else none

end Schemas

def Body.fields : Body → Option (List (String × JsonValue))
  | .absent => some []
  | .object fields => some fields
  | .array => none

def validateRequest (accepted : Option α) (errors : List String) : Except Response α :=
  match accepted with
  | none => throw ⟨400,.invalid errors⟩
  | some value => pure value

/-- The handlers, with what the middleware has made of the request. -/
inductive Route where
  | createJob (body : Option CreateJobRequest)
  | getJob (jobId : String)
  | listJobs (user : User) (query : ListJobsQuery)
  | cancelJob (jobId : String) (user : User)
  | jobStats (jobType : Option JsonValue)

def NotFound (request : HttpRequest) : Response :=
  ⟨404,.failure (text ("Route " ++ request.method ++ " " ++ request.originalUrl ++ " not found"))⟩

/-- The first layer that takes the request, and the parameter of its path. -/
def arrival (env : Env) (request : HttpRequest) : Option (Endpoint × Except Thrown String) :=
  endpoints.findSome? fun endpoint =>
    (env.takes endpoint.layer request).map fun parameter => (endpoint,parameter)

def Endpoint.middleware (env : Env) (request : HttpRequest) (parameter : String) :
    Endpoint → Except Response Route
  | .health => throw ⟨200,.healthy⟩
  | .createJob => do
    let _ ← authenticate env request
    let body ← validateRequest (request.body.fields >>= createJobSchema env) (env.details .createJob request)
    pure (.createJob body)
  | .listJobs => do
    let user ← authenticate env request
    let query ← validateRequest (listJobsSchema env request.query) (env.details .listJobs request)
    pure (.listJobs user query)
  | .jobStats => do
    let _ ← authenticate env request
    pure (.jobStats (JobPayload.field request.query "jobType"))
  | .getJob => do
    let _ ← authenticate env request
    pure (.getJob parameter)
  | .cancelJob => do
    let user ← authenticate env request
    let _ ← validateRequest (request.body.fields >>= cancelJobSchema) (env.details .cancelJob request)
    pure (.cancelJob parameter user)

def app (env : Env) (request : HttpRequest) : Except Response Route :=
  match env.before request with
  | .answered status => throw ⟨status,.empty⟩
  | .failed e => throw (errorHandler env (.thrown e))
  | .passed =>
    match arrival env request with
    | none => throw (NotFound request)
    | some (_,.error e) => throw (errorHandler env (.thrown e))
    | some (endpoint,.ok parameter) => endpoint.middleware env request parameter

inductive Own where
  | findByJobId (jobId : String)
  | findByTenant (tenantId : String) (status : Option JobStatus) (page limit : Nat)
  | countByStatus (jobType : Option JsonValue)
  | respond (response : Response)

abbrev Own.Reply : Own → Type
  | .findByJobId _ => Option IJob
  | .findByTenant _ _ _ _ => PaginatedResult JobDocument
  | .countByStatus _ => JobStatus → Nat
  | .respond _ => Unit

abbrev own : Signature := ⟨Own,Own.Reply⟩

abbrev Async (α : Type) := Program (signature.extend own) Thrown α

abbrev await (op : Own) : Async op.Reply :=
  Program.perform (σ := signature.extend own) (.inr op)

abbrev serve (program : JobScheduler.Async α) : Async α := Program.lift program

/-- `jobType ? { jobType } : {}` passes on whatever the query holds. -/
def Env.countByStatus (env : Env) (jobs : Jobs) : Option JsonValue → Except Thrown (JobStatus → Nat)
  | none => .ok (JobRepository.countByStatus jobs none)
  | some (.str jobType) => .ok (JobRepository.countByStatus jobs (some jobType))
  | some filter => env.countMatching filter jobs

def Own.perform (env : Env) : (op : Own) → Oracle → World → Except Thrown op.Reply
  | .findByJobId jobId, ω, w =>
    (deliver ω.delivery w (.ok (JobRepository.findByJobId w.jobs jobId),w)).1
  | .findByTenant tenantId status page limit, ω, w =>
    (deliver ω.delivery w (.ok (JobRepository.findByTenant env.order
      (w.jobs.docs.map fun job => ⟨job,env.createdAt job⟩) tenantId status page limit),w)).1
  | .countByStatus jobType, ω, w => (deliver ω.delivery w (env.countByStatus w.jobs jobType,w)).1
  | .respond _, _, _ => .ok ()

def castError : Thrown := .error (text "Cast to date failed") none

abbrev Handler := Async (Except AppError Response)

def CreateJobHandler : Option CreateJobRequest → Handler
  | none => throw castError
  | some body => do
    let job ← serve (JobService.enqueue body)
    pure (.ok ⟨201,.job job⟩)

def GetJobHandler (jobId : String) : Handler := do
  match ← await (.findByJobId jobId) with
  | none => pure (.error (.notFound ("Job " ++ jobId ++ " not found")))
  | some job => pure (.ok ⟨200,.job job⟩)

def ListJobsHandler (user : User) (query : ListJobsQuery) : Handler := do
  let result ← await (.findByTenant user.userId query.status query.page query.limit)
  pure (.ok ⟨200,.page result⟩)

def CancelJobHandler (jobId : String) (user : User) : Handler := do
  match ← serve (JobService.cancel jobId user.userId) with
  | none => pure (.error (.notFound ("Job " ++ jobId ++ " not found or already running")))
  | some job => pure (.ok ⟨200,.job job⟩)

def JobStatsHandler (jobType : Option JsonValue) : Handler := do
  let counts ← await (.countByStatus jobType)
  pure (.ok ⟨200,.counts counts⟩)

def Route.handler : Route → Handler
  | .createJob body => CreateJobHandler body
  | .getJob jobId => GetJobHandler jobId
  | .listJobs user query => ListJobsHandler user query
  | .cancelJob jobId user => CancelJobHandler jobId user
  | .jobStats jobType => JobStatsHandler jobType

/-- `asyncHandler` hands what the handler throws to the error handler. -/
def asyncHandler (env : Env) (handler : Handler) : Async Unit := do
  let response ← try
      match ← handler with
      | .ok response => pure response
      | .error error => pure (errorHandler env (.app error))
    catch e => pure (errorHandler env (.thrown e))
  await (.respond response)

def external : JobScheduler.Request → Bool
  | .enqueue _ | .cancel _ _ => true
  | _ => false

/-- What else goes on in the service goes on beside the interface. -/
inductive Request where
  | http (request : HttpRequest)
  | background (request : JobScheduler.Request) (own : external request = false)

def program (env : Env) : Request → Async Unit
  | .http request =>
    match app env request with
    | .error response => await (.respond response)
    | .ok route => asyncHandler env route.handler
  | .background request _ => serve (System.program request)

def machine (env : Env) : Machine (signature.extend own) Thrown World Oracle Request StoreEvent where
  perform
    | .inl op, ω, w => JobScheduler.perform op ω w
    | .inr op, ω, w => (op.perform env ω w,w)
  starts
    | .inl (.dispatch instanceId jobIds _) =>
      jobIds.map fun jobId => .background (.run instanceId jobId) rfl
    | _ => []
  program := program env
  environment := System.environment
  crashed := System.machine.crashed

abbrev ServerState := State (signature.extend own) Thrown World Request
abbrev ServerLabel := Label Oracle Request StoreEvent
abbrev ServerCall := Call (signature.extend own) Thrown Request

end JobScheduler.Http
