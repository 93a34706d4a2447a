import JobScheduler.Acknowledgement
import JobScheduler.Http

/-! The interface before the service. Whatever is sent to it, a run of the server is a run of
the service: a request that reaches the service stands for one of its requests, every other
one for a tick that finds no free slot. So what the service has confirmed to a handler lasts,
and with it what the handler has confirmed to its client. -/
namespace JobScheduler.Http

open Program

/-- A tick that finds no free slot. -/
def idle : JobScheduler.Request := .tick "" maxConcurrentJobs

def Route.behalf : Route → JobScheduler.Request
  | .createJob (some body) => .enqueue body
  | .cancelJob jobId user => .cancel jobId user.userId
  | _ => idle

def behalf (env : Env) : Request → JobScheduler.Request
  | .http request =>
    match app env request with
    | .error _ => idle
    | .ok route => route.behalf
  | .background request _ => request

section Covers

variable {env : Env}

theorem apart_pure (value : α) : Apart (pure value : Async α) := apart_settled (.ok value)

theorem apart_respond (response : Response) : Apart (await (.respond response)) :=
  apart_own fun reply => apart_settled reply

theorem apart_match (result : Except AppError Response) :
    Apart (match result with
      | .ok response => pure response
      | .error error => pure (errorHandler env (.app error)) : Async Response) := by
  cases result <;> exact apart_pure _

/-- An error handler and a response ask nothing of the service. -/
theorem covers_asyncHandler {handler : Handler} {inner : JobScheduler.Async Unit}
    (covers : Covers handler inner) : Covers (asyncHandler env handler) inner :=
  covers_bind (covers_tryCatch (covers_bind covers apart_match) fun _ => apart_pure _) apart_respond

theorem covers_idle {outer : Async α} (apart : Apart outer) : Covers outer (System.program idle) :=
  apart (.ok ())

theorem covers_handler (route : Route) : Covers route.handler (System.program route.behalf) := by
  cases route with
  | createJob body =>
    cases body with
    | none => exact covers_idle (apart_settled _)
    | some body => exact covers_bind (covers_lift (JobService.enqueue body)).discard fun job => apart_pure _
  | cancelJob jobId user =>
    refine covers_bind (covers_lift (JobService.cancel jobId user.userId)).discard fun found => ?_
    cases found <;> exact apart_pure _
  | getJob jobId =>
    refine covers_idle (apart_own fun reply => ?_)
    rcases reply with e | _ | job
    · exact apart_settled _
    all_goals exact apart_pure _
  | listJobs user query =>
    refine covers_idle (apart_own fun reply => ?_)
    cases reply with
    | error e => exact apart_settled _
    | ok result => exact apart_pure _
  | jobStats jobType =>
    refine covers_idle (apart_own fun reply => ?_)
    cases reply with
    | error e => exact apart_settled _
    | ok counts => exact apart_pure _

theorem covers_program (request : Request) :
    Covers (program env request) (System.program (behalf env request)) := by
  cases request with
  | http request =>
    simp only [program,behalf]
    cases app env request with
    | error response => exact covers_idle (apart_respond response)
    | ok route => exact covers_asyncHandler (covers_handler route)
  | background request own => exact covers_lift (System.program request)

end Covers

def front (env : Env) : Front (machine env) System.machine where
  behalf := behalf env
  performs _ _ _ := rfl
  reads _ _ _ := rfl
  starts op := by
    cases op with
    | dispatch instanceId jobIds jobType => exact List.map_map
    | _ => rfl
  startsOwn _ := rfl
  environment := rfl
  covers := covers_program

end JobScheduler.Http
