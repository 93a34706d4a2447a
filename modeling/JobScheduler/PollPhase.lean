import JobScheduler.ExecutePhase
import JobScheduler.Lineage

/-! The way of a job id from the queue to its claim as a protocol: a tick reads the time of
Redis, reads due ids, removes and dispatches them, and a run claims the job of its id. -/
namespace JobScheduler

/-- `seeking` is a run whose claim is still ahead, `sought` one that has made it. -/
inductive PollPhase where
  | outside
  | unread
  | polling (nowMs : Int)
  | holding (nowMs : Int) (jobIds : List String)
  | seeking (jobId : String)
  | sought

namespace PollPhase

def tickOnly : Op → Bool
  | .redisTime | .zrangebyscore _ _ _ _ _ | .dispatch _ _ _ => true
  | _ => false

def allowed : PollPhase → Op → Prop
  | .outside, op => tickOnly op = false
  | .unread, .redisTime => True
  | .polling _, .dateNow => True
  | .polling nowMs, .zrangebyscore key _ high _ _ =>
    (∃ jobType, key = queueKeyMap jobType) ∧ high = nowMs
  | .holding _ _, .zrem _ _ => True
  | .holding _ jobIds, .dispatch _ dispatched _ => dispatched = jobIds
  | .seeking jobId, .findByJobId read => read = jobId
  | .seeking _, .dateNow => True
  | .seeking jobId, .job (.claimJob target _ _) => target = jobId
  | .sought, .job (.claimJob _ _ _) => False
  | .sought, op => tickOnly op = false
  | _, _ => False

def answers : PollPhase → (op : Op) → Except Thrown op.Reply → Prop
  | .seeking jobId, .findByJobId _, .ok (some job) => job.jobId = jobId
  | _, _, _ => True

def next : PollPhase → (op : Op) → Except Thrown op.Reply → PollPhase
  | .unread, .redisTime, .ok nowMs => .polling nowMs
  | .polling nowMs, .zrangebyscore _ _ _ _ _, .ok results =>
    match results.getD [] with
    | [] => .polling nowMs
    | jobIds => .holding nowMs jobIds
  | .holding nowMs _, .zrem _ _, .error _ => .polling nowMs
  | .holding nowMs _, .dispatch _ _ _, _ => .polling nowMs
  | .seeking _, .job (.claimJob _ _ _), _ => .sought
  | phase, _, _ => phase

def monitor : Program.Monitor signature Thrown PollPhase where
  allowed := allowed
  answers := answers
  next := next

@[simp] theorem monitor_allowed : monitor.allowed = allowed := rfl
@[simp] theorem monitor_answers : monitor.answers = answers := rfl
@[simp] theorem monitor_next : monitor.next = next := rfl

theorem next_outside (op : Op) (reply : Except Thrown op.Reply) : next .outside op reply = .outside := by
  unfold next
  split <;> first | rfl | contradiction

theorem next_sought (op : Op) (reply : Except Thrown op.Reply) : next .sought op reply = .sought := by
  unfold next
  split <;> first | rfl | contradiction

abbrev Meets (phase : PollPhase) (program : Async α) : Prop :=
  Program.wp monitor (fun _ _ => True) program phase

theorem meets_outside {ops : Op → Bool} {program : Async α} (within : Within ops program)
    (other : ∀ op, ops op = true → tickOnly op = false) : Meets .outside program :=
  Program.Uses.wp within (fun op listed => other op listed) (fun op reply _ => next_outside op reply)
    fun _ => trivial

theorem meets_sought {ops : Op → Bool} {program : Async α} (within : Within ops program)
    (other : ∀ op, ops op = true → allowed .sought op) : Meets .sought program :=
  Program.Uses.wp within (fun op listed => other op listed) (fun op reply _ => next_sought op reply)
    fun _ => trivial

theorem meets_runClaimed (instanceId : String) (job : IJob) :
    Meets .sought (JobExecutor.runClaimed bootstrapHandlers instanceId job) := by
  refine meets_sought (Within.runClaimed instanceId job) ?_
  intro op listed
  cases op with
  | job write => cases write <;> first | rfl | cases listed
  | _ => first | rfl | cases listed

section Ticks

attribute [local simp] allowed answers next tickOnly Program.forall_except Program.perform await dateNow
  JobRepository.claimJobCall JobRepository.findByJobIdCall

theorem meets_execute (instanceId : String) (job : IJob) :
    Meets (.seeking job.jobId) (JobExecutor.execute bootstrapHandlers instanceId job) := by
  simp only [JobExecutor.execute,Meets,Program.wp_bind]
  simp
  rintro now (_ | own)
  · simp
  · exact meets_runClaimed instanceId own

theorem meets_run (instanceId jobId : String) :
    Meets (.seeking jobId) (Worker.run instanceId jobId) := by
  simp only [Worker.run,Meets,Program.wp_bind]
  simp
  rintro (_ | job)
  · simp
  · intro same
    rw [← same]
    exact meets_execute instanceId job

theorem meets_pollQueues (instanceId : String) (nowMs : Int) (jobTypes : List JobType)
    (slots : Nat) : Meets (.polling nowMs) (PollLoop.pollQueues instanceId nowMs jobTypes slots) := by
  induction jobTypes generalizing slots with
  | nil => trivial
  | cons jobType rest ih =>
    unfold PollLoop.pollQueues
    split
    · trivial
    · simp only [Meets,Program.wp_bind,Program.wp_tryCatch,RedisJobQueue.dequeue]
      simp
      refine ⟨fun _ => ih slots,?_⟩
      rintro (_ | (_ | ⟨first,others⟩))
      · simp [ih]
      · simp [ih]
      · simp [ih]

theorem meets_tick (instanceId : String) (activeJobs : Nat) :
    Meets .unread (PollLoop.tick instanceId activeJobs) := by
  unfold PollLoop.tick
  dsimp only
  split
  · trivial
  · simp [Meets,meets_pollQueues]

end Ticks

def start : Request → PollPhase
  | .tick _ _ => .unread
  | .run _ jobId => .seeking jobId
  | _ => .outside

theorem meets_program (request : Request) : Meets (start request) (System.program request) := by
  cases request with
  | tick instanceId activeJobs => exact meets_tick instanceId activeJobs
  | run instanceId jobId => exact meets_run instanceId jobId
  | _ =>
    refine meets_outside (Within.program _) ?_
    intro op listed
    cases op <;> first | rfl | cases listed

end PollPhase

def polls : Protocol System.machine PollPhase where
  monitor := PollPhase.monitor
  start := PollPhase.start
  post _ _ := True
  meets := PollPhase.meets_program

@[simp] theorem polls_accept (request : Request) :
    polls.phase (System.machine.accept request) = PollPhase.start request := rfl

@[simp] theorem polls_advance (call : SystemCall) (op : Op)
    (rest : Except Thrown op.Reply → Async Unit) (reply : Except Thrown op.Reply) :
    polls.phase (call.advance op rest reply) = PollPhase.next (polls.phase call) op reply := rfl

end JobScheduler
