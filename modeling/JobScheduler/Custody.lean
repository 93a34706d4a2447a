import JobScheduler.Effects
import JobScheduler.ExecutePhase

/-! Custody of pending jobs. While no store call fails, a pending job is queued, or a
call in progress is about to queue or claim it; this module follows each call through
the operations that hand a job over. -/
namespace JobScheduler

open JobRepository

/-- What a call holds between two operations: a new document that is not queued yet,
ids read or removed from a queue, an id or a copy to claim, a cancelled id. -/
inductive Custody where
  | idle
  | adding (jobType : JobType) (jobId : String)
  | popping (key : String) (jobIds : List String)
  | popped (jobIds : List String)
  | reading (jobId : String)
  | claiming (jobId : String) (version : Nat)
  | removing (jobId : String)

namespace Custody

/-- The job that a call holds. A copy holds it only while it can still be claimed. -/
def holds : Custody → IJob → Bool
  | .adding jobType jobId, job => jobId = job.jobId && jobType = job.jobType
  | .popped jobIds, job => job.jobId ∈ jobIds
  | .reading jobId, job => jobId = job.jobId
  | .claiming jobId version, job => jobId = job.jobId && version = job.version
  | _, _ => false

def allowed : Custody → Op → Prop
  | .idle, .zrem _ _ => False
  | .idle, _ => True
  | .adding jobType jobId, .zaddNX key _ member => key = queueKeyMap jobType ∧ member = jobId
  | .popping key jobIds, .zrem other removed => other = key ∧ removed = jobIds
  | .popped jobIds, .dispatch _ dispatched _ => dispatched = jobIds
  | .reading jobId, .findByJobId read => read = jobId
  | .claiming _ _, .dateNow => True
  | .claiming jobId version, .job (.claimJob target expected _) =>
    target = jobId ∧ expected = version
  | .removing jobId, .zrem _ removed => removed = [jobId]
  | _, _ => False

/-- Outside the idle state only replies without an error are followed. -/
def answers : Custody → (op : Op) → Except Thrown op.Reply → Prop
  | .idle, _, _ => True
  | _, _, reply => ∃ value, reply = .ok value

def next : Custody → (op : Op) → Except Thrown op.Reply → Custody
  | .idle, .job (.createJob input), .ok _ => .adding input.jobType input.jobId
  | .idle, .job (.cancelJob jobId), .ok (some _) => .removing jobId
  | .idle, .zrangebyscore key _ _ _ _, .ok (some (jobId :: jobIds)) => .popping key (jobId :: jobIds)
  | .popping _ jobIds, _, _ => .popped jobIds
  | .reading _, .findByJobId _, .ok (some job) => .claiming job.jobId job.version
  | .claiming jobId version, .dateNow, _ => .claiming jobId version
  | _, _, _ => .idle

def monitor : Program.Monitor signature Thrown Custody where
  allowed := allowed
  answers := answers
  next := next

@[simp] theorem monitor_allowed : monitor.allowed = allowed := rfl
@[simp] theorem monitor_answers : monitor.answers = answers := rfl
@[simp] theorem monitor_next : monitor.next = next := rfl

section Inversion

variable {held : Custody} {op : Op} {jobId : String}

theorem allowed_adding {jobType : JobType} (may : allowed (.adding jobType jobId) op) :
    ∃ score, op = .zaddNX (queueKeyMap jobType) score jobId := by
  cases op with
  | zaddNX key score member =>
    obtain ⟨rfl,rfl⟩ := may
    exact ⟨score,rfl⟩
  | _ => exact False.elim may

theorem allowed_popped {jobIds : List String} (may : allowed (.popped jobIds) op) :
    ∃ instanceId jobType, op = .dispatch instanceId jobIds jobType := by
  cases op with
  | dispatch instanceId dispatched jobType =>
    obtain rfl : dispatched = jobIds := may
    exact ⟨instanceId,jobType,rfl⟩
  | _ => exact False.elim may

theorem allowed_reading (may : allowed (.reading jobId) op) : op = .findByJobId jobId := by
  cases op with
  | findByJobId read => exact congrArg Op.findByJobId may
  | _ => exact False.elim may

theorem allowed_claiming {version : Nat} (may : allowed (.claiming jobId version) op) :
    op = .dateNow ∨ ∃ now, op = .job (.claimJob jobId version now) := by
  cases op with
  | dateNow => exact .inl rfl
  | job write =>
    cases write with
    | claimJob target expected now =>
      obtain ⟨rfl,rfl⟩ := may
      exact .inr ⟨now,rfl⟩
    | _ => exact False.elim may
  | _ => exact False.elim may

theorem allowed_zrem {key : String} {removed : List String} (may : allowed held (.zrem key removed)) :
    held = .popping key removed ∨ ∃ jobId, held = .removing jobId ∧ removed = [jobId] := by
  cases held with
  | popping other jobIds =>
    obtain ⟨rfl,rfl⟩ := may
    exact .inl rfl
  | removing jobId => exact .inr ⟨jobId,rfl,may⟩
  | _ => exact False.elim may

theorem allowed_write {write : JobWrite} (may : allowed held (.job write)) :
    held = .idle ∨ ∃ jobId version now, held = .claiming jobId version ∧
      write = .claimJob jobId version now := by
  cases held with
  | idle => exact .inl rfl
  | claiming jobId version =>
    rcases allowed_claiming may with impossible | ⟨now,same⟩
    · cases impossible
    · exact .inr ⟨jobId,version,now,rfl,Op.job.inj same⟩
  | _ => exact False.elim may

theorem write_holds {write : JobWrite} {job : IJob} (may : allowed held (.job write))
    (holds : held.holds job = true) : ∃ now, write = .claimJob job.jobId job.version now := by
  rcases allowed_write may with rfl | ⟨jobId,version,now,rfl,rfl⟩
  · cases holds
  · obtain ⟨rfl,rfl⟩ : jobId = job.jobId ∧ version = job.version := by
      simpa [Custody.holds] using holds
    exact ⟨now,rfl⟩

theorem next_removing {reply : Except Thrown op.Reply} (removes : next held op reply = .removing jobId) :
    held = .idle ∧ op = .job (.cancelJob jobId) := by
  unfold next at removes
  split at removes <;> cases removes
  exact ⟨rfl,rfl⟩

end Inversion

/-- A call ends with nothing in its hands. -/
abbrev Meets (custody : Custody) (program : Async α) : Prop :=
  Program.wp monitor (fun custody _ => custody = .idle) program custody

def handsFree : Op → Bool
  | .job (.createJob _) | .job (.cancelJob _) | .zrangebyscore _ _ _ _ _ | .zrem _ _ => false
  | _ => true

theorem next_handsFree {op : Op} (free : handsFree op = true) (reply : Except Thrown op.Reply) :
    next .idle op reply = .idle := by
  cases op with
  | job write => cases write <;> first | rfl | cases free
  | zrangebyscore => cases free
  | _ => rfl

theorem allowed_handsFree {op : Op} (free : handsFree op = true) : allowed .idle op := by
  cases op with
  | zrem => cases free
  | _ => trivial

theorem meets_within {ops : Op → Bool} {program : Async α} (within : Within ops program)
    (free : ∀ op, ops op = true → handsFree op = true) : Meets .idle program :=
  Program.Uses.wp within (fun op listed => allowed_handsFree (free op listed))
    (fun op reply listed => next_handsFree (free op listed) reply) fun _ => rfl

theorem meets_runClaimed (instanceId : String) (job : IJob) :
    Meets .idle (JobExecutor.runClaimed bootstrapHandlers instanceId job) := by
  refine meets_within (Within.runClaimed instanceId job) ?_
  intro op listed
  cases op with
  | job write => cases write <;> first | rfl | cases listed
  | _ => first | rfl | cases listed

section Handovers

attribute [local simp] allowed answers next Program.forall_except Program.perform await dateNow
  publishToExchange RedisJobQueue.enqueue RedisJobQueue.remove JobRepository.createJobCall
  JobRepository.cancelJobCall JobRepository.claimJobCall JobRepository.findByJobIdCall

theorem meets_enqueue (request : CreateJobRequest) :
    Meets .idle (System.program (.enqueue request)) := by
  simp only [System.program,JobService.enqueue,Meets,Program.wp_bind]
  split
  · simp
  · rename_i definition known
    simp only [Program.wp_bind]
    apply Within.wp_idempotencyKeyFn known _ trivial fun _ => rfl
    rintro (e | jobId)
    · rfl
    · simp

theorem meets_cancel (jobId cancelledBy : String) :
    Meets .idle (System.program (.cancel jobId cancelledBy)) := by
  simp only [System.program,JobService.cancel,Meets,Program.wp_bind]
  simp only [JobRepository.cancelJobCall,await,Program.perform,Program.wp_await,
    Program.forall_except,Program.wp_settled,Program.thenPost_ok,Program.thenPost_error]
  refine ⟨trivial,fun _ _ => rfl,?_⟩
  rintro (_ | job) _
  · simp
  · simp

theorem meets_execute (instanceId : String) (job : IJob) :
    Meets (.claiming job.jobId job.version)
      (JobExecutor.execute bootstrapHandlers instanceId job) := by
  simp only [JobExecutor.execute,Meets,Program.wp_bind]
  simp
  rintro now (_ | own)
  · simp
  · exact meets_runClaimed instanceId own

theorem meets_run (instanceId jobId : String) :
    Meets (.reading jobId) (Worker.run instanceId jobId) := by
  simp only [Worker.run,Meets,Program.wp_bind]
  simp
  rintro (_ | job)
  · simp
  · exact meets_execute instanceId job

theorem meets_pollQueues (instanceId : String) (nowMs : Int) (jobTypes : List JobType)
    (slots : Nat) : Meets .idle (PollLoop.pollQueues instanceId nowMs jobTypes slots) := by
  induction jobTypes generalizing slots with
  | nil => rfl
  | cons jobType rest ih =>
    unfold PollLoop.pollQueues
    split
    · rfl
    · simp only [Meets,Program.wp_bind,Program.wp_tryCatch,RedisJobQueue.dequeue]
      simp
      refine ⟨fun _ => ih slots,?_⟩
      rintro (_ | (_ | ⟨first,others⟩))
      · simp [ih]
      · simp [ih]
      · simp [ih]

theorem meets_tick (instanceId : String) (activeJobs : Nat) :
    Meets .idle (PollLoop.tick instanceId activeJobs) := by
  unfold PollLoop.tick
  dsimp only
  split
  · rfl
  · simp [Meets,meets_pollQueues]

/-- Where a request begins: a delivered id or copy is in custody from the start. -/
def start : Request → Custody
  | .run _ jobId => .reading jobId
  | .execute _ job => .claiming job.jobId job.version
  | _ => .idle

theorem meets_program (request : Request) : Meets (start request) (System.program request) := by
  cases request with
  | enqueue request => exact meets_enqueue request
  | cancel jobId cancelledBy => exact meets_cancel jobId cancelledBy
  | tick instanceId activeJobs => exact meets_tick instanceId activeJobs
  | run instanceId jobId => exact meets_run instanceId jobId
  | execute instanceId job => exact meets_execute instanceId job
  | _ =>
    apply meets_within (Within.program _)
    intro op listed
    cases op with
    | job write => cases write <;> first | rfl | cases listed
    | _ => first | rfl | cases listed

end Handovers

end Custody

def custody : Protocol System.machine Custody where
  monitor := Custody.monitor
  start := Custody.start
  post held _ := held = .idle
  meets := Custody.meets_program

@[simp] theorem custody_accept (request : Request) :
    custody.phase (System.machine.accept request) = Custody.start request := rfl

@[simp] theorem custody_advance (call : SystemCall) (op : Op)
    (rest : Except Thrown op.Reply → Async Unit) (reply : Except Thrown op.Reply) :
    custody.phase (call.advance op rest reply) = Custody.next (custody.phase call) op reply := rfl

end JobScheduler
