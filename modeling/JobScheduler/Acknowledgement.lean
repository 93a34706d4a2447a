import JobScheduler.Cancellation
import JobScheduler.Provenance
import JobScheduler.Transcript

/-! Acknowledged submissions and cancellations. When `enqueue` returns, the two stores and the
channel of the broker have confirmed what it asked, one after the other and in no transaction. From
then on the document stays until it is deleted, and its id waits in the queue until a call takes it
off; what the broker makes of the message is not confirmed. When `cancelJob` has returned a document, it stays as it is. -/
namespace JobScheduler

open JobRepository

def Op.takes (key jobId : String) (ω : Oracle) : Op → Bool
  | .zrem other removed => other = key && jobId ∈ removed && ω.delivery.applies
  | _ => false

namespace World

/-- The job is stored, as the job that it was. -/
def remembers (w : World) (job : IJob) : Prop :=
  ∃ stored ∈ w.jobs.lookup job.jobId, stored.identity = job.identity

/-- It is stored for good, dead, and has not been claimed again. -/
def rests (w : World) (job : IJob) : Prop :=
  ∃ stored ∈ w.jobs.lookup job.jobId, stored.identity = job.identity ∧
    stored.attempts = job.attempts ∧ stored.status = .dead ∧ stored.expiresAt = none

end World

def removes (key jobId : String) (s : SystemState) : SystemLabel → Bool
  | .resume index ω => (s.awaits index).any fun op => op.takes key jobId ω
  | _ => false

section Kept

variable {job : IJob} {key jobId : String} {w : World}

theorem remembers_perform (op : Op) (ω : Oracle) (remembers : w.remembers job) :
    (perform op ω w).2.remembers job := by
  obtain ⟨stored,found,same⟩ := remembers
  rw [World.remembers,perform_lookup,Option.mem_def.mp found]
  cases op with
  | job write =>
    simp only [Op.update]
    split
    · simp only [JobWrite.update]
      split
      · exact ⟨_,rfl,(change_identity write stored).trans same⟩
      · exact ⟨stored,rfl,same⟩
    · exact ⟨stored,rfl,same⟩
  | _ => exact ⟨stored,rfl,same⟩

theorem remembers_environment (event : StoreEvent)
    (kept : (w.jobs.lookup job.jobId).any (fun stored =>
      outlives stored (.environment event : SystemLabel)) = false)
    (remembers : w.remembers job) : (System.environment event w).remembers job := by
  obtain ⟨stored,found,same⟩ := remembers
  cases event with
  | giveUp index => exact ⟨stored,found,same⟩
  | expireJobs now =>
    rw [Option.mem_def.mp found] at kept
    have spared : stored.expiresAt.any (· ≤ now) = false := kept
    refine ⟨stored,?_,same⟩
    change (expire w.jobs now).lookup job.jobId = some stored
    rw [expire,Collection.lookup_deleteMany,Option.mem_def.mp found]
    simp [spared]

theorem waits_perform {op : Op} {ω : Oracle} (spared : op.takes key jobId ω = false)
    (waits : jobId ∈ (w.sortedSets key).members) :
    jobId ∈ ((perform op ω w).2.sortedSets key).members := by
  rw [perform_sortedSets]
  rcases requeue_keeps op ω key waits with still | ⟨removed,rfl,applies,listed⟩
  · exact still
  · simp [Op.takes,applies,listed] at spared

theorem waits_environment (event : StoreEvent) (waits : jobId ∈ (w.sortedSets key).members) :
    jobId ∈ ((System.environment event w).sortedSets key).members := by
  cases event <;> exact waits

variable {s : SystemState} {label : SystemLabel}

/-- Nothing but `markDead` selects a dead document, and it leaves it dead. -/
theorem rests_step (label : SystemLabel) (rests : s.world.rests job) :
    (System.machine.step s label).world.rests job := by
  obtain ⟨stored,found,same,attempts,dead,eternal⟩ := rests
  have moves := System.document_moves s label job.jobId
  rw [Option.mem_def.mp found] at moves
  rw [World.rests]
  generalize (System.machine.step s label).world.jobs.lookup job.jobId = after at moves
  cases moves with
  | kept => exact ⟨stored,rfl,same,attempts,dead,eternal⟩
  | changed write _ is selected =>
    by_cases kills : ∃ target version, write = .markDead target version
    · obtain ⟨target,version,rfl⟩ := kills
      exact ⟨_,rfl,(change_identity _ stored).trans same,attempts,rfl,eternal⟩
    · have guarded := guarded_change selected fun target version is => kills ⟨target,version,is⟩
      rw [dead] at guarded
      rcases guarded.1 with is | is <;> cases is
  | expired _ _ gone =>
    have due : outlives stored label = true := gone
    cases label with
    | environment event =>
      cases event with
      | expireJobs now => simp [outlives,eternal] at due
      | giveUp index => cases due
    | _ => cases due

end Kept

theorem createJob_key {input : EnqueueJobInput} {ω : Oracle} {w : World} {job : IJob}
    (replied : (perform (.job (.createJob input)) ω w).1 = .ok job) : job.jobId = input.jobId := by
  obtain ⟨_,answer⟩ := deliver_ok replied
  rw [← Except.ok.inj answer]
  exact createJob_jobId w.jobs input

theorem zaddNX_waits {key : String} {score : Int} {jobId : String} {ω : Oracle} {w : World}
    {added : Nat}
    (replied : (perform (.zaddNX key score jobId) ω w).1 = .ok added) :
    jobId ∈ ((perform (.zaddNX key score jobId) ω w).2.sortedSets key).members := by
  obtain ⟨performed,_⟩ := deliver_ok replied
  rw [perform_sortedSets]
  simp [Op.requeue,performed,Delivery.applies,SortedSet.mem_members_zaddNX]

/-- A document that a cancellation returns was pending, and so had no expiry. -/
theorem cancelJob_rests {jobId : String} {ω : Oracle} {w : World} {job : IJob}
    (unexpiring : ∀ jobId, Unexpiring (w.jobs.lookup jobId))
    (replied : (perform (.job (.cancelJob jobId)) ω w).1 = .ok (some job)) :
    job.jobId = jobId ∧ (perform (.job (.cancelJob jobId)) ω w).2.rests job := by
  obtain ⟨stored,dead⟩ := cancelJob_replies replied
  have key : job.jobId = jobId := Collection.lookup_key stored
  obtain ⟨_,answer⟩ := deliver_ok replied
  have answered : ((w.jobs.lookup jobId).filter isPending).map cancelled = some job :=
    (Collection.findOneAndUpdate_fst jobId isPending cancelled fun _ => rfl).symm.trans
      (Except.ok.inj answer)
  obtain ⟨before,matched,rfl⟩ := Option.map_eq_some_iff.mp answered
  obtain ⟨found,pending⟩ := Option.filter_eq_some_iff.mp matched
  refine ⟨key,cancelled before,?_,rfl,rfl,dead,?_⟩
  · rw [key]
    exact stored
  · exact unexpiring jobId before found (.inl (of_decide_eq_true pending))

def Receipt : Exchange signature Thrown → SystemState → Prop
  | ⟨.job (.cancelJob jobId),.ok (some job)⟩, s => job.jobId = jobId ∧ s.world.rests job
  | _, _ => True

/-- A receipt is valid when it is given, as open documents carry no expiry, and stays valid. -/
theorem receipt_vouches : System.machine.Vouches
    (fun s _ => ∀ jobId, Unexpiring (s.world.jobs.lookup jobId)) Receipt where
  given s index ω call op rest unexpiring _ _ := by
    unfold Receipt
    split
    · rename_i jobId job same
      obtain ⟨rfl,replied⟩ := Exchange.mk.inj same
      exact cancelJob_rests unexpiring (eq_of_heq replied)
    · trivial
  keeps s label exchange _ receipt := by
    unfold Receipt at receipt ⊢
    split at receipt
    · exact ⟨receipt.1,rests_step label receipt.2⟩
    · trivial

variable {labels : List SystemLabel} {t : SystemState}

theorem receipts_reached (reached : System.machine.Reached (initial World.empty) labels t) :
    Machine.Vouched Receipt t := by
  refine Machine.vouched_reached receipt_vouches ?_ reached
  refine Machine.along_invariant (fun s : SystemState => ∀ jobId, Unexpiring (s.world.jobs.lookup jobId))
    ?_ (fun s label _ unexpiring => unexpiring) (Machine.along_forall fun _ _ => trivial) fun jobId => ?_
  · intro s label _ unexpiring jobId
    exact moves_unexpiring (System.document_moves s label jobId) (unexpiring jobId)
  · rintro _ ⟨⟩

/-- The replies that a submission has had when it returns. -/
structure Receipts (request : CreateJobRequest) (input : EnqueueJobInput) (job : IJob)
    (history : List (Exchange signature Thrown)) : Prop where
  computed : ∃ uuid, JobService.submitted request uuid = some input
  created : ⟨.job (.createJob input),.ok job⟩ ∈ history
  added : ∃ added, ⟨.zaddNX (queueKeyMap request.jobType) request.scheduledAt input.jobId,.ok added⟩ ∈
    history
  announced : ⟨.publish .jobScheduled (.scheduled job.jobId job.jobType job.tenantId job.scheduledAt
    job.nextRunAt job.priority),.ok ()⟩ ∈ history

def Cancelled (jobId : String) (job : IJob) (history : List (Exchange signature Thrown)) : Prop :=
  ⟨.job (.cancelJob jobId),.ok (some job)⟩ ∈ history

/-- The error was the reply to something that was asked. -/
def Refused (history : List (Exchange signature Thrown)) (e : Thrown) : Prop :=
  ∃ op, ⟨op,.error e⟩ ∈ history

def CreateJobRequest.keyless (request : CreateJobRequest) : Prop :=
  request.ownType = true ∧ request.payload.key request.jobType = none

/-- What a submission returns or throws is shown by what it has been told. -/
def EnqueueShows (request : CreateJobRequest) (history : List (Exchange signature Thrown)) :
    Except Thrown IJob → Prop
  | .ok job => ∃ input, Receipts request input job history
  | .error e => Refused history e ∨ request.keyless ∧ e = typeError

def CancelShows (jobId : String) (history : List (Exchange signature Thrown)) :
    Except Thrown (Option IJob) → Prop
  | .ok found => ⟨.job (.cancelJob jobId),.ok found⟩ ∈ history
  | .error e => Refused history e

/-- An enqueue that returns shows its receipts; of other calls nothing is asked. -/
def ShowsSubmission : Request → List (Exchange signature Thrown) → Except Thrown Unit → Prop
  | .enqueue request, history, .ok _ => ∃ input job, Receipts request input job history
  | _, _, _ => True

section Programs

attribute [local simp] Program.forall_except Program.perform await publishToExchange
  RedisJobQueue.enqueue JobRepository.createJobCall

theorem refused_last (op : Op) (e : Thrown) (history : List (Exchange signature Thrown)) :
    Refused (⟨op,.error e⟩ :: history) e := ⟨op,List.mem_cons_self⟩

theorem shows_submit {request : CreateJobRequest} {definition : JobDefinition} {jobId : String}
    (uuid : String)
    (submitted : JobService.submitted request uuid = some (JobService.input definition request jobId))
    (history : List (Exchange signature Thrown)) :
    Program.Shows (fun _ _ => True) (EnqueueShows request) history
      (JobService.submit definition request jobId) := by
  simp [JobService.submit,EnqueueShows]
  refine ⟨fun e => .inl (refused_last ..),fun job => ⟨fun e => .inl (refused_last ..),fun added =>
    ⟨fun e => .inl (refused_last ..),fun _ => ⟨_,⟨uuid,submitted⟩,?_,⟨added,?_⟩,?_⟩⟩⟩⟩
  all_goals simp [JobService.input]

theorem shows_enqueue (request : CreateJobRequest) :
    Program.Shows (fun _ _ => True) (EnqueueShows request) [] (JobService.enqueue request) := by
  obtain ⟨definition,known⟩ := JobService.known request
  rw [JobService.enqueue_eq known]
  cases own : request.ownType with
  | false =>
    simp only [if_true,Program.Shows,Program.wp_bind]
    refine ⟨trivial,?_⟩
    rintro (e | uuid) _
    · exact .inl (refused_last ..)
    · refine shows_submit uuid ?_ _
      simp [JobService.submitted_eq known,own]
  | true =>
    simp only [Bool.true_eq_false,if_false]
    cases keyed : request.payload.key request.jobType with
    | none => exact .inr ⟨⟨own,keyed⟩,rfl⟩
    | some jobId =>
      refine shows_submit "" ?_ _
      simp [JobService.submitted_eq known,own,keyed]

theorem shows_cancel (jobId cancelledBy : String) :
    Program.Shows (fun _ _ => True) (CancelShows jobId) [] (JobService.cancel jobId cancelledBy) := by
  refine (Program.wp_bind ..).mpr ⟨trivial,?_⟩
  rintro (e | found) _
  · exact refused_last ..
  · cases found with
    | none => exact List.mem_cons_self
    | some job =>
      simp [RedisJobQueue.remove,dateNow,CancelShows]
      exact ⟨fun e => refused_last ..,fun _ => ⟨fun e => refused_last ..,fun _ e => refused_last ..⟩⟩

end Programs

theorem shows_program (request : Request) :
    Program.Shows (fun _ _ => True) (ShowsSubmission request) [] (System.program request) := by
  cases request with
  | enqueue request =>
    refine (Program.wp_bind ..).mpr (Program.wp_mono (shows_enqueue request) ?_)
    rintro history (e | job) submitted
    · trivial
    · obtain ⟨input,receipts⟩ := submitted
      exact ⟨input,job,receipts⟩
  | _ => exact Program.shows_of_forall (fun _ _ => trivial) fun _ _ => trivial

/-- What an acknowledgement says of the later states of a run. -/
structure Acknowledged (labels : List SystemLabel) (index : Nat) (call : SystemCall)
    (request : CreateJobRequest) (job : IJob) : Prop where
  computed : ∃ uuid, JobService.jobId request uuid = some job.jobId
  stored : ∃ input, System.machine.Since (initial World.empty) labels index (.job (.createJob input))
    (fun s label => deletes job.jobId s label = false) fun w => w.remembers job
  queued : System.machine.Since (initial World.empty) labels index
    (.zaddNX (queueKeyMap request.jobType) request.scheduledAt job.jobId)
    (fun s label => removes (queueKeyMap request.jobType) job.jobId s label = false)
    fun w => job.jobId ∈ (w.sortedSets (queueKeyMap request.jobType)).members
  handedOver : ⟨.publish .jobScheduled (.scheduled job.jobId job.jobType job.tenantId job.scheduledAt
    job.nextRunAt job.priority),.ok ()⟩ ∈ call.history

def Names : Exchange signature Thrown → Prop
  | ⟨.job (.createJob input),.ok job⟩ => job.jobId = input.jobId
  | _ => True

theorem names_perform (op : Op) (ω : Oracle) (w : World) : Names ⟨op,(perform op ω w).1⟩ := by
  unfold Names
  split
  · rename_i input job same
    obtain ⟨rfl,replied⟩ := Exchange.mk.inj same
    exact createJob_key (eq_of_heq replied)
  · trivial

/-- A reply to `op` ensures this of the stores, and what spares it keeps it. -/
structure Ensures (op : Op) (reply : Except Thrown op.Reply) (spares : Op → Oracle → Prop)
    (survives : StoreEvent → World → Prop) (holds : World → Prop) : Prop where
  given : ∀ ω w, (perform op ω w).1 = reply → holds (perform op ω w).2
  performs : ∀ op ω w, spares op ω → holds w → holds (perform op ω w).2
  moves : ∀ event w, survives event w → holds w → holds (System.environment event w)

theorem creation_ensures (input : EnqueueJobInput) (job : IJob) :
    Ensures (.job (.createJob input)) (.ok job) (fun _ _ => True)
      (fun event w => (w.jobs.lookup job.jobId).any (fun stored =>
        outlives stored (.environment event : SystemLabel)) = false)
      fun w => w.remembers job where
  given _ _ replied := ⟨job,createJob_stores replied,rfl⟩
  performs op ω _ _ remembers := remembers_perform op ω remembers
  moves event _ kept remembers := remembers_environment event kept remembers

theorem addition_ensures (key : String) (score : Int) (jobId : String) (added : Nat) :
    Ensures (.zaddNX key score jobId) (.ok added) (fun op ω => op.takes key jobId ω = false)
      (fun _ _ => True) fun w => jobId ∈ (w.sortedSets key).members where
  given _ _ replied := zaddNX_waits replied
  performs _ _ _ spared waits := waits_perform spared waits
  moves event _ _ waits := waits_environment event waits

section Since

variable {index : Nat} {call : SystemCall}

theorem Ensures.since {op : Op} {reply : Except Thrown op.Reply} {spares : Op → Oracle → Prop}
    {survives : StoreEvent → World → Prop} {holds : World → Prop}
    {condition : SystemState → SystemLabel → Prop} (ensures : Ensures op reply spares survives holds)
    (found : (System.machine.run (initial World.empty) labels).calls[index]? = some call)
    (heard : ⟨op,reply⟩ ∈ call.history)
    (spared : ∀ s index ω op, condition s (.resume index ω) → s.awaits index = some op → spares op ω)
    (survived : ∀ s event, condition s (.environment event) → survives event s.world) :
    System.machine.Since (initial World.empty) labels index op condition holds := by
  refine Machine.since_run found heard ensures.given ?_ ?_
  · exact fun s index ω op may awaits => ensures.performs op ω s.world (spared s index ω op may awaits)
  · exact fun s event may => ensures.moves event s.world (survived s event may)

theorem stored_since (found : (System.machine.run (initial World.empty) labels).calls[index]? = some call)
    {input : EnqueueJobInput} {job : IJob} (created : ⟨.job (.createJob input),.ok job⟩ ∈ call.history) :
    System.machine.Since (initial World.empty) labels index (.job (.createJob input))
      (fun s label => deletes job.jobId s label = false) fun w => w.remembers job :=
  (creation_ensures input job).since found created (fun _ _ _ _ _ _ => trivial) fun _ _ kept => kept

theorem queued_since (found : (System.machine.run (initial World.empty) labels).calls[index]? = some call)
    {key : String} {score : Int} {jobId : String} {added : Nat}
    (addition : ⟨.zaddNX key score jobId,.ok added⟩ ∈ call.history) :
    System.machine.Since (initial World.empty) labels index (.zaddNX key score jobId)
      (fun s label => removes key jobId s label = false) fun w => jobId ∈ (w.sortedSets key).members := by
  refine (addition_ensures key score jobId added).since found addition ?_ fun _ _ _ => trivial
  intro s index ω op spared awaits
  simpa [removes,awaits] using spared

end Since

theorem cancellation_lasts (reached : System.machine.Reached (initial World.empty) labels t)
    {call : SystemCall} (member : call ∈ t.calls) {jobId : String} {job : IJob}
    (cancelled : Cancelled jobId job call.history) : job.jobId = jobId ∧ t.world.rests job :=
  receipts_reached reached call member _ cancelled

/-- In every run, an enqueue that has returned has computed an id for a job. Since the collection
has confirmed it, it holds the job while no document with this id is deleted; since the sorted
set of its type has, the id waits there until a step takes it off; and the broker's channel has
taken the message. -/
theorem acknowledged_submission_lasts (labels : List SystemLabel) (index : Nat) (call : SystemCall)
    (found : (System.machine.run (initial World.empty) labels).calls[index]? = some call)
    (request : CreateJobRequest) (is : call.request = .enqueue request)
    (settled : call.program = .settled (.ok ())) : ∃ job, Acknowledged labels index call request job := by
  have member := List.mem_of_getElem? found
  have reached : System.machine.Reached (initial World.empty) labels
      (System.machine.run (initial World.empty) labels) := ⟨labels,List.prefix_rfl,rfl⟩
  have transcribed := Machine.transcribed_reached shows_program
    (fun request _ => by cases request <;> trivial) reached call member
  have shown : ShowsSubmission call.request call.history (.ok ()) := transcribed.settled settled
  rw [is] at shown
  obtain ⟨input,job,receipts⟩ := shown
  have key : job.jobId = input.jobId :=
    Machine.replies_reached names_perform reached call member _ receipts.created
  obtain ⟨uuid,computed⟩ := receipts.computed
  obtain ⟨added,addition⟩ := receipts.added
  refine ⟨job,⟨uuid,?_⟩,⟨input,stored_since found receipts.created⟩,?_,receipts.announced⟩
  · rw [JobService.jobId,computed,key]
    rfl
  · rw [key]
    exact queued_since found addition

def submittedReport : List SystemLabel := [.submit (.enqueue reportRequest)] ++ drive 0 3 0

theorem submitted_report_lasts : ∃ call job, Acknowledged submittedReport 0 call reportRequest job := by
  have found : ∃ call, (System.machine.run (initial World.empty) submittedReport).calls[0]? = some call ∧
      call.request = .enqueue reportRequest ∧ call.program = .settled (.ok ()) :=
    ⟨_,rfl,rfl,rfl⟩
  obtain ⟨call,found,is,settled⟩ := found
  exact ⟨call,acknowledged_submission_lasts submittedReport 0 call found reportRequest is settled⟩

end JobScheduler
