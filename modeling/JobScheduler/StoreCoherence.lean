import JobScheduler.Submission

/-! The queues and the collection. A job id shows its job type before its first colon, or
was drawn by one enqueue; so all submissions under one id are for one job type, and
whatever is queued has a document of the type of its queue. -/
namespace JobScheduler

open JobRepository

/-- What no write changes. -/
def IJob.identity (job : IJob) :
    String × JobType × String × JobPayload × Int × JobPriority × Nat :=
  (job.jobId,job.jobType,job.tenantId,job.payload,job.scheduledAt,job.priority,job.maxAttempts)

@[simp] theorem change_identity (write : JobWrite) (job : IJob) :
    (write.change job).identity = job.identity := by
  cases write <;> rfl

@[simp] theorem change_jobType (write : JobWrite) (job : IJob) :
    (write.change job).jobType = job.jobType := by
  cases write <;> rfl

/-- Each document is still there, as the job that it was. -/
def KeepsIdentity (before after : World) : Prop :=
  ∀ jobId, ∀ job ∈ before.jobs.lookup jobId, ∃ later ∈ after.jobs.lookup jobId,
    later.identity = job.identity

/-- One document for each id, each id in the queue of one type, and a document of that
type for each queued id. -/
structure World.QueuesCohere (w : World) : Prop where
  unique : (w.jobs.docs.map IJob.jobId).Nodup
  oneQueue : ∀ jobId jobType other, jobId ∈ (w.sortedSets (queueKeyMap jobType)).members →
    jobId ∈ (w.sortedSets (queueKeyMap other)).members → jobType = other
  documented : ∀ jobId jobType, jobId ∈ (w.sortedSets (queueKeyMap jobType)).members →
    ∃ job ∈ w.jobs.lookup jobId, job.jobType = jobType

def draws (s : DemandState) : DemandLabel → Option String
  | .resume index ω =>
    match s.awaits index with
    | some .uuidv4 => some ω.uuid
    | _ => none
  | _ => none

/-- A drawn id has no colon and was not drawn before. -/
def drawsFresh (s : DemandState) (label : DemandLabel) : Bool :=
  (draws s label).all fun uuid => ':' ∉ uuid.toList && s.calls.all fun call => !call.drewId uuid

/-- The TTL monitor deletes nothing, and drawn ids are fresh. -/
def steady (s : DemandState) (label : DemandLabel) : Bool :=
  drawsFresh s label && s.world.jobs.docs.all fun job => !outlives job label

section Draws

variable {s : DemandState} {label : DemandLabel}

theorem draws_eq_some {uuid : String} : draws s label = some uuid ↔
    ∃ index ω, label = .resume index ω ∧ s.awaits index = some .uuidv4 ∧ ω.uuid = uuid := by
  constructor
  · intro drawn
    unfold draws at drawn
    split at drawn
    · rename_i index ω
      split at drawn
      · rename_i awaiting
        exact ⟨index,ω,rfl,awaiting,Option.some.inj drawn⟩
      · cases drawn
    · cases drawn
  · rintro ⟨index,ω,rfl,awaiting,rfl⟩
    simp [draws,awaiting]

theorem fresh_plain {uuid : String} (fresh : drawsFresh s label = true)
    (drawn : draws s label = some uuid) : ':' ∉ uuid.toList := by
  simp only [drawsFresh,drawn,Option.all_some,Bool.and_eq_true,decide_eq_true_eq] at fresh
  exact fresh.1

theorem fresh_new {uuid : String} (fresh : drawsFresh s label = true)
    (drawn : draws s label = some uuid) {call : DemandCall} (member : call ∈ s.calls) :
    call.drewId uuid = false := by
  simp only [drawsFresh,drawn,Option.all_some,Bool.and_eq_true,List.all_eq_true] at fresh
  simpa using fresh.2 call member

theorem drewId_advance {call : DemandCall} {op : Op}
    {rest : Except Thrown op.Reply → Async Unit} {reply : Except Thrown op.Reply} {uuid : String}
    (drew : (call.advance op rest reply).drewId uuid = true) : call.drewId uuid = true ∨
      (⟨op,reply⟩ : Exchange signature Thrown) = ⟨.uuidv4,.ok uuid⟩ := by
  simp only [Call.drewId,Call.advance,List.any_cons,Bool.or_eq_true] at drew
  rcases drew with now | before
  · refine .inr ?_
    split at now
    · rename_i drawn is
      rw [is,of_decide_eq_true now]
    · cases now
  · exact .inl before

theorem drewId_moves {later : DemandCall} {uuid : String}
    (member : later ∈ (Demand.machine.step s label).calls) (drew : later.drewId uuid = true) :
    (∃ call ∈ s.calls, call.request = later.request ∧ call.drewId uuid = true) ∨
      draws s label = some uuid ∧ ∃ index ω call, label = .resume index ω ∧
        s.calls[index]? = some call ∧ later.request = call.request := by
  cases Machine.origin_moves (Demand.machine.step_moves s label) member with
  | kept call before request history =>
    refine .inl ⟨call,before,request.symm,?_⟩
    rw [Call.drewId,← history]
    exact drew
  | answered index ω call op rest is found awaits advanced =>
    subst advanced
    rcases drewId_advance drew with before | now
    · exact .inl ⟨call,List.mem_of_getElem? found,rfl,before⟩
    · obtain ⟨rfl,reply⟩ := Exchange.mk.inj now
      have drawn : ω.uuid = uuid := Except.ok.inj (eq_of_heq reply)
      have awaiting := State.awaits_eq_some.mpr ⟨call,rest,found,awaits⟩
      exact .inr ⟨draws_eq_some.mpr ⟨index,ω,is,awaiting,drawn⟩,index,ω,call,is,found,rfl⟩
  | submitted _ history | started _ _ history => simp [Call.drewId,history] at drew

end Draws

def Demand.jobType : Demand → Option JobType
  | .request (.enqueue creation) => some creation.jobType
  | _ => none

/-- The id belongs to a job type: it shows the type before its first colon, or an enqueue
for the type has drawn it. -/
def Belongs (calls : List DemandCall) (jobId : String) (jobType : JobType) : Prop :=
  (':' ∈ jobId.toList ∧ Delimited.heading ':' jobId.toList = jobType.name.toList) ∨
    (':' ∉ jobId.toList ∧ ∃ call ∈ calls, call.drewId jobId = true ∧
      call.request.jobType = some jobType)

/-- Drawn ids have no colon, and no two enqueues of different types have drawn the same. -/
structure DrawnOnce (calls : List DemandCall) : Prop where
  plain : ∀ call ∈ calls, ∀ uuid, call.drewId uuid = true → ':' ∉ uuid.toList
  once : ∀ call ∈ calls, ∀ other ∈ calls, ∀ uuid, call.drewId uuid = true →
    other.drewId uuid = true → call.request = other.request

theorem Belongs.unique {calls : List DemandCall} {jobId : String} {jobType other : JobType}
    (once : DrawnOnce calls) (belongs : Belongs calls jobId jobType)
    (belongs' : Belongs calls jobId other) : jobType = other := by
  rcases belongs with ⟨colon,heading⟩ | ⟨plain,call,member,drew,type⟩
  · rcases belongs' with ⟨_,heading'⟩ | ⟨plain,_⟩
    · exact JobType.name_injective (String.toList_inj.mp (heading.symm.trans heading'))
    · exact absurd colon plain
  · rcases belongs' with ⟨colon,_⟩ | ⟨_,call',member',drew',type'⟩
    · exact absurd colon plain
    · have same := once.once call member call' member' jobId drew drew'
      rw [same,type'] at type
      exact (Option.some.inj type).symm

section Step

variable {s : DemandState} {label : DemandLabel} {jobId : String} {jobType : JobType}

theorem Belongs.step (label : DemandLabel) (belongs : Belongs s.calls jobId jobType) :
    Belongs (Demand.machine.step s label).calls jobId jobType := by
  rcases belongs with shown | ⟨plain,call,member,drew,type⟩
  · exact .inl shown
  · obtain ⟨later,there,request,longer⟩ :=
      Machine.history_moves (Demand.machine.step_moves s label) member
    refine .inr ⟨plain,later,there,?_,request ▸ type⟩
    obtain ⟨exchange,here,drawn⟩ := List.any_eq_true.mp drew
    exact List.any_eq_true.mpr ⟨exchange,longer.subset here,drawn⟩

theorem DrawnOnce.step (fresh : drawsFresh s label = true) (once : DrawnOnce s.calls) :
    DrawnOnce (Demand.machine.step s label).calls where
  plain := by
    intro later member uuid drew
    rcases drewId_moves member drew with ⟨call,before,_,drew⟩ | ⟨drawn,_⟩
    · exact once.plain call before uuid drew
    · exact fresh_plain fresh drawn
  once := by
    intro later member later' member' uuid drew drew'
    rcases drewId_moves member drew with ⟨call,before,request,drew⟩ | ⟨drawn,index,ω,call,is,found,same⟩
    · rcases drewId_moves member' drew' with ⟨call',before',request',drew'⟩ | ⟨drawn,_⟩
      · rw [← request,← request',once.once call before call' before' uuid drew drew']
      · have new := fresh_new fresh drawn before
        rw [drew] at new
        cases new
    · rcases drewId_moves member' drew' with ⟨call',before',_,drew'⟩ | ⟨_,index',ω',call',is',found',same'⟩
      · have new := fresh_new fresh drawn before'
        rw [drew'] at new
        cases new
      · obtain ⟨rfl,_⟩ := Label.resume.inj (is.symm.trans is')
        rw [same,same',Option.some.inj (found.symm.trans found')]

theorem submitted_belongs {call : DemandCall} (member : call ∈ s.calls) {request : CreateJobRequest}
    (is : call.request = .request (.enqueue request)) {uuid : String} {input : EnqueueJobInput}
    (once : DrawnOnce s.calls) (submitted : JobService.submitted request uuid = some input)
    (drew : request.ownType = false → call.drewId uuid = true) :
    Belongs s.calls input.jobId input.jobType := by
  obtain ⟨definition,known⟩ := JobService.known request
  rw [JobService.submitted_eq known] at submitted
  obtain ⟨jobId,computed,rfl⟩ := Option.map_eq_some_iff.mp submitted
  cases own : request.ownType with
  | true =>
    rw [own] at computed
    exact .inl (key_heading computed)
  | false =>
    rw [own] at computed
    obtain rfl := Option.some.inj computed
    refine .inr ⟨once.plain call member uuid (drew own),call,member,drew own,?_⟩
    rw [is]
    rfl

theorem kept_step (kept : steady s label = true) (jobId : String) : deletes jobId s label = false := by
  simp only [steady,Bool.and_eq_true,List.all_eq_true] at kept
  unfold deletes
  cases found : s.world.jobs.lookup jobId with
  | none => rfl
  | some job => simpa using kept.2 job (Collection.lookup_mem found)

theorem identity_step (kept : steady s label = true) :
    KeepsIdentity s.world (Demand.machine.step s label).world := by
  intro jobId job stored
  have moves := Demand.document_moves s label jobId
  have undeleted := kept_step kept jobId
  rw [deletes,Option.mem_def.mp stored] at undeleted
  rw [Option.mem_def.mp stored] at moves
  generalize (Demand.machine.step s label).world.jobs.lookup jobId = after at moves
  cases moves with
  | kept => exact ⟨job,rfl,rfl⟩
  | changed write _ is selected => exact ⟨_,rfl,change_identity write job⟩
  | expired _ _ gone =>
    have due : outlives job label = true := gone
    simp [due] at undeleted

def World.Typed (w : World) (jobId : String) (jobType : JobType) : Prop :=
  ∃ job ∈ w.jobs.lookup jobId, job.jobType = jobType

theorem World.Typed.step (kept : steady s label = true) (typed : s.world.Typed jobId jobType) :
    (Demand.machine.step s label).world.Typed jobId jobType := by
  obtain ⟨job,stored,rfl⟩ := typed
  obtain ⟨later,stored',same⟩ := identity_step kept jobId job stored
  exact ⟨later,stored',congrArg (fun identity => identity.2.1) same⟩

theorem queued_moves {key : String}
    (queued : jobId ∈ ((Demand.machine.step s label).world.sortedSets key).members) :
    jobId ∈ (s.world.sortedSets key).members ∨ ∃ (index : Nat) (score : Int), ∃ call ∈ s.calls,
      ∃ rest, s.calls[index]? = some call ∧ call.program = .await (.zaddNX key score jobId) rest := by
  have moves := Demand.machine.step_moves s label
  generalize Demand.machine.step s label = t at moves queued
  cases moves with
  | submit | idle | absent | crash => exact .inl queued
  | answer index ω call op rest found awaits =>
    change jobId ∈ ((perform op ω s.world).2.sortedSets key).members at queued
    rw [perform_sortedSets] at queued
    rcases requeue_members queued with before | ⟨score,rfl⟩
    · exact .inl before
    · exact .inr ⟨index,score,call,List.mem_of_getElem? found,rest,found,awaits⟩
  | environment event => cases event <;> exact .inl queued

/-- A call comes to hold an id by the creation of its document. -/
theorem next_adding {phase : Submission} {op : Op} {reply : Except Thrown op.Reply}
    (adding : Submission.next phase op reply = .adding jobType jobId) :
    ∃ input, op = .job (.createJob input) ∧ input.jobType = jobType ∧ input.jobId = jobId ∧
      ∃ value, reply = .ok value := by
  unfold Submission.next at adding
  split at adding
  · cases adding
  · rename_i input value
    obtain ⟨rfl,rfl⟩ := Submission.adding.inj adding
    exact ⟨input,rfl,rfl,rfl,value,rfl⟩
  · rename_i input value
    obtain ⟨rfl,rfl⟩ := Submission.adding.inj adding
    exact ⟨input,rfl,rfl,rfl,value,rfl⟩
  · cases adding

/-- What holds of every reachable state while drawn ids are fresh and nothing is deleted. -/
structure Coherent (s : DemandState) : Prop where
  followed : submission.Followed s
  once : DrawnOnce s.calls
  stored : ∀ jobId, ∀ job ∈ s.world.jobs.lookup jobId, Belongs s.calls jobId job.jobType
  held : ∀ call ∈ s.calls, ∀ jobType jobId, submission.phase call = .adding jobType jobId →
    s.world.Typed jobId jobType
  queued : ∀ jobType jobId, jobId ∈ (s.world.sortedSets (queueKeyMap jobType)).members →
    s.world.Typed jobId jobType

theorem stored_step (coherent : Coherent s) :
    ∀ jobId, ∀ job ∈ (Demand.machine.step s label).world.jobs.lookup jobId,
      Belongs (Demand.machine.step s label).calls jobId job.jobType := by
  intro jobId after later
  have moves := Demand.document_moves s label jobId
  rw [Option.mem_def.mp later] at moves
  generalize before : s.world.jobs.lookup jobId = found at moves
  cases moves with
  | kept => exact (coherent.stored jobId after before).step label
  | created input creates same =>
    obtain ⟨call,member,request,is,uuid,submitted,drew⟩ := created_by coherent.followed creates
    exact same ▸ (submitted_belongs member is coherent.once submitted drew).step label
  | changed write job _ _ =>
    rw [change_jobType]
    exact (coherent.stored jobId job before).step label

theorem created_typed (coherent : Coherent s) {index : Nat} {ω : Oracle} {call : DemandCall}
    {input : EnqueueJobInput} {rest : Except Thrown IJob → Async Unit}
    (found : s.calls[index]? = some call) (awaits : call.program = .await (.job (.createJob input)) rest)
    {value : IJob} (replied : (perform (.job (.createJob input)) ω s.world).1 = .ok value) :
    (perform (.job (.createJob input)) ω s.world).2.Typed input.jobId input.jobType := by
  obtain ⟨performed,_⟩ := deliver_ok replied
  have writes : written s (.resume index ω) = some (.createJob input) := by
    have awaiting : s.awaits index = some (Op.job (.createJob input)) :=
      State.awaits_eq_some.mpr ⟨call,rest,found,awaits⟩
    simp [written,awaiting,performed,Delivery.applies]
  obtain ⟨own,member,request,is,uuid,submitted,drew⟩ := created_by coherent.followed writes
  have belongs := submitted_belongs member is coherent.once submitted drew
  rw [World.Typed,perform_lookup]
  cases before : s.world.jobs.lookup input.jobId with
  | none =>
    refine ⟨inserted input,?_,rfl⟩
    simp [Op.update,performed,Delivery.applies,JobWrite.update]
  | some job =>
    refine ⟨job,?_,(coherent.stored _ job before).unique coherent.once belongs⟩
    simp [Op.update,performed,Delivery.applies,JobWrite.update,JobWrite.selects]

theorem held_step (coherent : Coherent s) (kept : steady s label = true) :
    ∀ call ∈ (Demand.machine.step s label).calls, ∀ jobType jobId,
      submission.phase call = .adding jobType jobId →
        (Demand.machine.step s label).world.Typed jobId jobType := by
  intro later member jobType jobId adding
  cases Machine.origin_moves (Demand.machine.step_moves s label) member with
  | kept call before request history =>
    have same : submission.phase later = submission.phase call := by
      rw [Protocol.phase,Protocol.phase,request,history]
    exact (coherent.held call before jobType jobId (same ▸ adding)).step kept
  | answered index ω call op rest is found awaits advanced =>
    subst advanced
    obtain ⟨input,rfl,rfl,rfl,value,replied⟩ := next_adding adding
    have typed := created_typed coherent found awaits replied
    subst is
    have after : Demand.machine.step s (.resume index ω) =
        Demand.machine.answered s index call _ rest ω := by simp [Machine.step,found,awaits]
    rw [after]
    exact typed
  | submitted _ history | started _ _ history =>
    rw [Protocol.phase,history] at adding
    change Submission.start later.request = _ at adding
    unfold Submission.start at adding
    split at adding <;> cases adding

theorem typed_step (coherent : Coherent s) (kept : steady s label = true) :
    ∀ jobType jobId,
      jobId ∈ ((Demand.machine.step s label).world.sortedSets (queueKeyMap jobType)).members →
        (Demand.machine.step s label).world.Typed jobId jobType := by
  intro jobType jobId queued
  rcases queued_moves queued with before | ⟨index,score,call,member,rest,found,awaits⟩
  · exact (coherent.queued jobType jobId before).step kept
  · obtain ⟨own,adding,same⟩ :=
      Submission.allowed_zaddNX (coherent.followed.allowed found awaits)
    obtain rfl := queueKeyMap_injective same
    exact (coherent.held call member jobType jobId adding).step kept

theorem coherent_step (s : DemandState) (label : DemandLabel) (kept : steady s label = true)
    (coherent : Coherent s) : Coherent (Demand.machine.step s label) where
  followed := submission_step s label coherent.followed
  once := coherent.once.step (Bool.and_eq_true_iff.mp kept).1
  stored := stored_step coherent
  held := held_step coherent kept
  queued := typed_step coherent kept

end Step

def Demand.start : DemandState := ⟨World.empty,[]⟩

theorem coherent_start : Coherent Demand.start where
  followed := submission.followed_nil World.empty
  once := ⟨by simp [Demand.start],by simp [Demand.start]⟩
  stored := by rintro jobId job ⟨⟩
  held := by simp [Demand.start]
  queued := by simp [Demand.start,World.empty,SortedSet.members,SortedSet.empty]

theorem Coherent.queuesCohere {s : DemandState} (coherent : Coherent s) : s.world.QueuesCohere where
  unique := s.world.jobs.unique
  oneQueue := by
    intro jobId jobType other queued queued'
    obtain ⟨job,stored,rfl⟩ := coherent.queued jobType jobId queued
    obtain ⟨job',stored',rfl⟩ := coherent.queued other jobId queued'
    rw [Option.some.inj (stored.symm.trans stored')]
  documented := fun jobId jobType queued => coherent.queued jobType jobId queued

theorem KeepsIdentity.refl (w : World) : KeepsIdentity w w := fun _ job stored => ⟨job,stored,rfl⟩

theorem KeepsIdentity.trans {first second third : World} (before : KeepsIdentity first second)
    (after : KeepsIdentity second third) : KeepsIdentity first third := by
  intro jobId job stored
  obtain ⟨later,stored,same⟩ := before jobId job stored
  obtain ⟨last,stored,same'⟩ := after jobId later stored
  exact ⟨last,stored,same'.trans same⟩

/-- While drawn ids are fresh and no document is deleted, the queues and the collection stay
coherent, and no document changes its identity. -/
theorem stores_cohere (labels : List DemandLabel)
    (kept : Demand.machine.Along (fun s label => steady s label = true) Demand.start labels) :
    (∀ t, Demand.machine.Reached Demand.start labels t → t.world.QueuesCohere) ∧
      Demand.machine.Progresses KeepsIdentity Demand.start labels := by
  constructor
  · intro t reached
    have coherent : Coherent t := Machine.invariant_reached Coherent coherent_step kept coherent_start
      reached
    exact coherent.queuesCohere
  · refine (Machine.progresses_iff KeepsIdentity.refl KeepsIdentity.trans).mpr ?_
    exact Machine.along_mono (fun _ _ kept => identity_step kept) kept

def requeuedReport : List DemandLabel :=
  alone 0 3 (.request (.enqueue reportRequest)) ++
    alone 1 2 (.queue (.dequeue .scheduledReport 0 10) rfl) ++
    alone 2 3 (.request (.enqueue reportRequest))

theorem requeued_cohere :
    (∀ t, Demand.machine.Reached Demand.start requeuedReport t → t.world.QueuesCohere) ∧
      Demand.machine.Progresses KeepsIdentity Demand.start requeuedReport :=
  stores_cohere requeuedReport (by decide +kernel)

end JobScheduler
