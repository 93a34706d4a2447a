import JobScheduler.DocumentHistory
import JobScheduler.PollPhase

/-! No early execution. The due time of a job is kept twice, in its document and as the
score of its id in the queue, and a claim looks at neither. A job is not claimed before its
time as long as no queue entry and no poll under way is earlier than its document. -/
namespace JobScheduler

abbrev SystemLineage := Lineage signature Thrown World Request

def told : (op : Op) → Except Thrown op.Reply → Option Int
  | .redisTime, .ok nowMs => some nowMs
  | _, _ => none

/-- The first time that Redis told in a history. -/
def readTime : List (Exchange signature Thrown) → Option Int
  | [] => none
  | exchange :: history => (readTime history).or (told exchange.op exchange.reply)

/-- Pending, or running with a reset still ahead. -/
def IJob.active (job : IJob) : Bool := job.status = .pending || job.status = .running

def Op.inserts? : Op → Option EnqueueJobInput
  | .job (.createJob input) => some input
  | _ => none

def Op.scores (op : Op) (w : World) : Option (Int × String) :=
  match op with
  | .zaddNX key score member =>
    if member ∈ (w.sortedSets key).members then none else some (score,member)
  | .zaddXX key score member =>
    if member ∈ (w.sortedSets key).members then some (score,member) else none
  | _ => none

namespace Lineage

variable (x : SystemLineage)

/-- The Redis time of the tick that dispatched a call. -/
def tickTime (place : Nat) : Option Int :=
  (x.parent place).bind fun tick => x.state.calls[tick]?.bind fun call => readTime call.history

/-- The Redis time under which a call may still lead to a claim of the job. -/
def promise (place : Nat) (jobId : String) : Option Int :=
  x.state.calls[place]?.bind fun call =>
    if call.inProgress then
      match polls.phase call with
      | .holding nowMs jobIds => if jobId ∈ jobIds then some nowMs else none
      | .seeking own => if own = jobId then x.tickTime place else none
      | _ => none
    else none

/-- No queue entry of the job and no poll under way is earlier than this time. -/
def keeps (jobId : String) (nextRunAt : Int) : Prop :=
  (∀ jobType ∈ PollLoop.pollOrder,
    ∀ score ∈ (x.state.world.sortedSets (queueKeyMap jobType)).score? jobId, nextRunAt ≤ score) ∧
  ∀ place < x.state.calls.length, ∀ nowMs ∈ x.promise place jobId, nextRunAt ≤ nowMs

/-- A new document is due no later than what is queued or polled for its id, and no queue
entry becomes earlier than the document of an active job. -/
def timely : SystemLabel → Prop
  | .resume index ω => ω.delivery.applies = true → ∀ op ∈ x.state.awaits index,
    (∀ input ∈ op.inserts?, x.state.world.jobs.lookup input.jobId = none →
      x.keeps input.jobId input.nextRunAt) ∧
    ∀ entry ∈ op.scores x.state.world, ∀ job ∈ x.state.world.jobs.lookup entry.2,
      job.active = true → job.nextRunAt ≤ entry.1
  | _ => True

instance keeps.decidable (jobId : String) (nextRunAt : Int) : Decidable (x.keeps jobId nextRunAt) :=
  inferInstanceAs (Decidable (_ ∧ _))

instance timely.decidable : ∀ label, Decidable (x.timely label)
  | .resume _ _ => inferInstanceAs (Decidable (_ → _))
  | .submit _ | .crash _ | .environment _ => .isTrue trivial

/-- A dispatched run claims the job although the time of its tick is before the document's
`nextRunAt`. -/
def early : SystemLabel → Bool
  | .resume index ω =>
    match written x.state (.resume index ω) with
    | some (.claimJob jobId version _) => (x.state.world.jobs.lookup jobId).any fun job =>
        JobRepository.claimable version job && (x.tickTime index).any (· < job.nextRunAt)
    | _ => false
  | _ => false

end Lineage

def System.dawn : SystemLineage := ⟨initial World.empty,[]⟩

section History

theorem readTime_suffix {older newer : List (Exchange signature Thrown)} {nowMs : Int}
    (suffix : older <:+ newer) (read : readTime older = some nowMs) : readTime newer = some nowMs := by
  obtain ⟨later,rfl⟩ := suffix
  induction later with
  | nil => exact read
  | cons exchange later ih => rw [List.cons_append,readTime,ih,Option.some_or]

def PollPhase.time : PollPhase → Option Int
  | .polling nowMs | .holding nowMs _ => some nowMs
  | _ => none

def PollPhase.unpolled : PollPhase → Bool
  | .outside | .seeking _ | .sought => true
  | _ => false

theorem PollPhase.next_unpolled {phase : PollPhase} (op : Op) (reply : Except Thrown op.Reply)
    (unpolled : phase.unpolled = true) : (next phase op reply).unpolled = true := by
  unfold next
  split <;> first | exact unpolled | rfl | cases unpolled

theorem PollPhase.next_time {phase : PollPhase} {nowMs : Int} (op : Op)
    (reply : Except Thrown op.Reply) (goes : phase.time = some nowMs) :
    (next phase op reply).time = some nowMs := by
  unfold next
  split
  · cases goes
  · split <;> exact goes
  · exact goes
  · exact goes
  · cases goes
  · exact goes

theorem phase_time (history : List (Exchange signature Thrown)) :
    (PollPhase.monitor.phase .unread history = .unread ∧ readTime history = none) ∨
      ∃ nowMs, (PollPhase.monitor.phase .unread history).time = some nowMs ∧
        readTime history = some nowMs := by
  induction history with
  | nil => exact .inl ⟨rfl,rfl⟩
  | cons exchange history ih =>
    obtain ⟨op,reply⟩ := exchange
    simp only [Program.Monitor.phase,PollPhase.monitor_next,readTime]
    rcases ih with ⟨unread,untold⟩ | ⟨nowMs,goes,read⟩
    · rw [unread,untold,Option.none_or]
      cases op with
      | redisTime =>
        cases reply with
        | error e => exact .inl ⟨rfl,rfl⟩
        | ok nowMs => exact .inr ⟨nowMs,rfl,rfl⟩
      | _ => exact .inl ⟨rfl,rfl⟩
    · rw [read,Option.some_or]
      exact .inr ⟨nowMs,PollPhase.next_time op reply goes,rfl⟩

theorem phase_unpolled {start : PollPhase} (unpolled : start.unpolled = true)
    (history : List (Exchange signature Thrown)) :
    (PollPhase.monitor.phase start history).unpolled = true := by
  induction history with
  | nil => exact unpolled
  | cons exchange history ih => exact PollPhase.next_unpolled _ _ ih

theorem readTime_phase {call : SystemCall} {nowMs : Int}
    (goes : (polls.phase call).time = some nowMs) : readTime call.history = some nowMs := by
  have unpolled : (PollPhase.start call.request).unpolled = true → (polls.phase call).time = none := by
    intro start
    have stays := phase_unpolled start call.history
    change (polls.phase call).unpolled = true at stays
    cases phase : polls.phase call with
    | outside | seeking | sought => rfl
    | _ => rw [phase] at stays; cases stays
  cases request : call.request with
  | tick instanceId activeJobs =>
    simp only [polls,Protocol.phase,request,PollPhase.start] at goes
    rcases phase_time call.history with ⟨unread,_⟩ | ⟨own,same,read⟩
    · rw [unread] at goes
      cases goes
    · exact read.trans (same.symm.trans goes)
  | _ =>
    rw [unpolled (by rw [request]; rfl)] at goes
    cases goes

end History

section Step

variable {x : SystemLineage} {label : SystemLabel} {jobId : String}

theorem perform_score {op : Op} {ω : Oracle} {w : World} {key : String} {score : Int}
    (stored : ((perform op ω w).2.sortedSets key).score? jobId = some score) :
    (w.sortedSets key).score? jobId = some score ∨
      (ω.delivery.applies = true ∧ op.scores w = some (score,jobId)) := by
  rw [perform_sortedSets] at stored
  cases op with
  | zaddNX other added member =>
    simp only [Op.requeue] at stored
    split at stored
    · rename_i hits
      obtain ⟨applies,rfl⟩ : ω.delivery.applies = true ∧ other = key := by simpa using hits
      rw [SortedSet.score?_zaddNX] at stored
      split at stored
      · rename_i fresh
        obtain ⟨rfl,absent⟩ := fresh
        obtain rfl := Option.some.inj stored
        exact .inr ⟨applies,if_neg absent⟩
      · exact .inl stored
    · exact .inl stored
  | zaddXX other updated member =>
    simp only [Op.requeue] at stored
    split at stored
    · rename_i hits
      obtain ⟨applies,rfl⟩ : ω.delivery.applies = true ∧ other = key := by simpa using hits
      rw [SortedSet.score?_zaddXX] at stored
      split at stored
      · rename_i queued
        obtain ⟨rfl,present⟩ := queued
        obtain rfl := Option.some.inj stored
        exact .inr ⟨applies,if_pos present⟩
      · exact .inl stored
    · exact .inl stored
  | zrem other members =>
    simp only [Op.requeue] at stored
    split at stored
    · rename_i hits
      obtain ⟨applies,rfl⟩ : ω.delivery.applies = true ∧ other = key := by simpa using hits
      rw [SortedSet.score?_zrem] at stored
      split at stored
      · cases stored
      · exact .inl stored
    · exact .inl stored
  | _ => exact .inl stored

theorem step_score {s : SystemState} {key : String} {score : Int}
    (stored : ((System.machine.step s label).world.sortedSets key).score? jobId = some score) :
    (s.world.sortedSets key).score? jobId = some score ∨
      ∃ index ω op, label = .resume index ω ∧ s.awaits index = some op ∧
        ω.delivery.applies = true ∧ op.scores s.world = some (score,jobId) := by
  have moves := System.machine.step_moves s label
  generalize System.machine.step s label = t at moves stored
  cases moves with
  | submit | idle | absent | crash => exact .inl stored
  | answer index ω call op rest found awaits =>
    have awaiting : s.awaits index = some op := State.awaits_eq_some.mpr ⟨call,rest,found,awaits⟩
    rcases perform_score stored with before | ⟨applies,scores⟩
    · exact .inl before
    · exact .inr ⟨index,ω,op,rfl,awaiting,applies,scores⟩
  | environment event => cases event <;> exact .inl stored

theorem active_source {s : SystemState} {job : IJob} (active : job.active = true)
    (stored : (System.machine.step s label).world.jobs.lookup jobId = some job) :
    (∃ old, s.world.jobs.lookup jobId = some old ∧ old.active = true ∧ old.nextRunAt = job.nextRunAt) ∨
      ∃ index ω input, label = .resume index ω ∧ s.awaits index = some (.job (.createJob input)) ∧
        ω.delivery.applies = true ∧ input.jobId = jobId ∧ s.world.jobs.lookup jobId = none ∧
        input.nextRunAt = job.nextRunAt := by
  have moves := System.document_moves s label jobId
  rw [stored] at moves
  generalize before : s.world.jobs.lookup jobId = old at moves
  cases moves with
  | kept => exact .inl ⟨job,rfl,active,rfl⟩
  | created input is same =>
    obtain ⟨index,ω,rfl,awaiting,applies⟩ := written_eq_some is
    exact .inr ⟨index,ω,input,rfl,awaiting,applies,same,rfl,rfl⟩
  | changed write old is selected =>
    refine .inl ⟨old,rfl,?_⟩
    cases write with
    | createJob => cases selected
    | claimJob target version now =>
      simp only [JobWrite.selects,JobRepository.claimable,Bool.and_eq_true,decide_eq_true_eq] at selected
      simp [IJob.active,selected.2.1,JobWrite.change,JobRepository.claimed]
    | resetStaleJobs cutoff =>
      simp only [JobWrite.selects,JobRepository.stale,Bool.and_eq_true,decide_eq_true_eq] at selected
      simp [IJob.active,selected.1,JobWrite.change,JobRepository.reset]
    | markCompleted | markFailed | markDead | cancelJob => cases active

theorem polls_followed (s : SystemState) (label : SystemLabel) (followed : polls.Followed s) :
    polls.Followed (System.machine.step s label) := by
  refine Protocol.followed_moves (System.machine.step_moves s label) ?_ followed
  cases label with
  | resume index ω =>
    intro call op rest found awaits
    have may : (polls.phase call).allowed op := followed.allowed found awaits
    change PollPhase.answers (polls.phase call) op (perform op ω s.world).1
    unfold PollPhase.answers
    split
    · rename_i own read job seeking answered
      obtain rfl : read = own := by
        rw [seeking] at may
        exact may
      have replied := (deliver_ok answered).2
      exact Collection.lookup_key (Except.ok.inj replied)
    · trivial
  | submit | environment => trivial
  | crash index => exact fun _ _ => trivial

/-- What ties the queue, the polls under way and the documents together. -/
structure Punctual (x : SystemLineage) : Prop where
  aligned : x.Aligned
  followed : polls.Followed x.state
  runs : ∀ place call, x.state.calls[place]? = some call → (x.parent place).isSome = true →
    (∃ instanceId jobId, call.request = .run instanceId jobId) ∧ (x.tickTime place).isSome = true
  due : ∀ jobId, ∀ job ∈ x.state.world.jobs.lookup jobId, job.active = true →
    x.keeps jobId job.nextRunAt

section Punctual

variable (punctual : Punctual x)

theorem readTime_remains (label : SystemLabel) {tick : Nat} {nowMs : Int}
    (read : (x.state.calls[tick]?.bind fun call => readTime call.history) = some nowMs) :
    ((System.machine.lineage.step x label).state.calls[tick]?.bind fun call =>
      readTime call.history) = some nowMs := by
  obtain ⟨call,found,told⟩ := Option.bind_eq_some_iff.mp read
  obtain ⟨later,there,_,grows⟩ := Machine.call_remains (M := System.machine) label found
  exact Option.bind_eq_some_iff.mpr ⟨later,there,readTime_suffix grows told⟩

include punctual in
theorem tickTime_same {place : Nat} {call : SystemCall} (found : x.state.calls[place]? = some call)
    (same : (System.machine.lineage.step x label).parent place = x.parent place) :
    (System.machine.lineage.step x label).tickTime place = x.tickTime place := by
  simp only [Lineage.tickTime,same]
  cases parent : x.parent place with
  | none => rfl
  | some tick =>
    have known := (punctual.runs place call found (by rw [parent]; rfl)).2
    simp only [Lineage.tickTime,parent,Option.bind_some] at known
    obtain ⟨nowMs,read⟩ := Option.isSome_iff_exists.mp known
    exact (readTime_remains label read).trans read.symm

theorem dispatched_time {index place : Nat} {nowMs : Int} {call : SystemCall}
    (found : x.state.calls[index]? = some call) (goes : (polls.phase call).time = some nowMs)
    (child : (System.machine.lineage.step x label).parent place = some index) :
    (System.machine.lineage.step x label).tickTime place = some nowMs := by
  simp only [Lineage.tickTime,child,Option.bind_some]
  apply readTime_remains
  simp only [found,Option.bind_some]
  exact readTime_phase goes

theorem allowed_starts {phase : PollPhase} {op : Op} {request : Request} (may : phase.allowed op)
    (begun : request ∈ System.starts op) : ∃ nowMs jobIds instanceId, ∃ jobId ∈ jobIds,
      phase = .holding nowMs jobIds ∧ request = .run instanceId jobId := by
  cases op with
  | dispatch instanceId dispatched jobType =>
    obtain ⟨jobId,listed,rfl⟩ := List.mem_map.mp begun
    cases phase with
    | holding nowMs jobIds =>
      obtain rfl : dispatched = jobIds := may
      exact ⟨nowMs,dispatched,instanceId,jobId,listed,rfl,rfl⟩
    | outside | sought => cases may
    | _ => exact False.elim may
  | _ => cases begun

include punctual in
theorem runs_step {place : Nat} {call : SystemCall}
    (here : (System.machine.lineage.step x label).state.calls[place]? = some call)
    (descends : ((System.machine.lineage.step x label).parent place).isSome = true) :
    (∃ instanceId jobId, call.request = .run instanceId jobId) ∧
      ((System.machine.lineage.step x label).tickTime place).isSome = true := by
  have old : ∀ before, x.state.calls[place]? = some before →
      (System.machine.lineage.step x label).parent place = x.parent place →
      (∃ instanceId jobId, before.request = .run instanceId jobId) ∧
        ((System.machine.lineage.step x label).tickTime place).isSome = true := by
    intro before found same
    rw [tickTime_same punctual found same]
    rw [same] at descends
    exact punctual.runs place before found descends
  cases Machine.lineage_comes punctual.aligned here with
  | kept before same => exact old call before same
  | answered oracle before op rest is found awaits advanced same =>
    subst advanced
    exact old before found same
  | crashed before found settled same =>
    subst settled
    exact old before found same
  | submitted request is accepted orphan =>
    rw [orphan] at descends
    cases descends
  | started index oracle before op rest request is found awaits begun accepted child =>
    have may : (polls.phase before).allowed op := punctual.followed.allowed found awaits
    obtain ⟨nowMs,jobIds,instanceId,jobId,_,holding,rfl⟩ := allowed_starts may begun
    subst accepted
    refine ⟨⟨instanceId,jobId,rfl⟩,?_⟩
    rw [dispatched_time found (by rw [holding]; rfl) child]
    rfl

theorem mem_promise {place : Nat} {nowMs : Int} : nowMs ∈ x.promise place jobId ↔
    ∃ call, x.state.calls[place]? = some call ∧ call.inProgress = true ∧
      ((∃ jobIds, polls.phase call = .holding nowMs jobIds ∧ jobId ∈ jobIds) ∨
        (polls.phase call = .seeking jobId ∧ x.tickTime place = some nowMs)) := by
  simp only [Lineage.promise,Option.mem_def,Option.bind_eq_some_iff]
  refine exists_congr fun call => and_congr_right fun found => ?_
  cases call.inProgress with
  | false => simp
  | true =>
    cases polls.phase call with
    | holding now jobIds =>
      by_cases listed : jobId ∈ jobIds <;> simp [listed]
    | seeking own =>
      by_cases same : own = jobId <;> simp [same]
    | _ => simp

theorem read_scores {phase : PollPhase} {op : Op} {ω : Oracle} {w : World} {nowMs : Int}
    {jobIds : List String} (may : phase.allowed op)
    (holds : phase.next op (perform op ω w).1 = .holding nowMs jobIds) :
    phase = .holding nowMs jobIds ∨ ∀ jobId ∈ jobIds, ∃ jobType,
      ∃ score ∈ (w.sortedSets (queueKeyMap jobType)).score? jobId, score ≤ nowMs := by
  cases phase with
  | outside => rw [PollPhase.next_outside] at holds; cases holds
  | sought => rw [PollPhase.next_sought] at holds; cases holds
  | unread =>
    cases op with
    | redisTime =>
      cases reply : (perform .redisTime ω w).1 <;> rw [reply] at holds <;> cases holds
    | _ => exact False.elim may
  | seeking own =>
    cases op with
    | job write => cases write <;> cases holds
    | _ => cases holds
  | holding now ids =>
    cases op with
    | zrem key members =>
      cases reply : (perform (.zrem key members) ω w).1 <;> rw [reply] at holds <;> cases holds
      exact .inl rfl
    | dispatch => cases holds
    | _ => exact False.elim may
  | polling now =>
    cases op with
    | dateNow => cases holds
    | zrangebyscore key low high offset count =>
      obtain ⟨⟨jobType,rfl⟩,rfl⟩ := may
      refine .inr fun jobId listed => ⟨jobType,?_⟩
      simp only [perform] at holds
      split at holds
      · simp only [PollPhase.next,Option.getD_some] at holds
        split at holds
        · cases holds
        · obtain ⟨rfl,rfl⟩ := PollPhase.holding.inj holds
          obtain ⟨score,stored,_,early⟩ := SortedSet.mem_zrangebyscore listed
          exact ⟨score,stored,early⟩
      · cases holds
      · cases holds
    | _ => exact False.elim may

theorem next_seeking {phase : PollPhase} {op : Op} {reply : Except Thrown op.Reply}
    (seeks : phase.next op reply = .seeking jobId) : phase = .seeking jobId := by
  unfold PollPhase.next at seeks
  split at seeks
  · cases seeks
  · split at seeks <;> cases seeks
  · cases seeks
  · cases seeks
  · cases seeks
  · exact seeks

include punctual in
/-- A promise is an old one, or comes from ids that have just been read. -/
theorem promise_step {place : Nat} {nowMs : Int}
    (promised : nowMs ∈ (System.machine.lineage.step x label).promise place jobId) :
    (∃ before, nowMs ∈ x.promise before jobId) ∨ ∃ jobType,
      ∃ score ∈ (x.state.world.sortedSets (queueKeyMap jobType)).score? jobId, score ≤ nowMs := by
  obtain ⟨call,here,going,phase⟩ := mem_promise.mp promised
  cases Machine.lineage_comes punctual.aligned here with
  | kept before same =>
    rw [tickTime_same punctual before same] at phase
    exact .inl ⟨place,mem_promise.mpr ⟨call,before,going,phase⟩⟩
  | answered ω old op rest is found awaits advanced same =>
    subst advanced
    have may : (polls.phase old).allowed op := punctual.followed.allowed found awaits
    have live : old.inProgress = true := by rw [Call.inProgress,awaits]; rfl
    rw [tickTime_same punctual found same,polls_advance] at phase
    rcases phase with ⟨jobIds,holds,listed⟩ | ⟨seeks,timed⟩
    · rcases read_scores may holds with before | read
      · exact .inl ⟨place,mem_promise.mpr ⟨old,found,live,.inl ⟨jobIds,before,listed⟩⟩⟩
      · exact .inr (read jobId listed)
    · exact .inl ⟨place,mem_promise.mpr ⟨old,found,live,.inr ⟨next_seeking seeks,timed⟩⟩⟩
  | crashed old found settled same =>
    subst settled
    cases going
  | submitted request is accepted orphan =>
    subst accepted
    rcases phase with ⟨jobIds,holds,_⟩ | ⟨_,timed⟩
    · cases request <;> cases holds
    · simp only [Lineage.tickTime,orphan] at timed
      cases timed
  | started index ω old op rest request is found awaits begun accepted child =>
    subst accepted
    have may : (polls.phase old).allowed op := punctual.followed.allowed found awaits
    have live : old.inProgress = true := by rw [Call.inProgress,awaits]; rfl
    obtain ⟨now,jobIds,instanceId,own,listed,holding,rfl⟩ := allowed_starts may begun
    rcases phase with ⟨_,holds,_⟩ | ⟨seeks,timed⟩
    · cases holds
    · obtain rfl := PollPhase.seeking.inj seeks
      rw [dispatched_time found (by rw [holding]; rfl) child] at timed
      obtain rfl := Option.some.inj timed
      exact .inl ⟨index,mem_promise.mpr ⟨old,found,live,.inl ⟨jobIds,holding,listed⟩⟩⟩

theorem pollOrder_complete (jobType : JobType) : jobType ∈ PollLoop.pollOrder := by
  cases jobType <;> simp [PollLoop.pollOrder]

theorem promise_place {place : Nat} {nowMs : Int} (promised : nowMs ∈ x.promise place jobId) :
    place < x.state.calls.length := by
  obtain ⟨call,here,_⟩ := mem_promise.mp promised
  exact (List.getElem?_eq_some_iff.mp here).1

include punctual in
/-- A time that nothing precedes stays so, if the score that is given is no earlier. -/
theorem keeps_step {time : Int} (keeps : x.keeps jobId time)
    (given : ∀ index ω op score, label = .resume index ω → x.state.awaits index = some op →
      ω.delivery.applies = true → op.scores x.state.world = some (score,jobId) → time ≤ score) :
    (System.machine.lineage.step x label).keeps jobId time := by
  refine ⟨?_,?_⟩
  · intro jobType listed score stored
    rcases step_score stored with before | ⟨index,ω,op,is,awaiting,applies,scores⟩
    · exact keeps.1 jobType listed score before
    · exact given index ω op score is awaiting applies scores
  · intro place _ nowMs promised
    rcases promise_step punctual promised with ⟨before,old⟩ | ⟨jobType,score,stored,early⟩
    · exact keeps.2 before (promise_place old) nowMs old
    · exact (keeps.1 jobType (pollOrder_complete jobType) score stored).trans early

include punctual in
theorem due_step (timely : x.timely label) {job : IJob} (active : job.active = true)
    (stored : (System.machine.lineage.step x label).state.world.jobs.lookup jobId = some job) :
    (System.machine.lineage.step x label).keeps jobId job.nextRunAt := by
  rcases active_source active stored with ⟨old,before,was,same⟩ |
    ⟨index,ω,input,is,awaiting,applies,rfl,absent,same⟩
  · rw [← same]
    apply keeps_step punctual (punctual.due jobId old before was)
    intro index ω op score is awaiting applies scores
    subst is
    exact (timely applies op awaiting).2 (score,jobId) scores old before was
  · subst is
    have fresh := (timely applies _ awaiting).1 input rfl absent
    rw [same] at fresh
    apply keeps_step punctual fresh
    intro other ω' op score again also _ scores
    obtain ⟨rfl,rfl⟩ := Label.resume.inj again
    obtain rfl := Option.some.inj (awaiting.symm.trans also)
    cases scores

end Punctual

theorem punctual_step (x : SystemLineage) (label : SystemLabel) (timely : x.timely label)
    (punctual : Punctual x) : Punctual (System.machine.lineage.step x label) where
  aligned := Machine.aligned_step punctual.aligned
  followed := polls_followed x.state label punctual.followed
  runs _ _ here descends := runs_step punctual here descends
  due _ _ stored active := due_step punctual timely active stored

theorem punctual_dawn : Punctual System.dawn where
  aligned := rfl
  followed := polls.followed_initial World.empty
  runs _ _ here := by cases here
  due _ _ stored := by cases stored

theorem run_claims {call : SystemCall} {instanceId own : String} {version : Nat} {now : Int}
    (request : call.request = .run instanceId own)
    (may : (polls.phase call).allowed (.job (.claimJob jobId version now))) :
    polls.phase call = .seeking jobId := by
  have reached : ∀ history : List (Exchange signature Thrown),
      PollPhase.monitor.phase (.seeking own) history = .seeking own ∨
        PollPhase.monitor.phase (.seeking own) history = .sought := by
    intro history
    induction history with
    | nil => exact .inl rfl
    | cons exchange history ih =>
      obtain ⟨op,reply⟩ := exchange
      simp only [Program.Monitor.phase,PollPhase.monitor_next]
      rcases ih with seeking | sought
      · rw [seeking]
        cases op with
        | job write => cases write <;> first | exact .inl rfl | exact .inr rfl
        | _ => exact .inl rfl
      · rw [sought]
        exact .inr (PollPhase.next_sought op reply)
  have phases := reached call.history
  have same : polls.phase call = PollPhase.monitor.phase (.seeking own) call.history := by
    simp only [Protocol.phase,polls,request,PollPhase.start]
  rw [← same] at phases
  rcases phases with seeking | sought
  · rw [seeking] at may ⊢
    obtain rfl : jobId = own := may
    rfl
  · rw [sought] at may
    cases may

theorem punctual_claim (x : SystemLineage) (label : SystemLabel) (punctual : Punctual x) :
    x.early label = false := by
  rw [Bool.eq_false_iff]
  intro early
  cases label with
  | submit | crash | environment => cases early
  | resume index ω =>
    simp only [Lineage.early] at early
    split at early
    · rename_i jobId version now writes
      obtain ⟨job,stored,passes⟩ := (Option.any_eq_true ..).mp early
      obtain ⟨claimable,before⟩ := Bool.and_eq_true_iff.mp passes
      obtain ⟨nowMs,timed,late⟩ := (Option.any_eq_true ..).mp before
      obtain ⟨_,_,is,awaiting,_⟩ := written_eq_some writes
      obtain ⟨rfl,rfl⟩ := Label.resume.inj is
      obtain ⟨call,rest,found,awaits⟩ := State.awaits_eq_some.mp awaiting
      have child : (x.parent index).isSome = true := by
        cases parent : x.parent index with
        | none => rw [Lineage.tickTime,parent] at timed; cases timed
        | some => rfl
      obtain ⟨⟨instanceId,own,request⟩,_⟩ := punctual.runs index call found child
      have may : (polls.phase call).allowed (.job (.claimJob jobId version now)) :=
        punctual.followed.allowed found awaits
      have seeks := run_claims request may
      have live : call.inProgress = true := by rw [Call.inProgress,awaits]; rfl
      have promised : nowMs ∈ x.promise index jobId :=
        mem_promise.mpr ⟨call,found,live,.inr ⟨seeks,timed⟩⟩
      have active : job.active = true := by
        simp only [JobRepository.claimable,Bool.and_eq_true,decide_eq_true_eq] at claimable
        simp [IJob.active,claimable.1]
      have kept := (punctual.due jobId job stored active).2 index (promise_place promised) nowMs promised
      exact absurd (of_decide_eq_true late) (Int.not_lt.mpr kept)
    · cases early

end Step

/-- No dispatched run claims a job before its time. -/
theorem no_early_claim {labels : List SystemLabel}
    (timely : System.machine.lineage.Along Lineage.timely System.dawn labels) :
    System.machine.lineage.Along (fun x label => x.early label = false) System.dawn labels :=
  Transition.along_invariant Punctual punctual_step (fun x label _ => punctual_claim x label) timely
    punctual_dawn

def laterRequest : CreateJobRequest := { reportRequest with scheduledAt := 1000 }

def polled (first : Nat) (now : Int) : List SystemLabel :=
  .submit (.tick "instance" 0) :: drive first 9 now ++ drive (first + 1) 3 now

theorem no_early_claim_later :
    System.machine.lineage.Along (fun x label => x.early label = false) System.dawn
        (.submit (.enqueue laterRequest) :: drive 0 3 0 ++ polled 1 2000) ∧
      claims reportId (System.machine.run (initial World.empty)
        (.submit (.enqueue laterRequest) :: drive 0 3 0 ++ (polled 1 2000).dropLast))
        (.resume 2 (calm 2000)) = true :=
  ⟨no_early_claim (by decide +kernel),by decide +kernel⟩

/-- A request stops after it has created the document, and a second one for the same job
queues it with its own, earlier time. -/
theorem early_claim : ¬ ∀ labels : List SystemLabel,
    System.machine.lineage.Along (fun x label => x.early label = false) System.dawn labels := by
  intro claim
  let labels : List SystemLabel := .submit (.enqueue laterRequest) :: .resume 0 (calm 0) ::
    .submit (.enqueue reportRequest) :: drive 1 2 0 ++ polled 2 0
  have early : ¬ System.machine.lineage.Along (fun x label => x.early label = false)
      System.dawn labels := by
    decide +kernel
  exact early (claim labels)

end JobScheduler
