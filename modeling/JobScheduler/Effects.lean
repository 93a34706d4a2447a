import JobScheduler.System

/-! What an operation does to each store: one lemma per store, and one per kind of
change of a job document. Later modules never unfold `perform`. -/
namespace JobScheduler

open JobRepository

theorem deliver_world (delivery : Delivery) (w : World) (answer : Except Thrown α × World) :
    (deliver delivery w answer).2 = if delivery.applies then answer.2 else w := by
  cases delivery <;> rfl

theorem deliver_ok {delivery : Delivery} {w : World} {answer : Except Thrown α × World}
    {value : α} (replied : (deliver delivery w answer).1 = .ok value) :
    delivery = .performed ∧ answer.1 = .ok value := by
  cases delivery with
  | performed => exact ⟨rfl,replied⟩
  | lost e => cases replied
  | unacknowledged e => cases replied

/-- The document of `jobId` after an operation, from the one before. -/
def Op.update (op : Op) (ω : Oracle) (jobId : String) (stored : Option IJob) : Option IJob :=
  match op with
  | .job write => if ω.delivery.applies then write.update jobId stored else stored
  | _ => stored

/-- The sorted set under `key` after an operation, from the one before. -/
def Op.requeue (op : Op) (ω : Oracle) (key : String) (set : SortedSet String) :
    SortedSet String :=
  match op with
  | .zaddNX other score member =>
    if ω.delivery.applies && other = key then (set.zaddNX score member).2 else set
  | .zaddXX other score member =>
    if ω.delivery.applies && other = key then (set.zaddXX score member).2 else set
  | .zrem other members =>
    if ω.delivery.applies && other = key then (set.zrem members).2 else set
  | _ => set

def Op.inserts (op : Op) (ω : Oracle) : List IExecution :=
  match op with
  | .createExecution record => if record.valid && ω.delivery.applies then [record] else []
  | _ => []

/-- The dead letter and the event that an operation commits. -/
def Op.commits (op : Op) (ω : Oracle) (w : World) : Option (IDeadLetter × IOutboxEvent) :=
  match op with
  | .commitDeadLetter letter type payload createdAt =>
    if letter.valid && (w.deadLetters.lookup letter.jobId).isNone && ω.delivery.applies then
      some (letter,w.newEvent type payload createdAt)
    else none
  | _ => none

/-- An outbox event after an operation, from the one before. -/
def Op.marks (op : Op) (ω : Oracle) : IOutboxEvent → IOutboxEvent :=
  match op with
  | .completeOutbox id processedAt => fun e =>
    if ω.delivery.applies && e.id = id then
      { e with status := .completed, processedAt := some processedAt }
    else e
  | .retryOutbox id status retryCount lastError => fun e =>
    if ω.delivery.applies && e.id = id then
      { e with status := status, retryCount := retryCount, lastError := some lastError }
    else e
  | _ => id

def Op.places (op : Op) (ω : Oracle) (placed : RabbitMq.Placed) : RabbitMq.Placed :=
  match op with
  | .publish key payload =>
    if ω.publish.isNone then RabbitMq.publish placed .schedulerExchange key payload else placed
  | _ => placed

section Stores

-- Each lemma of the section runs `perform` forward and looks at one store.
attribute [local simp] perform

variable (op : Op) (ω : Oracle) (w : World)

theorem perform_commitDeadLetter (letter : IDeadLetter) (type : RoutingKey) (payload : EventPayload)
    (createdAt : Int) : ∃ letters events,
      (perform (.commitDeadLetter letter type payload createdAt) ω w).2 =
        { w with deadLetters := letters, outbox := events } := by
  simp only [perform,World.commitDeadLetter]
  split
  · rename_i committed commits
    split at commits
    · obtain ⟨letters,_,rfl⟩ := Option.map_eq_some_iff.mp commits
      rw [deliver_world]
      cases ω.delivery.applies with
      | true => exact ⟨_,_,rfl⟩
      | false => exact ⟨w.deadLetters,w.outbox,rfl⟩
    · cases commits
  · exact ⟨w.deadLetters,w.outbox,rfl⟩

theorem perform_lookup (jobId : String) :
    (perform op ω w).2.jobs.lookup jobId = op.update ω jobId (w.jobs.lookup jobId) := by
  cases op with
  | job write =>
    simp only [perform,deliver_world,Op.update]
    split
    · exact JobWrite.lookup_run write w.jobs jobId
    · rfl
  | commitDeadLetter letter type payload createdAt =>
    obtain ⟨letters,events,after⟩ := perform_commitDeadLetter ω w letter type payload createdAt
    rw [after]
    rfl
  | zrangebyscore | createExecution | publish | handlerSettle =>
    simp only [perform]
    split <;> first | rfl | (simp only [deliver_world,Op.update]; split <;> rfl)
  | _ => simp only [perform,deliver_world,Op.update] <;> split <;> rfl

theorem perform_sortedSets (key : String) :
    (perform op ω w).2.sortedSets key = op.requeue ω key (w.sortedSets key) := by
  cases op with
  | zaddNX other score member | zaddXX other score member | zrem other members =>
    simp only [perform,deliver_world,Op.requeue,World.updateSet]
    by_cases same : other = key
    · subst same; cases ω.delivery <;> simp [Delivery.applies]
    · cases ω.delivery <;> simp [Delivery.applies,same,Ne.symm same]
  | commitDeadLetter letter type payload createdAt =>
    obtain ⟨letters,events,after⟩ := perform_commitDeadLetter ω w letter type payload createdAt
    rw [after]
    rfl
  | zrangebyscore | createExecution | publish | handlerSettle =>
    simp only [perform]
    split <;> first | rfl | (simp only [deliver_world,Op.requeue]; split <;> rfl)
  | _ => simp only [perform,deliver_world,Op.requeue] <;> split <;> rfl

theorem perform_executions :
    (perform op ω w).2.executions = w.executions ++ op.inserts ω := by
  cases op with
  | createExecution record =>
    simp only [perform,Op.inserts]
    cases record.valid with
    | true => cases ω.delivery <;> simp [deliver,Delivery.applies]
    | false => simp
  | commitDeadLetter letter type payload createdAt =>
    obtain ⟨letters,events,after⟩ := perform_commitDeadLetter ω w letter type payload createdAt
    rw [after]
    exact (List.append_nil _).symm
  | zrangebyscore | publish | handlerSettle =>
    simp only [perform]
    split <;> simp [Op.inserts]
  | _ => simp only [perform,deliver_world,Op.inserts,List.append_nil] <;> split <;> rfl

/-- Letter and event are committed together or not at all. -/
theorem perform_commits (letter : IDeadLetter) (type : RoutingKey) (payload : EventPayload)
    (createdAt : Int) :
    let op := Op.commitDeadLetter letter type payload createdAt
    (perform op ω w).2.deadLetters.docs =
        w.deadLetters.docs ++ (op.commits ω w).toList.map Prod.fst ∧
      (perform op ω w).2.outbox = w.outbox ++ (op.commits ω w).toList.map Prod.snd := by
  simp only [perform,World.commitDeadLetter,Op.commits,Collection.insert]
  cases letter.valid with
  | false => simp
  | true =>
    by_cases absent : w.deadLetters.lookup letter.jobId = none
    · simp only [absent,dite_true,if_true,Option.map_some,deliver_world,Option.isNone_none,
        Bool.and_self,Bool.true_and]
      cases ω.delivery.applies <;> simp [Collection.push]
    · have present : (w.deadLetters.lookup letter.jobId).isNone = false :=
        Option.isNone_eq_false_iff.mpr (Option.isSome_iff_ne_none.mpr absent)
      simp [absent,present]

theorem perform_deadLetters :
    (perform op ω w).2.deadLetters.docs =
      w.deadLetters.docs ++ (op.commits ω w).toList.map Prod.fst := by
  cases op with
  | commitDeadLetter letter type payload createdAt =>
    exact (perform_commits ω w letter type payload createdAt).1
  | zrangebyscore | createExecution | publish | handlerSettle =>
    simp only [perform,Op.commits,Option.toList_none,List.map_nil,List.append_nil]
    split <;> first | rfl | (simp only [deliver_world]; split <;> rfl)
  | _ =>
    simp only [perform,deliver_world,Op.commits,Option.toList_none,List.map_nil,List.append_nil] <;>
      split <;> rfl

theorem perform_outbox :
    (perform op ω w).2.outbox =
      w.outbox.map (op.marks ω) ++ (op.commits ω w).toList.map Prod.snd := by
  cases op with
  | commitDeadLetter letter type payload createdAt =>
    simp only [Op.marks,List.map_id]
    exact (perform_commits ω w letter type payload createdAt).2
  | completeOutbox id processedAt | retryOutbox id status retryCount lastError =>
    simp only [perform,deliver_world,Op.marks,Op.commits]
    cases ω.delivery.applies <;> simp [World.updateOutbox]
  | zrangebyscore | createExecution | publish | handlerSettle =>
    simp only [perform,Op.marks,List.map_id,Op.commits,Option.toList_none,List.map_nil,
      List.append_nil]
    split <;> first | rfl | (simp only [deliver_world]; split <;> rfl)
  | _ =>
    simp only [perform,deliver_world,Op.marks,List.map_id,Op.commits,Option.toList_none,
      List.map_nil,List.append_nil] <;> split <;> rfl

theorem perform_placed : (perform op ω w).2.placed = op.places ω w.placed := by
  cases op with
  | publish key payload =>
    simp only [perform,Op.places]
    cases ω.publish <;> rfl
  | commitDeadLetter letter type payload createdAt =>
    obtain ⟨letters,events,after⟩ := perform_commitDeadLetter ω w letter type payload createdAt
    rw [after]
    rfl
  | zrangebyscore | createExecution | handlerSettle =>
    simp only [perform]
    split <;> first | rfl | (simp only [deliver_world,Op.places]; split <;> rfl)
  | _ => simp only [perform,deliver_world,Op.places] <;> split <;> rfl

end Stores

@[simp] theorem marks_type (op : Op) (ω : Oracle) (e : IOutboxEvent) :
    (op.marks ω e).type = e.type := by
  cases op with
  | completeOutbox | retryOutbox => simp only [Op.marks]; split <;> rfl
  | _ => rfl

@[simp] theorem marks_payload (op : Op) (ω : Oracle) (e : IOutboxEvent) :
    (op.marks ω e).payload = e.payload := by
  cases op with
  | completeOutbox | retryOutbox => simp only [Op.marks]; split <;> rfl
  | _ => rfl

theorem commits_eq_some {op : Op} {ω : Oracle} {w : World} {letter : IDeadLetter}
    {event : IOutboxEvent} (commits : op.commits ω w = some (letter,event)) :
    ∃ type payload createdAt, op = .commitDeadLetter letter type payload createdAt ∧
      event = w.newEvent type payload createdAt := by
  cases op with
  | commitDeadLetter own type payload createdAt =>
    simp only [Op.commits] at commits
    split at commits
    · obtain ⟨rfl,rfl⟩ := Prod.mk.inj (Option.some.inj commits)
      exact ⟨type,payload,createdAt,rfl,rfl⟩
    · cases commits
  | _ => cases commits

/-- Only `ZADD NX` brings a member into a set. -/
theorem requeue_members {op : Op} {ω : Oracle} {key member : String} {set : SortedSet String}
    (after : member ∈ (op.requeue ω key set).members) :
    member ∈ set.members ∨ ∃ score, op = .zaddNX key score member := by
  cases op with
  | zaddNX other score added =>
    simp only [Op.requeue] at after
    split at after
    · rename_i hits
      obtain ⟨_,rfl⟩ : ω.delivery.applies = true ∧ other = key := by simpa using hits
      rcases (SortedSet.mem_members_zaddNX ..).mp after with rfl | before
      · exact .inr ⟨score,rfl⟩
      · exact .inl before
    · exact .inl after
  | zaddXX other score updated =>
    simp only [Op.requeue] at after
    split at after
    · exact .inl ((SortedSet.mem_members_zaddXX ..).mp after)
    · exact .inl after
  | zrem other removed =>
    simp only [Op.requeue] at after
    split at after
    · exact .inl ((SortedSet.mem_members_zrem ..).mp after).1
    · exact .inl after
  | _ => exact .inl after

/-- Only `ZREM` takes a member out of a set. -/
theorem requeue_keeps (op : Op) (ω : Oracle) (key : String) {member : String}
    {set : SortedSet String}
    (before : member ∈ set.members) :
    member ∈ (op.requeue ω key set).members ∨
      ∃ removed, op = .zrem key removed ∧ ω.delivery.applies = true ∧ member ∈ removed := by
  cases op with
  | zaddNX other score added =>
    simp only [Op.requeue]
    split
    · exact .inl ((SortedSet.mem_members_zaddNX ..).mpr (.inr before))
    · exact .inl before
  | zaddXX other score updated =>
    simp only [Op.requeue]
    split
    · exact .inl ((SortedSet.mem_members_zaddXX ..).mpr before)
    · exact .inl before
  | zrem other removed =>
    simp only [Op.requeue]
    split
    · rename_i hits
      obtain ⟨applies,rfl⟩ : ω.delivery.applies = true ∧ other = key := by simpa using hits
      by_cases listed : member ∈ removed
      · exact .inr ⟨removed,rfl,applies,listed⟩
      · exact .inl ((SortedSet.mem_members_zrem ..).mpr ⟨before,listed⟩)
    · exact .inl before
  | _ => exact .inl before

/-- A claim is answered with a document exactly when it took a pending one. -/
theorem claimJob_replies {jobId : String} {version : Nat} {now : Int} {ω : Oracle} {w : World}
    {job : IJob} (won : (perform (.job (.claimJob jobId version now)) ω w).1 = .ok (some job)) :
    ω.delivery = .performed ∧ ∃ stored, w.jobs.lookup jobId = some stored ∧
      claimable version stored = true ∧ job = claimed version now stored := by
  obtain ⟨performed,answer⟩ := deliver_ok won
  have answered : ((w.jobs.lookup jobId).filter (claimable version)).map (claimed version now) =
      some job := by
    refine (Collection.findOneAndUpdate_fst jobId (claimable version) (claimed version now)
      fun _ => rfl).symm.trans ?_
    exact Except.ok.inj answer
  obtain ⟨stored,matched,rfl⟩ := Option.map_eq_some_iff.mp answered
  obtain ⟨found,passes⟩ := Option.filter_eq_some_iff.mp matched
  exact ⟨performed,stored,found,passes,rfl⟩

theorem claimJob_wins {jobId : String} {version : Nat} (now : Int) {ω : Oracle} {w : World}
    {stored : IJob} (performed : ω.delivery = .performed) (found : w.jobs.lookup jobId = some stored)
    (passes : claimable version stored = true) :
    (perform (.job (.claimJob jobId version now)) ω w).1 = .ok (some (claimed version now stored)) := by
  have answered := Collection.findOneAndUpdate_fst (c := w.jobs) jobId (claimable version)
    (claimed version now) fun _ => rfl
  simp only [found,Option.filter_some,passes,if_true,Option.map_some] at answered
  simp only [perform,performed,deliver]
  exact congrArg Except.ok answered

/-- A cancellation is answered with a document only if it took a pending one. -/
theorem cancelJob_replies {jobId : String} {ω : Oracle} {w : World} {job : IJob}
    (replied : (perform (.job (.cancelJob jobId)) ω w).1 = .ok (some job)) :
    (perform (.job (.cancelJob jobId)) ω w).2.jobs.lookup jobId = some job ∧ job.status = .dead := by
  obtain ⟨performed,answer⟩ := deliver_ok replied
  have answered : ((w.jobs.lookup jobId).filter isPending).map cancelled = some job := by
    refine (Collection.findOneAndUpdate_fst jobId isPending cancelled fun _ => rfl).symm.trans ?_
    exact Except.ok.inj answer
  obtain ⟨stored,matched,rfl⟩ := Option.map_eq_some_iff.mp answered
  obtain ⟨found,passes⟩ := Option.filter_eq_some_iff.mp matched
  have key : stored.jobId = jobId := Collection.lookup_key found
  refine ⟨?_,rfl⟩
  rw [perform_lookup,found]
  simp [Op.update,performed,Delivery.applies,JobWrite.update,JobWrite.selects,key,passes,
    JobWrite.change]

/-- Nobody owns the job: its document is absent or pending. -/
def World.free (w : World) (jobId : String) : Bool :=
  (w.jobs.lookup jobId).all fun job => job.status = .pending

theorem update_free {op : Op} {ω : Oracle} {jobId : String} {stored : Option IJob}
    (after : (op.update ω jobId stored).all (fun job => job.status = .pending) = true) :
    stored.all (fun job => job.status = .pending) = true ∨
      ∃ cutoff, op = .job (.resetStaleJobs cutoff) ∧ ω.delivery.applies = true ∧
        stored.any (stale cutoff) = true := by
  cases op with
  | job write =>
    simp only [Op.update] at after
    split at after
    · rename_i applies
      cases stored with
      | none => exact .inl rfl
      | some job =>
        simp only [JobWrite.update] at after
        split at after
        · rename_i selected
          cases write with
          | resetStaleJobs cutoff => exact .inr ⟨cutoff,rfl,applies,selected⟩
          | createJob input => cases selected
          | _ => simp [JobWrite.change,claimed,completed,failed,dead,cancelled,
              preFindOneAndUpdate] at after
        · exact .inl after
    · exact .inl after
  | _ => exact .inl after

end JobScheduler
