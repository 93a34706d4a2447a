import JobScheduler.Coupling
import JobScheduler.Effects

/-! One operation under two clocks. The readings of `Date.now()` end up in fields that
nothing but a stale reset, the TTL index and a validator compares, and in the retry time;
everything else that an operation reads or writes is alike. -/
namespace JobScheduler

open JobRepository

/-- The same document but for the times that instances write into it. -/
def IJob.Like (job twin : IJob) : Prop :=
  ∃ startedAt lastAttemptAt completedAt expiresAt, twin = { job with
    startedAt := startedAt, lastAttemptAt := lastAttemptAt, completedAt := completedAt,
    expiresAt := expiresAt }

theorem IJob.Like.refl (job : IJob) : job.Like job := ⟨_,_,_,_,rfl⟩

inductive JobWrite.Like : JobWrite → JobWrite → Prop where
  | same (write) : Like write write
  | claimJob (jobId version now later) :
      Like (.claimJob jobId version now) (.claimJob jobId version later)
  | markCompleted (jobId version completedAt now completedLater later) :
      Like (.markCompleted jobId version completedAt now)
        (.markCompleted jobId version completedLater later)
  | markFailed (jobId version error nextRunAt now later) :
      Like (.markFailed jobId version error nextRunAt now)
        (.markFailed jobId version error nextRunAt later)
  | resetStaleJobs (cutoff later) : Like (.resetStaleJobs cutoff) (.resetStaleJobs later)

/-- The same operation but for times that come from a clock, and for what only messages,
handlers and heartbeats carry. -/
inductive Op.Like : Op → Op → Prop where
  | same (op) : Like op op
  | job (write twin) (like : write.Like twin) : Like (.job write) (.job twin)
  | setHeartbeat (key value other) : Like (.setHeartbeat key value) (.setHeartbeat key other)
  | createExecution (record startedAt completedAt durationMs) : Like (.createExecution record)
      (.createExecution { record with
        startedAt := startedAt, completedAt := completedAt, durationMs := durationMs })
  | commitDeadLetter (letter type payload createdAt twin twinType twinPayload later)
      (key : twin.jobId = letter.jobId) (valid : twin.valid = letter.valid) :
      Like (.commitDeadLetter letter type payload createdAt)
        (.commitDeadLetter twin twinType twinPayload later)
  | publish (key payload other) : Like (.publish key payload) (.publish key other)
  | handlerStart (job twin) : Like (.handlerStart job) (.handlerStart twin)
  | handlerSettle (job twin) : Like (.handlerSettle job) (.handlerSettle twin)

/-- What related operations reply. `drew` tells that the reading follows a drawn jitter. -/
def likeReply (drew : Bool) : (op twin : Op) → op.Reply → twin.Reply → Prop
  | .dateNow, .dateNow, now, later => drew = true → now = later
  | .random, .random, reply, other => reply = other
  | .uuidv4, .uuidv4, reply, other => reply = other
  | .redisTime, .redisTime, reply, other => reply = other
  | .job (.createJob _), .job (.createJob _), job, twin => job.Like twin
  | .job (.claimJob _ _ _), .job (.claimJob _ _ _), reply, other => Option.Rel IJob.Like reply other
  | .job (.cancelJob _), .job (.cancelJob _), reply, other => Option.Rel IJob.Like reply other
  | .findByJobId _, .findByJobId _, reply, other => Option.Rel IJob.Like reply other
  | .zrangebyscore _ _ _ _ _, .zrangebyscore _ _ _ _ _, reply, other => reply = other
  | _, _, _, _ => True

structure World.Like (w v : World) : Prop where
  jobs : ∀ jobId, Option.Rel IJob.Like (w.jobs.lookup jobId) (v.jobs.lookup jobId)
  sortedSets : ∀ key, w.sortedSets key = v.sortedSets key
  deadLetters : ∀ jobId, (w.deadLetters.lookup jobId).isSome = (v.deadLetters.lookup jobId).isSome

theorem World.Like.refl (w : World) : w.Like w where
  jobs jobId := by
    cases w.jobs.lookup jobId with
    | none => exact .none
    | some job => exact .some (.refl job)
  sortedSets _ := rfl
  deadLetters _ := rfl

def Oracle.at (ω : Oracle) (clock : Int) : Oracle := { ω with clock := clock }

/-- A reading that becomes a retry time is the same, a cutoff separates the same running
documents, and a duration is negative in both or in neither. -/
def Op.agrees (drew : Bool) (ω : Oracle) (clock : Int) (w v : World) : Op → Op → Prop
  | .dateNow, .dateNow => drew = true → ω.clock = clock
  | .job (.resetStaleJobs cutoff), .job (.resetStaleJobs other) => ω.delivery.applies = true →
      ∀ job ∈ w.jobs.docs, ∀ twin ∈ v.jobs.lookup job.jobId, stale cutoff job = stale other twin
  | .createExecution record, .createExecution other => 0 ≤ record.durationMs ↔ 0 ≤ other.durationMs
  | _, _ => True

instance agrees.decidable (drew : Bool) (ω : Oracle) (clock : Int) (w v : World) (op twin : Op) :
    Decidable (op.agrees drew ω clock w v twin) := by
  unfold Op.agrees
  split <;> infer_instance

section Documents

variable {job twin : IJob} {write other : JobWrite}

theorem JobWrite.Like.change (like : write.Like other) (jobs : job.Like twin) :
    (write.change job).Like (other.change twin) := by
  obtain ⟨startedAt,lastAttemptAt,completedAt,expiresAt,rfl⟩ := jobs
  cases like with
  | same =>
    cases write with
    | resetStaleJobs => exact ⟨none,lastAttemptAt,completedAt,expiresAt,rfl⟩
    | _ => exact ⟨_,_,_,_,rfl⟩
  | _ => exact ⟨_,_,_,_,rfl⟩

theorem JobWrite.Like.selects (like : write.Like other) (jobs : job.Like twin)
    (unreset : ∀ cutoff, write ≠ .resetStaleJobs cutoff) : write.selects job = other.selects twin := by
  obtain ⟨startedAt,lastAttemptAt,completedAt,expiresAt,rfl⟩ := jobs
  cases like with
  | same =>
    cases write with
    | resetStaleJobs cutoff => exact absurd rfl (unreset cutoff)
    | _ => rfl
  | resetStaleJobs cutoff => exact absurd rfl (unreset cutoff)
  | _ => rfl

theorem JobWrite.Like.update (like : write.Like other) {jobId : String} {stored found : Option IJob}
    (documents : Option.Rel IJob.Like stored found)
    (selected : ∀ job ∈ stored, ∀ twin ∈ found, write.selects job = other.selects twin) :
    Option.Rel IJob.Like (write.update jobId stored) (other.update jobId found) := by
  cases documents with
  | some jobs =>
    simp only [JobWrite.update,← selected _ rfl _ rfl]
    split
    · exact .some (like.change jobs)
    · exact .some jobs
  | none =>
    cases like with
    | same =>
      cases write with
      | createJob input =>
        simp only [JobWrite.update]
        split
        · exact .some (.refl _)
        · exact .none
      | _ => exact .none
    | _ => exact .none

end Documents

section Perform

variable {op twin : Op} {drew : Bool} {ω : Oracle} {clock : Int} {w v : World}

theorem like_jobs (like : op.Like twin) (worlds : w.Like v)
    (agrees : op.agrees drew ω clock w v twin) (jobId : String) :
    Option.Rel IJob.Like ((perform op ω w).2.jobs.lookup jobId)
      ((perform twin (ω.at clock) v).2.jobs.lookup jobId) := by
  have documents := worlds.jobs jobId
  rw [perform_lookup,perform_lookup]
  have written : ∀ write other : JobWrite, write.Like other →
      (Op.job write).agrees drew ω clock w v (.job other) →
      Option.Rel IJob.Like ((Op.job write).update ω jobId (w.jobs.lookup jobId))
        ((Op.job other).update (ω.at clock) jobId (v.jobs.lookup jobId)) := by
    intro write other writes agrees
    simp only [Op.update,Oracle.at]
    by_cases applies : ω.delivery.applies = true
    · simp only [applies,if_true]
      apply writes.update documents
      intro job stored twin found
      by_cases resets : ∃ cutoff, write = .resetStaleJobs cutoff
      · obtain ⟨cutoff,rfl⟩ := resets
        obtain rfl : job.jobId = jobId := Collection.lookup_key stored
        cases writes with
        | same | resetStaleJobs => exact agrees applies job (Collection.lookup_mem stored) twin found
      · refine writes.selects ?_ fun cutoff is => resets ⟨cutoff,is⟩
        rw [Option.mem_def.mp stored,Option.mem_def.mp found] at documents
        cases documents with
        | some jobs => exact jobs
    · simp only [applies]
      exact documents
  cases like with
  | same =>
    cases op with
    | job write => exact written write write (.same write) agrees
    | _ => exact documents
  | job write other writes => exact written write other writes agrees
  | _ => exact documents

theorem like_sortedSets (like : op.Like twin) (worlds : w.Like v) (key : String) :
    (perform op ω w).2.sortedSets key = (perform twin (ω.at clock) v).2.sortedSets key := by
  rw [perform_sortedSets,perform_sortedSets,worlds.sortedSets key]
  cases like <;> rfl

theorem like_deadLetters (like : op.Like twin) (worlds : w.Like v) (jobId : String) :
    ((perform op ω w).2.deadLetters.lookup jobId).isSome =
      ((perform twin (ω.at clock) v).2.deadLetters.lookup jobId).isSome := by
  have committed : ∀ (op : Op) (ω : Oracle) (w : World),
      ((perform op ω w).2.deadLetters.lookup jobId).isSome =
        ((w.deadLetters.lookup jobId).isSome ||
          (op.commits ω w).any fun entry => entry.1.jobId = jobId) := by
    intro op ω w
    simp only [Collection.lookup,perform_deadLetters,List.find?_append,Option.isSome_or]
    cases op.commits ω w with
    | none => rfl
    | some entry =>
      by_cases same : entry.1.jobId = jobId <;> simp [same]
  have commits : ∀ letter type payload createdAt twin twinType twinPayload later,
      twin.jobId = letter.jobId → twin.valid = letter.valid →
      ((Op.commitDeadLetter letter type payload createdAt).commits ω w).any
          (fun entry => entry.1.jobId = jobId) =
        ((Op.commitDeadLetter twin twinType twinPayload later).commits (ω.at clock) v).any
          fun entry => entry.1.jobId = jobId := by
    intro letter type payload createdAt twin twinType twinPayload later key valid
    have absent : (w.deadLetters.lookup letter.jobId).isNone =
        (v.deadLetters.lookup letter.jobId).isNone := by
      simp only [← Option.not_isSome,worlds.deadLetters]
    simp only [Op.commits,Oracle.at,key,valid,absent]
    split <;> simp [key]
  rw [committed,committed,worlds.deadLetters jobId]
  congr 1
  cases like with
  | same =>
    cases op with
    | commitDeadLetter letter type payload createdAt =>
      exact commits letter type payload createdAt letter type payload createdAt rfl rfl
    | _ => rfl
  | commitDeadLetter letter type payload createdAt twin twinType twinPayload later key valid =>
    exact commits letter type payload createdAt twin twinType twinPayload later key valid
  | _ => rfl

open Program (Outcome)

theorem outcome_deliver {related : α → β → Prop} {value : α} {other : β} {after afterward : World}
    (same : related value other) (delivery : Delivery) :
    Outcome related (deliver delivery w (.ok value,after)).1
      (deliver delivery v (.ok other,afterward)).1 := by
  cases delivery with
  | performed => exact same
  | lost | unacknowledged => exact rfl

theorem like_findOneAndUpdate {jobId : String} {guard test : IJob → Bool} {change other : IJob → IJob}
    (keeps : ∀ job, (change job).jobId = job.jobId) (also : ∀ job, (other job).jobId = job.jobId)
    (guards : ∀ job twin, job.Like twin → guard job = test twin)
    (changes : ∀ job twin, job.Like twin → (change job).Like (other twin)) (worlds : w.Like v) :
    Option.Rel IJob.Like (w.jobs.findOneAndUpdate jobId guard change keeps).1
      (v.jobs.findOneAndUpdate jobId test other also).1 := by
  rw [Collection.findOneAndUpdate_fst,Collection.findOneAndUpdate_fst]
  have documents := worlds.jobs jobId
  revert documents
  generalize w.jobs.lookup jobId = stored
  generalize v.jobs.lookup jobId = found
  intro documents
  cases documents with
  | none => exact .none
  | some jobs =>
    simp only [Option.filter_some,guards _ _ jobs]
    split
    · exact .some (changes _ _ jobs)
    · exact .none

theorem like_claimJob (jobId : String) (version : Nat) (now later : Int) (worlds : w.Like v) :
    Option.Rel IJob.Like (JobRepository.claimJob w.jobs jobId version now).1
      (JobRepository.claimJob v.jobs jobId version later).1 := by
  unfold JobRepository.claimJob
  apply like_findOneAndUpdate
  · rintro job _ ⟨_,_,_,_,rfl⟩
    rfl
  · exact fun job twin => JobWrite.Like.change (.claimJob jobId version now later)
  · exact worlds

theorem like_run {write other : JobWrite} (like : write.Like other) (worlds : w.Like v) :
    likeReply drew (.job write) (.job other) (write.run w.jobs).1 (other.run v.jobs).1 := by
  cases like with
  | same =>
    cases write with
    | createJob input =>
      change (w.jobs.upsert (inserted input)).1.Like (v.jobs.upsert (inserted input)).1
      rw [Collection.upsert_fst,Collection.upsert_fst]
      have documents := worlds.jobs (inserted input).jobId
      revert documents
      generalize w.jobs.lookup (inserted input).jobId = stored
      generalize v.jobs.lookup (inserted input).jobId = found
      intro documents
      cases documents with
      | none => exact .refl _
      | some jobs => exact jobs
    | claimJob jobId version now => exact like_claimJob jobId version now now worlds
    | cancelJob jobId =>
      change Option.Rel IJob.Like (JobRepository.cancelJob w.jobs jobId).1
        (JobRepository.cancelJob v.jobs jobId).1
      unfold JobRepository.cancelJob
      apply like_findOneAndUpdate
      · rintro job _ ⟨_,_,_,_,rfl⟩
        rfl
      · exact fun job twin => JobWrite.Like.change (.same (.cancelJob jobId))
      · exact worlds
    | _ => trivial
  | claimJob jobId version now later => exact like_claimJob jobId version now later worlds
  | _ => trivial

theorem commitDeadLetter_isSome (w : World) (letter : IDeadLetter) (type : RoutingKey)
    (payload : EventPayload) (createdAt : Int) :
    (w.commitDeadLetter letter type payload createdAt).isSome =
      (letter.valid && !(w.deadLetters.lookup letter.jobId).isSome) := by
  simp only [World.commitDeadLetter,Collection.insert]
  cases letter.valid with
  | false => rfl
  | true =>
    by_cases absent : w.deadLetters.lookup letter.jobId = none
    · simp [absent]
    · simp [absent,Option.isSome_iff_ne_none]

theorem like_commit {letter twin : IDeadLetter} {type twinType : RoutingKey}
    {payload twinPayload : EventPayload} {createdAt later : Int} (worlds : w.Like v)
    (key : twin.jobId = letter.jobId) (valid : twin.valid = letter.valid) :
    Outcome (fun _ _ => True) (perform (.commitDeadLetter letter type payload createdAt) ω w).1
      (perform (.commitDeadLetter twin twinType twinPayload later) (ω.at clock) v).1 := by
  have same : (w.commitDeadLetter letter type payload createdAt).isSome =
      (v.commitDeadLetter twin twinType twinPayload later).isSome := by
    rw [commitDeadLetter_isSome,commitDeadLetter_isSome,valid,key,worlds.deadLetters]
  simp only [perform]
  cases first : w.commitDeadLetter letter type payload createdAt <;>
    cases second : v.commitDeadLetter twin twinType twinPayload later
  · exact rfl
  · rw [first,second] at same
    cases same
  · rw [first,second] at same
    cases same
  · exact outcome_deliver trivial ω.delivery

theorem like_record (record : IExecution) {startedAt completedAt durationMs : Int}
    (sign : 0 ≤ record.durationMs ↔ 0 ≤ durationMs) :
    Outcome (fun _ _ => True) (perform (.createExecution record) ω w).1
      (perform (.createExecution { record with
        startedAt := startedAt, completedAt := completedAt, durationMs := durationMs })
        (ω.at clock) v).1 := by
  have valid : ({ record with
      startedAt := startedAt, completedAt := completedAt, durationMs := durationMs } :
        IExecution).valid = record.valid := by
    simp only [IExecution.valid,sign]
  simp only [perform,valid]
  cases record.valid with
  | true => exact outcome_deliver trivial ω.delivery
  | false => exact rfl

theorem like_reply (like : op.Like twin) (worlds : w.Like v)
    (agrees : op.agrees drew ω clock w v twin) :
    Outcome (likeReply drew op twin) (perform op ω w).1 (perform twin (ω.at clock) v).1 := by
  have published : ∀ key payload other, Outcome (fun _ _ => True)
      (perform (.publish key payload) ω w).1 (perform (.publish key other) (ω.at clock) v).1 := by
    intro key payload other
    simp only [perform,Oracle.at]
    cases ω.publish with
    | none => trivial
    | some e => exact rfl
  have settled : ∀ job twin, Outcome (fun _ _ => True)
      (perform (.handlerSettle job) ω w).1 (perform (.handlerSettle twin) (ω.at clock) v).1 := by
    intro job twin
    simp only [perform,Oracle.at]
    cases ω.handler with
    | none => trivial
    | some e => exact rfl
  cases like with
  | same =>
    cases op with
    | dateNow => exact agrees
    | random | uuidv4 => exact rfl
    | redisTime => exact outcome_deliver rfl ω.delivery
    | job write => exact outcome_deliver (like_run (.same write) worlds) ω.delivery
    | findByJobId jobId => exact outcome_deliver (worlds.jobs jobId) ω.delivery
    | zrangebyscore key low high offset count =>
      simp only [perform,Oracle.at,worlds.sortedSets key]
      cases ω.delivery with
      | performed | lost | unacknowledged => exact rfl
    | createExecution record => exact like_record record agrees
    | commitDeadLetter => exact like_commit worlds rfl rfl
    | publish key payload => exact published key payload payload
    | handlerSettle job => exact settled job job
    | handlerStart | dispatch => trivial
    | _ => exact outcome_deliver trivial ω.delivery
  | job write other writes => exact outcome_deliver (like_run writes worlds) ω.delivery
  | setHeartbeat => exact outcome_deliver trivial ω.delivery
  | createExecution record => exact like_record record agrees
  | commitDeadLetter letter type payload createdAt twin twinType twinPayload later key valid =>
    exact like_commit worlds key valid
  | publish key payload other => exact published key payload other
  | handlerStart => trivial
  | handlerSettle job twin => exact settled job twin

theorem like_perform (like : op.Like twin) (worlds : w.Like v)
    (agrees : op.agrees drew ω clock w v twin) :
    (perform op ω w).2.Like (perform twin (ω.at clock) v).2 :=
  ⟨like_jobs like worlds agrees,like_sortedSets like worlds,like_deadLetters like worlds⟩

end Perform

end JobScheduler
