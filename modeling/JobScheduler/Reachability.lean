import JobScheduler.Custody
import JobScheduler.Exclusion

/-! Reachability of pending jobs. The service keeps a pending job queued or in the
hands of a call that will queue or claim it, except where a stale reset turns a
document back to pending: it queues nothing. -/
namespace JobScheduler

open Custody JobRepository

def queued (w : World) (job : IJob) : Bool :=
  job.jobId ∈ (w.sortedSets (queueKeyMap job.jobType)).members

def held (s : SystemState) (job : IJob) : Bool :=
  s.calls.any fun call => call.inProgress && (custody.phase call).holds job

def reachable (s : SystemState) (job : IJob) : Bool := queued s.world job || held s job

/-- Every pending job can still be dequeued or is about to be claimed. -/
def NoLostJob (s : SystemState) : Prop :=
  ∀ job ∈ s.world.jobs.docs, job.status = .pending → reachable s job = true

instance (s : SystemState) : Decidable (NoLostJob s) :=
  inferInstanceAs (Decidable (∀ job ∈ s.world.jobs.docs, _ → _))

/-- No process crashes, no store call fails and no document expires. -/
def undisturbed : SystemLabel → Bool
  | .resume _ ω => ω.delivery.answers
  | .crash _ | .environment (.expireJobs _) => false
  | _ => true

/-- Every document that a stale reset turns back to pending is reachable already. -/
def Requeued (s : SystemState) (label : SystemLabel) : Prop :=
  ∀ job ∈ s.world.jobs.docs, resets job.jobId s label = true → reachable s job = true

instance (s : SystemState) (label : SystemLabel) : Decidable (Requeued s label) :=
  inferInstanceAs (Decidable (∀ job ∈ s.world.jobs.docs, _ → _))

theorem undisturbed_performed {index : Nat} {ω : Oracle}
    (calm : undisturbed (.resume index ω) = true) : ω.delivery = .performed := by
  cases delivery : ω.delivery with
  | performed => rfl
  | _ => simp [undisturbed,delivery,Delivery.answers] at calm

variable {s : SystemState} {label : SystemLabel} {labels : List SystemLabel} {job : IJob}
variable {index : Nat} {call : SystemCall} {op : Op}
variable {rest : Except Thrown op.Reply → Async Unit} {ω : Oracle}

theorem holding_inProgress (followed : custody.Followed s) (member : call ∈ s.calls)
    (holds : (custody.phase call).holds job = true) : call.inProgress = true := by
  have onward := followed call member
  cases shape : call.program with
  | await op rest => simp [Call.inProgress,shape,Program.head]
  | settled result =>
    rw [shape] at onward
    have idle : custody.phase call = .idle := onward
    rw [idle] at holds
    cases holds

theorem held_iff (followed : custody.Followed s) :
    held s job = true ↔ ∃ call ∈ s.calls, (custody.phase call).holds job = true := by
  simp only [held,List.any_eq_true,Bool.and_eq_true]
  constructor
  · rintro ⟨call,member,_,holds⟩
    exact ⟨call,member,holds⟩
  · rintro ⟨call,member,holds⟩
    exact ⟨call,member,holding_inProgress followed member holds,holds⟩

/-- The invariant: besides, a cancelled id that is about to leave its queue belongs
to a dead document. -/
structure Custodial (s : SystemState) : Prop where
  followed : custody.Followed s
  cancelled : ∀ call ∈ s.calls, ∀ jobId, custody.phase call = .removing jobId →
    ∃ job, s.world.jobs.lookup jobId = some job ∧ job.status = .dead
  kept : NoLostJob s

abbrev Carried (s : SystemState) (job : IJob) : Prop :=
  queued s.world job = true ∨ ∃ call ∈ s.calls, (custody.phase call).holds job = true

theorem reachable_iff (followed : custody.Followed s) : reachable s job = true ↔ Carried s job := by
  rw [reachable,Bool.or_eq_true_iff,held_iff followed]

theorem Custodial.reachable (custodial : Custodial s)
    (found : s.world.jobs.lookup job.jobId = some job) (pending : job.status = .pending) :
    Carried s job :=
  (reachable_iff custodial.followed).mp (custodial.kept job (Collection.lookup_mem found) pending)

section Handover

variable (custodial : Custodial s) (found : s.calls[index]? = some call)
variable (awaits : call.program = .await op rest)

include custodial found awaits

/-- An operation that takes an id out of a queue hands it to its own call. -/
theorem queue_handover (stored : s.world.jobs.lookup job.jobId = some job)
    (pending : job.status = .pending) (inQueue : queued s.world job = true) :
    Carried (System.machine.answered s index call op rest ω) job := by
  have may := custodial.followed.allowed found awaits
  change Custody.allowed (custody.phase call) op at may
  have before : job.jobId ∈ (s.world.sortedSets (queueKeyMap job.jobType)).members := by
    simpa [queued] using inQueue
  rcases requeue_keeps op ω (queueKeyMap job.jobType) before with after | ⟨removed,rfl,_,listed⟩
  · left
    simpa [queued,Machine.answered,perform_sortedSets] using after
  · right
    rcases allowed_zrem may with popping | ⟨jobId,removing,rfl⟩
    · refine ⟨_,Machine.answered_self (M := System.machine) (.zrem _ removed) rest ω found,?_⟩
      rw [custody_advance,popping]
      simpa [Custody.next,Custody.holds] using listed
    · obtain ⟨cancelled,there,dead⟩ :=
        custodial.cancelled call (List.mem_of_getElem? found) jobId removing
      obtain rfl := List.mem_singleton.mp listed
      obtain rfl := Option.some.inj (there.symm.trans stored)
      rw [pending] at dead
      cases dead

/-- A call that holds a job queues it, dispatches it, reads it or goes on holding it. -/
theorem call_handover (performed : ω.delivery = .performed) (other : ∀ write, op ≠ .job write)
    (stored : s.world.jobs.lookup job.jobId = some job)
    (holds : (custody.phase call).holds job = true) :
    Carried (System.machine.answered s index call op rest ω) job := by
  have may := custodial.followed.allowed found awaits
  change Custody.allowed (custody.phase call) op at may
  have self : call.advance op rest (perform op ω s.world).1 ∈
      (System.machine.answered s index call op rest ω).calls := Machine.answered_self _ rest ω found
  cases phase : custody.phase call with
  | idle | popping | removing => rw [phase] at holds; cases holds
  | adding jobType jobId =>
    rw [phase] at may holds
    obtain ⟨score,rfl⟩ := allowed_adding may
    obtain ⟨rfl,rfl⟩ : jobId = job.jobId ∧ jobType = job.jobType := by
      simpa [Custody.holds] using holds
    left
    simp [queued,Machine.answered,perform_sortedSets,Op.requeue,performed,Delivery.applies,
      SortedSet.mem_members_zaddNX]
  | popped jobIds =>
    rw [phase] at may holds
    obtain ⟨instanceId,jobType,rfl⟩ := allowed_popped may
    right
    have started : Request.run instanceId job.jobId ∈
        System.machine.starts (.dispatch instanceId jobIds jobType) := by
      simpa [System.starts,Custody.holds] using holds
    refine ⟨_,Machine.answered_started started,?_⟩
    rw [custody_accept]
    simp [Custody.start,Custody.holds]
  | reading jobId =>
    rw [phase] at may holds
    obtain rfl := allowed_reading may
    obtain rfl : jobId = job.jobId := by simpa [Custody.holds] using holds
    right
    refine ⟨_,self,?_⟩
    have reply : (perform (.findByJobId job.jobId) ω s.world).1 = .ok (some job) := by
      simp [perform,performed,deliver,findByJobId,stored]
    rw [custody_advance,phase,reply]
    simp [Custody.next,Custody.holds]
  | claiming jobId version =>
    rw [phase] at may holds
    rcases allowed_claiming may with rfl | ⟨now,rfl⟩
    · right
      refine ⟨_,self,?_⟩
      rw [custody_advance,phase]
      exact holds
    · exact absurd rfl (other _)

theorem handover (performed : ω.delivery = .performed) (other : ∀ write, op ≠ .job write)
    (stored : s.world.jobs.lookup job.jobId = some job) (pending : job.status = .pending) :
    Carried (System.machine.answered s index call op rest ω) job := by
  rcases custodial.reachable stored pending with inQueue | ⟨holder,member,holds⟩
  · exact queue_handover custodial found awaits stored pending inQueue
  · rcases Machine.answered_keeps (M := System.machine) found member with rfl | remains
    · exact call_handover custodial found awaits performed other stored holds
    · exact .inr ⟨holder,remains,holds⟩

end Handover

theorem pending_write {write : JobWrite} {stored : IJob} (selected : write.selects stored = true)
    (pending : (write.change stored).status = .pending) :
    ∃ cutoff, write = .resetStaleJobs cutoff := by
  cases write with
  | createJob input => cases selected
  | resetStaleJobs cutoff => exact ⟨cutoff,rfl⟩
  | _ => simp [JobWrite.change,claimed,completed,failed,dead,cancelled,preFindOneAndUpdate] at pending

/-- Custody knows a job by its id, type and version, which a reset keeps. -/
theorem reachable_reset (stored : IJob) :
    queued s.world (reset stored) = queued s.world stored ∧
      ∀ held : Custody, held.holds (reset stored) = held.holds stored :=
  ⟨rfl,fun held => by cases held <;> rfl⟩

theorem pending_update {write : JobWrite} {stored : Option IJob}
    (after : write.update job.jobId stored = some job) (pending : job.status = .pending) :
    (∃ input, write = .createJob input ∧ inserted input = job) ∨
    (∃ cutoff old, write = .resetStaleJobs cutoff ∧ stored = some old ∧ stale cutoff old = true ∧
      reset old = job) ∨
    (stored = some job ∧ write.selects job = false) := by
  cases stored with
  | none =>
    cases write with
    | createJob input =>
      obtain ⟨_,same⟩ : input.jobId = job.jobId ∧ inserted input = job := by
        simpa [JobWrite.update] using after
      exact .inl ⟨input,rfl,same⟩
    | _ => cases after
  | some old =>
    by_cases selected : write.selects old = true
    · simp only [JobWrite.update,selected,if_true,Option.some.injEq] at after
      subst after
      obtain ⟨cutoff,rfl⟩ := pending_write selected pending
      exact .inr (.inl ⟨cutoff,old,rfl,rfl,selected,rfl⟩)
    · simp only [JobWrite.update,selected,Bool.false_eq_true,if_false,Option.some.injEq] at after
      subst after
      exact .inr (.inr ⟨rfl,by simpa using selected⟩)

/-- A job write creates a job in custody, or meets one that is reachable already. -/
theorem handover_write {write : JobWrite} {rest : Except Thrown (Op.job write).Reply → Async Unit}
    (custodial : Custodial s) (requeued : Requeued s (.resume index ω))
    (found : s.calls[index]? = some call) (awaits : call.program = .await (.job write) rest)
    (performed : ω.delivery = .performed)
    (stored : (System.machine.answered s index call (.job write) rest ω).world.jobs.lookup
      job.jobId = some job)
    (pending : job.status = .pending) :
    Carried (System.machine.answered s index call (.job write) rest ω) job := by
  have may := custodial.followed.allowed found awaits
  change Custody.allowed (custody.phase call) (.job write) at may
  have queues : queued (System.machine.answered s index call (.job write) rest ω).world job =
      queued s.world job := by
    simp only [queued,Machine.answered,System.machine_perform,perform_sortedSets,Op.requeue]
  have after : write.update job.jobId (s.world.jobs.lookup job.jobId) = some job := by
    rw [← stored]
    change _ = (perform (.job write) ω s.world).2.jobs.lookup job.jobId
    rw [perform_lookup]
    simp [Op.update,performed,Delivery.applies]
  rw [Carried,queues]
  rcases pending_update after pending with ⟨input,rfl,rfl⟩ | ⟨cutoff,old,rfl,before,isStale,rfl⟩ |
    ⟨before,unselected⟩
  · right
    refine ⟨_,Machine.answered_self (M := System.machine) (.job (.createJob input)) rest ω found,?_⟩
    have idle : custody.phase call = .idle := by
      rcases allowed_write may with idle | ⟨_,_,_,_,impossible⟩
      · exact idle
      · cases impossible
    have reply : (perform (.job (.createJob input)) ω s.world).1 =
        .ok (createJob s.world.jobs input).1 := by
      simp [perform,performed,deliver,JobWrite.run]
    rw [custody_advance,System.machine_perform,idle,reply]
    simp [Custody.next,Custody.holds,inserted]
  · obtain ⟨sameQueue,sameHolders⟩ := reachable_reset (s := s) old
    have awaiting : s.awaits index = some (.job (.resetStaleJobs cutoff)) :=
      State.awaits_eq_some.mpr ⟨call,rest,found,awaits⟩
    have present : s.world.jobs.lookup old.jobId = some old := before
    have kept := requeued old (Collection.lookup_mem present)
      (by simp [resets,awaiting,performed,Delivery.applies,present,isStale])
    rcases (reachable_iff custodial.followed).mp kept with inQueue | ⟨other,member,holds⟩
    · left
      exact sameQueue.trans inQueue
    · rcases Machine.answered_keeps (M := System.machine) found member with rfl | remains
      · obtain ⟨_,impossible⟩ := write_holds may holds
        cases impossible
      · right
        exact ⟨other,remains,(sameHolders _).trans holds⟩
  · rcases custodial.reachable before pending with inQueue | ⟨other,member,holds⟩
    · exact .inl inQueue
    · rcases Machine.answered_keeps (M := System.machine) found member with rfl | remains
      · obtain ⟨now,rfl⟩ := write_holds may holds
        simp [JobWrite.selects,claimable,pending] at unselected
      · exact .inr ⟨other,remains,holds⟩

theorem dead_stays (op : Op) (ω : Oracle) (stored : s.world.jobs.lookup job.jobId = some job)
    (dead : job.status = .dead) : ∃ later,
      (perform op ω s.world).2.jobs.lookup job.jobId = some later ∧ later.status = .dead := by
  rw [perform_lookup,stored]
  cases op with
  | job write =>
    simp only [Op.update]
    split
    · simp only [JobWrite.update]
      refine ⟨_,rfl,?_⟩
      split
      · rename_i selected
        cases write with
        | markDead => rfl
        | createJob => exact dead
        | _ => simp [JobWrite.selects,claimable,runningAt,isPending,stale,dead] at selected
      · exact dead
    · exact ⟨job,rfl,dead⟩
  | _ => exact ⟨job,rfl,dead⟩

/-- While store calls succeed, calls with something in their hands are answered. -/
theorem custody_answers (followed : custody.Followed s) (calm : undisturbed label = true) :
    custody.Answers s label := by
  cases label with
  | submit | environment => trivial
  | crash => cases calm
  | resume index ω =>
    intro call op rest found awaits
    have performed := undisturbed_performed calm
    have may := followed.allowed found awaits
    change Custody.answers (custody.phase call) op (perform op ω s.world).1
    change Custody.allowed (custody.phase call) op at may
    cases phase : custody.phase call with
    | idle => trivial
    | _ =>
      rw [phase] at may
      cases op <;> first
        | exact False.elim may
        | (simp only [perform,performed,deliver]; exact ⟨_,rfl⟩)

theorem cancelled_answered (custodial : Custodial s) {other : SystemCall} {jobId : String}
    (member : other ∈ (System.machine.answered s index call op rest ω).calls)
    (removing : custody.phase other = .removing jobId) :
    ∃ job, (perform op ω s.world).2.jobs.lookup jobId = some job ∧ job.status = .dead := by
  rcases Machine.answered_cases member with old | rfl | ⟨request,_,rfl⟩
  · obtain ⟨job,stored,dead⟩ := custodial.cancelled other old jobId removing
    obtain rfl : job.jobId = jobId := Collection.lookup_key stored
    exact dead_stays op ω stored dead
  · rw [custody_advance,System.machine_perform] at removing
    obtain ⟨idle,rfl⟩ := next_removing removing
    rw [idle] at removing
    rcases reply : (perform (.job (.cancelJob jobId)) ω s.world).1 with e | (_ | job)
    · rw [reply] at removing; cases removing
    · rw [reply] at removing; cases removing
    · exact ⟨job,cancelJob_replies reply⟩
  · rw [custody_accept] at removing
    cases request <;> cases removing

theorem kept_answered (custodial : Custodial s) (requeued : Requeued s (.resume index ω))
    (found : s.calls[index]? = some call) (awaits : call.program = .await op rest)
    (performed : ω.delivery = .performed)
    (followed : custody.Followed (System.machine.answered s index call op rest ω)) :
    NoLostJob (System.machine.answered s index call op rest ω) := by
  intro job member pending
  have stored := Collection.lookup_of_mem member
  apply (reachable_iff followed).mpr
  by_cases writes : ∃ write, op = .job write
  · obtain ⟨write,rfl⟩ := writes
    exact handover_write custodial requeued found awaits performed stored pending
  · have other : ∀ write, op ≠ .job write := fun write same => writes ⟨write,same⟩
    refine handover custodial found awaits performed other ?_ pending
    rw [← stored]
    change _ = (perform op ω s.world).2.jobs.lookup job.jobId
    rw [perform_lookup]
    cases op with
    | job write => exact absurd rfl (other write)
    | _ => rfl

theorem custodial_step (custodial : Custodial s) (calm : undisturbed label = true)
    (requeued : Requeued s label) : Custodial (System.machine.step s label) := by
  have answers := custody_answers custodial.followed calm
  have moves := System.machine.step_moves s label
  have followed := Protocol.followed_moves moves answers custodial.followed
  generalize System.machine.step s label = t at moves followed ⊢
  cases moves with
  | idle | absent => exact custodial
  | crash => cases calm
  | submit request =>
    refine ⟨followed,?_,?_⟩
    · intro call member jobId removing
      rcases List.mem_append.mp member with old | new
      · exact custodial.cancelled call old jobId removing
      · obtain rfl := List.mem_singleton.mp new
        rw [custody_accept] at removing
        cases request <;> cases removing
    · intro job member pending
      apply (reachable_iff followed).mpr
      refine (custodial.reachable (Collection.lookup_of_mem member) pending).imp id ?_
      rintro ⟨call,present,holds⟩
      exact ⟨call,List.mem_append_left _ present,holds⟩
  | answer index ω call op rest found awaits =>
    have performed := undisturbed_performed calm
    exact ⟨followed,fun other member jobId removing => cancelled_answered custodial member removing,
      kept_answered custodial requeued found awaits performed followed⟩
  | environment event =>
    cases event with
    | expireJobs => cases calm
    | giveUp => exact ⟨followed,custodial.cancelled,custodial.kept⟩

/-- A reset queues nothing and no call takes its documents into custody. -/
theorem requeued_of_kept (custodial : Custodial s)
    (kept : NoLostJob (System.machine.step s label)) : Requeued s label := by
  intro job member reset
  have issued := reset
  unfold resets at reset
  split at reset
  · rename_i index ω
    split at reset
    · rename_i cutoff awaiting
      obtain ⟨call,rest,found,awaits⟩ := State.awaits_eq_some.mp awaiting
      have stored := Collection.lookup_of_mem member
      obtain ⟨applies,selected⟩ : ω.delivery.applies = true ∧ stale cutoff job = true := by
        simpa [stored] using reset
      have moved : System.machine.step s (.resume index ω) =
          System.machine.answered s index call (.job (.resetStaleJobs cutoff)) rest ω := by
        simp [Machine.step,found,awaits]
      rw [moved] at kept
      have after : (perform (.job (.resetStaleJobs cutoff)) ω s.world).2.jobs.lookup job.jobId =
          some (JobRepository.reset job) := by
        rw [perform_lookup,stored]
        simp [Op.update,applies,JobWrite.update,JobWrite.selects,selected,JobWrite.change]
      obtain ⟨sameQueue,sameHolders⟩ := reachable_reset (s := s) job
      have still := kept _ (Collection.lookup_mem after) rfl
      rw [reachable,Bool.or_eq_true_iff] at still ⊢
      refine still.imp (fun inQueue => ?_) fun inHands => ?_
      · rw [← sameQueue]
        simpa [queued,Machine.answered,perform_sortedSets,Op.requeue] using inQueue
      · obtain ⟨other,present,holds⟩ := List.any_eq_true.mp inHands
        obtain ⟨_,holds⟩ := Bool.and_eq_true_iff.mp holds
        rw [sameHolders] at holds
        rcases Machine.answered_cases present with old | rfl | ⟨request,started,_⟩
        · exact (held_iff custodial.followed).mpr ⟨other,old,holds⟩
        · rcases allowed_write (custodial.followed.allowed found awaits) with idle | impossible
          · rw [custody_advance,idle] at holds
            cases holds
          · obtain ⟨_,_,_,_,impossible⟩ := impossible
            cases impossible
        · cases started
    · cases reset
  · cases reset

theorem kept_run (custodial : Custodial s) (calm : ∀ label ∈ labels, undisturbed label = true) :
    (∀ t, System.machine.Reached s labels t → NoLostJob t) ↔
      System.machine.Along Requeued s labels := by
  refine Machine.reached_iff_along Custodial (fun s custodial => custodial.kept) ?_ ?_ calm custodial
  · exact fun s label _ custodial kept => requeued_of_kept custodial kept
  · exact fun s label calmNow custodial requeued => custodial_step custodial calmNow requeued

theorem custodial_initial : Custodial (initial World.empty) where
  followed := custody.followed_initial World.empty
  cancelled call member := by cases member
  kept job member := by cases member

/-- While nothing crashes or fails, pending jobs stay reachable if and only if every
document that a stale reset restores is. -/
theorem no_lost_job (labels : List SystemLabel) (calm : ∀ label ∈ labels, undisturbed label = true) :
    (∀ t, System.machine.Reached (initial World.empty) labels t → NoLostJob t) ↔
      System.machine.Along Requeued (initial World.empty) labels :=
  kept_run custodial_initial calm

def stranded : List SystemLabel :=
  [.submit (.enqueue reportRequest)] ++ drive 0 3 0 ++ [.submit (.tick "a" 0)] ++ drive 1 9 0 ++
  drive 2 17 0 ++ [.submit .watchdogTick] ++ drive 3 2 400000

theorem reset_report_lost :
    ¬ ∀ labels, (∀ label ∈ labels, undisturbed label = true) →
      ∀ t, System.machine.Reached (initial World.empty) labels t → NoLostJob t := by
  intro kept
  have last := kept stranded (by decide +kernel) _ ⟨stranded,List.prefix_rfl,rfl⟩
  exact absurd last (by decide +kernel)

/-- Had the same request been enqueued again before the reset, the job would be kept. -/
theorem no_lost_job_reenqueued :
    let labels := [.submit (.enqueue reportRequest)] ++ drive 0 3 0 ++ [.submit (.tick "a" 0)] ++
      drive 1 9 0 ++ drive 2 17 0 ++ [.submit (.enqueue reportRequest)] ++ drive 3 3 400000 ++
      [.submit .watchdogTick] ++ drive 4 2 400000
    (∀ t, System.machine.Reached (initial World.empty) labels t → NoLostJob t) ↔
      System.machine.Along Requeued (initial World.empty) labels :=
  no_lost_job _ (by decide +kernel)

end JobScheduler
