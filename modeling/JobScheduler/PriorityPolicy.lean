import JobScheduler.Dequeue

/-! The priority policy: a tick takes one prefix of the due ids of all queues, listed
queue by queue in the poll order. -/
namespace JobScheduler

def Op.dispatched : Op → List (JobType × String)
  | .dispatch _ jobIds jobType => jobIds.map fun jobId => (jobType,jobId)
  | _ => []

namespace World

variable (w : World) (nowMs : Int)

def dueList (jobTypes : List JobType) : List (JobType × String) :=
  jobTypes.flatMap fun jobType => (w.dueIds jobType nowMs).map fun jobId => (jobType,jobId)

/-- The ids that the policy selects with so many jobs in flight. -/
def chosen (activeJobs : Nat) : List (JobType × String) :=
  if maxConcurrentJobs - activeJobs < minFreeSlots then []
  else (w.dueList nowMs PollLoop.pollOrder).take (min (maxConcurrentJobs - activeJobs) pollBatchSize)

def Takes (taken : List (JobType × String)) (after : World) : Prop :=
  ∀ jobType, (after.sortedSets (queueKeyMap jobType)).entries =
    (w.sortedSets (queueKeyMap jobType)).entries.filter fun e => (jobType,e.member) ∉ taken

variable {w nowMs}

theorem dueList_cons (jobType : JobType) (rest : List JobType) :
    w.dueList nowMs (jobType :: rest) =
      (w.dueIds jobType nowMs).map (fun jobId => (jobType,jobId)) ++ w.dueList nowMs rest :=
  List.flatMap_cons

theorem dueList_nodup {jobTypes : List JobType} (distinct : jobTypes.Nodup) :
    (w.dueList nowMs jobTypes).Nodup := by
  refine List.nodup_flatMap.mpr ⟨fun jobType _ => ?_,?_⟩
  · exact dueIds_unique.map fun a b same => (Prod.mk.inj same).2
  · refine distinct.imp fun different pair first second => ?_
    obtain ⟨_,-,rfl⟩ := List.mem_map.mp first
    obtain ⟨_,-,same⟩ := List.mem_map.mp second
    exact different (Prod.mk.inj same).1.symm

theorem takes_nothing : w.Takes [] w := by
  simp [Takes]

theorem Takes.trans {first second : List (JobType × String)} {middle after : World}
    (before : w.Takes first middle) (later : middle.Takes second after) :
    w.Takes (first ++ second) after := by
  intro jobType
  rw [later jobType,before jobType,List.filter_filter]
  simp only [List.mem_append,not_or,Bool.decide_and,Bool.and_comm]

theorem takes_without (jobType : JobType) (ids : List String) :
    w.Takes (ids.map fun jobId => (jobType,jobId)) (w.without jobType ids) := by
  intro other
  by_cases same : other = jobType
  · subst same
    simp [SortedSet.zrem,SortedSet.restrict]
  · rw [without_other ids same]
    have different : jobType ≠ other := Ne.symm same
    simp [different]

theorem dueList_without {jobType : JobType} {rest : List JobType} (ids : List String)
    (absent : jobType ∉ rest) : (w.without jobType ids).dueList nowMs rest = w.dueList nowMs rest := by
  refine List.flatMap_congr fun other listed => ?_
  have different : other ≠ jobType := fun same => absent (same ▸ listed)
  rw [dueIds,due,without_other ids different,dueIds,due]

/-- What a budget takes of a list of queues, queue by queue. -/
theorem take_dueList (jobType : JobType) (rest : List JobType) (budget : Nat) :
    (w.dueList nowMs (jobType :: rest)).take budget =
      ((w.dueIds jobType nowMs).take budget).map (fun jobId => (jobType,jobId)) ++
        (w.dueList nowMs rest).take (budget - ((w.dueIds jobType nowMs).take budget).length) := by
  have left : budget - (w.dueIds jobType nowMs).length =
      budget - ((w.dueIds jobType nowMs).take budget).length := by
    rw [List.length_take]
    omega
  rw [dueList_cons,List.take_append,List.length_map,left,List.map_take]

theorem covered {jobTypes : List JobType} (distinct : jobTypes.Nodup) {higher lower : JobType}
    (before : [higher,lower].Sublist jobTypes) {budget : Nat} {jobId : String}
    (taken : (lower,jobId) ∈ (w.dueList nowMs jobTypes).take budget) :
    ∀ other ∈ w.dueIds higher nowMs, (higher,other) ∈ (w.dueList nowMs jobTypes).take budget := by
  intro other due
  induction jobTypes generalizing budget with
  | nil => cases before
  | cons jobType rest ih =>
    obtain ⟨absent,distinct⟩ := List.nodup_cons.mp distinct
    have later : lower ∈ rest := by
      cases before with
      | cons _ below => exact below.subset (by simp)
      | cons_cons _ below => exact below.subset (by simp)
    rw [take_dueList,List.mem_append] at taken ⊢
    rcases taken with own | taken
    · obtain ⟨_,-,same⟩ := List.mem_map.mp own
      exact absurd ((Prod.mk.inj same).1 ▸ later) absent
    · cases before with
      | cons _ below => exact .inr (ih distinct below taken)
      | cons_cons _ below =>
        refine .inl (List.mem_map.mpr ⟨other,?_,rfl⟩)
        have room : 0 < budget - ((w.dueIds higher nowMs).take budget).length := by
          rcases Nat.eq_zero_or_pos (budget - ((w.dueIds higher nowMs).take budget).length)
            with none | some
          · rw [none] at taken
            cases taken
          · exact some
        rw [List.length_take] at room
        rwa [List.take_of_length_le (by omega)]

theorem chosen_nodup {activeJobs : Nat} : (w.chosen nowMs activeJobs).Nodup := by
  rw [chosen]
  split
  · exact List.nodup_nil
  · exact (dueList_nodup (by decide)).sublist (List.take_sublist ..)

/-- After a removal of what the policy selects, no due id is left in a queue before one
that was served. -/
theorem Takes.exhausts {activeJobs : Nat} {after : World}
    (takes : w.Takes (w.chosen nowMs activeJobs) after) {higher lower : JobType} {jobId : String}
    (before : [higher,lower].Sublist PollLoop.pollOrder)
    (taken : (lower,jobId) ∈ w.chosen nowMs activeJobs) : after.dueIds higher nowMs = [] := by
  have every : ∀ other ∈ w.dueIds higher nowMs, (higher,other) ∈ w.chosen nowMs activeJobs := by
    rw [chosen] at taken ⊢
    split at taken
    · cases taken
    · rename_i room
      rw [if_neg room]
      exact covered (by decide) before taken
  refine List.map_eq_nil_iff.mpr (List.eq_nil_iff_forall_not_mem.mpr fun e due => ?_)
  obtain ⟨stays,inside⟩ := SortedSet.mem_within.mp due
  rw [takes higher,List.mem_filter,decide_eq_true_eq] at stays
  exact stays.2 (every e.member (List.mem_map_of_mem (SortedSet.mem_within.mpr ⟨stays.1,inside⟩)))

end World

namespace RedisJobQueue

theorem dequeue_silent (jobType : JobType) (nowMs : Int) (count : Nat) :
    Program.Uses (σ := signature) (fun op => op.dispatched = []) (dequeue jobType nowMs count) := by
  refine Program.Uses.bind (uses_await rfl) fun results => ?_
  dsimp only
  split
  · exact Program.uses_pure _
  · exact Program.Uses.bind (uses_await rfl) fun _ => Program.uses_pure _

end RedisJobQueue

namespace PollLoop

/-- The body of the loop over the queues, without its `catch`. -/
def takeFrom (instanceId : String) (nowMs : Int) (jobType : JobType) (slots : Nat) : Async Nat := do
  let jobIds ← RedisJobQueue.dequeue jobType nowMs slots
  if jobIds.length = 0 then pure 0
  else
    await (.dispatch instanceId jobIds jobType)
    pure jobIds.length

variable {oracles : Nat → Oracle} {w : World}

theorem takeFrom_run (answers : RedisAnswers oracles) (instanceId : String) (nowMs : Int)
    (jobType : JobType) (slots : Nat) :
    (∃ rest, RedisAnswers rest ∧
      Program.eval perform (takeFrom instanceId nowMs jobType slots) oracles w =
        ⟨.ok ((w.dueIds jobType nowMs).take slots).length,rest,
          w.without jobType ((w.dueIds jobType nowMs).take slots)⟩) ∧
    (Program.trace perform (takeFrom instanceId nowMs jobType slots) oracles w).flatMap
      Op.dispatched = ((w.dueIds jobType nowMs).take slots).map fun jobId => (jobType,jobId) := by
  obtain ⟨rest,answering,ran⟩ := RedisJobQueue.dequeue_run answers jobType nowMs slots (w := w)
  have silent : (Program.trace perform (RedisJobQueue.dequeue jobType nowMs slots) oracles w).flatMap
      Op.dispatched = [] :=
    List.flatMap_eq_nil_iff.mpr
      (Program.trace_uses (RedisJobQueue.dequeue_silent jobType nowMs slots))
  rw [takeFrom,Program.eval_bind,Program.trace_bind,List.flatMap_append,silent,ran]
  generalize (w.dueIds jobType nowMs).take slots = ids
  cases ids with
  | nil => exact ⟨⟨rest,answering,rfl⟩,rfl⟩
  | cons id ids =>
    have filled : (id :: ids).length ≠ 0 := Nat.succ_ne_zero _
    simp only [Program.Ran.thenEval,Program.Ran.thenTrace,if_neg filled,List.nil_append]
    refine ⟨⟨fun n => rest (n + 1),fun n => answering (n + 1),rfl⟩,?_⟩
    exact List.append_nil _

theorem pollQueues_cons (instanceId : String) (nowMs : Int) (jobType : JobType)
    (rest : List JobType) {budget : Nat} (positive : 0 < budget) :
    pollQueues instanceId nowMs (jobType :: rest) budget =
      MonadExcept.tryCatch (takeFrom instanceId nowMs jobType budget) (fun _ => pure 0) >>=
        fun taken => pollQueues instanceId nowMs rest (budget - taken) :=
  if_neg positive.ne'

/-- The loop over the queues takes one prefix of their list and dispatches just that. -/
theorem pollQueues_run (instanceId : String) (nowMs : Int) {jobTypes : List JobType}
    (distinct : jobTypes.Nodup) (answers : RedisAnswers oracles) (budget : Nat) :
    w.Takes ((w.dueList nowMs jobTypes).take budget)
      (Program.eval perform (pollQueues instanceId nowMs jobTypes budget) oracles w).world ∧
    (Program.trace perform (pollQueues instanceId nowMs jobTypes budget) oracles w).flatMap
      Op.dispatched = (w.dueList nowMs jobTypes).take budget := by
  induction jobTypes generalizing oracles w budget with
  | nil =>
    rw [World.dueList,List.flatMap_nil,List.take_nil]
    exact ⟨World.takes_nothing,rfl⟩
  | cons jobType rest ih =>
    obtain ⟨absent,distinct⟩ := List.nodup_cons.mp distinct
    rcases Nat.eq_zero_or_pos budget with rfl | positive
    · exact ⟨World.takes_nothing,rfl⟩
    · obtain ⟨⟨later,answering,ran⟩,dispatches⟩ :=
        takeFrom_run answers instanceId nowMs jobType budget (w := w)
      obtain ⟨evaluated,traced⟩ := Program.eval_caught (congrArg Program.Ran.result ran)
        fun _ => pure 0
      obtain ⟨takes,others⟩ := ih distinct answering
        (budget - ((w.dueIds jobType nowMs).take budget).length)
        (w := w.without jobType ((w.dueIds jobType nowMs).take budget))
      rw [World.dueList_without _ absent] at takes others
      rw [pollQueues_cons _ _ _ _ positive,Program.eval_bind,Program.trace_bind,evaluated,traced,ran,
        List.flatMap_append,dispatches,World.take_dueList]
      exact ⟨(World.takes_without _ _).trans takes,congrArg (_ ++ ·) others⟩

/-- A tick takes what the policy selects. -/
theorem tick_run (answers : RedisAnswers oracles) (instanceId : String) (activeJobs : Nat) :
    w.Takes (w.chosen (oracles 0).redisTime activeJobs)
      (Program.eval perform (tick instanceId activeJobs) oracles w).world ∧
    (Program.trace perform (tick instanceId activeJobs) oracles w).flatMap Op.dispatched =
      w.chosen (oracles 0).redisTime activeJobs := by
  by_cases full : maxConcurrentJobs - activeJobs < minFreeSlots
  · rw [World.chosen,if_pos full,tick,if_pos full]
    exact ⟨World.takes_nothing,rfl⟩
  · have read : perform .redisTime (oracles 0) w = (.ok (oracles 0).redisTime,w) := by
      simp only [perform,answers 0,deliver]
    have asked : Program.eval perform (do let nowMs ← await .redisTime; pure (some nowMs)) oracles w =
        ⟨.ok (some (oracles 0).redisTime),fun n => oracles (n + 1),w⟩ := by
      rw [Program.eval_answered (congrArg Prod.fst read),read]
      rfl
    obtain ⟨evaluated,traced⟩ := Program.eval_caught (congrArg Program.Ran.result asked)
      fun _ => pure none
    have named : Program.trace perform (do let nowMs ← await .redisTime; pure (some nowMs)) oracles w =
        [.redisTime] := Program.trace_answered (congrArg Prod.fst read)
    have polled := pollQueues_run instanceId (oracles 0).redisTime (by decide : pollOrder.Nodup)
      (fun n => answers (n + 2)) (min (maxConcurrentJobs - activeJobs) pollBatchSize) (w := w)
    rw [World.chosen,if_neg full,tick,if_neg full,Program.eval_bind,Program.trace_bind,evaluated,
      traced,asked,named]
    exact polled

end PollLoop

/-- What a tick does to the queues and hands to the worker. -/
structure FollowsPriority (instanceId : String) (activeJobs : Nat) (oracles : Nat → Oracle)
    (w : World) : Prop where
  removed : w.Takes (w.chosen (oracles 0).redisTime activeJobs)
    (Program.eval perform (PollLoop.tick instanceId activeJobs) oracles w).world
  dispatched : (Program.trace perform (PollLoop.tick instanceId activeJobs) oracles w).flatMap
    Op.dispatched = w.chosen (oracles 0).redisTime activeJobs
  once : (w.chosen (oracles 0).redisTime activeJobs).Nodup
  exhausted : ∀ higher lower jobId, [higher,lower].Sublist PollLoop.pollOrder →
    (lower,jobId) ∈ w.chosen (oracles 0).redisTime activeJobs →
    (Program.eval perform (PollLoop.tick instanceId activeJobs) oracles w).world.dueIds higher
      (oracles 0).redisTime = []

/-- A tick in which Redis answers takes exactly the first due ids of the queues in their
order, as many as there is room for, and hands each to the worker once. -/
theorem tick_follows_priority (instanceId : String) (activeJobs : Nat) (oracles : Nat → Oracle)
    (w : World) (answers : RedisAnswers oracles) :
    FollowsPriority instanceId activeJobs oracles w := by
  obtain ⟨takes,dispatches⟩ := PollLoop.tick_run answers instanceId activeJobs (w := w)
  exact ⟨takes,dispatches,World.chosen_nodup,fun higher lower jobId => takes.exhausts⟩

theorem tick_follows_priority_report : FollowsPriority "a" 90 (calm ·) reportDue :=
  tick_follows_priority "a" 90 (calm ·) reportDue fun _ => rfl

example : reportDue.chosen 0 90 = [(.scheduledReport,reportId)] := by decide +kernel

end JobScheduler
