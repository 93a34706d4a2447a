import JobScheduler.System

/-! A dequeue that no other client interrupts takes the first due members of its queue
away and touches nothing else. -/
namespace JobScheduler

/-- No call to Redis fails. -/
def RedisAnswers (oracles : Nat → Oracle) : Prop := ∀ n, (oracles n).delivery = .performed

theorem calm_answers : RedisAnswers (calm ·) := fun _ => rfl

namespace World

variable (w : World) (jobType : JobType) (nowMs : Int)

def due : List (Entry String) := (w.sortedSets (queueKeyMap jobType)).within 0 nowMs

def dueIds : List String := (w.due jobType nowMs).map Entry.member

def without (ids : List String) : World :=
  w.updateSet (queueKeyMap jobType) ((w.sortedSets (queueKeyMap jobType)).zrem ids).2

variable {w jobType nowMs}

theorem dueIds_unique : (w.dueIds jobType nowMs).Nodup := SortedSet.within_unique ..

@[simp] theorem without_sortedSets (ids : List String) (key : String) :
    (w.without jobType ids).sortedSets key = if key = queueKeyMap jobType then
      ((w.sortedSets (queueKeyMap jobType)).zrem ids).2 else w.sortedSets key := rfl

@[simp] theorem without_nil : w.without jobType [] = w := by
  have same : (fun other => if other = queueKeyMap jobType then
      ((w.sortedSets (queueKeyMap jobType)).zrem []).2 else w.sortedSets other) = w.sortedSets := by
    funext other
    split
    · rename_i key
      rw [key,SortedSet.zrem_nil]
    · rfl
  rw [without,updateSet,same]

theorem zrangebyscore_due (count : Nat) :
    (w.sortedSets (queueKeyMap jobType)).zrangebyscore 0 nowMs 0 count =
      (w.dueIds jobType nowMs).take count := List.map_take

theorem dueIds_without_first (count : Nat) :
    (w.without jobType ((w.dueIds jobType nowMs).take count)).dueIds jobType nowMs =
      (w.dueIds jobType nowMs).drop count := by
  rw [dueIds,due,without_sortedSets,if_pos rfl,← zrangebyscore_due,SortedSet.within_zrem_first,
    List.map_drop]
  rfl

theorem without_other {other : JobType} (ids : List String) (different : other ≠ jobType) :
    (w.without jobType ids).sortedSets (queueKeyMap other) = w.sortedSets (queueKeyMap other) := by
  rw [without_sortedSets,if_neg fun same => different (queueKeyMap_injective same)]

/-- What consecutive dequeues at these times, of these counts, take and leave. -/
def drawn (jobType : JobType) : List (Int × Nat) → World → List String × World
  | [], w => ([],w)
  | (nowMs,count) :: rounds, w =>
    let ids := (w.dueIds jobType nowMs).take count
    let later := drawn jobType rounds (w.without jobType ids)
    (ids ++ later.1,later.2)

@[simp] theorem drawn_nil : drawn jobType [] w = ([],w) := rfl

theorem drawn_cons (count : Nat) (rounds : List (Int × Nat)) :
    drawn jobType ((nowMs,count) :: rounds) w =
      ((w.dueIds jobType nowMs).take count ++
          (drawn jobType rounds (w.without jobType ((w.dueIds jobType nowMs).take count))).1,
        (drawn jobType rounds (w.without jobType ((w.dueIds jobType nowMs).take count))).2) := rfl

theorem without_entries (ids : List String) :
    ((w.without jobType ids).sortedSets (queueKeyMap jobType)).entries =
      (w.sortedSets (queueKeyMap jobType)).entries.filter fun e => e.member ∉ ids := by
  rw [without_sortedSets,if_pos rfl]
  rfl

end World

namespace RedisJobQueue

/-- The dequeues of a single client, one after the other. -/
def dequeues (jobType : JobType) : List (Int × Nat) → Async (List String)
  | [] => pure []
  | (nowMs,count) :: rounds => do
    let jobIds ← dequeue jobType nowMs count
    let later ← dequeues jobType rounds
    pure (jobIds ++ later)

variable {oracles : Nat → Oracle} {w : World}

theorem dequeue_run (answers : RedisAnswers oracles) (jobType : JobType) (nowMs : Int)
    (count : Nat) :
    ∃ rest, RedisAnswers rest ∧ Program.eval perform (dequeue jobType nowMs count) oracles w =
      ⟨.ok ((w.dueIds jobType nowMs).take count),rest,
        w.without jobType ((w.dueIds jobType nowMs).take count)⟩ := by
  have read : perform (.zrangebyscore (queueKeyMap jobType) 0 nowMs 0 count) (oracles 0) w =
      (.ok (some ((w.dueIds jobType nowMs).take count)),w) := by
    simp only [perform,answers 0,World.zrangebyscore_due]
  rw [dequeue,Program.eval_answered (congrArg Prod.fst read),read]
  generalize (w.dueIds jobType nowMs).take count = ids
  cases ids with
  | nil =>
    refine ⟨fun n => oracles (n + 1),fun n => answers (n + 1),?_⟩
    rw [World.without_nil]
    rfl
  | cons id ids =>
    have removed : perform (.zrem (queueKeyMap jobType) (id :: ids)) (oracles 1) w =
        (.ok ((w.sortedSets (queueKeyMap jobType)).zrem (id :: ids)).1,
          w.without jobType (id :: ids)) := by
      simp only [perform,answers 1,deliver,World.without]
    refine ⟨fun n => oracles (n + 2),fun n => answers (n + 2),?_⟩
    have filled : (id :: ids).length ≠ 0 := Nat.succ_ne_zero _
    dsimp only [Option.getD_some]
    rw [if_neg filled,Program.eval_answered (congrArg Prod.fst removed),
      removed]
    rfl

theorem dequeues_run (answers : RedisAnswers oracles) (jobType : JobType)
    (rounds : List (Int × Nat)) :
    ∃ rest, RedisAnswers rest ∧ Program.eval perform (dequeues jobType rounds) oracles w =
      ⟨.ok (World.drawn jobType rounds w).1,rest,(World.drawn jobType rounds w).2⟩ := by
  induction rounds generalizing oracles w with
  | nil => exact ⟨oracles,answers,rfl⟩
  | cons round rounds ih =>
    obtain ⟨nowMs,count⟩ := round
    obtain ⟨rest,answering,ran⟩ := dequeue_run answers jobType nowMs count (w := w)
    obtain ⟨last,still,later⟩ := ih answering
      (w := w.without jobType ((w.dueIds jobType nowMs).take count))
    refine ⟨last,still,?_⟩
    rw [dequeues,Program.eval_bind,ran]
    dsimp only [Program.Ran.thenEval]
    rw [Program.eval_bind,later]
    rfl

end RedisJobQueue

def reportDue : World :=
  World.empty.updateSet (queueKeyMap .scheduledReport) (SortedSet.empty.put 0 reportId)

end JobScheduler
