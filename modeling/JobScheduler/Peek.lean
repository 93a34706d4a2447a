import JobScheduler.Dequeue
import Mathlib

/-! The reads of a queue, and how a peek agrees with dequeues. A peek decodes the flat
reply of a range read with scores: a member, its score, the next member, and so on. -/
namespace JobScheduler

namespace SortedSet

variable {μ : Type} [LinearOrder μ]

/-- `ZCARD key` -/
def zcard (s : SortedSet μ) : Nat := s.entries.length

/-- `ZCOUNT key low high` -/
def zcount (s : SortedSet μ) (low high : Int) : Nat :=
  s.entries.countP fun e => low ≤ e.score ∧ e.score ≤ high

/-- The reply of a range read that asks for the scores. -/
def flat (entries : List (Entry String)) : List String :=
  entries.flatMap fun e => [e.member,e.score.repr]

/-- `ZRANGEBYSCORE key low high WITHSCORES LIMIT offset count` -/
def zrangebyscoreWithScores (s : SortedSet String) (low high : Int) (offset count : Nat) :
    List String :=
  flat (((s.entries.filter fun e => low ≤ e.score ∧ e.score ≤ high).drop offset).take count)

theorem zrem_zrem (s : SortedSet μ) (first second : List μ) :
    ((s.zrem first).2.zrem second).2 = (s.zrem (first ++ second)).2 := by
  cases s
  simp [zrem,restrict,List.filter_filter,Bool.and_comm]

end SortedSet

namespace RedisJobQueue

/-- One item of a peek. A score that is no number is `NaN`. -/
structure Peeked where
  jobId : String
  score : Option Int

def size (w : World) (jobType : JobType) : Nat := (w.sortedSets (queueKeyMap jobType)).zcard

def depth (w : World) (jobType : JobType) (nowMs : Int) : Nat :=
  (w.sortedSets (queueKeyMap jobType)).zcount 0 nowMs

/-- The loop of `peek` over its reply, two elements at a time. -/
def items : List String → List Peeked
  | [] => []
  | [jobId] => [⟨jobId,none⟩]
  | jobId :: score :: rest => ⟨jobId,score.toInt?⟩ :: items rest

def peek (w : World) (jobType : JobType) (nowMs : Int) (count : Nat) : List Peeked :=
  items ((w.sortedSets (queueKeyMap jobType)).zrangebyscoreWithScores 0 nowMs 0 count)

def item (e : Entry String) : Peeked := ⟨e.member,some e.score⟩

theorem items_flat (entries : List (Entry String)) :
    items (SortedSet.flat entries) = entries.map item := by
  induction entries with
  | nil => rfl
  | cons e entries ih =>
    have unfolded : items (SortedSet.flat (e :: entries)) =
        ⟨e.member,e.score.repr.toInt?⟩ :: items (SortedSet.flat entries) := rfl
    rw [unfolded,ih,Int.toInt?_repr]
    rfl

theorem peek_eq (w : World) (jobType : JobType) (nowMs : Int) (count : Nat) :
    peek w jobType nowMs count = ((w.due jobType nowMs).take count).map item :=
  items_flat _

theorem peek_jobIds (w : World) (jobType : JobType) (nowMs : Int) (count : Nat) :
    (peek w jobType nowMs count).map Peeked.jobId = (w.dueIds jobType nowMs).take count := by
  rw [peek_eq,List.map_map,World.dueIds,List.map_take]
  rfl

theorem depth_eq (w : World) (jobType : JobType) (nowMs : Int) :
    depth w jobType nowMs = (w.dueIds jobType nowMs).length := by
  rw [World.dueIds,List.length_map]
  exact List.countP_eq_length_filter

end RedisJobQueue

namespace World

variable {w : World} {jobType : JobType} {nowMs : Int}

theorem without_without (first second : List String) :
    (w.without jobType first).without jobType second = w.without jobType (first ++ second) := by
  have same : ((w.without jobType first).without jobType second).sortedSets =
      (w.without jobType (first ++ second)).sortedSets := by
    funext key
    by_cases own : key = queueKeyMap jobType
    · simp [own,SortedSet.zrem_zrem]
    · simp [own]
  exact congrArg (fun sets => { w with sortedSets := sets }) same

/-- Dequeues at one time take together what one dequeue of their sum takes. -/
theorem drawn_together (counts : List Nat) :
    drawn jobType (counts.map fun count => (nowMs,count)) w =
      ((w.dueIds jobType nowMs).take counts.sum,
        w.without jobType ((w.dueIds jobType nowMs).take counts.sum)) := by
  induction counts generalizing w with
  | nil => simp
  | cons count counts ih =>
    rw [List.map_cons,drawn_cons,ih,dueIds_without_first,without_without,List.sum_cons,List.take_add]

end World

open RedisJobQueue

/-- In order of the scores, and of the ids where two scores are the same. -/
def RedisJobQueue.Peeked.Before (a b : Peeked) : Prop :=
  ∃ first second, a.score = some first ∧ b.score = some second ∧
    (first < second ∨ first = second ∧ a.jobId ≤ b.jobId)

/-- Consecutive dequeues by one client, with the items that a peek has shown before. -/
structure PeekAgrees (w : World) (jobType : JobType) (nowMs : Int) (shown : List Peeked)
    (result : Except Thrown (List String)) (after : World) : Prop where
  returned : result = .ok (shown.map Peeked.jobId)
  ordered : shown.Pairwise Peeked.Before
  distinct : (shown.map Peeked.jobId).Nodup
  size : size after jobType + shown.length = size w jobType
  depth : depth after jobType nowMs + shown.length = depth w jobType nowMs
  later : ∀ jobId score, nowMs < score →
    ((after.sortedSets (queueKeyMap jobType)).score? jobId = some score ↔
      (w.sortedSets (queueKeyMap jobType)).score? jobId = some score)
  others : ∀ other, other ≠ jobType →
    after.sortedSets (queueKeyMap other) = w.sortedSets (queueKeyMap other)

section Agreement

variable {w : World} {jobType : JobType} {nowMs : Int}

theorem peek_ordered (count : Nat) : (peek w jobType nowMs count).Pairwise Peeked.Before := by
  rw [peek_eq,List.pairwise_map]
  have sorted := (SortedSet.within_sorted (w.sortedSets (queueKeyMap jobType)) 0 nowMs).sublist
    (List.take_sublist count _)
  refine sorted.imp fun {a b} below => ⟨a.score,b.score,rfl,rfl,?_⟩
  exact Prod.Lex.le_iff.mp below

theorem peek_length (count : Nat) :
    (peek w jobType nowMs count).length = ((w.dueIds jobType nowMs).take count).length := by
  rw [← peek_jobIds,List.length_map]

theorem score_without_first {count : Nat} {jobId : String} {score : Int} (early : nowMs < score) :
    ((w.without jobType ((w.dueIds jobType nowMs).take count)).sortedSets
        (queueKeyMap jobType)).score? jobId = some score ↔
      (w.sortedSets (queueKeyMap jobType)).score? jobId = some score := by
  rw [World.without_sortedSets,if_pos rfl,← World.zrangebyscore_due]
  simp only [SortedSet.score?_eq_some]
  exact SortedSet.mem_zrem_first (.inr early)

end Agreement

/-- Batched dequeue agrees with peek: dequeues in any split of a batch return what a peek of
the whole batch showed, and take just that out of the queue. -/
theorem dequeues_agree_with_peek (w : World) (jobType : JobType) (nowMs : Int)
    (counts : List Nat) (oracles : Nat → Oracle) (answers : RedisAnswers oracles) :
    let ran := Program.eval perform
      (dequeues jobType (counts.map fun count => (nowMs,count))) oracles w
    PeekAgrees w jobType nowMs (peek w jobType nowMs counts.sum) ran.result ran.world := by
  obtain ⟨rest,-,ran⟩ := dequeues_run answers jobType (counts.map fun count => (nowMs,count)) (w := w)
  rw [ran,World.drawn_together]
  refine ⟨?_,peek_ordered _,?_,?_,?_,fun jobId score => score_without_first,?_⟩
  · rw [peek_jobIds]
  · rw [peek_jobIds]
    exact World.dueIds_unique.sublist (List.take_sublist ..)
  · have fewer := (w.sortedSets (queueKeyMap jobType)).card_zrem_first 0 nowMs counts.sum
    rw [World.zrangebyscore_due] at fewer
    rw [peek_length,size,World.without_sortedSets,if_pos rfl]
    exact (Nat.add_comm ..).trans fewer
  · rw [depth_eq,depth_eq,peek_length,World.dueIds_without_first,← List.length_append,
      (List.perm_append_comm).length_eq,List.take_append_drop]
  · intro other different
    exact World.without_other _ different

theorem dequeues_agree_with_peek_report :
    let ran := Program.eval perform
      (dequeues .scheduledReport ([1,2].map fun count => (0,count))) (calm ·) reportDue
    PeekAgrees reportDue .scheduledReport 0 (peek reportDue .scheduledReport 0 [1,2].sum) ran.result
      ran.world :=
  dequeues_agree_with_peek reportDue .scheduledReport 0 [1,2] (calm ·) fun _ => rfl

end JobScheduler
