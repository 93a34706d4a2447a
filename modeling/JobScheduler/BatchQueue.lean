import Mathlib.Data.List.Sort
import Mathlib.Data.Nat.Count

/-! Queues that are worked off in batches. The budget of a place is the number of tries
that its item has left, zero once the item is settled. A pass tries the first items that
are not settled. How long an item waits then depends on the items ahead of it only,
whatever becomes of the tries and whatever joins the queue behind it. -/
namespace JobScheduler

/-- Items ahead of the place that are not settled. -/
def waiting (budget : Nat → Nat) (place : Nat) : Nat := Nat.count (fun i => 0 < budget i) place

/-- A pass over the first `size` places. Each try costs its item at least one of its budget. -/
structure BatchPass (batch size : Nat) (before after : Nat → Nat) : Prop where
  spends : ∀ place < size, after place ≤ before place
  tries : ∀ place < size, waiting before place < batch → 0 < before place →
    after place < before place

inductive BatchPasses (batch size : Nat) : Nat → (Nat → Nat) → (Nat → Nat) → Prop where
  | none {before after : Nat → Nat} (same : ∀ place < size, after place = before place) :
      BatchPasses batch size 0 before after
  | pass {n : Nat} {first before after : Nat → Nat} (passes : BatchPasses batch size n first before)
      (last : BatchPass batch size before after) : BatchPasses batch size (n + 1) first after

namespace BatchPasses

variable {batch size m n limit place : Nat} {before after : Nat → Nat}

theorem split (passes : BatchPasses batch size (m + n) before after) :
    ∃ mid, BatchPasses batch size m before mid ∧ BatchPasses batch size n mid after := by
  induction n generalizing after with
  | zero => exact ⟨after,passes,.none fun _ _ => rfl⟩
  | succ n ih =>
    cases passes with
    | pass passes last =>
      obtain ⟨mid,first,rest⟩ := ih passes
      exact ⟨mid,first,.pass rest last⟩

theorem spends (passes : BatchPasses batch size n before after) (inside : place < size) :
    after place ≤ before place := by
  induction passes with
  | none same => exact Nat.le_of_eq (same place inside)
  | pass _ last ih => exact (last.spends place inside).trans ih

/-- What joins the queue behind the first `size` places does not count. -/
theorem joined {later : Nat → Nat} (passes : BatchPasses batch size n before after)
    (same : ∀ place < size, later place = after place) : BatchPasses batch size n before later := by
  cases passes with
  | none kept => exact .none fun place inside => (same place inside).trans (kept place inside)
  | pass passes last =>
    refine .pass passes ⟨fun place inside => ?_,fun place inside within left => ?_⟩
    · exact (same place inside).trans_le (last.spends place inside)
    · exact (same place inside).trans_lt (last.tries place inside within left)

theorem waiting_le (passes : BatchPasses batch size n before after) (inside : place ≤ size) :
    waiting after place ≤ waiting before place :=
  Nat.count_mono_left fun _ ahead left =>
    Nat.lt_of_lt_of_le left (passes.spends (Nat.lt_of_lt_of_le ahead inside))

theorem tried (passes : BatchPasses batch size n before after) (inside : place < size)
    (within : waiting before place < batch) : after place ≤ before place - n := by
  induction passes with
  | none same => exact Nat.le_of_eq (same place inside)
  | @pass _ _ mid _ earlier last ih =>
    have still : waiting mid place < batch :=
      Nat.lt_of_le_of_lt (earlier.waiting_le (Nat.le_of_lt inside)) within
    have spent := last.spends place inside
    by_cases left : 0 < mid place
    · have less := last.tries place inside still left
      omega
    · omega

/-- Once the budgets are used up, the whole batch is gone from the queue. -/
theorem waiting_drop (passes : BatchPasses batch size limit before after)
    (bounded : ∀ i < size, before i ≤ limit) (inside : place ≤ size) :
    waiting after place ≤ waiting before place - batch := by
  induction place with
  | zero => exact Nat.zero_le _
  | succ place ih =>
    have ahead := ih (Nat.le_of_succ_le inside)
    have spent : after place ≤ before place := passes.spends inside
    have limited := bounded place inside
    simp only [waiting] at ahead ⊢
    rw [Nat.count_succ,Nat.count_succ]
    by_cases left : 0 < after place
    · by_cases within : waiting before place < batch
      · have gone := passes.tried inside within
        omega
      · simp only [waiting] at within
        rw [if_pos left,if_pos (Nat.lt_of_lt_of_le left spent)]
        omega
    · rw [if_neg left]
      split <;> omega

/-- An item with fewer than `batch * n` items ahead of it is settled after `limit * n`
passes. -/
theorem settled (passes : BatchPasses batch size (limit * n) before after)
    (bounded : ∀ i < size, before i ≤ limit) (inside : place < size)
    (ahead : waiting before place < batch * n) : after place = 0 := by
  induction n generalizing before with
  | zero => exact absurd ahead (Nat.not_lt_zero _)
  | succ n ih =>
    rw [Nat.mul_succ,Nat.add_comm] at passes
    obtain ⟨mid,first,rest⟩ := passes.split
    have spent := rest.spends inside
    by_cases within : waiting before place < batch
    · have gone := first.tried inside within
      have limited := bounded place inside
      omega
    · apply ih rest
      · intro i inside
        exact (first.spends inside).trans (bounded i inside)
      · have drop := first.waiting_drop bounded (Nat.le_of_lt inside)
        rw [Nat.mul_succ] at ahead
        omega

end BatchPasses

section Lists

variable {α : Type} (left : α → Nat)

def budgets (l : List α) (place : Nat) : Nat := (l[place]?.map left).getD 0

theorem waiting_budgets {l : List α} (place : Nat) :
    waiting (budgets left l) place = (l.take place).countP fun a => 0 < left a := by
  induction place with
  | zero => rfl
  | succ place ih =>
    simp only [waiting] at ih ⊢
    rw [Nat.count_succ,ih,List.take_add_one,List.countP_append]
    cases found : l[place]? with
    | none => simp [budgets,found]
    | some a => simp [budgets,found,List.countP_singleton]

theorem mem_batch {keep : α → Bool} {l : List α} {place batch : Nat} {a : α}
    (found : l[place]? = some a) (kept : keep a = true)
    (ahead : (l.take place).countP keep < batch) : a ∈ (l.filter keep).take batch := by
  obtain ⟨inside,rfl⟩ := List.getElem?_eq_some_iff.mp found
  have parts : l.filter keep = (l.take place).filter keep ++
      l[place] :: (l.drop (place + 1)).filter keep := by
    conv_lhs => rw [← List.take_append_drop place l,List.filter_append,
      List.drop_eq_getElem_cons inside,List.filter_cons_of_pos kept]
  rw [parts,List.take_append,← List.countP_eq_length_filter]
  apply List.mem_append_right
  obtain ⟨n,more⟩ : ∃ n, batch - (l.take place).countP keep = n + 1 :=
    Nat.exists_eq_succ_of_ne_zero (Nat.sub_ne_zero_of_lt ahead)
  rw [more,List.take_succ_cons]
  exact List.mem_cons_self

/-- A pass over a list that tries each item of the first batch and keeps the others. -/
theorem batchPass_map {batch size : Nat} {l : List α} {f : α → α} (inside : size ≤ l.length)
    (kept : ∀ a ∈ l, left (f a) ≤ left a)
    (tried : ∀ a ∈ (l.filter fun a => 0 < left a).take batch, left (f a) < left a) :
    BatchPass batch size (budgets left l) (budgets left (l.map f)) := by
  have at_place : ∀ place < size, ∃ a ∈ l, l[place]? = some a ∧
      budgets left l place = left a ∧ budgets left (l.map f) place = left (f a) := by
    intro place bound
    have short := Nat.lt_of_lt_of_le bound inside
    refine ⟨l[place],List.getElem_mem short,List.getElem?_eq_getElem short,?_,?_⟩
    all_goals simp [budgets,short]
  constructor
  · intro place bound
    obtain ⟨a,member,_,before,after⟩ := at_place place bound
    rw [before,after]
    exact kept a member
  · intro place bound within remains
    obtain ⟨a,_,found,before,after⟩ := at_place place bound
    rw [before] at remains
    rw [waiting_budgets] at within
    rw [before,after]
    exact tried a (mem_batch found (decide_eq_true remains) within)

theorem budgets_append {l more : List α} {place : Nat} (inside : place < l.length) :
    budgets left (l ++ more) place = budgets left l place := by
  simp [budgets,List.getElem?_append_left inside]

end Lists

section Sorting

variable {α : Type} (r : α → α → Prop) [DecidableRel r]

theorem filter_orderedInsert [IsTrans α r] (keep : α → Bool) (a : α) {l : List α}
    (sorted : l.Pairwise r) :
    (l.orderedInsert r a).filter keep =
      if keep a then (l.filter keep).orderedInsert r a else l.filter keep := by
  induction l with
  | nil => cases kept : keep a <;> simp [kept]
  | cons b l ih =>
    obtain ⟨first,rest⟩ := List.pairwise_cons.mp sorted
    have tail := ih rest
    by_cases before : r a b
    · cases kept : keep a with
      | false => simp [before,kept]
      | true =>
        have least : ∀ c ∈ (b :: l).filter keep, r a c := by
          intro c member
          rcases List.mem_cons.mp (List.mem_of_mem_filter member) with rfl | later
          · exact before
          · exact IsTrans.trans a b c before (first c later)
        rw [List.orderedInsert_cons_of_le r l before,List.filter_cons_of_pos kept,if_pos rfl]
        cases filtered : (b :: l).filter keep with
        | nil => rfl
        | cons c rest =>
          rw [filtered] at least
          exact (List.orderedInsert_cons_of_le r rest (least c List.mem_cons_self)).symm
    · rw [List.orderedInsert_of_not_le r l before]
      cases kept : keep b with
      | false => simp only [List.filter_cons_of_neg (Bool.eq_false_iff.mp kept),tail]
      | true =>
        simp only [List.filter_cons_of_pos kept,tail]
        split
        · rw [List.orderedInsert_of_not_le r _ before]
        · rfl

/-- Sorting is stable enough to commute with a filter. -/
theorem filter_insertionSort [IsTrans α r] [Std.Total r] (keep : α → Bool) (l : List α) :
    (l.insertionSort r).filter keep = (l.filter keep).insertionSort r := by
  induction l with
  | nil => rfl
  | cons a l ih =>
    rw [List.insertionSort_cons,filter_orderedInsert r keep a (List.pairwise_insertionSort r l),ih]
    cases kept : keep a <;> simp [kept]

/-- What is nowhere before the rest joins behind it. -/
theorem insertionSort_append {l more : List α} (behind : ∀ a ∈ l, ∀ b ∈ more, r a b) :
    (l ++ more).insertionSort r = l.insertionSort r ++ more.insertionSort r := by
  induction l with
  | nil => rfl
  | cons a l ih =>
    have rest := ih fun b member => behind b (List.mem_cons_of_mem a member)
    have first : ∀ b ∈ more.insertionSort r, r a b := fun b member =>
      behind a List.mem_cons_self b ((List.mem_insertionSort r).mp member)
    rw [List.cons_append,List.insertionSort_cons,rest,List.insertionSort_cons]
    generalize l.insertionSort r = sorted
    induction sorted with
    | nil =>
      cases late : more.insertionSort r with
      | nil => rfl
      | cons b later =>
        rw [late] at first
        exact List.orderedInsert_cons_of_le r later (first b List.mem_cons_self)
    | cons c sorted tail =>
      by_cases before : r a c
      · simp [before]
      · simpa [before] using tail

end Sorting

end JobScheduler
