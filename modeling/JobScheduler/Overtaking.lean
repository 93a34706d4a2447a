import Mathlib
import JobScheduler.SortedSet

/-! Places in a queue. A service that takes the first items of a part of the queue brings an
item that it leaves so many places forward; nothing but a new item before it brings it back. -/
namespace JobScheduler

section Lists

variable {α : Type} [BEq α] [LawfulBEq α] {l served : List α} {a : α}

/-- Serving the first `k` items of a part of the queue brings every other item of this part
`k` places forward. -/
theorem idxOf_served (part : served.Sublist l) (unique : l.Nodup) (waits : a ∈ served) {k : Nat}
    (left : a ∉ served.take k) :
    (l.filter (· ∉ served.take k)).idxOf a + k ≤ l.idxOf a := by
  induction part generalizing k with
  | slnil => cases waits
  | @cons served l b part ih =>
    obtain ⟨new,unique⟩ := List.nodup_cons.mp unique
    have other : b ≠ a := fun same => new (same ▸ part.subset waits)
    have kept : b ∉ served.take k := fun taken => new (part.subset (List.mem_of_mem_take taken))
    have rest := ih unique waits left
    rw [List.filter_cons_of_pos (by simpa using kept),List.idxOf_cons_ne _ other,List.idxOf_cons_ne _ other]
    omega
  | @cons_cons served l b part ih =>
    obtain ⟨new,unique⟩ := List.nodup_cons.mp unique
    cases k with
    | zero => simp
    | succ k =>
      rw [List.take_succ_cons,List.mem_cons,not_or] at left
      have waits := (List.mem_cons.mp waits).resolve_left left.1
      have rest := ih unique waits left.2
      have same : l.filter (fun c => decide (c ∉ b :: served.take k)) =
          l.filter fun c => decide (c ∉ served.take k) := by
        refine List.filter_congr fun c member => ?_
        have different : c ≠ b := fun same => new (same ▸ member)
        simp [different]
      rw [List.take_succ_cons,List.filter_cons_of_neg (by simp),same,
        List.idxOf_cons_ne _ (Ne.symm left.1)]
      omega

theorem idxOf_sorted [LinearOrder α] (sorted : l.Pairwise (· < ·)) (member : a ∈ l) :
    l.idxOf a = l.countP (· < a) := by
  induction l with
  | nil => cases member
  | cons b l ih =>
    obtain ⟨first,sorted⟩ := List.pairwise_cons.mp sorted
    rcases List.mem_cons.mp member with rfl | later
    · have none : (a :: l).countP (· < a) = 0 := by
        refine List.countP_eq_zero.mpr fun c stored before => ?_
        rcases List.mem_cons.mp stored with rfl | behind
        · exact lt_irrefl _ (of_decide_eq_true before)
        · exact lt_asymm (first c behind) (of_decide_eq_true before)
      rw [List.idxOf_cons_self,none]
    · have before := first a later
      have counted : (b :: l).countP (· < a) = l.countP (· < a) + 1 :=
        List.countP_cons_of_pos (decide_eq_true before)
      rw [List.idxOf_cons_ne _ before.ne,counted,ih sorted later]

theorem idxOf_map {β : Type} [BEq β] [LawfulBEq β] {f : α → β} (tells : ∀ b ∈ l, f b = f a → b = a) :
    (l.map f).idxOf (f a) = l.idxOf a := by
  induction l with
  | nil => rfl
  | cons b l ih =>
    have rest := ih fun c member => tells c (List.mem_cons_of_mem b member)
    by_cases same : b = a
    · subst same
      rw [List.map_cons,List.idxOf_cons_self,List.idxOf_cons_self]
    · have different : f b ≠ f a := fun equal => same (tells b List.mem_cons_self equal)
      rw [List.map_cons,List.idxOf_cons_ne _ different,List.idxOf_cons_ne _ same,rest]

end Lists

/-- Counts of which one at most goes up, and by one, go up by one together. -/
theorem sum_map_le_add {κ : Type} {keys : List κ} {before after : κ → Nat} (joins : κ → Bool)
    (each : ∀ k ∈ keys, after k ≤ before k + (joins k).toNat)
    (one : keys.Pairwise fun k other => ¬(joins k = true ∧ joins other = true)) :
    (keys.map after).sum ≤ (keys.map before).sum + (keys.any joins).toNat := by
  induction keys with
  | nil => exact Nat.le_refl _
  | cons k keys ih =>
    obtain ⟨alone,one⟩ := List.pairwise_cons.mp one
    have first := each k List.mem_cons_self
    have rest := ih (fun other member => each other (List.mem_cons_of_mem k member)) one
    simp only [List.map_cons,List.sum_cons,List.any_cons]
    cases here : joins k with
    | false =>
      rw [here] at first
      simp only [Bool.toNat_false,Bool.false_or] at first ⊢
      omega
    | true =>
      have none : keys.any joins = false := by
        refine List.any_eq_false.mpr fun other member => ?_
        exact fun also => alone other member ⟨here,also⟩
      rw [none] at rest
      rw [here] at first
      simp only [Bool.toNat_true,Bool.toNat_false,Bool.true_or] at first rest ⊢
      omega

namespace SortedSet

variable {μ : Type} [LinearOrder μ] {s : SortedSet μ} (counts : Entry μ → Bool)

theorem countP_put_le (score : Int) (m : μ) :
    (s.put score m).entries.countP counts ≤ s.entries.countP counts + (counts (toLex (score,m))).toNat := by
  have spread := (List.perm_orderedInsert (· ≤ ·) (toLex (score,m))
    (s.restrict fun e => e.member ≠ m).entries).countP_eq counts
  have fewer : (s.restrict fun e => e.member ≠ m).entries.countP counts ≤ s.entries.countP counts :=
    List.filter_sublist.countP_le
  rw [put,spread]
  cases passes : counts (toLex (score,m)) with
  | false =>
    rw [List.countP_cons_of_neg (by simp [passes])]
    exact fewer
  | true =>
    rw [List.countP_cons_of_pos passes]
    exact Nat.add_le_add_right fewer 1

theorem countP_zaddNX_le (score : Int) (m : μ) :
    (s.zaddNX score m).2.entries.countP counts ≤
      s.entries.countP counts + (counts (toLex (score,m))).toNat := by
  unfold zaddNX
  split
  · exact Nat.le_add_right ..
  · exact countP_put_le counts score m

theorem countP_zaddXX_le (score : Int) (m : μ) :
    (s.zaddXX score m).2.entries.countP counts ≤
      s.entries.countP counts + (counts (toLex (score,m))).toNat := by
  simp only [zaddXX]
  split
  · exact countP_put_le counts score m
  · exact Nat.le_add_right ..

theorem countP_zrem_le (ms : List μ) :
    (s.zrem ms).2.entries.countP counts ≤ s.entries.countP counts :=
  List.filter_sublist.countP_le

end SortedSet

end JobScheduler
