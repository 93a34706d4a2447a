import Mathlib.Data.List.Basic
import Mathlib.Order.Extension.Linear

/-! Pages of a sorted list. A page is cut out of the list by skip and limit, and the
number of pages is the rounded-up quotient of its length and the limit. -/
namespace JobScheduler

/-- An order of documents that refines the descending order of a sort key. -/
structure SortOrder {α : Type} (key : α → Int) where
  le : α → α → Bool
  total : ∀ a b, (le a b || le b a) = true
  trans : ∀ a b c, le a b = true → le b c = true → le a c = true
  antisymm : ∀ a b, le a b = true → le b a = true → a = b
  refines : ∀ a b, le a b = true → key b ≤ key a

theorem SortOrder.nonempty {α : Type} (key : α → Int) : Nonempty (SortOrder key) := by
  let before : α → α → Prop := fun a b => a = b ∨ key b < key a
  have partialOrder : IsPartialOrder α before :=
    { refl := fun a => .inl rfl
      trans := by
        rintro a b c (rfl | first) (rfl | second)
        · exact .inl rfl
        · exact .inr second
        · exact .inr first
        · exact .inr (second.trans first)
      antisymm := by
        rintro a b (rfl | first) (same | second)
        · rfl
        · rfl
        · exact same.symm
        · omega }
  obtain ⟨le,linear,extends_⟩ := extend_partialOrder before
  classical
  refine ⟨⟨fun a b => decide (le a b),?_,?_,?_,?_⟩⟩
  · intro a b
    simpa using linear.total a b
  · intro a b c first second
    simpa using linear.trans a b c (of_decide_eq_true first) (of_decide_eq_true second)
  · intro a b first second
    exact linear.antisymm a b (of_decide_eq_true first) (of_decide_eq_true second)
  · intro a b first
    by_contra later
    have second := extends_ b a (.inr (not_le.mp later))
    obtain rfl := linear.antisymm a b (of_decide_eq_true first) second
    exact later le_rfl

structure PaginatedResult (α : Type) where
  data : List α
  totalCount : Nat
  totalPages : Nat
  page : Nat
  limit : Nat

namespace Pagination

variable {α : Type}

/-- `Math.ceil(totalCount / limit)` -/
def pageCount (totalCount limit : Nat) : Nat := (totalCount + limit - 1) / limit

/-- `sort(...).skip((page - 1) * limit).limit(limit)` over sorted documents. -/
def cut (sorted : List α) (page limit : Nat) : List α :=
  (sorted.drop ((page - 1) * limit)).take limit

/-- The query of a page, with the count of all matching documents. -/
def paginate {key : α → Int} (order : SortOrder key) (docs : List α) (filter : α → Bool)
    (page limit : Nat) : PaginatedResult α where
  data := cut ((docs.filter filter).mergeSort order.le) page limit
  totalCount := (docs.filter filter).length
  -- `|| 1`
  totalPages := if pageCount (docs.filter filter).length limit = 0 then 1
    else pageCount (docs.filter filter).length limit
  page := page
  limit := limit

section Cut

variable {sorted : List α} {limit : Nat}

theorem cuts_flatten (sorted : List α) (limit pages : Nat) :
    (List.range pages).flatMap (fun i => cut sorted (i + 1) limit) =
      sorted.take (pages * limit) := by
  induction pages with
  | zero => simp
  | succ pages ih =>
    rw [List.range_succ,List.flatMap_append,ih,List.flatMap_singleton,Nat.succ_mul,List.take_add]
    rfl

theorem le_pageCount_mul (totalCount : Nat) (positive : 1 ≤ limit) :
    totalCount ≤ pageCount totalCount limit * limit := by
  have rounded : totalCount + limit - 1 < (totalCount + limit - 1) / limit * limit + limit :=
    Nat.lt_div_mul_add positive
  rw [pageCount]
  omega

theorem mul_le_of_lt_pageCount {totalCount page : Nat} (positive : 1 ≤ limit)
    (before : page < pageCount totalCount limit) : page * limit ≤ totalCount := by
  have below : (page + 1) * limit ≤ totalCount + limit - 1 :=
    Nat.le_trans (Nat.mul_le_mul_right limit before) (Nat.div_mul_le_self ..)
  rw [Nat.succ_mul] at below
  omega

end Cut

def pages (query : Nat → PaginatedResult α) : List α :=
  (List.range (query 1).totalPages).flatMap fun i => (query (i + 1)).data

/-- The pages of a query are the sorted list of the matching documents, cut up. -/
structure Partitions {key : α → Int} (order : SortOrder key) (matching : List α) (limit : Nat)
    (query : Nat → PaginatedResult α) : Prop where
  complete : (pages query).Perm matching
  ordered : (pages query).Pairwise fun a b => order.le a b = true
  determined : ∀ sorted : List α, sorted.Perm matching →
    (sorted.Pairwise fun a b => order.le a b = true) → pages query = sorted
  descending : (pages query).Pairwise fun a b => key b ≤ key a
  full : ∀ page, 1 ≤ page → page < (query 1).totalPages → (query page).data.length = limit
  beyond : ∀ page, (query 1).totalPages < page → (query page).data = []
  nonzero : 1 ≤ (query 1).totalPages
  same : ∀ page, (query page).totalCount = matching.length ∧
    (query page).totalPages = (query 1).totalPages

section Paginate

variable {key : α → Int} (order : SortOrder key) (docs : List α) (filter : α → Bool) {limit : Nat}

theorem le_totalPages_mul (positive : 1 ≤ limit) (page : Nat) :
    (docs.filter filter).length ≤ (paginate order docs filter page limit).totalPages * limit := by
  have covered := le_pageCount_mul (docs.filter filter).length positive
  simp only [paginate]
  split
  · rename_i none
    rw [none] at covered
    omega
  · exact covered

theorem pages_paginate (positive : 1 ≤ limit) :
    pages (fun page => paginate order docs filter page limit) =
      (docs.filter filter).mergeSort order.le := by
  have all := le_totalPages_mul order docs filter positive 1
  rw [← (List.mergeSort_perm (docs.filter filter) order.le).length_eq] at all
  exact (cuts_flatten _ limit _).trans (List.take_of_length_le all)

theorem paginate_partitions (positive : 1 ≤ limit) :
    Partitions order (docs.filter filter) limit
      fun page => paginate order docs filter page limit := by
  have sorted := List.pairwise_mergeSort order.trans order.total (docs.filter filter)
  have shuffled := List.mergeSort_perm (docs.filter filter) order.le
  have whole := pages_paginate order docs filter positive
  constructor
  · rw [whole]
    exact shuffled
  · rw [whole]
    exact sorted
  · intro other perm ordered
    rw [whole]
    exact List.Perm.eq_of_pairwise (fun a b _ _ => order.antisymm a b) sorted ordered
      (shuffled.trans perm.symm)
  · rw [whole]
    exact sorted.imp fun {a b} => order.refines a b
  · intro page first before
    have counted : page < pageCount (docs.filter filter).length limit := by
      simp only [paginate] at before
      split at before
      · omega
      · exact before
    have room := mul_le_of_lt_pageCount positive counted
    have cutOff : (page - 1) * limit + limit = page * limit := by
      rw [← Nat.succ_mul,Nat.succ_eq_add_one,Nat.sub_add_cancel first]
    rw [paginate,cut,List.length_take,List.length_drop,List.length_mergeSort]
    omega
  · intro page after
    have covered := le_totalPages_mul order docs filter positive 1
    have before : (paginate order docs filter 1 limit).totalPages * limit ≤ (page - 1) * limit :=
      Nat.mul_le_mul_right limit (Nat.le_sub_one_of_lt after)
    rw [paginate,cut,List.drop_of_length_le,List.take_nil]
    rw [List.length_mergeSort]
    exact Nat.le_trans covered before
  · simp only [paginate]
    split
    · exact Nat.le_refl 1
    · rename_i some
      exact Nat.pos_of_ne_zero some
  · exact fun page => ⟨rfl,rfl⟩

theorem mem_page (positive : 1 ≤ limit) (a : α) :
    (∃ page, 1 ≤ page ∧ a ∈ (paginate order docs filter page limit).data) ↔
      a ∈ docs.filter filter := by
  constructor
  · rintro ⟨page,_,member⟩
    exact List.mem_mergeSort.mp (List.mem_of_mem_drop (List.mem_of_mem_take member))
  · intro member
    have listed := (paginate_partitions order docs filter positive).complete.mem_iff.mpr member
    obtain ⟨i,_,here⟩ := List.mem_flatMap.mp listed
    exact ⟨i + 1,Nat.le_add_left 1 i,here⟩

end Paginate

end Pagination

end JobScheduler
