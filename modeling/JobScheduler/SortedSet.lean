import Mathlib.Data.List.Nodup
import Mathlib.Data.List.Sort
import Mathlib.Data.Prod.Lex

/-! Sorted sets: members with integer scores, kept in score order with ties broken
by the member, each member once. -/
namespace JobScheduler

abbrev Entry (μ : Type) := Int ×ₗ μ

namespace Entry

variable {μ : Type}

def score (e : Entry μ) : Int := (ofLex e).1
def member (e : Entry μ) : μ := (ofLex e).2

@[simp] theorem score_toLex (score : Int) (m : μ) : Entry.score (toLex (score,m)) = score := rfl
@[simp] theorem member_toLex (score : Int) (m : μ) : Entry.member (toLex (score,m)) = m := rfl

end Entry

structure SortedSet (μ : Type) [LinearOrder μ] where
  entries : List (Entry μ)
  sorted : entries.Pairwise (· ≤ ·)
  unique : (entries.map Entry.member).Nodup

namespace SortedSet

variable {μ : Type} [LinearOrder μ]

def empty : SortedSet μ := ⟨[],List.Pairwise.nil,List.nodup_nil⟩

def members (s : SortedSet μ) : List μ := s.entries.map Entry.member

def score? (s : SortedSet μ) (m : μ) : Option Int :=
  (s.entries.find? fun e => e.member = m).map Entry.score

def restrict (s : SortedSet μ) (keep : Entry μ → Bool) : SortedSet μ where
  entries := s.entries.filter keep
  sorted := s.sorted.sublist List.filter_sublist
  unique := s.unique.sublist (List.filter_sublist.map _)

/-- Set the score of a member, present or not. -/
def put (s : SortedSet μ) (score : Int) (m : μ) : SortedSet μ where
  entries := (s.restrict fun e => e.member ≠ m).entries.orderedInsert (· ≤ ·) (toLex (score,m))
  sorted := (s.restrict _).sorted.orderedInsert _ _
  unique := by
    have spread := (List.perm_orderedInsert (· ≤ ·) (toLex (score,m))
      (s.restrict fun e => e.member ≠ m).entries).map Entry.member
    refine spread.nodup_iff.mpr (List.nodup_cons.mpr ⟨?_,(s.restrict _).unique⟩)
    simp [restrict]

/-- `ZADD key NX score member` with the number of members added. -/
def zaddNX (s : SortedSet μ) (score : Int) (m : μ) : Nat × SortedSet μ :=
  if m ∈ s.members then (0,s) else (1,s.put score m)

/-- `ZADD key XX score member`: it updates a present member and adds none, so
its reply, the number of members added, is always zero. -/
def zaddXX (s : SortedSet μ) (score : Int) (m : μ) : Nat × SortedSet μ :=
  (0,if m ∈ s.members then s.put score m else s)

/-- `ZREM key member...` with the number of members removed. -/
def zrem (s : SortedSet μ) (ms : List μ) : Nat × SortedSet μ :=
  (s.entries.countP fun e => e.member ∈ ms,s.restrict fun e => e.member ∉ ms)

/-- `ZRANGEBYSCORE key low high LIMIT offset count`, members only. -/
def zrangebyscore (s : SortedSet μ) (low high : Int) (offset count : Nat) : List μ :=
  (((s.entries.filter fun e => low ≤ e.score ∧ e.score ≤ high).drop offset).take count).map
    Entry.member

def within (s : SortedSet μ) (low high : Int) : List (Entry μ) :=
  s.entries.filter fun e => low ≤ e.score ∧ e.score ≤ high

section Lookup

variable {s : SortedSet μ}

theorem mem_members_restrict (keep : Entry μ → Bool) (test : μ → Bool)
    (onMember : ∀ e, keep e = test e.member) (m : μ) :
    m ∈ (s.restrict keep).members ↔ m ∈ s.members ∧ test m = true := by
  simp only [members,restrict,List.mem_map,List.mem_filter,onMember]
  constructor
  · rintro ⟨e,⟨stored,passes⟩,rfl⟩
    exact ⟨⟨e,stored,rfl⟩,passes⟩
  · rintro ⟨⟨e,stored,rfl⟩,passes⟩
    exact ⟨e,⟨stored,passes⟩,rfl⟩

theorem mem_members_put (score : Int) (m other : μ) :
    other ∈ (s.put score m).members ↔ other = m ∨ other ∈ s.members := by
  have spread : other ∈ (s.put score m).members ↔
      other = m ∨ other ∈ (s.restrict fun e => e.member ≠ m).members := by
    simp [members,put,List.mem_orderedInsert,or_and_right,exists_or,eq_comm]
  rw [spread,mem_members_restrict _ (fun k => k ≠ m) (fun _ => rfl)]
  by_cases same : other = m <;> simp [same]

theorem mem_members_zaddNX (score : Int) (m other : μ) :
    other ∈ (s.zaddNX score m).2.members ↔ other = m ∨ other ∈ s.members := by
  unfold zaddNX
  split
  · rename_i present
    constructor
    · exact Or.inr
    · rintro (rfl | stored)
      · exact present
      · exact stored
  · exact mem_members_put score m other

theorem mem_members_zaddXX (score : Int) (m other : μ) :
    other ∈ (s.zaddXX score m).2.members ↔ other ∈ s.members := by
  simp only [zaddXX]
  split
  · rename_i present
    rw [mem_members_put]
    constructor
    · rintro (rfl | stored)
      · exact present
      · exact stored
    · exact Or.inr
  · rfl

theorem mem_members_zrem (ms : List μ) (other : μ) :
    other ∈ (s.zrem ms).2.members ↔ other ∈ s.members ∧ other ∉ ms := by
  rw [zrem,mem_members_restrict _ (fun k => k ∉ ms) (fun _ => rfl)]
  simp

theorem score?_eq_some {m : μ} {score : Int} :
    s.score? m = some score ↔ (toLex (score,m) : Entry μ) ∈ s.entries := by
  constructor
  · intro found
    obtain ⟨e,hit,rfl⟩ := Option.map_eq_some_iff.mp found
    have same : e.member = m := by simpa using List.find?_some hit
    subst same
    exact List.mem_of_find?_eq_some hit
  · intro stored
    have first : (s.entries.find? fun e => e.member = m) = some (toLex (score,m)) := by
      cases found : s.entries.find? fun e => e.member = m with
      | none => simpa using List.find?_eq_none.mp found _ stored
      | some e =>
        have same : e.member = m := by simpa using List.find?_some found
        exact congrArg some
          (List.inj_on_of_nodup_map s.unique (List.mem_of_find?_eq_some found) stored same)
    rw [score?,first]
    rfl

theorem mem_members_iff {m : μ} : m ∈ s.members ↔ ∃ score, s.score? m = some score := by
  simp only [score?_eq_some,members,List.mem_map]
  constructor
  · rintro ⟨e,stored,rfl⟩
    exact ⟨e.score,stored⟩
  · rintro ⟨score,stored⟩
    exact ⟨_,stored,rfl⟩

theorem score?_put (score : Int) (m other : μ) :
    (s.put score m).score? other = if other = m then some score else s.score? other := by
  refine Option.ext fun value => ?_
  rw [score?_eq_some]
  by_cases same : other = m
  · subst same
    simp [put,restrict,List.mem_orderedInsert,eq_comm]
  · simp [put,restrict,List.mem_orderedInsert,same,score?_eq_some]

theorem score?_zrem (ms : List μ) (other : μ) :
    (s.zrem ms).2.score? other = if other ∈ ms then none else s.score? other := by
  refine Option.ext fun value => ?_
  rw [score?_eq_some]
  by_cases listed : other ∈ ms
  · simp [zrem,restrict,listed]
  · simp [zrem,restrict,listed,score?_eq_some]

theorem score?_zaddNX (score : Int) (m other : μ) :
    (s.zaddNX score m).2.score? other =
      if other = m ∧ m ∉ s.members then some score else s.score? other := by
  by_cases present : m ∈ s.members
  · simp [zaddNX,present]
  · simp [zaddNX,present,score?_put]

theorem score?_zaddXX (score : Int) (m other : μ) :
    (s.zaddXX score m).2.score? other =
      if other = m ∧ m ∈ s.members then some score else s.score? other := by
  by_cases present : m ∈ s.members
  · simp [zaddXX,present,score?_put]
  · simp [zaddXX,present]

theorem mem_zrangebyscore {low high : Int} {offset count : Nat} {m : μ}
    (read : m ∈ s.zrangebyscore low high offset count) :
    ∃ score, s.score? m = some score ∧ low ≤ score ∧ score ≤ high := by
  obtain ⟨e,taken,rfl⟩ := List.mem_map.mp read
  obtain ⟨stored,within⟩ := List.mem_filter.mp (List.mem_of_mem_drop (List.mem_of_mem_take taken))
  exact ⟨e.score,score?_eq_some.mpr stored,of_decide_eq_true within⟩

end Lookup

section Range

variable {s : SortedSet μ} {low high : Int}

theorem zrangebyscore_first (low high : Int) (count : Nat) :
    s.zrangebyscore low high 0 count = ((s.within low high).take count).map Entry.member := rfl

theorem mem_within {e : Entry μ} :
    e ∈ s.within low high ↔ e ∈ s.entries ∧ low ≤ e.score ∧ e.score ≤ high := by
  simp [within]

theorem within_unique (s : SortedSet μ) (low high : Int) :
    ((s.within low high).map Entry.member).Nodup :=
  s.unique.sublist (List.filter_sublist.map _)

theorem within_sorted (s : SortedSet μ) (low high : Int) :
    (s.within low high).Pairwise (· ≤ ·) := s.sorted.sublist List.filter_sublist

@[simp] theorem zrem_nil (s : SortedSet μ) : (s.zrem []).2 = s := by
  cases s
  simp [zrem,restrict]

theorem filter_parts (first later : List (Entry μ))
    (unique : ((first ++ later).map Entry.member).Nodup) :
    (first ++ later).filter (fun e => e.member ∈ first.map Entry.member) = first ∧
      (first ++ later).filter (fun e => e.member ∉ first.map Entry.member) = later := by
  rw [List.map_append,List.nodup_append] at unique
  have inside : ∀ e ∈ first, e.member ∈ first.map Entry.member := fun e => List.mem_map_of_mem
  have outside : ∀ e ∈ later, e.member ∉ first.map Entry.member :=
    fun e stored listed => unique.2.2 _ listed _ (List.mem_map_of_mem stored) rfl
  generalize first.map Entry.member = members at inside outside
  constructor
  · rw [List.filter_append,List.filter_eq_self.mpr (by simpa using inside),
      List.filter_eq_nil_iff.mpr (by simpa using outside),List.append_nil]
  · rw [List.filter_append,List.filter_eq_nil_iff.mpr (by simpa using inside),
      List.filter_eq_self.mpr (by simpa using outside),List.nil_append]

theorem filter_taken {entries : List (Entry μ)} (unique : (entries.map Entry.member).Nodup)
    (count : Nat) :
    entries.filter (fun e => e.member ∈ (entries.take count).map Entry.member) =
        entries.take count ∧
      entries.filter (fun e => e.member ∉ (entries.take count).map Entry.member) =
        entries.drop count := by
  have parts := filter_parts (entries.take count) (entries.drop count)
  rw [List.take_append_drop] at parts
  exact parts unique

/-- Removing the first members of a range leaves the rest of the range. -/
theorem within_zrem_first (s : SortedSet μ) (low high : Int) (count : Nat) :
    (s.zrem (s.zrangebyscore low high 0 count)).2.within low high =
      (s.within low high).drop count := by
  rw [← (filter_taken (s.within_unique low high) count).2,zrangebyscore_first]
  simp only [within,zrem,restrict,List.filter_filter,Bool.and_comm]

theorem within_of_listed {count : Nat} {e : Entry μ} (stored : e ∈ s.entries)
    (listed : e.member ∈ s.zrangebyscore low high 0 count) : low ≤ e.score ∧ e.score ≤ high := by
  obtain ⟨score,found,bounds⟩ := mem_zrangebyscore listed
  have same : s.score? e.member = some e.score := score?_eq_some.mpr stored
  obtain rfl : e.score = score := Option.some.inj (same.symm.trans found)
  exact bounds

theorem mem_zrem_first {count : Nat} {e : Entry μ} (outside : e.score < low ∨ high < e.score) :
    e ∈ (s.zrem (s.zrangebyscore low high 0 count)).2.entries ↔ e ∈ s.entries := by
  simp only [zrem,restrict,List.mem_filter,decide_eq_true_eq,and_iff_left_iff_imp]
  intro stored listed
  have inside := within_of_listed stored listed
  omega

theorem card_zrem_first (s : SortedSet μ) (low high : Int) (count : Nat) :
    (s.zrangebyscore low high 0 count).length +
      (s.zrem (s.zrangebyscore low high 0 count)).2.entries.length = s.entries.length := by
  have gone : s.entries.filter (fun e => e.member ∈ s.zrangebyscore low high 0 count) =
      (s.within low high).take count := by
    rw [← (filter_taken (s.within_unique low high) count).1,within,List.filter_filter]
    refine List.filter_congr fun e stored => ?_
    rw [← within,← zrangebyscore_first]
    by_cases listed : e.member ∈ s.zrangebyscore low high 0 count
    · simp [listed,within_of_listed stored listed]
    · simp [listed]
  have split := List.length_eq_length_filter_add (l := s.entries)
    fun e => e.member ∈ s.zrangebyscore low high 0 count
  rw [gone] at split
  simpa [zrem,restrict,zrangebyscore_first] using split.symm

end Range

end SortedSet

end JobScheduler
