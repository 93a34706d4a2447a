import Mathlib.Data.List.Nodup

/-! Document collections with one unique index. An update is addressed by its key
and keeps it, so the index stays unique by construction. Each operation is
described by what `lookup` returns afterwards. -/
namespace JobScheduler

structure Collection {α κ : Type} (key : α → κ) where
  docs : List α
  unique : (docs.map key).Nodup

namespace Collection

variable {α κ : Type} {key : α → κ}

theorem ite_keeps (test : α → Bool) {update : α → α} (keeps : ∀ a, key (update a) = key a)
    (a : α) : key (if test a then update a else a) = key a := by
  split
  · exact keeps a
  · rfl

variable [DecidableEq κ]

def empty : Collection key := ⟨[],List.nodup_nil⟩

def lookup (c : Collection key) (k : κ) : Option α := c.docs.find? fun a => key a = k

def rewrite (c : Collection key) (update : α → α) (keeps : ∀ a, key (update a) = key a) :
    Collection key where
  docs := c.docs.map update
  unique := by
    have same : key ∘ update = key := funext keeps
    rw [List.map_map,same]
    exact c.unique

/-- `findOneAndUpdate({key, ...guard}, update, {new: true})`. -/
def findOneAndUpdate (c : Collection key) (k : κ) (guard : α → Bool) (update : α → α)
    (keeps : ∀ a, key (update a) = key a) : Option α × Collection key :=
  match (c.lookup k).filter guard with
  | none => (none,c)
  | some a => (some (update a),
      c.rewrite (fun b => if key b = k then update b else b)
        (by simpa using ite_keeps (fun b => decide (key b = k)) keeps))

/-- `updateMany(guard, update)` with its modified count. -/
def updateMany (c : Collection key) (guard : α → Bool) (update : α → α)
    (keeps : ∀ a, key (update a) = key a) : Nat × Collection key :=
  (c.docs.countP guard,c.rewrite (fun a => if guard a then update a else a) (ite_keeps guard keeps))

def push (c : Collection key) (a : α) (absent : c.lookup (key a) = none) : Collection key where
  docs := c.docs ++ [a]
  unique := by
    rw [List.map_append,List.nodup_append']
    refine ⟨c.unique,List.nodup_singleton _,?_⟩
    intro k old new
    obtain ⟨b,member,rfl⟩ := List.mem_map.mp old
    have fresh := List.find?_eq_none.mp absent b member
    simp_all

def insert (c : Collection key) (a : α) : Option (Collection key) :=
  if absent : c.lookup (key a) = none then some (c.push a absent) else none

/-- `findOneAndUpdate({key}, {$setOnInsert: a}, {upsert: true, new: true})`. -/
def upsert (c : Collection key) (a : α) : α × Collection key :=
  match found : c.lookup (key a) with
  | some old => (old,c)
  | none => (a,c.push a found)

def deleteMany (c : Collection key) (guard : α → Bool) : Collection key where
  docs := c.docs.filter fun a => !guard a
  unique := c.unique.sublist (List.filter_sublist.map key)

section Lookup

variable {c : Collection key}

theorem lookup_mem {k : κ} {a : α} (found : c.lookup k = some a) : a ∈ c.docs :=
  List.mem_of_find?_eq_some found

theorem lookup_key {k : κ} {a : α} (found : c.lookup k = some a) : key a = k := by
  simpa using List.find?_some found

theorem lookup_of_mem {a : α} (member : a ∈ c.docs) : c.lookup (key a) = some a := by
  cases found : c.lookup (key a) with
  | none =>
    have absent := List.find?_eq_none.mp found a member
    simp at absent
  | some b =>
    rw [List.inj_on_of_nodup_map c.unique (lookup_mem found) member (lookup_key found)]

theorem lookup_rewrite (update : α → α) (keeps : ∀ a, key (update a) = key a) (k : κ) :
    (c.rewrite update keeps).lookup k = (c.lookup k).map update := by
  have same : (fun a => decide (key a = k)) ∘ update = fun a => decide (key a = k) := by
    funext a
    simp [keeps]
  simp only [lookup,rewrite,List.find?_map,same]

/-- The reply of an update is the updated document, or nothing where the filter
matches nothing. -/
theorem findOneAndUpdate_fst (k : κ) (guard : α → Bool) (update : α → α)
    (keeps : ∀ a, key (update a) = key a) :
    (c.findOneAndUpdate k guard update keeps).1 = ((c.lookup k).filter guard).map update := by
  unfold findOneAndUpdate
  split <;> simp [*]

theorem lookup_findOneAndUpdate (k : κ) (guard : α → Bool) (update : α → α)
    (keeps : ∀ a, key (update a) = key a) (other : κ) :
    (c.findOneAndUpdate k guard update keeps).2.lookup other =
      if other = k then (c.lookup k).map (fun a => if guard a then update a else a)
      else c.lookup other := by
  unfold findOneAndUpdate
  split
  · rename_i unmatched
    split
    · subst other
      cases found : c.lookup k with
      | none => rfl
      | some a => simp_all
    · rfl
  · rename_i a matched
    obtain ⟨found,passes⟩ := Option.filter_eq_some_iff.mp matched
    rw [lookup_rewrite]
    split
    · subst other
      simp [found,passes,lookup_key found]
    · rename_i different
      cases stored : c.lookup other with
      | none => rfl
      | some b => simp [lookup_key stored,different]

theorem lookup_updateMany (guard : α → Bool) (update : α → α)
    (keeps : ∀ a, key (update a) = key a) (k : κ) :
    (c.updateMany guard update keeps).2.lookup k =
      (c.lookup k).map fun a => if guard a then update a else a := by
  simp only [updateMany,lookup_rewrite]

theorem lookup_push {a : α} (absent : c.lookup (key a) = none) (k : κ) :
    (c.push a absent).lookup k = if k = key a then some a else c.lookup k := by
  have stored : (c.push a absent).lookup k =
      (c.lookup k).or (if key a = k then some a else none) := by
    simp [lookup,push,List.find?_append,List.find?_singleton]
  rw [stored]
  by_cases same : k = key a
  · subst k
    simp [absent]
  · simp [same,Ne.symm same]

theorem lookup_insert {a : α} {after : Collection key} (inserted : c.insert a = some after) :
    c.lookup (key a) = none ∧
      ∀ k, after.lookup k = if k = key a then some a else c.lookup k := by
  unfold insert at inserted
  split at inserted
  · rename_i absent
    obtain rfl := Option.some.inj inserted
    exact ⟨absent,lookup_push absent⟩
  · cases inserted

theorem lookup_upsert (a : α) (k : κ) :
    (c.upsert a).2.lookup k = if k = key a then some (c.upsert a).1 else c.lookup k := by
  unfold upsert
  split
  · rename_i old found
    split
    · subst k; exact found
    · rfl
  · rename_i absent
    exact lookup_push absent k

theorem upsert_fst (a : α) : (c.upsert a).1 = (c.lookup (key a)).getD a := by
  unfold upsert
  split <;> simp_all

theorem lookup_deleteMany (guard : α → Bool) (k : κ) :
    (c.deleteMany guard).lookup k = (c.lookup k).filter fun a => !guard a := by
  cases kept : (c.deleteMany guard).lookup k with
  | some a =>
    obtain ⟨member,passes⟩ := List.mem_filter.mp (lookup_mem kept)
    have found := lookup_of_mem member
    rw [lookup_key kept] at found
    rw [found,Option.filter_some,if_pos passes]
  | none =>
    cases found : c.lookup k with
    | none => rfl
    | some a =>
      by_cases gone : guard a = true
      · simp [Option.filter_some,gone]
      · have member : a ∈ (c.deleteMany guard).docs :=
          List.mem_filter.mpr ⟨lookup_mem found,by simpa using gone⟩
        have stays := lookup_of_mem member
        rw [lookup_key found,kept] at stays
        contradiction

end Lookup

end Collection

end JobScheduler
