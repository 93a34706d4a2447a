import Mathlib.Data.List.Basic

/-! Texts that are put together around a separator. What stands before the first
separator can be read back; where the parts may contain the separator, the same text
can come from parts that are cut at different places. -/
namespace JobScheduler

namespace Delimited

variable {α : Type} {sep : α} {first second left right rest : List α}

/-- The second pair is cut at a later separator than the first. -/
def CutLater (sep : α) (first second left right : List α) : Prop :=
  ∃ middle, left = first ++ sep :: middle ∧ second = middle ++ sep :: right

/-- Two pairs of parts read the same around the separator. -/
def SameReading (sep : α) (first second left right : List α) : Prop :=
  (first = left ∧ second = right) ∨ CutLater sep first second left right ∨
    CutLater sep left right first second

theorem append_sep_eq_iff :
    first ++ sep :: second = left ++ sep :: right ↔ SameReading sep first second left right := by
  constructor
  · intro same
    rcases List.append_eq_append_iff.mp same with ⟨middle,longer,cut⟩ | ⟨middle,longer,cut⟩
    · cases middle with
      | nil => exact .inl ⟨by simpa using longer.symm,by simpa using cut⟩
      | cons head middle =>
        obtain ⟨rfl,later⟩ := List.cons.inj cut
        exact .inr (.inl ⟨middle,longer,later⟩)
    · cases middle with
      | nil => exact .inl ⟨by simpa using longer,by simpa using cut.symm⟩
      | cons head middle =>
        obtain ⟨rfl,later⟩ := List.cons.inj cut
        exact .inr (.inr ⟨middle,longer,later⟩)
  · rintro (⟨rfl,rfl⟩ | ⟨middle,rfl,rfl⟩ | ⟨middle,rfl,rfl⟩)
    · rfl
    · simp
    · simp

variable [DecidableEq α]

def heading (sep : α) (text : List α) : List α := text.takeWhile (· ≠ sep)

theorem heading_append (plain : sep ∉ first) (rest : List α) : heading sep (first ++ sep :: rest) = first := by
  have all : ∀ x ∈ first, decide (x ≠ sep) = true := by
    intro x member
    exact decide_eq_true fun same => plain (same ▸ member)
  rw [heading,List.takeWhile_append_of_pos all]
  simp

theorem append_sep_inj (plain : sep ∉ first) (plain' : sep ∉ left) (second right : List α) :
    first ++ sep :: second = left ++ sep :: right ↔ first = left ∧ second = right := by
  constructor
  · intro same
    obtain rfl : first = left := by
      rw [← heading_append plain second,same,heading_append plain']
    exact ⟨rfl,(List.cons.inj (List.append_cancel_left same)).2⟩
  · rintro ⟨rfl,rfl⟩
    rfl

end Delimited

end JobScheduler
