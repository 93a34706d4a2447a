import JobScheduler.Interleaving
import Mathlib.Data.Bool.Basic

/-! Tokens. A token is free in the world or held by calls, and a call comes to hold it
only by an operation that takes it from the world. Then no step multiplies it: the
count of a token grows only where the world issues it again. -/
namespace JobScheduler

variable {σ : Signature} {ε World Oracle Request Event : Type}

structure Token (M : Machine σ ε World Oracle Request Event) where
  free : World → Bool
  holder : Call σ ε Request → Bool
  fresh : ∀ request, holder (M.accept request) = false
  crashed : ∀ call, holder (M.crashCall call) = true → holder call = true
  taken : ∀ call op rest oracle world, call.program = .await op rest →
    holder (call.advance op rest (M.perform op oracle world).1) = true →
    holder call = true ∨ (free world = true ∧ free (M.perform op oracle world).2 = false)

namespace Token

variable {M : Machine σ ε World Oracle Request Event} (T : Token M)

def count (s : State σ ε World Request) : Nat := (T.free s.world).toNat + s.calls.countP T.holder

def issued (s t : State σ ε World Request) : Bool := !T.free s.world && T.free t.world

variable {s t : State σ ε World Request}

theorem free_le_issued : (T.free t.world).toNat ≤ (T.free s.world).toNat + (T.issued s t).toNat := by
  simp only [issued]
  cases T.free s.world <;> cases T.free t.world <;> simp

/-- An answered operation: the answered call keeps the token, gives it up, or takes it
from the world. -/
theorem count_answered {index : Nat} {call : Call σ ε Request} {op : σ.Op}
    {rest : Except ε (σ.Reply op) → Program σ ε Unit} (oracle : Oracle)
    (found : s.calls[index]? = some call) (awaits : call.program = .await op rest) :
    T.count (M.answered s index call op rest oracle) + (T.holder call).toNat ≤
      T.count s + (T.issued s (M.answered s index call op rest oracle)).toNat +
        (T.holder call &&
          T.holder (call.advance op rest (M.perform op oracle s.world).1)).toNat := by
  have counted := Machine.countP_answered T.holder rest oracle found T.fresh
  have freed := T.free_le_issued (s := s) (t := M.answered s index call op rest oracle)
  have once := Bool.toNat_le (T.holder (call.advance op rest (M.perform op oracle s.world).1))
  simp only [count]
  cases holding : T.holder (call.advance op rest (M.perform op oracle s.world).1) with
  | false =>
    simp only [holding,Bool.toNat_false] at counted
    simp only [Bool.and_false,Bool.toNat_false]
    omega
  | true =>
    simp only [holding,Bool.toNat_true] at counted
    rcases T.taken call op rest oracle s.world awaits holding with kept | ⟨before,after⟩
    · simp only [kept,Bool.and_self,Bool.toNat_true] at *
      omega
    · have gone : T.free (M.answered s index call op rest oracle).world = false := after
      simp only [before,gone,Bool.toNat_true,Bool.toNat_false,Bool.and_true]
      omega

theorem count_spent {index : Nat} {call : Call σ ε Request} {op : σ.Op}
    {rest : Except ε (σ.Reply op) → Program σ ε Unit} (oracle : Oracle)
    (found : s.calls[index]? = some call) (awaits : call.program = .await op rest)
    (held : T.holder call = true)
    (given : T.holder (call.advance op rest (M.perform op oracle s.world).1) = false) :
    T.count (M.answered s index call op rest oracle) + 1 ≤
      T.count s + (T.issued s (M.answered s index call op rest oracle)).toNat := by
  have answered := T.count_answered oracle found awaits
  simp only [held,given,Bool.and_false,Bool.toNat_true,Bool.toNat_false] at answered
  omega

/-- No step multiplies a token. -/
theorem count_moves {label : Label Oracle Request Event} (moves : M.Moves s label t) :
    T.count t ≤ T.count s + (T.issued s t).toNat := by
  cases moves with
  | submit request =>
    simp only [count,List.countP_append,List.countP_singleton,T.fresh,Bool.false_eq_true,if_false]
    omega
  | idle | absent => omega
  | answer index oracle call op rest found awaits =>
    have answered := T.count_answered oracle found awaits
    have kept : (T.holder call && T.holder (call.advance op rest
        (M.perform op oracle s.world).1)).toNat ≤ (T.holder call).toNat :=
      Bool.toNat_le_toNat (And.left ∘ Bool.and_eq_true_iff.mp)
    omega
  | crash index call found =>
    have counted := Machine.countP_set T.holder found (M.crashCall call)
    have fewer : (T.holder (M.crashCall call)).toNat ≤ (T.holder call).toNat :=
      Bool.toNat_le_toNat (T.crashed call)
    simp only [count]
    omega
  | environment event =>
    have freed := T.free_le_issued (s := s) (t := { s with world := M.environment event s.world })
    simp only [count] at *
    omega

theorem count_step (s : State σ ε World Request) (label : Label Oracle Request Event) :
    T.count (M.step s label) ≤ T.count s + (T.issued s (M.step s label)).toNat :=
  T.count_moves (M.step_moves s label)

/-- What is written only by giving the token up is written no more often than there are
tokens, where none is issued. -/
theorem tally_moves (tally : World → Nat) {label : Label Oracle Request Event}
    (moves : M.Moves s label t) (issued : T.issued s t = false)
    (answers : ∀ (index : Nat) oracle call op rest, s.calls[index]? = some call →
      call.program = .await op rest →
      tally (M.perform op oracle s.world).2 ≤ tally s.world ∨
        tally (M.perform op oracle s.world).2 ≤ tally s.world + 1 ∧ T.holder call = true ∧
          T.holder (call.advance op rest (M.perform op oracle s.world).1) = false)
    (environment : ∀ event, tally (M.environment event s.world) ≤ tally s.world) :
    tally t.world + T.count t ≤ tally s.world + T.count s := by
  have counted := T.count_moves moves
  simp only [issued,Bool.toNat_false] at counted
  cases moves with
  | submit | idle | absent | crash => exact Nat.add_le_add_left counted _
  | answer index oracle call op rest found awaits =>
    change tally (M.perform op oracle s.world).2 + _ ≤ _
    rcases answers index oracle call op rest found awaits with same | ⟨once,held,given⟩
    · omega
    · have spent := T.count_spent oracle found awaits held given
      simp only [issued,Bool.toNat_false] at spent
      omega
  | environment event => exact Nat.add_le_add (environment event) counted

theorem count_initial (world : World) : T.count (⟨world,[]⟩ : State σ ε World Request) ≤ 1 :=
  Bool.toNat_le _

end Token

end JobScheduler
