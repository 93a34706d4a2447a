import JobScheduler.Program

/-! Retries with pauses. A program is attempted up to a number of times, with a pause after
each failure but the last, whose error is thrown. -/
namespace JobScheduler

variable {σ : Signature} {ε Q : Type}

def retryFrom (attempt : Program σ ε Unit) (pause : Nat → Program σ ε Unit) (last : ε → ε) :
    Nat → Nat → Program σ ε Unit
  | _, 0 => pure ()
  | n, left + 1 => tryCatch attempt fun error =>
    if left = 0 then throw (last error)
    else do
      pause n
      retryFrom attempt pause last (n + 1) left

/-- What an attempt has to lead to, when it is number `n` and `left` remain after it: an
error is final or leads through the pause to the next attempt. -/
def attemptPost (m : Program.Monitor σ ε Q) (post : Q → Except ε Unit → Prop)
    (pause : Nat → Program σ ε Unit) (last : ε → ε) (holds : Nat → Q → Prop) (n left : Nat) :
    Q → Except ε Unit → Prop
  | q, .ok _ => post q (.ok ())
  | q, .error e =>
    if left = 0 then post q (.error (last e))
    else Program.wp m (Program.thenPost post fun _ => holds (n + 1)) (pause n) q

theorem wp_retryFrom {m : Program.Monitor σ ε Q} {post : Q → Except ε Unit → Prop}
    {attempt : Program σ ε Unit} {pause : Nat → Program σ ε Unit} {last : ε → ε}
    (holds : Nat → Q → Prop) {n left : Nat} {q : Q}
    (attempts : ∀ k remaining q, k + remaining + 1 = n + left → holds k q →
      Program.wp m (attemptPost m post pause last holds k remaining) attempt q)
    (start : holds n q) (some : 0 < left) :
    Program.wp m post (retryFrom attempt pause last n left) q := by
  induction left generalizing n q with
  | zero => exact absurd some (Nat.lt_irrefl 0)
  | succ left ih =>
    rw [retryFrom,Program.wp_tryCatch]
    refine Program.wp_mono (attempts n left q rfl start) ?_
    rintro q (e | _) met
    · simp only [attemptPost] at met
      simp only [Program.catchPost_error]
      split at met
      · rename_i final
        simpa [final] using met
      · rename_i more
        rw [if_neg more,Program.wp_bind]
        refine Program.wp_mono met ?_
        rintro q (e | _) next
        · exact next
        · apply ih _ next (Nat.pos_of_ne_zero more)
          intro k remaining q counted
          exact attempts k remaining q (by omega)
    · exact met

end JobScheduler
