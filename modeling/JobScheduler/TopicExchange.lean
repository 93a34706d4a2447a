import Mathlib.Data.List.Infix
import Mathlib.Tactic.Common

/-! Topic exchanges. A message goes to every queue that is bound on the exchange it
was published to with a pattern matching its key; without such a binding it is
dropped. -/
namespace JobScheduler

/-- One dotted word of a binding pattern: a literal, `*` or `#`. -/
inductive PatternWord where
  | literal (word : String)
  | star
  | hash
  deriving DecidableEq

structure Binding (Exchange Queue : Type) where
  queue : Queue
  exchange : Exchange
  pattern : List PatternWord

namespace TopicExchange

def patternMatches : List PatternWord → List String → Bool
  | [], key => key.isEmpty
  | .literal word :: pattern, key =>
    match key with
    | [] => false
    | first :: rest => word = first && patternMatches pattern rest
  | .star :: pattern, key =>
    match key with
    | [] => false
    | _ :: rest => patternMatches pattern rest
  | .hash :: pattern, key => key.tails.any fun rest => patternMatches pattern rest

variable {Exchange Queue : Type} [DecidableEq Exchange]

def route (bindings : List (Binding Exchange Queue)) (exchange : Exchange) (key : List String) :
    List Queue :=
  (bindings.filter fun b => b.exchange = exchange && patternMatches b.pattern key).map
    Binding.queue

/-- A pattern without wildcards matches its own words only. -/
theorem patternMatches_literal (words key : List String) :
    patternMatches (words.map .literal) key = true ↔ words = key := by
  induction words generalizing key with
  | nil => cases key <;> simp [patternMatches]
  | cons word words ih => cases key <;> simp [patternMatches,ih]

theorem mem_route {bindings : List (Binding Exchange Queue)} {exchange : Exchange}
    {key : List String} {queue : Queue} :
    queue ∈ route bindings exchange key ↔ ∃ b ∈ bindings,
      b.exchange = exchange ∧ patternMatches b.pattern key = true ∧ b.queue = queue := by
  simp [route,and_assoc]

end TopicExchange

end JobScheduler
