import Mathlib.Data.List.Basic

/-! Deterministic transitions under arbitrary schedules. -/
namespace JobScheduler

structure Transition (State Label : Type) where
  step : State → Label → State

namespace Transition

variable {State Label : Type} (T : Transition State Label)

def run (s : State) (labels : List Label) : State := labels.foldl T.step s

@[simp] theorem run_cons (s : State) (label : Label) (labels : List Label) :
    T.run s (label :: labels) = T.run (T.step s label) labels := rfl

/-- Every step of the run is taken in a state that satisfies the condition. -/
def Along (condition : State → Label → Prop) : State → List Label → Prop
  | _, [] => True
  | s, label :: labels => condition s label ∧ Along condition (T.step s label) labels

instance Along.decidable {condition : State → Label → Prop}
    [∀ s label, Decidable (condition s label)] : ∀ s labels, Decidable (T.Along condition s labels)
  | _, [] => .isTrue trivial
  | s, label :: labels => @instDecidableAnd _ _ _ (Along.decidable (T.step s label) labels)

/-- The states that a run goes through, its first and last included. -/
def Reached (s : State) (labels : List Label) (t : State) : Prop :=
  ∃ before, before <+: labels ∧ t = T.run s before

section Rules

variable {T} {condition : State → Label → Prop} {s t : State} {labels : List Label}

theorem along_append {first rest : List Label} :
    T.Along condition s (first ++ rest) ↔
      T.Along condition s first ∧ T.Along condition (T.run s first) rest := by
  induction first generalizing s with
  | nil => simp [Along,run]
  | cons label first ih => simp [Along,ih,and_assoc]

theorem along_initial {before : List Label} (first : before <+: labels)
    (along : T.Along condition s labels) : T.Along condition s before := by
  induction before generalizing s labels with
  | nil => trivial
  | cons label before ih =>
    obtain ⟨after,rfl⟩ := first
    exact ⟨along.1,ih (List.prefix_append before after) along.2⟩

theorem along_forall (holds : ∀ s label, condition s label) : T.Along condition s labels := by
  induction labels generalizing s with
  | nil => trivial
  | cons label labels ih => exact ⟨holds s label,ih⟩

theorem invariant_run (invariant : State → Prop)
    (preserved : ∀ s label, condition s label → invariant s → invariant (T.step s label))
    (along : T.Along condition s labels) (start : invariant s) : invariant (T.run s labels) := by
  induction labels generalizing s with
  | nil => exact start
  | cons label labels ih => exact ih along.2 (preserved s label along.1 start)

theorem invariant_reached (invariant : State → Prop)
    (preserved : ∀ s label, condition s label → invariant s → invariant (T.step s label))
    (along : T.Along condition s labels) (start : invariant s) (reached : T.Reached s labels t) :
    invariant t := by
  obtain ⟨before,first,rfl⟩ := reached
  exact invariant_run invariant preserved (along_initial first along) start

theorem always_run (invariant : State → Prop)
    (preserved : ∀ s label, invariant s → invariant (T.step s label)) (start : invariant s)
    (labels : List Label) : invariant (T.run s labels) := by
  have free : T.Along (fun _ _ => True) s labels := along_forall fun _ _ => trivial
  exact invariant_run invariant (fun s label _ => preserved s label) free start

theorem always_reached (invariant : State → Prop)
    (preserved : ∀ s label, invariant s → invariant (T.step s label)) (start : invariant s)
    (reached : T.Reached s labels t) : invariant t := by
  obtain ⟨before,_,rfl⟩ := reached
  exact always_run invariant preserved start before

/-- What an invariant ensures of each allowed step holds all along an allowed run. -/
theorem along_invariant {ensured : State → Label → Prop} (invariant : State → Prop)
    (preserved : ∀ s label, condition s label → invariant s → invariant (T.step s label))
    (ensures : ∀ s label, condition s label → invariant s → ensured s label)
    (along : T.Along condition s labels) (start : invariant s) : T.Along ensured s labels := by
  induction labels generalizing s with
  | nil => trivial
  | cons label labels ih =>
    exact ⟨ensures s label along.1 start,ih along.2 (preserved s label along.1 start)⟩

theorem run_append {first rest : List Label} : T.run s (first ++ rest) = T.run (T.run s first) rest :=
  List.foldl_append

end Rules

/-- A state with what has been observed on the way to it, oldest first. -/
structure Logged (State Entry : Type) where
  state : State
  log : List Entry

section Log

variable {Entry : Type} (observe : State → Label → Option Entry)

/-- The transitions together with a log of what each of them lets one observe. -/
def logged : Transition (Logged State Entry) Label where
  step x label := ⟨T.step x.state label,x.log ++ (observe x.state label).toList⟩

theorem logged_run (x : Logged State Entry) (labels : List Label) :
    ((T.logged observe).run x labels).state = T.run x.state labels := by
  induction labels generalizing x with
  | nil => rfl
  | cons label labels ih => exact ih ((T.logged observe).step x label)

end Log

end Transition

end JobScheduler
