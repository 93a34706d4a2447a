import JobScheduler.Interleaving
import Mathlib.Data.List.Forall2

/-! Lockstep. Two runs of one machine take corresponding steps, and a relation on
worlds and one on calls are kept: the rules say what each kind of step has to show. -/
namespace JobScheduler

variable {σ : Signature} {ε World Oracle Request Event : Type}

/-- What a resumed call leaves: itself, the world, and the requests it starts. -/
structure Resumed (σ : Signature) (ε World Request : Type) where
  call : Call σ ε Request
  world : World
  starts : List Request

namespace Machine

variable (M : Machine σ ε World Oracle Request Event)

def resumed (call : Call σ ε Request) (oracle : Oracle) (world : World) :
    Resumed σ ε World Request :=
  match call.program with
  | .settled _ => ⟨call,world,[]⟩
  | .await op rest =>
    let answer := M.perform op oracle world
    ⟨call.advance op rest answer.1,answer.2,M.starts op⟩

variable {M} {s t : State σ ε World Request}

theorem step_resume (index : Nat) (oracle : Oracle) {call : Call σ ε Request}
    (found : s.calls[index]? = some call) :
    M.step s (.resume index oracle) =
      { world := (M.resumed call oracle s.world).world
        calls := s.calls.set index (M.resumed call oracle s.world).call ++
          (M.resumed call oracle s.world).starts.map M.accept } := by
  simp only [step,found,resumed]
  cases call.program with
  | settled result =>
    obtain ⟨inside,rfl⟩ := List.getElem?_eq_some_iff.mp found
    simp
  | await op rest => rfl

variable (alike : World → World → Prop) (twin : Call σ ε Request → Call σ ε Request → Prop)

/-- The worlds are alike and the calls are pairwise twins. -/
structure InStep (s t : State σ ε World Request) : Prop where
  worlds : alike s.world t.world
  calls : List.Forall₂ twin s.calls t.calls

variable {alike twin}

theorem forall₂_getElem? {α β : Type} {twin : α → β → Prop} {calls : List α} {others : List β}
    (index : Nat) (pairs : List.Forall₂ twin calls others) :
    (calls[index]? = none ∧ others[index]? = none) ∨
      ∃ call other, calls[index]? = some call ∧ others[index]? = some other ∧ twin call other := by
  induction pairs generalizing index with
  | nil => exact .inl ⟨rfl,rfl⟩
  | cons related _ ih =>
    cases index with
    | zero => exact .inr ⟨_,_,rfl,rfl,related⟩
    | succ index => exact ih index

theorem forall₂_set {α β : Type} {twin : α → β → Prop} {calls : List α} {others : List β}
    (index : Nat) {call : α} {other : β} (pairs : List.Forall₂ twin calls others)
    (related : twin call other) :
    List.Forall₂ twin (calls.set index call) (others.set index other) := by
  induction pairs generalizing index with
  | nil => exact .nil
  | cons first rest ih =>
    cases index with
    | zero => exact .cons related rest
    | succ index => exact .cons first (ih index)

theorem forall₂_accept (accepted : ∀ request, twin (M.accept request) (M.accept request))
    (requests : List Request) :
    List.Forall₂ twin (requests.map M.accept) (requests.map M.accept) := by
  rw [List.forall₂_same]
  intro call member
  obtain ⟨request,_,rfl⟩ := List.mem_map.mp member
  exact accepted request

theorem inStep_submit (accepted : ∀ request, twin (M.accept request) (M.accept request))
    (request : Request) (inStep : InStep alike twin s t) :
    InStep alike twin (M.step s (.submit request)) (M.step t (.submit request)) where
  worlds := inStep.worlds
  calls := List.rel_append inStep.calls (forall₂_accept accepted [request])

theorem inStep_resume (accepted : ∀ request, twin (M.accept request) (M.accept request))
    {index : Nat} {oracle other : Oracle}
    (answered : ∀ call twinned, s.calls[index]? = some call → t.calls[index]? = some twinned →
      twin call twinned →
      twin (M.resumed call oracle s.world).call (M.resumed twinned other t.world).call ∧
        alike (M.resumed call oracle s.world).world (M.resumed twinned other t.world).world ∧
        (M.resumed call oracle s.world).starts = (M.resumed twinned other t.world).starts)
    (inStep : InStep alike twin s t) :
    InStep alike twin (M.step s (.resume index oracle)) (M.step t (.resume index other)) := by
  rcases forall₂_getElem? index inStep.calls with ⟨left,right⟩ | ⟨call,twinned,left,right,related⟩
  · simpa [step,left,right] using inStep
  · obtain ⟨calls,worlds,starts⟩ := answered call twinned left right related
    rw [step_resume index oracle left,step_resume index other right,← starts]
    exact ⟨worlds,List.rel_append (forall₂_set index inStep.calls calls) (forall₂_accept accepted _)⟩

theorem inStep_crash (crashed : ∀ call twinned, twin call twinned →
      twin (M.crashCall call) (M.crashCall twinned))
    (index : Nat) (inStep : InStep alike twin s t) :
    InStep alike twin (M.step s (.crash index)) (M.step t (.crash index)) := by
  rcases forall₂_getElem? index inStep.calls with ⟨left,right⟩ | ⟨call,twinned,left,right,related⟩
  · simpa [step,left,right] using inStep
  · simp only [step,left,right]
    exact ⟨inStep.worlds,forall₂_set index inStep.calls (crashed call twinned related)⟩

theorem inStep_environment {event : Event}
    (moved : alike s.world t.world →
      alike (M.environment event s.world) (M.environment event t.world))
    (inStep : InStep alike twin s t) :
    InStep alike twin (M.step s (.environment event)) (M.step t (.environment event)) where
  worlds := moved inStep.worlds
  calls := inStep.calls

end Machine

end JobScheduler
