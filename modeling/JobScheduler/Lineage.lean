import JobScheduler.Interleaving
import JobScheduler.Transition

/-! Which call began which. A run is followed together with the parent of each call: the
call whose operation began it, none for a submitted request. -/
namespace JobScheduler

structure Lineage (σ : Signature) (ε World Request : Type) where
  state : State σ ε World Request
  parents : List (Option Nat)

variable {σ : Signature} {ε World Oracle Request Event : Type}

def Label.resumed : Label Oracle Request Event → Option Nat
  | .resume index _ => some index
  | _ => none

def Lineage.parent (x : Lineage σ ε World Request) (place : Nat) : Option Nat :=
  x.parents[place]?.join

def Lineage.Aligned (x : Lineage σ ε World Request) : Prop :=
  x.parents.length = x.state.calls.length

namespace Machine

variable (M : Machine σ ε World Oracle Request Event)

/-- The calls that a step adds have the resumed call as their parent. -/
def lineage : Transition (Lineage σ ε World Request) (Label Oracle Request Event) where
  step x label :=
    { state := M.step x.state label
      parents := x.parents ++
        List.replicate ((M.step x.state label).calls.length - x.state.calls.length) label.resumed }

/-- Where a call of the next state comes from. -/
inductive Comes (x : Lineage σ ε World Request) (label : Label Oracle Request Event) (place : Nat)
    (call : Call σ ε Request) : Prop where
  | kept (before : x.state.calls[place]? = some call)
      (same : (M.lineage.step x label).parent place = x.parent place)
  | answered (oracle old op rest) (is : label = .resume place oracle)
      (found : x.state.calls[place]? = some old) (awaits : old.program = .await op rest)
      (advanced : call = old.advance op rest (M.perform op oracle x.state.world).1)
      (same : (M.lineage.step x label).parent place = x.parent place)
  | crashed (old) (found : x.state.calls[place]? = some old) (settled : call = M.crashCall old)
      (same : (M.lineage.step x label).parent place = x.parent place)
  | submitted (request) (is : label = .submit request) (accepted : call = M.accept request)
      (orphan : (M.lineage.step x label).parent place = none)
  | started (index oracle old op rest request) (is : label = .resume index oracle)
      (found : x.state.calls[index]? = some old) (awaits : old.program = .await op rest)
      (begun : request ∈ M.starts op) (accepted : call = M.accept request)
      (child : (M.lineage.step x label).parent place = some index)

section Rules

variable {M} {x : Lineage σ ε World Request} {label : Label Oracle Request Event} {place : Nat}

theorem step_length (s : State σ ε World Request) (label : Label Oracle Request Event) :
    s.calls.length ≤ (M.step s label).calls.length := by
  have moves := M.step_moves s label
  generalize M.step s label = t at moves
  cases moves <;> simp [answered]

theorem aligned_step (aligned : x.Aligned) : (M.lineage.step x label).Aligned := by
  have grows := M.step_length x.state label
  simp only [Lineage.Aligned,lineage,List.length_append,List.length_replicate] at aligned ⊢
  omega

theorem parent_old (inside : place < x.parents.length) :
    (M.lineage.step x label).parent place = x.parent place := by
  simp only [Lineage.parent,lineage,List.getElem?_append_left inside]

theorem parent_new (aligned : x.Aligned) (beyond : x.state.calls.length ≤ place)
    (within : place < (M.step x.state label).calls.length) :
    (M.lineage.step x label).parent place = label.resumed := by
  have outside : x.parents.length ≤ place := Nat.le_trans (Nat.le_of_eq aligned) beyond
  simp only [Lineage.parent,lineage,List.getElem?_append_right outside]
  rw [List.getElem?_replicate_of_lt]
  · rfl
  · simp only [Lineage.Aligned] at aligned
    omega

theorem lineage_comes (aligned : x.Aligned) {call : Call σ ε Request}
    (here : (M.lineage.step x label).state.calls[place]? = some call) :
    M.Comes x label place call := by
  have within := (List.getElem?_eq_some_iff.mp here).1
  have old : ∀ {before}, x.state.calls[place]? = some before →
      (M.lineage.step x label).parent place = x.parent place := fun found =>
    parent_old (aligned.symm ▸ (List.getElem?_eq_some_iff.mp found).1)
  have new : x.state.calls.length ≤ place → place < (M.step x.state label).calls.length →
      (M.lineage.step x label).parent place = label.resumed := parent_new aligned
  change (M.step x.state label).calls[place]? = some call at here
  change place < (M.step x.state label).calls.length at within
  have moves := M.step_moves x.state label
  generalize M.step x.state label = t at moves here within new
  cases moves with
  | submit request =>
    rcases Nat.lt_or_ge place x.state.calls.length with inside | beyond
    · rw [List.getElem?_append_left inside] at here
      exact .kept here (old here)
    · rw [List.getElem?_append_right beyond] at here
      exact .submitted request rfl (List.mem_singleton.mp (List.mem_of_getElem? here))
        (new beyond within)
  | idle | absent | environment => exact .kept here (old here)
  | answer index oracle caller op rest found awaits =>
    rcases Nat.lt_or_ge place x.state.calls.length with inside | beyond
    · simp only [answered] at here
      rw [List.getElem?_append_left (by simpa using inside)] at here
      by_cases own : place = index
      · subst own
        rw [List.getElem?_set_self inside] at here
        exact .answered oracle caller op rest rfl found awaits (Option.some.inj here).symm (old found)
      · rw [List.getElem?_set_ne (Ne.symm own)] at here
        exact .kept here (old here)
    · simp only [answered] at here
      rw [List.getElem?_append_right (by simpa using beyond)] at here
      obtain ⟨request,begun,rfl⟩ := List.mem_map.mp (List.mem_of_getElem? here)
      exact .started index oracle caller op rest request rfl found awaits begun rfl
        (new beyond within)
  | crash index caller found =>
    by_cases own : place = index
    · subst own
      rw [List.getElem?_set_self (List.getElem?_eq_some_iff.mp found).1] at here
      exact .crashed caller found (Option.some.inj here).symm (old found)
    · rw [List.getElem?_set_ne (Ne.symm own)] at here
      exact .kept here (old here)

theorem step_comes {s : State σ ε World Request} {call : Call σ ε Request}
    (here : (M.step s label).calls[place]? = some call) :
    M.Comes ⟨s,List.replicate s.calls.length none⟩ label place call := by
  have aligned : (⟨s,List.replicate s.calls.length none⟩ : Lineage σ ε World Request).Aligned :=
    List.length_replicate
  exact lineage_comes aligned here

theorem call_remains (label : Label Oracle Request Event) {s : State σ ε World Request}
    {index : Nat} {call : Call σ ε Request} (found : s.calls[index]? = some call) :
    ∃ later, (M.step s label).calls[index]? = some later ∧ later.request = call.request ∧
      call.history <:+ later.history := by
  obtain ⟨inside,here⟩ := List.getElem?_eq_some_iff.mp found
  have moves := M.step_moves s label
  generalize M.step s label = t at moves
  cases moves with
  | submit request => exact ⟨call,by simp [List.getElem?_append_left inside,found],rfl,List.suffix_refl _⟩
  | idle | absent | environment => exact ⟨call,found,rfl,List.suffix_refl _⟩
  | answer moved oracle other op rest foundOther awaits =>
    by_cases same : moved = index
    · subst same
      obtain rfl : other = call := Option.some.inj (foundOther.symm.trans found)
      refine ⟨other.advance op rest (M.perform op oracle s.world).1,?_,rfl,List.suffix_cons ..⟩
      simp [answered,List.getElem?_append_left,inside]
    · refine ⟨call,?_,rfl,List.suffix_refl _⟩
      simp [answered,List.getElem?_append_left,inside,same,here]
  | crash moved other foundOther =>
    by_cases same : moved = index
    · subst same
      obtain rfl : other = call := Option.some.inj (foundOther.symm.trans found)
      exact ⟨M.crashCall other,by simp [inside],rfl,List.suffix_refl _⟩
    · exact ⟨call,by simp [same,found],rfl,List.suffix_refl _⟩

end Rules

end Machine

end JobScheduler
