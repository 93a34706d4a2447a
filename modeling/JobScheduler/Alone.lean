import JobScheduler.Interleaving

/-! Calls that run alone. Resuming one call until it settles does to the world what its
program does in a sequential run, whatever other calls are suspended. -/
namespace JobScheduler.Machine

variable {σ : Signature} {ε World Oracle Request Event : Type}
variable (M : Machine σ ε World Oracle Request Event)

/-- The resumptions that a program needs to settle. -/
def resumptions (index : Nat) (program : Program σ ε Unit) (oracles : Nat → Oracle)
    (world : World) : List (Label Oracle Request Event) :=
  (List.range (Program.trace M.perform program oracles world).length).map fun n =>
    .resume index (oracles n)

def serving (s : State σ ε World Request) (request : Request) (oracles : Nat → Oracle) :
    List (Label Oracle Request Event) :=
  .submit request :: M.resumptions s.calls.length (M.program request) oracles s.world

/-- What a call leaves behind that has run alone from `s` to `t`. -/
structure Settles (s t : State σ ε World Request) (index : Nat) (request : Request)
    (ran : Program.Ran ε Unit Oracle World) : Prop where
  world : t.world = ran.world
  settled : ∃ call, t.calls[index]? = some call ∧ call.request = request ∧
    call.program = .settled ran.result
  others : ∀ other call, other ≠ index → s.calls[other]? = some call → t.calls[other]? = some call

variable {M} {s : State σ ε World Request} {oracles : Nat → Oracle}

theorem settles_resumptions {index : Nat} {call : Call σ ε Request}
    (found : s.calls[index]? = some call) :
    Settles s (M.run s (M.resumptions index call.program oracles s.world)) index call.request
      (Program.eval M.perform call.program oracles s.world) := by
  obtain ⟨request,program,history⟩ := call
  induction program generalizing s oracles history with
  | settled result => exact ⟨rfl,⟨_,found,rfl,rfl⟩,fun _ _ _ kept => kept⟩
  | await op resume ih =>
    have first : M.step s (.resume index (oracles 0)) =
        M.answered s index ⟨request,.await op resume,history⟩ op resume (oracles 0) := by
      simp [step,found]
    have bound : index < s.calls.length := (List.getElem?_eq_some_iff.mp found).1
    have resumed : (M.answered s index ⟨request,.await op resume,history⟩ op resume
        (oracles 0)).calls[index]? = some ⟨request,resume (M.perform op (oracles 0) s.world).1,
          ⟨op,(M.perform op (oracles 0) s.world).1⟩ :: history⟩ := by
      simp [answered,Call.advance,List.getElem?_append_left,bound]
    have rest := @ih _ _ (fun n => oracles (n + 1)) _ resumed
    have labels : M.resumptions index (.await op resume) oracles s.world =
        .resume index (oracles 0) :: M.resumptions index (resume (M.perform op (oracles 0) s.world).1)
          (fun n => oracles (n + 1)) (M.perform op (oracles 0) s.world).2 := by
      simp [resumptions,Program.trace,List.range_succ_eq_map]
    rw [labels,run_cons,first]
    refine ⟨rest.world,rest.settled,fun other call different kept => ?_⟩
    apply rest.others other call different
    have inside : other < s.calls.length := (List.getElem?_eq_some_iff.mp kept).1
    simp only [answered]
    rw [List.getElem?_append_left (by simpa using inside),List.getElem?_set_ne (Ne.symm different)]
    exact kept

variable (M) in
/-- A request can be served alone from any state. -/
theorem settles_serving (s : State σ ε World Request) (request : Request) (oracles : Nat → Oracle) :
    Settles s (M.run s (M.serving s request oracles)) s.calls.length request
      (Program.eval M.perform (M.program request) oracles s.world) := by
  have found : (M.step s (.submit request)).calls[s.calls.length]? = some (M.accept request) := by
    simp [step]
  have served : Settles _ (M.run s (M.serving s request oracles)) s.calls.length request _ :=
    settles_resumptions found
  refine ⟨served.world,served.settled,fun other call different kept => ?_⟩
  apply served.others other call different
  have inside : other < s.calls.length := (List.getElem?_eq_some_iff.mp kept).1
  simpa [step,List.getElem?_append_left,inside] using kept

theorem serving_world (request : Request) :
    (M.run s (M.serving s request oracles)).world =
      (Program.eval M.perform (M.program request) oracles s.world).world :=
  (settles_serving M s request oracles).world

end JobScheduler.Machine
