import JobScheduler.Program

/-! Interleavings of program calls over one shared world. A label either submits a
request, resumes one call for exactly one operation, crashes a call, or lets the
environment move. Every schedule is a list of labels; execution is deterministic. -/
namespace JobScheduler

/-- One operation of a call together with the reply it received. -/
structure Exchange (σ : Signature) (ε : Type) where
  op : σ.Op
  reply : Except ε (σ.Reply op)

/-- A call in progress. The history is newest first. -/
structure Call (σ : Signature) (ε Request : Type) where
  request : Request
  program : Program σ ε Unit
  history : List (Exchange σ ε)

structure State (σ : Signature) (ε World Request : Type) where
  world : World
  calls : List (Call σ ε Request)

inductive Label (Oracle Request Event : Type) where
  | submit (request : Request)
  | resume (index : Nat) (oracle : Oracle)
  | crash (index : Nat)
  | environment (event : Event)

/-- `starts` lists the requests that an operation issues when it is performed. -/
structure Machine (σ : Signature) (ε World Oracle Request Event : Type) where
  perform : (op : σ.Op) → Oracle → World → Except ε (σ.Reply op) × World
  starts : σ.Op → List Request
  program : Request → Program σ ε Unit
  environment : Event → World → World
  crashed : ε

variable {σ : Signature} {ε World Oracle Request Event Q : Type}

def Program.head : Program σ ε α → Option σ.Op
  | .settled _ => none
  | .await op _ => some op

theorem Program.head_eq_some {program : Program σ ε α} {op : σ.Op} :
    program.head = some op ↔ ∃ rest, program = .await op rest := by
  cases program with
  | settled result => simp [head]
  | await first rest =>
    constructor
    · intro same
      obtain rfl := Option.some.inj same
      exact ⟨rest,rfl⟩
    · rintro ⟨_,same⟩
      cases same
      rfl

def Call.advance (call : Call σ ε Request) (op : σ.Op)
    (rest : Except ε (σ.Reply op) → Program σ ε Unit) (reply : Except ε (σ.Reply op)) :
    Call σ ε Request :=
  ⟨call.request,rest reply,⟨op,reply⟩ :: call.history⟩

def Call.inProgress (call : Call σ ε Request) : Bool := call.program.head.isSome

def State.awaits (s : State σ ε World Request) (index : Nat) : Option σ.Op :=
  s.calls[index]?.bind fun call => call.program.head

theorem State.awaits_eq_some {s : State σ ε World Request} {index : Nat} {op : σ.Op} :
    s.awaits index = some op ↔
      ∃ call rest, s.calls[index]? = some call ∧ call.program = .await op rest := by
  constructor
  · intro awaiting
    obtain ⟨call,found,head⟩ := Option.bind_eq_some_iff.mp awaiting
    obtain ⟨rest,shape⟩ := Program.head_eq_some.mp head
    exact ⟨call,rest,found,shape⟩
  · rintro ⟨call,rest,found,shape⟩
    simp [awaits,found,shape,Program.head]

namespace Machine

variable (M : Machine σ ε World Oracle Request Event)

def accept (request : Request) : Call σ ε Request := ⟨request,M.program request,[]⟩

def answered (s : State σ ε World Request) (index : Nat) (call : Call σ ε Request) (op : σ.Op)
    (rest : Except ε (σ.Reply op) → Program σ ε Unit) (oracle : Oracle) :
    State σ ε World Request :=
  let answer := M.perform op oracle s.world
  { world := answer.2
    calls := s.calls.set index (call.advance op rest answer.1) ++ (M.starts op).map M.accept }

def crashCall (call : Call σ ε Request) : Call σ ε Request :=
  { call with program := .settled (.error M.crashed) }

/-- Resuming a settled or absent call stutters. -/
def step (s : State σ ε World Request) : Label Oracle Request Event → State σ ε World Request
  | .submit request => { s with calls := s.calls ++ [M.accept request] }
  | .resume index oracle =>
    match s.calls[index]? with
    | none => s
    | some call =>
      match call.program with
      | .settled _ => s
      | .await op rest => M.answered s index call op rest oracle
  | .crash index =>
    match s.calls[index]? with
    | none => s
    | some call => { s with calls := s.calls.set index (M.crashCall call) }
  | .environment event => { s with world := M.environment event s.world }

def run (s : State σ ε World Request) (labels : List (Label Oracle Request Event)) :
    State σ ε World Request :=
  labels.foldl M.step s

inductive Moves (s : State σ ε World Request) :
    Label Oracle Request Event → State σ ε World Request → Prop where
  | submit (request) : Moves s (.submit request) { s with calls := s.calls ++ [M.accept request] }
  | idle (index oracle) (settled : s.awaits index = none) : Moves s (.resume index oracle) s
  | answer (index oracle call op rest) (found : s.calls[index]? = some call)
      (awaits : call.program = .await op rest) :
      Moves s (.resume index oracle) (M.answered s index call op rest oracle)
  | absent (index) : Moves s (.crash index) s
  | crash (index call) (found : s.calls[index]? = some call) :
      Moves s (.crash index) { s with calls := s.calls.set index (M.crashCall call) }
  | environment (event) :
      Moves s (.environment event) { s with world := M.environment event s.world }

theorem step_moves (s : State σ ε World Request) (label : Label Oracle Request Event) :
    Moves M s label (M.step s label) := by
  cases label with
  | submit request => exact .submit request
  | resume index oracle =>
    simp only [step]
    split
    · rename_i found
      exact .idle index oracle (by simp [State.awaits,found])
    · rename_i call found
      split
      · rename_i settled
        exact .idle index oracle (by simp [State.awaits,found,settled,Program.head])
      · rename_i op rest awaits
        exact .answer index oracle call op rest found awaits
  | crash index =>
    simp only [step]
    split
    · exact .absent index
    · rename_i call found
      exact .crash index call found
  | environment event => exact .environment event

@[simp] theorem run_nil (s : State σ ε World Request) : M.run s [] = s := rfl

@[simp] theorem run_cons (s : State σ ε World Request) (label : Label Oracle Request Event)
    (labels : List (Label Oracle Request Event)) :
    M.run s (label :: labels) = M.run (M.step s label) labels := rfl

/-- Every step of the run is taken in a state that satisfies the condition. -/
def Along (condition : State σ ε World Request → Label Oracle Request Event → Prop) :
    State σ ε World Request → List (Label Oracle Request Event) → Prop
  | _, [] => True
  | s, label :: labels => condition s label ∧ Along condition (M.step s label) labels

instance Along.decidable {condition : State σ ε World Request → Label Oracle Request Event → Prop}
    [∀ s label, Decidable (condition s label)] : ∀ s labels, Decidable (M.Along condition s labels)
  | _, [] => .isTrue trivial
  | s, label :: labels => @instDecidableAnd _ _ _ (Along.decidable (M.step s label) labels)

/-- The states that a run goes through, its first and last included. -/
def Reached (s : State σ ε World Request) (labels : List (Label Oracle Request Event))
    (t : State σ ε World Request) : Prop :=
  ∃ before, before <+: labels ∧ t = M.run s before

/-- Every earlier and later state of the run have related worlds. -/
def Progresses (related : World → World → Prop) (s : State σ ε World Request)
    (labels : List (Label Oracle Request Event)) : Prop :=
  ∀ first second, first ++ second <+: labels →
    related (M.run s first).world (M.run s (first ++ second)).world

/-- Number of steps of a run that satisfy a decidable predicate. -/
def countAlong (counts : State σ ε World Request → Label Oracle Request Event → Bool) :
    State σ ε World Request → List (Label Oracle Request Event) → Nat
  | _, [] => 0
  | s, label :: labels =>
    (counts s label).toNat + countAlong counts (M.step s label) labels

section Rules

variable {M}
variable {condition : State σ ε World Request → Label Oracle Request Event → Prop}
variable {s : State σ ε World Request} {labels : List (Label Oracle Request Event)}

theorem along_append {first rest : List (Label Oracle Request Event)} :
    M.Along condition s (first ++ rest) ↔
      M.Along condition s first ∧ M.Along condition (M.run s first) rest := by
  induction first generalizing s with
  | nil => simp [Along]
  | cons label first ih => simp [Along,ih,and_assoc]

theorem along_mono {weak : State σ ε World Request → Label Oracle Request Event → Prop}
    (implies : ∀ s label, condition s label → weak s label) (along : M.Along condition s labels) :
    M.Along weak s labels := by
  induction labels generalizing s with
  | nil => trivial
  | cons label labels ih => exact ⟨implies _ _ along.1,ih along.2⟩

theorem reached_cons {label : Label Oracle Request Event} {t : State σ ε World Request} :
    M.Reached s (label :: labels) t ↔ t = s ∨ M.Reached (M.step s label) labels t := by
  constructor
  · rintro ⟨before,first,rfl⟩
    rcases List.prefix_cons_iff.mp first with rfl | ⟨rest,rfl,follows⟩
    · exact .inl rfl
    · exact .inr ⟨rest,follows,rfl⟩
  · rintro (rfl | ⟨before,first,rfl⟩)
    · exact ⟨[],List.nil_prefix,rfl⟩
    · exact ⟨label :: before,List.cons_prefix_cons.mpr ⟨rfl,first⟩,rfl⟩

theorem invariant_run (invariant : State σ ε World Request → Prop)
    (preserved : ∀ s label, condition s label → invariant s → invariant (M.step s label))
    (along : M.Along condition s labels) (start : invariant s) : invariant (M.run s labels) := by
  induction labels generalizing s with
  | nil => exact start
  | cons label labels ih => exact ih along.2 (preserved s label along.1 start)

theorem invariant_reached (invariant : State σ ε World Request → Prop)
    (preserved : ∀ s label, condition s label → invariant s → invariant (M.step s label))
    (along : M.Along condition s labels) (start : invariant s) {t : State σ ε World Request}
    (reached : M.Reached s labels t) : invariant t := by
  obtain ⟨before,⟨after,rfl⟩,rfl⟩ := reached
  exact invariant_run invariant preserved (along_append.mp along).1 start

theorem along_forall (holds : ∀ s label, condition s label) : M.Along condition s labels := by
  induction labels generalizing s with
  | nil => trivial
  | cons label labels ih => exact ⟨holds s label,ih⟩

theorem always_run (invariant : State σ ε World Request → Prop)
    (preserved : ∀ s label, invariant s → invariant (M.step s label)) (start : invariant s)
    (labels : List (Label Oracle Request Event)) : invariant (M.run s labels) := by
  have free : M.Along (fun _ _ => True) s labels := along_forall fun _ _ => trivial
  exact invariant_run invariant (fun s label _ => preserved s label) free start

theorem always_reached (invariant : State σ ε World Request → Prop)
    (preserved : ∀ s label, invariant s → invariant (M.step s label)) (start : invariant s)
    {t : State σ ε World Request} (reached : M.Reached s labels t) : invariant t := by
  obtain ⟨before,_,rfl⟩ := reached
  exact always_run invariant preserved start before

theorem reached_nil {t : State σ ε World Request} : M.Reached s [] t ↔ t = s := by
  constructor
  · rintro ⟨before,first,rfl⟩
    obtain rfl := List.prefix_nil.mp first
    rfl
  · rintro rfl
    exact ⟨[],List.prefix_rfl,rfl⟩

/-- What holds in all states of a run ensures something of all its steps. -/
theorem along_of_reached {ensured : State σ ε World Request → Label Oracle Request Event → Prop}
    {property : State σ ε World Request → Prop}
    (always : ∀ t, M.Reached s labels t → property t)
    (ensures : ∀ t label, property t → ensured t label) : M.Along ensured s labels := by
  induction labels generalizing s with
  | nil => trivial
  | cons label labels ih =>
    refine ⟨ensures s label (always s (reached_cons.mpr (.inl rfl))),ih fun t later => ?_⟩
    exact always t (reached_cons.mpr (.inr later))

/-- A property holds in all states of a run exactly as long as the steps meet a condition:
an invariant implies it, a step into a state that has it meets the condition, and such
a step keeps the invariant. -/
theorem reached_iff_along {property : State σ ε World Request → Prop}
    {admissible : Label Oracle Request Event → Prop} (invariant : State σ ε World Request → Prop)
    (holds : ∀ s, invariant s → property s)
    (meets : ∀ s label, admissible label → invariant s → property (M.step s label) →
      condition s label)
    (keeps : ∀ s label, admissible label → invariant s → condition s label →
      invariant (M.step s label))
    (admitted : ∀ label ∈ labels, admissible label) (start : invariant s) :
    (∀ t, M.Reached s labels t → property t) ↔ M.Along condition s labels := by
  induction labels generalizing s with
  | nil =>
    refine ⟨fun _ => trivial,fun _ t reached => ?_⟩
    rw [reached_nil.mp reached]
    exact holds s start
  | cons label labels ih =>
    have now := admitted label List.mem_cons_self
    have later := fun other member => admitted other (List.mem_cons_of_mem label member)
    constructor
    · intro always
      have next : M.Reached s (label :: labels) (M.step s label) :=
        reached_cons.mpr (.inr ⟨[],List.nil_prefix,rfl⟩)
      have met := meets s label now start (always _ next)
      refine ⟨met,(ih later (keeps s label now start met)).mp fun t reached => ?_⟩
      exact always t (reached_cons.mpr (.inr reached))
    · rintro ⟨met,rest⟩ t reached
      rcases reached_cons.mp reached with rfl | reached
      · exact holds _ start
      · exact (ih later (keeps s label now start met)).mpr rest t reached

theorem run_append {first rest : List (Label Oracle Request Event)} :
    M.run s (first ++ rest) = M.run (M.run s first) rest := List.foldl_append

section Progress

variable {related : World → World → Prop} (refl : ∀ world, related world world)
variable (trans : ∀ {first second third}, related first second → related second third →
  related first third)

include refl trans in
theorem related_run
    (along : M.Along (fun s label => related s.world (M.step s label).world) s labels) :
    related s.world (M.run s labels).world := by
  induction labels generalizing s with
  | nil => exact refl s.world
  | cons label labels ih => exact trans along.1 (ih along.2)

include refl trans in
/-- A preorder relates all states of a run as soon as each step keeps to it. -/
theorem progresses_iff : M.Progresses related s labels ↔
    M.Along (fun s label => related s.world (M.step s label).world) s labels := by
  constructor
  · intro progresses
    induction labels generalizing s with
    | nil => trivial
    | cons label labels ih =>
      refine ⟨progresses [] [label] (List.cons_prefix_cons.mpr ⟨rfl,List.nil_prefix⟩),ih ?_⟩
      intro first second follows
      exact progresses (label :: first) second (List.cons_prefix_cons.mpr ⟨rfl,follows⟩)
  · rintro along first second ⟨third,rfl⟩
    have here := (along_append.mp (along_append.mp along).1).2
    rw [run_append]
    exact related_run refl trans here

end Progress

theorem countAlong_eq_zero {counts : State σ ε World Request → Label Oracle Request Event → Bool} :
    M.countAlong counts s labels = 0 ↔ M.Along (fun s label => counts s label = false) s labels := by
  induction labels generalizing s with
  | nil => simp [countAlong,Along]
  | cons label labels ih => simp [countAlong,Along,ih]

section Invariants

variable {other : State σ ε World Request → Label Oracle Request Event → Prop}
variable (invariant : State σ ε World Request → Prop)
variable (preserved : ∀ s label, condition s label → invariant s → invariant (M.step s label))

include preserved in
theorem along_invariant (ensures : ∀ s label, condition s label → invariant s → other s label)
    (along : M.Along condition s labels) (start : invariant s) : M.Along other s labels := by
  induction labels generalizing s with
  | nil => trivial
  | cons label labels ih =>
    exact ⟨ensures s label along.1 start,ih along.2 (preserved s label along.1 start)⟩

/-- Two conditions that an invariant makes one hold along the same runs. -/
theorem along_congr (stays : ∀ s label, invariant s → invariant (M.step s label))
    (same : ∀ s label, invariant s → (condition s label ↔ other s label)) (start : invariant s) :
    M.Along condition s labels ↔ M.Along other s labels := by
  induction labels generalizing s with
  | nil => exact Iff.rfl
  | cons label labels ih => exact and_congr (same s label start) (ih (stays s label start))

include preserved in
/-- Steps of one kind spend a potential that steps of another kind pay into. -/
theorem countAlong_potential
    {spends pays : State σ ε World Request → Label Oracle Request Event → Bool}
    (potential : State σ ε World Request → Nat)
    (balance : ∀ s label, condition s label → invariant s →
      (spends s label).toNat + potential (M.step s label) ≤ potential s + (pays s label).toNat)
    (along : M.Along condition s labels) (start : invariant s) :
    M.countAlong spends s labels + potential (M.run s labels) ≤
      potential s + M.countAlong pays s labels := by
  induction labels generalizing s with
  | nil => simp [countAlong]
  | cons label labels ih =>
    have first := balance s label along.1 start
    have later := ih along.2 (preserved s label along.1 start)
    simp only [countAlong,run_cons]
    omega

end Invariants

theorem countP_set (counts : Call σ ε Request → Bool) {calls : List (Call σ ε Request)}
    {index : Nat} {call : Call σ ε Request} (found : calls[index]? = some call)
    (other : Call σ ε Request) :
    (calls.set index other).countP counts + (counts call).toNat =
      calls.countP counts + (counts other).toNat := by
  obtain ⟨inside,rfl⟩ := List.getElem?_eq_some_iff.mp found
  have counted : (counts calls[index]).toNat ≤ calls.countP counts := by
    cases passes : counts calls[index] with
    | false => exact Nat.zero_le _
    | true => exact List.countP_pos_iff.mpr ⟨_,List.getElem_mem inside,passes⟩
  rw [List.countP_set inside]
  revert counted
  generalize calls.countP counts = total
  cases counts calls[index] <;> cases counts other <;> simp <;> omega

theorem countP_answered (counts : Call σ ε Request → Bool) {index : Nat}
    {call : Call σ ε Request} {op : σ.Op} (rest : Except ε (σ.Reply op) → Program σ ε Unit)
    (oracle : Oracle) (found : s.calls[index]? = some call)
    (fresh : ∀ request, counts (M.accept request) = false) :
    (M.answered s index call op rest oracle).calls.countP counts + (counts call).toNat =
      s.calls.countP counts +
        (counts (call.advance op rest (M.perform op oracle s.world).1)).toNat := by
  have none : ((M.starts op).map M.accept).countP counts = 0 := by
    simp [List.countP_eq_zero,fresh]
  simp only [answered,List.countP_append,none,Nat.add_zero]
  exact countP_set counts found _

section Answered

variable {index : Nat} {call other : Call σ ε Request} {op : σ.Op}
variable {rest : Except ε (σ.Reply op) → Program σ ε Unit} {oracle : Oracle}

theorem answered_cases (member : other ∈ (M.answered s index call op rest oracle).calls) :
    other ∈ s.calls ∨ other = call.advance op rest (M.perform op oracle s.world).1 ∨
      ∃ request ∈ M.starts op, other = M.accept request := by
  rcases List.mem_append.mp member with old | new
  · rcases List.mem_or_eq_of_mem_set old with kept | answered
    · exact .inl kept
    · exact .inr (.inl answered)
  · obtain ⟨request,started,rfl⟩ := List.mem_map.mp new
    exact .inr (.inr ⟨request,started,rfl⟩)

theorem answered_keeps (found : s.calls[index]? = some call) (member : other ∈ s.calls) :
    other = call ∨ other ∈ (M.answered s index call op rest oracle).calls := by
  obtain ⟨position,here⟩ := List.getElem?_of_mem member
  by_cases same : index = position
  · subst same
    exact .inl (Option.some.inj (here.symm.trans found))
  · refine .inr (List.mem_append_left _ (List.mem_of_getElem? (i := position) ?_))
    rw [List.getElem?_set_ne same]
    exact here

variable (op rest oracle) in
theorem answered_self (found : s.calls[index]? = some call) :
    call.advance op rest (M.perform op oracle s.world).1 ∈
      (M.answered s index call op rest oracle).calls :=
  List.mem_append_left _ (List.mem_set (List.getElem?_eq_some_iff.mp found).1 _)

theorem answered_started {request : Request} (started : request ∈ M.starts op) :
    M.accept request ∈ (M.answered s index call op rest oracle).calls :=
  List.mem_append_right _ (List.mem_map_of_mem started)

end Answered

/-- What holds of every new call, and is kept by each answer and each crash, holds of
every call after a step. -/
theorem every_moves (holds : Call σ ε Request → Prop) {label : Label Oracle Request Event}
    {t : State σ ε World Request} (moves : M.Moves s label t)
    (accepted : ∀ request, holds (M.accept request))
    (advanced : ∀ index oracle call op rest, label = .resume index oracle →
      s.calls[index]? = some call → call.program = .await op rest → holds call →
      holds (call.advance op rest (M.perform op oracle s.world).1))
    (crashed : ∀ index call, label = .crash index → s.calls[index]? = some call → holds call →
      holds (M.crashCall call))
    (every : ∀ call ∈ s.calls, holds call) : ∀ call ∈ t.calls, holds call := by
  cases moves with
  | submit request =>
    intro call member
    rcases List.mem_append.mp member with old | new
    · exact every call old
    · obtain rfl := List.mem_singleton.mp new
      exact accepted request
  | idle | absent | environment => exact every
  | answer index oracle call op rest found awaits =>
    intro other member
    rcases answered_cases member with old | rfl | ⟨request,_,rfl⟩
    · exact every other old
    · exact advanced index oracle call op rest rfl found awaits
        (every call (List.mem_of_getElem? found))
    · exact accepted request
  | crash index call found =>
    intro other member
    rcases List.mem_or_eq_of_mem_set member with kept | rfl
    · exact every other kept
    · exact crashed index call rfl found (every call (List.mem_of_getElem? found))

/-- A call that was there before a step is there after it, with what it has exchanged. -/
theorem history_moves {label : Label Oracle Request Event} {t : State σ ε World Request}
    (moves : M.Moves s label t) {call : Call σ ε Request} (member : call ∈ s.calls) :
    ∃ later ∈ t.calls, later.request = call.request ∧ call.history <:+ later.history := by
  cases moves with
  | submit request => exact ⟨call,List.mem_append_left _ member,rfl,List.suffix_rfl⟩
  | idle | absent | environment => exact ⟨call,member,rfl,List.suffix_rfl⟩
  | answer index oracle own op rest found awaits =>
    rcases answered_keeps found member with rfl | kept
    · exact ⟨_,answered_self op rest oracle found,rfl,List.suffix_cons ..⟩
    · exact ⟨call,kept,rfl,List.suffix_rfl⟩
  | crash index own found =>
    obtain ⟨inside,_⟩ := List.getElem?_eq_some_iff.mp found
    obtain ⟨position,here⟩ := List.getElem?_of_mem member
    by_cases same : index = position
    · subst same
      obtain rfl : own = call := Option.some.inj (found.symm.trans here)
      exact ⟨_,List.mem_set inside _,rfl,List.suffix_rfl⟩
    · refine ⟨call,List.mem_of_getElem? (i := position) ?_,rfl,List.suffix_rfl⟩
      rw [List.getElem?_set_ne same]
      exact here

/-- Where a call after a step comes from: it was there, with the same history or one
exchange less, or it is new. -/
inductive Origin (s : State σ ε World Request) (label : Label Oracle Request Event)
    (later : Call σ ε Request) : Prop where
  | kept (call) (member : call ∈ s.calls) (request : later.request = call.request)
      (history : later.history = call.history) : Origin s label later
  | answered (index oracle call op rest) (is : label = .resume index oracle)
      (found : s.calls[index]? = some call) (awaits : call.program = .await op rest)
      (advanced : later = call.advance op rest (M.perform op oracle s.world).1) :
      Origin s label later
  | submitted (is : label = .submit later.request) (history : later.history = []) :
      Origin s label later
  | started (op) (member : later.request ∈ M.starts op) (history : later.history = []) :
      Origin s label later

theorem origin_moves {label : Label Oracle Request Event} {t : State σ ε World Request}
    (moves : M.Moves s label t) {later : Call σ ε Request} (member : later ∈ t.calls) :
    M.Origin s label later := by
  cases moves with
  | submit request =>
    rcases List.mem_append.mp member with old | new
    · exact .kept later old rfl rfl
    · obtain rfl := List.mem_singleton.mp new
      exact .submitted rfl rfl
  | idle | absent | environment => exact .kept later member rfl rfl
  | answer index oracle call op rest found awaits =>
    rcases answered_cases member with old | rfl | ⟨request,started,rfl⟩
    · exact .kept later old rfl rfl
    · exact .answered index oracle call op rest rfl found awaits rfl
    · exact .started op started rfl
  | crash index call found =>
    rcases List.mem_or_eq_of_mem_set member with old | rfl
    · exact .kept later old rfl rfl
    · exact .kept call (List.mem_of_getElem? found) rfl rfl

end Rules

end Machine

def Program.Monitor.phase (m : Program.Monitor σ ε Q) (start : Q) : List (Exchange σ ε) → Q
  | [] => start
  | exchange :: history => m.next (m.phase start history) exchange.op exchange.reply

/-- A monitor that every program of a machine meets from its request's first state. -/
structure Protocol (M : Machine σ ε World Oracle Request Event) (Q : Type) where
  monitor : Program.Monitor σ ε Q
  start : Request → Q
  post : Q → Except ε Unit → Prop
  meets : ∀ request, Program.wp monitor post (M.program request) (start request)

namespace Protocol

variable {M : Machine σ ε World Oracle Request Event} (P : Protocol M Q)

def phase (call : Call σ ε Request) : Q := P.monitor.phase (P.start call.request) call.history

/-- What remains of each call still meets the monitor from the call's phase. -/
def Followed (s : State σ ε World Request) : Prop :=
  ∀ call ∈ s.calls, Program.wp P.monitor P.post call.program (P.phase call)

theorem followed_accept (request : Request) :
    Program.wp P.monitor P.post (M.accept request).program (P.phase (M.accept request)) :=
  P.meets request

/-- The replies that a step hands out, and the crashes it causes, are among those
the monitor relies on. -/
def Answers (s : State σ ε World Request) : Label Oracle Request Event → Prop
  | .resume index oracle => ∀ call op rest, s.calls[index]? = some call →
      call.program = .await op rest →
      P.monitor.answers (P.phase call) op (M.perform op oracle s.world).1
  | .crash index => ∀ call, s.calls[index]? = some call →
      P.post (P.phase call) (.error M.crashed)
  | _ => True

variable {P} {s : State σ ε World Request}

theorem Followed.await (followed : P.Followed s) {index : Nat} {call : Call σ ε Request}
    {op : σ.Op} {rest : Except ε (σ.Reply op) → Program σ ε Unit}
    (found : s.calls[index]? = some call) (awaits : call.program = .await op rest) :
    P.monitor.allowed (P.phase call) op ∧
      ∀ reply, P.monitor.answers (P.phase call) op reply →
        Program.wp P.monitor P.post (rest reply) (P.monitor.next (P.phase call) op reply) := by
  have whole := followed call (List.mem_of_getElem? found)
  rw [awaits] at whole
  exact whole

theorem Followed.allowed (followed : P.Followed s) {index : Nat} {call : Call σ ε Request}
    {op : σ.Op} {rest : Except ε (σ.Reply op) → Program σ ε Unit}
    (found : s.calls[index]? = some call) (awaits : call.program = .await op rest) :
    P.monitor.allowed (P.phase call) op := (followed.await found awaits).1

theorem followed_moves {label : Label Oracle Request Event} {t : State σ ε World Request}
    (moves : M.Moves s label t) (answers : P.Answers s label) (followed : P.Followed s) :
    P.Followed t := by
  refine Machine.every_moves _ moves P.followed_accept ?_ ?_ followed
  · intro index oracle call op rest is found awaits _
    subst is
    exact (followed.await found awaits).2 _ (answers call op rest found awaits)
  · intro index call is found _
    subst is
    exact answers call found

/-- What every reply keeps true of a phase stays true of each call. -/
theorem phase_persists (holds : Q → Prop)
    (closed : ∀ q op reply, holds q → holds (P.monitor.next q op reply))
    {label : Label Oracle Request Event} {t : State σ ε World Request}
    (moves : M.Moves s label t) {index : Nat} {call : Call σ ε Request}
    (found : s.calls[index]? = some call) (now : holds (P.phase call)) :
    ∃ later, t.calls[index]? = some later ∧ holds (P.phase later) := by
  obtain ⟨inside,here⟩ := List.getElem?_eq_some_iff.mp found
  cases moves with
  | submit request => exact ⟨call,by simp [List.getElem?_append_left inside,found],now⟩
  | idle => exact ⟨call,found,now⟩
  | answer moved oracle other op rest foundOther awaits =>
    by_cases same : moved = index
    · subst same
      obtain rfl : other = call := Option.some.inj (foundOther.symm.trans found)
      refine ⟨other.advance op rest (M.perform op oracle s.world).1,?_,closed _ _ _ now⟩
      simp [Machine.answered,List.getElem?_append_left,inside]
    · refine ⟨call,?_,now⟩
      simp [Machine.answered,List.getElem?_append_left,inside,same,here]
  | absent => exact ⟨call,found,now⟩
  | crash moved other foundOther =>
    by_cases same : moved = index
    · subst same
      obtain rfl : other = call := Option.some.inj (foundOther.symm.trans found)
      exact ⟨M.crashCall other,by simp [inside],now⟩
    · exact ⟨call,by simp [same,found],now⟩
  | environment event => exact ⟨call,found,now⟩

/-- The protocol of a machine whose calls await operations of one class only. -/
def within (vocabulary : σ.Op → Prop)
    (uses : ∀ request, Program.Uses vocabulary (M.program request)) : Protocol M Unit where
  monitor := .within vocabulary
  start _ := ()
  post _ _ := True
  meets := uses

theorem within_step {vocabulary : σ.Op → Prop}
    {uses : ∀ request, Program.Uses vocabulary (M.program request)}
    (label : Label Oracle Request Event) (followed : (within vocabulary uses).Followed s) :
    (within vocabulary uses).Followed (M.step s label) := by
  refine followed_moves (M.step_moves s label) ?_ followed
  cases label <;> simp [Answers,within,Program.Monitor.within]

theorem followed_nil (world : World) : P.Followed (⟨world,[]⟩ : State σ ε World Request) := by
  simp [Followed]

end Protocol

end JobScheduler
