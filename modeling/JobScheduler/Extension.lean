import JobScheduler.Lockstep
import JobScheduler.Transcript

/-! Extended alphabets. A front awaits the operations of the machine that it stands before,
and some of its own, which read the world at most. If each of its programs asks of that
machine what one of the machine's own programs asks, whatever the front reads and answers in
between, then its runs are runs of the machine. -/
namespace JobScheduler

variable {σ τ : Signature} {ε World Oracle Request Outer Event α β : Type}

/-- The operations of a machine, and those that only its front has. -/
abbrev Signature.extend (σ τ : Signature) : Signature where
  Op := σ.Op ⊕ τ.Op
  Reply := Sum.elim σ.Reply τ.Reply

namespace Program

def lift : Program σ ε α → Program (σ.extend τ) ε α
  | .settled result => .settled result
  | .await op resume => .await (.inl op) fun reply => lift (resume reply)

theorem uses_lift {vocabulary : σ.Op → Prop} {more : (σ.extend τ).Op → Prop} {program : Program σ ε α}
    (uses : Uses vocabulary program) (includes : ∀ op, vocabulary op → more (.inl op)) :
    Uses more (lift program) := by
  induction program with
  | settled result => trivial
  | await op resume ih => exact ⟨includes op uses.1,fun reply _ => ih reply (uses.2 reply trivial)⟩

/-- What the outer program awaits of the machine is what the inner one awaits. -/
def Covers : Program (σ.extend τ) ε α → Program σ ε β → Prop
  | .settled _, inner => ∃ result, inner = .settled result
  | .await (.inl op) resume, inner =>
    ∃ rest, inner = .await op rest ∧ ∀ reply, Covers (resume reply) (rest reply)
  | .await (.inr _) resume, inner => ∀ reply, Covers (resume reply) inner

abbrev Apart (outer : Program (σ.extend τ) ε α) : Prop :=
  ∀ result : Except ε Unit, Covers outer (.settled result : Program σ ε Unit)

theorem apart_settled (result : Except ε α) :
    Apart (.settled result : Program (σ.extend τ) ε α) :=
  fun inner => ⟨inner,rfl⟩

theorem apart_own {op : τ.Op} {resume : Except ε (τ.Reply op) → Program (σ.extend τ) ε α}
    (rest : ∀ reply, Apart (resume reply)) :
    Apart (.await (.inr op) resume : Program (σ.extend τ) ε α) :=
  fun result reply => rest reply result

section Rules

variable {outer : Program (σ.extend τ) ε α} {inner : Program σ ε Unit}

theorem covers_bind {next : α → Program (σ.extend τ) ε β} (covers : Covers outer inner)
    (apart : ∀ value, Apart (next value)) : Covers (outer >>= next) inner := by
  change Covers (outer.bind next) inner
  induction outer generalizing inner with
  | settled result =>
    obtain ⟨own,rfl⟩ := covers
    cases result with
    | ok value => exact apart value own
    | error e => exact ⟨own,rfl⟩
  | await op resume ih =>
    cases op with
    | inl op =>
      obtain ⟨rest,rfl,later⟩ := covers
      exact ⟨rest,rfl,fun reply => ih reply (later reply)⟩
    | inr op => exact fun reply => ih reply (covers reply)

theorem covers_tryCatch {handler : ε → Program (σ.extend τ) ε α} (covers : Covers outer inner)
    (apart : ∀ e, Apart (handler e)) : Covers (MonadExcept.tryCatch outer handler) inner := by
  change Covers (outer.tryCatch handler) inner
  induction outer generalizing inner with
  | settled result =>
    obtain ⟨own,rfl⟩ := covers
    cases result with
    | ok value => exact ⟨own,rfl⟩
    | error e => exact apart e own
  | await op resume ih =>
    cases op with
    | inl op =>
      obtain ⟨rest,rfl,later⟩ := covers
      exact ⟨rest,rfl,fun reply => ih reply (later reply)⟩
    | inr op => exact fun reply => ih reply (covers reply)

theorem covers_lift (program : Program σ ε α) : Covers (lift program : Program (σ.extend τ) ε α) program := by
  induction program with
  | settled result => exact ⟨result,rfl⟩
  | await op resume ih => exact ⟨resume,rfl,ih⟩

/-- What becomes of the result of the inner program is nothing to the outer one. -/
theorem Covers.discard {program : Program σ ε β} (covers : Covers outer program) :
    Covers outer (do let _ ← program; pure ()) := by
  change Covers outer (program.bind fun _ => pure ())
  induction outer generalizing program with
  | settled result =>
    obtain ⟨own,rfl⟩ := covers
    cases own with
    | ok value => exact ⟨.ok (),rfl⟩
    | error e => exact ⟨.error e,rfl⟩
  | await op resume ih =>
    cases op with
    | inl op =>
      obtain ⟨rest,rfl,later⟩ := covers
      exact ⟨_,rfl,fun reply => ih reply (later reply)⟩
    | inr op => exact fun reply => ih reply (covers reply)

end Rules

end Program

def Exchange.inner : Exchange (σ.extend τ) ε → Option (Exchange σ ε)
  | ⟨.inl op,reply⟩ => some ⟨op,reply⟩
  | ⟨.inr _,_⟩ => none

def Exchange.own : Exchange (σ.extend τ) ε → Option (Exchange τ ε)
  | ⟨.inl _,_⟩ => none
  | ⟨.inr op,reply⟩ => some ⟨op,reply⟩

/-- What a program shows, it shows when it is lifted. The front's own exchanges stay what they
were. -/
theorem Program.shows_lift {innerMay : List (Exchange σ ε) → σ.Op → Prop}
    {innerPost : List (Exchange σ ε) → Except ε α → Prop}
    {may : List (Exchange (σ.extend τ) ε) → (σ.extend τ).Op → Prop}
    {post : List (Exchange (σ.extend τ) ε) → Except ε α → Prop}
    {history : List (Exchange (σ.extend τ) ε)} {program : Program σ ε α}
    (shows : Shows innerMay innerPost (history.filterMap Exchange.inner) program)
    (asks : ∀ later op, later.filterMap Exchange.own = history.filterMap Exchange.own →
      innerMay (later.filterMap Exchange.inner) op → may later (.inl op))
    (settles : ∀ later result, later.filterMap Exchange.own = history.filterMap Exchange.own →
      innerPost (later.filterMap Exchange.inner) result → post later result) :
    Shows may post history (lift program) := by
  induction program generalizing history with
  | settled result => exact settles history result rfl shows
  | await op resume ih =>
    refine ⟨asks history op rfl shows.1,fun reply _ => ?_⟩
    have later : Shows innerMay innerPost
        ((⟨.inl op,reply⟩ :: history).filterMap Exchange.inner) (resume reply) := shows.2 reply trivial
    exact ih reply later asks settles

def Label.on (behalf : Outer → Request) : Label Oracle Outer Event → Label Oracle Request Event
  | .submit request => .submit (behalf request)
  | .resume index oracle => .resume index oracle
  | .crash index => .crash index
  | .environment event => .environment event

def Label.resumes : Label Oracle Request Event → Bool
  | .resume _ _ => true
  | _ => false

/-- Each request of the front is served on behalf of a request of the machine. -/
structure Front (N : Machine (σ.extend τ) ε World Oracle Outer Event)
    (M : Machine σ ε World Oracle Request Event) where
  behalf : Outer → Request
  performs : ∀ op oracle world, N.perform (.inl op) oracle world = M.perform op oracle world
  reads : ∀ op oracle world, (N.perform (.inr op) oracle world).2 = world
  starts : ∀ op, (N.starts (.inl op)).map behalf = M.starts op
  startsOwn : ∀ op, N.starts (.inr op) = []
  environment : N.environment = M.environment
  covers : ∀ request, Program.Covers (N.program request) (M.program (behalf request))

namespace Front

variable {N : Machine (σ.extend τ) ε World Oracle Outer Event}
variable {M : Machine σ ε World Oracle Request Event} (F : Front N M)

structure Stands (outer : Call (σ.extend τ) ε Outer) (inner : Call σ ε Request) : Prop where
  request : inner.request = F.behalf outer.request
  program : Program.Covers outer.program inner.program
  history : inner.history = outer.history.filterMap Exchange.inner

/-- The same world, and calls that stand for each other in their order. -/
structure Simulates (s : State (σ.extend τ) ε World Outer) (t : State σ ε World Request) : Prop where
  world : s.world = t.world
  calls : List.Forall₂ F.Stands s.calls t.calls

variable {F} {s : State (σ.extend τ) ε World Outer} {t : State σ ε World Request}

theorem Simulates.at (simulates : F.Simulates s t) {index : Nat} {outer : Call (σ.extend τ) ε Outer}
    (found : s.calls[index]? = some outer) :
    ∃ inner, t.calls[index]? = some inner ∧ F.Stands outer inner := by
  rcases Machine.forall₂_getElem? index simulates.calls with ⟨absent,_⟩ | ⟨own,inner,here,there,stands⟩
  · rw [found] at absent
    cases absent
  · obtain rfl : outer = own := Option.some.inj (found.symm.trans here)
    exact ⟨inner,there,stands⟩

theorem Simulates.call (simulates : F.Simulates s t) {outer : Call (σ.extend τ) ε Outer}
    (member : outer ∈ s.calls) : ∃ inner ∈ t.calls, F.Stands outer inner := by
  obtain ⟨index,found⟩ := List.getElem?_of_mem member
  obtain ⟨inner,there,stands⟩ := simulates.at found
  exact ⟨inner,List.mem_of_getElem? there,stands⟩

theorem stands_accept (request : Outer) :
    F.Stands (N.accept request) (M.accept (F.behalf request)) :=
  ⟨rfl,F.covers request,rfl⟩

theorem stands_starts (op : σ.Op) :
    List.Forall₂ F.Stands ((N.starts (.inl op)).map N.accept) ((M.starts op).map M.accept) := by
  rw [← F.starts op,List.map_map]
  induction N.starts (.inl op) with
  | nil => exact .nil
  | cons request requests ih => exact .cons (stands_accept request) ih

theorem stands_crash {outer : Call (σ.extend τ) ε Outer} {inner : Call σ ε Request}
    (stands : F.Stands outer inner) : F.Stands (N.crashCall outer) (M.crashCall inner) :=
  ⟨stands.request,⟨_,rfl⟩,stands.history⟩

theorem stands_own {outer : Call (σ.extend τ) ε Outer} {inner : Call σ ε Request} {op : τ.Op}
    {resume : Except ε (τ.Reply op) → Program (σ.extend τ) ε Unit}
    (awaits : outer.program = .await (.inr op) resume) (reply : Except ε (τ.Reply op))
    (stands : F.Stands outer inner) : F.Stands (outer.advance (.inr op) resume reply) inner where
  request := stands.request
  program := by
    have covers := stands.program
    rw [awaits] at covers
    exact covers reply
  history := stands.history

theorem stands_inner {outer : Call (σ.extend τ) ε Outer} {inner : Call σ ε Request} {op : σ.Op}
    {resume : Except ε (σ.Reply op) → Program (σ.extend τ) ε Unit}
    (awaits : outer.program = .await (.inl op) resume) (reply : Except ε (σ.Reply op))
    (stands : F.Stands outer inner) : ∃ rest, inner.program = .await op rest ∧
      F.Stands (outer.advance (.inl op) resume reply) (inner.advance op rest reply) := by
  have covers := stands.program
  rw [awaits] at covers
  obtain ⟨rest,same,later⟩ := covers
  refine ⟨rest,same,stands.request,later reply,?_⟩
  exact congrArg (⟨op,reply⟩ :: ·) stands.history

/-- A step of the front is the step of the machine that it stands for, or none if it only
resumes a call. -/
theorem simulates_step (simulates : F.Simulates s t) (label : Label Oracle Outer Event) :
    F.Simulates (N.step s label) (M.step t (label.on F.behalf)) ∨
      label.resumes = true ∧ F.Simulates (N.step s label) t := by
  cases label with
  | submit request =>
    exact .inl ⟨simulates.world,List.rel_append simulates.calls (.cons (stands_accept request) .nil)⟩
  | resume index oracle =>
    have moves := N.step_moves s (.resume index oracle)
    generalize N.step s (.resume index oracle) = u at moves
    cases moves with
    | idle => exact .inr ⟨rfl,simulates⟩
    | answer index oracle call op rest found awaits =>
      obtain ⟨inner,there,stands⟩ := simulates.at found
      cases op with
      | inl op =>
        obtain ⟨resume,same,later⟩ := stands_inner awaits (M.perform op oracle t.world).1 stands
        have moved : M.step t (.resume index oracle) = M.answered t index inner op resume oracle := by
          simp [Machine.step,there,same]
        left
        rw [Label.on,moved]
        refine ⟨?_,?_⟩
        · simp only [Machine.answered,F.performs,simulates.world]
        · simp only [Machine.answered,F.performs,simulates.world]
          exact List.rel_append (Machine.forall₂_set index simulates.calls later) (stands_starts op)
      | inr op =>
        refine .inr ⟨rfl,?_,?_⟩
        · simp only [Machine.answered,F.reads]
          exact simulates.world
        · simp only [Machine.answered,F.startsOwn,List.map_nil,List.append_nil]
          have later := stands_own awaits (N.perform (.inr op) oracle s.world).1 stands
          have set := Machine.forall₂_set index simulates.calls later
          obtain ⟨inside,rfl⟩ := List.getElem?_eq_some_iff.mp there
          rwa [List.set_getElem_self inside] at set
  | crash index =>
    left
    rcases Machine.forall₂_getElem? index simulates.calls with ⟨absent,gone⟩ | ⟨outer,inner,here,there,stands⟩
    · simp only [Label.on,Machine.step,absent,gone]
      exact simulates
    · simp only [Label.on,Machine.step,here,there]
      exact ⟨simulates.world,Machine.forall₂_set index simulates.calls (stands_crash stands)⟩
  | environment event =>
    refine .inl ⟨?_,simulates.calls⟩
    simp only [Label.on,Machine.step,F.environment,simulates.world]

section Runs

variable (F) in
/-- The steps of the machine are those that the front's stand for, less some that resume a call. -/
inductive Follows : List (Label Oracle Outer Event) → List (Label Oracle Request Event) → Prop
  | nil : Follows [] []
  | step (label labels inner) (rest : Follows labels inner) :
    Follows (label :: labels) (label.on F.behalf :: inner)
  | stay (label labels inner) (resumes : label.resumes = true) (rest : Follows labels inner) :
    Follows (label :: labels) inner

/-- Every state that the front reaches stands for one that the machine reaches. -/
theorem simulates_run (simulates : F.Simulates s t) (labels : List (Label Oracle Outer Event)) :
    ∃ inner, F.Follows labels inner ∧ F.Simulates (N.run s labels) (M.run t inner) := by
  induction labels generalizing s t with
  | nil => exact ⟨[],.nil,simulates⟩
  | cons label labels ih =>
    rcases simulates_step simulates label with steps | ⟨resumes,stays⟩
    · obtain ⟨inner,follows,run⟩ := ih steps
      exact ⟨_,.step label labels inner follows,run⟩
    · obtain ⟨inner,follows,run⟩ := ih stays
      exact ⟨inner,.stay label labels inner resumes follows,run⟩

end Runs

theorem simulates_nil (world : World) : F.Simulates ⟨world,[]⟩ ⟨world,[]⟩ := ⟨rfl,.nil⟩

end Front

end JobScheduler
