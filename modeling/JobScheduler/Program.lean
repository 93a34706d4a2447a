import Mathlib.Logic.Basic

/-! Programs as trees of awaited operations. A program either has settled, with a
value or an exception, or awaits one operation and resumes on its reply. Nothing
runs between two operations, so an operation is the unit of interleaving. -/
namespace JobScheduler

structure Signature where
  Op : Type
  Reply : Op → Type

inductive Program (σ : Signature) (ε α : Type) where
  | settled (result : Except ε α)
  | await (op : σ.Op) (resume : Except ε (σ.Reply op) → Program σ ε α)

namespace Program

variable {σ : Signature} {ε α β Q Oracle World : Type}

def bind (program : Program σ ε α) (next : α → Program σ ε β) : Program σ ε β :=
  match program with
  | .settled (.ok value) => next value
  | .settled (.error e) => .settled (.error e)
  | .await op resume => .await op fun reply => (resume reply).bind next

def tryCatch (program : Program σ ε α) (handler : ε → Program σ ε α) : Program σ ε α :=
  match program with
  | .settled (.ok value) => .settled (.ok value)
  | .settled (.error e) => handler e
  | .await op resume => .await op fun reply => (resume reply).tryCatch handler

instance : Monad (Program σ ε) where
  pure value := .settled (.ok value)
  bind := bind

instance : MonadExcept ε (Program σ ε) where
  throw e := .settled (.error e)
  tryCatch := tryCatch

def perform (op : σ.Op) : Program σ ε (σ.Reply op) := .await op .settled

/-- `try program finally cleanup`: a throwing cleanup replaces the result. -/
def tryFinally (program : Program σ ε α) (cleanup : Program σ ε Unit) : Program σ ε α := do
  let value ← MonadExcept.tryCatch program fun e => do cleanup; throw e
  cleanup
  pure value

/-- A specification automaton that watches one program: what it may await in each
state, which replies the specification relies on, and how a reply moves the state. -/
structure Monitor (σ : Signature) (ε Q : Type) where
  allowed : Q → σ.Op → Prop
  answers : Q → (op : σ.Op) → Except ε (σ.Reply op) → Prop
  next : Q → (op : σ.Op) → Except ε (σ.Reply op) → Q

/-- Weakest precondition under a monitor: every awaited operation is allowed, and
the settled result satisfies `post` in the state the replies lead to. -/
def wp (m : Monitor σ ε Q) (post : Q → Except ε α → Prop) : Program σ ε α → Q → Prop
  | .settled result, q => post q result
  | .await op resume, q => m.allowed q op ∧
      ∀ reply, m.answers q op reply → wp m post (resume reply) (m.next q op reply)

/-- The postcondition a first part must meet for a second part to take over. -/
def thenPost (post : Q → Except ε β → Prop) (rest : α → Q → Prop) (q : Q) :
    Except ε α → Prop
  | .ok value => rest value q
  | .error e => post q (.error e)

def catchPost (post : Q → Except ε α → Prop) (rescue : ε → Q → Prop) (q : Q) :
    Except ε α → Prop
  | .ok value => post q (.ok value)
  | .error e => rescue e q

section Rules

variable {m : Monitor σ ε Q} {post : Q → Except ε α → Prop} {q : Q}

@[simp] theorem thenPost_ok (post : Q → Except ε β → Prop) (rest : α → Q → Prop) (value : α) :
    thenPost post rest q (.ok value) = rest value q := rfl
@[simp] theorem thenPost_error (post : Q → Except ε β → Prop) (rest : α → Q → Prop) (e : ε) :
    thenPost post rest q (.error e) = post q (.error e) := rfl
@[simp] theorem catchPost_ok (rescue : ε → Q → Prop) (value : α) :
    catchPost post rescue q (.ok value) = post q (.ok value) := rfl
@[simp] theorem catchPost_error (rescue : ε → Q → Prop) (e : ε) :
    catchPost post rescue q (.error e) = rescue e q := rfl

@[simp] theorem wp_settled (result : Except ε α) :
    wp m post (.settled result) q ↔ post q result := Iff.rfl

@[simp] theorem wp_pure (value : α) :
    wp m post (pure value : Program σ ε α) q ↔ post q (.ok value) := Iff.rfl

@[simp] theorem wp_throw (e : ε) :
    wp m post (throw e : Program σ ε α) q ↔ post q (.error e) := Iff.rfl

@[simp] theorem wp_await (op : σ.Op) (resume : Except ε (σ.Reply op) → Program σ ε α) :
    wp m post (.await op resume) q ↔ m.allowed q op ∧
      ∀ reply, m.answers q op reply → wp m post (resume reply) (m.next q op reply) := Iff.rfl

theorem wp_bind_iff (program : Program σ ε α) (next : α → Program σ ε β)
    (post : Q → Except ε β → Prop) (q : Q) :
    wp m post (program.bind next) q ↔
      wp m (thenPost post fun value => wp m post (next value)) program q := by
  induction program generalizing q with
  | settled result => cases result <;> rfl
  | await op resume ih => simp only [bind,wp,ih]

@[simp] theorem wp_bind (program : Program σ ε α) (next : α → Program σ ε β)
    (post : Q → Except ε β → Prop) :
    wp m post (program >>= next) q ↔
      wp m (thenPost post fun value => wp m post (next value)) program q :=
  wp_bind_iff program next post q

theorem wp_tryCatch_iff (program : Program σ ε α) (handler : ε → Program σ ε α) (q : Q) :
    wp m post (program.tryCatch handler) q ↔
      wp m (catchPost post fun e => wp m post (handler e)) program q := by
  induction program generalizing q with
  | settled result => cases result <;> rfl
  | await op resume ih => simp only [tryCatch,wp,ih]

@[simp] theorem wp_tryCatch (program : Program σ ε α) (handler : ε → Program σ ε α) :
    wp m post (MonadExcept.tryCatch program handler) q ↔
      wp m (catchPost post fun e => wp m post (handler e)) program q :=
  wp_tryCatch_iff program handler q

theorem wp_mono {weak strong : Q → Except ε α → Prop} {program : Program σ ε α}
    (holds : wp m strong program q) (implies : ∀ q result, strong q result → weak q result) :
    wp m weak program q := by
  induction program generalizing q with
  | settled result => exact implies q result holds
  | await op resume ih => exact ⟨holds.1,fun reply answered => ih reply (holds.2 reply answered)⟩

theorem forall_except {property : Except ε α → Prop} :
    (∀ result, property result) ↔ (∀ e, property (.error e)) ∧ ∀ value, property (.ok value) := by
  constructor
  · intro every
    exact ⟨fun e => every (.error e),fun value => every (.ok value)⟩
  · rintro ⟨thrown,returned⟩ (e | value)
    · exact thrown e
    · exact returned value

end Rules

def Monitor.within (vocabulary : σ.Op → Prop) : Monitor σ ε Unit where
  allowed _ op := vocabulary op
  answers _ _ _ := True
  next _ _ _ := ()

def Uses (vocabulary : σ.Op → Prop) (program : Program σ ε α) : Prop :=
  wp (Monitor.within vocabulary) (fun _ _ => True) program ()

section Vocabulary

variable {vocabulary : σ.Op → Prop}

@[simp] theorem uses_pure (value : α) : Uses vocabulary (pure value : Program σ ε α) := trivial

@[simp] theorem uses_throw (e : ε) : Uses vocabulary (throw e : Program σ ε α) := trivial

@[simp] theorem uses_perform (op : σ.Op) :
    Uses vocabulary (perform op : Program σ ε (σ.Reply op)) ↔ vocabulary op := by
  simp [Uses,Monitor.within,perform]

theorem Uses.bind {program : Program σ ε α} {next : α → Program σ ε β}
    (first : Uses vocabulary program) (rest : ∀ value, Uses vocabulary (next value)) :
    Uses vocabulary (program >>= next) := by
  refine (wp_bind ..).mpr (wp_mono first ?_)
  rintro q (e | value) _
  · trivial
  · exact rest value

theorem Uses.tryCatch {program : Program σ ε α} {handler : ε → Program σ ε α}
    (first : Uses vocabulary program) (rescue : ∀ e, Uses vocabulary (handler e)) :
    Uses vocabulary (MonadExcept.tryCatch program handler) := by
  refine (wp_tryCatch ..).mpr (wp_mono first ?_)
  rintro q (e | value) _
  · exact rescue e
  · trivial

end Vocabulary

/-- A monitor that allows a class of operations in one state and stays there is met
by every program that uses this class only. -/
theorem Uses.wp {m : Monitor σ ε Q} {post : Q → Except ε α → Prop} {q : Q}
    {vocabulary : σ.Op → Prop} {program : Program σ ε α} (uses : Uses vocabulary program)
    (allows : ∀ op, vocabulary op → m.allowed q op)
    (stays : ∀ op reply, vocabulary op → m.next q op reply = q)
    (ends : ∀ result, post q result) : wp m post program q := by
  induction program with
  | settled result => exact ends result
  | await op resume ih =>
    obtain ⟨listed,later⟩ := uses
    refine ⟨allows op listed,?_⟩
    intro reply _
    rw [stays op reply listed]
    exact ih reply (later reply trivial)

theorem Uses.mono {weak strong : σ.Op → Prop} {program : Program σ ε α}
    (uses : Uses strong program) (implies : ∀ op, strong op → weak op) : Uses weak program :=
  Uses.wp uses implies (fun _ _ _ => rfl) fun _ => trivial

/-- The first operation that a program awaits beyond those that have an answer. -/
def awaitsAfter (answers : (op : σ.Op) → Option (Except ε (σ.Reply op))) :
    Program σ ε α → Option σ.Op
  | .settled _ => none
  | .await op resume =>
    match answers op with
    | none => some op
    | some reply => awaitsAfter answers (resume reply)

/-- What a program running alone leaves behind: its result, the oracles it did
not use and the world. -/
structure Ran (ε α Oracle World : Type) where
  result : Except ε α
  oracles : Nat → Oracle
  world : World

/-- Sequential run against a world. Each operation takes the next oracle. -/
def eval (performs : (op : σ.Op) → Oracle → World → Except ε (σ.Reply op) × World) :
    Program σ ε α → (Nat → Oracle) → World → Ran ε α Oracle World
  | .settled result, oracles, world => ⟨result,oracles,world⟩
  | .await op resume, oracles, world =>
    let answer := performs op (oracles 0) world
    eval performs (resume answer.1) (fun n => oracles (n + 1)) answer.2

def trace (performs : (op : σ.Op) → Oracle → World → Except ε (σ.Reply op) × World) :
    Program σ ε α → (Nat → Oracle) → World → List σ.Op
  | .settled _, _, _ => []
  | .await op resume, oracles, world =>
    let answer := performs op (oracles 0) world
    op :: trace performs (resume answer.1) (fun n => oracles (n + 1)) answer.2

section Sequential

variable {performs : (op : σ.Op) → Oracle → World → Except ε (σ.Reply op) × World}
variable {oracles : Nat → Oracle} {world : World}

def Ran.thenEval (performs : (op : σ.Op) → Oracle → World → Except ε (σ.Reply op) × World)
    (ran : Ran ε α Oracle World) (next : α → Program σ ε β) : Ran ε β Oracle World :=
  match ran.result with
  | .ok value => eval performs (next value) ran.oracles ran.world
  | .error e => ⟨.error e,ran.oracles,ran.world⟩

theorem eval_bind (program : Program σ ε α) (next : α → Program σ ε β) :
    eval performs (program >>= next) oracles world =
      (eval performs program oracles world).thenEval performs next := by
  change eval performs (program.bind next) oracles world = _
  induction program generalizing oracles world with
  | settled result => cases result <;> rfl
  | await op resume ih => simp only [bind,eval,ih]

def Ran.thenTrace (performs : (op : σ.Op) → Oracle → World → Except ε (σ.Reply op) × World)
    (ran : Ran ε α Oracle World) (next : α → Program σ ε β) : List σ.Op :=
  match ran.result with
  | .ok value => trace performs (next value) ran.oracles ran.world
  | .error _ => []

theorem trace_bind (program : Program σ ε α) (next : α → Program σ ε β) :
    trace performs (program >>= next) oracles world =
      trace performs program oracles world ++
        (eval performs program oracles world).thenTrace performs next := by
  change trace performs (program.bind next) oracles world = _
  induction program generalizing oracles world with
  | settled result => cases result <;> rfl
  | await op resume ih => simp only [bind,trace,eval,ih,List.cons_append]

theorem eval_answered {op : σ.Op} {next : σ.Reply op → Program σ ε β} {value : σ.Reply op}
    (answered : (performs op (oracles 0) world).1 = .ok value) :
    eval performs (perform op >>= next) oracles world =
      eval performs (next value) (fun n => oracles (n + 1)) (performs op (oracles 0) world).2 := by
  rw [eval_bind]
  simp only [perform,eval,Ran.thenEval,answered]

theorem trace_answered {op : σ.Op} {next : σ.Reply op → Program σ ε β} {value : σ.Reply op}
    (answered : (performs op (oracles 0) world).1 = .ok value) :
    trace performs (perform op >>= next) oracles world =
      op :: trace performs (next value) (fun n => oracles (n + 1))
        (performs op (oracles 0) world).2 := by
  rw [trace_bind]
  simp only [perform,trace,eval,Ran.thenTrace,answered,List.singleton_append]

theorem trace_thrown {op : σ.Op} {next : σ.Reply op → Program σ ε β} {e : ε}
    (thrown : (performs op (oracles 0) world).1 = .error e) :
    trace performs (perform op >>= next) oracles world = [op] := by
  rw [trace_bind]
  simp only [perform,trace,eval,Ran.thenTrace,thrown,List.append_nil]

theorem eval_caught {program : Program σ ε α} {value : α}
    (returned : (eval performs program oracles world).result = .ok value)
    (handler : ε → Program σ ε α) :
    eval performs (MonadExcept.tryCatch program handler) oracles world =
        eval performs program oracles world ∧
      trace performs (MonadExcept.tryCatch program handler) oracles world =
        trace performs program oracles world := by
  change eval performs (program.tryCatch handler) oracles world = _ ∧
    trace performs (program.tryCatch handler) oracles world = _
  induction program generalizing oracles world with
  | settled result =>
    cases result with
    | ok value => exact ⟨rfl,rfl⟩
    | error e => cases returned
  | await op resume ih =>
    obtain ⟨evaluated,traced⟩ := ih _ returned
    exact ⟨evaluated,congrArg (op :: ·) traced⟩

theorem eval_rescued {program : Program σ ε α} {e : ε}
    (thrown : (eval performs program oracles world).result = .error e)
    (handler : ε → Program σ ε α) :
    eval performs (MonadExcept.tryCatch program handler) oracles world =
      eval performs (handler e) (eval performs program oracles world).oracles
        (eval performs program oracles world).world := by
  change eval performs (program.tryCatch handler) oracles world = _
  induction program generalizing oracles world with
  | settled result =>
    cases result with
    | ok value => cases thrown
    | error e =>
      cases thrown
      rfl
  | await op resume ih => exact ih _ thrown

theorem eval_tryFinally_world (program : Program σ ε α) {cleanup : Program σ ε Unit}
    (idle : ∀ oracles world, (eval performs cleanup oracles world).world = world) :
    (eval performs (tryFinally program cleanup) oracles world).world =
      (eval performs program oracles world).world := by
  induction program generalizing oracles world with
  | settled result =>
    have left := idle oracles world
    cases result with
    | ok value =>
      change (eval performs (do cleanup; pure value) oracles world).world = world
      rw [eval_bind,Ran.thenEval]
      cases (eval performs cleanup oracles world).result <;> exact left
    | error e =>
      change (eval performs (do let value ← (do cleanup; throw e); cleanup; pure value)
        oracles world).world = world
      rw [eval_bind,eval_bind,Ran.thenEval,Ran.thenEval]
      cases (eval performs cleanup oracles world).result <;> exact left
  | await op resume ih => exact ih _

variable (performs) in
/-- Running alone, a program that meets a monitor takes along whatever each allowed
operation preserves. -/
theorem eval_wp {m : Monitor σ ε Q} {post : Q → Except ε α → Prop} {q : Q}
    {program : Program σ ε α} (relation : Q → World → Prop) (fair : Oracle → Prop)
    (preserved : ∀ q op oracle world, m.allowed q op → relation q world → fair oracle →
      m.answers q op (performs op oracle world).1 ∧
        relation (m.next q op (performs op oracle world).1) (performs op oracle world).2)
    (holds : wp m post program q) (start : relation q world) (allFair : ∀ n, fair (oracles n)) :
    ∃ last, relation last (eval performs program oracles world).world ∧
      post last (eval performs program oracles world).result := by
  induction program generalizing q oracles world with
  | settled result => exact ⟨q,start,holds⟩
  | await op resume ih =>
    have moved := preserved q op (oracles 0) world holds.1 start (allFair 0)
    exact ih _ (holds.2 _ moved.1) moved.2 fun n => allFair (n + 1)

/-- What the operations of a program keep holds where it ends. -/
theorem eval_uses (holds : World → Prop) {vocabulary : σ.Op → Prop} {program : Program σ ε α}
    (uses : Uses vocabulary program)
    (kept : ∀ op oracle world, vocabulary op → holds world → holds (performs op oracle world).2)
    (start : holds world) : holds (eval performs program oracles world).world := by
  induction program generalizing oracles world with
  | settled result => exact start
  | await op resume ih =>
    obtain ⟨listed,later⟩ := uses
    exact ih _ (later _ trivial) (kept op (oracles 0) world listed start)

theorem trace_uses {vocabulary : σ.Op → Prop} {program : Program σ ε α}
    (uses : Uses vocabulary program) :
    ∀ op ∈ trace performs program oracles world, vocabulary op := by
  induction program generalizing oracles world with
  | settled result => exact fun op listed => absurd listed List.not_mem_nil
  | await op resume ih =>
    obtain ⟨first,later⟩ := uses
    intro other listed
    rcases List.mem_cons.mp listed with rfl | listed
    · exact first
    · exact ih _ (later _ trivial) other listed

/-- A program whose operations give the same replies in worlds that are alike, and keep
them alike, ends alike. -/
theorem eval_alike {alike : World → World → Prop} {vocabulary : σ.Op → Prop}
    {program : Program σ ε α} {other : World} (uses : Uses vocabulary program)
    (same : ∀ op oracle world other, vocabulary op → alike world other →
      (performs op oracle world).1 = (performs op oracle other).1 ∧
        alike (performs op oracle world).2 (performs op oracle other).2)
    (start : alike world other) :
    (eval performs program oracles world).result = (eval performs program oracles other).result ∧
      alike (eval performs program oracles world).world
        (eval performs program oracles other).world := by
  induction program generalizing oracles world other with
  | settled result => exact ⟨rfl,start⟩
  | await op resume ih =>
    obtain ⟨listed,later⟩ := uses
    obtain ⟨reply,after⟩ := same op (oracles 0) world other listed start
    simp only [eval,reply]
    exact ih _ (later _ trivial) after

end Sequential

end Program

end JobScheduler
