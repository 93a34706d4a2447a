import JobScheduler.Program

/-! Two programs side by side. A coupling says which operations they may await together
and on which pairs of replies that relies, and a coupled pair of programs goes on in tandem
until both have settled. -/
namespace JobScheduler.Program

variable {σ : Signature} {ε α β γ δ Q : Type}

/-- The counterpart of a monitor for a pair of programs. -/
structure Coupling (σ : Signature) (ε Q : Type) where
  paired : Q → σ.Op → σ.Op → Prop
  answers : Q → (op twin : σ.Op) → Except ε (σ.Reply op) → Except ε (σ.Reply twin) → Prop
  next : Q → σ.Op → Q

/-- Both programs await paired operations, whatever the replies, up to results that
satisfy `post`. -/
def Coupled (c : Coupling σ ε Q) (post : Q → Except ε α → Except ε β → Prop) :
    Program σ ε α → Program σ ε β → Q → Prop
  | .settled result, .settled other, q => post q result other
  | .await op resume, .await twin other, q => c.paired q op twin ∧
      ∀ reply answer, c.answers q op twin reply answer →
        Coupled c post (resume reply) (other answer) (c.next q op)
  | _, _, _ => False

def Outcome (related : α → β → Prop) : Except ε α → Except ε β → Prop
  | .ok value, .ok other => related value other
  | .error e, .error d => e = d
  | _, _ => False

/-- The programs go from a state of the coupling back to it with a related outcome. -/
def Tandem (c : Coupling σ ε Q) (home : Q) (related : α → β → Prop) (program : Program σ ε α)
    (other : Program σ ε β) : Prop :=
  Coupled c (fun q result twin => q = home ∧ Outcome related result twin) program other home

section Rules

variable {c : Coupling σ ε Q} {home : Q}

theorem Coupled.mono {strong weak : Q → Except ε α → Except ε β → Prop} {program : Program σ ε α}
    {other : Program σ ε β} {q : Q} (coupled : Coupled c strong program other q)
    (implies : ∀ q result twin, strong q result twin → weak q result twin) :
    Coupled c weak program other q := by
  induction program generalizing other q with
  | settled result =>
    cases other with
    | settled twin => exact implies q result twin coupled
    | await => exact coupled
  | await op resume ih =>
    cases other with
    | settled => exact coupled
    | await twin rest =>
      refine ⟨coupled.1,?_⟩
      intro reply answer related
      exact ih reply (coupled.2 reply answer related)

theorem Tandem.coupled_bind {related : α → β → Prop} {program : Program σ ε α}
    {other : Program σ ε β} {next : α → Program σ ε γ} {after : β → Program σ ε δ}
    {post : Q → Except ε γ → Except ε δ → Prop} (first : Tandem c home related program other)
    (fails : ∀ e, post home (.error e) (.error e))
    (rest : ∀ value twin, related value twin → Coupled c post (next value) (after twin) home) :
    Coupled c post (program >>= next) (other >>= after) home := by
  change Coupled c post (program.bind next) (other.bind after) home
  unfold Tandem at first
  suffices every : ∀ q, Coupled c (fun q result twin => q = home ∧ Outcome related result twin)
      program other q → Coupled c post (program.bind next) (other.bind after) q from every home first
  clear first
  induction program generalizing other with
  | settled result =>
    intro q coupled
    cases other with
    | await => exact False.elim coupled
    | settled twin =>
      obtain ⟨rfl,outcome⟩ := coupled
      cases result <;> cases twin
      · obtain rfl : _ = _ := outcome
        exact fails _
      · exact False.elim outcome
      · exact False.elim outcome
      · exact rest _ _ outcome
  | await op resume ih =>
    intro q coupled
    cases other with
    | settled => exact False.elim coupled
    | await twin others =>
      refine ⟨coupled.1,?_⟩
      intro reply answer answered
      exact ih reply (c.next q op) (coupled.2 reply answer answered)

theorem Tandem.bind {related : α → β → Prop} {results : γ → δ → Prop} {program : Program σ ε α}
    {other : Program σ ε β} {next : α → Program σ ε γ} {after : β → Program σ ε δ}
    (first : Tandem c home related program other)
    (rest : ∀ value twin, related value twin → Tandem c home results (next value) (after twin)) :
    Tandem c home results (program >>= next) (other >>= after) :=
  first.coupled_bind (fun _ => ⟨rfl,rfl⟩) rest

theorem Tandem.tryCatch {related : α → β → Prop} {program : Program σ ε α}
    {other : Program σ ε β} {handler : ε → Program σ ε α} {rescue : ε → Program σ ε β}
    (first : Tandem c home related program other)
    (handles : ∀ e, Tandem c home related (handler e) (rescue e)) :
    Tandem c home related (MonadExcept.tryCatch program handler)
      (MonadExcept.tryCatch other rescue) := by
  unfold Tandem at first
  suffices every : ∀ q, Coupled c (fun q result twin => q = home ∧ Outcome related result twin)
      program other q → Coupled c (fun q result twin => q = home ∧ Outcome related result twin)
        (program.tryCatch handler) (other.tryCatch rescue) q from every home first
  clear first
  induction program generalizing other with
  | settled result =>
    intro q coupled
    cases other with
    | await => exact False.elim coupled
    | settled twin =>
      obtain ⟨rfl,outcome⟩ := coupled
      cases result <;> cases twin
      · obtain rfl : _ = _ := outcome
        exact handles _
      · exact False.elim outcome
      · exact False.elim outcome
      · exact ⟨rfl,outcome⟩
  | await op resume ih =>
    intro q coupled
    cases other with
    | settled => exact False.elim coupled
    | await twin others =>
      refine ⟨coupled.1,?_⟩
      intro reply answer answered
      exact ih reply (c.next q op) (coupled.2 reply answer answered)

theorem tandem_pure {related : α → β → Prop} {value : α} {other : β} (same : related value other) :
    Tandem c home related (pure value) (pure other) := ⟨rfl,same⟩

theorem tandem_throw {related : α → β → Prop} (e : ε) :
    Tandem c home related (throw e) (throw e) := ⟨rfl,rfl⟩

theorem tandem_perform {op twin : σ.Op} {related : σ.Reply op → σ.Reply twin → Prop}
    (paired : c.paired home op twin) (stays : c.next home op = home)
    (replies : ∀ reply answer, c.answers home op twin reply answer → Outcome related reply answer) :
    Tandem c home related (perform op) (perform twin) :=
  ⟨paired,fun reply answer answered => ⟨stays,replies reply answer answered⟩⟩

theorem Tandem.mono {strong weak : α → β → Prop} {program : Program σ ε α} {other : Program σ ε β}
    (tandem : Tandem c home strong program other)
    (implies : ∀ value twin, strong value twin → weak value twin) :
    Tandem c home weak program other := by
  refine Coupled.mono tandem ?_
  rintro q (e | value) (d | twin) ⟨at_home,outcome⟩
  · exact ⟨at_home,outcome⟩
  · exact False.elim outcome
  · exact False.elim outcome
  · exact ⟨at_home,implies value twin outcome⟩

theorem Uses.tandem {vocabulary : σ.Op → Prop} {program : Program σ ε α}
    (uses : Uses vocabulary program) (paired : ∀ op, vocabulary op → c.paired home op op)
    (stays : ∀ op, vocabulary op → c.next home op = home)
    (same : ∀ op reply answer, vocabulary op → c.answers home op op reply answer → reply = answer) :
    Tandem c home (fun value twin => value = twin) program program := by
  induction program with
  | settled result =>
    refine ⟨rfl,?_⟩
    cases result <;> rfl
  | await op resume ih =>
    obtain ⟨listed,later⟩ := uses
    refine ⟨paired op listed,?_⟩
    intro reply answer answered
    obtain rfl := same op reply answer listed answered
    rw [stays op listed]
    exact ih reply (later reply trivial)

end Rules

end JobScheduler.Program
