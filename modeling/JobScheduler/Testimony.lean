import JobScheduler.Interleaving

/-! Testimony. An operation states facts and a reply tells some. A program that states
only what it has been told adds nothing of its own, so where the tellers speak the truth
and the truth lasts, everything that was ever stated is true. -/
namespace JobScheduler

variable {σ : Signature} {ε World Oracle Request Event Fact : Type}

structure Testimony (σ : Signature) (ε Fact : Type) where
  states : σ.Op → List Fact
  tells : (op : σ.Op) → Except ε (σ.Reply op) → List Fact

namespace Testimony

variable (T : Testimony σ ε Fact)

def monitor : Program.Monitor σ ε (List Fact) where
  allowed known op := ∀ fact ∈ T.states op, fact ∈ known
  answers _ _ _ := True
  next known op reply := T.tells op reply ++ known

@[simp] theorem monitor_allowed : T.monitor.allowed = fun known op =>
    ∀ fact ∈ T.states op, fact ∈ known := rfl
@[simp] theorem monitor_answers : T.monitor.answers = fun _ _ _ => True := rfl
@[simp] theorem monitor_next : T.monitor.next = fun known op reply =>
    T.tells op reply ++ known := rfl

/-- The program states only what it knows or is told. -/
abbrev Honest (known : List Fact) (program : Program σ ε α) : Prop :=
  Program.wp T.monitor (fun _ _ => True) program known

theorem honest_within {program : Program σ ε α} {known : List Fact} {vocabulary : σ.Op → Prop}
    (uses : Program.Uses vocabulary program) (silent : ∀ op, vocabulary op → T.states op = []) :
    T.Honest known program := by
  induction program generalizing known with
  | settled result => trivial
  | await op resume ih =>
    obtain ⟨listed,later⟩ := uses
    refine ⟨fun fact stated => ?_,fun reply _ => ih reply (later reply trivial)⟩
    rw [silent op listed] at stated
    cases stated

/-- What a world holds true and what is recorded in it, for the machine of honest programs. -/
structure Account (M : Machine σ ε World Oracle Request Event) where
  honest : ∀ request, T.Honest [] (M.program request)
  holds : World → Fact → Prop
  recorded : World → Fact → Prop
  condition : State σ ε World Request → Label Oracle Request Event → Prop
  lasts : ∀ s label, condition s label → ∀ fact, holds s.world fact →
    holds (M.step s label).world fact
  told : ∀ op oracle world, (∀ fact, recorded world fact → holds world fact) →
    ∀ fact ∈ T.tells op (M.perform op oracle world).1, holds (M.perform op oracle world).2 fact
  written : ∀ op oracle world fact, recorded (M.perform op oracle world).2 fact →
    recorded world fact ∨ fact ∈ T.states op
  moved : ∀ event world fact, recorded (M.environment event world) fact → recorded world fact

namespace Account

variable {T} {M : Machine σ ε World Oracle Request Event} (A : T.Account M)

def protocol : Protocol M (List Fact) where
  monitor := T.monitor
  start _ := []
  post _ _ := True
  meets := A.honest

def known (call : Call σ ε Request) : List Fact := A.protocol.phase call

@[simp] theorem known_accept (request : Request) : A.known (M.accept request) = [] := rfl

@[simp] theorem known_advance (call : Call σ ε Request) (op : σ.Op)
    (rest : Except ε (σ.Reply op) → Program σ ε Unit) (reply : Except ε (σ.Reply op)) :
    A.known (call.advance op rest reply) = T.tells op reply ++ A.known call := rfl

/-- All that is recorded, known or was ever stated is true. -/
structure Truthful (s : State σ ε World Request) : Prop where
  followed : A.protocol.Followed s
  recorded : ∀ fact, A.recorded s.world fact → A.holds s.world fact
  known : ∀ call ∈ s.calls, ∀ fact ∈ A.known call, A.holds s.world fact
  stated : ∀ call ∈ s.calls, ∀ exchange ∈ call.history,
    ∀ fact ∈ T.states exchange.op, fact ∈ A.known call

variable {A} {s : State σ ε World Request} {label : Label Oracle Request Event}

theorem truthful_nil {world : World} (blank : ∀ fact, ¬ A.recorded world fact) :
    A.Truthful ⟨world,[]⟩ where
  followed := A.protocol.followed_nil world
  recorded fact recorded := absurd recorded (blank fact)
  known _ member := absurd member List.not_mem_nil
  stated _ member := absurd member List.not_mem_nil

theorem answers_all (s : State σ ε World Request) (label : Label Oracle Request Event) :
    A.protocol.Answers s label := by
  cases label <;> simp [Protocol.Answers,protocol]

theorem followed_step (truthful : A.Truthful s) : A.protocol.Followed (M.step s label) :=
  Protocol.followed_moves (M.step_moves s label) (answers_all s label) truthful.followed

theorem may_state (truthful : A.Truthful s) {index : Nat} {call : Call σ ε Request} {op : σ.Op}
    {rest : Except ε (σ.Reply op) → Program σ ε Unit} (found : s.calls[index]? = some call)
    (awaits : call.program = .await op rest) : ∀ fact ∈ T.states op, fact ∈ A.known call :=
  truthful.followed.allowed found awaits

theorem recorded_step (truthful : A.Truthful s) (may : A.condition s label) (fact : Fact)
    (recorded : A.recorded (M.step s label).world fact) : A.holds (M.step s label).world fact := by
  apply A.lasts s label may
  have moves := M.step_moves s label
  generalize M.step s label = t at moves recorded
  cases moves with
  | submit | idle | absent | crash => exact truthful.recorded fact recorded
  | answer index oracle call op rest found awaits =>
    rcases A.written op oracle s.world fact recorded with old | stated
    · exact truthful.recorded fact old
    · exact truthful.known call (List.mem_of_getElem? found) fact
        (may_state truthful found awaits fact stated)
  | environment event => exact truthful.recorded fact (A.moved event s.world fact recorded)

theorem known_step (truthful : A.Truthful s) (may : A.condition s label) :
    ∀ call ∈ (M.step s label).calls, ∀ fact ∈ A.known call,
      A.holds (M.step s label).world fact := by
  intro later member fact listed
  have lasts := A.lasts s label may
  rcases Machine.origin_moves (M.step_moves s label) member with
    ⟨call,old,request,history⟩ | ⟨index,oracle,call,op,rest,rfl,found,awaits,rfl⟩ |
    ⟨is,history⟩ | ⟨op,started,history⟩
  · rw [known,Protocol.phase,request,history] at listed
    exact lasts fact (truthful.known call old fact listed)
  · rcases List.mem_append.mp listed with told | before
    · have moved : M.step s (.resume index oracle) = M.answered s index call op rest oracle := by
        simp [Machine.step,found,awaits]
      rw [moved]
      exact A.told op oracle s.world truthful.recorded fact told
    · exact lasts fact (truthful.known call (List.mem_of_getElem? found) fact before)
  all_goals
    rw [known,Protocol.phase,history] at listed
    cases listed

theorem stated_step (truthful : A.Truthful s) : ∀ call ∈ (M.step s label).calls,
    ∀ exchange ∈ call.history, ∀ fact ∈ T.states exchange.op, fact ∈ A.known call := by
  refine Machine.every_moves (fun call => ∀ exchange ∈ call.history,
    ∀ fact ∈ T.states exchange.op, fact ∈ A.known call) (M.step_moves s label) ?_ ?_ ?_
    truthful.stated
  · intro request exchange member
    cases member
  · intro index oracle call op rest _ found awaits before exchange member fact stated
    apply List.mem_append_right
    rcases List.mem_cons.mp member with rfl | old
    · exact may_state truthful found awaits fact stated
    · exact before exchange old fact stated
  · intro index call _ found before
    exact before

theorem truthful_step (may : A.condition s label) (truthful : A.Truthful s) :
    A.Truthful (M.step s label) where
  followed := followed_step truthful
  recorded := recorded_step truthful may
  known := known_step truthful may
  stated := stated_step truthful

/-- In a run that keeps the truth, only the truth is recorded, known and stated. -/
theorem truthful_reached {labels : List (Label Oracle Request Event)} {t : State σ ε World Request}
    (along : M.Along A.condition s labels) (start : A.Truthful s) (reached : M.Reached s labels t) :
    A.Truthful t :=
  Machine.invariant_reached A.Truthful (fun _ _ may => truthful_step may) along start reached

end Account

end Testimony

end JobScheduler
