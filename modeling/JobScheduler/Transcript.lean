import JobScheduler.Interleaving
import Mathlib.Data.List.Induction

/-! Transcripts. The history of a call is all that it has asked and been told. What a call may
ask after which transcript, and with which it may settle, is read off its program; what a reply
ensures and later steps keep holds for as long as a call can show the reply. -/
namespace JobScheduler

variable {σ : Signature} {ε World Oracle Request Event α : Type}

/-- The monitor that writes down what a program asks and is told. -/
def Program.Monitor.transcript (may : List (Exchange σ ε) → σ.Op → Prop) :
    Program.Monitor σ ε (List (Exchange σ ε)) where
  allowed := may
  answers _ _ _ := True
  next history op reply := ⟨op,reply⟩ :: history

section Monitor

variable (may : List (Exchange σ ε) → σ.Op → Prop)

@[simp] theorem Program.Monitor.transcript_allowed : (transcript may).allowed = may := rfl
@[simp] theorem Program.Monitor.transcript_answers :
    (transcript may).answers = fun _ _ _ => True := rfl
@[simp] theorem Program.Monitor.transcript_next :
    (transcript may).next = fun history op reply => ⟨op,reply⟩ :: history := rfl

/-- However the program is answered, it asks what it may and settles as `post` says. -/
abbrev Program.Shows (post : List (Exchange σ ε) → Except ε α → Prop)
    (history : List (Exchange σ ε)) (program : Program σ ε α) : Prop :=
  Program.wp (.transcript may) post program history

end Monitor

theorem Program.shows_of_forall {may : List (Exchange σ ε) → σ.Op → Prop}
    {post : List (Exchange σ ε) → Except ε α → Prop} {program : Program σ ε α}
    {history : List (Exchange σ ε)} (asks : ∀ history op, may history op)
    (settles : ∀ history result, post history result) : Program.Shows may post history program := by
  induction program generalizing history with
  | settled result => exact settles history result
  | await op resume ih => exact ⟨asks history op,fun reply _ => ih reply⟩

theorem Program.Uses.shows {vocabulary : σ.Op → Prop} {program : Program σ ε α}
    (uses : Program.Uses vocabulary program) (history : List (Exchange σ ε)) :
    Program.Shows (fun _ op => vocabulary op) (fun _ _ => True) history program := by
  induction program generalizing history with
  | settled result => trivial
  | await op resume ih => exact ⟨uses.1,fun reply _ => ih reply (uses.2 reply trivial) _⟩

/-- Each operation was asked after a transcript with which it may be. -/
def Justified (may : List (Exchange σ ε) → σ.Op → Prop) : List (Exchange σ ε) → Prop
  | [] => True
  | exchange :: before => may before exchange.op ∧ Justified may before

theorem Justified.asked {may : List (Exchange σ ε) → σ.Op → Prop} {history : List (Exchange σ ε)}
    (justified : Justified may history) {exchange : Exchange σ ε} (heard : exchange ∈ history) :
    ∃ before, before <:+ history ∧ may before exchange.op := by
  induction history with
  | nil => cases heard
  | cons last before ih =>
    rcases List.mem_cons.mp heard with rfl | earlier
    · exact ⟨before,List.suffix_cons ..,justified.1⟩
    · obtain ⟨first,suffix,allowed⟩ := ih justified.2 earlier
      exact ⟨first,suffix.trans (List.suffix_cons ..),allowed⟩

namespace Machine

variable {M : Machine σ ε World Oracle Request Event}
variable {s t : State σ ε World Request}

section Transcribed

variable {may : Request → List (Exchange σ ε) → σ.Op → Prop}
variable {post : Request → List (Exchange σ ε) → Except ε Unit → Prop}

/-- A call has asked what its request lets it ask, and will go on to. -/
structure Transcribed (may : Request → List (Exchange σ ε) → σ.Op → Prop)
    (post : Request → List (Exchange σ ε) → Except ε Unit → Prop) (call : Call σ ε Request) :
    Prop where
  asked : Justified (may call.request) call.history
  shows : Program.Shows (may call.request) (post call.request) call.history call.program

theorem transcribed_step
    (shows : ∀ request, Program.Shows (may request) (post request) [] (M.program request))
    (crashes : ∀ request history, post request history (.error M.crashed))
    (transcribed : ∀ call ∈ s.calls, Transcribed may post call) (label : Label Oracle Request Event) :
    ∀ call ∈ (M.step s label).calls, Transcribed may post call := by
  refine every_moves (Transcribed may post) (M.step_moves s label) ?_ ?_ ?_ transcribed
  · exact fun request => ⟨trivial,shows request⟩
  · intro index oracle call op rest _ _ awaits before
    have whole := before.shows
    rw [awaits] at whole
    exact ⟨⟨whole.1,before.asked⟩,whole.2 _ trivial⟩
  · intro index call _ _ before
    exact ⟨before.asked,crashes call.request call.history⟩

theorem transcribed_reached
    (shows : ∀ request, Program.Shows (may request) (post request) [] (M.program request))
    (crashes : ∀ request history, post request history (.error M.crashed))
    {world : World} {labels : List (Label Oracle Request Event)}
    (reached : M.Reached ⟨world,[]⟩ labels t) : ∀ call ∈ t.calls, Transcribed may post call :=
  always_reached (fun s => ∀ call ∈ s.calls, Transcribed may post call)
    (fun _ label before => transcribed_step shows crashes before label)
    (fun _ absent => absurd absent List.not_mem_nil) reached

theorem Transcribed.settled {call : Call σ ε Request} (transcribed : Transcribed may post call)
    {result : Except ε Unit} (settled : call.program = .settled result) :
    post call.request call.history result := by
  have whole := transcribed.shows
  rw [settled] at whole
  exact whole

end Transcribed

theorem uses_reached {vocabulary : Request → σ.Op → Prop}
    (uses : ∀ request, Program.Uses (vocabulary request) (M.program request)) {world : World}
    {labels : List (Label Oracle Request Event)} (reached : M.Reached ⟨world,[]⟩ labels t) :
    ∀ call ∈ t.calls, ∀ exchange ∈ call.history, vocabulary call.request exchange.op := by
  intro call member exchange heard
  have transcribed := transcribed_reached (fun request => (uses request).shows [])
    (fun _ _ => trivial) reached call member
  obtain ⟨_,_,used⟩ := transcribed.asked.asked heard
  exact used

section Vouched

variable {ensures : Exchange σ ε → State σ ε World Request → Prop}
variable {condition : State σ ε World Request → Label Oracle Request Event → Prop}

/-- What the replies in the transcripts ensure is the case. -/
def Vouched (ensures : Exchange σ ε → State σ ε World Request → Prop)
    (s : State σ ε World Request) : Prop :=
  ∀ call ∈ s.calls, ∀ exchange ∈ call.history, ensures exchange s

variable (M) in
/-- A reply ensures something when it is given, and the steps that are allowed keep it. -/
structure Vouches (condition : State σ ε World Request → Label Oracle Request Event → Prop)
    (ensures : Exchange σ ε → State σ ε World Request → Prop) : Prop where
  given : ∀ s index oracle call op rest, condition s (.resume index oracle) →
    s.calls[index]? = some call → call.program = .await op rest →
    ensures ⟨op,(M.perform op oracle s.world).1⟩ (M.answered s index call op rest oracle)
  keeps : ∀ s label exchange, condition s label → ensures exchange s →
    ensures exchange (M.step s label)

theorem vouched_step (vouches : M.Vouches condition ensures) {label : Label Oracle Request Event}
    (may : condition s label) (vouched : Vouched ensures s) : Vouched ensures (M.step s label) := by
  intro later member exchange heard
  rcases origin_moves (M.step_moves s label) member with
    ⟨call,old,_,history⟩ | ⟨index,oracle,call,op,rest,rfl,found,awaits,rfl⟩ | ⟨_,history⟩ |
    ⟨_,_,history⟩
  · rw [history] at heard
    exact vouches.keeps s label exchange may (vouched call old exchange heard)
  · rcases List.mem_cons.mp heard with rfl | before
    · have moved : M.step s (.resume index oracle) = M.answered s index call op rest oracle := by
        simp [step,found,awaits]
      rw [moved]
      exact vouches.given s index oracle call op rest may found awaits
    · have old := vouched call (List.mem_of_getElem? found) exchange before
      exact vouches.keeps s _ exchange may old
  all_goals
    rw [history] at heard
    cases heard

theorem vouched_reached (vouches : M.Vouches condition ensures) {world : World}
    {labels : List (Label Oracle Request Event)} (along : M.Along condition ⟨world,[]⟩ labels)
    (reached : M.Reached ⟨world,[]⟩ labels t) : Vouched ensures t :=
  invariant_reached (Vouched ensures) (fun _ _ may => vouched_step vouches may) along
    (fun _ absent => absurd absent List.not_mem_nil) reached

theorem replies_reached {tells : Exchange σ ε → Prop}
    (replies : ∀ op oracle world, tells ⟨op,(M.perform op oracle world).1⟩) {world : World}
    {labels : List (Label Oracle Request Event)} (reached : M.Reached ⟨world,[]⟩ labels t) :
    ∀ call ∈ t.calls, ∀ exchange ∈ call.history, tells exchange := by
  have vouches : M.Vouches (fun _ _ => True) fun exchange _ => tells exchange :=
    ⟨fun s _ oracle _ op _ _ _ _ => replies op oracle s.world,fun _ _ _ _ tells => tells⟩
  exact vouched_reached vouches (along_forall fun _ _ => trivial) reached

end Vouched

theorem history_run {call : Call σ ε Request} (member : call ∈ s.calls)
    (labels : List (Label Oracle Request Event)) :
    ∃ later ∈ (M.run s labels).calls, later.request = call.request ∧ call.history <:+ later.history := by
  induction labels generalizing s call with
  | nil => exact ⟨call,member,rfl,List.suffix_rfl⟩
  | cons label labels ih =>
    obtain ⟨next,there,same,longer⟩ := history_moves (M.step_moves s label) member
    obtain ⟨later,last,again,whole⟩ := ih there
    exact ⟨later,last,again.trans same,longer.trans whole⟩

section Since

variable {condition : State σ ε World Request → Label Oracle Request Event → Prop}
variable {world : World} {labels : List (Label Oracle Request Event)} {index : Nat}
variable {call : Call σ ε Request} {exchange : Exchange σ ε}

theorem started_silent {calls : List (Call σ ε Request)} (requests : List Request)
    (found : (calls ++ requests.map M.accept)[index]? = some call) (heard : exchange ∈ call.history) :
    calls[index]? = some call := by
  rcases Nat.lt_or_ge index calls.length with old | new
  · exact List.getElem?_append_left old ▸ found
  · rw [List.getElem?_append_right new] at found
    obtain ⟨request,_,rfl⟩ := List.mem_map.mp (List.mem_of_getElem? found)
    cases heard

theorem exchange_moves {label : Label Oracle Request Event} (moves : M.Moves s label t)
    (found : t.calls[index]? = some call) (heard : exchange ∈ call.history) :
    (∃ before, s.calls[index]? = some before ∧ exchange ∈ before.history) ∨
      ∃ oracle, label = .resume index oracle ∧ s.awaits index = some exchange.op ∧
        exchange = ⟨exchange.op,(M.perform exchange.op oracle s.world).1⟩ := by
  cases moves with
  | submit request => exact .inl ⟨call,started_silent [request] found heard,heard⟩
  | idle | absent | environment => exact .inl ⟨call,found,heard⟩
  | answer position oracle asking op rest here awaits =>
    have found := started_silent (M.starts op) found heard
    by_cases same : position = index
    · subst same
      rw [List.getElem?_set_self',here] at found
      obtain rfl := Option.some.inj found
      rcases List.mem_cons.mp heard with rfl | before
      · exact .inr ⟨oracle,rfl,State.awaits_eq_some.mpr ⟨asking,rest,here,awaits⟩,rfl⟩
      · exact .inl ⟨asking,here,before⟩
    · rw [List.getElem?_set_ne same] at found
      exact .inl ⟨call,found,heard⟩
  | crash position crashing here =>
    by_cases same : position = index
    · subst same
      rw [List.getElem?_set_self',here] at found
      obtain rfl := Option.some.inj found
      exact .inl ⟨crashing,here,heard⟩
    · rw [List.getElem?_set_ne same] at found
      exact .inl ⟨call,found,heard⟩

/-- So each exchange has been had in some step of the run. -/
theorem exchange_run (found : (M.run ⟨world,[]⟩ labels).calls[index]? = some call)
    (heard : exchange ∈ call.history) : ∃ before oracle after,
      labels = before ++ .resume index oracle :: after ∧
      (M.run ⟨world,[]⟩ before).awaits index = some exchange.op ∧
      exchange = ⟨exchange.op,(M.perform exchange.op oracle (M.run ⟨world,[]⟩ before).world).1⟩ := by
  induction labels using List.reverseRecOn generalizing call with
  | nil => cases found
  | append_singleton labels label ih =>
    rw [run_append] at found
    rcases exchange_moves (M.step_moves _ label) found heard with ⟨earlier,there,old⟩ | ⟨oracle,rfl,now⟩
    · obtain ⟨before,oracle,after,rfl,then_⟩ := ih there old
      exact ⟨before,oracle,after ++ [label],by simp,then_⟩
    · exact ⟨labels,oracle,[],rfl,now⟩

variable (M) in
/-- Since the call at `index` has been answered `op`, the world has been so as long as the
steps were allowed. -/
def Since (start : State σ ε World Request) (labels : List (Label Oracle Request Event)) (index : Nat)
    (op : σ.Op) (condition : State σ ε World Request → Label Oracle Request Event → Prop)
    (holds : World → Prop) : Prop :=
  ∃ before oracle after, labels = before ++ .resume index oracle :: after ∧
    (M.run start before).awaits index = some op ∧
    (M.Along condition (M.run start (before ++ [.resume index oracle])) after →
      holds (M.run start labels).world)

/-- What a reply ensures of the world holds since then. -/
theorem since_run {op : σ.Op} {reply : Except ε (σ.Reply op)} {holds : World → Prop}
    (found : (M.run ⟨world,[]⟩ labels).calls[index]? = some call) (heard : ⟨op,reply⟩ ∈ call.history)
    (given : ∀ oracle w, (M.perform op oracle w).1 = reply → holds (M.perform op oracle w).2)
    (performs : ∀ s index oracle op, condition s (.resume index oracle) → s.awaits index = some op →
      holds s.world → holds (M.perform op oracle s.world).2)
    (moves : ∀ s event, condition s (.environment event) → holds s.world →
      holds (M.environment event s.world)) :
    M.Since ⟨world,[]⟩ labels index op condition holds := by
  obtain ⟨before,oracle,after,rfl,asked,is⟩ := exchange_run found heard
  refine ⟨before,oracle,after,rfl,asked,fun along => ?_⟩
  have whole : M.run ⟨world,[]⟩ (before ++ .resume index oracle :: after) =
      M.run (M.run ⟨world,[]⟩ (before ++ [.resume index oracle])) after := by
    rw [← run_append,List.append_assoc]
    rfl
  rw [whole]
  refine invariant_run (fun s => holds s.world) ?_ along ?_
  · intro s label may before
    have step := M.step_moves s label
    generalize M.step s label = t at step
    cases step with
    | submit | idle | absent | crash => exact before
    | answer index oracle call op rest found awaits =>
      exact performs s index oracle op may (State.awaits_eq_some.mpr ⟨call,rest,found,awaits⟩) before
    | environment event => exact moves s event may before
  · obtain ⟨call,rest,found,awaits⟩ := State.awaits_eq_some.mp asked
    have answer : M.step (M.run ⟨world,[]⟩ before) (.resume index oracle) =
        M.answered (M.run ⟨world,[]⟩ before) index call op rest oracle := by
      simp only [step,found,awaits]
    have moved : M.run ⟨world,[]⟩ (before ++ [.resume index oracle]) =
        M.step (M.run ⟨world,[]⟩ before) (.resume index oracle) := run_append
    rw [moved,answer]
    exact given oracle _ (eq_of_heq (Exchange.mk.inj is).2).symm

theorem Since.along {start : State σ ε World Request} {op : σ.Op} {holds : World → Prop}
    (since : M.Since start labels index op condition holds) (along : M.Along condition start labels) :
    holds (M.run start labels).world := by
  obtain ⟨before,oracle,after,rfl,_,kept⟩ := since
  refine kept ?_
  have split : before ++ .resume index oracle :: after = (before ++ [.resume index oracle]) ++ after := by
    simp
  rw [split] at along
  exact (along_append.mp along).2

end Since

section Newer

variable {condition : State σ ε World Request → Label Oracle Request Event → Prop}
variable {holds : Call σ ε Request → Prop} {first : Nat}

/-- The calls that have been accepted from some moment on have a property. -/
def Newer (holds : Call σ ε Request → Prop) (first : Nat) (s : State σ ε World Request) : Prop :=
  ∀ index call, first ≤ index → s.calls[index]? = some call → holds call

theorem newer_append (accepted : ∀ request, holds (M.accept request)) {calls : List (Call σ ε Request)}
    (newer : Newer holds first ⟨s.world,calls⟩) (world : World) (requests : List Request) :
    Newer holds first ⟨world,calls ++ requests.map M.accept⟩ := by
  intro index call later found
  rcases Nat.lt_or_ge index calls.length with old | new
  · exact newer index call later (List.getElem?_append_left old ▸ found)
  · have started : call ∈ requests.map M.accept := by
      rw [List.getElem?_append_right new] at found
      exact List.mem_of_getElem? found
    obtain ⟨request,_,rfl⟩ := List.mem_map.mp started
    exact accepted request

theorem newer_set {position : Nat} {other : Call σ ε Request} (newer : Newer holds first s)
    (holds' : first ≤ position → holds other) (world : World) :
    Newer holds first ⟨world,s.calls.set position other⟩ := by
  intro index call later found
  by_cases same : position = index
  · subst same
    rw [List.getElem?_set_self'] at found
    obtain ⟨_,_,rfl⟩ := Option.map_eq_some_iff.mp found
    exact holds' later
  · rw [List.getElem?_set_ne same] at found
    exact newer index call later found

theorem newer_step (accepted : ∀ request, holds (M.accept request))
    (advanced : ∀ s index oracle call op rest, condition s (.resume index oracle) →
      s.calls[index]? = some call → call.program = .await op rest → holds call →
      holds (call.advance op rest (M.perform op oracle s.world).1))
    (crashed : ∀ call, holds call → holds (M.crashCall call)) {label : Label Oracle Request Event}
    (may : condition s label) (newer : Newer holds first s) : Newer holds first (M.step s label) := by
  have moves := M.step_moves s label
  generalize M.step s label = t at moves
  cases moves with
  | submit request => exact newer_append accepted newer s.world [request]
  | idle | absent | environment => exact newer
  | answer index oracle call op rest found awaits =>
    refine newer_append accepted (newer_set newer (fun later => ?_) s.world) _ (M.starts op)
    exact advanced s index oracle call op rest may found awaits (newer index call later found)
  | crash index call found =>
    exact newer_set newer (fun later => crashed call (newer index call later found)) s.world

/-- What holds of every new call and is kept by the answers of allowed steps holds of all calls
that a run accepts. -/
theorem newer_run (accepted : ∀ request, holds (M.accept request))
    (advanced : ∀ s index oracle call op rest, condition s (.resume index oracle) →
      s.calls[index]? = some call → call.program = .await op rest → holds call →
      holds (call.advance op rest (M.perform op oracle s.world).1))
    (crashed : ∀ call, holds call → holds (M.crashCall call))
    {labels : List (Label Oracle Request Event)} (along : M.Along condition s labels) :
    Newer holds s.calls.length (M.run s labels) := by
  refine invariant_run (Newer holds s.calls.length)
    (fun _ _ may => newer_step accepted advanced crashed may) along ?_
  intro index call later found
  rw [List.getElem?_eq_none later] at found
  cases found

end Newer

end Machine

end JobScheduler
