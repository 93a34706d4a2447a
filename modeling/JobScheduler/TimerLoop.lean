import JobScheduler.Program
import JobScheduler.Transition

/-! Loops that a timer drives. A timer that fires runs an async tick, and its callback arms
the next timer once the tick has settled. Start and stop are synchronous: a stop clears the
timer whose handle the loop has kept, and leaves the ticks in progress to themselves. -/
namespace JobScheduler

/-- The fields are what ticks read, and what the operations change that run at once. -/
structure TimerLoop (σ : Signature) (ε World Oracle Fields Event : Type) where
  perform : (op : σ.Op) → Oracle → World → Except ε (σ.Reply op) × World
  immediate : σ.Op → Bool
  effect : σ.Op → Fields → Fields
  tick : Fields → Program σ ε Unit
  event : Event → Fields → Fields

namespace TimerLoop

variable {σ : Signature} {ε World Oracle Fields Event Q : Type}

/-- A tick between two turns: it waits for a reply, has a reply to go on with, or has
settled, with its callback still to go on. -/
inductive Tick (σ : Signature) (ε : Type) where
  | waiting (op : σ.Op) (resume : Except ε (σ.Reply op) → Program σ ε Unit)
  | served (op : σ.Op) (reply : Except ε (σ.Reply op)) (rest : Program σ ε Unit)
  | settled (result : Except ε Unit)

inductive Act (σ : Signature) (Oracle : Type) where
  | started
  | stopped
  | sends (op : σ.Op)
  | runs (op : σ.Op)
  | serves (op : σ.Op) (oracle : Oracle)

/-- `timer` is the handle that the loop has kept, and `armed` are the timers that have
neither fired nor been cleared. The acts are newest first. -/
structure State (σ : Signature) (ε World Oracle Fields : Type) where
  world : World
  fields : Fields
  running : Bool
  timer : Option Nat
  armed : List Nat
  created : Nat
  ticks : List (Tick σ ε)
  acts : List (Act σ Oracle)

/-- `serve` is the performance of the awaited operation and the arrival of its reply;
`others` is whatever else happens to the world. -/
inductive Turn (World Oracle Event : Type) where
  | start
  | stop
  | fire (index : Nat) (oracle : Oracle)
  | serve (index : Nat) (oracle : Oracle)
  | resume (index : Nat) (oracle : Oracle)
  | event (event : Event)
  | others (change : World → World)

/-- `this.timer = setTimeout(...)` -/
def State.arm (s : State σ ε World Oracle Fields) : State σ ε World Oracle Fields :=
  { s with timer := some s.created, armed := s.armed ++ [s.created], created := s.created + 1 }

/-- `clearTimeout(this.timer)` -/
def State.clear (s : State σ ε World Oracle Fields) : State σ ε World Oracle Fields :=
  { s with timer := none, armed := s.armed.filter fun id => some id ≠ s.timer }

variable (M : TimerLoop σ ε World Oracle Fields Event)

def advance (oracle : Oracle) (s : State σ ε World Oracle Fields) :
    Program σ ε Unit → State σ ε World Oracle Fields × Tick σ ε
  | .settled result => (s,.settled result)
  | .await op resume =>
    if M.immediate op then
      let answer := M.perform op oracle s.world
      advance oracle { s with
        world := answer.2
        fields := M.effect op s.fields
        acts := .runs op :: s.acts } (resume answer.1)
    else ({ s with acts := .sends op :: s.acts },.waiting op resume)

/-- A callback whose tick has rejected does not go on. -/
def conclude (s : State σ ε World Oracle Fields) : Except ε Unit → State σ ε World Oracle Fields
  | .ok _ => if s.running then s.arm else s
  | .error _ => s

def step (s : State σ ε World Oracle Fields) :
    Turn World Oracle Event → State σ ε World Oracle Fields
  | .start =>
    if s.running then s else { s with running := true, acts := .started :: s.acts }.arm
  | .stop => { s with running := false, acts := .stopped :: s.acts }.clear
  | .fire index oracle =>
    match s.armed[index]? with
    | none => s
    | some _ =>
      let next := M.advance oracle { s with armed := s.armed.eraseIdx index } (M.tick s.fields)
      { next.1 with ticks := next.1.ticks ++ [next.2] }
  | .serve index oracle =>
    match s.ticks[index]? with
    | some (.waiting op resume) =>
      let answer := M.perform op oracle s.world
      { s with
        world := answer.2
        ticks := s.ticks.set index (.served op answer.1 (resume answer.1))
        acts := .serves op oracle :: s.acts }
    | _ => s
  | .resume index oracle =>
    match s.ticks[index]? with
    | some (.served _ _ rest) =>
      let next := M.advance oracle s rest
      { next.1 with ticks := next.1.ticks.set index next.2 }
    | some (.settled result) => conclude { s with ticks := s.ticks.eraseIdx index } result
    | _ => s
  | .event event => { s with fields := M.event event s.fields }
  | .others change => { s with world := change s.world }

def transition : Transition (State σ ε World Oracle Fields) (Turn World Oracle Event) :=
  ⟨M.step⟩

def initial (world : World) (fields : Fields) : State σ ε World Oracle Fields :=
  ⟨world,fields,false,none,[],0,[],[]⟩

inductive Moves (s : State σ ε World Oracle Fields) :
    Turn World Oracle Event → State σ ε World Oracle Fields → Prop where
  | idle (turn) : Moves s turn s
  | start (rests : s.running = false) :
      Moves s .start { s with running := true, acts := .started :: s.acts }.arm
  | stop : Moves s .stop { s with running := false, acts := .stopped :: s.acts }.clear
  | fire (index oracle id) (found : s.armed[index]? = some id) :
      Moves s (.fire index oracle)
        { (M.advance oracle { s with armed := s.armed.eraseIdx index } (M.tick s.fields)).1 with
          ticks := s.ticks ++
            [(M.advance oracle { s with armed := s.armed.eraseIdx index } (M.tick s.fields)).2] }
  | serve (index oracle op resume) (found : s.ticks[index]? = some (.waiting op resume)) :
      Moves s (.serve index oracle)
        { s with
          world := (M.perform op oracle s.world).2
          ticks := s.ticks.set index
            (.served op (M.perform op oracle s.world).1 (resume (M.perform op oracle s.world).1))
          acts := .serves op oracle :: s.acts }
  | resume (index oracle op reply rest) (found : s.ticks[index]? = some (.served op reply rest)) :
      Moves s (.resume index oracle)
        { (M.advance oracle s rest).1 with ticks := s.ticks.set index (M.advance oracle s rest).2 }
  | conclude (index oracle result) (found : s.ticks[index]? = some (.settled result)) :
      Moves s (.resume index oracle) (conclude { s with ticks := s.ticks.eraseIdx index } result)
  | event (event) : Moves s (.event event) { s with fields := M.event event s.fields }
  | others (change) : Moves s (.others change) { s with world := change s.world }

section Rules

variable {M} {s : State σ ε World Oracle Fields}

theorem advance_frame (oracle : Oracle) (program : Program σ ε Unit) :
    ∃ world fields acts, (M.advance oracle s program).1 =
      { s with world := world, fields := fields, acts := acts ++ s.acts } ∧
      ∀ act ∈ acts, (∃ op, act = .sends op) ∨ ∃ op, act = .runs op := by
  induction program generalizing s with
  | settled result => exact ⟨s.world,s.fields,[],rfl,by simp⟩
  | await op resume ih =>
    unfold advance
    split
    · obtain ⟨world,fields,acts,after,shown⟩ := ih (M.perform op oracle s.world).1 (s :=
        { s with
          world := (M.perform op oracle s.world).2
          fields := M.effect op s.fields
          acts := .runs op :: s.acts })
      refine ⟨world,fields,acts ++ [.runs op],?_,?_⟩
      · rw [after]
        simp
      · intro act member
        rcases List.mem_append.mp member with old | new
        · exact shown act old
        · exact .inr ⟨op,List.mem_singleton.mp new⟩
    · exact ⟨s.world,s.fields,[.sends op],rfl,by simp⟩

section Frame

variable (M) (s) (oracle : Oracle) (program : Program σ ε Unit)

@[simp] theorem advance_ticks : (M.advance oracle s program).1.ticks = s.ticks := by
  obtain ⟨world,fields,acts,after,_⟩ := advance_frame (M := M) (s := s) oracle program
  rw [after]

@[simp] theorem advance_running : (M.advance oracle s program).1.running = s.running := by
  obtain ⟨world,fields,acts,after,_⟩ := advance_frame (M := M) (s := s) oracle program
  rw [after]

end Frame

theorem advance_unserved (oracle : Oracle) (s : State σ ε World Oracle Fields)
    (program : Program σ ε Unit) (op : σ.Op) (reply : Except ε (σ.Reply op))
    (rest : Program σ ε Unit) : (M.advance oracle s program).2 ≠ .served op reply rest := by
  induction program generalizing s with
  | settled result => nofun
  | await awaited resume ih =>
    unfold advance
    split
    · exact ih _ _
    · nofun

theorem conclude_frame (s : State σ ε World Oracle Fields) (result : Except ε Unit) :
    conclude s result = s ∨ s.running = true ∧ conclude s result = s.arm := by
  cases result with
  | error e => exact .inl rfl
  | ok value =>
    simp only [conclude]
    split
    · rename_i runs
      exact .inr ⟨runs,rfl⟩
    · exact .inl rfl

section Frame

variable (s : State σ ε World Oracle Fields) (result : Except ε Unit)

@[simp] theorem conclude_fields : (conclude s result).fields = s.fields := by
  obtain same | ⟨_,arms⟩ := conclude_frame s result
  · rw [same]
  · rw [arms]
    rfl

@[simp] theorem conclude_ticks : (conclude s result).ticks = s.ticks := by
  obtain same | ⟨_,arms⟩ := conclude_frame s result
  · rw [same]
  · rw [arms]
    rfl

@[simp] theorem conclude_running : (conclude s result).running = s.running := by
  obtain same | ⟨_,arms⟩ := conclude_frame s result
  · rw [same]
  · rw [arms]
    rfl

end Frame

variable (M) in
theorem step_running (s : State σ ε World Oracle Fields) (turn : Turn World Oracle Event) :
    (M.step s turn).running = match turn with
      | .start => true
      | .stop => false
      | _ => s.running := by
  cases turn with
  | start =>
    simp only [step]
    split
    · assumption
    · rfl
  | stop | event | others => rfl
  | fire index oracle =>
    simp only [step]
    split
    · rfl
    · exact advance_running ..
  | serve index oracle =>
    simp only [step]
    split <;> rfl
  | resume index oracle =>
    simp only [step]
    split
    · exact advance_running ..
    · exact conclude_running ..
    · rfl

theorem step_moves (s : State σ ε World Oracle Fields) (turn : Turn World Oracle Event) :
    M.Moves s turn (M.step s turn) := by
  cases turn with
  | start =>
    simp only [step]
    split
    · exact .idle _
    · rename_i rests
      exact .start (Bool.eq_false_iff.mpr rests)
  | stop => exact .stop
  | fire index oracle =>
    simp only [step]
    split
    · exact .idle _
    · rename_i id found
      rw [advance_ticks]
      exact .fire index oracle id found
  | serve index oracle =>
    simp only [step]
    split
    · rename_i op resume found
      exact .serve index oracle op resume found
    · exact .idle _
  | resume index oracle =>
    simp only [step]
    split
    · rename_i op reply rest found
      rw [advance_ticks]
      exact .resume index oracle op reply rest found
    · rename_i result found
      exact .conclude index oracle result found
    · exact .idle _
  | event event => exact .event event
  | others change => exact .others change

end Rules

/-- What remains of a tick meets the monitor in this state of it. -/
def Tick.Meets (m : Program.Monitor σ ε Q) (post : Q → Except ε Unit → Prop) (q : Q) :
    Tick σ ε → Prop
  | .waiting op resume => Program.wp m post (.await op resume) q
  | .served _ _ rest => Program.wp m post rest q
  | .settled result => post q result

def Tick.suspended : Tick σ ε → Bool
  | .settled _ => false
  | _ => true

/-- The only element that passes a test is replaced: no other one passes it. -/
theorem replace_only {α : Type} {test : α → Bool} {list : List α} {index : Nat} {a : α} (b : α)
    (only : list.countP test ≤ 1) (found : list[index]? = some a) (passes : test a = true) :
    (∀ c ∈ list.set index b, c = b ∨ test c = false) ∧ (list.set index b).countP test ≤ 1 := by
  induction list generalizing index with
  | nil => cases found
  | cons first rest ih =>
    cases index with
    | zero =>
      obtain rfl := Option.some.inj found
      rw [List.countP_cons_of_pos passes] at only
      have none : rest.countP test = 0 := by omega
      have others := List.countP_eq_zero.mp none
      refine ⟨?_,?_⟩
      · intro c member
        rcases List.mem_cons.mp member with same | other
        · exact .inl same
        · exact .inr (Bool.eq_false_iff.mpr (others c other))
      · rw [List.set_cons_zero,List.countP_cons,none]
        split <;> omega
    | succ index =>
      have later : rest[index]? = some a := found
      have counted : 0 < rest.countP test :=
        List.countP_pos_iff.mpr ⟨a,List.mem_of_getElem? later,passes⟩
      cases own : test first with
      | true =>
        rw [List.countP_cons_of_pos own] at only
        omega
      | false =>
        have fails : ¬ test first = true := by simp [own]
        rw [List.countP_cons_of_neg fails] at only
        obtain ⟨others,once⟩ := ih only later
        refine ⟨?_,?_⟩
        · intro c member
          rcases List.mem_cons.mp member with rfl | other
          · exact .inr own
          · exact others c other
        · rw [List.set_cons_succ,List.countP_cons_of_neg fails]
          exact once

section Monitors

variable {M} {m : Program.Monitor σ ε Q} {post : Q → Except ε Unit → Prop}
variable {s : State σ ε World Oracle Fields} {q : Q}

theorem advance_meets (related : Q → Fields → Prop)
    (runs : ∀ q op oracle world fields, M.immediate op = true → m.allowed q op → related q fields →
      m.answers q op (M.perform op oracle world).1 ∧
        related (m.next q op (M.perform op oracle world).1) (M.effect op fields))
    (oracle : Oracle) {program : Program σ ε Unit} (meets : Program.wp m post program q)
    (start : related q s.fields) : ∃ later, related later (M.advance oracle s program).1.fields ∧
      (M.advance oracle s program).2.Meets m post later := by
  induction program generalizing s q with
  | settled result => exact ⟨q,start,meets⟩
  | await op resume ih =>
    unfold advance
    split
    · rename_i immediate
      obtain ⟨answers,next⟩ := runs q op oracle s.world s.fields immediate meets.1 start
      exact ih _ (meets.2 _ answers) next
    · exact ⟨q,start,meets⟩

theorem Tick.Meets.serve {op : σ.Op} {resume : Except ε (σ.Reply op) → Program σ ε Unit}
    {reply : Except ε (σ.Reply op)} (meets : (Tick.waiting op resume).Meets m post q)
    (answers : m.answers q op reply) :
    (Tick.served op reply (resume reply)).Meets m post (m.next q op reply) :=
  meets.2 reply answers

/-- The tick meets the monitor in a state from which it awaited its last operation. -/
def Tick.Follows (m : Program.Monitor σ ε Q) (post : Q → Except ε Unit → Prop) : Tick σ ε → Prop
  | .waiting op resume => ∃ q, Program.wp m post (.await op resume) q
  | .served op reply rest => ∃ q, m.allowed q op ∧ m.answers q op reply ∧
      Program.wp m post rest (m.next q op reply)
  | .settled result => ∃ q, post q result

theorem Tick.Meets.follows {q : Q} {tick : Tick σ ε} (meets : tick.Meets m post q)
    (unserved : ∀ op reply rest, tick ≠ .served op reply rest) : tick.Follows m post := by
  cases tick with
  | waiting op resume => exact ⟨q,meets⟩
  | served op reply rest => exact absurd rfl (unserved op reply rest)
  | settled result => exact ⟨q,meets⟩

/-- The fields meet an invariant, and every tick in progress follows the monitor. -/
structure Kept (m : Program.Monitor σ ε Q) (post : Q → Except ε Unit → Prop)
    (invariant : Fields → Prop) (s : State σ ε World Oracle Fields) : Prop where
  fields : invariant s.fields
  ticks : ∀ tick ∈ s.ticks, tick.Follows m post

theorem kept_initial {invariant : Fields → Prop} (world : World) {fields : Fields}
    (held : invariant fields) :
    Kept m post invariant (initial world fields : State σ ε World Oracle Fields) :=
  ⟨held,by simp [initial]⟩

/-- Every tick follows the monitor from its start on, however the ticks are interleaved. -/
theorem kept_step {invariant : Fields → Prop}
    (starts : ∀ fields, ∃ q, Program.wp m post (M.tick fields) q)
    (answers : ∀ q op oracle world, m.allowed q op → m.answers q op (M.perform op oracle world).1)
    (effects : ∀ q op fields, m.allowed q op → invariant fields → invariant (M.effect op fields))
    (events : ∀ event fields, invariant fields → invariant (M.event event fields))
    (s : State σ ε World Oracle Fields) (turn : Turn World Oracle Event)
    (kept : Kept m post invariant s) : Kept m post invariant (M.step s turn) := by
  have goes : ∀ oracle (now : State σ ε World Oracle Fields) program q, invariant now.fields →
      Program.wp m post program q → invariant (M.advance oracle now program).1.fields ∧
        (M.advance oracle now program).2.Follows m post := by
    intro oracle now program q held meets
    obtain ⟨later,after,meets⟩ := advance_meets (M := M) (fun _ fields => invariant fields)
      (fun q op oracle world fields _ allowed held =>
        ⟨answers q op oracle world allowed,effects q op fields allowed held⟩) oracle meets held
    exact ⟨after,meets.follows (advance_unserved oracle now program)⟩
  have moves := M.step_moves s turn
  generalize M.step s turn = t at moves
  obtain ⟨held,meet⟩ := kept
  cases moves with
  | idle | start | stop | others => exact ⟨held,meet⟩
  | event event => exact ⟨events event _ held,meet⟩
  | fire index oracle id found =>
    obtain ⟨q,begins⟩ := starts s.fields
    obtain ⟨after,follows⟩ := goes oracle { s with armed := s.armed.eraseIdx index } _ q held begins
    refine ⟨after,fun tick member => ?_⟩
    rcases List.mem_append.mp member with old | new
    · exact meet tick old
    · obtain rfl := List.mem_singleton.mp new
      exact follows
  | serve index oracle op resume found =>
    refine ⟨held,fun tick member => ?_⟩
    rcases List.mem_or_eq_of_mem_set member with old | rfl
    · exact meet tick old
    · obtain ⟨q,meets⟩ := meet _ (List.mem_of_getElem? found)
      have answered := answers q op oracle s.world meets.1
      exact ⟨q,meets.1,answered,meets.2 _ answered⟩
  | resume index oracle op reply rest found =>
    obtain ⟨q,_,_,meets⟩ := meet _ (List.mem_of_getElem? found)
    obtain ⟨after,follows⟩ := goes oracle s rest _ held meets
    refine ⟨after,fun tick member => ?_⟩
    rcases List.mem_or_eq_of_mem_set member with old | rfl
    · exact meet tick old
    · exact follows
  | conclude index oracle result found =>
    refine ⟨(conclude_fields ..).symm ▸ held,fun tick member => ?_⟩
    rw [conclude_ticks] at member
    exact meet tick (List.mem_of_mem_eraseIdx member)

variable (M) in
/-- A tick that ends in a loop that runs leaves a timer armed, with its handle kept. -/
def Rearms (s : State σ ε World Oracle Fields) (turn : Turn World Oracle Event) : Prop :=
  ∀ index oracle result, turn = .resume index oracle → s.ticks[index]? = some (.settled result) →
    s.running = true → ∃ id ∈ (M.step s turn).armed, (M.step s turn).timer = some id

/-- A loop goes on when its ticks never reject. -/
theorem Kept.rearms {invariant : Fields → Prop} {s : State σ ε World Oracle Fields}
    (kept : Kept m (fun _ result => result = .ok ()) invariant s) (turn : Turn World Oracle Event) :
    M.Rearms s turn := by
  rintro index oracle result rfl found runs
  obtain ⟨q,rfl⟩ := kept.ticks _ (List.mem_of_getElem? found)
  simp only [step,found,conclude,runs,if_true]
  exact ⟨s.created,by simp [State.arm],rfl⟩

end Monitors

end TimerLoop

end JobScheduler
