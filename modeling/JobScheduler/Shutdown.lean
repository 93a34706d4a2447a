import JobScheduler.ActiveScheduler
import JobScheduler.Dequeue
import JobScheduler.LoopSurvival
import JobScheduler.WorkerSlots

/-! A process of the service: the election, the poll loop and its worker as `bootstrapServer`
wires them, and the shutdowns that its signals start. A shutdown stops the loop at once and the
election only after its `drain`, so a promotion in between starts the loop again. -/
namespace JobScheduler

open LeaderElection TimerLoop

/-- Where a `shutdown` goes on. -/
inductive Shutdown where
  -- `await pollLoop.drain(30_000)`, called at `start`
  | draining (start : Int)
  | drained
  -- `await leaderElection?.stop()`, a call of the election
  | leaving (call : Nat)
  -- the connections are closed, then the process exits
  | closing
  deriving DecidableEq

def Shutdown.past : Shutdown → Bool
  | .draining _ => false
  | _ => true

/-- The poll loop with its worker, and the shutdowns that have been started. -/
structure Process (κ : Type) where
  election : LeaderElection.Instance κ
  pool : WorkerPool
  shutdowns : List Shutdown

namespace Process

variable {κ : Type}

/-- `signal` calls `shutdown`, and `goOn` resumes one. -/
inductive Turn (κ : Type) where
  | election (turn : LeaderElection.Turn κ)
  | pool (turn : WorkerTurn)
  | signal (now : Int)
  | goOn (index : Nat) (now : Int)

def drainTimeoutMs : Int := 30000

/-- `onPromoted` and `onDemoted` call the poll loop. -/
def callback (x : LeaderElection.Instance κ) : LeaderElection.Turn κ → Option PollTurn
  | .resume index _ =>
    match x.calls[index]?.bind Suspension.ready with
    | some (.announced,_) => some .start
    | some (.released,_) => some .stop
    | _ => none
  | _ => none

/-- One look of `drain` at the counter. -/
def look (start now : Int) (fields : PollFields) : Shutdown :=
  match PollLoop.drain drainTimeoutMs start now fields with
  | .waits => .draining start
  | .timedOut | .drained => .drained

variable (instanceId : String) (p : Process κ)

/-- Start and stop are left to the callbacks and the shutdowns. -/
def step : Turn κ → Process κ
  | .election .stop | .pool (.poll .start) | .pool (.poll .stop) => p
  | .election turn =>
    { p with
      election := p.election.step turn
      pool := (callback p.election turn).elim p.pool fun turn => p.pool.step instanceId (.poll turn) }
  | .pool turn => { p with pool := p.pool.step instanceId turn }
  | .signal now =>
    let pool := p.pool.step instanceId (.poll .stop)
    { p with pool := pool, shutdowns := p.shutdowns ++ [look now now pool.poll.fields] }
  | .goOn index now =>
    match p.shutdowns[index]? with
    | some (.draining start) =>
      { p with shutdowns := p.shutdowns.set index (look start now p.pool.poll.fields) }
    | some .drained =>
      { p with
        election := p.election.step .stop
        shutdowns := p.shutdowns.set index (.leaving p.election.calls.length) }
    | some (.leaving call) =>
      if p.election.calls[call]?.all fun call => call.point.isNone then
        { p with shutdowns := p.shutdowns.set index .closing }
      else p
    | _ => p

def transition : Transition (Process κ) (Turn κ) := ⟨step instanceId⟩

def start (world : World) : Process κ := ⟨LeaderElection.Instance.start,WorkerPool.start world,[]⟩

/-- After a signal no promotion is called back, and no `drain` times out. No stop finds a timer
that the loop has lost the handle of, and no tick carries on in a stopped loop. -/
def spares : Turn κ → Bool
  | .election turn =>
    match callback p.election turn with
    | some .start => p.shutdowns.isEmpty
    | some turn => !carriesOn p.pool.poll turn
    | none => true
  | .pool (.poll turn) => !carriesOn p.pool.poll turn
  | .pool _ => true
  | .signal _ => !carriesOn p.pool.poll .stop
  | .goOn index now =>
    match p.shutdowns[index]? with
    | some (.draining start) => PollLoop.drain drainTimeoutMs start now p.pool.poll.fields ≠ .timedOut
    | _ => true

end Process

section Poll

variable (instanceId : String) {s : PollState}

theorem stopped_step {turn : PollTurn} (leaves : carriesOn s turn = false) (still : Still s)
    (others : turn ≠ .start) (stopped : s.running = false) :
    ((PollLoop.loop instanceId).step s turn).running = false ∧
      (resting s.acts = true → resting ((PollLoop.loop instanceId).step s turn).acts = true) ∧
      (s.fields.batches = [] → ((PollLoop.loop instanceId).step s turn).fields.batches = []) := by
  have moves := (PollLoop.loop instanceId).step_moves s turn
  generalize (PollLoop.loop instanceId).step s turn = t at moves
  cases moves with
  | idle | serve | others => exact ⟨stopped,id,id⟩
  | start => exact absurd rfl others
  | stop => exact ⟨rfl,fun _ => rfl,id⟩
  | fire index ω id found =>
    rw [still.unarmed stopped] at found
    cases found
  -- A tick that the stop has found suspended goes on, but only to its end.
  | resume index ω op reply rest found =>
    have ends : PollLoop.endsOn op reply = true := by simpa [carriesOn,stopped,found] using leaves
    obtain ⟨result,rfl⟩ := still.ended found ends
    exact ⟨stopped,id,id⟩
  | conclude index ω result found =>
    obtain same | ⟨runs,_⟩ := conclude_frame { s with ticks := s.ticks.eraseIdx index } result
    · rw [same]
      exact ⟨stopped,id,id⟩
    · exact absurd (stopped.symm.trans runs) (by decide)
  | event batch =>
    refine ⟨stopped,id,fun none => ?_⟩
    change (PollLoop.settle batch s.fields).batches = []
    simp [PollLoop.settle,none]

theorem pool_poll (s : WorkerPool) (turn : WorkerTurn) : (s.step instanceId turn).poll = s.poll ∨
    ∃ own, (s.step instanceId turn).poll = (PollLoop.loop instanceId).step s.poll own ∧
      (turn = .poll own ∨ ∃ change, own = .others change) := by
  cases turn with
  | poll turn =>
    cases turn with
    | event batch =>
      simp only [WorkerPool.step]
      split
      · exact .inl rfl
      · split
        · exact .inr ⟨_,rfl,.inl rfl⟩
        · exact .inl rfl
    | _ => exact .inr ⟨_,rfl,.inl rfl⟩
  | serve batch index ω =>
    simp only [WorkerPool.step]
    split
    · exact .inl rfl
    · split
      · exact .inl rfl
      · rename_i run here
        exact .inr ⟨.others fun _ => (run.serve ω s.poll.world).1,rfl,.inr ⟨_,rfl⟩⟩

end Poll

namespace Process

variable {κ : Type}

section Wiring

attribute [local simp] goesOn Service.send Service.acquire Service.extend Service.promote
  Service.demote Service.release Service.scheduleWatch Service.onPromoted Service.onDemoted
  Service.clearTimers Service.stopped Service.watchTick

theorem resume_flag (caller : Caller) (s : Service κ) (now : Int) (point : Point κ) (reply : Reply κ) :
    (resume caller s now point reply).1.running = match point with
      | .announced => true
      | .released => false
      | _ => s.running := by
  fun_cases resume caller s now point reply <;> simp
  all_goals cases held : s.lock <;> simp

theorem callback_running (x : LeaderElection.Instance κ) (turn : LeaderElection.Turn κ) :
    (x.step turn).running = match callback x turn with
      | some .start => true
      | some .stop => false
      | _ => x.running := by
  cases turn with
  | fire =>
    simp only [LeaderElection.Instance.step,Instance.fire]
    split
    · by_cases leads : x.service.state = .leader <;> cases held : x.service.lock <;>
        simp [Instance.running,Instance.begins,callback,leads,held]
    · rfl
  | stop =>
    simp only [LeaderElection.Instance.step,Instance.stop]
    split
    · cases held : x.service.lock <;> simp [Instance.running,Instance.begins,callback,held]
    · rfl
  | serve index reply =>
    simp only [LeaderElection.Instance.step]
    split
    · rfl
    · split
      · rfl
      · simp only [Instance.running,Instance.notes]
        split <;> rfl
  | resume index now =>
    simp only [LeaderElection.Instance.step,callback]
    split
    · rename_i absent
      simp [absent]
    · rename_i call found
      rw [found,Option.bind_some]
      cases isReady : call.ready with
      | none => rfl
      | some next =>
        obtain ⟨point,reply⟩ := next
        refine (resume_flag call.caller x.service now point reply).trans ?_
        cases point <;> rfl

end Wiring

/-- After a signal the loop is at rest, and once it has been drained no batch is in flight. -/
structure Winding (p : Process κ) : Prop where
  pooled : Pooled p.pool
  still : Still p.pool.poll
  stopped : p.shutdowns ≠ [] → p.pool.poll.running = false ∧ resting p.pool.poll.acts = true
  drained : ∀ shutdown ∈ p.shutdowns, shutdown.past = true → p.pool.poll.fields.batches = []

variable {instanceId : String} {p : Process κ}

theorem winding_start (world : World) : Winding (start world : Process κ) where
  pooled := pooled_start world
  still := still_start world
  stopped none := absurd rfl none
  drained _ member := by cases member

theorem Winding.pool (winding : Winding p) {turn : WorkerTurn} (election : LeaderElection.Instance κ)
    (leaves : ∀ own, turn = .poll own → carriesOn p.pool.poll own = false)
    (starts : turn = .poll .start → p.shutdowns = []) :
    Winding { p with election := election, pool := p.pool.step instanceId turn } := by
  have pooled : Pooled (p.pool.step instanceId turn) := pooled_step p.pool turn winding.pooled
  obtain same | ⟨own,stepped,origin⟩ := pool_poll instanceId p.pool turn
  · refine ⟨pooled,?_,?_,?_⟩ <;> dsimp only <;> rw [same]
    · exact winding.still
    · exact winding.stopped
    · exact winding.drained
  · have leaves : carriesOn p.pool.poll own = false := by
      rcases origin with rfl | ⟨change,rfl⟩
      · exact leaves own rfl
      · rfl
    have rests : p.shutdowns ≠ [] → own ≠ .start := by
      rintro signalled rfl
      rcases origin with rfl | ⟨change,started⟩
      · exact signalled (starts rfl)
      · cases started
    refine ⟨pooled,?_,?_,?_⟩ <;> dsimp only <;> rw [stepped]
    · exact still_step p.pool.poll own leaves winding.still
    · intro signalled
      obtain ⟨stopped,resting⟩ := winding.stopped signalled
      obtain ⟨later,quiet,_⟩ := stopped_step instanceId leaves winding.still
        (rests signalled) stopped
      exact ⟨later,quiet resting⟩
    · intro shutdown member past
      have signalled := List.ne_nil_of_mem member
      have kept := stopped_step instanceId leaves winding.still (rests signalled)
        (winding.stopped signalled).1
      exact kept.2.2 (winding.drained shutdown member past)

/-- A look that ends the loop of `drain` in time finds nothing in flight. -/
theorem look_past {fields : PollFields} (accounts : Accounts fields) {started now : Int}
    (timely : PollLoop.drain drainTimeoutMs started now fields ≠ .timedOut)
    (past : (look started now fields).past = true) : fields.batches = [] := by
  unfold look at past
  split at past
  · cases past
  · rename_i late
    exact absurd late timely
  · rename_i idle
    exact accounts.idle (drained_idle idle)

theorem first_look (now : Int) (fields : PollFields) :
    PollLoop.drain drainTimeoutMs now now fields ≠ .timedOut := by
  unfold PollLoop.drain drainTimeoutMs
  split
  · rw [if_neg (by omega)]
    decide
  · decide

theorem Winding.replace (winding : Winding p) {index : Nat} {old next : Shutdown}
    (found : p.shutdowns[index]? = some old) (election : LeaderElection.Instance κ)
    (empties : next.past = true → p.pool.poll.fields.batches = []) :
    Winding { p with election := election, shutdowns := p.shutdowns.set index next } := by
  refine ⟨winding.pooled,winding.still,fun _ => ?_,fun shutdown member past => ?_⟩
  · exact winding.stopped (List.ne_nil_of_mem (List.mem_of_getElem? found))
  · rcases List.mem_or_eq_of_mem_set member with stays | rfl
    · exact winding.drained shutdown stays past
    · exact empties past

theorem spared_callback {turn : LeaderElection.Turn κ} (spares : p.spares (.election turn) = true)
    {own : PollTurn} (called : callback p.election turn = some own) :
    carriesOn p.pool.poll own = false ∧ (own = .start → p.shutdowns = []) := by
  simp only [Process.spares,called] at spares
  cases own with
  | start => exact ⟨rfl,fun _ => List.isEmpty_iff.mp spares⟩
  | _ => exact ⟨by simpa using spares,nofun⟩

theorem Winding.elect (winding : Winding p) {turn : LeaderElection.Turn κ}
    (spares : p.spares (.election turn) = true) :
    Winding { p with
      election := p.election.step turn
      pool := (callback p.election turn).elim p.pool fun turn => p.pool.step instanceId (.poll turn) } := by
  cases called : callback p.election turn with
  | none => exact ⟨winding.pooled,winding.still,winding.stopped,winding.drained⟩
  | some own =>
    obtain ⟨leaves,starts⟩ := spared_callback spares called
    apply winding.pool
    · rintro _ ⟨⟩
      exact leaves
    · rintro ⟨⟩
      exact starts rfl

theorem Winding.signal (winding : Winding p) (now : Int)
    (leaves : carriesOn p.pool.poll .stop = false) : Winding (p.step instanceId (.signal now)) := by
  have after : Winding { p with pool := p.pool.step instanceId (.poll .stop) } := by
    apply winding.pool p.election
    · rintro _ ⟨⟩
      exact leaves
    · rintro ⟨⟩
  refine ⟨after.pooled,after.still,fun _ => ⟨rfl,rfl⟩,fun shutdown member past => ?_⟩
  rcases List.mem_append.mp member with old | new
  · exact after.drained shutdown old past
  · obtain rfl := List.mem_singleton.mp new
    exact look_past after.pooled.counted.fields (first_look now _) past

theorem winding_step (turn : Turn κ) (spares : p.spares turn = true) (winding : Winding p) :
    Winding (p.step instanceId turn) := by
  cases turn with
  | election turn =>
    cases turn with
    | stop => exact winding
    | _ => exact winding.elect spares
  | pool turn =>
    have leaves : ∀ own, turn = .poll own → carriesOn p.pool.poll own = false := by
      rintro own rfl
      simpa [Process.spares] using spares
    cases turn with
    | poll turn =>
      cases turn with
      | start | stop => exact winding
      | _ => exact winding.pool p.election leaves nofun
    | serve => exact winding.pool p.election leaves nofun
  | signal now => exact winding.signal now (by simpa [Process.spares] using spares)
  | goOn index now =>
    simp only [step]
    split
    · rename_i started found
      refine winding.replace found p.election (look_past winding.pooled.counted.fields ?_)
      simpa [Process.spares,found] using spares
    · rename_i found
      refine winding.replace found _ fun _ => ?_
      exact winding.drained _ (List.mem_of_getElem? found) rfl
    · rename_i call found
      split
      · refine winding.replace found p.election fun _ => ?_
        exact winding.drained _ (List.mem_of_getElem? found) rfl
      · exact winding
    · exact winding

/-- What a shutdown leaves behind that has drained the loop. -/
structure Drained (p : Process κ) : Prop where
  stopped : p.pool.poll.running = false ∧ p.pool.poll.armed = []
  quiet : resting p.pool.poll.acts = true ∧ Quiet p.pool.poll.acts
  idle : p.pool.poll.fields.activeJobs = 0
  settled : ∀ run ∈ p.pool.runs.flatten ++ p.pool.past, run.settled = true

/-- In every run of a process, of any number of signals: a shutdown that has gone past its `drain`
finds the loop stopped, without any work since the last stop, and every run of the worker settled,
unless a `drain` has timed out, a promotion has called back after a signal, a stop has missed a
timer, or a tick has carried on in a stopped loop. -/
theorem shutdown_drains (instanceId : String) (world : World) {turns : List (Turn κ)}
    (spared : (transition instanceId).Along (fun p turn => p.spares turn = true) (start world) turns)
    {t : Process κ} (reached : (transition instanceId).Reached (start world) turns t)
    {shutdown : Shutdown} (member : shutdown ∈ t.shutdowns) (past : shutdown.past = true) :
    Drained t := by
  have winding := Transition.invariant_reached Winding (fun _ turn => winding_step turn) spared
    (winding_start world) reached
  have empty := winding.drained shutdown member past
  obtain ⟨stopped,rests⟩ := winding.stopped (List.ne_nil_of_mem member)
  have counter : t.pool.poll.fields.activeJobs = 0 := by
    rw [winding.pooled.counted.fields.counter,empty]
    rfl
  have none : t.pool.runs = [] := by
    have ids := winding.pooled.runs
    rw [empty] at ids
    exact List.map_eq_nil_iff.mp ids
  refine ⟨⟨stopped,winding.still.unarmed stopped⟩,⟨rests,winding.still.quiet⟩,counter,?_⟩
  rw [none]
  exact winding.pooled.past

def taking : List (Turn Nat) :=
  .pool (.poll (.fire 0 (calm 0))) :: (List.replicate 7 [.serve 0 (calm 0),.resume 0 (calm 0)]).flatten.map
    fun turn => .pool (.poll turn)

/-- The leader gets a signal while the report is in flight. -/
def stopping : List (Turn Nat) :=
  promoted.map .election ++ taking ++ [.signal 0,.goOn 0 500,.pool (.serve 0 0 (calm 0)),
    .pool (.poll (.event 0)),.goOn 0 1000,.goOn 0 1000]

theorem shutdown_drains_report : Drained ((transition "a").run (start reportDue) stopping) := by
  have left : Shutdown.leaving 1 ∈ ((transition "a").run (start reportDue) stopping).shutdowns := by
    decide +kernel
  exact shutdown_drains "a" reportDue (by decide +kernel) ⟨stopping,List.prefix_rfl,rfl⟩ left rfl

/-- The parts of a process go through runs of their own, and the loop runs as the callbacks say,
but for what a shutdown stops. -/
structure Wired (instanceId : String) (world : World) (p : Process κ) : Prop where
  election : ∃ turns, p.election = Instance.election.run .start turns
  pool : ∃ turns, p.pool = (WorkerPool.transition instanceId).run (WorkerPool.start world) turns
  runs : p.pool.poll.running = true → p.election.running = true
  agrees : p.shutdowns = [] → p.pool.poll.running = p.election.running

theorem pool_running (instanceId : String) (s : WorkerPool) (turn : WorkerTurn) :
    (s.step instanceId turn).poll.running = match turn with
      | .poll .start => true
      | .poll .stop => false
      | _ => s.poll.running := by
  cases turn with
  | poll turn =>
    cases turn with
    | event batch =>
      simp only [WorkerPool.step]
      split
      · rfl
      · split <;> rfl
    | _ => exact (PollLoop.loop instanceId).step_running s.poll _
  | serve batch index ω =>
    simp only [WorkerPool.step]
    split
    · rfl
    · split <;> rfl

variable {world : World}

theorem Wired.elected (wired : Wired instanceId world p) (turn : LeaderElection.Turn κ) :
    ∃ turns, p.election.step turn = Instance.election.run .start turns := by
  obtain ⟨turns,run⟩ := wired.election
  refine ⟨turns ++ [turn],?_⟩
  rw [run,Transition.run_append]
  rfl

theorem Wired.worked (wired : Wired instanceId world p) (turn : WorkerTurn) : ∃ turns,
    p.pool.step instanceId turn = (WorkerPool.transition instanceId).run (WorkerPool.start world) turns := by
  obtain ⟨turns,run⟩ := wired.pool
  refine ⟨turns ++ [turn],?_⟩
  rw [run,Transition.run_append]
  rfl

theorem Wired.elect (wired : Wired instanceId world p) (turn : LeaderElection.Turn κ) :
    Wired instanceId world { p with
      election := p.election.step turn
      pool := (callback p.election turn).elim p.pool fun turn => p.pool.step instanceId (.poll turn) } := by
  have flag := callback_running p.election turn
  cases called : callback p.election turn with
  | none =>
    rw [called] at flag
    exact ⟨wired.elected turn,wired.pool,fun runs => flag.trans (wired.runs runs),
      fun none => (wired.agrees none).trans flag.symm⟩
  | some own =>
    rw [called] at flag
    have loop := pool_running instanceId p.pool (.poll own)
    refine ⟨wired.elected turn,wired.worked (.poll own),fun runs => ?_,fun none => ?_⟩
    · have runs := loop.symm.trans runs
      cases own with
      | start => exact flag
      | stop => cases runs
      | _ => exact flag.trans (wired.runs runs)
    · cases own with
      | start | stop => exact loop.trans flag.symm
      | _ => exact loop.trans ((wired.agrees none).trans flag.symm)

theorem Wired.work (wired : Wired instanceId world p) {turn : WorkerTurn}
    (same : (p.pool.step instanceId turn).poll.running = p.pool.poll.running) :
    Wired instanceId world { p with pool := p.pool.step instanceId turn } :=
  ⟨wired.election,wired.worked turn,fun runs => wired.runs (same.symm.trans runs),
    fun none => same.trans (wired.agrees none)⟩

theorem wired_step (turn : Turn κ) (wired : Wired instanceId world p) :
    Wired instanceId world (p.step instanceId turn) := by
  cases turn with
  | election turn =>
    cases turn with
    | stop => exact wired
    | _ => exact wired.elect _
  | pool turn =>
    have same := pool_running instanceId p.pool turn
    cases turn with
    | poll turn =>
      cases turn with
      | start | stop => exact wired
      | _ => exact wired.work same
    | serve => exact wired.work same
  | signal now =>
    refine ⟨wired.election,wired.worked (.poll .stop),nofun,fun none => ?_⟩
    exact absurd none (List.append_ne_nil_of_right_ne_nil _ (List.cons_ne_nil _ _))
  | goOn index now =>
    have set : ∀ shutdown, p.shutdowns.set index shutdown = [] → p.shutdowns = [] := by
      intro shutdown none
      exact List.length_eq_zero_iff.mp (by simpa using congrArg List.length none)
    simp only [step]
    split
    · exact ⟨wired.election,wired.pool,wired.runs,fun none => wired.agrees (set _ none)⟩
    · have flag : (p.election.step .stop).running = p.election.running := callback_running p.election .stop
      exact ⟨wired.elected .stop,wired.pool,fun runs => flag.trans (wired.runs runs),
        fun none => (wired.agrees (set _ none)).trans flag.symm⟩
    · split
      · exact ⟨wired.election,wired.pool,wired.runs,fun none => wired.agrees (set _ none)⟩
      · exact wired
    · exact wired

theorem wired_start (instanceId : String) (world : World) :
    Wired instanceId world (start world : Process κ) :=
  ⟨⟨[],rfl⟩,⟨[],rfl⟩,nofun,fun _ => rfl⟩

/-- A process refines its parts: after every run of it, whatever signals come, the election and the
pool are in states that runs of their own reach, and the loop runs only while its election says so,
and just then as long as no signal has come. -/
theorem process_refines (instanceId : String) (world : World) (turns : List (Turn κ)) :
    Wired instanceId world ((transition instanceId).run (start world) turns) := by
  exact Transition.always_run (Wired instanceId world) (fun _ turn => wired_step turn)
    (wired_start instanceId world) turns

end Process

end JobScheduler
