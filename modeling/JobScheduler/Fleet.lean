import JobScheduler.Shutdown

/-! Any number of processes over one Redis lock. Their elections move as the cluster of elections
does, whatever the loops, the workers and the shutdowns do, so what the lock ensures of the
elections it ensures of the loops. -/
namespace JobScheduler

open LeaderElection

/-- The processes and what their elections share in Redis. -/
structure Fleet (ι : Type) where
  processes : ι → Process (Grant ι)
  lock : Option (Grant ι)
  heartbeat : HeartbeatValue
  granted : Nat

namespace Fleet

variable {ι : Type}

/-- `serve` is a command of an election that Redis runs, and its reply. -/
inductive Event (ι : Type) where
  | turn (i : ι) (turn : Process.Turn (Grant ι))
  | serve (i : ι) (index : Nat) (delivery : Delivery)
  | lapse
  | forget

def cluster (f : Fleet ι) : Cluster ι :=
  ⟨fun i => (f.processes i).election,f.lock,f.heartbeat,f.granted⟩

def polls (f : Fleet ι) (i : ι) : Prop := (f.processes i).pool.poll.running = true

variable [DecidableEq ι] (names : ι → String) (f : Fleet ι)

def act (i : ι) (turn : Process.Turn (Grant ι)) : Fleet ι :=
  { f with processes := Function.update f.processes i ((f.processes i).step (names i) turn) }

def step : Event ι → Fleet ι
  | .turn _ (.election (.serve _ _)) => f
  | .turn i turn => f.act names i turn
  | .serve i index delivery =>
    match (f.processes i).election.calls[index]?.bind Suspension.pending with
    | none => f
    | some command =>
      let answer := f.cluster.execute i delivery command
      { f with
        lock := answer.2.lock
        heartbeat := answer.2.heartbeat
        granted := answer.2.granted }.act names i (.election (.serve index answer.1))
  | .lapse => { f with lock := none }
  | .forget => { f with heartbeat := .absent }

def transition : Transition (Fleet ι) (Event ι) := ⟨step names⟩

def start (world : World) (heartbeat : HeartbeatValue) : Fleet ι :=
  ⟨fun _ => Process.start world,none,heartbeat,0⟩

def elects : Event ι → Option (LeaderElection.Event ι)
  | .turn i (.election .fire) => some (.fire i)
  | .turn i (.election (.resume index now)) => some (.resume i index now)
  | .turn i (.goOn index _) =>
    match (f.processes i).shutdowns[index]? with
    | some .drained => some (.stop i)
    | _ => none
  | .turn _ _ => none
  | .serve i index delivery => some (.serve i index delivery)
  | .lapse => some .lapse
  | .forget => some .forget

def safe (event : Event ι) : Prop := ∀ own ∈ f.elects event, f.cluster.safe own

instance safe.decidable [Fintype ι] (event : Event ι) : Decidable (f.safe event) :=
  inferInstanceAs (Decidable (∀ own ∈ f.elects event, f.cluster.safe own))

section Simulation

variable {names : ι → String} {f : Fleet ι}

theorem cluster_act (i : ι) (turn : Process.Turn (Grant ι)) : (f.act names i turn).cluster =
    { f.cluster with
      instances := Function.update f.cluster.instances i
        ((f.processes i).step (names i) turn).election } := by
  have parts := Function.comp_update Process.election f.processes i
    ((f.processes i).step (names i) turn)
  exact congrArg (fun instances => (⟨instances,f.lock,f.heartbeat,f.granted⟩ : Cluster ι)) parts

theorem cluster_same {i : ι} {turn : Process.Turn (Grant ι)}
    (same : ((f.processes i).step (names i) turn).election = (f.processes i).election) :
    (f.act names i turn).cluster = f.cluster := by
  rw [cluster_act,same]
  exact congrArg (fun instances => (⟨instances,f.lock,f.heartbeat,f.granted⟩ : Cluster ι))
    (Function.update_eq_self i f.cluster.instances)

/-- The elections of a fleet take the steps of a cluster. -/
theorem cluster_step (event : Event ι) : (f.step names event).cluster =
    (f.elects event).elim f.cluster f.cluster.step := by
  cases event with
  | lapse | forget => rfl
  | serve i index delivery =>
    simp only [step,elects,Option.elim_some,Cluster.step]
    cases pending : (f.processes i).election.calls[index]?.bind Suspension.pending with
    | none =>
      have waits : (f.cluster.instances i).calls[index]?.bind Suspension.pending = none := pending
      rw [waits]
    | some command =>
      have waits : (f.cluster.instances i).calls[index]?.bind Suspension.pending = some command := pending
      rw [waits]
      dsimp only
      rw [cluster_act,Cluster.turn,execute_instances]
      rfl
  | turn i turn =>
    cases turn with
    | election turn =>
      cases turn with
      | fire | resume => exact cluster_act ..
      | stop => exact cluster_same rfl
      | serve => rfl
    | pool turn =>
      refine cluster_same ?_
      cases turn with
      | poll turn => cases turn <;> rfl
      | serve => rfl
    | signal => exact cluster_same rfl
    | goOn index now =>
      simp only [step,elects]
      cases found : (f.processes i).shutdowns[index]? with
      | none => exact cluster_same (by simp only [Process.step,found])
      | some shutdown =>
        cases shutdown with
        | drained =>
          rw [cluster_act]
          simp only [Process.step,found]
          rfl
        | leaving call =>
          refine cluster_same ?_
          simp only [Process.step,found]
          split <;> rfl
        | _ => exact cluster_same (by simp only [Process.step,found])

variable (names) in
def moves (f : Fleet ι) : List (Event ι) → List (LeaderElection.Event ι)
  | [] => []
  | event :: events => (f.elects event).toList ++ (f.step names event).moves events

/-- A fleet refines the cluster: its elections go through a run of the cluster, with the locks, stops
and replies of the fleet's run and nothing for the rest. -/
theorem fleet_refines (f : Fleet ι) (events : List (Event ι)) :
    ((transition names).run f events).cluster =
      Cluster.election.run f.cluster (f.moves names events) := by
  induction events generalizing f with
  | nil => rfl
  | cons event events ih =>
    have rest := ih (f.step names event)
    rw [cluster_step] at rest
    rw [moves,Transition.run_append]
    refine rest.trans ?_
    cases f.elects event <;> rfl

end Simulation

/-- The lock guards the elections, and each loop is wired to its own. -/
structure Guarded (names : ι → String) (world : World) (f : Fleet ι) : Prop where
  elections : LeaderElection.Guarded f.cluster
  wired : ∀ i, Process.Wired (names i) world (f.processes i)

variable {names} {f} {world : World}

theorem wired_act {processes : ι → Process (Grant ι)}
    (wired : ∀ i, Process.Wired (names i) world (processes i)) (i : ι)
    (turn : Process.Turn (Grant ι)) (j : ι) : Process.Wired (names j) world
      (Function.update processes i ((processes i).step (names i) turn) j) := by
  by_cases own : j = i
  · subst own
    rw [Function.update_self]
    exact Process.wired_step turn (wired j)
  · rw [Function.update_of_ne own]
    exact wired j

theorem guarded_step (event : Event ι) (safe : f.safe event) (guarded : Guarded names world f) :
    Guarded names world (f.step names event) := by
  constructor
  · rw [cluster_step]
    cases elects : f.elects event with
    | none => exact guarded.elections
    | some own => exact LeaderElection.guarded_step own (safe own elects) guarded.elections
  · intro j
    cases event with
    | lapse | forget => exact guarded.wired j
    | turn i turn =>
      cases turn with
      | election turn =>
        cases turn with
        | serve => exact guarded.wired j
        | _ => exact wired_act guarded.wired i _ j
      | _ => exact wired_act guarded.wired i _ j
    | serve i index delivery =>
      simp only [step]
      split
      · exact guarded.wired j
      -- Redis has changed the lock, and the processes are those from before.
      · exact wired_act guarded.wired i _ j

/-- One loop at most runs, and only where the lock is, or where a `demote` has yet to stop it. -/
structure OneLoop (f : Fleet ι) : Prop where
  one : ∀ i j, f.polls i → f.polls j → i = j
  held : ∀ i, f.polls i → f.cluster.holds i ∨ (f.processes i).election.demoting = true

/-- In every run of a fleet whose elections are safe, whatever the ticks, the workers and the shutdowns
do, one loop at most runs. -/
theorem one_loop (names : ι → String) (world : World) (heartbeat : HeartbeatValue)
    {events : List (Event ι)}
    (safe : (transition names).Along safe (start world heartbeat) events) {t : Fleet ι}
    (reached : (transition names).Reached (start world heartbeat) events t) : OneLoop t := by
  have started : Guarded names world (start world heartbeat) :=
    ⟨guarded_start heartbeat,fun i => Process.wired_start (names i) world⟩
  have guarded := Transition.invariant_reached (Guarded names world)
    (fun f event => guarded_step event) safe started reached
  refine ⟨fun i j first second => ?_,fun i runs => ?_⟩
  · apply guarded.elections.one
    · exact Bool.or_eq_true_iff.mpr (.inl ((guarded.wired i).runs first))
    · exact Bool.or_eq_true_iff.mpr (.inl ((guarded.wired j).runs second))
  · exact guarded.elections.held i ((guarded.wired i).runs runs)

def lift : LeaderElection.Event Bool → Event Bool
  | .fire i => .turn i (.election .fire)
  | .stop i => .turn i (.election .stop)
  | .serve i index delivery => .serve i index delivery
  | .resume i index now => .turn i (.election (.resume index now))
  | .lapse => .lapse
  | .forget => .forget

/-- The leader gets a signal, steps down in its shutdown, and another process takes over. -/
def succession : List (Event Bool) :=
  (elected true 0).map lift ++ [.turn true (.signal 0),.turn true (.goOn 0 0),.serve true 1 .performed,
    .turn true (.election (.resume 1 0)),.turn true (.election (.resume 1 0))] ++
    (elected false 40000).map lift

theorem one_loop_succession :
    OneLoop ((transition toString).run (start World.empty .absent) succession) ∧
      (((transition toString).run (start World.empty .absent) succession).processes
        false).pool.poll.running = true :=
  ⟨one_loop toString World.empty .absent (by decide +kernel) ⟨succession,List.prefix_rfl,rfl⟩,
    by decide +kernel⟩

end Fleet

end JobScheduler
