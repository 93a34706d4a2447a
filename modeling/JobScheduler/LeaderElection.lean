import JobScheduler.Transition
import Mathlib.Data.List.Basic

/-! Leader election of one instance: `LeaderElectionService` over `RedlockElection`, with
the callbacks that `bootstrapServer` wires to the poll loop. The code runs to completion
between awaits. A call waits either for the reply to a command, or for an inner async
function whose promise has settled, which resumes it in a later microtask. -/
namespace JobScheduler.LeaderElection

def heartbeatIntervalMs : Nat := 15000
def heartbeatStaleThresholdMs : Nat := heartbeatIntervalMs * 2

inductive LeaderState where
  | leader
  | follower
  | candidate
  deriving DecidableEq

/-- What `parseInt` makes of the heartbeat key. -/
inductive HeartbeatValue where
  | absent
  | unreadable
  | written (ts : Int)

/-- A comparison with NaN is false. -/
def isHeartbeatStale (value : HeartbeatValue) (now : Int) : Bool :=
  match value with
  | .absent => true
  | .unreadable => false
  | .written ts => heartbeatStaleThresholdMs < now - ts

/-- The commands sent to Redis. A lock is known by the random value it was granted under. -/
inductive Command (κ : Type) where
  | getHeartbeat
  | setHeartbeat (ts : Int)
  | acquire
  | extend (lock : κ)
  | release (lock : κ)
  deriving DecidableEq

/-- How a command ends. A reply of another command's kind is never given. -/
inductive Reply (κ : Type) where
  | failed
  | heartbeat (value : HeartbeatValue)
  | lock (lock : κ)
  | done

def Reply.succeeded : Reply κ → Bool
  | .failed => false
  | _ => true

/-- Where a suspended `watchTick` or `stop` goes on: at the reply to a command, or after
the inner function that the comment names. -/
inductive Point (κ : Type) where
  | readingHeartbeat
  -- `await this.isHeartbeatStale()`
  | staleness (isStale : Bool)
  | acquiring
  -- `await this.election.acquire()`
  | acquired (granted : Bool)
  | announcing (ts : Int)
  -- `await this.writeHeartbeat()` in `promote`
  | announced
  -- `await this.promote()`
  | promoted
  | extending (lock : κ)
  -- `await this.election.extend()`
  | extended (held : Bool)
  | renewing (ts : Int)
  -- `await this.writeHeartbeat()` in `watchTick`
  | renewed
  | releasing (lock : κ)
  -- `await this.election.release()`
  | released
  -- `await this.demote()`
  | demoted

def Point.command : Point κ → Option (Command κ)
  | .readingHeartbeat => some .getHeartbeat
  | .acquiring => some .acquire
  | .announcing ts | .renewing ts => some (.setHeartbeat ts)
  | .extending lock => some (.extend lock)
  | .releasing lock => some (.release lock)
  | _ => none

def Point.demoting : Point κ → Bool
  | .releasing _ | .released => true
  | _ => false

def Point.steppingDown : Point κ → Bool
  | .demoted => true
  | point => point.demoting

inductive Act (κ : Type) where
  | sent (command : Command κ)
  | succeeded (command : Command κ)
  | armed
  | onPromoted
  | onDemoted
  | stopped

/-- The fields of the service, its `RedlockElection` and the poll loop's `running` flag.
The acts are newest first. -/
structure Service (κ : Type) where
  state : LeaderState
  lock : Option κ
  watchTimer : Bool
  running : Bool
  acts : List (Act κ)

namespace Service

variable (s : Service κ)

def send (point : Point κ) : Service κ × Point κ :=
  ({ s with acts := (point.command.map Act.sent).toList ++ s.acts },point)

def scheduleWatch : Service κ := { s with watchTimer := true, acts := .armed :: s.acts }

def clearTimers : Service κ := { s with watchTimer := false }

/-- `pollLoop.start()` -/
def onPromoted : Service κ := { s with running := true, acts := .onPromoted :: s.acts }

/-- `pollLoop.stop()` -/
def onDemoted : Service κ := { s with running := false, acts := .onDemoted :: s.acts }

def stopped : Service κ := { s with acts := .stopped :: s.acts }

def acquire : Service κ × Point κ := s.send .acquiring

def extend : Service κ × Point κ :=
  match s.lock with
  | none => (s,.extended false)
  | some lock => s.send (.extending lock)

def release : Service κ × Point κ :=
  match s.lock with
  | none => (s,.released)
  | some lock => s.send (.releasing lock)

def promote (now : Int) : Service κ × Point κ := { s with state := .leader }.send (.announcing now)

def demote : Service κ × Point κ := { s with state := .follower }.release

def watchTick : Service κ × Point κ :=
  if s.state = .leader then s.extend else s.send .readingHeartbeat

end Service

inductive Caller where
  | watchTick
  | stop
  deriving DecidableEq

/-- A call that still goes on, with the point where it is suspended. -/
def goesOn (next : Service κ × Point κ) : Service κ × Option (Point κ) := (next.1,some next.2)

/-- What a call does when it resumes. Without a next point it has settled. -/
def resume (caller : Caller) (s : Service κ) (now : Int) :
    Point κ → Reply κ → Service κ × Option (Point κ)
  | .readingHeartbeat, .heartbeat value => (s,some (.staleness (isHeartbeatStale value now)))
  | .readingHeartbeat, _ => (s,none)
  | .staleness true, _ => goesOn { s with state := .candidate }.acquire
  | .staleness false, _ => (s.scheduleWatch,none)
  | .acquiring, .lock lock => ({ s with lock := some lock },some (.acquired true))
  | .acquiring, _ => (s,some (.acquired false))
  | .acquired true, _ => goesOn (s.promote now)
  | .acquired false, _ => ({ s with state := .follower }.scheduleWatch,none)
  | .announcing _, .done => (s,some .announced)
  | .announcing _, _ => (s,none)
  | .announced, _ => (s.onPromoted,some .promoted)
  | .promoted, _ => (s.scheduleWatch,none)
  | .extending _, .lock lock => ({ s with lock := some lock },some (.extended true))
  | .extending _, _ => ({ s with lock := none },some (.extended false))
  | .extended true, _ => goesOn (s.send (.renewing now))
  | .extended false, _ => goesOn s.demote
  | .renewing _, .done => (s,some .renewed)
  | .renewing _, _ => (s,none)
  | .renewed, _ => (s.scheduleWatch,none)
  | .releasing _, _ => ({ s with lock := none },some .released)
  | .released, _ => (s.onDemoted,some .demoted)
  | .demoted, _ =>
    match caller with
    | .watchTick => (s.scheduleWatch,none)
    | .stop => (s.stopped,none)

structure Suspension (κ : Type) where
  caller : Caller
  point : Option (Point κ)
  reply : Option (Reply κ)

namespace Suspension

variable (call : Suspension κ)

def pending : Option (Command κ) :=
  match call.reply with
  | none => call.point.bind Point.command
  | some _ => none

def ready : Option (Point κ × Reply κ) :=
  call.point.bind fun point =>
    match point.command with
    | none => some (point,.done)
    | some _ => call.reply.map fun reply => (point,reply)

def ticking : Bool := call.caller = .watchTick && call.point.isSome

def demoting : Bool := call.point.any Point.demoting

end Suspension

structure Instance (κ : Type) where
  service : Service κ
  calls : List (Suspension κ)

/-- What the scheduler of an instance can do next. `serve` is the arrival of a reply. -/
inductive Turn (κ : Type) where
  | fire
  | stop
  | serve (index : Nat) (reply : Reply κ)
  | resume (index : Nat) (now : Int)

namespace Instance

variable (x : Instance κ)

def begins (caller : Caller) (next : Service κ × Option (Point κ)) : Instance κ :=
  ⟨next.1,x.calls ++ [⟨caller,next.2,none⟩]⟩

def fire : Instance κ :=
  if x.service.watchTimer then x.begins .watchTick (goesOn x.service.clearTimers.watchTick) else x

def stop : Instance κ :=
  if x.service.state = .leader then x.begins .stop (goesOn x.service.clearTimers.demote)
  else x.begins .stop (x.service.clearTimers.stopped,none)

def notes (command : Command κ) (reply : Reply κ) : Service κ :=
  if reply.succeeded then { x.service with acts := .succeeded command :: x.service.acts }
  else x.service

def step : Turn κ → Instance κ
  | .fire => x.fire
  | .stop => x.stop
  | .serve index reply =>
    match x.calls[index]? with
    | none => x
    | some call =>
      match call.pending with
      | none => x
      | some command => ⟨x.notes command reply,x.calls.set index { call with reply := some reply }⟩
  | .resume index now =>
    match x.calls[index]? with
    | none => x
    | some call =>
      match call.ready with
      | none => x
      | some (point,reply) =>
        let next := LeaderElection.resume call.caller x.service now point reply
        ⟨next.1,x.calls.set index ⟨call.caller,next.2,none⟩⟩

/-- `start` has armed the watch timer. -/
def start : Instance κ := ⟨(⟨.follower,none,false,false,[]⟩ : Service κ).scheduleWatch,[]⟩

def election : Transition (Instance κ) (Turn κ) := ⟨step⟩

inductive Moves : Turn κ → Instance κ → Prop where
  | idle (turn) : Moves turn x
  | fire (armed : x.service.watchTimer = true) :
      Moves .fire (x.begins .watchTick (goesOn x.service.clearTimers.watchTick))
  | demote (leads : x.service.state = .leader) :
      Moves .stop (x.begins .stop (goesOn x.service.clearTimers.demote))
  | stop (follows : x.service.state ≠ .leader) :
      Moves .stop (x.begins .stop (x.service.clearTimers.stopped,none))
  | serve (index call command reply) (found : x.calls[index]? = some call)
      (waits : call.pending = some command) :
      Moves (.serve index reply)
        ⟨x.notes command reply,x.calls.set index { call with reply := some reply }⟩
  | resume (index call point reply now) (found : x.calls[index]? = some call)
      (isReady : call.ready = some (point,reply)) :
      Moves (.resume index now)
        ⟨(LeaderElection.resume call.caller x.service now point reply).1,x.calls.set index
          ⟨call.caller,(LeaderElection.resume call.caller x.service now point reply).2,none⟩⟩

theorem step_moves (turn : Turn κ) : Moves x turn (x.step turn) := by
  cases turn with
  | fire =>
    simp only [step,fire]
    split
    · rename_i armed
      exact .fire armed
    · exact .idle _
  | stop =>
    simp only [step,stop]
    split
    · rename_i leads
      exact .demote leads
    · rename_i follows
      exact .stop follows
  | serve index reply =>
    simp only [step]
    split
    · exact .idle _
    · rename_i call found
      split
      · exact .idle _
      · rename_i command waits
        exact .serve index call command reply found waits
  | resume index now =>
    simp only [step]
    split
    · exact .idle _
    · rename_i call found
      split
      · exact .idle _
      · rename_i point reply isReady
        exact .resume index call point reply now found isReady

end Instance

section Calls

variable {x : Instance κ} {index : Nat} {call : Suspension κ}

theorem Suspension.ready_point {point : Point κ} {reply : Reply κ}
    (isReady : call.ready = some (point,reply)) : call.point = some point := by
  obtain ⟨own,here,shape⟩ := Option.bind_eq_some_iff.mp isReady
  split at shape
  · obtain ⟨rfl,_⟩ := Prod.mk.inj (Option.some.inj shape)
    exact here
  · obtain ⟨_,_,same⟩ := Option.map_eq_some_iff.mp shape
    obtain ⟨rfl,_⟩ := Prod.mk.inj same
    exact here

theorem Suspension.pending_point {command : Command κ} (waits : call.pending = some command) :
    ∃ point, call.point = some point ∧ point.command = some command := by
  unfold pending at waits
  split at waits
  · exact Option.bind_eq_some_iff.mp waits
  · cases waits

theorem set_cases (found : x.calls[index]? = some call) {moved : Suspension κ} {place : Nat}
    {other : Suspension κ} (here : other ∈ (x.calls.set index moved)[place]?) :
    (place = index ∧ other = moved) ∨ (place ≠ index ∧ x.calls[place]? = some other) := by
  by_cases same : place = index
  · subst same
    rw [List.getElem?_set_self (List.getElem?_eq_some_iff.mp found).1] at here
    exact .inl ⟨rfl,(Option.some.inj here).symm⟩
  · rw [List.getElem?_set_ne (Ne.symm same)] at here
    exact .inr ⟨same,here⟩

theorem append_cases {begun : Suspension κ} {place : Nat} {other : Suspension κ}
    (here : other ∈ (x.calls ++ [begun])[place]?) :
    (place = x.calls.length ∧ other = begun) ∨ x.calls[place]? = some other := by
  rcases Nat.lt_or_ge place x.calls.length with inside | beyond
  · rw [List.getElem?_append_left inside] at here
    exact .inr here
  · have bound := (List.getElem?_eq_some_iff.mp here).1
    simp only [List.length_append,List.length_singleton] at bound
    rw [List.getElem?_append_right beyond] at here
    exact .inl ⟨by omega,List.mem_singleton.mp (List.mem_of_getElem? here)⟩

/-- One tick at most is in progress, and none while the timer is armed. A `stop` only
steps down. -/
structure Single (x : Instance κ) : Prop where
  alone : ∀ i j : Nat, ∀ a ∈ x.calls[i]?, ∀ b ∈ x.calls[j]?,
    a.ticking = true → b.ticking = true → i = j
  quiet : x.service.watchTimer = true → ∀ call ∈ x.calls, call.ticking = false
  stops : ∀ call ∈ x.calls, call.caller = .stop → ∀ point ∈ call.point, point.steppingDown = true

namespace Single

theorem disarmed (single : Single x) (found : x.calls[index]? = some call)
    (ticks : call.ticking = true) : x.service.watchTimer = false := by
  rw [Bool.eq_false_iff]
  intro armed
  have settled := single.quiet armed call (List.mem_of_getElem? found)
  rw [ticks] at settled
  cases settled

theorem set (single : Single x) (found : x.calls[index]? = some call) {service : Service κ}
    {point : Option (Point κ)} {reply : Option (Reply κ)} (live : call.point.isSome = true)
    (settles : service.watchTimer = true → x.service.watchTimer = true ∨
      (call.caller = .watchTick ∧ point = none))
    (stops : call.caller = .stop → ∀ p ∈ point, p.steppingDown = true) :
    Single ⟨service,x.calls.set index ⟨call.caller,point,reply⟩⟩ := by
  have before : ∀ place : Nat, ∀ a ∈ (x.calls.set index ⟨call.caller,point,reply⟩)[place]?,
      a.ticking = true → ∃ b ∈ x.calls[place]?, b.ticking = true := by
    intro place a here ticks
    rcases set_cases found here with ⟨rfl,rfl⟩ | ⟨_,old⟩
    · refine ⟨call,found,?_⟩
      have caller := (Bool.and_eq_true_iff.mp ticks).1
      simpa [Suspension.ticking,live] using caller
    · exact ⟨a,old,ticks⟩
  refine ⟨?_,?_,?_⟩
  · intro i j a here b there first second
    obtain ⟨c,old,ticks⟩ := before i a here first
    obtain ⟨d,older,also⟩ := before j b there second
    exact single.alone i j c old d older ticks also
  · intro armed other member
    obtain ⟨place,here⟩ := List.getElem?_of_mem member
    rcases settles armed with was | ⟨caller,rfl⟩
    · rw [Bool.eq_false_iff]
      intro ticks
      obtain ⟨c,old,going⟩ := before place other here ticks
      have settled := single.quiet was c (List.mem_of_getElem? old)
      rw [going] at settled
      cases settled
    · rcases set_cases found here with ⟨_,rfl⟩ | ⟨apart,old⟩
      · exact Bool.and_false _
      · rw [Bool.eq_false_iff]
        intro ticks
        refine apart (single.alone place index other old call found ticks ?_)
        simp [Suspension.ticking,caller,live]
  · intro other member own p here
    rcases List.mem_or_eq_of_mem_set member with old | rfl
    · exact single.stops other old own p here
    · exact stops own p here

theorem serve (single : Single x) {service : Service κ} {reply : Option (Reply κ)}
    (found : x.calls[index]? = some call) (live : call.point.isSome = true)
    (same : service.watchTimer = x.service.watchTimer) :
    Single ⟨service,x.calls.set index ⟨call.caller,call.point,reply⟩⟩ := by
  apply single.set found live
  · intro armed
    exact .inl (same.symm.trans armed)
  · exact single.stops call (List.mem_of_getElem? found)

theorem begins (single : Single x) {caller : Caller} {next : Service κ × Option (Point κ)}
    (disarmed : next.1.watchTimer = false)
    (fires : caller = .watchTick → x.service.watchTimer = true)
    (stops : caller = .stop → ∀ p ∈ next.2, p.steppingDown = true) :
    Single (x.begins caller next) := by
  refine ⟨?_,?_,?_⟩
  · have last : ∀ place : Nat, ∀ a ∈ (x.begins caller next).calls[place]?, a.ticking = true →
        (caller = .watchTick ∧ place = x.calls.length) ∨
          (caller ≠ .watchTick ∧ x.calls[place]? = some a) := by
      intro place a here ticks
      rcases append_cases here with ⟨end_,rfl⟩ | old
      · have own : caller = .watchTick := of_decide_eq_true (Bool.and_eq_true_iff.mp ticks).1
        exact .inl ⟨own,end_⟩
      · refine .inr ⟨fun own => ?_,old⟩
        have settled := single.quiet (fires own) a (List.mem_of_getElem? old)
        rw [ticks] at settled
        cases settled
    intro i j a here b there first second
    rcases last i a here first with ⟨own,rfl⟩ | ⟨other,old⟩ <;>
      rcases last j b there second with ⟨also,rfl⟩ | ⟨differs,older⟩
    · rfl
    · exact absurd own differs
    · exact absurd also other
    · exact single.alone i j a old b older first second
  · intro armed
    have never : next.1.watchTimer = true := armed
    rw [disarmed] at never
    cases never
  · intro other member own p here
    rcases List.mem_append.mp member with old | new
    · exact single.stops other old own p here
    · obtain rfl := List.mem_singleton.mp new
      exact stops own p here

end Single

section Timer

attribute [local simp] goesOn Service.send Service.acquire Service.extend Service.promote
  Service.demote Service.release Service.scheduleWatch Service.onPromoted Service.onDemoted
  Service.clearTimers Service.stopped

variable (s : Service κ) (now : Int) (point : Point κ) (reply : Reply κ)

/-- A tick arms the timer only as it settles. -/
theorem resume_settles (armed : (resume .watchTick s now point reply).1.watchTimer = true) :
    s.watchTimer = true ∨ (resume .watchTick s now point reply).2 = none := by
  revert armed
  fun_cases resume .watchTick s now point reply <;> simp
  cases held : s.lock <;> simp

theorem resume_stop (steps : point.steppingDown = true) :
    (resume .stop s now point reply).1.watchTimer = s.watchTimer ∧
      ∀ p ∈ (resume .stop s now point reply).2, p.steppingDown = true := by
  cases point with
  | releasing | released | demoted => simp [resume,Point.steppingDown,Point.demoting]
  | _ => cases steps

theorem watchTick_disarmed : s.clearTimers.watchTick.1.watchTimer = false := by
  by_cases leads : s.state = .leader <;> cases held : s.lock <;>
    simp [Service.watchTick,leads,held]

theorem demote_steps : s.clearTimers.demote.1.watchTimer = false ∧
    s.clearTimers.demote.2.demoting = true := by
  cases held : s.lock <;> simp [held,Point.demoting]

end Timer

theorem single_step (turn : Turn κ) (single : Single x) : Single (x.step turn) := by
  have moves := x.step_moves turn
  generalize x.step turn = y at moves
  cases moves with
  | idle => exact single
  | fire armed =>
    apply single.begins
    · exact watchTick_disarmed x.service
    · exact fun _ => armed
    · intro own
      cases own
  | demote leads =>
    obtain ⟨disarmed,steps⟩ := demote_steps x.service
    apply single.begins
    · exact disarmed
    · intro own
      cases own
    · intro _ p here
      obtain rfl := Option.some.inj here
      revert steps
      generalize x.service.clearTimers.demote.2 = point
      cases point <;> simp [Point.demoting,Point.steppingDown]
  | stop follows =>
    apply single.begins
    · rfl
    · intro own
      cases own
    · intro _ p here
      cases here
  | serve index call command reply found waits =>
    obtain ⟨point,here,_⟩ := Suspension.pending_point waits
    apply single.serve found
    · rw [here]
      rfl
    · unfold Instance.notes
      split <;> rfl
  | resume index call point reply now found isReady =>
    have here := Suspension.ready_point isReady
    have live : call.point.isSome = true := by rw [here]; rfl
    cases caller : call.caller with
    | watchTick =>
      rw [← caller]
      apply single.set found live
      · intro armed
        rw [caller] at armed ⊢
        exact (resume_settles _ _ _ _ armed).imp_right fun settled => ⟨rfl,settled⟩
      · intro own
        rw [caller] at own
        cases own
    | stop =>
      obtain ⟨same,steps⟩ := resume_stop x.service now point reply
        (single.stops call (List.mem_of_getElem? found) caller point here)
      rw [← caller]
      apply single.set found live
      · intro armed
        rw [caller] at armed
        exact .inl (same.symm.trans armed)
      · intro _
        rw [caller]
        exact steps

theorem single_start : Single (Instance.start : Instance κ) where
  alone _ _ _ here := by cases here
  quiet _ _ member := by cases member
  stops _ member := by cases member

end Calls

end JobScheduler.LeaderElection
