import JobScheduler.ElectionStop
import JobScheduler.OutboxPoller
import JobScheduler.PollStop

/-! Which of the four timer loops outlive the errors of their ticks. The ticks of the poll
loop, the watchdog and the outbox poller catch what they await. A `watchTick` does not: it ends
without a timer when its heartbeat cannot be read or written. -/
namespace JobScheduler

/-- Reading the own clock is not awaited. -/
def Op.readsClock : Op → Bool
  | .dateNow => true
  | _ => false

def HeartbeatWatchdog.loop : TimerLoop signature Thrown World Oracle Unit Empty where
  perform := perform
  immediate := Op.readsClock
  effect _ _ := ()
  tick _ := HeartbeatWatchdog.tick
  event := nofun

/-- The body of the poller's callback. -/
def OutboxPoller.tick : Async Unit :=
  try OutboxPoller.flush
  catch _ => pure ()

def OutboxPoller.loop : TimerLoop signature Thrown World Oracle Unit Empty where
  perform := perform
  immediate := Op.readsClock
  effect _ _ := ()
  tick _ := OutboxPoller.tick
  event := nofun

namespace Rejection

/-- Whatever is awaited may reject; the own clock and the start of a dispatch do not. -/
def monitor : Program.Monitor signature Thrown Unit where
  allowed _ _ := True
  answers _ op reply := op = .dateNow → ∃ value, reply = .ok value
  next _ _ _ := ()

theorem perform_answers (op : Op) (ω : Oracle) (w : World) :
    monitor.answers () op (perform op ω w).1 := by
  rintro rfl
  exact ⟨_,rfl⟩

abbrev Never (program : Async α) : Prop :=
  Program.wp monitor (fun _ result => ∃ value, result = .ok value) program ()

theorem any (program : Async α) : Program.wp monitor (fun _ _ => True) program () := by
  induction program with
  | settled result => trivial
  | await op resume ih => exact ⟨trivial,fun reply _ => ih reply⟩

theorem caught (program : Async α) {handler : Thrown → Async α}
    (never : ∀ e, Never (handler e)) : Never (tryCatch program handler) := by
  refine (Program.wp_tryCatch ..).mpr (Program.wp_mono (any program) ?_)
  rintro _ (e | value) _
  · exact never e
  · exact ⟨value,rfl⟩

theorem sequence {program : Async α} {next : α → Async β} (first : Never program)
    (rest : ∀ value, Never (next value)) : Never (program >>= next) := by
  refine (Program.wp_bind ..).mpr (Program.wp_mono first ?_)
  rintro _ _ ⟨value,rfl⟩
  exact rest value

theorem value (value : α) : Never (pure value : Async α) := ⟨value,rfl⟩

theorem clock : Never dateNow := ⟨trivial,fun _ answered => answered rfl⟩

theorem pollQueues (instanceId : String) (nowMs : Int) (jobTypes : List JobType)
    (remainingSlots : Nat) :
    Never (PollLoop.pollQueues instanceId nowMs jobTypes remainingSlots) := by
  induction jobTypes generalizing remainingSlots with
  | nil => exact value ()
  | cons jobType rest ih =>
    unfold PollLoop.pollQueues
    split
    · exact value ()
    · exact sequence (caught _ fun _ => value 0) fun taken => ih _

theorem pollTick (instanceId : String) (activeJobs : Nat) :
    Never (PollLoop.tick instanceId activeJobs) := by
  unfold PollLoop.tick
  dsimp only
  split
  · exact value ()
  · refine sequence (caught _ fun _ => value none) fun nowMs => ?_
    cases nowMs with
    | none => exact value ()
    | some nowMs => exact sequence clock fun _ => pollQueues ..

theorem rearms_along {Fields Event : Type} {loop : TimerLoop signature Thrown World Oracle Fields Event}
    (performs : loop.perform = perform) (never : ∀ fields, Never (loop.tick fields))
    (world : World) (fields : Fields) (turns : List (TimerLoop.Turn World Oracle Event)) :
    loop.transition.Along loop.Rearms (TimerLoop.initial world fields) turns := by
  have free : loop.transition.Along (fun _ _ => True) (TimerLoop.initial world fields) turns :=
    Transition.along_forall fun _ _ => trivial
  refine Transition.along_invariant
    (TimerLoop.Kept monitor (fun _ result => result = .ok ()) fun _ => True) ?_ ?_ free
    (TimerLoop.kept_initial world trivial)
  · intro s turn _ kept
    apply TimerLoop.kept_step _ _ (fun _ _ _ _ _ => trivial) (fun _ _ _ => trivial) s turn kept
    · intro fields
      refine ⟨(),Program.wp_mono (never fields) ?_⟩
      rintro _ _ ⟨value,rfl⟩
      rfl
    · intro _ op ω w _
      rw [performs]
      exact perform_answers op ω w
  · intro s turn _ kept
    exact kept.rearms turn

end Rejection

namespace LeaderElection

/-- Where a tick may be in the state of a candidate. -/
def Point.competes : Point κ → Bool
  | .acquiring | .acquired _ => true
  | _ => false

/-- The heartbeat is not read or not written, and nothing catches that. -/
def Point.rejectedBy : Point κ → Reply κ → Bool
  | .readingHeartbeat, .heartbeat _ | .announcing _, .done | .renewing _, .done => false
  | .readingHeartbeat, _ | .announcing _, _ | .renewing _, _ => true
  | _, _ => false

/-- No heartbeat read or write of a tick fails, and no `stop` of a leader comes during one. -/
def Instance.spared (x : Instance κ) : Turn κ → Bool
  | .stop => !(x.service.state = .leader && x.calls.any Suspension.ticking)
  | .resume index _ =>
    (x.calls[index]?.bind Suspension.ready).all fun awaited => !awaited.1.rejectedBy awaited.2
  | _ => true

def Instance.endsTick (x : Instance κ) : Turn κ → Bool
  | .resume index now => x.calls[index]?.any Suspension.ticking &&
    !(x.step (.resume index now)).calls[index]?.any Suspension.ticking
  | _ => false

/-- A tick that ends leaves the timer armed, unless `stop` has been called, and the state goes
with the last callback. -/
def Outlives (x : Instance κ) (turn : Turn κ) : Prop :=
  x.endsTick turn = true →
    ((x.step turn).stopCalled = true ∨ (x.step turn).service.watchTimer = true) ∧
      ((x.step turn).service.state = .leader ↔ up (x.step turn).service.acts = true) ∧
      (x.step turn).service.state ≠ .candidate

instance Outlives.decidable (x : Instance κ) (turn : Turn κ) : Decidable (Outlives x turn) :=
  inferInstanceAs (Decidable (_ → _))

/-- What a step of a tick leaves behind when its heartbeat comes through. -/
structure Advanced (next : Service κ × Option (Point κ)) : Prop where
  fits : ∀ point ∈ next.2, point.fits next.1.state (up next.1.acts)
  competes : ∀ point ∈ next.2, next.1.state = .candidate → point.competes = true
  rearms : next.2 = none → next.1.watchTimer = true
  rests : next.1.watchTimer = true →
    (next.1.state = .leader ↔ up next.1.acts = true) ∧ next.1.state ≠ .candidate

section Resume

attribute [local simp] goesOn Service.send Service.acquire Service.extend Service.promote
  Service.scheduleWatch Service.onPromoted Service.onDemoted Point.command Point.fits Point.competes
  Point.rejectedBy

variable {s : Service κ}

/-- A candidate asks for the lock or has its answer, and a tick that ends arms the timer. -/
theorem resume_decides (now : Int) {point : Point κ} {reply : Reply κ}
    (disarmed : s.watchTimer = false) (through : point.rejectedBy reply = false)
    (competes : s.state = .candidate → point.competes = true) :
    (∀ next ∈ (resume .watchTick s now point reply).2,
        (resume .watchTick s now point reply).1.state = .candidate → next.competes = true) ∧
      ((resume .watchTick s now point reply).2 = none →
        (resume .watchTick s now point reply).1.watchTimer = true) ∧
      ((resume .watchTick s now point reply).1.watchTimer = true →
        (resume .watchTick s now point reply).1.state ≠ .candidate) := by
  generalize caller : Caller.watchTick = own
  fun_cases resume own s now point reply <;> simp_all [Service.demote,Service.release]
  cases s.lock <;> simp_all

theorem resume_advanced (now : Int) {point : Point κ} {reply : Reply κ}
    (disarmed : s.watchTimer = false) (through : point.rejectedBy reply = false)
    (fits : point.fits s.state (up s.acts)) (competes : s.state = .candidate → point.competes = true) :
    Advanced (resume .watchTick s now point reply) := by
  obtain ⟨next,last⟩ := resume_fits now reply disarmed fits
  obtain ⟨candidate,rearms,decided⟩ := resume_decides now disarmed through competes
  exact ⟨next,candidate,rearms,fun armed => ⟨last armed,decided armed⟩⟩

theorem watchTick_advanced (rests : s.state = .leader ↔ up s.acts = true)
    (decided : s.state ≠ .candidate) : Advanced (goesOn s.clearTimers.watchTick) := by
  by_cases leads : s.state = .leader
  · have leading := rests.mp leads
    cases held : s.lock <;> constructor <;>
      simp [Service.clearTimers,Service.watchTick,leads,held,leading]
  · have quiet : up s.acts = false := Bool.eq_false_iff.mpr fun leading => leads (rests.mpr leading)
    constructor <;> simp [Service.clearTimers,Service.watchTick,leads,decided,quiet]

end Resume

/-- The state goes with the tick in progress, or with the last callback while the timer is
armed. No `stop` is in progress. -/
structure Matched (x : Instance κ) : Prop where
  fits : ∀ call ∈ x.calls, call.ticking = true → ∀ point ∈ call.point,
    point.fits x.service.state (up x.service.acts) ∧
      (x.service.state = .candidate → point.competes = true)
  rests : x.service.watchTimer = true →
    (x.service.state = .leader ↔ up x.service.acts = true) ∧ x.service.state ≠ .candidate
  stops : ∀ call ∈ x.calls, call.caller = .stop → call.point = none

structure Ended (x : Instance κ) : Prop where
  disarmed : x.service.watchTimer = false
  settled : ∀ call ∈ x.calls, call.ticking = false

structure Tended (x : Instance κ) : Prop where
  single : Single x
  stage : Matched x ∨ Ended x

section Stages

variable {x : Instance κ} {index : Nat} {call : Suspension κ}

theorem Suspension.ticking_of_point {point : Point κ} (here : call.point = some point)
    (caller : call.caller = .watchTick) : call.ticking = true := by
  simp [ticking,here,caller]

namespace Matched

theorem caller (matched : Matched x) (found : x.calls[index]? = some call) {point : Point κ}
    (here : call.point = some point) : call.caller = .watchTick := by
  cases caller : call.caller with
  | watchTick => rfl
  | stop =>
    rw [matched.stops call (List.mem_of_getElem? found) caller] at here
    cases here

theorem set (matched : Matched x) (single : Single x) (found : x.calls[index]? = some call)
    (ticks : call.ticking = true) {next : Service κ × Option (Point κ)} {reply : Option (Reply κ)}
    (advanced : Advanced next) : Matched ⟨next.1,x.calls.set index ⟨.watchTick,next.2,reply⟩⟩ := by
  refine ⟨?_,advanced.rests,?_⟩
  · intro other member going point here
    obtain ⟨place,there⟩ := List.getElem?_of_mem member
    rcases set_cases found there with ⟨_,rfl⟩ | ⟨apart,old⟩
    · exact ⟨advanced.fits point here,advanced.competes point here⟩
    · exact absurd (single.alone place index other old call found going ticks) apart
  · intro other member own
    rcases List.mem_or_eq_of_mem_set member with old | rfl
    · exact matched.stops other old own
    · cases own

theorem fire (matched : Matched x) (single : Single x) (armed : x.service.watchTimer = true) :
    Matched (x.begins .watchTick (goesOn x.service.clearTimers.watchTick)) := by
  obtain ⟨rests,decided⟩ := matched.rests armed
  have advanced := watchTick_advanced rests decided
  refine ⟨?_,advanced.rests,?_⟩
  · intro other member going point here
    rcases List.mem_append.mp member with old | new
    · have settled := single.quiet armed other old
      rw [going] at settled
      cases settled
    · obtain rfl := List.mem_singleton.mp new
      exact ⟨advanced.fits point here,advanced.competes point here⟩
  · intro other member own
    rcases List.mem_append.mp member with old | new
    · exact matched.stops other old own
    · obtain rfl := List.mem_singleton.mp new
      cases own

theorem stop (matched : Matched x) :
    Matched (x.begins .stop (x.service.clearTimers.stopped,none)) := by
  refine ⟨?_,nofun,?_⟩
  · intro other member going point here
    rcases List.mem_append.mp member with old | new
    · exact matched.fits other old going point here
    · obtain rfl := List.mem_singleton.mp new
      cases here
  · intro other member own
    rcases List.mem_append.mp member with old | new
    · exact matched.stops other old own
    · obtain rfl := List.mem_singleton.mp new
      rfl

theorem serve {command : Command κ} (matched : Matched x) (reply : Reply κ)
    (found : x.calls[index]? = some call) :
    Matched ⟨x.notes command reply,x.calls.set index { call with reply := some reply }⟩ := by
  obtain ⟨acts,noted,same⟩ : ∃ acts, x.notes command reply = { x.service with acts := acts } ∧
      up acts = up x.service.acts := by
    unfold Instance.notes
    split
    · exact ⟨_,rfl,rfl⟩
    · exact ⟨_,rfl,rfl⟩
  rw [noted]
  refine ⟨?_,?_,?_⟩
  · intro other member going point here
    rw [same]
    rcases List.mem_or_eq_of_mem_set member with old | rfl
    · exact matched.fits other old going point here
    · exact matched.fits call (List.mem_of_getElem? found) going point here
  · rw [same]
    exact matched.rests
  · intro other member own
    rcases List.mem_or_eq_of_mem_set member with old | rfl
    · exact matched.stops other old own
    · exact matched.stops call (List.mem_of_getElem? found) own

theorem advances {point : Point κ} {reply : Reply κ} (matched : Matched x) (single : Single x)
    (now : Int) (found : x.calls[index]? = some call) (isReady : call.ready = some (point,reply))
    (through : point.rejectedBy reply = false) : call.caller = .watchTick ∧ call.ticking = true ∧
      Advanced (resume .watchTick x.service now point reply) := by
  have here := Suspension.ready_point isReady
  have caller := matched.caller found here
  have ticks := Suspension.ticking_of_point here caller
  obtain ⟨fits,competes⟩ := matched.fits call (List.mem_of_getElem? found) ticks point here
  exact ⟨caller,ticks,resume_advanced now (single.disarmed found ticks) through fits competes⟩

end Matched

namespace Ended

theorem stop (settled : ∀ call ∈ x.calls, call.ticking = false)
    {next : Service κ × Option (Point κ)} (disarmed : next.1.watchTimer = false) :
    Ended (x.begins .stop next) := by
  refine ⟨disarmed,fun other member => ?_⟩
  rcases List.mem_append.mp member with old | new
  · exact settled other old
  · obtain rfl := List.mem_singleton.mp new
    rfl

theorem set (ended : Ended x) (found : x.calls[index]? = some call) {service : Service κ}
    {moved : Suspension κ} (disarmed : service.watchTimer = false)
    (same : moved.ticking = true → call.ticking = true) :
    Ended ⟨service,x.calls.set index moved⟩ := by
  refine ⟨disarmed,fun other member => ?_⟩
  rcases List.mem_or_eq_of_mem_set member with old | rfl
  · exact ended.settled other old
  · rw [Bool.eq_false_iff]
    intro ticks
    have settled := ended.settled call (List.mem_of_getElem? found)
    rw [same ticks] at settled
    cases settled

theorem resume {point : Point κ} {reply : Reply κ} (ended : Ended x) (single : Single x) (now : Int)
    (found : x.calls[index]? = some call) (isReady : call.ready = some (point,reply)) :
    Ended ⟨(LeaderElection.resume call.caller x.service now point reply).1,x.calls.set index
      ⟨call.caller,(LeaderElection.resume call.caller x.service now point reply).2,none⟩⟩ := by
  have here := Suspension.ready_point isReady
  have member := List.mem_of_getElem? found
  have own : call.caller = .stop := by
    cases caller : call.caller with
    | stop => rfl
    | watchTick =>
      have ticks := Suspension.ticking_of_point here caller
      rw [ended.settled call member] at ticks
      cases ticks
  have steps := single.stops call member own point here
  apply ended.set found
  · rw [own]
    cases point with
    | releasing | released | demoted => exact ended.disarmed
    | _ => cases steps
  · rw [own]
    exact nofun

end Ended

theorem tended_step (x : Instance κ) (turn : Turn κ) (spared : x.spared turn = true)
    (tended : Tended x) : Tended (x.step turn) := by
  refine ⟨single_step turn tended.single,?_⟩
  obtain ⟨single,stage⟩ := tended
  have moves := x.step_moves turn
  generalize x.step turn = y at moves
  cases moves with
  | idle => exact stage
  | fire armed =>
    rcases stage with matched | ended
    · exact .inl (matched.fire single armed)
    · rw [ended.disarmed] at armed
      cases armed
  | demote leads =>
    have quiet : ∀ call ∈ x.calls, call.ticking = false := by
      simpa [Instance.spared,leads] using spared
    exact .inr (Ended.stop quiet (demote_steps x.service).1)
  | stop follows =>
    rcases stage with matched | ended
    · exact .inl matched.stop
    · exact .inr (Ended.stop ended.settled rfl)
  | serve index call command reply found waits =>
    rcases stage with matched | ended
    · exact .inl (matched.serve reply found)
    · refine .inr (ended.set found ?_ id)
      unfold Instance.notes
      split <;> exact ended.disarmed
  | resume index call point reply now found isReady =>
    rcases stage with matched | ended
    · have through : point.rejectedBy reply = false := by
        simpa [Instance.spared,found,isReady] using spared
      obtain ⟨caller,ticks,advanced⟩ := matched.advances single now found isReady through
      rw [caller]
      exact .inl (matched.set single found ticks advanced)
    · exact .inr (ended.resume single now found isReady)

theorem tended_outlives (x : Instance κ) (turn : Turn κ) (spared : x.spared turn = true)
    (tended : Tended x) : Outlives x turn := by
  intro ends
  cases turn with
  | resume index now =>
    obtain ⟨began,gone⟩ := Bool.and_eq_true_iff.mp ends
    obtain ⟨call,found,ticks⟩ := (Option.any_eq_true ..).mp began
    rcases tended.stage with matched | ended
    · cases isReady : call.ready with
      | none => simp [Instance.step,found,isReady,ticks] at gone
      | some awaited =>
        obtain ⟨point,reply⟩ := awaited
        have through : point.rejectedBy reply = false := by
          simpa [Instance.spared,found,isReady] using spared
        obtain ⟨caller,_,advanced⟩ := matched.advances tended.single now found isReady through
        have moved : x.step (.resume index now) =
            ⟨(resume .watchTick x.service now point reply).1,x.calls.set index
              ⟨.watchTick,(resume .watchTick x.service now point reply).2,none⟩⟩ := by
          simp only [Instance.step,found,isReady,caller]
        rw [moved] at gone ⊢
        rw [List.getElem?_set_self (List.getElem?_eq_some_iff.mp found).1] at gone
        have settled : (resume .watchTick x.service now point reply).2 = none := by
          simpa [Suspension.ticking] using gone
        have armed := advanced.rearms settled
        exact ⟨.inr armed,advanced.rests armed⟩
    · rw [ended.settled call (List.mem_of_getElem? found)] at ticks
      cases ticks
  | _ => cases ends

theorem tended_start : Tended (Instance.start : Instance κ) where
  single := single_start
  stage := .inl ⟨nofun,fun _ => ⟨by simp [Instance.start,Service.scheduleWatch,up],nofun⟩,nofun⟩

theorem outlives_along {turns : List (Turn κ)}
    (spared : Instance.election.Along (fun x turn => x.spared turn = true) Instance.start turns) :
    Instance.election.Along Outlives (Instance.start : Instance κ) turns :=
  Transition.along_invariant Tended tended_step tended_outlives spared tended_start

end Stages

end LeaderElection

open LeaderElection

/-- The four periodic loops survive errors. -/
theorem loops_survive {κ : Type} (instanceId : String) (world : World) (polls : List PollTurn)
    (watches flushes : List (TimerLoop.Turn World Oracle Empty)) {elections : List (LeaderElection.Turn κ)}
    (spared : Instance.election.Along (fun x turn => x.spared turn = true) Instance.start elections) :
    (PollLoop.loop instanceId).transition.Along (PollLoop.loop instanceId).Rearms
        (PollLoop.start world) polls ∧
      HeartbeatWatchdog.loop.transition.Along HeartbeatWatchdog.loop.Rearms
        (TimerLoop.initial world ()) watches ∧
      OutboxPoller.loop.transition.Along OutboxPoller.loop.Rearms
        (TimerLoop.initial world ()) flushes ∧
      Instance.election.Along Outlives (Instance.start : Instance κ) elections := by
  refine ⟨?_,?_,?_,outlives_along spared⟩
  · exact Rejection.rearms_along rfl (fun fields => Rejection.pollTick instanceId fields.activeJobs)
      world _ polls
  · exact Rejection.rearms_along rfl (fun _ => Rejection.caught _ fun _ => Rejection.value ())
      world _ watches
  · exact Rejection.rearms_along rfl (fun _ => Rejection.caught _ fun _ => Rejection.value ())
      world _ flushes

def interrupted : List (TimerLoop.Turn World Oracle Empty) :=
  [.start,.fire 0 (calm 0),.serve 0 unreachable,.resume 0 (calm 0),.resume 0 (calm 0)]

def promoted : List (LeaderElection.Turn Nat) :=
  [.fire,.serve 0 (.heartbeat .absent),.resume 0 0,.resume 0 0,.serve 0 (.lock 7),.resume 0 0,
    .resume 0 0,.serve 0 .done,.resume 0 0,.resume 0 0,.resume 0 0]

theorem loops_survive_promoted :
    (PollLoop.loop "a").transition.Along (PollLoop.loop "a").Rearms (PollLoop.start dueWorld)
        (firstTick ++ [.serve 0 unreachable,.resume 0 (calm 0),.resume 0 (calm 0)]) ∧
      HeartbeatWatchdog.loop.transition.Along HeartbeatWatchdog.loop.Rearms
        (TimerLoop.initial dueWorld ()) interrupted ∧
      OutboxPoller.loop.transition.Along OutboxPoller.loop.Rearms
        (TimerLoop.initial dueWorld ()) interrupted ∧
      Instance.election.Along Outlives Instance.start promoted :=
  loops_survive "a" dueWorld _ interrupted interrupted (by decide +kernel)

/-- A heartbeat that cannot be read ends the election of the instance. -/
theorem unread_heartbeat_ends : ¬ ∀ elections : List (LeaderElection.Turn Nat),
    Instance.election.Along Outlives Instance.start elections := by
  intro survives
  have ended := survives [.fire,.serve 0 .failed,.resume 0 0]
  exact absurd ended (by decide +kernel)

end JobScheduler
