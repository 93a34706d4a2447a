import JobScheduler.HandlerBudget

/-! Mutual exclusion and completion. At most one handler of a job is in flight, and
none starts after one has resolved, as long as no stale reset or expiry frees a
job that a live call still owns. The watchdog does not look whether it does. -/
namespace JobScheduler

namespace ExecutePhase

def isBusy (jobId : String) : ExecutePhase → Bool
  | .claimed job | .handling job => job.jobId = jobId
  | _ => false

def busy (jobId : String) : Stage jobId where
  test := isBusy jobId
  idle := rfl
  claimed job owned := by simpa [isBusy] using owned
  entered phase op reply owned := by
    unfold next at owned ⊢
    split at owned <;> first
      | exact .inl owned
      | exact .inr ⟨_,_,_,_,rfl,rfl,rfl⟩
      | cases owned

def hasResolved (jobId : String) : ExecutePhase → Bool
  | .resolved job | .recorded job | .relapsed job | .misreporting job => job.jobId = jobId
  | _ => false

/-- The handler of `jobId` has resolved and no call after it has failed. -/
def succeeding (jobId : String) : ExecutePhase → Bool
  | .resolved job | .recorded job => job.jobId = jobId
  | _ => false

end ExecutePhase

open ExecutePhase JobRepository

variable {jobId : String} {s t : SystemState} {label : SystemLabel} {labels : List SystemLabel}

/-- Handlers of `jobId` that were invoked and have not settled, in live processes. -/
def handlersInFlight (jobId : String) (s : SystemState) : Nat :=
  s.calls.countP fun call =>
    match call.program.head with
    | some (.handlerSettle job) => job.jobId = jobId
    | _ => false

/-- No stale reset and no expiry hits a job that a live call has claimed and whose
handler has not settled. -/
def Spares (s : SystemState) (label : SystemLabel) : Prop :=
  ∀ job ∈ s.world.jobs.docs, (resets job.jobId s label || expires job.jobId s label) = true →
    s.calls.countP (busy job.jobId).token.holder = 0

instance (s : SystemState) (label : SystemLabel) : Decidable (Spares s label) :=
  inferInstanceAs (Decidable (∀ job ∈ s.world.jobs.docs, _ → _))

theorem Spares.unowned (spares : Spares s label)
    (frees : (resets jobId s label || expires jobId s label) = true) :
    s.calls.countP (busy jobId).token.holder = 0 := by
  obtain ⟨job,member,rfl⟩ := freed_document frees
  exact spares job member frees

theorem handlersInFlight_le (followed : execution.Followed s) (jobId : String) :
    handlersInFlight jobId s ≤ s.calls.countP (busy jobId).token.holder := by
  apply List.countP_mono_left
  intro call member inFlight
  split at inFlight
  · rename_i job head
    obtain ⟨index,found⟩ := List.getElem?_of_mem member
    cases shape : call.program with
    | settled result => simp [shape,Program.head] at head
    | await op rest =>
      simp only [shape,Program.head,Option.some.injEq] at head
      subst head
      have phase := allowed_handlerSettle (followed.allowed found shape)
      rw [holder_awaiting shape,phase]
      simpa [busy,isBusy] using inFlight
  · cases inFlight

theorem one_token_step (spares : Spares s label) (one : (busy jobId).token.count s ≤ 1) :
    (busy jobId).token.count (System.machine.step s label) ≤ 1 := by
  have moved := (busy jobId).token.count_step s label
  cases issues : (busy jobId).token.issued s (System.machine.step s label) with
  | false =>
    simp only [issues,Bool.toNat_false] at moved
    omega
  | true =>
    have unowned := spares.unowned (Bool.or_eq_true_iff.mpr (issued_by _ s label issues))
    have owned : (busy jobId).token.free s.world = false := by
      simpa using (Bool.and_eq_true_iff.mp issues).1
    simp only [Token.count,owned,unowned,issues,Bool.toNat_false,Bool.toNat_true] at moved ⊢
    omega

/-- Mutual exclusion of the handlers of a job. -/
theorem at_most_one_handler (world : World) (labels : List SystemLabel)
    (spared : System.machine.Along Spares (initial world) labels) (t : SystemState)
    (reached : System.machine.Reached (initial world) labels t) (jobId : String) :
    handlersInFlight jobId t ≤ 1 := by
  have invariant : execution.Followed t ∧ (busy jobId).token.count t ≤ 1 := by
    refine Machine.invariant_reached (fun s => execution.Followed s ∧
      (busy jobId).token.count s ≤ 1) ?_ spared ⟨execution.followed_initial world,?_⟩ reached
    · rintro s label spares ⟨followed,one⟩
      exact ⟨execution_followed s label followed,one_token_step spares one⟩
    · exact (busy jobId).token.count_initial world
  have bound := handlersInFlight_le invariant.1 jobId
  have one := invariant.2
  simp only [Token.count] at one
  omega

/-- A handler runs for more than five minutes, the watchdog resets its job, and the
same request enqueued again is claimed by a second instance. -/
def overlap : List SystemLabel :=
  [.submit (.enqueue reportRequest)] ++ drive 0 3 0 ++ [.submit (.tick "a" 0)] ++ drive 1 9 0 ++
  drive 2 9 0 ++ [.submit .watchdogTick] ++ drive 3 2 400000 ++
  [.submit (.enqueue reportRequest)] ++ drive 4 3 400000 ++ [.submit (.tick "b" 0)] ++
  drive 5 9 400000 ++ drive 6 9 400000

theorem two_handlers_in_flight :
    ¬ ∀ labels t jobId, System.machine.Reached (initial World.empty) labels t →
      handlersInFlight jobId t ≤ 1 := by
  intro exclusive
  have one := exclusive overlap _ reportId ⟨overlap,List.prefix_rfl,rfl⟩
  exact absurd one (by decide +kernel)

/-- Without the reset the second delivery loses its claim. -/
theorem at_most_one_handler_redelivered :
    let labels := [.submit (.enqueue reportRequest)] ++ drive 0 3 0 ++ [.submit (.tick "a" 0)] ++
      drive 1 9 0 ++ drive 2 9 0 ++ [.submit (.enqueue reportRequest)] ++ drive 3 3 400000 ++
      [.submit (.tick "b" 0)] ++ drive 4 9 400000 ++ drive 5 9 400000
    handlersInFlight reportId (System.machine.run (initial World.empty) labels) ≤ 1 :=
  at_most_one_handler World.empty _ (by decide +kernel) _ ⟨_,List.prefix_rfl,rfl⟩ reportId

/-- The step lets a handler of `jobId` resolve. -/
def resolvesHandler (jobId : String) (s : SystemState) : SystemLabel → Bool
  | .resume index ω =>
    match s.awaits index with
    | some (.handlerSettle job) => job.jobId = jobId && ω.handler = none
    | _ => false
  | _ => false

/-- Once a handler of the job has resolved in a call whose later calls all succeed,
no handler of the job is invoked again, unless its document expires. -/
def StaysFinished (world : World) (labels : List SystemLabel) : Prop :=
  ∀ first index ω rest jobId, labels = first ++ .resume index ω :: rest →
    let resolving := System.machine.run (initial world) first
    let resolved := System.machine.step resolving (.resume index ω)
    resolvesHandler jobId resolving (.resume index ω) = true →
    (System.machine.run (initial world) labels).calls[index]?.any
      (fun call => succeeding jobId (execution.phase call)) = true →
    System.machine.Along (fun s label => expires jobId s label = false) resolved rest →
    System.machine.countAlong (startsHandler jobId) resolved rest = 0

/-- Besides, no stale reset hits a job whose handler has already resolved. -/
def SparesFinished (s : SystemState) (label : SystemLabel) : Prop :=
  Spares s label ∧ ∀ job ∈ s.world.jobs.docs, resets job.jobId s label = true →
    ∀ call ∈ s.calls, hasResolved job.jobId (execution.phase call) = false

instance (s : SystemState) (label : SystemLabel) : Decidable (SparesFinished s label) :=
  inferInstanceAs (Decidable (_ ∧ ∀ job ∈ s.world.jobs.docs, _ → ∀ call ∈ s.calls, _))

theorem hasResolved_next (phase : ExecutePhase) (op : Op) (reply : Except Thrown op.Reply)
    (resolved : hasResolved jobId phase = true) : hasResolved jobId (next phase op reply) = true := by
  unfold next
  split <;> first | exact resolved | cases resolved

/-- The job has been finished: nobody owns its document and it is not free. -/
structure Finished (jobId : String) (s : SystemState) : Prop where
  followed : execution.Followed s
  spent : (busy jobId).token.count s = 0
  resolved : ∃ (index : Nat) (call : SystemCall), s.calls[index]? = some call ∧
    hasResolved jobId (execution.phase call) = true

theorem finished_step (spares : SparesFinished s label) (kept : expires jobId s label = false)
    (finished : Finished jobId s) : Finished jobId (System.machine.step s label) := by
  obtain ⟨index,call,found,resolved⟩ := finished.resolved
  have moves := System.machine.step_moves s label
  refine ⟨execution_followed s label finished.followed,?_,index,?_⟩
  · have moved := (busy jobId).token.count_step s label
    have issued : (busy jobId).token.issued s (System.machine.step s label) = false := by
      cases issues : (busy jobId).token.issued s (System.machine.step s label) with
      | false => rfl
      | true =>
        rcases issued_by _ s label issues with reset | expired
        · obtain ⟨job,member,rfl⟩ := freed_document (Bool.or_eq_true_iff.mpr (.inl reset))
          have unresolved := spares.2 job member reset call (List.mem_of_getElem? found)
          rw [resolved] at unresolved
          cases unresolved
        · rw [kept] at expired
          cases expired
    have spent := finished.spent
    simp only [issued,Bool.toNat_false] at moved
    omega
  · exact Protocol.phase_persists (P := execution) (fun phase => hasResolved jobId phase = true)
      (fun phase op reply => hasResolved_next phase op reply) moves found resolved

theorem finished_starts_none (finished : Finished jobId s) : startsHandler jobId s label = false := by
  cases starting : startsHandler jobId s label with
  | false => rfl
  | true =>
    obtain ⟨index,ω,call,job,rest,_,found,awaits,same⟩ := startsHandler_awaits starting
    have phase := allowed_handlerStart (finished.followed.allowed found awaits)
    have owning : (busy jobId).token.holder call = true := by
      rw [holder_awaiting awaits,phase]
      simpa [busy,isBusy] using same
    have counted : 0 < s.calls.countP (busy jobId).token.holder :=
      List.countP_pos_iff.mpr ⟨call,List.mem_of_getElem? found,owning⟩
    have spent := finished.spent
    simp only [Token.count] at spent
    omega

theorem finished_run (spared : System.machine.Along SparesFinished s labels)
    (kept : System.machine.Along (fun s label => expires jobId s label = false) s labels)
    (finished : Finished jobId s) : System.machine.countAlong (startsHandler jobId) s labels = 0 := by
  induction labels generalizing s with
  | nil => rfl
  | cons label labels ih =>
    have rest := ih spared.2 kept.2 (finished_step spared.1 kept.1 finished)
    simp [Machine.countAlong,finished_starts_none finished,rest]

theorem finished_resolving {index : Nat} {ω : Oracle} (followed : execution.Followed s)
    (one : (busy jobId).token.count s ≤ 1)
    (resolves : resolvesHandler jobId s (.resume index ω) = true) :
    Finished jobId (System.machine.step s (.resume index ω)) := by
  simp only [resolvesHandler] at resolves
  split at resolves
  · rename_i job awaiting
    obtain ⟨same,settles⟩ : job.jobId = jobId ∧ ω.handler = none := by simpa using resolves
    obtain ⟨call,rest,found,awaits⟩ := State.awaits_eq_some.mp awaiting
    have phase := allowed_handlerSettle (followed.allowed found awaits)
    have moved : System.machine.step s (.resume index ω) =
        System.machine.answered s index call (.handlerSettle job) rest ω := by
      simp [Machine.step,found,awaits]
    have reply : (perform (.handlerSettle job) ω s.world).1 = .ok () := by simp [perform,settles]
    have after : next (execution.phase call) (.handlerSettle job)
        (perform (.handlerSettle job) ω s.world).1 = .resolved job := by rw [phase,reply]; rfl
    refine ⟨execution_followed s _ followed,?_,index,?_⟩
    · have owning : (busy jobId).token.holder call = true := by
        rw [holder_awaiting awaits,phase]
        simpa [busy,isBusy] using same
      have given : (busy jobId).token.holder (call.advance (.handlerSettle job) rest
          (perform (.handlerSettle job) ω s.world).1) = false := by
        simp only [Stage.token,execution_advance,after]
        exact Bool.and_false _
      have spent := (busy jobId).token.count_spent ω found awaits owning given
      have issued : (busy jobId).token.issued s (System.machine.answered s index call
          (.handlerSettle job) rest ω) = false := by
        simp [Token.issued,Stage.token,Machine.answered,perform,settles]
      rw [moved]
      simp only [issued,Bool.toNat_false] at spent
      omega
    · have inside := (List.getElem?_eq_some_iff.mp found).1
      rw [moved]
      refine ⟨_,by simp [Machine.answered,List.getElem?_append_left,inside]; rfl,?_⟩
      change hasResolved jobId (next (execution.phase call) (.handlerSettle job)
        (perform (.handlerSettle job) ω s.world).1) = true
      rw [after]
      simp [hasResolved,same]
  · cases resolves

/-- A finished job is never handled again. -/
theorem stays_finished (world : World) (labels : List SystemLabel)
    (spared : System.machine.Along SparesFinished (initial world) labels) :
    StaysFinished world labels := by
  intro first index ω rest jobId split
  dsimp only
  intro resolves _ kept
  subst split
  obtain ⟨before,_,after⟩ := Machine.along_append.mp spared
  have invariant : execution.Followed (System.machine.run (initial world) first) ∧
      (busy jobId).token.count (System.machine.run (initial world) first) ≤ 1 := by
    refine Machine.invariant_run (fun s => execution.Followed s ∧
      (busy jobId).token.count s ≤ 1) ?_ before ⟨execution.followed_initial world,?_⟩
    · rintro s label spares ⟨followed,one⟩
      exact ⟨execution_followed s label followed,one_token_step spares.1 one⟩
    · exact (busy jobId).token.count_initial world
  exact finished_run after kept (finished_resolving invariant.1 invariant.2 resolves)

def untilResolved : List SystemLabel :=
  [.submit (.enqueue reportRequest)] ++ drive 0 3 0 ++ [.submit (.tick "a" 0)] ++ drive 1 9 0 ++
  drive 2 9 0

/-- All bookkeeping succeeds, but the document is still running: the watchdog resets
it, and the same request enqueued again is handled a second time. -/
def afterResolved : List SystemLabel :=
  drive 2 7 0 ++ [.submit .watchdogTick] ++ drive 3 2 400000 ++
  [.submit (.enqueue reportRequest)] ++ drive 4 3 400000 ++ [.submit (.tick "b" 0)] ++
  drive 5 9 400000 ++ drive 6 9 400000

theorem handled_again : ¬ ∀ labels, StaysFinished World.empty labels := by
  intro finished
  have none := finished (untilResolved ++ .resume 2 (calm 0) :: afterResolved) untilResolved 2
    (calm 0) afterResolved reportId rfl (by decide +kernel) (by decide +kernel) (by decide +kernel)
  exact absurd none (by decide +kernel)

/-- A second enqueue alone does not run the report again. -/
theorem stays_finished_redelivered :
    StaysFinished World.empty (untilResolved ++ drive 2 8 0 ++
      [.submit (.enqueue reportRequest)] ++ drive 3 3 400000 ++ [.submit (.tick "b" 0)] ++
      drive 4 9 400000 ++ drive 5 9 400000) :=
  stays_finished World.empty _ (by decide +kernel)

end JobScheduler
