import JobScheduler.DocumentHistory
import JobScheduler.Vocabulary

/-! Exclusive delivery. A dequeue reads the due ids of its queue and removes them in a
second round trip. The ids are its own when nothing takes one of them out of the queue,
or moves it past the time of the dequeue, between the two. -/
namespace JobScheduler

/-- A call of a method of `RedisJobQueue`, with whatever arguments its caller has. -/
inductive QueueCall where
  | enqueue (jobType : JobType) (jobId : String) (nextRunAtMs : Int)
  | dequeue (jobType : JobType) (nowMs : Int) (count : Nat)
  | remove (jobType : JobType) (jobId : String)
  | reschedule (jobType : JobType) (jobId : String) (nextRunAtMs : Int)

namespace RedisJobQueue

def program : QueueCall → Async Unit
  | .enqueue jobType jobId nextRunAtMs => do let _ ← enqueue jobType jobId nextRunAtMs; pure ()
  | .dequeue jobType nowMs count => do let _ ← dequeue jobType nowMs count; pure ()
  | .remove jobType jobId => do let _ ← remove jobType jobId; pure ()
  | .reschedule jobType jobId nextRunAtMs => do
    let _ ← reschedule jobType jobId nextRunAtMs
    pure ()

def machine : Machine signature Thrown World Oracle QueueCall StoreEvent :=
  service program fun _ => []

end RedisJobQueue

abbrev QueueState := State signature Thrown World QueueCall
abbrev QueueLabel := Label Oracle QueueCall StoreEvent

/-- How far a dequeue has come; the other calls stay `elsewhere`. -/
inductive PopPhase where
  | elsewhere
  | asking (jobType : JobType) (nowMs : Int)
  | holding (jobType : JobType) (nowMs : Int) (jobIds : List String)
  | returned (jobIds : List String)
  | failed

namespace PopPhase

def allowed : PopPhase → Op → Prop
  | .elsewhere, _ => True
  | .asking jobType nowMs, .zrangebyscore key _ high _ _ => key = queueKeyMap jobType ∧ high = nowMs
  | .holding jobType _ jobIds, .zrem key members => key = queueKeyMap jobType ∧ members = jobIds
  | _, _ => False

def next : PopPhase → (op : Op) → Except Thrown op.Reply → PopPhase
  | .asking jobType nowMs, .zrangebyscore _ _ _ _ _, .ok results =>
    match results.getD [] with
    | [] => .returned []
    | jobIds => .holding jobType nowMs jobIds
  | .asking _ _, _, .error _ => .failed
  | .holding _ _ jobIds, .zrem _ _, .ok _ => .returned jobIds
  | .holding _ _ _, _, .error _ => .failed
  | phase, _, _ => phase

def monitor : Program.Monitor signature Thrown PopPhase where
  allowed := allowed
  answers _ _ _ := True
  next := next

@[simp] theorem monitor_allowed : monitor.allowed = allowed := rfl
@[simp] theorem monitor_answers : monitor.answers = fun _ _ _ => True := rfl
@[simp] theorem monitor_next : monitor.next = next := rfl

/-- The phases of a dequeue with these arguments. -/
def within (jobType : JobType) (nowMs : Int) : PopPhase → Prop
  | .elsewhere => False
  | .asking own now | .holding own now _ => own = jobType ∧ now = nowMs
  | .returned _ | .failed => True

theorem within_next {jobType : JobType} {nowMs : Int} {phase : PopPhase}
    (inside : phase.within jobType nowMs) (op : Op) (reply : Except Thrown op.Reply) :
    (next phase op reply).within jobType nowMs := by
  unfold next
  split
  · split
    · trivial
    · exact inside
  · trivial
  · trivial
  · trivial
  · exact inside

theorem next_elsewhere (op : Op) (reply : Except Thrown op.Reply) :
    next .elsewhere op reply = .elsewhere := by
  unfold next
  split <;> first | rfl | contradiction

theorem dequeue_returns (jobType : JobType) (nowMs : Int) (count : Nat) :
    Program.wp monitor (fun phase result => ∀ jobIds, result = .ok jobIds → phase = .returned jobIds)
      (RedisJobQueue.dequeue jobType nowMs count) (.asking jobType nowMs) := by
  simp only [RedisJobQueue.dequeue,Program.wp_bind]
  simp only [await,Program.perform,Program.wp_await,Program.forall_except,Program.wp_settled,
    Program.thenPost_ok,Program.thenPost_error]
  refine ⟨⟨rfl,rfl⟩,?_,fun results _ => ?_⟩
  · intro e _ jobIds returned
    cases returned
  cases read : results.getD [] with
  | nil => simp [next,read]
  | cons first jobIds =>
    simp only [List.length_cons,Nat.add_eq_zero_iff,Nat.one_ne_zero,and_false,if_false]
    simp [next,read,allowed,Program.forall_except]

theorem meets_elsewhere {program : Async α} (ops : Op → Bool) (within : Within ops program) :
    Program.wp monitor (fun _ _ => True) program .elsewhere :=
  Program.Uses.wp within (fun _ _ => trivial) (fun op reply _ => next_elsewhere op reply)
    fun _ => trivial

def start : QueueCall → PopPhase
  | .dequeue jobType nowMs _ => .asking jobType nowMs
  | _ => .elsewhere

theorem meets_program (request : QueueCall) :
    Program.wp monitor (fun _ _ => True) (RedisJobQueue.program request) (start request) := by
  cases request with
  | dequeue jobType nowMs count =>
    refine (Program.wp_bind ..).mpr (Program.wp_mono (dequeue_returns jobType nowMs count) ?_)
    rintro phase (e | jobIds) _ <;> trivial
  | _ =>
    refine meets_elsewhere (fun _ => true) (Within.bind (Within.bind (Within.await rfl) ?_) ?_)
    all_goals exact fun _ => Within.pure _

end PopPhase

def popping : Protocol RedisJobQueue.machine PopPhase where
  monitor := PopPhase.monitor
  start := PopPhase.start
  post _ _ := True
  meets := PopPhase.meets_program

theorem popping_step (s : QueueState) (label : QueueLabel) (followed : popping.Followed s) :
    popping.Followed (RedisJobQueue.machine.step s label) := by
  refine Protocol.followed_moves (RedisJobQueue.machine.step_moves s label) ?_ followed
  cases label <;> simp [Protocol.Answers,popping]

def due (nowMs : Int) (jobId : String) (queue : SortedSet String) : Bool :=
  (queue.score? jobId).any (· ≤ nowMs)

/-- The operation takes the id out of the queue, or moves it past this time. -/
def Op.displaces (op : Op) (key jobId : String) (nowMs : Int) : Bool :=
  match op with
  | .zrem other members => other = key && jobId ∈ members
  | .zaddXX other score member => other = key && member = jobId && nowMs < score
  | _ => false

/-- The operation displaces an id that this call has read and not yet removed. -/
def Op.robs (op : Op) (call : Call signature Thrown QueueCall) : Bool :=
  call.inProgress &&
    match popping.phase call with
    | .holding jobType nowMs jobIds =>
      jobIds.any fun jobId => op.displaces (queueKeyMap jobType) jobId nowMs
    | _ => false

/-- A call's write takes effect on an id that another call, a dequeue between its two
round trips, is about to return. -/
def intrudes (s : QueueState) : QueueLabel → Bool
  | .resume index ω => ω.delivery.applies && (s.awaits index).any fun op =>
      (s.calls.eraseIdx index).any op.robs
  | _ => false

/-- What a dequeue returns in this step, with its queue and its time. -/
def returned (s : QueueState) : QueueLabel → Option (JobType × Int × List String)
  | .resume index ω =>
    if ω.delivery.answers then
      s.calls[index]?.bind fun call =>
        match call.request, call.program.head with
        | .dequeue jobType nowMs _, some (.zrem _ jobIds) => some (jobType,nowMs,jobIds)
        | _, _ => none
    else none
  | _ => none

def returnsId (jobType : JobType) (jobId : String) (s : QueueState) (label : QueueLabel) : Bool :=
  (returned s label).any fun result => result.1 = jobType && jobId ∈ result.2.2

def isQueued (jobType : JobType) (jobId : String) (w : World) : Bool :=
  jobId ∈ (w.sortedSets (queueKeyMap jobType)).members

def adds (jobType : JobType) (jobId : String) (s : QueueState) : QueueLabel → Bool
  | .resume index ω =>
    match s.awaits index with
    | some (.zaddNX key _ member) => ω.delivery.applies && key = queueKeyMap jobType &&
        member = jobId && !isQueued jobType jobId s.world
    | _ => false
  | _ => false

theorem due_members {nowMs : Int} {jobId : String} {queue : SortedSet String}
    (isDue : due nowMs jobId queue = true) : jobId ∈ queue.members := by
  obtain ⟨score,stored,_⟩ := (Option.any_eq_true ..).mp isDue
  exact SortedSet.mem_members_iff.mpr ⟨score,stored⟩

/-- Only a displacing operation makes a due id cease to be due. -/
theorem requeue_due {op : Op} {ω : Oracle} {key jobId : String} {nowMs : Int}
    {queue : SortedSet String} (isDue : due nowMs jobId queue = true)
    (spared : ω.delivery.applies = true → op.displaces key jobId nowMs = false) :
    due nowMs jobId (op.requeue ω key queue) = true := by
  have member := due_members isDue
  cases op with
  | zaddNX other score added =>
    simp only [Op.requeue]
    split
    · have unchanged : ¬(jobId = added ∧ added ∉ queue.members) := by
        rintro ⟨rfl,absent⟩
        exact absent member
      rw [due,SortedSet.score?_zaddNX,if_neg unchanged]
      exact isDue
    · exact isDue
  | zaddXX other score updated =>
    simp only [Op.requeue]
    split
    · rename_i hits
      obtain ⟨applies,rfl⟩ : ω.delivery.applies = true ∧ other = key := by simpa using hits
      rw [due,SortedSet.score?_zaddXX]
      split
      · rename_i same
        have kept := spared applies
        simp only [Op.displaces,same.1,decide_true,Bool.true_and,decide_eq_false_iff_not] at kept
        simpa using kept
      · exact isDue
    · exact isDue
  | zrem other removed =>
    simp only [Op.requeue]
    split
    · rename_i hits
      obtain ⟨applies,rfl⟩ : ω.delivery.applies = true ∧ other = key := by simpa using hits
      have kept := spared applies
      simp only [Op.displaces,decide_true,Bool.true_and,decide_eq_false_iff_not] at kept
      rw [due,SortedSet.score?_zrem,if_neg kept]
      exact isDue
    · exact isDue
  | _ => exact isDue

def Call.HoldsDue (w : World) (call : Call signature Thrown QueueCall) : Prop :=
  ∀ jobType nowMs jobIds, call.inProgress = true → popping.phase call = .holding jobType nowMs jobIds →
    ∀ jobId ∈ jobIds, due nowMs jobId (w.sortedSets (queueKeyMap jobType)) = true

structure Undisturbed (s : QueueState) : Prop where
  followed : popping.Followed s
  held : ∀ call ∈ s.calls, call.HoldsDue s.world

section Step

variable {s : QueueState} {index : Nat} {ω : Oracle} {call : Call signature Thrown QueueCall}
variable {op : Op} {rest : Except Thrown op.Reply → Async Unit}

theorem read_due {phase : PopPhase} {w : World} {jobType : JobType} {nowMs : Int}
    {jobIds : List String} (may : phase.allowed op)
    (holds : phase.next op (perform op ω w).1 = .holding jobType nowMs jobIds) :
    ∀ jobId ∈ jobIds,
      due nowMs jobId ((perform op ω w).2.sortedSets (queueKeyMap jobType)) = true := by
  intro jobId listed
  rw [perform_sortedSets]
  cases phase with
  | elsewhere => rw [PopPhase.next_elsewhere] at holds; cases holds
  | returned | failed => cases may
  | holding own now ids =>
    cases op with
    | zrem key members =>
      cases reply : (perform (.zrem key members) ω w).1 <;> rw [reply] at holds <;> cases holds
    | _ => cases may
  | asking own now =>
    cases op with
    | zrangebyscore key low high offset count =>
      obtain ⟨rfl,rfl⟩ := may
      simp only [perform] at holds
      split at holds
      · simp only [PopPhase.next,Option.getD_some] at holds
        split at holds
        · cases holds
        · obtain ⟨rfl,rfl,rfl⟩ := PopPhase.holding.inj holds
          obtain ⟨score,stored,_,early⟩ := SortedSet.mem_zrangebyscore listed
          simp only [Op.requeue,due,stored]
          exact decide_eq_true early
      · cases holds
      · cases holds
    | _ => cases may

/-- The other calls keep what they hold unless the operation robs one of them. -/
theorem spared_keeps {other : Call signature Thrown QueueCall} {w : World}
    (spared : ω.delivery.applies = true → op.robs other = false) (held : other.HoldsDue w) :
    other.HoldsDue (perform op ω w).2 := by
  intro jobType nowMs jobIds live holds jobId listed
  rw [perform_sortedSets]
  apply requeue_due (held jobType nowMs jobIds live holds jobId listed)
  intro applies
  have kept := spared applies
  simp only [Op.robs,live,holds,Bool.true_and,List.any_eq_false,Bool.not_eq_true] at kept
  exact kept jobId listed

theorem held_answered (undisturbed : Undisturbed s) (found : s.calls[index]? = some call)
    (awaits : call.program = .await op rest) (alone : intrudes s (.resume index ω) = false) :
    ∀ other ∈ (RedisJobQueue.machine.answered s index call op rest ω).calls,
      other.HoldsDue (perform op ω s.world).2 := by
  have may : (popping.phase call).allowed op := undisturbed.followed.allowed found awaits
  have awaiting : s.awaits index = some op := State.awaits_eq_some.mpr ⟨call,rest,found,awaits⟩
  have spared : ∀ other ∈ s.calls.eraseIdx index, ω.delivery.applies = true →
      op.robs other = false := by
    intro other member applies
    simp only [intrudes,applies,awaiting,Bool.true_and,Option.any_some,List.any_eq_false,
      Bool.not_eq_true] at alone
    exact alone other member
  intro other member
  rcases List.mem_append.mp member with placed | started
  · obtain ⟨position,there⟩ := List.getElem?_of_mem placed
    by_cases own : position = index
    · subst own
      have inside := (List.getElem?_eq_some_iff.mp found).1
      rw [List.getElem?_set_self inside] at there
      obtain rfl := Option.some.inj there
      intro jobType nowMs jobIds _ holds
      exact read_due may holds
    · rw [List.getElem?_set_ne (Ne.symm own)] at there
      have elsewhere : other ∈ s.calls.eraseIdx index :=
        List.mem_eraseIdx_iff_getElem?.mpr ⟨position,own,there⟩
      exact spared_keeps (spared other elsewhere)
        (undisturbed.held other (List.mem_of_getElem? there))
  · cases started

end Step

variable {s : QueueState} {label : QueueLabel} {labels : List QueueLabel}
variable {jobType : JobType} {jobId : String}

theorem undisturbed_step (s : QueueState) (label : QueueLabel) (alone : intrudes s label = false)
    (undisturbed : Undisturbed s) : Undisturbed (RedisJobQueue.machine.step s label) where
  followed := popping_step s label undisturbed.followed
  held := by
    have moves := RedisJobQueue.machine.step_moves s label
    generalize RedisJobQueue.machine.step s label = t at moves
    cases moves with
    | submit request =>
      intro call member
      rcases List.mem_append.mp member with old | new
      · exact undisturbed.held call old
      · obtain rfl := List.mem_singleton.mp new
        intro jobType nowMs jobIds _ holds
        cases request <;> cases holds
    | idle | absent => exact undisturbed.held
    | answer index ω call op rest found awaits => exact held_answered undisturbed found awaits alone
    | crash index call found =>
      intro other member
      rcases List.mem_or_eq_of_mem_set member with kept | rfl
      · exact undisturbed.held other kept
      · intro _ _ _ live
        cases live
    | environment event => cases event <;> exact undisturbed.held

theorem dequeue_within {call : Call signature Thrown QueueCall} {nowMs : Int} {count : Nat}
    (is : call.request = .dequeue jobType nowMs count) :
    (popping.phase call).within jobType nowMs := by
  have every : ∀ history,
      (PopPhase.monitor.phase (.asking jobType nowMs) history).within jobType nowMs := by
    intro history
    induction history with
    | nil => exact ⟨rfl,rfl⟩
    | cons exchange history ih => exact PopPhase.within_next ih exchange.op exchange.reply
  have begins : popping.phase call = PopPhase.monitor.phase (.asking jobType nowMs) call.history := by
    simp only [Protocol.phase,popping,is]
    rfl
  rw [begins]
  exact every call.history

theorem returned_call {nowMs : Int} {jobIds : List String} (followed : popping.Followed s)
    (returns : returned s label = some (jobType,nowMs,jobIds)) :
    ∃ index ω call rest, label = .resume index ω ∧ ω.delivery.answers = true ∧
      s.calls[index]? = some call ∧
      call.program = .await (.zrem (queueKeyMap jobType) jobIds) rest ∧
      popping.phase call = .holding jobType nowMs jobIds := by
  unfold returned at returns
  split at returns
  · rename_i index ω
    split at returns
    · rename_i answers
      obtain ⟨call,found,shape⟩ := Option.bind_eq_some_iff.mp returns
      split at shape
      · rename_i own now count key members request head
        obtain ⟨rfl,rfl,rfl⟩ : own = jobType ∧ now = nowMs ∧ members = jobIds := by
          simpa using Option.some.inj shape
        obtain ⟨rest,awaits⟩ := Program.head_eq_some.mp head
        have may := followed.allowed found awaits
        have inside := dequeue_within request
        change (popping.phase call).allowed (.zrem key members) at may
        cases phase : popping.phase call with
        | holding owner time ids =>
          rw [phase] at may inside
          obtain ⟨rfl,rfl⟩ := inside
          obtain ⟨rfl,rfl⟩ := may
          exact ⟨index,ω,call,rest,rfl,answers,found,awaits,phase⟩
        | elsewhere => rw [phase] at inside; exact inside.elim
        | _ => rw [phase] at may; exact may.elim
      · cases shape
    · cases returns
  · cases returns

theorem returned_pops {nowMs : Int} {jobIds : List String} (undisturbed : Undisturbed s)
    (returns : returned s label = some (jobType,nowMs,jobIds)) (listed : jobId ∈ jobIds) :
    due nowMs jobId (s.world.sortedSets (queueKeyMap jobType)) = true ∧
      isQueued jobType jobId (RedisJobQueue.machine.step s label).world = false := by
  obtain ⟨index,ω,call,rest,rfl,answers,found,awaits,phase⟩ :=
    returned_call undisturbed.followed returns
  have live : call.inProgress = true := by simp [Call.inProgress,awaits,Program.head]
  have applies : ω.delivery.applies = true := by
    revert answers
    cases ω.delivery <;> simp [Delivery.answers,Delivery.applies]
  refine ⟨undisturbed.held call (List.mem_of_getElem? found) jobType nowMs jobIds live phase
    jobId listed,?_⟩
  have moved : RedisJobQueue.machine.step s (.resume index ω) =
      RedisJobQueue.machine.answered s index call (.zrem (queueKeyMap jobType) jobIds) rest ω := by
    simp [Machine.step,found,awaits]
  rw [moved]
  change isQueued jobType jobId (perform (.zrem (queueKeyMap jobType) jobIds) ω s.world).2 = false
  simp [isQueued,perform_sortedSets,Op.requeue,applies,SortedSet.mem_members_zrem,listed]

theorem queued_step (after : isQueued jobType jobId (RedisJobQueue.machine.step s label).world = true) :
    isQueued jobType jobId s.world = true ∨ adds jobType jobId s label = true := by
  by_cases before : isQueued jobType jobId s.world = true
  · exact .inl before
  right
  have moves := RedisJobQueue.machine.step_moves s label
  generalize RedisJobQueue.machine.step s label = t at moves after
  cases moves with
  | submit | idle | absent | crash => exact absurd after before
  | environment event => cases event <;> exact absurd after before
  | answer index ω call op rest found awaits =>
    change isQueued jobType jobId (perform op ω s.world).2 = true at after
    have awaiting : s.awaits index = some op := State.awaits_eq_some.mpr ⟨call,rest,found,awaits⟩
    simp only [isQueued,decide_eq_true_eq] at before after
    rw [perform_sortedSets] at after
    rcases requeue_members after with present | ⟨score,rfl⟩
    · exact absurd present before
    · have applies : ω.delivery.applies = true := by
        by_contra lost
        simp [Op.requeue,lost] at after
        exact before after
      simp [adds,awaiting,applies,isQueued,before]

/-- What exclusive delivery says about a run. -/
structure Exclusive (s : QueueState) (labels : List QueueLabel) : Prop where
  popped : RedisJobQueue.machine.Along (fun s label => ∀ jobType nowMs jobIds,
    returned s label = some (jobType,nowMs,jobIds) → ∀ jobId ∈ jobIds,
      due nowMs jobId (s.world.sortedSets (queueKeyMap jobType)) = true ∧
        isQueued jobType jobId (RedisJobQueue.machine.step s label).world = false) s labels
  once : ∀ first second, first ++ second <+: labels → ∀ jobType jobId,
    RedisJobQueue.machine.countAlong (returnsId jobType jobId) (RedisJobQueue.machine.run s first)
        second ≤
      (isQueued jobType jobId (RedisJobQueue.machine.run s first).world).toNat +
        RedisJobQueue.machine.countAlong (adds jobType jobId) (RedisJobQueue.machine.run s first)
          second

variable (jobType jobId label) in
/-- Each return uses up one enqueue. -/
theorem returns_step (undisturbed : Undisturbed s) :
    (returnsId jobType jobId s label).toNat +
        (isQueued jobType jobId (RedisJobQueue.machine.step s label).world).toNat ≤
      (isQueued jobType jobId s.world).toNat + (adds jobType jobId s label).toNat := by
  cases returning : returnsId jobType jobId s label with
  | true =>
    obtain ⟨⟨own,nowMs,jobIds⟩,returns,hit⟩ := (Option.any_eq_true ..).mp returning
    obtain ⟨rfl,listed⟩ : own = jobType ∧ jobId ∈ jobIds := by simpa using hit
    obtain ⟨isDue,after⟩ := returned_pops undisturbed returns listed
    have before : isQueued own jobId s.world = true := decide_eq_true (due_members isDue)
    simp [before,after]
  | false =>
    cases after : isQueued jobType jobId (RedisJobQueue.machine.step s label).world with
    | false => simp
    | true => rcases queued_step after with before | added <;> simp [*]

variable (jobType jobId) in
theorem returns_run (undisturbed : Undisturbed s)
    (alone : RedisJobQueue.machine.Along (fun s label => intrudes s label = false) s labels) :
    RedisJobQueue.machine.countAlong (returnsId jobType jobId) s labels +
        (isQueued jobType jobId (RedisJobQueue.machine.run s labels).world).toNat ≤
      (isQueued jobType jobId s.world).toNat +
        RedisJobQueue.machine.countAlong (adds jobType jobId) s labels :=
  Machine.countAlong_potential Undisturbed undisturbed_step
    (fun s => (isQueued jobType jobId s.world).toNat)
    (fun _ label _ => returns_step label jobType jobId) alone undisturbed

theorem popped_run (undisturbed : Undisturbed s)
    (alone : RedisJobQueue.machine.Along (fun s label => intrudes s label = false) s labels) :
    RedisJobQueue.machine.Along (fun s label => ∀ jobType nowMs jobIds,
      returned s label = some (jobType,nowMs,jobIds) → ∀ jobId ∈ jobIds,
        due nowMs jobId (s.world.sortedSets (queueKeyMap jobType)) = true ∧
          isQueued jobType jobId (RedisJobQueue.machine.step s label).world = false) s labels := by
  refine Machine.along_invariant Undisturbed undisturbed_step ?_ alone undisturbed
  intro s label _ undisturbed jobType nowMs jobIds returns jobId listed
  exact returned_pops undisturbed returns listed

/-- As long as no call displaces an id that a dequeue is about to return, every id is
returned by the dequeue that removed it while due, and at most once for each enqueue. -/
theorem exclusive_delivery (world : World) (labels : List QueueLabel)
    (alone : RedisJobQueue.machine.Along (fun s label => intrudes s label = false) ⟨world,[]⟩ labels) :
    Exclusive ⟨world,[]⟩ labels := by
  have start : Undisturbed ⟨world,[]⟩ := ⟨popping.followed_nil world,fun _ member => by cases member⟩
  refine ⟨popped_run start alone,?_⟩
  rintro first second ⟨third,rfl⟩ jobType jobId
  obtain ⟨before,here⟩ := Machine.along_append.mp (Machine.along_append.mp alone).1
  have reached := Machine.invariant_run Undisturbed undisturbed_step before start
  have counted := returns_run jobType jobId reached here
  omega

/-- A report is dequeued, enqueued again and dequeued again. -/
theorem exclusive_delivery_report : Exclusive ⟨World.empty,[]⟩
    (alone 0 1 (.enqueue .scheduledReport reportId 0) ++
      alone 1 2 (.dequeue .scheduledReport 0 10) ++
      alone 2 1 (.enqueue .scheduledReport reportId 0) ++
      alone 3 2 (.dequeue .scheduledReport 0 10)) :=
  exclusive_delivery World.empty _ (by decide +kernel)

/-- Two dequeues read the same report, and both return it. -/
theorem returned_twice : ¬ ∀ world labels, Exclusive ⟨world,[]⟩ labels := by
  intro exclusive
  have delivery := exclusive World.empty (alone 0 1 (.enqueue .scheduledReport reportId 0) ++
    alone 1 1 (.dequeue .scheduledReport 0 10) ++
    alone 2 2 (.dequeue .scheduledReport 0 10) ++ [.resume 1 (calm 0)])
  have once := delivery.once [] _ List.prefix_rfl .scheduledReport reportId
  exact absurd once (by decide +kernel)

end JobScheduler
