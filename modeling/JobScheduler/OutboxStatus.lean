import JobScheduler.DeadLettering

/-! The status of outbox events. A flush updates by id alone, from the copies that it
read before: a completion of a dead event, and a failure of an event that another flush
has completed or has counted further, undo what is stored. -/
namespace JobScheduler

/-- A settled event keeps its status, and failures are only counted up. -/
structure Onward (before after : IOutboxEvent) : Prop where
  settled : before.status ≠ .pending → after.status = before.status
  counted : before.retryCount ≤ after.retryCount

/-- No event is lost, and each moves onward. An event is known by its place. -/
def OutboxOnward (before after : World) : Prop :=
  ∀ place : Nat, ∀ e ∈ before.outbox[place]?, ∃ later ∈ after.outbox[place]?, Onward e later

theorem Onward.refl (e : IOutboxEvent) : Onward e e := ⟨fun _ => rfl,Nat.le_refl _⟩

theorem Onward.trans {first second third : IOutboxEvent} (before : Onward first second)
    (after : Onward second third) : Onward first third where
  settled done := by
    have kept := before.settled done
    rw [← kept] at done ⊢
    exact after.settled done
  counted := before.counted.trans after.counted

theorem OutboxOnward.refl (w : World) : OutboxOnward w w := fun _ e here => ⟨e,here,.refl e⟩

theorem OutboxOnward.trans {first second third : World} (before : OutboxOnward first second)
    (after : OutboxOnward second third) : OutboxOnward first third := by
  intro place e here
  obtain ⟨later,there,onward⟩ := before place e here
  obtain ⟨last,found,further⟩ := after place later there
  exact ⟨last,found,onward.trans further⟩

namespace Flushing

def allowed : List IOutboxEvent → Op → Prop
  | batch, .findOutbox _ _ => batch = []
  | batch, .completeOutbox id _ => ∃ copy ∈ batch.head?, id = copy.id
  | batch, .retryOutbox id status retryCount _ => ∃ copy ∈ batch.head?, id = copy.id ∧
      retryCount = copy.retryCount + 1 ∧
      status = if OutboxPoller.maxRetryCount ≤ retryCount then .dead else .pending
  | _, _ => True

def next : List IOutboxEvent → (op : Op) → Except Thrown op.Reply → List IOutboxEvent
  | _, .findOutbox _ _, .ok events => events
  | batch, .completeOutbox _ _, .ok _ => batch.tail
  | batch, .retryOutbox _ _ _ _, .ok _ => batch.tail
  | batch, _, _ => batch

def monitor : Program.Monitor signature Thrown (List IOutboxEvent) where
  allowed := allowed
  answers _ _ _ := True
  next := next

@[simp] theorem monitor_allowed : monitor.allowed = allowed := rfl
@[simp] theorem monitor_answers : monitor.answers = fun _ _ _ => True := rfl
@[simp] theorem monitor_next : monitor.next = next := rfl

abbrev Meets (batch : List IOutboxEvent) (program : Async α) : Prop :=
  Program.wp monitor (fun _ _ => True) program batch

section Flush

attribute [local simp] allowed next Program.forall_except Program.perform await dateNow
  publishToExchange

theorem meets_flushEvents (batch : List IOutboxEvent) :
    Meets batch (OutboxPoller.flushEvents batch) := by
  induction batch with
  | nil => trivial
  | cons event events ih =>
    have rest := ih
    simp [OutboxPoller.flushEvents,OutboxPoller.flushEvent,rest]

theorem meets_flush : Meets [] OutboxPoller.flush := by
  have flushed := meets_flushEvents
  simpa [OutboxPoller.flush] using flushed

end Flush

def handlesOutbox : Op → Bool
  | .findOutbox _ _ | .completeOutbox _ _ | .retryOutbox _ _ _ _ => true
  | _ => false

theorem meets_within {ops : Op → Bool} {program : Async α} (within : Within ops program)
    (free : ∀ op, ops op = true → handlesOutbox op = false) : Meets [] program := by
  apply Program.Uses.wp within
  · intro op listed
    have outside := free op listed
    cases op <;> trivial
  · intro op reply listed
    have outside := free op listed
    cases op <;> first | rfl | cases outside
  · exact fun _ => trivial

theorem handles_flush {request : Request} {op : Op} (listed : request.ops op = true)
    (other : request ≠ .flush) : handlesOutbox op = false := by
  cases request with
  | flush => exact absurd rfl other
  | _ => cases op <;> first | rfl | cases listed

theorem meets_program (request : Request) : Meets [] (System.program request) := by
  by_cases flushes : request = .flush
  · subst flushes
    exact meets_flush
  · exact meets_within (Within.program request) fun _ listed => handles_flush listed flushes

end Flushing

/-- The batch of copies that each flush still has to handle. -/
def flushing : Protocol System.machine (List IOutboxEvent) where
  monitor := Flushing.monitor
  start _ := []
  post _ _ := True
  meets := Flushing.meets_program

theorem flushing_step (s : SystemState) (label : SystemLabel) (followed : flushing.Followed s) :
    flushing.Followed (System.machine.step s label) := by
  refine Protocol.followed_moves (System.machine.step_moves s label) ?_ followed
  cases label <;> simp [Protocol.Answers,flushing]

/-- Completing this event would revive a dead one. -/
def revives (copy e : IOutboxEvent) : Bool := e.id = copy.id && e.status = .dead

/-- Counting a failure on this event would reopen it or turn its count back. -/
def reopens (copy e : IOutboxEvent) : Bool :=
  e.id = copy.id && (e.status = .completed || copy.retryCount + 1 < e.retryCount)

/-- The operation, with this copy as its ground, would undo what is stored. -/
def Op.undoes (op : Op) (copy e : IOutboxEvent) : Bool :=
  match op with
  | .completeOutbox _ _ => revives copy e
  | .retryOutbox _ _ _ _ => reopens copy e
  | _ => false

/-- An update of a flush takes effect on an event that has moved on since it was read. -/
def overwrites (s : SystemState) : SystemLabel → Bool
  | .resume index ω =>
    ω.delivery.applies && s.calls[index]?.any fun call =>
      call.program.head.any fun op =>
        (flushing.phase call).head?.any fun copy => s.world.outbox.any (op.undoes copy)
  | _ => false

variable {s : SystemState} {label : SystemLabel} {labels : List SystemLabel}

/-- An event is dead only after its last try. -/
def Exhausted (w : World) : Prop :=
  ∀ e ∈ w.outbox, e.status = .dead → OutboxPoller.maxRetryCount ≤ e.retryCount

theorem outbox_place (op : Op) (ω : Oracle) (w : World) {place : Nat} {e : IOutboxEvent}
    (here : w.outbox[place]? = some e) :
    (perform op ω w).2.outbox[place]? = some (op.marks ω e) := by
  obtain ⟨inside,rfl⟩ := List.getElem?_eq_some_iff.mp here
  rw [perform_outbox,List.getElem?_append_left (by simpa using inside)]
  simp [inside]

theorem complete_onward (e : IOutboxEvent) (processedAt : Int) :
    Onward e { e with status := .completed, processedAt := some processedAt } ↔
      e.status ≠ .dead := by
  constructor
  · intro onward dead
    have kept := onward.settled (by rw [dead]; decide)
    rw [dead] at kept
    cases kept
  · refine fun alive => ⟨fun settled => ?_,Nat.le_refl _⟩
    cases status : e.status with
    | pending => exact absurd status settled
    | completed => rfl
    | dead => exact absurd status alive

/-- A counted failure moves an event onward if it is not completed and not counted further. -/
theorem retry_onward {e : IOutboxEvent} (tries : Nat) (lastError : Text)
    (exhausted : e.status = .dead → OutboxPoller.maxRetryCount ≤ e.retryCount) :
    Onward e { e with
        status := if OutboxPoller.maxRetryCount ≤ tries then .dead else .pending
        retryCount := tries
        lastError := some lastError } ↔
      e.status ≠ .completed ∧ e.retryCount ≤ tries := by
  constructor
  · rintro ⟨settled,counted⟩
    refine ⟨fun completed => ?_,counted⟩
    have kept := settled (by rw [completed]; decide)
    rw [completed] at kept
    dsimp only at kept
    split at kept <;> cases kept
  · rintro ⟨unfinished,behind⟩
    refine ⟨fun settled => ?_,behind⟩
    cases status : e.status with
    | pending => exact absurd status settled
    | completed => exact absurd status unfinished
    | dead =>
      have tried := exhausted status
      exact if_pos (tried.trans behind)

/-- What an update of a flush makes of the stored event, judged by the copy it holds. -/
theorem marks_onward {batch : List IOutboxEvent} {op : Op} {ω : Oracle} {e : IOutboxEvent}
    (may : Flushing.allowed batch op)
    (exhausted : e.status = .dead → OutboxPoller.maxRetryCount ≤ e.retryCount) :
    Onward e (op.marks ω e) ↔
      ¬ (ω.delivery.applies = true ∧ ∃ copy ∈ batch.head?, op.undoes copy e = true) := by
  cases op with
  | completeOutbox id processedAt =>
    obtain ⟨copy,head,rfl⟩ := may
    simp only [Option.mem_def] at head
    simp only [head,Op.marks,Op.undoes,revives,Option.mem_def,Option.some.injEq,exists_eq_left',
      Bool.and_eq_true,decide_eq_true_eq]
    split
    · rename_i hits
      rw [complete_onward]
      exact ⟨fun alive stale => alive stale.2.2,fun spared dead => spared ⟨hits.1,hits.2,dead⟩⟩
    · rename_i misses
      exact ⟨fun _ stale => misses ⟨stale.1,stale.2.1⟩,fun _ => .refl e⟩
  | retryOutbox id status retryCount lastError =>
    obtain ⟨copy,head,rfl,rfl,rfl⟩ := may
    simp only [Option.mem_def] at head
    simp only [head,Op.marks,Op.undoes,reopens,Option.mem_def,Option.some.injEq,exists_eq_left',
      Bool.and_eq_true,Bool.or_eq_true,decide_eq_true_eq]
    split
    · rename_i hits
      rw [retry_onward _ _ exhausted]
      constructor
      · rintro ⟨unfinished,behind⟩ ⟨_,_,completed | ahead⟩
        · exact unfinished completed
        · omega
      · intro spared
        refine ⟨fun completed => spared ⟨hits.1,hits.2,.inl completed⟩,?_⟩
        by_contra ahead
        exact spared ⟨hits.1,hits.2,.inr (by omega)⟩
    · rename_i misses
      exact ⟨fun _ stale => misses ⟨stale.1,stale.2.1⟩,fun _ => .refl e⟩
  | _ =>
    refine ⟨fun _ stale => ?_,fun _ => .refl e⟩
    obtain ⟨_,_,_,impossible⟩ := stale
    cases impossible

theorem answered_onward {index : Nat} {ω : Oracle} {call : SystemCall} {op : Op}
    {rest : Except Thrown op.Reply → Async Unit} (followed : flushing.Followed s)
    (exhausted : Exhausted s.world) (found : s.calls[index]? = some call)
    (awaits : call.program = .await op rest) :
    OutboxOnward s.world (perform op ω s.world).2 ↔ overwrites s (.resume index ω) = false := by
  have may : Flushing.allowed (flushing.phase call) op := followed.allowed found awaits
  have each : OutboxOnward s.world (perform op ω s.world).2 ↔
      ∀ e ∈ s.world.outbox, Onward e (op.marks ω e) := by
    constructor
    · intro onward e member
      obtain ⟨place,here⟩ := List.getElem?_of_mem member
      obtain ⟨later,there,moved⟩ := onward place e here
      obtain rfl := Option.some.inj ((outbox_place op ω s.world here).symm.trans there)
      exact moved
    · intro onward place e here
      exact ⟨_,outbox_place op ω s.world here,onward e (List.mem_of_getElem? here)⟩
  have stale : overwrites s (.resume index ω) = true ↔ ∃ e ∈ s.world.outbox,
      ω.delivery.applies = true ∧
        ∃ copy ∈ (flushing.phase call).head?, op.undoes copy e = true := by
    simp only [overwrites,found,Option.any_some,awaits,Program.head,Bool.and_eq_true,
      Option.any_eq_true,List.any_eq_true,Option.mem_def]
    constructor
    · rintro ⟨applies,copy,head,e,member,hit⟩
      exact ⟨e,member,applies,copy,head,hit⟩
    · rintro ⟨e,member,applies,copy,head,hit⟩
      exact ⟨applies,copy,head,e,member,hit⟩
  rw [each,← Bool.not_eq_true,stale]
  constructor
  · rintro onward ⟨e,member,hit⟩
    exact (marks_onward may (exhausted e member)).mp (onward e member) hit
  · intro spared e member
    exact (marks_onward may (exhausted e member)).mpr fun hit => spared ⟨e,member,hit⟩

theorem onward_iff (followed : flushing.Followed s) (exhausted : Exhausted s.world) :
    OutboxOnward s.world (System.machine.step s label).world ↔ overwrites s label = false := by
  have moves := System.machine.step_moves s label
  generalize System.machine.step s label = t at moves
  cases moves with
  | submit | absent | crash => exact ⟨fun _ => rfl,fun _ => .refl s.world⟩
  | idle index ω settled =>
    refine ⟨fun _ => ?_,fun _ => .refl s.world⟩
    rw [Bool.eq_false_iff]
    intro overwriting
    obtain ⟨call,found,updates⟩ := (Option.any_eq_true ..).mp (Bool.and_eq_true_iff.mp overwriting).2
    have ended : call.program.head = none := by simpa [State.awaits,found] using settled
    rw [ended] at updates
    cases updates
  | answer index ω call op rest found awaits => exact answered_onward followed exhausted found awaits
  | environment event =>
    refine ⟨fun _ => rfl,fun _ => ?_⟩
    cases event <;> exact .refl s.world

theorem exhausted_step (followed : flushing.Followed s) (exhausted : Exhausted s.world) :
    Exhausted (System.machine.step s label).world := by
  have moves := System.machine.step_moves s label
  generalize System.machine.step s label = t at moves
  cases moves with
  | submit | idle | absent | crash => exact exhausted
  | environment event => cases event <;> exact exhausted
  | answer index ω call op rest found awaits =>
    intro later member died
    change later ∈ (perform op ω s.world).2.outbox at member
    rw [perform_outbox] at member
    rcases List.mem_append.mp member with updated | committed
    · obtain ⟨e,stored,rfl⟩ := List.mem_map.mp updated
      have before := exhausted e stored
      have may : Flushing.allowed (flushing.phase call) op := followed.allowed found awaits
      cases op with
      | completeOutbox id processedAt =>
        simp only [Op.marks] at died ⊢
        split at died
        · cases died
        · rename_i misses
          rw [if_neg misses]
          exact before died
      | retryOutbox id status retryCount lastError =>
        obtain ⟨copy,_,_,_,rfl⟩ := may
        simp only [Op.marks] at died ⊢
        split at died
        · rename_i hits
          rw [if_pos hits]
          dsimp only at died ⊢
          split at died
          · assumption
          · cases died
        · rename_i misses
          rw [if_neg misses]
          exact before died
      | _ => exact before died
    · obtain ⟨⟨letter,event⟩,commits,rfl⟩ := List.mem_map.mp committed
      obtain ⟨_,_,_,_,fresh⟩ := commits_eq_some (Option.mem_toList.mp commits)
      subst fresh
      cases died

theorem onward_run (followed : flushing.Followed s) (exhausted : Exhausted s.world) :
    System.machine.Along (fun s label => OutboxOnward s.world (System.machine.step s label).world)
        s labels ↔
      System.machine.Along (fun s label => overwrites s label = false) s labels := by
  refine Machine.along_congr (fun s : SystemState => flushing.Followed s ∧ Exhausted s.world) ?_ ?_
    ⟨followed,exhausted⟩
  · rintro s label ⟨followed,exhausted⟩
    exact ⟨flushing_step s label followed,exhausted_step followed exhausted⟩
  · rintro s label ⟨followed,exhausted⟩
    exact onward_iff followed exhausted

theorem exhausted_initial : Exhausted (initial World.empty).world := by
  intro e member
  cases member

/-- Between any two states of a run all events move onward, exactly when no flush
updates an event that has moved on since the flush read it. -/
theorem outbox_onward (labels : List SystemLabel) :
    System.machine.Progresses OutboxOnward (initial World.empty) labels ↔
      System.machine.Along (fun s label => overwrites s label = false) (initial World.empty)
        labels :=
  (Machine.progresses_iff OutboxOnward.refl OutboxOnward.trans).trans
    (onward_run (flushing.followed_initial World.empty) exhausted_initial)

def brokerDown (now : Int) : Oracle := { calm now with publish := some (.error (text "closed") none) }

/-- Two flushes read the same pending event. The first completes it, and then the
second counts a failed publication. -/
theorem completed_event_reopens :
    ¬ ∀ labels, System.machine.Progresses OutboxOnward (initial World.empty) labels := by
  intro onward
  have each := (Machine.progresses_iff OutboxOnward.refl OutboxOnward.trans).mp
    (onward (exhausting ++ [.submit .flush,.submit .flush] ++ drive 12 1 1200000 ++
      drive 13 1 1200000 ++ drive 12 3 1200000 ++ [.resume 13 (brokerDown 1200000)] ++
      drive 13 1 1200000))
  have spared := (onward_run (flushing.followed_initial World.empty) exhausted_initial).mp each
  exact absurd spared (by decide +kernel)

end JobScheduler
