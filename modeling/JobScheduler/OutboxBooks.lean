import JobScheduler.OutboxDelivery
import JobScheduler.OutboxStatus

/-! The bookkeeping of the outbox. Status and counter of an event are written together,
from one copy that was still to be tried when it was read, and a flush completes an event
only after it has published the copy. -/
namespace JobScheduler

open OutboxPoller

/-- The copies that a flush still has to handle, and those whose publication returned. -/
structure Books where
  batch : List IOutboxEvent
  published : List IOutboxEvent

namespace Books

/-- A flush publishes the first of its copies, completes published ones, and counts up to
the maximum. -/
def allowed (books : Books) : Op → Prop
  | .findOutbox limit _ => limit = maxRetryCount ∧ books.batch = []
  | .publish key payload => ∀ copy ∈ books.batch.head?, key = copy.type ∧ payload = copy.payload
  | .completeOutbox id _ => ∃ copy ∈ books.published, copy.id = id
  | .retryOutbox _ status retryCount _ => retryCount ≤ maxRetryCount ∧
      status = if maxRetryCount ≤ retryCount then .dead else .pending
  | _ => True

def answers (_ : Books) : (op : Op) → Except Thrown op.Reply → Prop
  | .findOutbox limit _, .ok events => ∀ e ∈ events, e.retryCount < limit
  | _, _ => True

def next (books : Books) : (op : Op) → Except Thrown op.Reply → Books
  | .findOutbox _ _, .ok events => { books with batch := events }
  | .publish _ _, .ok _ => { books with published := books.batch.head?.toList ++ books.published }
  | .completeOutbox _ _, .ok _ => { books with batch := books.batch.tail }
  | .retryOutbox _ _ _ _, .ok _ => { books with batch := books.batch.tail }
  | _, _ => books

def monitor : Program.Monitor signature Thrown Books where
  allowed := allowed
  answers := answers
  next := next

@[simp] theorem monitor_allowed : monitor.allowed = allowed := rfl
@[simp] theorem monitor_answers : monitor.answers = answers := rfl
@[simp] theorem monitor_next : monitor.next = next := rfl

abbrev Meets (books : Books) (program : Async α) : Prop :=
  Program.wp monitor (fun _ _ => True) program books

section Flush

attribute [local simp] allowed answers next Program.forall_except Program.perform await dateNow
  publishToExchange

theorem meets_flushEvents (batch published : List IOutboxEvent)
    (left : ∀ e ∈ batch, e.retryCount < maxRetryCount) :
    Meets ⟨batch,published⟩ (flushEvents batch) := by
  induction batch generalizing published with
  | nil => trivial
  | cons event events ih =>
    have rest := fun published => ih published fun e member => left e (List.mem_cons_of_mem _ member)
    have more : event.retryCount + 1 ≤ maxRetryCount := left event List.mem_cons_self
    simp [flushEvents,flushEvent,rest,more]

theorem meets_flush : Meets ⟨[],[]⟩ flush := by
  have flushed : ∀ events : List IOutboxEvent, (∀ e ∈ events, e.retryCount < maxRetryCount) →
      Meets ⟨events,[]⟩ (flushEvents events) := fun events => meets_flushEvents events []
  simpa [flush] using flushed

end Flush

/-- No other program of the service handles the outbox. -/
theorem meets_program (request : Request) : Meets ⟨[],[]⟩ (System.program request) := by
  by_cases flushes : request = .flush
  · subst flushes
    exact meets_flush
  · apply Program.Uses.wp (Within.program request)
    · intro op listed
      have outside := Flushing.handles_flush listed flushes
      cases op with
      | findOutbox | completeOutbox | retryOutbox => cases outside
      | publish => exact fun copy head => absurd head (Option.not_mem_none copy)
      | _ => trivial
    · intro op reply listed
      have outside := Flushing.handles_flush listed flushes
      cases op with
      | findOutbox | completeOutbox | retryOutbox => cases outside
      | publish key payload => cases reply <;> rfl
      | _ => rfl
    · exact fun _ => trivial

theorem published_grows {copy : IOutboxEvent} (books : Books) (op : Op)
    (reply : Except Thrown op.Reply) (known : copy ∈ books.published) :
    copy ∈ (next books op reply).published := by
  unfold next
  split
  · exact known
  · exact List.mem_append_right _ known
  · exact known
  · exact known
  · exact known

theorem next_copies {holds : IOutboxEvent → Prop} {books : Books} {w : World} (op : Op) (ω : Oracle)
    (held : ∀ copy ∈ books.batch ++ books.published, holds copy)
    (stored : ∀ e ∈ w.outbox, holds e) :
    ∀ copy ∈ (next books op (perform op ω w).1).batch ++ (next books op (perform op ω w).1).published,
      holds copy := by
  have handled : ∀ copy ∈ books.batch.tail ++ books.published, holds copy := fun copy member =>
    held copy ((List.Sublist.append_right (List.tail_sublist _) _).subset member)
  cases op with
  | findOutbox limit size =>
    cases replied : (perform (.findOutbox limit size) ω w).1 with
    | error e => exact held
    | ok events =>
      obtain rfl := findOutbox_ok replied
      intro copy member
      rcases List.mem_append.mp member with found | known
      · exact stored copy (mem_findOutbox found)
      · exact held copy (List.mem_append_right _ known)
  | publish key payload =>
    cases (perform (.publish key payload) ω w).1 with
    | error e => exact held
    | ok value =>
      intro copy member
      simp only [next,List.mem_append,Option.mem_toList] at member
      rcases member with waiting | sent | known
      · exact held copy (List.mem_append_left _ waiting)
      · exact held copy (List.mem_append_left _ (List.mem_of_mem_head? sent))
      · exact held copy (List.mem_append_right _ known)
  | completeOutbox id processedAt =>
    cases (perform (.completeOutbox id processedAt) ω w).1 with
    | error e => exact held
    | ok value => exact handled
  | retryOutbox id status retryCount lastError =>
    cases (perform (.retryOutbox id status retryCount lastError) ω w).1 with
    | error e => exact held
    | ok value => exact handled
  | _ => exact held

end Books

def bookkeeping : Protocol System.machine Books where
  monitor := Books.monitor
  start _ := ⟨[],[]⟩
  post _ _ := True
  meets := Books.meets_program

def Genuine (w : World) (copy : IOutboxEvent) : Prop :=
  ∃ e ∈ w.outbox[copy.id]?, e.type = copy.type ∧ e.payload = copy.payload

/-- A flush has published a copy of the event, and the publication returned. -/
def HasPublished (s : SystemState) (e : IOutboxEvent) : Prop :=
  ∃ call ∈ s.calls, ∃ copy ∈ (bookkeeping.phase call).published,
    copy.id = e.id ∧ copy.type = e.type ∧ copy.payload = e.payload

/-- Status and counter of an event fit each other. -/
structure Consistent (e : IOutboxEvent) : Prop where
  pending : e.status = .pending → e.retryCount < maxRetryCount
  dead : e.status = .dead → e.retryCount = maxRetryCount

structure BooksKept (s : SystemState) : Prop where
  followed : bookkeeping.Followed s
  placed : ∀ (place : Nat) (e : IOutboxEvent), s.world.outbox[place]? = some e → e.id = place
  genuine : ∀ call ∈ s.calls, ∀ copy ∈ (bookkeeping.phase call).batch ++
    (bookkeeping.phase call).published, Genuine s.world copy
  consistent : ∀ e ∈ s.world.outbox, Consistent e
  proven : ∀ e ∈ s.world.outbox, e.status = .completed → HasPublished s e

variable {s : SystemState} {label : SystemLabel}

theorem booksKept_initial : BooksKept (initial World.empty) where
  followed := bookkeeping.followed_initial World.empty
  placed place e found := by simp [initial,World.empty] at found
  genuine call member := by cases member
  consistent e member := by cases member
  proven e member := by cases member

theorem findOutbox_left {w : World} {limit size : Nat} {e : IOutboxEvent}
    (found : e ∈ w.findOutbox limit size) : e.retryCount < limit := by
  have sorted := List.mem_of_mem_take found
  rw [List.mem_insertionSort] at sorted
  have chosen := List.of_mem_filter sorted
  simp only [Bool.and_eq_true,decide_eq_true_eq] at chosen
  exact chosen.2

theorem bookkeeping_answers (s : SystemState) (label : SystemLabel) :
    bookkeeping.Answers s label := by
  cases label with
  | resume index ω =>
    intro call op rest _ _
    cases op with
    | findOutbox limit size =>
      cases replied : (perform (.findOutbox limit size) ω s.world).1 with
      | error e => simp [replied,bookkeeping,Books.answers]
      | ok events =>
        obtain rfl := findOutbox_ok replied
        simp only [System.machine_perform,replied]
        intro e found
        exact findOutbox_left found
    | _ => trivial
  | _ => simp [Protocol.Answers,bookkeeping]

theorem HasPublished.persists {e later : IOutboxEvent} {t : SystemState}
    (moves : System.machine.Moves s label t) (published : HasPublished s e) (id : later.id = e.id)
    (type : later.type = e.type) (payload : later.payload = e.payload) : HasPublished t later := by
  obtain ⟨call,member,copy,known,same⟩ := published
  obtain ⟨index,found⟩ := List.getElem?_of_mem member
  obtain ⟨after,there,kept⟩ := Protocol.phase_persists (P := bookkeeping)
    (fun books => copy ∈ books.published) Books.published_grows moves found known
  refine ⟨after,List.mem_of_getElem? there,copy,kept,?_⟩
  rw [id,type,payload]
  exact same

theorem marks_id (op : Op) (ω : Oracle) (e : IOutboxEvent) : (op.marks ω e).id = e.id := by
  cases op with
  | completeOutbox | retryOutbox =>
    simp only [Op.marks]
    split <;> rfl
  | _ => rfl

theorem Genuine.persists {w : World} {copy : IOutboxEvent} (op : Op) (ω : Oracle)
    (genuine : Genuine w copy) : Genuine (perform op ω w).2 copy := by
  obtain ⟨e,here,type,payload⟩ := genuine
  refine ⟨_,outbox_place op ω w here,?_,?_⟩
  · rw [marks_type,type]
  · rw [marks_payload,payload]

/-- What an operation leaves in the outbox: marked events, and new ones at the end. -/
theorem outbox_cases {op : Op} {ω : Oracle} {w : World} {place : Nat} {later : IOutboxEvent}
    (found : (perform op ω w).2.outbox[place]? = some later) :
    (∃ e, w.outbox[place]? = some e ∧ later = op.marks ω e) ∨
      ∃ type payload createdAt, place = w.outbox.length ∧ later = w.newEvent type payload createdAt := by
  rw [perform_outbox,List.getElem?_append] at found
  split at found
  · obtain ⟨e,here,rfl⟩ := Option.map_eq_some_iff.mp ((List.getElem?_map ..).symm.trans found)
    exact .inl ⟨e,here,rfl⟩
  · rename_i beyond
    rw [List.length_map] at found beyond
    cases commits : op.commits ω w with
    | none =>
      rw [commits] at found
      cases found
    | some commit =>
      obtain ⟨letter,event⟩ := commit
      rw [commits] at found
      obtain ⟨first,same⟩ : place - w.outbox.length = 0 ∧ event = later := by
        simpa [List.getElem?_singleton] using found
      obtain ⟨type,payload,createdAt,-,fresh⟩ := commits_eq_some commits
      exact .inr ⟨type,payload,createdAt,by omega,same.symm.trans fresh⟩

theorem marks_consistent {books : Books} {op : Op} {ω : Oracle} {e : IOutboxEvent}
    (may : books.allowed op) (consistent : Consistent e) : Consistent (op.marks ω e) := by
  cases op with
  | completeOutbox id processedAt =>
    simp only [Op.marks]
    split
    · exact ⟨by rintro ⟨⟩,by rintro ⟨⟩⟩
    · exact consistent
  | retryOutbox id status retryCount lastError =>
    obtain ⟨bound,rfl⟩ := may
    simp only [Op.marks]
    split
    · constructor
      · intro waiting
        dsimp only at waiting ⊢
        split at waiting
        · cases waiting
        · omega
      · intro died
        dsimp only at died ⊢
        split at died
        · omega
        · cases died
    · exact consistent
  | _ => exact consistent

/-- A completed event was published: before the operation, or by the flush that completes it. -/
theorem marks_proven {call : SystemCall} {op : Op} {ω : Oracle} {place : Nat} {e : IOutboxEvent}
    (booked : BooksKept s) (member : call ∈ s.calls) (may : (bookkeeping.phase call).allowed op)
    (here : s.world.outbox[place]? = some e) (completed : (op.marks ω e).status = .completed) :
    HasPublished s e := by
  have before := booked.proven e (List.mem_of_getElem? here)
  cases op with
  | completeOutbox id processedAt =>
    simp only [Op.marks] at completed
    split at completed
    · rename_i hits
      obtain ⟨_,same⟩ : ω.delivery.applies = true ∧ e.id = id := by simpa using hits
      obtain ⟨copy,known,copied⟩ := may
      obtain ⟨stored,there,type,payload⟩ :=
        booked.genuine call member copy (List.mem_append_right _ known)
      rw [copied,← same,booked.placed place e here,here] at there
      obtain rfl := Option.some.inj there
      exact ⟨call,member,copy,known,copied.trans same.symm,type.symm,payload.symm⟩
    · exact before completed
  | retryOutbox id status retryCount lastError =>
    obtain ⟨_,rfl⟩ := may
    simp only [Op.marks] at completed
    split at completed
    · dsimp only at completed
      split at completed <;> cases completed
    · exact before completed
  | _ => exact before completed

theorem answered_genuine {index : Nat} {call : SystemCall} {op : Op}
    {rest : Except Thrown op.Reply → Async Unit} (ω : Oracle) (booked : BooksKept s)
    (found : s.calls[index]? = some call) :
    ∀ other ∈ (System.machine.answered s index call op rest ω).calls,
      ∀ copy ∈ (bookkeeping.phase other).batch ++ (bookkeeping.phase other).published,
        Genuine (perform op ω s.world).2 copy := by
  have still : ∀ other ∈ s.calls,
      ∀ copy ∈ (bookkeeping.phase other).batch ++ (bookkeeping.phase other).published,
        Genuine (perform op ω s.world).2 copy := fun other member copy held =>
    (booked.genuine other member copy held).persists op ω
  intro other member
  rcases Machine.answered_cases member with old | rfl | ⟨request,-,rfl⟩
  · exact still other old
  · refine Books.next_copies op ω (still call (List.mem_of_getElem? found)) fun e stored => ?_
    obtain ⟨place,here⟩ := List.getElem?_of_mem stored
    have genuine : Genuine s.world e := by
      refine ⟨e,?_,rfl,rfl⟩
      rw [booked.placed place e here]
      exact here
    exact genuine.persists op ω
  · intro copy held
    cases held

theorem booksKept_step (booked : BooksKept s) : BooksKept (System.machine.step s label) := by
  have moves := System.machine.step_moves s label
  have followed := Protocol.followed_moves moves (bookkeeping_answers s label) booked.followed
  generalize System.machine.step s label = t at moves followed
  have kept {e later : IOutboxEvent} (published : HasPublished s e) (id : later.id = e.id)
      (type : later.type = e.type) (payload : later.payload = e.payload) : HasPublished t later :=
    published.persists moves id type payload
  obtain ⟨-,placed,genuine,consistent,proven⟩ := id booked
  have unmoved : ∀ e ∈ s.world.outbox, e.status = .completed → HasPublished t e :=
    fun e member completed => kept (proven e member completed) rfl rfl rfl
  cases moves with
  | submit request =>
    refine ⟨followed,placed,fun call member => ?_,consistent,unmoved⟩
    rcases List.mem_append.mp member with old | new
    · exact genuine call old
    · obtain rfl := List.mem_singleton.mp new
      intro copy held
      cases held
  | idle | absent => exact ⟨followed,placed,genuine,consistent,unmoved⟩
  | crash index call found =>
    refine ⟨followed,placed,fun other member => ?_,consistent,unmoved⟩
    rcases List.mem_or_eq_of_mem_set member with old | rfl
    · exact genuine other old
    · exact genuine call (List.mem_of_getElem? found)
  | environment event =>
    cases event <;> exact ⟨followed,placed,genuine,consistent,unmoved⟩
  | answer index ω call op rest found awaits =>
    have may : (bookkeeping.phase call).allowed op := booked.followed.allowed found awaits
    have member : call ∈ s.calls := List.mem_of_getElem? found
    refine ⟨followed,fun place later there => ?_,answered_genuine ω booked found,
      fun later there => ?_,fun later there completed => ?_⟩
    · rcases outbox_cases there with ⟨e,here,rfl⟩ | ⟨type,payload,createdAt,last,rfl⟩
      · rw [marks_id]
        exact placed place e here
      · exact last.symm
    · obtain ⟨place,there⟩ := List.getElem?_of_mem there
      rcases outbox_cases there with ⟨e,here,rfl⟩ | ⟨type,payload,createdAt,-,rfl⟩
      · exact marks_consistent may (consistent e (List.mem_of_getElem? here))
      · exact ⟨fun _ => Nat.succ_pos 4,by rintro ⟨⟩⟩
    · obtain ⟨place,there⟩ := List.getElem?_of_mem there
      rcases outbox_cases there with ⟨e,here,rfl⟩ | ⟨type,payload,createdAt,-,rfl⟩
      · exact kept (marks_proven booked member may here completed) (marks_id op ω e)
          (marks_type op ω e) (marks_payload op ω e)
      · cases completed

/-- Outbox bookkeeping: a pending event is still to be tried, a dead one has been tried as
often as allowed, and a completed one has been published. -/
theorem outbox_books (labels : List SystemLabel) (t : SystemState)
    (reached : System.machine.Reached (initial World.empty) labels t) :
    ∀ e ∈ t.world.outbox, (e.status = .pending → e.retryCount < maxRetryCount) ∧
      (e.status = .dead → e.retryCount = maxRetryCount) ∧
      (e.status = .completed → HasPublished t e) := by
  have booked := Machine.always_reached BooksKept (fun s label => booksKept_step)
    booksKept_initial reached
  exact fun e member => ⟨(booked.consistent e member).pending,(booked.consistent e member).dead,
    booked.proven e member⟩

def flushedReport : List SystemLabel := exhausting ++ [.submit .flush] ++ drive 12 4 1200000

theorem outbox_books_flushed :
    (System.machine.run (initial World.empty) flushedReport).world.outbox.map (·.status) =
        [.completed] ∧
      ∀ e ∈ (System.machine.run (initial World.empty) flushedReport).world.outbox,
        (e.status = .pending → e.retryCount < maxRetryCount) ∧
        (e.status = .dead → e.retryCount = maxRetryCount) ∧
        (e.status = .completed →
          HasPublished (System.machine.run (initial World.empty) flushedReport) e) :=
  ⟨by decide +kernel,outbox_books flushedReport _ ⟨flushedReport,List.prefix_rfl,rfl⟩⟩

end JobScheduler
