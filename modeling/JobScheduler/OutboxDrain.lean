import JobScheduler.Alone
import JobScheduler.BatchQueue
import JobScheduler.OutboxBooks

/-! How the outbox drains. Flush passes work off the events by age, fifty at a time, and
five tries settle an event. An event that keeps failing holds up those behind it for five
passes at most. -/
namespace JobScheduler

open OutboxPoller

def IOutboxEvent.triesLeft (e : IOutboxEvent) : Nat :=
  if e.status = .pending then maxRetryCount - e.retryCount else 0

/-- Mongo answers every call, whatever the broker does. -/
def MongoAnswers (oracles : Nat → Oracle) : Prop := ∀ n, (oracles n).delivery = .performed

theorem MongoAnswers.later {oracles : Nat → Oracle} (answers : MongoAnswers oracles) :
    MongoAnswers fun n => oracles (n + 1) := fun n => answers (n + 1)

instance : IsTrans IOutboxEvent fun a b => a.createdAt ≤ b.createdAt := ⟨fun _ _ _ => Int.le_trans⟩

instance : Std.Total fun a b : IOutboxEvent => a.createdAt ≤ b.createdAt :=
  ⟨fun a b => Int.le_total a.createdAt b.createdAt⟩

/-- A stored event once its publication is recorded. -/
def IOutboxEvent.completedAt (processedAt : Int) (e : IOutboxEvent) : IOutboxEvent :=
  { e with status := .completed, processedAt := some processedAt }

/-- A stored event once a failure is counted on top of those that a flush read. -/
def IOutboxEvent.failedFrom (retryCount : Nat) (thrown : Thrown) (e : IOutboxEvent) : IOutboxEvent :=
  { e with
    status := if maxRetryCount ≤ retryCount + 1 then .dead else .pending
    retryCount := retryCount + 1
    lastError := some thrown.message }

namespace World

variable {w : World}

def announcing (w : World) (e : IOutboxEvent) : World :=
  { w with placed := RabbitMq.publish w.placed .schedulerExchange e.type e.payload }

def events (w : World) : List IOutboxEvent := w.outbox.insertionSort fun a b => a.createdAt ≤ b.createdAt

theorem mem_events {e : IOutboxEvent} : e ∈ w.events ↔ e ∈ w.outbox := List.mem_insertionSort _

theorem due_iff (e : IOutboxEvent) :
    (e.status = .pending && e.retryCount < maxRetryCount) = decide (0 < e.triesLeft) := by
  by_cases pending : e.status = .pending
  · simp only [IOutboxEvent.triesLeft,pending,if_true,decide_true,Bool.true_and,Nat.sub_pos_iff_lt]
  · simp [IOutboxEvent.triesLeft,pending]

theorem findOutbox_events :
    w.findOutbox maxRetryCount batchSize = (w.events.filter fun e => 0 < e.triesLeft).take batchSize := by
  simp only [findOutbox,events,filter_insertionSort,due_iff]

theorem events_id (placed : ∀ (place : Nat) (e : IOutboxEvent), w.outbox[place]? = some e → e.id = place)
    {e other : IOutboxEvent} (stored : e ∈ w.events) (member : other ∈ w.events)
    (same : e.id = other.id) : e = other := by
  obtain ⟨place,found⟩ := List.getElem?_of_mem (mem_events.mp stored)
  obtain ⟨elsewhere,there⟩ := List.getElem?_of_mem (mem_events.mp member)
  rw [placed place e found,placed elsewhere other there] at same
  subst same
  exact Option.some.inj (found.symm.trans there)

theorem events_distinct
    (placed : ∀ (place : Nat) (e : IOutboxEvent), w.outbox[place]? = some e → e.id = place) :
    w.events.Pairwise fun a b => a.id ≠ b.id := by
  have apart : w.outbox.Pairwise fun a b => a.id ≠ b.id := by
    rw [List.pairwise_iff_getElem]
    intro i j short long before
    rw [placed i _ (List.getElem?_eq_getElem short),placed j _ (List.getElem?_eq_getElem long)]
    exact Nat.ne_of_lt before
  exact ((List.perm_insertionSort _ w.outbox).pairwise_iff fun different => different.symm).mpr apart

end World

/-- What a pass over some events does to the outbox. -/
structure Tries (events : List IOutboxEvent) (f : IOutboxEvent → IOutboxEvent) : Prop where
  id : ∀ e, (f e).id = e.id
  createdAt : ∀ e, (f e).createdAt = e.createdAt
  others : ∀ e, (∀ copy ∈ events, copy.id ≠ e.id) → f e = e
  spends : ∀ e ∈ events, (f e).triesLeft < e.triesLeft

section Flush

variable {oracles : Nat → Oracle} {w : World} {e : IOutboxEvent} {events : List IOutboxEvent}

theorem flushEvent_sent (answers : MongoAnswers oracles) (sent : (oracles 0).publish = none) :
    Program.eval perform (flushEvent e) oracles w = ⟨.ok (),fun n => oracles (n + 3),
      (w.announcing e).updateOutbox e.id (IOutboxEvent.completedAt (oracles 1).clock)⟩ := by
  have published : perform (.publish e.type e.payload) (oracles 0) w = (.ok (),w.announcing e) := by
    simp only [perform,sent]
    rfl
  have completes : perform (.completeOutbox e.id (oracles 1).clock) (oracles 2) (w.announcing e) =
      (.ok (),(w.announcing e).updateOutbox e.id (IOutboxEvent.completedAt (oracles 1).clock)) := by
    simp only [perform,answers 2,deliver]
    rfl
  have tries : Program.eval perform (do
      publishToExchange e.type e.payload
      let processedAt ← dateNow
      await (.completeOutbox e.id processedAt)) oracles w = ⟨.ok (),fun n => oracles (n + 3),
        (w.announcing e).updateOutbox e.id (IOutboxEvent.completedAt (oracles 1).clock)⟩ := by
    rw [publishToExchange,await,Program.eval_answered (congrArg Prod.fst published),published,dateNow,
      await,Program.eval_answered rfl]
    simp only [await,Program.perform,Program.eval]
    exact congrArg (fun answer : Except Thrown Unit × World =>
      (⟨answer.1,fun n => oracles (n + 3),answer.2⟩ : Program.Ran Thrown Unit Oracle World)) completes
  exact (Program.eval_caught (congrArg Program.Ran.result tries) _).1.trans tries

theorem flushEvent_thrown {thrown : Thrown} (answers : MongoAnswers oracles)
    (rejected : (oracles 0).publish = some thrown) :
    Program.eval perform (flushEvent e) oracles w = ⟨.ok (),fun n => oracles (n + 2),
      w.updateOutbox e.id (IOutboxEvent.failedFrom e.retryCount thrown)⟩ := by
  have published : perform (.publish e.type e.payload) (oracles 0) w = (.error thrown,w) := by
    simp only [perform,rejected]
  have counts : perform (.retryOutbox e.id
      (if decide (maxRetryCount ≤ e.retryCount + 1) = true then .dead else .pending)
      (e.retryCount + 1) thrown.message) (oracles 1) w =
        (.ok (),w.updateOutbox e.id (IOutboxEvent.failedFrom e.retryCount thrown)) := by
    simp only [perform,answers 1,deliver,decide_eq_true_eq]
    rfl
  have failed : Program.eval perform (do
      publishToExchange e.type e.payload
      let processedAt ← dateNow
      await (.completeOutbox e.id processedAt)) oracles w =
        ⟨.error thrown,fun n => oracles (n + 1),w⟩ := by
    rw [publishToExchange,Program.eval_bind]
    simp only [await,Program.perform,Program.eval,published,Program.Ran.thenEval]
  have rescued := Program.eval_rescued (congrArg Program.Ran.result failed) fun error => do
    let newRetryCount := e.retryCount + 1
    let isDead : Bool := maxRetryCount ≤ newRetryCount
    await (.retryOutbox e.id (if isDead then .dead else .pending) newRetryCount error.message)
  rw [failed] at rescued
  refine rescued.trans ?_
  simp only [await,Program.perform,Program.eval]
  exact congrArg (fun answer : Except Thrown Unit × World =>
    (⟨answer.1,fun n => oracles (n + 2),answer.2⟩ : Program.Ran Thrown Unit Oracle World)) counts

/-- A try that costs an event at least one of those it has left. -/
theorem tries_update {change : IOutboxEvent → IOutboxEvent} (id : ∀ o, (change o).id = o.id)
    (createdAt : ∀ o, (change o).createdAt = o.createdAt)
    (spends : (change e).triesLeft < e.triesLeft) :
    Tries [e] fun o => if o.id = e.id then change o else o where
  id o := by split <;> simp [id]
  createdAt o := by split <;> simp [createdAt]
  others o other := if_neg fun same => other e List.mem_cons_self same.symm
  spends o tried := by
    obtain rfl := List.mem_singleton.mp tried
    rwa [if_pos rfl]

/-- Whatever the broker does, a try completes the event or counts one failure more. -/
theorem flushEvent_tries (answers : MongoAnswers oracles) (left : 0 < e.triesLeft) :
    ∃ rest world f, MongoAnswers rest ∧
      Program.eval perform (flushEvent e) oracles w = ⟨.ok (),rest,world⟩ ∧
      world.outbox = w.outbox.map f ∧ Tries [e] f := by
  cases sent : (oracles 0).publish with
  | none =>
    refine ⟨_,_,_,fun n => answers (n + 3),flushEvent_sent answers sent,rfl,tries_update ?_ ?_ ?_⟩
    · exact fun _ => rfl
    · exact fun _ => rfl
    · exact left
  | some thrown =>
    refine ⟨_,_,_,fun n => answers (n + 2),flushEvent_thrown answers sent,rfl,tries_update ?_ ?_ ?_⟩
    · exact fun _ => rfl
    · exact fun _ => rfl
    · have pending : e.status = .pending := by
        by_contra settled
        simp [IOutboxEvent.triesLeft,settled] at left
      simp only [IOutboxEvent.triesLeft,pending,if_true] at left ⊢
      by_cases last : maxRetryCount ≤ e.retryCount + 1
      · simpa [IOutboxEvent.failedFrom,last] using left
      · simp [IOutboxEvent.failedFrom,last]
        omega

theorem Tries.trans {f g : IOutboxEvent → IOutboxEvent} (first : Tries [e] f) (rest : Tries events g)
    (new : ∀ other ∈ events, e.id ≠ other.id) : Tries (e :: events) (g ∘ f) where
  id o := (rest.id (f o)).trans (first.id o)
  createdAt o := (rest.createdAt (f o)).trans (first.createdAt o)
  others o other := by
    have same : f o = o := first.others o fun copy tried => by
      obtain rfl := List.mem_singleton.mp tried
      exact other copy List.mem_cons_self
    rw [Function.comp,same]
    exact rest.others o fun copy tried => other copy (List.mem_cons_of_mem e tried)
  spends o tried := by
    rcases List.mem_cons.mp tried with rfl | later
    · have kept : g (f o) = f o := rest.others (f o) fun copy tried same =>
        new copy tried ((first.id o).symm.trans same.symm)
      rw [Function.comp,kept]
      exact first.spends o List.mem_cons_self
    · have kept : f o = o := first.others o fun copy tried => by
        obtain rfl := List.mem_singleton.mp tried
        exact new o later
      rw [Function.comp,kept]
      exact rest.spends o later

theorem flushEvents_tries (answers : MongoAnswers oracles) (left : ∀ e ∈ events, 0 < e.triesLeft)
    (distinct : events.Pairwise fun a b => a.id ≠ b.id) :
    ∃ f, (Program.eval perform (flushEvents events) oracles w).world.outbox = w.outbox.map f ∧
      Tries events f := by
  induction events generalizing oracles w with
  | nil =>
    refine ⟨id,(List.map_id _).symm,?_⟩
    exact ⟨fun _ => rfl,fun _ => rfl,fun _ _ => rfl,fun e tried => absurd tried List.not_mem_nil⟩
  | cons e events ih =>
    obtain ⟨new,apart⟩ := List.pairwise_cons.mp distinct
    obtain ⟨rest,world,f,answering,ran,marked,first⟩ :=
      flushEvent_tries answers (left e List.mem_cons_self) (w := w)
    obtain ⟨g,later,tries⟩ := ih answering (fun o tried => left o (List.mem_cons_of_mem e tried)) apart
      (w := world)
    refine ⟨g ∘ f,?_,first.trans tries new⟩
    rw [flushEvents,Program.eval_bind,ran]
    simp only [Program.Ran.thenEval]
    rw [later,marked,List.map_map]

/-- A flush that runs alone tries the events that it finds. -/
theorem flush_tries (answers : MongoAnswers oracles)
    (placed : ∀ (place : Nat) (e : IOutboxEvent), w.outbox[place]? = some e → e.id = place) :
    ∃ f, (Program.eval perform flush oracles w).world.outbox = w.outbox.map f ∧
      Tries ((w.events.filter fun e => 0 < e.triesLeft).take batchSize) f := by
  have found : perform (.findOutbox maxRetryCount batchSize) (oracles 0) w =
      (.ok ((w.events.filter fun e => 0 < e.triesLeft).take batchSize),w) := by
    simp only [perform,answers 0,deliver,World.findOutbox_events]
  rw [flush,await,Program.eval_answered (congrArg Prod.fst found),found]
  apply flushEvents_tries answers.later
  · intro e tried
    have kept := List.of_mem_filter (List.mem_of_mem_take tried)
    exact of_decide_eq_true kept
  · exact (World.events_distinct placed).sublist ((List.take_sublist _ _).trans List.filter_sublist)

end Flush

theorem pass_flush {oracles : Nat → Oracle} {w : World} {size : Nat} (answers : MongoAnswers oracles)
    (placed : ∀ (place : Nat) (e : IOutboxEvent), w.outbox[place]? = some e → e.id = place)
    (inside : size ≤ w.events.length) :
    BatchPass batchSize size (budgets IOutboxEvent.triesLeft w.events)
        (budgets IOutboxEvent.triesLeft (Program.eval perform flush oracles w).world.events) ∧
      (Program.eval perform flush oracles w).world.events.map IOutboxEvent.id =
        w.events.map IOutboxEvent.id := by
  obtain ⟨f,marked,tries⟩ := flush_tries answers placed
  have after : (Program.eval perform flush oracles w).world.events = w.events.map f := by
    rw [World.events,marked,World.events]
    refine (List.map_insertionSort _ _ f w.outbox ?_).symm
    intro a _ b _
    rw [tries.createdAt,tries.createdAt]
  rw [after]
  constructor
  · apply batchPass_map _ inside
    · intro e member
      by_cases tried : e ∈ (w.events.filter fun e => 0 < e.triesLeft).take batchSize
      · exact Nat.le_of_lt (tries.spends e tried)
      · refine Nat.le_of_eq (congrArg IOutboxEvent.triesLeft (tries.others e fun copy copied same => ?_))
        have stored := List.mem_of_mem_filter (List.mem_of_mem_take copied)
        rw [World.events_id placed stored member same] at copied
        exact tried copied
    · exact tries.spends
  · rw [List.map_map]
    exact List.map_congr_left fun e _ => tries.id e

/-- The step updates an event, or adds one that is older than another. -/
def disturbs (s : SystemState) : SystemLabel → Bool
  | .resume index _ =>
    match s.awaits index with
    | some (.completeOutbox _ _) | some (.retryOutbox _ _ _ _) => true
    | some (.commitDeadLetter _ _ _ createdAt) => s.world.outbox.any fun e => createdAt < e.createdAt
    | _ => false
  | _ => false

/-- Runs with `n` passes that are left alone by the other calls, and any steps between them
that do not disturb the outbox. -/
inductive Drains (s : SystemState) : Nat → SystemState → Prop where
  | start : Drains s 0 s
  | others {n : Nat} {t : SystemState} (drains : Drains s n t) (label : SystemLabel)
      (spares : disturbs t label = false) : Drains s n (System.machine.step t label)
  | pass {n : Nat} {t : SystemState} (drains : Drains s n t) (oracles : Nat → Oracle)
      (answers : MongoAnswers oracles) :
      Drains s (n + 1) (System.machine.run t (System.machine.serving t .flush oracles))

variable {s t : SystemState} {label : SystemLabel}

theorem events_joined (spares : disturbs s label = false) :
    ∃ more, (System.machine.step s label).world.events = s.world.events ++ more := by
  have moves := System.machine.step_moves s label
  generalize System.machine.step s label = t at moves
  cases moves with
  | submit | idle | absent | crash => exact ⟨[],(List.append_nil _).symm⟩
  | environment event => cases event <;> exact ⟨[],(List.append_nil _).symm⟩
  | answer index ω call op rest found awaits =>
    have awaiting : s.awaits index = some op := State.awaits_eq_some.mpr ⟨call,rest,found,awaits⟩
    change ∃ more, (perform op ω s.world).2.events = _
    have kept : s.world.outbox.map (op.marks ω) = s.world.outbox := by
      cases op with
      | completeOutbox | retryOutbox => simp [disturbs,awaiting] at spares
      | _ => exact List.map_id _
    simp only [World.events,perform_outbox,kept]
    refine ⟨_,insertionSort_append _ fun e stored event added => ?_⟩
    obtain ⟨⟨letter,_⟩,commits,rfl⟩ := List.mem_map.mp added
    obtain ⟨type,payload,createdAt,rfl,rfl⟩ := commits_eq_some (Option.mem_toList.mp commits)
    simp only [disturbs,awaiting,List.any_eq_false,decide_eq_true_eq,Int.not_lt] at spares
    exact spares e stored

structure Drained (s : SystemState) (n : Nat) (t : SystemState) : Prop where
  booked : BooksKept t
  passes : BatchPasses batchSize s.world.events.length n (budgets IOutboxEvent.triesLeft s.world.events)
    (budgets IOutboxEvent.triesLeft t.world.events)
  ids : s.world.events.map IOutboxEvent.id <+: t.world.events.map IOutboxEvent.id

theorem drained (booked : BooksKept s) {n : Nat} (drains : Drains s n t) : Drained s n t := by
  induction drains with
  | start => exact ⟨booked,.none fun _ _ => rfl,List.prefix_rfl⟩
  | @others n t drains label spares ih =>
    obtain ⟨more,joined⟩ := events_joined spares
    have inside : s.world.events.length ≤ t.world.events.length := by
      simpa using ih.ids.length_le
    refine ⟨booksKept_step ih.booked,ih.passes.joined fun place bound => ?_,?_⟩
    · rw [joined]
      exact budgets_append _ (Nat.lt_of_lt_of_le bound inside)
    · rw [joined,List.map_append]
      exact ih.ids.trans (List.prefix_append _ _)
  | @pass n t drains oracles answers ih =>
    have inside : s.world.events.length ≤ t.world.events.length := by
      simpa using ih.ids.length_le
    have served : (System.machine.run t (System.machine.serving t Request.flush oracles)).world =
        (Program.eval perform flush oracles t.world).world := Machine.serving_world Request.flush
    obtain ⟨pass,ids⟩ := pass_flush answers ih.booked.placed inside
    refine ⟨?_,.pass ih.passes ?_,?_⟩
    · exact Machine.always_run BooksKept (fun _ _ => booksKept_step) ih.booked _
    · rw [served]
      exact pass
    · rw [served]
      exact ids ▸ ih.ids

theorem triesLeft_le (e : IOutboxEvent) : e.triesLeft ≤ maxRetryCount := by
  simp only [IOutboxEvent.triesLeft]
  split <;> omega

theorem budgets_triesLeft_le (w : World) (place : Nat) :
    budgets IOutboxEvent.triesLeft w.events place ≤ maxRetryCount := by
  simp only [budgets]
  cases w.events[place]? with
  | none => exact Nat.zero_le _
  | some e => exact triesLeft_le e

theorem waiting_lt {w : World} {place : Nat} {e : IOutboxEvent} (found : w.events[place]? = some e)
    (pending : e.status = .pending) :
    waiting (budgets IOutboxEvent.triesLeft w.events) place <
      w.outbox.countP fun o => o.status = .pending && o.createdAt ≤ e.createdAt := by
  obtain ⟨inside,here⟩ := List.getElem?_eq_some_iff.mp found
  have sorted : w.events.Pairwise fun a b => a.createdAt ≤ b.createdAt :=
    List.pairwise_insertionSort _ w.outbox
  have ahead : ∀ o ∈ w.events.take place, o.createdAt ≤ e.createdAt := by
    intro o member
    obtain ⟨i,bound,rfl⟩ := List.getElem_of_mem member
    have before : i < place := Nat.lt_of_lt_of_le bound (List.length_take_le place w.events)
    rw [List.getElem_take,← here]
    exact List.pairwise_iff_getElem.mp sorted i place (before.trans inside) inside before
  have counted : (w.events.take place).countP (fun o => 0 < o.triesLeft) ≤ (w.events.take place).countP
      fun o => o.status = .pending && o.createdAt ≤ e.createdAt := by
    refine List.countP_mono_left fun o member left => ?_
    have waits : o.status = .pending := by
      by_contra settled
      simp [IOutboxEvent.triesLeft,settled] at left
    simp [waits,ahead o member]
  have parts : w.events = w.events.take place ++ e :: w.events.drop (place + 1) := by
    rw [← here,← List.drop_eq_getElem_cons inside,List.take_append_drop]
  have all : w.outbox.countP (fun o => o.status = .pending && o.createdAt ≤ e.createdAt) =
      w.events.countP fun o => o.status = .pending && o.createdAt ≤ e.createdAt :=
    ((List.perm_insertionSort _ w.outbox).countP_eq _).symm
  rw [waiting_budgets,all]
  conv_rhs => rw [parts]
  rw [List.countP_append,List.countP_cons_of_pos (by simp [pending])]
  omega

/-- From every reachable state, whatever calls are suspended: once the flush has had five
undisturbed passes for each fifty pending events that are no younger than an event, Mongo
answering and the broker doing whatever it does, the event is pending no more. -/
theorem outbox_drains (labels : List SystemLabel) :
    ∀ s, System.machine.Reached (initial World.empty) labels s →
      ∀ n t, Drains s (maxRetryCount * n) t → ∀ e ∈ s.world.outbox,
        (s.world.outbox.countP fun o => o.status = .pending && o.createdAt ≤ e.createdAt) ≤
          batchSize * n →
        ∃ later ∈ t.world.outbox, later.id = e.id ∧ later.status ≠ .pending := by
  intro s reached n t drains e stored few
  have booked := Machine.always_reached BooksKept (fun _ _ => booksKept_step) booksKept_initial reached
  obtain ⟨kept,passes,ids⟩ := drained booked drains
  obtain ⟨place,found⟩ := List.getElem?_of_mem (World.mem_events.mpr stored)
  have inside := (List.getElem?_eq_some_iff.mp found).1
  obtain ⟨later,there,same⟩ : ∃ later, t.world.events[place]? = some later ∧ later.id = e.id := by
    have known : (t.world.events.map IOutboxEvent.id)[place]? = some e.id := by
      obtain ⟨more,whole⟩ := ids
      rw [← whole,List.getElem?_append_left (by simpa using inside),List.getElem?_map,found]
      rfl
    simpa [List.getElem?_map] using known
  have gone : later.triesLeft = 0 := by
    have settled : budgets IOutboxEvent.triesLeft t.world.events place = 0 := by
      by_cases pending : e.status = .pending
      · refine passes.settled (fun i _ => budgets_triesLeft_le s.world i) inside ?_
        exact Nat.lt_of_lt_of_le (waiting_lt found pending) few
      · have spent := passes.spends inside
        simpa [budgets,found,IOutboxEvent.triesLeft,pending] using spent
    simpa [budgets,there] using settled
  have member := World.mem_events.mp (List.mem_of_getElem? there)
  refine ⟨later,member,same,fun pending => ?_⟩
  have left := (kept.consistent later member).pending pending
  simp [IOutboxEvent.triesLeft,pending] at gone
  omega

def silent (_ : Nat) : Oracle := { calm 0 with publish := some (.error (text "no channel") none) }

def flushed (s : SystemState) : Nat → SystemState
  | 0 => s
  | n + 1 => System.machine.run (flushed s n) (System.machine.serving (flushed s n) .flush silent)

theorem drains_flushed (s : SystemState) : ∀ n, Drains s n (flushed s n)
  | 0 => .start
  | n + 1 => .pass (drains_flushed s n) silent fun _ => rfl

/-- The event of the dead report, which no broker takes. -/
theorem outbox_drains_unpublished :
    ∃ e ∈ (System.machine.run (initial World.empty) exhausting).world.outbox, e.id = 0 ∧
      ∃ later ∈ (flushed (System.machine.run (initial World.empty) exhausting) 5).world.outbox,
        later.id = e.id ∧ later.status ≠ .pending := by
  have ids : (System.machine.run (initial World.empty) exhausting).world.outbox.map
      IOutboxEvent.id = [0] := by decide +kernel
  obtain ⟨e,stored,id⟩ := List.mem_map.mp (ids ▸ List.mem_singleton_self 0)
  have single : (System.machine.run (initial World.empty) exhausting).world.outbox.length = 1 := by
    rw [← List.length_map IOutboxEvent.id,ids]
    rfl
  refine ⟨e,stored,id,?_⟩
  exact outbox_drains exhausting _ ⟨exhausting,List.prefix_rfl,rfl⟩ 1 _ (drains_flushed _ 5) e stored
    ((List.countP_le_length.trans_eq single).trans (by decide))

end JobScheduler
