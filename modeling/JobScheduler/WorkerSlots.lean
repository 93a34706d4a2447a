import JobScheduler.PollStop

/-! The slots of the poll loop and the worker that fills them. `Worker.dispatch` starts a
run for each id of its batch and settles once all of them have settled; only then does
the loop give the slots of the batch back. -/
namespace JobScheduler

open TimerLoop

/-- A run of the worker, with whether it has called `execute`. -/
structure WorkerRun where
  jobId : String
  entered : Bool
  program : Async Unit

namespace WorkerRun

def start (instanceId jobId : String) : WorkerRun := ⟨jobId,false,Worker.run instanceId jobId⟩

def settled (run : WorkerRun) : Bool :=
  match run.program with
  | .settled _ => true
  | .await _ _ => false

def executing (run : WorkerRun) : Bool := run.entered && !run.settled

/-- The document is found, and `execute` is called with it. -/
def enters : (op : Op) → Except Thrown op.Reply → Bool
  | .findByJobId _, .ok (some _) => true
  | _, _ => false

def serve (ω : Oracle) (w : World) (run : WorkerRun) : World × WorkerRun :=
  match run.program with
  | .settled _ => (w,run)
  | .await op resume =>
    let answer := perform op ω w
    (answer.2,⟨run.jobId,run.entered || enters op answer.1,resume answer.1⟩)

@[simp] theorem serve_jobId (ω : Oracle) (w : World) (run : WorkerRun) :
    (run.serve ω w).2.jobId = run.jobId := by
  unfold serve
  split <;> rfl

end WorkerRun

/-- The loop, the runs of each batch in flight, and the runs of the batches that have
settled. -/
structure WorkerPool where
  poll : PollState
  runs : List (List WorkerRun)
  past : List WorkerRun

inductive WorkerTurn where
  | poll (turn : PollTurn)
  | serve (batch index : Nat) (oracle : Oracle)

namespace WorkerPool

def start (world : World) : WorkerPool := ⟨PollLoop.start world,[],[]⟩

/-- The calls of `execute` in flight, whatever batch they belong to. -/
def executing (s : WorkerPool) : Nat := (s.runs.flatten ++ s.past).countP WorkerRun.executing

/-- A new batch starts its runs at once. A batch settles, by `Promise.allSettled`, when
all of its runs have settled. -/
def step (instanceId : String) (s : WorkerPool) : WorkerTurn → WorkerPool
  | .poll (.event batch) =>
    match s.runs[batch]? with
    | none => s
    | some runs =>
      if runs.all WorkerRun.settled then
        { poll := (PollLoop.loop instanceId).step s.poll (.event batch)
          runs := s.runs.eraseIdx batch
          past := s.past ++ runs }
      else s
  | .poll turn =>
    let poll := (PollLoop.loop instanceId).step s.poll turn
    { s with
      poll := poll
      runs := s.runs ++ (poll.fields.batches.drop s.runs.length).map fun jobIds =>
        jobIds.map (WorkerRun.start instanceId) }
  | .serve batch index ω =>
    match s.runs[batch]? with
    | none => s
    | some runs =>
      match runs[index]? with
      | none => s
      | some run =>
        let served := run.serve ω s.poll.world
        { s with
          poll := (PollLoop.loop instanceId).step s.poll (.others fun _ => served.1)
          runs := s.runs.set batch (runs.set index served.2) }

def transition (instanceId : String) : Transition WorkerPool WorkerTurn := ⟨step instanceId⟩

end WorkerPool

/-- The counter is the sum of the lengths of the batches in flight, and subtracting any of
them does not need to stop at zero. -/
structure ExactSlots (fields : PollFields) : Prop where
  sum : fields.activeJobs = fields.batches.flatten.length
  unclamped : ∀ jobIds ∈ fields.batches,
    max 0 ((fields.activeJobs : Int) - jobIds.length) = fields.activeJobs - jobIds.length

/-- The runs in flight are those of the batches in flight, id for id, and no other run is
still going on. -/
structure Pooled (s : WorkerPool) : Prop where
  counted : Counted s.poll
  runs : s.runs.map (List.map WorkerRun.jobId) = s.poll.fields.batches
  past : ∀ run ∈ s.past, run.settled = true

section Pool

variable {instanceId : String} {s : PollState}

theorem Accounts.exact {fields : PollFields} (accounts : Accounts fields) : ExactSlots fields where
  sum := accounts.counter
  unclamped jobIds member := by
    have below : jobIds.length ≤ fields.activeJobs := by
      rw [accounts.counter]
      exact (List.sublist_flatten_of_mem member).length_le
    omega

theorem advance_batches (ω : Oracle) (program : Async Unit) :
    s.fields.batches <+: ((PollLoop.loop instanceId).advance ω s program).1.fields.batches := by
  induction program generalizing s with
  | settled result => exact List.prefix_rfl
  | await op resume ih =>
    unfold advance
    split
    · refine List.IsPrefix.trans ?_ (ih ..)
      cases op with
      | dispatch => exact List.prefix_append ..
      | _ => exact List.prefix_rfl
    · exact List.prefix_rfl

theorem step_batches (instanceId : String) (s : PollState) {turn : PollTurn} (running : ∀ batch, turn ≠ .event batch) :
    s.fields.batches <+: ((PollLoop.loop instanceId).step s turn).fields.batches := by
  have moves := (PollLoop.loop instanceId).step_moves s turn
  generalize (PollLoop.loop instanceId).step s turn = t at moves
  cases moves with
  | idle | start | stop | serve | others => exact List.prefix_rfl
  | event batch => exact absurd rfl (running batch)
  | fire index ω => exact advance_batches (s := { s with armed := s.armed.eraseIdx index }) ω _
  | resume index ω => exact advance_batches (s := s) ω _
  | conclude =>
    rw [conclude_fields]

theorem map_set_same {α β : Type} {f : α → β} {list : List α} {index : Nat} {a b : α}
    (found : list[index]? = some a) (same : f b = f a) : (list.set index b).map f = list.map f := by
  obtain ⟨inside,rfl⟩ := List.getElem?_eq_some_iff.mp found
  rw [List.map_set,same,← List.getElem_map f (h := by simpa using inside),List.set_getElem_self]

theorem pooled_start (world : World) : Pooled (WorkerPool.start world) where
  counted := counted_start world
  runs := rfl
  past := by simp [WorkerPool.start]

theorem pooled_poll {s : WorkerPool} {turn : PollTurn} (running : ∀ batch, turn ≠ .event batch)
    (pooled : Pooled s) : Pooled (WorkerPool.step instanceId s (.poll turn)) := by
  obtain ⟨counted,runs,past⟩ := pooled
  have stepped : WorkerPool.step instanceId s (.poll turn) =
      { s with
        poll := (PollLoop.loop instanceId).step s.poll turn
        runs := s.runs ++ ((((PollLoop.loop instanceId).step s.poll turn).fields.batches.drop
          s.runs.length).map fun jobIds => jobIds.map (WorkerRun.start instanceId)) } := by
    cases turn with
    | event batch => exact absurd rfl (running batch)
    | _ => rfl
  rw [stepped]
  refine ⟨counted_step instanceId s.poll turn counted,?_,past⟩
  obtain ⟨added,grown⟩ := step_batches instanceId s.poll running
  have as_many : s.runs.length = s.poll.fields.batches.length := by
    rw [← runs,List.length_map]
  dsimp only
  rw [← grown,as_many,List.drop_left,List.map_append,runs]
  simp [WorkerRun.start,Function.comp_def]

theorem pooled_step (s : WorkerPool) (turn : WorkerTurn) (pooled : Pooled s) :
    Pooled (WorkerPool.step instanceId s turn) := by
  cases turn with
  | poll turn =>
    cases turn with
    | event batch =>
      unfold WorkerPool.step
      dsimp only
      split
      · exact pooled
      · rename_i runs found
        split
        · rename_i settled
          obtain ⟨counted,ids,past⟩ := pooled
          refine ⟨counted_step instanceId s.poll (.event batch) counted,?_,fun run member => ?_⟩
          · have given : s.poll.fields.batches[batch]? = some (runs.map WorkerRun.jobId) := by
              rw [← ids,List.getElem?_map,found]
              rfl
            change (s.runs.eraseIdx batch).map (List.map WorkerRun.jobId) =
              (PollLoop.settle batch s.poll.fields).batches
            rw [PollLoop.settle,given,← ids,List.eraseIdx_map]
          · rcases List.mem_append.mp member with old | new
            · exact past run old
            · exact List.all_eq_true.mp settled run new
        · exact pooled
    | _ => exact pooled_poll (by rintro _ ⟨⟩) pooled
  | serve batch index ω =>
    unfold WorkerPool.step
    dsimp only
    split
    · exact pooled
    · rename_i runs found
      split
      · exact pooled
      · rename_i run here
        obtain ⟨counted,ids,past⟩ := pooled
        refine ⟨counted_step instanceId s.poll (.others fun _ => (run.serve ω s.poll.world).1) counted,
          ?_,past⟩
        exact (map_set_same found (map_set_same here (WorkerRun.serve_jobId ω s.poll.world run))).trans
          ids

/-- No more calls of `execute` are in flight than the counter says. -/
theorem Pooled.bounded {s : WorkerPool} (pooled : Pooled s) :
    s.executing ≤ s.poll.fields.activeJobs := by
  obtain ⟨counted,ids,past⟩ := pooled
  have idle : s.past.countP WorkerRun.executing = 0 := by
    refine List.countP_eq_zero.mpr fun run member => ?_
    simp [WorkerRun.executing,past run member]
  calc s.executing = s.runs.flatten.countP WorkerRun.executing := by
        rw [WorkerPool.executing,List.countP_append,idle,Nat.add_zero]
    _ ≤ s.runs.flatten.length := List.countP_le_length
    _ = (s.runs.map (List.map WorkerRun.jobId)).flatten.length := by
        rw [← List.map_flatten,List.length_map]
    _ = s.poll.fields.activeJobs := by rw [ids,counted.fields.counter]

end Pool

/-- The batches that the ticks have dispatched, newest first. -/
def dispatched (acts : List (TimerLoop.Act signature Oracle)) : List (List String) :=
  acts.filterMap fun act =>
    match act with
    | .runs (.dispatch _ jobIds _) => some jobIds
    | _ => none

section Dispatched

variable {instanceId : String} {settled : List (List String)}

/-- What has been dispatched is in flight or has settled. -/
def Dispatches (settled : List (List String)) (s : PollState) : Prop :=
  (dispatched s.acts).Perm (s.fields.batches ++ settled)

theorem advance_dispatches {s : PollState} (ω : Oracle) (program : Async Unit)
    (dispatches : Dispatches settled s) :
    Dispatches settled ((PollLoop.loop instanceId).advance ω s program).1 := by
  induction program generalizing s with
  | settled result => exact dispatches
  | await op resume ih =>
    unfold advance
    split
    · refine ih _ ?_
      cases op with
      | dispatch own jobIds jobType =>
        have begun : ((s.fields.batches ++ [jobIds]) ++ settled).Perm
            (jobIds :: (s.fields.batches ++ settled)) := by
          rw [List.append_assoc]
          exact List.perm_middle
        exact (dispatches.cons jobIds).trans begun.symm
      | _ => exact dispatches
    · exact dispatches

theorem step_dispatches {s : PollState} {turn : PollTurn} (running : ∀ batch, turn ≠ .event batch)
    (dispatches : Dispatches settled s) :
    Dispatches settled ((PollLoop.loop instanceId).step s turn) := by
  have moves := (PollLoop.loop instanceId).step_moves s turn
  generalize (PollLoop.loop instanceId).step s turn = t at moves
  cases moves with
  | idle | start | stop | serve | others => exact dispatches
  | event batch => exact absurd rfl (running batch)
  | fire index ω id found =>
    exact advance_dispatches (s := { s with armed := s.armed.eraseIdx index }) ω _ dispatches
  | resume index ω => exact advance_dispatches ω _ dispatches
  | conclude index ω result found =>
    unfold conclude
    split
    · split <;> exact dispatches
    · exact dispatches

theorem settle_dispatches {s : PollState} {batch : Nat} {jobIds : List String}
    (found : s.fields.batches[batch]? = some jobIds) (dispatches : Dispatches settled s) :
    Dispatches (settled ++ [jobIds]) ((PollLoop.loop instanceId).step s (.event batch)) := by
  have fields : ((PollLoop.loop instanceId).step s (.event batch)).fields.batches =
      s.fields.batches.eraseIdx batch := by
    change (PollLoop.settle batch s.fields).batches = _
    rw [PollLoop.settle,found]
  obtain ⟨inside,rfl⟩ := List.getElem?_eq_some_iff.mp found
  have taken := List.getElem_cons_eraseIdx_perm inside
  rw [Dispatches,fields]
  refine dispatches.trans ((taken.symm.append_right settled).trans ?_)
  rw [← List.append_assoc]
  exact (List.perm_append_singleton _ _).symm

/-- The batches that the worker has been given and whose runs have all settled. -/
def BatchesSettle (s : WorkerPool) : Prop :=
  ∃ past : List (List WorkerRun), s.past = past.flatten ∧
    Dispatches (past.map (List.map WorkerRun.jobId)) s.poll

theorem settles_step (s : WorkerPool) (turn : WorkerTurn) (pooled : Pooled s) (settles : BatchesSettle s) :
    BatchesSettle (WorkerPool.step instanceId s turn) := by
  obtain ⟨past,flat,dispatches⟩ := settles
  cases turn with
  | poll turn =>
    cases turn with
    | event batch =>
      unfold WorkerPool.step
      dsimp only
      split
      · exact ⟨past,flat,dispatches⟩
      · rename_i runs found
        split
        · have given : s.poll.fields.batches[batch]? = some (runs.map WorkerRun.jobId) := by
            rw [← pooled.runs,List.getElem?_map,found]
            rfl
          refine ⟨past ++ [runs],by simp [flat],?_⟩
          rw [List.map_append]
          exact settle_dispatches given dispatches
        · exact ⟨past,flat,dispatches⟩
    | _ => exact ⟨past,flat,step_dispatches (by rintro _ ⟨⟩) dispatches⟩
  | serve batch index ω =>
    unfold WorkerPool.step
    dsimp only
    split
    · exact ⟨past,flat,dispatches⟩
    · split <;> exact ⟨past,flat,dispatches⟩

/-- In every run, each batch that a tick has dispatched is run by the worker once, id for id: its
runs are in flight, or all of them have settled. -/
theorem dispatched_once (instanceId : String) (world : World) (turns : List WorkerTurn) :
    ∀ t, (WorkerPool.transition instanceId).Reached (WorkerPool.start world) turns t →
      ∃ past : List (List WorkerRun), t.past = past.flatten ∧
        (dispatched t.poll.acts).Perm ((t.runs ++ past).map (List.map WorkerRun.jobId)) := by
  intro t reached
  obtain ⟨pooled,past,flat,dispatches⟩ := Transition.always_reached (fun s => Pooled s ∧ BatchesSettle s)
    (fun s turn whole => ⟨pooled_step s turn whole.1,settles_step s turn whole.1 whole.2⟩)
    ⟨pooled_start world,[],rfl,.refl _⟩ reached
  refine ⟨past,flat,?_⟩
  rw [List.map_append,pooled.runs]
  exact dispatches

end Dispatched

end JobScheduler
