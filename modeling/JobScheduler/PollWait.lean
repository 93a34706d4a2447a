import JobScheduler.Alone
import JobScheduler.Effects
import JobScheduler.Overtaking
import JobScheduler.PriorityPolicy
import Mathlib

/-! How long a due job waits. Every tick that is left alone brings a job that it does not take
forward by as many places as it had room for, and nothing brings it back but an id that is put
before it. So the room that ticks have had while it waits is bounded. -/
namespace JobScheduler

def PollLoop.room (activeJobs : Nat) : Nat :=
  if maxConcurrentJobs - activeJobs < minFreeSlots then 0
  else min (maxConcurrentJobs - activeJobs) pollBatchSize

def PollLoop.before (jobType : JobType) : List JobType := pollOrder.takeWhile (· ≠ jobType)

/-- An entry of another queue that is polled before a place, if it is due at the horizon. -/
def precedes (horizon : Int) (jobType : JobType) (place : Entry String) (other : JobType)
    (e : Entry String) : Bool :=
  0 ≤ e.score && (if other = jobType then e < place
    else other ∈ PollLoop.before jobType && e.score ≤ horizon)

def Op.overtakes (horizon : Int) (jobType : JobType) (place : Entry String) : Op → Bool
  | .zaddNX key score member | .zaddXX key score member =>
    PollLoop.pollOrder.any fun other =>
      key = queueKeyMap other && precedes horizon jobType place other (toLex (score,member))
  | _ => false

namespace World

variable (w : World) (horizon : Int) (jobType : JobType) (place : Entry String)

def ahead : Nat :=
  (PollLoop.pollOrder.map fun other =>
    (w.sortedSets (queueKeyMap other)).entries.countP (precedes horizon jobType place other)).sum

def lines : Prop := place ∈ (w.sortedSets (queueKeyMap jobType)).entries

instance lines.decidable : Decidable (w.lines jobType place) :=
  inferInstanceAs (Decidable (place ∈ (w.sortedSets (queueKeyMap jobType)).entries))

end World

section Ahead

variable {w w' : World} {horizon : Int} {jobType : JobType} {place : Entry String} {op : Op} {ω : Oracle}

theorem ahead_requeue
    (moved : ∀ key, w'.sortedSets key = op.requeue ω key (w.sortedSets key)) :
    w'.ahead horizon jobType place ≤
      w.ahead horizon jobType place + (op.overtakes horizon jobType place).toNat := by
  have apart : ∀ (key : String) (counts : JobType → Bool), PollLoop.pollOrder.Pairwise fun own other =>
      ¬((key = queueKeyMap own && counts own) = true ∧ (key = queueKeyMap other && counts other) = true) := by
    intro key counts
    refine List.Pairwise.imp ?_ (by decide : PollLoop.pollOrder.Nodup)
    rintro own other different ⟨first,second⟩
    have first := of_decide_eq_true (Bool.and_eq_true_iff.mp first).1
    have second := of_decide_eq_true (Bool.and_eq_true_iff.mp second).1
    exact different (queueKeyMap_injective (first.symm.trans second))
  cases op with
  | zaddNX key score member =>
    simp only [World.ahead,Op.overtakes]
    refine sum_map_le_add _ (fun other _ => ?_) (apart key _)
    simp only [moved,Op.requeue]
    by_cases own : key = queueKeyMap other
    · subst own
      cases ω.delivery.applies with
      | false => simp
      | true => simpa using SortedSet.countP_zaddNX_le _ score member
    · simp [own]
  | zaddXX key score member =>
    simp only [World.ahead,Op.overtakes]
    refine sum_map_le_add _ (fun other _ => ?_) (apart key _)
    simp only [moved,Op.requeue]
    by_cases own : key = queueKeyMap other
    · subst own
      cases ω.delivery.applies with
      | false => simp
      | true => simpa using SortedSet.countP_zaddXX_le _ score member
    · simp [own]
  | zrem key members =>
    refine Nat.le_add_right_of_le (List.sum_le_sum fun other _ => ?_)
    simp only [moved,Op.requeue]
    split
    · exact SortedSet.countP_zrem_le _ members
    · exact Nat.le_refl _
  | _ => simp [World.ahead,moved,Op.requeue]

theorem pollOrder_split (jobType : JobType) : ∃ later,
    PollLoop.pollOrder = PollLoop.before jobType ++ jobType :: later ∧
      jobType ∉ PollLoop.before jobType ∧ ∀ other ∈ later, other ≠ jobType ∧ other ∉ PollLoop.before jobType := by
  cases jobType <;> exact ⟨_,rfl,by decide,by decide⟩

theorem score_le {e : Entry String} (before : e < place) : e.score ≤ place.score := by
  rcases Prod.Lex.lt_iff.mp before with less | ⟨same,_⟩
  · exact less.le
  · exact same.le

theorem countP_before {other : JobType} (before : other ∈ PollLoop.before jobType)
    (different : other ≠ jobType) :
    (w.sortedSets (queueKeyMap other)).entries.countP (precedes horizon jobType place other) =
      (w.dueIds other horizon).length := by
  rw [World.dueIds,List.length_map,World.due,SortedSet.within,← List.countP_eq_length_filter]
  refine List.countP_congr fun e _ => ?_
  simp [precedes,before,different]

theorem due_idxOf (lines : w.lines jobType place) (nonneg : 0 ≤ place.score) (due : place.score ≤ horizon) :
    (w.dueIds jobType horizon).idxOf place.member =
      (w.sortedSets (queueKeyMap jobType)).entries.countP (precedes horizon jobType place jobType) := by
  have member : place ∈ w.due jobType horizon := SortedSet.mem_within.mpr ⟨lines,nonneg,due⟩
  have unique : ((w.due jobType horizon).map Entry.member).Nodup := World.dueIds_unique
  have sorted : (w.due jobType horizon).Pairwise (· < ·) :=
    ((SortedSet.within_sorted ..).and (List.Nodup.of_map _ unique)).imp fun both =>
      lt_of_le_of_ne both.1 both.2
  rw [World.dueIds,idxOf_map fun e stored same => List.inj_on_of_nodup_map unique stored member same,
    idxOf_sorted sorted member,World.due,SortedSet.within,List.countP_filter]
  refine List.countP_congr fun e _ => ?_
  simp only [precedes,if_true,Bool.and_eq_true,decide_eq_true_eq]
  constructor
  · rintro ⟨before,nonneg,_⟩
    exact ⟨nonneg,before⟩
  · rintro ⟨nonneg,before⟩
    exact ⟨before,nonneg,(score_le before).trans due⟩

theorem ahead_idxOf (lines : w.lines jobType place) (nonneg : 0 ≤ place.score)
    (due : place.score ≤ horizon) :
    (w.dueList horizon PollLoop.pollOrder).idxOf (jobType,place.member) = w.ahead horizon jobType place := by
  obtain ⟨later,order,new,others⟩ := pollOrder_split jobType
  have absent : (jobType,place.member) ∉ w.dueList horizon (PollLoop.before jobType) := by
    intro listed
    obtain ⟨other,before,here⟩ := List.mem_flatMap.mp listed
    obtain ⟨_,_,same⟩ := List.mem_map.mp here
    exact new ((Prod.mk.inj same).1 ▸ before)
  have here : (jobType,place.member) ∈ (w.dueIds jobType horizon).map fun jobId => (jobType,jobId) :=
    List.mem_map_of_mem (List.mem_map_of_mem (SortedSet.mem_within.mpr ⟨lines,nonneg,due⟩))
  have own : ((w.dueIds jobType horizon).map fun jobId => (jobType,jobId)).idxOf (jobType,place.member) =
      (w.dueIds jobType horizon).idxOf place.member :=
    idxOf_map (f := fun jobId => (jobType,jobId)) fun _ _ same => (Prod.mk.inj same).2
  have first : (PollLoop.before jobType).map (fun other =>
      (w.sortedSets (queueKeyMap other)).entries.countP (precedes horizon jobType place other)) =
      (PollLoop.before jobType).map fun other => (w.dueIds other horizon).length :=
    List.map_congr_left fun other before => countP_before before fun same => new (same ▸ before)
  have last : ∀ n ∈ later.map (fun other =>
      (w.sortedSets (queueKeyMap other)).entries.countP (precedes horizon jobType place other)), n = 0 := by
    intro n counted
    obtain ⟨other,member,rfl⟩ := List.mem_map.mp counted
    obtain ⟨different,behind⟩ := others other member
    simp [precedes,different,behind]
  rw [World.ahead,order,World.dueList,List.flatMap_append,List.flatMap_cons]
  rw [List.map_append,List.sum_append,List.map_cons,List.sum_cons,first,List.sum_eq_zero last]
  rw [World.dueList] at absent
  rw [List.idxOf_append_of_notMem absent,List.idxOf_append_of_mem here,own,
    due_idxOf lines nonneg due,List.length_flatMap]
  simp

theorem chosen_eq (now : Int) (activeJobs : Nat) : w.chosen now activeJobs =
    (w.dueList now PollLoop.pollOrder).take (PollLoop.room activeJobs) := by
  rw [World.chosen,PollLoop.room]
  split
  · exact List.take_zero.symm
  · rfl

theorem dueList_later {now : Int} (earlier : now ≤ horizon) (jobTypes : List JobType) :
    (w.dueList now jobTypes).Sublist (w.dueList horizon jobTypes) := by
  refine List.Sublist.flatMap_right jobTypes fun other _ => List.Sublist.map _ (List.Sublist.map _ ?_)
  refine List.monotone_filter_right _ fun e due => ?_
  obtain ⟨nonneg,due⟩ := of_decide_eq_true due
  exact decide_eq_true ⟨nonneg,due.trans earlier⟩

theorem dueList_taken {taken : List (JobType × String)} (takes : w.Takes taken w')
    (jobTypes : List JobType) :
    w'.dueList horizon jobTypes = (w.dueList horizon jobTypes).filter (· ∉ taken) := by
  rw [World.dueList,World.dueList,List.filter_flatMap]
  refine List.flatMap_congr fun other _ => ?_
  rw [World.dueIds,World.dueIds,World.due,World.due,SortedSet.within,SortedSet.within,takes other]
  simp only [List.filter_map,List.filter_filter,Function.comp_def,Bool.and_comm]

/-- A tick that leaves a due job brings it forward by as many places as it had room for. -/
theorem ahead_takes {now : Int} {activeJobs : Nat} (takes : w.Takes (w.chosen now activeJobs) w')
    (left : (jobType,place.member) ∉ w.chosen now activeJobs) (lines : w.lines jobType place)
    (nonneg : 0 ≤ place.score) (due : place.score ≤ now) (earlier : now ≤ horizon) :
    w'.lines jobType place ∧
      w'.ahead horizon jobType place + PollLoop.room activeJobs ≤ w.ahead horizon jobType place := by
  have remains : w'.lines jobType place := by
    rw [World.lines,takes jobType]
    exact List.mem_filter.mpr ⟨lines,decide_eq_true left⟩
  have every : jobType ∈ PollLoop.pollOrder := by cases jobType <;> decide
  have waits : (jobType,place.member) ∈ w.dueList now PollLoop.pollOrder := by
    refine List.mem_flatMap.mpr ⟨jobType,every,List.mem_map_of_mem (List.mem_map_of_mem ?_)⟩
    exact SortedSet.mem_within.mpr ⟨lines,nonneg,due⟩
  have later := due.trans earlier
  rw [chosen_eq] at takes left
  refine ⟨remains,?_⟩
  rw [← ahead_idxOf remains nonneg later,← ahead_idxOf lines nonneg later,dueList_taken takes]
  exact idxOf_served (dueList_later earlier _) (World.dueList_nodup (by decide)) waits left

end Ahead

/-- The step puts an id before this place. -/
def overtakes (horizon : Int) (jobType : JobType) (place : Entry String) (s : SystemState) :
    SystemLabel → Bool
  | .resume index _ => (s.awaits index).any fun op => op.overtakes horizon jobType place
  | _ => false

/-- Runs in which a place stays taken: the ticks that are left alone, at times at which it is due,
have `room` for so many ids and do not hand its own to the worker, and of the steps between them
so many overtake it. -/
inductive Waits (horizon : Int) (jobType : JobType) (place : Entry String) (s : SystemState) :
    Nat → Nat → SystemState → Prop where
  | start (lines : s.world.lines jobType place) : Waits horizon jobType place s 0 0 s
  | others {room overtaken : Nat} {t : SystemState} (waits : Waits horizon jobType place s room overtaken t)
      (label : SystemLabel) (lines : (System.machine.step t label).world.lines jobType place) :
      Waits horizon jobType place s room (overtaken + (overtakes horizon jobType place t label).toNat)
        (System.machine.step t label)
  | tick {room overtaken : Nat} {t : SystemState} (waits : Waits horizon jobType place s room overtaken t)
      (instanceId : String) (activeJobs : Nat) (oracles : Nat → Oracle) (answers : RedisAnswers oracles)
      (due : place.score ≤ (oracles 0).redisTime) (earlier : (oracles 0).redisTime ≤ horizon)
      (left : (jobType,place.member) ∉ (Program.trace perform (PollLoop.tick instanceId activeJobs)
        oracles t.world).flatMap Op.dispatched) :
      Waits horizon jobType place s (room + PollLoop.room activeJobs) overtaken
        (System.machine.run t (System.machine.serving t (.tick instanceId activeJobs) oracles))

section Run

variable {s t : SystemState} {horizon : Int} {jobType : JobType} {place : Entry String}

theorem ahead_step (label : SystemLabel) :
    (System.machine.step s label).world.ahead horizon jobType place ≤
      s.world.ahead horizon jobType place + (overtakes horizon jobType place s label).toNat := by
  have moves := System.machine.step_moves s label
  generalize System.machine.step s label = t at moves
  cases moves with
  | submit | idle | absent | crash => exact Nat.le_add_right ..
  | environment event => cases event <;> exact Nat.le_add_right ..
  | answer index ω call op rest found awaits =>
    have awaiting : s.awaits index = some op := State.awaits_eq_some.mpr ⟨call,rest,found,awaits⟩
    rw [overtakes,awaiting]
    exact ahead_requeue (perform_sortedSets op ω s.world)

theorem Waits.bounded (nonneg : 0 ≤ place.score) {room overtaken : Nat}
    (waits : Waits horizon jobType place s room overtaken t) :
    t.world.lines jobType place ∧ t.world.ahead horizon jobType place + room ≤
      s.world.ahead horizon jobType place + overtaken := by
  induction waits with
  | start lines => exact ⟨lines,Nat.le_refl _⟩
  | @others room overtaken t waits label lines ih =>
    have moved : (System.machine.step t label).world.ahead horizon jobType place ≤
        t.world.ahead horizon jobType place + (overtakes horizon jobType place t label).toNat :=
      ahead_step label
    refine ⟨lines,?_⟩
    omega
  | @tick room overtaken t waits instanceId activeJobs oracles answers due earlier left ih =>
    obtain ⟨takes,dispatches⟩ := PollLoop.tick_run answers instanceId activeJobs (w := t.world)
    rw [dispatches] at left
    have served : (System.machine.run t (System.machine.serving t (.tick instanceId activeJobs)
        oracles)).world = (Program.eval perform (PollLoop.tick instanceId activeJobs) oracles t.world).world :=
      Machine.serving_world (Request.tick instanceId activeJobs)
    obtain ⟨remains,forward⟩ := ahead_takes takes left ih.1 nonneg due earlier
    rw [served]
    refine ⟨remains,?_⟩
    omega

/-- However the calls interleave: the ticks that are left alone and do not hand a due job to the
worker have had no more room than there were ids before it, and ids put before it since. -/
theorem bounded_wait (nonneg : 0 ≤ place.score) {room overtaken : Nat}
    (waits : Waits horizon jobType place s room overtaken t) :
    room ≤ s.world.ahead horizon jobType place + overtaken :=
  (Nat.le_add_left ..).trans (waits.bounded nonneg).2

end Run

/-- The report waits behind twelve payouts. -/
def crowded : World :=
  reportDue.updateSet (queueKeyMap .payoutBatch)
    ((List.range 12).foldl (fun set n => set.put n (toString n)) SortedSet.empty)

/-- A tick that has room for ten leaves the report. -/
theorem bounded_wait_report : ∃ t,
    Waits 20 .scheduledReport (toLex (0,reportId)) (initial crowded) 10 0 t ∧
      10 ≤ crowded.ahead 20 .scheduledReport (toLex (0,reportId)) := by
  have waits : Waits 20 .scheduledReport (toLex (0,reportId)) (initial crowded) _ _ _ :=
    .tick (.start (by decide +kernel)) "a" 90 (fun _ => calm 20) (fun _ => rfl) (by decide)
      (by decide) (by decide +kernel)
  exact ⟨_,waits,bounded_wait (by decide) waits⟩

end JobScheduler
