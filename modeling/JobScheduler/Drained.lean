import JobScheduler.Dequeue
import JobScheduler.Effects
import JobScheduler.Vocabulary

/-! What a short batch leaves behind. The range of a dequeue starts at score zero, so a
member with an earlier score is due, is never read and stays in its queue. -/
namespace JobScheduler

open RedisJobQueue

namespace World

/-- The queue after these requests, whatever became of the calls that each made. -/
def enqueuing : List (CreateJobRequest × (Nat → Oracle)) → World → World
  | [], w => w
  | (request,oracles) :: rest, w =>
    enqueuing rest (Program.eval perform (JobService.enqueue request) oracles w).world

variable (w : World) (jobType : JobType)

abbrev queued : List (Entry String) := (w.sortedSets (queueKeyMap jobType)).entries

/-- An uninterrupted dequeue that returns fewer ids than it may leaves nothing due. -/
def Drains (nowMs : Int) : Prop :=
  ∀ count oracles, 1 ≤ count → RedisAnswers oracles → ∀ jobIds,
    (Program.eval perform (dequeue jobType nowMs count) oracles w).result = .ok jobIds →
    jobIds.length < count →
    ∀ e ∈ (Program.eval perform (dequeue jobType nowMs count) oracles w).world.queued jobType,
      nowMs < e.score

/-- As many dequeues from this time on as there are members return the id. -/
def Delivers (nowMs : Int) (jobId : String) : Prop :=
  ∀ rounds oracles, RedisAnswers oracles → (∀ round ∈ rounds, nowMs ≤ round.1 ∧ 1 ≤ round.2) →
    (w.queued jobType).length ≤ rounds.length → ∃ jobIds,
      (Program.eval perform (dequeues jobType rounds) oracles w).result = .ok jobIds ∧
        jobId ∈ jobIds

variable {w jobType} {nowMs : Int}

theorem mem_dueIds {jobId : String} {score : Int}
    (found : (w.sortedSets (queueKeyMap jobType)).score? jobId = some score) :
    jobId ∈ w.dueIds jobType nowMs ↔ 0 ≤ score ∧ score ≤ nowMs := by
  have stored : (toLex (score,jobId) : Entry String) ∈ w.queued jobType :=
    SortedSet.score?_eq_some.mp found
  constructor
  · intro due
    obtain ⟨e,inside,rfl⟩ := List.mem_map.mp due
    obtain ⟨member,bounds⟩ := SortedSet.mem_within.mp inside
    obtain rfl : e.score = score :=
      Option.some.inj ((SortedSet.score?_eq_some.mpr member).symm.trans found)
    exact bounds
  · intro bounds
    exact List.mem_map.mpr ⟨_,SortedSet.mem_within.mpr ⟨stored,bounds⟩,rfl⟩

theorem drawn_from_zero {rounds : List (Int × Nat)} {jobId : String} {score : Int}
    (found : (w.sortedSets (queueKeyMap jobType)).score? jobId = some score)
    (drawn : jobId ∈ (drawn jobType rounds w).1) : 0 ≤ score := by
  induction rounds generalizing w with
  | nil => cases drawn
  | cons round rounds ih =>
    obtain ⟨nowMs,count⟩ := round
    rw [drawn_cons,List.mem_append] at drawn
    by_cases now : jobId ∈ (w.dueIds jobType nowMs).take count
    · exact ((mem_dueIds found).mp (List.mem_of_mem_take now)).1
    · refine ih ?_ (drawn.resolve_left now)
      rw [without_sortedSets,if_pos rfl,SortedSet.score?_zrem,if_neg now,found]

theorem drawn_in_time {rounds : List (Int × Nat)} {jobId : String} {score : Int}
    (found : (w.sortedSets (queueKeyMap jobType)).score? jobId = some score)
    (positive : 0 ≤ score) (late : ∀ round ∈ rounds, score ≤ round.1 ∧ 1 ≤ round.2)
    (enough : (w.queued jobType).length ≤ rounds.length) :
    jobId ∈ (World.drawn jobType rounds w).1 := by
  induction rounds generalizing w with
  | nil =>
    have none : w.queued jobType = [] := List.length_eq_zero_iff.mp (Nat.le_zero.mp enough)
    have stored : _ ∈ w.queued jobType := SortedSet.score?_eq_some.mp found
    rw [none] at stored
    cases stored
  | cons round rounds ih =>
    obtain ⟨nowMs,count⟩ := round
    obtain ⟨⟨due,some⟩,late⟩ := List.forall_mem_cons.mp late
    rw [drawn_cons,List.mem_append]
    by_cases now : jobId ∈ (w.dueIds jobType nowMs).take count
    · exact .inl now
    · refine .inr (ih ?_ late ?_)
      · rw [without_sortedSets,if_pos rfl,SortedSet.score?_zrem,if_neg now,found]
      · have listed : jobId ∈ w.dueIds jobType nowMs := (mem_dueIds found).mpr ⟨positive,due⟩
        have taken : 0 < ((w.dueIds jobType nowMs).take count).length := by
          rw [List.length_take]
          exact Nat.lt_min.mpr ⟨some,List.length_pos_of_mem listed⟩
        have fewer := (w.sortedSets (queueKeyMap jobType)).card_zrem_first 0 nowMs count
        rw [zrangebyscore_due] at fewer
        rw [queued,List.length_cons] at enough
        rw [queued,without_sortedSets,if_pos rfl]
        omega

theorem drains_iff : w.Drains jobType nowMs ↔ ∀ e ∈ w.queued jobType, e.score ≤ nowMs → 0 ≤ e.score := by
  constructor
  · intro drains e stored due
    obtain ⟨rest,-,ran⟩ := dequeue_run calm_answers jobType nowMs
      ((w.dueIds jobType nowMs).length + 1) (w := w)
    have left := drains ((w.dueIds jobType nowMs).length + 1) (calm ·) (Nat.succ_pos _)
      calm_answers _ (congrArg Program.Ran.result ran)
      (Nat.lt_succ_of_le (List.length_take_le' ..)) e
    rw [ran] at left
    by_contra negative
    refine absurd (left ?_) (Int.not_lt.mpr due)
    rw [queued,without_sortedSets,if_pos rfl,← zrangebyscore_due]
    exact (SortedSet.mem_zrem_first (.inl (Int.not_le.mp negative))).mpr stored
  · intro clean count oracles _ answers jobIds returned short e remains
    obtain ⟨rest,-,ran⟩ := dequeue_run answers jobType nowMs count (w := w)
    rw [ran] at returned remains
    obtain rfl := Except.ok.inj returned
    by_contra due
    have emptied : (w.without jobType ((w.dueIds jobType nowMs).take count)).dueIds jobType nowMs =
        [] := by
      rw [dueIds_without_first,List.drop_eq_nil_iff]
      rw [List.length_take] at short
      omega
    have stored : e ∈ w.queued jobType := by
      rw [queued,without_entries] at remains
      exact (List.mem_filter.mp remains).1
    have positive := clean e stored (Int.not_lt.mp due)
    have inside := List.mem_map_of_mem (f := Entry.member)
      (SortedSet.mem_within.mpr ⟨remains,positive,Int.not_lt.mp due⟩)
    change _ ∈ (w.without jobType ((w.dueIds jobType nowMs).take count)).dueIds jobType nowMs at inside
    rw [emptied] at inside
    cases inside

theorem delivers_iff {jobId : String} {score : Int}
    (found : (w.sortedSets (queueKeyMap jobType)).score? jobId = some score) (due : score ≤ nowMs) :
    w.Delivers jobType nowMs jobId ↔ 0 ≤ score := by
  constructor
  · intro delivers
    let rounds := List.replicate (w.queued jobType).length (nowMs,1)
    obtain ⟨jobIds,returned,listed⟩ := delivers rounds (calm ·) calm_answers
      (fun round member => by simp [List.eq_of_mem_replicate member]) (List.length_replicate).ge
    obtain ⟨rest,-,ran⟩ := dequeues_run calm_answers jobType rounds (w := w)
    rw [ran] at returned
    obtain rfl := Except.ok.inj returned
    exact drawn_from_zero found listed
  · intro positive rounds oracles answers late enough
    obtain ⟨rest,-,ran⟩ := dequeues_run answers jobType rounds (w := w)
    refine ⟨_,congrArg Program.Ran.result ran,drawn_in_time found positive (fun round member => ?_) enough⟩
    exact ⟨due.trans (late round member).1,(late round member).2⟩

end World

section Submitted

/-- The operation brings a member into a queue only for this type and this time. -/
def Op.QueuesAt (jobType : JobType) (scheduledAt : Int) (op : Op) : Prop :=
  ∀ (ω : Oracle) (key : String) (set : SortedSet String), ∀ e ∈ (op.requeue ω key set).entries,
    e ∈ set.entries ∨ key = queueKeyMap jobType ∧ e.score = scheduledAt

theorem zaddNX_queues (jobType : JobType) (scheduledAt : Int) (jobId : String) :
    Op.QueuesAt jobType scheduledAt (.zaddNX (queueKeyMap jobType) scheduledAt jobId) := by
  intro ω key set e stored
  simp only [Op.requeue] at stored
  split at stored
  · rename_i hits
    have here : key = queueKeyMap jobType := by
      simp only [Bool.and_eq_true,decide_eq_true_eq] at hits
      exact hits.2.symm
    have found := SortedSet.score?_eq_some.mpr stored
    change ((set.zaddNX scheduledAt jobId).2).score? e.member = some e.score at found
    rw [SortedSet.score?_zaddNX] at found
    split at found
    · exact .inr ⟨here,(Option.some.inj found).symm⟩
    · exact .inl (SortedSet.score?_eq_some.mp found)
  · exact .inl stored

theorem enqueue_queues (request : CreateJobRequest) :
    Program.Uses (σ := signature) (Op.QueuesAt request.jobType request.scheduledAt)
      (JobService.enqueue request) := by
  unfold JobService.enqueue
  split
  · exact Program.uses_throw _
  · rename_i definition known
    have key : Program.Uses (σ := signature) (Op.QueuesAt request.jobType request.scheduledAt)
        (definition.idempotencyKeyFn (JobService.spread request)) := by
      refine Program.Uses.mono (Within.idempotencyKeyFn known (JobService.spread request))
        fun op uuid => ?_
      rw [Within.eq_uuidv4 uuid]
      exact fun _ _ _ _ stored => .inl stored
    refine Program.Uses.bind key fun jobId => ?_
    refine Program.Uses.bind (uses_await fun _ _ _ _ stored => .inl stored) fun job => ?_
    refine Program.Uses.bind (Program.Uses.bind (uses_await (zaddNX_queues _ _ jobId)) fun _ =>
      Program.uses_pure _) fun _ => ?_
    exact Program.Uses.bind (uses_await fun _ _ _ _ stored => .inl stored) fun _ => Program.uses_pure _

theorem enqueue_scores {request : CreateJobRequest} {oracles : Nat → Oracle} {w : World}
    {jobType : JobType} {e : Entry String}
    (stored : e ∈ (Program.eval perform (JobService.enqueue request) oracles w).world.queued jobType) :
    e ∈ w.queued jobType ∨ request.jobType = jobType ∧ request.scheduledAt = e.score := by
  refine Program.eval_uses (fun v : World => ∀ e ∈ v.queued jobType, e ∈ w.queued jobType ∨
    request.jobType = jobType ∧ request.scheduledAt = e.score) (enqueue_queues request) ?_
    (fun _ => .inl) e stored
  intro op ω v queues kept e stored
  rw [World.queued,perform_sortedSets] at stored
  rcases queues ω _ _ e stored with before | ⟨here,dated⟩
  · exact kept e before
  · exact .inr ⟨(queueKeyMap_injective here).symm,dated.symm⟩

theorem enqueuing_scores {requests : List (CreateJobRequest × (Nat → Oracle))} {w : World}
    {jobType : JobType} {e : Entry String}
    (stored : e ∈ (World.enqueuing requests w).queued jobType) :
    e ∈ w.queued jobType ∨ ∃ request ∈ requests,
      request.1.jobType = jobType ∧ request.1.scheduledAt = e.score := by
  induction requests generalizing w with
  | nil => exact .inl stored
  | cons first rest ih =>
    obtain ⟨request,oracles⟩ := first
    rcases ih stored with before | ⟨later,member,dated⟩
    · exact (enqueue_scores before).imp_right fun dated => ⟨_,List.mem_cons_self,dated⟩
    · exact .inr ⟨later,List.mem_cons_of_mem _ member,dated⟩

/-- A queue that requests have built drains, and delivers what is due, exactly as far as
its scores are not negative; and its scores are the dates of the requests. -/
theorem short_batch_drains (requests : List (CreateJobRequest × (Nat → Oracle)))
    (jobType : JobType) (nowMs : Int) :
    let w := World.enqueuing requests World.empty
    (w.Drains jobType nowMs ↔ ∀ e ∈ w.queued jobType, e.score ≤ nowMs → 0 ≤ e.score) ∧
    (∀ jobId score, (w.sortedSets (queueKeyMap jobType)).score? jobId = some score →
      score ≤ nowMs → (w.Delivers jobType nowMs jobId ↔ 0 ≤ score)) ∧
    ∀ e ∈ w.queued jobType, ∃ request ∈ requests,
      request.1.jobType = jobType ∧ request.1.scheduledAt = e.score := by
  refine ⟨World.drains_iff,fun jobId score => World.delivers_iff,fun e stored => ?_⟩
  exact (enqueuing_scores stored).resolve_left List.not_mem_nil

end Submitted

def ancientReport : CreateJobRequest := { reportRequest with scheduledAt := -1000 }

/-- Its job is due at any time since then, and no dequeue finds it. -/
theorem ancient_report_stays :
    ¬ (World.enqueuing [(ancientReport,(calm ·))] World.empty).Drains .scheduledReport 0 ∧
    ¬ (World.enqueuing [(ancientReport,(calm ·))] World.empty).Delivers .scheduledReport 0
      reportId := by
  have queued : ((World.enqueuing [(ancientReport,(calm ·))] World.empty).sortedSets
      (queueKeyMap .scheduledReport)).score? reportId = some (-1000) := by
    decide +kernel
  constructor
  · intro drains
    have positive := World.drains_iff.mp drains _ (SortedSet.score?_eq_some.mp queued) (by decide)
    exact absurd positive (by decide)
  · intro delivers
    have positive := (World.delivers_iff queued (by decide)).mp delivers
    exact absurd positive (by decide)

end JobScheduler
