import JobScheduler.Effects
import JobScheduler.IdempotencyKey
import JobScheduler.Vocabulary

/-! Tenants. No job id contains the tenant, so a submission meets what another tenant has
stored under its id; what is stored under other ids makes no difference to it. -/
namespace JobScheduler

open JobRepository

/-- A submission with all that its environment decides. -/
structure Submitted where
  request : CreateJobRequest
  oracles : Nat → Oracle

namespace Submitted

def jobId (submitted : Submitted) : Option String :=
  JobService.jobId submitted.request (submitted.oracles 0).uuid

def run (submitted : Submitted) (world : World) : Program.Ran Thrown IJob Oracle World :=
  Program.eval perform (JobService.enqueue submitted.request) submitted.oracles world

def runAll (earlier : List Submitted) (world : World) : World :=
  earlier.foldl (fun world submitted => (submitted.run world).world) world

def foreign (own other : Submitted) : Bool :=
  other.request.tenantId ≠ own.request.tenantId && other.jobId ≠ own.jobId

end Submitted

/-- What the work of a job id rests on: its document, and its scores in the queues. -/
structure AgreeOn (jobId : String) (w w' : World) : Prop where
  document : w.jobs.lookup jobId = w'.jobs.lookup jobId
  scores : ∀ key, (w.sortedSets key).score? jobId = (w'.sortedSets key).score? jobId

def Op.submitsAs (jobId : String) : Op → Bool
  | .job (.createJob input) => input.jobId = jobId
  | .zaddNX _ _ member => member = jobId
  | .publish _ _ => true
  | _ => false

theorem Within.submit (definition : JobDefinition) (request : CreateJobRequest) (jobId : String) :
    Within (Op.submitsAs jobId) (JobService.submit definition request jobId) := by
  refine bind (await ?_) fun job => bind (bind (await ?_) fun _ => pure _) fun _ => ?_
  · exact decide_eq_true rfl
  · exact decide_eq_true rfl
  · exact bind (await rfl) fun _ => pure _

section Operations

variable {jobId other : String} {op : Op} {ω : Oracle} {w w' : World}

theorem agree_perform (ω : Oracle) (w : World) (listed : op.submitsAs other = true)
    (different : other ≠ jobId) : AgreeOn jobId (perform op ω w).2 w where
  document := by
    rw [perform_lookup]
    cases op with
    | job write =>
      cases write with
      | createJob input =>
        have target : input.jobId ≠ jobId := (of_decide_eq_true listed) ▸ different
        cases found : w.jobs.lookup jobId <;>
          simp [Op.update,JobWrite.update,JobWrite.selects,target]
      | _ => cases listed
    | _ => rfl
  scores := by
    intro key
    rw [perform_sortedSets]
    cases op with
    | zaddNX added score member =>
      have target : jobId ≠ member := (of_decide_eq_true listed).symm ▸ different.symm
      simp only [Op.requeue]
      split
      · simp [SortedSet.score?_zaddNX,target]
      · rfl
    | zaddXX | zrem => cases listed
    | _ => rfl

theorem AgreeOn.queued (agree : AgreeOn jobId w w') (key : String) :
    jobId ∈ (w.sortedSets key).members ↔ jobId ∈ (w'.sortedSets key).members := by
  rw [SortedSet.mem_members_iff,SortedSet.mem_members_iff,agree.scores key]

theorem AgreeOn.reply (ω : Oracle) (listed : op.submitsAs jobId = true) (agree : AgreeOn jobId w w') :
    (perform op ω w).1 = (perform op ω w').1 := by
  cases op with
  | job write =>
    cases write with
    | createJob input =>
      have target : (inserted input).jobId = jobId := of_decide_eq_true listed
      have same : (JobRepository.createJob w.jobs input).1 =
          (JobRepository.createJob w'.jobs input).1 := by
        rw [JobRepository.createJob,JobRepository.createJob,Collection.upsert_fst,
          Collection.upsert_fst,target,agree.document]
      simp only [perform,JobWrite.run]
      cases ω.delivery with
      | performed => exact congrArg Except.ok same
      | lost | unacknowledged => rfl
    | _ => cases listed
  | zaddNX key score member =>
    obtain rfl : member = jobId := of_decide_eq_true listed
    have queued := agree.queued key
    simp only [perform,SortedSet.zaddNX]
    by_cases present : member ∈ (w.sortedSets key).members
    · rw [if_pos present,if_pos (queued.mp present)]
      cases ω.delivery <;> rfl
    · rw [if_neg present,if_neg fun there => present (queued.mpr there)]
      cases ω.delivery <;> rfl
  | publish key payload =>
    simp only [perform]
    cases ω.publish <;> rfl
  | _ => cases listed

theorem AgreeOn.scores_perform (ω : Oracle) (listed : op.submitsAs jobId = true)
    (agree : AgreeOn jobId w w') (key : String) :
    ((perform op ω w).2.sortedSets key).score? jobId =
      ((perform op ω w').2.sortedSets key).score? jobId := by
  rw [perform_sortedSets,perform_sortedSets]
  cases op with
  | zaddNX added score member =>
    obtain rfl : member = jobId := of_decide_eq_true listed
    simp only [Op.requeue]
    split
    · simp only [SortedSet.score?_zaddNX,agree.queued key,agree.scores key]
    · exact agree.scores key
  | zaddXX | zrem => cases listed
  | _ => exact agree.scores key

theorem agree_perform_same (ω : Oracle) (listed : op.submitsAs jobId = true)
    (agree : AgreeOn jobId w w') : (perform op ω w).1 = (perform op ω w').1 ∧
      AgreeOn jobId (perform op ω w).2 (perform op ω w').2 := by
  refine ⟨agree.reply ω listed,?_,agree.scores_perform ω listed⟩
  rw [perform_lookup,perform_lookup,agree.document]

end Operations

/-- A submission that computes an id goes on as a submission under that id. -/
theorem run_keyed {submitted : Submitted} {jobId : String} (computed : submitted.jobId = some jobId) :
    ∃ definition later, ∀ world, submitted.run world = Program.eval perform
      (JobService.submit definition submitted.request jobId) later world := by
  obtain ⟨request,oracles⟩ := submitted
  obtain ⟨definition,known⟩ := JobService.known request
  simp only [Submitted.jobId,JobService.jobId_eq] at computed
  cases own : request.ownType with
  | false =>
    rw [own] at computed
    obtain rfl := Option.some.inj computed
    refine ⟨definition,fun n => oracles (n + 1),fun world => ?_⟩
    rw [Submitted.run,JobService.enqueue_eq known,own]
    rfl
  | true =>
    rw [own] at computed
    refine ⟨definition,oracles,fun world => ?_⟩
    have keyed : request.payload.key request.jobType = some jobId := computed
    rw [Submitted.run,JobService.enqueue_eq known,own,keyed]
    rfl

theorem run_keyless {submitted : Submitted} (computed : submitted.jobId = none) (world : World) :
    (submitted.run world).result = .error typeError ∧ (submitted.run world).world = world := by
  obtain ⟨request,oracles⟩ := submitted
  obtain ⟨definition,known⟩ := JobService.known request
  simp only [Submitted.jobId,JobService.jobId_eq] at computed
  cases own : request.ownType with
  | false =>
    rw [own] at computed
    cases computed
  | true =>
    rw [own] at computed
    have keyless : request.payload.key request.jobType = none := computed
    rw [Submitted.run,JobService.enqueue_eq known,own,keyless]
    exact ⟨rfl,rfl⟩

section Runs

variable {submitted : Submitted} {jobId : String} {w w' : World}

theorem AgreeOn.refl (jobId : String) (w : World) : AgreeOn jobId w w := ⟨rfl,fun _ => rfl⟩

theorem AgreeOn.trans {w'' : World} (first : AgreeOn jobId w w') (second : AgreeOn jobId w' w'') :
    AgreeOn jobId w w'' :=
  ⟨first.document.trans second.document,fun key => (first.scores key).trans (second.scores key)⟩

theorem AgreeOn.symm (agree : AgreeOn jobId w w') : AgreeOn jobId w' w :=
  ⟨agree.document.symm,fun key => (agree.scores key).symm⟩

theorem run_other (other : submitted.jobId ≠ some jobId) (w : World) :
    AgreeOn jobId (submitted.run w).world w := by
  cases computed : submitted.jobId with
  | none =>
    rw [(run_keyless computed w).2]
    exact AgreeOn.refl jobId w
  | some own =>
    obtain ⟨definition,later,same⟩ := run_keyed computed
    have different : own ≠ jobId := fun is => other (is ▸ computed)
    rw [same]
    exact Program.eval_uses (fun later => AgreeOn jobId later w)
      (Within.submit definition submitted.request own)
      (fun op ω world listed agree => (agree_perform ω world listed different).trans agree)
      (AgreeOn.refl jobId w)

theorem run_agree (computed : submitted.jobId = some jobId) (agree : AgreeOn jobId w w') :
    (submitted.run w).result = (submitted.run w').result ∧
      AgreeOn jobId (submitted.run w).world (submitted.run w').world := by
  obtain ⟨definition,later,same⟩ := run_keyed computed
  rw [same,same]
  exact Program.eval_alike (Within.submit definition submitted.request jobId)
    (fun op ω _ _ listed agree => agree_perform_same ω listed agree) agree

theorem runAll_filter (earlier : List Submitted) (keep : Submitted → Bool)
    (others : ∀ submitted, keep submitted = false → submitted.jobId ≠ some jobId)
    (agree : AgreeOn jobId w w') :
    AgreeOn jobId (Submitted.runAll earlier w) (Submitted.runAll (earlier.filter keep) w') := by
  induction earlier generalizing w w' with
  | nil => exact agree
  | cons submitted earlier ih =>
    cases kept : keep submitted with
    | false =>
      rw [List.filter_cons_of_neg (by simp [kept])]
      exact ih ((run_other (others submitted kept) w).trans agree)
    | true =>
      rw [List.filter_cons_of_pos kept]
      by_cases same : submitted.jobId = some jobId
      · exact ih (run_agree same agree).2
      · exact ih (((run_other same w).trans agree).trans (run_other same w').symm)

/-- After the creation a submission returns the created document, or fails. -/
theorem created_returns {request : CreateJobRequest} {created job : IJob} {oracles : Nat → Oracle}
    (returned : (Program.eval perform (do
      let _ ← RedisJobQueue.enqueue request.jobType jobId request.scheduledAt
      publishToExchange .jobScheduled (.scheduled created.jobId created.jobType created.tenantId
        created.scheduledAt created.nextRunAt created.priority)
      pure created : Async IJob) oracles w).result = .ok job) : created = job := by
  rw [Program.eval_bind,Program.Ran.thenEval] at returned
  split at returned
  · rw [Program.eval_bind,Program.Ran.thenEval] at returned
    split at returned
    · exact Except.ok.inj returned
    · cases returned
  · cases returned

theorem submit_returns {definition : JobDefinition} {request : CreateJobRequest} {job : IJob}
    {oracles : Nat → Oracle} (returned : (Program.eval perform
      (JobService.submit definition request jobId) oracles w).result = .ok job) :
    job = (JobRepository.createJob w.jobs (JobService.input definition request jobId)).1 := by
  rw [JobService.submit,Program.eval_bind,Program.Ran.thenEval] at returned
  split at returned
  · rename_i created replied
    obtain ⟨_,answer⟩ := deliver_ok replied
    rw [← created_returns returned]
    exact (Except.ok.inj answer).symm
  · cases returned

/-- The document that a submission returns is of its tenant, unless another tenant's
document is stored under its id. -/
theorem run_tenant {job : IJob} (returned : (submitted.run w).result = .ok job) :
    job.tenantId = submitted.request.tenantId ∨
      ∃ jobId ∈ submitted.jobId, w.jobs.lookup jobId = some job := by
  cases computed : submitted.jobId with
  | none =>
    rw [(run_keyless computed w).1] at returned
    cases returned
  | some jobId =>
    obtain ⟨definition,later,same⟩ := run_keyed computed
    rw [same] at returned
    have created := submit_returns returned
    rw [JobRepository.createJob,Collection.upsert_fst] at created
    cases found : w.jobs.lookup jobId with
    | none =>
      have absent : w.jobs.lookup
          (inserted (JobService.input definition submitted.request jobId)).jobId = none := found
      rw [absent] at created
      exact .inl (created ▸ rfl)
    | some stored =>
      have present : w.jobs.lookup
          (inserted (JobService.input definition submitted.request jobId)).jobId = some stored := found
      rw [present] at created
      exact .inr ⟨jobId,rfl,found.trans (congrArg some created.symm)⟩

end Runs

/-- The outcome of a submission and the schedule of its work do not depend on what other
tenants have submitted before under other ids, and the document that it returns is of its
tenant or was there under its id before. -/
theorem tenants_separate (world : World) (earlier : List Submitted) (own : Submitted) :
    let before := Submitted.runAll earlier world
    let without := Submitted.runAll (earlier.filter fun other => !own.foreign other) world
    (∀ job, (own.run before).result = .ok job → job.tenantId = own.request.tenantId ∨
      ∃ jobId ∈ own.jobId, before.jobs.lookup jobId = some job) ∧
    (own.run before).result = (own.run without).result ∧
    ∀ jobId ∈ own.jobId, AgreeOn jobId (own.run before).world (own.run without).world := by
  refine ⟨fun job returned => run_tenant returned,?_⟩
  cases computed : own.jobId with
  | none =>
    exact ⟨(run_keyless computed _).1.trans (run_keyless computed _).1.symm,nofun⟩
  | some jobId =>
    have others : ∀ other, (!own.foreign other) = false → other.jobId ≠ some jobId := by
      intro other foreign
      simp only [Submitted.foreign,Bool.not_eq_false',Bool.and_eq_true,decide_eq_true_eq,
        computed] at foreign
      exact foreign.2
    have agree := runAll_filter earlier _ others (AgreeOn.refl jobId world)
    have alike := run_agree computed agree
    refine ⟨alike.1,?_⟩
    rintro _ ⟨⟩
    exact alike.2

def otherReport : CreateJobRequest := { reportRequest with tenantId := "other" }

/-- The report of one tenant is taken for the same report of another. -/
theorem report_shared : ¬ ∀ (earlier : List Submitted) (own : Submitted) (job : IJob),
    (own.run (Submitted.runAll earlier World.empty)).result = .ok job →
      job.tenantId = own.request.tenantId := by
  intro separate
  have same := separate [⟨reportRequest,fun n => calm n⟩] ⟨otherReport,fun n => calm n⟩ _ rfl
  exact absurd same (by decide +kernel)

end JobScheduler
