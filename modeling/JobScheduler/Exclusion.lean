import JobScheduler.Effects
import JobScheduler.ExecutePhase
import JobScheduler.Token

/-! Ownership of a job. The free document carries the token of its jobId, and winning
the claim takes it. Only a stale reset or an expiry issues it again. -/
namespace JobScheduler

open JobRepository

def resets (jobId : String) (s : SystemState) : SystemLabel → Bool
  | .resume index ω =>
    match s.awaits index with
    | some (.job (.resetStaleJobs cutoff)) =>
      ω.delivery.applies && (s.world.jobs.lookup jobId).any (stale cutoff)
    | _ => false
  | _ => false

def expires (jobId : String) (s : SystemState) : SystemLabel → Bool
  | .environment (.expireJobs now) =>
    (s.world.jobs.lookup jobId).any fun job => job.expiresAt.any (· ≤ now)
  | _ => false

/-- A set of phases that a call enters only by winning the claim of `jobId`. -/
structure Stage (jobId : String) where
  test : ExecutePhase → Bool
  idle : test .idle = false
  claimed : ∀ job, test (.claimed job) = true → job.jobId = jobId
  entered : ∀ phase op reply, test (ExecutePhase.next phase op reply) = true →
    test phase = true ∨ ∃ target version now job, phase = .idle ∧
      op = .job (.claimJob target version now) ∧ ExecutePhase.next phase op reply = .claimed job

theorem claimed_replies {target : String} {version : Nat} {now : Int} {job : IJob}
    {reply : Except Thrown (Option IJob)}
    (won : ExecutePhase.next .idle (.job (.claimJob target version now)) reply = .claimed job) :
    reply = .ok (some job) := by
  rcases reply with e | (_ | claimed)
  · cases won
  · cases won
  · cases won; rfl

theorem free_claimed {target : String} {version : Nat} {now : Int} {ω : Oracle} {w : World}
    {job : IJob} (won : (perform (.job (.claimJob target version now)) ω w).1 = .ok (some job)) :
    job.jobId = target ∧ w.free target = true ∧
      (perform (.job (.claimJob target version now)) ω w).2.free target = false := by
  obtain ⟨performed,stored,found,passes,rfl⟩ := claimJob_replies won
  have pending : stored.status = .pending := by
    have both : stored.status = .pending ∧ stored.version = version := by
      simpa [claimable] using passes
    exact both.1
  have key : stored.jobId = target := Collection.lookup_key found
  refine ⟨key,?_,?_⟩
  · simp [World.free,found,pending]
  · have after := perform_lookup (.job (.claimJob target version now)) ω w target
    have selected : (JobWrite.claimJob target version now).selects stored = true := by
      simp [JobWrite.selects,key,passes]
    simp only [found,Op.update,performed,Delivery.applies,JobWrite.update,selected] at after
    rw [World.free,after]
    rfl

/-- The token of `jobId`, held by the live calls in a stage. -/
def Stage.token (stage : Stage jobId) : Token System.machine where
  free w := w.free jobId
  holder call := call.inProgress && stage.test (execution.phase call)
  fresh request := by rw [execution_accept,stage.idle,Bool.and_false]
  crashed call live := by cases live
  taken call op rest ω w awaits holding := by
    have owned : stage.test (ExecutePhase.next (execution.phase call) op (perform op ω w).1) =
        true := (Bool.and_eq_true_iff.mp holding).2
    rcases stage.entered _ _ _ owned with kept | ⟨target,version,now,job,idle,rfl,won⟩
    · left
      simp [Call.inProgress,awaits,Program.head,kept]
    · right
      rw [won] at owned
      rw [idle] at won
      obtain ⟨key,taken⟩ := free_claimed (claimed_replies won)
      obtain rfl : target = jobId := key.symm.trans (stage.claimed job owned)
      exact taken

variable {jobId : String} {stage : Stage jobId} {s : SystemState} {label : SystemLabel}

theorem holder_awaiting {call : SystemCall} {op : Op}
    {rest : Except Thrown op.Reply → Async Unit} (awaits : call.program = .await op rest) :
    stage.token.holder call = stage.test (execution.phase call) := by
  simp [Stage.token,Call.inProgress,awaits,Program.head]

theorem environment_keeps {event : StoreEvent} (kept : expires jobId s (.environment event) = false) :
    (System.environment event s.world).jobs.lookup jobId = s.world.jobs.lookup jobId := by
  cases event with
  | giveUp index => rfl
  | expireJobs now =>
    apply (Collection.lookup_deleteMany _ _).trans
    cases found : s.world.jobs.lookup jobId with
    | none => rfl
    | some job =>
      apply Option.filter_some_pos
      simpa [expires,found] using kept

/-- Tokens are issued by stale resets and expiries only. -/
theorem issued_by (stage : Stage jobId) (s : SystemState) (label : SystemLabel)
    (issued : stage.token.issued s (System.machine.step s label) = true) :
    resets jobId s label = true ∨ expires jobId s label = true := by
  obtain ⟨owned,free⟩ : s.world.free jobId = false ∧
      (System.machine.step s label).world.free jobId = true := by
    simpa [Token.issued,Stage.token] using issued
  have moves := System.machine.step_moves s label
  generalize System.machine.step s label = t at moves free
  cases moves with
  | submit | idle | absent | crash =>
    rw [owned] at free
    cases free
  | answer index ω call op rest found awaits =>
    left
    have awaiting : s.awaits index = some op := State.awaits_eq_some.mpr ⟨call,rest,found,awaits⟩
    have stored : (op.update ω jobId (s.world.jobs.lookup jobId)).all
        (fun job => job.status = .pending) = true := by
      rw [← perform_lookup op ω s.world jobId]
      exact free
    rcases update_free stored with before | ⟨cutoff,rfl,applies,isStale⟩
    · have wasFree : s.world.free jobId = true := before
      rw [owned] at wasFree
      cases wasFree
    · simp [resets,awaiting,applies,isStale]
  | environment event =>
    right
    rw [← Bool.not_eq_false]
    intro kept
    have same := environment_keeps kept
    simp only [System.machine_environment,World.free,same] at free owned
    rw [owned] at free
    cases free

theorem freed_document (frees : (resets jobId s label || expires jobId s label) = true) :
    ∃ job ∈ s.world.jobs.docs, job.jobId = jobId := by
  cases found : s.world.jobs.lookup jobId with
  | some job => exact ⟨job,Collection.lookup_mem found,Collection.lookup_key found⟩
  | none =>
    exfalso
    rcases Bool.or_eq_true_iff.mp frees with reset | expired
    · unfold resets at reset
      split at reset
      · split at reset
        · simp [found] at reset
        · cases reset
      · cases reset
    · unfold expires at expired
      split at expired
      · simp [found] at expired
      · cases expired

end JobScheduler
