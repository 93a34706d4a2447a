import JobScheduler.ClockTwins
import JobScheduler.DocumentHistory
import JobScheduler.Exclusion
import JobScheduler.Transition

/-! Scheduling decisions and local clocks. Two runs that differ in the readings of
`Date.now()` only decide alike as long as the readings that become retry times are the same
and no comparison between two instances' readings comes out differently. -/
namespace JobScheduler

open JobRepository

def reclock (clock : Int) : SystemLabel → SystemLabel
  | .resume index ω => .resume index (ω.at clock)
  | label => label

/-- Two runs side by side. The second one has its own clock readings. -/
def skewed : Transition (SystemState × SystemState) (SystemLabel × Int) where
  step s label := (System.machine.step s.1 label.1,System.machine.step s.2 (reclock label.2 label.1))

def dequeues (s : SystemState) : SystemLabel → List String
  | .resume index _ =>
    match s.awaits index with
    | some (.dispatch _ jobIds _) => jobIds
    | _ => []
  | _ => []

def retries (jobId : String) (s : SystemState) (label : SystemLabel) : Option Int :=
  match written s label with
  | some (.markFailed target version _ nextRunAt _) =>
    if target = jobId && (s.world.jobs.lookup jobId).any (runningAt version) then some nextRunAt
    else none
  | _ => none

def reschedules (s : SystemState) : SystemLabel → Option (String × String × Int)
  | .resume index ω =>
    match s.awaits index with
    | some (.zaddXX key score member) =>
      if ω.delivery.applies && member ∈ (s.world.sortedSets key).members then some (key,member,score)
      else none
    | _ => none
  | _ => none

/-- The next steps of the two runs decide alike. -/
structure DecideAlike (s : SystemState × SystemState) (label : SystemLabel × Int) : Prop where
  dequeued : dequeues s.1 label.1 = dequeues s.2 (reclock label.2 label.1)
  claimed : ∀ jobId, claims jobId s.1 label.1 = claims jobId s.2 (reclock label.2 label.1)
  reset : ∀ jobId, resets jobId s.1 label.1 = resets jobId s.2 (reclock label.2 label.1)
  retried : ∀ jobId, retries jobId s.1 label.1 = retries jobId s.2 (reclock label.2 label.1)
  rescheduled : reschedules s.1 label.1 = reschedules s.2 (reclock label.2 label.1)

/-- The readings of a step that something depends on. Its call's readings agree where they
matter, and the same documents are due for deletion. -/
def harmless (s : SystemState × SystemState) : SystemLabel × Int → Prop
  | (.resume index ω,clock) => ∀ call ∈ s.1.calls[index]?, ∀ op ∈ call.program.head,
      ∀ twin ∈ s.2.awaits index, op.agrees call.drew ω clock s.1.world s.2.world twin
  | (.environment (.expireJobs now),_) => ∀ job ∈ s.1.world.jobs.docs,
      ∀ twin ∈ s.2.world.jobs.lookup job.jobId,
        job.expiresAt.any (· ≤ now) = twin.expiresAt.any (· ≤ now)
  | _ => True

instance harmless.decidable (s : SystemState × SystemState) : ∀ label, Decidable (harmless s label)
  | (.resume _ _,_) => inferInstanceAs (Decidable (∀ call ∈ _, ∀ op ∈ _, ∀ twin ∈ _, _))
  | (.environment (.expireJobs _),_) => inferInstanceAs (Decidable (∀ job ∈ _, ∀ twin ∈ _, _))
  | (.environment (.giveUp _),_) | (.submit _,_) | (.crash _,_) => .isTrue trivial

abbrev InLockstep (s : SystemState × SystemState) : Prop :=
  Machine.InStep World.Like ClockTwin s.1 s.2

section Steps

variable {s : SystemState × SystemState}

theorem expire_like {w v : World} {now : Int} (worlds : w.Like v)
    (same : ∀ job ∈ w.jobs.docs, ∀ twin ∈ v.jobs.lookup job.jobId,
      job.expiresAt.any (· ≤ now) = twin.expiresAt.any (· ≤ now)) :
    (System.environment (.expireJobs now) w).Like (System.environment (.expireJobs now) v) where
  jobs jobId := by
    change Option.Rel IJob.Like ((expire w.jobs now).lookup jobId) ((expire v.jobs now).lookup jobId)
    rw [expire,expire,Collection.lookup_deleteMany,Collection.lookup_deleteMany]
    have documents := worlds.jobs jobId
    cases first : w.jobs.lookup jobId <;> cases second : v.jobs.lookup jobId <;>
      rw [first,second] at documents <;> cases documents
    · exact .none
    · rename_i job twin jobs
      obtain rfl : job.jobId = jobId := Collection.lookup_key first
      simp only [Option.filter_some,same job (Collection.lookup_mem first) twin second]
      split
      · exact .some jobs
      · exact .none
  sortedSets := worlds.sortedSets
  deadLetters := worlds.deadLetters

theorem lockstep_step (label : SystemLabel × Int) (agrees : harmless s label)
    (lockstep : InLockstep s) : InLockstep (skewed.step s label) := by
  obtain ⟨label,clock⟩ := label
  cases label with
  | submit request => exact Machine.inStep_submit clockTwin_accept request lockstep
  | crash index => exact Machine.inStep_crash clockTwin_crash index lockstep
  | environment event =>
    apply Machine.inStep_environment _ lockstep
    intro worlds
    cases event with
    | expireJobs now => exact expire_like worlds agrees
    | giveUp index => exact ⟨worlds.jobs,worlds.sortedSets,worlds.deadLetters⟩
  | resume index ω =>
    apply Machine.inStep_resume clockTwin_accept _ lockstep
    intro call twin found other together
    apply clockTwin_resumed together lockstep.worlds
    intro op awaits also awaiting
    refine agrees call found op awaits also ?_
    simp only [State.awaits,other,Option.bind_some]
    exact awaiting

theorem lockstep_awaits (lockstep : InLockstep s) (index : Nat) :
    (∃ op twin, s.1.awaits index = some op ∧ s.2.awaits index = some twin ∧ op.Like twin) ∨
      ((∀ op ∈ s.1.awaits index, op.inFlush = true) ∧ ∀ op ∈ s.2.awaits index, op.inFlush = true) := by
  rcases Machine.forall₂_getElem? index lockstep.calls with ⟨left,right⟩ | ⟨call,twin,left,right,together⟩
  · refine .inr ⟨?_,?_⟩
    · intro op awaits
      simp [State.awaits,left] at awaits
    · intro op awaits
      simp [State.awaits,right] at awaits
  · simp only [State.awaits,left,right,Option.bind_some]
    rcases together with ⟨_,coupled⟩ | ⟨first,second⟩
    · cases program : call.program <;> cases other : twin.program <;> rw [program,other] at coupled
      · refine .inr ⟨?_,?_⟩ <;> intro op awaits <;> cases awaits
      · exact False.elim coupled
      · exact False.elim coupled
      · exact .inl ⟨_,_,rfl,rfl,coupled.1⟩
    · have listed : ∀ program : Async Unit, Within Op.inFlush program →
          ∀ op ∈ program.head, op.inFlush = true := by
        intro program within op awaits
        cases program with
        | settled => cases awaits
        | await first rest =>
          obtain rfl := Option.some.inj awaits
          exact within.1
      exact .inr ⟨listed _ first,listed _ second⟩

theorem any_like {stored found : Option IJob} {test other : IJob → Bool}
    (documents : Option.Rel IJob.Like stored found)
    (same : ∀ job ∈ stored, ∀ twin ∈ found, job.Like twin → test job = other twin) :
    stored.any test = found.any other := by
  cases documents with
  | none => rfl
  | some jobs => exact same _ rfl _ rfl jobs

theorem flush_decides {t : SystemState} {index : Nat}
    (listed : ∀ op ∈ t.awaits index, op.inFlush = true) (ω : Oracle) :
    written t (.resume index ω) = none ∧ (∀ jobId, resets jobId t (.resume index ω) = false) ∧
      dequeues t (.resume index ω) = [] ∧ reschedules t (.resume index ω) = none := by
  simp only [written,resets,dequeues,reschedules]
  cases awaits : t.awaits index with
  | none => exact ⟨rfl,fun _ => rfl,rfl,rfl⟩
  | some op =>
    have flushes := listed op awaits
    cases op <;> first | exact ⟨rfl,fun _ => rfl,rfl,rfl⟩ | cases flushes

theorem lockstep_written (lockstep : InLockstep s) (index : Nat) (ω : Oracle) (clock : Int) :
    Option.Rel JobWrite.Like (written s.1 (.resume index ω)) (written s.2 (.resume index (ω.at clock))) := by
  have writes : ∀ write twin : JobWrite, write.Like twin → Option.Rel JobWrite.Like
      (if ω.delivery.applies then some write else none)
      (if ω.delivery.applies then some twin else none) := by
    intro write twin like
    cases ω.delivery.applies with
    | true => exact .some like
    | false => exact .none
  rcases lockstep_awaits lockstep index with ⟨op,twin,left,right,like⟩ | ⟨first,second⟩
  · simp only [written,left,right]
    cases like with
    | same =>
      cases op with
      | job write => exact writes write write (.same write)
      | _ => exact .none
    | job write twin like => exact writes write twin like
    | _ => exact .none
  · rw [(flush_decides first ω).1,(flush_decides second (ω.at clock)).1]
    exact .none

theorem resets_alike {index : Nat} {ω : Oracle} {clock : Int}
    (agrees : harmless s (.resume index ω,clock)) (lockstep : InLockstep s) (jobId : String) :
    resets jobId s.1 (.resume index ω) = resets jobId s.2 (.resume index (ω.at clock)) := by
  have separated : ∀ cutoff other, s.1.awaits index = some (.job (.resetStaleJobs cutoff)) →
      s.2.awaits index = some (.job (.resetStaleJobs other)) →
      (ω.delivery.applies && (s.1.world.jobs.lookup jobId).any (stale cutoff)) =
        (ω.delivery.applies && (s.2.world.jobs.lookup jobId).any (stale other)) := by
    intro cutoff other left right
    obtain ⟨call,found,head⟩ := Option.bind_eq_some_iff.mp left
    cases applies : ω.delivery.applies with
    | false => rfl
    | true =>
      apply congrArg (true && ·)
      apply any_like (lockstep.worlds.jobs jobId)
      intro job stored twin paired _
      obtain rfl : job.jobId = jobId := Collection.lookup_key stored
      exact agrees call found _ head _ right applies job (Collection.lookup_mem stored) twin paired
  rcases lockstep_awaits lockstep index with ⟨op,twin,left,right,like⟩ | ⟨first,second⟩
  · simp only [resets,left,right]
    cases like with
    | same =>
      cases op with
      | job write =>
        cases write with
        | resetStaleJobs cutoff => exact separated cutoff cutoff left right
        | _ => rfl
      | _ => rfl
    | job write twin like =>
      cases like with
      | same =>
        cases write with
        | resetStaleJobs cutoff => exact separated cutoff cutoff left right
        | _ => rfl
      | resetStaleJobs cutoff other => exact separated cutoff other left right
      | _ => rfl
    | _ => rfl
  · rw [(flush_decides first ω).2.1,(flush_decides second (ω.at clock)).2.1]

section Resumed

variable {index : Nat} {ω : Oracle} {clock : Int} (lockstep : InLockstep s)

include lockstep

theorem dequeues_alike :
    dequeues s.1 (.resume index ω) = dequeues s.2 (.resume index (ω.at clock)) := by
  simp only [dequeues]
  rcases lockstep_awaits lockstep index with ⟨op,twin,left,right,like⟩ | ⟨first,second⟩
  · rw [left,right]
    cases like <;> rfl
  · exact (flush_decides first ω).2.2.1.trans (flush_decides second (ω.at clock)).2.2.1.symm

theorem claims_alike (jobId : String) :
    claims jobId s.1 (.resume index ω) = claims jobId s.2 (.resume index (ω.at clock)) := by
  have writes := lockstep_written lockstep index ω clock
  simp only [claims]
  revert writes
  generalize written s.1 (.resume index ω) = write
  generalize written s.2 (.resume index (ω.at clock)) = twin
  intro writes
  have matched : ∀ target version,
      (target = jobId && (s.1.world.jobs.lookup jobId).any (claimable version)) =
        (target = jobId && (s.2.world.jobs.lookup jobId).any (claimable version)) := by
    intro target version
    apply congrArg (_ && ·)
    apply any_like (lockstep.worlds.jobs jobId)
    rintro job _ _ _ ⟨_,_,_,_,rfl⟩
    rfl
  cases writes with
  | none => rfl
  | some like =>
    rename_i write twin
    cases like with
    | same =>
      cases write with
      | claimJob target version now => exact matched target version
      | _ => rfl
    | claimJob target version => exact matched target version
    | _ => rfl

theorem retries_alike (jobId : String) :
    retries jobId s.1 (.resume index ω) = retries jobId s.2 (.resume index (ω.at clock)) := by
  have writes := lockstep_written lockstep index ω clock
  simp only [retries]
  revert writes
  generalize written s.1 (.resume index ω) = write
  generalize written s.2 (.resume index (ω.at clock)) = twin
  intro writes
  have matched : ∀ version, (s.1.world.jobs.lookup jobId).any (runningAt version) =
      (s.2.world.jobs.lookup jobId).any (runningAt version) := by
    intro version
    apply any_like (lockstep.worlds.jobs jobId)
    rintro job _ _ _ ⟨_,_,_,_,rfl⟩
    rfl
  cases writes with
  | none => rfl
  | some like =>
    rename_i write twin
    cases like with
    | same => cases write <;> simp only [matched]
    | markFailed => simp only [matched]
    | _ => rfl

theorem reschedules_alike :
    reschedules s.1 (.resume index ω) = reschedules s.2 (.resume index (ω.at clock)) := by
  simp only [reschedules]
  rcases lockstep_awaits lockstep index with ⟨op,twin,left,right,like⟩ | ⟨first,second⟩
  · rw [left,right]
    cases like with
    | same =>
      cases op with
      | zaddXX key score member =>
        dsimp only
        rw [lockstep.worlds.sortedSets key]
        rfl
      | _ => rfl
    | _ => rfl
  · exact (flush_decides first ω).2.2.2.trans (flush_decides second (ω.at clock)).2.2.2.symm

end Resumed

theorem decide_alike (label : SystemLabel × Int) (agrees : harmless s label)
    (lockstep : InLockstep s) : DecideAlike s label := by
  obtain ⟨label,clock⟩ := label
  cases label with
  | submit | crash | environment => exact ⟨rfl,fun _ => rfl,fun _ => rfl,fun _ => rfl,rfl⟩
  | resume index ω =>
    exact ⟨dequeues_alike lockstep,claims_alike lockstep,resets_alike agrees lockstep,
      retries_alike lockstep,reschedules_alike lockstep⟩

end Steps

theorem clock_independence (w : World) {labels : List (SystemLabel × Int)}
    (agrees : skewed.Along harmless (initial w,initial w) labels) :
    skewed.Along DecideAlike (initial w,initial w) labels :=
  Transition.along_invariant InLockstep (fun _ => lockstep_step) (fun _ => decide_alike) agrees
    ⟨.refl w,.nil⟩

/-- A job is queued, polled and claimed, and a reset has read a clock. -/
def resetting (clock : Int) : List (SystemLabel × Int) :=
  ((.submit (.enqueue reportRequest) :: drive 0 3 0 ++ .submit (.tick "instance" 0) :: drive 1 9 0 ++
    drive 2 3 0).map fun label => (label,0)) ++
  [(.submit .bootstrapReset,0),(.resume 3 (calm 0),clock)]

theorem clock_independence_reset :
    skewed.Along DecideAlike (initial World.empty,initial World.empty)
      (resetting 5000 ++ [(.resume 3 (calm 0),0)]) :=
  clock_independence World.empty (by decide +kernel)

/-- The clock of the instance that resets is ahead, and the job is taken for stale. -/
theorem clock_dependence : ¬ ∀ labels : List (SystemLabel × Int),
    skewed.Along DecideAlike (initial World.empty,initial World.empty) labels := by
  intro claim
  have last := (Transition.along_append.mp (claim (resetting 400000 ++ [(.resume 3 (calm 0),0)]))).2.1
  have differs : resets reportId (skewed.run (initial World.empty,initial World.empty)
        (resetting 400000)).1 (.resume 3 (calm 0)) ≠
      resets reportId (skewed.run (initial World.empty,initial World.empty)
        (resetting 400000)).2 (reclock 0 (.resume 3 (calm 0))) := by
    decide +kernel
  exact differs (last.reset reportId)

end JobScheduler
