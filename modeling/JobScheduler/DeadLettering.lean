import JobScheduler.RetryOutcome

/-! Dead-lettering. The kill of the document and the commit of letter and event are
two transactions, and nobody looks whether the kill matched a document. -/
namespace JobScheduler

open JobRepository

namespace World

variable (w : World) (jobId : String)

def isDead : Bool := (w.jobs.lookup jobId).any fun job => job.status = .dead

def letters : Nat := w.deadLetters.docs.countP fun letter => letter.jobId = jobId

/-- The event is the `job.dead` event of the job. -/
def announces (e : IOutboxEvent) : Bool :=
  e.type = .jobDead &&
    match e.payload with
    | .dead id _ _ _ _ _ => id = jobId
    | _ => false

def deathNotices : Nat := w.outbox.countP (announces jobId)

end World

/-- The document is dead, with exactly one letter and one event. -/
def DeadLettered (jobId : String) (w : World) : Prop :=
  w.isDead jobId = true ∧ w.letters jobId = 1 ∧ w.deathNotices jobId = 1

/-- None of the three exists and the document is unchanged. -/
def NotDeadLettered (jobId : String) (before after : World) : Prop :=
  after.isDead jobId = false ∧ after.letters jobId = 0 ∧ after.deathNotices jobId = 0 ∧
    after.jobs.lookup jobId = before.jobs.lookup jobId

def AllOrNothing (jobId : String) (before after : World) : Prop :=
  DeadLettered jobId after ∨ NotDeadLettered jobId before after

def afterFailure (job : IJob) (error : Text) (oracles : Nat → Oracle) (w : World) : World :=
  (Program.eval perform (RetryService.handleFailure job error (job.version + 1)) oracles w).world

def killed (job : IJob) (oracles : Nat → Oracle) (w : World) : Bool :=
  (oracles 0).publish.isNone && (oracles 1).delivery.applies &&
    (w.jobs.lookup job.jobId).any (versionIs (job.version + 1))

def lettersValidly (job : IJob) (error : Text) : Bool :=
  job.jobId ≠ "" && job.tenantId ≠ "" && 1 ≤ job.attempts && error ≠ [] && error.length ≤ 2000

/-- The session opens, and the commit takes effect on a job without a letter. -/
def createCommits (job : IJob) (error : Text) (oracles : Nat → Oracle) (w : World) : Bool :=
  (oracles 0).delivery.answers && (lettersValidly job error &&
    (w.deadLetters.lookup job.jobId).isNone && (oracles 6).delivery.applies)

def committed (job : IJob) (error : Text) (oracles : Nat → Oracle) (w : World) : Bool :=
  (oracles 0).publish.isNone && (oracles 1).delivery.answers &&
    createCommits job error (fun n => oracles (n + 2)) w

section Effects

variable (op : Op) (ω : Oracle) (w : World) (jobId : String)

theorem perform_letters : (perform op ω w).2.letters jobId =
    w.letters jobId + ((op.commits ω w).any fun commit => commit.1.jobId = jobId).toNat := by
  rw [World.letters,perform_deadLetters,List.countP_append]
  cases op.commits ω w with
  | none => rfl
  | some commit =>
    by_cases same : commit.1.jobId = jobId
    · simp [World.letters,same]
    · simp [World.letters,same]

theorem perform_deathNotices : (perform op ω w).2.deathNotices jobId =
    w.deathNotices jobId + ((op.commits ω w).any fun commit => World.announces jobId commit.2).toNat := by
  have kept : World.announces jobId ∘ op.marks ω = World.announces jobId := by
    funext e
    simp [World.announces]
  rw [World.deathNotices,perform_outbox,List.countP_append,List.countP_map,kept]
  cases op.commits ω w with
  | none => rfl
  | some commit =>
    by_cases same : World.announces jobId commit.2 = true
    · simp [World.deathNotices,same]
    · simp [World.deathNotices,same]

end Effects

/-- The letter goes out once a session has been opened; ending it changes nothing. -/
theorem create_world (job : IJob) (error : Text) (oracles : Nat → Oracle) (w : World) :
    ∃ letter payload createdAt, letter.jobId = job.jobId ∧
      letter.valid = lettersValidly job error ∧
      World.announces job.jobId (w.newEvent .jobDead payload createdAt) = true ∧
      (Program.eval perform (DeadLetterService.create job error) oracles w).world =
        if (oracles 0).delivery.answers then
          (perform (.commitDeadLetter letter .jobDead payload createdAt) (oracles 6) w).2
        else w := by
  refine ⟨{
    jobId := job.jobId
    jobType := job.jobType
    tenantId := job.tenantId
    payload := job.payload
    attempts := job.attempts
    errors := [⟨job.attempts,error,none,(oracles 1).clock⟩]
    deadAt := (oracles 2).clock
    resolvedAt := none
    resolvedBy := none
    resolution := none
    expiresAt := (oracles 3).clock + deadLetterTtlSeconds * 1000 },
    .dead job.jobId job.jobType job.tenantId job.attempts error (oracles 4).clock,
    (oracles 5).clock,rfl,?_,by simp [World.announces,World.newEvent],?_⟩
  · simp [IDeadLetter.valid,IDeadLetter.validError,lettersValidly,Bool.and_assoc]
  · have opened : perform .startSession (oracles 0) w = deliver (oracles 0).delivery w (.ok (),w) := rfl
    have ended : ∀ oracles w, (Program.eval perform (await .endSession) oracles w).world = w := by
      intro oracles w
      change (deliver (oracles 0).delivery w (.ok (),w)).2 = w
      rw [deliver_world]
      exact ite_self w
    have started : Program.eval perform (await .startSession) oracles w =
        ⟨(deliver (oracles 0).delivery w (.ok (),w)).1,fun n => oracles (n + 1),
          (deliver (oracles 0).delivery w (.ok (),w)).2⟩ := rfl
    rw [DeadLetterService.create,Program.eval_bind,started]
    cases (oracles 0).delivery with
    | performed =>
      apply (Program.eval_tryFinally_world _ ended).trans
      rfl
    | lost e | unacknowledged e => rfl

/-- The transaction adds one letter and one event, or nothing. -/
theorem create_effect (job : IJob) (error : Text) (oracles : Nat → Oracle) (w : World) :
    let after := (Program.eval perform (DeadLetterService.create job error) oracles w).world
    after.jobs.lookup job.jobId = w.jobs.lookup job.jobId ∧
      after.letters job.jobId = w.letters job.jobId + (createCommits job error oracles w).toNat ∧
      after.deathNotices job.jobId =
        w.deathNotices job.jobId + (createCommits job error oracles w).toNat := by
  obtain ⟨letter,payload,createdAt,same,valid,announced,after⟩ := create_world job error oracles w
  dsimp only
  rw [after]
  cases opened : (oracles 0).delivery.answers with
  | false => simp [createCommits,opened]
  | true =>
    have commits : (Op.commitDeadLetter letter .jobDead payload createdAt).commits (oracles 6) w =
        if createCommits job error oracles w then some (letter,w.newEvent .jobDead payload createdAt)
        else none := by
      simp only [Op.commits,createCommits,opened,same,valid,Bool.true_and]
    refine ⟨?_,?_,?_⟩
    · rw [if_pos rfl,perform_lookup]
      rfl
    · rw [if_pos rfl,perform_letters,commits]
      cases createCommits job error oracles w <;> simp [same]
    · rw [if_pos rfl,perform_deathNotices,commits]
      cases createCommits job error oracles w <;> simp [announced]

theorem afterFailure_eq {job : IJob} (error : Text) (oracles : Nat → Oracle) (w : World)
    (exhausted : job.maxAttempts ≤ job.attempts) :
    afterFailure job error oracles w =
      let announced := (perform (.publish .jobFailed (.failed job.jobId job.jobType job.tenantId
        job.attempts job.maxAttempts error)) (oracles 0) w).2
      let marked := (perform (.job (.markDead job.jobId (job.version + 1))) (oracles 1) announced).2
      if (oracles 0).publish.isSome then w
      else if (oracles 1).delivery.answers then
        (Program.eval perform (DeadLetterService.create job error) (fun n => oracles (n + 2))
          marked).world
      else marked := by
  let payload : EventPayload := .failed job.jobId job.jobType job.tenantId job.attempts
    job.maxAttempts error
  have published : Program.eval perform (publishToExchange .jobFailed payload) oracles w =
      ⟨(perform (.publish .jobFailed payload) (oracles 0) w).1,fun n => oracles (n + 1),
        (perform (.publish .jobFailed payload) (oracles 0) w).2⟩ := rfl
  rw [afterFailure,RetryService.handleFailure,Program.eval_bind,published]
  simp only [exhausted,if_true]
  cases sent : (oracles 0).publish with
  | some e =>
    have thrown : perform (.publish .jobFailed payload) (oracles 0) w = (.error e,w) := by
      simp only [perform,sent]
    rw [thrown]
    rfl
  | none =>
    have passed : (perform (.publish .jobFailed payload) (oracles 0) w).1 = .ok () := by
      simp only [perform,sent]
    rw [passed]
    generalize (perform (.publish .jobFailed payload) (oracles 0) w).2 = announced
    let write : JobWrite := .markDead job.jobId (job.version + 1)
    have marked : Program.eval perform (markDeadCall job.jobId (job.version + 1))
        (fun n => oracles (n + 1)) announced = ⟨(perform (.job write) (oracles 1) announced).1,
          fun n => oracles (n + 2),(perform (.job write) (oracles 1) announced).2⟩ := rfl
    simp only [Program.Ran.thenEval,Program.eval_bind,marked]
    have replied : (perform (.job write) (oracles 1) announced).1.isOk =
        (oracles 1).delivery.answers := by
      simp only [perform]
      cases (oracles 1).delivery <;> rfl
    change _ = if false = true then w else
      if (oracles 1).delivery.answers = true then _ else (perform (.job write) (oracles 1) announced).2
    rw [← replied]
    cases (perform (.job write) (oracles 1) announced).1 with
    | ok matched => rfl
    | error e => rfl

theorem markDead_lookup (jobId : String) (version : Nat) (ω : Oracle) (w : World) :
    (perform (.job (.markDead jobId version)) ω w).2.jobs.lookup jobId =
      (w.jobs.lookup jobId).map fun stored =>
        if ω.delivery.applies && versionIs version stored then dead version stored else stored := by
  rw [perform_lookup,Op.update]
  cases ω.delivery.applies with
  | false => simp
  | true =>
    cases found : w.jobs.lookup jobId with
    | none => rfl
    | some stored =>
      have key : stored.jobId = jobId := Collection.lookup_key found
      simp [JobWrite.update,JobWrite.selects,JobWrite.change,key]

theorem marked_world (job : IJob) (payload : EventPayload) {ω : Oracle} (sent : ω.publish = none)
    (version : Nat) (next : Oracle) (w : World) : ∃ placed jobs,
      (perform (.job (.markDead job.jobId version)) next
        (perform (.publish .jobFailed payload) ω w).2).2 =
          { w with placed := placed, jobs := jobs } ∧
      jobs.lookup job.jobId = (w.jobs.lookup job.jobId).map fun stored =>
        if next.delivery.applies && versionIs version stored then dead version stored else stored := by
  have announced : (perform (.publish .jobFailed payload) ω w).2 =
      { w with placed := RabbitMq.publish w.placed .schedulerExchange .jobFailed payload } := by
    simp only [perform,sent]
  have looked := markDead_lookup job.jobId version next (perform (.publish .jobFailed payload) ω w).2
  rw [announced] at looked ⊢
  refine ⟨RabbitMq.publish w.placed .schedulerExchange .jobFailed payload,_,?_,looked⟩
  simp only [perform,deliver_world]
  split <;> rfl

/-- The failure of an exhausted attempt kills, files a letter and an event, or skips
some of this. -/
structure FailureEffect (job : IJob) (kill commit : Bool) (before after : World) : Prop where
  spared : kill = false → after.jobs.lookup job.jobId = before.jobs.lookup job.jobId
  dies : after.isDead job.jobId = (before.isDead job.jobId || kill)
  letters : after.letters job.jobId = before.letters job.jobId + commit.toNat
  notices : after.deathNotices job.jobId = before.deathNotices job.jobId + commit.toNat

theorem failure_effect {job : IJob} (error : Text) (oracles : Nat → Oracle) (w : World)
    (exhausted : job.maxAttempts ≤ job.attempts) :
    FailureEffect job (killed job oracles w) (committed job error oracles w) w
      (afterFailure job error oracles w) := by
  rw [afterFailure_eq error oracles w exhausted]
  cases sent : (oracles 0).publish with
  | some e =>
    have notKilled : killed job oracles w = false := by simp [killed,sent]
    have notCommitted : committed job error oracles w = false := by simp [committed,sent]
    rw [notKilled,notCommitted]
    exact ⟨fun _ => rfl,(Bool.or_false _).symm,rfl,rfl⟩
  | none =>
    obtain ⟨placed,jobs,marked,looked⟩ := marked_world job
      (.failed job.jobId job.jobType job.tenantId job.attempts job.maxAttempts error) sent
      (job.version + 1) (oracles 1) w
    dsimp only
    rw [marked]
    obtain ⟨sameJob,filed,noticed⟩ := create_effect job error (fun n => oracles (n + 2))
      { w with placed := placed, jobs := jobs }
    have kills : killed job oracles w = ((oracles 1).delivery.applies &&
        (w.jobs.lookup job.jobId).any (versionIs (job.version + 1))) := by simp [killed,sent]
    have commits : committed job error oracles w = ((oracles 1).delivery.answers &&
        createCommits job error (fun n => oracles (n + 2)) w) := by simp [committed,sent]
    have lookedUp : ∀ after : World, after.jobs.lookup job.jobId = jobs.lookup job.jobId →
        (killed job oracles w = false → after.jobs.lookup job.jobId = w.jobs.lookup job.jobId) ∧
        after.isDead job.jobId = (w.isDead job.jobId || killed job oracles w) := by
      intro after same
      rw [World.isDead,World.isDead,same,looked,kills]
      cases w.jobs.lookup job.jobId with
      | none => simp
      | some stored =>
        simp only [Option.map_some,Option.any_some]
        cases ((oracles 1).delivery.applies && versionIs (job.version + 1) stored) <;> simp [dead]
    cases answers : (oracles 1).delivery.answers with
    | true =>
      rw [answers,Bool.true_and] at commits
      obtain ⟨spared,dies⟩ := lookedUp _ sameJob
      rw [commits]
      exact ⟨spared,dies,filed,noticed⟩
    | false =>
      rw [answers,Bool.false_and] at commits
      obtain ⟨spared,dies⟩ := lookedUp { w with placed := placed, jobs := jobs } rfl
      rw [commits]
      exact ⟨spared,dies,rfl,rfl⟩

/-- Before the call, or by it, the job dies, and as many letters and events exist. -/
def Balanced (job : IJob) (error : Text) (oracles : Nat → Oracle) (w : World) : Prop :=
  w.letters job.jobId + (committed job error oracles w).toNat =
      (w.isDead job.jobId || killed job oracles w).toNat ∧
    w.deathNotices job.jobId + (committed job error oracles w).toNat =
      (w.isDead job.jobId || killed job oracles w).toNat

instance (job : IJob) (error : Text) (oracles : Nat → Oracle) (w : World) :
    Decidable (Balanced job error oracles w) := inferInstanceAs (Decidable (_ ∧ _))

theorem all_or_nothing_iff {job : IJob} (error : Text) (oracles : Nat → Oracle) (w : World)
    (exhausted : job.maxAttempts ≤ job.attempts) :
    AllOrNothing job.jobId w (afterFailure job error oracles w) ↔ Balanced job error oracles w := by
  obtain ⟨spared,dies,letters,notices⟩ := failure_effect error oracles w exhausted
  rw [AllOrNothing,DeadLettered,NotDeadLettered,Balanced,dies,letters,notices]
  cases died : (w.isDead job.jobId || killed job oracles w) with
  | true => simp
  | false =>
    have alive : killed job oracles w = false := (Bool.or_eq_false_iff.mp died).2
    simp [spared alive]

def diesAt (jobId : String) (s : SystemState) : SystemLabel → Bool
  | .resume index ω =>
    match s.awaits index with
    | some (.job (.markDead target version)) =>
      target = jobId && ω.delivery.applies && (s.world.jobs.lookup jobId).any (versionIs version)
    | _ => false
  | _ => false

def buriedAt (jobId : String) (s : SystemState) : SystemLabel → Bool
  | .resume index ω => (s.awaits index).any fun op =>
      (op.commits ω s.world).any fun commit => commit.1.jobId = jobId
  | _ => false

/-- In every state on the way a dead letter exists exactly for the jobs that died. -/
def LettersMatchDeaths (s : SystemState) (labels : List SystemLabel) : Prop :=
  ∀ before, before <+: labels → ∀ jobId,
    0 < (System.machine.run s before).world.letters jobId ↔
      0 < System.machine.countAlong (diesAt jobId) s before

/-- Neither of the two transactions takes effect. -/
def BuriesNobody (s : SystemState) (label : SystemLabel) : Prop :=
  ∀ jobId, diesAt jobId s label = false ∧ buriedAt jobId s label = false

variable {jobId : String} {s : SystemState} {label : SystemLabel} {labels : List SystemLabel}

theorem letters_step (jobId : String) (s : SystemState) (label : SystemLabel) :
    (System.machine.step s label).world.letters jobId =
      s.world.letters jobId + (buriedAt jobId s label).toNat := by
  have moves := System.machine.step_moves s label
  generalize System.machine.step s label = t at moves
  cases moves with
  | submit | absent | crash => rfl
  | idle index ω settled => simp [buriedAt,settled]
  | answer index ω call op rest found awaits =>
    have awaiting : s.awaits index = some op := State.awaits_eq_some.mpr ⟨call,rest,found,awaits⟩
    simp only [buriedAt,awaiting,Option.any_some]
    exact perform_letters op ω s.world jobId
  | environment event => cases event <;> rfl

theorem buried_alone (dies : diesAt jobId s label = true) : buriedAt jobId s label = false := by
  unfold diesAt at dies
  split at dies
  · split at dies
    · rename_i awaiting
      simp [buriedAt,awaiting,Op.commits]
    · cases dies
  · cases dies

theorem letters_match_iff (clean : ∀ jobId, s.world.letters jobId = 0) :
    LettersMatchDeaths s labels ↔ System.machine.Along BuriesNobody s labels := by
  induction labels generalizing s with
  | nil =>
    refine ⟨fun _ => trivial,?_⟩
    rintro _ before first jobId
    obtain rfl := List.prefix_nil.mp first
    simp [Machine.countAlong,clean jobId]
  | cons label labels ih =>
    have stays : BuriesNobody s label →
        ∀ jobId, (System.machine.step s label).world.letters jobId = 0 := by
      intro nobody jobId
      rw [letters_step,clean jobId,(nobody jobId).2]
      rfl
    constructor
    · intro matching
      have nobody : BuriesNobody s label := by
        intro jobId
        have first := matching [label] (List.cons_prefix_cons.mpr ⟨rfl,List.nil_prefix⟩) jobId
        have filed := letters_step jobId s label
        rw [clean jobId] at filed
        simp only [Machine.run_cons,Machine.run_nil,Machine.countAlong,filed] at first
        cases dies : diesAt jobId s label with
        | true =>
          rw [dies,buried_alone dies] at first
          exact absurd first (by decide)
        | false =>
          rw [dies] at first
          cases buried : buriedAt jobId s label with
          | true =>
            rw [buried] at first
            exact absurd first (by decide)
          | false => exact ⟨rfl,rfl⟩
      refine ⟨nobody,(ih (stays nobody)).mp ?_⟩
      intro before first jobId
      have later := matching (label :: before) (List.cons_prefix_cons.mpr ⟨rfl,first⟩) jobId
      simpa [Machine.countAlong,(nobody jobId).1] using later
    · rintro ⟨nobody,later⟩ before first jobId
      rcases List.prefix_cons_iff.mp first with rfl | ⟨rest,rfl,follows⟩
      · simp [Machine.countAlong,clean jobId]
      · have matching := (ih (stays nobody)).mpr later rest follows jobId
        simpa [Machine.countAlong,(nobody jobId).1] using matching

/-- Dead-lettering is all or nothing exactly when the kill finds its document and the
transaction commits, or neither; and letters match deaths along a run exactly when
neither transaction ever takes effect. -/
theorem dead_lettering_all_or_nothing {job : IJob} (error : Text) (oracles : Nat → Oracle)
    (w : World) (labels : List SystemLabel) (exhausted : job.maxAttempts ≤ job.attempts) :
    (AllOrNothing job.jobId w (afterFailure job error oracles w) ↔
      Balanced job error oracles w) ∧
    (LettersMatchDeaths (initial World.empty) labels ↔
      System.machine.Along BuriesNobody (initial World.empty) labels) :=
  ⟨all_or_nothing_iff error oracles w exhausted,letters_match_iff fun _ => rfl⟩

def exhaustedReport : IJob :=
  { dequeuedReport with
    status := .running
    startedAt := some 0
    lastAttemptAt := some 0
    attempts := 3
    version := 3 }

def holdingReport : World := { World.empty with jobs := ⟨[exhaustedReport],List.nodup_singleton _⟩ }

def rejectedAttempt (index : Nat) (now : Nat) : List SystemLabel :=
  [.submit (.enqueue reportRequest)] ++ drive index 3 now ++ [.submit (.tick "a" 0)] ++
  drive (index + 1) 9 now ++ List.replicate 30 (.resume (index + 2) (rejecting now)) ++
  [.submit .watchdogTick] ++ drive (index + 3) 2 (now + 400000)

/-- The report is rejected three times; all calls to the stores succeed. -/
def exhausting : List SystemLabel :=
  rejectedAttempt 0 0 ++ rejectedAttempt 4 400000 ++ rejectedAttempt 8 800000

theorem all_or_nothing_report :
    (AllOrNothing reportId holdingReport
        (afterFailure exhaustedReport (text "report service unavailable") rejecting holdingReport) ↔
      Balanced exhaustedReport (text "report service unavailable") rejecting holdingReport) ∧
    (LettersMatchDeaths (initial World.empty) exhausting ↔
      System.machine.Along BuriesNobody (initial World.empty) exhausting) :=
  dead_lettering_all_or_nothing _ _ _ _ (by decide)

/-- The third failure leaves a dead letter and an event of a job that did not die. -/
theorem buried_alive :
    (¬ ∀ job error oracles w, job.maxAttempts ≤ job.attempts →
      AllOrNothing job.jobId w (afterFailure job error oracles w)) ∧
    ¬ ∀ labels, LettersMatchDeaths (initial World.empty) labels := by
  constructor
  · intro atomic
    have balanced := (all_or_nothing_iff _ _ _ (by decide)).mp
      (atomic exhaustedReport (text "report service unavailable") rejecting holdingReport (by decide))
    exact absurd balanced (by decide +kernel)
  · intro matching
    have died := (matching exhausting exhausting List.prefix_rfl reportId).mp (by decide +kernel)
    exact absurd died (by decide +kernel)

end JobScheduler
