import JobScheduler.DeadLetters
import JobScheduler.Listings

/-! Resolution is write-once. A log keeps the calls of `resolve` whose update took effect,
and the three audit fields of a dead letter are those of its only entry in the log. -/
namespace JobScheduler

open Transition DeadLetterRepository Pagination

/-- A call of `resolve` that took effect: its place, its arguments and its clock reading. -/
structure AuditEntry where
  index : Nat
  jobId : String
  resolvedBy : String
  resolution : Text
  resolvedAt : Int

def IDeadLetter.audit (letter : IDeadLetter) : Option Int × Option String × Option Text :=
  (letter.resolvedAt,letter.resolvedBy,letter.resolution)

namespace AuditEntry

def set (entry : AuditEntry) : Resolution :=
  ⟨entry.resolvedAt,entry.resolvedBy,entry.resolution.take 1000⟩

def audit (entry : AuditEntry) : Option Int × Option String × Option Text :=
  (some entry.resolvedAt,some entry.resolvedBy,some (entry.resolution.take 1000))

/-- What the request and the history of a resuming call say of it. -/
def ofCall (index : Nat) (call : LetterCall) : Option AuditEntry :=
  match call.request, call.history with
  | .resolve jobId resolvedBy resolution, [⟨.dateNow,.ok resolvedAt⟩] =>
    some ⟨index,jobId,resolvedBy,resolution,resolvedAt⟩
  | _, _ => none

theorem ofCall_eq_some {index : Nat} {call : LetterCall} {entry : AuditEntry} :
    ofCall index call = some entry ↔ entry.index = index ∧
      call.request = .resolve entry.jobId entry.resolvedBy entry.resolution ∧
      call.history = [⟨.dateNow,.ok entry.resolvedAt⟩] := by
  constructor
  · intro logged
    unfold ofCall at logged
    split at logged
    · rename_i request history
      obtain rfl := Option.some.inj logged
      exact ⟨rfl,request,history⟩
    · cases logged
  · rintro ⟨rfl,request,history⟩
    simp [ofCall,request,history]

end AuditEntry

/-- The call of `resolve` whose update takes effect in a step, whether or not its reply
arrives. -/
def takesEffect (s : LetterState) : LetterLabel → Option AuditEntry
  | .resume index ω =>
    match s.calls[index]?, s.awaits index with
    | some call, some (.findOneAndUpdate jobId _) =>
      if ω.delivery.applies &&
          (s.world.deadLetters.lookup jobId).any fun letter => letter.resolvedAt.isNone
      then AuditEntry.ofCall index call
      else none
    | _, _ => none
  | _ => none

namespace Letters

/-- The runs with the log of the calls that took effect. -/
def audited : Transition (Logged LetterState AuditEntry) LetterLabel :=
  (⟨machine.step⟩ : Transition LetterState LetterLabel).logged takesEffect

def about (jobId : String) (x : Logged LetterState AuditEntry) : List AuditEntry :=
  x.log.filter fun entry => entry.jobId = jobId

def stored (jobId : String) (x : Logged LetterState AuditEntry) : Option IDeadLetter :=
  x.state.world.deadLetters.lookup jobId

/-- What a call awaits follows from its request and the reading of its clock. -/
def protocol : Protocol machine (LetterRequest × List (Exchange letterSignature Thrown)) where
  monitor :=
    { allowed := fun q op =>
        match op with
        | .dateNow => True
        | .create letter => letter.audit = (none,none,none)
        | .findOneAndUpdate jobId set => ∃ resolvedBy resolution resolvedAt,
            q.1 = .resolve jobId resolvedBy resolution ∧ q.2 = [⟨.dateNow,.ok resolvedAt⟩] ∧
            set = ⟨resolvedAt,resolvedBy,resolution.take 1000⟩
      answers := fun _ _ _ => True
      next := fun q op reply => (q.1,⟨op,reply⟩ :: q.2) }
  start request := (request,[])
  post _ _ := True
  meets request := by
    cases request <;>
      simp [machine,program,create,resolve,LetterOp.await,Program.perform,Program.forall_except,
        CreateDeadLetterInput.document,IDeadLetter.audit]

theorem protocol_phase (call : LetterCall) : protocol.phase call = (call.request,call.history) := by
  obtain ⟨request,program,history⟩ := call
  simp only [Protocol.phase]
  induction history with
  | nil => rfl
  | cons exchange history ih =>
    rw [Program.Monitor.phase,ih]
    rfl

/-- All that a step can make of the dead letter of a job. -/
inductive LetterMoves (jobId : String) (entry : Option AuditEntry) :
    Option IDeadLetter → Option IDeadLetter → Prop where
  | kept (stored) (other : ∀ e ∈ entry, e.jobId ≠ jobId) : LetterMoves jobId entry stored stored
  | created (letter) (unlogged : entry = none) (unresolved : letter.audit = (none,none,none)) :
      LetterMoves jobId entry none (some letter)
  | resolved (letter own) (is : entry = some own) (same : own.jobId = jobId)
      (unresolved : letter.resolvedAt = none) :
      LetterMoves jobId entry (some letter) (some (letter.resolve own.set))

section Step

variable {s : LetterState} {index : Nat} {call : LetterCall} {jobId : String} {ω : Oracle}

theorem followed_update (followed : protocol.Followed s) (found : s.calls[index]? = some call)
    {set : Resolution} {rest} (awaits : call.program = .await (.findOneAndUpdate jobId set) rest) :
    ∃ entry, AuditEntry.ofCall index call = some entry ∧ entry.jobId = jobId ∧ entry.set = set := by
  have allowed := followed.allowed found awaits
  rw [protocol_phase] at allowed
  obtain ⟨resolvedBy,resolution,resolvedAt,request,history,rfl⟩ := allowed
  exact ⟨⟨index,jobId,resolvedBy,resolution,resolvedAt⟩,
    AuditEntry.ofCall_eq_some.mpr ⟨rfl,request,history⟩,rfl,rfl⟩

theorem letter_moves (followed : protocol.Followed s) (label : LetterLabel) (jobId : String) :
    LetterMoves jobId (takesEffect s label) (s.world.deadLetters.lookup jobId)
      ((machine.step s label).world.deadLetters.lookup jobId) := by
  have moves := machine.step_moves s label
  generalize machine.step s label = t at moves
  cases moves with
  | submit | absent | crash | environment => exact .kept _ (by simp [takesEffect])
  | idle index ω settled => exact .kept _ (by simp [takesEffect,settled])
  | answer index ω call op rest found awaits =>
    have awaiting := State.awaits_eq_some.mpr ⟨call,rest,found,awaits⟩
    cases op with
    | dateNow => exact .kept _ (by simp [takesEffect,found,awaiting])
    | create letter =>
      have unlogged : takesEffect s (.resume index ω) = none := by
        simp [takesEffect,found,awaiting]
      have unresolved := followed.allowed found awaits
      simp only [Machine.answered,machine_perform]
      rcases create_lookup (w := s.world) (ω := ω) letter jobId with same | ⟨absent,stored⟩
      · rw [same]
        exact .kept _ (by simp [unlogged])
      · rw [absent,stored]
        exact .created letter unlogged unresolved
    | findOneAndUpdate target set =>
      obtain ⟨entry,logged,own,rfl⟩ := followed_update followed found awaits
      have effect : takesEffect s (.resume index ω) =
          if ω.delivery.applies = true ∧
            ((s.world.deadLetters.lookup target).any fun letter => letter.resolvedAt.isNone) = true
          then some entry else none := by
        simp [takesEffect,found,awaiting,logged]
      simp only [Machine.answered,machine_perform,update_lookup]
      split
      · rename_i here
        obtain ⟨applies,rfl⟩ := here
        cases stored : s.world.deadLetters.lookup jobId with
        | none => exact .kept none (by simp [effect,stored])
        | some letter =>
          cases resolved : letter.resolvedAt with
          | none =>
            have entered : takesEffect s (.resume index ω) = some entry := by
              simp [effect,applies,stored,resolved]
            simpa [resolved] using LetterMoves.resolved letter entry entered own resolved
          | some instant =>
            have unlogged : takesEffect s (.resume index ω) = none := by
              simp [effect,stored,resolved]
            simpa [resolved] using LetterMoves.kept (some letter) (by simp [unlogged])
      · rename_i elsewhere
        refine .kept _ ?_
        intro e member
        rw [effect] at member
        split at member
        · rename_i passes
          obtain rfl := Option.some.inj member
          exact fun same => elsewhere ⟨passes.1,same.symm.trans own⟩
        · cases member

end Step

/-- The audit fields of a stored dead letter, from the log about its job. -/
inductive Recorded : Option IDeadLetter → List AuditEntry → Prop where
  | missing : Recorded none []
  | unresolved (letter) (absent : letter.audit = (none,none,none)) : Recorded (some letter) []
  | resolved (letter entry) (audit : letter.audit = entry.audit) : Recorded (some letter) [entry]

section Moves

variable {jobId : String} {entry : Option AuditEntry} {entries : List AuditEntry}

theorem Recorded.unlogged {letter : IDeadLetter} (recorded : Recorded (some letter) entries)
    (unresolved : letter.resolvedAt = none) : entries = [] := by
  cases recorded with
  | unresolved => rfl
  | resolved _ entry audit =>
    have first := congrArg Prod.fst audit
    rw [IDeadLetter.audit,unresolved] at first
    cases first

theorem Recorded.moves {before after : Option IDeadLetter} (moves : LetterMoves jobId entry before after)
    (recorded : Recorded before entries) :
    Recorded after (entries ++ (entry.filter fun e => e.jobId = jobId).toList) := by
  cases moves with
  | kept stored other =>
    have spared : entry.filter (fun e => e.jobId = jobId) = none := by
      simpa [Option.filter_eq_none_iff] using other
    rw [spared]
    simpa using recorded
  | created letter unlogged unresolved =>
    cases recorded
    rw [unlogged]
    exact .unresolved letter unresolved
  | resolved letter own is same unresolved =>
    obtain rfl := recorded.unlogged unresolved
    rw [is,Option.filter_some,if_pos (decide_eq_true same)]
    exact .resolved _ own rfl

/-- A resolved dead letter stays as it is, and no later update takes effect on it. -/
theorem LetterMoves.final {letter : IDeadLetter} {after : Option IDeadLetter}
    (moves : LetterMoves jobId entry (some letter) after) (resolved : letter.resolvedAt ≠ none) :
    after = some letter ∧ entry.filter (fun e => e.jobId = jobId) = none := by
  cases moves with
  | kept stored other => exact ⟨rfl,by simpa [Option.filter_eq_none_iff] using other⟩
  | resolved _ own is same unresolved => exact absurd unresolved resolved

theorem LetterMoves.effect {own : AuditEntry} {before after : Option IDeadLetter}
    (moves : LetterMoves jobId (some own) before after) (same : own.jobId = jobId) :
    ∃ letter, before = some letter ∧ letter.resolvedAt = none ∧
      after = some (letter.resolve own.set) := by
  cases moves with
  | kept stored other => exact absurd same (other own rfl)
  | created letter unlogged => cases unlogged
  | resolved letter own is same unresolved =>
    obtain rfl := Option.some.inj is
    exact ⟨letter,rfl,unresolved,rfl⟩

end Moves

def returned (call : LetterCall) : Option IDeadLetter :=
  match call.history with
  | ⟨.findOneAndUpdate _ _,.ok found⟩ :: _ => found
  | _ => none

/-- The call at this place resolves the dead letter of the job, and has got this document. -/
def GetsDocument (s : LetterState) (index : Nat) (jobId : String) (letter : IDeadLetter) : Prop :=
  ∃ call resolvedBy resolution, s.calls[index]? = some call ∧
    call.request = .resolve jobId resolvedBy resolution ∧ returned call = some letter

def Performs (s : LetterState) (entry : AuditEntry) : Prop :=
  ∃ call, s.calls[entry.index]? = some call ∧
    call.request = .resolve entry.jobId entry.resolvedBy entry.resolution ∧
    (⟨.dateNow,.ok entry.resolvedAt⟩ : Exchange letterSignature Thrown) ∈ call.history

/-- The audit records tell the truth: every dead letter has the fields of the one call that
took effect on it, and no other call has got a document. -/
structure Audited (x : Logged LetterState AuditEntry) : Prop where
  followed : protocol.Followed x.state
  record : ∀ jobId, Recorded (stored jobId x) (about jobId x)
  origin : ∀ entry ∈ x.log, Performs x.state entry
  returned : ∀ index jobId letter, GetsDocument x.state index jobId letter →
    ∃ entry, about jobId x = [entry] ∧ entry.index = index ∧ stored jobId x = some letter

section Audit

variable {x : Logged LetterState AuditEntry} {label : LetterLabel} {jobId : String}

theorem about_step (label : LetterLabel) : about jobId (audited.step x label) = about jobId x ++
    ((takesEffect x.state label).filter fun entry => entry.jobId = jobId).toList := by
  simp only [about,audited,logged,List.filter_append]
  cases takesEffect x.state label with
  | none => rfl
  | some entry =>
    rw [Option.filter_some]
    by_cases same : entry.jobId = jobId <;> simp [same]

theorem moves_step (followed : protocol.Followed x.state) (label : LetterLabel) (jobId : String) :
    LetterMoves jobId (takesEffect x.state label) (stored jobId x)
      (stored jobId (audited.step x label)) :=
  letter_moves followed label jobId

theorem followed_step (followed : protocol.Followed x.state) (label : LetterLabel) :
    protocol.Followed (audited.step x label).state := by
  refine Protocol.followed_moves (machine.step_moves x.state label) ?_ followed
  cases label <;> simp [Protocol.Answers,protocol]

theorem record_step (audit : Audited x) (label : LetterLabel) (jobId : String) :
    Recorded (stored jobId (audited.step x label)) (about jobId (audited.step x label)) := by
  rw [about_step]
  exact (audit.record jobId).moves (moves_step audit.followed label jobId)

theorem takesEffect_eq_some {s : LetterState} {entry : AuditEntry}
    (effect : takesEffect s label = some entry) :
    ∃ call, s.calls[entry.index]? = some call ∧
      AuditEntry.ofCall entry.index call = some entry := by
  unfold takesEffect at effect
  split at effect
  · split at effect
    · rename_i index ω call target set found awaiting
      split at effect
      · obtain ⟨here,_⟩ := AuditEntry.ofCall_eq_some.mp effect
        exact ⟨call,here ▸ found,here ▸ effect⟩
      · cases effect
    · cases effect
  · cases effect

theorem origin_step (audit : Audited x) (label : LetterLabel) :
    ∀ entry ∈ (audited.step x label).log, Performs (audited.step x label).state entry := by
  intro entry member
  have here : Performs x.state entry := by
    rcases List.mem_append.mp member with old | new
    · exact audit.origin entry old
    · obtain ⟨call,found,logged⟩ := takesEffect_eq_some (Option.mem_toList.mp new)
      obtain ⟨_,request,history⟩ := AuditEntry.ofCall_eq_some.mp logged
      exact ⟨call,found,request,by simp [history]⟩
  obtain ⟨call,found,request,read⟩ := here
  obtain ⟨later,stays,same,grows⟩ := machine.call_remains label found
  exact ⟨later,stays,same.trans request,grows.subset read⟩

theorem returned_kept (audit : Audited x) (label : LetterLabel) {index : Nat} {letter : IDeadLetter}
    (gets : GetsDocument x.state index jobId letter) :
    ∃ entry, about jobId (audited.step x label) = [entry] ∧ entry.index = index ∧
      stored jobId (audited.step x label) = some letter := by
  obtain ⟨entry,logged,place,kept⟩ := audit.returned index jobId letter gets
  have record := audit.record jobId
  have moves := moves_step audit.followed label jobId
  rw [logged,kept] at record
  rw [kept] at moves
  cases record with
  | resolved _ _ fields =>
    have instant : letter.resolvedAt = some entry.resolvedAt := congrArg Prod.fst fields
    have resolved : letter.resolvedAt ≠ none := instant ▸ Option.some_ne_none _
    obtain ⟨stays,unlogged⟩ := moves.final resolved
    refine ⟨entry,?_,place,stays⟩
    rw [about_step,unlogged,logged]
    rfl

/-- A call that gets a document is the first whose update takes effect on it. -/
theorem returned_answer (audit : Audited x) {index : Nat} {call : LetterCall} {target : String}
    {set : Resolution} {rest} {ω : Oracle} {letter : IDeadLetter} {resolvedBy : String}
    {resolution : Text} (found : x.state.calls[index]? = some call)
    (awaits : call.program = .await (.findOneAndUpdate target set) rest)
    (request : call.request = .resolve jobId resolvedBy resolution)
    (replied : (LetterOp.perform (.findOneAndUpdate target set) ω x.state.world).1 =
      .ok (some letter)) :
    ∃ entry, about jobId (audited.step x (.resume index ω)) = [entry] ∧ entry.index = index ∧
      stored jobId (audited.step x (.resume index ω)) = some letter := by
  have awaiting := State.awaits_eq_some.mpr ⟨call,rest,found,awaits⟩
  obtain ⟨entry,logged,own,rfl⟩ := followed_update audit.followed found awaits
  obtain ⟨place,asked,_⟩ := AuditEntry.ofCall_eq_some.mp logged
  -- The log's entry is about the job that the call asks for.
  obtain ⟨rfl,_⟩ := LetterRequest.resolve.inj (asked.symm.trans request)
  subst own
  obtain ⟨performed,old,present,unresolved,rfl⟩ := update_returned replied
  have effect : takesEffect x.state (.resume index ω) = some entry := by
    simp [takesEffect,found,awaiting,performed,Delivery.applies,present,unresolved,logged]
  have record := audit.record entry.jobId
  have moves := moves_step audit.followed (.resume index ω) entry.jobId
  rw [effect] at moves
  obtain ⟨stale,known,_,after⟩ := moves.effect rfl
  obtain rfl := Option.some.inj (known.symm.trans present)
  rw [known] at record
  refine ⟨entry,?_,place,after⟩
  rw [about_step,effect,record.unlogged unresolved]
  simp

theorem returned_step (audit : Audited x) (label : LetterLabel) {index : Nat} {letter : IDeadLetter}
    (gets : GetsDocument (audited.step x label).state index jobId letter) :
    ∃ entry, about jobId (audited.step x label) = [entry] ∧ entry.index = index ∧
      stored jobId (audited.step x label) = some letter := by
  obtain ⟨call,resolvedBy,resolution,here,request,got⟩ := gets
  cases Machine.step_comes here with
  | kept found => exact returned_kept audit label ⟨call,resolvedBy,resolution,found,request,got⟩
  | crashed old found settled =>
    subst settled
    exact returned_kept audit label ⟨old,resolvedBy,resolution,found,request,got⟩
  | submitted _ _ accepted =>
    subst accepted
    cases got
  | started _ _ _ _ _ _ _ _ _ begun => cases begun
  | answered ω old op rest is found awaits advanced =>
    subst advanced is
    cases op with
    | dateNow => cases got
    | create inserted => cases got
    | findOneAndUpdate target set =>
      cases replied : (LetterOp.perform (.findOneAndUpdate target set) ω x.state.world).1 with
      | error e =>
        simp only [returned,Call.advance,machine_perform,replied] at got
        cases got
      | ok document =>
        simp only [returned,Call.advance,machine_perform,replied] at got
        subst got
        exact returned_answer audit found awaits request replied

theorem audited_step (audit : Audited x) (label : LetterLabel) : Audited (audited.step x label) where
  followed := followed_step audit.followed label
  record := record_step audit label
  origin := origin_step audit label
  returned _ _ _ gets := returned_step audit label gets

def unaudited (w : World) : Logged LetterState AuditEntry := ⟨start w,[]⟩

theorem audited_start (w : World) : Audited (unaudited w) where
  followed := Protocol.followed_nil _
  record _ := .missing
  origin _ member := absurd member List.not_mem_nil
  returned _ _ _ gets := by
    obtain ⟨_,_,_,here,_⟩ := gets
    cases here

theorem audited_run (w : World) (labels : List LetterLabel) :
    Audited (audited.run (unaudited w) labels) :=
  always_run Audited (fun _ label audit => audited_step audit label) (audited_start w) labels

end Audit

/-- The tenant and the type that a listing asks for, if it does. -/
def requested (tenantId : Option String) (jobType : Option JobType) (letter : IDeadLetter) : Bool :=
  tenantId.all (fun wanted => wanted = "" || letter.tenantId = wanted) &&
    jobType.all fun wanted => letter.jobType = wanted

theorem unresolvedFilter_iff (tenantId : Option String) (jobType : Option JobType)
    (letter : IDeadLetter) : unresolvedFilter tenantId jobType letter = true ↔
      letter.resolvedAt = none ∧ requested tenantId jobType letter = true := by
  simp [unresolvedFilter,requested,and_assoc]

section Runs

variable {x : Logged LetterState AuditEntry} {jobId : String} {letter : IDeadLetter}

theorem Audited.resolved_iff (audit : Audited x) (present : stored jobId x = some letter) :
    letter.resolvedAt = none ↔ about jobId x = [] := by
  have record := audit.record jobId
  rw [present] at record
  constructor
  · exact record.unlogged
  · intro unlogged
    rw [unlogged] at record
    cases record with
    | unresolved _ absent => exact congrArg Prod.fst absent

theorem final_run (labels : List LetterLabel) (audit : Audited x) (present : stored jobId x = some letter)
    (resolved : letter.resolvedAt ≠ none) : stored jobId (audited.run x labels) = some letter := by
  have kept : Audited (audited.run x labels) ∧ stored jobId (audited.run x labels) = some letter := by
    refine always_run (fun y => Audited y ∧ stored jobId y = some letter) ?_ ⟨audit,present⟩ labels
    rintro y label ⟨still,here⟩
    have moves := moves_step still.followed label jobId
    rw [here] at moves
    exact ⟨audited_step still label,(moves.final resolved).1⟩
  exact kept.2

theorem listed_iff (audit : Audited x) (order : SortOrder IDeadLetter.deadAt)
    (tenantId : Option String) (jobType : Option JobType) {limit : Nat} (positive : 1 ≤ limit) :
    (∃ page, 1 ≤ page ∧ letter ∈ (findUnresolved order x.state.world.deadLetters.docs tenantId jobType
        page limit).data) ↔
      stored letter.jobId x = some letter ∧ about letter.jobId x = [] ∧
        requested tenantId jobType letter = true := by
  have listed := mem_page order x.state.world.deadLetters.docs (unresolvedFilter tenantId jobType)
    positive letter
  refine listed.trans ?_
  rw [List.mem_filter,unresolvedFilter_iff]
  constructor
  · rintro ⟨member,unresolved,wanted⟩
    have present : stored letter.jobId x = some letter := Collection.lookup_of_mem member
    exact ⟨present,(audit.resolved_iff present).mp unresolved,wanted⟩
  · rintro ⟨present,unlogged,wanted⟩
    exact ⟨Collection.lookup_mem present,(audit.resolved_iff present).mpr unlogged,wanted⟩

end Runs

end Letters

open Letters

/-- Resolution over a run of calls, from an empty collection: what is recorded, by which
call, that it stays, and what is listed as unresolved. -/
structure WriteOnce (w : World) (labels : List LetterLabel) : Prop where
  recorded : ∀ jobId, Recorded (stored jobId (audited.run (unaudited w) labels))
    (about jobId (audited.run (unaudited w) labels))
  performed : ∀ entry ∈ (audited.run (unaudited w) labels).log,
    Performs (machine.run (start w) labels) entry
  returned : ∀ index jobId letter, GetsDocument (machine.run (start w) labels) index jobId letter →
    ∃ entry, about jobId (audited.run (unaudited w) labels) = [entry] ∧ entry.index = index ∧
      stored jobId (audited.run (unaudited w) labels) = some letter
  once : ∀ first second jobId letter other,
    GetsDocument (machine.run (start w) labels) first jobId letter →
    GetsDocument (machine.run (start w) labels) second jobId other → first = second
  final : ∀ more jobId letter,
    stored jobId (audited.run (unaudited w) labels) = some letter → letter.resolvedAt ≠ none →
    stored jobId (audited.run (unaudited w) (labels ++ more)) = some letter
  listed : ∀ order letter tenantId jobType limit, 1 ≤ limit →
    ((∃ page, 1 ≤ page ∧ letter ∈ (findUnresolved order
        (machine.run (start w) labels).world.deadLetters.docs tenantId jobType page limit).data) ↔
      stored letter.jobId (audited.run (unaudited w) labels) = some letter ∧
        about letter.jobId (audited.run (unaudited w) labels) = [] ∧
        requested tenantId jobType letter = true)

/-- Whatever calls of `create` and `resolve` interleave, resolution is write-once. -/
theorem resolution_write_once (w : World) (labels : List LetterLabel) : WriteOnce w labels := by
  have audit := audited_run w labels
  have same : (audited.run (unaudited w) labels).state = machine.run (start w) labels :=
    logged_run _ takesEffect (unaudited w) labels
  refine ⟨audit.record,?_,?_,?_,?_,?_⟩
  · rw [← same]
    exact audit.origin
  · rw [← same]
    exact audit.returned
  · rw [← same]
    intro first second jobId letter other got gotToo
    obtain ⟨entry,logged,rfl,_⟩ := audit.returned first jobId letter got
    obtain ⟨entry',logged',rfl,_⟩ := audit.returned second jobId other gotToo
    obtain rfl := List.singleton_inj.mp (logged.symm.trans logged')
    rfl
  · intro more jobId letter present resolved
    rw [run_append]
    exact final_run more audit present resolved
  · rw [← same]
    exact fun order letter tenantId jobType limit positive =>
      listed_iff audit order tenantId jobType positive

/-- The dead letter of a report is resolved twice, and the later call is the faster one. -/
example : ((audited.run (unaudited World.empty)
    ([.submit (.create ⟨reportId,.scheduledReport,"tenant",reportRequest.payload,3,[]⟩),
        .submit (.resolve reportId "first" (text "requeued")),
        .submit (.resolve reportId "second" (text "discarded"))] ++
      [0,0,0,1,2,2,1].map fun index => .resume index (calm 0))).log.map AuditEntry.resolvedBy) =
    ["second"] := by decide +kernel

end JobScheduler
