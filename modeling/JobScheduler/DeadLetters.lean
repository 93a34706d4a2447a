import JobScheduler.Effects
import JobScheduler.Lineage

/-! The dead-letter repository. A call reads the clock and then awaits one operation on the
collection; calls of `create` and `resolve` interleave in any way. -/
namespace JobScheduler

structure CreateDeadLetterInput where
  jobId : String
  jobType : JobType
  tenantId : String
  payload : JobPayload
  attempts : Nat
  errors : List IDeadLetterError

def CreateDeadLetterInput.document (input : CreateDeadLetterInput) (deadAt expiresFrom : Int) :
    IDeadLetter where
  jobId := input.jobId
  jobType := input.jobType
  tenantId := input.tenantId
  payload := input.payload
  attempts := input.attempts
  errors := input.errors.take 10
  deadAt := deadAt
  resolvedAt := none
  resolvedBy := none
  resolution := none
  expiresAt := expiresFrom + deadLetterTtlSeconds * 1000

structure Resolution where
  resolvedAt : Int
  resolvedBy : String
  resolution : Text

def IDeadLetter.resolve (set : Resolution) (letter : IDeadLetter) : IDeadLetter :=
  { letter with
    resolvedAt := some set.resolvedAt
    resolvedBy := some set.resolvedBy
    resolution := some set.resolution }

inductive LetterOp where
  | dateNow
  | create (letter : IDeadLetter)
  | findOneAndUpdate (jobId : String) (set : Resolution)

abbrev LetterOp.Reply : LetterOp → Type
  | .dateNow => Int
  | .create _ => IDeadLetter
  | .findOneAndUpdate _ _ => Option IDeadLetter

abbrev letterSignature : Signature := ⟨LetterOp,LetterOp.Reply⟩

/-- `resolve` updates without running the validators of the schema. -/
def LetterOp.perform : (op : LetterOp) → Oracle → World → Except Thrown op.Reply × World
  | .dateNow, ω, w => (.ok ω.clock,w)
  | .create letter, ω, w =>
    match if letter.valid then w.deadLetters.insert letter else none with
    | some letters => deliver ω.delivery w (.ok letter,{ w with deadLetters := letters })
    | none => (.error ω.refusal,w)
  | .findOneAndUpdate jobId set, ω, w =>
    let answer := w.deadLetters.findOneAndUpdate jobId (fun letter => letter.resolvedAt.isNone)
      (IDeadLetter.resolve set) fun _ => rfl
    deliver ω.delivery w (.ok answer.1,{ w with deadLetters := answer.2 })

def LetterOp.await (op : LetterOp) : Program letterSignature Thrown op.Reply :=
  Program.perform (σ := letterSignature) op

namespace DeadLetterRepository

def create (input : CreateDeadLetterInput) : Program letterSignature Thrown IDeadLetter := do
  let deadAt ← LetterOp.dateNow.await
  let expiresFrom ← LetterOp.dateNow.await
  (LetterOp.create (input.document deadAt expiresFrom)).await

def resolve (jobId resolvedBy : String) (resolution : Text) :
    Program letterSignature Thrown (Option IDeadLetter) := do
  let resolvedAt ← LetterOp.dateNow.await
  (LetterOp.findOneAndUpdate jobId ⟨resolvedAt,resolvedBy,resolution.take 1000⟩).await

end DeadLetterRepository

inductive LetterRequest where
  | create (input : CreateDeadLetterInput)
  | resolve (jobId resolvedBy : String) (resolution : Text)

namespace Letters

def program : LetterRequest → Program letterSignature Thrown Unit
  | .create input => do let _ ← DeadLetterRepository.create input; pure ()
  | .resolve jobId resolvedBy resolution => do
    let _ ← DeadLetterRepository.resolve jobId resolvedBy resolution
    pure ()

/-- The rest of the service does what it likes with the other stores. -/
def machine : Machine letterSignature Thrown World Oracle LetterRequest World where
  perform := LetterOp.perform
  starts _ := []
  program := program
  environment others w := { others with deadLetters := w.deadLetters }
  crashed := .error (text "process exited") none

end Letters

abbrev LetterCall := Call letterSignature Thrown LetterRequest
abbrev LetterState := State letterSignature Thrown World LetterRequest
abbrev LetterLabel := Label Oracle LetterRequest World

namespace Letters

@[simp] theorem machine_perform : machine.perform = LetterOp.perform := rfl

def start (w : World) : LetterState := ⟨{ w with deadLetters := .empty },[]⟩

section Effects

variable {w : World} {ω : Oracle}

theorem create_lookup (letter : IDeadLetter) (jobId : String) :
    (LetterOp.perform (.create letter) ω w).2.deadLetters.lookup jobId =
        w.deadLetters.lookup jobId ∨
      w.deadLetters.lookup jobId = none ∧
        (LetterOp.perform (.create letter) ω w).2.deadLetters.lookup jobId = some letter := by
  simp only [LetterOp.perform]
  split
  · rename_i letters inserted
    rw [deliver_world]
    split at inserted
    · obtain ⟨absent,after⟩ := Collection.lookup_insert inserted
      split
      · simp only [after]
        split
        · rename_i same
          exact .inr ⟨same ▸ absent,rfl⟩
        · exact .inl rfl
      · exact .inl rfl
    · cases inserted
  · exact .inl rfl

theorem update_lookup (target : String) (set : Resolution) (jobId : String) :
    (LetterOp.perform (.findOneAndUpdate target set) ω w).2.deadLetters.lookup jobId =
      if ω.delivery.applies = true ∧ jobId = target then
        (w.deadLetters.lookup target).map fun letter =>
          if letter.resolvedAt.isNone then letter.resolve set else letter
      else w.deadLetters.lookup jobId := by
  simp only [LetterOp.perform,deliver_world]
  by_cases applies : ω.delivery.applies = true
  · simp only [applies,if_true,true_and]
    exact Collection.lookup_findOneAndUpdate target _ _ _ jobId
  · simp only [applies,false_and,if_false,Bool.false_eq_true]

theorem update_returned {target : String} {set : Resolution} {letter : IDeadLetter}
    (replied : (LetterOp.perform (.findOneAndUpdate target set) ω w).1 = .ok (some letter)) :
    ω.delivery = .performed ∧ ∃ old, w.deadLetters.lookup target = some old ∧
      old.resolvedAt = none ∧ letter = old.resolve set := by
  obtain ⟨performed,reply⟩ := deliver_ok replied
  have found := (Collection.findOneAndUpdate_fst target ..).symm.trans (Except.ok.inj reply)
  obtain ⟨old,matched,rfl⟩ := Option.map_eq_some_iff.mp found
  obtain ⟨stored,unresolved⟩ := Option.filter_eq_some_iff.mp matched
  exact ⟨performed,old,stored,Option.isNone_iff_eq_none.mp unresolved,rfl⟩

end Effects

end Letters

end JobScheduler
