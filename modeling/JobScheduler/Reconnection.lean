import JobScheduler.BrokerConnection
import Mathlib.Algebra.BigOperators.Group.Finset.Basic
import Mathlib.Algebra.Order.BigOperators.Group.Finset

/-! Reconnecting. How often a call tries to connect, how long it pauses in all, and which
error it gives up with. -/
namespace JobScheduler.Amqp

open Finset

/-- How often a request connects at most, and how long it pauses after each failure. -/
structure RetryPolicy where
  limit : Nat
  longest : Nat → Nat

/-- `Math.random()` adds less than a second to a pause. -/
def policy : Request → RetryPolicy
  | .connectMongoDB => ⟨MongoDB.maxRetries,fun attempt => MongoDB.baseRetryDelayMs * 2 ^ attempt⟩
  | .connect _ | .publish _ _ _ =>
    ⟨maxRetries,fun attempt => min (baseRetryDelayMs * 2 ^ attempt) maxRetryDelayMs + 999⟩
  | .disconnect _ => ⟨0,fun _ => 0⟩

namespace RetryPolicy

variable (p : RetryPolicy)

def pauses (failures : Nat) : Nat := ∑ attempt ∈ range failures, p.longest attempt

theorem pauses_succ (failures : Nat) : p.pauses (failures + 1) = p.pauses failures + p.longest failures :=
  sum_range_succ _ _

theorem pauses_add {p : RetryPolicy} {slept ms failures : Nat} (few : slept ≤ p.pauses failures)
    (short : ms ≤ p.longest failures) : slept + ms ≤ p.pauses (failures + 1) :=
  (Nat.add_le_add few short).trans_eq (p.pauses_succ failures).symm

theorem pauses_mono {few many : Nat} (fewer : few ≤ many) : p.pauses few ≤ p.pauses many :=
  sum_le_sum_of_subset (range_subset_range.mpr fewer)

/-- There is no pause after the last failure. -/
def patience : Nat := p.pauses (p.limit - 1)

end RetryPolicy

def opens : Op → Bool
  | .connect _ | .mongooseConnect => true
  | _ => false

def sleeps : Op → Nat
  | .sleep ms => ms
  | _ => 0

def isLocal : Op → Bool
  | .random | .sleep _ => true
  | _ => false

def failure (exchange : Exchange signature Thrown) : Option Thrown :=
  match exchange.reply with
  | .error e => some e
  | .ok _ => none

/-- What a call has spent on its attempts, and its last error. -/
structure Spent where
  request : Request
  attempts : Nat
  slept : Nat
  failed : Option Thrown

namespace Spent

def policy (q : Spent) : RetryPolicy := Amqp.policy q.request

def allowed (q : Spent) (op : Op) : Prop :=
  (opens op = true → q.attempts < q.policy.limit) ∧
    (0 < sleeps op → q.attempts < q.policy.limit ∧ q.slept + sleeps op ≤ q.policy.pauses q.attempts)

def next (q : Spent) (op : Op) (reply : Except Thrown op.Reply) : Spent :=
  ⟨q.request,q.attempts + (opens op).toNat,q.slept + sleeps op,(failure ⟨op,reply⟩).or q.failed⟩

def monitor : Program.Monitor signature Thrown Spent where
  allowed := allowed
  answers _ op reply := isLocal op = true → failure ⟨op,reply⟩ = none
  next := next

@[simp] theorem monitor_allowed : monitor.allowed = allowed := rfl
@[simp] theorem monitor_answers : monitor.answers = fun _ op reply =>
    isLocal op = true → failure ⟨op,reply⟩ = none := rfl
@[simp] theorem monitor_next : monitor.next = next := rfl

/-- A call that gives up has used all its attempts, and throws the error of the last. -/
def post (q : Spent) (result : Except Thrown Unit) : Prop :=
  ∀ e, e ≠ machine.crashed → result = .error e →
    match q.request with
    | .connectMongoDB => q.attempts = q.policy.limit ∧ q.failed.map MongoDB.connectionFailed = some e
    | .connect _ => q.attempts = q.policy.limit ∧ q.failed = some e
    | .publish _ _ _ => q.failed = some e
    | .disconnect _ => False

section Programs

attribute [local simp] allowed next opens sleeps isLocal failure Program.forall_except Program.perform
  policy

variable {q : Spent} {instanceId : String} {post : Spent → Except Thrown Unit → Prop}

theorem meets_declareAll (channel : Option Nat) (rest : List Declaration)
    (all : post q (.ok ())) (fails : ∀ e, post { q with failed := some e } (.error e)) :
    Program.wp monitor post (declareAll instanceId channel rest) q := by
  induction rest generalizing channel with
  | nil => exact all
  | cons declaration rest ih =>
    simp only [declareAll,Program.wp_bind]
    simp [fails]
    exact fun channel => ih channel

def Before (request : Request) (n : Nat) (q : Spent) : Prop :=
  q.request = request ∧ q.attempts = n ∧ q.slept ≤ (Amqp.policy request).pauses n

theorem meets_connectRabbitMQ (request : Request)
    (own : Amqp.policy request = Amqp.policy (.connect instanceId)) (start : Before request 0 q)
    (all : ∀ q : Spent, q.request = request → post q (.ok ()))
    (fails : ∀ e (q : Spent), q.request = request → q.attempts = maxRetries → q.failed = some e →
      post q (.error e)) :
    Program.wp monitor post (connectRabbitMQ instanceId) q := by
  refine wp_retryFrom (Before request) ?_ start (by decide)
  rintro k left ⟨owner,n,slept,failed⟩ counted ⟨same,now,few⟩
  obtain rfl : owner = request := same
  obtain rfl : n = k := now
  have within : n < maxRetries := by omega
  have limit : (Amqp.policy owner).limit = maxRetries := by rw [own]; rfl
  have failing : ∀ e, attemptPost monitor post pause id (Before owner) n left
      ⟨owner,n + 1,slept,some e⟩ (.error e) := by
    intro e
    simp only [attemptPost]
    split
    · rename_i final
      exact fails e _ rfl (by simp only; omega) rfl
    · simp [pause]
      intro jitter
      have short : min (baseRetryDelayMs * 2 ^ n) maxRetryDelayMs + jitter % 1000 ≤
          (Amqp.policy owner).longest n := by
        rw [own]
        exact Nat.add_le_add_left (Nat.le_of_lt_succ (Nat.mod_lt _ (by decide))) _
      have spent := RetryPolicy.pauses_add few short
      exact ⟨fun _ => ⟨by omega,spent⟩,rfl,rfl,spent⟩
  simp only [connectAttempt,Program.wp_bind]
  simp
  refine ⟨by omega,failing,fun link => ⟨failing,?_⟩⟩
  exact meets_declareAll _ _ (all _ rfl) failing

end Programs

section Programs

attribute [local simp] allowed next opens sleeps isLocal failure Program.forall_except Program.perform
  policy post

theorem meets_program (request : Request) :
    Program.wp monitor post (program request) ⟨request,0,0,none⟩ := by
  cases request with
  | connectMongoDB =>
    refine wp_retryFrom (Before .connectMongoDB) ?_ ⟨rfl,rfl,Nat.le_refl 0⟩ (by decide)
    rintro k left ⟨_,n,slept,failed⟩ counted ⟨rfl,same,few⟩
    obtain rfl : n = k := same
    have within : n < (Amqp.policy .connectMongoDB).limit := by
      change n < MongoDB.maxRetries
      omega
    simp
    refine ⟨within,fun e => ?_,?_⟩
    · simp only [attemptPost]
      split
      · intro other _ same
        obtain rfl := Except.error.inj same
        exact ⟨by change n + 1 = MongoDB.maxRetries; omega,rfl⟩
      · simp [MongoDB.waitBeforeRetry]
        have spent := RetryPolicy.pauses_add few (Nat.le_refl (MongoDB.baseRetryDelayMs * 2 ^ n))
        exact ⟨fun _ => ⟨by change n + 1 < MongoDB.maxRetries; omega,spent⟩,rfl,rfl,spent⟩
    · intro _ other _ same
      cases same
  | connect instanceId =>
    apply meets_connectRabbitMQ (.connect instanceId) rfl
    · exact ⟨rfl,rfl,Nat.le_refl 0⟩
    · simp
    · rintro e ⟨_,attempts,slept,failed⟩ rfl spent last other _ same
      obtain rfl := Except.error.inj same
      exact ⟨spent,last⟩
  | publish instanceId key payload =>
    simp only [program,publishToExchange,Program.wp_bind]
    simp
    refine meets_connectRabbitMQ (.publish instanceId key payload) rfl ?_ ?_ ?_
    · exact ⟨rfl,rfl,Nat.le_refl 0⟩
    · rintro ⟨_,attempts,slept,failed⟩ rfl
      simp
    · rintro e ⟨_,attempts,slept,failed⟩ rfl spent last
      simp_all
  | disconnect instanceId =>
    simp [program,disconnectRabbitMQ]
    rintro (_ | link)
    · simp
    · simp

end Programs

end Spent

def spending : Protocol machine Spent where
  monitor := Spent.monitor
  start request := ⟨request,0,0,none⟩
  post := Spent.post
  meets := Spent.meets_program

def attempts (call : BrokerCall) : Nat := call.history.countP fun exchange => opens exchange.op

def slept (call : BrokerCall) : Nat :=
  call.history.foldr (fun exchange total => total + sleeps exchange.op) 0

def lastError (call : BrokerCall) : Option Thrown := call.history.findSome? failure

theorem phase_spent (call : BrokerCall) :
    spending.phase call = ⟨call.request,attempts call,slept call,lastError call⟩ := by
  obtain ⟨request,program,history⟩ := call
  induction history with
  | nil => rfl
  | cons exchange history ih =>
    have opened : attempts ⟨request,program,exchange :: history⟩ =
        attempts ⟨request,program,history⟩ + (opens exchange.op).toNat := by
      simp only [attempts,List.countP_cons]
      cases opens exchange.op <;> rfl
    have lies : slept ⟨request,program,exchange :: history⟩ =
        slept ⟨request,program,history⟩ + sleeps exchange.op := rfl
    have failed : lastError ⟨request,program,exchange :: history⟩ =
        (failure exchange).or (lastError ⟨request,program,history⟩) := by
      simp only [lastError,List.findSome?_cons]
      cases failure exchange <;> rfl
    rw [opened,lies,failed]
    exact congrArg (fun q => Spent.next q exchange.op exchange.reply) ih

variable {s : BrokerState} {label : BrokerLabel}

theorem spending_followed (followed : spending.Followed s) :
    spending.Followed (machine.step s label) := by
  refine Protocol.followed_moves (machine.step_moves s label) ?_ followed
  cases label with
  | crash index =>
    intro call found e uncrashed same
    exact absurd (Except.error.inj same).symm uncrashed
  | resume index ω =>
    intro call op rest _ _ isLocal
    cases op with
    | random | sleep => rfl
    | _ => cases isLocal
  | _ => trivial

structure Patient (q : Spent) : Prop where
  attempts : q.attempts ≤ q.policy.limit
  slept : q.slept ≤ q.policy.pauses (min q.attempts (q.policy.limit - 1))

theorem patient_next {q : Spent} {op : Op} (patient : Patient q) (may : q.allowed op)
    (reply : Except Thrown op.Reply) : Patient (q.next op reply) := by
  obtain ⟨opening,sleeping⟩ := may
  have grows : q.policy.pauses (min q.attempts (q.policy.limit - 1)) ≤
      q.policy.pauses (min (q.attempts + (opens op).toNat) (q.policy.limit - 1)) :=
    q.policy.pauses_mono (by omega)
  constructor
  · change q.attempts + (opens op).toNat ≤ q.policy.limit
    cases opened : opens op with
    | false => exact patient.attempts
    | true => exact opening opened
  · change q.slept + sleeps op ≤ q.policy.pauses (min (q.attempts + (opens op).toNat) (q.policy.limit - 1))
    by_cases sleeps' : 0 < sleeps op
    · obtain ⟨more,short⟩ := sleeping sleeps'
      refine short.trans (q.policy.pauses_mono ?_)
      omega
    · rw [Nat.eq_zero_of_not_pos sleeps',Nat.add_zero]
      exact patient.slept.trans grows

theorem patient_step (followed : spending.Followed s)
    (patient : ∀ call ∈ s.calls, Patient (spending.phase call)) :
    ∀ call ∈ (machine.step s label).calls, Patient (spending.phase call) := by
  refine Machine.every_moves _ (machine.step_moves s label) ?_ ?_ ?_ patient
  · exact fun request => ⟨Nat.zero_le _,Nat.zero_le _⟩
  · intro index ω call op rest _ found awaits before
    exact patient_next before (followed.allowed found awaits) _
  · exact fun index call _ _ before => before

/-- Over all runs, no call tries to connect more often than its policy says, nor pauses longer
in all; a connect that gives up has used all its attempts and throws the error of the last. -/
theorem reconnection_bounded (labels : List BrokerLabel) :
    ∀ t, machine.Reached initial labels t → ∀ call ∈ t.calls,
      attempts call ≤ (policy call.request).limit ∧ slept call ≤ (policy call.request).patience ∧
      ∀ e, e ≠ machine.crashed → call.program = .settled (.error e) →
        match call.request with
        | .connectMongoDB => attempts call = 5 ∧ (lastError call).map MongoDB.connectionFailed = some e
        | .connect _ => attempts call = 10 ∧ lastError call = some e
        | .publish _ _ _ => lastError call = some e
        | .disconnect _ => False := by
  intro t reached call member
  obtain ⟨followed,patient⟩ := Machine.always_reached (fun s : BrokerState => spending.Followed s ∧
      ∀ call ∈ s.calls, Patient (spending.phase call))
    (fun _ _ holds => ⟨spending_followed holds.1,patient_step holds.1 holds.2⟩)
    ⟨spending.followed_nil Broker.empty,fun call member => by cases member⟩ reached
  have bounded := patient call member
  rw [phase_spent] at bounded
  refine ⟨bounded.attempts,bounded.slept.trans (RetryPolicy.pauses_mono _ (Nat.min_le_right _ _)),?_⟩
  intro e uncrashed settled
  have whole := followed call member
  rw [settled,phase_spent] at whole
  have post := whole e uncrashed rfl
  cases requested : call.request <;> simp only [requested] at post ⊢ <;> exact post

def refused : Thrown := .error (text "connect ECONNREFUSED") none

def refusing : List BrokerLabel :=
  .submit .connectMongoDB :: List.replicate 9 (.resume 0 ⟨.lost refused,0,true⟩)

theorem reconnection_bounded_refused :
    ∃ call, (machine.run initial refusing).calls[0]? = some call ∧ attempts call = 5 ∧
      slept call ≤ (policy .connectMongoDB).patience := by
  have settled : ∃ call, (machine.run initial refusing).calls[0]? = some call ∧
      call.request = .connectMongoDB ∧
      call.program = .settled (.error (MongoDB.connectionFailed refused)) := ⟨_,rfl,rfl,rfl⟩
  obtain ⟨call,found,connects,gave⟩ := settled
  have bounded := reconnection_bounded refusing _ ⟨refusing,List.prefix_rfl,rfl⟩ call
    (List.mem_of_getElem? found)
  rw [connects] at bounded
  exact ⟨call,found,(bounded.2.2 _ (by decide) gave).1,bounded.2.1⟩

example : (policy (.connect "a")).patience = 159991 := by decide

example : (policy .connectMongoDB).patience = 30000 := by decide

end JobScheduler.Amqp
