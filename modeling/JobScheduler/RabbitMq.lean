import JobScheduler.TopicExchange
import JobScheduler.Types

/-! The broker topology that `connectRabbitMQ` asserts, and what a publish places
in which queue under it. -/
namespace JobScheduler

inductive ExchangeName where
  | schedulerExchange
  | schedulerDlx
  deriving DecidableEq

inductive QueueName where
  | completed
  | failed
  | dead
  | scheduled
  | heartbeat
  deriving DecidableEq

/-- The dotted words of the key, such as `job.completed.topic`. -/
def RoutingKey.words : RoutingKey → List String
  | .jobCompleted => ["job","completed","topic"]
  | .jobFailed => ["job","failed","topic"]
  | .jobDead => ["job","dead","topic"]
  | .jobScheduled => ["job","scheduled","topic"]
  | .jobClaimed => ["job","claimed","topic"]
  | .jobRetrying => ["job","retrying","topic"]
  | .jobCancelled => ["job","cancelled","topic"]
  | .jobHeartbeat => ["job","heartbeat","topic"]

namespace RabbitMq

/-- `QUEUES`, which has no entry for claimed, retrying and cancelled. -/
def queues : RoutingKey → Option QueueName
  | .jobCompleted => some .completed
  | .jobFailed => some .failed
  | .jobDead => some .dead
  | .jobScheduled => some .scheduled
  | .jobHeartbeat => some .heartbeat
  | .jobClaimed | .jobRetrying | .jobCancelled => none

/-- The `bindQueue` calls of `connectRabbitMQ`. -/
def bindQueueCalls : List (QueueName × ExchangeName × RoutingKey) := [
  (.completed,.schedulerExchange,.jobCompleted),
  (.failed,.schedulerExchange,.jobFailed),
  (.dead,.schedulerDlx,.jobDead),
  (.scheduled,.schedulerExchange,.jobScheduled),
  (.heartbeat,.schedulerExchange,.jobHeartbeat)]

def bindings : List (Binding ExchangeName QueueName) :=
  bindQueueCalls.map fun (queue,exchange,key) => ⟨queue,exchange,key.words.map .literal⟩

/-- `x-dead-letter-exchange` and `x-dead-letter-routing-key` of a queue. -/
def deadLetterTarget : QueueName → Option (ExchangeName × RoutingKey)
  | .failed => some (.schedulerDlx,.jobDead)
  | _ => none

abbrev Placed := List (QueueName × EventPayload)

def publish (placed : Placed) (exchange : ExchangeName) (key : RoutingKey)
    (payload : EventPayload) : Placed :=
  placed ++ (TopicExchange.route bindings exchange key.words).map fun queue => (queue,payload)

/-- A queue gives up on one of its messages and dead-letters it. -/
def giveUp (placed : Placed) (index : Nat) : Placed :=
  match placed[index]? with
  | none => placed
  | some (queue,payload) =>
    match deadLetterTarget queue with
    | none => placed
    | some (exchange,key) => publish placed exchange key payload

theorem words_injective : Function.Injective RoutingKey.words := by
  intro a b same
  cases a <;> cases b <;> first | rfl | simp [RoutingKey.words] at same

/-- The topology has no wildcards, so a message reaches a queue only through a
binding on its own exchange with its own key. -/
theorem mem_route_bindings {exchange : ExchangeName} {key : RoutingKey} {queue : QueueName} :
    queue ∈ TopicExchange.route bindings exchange key.words ↔
      (queue,exchange,key) ∈ bindQueueCalls := by
  simp only [TopicExchange.mem_route,bindings,List.mem_map,Prod.exists]
  constructor
  · rintro ⟨_,⟨q,e,k,called,rfl⟩,rfl,matching,rfl⟩
    have same := words_injective ((TopicExchange.patternMatches_literal _ _).mp matching)
    subst same
    exact called
  · intro called
    exact ⟨_,⟨queue,exchange,key,called,rfl⟩,rfl,
      (TopicExchange.patternMatches_literal _ _).mpr rfl,rfl⟩

theorem mem_publish {placed : Placed} {exchange : ExchangeName} {key : RoutingKey}
    {payload body : EventPayload} {queue : QueueName} :
    (queue,body) ∈ publish placed exchange key payload ↔
      (queue,body) ∈ placed ∨ ((queue,exchange,key) ∈ bindQueueCalls ∧ body = payload) := by
  simp [publish,mem_route_bindings,eq_comm]

end RabbitMq

end JobScheduler
