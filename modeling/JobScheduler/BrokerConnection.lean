import JobScheduler.Backoff
import JobScheduler.World
import JobScheduler.Interleaving

/-! The connection to the broker: `connectRabbitMQ`, `publishToExchange` and
`disconnectRabbitMQ` of any number of instances, each over the `channel` variable of its
module. The variable is read when an operation is issued, so replies that are followed by
a read carry its value. -/
namespace JobScheduler.Amqp

open RabbitMq (Placed)

inductive Declaration where
  | exchange (name : ExchangeName)
  | queue (name : QueueName)
  | binding (queue : QueueName) (exchange : ExchangeName) (key : RoutingKey)
  deriving DecidableEq

def declarations : List Declaration :=
  [.exchange .schedulerExchange,.exchange .schedulerDlx] ++
    RabbitMq.bindQueueCalls.flatMap fun (queue,exchange,key) =>
      [.queue queue,.binding queue exchange key]

/-- A connection. It gets one channel at most. -/
structure Link where
  instanceId : String
  up : Bool
  -- The channel has been created, and the handlers are registered.
  ready : Bool
  channelOpen : Bool

structure Broker where
  declared : List Declaration
  placed : Placed
  links : List Link
  -- The `channel` variable of an instance, as the number of its connection.
  channel : String → Option Nat

structure Oracle where
  delivery : Delivery
  random : Nat
  -- What is written to the socket reaches the broker.
  arrives : Bool

inductive Op where
  | connect (instanceId : String)
  | createChannel (link : Nat)
  | declare (channel : Option Nat) (instanceId : String) (declaration : Declaration)
  | random
  | sleep (ms : Nat)
  -- `if (!channel)`, and the publish where that is false
  | tryPublish (instanceId : String) (key : RoutingKey) (payload : EventPayload)
  | publish (instanceId : String) (key : RoutingKey) (payload : EventPayload)
  | readChannel (instanceId : String)
  | closeChannel (link : Nat) (instanceId : String)
  | mongooseConnect
  deriving DecidableEq

abbrev Op.Reply : Op → Type
  | .connect _ | .random => Nat
  | .declare _ _ _ | .readChannel _ => Option Nat
  | .tryPublish _ _ _ => Bool
  | _ => Unit

abbrev signature : Signature := ⟨Op,Op.Reply⟩
abbrev Async (α : Type) := Program signature Thrown α

def typeError : Thrown := .error (text "Cannot read properties of null") none
def channelClosed : Thrown := .error (text "Channel closed") none
def connectionClosed : Thrown := .error (text "Connection closed") none
def notFound : Thrown := .error (text "Operation failed: 404 (NOT-FOUND)") none

namespace Broker

variable (b : Broker)

def isOpen (link : Nat) : Bool := (b.links[link]?).any Link.channelOpen

def updateLink (link : Nat) (change : Link → Link) : Broker :=
  { b with links := b.links.modify link change }

def assign (instanceId : String) (value : Option Nat) : Broker :=
  { b with channel := fun other => if other = instanceId then value else b.channel other }

def closesChannel (link : Nat) : Broker := b.updateLink link fun l => { l with channelOpen := false }

def declarable : Declaration → Bool
  | .binding queue exchange _ => .queue queue ∈ b.declared && .exchange exchange ∈ b.declared
  | _ => true

/-- Asserting the same again changes nothing. -/
def declare (declaration : Declaration) : Broker :=
  if declaration ∈ b.declared then b else { b with declared := b.declared ++ [declaration] }

def Declaration.binding? : Declaration → Option (Binding ExchangeName QueueName)
  | .binding queue exchange key => some ⟨queue,exchange,key.words.map .literal⟩
  | _ => none

def bindings : List (Binding ExchangeName QueueName) := b.declared.filterMap Declaration.binding?

/-- A message that reaches the broker. It closes the channel where the exchange is missing. -/
def accept (link : Nat) (key : RoutingKey) (payload : EventPayload) : Broker :=
  if .exchange .schedulerExchange ∈ b.declared then
    { b with placed := b.placed ++ (TopicExchange.route b.bindings ExchangeName.schedulerExchange
        key.words).map fun queue => (queue,payload) }
  else b.closesChannel link

/-- `channel.publish` writes to the socket of an open channel and waits for nothing. -/
def send (link : Nat) (key : RoutingKey) (payload : EventPayload) (ω : Oracle) :
    Except Thrown Unit × Broker :=
  if b.isOpen link then (.ok (),if ω.arrives then b.accept link key payload else b)
  else (.error channelClosed,b)

end Broker

def perform : (op : Op) → Oracle → Broker → Except Thrown op.Reply × Broker
  | .connect instanceId, ω, b =>
    let answer : Except Thrown Nat × Broker :=
      (.ok b.links.length,{ b with links := b.links ++ [⟨instanceId,true,false,false⟩] })
    match ω.delivery with
    | .performed => answer
    | .lost e => (.error e,b)
    | .unacknowledged e => (.error e,answer.2)
  | .createChannel link, ω, b =>
    match b.links[link]? with
    | none => (.error connectionClosed,b)
    | some l =>
      if l.up then
        match ω.delivery with
        -- `channel = await connection.createChannel()` and the handlers of the connection
        | .performed => (.ok (),(b.updateLink link fun l =>
            { l with ready := true, channelOpen := true }).assign l.instanceId (some link))
        | .lost e | .unacknowledged e => (.error e,b)
      else (.error connectionClosed,b)
  | .declare none _ _, _, b => (.error typeError,b)
  | .declare (some link) instanceId declaration, ω, b =>
    if b.isOpen link then
      if b.declarable declaration then
        match ω.delivery with
        | .performed => (.ok (b.channel instanceId),b.declare declaration)
        | .lost e => (.error e,b)
        | .unacknowledged e => (.error e,b.declare declaration)
      else (.error notFound,b.closesChannel link)
    else (.error channelClosed,b)
  | .random, ω, b => (.ok ω.random,b)
  | .sleep _, _, b => (.ok (),b)
  | .tryPublish instanceId key payload, ω, b =>
    match b.channel instanceId with
    | none => (.ok false,b)
    | some link =>
      let answer := b.send link key payload ω
      (answer.1.map fun _ => true,answer.2)
  | .publish instanceId key payload, ω, b =>
    match b.channel instanceId with
    | none => (.error typeError,b)
    | some link => b.send link key payload ω
  | .readChannel instanceId, _, b => (.ok (b.channel instanceId),b)
  | .closeChannel link instanceId, ω, b =>
    if b.isOpen link then
      match ω.delivery with
      | .performed => (.ok (),(b.closesChannel link).assign instanceId none)
      | .lost e => (.error e,b)
      | .unacknowledged e => (.error e,b.closesChannel link)
    else (.error channelClosed,b)
  | .mongooseConnect, ω, b =>
    match ω.delivery with
    | .performed => (.ok (),b)
    | .lost e | .unacknowledged e => (.error e,b)

abbrev await (op : Op) : Async op.Reply := Program.perform (σ := signature) op

def maxRetries : Nat := 10
def baseRetryDelayMs : Nat := 1000
def maxRetryDelayMs : Nat := 30000

/-- Each assertion is made on the channel that the variable holds by then. -/
def declareAll (instanceId : String) : Option Nat → List Declaration → Async Unit
  | _, [] => pure ()
  | channel, declaration :: rest => do
    let channel ← await (.declare channel instanceId declaration)
    declareAll instanceId channel rest

def connectAttempt (instanceId : String) : Async Unit := do
  let link ← await (.connect instanceId)
  await (.createChannel link)
  declareAll instanceId (some link) declarations

/-- `Math.random() * 1_000` is below one thousand, and the timer takes whole milliseconds. -/
def pause (attempt : Nat) : Async Unit := do
  let delay := min (baseRetryDelayMs * 2 ^ attempt) maxRetryDelayMs
  let jitter ← await .random
  await (.sleep (delay + jitter % 1000))

def connectRabbitMQ (instanceId : String) : Async Unit :=
  retryFrom (connectAttempt instanceId) pause id 0 maxRetries

def publishToExchange (instanceId : String) (key : RoutingKey) (payload : EventPayload) :
    Async Unit := do
  if ← await (.tryPublish instanceId key payload) then pure ()
  else
    connectRabbitMQ instanceId
    await (.publish instanceId key payload)

def disconnectRabbitMQ (instanceId : String) : Async Unit :=
  try
    match ← await (.readChannel instanceId) with
    | none => pure ()
    | some link => await (.closeChannel link instanceId)
  catch _ => pure ()

namespace MongoDB

def maxRetries : Nat := 5
def baseRetryDelayMs : Nat := 2000

def waitBeforeRetry (attempt : Nat) : Async Unit := await (.sleep (baseRetryDelayMs * 2 ^ attempt))

def connectionFailed (e : Thrown) : Thrown :=
  .error (text "MongoDB connection failed after 5 attempts: " ++ e.message) none

def connectMongoDB : Async Unit :=
  retryFrom (await .mongooseConnect) waitBeforeRetry connectionFailed 0 maxRetries

end MongoDB

inductive Request where
  | connectMongoDB
  | connect (instanceId : String)
  | publish (instanceId : String) (key : RoutingKey) (payload : EventPayload)
  | disconnect (instanceId : String)

inductive Event where
  | connectionClosed (link : Nat)
  | channelClosed (link : Nat)

def program : Request → Async Unit
  | .connectMongoDB => MongoDB.connectMongoDB
  | .connect instanceId => connectRabbitMQ instanceId
  | .publish instanceId key payload => publishToExchange instanceId key payload
  | .disconnect instanceId => disconnectRabbitMQ instanceId

/-- The handler of a connection's `close` clears the variable, whatever it holds by then. -/
def environment : Event → Broker → Broker
  | .connectionClosed link, b =>
    match b.links[link]? with
    | none => b
    | some l =>
      let closed := b.updateLink link fun l => { l with up := false, channelOpen := false }
      if l.ready then closed.assign l.instanceId none else closed
  | .channelClosed link, b => b.closesChannel link

def machine : Machine signature Thrown Broker Oracle Request Event where
  perform := perform
  starts _ := []
  program := program
  environment := environment
  crashed := .error (text "process exited") none

@[simp] theorem machine_perform : machine.perform = perform := rfl

abbrev BrokerState := State signature Thrown Broker Request
abbrev BrokerLabel := Label Oracle Request Event
abbrev BrokerCall := Call signature Thrown Request

def Broker.empty : Broker where
  declared := []
  placed := []
  links := []
  channel _ := none

def initial : BrokerState := ⟨Broker.empty,[]⟩

end JobScheduler.Amqp
