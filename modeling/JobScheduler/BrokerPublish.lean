import JobScheduler.BrokerTopology

/-! Publishing over the connection. A publication hands its message over once or throws, and
with the topology complete the broker of the connection is the one that the system's
publish operation assumes. -/
namespace JobScheduler.Amqp

variable {s : BrokerState} {label : BrokerLabel} {labels : List BrokerLabel}

def handed : Exchange signature Thrown → Option (RoutingKey × EventPayload)
  | ⟨.tryPublish _ key payload,.ok true⟩ => some (key,payload)
  | ⟨.publish _ key payload,.ok _⟩ => some (key,payload)
  | _ => none

def handedOver (call : BrokerCall) : List (RoutingKey × EventPayload) := call.history.filterMap handed

/-- A call hands over its own message, once at most. -/
structure HandsOver (call : BrokerCall) : Prop where
  counted : (handedOver call).length = (achievement.phase call).sent
  single : (achievement.phase call).sent ≤ 1
  own : ∀ message ∈ handedOver call, ∃ instanceId,
    call.request = .publish instanceId message.1 message.2

theorem next_sent (q : Achieved) (op : Op) (reply : Except Thrown op.Reply) :
    (q.next op reply).sent = q.sent + (handed ⟨op,reply⟩).toList.length := by
  cases op with
  | tryPublish => obtain _ | _ | _ := reply <;> rfl
  | declare | publish => cases reply <;> rfl
  | _ => rfl

theorem handed_allowed {q : Achieved} {op : Op} {reply : Except Thrown op.Reply}
    {message : RoutingKey × EventPayload} (may : q.allowed op)
    (hands : handed ⟨op,reply⟩ = some message) :
    q.sent = 0 ∧ ∃ instanceId, q.request = .publish instanceId message.1 message.2 := by
  unfold handed at hands
  split at hands
  · rename_i instanceId key payload same
    cases same
    cases hands
    exact ⟨may.1,instanceId,may.2⟩
  · rename_i instanceId key payload value same
    cases same
    cases hands
    exact ⟨may.1,instanceId,may.2.2⟩
  · cases hands

theorem handsOver_advance {call : BrokerCall} {op : Op} {rest : Except Thrown op.Reply → Async Unit}
    (hands : HandsOver call) (may : (achievement.phase call).allowed op)
    (reply : Except Thrown op.Reply) : HandsOver (call.advance op rest reply) := by
  have sent : (achievement.phase (call.advance op rest reply)).sent =
      (achievement.phase call).sent + (handed ⟨op,reply⟩).toList.length := next_sent _ op reply
  cases message : handed ⟨op,reply⟩ with
  | none =>
    have same : handedOver (call.advance op rest reply) = handedOver call := by
      simp [handedOver,Call.advance,message]
    rw [message] at sent
    exact ⟨same ▸ sent ▸ hands.counted,sent ▸ hands.single,same ▸ hands.own⟩
  | some message' =>
    obtain ⟨first,instanceId,own⟩ := handed_allowed may message
    rw [phase_request] at own
    have none : handedOver call = [] := List.eq_nil_of_length_eq_zero (hands.counted.trans first)
    have only : handedOver (call.advance op rest reply) = [message'] := by
      rw [handedOver] at none
      simp [handedOver,Call.advance,message,none]
    rw [message,first] at sent
    refine ⟨?_,Nat.le_of_eq sent,?_⟩
    · rw [only,sent]
      rfl
    · intro other member
      rw [only] at member
      obtain rfl := List.mem_singleton.mp member
      exact ⟨instanceId,own⟩

theorem handsOver_step (followed : achievement.Followed s) (hands : ∀ call ∈ s.calls, HandsOver call) :
    ∀ call ∈ (machine.step s label).calls, HandsOver call := by
  refine Machine.every_moves _ (machine.step_moves s label) ?_ ?_ ?_ hands
  · exact fun request => ⟨rfl,Nat.zero_le 1,fun message member => by cases member⟩
  · intro index ω call op rest _ found awaits before
    exact handsOver_advance before (followed.allowed found awaits) _
  · intro index call _ _ before
    exact ⟨before.counted,before.single,before.own⟩

/-- Over all runs, a `publishToExchange` that returns has handed its message to the client
once, and one that throws has not, however often it had to connect. -/
theorem publish_hands_over (labels : List BrokerLabel) :
    ∀ t, machine.Reached initial labels t → ∀ call ∈ t.calls, ∀ instanceId key payload,
      call.request = .publish instanceId key payload →
        (handedOver call).length ≤ 1 ∧
        (call.program = .settled (.ok ()) → handedOver call = [(key,payload)]) ∧
        ∀ e, e ≠ machine.crashed → call.program = .settled (.error e) → handedOver call = [] := by
  intro t reached call member instanceId key payload publishes
  obtain ⟨followed,hands⟩ := Machine.always_reached (fun s : BrokerState => achievement.Followed s ∧
      ∀ call ∈ s.calls, HandsOver call)
    (fun _ _ holds => ⟨achievement_followed holds.1,handsOver_step holds.1 holds.2⟩)
    ⟨achievement.followed_nil Broker.empty,fun call member => by cases member⟩ reached
  obtain ⟨counted,single,own⟩ := hands call member
  have achieved : ∀ result, result ≠ .error machine.crashed → call.program = .settled result →
      (achievement.phase call).sent = result.isOk.toNat := by
    intro result uncrashed settled
    have post := achieved_settled followed member settled
    rw [Achieved.post,phase_request,publishes] at post
    exact post uncrashed
  refine ⟨counted ▸ single,fun settled => ?_,fun e uncrashed settled => ?_⟩
  · rw [achieved _ (fun same => by cases same) settled] at counted
    obtain ⟨message,only⟩ := List.length_eq_one_iff.mp counted
    obtain ⟨instance',same⟩ := own message (only ▸ List.mem_singleton_self message)
    cases same.symm.trans publishes
    exact only
  · rw [achieved _ (fun same => uncrashed (Except.error.inj same)) settled] at counted
    exact List.eq_nil_of_length_eq_zero counted

def cancelledReport : EventPayload := .cancelled "report" .scheduledReport "tenant" 0 "user"

def publishing : List BrokerLabel :=
  .submit (.publish "a" .jobScheduled cancelledReport) :: List.replicate 16 (.resume 0 undisturbed)

theorem publish_hands_over_unconnected :
    ∃ call, (machine.run initial publishing).calls[0]? = some call ∧
      handedOver call = [(.jobScheduled,cancelledReport)] := by
  have settled : ∃ call, (machine.run initial publishing).calls[0]? = some call ∧
      call.request = .publish "a" .jobScheduled cancelledReport ∧
      call.program = .settled (.ok ()) := ⟨_,rfl,rfl,rfl⟩
  obtain ⟨call,found,publishes,returned⟩ := settled
  refine ⟨call,found,?_⟩
  exact (publish_hands_over publishing _ ⟨publishing,List.prefix_rfl,rfl⟩ call
    (List.mem_of_getElem? found) "a" .jobScheduled cancelledReport publishes).2.1 returned

def arrivals (s : BrokerState) : BrokerLabel → List (RoutingKey × EventPayload)
  | .resume index ω =>
    match s.awaits index with
    | some (.tryPublish instanceId key payload) | some (.publish instanceId key payload) =>
      if ω.arrives && (s.world.channel instanceId).any s.world.isOpen then [(key,payload)] else []
    | _ => []
  | _ => []

def arrivalsAlong : BrokerState → List BrokerLabel → List (RoutingKey × EventPayload)
  | _, [] => []
  | s, label :: labels => arrivals s label ++ arrivalsAlong (machine.step s label) labels

/-- The broker that the rest of the system is written against. -/
def publishAll (placed : RabbitMq.Placed) (messages : List (RoutingKey × EventPayload)) :
    RabbitMq.Placed :=
  messages.foldl (fun placed message =>
    RabbitMq.publish placed .schedulerExchange message.1 message.2) placed

section Complete

variable {b : Broker}

theorem bindings_complete (complete : b.declared = declarations) : b.bindings = RabbitMq.bindings := by
  rw [Broker.bindings,complete]
  rfl

theorem accept_complete (complete : b.declared = declarations) (link : Nat) (key : RoutingKey)
    (payload : EventPayload) :
    (b.accept link key payload).placed = RabbitMq.publish b.placed .schedulerExchange key payload := by
  have there : Declaration.exchange .schedulerExchange ∈ b.declared := by
    rw [complete]
    decide
  simp only [Broker.accept,if_pos there,bindings_complete complete]
  rfl

theorem send_placed (complete : b.declared = declarations) (link : Nat) (key : RoutingKey)
    (payload : EventPayload) (ω : Oracle) :
    (b.send link key payload ω).2.placed =
      publishAll b.placed (if ω.arrives && b.isOpen link then [(key,payload)] else []) := by
  simp only [Broker.send]
  cases b.isOpen link with
  | false => simp [publishAll]
  | true =>
    cases ω.arrives with
    | false => simp [publishAll]
    | true => simpa [publishAll] using accept_complete complete link key payload

end Complete

theorem complete_step (declared : Declared s) (complete : s.world.declared = declarations) :
    (machine.step s label).world.declared = declarations := by
  have moves := machine.step_moves s label
  generalize machine.step s label = t at moves
  cases moves with
  | submit | idle | absent | crash => exact complete
  | answer index ω call op rest found awaits =>
    obtain ⟨ordered,_,grows⟩ := declared_answer ω (declared.followed.allowed found awaits)
      declared.ordered (declared.known call (List.mem_of_getElem? found))
    exact ordered.eq_of_length_le (complete ▸ grows)
  | environment event => exact (environment_declared event s.world).trans complete

theorem perform_placed_other {op : Op} {ω : Oracle} {b : Broker}
    (silent : ∀ reply : Except Thrown op.Reply, handed ⟨op,reply⟩ = none) :
    (perform op ω b).2.placed = b.placed := by
  cases op with
  | tryPublish => cases silent (.ok true)
  | publish => cases silent (.ok ())
  | declare channel instanceId declaration =>
    have asserts : ∀ b : Broker, (b.declare declaration).placed = b.placed := by
      intro b
      simp only [Broker.declare]
      split <;> rfl
    cases channel with
    | none => rfl
    | some link =>
      simp only [perform]
      repeat' split
      all_goals first
        | rfl
        | exact asserts b
  | connect | createChannel | closeChannel | mongooseConnect =>
    simp only [perform]
    repeat' split
    all_goals rfl
  | _ => rfl

theorem environment_placed (event : Event) (b : Broker) : (environment event b).placed = b.placed := by
  cases event with
  | channelClosed link => rfl
  | connectionClosed link =>
    simp only [environment]
    split
    · rfl
    · split <;> rfl

theorem placed_step (complete : s.world.declared = declarations) :
    (machine.step s label).world.placed = publishAll s.world.placed (arrivals s label) := by
  have moves := machine.step_moves s label
  generalize machine.step s label = t at moves
  cases moves with
  | submit | absent | crash => rfl
  | idle index ω settled => simp [arrivals,settled,publishAll]
  | environment event => exact environment_placed event s.world
  | answer index ω call op rest found awaits =>
    have awaiting : s.awaits index = some op := State.awaits_eq_some.mpr ⟨call,rest,found,awaits⟩
    change (perform op ω s.world).2.placed = _
    simp only [arrivals,awaiting]
    cases op with
    | tryPublish instanceId key payload =>
      simp only [perform]
      cases s.world.channel instanceId with
      | none => simp [publishAll]
      | some link => exact send_placed complete link key payload ω
    | publish instanceId key payload =>
      simp only [perform]
      cases s.world.channel instanceId with
      | none => simp [publishAll]
      | some link => exact send_placed complete link key payload ω
    | _ => exact perform_placed_other fun _ => rfl

theorem placed_run (declared : Declared s) (complete : s.world.declared = declarations) :
    (machine.run s labels).world.placed = publishAll s.world.placed (arrivalsAlong s labels) := by
  induction labels generalizing s with
  | nil => rfl
  | cons label labels ih =>
    rw [Machine.run_cons,ih (declared_step declared) (complete_step declared complete),
      placed_step complete,arrivalsAlong,publishAll,publishAll,publishAll,List.foldl_append]

/-- Once a connect of any instance has returned, the queues get exactly what the broker of the
system model puts into them, for the messages that arrive and in their order, whatever
connections are opened, lost and closed. -/
theorem placed_refines (labels : List BrokerLabel) :
    ∀ s, machine.Reached initial labels s →
      (∃ call ∈ s.calls, ∃ instanceId, call.request = .connect instanceId ∧
        call.program = .settled (.ok ())) →
      ∀ later, (machine.run s later).world.placed =
        publishAll s.world.placed (arrivalsAlong s later) := by
  rintro s reached ⟨call,member,instanceId,connects,settled⟩ later
  refine placed_run ?_ ((topology_declared labels s reached).2 call member instanceId connects settled)
  exact Machine.always_reached Declared (fun _ _ => declared_step) declared_initial reached

/-- Both instances are connected; the second publishes, and its connection is lost. -/
theorem placed_refines_connected :
    (machine.run (machine.run initial connecting)
      [.submit (.publish "b" .jobScheduled cancelledReport),.resume 2 undisturbed,
        .environment (.connectionClosed 1)]).world.placed = [(.scheduled,cancelledReport)] := by
  have settled : ∃ call, (machine.run initial connecting).calls[0]? = some call ∧
      call.request = .connect "a" ∧ call.program = .settled (.ok ()) := ⟨_,rfl,rfl,rfl⟩
  obtain ⟨call,found,connects,returned⟩ := settled
  rw [placed_refines connecting _ ⟨connecting,List.prefix_rfl,rfl⟩
    ⟨call,List.mem_of_getElem? found,"a",connects,returned⟩]
  rfl

end JobScheduler.Amqp
