import JobScheduler.BrokerConnection

/-! The topology at the broker. Each attempt asserts the declarations in their order and
goes on only when one is acknowledged. So whatever the instances do at the same time, the
broker has a prefix of them, and all of them once a connect has returned. -/
namespace JobScheduler.Amqp

/-- What a call has achieved: the assertions acknowledged on its last connection, and the
messages that it handed over. -/
structure Achieved where
  request : Request
  acknowledged : Nat
  sent : Nat

namespace Achieved

def allowed (q : Achieved) : Op → Prop
  | .declare _ _ declaration => declarations[q.acknowledged]? = some declaration
  | .tryPublish instanceId key payload => q.sent = 0 ∧ q.request = .publish instanceId key payload
  | .publish instanceId key payload => q.sent = 0 ∧ q.acknowledged = declarations.length ∧
      q.request = .publish instanceId key payload
  | _ => True

def next (q : Achieved) : (op : Op) → Except Thrown op.Reply → Achieved
  | .connect _, _ => { q with acknowledged := 0 }
  | .declare _ _ _, .ok _ => { q with acknowledged := q.acknowledged + 1 }
  | .tryPublish _ _ _, .ok true => { q with sent := q.sent + 1 }
  | .publish _ _ _, .ok _ => { q with sent := q.sent + 1 }
  | _, _ => q

def monitor : Program.Monitor signature Thrown Achieved where
  allowed := allowed
  answers _ _ _ := True
  next := next

@[simp] theorem monitor_allowed : monitor.allowed = allowed := rfl
@[simp] theorem monitor_answers : monitor.answers = fun _ _ _ => True := rfl
@[simp] theorem monitor_next : monitor.next = next := rfl

def post (q : Achieved) (result : Except Thrown Unit) : Prop :=
  result ≠ .error machine.crashed →
    match q.request with
    | .connectMongoDB => True
    | .connect _ => result.isOk = true → q.acknowledged = declarations.length
    | .publish _ _ _ => q.sent = result.isOk.toNat
    | .disconnect _ => result.isOk = true

section Programs

attribute [local simp] allowed next Program.forall_except Program.perform

variable {q : Achieved} {instanceId : String} {post : Achieved → Except Thrown Unit → Prop}

theorem meets_declareAll {done rest : List Declaration} (parts : declarations = done ++ rest)
    (channel : Option Nat) (here : q.acknowledged = done.length)
    (all : post { q with acknowledged := declarations.length } (.ok ()))
    (fails : ∀ e k, post { q with acknowledged := k } (.error e)) :
    Program.wp monitor post (declareAll instanceId channel rest) q := by
  induction rest generalizing done q channel with
  | nil =>
    rw [List.append_nil] at parts
    rw [parts,← here] at all
    exact all
  | cons declaration rest ih =>
    simp only [declareAll,Program.wp_bind]
    have due : declarations[q.acknowledged]? = some declaration := by
      rw [parts,here,List.getElem?_append_right (Nat.le_refl _),Nat.sub_self]
      rfl
    simp only [Program.perform,Program.wp_await,monitor_allowed,allowed,due,monitor_next,true_and]
    rintro (e | channel) _
    · exact fails e q.acknowledged
    · exact @ih _ (done ++ [declaration]) (by simp [parts]) channel (by simp [next,here]) all fails

theorem meets_connectRabbitMQ
    (all : post { q with acknowledged := declarations.length } (.ok ()))
    (fails : ∀ e k, post { q with acknowledged := k } (.error e)) :
    Program.wp monitor post (connectRabbitMQ instanceId) q := by
  apply wp_retryFrom fun _ q' => ∃ k, q' = { q with acknowledged := k }
  · rintro n left _ _ ⟨k,rfl⟩
    have failed : ∀ e k, attemptPost monitor post pause id
        (fun _ q' => ∃ k, q' = { q with acknowledged := k }) n left { q with acknowledged := k }
        (.error e) := by
      intro e k
      simp only [attemptPost]
      split
      · exact fails e k
      · simp [pause]
        exact fun e => fails e k
    simp only [connectAttempt,Program.wp_bind]
    simp
    refine ⟨fun e => failed e 0,fun link => ⟨fun e => failed e 0,?_⟩⟩
    exact meets_declareAll (List.nil_append declarations).symm (some link) rfl all failed
  · exact ⟨q.acknowledged,rfl⟩
  · decide

end Programs

section Programs

attribute [local simp] allowed next post Program.forall_except Program.perform Except.isOk
  Except.toBool

theorem meets_program (request : Request) :
    Program.wp monitor post (program request) ⟨request,0,0⟩ := by
  cases request with
  | connectMongoDB =>
    refine wp_retryFrom (fun _ q => q.request = .connectMongoDB) ?_ rfl (by decide)
    rintro n left ⟨_,acknowledged,sent⟩ _ rfl
    simp [attemptPost,MongoDB.waitBeforeRetry]
  | connect instanceId =>
    apply meets_connectRabbitMQ
    · simp
    · simp
  | publish instanceId key payload =>
    simp only [program,publishToExchange,Program.wp_bind]
    simp
    refine meets_connectRabbitMQ ?_ ?_
    · simp
    · simp
  | disconnect instanceId =>
    simp [program,disconnectRabbitMQ]
    rintro (_ | link)
    · simp
    · simp

end Programs

end Achieved

def achievement : Protocol machine Achieved where
  monitor := Achieved.monitor
  start request := ⟨request,0,0⟩
  post := Achieved.post
  meets := Achieved.meets_program

variable {s : BrokerState} {label : BrokerLabel} {labels : List BrokerLabel}

theorem achievement_followed (followed : achievement.Followed s) :
    achievement.Followed (machine.step s label) := by
  refine Protocol.followed_moves (machine.step_moves s label) ?_ followed
  cases label with
  | crash index =>
    intro call found crashed
    exact absurd rfl crashed
  | resume index ω => exact fun _ _ _ _ _ => trivial
  | _ => trivial

/-- The broker has the declarations up to some point, and no call knows of more. -/
structure Declared (s : BrokerState) : Prop where
  followed : achievement.Followed s
  ordered : s.world.declared <+: declarations
  known : ∀ call ∈ s.calls, (achievement.phase call).acknowledged ≤ s.world.declared.length

section Perform

variable {op : Op} {ω : Oracle} {b : Broker}

@[simp] theorem closesChannel_declared (link : Nat) : (b.closesChannel link).declared = b.declared :=
  rfl

@[simp] theorem assign_declared (instanceId : String) (value : Option Nat) :
    (b.assign instanceId value).declared = b.declared := rfl

@[simp] theorem updateLink_declared (link : Nat) (change : Link → Link) :
    (b.updateLink link change).declared = b.declared := rfl

theorem send_declared (link : Nat) (key : RoutingKey) (payload : EventPayload) :
    (b.send link key payload ω).2.declared = b.declared := by
  simp only [Broker.send,Broker.accept]
  split
  · split
    · split <;> rfl
    · rfl
  · rfl

/-- Only an assertion changes what is declared, and it adds what it asserts. -/
theorem perform_declared : (perform op ω b).2.declared = b.declared ∨
    ∃ channel instanceId declaration, op = .declare channel instanceId declaration ∧
      (perform op ω b).2.declared = (b.declare declaration).declared := by
  cases op with
  | declare channel instanceId declaration =>
    cases channel with
    | none => exact .inl rfl
    | some link =>
      simp only [perform]
      split
      · split
        · cases ω.delivery with
          | lost e => exact .inl rfl
          | performed | unacknowledged e => exact .inr ⟨_,_,_,rfl,rfl⟩
        · exact .inl rfl
      · exact .inl rfl
  | tryPublish instanceId key payload =>
    simp only [perform]
    split
    · exact .inl rfl
    · exact .inl (send_declared _ key payload)
  | publish instanceId key payload =>
    simp only [perform]
    split
    · exact .inl rfl
    · exact .inl (send_declared _ key payload)
  | connect | createChannel | closeChannel | mongooseConnect =>
    simp only [perform]
    repeat' split
    all_goals exact .inl rfl
  | _ => exact .inl rfl

theorem declare_acknowledged {channel : Option Nat} {instanceId : String} {declaration : Declaration}
    {value : Option Nat}
    (acknowledged : (perform (.declare channel instanceId declaration) ω b).1 = .ok value) :
    (perform (.declare channel instanceId declaration) ω b).2.declared =
      (b.declare declaration).declared := by
  cases channel with
  | none => cases acknowledged
  | some link =>
    simp only [perform] at acknowledged ⊢
    split at acknowledged
    · rename_i opened
      split at acknowledged
      · rename_i may
        simp only [opened,may,if_true]
        cases given : ω.delivery <;> simp_all
      · cases acknowledged
    · cases acknowledged

end Perform

theorem declarations_nodup : declarations.Nodup := by decide

theorem declare_due {b : Broker} {k : Nat} {declaration : Declaration}
    (ordered : b.declared <+: declarations) (known : k ≤ b.declared.length)
    (due : declarations[k]? = some declaration) :
    (b.declare declaration).declared <+: declarations ∧
      k + 1 ≤ (b.declare declaration).declared.length ∧
      b.declared.length ≤ (b.declare declaration).declared.length := by
  obtain ⟨rest,parts⟩ := ordered
  have distinct : (b.declared ++ rest).Nodup := parts ▸ declarations_nodup
  rw [← parts] at due
  by_cases early : k < b.declared.length
  · rw [List.getElem?_append_left early] at due
    have there : declaration ∈ b.declared := List.mem_of_getElem? due
    simp only [Broker.declare,if_pos there]
    exact ⟨⟨rest,parts⟩,early,Nat.le_refl _⟩
  · obtain rfl : k = b.declared.length := by omega
    rw [List.getElem?_append_right (Nat.le_refl _),Nat.sub_self] at due
    obtain ⟨later,rfl⟩ : ∃ later, rest = declaration :: later := by
      cases rest with
      | nil => cases due
      | cons first later =>
        obtain rfl := Option.some.inj due
        exact ⟨later,rfl⟩
    have new : declaration ∉ b.declared := fun old =>
      (List.nodup_append.mp distinct).2.2 declaration old declaration List.mem_cons_self rfl
    simp only [Broker.declare,if_neg new,List.length_append,List.length_singleton]
    exact ⟨⟨later,by rw [List.append_assoc,List.singleton_append,parts]⟩,Nat.le_refl _,Nat.le_succ _⟩

def Op.declares : Op → Bool
  | .declare _ _ _ => true
  | _ => false

theorem next_acknowledged {q : Achieved} {op : Op} (reply : Except Thrown op.Reply)
    (other : op.declares = false) :
    (q.next op reply).acknowledged ≤ q.acknowledged := by
  unfold Achieved.next
  split
  · exact Nat.zero_le _
  · cases other
  all_goals exact Nat.le_refl _

theorem other_declared {op : Op} {ω : Oracle} {b : Broker}
    (other : op.declares = false) :
    (perform op ω b).2.declared = b.declared := by
  rcases @perform_declared op ω b with same | ⟨_,_,_,is,_⟩
  · exact same
  · subst is
    cases other

theorem declared_answer {q : Achieved} {op : Op} {b : Broker} (ω : Oracle) (may : q.allowed op)
    (ordered : b.declared <+: declarations) (known : q.acknowledged ≤ b.declared.length) :
    (perform op ω b).2.declared <+: declarations ∧
      (q.next op (perform op ω b).1).acknowledged ≤ (perform op ω b).2.declared.length ∧
      b.declared.length ≤ (perform op ω b).2.declared.length := by
  cases op with
  | declare channel instanceId declaration =>
    have due : declarations[q.acknowledged]? = some declaration := may
    obtain ⟨still,reaches,grows⟩ := declare_due ordered known due
    rcases @perform_declared (.declare channel instanceId declaration) ω b with
      same | ⟨_,_,_,is,asserted⟩
    · cases replied : (perform (.declare channel instanceId declaration) ω b).1 with
      | error e =>
        rw [same]
        exact ⟨ordered,known,Nat.le_refl _⟩
      | ok value =>
        rw [declare_acknowledged replied]
        exact ⟨still,reaches,grows⟩
    · cases is
      rw [asserted]
      refine ⟨still,?_,grows⟩
      cases (perform (.declare channel instanceId declaration) ω b).1 with
      | error e => exact known.trans grows
      | ok value => exact reaches
  | _ =>
    rw [other_declared rfl]
    exact ⟨ordered,(next_acknowledged _ rfl).trans known,Nat.le_refl _⟩

theorem environment_declared (event : Event) (b : Broker) :
    (environment event b).declared = b.declared := by
  cases event with
  | channelClosed link => rfl
  | connectionClosed link =>
    simp only [environment]
    split
    · rfl
    · split <;> rfl

theorem declared_step (declared : Declared s) : Declared (machine.step s label) := by
  have moves := machine.step_moves s label
  have followed : achievement.Followed (machine.step s label) := achievement_followed declared.followed
  generalize machine.step s label = t at moves followed
  -- Calls know no more than before, but the one that is answered.
  have knows (grows : s.world.declared.length ≤ t.world.declared.length)
      (answered : ∀ index ω call op rest, label = .resume index ω → s.calls[index]? = some call →
        call.program = .await op rest → (achievement.phase (call.advance op rest
          (perform op ω s.world).1)).acknowledged ≤ t.world.declared.length) :
      ∀ call ∈ t.calls, (achievement.phase call).acknowledged ≤ t.world.declared.length := by
    refine Machine.every_moves _ moves (fun _ => Nat.zero_le _) ?_ (fun _ _ _ _ known => known)
      fun call member => (declared.known call member).trans grows
    intro index ω call op rest is found awaits _
    exact answered index ω call op rest is found awaits
  cases moves with
  | idle index ω settled =>
    refine ⟨followed,declared.ordered,knows (Nat.le_refl _) ?_⟩
    rintro _ _ call op rest ⟨⟩ found awaits
    rw [State.awaits_eq_some.mpr ⟨call,rest,found,awaits⟩] at settled
    cases settled
  | submit | absent | crash =>
    refine ⟨followed,declared.ordered,knows (Nat.le_refl _) ?_⟩
    intro index ω call op rest is
    cases is
  | answer index ω call op rest found awaits =>
    obtain ⟨ordered,known,grows⟩ := declared_answer ω (declared.followed.allowed found awaits)
      declared.ordered (declared.known call (List.mem_of_getElem? found))
    refine ⟨followed,ordered,knows grows ?_⟩
    rintro _ _ other _ _ ⟨⟩ there awaiting
    obtain rfl := Option.some.inj (there.symm.trans found)
    cases awaiting.symm.trans awaits
    exact known
  | environment event =>
    have same := environment_declared event s.world
    refine ⟨followed,same ▸ declared.ordered,knows (Nat.le_of_eq (congrArg List.length same.symm)) ?_⟩
    intro index ω call op rest is
    cases is

theorem declared_initial : Declared initial where
  followed := achievement.followed_nil Broker.empty
  ordered := List.nil_prefix
  known call member := by cases member

theorem next_request (q : Achieved) (op : Op) (reply : Except Thrown op.Reply) :
    (q.next op reply).request = q.request := by
  unfold Achieved.next
  split <;> rfl

theorem phase_request (call : BrokerCall) : (achievement.phase call).request = call.request := by
  obtain ⟨request,program,history⟩ := call
  induction history with
  | nil => rfl
  | cons exchange history ih => exact (next_request _ exchange.op exchange.reply).trans ih

theorem achieved_settled (followed : achievement.Followed s) {call : BrokerCall}
    (member : call ∈ s.calls) {result : Except Thrown Unit} (settled : call.program = .settled result) :
    (achievement.phase call).post result := by
  have whole := followed call member
  rw [settled] at whole
  exact whole

/-- Over all runs, the broker has a prefix of the declarations, and all of them as soon as
any `connectRabbitMQ` has returned. -/
theorem topology_declared (labels : List BrokerLabel) :
    ∀ t, machine.Reached initial labels t → t.world.declared <+: declarations ∧
      ∀ call ∈ t.calls, ∀ instanceId, call.request = .connect instanceId →
        call.program = .settled (.ok ()) → t.world.declared = declarations := by
  intro t reached
  have declared := Machine.always_reached Declared (fun _ _ => declared_step) declared_initial reached
  refine ⟨declared.ordered,fun call member instanceId connects settled => ?_⟩
  have achieved := achieved_settled declared.followed member settled
  have known := declared.known call member
  rw [Achieved.post,phase_request,connects] at achieved
  have all := achieved (fun same => by cases same) rfl
  exact declared.ordered.eq_of_length_le (all ▸ known)

def undisturbed : Oracle := ⟨.performed,0,true⟩

/-- Two instances connect, one assertion after the other in turn. -/
def connecting : List BrokerLabel :=
  [.submit (.connect "a"),.submit (.connect "b")] ++
    (List.replicate 14 [.resume 0 undisturbed,.resume 1 undisturbed]).flatten

theorem topology_declared_twice : (machine.run initial connecting).world.declared = declarations := by
  have settled : ∃ call, (machine.run initial connecting).calls[0]? = some call ∧
      call.request = .connect "a" ∧ call.program = .settled (.ok ()) := ⟨_,rfl,rfl,rfl⟩
  obtain ⟨call,found,connects,returned⟩ := settled
  exact (topology_declared connecting _ ⟨connecting,List.prefix_rfl,rfl⟩).2 call
    (List.mem_of_getElem? found) "a" connects returned

end JobScheduler.Amqp
