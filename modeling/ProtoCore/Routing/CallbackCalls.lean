import Mathlib.Algebra.GroupWithZero.Nat
import Mathlib.Data.List.Count
import ProtoCore.Routing.Delivery

/-!
# Calls of a callback for one publication

Every publication is held in known places until it has been passed on. Once the
connections are complete, each of them brings one copy, and each copy is passed to every
callback of the decoder.
-/

set_option autoImplicit false

namespace ProtoCore.Routing

open Library

variable {Message : Type}

namespace Delivery

/-! ## Where a publication is held -/

/-- A message of a topic that its publisher has latched, or that a socket or a `publish`
call still has. -/
inductive Holds (state : Delivery Message) (publisher topic : String)
    (sent : Sent Message) : Prop where
  | latched (cached : sent ∈ (state.peers publisher).staticTopicCache topic)
  | waiting (socket : Socket Message) (member : socket ∈ state.sockets)
      (node : socket.publisher = publisher) (object : socket.request.object = topic)
      (frame : sent ∈ socket.frames)
  | writing (write : Writing Message) (member : write ∈ state.writing)
      (node : write.node = publisher) (object : write.topic = topic) (same : write.sent = sent)

theorem Holds.of_peers {state next : Delivery Message} {publisher topic : String}
    {sent : Sent Message} (held : next.Holds publisher topic sent)
    (caches : ∀ name, (next.peers name).staticTopicCache = (state.peers name).staticTopicCache)
    (sockets : ∀ socket ∈ next.sockets, socket ∈ state.sockets ∨ socket.frames = [])
    (writing : next.writing = state.writing) : state.Holds publisher topic sent := by
  cases held with
  | latched cached => exact .latched (caches publisher ▸ cached)
  | waiting socket member node object frame =>
      rcases sockets socket member with old | new
      · exact .waiting socket old node object frame
      · rw [new] at frame
        cases frame
  | writing write member node object same =>
      exact .writing write (writing ▸ member) node object same

theorem mem_append {socket : Socket Message} {node topic : String} {sent other : Sent Message}
    {skipped : Bool} (member : other ∈ (socket.append node topic sent skipped).frames) :
    other ∈ socket.frames ∨
      socket.publisher = node ∧ socket.request.object = topic ∧ other = sent := by
  unfold Socket.append at member
  split at member
  · rename_i here
    rcases List.mem_append.mp member with old | new
    · exact .inl old
    · exact .inr ⟨here.1, here.2.1, List.mem_singleton.mp new⟩
  · exact .inl member

/-- A step gives a publication to nobody new, except that `publish` makes one. -/
theorem holds_step [DecidableEq Message] {state next : Delivery Message}
    {action : DeliveryAction Message} (stepped : state.step action = some next)
    {publisher topic : String} {sent : Sent Message} (held : next.Holds publisher topic sent) :
    state.Holds publisher topic sent ∨ sent.number = state.published ∧
      ∃ msgType message cache, action = .publish publisher topic msgType message cache := by
  cases step_change stepped with
  | advertised name subject msgType acting result =>
      rw [result] at held
      exact .inl <| held.of_peers
        (kept_field Peer.staticTopicCache (Peer.staticTopicCache_advertise ..))
        (fun _ member => .inl member) rfl
  | subscribed name subject msgType request acting object node result =>
      rw [result] at held
      refine .inl <| held.of_peers
        (kept_field Peer.staticTopicCache (Peer.staticTopicCache_request ..))
        (fun socket member => ?_) rfl
      rcases List.mem_append.mp member with old | new
      · exact .inl old
      · obtain ⟨publisher, _, rfl⟩ := List.mem_map.mp new
        exact .inr rfl
  | added name subject others acting pending result =>
      rw [result] at held
      exact .inl <| held.of_peers
        (kept_field Peer.staticTopicCache (Peer.staticTopicCache_addCallback ..))
        (fun _ member => .inl member) rfl
  | discovered name publisher acting new result =>
      rw [result] at held
      refine .inl <| held.of_peers
        (kept_field Peer.staticTopicCache (Peer.staticTopicCache_addClient ..))
        (fun socket member => ?_) rfl
      rcases List.mem_append.mp member with old | new
      · exact .inl old
      · obtain ⟨request, _, rfl⟩ := List.mem_map.mp new
        exact .inr rfl
  | moved socket after others sockets acting before changed same request frames kept result =>
      rw [result] at held
      left
      cases held with
      | latched cached => exact .latched cached
      | waiting other member node object frame =>
          rcases mem_changed before changed member with here | old
          · rw [here] at node object frame
            rcases frames with unchanged | ⟨_, cached⟩
            · exact .waiting socket (before.mem_iff.mpr List.mem_cons_self) (same ▸ node)
                (request ▸ object) (unchanged ▸ frame)
            · refine .latched ?_
              rw [← node, ← object, same, request]
              exact cached.mem_iff.mp frame
          · exact .waiting other old node object frame
      | writing write member node object same => exact .writing write member node object same
  | suppressed name subject msgType message cache acting latched result =>
      rw [result] at held
      exact .inl <| held.of_peers (fun _ => rfl) (fun _ member => .inl member) rfl
  | published name subject msgType message cache acting new result =>
      rw [result] at held
      cases held with
      | latched cached =>
          cases cache with
          | false => exact .inl (.latched cached)
          | true =>
              rw [if_pos rfl] at cached
              dsimp only [Delivery.setPeer] at cached
              by_cases here : publisher = name
              · rw [here, Function.update_self] at cached
                rcases Peer.mem_latch cached with old | ⟨rfl, rfl⟩
                · exact .inl (.latched (here ▸ old))
                · exact .inr ⟨rfl, msgType, message, true, here ▸ acting⟩
              · rw [Function.update_of_ne here] at cached
                exact .inl (.latched cached)
      | waiting socket member node object frame =>
          cases cache with
          | false => exact .inl (.waiting socket member node object frame)
          | true => exact .inl (.waiting socket member node object frame)
      | writing write member node object same =>
          rcases List.mem_append.mp member with old | new
          · exact .inl (.writing write old node object same)
          · rw [List.mem_singleton.mp new] at node object same
            exact .inr ⟨same ▸ rfl, msgType, message, cache, node ▸ object ▸ acting⟩
  | written index skipped write others acting located calls result =>
      rw [result] at held
      left
      have mine : write ∈ state.writing := calls.mem_iff.mpr List.mem_cons_self
      cases held with
      | latched cached => exact .latched cached
      | waiting other member node object frame =>
          obtain ⟨position, inside, rfl⟩ := List.mem_mapIdx.mp member
          have old : state.sockets[position] ∈ state.sockets := List.getElem_mem inside
          rw [append_publisher] at node
          rw [append_request] at object
          rcases mem_append frame with held | ⟨sender, subject, rfl⟩
          · exact .waiting _ old node object held
          · exact .writing write mine (sender.symm.trans node) (subject.symm.trans object) rfl
      | writing other member node object same =>
          exact .writing other (calls.mem_iff.mpr (List.mem_cons_of_mem _ member)) node object same
  | decoded socket sent rest others sockets acting frames before changed result =>
      rw [result] at held
      left
      cases held with
      | latched cached => exact .latched cached
      | waiting other member node object frame =>
          rcases mem_changed before changed member with here | old
          · rw [here] at node object frame
            exact .waiting socket (before.mem_iff.mpr List.mem_cons_self) node object
              (frames ▸ List.mem_cons_of_mem _ frame)
          · exact .waiting other old node object frame
      | writing write member node object same => exact .writing write member node object same

/-- What is held, or has been passed to a callback, has been published before. -/
structure Fresh (state : Delivery Message) : Prop where
  held : ∀ publisher topic sent, state.Holds publisher topic sent →
    sent.number < state.published
  calls : ∀ call ∈ state.calls, call.publication < state.published

theorem initial_fresh : (initial : Delivery Message).Fresh where
  held publisher topic sent held := by
    cases held with
    | latched cached => cases cached
    | waiting socket member => cases member
    | writing write member => cases member
  calls call member := by cases member

theorem mem_handle {state : Delivery Message} {node topic : String} {sent : Sent Message}
    {call : Call} (member : call ∈ state.handle node topic sent) :
    call.node = node ∧ call.topic = topic ∧ call.publication = sent.number := by
  obtain ⟨callback, _, rfl⟩ := List.mem_map.mp member
  exact ⟨rfl, rfl, rfl⟩

theorem publish_step [DecidableEq Message] {state next : Delivery Message}
    {name topic msgType : String} {message : Message} {cache : Bool}
    (stepped : state.step (.publish name topic msgType message cache) = some next) :
    next.sockets = state.sockets ∧ next.calls = state.calls ∧
      next.published = state.published + 1 ∧
      next.writing = if state.Suppressed name topic message cache then state.writing
        else state.writing ++ [⟨name, topic, ⟨state.published, message⟩⟩] := by
  simp only [step] at stepped
  split at stepped
  · cases stepped
  · split at stepped
    · rename_i latched
      cases stepped
      exact ⟨rfl, rfl, rfl, (if_pos latched).symm⟩
    · rename_i new
      cases stepped
      rw [if_neg new]
      cases cache <;> exact ⟨rfl, rfl, rfl, rfl⟩

theorem published_step [DecidableEq Message] {state next : Delivery Message}
    {action : DeliveryAction Message} (stepped : state.step action = some next) :
    state.published ≤ next.published := by
  cases step_change stepped with
  | suppressed name topic msgType message cache acting latched result =>
      rw [result]
      exact Nat.le_succ _
  | published name topic msgType message cache acting new result =>
      rw [result]
      exact Nat.le_succ _
  | advertised _ _ _ _ result | subscribed _ _ _ _ _ _ _ result | added _ _ _ _ _ result
  | discovered _ _ _ _ result | moved _ _ _ _ _ _ _ _ _ _ _ result
  | written _ _ _ _ _ _ _ result | decoded _ _ _ _ _ _ _ _ _ result =>
      subst result
      exact Nat.le_refl _

theorem calls_step [DecidableEq Message] {state next : Delivery Message}
    {action : DeliveryAction Message} (stepped : state.step action = some next) {call : Call}
    (member : call ∈ next.calls) : call ∈ state.calls ∨
      ∃ publisher topic sent, state.Holds publisher topic sent ∧
        call.publication = sent.number := by
  cases step_change stepped with
  | decoded socket sent rest others sockets acting frames before changed result =>
      rw [result] at member
      rcases List.mem_append.mp member with old | new
      · exact .inl old
      · have held : state.Holds socket.publisher socket.request.object sent :=
          .waiting socket (before.mem_iff.mpr List.mem_cons_self) rfl rfl
            (frames ▸ List.mem_cons_self)
        exact .inr ⟨_, _, sent, held, (mem_handle new).2.2⟩
  | published name topic msgType message cache acting new result =>
      rw [result] at member
      cases cache <;> exact .inl member
  | advertised _ _ _ _ result | subscribed _ _ _ _ _ _ _ result | added _ _ _ _ _ result
  | discovered _ _ _ _ result | moved _ _ _ _ _ _ _ _ _ _ _ result
  | suppressed _ _ _ _ _ _ _ result | written _ _ _ _ _ _ _ result =>
      rw [result] at member
      exact .inl member

theorem Fresh.step [DecidableEq Message] {state next : Delivery Message}
    {action : DeliveryAction Message} (fresh : state.Fresh)
    (stepped : state.step action = some next) : next.Fresh := by
  have later := published_step stepped
  refine ⟨fun publisher topic sent held => ?_, fun call member => ?_⟩
  · rcases holds_step stepped held with old | ⟨number, msgType, message, cache, acting⟩
    · exact Nat.lt_of_lt_of_le (fresh.held publisher topic sent old) later
    · rw [acting] at stepped
      rw [number, (publish_step stepped).2.2.1]
      exact Nat.lt_succ_self _
  · rcases calls_step stepped member with old | ⟨publisher, topic, sent, held, number⟩
    · exact Nat.lt_of_lt_of_le (fresh.calls call old) later
    · rw [number]
      exact Nat.lt_of_lt_of_le (fresh.held publisher topic sent held) later

theorem exec_fresh [DecidableEq Message] {state final : Delivery Message}
    {run : List (DeliveryAction Message)} (fresh : state.Fresh)
    (executed : machine.exec state run = some final) : final.Fresh :=
  (machine.along_of_preserved Fresh (fun _ _ _ valid => valid.step) fresh run).final executed

/-! ## Every connection delivers to every callback -/

/-- Every request of the node for the topic has reached the publisher, whose socket for it
is registered and accepted, and every `subscribe` call has added its callback. -/
structure Complete (state : Delivery Message) (publisher node topic : String) : Prop where
  discovered : publisher ∈ (state.peers node).clients
  added : (node, topic) ∉ state.adding
  joined : ∀ socket ∈ state.sockets, socket.Joins publisher node topic →
    socket.stage = .registered ∧ socket.accepted = true

instance (state : Delivery Message) (publisher node topic : String) :
    Decidable (state.Complete publisher node topic) :=
  decidable_of_iff (publisher ∈ (state.peers node).clients ∧
      state.adding.count (node, topic) = 0 ∧
      ∀ socket ∈ state.sockets, socket.Joins publisher node topic →
        socket.stage = .registered ∧ socket.accepted = true)
    ⟨fun complete => ⟨complete.1, List.count_eq_zero.mp complete.2.1, complete.2.2⟩,
      fun complete => ⟨complete.discovered, List.count_eq_zero.mpr complete.added,
        complete.joined⟩⟩

/-- The node does not subscribe again, and no socket that the publisher has for it is closed
or skipped. -/
def Calm (publisher node topic : String) (state : Delivery Message) :
    DeliveryAction Message → Prop
  | .subscribe name other _ => ¬ (name = node ∧ other = topic)
  | .close index => ∀ socket ∈ state.sockets[index]?, ¬ socket.Joins publisher node topic
  | .writeToSocket index skipped => ∀ write ∈ state.writing[index]?,
      write.node = publisher → write.topic = topic → ∀ position ∈ skipped,
        ∀ socket ∈ state.sockets[position]?, ¬ socket.Joins publisher node topic
  | _ => True

instance (publisher node topic : String) (state : Delivery Message)
    (action : DeliveryAction Message) : Decidable (state.Calm publisher node topic action) := by
  cases action <;> unfold Calm <;> infer_instance

theorem Counted.callbacks_of_complete {state : Delivery Message} (counted : state.Counted)
    {publisher node topic : String} (complete : state.Complete publisher node topic) :
    (state.peers node).functions topic = state.requests node topic := by
  rw [← counted.callbacks, List.count_eq_zero.mpr complete.added, Nat.add_zero]

theorem Counted.connections_of_complete {state : Delivery Message} (counted : state.Counted)
    {publisher node topic : String} (complete : state.Complete publisher node topic) :
    state.between publisher node topic = state.requests node topic := by
  rw [counted.connections,
    List.count_eq_one_of_mem (counted.distinct node) complete.discovered, Nat.one_mul]

theorem clients_step [DecidableEq Message] {state next : Delivery Message}
    {action : DeliveryAction Message} (stepped : state.step action = some next)
    {publisher node : String} (known : publisher ∈ (state.peers node).clients) :
    publisher ∈ (next.peers node).clients := by
  cases step_change stepped with
  | advertised name topic msgType acting result =>
      rw [result, setPeer, kept_field Peer.clients (Peer.clients_advertise ..)]
      exact known
  | subscribed name topic msgType request acting object named result =>
      rw [result, setPeer, kept_field Peer.clients (Peer.clients_request ..)]
      exact known
  | added name topic others acting pending result =>
      rw [result, setPeer, kept_field Peer.clients (Peer.clients_addCallback ..)]
      exact known
  | discovered name other acting new result =>
      rw [result]
      dsimp only [setPeer]
      by_cases here : node = name
      · rw [← here, Function.update_self]
        exact List.mem_append_left _ known
      · rw [Function.update_of_ne here]
        exact known
  | published name topic msgType message cache acting new result =>
      rw [result]
      cases cache with
      | false => exact known
      | true =>
          rw [if_pos rfl, setPeer, kept_field Peer.clients (Peer.clients_latch ..)]
          exact known
  | moved _ _ _ _ _ _ _ _ _ _ _ result | suppressed _ _ _ _ _ _ _ result
  | written _ _ _ _ _ _ _ result | decoded _ _ _ _ _ _ _ _ _ result =>
      rw [result]
      exact known

theorem Complete.step [DecidableEq Message] {state next : Delivery Message}
    {action : DeliveryAction Message} {publisher node topic : String} (counted : state.Counted)
    (complete : state.Complete publisher node topic) (calm : state.Calm publisher node topic action)
    (stepped : state.step action = some next) : next.Complete publisher node topic := by
  have discovered := clients_step stepped complete.discovered
  cases step_change stepped with
  | advertised name subject msgType acting result =>
      subst result
      exact ⟨discovered, complete.added, complete.joined⟩
  | subscribed name subject msgType request acting object named result =>
      subst result
      rw [acting] at calm
      refine ⟨discovered, fun member => ?_, fun socket member joins => ?_⟩
      · rcases List.mem_append.mp member with old | new
        · exact complete.added old
        · obtain ⟨rfl, rfl⟩ := Prod.mk.inj (List.mem_singleton.mp new)
          exact calm ⟨rfl, rfl⟩
      · rcases List.mem_append.mp member with old | new
        · exact complete.joined socket old joins
        · obtain ⟨other, _, rfl⟩ := List.mem_map.mp new
          exact absurd ⟨named.symm.trans joins.2.1, object.symm.trans joins.2.2⟩ calm
  | added name subject others acting pending result =>
      subst result
      refine ⟨discovered, fun member => ?_, complete.joined⟩
      exact complete.added (pending.mem_iff.mpr (List.mem_cons_of_mem _ member))
  | discovered name other acting new result =>
      subst result
      refine ⟨discovered, complete.added, fun socket member joins => ?_⟩
      rcases List.mem_append.mp member with old | added
      · exact complete.joined socket old joins
      · obtain ⟨request, asked, rfl⟩ := List.mem_map.mp added
        have same : name = node := (counted.named name request asked).symm.trans joins.2.1
        have sender : other = publisher := joins.1
        rw [same, sender] at new
        exact absurd complete.discovered new
  | moved socket after others sockets acting before changed same request frames kept result =>
      subst result
      refine ⟨discovered, complete.added, fun other member joins => ?_⟩
      rcases mem_changed before changed member with rfl | old
      · have joined := (joins_congr same request).mp joins
        obtain ⟨registered, accepted⟩ :=
          complete.joined socket (before.mem_iff.mpr List.mem_cons_self) joined
        rcases kept registered accepted with still | ⟨index, rfl, located⟩
        · exact still
        · exact absurd joined (calm socket located)
      · exact complete.joined other old joins
  | suppressed name subject msgType message cache acting latched result =>
      subst result
      exact ⟨discovered, complete.added, complete.joined⟩
  | published name subject msgType message cache acting new result =>
      subst result
      cases cache with
      | false => exact ⟨discovered, complete.added, complete.joined⟩
      | true => exact ⟨discovered, complete.added, complete.joined⟩
  | written index skipped write others acting located calls result =>
      subst result
      refine ⟨discovered, complete.added, fun socket member joins => ?_⟩
      obtain ⟨position, inside, rfl⟩ := List.mem_mapIdx.mp member
      rw [append_stage, append_accepted]
      exact complete.joined _ (List.getElem_mem inside) (joins_append.mp joins)
  | decoded socket sent rest others sockets acting frames before changed result =>
      subst result
      refine ⟨discovered, complete.added, fun other member joins => ?_⟩
      rcases mem_changed before changed member with rfl | old
      · exact complete.joined socket (before.mem_iff.mpr List.mem_cons_self) joins
      · exact complete.joined other old joins

/-- The copies of a publication that a socket has for the callbacks. -/
def carried (publisher node topic : String) (number : Nat) (socket : Socket Message) : Nat :=
  if socket.Joins publisher node topic then
    socket.frames.countP fun sent => decide (sent.number = number)
  else 0

def inFlight (state : Delivery Message) (publisher node topic : String) (number : Nat) : Nat :=
  (state.sockets.map (carried publisher node topic number)).sum

def unwritten (state : Delivery Message) (number : Nat) : Nat :=
  state.writing.countP fun write => decide (write.sent.number = number)

/-- The calls that a callback has had with a publication, and those to come. -/
def share (state : Delivery Message) (publisher node topic : String) (number callback : Nat) :
    Nat :=
  state.calls.count ⟨node, topic, callback, number⟩ +
    state.inFlight publisher node topic number +
    state.requests node topic * state.unwritten number

theorem sum_mapIdx {α : Type} {values : List α} {convert : Nat → α → α} {weight : α → Nat}
    {raised : α → Bool} (raises : ∀ index value, values[index]? = some value →
      weight (convert index value) = weight value + if raised value then 1 else 0) :
    ((values.mapIdx convert).map weight).sum = (values.map weight).sum + values.countP raised := by
  induction values generalizing convert with
  | nil => rfl
  | cons value values ih =>
      have rest := ih fun index other located => raises (index + 1) other located
      rw [List.mapIdx_cons, List.map_cons, List.sum_cons, raises 0 value rfl, rest, List.map_cons,
        List.sum_cons, List.countP_cons]
      omega

theorem inFlight_perm {state : Delivery Message} {sockets : List (Socket Message)}
    (order : state.sockets.Perm sockets) (publisher node topic : String) (number : Nat) :
    state.inFlight publisher node topic number =
      (sockets.map (carried publisher node topic number)).sum :=
  (order.map _).sum_nat

theorem sum_carried_eq_zero {sockets : List (Socket Message)} {publisher node topic : String}
    {number : Nat} (none : ∀ socket ∈ sockets, socket.Joins publisher node topic →
      ∀ sent ∈ socket.frames, sent.number ≠ number) :
    (sockets.map (carried publisher node topic number)).sum = 0 := by
  refine List.sum_eq_zero_iff_forall_eq_nat.mpr fun copies member => ?_
  obtain ⟨socket, present, rfl⟩ := List.mem_map.mp member
  unfold carried
  split
  · rename_i joins
    exact List.countP_eq_zero.mpr fun sent frame same =>
      none socket present joins sent frame (of_decide_eq_true same)
  · rfl

/-- New connections have no frames yet. -/
theorem sum_carried_of_new {sockets : List (Socket Message)}
    (new : ∀ socket ∈ sockets, socket.frames = []) (publisher node topic : String) (number : Nat) :
    (sockets.map (carried publisher node topic number)).sum = 0 := by
  refine sum_carried_eq_zero fun socket member _ sent frame => ?_
  rw [new socket member] at frame
  cases frame

theorem carried_congr {socket other : Socket Message}
    (publisher : other.publisher = socket.publisher) (request : other.request = socket.request)
    (frames : other.frames = socket.frames) (name node topic : String) (number : Nat) :
    carried name node topic number other = carried name node topic number socket := by
  unfold carried
  simp only [joins_congr publisher request, frames]

theorem count_handle {state : Delivery Message} {node topic : String} {callback : Nat}
    (present : callback < (state.peers node).functions topic) (sent : Sent Message) (number : Nat) :
    (state.handle node topic sent).count ⟨node, topic, callback, number⟩ =
      if sent.number = number then 1 else 0 := by
  split
  · rename_i same
    have injective : Function.Injective fun other : Nat => Call.mk node topic other sent.number :=
      fun _ _ equal => congrArg Call.callback equal
    rw [← same, handle, List.count_map_of_injective _ _ injective, List.count_range, if_pos present]
  · rename_i different
    exact List.count_eq_zero.mpr fun member => different (mem_handle member).2.2.symm

/-- A publication belongs to the publisher and the topic wherever it is held. -/
def Belongs (state : Delivery Message) (publisher topic : String) (number : Nat) : Prop :=
  ∀ name subject sent, state.Holds name subject sent → sent.number = number →
    name = publisher ∧ subject = topic

theorem Belongs.step [DecidableEq Message] {state next : Delivery Message}
    {action : DeliveryAction Message} {publisher topic : String} {number : Nat}
    (belongs : state.Belongs publisher topic number) (before : number < state.published)
    (stepped : state.step action = some next) : next.Belongs publisher topic number := by
  intro name subject sent held same
  rcases holds_step stepped held with old | ⟨new, _⟩
  · exact belongs name subject sent old same
  · omega

theorem requests_calm [DecidableEq Message] {state next : Delivery Message}
    {action : DeliveryAction Message} {publisher node topic : String}
    (calm : state.Calm publisher node topic action) (stepped : state.step action = some next) :
    next.requests node topic = state.requests node topic := by
  rw [requests_step stepped, if_neg, Nat.add_zero]
  intro subscribes
  cases action <;> simp only [DeliveryAction.subscribes, Bool.false_eq_true,
    decide_eq_true_eq] at subscribes
  exact calm subscribes

section Share

variable {state : Delivery Message} {publisher node topic : String} {number callback : Nat}

/-- A write gives one copy to each of the connections. -/
theorem inFlight_written (counted : state.Counted) (complete : state.Complete publisher node topic)
    (belongs : state.Belongs publisher topic number) {write : Writing Message} {skipped : List Nat}
    (member : write ∈ state.writing)
    (calm : write.node = publisher → write.topic = topic → ∀ position ∈ skipped,
      ∀ socket ∈ state.sockets[position]?, ¬ socket.Joins publisher node topic) :
    ((state.sockets.mapIdx fun position socket => socket.append write.node write.topic write.sent
      (skipped.contains position)).map (carried publisher node topic number)).sum =
      state.inFlight publisher node topic number +
        state.requests node topic * if write.sent.number = number then 1 else 0 := by
  have raises : ∀ position socket, state.sockets[position]? = some socket →
      carried publisher node topic number
        (socket.append write.node write.topic write.sent (skipped.contains position)) =
      carried publisher node topic number socket +
        if decide (write.sent.number = number ∧ socket.Joins publisher node topic) then 1
        else 0 := by
    intro position socket located
    by_cases joins : socket.Joins publisher node topic
    · by_cases same : write.sent.number = number
      · obtain ⟨mine, subject⟩ := belongs _ _ _ (.writing write member rfl rfl rfl) same
        have kept : skipped.contains position = false := by
          rw [List.contains_eq_mem, decide_eq_false_iff_not]
          exact fun skips => calm mine subject position skips socket located joins
        have registered := (complete.joined socket (List.mem_of_getElem? located) joins).1
        unfold carried
        rw [if_pos (joins_append.mpr joins), if_pos joins, Socket.append,
          if_pos ⟨joins.1.trans mine.symm, joins.2.2.trans subject.symm, registered, kept⟩,
          List.countP_append, List.countP_singleton, if_pos (decide_eq_true same),
          if_pos (decide_eq_true ⟨same, joins⟩)]
      · rw [if_neg (fun both => same (of_decide_eq_true both).1), Nat.add_zero]
        unfold carried
        rw [if_pos (joins_append.mpr joins), if_pos joins]
        unfold Socket.append
        split
        · rw [List.countP_append, List.countP_singleton,
            if_neg (fun sent => same (of_decide_eq_true sent)), Nat.add_zero]
        · rfl
    · rw [if_neg (fun both => joins (of_decide_eq_true both).2), Nat.add_zero]
      unfold carried
      rw [if_neg (fun appended => joins (joins_append.mp appended)), if_neg joins]
  rw [sum_mapIdx raises]
  by_cases same : write.sent.number = number
  · have all := counted.connections_of_complete complete
    simp only [same, true_and, if_true, Nat.mul_one]
    exact congrArg (_ + ·) all
  · rw [if_neg same, Nat.mul_zero, List.countP_eq_zero.mpr]
    · rfl
    · exact fun socket _ both => same (of_decide_eq_true both).1

/-- A connection that joins the node has its cache already. -/
theorem carried_moved (complete : state.Complete publisher node topic)
    {socket after : Socket Message} (member : socket ∈ state.sockets)
    (same : after.publisher = socket.publisher) (request : after.request = socket.request)
    (frames : after.frames = socket.frames ∨ socket.stage ≠ .registered) :
    carried publisher node topic number after = carried publisher node topic number socket := by
  rcases frames with frames | early
  · exact carried_congr same request frames ..
  · have apart : ¬ socket.Joins publisher node topic := fun joins =>
      early (complete.joined socket member joins).1
    unfold carried
    rw [if_neg (fun joins => apart ((joins_congr same request).mp joins)), if_neg apart]

/-- The first frame of a connection goes to the callbacks. -/
theorem carried_decoded (counted : state.Counted) (complete : state.Complete publisher node topic)
    (belongs : state.Belongs publisher topic number)
    (present : callback < state.requests node topic) {socket : Socket Message}
    {sent : Sent Message} {rest : List (Sent Message)} (member : socket ∈ state.sockets)
    (frames : socket.frames = sent :: rest) :
    (state.handle socket.request.node socket.request.object sent).count
        ⟨node, topic, callback, number⟩ +
      carried publisher node topic number { socket with frames := rest } =
      carried publisher node topic number socket := by
  by_cases joins : socket.Joins publisher node topic
  · have here : callback < (state.peers node).functions topic := by
      rw [counted.callbacks_of_complete complete]
      exact present
    have after : Socket.Joins { socket with frames := rest } publisher node topic := joins
    unfold carried
    rw [if_pos joins, if_pos after, joins.2.1, joins.2.2, count_handle here, frames,
      List.countP_cons, Nat.add_comm]
    simp only [decide_eq_true_eq]
  · have after : ¬ Socket.Joins { socket with frames := rest } publisher node topic := joins
    unfold carried
    rw [if_neg joins, if_neg after, Nat.add_zero, List.count_eq_zero]
    intro called
    obtain ⟨mine, subject, same⟩ := mem_handle called
    have held : state.Holds socket.publisher socket.request.object sent :=
      .waiting socket member rfl rfl (frames ▸ List.mem_cons_self)
    exact joins ⟨(belongs _ _ _ held same.symm).1, mine.symm, subject.symm⟩

/-- A step moves copies of a publication towards the callbacks, and makes and loses none. -/
theorem share_step [DecidableEq Message] {next : Delivery Message}
    {action : DeliveryAction Message} (counted : state.Counted)
    (complete : state.Complete publisher node topic)
    (belongs : state.Belongs publisher topic number) (before : number < state.published)
    (calm : state.Calm publisher node topic action)
    (present : callback < state.requests node topic) (stepped : state.step action = some next) :
    next.share publisher node topic number callback =
      state.share publisher node topic number callback := by
  have requests := requests_calm calm stepped
  unfold share
  rw [requests]
  cases step_change stepped with
  | advertised name subject msgType acting result =>
      rw [result]
      rfl
  | subscribed name subject msgType request acting object named result =>
      have new : ∀ socket ∈ (state.peers name).clients.map fun publisher =>
          (.pull publisher request : Socket Message), socket.frames = [] :=
        List.forall_mem_map.mpr fun _ _ => rfl
      rw [result]
      dsimp only [inFlight, unwritten, Delivery.setPeer]
      rw [List.map_append, List.sum_append, sum_carried_of_new new, Nat.add_zero]
  | added name subject others acting pending result =>
      rw [result]
      rfl
  | discovered name other acting new result =>
      have new : ∀ socket ∈ (state.peers name).topicRequests.map fun request =>
          (.pull other request : Socket Message), socket.frames = [] :=
        List.forall_mem_map.mpr fun _ _ => rfl
      rw [result]
      dsimp only [inFlight, unwritten, Delivery.setPeer]
      rw [List.map_append, List.sum_append, sum_carried_of_new new, Nat.add_zero]
  | moved socket after others sockets acting order changed same request frames kept result =>
      have early : after.frames = socket.frames ∨ socket.stage ≠ .registered :=
        frames.imp_right fun found registered => by cases found.1.symm.trans registered
      have member : socket ∈ state.sockets := order.mem_iff.mpr List.mem_cons_self
      have unchanged : carried publisher node topic number after =
          carried publisher node topic number socket :=
        carried_moved complete member same request early
      have total : (sockets.map (carried publisher node topic number)).sum =
          state.inFlight publisher node topic number := by
        rw [(changed.map _).sum_nat, inFlight_perm order, List.map_cons, List.map_cons,
          List.sum_cons, List.sum_cons, unchanged]
      rw [result]
      dsimp only [inFlight, unwritten] at total ⊢
      rw [total]
  | suppressed name subject msgType message cache acting latched result =>
      rw [result]
      rfl
  | published name subject msgType message cache acting new result =>
      have other : state.published ≠ number := Nat.ne_of_gt before
      have sockets : next.sockets = state.sockets ∧ next.calls = state.calls := by
        rw [result]
        cases cache <;> exact ⟨rfl, rfl⟩
      have writing : next.unwritten number = state.unwritten number := by
        rw [result]
        dsimp only [unwritten]
        rw [List.countP_append, List.countP_singleton,
          if_neg (fun same => other (of_decide_eq_true same)), Nat.add_zero]
      rw [writing, sockets.2, inFlight, sockets.1]
      rfl
  | written index skipped write others acting located order result =>
      rw [acting] at calm
      have total := inFlight_written counted complete belongs
        (order.mem_iff.mpr List.mem_cons_self) (calm write located)
      have pending : state.unwritten number =
          others.countP (fun other => decide (other.sent.number = number)) +
            if write.sent.number = number then 1 else 0 := by
        rw [unwritten, order.countP_eq, List.countP_cons]
        simp only [decide_eq_true_eq]
      rw [result, pending, Nat.mul_add]
      dsimp only [inFlight, unwritten] at total ⊢
      rw [total]
      omega
  | decoded socket sent rest others sockets acting frames order changed result =>
      have member : socket ∈ state.sockets := order.mem_iff.mpr List.mem_cons_self
      have moved := carried_decoded counted complete belongs present member frames
      have total := inFlight_perm order publisher node topic number
      rw [List.map_cons, List.sum_cons] at total
      rw [result, total]
      dsimp only [inFlight, unwritten]
      rw [(changed.map _).sum_nat, List.map_cons, List.sum_cons, List.count_append]
      omega

end Share

/-- Nothing of the publication is left to write, and no connection of the node has it. -/
def Drained (state : Delivery Message) (publisher node topic : String) (number : Nat) : Prop :=
  (∀ write ∈ state.writing, write.sent.number ≠ number) ∧
    ∀ socket ∈ state.sockets, socket.Joins publisher node topic →
      ∀ sent ∈ socket.frames, sent.number ≠ number

instance (state : Delivery Message) (publisher node topic : String) (number : Nat) :
    Decidable (state.Drained publisher node topic number) :=
  inferInstanceAs (Decidable (_ ∧ _))

/-- Each of the callbacks of the node is to have `owed` calls for each of its requests. -/
structure Owed (state : Delivery Message) (publisher node topic : String)
    (number requests owed : Nat) : Prop where
  counted : state.Counted
  complete : state.Complete publisher node topic
  belongs : state.Belongs publisher topic number
  published : number < state.published
  asked : state.requests node topic = requests
  shares : ∀ callback < requests,
    state.share publisher node topic number callback = requests * owed

section Owed

variable {state : Delivery Message} {publisher node topic : String} {number requests owed : Nat}

theorem Owed.step [DecidableEq Message] {next : Delivery Message} {action : DeliveryAction Message}
    (owes : state.Owed publisher node topic number requests owed)
    (calm : state.Calm publisher node topic action) (stepped : state.step action = some next) :
    next.Owed publisher node topic number requests owed where
  counted := owes.counted.step stepped
  complete := owes.complete.step owes.counted calm stepped
  belongs := owes.belongs.step owes.published stepped
  published := Nat.lt_of_lt_of_le owes.published (published_step stepped)
  asked := (requests_calm calm stepped).trans owes.asked
  shares callback present :=
    (share_step owes.counted owes.complete owes.belongs owes.published calm
      (owes.asked.symm ▸ present) stepped).trans (owes.shares callback present)

theorem exec_owed [DecidableEq Message] {final : Delivery Message}
    {run : List (DeliveryAction Message)}
    (owes : state.Owed publisher node topic number requests owed)
    (calm : machine.Obeys (Calm publisher node topic) state run)
    (executed : machine.exec state run = some final) :
    final.Owed publisher node topic number requests owed := by
  have along : machine.Along (fun state => state.Owed publisher node topic number requests owed)
      state run :=
    machine.along_of_obeys (fun _ _ _ valid calm stepped => Owed.step valid calm stepped) owes calm
  exact along.final executed

theorem share_drained (drained : state.Drained publisher node topic number) (callback : Nat) :
    state.share publisher node topic number callback =
      state.calls.count ⟨node, topic, callback, number⟩ := by
  have written : state.unwritten number = 0 :=
    List.countP_eq_zero.mpr fun write member same =>
      drained.1 write member (of_decide_eq_true same)
  have delivered : state.inFlight publisher node topic number = 0 :=
    sum_carried_eq_zero drained.2
  rw [share, written, delivered, Nat.mul_zero, Nat.add_zero]

theorem Owed.called (owes : state.Owed publisher node topic number requests owed)
    (drained : state.Drained publisher node topic number) :
    ∀ callback < requests,
      state.calls.count ⟨node, topic, callback, number⟩ = requests * owed := by
  intro callback present
  rw [← share_drained drained]
  exact owes.shares callback present

/-- A publication owes one call to each callback over each connection, unless it is of a
message that the topic has latched before. -/
theorem owed_of_publish [DecidableEq Message] {next : Delivery Message} {msgType : String}
    {message : Message} {cache : Bool} (counted : state.Counted) (fresh : state.Fresh)
    (complete : state.Complete publisher node topic)
    (stepped : state.step (.publish publisher topic msgType message cache) = some next) :
    next.Owed publisher node topic state.published (state.requests node topic)
      (if state.Suppressed publisher topic message cache then 0 else 1) := by
  have belongs : next.Belongs publisher topic state.published := by
    intro name subject sent held same
    rcases holds_step stepped held with old | ⟨_, _, _, _, acting⟩
    · have older := fresh.held name subject sent old
      omega
    · cases acting
      exact ⟨rfl, rfl⟩
  have uncalled : ∀ callback,
      state.calls.count ⟨node, topic, callback, state.published⟩ = 0 := by
    refine fun callback => List.count_eq_zero.mpr fun member => ?_
    exact Nat.lt_irrefl _ (fresh.calls _ member)
  have undelivered : state.inFlight publisher node topic state.published = 0 :=
    sum_carried_eq_zero fun socket member _ sent frame =>
      Nat.ne_of_lt (fresh.held _ _ sent (.waiting socket member rfl rfl frame))
  have written : state.unwritten state.published = 0 :=
    List.countP_eq_zero.mpr fun write member same =>
      Nat.ne_of_lt (fresh.held _ _ write.sent (.writing write member rfl rfl rfl))
        (of_decide_eq_true same)
  have asked : next.requests node topic = state.requests node topic := requests_step stepped ..
  obtain ⟨sockets, calls, published, writing⟩ := publish_step stepped
  have calm : state.Calm publisher node topic (.publish publisher topic msgType message cache) :=
    trivial
  refine ⟨counted.step stepped, complete.step counted calm stepped, belongs,
    published ▸ Nat.lt_succ_self _, asked, fun callback present => ?_⟩
  have pending : next.unwritten state.published =
      if state.Suppressed publisher topic message cache then 0 else 1 := by
    rw [unwritten, writing]
    split
    · exact written
    · dsimp only [unwritten] at written
      rw [List.countP_append, List.countP_singleton, written, if_pos (decide_eq_true rfl)]
  dsimp only [inFlight] at undelivered
  rw [share, asked, pending, calls, uncalled, inFlight, sockets, undelivered, Nat.zero_add]

def remaining (state : Delivery Message) : Nat × Nat :=
  (state.writing.length, (state.sockets.map fun socket => socket.frames.length).sum)

/-- While a publication is not drained, some `publish` call can write, or some connection of
the node can be decoded. -/
theorem Owed.lowers [DecidableEq Message]
    (owes : state.Owed publisher node topic number requests owed) (asks : 0 < requests)
    (unfinished : ¬ state.Drained publisher node topic number) :
    ∃ action next, state.Calm publisher node topic action ∧
      machine.step state action = some next ∧
      WellFoundedRelation.rel next.remaining state.remaining := by
  by_cases idle : state.writing = []
  · have kept : ∃ socket ∈ state.sockets, socket.Joins publisher node topic ∧
        ∃ sent, sent ∈ socket.frames := by
      by_contra none
      refine unfinished ⟨fun write member => ?_, fun socket member joins sent frame => ?_⟩
      · rw [idle] at member
        cases member
      · exact absurd ⟨socket, member, joins, sent, frame⟩ none
    obtain ⟨socket, member, joins, sent, frame⟩ := kept
    obtain ⟨index, located⟩ := List.mem_iff_getElem?.mp member
    obtain ⟨head, rest, frames⟩ := List.exists_cons_of_ne_nil (List.ne_nil_of_mem frame)
    have enabled : socket.accepted = true ∧
        0 < (state.peers socket.request.node).functions socket.request.object := by
      rw [joins.2.1, joins.2.2, owes.counted.callbacks_of_complete owes.complete, owes.asked]
      exact ⟨(owes.complete.joined socket member joins).2, asks⟩
    have stepped : state.step (.decode index) =
        some { state.setSocket index { socket with frames := rest } with
          calls := state.calls ++
            state.handle socket.request.node socket.request.object head } := by
      simp only [Delivery.step, located, frames]
      rw [if_pos enabled]
    refine ⟨.decode index, _, trivial, stepped, Prod.Lex.right _ ?_⟩
    have before := ((perm_eraseIdx located).map fun socket => socket.frames.length).sum_nat
    have after := ((perm_set located { socket with frames := rest }).map
      fun socket => socket.frames.length).sum_nat
    rw [List.map_cons, List.sum_cons] at before after
    rw [frames, List.length_cons] at before
    dsimp only at after
    have lower : ((state.sockets.set index { socket with frames := rest }).map
        fun socket => socket.frames.length).sum <
        (state.sockets.map fun socket => socket.frames.length).sum := by omega
    exact lower
  · obtain ⟨write, others, writing⟩ := List.exists_cons_of_ne_nil idle
    have stepped : state.step (.writeToSocket 0 []) = some { state with
        sockets := state.sockets.mapIdx fun position socket =>
          socket.append write.node write.topic write.sent (([] : List Nat).contains position)
        writing := others } := by
      simp only [Delivery.step, writing, List.getElem?_cons_zero, List.eraseIdx_zero,
        List.tail_cons]
    have calm : state.Calm publisher node topic (.writeToSocket 0 []) :=
      fun _ _ _ _ _ skips => absurd skips List.not_mem_nil
    refine ⟨.writeToSocket 0 [], _, calm, stepped, Prod.Lex.left _ _ ?_⟩
    rw [writing]
    exact Nat.lt_succ_self _

theorem Owed.drains [DecidableEq Message]
    (owes : state.Owed publisher node topic number requests owed) (asks : 0 < requests) :
    ∃ rest final, machine.Obeys (Calm publisher node topic) state rest ∧
      machine.exec state rest = some final ∧ final.Drained publisher node topic number := by
  have lowers : ∀ state : Delivery Message,
      state.Owed publisher node topic number requests owed →
      ¬ state.Drained publisher node topic number → ∃ action next,
        state.Calm publisher node topic action ∧ machine.step state action = some next ∧
        next.Owed publisher node topic number requests owed ∧
        WellFoundedRelation.rel next.remaining state.remaining := by
    intro state owes unfinished
    obtain ⟨action, next, calm, stepped, lower⟩ := owes.lowers asks unfinished
    exact ⟨action, next, calm, stepped, owes.step calm stepped, lower⟩
  exact machine.reaches_of_lowers remaining lowers owes

end Owed

def connect : List (DeliveryAction String) :=
  [.advertise "camera" "view" "Picture", .subscribe "screen" "view" "Picture", .addCallback 0,
    .addClient "screen" "camera", .find 0, .register 0 [], .accept 0]

def picture : DeliveryAction String := .publish "camera" "view" "Picture" "first" true

/-- The node subscribes twice before it is told of the publisher. -/
def connectTwice : List (DeliveryAction String) :=
  [.advertise "camera" "view" "Picture", .subscribe "screen" "view" "Picture", .addCallback 0,
    .subscribe "screen" "view" "Picture", .addCallback 0, .addClient "screen" "camera",
    .find 0, .register 0 [], .accept 0, .find 1, .register 1 [], .accept 1]

def deliverTwice : List (DeliveryAction String) := [.writeToSocket 0 [], .decode 0, .decode 1]

end Delivery

end ProtoCore.Routing
