import ProtoCore.Library.Simulation
import ProtoCore.Routing.Delivery
import ProtoCore.Routing.TypeSafety

/-!
# Deliveries as runs of the network of frames

The network keeps frames with their types and decoders, and a delivery keeps messages with
their numbers and callbacks. When the messages are the bytes of the frames, every run of
deliveries is one of the network, with the same sockets, caches and `publish` calls.
-/

set_option autoImplicit false

namespace ProtoCore.Routing

open Library

def Frame.Carries (sent : Sent (List UInt8)) (frame : Frame) : Prop := frame.bytes = sent.message

/-- A topic that a callback was added for has a decoder. -/
structure Peer.Mirrors (peer : Peer (List UInt8)) (node : NodeHandler) : Prop where
  topics : ∀ topic, node.published topic = peer.topics (publishedKey topic)
  publishers : node.publishers = peer.publishers
  cache : ∀ topic,
    List.Forall₂ Frame.Carries (peer.staticTopicCache topic) (node.staticTopicCache topic)
  topicRequests : node.topicRequests = peer.topicRequests
  decoders : ∀ topic, 0 < peer.functions topic → (node.decoders topic).isSome = true

structure Socket.Mirrors (socket : Socket (List UInt8)) (connection : Connection) : Prop where
  publisher : connection.publisher = socket.publisher
  request : connection.request = socket.request
  stage : connection.stage = socket.stage
  accepted : connection.accepted = socket.accepted
  frames : List.Forall₂ Frame.Carries socket.frames connection.frames

structure Writing.Mirrors (write : Writing (List UInt8)) (publish : Publish) : Prop where
  node : publish.node = write.node
  topic : publish.topic = write.topic
  frame : publish.frame.Carries write.sent

/-- A handler that has just been started. -/
def Connection.pull (publisher : String) (request : ConnectionRequest) : Connection where
  publisher := publisher
  request := request
  stage := .waiting
  accepted := false
  frames := []

namespace Delivery

/-- The first callback of a decoder is called with every frame, in the order of decoding. -/
structure Mirrors (state : Delivery (List UInt8)) (network : Network) : Prop where
  peers : ∀ name, (state.peers name).Mirrors (network.nodes name)
  sockets : List.Forall₂ Socket.Mirrors state.sockets network.connections
  writing : List.Forall₂ Writing.Mirrors state.writing network.publishing
  adding : ∀ call ∈ state.adding, ((network.nodes call.1).decoders call.2).isSome = true
  decoded : ∃ given : List (Sent (List UInt8)),
    List.Forall₂ (fun sent entry => Frame.Carries sent entry.2) given network.decoded ∧
    given.map Sent.number =
      (state.calls.filter fun call => call.callback = 0).map Call.publication

theorem mirrors_initial : Mirrors initial .initial where
  peers _ := {
    topics := fun _ => rfl
    publishers := rfl
    cache := fun _ => .nil
    topicRequests := rfl
    decoders := fun _ positive => absurd positive (Nat.lt_irrefl 0) }
  sockets := .nil
  writing := .nil
  adding _ member := by cases member
  decoded := ⟨[], .nil, rfl⟩

/-! ## Handlers are started -/

/-- Handlers of several requests are started, each with the place of its request. -/
def pulled (network : Network) (pulls : List (String × ConnectionRequest × Nat)) : Network :=
  { network with
    connections := network.connections ++ pulls.map fun pull => .pull pull.1 pull.2.1 }

theorem nodes_pulled (network : Network) (pulls : List (String × ConnectionRequest × Nat)) :
    (pulled network pulls).nodes = network.nodes := rfl

theorem exec_topicConnections {network : Network} {subscriber : String}
    {pulls : List (String × ConnectionRequest × Nat)}
    (located : ∀ pull ∈ pulls,
      (network.nodes subscriber).topicRequests[pull.2.2]? = some pull.2.1) :
    Network.machine.exec network
        (pulls.map fun pull => .topicConnection pull.1 subscriber pull.2.2) =
      some (pulled network pulls) := by
  induction pulls generalizing network with
  | nil =>
      rw [pulled, List.map_nil, List.map_nil, List.append_nil]
      rfl
  | cons pull rest ih =>
      have stepped : Network.machine.step network (.topicConnection pull.1 subscriber pull.2.2) =
          some { network with
            connections := network.connections ++ [.pull pull.1 pull.2.1] } := by
        simp only [Network.machine, Network.step, located pull List.mem_cons_self]
        rfl
      have onward := @ih
        { network with connections := network.connections ++ [.pull pull.1 pull.2.1] }
        fun other member => located other (List.mem_cons_of_mem _ member)
      rw [List.map_cons, Network.machine.exec_cons_of_step stepped, onward, pulled, pulled,
        List.map_cons, List.append_assoc, List.singleton_append]

theorem pulled_mirrors (publisher : String) (request : ConnectionRequest) :
    (Socket.pull publisher request).Mirrors (Connection.pull publisher request) :=
  ⟨rfl, rfl, rfl, rfl, .nil⟩

theorem sockets_pulled (pulls : List (String × ConnectionRequest × Nat)) :
    List.Forall₂ Socket.Mirrors (pulls.map fun pull => .pull pull.1 pull.2.1)
      (pulls.map fun pull => .pull pull.1 pull.2.1) := by
  rw [List.forall₂_map_left_iff, List.forall₂_map_right_iff, List.forall₂_same]
  exact fun pull _ => pulled_mirrors pull.1 pull.2.1

/-! ## Nodes -/

section Nodes

variable {peer : Peer (List UInt8)} {node : NodeHandler}

theorem advertise_mirrors (mirrors : peer.Mirrors node) (topic msgType : String) :
    (peer.advertise topic msgType).Mirrors (node.advertise topic msgType) where
  topics other := by
    rw [NodeHandler.published_advertise, mirrors.topics]
    simp only [Peer.advertise, Function.update_apply, publishedKey_inj]
  publishers := by rw [NodeHandler.advertise, Peer.advertise, mirrors.publishers]
  cache := mirrors.cache
  topicRequests := mirrors.topicRequests
  decoders := mirrors.decoders

theorem decoders_subscribe (node : NodeHandler) (name topic msgType other : String)
    (known : other = topic ∨ (node.decoders other).isSome = true) :
    ((node.subscribe name topic msgType).decoders other).isSome = true := by
  simp only [NodeHandler.subscribe, Function.update_apply]
  split
  · rfl
  · rename_i apart
    rcases known with same | known
    · exact absurd same apart
    · exact known

theorem subscribe_mirrors (mirrors : peer.Mirrors node) (name topic msgType : String) :
    (peer.request { object := topic, url := getTypeurl msgType, node := name }).Mirrors
      (node.subscribe name topic msgType) where
  topics other := by
    rw [NodeHandler.published_subscribe]
    exact mirrors.topics other
  publishers := mirrors.publishers
  cache := mirrors.cache
  topicRequests := by
    rw [Peer.request, ← mirrors.topicRequests]
    rfl
  decoders other positive :=
    decoders_subscribe node name topic msgType other (.inr (mirrors.decoders other positive))

theorem addCallback_mirrors (mirrors : peer.Mirrors node) {topic : String}
    (known : (node.decoders topic).isSome = true) : (peer.addCallback topic).Mirrors node where
  topics := mirrors.topics
  publishers := mirrors.publishers
  cache := mirrors.cache
  topicRequests := mirrors.topicRequests
  decoders other positive := by
    by_cases same : other = topic
    · exact same ▸ known
    · rw [Peer.functions_addCallback, if_neg same] at positive
      exact mirrors.decoders other positive

theorem addClient_mirrors (mirrors : peer.Mirrors node) (publisher : String) :
    (peer.addClient publisher).Mirrors node :=
  ⟨mirrors.topics, mirrors.publishers, mirrors.cache, mirrors.topicRequests, mirrors.decoders⟩

/-- A cache has the bytes of a frame when it has the message. -/
theorem cached_iff (mirrors : peer.Mirrors node) (topic : String) (frame : Frame) :
    ((node.staticTopicCache topic).any fun cached => cached.bytes == frame.bytes) = true ↔
      ∃ sent ∈ peer.staticTopicCache topic, sent.message = frame.bytes := by
  have related := mirrors.cache topic
  generalize peer.staticTopicCache topic = sents at related
  generalize node.staticTopicCache topic = frames at related
  induction related with
  | nil => simp only [List.any_nil, Bool.false_eq_true, List.not_mem_nil, false_and, exists_false]
  | cons carries _ ih =>
      simp only [List.any_cons, Bool.or_eq_true, beq_iff_eq, ih, List.mem_cons, exists_eq_or_imp,
        carries.symm]

theorem latch_mirrors (mirrors : peer.Mirrors node) (topic : String) {sent : Sent (List UInt8)}
    {frame : Frame} (carries : frame.Carries sent)
    (new : ¬ ∃ held ∈ peer.staticTopicCache topic, held.message = frame.bytes) :
    node.writeToCache topic frame = (true, (node.writeToCache topic frame).2) ∧
      (peer.latch topic sent).Mirrors (node.writeToCache topic frame).2 := by
  have missing : ¬ ((node.staticTopicCache topic).any fun cached => cached.bytes == frame.bytes) =
      true := mt (cached_iff mirrors topic frame).mp new
  rw [NodeHandler.writeToCache, if_neg missing]
  refine ⟨rfl, mirrors.topics, mirrors.publishers, fun other => ?_, mirrors.topicRequests,
    mirrors.decoders⟩
  by_cases same : other = topic
  · subst same
    simp only [Peer.latch, Function.update_self]
    exact List.rel_append (mirrors.cache other) (.cons carries .nil)
  · simp only [Peer.latch, Function.update_of_ne same]
    exact mirrors.cache other

theorem decoders_writeToCache (node : NodeHandler) (topic : String) (frame : Frame)
    (other : String) : (node.writeToCache topic frame).2.decoders other = node.decoders other := by
  unfold NodeHandler.writeToCache
  split
  · rfl
  · rfl

theorem append_mirrors {socket : Socket (List UInt8)} {connection : Connection}
    (mirrors : socket.Mirrors connection) {write : Writing (List UInt8)} {publish : Publish}
    (same : write.Mirrors publish) (skipped : Bool) :
    (socket.append write.node write.topic write.sent skipped).Mirrors
      (connection.append publish skipped) := by
  have reached : (connection.publisher = publish.node ∧
      connection.request.object = publish.topic ∧ connection.stage = .registered ∧
        !skipped) ↔ socket.publisher = write.node ∧ socket.request.object = write.topic ∧
          socket.stage = .registered ∧ skipped = false := by
    rw [mirrors.publisher, mirrors.request, mirrors.stage, same.node, same.topic,
      Bool.not_eq_true']
  by_cases reaches : socket.publisher = write.node ∧ socket.request.object = write.topic ∧
      socket.stage = .registered ∧ skipped = false
  · rw [Socket.append, if_pos reaches, Connection.append, if_pos (reached.mpr reaches)]
    exact { mirrors with frames := List.rel_append mirrors.frames (.cons same.frame .nil) }
  · rw [Socket.append, if_neg reaches, Connection.append, if_neg (mt reached.mp reaches)]
    exact mirrors

end Nodes

/-! ## Steps -/

section Steps

variable {state next : Delivery (List UInt8)} {network : Network}

theorem peers_update (peers : ∀ name, (state.peers name).Mirrors (network.nodes name))
    (name : String) {peer : Peer (List UInt8)} {node : NodeHandler} (here : peer.Mirrors node)
    (other : String) : (Function.update state.peers name peer other).Mirrors
      (Function.update network.nodes name node other) := by
  by_cases same : other = name
  · subst same
    rw [Function.update_self, Function.update_self]
    exact here
  · rw [Function.update_of_ne same, Function.update_of_ne same]
    exact peers other

/-- A peer changes, and its node does not. -/
theorem peers_update_left (peers : ∀ name, (state.peers name).Mirrors (network.nodes name))
    (name : String) {peer : Peer (List UInt8)} (here : peer.Mirrors (network.nodes name))
    (other : String) :
    (Function.update state.peers name peer other).Mirrors (network.nodes other) := by
  by_cases same : other = name
  · subst same
    rw [Function.update_self]
    exact here
  · rw [Function.update_of_ne same]
    exact peers other

theorem decoders_update {name : String} {node : NodeHandler}
    (same : ∀ topic, node.decoders topic = (network.nodes name).decoders topic)
    {call : String × String} (known : ((network.nodes call.1).decoders call.2).isSome = true) :
    ((Function.update network.nodes name node call.1).decoders call.2).isSome = true := by
  rw [Function.update_apply]
  split
  · rename_i here
    rw [same, ← here]
    exact known
  · exact known

theorem Mirrors.socket (mirrors : Mirrors state network) {index : Nat}
    {socket : Socket (List UInt8)} (located : state.sockets[index]? = some socket) :
    ∃ connection, network.connections[index]? = some connection ∧ socket.Mirrors connection :=
  related_getElem? mirrors.sockets located

/-- A socket and its handler move. -/
theorem Mirrors.setSocket (mirrors : Mirrors state network) (index : Nat)
    {socket : Socket (List UInt8)} {connection : Connection} (here : socket.Mirrors connection) :
    Mirrors (state.setSocket index socket) (network.setConnection index connection) where
  peers := mirrors.peers
  sockets := related_set mirrors.sockets index here
  writing := mirrors.writing
  adding := mirrors.adding
  decoded := mirrors.decoded

theorem Mirrors.advertise (mirrors : Mirrors state network) (name topic msgType : String) :
    Mirrors (state.setPeer name ((state.peers name).advertise topic msgType))
      (network.setNode name ((network.nodes name).advertise topic msgType)) where
  peers := peers_update mirrors.peers name (advertise_mirrors (mirrors.peers name) topic msgType)
  sockets := mirrors.sockets
  writing := mirrors.writing
  adding call member := by
    have kept (other : String) : ((network.nodes name).advertise topic msgType).decoders other =
        (network.nodes name).decoders other := rfl
    exact decoders_update kept (mirrors.adding call member)
  decoded := mirrors.decoded

theorem Mirrors.subscribe (mirrors : Mirrors state network) {name topic msgType : String}
    (stepped : state.step (.subscribe name topic msgType) = some next) :
    ∃ trace after, Network.machine.exec network trace = some after ∧ Mirrors next after := by
  cases stepped
  let request : ConnectionRequest := { object := topic, url := getTypeurl msgType, node := name }
  let pulls : List (String × ConnectionRequest × Nat) := (state.peers name).clients.map
    fun publisher => (publisher, request, (state.peers name).topicRequests.length)
  let middle : Network :=
    network.setNode name ((network.nodes name).subscribe name topic msgType)
  have node : middle.nodes name = (network.nodes name).subscribe name topic msgType :=
    Function.update_self ..
  have located : ∀ pull ∈ pulls, (middle.nodes name).topicRequests[pull.2.2]? = some pull.2.1 := by
    intro pull member
    obtain ⟨publisher, _, rfl⟩ := List.mem_map.mp member
    rw [node]
    simp only [NodeHandler.subscribe, (mirrors.peers name).topicRequests]
    exact List.getElem?_concat_length
  have stepped : Network.machine.step network (.subscribe name topic msgType) = some middle := rfl
  refine ⟨.subscribe name topic msgType ::
    pulls.map fun pull => .topicConnection pull.1 name pull.2.2, pulled middle pulls, ?_, ?_⟩
  · rw [Network.machine.exec_cons_of_step stepped]
    exact exec_topicConnections located
  · refine ⟨peers_update mirrors.peers name (subscribe_mirrors (mirrors.peers name) name topic
      msgType), ?_, mirrors.writing, fun call member => ?_, mirrors.decoded⟩
    · have opened := sockets_pulled pulls
      have same : pulls.map (fun pull => (Socket.pull pull.1 pull.2.1 : Socket (List UInt8))) =
          (state.peers name).clients.map fun publisher => .pull publisher request := by
        simp only [pulls, List.map_map]
        rfl
      rw [same] at opened
      exact List.rel_append mirrors.sockets opened
    · have known : (call.1 = name ∧ call.2 = topic) ∨
          ((network.nodes call.1).decoders call.2).isSome = true := by
        rcases List.mem_append.mp member with earlier | last
        · exact .inr (mirrors.adding call earlier)
        · cases List.mem_singleton.mp last
          exact .inl ⟨rfl, rfl⟩
      rw [nodes_pulled]
      by_cases same : call.1 = name
      · rw [same] at known ⊢
        rw [node]
        exact decoders_subscribe _ _ _ _ _ (known.imp And.right id)
      · simp only [middle, Network.setNode, Function.update_of_ne same]
        exact known.resolve_left fun both => same both.1

theorem Mirrors.addCallback (mirrors : Mirrors state network) {index : Nat}
    (stepped : state.step (.addCallback index) = some next) : Mirrors next network := by
  simp only [Delivery.step] at stepped
  split at stepped
  · rename_i name topic located
    cases stepped
    have known := mirrors.adding (name, topic) (List.mem_of_getElem? located)
    exact ⟨peers_update_left mirrors.peers name (addCallback_mirrors (mirrors.peers name) known),
      mirrors.sockets, mirrors.writing,
      fun call member => mirrors.adding call (List.mem_of_mem_eraseIdx member), mirrors.decoded⟩
  · cases stepped

theorem Mirrors.addClient (mirrors : Mirrors state network) {name publisher : String}
    (stepped : state.step (.addClient name publisher) = some next) :
    ∃ trace after, Network.machine.exec network trace = some after ∧ Mirrors next after := by
  simp only [Delivery.step, Option.ite_none_left_eq_some] at stepped
  obtain ⟨_, stepped⟩ := stepped
  cases stepped
  let requests := (state.peers name).topicRequests
  let pulls : List (String × ConnectionRequest × Nat) :=
    requests.zipIdx.map fun entry => (publisher, entry.1, entry.2)
  have located : ∀ pull ∈ pulls,
      (network.nodes name).topicRequests[pull.2.2]? = some pull.2.1 := by
    intro pull member
    obtain ⟨entry, numbered, rfl⟩ := List.mem_map.mp member
    rw [(mirrors.peers name).topicRequests]
    exact List.mem_zipIdx_iff_getElem?.mp numbered
  refine ⟨pulls.map fun pull => .topicConnection pull.1 name pull.2.2, pulled network pulls,
    exec_topicConnections located, ?_, ?_, mirrors.writing, mirrors.adding, mirrors.decoded⟩
  · exact peers_update_left mirrors.peers name (addClient_mirrors (mirrors.peers name) publisher)
  · have opened := sockets_pulled pulls
    have same : pulls.map (fun pull => (Socket.pull pull.1 pull.2.1 : Socket (List UInt8))) =
        requests.map fun request => .pull publisher request := by
      conv => rhs; rw [← List.zipIdx_map_fst 0 requests]
      simp only [pulls, List.map_map]
      rfl
    rw [same] at opened
    exact List.rel_append mirrors.sockets opened

theorem Mirrors.find (mirrors : Mirrors state network) {index : Nat}
    (stepped : state.step (.find index) = some next) :
    ∃ after, network.step (.find index) = some after ∧ Mirrors next after := by
  simp only [Delivery.step] at stepped
  split at stepped
  · rename_i socket located
    obtain ⟨⟨waiting, granted⟩, stepped⟩ := Option.ite_none_right_eq_some.mp stepped
    cases stepped
    obtain ⟨connection, found, same⟩ := mirrors.socket located
    have answers : (network.nodes connection.publisher).findWaitPublishedTopic
        connection.request.object connection.request.url = true := by
      have topics := (mirrors.peers socket.publisher).topics socket.request.object
      rw [NodeHandler.published] at topics
      rw [same.publisher, same.request, NodeHandler.findWaitPublishedTopic, topics]
      exact granted
    refine ⟨network.setConnection index { connection with stage := .found }, ?_,
      mirrors.setSocket index { same with stage := rfl }⟩
    simp only [Network.step, found]
    rw [if_pos ⟨same.stage.trans waiting, answers⟩]
  · cases stepped

theorem Mirrors.register (mirrors : Mirrors state network) {index : Nat}
    {order : List (Sent (List UInt8))} (stepped : state.step (.register index order) = some next) :
    ∃ frames after, network.step (.register index frames) = some after ∧ Mirrors next after := by
  simp only [Delivery.step] at stepped
  split at stepped
  · rename_i socket located
    obtain ⟨⟨here, ordered⟩, stepped⟩ := Option.ite_none_right_eq_some.mp stepped
    cases stepped
    obtain ⟨connection, found, same⟩ := mirrors.socket located
    -- the frames go out in the order of their messages
    obtain ⟨frames, carried, reordered⟩ := List.perm_comp_forall₂ ordered
      ((mirrors.peers socket.publisher).cache socket.request.object)
    refine ⟨frames, network.setConnection index
      { connection with stage := .registered, frames := frames }, ?_,
      mirrors.setSocket index { same with stage := rfl, frames := carried }⟩
    simp only [Network.step, found]
    rw [if_pos ⟨same.stage.trans here, by rw [same.publisher, same.request]; exact reordered⟩]
  · cases stepped

theorem Mirrors.accept (mirrors : Mirrors state network) {index : Nat}
    (stepped : state.step (.accept index) = some next) :
    ∃ after, network.step (.accept index) = some after ∧ Mirrors next after := by
  simp only [Delivery.step] at stepped
  split at stepped
  · rename_i socket located
    obtain ⟨here, stepped⟩ := Option.ite_none_right_eq_some.mp stepped
    cases stepped
    obtain ⟨connection, found, same⟩ := mirrors.socket located
    refine ⟨network.setConnection index { connection with accepted := true }, ?_,
      mirrors.setSocket index { same with accepted := rfl }⟩
    simp only [Network.step, found]
    rw [if_pos (by rw [same.stage]; exact here)]
  · cases stepped

theorem Mirrors.close (mirrors : Mirrors state network) {index : Nat}
    (stepped : state.step (.close index) = some next) :
    ∃ after, network.step (.close index) = some after ∧ Mirrors next after := by
  simp only [Delivery.step] at stepped
  split at stepped
  · rename_i socket located
    cases stepped
    obtain ⟨connection, found, same⟩ := mirrors.socket located
    refine ⟨network.setConnection index { connection with stage := .closed }, ?_,
      mirrors.setSocket index { same with stage := rfl }⟩
    simp only [Network.step, found, Option.map_some]
  · cases stepped

theorem Mirrors.publish (mirrors : Mirrors state network) {name topic msgType : String}
    {message : List UInt8} {cache : Bool}
    (stepped : state.step (.publish name topic msgType message cache) = some next) :
    ∃ after, network.step (.publish name topic msgType message cache) = some after ∧
      Mirrors next after := by
  let sent : Sent (List UInt8) := { number := state.published, message := message }
  let frame : Frame := { msgType := msgType, bytes := message }
  let publish : Publish := { node := name, topic := topic, frame := frame }
  have here := mirrors.peers name
  simp only [Delivery.step, Option.ite_none_left_eq_some] at stepped
  obtain ⟨handle, stepped⟩ := stepped
  have allowed : (topic, msgType) ∈ (network.nodes name).publishers := by
    rw [here.publishers]
    exact List.contains_iff_mem.mp (Bool.not_eq_false _ ▸ handle)
  have written : List.Forall₂ Writing.Mirrors (state.writing ++ [⟨name, topic, sent⟩])
      (network.publishing ++ [publish]) :=
    List.rel_append mirrors.writing (.cons ⟨rfl, rfl, rfl⟩ .nil)
  simp only [Network.step, if_pos allowed]
  cases cache with
  | false =>
      have free : ¬ state.Suppressed name topic message false := fun both => by cases both.1
      rw [if_neg free] at stepped
      cases stepped
      exact ⟨_, rfl, mirrors.peers, mirrors.sockets, written, mirrors.adding, mirrors.decoded⟩
  | true =>
      by_cases suppressed : state.Suppressed name topic message true
      · rw [if_pos suppressed] at stepped
        cases stepped
        have cached := (cached_iff here topic frame).mpr suppressed.2
        have same : network.setNode name (network.nodes name) = network := by
          rw [Network.setNode, Function.update_eq_self]
        refine ⟨network, ?_, mirrors.peers, mirrors.sockets, mirrors.writing, mirrors.adding,
          mirrors.decoded⟩
        rw [if_pos rfl, NodeHandler.writeToCache, if_pos cached]
        exact congrArg some same
      · rw [if_neg suppressed] at stepped
        cases stepped
        have carries : frame.Carries sent := rfl
        obtain ⟨inserted, latched⟩ :=
          latch_mirrors here topic carries fun held => suppressed ⟨rfl, held⟩
        rw [if_pos rfl, inserted]
        exact ⟨_, rfl, peers_update mirrors.peers name latched, mirrors.sockets, written,
          fun call member => decoders_update (fun topic => decoders_writeToCache _ _ _ topic)
            (mirrors.adding call member), mirrors.decoded⟩

theorem Mirrors.writeToSocket (mirrors : Mirrors state network) {index : Nat}
    {skipped : List Nat} (stepped : state.step (.writeToSocket index skipped) = some next) :
    ∃ after, network.step (.writeToSocket index skipped) = some after ∧ Mirrors next after := by
  simp only [Delivery.step] at stepped
  split at stepped
  · rename_i write located
    cases stepped
    obtain ⟨publish, found, same⟩ := related_getElem? mirrors.writing located
    simp only [Network.step, found, Option.map_some]
    exact ⟨_, rfl, mirrors.peers,
      related_mapIdx (fun position _ _ here => append_mirrors here same (skipped.contains position))
        mirrors.sockets,
      related_eraseIdx mirrors.writing index, mirrors.adding, mirrors.decoded⟩
  · cases stepped

/-- The callbacks of a decoder begin with the first. -/
theorem handle_first {node topic : String} {sent : Sent (List UInt8)}
    (positive : 0 < (state.peers node).functions topic) :
    ((state.handle node topic sent).filter fun call => call.callback = 0).map Call.publication =
      [sent.number] := by
  obtain ⟨more, count⟩ : ∃ more, (state.peers node).functions topic = more + 1 :=
    ⟨(state.peers node).functions topic - 1, by omega⟩
  rw [handle, count, List.range_succ_eq_map, List.map_cons, List.filter_cons_of_pos (by simp)]
  have others : (((List.range more).map Nat.succ).map fun callback =>
      (⟨node, topic, callback, sent.number⟩ : Call)).filter
        (fun call => call.callback = 0) = [] := by
    rw [List.filter_eq_nil_iff]
    intro call member
    obtain ⟨callback, numbered, rfl⟩ := List.mem_map.mp member
    obtain ⟨before, _, rfl⟩ := List.mem_map.mp numbered
    simp
  rw [others]
  rfl

theorem Mirrors.decode (mirrors : Mirrors state network) {index : Nat}
    (stepped : state.step (.decode index) = some next) :
    ∃ after, network.step (.decode index) = some after ∧ Mirrors next after := by
  simp only [Delivery.step] at stepped
  split at stepped
  · rename_i socket located
    split at stepped
    · rename_i sent rest waiting
      obtain ⟨⟨accepted, positive⟩, stepped⟩ := Option.ite_none_right_eq_some.mp stepped
      cases stepped
      obtain ⟨connection, found, same⟩ := mirrors.socket located
      have carried := same.frames
      rw [waiting] at carried
      obtain ⟨frame, frames, carries, onward, pending⟩ := List.forall₂_cons_left_iff.mp carried
      obtain ⟨decoder, decodes⟩ := Option.isSome_iff_exists.mp
        ((mirrors.peers socket.request.node).decoders socket.request.object positive)
      rw [← same.request] at decodes
      obtain ⟨given, held, numbers⟩ := mirrors.decoded
      have here : ({ socket with frames := rest } : Socket (List UInt8)).Mirrors
          { connection with frames := frames } := { same with frames := onward }
      have stage := mirrors.setSocket index here
      refine ⟨{ network.setConnection index { connection with frames := frames } with
        decoded := network.decoded ++ [(decoder.msgType, frame)] }, ?_, stage.peers, stage.sockets,
        stage.writing, stage.adding, given ++ [sent], List.rel_append held (.cons carries .nil), ?_⟩
      · simp only [Network.step, found, pending, decodes]
        rw [if_pos (same.accepted.trans accepted)]
      · rw [List.map_append, numbers, List.filter_append, List.map_append, handle_first positive]
        rfl
    · cases stepped
  · cases stepped

theorem Mirrors.step (mirrors : Mirrors state network) {action : DeliveryAction (List UInt8)}
    (stepped : state.step action = some next) :
    ∃ trace after, Network.machine.exec network trace = some after ∧ Mirrors next after := by
  have once {move : Action} (moved : ∃ after, network.step move = some after ∧ Mirrors next after) :
      ∃ trace after, Network.machine.exec network trace = some after ∧ Mirrors next after := by
    obtain ⟨after, stepped, same⟩ := moved
    exact ⟨[move], after, Network.machine.exec_of_step stepped, same⟩
  cases action with
  | advertise name topic msgType =>
      cases stepped
      have moved : network.step (.advertise name topic msgType) = some _ := rfl
      exact once ⟨_, moved, mirrors.advertise name topic msgType⟩
  | subscribe name topic msgType => exact mirrors.subscribe stepped
  | addCallback index => exact ⟨[], network, rfl, mirrors.addCallback stepped⟩
  | addClient name publisher => exact mirrors.addClient stepped
  | find index => exact once (mirrors.find stepped)
  | register index order =>
      obtain ⟨frames, moved⟩ := mirrors.register stepped
      exact once moved
  | accept index => exact once (mirrors.accept stepped)
  | close index => exact once (mirrors.close stepped)
  | publish name topic msgType message cache => exact once (mirrors.publish stepped)
  | writeToSocket index skipped => exact once (mirrors.writeToSocket stepped)
  | decode index => exact once (mirrors.decode stepped)

end Steps

/-- Deliveries of bytes are simulated by the network of frames. -/
def frameSimulation : Simulation (machine : Machine (Delivery (List UInt8)) _) Network.machine where
  related := Mirrors
  allowed := fun _ _ => True
  matched := fun mirrors _ stepped => mirrors.step stepped

theorem network_of_delivery {run : List (DeliveryAction (List UInt8))}
    {state : Delivery (List UInt8)} (executed : machine.exec initial run = some state) :
    ∃ trace network, Network.machine.exec .initial trace = some network ∧
      Mirrors state network :=
  frameSimulation.exec mirrors_initial (.of_forall (fun _ _ => trivial) _ _) executed

end Delivery

end ProtoCore.Routing
