import ProtoCore.Routing.TopicConnection

/-!
# Types of topics

As long as a node does not change the type of a topic it has sockets or cached frames
for, publishes only under the current type, and subscribes a topic under one type, every
frame meets a decoder of its own type. Nothing in the code ensures this after the check
of a connection.
-/

set_option autoImplicit false

namespace ProtoCore.Routing

open Library

theorem getTypeurl_inj {left right : String} :
    getTypeurl left = getTypeurl right ↔ left = right :=
  String.append_right_inj _

theorem publishedKey_inj {left right : String} :
    publishedKey left = publishedKey right ↔ left = right :=
  String.append_right_inj _

theorem publishedKey_ne_subscribedKey (left right : String) :
    publishedKey left ≠ subscribedKey right := by
  intro same
  have heads := congrArg String.toList same
  simp [publishedKey, subscribedKey] at heads

namespace NodeHandler

def published (node : NodeHandler) (topic : String) : Option String :=
  node.topics (publishedKey topic)

theorem published_advertise (node : NodeHandler) (topic other msgType : String) :
    (node.advertise topic msgType).published other =
      if other = topic then some (getTypeurl msgType) else node.published other := by
  simp only [published, advertise, Function.update_apply, publishedKey_inj]

theorem published_subscribe (node : NodeHandler) (name topic other msgType : String) :
    (node.subscribe name topic msgType).published other = node.published other := by
  simp only [published, subscribe]
  exact Function.update_of_ne (publishedKey_ne_subscribedKey other topic) _ _

theorem published_writeToCache (node : NodeHandler) (topic other : String) (frame : Frame) :
    (node.writeToCache topic frame).2.published other = node.published other := by
  unfold writeToCache
  split <;> rfl

theorem mem_writeToCache {node : NodeHandler} {topic other : String} {frame cached : Frame}
    (member : cached ∈ (node.writeToCache topic frame).2.staticTopicCache other) :
    cached ∈ node.staticTopicCache other ∨ other = topic ∧ cached = frame := by
  unfold writeToCache at member
  split at member
  · exact .inl member
  · simp only [Function.update_apply] at member
    split at member
    · rename_i same
      rcases List.mem_append.mp member with old | new
      · exact .inl (same ▸ old)
      · exact .inr ⟨same, List.mem_singleton.mp new⟩
    · exact .inl member

end NodeHandler

namespace Network

/-- Every frame was decoded by a decoder of the type it was serialised from, and every
callback takes the type of its decoder. -/
structure TypeSafe (network : Network) : Prop where
  decoded : ∀ msgType frame, (msgType, frame) ∈ network.decoded → frame.msgType = msgType
  callbacks : ∀ name topic decoder, (network.nodes name).decoders topic = some decoder →
    ∀ function ∈ decoder.functions, function = decoder.msgType

/-- `advertise` does not change the type of a topic the node has sockets or cached frames
for; a frame is cached under the current type of its topic, and written under it unless
there are no sockets; and `subscribe` names the type that the decoder of the topic has. -/
def TypesKept (network : Network) : Action → Prop
  | .advertise name topic msgType =>
      ∀ url ∈ (network.nodes name).published topic, url = getTypeurl msgType ∨
        (∀ connection ∈ network.connections, ¬ connection.On name topic) ∧
          (network.nodes name).staticTopicCache topic = []
  | .subscribe name topic msgType =>
      ∀ decoder ∈ (network.nodes name).decoders topic, decoder.msgType = msgType
  | .publish name topic msgType _ cache =>
      cache = true → (network.nodes name).published topic = some (getTypeurl msgType)
  | .writeToSocket index _ =>
      ∀ write ∈ network.publishing[index]?,
        (network.nodes write.node).published write.topic = some (getTypeurl write.frame.msgType) ∨
          ∀ connection ∈ network.connections, ¬ connection.On write.node write.topic
  | _ => True

instance (network : Network) (action : Action) : Decidable (network.TypesKept action) := by
  cases action <;> unfold TypesKept <;> infer_instance

/-! ## The invariant -/

/-- The subscriber of a request has a decoder of the type that it asked for. -/
def Requested (nodes : String → NodeHandler) (request : ConnectionRequest) : Prop :=
  ∃ decoder, (nodes request.node).decoders request.object = some decoder ∧
    getTypeurl decoder.msgType = request.url

structure Typed (network : Network) : Prop where
  safe : network.TypeSafe
  requested : ∀ name, ∀ request ∈ (network.nodes name).topicRequests,
    Requested network.nodes request
  connected : ∀ connection ∈ network.connections, Requested network.nodes connection.request
  live : ∀ connection ∈ network.connections, ∀ publisher topic, connection.On publisher topic →
    (network.nodes publisher).published topic = some connection.request.url
  framed : ∀ connection ∈ network.connections, ∀ frame ∈ connection.frames,
    getTypeurl frame.msgType = connection.request.url
  cached : ∀ name topic, ∀ frame ∈ (network.nodes name).staticTopicCache topic,
    (network.nodes name).published topic = some (getTypeurl frame.msgType)

theorem initial_typed : initial.Typed where
  safe := ⟨nofun, nofun⟩
  requested := nofun
  connected := nofun
  live := nofun
  framed := nofun
  cached := nofun

theorem Typed.setConnection {network : Network} (typed : network.Typed) (index : Nat)
    (connection : Connection) (connected : Requested network.nodes connection.request)
    (live : ∀ publisher topic, connection.On publisher topic →
      (network.nodes publisher).published topic = some connection.request.url)
    (framed : ∀ frame ∈ connection.frames, getTypeurl frame.msgType = connection.request.url) :
    (network.setConnection index connection).Typed where
  safe := ⟨typed.safe.decoded, typed.safe.callbacks⟩
  requested := typed.requested
  connected other member := by
    rcases List.mem_or_eq_of_mem_set member with old | rfl
    · exact typed.connected other old
    · exact connected
  live other member := by
    rcases List.mem_or_eq_of_mem_set member with old | rfl
    · exact typed.live other old
    · exact live
  framed other member := by
    rcases List.mem_or_eq_of_mem_set member with old | rfl
    · exact typed.framed other old
    · exact framed
  cached := typed.cached

/-- A step that changes one node: its decoders keep their types, and the types that
matter for its connections and its cache stay published. -/
theorem Typed.setNode {network : Network} (typed : network.Typed) (name : String)
    {node : NodeHandler}
    (callbacks : ∀ topic decoder, node.decoders topic = some decoder →
      ∀ function ∈ decoder.functions, function = decoder.msgType)
    (kept : ∀ topic decoder, (network.nodes name).decoders topic = some decoder →
      ∃ decoder', node.decoders topic = some decoder' ∧ decoder'.msgType = decoder.msgType)
    (requested : ∀ request ∈ node.topicRequests, Requested network.nodes request ∨
      Requested (Function.update network.nodes name node) request)
    (live : ∀ connection ∈ network.connections, ∀ topic, connection.On name topic →
      node.published topic = some connection.request.url)
    (cached : ∀ topic, ∀ frame ∈ node.staticTopicCache topic,
      node.published topic = some (getTypeurl frame.msgType)) :
    (network.setNode name node).Typed := by
  have still : ∀ request, Requested network.nodes request →
      Requested (Function.update network.nodes name node) request := by
    intro request ⟨decoder, located, url⟩
    by_cases same : request.node = name
    · rw [same] at located
      obtain ⟨decoder', located', type⟩ := kept _ _ located
      exact ⟨decoder', by rw [same, Function.update_self]; exact located', type ▸ url⟩
    · exact ⟨decoder, by rw [Function.update_of_ne same]; exact located, url⟩
  refine ⟨⟨typed.safe.decoded, fun other topic decoder located => ?_⟩,
    fun other request member => ?_,
    fun connection member => still _ (typed.connected connection member),
    fun connection member publisher topic on => ?_, typed.framed, fun other topic frame member => ?_⟩
  · by_cases same : other = name
    · subst same
      exact callbacks topic decoder (by simpa [Network.setNode] using located)
    · exact typed.safe.callbacks other topic decoder
        (by simpa [Network.setNode, Function.update_of_ne same] using located)
  · by_cases same : other = name
    · subst same
      exact (requested request (by simpa [Network.setNode] using member)).elim (still request) id
    · exact still request (typed.requested other request
        (by simpa [Network.setNode, Function.update_of_ne same] using member))
  · by_cases same : publisher = name
    · subst same
      simpa [Network.setNode] using live connection member topic on
    · simpa [Network.setNode, Function.update_of_ne same] using
        typed.live connection member publisher topic on
  · by_cases same : other = name
    · subst same
      simp only [Network.setNode, Function.update_self] at member ⊢
      exact cached topic frame member
    · simp only [Network.setNode, Function.update_of_ne same] at member ⊢
      exact typed.cached other topic frame member

theorem Typed.advertise {network : Network} (typed : network.Typed) {name topic msgType : String}
    (kept : network.TypesKept (.advertise name topic msgType)) :
    (network.setNode name ((network.nodes name).advertise topic msgType)).Typed := by
  refine typed.setNode name (typed.safe.callbacks name)
    (fun other decoder located => ⟨decoder, located, rfl⟩)
    (fun request member => .inl (typed.requested name request member))
    (fun connection member other on => ?_) (fun other frame member => ?_)
  · have published := typed.live connection member name other on
    rw [NodeHandler.published_advertise]
    split
    · rename_i same
      subst same
      rcases kept _ published with url | ⟨unconnected, _⟩
      · rw [url]
      · exact absurd on (unconnected connection member)
    · exact published
  · have published := typed.cached name other frame member
    rw [NodeHandler.published_advertise]
    split
    · rename_i same
      subst same
      rcases kept _ published with url | ⟨_, uncached⟩
      · rw [url]
      · have cached : frame ∈ (network.nodes name).staticTopicCache other := member
        rw [uncached] at cached
        cases cached
    · exact published

theorem Typed.subscribe {network : Network} (typed : network.Typed) {name topic msgType : String}
    (kept : network.TypesKept (.subscribe name topic msgType)) :
    (network.setNode name ((network.nodes name).subscribe name topic msgType)).Typed := by
  have decoders : ∃ decoder, ((network.nodes name).subscribe name topic msgType).decoders =
      Function.update (network.nodes name).decoders topic (some decoder) ∧
      decoder.msgType = msgType ∧ ∀ function ∈ decoder.functions, function = msgType := by
    refine ⟨_, rfl, ?_, ?_⟩
    · cases located : (network.nodes name).decoders topic with
      | none => rfl
      | some decoder => exact kept decoder located
    · intro function member
      rcases List.mem_append.mp member with old | new
      · cases located : (network.nodes name).decoders topic with
        | none =>
            rw [located] at old
            cases old
        | some decoder =>
            rw [located] at old
            rw [typed.safe.callbacks name topic decoder located function old]
            exact kept decoder located
      · exact List.mem_singleton.mp new
  obtain ⟨decoder, updated, type, functions⟩ := decoders
  have keeps : ∀ other decoder', (network.nodes name).decoders other = some decoder' →
      ∃ decoder'', ((network.nodes name).subscribe name topic msgType).decoders other =
        some decoder'' ∧ decoder''.msgType = decoder'.msgType := by
    intro other decoder' located
    rw [updated]
    by_cases same : other = topic
    · subst same
      exact ⟨decoder, Function.update_self .., type.trans (kept decoder' located).symm⟩
    · exact ⟨decoder', by rw [Function.update_of_ne same]; exact located, rfl⟩
  refine typed.setNode name (fun other decoder' located => ?_) keeps (fun request member => ?_)
    (fun connection member other on => ?_) (fun other frame member => ?_)
  · rw [updated] at located
    by_cases same : other = topic
    · subst same
      rw [Function.update_self] at located
      cases located
      exact type ▸ functions
    · rw [Function.update_of_ne same] at located
      exact typed.safe.callbacks name other decoder' located
  · rcases List.mem_append.mp member with old | new
    · exact .inl (typed.requested name request old)
    · rw [List.mem_singleton.mp new]
      refine .inr ⟨decoder, ?_, by rw [type]⟩
      rw [Function.update_self, updated, Function.update_self]
  · rw [NodeHandler.published_subscribe]
    exact typed.live connection member name other on
  · rw [NodeHandler.published_subscribe]
    exact typed.cached name other frame member

theorem Typed.writeToCache {network : Network} (typed : network.Typed) {name topic : String}
    (frame : Frame)
    (current : (network.nodes name).published topic = some (getTypeurl frame.msgType)) :
    (network.setNode name ((network.nodes name).writeToCache topic frame).2).Typed := by
  have decoders : ((network.nodes name).writeToCache topic frame).2.decoders =
      (network.nodes name).decoders := by
    unfold NodeHandler.writeToCache
    split <;> rfl
  have requests : ((network.nodes name).writeToCache topic frame).2.topicRequests =
      (network.nodes name).topicRequests := by
    unfold NodeHandler.writeToCache
    split <;> rfl
  refine typed.setNode name (fun other decoder located => ?_)
    (fun other decoder located => ⟨decoder, decoders ▸ located, rfl⟩)
    (fun request member => .inl (typed.requested name request (requests ▸ member)))
    (fun connection member other on => ?_) (fun other cached member => ?_)
  · rw [decoders] at located
    exact typed.safe.callbacks name other decoder located
  · rw [NodeHandler.published_writeToCache]
    exact typed.live connection member name other on
  · rw [NodeHandler.published_writeToCache]
    rcases NodeHandler.mem_writeToCache member with old | ⟨rfl, rfl⟩
    · exact typed.cached name other cached old
    · exact current

theorem Typed.withPublishing {network : Network} (typed : network.Typed)
    (publishing : List Publish) : ({ network with publishing := publishing } : Network).Typed :=
  ⟨⟨typed.safe.decoded, typed.safe.callbacks⟩, typed.requested, typed.connected, typed.live,
    typed.framed, typed.cached⟩

/-- The frames of a write go to sockets of the topic, which have its type. -/
theorem Typed.writeToSocket {network : Network} (typed : network.Typed) {write : Publish}
    (current : ∀ connection ∈ network.connections, connection.On write.node write.topic →
      getTypeurl write.frame.msgType = connection.request.url) (skipped : Nat → Bool) :
    ({ network with
      connections := network.connections.mapIdx fun position connection =>
        connection.append write (skipped position) } : Network).Typed := by
  have mapped : ∀ connection ∈ network.connections.mapIdx (fun position connection =>
      connection.append write (skipped position)), ∃ before ∈ network.connections,
        connection.publisher = before.publisher ∧ connection.request = before.request ∧
        connection.stage = before.stage ∧ ∀ frame ∈ connection.frames,
          frame ∈ before.frames ∨ frame = write.frame ∧ before.On write.node write.topic := by
    intro connection member
    obtain ⟨position, inside, rfl⟩ := List.mem_mapIdx.mp member
    refine ⟨_, List.getElem_mem inside, ?_⟩
    unfold Connection.append
    split
    · rename_i reached
      refine ⟨rfl, rfl, rfl, fun frame member => ?_⟩
      rcases List.mem_append.mp member with old | new
      · exact .inl old
      · exact .inr ⟨List.mem_singleton.mp new, reached.1, reached.2.1, .inr reached.2.2.1⟩
    · exact ⟨rfl, rfl, rfl, fun frame member => .inl member⟩
  refine ⟨⟨typed.safe.decoded, typed.safe.callbacks⟩, typed.requested, ?_, ?_, ?_, typed.cached⟩
  · intro connection member
    obtain ⟨before, old, _, request, _⟩ := mapped connection member
    exact request ▸ typed.connected before old
  · intro connection member publisher topic on
    obtain ⟨before, old, samePublisher, request, stage, _⟩ := mapped connection member
    rw [request]
    refine typed.live before old publisher topic ?_
    rw [Connection.On, samePublisher, request, stage] at on
    exact on
  · intro connection member frame carried
    obtain ⟨before, old, _, request, _, frames⟩ := mapped connection member
    rw [request]
    rcases frames frame carried with earlier | ⟨rfl, on⟩
    · exact typed.framed before old frame earlier
    · exact current before old on

theorem Typed.topicConnection {network next : Network} (typed : network.Typed)
    {publisher subscriber : String} {request : Nat}
    (stepped : network.step (.topicConnection publisher subscriber request) = some next) :
    next.Typed := by
  obtain ⟨request, found, rfl⟩ := Option.map_eq_some_iff.mp stepped
  have requested := typed.requested subscriber request (List.mem_of_getElem? found)
  refine ⟨⟨typed.safe.decoded, typed.safe.callbacks⟩, typed.requested, ?_, ?_, ?_, typed.cached⟩
  · intro connection member
    rcases List.mem_append.mp member with old | new
    · exact typed.connected connection old
    · rw [List.mem_singleton.mp new]
      exact requested
  · intro connection member publisher topic on
    rcases List.mem_append.mp member with old | new
    · exact typed.live connection old publisher topic on
    · rw [List.mem_singleton.mp new] at on
      rcases on.2.2 with stage | stage <;> cases stage
  · intro connection member frame carried
    rcases List.mem_append.mp member with old | new
    · exact typed.framed connection old frame carried
    · rw [List.mem_singleton.mp new] at carried
      cases carried

/-- The check of a connection finds the type of the request published. -/
theorem Typed.find {network next : Network} (typed : network.Typed) {index : Nat}
    (stepped : network.step (.find index) = some next) : next.Typed := by
  simp only [Network.step] at stepped
  split at stepped
  · cases stepped
  · rename_i connection located
    have member := List.mem_of_getElem? located
    split at stepped
    · rename_i enabled
      cases stepped
      refine typed.setConnection index _ (typed.connected connection member) ?_
        (typed.framed connection member)
      intro publisher topic on
      obtain ⟨rfl, rfl, _⟩ := on
      exact of_decide_eq_true enabled.2
    · cases stepped

/-- The cache that a new socket starts with has the type that is published. -/
theorem Typed.register {network next : Network} (typed : network.Typed) {index : Nat}
    {order : List Frame} (stepped : network.step (.register index order) = some next) :
    next.Typed := by
  simp only [Network.step] at stepped
  split at stepped
  · cases stepped
  · rename_i connection located
    have member := List.mem_of_getElem? located
    split at stepped
    · rename_i enabled
      have live := typed.live connection member connection.publisher connection.request.object
        ⟨rfl, rfl, .inl enabled.1⟩
      cases stepped
      refine typed.setConnection index _ (typed.connected connection member) ?_
        fun frame queued => ?_
      · intro publisher topic on
        obtain ⟨rfl, rfl, _⟩ := on
        exact live
      · have cached := typed.cached _ _ frame (enabled.2.mem_iff.mp queued)
        exact Option.some.inj (cached.symm.trans live)
    · cases stepped

theorem Typed.close {network next : Network} (typed : network.Typed) {index : Nat}
    (stepped : network.step (.close index) = some next) : next.Typed := by
  obtain ⟨connection, located, rfl⟩ := Option.map_eq_some_iff.mp stepped
  have member := List.mem_of_getElem? located
  refine typed.setConnection index _ (typed.connected connection member) ?_
    (typed.framed connection member)
  intro publisher topic on
  rcases on with ⟨_, _, stage | stage⟩ <;> cases stage

theorem Typed.accept {network next : Network} (typed : network.Typed) {index : Nat}
    (stepped : network.step (.accept index) = some next) : next.Typed := by
  simp only [Network.step] at stepped
  split at stepped
  · cases stepped
  · rename_i connection located
    have member := List.mem_of_getElem? located
    split at stepped
    · cases stepped
      exact typed.setConnection index _ (typed.connected connection member)
        (typed.live connection member) (typed.framed connection member)
    · cases stepped

theorem Typed.publish {network next : Network} (typed : network.Typed)
    {name topic msgType : String} {bytes : List UInt8} {cache : Bool}
    (kept : network.TypesKept (.publish name topic msgType bytes cache))
    (stepped : network.step (.publish name topic msgType bytes cache) = some next) :
    next.Typed := by
  simp only [Network.step] at stepped
  split at stepped
  · cases cache with
    | false =>
        cases stepped
        exact typed.withPublishing _
    | true =>
        have written := typed.writeToCache ⟨msgType, bytes⟩ (kept rfl)
        cases stepped
        split
        · exact written.withPublishing _
        · exact written
  · cases stepped

/-- A frame has the type of its connection, which is that of the decoder it meets. -/
theorem Typed.decode {network next : Network} (typed : network.Typed) {index : Nat}
    (stepped : network.step (.decode index) = some next) : next.Typed := by
  simp only [Network.step] at stepped
  split at stepped
  · cases stepped
  · rename_i connection located
    have member := List.mem_of_getElem? located
    split at stepped
    · rename_i frame rest decoder carried decoding
      split at stepped
      · obtain ⟨decoder', decoding', url⟩ := typed.connected connection member
        obtain rfl := Option.some.inj (decoding.symm.trans decoding')
        have framed := typed.framed connection member
        rw [carried] at framed
        have type := framed frame List.mem_cons_self
        have rested := typed.setConnection index { connection with frames := rest }
          (typed.connected connection member) (typed.live connection member)
          (fun other later => framed other (List.mem_cons_of_mem _ later))
        cases stepped
        refine ⟨⟨fun msgType frame' decoded => ?_, typed.safe.callbacks⟩, rested.requested,
          rested.connected, rested.live, rested.framed, rested.cached⟩
        rcases List.mem_append.mp decoded with old | new
        · exact typed.safe.decoded msgType frame' old
        · cases List.mem_singleton.mp new
          exact getTypeurl_inj.mp (type.trans url.symm)
      · cases stepped
    · cases stepped

theorem Typed.step {network next : Network} {action : Action} (typed : network.Typed)
    (kept : network.TypesKept action) (stepped : network.step action = some next) :
    next.Typed := by
  cases action with
  | advertise name topic msgType =>
      cases stepped
      exact typed.advertise kept
  | subscribe name topic msgType =>
      cases stepped
      exact typed.subscribe kept
  | topicConnection publisher subscriber request => exact typed.topicConnection stepped
  | find index => exact typed.find stepped
  | register index order => exact typed.register stepped
  | close index => exact typed.close stepped
  | accept index => exact typed.accept stepped
  | publish name topic msgType bytes cache => exact typed.publish kept stepped
  | writeToSocket index skipped =>
      obtain ⟨write, found, rfl⟩ := Option.map_eq_some_iff.mp stepped
      have current : ∀ connection ∈ network.connections, connection.On write.node write.topic →
          getTypeurl write.frame.msgType = connection.request.url := by
        intro connection member on
        rcases kept write found with published | unconnected
        · exact Option.some.inj (published.symm.trans (typed.live connection member _ _ on))
        · exact absurd on (unconnected connection member)
      exact (typed.writeToSocket current fun position => skipped.contains position).withPublishing _
  | decode index => exact typed.decode stepped

/-- In every run that keeps the types of its topics, every frame meets a decoder and
callbacks of its own type. -/
theorem typeSafe_of_typesKept (run : List Action) (kept : machine.Obeys TypesKept initial run) :
    machine.Along TypeSafe initial run :=
  (machine.along_of_obeys (fun _ _ _ typed kept stepped => typed.step kept stepped)
    initial_typed kept).mono fun _ typed => typed.safe

def connectPictures : List Action :=
  [.advertise "camera" "view" "Picture", .subscribe "screen" "view" "Picture",
    .topicConnection "camera" "screen" 0, .find 0, .register 0 [], .accept 0]

theorem typeSafe_of_typesKept_pictures :
    machine.Along TypeSafe initial (connectPictures ++
      [.publish "camera" "view" "Picture" [8, 1] true, .writeToSocket 0 [], .decode 0]) :=
  typeSafe_of_typesKept _ (by decide +kernel)

/-- The same topic is then advertised for depth maps, and one is published. -/
def depthOnPictures : List Action :=
  connectPictures ++ [.advertise "camera" "view" "Depth",
    .publish "camera" "view" "Depth" [8, 1] false, .writeToSocket 0 [], .decode 0]

theorem depthOnPictures_not_typeSafe : ¬ machine.Along TypeSafe initial depthOnPictures := by
  intro along
  have evaluated : (machine.exec initial depthOnPictures).map (fun network => network.decoded) =
      some [("Picture", ⟨"Depth", [8, 1]⟩)] := by decide +kernel
  obtain ⟨final, executed, decoded⟩ := Option.map_eq_some_iff.mp evaluated
  have same := (along.final executed).decoded "Picture" ⟨"Depth", [8, 1]⟩ (by rw [decoded]; simp)
  simp at same

end Network

end ProtoCore.Routing
