import Mathlib.Data.List.Nodup
import Mathlib.Data.List.Perm.Basic
import ProtoCore.Routing.TopicConnection

/-!
# Delivery to callbacks

Each call of `subscribe` pulls a request of its own to every publisher, and so makes a
connection of its own; but the callbacks for a topic share one decoder, which calls them
all for each message of each connection.
-/

set_option autoImplicit false

namespace ProtoCore.Routing

open Library

variable {Message : Type}

/-- A message with the number of its publication. -/
structure Sent (Message : Type) where
  number : Nat
  message : Message
  deriving DecidableEq

/-- What a node keeps about its topics, the publishers it has been told of, and the number
of callbacks in the decoder of a topic. -/
structure Peer (Message : Type) where
  topics : String → Option String
  publishers : List (String × String)
  staticTopicCache : String → List (Sent Message)
  topicRequests : List ConnectionRequest
  clients : List String
  functions : String → Nat

namespace Peer

def new : Peer Message where
  topics _ := none
  publishers := []
  staticTopicCache _ := []
  topicRequests := []
  clients := []
  functions _ := 0

def advertise (peer : Peer Message) (topic msgType : String) : Peer Message :=
  { peer with
    topics := Function.update peer.topics (publishedKey topic) (some (getTypeurl msgType))
    publishers := peer.publishers ++ [(topic, msgType)] }

theorem topicRequests_advertise (peer : Peer Message) (topic msgType : String) :
    (peer.advertise topic msgType).topicRequests = peer.topicRequests := rfl

theorem staticTopicCache_advertise (peer : Peer Message) (topic msgType : String) :
    (peer.advertise topic msgType).staticTopicCache = peer.staticTopicCache := rfl

theorem clients_advertise (peer : Peer Message) (topic msgType : String) :
    (peer.advertise topic msgType).clients = peer.clients := rfl

def findWaitPublishedTopic (peer : Peer Message) (topic url : String) : Bool :=
  peer.topics (publishedKey topic) = some url

def request (peer : Peer Message) (request : ConnectionRequest) : Peer Message :=
  { peer with topicRequests := peer.topicRequests ++ [request] }

theorem staticTopicCache_request (peer : Peer Message) (asked : ConnectionRequest) :
    (peer.request asked).staticTopicCache = peer.staticTopicCache := rfl

theorem clients_request (peer : Peer Message) (asked : ConnectionRequest) :
    (peer.request asked).clients = peer.clients := rfl

theorem functions_request (peer : Peer Message) (asked : ConnectionRequest) :
    (peer.request asked).functions = peer.functions := rfl

def addCallback (peer : Peer Message) (topic : String) : Peer Message :=
  { peer with functions := Function.update peer.functions topic (peer.functions topic + 1) }

theorem staticTopicCache_addCallback (peer : Peer Message) (topic : String) :
    (peer.addCallback topic).staticTopicCache = peer.staticTopicCache := rfl

theorem clients_addCallback (peer : Peer Message) (topic : String) :
    (peer.addCallback topic).clients = peer.clients := rfl

theorem topicRequests_addCallback (peer : Peer Message) (topic : String) :
    (peer.addCallback topic).topicRequests = peer.topicRequests := rfl

theorem functions_addCallback (peer : Peer Message) (topic other : String) :
    (peer.addCallback topic).functions other =
      peer.functions other + if other = topic then 1 else 0 := by
  change Function.update peer.functions topic (peer.functions topic + 1) other = _
  by_cases same : other = topic
  · rw [same, Function.update_self, if_pos rfl]
  · rw [Function.update_of_ne same, if_neg same, Nat.add_zero]

def addClient (peer : Peer Message) (publisher : String) : Peer Message :=
  { peer with clients := peer.clients ++ [publisher] }

theorem staticTopicCache_addClient (peer : Peer Message) (publisher : String) :
    (peer.addClient publisher).staticTopicCache = peer.staticTopicCache := rfl

theorem functions_addClient (peer : Peer Message) (publisher : String) :
    (peer.addClient publisher).functions = peer.functions := rfl

theorem topicRequests_addClient (peer : Peer Message) (publisher : String) :
    (peer.addClient publisher).topicRequests = peer.topicRequests := rfl

def latch (peer : Peer Message) (topic : String) (sent : Sent Message) : Peer Message :=
  { peer with staticTopicCache :=
      Function.update peer.staticTopicCache topic (peer.staticTopicCache topic ++ [sent]) }

theorem mem_latch {peer : Peer Message} {topic other : String} {sent held : Sent Message}
    (cached : held ∈ (peer.latch topic sent).staticTopicCache other) :
    held ∈ peer.staticTopicCache other ∨ other = topic ∧ held = sent := by
  change held ∈ Function.update peer.staticTopicCache topic _ other at cached
  by_cases same : other = topic
  · rw [same, Function.update_self] at cached
    rcases List.mem_append.mp cached with old | new
    · exact .inl (same ▸ old)
    · exact .inr ⟨same, List.mem_singleton.mp new⟩
  · rw [Function.update_of_ne same] at cached
    exact .inl cached

theorem clients_latch (peer : Peer Message) (topic : String) (sent : Sent Message) :
    (peer.latch topic sent).clients = peer.clients := rfl

theorem topicRequests_latch (peer : Peer Message) (topic : String) (sent : Sent Message) :
    (peer.latch topic sent).topicRequests = peer.topicRequests := rfl

end Peer

/-- A call of `TopicConnection` and its socket, with the messages written to it, or kept
for it, and not yet decoded. -/
structure Socket (Message : Type) where
  publisher : String
  request : ConnectionRequest
  stage : Stage
  accepted : Bool
  frames : List (Sent Message)
  deriving DecidableEq

namespace Socket

def pull (publisher : String) (request : ConnectionRequest) : Socket Message where
  publisher := publisher
  request := request
  stage := .waiting
  accepted := false
  frames := []

def Joins (socket : Socket Message) (publisher node topic : String) : Prop :=
  socket.publisher = publisher ∧ socket.request.node = node ∧ socket.request.object = topic

instance (socket : Socket Message) (publisher node topic : String) :
    Decidable (socket.Joins publisher node topic) :=
  inferInstanceAs (Decidable (_ ∧ _ ∧ _))

/-- `write_to_socket` on one socket, which is skipped over its limit or after a failure. -/
def append (socket : Socket Message) (node topic : String) (sent : Sent Message)
    (skipped : Bool) : Socket Message :=
  if socket.publisher = node ∧ socket.request.object = topic ∧ socket.stage = .registered ∧
      skipped = false then
    { socket with frames := socket.frames ++ [sent] }
  else socket

end Socket

/-- A `publish` call before its write to the sockets. -/
structure Writing (Message : Type) where
  node : String
  topic : String
  sent : Sent Message
  deriving DecidableEq

/-- A call of a callback, by its place in the decoder, with a publication. -/
structure Call where
  node : String
  topic : String
  callback : Nat
  publication : Nat
  deriving DecidableEq

/-- The nodes, the sockets, the `subscribe` calls that have not added their callback yet,
the `publish` calls in progress, and records of the publications and of the callbacks' calls. -/
structure Delivery (Message : Type) where
  peers : String → Peer Message
  sockets : List (Socket Message)
  adding : List (String × String)
  writing : List (Writing Message)
  published : Nat
  calls : List Call

inductive DeliveryAction (Message : Type) where
  | advertise (node topic msgType : String)
  | subscribe (node topic msgType : String)
  | addCallback (index : Nat)
  | addClient (node publisher : String)
  | find (socket : Nat)
  | register (socket : Nat) (order : List (Sent Message))
  | accept (socket : Nat)
  | close (socket : Nat)
  | publish (node topic msgType : String) (message : Message) (cache : Bool)
  | writeToSocket (index : Nat) (skipped : List Nat)
  | decode (socket : Nat)
  deriving DecidableEq

def DeliveryAction.subscribes (node topic : String) : DeliveryAction Message → Bool
  | .subscribe name other _ => name = node ∧ other = topic
  | _ => false

namespace Delivery

def initial : Delivery Message where
  peers _ := .new
  sockets := []
  adding := []
  writing := []
  published := 0
  calls := []

def setPeer (state : Delivery Message) (name : String) (peer : Peer Message) : Delivery Message :=
  { state with peers := Function.update state.peers name peer }

def setSocket (state : Delivery Message) (index : Nat) (socket : Socket Message) :
    Delivery Message :=
  { state with sockets := state.sockets.set index socket }

/-- A message that the topic has latched before is not written again. -/
def Suppressed [DecidableEq Message] (state : Delivery Message) (name topic : String)
    (message : Message) (cache : Bool) : Prop :=
  cache = true ∧ ∃ sent ∈ (state.peers name).staticTopicCache topic, sent.message = message

instance [DecidableEq Message] (state : Delivery Message) (name topic : String)
    (message : Message) (cache : Bool) : Decidable (state.Suppressed name topic message cache) :=
  inferInstanceAs (Decidable (_ ∧ ∃ sent ∈ (state.peers name).staticTopicCache topic, _))

/-- `handle` calls every function of the decoder for the message. -/
def handle (state : Delivery Message) (node topic : String) (sent : Sent Message) : List Call :=
  (List.range ((state.peers node).functions topic)).map fun callback =>
    ⟨node, topic, callback, sent.number⟩

def step [DecidableEq Message] (state : Delivery Message) :
    DeliveryAction Message → Option (Delivery Message)
  | .advertise name topic msgType =>
      some (state.setPeer name ((state.peers name).advertise topic msgType))
  | .subscribe name topic msgType =>
      let request : ConnectionRequest :=
        { object := topic, url := getTypeurl msgType, node := name }
      some { state.setPeer name ((state.peers name).request request) with
        sockets := state.sockets ++
          (state.peers name).clients.map fun publisher => .pull publisher request
        adding := state.adding ++ [(name, topic)] }
  | .addCallback index =>
      match state.adding[index]? with
      | some (name, topic) =>
          some { state.setPeer name ((state.peers name).addCallback topic) with
            adding := state.adding.eraseIdx index }
      | none => none
  | .addClient name publisher =>
      if publisher ∈ (state.peers name).clients then none
      else some { state.setPeer name ((state.peers name).addClient publisher) with
        sockets := state.sockets ++
          (state.peers name).topicRequests.map fun request => .pull publisher request }
  | .find index =>
      match state.sockets[index]? with
      | some socket =>
          if socket.stage = .waiting ∧ (state.peers socket.publisher).findWaitPublishedTopic
              socket.request.object socket.request.url = true then
            some (state.setSocket index { socket with stage := .found })
          else none
      | none => none
  | .register index order =>
      match state.sockets[index]? with
      | some socket =>
          if socket.stage = .found ∧ order.Perm
              ((state.peers socket.publisher).staticTopicCache socket.request.object) then
            some (state.setSocket index { socket with stage := .registered, frames := order })
          else none
      | none => none
  | .accept index =>
      match state.sockets[index]? with
      | some socket =>
          if socket.stage = .registered ∨ socket.stage = .closed then
            some (state.setSocket index { socket with accepted := true })
          else none
      | none => none
  | .close index =>
      match state.sockets[index]? with
      | some socket => some (state.setSocket index { socket with stage := .closed })
      | none => none
  | .publish name topic msgType message cache =>
      let sent : Sent Message := { number := state.published, message := message }
      if (state.peers name).publishers.contains (topic, msgType) = false then none
      else if state.Suppressed name topic message cache then
        some { state with published := state.published + 1 }
      else some { (if cache then state.setPeer name ((state.peers name).latch topic sent)
          else state) with
        writing := state.writing ++ [⟨name, topic, sent⟩]
        published := state.published + 1 }
  | .writeToSocket index skipped =>
      match state.writing[index]? with
      | some write =>
          some { state with
            sockets := state.sockets.mapIdx fun position socket =>
              socket.append write.node write.topic write.sent (skipped.contains position)
            writing := state.writing.eraseIdx index }
      | none => none
  | .decode index =>
      match state.sockets[index]? with
      | some socket =>
          match socket.frames with
          | sent :: rest =>
              if socket.accepted = true ∧
                  0 < (state.peers socket.request.node).functions socket.request.object then
                some { state.setSocket index { socket with frames := rest } with
                  calls := state.calls ++
                    state.handle socket.request.node socket.request.object sent }
              else none
          | [] => none
      | none => none

def machine [DecidableEq Message] : Machine (Delivery Message) (DeliveryAction Message) := ⟨step⟩

/-- What one step does, with the sockets and the `publish` calls up to their order. -/
inductive Change [DecidableEq Message] (state : Delivery Message) (action : DeliveryAction Message)
    (next : Delivery Message) : Prop where
  | advertised (name topic msgType : String) (acting : action = .advertise name topic msgType)
      (result : next = state.setPeer name ((state.peers name).advertise topic msgType))
  | subscribed (name topic msgType : String) (request : ConnectionRequest)
      (acting : action = .subscribe name topic msgType) (object : request.object = topic)
      (node : request.node = name)
      (result : next = { state.setPeer name ((state.peers name).request request) with
        sockets := state.sockets ++
          (state.peers name).clients.map fun publisher => .pull publisher request
        adding := state.adding ++ [(name, topic)] })
  | added (name topic : String) (others : List (String × String))
      (acting : ∃ index, action = .addCallback index)
      (pending : state.adding.Perm ((name, topic) :: others))
      (result : next = { state.setPeer name ((state.peers name).addCallback topic) with
        adding := others })
  | discovered (name publisher : String) (acting : action = .addClient name publisher)
      (new : publisher ∉ (state.peers name).clients)
      (result : next = { state.setPeer name ((state.peers name).addClient publisher) with
        sockets := state.sockets ++
          (state.peers name).topicRequests.map fun request => .pull publisher request })
  | moved (socket after : Socket Message) (others sockets : List (Socket Message))
      (acting : ∀ name topic, action.subscribes name topic = false)
      (before : state.sockets.Perm (socket :: others)) (changed : sockets.Perm (after :: others))
      (publisher : after.publisher = socket.publisher) (request : after.request = socket.request)
      (frames : after.frames = socket.frames ∨ socket.stage = .found ∧
        after.frames.Perm
          ((state.peers socket.publisher).staticTopicCache socket.request.object))
      (kept : socket.stage = .registered → socket.accepted = true →
        (after.stage = .registered ∧ after.accepted = true) ∨
          ∃ index, action = .close index ∧ state.sockets[index]? = some socket)
      (result : next = { state with sockets := sockets })
  | suppressed (name topic msgType : String) (message : Message) (cache : Bool)
      (acting : action = .publish name topic msgType message cache)
      (latched : state.Suppressed name topic message cache)
      (result : next = { state with published := state.published + 1 })
  | published (name topic msgType : String) (message : Message) (cache : Bool)
      (acting : action = .publish name topic msgType message cache)
      (new : ¬ state.Suppressed name topic message cache)
      (result : next = { (if cache then
          state.setPeer name ((state.peers name).latch topic ⟨state.published, message⟩)
          else state) with
        writing := state.writing ++ [⟨name, topic, ⟨state.published, message⟩⟩]
        published := state.published + 1 })
  | written (index : Nat) (skipped : List Nat) (write : Writing Message)
      (others : List (Writing Message)) (acting : action = .writeToSocket index skipped)
      (located : state.writing[index]? = some write)
      (calls : state.writing.Perm (write :: others))
      (result : next = { state with
        sockets := state.sockets.mapIdx fun position socket =>
          socket.append write.node write.topic write.sent (skipped.contains position)
        writing := others })
  | decoded (socket : Socket Message) (sent : Sent Message) (rest : List (Sent Message))
      (others sockets : List (Socket Message))
      (acting : ∀ name topic, action.subscribes name topic = false)
      (frames : socket.frames = sent :: rest)
      (before : state.sockets.Perm (socket :: others))
      (changed : sockets.Perm ({ socket with frames := rest } :: others))
      (result : next = { state with
        sockets := sockets
        calls := state.calls ++ state.handle socket.request.node socket.request.object sent })

theorem step_change [DecidableEq Message] {state next : Delivery Message}
    {action : DeliveryAction Message} (stepped : state.step action = some next) :
    Change state action next := by
  cases action with
  | advertise name topic msgType =>
      cases stepped
      exact .advertised name topic msgType rfl rfl
  | subscribe name topic msgType =>
      cases stepped
      exact .subscribed name topic msgType _ rfl rfl rfl rfl
  | addCallback index =>
      simp only [step] at stepped
      split at stepped
      · rename_i name topic located
        cases stepped
        exact .added name topic _ ⟨index, rfl⟩ (perm_eraseIdx located) rfl
      · cases stepped
  | addClient name publisher =>
      simp only [step] at stepped
      split at stepped
      · cases stepped
      · rename_i new
        cases stepped
        exact .discovered name publisher rfl new rfl
  | find index =>
      simp only [step] at stepped
      split at stepped
      · rename_i socket located
        split at stepped
        · rename_i enabled
          cases stepped
          exact .moved socket { socket with stage := .found } _ _ (fun _ _ => rfl)
            (perm_eraseIdx located) (perm_set located _) rfl rfl (.inl rfl)
            (fun registered => by cases enabled.1.symm.trans registered) rfl
        · cases stepped
      · cases stepped
  | register index order =>
      simp only [step] at stepped
      split at stepped
      · rename_i socket located
        split at stepped
        · rename_i enabled
          cases stepped
          exact .moved socket { socket with stage := .registered, frames := order } _ _
            (fun _ _ => rfl) (perm_eraseIdx located) (perm_set located _) rfl rfl (.inr enabled)
            (fun registered => by cases enabled.1.symm.trans registered) rfl
        · cases stepped
      · cases stepped
  | accept index =>
      simp only [step] at stepped
      split at stepped
      · rename_i socket located
        split at stepped
        · cases stepped
          exact .moved socket { socket with accepted := true } _ _ (fun _ _ => rfl)
            (perm_eraseIdx located) (perm_set located _) rfl rfl (.inl rfl)
            (fun registered _ => .inl ⟨registered, rfl⟩) rfl
        · cases stepped
      · cases stepped
  | close index =>
      simp only [step] at stepped
      split at stepped
      · rename_i socket located
        cases stepped
        exact .moved socket { socket with stage := .closed } _ _ (fun _ _ => rfl)
          (perm_eraseIdx located) (perm_set located _) rfl rfl (.inl rfl)
          (fun _ _ => .inr ⟨index, rfl, located⟩) rfl
      · cases stepped
  | publish name topic msgType message cache =>
      simp only [step] at stepped
      split at stepped
      · cases stepped
      · split at stepped
        · rename_i latched
          cases stepped
          exact .suppressed name topic msgType message cache rfl latched rfl
        · rename_i new
          cases stepped
          exact .published name topic msgType message cache rfl new rfl
  | writeToSocket index skipped =>
      simp only [step] at stepped
      split at stepped
      · rename_i write located
        cases stepped
        exact .written index skipped write _ rfl located (perm_eraseIdx located) rfl
      · cases stepped
  | decode index =>
      simp only [step] at stepped
      split at stepped
      · rename_i socket located
        split at stepped
        · rename_i sent rest frames
          split at stepped
          · cases stepped
            exact .decoded socket sent rest _ _ (fun _ _ => rfl) frames (perm_eraseIdx located)
              (perm_set located _) rfl
          · cases stepped
        · cases stepped
      · cases stepped

/-! ## One connection for each call of `subscribe` -/

def requests (state : Delivery Message) (node topic : String) : Nat :=
  (state.peers node).topicRequests.countP fun request => decide (request.object = topic)

def between (state : Delivery Message) (publisher node topic : String) : Nat :=
  state.sockets.countP fun socket => decide (socket.Joins publisher node topic)

/-- A publisher that a node has been told of has been sent each of its requests, once; and
each request has its callback, or will have. -/
structure Counted (state : Delivery Message) : Prop where
  distinct : ∀ name, (state.peers name).clients.Nodup
  named : ∀ name, ∀ request ∈ (state.peers name).topicRequests, request.node = name
  callbacks : ∀ name topic, (state.peers name).functions topic +
    state.adding.count (name, topic) = state.requests name topic
  connections : ∀ publisher name topic, state.between publisher name topic =
    (state.peers name).clients.count publisher * state.requests name topic

theorem initial_counted : (initial : Delivery Message).Counted where
  distinct _ := List.nodup_nil
  named _ _ member := by cases member
  callbacks _ _ := rfl
  connections _ _ _ := rfl

theorem append_publisher (socket : Socket Message) (node topic : String) (sent : Sent Message)
    (skipped : Bool) : (socket.append node topic sent skipped).publisher = socket.publisher := by
  unfold Socket.append
  split <;> rfl

theorem append_request (socket : Socket Message) (node topic : String) (sent : Sent Message)
    (skipped : Bool) : (socket.append node topic sent skipped).request = socket.request := by
  unfold Socket.append
  split <;> rfl

theorem append_stage (socket : Socket Message) (node topic : String) (sent : Sent Message)
    (skipped : Bool) : (socket.append node topic sent skipped).stage = socket.stage := by
  unfold Socket.append
  split <;> rfl

theorem append_accepted (socket : Socket Message) (node topic : String) (sent : Sent Message)
    (skipped : Bool) : (socket.append node topic sent skipped).accepted = socket.accepted := by
  unfold Socket.append
  split <;> rfl

theorem joins_append {socket : Socket Message} {node topic : String} {sent : Sent Message}
    {skipped : Bool} {publisher name other : String} :
    (socket.append node topic sent skipped).Joins publisher name other ↔
      socket.Joins publisher name other := by
  unfold Socket.append
  split <;> exact Iff.rfl

theorem joins_pull {publisher other name topic : String} {request : ConnectionRequest} :
    (Socket.pull publisher request : Socket Message).Joins other name topic ↔
      publisher = other ∧ request.node = name ∧ request.object = topic :=
  Iff.rfl

theorem joins_congr {socket other : Socket Message} (publisher : other.publisher = socket.publisher)
    (request : other.request = socket.request) {name node topic : String} :
    other.Joins name node topic ↔ socket.Joins name node topic := by
  unfold Socket.Joins
  rw [publisher, request]

theorem countP_mapIdx {α : Type} {values : List α} {convert : Nat → α → α} {test : α → Bool}
    (same : ∀ index value, test (convert index value) = test value) :
    (values.mapIdx convert).countP test = values.countP test := by
  induction values generalizing convert with
  | nil => rfl
  | cons value values ih =>
      rw [List.mapIdx_cons, List.countP_cons, List.countP_cons, same,
        ih fun index value => same (index + 1) value]

theorem mem_changed {state : Delivery Message} {socket after other : Socket Message}
    {others sockets : List (Socket Message)} (before : state.sockets.Perm (socket :: others))
    (changed : sockets.Perm (after :: others)) (member : other ∈ sockets) :
    other = after ∨ other ∈ state.sockets := by
  rcases List.mem_cons.mp (changed.mem_iff.mp member) with here | old
  · exact .inl here
  · exact .inr (before.mem_iff.mpr (List.mem_cons_of_mem _ old))

/-- A socket that changes its stage or its frames still joins the same nodes. -/
theorem between_changed {state : Delivery Message} {socket after : Socket Message}
    {others sockets : List (Socket Message)} (before : state.sockets.Perm (socket :: others))
    (changed : sockets.Perm (after :: others)) (publisher : after.publisher = socket.publisher)
    (request : after.request = socket.request) (name node topic : String) :
    sockets.countP (fun socket => decide (socket.Joins name node topic)) =
      state.between name node topic := by
  have same : decide (after.Joins name node topic) = decide (socket.Joins name node topic) :=
    decide_eq_decide.mpr (joins_congr publisher request)
  rw [between, changed.countP_eq, before.countP_eq, List.countP_cons, List.countP_cons, same]

theorem Counted.sockets {state : Delivery Message} (counted : state.Counted)
    {sockets : List (Socket Message)}
    (same : ∀ publisher node topic, sockets.countP
      (fun socket => decide (socket.Joins publisher node topic)) =
      state.between publisher node topic)
    (writing : List (Writing Message)) (published : Nat) (calls : List Call) :
    ({ state with
      sockets := sockets
      writing := writing
      published := published
      calls := calls } : Delivery Message).Counted where
  distinct := counted.distinct
  named := counted.named
  callbacks := counted.callbacks
  connections publisher name topic :=
    (same publisher name topic).trans (counted.connections publisher name topic)

theorem kept_field {Field : Type} (field : Peer Message → Field) {state : Delivery Message}
    {name : String} {peer : Peer Message} (same : field peer = field (state.peers name))
    (other : String) :
    field (Function.update state.peers name peer other) = field (state.peers other) := by
  by_cases here : other = name
  · rw [here, Function.update_self, same]
  · rw [Function.update_of_ne here]

/-- A step that keeps the requests, the clients and the callbacks of a node. -/
theorem Counted.setPeer {state : Delivery Message} (counted : state.Counted) {name : String}
    {peer : Peer Message} (requests : peer.topicRequests = (state.peers name).topicRequests)
    (clients : peer.clients = (state.peers name).clients)
    (functions : peer.functions = (state.peers name).functions) :
    (state.setPeer name peer).Counted := by
  constructor
  · intro other
    dsimp only [Delivery.setPeer]
    rw [kept_field Peer.clients clients]
    exact counted.distinct other
  · intro other
    dsimp only [Delivery.setPeer]
    rw [kept_field Peer.topicRequests requests]
    exact counted.named other
  · intro other topic
    dsimp only [Delivery.requests, Delivery.setPeer]
    rw [kept_field Peer.topicRequests requests, kept_field Peer.functions functions]
    exact counted.callbacks other topic
  · intro publisher other topic
    dsimp only [Delivery.between, Delivery.requests, Delivery.setPeer]
    rw [kept_field Peer.topicRequests requests, kept_field Peer.clients clients]
    exact counted.connections publisher other topic

theorem countP_pull_publishers (publishers : List String) (request : ConnectionRequest)
    (publisher name topic : String) :
    (publishers.map fun other => (Socket.pull other request : Socket Message)).countP
        (fun socket => decide (socket.Joins publisher name topic)) =
      if request.node = name ∧ request.object = topic then publishers.count publisher else 0 := by
  rw [List.countP_map]
  split
  · rename_i matched
    apply List.countP_congr
    intro other _
    simp only [Function.comp_apply, decide_eq_true_eq, joins_pull, matched, and_self, and_true,
      beq_iff_eq]
  · rename_i unmatched
    apply List.countP_eq_zero.mpr
    intro other _
    simp only [Function.comp_apply, decide_eq_true_eq, joins_pull]
    exact fun joins => unmatched joins.2

theorem countP_pull_requests (requests : List ConnectionRequest) {node : String}
    (named : ∀ request ∈ requests, request.node = node) (other publisher name topic : String) :
    (requests.map fun request => (Socket.pull other request : Socket Message)).countP
        (fun socket => decide (socket.Joins publisher name topic)) =
      if other = publisher ∧ node = name then
        requests.countP fun request => decide (request.object = topic) else 0 := by
  rw [List.countP_map]
  split
  · rename_i matched
    apply List.countP_congr
    intro request member
    simp only [Function.comp_apply, decide_eq_true_eq, joins_pull, named request member, matched,
      true_and]
  · rename_i unmatched
    apply List.countP_eq_zero.mpr
    intro request member
    simp only [Function.comp_apply, decide_eq_true_eq, joins_pull, named request member]
    exact fun joins => unmatched ⟨joins.1, joins.2.1⟩

theorem requests_request (state : Delivery Message) (name : String) {topic : String}
    {request : ConnectionRequest} (object : request.object = topic) (other subject : String) :
    (state.setPeer name ((state.peers name).request request)).requests other subject =
      state.requests other subject + if name = other ∧ topic = subject then 1 else 0 := by
  dsimp only [Delivery.requests, Delivery.setPeer]
  by_cases here : other = name
  · rw [here, Function.update_self, Peer.request, List.countP_append, List.countP_singleton, object]
    by_cases same : topic = subject
    · rw [if_pos (decide_eq_true same), if_pos ⟨rfl, same⟩]
    · rw [if_neg (fun matched => same (of_decide_eq_true matched)),
        if_neg (fun both => same both.2)]
  · rw [Function.update_of_ne here, if_neg (fun both => here both.1.symm), Nat.add_zero]

theorem Counted.subscribed {state : Delivery Message} (counted : state.Counted)
    {name topic : String} {request : ConnectionRequest} (object : request.object = topic)
    (node : request.node = name) :
    ({ state.setPeer name ((state.peers name).request request) with
      sockets := state.sockets ++
        (state.peers name).clients.map fun publisher => .pull publisher request
      adding := state.adding ++ [(name, topic)] } : Delivery Message).Counted := by
  constructor
  · intro other
    dsimp only [Delivery.setPeer]
    rw [kept_field Peer.clients (Peer.clients_request ..)]
    exact counted.distinct other
  · intro other asked member
    dsimp only [Delivery.setPeer] at member
    by_cases here : other = name
    · rw [here, Function.update_self] at member
      rcases List.mem_append.mp member with before | new
      · exact here ▸ counted.named name asked before
      · rw [List.mem_singleton.mp new, node, here]
    · rw [Function.update_of_ne here] at member
      exact counted.named other asked member
  · intro other subject
    have counts := counted.callbacks other subject
    have total := requests_request state name object other subject
    dsimp only [Delivery.requests, Delivery.setPeer] at counts total ⊢
    rw [total, kept_field Peer.functions (Peer.functions_request ..), List.count_append,
      List.count_singleton, ← counts]
    simp only [beq_iff_eq, Prod.mk.injEq]
    omega
  · intro publisher other subject
    have before := counted.connections publisher other subject
    have total := requests_request state name object other subject
    dsimp only [Delivery.between, Delivery.requests, Delivery.setPeer] at before total ⊢
    rw [total, kept_field Peer.clients (Peer.clients_request ..), List.countP_append,
      countP_pull_publishers, before, node, object, Nat.mul_add]
    by_cases here : name = other ∧ topic = subject
    · rw [if_pos here, if_pos here, here.1, Nat.mul_one]
    · rw [if_neg here, if_neg here, Nat.mul_zero]

theorem Counted.added {state : Delivery Message} (counted : state.Counted) {name topic : String}
    {others : List (String × String)} (pending : state.adding.Perm ((name, topic) :: others)) :
    ({ state.setPeer name ((state.peers name).addCallback topic) with
      adding := others } : Delivery Message).Counted := by
  constructor
  · intro other
    dsimp only [Delivery.setPeer]
    rw [kept_field Peer.clients (Peer.clients_addCallback ..)]
    exact counted.distinct other
  · intro other
    dsimp only [Delivery.setPeer]
    rw [kept_field Peer.topicRequests (Peer.topicRequests_addCallback ..)]
    exact counted.named other
  · intro other subject
    have counts := counted.callbacks other subject
    rw [pending.count_eq, List.count_cons] at counts
    dsimp only [Delivery.requests, Delivery.setPeer] at counts ⊢
    rw [kept_field Peer.topicRequests (Peer.topicRequests_addCallback ..), ← counts]
    by_cases here : other = name
    · rw [here, Function.update_self, Peer.functions_addCallback]
      by_cases same : subject = topic
      · rw [if_pos same, same, if_pos (beq_self_eq_true _)]
        omega
      · rw [if_neg same, if_neg]
        · rfl
        · intro matched
          rw [beq_iff_eq, Prod.mk.injEq] at matched
          exact same matched.2.symm
    · rw [Function.update_of_ne here, if_neg]
      · rfl
      · intro matched
        rw [beq_iff_eq, Prod.mk.injEq] at matched
        exact here matched.1.symm
  · intro publisher other subject
    dsimp only [Delivery.between, Delivery.requests, Delivery.setPeer]
    rw [kept_field Peer.topicRequests (Peer.topicRequests_addCallback ..),
      kept_field Peer.clients (Peer.clients_addCallback ..)]
    exact counted.connections publisher other subject

theorem Counted.discovered {state : Delivery Message} (counted : state.Counted)
    {name publisher : String} (new : publisher ∉ (state.peers name).clients) :
    ({ state.setPeer name ((state.peers name).addClient publisher) with
      sockets := state.sockets ++
        (state.peers name).topicRequests.map fun request =>
          .pull publisher request } : Delivery Message).Counted := by
  constructor
  · intro other
    dsimp only [Delivery.setPeer]
    by_cases here : other = name
    · rw [here, Function.update_self, Peer.addClient, ← List.concat_eq_append]
      exact (List.nodup_concat _ _).mpr ⟨new, counted.distinct name⟩
    · rw [Function.update_of_ne here]
      exact counted.distinct other
  · intro other
    dsimp only [Delivery.setPeer]
    rw [kept_field Peer.topicRequests (Peer.topicRequests_addClient ..)]
    exact counted.named other
  · intro other subject
    dsimp only [Delivery.requests, Delivery.setPeer]
    rw [kept_field Peer.topicRequests (Peer.topicRequests_addClient ..),
      kept_field Peer.functions (Peer.functions_addClient ..)]
    exact counted.callbacks other subject
  · intro remote other subject
    have before := counted.connections remote other subject
    dsimp only [Delivery.between, Delivery.requests, Delivery.setPeer] at before ⊢
    rw [kept_field Peer.topicRequests (Peer.topicRequests_addClient ..), List.countP_append, before,
      countP_pull_requests _ (counted.named name)]
    by_cases here : other = name
    · rw [here, Function.update_self, Peer.addClient, List.count_append, Nat.add_mul]
      by_cases same : publisher = remote
      · rw [if_pos ⟨same, rfl⟩, same, List.count_singleton_self, Nat.one_mul]
      · rw [if_neg (fun both => same both.1), List.count_singleton, if_neg, Nat.zero_mul]
        exact fun matched => same (beq_iff_eq.mp matched)
    · rw [Function.update_of_ne here, if_neg (fun both => here both.2.symm), Nat.add_zero]

theorem Counted.step [DecidableEq Message] {state next : Delivery Message}
    {action : DeliveryAction Message} (counted : state.Counted)
    (stepped : state.step action = some next) : next.Counted := by
  cases step_change stepped with
  | advertised name topic msgType acting result =>
      rw [result]
      exact counted.setPeer rfl rfl rfl
  | subscribed name topic msgType request acting object node result =>
      rw [result]
      exact counted.subscribed object node
  | added name topic others acting pending result =>
      rw [result]
      exact counted.added pending
  | discovered name publisher acting new result =>
      rw [result]
      exact counted.discovered new
  | moved socket after others sockets acting before changed publisher request frames kept result =>
      rw [result]
      exact counted.sockets (between_changed before changed publisher request) _ _ _
  | suppressed name topic msgType message cache acting latched result =>
      rw [result]
      exact counted.sockets (fun _ _ _ => rfl) _ _ _
  | published name topic msgType message cache acting new result =>
      rw [result]
      cases cache with
      | true =>
          have latched : (state.setPeer name ((state.peers name).latch topic
              ⟨state.published, message⟩)).Counted := counted.setPeer rfl rfl rfl
          exact latched.sockets (fun _ _ _ => rfl) _ _ _
      | false => exact counted.sockets (fun _ _ _ => rfl) _ _ _
  | written index skipped write others acting located calls result =>
      rw [result]
      refine counted.sockets (fun publisher node topic => countP_mapIdx ?_) _ _ _
      exact fun _ _ => decide_eq_decide.mpr joins_append
  | decoded socket sent rest others sockets acting frames before changed result =>
      rw [result]
      exact counted.sockets (between_changed before changed rfl rfl) _ _ _

theorem requests_step [DecidableEq Message] {state next : Delivery Message}
    {action : DeliveryAction Message} (stepped : state.step action = some next)
    (node topic : String) : next.requests node topic =
      state.requests node topic + if action.subscribes node topic then 1 else 0 := by
  cases step_change stepped with
  | advertised name other msgType acting result =>
      rw [result, acting, requests]
      dsimp only [Delivery.setPeer]
      rw [kept_field Peer.topicRequests (Peer.topicRequests_advertise ..)]
      rfl
  | subscribed name other msgType request acting object named result =>
      rw [result, acting]
      refine (requests_request state name object node topic).trans ?_
      simp only [DeliveryAction.subscribes, decide_eq_true_eq]
  | added name other others acting pending result =>
      obtain ⟨index, acting⟩ := acting
      rw [result, acting, requests]
      dsimp only [Delivery.setPeer]
      rw [kept_field Peer.topicRequests (Peer.topicRequests_addCallback ..)]
      rfl
  | discovered name publisher acting new result =>
      rw [result, acting, requests]
      dsimp only [Delivery.setPeer]
      rw [kept_field Peer.topicRequests (Peer.topicRequests_addClient ..)]
      rfl
  | moved socket after others sockets acting before changed publisher request frames kept result =>
      rw [result, acting]
      rfl
  | suppressed name other msgType message cache acting latched result =>
      rw [result, acting]
      rfl
  | published name other msgType message cache acting new result =>
      rw [result, acting]
      cases cache with
      | true =>
          dsimp only [requests, Delivery.setPeer, DeliveryAction.subscribes]
          rw [if_pos rfl, kept_field Peer.topicRequests (Peer.topicRequests_latch ..)]
          rfl
      | false => rfl
  | written index skipped write others acting located calls result =>
      rw [result, acting]
      rfl
  | decoded socket sent rest others sockets acting frames before changed result =>
      rw [result, acting]
      rfl

theorem exec_counted [DecidableEq Message] {state final : Delivery Message}
    {run : List (DeliveryAction Message)} (counted : state.Counted)
    (executed : machine.exec state run = some final) : final.Counted :=
  (machine.along_of_preserved Counted (fun _ _ _ valid => valid.step) counted run).final executed

theorem exec_requests [DecidableEq Message] {state final : Delivery Message}
    {run : List (DeliveryAction Message)} (executed : machine.exec state run = some final)
    (node topic : String) : final.requests node topic =
      state.requests node topic + run.countP (DeliveryAction.subscribes node topic) := by
  induction run generalizing state with
  | nil =>
      cases executed
      rfl
  | cons action rest ih =>
      obtain ⟨next, stepped, executed⟩ := machine.exec_cons_eq_some executed
      rw [ih executed, requests_step stepped, List.countP_cons]
      omega

end Delivery

end ProtoCore.Routing
