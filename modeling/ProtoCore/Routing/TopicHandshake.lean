import ProtoCore.Routing.ConnectionKeys
import ProtoCore.Topic.FdIndices

/-!
# The handshake of a topic

A subscriber asks a publisher for a topic. The handler of the publisher connects to the TCP
server of the subscriber, waits for the result and replies with the address of its socket. The
thread of the subscriber then looks for this address among the connections that its server has
accepted, again and again until it is there.
-/

set_option autoImplicit false

namespace ProtoCore.Routing

open Library Topic

/-- Where a handshake stands: in `TopicConnection` until that has `returned` with `Status::OK`
or `thrown`, then in the thread of the subscriber, which is `lost` if the status is not ok. -/
inductive HandshakeStage where
  | test
  | find
  | wait
  | connect
  | get
  | returned (reply : ConnectionReply)
  | thrown
  | lost
  | accepting (reply : ConnectionReply)
  | accepted
  deriving DecidableEq, Repr

/-- A handshake with the index of its `add_client` call at the publisher. `queued` is the address
under which its connection has reached the queue of the subscriber's server. -/
structure Handshake where
  publisher : String
  request : ConnectionRequest
  stage : HandshakeStage
  attempt : Option Nat
  queued : Option SockaddrIn
  deriving DecidableEq, Repr

/-- The publishers by the names of their nodes, with their `core::ok()`, and one subscriber. The
backlog has the connections that wait for its `accept`. -/
structure TopicHandshakes where
  running : String → Bool
  publishers : String → ClientSockets
  handshakes : List Handshake
  server : TCPServer
  backlog : List SockaddrIn

/-- A statement of a handshake, a connection that is established, for a handshake or by another
peer, a step of the sockets of a publisher or of the server, or `core::ok()` that ends. -/
inductive HandshakeAction where
  | request (publisher : String) (request : ConnectionRequest)
  | test (index : Nat) (cancelled : Bool)
  | find (index : Nat) (found : Bool)
  | wake (index : Nat)
  | connect (index : Nat) (calls : ConnectCalls)
  | establish (index : Nat)
  | get (index : Nat)
  | lose (index : Nat)
  | deliver (index : Nat)
  | acceptClient (index : Nat)
  | sockets (publisher : String) (action : SocketAction)
  | foreign (addr : SockaddrIn)
  | acceptNewClient (fd : Nat) (nonblocking : Bool)
  | server (action : Topic.ServerAction)
  | shutdown (publisher : String)
  deriving DecidableEq, Repr

/-- The reply that no field has been set in. -/
def ConnectionReply.empty : ConnectionReply where
  object := ""
  url := ""
  ip := ""
  port := 0

namespace Handshake

def start (publisher : String) (request : ConnectionRequest) : Handshake where
  publisher := publisher
  request := request
  stage := .test
  attempt := none
  queued := none

def enter (handshake : Handshake) (stage : HandshakeStage) : Handshake :=
  { handshake with stage := stage }

/-- The `add_client` call of a handshake, at its publisher. -/
def call (handshake : Handshake) (sockets : ClientSockets) : Option ConnectAttempt :=
  handshake.attempt.bind fun attempt => sockets.attempts[attempt]?

/-- `client_info.connected.get()` and what follows it. The future of a call that has ended without
a value throws, and so does a future without a state. -/
def get (handshake : Handshake) (attempt : ConnectAttempt) : Option Handshake :=
  if !attempt.shared then some (handshake.enter .thrown)
  else
    match attempt.values with
    | true :: _ =>
        some (handshake.enter
          (.returned (connectedReply handshake.request attempt.ip attempt.port)))
    | false :: _ => some (handshake.enter (.returned .empty))
    | [] => if attempt.stage = .ended then some (handshake.enter .thrown) else none

end Handshake

namespace TopicHandshakes

variable (decode : TCPServer.DecodeResult)

def initial : TopicHandshakes where
  running _ := true
  publishers _ := .initial
  handshakes := []
  server := .initial
  backlog := []

def at? (system : TopicHandshakes) (index : Nat) (stage : HandshakeStage) : Option Handshake :=
  (system.handshakes[index]?).bind fun handshake =>
    if handshake.stage = stage then some handshake else none

def attemptOf (system : TopicHandshakes) (handshake : Handshake) : Option ConnectAttempt :=
  handshake.call (system.publishers handshake.publisher)

def set (system : TopicHandshakes) (index : Nat) (handshake : Handshake) : TopicHandshakes :=
  { system with handshakes := system.handshakes.set index handshake }

def setPublisher (system : TopicHandshakes) (publisher : String) (sockets : ClientSockets) :
    TopicHandshakes :=
  { system with publishers := Function.update system.publishers publisher sockets }

def setServer (system : TopicHandshakes) (server : TCPServer) : TopicHandshakes :=
  { system with server := server }

def enqueue (system : TopicHandshakes) (addr : SockaddrIn) : TopicHandshakes :=
  { system with backlog := system.backlog ++ [addr] }

/-- Two connections to one server that are there at once have different addresses. -/
def Free (system : TopicHandshakes) (addr : SockaddrIn) : Prop :=
  addr ∉ system.backlog ∧ ∀ connection ∈ system.server.connections, connection.peer ≠ addr

instance (system : TopicHandshakes) (addr : SockaddrIn) : Decidable (system.Free addr) :=
  inferInstanceAs (Decidable (_ ∧ _))

/-- `getsockopt` reports no error only for a connection that has been established. -/
def Reports (system : TopicHandshakes) (publisher : String) : SocketAction → Prop
  | .select index true (some 0) => ∀ handshake ∈ system.handshakes,
      handshake.publisher = publisher → handshake.attempt = some index → handshake.queued.isSome
  | _ => True

instance (system : TopicHandshakes) (publisher : String) (action : SocketAction) :
    Decidable (system.Reports publisher action) := by
  unfold Reports
  split <;> infer_instance

/-- `add_tcp_client` of the handler. -/
def connect (system : TopicHandshakes) (index : Nat) (handshake : Handshake)
    (calls : ConnectCalls) : Option TopicHandshakes :=
  let sockets := system.publishers handshake.publisher
  (sockets.step (.addClient handshake.request.object calls)).map fun next =>
    (system.setPublisher handshake.publisher next).set index
      { handshake with stage := .get, attempt := some sockets.attempts.length }

/-- The connection of a handshake is established while its thread waits in `select`. -/
def establish (system : TopicHandshakes) (index : Nat) (handshake : Handshake) :
    Option TopicHandshakes :=
  (system.attemptOf handshake).bind fun attempt =>
    attempt.address.bind fun addr =>
      if attempt.stage = .select ∧ handshake.queued = none ∧ system.Free addr then
        some ((system.enqueue addr).set index { handshake with queued := some addr })
      else none

/-- The count test of `accept_client`, and the recursion if it fails. -/
def acceptClient (system : TopicHandshakes) (index : Nat) (handshake : Handshake)
    (reply : ConnectionReply) : Option TopicHandshakes :=
  (system.server.step decode (.acceptClient reply.object reply.ip reply.port)).map fun server =>
    (system.setServer server).set index
      (if (system.server.unmappedAddrToFd (token reply.ip reply.port)).isSome then
        handshake.enter .accepted
      else handshake)

def step (system : TopicHandshakes) : HandshakeAction → Option TopicHandshakes
  | .request publisher request =>
      some { system with
        handshakes := system.handshakes ++ [Handshake.start publisher request] }
  | .test index cancelled =>
      (system.at? index .test).map fun handshake =>
        system.set index (handshake.enter
          (if system.running handshake.publisher && !cancelled then .find
          else .returned .empty))
  | .find index found =>
      (system.at? index .find).map fun handshake =>
        system.set index (handshake.enter (if found then .connect else .wait))
  | .wake index =>
      (system.at? index .wait).map fun handshake => system.set index (handshake.enter .test)
  | .connect index calls =>
      (system.at? index .connect).bind fun handshake => system.connect index handshake calls
  | .establish index =>
      (system.at? index .get).bind fun handshake => system.establish index handshake
  | .get index =>
      (system.at? index .get).bind fun handshake =>
        (system.attemptOf handshake).bind fun attempt =>
          (handshake.get attempt).map fun next => system.set index next
  | .lose index =>
      (system.handshakes[index]?).bind fun handshake =>
        match handshake.stage with
        | .returned _ => some (system.set index (handshake.enter .lost))
        | _ => none
  | .deliver index =>
      (system.handshakes[index]?).bind fun handshake =>
        match handshake.stage with
        | .returned reply => some (system.set index (handshake.enter (.accepting reply)))
        | _ => none
  | .acceptClient index =>
      (system.handshakes[index]?).bind fun handshake =>
        match handshake.stage with
        | .accepting reply => system.acceptClient decode index handshake reply
        | _ => none
  | .sockets publisher action =>
      if system.Reports publisher action then
        ((system.publishers publisher).step action).map fun sockets =>
          system.setPublisher publisher sockets
      else none
  | .foreign addr => if system.Free addr then some (system.enqueue addr) else none
  | .acceptNewClient fd nonblocking =>
      match system.backlog with
      | [] => none
      | addr :: rest =>
          (system.server.step decode (.acceptNewClient (some (fd, addr)) nonblocking)).map
            fun server => { system.setServer server with backlog := rest }
  | .server action =>
      match action with
      | .acceptNewClient (some _) _ | .acceptClient _ _ _ => none
      | action => (system.server.step decode action).map fun server => system.setServer server
  | .shutdown publisher =>
      some { system with running := Function.update system.running publisher false }

def machine : Machine TopicHandshakes HandshakeAction := ⟨step decode⟩

end TopicHandshakes

def HandshakeAction.isAccept : HandshakeAction → Bool
  | .acceptNewClient _ _ => true
  | _ => false

/-! ## What a step does -/

/-- The statements that change nothing but the stage. -/
inductive Onward : HandshakeStage → HandshakeStage → Prop where
  | test : Onward .test .find
  | find : Onward .find .connect
  | wait : Onward .find .wait
  | wake : Onward .wait .test
  | lose {reply} : Onward (.returned reply) .lost
  | deliver {reply} : Onward (.returned reply) (.accepting reply)

namespace TopicHandshakes

/-- The handshake at the index stands at a stage. -/
structure Stands (system : TopicHandshakes) (index : Nat) (stage : HandshakeStage)
    (handshake : Handshake) : Prop where
  located : system.handshakes[index]? = some handshake
  stage : handshake.stage = stage

/-- The ways in which a step goes, with the states they lead to. -/
inductive Stepped (decode : TCPServer.DecodeResult) (system : TopicHandshakes) :
    HandshakeAction → TopicHandshakes → Prop where
  | request {publisher request} : Stepped decode system (.request publisher request)
      { system with handshakes := system.handshakes ++ [Handshake.start publisher request] }
  | move {action index stage handshake next} : action.isAccept = false →
      system.Stands index stage handshake → Onward stage next →
      Stepped decode system action (system.set index (handshake.enter next))
  | stop {index cancelled handshake} : system.Stands index .test handshake →
      (system.running handshake.publisher && !cancelled) = false →
      Stepped decode system (.test index cancelled)
        (system.set index (handshake.enter (.returned .empty)))
  | connect {index calls handshake next} : system.Stands index .connect handshake →
      (system.publishers handshake.publisher).step
        (.addClient handshake.request.object calls) = some next →
      Stepped decode system (.connect index calls)
        ((system.setPublisher handshake.publisher next).set index
          { handshake with
            stage := .get
            attempt := some (system.publishers handshake.publisher).attempts.length })
  | establish {index handshake attempt addr} : system.Stands index .get handshake →
      system.attemptOf handshake = some attempt → attempt.address = some addr →
      handshake.queued = none → system.Free addr →
      Stepped decode system (.establish index)
        ((system.enqueue addr).set index { handshake with queued := some addr })
  | get {index handshake attempt next} : system.Stands index .get handshake →
      system.attemptOf handshake = some attempt → handshake.get attempt = some next →
      Stepped decode system (.get index) (system.set index next)
  | acceptClient {index handshake reply server} :
      system.Stands index (.accepting reply) handshake →
      system.server.step decode (.acceptClient reply.object reply.ip reply.port) = some server →
      Stepped decode system (.acceptClient index)
        ((system.setServer server).set index
          (if (system.server.unmappedAddrToFd (token reply.ip reply.port)).isSome then
            handshake.enter .accepted
          else handshake))
  | sockets {publisher action next} : system.Reports publisher action →
      (system.publishers publisher).step action = some next →
      Stepped decode system (.sockets publisher action) (system.setPublisher publisher next)
  | foreign {addr} : system.Free addr →
      Stepped decode system (.foreign addr) (system.enqueue addr)
  | acceptNewClient {fd nonblocking addr rest server} : system.backlog = addr :: rest →
      system.server.step decode (.acceptNewClient (some (fd, addr)) nonblocking) = some server →
      Stepped decode system (.acceptNewClient fd nonblocking)
        { system.setServer server with backlog := rest }
  | server {action server} :
      (∀ client nonblocking, action ≠ .acceptNewClient (some client) nonblocking) →
      (∀ topic ip port, action ≠ .acceptClient topic ip port) →
      system.server.step decode action = some server →
      Stepped decode system (.server action) (system.setServer server)
  | shutdown {publisher} : Stepped decode system (.shutdown publisher)
      { system with running := Function.update system.running publisher false }

theorem stands_of_at {system : TopicHandshakes} {index : Nat} {stage : HandshakeStage}
    {handshake : Handshake} (found : system.at? index stage = some handshake) :
    system.Stands index stage handshake := by
  obtain ⟨other, located, found⟩ := Option.bind_eq_some_iff.mp found
  obtain ⟨same, found⟩ := Option.ite_none_right_eq_some.mp found
  cases found
  exact ⟨located, same⟩

theorem Stands.at? {system : TopicHandshakes} {index : Nat} {stage : HandshakeStage}
    {handshake : Handshake} (stands : system.Stands index stage handshake) :
    system.at? index stage = some handshake := by
  rw [TopicHandshakes.at?, stands.located, Option.bind_some, if_pos stands.stage]

theorem step_cases {decode : TCPServer.DecodeResult} {system next : TopicHandshakes}
    {action : HandshakeAction} (stepped : system.step decode action = some next) :
    Stepped decode system action next := by
  cases action with
  | request publisher request =>
      cases stepped
      exact .request
  | test index cancelled =>
      obtain ⟨handshake, found, rfl⟩ := Option.map_eq_some_iff.mp stepped
      have stands := stands_of_at found
      cases runs : system.running handshake.publisher && !cancelled with
      | true => exact .move rfl stands .test
      | false => exact .stop stands runs
  | find index found =>
      obtain ⟨handshake, located, rfl⟩ := Option.map_eq_some_iff.mp stepped
      cases found with
      | true => exact .move rfl (stands_of_at located) .find
      | false => exact .move rfl (stands_of_at located) .wait
  | wake index =>
      obtain ⟨handshake, located, rfl⟩ := Option.map_eq_some_iff.mp stepped
      exact .move rfl (stands_of_at located) .wake
  | connect index calls =>
      obtain ⟨handshake, located, stepped⟩ := Option.bind_eq_some_iff.mp stepped
      obtain ⟨sockets, added, rfl⟩ := Option.map_eq_some_iff.mp stepped
      exact .connect (stands_of_at located) added
  | establish index =>
      obtain ⟨handshake, located, stepped⟩ := Option.bind_eq_some_iff.mp stepped
      obtain ⟨attempt, called, stepped⟩ := Option.bind_eq_some_iff.mp stepped
      obtain ⟨addr, named, stepped⟩ := Option.bind_eq_some_iff.mp stepped
      obtain ⟨⟨_, unqueued, free⟩, same⟩ := Option.ite_none_right_eq_some.mp stepped
      cases same
      exact .establish (stands_of_at located) called named unqueued free
  | get index =>
      obtain ⟨handshake, located, stepped⟩ := Option.bind_eq_some_iff.mp stepped
      obtain ⟨attempt, called, stepped⟩ := Option.bind_eq_some_iff.mp stepped
      obtain ⟨later, got, rfl⟩ := Option.map_eq_some_iff.mp stepped
      exact .get (stands_of_at located) called got
  | lose index =>
      obtain ⟨handshake, located, stepped⟩ := Option.bind_eq_some_iff.mp stepped
      split at stepped
      · rename_i reply stage
        cases stepped
        exact .move rfl ⟨located, stage⟩ .lose
      · cases stepped
  | deliver index =>
      obtain ⟨handshake, located, stepped⟩ := Option.bind_eq_some_iff.mp stepped
      split at stepped
      · rename_i reply stage
        cases stepped
        exact .move rfl ⟨located, stage⟩ .deliver
      · cases stepped
  | acceptClient index =>
      obtain ⟨handshake, located, stepped⟩ := Option.bind_eq_some_iff.mp stepped
      split at stepped
      · rename_i reply stage
        obtain ⟨server, tested, rfl⟩ := Option.map_eq_some_iff.mp stepped
        exact .acceptClient ⟨located, stage⟩ tested
      · cases stepped
  | sockets publisher action =>
      obtain ⟨reports, stepped⟩ := Option.ite_none_right_eq_some.mp stepped
      obtain ⟨sockets, moved, rfl⟩ := Option.map_eq_some_iff.mp stepped
      exact .sockets reports moved
  | foreign addr =>
      obtain ⟨free, same⟩ := Option.ite_none_right_eq_some.mp stepped
      cases same
      exact .foreign free
  | acceptNewClient fd nonblocking =>
      simp only [TopicHandshakes.step] at stepped
      split at stepped
      · cases stepped
      · rename_i addr rest queued
        obtain ⟨server, accepted, rfl⟩ := Option.map_eq_some_iff.mp stepped
        exact .acceptNewClient queued accepted
  | server action =>
      simp only [TopicHandshakes.step] at stepped
      split at stepped
      · cases stepped
      · cases stepped
      · rename_i unaccepted untested
        obtain ⟨server, moved, rfl⟩ := Option.map_eq_some_iff.mp stepped
        exact .server unaccepted untested moved
  | shutdown publisher =>
      cases stepped
      exact .shutdown

end TopicHandshakes

end ProtoCore.Routing
