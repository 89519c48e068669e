import Mathlib.Logic.Function.Basic
import ProtoCore.Library.Machine

/-!
# Topics, connections and frames

`advertise` notes the type of a topic, and `TopicConnection` compares it with the type
of a request, once. From then on sockets, cached frames, decoders and callbacks are
found by the name of the topic alone. Frames travel whole, in the order of a connection.
-/

set_option autoImplicit false

namespace ProtoCore.Routing

open Library

/-- The url of a message type, which is known by its full name. -/
def getTypeurl (msgType : String) : String := "type.googleapis.com/" ++ msgType

structure Frame where
  msgType : String
  bytes : List UInt8
  deriving DecidableEq, Repr

structure ConnectionRequest where
  object : String
  url : String
  node : String
  deriving DecidableEq, Repr

/-- The type of a decoder, and the types that its callbacks take. -/
structure SpecifiedDecoder where
  msgType : String
  functions : List String
  deriving DecidableEq, Repr

def publishedKey (topic : String) : String := "p" ++ topic

def subscribedKey (topic : String) : String := "s" ++ topic

/-- What a node keeps about its topics. `publishers` records the handles that `advertise`
has returned. -/
structure NodeHandler where
  topics : String → Option String
  publishers : List (String × String)
  staticTopicCache : String → List Frame
  topicRequests : List ConnectionRequest
  decoders : String → Option SpecifiedDecoder

namespace NodeHandler

def new : NodeHandler where
  topics _ := none
  publishers := []
  staticTopicCache _ := []
  topicRequests := []
  decoders _ := none

def findWaitPublishedTopic (node : NodeHandler) (topic url : String) : Bool :=
  node.topics (publishedKey topic) = some url

def advertise (node : NodeHandler) (topic msgType : String) : NodeHandler :=
  { node with
    topics := Function.update node.topics (publishedKey topic) (some (getTypeurl msgType))
    publishers := node.publishers ++ [(topic, msgType)] }

/-- The decoder of the topic is created for the first callback, and cast for the others. -/
def subscribe (node : NodeHandler) (name topic msgType : String) : NodeHandler :=
  let decoder := (node.decoders topic).getD { msgType := msgType, functions := [] }
  { node with
    topics := Function.update node.topics (subscribedKey topic) (some (getTypeurl msgType))
    topicRequests := node.topicRequests ++
      [{ object := topic, url := getTypeurl msgType, node := name }]
    decoders := Function.update node.decoders topic
      (some { decoder with functions := decoder.functions ++ [msgType] }) }

/-- `write_to_cache`. The cache is a set of byte strings. -/
def writeToCache (node : NodeHandler) (topic : String) (frame : Frame) : Bool × NodeHandler :=
  if (node.staticTopicCache topic).any (fun cached => cached.bytes == frame.bytes) then (false, node)
  else (true, { node with
    staticTopicCache := Function.update node.staticTopicCache topic
      (node.staticTopicCache topic ++ [frame]) })

end NodeHandler

/-- Where a `TopicConnection` handler and its socket stand. -/
inductive Stage where
  | waiting
  | found
  | registered
  | closed
  deriving DecidableEq, Repr

/-- A handler on a publishing node. `frames` are written to its socket, or kept for it,
and not yet decoded. `accepted` says that the subscriber has mapped the socket. -/
structure Connection where
  publisher : String
  request : ConnectionRequest
  stage : Stage
  accepted : Bool
  frames : List Frame
  deriving DecidableEq, Repr

/-- The socket of a connection, or the attempt to make one, belongs to the topic. -/
def Connection.On (connection : Connection) (publisher topic : String) : Prop :=
  connection.publisher = publisher ∧ connection.request.object = topic ∧
    (connection.stage = .found ∨ connection.stage = .registered)

instance (connection : Connection) (publisher topic : String) :
    Decidable (connection.On publisher topic) :=
  inferInstanceAs (Decidable (_ ∧ _ ∧ (_ ∨ _)))

/-- A `publish` call before its write to the sockets. -/
structure Publish where
  node : String
  topic : String
  frame : Frame
  deriving DecidableEq, Repr

/-- `write_to_socket` on one connection. The set of the topic holds registered sockets;
a skipped one is over its limit or comes after a failed write. -/
def Connection.append (connection : Connection) (write : Publish) (skipped : Bool) :
    Connection :=
  if connection.publisher = write.node ∧ connection.request.object = write.topic ∧
      connection.stage = .registered ∧ !skipped then
    { connection with frames := connection.frames ++ [write.frame] }
  else connection

/-- The nodes by their names, the handlers they have started, the `publish` calls in
progress, and the frames decoded so far, each with the type of its decoder. -/
structure Network where
  nodes : String → NodeHandler
  connections : List Connection
  publishing : List Publish
  decoded : List (String × Frame)

inductive Action where
  | advertise (node topic msgType : String)
  | subscribe (node topic msgType : String)
  | topicConnection (publisher subscriber : String) (request : Nat)
  | find (connection : Nat)
  | register (connection : Nat) (order : List Frame)
  | close (connection : Nat)
  | accept (connection : Nat)
  | publish (node topic msgType : String) (bytes : List UInt8) (cache : Bool)
  | writeToSocket (publishing : Nat) (skipped : List Nat)
  | decode (connection : Nat)
  deriving DecidableEq, Repr

namespace Network

def initial : Network where
  nodes _ := .new
  connections := []
  publishing := []
  decoded := []

def setNode (network : Network) (name : String) (node : NodeHandler) : Network :=
  { network with nodes := Function.update network.nodes name node }

def setConnection (network : Network) (index : Nat) (connection : Connection) : Network :=
  { network with connections := network.connections.set index connection }

def step (network : Network) : Action → Option Network
  | .advertise name topic msgType =>
      some (network.setNode name ((network.nodes name).advertise topic msgType))
  | .subscribe name topic msgType =>
      some (network.setNode name ((network.nodes name).subscribe name topic msgType))
  | .topicConnection publisher subscriber request =>
      ((network.nodes subscriber).topicRequests[request]?).map fun request =>
        { network with
          connections := network.connections ++ [{
            publisher := publisher, request := request, stage := .waiting, accepted := false,
            frames := [] }] }
  | .find index =>
      match network.connections[index]? with
      | none => none
      | some connection =>
          if connection.stage = .waiting ∧
              (network.nodes connection.publisher).findWaitPublishedTopic connection.request.object
                connection.request.url = true then
            some (network.setConnection index { connection with stage := .found })
          else none
  | .register index order =>
      match network.connections[index]? with
      | none => none
      | some connection =>
          if connection.stage = .found ∧ order.Perm
              ((network.nodes connection.publisher).staticTopicCache connection.request.object) then
            some (network.setConnection index
              { connection with stage := .registered, frames := order })
          else none
  | .close index =>
      (network.connections[index]?).map fun connection =>
        network.setConnection index { connection with stage := .closed }
  | .accept index =>
      match network.connections[index]? with
      | none => none
      | some connection =>
          if connection.stage = .registered ∨ connection.stage = .closed then
            some (network.setConnection index { connection with accepted := true })
          else none
  | .publish name topic msgType bytes cache =>
      if (topic, msgType) ∈ (network.nodes name).publishers then
        let frame : Frame := { msgType := msgType, bytes := bytes }
        let publish : Publish := { node := name, topic := topic, frame := frame }
        if cache then
          let (inserted, node) := (network.nodes name).writeToCache topic frame
          let network := network.setNode name node
          some (if inserted then { network with publishing := network.publishing ++ [publish] }
            else network)
        else some { network with publishing := network.publishing ++ [publish] }
      else none
  | .writeToSocket index skipped =>
      (network.publishing[index]?).map fun write =>
        { network with
          publishing := network.publishing.eraseIdx index
          connections := network.connections.mapIdx fun position connection =>
            connection.append write (skipped.contains position) }
  | .decode index =>
      match network.connections[index]? with
      | none => none
      | some connection =>
          match connection.frames, (network.nodes connection.request.node).decoders
              connection.request.object with
          | frame :: rest, some decoder =>
              if connection.accepted then
                some { network.setConnection index { connection with frames := rest } with
                  decoded := network.decoded ++ [(decoder.msgType, frame)] }
              else none
          | _, _ => none

def machine : Machine Network Action where
  step := step

end Network

end ProtoCore.Routing
