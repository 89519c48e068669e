import Mathlib.Logic.Function.Basic
import ProtoCore.Library.Machine
import ProtoCore.Topic.Serialization
import ProtoCore.Topic.SocketAddress
import ProtoCore.Topic.TCPClient

/-!
# The TCP server of a node

The event loop accepts publishers, receives from those that are mapped to a topic, and
closes them. The handshake of a topic maps the address of its publisher, in a thread of
its own: the address is looked up before the lock is taken, and used after.
-/

set_option autoImplicit false

namespace ProtoCore.Topic

open Library

/-- No bytes stand for the end of the stream. -/
inductive RecvResult where
  | bytes (received : List UInt8)
  | error (errno : Int)
  deriving DecidableEq, Repr

/-- A call of `decode` of the decoder of a topic. -/
structure DecodeCall where
  topic : String
  data : List UInt8
  deriving DecidableEq, Repr

/-- An accepted connection. The topic is the one that its peer was mapped to, `received` what
`recv` has returned on it, and `erased` counts the bytes that went out of its buffer again. -/
structure ClientConnection where
  fd : Nat
  peer : SockaddrIn
  topic : Option String
  received : List UInt8
  erased : Nat
  decodes : List DecodeCall
  deriving DecidableEq, Repr

/-- A call of `accept_client` that has found its address and waits for the lock. -/
structure AcceptCall where
  topic : String
  token : String
  deriving DecidableEq, Repr

/-- The members of a `TCPServer`. `epoll` are the descriptors it polls, and `connections` those
that it has not closed. A server is `outside` when it has used an index that its vector lacks;
nothing is known of it then. -/
structure TCPServer where
  decoders : List String
  addrToTopic : String → Option String
  fdToAddr : List String
  fdReceiveData : List (List UInt8)
  unmappedAddrToFd : String → Option Nat
  epoll : List Nat
  accepting : List AcceptCall
  connections : List ClientConnection
  closed : List ClientConnection
  outside : Bool

/-- A run of `accept_new_client` with what `accept` and `set_nonblock` return, a count test of
`accept_client`, the rest of such a call with the result of `add_epoll_event`, a new decoder,
or an event of a client with what the calls of `recv` return. -/
inductive ServerAction where
  | acceptNewClient (accepted : Option (Nat × SockaddrIn)) (nonblocking : Bool)
  | acceptClient (topic ip : String) (port : Int)
  | acceptLocked (index : Nat) (added : Bool)
  | addDecoder (topic : String)
  | clientEvent (fd : Nat) (hangUp : Bool) (results : List RecvResult)
  deriving DecidableEq, Repr

/-- What `erase(0, delete_size)` takes away. A negative count is a large `size_t`. -/
def erasedSize (data : List UInt8) (deleteSize : Int) : Nat :=
  if deleteSize < 0 then data.length else min deleteSize.toNat data.length

namespace ClientConnection

def accepted (fd : Nat) (peer : SockaddrIn) : ClientConnection where
  fd := fd
  peer := peer
  topic := none
  received := []
  erased := 0
  decodes := []

def map (connection : ClientConnection) (topic : String) : ClientConnection :=
  { connection with topic := some topic }

def receive (connection : ClientConnection) (call : DecodeCall) (chunk : List UInt8)
    (erased : Nat) : ClientConnection :=
  { connection with
    received := connection.received ++ chunk
    erased := connection.erased + erased
    decodes := connection.decodes ++ [call] }

end ClientConnection

namespace TCPServer

def initial : TCPServer where
  decoders := []
  addrToTopic _ := none
  fdToAddr := List.replicate 100 ""
  fdReceiveData := []
  unmappedAddrToFd _ := none
  epoll := []
  accepting := []
  connections := []
  closed := []
  outside := false

def indexOutside (server : TCPServer) : TCPServer := { server with outside := true }

/-- `accept_new_client` on a new descriptor. A string of a null pointer ends the process. -/
def storeClient (server : TCPServer) (clientFd : Nat) (addr : SockaddrIn) : Option TCPServer :=
  (inetNtop addr.sinAddr 15).map fun srcIp =>
    let fdToAddr := grow server.fdToAddr "" clientFd
    let token := token srcIp addr.sinPort.toNat
    if clientFd < fdToAddr.length then
      { server with
        fdToAddr := fdToAddr.set clientFd token
        unmappedAddrToFd := Function.update server.unmappedAddrToFd token (some clientFd)
        connections := server.connections ++ [ClientConnection.accepted clientFd addr] }
    else server.indexOutside

/-- A client that cannot be made non-blocking is closed at once. -/
def acceptNewClient (server : TCPServer) : Option (Nat × SockaddrIn) → Bool → Option TCPServer
  | some (clientFd, addr), true => server.storeClient clientFd addr
  | _, _ => some server

/-- The count test of `accept_client`. A call that does not find its address tests again later. -/
def acceptClient (server : TCPServer) (topic ip : String) (port : Int) : TCPServer :=
  if (server.unmappedAddrToFd (token ip port)).isSome then
    { server with accepting := server.accepting ++ [⟨topic, token ip port⟩] }
  else server

/-- The part of `accept_client` under the lock. `operator[]` makes a missing descriptor 0. -/
def acceptLocked (server : TCPServer) (call : AcceptCall) (added : Bool) : TCPServer :=
  let fd := (server.unmappedAddrToFd call.token).getD 0
  let fdReceiveData := grow server.fdReceiveData [] fd
  if fd < fdReceiveData.length then
    { server with
      addrToTopic := Function.update server.addrToTopic call.token (some call.topic)
      fdReceiveData := fdReceiveData.set fd []
      epoll := if added && !server.epoll.contains fd then server.epoll ++ [fd] else server.epoll
      unmappedAddrToFd := Function.update server.unmappedAddrToFd call.token none
      connections := server.connections.map fun connection =>
        if connection.peer.token = call.token ∧ connection.topic = none then
          connection.map call.topic
        else connection }
  else server.indexOutside

def closeAndDeleteEvent (server : TCPServer) (fd : Nat) : TCPServer :=
  match server.fdToAddr[fd]?, server.fdReceiveData[fd]? with
  | some token, some _ =>
      { server with
        unmappedAddrToFd := Function.update server.unmappedAddrToFd token none
        addrToTopic := Function.update server.addrToTopic token none
        fdToAddr := server.fdToAddr.set fd ""
        fdReceiveData := server.fdReceiveData.set fd []
        epoll := server.epoll.filter (· ≠ fd)
        connections := server.connections.filter (·.fd ≠ fd)
        closed := server.closed ++ server.connections.filter (·.fd = fd) }
  | _, _ => server.indexOutside

/-- The count that `decode` of the decoder of a topic returns on a buffer. -/
abbrev DecodeResult := String → List UInt8 → Int

variable (decode : DecodeResult)

/-- The bytes of one `recv` go to the buffer of the descriptor and to the decoder. -/
def receive (server : TCPServer) (fd : Nat) (topic : String) (chunk : List UInt8) : TCPServer :=
  match server.fdReceiveData[fd]? with
  | none => server.indexOutside
  | some buffered =>
      let data := buffered ++ chunk
      let erased := erasedSize data (decode topic data)
      { server with
        fdReceiveData := server.fdReceiveData.set fd (data.drop erased)
        connections := server.connections.map fun connection =>
          if connection.fd = fd then connection.receive ⟨topic, data⟩ chunk erased
          else connection }

def recvLoop (fd : Nat) (topic : String) : TCPServer → List RecvResult → TCPServer
  | server, [] => server
  | server, .error errno :: _ =>
      if errno = EAGAIN then server else server.closeAndDeleteEvent fd
  | server, .bytes [] :: _ => server.closeAndDeleteEvent fd
  | server, .bytes chunk :: rest => recvLoop fd topic (server.receive decode fd topic chunk) rest

def handleClientEvent (server : TCPServer) (clientFd : Nat) (hangUp : Bool)
    (results : List RecvResult) : TCPServer :=
  match server.fdToAddr[clientFd]? with
  | none => server.indexOutside
  | some clientAddr =>
      if hangUp then server.closeAndDeleteEvent clientFd
      else
        match server.addrToTopic clientAddr with
        | none => server
        | some topic =>
            if server.decoders.contains topic then recvLoop decode clientFd topic server results
            else server

/-- `accept` returns a descriptor that is not open, and connections open at once have
different peers. -/
def Accepts (server : TCPServer) (accepted : Option (Nat × SockaddrIn)) : Prop :=
  ∀ client ∈ accepted, ∀ connection ∈ server.connections,
    connection.fd ≠ client.1 ∧ connection.peer ≠ client.2

instance (server : TCPServer) (accepted : Option (Nat × SockaddrIn)) :
    Decidable (server.Accepts accepted) :=
  inferInstanceAs (Decidable (∀ client ∈ accepted, _))

def step (server : TCPServer) (action : ServerAction) : Option TCPServer :=
  if server.outside then none
  else
    match action with
    | .acceptNewClient accepted nonblocking =>
        if server.Accepts accepted then server.acceptNewClient accepted nonblocking else none
    | .acceptClient topic ip port => some (server.acceptClient topic ip port)
    | .acceptLocked index added =>
        (server.accepting[index]?).map fun call =>
          { server.acceptLocked call added with accepting := server.accepting.eraseIdx index }
    | .addDecoder topic => some { server with decoders := server.decoders ++ [topic] }
    | .clientEvent fd hangUp results =>
        if server.epoll.contains fd then some (server.handleClientEvent decode fd hangUp results)
        else none

def machine : Machine TCPServer ServerAction := ⟨step decode⟩

end TCPServer

/-! ## The decoders -/

theorem SpecifiedDecoder.decode_eq_ok {Message Callback : Type} {type : MessageType Message}
    {decoder after : SpecifiedDecoder Message Callback} {buf : List UInt8} {consumed : Int}
    (decoded : decoder.decode type buf = .ok (consumed, after)) :
    ∃ msgs, decodeLoop type buf (int32 buf.length) (buf.length + 1) 0 0 = .ok (consumed, msgs) := by
  unfold SpecifiedDecoder.decode at decoded
  cases looped : decodeLoop type buf (int32 buf.length) (buf.length + 1) 0 0 with
  | error outside =>
      rw [looped] at decoded
      cases decoded
  | ok result =>
      rw [looped] at decoded
      cases decoded
      exact ⟨result.2, rfl⟩

theorem Receiver.receive_eq_ok {Message Callback : Type} {type : MessageType Message}
    {receiver next : Receiver Message Callback} {chunk : List UInt8}
    (received : receiver.receive type chunk = .ok next) :
    ∃ consumed after, receiver.decoder.decode type (receiver.fdReceiveData ++ chunk) =
      .ok (consumed, after) ∧
        next.fdReceiveData = (receiver.fdReceiveData ++ chunk).drop consumed.toNat := by
  unfold Receiver.receive at received
  cases decoded : receiver.decoder.decode type (receiver.fdReceiveData ++ chunk) with
  | error outside =>
      simp only [decoded] at received
      cases received
  | ok result =>
      simp only [decoded] at received
      cases received
      exact ⟨result.1, result.2, rfl, rfl⟩

namespace TCPServer

theorem receive_buffer (decode : DecodeResult) {server : TCPServer} {fd : Nat} {topic : String}
    {chunk buffered : List UInt8} (holds : server.fdReceiveData[fd]? = some buffered) :
    (server.receive decode fd topic chunk).fdReceiveData[fd]? = some ((buffered ++ chunk).drop
      (erasedSize (buffered ++ chunk) (decode topic (buffered ++ chunk)))) := by
  unfold TCPServer.receive
  simp only [holds, List.getElem?_set_self (List.getElem?_eq_some_iff.mp holds).1]

def consumedOf {Message : Type} : Except OutsideBuffer (Int × List Message) → Int
  | .ok (consumed, _) => consumed
  | .error _ => 0

/-- The counts of decoders of given message types. -/
def deleteSize {Message : Type} (types : String → MessageType Message) (topic : String)
    (buf : List UInt8) : Int :=
  consumedOf
    (SpecifiedDecoder.decodeLoop (types topic) buf (int32 buf.length) (buf.length + 1) 0 0)

/-- With these decoders, the buffer of a descriptor is that of a receiver. -/
theorem receive_receiver {Message Callback : Type} (types : String → MessageType Message)
    {server : TCPServer} {fd : Nat} {topic : String} {chunk : List UInt8}
    {receiver next : Receiver Message Callback}
    (holds : server.fdReceiveData[fd]? = some receiver.fdReceiveData)
    (received : receiver.receive (types topic) chunk = .ok next)
    (counted : 0 ≤ deleteSize types topic (receiver.fdReceiveData ++ chunk)) :
    (server.receive (deleteSize types) fd topic chunk).fdReceiveData[fd]? =
      some next.fdReceiveData := by
  obtain ⟨consumed, after, decoded, left⟩ := Receiver.receive_eq_ok received
  obtain ⟨msgs, looped⟩ := SpecifiedDecoder.decode_eq_ok decoded
  have count : deleteSize types topic (receiver.fdReceiveData ++ chunk) = consumed :=
    congrArg consumedOf looped
  rw [count] at counted
  rw [receive_buffer (deleteSize types) holds, count, left, erasedSize,
    if_neg (Int.not_lt.mpr counted), ← List.drop_eq_drop_min]

end TCPServer

end ProtoCore.Topic
