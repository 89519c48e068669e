import ProtoCore.Topic.EventLoop

/-!
# What a server delivers

A connection shares its server with all the others, and its descriptor with those before it.
It still goes through what it would go through alone: it is accepted, mapped to a topic once,
and receives chunks, each of which its decoder is given behind the rest of the last one.
-/

set_option autoImplicit false

namespace ProtoCore.Topic

open Library Library.FrameStream

/-- The states of a connection that nothing else touches, in chunks of bounded size. -/
inductive ClientConnection.Lived (decode : TCPServer.DecodeResult) (most : Nat) :
    ClientConnection → Prop where
  | accepted (fd : Nat) (peer : SockaddrIn) : Lived decode most (accepted fd peer)
  | mapped {connection : ClientConnection} (topic : String) (lived : Lived decode most connection)
      (waits : connection.topic = none) : Lived decode most (connection.map topic)
  | received {connection : ClientConnection} {topic : String} {chunk data : List UInt8}
      (lived : Lived decode most connection) (topical : connection.topic = some topic)
      (chunked : chunk.length ≤ most)
      (behind : data = connection.received.drop connection.erased ++ chunk) :
      Lived decode most
        (connection.receive ⟨topic, data⟩ chunk (erasedSize data (decode topic data)))

namespace TCPServer

def Chunked (most : Nat) : ServerAction → Prop
  | .clientEvent _ _ results => ∀ chunk, .bytes chunk ∈ results → chunk.length ≤ most
  | _ => True

def AllLived (decode : DecodeResult) (most : Nat) (server : TCPServer) : Prop :=
  ∀ connection ∈ server.connections ++ server.closed, connection.Lived decode most

section Steps

variable {decode : DecodeResult} {most : Nat} {server next : TCPServer}

theorem AllLived.close (all : server.AllLived decode most) (fd : Nat) :
    (server.closeAndDeleteEvent fd).AllLived decode most := by
  unfold closeAndDeleteEvent
  split
  · intro connection member
    apply all
    rcases List.mem_append.mp member with kept | ended
    · exact List.mem_append_left _ (List.mem_filter.mp kept).1
    · rcases List.mem_append.mp ended with before | now
      · exact List.mem_append_right _ before
      · exact List.mem_append_left _ (List.mem_filter.mp now).1
  · exact all

theorem AllLived.receive (all : server.AllLived decode most) (joined : server.Joined)
    {chosen : ClientConnection} {topic : String} {chunk : List UInt8}
    (listed : chosen ∈ server.connections) (topical : chosen.topic = some topic)
    (chunked : chunk.length ≤ most) :
    (server.receive decode chosen.fd topic chunk).AllLived decode most := by
  have located := joined.buffered.buffer chosen listed (by rw [topical]; simp)
  rw [receive_eq located]
  intro connection member
  rcases List.mem_append.mp member with opened | ended
  · rcases (joined.addressed.mem_receive listed _ _ _ _).mp opened with rfl | ⟨earlier, _⟩
    · exact .received (all chosen (List.mem_append_left _ listed)) topical chunked rfl
    · exact all connection (List.mem_append_left _ earlier)
  · exact all connection (List.mem_append_right _ ended)

theorem AllLived.recvLoop {topic : String} (results : List RecvResult)
    (all : server.AllLived decode most) (joined : server.Joined) {chosen : ClientConnection}
    (listed : chosen ∈ server.connections) (topical : chosen.topic = some topic)
    (chunked : ∀ chunk, .bytes chunk ∈ results → chunk.length ≤ most) :
    (recvLoop decode chosen.fd topic server results).AllLived decode most := by
  induction results generalizing server chosen with
  | nil => exact all
  | cons result rest ih =>
      cases result with
      | error errno =>
          unfold TCPServer.recvLoop
          split
          · exact all
          · exact all.close chosen.fd
      | bytes received =>
          cases received with
          | nil => exact all.close chosen.fd
          | cons byte chunk =>
              obtain ⟨later, connection, member, fd, remains⟩ :=
                joined.receive decode (byte :: chunk) listed topical
              have lived := all.receive joined listed topical
                (chunked (byte :: chunk) List.mem_cons_self)
              unfold TCPServer.recvLoop
              rw [← fd] at later member lived ⊢
              exact ih lived later member remains fun other also =>
                chunked other (List.mem_cons_of_mem _ also)

theorem AllLived.clientEvent (all : server.AllLived decode most) (joined : server.Joined)
    {fd : Nat} (polled : fd ∈ server.epoll) {hangUp : Bool} {results : List RecvResult}
    (chunked : ∀ chunk, .bytes chunk ∈ results → chunk.length ≤ most) :
    (server.handleClientEvent decode fd hangUp results).AllLived decode most := by
  obtain ⟨chosen, listed, rfl, mapped⟩ := joined.addressed.polled fd polled
  obtain ⟨topic, topical⟩ := Option.ne_none_iff_exists'.mp mapped
  have named := joined.addressed.address chosen listed
  have found := (joined.addressed.topic chosen listed).trans topical
  unfold handleClientEvent
  simp only [named, found]
  split
  · exact all.close chosen.fd
  · split
    · exact all.recvLoop results joined listed topical chunked
    · exact all

theorem AllLived.storeClient (all : server.AllLived decode most) {clientFd : Nat}
    {addr : SockaddrIn} (near : Reaches server.fdToAddr clientFd)
    (stored : server.storeClient clientFd addr = some next) : next.AllLived decode most := by
  cases storeClient_eq_some near stored
  intro connection member
  rw [List.append_assoc] at member
  rcases List.mem_append.mp member with opened | member
  · exact all connection (List.mem_append_left _ opened)
  · rcases List.mem_append.mp member with last | ended
    · cases List.mem_singleton.mp last
      exact .accepted clientFd addr
    · exact all connection (List.mem_append_right _ ended)

theorem AllLived.acceptLocked (all : server.AllLived decode most) (joined : server.Joined)
    {call : AcceptCall} {fd : Nat} (found : server.unmappedAddrToFd call.token = some fd)
    (near : Reaches server.fdReceiveData fd) (added : Bool) :
    (server.acceptLocked call added).AllLived decode most := by
  obtain ⟨chosen, listed, named, _, waits⟩ := joined.addressed.unmapped _ fd found
  rw [acceptLocked_eq found near added]
  intro connection member
  rcases List.mem_append.mp member with opened | ended
  · rcases (joined.addressed.mem_acceptLocked listed named waits _).mp opened with
      rfl | ⟨earlier, _⟩
    · exact .mapped call.topic (all chosen (List.mem_append_left _ listed)) waits
    · exact all connection (List.mem_append_left _ earlier)
  · exact all connection (List.mem_append_right _ ended)

theorem AllLived.step {action : ServerAction} (all : server.AllLived decode most)
    (joined : server.Joined) (inOrder : server.InOrder action) (chunked : Chunked most action)
    (stepped : server.step decode action = some next) : next.AllLived decode most := by
  have running : ¬ server.outside = true := by
    rw [joined.inside]
    exact Bool.false_ne_true
  simp only [TCPServer.step, if_neg running] at stepped
  cases action with
  | acceptNewClient accepted nonblocking =>
      obtain ⟨_, stepped⟩ := Option.ite_none_right_eq_some.mp stepped
      unfold TCPServer.acceptNewClient at stepped
      split at stepped
      · exact all.storeClient inOrder.1 stepped
      · cases stepped
        exact all
  | acceptClient topic ip port =>
      cases stepped
      unfold TCPServer.acceptClient
      split
      · exact all
      · exact all
  | acceptLocked index added =>
      obtain ⟨call, waiting, rfl⟩ := Option.map_eq_some_iff.mp stepped
      obtain ⟨fd, found, near⟩ := inOrder.found waiting
      exact all.acceptLocked joined found near added
  | addDecoder topic =>
      cases stepped
      exact all
  | clientEvent fd hangUp results =>
      obtain ⟨polled, stepped⟩ := Option.ite_none_right_eq_some.mp stepped
      cases stepped
      exact all.clientEvent joined (List.contains_iff_mem.mp polled) chunked

end Steps

end TCPServer

namespace EventLoop

variable {srvFd : Nat} {decode : TCPServer.DecodeResult}

/-- No `recv` of the loop returns more than its buffer takes. -/
theorem chunked_of_step {loop next : EventLoop} {action : LoopAction}
    (upToDate : loop.UpToDate srvFd) (stepped : loop.step srvFd decode action = some next) :
    ∀ step ∈ loop.serverAction action, TCPServer.Chunked maxBufferSize step := by
  intro step member
  unfold serverAction at member
  split at member
  · cases member
  · cases member
  · cases member
  · cases member
  · cases List.mem_singleton.mp member
    trivial
  · rename_i results
    split at member
    · cases member
    · rename_i event rest first
      cases List.mem_singleton.mp member
      have running : ¬ loop.server.outside = true := by
        rw [upToDate.joined.inside]
        exact Bool.false_ne_true
      simp only [EventLoop.step, if_neg running, first] at stepped
      split at stepped
      · obtain ⟨_, stepped⟩ := Option.ite_none_left_eq_some.mp stepped
        unfold EventLoop.clientEvent at stepped
        obtain ⟨fills, _⟩ := Option.ite_none_right_eq_some.mp stepped
        intro chunk received
        exact Nat.le_trans (fills _ received) upToDate.bufSize.2
      · cases stepped
  · cases List.mem_singleton.mp member
    trivial
  · cases List.mem_singleton.mp member
    trivial
  · cases List.mem_singleton.mp member
    trivial

theorem serverAction_cases (loop : EventLoop) (action : LoopAction) :
    loop.serverAction action = [] ∨ ∃ step, loop.serverAction action = [step] := by
  unfold serverAction
  split
  · exact .inl rfl
  · exact .inl rfl
  · exact .inl rfl
  · exact .inl rfl
  · exact .inr ⟨_, rfl⟩
  · split
    · exact .inl rfl
    · exact .inr ⟨_, rfl⟩
  · exact .inr ⟨_, rfl⟩
  · exact .inr ⟨_, rfl⟩
  · exact .inr ⟨_, rfl⟩

theorem allLived_step {loop next : EventLoop} {action : LoopAction}
    (upToDate : loop.UpToDate srvFd) (all : loop.server.AllLived decode maxBufferSize)
    (inOrder : loop.InOrder action) (stepped : loop.step srvFd decode action = some next) :
    next.server.AllLived decode maxBufferSize := by
  have executed := (upToDate.step inOrder stepped).1
  have chunked := chunked_of_step upToDate stepped
  rcases loop.serverAction_cases action with nothing | ⟨step, alone⟩
  · rw [nothing] at executed
    have same : loop.server = next.server := Option.some.inj executed
    rw [← same]
    exact all
  · rw [alone] at executed
    obtain ⟨server, acted, ended⟩ := Machine.exec_cons_eq_some _ executed
    cases ended
    have member : step ∈ loop.serverAction action := by
      rw [alone]
      exact List.mem_singleton_self step
    exact all.step upToDate.joined (inOrder step member) (chunked step member) acted

theorem allLived (srvFd : Nat) (decode : TCPServer.DecodeResult) (run : List LoopAction)
    (inOrder : (machine srvFd decode).Obeys InOrder initial run) :
    (machine srvFd decode).Along (fun loop =>
      loop.UpToDate srvFd ∧ loop.server.AllLived decode maxBufferSize) initial run := by
  refine (machine srvFd decode).along_of_obeys ?_ ⟨upToDate_initial srvFd, ?_⟩ inOrder
  · rintro loop action next ⟨upToDate, all⟩ allowed stepped
    exact ⟨(upToDate.step allowed stepped).2, allLived_step upToDate all allowed stepped⟩
  · intro connection member
    cases member

end EventLoop

/-! ## A connection that a publisher writes to -/

section Delivery

variable {Message : Type} (types : String → MessageType Message)

def messagesOf : Except OutsideBuffer (Int × List Message) → List Message
  | .ok (_, msgs) => msgs
  | .error _ => []

/-- What a call of `decode` puts on the queue of its decoder. -/
def DecodeCall.messages (call : DecodeCall) : List Message :=
  messagesOf (SpecifiedDecoder.decodeLoop (types call.topic) call.data (int32 call.data.length)
    (call.data.length + 1) 0 0)

def ClientConnection.messages (connection : ClientConnection) : List Message :=
  connection.decodes.flatMap (DecodeCall.messages types)

variable {types}

theorem SpecifiedDecoder.decodeLoop_of_decode {type : MessageType Message} {buf : List UInt8}
    {consumed : Int} {msgs : List Message}
    (decoded : ∀ decoder : SpecifiedDecoder Message Unit,
      decoder.decode type buf = .ok (consumed, { decoder with msgs := decoder.msgs ++ msgs })) :
    decodeLoop type buf (int32 buf.length) (buf.length + 1) 0 0 = .ok (consumed, msgs) := by
  have empty := decoded ⟨[], []⟩
  unfold SpecifiedDecoder.decode at empty
  cases looped : decodeLoop type buf (int32 buf.length) (buf.length + 1) 0 0 with
  | error outside =>
      rw [looped] at empty
      cases empty
  | ok result =>
      rw [looped] at empty
      cases empty
      rfl

namespace ClientConnection

variable {decode : TCPServer.DecodeResult} {most : Nat} {connection : ClientConnection}

theorem Lived.untouched (lived : connection.Lived decode most) (waits : connection.topic = none) :
    connection.received = [] ∧ connection.erased = 0 ∧ connection.decodes = [] := by
  cases lived with
  | accepted fd peer => exact ⟨rfl, rfl, rfl⟩
  | mapped topic lived before => cases waits
  | received lived topical chunked behind => cases topical.symm.trans waits

theorem Lived.erased_le (lived : connection.Lived decode most) :
    connection.erased ≤ connection.received.length := by
  induction lived with
  | accepted fd peer => exact Nat.le_refl _
  | mapped topic lived waits ih => exact ih
  | @received connection topic chunk data lived topical chunked behind ih =>
      have inside := TCPServer.erasedSize_le data (decode topic data)
      rw [behind, List.length_append, List.length_drop] at inside
      change connection.erased + erasedSize data (decode topic data) ≤
        (connection.received ++ chunk).length
      rw [List.length_append, behind]
      omega

/-- Alone with the stream of a publisher, a connection has decoded its complete frames. -/
theorem Lived.delivers (roundTrip : ∀ topic, (types topic).RoundTrip)
    (lived : connection.Lived (TCPServer.deleteSize types) maxBufferSize) {topic : String}
    (topical : connection.topic = some topic) {messages : List Message}
    (fits : ∀ message ∈ messages, (types topic).Fits message)
    (initial : connection.received <+: stream (types topic).serialize messages) :
    ∃ count, Cut (types topic).serialize messages connection.received count
        (connection.received.drop connection.erased) ∧
      connection.messages types = messages.take count := by
  induction lived with
  | accepted fd peer => cases topical
  | @mapped connection own lived waits ih =>
      obtain ⟨received, erased, decodes⟩ := lived.untouched waits
      have nothing : Cut (types topic).serialize messages [] 0 [] := by
        refine Cut.none messages fun next _ => ?_
        rw [(types topic).serialize_length, List.length_nil]
        omega
      refine ⟨0, ?_, ?_⟩
      · change Cut _ _ connection.received 0 (connection.received.drop connection.erased)
        rw [received, List.drop_nil]
        exact nothing
      · change connection.decodes.flatMap (DecodeCall.messages types) = messages.take 0
        rw [decodes]
        rfl
  | @received connection _ chunk data lived mapped chunked behind ih =>
      cases mapped.symm.trans topical
      obtain ⟨count, cut, decoded⟩ := ih mapped ((List.prefix_append _ _).trans initial)
      obtain ⟨further, consumed, later, nextCut, inside, erased, ran⟩ :=
        @SpecifiedDecoder.decode_chunk Message Unit (types topic) (roundTrip topic) messages _ _ _ _
          fits chunked cut initial
      rw [← behind] at inside erased ran
      have looped := SpecifiedDecoder.decodeLoop_of_decode ran
      have counted : erasedSize data (TCPServer.deleteSize types topic data) = consumed := by
        unfold TCPServer.deleteSize
        rw [looped]
        change erasedSize data consumed = consumed
        unfold erasedSize
        rw [if_neg (by omega), Int.toNat_natCast]
        exact Nat.min_eq_left inside
      refine ⟨count + further, ?_, ?_⟩
      · change Cut _ _ (connection.received ++ chunk) _ ((connection.received ++ chunk).drop
          (connection.erased + erasedSize data (TCPServer.deleteSize types topic data)))
        rw [counted, ← List.drop_drop, List.drop_append_of_le_length lived.erased_le, ← behind,
          erased]
        exact nextCut
      · have here : DecodeCall.messages types ⟨topic, data⟩ =
            (messages.drop count).take further := congrArg messagesOf looped
        change (connection.decodes ++ [DecodeCall.mk topic data]).flatMap (DecodeCall.messages types) = _
        rw [List.flatMap_append, List.flatMap_singleton, here, List.take_add, ← decoded]
        rfl

end ClientConnection

/-- Whatever shares the loop with it, a connection whose publisher writes its stream has all the
complete frames decoded in order, and the beginning of the next one in its buffer. -/
theorem EventLoop.delivers_streams (srvFd : Nat)
    (roundTrip : ∀ topic, (types topic).RoundTrip) (run : List LoopAction)
    (inOrder : (EventLoop.machine srvFd (TCPServer.deleteSize types)).Obeys EventLoop.InOrder
      EventLoop.initial run) :
    (EventLoop.machine srvFd (TCPServer.deleteSize types)).Along (fun loop =>
      ∀ connection ∈ loop.server.connections ++ loop.server.closed, ∀ topic,
        connection.topic = some topic → ∀ messages : List Message,
        (∀ message ∈ messages, (types topic).Fits message) →
        connection.received <+: stream (types topic).serialize messages →
        ∃ count rest, Cut (types topic).serialize messages connection.received count rest ∧
          connection.messages types = messages.take count ∧
          (connection ∈ loop.server.connections →
            loop.server.fdReceiveData[connection.fd]? = some rest))
      EventLoop.initial run := by
  refine (EventLoop.allLived srvFd _ run inOrder).mono ?_
  rintro loop ⟨upToDate, all⟩ connection member topic topical messages fits initial
  obtain ⟨count, cut, decoded⟩ := (all connection member).delivers roundTrip topical fits initial
  exact ⟨count, _, cut, decoded, fun opened =>
    upToDate.joined.buffered.buffer connection opened (by rw [topical]; simp)⟩

end Delivery

/-- Two publishers of two topics, whose frames are cut in the middle of a batch. -/
def EventLoop.twoPublishers : List LoopAction :=
  [.addDecoder "bumper", .addDecoder "switch",
    .poll [(listening, false)], .lock,
    .acceptEvent (.client 5 ⟨⟨127, 0, 0, 1⟩, 40000⟩ true),
    .poll [(listening, false)], .lock,
    .acceptEvent (.client 6 ⟨⟨127, 0, 0, 1⟩, 40001⟩ true),
    .acceptClient "bumper" "127.0.0.1" 40000, .acceptClient "switch" "127.0.0.1" 40001,
    .acceptLocked 0 true, .acceptLocked 0 true,
    .poll [(6, false), (5, false)], .lock,
    .clientEvent [.bytes [0, 0, 0, 0, 2, 0], .error EAGAIN],
    .clientEvent [.bytes [2, 0, 0], .bytes [0, 8, 1, 2], .error EAGAIN],
    .poll [(6, false)], .lock, .clientEvent [.bytes [0, 0, 8, 1], .error EAGAIN]]

theorem EventLoop.delivers_streams_twoPublishers :
    (EventLoop.machine listening TCPServer.flagDecoders).Along (fun loop =>
      ∀ connection ∈ loop.server.connections ++ loop.server.closed, ∀ topic,
        connection.topic = some topic → ∀ messages : List Bool,
        (∀ message ∈ messages, Receiver.flagType.Fits message) →
        connection.received <+: stream Receiver.flagType.serialize messages →
        ∃ count rest, Cut Receiver.flagType.serialize messages connection.received count rest ∧
          connection.messages (fun _ => Receiver.flagType) = messages.take count ∧
          (connection ∈ loop.server.connections →
            loop.server.fdReceiveData[connection.fd]? = some rest))
      EventLoop.initial twoPublishers ∧
      ((EventLoop.machine listening TCPServer.flagDecoders).exec EventLoop.initial
        twoPublishers).map (fun loop => loop.server.connections.map
          (ClientConnection.messages fun _ => Receiver.flagType)) =
        some [[true], [false, true]] :=
  ⟨delivers_streams listening (fun _ => Receiver.flagType_roundTrip) twoPublishers
    (by decide +kernel), by decide +kernel⟩

end ProtoCore.Topic
