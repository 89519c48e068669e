import ProtoCore.Topic.ClientSockets
import ProtoCore.Topic.ConnectionIsolation
import ProtoCore.Topic.StreamIntegrity

/-!
# Vectors indexed by descriptors

A node keeps three vectors by descriptor. Each is grown by 100, once, when a descriptor comes
that it has no room for; every other access relies on that. The descriptors are those of the
process, so a new one can be any number.
-/

set_option autoImplicit false

namespace ProtoCore.Topic

open Library

/-- The sockets of a node: the server of its subscriptions and the client of its topics. -/
structure NodeSockets where
  server : TCPServer
  client : ClientSockets

/-- In an `accept` the descriptor is any that `accept` can return. -/
inductive NodeAction where
  | accept (accepted : Option (Nat × SockaddrIn)) (nonblocking : Bool)
  | server (action : ServerAction)
  | client (action : SocketAction)
  deriving DecidableEq, Repr

namespace NodeSockets

variable (decode : TCPServer.DecodeResult)

def initial : NodeSockets where
  server := .initial
  client := .initial

def step (node : NodeSockets) : NodeAction → Option NodeSockets
  | .accept accepted nonblocking =>
      if node.server.outside then none
      else (node.server.acceptNewClient accepted nonblocking).map fun server =>
        { node with server := server }
  | .server action => (node.server.step decode action).map fun server =>
      { node with server := server }
  | .client action => (node.client.step action).map fun client => { node with client := client }

def machine : Machine NodeSockets NodeAction := ⟨step decode⟩

/-- No vector has been used with an index that it lacks. -/
def InRange (node : NodeSockets) : Prop :=
  node.server.outside = false ∧ node.client.outside = false

end NodeSockets

/-- One growth makes room for the descriptor, and no iteration comes to a socket that has been
registered and has no room yet. -/
def ClientSockets.InReach (sockets : ClientSockets) : SocketAction → Prop
  | .resize index => ∀ thread ∈ sockets.threadAt index .resize,
      Reaches sockets.publishing.client.clientsData thread.2
  | .writeNext _ => ∀ loop ∈ sockets.loop, ∀ fd ∈ loop.fds.head?, ∀ attempt ∈ sockets.attempts,
      attempt.fd = some fd → attempt.stage = .resize →
        fd < sockets.publishing.client.clientsData.length
  | _ => True

def NodeSockets.InReach (node : NodeSockets) : NodeAction → Prop
  | .accept accepted nonblocking => node.server.InReach (.acceptNewClient accepted nonblocking)
  | .server action => node.server.InReach action
  | .client action => node.client.InReach action

/-! ## The server -/

namespace TCPServer

/-- Descriptors that are polled have room in both vectors, and unmapped ones in the first. -/
structure Roomy (server : TCPServer) : Prop where
  inside : server.outside = false
  polled : ∀ fd ∈ server.epoll, fd < server.fdToAddr.length ∧ fd < server.fdReceiveData.length
  unmapped : ∀ addr fd, server.unmappedAddrToFd addr = some fd → fd < server.fdToAddr.length
  first : 0 < server.fdToAddr.length

/-- The event of a client leaves the vectors as long as they are. -/
structure SameRoom (before after : TCPServer) : Prop where
  outside : after.outside = before.outside
  fdToAddr : after.fdToAddr.length = before.fdToAddr.length
  fdReceiveData : after.fdReceiveData.length = before.fdReceiveData.length
  polled : ∀ fd ∈ after.epoll, fd ∈ before.epoll
  unmapped : ∀ addr fd, after.unmappedAddrToFd addr = some fd →
    before.unmappedAddrToFd addr = some fd

theorem SameRoom.refl (server : TCPServer) : SameRoom server server :=
  ⟨rfl, rfl, rfl, fun _ member => member, fun _ _ found => found⟩

theorem SameRoom.trans {first second third : TCPServer} (left : SameRoom first second)
    (right : SameRoom second third) : SameRoom first third where
  outside := right.outside.trans left.outside
  fdToAddr := right.fdToAddr.trans left.fdToAddr
  fdReceiveData := right.fdReceiveData.trans left.fdReceiveData
  polled fd member := left.polled fd (right.polled fd member)
  unmapped addr fd found := left.unmapped addr fd (right.unmapped addr fd found)

theorem Roomy.same {before after : TCPServer} (roomy : before.Roomy)
    (same : SameRoom before after) : after.Roomy where
  inside := same.outside.trans roomy.inside
  polled fd member := by
    rw [same.fdToAddr, same.fdReceiveData]
    exact roomy.polled fd (same.polled fd member)
  unmapped addr fd found := by
    rw [same.fdToAddr]
    exact roomy.unmapped addr fd (same.unmapped addr fd found)
  first := by
    rw [same.fdToAddr]
    exact roomy.first

theorem closeAndDeleteEvent_sameRoom {server : TCPServer} {fd : Nat}
    (named : fd < server.fdToAddr.length) (buffered : fd < server.fdReceiveData.length) :
    SameRoom server (server.closeAndDeleteEvent fd) := by
  unfold TCPServer.closeAndDeleteEvent
  rw [List.getElem?_eq_getElem named, List.getElem?_eq_getElem buffered]
  refine ⟨rfl, List.length_set .., List.length_set .., ?_, ?_⟩
  · intro other member
    exact List.mem_of_mem_filter member
  · intro addr other found
    by_cases same : addr = server.fdToAddr[fd]
    · simp only [same, Function.update_self] at found
      cases found
    · simp only [Function.update_of_ne same] at found
      exact found

theorem receive_sameRoom (decode : DecodeResult) {server : TCPServer} {fd : Nat}
    (buffered : fd < server.fdReceiveData.length) (topic : String) (chunk : List UInt8) :
    SameRoom server (server.receive decode fd topic chunk) := by
  unfold TCPServer.receive
  rw [List.getElem?_eq_getElem buffered]
  exact ⟨rfl, rfl, List.length_set .., fun _ member => member, fun _ _ found => found⟩

theorem recvLoop_sameRoom (decode : DecodeResult) {server : TCPServer} {fd : Nat}
    (named : fd < server.fdToAddr.length) (buffered : fd < server.fdReceiveData.length)
    (topic : String) (results : List RecvResult) :
    SameRoom server (recvLoop decode fd topic server results) := by
  induction results generalizing server with
  | nil => exact .refl server
  | cons result rest ih =>
      cases result with
      | error errno =>
          unfold recvLoop
          split
          · exact .refl server
          · exact closeAndDeleteEvent_sameRoom named buffered
      | bytes received =>
          cases received with
          | nil => exact closeAndDeleteEvent_sameRoom named buffered
          | cons byte chunk =>
              have once := receive_sameRoom decode buffered topic (byte :: chunk)
              exact once.trans (ih (once.fdToAddr ▸ named) (once.fdReceiveData ▸ buffered))

theorem handleClientEvent_sameRoom (decode : DecodeResult) {server : TCPServer} {fd : Nat}
    (named : fd < server.fdToAddr.length) (buffered : fd < server.fdReceiveData.length)
    (hangUp : Bool) (results : List RecvResult) :
    SameRoom server (server.handleClientEvent decode fd hangUp results) := by
  unfold TCPServer.handleClientEvent
  rw [List.getElem?_eq_getElem named]
  dsimp only
  split
  · exact closeAndDeleteEvent_sameRoom named buffered
  · split
    · exact .refl server
    · split
      · exact recvLoop_sameRoom decode named buffered _ results
      · exact .refl server

theorem Roomy.acceptNewClient {server next : TCPServer} (roomy : server.Roomy)
    {accepted : Option (Nat × SockaddrIn)} {nonblocking : Bool}
    (reach : server.InReach (.acceptNewClient accepted nonblocking))
    (stored : server.acceptNewClient accepted nonblocking = some next) : next.Roomy := by
  rcases accepted with _ | ⟨clientFd, addr⟩
  · cases stored
    exact roomy
  · cases nonblocking with
    | false =>
        cases stored
        exact roomy
    | true =>
        have near : Reaches server.fdToAddr clientFd := reach
        cases storeClient_eq_some near stored
        have longer := length_le_grow server.fdToAddr "" clientFd
        refine ⟨roomy.inside, ?_, ?_, ?_⟩
        · intro fd member
          obtain ⟨named, buffered⟩ := roomy.polled fd member
          rw [List.length_set]
          exact ⟨Nat.lt_of_lt_of_le named longer, buffered⟩
        · intro token fd found
          rw [List.length_set]
          by_cases same : token = addr.token
          · simp only [same, Function.update_self, Option.some.injEq] at found
            exact found ▸ lt_length_grow "" near
          · simp only [Function.update_of_ne same] at found
            exact Nat.lt_of_lt_of_le (roomy.unmapped token fd found) longer
        · rw [List.length_set]
          exact Nat.lt_of_lt_of_le roomy.first longer

theorem Roomy.acceptLocked {server : TCPServer} (roomy : server.Roomy) {call : AcceptCall}
    (near : Reaches server.fdReceiveData ((server.unmappedAddrToFd call.token).getD 0))
    (added : Bool) : (server.acceptLocked call added).Roomy := by
  have longer :=
    length_le_grow server.fdReceiveData [] ((server.unmappedAddrToFd call.token).getD 0)
  -- a call that does not find its address any more takes descriptor 0
  have named : (server.unmappedAddrToFd call.token).getD 0 < server.fdToAddr.length := by
    cases found : server.unmappedAddrToFd call.token with
    | none => exact roomy.first
    | some fd => exact roomy.unmapped _ fd found
  unfold TCPServer.acceptLocked
  rw [if_pos (lt_length_grow [] near)]
  refine ⟨roomy.inside, ?_, ?_, roomy.first⟩
  · intro fd member
    rw [List.length_set]
    have either : fd ∈ server.epoll ∨ fd = (server.unmappedAddrToFd call.token).getD 0 := by
      dsimp only at member
      split at member
      · rcases List.mem_append.mp member with earlier | last
        · exact .inl earlier
        · exact .inr (List.mem_singleton.mp last)
      · exact .inl member
    rcases either with earlier | rfl
    · obtain ⟨first, second⟩ := roomy.polled fd earlier
      exact ⟨first, Nat.lt_of_lt_of_le second longer⟩
    · exact ⟨named, lt_length_grow [] near⟩
  · intro addr fd found
    by_cases same : addr = call.token
    · simp only [same, Function.update_self] at found
      cases found
    · simp only [Function.update_of_ne same] at found
      exact roomy.unmapped addr fd found

theorem Roomy.step (decode : DecodeResult) {server next : TCPServer} (roomy : server.Roomy)
    {action : ServerAction} (reach : server.InReach action)
    (stepped : server.step decode action = some next) : next.Roomy := by
  unfold TCPServer.step at stepped
  rw [if_neg (Bool.eq_false_iff.mp roomy.inside)] at stepped
  cases action with
  | acceptNewClient accepted nonblocking =>
      exact roomy.acceptNewClient reach (Option.ite_none_right_eq_some.mp stepped).2
  | acceptClient topic ip port =>
      cases stepped
      unfold TCPServer.acceptClient
      split
      · exact ⟨roomy.inside, roomy.polled, roomy.unmapped, roomy.first⟩
      · exact roomy
  | acceptLocked index added =>
      obtain ⟨call, located, rfl⟩ := Option.map_eq_some_iff.mp stepped
      have mapped := roomy.acceptLocked (reach call located) added
      exact ⟨mapped.inside, mapped.polled, mapped.unmapped, mapped.first⟩
  | addDecoder topic =>
      cases stepped
      exact ⟨roomy.inside, roomy.polled, roomy.unmapped, roomy.first⟩
  | clientEvent fd hangUp results =>
      obtain ⟨polled, same⟩ := Option.ite_none_right_eq_some.mp stepped
      cases same
      obtain ⟨named, buffered⟩ := roomy.polled fd (List.contains_iff_mem.mp polled)
      exact roomy.same (handleClientEvent_sameRoom decode named buffered hangUp results)

theorem roomy_initial : initial.Roomy where
  inside := rfl
  polled _ member := by cases member
  unmapped _ _ found := by cases found
  first := by decide

end TCPServer

/-! ## The client -/

theorem Publishing.writeFd_length {state : Publishing} {topic : String} {fd : Nat}
    {results : List WriteResult} {written : Publishing.Written}
    (wrote : state.writeFd topic fd results = some written) :
    written.state.client.clientsData.length = state.client.clientsData.length := by
  unfold Publishing.writeFd at wrote
  split at wrote
  · cases wrote
  · obtain ⟨final, _, rfl⟩ := Option.map_eq_some_iff.mp wrote
    dsimp only
    split
    · exact List.length_set ..
    · exact List.length_set ..

/-- `write_fd` adds no socket to a topic. -/
theorem Publishing.FdSpec.mem_of_mem {state : Publishing} {topic other : String} {fd member : Nat}
    {written : Publishing.Written} (spec : Publishing.FdSpec state topic fd written)
    (listed : member ∈ written.state.client.clientsTopicFd other) :
    member ∈ state.client.clientsTopicFd other := by
  cases good : written.ok with
  | true => exact (spec.kept good).1 ▸ listed
  | false =>
      rw [(spec.dropped good).2] at listed
      by_cases same : other = topic
      · rw [same, Function.update_self] at listed
        rw [same]
        exact Finset.mem_of_mem_erase listed
      · rw [Function.update_of_ne same] at listed
        exact listed

namespace ConnectAttempt

/-- What a `close` by number and an `erase` leave alone. -/
structure Kept (before after : ConnectAttempt) : Prop where
  topic : after.topic = before.topic
  fd : after.fd = before.fd
  address : after.address = before.address
  ip : after.ip = before.ip
  port : after.port = before.port
  shared : after.shared = before.shared
  values : after.values = before.values
  inserted : after.inserted = before.inserted
  stage : after.stage = before.stage

theorem erase_kept (attempt : ConnectAttempt) (topic : String) (fd : Nat) :
    Kept attempt (attempt.erase topic fd) := by
  unfold erase
  split
  · constructor <;> rfl
  · constructor <;> rfl

theorem release_kept (attempt : ConnectAttempt) (fd : Nat) :
    Kept attempt (attempt.release fd) := by
  unfold release
  split
  · constructor <;> rfl
  · constructor <;> rfl

theorem Kept.close {before after : ConnectAttempt} (kept : Kept before after) :
    Kept before after.close :=
  ⟨kept.topic, kept.fd, kept.address, kept.ip, kept.port, kept.shared, kept.values,
    kept.inserted, kept.stage⟩

theorem drop_kept (attempt : ConnectAttempt) (topic : String) (fd : Nat) :
    Kept attempt (attempt.drop topic fd) := by
  unfold drop
  split
  · exact (attempt.erase_kept topic fd).close
  · exact attempt.release_kept fd

theorem Kept.trans {first second third : ConnectAttempt} (left : Kept first second)
    (right : Kept second third) : Kept first third where
  topic := right.topic.trans left.topic
  fd := right.fd.trans left.fd
  address := right.address.trans left.address
  ip := right.ip.trans left.ip
  port := right.port.trans left.port
  shared := right.shared.trans left.shared
  values := right.values.trans left.values
  inserted := right.inserted.trans left.inserted
  stage := right.stage.trans left.stage

/-- A socket that has been registered has room, or its thread is about to make it. -/
structure Fits (attempt : ConnectAttempt) (size : Nat) : Prop where
  waiting : attempt.stage = .select → attempt.inserted = false
  inserted : attempt.stage = .select ∨ attempt.stage = .ended ∨ attempt.inserted = true
  room : attempt.inserted = true → attempt.stage = .resize ∨ ∀ fd ∈ attempt.fd, fd < size

theorem Fits.mono {attempt : ConnectAttempt} {size larger : Nat} (fits : attempt.Fits size)
    (longer : size ≤ larger) : attempt.Fits larger where
  waiting := fits.waiting
  inserted := fits.inserted
  room inserted := (fits.room inserted).imp_right fun below fd member =>
    Nat.lt_of_lt_of_le (below fd member) longer

theorem Fits.kept {before after : ConnectAttempt} {size : Nat} (fits : before.Fits size)
    (kept : Kept before after) : after.Fits size where
  waiting := by
    rw [kept.stage, kept.inserted]
    exact fits.waiting
  inserted := by
    rw [kept.stage, kept.inserted]
    exact fits.inserted
  room := by
    rw [kept.stage, kept.inserted, kept.fd]
    exact fits.room

/-- A thread between its `select` and its end has registered its socket. -/
theorem Fits.inserted_of_stage {attempt : ConnectAttempt} {size : Nat} (fits : attempt.Fits size)
    {stage : ConnectStage} (stands : attempt.stage = stage) (past : stage ≠ .select)
    (running : stage ≠ .ended) : attempt.inserted = true := by
  rcases fits.inserted with waits | ended | inserted
  · exact absurd (stands.symm.trans waits) past
  · exact absurd (stands.symm.trans ended) running
  · exact inserted

/-- A thread that has made room goes on. -/
theorem Fits.onward {before after : ConnectAttempt} {size : Nat} (fits : before.Fits size)
    (past : before.stage = .assign ∨ before.stage = .notify ∨ before.stage = .write)
    (fd : after.fd = before.fd) (inserted : after.inserted = before.inserted)
    (onward : after.stage ≠ .select) : after.Fits size where
  waiting waits := absurd waits onward
  inserted := by
    have given : before.inserted = true := by
      rcases past with stage | stage | stage <;> exact fits.inserted_of_stage stage nofun nofun
    exact .inr (.inr (inserted.trans given))
  room given := by
    rw [fd]
    rcases fits.room (inserted.symm.trans given) with resizes | below
    · rcases past with stage | stage | stage <;> cases stage.symm.trans resizes
    · exact .inr below

/-- A thread whose connection has failed has registered nothing. -/
theorem Fits.stop {before after : ConnectAttempt} {size : Nat} (fits : before.Fits size)
    (waits : before.stage = .select) (inserted : after.inserted = before.inserted)
    (ended : after.stage = .ended) : after.Fits size where
  waiting waiting := by cases ended.symm.trans waiting
  inserted := .inr (.inl ended)
  room given := by cases (fits.waiting waits).symm.trans (inserted.symm.trans given)

end ConnectAttempt

theorem forall_mem_modify {Value : Type} {values : List Value} {index : Nat}
    {change : Value → Value} {property : Value → Prop} (all : ∀ value ∈ values, property value)
    (changed : ∀ value, values[index]? = some value → property (change value)) :
    ∀ value ∈ values.modify index change, property value := by
  intro value member
  obtain ⟨position, located⟩ := List.mem_iff_getElem?.mp member
  rw [List.getElem?_modify] at located
  obtain ⟨before, found, rfl⟩ := Option.map_eq_some_iff.mp located
  split
  · rename_i same
    exact changed before (same ▸ found)
  · exact all before (List.mem_of_getElem? found)

/-- Some call has registered a socket with this number. -/
def Inserted (attempts : List ConnectAttempt) (fd : Nat) : Prop :=
  ∃ attempt ∈ attempts, attempt.fd = some fd ∧ attempt.inserted = true

theorem Inserted.modify {attempts : List ConnectAttempt} {fd : Nat}
    (inserted : Inserted attempts fd) (index : Nat) {change : ConnectAttempt → ConnectAttempt}
    (same : ∀ attempt, (change attempt).fd = attempt.fd)
    (keeps : ∀ attempt : ConnectAttempt, attempt.inserted = true →
      (change attempt).inserted = true) : Inserted (attempts.modify index change) fd := by
  obtain ⟨attempt, member, holds, past⟩ := inserted
  obtain ⟨position, located⟩ := List.mem_iff_getElem?.mp member
  by_cases here : index = position
  · subst here
    have changed : (attempts.modify index change)[index]? = some (change attempt) := by
      rw [List.getElem?_modify_eq, located]
      rfl
    exact ⟨_, List.mem_of_getElem? changed, (same attempt).trans holds, keeps attempt past⟩
  · have unchanged : (attempts.modify index change)[position]? = some attempt :=
      (List.getElem?_modify_ne change attempts here).trans located
    exact ⟨_, List.mem_of_getElem? unchanged, holds, past⟩

theorem Inserted.map {attempts : List ConnectAttempt} {fd : Nat}
    (inserted : Inserted attempts fd) {change : ConnectAttempt → ConnectAttempt}
    (kept : ∀ attempt, ConnectAttempt.Kept attempt (change attempt)) :
    Inserted (attempts.map change) fd := by
  obtain ⟨attempt, member, holds, past⟩ := inserted
  exact ⟨change attempt, List.mem_map_of_mem member, (kept attempt).fd.trans holds,
    (kept attempt).inserted.trans past⟩

namespace ClientSockets

/-- The number of descriptors that `clients_data` has room for. -/
def size (sockets : ClientSockets) : Nat := sockets.publishing.client.clientsData.length

/-- The socket is registered, or the loop has still to visit it. -/
def Listed (sockets : ClientSockets) (fd : Nat) : Prop :=
  (∃ topic, fd ∈ sockets.publishing.client.clientsTopicFd topic) ∨
    ∃ loop ∈ sockets.loop, fd ∈ loop.fds

/-- Every call fits, and what is written to has been registered. -/
structure Roomy (sockets : ClientSockets) : Prop where
  inside : sockets.outside = false
  fits : ∀ attempt ∈ sockets.attempts, attempt.Fits sockets.size
  listed : ∀ fd, sockets.Listed fd → Inserted sockets.attempts fd

/-- Nothing that has been registered is forgotten, and nothing else is written to. -/
structure Widens (before after : ClientSockets) : Prop where
  outside : after.outside = before.outside
  carried : ∀ fd, Inserted before.attempts fd → Inserted after.attempts fd
  listed : ∀ fd, after.Listed fd → before.Listed fd ∨ Inserted after.attempts fd

theorem Widens.trans {first second third : ClientSockets} (left : Widens first second)
    (right : Widens second third) : Widens first third where
  outside := right.outside.trans left.outside
  carried fd inserted := right.carried fd (left.carried fd inserted)
  listed fd member := by
    rcases right.listed fd member with old | inserted
    · exact (left.listed fd old).imp_right (right.carried fd)
    · exact .inr inserted

theorem Roomy.widen {before after : ClientSockets} (roomy : before.Roomy)
    (widens : Widens before after) (fits : ∀ attempt ∈ after.attempts, attempt.Fits after.size) :
    after.Roomy where
  inside := widens.outside.trans roomy.inside
  fits := fits
  listed fd member := by
    rcases widens.listed fd member with old | inserted
    · exact widens.carried fd (roomy.listed fd old)
    · exact inserted

/-- A statement of one thread. -/
theorem Widens.modify (sockets : ClientSockets) (index : Nat)
    {change : ConnectAttempt → ConnectAttempt} (same : ∀ attempt, (change attempt).fd = attempt.fd)
    (keeps : ∀ attempt : ConnectAttempt, attempt.inserted = true →
      (change attempt).inserted = true) : Widens sockets (sockets.modify index change) where
  outside := rfl
  carried _ inserted := inserted.modify index same keeps
  listed _ member := .inl member

/-- A statement of one thread that leaves the sets of the topics alone. -/
theorem Widens.statement (sockets : ClientSockets) (publishing : Publishing)
    (sets : publishing.client.clientsTopicFd = sockets.publishing.client.clientsTopicFd)
    (index : Nat) (stage : ConnectStage) :
    Widens sockets ((sockets.update publishing).modify index (·.enter stage)) where
  outside := rfl
  carried _ inserted := inserted.modify index (fun _ => rfl) fun _ inserted => inserted
  listed fd member := by
    rcases member with ⟨topic, member⟩ | looped
    · exact .inl (.inl ⟨topic, sets ▸ member⟩)
    · exact .inl (.inr looped)

theorem Widens.each (sockets : ClientSockets) {change : ConnectAttempt → ConnectAttempt}
    (kept : ∀ attempt, ConnectAttempt.Kept attempt (change attempt)) :
    Widens sockets (sockets.each change) where
  outside := rfl
  carried _ inserted := inserted.map kept
  listed _ member := .inl member

theorem Widens.update (sockets : ClientSockets) {publishing : Publishing}
    (listed : ∀ topic, ∀ fd ∈ publishing.client.clientsTopicFd topic,
      fd ∈ sockets.publishing.client.clientsTopicFd topic) :
    Widens sockets (sockets.update publishing) where
  outside := rfl
  carried _ inserted := inserted
  listed fd member := by
    rcases member with ⟨topic, member⟩ | looped
    · exact .inl (.inl ⟨topic, listed topic fd member⟩)
    · exact .inl (.inr looped)

/-- The loop goes on with sockets that are listed. -/
theorem Widens.loop (sockets : ClientSockets) {loop : Option SocketLoop}
    (listed : ∀ held ∈ loop, ∀ fd ∈ held.fds, sockets.Listed fd) :
    Widens sockets { sockets with loop := loop } where
  outside := rfl
  carried _ inserted := inserted
  listed fd member := by
    rcases member with registered | ⟨held, same, member⟩
    · exact .inl (.inl registered)
    · exact .inl (listed held same fd member)

theorem Widens.addClient (sockets : ClientSockets) (topic : String) (calls : ConnectCalls) :
    Widens sockets (sockets.addClient topic calls) where
  outside := rfl
  carried fd inserted := by
    obtain ⟨attempt, member, facts⟩ := inserted
    exact ⟨attempt, List.mem_append_left _ member, facts⟩
  listed _ member := .inl member

theorem Widens.giveUp (sockets : ClientSockets) (index fd : Nat) :
    Widens sockets (sockets.giveUp index fd) := by
  unfold ClientSockets.giveUp
  refine ((Widens.update sockets ?_).trans (.each _ fun attempt => attempt.release_kept fd)).trans
    (.modify _ index (fun _ => rfl) fun _ inserted => inserted)
  exact fun _ _ member => member

theorem Widens.written (sockets : ClientSockets) {state : Publishing} {topic : String} {fd : Nat}
    {results : List WriteResult} {written : Publishing.Written}
    (wrote : state.writeFd topic fd results = some written)
    (same : state.client.clientsTopicFd = sockets.publishing.client.clientsTopicFd) :
    Widens sockets (sockets.update written.state) :=
  .update sockets fun _ _ member => same ▸ (Publishing.writeFd_spec wrote).mem_of_mem member

theorem Thread.modified {sockets : ClientSockets} {index : Nat} {stage : ConnectStage}
    {attempt : ConnectAttempt} {fd : Nat} (thread : sockets.Thread index stage attempt fd)
    (change : ConnectAttempt → ConnectAttempt) :
    (sockets.modify index change).attempts[index]? = some (change attempt) := by
  rw [ClientSockets.modify, List.getElem?_modify_eq, thread.located]
  rfl

/-- The thread at the index has registered its socket. -/
theorem Widens.register {sockets : ClientSockets} {index : Nat} {attempt : ConnectAttempt}
    {fd : Nat} (thread : sockets.Thread index .select attempt fd) :
    Widens sockets ((sockets.update (sockets.publishing.insertFd attempt.topic fd)).modify index
      fun attempt => attempt.register.enter .resize) where
  outside := rfl
  carried _ inserted := inserted.modify index (fun _ => rfl) fun _ _ => rfl
  listed other member := by
    rcases member with ⟨topic, member⟩ | looped
    · by_cases same : other = fd
      · right
        exact ⟨_, List.mem_of_getElem? (thread.modified _), thread.fd.trans (same ▸ rfl), rfl⟩
      · left
        refine .inl ⟨topic, ?_⟩
        have updated : other ∈ Function.update sockets.publishing.client.clientsTopicFd
            attempt.topic (insert fd (sockets.publishing.client.clientsTopicFd attempt.topic))
              topic := member
        by_cases here : topic = attempt.topic
        · subst here
          rw [Function.update_self] at updated
          exact Finset.mem_of_mem_insert_of_ne updated same
        · rw [Function.update_of_ne here] at updated
          exact updated
    · exact .inl (.inr looped)

theorem kept_refl (attempt : ConnectAttempt) : ConnectAttempt.Kept attempt (id attempt) := by
  constructor <;> rfl

theorem Roomy.addClient {sockets : ClientSockets} (roomy : sockets.Roomy) (topic : String)
    (calls : ConnectCalls) : (sockets.addClient topic calls).Roomy := by
  refine roomy.widen (.addClient sockets topic calls) fun attempt member => ?_
  rcases List.mem_append.mp member with earlier | last
  · exact roomy.fits attempt earlier
  · cases List.mem_singleton.mp last
    obtain ⟨fresh, stage⟩ := connectAttempt_new topic calls
    refine ⟨fun _ => fresh, stage.imp_right .inl, fun inserted => ?_⟩
    cases fresh.symm.trans inserted

/-- The thread at the index moves on, and others may lose their sockets. -/
theorem Roomy.modify {sockets next : ClientSockets} (roomy : sockets.Roomy)
    (widens : Widens sockets next) (longer : sockets.size ≤ next.size) {index : Nat}
    {stage : ConnectStage} {attempt : ConnectAttempt} {fd : Nat}
    (thread : sockets.Thread index stage attempt fd)
    {others change : ConnectAttempt → ConnectAttempt}
    (kept : ∀ attempt, ConnectAttempt.Kept attempt (others attempt))
    (moved : next.attempts = (sockets.attempts.map others).modify index change)
    (fits : (others attempt).Fits next.size → (change (others attempt)).Fits next.size) :
    next.Roomy := by
  refine roomy.widen widens ?_
  rw [moved]
  have carried (other : ConnectAttempt) (member : other ∈ sockets.attempts) :
      (others other).Fits next.size := ((roomy.fits other member).mono longer).kept (kept other)
  apply forall_mem_modify
  · intro other member
    obtain ⟨before, listed, rfl⟩ := List.mem_map.mp member
    exact carried before listed
  · intro other located
    rw [List.getElem?_map, thread.located, Option.map_some, Option.some.injEq] at located
    subst located
    exact fits (carried attempt (List.mem_of_getElem? thread.located))

/-- The thread at the index moves on, and nothing else changes. -/
theorem Roomy.modifyOne {sockets next : ClientSockets} (roomy : sockets.Roomy)
    (widens : Widens sockets next) (longer : sockets.size ≤ next.size) {index : Nat}
    {stage : ConnectStage} {attempt : ConnectAttempt} {fd : Nat}
    (thread : sockets.Thread index stage attempt fd) {change : ConnectAttempt → ConnectAttempt}
    (moved : next.attempts = sockets.attempts.modify index change)
    (fits : attempt.Fits next.size → (change attempt).Fits next.size) : next.Roomy :=
  roomy.modify widens longer thread kept_refl (moved.trans (by rw [List.map_id])) fits

theorem Roomy.lt_size {sockets : ClientSockets} (roomy : sockets.Roomy) {index : Nat}
    {stage : ConnectStage} {attempt : ConnectAttempt} {fd : Nat}
    (thread : sockets.Thread index stage attempt fd)
    (past : stage = .assign ∨ stage = .notify ∨ stage = .write) : fd < sockets.size := by
  have fits := roomy.fits attempt (List.mem_of_getElem? thread.located)
  have inserted : attempt.inserted = true := by
    rcases past with rfl | rfl | rfl <;> exact fits.inserted_of_stage thread.stage nofun nofun
  rcases fits.room inserted with resizes | below
  · rcases past with rfl | rfl | rfl <;> cases thread.stage.symm.trans resizes
  · exact below fd thread.fd

/-- The loop comes to a socket that has room. -/
theorem Roomy.lt_size_of_loop {sockets : ClientSockets} (roomy : sockets.Roomy) {topic : String}
    {msg : List UInt8} {fd : Nat} {fds : List Nat}
    (held : sockets.loop = some ⟨topic, msg, fd :: fds⟩)
    (reach : ∀ attempt ∈ sockets.attempts, attempt.fd = some fd → attempt.stage = .resize →
      fd < sockets.size) : fd < sockets.size := by
  obtain ⟨attempt, member, holds, inserted⟩ :=
    roomy.listed fd (.inr ⟨_, held, List.mem_cons_self⟩)
  rcases (roomy.fits attempt member).room inserted with resizes | below
  · exact reach attempt member holds resizes
  · exact below fd holds

theorem Roomy.same {sockets next : ClientSockets} (roomy : sockets.Roomy)
    (widens : Widens sockets next) (longer : sockets.size ≤ next.size)
    (same : next.attempts = sockets.attempts) : next.Roomy := by
  refine roomy.widen widens ?_
  rw [same]
  exact fun attempt member => (roomy.fits attempt member).mono longer

theorem Roomy.step {sockets next : ClientSockets} (roomy : sockets.Roomy) {action : SocketAction}
    (reach : sockets.InReach action) (stepped : sockets.step action = some next) :
    next.Roomy := by
  obtain ⟨_, stepped⟩ := step_cases stepped
  cases stepped with
  | addClient => exact roomy.addClient ..
  | overrun =>
      exact roomy.same ⟨rfl, fun _ inserted => inserted, fun _ member => .inl member⟩
        (Nat.le_refl _) rfl
  | @giveUp index ready soError attempt fd thread =>
      have kept (attempt : ConnectAttempt) := attempt.release_kept fd
      refine roomy.modify (.giveUp sockets index fd) (Nat.le_refl _) thread kept rfl fun fits => ?_
      exact fits.stop ((kept attempt).stage.trans thread.stage) rfl rfl
  | @unread index attempt fd thread =>
      refine roomy.modifyOne (.modify _ index (fun _ => rfl) fun _ inserted => inserted)
        (Nat.le_refl _) thread rfl fun fits => ?_
      exact fits.stop thread.stage rfl rfl
  | @register index attempt fd thread =>
      refine roomy.modifyOne (.register thread) (Nat.le_refl _) thread rfl fun _ => ?_
      exact ⟨nofun, .inr (.inr rfl), fun _ => .inl rfl⟩
  | @resize index attempt fd thread =>
      have near := reach _ thread.threadAt
      refine roomy.modifyOne (.statement sockets (sockets.publishing.resize fd) rfl index .assign)
        (length_le_grow _ [] fd) thread rfl fun fits => ?_
      have inserted := fits.inserted_of_stage thread.stage nofun nofun
      refine ⟨nofun, .inr (.inr inserted), fun _ => .inr fun other holds => ?_⟩
      cases thread.fd.symm.trans holds
      exact lt_length_grow [] near
  | @assign index attempt fd cache thread inside =>
      refine roomy.modifyOne
        (.statement sockets (sockets.publishing.assign fd cache) rfl index .notify)
        (Nat.le_of_eq (List.length_set ..).symm) thread rfl fun fits => ?_
      exact fits.onward (.inl thread.stage) rfl rfl nofun
  | assignOutside thread outside => exact absurd (roomy.lt_size thread (.inl rfl)) outside
  | @notify index attempt fd thread =>
      refine roomy.modifyOne (.modify _ index (fun _ => rfl) fun _ inserted => inserted)
        (Nat.le_refl _) thread rfl fun fits => ?_
      exact fits.onward (.inr (.inl thread.stage)) rfl rfl nofun
  | @write index errno results attempt fd written _ thread wrote good =>
      refine roomy.modifyOne ((Widens.written sockets wrote rfl).trans
          (.modify _ index (fun _ => rfl) fun _ inserted => inserted))
        (Nat.le_of_eq (Publishing.writeFd_length wrote).symm) thread rfl fun fits => ?_
      exact fits.onward (.inr (.inr thread.stage)) rfl rfl nofun
  | @writeFailed index errno results attempt fd written _ thread wrote failed =>
      have kept (other : ConnectAttempt) :=
        (other.erase_kept attempt.topic fd).trans (ConnectAttempt.release_kept _ fd)
      refine roomy.modify (((Widens.written sockets wrote rfl).trans (.each _ kept)).trans
          (.modify _ index (fun _ => rfl) fun _ inserted => inserted))
        (Nat.le_of_eq (Publishing.writeFd_length wrote).symm) thread kept rfl fun fits => ?_
      exact fits.onward (.inr (.inr ((kept attempt).stage.trans thread.stage))) rfl rfl nofun
  | writeOutside thread outside =>
      exact absurd (roomy.lt_size thread (.inr (.inr rfl))) outside
  | @writeToSocket topic msg order errno _ members =>
      refine roomy.same ⟨rfl, fun _ inserted => inserted, fun fd member => .inl ?_⟩
        (Nat.le_refl _) rfl
      rcases member with registered | ⟨loop, held, member⟩
      · exact .inl registered
      · cases held
        exact .inl ⟨topic, members ▸ List.mem_toFinset.mpr member⟩
  | finish held => exact roomy.same (.loop sockets nofun) (Nat.le_refl _) rfl
  | nextOutside held outside =>
      exact absurd (roomy.lt_size_of_loop held (reach _ held _ rfl)) outside
  | skip held =>
      refine roomy.same (.loop sockets fun loop same fd member => ?_) (Nat.le_refl _) rfl
      cases same
      exact .inr ⟨_, held, List.mem_cons_of_mem _ member⟩
  | @next results topic msg fd fds data written held wrote good =>
      have longer := (Publishing.writeFd_length wrote).trans (List.length_set ..)
      refine roomy.same ((Widens.written sockets wrote rfl).trans (.loop _ ?_))
        (Nat.le_of_eq longer.symm) rfl
      intro loop same other member
      cases same
      exact .inr ⟨_, held, List.mem_cons_of_mem _ member⟩
  | @nextFailed results topic msg fd fds data written held wrote failed =>
      have longer := (Publishing.writeFd_length wrote).trans (List.length_set ..)
      have kept (attempt : ConnectAttempt) := attempt.drop_kept topic fd
      refine roomy.widen (((Widens.written sockets wrote rfl).trans (.each _ kept)).trans
        (.loop _ nofun)) fun attempt member => ?_
      obtain ⟨before, listed, rfl⟩ := List.mem_map.mp member
      exact ((roomy.fits before listed).mono (Nat.le_of_eq longer.symm)).kept (kept before)
  | writeToCache =>
      exact roomy.same (.update sockets fun _ _ member => member) (Nat.le_refl _) rfl

theorem roomy_initial : initial.Roomy where
  inside := rfl
  fits _ member := by cases member
  listed fd member := by
    rcases member with ⟨topic, member⟩ | ⟨loop, held, _⟩
    · exact absurd member (Finset.notMem_empty fd)
    · cases held

end ClientSockets

/-! ## A node -/

namespace NodeSockets

structure Roomy (node : NodeSockets) : Prop where
  server : node.server.Roomy
  client : node.client.Roomy

theorem Roomy.step (decode : TCPServer.DecodeResult) {node next : NodeSockets} (roomy : node.Roomy)
    {action : NodeAction} (reach : node.InReach action)
    (stepped : node.step decode action = some next) : next.Roomy := by
  cases action with
  | accept accepted nonblocking =>
      simp only [NodeSockets.step, if_neg (Bool.eq_false_iff.mp roomy.server.inside)] at stepped
      obtain ⟨server, stored, rfl⟩ := Option.map_eq_some_iff.mp stepped
      exact ⟨roomy.server.acceptNewClient reach stored, roomy.client⟩
  | server action =>
      obtain ⟨server, moved, rfl⟩ := Option.map_eq_some_iff.mp stepped
      exact ⟨roomy.server.step decode reach moved, roomy.client⟩
  | client action =>
      obtain ⟨client, moved, rfl⟩ := Option.map_eq_some_iff.mp stepped
      exact ⟨roomy.server, roomy.client.step reach moved⟩

/-- In every run whose descriptors are in reach, every index is in range. -/
theorem inRange_of_inReach (decode : TCPServer.DecodeResult) {run : List NodeAction}
    (reach : (machine decode).Obeys InReach initial run) :
    (machine decode).Along InRange initial run := by
  have roomy : (machine decode).Along Roomy initial run :=
    (machine decode).along_of_obeys
      (fun _ _ _ roomy reach stepped => roomy.step decode reach stepped)
      ⟨TCPServer.roomy_initial, ClientSockets.roomy_initial⟩ reach
  exact roomy.mono fun _ roomy => ⟨roomy.server.inside, roomy.client.inside⟩

instance (sockets : ClientSockets) (action : SocketAction) :
    Decidable (sockets.InReach action) := by
  unfold ClientSockets.InReach
  split <;> infer_instance

instance (node : NodeSockets) (action : NodeAction) : Decidable (node.InReach action) := by
  unfold NodeSockets.InReach
  split <;> infer_instance

def connecting (fd : Nat) (port : UInt16) : ConnectCalls where
  socket := some fd
  getFlags := true
  setFlags := true
  inetPton := true
  connect := .error EINPROGRESS
  getsockname := some ⟨⟨127, 0, 0, 1⟩, port⟩

/-- Each vector has to grow, and both sides go on afterwards. -/
def grown : List NodeAction :=
  [.accept (some (60, ⟨⟨127, 0, 0, 1⟩, 40000⟩)) true,
    .server (.acceptClient "bumper" "127.0.0.1" 40000), .server (.acceptLocked 0 true),
    .accept (some (150, ⟨⟨127, 0, 0, 1⟩, 40001⟩)) true,
    .server (.acceptClient "bumper" "127.0.0.1" 40001), .server (.acceptLocked 0 true),
    .server (.clientEvent 150 true []),
    .client (.addClient "switch" (connecting 170 50000)), .client (.select 0 true (some 0)),
    .client (.resize 0), .client (.assign 0 []), .client (.notify 0), .client (.write 0 0 []),
    .client (.writeToSocket "switch" [1, 2] [170] 0), .client (.writeNext [.accepted 2])]

theorem inRange_of_inReach_grown :
    (machine TCPServer.flagDecoders).Along InRange initial grown ∧
      ((machine TCPServer.flagDecoders).exec initial grown).map (fun node =>
        (node.server.fdToAddr.length, node.server.fdReceiveData.length, node.client.size)) =
          some (200, 200, 200) :=
  ⟨inRange_of_inReach TCPServer.flagDecoders (by decide +kernel), by decide +kernel⟩

/-- The first subscription of a process with 100 descriptors: `fd_to_addr` has 200 entries then,
and `fd_receive_data` 100. -/
def acceptedLate : List NodeAction :=
  [.accept (some (100, ⟨⟨127, 0, 0, 1⟩, 40000⟩)) true,
    .server (.acceptClient "bumper" "127.0.0.1" 40000), .server (.acceptLocked 0 true)]

theorem acceptedLate_not_inRange :
    ¬ (machine TCPServer.flagDecoders).Along InRange initial acceptedLate := by
  intro along
  have evaluated : ((machine TCPServer.flagDecoders).exec initial acceptedLate).map
      (fun node => node.server.outside) = some true := by
    decide +kernel
  obtain ⟨final, executed, outside⟩ := Option.map_eq_some_iff.mp evaluated
  cases (along.final executed).1.symm.trans outside

end NodeSockets

end ProtoCore.Topic
