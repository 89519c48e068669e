import ProtoCore.Topic.FramingRoundTrip
import ProtoCore.Topic.TCPServer

/-!
# Connections that share descriptors

A descriptor is used for one connection after another, and an address may come back. The
four maps of the server keep them apart, as long as the address that a call of
`accept_client` has found is still unmapped when the call gets the lock.
-/

set_option autoImplicit false

namespace ProtoCore.Topic

open Library

namespace TCPServer

/-- Each connection has its address, the topic that it was mapped to and a buffer of its own
bytes; a descriptor without a connection has none of these. -/
structure Isolated (server : TCPServer) : Prop where
  inside : server.outside = false
  address : ∀ connection ∈ server.connections,
    server.fdToAddr[connection.fd]? = some connection.peer.token
  topic : ∀ connection ∈ server.connections,
    server.addrToTopic connection.peer.token = connection.topic
  buffer : ∀ connection ∈ server.connections, connection.topic ≠ none →
    server.fdReceiveData[connection.fd]? = some (connection.received.drop connection.erased)
  unread : ∀ connection ∈ server.connections, connection.topic = none → connection.received = []
  decodes : ∀ connection ∈ server.connections ++ server.closed, ∀ call ∈ connection.decodes,
    connection.topic = some call.topic ∧ call.data <:+: connection.received
  vacant : ∀ fd : Nat, (∀ connection ∈ server.connections, connection.fd ≠ fd) →
    (∀ addr ∈ server.fdToAddr[fd]?, addr = "") ∧ ∀ data ∈ server.fdReceiveData[fd]?, data = []
  apart : ∀ addr, server.unmappedAddrToFd addr = none ∨ server.addrToTopic addr = none

/-- A vector grows far enough for its new index. -/
def InReach (server : TCPServer) : ServerAction → Prop
  | .acceptNewClient (some (clientFd, _)) true => Reaches server.fdToAddr clientFd
  | .acceptLocked index _ => ∀ call ∈ server.accepting[index]?,
      Reaches server.fdReceiveData ((server.unmappedAddrToFd call.token).getD 0)
  | _ => True

/-- An address is still unmapped when its call of `accept_client` has the lock. -/
def StillUnmapped (server : TCPServer) : ServerAction → Prop
  | .acceptLocked index _ => ∀ call ∈ server.accepting[index]?,
      (server.unmappedAddrToFd call.token).isSome = true
  | _ => True

def InOrder (server : TCPServer) (action : ServerAction) : Prop :=
  server.InReach action ∧ server.StillUnmapped action

/-- A call in order has a descriptor, and one growth makes room for it. -/
theorem InOrder.found {server : TCPServer} {index : Nat} {added : Bool}
    (inOrder : server.InOrder (.acceptLocked index added)) {call : AcceptCall}
    (waiting : server.accepting[index]? = some call) :
    ∃ fd ∈ server.unmappedAddrToFd call.token, Reaches server.fdReceiveData fd := by
  obtain ⟨fd, found⟩ := Option.isSome_iff_exists.mp (inOrder.2 call waiting)
  have reaches := inOrder.1 call waiting
  rw [found, Option.getD_some] at reaches
  exact ⟨fd, found, reaches⟩

/-- Open connections differ in descriptor and peer. The maps by address and the poll set hold what
belongs to one of them, and nothing else. -/
structure Addressed (server : TCPServer) : Prop where
  lone : ∀ first ∈ server.connections, ∀ second ∈ server.connections,
    first.fd = second.fd ∨ first.peer = second.peer → first = second
  address : ∀ connection ∈ server.connections,
    server.fdToAddr[connection.fd]? = some connection.peer.token
  nameless : ∀ fd : Nat, (∀ connection ∈ server.connections, connection.fd ≠ fd) →
    ∀ addr ∈ server.fdToAddr[fd]?, addr = ""
  topic : ∀ connection ∈ server.connections,
    server.addrToTopic connection.peer.token = connection.topic
  mapped : ∀ addr topic, server.addrToTopic addr = some topic → ∃ connection ∈ server.connections,
    connection.peer.token = addr ∧ connection.topic = some topic
  waiting : ∀ connection ∈ server.connections, connection.topic = none →
    server.unmappedAddrToFd connection.peer.token = some connection.fd
  unmapped : ∀ addr fd, server.unmappedAddrToFd addr = some fd → ∃ connection ∈ server.connections,
    connection.peer.token = addr ∧ connection.fd = fd ∧ connection.topic = none
  polled : ∀ fd ∈ server.epoll, ∃ connection ∈ server.connections,
    connection.fd = fd ∧ connection.topic ≠ none

/-- The buffers hold what is left of the bytes of their connections. -/
structure Buffered (server : TCPServer) : Prop where
  buffer : ∀ connection ∈ server.connections, connection.topic ≠ none →
    server.fdReceiveData[connection.fd]? = some (connection.received.drop connection.erased)
  erased : ∀ connection ∈ server.connections, connection.erased ≤ connection.received.length
  unread : ∀ connection ∈ server.connections, connection.topic = none → connection.received = []
  decodes : ∀ connection ∈ server.connections ++ server.closed, ∀ call ∈ connection.decodes,
    connection.topic = some call.topic ∧ call.data <:+: connection.received
  empty : ∀ fd : Nat, (∀ connection ∈ server.connections, connection.fd ≠ fd) →
    ∀ data ∈ server.fdReceiveData[fd]?, data = []

structure Joined (server : TCPServer) : Prop where
  inside : server.outside = false
  addressed : server.Addressed
  buffered : server.Buffered

/-- No address is in both maps, for its connection would have a topic and have none. -/
theorem Addressed.apart {server : TCPServer} (addressed : server.Addressed) (addr : String) :
    server.unmappedAddrToFd addr = none ∨ server.addrToTopic addr = none := by
  by_contra both
  rw [not_or] at both
  obtain ⟨fd, waiting⟩ := Option.ne_none_iff_exists'.mp both.1
  obtain ⟨topic, found⟩ := Option.ne_none_iff_exists'.mp both.2
  obtain ⟨first, listed, same, _, topicless⟩ := addressed.unmapped addr fd waiting
  obtain ⟨second, other, again, topical⟩ := addressed.mapped addr topic found
  have peers := SockaddrIn.token_inj (same.trans again.symm)
  cases addressed.lone first listed second other (.inr peers)
  cases topicless.symm.trans topical

theorem Joined.isolated {server : TCPServer} (joined : server.Joined) : server.Isolated where
  inside := joined.inside
  address := joined.addressed.address
  topic := joined.addressed.topic
  buffer := joined.buffered.buffer
  unread := joined.buffered.unread
  decodes := joined.buffered.decodes
  vacant fd free := ⟨joined.addressed.nameless fd free, joined.buffered.empty fd free⟩
  apart := joined.addressed.apart

theorem Addressed.token_ne {server : TCPServer} (addressed : server.Addressed)
    {first second : ClientConnection} (listed : first ∈ server.connections)
    (other : second ∈ server.connections) (apart : first ≠ second) :
    first.peer.token ≠ second.peer.token := fun same =>
  apart (addressed.lone first listed second other (.inr (SockaddrIn.token_inj same)))

theorem Addressed.fd_ne {server : TCPServer} (addressed : server.Addressed)
    {first second : ClientConnection} (listed : first ∈ server.connections)
    (other : second ∈ server.connections) (apart : first ≠ second) : first.fd ≠ second.fd :=
  fun same => apart (addressed.lone first listed second other (.inl same))

/-! ## One connection of several -/

theorem mem_map_one {connections : List ClientConnection} {chosen : ClientConnection}
    {test : ClientConnection → Prop} [DecidablePred test]
    {change : ClientConnection → ClientConnection} (listed : chosen ∈ connections)
    (only : ∀ connection ∈ connections, test connection ↔ connection = chosen)
    (found : ClientConnection) :
    found ∈ connections.map (fun connection =>
      if test connection then change connection else connection) ↔
      found = change chosen ∨ found ∈ connections ∧ found ≠ chosen := by
  rw [List.mem_map]
  constructor
  · rintro ⟨connection, member, rfl⟩
    by_cases tested : test connection
    · rw [if_pos tested, (only connection member).mp tested]
      exact .inl rfl
    · rw [if_neg tested]
      exact .inr ⟨member, fun same => tested ((only connection member).mpr same)⟩
  · rintro (rfl | ⟨member, apart⟩)
    · exact ⟨chosen, listed, if_pos ((only chosen listed).mpr rfl)⟩
    · exact ⟨found, member, if_neg fun tested => apart ((only found member).mp tested)⟩

/-! ## A new connection -/

theorem inetNtop_eq_some {addr : InAddr} {size : Nat} {text : String}
    (written : inetNtop addr size = some text) : text = addr.dotted := by
  unfold inetNtop at written
  split at written
  · exact (Option.some.inj written).symm
  · cases written

theorem storeClient_eq_some {server next : TCPServer} {clientFd : Nat} {addr : SockaddrIn}
    (near : Reaches server.fdToAddr clientFd)
    (stored : server.storeClient clientFd addr = some next) :
    next = { server with
      fdToAddr := (grow server.fdToAddr "" clientFd).set clientFd addr.token
      unmappedAddrToFd := Function.update server.unmappedAddrToFd addr.token (some clientFd)
      connections := server.connections ++ [ClientConnection.accepted clientFd addr] } := by
  unfold TCPServer.storeClient at stored
  obtain ⟨srcIp, text, rfl⟩ := Option.map_eq_some_iff.mp stored
  cases inetNtop_eq_some text
  exact if_pos (lt_length_grow "" near)

/-- The assumption on `accept` for one client. -/
def Fresh (server : TCPServer) (fd : Nat) (addr : SockaddrIn) : Prop :=
  ∀ connection ∈ server.connections, connection.fd ≠ fd ∧ connection.peer ≠ addr

theorem Addressed.storeClient {server next : TCPServer} (addressed : server.Addressed)
    {clientFd : Nat} {addr : SockaddrIn} (fresh : server.Fresh clientFd addr)
    (near : Reaches server.fdToAddr clientFd)
    (stored : server.storeClient clientFd addr = some next) : next.Addressed := by
  cases storeClient_eq_some near stored
  have others (connection : ClientConnection) (listed : connection ∈ server.connections) :
      connection.peer.token ≠ addr.token := fun same =>
    (fresh connection listed).2 (SockaddrIn.token_inj same)
  refine ⟨?_, ?_, ?_, ?_, ?_, ?_, ?_, ?_⟩
  · intro first member second other same
    rcases List.mem_append.mp member with listed | last <;>
      rcases List.mem_append.mp other with also | final
    · exact addressed.lone first listed second also same
    · cases List.mem_singleton.mp final
      exact absurd same (not_or.mpr (fresh first listed))
    · cases List.mem_singleton.mp last
      have apart := fresh second also
      exact absurd same (not_or.mpr ⟨apart.1.symm, apart.2.symm⟩)
    · exact (List.mem_singleton.mp last).trans (List.mem_singleton.mp final).symm
  · intro connection listed
    rcases List.mem_append.mp listed with earlier | last
    · rw [List.getElem?_set_ne (fresh connection earlier).1.symm]
      exact getElem?_grow (addressed.address connection earlier)
    · cases List.mem_singleton.mp last
      exact List.getElem?_set_self (lt_length_grow "" near)
  · intro fd free text member
    have apart : clientFd ≠ fd :=
      free _ (List.mem_append_right _ (List.mem_singleton_self _))
    rw [List.getElem?_set_ne apart] at member
    rcases getElem?_grow_cases member with earlier | empty
    · exact addressed.nameless fd (fun connection listed =>
        free connection (List.mem_append_left _ listed)) text earlier
    · exact empty
  · intro connection listed
    rcases List.mem_append.mp listed with earlier | last
    · exact addressed.topic connection earlier
    · cases List.mem_singleton.mp last
      by_contra found
      obtain ⟨topic, found⟩ := Option.ne_none_iff_exists'.mp found
      obtain ⟨connection, listed, same, _⟩ := addressed.mapped _ topic found
      exact others connection listed same
  · intro token topic found
    obtain ⟨connection, listed, facts⟩ := addressed.mapped token topic found
    exact ⟨connection, List.mem_append_left _ listed, facts⟩
  · intro connection listed waits
    rcases List.mem_append.mp listed with earlier | last
    · simp only [Function.update_of_ne (others connection earlier)]
      exact addressed.waiting connection earlier waits
    · cases List.mem_singleton.mp last
      simp only [ClientConnection.accepted, Function.update_self]
  · intro token fd found
    by_cases same : token = addr.token
    · subst same
      simp only [Function.update_self, Option.some.injEq] at found
      exact ⟨_, List.mem_append_right _ (List.mem_singleton_self _), rfl, found, rfl⟩
    · simp only [Function.update_of_ne same] at found
      obtain ⟨connection, listed, facts⟩ := addressed.unmapped token fd found
      exact ⟨connection, List.mem_append_left _ listed, facts⟩
  · intro fd polled
    obtain ⟨connection, listed, facts⟩ := addressed.polled fd polled
    exact ⟨connection, List.mem_append_left _ listed, facts⟩

theorem Buffered.storeClient {server next : TCPServer} (buffered : server.Buffered) {clientFd : Nat}
    {addr : SockaddrIn} (near : Reaches server.fdToAddr clientFd)
    (stored : server.storeClient clientFd addr = some next) : next.Buffered := by
  cases storeClient_eq_some near stored
  refine ⟨?_, ?_, ?_, ?_, ?_⟩
  · intro connection listed topical
    rcases List.mem_append.mp listed with earlier | last
    · exact buffered.buffer connection earlier topical
    · cases List.mem_singleton.mp last
      exact absurd rfl topical
  · intro connection listed
    rcases List.mem_append.mp listed with earlier | last
    · exact buffered.erased connection earlier
    · cases List.mem_singleton.mp last
      exact Nat.le_refl _
  · intro connection listed waits
    rcases List.mem_append.mp listed with earlier | last
    · exact buffered.unread connection earlier waits
    · cases List.mem_singleton.mp last
      rfl
  · intro connection listed call made
    rw [List.append_assoc] at listed
    rcases List.mem_append.mp listed with earlier | listed
    · exact buffered.decodes connection (List.mem_append_left _ earlier) call made
    · rcases List.mem_append.mp listed with last | ended
      · cases List.mem_singleton.mp last
        cases made
      · exact buffered.decodes connection (List.mem_append_right _ ended) call made
  · intro fd free
    exact buffered.empty fd fun connection listed =>
      free connection (List.mem_append_left _ listed)

/-! ## A connection that is mapped -/

theorem acceptLocked_eq {server : TCPServer} {call : AcceptCall} {fd : Nat}
    (found : server.unmappedAddrToFd call.token = some fd)
    (near : Reaches server.fdReceiveData fd) (added : Bool) :
    server.acceptLocked call added = { server with
      addrToTopic := Function.update server.addrToTopic call.token (some call.topic)
      fdReceiveData := (grow server.fdReceiveData [] fd).set fd []
      epoll := if added && !server.epoll.contains fd then server.epoll ++ [fd] else server.epoll
      unmappedAddrToFd := Function.update server.unmappedAddrToFd call.token none
      connections := server.connections.map fun connection =>
        if connection.peer.token = call.token ∧ connection.topic = none then
          connection.map call.topic
        else connection } := by
  unfold TCPServer.acceptLocked
  simp only [found, Option.getD_some]
  exact if_pos (lt_length_grow [] near)

/-- The connections after the call: one of them has a topic now. -/
theorem Addressed.mem_acceptLocked {server : TCPServer} (addressed : server.Addressed)
    {call : AcceptCall} {chosen : ClientConnection} (listed : chosen ∈ server.connections)
    (named : chosen.peer.token = call.token) (waits : chosen.topic = none)
    (found : ClientConnection) :
    found ∈ (server.connections.map fun connection =>
      if connection.peer.token = call.token ∧ connection.topic = none then
        connection.map call.topic
      else connection) ↔
      found = chosen.map call.topic ∨ found ∈ server.connections ∧ found ≠ chosen := by
  apply mem_map_one listed
  intro connection member
  constructor
  · rintro ⟨same, _⟩
    by_contra apart
    exact addressed.token_ne member listed apart (same.trans named.symm)
  · rintro rfl
    exact ⟨named, waits⟩

theorem Addressed.acceptLocked {server : TCPServer} (addressed : server.Addressed)
    {call : AcceptCall} {fd : Nat} (found : server.unmappedAddrToFd call.token = some fd)
    (near : Reaches server.fdReceiveData fd) (added : Bool) :
    (server.acceptLocked call added).Addressed := by
  obtain ⟨chosen, listed, named, rfl, waits⟩ := addressed.unmapped _ fd found
  have members := addressed.mem_acceptLocked listed named waits
  have others {connection : ClientConnection} (member : connection ∈ server.connections)
      (apart : connection ≠ chosen) : connection.peer.token ≠ call.token :=
    named ▸ addressed.token_ne member listed apart
  rw [acceptLocked_eq found near added]
  refine ⟨?_, ?_, ?_, ?_, ?_, ?_, ?_, ?_⟩
  · intro first member second other same
    rcases (members first).mp member with rfl | ⟨earlier, apart⟩ <;>
      rcases (members second).mp other with rfl | ⟨also, differs⟩
    · rfl
    · exact absurd (addressed.lone chosen listed second also same) differs.symm
    · exact absurd (addressed.lone first earlier chosen listed same) apart
    · exact addressed.lone first earlier second also same
  · intro connection member
    rcases (members connection).mp member with rfl | ⟨earlier, _⟩
    · exact addressed.address chosen listed
    · exact addressed.address connection earlier
  · intro fd free
    apply addressed.nameless fd
    intro connection member
    by_cases same : connection = chosen
    · subst same
      exact free (connection.map call.topic) ((members _).mpr (.inl rfl))
    · exact free connection ((members connection).mpr (.inr ⟨member, same⟩))
  · intro connection member
    rcases (members connection).mp member with rfl | ⟨earlier, apart⟩
    · simp only [ClientConnection.map, named, Function.update_self]
    · simp only [Function.update_of_ne (others earlier apart)]
      exact addressed.topic connection earlier
  · intro addr topic stored
    by_cases same : addr = call.token
    · subst same
      simp only [Function.update_self] at stored
      exact ⟨_, (members _).mpr (.inl rfl), named, stored⟩
    · simp only [Function.update_of_ne same] at stored
      obtain ⟨connection, earlier, again, topical⟩ := addressed.mapped addr topic stored
      have apart : connection ≠ chosen := by
        rintro rfl
        cases waits.symm.trans topical
      exact ⟨connection, (members _).mpr (.inr ⟨earlier, apart⟩), again, topical⟩
  · intro connection member topicless
    rcases (members connection).mp member with rfl | ⟨earlier, apart⟩
    · cases topicless
    · simp only [Function.update_of_ne (others earlier apart)]
      exact addressed.waiting connection earlier topicless
  · intro addr fd stored
    by_cases same : addr = call.token
    · subst same
      simp only [Function.update_self] at stored
      cases stored
    · simp only [Function.update_of_ne same] at stored
      obtain ⟨connection, earlier, again, facts⟩ := addressed.unmapped addr fd stored
      have apart : connection ≠ chosen := by
        rintro rfl
        exact same (again.symm.trans named)
      exact ⟨connection, (members _).mpr (.inr ⟨earlier, apart⟩), again, facts⟩
  · intro fd polled
    have cases_of : fd ∈ server.epoll ∨ fd = chosen.fd := by
      simp only at polled
      split at polled
      · rcases List.mem_append.mp polled with earlier | last
        · exact .inl earlier
        · exact .inr (List.mem_singleton.mp last)
      · exact .inl polled
    rcases cases_of with earlier | rfl
    · obtain ⟨connection, member, same, topical⟩ := addressed.polled fd earlier
      have apart : connection ≠ chosen := by
        rintro rfl
        exact topical waits
      exact ⟨connection, (members _).mpr (.inr ⟨member, apart⟩), same, topical⟩
    · exact ⟨_, (members _).mpr (.inl rfl), rfl, by simp [ClientConnection.map]⟩

theorem Buffered.acceptLocked {server : TCPServer} (buffered : server.Buffered)
    (addressed : server.Addressed) {call : AcceptCall} {fd : Nat}
    (found : server.unmappedAddrToFd call.token = some fd)
    (near : Reaches server.fdReceiveData fd) (added : Bool) :
    (server.acceptLocked call added).Buffered := by
  obtain ⟨chosen, listed, named, rfl, waits⟩ := addressed.unmapped _ fd found
  have members := addressed.mem_acceptLocked listed named waits
  have unread := buffered.unread chosen listed waits
  have uncalled (call : DecodeCall) (made : call ∈ chosen.decodes) : False := by
    have topical := (buffered.decodes chosen (List.mem_append_left _ listed) call made).1
    cases waits.symm.trans topical
  rw [acceptLocked_eq found near added]
  refine ⟨?_, ?_, ?_, ?_, ?_⟩
  · intro connection member topical
    rcases (members connection).mp member with rfl | ⟨earlier, apart⟩
    · simp only [ClientConnection.map, unread, List.drop_nil]
      exact List.getElem?_set_self (lt_length_grow [] near)
    · simp only [List.getElem?_set_ne (addressed.fd_ne earlier listed apart).symm]
      exact getElem?_grow (buffered.buffer connection earlier topical)
  · intro connection member
    rcases (members connection).mp member with rfl | ⟨earlier, _⟩
    · exact buffered.erased chosen listed
    · exact buffered.erased connection earlier
  · intro connection member topicless
    rcases (members connection).mp member with rfl | ⟨earlier, _⟩
    · exact unread
    · exact buffered.unread connection earlier topicless
  · intro connection member made called
    rcases List.mem_append.mp member with mapped | ended
    · rcases (members connection).mp mapped with rfl | ⟨earlier, _⟩
      · exact (uncalled made called).elim
      · exact buffered.decodes connection (List.mem_append_left _ earlier) made called
    · exact buffered.decodes connection (List.mem_append_right _ ended) made called
  · intro fd free data member
    have apart : chosen.fd ≠ fd :=
      free (chosen.map call.topic) ((members _).mpr (.inl rfl))
    simp only [List.getElem?_set_ne apart] at member
    rcases getElem?_grow_cases member with earlier | empty
    · refine buffered.empty fd (fun connection also => ?_) data earlier
      by_cases same : connection = chosen
      · exact same ▸ apart
      · exact free connection ((members connection).mpr (.inr ⟨also, same⟩))
    · exact empty

/-! ## Bytes that are received -/

theorem erasedSize_le (data : List UInt8) (deleteSize : Int) :
    erasedSize data deleteSize ≤ data.length := by
  unfold erasedSize
  split
  · exact Nat.le_refl _
  · exact Nat.min_le_right _ _

theorem receive_eq {server : TCPServer} {decode : DecodeResult} {fd : Nat} {topic : String}
    {chunk buffered : List UInt8} (located : server.fdReceiveData[fd]? = some buffered) :
    server.receive decode fd topic chunk =
      let data := buffered ++ chunk
      let erased := erasedSize data (decode topic data)
      { server with
        fdReceiveData := server.fdReceiveData.set fd (data.drop erased)
        connections := server.connections.map fun connection =>
          if connection.fd = fd then connection.receive ⟨topic, data⟩ chunk erased
          else connection } := by
  unfold TCPServer.receive
  rw [located]

/-- The connections after the bytes: those of one descriptor went to its connection. -/
theorem Addressed.mem_receive {server : TCPServer} (addressed : server.Addressed)
    {chosen : ClientConnection} (listed : chosen ∈ server.connections) (call : DecodeCall)
    (chunk : List UInt8) (erased : Nat) (found : ClientConnection) :
    found ∈ (server.connections.map fun connection =>
      if connection.fd = chosen.fd then connection.receive call chunk erased else connection) ↔
      found = chosen.receive call chunk erased ∨ found ∈ server.connections ∧ found ≠ chosen := by
  apply mem_map_one listed
  intro connection member
  constructor
  · intro same
    by_contra apart
    exact addressed.fd_ne member listed apart same
  · rintro rfl
    rfl

/-- The maps know of a connection what a step has kept. -/
theorem Addressed.frame {server next : TCPServer} (addressed : server.Addressed)
    (fdToAddr : next.fdToAddr = server.fdToAddr)
    (addrToTopic : next.addrToTopic = server.addrToTopic)
    (unmapped : next.unmappedAddrToFd = server.unmappedAddrToFd) (epoll : next.epoll = server.epoll)
    (lone : ∀ first ∈ next.connections, ∀ second ∈ next.connections,
      first.fd = second.fd ∨ first.peer = second.peer → first = second)
    (kept : ∀ connection ∈ server.connections, ∃ later ∈ next.connections,
      later.fd = connection.fd ∧ later.peer = connection.peer ∧ later.topic = connection.topic)
    (earlier : ∀ later ∈ next.connections, ∃ connection ∈ server.connections,
      later.fd = connection.fd ∧ later.peer = connection.peer ∧ later.topic = connection.topic) :
    next.Addressed := by
  refine ⟨lone, ?_, ?_, ?_, ?_, ?_, ?_, ?_⟩
  · intro later member
    obtain ⟨connection, listed, fd, peer, _⟩ := earlier later member
    rw [fdToAddr, fd, peer]
    exact addressed.address connection listed
  · intro fd free
    rw [fdToAddr]
    apply addressed.nameless fd
    intro connection listed
    obtain ⟨later, member, same, _⟩ := kept connection listed
    exact same ▸ free later member
  · intro later member
    obtain ⟨connection, listed, _, peer, topic⟩ := earlier later member
    rw [addrToTopic, peer, topic]
    exact addressed.topic connection listed
  · intro addr topic found
    rw [addrToTopic] at found
    obtain ⟨connection, listed, named, topical⟩ := addressed.mapped addr topic found
    obtain ⟨later, member, _, peer, same⟩ := kept connection listed
    exact ⟨later, member, by rw [peer, named], by rw [same, topical]⟩
  · intro later member waits
    obtain ⟨connection, listed, fd, peer, topic⟩ := earlier later member
    rw [unmapped, fd, peer]
    exact addressed.waiting connection listed (topic ▸ waits)
  · intro addr fd found
    rw [unmapped] at found
    obtain ⟨connection, listed, named, same, waits⟩ := addressed.unmapped addr fd found
    obtain ⟨later, member, again, peer, topic⟩ := kept connection listed
    exact ⟨later, member, by rw [peer, named], again.trans same, by rw [topic, waits]⟩
  · intro fd polled
    rw [epoll] at polled
    obtain ⟨connection, listed, same, topical⟩ := addressed.polled fd polled
    obtain ⟨later, member, again, _, topic⟩ := kept connection listed
    exact ⟨later, member, again.trans same, by rwa [topic]⟩

theorem Addressed.receive {server : TCPServer} (addressed : server.Addressed)
    (decode : DecodeResult) {chosen : ClientConnection} (topic : String) (chunk : List UInt8)
    {buffered : List UInt8} (listed : chosen ∈ server.connections)
    (located : server.fdReceiveData[chosen.fd]? = some buffered) :
    (server.receive decode chosen.fd topic chunk).Addressed := by
  have members := addressed.mem_receive listed ⟨topic, buffered ++ chunk⟩ chunk
    (erasedSize (buffered ++ chunk) (decode topic (buffered ++ chunk)))
  rw [receive_eq located]
  apply addressed.frame
  · rfl
  · rfl
  · rfl
  · rfl
  · intro first member second other same
    rcases (members first).mp member with rfl | ⟨earlier, apart⟩ <;>
      rcases (members second).mp other with rfl | ⟨also, differs⟩
    · rfl
    · exact absurd (addressed.lone chosen listed second also same) differs.symm
    · exact absurd (addressed.lone first earlier chosen listed same) apart
    · exact addressed.lone first earlier second also same
  · intro connection member
    by_cases same : connection = chosen
    · subst same
      exact ⟨_, (members _).mpr (.inl rfl), rfl, rfl, rfl⟩
    · exact ⟨connection, (members connection).mpr (.inr ⟨member, same⟩), rfl, rfl, rfl⟩
  · intro later member
    rcases (members later).mp member with rfl | ⟨earlier, _⟩
    · exact ⟨chosen, listed, rfl, rfl, rfl⟩
    · exact ⟨later, earlier, rfl, rfl, rfl⟩

theorem Buffered.receive {server : TCPServer} (buffered : server.Buffered)
    (addressed : server.Addressed) (decode : DecodeResult) {chosen : ClientConnection}
    {topic : String} (chunk : List UInt8) (listed : chosen ∈ server.connections)
    (topical : chosen.topic = some topic) :
    (server.receive decode chosen.fd topic chunk).Buffered := by
  have located := buffered.buffer chosen listed (by rw [topical]; simp)
  have shorter := buffered.erased chosen listed
  have members := addressed.mem_receive listed
    ⟨topic, chosen.received.drop chosen.erased ++ chunk⟩ chunk
    (erasedSize (chosen.received.drop chosen.erased ++ chunk)
      (decode topic (chosen.received.drop chosen.erased ++ chunk)))
  have whole : chosen.received.drop chosen.erased ++ chunk =
      (chosen.received ++ chunk).drop chosen.erased :=
    (List.drop_append_of_le_length shorter).symm
  rw [receive_eq located]
  refine ⟨?_, ?_, ?_, ?_, ?_⟩
  · intro connection member mapped
    rcases (members connection).mp member with rfl | ⟨earlier, apart⟩
    · simp only [ClientConnection.receive]
      rw [List.getElem?_set_self (List.getElem?_eq_some_iff.mp located).1, whole, List.drop_drop]
    · simp only [List.getElem?_set_ne (addressed.fd_ne earlier listed apart).symm]
      exact buffered.buffer connection earlier mapped
  · intro connection member
    rcases (members connection).mp member with rfl | ⟨earlier, _⟩
    · have taken := erasedSize_le (chosen.received.drop chosen.erased ++ chunk)
        (decode topic (chosen.received.drop chosen.erased ++ chunk))
      simp only [ClientConnection.receive, List.length_append, List.length_drop] at taken ⊢
      omega
    · exact buffered.erased connection earlier
  · intro connection member topicless
    rcases (members connection).mp member with rfl | ⟨earlier, _⟩
    · cases topical.symm.trans topicless
    · exact buffered.unread connection earlier topicless
  · intro connection member call made
    rcases List.mem_append.mp member with mapped | ended
    · rcases (members connection).mp mapped with rfl | ⟨earlier, _⟩
      · rcases List.mem_append.mp made with before | last
        · have fits := buffered.decodes chosen (List.mem_append_left _ listed) call before
          exact ⟨fits.1, fits.2.trans (List.prefix_append _ _).isInfix⟩
        · cases List.mem_singleton.mp last
          refine ⟨topical, ?_⟩
          simp only [ClientConnection.receive, whole]
          exact (List.drop_suffix _ _).isInfix
      · exact buffered.decodes connection (List.mem_append_left _ earlier) call made
    · exact buffered.decodes connection (List.mem_append_right _ ended) call made
  · intro fd free data member
    have apart : chosen.fd ≠ fd := free (chosen.receive _ chunk _) ((members _).mpr (.inl rfl))
    simp only [List.getElem?_set_ne apart] at member
    refine buffered.empty fd (fun connection also => ?_) data member
    by_cases same : connection = chosen
    · exact same ▸ apart
    · exact free connection ((members connection).mpr (.inr ⟨also, same⟩))

/-! ## A connection that is closed -/

theorem closeAndDeleteEvent_eq {server : TCPServer} {fd : Nat} {addr : String} {data : List UInt8}
    (named : server.fdToAddr[fd]? = some addr) (held : server.fdReceiveData[fd]? = some data) :
    server.closeAndDeleteEvent fd = { server with
      unmappedAddrToFd := Function.update server.unmappedAddrToFd addr none
      addrToTopic := Function.update server.addrToTopic addr none
      fdToAddr := server.fdToAddr.set fd ""
      fdReceiveData := server.fdReceiveData.set fd []
      epoll := server.epoll.filter (· ≠ fd)
      connections := server.connections.filter (·.fd ≠ fd)
      closed := server.closed ++ server.connections.filter (·.fd = fd) } := by
  unfold TCPServer.closeAndDeleteEvent
  rw [named, held]

theorem mem_filter_fd_ne {connections : List ClientConnection} {fd : Nat}
    {connection : ClientConnection} :
    connection ∈ connections.filter (·.fd ≠ fd) ↔
      connection ∈ connections ∧ connection.fd ≠ fd := by
  rw [List.mem_filter, decide_eq_true_iff]

/-- The last connection of a descriptor leaves neither its address nor its bytes behind. -/
theorem getElem?_set_empty {Value : Type} {values : List Value} {empty : Value} {fd other : Nat}
    (before : fd ≠ other → ∀ value ∈ values[other]?, value = empty) :
    ∀ value ∈ (values.set fd empty)[other]?, value = empty := by
  intro value member
  by_cases same : fd = other
  · subst same
    rw [List.getElem?_set_self'] at member
    obtain ⟨_, _, rfl⟩ := Option.map_eq_some_iff.mp member
    rfl
  · rw [List.getElem?_set_ne same] at member
    exact before same value member

theorem Addressed.close {server : TCPServer} (addressed : server.Addressed)
    {chosen : ClientConnection} {data : List UInt8} (listed : chosen ∈ server.connections)
    (held : server.fdReceiveData[chosen.fd]? = some data) :
    (server.closeAndDeleteEvent chosen.fd).Addressed := by
  have others {connection : ClientConnection} (member : connection ∈ server.connections)
      (apart : connection.fd ≠ chosen.fd) : connection.peer.token ≠ chosen.peer.token := by
    refine addressed.token_ne member listed fun same => ?_
    exact apart (by rw [same])
  rw [closeAndDeleteEvent_eq (addressed.address chosen listed) held]
  refine ⟨?_, ?_, ?_, ?_, ?_, ?_, ?_, ?_⟩
  · intro first member second other same
    exact addressed.lone first (mem_filter_fd_ne.mp member).1 second (mem_filter_fd_ne.mp other).1
      same
  · intro connection member
    obtain ⟨earlier, apart⟩ := mem_filter_fd_ne.mp member
    simp only [List.getElem?_set_ne apart.symm]
    exact addressed.address connection earlier
  · intro fd free
    refine getElem?_set_empty fun apart => addressed.nameless fd fun connection member => ?_
    by_cases same : connection.fd = chosen.fd
    · exact same ▸ apart
    · exact free connection (mem_filter_fd_ne.mpr ⟨member, same⟩)
  · intro connection member
    obtain ⟨earlier, apart⟩ := mem_filter_fd_ne.mp member
    simp only [Function.update_of_ne (others earlier apart)]
    exact addressed.topic connection earlier
  · intro addr topic found
    by_cases same : addr = chosen.peer.token
    · subst same
      simp only [Function.update_self] at found
      cases found
    · simp only [Function.update_of_ne same] at found
      obtain ⟨connection, member, named, topical⟩ := addressed.mapped addr topic found
      refine ⟨connection, mem_filter_fd_ne.mpr ⟨member, fun equal => ?_⟩, named, topical⟩
      cases addressed.lone connection member chosen listed (.inl equal)
      exact same named.symm
  · intro connection member waits
    obtain ⟨earlier, apart⟩ := mem_filter_fd_ne.mp member
    simp only [Function.update_of_ne (others earlier apart)]
    exact addressed.waiting connection earlier waits
  · intro addr fd found
    by_cases same : addr = chosen.peer.token
    · subst same
      simp only [Function.update_self] at found
      cases found
    · simp only [Function.update_of_ne same] at found
      obtain ⟨connection, member, named, facts⟩ := addressed.unmapped addr fd found
      refine ⟨connection, mem_filter_fd_ne.mpr ⟨member, fun equal => ?_⟩, named, facts⟩
      cases addressed.lone connection member chosen listed (.inl equal)
      exact same named.symm
  · intro fd polled
    obtain ⟨earlier, apart⟩ := List.mem_filter.mp polled
    obtain ⟨connection, member, same, topical⟩ := addressed.polled fd earlier
    refine ⟨connection, mem_filter_fd_ne.mpr ⟨member, ?_⟩, same, topical⟩
    rw [same]
    exact of_decide_eq_true apart

theorem Buffered.close {server : TCPServer} (buffered : server.Buffered) {addr : String} {fd : Nat}
    {data : List UInt8} (named : server.fdToAddr[fd]? = some addr)
    (held : server.fdReceiveData[fd]? = some data) : (server.closeAndDeleteEvent fd).Buffered := by
  rw [closeAndDeleteEvent_eq named held]
  refine ⟨?_, ?_, ?_, ?_, ?_⟩
  · intro connection member mapped
    obtain ⟨earlier, apart⟩ := mem_filter_fd_ne.mp member
    simp only [List.getElem?_set_ne apart.symm]
    exact buffered.buffer connection earlier mapped
  · intro connection member
    exact buffered.erased connection (mem_filter_fd_ne.mp member).1
  · intro connection member topicless
    exact buffered.unread connection (mem_filter_fd_ne.mp member).1 topicless
  · intro connection member
    apply buffered.decodes
    rw [List.mem_append, mem_filter_fd_ne] at member
    rcases member with ⟨earlier, _⟩ | ended
    · exact List.mem_append_left _ earlier
    · rcases List.mem_append.mp ended with before | now
      · exact List.mem_append_right _ before
      · exact List.mem_append_left _ (List.mem_filter.mp now).1
  · intro other free
    refine getElem?_set_empty fun apart => buffered.empty other fun connection member => ?_
    by_cases same : connection.fd = fd
    · exact same ▸ apart
    · exact free connection (mem_filter_fd_ne.mpr ⟨member, same⟩)

/-! ## The events -/

theorem Joined.close {server : TCPServer} (joined : server.Joined) {chosen : ClientConnection}
    (listed : chosen ∈ server.connections) (mapped : chosen.topic ≠ none) :
    (server.closeAndDeleteEvent chosen.fd).Joined := by
  have named := joined.addressed.address chosen listed
  have held := joined.buffered.buffer chosen listed mapped
  refine ⟨?_, joined.addressed.close listed held, joined.buffered.close named held⟩
  rw [closeAndDeleteEvent_eq named held]
  exact joined.inside

/-- The connection that has received is still the one of its descriptor. -/
theorem Joined.receive {server : TCPServer} (joined : server.Joined) (decode : DecodeResult)
    {chosen : ClientConnection} {topic : String} (chunk : List UInt8)
    (listed : chosen ∈ server.connections) (topical : chosen.topic = some topic) :
    (server.receive decode chosen.fd topic chunk).Joined ∧
      ∃ later ∈ (server.receive decode chosen.fd topic chunk).connections,
        later.fd = chosen.fd ∧ later.topic = some topic := by
  have located := joined.buffered.buffer chosen listed (by rw [topical]; simp)
  have members := joined.addressed.mem_receive listed
  refine ⟨⟨?_, joined.addressed.receive decode topic chunk listed located,
    joined.buffered.receive joined.addressed decode chunk listed topical⟩, ?_⟩
  · rw [receive_eq located]
    exact joined.inside
  · rw [receive_eq located]
    exact ⟨_, (members _ _ _ _).mpr (.inl rfl), rfl, topical⟩

theorem Joined.recvLoop (decode : DecodeResult) {topic : String} (results : List RecvResult)
    {server : TCPServer} (joined : server.Joined) {chosen : ClientConnection}
    (listed : chosen ∈ server.connections) (topical : chosen.topic = some topic) :
    (recvLoop decode chosen.fd topic server results).Joined := by
  have mapped : chosen.topic ≠ none := by rw [topical]; simp
  induction results generalizing server chosen with
  | nil => exact joined
  | cons result rest ih =>
      cases result with
      | error errno =>
          unfold TCPServer.recvLoop
          split
          · exact joined
          · exact joined.close listed mapped
      | bytes received =>
          cases received with
          | nil => exact joined.close listed mapped
          | cons byte chunk =>
              obtain ⟨next, later, member, fd, remains⟩ :=
                joined.receive decode (byte :: chunk) listed topical
              unfold TCPServer.recvLoop
              rw [← fd] at next member ⊢
              exact ih next member remains (by rw [remains]; simp)

theorem Joined.clientEvent (decode : DecodeResult) {server : TCPServer} (joined : server.Joined)
    {fd : Nat} (polled : fd ∈ server.epoll) (hangUp : Bool) (results : List RecvResult) :
    (server.handleClientEvent decode fd hangUp results).Joined := by
  obtain ⟨chosen, listed, rfl, mapped⟩ := joined.addressed.polled fd polled
  obtain ⟨topic, topical⟩ := Option.ne_none_iff_exists'.mp mapped
  have named := joined.addressed.address chosen listed
  have found := (joined.addressed.topic chosen listed).trans topical
  unfold handleClientEvent
  simp only [named, found]
  split
  · exact joined.close listed mapped
  · split
    · exact joined.recvLoop decode results listed topical
    · exact joined

theorem Joined.acceptNewClient {server next : TCPServer} (joined : server.Joined)
    {accepted : Option (Nat × SockaddrIn)} {nonblocking : Bool}
    (accepts : server.Accepts accepted)
    (near : server.InReach (.acceptNewClient accepted nonblocking))
    (stepped : server.acceptNewClient accepted nonblocking = some next) : next.Joined := by
  unfold TCPServer.acceptNewClient at stepped
  split at stepped
  · rename_i clientFd addr
    have fresh : server.Fresh clientFd addr := accepts (clientFd, addr) rfl
    refine ⟨?_, joined.addressed.storeClient fresh near stepped,
      joined.buffered.storeClient near stepped⟩
    rw [storeClient_eq_some near stepped]
    exact joined.inside
  · cases stepped
    exact joined

theorem Joined.acceptLocked {server : TCPServer} (joined : server.Joined) {call : AcceptCall}
    (ready : ∃ fd ∈ server.unmappedAddrToFd call.token, Reaches server.fdReceiveData fd)
    (added : Bool) : (server.acceptLocked call added).Joined := by
  obtain ⟨fd, found, near⟩ := ready
  refine ⟨?_, joined.addressed.acceptLocked found near added,
    joined.buffered.acceptLocked joined.addressed found near added⟩
  rw [acceptLocked_eq found near added]
  exact joined.inside

/-- The calls that wait for the lock and the decoders concern no map. -/
theorem Joined.waits {server : TCPServer} (joined : server.Joined) (accepting : List AcceptCall)
    (decoders : List String) :
    { server with accepting := accepting, decoders := decoders }.Joined :=
  ⟨joined.inside, { joined.addressed with }, { joined.buffered with }⟩

theorem Joined.step (decode : DecodeResult) {server next : TCPServer} {action : ServerAction}
    (joined : server.Joined) (inOrder : server.InOrder action)
    (stepped : server.step decode action = some next) : next.Joined := by
  have running : ¬ server.outside = true := by
    rw [joined.inside]
    exact Bool.false_ne_true
  simp only [TCPServer.step, if_neg running] at stepped
  cases action with
  | acceptNewClient accepted nonblocking =>
      simp only [Option.ite_none_right_eq_some] at stepped
      exact joined.acceptNewClient stepped.1 inOrder.1 stepped.2
  | acceptClient topic ip port =>
      cases stepped
      unfold TCPServer.acceptClient
      split
      · exact joined.waits _ server.decoders
      · exact joined
  | acceptLocked index added =>
      obtain ⟨call, waiting, rfl⟩ := Option.map_eq_some_iff.mp stepped
      exact (joined.acceptLocked (inOrder.found waiting) added).waits _ _
  | addDecoder topic =>
      cases stepped
      exact joined.waits server.accepting _
  | clientEvent fd hangUp results =>
      simp only [Option.ite_none_right_eq_some, Option.some.injEq] at stepped
      obtain ⟨polled, rfl⟩ := stepped
      exact joined.clientEvent decode (List.contains_iff_mem.mp polled) hangUp results

theorem joined_initial : initial.Joined where
  inside := rfl
  addressed := by
    refine ⟨?_, ?_, ?_, ?_, ?_, ?_, ?_, ?_⟩
    · intro _ member
      cases member
    · intro _ member
      cases member
    · intro fd _ text located
      exact List.eq_of_mem_replicate (List.mem_of_getElem? located)
    · intro _ member
      cases member
    · intro _ _ found
      cases found
    · intro _ member
      cases member
    · intro _ _ found
      cases found
    · intro _ member
      cases member
  buffered := by
    refine ⟨?_, ?_, ?_, ?_, ?_⟩
    · intro _ member
      cases member
    · intro _ member
      cases member
    · intro _ member
      cases member
    · intro _ member
      cases member
    · intro _ _ _ located
      cases located

/-! ## Where the connections come together -/

theorem not_isolated_of_outside {server : TCPServer} (outside : server.outside = true) :
    ¬ server.Isolated := by
  intro isolated
  cases outside.symm.trans isolated.inside

/-- One step of 100 does not reach every descriptor. -/
theorem storeClient_far {server next : TCPServer} {clientFd : Nat} {addr : SockaddrIn}
    (far : ¬ Reaches server.fdToAddr clientFd)
    (stored : server.storeClient clientFd addr = some next) : ¬ next.Isolated := by
  unfold storeClient at stored
  obtain ⟨srcIp, _, rfl⟩ := Option.map_eq_some_iff.mp stored
  simp only [if_neg (mt (lt_length_grow_iff "").mp far)]
  exact not_isolated_of_outside rfl

theorem acceptLocked_far {server : TCPServer} {call : AcceptCall} {fd : Nat}
    (found : server.unmappedAddrToFd call.token = some fd)
    (far : ¬ Reaches server.fdReceiveData fd) (added : Bool) :
    ¬ (server.acceptLocked call added).Isolated := by
  unfold acceptLocked
  simp only [found, Option.getD_some, if_neg (mt (lt_length_grow_iff []).mp far)]
  exact not_isolated_of_outside rfl

/-- A call that is late gives a topic to an address without a connection. The next connection
from there is in both maps. -/
theorem acceptLocked_late {server next : TCPServer} {call : AcceptCall} {addr : SockaddrIn}
    {clientFd : Nat} (late : server.unmappedAddrToFd call.token = none)
    (named : addr.token = call.token) (added : Bool)
    (stored : (server.acceptLocked call added).storeClient clientFd addr = some next) :
    ¬ next.Isolated := by
  have mapped : (server.acceptLocked call added).outside = true ∨
      (server.acceptLocked call added).addrToTopic call.token = some call.topic := by
    unfold acceptLocked
    simp only [late, Option.getD_none]
    split
    · exact .inr (by simp only [Function.update_self])
    · exact .inl rfl
  unfold storeClient at stored
  obtain ⟨srcIp, text, rfl⟩ := Option.map_eq_some_iff.mp stored
  cases inetNtop_eq_some text
  simp only
  split
  · rcases mapped with outside | topical
    · exact not_isolated_of_outside outside
    · intro isolated
      rcases isolated.apart call.token with free | free
      · have waits : Topic.token addr.sinAddr.dotted addr.sinPort.toNat = call.token := named
        simp only [waits, Function.update_self] at free
        cases free
      · cases topical.symm.trans free
  · exact not_isolated_of_outside rfl

/-! ## Runs -/

theorem isolated_of_inOrder (decode : DecodeResult) (run : List ServerAction)
    (inOrder : (machine decode).Obeys InOrder initial run) :
    (machine decode).Along Isolated initial run := by
  have joined : (machine decode).Along Joined initial run :=
    (machine decode).along_of_obeys
      (fun _ _ _ joined allowed stepped => joined.step decode allowed stepped) joined_initial
      inOrder
  exact joined.mono fun _ joined => joined.isolated

instance (server : TCPServer) : (action : ServerAction) → Decidable (server.InReach action)
  | .acceptNewClient (some (clientFd, _)) true =>
      inferInstanceAs (Decidable (Reaches server.fdToAddr clientFd))
  | .acceptNewClient (some _) false | .acceptNewClient none _ => isTrue trivial
  | .acceptLocked index _ => inferInstanceAs (Decidable (∀ call ∈ server.accepting[index]?,
      Reaches server.fdReceiveData ((server.unmappedAddrToFd call.token).getD 0)))
  | .acceptClient _ _ _ | .addDecoder _ | .clientEvent _ _ _ => isTrue trivial

instance (server : TCPServer) : (action : ServerAction) → Decidable (server.StillUnmapped action)
  | .acceptLocked index _ => inferInstanceAs (Decidable (∀ call ∈ server.accepting[index]?,
      (server.unmappedAddrToFd call.token).isSome = true))
  | .acceptNewClient _ _ | .acceptClient _ _ _ | .addDecoder _ | .clientEvent _ _ _ =>
      isTrue trivial

instance (server : TCPServer) (action : ServerAction) : Decidable (server.InOrder action) :=
  inferInstanceAs (Decidable (_ ∧ _))

def flagDecoders : DecodeResult := deleteSize fun _ => Receiver.flagType

def localPeer : SockaddrIn := ⟨⟨127, 0, 0, 1⟩, 40000⟩

/-- A descriptor and its address are used for two connections, in two topics. -/
def usedAgain : List ServerAction :=
  [.addDecoder "bumper", .addDecoder "switch",
    .acceptNewClient (some (5, localPeer)) true, .acceptClient "bumper" "127.0.0.1" 40000,
    .acceptLocked 0 true, .clientEvent 5 false [.bytes [2, 0, 0, 0, 8, 1, 2], .error EAGAIN],
    .clientEvent 5 false [.bytes []],
    .acceptNewClient (some (5, localPeer)) true, .acceptClient "switch" "127.0.0.1" 40000,
    .acceptLocked 0 true, .clientEvent 5 false [.bytes [2, 0, 0, 0, 8, 1], .error EAGAIN]]

theorem isolated_of_inOrder_usedAgain :
    (machine flagDecoders).Along Isolated initial usedAgain ∧
      ((machine flagDecoders).exec initial usedAgain).map (fun server =>
        server.connections.map ClientConnection.decodes) =
          some [[⟨"switch", [2, 0, 0, 0, 8, 1]⟩]] :=
  ⟨isolated_of_inOrder flagDecoders usedAgain (by decide +kernel), by decide +kernel⟩

/-- Two calls of `accept_client` find one address. The second gets the lock after the connection
of the first has closed, and the address comes back. -/
def calledTwice : List ServerAction :=
  [.acceptNewClient (some (5, localPeer)) true, .acceptClient "bumper" "127.0.0.1" 40000,
    .acceptClient "switch" "127.0.0.1" 40000, .acceptLocked 0 true, .clientEvent 5 true [],
    .acceptLocked 0 true, .acceptNewClient (some (5, localPeer)) true]

theorem calledTwice_not_isolated :
    ¬ (machine flagDecoders).Along Isolated initial calledTwice := by
  intro along
  have evaluated : ((machine flagDecoders).exec initial calledTwice).map (fun server =>
      (server.unmappedAddrToFd localPeer.token, server.addrToTopic localPeer.token)) =
      some (some 5, some "switch") := by
    decide +kernel
  obtain ⟨final, executed, maps⟩ := Option.map_eq_some_iff.mp evaluated
  obtain ⟨waits, topical⟩ := Prod.mk.inj maps
  rcases (along.final executed).apart localPeer.token with free | free
  · cases waits.symm.trans free
  · cases topical.symm.trans free

end TCPServer

end ProtoCore.Topic
