import ProtoCore.Topic.FdIndices

/-!
# The addresses of a handshake

A call of `add_client` tells the truth: its future is true only for a socket that it has
registered, and `client_info` has the address of that socket. On the other side each address that
has not been found yet belongs to one call of `accept_client`, and the server keeps it for that
call.
-/

set_option autoImplicit false

namespace ProtoCore.Topic

open Library

/-! ## The calls of a publisher -/

namespace ConnectAttempt

/-- What later states of a call have in common with earlier ones. -/
structure Advances (before after : ConnectAttempt) : Prop where
  topic : after.topic = before.topic
  address : after.address = before.address
  inserted : before.inserted = true → after.inserted = true

/-- A future is true only for a socket that was registered, and the address in `client_info` is
that of the socket. -/
structure Honest (attempt : ConnectAttempt) : Prop where
  told : true ∈ attempt.values → attempt.inserted = true
  named : attempt.stage = .select ∨ attempt.inserted = true → ∃ addr,
    attempt.address = some addr ∧ getSocketInfo (some addr) = .info attempt.ip attempt.port

theorem Kept.advances {before after : ConnectAttempt} (kept : Kept before after) :
    Advances before after where
  topic := kept.topic
  address := kept.address
  inserted inserted := kept.inserted.trans inserted

theorem Honest.kept {before after : ConnectAttempt} (honest : before.Honest)
    (kept : Kept before after) : after.Honest where
  told := by
    rw [kept.values, kept.inserted]
    exact honest.told
  named := by
    rw [kept.stage, kept.inserted, kept.address, kept.ip, kept.port]
    exact honest.named

theorem Honest.enter {attempt : ConnectAttempt} (honest : attempt.Honest) {stage : ConnectStage}
    (onward : stage ≠ .select) : (attempt.enter stage).Honest where
  told := honest.told
  named named := by
    rcases named with waits | inserted
    · exact absurd waits onward
    · exact honest.named (.inr inserted)

theorem Honest.setFalse {attempt : ConnectAttempt} (honest : attempt.Honest) :
    (attempt.setValue false).Honest where
  told told := by
    rcases List.mem_append.mp told with earlier | last
    · exact honest.told earlier
    · cases List.mem_singleton.mp last
  named := honest.named

theorem Honest.setTrue {attempt : ConnectAttempt} (honest : attempt.Honest)
    (inserted : attempt.inserted = true) : (attempt.setValue true).Honest :=
  ⟨fun _ => inserted, honest.named⟩

theorem Honest.close {attempt : ConnectAttempt} (honest : attempt.Honest) : attempt.close.Honest :=
  ⟨honest.told, honest.named⟩

theorem Honest.of_ended {attempt : ConnectAttempt} (untold : true ∉ attempt.values)
    (ended : attempt.stage = .ended) (free : attempt.inserted = false) : attempt.Honest where
  told told := absurd told untold
  named named := by
    rcases named with waits | inserted
    · cases ended.symm.trans waits
    · cases free.symm.trans inserted

theorem connectAttempt_honest (topic : String) (calls : ConnectCalls) :
    (connectAttempt topic calls).Honest := by
  have untold : true ∉ [false] := by decide
  have attempted := connectAttempt_cases topic calls
  generalize connectAttempt topic calls = attempt at attempted ⊢
  cases attempted with
  | noSocket | blocking | connected | null => exact .of_ended List.not_mem_nil rfl rfl
  | noAddress | failed | unnamed => exact .of_ended untold rfl rfl
  | @waiting fd ip port _ _ _ _ name =>
      refine ⟨fun told => absurd told List.not_mem_nil, fun _ => ?_⟩
      cases named : calls.getsockname with
      | none =>
          rw [named] at name
          cases name
      | some addr => exact ⟨addr, rfl, named ▸ name⟩

theorem connectAttempt_topic (topic : String) (calls : ConnectCalls) :
    (connectAttempt topic calls).topic = topic := by
  have attempted := connectAttempt_cases topic calls
  generalize connectAttempt topic calls = attempt at attempted ⊢
  cases attempted <;> rfl

end ConnectAttempt

namespace ClientSockets

/-- The call at the index after a step. It is only registered by its own `select`. -/
def Carried (index : Nat) (attempt : ConnectAttempt) (action : SocketAction)
    (next : ClientSockets) : Prop :=
  ∃ later, next.attempts[index]? = some later ∧ attempt.Advances later ∧
    (later.inserted = true → attempt.inserted = true ∨ action = .select index true (some 0))

theorem carried_same {sockets next : ClientSockets} {index : Nat} {attempt : ConnectAttempt}
    {action : SocketAction} (located : sockets.attempts[index]? = some attempt)
    (same : next.attempts = sockets.attempts) : Carried index attempt action next :=
  ⟨attempt, same ▸ located, ⟨rfl, rfl, id⟩, .inl⟩

theorem carried_modify {sockets next : ClientSockets} {index position : Nat}
    {attempt : ConnectAttempt} {action : SocketAction}
    (located : sockets.attempts[index]? = some attempt)
    {others change : ConnectAttempt → ConnectAttempt}
    (kept : ∀ attempt, ConnectAttempt.Kept attempt (others attempt))
    (moved : next.attempts = (sockets.attempts.map others).modify position change)
    (advances : ∀ attempt, ConnectAttempt.Advances attempt (change attempt))
    (inserts : ∀ attempt, (change attempt).inserted = true →
      attempt.inserted = true ∨ action = .select position true (some 0)) :
    Carried index attempt action next := by
  have mapped : (sockets.attempts.map others)[index]? = some (others attempt) := by
    rw [List.getElem?_map, located, Option.map_some]
  by_cases here : position = index
  · subst here
    refine ⟨change (others attempt), ?_, ?_, fun inserted => ?_⟩
    · rw [moved, List.getElem?_modify_eq, mapped]
      rfl
    · have first := (kept attempt).advances
      have second := advances (others attempt)
      exact ⟨second.topic.trans first.topic, second.address.trans first.address,
        fun inserted => second.inserted (first.inserted inserted)⟩
    · exact (inserts _ inserted).imp_left (kept attempt).inserted.symm.trans
  · refine ⟨others attempt, ?_, (kept attempt).advances, fun inserted => ?_⟩
    · rw [moved, List.getElem?_modify_ne change _ here, mapped]
    · exact .inl ((kept attempt).inserted.symm.trans inserted)

/-- A statement of one thread that closes nothing. -/
theorem carried_one {sockets next : ClientSockets} {index position : Nat}
    {attempt : ConnectAttempt} {action : SocketAction}
    (located : sockets.attempts[index]? = some attempt)
    {change : ConnectAttempt → ConnectAttempt}
    (moved : next.attempts = sockets.attempts.modify position change)
    (advances : ∀ attempt, ConnectAttempt.Advances attempt (change attempt))
    (inserts : ∀ attempt, (change attempt).inserted = true →
      attempt.inserted = true ∨ action = .select position true (some 0)) :
    Carried index attempt action next :=
  carried_modify located kept_refl (moved.trans (by rw [List.map_id])) advances inserts

theorem Stepped.carried {sockets next : ClientSockets} {action : SocketAction}
    (stepped : Stepped sockets action next) {index : Nat} {attempt : ConnectAttempt}
    (located : sockets.attempts[index]? = some attempt) : Carried index attempt action next := by
  cases stepped with
  | addClient =>
      have inside := (List.getElem?_eq_some_iff.mp located).1
      exact ⟨attempt, (List.getElem?_append_left inside).trans located, ⟨rfl, rfl, id⟩, .inl⟩
  | @giveUp _ _ _ _ fd =>
      exact carried_modify located (fun attempt => attempt.release_kept fd) rfl
        (fun _ => ⟨rfl, rfl, id⟩) fun _ => .inl
  | unread | resize | assign | notify | write =>
      exact carried_one located rfl (fun _ => ⟨rfl, rfl, id⟩) fun _ => .inl
  | register =>
      exact carried_one located rfl (fun _ => ⟨rfl, rfl, fun _ => rfl⟩) fun _ _ => .inr rfl
  | @writeFailed _ _ _ own fd =>
      exact carried_modify located
        (fun other => (other.erase_kept own.topic fd).trans (ConnectAttempt.release_kept _ fd)) rfl
        (fun _ => ⟨rfl, rfl, id⟩) fun _ => .inl
  | @nextFailed _ topic _ fd =>
      have kept := attempt.drop_kept topic fd
      refine ⟨attempt.drop topic fd, ?_, kept.advances, fun inserted => ?_⟩
      · have dropped : (sockets.attempts.map (·.drop topic fd))[index]? =
            some (attempt.drop topic fd) := by
          rw [List.getElem?_map, located, Option.map_some]
        exact dropped
      · exact .inl (kept.inserted.symm.trans inserted)
  | _ => exact carried_same located rfl

/-- Every call stays honest. -/
theorem Stepped.honest {sockets next : ClientSockets} {action : SocketAction}
    (stepped : Stepped sockets action next) (roomy : sockets.Roomy)
    (honest : ∀ attempt ∈ sockets.attempts, attempt.Honest) :
    ∀ attempt ∈ next.attempts, attempt.Honest := by
  have mapped {others : ConnectAttempt → ConnectAttempt}
      (kept : ∀ attempt, ConnectAttempt.Kept attempt (others attempt)) :
      ∀ attempt ∈ sockets.attempts.map others, attempt.Honest := by
    intro attempt member
    obtain ⟨before, listed, rfl⟩ := List.mem_map.mp member
    exact (honest before listed).kept (kept before)
  cases stepped with
  | @addClient topic calls =>
      intro attempt member
      rcases List.mem_append.mp member with earlier | last
      · exact honest attempt earlier
      · cases List.mem_singleton.mp last
        exact ConnectAttempt.connectAttempt_honest topic calls
  | @giveUp index _ _ own fd thread =>
      have released := mapped fun attempt => attempt.release_kept fd
      refine forall_mem_modify released fun attempt found => ?_
      exact (released attempt (List.mem_of_getElem? found)).close.setFalse.enter (by decide)
  | unread thread =>
      refine forall_mem_modify honest fun attempt found => ?_
      exact (honest attempt (List.mem_of_getElem? found)).setFalse.enter (by decide)
  | register thread =>
      refine forall_mem_modify honest fun attempt found => ?_
      cases thread.located.symm.trans found
      exact ⟨fun _ => rfl, fun _ => (honest _ (List.mem_of_getElem? found)).named
        (.inl thread.stage)⟩
  | notify thread =>
      refine forall_mem_modify honest fun attempt found => ?_
      cases thread.located.symm.trans found
      have member := List.mem_of_getElem? found
      have inserted := (roomy.fits _ member).inserted_of_stage thread.stage nofun nofun
      exact ((honest _ member).setTrue inserted).enter nofun
  | resize | assign | write =>
      refine forall_mem_modify honest fun attempt found => ?_
      exact (honest attempt (List.mem_of_getElem? found)).enter nofun
  | @writeFailed _ _ _ own fd _ _ thread =>
      have released := mapped fun other =>
        (other.erase_kept own.topic fd).trans (ConnectAttempt.release_kept _ fd)
      refine forall_mem_modify released fun attempt found => ?_
      exact (released attempt (List.mem_of_getElem? found)).close.enter nofun
  | @nextFailed _ topic _ fd => exact mapped fun attempt => attempt.drop_kept topic fd
  | _ => exact honest

end ClientSockets

/-! ## The server of the subscriber -/

namespace TCPServer

/-- Neither the addresses that wait for their calls nor these calls have changed, and there is no
new peer. -/
structure Aside (before after : TCPServer) : Prop where
  unmapped : after.unmappedAddrToFd = before.unmappedAddrToFd
  accepting : after.accepting = before.accepting
  peers : ∀ connection ∈ after.connections, ∃ earlier ∈ before.connections,
    earlier.peer = connection.peer

theorem Aside.refl (server : TCPServer) : Aside server server :=
  ⟨rfl, rfl, fun connection listed => ⟨connection, listed, rfl⟩⟩

theorem Aside.trans {first second third : TCPServer} (left : Aside first second)
    (right : Aside second third) : Aside first third where
  unmapped := right.unmapped.trans left.unmapped
  accepting := right.accepting.trans left.accepting
  peers connection listed := by
    obtain ⟨middle, member, same⟩ := right.peers connection listed
    obtain ⟨earlier, listed, also⟩ := left.peers middle member
    exact ⟨earlier, listed, also.trans same⟩

/-- The address of a connection that has its topic waits for no call. -/
theorem Addressed.unmapped_eq_none {server : TCPServer} (addressed : server.Addressed)
    {chosen : ClientConnection} (listed : chosen ∈ server.connections)
    (mapped : chosen.topic ≠ none) : server.unmappedAddrToFd chosen.peer.token = none := by
  by_contra waits
  obtain ⟨fd, found⟩ := Option.ne_none_iff_exists'.mp waits
  obtain ⟨connection, member, same, _, topicless⟩ := addressed.unmapped _ fd found
  cases addressed.lone connection member chosen listed (.inr (SockaddrIn.token_inj same))
  exact mapped topicless

theorem Joined.close_aside {server : TCPServer} (joined : server.Joined)
    {chosen : ClientConnection} (listed : chosen ∈ server.connections)
    (mapped : chosen.topic ≠ none) : Aside server (server.closeAndDeleteEvent chosen.fd) := by
  rw [closeAndDeleteEvent_eq (joined.addressed.address chosen listed)
    (joined.buffered.buffer chosen listed mapped)]
  refine ⟨?_, rfl, fun connection member => ?_⟩
  · exact Function.update_eq_self_iff.mpr (joined.addressed.unmapped_eq_none listed mapped).symm
  · exact ⟨connection, (mem_filter_fd_ne.mp member).1, rfl⟩

theorem Joined.receive_aside {server : TCPServer} (joined : server.Joined) (decode : DecodeResult)
    {chosen : ClientConnection} (listed : chosen ∈ server.connections)
    (mapped : chosen.topic ≠ none) (topic : String) (chunk : List UInt8) :
    Aside server (server.receive decode chosen.fd topic chunk) := by
  rw [receive_eq (joined.buffered.buffer chosen listed mapped)]
  refine ⟨rfl, rfl, fun connection member => ?_⟩
  obtain ⟨earlier, listed, rfl⟩ := List.mem_map.mp member
  refine ⟨earlier, listed, ?_⟩
  split
  · rfl
  · rfl

theorem Joined.recvLoop_aside (decode : DecodeResult) {topic : String} (results : List RecvResult)
    {server : TCPServer} (joined : server.Joined) {chosen : ClientConnection}
    (listed : chosen ∈ server.connections) (topical : chosen.topic = some topic) :
    Aside server (TCPServer.recvLoop decode chosen.fd topic server results) := by
  have mapped : chosen.topic ≠ none := by
    rw [topical]
    exact Option.some_ne_none topic
  induction results generalizing server chosen with
  | nil => exact .refl server
  | cons result rest ih =>
      cases result with
      | error errno =>
          unfold TCPServer.recvLoop
          split
          · exact .refl server
          · exact joined.close_aside listed mapped
      | bytes received =>
          cases received with
          | nil => exact joined.close_aside listed mapped
          | cons byte chunk =>
              have once := joined.receive_aside decode listed mapped topic (byte :: chunk)
              obtain ⟨next, later, member, fd, remains⟩ :=
                joined.receive decode (byte :: chunk) listed topical
              unfold TCPServer.recvLoop
              rw [← fd] at next member once ⊢
              refine once.trans (ih next member remains ?_)
              rw [remains]
              exact Option.some_ne_none topic

theorem Joined.clientEvent_aside (decode : DecodeResult) {server : TCPServer}
    (joined : server.Joined) {fd : Nat} (polled : fd ∈ server.epoll) (hangUp : Bool)
    (results : List RecvResult) :
    Aside server (server.handleClientEvent decode fd hangUp results) := by
  obtain ⟨chosen, listed, rfl, mapped⟩ := joined.addressed.polled fd polled
  obtain ⟨topic, topical⟩ := Option.ne_none_iff_exists'.mp mapped
  have named := joined.addressed.address chosen listed
  have found := (joined.addressed.topic chosen listed).trans topical
  unfold handleClientEvent
  simp only [named, found]
  split
  · exact joined.close_aside listed mapped
  · split
    · exact joined.recvLoop_aside decode results listed topical
    · exact .refl server

end TCPServer

/-! ## The calls of `accept_client` -/

/-- What the calls of `accept_client` rely on. `held` are the addresses that have not been found
yet: each of them is still to be accepted or waits for one call, and so does the address of each
call that waits for the lock. -/
structure Claims (held : List SockaddrIn) (server : TCPServer) (backlog : List SockaddrIn) :
    Prop where
  joined : server.Joined
  distinct : (held.map SockaddrIn.token ++ server.accepting.map AcceptCall.token).Nodup
  known : ∀ addr ∈ held,
    addr ∈ backlog ∨ (server.unmappedAddrToFd addr.token).isSome = true
  locked : ∀ call ∈ server.accepting, (server.unmappedAddrToFd call.token).isSome = true
  once : backlog.Nodup
  apart : ∀ addr ∈ backlog, ∀ connection ∈ server.connections, connection.peer ≠ addr

/-- The addresses that wait for their calls still do. -/
def Retains (held : List SockaddrIn) (before after : TCPServer) : Prop :=
  ∀ addr ∈ held, (before.unmappedAddrToFd addr.token).isSome = true →
    (after.unmappedAddrToFd addr.token).isSome = true

namespace Claims

variable {held : List SockaddrIn} {server : TCPServer} {backlog : List SockaddrIn}

theorem perm (claims : Claims held server backlog) {other : List SockaddrIn}
    (same : held.Perm other) : Claims other server backlog where
  joined := claims.joined
  distinct := ((same.map SockaddrIn.token).append_right _).nodup_iff.mp claims.distinct
  known addr member := claims.known addr (same.mem_iff.mpr member)
  locked := claims.locked
  once := claims.once
  apart := claims.apart

theorem release {addr : SockaddrIn} (claims : Claims (addr :: held) server backlog) :
    Claims held server backlog where
  joined := claims.joined
  distinct := (List.nodup_cons.mp claims.distinct).2
  known other member := claims.known other (List.mem_cons_of_mem _ member)
  locked := claims.locked
  once := claims.once
  apart := claims.apart

theorem forget {found : Option SockaddrIn} (claims : Claims (found.toList ++ held) server backlog) :
    Claims held server backlog := by
  cases found with
  | none => exact claims
  | some addr => exact claims.release

/-- An address that is used nowhere is held by nobody. -/
theorem unheld (claims : Claims held server backlog) {addr : SockaddrIn} (fresh : addr ∉ backlog)
    (unused : ∀ connection ∈ server.connections, connection.peer ≠ addr) :
    addr.token ∉ held.map SockaddrIn.token ++ server.accepting.map AcceptCall.token := by
  have unwaited : server.unmappedAddrToFd addr.token = none := by
    by_contra waits
    obtain ⟨fd, found⟩ := Option.ne_none_iff_exists'.mp waits
    obtain ⟨connection, listed, same, _⟩ := claims.joined.addressed.unmapped _ fd found
    exact unused connection listed (SockaddrIn.token_inj same)
  intro member
  rcases List.mem_append.mp member with member | member
  · obtain ⟨other, listed, same⟩ := List.mem_map.mp member
    cases SockaddrIn.token_inj same
    rcases claims.known addr listed with queued | waits
    · exact fresh queued
    · rw [unwaited] at waits
      cases waits
  · obtain ⟨call, listed, same⟩ := List.mem_map.mp member
    have waits := claims.locked call listed
    rw [same, unwaited] at waits
    cases waits

theorem foreign (claims : Claims held server backlog) {addr : SockaddrIn} (fresh : addr ∉ backlog)
    (unused : ∀ connection ∈ server.connections, connection.peer ≠ addr) :
    Claims held server (backlog ++ [addr]) where
  joined := claims.joined
  distinct := claims.distinct
  known other member := (claims.known other member).imp_left (List.mem_append_left _)
  locked := claims.locked
  once := by
    refine List.nodup_append.mpr ⟨claims.once, List.nodup_singleton addr, ?_⟩
    rintro first member _ last rfl
    exact fresh (List.mem_singleton.mp last ▸ member)
  apart other member := by
    rcases List.mem_append.mp member with earlier | last
    · exact claims.apart other earlier
    · cases List.mem_singleton.mp last
      exact unused

theorem establish (claims : Claims held server backlog) {addr : SockaddrIn}
    (fresh : addr ∉ backlog)
    (unused : ∀ connection ∈ server.connections, connection.peer ≠ addr) :
    Claims (addr :: held) server (backlog ++ [addr]) where
  joined := claims.joined
  distinct := List.nodup_cons.mpr ⟨claims.unheld fresh unused, claims.distinct⟩
  known other member := by
    rcases List.mem_cons.mp member with rfl | earlier
    · exact .inl (List.mem_append_right _ (List.mem_singleton_self _))
    · exact (claims.foreign fresh unused).known other earlier
  locked := claims.locked
  once := (claims.foreign fresh unused).once
  apart := (claims.foreign fresh unused).apart

theorem tested (claims : Claims held server backlog) {decode : TCPServer.DecodeResult}
    {topic ip : String} {port : Int} {next : TCPServer}
    (stepped : server.step decode (.acceptClient topic ip port) = some next) :
    next = server.acceptClient topic ip port := by
  unfold TCPServer.step at stepped
  rw [if_neg (Bool.eq_false_iff.mp claims.joined.inside)] at stepped
  exact (Option.some.inj stepped).symm

/-- The count test finds the address. -/
theorem found {addr : SockaddrIn} (claims : Claims (addr :: held) server backlog) (topic : String)
    (waits : (server.unmappedAddrToFd addr.token).isSome = true) :
    Claims held { server with accepting := server.accepting ++ [⟨topic, addr.token⟩] } backlog where
  joined := claims.joined.waits _ server.decoders
  distinct := by
    have moved : ((addr :: held).map SockaddrIn.token ++
        server.accepting.map AcceptCall.token).Perm (held.map SockaddrIn.token ++
          (server.accepting ++ [(⟨topic, addr.token⟩ : AcceptCall)]).map AcceptCall.token) := by
      rw [List.map_append, ← List.append_assoc]
      exact (List.perm_append_singleton _ _).symm
    exact moved.nodup_iff.mp claims.distinct
  known other member := claims.known other (List.mem_cons_of_mem _ member)
  locked call member := by
    rcases List.mem_append.mp member with earlier | last
    · exact claims.locked call earlier
    · cases List.mem_singleton.mp last
      exact waits
  once := claims.once
  apart := claims.apart

theorem aside (claims : Claims held server backlog) {next : TCPServer}
    (aside : TCPServer.Aside server next) (joined : next.Joined) : Claims held next backlog where
  joined := joined
  distinct := by
    rw [aside.accepting]
    exact claims.distinct
  known := by
    rw [aside.unmapped]
    exact claims.known
  locked := by
    rw [aside.accepting, aside.unmapped]
    exact claims.locked
  once := claims.once
  apart addr queued connection listed := by
    obtain ⟨earlier, member, same⟩ := aside.peers connection listed
    exact same ▸ claims.apart addr queued earlier member

/-- The server accepts the connection that has waited longest. -/
theorem acceptNewClient {addr : SockaddrIn} (claims : Claims held server (addr :: backlog))
    {next : TCPServer} {fd : Nat} (accepts : server.Accepts (some (fd, addr)))
    (near : Reaches server.fdToAddr fd)
    (stored : server.acceptNewClient (some (fd, addr)) true = some next) :
    Claims held next backlog ∧ Retains held server next ∧
      (next.unmappedAddrToFd addr.token).isSome = true := by
  have reach : server.InReach (.acceptNewClient (some (fd, addr)) true) := near
  have joined := claims.joined.acceptNewClient accepts reach stored
  have after := TCPServer.storeClient_eq_some near stored
  have unmapped : next.unmappedAddrToFd =
      Function.update server.unmappedAddrToFd addr.token (some fd) := by
    rw [after]
  have accepting : next.accepting = server.accepting := by
    rw [after]
  have connections : next.connections =
      server.connections ++ [ClientConnection.accepted fd addr] := by
    rw [after]
  have found : (next.unmappedAddrToFd addr.token).isSome = true := by
    rw [unmapped, Function.update_self]
    rfl
  have kept (token : String) (waits : (server.unmappedAddrToFd token).isSome = true) :
      (next.unmappedAddrToFd token).isSome = true := by
    by_cases same : token = addr.token
    · rw [same]
      exact found
    · rw [unmapped, Function.update_of_ne same]
      exact waits
  refine ⟨⟨joined, ?_, fun other member => ?_, ?_, (List.nodup_cons.mp claims.once).2,
    fun other queued connection listed => ?_⟩, fun other _ => kept other.token, found⟩
  · rw [accepting]
    exact claims.distinct
  · rcases claims.known other member with queued | waits
    · rcases List.mem_cons.mp queued with rfl | later
      · exact .inr found
      · exact .inl later
    · exact .inr (kept other.token waits)
  · rw [accepting]
    exact fun call member => kept call.token (claims.locked call member)
  · rw [connections] at listed
    rcases List.mem_append.mp listed with earlier | last
    · exact claims.apart other (List.mem_cons_of_mem _ queued) connection earlier
    · cases List.mem_singleton.mp last
      rintro rfl
      exact (List.nodup_cons.mp claims.once).1 queued

/-- The address of a call that waits for the lock has been found. -/
theorem found_of_located (claims : Claims held server backlog) {index : Nat} {call : AcceptCall}
    (located : server.accepting[index]? = some call) {addr : SockaddrIn} (member : addr ∈ held) :
    addr.token ≠ call.token :=
  (List.nodup_append.mp claims.distinct).2.2 _ (List.mem_map_of_mem member) _
    (List.mem_map_of_mem (List.mem_of_getElem? located))

/-- The server closes a connection at once that nobody waits for. -/
theorem discard {addr : SockaddrIn} (claims : Claims held server (addr :: backlog))
    (unheld : addr ∉ held) : Claims held server backlog where
  joined := claims.joined
  distinct := claims.distinct
  known other member := by
    refine (claims.known other member).imp_left fun queued => ?_
    exact List.mem_of_ne_of_mem (ne_of_mem_of_not_mem member unheld) queued
  locked := claims.locked
  once := (List.nodup_cons.mp claims.once).2
  apart other queued := claims.apart other (List.mem_cons_of_mem _ queued)

/-- A call that has found its address gets the lock. -/
theorem acceptLocked (claims : Claims held server backlog) {index : Nat} {call : AcceptCall}
    (located : server.accepting[index]? = some call) (added : Bool)
    (near : Reaches server.fdReceiveData ((server.unmappedAddrToFd call.token).getD 0)) :
    Claims held { server.acceptLocked call added with
      accepting := server.accepting.eraseIdx index } backlog ∧
        (server.acceptLocked call added).unmappedAddrToFd =
          Function.update server.unmappedAddrToFd call.token none := by
  obtain ⟨fd, found⟩ := Option.isSome_iff_exists.mp
    (claims.locked call (List.mem_of_getElem? located))
  rw [found, Option.getD_some] at near
  have joined := (claims.joined.acceptLocked ⟨fd, found, near⟩ added).waits
    (server.accepting.eraseIdx index) (server.acceptLocked call added).decoders
  -- the call is the only one with its address
  have split : (held.map SockaddrIn.token ++ server.accepting.map AcceptCall.token).Perm
      (call.token :: (held.map SockaddrIn.token ++
        (server.accepting.eraseIdx index).map AcceptCall.token)) :=
    (((perm_eraseIdx located).map AcceptCall.token).append_left _).trans List.perm_middle
  obtain ⟨alone, distinct⟩ := List.nodup_cons.mp (split.nodup_iff.mp claims.distinct)
  have after := TCPServer.acceptLocked_eq found near added
  have unmapped : (server.acceptLocked call added).unmappedAddrToFd =
      Function.update server.unmappedAddrToFd call.token none := by
    rw [after]
  have connections : (server.acceptLocked call added).connections =
      server.connections.map fun connection =>
        if connection.peer.token = call.token ∧ connection.topic = none then
          connection.map call.topic
        else connection := by
    rw [after]
  have kept (token : String) (waits : (server.unmappedAddrToFd token).isSome = true)
      (other : token ≠ call.token) :
      ((server.acceptLocked call added).unmappedAddrToFd token).isSome = true := by
    rw [unmapped, Function.update_of_ne other]
    exact waits
  refine ⟨⟨joined, distinct, fun addr member => ?_, fun other member => ?_, claims.once,
    fun addr queued connection listed => ?_⟩, unmapped⟩
  · exact (claims.known addr member).imp_right fun waits =>
      kept addr.token waits (claims.found_of_located located member)
  · refine kept other.token (claims.locked other (List.mem_of_mem_eraseIdx member)) ?_
    intro same
    exact alone (same ▸ List.mem_append_right _ (List.mem_map_of_mem member))
  · obtain ⟨earlier, member, rfl⟩ := List.mem_map.mp (connections ▸ listed)
    have unused := claims.apart addr queued earlier member
    split
    · exact unused
    · exact unused

/-- Every other step of the server. -/
theorem step (decode : TCPServer.DecodeResult) (claims : Claims held server backlog)
    {action : ServerAction} {next : TCPServer} (reach : server.InReach action)
    (unaccepted : ∀ client nonblocking, action ≠ .acceptNewClient (some client) nonblocking)
    (untested : ∀ topic ip port, action ≠ .acceptClient topic ip port)
    (stepped : server.step decode action = some next) :
    Claims held next backlog ∧ Retains held server next := by
  unfold TCPServer.step at stepped
  rw [if_neg (Bool.eq_false_iff.mp claims.joined.inside)] at stepped
  cases action with
  | acceptNewClient accepted nonblocking =>
      cases accepted with
      | none =>
          cases (Option.ite_none_right_eq_some.mp stepped).2
          exact ⟨claims, fun _ _ waits => waits⟩
      | some client => exact absurd rfl (unaccepted client nonblocking)
  | acceptClient topic ip port => exact absurd rfl (untested topic ip port)
  | acceptLocked index added =>
      obtain ⟨call, located, rfl⟩ := Option.map_eq_some_iff.mp stepped
      obtain ⟨remain, removed⟩ := claims.acceptLocked located added (reach call located)
      refine ⟨remain, fun addr member waits => ?_⟩
      dsimp only
      rw [removed, Function.update_of_ne (claims.found_of_located located member)]
      exact waits
  | addDecoder topic =>
      cases stepped
      have joined := claims.joined.waits server.accepting (server.decoders ++ [topic])
      have aside : TCPServer.Aside server
          { server with decoders := server.decoders ++ [topic] } :=
        ⟨rfl, rfl, fun connection listed => ⟨connection, listed, rfl⟩⟩
      exact ⟨claims.aside aside joined, fun _ _ waits => waits⟩
  | clientEvent fd hangUp results =>
      obtain ⟨polled, same⟩ := Option.ite_none_right_eq_some.mp stepped
      cases same
      have polled := List.contains_iff_mem.mp polled
      have aside := claims.joined.clientEvent_aside decode polled hangUp results
      have joined := claims.joined.clientEvent decode polled hangUp results
      refine ⟨claims.aside aside joined, fun addr _ waits => ?_⟩
      rw [aside.unmapped]
      exact waits

end Claims

end ProtoCore.Topic
