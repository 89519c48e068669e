import ProtoCore.Routing.TopicHandshake
import ProtoCore.Topic.AddressClaims

/-!
# What the reply of a handshake names

The status of a handshake is ok on every way out of the handler but an exception, and only one of
them has an address in the reply. While the others are not taken, each address that a subscriber
looks for is in the backlog of its server or accepted, and belongs to one call only.
-/

set_option autoImplicit false

namespace ProtoCore.Routing

open Library Topic

namespace Handshake

/-- The reply is on the address of the socket that its call has registered. -/
structure Names (handshake : Handshake) (reply : ConnectionReply) (attempt : ConnectAttempt)
    (addr : SockaddrIn) : Prop where
  inserted : attempt.inserted = true
  topic : attempt.topic = handshake.request.object
  address : attempt.address = some addr
  queued : handshake.queued = some addr
  ip : reply.ip = addr.sinAddr.dotted
  port : reply.port = addr.sinPort.toNat

/-- The address of the connection, until the count test has found it. -/
def held (handshake : Handshake) : Option SockaddrIn :=
  match handshake.stage with
  | .get | .returned _ | .accepting _ => handshake.queued
  | _ => none

end Handshake

namespace TopicHandshakes

/-- A reply with `Status::OK` names the local address of a connection that was established and
registered under the topic, and `accept_client` looks for an address that has been accepted or
is still to be. -/
structure Answered (system : TopicHandshakes) : Prop where
  server : system.server.outside = false
  publishers : ∀ publisher, (system.publishers publisher).outside = false
  live : ∀ handshake ∈ system.handshakes, ∀ reply,
    handshake.stage = .returned reply ∨ handshake.stage = .accepting reply →
      ∃ attempt addr, system.attemptOf handshake = some attempt ∧
        handshake.Names reply attempt addr
  known : ∀ handshake ∈ system.handshakes, ∀ reply, handshake.stage = .accepting reply →
    (∃ addr ∈ system.backlog, addr.token = token reply.ip reply.port) ∨
      (system.server.unmappedAddrToFd (token reply.ip reply.port)).isSome = true

/-- No handler ends before it has asked for a connection, no future that a handler reads is
false, the server keeps what it accepts for a handshake, and descriptors are in reach. -/
def Orderly (system : TopicHandshakes) : HandshakeAction → Prop
  | .test index cancelled => ∀ handshake ∈ system.at? index .test,
      system.running handshake.publisher = true ∧ cancelled = false
  | .get index => ∀ handshake ∈ system.at? index .get,
      ∀ attempt ∈ system.attemptOf handshake, attempt.values.head? ≠ some false
  | .acceptNewClient fd true => Reaches system.server.fdToAddr fd
  | .acceptNewClient _ false => ∀ addr ∈ system.backlog.head?, ∀ handshake ∈ system.handshakes,
      handshake.held ≠ some addr
  | .server action => system.server.InReach action
  | .sockets publisher action => (system.publishers publisher).InReach action
  | _ => True

end TopicHandshakes

/-- In the run, a call of `accept_client` finds its address when the server has accepted the
connections that are in its backlog, at the latest. -/
def RetriesEnd (decode : TCPServer.DecodeResult) (run : List HandshakeAction) : Prop :=
  ∀ (first second : List HandshakeAction) (middle final : TopicHandshakes), run = first ++ second →
    (TopicHandshakes.machine decode).exec .initial first = some middle →
    (TopicHandshakes.machine decode).exec middle second = some final →
    ∀ (index : Nat) (handshake : Handshake) (reply : ConnectionReply),
      middle.handshakes[index]? = some handshake → handshake.stage = .accepting reply →
      middle.backlog.length ≤ second.countP HandshakeAction.isAccept →
      ∃ later, final.handshakes[index]? = some later ∧ (later.stage = .accepted ∨
        later.stage = .accepting reply ∧
          (final.server.unmappedAddrToFd (token reply.ip reply.port)).isSome = true)

/-! ## The addresses that have not been found yet -/

namespace Handshake

/-- The future is still to be read: it is true only if the connection has been established. -/
structure Connecting (handshake : Handshake) (attempt : ConnectAttempt) : Prop where
  topic : attempt.topic = handshake.request.object
  queued : attempt.inserted = true → handshake.queued.isSome = true
  address : ∀ addr ∈ handshake.queued, attempt.address = some addr

/-- What a handshake has at its publisher. -/
def Backed (handshake : Handshake) (sockets : ClientSockets) : Prop :=
  match handshake.stage with
  | .test | .find | .wait | .connect => handshake.queued = none
  | .get => ∃ attempt, handshake.call sockets = some attempt ∧ handshake.Connecting attempt
  | .returned reply | .accepting reply =>
      ∃ attempt addr, handshake.call sockets = some attempt ∧ handshake.Names reply attempt addr
  | .thrown | .lost | .accepted => True

theorem Names.token_eq {handshake : Handshake} {reply : ConnectionReply} {attempt : ConnectAttempt}
    {addr : SockaddrIn} (names : handshake.Names reply attempt addr) :
    token reply.ip reply.port = addr.token := by
  rw [names.ip, names.port]
  rfl

theorem Names.advance {handshake : Handshake} {reply : ConnectionReply}
    {before after : ConnectAttempt} {addr : SockaddrIn} (names : handshake.Names reply before addr)
    (advances : ConnectAttempt.Advances before after) : handshake.Names reply after addr where
  inserted := advances.inserted names.inserted
  topic := advances.topic.trans names.topic
  address := advances.address.trans names.address
  queued := names.queued
  ip := names.ip
  port := names.port

theorem Names.enter {handshake : Handshake} {reply : ConnectionReply} {attempt : ConnectAttempt}
    {addr : SockaddrIn} (names : handshake.Names reply attempt addr) (stage : HandshakeStage) :
    (handshake.enter stage).Names reply attempt addr :=
  ⟨names.inserted, names.topic, names.address, names.queued, names.ip, names.port⟩

/-- A step of the sockets that registers a handshake's own socket only when its connection has
been established. -/
theorem Backed.carried {handshake : Handshake} {sockets next : ClientSockets}
    (backed : handshake.Backed sockets) {action : SocketAction}
    (stepped : ClientSockets.Stepped sockets action next)
    (reported : ∀ index, handshake.attempt = some index →
      action = .select index true (some 0) → handshake.queued.isSome = true) :
    handshake.Backed next := by
  have carried {attempt : ConnectAttempt} (called : handshake.call sockets = some attempt) :
      ∃ later, handshake.call next = some later ∧ attempt.Advances later ∧
        (later.inserted = true → attempt.inserted = true ∨ handshake.queued.isSome = true) := by
    obtain ⟨index, same, located⟩ := Option.bind_eq_some_iff.mp called
    obtain ⟨later, found, advances, inserted⟩ := stepped.carried located
    refine ⟨later, ?_, advances, fun past => (inserted past).imp_right (reported index same)⟩
    rw [Handshake.call, same]
    exact found
  unfold Backed at backed ⊢
  cases stage : handshake.stage with
  | test | find | wait | connect =>
      rw [stage] at backed
      exact backed
  | get =>
      rw [stage] at backed
      obtain ⟨attempt, called, connecting⟩ := backed
      obtain ⟨later, found, advances, inserted⟩ := carried called
      refine ⟨later, found, advances.topic.trans connecting.topic, fun past => ?_, ?_⟩
      · exact (inserted past).elim connecting.queued id
      · intro addr queued
        exact advances.address.trans (connecting.address addr queued)
  | returned reply | accepting reply =>
      rw [stage] at backed
      obtain ⟨attempt, addr, called, names⟩ := backed
      obtain ⟨later, found, advances, _⟩ := carried called
      exact ⟨later, addr, found, names.advance advances⟩
  | thrown | lost | accepted => trivial

/-- A handler that reads no false future throws or replies with the address of its socket. -/
theorem get_cases {handshake next : Handshake} {attempt : ConnectAttempt}
    (got : handshake.get attempt = some next) (told : attempt.values.head? ≠ some false) :
    next = handshake.enter .thrown ∨ true ∈ attempt.values ∧ next = handshake.enter
      (.returned (connectedReply handshake.request attempt.ip attempt.port)) := by
  unfold Handshake.get at got
  split at got
  · cases got
    exact .inl rfl
  · split at got
    · rename_i rest values
      cases got
      rw [values]
      exact .inr ⟨List.mem_cons_self, rfl⟩
    · rename_i rest values
      rw [values] at told
      exact absurd rfl told
    · obtain ⟨_, same⟩ := Option.ite_none_right_eq_some.mp got
      cases same
      exact .inl rfl

end Handshake

theorem filterMap_held_cons (handshake : Handshake) (handshakes : List Handshake) :
    (handshake :: handshakes).filterMap Handshake.held =
      handshake.held.toList ++ handshakes.filterMap Handshake.held := by
  rw [List.filterMap_cons]
  cases handshake.held with
  | none => rfl
  | some addr => rfl

namespace TopicHandshakes

/-- The invariant of runs in which every step is orderly. -/
structure Sound (system : TopicHandshakes) : Prop where
  claims : Claims (system.handshakes.filterMap Handshake.held) system.server system.backlog
  roomy : ∀ publisher, (system.publishers publisher).Roomy
  honest : ∀ publisher, ∀ attempt ∈ (system.publishers publisher).attempts, attempt.Honest
  backed : ∀ handshake ∈ system.handshakes,
    handshake.Backed (system.publishers handshake.publisher)

/-- One handshake goes on, and the others have the addresses that they had. -/
theorem Sound.replace {before after : TopicHandshakes} (sound : before.Sound) {index : Nat}
    {handshake next : Handshake} (located : before.handshakes[index]? = some handshake)
    (moved : after.handshakes = before.handshakes.set index next)
    (same : after.publishers = before.publishers)
    (claims : ∀ others, Claims (handshake.held.toList ++ others) before.server before.backlog →
      Claims (next.held.toList ++ others) after.server after.backlog)
    (backed : next.Backed (before.publishers next.publisher)) : after.Sound where
  claims := by
    have old := (perm_eraseIdx located).filterMap Handshake.held
    have new := (perm_set located next).filterMap Handshake.held
    rw [filterMap_held_cons] at old new
    rw [moved]
    exact (claims _ (sound.claims.perm old)).perm new.symm
  roomy := by
    rw [same]
    exact sound.roomy
  honest := by
    rw [same]
    exact sound.honest
  backed := by
    rw [moved, same]
    intro other member
    rcases List.mem_or_eq_of_mem_set member with earlier | rfl
    · exact sound.backed other earlier
    · exact backed

/-- A step of the sockets of a publisher. -/
theorem Sound.sockets {system : TopicHandshakes} (sound : system.Sound) {publisher : String}
    {action : SocketAction} {next : ClientSockets} (reports : system.Reports publisher action)
    (reach : (system.publishers publisher).InReach action)
    (stepped : (system.publishers publisher).step action = some next) :
    (system.setPublisher publisher next).Sound where
  claims := sound.claims
  roomy other := by
    by_cases same : other = publisher
    · subst same
      simp only [setPublisher, Function.update_self]
      exact (sound.roomy other).step reach stepped
    · simp only [setPublisher, Function.update_of_ne same]
      exact sound.roomy other
  honest other := by
    by_cases same : other = publisher
    · subst same
      simp only [setPublisher, Function.update_self]
      exact (ClientSockets.step_cases stepped).2.honest (sound.roomy other) (sound.honest other)
    · simp only [setPublisher, Function.update_of_ne same]
      exact sound.honest other
  backed handshake member := by
    have backed := sound.backed handshake member
    by_cases same : handshake.publisher = publisher
    · subst same
      simp only [setPublisher, Function.update_self]
      refine backed.carried (ClientSockets.step_cases stepped).2 fun index own registers => ?_
      subst registers
      exact reports handshake member rfl own
    · simp only [setPublisher, Function.update_of_ne same]
      exact backed

theorem Sound.backedAt {system : TopicHandshakes} (sound : system.Sound) {index : Nat}
    {stage : HandshakeStage} {handshake : Handshake}
    (stands : system.Stands index stage handshake) :
    handshake.Backed (system.publishers handshake.publisher) :=
  sound.backed handshake (List.mem_of_getElem? stands.located)

theorem Sound.connecting {system : TopicHandshakes} (sound : system.Sound) {index : Nat}
    {handshake : Handshake} {attempt : ConnectAttempt}
    (stands : system.Stands index .get handshake)
    (called : system.attemptOf handshake = some attempt) : handshake.Connecting attempt := by
  have backed := sound.backedAt stands
  rw [Handshake.Backed, stands.stage] at backed
  obtain ⟨other, found, connecting⟩ := backed
  cases called.symm.trans found
  exact connecting

theorem Sound.named {system : TopicHandshakes} (sound : system.Sound) {index : Nat}
    {handshake : Handshake} {reply : ConnectionReply}
    (stands : system.Stands index (.accepting reply) handshake) :
    ∃ attempt addr, system.attemptOf handshake = some attempt ∧
      handshake.Names reply attempt addr := by
  have backed := sound.backedAt stands
  rw [Handshake.Backed, stands.stage] at backed
  exact backed

theorem Sound.move {system : TopicHandshakes} (sound : system.Sound) {index : Nat}
    {stage next : HandshakeStage} {handshake : Handshake}
    (stands : system.Stands index stage handshake) (onward : Onward stage next) :
    (system.set index (handshake.enter next)).Sound := by
  have backed := sound.backedAt stands
  rw [Handshake.Backed, stands.stage] at backed
  cases onward with
  | test | find | wait | wake =>
      exact sound.replace stands.located rfl rfl (fun _ claims => claims.forget) backed
  | lose => exact sound.replace stands.located rfl rfl (fun _ claims => claims.forget) trivial
  | deliver =>
      obtain ⟨attempt, addr, called, names⟩ := backed
      refine sound.replace stands.located rfl rfl (fun others claims => ?_)
        ⟨attempt, addr, called, names.enter _⟩
      rw [Handshake.held, stands.stage] at claims
      exact claims

/-- The handler asks for its connection. -/
theorem Sound.connect {system : TopicHandshakes} (sound : system.Sound) {index : Nat}
    {calls : ConnectCalls} {handshake : Handshake} {next : ClientSockets}
    (stands : system.Stands index .connect handshake)
    (stepped : (system.publishers handshake.publisher).step
      (.addClient handshake.request.object calls) = some next) :
    ((system.setPublisher handshake.publisher next).set index
      { handshake with
        stage := .get
        attempt := some (system.publishers handshake.publisher).attempts.length }).Sound := by
  have backed := sound.backedAt stands
  rw [Handshake.Backed, stands.stage] at backed
  have unqueued : handshake.queued = none := backed
  have added := (ClientSockets.step_cases stepped).2
  have reports : system.Reports handshake.publisher
    (.addClient handshake.request.object calls) := trivial
  have moved := sound.sockets reports trivial stepped
  have located : (system.setPublisher handshake.publisher next).handshakes[index]? =
    some handshake := stands.located
  refine moved.replace located rfl rfl (fun others claims => ?_) ?_
  · rw [Handshake.held, unqueued]
    exact claims.forget
  · cases added with
    | addClient =>
        refine ⟨connectAttempt handshake.request.object calls, ?_, ?_, fun inserted => ?_, ?_⟩
        · simp only [setPublisher, Function.update_self]
          exact List.getElem?_concat_length
        · exact ConnectAttempt.connectAttempt_topic handshake.request.object calls
        · cases (connectAttempt_new handshake.request.object calls).1.symm.trans inserted
        · rw [unqueued]
          exact nofun

/-- The connection of a handshake reaches the queue of the server. -/
theorem Sound.establish {system : TopicHandshakes} (sound : system.Sound) {index : Nat}
    {handshake : Handshake} {attempt : ConnectAttempt} {addr : SockaddrIn}
    (stands : system.Stands index .get handshake)
    (called : system.attemptOf handshake = some attempt) (named : attempt.address = some addr)
    (free : system.Free addr) :
    ((system.enqueue addr).set index { handshake with queued := some addr }).Sound := by
  have connecting := sound.connecting stands called
  refine sound.replace stands.located rfl rfl (fun others claims => ?_) ?_
  · have establish := claims.forget.establish free.1 free.2
    rw [Handshake.held, stands.stage]
    exact establish
  · rw [Handshake.Backed, stands.stage]
    refine ⟨attempt, called, connecting.topic, fun _ => rfl, fun other queued => ?_⟩
    cases queued
    exact named

/-- The handler reads its future. -/
theorem Sound.get {system : TopicHandshakes} (sound : system.Sound) {index : Nat}
    {handshake next : Handshake} {attempt : ConnectAttempt}
    (stands : system.Stands index .get handshake)
    (called : system.attemptOf handshake = some attempt)
    (got : handshake.get attempt = some next) (told : attempt.values.head? ≠ some false) :
    (system.set index next).Sound := by
  have connecting := sound.connecting stands called
  rcases Handshake.get_cases got told with rfl | ⟨true, rfl⟩
  · exact sound.replace stands.located rfl rfl (fun _ claims => claims.forget) trivial
  · obtain ⟨index, _, position⟩ := Option.bind_eq_some_iff.mp called
    have honest := sound.honest _ attempt (List.mem_of_getElem? position)
    have inserted := honest.told true
    obtain ⟨addr, address, read⟩ := honest.named (.inr inserted)
    obtain ⟨ip, port⟩ := getSocketInfo_eq_info read
    obtain ⟨established, queued⟩ := Option.isSome_iff_exists.mp (connecting.queued inserted)
    cases address.symm.trans (connecting.address established queued)
    refine sound.replace stands.located rfl rfl (fun others claims => ?_)
      ⟨attempt, addr, called, inserted, connecting.topic, address, queued, ip, ?_⟩
    · rw [Handshake.held, stands.stage] at claims
      exact claims
    · exact (congrArg int32 port).trans (int32_port addr.sinPort)

/-- The count test of `accept_client`. -/
theorem Sound.acceptClient {system : TopicHandshakes} (sound : system.Sound)
    {decode : TCPServer.DecodeResult} {index : Nat} {handshake : Handshake}
    {reply : ConnectionReply} {server : TCPServer}
    (stands : system.Stands index (.accepting reply) handshake)
    (tested : system.server.step decode (.acceptClient reply.object reply.ip reply.port) =
      some server) :
    ((system.setServer server).set index
      (if (system.server.unmappedAddrToFd (token reply.ip reply.port)).isSome then
        handshake.enter .accepted
      else handshake)).Sound := by
  obtain ⟨attempt, addr, called, names⟩ := sound.named stands
  cases sound.claims.tested tested
  unfold TCPServer.acceptClient
  split
  · rename_i waits
    rw [names.token_eq] at waits ⊢
    refine sound.replace stands.located rfl rfl (fun others claims => ?_) trivial
    rw [Handshake.held, stands.stage, names.queued] at claims
    exact claims.found reply.object waits
  · exact sound.replace stands.located rfl rfl (fun _ claims => claims) (sound.backedAt stands)

/-- The server accepts the first connection of its backlog, or closes it at once if it belongs to
no handshake. -/
theorem Sound.accepted {system : TopicHandshakes} (sound : system.Sound)
    {decode : TCPServer.DecodeResult} {fd : Nat} {nonblocking : Bool} {addr : SockaddrIn}
    {rest : List SockaddrIn} {server : TCPServer} (queued : system.backlog = addr :: rest)
    (accepted : system.server.step decode (.acceptNewClient (some (fd, addr)) nonblocking) =
      some server) (orderly : system.Orderly (.acceptNewClient fd nonblocking)) :
    Claims (system.handshakes.filterMap Handshake.held) server rest ∧
      Retains (system.handshakes.filterMap Handshake.held) system.server server ∧
        (addr ∈ system.handshakes.filterMap Handshake.held →
          (server.unmappedAddrToFd addr.token).isSome = true) := by
  have claims := sound.claims
  rw [queued] at claims
  unfold TCPServer.step at accepted
  rw [if_neg (Bool.eq_false_iff.mp sound.claims.joined.inside)] at accepted
  obtain ⟨accepts, stored⟩ := Option.ite_none_right_eq_some.mp accepted
  cases nonblocking with
  | true =>
      obtain ⟨remain, retains, found⟩ := claims.acceptNewClient accepts orderly stored
      exact ⟨remain, retains, fun _ => found⟩
  | false =>
      cases stored
      have unheld : addr ∉ system.handshakes.filterMap Handshake.held := by
        intro member
        obtain ⟨handshake, listed, held⟩ := List.mem_filterMap.mp member
        exact orderly addr (by rw [queued]; rfl) handshake listed held
      exact ⟨claims.discard unheld, fun _ _ waits => waits, fun member => absurd member unheld⟩

theorem Sound.step {decode : TCPServer.DecodeResult} {system next : TopicHandshakes}
    (sound : system.Sound) {action : HandshakeAction} (orderly : system.Orderly action)
    (stepped : Stepped decode system action next) : next.Sound := by
  cases stepped with
  | @request publisher request =>
      refine ⟨?_, sound.roomy, sound.honest, fun handshake member => ?_⟩
      · rw [List.filterMap_append]
        exact (List.append_nil _).symm ▸ sound.claims
      · rcases List.mem_append.mp member with earlier | last
        · exact sound.backed handshake earlier
        · cases List.mem_singleton.mp last
          rfl
  | move _ stands onward => exact sound.move stands onward
  | stop stands runs =>
      obtain ⟨running, kept⟩ := orderly _ stands.at?
      rw [running, kept] at runs
      cases runs
  | connect stands added => exact sound.connect stands added
  | establish stands called named _ free => exact sound.establish stands called named free
  | get stands called got => exact sound.get stands called got (orderly _ stands.at? _ called)
  | acceptClient stands tested => exact sound.acceptClient stands tested
  | sockets reports moved => exact sound.sockets reports orderly moved
  | foreign free =>
      exact ⟨sound.claims.foreign free.1 free.2, sound.roomy, sound.honest, sound.backed⟩
  | acceptNewClient queued accepted =>
      exact ⟨(sound.accepted queued accepted orderly).1, sound.roomy, sound.honest, sound.backed⟩
  | server unaccepted untested moved =>
      exact ⟨(sound.claims.step decode orderly unaccepted untested moved).1, sound.roomy,
        sound.honest, sound.backed⟩
  | shutdown => exact ⟨sound.claims, sound.roomy, sound.honest, sound.backed⟩

theorem sound_initial : initial.Sound where
  claims := {
    joined := TCPServer.joined_initial
    distinct := List.nodup_nil
    known _ member := by cases member
    locked _ member := by cases member
    once := List.nodup_nil
    apart _ member := by cases member }
  roomy _ := ClientSockets.roomy_initial
  honest _ _ member := by cases member
  backed _ member := by cases member

/-- The address of a call that still looks for it is among those that have not been found yet. -/
theorem Sound.mem_held {system : TopicHandshakes} (sound : system.Sound) {index : Nat}
    {handshake : Handshake} {reply : ConnectionReply}
    (stands : system.Stands index (.accepting reply) handshake) :
    ∃ addr ∈ system.handshakes.filterMap Handshake.held,
      addr.token = token reply.ip reply.port := by
  obtain ⟨attempt, addr, called, names⟩ := sound.named stands
  refine ⟨addr, ?_, names.token_eq.symm⟩
  refine List.mem_filterMap.mpr ⟨handshake, List.mem_of_getElem? stands.located, ?_⟩
  rw [Handshake.held, stands.stage]
  exact names.queued

theorem Sound.answered {system : TopicHandshakes} (sound : system.Sound) : system.Answered where
  server := sound.claims.joined.inside
  publishers publisher := (sound.roomy publisher).inside
  live handshake member reply stage := by
    have backed := sound.backed handshake member
    rcases stage with stage | stage
    · rw [Handshake.Backed, stage] at backed
      exact backed
    · rw [Handshake.Backed, stage] at backed
      exact backed
  known handshake member reply stage := by
    obtain ⟨index, located⟩ := List.mem_iff_getElem?.mp member
    obtain ⟨addr, held, same⟩ := sound.mem_held ⟨located, stage⟩
    rw [← same]
    exact (sound.claims.known addr held).imp_left fun queued => ⟨addr, queued, rfl⟩

/-! ## The retries of `accept_client` -/

/-- The call of a handshake has found its address, or will when the server has accepted the first
connections of its backlog. -/
def Nearing (system : TopicHandshakes) (index : Nat) (reply : ConnectionReply) (ahead : Nat) :
    Prop :=
  ∃ handshake, system.handshakes[index]? = some handshake ∧ (handshake.stage = .accepted ∨
    handshake.stage = .accepting reply ∧
      ((system.server.unmappedAddrToFd (token reply.ip reply.port)).isSome = true ∨
        ∃ addr ∈ system.backlog.take ahead, addr.token = token reply.ip reply.port))

section

variable {before after : TopicHandshakes} {index : Nat} {reply : ConnectionReply} {ahead : Nat}

theorem Nearing.keep (nearing : before.Nearing index reply ahead)
    (same : ∀ handshake, before.handshakes[index]? = some handshake →
      handshake.stage = .accepted ∨ handshake.stage = .accepting reply →
        after.handshakes[index]? = some handshake)
    (waits : ∀ handshake, before.Stands index (.accepting reply) handshake →
      (before.server.unmappedAddrToFd (token reply.ip reply.port)).isSome = true →
        (after.server.unmappedAddrToFd (token reply.ip reply.port)).isSome = true)
    (longer : before.backlog <+: after.backlog) : after.Nearing index reply ahead := by
  obtain ⟨handshake, located, accepted | ⟨stage, found | ⟨addr, queued, named⟩⟩⟩ := nearing
  · exact ⟨handshake, same handshake located (.inl accepted), .inl accepted⟩
  · refine ⟨handshake, same handshake located (.inr stage), .inr ⟨stage, .inl ?_⟩⟩
    exact waits handshake ⟨located, stage⟩ found
  · refine ⟨handshake, same handshake located (.inr stage), .inr ⟨stage, .inr ⟨addr, ?_, named⟩⟩⟩
    exact (longer.take ahead).subset queued

/-- Another handshake goes on, or this one at a stage before its `accept_client`. -/
theorem Nearing.replace (nearing : before.Nearing index reply ahead) {position : Nat}
    {stage : HandshakeStage} {handshake next : Handshake}
    (stands : before.Stands position stage handshake) (unaccepted : stage ≠ .accepted)
    (untested : stage ≠ .accepting reply)
    (moved : after.handshakes = before.handshakes.set position next)
    (server : after.server = before.server) (longer : before.backlog <+: after.backlog) :
    after.Nearing index reply ahead := by
  refine nearing.keep (fun other located late => ?_) (fun _ _ found => server ▸ found) longer
  have elsewhere : position ≠ index := by
    rintro rfl
    cases stands.located.symm.trans located
    rw [stands.stage] at late
    exact late.elim unaccepted untested
  rw [moved, List.getElem?_set_ne elsewhere]
  exact located

/-- The count test of a call, this one or another. -/
theorem Nearing.acceptClient (nearing : before.Nearing index reply ahead) {position : Nat}
    {handshake : Handshake} {tested : ConnectionReply}
    (stands : before.Stands position (.accepting tested) handshake) :
    ((before.setServer (before.server.acceptClient tested.object tested.ip tested.port)).set
      position (if (before.server.unmappedAddrToFd (token tested.ip tested.port)).isSome then
        handshake.enter .accepted
      else handshake)).Nearing index reply ahead := by
  by_cases found : (before.server.unmappedAddrToFd (token tested.ip tested.port)).isSome = true
  · by_cases own : position = index
    · subst own
      have inside := (List.getElem?_eq_some_iff.mp stands.located).1
      refine ⟨handshake.enter .accepted, ?_, .inl rfl⟩
      rw [if_pos found]
      exact List.getElem?_set_self inside
    · refine nearing.keep (fun other located _ => ?_) (fun _ _ waits => ?_) (List.prefix_refl _)
      · exact (List.getElem?_set_ne own).trans located
      · rw [TCPServer.acceptClient, if_pos found]
        exact waits
  · refine nearing.keep (fun other located _ => ?_) (fun _ _ waits => ?_) (List.prefix_refl _)
    · rw [if_neg found]
      by_cases own : position = index
      · subst own
        cases stands.located.symm.trans located
        exact List.getElem?_set_self (List.getElem?_eq_some_iff.mp located).1
      · exact (List.getElem?_set_ne own).trans located
    · rw [TCPServer.acceptClient, if_neg found]
      exact waits

/-- The server accepts the first connection of its backlog. -/
theorem Nearing.acceptNewClient (nearing : before.Nearing index reply ahead) {addr : SockaddrIn}
    {rest : List SockaddrIn} {server : TCPServer} (queued : before.backlog = addr :: rest)
    (waits : ∀ handshake, before.Stands index (.accepting reply) handshake →
      (before.server.unmappedAddrToFd (token reply.ip reply.port)).isSome = true →
        (server.unmappedAddrToFd (token reply.ip reply.port)).isSome = true)
    (accepted : ∀ handshake, before.Stands index (.accepting reply) handshake →
      addr.token = token reply.ip reply.port →
        (server.unmappedAddrToFd addr.token).isSome = true) :
    ({ before.setServer server with backlog := rest }).Nearing index reply (ahead - 1) := by
  obtain ⟨handshake, located, done | ⟨stage, found | ⟨other, listed, named⟩⟩⟩ := nearing
  · exact ⟨handshake, located, .inl done⟩
  · exact ⟨handshake, located, .inr ⟨stage, .inl (waits handshake ⟨located, stage⟩ found)⟩⟩
  · refine ⟨handshake, located, .inr ⟨stage, ?_⟩⟩
    rw [queued] at listed
    cases ahead with
    | zero => cases listed
    | succ ahead =>
        rcases List.mem_cons.mp listed with rfl | later
        · have waiting := accepted handshake ⟨located, stage⟩ named
          rw [named] at waiting
          exact .inl waiting
        · exact .inr ⟨other, later, named⟩

theorem Nearing.step {decode : TCPServer.DecodeResult} {action : HandshakeAction}
    (nearing : before.Nearing index reply ahead) (sound : before.Sound)
    (orderly : before.Orderly action) (stepped : Stepped decode before action after) :
    after.Nearing index reply (ahead - if action.isAccept then 1 else 0) := by
  have retained {server : TCPServer}
      (retains : Retains (before.handshakes.filterMap Handshake.held) before.server server) :
      ∀ handshake, before.Stands index (.accepting reply) handshake →
        (before.server.unmappedAddrToFd (token reply.ip reply.port)).isSome = true →
          (server.unmappedAddrToFd (token reply.ip reply.port)).isSome = true := by
    intro handshake stands found
    obtain ⟨addr, held, same⟩ := sound.mem_held stands
    rw [← same] at found ⊢
    exact retains addr held found
  cases stepped with
  | request =>
      refine nearing.keep (fun handshake located _ => ?_) (fun _ _ found => found)
        (List.prefix_refl _)
      exact (List.getElem?_append_left (List.getElem?_eq_some_iff.mp located).1).trans located
  | @move action position stage handshake next plain stands onward =>
      rw [plain]
      have early : stage ≠ .accepted ∧ stage ≠ .accepting reply := by
        cases onward <;> exact ⟨nofun, nofun⟩
      exact nearing.replace stands early.1 early.2 rfl rfl (List.prefix_refl _)
  | stop stands => exact nearing.replace stands nofun nofun rfl rfl (List.prefix_refl _)
  | connect stands => exact nearing.replace stands nofun nofun rfl rfl (List.prefix_refl _)
  | establish stands => exact nearing.replace stands nofun nofun rfl rfl (List.prefix_append _ _)
  | get stands => exact nearing.replace stands nofun nofun rfl rfl (List.prefix_refl _)
  | acceptClient stands tested =>
      cases sound.claims.tested tested
      exact nearing.acceptClient stands
  | sockets | shutdown =>
      exact nearing.keep (fun _ located _ => located) (fun _ _ found => found)
        (List.prefix_refl _)
  | foreign =>
      exact nearing.keep (fun _ located _ => located) (fun _ _ found => found)
        (List.prefix_append _ _)
  | acceptNewClient queued accepted =>
      obtain ⟨_, retains, found⟩ := sound.accepted queued accepted orderly
      refine nearing.acceptNewClient queued (retained retains) fun handshake stands named => ?_
      obtain ⟨addr, held, same⟩ := sound.mem_held stands
      cases SockaddrIn.token_inj (same.trans named.symm)
      exact found held
  | server unaccepted untested moved =>
      have retains := (sound.claims.step decode orderly unaccepted untested moved).2
      exact nearing.keep (fun _ located _ => located) (retained retains) (List.prefix_refl _)

theorem Nearing.exec {decode : TCPServer.DecodeResult} {run : List HandshakeAction}
    (nearing : before.Nearing index reply ahead) (sound : before.Sound)
    (orderly : (machine decode).Obeys Orderly before run)
    (executed : (machine decode).exec before run = some after) :
    after.Nearing index reply (ahead - run.countP HandshakeAction.isAccept) := by
  induction run generalizing before ahead with
  | nil =>
      cases executed
      exact nearing
  | cons action rest ih =>
      obtain ⟨next, stepped, executed⟩ := (machine decode).exec_cons_eq_some executed
      obtain ⟨permitted, orderly⟩ := orderly next stepped
      have stepped := step_cases stepped
      have later := ih (nearing.step sound permitted stepped) (sound.step permitted stepped) orderly
        executed
      rw [List.countP_cons, Nat.add_comm, ← Nat.sub_sub]
      exact later

end

theorem sound_along {decode : TCPServer.DecodeResult} {run : List HandshakeAction}
    (orderly : (machine decode).Obeys Orderly initial run) :
    (machine decode).Along Sound initial run :=
  (machine decode).along_of_obeys
    (fun _ _ _ sound permitted stepped => sound.step permitted (step_cases stepped)) sound_initial
    orderly

theorem retriesEnd_of_orderly {decode : TCPServer.DecodeResult} {run : List HandshakeAction}
    (orderly : (machine decode).Obeys Orderly initial run) : RetriesEnd decode run := by
  rintro first second middle final rfl reached executed index handshake reply located stage enough
  have sound := (sound_along orderly.left).final reached
  have start : middle.Nearing index reply middle.backlog.length := by
    obtain ⟨addr, held, same⟩ := sound.mem_held ⟨located, stage⟩
    refine ⟨handshake, located, .inr ⟨stage, ?_⟩⟩
    rw [List.take_length, ← same]
    exact (sound.claims.known addr held).symm.imp_right fun queued => ⟨addr, queued, rfl⟩
  obtain ⟨later, found, reached | ⟨stage, waits | ⟨addr, queued, _⟩⟩⟩ :=
    start.exec sound (orderly.right reached) executed
  · exact ⟨later, found, .inl reached⟩
  · exact ⟨later, found, .inr ⟨stage, waits⟩⟩
  · rw [Nat.sub_eq_zero_of_le enough] at queued
    cases queued

/-- While handlers read no false future and are not stopped before they ask for a connection, an
ok status names a live connection, and no `accept_client` looks for its address for ever. -/
theorem answered_of_orderly (decode : TCPServer.DecodeResult) (run : List HandshakeAction)
    (orderly : (machine decode).Obeys Orderly initial run) :
    (machine decode).Along Answered initial run ∧ RetriesEnd decode run :=
  ⟨(sound_along orderly).mono fun _ sound => sound.answered, retriesEnd_of_orderly orderly⟩

instance (system : TopicHandshakes) (action : HandshakeAction) :
    Decidable (system.Orderly action) := by
  unfold Orderly
  split <;> infer_instance

/-- The topic is not published at first, and the server accepts the connection after the reply. -/
def acceptedLater : List HandshakeAction :=
  [.request "driver" ⟨"bumper", "Bumper", "planner"⟩, .test 0 false, .find 0 false, .wake 0,
    .test 0 false, .find 0 true, .connect 0 (NodeSockets.connecting 7 40000), .establish 0,
    .sockets "driver" (.select 0 true (some 0)), .sockets "driver" (.resize 0),
    .sockets "driver" (.assign 0 []), .sockets "driver" (.notify 0), .get 0, .deliver 0,
    .acceptClient 0, .acceptNewClient 5 true, .acceptClient 0, .server (.acceptLocked 0 true)]

theorem answered_of_orderly_acceptedLater :
    ((machine TCPServer.flagDecoders).Along Answered initial acceptedLater ∧
      RetriesEnd TCPServer.flagDecoders acceptedLater) ∧
        ((machine TCPServer.flagDecoders).exec initial acceptedLater).map (fun system =>
          (system.handshakes.map Handshake.stage,
            system.server.addrToTopic "127.0.0.1:40000")) = some ([.accepted], some "bumper") :=
  ⟨answered_of_orderly TCPServer.flagDecoders acceptedLater (by decide +kernel), by decide +kernel⟩

/-- The connection of the publisher times out, and its handler returns `Status::OK`. -/
def timedOut : List HandshakeAction :=
  [.request "driver" ⟨"bumper", "Bumper", "planner"⟩, .test 0 false, .find 0 true,
    .connect 0 (NodeSockets.connecting 7 40000), .sockets "driver" (.select 0 true (some 110)),
    .get 0, .deliver 0]

/-- The subscriber looks for an address that no connection has, and its retries do not end. -/
theorem timedOut_not_answered :
    ¬ (machine TCPServer.flagDecoders).Along Answered initial timedOut ∧
      ¬ RetriesEnd TCPServer.flagDecoders (timedOut ++ [.acceptClient 0]) := by
  have evaluated : ((machine TCPServer.flagDecoders).exec initial timedOut).bind (fun system =>
      (system.step TCPServer.flagDecoders (.acceptClient 0)).map fun next =>
        (system.handshakes.map Handshake.stage, next.handshakes.map Handshake.stage,
          system.backlog, next.server.unmappedAddrToFd ":0")) =
      some ([.accepting .empty], [.accepting .empty], [], none) := by
    decide +kernel
  obtain ⟨system, executed, evaluated⟩ := Option.bind_eq_some_iff.mp evaluated
  obtain ⟨next, stepped, same⟩ := Option.map_eq_some_iff.mp evaluated
  simp only [Prod.mk.injEq] at same
  obtain ⟨waits, still, empty, unfound⟩ := same
  obtain ⟨handshake, single, stage⟩ := List.map_eq_singleton_iff.mp waits
  refine ⟨fun along => ?_, fun ends => ?_⟩
  · obtain ⟨_, addr, _, names⟩ := (along.final executed).live handshake
      (single ▸ List.mem_singleton_self _) .empty (.inr stage)
    have length := addr.sinAddr.length_dotted
    have short : ConnectionReply.empty.ip.length = 0 := rfl
    rw [← names.ip] at length
    omega
  · have located : system.handshakes[0]? = some handshake := by
      rw [single]
      rfl
    have retried : (machine TCPServer.flagDecoders).exec system [.acceptClient 0] = some next :=
      (machine TCPServer.flagDecoders).exec_of_step stepped
    obtain ⟨later, found, ended⟩ := ends timedOut [.acceptClient 0] system next rfl executed
      retried 0 handshake .empty located stage (by rw [empty]; exact Nat.zero_le _)
    obtain ⟨last, lone, unchanged⟩ := List.map_eq_singleton_iff.mp still
    rw [lone] at found
    cases found
    rw [unchanged] at ended
    rcases ended with accepted | ⟨_, waiting⟩
    · cases accepted
    · have absent : next.server.unmappedAddrToFd
          (token ConnectionReply.empty.ip ConnectionReply.empty.port) = none := unfound
      rw [absent] at waiting
      cases waiting

end TopicHandshakes

end ProtoCore.Routing
