import Mathlib.Algebra.BigOperators.Group.List.Basic
import ProtoCore.Topic.Backlog
import ProtoCore.Topic.ChannelRefinement
import ProtoCore.Topic.Fanout

/-!
# A topic never gets stuck

Bytes that a socket did not take wait for the next publication. When that one's writes go
through, and the other ends receive, every subscriber has had all that it is owed.
-/

set_option autoImplicit false

namespace ProtoCore.Topic

open Library Library.FrameStream

variable {Message Callback : Type} {type : MessageType Message} {topic : String}

/-! ## Writes that go through -/

theorem AcceptsAll.quiet {calls : List WriteCall} (accepts : AcceptsAll calls) :
    ∀ call ∈ calls, ¬ call.StickyPartial := by
  rintro call called ⟨count, result, _, partly, _⟩
  have whole := (accepts call called).symm.trans result
  cases whole
  omega

theorem AcceptsAll.append {first second : List WriteCall} (left : AcceptsAll first)
    (right : AcceptsAll second) : AcceptsAll (first ++ second) := fun call called =>
  (List.mem_append.mp called).elim (left call) (right call)

namespace Publishing

/-- `write_fd` on a socket that takes everything at once. -/
theorem writeFd_accepting {state : Publishing} {fd : Nat} {toSend : List UInt8} (topic : String)
    (located : state.client.clientsData[fd]? = some toSend) (small : toSend.length < 2 ^ 31)
    (fresh : state.kernel.errno ≠ EAGAIN) :
    ∃ (used : List WriteResult) (written : Written),
      (∀ others, state.writeFd topic fd (used ++ others) =
        some { written with results := others }) ∧ written.ok = true ∧
      AcceptsAll written.calls ∧ written.state.kernel.errno ≠ EAGAIN := by
  have siz : int32 toSend.length = toSend.length := bufSize_eq small
  by_cases empty : toSend.length = 0
  · refine ⟨[], ⟨true, state.keepUnsent fd (toSend.drop 0) state.kernel, [], []⟩,
      fun others => ?_, rfl, fun call called => absurd called List.not_mem_nil, fresh⟩
    simp only [writeFd, located, siz, List.nil_append]
    rw [writeLoop_idle (by omega)]
    simp only [Option.map_some, Int.sub_self, Int.toNat_zero, if_true]
  · refine ⟨[.accepted toSend.length], ⟨true, state.keepUnsent fd [] (state.kernel.took fd toSend),
      [], [⟨fd, toSend.length, state.kernel.errno, .accepted toSend.length⟩]⟩,
      fun others => ?_, rfl, fun call called => ?_, fresh⟩
    · have looped := writeLoop_accepted fd (Nat.pos_of_ne_zero empty) (Nat.le_refl _)
        (Nat.le_refl toSend.length) (Nat.le_refl _) state.kernel others
      rw [if_neg fun held => Nat.lt_irrefl _ held.1, Nat.sub_self, List.drop_zero, List.take_length,
        Nat.cast_zero, writeLoop_idle (Int.le_refl 0)] at looped
      simp only [writeFd, located, siz, List.cons_append, List.nil_append, looped,
        Option.map_some, if_true, Int.sub_zero, Int.toNat_natCast, List.drop_length]
    · rw [List.mem_singleton.mp called, Int.toNat_natCast]

/-- A call of `write_to_socket` whose writes all go through, where no backlog is over the
limit. -/
theorem writeSockets_accepting (topic : String) {msg : List UInt8}
    (size : maxWriteBufferSize + msg.length < 2 ^ 31) {fds : List Nat} (distinct : fds.Nodup)
    {state : Publishing} (fresh : state.kernel.errno ≠ EAGAIN)
    (room : ∀ fd ∈ fds, ∃ data, state.client.clientsData[fd]? = some data ∧
      data.length ≤ maxWriteBufferSize) :
    ∃ results written, writeSockets topic msg fds state results = some written ∧
      AcceptsAll written.calls ∧ missed topic msg fds state results = [] ∧
      written.state.client.clientsTopicFd = state.client.clientsTopicFd := by
  induction fds generalizing state with
  | nil => exact ⟨[], _, rfl, fun call called => absurd called List.not_mem_nil, rfl, rfl⟩
  | cons fd fds ih =>
      obtain ⟨absent, distinct⟩ := List.nodup_cons.mp distinct
      obtain ⟨data, located, small⟩ := room fd List.mem_cons_self
      have appended : (state.append fd data msg).client.clientsData[fd]? = some (data ++ msg) :=
        List.getElem?_set_self (List.getElem?_eq_some_iff.mp located).1
      obtain ⟨used, first, wrote, good, accepts, fresh'⟩ := writeFd_accepting topic appended
        (by rw [List.length_append]; omega) fresh
      have here := wrote []
      obtain ⟨sockets, _⟩ := (writeFd_spec here).kept good
      have others : ∀ fd' ∈ fds, ∃ data, first.state.client.clientsData[fd']? = some data ∧
          data.length ≤ maxWriteBufferSize := by
        intro fd' member
        have different : fd' ≠ fd := fun same => absent (same ▸ member)
        obtain ⟨kept, found, short⟩ := room fd' (List.mem_cons_of_mem _ member)
        have same := (append_same different data msg).trans ((writeFd_spec here).same fd' different)
        exact ⟨kept, same.data.trans found, short⟩
      obtain ⟨results, final, rest, acceptsRest, none, registered⟩ := ih distinct fresh' others
      refine ⟨used ++ results, { final with calls := first.calls ++ final.calls }, ?_,
        accepts.append acceptsRest, ?_, registered.trans sockets⟩
      · simp only [writeSockets, located, if_neg (Nat.not_lt_of_le small), wrote, good, if_true,
          rest, Option.map_some]
      · simp only [missed, located, if_neg (Nat.not_lt_of_le small), wrote, good, if_true, none]

end Publishing

/-! ## Every socket has its link -/

def Served (topic : String) (channel : MessageChannel Message Callback) : Prop :=
  ∀ fd ∈ channel.publishing.client.clientsTopicFd topic,
    ∃ link ∈ channel.links, link.left = none ∧ link.fd = fd

theorem Link.detach_keeps {link : Link Message Callback} {operation : Publishing.Operation}
    (kernel : Kernel) (keeps : link.Keeps operation) : link.detach kernel operation = link := by
  cases operation with
  | complete topic fd cache errno results =>
      exact if_neg fun taken => keeps topic fd cache errno results rfl taken.2
  | writeToCache | writeToSocket => rfl

theorem Served.operate {channel : MessageChannel Message Callback} (served : Served topic channel)
    {operation : Publishing.Operation} (after : Publishing) {fd : Nat}
    (registered : fd ∈ channel.publishing.client.clientsTopicFd topic)
    (keeps : ∀ own other cache errno results,
      operation = .complete own other cache errno results → fd ≠ other) :
    ∃ link ∈ ({ channel with
        publishing := after
        links := channel.links.map (Link.detach channel.publishing.kernel operation) } :
          MessageChannel Message Callback).links, link.left = none ∧ link.fd = fd := by
  obtain ⟨link, listed, attached, rfl⟩ := served fd registered
  exact ⟨link, List.mem_map.mpr ⟨link, listed, link.detach_keeps _ keeps⟩, attached, rfl⟩

/-- What an operation leaves registered for the topic. -/
theorem Publishing.Sound.perform_members {state : Publishing} (sound : state.Sound)
    {operation : Publishing.Operation} {written : Publishing.Written}
    (performed : Publishing.perform state operation = some written)
    (quiet : ∀ call ∈ written.calls, ¬ call.StickyPartial) {fd : Nat}
    (registered : fd ∈ written.state.client.clientsTopicFd topic) :
    (∃ cache errno results, operation = .complete topic fd cache errno results) ∨
      fd ∈ state.client.clientsTopicFd topic ∧ ∀ own other cache errno results,
        operation = .complete own other cache errno results → fd ≠ other := by
  cases operation with
  | writeToCache own data =>
      cases performed
      exact .inr ⟨registered, fun _ _ _ _ _ same => by cases same⟩
  | writeToSocket own msg order errno results =>
      exact .inr ⟨(sound.perform_wrote performed quiet).members registered,
        fun _ _ _ _ _ same => by cases same⟩
  | complete own new cache errno results =>
      have begun := sound.perform_begun performed quiet
      by_cases same : fd = new
      · subst same
        obtain rfl := begun.mine topic registered
        exact .inl ⟨cache, errno, results, rfl⟩
      · refine .inr ⟨begun.members registered same, fun _ _ _ _ _ here => ?_⟩
        cases here
        exact same

theorem Served.step {channel next : MessageChannel Message Callback}
    {action : ChannelAction Message Callback} (served : Served topic channel)
    (sound : channel.publishing.Sound) (orderly : channel.Orderly type topic action)
    (stepped : channel.step type topic action = some next) : Served topic next := by
  by_cases receives : ∃ index count, action = .recv index count
  · obtain ⟨index, count, rfl⟩ := receives
    obtain ⟨link, located, rest⟩ := Option.bind_eq_some_iff.mp stepped
    obtain ⟨received, returned, rfl⟩ := Option.map_eq_some_iff.mp rest
    obtain ⟨same, kept⟩ := Link.recv_same returned
    intro fd registered
    obtain ⟨other, listed, attached, rfl⟩ := served fd registered
    obtain ⟨position, there⟩ := List.mem_iff_getElem?.mp listed
    by_cases chosen : position = index
    · subst chosen
      cases there.symm.trans located
      exact ⟨received, List.mem_of_getElem? (List.getElem?_set_self
        (List.getElem?_eq_some_iff.mp there).1), kept.trans attached, same⟩
    · refine ⟨other, ?_, attached, rfl⟩
      exact List.mem_of_getElem? ((List.getElem?_set_ne (Ne.symm chosen)).trans there)
  · have publishes : ∀ index count, action ≠ .recv index count := fun index count same =>
      receives ⟨index, count, same⟩
    obtain ⟨operation, written, called, performed, rfl⟩ :=
      MessageChannel.step_operation stepped publishes
    have quiet := orderly.1 operation called written performed
    intro fd registered
    have before : fd ∈ written.state.client.clientsTopicFd topic := by
      cases action with
      | writeToCache message =>
          cases ok : written.ok <;> rw [ok] at registered <;> exact registered
      | recv | publish | writeToSocket | complete | elsewhere => exact registered
    rcases sound.perform_members performed quiet before with
      ⟨cache, errno, results, rfl⟩ | ⟨member, keeps⟩
    · cases action with
      | complete fd' cache' functions errno' results' =>
          cases called
          exact ⟨_, List.mem_append_right _ (List.mem_singleton_self _), rfl, rfl⟩
      | elsewhere operation' =>
          simp only [MessageChannel.operation] at called
          split at called
          · cases called
          · rename_i other
            cases called
            exact absurd rfl other
      | recv index count => exact absurd rfl (publishes index count)
      | publish | writeToCache => cases called
      | writeToSocket =>
          obtain ⟨_, _, impossible⟩ := Option.map_eq_some_iff.mp called
          cases impossible
    · obtain ⟨link, listed, attached, rfl⟩ :=
        served.operate written.state member keeps
      refine ⟨link, ?_, attached, rfl⟩
      cases action with
      | complete => exact List.mem_append_left _ listed
      | writeToCache message => cases written.ok <;> exact listed
      | recv | publish | writeToSocket | elsewhere => exact listed

/-! ## Receiving what is left -/

def Link.unread (kernel : Kernel) (link : Link Message Callback) : Nat :=
  (link.stream kernel).length - link.read

def MessageChannel.unread (channel : MessageChannel Message Callback) : Nat :=
  (channel.links.map (Link.unread channel.publishing.kernel)).sum

/-- No socket is without its link, and no publication has been missed. -/
structure Steady (type : MessageType Message) (topic : String)
    (channel : MessageChannel Message Callback) : Prop where
  served : Served topic channel
  mirrored : ∃ broadcast, Mirrors type topic channel broadcast ∧ Whole topic channel broadcast

theorem Steady.step (roundTrip : type.RoundTrip) {channel next : MessageChannel Message Callback}
    {action : ChannelAction Message Callback} (steady : Steady type topic channel)
    (lossless : channel.Lossless type topic action)
    (stepped : channel.step type topic action = some next) : Steady type topic next := by
  obtain ⟨served, broadcast, mirrors, whole⟩ := steady
  obtain ⟨trace, after, _, mirrored, kept⟩ := mirrors.step roundTrip lossless.1 stepped
  exact ⟨served.step mirrors.sound lossless.1 stepped, after, mirrored, kept lossless.2 whole⟩

theorem steady_initial (type : MessageType Message) (topic : String) :
    Steady type topic (MessageChannel.initial : MessageChannel Message Callback) where
  served _ member := absurd member (Finset.notMem_empty _)
  mirrored := ⟨.initial, mirrors_initial type topic, whole_initial topic⟩

/-- The invariant of a run that only receives: the publisher stands still. -/
structure Receiving (type : MessageType Message) (topic : String) (publishing : Publishing)
    (published : List Message) (channel : MessageChannel Message Callback) : Prop where
  publishing : channel.publishing = publishing
  published : channel.published = published
  steady : Steady type topic channel

/-- While some bytes are unread there is a `recv` that returns some of them. -/
theorem Receiving.recv (roundTrip : type.RoundTrip) {publishing : Publishing}
    {published : List Message} {channel : MessageChannel Message Callback}
    (receiving : Receiving type topic publishing published channel)
    (unread : ¬ channel.unread = 0) :
    ∃ action next, channel.Lossless type topic action ∧
      channel.step type topic action = some next ∧
      Receiving type topic publishing published next ∧ next.unread < channel.unread := by
  obtain ⟨left, member, some⟩ : ∃ left ∈ channel.links.map
      (Link.unread channel.publishing.kernel), left ≠ 0 :=
    List.exists_mem_ne_zero_of_sum_ne_zero unread
  obtain ⟨link, listed, rfl⟩ := List.mem_map.mp member
  obtain ⟨index, located⟩ := List.mem_iff_getElem?.mp listed
  obtain ⟨broadcast, mirrors, _⟩ := receiving.steady.mirrored
  have inside := (List.getElem?_eq_some_iff.mp located).1
  obtain ⟨subscription, found⟩ : ∃ subscription,
      broadcast.subscriptions[index]? = .some subscription :=
    ⟨_, List.getElem?_eq_getElem (mirrors.length ▸ inside)⟩
  obtain ⟨rest, receiver, _⟩ := (mirrors.carried located found).receiver
  let count := min maxBufferSize (link.unread channel.publishing.kernel)
  have positive : 0 < count :=
    Nat.lt_min.mpr ⟨by decide, Nat.pos_of_ne_zero some⟩
  have fits : link.read + count ≤ (link.stream channel.publishing.kernel).length := by
    have least : count ≤ link.unread channel.publishing.kernel := Nat.min_le_right _ _
    unfold Link.unread at least some
    omega
  obtain ⟨next, returned, read⟩ : ∃ next,
      link.recv type channel.publishing.kernel count = .some next ∧
        next.unread channel.publishing.kernel < link.unread channel.publishing.kernel := by
    refine ⟨_, by
      simp only [Link.recv, receiver]
      exact if_pos ⟨positive, Nat.min_le_left _ _, fits⟩, ?_⟩
    change (link.stream channel.publishing.kernel).length - (link.read + count) <
      (link.stream channel.publishing.kernel).length - link.read
    omega
  have stepped : channel.step type topic (.recv index count) =
      .some { channel with links := channel.links.set index next } := by
    change (channel.links[index]?).bind _ = _
    rw [located, Option.bind_some, returned, Option.map_some]
  have lossless : channel.Lossless type topic (.recv index count) := by
    refine ⟨⟨fun _ member => ?_, trivial⟩, fun _ member => ?_⟩
    · cases member
    · cases member
  refine ⟨_, _, lossless, stepped, ⟨receiving.publishing, receiving.published,
    receiving.steady.step roundTrip lossless stepped⟩, ?_⟩
  have before := ((perm_eraseIdx located).map (Link.unread channel.publishing.kernel)).sum_nat
  have later := ((perm_set located next).map (Link.unread channel.publishing.kernel)).sum_nat
  change ((channel.links.set index next).map (Link.unread channel.publishing.kernel)).sum <
    (channel.links.map (Link.unread channel.publishing.kernel)).sum
  rw [before, later, List.map_cons, List.map_cons, List.sum_cons, List.sum_cons]
  exact Nat.add_lt_add_right read _

/-- Receiving alone comes to a state with nothing unread. -/
theorem Receiving.finish (roundTrip : type.RoundTrip) {publishing : Publishing}
    {published : List Message} {channel : MessageChannel Message Callback}
    (receiving : Receiving type topic publishing published channel) :
    ∃ run final, (MessageChannel.machine type topic).Obeys (MessageChannel.Lossless type topic)
        channel run ∧
      (MessageChannel.machine type topic).exec channel run = some final ∧
      Receiving type topic publishing published final ∧ final.unread = 0 := by
  let finished : MessageChannel Message Callback → Prop := fun channel =>
    Receiving type topic publishing published channel ∧ channel.unread = 0
  have lowers : ∀ channel : MessageChannel Message Callback,
      Receiving type topic publishing published channel → ¬ finished channel →
        ∃ action next, channel.Lossless type topic action ∧
          (MessageChannel.machine type topic).step channel action = some next ∧
          Receiving type topic publishing published next ∧ next.unread < channel.unread :=
    fun channel receiving unread =>
      receiving.recv roundTrip fun read => unread ⟨receiving, read⟩
  obtain ⟨run, final, obeys, executed, reached, read⟩ :=
    (MessageChannel.machine type topic).reaches_of_lowers MessageChannel.unread lowers receiving
  exact ⟨run, final, obeys, executed, reached, read⟩

/-- A publication whose writes all go through leaves nothing kept for any socket. -/
theorem Steady.publish (roundTrip : type.RoundTrip) {channel : MessageChannel Message Callback}
    (steady : Steady type topic channel)
    (room : ∀ fd ∈ channel.publishing.client.clientsTopicFd topic,
      ∀ data ∈ channel.publishing.client.clientsData[fd]?, data.length ≤ maxWriteBufferSize)
    {message : Message} (fits : type.Fits message) :
    ∃ action next, channel.Lossless type topic action ∧
      channel.step type topic action = some next ∧ Steady type topic next ∧
      next.published = channel.published ++ [message] ∧
      next.publishing.client.clientsTopicFd = channel.publishing.client.clientsTopicFd ∧
      ∀ fd ∈ next.publishing.client.clientsTopicFd topic,
        next.publishing.client.clientsData[fd]? = some [] := by
  obtain ⟨broadcast, mirrors, _⟩ := steady.mirrored
  let fds := (channel.publishing.client.clientsTopicFd topic).toList
  have distinct : fds.Nodup := Finset.nodup_toList _
  have every : fds.toFinset = channel.publishing.client.clientsTopicFd topic :=
    Finset.toList_toFinset _
  let ready : Publishing :=
    { channel.publishing with kernel := { channel.publishing.kernel with errno := 0 } }
  have size : maxWriteBufferSize + (type.serialize message).length < 2 ^ 31 := by
    unfold MessageType.Fits maxBufferSize at fits
    unfold maxWriteBufferSize
    omega
  have known : ∀ fd ∈ fds, ∃ data, ready.client.clientsData[fd]? = some data ∧
      data.length ≤ maxWriteBufferSize := by
    intro fd member
    have registered := Finset.mem_toList.mp member
    obtain ⟨data, located, _⟩ := mirrors.sound.intact topic fd registered
    exact ⟨data, located, room fd registered data located⟩
  obtain ⟨results, written, wrote, accepts, none, sockets⟩ :=
    Publishing.writeSockets_accepting topic size distinct
      (show (0 : Int) ≠ EAGAIN by decide) known
  have performed : channel.publishing.perform
      (.writeToSocket topic (type.serialize message) fds 0 results) = some written := by
    rw [Publishing.perform, if_pos ⟨distinct, every⟩]
    exact wrote
  have stepped : channel.step type topic (.publish message fds 0 results) = some
      (MessageChannel.record { channel with
        publishing := written.state
        links := channel.links.map (Link.detach channel.publishing.kernel
          (.writeToSocket topic (type.serialize message) fds 0 results)) } message) := by
    change (channel.operate (.writeToSocket topic (type.serialize message) fds 0 results)).map
      _ = _
    rw [MessageChannel.operate, performed]
    rfl
  have lossless : channel.Lossless type topic (.publish message fds 0 results) := by
    refine ⟨⟨fun operation called written' performed' => ?_, fits⟩, fun operation called => ?_⟩
    · cases called
      cases performed.symm.trans performed'
      exact accepts.quiet
    · cases called
      exact fun _ => none
  refine ⟨_, _, lossless, stepped, steady.step roundTrip lossless stepped, rfl, sockets,
    fun fd registered => ?_⟩
  have before : fd ∈ fds := by
    change fd ∈ written.state.client.clientsTopicFd topic at registered
    rw [sockets] at registered
    exact Finset.mem_toList.mpr registered
  obtain ⟨data, located, small⟩ := known fd before
  refine (Publishing.writeSockets_all distinct wrote accepts before).mpr ⟨?_, ?_⟩
  · rw [located]
    exact small
  · rw [located, Option.getD_some]
    omega

/-- From every state that a topic reaches without passing over a socket, while no backlog is
over the limit, a publication and receipts lead to a state in which every socket of the topic
has had all that was cached when it joined and all that was published since. -/
theorem publish_delivers (roundTrip : type.RoundTrip) (topic : String)
    {run : List (ChannelAction Message Callback)} {channel : MessageChannel Message Callback}
    (lossless : (MessageChannel.machine type topic).Obeys (MessageChannel.Lossless type topic)
      MessageChannel.initial run)
    (executed : (MessageChannel.machine type topic).exec MessageChannel.initial run =
      some channel)
    (room : ∀ fd ∈ channel.publishing.client.clientsTopicFd topic,
      ∀ data ∈ channel.publishing.client.clientsData[fd]?, data.length ≤ maxWriteBufferSize)
    {message : Message} (fits : type.Fits message) :
    ∃ onward final, (MessageChannel.machine type topic).Obeys (MessageChannel.Lossless type topic)
        channel onward ∧
      (MessageChannel.machine type topic).exec channel onward = some final ∧
      final.published = channel.published ++ [message] ∧
      final.publishing.client.clientsTopicFd = channel.publishing.client.clientsTopicFd ∧
      ∀ fd ∈ final.publishing.client.clientsTopicFd topic, ∃ link ∈ final.links, link.fd = fd ∧
        link.Drained topic final.publishing ∧
        ∃ backlog : List Message, link.cache = backlog.map type.serialize ∧
          link.Called (backlog ++ final.published.drop link.since) := by
  have steady : Steady type topic channel :=
    ((MessageChannel.machine type topic).along_of_obeys
      (fun _ _ _ steady allowed stepped => steady.step roundTrip allowed stepped)
      (steady_initial type topic) lossless).final executed
  obtain ⟨action, next, allowed, stepped, published, record, sockets, empty⟩ :=
    steady.publish roundTrip room fits
  obtain ⟨receipts, final, receives, received, finished, read⟩ :=
    (Receiving.mk rfl rfl published).finish roundTrip
  refine ⟨action :: receipts, final, ?_, ?_, finished.published.trans record, ?_, ?_⟩
  · intro other same
    cases stepped.symm.trans same
    exact ⟨allowed, receives⟩
  · exact ((MessageChannel.machine type topic).exec_cons_of_step stepped receipts).trans received
  · rw [finished.publishing]
    exact sockets
  · intro fd registered
    obtain ⟨link, listed, attached, rfl⟩ := finished.steady.served fd registered
    obtain ⟨broadcast, mirrors, whole⟩ := finished.steady.mirrored
    obtain ⟨index, located⟩ := List.mem_iff_getElem?.mp listed
    have inside := (List.getElem?_eq_some_iff.mp located).1
    obtain ⟨subscription, found⟩ : ∃ subscription,
        broadcast.subscriptions[index]? = some subscription :=
      ⟨_, List.getElem?_eq_getElem (mirrors.length ▸ inside)⟩
    have within := (mirrors.carried located found).read
    have nothing : link.unread final.publishing.kernel = 0 :=
      List.sum_eq_zero_iff_forall_eq_nat.mp read _ (List.mem_map_of_mem listed)
    have drained : link.Drained topic final.publishing := by
      refine ⟨attached, registered, ?_, ?_⟩
      · rw [finished.publishing] at registered ⊢
        exact empty link.fd registered
      · unfold Link.unread Link.stream at nothing
        unfold Link.stream at within
        rw [attached, Option.getD_none] at nothing within
        omega
    exact ⟨link, listed, rfl, drained, mirrors.called_all whole listed drained⟩

/-- A subscriber whose socket was full when the last message was published. -/
def fullSocket : List (ChannelAction Bool Unit) :=
  [.complete 3 [] [()] 0 [], .publish true [3] 0 [.accepted 2, .error EAGAIN], .recv 0 1]

theorem publish_delivers_fullSocket :
    ∃ channel : MessageChannel Bool Unit,
      (MessageChannel.machine Receiver.flagType "hello").exec MessageChannel.initial fullSocket =
        some channel ∧
      ∃ onward final, (MessageChannel.machine Receiver.flagType "hello").Obeys
          (MessageChannel.Lossless Receiver.flagType "hello") channel onward ∧
        (MessageChannel.machine Receiver.flagType "hello").exec channel onward = some final ∧
        final.published = channel.published ++ [false] ∧
        final.publishing.client.clientsTopicFd = channel.publishing.client.clientsTopicFd ∧
        ∀ fd ∈ final.publishing.client.clientsTopicFd "hello", ∃ link ∈ final.links,
          link.fd = fd ∧ link.Drained "hello" final.publishing ∧
          ∃ backlog : List Bool, link.cache = backlog.map Receiver.flagType.serialize ∧
            link.Called (backlog ++ final.published.drop link.since) := by
  have lossless : (MessageChannel.machine Receiver.flagType "hello").Obeys
      (MessageChannel.Lossless Receiver.flagType "hello") MessageChannel.initial fullSocket := by
    decide +kernel
  have runs : ((MessageChannel.machine Receiver.flagType "hello").exec MessageChannel.initial
      fullSocket).any (fun channel => decide (∀ fd ∈
        channel.publishing.client.clientsTopicFd "hello",
          ∀ data ∈ channel.publishing.client.clientsData[fd]?,
            data.length ≤ maxWriteBufferSize)) := by
    decide +kernel
  obtain ⟨channel, executed, room⟩ := (Option.any_eq_true _ _).mp runs
  exact ⟨channel, executed, publish_delivers Receiver.flagType_roundTrip "hello" lossless executed
    (of_decide_eq_true room) (by decide +kernel)⟩

end ProtoCore.Topic
