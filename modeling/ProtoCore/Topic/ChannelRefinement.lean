import ProtoCore.Topic.MessageChannel

/-!
# What a subscriber is called with

Behind every run of a topic there is a run of the broadcast with the same publications, in
which each subscription has received what the callbacks of its link were called with.
-/

set_option autoImplicit false

namespace ProtoCore.Topic

open Library Library.FrameStream

variable {Message Callback : Type} {type : MessageType Message} {topic : String}

namespace Link

/-- The operation leaves the link its descriptor. -/
def Keeps (operation : Publishing.Operation) (link : Link Message Callback) : Prop :=
  ∀ topic fd cache errno results, operation = .complete topic fd cache errno results →
    link.fd ≠ fd

theorem detach_cases (kernel : Kernel) (operation : Publishing.Operation)
    (link : Link Message Callback) :
    link.detach kernel operation = link ∧ (link.left = none → link.Keeps operation) ∨
      link.left = none ∧
        link.detach kernel operation = { link with left := some (kernel.accepted link.fd) } := by
  cases operation with
  | complete topic fd cache errno results =>
      simp only [detach]
      split
      · rename_i taken
        exact .inr ⟨taken.1, by rw [taken.2]⟩
      · rename_i kept
        refine .inl ⟨rfl, fun attached other fd' cache' errno' results' same here => ?_⟩
        cases same
        exact kept ⟨attached, here⟩
  | writeToCache | writeToSocket => exact .inl ⟨rfl, fun _ _ _ _ _ _ same => by cases same⟩

end Link

/-- The channel and the broadcast behind it. No descriptor of a link that has its own is
registered for another topic. -/
structure Mirrors (type : MessageType Message) (topic : String)
    (channel : MessageChannel Message Callback) (broadcast : Broadcast Message) : Prop where
  sound : channel.publishing.Sound
  published : broadcast.published = channel.published
  length : channel.links.length = broadcast.subscriptions.length
  carried : ∀ {index : Nat} {link : Link Message Callback} {subscription : Subscription Message},
    channel.links[index]? = some link → broadcast.subscriptions[index]? = some subscription →
      Link.Carries type channel.publishing link subscription
  mine : ∀ link ∈ channel.links, link.left = none → ∀ other,
    link.fd ∈ channel.publishing.client.clientsTopicFd other → other = topic
  cache : ∀ data ∈ channel.publishing.client.staticTopicCache topic,
    ∃ message, type.Fits message ∧ data = type.serialize message
  pending : ∀ message ∈ channel.pending, type.Fits message

theorem mirrors_initial (type : MessageType Message) (topic : String) :
    Mirrors type topic (MessageChannel.initial : MessageChannel Message Callback) .initial where
  sound := Publishing.new_sound
  published := rfl
  length := rfl
  carried located := by cases located
  mine _ member := absurd member List.not_mem_nil
  cache _ member := absurd member (Finset.notMem_empty _)
  pending _ member := absurd member List.not_mem_nil

/-! ## Steps of the publisher -/

/-- An operation that adds no frame to the link of any subscription. -/
theorem Mirrors.operate {channel : MessageChannel Message Callback} {broadcast : Broadcast Message}
    (mirrors : Mirrors type topic channel broadcast) (operation : Publishing.Operation)
    {after : Publishing} (sound : after.Sound)
    (grown : ∀ link ∈ channel.links, link.left = none → link.Keeps operation →
      Publishing.Grown link.fd channel.publishing after [])
    (members : ∀ link ∈ channel.links, link.Keeps operation → ∀ other,
      link.fd ∈ after.client.clientsTopicFd other →
        link.fd ∈ channel.publishing.client.clientsTopicFd other)
    (cache : ∀ data ∈ after.client.staticTopicCache topic,
      ∃ message, type.Fits message ∧ data = type.serialize message) :
    Mirrors type topic { channel with
      publishing := after
      links := channel.links.map (Link.detach channel.publishing.kernel operation) } broadcast where
  sound := sound
  published := mirrors.published
  length := by
    rw [List.length_map]
    exact mirrors.length
  carried {index link subscription} located found := by
    rw [List.getElem?_map] at located
    obtain ⟨before, there, rfl⟩ := Option.map_eq_some_iff.mp located
    have carries := mirrors.carried there found
    have listed := List.mem_of_getElem? there
    rcases before.detach_cases channel.publishing.kernel operation with
      ⟨same, keeps⟩ | ⟨attached, same⟩
    · rw [same]
      by_cases attached : before.left = none
      · exact carries.same attached (grown before listed attached (keeps attached))
      · exact carries.apart attached
    · rw [same]
      exact carries.detached attached
  mine link member attached other registered := by
    obtain ⟨before, listed, rfl⟩ := List.mem_map.mp member
    rcases before.detach_cases channel.publishing.kernel operation with
      ⟨same, keeps⟩ | ⟨_, same⟩
    · rw [same] at attached registered
      exact mirrors.mine before listed attached other
        (members before listed (keeps attached) other registered)
    · rw [same] at attached
      cases attached
  cache := cache
  pending := mirrors.pending

/-- The links that a message was added to. -/
def MessageChannel.reached (channel : MessageChannel Message Callback) (after : Publishing) :
    List Nat :=
  (List.range channel.links.length).filter fun index =>
    (channel.links[index]?).any fun link =>
      decide (link.left = none ∧ after.frames link.fd ≠ channel.publishing.frames link.fd)

theorem MessageChannel.mem_reached {channel : MessageChannel Message Callback}
    {after : Publishing} {index : Nat} {link : Link Message Callback}
    (located : channel.links[index]? = some link) :
    index ∈ channel.reached after ↔
      link.left = none ∧ after.frames link.fd ≠ channel.publishing.frames link.fd := by
  have inside := (List.getElem?_eq_some_iff.mp located).1
  simp only [reached, List.mem_filter, List.mem_range, inside, true_and, located,
    Option.any_some, decide_eq_true_eq]

/-- A message was written to the sockets of the topic. -/
theorem Mirrors.publish {channel : MessageChannel Message Callback} {broadcast : Broadcast Message}
    (mirrors : Mirrors type topic channel broadcast) {message : Message}
    (fits : type.Fits message) {after : Publishing} (sound : after.Sound)
    (wrote : Publishing.Wrote channel.publishing topic (type.serialize message) after)
    {pending : List Message} (fewer : ∀ other ∈ pending, other ∈ channel.pending) :
    Mirrors type topic { channel with
      publishing := after
      published := channel.published ++ [message]
      pending := pending } (broadcast.publish message (channel.reached after)) where
  sound := sound
  published := by
    rw [Broadcast.publish, mirrors.published]
  length := by
    rw [Broadcast.publish, List.length_mapIdx]
    exact mirrors.length
  carried {index link subscription} located found := by
    rw [Broadcast.publish, List.getElem?_mapIdx] at found
    obtain ⟨before, there, rfl⟩ := Option.map_eq_some_iff.mp found
    have here : channel.links[index]? = some link := located
    have carries := mirrors.carried here there
    obtain ⟨added, grown, shape⟩ := wrote.grown link.fd
    by_cases reached : index ∈ channel.reached after
    · obtain ⟨attached, differ⟩ := (MessageChannel.mem_reached here).mp reached
      rw [if_pos reached]
      rcases shape with rfl | ⟨rfl, _⟩
      · exact absurd (grown.frames.trans (List.append_nil _)) differ
      · exact carries.enqueue attached fits grown
    · rw [if_neg reached]
      by_cases attached : link.left = none
      · have same : after.frames link.fd = channel.publishing.frames link.fd := by
          by_contra differ
          exact reached ((MessageChannel.mem_reached here).mpr ⟨attached, differ⟩)
        rw [grown.frames, List.append_right_eq_self] at same
        subst same
        exact carries.same attached grown
      · exact carries.apart attached
  mine link member attached other registered :=
    mirrors.mine link member attached other (wrote.members registered)
  cache data cached := by
    rw [wrote.cached] at cached
    exact mirrors.cache data cached
  pending other member := mirrors.pending other (fewer other member)

/-- A connection was completed for the topic, with the messages of its cache. -/
theorem Mirrors.join {channel : MessageChannel Message Callback} {broadcast : Broadcast Message}
    (mirrors : Mirrors type topic channel broadcast) {fd : Nat} {backlog : List Message}
    (functions : List Callback) (fits : ∀ message ∈ backlog, type.Fits message)
    (owed : channel.publishing.owed fd = FrameStream.stream type.serialize backlog)
    (taken : channel.publishing.kernel.accepted fd <+: channel.publishing.owed fd)
    (mine : ∀ other, fd ∈ channel.publishing.client.clientsTopicFd other → other = topic) :
    Mirrors type topic (channel.join fd (backlog.map type.serialize) functions) { broadcast with
      subscriptions := broadcast.subscriptions ++
        [.joined backlog broadcast.published.length] } where
  sound := mirrors.sound
  published := mirrors.published
  length := by
    rw [MessageChannel.join, List.length_append, List.length_append, mirrors.length]
    rfl
  carried {index link subscription} located found := by
    rcases getElem?_concat_eq_some located with there | ⟨last, rfl⟩
    · rcases getElem?_concat_eq_some found with here | ⟨past, _⟩
      · exact mirrors.carried there here
      · have inside := (List.getElem?_eq_some_iff.mp there).1
        rw [mirrors.length, ← past] at inside
        exact absurd inside (Nat.lt_irrefl _)
    · rcases getElem?_concat_eq_some found with here | ⟨_, rfl⟩
      · have inside := (List.getElem?_eq_some_iff.mp here).1
        rw [← mirrors.length, ← last] at inside
        exact absurd inside (Nat.lt_irrefl _)
      · rw [mirrors.published]
        exact .joined functions _ fits owed taken
  mine link member attached other registered := by
    rcases List.mem_append.mp member with old | new
    · exact mirrors.mine link old attached other registered
    · rw [List.mem_singleton.mp new] at registered
      exact mine other registered
  cache := mirrors.cache
  pending := mirrors.pending

/-! ## Nothing missed -/

/-- The sockets still registered have been told of every publication since they joined. -/
def Whole (topic : String) (channel : MessageChannel Message Callback)
    (broadcast : Broadcast Message) : Prop :=
  ∀ (index : Nat) (link : Link Message Callback) (subscription : Subscription Message),
    channel.links[index]? = some link → broadcast.subscriptions[index]? = some subscription →
      link.left = none → link.fd ∈ channel.publishing.client.clientsTopicFd topic →
        subscription.since ≤ broadcast.published.length ∧
          subscription.told =
            subscription.backlog ++ broadcast.published.drop subscription.since

/-- A write of a message to the sockets of the topic passes over none of them. -/
def Publishing.MissesNone (publishing : Publishing) (topic : String) :
    Publishing.Operation → Prop
  | .writeToSocket own msg order errno results => own = topic →
      missed topic msg order { publishing with
        kernel := { publishing.kernel with errno := errno } } results = []
  | _ => True

instance (publishing : Publishing) (topic : String) (operation : Publishing.Operation) :
    Decidable (publishing.MissesNone topic operation) :=
  match operation with
  | .writeToSocket _ _ _ _ _ => inferInstanceAs (Decidable (_ → _))
  | .writeToCache _ _ | .complete _ _ _ _ _ => isTrue trivial

def MessageChannel.NoneMissed (type : MessageType Message) (topic : String)
    (channel : MessageChannel Message Callback) (action : ChannelAction Message Callback) : Prop :=
  ∀ operation, channel.operation type topic action = some operation →
    channel.publishing.MissesNone topic operation

instance (type : MessageType Message) (topic : String) (channel : MessageChannel Message Callback)
    (action : ChannelAction Message Callback) : Decidable (channel.NoneMissed type topic action) :=
  inferInstanceAs (Decidable (∀ operation ∈ channel.operation type topic action, _))

/-- The steps after which every socket is still told of everything. -/
def MessageChannel.Lossless (type : MessageType Message) (topic : String)
    (channel : MessageChannel Message Callback) (action : ChannelAction Message Callback) : Prop :=
  channel.Orderly type topic action ∧ channel.NoneMissed type topic action

instance (type : MessageType Message) (topic : String) (channel : MessageChannel Message Callback)
    (action : ChannelAction Message Callback) : Decidable (channel.Lossless type topic action) :=
  inferInstanceAs (Decidable (_ ∧ _))

theorem Whole.operate {channel : MessageChannel Message Callback} {broadcast : Broadcast Message}
    (whole : Whole topic channel broadcast) (operation : Publishing.Operation) {after : Publishing}
    (members : ∀ link ∈ channel.links, link.Keeps operation →
      link.fd ∈ after.client.clientsTopicFd topic →
        link.fd ∈ channel.publishing.client.clientsTopicFd topic) :
    Whole topic { channel with
      publishing := after
      links := channel.links.map (Link.detach channel.publishing.kernel operation) }
      broadcast := by
  intro index link subscription located found attached registered
  rw [List.getElem?_map] at located
  obtain ⟨before, there, rfl⟩ := Option.map_eq_some_iff.mp located
  rcases before.detach_cases channel.publishing.kernel operation with ⟨same, keeps⟩ | ⟨_, same⟩
  · rw [same] at attached registered
    exact whole index before subscription there found attached
      (members before (List.mem_of_getElem? there) (keeps attached) registered)
  · rw [same] at attached
    cases attached

theorem Whole.publish {channel : MessageChannel Message Callback} {broadcast : Broadcast Message}
    (whole : Whole topic channel broadcast) {message : Message} {after : Publishing}
    (told : ∀ fd ∈ after.client.clientsTopicFd topic,
      fd ∈ channel.publishing.client.clientsTopicFd topic ∧
        after.frames fd ≠ channel.publishing.frames fd) (pending : List Message) :
    Whole topic { channel with
      publishing := after
      published := channel.published ++ [message]
      pending := pending } (broadcast.publish message (channel.reached after)) := by
  intro index link subscription located found attached registered
  have here : channel.links[index]? = some link := located
  rw [Broadcast.publish, List.getElem?_mapIdx] at found
  obtain ⟨before, there, rfl⟩ := Option.map_eq_some_iff.mp found
  obtain ⟨member, differ⟩ := told link.fd registered
  obtain ⟨since, same⟩ := whole index link before here there attached member
  rw [if_pos ((MessageChannel.mem_reached here).mpr ⟨attached, differ⟩)]
  constructor
  · rw [Broadcast.publish, List.length_append]
    exact Nat.le_trans since (Nat.le_add_right _ _)
  · rw [Subscription.told_enqueue, same, Broadcast.publish, List.append_assoc]
    exact congrArg _ (Broadcast.drop_concat since message).symm

theorem Whole.join {channel : MessageChannel Message Callback} {broadcast : Broadcast Message}
    (whole : Whole topic channel broadcast)
    (length : channel.links.length = broadcast.subscriptions.length) (fd : Nat)
    (cache : List (List UInt8)) (functions : List Callback) (backlog : List Message) :
    Whole topic (channel.join fd cache functions) { broadcast with
      subscriptions := broadcast.subscriptions ++
        [.joined backlog broadcast.published.length] } := by
  intro index link subscription located found attached registered
  rcases getElem?_concat_eq_some found with here | ⟨last, rfl⟩
  · rcases getElem?_concat_eq_some located with there | ⟨past, _⟩
    · exact whole _ _ _ there here attached registered
    · have inside := (List.getElem?_eq_some_iff.mp here).1
      rw [← length, ← past] at inside
      exact absurd inside (Nat.lt_irrefl _)
  · refine ⟨Nat.le_refl _, ?_⟩
    change backlog = backlog ++ broadcast.published.drop broadcast.published.length
    rw [List.drop_length, List.append_nil]

/-! ## Steps of a subscriber -/

theorem Link.recv_same {link next : Link Message Callback} {kernel : Kernel} {count : Nat}
    (returned : link.recv type kernel count = some next) :
    next.fd = link.fd ∧ next.left = link.left := by
  unfold Link.recv at returned
  split at returned
  · cases returned
  · split at returned
    · cases returned
      exact ⟨rfl, rfl⟩
    · cases returned

theorem Mirrors.recv (roundTrip : type.RoundTrip) {channel : MessageChannel Message Callback}
    {broadcast : Broadcast Message} (mirrors : Mirrors type topic channel broadcast)
    {index count : Nat} {link next : Link Message Callback}
    (located : channel.links[index]? = some link)
    (returned : link.recv type channel.publishing.kernel count = some next) :
    ∃ further after,
      Broadcast.machine.exec broadcast (List.replicate further (.receive index)) = some after ∧
        Mirrors type topic { channel with links := channel.links.set index next } after ∧
        (Whole topic channel broadcast →
          Whole topic { channel with links := channel.links.set index next } after) := by
  have inside := (List.getElem?_eq_some_iff.mp located).1
  obtain ⟨subscription, found⟩ : ∃ subscription,
      broadcast.subscriptions[index]? = some subscription :=
    ⟨_, List.getElem?_eq_getElem (mirrors.length ▸ inside)⟩
  obtain ⟨further, enough, carries⟩ := (mirrors.carried located found).recv roundTrip returned
  have same := Link.recv_same returned
  -- either link and subscription are the ones that received, or neither is
  have pairs : ∀ {other : Nat} {link' : Link Message Callback}
      {subscription' : Subscription Message},
      (channel.links.set index next)[other]? = some link' →
      (broadcast.subscriptions.set index (subscription.taken further))[other]? =
        some subscription' →
      (link' = next ∧ subscription' = subscription.taken further) ∨
        (channel.links[other]? = some link' ∧
          broadcast.subscriptions[other]? = some subscription') := by
    intro other link' subscription' there here
    by_cases chosen : other = index
    · subst chosen
      rw [List.getElem?_set_self inside] at there
      rw [List.getElem?_set_self (mirrors.length ▸ inside)] at here
      exact .inl ⟨(Option.some.inj there).symm, (Option.some.inj here).symm⟩
    · rw [List.getElem?_set_ne (Ne.symm chosen)] at there here
      exact .inr ⟨there, here⟩
  refine ⟨further, _, Broadcast.exec_receive found enough, ⟨mirrors.sound, mirrors.published,
    ?_, fun there here => ?_, ?_, mirrors.cache, mirrors.pending⟩, fun whole => ?_⟩
  · rw [List.length_set, List.length_set]
    exact mirrors.length
  · rcases pairs there here with ⟨rfl, rfl⟩ | ⟨there, here⟩
    · exact carries
    · exact mirrors.carried there here
  · intro link' member attached other registered
    rcases List.mem_or_eq_of_mem_set member with old | rfl
    · exact mirrors.mine link' old attached other registered
    · rw [same.1] at registered
      exact mirrors.mine link (List.mem_of_getElem? located) (same.2.symm.trans attached) other
        registered
  · intro other link' subscription' there here attached registered
    rcases pairs there here with ⟨rfl, rfl⟩ | ⟨there, here⟩
    · rw [same.1] at registered
      rw [Subscription.told_taken]
      exact whole index link subscription located found (same.2.symm.trans attached) registered
    · exact whole _ _ _ there here attached registered

/-! ## Runs -/

theorem exists_messages {cache : List (List UInt8)}
    (all : ∀ data ∈ cache, ∃ message, type.Fits message ∧ data = type.serialize message) :
    ∃ backlog : List Message, (∀ message ∈ backlog, type.Fits message) ∧
      cache = backlog.map type.serialize := by
  induction cache with
  | nil => exact ⟨[], fun _ member => absurd member List.not_mem_nil, rfl⟩
  | cons data cache ih =>
      obtain ⟨message, fits, rfl⟩ := all data List.mem_cons_self
      obtain ⟨backlog, every, same⟩ := ih fun other member =>
        all other (List.mem_cons_of_mem _ member)
      refine ⟨message :: backlog, fun other member => ?_, ?_⟩
      · rcases List.mem_cons.mp member with rfl | later
        · exact fits
        · exact every other later
      · rw [same, List.map_cons]

theorem map_detach_write (kernel : Kernel) (own : String) (msg : List UInt8) (order : List Nat)
    (errno : Int) (results : List WriteResult) (links : List (Link Message Callback)) :
    links.map (Link.detach kernel (.writeToSocket own msg order errno results)) = links :=
  List.map_id'' (fun _ => rfl) links

/-- A write to the sockets of the topic, in `publish` with or without `cache`. -/
theorem Mirrors.write {channel : MessageChannel Message Callback} {broadcast : Broadcast Message}
    (mirrors : Mirrors type topic channel broadcast) {message : Message}
    (fits : type.Fits message) {order : List Nat} {errno : Int} {results : List WriteResult}
    {written : Publishing.Written}
    (performed : channel.publishing.perform
      (.writeToSocket topic (type.serialize message) order errno results) = some written)
    (quiet : ∀ call ∈ written.calls, ¬ call.StickyPartial)
    {pending : List Message} (fewer : ∀ other ∈ pending, other ∈ channel.pending) :
    ∃ trace after, Broadcast.machine.exec broadcast trace = some after ∧
      Mirrors type topic { channel with
        publishing := written.state
        published := channel.published ++ [message]
        pending := pending } after ∧
      (Publishing.missed topic (type.serialize message) order { channel.publishing with
          kernel := { channel.publishing.kernel with errno := errno } } results = [] →
        Whole topic channel broadcast → Whole topic { channel with
          publishing := written.state
          published := channel.published ++ [message]
          pending := pending } after) := by
  have sound := (mirrors.sound.perform performed).1 quiet
  have wrote := mirrors.sound.perform_wrote performed quiet
  refine ⟨[.publish message (channel.reached written.state)], _, rfl,
    mirrors.publish fits sound wrote fewer, fun none whole => ?_⟩
  exact whole.publish (Publishing.perform_told performed none) pending

/-- The operations for other topics leave this one alone. -/
theorem Mirrors.elsewhere {channel : MessageChannel Message Callback}
    {broadcast : Broadcast Message} (mirrors : Mirrors type topic channel broadcast)
    {operation : Publishing.Operation} (other : operation.topic ≠ topic)
    {written : Publishing.Written} (performed : channel.publishing.perform operation = some written)
    (quiet : ∀ call ∈ written.calls, ¬ call.StickyPartial) :
    Mirrors type topic { channel with
      publishing := written.state
      links := channel.links.map (Link.detach channel.publishing.kernel operation) } broadcast ∧
    (Whole topic channel broadcast → Whole topic { channel with
      publishing := written.state
      links := channel.links.map (Link.detach channel.publishing.kernel operation) }
        broadcast) := by
  have sound := (mirrors.sound.perform performed).1 quiet
  cases operation with
  | writeToCache own data =>
      cases performed
      refine ⟨mirrors.operate _ sound (fun link _ _ _ => ?_) (fun _ _ _ _ member => member) ?_,
        fun whole => whole.operate _ fun _ _ _ member => member⟩
      · exact ⟨rfl, (List.append_nil _).symm, List.prefix_refl _, fun kept => kept⟩
      · intro entry cached
        change entry ∈ Function.update channel.publishing.client.staticTopicCache own _ topic
          at cached
        have different : topic ≠ own := Ne.symm other
        rw [Function.update_of_ne different] at cached
        exact mirrors.cache entry cached
  | writeToSocket own msg order errno results =>
      have wrote := mirrors.sound.perform_wrote performed quiet
      refine ⟨mirrors.operate _ sound (fun link listed attached _ => ?_)
        (fun _ _ _ _ member => wrote.members member) ?_,
        fun whole => whole.operate _ fun _ _ _ member => wrote.members member⟩
      · obtain ⟨added, grown, rfl | ⟨_, registered⟩⟩ := wrote.grown link.fd
        · exact grown
        · exact absurd (mirrors.mine link listed attached own registered) other
      · rw [wrote.cached]
        exact mirrors.cache
  | complete own fd cache errno results =>
      have begun := mirrors.sound.perform_begun performed quiet
      refine ⟨mirrors.operate _ sound (fun link _ _ keeps => ?_) (fun link _ keeps _ member => ?_) ?_,
        fun whole => whole.operate _ fun link _ keeps member => ?_⟩
      · exact begun.others link.fd (keeps own fd cache errno results rfl)
      · exact begun.members member (keeps own fd cache errno results rfl)
      · rw [begun.cached]
        exact mirrors.cache
      · exact begun.members member (keeps own fd cache errno results rfl)

/-- The first step of `publish` with `cache`. -/
theorem Mirrors.writeToCache {channel : MessageChannel Message Callback}
    {broadcast : Broadcast Message} (mirrors : Mirrors type topic channel broadcast)
    {message : Message} (fits : type.Fits message) {written : Publishing.Written}
    (performed : channel.publishing.perform (.writeToCache topic (type.serialize message)) =
      some written) :
    Mirrors type topic ({ channel with
        publishing := written.state } : MessageChannel Message Callback) broadcast ∧
      (Whole topic channel broadcast → Whole topic ({ channel with
        publishing := written.state } : MessageChannel Message Callback) broadcast) := by
  cases performed
  have unmoved : ∀ links : List (Link Message Callback),
      links.map (Link.detach channel.publishing.kernel
        (.writeToCache topic (type.serialize message))) = links :=
    List.map_id'' fun _ => rfl
  have sound : ({ channel.publishing with client := { channel.publishing.client with
      staticTopicCache := Function.update channel.publishing.client.staticTopicCache topic
        (insert (type.serialize message) (channel.publishing.client.staticTopicCache topic)) } } :
          Publishing).Sound :=
    ⟨mirrors.sound.intact, mirrors.sound.opened, mirrors.sound.single⟩
  have mirrored := mirrors.operate (.writeToCache topic (type.serialize message)) sound
    (fun link _ _ _ => ?_) (fun _ _ _ _ member => member) ?_
  · rw [unmoved] at mirrored
    exact ⟨mirrored, fun whole => whole⟩
  · exact ⟨rfl, (List.append_nil _).symm, List.prefix_refl _, fun kept => kept⟩
  · intro entry cached
    change entry ∈ Function.update channel.publishing.client.staticTopicCache topic _ topic
      at cached
    rw [Function.update_self] at cached
    rcases Finset.mem_insert.mp cached with rfl | old
    · exact ⟨message, fits, rfl⟩
    · exact mirrors.cache entry old

theorem Mirrors.latch {channel : MessageChannel Message Callback} {broadcast : Broadcast Message}
    (mirrors : Mirrors type topic channel broadcast) {message : Message}
    (fits : type.Fits message) (inserted : Bool) :
    Mirrors type topic (channel.latch message inserted) broadcast := by
  cases inserted with
  | false => exact mirrors
  | true =>
      refine ⟨mirrors.sound, mirrors.published, mirrors.length, mirrors.carried, mirrors.mine,
        mirrors.cache, fun other member => ?_⟩
      rcases List.mem_append.mp member with old | new
      · exact mirrors.pending other old
      · rw [List.mem_singleton.mp new]
        exact fits

theorem Whole.latch {channel : MessageChannel Message Callback} {broadcast : Broadcast Message}
    (whole : Whole topic channel broadcast) (message : Message) (inserted : Bool) :
    Whole topic (channel.latch message inserted) broadcast := by
  cases inserted with
  | false => exact whole
  | true => exact whole

/-- A connection for the topic, registered with the whole cache. -/
theorem Mirrors.complete {channel : MessageChannel Message Callback}
    {broadcast : Broadcast Message} (mirrors : Mirrors type topic channel broadcast) {fd : Nat}
    {cache : List (List UInt8)} {errno : Int} {results : List WriteResult}
    {written : Publishing.Written} (functions : List Callback)
    (performed : channel.publishing.perform (.complete topic fd cache errno results) =
      some written)
    (quiet : ∀ call ∈ written.calls, ¬ call.StickyPartial) :
    ∃ trace after, Broadcast.machine.exec broadcast trace = some after ∧
      Mirrors type topic (({ channel with
        publishing := written.state
        links := channel.links.map (Link.detach channel.publishing.kernel
          (.complete topic fd cache errno results)) } : MessageChannel Message Callback).join
            fd cache functions) after ∧
      (Whole topic channel broadcast → Whole topic (({ channel with
        publishing := written.state
        links := channel.links.map (Link.detach channel.publishing.kernel
          (.complete topic fd cache errno results)) } : MessageChannel Message Callback).join
            fd cache functions) after) := by
  have sound := (mirrors.sound.perform performed).1 quiet
  have begun := mirrors.sound.perform_begun performed quiet
  have entries : ∀ data ∈ cache, ∃ message, type.Fits message ∧ data = type.serialize message :=
    fun data member => mirrors.cache data (begun.whole ▸ List.mem_toFinset.mpr member)
  have kept (link : Link Message Callback)
      (keeps : link.Keeps (.complete topic fd cache errno results)) : link.fd ≠ fd :=
    keeps topic fd cache errno results rfl
  obtain ⟨backlog, fits, rfl⟩ := exists_messages entries
  have moved := mirrors.operate (.complete topic fd _ errno results) sound
    (fun link _ _ keeps => begun.others link.fd (kept link keeps))
    (fun link _ keeps _ member => begun.members member (kept link keeps))
    (begun.cached ▸ mirrors.cache)
  have whole (before : Whole topic channel broadcast) := before.operate
    (.complete topic fd _ errno results)
    fun link _ keeps member => begun.members member (kept link keeps)
  refine ⟨[.join backlog], _, rfl,
    moved.join functions fits begun.owed begun.taken begun.mine, fun before => ?_⟩
  exact (whole before).join moved.length fd _ functions backlog

/-- A step of the publisher is a call of it and what follows the call. -/
theorem MessageChannel.step_operation {channel next : MessageChannel Message Callback}
    {action : ChannelAction Message Callback} (stepped : channel.step type topic action = some next)
    (publishes : ∀ index count, action ≠ .recv index count) :
    ∃ operation written, channel.operation type topic action = some operation ∧
      channel.publishing.perform operation = some written ∧
      next = conclude channel { channel with
        publishing := written.state
        links := channel.links.map (Link.detach channel.publishing.kernel operation) }
          written.ok action := by
  have published : channel.publisherStep type topic action = some next := by
    cases action with
    | recv index count => exact absurd rfl (publishes index count)
    | publish | writeToCache | writeToSocket | complete | elsewhere => exact stepped
  obtain ⟨operation, called, rest⟩ := Option.bind_eq_some_iff.mp published
  obtain ⟨outcome, operated, rfl⟩ := Option.map_eq_some_iff.mp rest
  obtain ⟨written, performed, rfl⟩ := Option.map_eq_some_iff.mp operated
  exact ⟨operation, written, called, performed, rfl⟩

theorem Mirrors.step (roundTrip : type.RoundTrip) {channel next : MessageChannel Message Callback}
    {broadcast : Broadcast Message} {action : ChannelAction Message Callback}
    (mirrors : Mirrors type topic channel broadcast)
    (orderly : channel.Orderly type topic action)
    (stepped : channel.step type topic action = some next) :
    ∃ trace after, Broadcast.machine.exec broadcast trace = some after ∧
      Mirrors type topic next after ∧
      (channel.NoneMissed type topic action → Whole topic channel broadcast →
        Whole topic next after) := by
  by_cases receives : ∃ index count, action = .recv index count
  · obtain ⟨index, count, rfl⟩ := receives
    obtain ⟨link, located, rest⟩ := Option.bind_eq_some_iff.mp stepped
    obtain ⟨received, returned, rfl⟩ := Option.map_eq_some_iff.mp rest
    obtain ⟨further, after, led, mirrored, whole⟩ := mirrors.recv roundTrip located returned
    exact ⟨_, after, led, mirrored, fun _ => whole⟩
  · have publishes : ∀ index count, action ≠ .recv index count := fun index count same =>
      receives ⟨index, count, same⟩
    obtain ⟨operation, written, called, performed, rfl⟩ :=
      MessageChannel.step_operation stepped publishes
    have quiet := orderly.1 operation called written performed
    cases action with
    | recv index count => exact absurd rfl (publishes index count)
    | publish message order errno results =>
        cases called
        obtain ⟨trace, after, led, mirrored, whole⟩ :=
          mirrors.write orderly.2 performed quiet fun _ member => member
        rw [map_detach_write]
        exact ⟨trace, after, led, mirrored, fun none => whole (none _ rfl rfl)⟩
    | writeToCache message =>
        cases called
        obtain ⟨mirrored, whole⟩ := mirrors.writeToCache orderly.2 performed
        have unmoved : channel.links.map (Link.detach channel.publishing.kernel
            (.writeToCache topic (type.serialize message))) = channel.links :=
          List.map_id'' (fun _ => rfl) _
        rw [unmoved]
        exact ⟨[], broadcast, rfl, mirrored.latch orderly.2 written.ok,
          fun _ before => (whole before).latch message written.ok⟩
    | writeToSocket index order errno results =>
        obtain ⟨message, located, rfl⟩ := Option.map_eq_some_iff.mp called
        obtain ⟨trace, after, led, mirrored, whole⟩ := mirrors.write
          (mirrors.pending message (List.mem_of_getElem? located)) performed quiet
          fun _ member => List.mem_of_mem_eraseIdx member
        rw [map_detach_write, MessageChannel.conclude, located]
        exact ⟨trace, after, led, mirrored, fun none => whole (none _ called rfl)⟩
    | complete fd cache functions errno results =>
        cases called
        obtain ⟨trace, after, led, mirrored, whole⟩ := mirrors.complete functions performed quiet
        exact ⟨trace, after, led, mirrored, fun _ => whole⟩
    | elsewhere operation' =>
        simp only [MessageChannel.operation] at called
        split at called
        · cases called
        · rename_i other
          cases called
          obtain ⟨mirrored, whole⟩ := mirrors.elsewhere other performed quiet
          exact ⟨[], broadcast, rfl, mirrored, fun _ => whole⟩

/-- The broadcast simulates the channel. -/
def channelSimulation (roundTrip : type.RoundTrip) (topic : String) :
    Simulation (MessageChannel.machine type topic :
        Machine (MessageChannel Message Callback) (ChannelAction Message Callback))
      (Broadcast.machine : Machine (Broadcast Message) (BroadcastAction Message)) where
  related := Mirrors type topic
  allowed := MessageChannel.Orderly type topic
  matched mirrors orderly stepped := by
    obtain ⟨trace, after, led, mirrored, _⟩ := mirrors.step roundTrip orderly stepped
    exact ⟨trace, after, led, mirrored⟩

/-- So it does with every registered socket told of everything, if no write misses one. -/
def wholeSimulation (roundTrip : type.RoundTrip) (topic : String) :
    Simulation (MessageChannel.machine type topic :
        Machine (MessageChannel Message Callback) (ChannelAction Message Callback))
      (Broadcast.machine : Machine (Broadcast Message) (BroadcastAction Message)) where
  related channel broadcast :=
    Mirrors type topic channel broadcast ∧ Whole topic channel broadcast
  allowed := MessageChannel.Lossless type topic
  matched := by
    rintro channel next action broadcast ⟨mirrors, whole⟩ ⟨orderly, none⟩ stepped
    obtain ⟨trace, after, led, mirrored, kept⟩ := mirrors.step roundTrip orderly stepped
    exact ⟨trace, after, led, mirrored, kept none whole⟩

/-! ## What the callbacks have had -/

/-- The callbacks of the link have had these messages, each once, in this order. -/
def Link.Called (link : Link Message Callback) (messages : List Message) : Prop :=
  ∃ receiver, link.receiver = .ok receiver ∧
    receiver.calls = Receiver.delivered link.functions messages

/-- The link has its descriptor, its socket is registered with nothing kept back, and `recv` has
returned all that the kernel has taken. -/
structure Link.Drained (topic : String) (publishing : Publishing) (link : Link Message Callback) :
    Prop where
  attached : link.left = none
  registered : link.fd ∈ publishing.client.clientsTopicFd topic
  written : publishing.client.clientsData[link.fd]? = some []
  read : link.read = (publishing.kernel.accepted link.fd).length

/-- The link is that of the subscription, and its callbacks have had what that has received. -/
structure Link.Shows (type : MessageType Message) (link : Link Message Callback)
    (subscription : Subscription Message) : Prop where
  cache : link.cache = subscription.backlog.map type.serialize
  since : link.since = subscription.since
  called : link.Called subscription.received

theorem Mirrors.shows {channel : MessageChannel Message Callback} {broadcast : Broadcast Message}
    (mirrors : Mirrors type topic channel broadcast) {index : Nat} {link : Link Message Callback}
    {subscription : Subscription Message} (located : channel.links[index]? = some link)
    (found : broadcast.subscriptions[index]? = some subscription) :
    link.Shows type subscription := by
  have carries := mirrors.carried located found
  obtain ⟨rest, receiver, _⟩ := carries.receiver
  exact ⟨carries.cache, carries.since, _, receiver, rfl⟩

theorem Mirrors.drained {channel : MessageChannel Message Callback} {broadcast : Broadcast Message}
    (mirrors : Mirrors type topic channel broadcast) {index : Nat} {link : Link Message Callback}
    {subscription : Subscription Message} (located : channel.links[index]? = some link)
    (found : broadcast.subscriptions[index]? = some subscription)
    (drained : link.Drained topic channel.publishing) : subscription.queued = [] := by
  obtain ⟨data, kept, sum⟩ := mirrors.sound.intact topic link.fd drained.registered
  rw [drained.written] at kept
  obtain rfl := Option.some.inj kept
  rw [List.append_nil] at sum
  refine (mirrors.carried located found).drained drained.attached ?_
  rw [Link.stream, drained.attached, Option.getD_none, drained.read, List.take_length]
  exact sum

/-- In every run of a topic the callbacks of a subscriber are called with the messages that a
queue has passed on: first the cache it joined with, then publications since, in the order of
their writes, each at most once; and once its connection is drained, with all of them. -/
theorem called_in_order (roundTrip : type.RoundTrip) (topic : String)
    {run : List (ChannelAction Message Callback)} {final : MessageChannel Message Callback}
    (orderly : (MessageChannel.machine type topic).Obeys (MessageChannel.Orderly type topic)
      MessageChannel.initial run)
    (executed : (MessageChannel.machine type topic).exec MessageChannel.initial run = some final) :
    ∃ trace broadcast, Broadcast.machine.exec Broadcast.initial trace = some broadcast ∧
      broadcast.published = final.published ∧ broadcast.Ordered ∧
      ∀ (index : Nat) (link : Link Message Callback), final.links[index]? = some link →
        ∃ subscription, broadcast.subscriptions[index]? = some subscription ∧
          link.Shows type subscription ∧
          (link.Drained topic final.publishing → subscription.queued = []) := by
  obtain ⟨trace, broadcast, led, mirrors⟩ :=
    (channelSimulation roundTrip topic).exec (mirrors_initial type topic) orderly executed
  have ordered : broadcast.Ordered :=
    (Broadcast.machine.along_of_preserved Broadcast.Ordered
      (fun _ _ _ before stepped => before.step stepped) Broadcast.ordered_initial trace).final led
  refine ⟨trace, broadcast, led, mirrors.published, ordered, fun index link located => ?_⟩
  have inside := (List.getElem?_eq_some_iff.mp located).1
  obtain ⟨subscription, found⟩ : ∃ subscription,
      broadcast.subscriptions[index]? = some subscription :=
    ⟨_, List.getElem?_eq_getElem (mirrors.length ▸ inside)⟩
  exact ⟨subscription, found, mirrors.shows located found, mirrors.drained located found⟩

/-- A message is cached, a subscriber joins, the message is written and two more are published;
the socket takes and returns what it likes of them. -/
def cutAnywhere : List (ChannelAction Bool Unit) :=
  [.writeToCache true, .complete 3 [[2, 0, 0, 0, 8, 1]] [()] 0 [.accepted 4, .error EAGAIN],
    .recv 0 3, .writeToSocket 0 [3] 0 [.accepted 8], .recv 0 5,
    .publish false [3] 0 [.error EAGAIN], .publish true [3] 0 [.accepted 10], .recv 0 14]

theorem called_in_order_cutAnywhere :
    ∃ final : MessageChannel Bool Unit,
      (MessageChannel.machine Receiver.flagType "hello").exec MessageChannel.initial cutAnywhere =
        some final ∧
      ∃ trace broadcast, Broadcast.machine.exec Broadcast.initial trace = some broadcast ∧
        broadcast.published = final.published ∧ broadcast.Ordered ∧
        ∀ (index : Nat) (link : Link Bool Unit), final.links[index]? = some link →
          ∃ subscription, broadcast.subscriptions[index]? = some subscription ∧
            link.Shows Receiver.flagType subscription ∧
            (link.Drained "hello" final.publishing → subscription.queued = []) := by
  have orderly : (MessageChannel.machine Receiver.flagType "hello").Obeys
      (MessageChannel.Orderly Receiver.flagType "hello") MessageChannel.initial cutAnywhere := by
    decide +kernel
  have runs : ((MessageChannel.machine Receiver.flagType "hello").exec MessageChannel.initial
      cutAnywhere).isSome := by decide +kernel
  obtain ⟨final, executed⟩ := Option.isSome_iff_exists.mp runs
  exact ⟨final, executed, called_in_order Receiver.flagType_roundTrip "hello" orderly executed⟩

theorem Mirrors.called_all {channel : MessageChannel Message Callback}
    {broadcast : Broadcast Message} (mirrors : Mirrors type topic channel broadcast)
    (whole : Whole topic channel broadcast) {link : Link Message Callback}
    (listed : link ∈ channel.links) (drained : link.Drained topic channel.publishing) :
    ∃ backlog : List Message, link.cache = backlog.map type.serialize ∧
      link.Called (backlog ++ channel.published.drop link.since) := by
  obtain ⟨index, located⟩ := List.mem_iff_getElem?.mp listed
  have inside := (List.getElem?_eq_some_iff.mp located).1
  obtain ⟨subscription, found⟩ : ∃ subscription,
      broadcast.subscriptions[index]? = some subscription :=
    ⟨_, List.getElem?_eq_getElem (mirrors.length ▸ inside)⟩
  have shows := mirrors.shows located found
  have told := (whole index link subscription located found drained.attached
    drained.registered).2
  rw [Subscription.told, mirrors.drained located found drained, List.append_nil,
    mirrors.published, ← shows.since] at told
  refine ⟨subscription.backlog, shows.cache, ?_⟩
  rw [← told]
  exact shows.called

theorem whole_initial (topic : String) :
    Whole topic (MessageChannel.initial : MessageChannel Message Callback) .initial :=
  fun _ _ _ located => by cases located

/-- While no write passes over a socket, a drained connection has passed on all messages: those
cached when it was completed, and after them every message published since. -/
theorem called_with_all (roundTrip : type.RoundTrip) (topic : String)
    {run : List (ChannelAction Message Callback)} {final : MessageChannel Message Callback}
    (lossless : (MessageChannel.machine type topic).Obeys (MessageChannel.Lossless type topic)
      MessageChannel.initial run)
    (executed : (MessageChannel.machine type topic).exec MessageChannel.initial run = some final)
    {link : Link Message Callback} (listed : link ∈ final.links)
    (drained : link.Drained topic final.publishing) :
    ∃ backlog : List Message, link.cache = backlog.map type.serialize ∧
      link.Called (backlog ++ final.published.drop link.since) := by
  obtain ⟨trace, broadcast, _, mirrors, whole⟩ := (wholeSimulation roundTrip topic).exec
    ⟨mirrors_initial type topic, whole_initial topic⟩ lossless executed
  exact mirrors.called_all whole listed drained

instance (topic : String) (publishing : Publishing) (link : Link Message Callback) :
    Decidable (link.Drained topic publishing) :=
  decidable_of_iff (link.left = none ∧ link.fd ∈ publishing.client.clientsTopicFd topic ∧
      publishing.client.clientsData[link.fd]? = some [] ∧
        link.read = (publishing.kernel.accepted link.fd).length)
    ⟨fun drained => ⟨drained.1, drained.2.1, drained.2.2.1, drained.2.2.2⟩,
      fun drained => ⟨drained.attached, drained.registered, drained.written, drained.read⟩⟩

/-- The last messages are written and received, so that all three have been passed on. -/
theorem called_with_all_cutAnywhere :
    ∃ final : MessageChannel Bool Unit,
      (MessageChannel.machine Receiver.flagType "hello").exec MessageChannel.initial cutAnywhere =
        some final ∧
      ∃ link ∈ final.links, link.Drained "hello" final.publishing ∧
        ∃ backlog : List Bool, link.cache = backlog.map Receiver.flagType.serialize ∧
          link.Called (backlog ++ final.published.drop link.since) := by
  have lossless : (MessageChannel.machine Receiver.flagType "hello").Obeys
      (MessageChannel.Lossless Receiver.flagType "hello") MessageChannel.initial cutAnywhere := by
    decide +kernel
  have runs : ((MessageChannel.machine Receiver.flagType "hello").exec MessageChannel.initial
      cutAnywhere).any (fun final => final.links.any fun link =>
        decide (link.Drained "hello" final.publishing)) := by
    decide +kernel
  obtain ⟨final, executed, found⟩ := (Option.any_eq_true _ _).mp runs
  obtain ⟨link, listed, drained⟩ := List.any_eq_true.mp found
  have drained := of_decide_eq_true drained
  exact ⟨final, executed, link, listed, drained,
    called_with_all Receiver.flagType_roundTrip "hello" lossless executed listed drained⟩

end ProtoCore.Topic
