import ProtoCore.Library.Broadcast
import ProtoCore.Library.Simulation
import ProtoCore.Topic.FrameWindow
import ProtoCore.Topic.StreamGrowth

/-!
# A topic as a channel of messages

A publisher writes frames to the sockets of a topic, the kernel takes what it likes of
them, and at the other end of each connection `recv` returns pieces of what was taken. As a
whole this is a broadcast of messages over queues.
-/

set_option autoImplicit false

namespace ProtoCore.Topic

open Library Library.FrameStream

variable {Message Callback : Type}

/-- A connection, which was completed with `cache` queued after `since` publications, and its
other end, where `functions` are the callbacks of the topic and `read` counts the bytes that
`recv` has returned. Once the publisher's descriptor is that of a later connection, `left`
holds all that the kernel had taken on this one. -/
structure Link (Message Callback : Type) where
  fd : Nat
  cache : List (List UInt8)
  since : Nat
  left : Option (List UInt8)
  read : Nat
  functions : List Callback
  receiver : Except OutsideBuffer (Receiver Message Callback)

namespace Link

def joined (fd : Nat) (cache : List (List UInt8)) (since : Nat) (functions : List Callback) :
    Link Message Callback where
  fd := fd
  cache := cache
  since := since
  left := none
  read := 0
  functions := functions
  receiver := .ok (.connected functions)

def stream (link : Link Message Callback) (kernel : Kernel) : List UInt8 :=
  link.left.getD (kernel.accepted link.fd)

/-- A completed connection takes the descriptor away from an earlier one. -/
def detach (kernel : Kernel) (operation : Publishing.Operation) (link : Link Message Callback) :
    Link Message Callback :=
  match operation with
  | .complete _ fd _ _ _ =>
      if link.left = none ∧ link.fd = fd then { link with left := some (kernel.accepted fd) }
      else link
  | _ => link

/-- One round of the loop of `handle_client_event`, on the next bytes of the stream. -/
def recv (type : MessageType Message) (kernel : Kernel) (link : Link Message Callback)
    (count : Nat) : Option (Link Message Callback) :=
  match link.receiver with
  | .error _ => none
  | .ok receiver =>
      if 0 < count ∧ count ≤ maxBufferSize ∧ link.read + count ≤ (link.stream kernel).length then
        some { link with
          read := link.read + count
          receiver := receiver.receive type (((link.stream kernel).drop link.read).take count) }
      else none

end Link

/-- The publisher of a topic and the other ends of its connections. `published` are the messages
that `write_to_socket` was called with, and `pending` those cached and not yet written. -/
structure MessageChannel (Message Callback : Type) where
  publishing : Publishing
  published : List Message
  pending : List Message
  links : List (Link Message Callback)

/-- The calls of `publish` without `cache`, the two steps of those with it, a completed
connection, whatever else the publisher does for other topics, and a `recv` at the other end. -/
inductive ChannelAction (Message Callback : Type) where
  | publish (message : Message) (order : List Nat) (errno : Int) (results : List WriteResult)
  | writeToCache (message : Message)
  | writeToSocket (index : Nat) (order : List Nat) (errno : Int) (results : List WriteResult)
  | complete (fd : Nat) (cache : List (List UInt8)) (functions : List Callback) (errno : Int)
      (results : List WriteResult)
  | elsewhere (operation : Publishing.Operation)
  | recv (index count : Nat)

def Publishing.Operation.topic : Publishing.Operation → String
  | .writeToCache topic _ | .writeToSocket topic _ _ _ _ | .complete topic _ _ _ _ => topic

namespace MessageChannel

def initial : MessageChannel Message Callback where
  publishing := .new
  published := []
  pending := []
  links := []

/-- The publisher's part of a step, and whether the call returned `true`. -/
def operate (channel : MessageChannel Message Callback) (operation : Publishing.Operation) :
    Option (Bool × MessageChannel Message Callback) :=
  (channel.publishing.perform operation).map fun written =>
    (written.ok, { channel with
      publishing := written.state
      links := channel.links.map (Link.detach channel.publishing.kernel operation) })

def record (channel : MessageChannel Message Callback) (message : Message) :
    MessageChannel Message Callback :=
  { channel with published := channel.published ++ [message] }

def join (channel : MessageChannel Message Callback) (fd : Nat) (cache : List (List UInt8))
    (functions : List Callback) : MessageChannel Message Callback :=
  { channel with links := channel.links ++ [.joined fd cache channel.published.length functions] }

/-- A message that was in the cache already is not published again. -/
def latch (channel : MessageChannel Message Callback) (message : Message) (inserted : Bool) :
    MessageChannel Message Callback :=
  if inserted then { channel with pending := channel.pending ++ [message] } else channel

section Steps

variable (type : MessageType Message) (topic : String)

def operation (channel : MessageChannel Message Callback) :
    ChannelAction Message Callback → Option Publishing.Operation
  | .publish message order errno results =>
      some (.writeToSocket topic (type.serialize message) order errno results)
  | .writeToCache message => some (.writeToCache topic (type.serialize message))
  | .writeToSocket index order errno results =>
      (channel.pending[index]?).map fun message =>
        .writeToSocket topic (type.serialize message) order errno results
  | .complete fd cache _ errno results => some (.complete topic fd cache errno results)
  | .elsewhere operation => if operation.topic = topic then none else some operation
  | .recv _ _ => none

/-- The rest of a step, after the call of the publisher. -/
def conclude (channel next : MessageChannel Message Callback) (returned : Bool) :
    ChannelAction Message Callback → MessageChannel Message Callback
  | .publish message _ _ _ => next.record message
  | .writeToCache message => next.latch message returned
  | .writeToSocket index _ _ _ =>
      { next with
        published := next.published ++ (channel.pending[index]?).toList
        pending := next.pending.eraseIdx index }
  | .complete fd cache functions _ _ => next.join fd cache functions
  | .elsewhere _ | .recv _ _ => next

def publisherStep (channel : MessageChannel Message Callback)
    (action : ChannelAction Message Callback) : Option (MessageChannel Message Callback) :=
  (channel.operation type topic action).bind fun operation =>
    (channel.operate operation).map fun (returned, next) => conclude channel next returned action

def step (channel : MessageChannel Message Callback) (action : ChannelAction Message Callback) :
    Option (MessageChannel Message Callback) :=
  match action with
  | .recv index count =>
      (channel.links[index]?).bind fun link =>
        (link.recv type channel.publishing.kernel count).map fun next =>
          { channel with links := channel.links.set index next }
  | action => channel.publisherStep type topic action

def machine : Machine (MessageChannel Message Callback) (ChannelAction Message Callback) :=
  ⟨step type topic⟩

/-- Messages fit, and no write is partial while `errno` holds an old `EAGAIN`. -/
def Orderly (channel : MessageChannel Message Callback) (action : ChannelAction Message Callback) :
    Prop :=
  (∀ operation, channel.operation type topic action = some operation →
    channel.publishing.NoStickyPartial operation) ∧
  match action with
  | .publish message _ _ _ | .writeToCache message => type.Fits message
  | _ => True

instance (channel : MessageChannel Message Callback) (action : ChannelAction Message Callback) :
    Decidable (channel.Orderly type topic action) :=
  match action with
  | .publish _ _ _ _ | .writeToCache _ | .writeToSocket _ _ _ _ | .complete _ _ _ _ _ |
    .elsewhere _ | .recv _ _ =>
      inferInstanceAs (Decidable ((∀ operation ∈ channel.operation type topic _,
        channel.publishing.NoStickyPartial operation) ∧ _))

end Steps

end MessageChannel

/-! ## A link and its subscription -/

section Links

variable (type : MessageType Message)

/-- The stream of the link is that of the messages its subscription was told of, cut where
`recv` has come to, and the callbacks have had the messages received. -/
structure Link.Carries (publishing : Publishing) (link : Link Message Callback)
    (subscription : Subscription Message) : Prop where
  cache : link.cache = subscription.backlog.map type.serialize
  since : link.since = subscription.since
  receiver : ∃ rest,
    link.receiver = .ok (.holding link.functions subscription.received rest) ∧
      Cut type.serialize subscription.told ((link.stream publishing.kernel).take link.read)
        subscription.received.length rest
  read : link.read ≤ (link.stream publishing.kernel).length
  fits : ∀ message ∈ subscription.told, type.Fits message
  owed : link.left = none →
    publishing.owed link.fd = FrameStream.stream type.serialize subscription.told
  taken : link.stream publishing.kernel <+:
    FrameStream.stream type.serialize subscription.told

variable {type}

theorem Link.Carries.joined {publishing : Publishing} {fd : Nat} {backlog : List Message}
    (functions : List Callback) (since : Nat) (fits : ∀ message ∈ backlog, type.Fits message)
    (owed : publishing.owed fd = FrameStream.stream type.serialize backlog)
    (taken : publishing.kernel.accepted fd <+: publishing.owed fd) :
    Link.Carries type publishing
      (Link.joined fd (backlog.map type.serialize) since functions) (.joined backlog since) where
  cache := rfl
  since := rfl
  receiver := by
    refine ⟨[], rfl, ?_⟩
    change Cut type.serialize backlog (List.take 0 _) 0 []
    rw [List.take_zero]
    refine Cut.none backlog fun next _ => ?_
    exact List.length_pos_of_ne_nil (type.serialize_ne_nil next)
  read := Nat.zero_le _
  fits := fits
  owed _ := owed
  taken := owed ▸ taken

/-- What has been read stays read while the stream grows. -/
theorem Link.Carries.grown {before after : Publishing} {link : Link Message Callback}
    {subscription : Subscription Message} (carries : Link.Carries type before link subscription)
    (attached : link.left = none) {added : List (List UInt8)}
    (grown : Publishing.Grown link.fd before after added) {messages : List Message}
    (frames : added.flatten = FrameStream.stream type.serialize messages)
    {next : Subscription Message} (backlog : next.backlog = subscription.backlog)
    (since : next.since = subscription.since) (received : next.received = subscription.received)
    (told : next.told = subscription.told ++ messages)
    (cut : ∀ rest, Cut type.serialize subscription.told
      ((link.stream before.kernel).take link.read) subscription.received.length rest →
        Cut type.serialize next.told ((link.stream before.kernel).take link.read)
          subscription.received.length rest)
    (fits : ∀ message ∈ messages, type.Fits message) :
    Link.Carries type after link next := by
  have stream (kernel : Kernel) : link.stream kernel = kernel.accepted link.fd := by
    rw [Link.stream, attached, Option.getD_none]
  have owed : after.owed link.fd = FrameStream.stream type.serialize next.told := by
    rw [grown.owed, carries.owed attached, frames, told, stream_append]
  have kept : (link.stream after.kernel).take link.read =
      (link.stream before.kernel).take link.read := by
    have read := carries.read
    rw [stream] at read
    obtain ⟨more, split⟩ := grown.accepted
    rw [stream, stream, ← split, List.take_append_of_le_length read]
  refine ⟨backlog ▸ carries.cache, carries.since.trans since.symm, ?_, ?_, ?_, fun _ => owed, ?_⟩
  · obtain ⟨rest, receiving, arrived⟩ := carries.receiver
    refine ⟨rest, by rw [received]; exact receiving, ?_⟩
    rw [kept, received]
    exact cut rest arrived
  · have longer := grown.accepted.length_le
    have read := carries.read
    rw [stream] at read ⊢
    exact Nat.le_trans read longer
  · intro message member
    rw [told] at member
    rcases List.mem_append.mp member with old | new
    · exact carries.fits message old
    · exact fits message new
  · have taken := carries.taken
    rw [stream, ← carries.owed attached] at taken
    rw [stream, ← owed]
    exact grown.within taken

theorem Link.Carries.same {before after : Publishing} {link : Link Message Callback}
    {subscription : Subscription Message} (carries : Link.Carries type before link subscription)
    (attached : link.left = none) (grown : Publishing.Grown link.fd before after []) :
    Link.Carries type after link subscription :=
  have nothing : ([] : List (List UInt8)).flatten = FrameStream.stream type.serialize [] := rfl
  carries.grown attached grown nothing rfl rfl rfl (List.append_nil _).symm (fun _ cut => cut)
    fun _ member => absurd member List.not_mem_nil

/-- The message is added to what the subscription was told of. -/
theorem Link.Carries.enqueue {before after : Publishing} {link : Link Message Callback}
    {subscription : Subscription Message} (carries : Link.Carries type before link subscription)
    (attached : link.left = none) {message : Message} (fits : type.Fits message)
    (grown : Publishing.Grown link.fd before after [type.serialize message]) :
    Link.Carries type after link (subscription.enqueue message) := by
  refine carries.grown attached grown rfl rfl rfl rfl
    (Subscription.told_enqueue subscription message) (fun rest cut => ?_) fun other member => ?_
  · rw [Subscription.told_enqueue]
    exact cut.concat ((List.take_prefix _ _).trans carries.taken) (type.serialize_ne_nil message)
  · rw [List.mem_singleton.mp member]
    exact fits

/-- A link that has lost its descriptor is the publisher's no more. -/
theorem Link.Carries.apart {before after : Publishing} {link : Link Message Callback}
    {subscription : Subscription Message} (carries : Link.Carries type before link subscription)
    (detached : link.left ≠ none) : Link.Carries type after link subscription := by
  obtain ⟨bytes, left⟩ := Option.ne_none_iff_exists'.mp detached
  have stream (kernel : Kernel) : link.stream kernel = bytes := by
    rw [Link.stream, left, Option.getD_some]
  have receiver := carries.receiver
  have read := carries.read
  have taken := carries.taken
  rw [stream] at receiver read taken
  exact ⟨carries.cache, carries.since, by rw [stream]; exact receiver, by rw [stream]; exact read,
    carries.fits, fun attached => absurd attached detached, by rw [stream]; exact taken⟩

/-- The publisher's descriptor is that of another connection now. -/
theorem Link.Carries.detached {publishing next : Publishing} {link : Link Message Callback}
    {subscription : Subscription Message}
    (carries : Link.Carries type publishing link subscription) (attached : link.left = none) :
    Link.Carries type next
      { link with left := some (publishing.kernel.accepted link.fd) } subscription := by
  have same : link.stream publishing.kernel = publishing.kernel.accepted link.fd := by
    rw [Link.stream, attached, Option.getD_none]
  have receiver := carries.receiver
  have read := carries.read
  have taken := carries.taken
  rw [same] at receiver read taken
  exact ⟨carries.cache, carries.since, receiver, read, carries.fits, nofun, taken⟩

/-- A `recv` passes the messages of the frames that are complete now to the callbacks. -/
theorem Link.Carries.recv (roundTrip : type.RoundTrip) {publishing : Publishing}
    {link next : Link Message Callback} {subscription : Subscription Message} {count : Nat}
    (carries : Link.Carries type publishing link subscription)
    (returned : link.recv type publishing.kernel count = some next) :
    ∃ further ≤ subscription.queued.length,
      Link.Carries type publishing next (subscription.taken further) := by
  obtain ⟨rest, receiving, cut⟩ := carries.receiver
  simp only [Link.recv, receiving] at returned
  split at returned
  · rename_i enabled
    obtain ⟨_, chunked, available⟩ := enabled
    cases returned
    generalize bytes : link.stream publishing.kernel = stream at *
    have longer : stream.take link.read ++ (stream.drop link.read).take count =
        stream.take (link.read + count) := List.take_add.symm
    have initial : stream.take link.read ++ (stream.drop link.read).take count <+:
        FrameStream.stream type.serialize subscription.told := by
      have taken := carries.taken
      rw [bytes] at taken
      rw [longer]
      exact (List.take_prefix _ _).trans taken
    have chunk : ((stream.drop link.read).take count).length ≤ maxBufferSize := by
      rw [List.length_take]
      exact Nat.le_trans (Nat.min_le_left _ _) chunked
    have received : subscription.told.take subscription.received.length =
        subscription.received := List.take_left
    obtain ⟨further, later, nextCut, ran⟩ := Receiver.receive_window roundTrip link.functions
      carries.fits chunk cut initial
    rw [received] at ran
    have enough : further ≤ subscription.queued.length := by
      have within := nextCut.within
      rw [Subscription.told, List.length_append] at within
      exact Nat.le_of_add_le_add_left within
    have taken : subscription.told.take (subscription.received.length + further) =
        (subscription.taken further).received := by
      rw [List.take_add, received, Subscription.told, List.drop_left]
      rfl
    have length : (subscription.taken further).received.length =
        subscription.received.length + further := by
      simp only [Subscription.taken, List.length_append, List.length_take, Nat.min_eq_left enough]
    rw [longer] at nextCut
    refine ⟨further, enough, carries.cache, carries.since, ⟨later, ?_, ?_⟩, ?_, ?_, ?_, ?_⟩
    · rw [← taken]
      exact ran
    · rw [Subscription.told_taken, length]
      change Cut type.serialize _ ((link.stream publishing.kernel).take _) _ later
      rw [bytes]
      exact nextCut
    · change link.read + count ≤ (link.stream publishing.kernel).length
      rw [bytes]
      exact available
    · rw [Subscription.told_taken]
      exact carries.fits
    · rw [Subscription.told_taken]
      exact carries.owed
    · rw [Subscription.told_taken]
      exact carries.taken
  · cases returned

/-- Where all that was owed has been read, all that was told has been received. -/
theorem Link.Carries.drained {publishing : Publishing} {link : Link Message Callback}
    {subscription : Subscription Message}
    (carries : Link.Carries type publishing link subscription) (attached : link.left = none)
    (all : (link.stream publishing.kernel).take link.read = publishing.owed link.fd) :
    subscription.queued = [] := by
  obtain ⟨rest, _, cut⟩ := carries.receiver
  rw [all, carries.owed attached] at cut
  have whole := cut.whole.1
  rw [Subscription.told, List.length_append] at whole
  exact List.eq_nil_of_length_eq_zero (by omega)

end Links

end ProtoCore.Topic
