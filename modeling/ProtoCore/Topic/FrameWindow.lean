import ProtoCore.Library.FrameRoundTrip
import ProtoCore.Topic.Redelivery

/-!
# Streams of any length

A connection carries any number of frames. What has to fit in an `int` is the buffer of one
`decode`: the beginning of a frame, and what one `recv` has added to it.
-/

set_option autoImplicit false

namespace ProtoCore.Topic

open Library Library.FrameStream

variable {Message Callback : Type} {type : MessageType Message}

/-! ## The reader on the frames of messages -/

theorem MessageType.serialize_prefix (type : MessageType Message) {message : Message}
    {bytes : List UInt8} (beginning : bytes <+: type.serialize message) (long : 4 ≤ bytes.length) :
    ∃ body, bytes = littleEndian32 (type.byteSize message) ++ body ∧
      body <+: type.serializeToCodedStream message := by
  have lengthWord : littleEndian32 (type.byteSize message) <+: bytes := by
    refine List.prefix_of_prefix_length_le ?_ beginning (by simpa using long)
    exact List.prefix_append _ _
  obtain ⟨body, rfl⟩ := lengthWord
  exact ⟨body, rfl, (List.prefix_append_right_inj _).mp beginning⟩

theorem MessageType.recognises (roundTrip : type.RoundTrip) {message : Message}
    (small : type.byteSize message < 2 ^ 32) :
    type.frameReader.Recognises type.serialize message where
  whole more := by
    have read : readLittleEndian32 (type.serialize message ++ more) =
        some (type.byteSize message, type.serializeToCodedStream message ++ more) := by
      rw [serialize, List.append_assoc]
      exact readLittleEndian32_write small _
    have complete : type.byteSize message ≤
        (type.serializeToCodedStream message ++ more).length := by
      rw [List.length_append]
      exact Nat.le_add_right _ _
    have body : (type.serializeToCodedStream message ++ more).take (type.byteSize message) =
        type.serializeToCodedStream message := List.take_left
    change type.front (type.serialize message ++ more) = _
    rw [type.front_complete read complete, body, roundTrip message, type.serialize_length]
  beginning bytes beginning short := by
    apply type.front_incomplete
    intro msgSize body read
    obtain ⟨kept, rfl, inside⟩ :=
      type.serialize_prefix beginning (readLittleEndian32_eq_some read).1
    cases (readLittleEndian32_write small kept).symm.trans read
    rw [type.serialize_length, List.length_append, littleEndian32_length] at short
    exact Nat.lt_of_add_lt_add_left short

theorem MessageType.front_nil (type : MessageType Message) : type.front [] = .incomplete := rfl

/-- A length read at the front of a stream is that of its first message. -/
theorem readLittleEndian32_stream {messages : List Message} {bytes body : List UInt8}
    {msgSize : Nat} (small : ∀ message ∈ messages, type.byteSize message < 2 ^ 32)
    (initial : bytes <+: stream type.serialize messages)
    (read : readLittleEndian32 bytes = some (msgSize, body)) :
    ∃ message later, messages = message :: later ∧ msgSize = type.byteSize message := by
  have long := (readLittleEndian32_eq_some read).1
  cases messages with
  | nil =>
      rw [stream_nil, List.prefix_nil] at initial
      rw [initial] at long
      exact absurd long (by decide)
  | cons message later =>
      refine ⟨message, later, rfl, ?_⟩
      have lengthWord : littleEndian32 (type.byteSize message) <+: bytes := by
        refine List.prefix_of_prefix_length_le ?_ initial (by simpa using long)
        rw [stream_cons, MessageType.serialize, List.append_assoc]
        exact List.prefix_append _ _
      obtain ⟨kept, rfl⟩ := lengthWord
      cases (readLittleEndian32_write (small message List.mem_cons_self) kept).symm.trans read
      rfl

namespace SpecifiedDecoder

/-- What is left from the start of any frame on is the beginning of a stream again. -/
theorem FrameStart.stream {messages : List Message} {buf : List UInt8} {offset : Nat}
    (start : FrameStart type buf offset)
    (small : ∀ message ∈ messages, type.byteSize message < 2 ^ 32)
    (initial : buf <+: stream type.serialize messages) :
    ∃ later, later <:+ messages ∧ buf.drop offset <+: FrameStream.stream type.serialize later := by
  induction start with
  | front => exact ⟨messages, List.suffix_refl _, initial⟩
  | @next offset msgSize rest msg before read complete parsed ih =>
      obtain ⟨later, suffix, remaining⟩ := ih
      obtain ⟨message, others, rfl, rfl⟩ := readLittleEndian32_stream
        (fun message member => small message (suffix.subset member)) remaining read
      refine ⟨others, (List.suffix_cons message others).trans suffix, ?_⟩
      have whole : type.serialize message <+: buf.drop offset := by
        refine List.prefix_of_prefix_length_le ?_ remaining ?_
        · rw [stream_cons]
          exact List.prefix_append _ _
        · rw [type.serialize_length, List.length_drop]
          omega
      obtain ⟨tail, split⟩ := whole
      have dropped : buf.drop (offset + 4 + type.byteSize message) = tail := by
        rw [Nat.add_assoc, ← List.drop_drop, ← split, ← type.serialize_length, List.drop_left]
      rw [dropped]
      rw [← split, stream_cons] at remaining
      exact (List.prefix_append_right_inj _).mp remaining

theorem noWrap_of_stream {messages : List Message} {buf : List UInt8}
    (bounded : buf.length < 2 ^ 31 - 4)
    (small : ∀ message ∈ messages, type.byteSize message < 2 ^ 31)
    (initial : buf <+: stream type.serialize messages) : NoWrap type buf := by
  intro offset msgSize rest start read
  have word : ∀ message ∈ messages, type.byteSize message < 2 ^ 32 := fun message member =>
    Nat.lt_trans (small message member) (by decide)
  obtain ⟨later, suffix, remaining⟩ := start.stream word initial
  obtain ⟨message, others, rfl, rfl⟩ := readLittleEndian32_stream
    (fun message member => word message (suffix.subset member)) remaining read
  have here := small message (suffix.subset List.mem_cons_self)
  have le := start.le
  omega

/-- `decode` takes the complete frames off a buffer of any stream. -/
theorem decode_window (roundTrip : type.RoundTrip) (decoder : SpecifiedDecoder Message Callback)
    {messages : List Message} {buf rest : List UInt8} {count : Nat}
    (bounded : buf.length < 2 ^ 31 - 4)
    (small : ∀ message ∈ messages, type.byteSize message < 2 ^ 31)
    (initial : buf <+: stream type.serialize messages)
    (cut : Cut type.serialize messages buf count rest) :
    decoder.decode type buf = .ok ((stream type.serialize (messages.take count)).length,
      { decoder with msgs := decoder.msgs ++ messages.take count }) := by
  have recognised : ∀ message ∈ messages, type.frameReader.Recognises type.serialize message :=
    fun message member => MessageType.recognises roundTrip
      (Nat.lt_trans (small message member) (by decide))
  have nothing : type.front rest = .incomplete :=
    cut.front_rest recognised initial type.front_nil
  have stops : type.frameReader.Stops rest := by
    intro size message found
    cases nothing.symm.trans found
  obtain ⟨frames, reads, same⟩ := reads_stream
    (fun message member => recognised message (List.mem_of_mem_take member)) 0 rest
  rw [← cut.split, Nat.zero_add] at reads
  have every : type.frameReader.framesAt 0 buf = frames := by
    rw [reads.framesAt, FrameReader.framesAt_stops stops, List.append_nil]
  rw [← every] at reads same
  have decoded := (decode_reads bounded (noWrap_of_stream bounded small initial) decoder
    reads stops).1
  rw [decoded, same, consumedAt, nothing]

end SpecifiedDecoder

/-! ## One chunk of a stream -/

/-- The most that one `recv` of the server returns. -/
def maxBufferSize : Nat := 65536

/-- The frame of the message and one chunk more still fit in an `int`. -/
def MessageType.Fits (type : MessageType Message) (message : Message) : Prop :=
  (type.serialize message).length + maxBufferSize < 2 ^ 31 - 4

instance (type : MessageType Message) (message : Message) : Decidable (type.Fits message) :=
  inferInstanceAs (Decidable (_ < _))

theorem MessageType.Fits.small {message : Message} (fits : type.Fits message) :
    type.byteSize message < 2 ^ 31 := by
  unfold MessageType.Fits maxBufferSize at fits
  rw [type.serialize_length] at fits
  omega

/-- The chunk behind the rest of a cut is cut further by `decode`, however much has gone before. -/
theorem SpecifiedDecoder.decode_chunk (roundTrip : type.RoundTrip) {messages : List Message}
    {received chunk rest : List UInt8} {count : Nat}
    (fits : ∀ message ∈ messages, type.Fits message) (chunked : chunk.length ≤ maxBufferSize)
    (cut : Cut type.serialize messages received count rest)
    (initial : received ++ chunk <+: stream type.serialize messages) :
    ∃ (further consumed : Nat) (later : List UInt8),
      Cut type.serialize messages (received ++ chunk) (count + further) later ∧
      consumed ≤ (rest ++ chunk).length ∧ (rest ++ chunk).drop consumed = later ∧
      ∀ decoder : SpecifiedDecoder Message Callback, decoder.decode type (rest ++ chunk) =
        .ok (consumed, { decoder with
          msgs := decoder.msgs ++ (messages.drop count).take further }) := by
  have remaining := cut.rest_prefix initial
  obtain ⟨further, later, nextCut⟩ := exists_cut remaining
  have bounded : (rest ++ chunk).length < 2 ^ 31 - 4 := by
    rw [List.length_append]
    rcases cut.rest_beginning ((List.prefix_append _ _).trans initial) with
      rfl | ⟨next, member, _, short⟩
    · unfold maxBufferSize at chunked
      rw [List.length_nil]
      omega
    · have room := fits next member
      unfold MessageType.Fits at room
      omega
  refine ⟨further, (stream type.serialize ((messages.drop count).take further)).length, later,
    cut.extend nextCut, ?_, ?_, fun decoder => ?_⟩
  · rw [nextCut.split, List.length_append]
    exact Nat.le_add_right _ _
  · rw [nextCut.split, List.drop_left]
  · exact decode_window roundTrip decoder bounded
      (fun message member => (fits message (List.mem_of_mem_drop member)).small) remaining nextCut

/-- A receiver abreast of a stream stays so with the next chunk. -/
theorem Receiver.receive_window (roundTrip : type.RoundTrip) (functions : List Callback)
    {messages : List Message} {received chunk rest : List UInt8} {count : Nat}
    (fits : ∀ message ∈ messages, type.Fits message) (chunked : chunk.length ≤ maxBufferSize)
    (cut : Cut type.serialize messages received count rest)
    (initial : received ++ chunk <+: stream type.serialize messages) :
    ∃ further later,
      Cut type.serialize messages (received ++ chunk) (count + further) later ∧
      (holding functions (messages.take count) rest).receive type chunk =
        .ok (holding functions (messages.take (count + further)) later) := by
  obtain ⟨further, consumed, later, nextCut, _, erased, decoded⟩ :=
    SpecifiedDecoder.decode_chunk roundTrip fits chunked cut initial
  refine ⟨further, later, nextCut, ?_⟩
  have received : (holding functions (messages.take count) rest).receive type chunk = .ok {
      fdReceiveData := (rest ++ chunk).drop (consumed : Int).toNat
      decoder := { msgs := [], functions := functions }
      calls := delivered functions (messages.take count) ++
        delivered functions ((messages.drop count).take further) } :=
    receive_reads type rfl (decoded (holding functions (messages.take count) rest).decoder)
  rw [received, Int.toNat_natCast, erased, List.take_add, ← delivered_append]
  rfl

end ProtoCore.Topic
