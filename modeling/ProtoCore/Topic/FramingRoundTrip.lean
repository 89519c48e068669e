import ProtoCore.Topic.Serialization

/-!
# Frames survive every segmentation

However a stream of serialised messages is cut into received chunks, the callbacks
get the messages whose frames are complete, and the buffer keeps the rest.
-/

set_option autoImplicit false

namespace ProtoCore.Topic

open Library Library.FrameStream

variable {Message Callback : Type} {type : MessageType Message}

theorem MessageType.serialize_length (type : MessageType Message) (message : Message) :
    (type.serialize message).length = 4 + type.byteSize message := by
  simp [MessageType.serialize, MessageType.byteSize]

theorem MessageType.serialize_ne_nil (type : MessageType Message) (message : Message) :
    type.serialize message ≠ [] := by
  intro empty
  have := type.serialize_length message
  rw [empty, List.length_nil] at this
  omega

theorem bufSize_eq {buf : List UInt8} (bounded : buf.length < 2 ^ 31) :
    int32 buf.length = buf.length :=
  int32_of_range (by omega) (by omega)

namespace SpecifiedDecoder

theorem decodeLoop_incomplete {fuel : Nat} {before rest : List UInt8} {messages : List Message}
    (initial : rest <+: stream type.serialize messages)
    (bounded : before.length + (stream type.serialize messages).length < 2 ^ 31)
    (short : ∀ next, messages[0]? = some next → rest.length < (type.serialize next).length)
    (consumed : Int) :
    decodeLoop type (before ++ rest) (int32 (before ++ rest).length) (fuel + 1) before.length
      consumed = .ok (consumed, []) := by
  have fits := initial.length_le
  have size : int32 (before ++ rest).length = before.length + rest.length := by
    rw [bufSize_eq (by simp only [List.length_append]; omega), List.length_append]
    push_cast
    rfl
  by_cases header : 4 ≤ rest.length
  · match messages with
    | [] =>
        have := fits
        simp only [stream_nil, List.length_nil] at this
        omega
    | next :: messages =>
        have incomplete := short next rfl
        rw [type.serialize_length] at incomplete
        have lengthWord : littleEndian32 (type.byteSize next) <+: rest := by
          refine List.prefix_of_prefix_length_le ?_ initial (by simpa using header)
          simp [MessageType.serialize, List.append_assoc]
        obtain ⟨body, rfl⟩ := lengthWord
        rw [stream_cons, List.length_append, type.serialize_length] at bounded
        have read : readLittleEndian32 ((before ++
            (littleEndian32 (type.byteSize next) ++ body)).drop ((before.length : Int)).toNat) =
            some (type.byteSize next, body) := by
          rw [Int.toNat_natCast, List.drop_left]
          exact readLittleEndian32_write (by omega) body
        have beyond : uint32 ((before.length : Int) + 4 + type.byteSize next) =
            before.length + 4 + type.byteSize next := uint32_of_range (by omega) (by omega)
        have buffered : uint32 (before.length +
            (littleEndian32 (type.byteSize next) ++ body).length : Int) =
            before.length + (littleEndian32 (type.byteSize next) ++ body).length :=
          uint32_of_range (by omega) (by omega)
        rw [decodeLoop, size]
        simp only [read, Option.map_some, Option.getD_some, beyond, buffered]
        rw [if_pos (by rw [int32_of_range] <;> omega), if_pos (by omega)]
  · have unread : readLittleEndian32 ((before ++ rest).drop ((before.length : Int)).toNat) =
        none := by
      rw [Int.toNat_natCast, List.drop_left]
      exact readLittleEndian32_short (by omega)
    have beyond : uint32 ((before.length : Int) + 4 + (0 : Nat)) = before.length + 4 :=
      uint32_of_range (by omega) (by omega)
    have buffered : uint32 ((before.length : Int) + rest.length) = before.length + rest.length :=
      uint32_of_range (by omega) (by omega)
    rw [decodeLoop, size]
    simp only [unread, Option.map_none, Option.getD_none, beyond, buffered]
    -- close to `INT_MAX` the loop test wraps, and the unsigned test stops the loop
    split
    · rw [if_pos (by omega)]
    · rfl

theorem decodeLoop_frame (roundTrip : type.RoundTrip) {fuel : Nat} {before rest : List UInt8}
    (message : Message) (bounded : before.length + (type.serialize message ++ rest).length < 2 ^ 31)
    (consumed : Int) {total : Int} {msgs : List Message}
    (later : decodeLoop type ((before ++ type.serialize message) ++ rest)
      (int32 ((before ++ type.serialize message) ++ rest).length) fuel
      (before ++ type.serialize message).length (before ++ type.serialize message).length =
        .ok (total, msgs)) :
    decodeLoop type (before ++ (type.serialize message ++ rest))
      (int32 (before ++ (type.serialize message ++ rest)).length) (fuel + 1) before.length
      consumed = .ok (total, message :: msgs) := by
  rw [List.length_append, type.serialize_length] at bounded
  have size : int32 (before ++ (type.serialize message ++ rest)).length =
      before.length + 4 + type.byteSize message + rest.length := by
    rw [bufSize_eq (by simp only [List.length_append, type.serialize_length]; omega)]
    simp only [List.length_append, type.serialize_length]
    push_cast
    ring
  have read : readLittleEndian32 ((before ++ (type.serialize message ++ rest)).drop
      ((before.length : Int)).toNat) =
      some (type.byteSize message, type.serializeToCodedStream message ++ rest) := by
    rw [Int.toNat_natCast, List.drop_left, MessageType.serialize, List.append_assoc]
    exact readLittleEndian32_write (by omega) _
  have body : ((before ++ (type.serialize message ++ rest)).drop
      ((before.length : Int).toNat + 4)).take (type.byteSize message) =
      type.serializeToCodedStream message := by
    rw [Int.toNat_natCast, ← List.drop_drop, List.drop_left, MessageType.serialize,
      List.append_assoc, show (4 : Nat) = (littleEndian32 (type.byteSize message)).length from rfl,
      List.drop_left, MessageType.byteSize, List.take_left]
  have inBuffer : ¬ uint32 ((before.length : Int) + 4 + type.byteSize message) >
      uint32 (before.length + 4 + type.byteSize message + rest.length) := by
    rw [uint32_of_range, uint32_of_range] <;> omega
  have inside : ¬ ((before ++ (type.serialize message ++ rest)).length : Int) <
      before.length + 4 + type.byteSize message := by
    simp only [List.length_append, type.serialize_length]
    omega
  have offset : int32 ((before.length : Int) + 4 + type.byteSize message) =
      (before ++ type.serialize message).length := by
    rw [int32_of_range (by omega) (by omega), List.length_append, type.serialize_length]
    push_cast
    ring
  rw [List.append_assoc] at later
  rw [decodeLoop]
  simp only [read, Option.map_some, Option.getD_some, body, roundTrip message, offset, later]
  rw [size] at *
  rw [if_pos (by rw [int32_of_range] <;> omega), if_neg inBuffer, if_neg inside]
  rfl

/-- On the bytes of a stream the loop takes exactly the complete frames. -/
theorem decodeLoop_cut (roundTrip : type.RoundTrip) {count : Nat} :
    ∀ (fuel : Nat) (before : List UInt8) {bytes rest : List UInt8} {messages : List Message},
      count < fuel →
      before.length + (stream type.serialize messages).length < 2 ^ 31 →
      bytes <+: stream type.serialize messages →
      Cut type.serialize messages bytes count rest →
      decodeLoop type (before ++ bytes) (int32 (before ++ bytes).length) fuel before.length
        before.length =
        .ok (before.length + (stream type.serialize (messages.take count)).length,
          messages.take count) := by
  induction count with
  | zero =>
      intro fuel before bytes rest messages enough bounded initial cut
      obtain ⟨fuel, rfl⟩ := Nat.exists_eq_succ_of_ne_zero (by omega : fuel ≠ 0)
      have same : bytes = rest := by simpa using cut.split
      subst same
      simpa using decodeLoop_incomplete initial bounded cut.short before.length
  | succ count ih =>
      intro fuel before bytes rest messages enough bounded initial cut
      obtain ⟨fuel, rfl⟩ := Nat.exists_eq_succ_of_ne_zero (by omega : fuel ≠ 0)
      match messages with
      | [] =>
          have := cut.within
          simp at this
      | message :: messages =>
          obtain ⟨within, split, short⟩ := cut
          rw [List.take_succ_cons, stream_cons, List.append_assoc] at split
          subst split
          rw [stream_cons, List.prefix_append_right_inj] at initial
          rw [stream_cons, List.length_append] at bounded
          have tail : Cut type.serialize messages
              (stream type.serialize (messages.take count) ++ rest) count rest :=
            ⟨by simpa using within, rfl, fun next found => short next (by simpa using found)⟩
          have fits := initial.length_le
          have later := ih fuel (before ++ type.serialize message) (by omega)
            (by simp only [List.length_append]; omega) initial tail
          have taken := decodeLoop_frame roundTrip message
            (by simp only [List.length_append] at fits ⊢; omega) before.length later
          rw [taken, List.take_succ_cons, stream_cons, List.length_append, List.length_append]
          push_cast
          rw [Int.add_assoc]

theorem decode_cut (roundTrip : type.RoundTrip) (decoder : SpecifiedDecoder Message Callback)
    {bytes rest : List UInt8} {messages : List Message} {count : Nat}
    (bounded : (stream type.serialize messages).length < 2 ^ 31)
    (initial : bytes <+: stream type.serialize messages)
    (cut : Cut type.serialize messages bytes count rest) :
    decoder.decode type bytes = .ok ((stream type.serialize (messages.take count)).length,
      { decoder with msgs := decoder.msgs ++ messages.take count }) := by
  have enough : count < bytes.length + 1 :=
    Nat.lt_succ_of_le (cut.count_le type.serialize_ne_nil)
  have looped := decodeLoop_cut roundTrip _ [] enough (by simpa using bounded) initial cut
  simp only [List.nil_append, List.length_nil, Nat.cast_zero, zero_add] at looped
  rw [decode, looped]
  rfl

end SpecifiedDecoder

namespace Receiver

def delivered (functions : List Callback) (messages : List Message) : List (Callback × Message) :=
  messages.flatMap fun msg => functions.map fun f => (f, msg)

/-- The receiver that has delivered `messages` and holds `rest`. -/
def holding (functions : List Callback) (messages : List Message) (rest : List UInt8) :
    Receiver Message Callback :=
  { fdReceiveData := rest
    decoder := { msgs := [], functions := functions }
    calls := delivered functions messages }

theorem delivered_append (functions : List Callback) (left right : List Message) :
    delivered functions (left ++ right) = delivered functions left ++ delivered functions right :=
  List.flatMap_append

theorem receive_cut (roundTrip : type.RoundTrip) (functions : List Callback)
    {messages : List Message} {received chunk rest : List UInt8} {count : Nat}
    (bounded : (stream type.serialize messages).length < 2 ^ 31)
    (cut : Cut type.serialize messages received count rest)
    (initial : received ++ chunk <+: stream type.serialize messages) :
    ∃ next later, Cut type.serialize messages (received ++ chunk) next later ∧
      (holding functions (messages.take count) rest).receive type chunk =
        .ok (holding functions (messages.take next) later) := by
  have remaining := cut.rest_prefix initial
  obtain ⟨further, later, nextCut⟩ := exists_cut remaining
  refine ⟨count + further, later, cut.extend nextCut, ?_⟩
  have shorter : (stream type.serialize (messages.drop count)).length < 2 ^ 31 := by
    have whole := congrArg List.length (stream_take_drop type.serialize messages count)
    rw [List.length_append] at whole
    omega
  have decoded := SpecifiedDecoder.decode_cut roundTrip
    (holding functions (messages.take count) rest).decoder shorter remaining nextCut
  have erased : (rest ++ chunk).drop
      (stream type.serialize ((messages.drop count).take further)).length = later := by
    rw [nextCut.split, List.drop_left]
  rw [receive]
  simp only [holding] at decoded ⊢
  rw [decoded]
  simp only [bind, Except.bind, pure, Except.pure, SpecifiedDecoder.handle, Int.toNat_natCast,
    erased, List.nil_append]
  rw [List.take_add, delivered_append]
  rfl

theorem receiveAll_cut (roundTrip : type.RoundTrip) (functions : List Callback)
    {messages : List Message} (bounded : (stream type.serialize messages).length < 2 ^ 31)
    (chunks : List (List UInt8)) {received rest : List UInt8} {count : Nat}
    (cut : Cut type.serialize messages received count rest)
    (initial : received ++ chunks.flatten <+: stream type.serialize messages) :
    ∃ next later, Cut type.serialize messages (received ++ chunks.flatten) next later ∧
      receiveAll type (holding functions (messages.take count) rest) chunks =
        .ok (holding functions (messages.take next) later) := by
  induction chunks generalizing received rest count with
  | nil => exact ⟨count, rest, by simpa using cut, rfl⟩
  | cons chunk chunks ih =>
      rw [List.flatten_cons, ← List.append_assoc] at initial ⊢
      obtain ⟨next, later, nextCut, stepped⟩ :=
        receive_cut roundTrip functions bounded cut ((List.prefix_append _ _).trans initial)
      obtain ⟨last, final, finalCut, ran⟩ := ih nextCut initial
      refine ⟨last, final, finalCut, ?_⟩
      rw [receiveAll, stepped]
      exact ran

/-- After any segmentation of any prefix of the stream the callbacks have had
exactly the messages with complete frames, and the buffer holds the incomplete
frame; after the whole stream they have had every message and it is empty. -/
theorem receiveAll_stream (roundTrip : type.RoundTrip) (functions : List Callback)
    (messages : List Message) (bounded : (stream type.serialize messages).length < 2 ^ 31)
    (chunks : List (List UInt8)) (initial : chunks.flatten <+: stream type.serialize messages) :
    ∃ count ≤ messages.length, ∃ rest,
      receiveAll type (connected functions) chunks = .ok {
        fdReceiveData := rest
        decoder := { msgs := [], functions := functions }
        calls := (messages.take count).flatMap fun msg => functions.map fun f => (f, msg) } ∧
      chunks.flatten = stream type.serialize (messages.take count) ++ rest ∧
      (∀ next, messages[count]? = some next → rest.length < (type.serialize next).length) ∧
      (chunks.flatten = stream type.serialize messages → count = messages.length ∧ rest = []) := by
  have start : Cut type.serialize messages [] 0 [] := by
    refine Cut.none messages fun next _ => ?_
    rw [type.serialize_length, List.length_nil]
    omega
  obtain ⟨count, rest, cut, ran⟩ := receiveAll_cut roundTrip functions bounded chunks start initial
  rw [List.nil_append] at cut
  refine ⟨count, cut.within, rest, ran, cut.split, cut.short, fun complete => ?_⟩
  exact (complete ▸ cut).whole

/-- A message type of single bytes, with an empty message. -/
def flagType : MessageType Bool where
  serializeToCodedStream flag := if flag then [8, 1] else []
  parseFromArray bytes := if bytes = [] then some false else if bytes = [8, 1] then some true else none

theorem flagType_roundTrip : flagType.RoundTrip := by
  intro flag
  cases flag <;> rfl

/-- Three messages, the second of size zero, cut inside two of the length words. -/
def flagChunks : List (List UInt8) := [[2, 0], [0, 0, 8], [1, 0, 0, 0, 0, 2, 0], [0, 0, 8, 1]]

theorem receiveAll_stream_flags :
    receiveAll flagType (connected [0, 1]) flagChunks = .ok {
      fdReceiveData := []
      decoder := { msgs := [], functions := [0, 1] }
      calls := [(0, true), (1, true), (0, false), (1, false), (0, true), (1, true)] } := by
  obtain ⟨count, _, rest, ran, _, _, whole⟩ :=
    receiveAll_stream flagType_roundTrip [0, 1] [true, false, true] (by decide) flagChunks
      (by decide)
  obtain ⟨rfl, rfl⟩ := whole (by decide)
  exact ran

end Receiver

end ProtoCore.Topic
