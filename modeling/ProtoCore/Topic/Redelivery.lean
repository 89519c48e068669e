import ProtoCore.Library.FrameReader
import ProtoCore.Library.Machine
import ProtoCore.Topic.DecodeBounds

/-!
# Frames before a broken one

`decode` pushes the messages that come before a frame that does not parse, and then returns
0. Their bytes stay in the buffer, and are decoded again with the next chunk.
-/

set_option autoImplicit false

namespace ProtoCore.Topic

open Library

variable {Message Callback : Type} (type : MessageType Message)

/-! ## The frames of a stream -/

namespace MessageType

/-- A length, as many bytes, and the message they parse to. -/
def front (bytes : List UInt8) : Front Message :=
  match readLittleEndian32 bytes with
  | none => .incomplete
  | some (msgSize, body) =>
      if body.length < msgSize then .incomplete
      else
        match type.parseFromArray (body.take msgSize) with
        | none => .broken
        | some msg => .frame (4 + msgSize) msg

theorem front_complete {bytes body : List UInt8} {msgSize : Nat}
    (read : readLittleEndian32 bytes = some (msgSize, body)) (complete : msgSize ≤ body.length) :
    type.front bytes =
      match type.parseFromArray (body.take msgSize) with
      | none => .broken
      | some msg => .frame (4 + msgSize) msg := by
  simp only [front, read, if_neg (Nat.not_lt_of_le complete)]

theorem front_incomplete {bytes : List UInt8}
    (short : ∀ msgSize body, readLittleEndian32 bytes = some (msgSize, body) →
      body.length < msgSize) : type.front bytes = .incomplete := by
  unfold front
  cases read : readLittleEndian32 bytes with
  | none => rfl
  | some word =>
      obtain ⟨msgSize, body⟩ := word
      exact if_pos (short msgSize body read)

/-- What is not incomplete has a length, and that many bytes after it. -/
theorem front_read {bytes : List UInt8} (found : type.front bytes ≠ .incomplete) :
    ∃ msgSize body, readLittleEndian32 bytes = some (msgSize, body) ∧ msgSize ≤ body.length := by
  by_contra none
  apply found
  apply type.front_incomplete
  intro msgSize body read
  by_contra complete
  exact none ⟨msgSize, body, read, Nat.le_of_not_lt complete⟩

def frameReader : FrameReader UInt8 Message where
  front := type.front
  fits {bytes size msg} found := by
    obtain ⟨msgSize, body, read, complete⟩ :=
      type.front_read (by rw [found]; exact fun same => by cases same)
    have long := (readLittleEndian32_eq_some read).1
    rw [type.front_complete read complete] at found
    rw [readLittleEndian32_rest read, List.length_drop] at complete
    cases parsed : type.parseFromArray (body.take msgSize) with
    | none =>
        rw [parsed] at found
        cases found
    | some other =>
        rw [parsed] at found
        cases found
        omega
  steady {bytes} found more := by
    obtain ⟨msgSize, body, read, complete⟩ := type.front_read found
    have longer : msgSize ≤ (body ++ more).length := by
      rw [List.length_append]
      omega
    rw [type.front_complete read complete,
      type.front_complete (readLittleEndian32_append read more) longer,
      List.take_append_of_le_length complete]

end MessageType

namespace SpecifiedDecoder

/-- The call parses to a message, which is pushed. -/
def Parses (buf : List UInt8) (call : ParseCall) : Bool :=
  (type.parseFromArray ((buf.drop (call.offset.toNat + 4)).take call.msgSize)).isSome

def pushed (buf : List UInt8) : List ParseCall := (calls type buf).filter (Parses type buf)

variable {type} {buf : List UInt8}

/-! ## One `decode` -/

/-- A round of the loop by what is at the front of the rest of the buffer. -/
theorem round_of_front (noWrap : NoWrap type buf) {offset : Nat}
    (start : FrameStart type buf offset) :
    match type.front (buf.drop offset) with
    | .incomplete => round type buf offset = .short ∨ round type buf offset = .incomplete
    | .broken => ∃ msgSize, round type buf offset = .unparsed msgSize ∧
        Parses type buf ⟨offset, msgSize⟩ = false
    | .frame size msg => ∃ msgSize, size = 4 + msgSize ∧
        round type buf offset = .parsed msgSize msg ∧
        Parses type buf ⟨offset, msgSize⟩ = true ∧ FrameStart type buf (offset + 4 + msgSize) := by
  by_cases found : type.front (buf.drop offset) = .incomplete
  · rw [found]
    cases read : readLittleEndian32 (buf.drop offset) with
    | none => exact .inl (by simp only [round, read])
    | some word =>
        obtain ⟨msgSize, rest⟩ := word
        have body := readLittleEndian32_rest read
        have small := noWrap offset msgSize rest start read
        refine .inr ?_
        have beyond : buf.length < offset + 4 + msgSize := by
          by_contra complete
          rw [type.front_complete read (by rw [body, List.length_drop, List.length_drop]; omega)]
            at found
          cases parsed : type.parseFromArray (rest.take msgSize) <;> rw [parsed] at found <;>
            cases found
        simp only [round, read, if_neg (Nat.not_le_of_lt small), if_pos beyond]
  · obtain ⟨msgSize, rest, read, complete⟩ := type.front_read found
    have body := readLittleEndian32_rest read
    have small := noWrap offset msgSize rest start read
    have room := (read_bounds read).1
    have inside : offset + 4 + msgSize ≤ buf.length := by
      rw [body, List.length_drop, List.length_drop] at complete
      omega
    rw [List.drop_drop] at body
    rw [type.front_complete read complete]
    cases parsed : type.parseFromArray (rest.take msgSize) with
    | none =>
        have here := parsed
        rw [body] at here
        have looked : round type buf offset = .unparsed msgSize := by
          simp only [round, read, if_neg (Nat.not_le_of_lt small),
            if_neg (Nat.not_lt_of_le inside), here]
        rw [looked]
        refine ⟨msgSize, rfl, ?_⟩
        rw [Parses, Int.toNat_natCast, here]
        rfl
    | some msg =>
        have here := parsed
        rw [body] at here
        have looked : round type buf offset = .parsed msgSize msg := by
          simp only [round, read, if_neg (Nat.not_le_of_lt small),
            if_neg (Nat.not_lt_of_le inside), here]
        rw [looked]
        refine ⟨msgSize, rfl, rfl, ?_, start.next read inside here⟩
        rw [Parses, Int.toNat_natCast, here]
        rfl

/-- The count that the loop returns when it comes to a part of the buffer without a frame. -/
def consumedAt (type : MessageType Message) (last : Nat) (left : List UInt8) : Int :=
  match type.front left with
  | .broken => 0
  | _ => last

theorem decodeLoop_reads (bounded : buf.length < 2 ^ 31 - 4) (noWrap : NoWrap type buf)
    {offset last : Nat} {rest left : List UInt8} {frames : List (Nat × Message)}
    (reads : type.frameReader.Reads offset rest frames last left)
    (stops : type.frameReader.Stops left) (place : rest = buf.drop offset)
    (start : FrameStart type buf offset) {fuel : Nat} (enough : buf.length < offset + fuel) :
    decodeLoop type buf (int32 buf.length) fuel offset offset =
      .ok (consumedAt type last left, frames.map Prod.snd) := by
  induction reads generalizing fuel with
  | done offset rest =>
      subst place
      have le := start.le
      cases fuel with
      | zero => omega
      | succ fuel =>
          rw [decodeLoop_round bounded le, consumedAt]
          have looked := round_of_front noWrap start
          cases found : type.front (buf.drop offset) with
          | frame size msg => exact absurd found (stops size msg)
          | broken =>
              rw [found] at looked
              obtain ⟨msgSize, looked, _⟩ := looked
              rw [looked]
              rfl
          | incomplete =>
              rw [found] at looked
              rcases looked with looked | looked
              · rw [looked]
                rfl
              · rw [looked]
                rfl
  | @frame offset size last rest left msg frames found further ih =>
      subst place
      have le := start.le
      cases fuel with
      | zero => omega
      | succ fuel =>
          have looked := round_of_front noWrap start
          have front : type.front (buf.drop offset) = .frame size msg := found
          rw [front] at looked
          obtain ⟨msgSize, rfl, looked, _, next⟩ := looked
          have later := ih stops (by rw [List.drop_drop]) (by rw [← Nat.add_assoc]; exact next)
            (show buf.length < offset + (4 + msgSize) + fuel by omega)
          rw [← Nat.add_assoc] at later
          rw [decodeLoop_round bounded le, looked]
          simp only [later]
          rfl

theorem parseCalls_reads (bounded : buf.length < 2 ^ 31 - 4) (noWrap : NoWrap type buf)
    {offset last : Nat} {rest left : List UInt8} {frames : List (Nat × Message)}
    (reads : type.frameReader.Reads offset rest frames last left)
    (stops : type.frameReader.Stops left) (place : rest = buf.drop offset)
    (start : FrameStart type buf offset) {fuel : Nat} (enough : buf.length < offset + fuel) :
    ((parseCalls type buf (int32 buf.length) fuel offset).filter (Parses type buf)).map
        (fun call => call.offset.toNat) = frames.map Prod.fst := by
  induction reads generalizing fuel with
  | done offset rest =>
      subst place
      have le := start.le
      cases fuel with
      | zero => omega
      | succ fuel =>
          rw [parseCalls_round bounded le]
          have looked := round_of_front noWrap start
          cases found : type.front (buf.drop offset) with
          | frame size msg => exact absurd found (stops size msg)
          | broken =>
              rw [found] at looked
              obtain ⟨msgSize, looked, unparsed⟩ := looked
              simp only [looked, List.filter_cons, unparsed]
              rfl
          | incomplete =>
              rw [found] at looked
              rcases looked with looked | looked
              · rw [looked]
                rfl
              · rw [looked]
                rfl
  | @frame offset size last rest left msg frames found further ih =>
      subst place
      have le := start.le
      cases fuel with
      | zero => omega
      | succ fuel =>
          have looked := round_of_front noWrap start
          have front : type.front (buf.drop offset) = .frame size msg := found
          rw [front] at looked
          obtain ⟨msgSize, rfl, looked, parses, next⟩ := looked
          have later := ih stops (by rw [List.drop_drop]) (by rw [← Nat.add_assoc]; exact next)
            (show buf.length < offset + (4 + msgSize) + fuel by omega)
          rw [← Nat.add_assoc] at later
          rw [parseCalls_round bounded le, looked]
          simp only [List.filter_cons, parses, if_true, List.map_cons, later, Int.toNat_natCast]

/-- A `decode` that parses bytes of its buffer only has met no length that wraps. -/
theorem FrameStart.decoded (bounded : buf.length < 2 ^ 31 - 4) {offset : Nat}
    (start : FrameStart type buf offset) :
    ∃ fuel, buf.length < offset + fuel ∧ ∃ total, ∀ fault,
      decodeLoop type buf (int32 buf.length) fuel offset total = .error fault →
        decoded type buf (buf.length + 1) = .error fault := by
  induction start with
  | front => exact ⟨buf.length + 1, by omega, 0, fun _ failed => failed⟩
  | @next offset msgSize rest msg before read complete parsed ih =>
      obtain ⟨fuel, enough, total, kept⟩ := ih
      cases fuel with
      | zero => omega
      | succ fuel =>
          have small := (read_bounds read).2
          have looked : round type buf offset = .parsed msgSize msg := by
            simp only [round, read, if_neg (show ¬ 2 ^ 32 ≤ offset + 4 + msgSize by omega),
              if_neg (Nat.not_lt_of_le complete), parsed]
          refine ⟨fuel, by omega, ((offset + 4 + msgSize : Nat) : Int), fun fault failed => ?_⟩
          apply kept
          rw [decodeLoop_round bounded before.le, looked]
          simp only [failed]
          rfl

theorem noWrap_of_decoded (bounded : buf.length < 2 ^ 31 - 4) {found : Int × List Message}
    (ran : decoded type buf (buf.length + 1) = .ok found) : NoWrap type buf := by
  intro offset msgSize rest start read
  by_contra wraps
  have looked : round type buf offset = .wrapped msgSize := by
    simp only [round, read, if_pos (Nat.le_of_not_lt wraps)]
  obtain ⟨fuel, enough, total, kept⟩ := start.decoded bounded
  have le := start.le
  cases fuel with
  | zero => omega
  | succ fuel =>
      have failed := kept ⟨offset, msgSize⟩ (by rw [decodeLoop_round bounded le, looked])
      cases ran.symm.trans failed

/-- One `decode` takes the frames at the front of its buffer, all of their messages, and of
their bytes all or none. -/
theorem decode_reads (bounded : buf.length < 2 ^ 31 - 4) (noWrap : NoWrap type buf)
    (decoder : SpecifiedDecoder Message Callback) {last : Nat} {left : List UInt8}
    (reads : type.frameReader.Reads 0 buf (type.frameReader.framesAt 0 buf) last left)
    (stops : type.frameReader.Stops left) :
    decoder.decode type buf = .ok (consumedAt type last left,
        { decoder with msgs := decoder.msgs ++ (type.frameReader.framesAt 0 buf).map Prod.snd }) ∧
      (pushed type buf).map (fun call => call.offset.toNat) =
        (type.frameReader.framesAt 0 buf).map Prod.fst := by
  constructor
  · have looped := decodeLoop_reads bounded noWrap reads stops rfl .front
      (show buf.length < 0 + (buf.length + 1) by omega)
    rw [Nat.cast_zero] at looped
    rw [decode, looped]
    rfl
  · exact parseCalls_reads bounded noWrap reads stops rfl .front (by omega)

end SpecifiedDecoder

theorem Receiver.receive_reads {receiver : Receiver Message Callback} {functions : List Callback}
    {chunk : List UInt8} {consumed : Int} {messages : List Message}
    (decoder : receiver.decoder = { msgs := [], functions := functions })
    (decoded : receiver.decoder.decode type (receiver.fdReceiveData ++ chunk) =
      .ok (consumed, { receiver.decoder with msgs := receiver.decoder.msgs ++ messages })) :
    receiver.receive type chunk = .ok {
      fdReceiveData := (receiver.fdReceiveData ++ chunk).drop consumed.toNat
      decoder := { msgs := [], functions := functions }
      calls := receiver.calls ++ Receiver.delivered functions messages } := by
  rw [receive]
  simp only [decoded]
  rw [decoder]
  rfl

/-! ## Reception -/

/-- The receiver of a connection, with the bytes received and the positions among them of the
frames whose messages were passed on. A call of `ParseFromArray` outside the buffer is the end. -/
structure Reception (Message Callback : Type) where
  receiver : Except OutsideBuffer (Receiver Message Callback)
  stream : List UInt8
  delivered : List Nat

namespace Reception

def connected (functions : List Callback) : Reception Message Callback where
  receiver := .ok (.connected functions)
  stream := []
  delivered := []

/-- A `recv` of no bytes closes the connection instead. -/
def step (type : MessageType Message) (reception : Reception Message Callback)
    (chunk : List UInt8) : Option (Reception Message Callback) :=
  match reception.receiver with
  | .error _ => none
  | .ok receiver =>
      if chunk = [] then none
      else
        let erased := reception.stream.length - receiver.fdReceiveData.length
        some {
          receiver := receiver.receive type chunk
          stream := reception.stream ++ chunk
          delivered := reception.delivered ++
            (SpecifiedDecoder.pushed type (receiver.fdReceiveData ++ chunk)).map
              fun call => erased + call.offset.toNat }

def machine (type : MessageType Message) : Machine (Reception Message Callback) (List UInt8) :=
  ⟨step type⟩

/-- No frame has been delivered twice, and what was delivered are the frames of the bytes so
far, from the front up to the first one that does not parse. -/
structure DeliversOnce (type : MessageType Message) (functions : List Callback)
    (reception : Reception Message Callback) : Prop where
  once : reception.delivered.Nodup
  calls : ∃ receiver, reception.receiver = .ok receiver ∧
    receiver.calls = Receiver.delivered functions
      ((type.frameReader.framesAt 0 reception.stream).map Prod.snd)

/-- The buffer stays below the size at which `int` wraps. -/
def Fits (reception : Reception Message Callback) (chunk : List UInt8) : Prop :=
  ∀ receiver ∈ reception.receiver.toOption,
    (receiver.fdReceiveData ++ chunk).length < 2 ^ 31 - 4

instance (reception : Reception Message Callback) (chunk : List UInt8) :
    Decidable (reception.Fits chunk) :=
  inferInstanceAs (Decidable (∀ receiver ∈ reception.receiver.toOption, _))

/-- No length in the buffer wraps, and no frame was left there by a broken one behind it. -/
def Clean (type : MessageType Message) (reception : Reception Message Callback)
    (chunk : List UInt8) : Prop :=
  ∀ receiver ∈ reception.receiver.toOption,
    SpecifiedDecoder.NoWrap type (receiver.fdReceiveData ++ chunk) ∧
      type.frameReader.Stops receiver.fdReceiveData

/-- The buffer holds the end of the stream, and all frames of the stream are delivered. -/
structure Abreast (type : MessageType Message) (functions : List Callback)
    (reception : Reception Message Callback) (receiver : Receiver Message Callback) : Prop where
  running : reception.receiver = .ok receiver
  decoder : receiver.decoder = { msgs := [], functions := functions }
  buffered : ∃ frames last, type.frameReader.Reads 0 reception.stream frames last
    receiver.fdReceiveData
  positions : reception.delivered = (type.frameReader.framesAt 0 reception.stream).map Prod.fst
  calls : receiver.calls = Receiver.delivered functions
    ((type.frameReader.framesAt 0 reception.stream).map Prod.snd)

variable {type} {functions : List Callback}

theorem abreast_connected (type : MessageType Message) (functions : List Callback) :
    Abreast type functions (connected functions) (.connected functions) where
  running := rfl
  decoder := rfl
  buffered := ⟨[], 0, .done 0 []⟩
  positions := rfl
  calls := rfl

theorem Abreast.deliversOnce {reception : Reception Message Callback}
    {receiver : Receiver Message Callback}
    (abreast : Abreast type functions reception receiver) :
    DeliversOnce type functions reception where
  once := by
    rw [abreast.positions]
    exact FrameReader.nodup_positions 0 reception.stream
  calls := ⟨receiver, abreast.running, abreast.calls⟩

theorem step_running {reception next : Reception Message Callback}
    {receiver : Receiver Message Callback} {chunk : List UInt8}
    (running : reception.receiver = .ok receiver)
    (stepped : step type reception chunk = some next) :
    next.receiver = receiver.receive type chunk ∧ next.stream = reception.stream ++ chunk ∧
      next.delivered = reception.delivered ++
        (SpecifiedDecoder.pushed type (receiver.fdReceiveData ++ chunk)).map fun call =>
          reception.stream.length - receiver.fdReceiveData.length + call.offset.toNat := by
  rw [step, running] at stepped
  by_cases nothing : chunk = []
  · simp only [if_pos nothing] at stepped
    cases stepped
  · simp only [if_neg nothing, Option.some.injEq] at stepped
    subst stepped
    exact ⟨rfl, rfl, rfl⟩

/-- What `decode` counts is erased: the frames it has read, or nothing at all. -/
theorem erased_reads {last taken : Nat} {stream data left chunk : List UInt8}
    {frames further : List (Nat × Message)}
    (reads : type.frameReader.Reads 0 stream frames last data)
    (beyond : type.frameReader.Reads 0 (data ++ chunk) further taken left) :
    ∃ frames last, type.frameReader.Reads 0 (stream ++ chunk) frames last
      ((data ++ chunk).drop (SpecifiedDecoder.consumedAt type taken left).toNat) := by
  have kept := reads.append chunk
  have moved := kept.trans (beyond.shift last)
  have rest := beyond.left_eq
  rw [Nat.sub_zero] at rest
  rw [SpecifiedDecoder.consumedAt]
  cases type.front left with
  | broken => exact ⟨_, _, kept⟩
  | incomplete | frame =>
      rw [rest] at moved
      exact ⟨_, _, moved⟩

theorem Abreast.next {reception next : Reception Message Callback}
    {receiver : Receiver Message Callback} {chunk : List UInt8}
    (abreast : Abreast type functions reception receiver) (fits : reception.Fits chunk)
    (clean : reception.Clean type chunk) (stepped : step type reception chunk = some next) :
    ∃ receiver, Abreast type functions next receiver := by
  obtain ⟨received, grown, delivered⟩ := step_running abreast.running stepped
  obtain ⟨frames, last, reads⟩ := abreast.buffered
  have present : receiver ∈ reception.receiver.toOption := by
    rw [abreast.running]
    rfl
  have bounded := fits receiver present
  obtain ⟨noWrap, stops⟩ := clean receiver present
  obtain ⟨taken, left, further, stopped⟩ :=
    FrameReader.exists_reads type.frameReader 0 (receiver.fdReceiveData ++ chunk)
  obtain ⟨ran, places⟩ :=
    SpecifiedDecoder.decode_reads bounded noWrap receiver.decoder further stopped
  rw [Receiver.receive_reads type abreast.decoder ran] at received
  -- everything before the buffer has been delivered, and nothing of what is in it
  have before : type.frameReader.framesAt 0 reception.stream = frames := by
    rw [reads.framesAt, FrameReader.framesAt_stops stops, List.append_nil]
  have all : type.frameReader.framesAt 0 next.stream = frames ++
      (type.frameReader.framesAt 0 (receiver.fdReceiveData ++ chunk)).map
        fun frame => (last + frame.1, frame.2) := by
    rw [grown, reads.framesAt_append, FrameReader.framesAt_shift last]
  have erased : reception.stream.length - receiver.fdReceiveData.length = last := by
    have lengths := reads.length.2
    omega
  refine ⟨_, received, rfl, ?_, ?_, ?_⟩
  · rw [grown]
    exact erased_reads reads further
  · have positions : (SpecifiedDecoder.pushed type (receiver.fdReceiveData ++ chunk)).map
        (fun call => last + call.offset.toNat) =
          (type.frameReader.framesAt 0 (receiver.fdReceiveData ++ chunk)).map
            fun frame => last + frame.1 := by
      have shifted := congrArg (List.map (last + ·)) places
      rw [List.map_map, List.map_map] at shifted
      exact shifted
    rw [delivered, erased, positions, abreast.positions, before, all, List.map_append,
      List.map_map]
    rfl
  · have messages : (type.frameReader.framesAt 0 next.stream).map Prod.snd =
        frames.map Prod.snd ++
          (type.frameReader.framesAt 0 (receiver.fdReceiveData ++ chunk)).map Prod.snd := by
      rw [all, List.map_append, List.map_map]
      rfl
    rw [messages, Receiver.delivered_append, abreast.calls, before]

/-- A `recv` that does not end outside the buffer has met no length that wraps. -/
theorem noWrap_of_received {receiver next : Receiver Message Callback} {chunk : List UInt8}
    (bounded : (receiver.fdReceiveData ++ chunk).length < 2 ^ 31 - 4)
    (received : receiver.receive type chunk = .ok next) :
    SpecifiedDecoder.NoWrap type (receiver.fdReceiveData ++ chunk) := by
  cases ran : SpecifiedDecoder.decoded type (receiver.fdReceiveData ++ chunk)
      ((receiver.fdReceiveData ++ chunk).length + 1) with
  | ok found => exact SpecifiedDecoder.noWrap_of_decoded bounded ran
  | error fault =>
      rw [SpecifiedDecoder.decoded] at ran
      rw [Receiver.receive, SpecifiedDecoder.decode, ran] at received
      cases received

/-- A complete frame in front of a `recv` has been delivered, and is again. -/
theorem Abreast.stops {reception next : Reception Message Callback}
    {receiver : Receiver Message Callback} {chunk : List UInt8}
    (abreast : Abreast type functions reception receiver)
    (bounded : (receiver.fdReceiveData ++ chunk).length < 2 ^ 31 - 4)
    (noWrap : SpecifiedDecoder.NoWrap type (receiver.fdReceiveData ++ chunk))
    (stepped : step type reception chunk = some next) (once : next.delivered.Nodup) :
    type.frameReader.Stops receiver.fdReceiveData := by
  intro size msg found
  obtain ⟨_, _, delivered⟩ := step_running abreast.running stepped
  obtain ⟨frames, last, reads⟩ := abreast.buffered
  obtain ⟨taken, left, further, stopped⟩ :=
    FrameReader.exists_reads type.frameReader 0 (receiver.fdReceiveData ++ chunk)
  have places := (SpecifiedDecoder.decode_reads bounded noWrap receiver.decoder further stopped).2
  have still : type.frameReader.front (receiver.fdReceiveData ++ chunk) = .frame size msg := by
    rw [type.frameReader.steady (by rw [found]; exact fun same => by cases same), found]
  have erased : reception.stream.length - receiver.fdReceiveData.length = last := by
    have lengths := reads.length.2
    omega
  have first : last ∈ reception.delivered := by
    rw [abreast.positions, reads.framesAt, FrameReader.framesAt_frame found, List.map_append]
    exact List.mem_append_right _ List.mem_cons_self
  have zero : 0 ∈ (SpecifiedDecoder.pushed type (receiver.fdReceiveData ++ chunk)).map
      fun call => call.offset.toNat := by
    rw [places, FrameReader.framesAt_frame still]
    exact List.mem_cons_self
  obtain ⟨call, member, front⟩ := List.mem_map.mp zero
  have second : last ∈ (SpecifiedDecoder.pushed type (receiver.fdReceiveData ++ chunk)).map
      fun call => last + call.offset.toNat :=
    List.mem_map.mpr ⟨call, member, by rw [front, Nat.add_zero]⟩
  rw [delivered, erased] at once
  exact (List.nodup_append.mp once).2.2 last first last second rfl

/-- A stream is delivered once, and as it would be uncut, exactly if no length in it wraps
and no chunk arrives behind a frame that one broken frame has held back. -/
theorem deliversOnce_iff_clean (type : MessageType Message) (functions : List Callback)
    (run : List (List UInt8))
    (fits : (machine type).Obeys Fits (connected functions) run) :
    (machine type).Along (DeliversOnce type functions) (connected functions) run ↔
      (machine type).Obeys (Clean type) (connected functions) run := by
  refine (machine type).along_iff_obeys_of
    (fun reception => ∃ receiver, Abreast type functions reception receiver) ?_ ?_ ?_
    ⟨_, abreast_connected type functions⟩ fits
  · rintro reception ⟨receiver, abreast⟩
    exact abreast.deliversOnce
  · rintro reception chunk next ⟨receiver, abreast⟩ fits clean stepped
    exact abreast.next fits clean stepped
  · rintro reception chunk next ⟨receiver, abreast⟩ fits stepped delivers other present
    rw [abreast.running] at present
    cases present
    have bounded := fits receiver (by rw [abreast.running]; rfl)
    obtain ⟨after, running, _⟩ := delivers.calls
    rw [(step_running abreast.running stepped).1] at running
    have noWrap := noWrap_of_received bounded running
    exact ⟨noWrap, abreast.stops bounded noWrap stepped delivers.once⟩

/-- The second frame never parses, and nothing waits in front of it. -/
def heldChunks : List (List UInt8) := [[2, 0, 0, 0, 8, 1, 1, 0, 0], [0, 7], [9]]

theorem deliversOnce_iff_clean_held :
    (machine Receiver.flagType).Along (DeliversOnce Receiver.flagType [0]) (connected [0])
        heldChunks ↔
      (machine Receiver.flagType).Obeys (Clean Receiver.flagType) (connected [0]) heldChunks :=
  deliversOnce_iff_clean Receiver.flagType [0] heldChunks (by decide +kernel)

/-- The same bytes with both frames in one chunk: the first is passed on twice. -/
def redeliveredChunks : List (List UInt8) := [[2, 0, 0, 0, 8, 1, 1, 0, 0, 0, 7], [9]]

theorem redelivered_not_deliversOnce :
    ¬ (machine Receiver.flagType).Along (DeliversOnce Receiver.flagType [0]) (connected [0])
      redeliveredChunks := by
  intro along
  have twice : ((machine Receiver.flagType).exec (connected [0]) redeliveredChunks).map
      Reception.delivered = some [0, 0] := by decide +kernel
  obtain ⟨final, executed, positions⟩ := Option.map_eq_some_iff.mp twice
  have once := (along.final executed).once
  rw [positions] at once
  revert once
  decide

end Reception

end ProtoCore.Topic
