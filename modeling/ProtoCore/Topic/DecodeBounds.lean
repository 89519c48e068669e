import ProtoCore.Topic.FramingRoundTrip

/-!
# The bounds of a decoded buffer

`decode` adds an offset and a length that the peer has chosen in 32 bits, and compares the
sum with the size of the buffer. A length close to `2 ^ 32` wraps the sum around.
-/

set_option autoImplicit false

namespace ProtoCore.Topic

open Library

variable {Message : Type} (type : MessageType Message) (buf : List UInt8)

/-- A call of `ParseFromArray` at `buf.data() + offset + 4`. -/
structure ParseCall where
  offset : Int
  msgSize : Nat
  deriving DecidableEq, Repr

namespace SpecifiedDecoder

/-- The calls of `ParseFromArray` that `decodeLoop` makes. Nothing is known of the loop after
a call on bytes outside the buffer. -/
def parseCalls (bufSize : Int) : Nat → Int → List ParseCall
  | 0, _ => []
  | fuel + 1, offset =>
      if int32 (offset + 4) ≤ bufSize then
        let msgSize := ((readLittleEndian32 (buf.drop offset.toNat)).map Prod.fst).getD 0
        if uint32 (offset + 4 + msgSize) > uint32 bufSize then []
        else if buf.length < offset + 4 + msgSize then [⟨offset, msgSize⟩]
        else
          match type.parseFromArray ((buf.drop (offset.toNat + 4)).take msgSize) with
          | none => [⟨offset, msgSize⟩]
          | some _ => ⟨offset, msgSize⟩ :: parseCalls bufSize fuel (int32 (offset + 4 + msgSize))
      else []

/-- What the loop finds at an offset of the buffer, with the length it reads there. -/
inductive Round (Message : Type) where
  | short
  | wrapped (msgSize : Nat)
  | incomplete
  | unparsed (msgSize : Nat)
  | parsed (msgSize : Nat) (msg : Message)

def round (offset : Nat) : Round Message :=
  match readLittleEndian32 (buf.drop offset) with
  | none => .short
  | some (msgSize, _) =>
      if 2 ^ 32 ≤ offset + 4 + msgSize then .wrapped msgSize
      else if buf.length < offset + 4 + msgSize then .incomplete
      else
        match type.parseFromArray ((buf.drop (offset + 4)).take msgSize) with
        | none => .unparsed msgSize
        | some msg => .parsed msgSize msg

/-- Complete frames whose messages parse lie end to end before the offset. -/
inductive FrameStart : Nat → Prop where
  | front : FrameStart 0
  | next {offset msgSize : Nat} {rest : List UInt8} {msg : Message} (before : FrameStart offset)
      (read : readLittleEndian32 (buf.drop offset) = some (msgSize, rest))
      (complete : offset + 4 + msgSize ≤ buf.length)
      (parsed : type.parseFromArray ((buf.drop (offset + 4)).take msgSize) = some msg) :
      FrameStart (offset + 4 + msgSize)

/-- No length that follows complete frames takes the end of its message to `2 ^ 32`. -/
def NoWrap : Prop :=
  ∀ offset msgSize rest, FrameStart type buf offset →
    readLittleEndian32 (buf.drop offset) = some (msgSize, rest) → offset + 4 + msgSize < 2 ^ 32

/-- The whole loop on the buffer, from its front. -/
def decoded (fuel : Nat) : Except OutsideBuffer (Int × List Message) :=
  decodeLoop type buf (int32 buf.length) fuel 0 0

def calls : List ParseCall := parseCalls type buf (int32 buf.length) (buf.length + 1) 0

/-- `decode` parses bytes of its buffer only, moves on by four bytes or more, comes to its end,
and returns a count of bytes that the buffer has. -/
structure Inside : Prop where
  ranges : ∀ call ∈ calls type buf, 0 ≤ call.offset ∧ call.offset + 4 + call.msgSize ≤ buf.length
  grows : (calls type buf).Pairwise fun earlier later => earlier.offset + 4 ≤ later.offset
  ends : ∀ fuel, buf.length < fuel → decoded type buf fuel = decoded type buf (buf.length + 1)
  counts : ∃ consumed msgs, decoded type buf (buf.length + 1) = .ok (consumed, msgs) ∧
    0 ≤ consumed ∧ consumed ≤ buf.length

variable {type buf}

/-! ## One round -/

theorem full_of_unread {offset : Nat} (unread : readLittleEndian32 (buf.drop offset) = none) :
    ¬ offset + 4 ≤ buf.length := by
  intro room
  have long : 4 ≤ (buf.drop offset).length := by
    rw [List.length_drop]
    omega
  obtain ⟨msgSize, rest, read⟩ := readLittleEndian32_of_length long
  cases unread.symm.trans read

theorem read_bounds {offset msgSize : Nat} {rest : List UInt8}
    (read : readLittleEndian32 (buf.drop offset) = some (msgSize, rest)) :
    offset + 4 ≤ buf.length ∧ msgSize < 2 ^ 32 := by
  obtain ⟨long, small⟩ := readLittleEndian32_eq_some read
  rw [List.length_drop] at long
  omega

/-- The test of the loop, below the sizes at which it would wrap. -/
theorem loop_test {offset : Nat} (bounded : buf.length < 2 ^ 31 - 4)
    (inside : offset ≤ buf.length) :
    int32 ((offset : Int) + 4) ≤ int32 buf.length ↔ offset + 4 ≤ buf.length := by
  rw [int32_of_range (by omega) (by omega), int32_of_range (by omega) (by omega)]
  omega

/-- The test of the end of a message stops the loop only if the sum does not wrap. -/
theorem end_test {offset msgSize : Nat} (bounded : buf.length < 2 ^ 31 - 4)
    (room : offset + 4 ≤ buf.length) (small : msgSize < 2 ^ 32) :
    uint32 ((offset : Int) + 4 + msgSize) > uint32 (int32 buf.length) ↔
      buf.length < offset + 4 + msgSize ∧ offset + 4 + msgSize < 2 ^ 32 := by
  rw [int32_of_range (by omega) (by omega)]
  unfold uint32
  omega

theorem next_offset {offset msgSize : Nat} (bounded : buf.length < 2 ^ 31 - 4)
    (complete : offset + 4 + msgSize ≤ buf.length) :
    int32 ((offset : Int) + 4 + msgSize) = (offset + 4 + msgSize : Nat) := by
  rw [int32_of_range (by omega) (by omega)]
  push_cast
  rfl

/-- One pass of the loop of `decode`, for whatever is made of its outcome. -/
theorem loop_round (type : MessageType Message) {buf : List UInt8} {Result : Type}
    (bounded : buf.length < 2 ^ 31 - 4) {offset : Nat} (inside : offset ≤ buf.length)
    (short : Result) (outside unparsed : Nat → Result) (parsed : Nat → Message → Int → Result) :
    (if int32 ((offset : Int) + 4) ≤ int32 buf.length then
      let msgSize := ((readLittleEndian32 (buf.drop (offset : Int).toNat)).map Prod.fst).getD 0
      if uint32 ((offset : Int) + 4 + msgSize) > uint32 (int32 buf.length) then short
      else if buf.length < (offset : Int) + 4 + msgSize then outside msgSize
      else
        match type.parseFromArray ((buf.drop ((offset : Int).toNat + 4)).take msgSize) with
        | none => unparsed msgSize
        | some msg => parsed msgSize msg (int32 ((offset : Int) + 4 + msgSize))
    else short) =
      match round type buf offset with
      | .short | .incomplete => short
      | .wrapped msgSize => outside msgSize
      | .unparsed msgSize => unparsed msgSize
      | .parsed msgSize msg => parsed msgSize msg ((offset + 4 + msgSize : Nat) : Int) := by
  rw [round]
  simp only [loop_test bounded inside, Int.toNat_natCast]
  cases read : readLittleEndian32 (buf.drop offset) with
  | none => rw [if_neg (full_of_unread read)]
  | some word =>
      obtain ⟨msgSize, rest⟩ := word
      obtain ⟨room, small⟩ := read_bounds read
      simp only [if_pos room, Option.map_some, Option.getD_some, end_test bounded room small]
      by_cases wraps : 2 ^ 32 ≤ offset + 4 + msgSize
      · rw [if_neg (by omega), if_pos (by omega), if_pos wraps]
      · rw [if_neg wraps]
        by_cases beyond : buf.length < offset + 4 + msgSize
        · rw [if_pos (by omega), if_pos beyond]
        · rw [if_neg (by omega), if_neg (by omega), if_neg beyond]
          cases type.parseFromArray ((buf.drop (offset + 4)).take msgSize) with
          | none => rfl
          | some msg => simp only [next_offset bounded (Nat.le_of_not_lt beyond)]

theorem decodeLoop_round (bounded : buf.length < 2 ^ 31 - 4) {offset : Nat}
    (inside : offset ≤ buf.length) (fuel : Nat) (total : Int) :
    decodeLoop type buf (int32 buf.length) (fuel + 1) offset total =
      match round type buf offset with
      | .short | .incomplete => .ok (total, [])
      | .wrapped msgSize => .error ⟨offset, msgSize⟩
      | .unparsed _ => .ok (0, [])
      | .parsed msgSize msg => do
          let (consumed, msgs) ← decodeLoop type buf (int32 buf.length) fuel
            ((offset + 4 + msgSize : Nat) : Int) ((offset + 4 + msgSize : Nat) : Int)
          return (consumed, msg :: msgs) := by
  have passed := loop_round type bounded inside
    (Except.ok (total, []) : Except OutsideBuffer (Int × List Message))
    (fun msgSize => .error ⟨offset, msgSize⟩) (fun _ => .ok (0, [])) fun _ msg next => do
      let (consumed, msgs) ← decodeLoop type buf (int32 buf.length) fuel next next
      return (consumed, msg :: msgs)
  rw [decodeLoop]
  exact passed

theorem parseCalls_round (bounded : buf.length < 2 ^ 31 - 4) {offset : Nat}
    (inside : offset ≤ buf.length) (fuel : Nat) :
    parseCalls type buf (int32 buf.length) (fuel + 1) offset =
      match round type buf offset with
      | .short | .incomplete => []
      | .wrapped msgSize | .unparsed msgSize => [⟨offset, msgSize⟩]
      | .parsed msgSize _ => ⟨offset, msgSize⟩ ::
          parseCalls type buf (int32 buf.length) fuel ((offset + 4 + msgSize : Nat) : Int) := by
  have passed := loop_round type bounded inside ([] : List ParseCall)
    (fun msgSize => [⟨offset, msgSize⟩]) (fun msgSize => [⟨offset, msgSize⟩])
    fun msgSize _ next => ⟨offset, msgSize⟩ :: parseCalls type buf (int32 buf.length) fuel next
  rw [parseCalls]
  exact passed

theorem round_found (type : MessageType Message) (buf : List UInt8) (offset : Nat) :
    match round type buf offset with
    | .short | .incomplete => True
    | .wrapped msgSize => ∃ rest,
        readLittleEndian32 (buf.drop offset) = some (msgSize, rest) ∧ 2 ^ 32 ≤ offset + 4 + msgSize
    | .unparsed msgSize => offset + 4 + msgSize ≤ buf.length
    | .parsed msgSize msg => ∃ rest,
        readLittleEndian32 (buf.drop offset) = some (msgSize, rest) ∧
          offset + 4 + msgSize ≤ buf.length ∧
          type.parseFromArray ((buf.drop (offset + 4)).take msgSize) = some msg := by
  unfold round
  cases read : readLittleEndian32 (buf.drop offset) with
  | none => trivial
  | some word =>
      obtain ⟨msgSize, rest⟩ := word
      by_cases wraps : 2 ^ 32 ≤ offset + 4 + msgSize
      · simp only [if_pos wraps]
        exact ⟨rest, rfl, wraps⟩
      · by_cases beyond : buf.length < offset + 4 + msgSize
        · simp only [if_neg wraps, if_pos beyond]
        · simp only [if_neg wraps, if_neg beyond]
          cases parsed : type.parseFromArray ((buf.drop (offset + 4)).take msgSize) with
          | none => exact Nat.le_of_not_lt beyond
          | some msg => exact ⟨rest, rfl, Nat.le_of_not_lt beyond, parsed⟩

theorem FrameStart.le {offset : Nat} (start : FrameStart type buf offset) :
    offset ≤ buf.length := by
  cases start with
  | front => exact Nat.zero_le _
  | next _ _ complete _ => exact complete

/-! ## The whole loop -/

theorem decodeLoop_fuel (bounded : buf.length < 2 ^ 31 - 4) {fuel other : Nat} :
    ∀ {offset : Nat} (total : Int), offset ≤ buf.length → buf.length < offset + fuel →
      buf.length < offset + other →
      decodeLoop type buf (int32 buf.length) fuel offset total =
        decodeLoop type buf (int32 buf.length) other offset total := by
  induction fuel generalizing other with
  | zero =>
      intro offset total inside enough _
      omega
  | succ fuel ih =>
      intro offset total inside enough enoughOther
      cases other with
      | zero => omega
      | succ other =>
          rw [decodeLoop_round bounded inside, decodeLoop_round bounded inside]
          have found := round_found type buf offset
          cases looked : round type buf offset with
          | parsed msgSize msg =>
              rw [looked] at found
              obtain ⟨_, _, complete, _⟩ := found
              simp only [ih _ complete (by omega) (by omega : buf.length < _ + other)]
          | _ => rfl

theorem decodeLoop_counts (bounded : buf.length < 2 ^ 31 - 4) (noWrap : NoWrap type buf)
    {fuel : Nat} : ∀ {offset : Nat} {total : Int}, FrameStart type buf offset →
      buf.length < offset + fuel → 0 ≤ total → total ≤ buf.length →
      ∃ consumed msgs, decodeLoop type buf (int32 buf.length) fuel offset total =
        .ok (consumed, msgs) ∧ 0 ≤ consumed ∧ consumed ≤ buf.length := by
  induction fuel with
  | zero =>
      intro offset total start enough _ _
      have inside := start.le
      omega
  | succ fuel ih =>
      intro offset total start enough low high
      rw [decodeLoop_round bounded start.le]
      have found := round_found type buf offset
      cases looked : round type buf offset with
      | short | incomplete => exact ⟨total, [], rfl, low, high⟩
      | wrapped msgSize =>
          rw [looked] at found
          obtain ⟨rest, read, wraps⟩ := found
          exact absurd (noWrap offset msgSize rest start read) (Nat.not_lt_of_le wraps)
      | unparsed msgSize => exact ⟨0, [], rfl, Int.le_refl 0, Int.natCast_nonneg _⟩
      | parsed msgSize msg =>
          rw [looked] at found
          obtain ⟨rest, read, complete, parsed⟩ := found
          obtain ⟨consumed, msgs, looped, counts⟩ :=
            ih (start.next read complete parsed) (by omega)
              (Int.natCast_nonneg (offset + 4 + msgSize)) (by omega)
          refine ⟨consumed, msg :: msgs, ?_, counts⟩
          simp only [looped]
          rfl

theorem parseCalls_ranges (bounded : buf.length < 2 ^ 31 - 4) (noWrap : NoWrap type buf)
    {fuel : Nat} : ∀ {offset : Nat}, FrameStart type buf offset →
      ∀ call ∈ parseCalls type buf (int32 buf.length) fuel offset,
        (offset : Int) ≤ call.offset ∧ call.offset + 4 + call.msgSize ≤ buf.length := by
  induction fuel with
  | zero =>
      intro offset _ call member
      cases member
  | succ fuel ih =>
      intro offset start call member
      rw [parseCalls_round bounded start.le] at member
      have found := round_found type buf offset
      cases looked : round type buf offset with
      | short | incomplete =>
          rw [looked] at member
          cases member
      | wrapped msgSize =>
          rw [looked] at found
          obtain ⟨rest, read, wraps⟩ := found
          exact absurd (noWrap offset msgSize rest start read) (Nat.not_lt_of_le wraps)
      | unparsed msgSize =>
          rw [looked] at found member
          cases List.mem_singleton.mp member
          simp only
          omega
      | parsed msgSize msg =>
          rw [looked] at found member
          obtain ⟨rest, read, complete, parsed⟩ := found
          rcases List.mem_cons.mp member with same | later
          · cases same
            simp only
            omega
          · have range := ih (start.next read complete parsed) call later
            omega

theorem parseCalls_grows (bounded : buf.length < 2 ^ 31 - 4) (noWrap : NoWrap type buf)
    {fuel : Nat} : ∀ {offset : Nat}, FrameStart type buf offset →
      (parseCalls type buf (int32 buf.length) fuel offset).Pairwise
        fun earlier later => earlier.offset + 4 ≤ later.offset := by
  induction fuel with
  | zero =>
      intro offset _
      exact List.Pairwise.nil
  | succ fuel ih =>
      intro offset start
      rw [parseCalls_round bounded start.le]
      have found := round_found type buf offset
      cases looked : round type buf offset with
      | short | incomplete => exact List.Pairwise.nil
      | wrapped msgSize | unparsed msgSize => exact List.pairwise_singleton _ _
      | parsed msgSize msg =>
          rw [looked] at found
          obtain ⟨rest, read, complete, parsed⟩ := found
          have next := start.next read complete parsed
          refine List.pairwise_cons.mpr ⟨fun later member => ?_, ih next⟩
          have range := (parseCalls_ranges bounded noWrap next later member).1
          simp only
          omega

/-- The loop reaches every frame start of the buffer. -/
theorem FrameStart.reached (bounded : buf.length < 2 ^ 31 - 4) {offset : Nat}
    (start : FrameStart type buf offset) :
    ∃ fuel, buf.length < offset + fuel ∧
      ∀ call ∈ parseCalls type buf (int32 buf.length) fuel offset, call ∈ calls type buf := by
  induction start with
  | front => exact ⟨buf.length + 1, by omega, fun _ member => member⟩
  | @next offset msgSize rest msg before read complete parsed ih =>
      obtain ⟨fuel, enough, kept⟩ := ih
      cases fuel with
      | zero => omega
      | succ fuel =>
          have small := (read_bounds read).2
          have looked : round type buf offset = .parsed msgSize msg := by
            simp only [round, read, if_neg (show ¬ 2 ^ 32 ≤ offset + 4 + msgSize by omega),
              if_neg (Nat.not_lt_of_le complete), parsed]
          refine ⟨fuel, by omega, fun call member => kept call ?_⟩
          rw [parseCalls_round bounded before.le, looked]
          exact List.mem_cons_of_mem _ member

theorem Inside.noWrap (bounded : buf.length < 2 ^ 31 - 4) (inside : Inside type buf) :
    NoWrap type buf := by
  intro offset msgSize rest start read
  by_contra wraps
  have looked : round type buf offset = .wrapped msgSize := by
    simp only [round, read, if_pos (Nat.le_of_not_lt wraps)]
  obtain ⟨fuel, enough, kept⟩ := start.reached bounded
  have le := start.le
  cases fuel with
  | zero => omega
  | succ fuel =>
      have range := (inside.ranges ⟨offset, msgSize⟩ (kept _ (by
        rw [parseCalls_round bounded start.le, looked]
        exact List.mem_singleton_self _))).2
      simp only at range
      omega

theorem inside_iff_noWrap (type : MessageType Message) (buf : List UInt8)
    (bounded : buf.length < 2 ^ 31 - 4) : Inside type buf ↔ NoWrap type buf := by
  refine ⟨fun inside => inside.noWrap bounded, fun noWrap => ?_⟩
  have start : FrameStart type buf 0 := .front
  exact {
    ranges := fun call member => parseCalls_ranges bounded noWrap start call member
    grows := parseCalls_grows bounded noWrap start
    ends := fun fuel enough => decodeLoop_fuel bounded 0 (Nat.zero_le _) (by omega) (by omega)
    counts := decodeLoop_counts bounded noWrap start (by omega) (Int.le_refl 0)
      (Int.natCast_nonneg _) }

theorem inside_iff_noWrap_twoFlags :
    let buf : List UInt8 := [2, 0, 0, 0, 8, 1, 0, 0, 0, 0]
    calls Receiver.flagType buf = [⟨0, 2⟩, ⟨6, 0⟩] ∧
      (Inside Receiver.flagType buf ↔ NoWrap Receiver.flagType buf) :=
  ⟨by decide +kernel, inside_iff_noWrap Receiver.flagType _ (by decide)⟩

/-- The length `2 ^ 32 - 4` at the front of a buffer takes the sum to 0. -/
theorem wrappedLength_not_inside :
    let buf : List UInt8 := [252, 255, 255, 255]
    buf.length < 2 ^ 31 - 4 ∧ ¬ Inside Receiver.flagType buf := by
  refine ⟨by decide, fun inside => ?_⟩
  have called : (⟨0, 2 ^ 32 - 4⟩ : ParseCall) ∈ calls Receiver.flagType [252, 255, 255, 255] := by
    decide +kernel
  have range := (inside.ranges _ called).2
  revert range
  decide

end SpecifiedDecoder

end ProtoCore.Topic
