import ProtoCore.Library.FixedWidth
import ProtoCore.Library.FrameStream

/-!
# Frames of a topic

`serialize` puts a 32-bit length before the serialised message. The decoder of a
topic takes complete frames off the front of a connection's buffer, and passes
each message to all callbacks of the topic.
-/

set_option autoImplicit false

namespace ProtoCore.Topic

open Library

/-- The generated code of one message type. `ByteSize()` is documented as the
number of bytes `SerializeToCodedStream` writes, so it is the length here. -/
structure MessageType (Message : Type) where
  serializeToCodedStream : Message → List UInt8
  parseFromArray : List UInt8 → Option Message

namespace MessageType

variable {Message : Type} (type : MessageType Message)

/-- Parsing a serialised message gives the message back. -/
def RoundTrip : Prop :=
  ∀ message, type.parseFromArray (type.serializeToCodedStream message) = some message

def byteSize (message : Message) : Nat := (type.serializeToCodedStream message).length

def serialize (message : Message) : List UInt8 :=
  littleEndian32 (type.byteSize message) ++ type.serializeToCodedStream message

end MessageType

/-- `ParseFromArray` called on bytes that are not in the buffer. -/
structure OutsideBuffer where
  offset : Int
  msgSize : Nat
  deriving DecidableEq, Repr

structure SpecifiedDecoder (Message Callback : Type) where
  msgs : List Message
  functions : List Callback

namespace SpecifiedDecoder

variable {Message Callback : Type}

/-- The loop of `decode`, in `int` and `uint32_t` arithmetic. It returns the
count of bytes to delete and the messages pushed, which stay pushed when a
later frame does not parse and the count is 0. -/
def decodeLoop (type : MessageType Message) (buf : List UInt8) (bufSize : Int) :
    Nat → Int → Int → Except OutsideBuffer (Int × List Message)
  | 0, _, totalBytesConsumed => .ok (totalBytesConsumed, [])
  | fuel + 1, offset, totalBytesConsumed =>
      if int32 (offset + 4) ≤ bufSize then
        -- a failed read leaves `msg_size` at its initial 0
        let msgSize := ((readLittleEndian32 (buf.drop offset.toNat)).map Prod.fst).getD 0
        if uint32 (offset + 4 + msgSize) > uint32 bufSize then .ok (totalBytesConsumed, [])
        else if buf.length < offset + 4 + msgSize then .error ⟨offset, msgSize⟩
        else
          match type.parseFromArray ((buf.drop (offset.toNat + 4)).take msgSize) with
          | none => .ok (0, [])
          | some msg => do
              let offset := int32 (offset + 4 + msgSize)
              let (consumed, msgs) ← decodeLoop type buf bufSize fuel offset offset
              return (consumed, msg :: msgs)
      else .ok (totalBytesConsumed, [])

/-- Every round of the loop takes at least the four bytes of a length. -/
def decode (type : MessageType Message) (decoder : SpecifiedDecoder Message Callback)
    (buf : List UInt8) : Except OutsideBuffer (Int × SpecifiedDecoder Message Callback) := do
  let (consumed, msgs) ← decodeLoop type buf (int32 buf.length) (buf.length + 1) 0 0
  return (consumed, { decoder with msgs := decoder.msgs ++ msgs })

/-- `handle` takes every message off the queue and passes it to each callback. -/
def handle (decoder : SpecifiedDecoder Message Callback) :
    List (Callback × Message) × SpecifiedDecoder Message Callback :=
  (decoder.msgs.flatMap fun msg => decoder.functions.map fun f => (f, msg),
    { decoder with msgs := [] })

end SpecifiedDecoder

/-- The buffer of one connection, the decoder of its topic, and the calls made. -/
structure Receiver (Message Callback : Type) where
  fdReceiveData : List UInt8
  decoder : SpecifiedDecoder Message Callback
  calls : List (Callback × Message)

namespace Receiver

variable {Message Callback : Type}

def connected (functions : List Callback) : Receiver Message Callback :=
  { fdReceiveData := [], decoder := { msgs := [], functions := functions }, calls := [] }

/-- What `handle_client_event` does with the bytes of one `recv`. -/
def receive (type : MessageType Message) (receiver : Receiver Message Callback)
    (chunk : List UInt8) : Except OutsideBuffer (Receiver Message Callback) := do
  let data := receiver.fdReceiveData ++ chunk
  let (deleteSize, decoder) ← receiver.decoder.decode type data
  let (calls, decoder) := decoder.handle
  return {
    fdReceiveData := data.drop deleteSize.toNat
    decoder := decoder
    calls := receiver.calls ++ calls }

def receiveAll (type : MessageType Message) :
    Receiver Message Callback → List (List UInt8) → Except OutsideBuffer (Receiver Message Callback)
  | receiver, [] => .ok receiver
  | receiver, chunk :: chunks => do
      let next ← receiver.receive type chunk
      receiveAll type next chunks

end Receiver

end ProtoCore.Topic
