import ProtoCore.Params.ClientClub

/-!
# Parameters and their types

The server keeps a pointer to `ParameterBase` for each name and the clients a payload for
each slot. A local call casts the pointer to the type that it is instantiated with, and a
remote one unpacks or packs a payload of any type.
-/

set_option autoImplicit false

namespace ProtoCore.Params

open Library

structure AnyPayload where
  typeUrl : String
  value : List UInt8
  deriving DecidableEq, Repr

/-- What protobuf does for the message types of a program. `held` is the value of a type that
a payload carries, if its type is that one and its body is well formed. `unpackTo` yields its
result and the message afterwards. -/
structure Codec {Kind : Type} (Message : Kind → Type) where
  held : (kind : Kind) → AnyPayload → Option (Message kind)
  unpackTo : (kind : Kind) → AnyPayload → Message kind → Bool × Message kind
  packFrom : (kind : Kind) → Message kind → AnyPayload

namespace Codec

/-- The documentation of `UnpackTo`, which leaves open what a failure does to the message. -/
structure Documented {Kind : Type} {Message : Kind → Type} (codec : Codec Message) : Prop where
  unpacks : ∀ kind payload value message, codec.held kind payload = some value →
    codec.unpackTo kind payload message = (true, value)
  refuses : ∀ kind payload message, codec.held kind payload = none →
    (codec.unpackTo kind payload message).1 = false

end Codec

variable {Kind Callback : Type} {Message : Kind → Type}

/-- A `Parameter` of some type, as `ParameterBase` knows it. -/
structure Parameter (Message : Kind → Type) where
  kind : Kind
  val : Message kind

namespace Parameter

/-- The result of `UnpackTo` is dropped. -/
def setRemoteValue (codec : Codec Message) (parameter : Parameter Message)
    (payload : AnyPayload) : Parameter Message :=
  { parameter with val := (codec.unpackTo parameter.kind payload parameter.val).2 }

def getRemoteValue (codec : Codec Message) (parameter : Parameter Message) : AnyPayload :=
  codec.packFrom parameter.kind parameter.val

end Parameter

/-- The parameters of a node. `notified` counts the calls of `notify_all`. -/
structure TypedServer (Message : Kind → Type) where
  params : String → Option (Parameter Message)
  paramsVersion : String → Int
  isConstParams : List String
  notified : Nat

namespace TypedServer

def initial : TypedServer Message where
  params _ := none
  paramsVersion _ := 0
  isConstParams := []
  notified := 0

def findParam (server : TypedServer Message) (name : String) : Bool := (server.params name).isSome

def isConst (server : TypedServer Message) (name : String) : Bool := name ∈ server.isConstParams

/-- The body of every call that writes: the value, its version, and the watchers. -/
def write (server : TypedServer Message) (name : String) (parameter : Parameter Message)
    (version : Int) : TypedServer Message :=
  { server with
    params := Function.update server.params name (some parameter)
    paramsVersion := Function.update server.paramsVersion name version
    notified := server.notified + 1 }

def declare (server : TypedServer Message) (kind : Kind) (name : String) (val : Message kind)
    (isConst : Bool) : TypedServer Message :=
  if server.findParam name then server
  else
    let server := server.write name ⟨kind, val⟩ 1
    if isConst then { server with isConstParams := name :: server.isConstParams } else server

/-- `params_version[name]++`, on an atomic int. -/
def nextVersion (server : TypedServer Message) (name : String) : Int :=
  int32 (server.paramsVersion name + 1)

def setRemoteParam (codec : Codec Message) (server : TypedServer Message) (name : String)
    (payload : AnyPayload) : ParameterStatus × TypedServer Message :=
  if server.isConst name then (.notChangeable, server)
  else
    match server.params name with
    | none => (.tmepNotAvaliable, server)
    | some parameter =>
        (.normal,
          server.write name (parameter.setRemoteValue codec payload) (server.nextVersion name))

end TypedServer

namespace ParamRPCClientClub

/-- The payload of a reply that has none is the default one. -/
def payloadOf (reply : GetParamRPCReply AnyPayload) : AnyPayload := reply.payload.getD ⟨"", []⟩

/-- `getRemoteRequest` with the type of its output. -/
def getTypedRequest (codec : Codec Message)
    (club : ParamRPCClientClub Callback AnyPayload) (kind : Kind) (namespace_ name : String)
    (reply : Message kind) :
    ParameterStatus × Message kind × ParamRPCClientClub Callback AnyPayload :=
  match club.clients namespace_ with
  | none => (.tmepNotAvaliable, reply, club)
  | some _ =>
      let (club, received) := club.getRemoteRequest namespace_ name
      (received.status, (codec.unpackTo kind (payloadOf received) reply).2, club)

end ParamRPCClientClub

/-- The effect on the name is that of the untyped server, with what the unpacking leaves as the
new value. -/
theorem TypedServer.setRemoteParam_assigned (codec : Codec Message) (server : TypedServer Message)
    {name : String} (payload : AnyPayload) {parameter : Parameter Message}
    (changeable : server.isConst name = false) (located : server.params name = some parameter) :
    let update := Update.setRemoteParam name (some (parameter.setRemoteValue codec payload))
    let answer := server.setRemoteParam codec name payload
    some answer.1 = update.status ∧
      answer.2.params name = update.assigned (server.params name) ∧
      answer.2.paramsVersion name = update.counted (server.paramsVersion name) := by
  intro update answer
  have answered : answer = (.normal, server.write name (parameter.setRemoteValue codec payload)
      (server.nextVersion name)) := by
    simp only [answer, TypedServer.setRemoteParam, changeable, located, Bool.false_eq_true,
      if_false]
  rw [answered, located]
  exact ⟨rfl, Function.update_self .., Function.update_self ..⟩

/-! ## Messages of two types -/

/-- `std_msgs.Bool` and `std_msgs.Int32`. -/
inductive Sample where
  | bool
  | int32
  deriving DecidableEq, Repr

namespace Sample

def Data : Sample → Type
  | .bool => Bool
  | .int32 => Int

instance : (kind : Sample) → DecidableEq (Data kind)
  | .bool => inferInstanceAs (DecidableEq Bool)
  | .int32 => inferInstanceAs (DecidableEq Int)

def typeUrl : Sample → String
  | .bool => "type.googleapis.com/std_msgs.Bool"
  | .int32 => "type.googleapis.com/std_msgs.Int32"

def dataOf : (kind : Sample) → Nat → Data kind
  | .bool, data => (decide (data ≠ 0) : Bool)
  | .int32, data => (data : Int)

/-- Bodies with at most the field `data`, in a varint of one byte. -/
def parse (kind : Sample) : List UInt8 → Option (Data kind)
  | [] => some (dataOf kind 0)
  | [8, data] => if data < 128 then some (dataOf kind data.toNat) else none
  | _ => none

def serializeBool (data : Bool) : List UInt8 := if data then [8, 1] else []

def serializeInt32 (data : Int) : List UInt8 :=
  if data = 0 then [] else [8, UInt8.ofNat data.toNat]

def serialize : (kind : Sample) → Data kind → List UInt8
  | .bool => serializeBool
  | .int32 => serializeInt32

/-- Parsing clears the message first. -/
def codec : Codec Data where
  held kind payload := if payload.typeUrl = typeUrl kind then parse kind payload.value else none
  unpackTo kind payload message :=
    if payload.typeUrl = typeUrl kind then
      match parse kind payload.value with
      | some value => (true, value)
      | none => (false, dataOf kind 0)
    else (false, message)
  packFrom kind message := ⟨typeUrl kind, serialize kind message⟩

theorem codec_documented : codec.Documented where
  unpacks kind payload value message held := by
    simp only [codec] at held ⊢
    split at held
    · rename_i same
      rw [if_pos same, held]
    · cases held
  refuses kind payload message held := by
    simp only [codec] at held ⊢
    split at held
    · rename_i same
      rw [if_pos same, held]
    · rename_i other
      rw [if_neg other]

end Sample

end ProtoCore.Params
