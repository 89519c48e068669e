import Mathlib.Logic.Function.Basic
import ProtoCore.Params.ParamServer

/-!
# The parameter client

A client keeps a slot for each name it has asked for, with the reply received last. The
first call for a name opens a stream and its reader thread. A call with a callback puts a
new slot in place of the old one, and the reader goes on with whatever slot it finds.
-/

set_option autoImplicit false

namespace ProtoCore.Params

open Library

variable {Callback Value : Type}

/-- The reply that a new slot holds, and that a call has before it finds a slot. -/
def unavailable : GetParamRPCReply Value := { status := .tmepNotAvaliable, payload := none }

/-- A `ParamSlot`, or with a callback a `DynamicParamSlot`. -/
structure ParamSlot (Callback Value : Type) where
  data : GetParamRPCReply Value
  cb : Option Callback
  deriving DecidableEq, Repr

namespace ParamSlot

def new (cb : Option Callback) : ParamSlot Callback Value where
  data := unavailable
  cb := cb

def set (slot : ParamSlot Callback Value) (reply : GetParamRPCReply Value) :
    ParamSlot Callback Value :=
  { slot with data := reply }

/-- A value starts a thread that passes it to the callback. -/
def starts (slot : ParamSlot Callback Value) (reply : GetParamRPCReply Value) : Bool :=
  slot.cb.isSome && reply.status == .normal

end ParamSlot

/-- A thread of `write_thread`, which reads one stream. -/
structure Reader where
  name : String
  ended : Bool
  deriving DecidableEq, Repr

/-- The slots ever made, by number. A slot that is no longer in `get_replies` is not freed. -/
structure ParamRPCClient (Callback Value : Type) where
  slots : List (ParamSlot Callback Value)
  getReplies : String → Option Nat
  writeThread : List Reader

namespace ParamRPCClient

def new : ParamRPCClient Callback Value where
  slots := []
  getReplies _ := none
  writeThread := []

def findParam (client : ParamRPCClient Callback Value) (name : String) : Bool :=
  (client.getReplies name).isSome

def activeSlot (client : ParamRPCClient Callback Value) (name : String) :
    Option (ParamSlot Callback Value) :=
  (client.getReplies name).bind fun id => client.slots[id]?

def callback (client : ParamRPCClient Callback Value) (id : Nat) : Option Callback :=
  (client.slots[id]?).bind ParamSlot.cb

def putSlot (client : ParamRPCClient Callback Value) (name : String) (cb : Option Callback) :
    ParamRPCClient Callback Value :=
  { client with
    slots := client.slots ++ [.new cb]
    getReplies := Function.update client.getReplies name (some client.slots.length) }

/-- The part of the shared section that comes before the slot is read. -/
def replaceSlot (client : ParamRPCClient Callback Value) (name : String) :
    Option Callback → ParamRPCClient Callback Value
  | none => client
  | some cb => client.putSlot name (some cb)

def openReader (client : ParamRPCClient Callback Value) (name : String) :
    ParamRPCClient Callback Value :=
  { client with writeThread := client.writeThread ++ [{ name := name, ended := false }] }

def setSlot (client : ParamRPCClient Callback Value) (id : Nat)
    (slot : ParamSlot Callback Value) : ParamRPCClient Callback Value :=
  { client with slots := client.slots.set id slot }

def endReader (client : ParamRPCClient Callback Value) (index : Nat) (reader : Reader) :
    ParamRPCClient Callback Value :=
  { client with writeThread := client.writeThread.set index { reader with ended := true } }

/-- A whole call, when no other call comes between its sections. -/
def getRemoteParam (client : ParamRPCClient Callback Value) (name : String)
    (cb : Option Callback) : ParamRPCClient Callback Value × GetParamRPCReply Value :=
  if client.findParam name then
    let client := client.replaceSlot name cb
    (client, ((client.activeSlot name).map ParamSlot.data).getD unavailable)
  else ((client.putSlot name cb).openReader name, unavailable)

/-- The destructor joins the reader threads. -/
def joined (client : ParamRPCClient Callback Value) : Bool := client.writeThread.all Reader.ended

theorem activeSlot_putSlot (client : ParamRPCClient Callback Value) (name : String)
    (cb : Option Callback) : (client.putSlot name cb).activeSlot name = some (.new cb) := by
  simp [activeSlot, putSlot]

theorem callback_setSlot {client : ParamRPCClient Callback Value} {id : Nat}
    {slot : ParamSlot Callback Value} (located : client.slots[id]? = some slot)
    (reply : GetParamRPCReply Value) (other : Nat) :
    (client.setSlot id (slot.set reply)).callback other = client.callback other := by
  obtain ⟨inside, rfl⟩ := List.getElem?_eq_some_iff.mp located
  unfold callback setSlot
  by_cases same : id = other
  · subst same
    rw [List.getElem?_set_self inside, located]
    rfl
  · rw [List.getElem?_set_ne same]

end ParamRPCClient

/-! ## Calls, readers and callback threads -/

/-- The next section of a call. `share` takes the shared lock that `get` gives back. -/
inductive CallPc where
  | find
  | share
  | get
  | create
  | pull
  | done
  deriving DecidableEq, Repr

/-- A call of `getRemoteParam`. `available` notes that a reply for the name had been received
when the call was made. -/
structure RemoteCall (Callback : Type) where
  name : String
  cb : Option Callback
  pc : CallPc
  available : Bool
  deriving DecidableEq, Repr

/-- A reply that a reader has stored, and the slot it has stored it in. -/
structure Received (Value : Type) where
  name : String
  slot : Nat
  reply : GetParamRPCReply Value
  deriving DecidableEq, Repr

/-- A reply for the callback of a slot. -/
structure Invocation (Value : Type) where
  slot : Nat
  reply : GetParamRPCReply Value
  deriving DecidableEq, Repr

/-- What a call has returned, with the reply received last on the name by then. -/
structure RemoteAnswer (Value : Type) where
  name : String
  reply : GetParamRPCReply Value
  available : Bool
  latest : Option (GetParamRPCReply Value)
  deriving DecidableEq, Repr

/-- A client with the calls in progress, the callback threads not yet run, and records of what
was received, handed to callbacks and returned. -/
structure RemoteParams (Callback Value : Type) where
  client : ParamRPCClient Callback Value
  calls : List (RemoteCall Callback)
  threads : List (Invocation Value)
  received : List (Received Value)
  called : List (Invocation Value)
  answers : List (RemoteAnswer Value)

inductive RemoteAction (Callback Value : Type) where
  | getRemoteParam (name : String) (cb : Option Callback)
  | run (call : Nat)
  | receive (reader : Nat) (reply : GetParamRPCReply Value)
  | endReader (reader : Nat)
  | invoke (thread : Nat)
  deriving DecidableEq, Repr

namespace RemoteParams

def initial : RemoteParams Callback Value where
  client := .new
  calls := []
  threads := []
  received := []
  called := []
  answers := []

def lastReceived (state : RemoteParams Callback Value) (name : String) :
    Option (Received Value) :=
  (state.received.filter fun received => received.name = name).getLast?

/-- No call holds the shared lock. -/
def unshared (state : RemoteParams Callback Value) : Bool :=
  state.calls.all fun call => call.pc != .get

def setCall (state : RemoteParams Callback Value) (id : Nat) (call : RemoteCall Callback) :
    RemoteParams Callback Value :=
  { state with calls := state.calls.set id call }

def answer (state : RemoteParams Callback Value) (call : RemoteCall Callback)
    (reply : GetParamRPCReply Value) : RemoteParams Callback Value :=
  { state with
    answers := state.answers ++ [{
      name := call.name
      reply := reply
      available := call.available
      latest := (state.lastReceived call.name).map Received.reply }] }

def runCall (state : RemoteParams Callback Value) (id : Nat) (call : RemoteCall Callback) :
    Option (RemoteParams Callback Value) :=
  match call.pc with
  | .find =>
      some (state.setCall id { call with
        pc := if state.client.findParam call.name then .share else .create
        available := (state.lastReceived call.name).isSome })
  | .share =>
      some ({ state with client := state.client.replaceSlot call.name call.cb }.setCall id
        { call with pc := .get })
  | .get =>
      (state.client.activeSlot call.name).map fun slot =>
        (state.answer call slot.data).setCall id { call with pc := .done }
  | .create =>
      if state.unshared then
        some ({ state with client := state.client.putSlot call.name call.cb }.setCall id
          { call with pc := .pull })
      else none
  | .pull =>
      some ({ state with client := state.client.openReader call.name }.answer call
        unavailable |>.setCall id { call with pc := .done })
  | .done => none

/-- The reader stores the reply under the exclusive lock. -/
def receive (state : RemoteParams Callback Value) (reader : Reader)
    (reply : GetParamRPCReply Value) : Option (RemoteParams Callback Value) :=
  if !reader.ended && state.unshared then
    (state.client.getReplies reader.name).bind fun id =>
      (state.client.slots[id]?).map fun slot =>
        { state with
          client := state.client.setSlot id (slot.set reply)
          received := state.received ++ [{ name := reader.name, slot := id, reply := reply }]
          threads := if slot.starts reply then
              state.threads ++ [{ slot := id, reply := reply }]
            else state.threads }
  else none

def step (state : RemoteParams Callback Value) :
    RemoteAction Callback Value → Option (RemoteParams Callback Value)
  | .getRemoteParam name cb =>
      some { state with
        calls := state.calls ++ [{ name := name, cb := cb, pc := .find, available := false }] }
  | .run id => (state.calls[id]?).bind fun call => state.runCall id call
  | .receive index reply =>
      (state.client.writeThread[index]?).bind fun reader => state.receive reader reply
  | .endReader index =>
      (state.client.writeThread[index]?).map fun reader =>
        { state with client := state.client.endReader index reader }
  | .invoke index =>
      (state.threads[index]?).map fun invocation =>
        { state with
          threads := state.threads.eraseIdx index
          called := state.called ++ [invocation] }

def machine : Machine (RemoteParams Callback Value) (RemoteAction Callback Value) := ⟨step⟩

end RemoteParams

end ProtoCore.Params
