import Mathlib.Data.Finset.Basic
import ProtoCore.Library.FixedWidth

/-!
# The publisher's sockets

`TCPClient` keeps the sockets of each topic and, for each socket, the bytes that
`write` has not yet taken. What the kernel has taken is part of the state, and so
is the thread's `errno`, which only a failing call changes.
-/

set_option autoImplicit false

namespace ProtoCore.Topic

open Library

def EAGAIN : Int := 11

def maxWriteBufferSize : Nat := 65536

/-! ## Vectors that grow -/

/-- `resize` by a fixed step, once, for an index that is not there. -/
def grow {Value : Type} (values : List Value) (empty : Value) (index : Nat) : List Value :=
  if values.length ≤ index then values ++ List.replicate 100 empty else values

/-- One growth makes room for the index. -/
def Reaches {Value : Type} (values : List Value) (index : Nat) : Prop :=
  index < values.length + 100

instance {Value : Type} (values : List Value) (index : Nat) : Decidable (Reaches values index) :=
  inferInstanceAs (Decidable (_ < _))

section Grow

variable {Value : Type} {values : List Value} {empty value : Value} {index other : Nat}

theorem getElem?_grow (located : values[other]? = some value) :
    (grow values empty index)[other]? = some value := by
  unfold grow
  split
  · rw [List.getElem?_append_left (List.getElem?_eq_some_iff.mp located).1]
    exact located
  · exact located

theorem getElem?_grow_cases (located : (grow values empty index)[other]? = some value) :
    values[other]? = some value ∨ value = empty := by
  unfold grow at located
  split at located
  · rw [List.getElem?_append] at located
    split at located
    · exact .inl located
    · exact .inr (List.eq_of_mem_replicate (List.mem_of_getElem? located))
  · exact .inl located

theorem lt_length_grow_iff (empty : Value) :
    index < (grow values empty index).length ↔ Reaches values index := by
  unfold grow Reaches
  split
  · rw [List.length_append, List.length_replicate]
  · omega

theorem lt_length_grow (empty : Value) (reaches : Reaches values index) :
    index < (grow values empty index).length :=
  (lt_length_grow_iff empty).mpr reaches

theorem length_le_grow (values : List Value) (empty : Value) (index : Nat) :
    values.length ≤ (grow values empty index).length := by
  unfold grow
  split
  · rw [List.length_append]
    exact Nat.le_add_right ..
  · exact Nat.le_refl _

end Grow

/-! ## Sockets -/

structure TCPClient where
  clientsTopicFd : String → Finset Nat
  clientsData : List (List UInt8)
  staticTopicCache : String → Finset (List UInt8)

inductive WriteResult where
  | accepted (count : Nat)
  | error (errno : Int)
  deriving DecidableEq, Repr

/-- A call of `write(2)`: what it offered, under which `errno`, and its result. -/
structure WriteCall where
  fd : Nat
  offered : Int
  errno : Int
  result : WriteResult
  deriving DecidableEq, Repr

structure Kernel where
  errno : Int
  opened : Finset Nat
  accepted : Nat → List UInt8

/-- `write(2)` of `bytes`: the value it returns, and the bytes taken from the front. -/
def Kernel.write (kernel : Kernel) (fd : Nat) (bytes : List UInt8) :
    WriteResult → Option (Int × Kernel)
  | .accepted count =>
      if count ≤ bytes.length then
        some (count, { kernel with
          accepted := Function.update kernel.accepted fd
            (kernel.accepted fd ++ bytes.take count) })
      else none
  | .error errno => some (-1, { kernel with errno := errno })

/-- How the loop of `write_fd` ends: whether the socket is still good, and `n`. -/
structure WriteLoopEnd where
  ok : Bool
  n : Int
  kernel : Kernel
  results : List WriteResult
  calls : List WriteCall

/-- The loop of `write_fd`. It has no end while a result is missing. -/
def writeLoop (fd : Nat) (toSend : List UInt8) (siz : Int) :
    List WriteResult → Int → Kernel → Option WriteLoopEnd
  | [], n, kernel => if 0 < n then none else some ⟨true, n, kernel, [], []⟩
  | result :: results, n, kernel =>
      if 0 < n then
        let call : WriteCall := { fd := fd, offered := n, errno := kernel.errno, result := result }
        match kernel.write fd ((toSend.drop (siz - n).toNat).take n.toNat) result with
        | none => none
        | some (nwrite, kernel) =>
            if nwrite < n ∧ nwrite = -1 ∧ kernel.errno ≠ EAGAIN then
              some ⟨false, n, kernel, results, [call]⟩
            else if nwrite < n ∧ kernel.errno = EAGAIN then
              some ⟨true, n, kernel, results, [call]⟩
            else
              (writeLoop fd toSend siz results (n - nwrite) kernel).map fun final =>
                { final with calls := call :: final.calls }
      else some ⟨true, n, kernel, result :: results, []⟩

/-- A publisher with the record of what each socket is owed: the data queued when
the connection was completed, and the frames appended since. -/
structure Publishing where
  client : TCPClient
  kernel : Kernel
  initial : Nat → List UInt8
  frames : Nat → List (List UInt8)

namespace Publishing

/-- A publisher after its constructor. -/
def new : Publishing where
  client := {
    clientsTopicFd := fun _ => ∅
    clientsData := List.replicate 100 []
    staticTopicCache := fun _ => ∅ }
  kernel := { errno := 0, opened := ∅, accepted := fun _ => [] }
  initial := fun _ => []
  frames := fun _ => []

structure Written where
  ok : Bool
  state : Publishing
  results : List WriteResult
  calls : List WriteCall

def dropSocket (state : Publishing) (topic : String) (fd : Nat) (kernel : Kernel) : Publishing :=
  { state with
    client := { state.client with
      clientsTopicFd := Function.update state.client.clientsTopicFd topic
        ((state.client.clientsTopicFd topic).erase fd)
      clientsData := state.client.clientsData.set fd [] }
    kernel := { kernel with opened := kernel.opened.erase fd } }

def keepUnsent (state : Publishing) (fd : Nat) (unsent : List UInt8) (kernel : Kernel) :
    Publishing :=
  { state with
    client := { state.client with clientsData := state.client.clientsData.set fd unsent }
    kernel := kernel }

def writeFd (state : Publishing) (topic : String) (fd : Nat) (results : List WriteResult) :
    Option Written :=
  match state.client.clientsData[fd]? with
  | none => none
  | some toSend =>
      let siz := int32 toSend.length
      (writeLoop fd toSend siz results siz state.kernel).map fun final =>
        { ok := final.ok
          state := if final.ok
            then state.keepUnsent fd (toSend.drop (siz - final.n).toNat) final.kernel
            else state.dropSocket topic fd final.kernel
          results := final.results
          calls := final.calls }

def append (state : Publishing) (fd : Nat) (data msg : List UInt8) : Publishing :=
  { state with
    client := { state.client with clientsData := state.client.clientsData.set fd (data ++ msg) }
    frames := Function.update state.frames fd (state.frames fd ++ [msg]) }

def writeSockets (topic : String) (msg : List UInt8) :
    List Nat → Publishing → List WriteResult → Option Written
  | [], state, results => some ⟨true, state, results, []⟩
  | fd :: fds, state, results =>
      match state.client.clientsData[fd]? with
      | none => none
      | some data =>
          if maxWriteBufferSize < data.length then writeSockets topic msg fds state results
          else
            match (state.append fd data msg).writeFd topic fd results with
            | none => none
            | some written =>
                if written.ok then
                  (writeSockets topic msg fds written.state written.results).map fun final =>
                    { final with calls := written.calls ++ final.calls }
                else some written

/-- A new socket is registered, with the whole cache of its topic queued. -/
def connect (state : Publishing) (topic : String) (fd : Nat) (cache : List (List UInt8)) :
    Publishing where
  client := { state.client with
    clientsTopicFd := Function.update state.client.clientsTopicFd topic
      (insert fd (state.client.clientsTopicFd topic))
    clientsData := (grow state.client.clientsData [] fd).set fd cache.flatten }
  kernel := { state.kernel with
    opened := insert fd state.kernel.opened
    accepted := Function.update state.kernel.accepted fd [] }
  initial := Function.update state.initial fd cache.flatten
  frames := Function.update state.frames fd []

/-- The completion of `add_client`: register the socket, queue the whole cache,
and write. Only a socket that is not open can be a new one. -/
def complete (state : Publishing) (topic : String) (fd : Nat) (cache : List (List UInt8))
    (results : List WriteResult) : Option Written :=
  if fd ∉ state.kernel.opened ∧ fd < (grow state.client.clientsData [] fd).length ∧
      cache.Nodup ∧ cache.toFinset = state.client.staticTopicCache topic then
    (state.connect topic fd cache).writeFd topic fd results
  else none

inductive Operation where
  | writeToCache (topic : String) (data : List UInt8)
  | writeToSocket (topic : String) (msg : List UInt8) (order : List Nat) (errno : Int)
      (results : List WriteResult)
  | complete (topic : String) (fd : Nat) (cache : List (List UInt8)) (errno : Int)
      (results : List WriteResult)

/-- An operation under the lock: the iteration order of the unordered set, the
`errno` of its thread and the results of its writes come from outside. -/
def perform (state : Publishing) : Operation → Option Written
  | .writeToCache topic data =>
      some ⟨data ∉ state.client.staticTopicCache topic, { state with
        client := { state.client with
          staticTopicCache := Function.update state.client.staticTopicCache topic
            (insert data (state.client.staticTopicCache topic)) } }, [], []⟩
  | .writeToSocket topic msg order errno results =>
      if order.Nodup ∧ order.toFinset = state.client.clientsTopicFd topic then
        writeSockets topic msg order
          { state with kernel := { state.kernel with errno := errno } } results
      else none
  | .complete topic fd cache errno results =>
      ({ state with kernel := { state.kernel with errno := errno } } : Publishing).complete
        topic fd cache results

end Publishing

end ProtoCore.Topic
