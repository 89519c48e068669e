import Mathlib.Data.Finset.Option
import ProtoCore.Library.Machine
import ProtoCore.Topic.SocketAddress
import ProtoCore.Topic.TCPClient

/-!
# The sockets of a publisher

A call of `add_client` opens a socket to a subscriber of a topic. While the connection is in
progress the call returns, and a detached thread waits for the socket, registers it and writes
the cache of its topic to it. The thread takes the lock only for that write, so it also runs
between two iterations of `write_to_socket`.
-/

set_option autoImplicit false

namespace ProtoCore.Topic

open Library

def EINPROGRESS : Int := 115

/-- `FD_SETSIZE`, the number of bits of an `fd_set`. -/
def fdSetsize : Nat := 1024

inductive ConnectResult where
  | connected
  | error (errno : Int)
  deriving DecidableEq, Repr

/-- What the system calls of one `add_client` return, those it does not reach included. The
booleans are whether a call succeeds, and `inetPton` whether its result is not 0. -/
structure ConnectCalls where
  socket : Option Nat
  getFlags : Bool
  setFlags : Bool
  inetPton : Bool
  connect : ConnectResult
  getsockname : Option SockaddrIn
  deriving DecidableEq, Repr

def ConnectCalls.setNonblock (calls : ConnectCalls) : Bool := calls.getFlags && calls.setFlags

inductive SocketInfo where
  | failed
  | null
  | info (srcIp : String) (srcPort : Int)
  deriving DecidableEq, Repr

/-- `get_socket_info`. The text goes to 15 characters, and is a string before it is tested. -/
def getSocketInfo : Option SockaddrIn → SocketInfo
  | none => .failed
  | some localAddr =>
      match inetNtop localAddr.sinAddr 15 with
      | none => .null
      | some srcIp => .info srcIp localAddr.sinPort.toNat

/-- What the thread of a call does next. A call without a thread has ended. -/
inductive ConnectStage where
  | select
  | resize
  | assign
  | notify
  | write
  | ended
  deriving DecidableEq, Repr

/-- A call of `add_client` with the `client_info` it returns and the account of its socket:
`shared` is whether its future has a state, `values` are what its promise was set to, and
`closes` counts the `close` calls that were meant for its socket. `isOpen` is lost with any
`close` of the number, and `inserted` remembers that the socket has been registered. -/
structure ConnectAttempt where
  topic : String
  fd : Option Nat
  ip : String
  port : Int
  address : Option SockaddrIn
  shared : Bool
  values : List Bool
  closes : Nat
  isOpen : Bool
  inserted : Bool
  registered : Bool
  stage : ConnectStage
  deriving DecidableEq, Repr

namespace ConnectAttempt

/-- `client_info{}`, whose future has no state. -/
def refused (topic : String) (fd : Option Nat) : ConnectAttempt where
  topic := topic
  fd := fd
  ip := ""
  port := 0
  address := none
  shared := false
  values := []
  closes := 0
  isOpen := fd.isSome
  inserted := false
  registered := false
  stage := .ended

def getFuture (attempt : ConnectAttempt) : ConnectAttempt := { attempt with shared := true }

def close (attempt : ConnectAttempt) : ConnectAttempt :=
  { attempt with closes := attempt.closes + 1, isOpen := false }

def setValue (attempt : ConnectAttempt) (value : Bool) : ConnectAttempt :=
  { attempt with values := attempt.values ++ [value] }

def enter (attempt : ConnectAttempt) (stage : ConnectStage) : ConnectAttempt :=
  { attempt with stage := stage }

def register (attempt : ConnectAttempt) : ConnectAttempt :=
  { attempt with inserted := true, registered := true }

def holds (attempt : ConnectAttempt) (topic : String) (fd : Nat) : Bool :=
  attempt.registered && attempt.topic == topic && attempt.fd == some fd

/-- The socket leaves the set of its topic. -/
def erase (attempt : ConnectAttempt) (topic : String) (fd : Nat) : ConnectAttempt :=
  if attempt.holds topic fd then { attempt with registered := false } else attempt

/-- The number is closed. -/
def release (attempt : ConnectAttempt) (fd : Nat) : ConnectAttempt :=
  if attempt.fd = some fd then { attempt with isOpen := false } else attempt

/-- The number is closed by the loop of the topic, which means the socket it has there. -/
def drop (attempt : ConnectAttempt) (topic : String) (fd : Nat) : ConnectAttempt :=
  if attempt.holds topic fd then (attempt.erase topic fd).close else attempt.release fd

end ConnectAttempt

/-- `add_client` up to the start of its thread. `create_socket` keeps a socket that it cannot
make non-blocking, and a string of a null pointer throws. -/
def connectAttempt (topic : String) (calls : ConnectCalls) : ConnectAttempt :=
  match calls.socket with
  | none => .refused topic none
  | some fd =>
      let attempt := ConnectAttempt.refused topic (some fd)
      if !calls.setNonblock then attempt
      else if !calls.inetPton then (attempt.getFuture.close).setValue false
      else
        match calls.connect with
        | .connected => attempt.getFuture
        | .error errno =>
            if errno ≠ EINPROGRESS then (attempt.getFuture.close).setValue false
            else
              match getSocketInfo calls.getsockname with
              | .failed => (attempt.getFuture.close.close).setValue false
              | .null => attempt
              | .info srcIp srcPort =>
                  { attempt.getFuture with
                    ip := srcIp
                    port := srcPort
                    address := calls.getsockname
                    stage := .select }

namespace Publishing

def withErrno (state : Publishing) (errno : Int) : Publishing :=
  { state with kernel := { state.kernel with errno := errno } }

/-- A new socket has taken no bytes. -/
def opening (state : Publishing) (fds : Finset Nat) : Publishing :=
  { state with kernel := { state.kernel with
    opened := state.kernel.opened ∪ fds
    accepted := fun fd => if fd ∈ fds then [] else state.kernel.accepted fd } }

def close (state : Publishing) (fd : Nat) : Publishing :=
  { state with kernel := { state.kernel with opened := state.kernel.opened.erase fd } }

def insertFd (state : Publishing) (topic : String) (fd : Nat) : Publishing :=
  { state with client := { state.client with
    clientsTopicFd := Function.update state.client.clientsTopicFd topic
      (insert fd (state.client.clientsTopicFd topic)) } }

def resize (state : Publishing) (fd : Nat) : Publishing :=
  { state with client := { state.client with
    clientsData := grow state.client.clientsData [] fd } }

def assign (state : Publishing) (fd : Nat) (cache : List (List UInt8)) : Publishing where
  client := { state.client with clientsData := state.client.clientsData.set fd cache.flatten }
  kernel := state.kernel
  initial := Function.update state.initial fd cache.flatten
  frames := Function.update state.frames fd []

end Publishing

/-- A call of `write_to_socket`, with the sockets that its loop has still to visit. -/
structure SocketLoop where
  topic : String
  msg : List UInt8
  fds : List Nat
  deriving DecidableEq, Repr

/-- A `TCPClient` with the calls of `add_client` there have been. Its lock is held while `loop`
is not over. It is `outside` when it has used an index that `clients_data` lacks, and `overrun`
when a thread has set a bit that its `fd_set` lacks; nothing is known of it then. -/
structure ClientSockets where
  publishing : Publishing
  attempts : List ConnectAttempt
  loop : Option SocketLoop
  outside : Bool
  overrun : Bool

/-- A statement of a thread has the index of its call; the other data come from outside. -/
inductive SocketAction where
  | addClient (topic : String) (calls : ConnectCalls)
  | select (index : Nat) (ready : Bool) (soError : Option Int)
  | resize (index : Nat)
  | assign (index : Nat) (cache : List (List UInt8))
  | notify (index : Nat)
  | write (index : Nat) (errno : Int) (results : List WriteResult)
  | writeToSocket (topic : String) (msg : List UInt8) (order : List Nat) (errno : Int)
  | writeNext (results : List WriteResult)
  | writeToCache (topic : String) (data : List UInt8)
  deriving DecidableEq, Repr

namespace ClientSockets

def initial : ClientSockets where
  publishing := .new
  attempts := []
  loop := none
  outside := false
  overrun := false

/-- An access has gone wrong. -/
def halted (sockets : ClientSockets) : Bool := sockets.outside || sockets.overrun

def indexOutside (sockets : ClientSockets) : ClientSockets := { sockets with outside := true }

def bitOutside (sockets : ClientSockets) : ClientSockets := { sockets with overrun := true }

def modify (sockets : ClientSockets) (index : Nat) (change : ConnectAttempt → ConnectAttempt) :
    ClientSockets :=
  { sockets with attempts := sockets.attempts.modify index change }

def update (sockets : ClientSockets) (publishing : Publishing) : ClientSockets :=
  { sockets with publishing := publishing }

def each (sockets : ClientSockets) (change : ConnectAttempt → ConnectAttempt) : ClientSockets :=
  { sockets with attempts := sockets.attempts.map change }

/-- The topic and the descriptor that the thread of a call has, at one of its stages. -/
def threadAt (sockets : ClientSockets) (index : Nat) (stage : ConnectStage) :
    Option (String × Nat) :=
  (sockets.attempts[index]?).bind fun attempt =>
    if attempt.stage = stage then attempt.fd.map fun fd => (attempt.topic, fd) else none

def addClient (sockets : ClientSockets) (topic : String) (calls : ConnectCalls) :
    ClientSockets :=
  let attempt := connectAttempt topic calls
  { sockets with
    publishing := sockets.publishing.opening (if attempt.isOpen then attempt.fd.toFinset else ∅)
    attempts := sockets.attempts ++ [attempt] }

/-- The thread closes its socket and gives up. -/
def giveUp (sockets : ClientSockets) (index fd : Nat) : ClientSockets :=
  ((sockets.update (sockets.publishing.close fd)).each (·.release fd)).modify index fun attempt =>
    (attempt.close.setValue false).enter .ended

/-- The thread from its `FD_SET` on, with the results of `select` and `getsockopt`. -/
def select (sockets : ClientSockets) (index : Nat) (topic : String) (fd : Nat) (ready : Bool)
    (soError : Option Int) : ClientSockets :=
  if fdSetsize ≤ fd then sockets.bitOutside
  else if ready then
    match soError with
    | none => sockets.modify index fun attempt => (attempt.setValue false).enter .ended
    | some err =>
        if err = 0 then
          (sockets.update (sockets.publishing.insertFd topic fd)).modify index fun attempt =>
            attempt.register.enter .resize
        else sockets.giveUp index fd
  else sockets.giveUp index fd

def resize (sockets : ClientSockets) (index fd : Nat) : ClientSockets :=
  (sockets.update (sockets.publishing.resize fd)).modify index (·.enter .assign)

def assign (sockets : ClientSockets) (index fd : Nat) (cache : List (List UInt8)) :
    ClientSockets :=
  if fd < sockets.publishing.client.clientsData.length then
    (sockets.update (sockets.publishing.assign fd cache)).modify index (·.enter .notify)
  else sockets.indexOutside

/-- The write of the thread, under the lock. -/
def write (sockets : ClientSockets) (index : Nat) (topic : String) (fd : Nat) (errno : Int)
    (results : List WriteResult) : Option ClientSockets :=
  if fd < sockets.publishing.client.clientsData.length then
    ((sockets.publishing.withErrno errno).writeFd topic fd results).map fun written =>
      if written.ok then (sockets.update written.state).modify index (·.enter .ended)
      else
        ((sockets.update written.state).each fun attempt =>
          (attempt.erase topic fd).release fd).modify index fun attempt =>
            attempt.close.enter .ended
  else some sockets.indexOutside

def writeToSocket (sockets : ClientSockets) (topic : String) (msg : List UInt8)
    (order : List Nat) (errno : Int) : ClientSockets :=
  { sockets with
    publishing := sockets.publishing.withErrno errno
    loop := some { topic := topic, msg := msg, fds := order } }

/-- An iteration of `write_to_socket`, or the end of its loop. A failed write ends it too. -/
def writeNext (sockets : ClientSockets) (loop : SocketLoop) (results : List WriteResult) :
    Option ClientSockets :=
  match loop.fds with
  | [] => some { sockets with loop := none }
  | fd :: fds =>
      match sockets.publishing.client.clientsData[fd]? with
      | none => some sockets.indexOutside
      | some data =>
          if maxWriteBufferSize < data.length then
            some { sockets with loop := some { loop with fds := fds } }
          else
            ((sockets.publishing.append fd data loop.msg).writeFd loop.topic fd results).map
              fun written =>
                if written.ok then
                  { sockets.update written.state with loop := some { loop with fds := fds } }
                else
                  { (sockets.update written.state).each (·.drop loop.topic fd) with loop := none }

def writeToCache (sockets : ClientSockets) (topic : String) (data : List UInt8) :
    ClientSockets :=
  sockets.update { sockets.publishing with client := { sockets.publishing.client with
    staticTopicCache := Function.update sockets.publishing.client.staticTopicCache topic
      (insert data (sockets.publishing.client.staticTopicCache topic)) } }

def step (sockets : ClientSockets) (action : SocketAction) : Option ClientSockets :=
  if sockets.halted then none
  else
    match action with
    | .addClient topic calls =>
        if sockets.loop = none then some (sockets.addClient topic calls) else none
    | .select index ready soError =>
        (sockets.threadAt index .select).map fun thread =>
          sockets.select index thread.1 thread.2 ready soError
    | .resize index =>
        (sockets.threadAt index .resize).map fun thread => sockets.resize index thread.2
    | .assign index cache =>
        (sockets.threadAt index .assign).bind fun thread =>
          if cache.Nodup ∧
              cache.toFinset = sockets.publishing.client.staticTopicCache thread.1 then
            some (sockets.assign index thread.2 cache)
          else none
    | .notify index =>
        (sockets.threadAt index .notify).map fun _ =>
          sockets.modify index fun attempt => (attempt.setValue true).enter .write
    | .write index errno results =>
        if sockets.loop = none then
          (sockets.threadAt index .write).bind fun thread =>
            sockets.write index thread.1 thread.2 errno results
        else none
    | .writeToSocket topic msg order errno =>
        if sockets.loop = none ∧ order.Nodup ∧
            order.toFinset = sockets.publishing.client.clientsTopicFd topic then
          some (sockets.writeToSocket topic msg order errno)
        else none
    | .writeNext results => sockets.loop.bind fun loop => sockets.writeNext loop results
    | .writeToCache topic data =>
        if sockets.loop = none then some (sockets.writeToCache topic data) else none

def machine : Machine ClientSockets SocketAction := ⟨step⟩

/-! ## What a step does -/

end ClientSockets

/-- The exits of `add_client`, and the start of its thread. -/
inductive Attempted (topic : String) (calls : ConnectCalls) : ConnectAttempt → Prop where
  | noSocket : calls.socket = none → Attempted topic calls (.refused topic none)
  | blocking {fd} : calls.socket = some fd → calls.setNonblock = false →
      Attempted topic calls (.refused topic (some fd))
  | noAddress {fd} : calls.socket = some fd → calls.setNonblock = true →
      calls.inetPton = false →
      Attempted topic calls
        (((ConnectAttempt.refused topic (some fd)).getFuture.close).setValue false)
  | connected {fd} : calls.socket = some fd → calls.setNonblock = true →
      calls.inetPton = true → calls.connect = .connected →
      Attempted topic calls (ConnectAttempt.refused topic (some fd)).getFuture
  | failed {fd errno} : calls.socket = some fd → calls.setNonblock = true →
      calls.inetPton = true → calls.connect = .error errno → errno ≠ EINPROGRESS →
      Attempted topic calls
        (((ConnectAttempt.refused topic (some fd)).getFuture.close).setValue false)
  | unnamed {fd} : calls.socket = some fd → calls.setNonblock = true →
      calls.inetPton = true → calls.connect = .error EINPROGRESS →
      getSocketInfo calls.getsockname = .failed →
      Attempted topic calls
        (((ConnectAttempt.refused topic (some fd)).getFuture.close.close).setValue false)
  | null {fd} : calls.socket = some fd → calls.setNonblock = true →
      calls.inetPton = true → calls.connect = .error EINPROGRESS →
      getSocketInfo calls.getsockname = .null →
      Attempted topic calls (.refused topic (some fd))
  | waiting {fd ip port} : calls.socket = some fd → calls.setNonblock = true →
      calls.inetPton = true → calls.connect = .error EINPROGRESS →
      getSocketInfo calls.getsockname = .info ip port →
      Attempted topic calls { (ConnectAttempt.refused topic (some fd)).getFuture with
        ip := ip, port := port, address := calls.getsockname, stage := .select }

theorem connectAttempt_cases (topic : String) (calls : ConnectCalls) :
    Attempted topic calls (connectAttempt topic calls) := by
  unfold connectAttempt
  cases socket : calls.socket with
  | none => exact .noSocket socket
  | some fd =>
      cases nonblock : calls.setNonblock with
      | false => exact .blocking socket nonblock
      | true =>
          cases address : calls.inetPton with
          | false => exact .noAddress socket nonblock address
          | true =>
              cases connect : calls.connect with
              | connected => exact .connected socket nonblock address connect
              | error errno =>
                  by_cases progress : errno = EINPROGRESS
                  · subst progress
                    cases name : getSocketInfo calls.getsockname with
                    | failed => exact .unnamed socket nonblock address connect name
                    | null => exact .null socket nonblock address connect name
                    | info ip port => exact .waiting socket nonblock address connect name
                  · simp only [ne_eq, progress, not_false_eq_true, ↓reduceIte, Bool.not_true,
                      Bool.false_eq_true]
                    exact .failed socket nonblock address connect progress

/-- A new call has not been registered. -/
theorem connectAttempt_new (topic : String) (calls : ConnectCalls) :
    (connectAttempt topic calls).inserted = false ∧
      ((connectAttempt topic calls).stage = .select ∨
        (connectAttempt topic calls).stage = .ended) := by
  have attempted := connectAttempt_cases topic calls
  generalize connectAttempt topic calls = attempt at attempted ⊢
  cases attempted with
  | waiting => exact ⟨rfl, .inl rfl⟩
  | _ => exact ⟨rfl, .inr rfl⟩

namespace ClientSockets

/-- The thread of a call stands before one of its statements. -/
structure Thread (sockets : ClientSockets) (index : Nat) (stage : ConnectStage)
    (attempt : ConnectAttempt) (fd : Nat) : Prop where
  located : sockets.attempts[index]? = some attempt
  stage : attempt.stage = stage
  fd : attempt.fd = some fd

/-- The ways in which a step goes, with the states they lead to. -/
inductive Stepped (sockets : ClientSockets) : SocketAction → ClientSockets → Prop where
  | addClient {topic calls} : sockets.loop = none →
      Stepped sockets (.addClient topic calls) (sockets.addClient topic calls)
  | overrun {index ready soError attempt fd} : sockets.Thread index .select attempt fd →
      fdSetsize ≤ fd → Stepped sockets (.select index ready soError) sockets.bitOutside
  | giveUp {index ready soError attempt fd} : sockets.Thread index .select attempt fd →
      fd < fdSetsize → Stepped sockets (.select index ready soError) (sockets.giveUp index fd)
  | unread {index attempt fd} : sockets.Thread index .select attempt fd →
      fd < fdSetsize → Stepped sockets (.select index true none)
        (sockets.modify index fun attempt => (attempt.setValue false).enter .ended)
  | register {index attempt fd} : sockets.Thread index .select attempt fd →
      fd < fdSetsize → Stepped sockets (.select index true (some 0))
        ((sockets.update (sockets.publishing.insertFd attempt.topic fd)).modify index
          fun attempt => attempt.register.enter .resize)
  | resize {index attempt fd} : sockets.Thread index .resize attempt fd →
      Stepped sockets (.resize index) (sockets.resize index fd)
  | assign {index attempt fd cache} : sockets.Thread index .assign attempt fd →
      fd < sockets.publishing.client.clientsData.length →
      Stepped sockets (.assign index cache)
        ((sockets.update (sockets.publishing.assign fd cache)).modify index (·.enter .notify))
  | assignOutside {index attempt fd cache} : sockets.Thread index .assign attempt fd →
      ¬ fd < sockets.publishing.client.clientsData.length →
      Stepped sockets (.assign index cache) sockets.indexOutside
  | notify {index attempt fd} : sockets.Thread index .notify attempt fd →
      Stepped sockets (.notify index)
        (sockets.modify index fun attempt => (attempt.setValue true).enter .write)
  | write {index errno results attempt fd written} : sockets.loop = none →
      sockets.Thread index .write attempt fd →
      (sockets.publishing.withErrno errno).writeFd attempt.topic fd results = some written →
      written.ok = true →
      Stepped sockets (.write index errno results)
        ((sockets.update written.state).modify index (·.enter .ended))
  | writeFailed {index errno results attempt fd written} : sockets.loop = none →
      sockets.Thread index .write attempt fd →
      (sockets.publishing.withErrno errno).writeFd attempt.topic fd results = some written →
      written.ok = false →
      Stepped sockets (.write index errno results)
        (((sockets.update written.state).each fun other =>
          (other.erase attempt.topic fd).release fd).modify index fun attempt =>
            attempt.close.enter .ended)
  | writeOutside {index errno results attempt fd} : sockets.Thread index .write attempt fd →
      ¬ fd < sockets.publishing.client.clientsData.length →
      Stepped sockets (.write index errno results) sockets.indexOutside
  | writeToSocket {topic msg order errno} : sockets.loop = none →
      order.toFinset = sockets.publishing.client.clientsTopicFd topic →
      Stepped sockets (.writeToSocket topic msg order errno)
        (sockets.writeToSocket topic msg order errno)
  | finish {results topic msg} : sockets.loop = some ⟨topic, msg, []⟩ →
      Stepped sockets (.writeNext results) { sockets with loop := none }
  | nextOutside {results topic msg fd fds} : sockets.loop = some ⟨topic, msg, fd :: fds⟩ →
      ¬ fd < sockets.publishing.client.clientsData.length →
      Stepped sockets (.writeNext results) sockets.indexOutside
  | skip {results topic msg fd fds} : sockets.loop = some ⟨topic, msg, fd :: fds⟩ →
      Stepped sockets (.writeNext results) { sockets with loop := some ⟨topic, msg, fds⟩ }
  | next {results topic msg fd fds data written} : sockets.loop = some ⟨topic, msg, fd :: fds⟩ →
      (sockets.publishing.append fd data msg).writeFd topic fd results = some written →
      written.ok = true →
      Stepped sockets (.writeNext results)
        { sockets.update written.state with loop := some ⟨topic, msg, fds⟩ }
  | nextFailed {results topic msg fd fds data written} :
      sockets.loop = some ⟨topic, msg, fd :: fds⟩ →
      (sockets.publishing.append fd data msg).writeFd topic fd results = some written →
      written.ok = false →
      Stepped sockets (.writeNext results)
        { (sockets.update written.state).each (·.drop topic fd) with loop := none }
  | writeToCache {topic data} :
      Stepped sockets (.writeToCache topic data) (sockets.writeToCache topic data)

theorem threadAt_eq_some {sockets : ClientSockets} {index : Nat} {stage : ConnectStage}
    {thread : String × Nat} (found : sockets.threadAt index stage = some thread) :
    ∃ attempt, sockets.Thread index stage attempt thread.2 ∧ attempt.topic = thread.1 := by
  obtain ⟨attempt, located, found⟩ := Option.bind_eq_some_iff.mp found
  split at found
  · rename_i same
    obtain ⟨fd, holds, rfl⟩ := Option.map_eq_some_iff.mp found
    exact ⟨attempt, ⟨located, same, holds⟩, rfl⟩
  · cases found

theorem Thread.threadAt {sockets : ClientSockets} {index : Nat} {stage : ConnectStage}
    {attempt : ConnectAttempt} {fd : Nat} (thread : sockets.Thread index stage attempt fd) :
    sockets.threadAt index stage = some (attempt.topic, fd) := by
  rw [ClientSockets.threadAt, thread.located, Option.bind_some, if_pos thread.stage, thread.fd]
  rfl

theorem Stepped.ofSelect {sockets : ClientSockets} {index : Nat} {ready : Bool}
    {soError : Option Int} {attempt : ConnectAttempt} {fd : Nat}
    (thread : sockets.Thread index .select attempt fd) :
    Stepped sockets (.select index ready soError)
      (sockets.select index attempt.topic fd ready soError) := by
  unfold select
  by_cases far : fdSetsize ≤ fd
  · rw [if_pos far]
    exact .overrun thread far
  · rw [if_neg far]
    have near := Nat.lt_of_not_le far
    cases ready with
    | false => exact .giveUp thread near
    | true =>
        cases soError with
        | none => exact .unread thread near
        | some err =>
            by_cases good : err = 0
            · subst good
              exact .register thread near
            · simp only [↓reduceIte, if_neg good]
              exact .giveUp thread near

theorem Stepped.ofWrite {sockets next : ClientSockets} {index : Nat} {errno : Int}
    {results : List WriteResult} {attempt : ConnectAttempt} {fd : Nat} (idle : sockets.loop = none)
    (thread : sockets.Thread index .write attempt fd)
    (wrote : sockets.write index attempt.topic fd errno results = some next) :
    Stepped sockets (.write index errno results) next := by
  unfold ClientSockets.write at wrote
  by_cases inside : fd < sockets.publishing.client.clientsData.length
  · rw [if_pos inside] at wrote
    obtain ⟨written, sent, rfl⟩ := Option.map_eq_some_iff.mp wrote
    cases good : written.ok with
    | true => exact .write idle thread sent good
    | false => exact .writeFailed idle thread sent good
  · rw [if_neg inside] at wrote
    cases wrote
    exact .writeOutside thread inside

theorem Stepped.ofNext {sockets next : ClientSockets} {loop : SocketLoop}
    {results : List WriteResult} (held : sockets.loop = some loop)
    (wrote : sockets.writeNext loop results = some next) :
    Stepped sockets (.writeNext results) next := by
  obtain ⟨topic, msg, fds⟩ := loop
  cases fds with
  | nil =>
      cases wrote
      exact .finish held
  | cons fd fds =>
      simp only [writeNext] at wrote
      cases found : sockets.publishing.client.clientsData[fd]? with
      | none =>
          rw [found] at wrote
          cases wrote
          exact .nextOutside held (Nat.not_lt.mpr (List.getElem?_eq_none_iff.mp found))
      | some data =>
          simp only [found] at wrote
          split at wrote
          · cases wrote
            exact .skip held
          · obtain ⟨written, sent, rfl⟩ := Option.map_eq_some_iff.mp wrote
            cases good : written.ok with
            | true => exact .next held sent good
            | false => exact .nextFailed held sent good

theorem step_cases {sockets next : ClientSockets} {action : SocketAction}
    (stepped : sockets.step action = some next) :
    sockets.halted = false ∧ Stepped sockets action next := by
  unfold step at stepped
  split at stepped
  · cases stepped
  · rename_i inside
    refine ⟨Bool.eq_false_iff.mpr inside, ?_⟩
    cases action with
    | addClient topic calls =>
        obtain ⟨free, same⟩ := Option.ite_none_right_eq_some.mp stepped
        cases same
        exact .addClient free
    | select index ready soError =>
        obtain ⟨thread, found, rfl⟩ := Option.map_eq_some_iff.mp stepped
        obtain ⟨attempt, thread, same⟩ := threadAt_eq_some found
        exact same ▸ .ofSelect thread
    | resize index =>
        obtain ⟨thread, found, rfl⟩ := Option.map_eq_some_iff.mp stepped
        obtain ⟨attempt, thread, _⟩ := threadAt_eq_some found
        exact .resize thread
    | assign index cache =>
        obtain ⟨thread, found, stepped⟩ := Option.bind_eq_some_iff.mp stepped
        obtain ⟨attempt, thread, _⟩ := threadAt_eq_some found
        obtain ⟨_, same⟩ := Option.ite_none_right_eq_some.mp stepped
        cases same
        unfold assign
        split
        · rename_i inside
          exact .assign thread inside
        · rename_i outside
          exact .assignOutside thread outside
    | notify index =>
        obtain ⟨thread, found, rfl⟩ := Option.map_eq_some_iff.mp stepped
        obtain ⟨attempt, thread, _⟩ := threadAt_eq_some found
        exact .notify thread
    | write index errno results =>
        obtain ⟨idle, stepped⟩ := Option.ite_none_right_eq_some.mp stepped
        obtain ⟨thread, found, stepped⟩ := Option.bind_eq_some_iff.mp stepped
        obtain ⟨attempt, thread, same⟩ := threadAt_eq_some found
        exact .ofWrite idle thread (same ▸ stepped)
    | writeToSocket topic msg order errno =>
        obtain ⟨⟨idle, _, members⟩, same⟩ := Option.ite_none_right_eq_some.mp stepped
        cases same
        exact .writeToSocket idle members
    | writeNext results =>
        obtain ⟨loop, held, stepped⟩ := Option.bind_eq_some_iff.mp stepped
        exact .ofNext held stepped
    | writeToCache topic data =>
        obtain ⟨_, same⟩ := Option.ite_none_right_eq_some.mp stepped
        cases same
        exact .writeToCache

/-! ## A thread that nothing interrupts -/

/-- The thread of a call is next, and the lock is free. -/
structure Ready (sockets : ClientSockets) (index : Nat) (stage : ConnectStage) (topic : String)
    (fd : Nat) (publishing : Publishing) : Prop where
  inside : sockets.halted = false
  idle : sockets.loop = none
  publishing : sockets.publishing = publishing
  thread : sockets.threadAt index stage = some (topic, fd)

namespace Ready

variable {sockets : ClientSockets} {index : Nat} {stage : ConnectStage} {topic : String} {fd : Nat}
  {publishing : Publishing}

theorem modify (ready : sockets.Ready index stage topic fd publishing)
    (change : ConnectAttempt → ConnectAttempt)
    (sameFd : ∀ attempt, (change attempt).fd = attempt.fd)
    (sameTopic : ∀ attempt, (change attempt).topic = attempt.topic) {onward : ConnectStage}
    (entered : ∀ attempt, (change attempt).stage = onward) (next : Publishing) :
    ((sockets.update next).modify index change).Ready index onward topic fd next where
  inside := ready.inside
  idle := ready.idle
  publishing := rfl
  thread := by
    obtain ⟨attempt, thread, rfl⟩ := threadAt_eq_some ready.thread
    have moved : ((sockets.update next).modify index change).Thread index onward (change attempt)
        fd := by
      refine ⟨?_, entered attempt, (sameFd attempt).trans thread.fd⟩
      have located : (sockets.update next).attempts[index]? = some attempt := thread.located
      rw [ClientSockets.modify, List.getElem?_modify_eq, located]
      rfl
    rw [moved.threadAt, sameTopic]

theorem select (ready : sockets.Ready index .select topic fd publishing) (near : fd < fdSetsize) :
    ∃ next, sockets.step (.select index true (some 0)) = some next ∧
      next.Ready index .resize topic fd (publishing.insertFd topic fd) := by
  refine ⟨_, ?_, ready.modify (fun attempt => attempt.register.enter .resize) (fun _ => rfl)
    (fun _ => rfl) (fun _ => rfl) _⟩
  simp only [step, if_neg (Bool.eq_false_iff.mp ready.inside), ready.thread, Option.map_some,
    ClientSockets.select, if_neg (Nat.not_le.mpr near), ← ready.publishing]
  rfl

theorem resize (ready : sockets.Ready index .resize topic fd publishing) :
    ∃ next, sockets.step (.resize index) = some next ∧
      next.Ready index .assign topic fd (publishing.resize fd) := by
  refine ⟨_, ?_, ready.modify (·.enter .assign) (fun _ => rfl) (fun _ => rfl) (fun _ => rfl) _⟩
  simp only [step, if_neg (Bool.eq_false_iff.mp ready.inside), ready.thread, Option.map_some,
    ← ready.publishing]
  rfl

theorem assign (ready : sockets.Ready index .assign topic fd publishing)
    {cache : List (List UInt8)} (distinct : cache.Nodup)
    (members : cache.toFinset = publishing.client.staticTopicCache topic)
    (room : fd < publishing.client.clientsData.length) :
    ∃ next, sockets.step (.assign index cache) = some next ∧
      next.Ready index .notify topic fd (publishing.assign fd cache) := by
  refine ⟨_, ?_, ready.modify (·.enter .notify) (fun _ => rfl) (fun _ => rfl) (fun _ => rfl) _⟩
  rw [← ready.publishing] at members room
  simp only [step, if_neg (Bool.eq_false_iff.mp ready.inside), ready.thread, Option.bind_some,
    if_pos (And.intro distinct members), ClientSockets.assign, if_pos room, ← ready.publishing]

theorem notify (ready : sockets.Ready index .notify topic fd publishing) :
    ∃ next, sockets.step (.notify index) = some next ∧
      next.Ready index .write topic fd publishing := by
  refine ⟨_, ?_, ready.modify (fun attempt => (attempt.setValue true).enter .write) (fun _ => rfl)
    (fun _ => rfl) (fun _ => rfl) _⟩
  simp only [step, if_neg (Bool.eq_false_iff.mp ready.inside), ready.thread, Option.map_some,
    ← ready.publishing]
  rfl

/-- The write of the thread leads to what `write_fd` leaves. -/
theorem write (ready : sockets.Ready index .write topic fd publishing) {errno : Int}
    {results : List WriteResult} {written : Publishing.Written}
    (room : fd < publishing.client.clientsData.length)
    (wrote : (publishing.withErrno errno).writeFd topic fd results = some written) :
    ∃ next, sockets.step (.write index errno results) = some next ∧
      next.publishing = written.state := by
  rw [← ready.publishing] at room wrote
  simp only [step, if_neg (Bool.eq_false_iff.mp ready.inside), if_pos ready.idle, ready.thread,
    Option.bind_some, ClientSockets.write, if_pos room, wrote, Option.map_some,
    Option.some.injEq, exists_eq_left']
  split
  · rfl
  · rfl

end Ready

/-- The statements of the thread together are the connection of a new socket. -/
theorem connect_eq {state : Publishing} {topic : String} {fd : Nat} {cache : List (List UInt8)}
    {errno : Int} (opened : fd ∈ state.kernel.opened) (unsent : state.kernel.accepted fd = []) :
    (((state.insertFd topic fd).resize fd).assign fd cache).withErrno errno =
      ((state.close fd).withErrno errno).connect topic fd cache := by
  have kept : insert fd (state.kernel.opened.erase fd) = state.kernel.opened :=
    Finset.insert_erase opened
  have same : Function.update state.kernel.accepted fd [] = state.kernel.accepted :=
    Function.update_eq_self_iff.mpr unsent.symm
  simp only [Publishing.connect, Publishing.withErrno, Publishing.close, Publishing.assign,
    Publishing.resize, Publishing.insertFd, kept, same]

/-- A thread that nothing interrupts completes its socket. -/
theorem exec_completion {sockets : ClientSockets} {index : Nat} {topic : String} {fd : Nat}
    {publishing : Publishing} {cache : List (List UInt8)} {errno : Int}
    {results : List WriteResult} {written : Publishing.Written}
    (ready : sockets.Ready index .select topic fd publishing) (near : fd < fdSetsize)
    (opened : fd ∈ publishing.kernel.opened) (unsent : publishing.kernel.accepted fd = [])
    (completed : ((publishing.close fd).withErrno errno).complete topic fd cache results =
      some written) :
    ∃ final, machine.exec sockets [.select index true (some 0), .resize index,
      .assign index cache, .notify index, .write index errno results] = some final ∧
        final.publishing = written.state := by
  obtain ⟨⟨_, room, distinct, members⟩, wrote⟩ := Option.ite_none_right_eq_some.mp completed
  rw [← connect_eq opened unsent] at wrote
  obtain ⟨first, selected, ready⟩ := ready.select near
  obtain ⟨second, resized, ready⟩ := ready.resize
  obtain ⟨third, assigned, ready⟩ := ready.assign distinct members room
  obtain ⟨fourth, notified, ready⟩ := ready.notify
  have inData : fd < ((grow publishing.client.clientsData [] fd).set fd
      cache.flatten).length := by
    rw [List.length_set]
    exact room
  obtain ⟨final, last, same⟩ := ready.write inData wrote
  refine ⟨final, ?_, same⟩
  simp only [Machine.exec, machine, selected, resized, assigned, notified, last, Option.bind_some]

end ClientSockets

end ProtoCore.Topic
