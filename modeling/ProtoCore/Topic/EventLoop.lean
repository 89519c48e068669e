import ProtoCore.Library.Simulation
import ProtoCore.Topic.ConnectionIsolation
import ProtoCore.Topic.FrameWindow

/-!
# The event loop of the server

`event_handler` takes a batch of events from the poll set, and handles them one by one under
the lock. An event may be handled long after it was reported: others of its batch have closed
their connections by then, and new ones have been accepted.
-/

set_option autoImplicit false

namespace ProtoCore.Topic

open Library

/-- `accept` and, for a client, `set_nonblock`. -/
inductive AcceptResult where
  | client (fd : Nat) (addr : SockaddrIn) (nonblocking : Bool)
  | error (errno : Int)
  deriving DecidableEq, Repr

/-- An event of a batch, with the open connection of its descriptor when it was reported. The
listening socket has none. -/
structure Event where
  fd : Nat
  hangUp : Bool
  connection : Option ClientConnection
  deriving DecidableEq, Repr

/-- The server in the event loop. `batch` are the events not yet handled, `locked` tells whether
`event_handler` holds the lock, and `ret` is what it will return. -/
structure EventLoop where
  server : TCPServer
  bufSize : Nat
  batch : List Event
  locked : Bool
  ret : Int
  returned : List Int

/-- `epoll_wait`, the lock, the next event as one of the listening socket or of a client, and
what other threads do: the count test of `accept_client`, its rest, and a new decoder. -/
inductive LoopAction where
  | poll (ready : List (Nat × Bool))
  | pollError (errno : Int)
  | lock
  | acceptEvent (result : AcceptResult)
  | clientEvent (results : List RecvResult)
  | acceptClient (topic ip : String) (port : Int)
  | acceptLocked (index : Nat) (added : Bool)
  | addDecoder (topic : String)
  deriving DecidableEq, Repr

namespace EventLoop

def maxevents : Nat := 128

def initial : EventLoop where
  server := TCPServer.initial
  bufSize := 8192
  batch := []
  locked := false
  ret := 0
  returned := []

/-- The size of the next buffer, after a `recv` of this one. -/
def growBufSize (bufSize received : Nat) : Nat :=
  let bufSize := if bufSize = received then bufSize * 2 else bufSize
  if maxBufferSize < bufSize then maxBufferSize else bufSize

/-- The static `buf_size` after the loop of `handle_client_event`. -/
def loopBufSize : Nat → List RecvResult → Nat
  | bufSize, .bytes (byte :: chunk) :: rest =>
      loopBufSize (growBufSize bufSize (byte :: chunk).length) rest
  | bufSize, _ => bufSize

/-- `handle_client_event` comes to its loop. -/
def receives (server : TCPServer) (clientFd : Nat) (hangUp : Bool) : Bool :=
  match server.fdToAddr[clientFd]? with
  | none => false
  | some clientAddr =>
      match server.addrToTopic clientAddr with
      | none => false
      | some topic => !hangUp && server.decoders.contains topic

/-- The buffer of one `handle_client_event` has the size from before its loop. -/
def Fills (bufSize : Nat) (result : RecvResult) : Prop :=
  match result with
  | .bytes received => received.length ≤ bufSize
  | .error _ => True

instance (bufSize : Nat) (result : RecvResult) : Decidable (Fills bufSize result) :=
  match result with
  | .bytes _ => inferInstanceAs (Decidable (_ ≤ _))
  | .error _ => isTrue trivial

/-- The end of an event. The lock is released with the last one of its batch. -/
def finish (loop : EventLoop) (server : TCPServer) (bufSize : Nat) (rest : List Event)
    (ret : Int) : EventLoop :=
  match rest with
  | [] => { loop with
      server := server
      bufSize := bufSize
      batch := []
      locked := false
      ret := 0
      returned := loop.returned ++ [ret] }
  | _ => { loop with server := server, bufSize := bufSize, batch := rest, ret := ret }

section Steps

variable (srvFd : Nat) (decode : TCPServer.DecodeResult)

/-- What `epoll_wait` may report: descriptors of the poll set, each once. -/
def Reports (server : TCPServer) (ready : List (Nat × Bool)) : Prop :=
  ready.length ≤ maxevents ∧ (ready.map Prod.fst).Nodup ∧
    ∀ event ∈ ready, event.1 = srvFd ∨ event.1 ∈ server.epoll

instance (server : TCPServer) (ready : List (Nat × Bool)) :
    Decidable (Reports srvFd server ready) :=
  inferInstanceAs (Decidable (_ ∧ _ ∧ _))

/-- An event with the connection that it is of. -/
def report (server : TCPServer) (event : Nat × Bool) : Event where
  fd := event.1
  hangUp := event.2
  connection := if event.1 = srvFd then none
    else server.connections.find? fun connection => connection.fd = event.1

/-- A client is told by a descriptor that is not open, so not the listening one. -/
def acceptEvent (loop : EventLoop) (rest : List Event) : AcceptResult → Option EventLoop
  | .error errno => some (loop.finish loop.server loop.bufSize rest
      (if errno = EAGAIN then loop.ret else -1))
  | .client fd addr nonblocking =>
      if fd ≠ srvFd ∧ loop.server.Accepts (some (fd, addr)) then
        (loop.server.acceptNewClient (some (fd, addr)) nonblocking).map fun server =>
          loop.finish server loop.bufSize rest (if nonblocking then loop.ret else -1)
      else none

def clientEvent (loop : EventLoop) (event : Event) (rest : List Event)
    (results : List RecvResult) : Option EventLoop :=
  if ∀ result ∈ results, Fills loop.bufSize result then
    some (loop.finish (loop.server.handleClientEvent decode event.fd event.hangUp results)
      (if receives loop.server event.fd event.hangUp then loopBufSize loop.bufSize results
        else loop.bufSize) rest loop.ret)
  else none

def step (loop : EventLoop) (action : LoopAction) : Option EventLoop :=
  if loop.server.outside then none
  else
    match action with
    | .poll ready =>
        if loop.batch = [] ∧ Reports srvFd loop.server ready then
          some (if ready = [] then { loop with returned := loop.returned ++ [0] }
            else { loop with batch := ready.map (report srvFd loop.server) })
        else none
    | .pollError errno =>
        if loop.batch = [] then some { loop with
          returned := loop.returned ++ [if errno = EAGAIN then 0 else -1] }
        else none
    | .lock =>
        if loop.batch ≠ [] ∧ loop.locked = false then some { loop with locked := true } else none
    | .acceptEvent result =>
        match loop.locked, loop.batch with
        | true, event :: rest =>
            if event.fd = srvFd then loop.acceptEvent srvFd rest result else none
        | _, _ => none
    | .clientEvent results =>
        match loop.locked, loop.batch with
        | true, event :: rest =>
            if event.fd = srvFd then none else loop.clientEvent decode event rest results
        | _, _ => none
    | .acceptClient topic ip port =>
        some { loop with server := loop.server.acceptClient topic ip port }
    | .acceptLocked index added =>
        if loop.locked then none
        else
          (loop.server.accepting[index]?).map fun call =>
            { loop with server := { loop.server.acceptLocked call added with
                accepting := loop.server.accepting.eraseIdx index } }
    | .addDecoder topic =>
        some { loop with server := { loop.server with
          decoders := loop.server.decoders ++ [topic] } }

def machine : Machine EventLoop LoopAction := ⟨step srvFd decode⟩

/-- The step of the server that a step of its loop makes. -/
def serverAction (loop : EventLoop) : LoopAction → List ServerAction
  | .poll _ | .pollError _ | .lock => []
  | .acceptEvent (.error _) => []
  | .acceptEvent (.client fd addr nonblocking) => [.acceptNewClient (some (fd, addr)) nonblocking]
  | .clientEvent results =>
      match loop.batch with
      | [] => []
      | event :: _ => [.clientEvent event.fd event.hangUp results]
  | .acceptClient topic ip port => [.acceptClient topic ip port]
  | .acceptLocked index added => [.acceptLocked index added]
  | .addDecoder topic => [.addDecoder topic]

/-- The step of the server is in order. -/
def InOrder (loop : EventLoop) (action : LoopAction) : Prop :=
  ∀ step ∈ loop.serverAction action, loop.server.InOrder step

instance (loop : EventLoop) (action : LoopAction) : Decidable (loop.InOrder action) :=
  inferInstanceAs (Decidable (∀ step ∈ _, _))

end Steps

/-! ## One descriptor at a time -/

/-- Connections and polled descriptors other than these are left as they are. -/
structure Spares (fd : Nat) (server next : TCPServer) : Prop where
  connections : ∀ connection ∈ server.connections, connection.fd ≠ fd →
    connection ∈ next.connections
  epoll : ∀ other ∈ server.epoll, other ≠ fd → other ∈ next.epoll

theorem Spares.refl (fd : Nat) (server : TCPServer) : Spares fd server server where
  connections _ listed _ := listed
  epoll _ polled _ := polled

theorem Spares.trans {fd : Nat} {server middle next : TCPServer}
    (first : Spares fd server middle) (second : Spares fd middle next) :
    Spares fd server next where
  connections connection listed apart :=
    second.connections connection (first.connections connection listed apart) apart
  epoll other polled apart := second.epoll other (first.epoll other polled apart) apart

theorem closeAndDeleteEvent_spares (server : TCPServer) (fd : Nat) :
    Spares fd server (server.closeAndDeleteEvent fd) := by
  unfold TCPServer.closeAndDeleteEvent
  split
  · refine ⟨fun connection listed apart => ?_, fun other polled apart => ?_⟩
    · exact List.mem_filter.mpr ⟨listed, decide_eq_true apart⟩
    · exact List.mem_filter.mpr ⟨polled, decide_eq_true apart⟩
  · exact ⟨fun _ listed _ => listed, fun _ polled _ => polled⟩

theorem receive_spares (decode : TCPServer.DecodeResult) (server : TCPServer) (fd : Nat)
    (topic : String) (chunk : List UInt8) :
    Spares fd server (server.receive decode fd topic chunk) := by
  unfold TCPServer.receive
  split
  · exact ⟨fun _ listed _ => listed, fun _ polled _ => polled⟩
  · refine ⟨fun connection listed apart => ?_, fun _ polled _ => polled⟩
    exact List.mem_map.mpr ⟨connection, listed, if_neg apart⟩

theorem recvLoop_spares (decode : TCPServer.DecodeResult) (fd : Nat) (topic : String)
    (results : List RecvResult) (server : TCPServer) :
    Spares fd server (TCPServer.recvLoop decode fd topic server results) := by
  induction results generalizing server with
  | nil => exact Spares.refl fd server
  | cons result rest ih =>
      cases result with
      | error errno =>
          unfold TCPServer.recvLoop
          split
          · exact Spares.refl fd server
          · exact closeAndDeleteEvent_spares server fd
      | bytes received =>
          cases received with
          | nil => exact closeAndDeleteEvent_spares server fd
          | cons byte chunk =>
              exact (receive_spares decode server fd topic (byte :: chunk)).trans (ih _)

theorem handleClientEvent_spares (decode : TCPServer.DecodeResult) (server : TCPServer) (fd : Nat)
    (hangUp : Bool) (results : List RecvResult) :
    Spares fd server (server.handleClientEvent decode fd hangUp results) := by
  unfold TCPServer.handleClientEvent
  split
  · exact ⟨fun _ listed _ => listed, fun _ polled _ => polled⟩
  · split
    · exact closeAndDeleteEvent_spares server fd
    · split
      · exact Spares.refl fd server
      · split
        · exact recvLoop_spares decode fd _ results server
        · exact Spares.refl fd server

/-! ## The size of the buffer -/

theorem growBufSize_bounds {bufSize : Nat} (received : Nat)
    (bounds : 8192 ≤ bufSize ∧ bufSize ≤ maxBufferSize) :
    8192 ≤ growBufSize bufSize received ∧ growBufSize bufSize received ≤ maxBufferSize := by
  unfold growBufSize maxBufferSize at *
  simp only
  split <;> split <;> omega

theorem loopBufSize_bounds {bufSize : Nat} (results : List RecvResult)
    (bounds : 8192 ≤ bufSize ∧ bufSize ≤ maxBufferSize) :
    8192 ≤ loopBufSize bufSize results ∧ loopBufSize bufSize results ≤ maxBufferSize := by
  fun_induction loopBufSize bufSize results with
  | case1 bufSize byte chunk rest ih => exact ih (growBufSize_bounds _ bounds)
  | case2 bufSize results => exact bounds

/-! ## A batch and what has happened since -/

/-- The connection of the event is open, and nothing has changed it since it was reported. -/
def StillOpen (server : TCPServer) (event : Event) : Prop :=
  event.fd ∈ server.epoll ∧ ∃ connection ∈ server.connections,
    connection.fd = event.fd ∧ connection.topic ≠ none ∧ event.connection = some connection

/-- Every event is handled on the connection that it was reported for. -/
structure UpToDate (srvFd : Nat) (loop : EventLoop) : Prop where
  joined : loop.server.Joined
  bufSize : 8192 ≤ loop.bufSize ∧ loop.bufSize ≤ maxBufferSize
  fits : loop.batch.length ≤ maxevents
  distinct : (loop.batch.map Event.fd).Nodup
  events : ∀ event ∈ loop.batch, event.fd ≠ srvFd → StillOpen loop.server event
  working : loop.locked = true → loop.batch ≠ []

section Finish

variable (loop : EventLoop) (server : TCPServer) (bufSize : Nat) (rest : List Event) (ret : Int)

@[simp] theorem finish_server : (loop.finish server bufSize rest ret).server = server := by
  unfold finish
  split <;> rfl

@[simp] theorem finish_bufSize : (loop.finish server bufSize rest ret).bufSize = bufSize := by
  unfold finish
  split <;> rfl

@[simp] theorem finish_batch : (loop.finish server bufSize rest ret).batch = rest := by
  unfold finish
  split <;> rfl

theorem finish_locked (held : (loop.finish server bufSize rest ret).locked = true) :
    rest ≠ [] := by
  rintro rfl
  cases held

end Finish

section Invariant

variable {srvFd : Nat} {decode : TCPServer.DecodeResult}

/-- The first event is done with, and has spared what the others are of. -/
theorem UpToDate.finish {loop : EventLoop} (upToDate : loop.UpToDate srvFd) {event : Event}
    {rest : List Event} (next : loop.batch = event :: rest) {server : TCPServer} {bufSize : Nat}
    (joined : server.Joined) (bounds : 8192 ≤ bufSize ∧ bufSize ≤ maxBufferSize)
    (spares : Spares event.fd loop.server server) (ret : Int) :
    (loop.finish server bufSize rest ret).UpToDate srvFd where
  joined := by
    rw [finish_server]
    exact joined
  bufSize := by
    rw [finish_bufSize]
    exact bounds
  fits := by
    have fits := upToDate.fits
    rw [next, List.length_cons] at fits
    rw [finish_batch]
    exact Nat.le_of_succ_le fits
  distinct := by
    have distinct := upToDate.distinct
    rw [next, List.map_cons, List.nodup_cons] at distinct
    rw [finish_batch]
    exact distinct.2
  events := by
    have distinct := upToDate.distinct
    rw [next, List.map_cons, List.nodup_cons] at distinct
    rw [finish_batch, finish_server]
    intro later member client
    have listed : later.fd ∈ rest.map Event.fd := List.mem_map_of_mem member
    have apart : later.fd ≠ event.fd := fun same => distinct.1 (same ▸ listed)
    obtain ⟨polled, connection, listed, same, mapped, recorded⟩ :=
      upToDate.events later (next ▸ List.mem_cons_of_mem event member) client
    exact ⟨spares.epoll later.fd polled apart, connection,
      spares.connections connection listed (same ▸ apart), same, mapped, recorded⟩
  working held := by
    rw [finish_batch]
    exact finish_locked loop server bufSize rest ret held

/-- Another thread has changed the server, and no connection that has a topic. -/
theorem UpToDate.elsewhere {loop : EventLoop} (upToDate : loop.UpToDate srvFd)
    {server : TCPServer} (joined : server.Joined)
    (connections : ∀ connection ∈ loop.server.connections, connection.topic ≠ none →
      connection ∈ server.connections)
    (epoll : ∀ fd ∈ loop.server.epoll, fd ∈ server.epoll) :
    { loop with server := server }.UpToDate srvFd where
  joined := joined
  bufSize := upToDate.bufSize
  fits := upToDate.fits
  distinct := upToDate.distinct
  events event member client := by
    obtain ⟨polled, connection, listed, same, mapped, recorded⟩ :=
      upToDate.events event member client
    exact ⟨epoll event.fd polled, connection, connections connection listed mapped, same, mapped,
      recorded⟩
  working := upToDate.working

theorem UpToDate.poll {loop : EventLoop} (upToDate : loop.UpToDate srvFd)
    {ready : List (Nat × Bool)} (idle : loop.batch = [])
    (reports : Reports srvFd loop.server ready) :
    { loop with batch := ready.map (report srvFd loop.server) }.UpToDate srvFd where
  joined := upToDate.joined
  bufSize := upToDate.bufSize
  fits := by
    rw [List.length_map]
    exact reports.1
  distinct := by
    have same : (ready.map (report srvFd loop.server)).map Event.fd = ready.map Prod.fst := by
      rw [List.map_map]
      rfl
    rw [same]
    exact reports.2.1
  events event member client := by
    obtain ⟨reported, listed, rfl⟩ := List.mem_map.mp member
    have polled : reported.1 ∈ loop.server.epoll :=
      (reports.2.2 reported listed).resolve_left client
    obtain ⟨connection, opened, same, mapped⟩ := upToDate.joined.addressed.polled _ polled
    refine ⟨polled, connection, opened, same, mapped, ?_⟩
    have found : loop.server.connections.find? (fun other => other.fd = reported.1) =
        some connection := by
      cases search : loop.server.connections.find? (fun other => other.fd = reported.1) with
      | none => exact absurd (decide_eq_true same) (List.find?_eq_none.mp search connection opened)
      | some other =>
          have here : other.fd = reported.1 := by simpa using List.find?_some search
          rw [upToDate.joined.addressed.lone other (List.mem_of_find?_eq_some search) connection
            opened (.inl (here.trans same.symm))]
    have apart : reported.1 ≠ srvFd := client
    exact (if_neg apart).trans found
  working held := absurd idle (upToDate.working held)

/-! ## Steps of the loop -/

theorem UpToDate.acceptEvent {loop next : EventLoop} (upToDate : loop.UpToDate srvFd)
    {event : Event} {rest : List Event} (first : loop.batch = event :: rest)
    {result : AcceptResult} (inOrder : loop.InOrder (.acceptEvent result))
    (stepped : loop.acceptEvent srvFd rest result = some next) :
    (TCPServer.machine decode).exec loop.server (loop.serverAction (.acceptEvent result)) =
      some next.server ∧ next.UpToDate srvFd := by
  cases result with
  | error errno =>
      cases stepped
      refine ⟨by rw [finish_server]; rfl, ?_⟩
      exact upToDate.finish first upToDate.joined upToDate.bufSize (Spares.refl _ _) _
  | client fd addr nonblocking =>
      unfold EventLoop.acceptEvent at stepped
      obtain ⟨⟨_, accepts⟩, stepped⟩ := Option.ite_none_right_eq_some.mp stepped
      obtain ⟨server, accepted, rfl⟩ := Option.map_eq_some_iff.mp stepped
      have running : ¬ loop.server.outside = true := by
        rw [upToDate.joined.inside]
        exact Bool.false_ne_true
      have action : loop.server.step decode (.acceptNewClient (some (fd, addr)) nonblocking) =
          some server := by
        simp only [TCPServer.step, if_neg running, if_pos accepts]
        exact accepted
      have allowed : loop.server.InOrder (.acceptNewClient (some (fd, addr)) nonblocking) :=
        inOrder _ (List.mem_singleton_self _)
      refine ⟨?_, upToDate.finish first (upToDate.joined.step decode allowed action)
        upToDate.bufSize ?_ _⟩
      · rw [finish_server]
        exact (TCPServer.machine decode).exec_of_step action
      · cases nonblocking with
        | false =>
            cases accepted
            exact Spares.refl _ _
        | true =>
            cases TCPServer.storeClient_eq_some allowed.1 accepted
            exact ⟨fun _ listed _ => List.mem_append_left _ listed, fun _ polled _ => polled⟩

theorem UpToDate.clientEvent {loop next : EventLoop} (upToDate : loop.UpToDate srvFd)
    {event : Event} {rest : List Event} (first : loop.batch = event :: rest)
    (client : event.fd ≠ srvFd) {results : List RecvResult}
    (stepped : loop.clientEvent decode event rest results = some next) :
    (TCPServer.machine decode).exec loop.server (loop.serverAction (.clientEvent results)) =
      some next.server ∧ next.UpToDate srvFd := by
  unfold EventLoop.clientEvent at stepped
  obtain ⟨_, stepped⟩ := Option.ite_none_right_eq_some.mp stepped
  cases stepped
  have running : ¬ loop.server.outside = true := by
    rw [upToDate.joined.inside]
    exact Bool.false_ne_true
  -- the poll set still has the descriptor, for only its own event takes it out
  have polled := (upToDate.events event (first ▸ List.mem_cons_self) client).1
  have action : loop.server.step decode (.clientEvent event.fd event.hangUp results) =
      some (loop.server.handleClientEvent decode event.fd event.hangUp results) := by
    simp only [TCPServer.step, if_neg running, if_pos (List.contains_iff_mem.mpr polled)]
  refine ⟨?_, upToDate.finish first (upToDate.joined.clientEvent decode polled _ _) ?_
    (handleClientEvent_spares decode _ _ _ _) _⟩
  · simp only [serverAction, first, finish_server]
    exact (TCPServer.machine decode).exec_of_step action
  · split
    · exact loopBufSize_bounds results upToDate.bufSize
    · exact upToDate.bufSize

/-- A step of the loop is at most one of the server. -/
theorem UpToDate.step {loop next : EventLoop} {action : LoopAction}
    (upToDate : loop.UpToDate srvFd) (inOrder : loop.InOrder action)
    (stepped : loop.step srvFd decode action = some next) :
    (TCPServer.machine decode).exec loop.server (loop.serverAction action) = some next.server ∧
      next.UpToDate srvFd := by
  have running : ¬ loop.server.outside = true := by
    rw [upToDate.joined.inside]
    exact Bool.false_ne_true
  have alone {action : ServerAction} {server : TCPServer}
      (allowed : loop.server.InOrder action)
      (acted : loop.server.step decode action = some server) :
      (TCPServer.machine decode).exec loop.server [action] = some server ∧ server.Joined :=
    ⟨(TCPServer.machine decode).exec_of_step acted, upToDate.joined.step decode allowed acted⟩
  simp only [EventLoop.step, if_neg running] at stepped
  cases action with
  | poll ready =>
      obtain ⟨⟨idle, reports⟩, stepped⟩ := Option.ite_none_right_eq_some.mp stepped
      cases stepped
      split
      · exact ⟨rfl, { upToDate with }⟩
      · exact ⟨rfl, upToDate.poll idle reports⟩
  | pollError errno =>
      obtain ⟨_, stepped⟩ := Option.ite_none_right_eq_some.mp stepped
      cases stepped
      exact ⟨rfl, { upToDate with }⟩
  | lock =>
      obtain ⟨⟨pending, _⟩, stepped⟩ := Option.ite_none_right_eq_some.mp stepped
      cases stepped
      exact ⟨rfl, { upToDate with working := fun _ => pending }⟩
  | acceptEvent result =>
      simp only at stepped
      split at stepped
      · rename_i event rest _ first
        obtain ⟨_, stepped⟩ := Option.ite_none_right_eq_some.mp stepped
        exact upToDate.acceptEvent first inOrder stepped
      · cases stepped
  | clientEvent results =>
      simp only at stepped
      split at stepped
      · rename_i event rest _ first
        obtain ⟨client, stepped⟩ := Option.ite_none_left_eq_some.mp stepped
        exact upToDate.clientEvent first client stepped
      · cases stepped
  | acceptClient topic ip port =>
      cases stepped
      obtain ⟨executed, joined⟩ := alone (inOrder _ (List.mem_singleton_self _))
        (if_neg running : loop.server.step decode (.acceptClient topic ip port) = _)
      refine ⟨executed, upToDate.elsewhere joined ?_ ?_⟩ <;>
        (unfold TCPServer.acceptClient; split)
      · exact fun _ listed _ => listed
      · exact fun _ listed _ => listed
      · exact fun _ polled => polled
      · exact fun _ polled => polled
  | acceptLocked index added =>
      obtain ⟨_, stepped⟩ := Option.ite_none_left_eq_some.mp stepped
      obtain ⟨call, waiting, rfl⟩ := Option.map_eq_some_iff.mp stepped
      have allowed := inOrder _ (List.mem_singleton_self _)
      have acted : loop.server.step decode (.acceptLocked index added) =
          some { loop.server.acceptLocked call added with
            accepting := loop.server.accepting.eraseIdx index } := by
        simp only [TCPServer.step, if_neg running, waiting, Option.map_some]
      obtain ⟨executed, joined⟩ := alone allowed acted
      obtain ⟨fd, found, near⟩ := allowed.found waiting
      refine ⟨executed, upToDate.elsewhere joined ?_ ?_⟩
      · rw [TCPServer.acceptLocked_eq found near added]
        intro connection listed mapped
        exact List.mem_map.mpr ⟨connection, listed, if_neg fun waits => mapped waits.2⟩
      · rw [TCPServer.acceptLocked_eq found near added]
        intro fd polled
        simp only
        split
        · exact List.mem_append_left _ polled
        · exact polled
  | addDecoder topic =>
      cases stepped
      obtain ⟨executed, joined⟩ := alone (inOrder _ (List.mem_singleton_self _))
        (if_neg running : loop.server.step decode (.addDecoder topic) = _)
      exact ⟨executed, upToDate.elsewhere joined (fun _ listed _ => listed) fun _ polled => polled⟩

end Invariant

theorem upToDate_initial (srvFd : Nat) : initial.UpToDate srvFd where
  joined := TCPServer.joined_initial
  bufSize := by decide
  fits := Nat.zero_le _
  distinct := List.nodup_nil
  events _ member := by cases member
  working held := by cases held

/-- The server does not know of batches and events. -/
def serverSimulation (srvFd : Nat) (decode : TCPServer.DecodeResult) :
    Simulation (machine srvFd decode) (TCPServer.machine decode) where
  related loop server := loop.UpToDate srvFd ∧ loop.server = server
  allowed := InOrder
  matched := by
    rintro loop next action _ ⟨upToDate, rfl⟩ inOrder stepped
    obtain ⟨executed, remains⟩ := upToDate.step inOrder stepped
    exact ⟨_, next.server, executed, remains, rfl⟩

/-- However the threads interleave, no event is handled on another connection than the one that
it was reported for, and the server goes through one of its own runs. -/
theorem events_upToDate (srvFd : Nat) (decode : TCPServer.DecodeResult) (run : List LoopAction)
    (inOrder : (machine srvFd decode).Obeys InOrder initial run) :
    (machine srvFd decode).Along (fun loop => loop.UpToDate srvFd ∧ ∃ trace,
      (TCPServer.machine decode).exec TCPServer.initial trace = some loop.server) initial run := by
  have onward : ∀ server action after, (∃ trace,
      (TCPServer.machine decode).exec TCPServer.initial trace = some server) →
      (TCPServer.machine decode).step server action = some after → ∃ trace,
        (TCPServer.machine decode).exec TCPServer.initial trace = some after := by
    rintro server action after ⟨trace, executed⟩ stepped
    exact ⟨trace ++ [action], Machine.exec_append_eq_some executed
      ((TCPServer.machine decode).exec_of_step stepped)⟩
  have reached := (serverSimulation srvFd decode).along onward
    ⟨upToDate_initial srvFd, rfl⟩ ⟨[], rfl⟩ inOrder
  refine reached.mono ?_
  rintro loop ⟨server, ⟨upToDate, rfl⟩, traced⟩
  exact ⟨upToDate, traced⟩

def listening : Nat := 3

/-- One batch closes a connection, accepts another on its descriptor, and receives from a third. -/
def usedAgainInBatch : List LoopAction :=
  [.addDecoder "bumper",
    .poll [(3, false)], .lock, .acceptEvent (.client 5 ⟨⟨127, 0, 0, 1⟩, 40000⟩ true),
    .acceptClient "bumper" "127.0.0.1" 40000, .acceptLocked 0 true,
    .poll [(3, false)], .lock, .acceptEvent (.client 6 ⟨⟨127, 0, 0, 1⟩, 40001⟩ true),
    .acceptClient "bumper" "127.0.0.1" 40001, .acceptLocked 0 true,
    .poll [(5, true), (3, false), (6, false)], .lock, .clientEvent [],
    .acceptEvent (.client 5 ⟨⟨127, 0, 0, 1⟩, 40002⟩ true),
    .clientEvent [.bytes [2, 0, 0, 0, 8, 1, 2], .error EAGAIN]]

theorem events_upToDate_usedAgainInBatch :
    (machine listening TCPServer.flagDecoders).Along (fun loop =>
      loop.UpToDate listening ∧ ∃ trace,
        (TCPServer.machine TCPServer.flagDecoders).exec TCPServer.initial trace =
          some loop.server) initial usedAgainInBatch ∧
      ((machine listening TCPServer.flagDecoders).exec initial usedAgainInBatch).map (fun loop =>
        (loop.returned, loop.server.connections.map ClientConnection.fd)) =
          some ([0, 0, 0], [6, 5]) :=
  ⟨events_upToDate listening TCPServer.flagDecoders usedAgainInBatch (by decide +kernel),
    by decide +kernel⟩

end EventLoop

end ProtoCore.Topic
