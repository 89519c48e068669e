import ProtoCore.Service.ServiceServer

/-!
# The streams of a service server

All streams of a server share one event loop, and an id is used for one connection after
another. What belongs to an id lies in six vectors. A CONNECT makes the next listener, on
an id that was given back or on a new one, before the new connection is read from.
-/

set_option autoImplicit false

namespace ProtoCore.Service

open Library

/-- A stream object, with its number among those of its id. Number 0 is put into the vector
when it grows and never listens. `reading` is the allocation of `requests_` that a `Read` which is
outstanding on it was given. -/
structure StreamObject where
  number : Nat
  reading : Option Nat
  deriving DecidableEq, Repr

/-- A reply, with the number of the stream object whose call has produced it. -/
structure TaggedReply (Reply : Type) where
  connection : Nat
  reply : ServiceRPCReply Reply
  deriving DecidableEq, Repr

/-- An entry of `future_storages`: without a shared state, or with a task that has ended or
still runs. -/
inductive TaskFuture (Reply : Type) where
  | empty
  | finished
  | running (connection : Nat) (task : TaskStep Reply)
  deriving DecidableEq, Repr

def TaskFuture.isRunning {Reply : Type} : TaskFuture Reply → Bool
  | .running _ _ => true
  | _ => false

/-- A reply that was passed to `Write`, and the number of the stream object. -/
structure SentReply (Reply : Type) where
  stream : Nat
  tagged : TaggedReply Reply
  deriving DecidableEq, Repr

/-- Who makes a listener: the constructor, with the number of those it makes after this one, or
the CONNECT of an id. -/
inductive Creator where
  | constructor (left : Nat)
  | connect (tag : Nat)
  deriving DecidableEq, Repr

/-- The next step of the event loop. `abortTestProcess` to `listen` are steps of
`CreateListenPort`, and `testSuspend` to `readAgain` those of a READ. A loop that is
`killed` has called `get()` on a future without a shared state. -/
inductive PoolStage where
  | idle
  | generate (creator : Creator)
  | grow (creator : Creator) (id : Nat)
  | abortTestProcess (creator : Creator) (id : Nat)
  | abortTestPrompted (creator : Creator) (id : Nat)
  | abortWrite (creator : Creator) (id : Nat)
  | get (creator : Creator) (id : Nat)
  | listen (creator : Creator) (id : Nat)
  | suspendTestProcess (tag : Nat)
  | suspendTestPrompted (tag : Nat)
  | suspendWrite (tag : Nat)
  | readFirst (tag : Nat)
  | processed (tag : Nat)
  | testSuspend (tag : Nat)
  | processTest (tag : Nat)
  | processWrite (tag : Nat)
  | launch (tag : Nat)
  | testProcess (tag : Nat)
  | promptTest (tag : Nat)
  | promptWrite (tag : Nat)
  | readAgain (tag : Nat)
  | killed (creator : Creator) (id : Nat)
  deriving DecidableEq, Repr

def Creator.next : Creator → PoolStage
  | .constructor 0 => .idle
  | .constructor (left + 1) => .generate (.constructor left)
  | .connect tag => .suspendTestProcess tag

/-- The members of a `ServiceServer`. `pulls` are the ids whose `RequestServicePullRequest`
has not been answered by a CONNECT, `connected` those whose BROKEN_PIPE is still to come,
and `writes` those of the outstanding writes. `capacity` is that of `requests_`, which is moved
to a new allocation when it is full. `accepted` records the requests accepted on the connection
of an id, and `sent` all calls of `Write`. -/
structure StreamPool (Request Reply : Type) where
  streams : List StreamObject
  contexts : List Bool
  requests : List (ServiceRPCRequest Request)
  capacity : Nat
  allocation : Nat
  callsStatus : List ServiceCallStatus
  futureStorages : List (TaskFuture Reply)
  replyWaitQueue : List (List (TaggedReply Reply))
  streamId : Nat
  reusableId : List Nat
  loop : PoolStage
  pulls : List Nat
  connected : List Nat
  writes : List Nat
  accepted : Nat → List (ServiceRPCRequest Request)
  sent : List (SentReply Reply)

/-- An event that the loop gets from its completion queue, its next step, a step of the task
of an id, or the end of a connection on the side of gRPC. -/
inductive PoolAction (Request Reply : Type) where
  | connect (id : Nat)
  | read (id : Nat) (request : ServiceRPCRequest Request)
  | readFailed (id : Nat)
  | write (id : Nat)
  | writeFailed (id : Nat)
  | brokenPipe (id : Nat)
  | cancel (id : Nat)
  | loop
  | callbackSet (id : Nat) (setter : Setter)
  | callbackReturn (id : Nat) (payload : Reply)
  | task (id : Nat)
  deriving DecidableEq, Repr

namespace StreamPool

variable {Request Reply : Type}

/-- The server before its ten first listeners are made. -/
def initial : StreamPool Request Reply where
  streams := []
  contexts := []
  requests := []
  capacity := 0
  allocation := 0
  callsStatus := []
  futureStorages := []
  replyWaitQueue := []
  streamId := 0
  reusableId := []
  loop := .generate (.constructor 9)
  pulls := []
  connected := []
  writes := []
  accepted _ := []
  sent := []

def isSuspend (pool : StreamPool Request Reply) (id : Nat) : Bool :=
  pool.callsStatus[id]? = some .suspend

def isProcess (pool : StreamPool Request Reply) (id : Nat) : Bool :=
  pool.callsStatus[id]? = some .process

def isPrompted (pool : StreamPool Request Reply) (id : Nat) : Bool :=
  pool.callsStatus[id]? = some .prompted

def setStatus (pool : StreamPool Request Reply) (id : Nat) (status : ServiceCallStatus) :
    StreamPool Request Reply :=
  { pool with callsStatus := pool.callsStatus.set id status }

def setFuture (pool : StreamPool Request Reply) (id : Nat) (future : TaskFuture Reply) :
    StreamPool Request Reply :=
  { pool with futureStorages := pool.futureStorages.set id future }

def setReading (pool : StreamPool Request Reply) (id : Nat) (reading : Option Nat) :
    StreamPool Request Reply :=
  { pool with
    streams := pool.streams.modify id fun stream => { stream with reading := reading } }

/-- `Write` on the stream object that the id has now. -/
def send (pool : StreamPool Request Reply) (id : Nat) (stream : StreamObject)
    (tagged : TaggedReply Reply) : StreamPool Request Reply :=
  { pool with
    writes := pool.writes ++ [id]
    sent := pool.sent ++ [{ stream := stream.number, tagged := tagged }] }

def writeReply (pool : StreamPool Request Reply) (id : Nat) (tagged : TaggedReply Reply) :
    StreamPool Request Reply :=
  match pool.contexts[id]?, pool.replyWaitQueue[id]?, pool.streams[id]? with
  | some false, some [], some stream => pool.send id stream tagged
  | some false, some queue, _ =>
      { pool with replyWaitQueue := pool.replyWaitQueue.set id (queue ++ [tagged]) }
  | _, _, _ => pool

/-- A reply of the event loop itself, to the call on the stream object that the id has now. -/
def writeStatus (pool : StreamPool Request Reply) (id : Nat) (status : ServiceCallStatus) :
    StreamPool Request Reply :=
  match pool.streams[id]? with
  | none => pool
  | some stream => pool.writeReply id ⟨stream.number, { status := status, payload := none }⟩

/-- The six `push_back` of `CreateListenPort`. Of the vectors that they move, only `requests_`
is pointed into. -/
def pushBack (pool : StreamPool Request Reply) : StreamPool Request Reply :=
  let full := pool.requests.length = pool.capacity
  { pool with
    streams := pool.streams ++ [{ number := 0, reading := none }]
    capacity := if full then pool.capacity + max pool.capacity 1 else pool.capacity
    allocation := if full then pool.allocation + 1 else pool.allocation
    contexts := pool.contexts ++ [false]
    requests := pool.requests ++ [{ setting := .pullNewReq, payload := none }]
    callsStatus := pool.callsStatus ++ [.suspend]
    futureStorages := pool.futureStorages ++ [.finished]
    replyWaitQueue := pool.replyWaitQueue ++ [[]] }

/-- The last statements of `CreateListenPort`. The old stream object is destroyed, and an
outstanding `Read` is lost with it. -/
def listenOn (pool : StreamPool Request Reply) (id : Nat) : StreamPool Request Reply :=
  { pool with
    contexts := pool.contexts.set id false
    streams := pool.streams.modify id fun stream =>
      { number := stream.number + 1, reading := none }
    pulls := pool.pulls ++ [id]
    accepted := Function.update pool.accepted id [] }

/-- The request is accepted, and its callback runs in a new task. -/
def launchTask (pool : StreamPool Request Reply) (tag : Nat) : Option (StreamPool Request Reply) :=
  match pool.futureStorages[tag]?, pool.streams[tag]?, pool.requests[tag]? with
  | some future, some stream, some request =>
      -- an old task would be waited for
      if future.isRunning then none
      else some { pool.setFuture tag (.running stream.number .callback) with
        accepted := Function.update pool.accepted tag (pool.accepted tag ++ [request])
        loop := .readAgain tag }
  | _, _, _ => none

/-- The next step of `CreateListenPort`, with the generation of its id. -/
def createStep (pool : StreamPool Request Reply) : Option (StreamPool Request Reply) :=
  match pool.loop with
  | .generate creator =>
      match pool.reusableId with
      | [] => some { pool with
          streamId := pool.streamId + 1
          loop := .grow creator pool.streamId }
      | id :: rest => some { pool with
          reusableId := rest
          loop := .grow creator id }
  | .grow creator id =>
      let grown := if pool.streams.length ≤ id then pool.pushBack else pool
      some { grown with loop := .abortTestProcess creator id }
  | .abortTestProcess creator id =>
      some { pool with
        loop := if pool.isProcess id then .abortWrite creator id
          else .abortTestPrompted creator id }
  | .abortTestPrompted creator id =>
      some { pool with
        loop := if pool.isPrompted id then .abortWrite creator id else .get creator id }
  | .abortWrite creator id =>
      some { pool.setStatus id .aborted with loop := .get creator id }
  | .get creator id =>
      match pool.futureStorages[id]? with
      | some .finished => some { pool.setFuture id .empty with loop := .listen creator id }
      | some .empty => some { pool with loop := .killed creator id }
      | _ => none
  | .listen creator id => some { pool.listenOn id with loop := creator.next }
  | _ => none

/-- The next step of a CONNECT after its `CreateListenPort`. -/
def connectStep (pool : StreamPool Request Reply) : Option (StreamPool Request Reply) :=
  match pool.loop with
  | .suspendTestProcess tag =>
      some { pool with
        loop := if pool.isProcess tag then .readFirst tag else .suspendTestPrompted tag }
  | .suspendTestPrompted tag =>
      some { pool with
        loop := if pool.isPrompted tag then .readFirst tag else .suspendWrite tag }
  | .suspendWrite tag => some { pool.setStatus tag .suspend with loop := .readFirst tag }
  | .readFirst tag =>
      some { pool.setReading tag (some pool.allocation) with loop := .processed tag }
  | .processed _ => some { pool with loop := .idle }
  | _ => none

/-- The next step of a READ. -/
def readStep (pool : StreamPool Request Reply) : Option (StreamPool Request Reply) :=
  match pool.loop with
  | .testSuspend tag =>
      (pool.requests[tag]?).map fun request =>
        { pool with
          loop := if pool.isSuspend tag && request.setting == .pullNewReq then .processTest tag
            else .testProcess tag }
  | .processTest tag =>
      some { pool with loop := if !pool.isSuspend tag then .launch tag else .processWrite tag }
  | .processWrite tag =>
      some { (pool.setStatus tag .process).writeStatus tag .process with loop := .launch tag }
  | .launch tag => pool.launchTask tag
  | .testProcess tag =>
      (pool.requests[tag]?).map fun request =>
        { pool with
          loop := if pool.isProcess tag && request.setting == .setCanceled then .promptTest tag
            else .readAgain tag }
  | .promptTest tag =>
      some { pool with
        loop := if !pool.isProcess tag then .readAgain tag else .promptWrite tag }
  | .promptWrite tag =>
      some { (pool.setStatus tag .prompted).writeStatus tag .prompted with loop := .readAgain tag }
  | .readAgain tag => some { pool.setReading tag (some pool.allocation) with loop := .idle }
  | _ => none

def loopStep (pool : StreamPool Request Reply) : Option (StreamPool Request Reply) :=
  match pool.loop with
  | .generate _ | .grow _ _ | .abortTestProcess _ _ | .abortTestPrompted _ _ | .abortWrite _ _
  | .get _ _ | .listen _ _ => pool.createStep
  | .suspendTestProcess _ | .suspendTestPrompted _ | .suspendWrite _ | .readFirst _
  | .processed _ => pool.connectStep
  | _ => pool.readStep

def endStatus (status : ServiceCallStatus) : ServiceCallStatus :=
  if status = .suspend ∨ status = .process ∨ status = .prompted then .aborted else status

/-- The next step of the task of an id outside the callback's own code. -/
def taskStep (pool : StreamPool Request Reply) (id : Nat) : Option (StreamPool Request Reply) :=
  match pool.futureStorages[id]? with
  | some (.running connection task) =>
      match task with
      | .callback => none
      | .setTestProcess setter =>
          some (pool.setFuture id (.running connection
            (if pool.isProcess id then .setWrite setter else .setTestPrompted setter)))
      | .setTestPrompted setter =>
          some (pool.setFuture id (.running connection
            (if pool.isPrompted id then .setWrite setter else .callback)))
      | .setWrite setter =>
          some ((pool.setStatus id setter.status).setFuture id (.running connection .callback))
      | .endStatus payload =>
          (pool.callsStatus[id]?).map fun status =>
            (pool.setStatus id (endStatus status)).setFuture id (.running connection
              (.writeReply { status := endStatus status, payload := some payload }))
      | .writeReply reply =>
          some ((pool.writeReply id ⟨connection, reply⟩).setFuture id
            (.running connection .suspendTestProcess))
      | .suspendTestProcess =>
          some (pool.setFuture id
            (if pool.isProcess id then .finished else .running connection .suspendTestPrompted))
      | .suspendTestPrompted =>
          some (pool.setFuture id
            (if pool.isPrompted id then .finished else .running connection .suspendWrite))
      | .suspendWrite => some ((pool.setStatus id .suspend).setFuture id .finished)
  | _ => none

/-- What the callback of an id does next. -/
def callbackStep (pool : StreamPool Request Reply) (id : Nat) (next : TaskStep Reply) :
    Option (StreamPool Request Reply) :=
  match pool.futureStorages[id]? with
  | some (.running connection .callback) => some (pool.setFuture id (.running connection next))
  | _ => none

/-- An outstanding `Read` ends. -/
def readEnds (pool : StreamPool Request Reply) (id : Nat) : Option (StreamPool Request Reply) :=
  match pool.streams[id]? with
  | some stream => if stream.reading.isSome then some (pool.setReading id none) else none
  | none => none

/-- The outstanding `Read` of the id was given the memory that `requests_` has now. -/
def lands (pool : StreamPool Request Reply) (id : Nat) : Bool :=
  (pool.streams[id]?).any fun stream => stream.reading == some pool.allocation

/-- A message that comes to memory which `requests_` has left is in no entry. -/
def store (pool : StreamPool Request Reply) (id : Nat) (request : ServiceRPCRequest Request) :
    List (ServiceRPCRequest Request) :=
  if pool.lands id then pool.requests.set id request else pool.requests

/-- `handle_event` on WRITE. -/
def handleWrite (pool : StreamPool Request Reply) (id : Nat) : StreamPool Request Reply :=
  match pool.replyWaitQueue[id]?, pool.streams[id]? with
  | some (tagged :: rest), some stream =>
      { pool with replyWaitQueue := pool.replyWaitQueue.set id rest }.send id stream tagged
  | _, _ => pool

/-- An event that comes to the idle loop. -/
def event (pool : StreamPool Request Reply) :
    PoolAction Request Reply → Option (StreamPool Request Reply)
  | .connect id =>
      if pool.pulls.contains id then
        some { pool with
          pulls := pool.pulls.erase id
          connected := pool.connected ++ [id]
          loop := .generate (.connect id) }
      else none
  | .read id request =>
      (pool.readEnds id).map fun ended =>
        { ended with
          requests := pool.store id request
          loop := .testSuspend id }
  | .readFailed id => pool.readEnds id
  | .write id =>
      if pool.writes.contains id then
        some ({ pool with writes := pool.writes.erase id }.handleWrite id)
      else none
  | .writeFailed id =>
      if pool.writes.contains id then some { pool with writes := pool.writes.erase id } else none
  | .brokenPipe id =>
      if pool.connected.contains id then
        some { pool with
          connected := pool.connected.erase id
          reusableId := pool.reusableId ++ [id] }
      else none
  | _ => none

def step (pool : StreamPool Request Reply) :
    PoolAction Request Reply → Option (StreamPool Request Reply)
  | .cancel id =>
      if id < pool.contexts.length then some { pool with contexts := pool.contexts.set id true }
      else none
  | .loop => pool.loopStep
  | .callbackSet id setter => pool.callbackStep id (.setTestProcess setter)
  | .callbackReturn id payload => pool.callbackStep id (.endStatus payload)
  | .task id => pool.taskStep id
  | action => if pool.loop = .idle then pool.event action else none

def machine : Machine (StreamPool Request Reply) (PoolAction Request Reply) := ⟨step⟩

end StreamPool

end ProtoCore.Service
