import ProtoCore.Library.Machine

/-!
# One stream of a service server

The event loop of `ServiceServer` and the callback task of the stream move in turns.
Every section under `calls_status_mtx` is one step, so a setter that tests the status
and then writes it takes two steps or more, and the other side may move in between.
-/

set_option autoImplicit false

namespace ProtoCore.Service

open Library

inductive ServiceCallStatus where
  | suspend
  | success
  | process
  | aborted
  | failed
  | prompted
  deriving DecidableEq, Repr

inductive ServiceRPCSetting where
  | pullNewReq
  | setCanceled
  deriving DecidableEq, Repr

structure ServiceRPCRequest (Request : Type) where
  setting : ServiceRPCSetting
  payload : Option Request
  deriving DecidableEq, Repr

structure ServiceRPCReply (Reply : Type) where
  status : ServiceCallStatus
  payload : Option Reply
  deriving DecidableEq, Repr

/-- The sending half of a stream: its context, its writes and its queue. `issued`
records the calls of `write_reply` on a context that was not cancelled, `written`
what has been handed to `Write`. -/
structure ReplyStream (Reply : Type) where
  isCancelled : Bool
  replyWaitQueue : List (ServiceRPCReply Reply)
  outstanding : Nat
  completed : Nat
  issued : List (ServiceRPCReply Reply)
  written : List (ServiceRPCReply Reply)
  deriving DecidableEq, Repr

namespace ReplyStream

variable {Reply : Type}

def connected : ReplyStream Reply where
  isCancelled := false
  replyWaitQueue := []
  outstanding := 0
  completed := 0
  issued := []
  written := []

def write (stream : ReplyStream Reply) (reply : ServiceRPCReply Reply) : ReplyStream Reply :=
  { stream with
    outstanding := stream.outstanding + 1
    written := stream.written ++ [reply] }

def writeReply (stream : ReplyStream Reply) (reply : ServiceRPCReply Reply) : ReplyStream Reply :=
  if stream.isCancelled then stream
  else if stream.replyWaitQueue.isEmpty then
    { stream.write reply with issued := stream.issued ++ [reply] }
  else
    { stream with
      replyWaitQueue := stream.replyWaitQueue ++ [reply]
      issued := stream.issued ++ [reply] }

/-- An outstanding write ends. The loop sees its event only if `ok`. -/
def complete (stream : ReplyStream Reply) (ok : Bool) : Option (ReplyStream Reply) :=
  if 0 < stream.outstanding then
    some { stream with
      outstanding := stream.outstanding - 1
      completed := if ok then stream.completed + 1 else stream.completed }
  else none

/-- `handle_event` on WRITE. -/
def handleWrite (stream : ReplyStream Reply) : Option (ReplyStream Reply) :=
  if 0 < stream.completed then
    let stream := { stream with completed := stream.completed - 1 }
    match stream.replyWaitQueue with
    | [] => some stream
    | reply :: rest => some { stream.write reply with replyWaitQueue := rest }
  else none

end ReplyStream

inductive Setter where
  | setFailed
  | setSuccess
  | setAborted
  deriving DecidableEq, Repr

def Setter.status : Setter → ServiceCallStatus
  | .setFailed => .failed
  | .setSuccess => .success
  | .setAborted => .aborted

/-- Where the event loop stands: a READ is handled from `testSuspend` on. -/
inductive LoopStep (Request : Type) where
  | idle
  | testSuspend (request : ServiceRPCRequest Request)
  | processTest (request : ServiceRPCRequest Request)
  | processWrite (request : ServiceRPCRequest Request)
  | launch (request : ServiceRPCRequest Request)
  | testProcess (request : ServiceRPCRequest Request)
  | promptTest
  | promptWrite
  deriving DecidableEq, Repr

inductive TaskStep (Reply : Type) where
  | callback
  | setTestProcess (setter : Setter)
  | setTestPrompted (setter : Setter)
  | setWrite (setter : Setter)
  | endStatus (payload : Reply)
  | writeReply (reply : ServiceRPCReply Reply)
  | suspendTestProcess
  | suspendTestPrompted
  | suspendWrite
  deriving DecidableEq, Repr

/-- An accepted request, and the statuses its callback has asked for. -/
structure Call (Request : Type) where
  request : ServiceRPCRequest Request
  set : List ServiceCallStatus
  deriving DecidableEq, Repr

/-- The data of one stream. The last six fields only record the history: the requests
read, accepted and refused, the callbacks started, the calls answered and the one in
progress. -/
structure ServiceServer (Request Reply : Type) where
  callsStatus : ServiceCallStatus
  replies : ReplyStream Reply
  loop : LoopStep Request
  task : Option (TaskStep Reply)
  read : List (ServiceRPCRequest Request)
  accepted : List (ServiceRPCRequest Request)
  refused : List (ServiceRPCRequest Request)
  started : List (ServiceRPCRequest Request)
  answered : List (Call Request)
  running : Option (Call Request)
  deriving DecidableEq, Repr

/-- A step of one party: the arrival of a request, the next step of the event loop,
what the callback does next, the next step of the task around it, and what gRPC does. -/
inductive Action (Request Reply : Type) where
  | receive (request : ServiceRPCRequest Request)
  | loop
  | callbackSet (setter : Setter)
  | callbackReturn (payload : Reply)
  | task
  | complete (ok : Bool)
  | handleWrite
  | disconnect
  deriving DecidableEq, Repr

namespace ServiceServer

variable {Request Reply : Type}

/-- A stream after CONNECT, with its first `Read` issued. -/
def connected : ServiceServer Request Reply where
  callsStatus := .suspend
  replies := .connected
  loop := .idle
  task := none
  read := []
  accepted := []
  refused := []
  started := []
  answered := []
  running := none

def isSuspend (server : ServiceServer Request Reply) : Bool := server.callsStatus = .suspend

def isProcess (server : ServiceServer Request Reply) : Bool := server.callsStatus = .process

def isPrompted (server : ServiceServer Request Reply) : Bool := server.callsStatus = .prompted

def endStatus (server : ServiceServer Request Reply) : ServiceCallStatus :=
  if server.isSuspend || server.isProcess || server.isPrompted then .aborted
  else server.callsStatus

def writeReply (server : ServiceServer Request Reply) (reply : ServiceRPCReply Reply) :
    ServiceServer Request Reply :=
  { server with replies := server.replies.writeReply reply }

/-- The next step of `handle_event` on READ. `setProcess` and `setPrompted` are its
steps from `processTest` and `promptTest` on. -/
def loopStep (server : ServiceServer Request Reply) : Option (ServiceServer Request Reply) :=
  match server.loop with
  | .idle => none
  | .testSuspend request =>
      if server.isSuspend && request.setting == .pullNewReq then
        some { server with
          loop := .processTest request
          accepted := server.accepted ++ [request]
          running := some { request := request, set := [] } }
      else some { server with loop := .testProcess request }
  | .processTest request =>
      if !server.isSuspend then some { server with loop := .launch request }
      else some { server with loop := .processWrite request }
  | .processWrite request =>
      some { server.writeReply { status := .process, payload := none } with
        callsStatus := .process
        loop := .launch request }
  | .launch request =>
      -- the future still holds no other task, see `launch_unblocked`
      match server.task with
      | some _ => none
      | none => some { server with
          loop := .idle
          task := some .callback
          started := server.started ++ [request] }
  | .testProcess request =>
      if server.isProcess && request.setting == .setCanceled then
        some { server with loop := .promptTest }
      else some { server with loop := .idle, refused := server.refused ++ [request] }
  | .promptTest =>
      if !server.isProcess then some { server with loop := .idle }
      else some { server with loop := .promptWrite }
  | .promptWrite =>
      some { server.writeReply { status := .prompted, payload := none } with
        callsStatus := .prompted
        loop := .idle }

/-- The next step of the task outside the callback's own code. `setFailed`, `setSuccess`
and `setAborted` are the steps from `setTestProcess` on, `setSuspend` those from
`suspendTestProcess` on. -/
def taskStep (server : ServiceServer Request Reply) : Option (ServiceServer Request Reply) :=
  match server.task with
  | none => none
  | some .callback => none
  | some (.setTestProcess setter) =>
      if server.isProcess then some { server with task := some (.setWrite setter) }
      else some { server with task := some (.setTestPrompted setter) }
  | some (.setTestPrompted setter) =>
      if server.isPrompted then some { server with task := some (.setWrite setter) }
      else some { server with task := some .callback }
  | some (.setWrite setter) =>
      some { server with callsStatus := setter.status, task := some .callback }
  | some (.endStatus payload) =>
      some { server with
        callsStatus := server.endStatus
        task := some (.writeReply { status := server.endStatus, payload := some payload }) }
  | some (.writeReply reply) =>
      some { server.writeReply reply with
        task := some .suspendTestProcess
        answered := server.answered ++ server.running.toList
        running := none }
  | some .suspendTestProcess =>
      if server.isProcess then some { server with task := none }
      else some { server with task := some .suspendTestPrompted }
  | some .suspendTestPrompted =>
      if server.isPrompted then some { server with task := none }
      else some { server with task := some .suspendWrite }
  | some .suspendWrite => some { server with callsStatus := .suspend, task := none }

def callbackSet (server : ServiceServer Request Reply) (setter : Setter) :
    Option (ServiceServer Request Reply) :=
  match server.task with
  | some .callback => some { server with
      task := some (.setTestProcess setter)
      running := server.running.map fun call => { call with set := call.set ++ [setter.status] } }
  | _ => none

def callbackReturn (server : ServiceServer Request Reply) (payload : Reply) :
    Option (ServiceServer Request Reply) :=
  match server.task with
  | some .callback => some { server with task := some (.endStatus payload) }
  | _ => none

/-- A READ event: `requests_[stream_id]` holds a new request. -/
def receive (server : ServiceServer Request Reply) (request : ServiceRPCRequest Request) :
    Option (ServiceServer Request Reply) :=
  match server.loop with
  | .idle => some { server with
      loop := .testSuspend request
      read := server.read ++ [request] }
  | _ => none

def step (server : ServiceServer Request Reply) :
    Action Request Reply → Option (ServiceServer Request Reply)
  | .receive request => server.receive request
  | .loop => server.loopStep
  | .callbackSet setter => server.callbackSet setter
  | .callbackReturn payload => server.callbackReturn payload
  | .task => server.taskStep
  | .complete ok => (server.replies.complete ok).map fun replies => { server with replies := replies }
  | .handleWrite =>
      if server.loop matches .idle then
        server.replies.handleWrite.map fun replies => { server with replies := replies }
      else none
  | .disconnect => some { server with replies := { server.replies with isCancelled := true } }

def machine : Machine (ServiceServer Request Reply) (Action Request Reply) where
  step := step

/-! ## One task at a time -/

/-- The loop has accepted a request whose task has not been started. -/
def Accepting (server : ServiceServer Request Reply) : Prop :=
  match server.loop with
  | .processTest _ | .processWrite _ | .launch _ => True
  | _ => False

/-- A task writes SUSPEND last, so the loop accepts a request only after its end. -/
structure Exclusive (server : ServiceServer Request Reply) : Prop where
  suspended : server.callsStatus = .suspend → server.task = none
  accepting : server.Accepting → server.task = none
  launching : ∀ request, server.loop = .launch request → server.callsStatus ≠ .suspend

theorem endStatus_ne_suspend (server : ServiceServer Request Reply) :
    server.endStatus ≠ .suspend := by
  unfold endStatus isSuspend isProcess isPrompted
  cases server.callsStatus <;> decide

theorem Exclusive.loopStep {server next : ServiceServer Request Reply}
    (exclusive : server.Exclusive) (stepped : server.loopStep = some next) : next.Exclusive := by
  have accepting := exclusive.accepting
  unfold ServiceServer.loopStep at stepped
  split at stepped
  case h_1 => cases stepped
  case h_2 request located =>
    split at stepped
    · rename_i accepts
      simp only [Bool.and_eq_true, isSuspend, decide_eq_true_eq] at accepts
      cases stepped
      exact ⟨exclusive.suspended, fun _ => exclusive.suspended accepts.1,
        fun _ other => by cases other⟩
    · cases stepped
      exact ⟨exclusive.suspended, False.elim, fun _ other => by cases other⟩
  case h_3 request located =>
    simp only [Accepting, located] at accepting
    split at stepped
    · rename_i left
      cases stepped
      refine ⟨exclusive.suspended, accepting, fun _ _ => ?_⟩
      simpa [isSuspend] using left
    · cases stepped
      exact ⟨exclusive.suspended, accepting, fun _ other => by cases other⟩
  case h_4 request located =>
    simp only [Accepting, located] at accepting
    cases stepped
    exact ⟨fun _ => accepting trivial, accepting, fun _ _ same => by cases same⟩
  case h_5 request located =>
    split at stepped
    · cases stepped
    · cases stepped
      exact ⟨fun same => absurd same (exclusive.launching request located), False.elim,
        fun _ other => by cases other⟩
  case h_6 request located =>
    split at stepped <;> cases stepped <;>
      exact ⟨exclusive.suspended, False.elim, fun _ other => by cases other⟩
  case h_7 located =>
    split at stepped <;> cases stepped <;>
      exact ⟨exclusive.suspended, False.elim, fun _ other => by cases other⟩
  case h_8 located =>
    cases stepped
    exact ⟨(fun same => by cases same), False.elim, fun _ other => by cases other⟩

/-- A step of a running task. -/
theorem Exclusive.advance {server next : ServiceServer Request Reply}
    (exclusive : server.Exclusive) {task : TaskStep Reply} (running : server.task = some task)
    (loop : next.loop = server.loop)
    (suspended : next.callsStatus = .suspend → next.task = none) : next.Exclusive := by
  have busy : ¬ server.Accepting := fun accepting =>
    Option.some_ne_none task (running.symm.trans (exclusive.accepting accepting))
  refine ⟨suspended, fun accepting => ?_, fun request located => ?_⟩
  · rw [Accepting, loop] at accepting
    exact absurd accepting busy
  · rw [loop] at located
    exact absurd (by rw [Accepting, located]; trivial) busy

theorem Exclusive.taskStep {server next : ServiceServer Request Reply}
    (exclusive : server.Exclusive) (stepped : server.taskStep = some next) : next.Exclusive := by
  cases running : server.task with
  | none => simp [ServiceServer.taskStep, running] at stepped
  | some task =>
      have left : server.callsStatus ≠ .suspend := fun same =>
        Option.some_ne_none task (running.symm.trans (exclusive.suspended same))
      cases task with
      | callback => simp [ServiceServer.taskStep, running] at stepped
      | setTestProcess | setTestPrompted | suspendTestProcess | suspendTestPrompted =>
          simp only [ServiceServer.taskStep, running] at stepped
          split at stepped <;> cases stepped <;>
            exact exclusive.advance running rfl fun same => absurd same left
      | setWrite setter =>
          simp only [ServiceServer.taskStep, running] at stepped
          cases stepped
          refine exclusive.advance running rfl fun same => ?_
          cases setter <;> cases same
      | endStatus payload =>
          simp only [ServiceServer.taskStep, running] at stepped
          cases stepped
          exact exclusive.advance running rfl fun same => absurd same server.endStatus_ne_suspend
      | writeReply reply =>
          simp only [ServiceServer.taskStep, running] at stepped
          cases stepped
          exact exclusive.advance running rfl fun same => absurd same left
      | suspendWrite =>
          simp only [ServiceServer.taskStep, running] at stepped
          cases stepped
          exact exclusive.advance running rfl fun _ => rfl

theorem Exclusive.step {server next : ServiceServer Request Reply} {action : Action Request Reply}
    (exclusive : server.Exclusive) (stepped : server.step action = some next) :
    next.Exclusive := by
  cases action with
  | receive request =>
      simp only [ServiceServer.step, ServiceServer.receive] at stepped
      split at stepped
      · cases stepped
        exact ⟨exclusive.suspended, False.elim, fun _ other => by cases other⟩
      · cases stepped
  | loop => exact exclusive.loopStep stepped
  | callbackSet setter =>
      simp only [ServiceServer.step, ServiceServer.callbackSet] at stepped
      split at stepped
      · rename_i running
        cases stepped
        exact exclusive.advance running rfl fun same =>
          absurd (running.symm.trans (exclusive.suspended same)) (Option.some_ne_none _)
      · cases stepped
  | callbackReturn payload =>
      simp only [ServiceServer.step, ServiceServer.callbackReturn] at stepped
      split at stepped
      · rename_i running
        cases stepped
        exact exclusive.advance running rfl fun same =>
          absurd (running.symm.trans (exclusive.suspended same)) (Option.some_ne_none _)
      · cases stepped
  | task => exact exclusive.taskStep stepped
  | complete ok =>
      obtain ⟨replies, _, rfl⟩ := Option.map_eq_some_iff.mp stepped
      exact ⟨exclusive.suspended, exclusive.accepting, exclusive.launching⟩
  | handleWrite =>
      simp only [ServiceServer.step] at stepped
      split at stepped
      · obtain ⟨replies, _, rfl⟩ := Option.map_eq_some_iff.mp stepped
        exact ⟨exclusive.suspended, exclusive.accepting, exclusive.launching⟩
      · cases stepped
  | disconnect =>
      cases stepped
      exact ⟨exclusive.suspended, exclusive.accepting, exclusive.launching⟩

/-- In no run does the loop start a task while another one is left. -/
theorem launch_unblocked (run : List (Action Request Reply)) :
    machine.Along (fun server => ∀ request, server.loop = .launch request → server.task = none)
      connected run := by
  have initial : (connected : ServiceServer Request Reply).Exclusive :=
    ⟨fun _ => rfl, fun _ => rfl, fun _ other => by cases other⟩
  have along := machine.along_of_preserved Exclusive
    (fun _ _ _ exclusive stepped => Exclusive.step exclusive stepped) initial run
  refine along.mono fun server exclusive request located => exclusive.accepting ?_
  rw [Accepting, located]
  trivial

end ServiceServer

end ProtoCore.Service
