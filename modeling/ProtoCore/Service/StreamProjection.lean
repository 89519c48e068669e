import ProtoCore.Library.Simulation
import ProtoCore.Service.ReplyGrammar
import ProtoCore.Service.StreamView

/-!
# One stream of the pool

The streams of a server share its vectors, its event loop and its completion queue. Between the
CONNECT of an id and its next use, what happens on the id is a run of the stream by itself,
whatever happens on the others.
-/

set_option autoImplicit false

namespace ProtoCore.Service

open Library

variable {Request Reply : Type}

/-- Where the loop stands for the stream of an id, with the request that was read last. -/
def PoolStage.on (tag : Nat) (request : ServiceRPCRequest Request) :
    PoolStage → LoopStep Request
  | .testSuspend id => if id = tag then .testSuspend request else .idle
  | .processTest id => if id = tag then .processTest request else .idle
  | .processWrite id => if id = tag then .processWrite request else .idle
  | .launch id => if id = tag then .launch request else .idle
  | .testProcess id => if id = tag then .testProcess request else .idle
  | .promptTest id => if id = tag then .promptTest else .idle
  | .promptWrite id => if id = tag then .promptWrite else .idle
  | _ => .idle

/-- The id whose CONNECT is being processed, until it is read from. -/
def PoolStage.connecting : PoolStage → Option Nat
  | .generate (.connect tag) | .grow (.connect tag) _ | .abortTestProcess (.connect tag) _
  | .abortTestPrompted (.connect tag) _ | .abortWrite (.connect tag) _ | .get (.connect tag) _
  | .listen (.connect tag) _ | .killed (.connect tag) _ | .suspendTestProcess tag
  | .suspendTestPrompted tag | .suspendWrite tag | .readFirst tag => some tag
  | _ => none

def TaskFuture.current : TaskFuture Reply → Option (Nat × TaskStep Reply)
  | .running connection task => some (connection, task)
  | .empty | .finished => none

namespace StreamPool

/-- The loop does not go on with an id that has been generated again. -/
def Keeps (tag : Nat) (pool : StreamPool Request Reply) (action : PoolAction Request Reply) :
    Prop :=
  action = .loop → tag ∉ pool.loop.inHand

/-- PROMPTED is only written over PROCESS. -/
def PromptsInTime (tag : Nat) (pool : StreamPool Request Reply)
    (action : PoolAction Request Reply) : Prop :=
  action = .loop → pool.loop = .promptWrite tag → pool.isProcess tag = true

/-- A message comes to memory that `requests_` still has. -/
def Lands (pool : StreamPool Request Reply) : PoolAction Request Reply → Prop
  | .read id _ => pool.lands id = true
  | _ => True

instance (pool : StreamPool Request Reply) :
    (action : PoolAction Request Reply) → Decidable (pool.Lands action)
  | .read id _ => inferInstanceAs (Decidable (pool.lands id = true))
  | .connect _ | .readFailed _ | .write _ | .writeFailed _ | .brokenPipe _ | .cancel _ | .loop
  | .callbackSet _ _ | .callbackReturn _ _ | .task _ => isTrue trivial

/-- A step of a run in which no message comes to memory that has been freed. -/
def landingStep (pool : StreamPool Request Reply) (action : PoolAction Request Reply) :
    Option (StreamPool Request Reply) :=
  if pool.Lands action then pool.step action else none

def landingMachine : Machine (StreamPool Request Reply) (PoolAction Request Reply) := ⟨landingStep⟩

end StreamPool

/-- The pool with what was read and written on one stream. -/
structure WatchedPool (Request Reply : Type) where
  pool : StreamPool Request Reply
  read : List (ServiceRPCRequest Request)
  written : List (ServiceRPCReply Reply)

def PoolAction.reads (tag : Nat) : PoolAction Request Reply → List (ServiceRPCRequest Request)
  | .read id request => if id = tag then [request] else []
  | _ => []

namespace WatchedPool

def step (tag : Nat) (watched : WatchedPool Request Reply) (action : PoolAction Request Reply) :
    Option (WatchedPool Request Reply) :=
  (watched.pool.landingStep action).map fun next =>
    { pool := next
      read := watched.read ++ action.reads tag
      written := watched.written ++ watched.pool.issues next tag }

def machine (tag : Nat) : Machine (WatchedPool Request Reply) (PoolAction Request Reply) :=
  ⟨step tag⟩

end WatchedPool

/-- The entries of the id, its place in the loop and its share of the outstanding writes are
those of the stream by itself. -/
structure Serves (tag connection : Nat) (watched : WatchedPool Request Reply)
    (server : ServiceServer Request Reply) : Prop where
  entries : ∃ request future earlier,
    watched.pool.view tag = {
      status := some server.callsStatus
      context := some server.replies.isCancelled
      request := some request
      queue := some []
      number := some connection
      future := some future
      accepted := earlier ++ server.started } ∧
    future.current = server.task.map (Prod.mk connection) ∧
    server.loop = watched.pool.loop.on tag request
  unconnected : tag ∉ watched.pool.pulls ∧ watched.pool.loop.connecting ≠ some tag
  direct : server.replies.replyWaitQueue = []
  outstanding : server.replies.outstanding ≤ watched.pool.writes.count tag
  completed : server.replies.completed = 0
  read : server.read = watched.read
  written : server.replies.written = watched.written

/-! ## A step of the pool and a step of the stream -/

theorem ServiceServer.obeys_of_loopless {trace : List (Action Request Reply)}
    (loopless : .loop ∉ trace) (server : ServiceServer Request Reply) :
    machine.Obeys PromptsInTime server trace := by
  induction trace generalizing server with
  | nil => trivial
  | cons move rest ih =>
      simp only [List.mem_cons, not_or] at loopless
      exact fun next _ => ⟨fun same => absurd same.symm loopless.1, ih loopless.2 next⟩

/-- The stream by itself makes some steps of its own, mostly one or none. -/
def Follows (tag connection : Nat) (watched : WatchedPool Request Reply)
    (server : ServiceServer Request Reply) (action : PoolAction Request Reply)
    (next : StreamPool Request Reply) : Prop :=
  ∃ trace after, ServiceServer.machine.exec server trace = some after ∧
    (watched.pool.PromptsInTime tag action →
      ServiceServer.machine.Obeys ServiceServer.PromptsInTime server trace) ∧
    Serves tag connection
      ⟨next, watched.read ++ action.reads tag, watched.written ++ watched.pool.issues next tag⟩
      after

section Steps

variable {tag connection : Nat} {watched : WatchedPool Request Reply}
  {server : ServiceServer Request Reply} {action : PoolAction Request Reply}
  {next : StreamPool Request Reply}

theorem Serves.stutter (serves : Serves tag connection watched server)
    (elsewhere : StreamPool.Elsewhere tag watched.pool next) (unread : action.reads tag = [])
    (loop : ∀ request : ServiceRPCRequest Request,
      next.loop.on tag request = watched.pool.loop.on tag request)
    (unconnected : tag ∉ next.pulls ∧ next.loop.connecting ≠ some tag) :
    Follows tag connection watched server action next := by
  refine ⟨[], server, rfl, fun _ => trivial, ?_⟩
  rw [unread, elsewhere.silent, List.append_nil, List.append_nil]
  obtain ⟨request, future, earlier, view, task, place⟩ := serves.entries
  have onward := place.trans (loop request).symm
  exact ⟨⟨request, future, earlier, elsewhere.view.trans view, task, onward⟩, unconnected,
    serves.direct, elsewhere.count ▸ serves.outstanding, serves.completed, serves.read,
    serves.written⟩

theorem Serves.status (serves : Serves tag connection watched server) :
    watched.pool.callsStatus[tag]? = some server.callsStatus := by
  obtain ⟨_, _, _, view, _⟩ := serves.entries
  exact congrArg StreamView.status view

theorem Serves.context (serves : Serves tag connection watched server) :
    watched.pool.contexts[tag]? = some server.replies.isCancelled := by
  obtain ⟨_, _, _, view, _⟩ := serves.entries
  exact congrArg StreamView.context view

theorem Serves.queue (serves : Serves tag connection watched server) :
    watched.pool.replyWaitQueue[tag]? = some [] := by
  obtain ⟨_, _, _, view, _⟩ := serves.entries
  exact congrArg StreamView.queue view

theorem Serves.stream (serves : Serves tag connection watched server) :
    ∃ stream, watched.pool.streams[tag]? = some stream ∧ stream.number = connection := by
  obtain ⟨_, _, _, view, _⟩ := serves.entries
  exact Option.map_eq_some_iff.mp (congrArg StreamView.number view)

theorem Serves.isProcess (serves : Serves tag connection watched server) :
    watched.pool.isProcess tag = server.isProcess := by
  simp only [StreamPool.isProcess, ServiceServer.isProcess, serves.status, Option.some.injEq]

theorem Serves.isPrompted (serves : Serves tag connection watched server) :
    watched.pool.isPrompted tag = server.isPrompted := by
  simp only [StreamPool.isPrompted, ServiceServer.isPrompted, serves.status, Option.some.injEq]

theorem Serves.isSuspend (serves : Serves tag connection watched server) :
    watched.pool.isSuspend tag = server.isSuspend := by
  simp only [StreamPool.isSuspend, ServiceServer.isSuspend, serves.status, Option.some.injEq]

/-- The task of the id is the task of the stream. -/
theorem Serves.running (serves : Serves tag connection watched server) {owner : Nat}
    {task : TaskStep Reply}
    (running : watched.pool.futureStorages[tag]? = some (.running owner task)) :
    owner = connection ∧ server.task = some task := by
  obtain ⟨_, future, _, view, current, _⟩ := serves.entries
  have located : watched.pool.futureStorages[tag]? = some future := congrArg StreamView.future view
  cases running.symm.trans located
  obtain ⟨known, task, same⟩ := Option.map_eq_some_iff.mp current.symm
  cases same
  exact ⟨rfl, task⟩

/-- What is written on the stream of the id is written on the stream by itself. -/
structure Replied (tag : Nat) (pool next : StreamPool Request Reply)
    (before after : ReplyStream Reply) : Prop where
  isCancelled : after.isCancelled = before.isCancelled
  direct : after.replyWaitQueue = before.replyWaitQueue
  completed : after.completed = before.completed
  written : after.written = before.written ++ pool.issues next tag
  outstanding : after.outstanding + pool.writes.count tag ≤
    before.outstanding + next.writes.count tag

theorem Replied.none {pool next : StreamPool Request Reply} {before after : ReplyStream Reply}
    (writes : next.writes = pool.writes) (sent : next.sent = pool.sent) (same : after = before) :
    Replied tag pool next before after where
  isCancelled := by rw [same]
  direct := by rw [same]
  completed := by rw [same]
  written := by rw [same, StreamPool.issues_of_sent sent, List.append_nil]
  outstanding := Nat.le_of_eq (by rw [same, writes])

theorem Serves.located (serves : Serves tag connection watched server) :
    ∃ request, watched.pool.requests[tag]? = some request ∧
      server.loop = watched.pool.loop.on tag request := by
  obtain ⟨request, _, _, view, _, here⟩ := serves.entries
  exact ⟨request, congrArg StreamView.request view, here⟩

theorem PoolStage.on_promptWrite {stage : PoolStage} {request : ServiceRPCRequest Request}
    (located : stage.on tag request = .promptWrite) : stage = .promptWrite tag := by
  cases stage with
  | testSuspend id | processTest id | processWrite id | launch id | testProcess id
  | promptTest id =>
      simp only [PoolStage.on] at located
      split at located <;> cases located
  | promptWrite id =>
      simp only [PoolStage.on] at located
      split at located
      · rename_i same
        rw [same]
      · cases located
  | _ => cases located

theorem Serves.inTime (serves : Serves tag connection watched server)
    {move : Action Request Reply} (turn : move = .loop → action = .loop)
    (prompts : watched.pool.PromptsInTime tag action) : server.PromptsInTime move := by
  intro same there
  obtain ⟨request, _, here⟩ := serves.located
  have process := prompts (turn same) (PoolStage.on_promptWrite (here.symm.trans there))
  rw [serves.isProcess] at process
  exact of_decide_eq_true process

/-- A step of the stream by itself that reads nothing. -/
theorem Serves.moves (serves : Serves tag connection watched server)
    (unread : action.reads tag = []) {move : Action Request Reply}
    (turn : move = .loop → action = .loop) {after : ServiceServer Request Reply}
    (stepped : server.step move = some after)
    {future : TaskFuture Reply} {more : List (ServiceRPCRequest Request)}
    (view : next.view tag = { watched.pool.view tag with
      status := some after.callsStatus
      future := some future
      accepted := watched.pool.accepted tag ++ more })
    (current : future.current = after.task.map (Prod.mk connection))
    (histories : after.read = server.read ∧ after.started = server.started ++ more)
    {request : ServiceRPCRequest Request} (found : watched.pool.requests[tag]? = some request)
    (loop : after.loop = next.loop.on tag request)
    (unconnected : tag ∉ next.pulls ∧ next.loop.connecting ≠ some tag)
    (replied : Replied tag watched.pool next server.replies after.replies) :
    Follows tag connection watched server action next := by
  obtain ⟨other, _, earlier, before, _, _⟩ := serves.entries
  cases found.symm.trans (congrArg StreamView.request before)
  have accepted : watched.pool.accepted tag = earlier ++ server.started :=
    congrArg StreamView.accepted before
  refine ⟨[move], after, ServiceServer.machine.exec_of_step stepped,
    fun prompts _ _ => ⟨serves.inTime turn prompts, trivial⟩, ?_⟩
  rw [unread, List.append_nil]
  refine ⟨⟨request, future, earlier, ?_, current, loop⟩, unconnected, ?_, ?_, ?_, ?_, ?_⟩
  · rw [view, before, accepted, replied.isCancelled, histories.2, List.append_assoc]
  · rw [replied.direct]
    exact serves.direct
  · have bound := serves.outstanding
    have change := replied.outstanding
    change after.replies.outstanding ≤ next.writes.count tag
    omega
  · rw [replied.completed]
    exact serves.completed
  · rw [histories.1]
    exact serves.read
  · rw [replied.written, serves.written]

theorem Serves.future (serves : Serves tag connection watched server) :
    ∃ future, watched.pool.futureStorages[tag]? = some future ∧
      future.current = server.task.map (Prod.mk connection) := by
  obtain ⟨_, future, _, view, current, _⟩ := serves.entries
  exact ⟨future, congrArg StreamView.future view, current⟩

theorem StreamPool.endStatus_eq (server : ServiceServer Request Reply) :
    StreamPool.endStatus server.callsStatus = server.endStatus := by
  unfold StreamPool.endStatus ServiceServer.endStatus ServiceServer.isSuspend
    ServiceServer.isProcess ServiceServer.isPrompted
  simp only [Bool.or_eq_true, decide_eq_true_eq, or_assoc]

theorem Serves.setFuture (serves : Serves tag connection watched server)
    {before : TaskFuture Reply} (located : watched.pool.futureStorages[tag]? = some before)
    (future : TaskFuture Reply) :
    (watched.pool.setFuture tag future).view tag = { watched.pool.view tag with
      status := some server.callsStatus
      future := some future
      accepted := watched.pool.accepted tag ++ [] } := by
  rw [watched.pool.view_setFuture_self located, List.append_nil, ← serves.status]
  rfl

/-- The loop makes a step of its own for the stream. -/
theorem Serves.turns (serves : Serves tag connection watched server)
    (unread : action.reads tag = []) {move : Action Request Reply}
    (turn : move = .loop → action = .loop) {after : ServiceServer Request Reply}
    (stepped : server.step move = some after)
    (view : next.view tag = watched.pool.view tag)
    (same : after.callsStatus = server.callsStatus ∧ after.task = server.task ∧
      after.read = server.read ∧ after.started = server.started ∧ after.replies = server.replies)
    (writes : next.writes = watched.pool.writes) (sent : next.sent = watched.pool.sent)
    {request : ServiceRPCRequest Request} (found : watched.pool.requests[tag]? = some request)
    (loop : after.loop = next.loop.on tag request)
    (unconnected : tag ∉ next.pulls ∧ next.loop.connecting ≠ some tag) :
    Follows tag connection watched server action next := by
  obtain ⟨status, task, read, started, replies⟩ := same
  obtain ⟨future, located, current⟩ := serves.future
  have kept : next.view tag = { watched.pool.view tag with
      status := some after.callsStatus
      future := some future
      accepted := watched.pool.accepted tag ++ [] } := by
    rw [view, status, List.append_nil, ← serves.status, ← located]
    rfl
  exact serves.moves unread turn stepped kept (by rw [task]; exact current)
    ⟨read, by rw [started, List.append_nil]⟩ found loop unconnected
    (Replied.none writes sent replies)

/-- Both sides write a reply at once, unless the context of the stream is cancelled. -/
theorem replied_writeReply {pool : StreamPool Request Reply} {replies : ReplyStream Reply}
    (context : pool.contexts[tag]? = some replies.isCancelled)
    (queue : pool.replyWaitQueue[tag]? = some []) (direct : replies.replyWaitQueue = [])
    {stream : StreamObject} (holder : pool.streams[tag]? = some stream)
    (tagged : TaggedReply Reply) :
    (pool.writeReply tag tagged).view tag = pool.view tag ∧
      Replied tag pool (pool.writeReply tag tagged) replies (replies.writeReply tagged.reply) := by
  cases cancelled : replies.isCancelled with
  | true =>
      have kept : pool.writeReply tag tagged = pool := by
        rw [StreamPool.writeReply, context, cancelled]
      have silent : replies.writeReply tagged.reply = replies := by
        rw [ReplyStream.writeReply, if_pos cancelled]
      rw [kept, silent]
      exact ⟨rfl, Replied.none rfl rfl rfl⟩
  | false =>
      have sent : pool.writeReply tag tagged = pool.send tag stream tagged := by
        rw [StreamPool.writeReply, context, cancelled, queue, holder]
      have written : replies.writeReply tagged.reply =
          { replies.write tagged.reply with issued := replies.issued ++ [tagged.reply] } := by
        rw [ReplyStream.writeReply, if_neg (by rw [cancelled]; exact Bool.false_ne_true), direct,
          List.isEmpty_nil, if_pos rfl]
      rw [sent, written]
      refine ⟨rfl, rfl, rfl, rfl, ?_, ?_⟩
      · have last : (pool.writes ++ [tag]).getLast? = some tag := List.getLast?_concat
        have issued (more : List (SentReply Reply)) :
            (pool.sent ++ more).drop pool.sent.length = more := List.drop_left
        simp only [StreamPool.issues, StreamPool.send, last, issued, if_pos, List.map_cons,
          List.map_nil, ReplyStream.write]
      · simp only [StreamPool.send, ReplyStream.write, List.count_append,
          List.count_singleton_self]
        omega

/-- The task of the id makes a step, and so does the task of the stream. -/
theorem Serves.task (serves : Serves tag connection watched server)
    (stepped : watched.pool.taskStep tag = some next) :
    Follows tag connection watched server (.task tag) next := by
  have status := serves.status
  have process := serves.isProcess
  have prompted := serves.isPrompted
  obtain ⟨request, found, here⟩ := serves.located
  unfold StreamPool.taskStep at stepped
  split at stepped
  case h_2 => cases stepped
  rename_i owner task located
  obtain ⟨rfl, running⟩ := serves.running located
  have move : server.step .task = server.taskStep := rfl
  have turn : (.task : Action Request Reply) = .loop → (.task tag : PoolAction Request Reply) =
      .loop := fun same => by cases same
  have set (status' : ServiceCallStatus) {future : TaskFuture Reply} :
      ((watched.pool.setStatus tag status').setFuture tag future).view tag =
        { watched.pool.view tag with
          status := some status'
          future := some future
          accepted := watched.pool.accepted tag ++ [] } := by
    rw [StreamPool.view_setFuture_self (watched.pool.setStatus tag status') located,
      watched.pool.view_setStatus_self status, List.append_nil]
    rfl
  cases task with
  | callback => cases stepped
  | setTestProcess setter =>
      cases stepped
      simp only [ServiceServer.taskStep, running] at move
      rw [process]
      split at move <;> rename_i test <;> simp only [test] <;>
        exact serves.moves rfl turn move (serves.setFuture located _) rfl
          ⟨rfl, (List.append_nil _).symm⟩ found here serves.unconnected (Replied.none rfl rfl rfl)
  | setTestPrompted setter =>
      cases stepped
      simp only [ServiceServer.taskStep, running] at move
      rw [prompted]
      split at move <;> rename_i test <;> simp only [test] <;>
        exact serves.moves rfl turn move (serves.setFuture located _) rfl
          ⟨rfl, (List.append_nil _).symm⟩ found here serves.unconnected (Replied.none rfl rfl rfl)
  | setWrite setter =>
      cases stepped
      simp only [ServiceServer.taskStep, running] at move
      exact serves.moves rfl turn move (set setter.status) rfl ⟨rfl, (List.append_nil _).symm⟩
        found here serves.unconnected (Replied.none rfl rfl rfl)
  | endStatus payload =>
      simp only [status, Option.map_some, StreamPool.endStatus_eq, Option.some.injEq] at stepped
      subst stepped
      simp only [ServiceServer.taskStep, running] at move
      exact serves.moves rfl turn move (set server.endStatus) rfl ⟨rfl, (List.append_nil _).symm⟩
        found here serves.unconnected (Replied.none rfl rfl rfl)
  | writeReply reply =>
      cases stepped
      simp only [ServiceServer.taskStep, running] at move
      obtain ⟨stream, holder, _⟩ := serves.stream
      have only := watched.pool.onlyReplies_writeReply tag ⟨owner, reply⟩
      obtain ⟨view, replied⟩ := replied_writeReply serves.context serves.queue serves.direct holder
        ⟨owner, reply⟩
      have after : ((watched.pool.writeReply tag ⟨owner, reply⟩).setFuture tag
          (.running owner .suspendTestProcess)).view tag = { watched.pool.view tag with
            status := some server.callsStatus
            future := some (.running owner .suspendTestProcess)
            accepted := watched.pool.accepted tag ++ [] } := by
        rw [StreamPool.view_setFuture_self _ (only.futureStorages ▸ located), view,
          List.append_nil, ← status]
        rfl
      refine serves.moves rfl turn move after rfl ⟨rfl, (List.append_nil _).symm⟩
        found ?_ ?_ ⟨replied.isCancelled, replied.direct, replied.completed,
          replied.written, replied.outstanding⟩
      · exact here.trans (congrArg (PoolStage.on tag _) only.loop.symm)
      · change tag ∉ (watched.pool.writeReply tag _).pulls ∧
          (watched.pool.writeReply tag _).loop.connecting ≠ some tag
        rw [only.pulls, only.loop]
        exact serves.unconnected
  | suspendTestProcess =>
      cases stepped
      simp only [ServiceServer.taskStep, running] at move
      rw [process]
      split at move <;> rename_i test <;> simp only [test] <;>
        exact serves.moves rfl turn move (serves.setFuture located _) rfl
          ⟨rfl, (List.append_nil _).symm⟩ found here serves.unconnected (Replied.none rfl rfl rfl)
  | suspendTestPrompted =>
      cases stepped
      simp only [ServiceServer.taskStep, running] at move
      rw [prompted]
      split at move <;> rename_i test <;> simp only [test] <;>
        exact serves.moves rfl turn move (serves.setFuture located _) rfl
          ⟨rfl, (List.append_nil _).symm⟩ found here serves.unconnected (Replied.none rfl rfl rfl)
  | suspendWrite =>
      cases stepped
      simp only [ServiceServer.taskStep, running] at move
      exact serves.moves rfl turn move (set .suspend) rfl ⟨rfl, (List.append_nil _).symm⟩
        found here serves.unconnected (Replied.none rfl rfl rfl)

/-- The callback of the id asks for a status or returns, and so does that of the stream. -/
theorem Serves.callback (serves : Serves tag connection watched server)
    (unread : action.reads tag = []) {task : TaskStep Reply}
    (stepped : watched.pool.callbackStep tag task = some next) {move : Action Request Reply}
    (turn : move = .loop → action = .loop)
    {call : Option (Call Request)} (moved : server.task = some .callback →
      server.step move = some { server with
        task := some task
        running := call }) :
    Follows tag connection watched server action next := by
  obtain ⟨request, found, here⟩ := serves.located
  unfold StreamPool.callbackStep at stepped
  split at stepped
  case h_2 => cases stepped
  rename_i owner located
  obtain ⟨rfl, running⟩ := serves.running located
  cases stepped
  exact serves.moves unread turn (moved running) (serves.setFuture located _) rfl
    ⟨rfl, (List.append_nil _).symm⟩ found here serves.unconnected
    (Replied.none rfl rfl rfl)

/-- The loop writes a status and tells it to the client. -/
theorem Serves.announces (serves : Serves tag connection watched server)
    {status : ServiceCallStatus} {stage : PoolStage} {place : LoopStep Request}
    (stepped : server.step .loop = some
      { server.writeReply { status := status, payload := none } with
        callsStatus := status
        loop := place })
    {request : ServiceRPCRequest Request} (found : watched.pool.requests[tag]? = some request)
    (loop : place = stage.on tag request) (unconnected : stage.connecting ≠ some tag) :
    Follows tag connection watched server .loop
      { (watched.pool.setStatus tag status).writeStatus tag status with loop := stage } := by
  obtain ⟨stream, holder, _⟩ := serves.stream
  obtain ⟨future, located, current⟩ := serves.future
  have held : (watched.pool.setStatus tag status).streams[tag]? = some stream := holder
  have context : (watched.pool.setStatus tag status).contexts[tag]? =
      some server.replies.isCancelled := serves.context
  have queue : (watched.pool.setStatus tag status).replyWaitQueue[tag]? = some [] := serves.queue
  have told : (watched.pool.setStatus tag status).writeStatus tag status =
      (watched.pool.setStatus tag status).writeReply tag
        ⟨stream.number, { status := status, payload := none }⟩ := by
    rw [StreamPool.writeStatus, held]
  have only := (watched.pool.setStatus tag status).onlyReplies_writeReply tag
    ⟨stream.number, { status := status, payload := none }⟩
  obtain ⟨view, replied⟩ := replied_writeReply context queue serves.direct held
    ⟨stream.number, { status := status, payload := none }⟩
  have kept : ((watched.pool.setStatus tag status).writeReply tag
      ⟨stream.number, { status := status, payload := none }⟩).view tag =
      { watched.pool.view tag with
        status := some status
        future := some future
        accepted := watched.pool.accepted tag ++ [] } := by
    rw [view, watched.pool.view_setStatus_self serves.status, List.append_nil, ← located]
    rfl
  rw [told]
  refine serves.moves rfl (fun _ => rfl) stepped kept current
    ⟨rfl, (List.append_nil _).symm⟩ found loop
    ⟨?_, unconnected⟩ ⟨replied.isCancelled, replied.direct, replied.completed, replied.written,
      replied.outstanding⟩
  change tag ∉ ((watched.pool.setStatus tag status).writeReply tag _).pulls
  rw [only.pulls]
  exact serves.unconnected.1

/-- The loop goes on with a READ of the id. -/
theorem Serves.readOwn (serves : Serves tag connection watched server)
    (own : watched.pool.loop.tag = some tag) (stepped : watched.pool.readStep = some next) :
    Follows tag connection watched server .loop next := by
  have process := serves.isProcess
  have suspend := serves.isSuspend
  obtain ⟨request, found, here⟩ := serves.located
  have unlistened := serves.unconnected.1
  have move : server.step .loop = server.loopStep := rfl
  unfold StreamPool.readStep at stepped
  cases stage : watched.pool.loop with
  | testSuspend id =>
      rw [stage] at own here stepped
      cases own
      simp only [PoolStage.on, if_pos] at here
      simp only [found, Option.map_some, Option.some.injEq] at stepped
      subst stepped
      simp only [ServiceServer.loopStep, here] at move
      rw [suspend]
      split at move <;> rename_i test <;> simp only [test] <;>
        exact serves.turns rfl (fun _ => rfl) move rfl ⟨rfl, rfl, rfl, rfl, rfl⟩ rfl rfl found
          (if_pos rfl).symm ⟨unlistened, (Option.some_ne_none tag).symm⟩
  | processTest id =>
      rw [stage] at own here stepped
      cases own
      simp only [PoolStage.on, if_pos] at here
      cases stepped
      simp only [ServiceServer.loopStep, here] at move
      rw [suspend]
      split at move <;> rename_i test <;> simp only [test] <;>
        exact serves.turns rfl (fun _ => rfl) move rfl ⟨rfl, rfl, rfl, rfl, rfl⟩ rfl rfl found
          (if_pos rfl).symm ⟨unlistened, (Option.some_ne_none tag).symm⟩
  | processWrite id =>
      rw [stage] at own here stepped
      cases own
      simp only [PoolStage.on, if_pos] at here
      cases stepped
      simp only [ServiceServer.loopStep, here] at move
      exact serves.announces move found (if_pos rfl).symm (Option.some_ne_none tag).symm
  | launch id =>
      rw [stage] at own here stepped
      cases own
      simp only [PoolStage.on, if_pos] at here
      obtain ⟨stream, holder, number⟩ := serves.stream
      obtain ⟨future, located, current⟩ := serves.future
      simp only [StreamPool.launchTask, located, holder, found] at stepped
      split at stepped
      · cases stepped
      · rename_i ended
        cases stepped
        have free : server.task = none := by
          cases future with
          | empty | finished => exact Option.map_eq_none_iff.mp current.symm
          | running owner task => exact absurd rfl ended
        simp only [ServiceServer.loopStep, here, free] at move
        have inside := (List.getElem?_eq_some_iff.mp located).1
        have launched : ({ watched.pool.setFuture tag (.running stream.number .callback) with
            accepted := Function.update watched.pool.accepted tag
              (watched.pool.accepted tag ++ [request])
            loop := .readAgain tag } : StreamPool Request Reply).view tag =
            { watched.pool.view tag with
              status := some server.callsStatus
              future := some (.running stream.number .callback)
              accepted := watched.pool.accepted tag ++ [request] } := by
          simp only [StreamPool.view, StreamPool.setFuture, List.getElem?_set_self inside,
            Function.update_self, serves.status]
        exact serves.moves rfl (fun _ => rfl) move launched (by rw [number]; rfl) ⟨rfl, rfl⟩ found
          rfl
          ⟨unlistened, (Option.some_ne_none tag).symm⟩ (Replied.none rfl rfl rfl)
  | testProcess id =>
      rw [stage] at own here stepped
      cases own
      simp only [PoolStage.on, if_pos] at here
      simp only [found, Option.map_some, Option.some.injEq] at stepped
      subst stepped
      simp only [ServiceServer.loopStep, here] at move
      rw [process]
      split at move <;> rename_i test <;> simp only [test]
      · exact serves.turns rfl (fun _ => rfl) move rfl ⟨rfl, rfl, rfl, rfl, rfl⟩ rfl rfl found
          (if_pos rfl).symm ⟨unlistened, (Option.some_ne_none tag).symm⟩
      · exact serves.turns rfl (fun _ => rfl) move rfl ⟨rfl, rfl, rfl, rfl, rfl⟩ rfl rfl found rfl
          ⟨unlistened, (Option.some_ne_none tag).symm⟩
  | promptTest id =>
      rw [stage] at own here stepped
      cases own
      simp only [PoolStage.on, if_pos] at here
      cases stepped
      simp only [ServiceServer.loopStep, here] at move
      rw [process]
      split at move <;> rename_i test <;> simp only [test]
      · exact serves.turns rfl (fun _ => rfl) move rfl ⟨rfl, rfl, rfl, rfl, rfl⟩ rfl rfl found rfl
          ⟨unlistened, (Option.some_ne_none tag).symm⟩
      · exact serves.turns rfl (fun _ => rfl) move rfl ⟨rfl, rfl, rfl, rfl, rfl⟩ rfl rfl found
          (if_pos rfl).symm ⟨unlistened, (Option.some_ne_none tag).symm⟩
  | promptWrite id =>
      rw [stage] at own here stepped
      cases own
      simp only [PoolStage.on, if_pos] at here
      cases stepped
      simp only [ServiceServer.loopStep, here] at move
      exact serves.announces move found rfl (Option.some_ne_none tag).symm
  | readAgain id =>
      rw [stage] at stepped
      cases stepped
      refine serves.stutter (StreamPool.Elsewhere.quiet
        (watched.pool.view_setReading id tag _) rfl rfl) rfl (fun request => ?_)
        ⟨unlistened, (Option.some_ne_none tag).symm⟩
      rw [stage]
      rfl
  | _ =>
      rw [stage] at stepped
      cases stepped

/-! ### Events and whole steps -/

theorem PoolStage.on_apart {stage : PoolStage} (apart : stage.tag ≠ some tag)
    (request : ServiceRPCRequest Request) : stage.on tag request = .idle := by
  have other {id : Nat} (located : stage.tag = some id) : id ≠ tag :=
    fun same => apart (same ▸ located)
  cases stage with
  | testSuspend id | processTest id | processWrite id | launch id | testProcess id | promptTest id
  | promptWrite id => exact if_neg (other rfl)
  | _ => rfl

theorem PoolStage.connecting_apart {stage : PoolStage} (apart : stage.tag ≠ some tag) :
    stage.connecting ≠ some tag := by
  cases stage with
  | generate creator | grow creator id | abortTestProcess creator id | abortTestPrompted creator id
  | abortWrite creator id | get creator id | listen creator id | killed creator id =>
      cases creator with
      | constructor left => exact (Option.some_ne_none tag).symm
      | connect id => exact apart
  | suspendTestProcess id | suspendTestPrompted id | suspendWrite id | readFirst id => exact apart
  | _ => exact (Option.some_ne_none tag).symm

theorem Serves.passes (serves : Serves tag connection watched server)
    (elsewhere : StreamPool.Elsewhere tag watched.pool next) (unread : action.reads tag = [])
    (before : watched.pool.loop.tag ≠ some tag) (after : next.loop.tag ≠ some tag)
    (unlistened : tag ∉ next.pulls) : Follows tag connection watched server action next :=
  serves.stutter elsewhere unread
    (fun request =>
      (PoolStage.on_apart after request).trans (PoolStage.on_apart before request).symm)
    ⟨unlistened, PoolStage.connecting_apart after⟩

theorem Serves.grown (serves : Serves tag connection watched server) :
    watched.pool.pushBack.view tag = watched.pool.view tag := by
  obtain ⟨request, located, _⟩ := serves.located
  obtain ⟨stream, holder, _⟩ := serves.stream
  obtain ⟨future, task, _⟩ := serves.future
  have status := (List.getElem?_eq_some_iff.mp serves.status).1
  have context := (List.getElem?_eq_some_iff.mp serves.context).1
  have queue := (List.getElem?_eq_some_iff.mp serves.queue).1
  have requests := (List.getElem?_eq_some_iff.mp located).1
  have streams := (List.getElem?_eq_some_iff.mp holder).1
  have futures := (List.getElem?_eq_some_iff.mp task).1
  simp only [StreamPool.view, StreamPool.pushBack, List.getElem?_append_left status,
    List.getElem?_append_left context, List.getElem?_append_left queue,
    List.getElem?_append_left requests, List.getElem?_append_left streams,
    List.getElem?_append_left futures]

theorem Serves.loop (serves : Serves tag connection watched server)
    (keeps : watched.pool.Keeps tag (.loop : PoolAction Request Reply))
    (stepped : watched.pool.loopStep = some next) :
    Follows tag connection watched server .loop next := by
  by_cases own : watched.pool.loop.tag = some tag
  · unfold StreamPool.loopStep at stepped
    have unconnected := serves.unconnected
    cases stage : watched.pool.loop with
    | testSuspend id | processTest id | processWrite id | launch id | testProcess id
    | promptTest id | promptWrite id | readAgain id =>
        simp only [stage] at stepped
        exact serves.readOwn own stepped
    | processed id =>
        simp only [stage, StreamPool.connectStep] at stepped
        cases stepped
        refine serves.stutter (StreamPool.Elsewhere.quiet rfl rfl rfl) rfl (fun request => ?_)
          ⟨unconnected.1, (Option.some_ne_none tag).symm⟩
        rw [stage]
        rfl
    | generate creator | grow creator id | abortTestProcess creator id
    | abortTestPrompted creator id | abortWrite creator id | get creator id | listen creator id
    | killed creator id =>
        rw [stage] at own unconnected
        cases creator with
        | constructor left => cases own
        | connect id => exact absurd own unconnected.2
    | suspendTestProcess id | suspendTestPrompted id | suspendWrite id | readFirst id =>
        rw [stage] at own unconnected
        exact absurd own unconnected.2
    | idle =>
        rw [stage] at own
        cases own
  · obtain ⟨elsewhere, after, unlistened⟩ := StreamPool.elsewhere_loopStep serves.grown (keeps rfl)
      own serves.unconnected.1 stepped
    exact serves.passes elsewhere rfl own after unlistened

/-- A request is read on the stream. -/
theorem Serves.reads (serves : Serves tag connection watched server)
    (idle : watched.pool.loop = .idle) (lands : watched.pool.lands tag = true)
    (request : ServiceRPCRequest Request) :
    Follows tag connection watched server (.read tag request)
      { watched.pool.setReading tag none with
        requests := watched.pool.store tag request
        loop := .testSuspend tag } := by
  rw [StreamPool.store, if_pos lands]
  obtain ⟨before, future, earlier, view, current, here⟩ := serves.entries
  have located : watched.pool.requests[tag]? = some before := congrArg StreamView.request view
  have inside := (List.getElem?_eq_some_iff.mp located).1
  rw [idle] at here
  refine ⟨[.receive request], { server with
    loop := .testSuspend request
    read := server.read ++ [request] }, ?_,
    fun _ => ServiceServer.obeys_of_loopless (by simp) server,
    ⟨⟨request, future, earlier, ?_, current, (if_pos rfl).symm⟩,
      ⟨serves.unconnected.1, (Option.some_ne_none tag).symm⟩, serves.direct, serves.outstanding,
      serves.completed, ?_, ?_⟩⟩
  · simp only [Machine.exec_cons, ServiceServer.machine, ServiceServer.step,
      ServiceServer.receive, here]
    rfl
  · have reading := watched.pool.view_setReading tag tag none
    have changed : StreamPool.view { watched.pool.setReading tag none with
        requests := watched.pool.requests.set tag request
        loop := .testSuspend tag } tag =
        { (watched.pool.setReading tag none).view tag with request := some request } := by
      simp only [StreamPool.view, List.getElem?_set_self inside]
    rw [changed, reading, view]
  · change server.read ++ [request] = watched.read ++ if tag = tag then [request] else []
    rw [if_pos rfl, serves.read]
  · have silent : watched.pool.issues { watched.pool.setReading tag none with
        requests := watched.pool.requests.set tag request
        loop := .testSuspend tag } tag = [] := StreamPool.issues_of_sent rfl tag
    exact serves.written.trans
      ((List.append_nil _).symm.trans (congrArg (watched.written ++ ·) silent.symm))

/-- A write on the stream ends, or one that was left from an earlier connection of the id. -/
theorem Serves.writeEnds (serves : Serves tag connection watched server)
    (idle : watched.pool.loop = .idle) (ok : Bool) (unread : action.reads tag = []) :
    Follows tag connection watched server action
      { watched.pool with writes := watched.pool.writes.erase tag } := by
  obtain ⟨before, future, earlier, view, current, here⟩ := serves.entries
  have bound := serves.outstanding
  have erased : (watched.pool.writes.erase tag).count tag = watched.pool.writes.count tag - 1 :=
    List.count_erase_self
  have silent : watched.pool.issues
      { watched.pool with writes := watched.pool.writes.erase tag } tag = [] :=
    StreamPool.issues_of_sent rfl tag
  rw [Follows, unread, silent, List.append_nil, List.append_nil]
  by_cases ended : server.replies.outstanding = 0
  · refine ⟨[], server, rfl, fun _ => trivial, ⟨⟨before, future, earlier, view, current, here⟩,
      serves.unconnected, serves.direct, ?_, serves.completed, serves.read, serves.written⟩⟩
    rw [ended]
    exact Nat.zero_le _
  · have under := Nat.pos_of_ne_zero ended
    have rest : server.loop = .idle := here.trans (by rw [idle]; rfl)
    refine ⟨if ok then [.complete true, .handleWrite] else [.complete false], { server with
      replies := { server.replies with outstanding := server.replies.outstanding - 1 } }, ?_,
      fun _ => ServiceServer.obeys_of_loopless (by cases ok <;> simp) server,
      ⟨⟨before, future, earlier, view, current, here⟩, serves.unconnected, serves.direct, ?_,
        serves.completed, serves.read, serves.written⟩⟩
    · cases ok with
      | true =>
          simp only [if_true, Machine.exec_cons, ServiceServer.machine, ServiceServer.step,
            ReplyStream.complete, if_pos under, Option.map_some, Option.bind_some, rest,
            ReplyStream.handleWrite, Nat.succ_pos, serves.direct, Nat.add_sub_cancel]
          rfl
      | false =>
          simp only [Bool.false_eq_true, if_false, Machine.exec_cons, ServiceServer.machine,
            ServiceServer.step, ReplyStream.complete, if_pos under, Option.map_some,
            Option.bind_some]
          rfl
    · change server.replies.outstanding - 1 ≤ (watched.pool.writes.erase tag).count tag
      rw [erased]
      omega

theorem Serves.event (serves : Serves tag connection watched server)
    (idle : watched.pool.loop = .idle) (lands : watched.pool.Lands action)
    (stepped : watched.pool.event action = some next) :
    Follows tag connection watched server action next := by
  have unlistened := serves.unconnected.1
  have free : watched.pool.loop.tag ≠ some tag := by
    rw [idle]
    exact (Option.some_ne_none tag).symm
  cases action with
  | connect id =>
      simp only [StreamPool.event, List.contains_iff_mem, Option.ite_none_right_eq_some,
        Option.some.injEq] at stepped
      obtain ⟨listed, rfl⟩ := stepped
      have other : id ≠ tag := fun same => unlistened (same ▸ listed)
      exact serves.passes (StreamPool.Elsewhere.quiet rfl rfl rfl) rfl free
        (fun same => other (Option.some.inj same))
        fun member => unlistened (List.mem_of_mem_erase member)
  | read id request =>
      obtain ⟨ended, ends, rfl⟩ := Option.map_eq_some_iff.mp stepped
      obtain ⟨_, _, _, rfl⟩ := StreamPool.readEnds_eq_some ends
      by_cases own : id = tag
      · subst own
        exact serves.reads idle lands request
      · refine serves.passes (StreamPool.Elsewhere.quiet ?_ rfl rfl) (if_neg own) free
          (fun same => own (Option.some.inj same)) unlistened
        have reading := watched.pool.view_setReading id tag none
        rw [← reading]
        simp only [StreamPool.view, StreamPool.setReading,
          watched.pool.getElem?_store_ne own]
  | readFailed id =>
      obtain ⟨_, _, _, rfl⟩ := StreamPool.readEnds_eq_some stepped
      exact serves.passes (StreamPool.Elsewhere.quiet (watched.pool.view_setReading id tag none)
        rfl rfl) rfl free free unlistened
  | write id =>
      simp only [StreamPool.event, Option.ite_none_right_eq_some, Option.some.injEq] at stepped
      obtain ⟨_, rfl⟩ := stepped
      by_cases own : id = tag
      · subst own
        have waiting : StreamPool.handleWrite
            { watched.pool with writes := watched.pool.writes.erase id } id =
            { watched.pool with writes := watched.pool.writes.erase id } := by
          simp only [StreamPool.handleWrite, serves.queue]
        rw [waiting]
        exact serves.writeEnds idle true rfl
      · have only := StreamPool.onlyReplies_handleWrite
          { watched.pool with writes := watched.pool.writes.erase id } id
        refine serves.passes (watched.pool.elsewhere_handleWrite own) rfl free ?_ ?_
        · rw [only.loop]
          exact free
        · rw [only.pulls]
          exact unlistened
  | writeFailed id =>
      simp only [StreamPool.event, Option.ite_none_right_eq_some, Option.some.injEq] at stepped
      obtain ⟨_, rfl⟩ := stepped
      by_cases own : id = tag
      · subst own
        exact serves.writeEnds idle false rfl
      · exact serves.passes (watched.pool.elsewhere_erase own) rfl free free unlistened
  | brokenPipe id =>
      simp only [StreamPool.event, Option.ite_none_right_eq_some, Option.some.injEq] at stepped
      obtain ⟨_, rfl⟩ := stepped
      exact serves.passes (StreamPool.Elsewhere.quiet rfl rfl rfl) rfl free free unlistened
  | _ => cases stepped

/-- The context of the stream is cancelled. -/
theorem Serves.cancels (serves : Serves tag connection watched server) :
    Follows tag connection watched server (.cancel tag)
      { watched.pool with contexts := watched.pool.contexts.set tag true } := by
  obtain ⟨request, future, earlier, view, current, here⟩ := serves.entries
  have inside := (List.getElem?_eq_some_iff.mp serves.context).1
  have silent : watched.pool.issues
      { watched.pool with contexts := watched.pool.contexts.set tag true } tag = [] :=
    StreamPool.issues_of_sent rfl tag
  have changed : StreamPool.view
      { watched.pool with contexts := watched.pool.contexts.set tag true } tag =
      { watched.pool.view tag with context := some true } := by
    simp only [StreamPool.view, List.getElem?_set_self inside]
  refine ⟨[.disconnect], { server with
    replies := { server.replies with isCancelled := true } }, rfl,
    fun _ => ServiceServer.obeys_of_loopless (by simp) server,
    ⟨⟨request, future, earlier, ?_, current, here⟩, serves.unconnected, serves.direct,
      serves.outstanding, serves.completed, ?_, ?_⟩⟩
  · rw [changed, view]
  · exact serves.read.trans (List.append_nil _).symm
  · exact serves.written.trans
      ((List.append_nil _).symm.trans (congrArg (watched.written ++ ·) silent.symm))

/-- Each step of the pool is one of the stream, unless it takes up the id again. -/
theorem Serves.step (serves : Serves tag connection watched server)
    (keeps : watched.pool.Keeps tag action)
    (stepped : watched.pool.landingStep action = some next) :
    Follows tag connection watched server action next := by
  obtain ⟨lands, stepped⟩ := Option.ite_none_right_eq_some.mp stepped
  have elsewhere {action : PoolAction Request Reply} (unread : action.reads tag = [])
      (aside : StreamPool.Elsewhere tag watched.pool next)
      (unmoved : watched.pool.Unmoved next) :
      Follows tag connection watched server action next := by
    refine serves.stutter aside unread (fun request => by rw [unmoved.loop]) ?_
    rw [unmoved.loop, unmoved.pulls]
    exact serves.unconnected
  have events {event : PoolAction Request Reply} (lands : watched.pool.Lands event)
      (stepped : (if watched.pool.loop = .idle then watched.pool.event event else none) =
        some next) : Follows tag connection watched server event next := by
    simp only [Option.ite_none_right_eq_some] at stepped
    exact serves.event stepped.1 lands stepped.2
  cases action with
  | cancel id =>
      simp only [StreamPool.step, Option.ite_none_right_eq_some, Option.some.injEq] at stepped
      obtain ⟨_, rfl⟩ := stepped
      by_cases own : id = tag
      · subst own
        exact serves.cancels
      · refine serves.stutter (StreamPool.Elsewhere.quiet ?_ rfl rfl) rfl (fun _ => rfl)
          serves.unconnected
        simp only [StreamPool.view, List.getElem?_set_ne own]
  | loop => exact serves.loop keeps stepped
  | callbackSet id setter =>
      by_cases own : id = tag
      · subst own
        have asked (running : server.task = some .callback) : server.step (.callbackSet setter) =
            some { server with
              task := some (.setTestProcess setter)
              running := server.running.map fun call =>
                { call with set := call.set ++ [setter.status] } } := by
          simp only [ServiceServer.step, ServiceServer.callbackSet, running]
        exact serves.callback rfl stepped (fun same => by cases same) asked
      · exact elsewhere rfl (StreamPool.elsewhere_callbackStep own stepped)
          (StreamPool.unmoved_callbackStep stepped)
  | callbackReturn id payload =>
      by_cases own : id = tag
      · subst own
        have returned (running : server.task = some .callback) :
            server.step (.callbackReturn payload) = some { server with
              task := some (.endStatus payload)
              running := server.running } := by
          simp only [ServiceServer.step, ServiceServer.callbackReturn, running]
        exact serves.callback rfl stepped (fun same => by cases same) returned
      · exact elsewhere rfl (StreamPool.elsewhere_callbackStep own stepped)
          (StreamPool.unmoved_callbackStep stepped)
  | task id =>
      by_cases own : id = tag
      · subst own
        exact serves.task stepped
      · exact elsewhere rfl (StreamPool.elsewhere_taskStep own stepped)
          (StreamPool.unmoved_taskStep stepped)
  | connect id | read id request | readFailed id | write id | writeFailed id | brokenPipe id =>
      exact events lands stepped

end Steps

/-! ## From a CONNECT on -/

/-- The stream of the id looks like the stream by itself, and the same has been read and written
on both. -/
structure Shown (tag : Nat) (watched : WatchedPool Request Reply)
    (server : ServiceServer Request Reply) : Prop where
  status : watched.pool.callsStatus[tag]? = some server.callsStatus
  isCancelled : watched.pool.contexts[tag]? = some server.replies.isCancelled
  task : ∃ future, watched.pool.futureStorages[tag]? = some future ∧
    future.current.map Prod.snd = server.task
  read : watched.read = server.read
  written : watched.written = server.replies.written

theorem Serves.shown {tag connection : Nat} {watched : WatchedPool Request Reply}
    {server : ServiceServer Request Reply} (serves : Serves tag connection watched server) :
    Shown tag watched server where
  status := serves.status
  isCancelled := serves.context
  task := by
    obtain ⟨future, located, current⟩ := serves.future
    refine ⟨future, located, ?_⟩
    rw [current, Option.map_map]
    exact Option.map_id'
  read := serves.read.symm
  written := serves.written.symm

/-- What the pool does on an id, a stream by itself can do. -/
def streamSimulation (tag connection : Nat) :
    Simulation (WatchedPool.machine tag : Machine (WatchedPool Request Reply) _)
      (ServiceServer.machine : Machine (ServiceServer Request Reply) _) where
  related := Serves tag connection
  allowed watched action := watched.pool.Keeps tag action
  matched := by
    intro watched next action server serves keeps stepped
    obtain ⟨pool, moved, rfl⟩ := Option.map_eq_some_iff.mp stepped
    obtain ⟨trace, after, led, _, serves⟩ := serves.step keeps moved
    exact ⟨trace, after, led, serves⟩

namespace StreamPool

/-- A CONNECT that has been processed leaves the id as a stream by itself begins. -/
theorem Separate.serves {pool : StreamPool Request Reply} (separate : pool.Separate) {tag : Nat}
    (processed : pool.loop = .processed tag) :
    ∃ trace connection, ∃ server : ServiceServer Request Reply, .loop ∉ trace ∧
      ServiceServer.machine.exec .connected trace = some server ∧
        Serves tag connection ⟨pool, [], []⟩ server := by
  have fits := separate.stage
  rw [processed] at fits
  obtain ⟨status, ended, unlistened⟩ := fits
  have inside := separate.counted.tag tag (by rw [processed]; rfl)
  have sized := separate.counted.sized
  have entry {α : Type} {values : List α} (size : values.length = pool.streams.length) :
      ∃ value, values[tag]? = some value :=
    ⟨_, List.getElem?_eq_getElem (size.symm ▸ inside)⟩
  obtain ⟨isCancelled, context⟩ := entry sized.contexts
  obtain ⟨request, located⟩ := entry sized.requests
  obtain ⟨queue, waiting⟩ := entry sized.replyWaitQueue
  obtain ⟨future, task⟩ := entry sized.futureStorages
  obtain ⟨stream, holder⟩ := entry sized.streams
  cases separate.direct.1 queue (List.mem_of_getElem? waiting)
  have idle : future.current = none := by
    have still := ended future task
    cases future with
    | empty | finished => rfl
    | running owner task => cases still
  have start : Serves tag stream.number ⟨pool, [], []⟩
      { ServiceServer.connected with
        replies := { ReplyStream.connected with isCancelled := isCancelled } } := by
    refine ⟨⟨request, future, pool.accepted tag, ?_, idle, ?_⟩, ⟨unlistened, ?_⟩, rfl,
      Nat.zero_le _, rfl, rfl, rfl⟩
    · simp only [view, status, context, located, waiting, holder, task, Option.map_some,
        ServiceServer.connected, List.append_nil]
    · rw [processed]
      rfl
    · rw [processed]
      exact (Option.some_ne_none tag).symm
  cases isCancelled with
  | false => exact ⟨[], stream.number, _, by simp, rfl, start⟩
  | true => exact ⟨[.disconnect], stream.number, _, by simp, rfl, start⟩

theorem separate_of_run {run : List (PoolAction Request Reply)} {pool : StreamPool Request Reply}
    (executed : landingMachine.exec initial run = some pool) : pool.Separate :=
  (landingMachine.along_of_preserved Separate
    (fun _ _ _ separate stepped =>
      separate.step (Option.ite_none_right_eq_some.mp stepped).2)
    separate_initial run).final executed

instance (tag : Nat) [DecidableEq Request] [DecidableEq Reply] (pool : StreamPool Request Reply)
    (action : PoolAction Request Reply) : Decidable (pool.Keeps tag action) :=
  inferInstanceAs (Decidable (action = .loop → tag ∉ pool.loop.inHand))

/-- The server makes its listeners, and a client connects. -/
def firstConnect : List (PoolAction Nat Nat) :=
  List.replicate 60 PoolAction.loop ++ .connect 0 :: List.replicate 10 PoolAction.loop

/-- A second client connects and calls while the first one calls, and leaves. -/
def secondClient : List (PoolAction Nat Nat) :=
  .loop :: .connect 1 :: List.replicate 11 PoolAction.loop ++ .read 1 ⟨.pullNewReq, some 7⟩ ::
    List.replicate 5 PoolAction.loop ++ .read 0 ⟨.pullNewReq, some 3⟩ ::
    List.replicate 5 PoolAction.loop ++ [.callbackReturn 1 70, .callbackSet 0 .setSuccess,
      .task 0, .task 1, .task 0, .cancel 1, .callbackReturn 0 30, .task 0, .brokenPipe 1, .task 0,
      .write 0]

end StreamPool

end ProtoCore.Service
