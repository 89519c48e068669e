import ProtoCore.Service.RemoteCalls

/-!
# Every call can be completed

While a stream is open, whatever its client, its event loop and its task were interrupted at, they
can bring the calls that have been made to their replies without any help from outside, except
that the callback returns.
-/

set_option autoImplicit false

namespace ProtoCore.Service

open Library

variable {Request Reply : Type}

/-! ## The steps that are left -/

def LoopStep.weight : LoopStep Request → Nat
  | .idle => 0
  | .promptWrite => 2
  | .promptTest => 3
  | .testProcess _ => 4
  | .launch _ => 8
  | .processWrite _ => 10
  | .processTest _ => 11
  | .testSuspend _ => 12

def TaskStep.weight : TaskStep Reply → Nat
  | .suspendWrite => 1
  | .suspendTestPrompted => 2
  | .suspendTestProcess => 3
  | .writeReply _ => 5
  | .endStatus _ => 6
  | .callback => 7
  | .setWrite _ => 8
  | .setTestPrompted _ => 9
  | .setTestProcess _ => 10

def UserStep.weight : UserStep Request → Nat
  | .idle | .join => 0
  | .requestFuture => 1
  | .requestSent => 2
  | .cancelWrite => 14
  | .requestWrite _ => 16

namespace ReplyStream

theorem since_self (stream : ReplyStream Reply) : stream.since stream = [] := List.drop_length

theorem since_writeReply_le (stream : ReplyStream Reply) (reply : ServiceRPCReply Reply) :
    (stream.since (stream.writeReply reply)).length ≤ 1 := by
  unfold writeReply
  split
  · rw [since_self]
    exact Nat.zero_le 1
  · split
    · simp only [since, write, List.drop_left]
      exact Nat.le_refl 1
    · simp only [since, List.drop_length]
      exact Nat.zero_le 1

end ReplyStream

namespace ServiceServer

def load (server : ServiceServer Request Reply) : Nat :=
  server.loop.weight + (server.task.elim 0 TaskStep.weight)

/-- The event loop goes on without a reply. -/
theorem quiet_lower {server next : ServiceServer Request Reply} {before after : LoopStep Request}
    (located : server.loop = before) (moved : next.loop = after)
    (lower : after.weight < before.weight) (task : next.task = server.task)
    (replies : next.replies = server.replies) :
    next.load + (server.replies.since next.replies).length < server.load ∧
      next.replies.isCancelled = server.replies.isCancelled := by
  rw [replies, ReplyStream.since_self, load, load, task, located, moved]
  exact ⟨Nat.add_lt_add_right lower _, rfl⟩

/-- The event loop comes nearer to the end of its event, with at most one reply more. -/
theorem loopStep_lower {server next : ServiceServer Request Reply}
    (stepped : server.loopStep = some next) :
    next.load + (server.replies.since next.replies).length < server.load ∧
      next.replies.isCancelled = server.replies.isCancelled := by
  unfold ServiceServer.loopStep at stepped
  split at stepped
  case h_1 => cases stepped
  case h_2 request located =>
    split at stepped
    · cases stepped
      exact quiet_lower located rfl (show 11 < 12 by decide) rfl rfl
    · cases stepped
      exact quiet_lower located rfl (show 4 < 12 by decide) rfl rfl
  case h_3 request located =>
    split at stepped
    · cases stepped
      exact quiet_lower located rfl (show 8 < 11 by decide) rfl rfl
    · cases stepped
      exact quiet_lower located rfl (show 10 < 11 by decide) rfl rfl
  case h_4 request located =>
    cases stepped
    have few := server.replies.since_writeReply_le ⟨.process, none⟩
    refine ⟨?_, server.replies.writeReply_isCancelled _⟩
    rw [load, load, located]
    simp only [writeReply, LoopStep.weight] at few ⊢
    omega
  case h_5 request located =>
    split at stepped
    · cases stepped
    · rename_i idle
      cases stepped
      rw [ReplyStream.since_self, load, load, located, idle]
      exact ⟨show 7 < 8 by decide, rfl⟩
  case h_6 request located =>
    split at stepped
    · cases stepped
      exact quiet_lower located rfl (show 3 < 4 by decide) rfl rfl
    · cases stepped
      exact quiet_lower located rfl (show 0 < 4 by decide) rfl rfl
  case h_7 located =>
    split at stepped
    · cases stepped
      exact quiet_lower located rfl (show 0 < 3 by decide) rfl rfl
    · cases stepped
      exact quiet_lower located rfl (show 2 < 3 by decide) rfl rfl
  case h_8 located =>
    cases stepped
    have few := server.replies.since_writeReply_le ⟨.prompted, none⟩
    refine ⟨?_, server.replies.writeReply_isCancelled _⟩
    rw [load, load, located]
    simp only [writeReply, LoopStep.weight] at few ⊢
    omega

/-- The task goes on without a reply. -/
theorem task_lower {server next : ServiceServer Request Reply} {task : TaskStep Reply}
    (located : server.task = some task) {after : Option (TaskStep Reply)}
    (moved : next.task = after) (lower : after.elim 0 TaskStep.weight < task.weight)
    (loop : next.loop = server.loop) (replies : next.replies = server.replies) :
    next.load + (server.replies.since next.replies).length < server.load ∧
      next.replies.isCancelled = server.replies.isCancelled := by
  rw [replies, ReplyStream.since_self, load, load, loop, located, moved]
  exact ⟨Nat.add_lt_add_left lower _, rfl⟩

theorem taskStep_lower {server next : ServiceServer Request Reply}
    (stepped : server.taskStep = some next) :
    (next.load + (server.replies.since next.replies).length < server.load ∧
      next.replies.isCancelled = server.replies.isCancelled) ∧ next.loop = server.loop := by
  unfold ServiceServer.taskStep at stepped
  split at stepped
  case h_1 => cases stepped
  case h_2 => cases stepped
  case h_3 setter located =>
    split at stepped
    · cases stepped
      exact ⟨task_lower located rfl (show 8 < 10 by decide) rfl rfl, rfl⟩
    · cases stepped
      exact ⟨task_lower located rfl (show 9 < 10 by decide) rfl rfl, rfl⟩
  case h_4 setter located =>
    split at stepped
    · cases stepped
      exact ⟨task_lower located rfl (show 8 < 9 by decide) rfl rfl, rfl⟩
    · cases stepped
      exact ⟨task_lower located rfl (show 7 < 9 by decide) rfl rfl, rfl⟩
  case h_5 setter located =>
    cases stepped
    exact ⟨task_lower located rfl (show 7 < 8 by decide) rfl rfl, rfl⟩
  case h_6 payload located =>
    cases stepped
    exact ⟨task_lower located rfl (show 5 < 6 by decide) rfl rfl, rfl⟩
  case h_7 reply located =>
    cases stepped
    have few := server.replies.since_writeReply_le reply
    refine ⟨⟨?_, server.replies.writeReply_isCancelled _⟩, rfl⟩
    rw [load, load, located]
    simp only [writeReply, Option.elim, TaskStep.weight] at few ⊢
    omega
  case h_8 located =>
    split at stepped
    · cases stepped
      exact ⟨task_lower located rfl (show 0 < 3 by decide) rfl rfl, rfl⟩
    · cases stepped
      exact ⟨task_lower located rfl (show 2 < 3 by decide) rfl rfl, rfl⟩
  case h_9 located =>
    split at stepped
    · cases stepped
      exact ⟨task_lower located rfl (show 0 < 2 by decide) rfl rfl, rfl⟩
    · cases stepped
      exact ⟨task_lower located rfl (show 1 < 2 by decide) rfl rfl, rfl⟩
  case h_10 located =>
    cases stepped
    exact ⟨task_lower located rfl (show 0 < 1 by decide) rfl rfl, rfl⟩

theorem loopStep_isSome {server : ServiceServer Request Reply} (busy : server.loop ≠ .idle)
    (free : server.task = none ∨ server.loop = .promptWrite) : ∃ next, server.loopStep = some next := by
  unfold ServiceServer.loopStep
  cases located : server.loop with
  | idle => exact absurd located busy
  | launch request =>
      rcases free with idle | elsewhere
      · rw [idle]
        exact ⟨_, rfl⟩
      · cases located.symm.trans elsewhere
  | testSuspend | processTest | testProcess | promptTest =>
      dsimp only
      split <;> exact ⟨_, rfl⟩
  | processWrite | promptWrite => exact ⟨_, rfl⟩

theorem taskStep_isSome {server : ServiceServer Request Reply} {task : TaskStep Reply}
    (located : server.task = some task) (outside : task ≠ .callback) :
    ∃ next, server.taskStep = some next := by
  unfold ServiceServer.taskStep
  rw [located]
  cases task with
  | callback => exact absurd rfl outside
  | setTestProcess | setTestPrompted | suspendTestProcess | suspendTestPrompted =>
      dsimp only
      split <;> exact ⟨_, rfl⟩
  | setWrite | endStatus | writeReply | suspendWrite => exact ⟨_, rfl⟩

/-- `setPrompted` passes its test only while a call is in progress. -/
theorem promptWrite_of_loopStep {server next : ServiceServer Request Reply} (ready : server.Ready)
    (stepped : server.loopStep = some next) (prompting : next.loop = .promptWrite) :
    ∃ task ∈ next.task, task.ending = false := by
  unfold ServiceServer.loopStep at stepped
  split at stepped
  case h_7 located =>
    split at stepped
    · cases stepped
      cases prompting
    · rename_i process
      cases stepped
      have process : server.callsStatus = .process := by simpa [isProcess] using process
      cases running : server.task with
      | none =>
          have suspended := (located ▸ ready.loop : ReadyLoop server.task _ .promptTest) running
          cases process.symm.trans suspended
      | some task =>
          refine ⟨task, rfl, ?_⟩
          have about := ready.task task running
          cases task with
          | writeReply => exact absurd process about.2.2.1
          | suspendTestProcess | suspendTestPrompted => exact absurd process about.2.1
          | callback | setTestProcess | setTestPrompted | setWrite | endStatus | suspendWrite => rfl
  case h_1 => cases stepped
  case h_2 => split at stepped <;> cases stepped <;> cases prompting
  case h_3 => split at stepped <;> cases stepped <;> cases prompting
  case h_4 => cases stepped; cases prompting
  case h_5 =>
    split at stepped
    · cases stepped
    · cases stepped
      cases prompting
  case h_6 => split at stepped <;> cases stepped <;> cases prompting
  case h_8 => cases stepped; cases prompting

end ServiceServer

namespace Session

def weight (session : Session Request Reply) : Nat :=
  session.client.user.weight + 13 * session.requests.length + session.server.load +
    session.replies.length

/-- The stream is open on both sides, and `setPrompted` is not about to overwrite the end of a
call. -/
structure Onward (session : Session Request Reply) : Prop where
  reading : session.client.reading = true
  user : session.client.user ≠ .join
  live : session.server.replies.isCancelled = false
  prompt : session.server.loop = .promptWrite →
    ∃ task ∈ session.server.task, task.ending = false

/-- A step of what is under way: no new call, no failure and no end of the stream. -/
def Proceeds : SessionAction Request Reply → Prop
  | .client (.write true) | .client .user | .server .loop | .server .task
  | .server (.callbackReturn _) | .deliver | .read => True
  | _ => False

/-- Nothing is under way. -/
structure Finished (session : Session Request Reply) : Prop where
  user : session.client.user = .idle
  requests : session.requests = []
  loop : session.server.loop = .idle
  task : session.server.task = none
  replies : session.replies = []

def Advances (session : Session Request Reply) : Prop :=
  ∃ action next, (session.Undisturbed action ∧ session.Unhurried action) ∧ Proceeds action ∧
    session.step action = some next ∧ next.Onward ∧ next.weight < session.weight

theorem Onward.serverStep {session : Session Request Reply} (onward : session.Onward)
    {server : ServiceServer Request Reply}
    (lower : server.load + (session.server.replies.since server.replies).length <
      session.server.load)
    (live : server.replies.isCancelled = session.server.replies.isCancelled)
    (prompt : server.loop = .promptWrite → ∃ task ∈ server.task, task.ending = false) :
    let next : Session Request Reply := { session with
      server := server
      replies := session.replies ++ session.server.replies.since server.replies }
    next.Onward ∧ next.weight < session.weight := by
  refine ⟨⟨onward.reading, onward.user, live.trans onward.live, prompt⟩, ?_⟩
  simp only [weight, List.length_append]
  omega

theorem Onward.loop {session : Session Request Reply} (onward : session.Onward)
    (ready : session.server.Ready) (busy : session.server.loop ≠ .idle)
    (free : session.server.task = none ∨ session.server.loop = .promptWrite) :
    session.Advances := by
  obtain ⟨server, stepped⟩ := ServiceServer.loopStep_isSome busy free
  obtain ⟨lower, live⟩ := ServiceServer.loopStep_lower stepped
  obtain ⟨onward', lower⟩ := onward.serverStep lower live
    (ServiceServer.promptWrite_of_loopStep ready stepped)
  have moved : session.step (.server .loop) = some { session with
      server := server
      replies := session.replies ++ session.server.replies.since server.replies } :=
    congrArg (Option.map _) stepped
  refine ⟨.server .loop, _, ⟨fun _ => ⟨fun testing task running => ?_, onward.prompt⟩,
    fun _ about => by cases about⟩, trivial, moved, onward', lower⟩
  rcases free with idle | prompting
  · rw [idle] at running
    cases running
  · rw [prompting] at testing
    cases testing

theorem Onward.task {session : Session Request Reply} (onward : session.Onward) (answer : Reply)
    {task : TaskStep Reply} (running : session.server.task = some task)
    (elsewhere : session.server.loop ≠ .promptWrite) : session.Advances := by
  by_cases outside : task = .callback
  · subst outside
    have stepped : session.server.callbackReturn answer =
        some { session.server with task := some (.endStatus answer) } := by
      rw [ServiceServer.callbackReturn, running]
    obtain ⟨lower, live⟩ := @ServiceServer.task_lower Request Reply session.server
      { session.server with task := some (.endStatus answer) } _ running _ rfl
      (show 6 < 7 by decide) rfl rfl
    obtain ⟨onward', lower⟩ := onward.serverStep lower live
      fun prompting => absurd prompting elsewhere
    exact ⟨.server (.callbackReturn answer), _, ⟨fun same => (by cases same),
      fun _ about => (by cases about)⟩, trivial, congrArg (Option.map _) stepped, onward', lower⟩
  · obtain ⟨server, stepped⟩ := ServiceServer.taskStep_isSome running outside
    obtain ⟨⟨lower, live⟩, loop⟩ := ServiceServer.taskStep_lower stepped
    obtain ⟨onward', lower⟩ := onward.serverStep lower live
      fun prompting => absurd (loop.symm.trans prompting) elsewhere
    exact ⟨.server .task, _, ⟨fun same => (by cases same), fun _ about => (by cases about)⟩,
      trivial, congrArg (Option.map _) stepped, onward', lower⟩

theorem Onward.client {session : Session Request Reply} (onward : session.Onward)
    {move : ClientAction Request Reply} {client : ServiceClient Request Reply}
    (stepped : session.client.step move = some client) (outside : ∀ reply, move ≠ .receive reply)
    (quiet : ¬ move.Ends) (proceeds : Proceeds (.client move : SessionAction Request Reply))
    (reading : client.reading = session.client.reading) (user : client.user ≠ .join)
    (lower : client.user.weight + 13 * (session.client.sending move).length <
      session.client.user.weight) : session.Advances := by
  have moved : session.step (.client move) = some { session with
      client := client
      requests := session.requests ++ session.client.sending move } := by
    cases move with
    | receive reply => exact absurd rfl (outside reply)
    | request | cancel | write | user | close => exact congrArg (Option.map _) stepped
  refine ⟨.client move, _, ⟨fun same => (by cases same), fun other about => ?_⟩, proceeds, moved,
    ⟨reading.trans onward.reading, user, onward.live, onward.prompt⟩, ?_⟩
  · cases about
    exact fun ends => absurd ends quiet
  · simp only [weight, List.length_append]
    omega

/-- The call of the user under the lock goes on, its writes being accepted. -/
theorem Onward.call {session : Session Request Reply} (onward : session.Onward)
    (calling : session.client.user ≠ .idle) : session.Advances := by
  have reading := onward.reading
  cases located : session.client.user with
  | idle => exact absurd located calling
  | join => exact absurd located onward.user
  | requestWrite request =>
      have stepped : session.client.step (.write true) = some { session.client with
          user := .requestSent
          sent := session.client.sent ++ [request] } := by
        simp only [ServiceClient.step, ServiceClient.write, located, reading]
        rfl
      have sending : session.client.sending (.write true) = [request] := by
        rw [ServiceClient.sending, ServiceClient.writing, located]
        rfl
      refine onward.client stepped (fun _ same => by cases same) id trivial rfl
        (fun same => by cases same) ?_
      rw [sending, located]
      exact show 15 < 16 by decide
  | cancelWrite =>
      have stepped : session.client.step (.write true) =
          some { session.client with user := .idle } := by
        simp only [ServiceClient.step, ServiceClient.write, located, reading]
        rfl
      have sending : session.client.sending (.write true) = [⟨.setCanceled, none⟩] := by
        rw [ServiceClient.sending, ServiceClient.writing, located]
        rfl
      refine onward.client stepped (fun _ same => by cases same) id trivial rfl
        (fun same => by cases same) ?_
      rw [sending, located]
      exact show 13 < 14 by decide
  | requestSent =>
      have stepped : session.client.step .user = some { session.client with
          requested := true
          user := .requestFuture } := by
        simp only [ServiceClient.step, ServiceClient.userStep, located]
      refine onward.client stepped (fun _ same => by cases same) id trivial rfl
        (fun same => by cases same) ?_
      rw [located]
      exact show 1 < 2 by decide
  | requestFuture =>
      cases retrieved : session.client.retrieved with
      | true =>
          have stepped : session.client.step .user = some { session.client with user := .idle } := by
            simp only [ServiceClient.step, ServiceClient.userStep, located, retrieved, if_true]
          refine onward.client stepped (fun _ same => by cases same) id trivial rfl
            (fun same => by cases same) ?_
          rw [located]
          exact show 0 < 1 by decide
      | false =>
          have stepped : session.client.step .user = some { session.client with
              retrieved := true
              futures := session.client.futures ++ [session.client.replyPromise]
              user := .idle } := by
            simp only [ServiceClient.step, ServiceClient.userStep, located, retrieved,
              Bool.false_eq_true, if_false]
          refine onward.client stepped (fun _ same => by cases same) id trivial rfl
            (fun same => by cases same) ?_
          rw [located]
          exact show 0 < 1 by decide

theorem Onward.deliver {session : Session Request Reply} (onward : session.Onward)
    {request : ServiceRPCRequest Request} {rest : List (ServiceRPCRequest Request)}
    (arrived : session.requests = request :: rest) (idle : session.server.loop = .idle) :
    session.Advances := by
  have stepped : session.step .deliver = some { session with
      server := { session.server with
        loop := .testSuspend request
        read := session.server.read ++ [request] }
      requests := rest } := by
    simp only [step, arrived, ServiceServer.receive, idle, Option.map_some]
  refine ⟨.deliver, _, ⟨fun same => (by cases same), fun _ about => (by cases about)⟩, trivial,
    stepped, ⟨onward.reading, onward.user, onward.live, fun same => (by cases same)⟩, ?_⟩
  simp only [weight, arrived, List.length_cons, ServiceServer.load, idle, LoopStep.weight]
  omega

theorem Onward.read {session : Session Request Reply} (onward : session.Onward)
    {reply : ServiceRPCReply Reply} {rest : List (ServiceRPCReply Reply)}
    (arrived : session.replies = reply :: rest) (idle : session.client.user = .idle) :
    session.Advances := by
  obtain ⟨client, received, reading, user⟩ : ∃ client, session.client.receive reply = some client ∧
      client.reading = true ∧ client.user = .idle := by
    unfold ServiceClient.receive
    rw [if_pos onward.reading]
    split
    · exact ⟨_, rfl, onward.reading, idle⟩
    · exact ⟨_, rfl, onward.reading, idle⟩
  have stepped : session.step .read = some { session with client := client, replies := rest } := by
    simp only [step, arrived, received, Option.map_some]
  refine ⟨.read, _, ⟨fun same => (by cases same), fun move about => ?_⟩, trivial, stepped,
    ⟨reading, ?_, onward.live, onward.prompt⟩, ?_⟩
  · intro _
    rw [idle]
    exact ⟨fun same => (by cases same), fun same => (by cases same)⟩
  · dsimp only
    rw [user]
    exact fun same => by cases same
  · simp only [weight, arrived, List.length_cons, user, idle]
    omega

theorem Onward.advances {session : Session Request Reply} (onward : session.Onward)
    (ready : session.server.Ready) (answer : Reply) (unfinished : ¬ session.Finished) :
    session.Advances := by
  by_cases prompting : session.server.loop = .promptWrite
  · refine onward.loop ready ?_ (.inr prompting)
    rw [prompting]
    exact fun same => by cases same
  cases running : session.server.task with
  | some task => exact onward.task answer running prompting
  | none =>
      by_cases busy : session.server.loop = .idle
      case neg => exact onward.loop ready busy (.inl running)
      by_cases calling : session.client.user = .idle
      case neg => exact onward.call calling
      cases requests : session.requests with
      | cons request rest => exact onward.deliver requests busy
      | nil =>
          cases replies : session.replies with
          | cons reply rest => exact onward.read replies calling
          | nil => exact absurd ⟨calling, requests, busy, running, replies⟩ unfinished

end Session

namespace RecordedSession

/-- Every request that was sent has its future, which has what the callback returned for it. -/
def Completed (state : RecordedSession Request Reply) : Prop :=
  state.session.client.futures.length = state.session.client.sent.length ∧
    ∀ (k : Nat) future, state.session.client.futures[k]? = some future →
      ∃ request reply, state.session.client.sent[k]? = some request ∧
        state.returned[k]? = some (request, reply) ∧
        state.session.client.completions future = [.value (some reply)]

theorem Valid.completed {state : RecordedSession Request Reply} (valid : state.Valid)
    (onward : state.session.Onward) (finished : state.session.Finished) : state.Completed := by
  have progress := valid.matched.progress onward.reading
  unfold ServiceClient.Progress at progress
  rw [finished.user] at progress
  have none : state.session.tokens = 0 := by
    rw [Session.tokens, finished.requests, finished.replies, ServiceServer.tokens,
      ServiceServer.busy, finished.loop, finished.task]
    rfl
  refine ⟨progress.2.symm, fun k future found => ?_⟩
  obtain ⟨value, delivered⟩ := valid.accounted.delivered onward.live none future
    (List.mem_of_getElem? found)
  rcases valid.accounted.completed k future found with missing | ⟨closed, _⟩ | completed
  · cases missing.symm.trans delivered
  · cases closed.symm.trans delivered
  · exact completed

/-- The user has no future yet, and the loop has yet to tell the client that the call is in
progress. -/
def callHalfway : List (SessionAction Nat String) :=
  [.client (.request 1), .client (.write true), .deliver, .server .loop, .server .loop,
    .client .user]

end RecordedSession

end ProtoCore.Service
