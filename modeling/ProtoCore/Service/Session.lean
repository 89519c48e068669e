import ProtoCore.Service.FuturePairing
import ProtoCore.Service.ReplyGrammar

/-!
# A client and its stream

The client sends again once it has read the final reply, and the stream takes a request
once its task has suspended it. The final reply is written before that, so the next
request can arrive in between and is then refused. Otherwise one token goes round: a
request in flight, a call in progress or a final reply in flight, at most one of them.
-/

set_option autoImplicit false

namespace ProtoCore.Service

open Library

variable {Request Reply : Type}

def ServiceRPCRequest.isPull (request : ServiceRPCRequest Request) : Bool :=
  request.setting = .pullNewReq

structure Session (Request Reply : Type) where
  client : ServiceClient Request Reply
  server : ServiceServer Request Reply
  requests : List (ServiceRPCRequest Request)
  replies : List (ServiceRPCReply Reply)

inductive SessionAction (Request Reply : Type) where
  | client (action : ClientAction Request Reply)
  | server (action : Action Request Reply)
  | deliver
  | read
  deriving DecidableEq, Repr

def ServiceClient.sending (client : ServiceClient Request Reply) :
    ClientAction Request Reply → List (ServiceRPCRequest Request)
  | .write true => client.writing.toList
  | _ => []

/-- What has been handed to `Write` between two states of a stream. -/
def ReplyStream.since (before after : ReplyStream Reply) : List (ServiceRPCReply Reply) :=
  after.written.drop before.written.length

namespace Session

def opened : Session Request Reply where
  client := .opened
  server := .connected
  requests := []
  replies := []

def step (session : Session Request Reply) :
    SessionAction Request Reply → Option (Session Request Reply)
  | .client (.receive _) => none
  | .client action =>
      (session.client.step action).map fun client =>
        { session with
          client := client
          requests := session.requests ++ session.client.sending action }
  | .server (.receive _) => none
  | .server action =>
      (session.server.step action).map fun server =>
        { session with
          server := server
          replies := session.replies ++ session.server.replies.since server.replies }
  | .deliver =>
      match session.requests with
      | [] => none
      | request :: rest =>
          (session.server.receive request).map fun server =>
            { session with server := server, requests := rest }
  | .read =>
      match session.replies with
      | [] => none
      | reply :: rest =>
          (session.client.receive reply).map fun client =>
            { session with client := client, replies := rest }

def machine : Machine (Session Request Reply) (SessionAction Request Reply) where
  step := step

end Session

/-- The new request that the loop is about to accept or has accepted, before its callback
has been started. -/
def LoopStep.pulling : LoopStep Request → List (ServiceRPCRequest Request)
  | .testSuspend request => if request.isPull then [request] else []
  | .processTest request | .processWrite request | .launch request => [request]
  | _ => []

/-- The loop is about to test whether it may accept a new request. -/
def LoopStep.testing : LoopStep Request → Bool
  | .testSuspend request => request.isPull
  | _ => false

def TaskStep.suspending : TaskStep Reply → Bool
  | .suspendTestProcess | .suspendTestPrompted | .suspendWrite => true
  | _ => false

/-- The task has ended the status, and `setSuspend` has yet to test it. -/
def TaskStep.ending : TaskStep Reply → Bool
  | .writeReply _ | .suspendTestProcess | .suspendTestPrompted => true
  | _ => false

namespace Session

/-- Every new request that was read has started its callback, in order and once, except
the one the loop still handles; none was refused. -/
structure EveryPullStarts (session : Session Request Reply) : Prop where
  started : session.server.read.filter ServiceRPCRequest.isPull =
    session.server.started ++ session.server.loop.pulling
  refused : ∀ request ∈ session.server.refused, request.isPull = false

/-- The loop tests no new request while the task is between its final reply and the end of
`setSuspend`, and `setPrompted` writes neither after the end of the task nor between
`endStatus` and the tests of `setSuspend`. -/
def Undisturbed (session : Session Request Reply) (action : SessionAction Request Reply) : Prop :=
  action = .server .loop →
    (session.server.loop.testing = true →
      ∀ task ∈ session.server.task, task.suspending = false) ∧
    (session.server.loop = .promptWrite → ∃ task ∈ session.server.task, task.ending = false)

end Session

/-! ## The server's side -/

namespace ServiceServer

theorem isFinal_of_terminal {status : ServiceCallStatus} (terminal : status.Terminal) :
    status.isFinal = true := by
  obtain ⟨notSuspend, notProcess, notPrompted⟩ := terminal
  cases status with
  | suspend => contradiction
  | process => contradiction
  | prompted => contradiction
  | success | aborted | failed => rfl

theorem endStatus_terminal (server : ServiceServer Request Reply) : server.endStatus.Terminal := by
  unfold endStatus
  split
  · exact ⟨nofun, nofun, nofun⟩
  · rename_i other
    simpa [isSuspend, isProcess, isPrompted, and_assoc, ServiceCallStatus.Terminal] using other

def ReadyLoop (task : Option (TaskStep Reply)) (status : ServiceCallStatus) :
    LoopStep Request → Prop
  | .processTest request | .processWrite request =>
      request.isPull = true ∧ task = none ∧ status = .suspend
  | .launch _ => task = none ∧ status ≠ .suspend
  | .testProcess request => request.isPull = false ∧ (task = none → status = .suspend)
  | _ => task = none → status = .suspend

def ReadyTask (status : ServiceCallStatus) : TaskStep Reply → Prop
  | .writeReply reply => reply.status.isFinal = true ∧ status.Terminal
  | .suspendTestProcess | .suspendTestPrompted => status.Terminal
  | _ => status ≠ .suspend

/-- Without a task the stream is in SUSPEND, whatever was read so far. -/
structure Ready (server : ServiceServer Request Reply) : Prop where
  loop : ReadyLoop server.task server.callsStatus server.loop
  task : ∀ task, server.task = some task → ReadyTask server.callsStatus task
  direct : server.replies.Direct
  pulled : server.read.filter ServiceRPCRequest.isPull = server.started ++ server.loop.pulling
  refused : ∀ request ∈ server.refused, request.isPull = false

/-- A call in progress, up to its final reply. -/
def busy (server : ServiceServer Request Reply) : Nat :=
  match server.task with
  | none => 0
  | some task => if task.suspending then 0 else 1

/-- The requests and calls that still lead to a final reply. -/
def tokens (server : ServiceServer Request Reply) : Nat :=
  server.loop.pulling.length + server.busy

def finals (replies : List (ServiceRPCReply Reply)) : Nat :=
  (replies.filter fun reply => reply.status.isFinal).length

theorem finals_append (left right : List (ServiceRPCReply Reply)) :
    finals (left ++ right) = finals left + finals right := by
  simp [finals]

/-- What a step hands to `Write` is the reply it passes to `write_reply`. -/
theorem finals_since {server next : ServiceServer Request Reply} {action : Action Request Reply}
    (direct : server.replies.Direct) (stepped : server.step action = some next) :
    finals (server.replies.since next.replies) ≤ finals (server.replying action).toList := by
  have same : server.replies.since server.replies = [] := List.drop_length
  cases step_move stepped with
  | called reply calling written =>
      rw [calling, written]
      cases cancelled : server.replies.isCancelled with
      | true =>
          rw [ReplyStream.writeReply_cancelled cancelled, same]
          exact Nat.zero_le _
      | false =>
          have appended : (server.replies.writeReply reply).written =
              server.replies.written ++ [reply] := by
            rw [(direct.writeReply reply).2, ReplyStream.writeReply_issued cancelled, direct.2]
          rw [ReplyStream.since, appended, List.drop_left]
          exact le_rfl
  | kept silent unchanged =>
      rw [unchanged, same]
      exact Nat.zero_le _
  | completed ok silent ended =>
      rw [ReplyStream.since, ReplyStream.complete_written ended, List.drop_length]
      exact Nat.zero_le _
  | handled silent popped =>
      rw [ReplyStream.since, direct.handleWrite_written popped, List.drop_length]
      exact Nat.zero_le _
  | disconnected silent cancelled =>
      rw [cancelled]
      exact same ▸ Nat.zero_le _

theorem ReadyTask.not_suspend {status : ServiceCallStatus} {task : TaskStep Reply}
    (ready : ReadyTask status task) : status ≠ .suspend := by
  cases task with
  | writeReply reply => exact ready.2.1
  | suspendTestProcess | suspendTestPrompted => exact ready.1
  | callback | setTestProcess | setTestPrompted | setWrite | endStatus | suspendWrite => exact ready

theorem ReadyTask.of_not_ending {status : ServiceCallStatus} {task : TaskStep Reply}
    (early : task.ending = false) (running : status ≠ .suspend) : ReadyTask status task := by
  cases task with
  | writeReply | suspendTestProcess | suspendTestPrompted => cases early
  | callback | setTestProcess | setTestPrompted | setWrite | endStatus | suspendWrite =>
      exact running

theorem ReadyLoop.busy {task : TaskStep Reply} {status : ServiceCallStatus}
    {loop : LoopStep Request} (ready : ReadyLoop (some task) status loop)
    {task' : Option (TaskStep Reply)} {status' : ServiceCallStatus}
    (quiet : task' = none → status' = .suspend) : ReadyLoop task' status' loop := by
  cases loop with
  | processTest | processWrite => cases ready.2.1
  | launch => cases ready.1
  | testProcess => exact ⟨ready.1, quiet⟩
  | idle | testSuspend | promptTest | promptWrite => exact quiet

theorem Ready.loopStep {server next : ServiceServer Request Reply} (ready : server.Ready)
    (free : server.loop.testing = true → server.task = none)
    (prompt : server.loop = .promptWrite → ∃ task ∈ server.task, task.ending = false)
    (stepped : server.loopStep = some next) :
    next.Ready ∧ next.tokens + finals (server.replying .loop).toList ≤ server.tokens := by
  have direct : next.replies.Direct := step_direct .loop ready.direct stepped
  have loop := ready.loop
  have pulled := ready.pulled
  unfold ServiceServer.loopStep at stepped
  split at stepped
  case h_1 => cases stepped
  case h_2 request located =>
    rw [located] at loop pulled
    split at stepped
    · rename_i accepts
      simp only [Bool.and_eq_true, isSuspend, decide_eq_true_eq, beq_iff_eq] at accepts
      have pull : request.isPull = true := decide_eq_true accepts.2
      have idle := free (by rw [located]; exact pull)
      cases stepped
      refine ⟨⟨⟨pull, idle, accepts.1⟩, ready.task, direct, ?_, ready.refused⟩, ?_⟩
      · simpa [LoopStep.pulling, pull] using pulled
      · simp [tokens, ServiceServer.busy, replying, located, LoopStep.pulling, pull, finals]
    · rename_i refuses
      have cancel : request.isPull = false := by
        by_contra pull
        simp only [Bool.not_eq_false] at pull
        have idle := free (by rw [located]; exact pull)
        refine refuses ?_
        simp only [Bool.and_eq_true, isSuspend, decide_eq_true_eq, beq_iff_eq]
        exact ⟨loop idle, of_decide_eq_true pull⟩
      cases stepped
      refine ⟨⟨⟨cancel, loop⟩, ready.task, direct, ?_, ready.refused⟩, ?_⟩
      · simpa [LoopStep.pulling, cancel] using pulled
      · simp [tokens, ServiceServer.busy, replying, located, LoopStep.pulling, finals]
  case h_3 request located =>
    rw [located] at loop pulled
    obtain ⟨pull, idle, suspended⟩ := loop
    rw [if_neg (by simp [isSuspend, suspended])] at stepped
    cases stepped
    refine ⟨⟨⟨pull, idle, suspended⟩, ready.task, direct, pulled, ready.refused⟩, ?_⟩
    simp [tokens, ServiceServer.busy, replying, located, LoopStep.pulling, finals]
  case h_4 request located =>
    rw [located] at loop pulled
    obtain ⟨pull, idle, suspended⟩ := loop
    cases stepped
    refine ⟨⟨⟨idle, fun same => by cases same⟩, fun task busy => ?_, direct, pulled,
      ready.refused⟩, ?_⟩
    · cases idle.symm.trans busy
    · simp [tokens, ServiceServer.busy, replying, located, LoopStep.pulling, finals, writeReply,
        ServiceCallStatus.isFinal]
  case h_5 request located =>
    rw [located] at loop pulled
    obtain ⟨idle, running⟩ := loop
    rw [idle] at stepped
    cases stepped
    refine ⟨⟨(fun ended => by cases ended), fun task started => ?_, direct, ?_, ready.refused⟩, ?_⟩
    · cases started
      exact running
    · simpa [LoopStep.pulling] using pulled
    · simp [tokens, ServiceServer.busy, replying, located, LoopStep.pulling, finals, idle,
        TaskStep.suspending]
  case h_6 request located =>
    rw [located] at loop pulled
    split at stepped
    · cases stepped
      refine ⟨⟨loop.2, ready.task, direct, pulled, ready.refused⟩, ?_⟩
      simp [tokens, ServiceServer.busy, replying, located, LoopStep.pulling, finals]
    · cases stepped
      refine ⟨⟨loop.2, ready.task, direct, pulled, fun request' member => ?_⟩, ?_⟩
      · rcases List.mem_append.mp member with earlier | last
        · exact ready.refused request' earlier
        · exact List.mem_singleton.mp last ▸ loop.1
      · simp [tokens, ServiceServer.busy, replying, located, LoopStep.pulling, finals]
  case h_7 located =>
    rw [located] at loop pulled
    split at stepped <;> cases stepped <;>
      refine ⟨⟨loop, ready.task, direct, pulled, ready.refused⟩, ?_⟩ <;>
      simp [tokens, ServiceServer.busy, replying, located, LoopStep.pulling, finals]
  case h_8 located =>
    rw [located] at loop pulled
    obtain ⟨task, busy, early⟩ := prompt located
    cases stepped
    refine ⟨⟨fun ended => ?_, fun task' same => ?_, direct, pulled, ready.refused⟩, ?_⟩
    · cases busy.symm.trans ended
    · cases busy.symm.trans same
      exact ReadyTask.of_not_ending early (fun same => by cases same)
    · simp [tokens, ServiceServer.busy, replying, located, LoopStep.pulling, finals, writeReply,
        ServiceCallStatus.isFinal]

/-- The task keeps the stream ready, and its final reply takes the token of the call. -/
theorem Ready.taskStep {server next : ServiceServer Request Reply} (ready : server.Ready)
    (stepped : server.taskStep = some next) :
    next.Ready ∧ next.tokens + finals (server.replying .task).toList ≤ server.tokens := by
  have direct : next.replies.Direct := step_direct .task ready.direct stepped
  have loop := ready.loop
  cases located : server.task with
  | none =>
      simp only [ServiceServer.taskStep, located] at stepped
      cases stepped
  | some task =>
      have facts := ready.task task located
      rw [located] at loop
      have running := facts.not_suspend
      -- a step that stays in the task only has to say where it now stands
      have move : ∀ task', ReadyTask server.callsStatus task' →
          ({ server with task := some task' } : ServiceServer Request Reply).Ready := by
        intro task' facts'
        refine ⟨loop.busy (fun ended => by cases ended), fun task'' same => ?_, ready.direct,
          ready.pulled, ready.refused⟩
        cases same
        exact facts'
      cases task with
      | callback =>
          simp only [ServiceServer.taskStep, located] at stepped
          cases stepped
      | setTestProcess setter | setTestPrompted setter =>
          simp only [ServiceServer.taskStep, located] at stepped
          split at stepped <;> cases stepped <;> refine ⟨move _ running, ?_⟩ <;>
            simp [tokens, ServiceServer.busy, replying, located, finals, TaskStep.suspending]
      | setWrite setter =>
          simp only [ServiceServer.taskStep, located] at stepped
          cases stepped
          refine ⟨⟨loop.busy (fun ended => by cases ended), fun task' same => ?_, direct,
            ready.pulled, ready.refused⟩, ?_⟩
          · cases same
            exact setter.status_terminal.1
          · simp [tokens, ServiceServer.busy, replying, located, finals, TaskStep.suspending]
      | endStatus payload =>
          simp only [ServiceServer.taskStep, located] at stepped
          cases stepped
          refine ⟨⟨loop.busy (fun ended => by cases ended), fun task' same => ?_, direct,
            ready.pulled, ready.refused⟩, ?_⟩
          · cases same
            exact ⟨isFinal_of_terminal server.endStatus_terminal, server.endStatus_terminal⟩
          · simp [tokens, ServiceServer.busy, replying, located, finals, TaskStep.suspending]
      | writeReply reply =>
          simp only [ServiceServer.taskStep, located] at stepped
          cases stepped
          refine ⟨⟨loop.busy (fun ended => by cases ended), fun task' same => ?_, direct,
            ready.pulled, ready.refused⟩, ?_⟩
          · cases same
            exact facts.2
          · simp [tokens, ServiceServer.busy, replying, located, finals, TaskStep.suspending,
              ServiceServer.writeReply, facts.1]
      | suspendTestProcess =>
          simp only [ServiceServer.taskStep, located, isProcess, decide_eq_true_eq] at stepped
          rw [if_neg facts.2.1] at stepped
          cases stepped
          refine ⟨move _ facts, ?_⟩
          simp [tokens, ServiceServer.busy, replying, located, finals, TaskStep.suspending]
      | suspendTestPrompted =>
          simp only [ServiceServer.taskStep, located, isPrompted, decide_eq_true_eq] at stepped
          rw [if_neg facts.2.2] at stepped
          cases stepped
          refine ⟨move _ running, ?_⟩
          simp [tokens, ServiceServer.busy, replying, located, finals, TaskStep.suspending]
      | suspendWrite =>
          simp only [ServiceServer.taskStep, located] at stepped
          cases stepped
          refine ⟨⟨loop.busy fun _ => rfl, (fun _ same => by cases same), direct, ready.pulled,
            ready.refused⟩, ?_⟩
          simp [tokens, ServiceServer.busy, replying, located, finals, TaskStep.suspending]

theorem Ready.callback {server : ServiceServer Request Reply} (ready : server.Ready)
    (located : server.task = some .callback) (task : TaskStep Reply)
    (early : task.ending = false) (busy : task.suspending = false)
    (running : Option (Call Request)) :
    ({ server with task := some task, running := running } : ServiceServer Request Reply).Ready ∧
      ({ server with task := some task, running := running } :
        ServiceServer Request Reply).tokens = server.tokens := by
  have loop := ready.loop
  rw [located] at loop
  have facts := ready.task _ located
  refine ⟨⟨loop.busy nofun, fun task' same => ?_, ready.direct, ready.pulled, ready.refused⟩, ?_⟩
  · cases same
    exact ReadyTask.of_not_ending early facts.not_suspend
  · have callback : (TaskStep.callback : TaskStep Reply).suspending = false := rfl
    simp [tokens, ServiceServer.busy, located, busy, callback]

theorem Ready.step {server next : ServiceServer Request Reply} {action : Action Request Reply}
    (ready : server.Ready)
    (free : action = .loop → server.loop.testing = true → server.task = none)
    (prompt : action = .loop → server.loop = .promptWrite →
      ∃ task ∈ server.task, task.ending = false)
    (inside : ∀ request, action ≠ .receive request) (stepped : server.step action = some next) :
    next.Ready ∧ next.tokens + finals (server.replying action).toList ≤ server.tokens := by
  have direct := step_direct action ready.direct stepped
  cases action with
  | receive request => exact absurd rfl (inside request)
  | loop => exact ready.loopStep (free rfl) (prompt rfl) stepped
  | callbackSet setter =>
      simp only [ServiceServer.step, callbackSet] at stepped
      split at stepped
      · rename_i located
        cases stepped
        obtain ⟨ready', same⟩ := ready.callback located (.setTestProcess setter) rfl rfl _
        exact ⟨ready', same.le⟩
      · cases stepped
  | callbackReturn payload =>
      simp only [ServiceServer.step, callbackReturn] at stepped
      split at stepped
      · rename_i located
        cases stepped
        obtain ⟨ready', same⟩ := ready.callback located (.endStatus payload) rfl rfl server.running
        exact ⟨ready', same.le⟩
      · cases stepped
  | task => exact ready.taskStep stepped
  | complete ok =>
      obtain ⟨replies, ended, rfl⟩ := Option.map_eq_some_iff.mp stepped
      exact ⟨⟨ready.loop, ready.task, direct, ready.pulled, ready.refused⟩, le_rfl⟩
  | handleWrite =>
      simp only [ServiceServer.step] at stepped
      split at stepped
      · obtain ⟨replies, popped, rfl⟩ := Option.map_eq_some_iff.mp stepped
        exact ⟨⟨ready.loop, ready.task, direct, ready.pulled, ready.refused⟩, le_rfl⟩
      · cases stepped
  | disconnect =>
      cases stepped
      exact ⟨⟨ready.loop, ready.task, direct, ready.pulled, ready.refused⟩, le_rfl⟩

theorem Ready.receive {server next : ServiceServer Request Reply}
    {request : ServiceRPCRequest Request} (ready : server.Ready)
    (stepped : server.receive request = some next) :
    next.Ready ∧
      next.tokens = server.tokens + ([request].filter ServiceRPCRequest.isPull).length := by
  have direct : next.replies.Direct := step_direct (.receive request) ready.direct stepped
  unfold ServiceServer.receive at stepped
  split at stepped
  · rename_i located
    have loop := ready.loop
    have pulled := ready.pulled
    rw [located] at loop pulled
    cases stepped
    refine ⟨⟨loop, ready.task, direct, ?_, ready.refused⟩, ?_⟩
    · simp only [LoopStep.pulling, List.append_nil] at pulled ⊢
      rw [List.filter_append, pulled, List.filter_cons, List.filter_nil]
    · simp only [tokens, ServiceServer.busy, located, LoopStep.pulling, List.length_nil,
        List.filter_cons, List.filter_nil]
      omega
  · cases stepped

theorem connected_ready : (connected : ServiceServer Request Reply).Ready where
  loop := fun _ => rfl
  task := nofun
  direct := ⟨rfl, rfl⟩
  pulled := rfl
  refused := nofun

end ServiceServer

/-! ## The token -/

namespace Session

open ServiceServer

def pulls (requests : List (ServiceRPCRequest Request)) : Nat :=
  (requests.filter ServiceRPCRequest.isPull).length

/-- The new requests in flight, the calls in progress and the final replies in flight. -/
def tokens (session : Session Request Reply) : Nat :=
  pulls session.requests + session.server.tokens + finals session.replies

/-- At most one token goes round, and none while the client is free to send. -/
structure Circulating (session : Session Request Reply) : Prop where
  ready : session.server.Ready
  single : session.tokens ≤ 1
  connected : session.client.connected = session.client.reading
  free : session.client.reading = true → session.client.requested = false →
    session.client.user ≠ .requestSent → session.tokens = 0
  writing : ∀ request, session.client.user = .requestWrite request →
    session.client.reading = true → session.client.requested = false

theorem opened_circulating : (opened : Session Request Reply).Circulating where
  ready := connected_ready
  single := Nat.zero_le 1
  connected := rfl
  free _ _ _ := rfl
  writing := nofun

theorem Circulating.client {session : Session Request Reply} (circulating : session.Circulating)
    {client : ServiceClient Request Reply} (connected : client.connected = client.reading)
    (free : client.reading = true → client.requested = false → client.user ≠ .requestSent →
      session.client.reading = true ∧ session.client.requested = false ∧
        session.client.user ≠ .requestSent)
    (writing : ∀ request, client.user = .requestWrite request → client.reading = true →
      client.requested = false) : ({ session with client := client } : Session _ _).Circulating where
  ready := circulating.ready
  single := circulating.single
  connected := connected
  free reading unrequested notSent :=
    let ⟨reading', unrequested', notSent'⟩ := free reading unrequested notSent
    circulating.free reading' unrequested' notSent'
  writing := writing

theorem Circulating.request {session : Session Request Reply} (circulating : session.Circulating)
    {payload : Request} {client : ServiceClient Request Reply}
    (stepped : session.client.request payload = some client) :
    ({ session with client := client } : Session _ _).Circulating := by
  unfold ServiceClient.request at stepped
  split at stepped
  · rename_i idle
    split at stepped
    · cases stepped
      exact circulating
    · rename_i allowed
      simp only [Bool.or_eq_true, Bool.not_eq_true', not_or, Bool.not_eq_false,
        Bool.not_eq_true] at allowed
      cases stepped
      exact circulating.client circulating.connected
        (fun reading unrequested _ => ⟨reading, unrequested, by rw [idle]; nofun⟩)
        fun _ _ _ => allowed.2
  · cases stepped

theorem Circulating.cancel {session : Session Request Reply} (circulating : session.Circulating)
    {client : ServiceClient Request Reply} (stepped : session.client.cancel = some client) :
    ({ session with client := client } : Session _ _).Circulating := by
  unfold ServiceClient.cancel at stepped
  split at stepped
  · rename_i idle
    split at stepped
    · cases stepped
      exact circulating
    · cases stepped
      exact circulating.client circulating.connected
        (fun reading unrequested _ => ⟨reading, unrequested, by rw [idle]; nofun⟩) nofun
  · cases stepped

theorem Circulating.userStep {session : Session Request Reply} (circulating : session.Circulating)
    {client : ServiceClient Request Reply} (stepped : session.client.userStep = some client) :
    ({ session with client := client } : Session _ _).Circulating := by
  unfold ServiceClient.userStep at stepped
  split at stepped
  · cases stepped
    exact circulating.client circulating.connected nofun nofun
  · rename_i taking
    split at stepped <;> cases stepped <;>
      exact circulating.client circulating.connected
        (fun reading unrequested _ => ⟨reading, unrequested, by rw [taking]; nofun⟩) nofun
  · rename_i joining
    split at stepped
    · cases stepped
    · cases stepped
      exact circulating.client circulating.connected
        (fun reading unrequested _ => ⟨reading, unrequested, by rw [joining]; nofun⟩) nofun
  · cases stepped

theorem Circulating.close {session : Session Request Reply} (circulating : session.Circulating)
    {client : ServiceClient Request Reply} (stepped : session.client.close = some client) :
    ({ session with client := client } : Session _ _).Circulating := by
  unfold ServiceClient.close at stepped
  split at stepped
  · cases stepped
    exact circulating.client rfl nofun fun _ _ => nofun
  · cases stepped

theorem pulls_append (left right : List (ServiceRPCRequest Request)) :
    pulls (left ++ right) = pulls left + pulls right := by
  simp [pulls]

/-- The write of a request issues the token, which was nowhere before. -/
theorem Circulating.write {session : Session Request Reply} (circulating : session.Circulating)
    {ok : Bool} {client : ServiceClient Request Reply}
    (stepped : session.client.write ok = some client) :
    ({ session with
      client := client
      requests := session.requests ++ session.client.sending (.write ok) } :
        Session _ _).Circulating := by
  unfold ServiceClient.write at stepped
  split at stepped
  · cases stepped
  · rename_i live
    simp only [Bool.and_eq_true, Bool.not_eq_true', not_and, Bool.not_eq_false] at live
    split at stepped
    · rename_i request writing
      cases ok with
      | true =>
          cases stepped
          have unrequested := circulating.writing request writing (live rfl)
          have nowhere := circulating.free (live rfl) unrequested (by rw [writing]; nofun)
          refine ⟨circulating.ready, ?_, circulating.connected,
            fun _ _ sent => absurd rfl sent, nofun⟩
          simp only [tokens, pulls_append, ServiceClient.sending, ServiceClient.writing, writing,
            Option.toList_some] at nowhere ⊢
          have one : pulls [request] ≤ 1 := List.length_filter_le _ _
          omega
      | false =>
          cases stepped
          simp only [ServiceClient.sending, List.append_nil]
          exact circulating.client circulating.connected
            (fun reading unrequested _ => ⟨reading, unrequested, by rw [writing]; nofun⟩) nofun
    · rename_i writing
      have silent : pulls (session.client.sending (.write ok)) = 0 := by
        cases ok with
        | true => simp [ServiceClient.sending, ServiceClient.writing, writing, pulls,
            ServiceRPCRequest.isPull]
        | false => rfl
      have same : ({ session with
          client := client
          requests := session.requests ++ session.client.sending (.write ok) } :
            Session _ _).tokens = session.tokens := by
        simp only [tokens, pulls_append, silent, Nat.add_zero]
      cases stepped
      refine ⟨circulating.ready, same.le.trans circulating.single, circulating.connected,
        fun reading unrequested _ => ?_, ?_⟩
      · exact same.trans (circulating.free reading unrequested (by rw [writing]; nofun))
      · cases ok <;> nofun
    · cases stepped

theorem Circulating.read {session : Session Request Reply} (circulating : session.Circulating)
    {reply : ServiceRPCReply Reply} {rest : List (ServiceRPCReply Reply)}
    (arrived : session.replies = reply :: rest) {client : ServiceClient Request Reply}
    (stepped : session.client.receive reply = some client) :
    ({ session with client := client, replies := rest } : Session _ _).Circulating := by
  have single := circulating.single
  have split_ : finals session.replies = finals [reply] + finals rest := by
    rw [arrived, ← finals_append, List.singleton_append]
  have tokens_ : ({ session with client := client, replies := rest } : Session _ _).tokens +
      finals [reply] = session.tokens := by
    simp only [tokens, split_]
    omega
  unfold ServiceClient.receive at stepped
  split at stepped
  · rename_i reading
    split at stepped
    · rename_i final
      have one : finals [reply] = 1 := by simp [finals, final]
      cases stepped
      refine ⟨circulating.ready, ?_, circulating.connected, fun _ _ _ => ?_, fun _ _ _ => rfl⟩
      · exact (Nat.le_add_right _ _).trans (tokens_.le.trans single)
      · omega
    · rename_i other
      have zero : finals [reply] = 0 := by simp [finals, other]
      cases stepped
      refine ⟨circulating.ready, ?_, circulating.connected, fun reading unrequested notSent => ?_,
        circulating.writing⟩
      · exact (Nat.le_add_right _ _).trans (tokens_.le.trans single)
      · have nowhere := circulating.free reading unrequested notSent
        omega
  · cases stepped

theorem Circulating.deliver {session : Session Request Reply} (circulating : session.Circulating)
    {request : ServiceRPCRequest Request} {rest : List (ServiceRPCRequest Request)}
    (arrived : session.requests = request :: rest) {server : ServiceServer Request Reply}
    (stepped : session.server.receive request = some server) :
    ({ session with server := server, requests := rest } : Session _ _).Circulating := by
  obtain ⟨ready, moved⟩ := circulating.ready.receive stepped
  have same : ({ session with server := server, requests := rest } : Session _ _).tokens =
      session.tokens := by
    have split_ : pulls session.requests = pulls [request] + pulls rest := by
      rw [arrived, ← pulls_append, List.singleton_append]
    simp only [tokens, moved, split_]
    simp only [pulls]
    omega
  exact ⟨ready, same.le.trans circulating.single, circulating.connected,
    fun reading unrequested notSent => same.trans (circulating.free reading unrequested notSent),
    circulating.writing⟩

/-- A new request that the loop is about to test has the token, so no call is in progress. -/
theorem Circulating.task_eq_none {session : Session Request Reply}
    (circulating : session.Circulating) (testing : session.server.loop.testing = true)
    (settled : ∀ task ∈ session.server.task, task.suspending = false) :
    session.server.task = none := by
  have single := circulating.single
  have one : session.server.loop.pulling.length = 1 := by
    cases located : session.server.loop with
    | testSuspend request =>
        rw [located] at testing
        simp [LoopStep.pulling, show request.isPull = true from testing]
    | idle | processTest | processWrite | launch | testProcess | promptTest | promptWrite =>
        rw [located] at testing
        cases testing
  cases located : session.server.task with
  | none => rfl
  | some task =>
      have busy : session.server.busy = 1 := by
        simp [ServiceServer.busy, located, settled task located]
      simp only [tokens, ServiceServer.tokens] at single
      omega

theorem Circulating.server {session : Session Request Reply} (circulating : session.Circulating)
    {action : Action Request Reply} (inside : ∀ request, action ≠ .receive request)
    (undisturbed : session.Undisturbed (.server action)) {server : ServiceServer Request Reply}
    (stepped : session.server.step action = some server) :
    ({ session with
      server := server
      replies := session.replies ++ session.server.replies.since server.replies } :
        Session _ _).Circulating := by
  have ready := circulating.ready
  obtain ⟨ready', fewer⟩ := ready.step
    (fun loop testing => circulating.task_eq_none testing
      ((undisturbed (congrArg _ loop)).1 testing))
    (fun loop => (undisturbed (congrArg _ loop)).2) inside stepped
  have written := finals_since ready.direct stepped
  have fewer_ : ({ session with
      server := server
      replies := session.replies ++ session.server.replies.since server.replies } :
        Session _ _).tokens ≤ session.tokens := by
    simp only [tokens, finals_append]
    omega
  refine ⟨ready', fewer_.trans circulating.single, circulating.connected,
    fun reading unrequested notSent => ?_, circulating.writing⟩
  exact Nat.le_zero.mp (fewer_.trans (circulating.free reading unrequested notSent).le)

theorem Circulating.step {session next : Session Request Reply}
    {action : SessionAction Request Reply} (circulating : session.Circulating)
    (undisturbed : session.Undisturbed action) (stepped : session.step action = some next) :
    next.Circulating := by
  cases action with
  | client action =>
      cases action with
      | receive reply => cases stepped
      | request payload =>
          obtain ⟨client, moved, rfl⟩ := Option.map_eq_some_iff.mp stepped
          simpa [ServiceClient.sending] using circulating.request moved
      | cancel =>
          obtain ⟨client, moved, rfl⟩ := Option.map_eq_some_iff.mp stepped
          simpa [ServiceClient.sending] using circulating.cancel moved
      | write ok =>
          obtain ⟨client, moved, rfl⟩ := Option.map_eq_some_iff.mp stepped
          exact circulating.write moved
      | user =>
          obtain ⟨client, moved, rfl⟩ := Option.map_eq_some_iff.mp stepped
          simpa [ServiceClient.sending] using circulating.userStep moved
      | close =>
          obtain ⟨client, moved, rfl⟩ := Option.map_eq_some_iff.mp stepped
          simpa [ServiceClient.sending] using circulating.close moved
  | server action =>
      by_cases inside : ∃ request, action = .receive request
      · obtain ⟨request, rfl⟩ := inside
        cases stepped
      · have moves : (session.server.step action).map (fun server =>
            { session with
              server := server
              replies := session.replies ++ session.server.replies.since server.replies }) =
            some next := by
          cases action <;> first | exact stepped | exact absurd ⟨_, rfl⟩ inside
        obtain ⟨server, moved, rfl⟩ := Option.map_eq_some_iff.mp moves
        exact circulating.server (fun request same => inside ⟨request, same⟩) undisturbed moved
  | deliver =>
      simp only [Session.step] at stepped
      split at stepped
      · cases stepped
      · rename_i arrived
        obtain ⟨server, moved, rfl⟩ := Option.map_eq_some_iff.mp stepped
        exact circulating.deliver arrived moved
  | read =>
      simp only [Session.step] at stepped
      split at stepped
      · cases stepped
      · rename_i arrived
        obtain ⟨client, moved, rfl⟩ := Option.map_eq_some_iff.mp stepped
        exact circulating.read arrived moved

/-- In every undisturbed run, each new request the stream reads starts its callback. -/
theorem everyPullStarts_of_undisturbed (run : List (SessionAction Request Reply))
    (undisturbed : machine.Obeys Undisturbed opened run) :
    machine.Along EveryPullStarts opened run :=
  (machine.along_of_obeys
    (fun _ _ _ circulating undisturbed stepped => circulating.step undisturbed stepped)
    opened_circulating undisturbed).mono
    fun _ circulating => ⟨circulating.ready.pulled, circulating.ready.refused⟩

instance [DecidableEq Request] [DecidableEq Reply] (session : Session Request Reply)
    (action : SessionAction Request Reply) : Decidable (session.Undisturbed action) :=
  inferInstanceAs (Decidable (action = .server .loop →
    (session.server.loop.testing = true →
      ∀ task ∈ session.server.task, task.suspending = false) ∧
    (session.server.loop = .promptWrite → ∃ task ∈ session.server.task, task.ending = false)))

def firstCall : List (SessionAction Unit Unit) :=
  [.client (.request ()), .client (.write true), .client .user, .client .user, .deliver,
    .server .loop, .server .loop, .server .loop, .server .loop,
    .server (.complete true), .server .handleWrite,
    .server (.callbackSet .setSuccess), .server .task, .server .task,
    .server (.callbackReturn ()), .server .task, .server .task, .read, .read]

/-- The second request is tested after the first task has suspended the stream. -/
theorem everyPullStarts_of_undisturbed_twice :
    machine.Along EveryPullStarts opened (firstCall ++
      [.server .task, .server .task, .server .task,
        .client (.request ()), .client (.write true), .deliver,
        .server .loop, .server .loop, .server .loop, .server .loop]) :=
  everyPullStarts_of_undisturbed _ (by decide)

/-- The second request is tested before the first task has suspended the stream. -/
def quickRequest : List (SessionAction Unit Unit) :=
  firstCall ++ [.client (.request ()), .client (.write true), .deliver, .server .loop, .server .loop]

theorem quickRequest_refused : ¬ machine.Along EveryPullStarts opened quickRequest := by
  intro along
  have evaluated : (machine.exec opened quickRequest).map (fun session => session.server.refused) =
      some [⟨.pullNewReq, some ()⟩] := by decide
  obtain ⟨final, executed, refused⟩ := Option.map_eq_some_iff.mp evaluated
  have cancel := (along.final executed).refused ⟨.pullNewReq, some ()⟩ (by rw [refused]; simp)
  cases cancel

end Session

end ProtoCore.Service
