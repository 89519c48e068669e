import ProtoCore.Service.Session

/-!
# Remote calls

A session with a record of what its callbacks have returned. The client pairs its futures
with final replies, the stream its final replies with callbacks, and the two channels keep
the order of both.
-/

set_option autoImplicit false

namespace ProtoCore.Service

open Library

variable {Request Reply : Type}

/-- The payloads of the final replies. -/
def finalPayloads (replies : List (ServiceRPCReply Reply)) : List (Option Reply) :=
  (replies.filter fun reply => reply.status.isFinal).map ServiceRPCReply.payload

theorem finalPayloads_append (left right : List (ServiceRPCReply Reply)) :
    finalPayloads (left ++ right) = finalPayloads left ++ finalPayloads right := by
  unfold finalPayloads
  rw [List.filter_append, List.map_append]

theorem finalPayloads_length (replies : List (ServiceRPCReply Reply)) :
    (finalPayloads replies).length = ServiceServer.finals replies :=
  List.length_map _

theorem finalPayloads_final {reply : ServiceRPCReply Reply} (final : reply.status.isFinal = true) :
    finalPayloads [reply] = [reply.payload] := by
  have all : [reply].filter (fun reply => reply.status.isFinal) = [reply] :=
    List.filter_cons_of_pos final
  rw [finalPayloads, all]
  rfl

theorem finalPayloads_other {reply : ServiceRPCReply Reply}
    (other : reply.status.isFinal = false) : finalPayloads [reply] = [] := by
  have none : [reply].filter (fun reply => reply.status.isFinal) = [] :=
    List.filter_cons_of_neg (by rw [other]; exact Bool.false_ne_true)
  rw [finalPayloads, none]
  rfl

/-- The callback has not returned yet. -/
def TaskStep.calling : TaskStep Reply → Bool
  | .callback | .setTestProcess _ | .setTestPrompted _ | .setWrite _ => true
  | _ => false

/-- What the callback has returned and the task has still to write. -/
def TaskStep.pending : TaskStep Reply → List (Option Reply)
  | .endStatus payload => [some payload]
  | .writeReply reply => [reply.payload]
  | _ => []

namespace ServiceServer

def calling (server : ServiceServer Request Reply) : Bool := server.task.any TaskStep.calling

def pending (server : ServiceServer Request Reply) : List (Option Reply) :=
  (server.task.map TaskStep.pending).getD []

/-- The callbacks that have returned are those started, but for the one in progress; and
what they have returned has been written or dropped, or is about to be written. -/
structure Kept (server : ServiceServer Request Reply)
    (returned : List (ServiceRPCRequest Request × Reply)) : Prop where
  idle : server.calling = false → server.started = returned.map Prod.fst
  busy : server.calling = true → ∃ request, server.started = returned.map Prod.fst ++ [request]
  written : ∃ dropped, returned.map (fun call => some call.2) =
      finalPayloads server.replies.written ++ dropped ++ server.pending ∧
    (server.replies.isCancelled = false → dropped = [])

theorem connected_kept : (connected : ServiceServer Request Reply).Kept [] where
  idle _ := rfl
  busy calling := by cases calling
  written := ⟨[], rfl, fun _ => rfl⟩

theorem Kept.move {server next : ServiceServer Request Reply}
    {returned : List (ServiceRPCRequest Request × Reply)} (kept : server.Kept returned)
    (started : next.started = server.started) (calling : next.calling = server.calling)
    (pending : next.pending = server.pending)
    (finals : finalPayloads next.replies.written = finalPayloads server.replies.written)
    (live : next.replies.isCancelled = false → server.replies.isCancelled = false) :
    next.Kept returned where
  idle none := started.trans (kept.idle (calling ▸ none))
  busy some := by
    obtain ⟨request, same⟩ := kept.busy (calling ▸ some)
    exact ⟨request, started.trans same⟩
  written := by
    obtain ⟨dropped, same, whole⟩ := kept.written
    exact ⟨dropped, by rw [finals, pending, same], fun active => whole (live active)⟩

theorem finalPayloads_writeReply {stream : ReplyStream Reply} (direct : stream.Direct)
    (reply : ServiceRPCReply Reply) : finalPayloads (stream.writeReply reply).written =
      finalPayloads stream.written ++
        if stream.isCancelled then [] else finalPayloads [reply] := by
  split
  · rename_i cancelled
    rw [ReplyStream.writeReply_cancelled cancelled, List.append_nil]
  · rename_i active
    have live : stream.isCancelled = false := Bool.not_eq_true _ ▸ active
    rw [(direct.writeReply reply).2, ReplyStream.writeReply_issued live, ← direct.2,
      finalPayloads_append]

theorem finalPayloads_writeReply_other {stream : ReplyStream Reply} (direct : stream.Direct)
    {reply : ServiceRPCReply Reply} (other : reply.status.isFinal = false) :
    finalPayloads (stream.writeReply reply).written = finalPayloads stream.written := by
  rw [finalPayloads_writeReply direct, finalPayloads_other other, ite_self, List.append_nil]

theorem Kept.loopStep {server next : ServiceServer Request Reply}
    {returned : List (ServiceRPCRequest Request × Reply)} (kept : server.Kept returned)
    (direct : server.replies.Direct) (stepped : server.loopStep = some next) :
    next.Kept returned := by
  unfold ServiceServer.loopStep at stepped
  split at stepped
  case h_1 => cases stepped
  case h_2 | h_3 | h_6 | h_7 =>
    split at stepped <;> cases stepped <;> exact kept.move rfl rfl rfl rfl id
  case h_4 | h_8 =>
    cases stepped
    refine kept.move rfl rfl rfl (finalPayloads_writeReply_other direct rfl) fun live => ?_
    exact (ReplyStream.writeReply_isCancelled _ _).symm.trans live
  case h_5 request located =>
    split at stepped
    · cases stepped
    · rename_i ended
      cases stepped
      have quiet : server.calling = false := by
        rw [calling, ended]
        rfl
      have nothing : server.pending = [] := by
        rw [pending, ended]
        rfl
      constructor
      · intro none
        cases none
      · intro _
        exact ⟨request, congrArg (· ++ [request]) (kept.idle quiet)⟩
      · obtain ⟨dropped, same, whole⟩ := kept.written
        exact ⟨dropped, by rw [same, nothing]; rfl, whole⟩

/-- The final reply is written, or dropped when the stream has been cancelled. -/
theorem Kept.writeReply {server : ServiceServer Request Reply}
    {returned : List (ServiceRPCRequest Request × Reply)} (kept : server.Kept returned)
    (direct : server.replies.Direct) {reply : ServiceRPCReply Reply}
    (located : server.task = some (.writeReply reply)) (final : reply.status.isFinal = true)
    {next : ServiceServer Request Reply} (started : next.started = server.started)
    (task : next.task = some .suspendTestProcess)
    (replies : next.replies = server.replies.writeReply reply) : next.Kept returned := by
  have quiet : server.calling = false := by
    rw [calling, located]
    rfl
  have waiting : server.pending = [reply.payload] := by
    rw [pending, located]
    rfl
  have nothing : next.pending = [] := by
    rw [pending, task]
    rfl
  constructor
  · intro _
    exact started.trans (kept.idle quiet)
  · intro running
    rw [calling, task] at running
    cases running
  · obtain ⟨dropped, same, whole⟩ := kept.written
    rw [replies, nothing, finalPayloads_writeReply direct, finalPayloads_final final,
      ReplyStream.writeReply_isCancelled, same, waiting]
    cases cancelled : server.replies.isCancelled with
    | true => exact ⟨dropped ++ [reply.payload], by simp, fun live => by cases live⟩
    | false => exact ⟨[], by simp [whole cancelled], fun _ => rfl⟩

theorem Kept.taskStep {server next : ServiceServer Request Reply}
    {returned : List (ServiceRPCRequest Request × Reply)} (kept : server.Kept returned)
    (ready : server.Ready) (stepped : server.taskStep = some next) : next.Kept returned := by
  have moved : ∀ {task task' : TaskStep Reply}, server.task = some task →
      next.task = some task' → task'.calling = task.calling → task'.pending = task.pending →
      next.started = server.started → next.replies = server.replies → next.Kept returned := by
    intro task task' located arrived calling pending started replies
    refine kept.move started ?_ ?_ (by rw [replies]) (fun live => replies ▸ live)
    · rw [ServiceServer.calling, ServiceServer.calling, located, arrived]
      exact calling
    · rw [ServiceServer.pending, ServiceServer.pending, located, arrived]
      exact pending
  have ended : ∀ {task : TaskStep Reply}, server.task = some task → next.task = none →
      task.calling = false → task.pending = [] → next.started = server.started →
      next.replies = server.replies → next.Kept returned := by
    intro task located arrived calling pending started replies
    refine kept.move started ?_ ?_ (by rw [replies]) (fun live => replies ▸ live)
    · rw [ServiceServer.calling, ServiceServer.calling, located, arrived]
      exact calling.symm
    · rw [ServiceServer.pending, ServiceServer.pending, located, arrived]
      exact pending.symm
  unfold ServiceServer.taskStep at stepped
  split at stepped
  case h_1 | h_2 => cases stepped
  case h_3 located | h_4 located =>
    split at stepped <;> cases stepped <;> exact moved located rfl rfl rfl rfl rfl
  case h_5 located | h_6 located =>
    cases stepped
    exact moved located rfl rfl rfl rfl rfl
  case h_7 reply located =>
    cases stepped
    exact kept.writeReply ready.direct located (ready.task _ located).1 rfl rfl rfl
  case h_8 located | h_9 located =>
    split at stepped
    · cases stepped
      exact ended located rfl rfl rfl rfl rfl
    · cases stepped
      exact moved located rfl rfl rfl rfl rfl
  case h_10 located =>
    cases stepped
    exact ended located rfl rfl rfl rfl rfl

/-- What a step lets a callback return, with the request that it was started for. -/
def returning (server : ServiceServer Request Reply) :
    Action Request Reply → List (ServiceRPCRequest Request × Reply)
  | .callbackReturn payload => (server.started.getLast?.map fun request => (request, payload)).toList
  | _ => []

theorem Kept.callbackReturn {server next : ServiceServer Request Reply}
    {returned : List (ServiceRPCRequest Request × Reply)} (kept : server.Kept returned)
    {payload : Reply} (stepped : server.callbackReturn payload = some next) :
    next.Kept (returned ++ server.returning (.callbackReturn payload)) := by
  unfold ServiceServer.callbackReturn at stepped
  split at stepped
  · rename_i located
    cases stepped
    obtain ⟨request, started⟩ := kept.busy (by rw [calling, located]; rfl)
    have nothing : server.pending = [] := by
      rw [pending, located]
      rfl
    have call : server.returning (.callbackReturn payload) = [(request, payload)] := by
      rw [returning, started, List.getLast?_concat]
      rfl
    rw [call]
    constructor
    · intro _
      rw [List.map_append]
      exact started
    · intro running
      cases running
    · obtain ⟨dropped, same, whole⟩ := kept.written
      refine ⟨dropped, ?_, whole⟩
      rw [List.map_append, same, nothing, List.append_nil]
      rfl
  · cases stepped

theorem Kept.step {server next : ServiceServer Request Reply} {action : Action Request Reply}
    {returned : List (ServiceRPCRequest Request × Reply)} (kept : server.Kept returned)
    (ready : server.Ready) (stepped : server.step action = some next) :
    next.Kept (returned ++ server.returning action) := by
  have same : ∀ {other : Action Request Reply}, server.returning other = [] →
      returned ++ server.returning other = returned := fun silent => by
    rw [silent, List.append_nil]
  cases action with
  | receive request =>
      rw [same rfl]
      simp only [ServiceServer.step, receive] at stepped
      split at stepped <;> cases stepped
      exact kept.move rfl rfl rfl rfl id
  | loop =>
      rw [same rfl]
      exact kept.loopStep ready.direct stepped
  | callbackSet setter =>
      rw [same rfl]
      simp only [ServiceServer.step, callbackSet] at stepped
      split at stepped
      · rename_i located
        cases stepped
        refine kept.move rfl ?_ ?_ rfl id
        · rw [calling, calling, located]
          rfl
        · rw [pending, pending, located]
          rfl
      · cases stepped
  | callbackReturn payload => exact kept.callbackReturn stepped
  | task =>
      rw [same rfl]
      exact kept.taskStep ready stepped
  | complete ok =>
      rw [same rfl]
      obtain ⟨replies, ended, rfl⟩ := Option.map_eq_some_iff.mp stepped
      refine kept.move rfl rfl rfl ?_ fun live => ?_
      · exact congrArg finalPayloads (ReplyStream.complete_written ended)
      · unfold ReplyStream.complete at ended
        split at ended <;> cases ended
        exact live
  | handleWrite =>
      rw [same rfl]
      simp only [ServiceServer.step] at stepped
      split at stepped
      · obtain ⟨replies, popped, rfl⟩ := Option.map_eq_some_iff.mp stepped
        refine kept.move rfl rfl rfl ?_ fun live => ?_
        · exact congrArg finalPayloads (ready.direct.handleWrite_written popped)
        · simp only [ReplyStream.handleWrite, ready.direct.1] at popped
          split at popped <;> cases popped
          exact live
      · cases stepped
  | disconnect =>
      rw [same rfl]
      cases stepped
      exact kept.move rfl rfl rfl rfl fun live => by cases live

end ServiceServer

/-! ## The channels -/

namespace ServiceClient

/-- What a step of the user writes, if it is a new request, has been sent. -/
theorem step_sent {client next : ServiceClient Request Reply} {action : ClientAction Request Reply}
    (pulls : ∀ request, client.user = .requestWrite request → request.isPull = true)
    (outside : ∀ reply, action ≠ .receive reply) (stepped : client.step action = some next) :
    next.sent = client.sent ++ (client.sending action).filter ServiceRPCRequest.isPull ∧
      next.finals = client.finals ∧
      ∀ request, next.user = .requestWrite request → request.isPull = true := by
  cases action with
  | receive reply => exact absurd rfl (outside reply)
  | request payload =>
      simp only [step, request] at stepped
      split at stepped
      · split at stepped
        · cases stepped
          exact ⟨(List.append_nil _).symm, rfl, pulls⟩
        · cases stepped
          refine ⟨(List.append_nil _).symm, rfl, fun request writing => ?_⟩
          cases writing
          rfl
      · cases stepped
  | cancel =>
      simp only [step, cancel] at stepped
      split at stepped
      · split at stepped
        · cases stepped
          exact ⟨(List.append_nil _).symm, rfl, pulls⟩
        · cases stepped
          exact ⟨(List.append_nil _).symm, rfl, fun _ writing => by cases writing⟩
      · cases stepped
  | write ok =>
      simp only [step, write] at stepped
      split at stepped
      · cases stepped
      · split at stepped
        · rename_i request writing
          cases ok with
          | true =>
              cases stepped
              have new : client.sending (.write true) = [request] := by
                rw [sending, ServiceClient.writing, writing]
                rfl
              rw [new, List.filter_cons_of_pos (pulls request writing)]
              exact ⟨rfl, rfl, fun _ other => by cases other⟩
          | false =>
              cases stepped
              exact ⟨(List.append_nil _).symm, rfl, fun _ other => by cases other⟩
        · rename_i writing
          cases stepped
          cases ok with
          | true =>
              have cancel : (client.sending (.write true)).filter ServiceRPCRequest.isPull = [] := by
                rw [sending, ServiceClient.writing, writing]
                rfl
              rw [cancel]
              exact ⟨(List.append_nil _).symm, rfl, fun _ other => by cases other⟩
          | false => exact ⟨(List.append_nil _).symm, rfl, fun _ other => by cases other⟩
        · cases stepped
  | user =>
      simp only [step, userStep] at stepped
      split at stepped
      · cases stepped
        exact ⟨(List.append_nil _).symm, rfl, fun _ other => by cases other⟩
      · split at stepped <;> cases stepped <;>
          exact ⟨(List.append_nil _).symm, rfl, fun _ other => by cases other⟩
      · split at stepped
        · cases stepped
        · cases stepped
          exact ⟨(List.append_nil _).symm, rfl, fun _ other => by cases other⟩
      · cases stepped
  | close =>
      simp only [step, close] at stepped
      split at stepped
      · cases stepped
        exact ⟨(List.append_nil _).symm, rfl, pulls⟩
      · cases stepped

end ServiceClient

namespace ServiceServer

theorem written_since {server next : ServiceServer Request Reply} {action : Action Request Reply}
    (direct : server.replies.Direct) (stepped : server.step action = some next) :
    next.replies.written =
      server.replies.written ++ server.replies.since next.replies := by
  have extended : ∃ added, next.replies.written = server.replies.written ++ added := by
    cases step_move stepped with
    | called reply _ written =>
        rw [written]
        cases cancelled : server.replies.isCancelled with
        | true =>
            rw [ReplyStream.writeReply_cancelled cancelled]
            exact ⟨[], (List.append_nil _).symm⟩
        | false =>
            rw [(direct.writeReply reply).2, ReplyStream.writeReply_issued cancelled, ← direct.2]
            exact ⟨[reply], rfl⟩
    | kept _ unchanged =>
        rw [unchanged]
        exact ⟨[], (List.append_nil _).symm⟩
    | completed ok _ ended =>
        rw [ReplyStream.complete_written ended]
        exact ⟨[], (List.append_nil _).symm⟩
    | handled _ popped =>
        rw [direct.handleWrite_written popped]
        exact ⟨[], (List.append_nil _).symm⟩
    | disconnected _ cancelled =>
        rw [cancelled]
        exact ⟨[], (List.append_nil _).symm⟩
  obtain ⟨added, written⟩ := extended
  rw [ReplyStream.since, written, List.drop_left]

theorem read_of_step {server next : ServiceServer Request Reply} {action : Action Request Reply}
    (inside : ∀ request, action ≠ .receive request) (stepped : server.step action = some next) :
    next.read = server.read := by
  cases action with
  | receive request => exact absurd rfl (inside request)
  | loop =>
      simp only [step, loopStep] at stepped
      split at stepped
      case h_1 => cases stepped
      case h_4 | h_8 => cases stepped; rfl
      case h_2 | h_3 | h_6 | h_7 => split at stepped <;> cases stepped <;> rfl
      case h_5 =>
        split at stepped
        · cases stepped
        · cases stepped
          rfl
  | callbackSet setter =>
      simp only [step, callbackSet] at stepped
      split at stepped <;> cases stepped
      rfl
  | callbackReturn payload =>
      simp only [step, callbackReturn] at stepped
      split at stepped <;> cases stepped
      rfl
  | task =>
      simp only [step, taskStep] at stepped
      split at stepped
      case h_1 | h_2 => cases stepped
      case h_5 | h_6 | h_7 | h_10 => cases stepped; rfl
      case h_3 | h_4 | h_8 | h_9 => split at stepped <;> cases stepped <;> rfl
  | complete ok =>
      obtain ⟨replies, _, rfl⟩ := Option.map_eq_some_iff.mp stepped
      rfl
  | handleWrite =>
      simp only [step] at stepped
      split at stepped
      · obtain ⟨replies, _, rfl⟩ := Option.map_eq_some_iff.mp stepped
        rfl
      · cases stepped
  | disconnect =>
      cases stepped
      rfl

end ServiceServer

namespace Session

inductive Change (session : Session Request Reply) (action : SessionAction Request Reply)
    (next : Session Request Reply) : Prop where
  | client (move : ClientAction Request Reply) (client : ServiceClient Request Reply)
      (acting : action = .client move) (outside : ∀ reply, move ≠ .receive reply)
      (stepped : session.client.step move = some client)
      (result : next = { session with
        client := client
        requests := session.requests ++ session.client.sending move })
  | server (move : Action Request Reply) (server : ServiceServer Request Reply)
      (acting : action = .server move) (inside : ∀ request, move ≠ .receive request)
      (stepped : session.server.step move = some server)
      (result : next = { session with
        server := server
        replies := session.replies ++ session.server.replies.since server.replies })
  | delivered (request : ServiceRPCRequest Request) (rest : List (ServiceRPCRequest Request))
      (server : ServiceServer Request Reply) (acting : action = .deliver)
      (arrived : session.requests = request :: rest)
      (stepped : session.server.step (.receive request) = some server)
      (result : next = { session with server := server, requests := rest })
  | received (reply : ServiceRPCReply Reply) (rest : List (ServiceRPCReply Reply))
      (client : ServiceClient Request Reply) (acting : action = .read)
      (arrived : session.replies = reply :: rest)
      (stepped : session.client.receive reply = some client)
      (result : next = { session with client := client, replies := rest })

theorem step_change {session next : Session Request Reply} {action : SessionAction Request Reply}
    (stepped : session.step action = some next) : Change session action next := by
  cases action with
  | client move =>
      by_cases outside : ∃ reply, move = .receive reply
      · obtain ⟨reply, rfl⟩ := outside
        cases stepped
      · have moves : (session.client.step move).map (fun client =>
            { session with
              client := client
              requests := session.requests ++ session.client.sending move }) = some next := by
          cases move <;> first | exact stepped | exact absurd ⟨_, rfl⟩ outside
        obtain ⟨client, moved, rfl⟩ := Option.map_eq_some_iff.mp moves
        exact .client move client rfl (fun reply same => outside ⟨reply, same⟩) moved rfl
  | server move =>
      by_cases inside : ∃ request, move = .receive request
      · obtain ⟨request, rfl⟩ := inside
        cases stepped
      · have moves : (session.server.step move).map (fun server =>
            { session with
              server := server
              replies := session.replies ++ session.server.replies.since server.replies }) =
            some next := by
          cases move <;> first | exact stepped | exact absurd ⟨_, rfl⟩ inside
        obtain ⟨server, moved, rfl⟩ := Option.map_eq_some_iff.mp moves
        exact .server move server rfl (fun request same => inside ⟨request, same⟩) moved rfl
  | deliver =>
      simp only [step] at stepped
      split at stepped
      · cases stepped
      · rename_i request rest arrived
        obtain ⟨server, moved, rfl⟩ := Option.map_eq_some_iff.mp stepped
        exact .delivered request rest server rfl arrived moved rfl
  | read =>
      simp only [step] at stepped
      split at stepped
      · cases stepped
      · rename_i reply rest arrived
        obtain ⟨client, moved, rfl⟩ := Option.map_eq_some_iff.mp stepped
        exact .received reply rest client rfl arrived moved rfl

/-- Both channels keep what goes through them, in order. -/
structure Joined (session : Session Request Reply) : Prop where
  sent : session.client.sent = session.server.read.filter ServiceRPCRequest.isPull ++
    session.requests.filter ServiceRPCRequest.isPull
  got : finalPayloads session.server.replies.written =
    session.client.finals ++ finalPayloads session.replies
  pulls : ∀ request, session.client.user = .requestWrite request → request.isPull = true

theorem opened_joined : (opened : Session Request Reply).Joined where
  sent := rfl
  got := rfl
  pulls _ writing := by cases writing

theorem Joined.step {session next : Session Request Reply} {action : SessionAction Request Reply}
    (joined : session.Joined) (ready : session.server.Ready)
    (stepped : session.step action = some next) : next.Joined := by
  cases step_change stepped with
  | client move client _ outside moved result =>
      subst result
      obtain ⟨sent, finals, pulls⟩ := ServiceClient.step_sent joined.pulls outside moved
      refine ⟨?_, ?_, pulls⟩
      · dsimp only
        rw [sent, joined.sent, List.filter_append, List.append_assoc]
      · dsimp only
        rw [finals, joined.got]
  | server move server _ inside moved result =>
      subst result
      refine ⟨?_, ?_, joined.pulls⟩
      · dsimp only
        rw [ServiceServer.read_of_step inside moved, joined.sent]
      · dsimp only
        rw [ServiceServer.written_since ready.direct moved, finalPayloads_append,
          finalPayloads_append, joined.got, List.append_assoc]
  | delivered request rest server _ arrived moved result =>
      subst result
      simp only [ServiceServer.step, ServiceServer.receive] at moved
      split at moved <;> cases moved
      refine ⟨?_, joined.got, joined.pulls⟩
      dsimp only
      rw [joined.sent, arrived, ← List.filter_append, ← List.filter_append, List.append_cons]
  | received reply rest client _ arrived moved result =>
      subst result
      have got := joined.got
      rw [arrived, ← List.singleton_append, finalPayloads_append] at got
      unfold ServiceClient.receive at moved
      split at moved
      · split at moved
        · rename_i final
          cases moved
          refine ⟨joined.sent, ?_, joined.pulls⟩
          rw [got, finalPayloads_final final, ← List.append_assoc]
        · rename_i other
          cases moved
          refine ⟨joined.sent, ?_, joined.pulls⟩
          rw [got, finalPayloads_other (Bool.not_eq_true _ ▸ other), List.nil_append]
      · cases moved

end Session

/-! ## The calls -/

/-- A session with the callbacks that have returned, each with its request and its reply. -/
structure RecordedSession (Request Reply : Type) where
  session : Session Request Reply
  returned : List (ServiceRPCRequest Request × Reply)

namespace Session

def returning (session : Session Request Reply) :
    SessionAction Request Reply → List (ServiceRPCRequest Request × Reply)
  | .server move => session.server.returning move
  | _ => []

/-- What a step is for the client. -/
def clientMove (session : Session Request Reply) :
    SessionAction Request Reply → Option (ClientAction Request Reply)
  | .client move => some move
  | .read => session.replies.head?.map .receive
  | _ => none

def Unhurried (session : Session Request Reply) (action : SessionAction Request Reply) : Prop :=
  ∀ move ∈ session.clientMove action, session.client.Unhurried move

instance [DecidableEq Request] [DecidableEq Reply] (session : Session Request Reply)
    (action : SessionAction Request Reply) : Decidable (session.Unhurried action) :=
  inferInstanceAs (Decidable (∀ move ∈ session.clientMove action, session.client.Unhurried move))

end Session

namespace RecordedSession

def opened : RecordedSession Request Reply where
  session := .opened
  returned := []

def step (state : RecordedSession Request Reply) (action : SessionAction Request Reply) :
    Option (RecordedSession Request Reply) :=
  (state.session.step action).map fun session =>
    { session := session, returned := state.returned ++ state.session.returning action }

def machine : Machine (RecordedSession Request Reply) (SessionAction Request Reply) where
  step := step

/-- The event loop and the task leave each other alone around the end of a call, and so do
the user and the reader around the beginning of one. -/
def Smooth (state : RecordedSession Request Reply) (action : SessionAction Request Reply) : Prop :=
  state.session.Undisturbed action ∧ state.session.Unhurried action

instance [DecidableEq Request] [DecidableEq Reply] (state : RecordedSession Request Reply)
    (action : SessionAction Request Reply) : Decidable (state.Smooth action) :=
  inferInstanceAs (Decidable (_ ∧ _))

/-- Callbacks run for the requests sent, in their order and once each. The k-th future gets
nothing but what the k-th callback has returned or the end of the stream, and it gets the
former once nothing is on its way on a stream that has not ended. -/
structure Accounted (state : RecordedSession Request Reply) : Prop where
  executed : state.returned.map Prod.fst <+: state.session.server.started ∧
    state.session.server.started <+: state.session.client.sent
  completed : ∀ (k : Nat) future, state.session.client.futures[k]? = some future →
    state.session.client.completions future = [] ∨
    (state.session.client.completions future = [.streamClose] ∧
      state.session.client.reading = false) ∨
    ∃ request reply, state.session.client.sent[k]? = some request ∧
      state.returned[k]? = some (request, reply) ∧
      state.session.client.completions future = [.value (some reply)]
  delivered : state.session.server.replies.isCancelled = false → state.session.tokens = 0 →
    ∀ future ∈ state.session.client.futures,
      ∃ reply, state.session.client.completions future = [.value (some reply)]

structure Valid (state : RecordedSession Request Reply) : Prop where
  circulating : state.session.Circulating
  matched : state.session.client.Matched
  joined : state.session.Joined
  kept : state.session.server.Kept state.returned

theorem opened_valid : (opened : RecordedSession Request Reply).Valid where
  circulating := Session.opened_circulating
  matched := ServiceClient.opened_matched
  joined := Session.opened_joined
  kept := ServiceServer.connected_kept

theorem Valid.started {state : RecordedSession Request Reply} (valid : state.Valid) :
    state.returned.map Prod.fst <+: state.session.server.started := by
  cases calling : state.session.server.calling with
  | false => exact valid.kept.idle calling ▸ List.prefix_refl _
  | true =>
      obtain ⟨request, started⟩ := valid.kept.busy calling
      exact started ▸ List.prefix_append _ _

theorem Valid.sent {state : RecordedSession Request Reply} (valid : state.Valid) :
    state.session.client.sent = state.session.server.started ++
      (state.session.server.loop.pulling ++
        state.session.requests.filter ServiceRPCRequest.isPull) := by
  rw [valid.joined.sent, valid.circulating.ready.pulled, List.append_assoc]

/-- The final replies, as far as the reader has come, are those of the first callbacks. -/
theorem Valid.finals {state : RecordedSession Request Reply} (valid : state.Valid) :
    state.session.client.finals <+: state.returned.map fun call => some call.2 := by
  obtain ⟨dropped, written, _⟩ := valid.kept.written
  rw [written, valid.joined.got, List.append_assoc, List.append_assoc]
  exact List.prefix_append _ _

/-- A final reply that arrives answers a request that has not been answered. -/
theorem Valid.answerable {state : RecordedSession Request Reply} (valid : state.Valid)
    {reply : ServiceRPCReply Reply} {rest : List (ServiceRPCReply Reply)}
    (arrived : state.session.replies = reply :: rest) :
    state.session.client.Answerable (.receive reply) := by
  intro final
  obtain ⟨dropped, written, _⟩ := valid.kept.written
  have counted := congrArg List.length written
  rw [valid.joined.got, arrived, ← List.singleton_append, finalPayloads_append,
    finalPayloads_final final, List.length_map] at counted
  simp only [List.length_append, List.length_singleton] at counted
  have executed := valid.started.length_le
  rw [List.length_map] at executed
  have sent := congrArg List.length valid.sent
  rw [List.length_append] at sent
  omega

theorem Valid.matched_step {state : RecordedSession Request Reply} (valid : state.Valid)
    {action : SessionAction Request Reply} {next : Session Request Reply}
    (unhurried : state.session.Unhurried action)
    (stepped : state.session.step action = some next) : next.client.Matched := by
  cases Session.step_change stepped with
  | client move client acting outside moved result =>
      subst acting result
      have answerable : state.session.client.Answerable move := by
        cases move with
        | receive reply => exact absurd rfl (outside reply)
        | request | cancel | write | user | close => trivial
      refine valid.matched.step (unhurried move rfl) ?_
      exact (if_pos answerable).trans moved
  | server _ _ _ _ _ result =>
      subst result
      exact valid.matched
  | delivered _ _ _ _ _ _ result =>
      subst result
      exact valid.matched
  | received reply rest client acting arrived moved result =>
      subst acting result
      have about : state.session.clientMove .read = some (.receive reply) := by
        rw [Session.clientMove, arrived]
        rfl
      refine valid.matched.step (unhurried _ about) ?_
      exact (if_pos (valid.answerable arrived)).trans moved

theorem Valid.kept_step {state : RecordedSession Request Reply} (valid : state.Valid)
    {action : SessionAction Request Reply} {next : Session Request Reply}
    (stepped : state.session.step action = some next) :
    next.server.Kept (state.returned ++ state.session.returning action) := by
  have ready := valid.circulating.ready
  cases Session.step_change stepped with
  | client move _ acting _ _ result =>
      subst acting result
      have silent : state.session.returning (.client move) = [] := rfl
      rw [silent, List.append_nil]
      exact valid.kept
  | server move server acting _ moved result =>
      subst acting result
      exact valid.kept.step ready moved
  | delivered request rest server acting _ moved result =>
      subst acting result
      exact valid.kept.step ready moved
  | received _ _ _ acting _ _ result =>
      subst acting result
      have silent : state.session.returning .read = [] := rfl
      rw [silent, List.append_nil]
      exact valid.kept

theorem Valid.step {state next : RecordedSession Request Reply}
    {action : SessionAction Request Reply} (valid : state.Valid) (smooth : state.Smooth action)
    (stepped : machine.step state action = some next) : next.Valid := by
  obtain ⟨undisturbed, unhurried⟩ := smooth
  obtain ⟨session, taken, rfl⟩ := Option.map_eq_some_iff.mp stepped
  exact ⟨valid.circulating.step undisturbed taken, valid.matched_step unhurried taken,
    valid.joined.step valid.circulating.ready taken, valid.kept_step taken⟩

/-- With nothing on its way, every request has been answered. -/
theorem Valid.all_answered {state : RecordedSession Request Reply} (valid : state.Valid)
    (live : state.session.server.replies.isCancelled = false) (done : state.session.tokens = 0) :
    state.session.client.finals.length = state.session.client.sent.length := by
  obtain ⟨dropped, written, whole⟩ := valid.kept.written
  have none := whole live
  have counted := congrArg List.length written
  rw [valid.joined.got, none, List.append_nil, List.length_append, List.length_append,
    List.length_map, finalPayloads_length] at counted
  have sent := congrArg List.length valid.sent
  rw [List.length_append, List.length_append] at sent
  unfold Session.tokens ServiceServer.tokens Session.pulls at done
  have quiet : state.session.server.calling = false ∧ state.session.server.pending = [] := by
    have idle : state.session.server.busy = 0 := by omega
    unfold ServiceServer.busy at idle
    unfold ServiceServer.calling ServiceServer.pending
    split at idle
    · rename_i ended
      rw [ended]
      exact ⟨rfl, rfl⟩
    · rename_i task located
      rw [located]
      cases task with
      | suspendTestProcess | suspendTestPrompted | suspendWrite => exact ⟨rfl, rfl⟩
      | callback | setTestProcess | setTestPrompted | setWrite | endStatus | writeReply =>
          cases idle
  have started := congrArg List.length (valid.kept.idle quiet.1)
  rw [List.length_map] at started
  rw [quiet.2, List.length_nil] at counted
  omega

theorem getElem?_of_prefix {Entry : Type} {front whole : List Entry} (initial : front <+: whole)
    {k : Nat} {entry : Entry} (found : front[k]? = some entry) : whole[k]? = some entry := by
  obtain ⟨inside, rfl⟩ := List.getElem?_eq_some_iff.mp found
  exact List.prefix_iff_getElem?.mp initial k inside

/-- The k-th final reply is what the k-th callback has returned for the k-th request. -/
theorem Valid.call_of_final {state : RecordedSession Request Reply} (valid : state.Valid) {k : Nat}
    {final : Option Reply} (found : state.session.client.finals[k]? = some final) :
    ∃ request reply, final = some reply ∧ state.session.client.sent[k]? = some request ∧
      state.returned[k]? = some (request, reply) := by
  have mapped := getElem?_of_prefix valid.finals found
  rw [List.getElem?_map] at mapped
  obtain ⟨⟨request, reply⟩, called, rfl⟩ := Option.map_eq_some_iff.mp mapped
  have executed : (state.returned.map Prod.fst)[k]? = some request := by
    rw [List.getElem?_map, called]
    rfl
  have started := getElem?_of_prefix valid.started executed
  have sent := getElem?_of_prefix (valid.sent ▸ List.prefix_append _ _) started
  exact ⟨request, reply, rfl, sent, called⟩

theorem futures_le {client : ServiceClient Request Reply} (matched : client.Matched) :
    client.futures.length ≤ client.sent.length := by
  cases reading : client.reading with
  | false => exact (matched.ended reading).2.2.2.ge
  | true =>
      have progress := matched.progress reading
      unfold ServiceClient.Progress at progress
      split at progress
      · exact progress.2.ge
      · exact progress.2 ▸ Nat.le_succ _
      · exact progress.2.2.2 ▸ Nat.le_succ _
      · exact progress.2.ge

theorem Valid.accounted {state : RecordedSession Request Reply} (valid : state.Valid) :
    state.Accounted := by
  have completed := valid.matched.paired.completed
  refine ⟨⟨valid.started, valid.sent ▸ List.prefix_append _ _⟩, fun k future found => ?_,
    fun live done future member => ?_⟩
  · rw [completed k future found, ServiceClient.expected]
    cases final : state.session.client.finals[k]? with
    | some payload =>
        obtain ⟨request, reply, rfl, sent, called⟩ := valid.call_of_final final
        exact .inr (.inr ⟨request, reply, sent, called, rfl⟩)
    | none =>
        cases reading : state.session.client.reading with
        | true => exact .inl rfl
        | false => exact .inr (.inl ⟨rfl, rfl⟩)
  · obtain ⟨k, found⟩ := List.mem_iff_getElem?.mp member
    have inside := (List.getElem?_eq_some_iff.mp found).1
    have answered := valid.all_answered live done
    have few := futures_le valid.matched
    have final := List.getElem?_eq_getElem (show k < state.session.client.finals.length by omega)
    obtain ⟨request, reply, same, _⟩ := valid.call_of_final final
    refine ⟨reply, ?_⟩
    rw [completed k future found, ServiceClient.expected, final, same]

/-- Two calls, of which the stream loses the second one. -/
def callTwice : List (SessionAction Nat String) :=
  [.client (.request 1), .client (.write true), .client .user, .client .user, .deliver,
    .server .loop, .server .loop, .server .loop, .server .loop, .server (.complete true),
    .server .handleWrite, .server (.callbackSet .setSuccess), .server .task, .server .task,
    .server (.callbackReturn "one"), .server .task, .server .task, .read, .read,
    .server .task, .server .task, .server .task, .client (.request 2), .client (.write true),
    .client .user, .client .user, .deliver, .server .loop, .server .loop, .server .loop,
    .server .loop, .server .disconnect, .client .close, .server (.callbackReturn "two")]

end RecordedSession

end ProtoCore.Service
