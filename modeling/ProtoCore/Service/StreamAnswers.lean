import ProtoCore.Service.OutstandingWrites
import ProtoCore.Service.StreamProjection

/-!
# What the clients of a server are answered

The results about one stream hold of each stream of the pool: on each, the requests that were
read are answered one after another, by whole blocks of replies.
-/

set_option autoImplicit false

namespace ProtoCore.Service

open Library

variable {Request Reply : Type}

/-! ## Requests and calls -/

/-- The requests for a new call. -/
def pullsOf (requests : List (ServiceRPCRequest Request)) : List (ServiceRPCRequest Request) :=
  requests.filter fun request => request.setting == .pullNewReq

/-- The request for a call whose acceptance is still to be decided. -/
def LoopStep.tested : LoopStep Request → List (ServiceRPCRequest Request)
  | .testSuspend request => pullsOf [request]
  | _ => []

namespace ServiceServer

/-- What was asked of a call is what the setters may set. -/
def Asked (server : ServiceServer Request Reply) : Prop :=
  ∀ call ∈ server.answered ++ server.running.toList, ∀ status ∈ call.set, status.Terminal

/-- Calls are accepted in the order in which they were asked for. -/
def InOrder (server : ServiceServer Request Reply) : Prop :=
  (server.accepted ++ server.loop.tested).Sublist (pullsOf server.read)

/-- What a step can do to the requests and the calls of a stream. -/
inductive Recorded (server next : ServiceServer Request Reply) : Prop where
  | received (request : ServiceRPCRequest Request) (loop : next.loop = .testSuspend request)
      (read : next.read = server.read ++ [request]) (accepted : next.accepted = server.accepted)
      (calls : next.answered ++ next.running.toList = server.answered ++ server.running.toList)
  | accepted (request : ServiceRPCRequest Request) (tested : server.loop = .testSuspend request)
      (pull : (request.setting == .pullNewReq) = true) (loop : next.loop.tested = [])
      (read : next.read = server.read) (accepted : next.accepted = server.accepted ++ [request])
      (calls : next.answered ++ next.running.toList = server.answered ++ [⟨request, []⟩])
  | asked (setter : Setter) (loop : next.loop = server.loop) (read : next.read = server.read)
      (accepted : next.accepted = server.accepted) (answered : next.answered = server.answered)
      (running : next.running = server.running.map fun call =>
        { call with set := call.set ++ [setter.status] })
  | kept (loop : next.loop.tested = [] ∨ next.loop = server.loop)
      (read : next.read = server.read) (accepted : next.accepted = server.accepted)
      (calls : next.answered ++ next.running.toList = server.answered ++ server.running.toList)

theorem loopStep_recorded {server next : ServiceServer Request Reply}
    (stepped : server.loopStep = some next) : Recorded server next := by
  unfold ServiceServer.loopStep at stepped
  split at stepped
  case h_1 => cases stepped
  case h_2 request located =>
    split at stepped
    · rename_i accepts
      cases stepped
      simp only [Bool.and_eq_true] at accepts
      exact .accepted request located accepts.2 rfl rfl rfl rfl
    · cases stepped
      exact .kept (.inl rfl) rfl rfl rfl
  case h_4 | h_8 =>
    cases stepped
    exact .kept (.inl rfl) rfl rfl rfl
  case h_3 | h_5 | h_6 | h_7 =>
    split at stepped <;> cases stepped <;> exact .kept (.inl rfl) rfl rfl rfl

theorem taskStep_recorded {server next : ServiceServer Request Reply}
    (stepped : server.taskStep = some next) : Recorded server next := by
  unfold ServiceServer.taskStep at stepped
  split at stepped
  case h_1 | h_2 => cases stepped
  case h_7 =>
    -- the call in progress has been answered
    cases stepped
    exact .kept (.inr rfl) rfl rfl (List.append_nil _)
  case h_5 | h_6 | h_10 =>
    cases stepped
    exact .kept (.inr rfl) rfl rfl rfl
  case h_3 | h_4 | h_8 | h_9 =>
    split at stepped <;> cases stepped <;> exact .kept (.inr rfl) rfl rfl rfl

theorem step_recorded {server next : ServiceServer Request Reply} {action : Action Request Reply}
    (stepped : server.step action = some next) : Recorded server next := by
  cases action with
  | receive request =>
      simp only [ServiceServer.step, ServiceServer.receive] at stepped
      split at stepped <;> cases stepped
      exact .received request rfl rfl rfl rfl
  | loop => exact loopStep_recorded stepped
  | callbackSet setter =>
      simp only [ServiceServer.step, ServiceServer.callbackSet] at stepped
      split at stepped <;> cases stepped
      exact .asked setter rfl rfl rfl rfl rfl
  | callbackReturn payload =>
      simp only [ServiceServer.step, ServiceServer.callbackReturn] at stepped
      split at stepped <;> cases stepped
      exact .kept (.inr rfl) rfl rfl rfl
  | task => exact taskStep_recorded stepped
  | complete ok =>
      obtain ⟨replies, _, rfl⟩ := Option.map_eq_some_iff.mp stepped
      exact .kept (.inr rfl) rfl rfl rfl
  | handleWrite =>
      simp only [ServiceServer.step] at stepped
      split at stepped
      · obtain ⟨replies, _, rfl⟩ := Option.map_eq_some_iff.mp stepped
        exact .kept (.inr rfl) rfl rfl rfl
      · cases stepped
  | disconnect =>
      cases stepped
      exact .kept (.inr rfl) rfl rfl rfl

theorem InOrder.step {server next : ServiceServer Request Reply} {action : Action Request Reply}
    (inOrder : server.InOrder) (stepped : server.step action = some next) : next.InOrder := by
  have before : server.accepted.Sublist (pullsOf server.read) :=
    (List.sublist_append_left _ _).trans inOrder
  cases step_recorded stepped with
  | received request loop read accepted calls =>
      have both : pullsOf (server.read ++ [request]) = pullsOf server.read ++ pullsOf [request] :=
        List.filter_append ..
      rw [InOrder, loop, read, accepted, both]
      exact before.append (List.Sublist.refl _)
  | accepted request tested pull loop read accepted calls =>
      have new : pullsOf [request] = [request] := List.filter_cons_of_pos pull
      rw [InOrder, tested, LoopStep.tested, new] at inOrder
      rw [InOrder, loop, read, accepted, List.append_nil]
      exact inOrder
  | asked setter loop read accepted answered running =>
      rw [InOrder, loop, read, accepted]
      exact inOrder
  | kept loop read accepted calls =>
      rw [InOrder, read, accepted]
      rcases loop with tested | same
      · rw [tested, List.append_nil]
        exact before
      · rw [same]
        exact inOrder

theorem Asked.step {server next : ServiceServer Request Reply} {action : Action Request Reply}
    (asked : server.Asked) (stepped : server.step action = some next) : next.Asked := by
  cases step_recorded stepped with
  | received request loop read accepted calls | kept loop read accepted calls =>
      rw [Asked, calls]
      exact asked
  | accepted request tested pull loop read accepted calls =>
      rw [Asked, calls]
      intro call member status set
      rcases List.mem_append.mp member with answered | running
      · exact asked call (List.mem_append_left _ answered) status set
      · cases List.mem_singleton.mp running
        cases set
  | asked setter loop read accepted answered running =>
      rw [Asked, answered, running]
      intro call member status set
      rcases List.mem_append.mp member with earlier | last
      · exact asked call (List.mem_append_left _ earlier) status set
      · obtain ⟨before, held, rfl⟩ := Option.map_eq_some_iff.mp (Option.mem_toList.mp last)
        rcases List.mem_append.mp set with earlier | last
        · exact asked before (List.mem_append_right _ (Option.mem_toList.mpr held)) status earlier
        · cases List.mem_singleton.mp last
          exact setter.status_terminal

/-- What holds of a stream along the runs in which prompts come in time. -/
structure Answering (server : ServiceServer Request Reply) : Prop where
  coherent : server.Coherent
  direct : server.replies.Direct
  inOrder : server.InOrder
  asked : server.Asked

theorem Answering.step {server next : ServiceServer Request Reply}
    {action : Action Request Reply} (answering : server.Answering)
    (inTime : server.PromptsInTime action) (stepped : server.step action = some next) :
    next.Answering where
  coherent := answering.coherent.step inTime stepped
  direct := step_direct action answering.direct stepped
  inOrder := answering.inOrder.step stepped
  asked := answering.asked.step stepped

theorem Answering.run {server after : ServiceServer Request Reply}
    {trace : List (Action Request Reply)} (answering : server.Answering)
    (inTime : machine.Obeys PromptsInTime server trace)
    (led : machine.exec server trace = some after) : after.Answering :=
  (machine.along_of_obeys (fun _ _ _ answering inTime stepped => answering.step inTime stepped)
    answering inTime).final led

theorem connected_answering : (connected : ServiceServer Request Reply).Answering where
  coherent := connected_coherent
  direct := ⟨rfl, rfl⟩
  inOrder := List.Sublist.refl []
  asked _ member := by cases member

/-- The replies to one call. -/
def IsBlock (statuses : List ServiceCallStatus) : Prop :=
  ∃ final, final.Terminal ∧ (statuses = [.process, final] ∨ statuses = [.process, .prompted, final])

theorem Asked.final_terminal {server : ServiceServer Request Reply} (asked : server.Asked)
    {call : Call Request} (answered : call ∈ server.answered) : call.final.Terminal := by
  have terminal := asked call (List.mem_append_left _ answered)
  unfold Call.final
  cases set : call.set with
  | nil => exact ⟨by decide, by decide, by decide⟩
  | cons first rest => exact terminal first (set ▸ List.mem_cons_self)

theorem isBlock_of_matched {calls : List (Call Request)} {blocks : List (List ServiceCallStatus)}
    (matched : List.Forall₂ Call.Block calls blocks)
    (terminal : ∀ call ∈ calls, call.final.Terminal) : ∀ block ∈ blocks, IsBlock block := by
  induction matched with
  | nil => exact fun _ member => by cases member
  | @cons call statuses calls blocks block _ ih =>
      intro other member
      rcases List.mem_cons.mp member with rfl | later
      · exact ⟨call.final, terminal call List.mem_cons_self, block⟩
      · exact ih (fun call member => terminal call (List.mem_cons_of_mem _ member)) other later

end ServiceServer

/-! ## Every stream of the pool -/

/-- Calls that were asked for have been answered in their order, each by a block of replies, and the
last one perhaps by the beginning of a block, while the loop or a task is at work for it. -/
def Answered (tag : Nat) (watched : WatchedPool Request Reply) : Prop :=
  ∃ (requests : List (ServiceRPCRequest Request)) (blocks : List (List ServiceCallStatus))
    (beginning : List ServiceCallStatus),
    requests.Sublist (pullsOf watched.read) ∧ blocks.length = requests.length ∧
    (∀ block ∈ blocks, ServiceServer.IsBlock block) ∧
    watched.written.map ServiceRPCReply.status = blocks.flatten ++ beginning ∧
    beginning <+: [.process, .prompted] ∧
    (watched.pool.loop.tag ≠ some tag → watched.pool.Ended tag → beginning = [])

theorem Serves.answered {tag connection : Nat} {watched : WatchedPool Request Reply}
    {server : ServiceServer Request Reply} (serves : Serves tag connection watched server)
    (answering : server.Answering) (live : server.replies.isCancelled = false) :
    Answered tag watched := by
  obtain ⟨blocks, beginning, matched, sum, short, whole⟩ :=
    answering.coherent.faithful.grammar live
  have calls := answering.coherent.calls
  have accepted : (server.answered.map Call.request).Sublist server.accepted := by
    rw [← calls, List.map_append]
    exact List.sublist_append_left _ _
  have chosen : server.accepted.Sublist (pullsOf server.read) :=
    (List.sublist_append_left _ _).trans answering.inOrder
  refine ⟨server.answered.map Call.request, blocks, beginning, ?_, ?_, ?_, ?_, short, ?_⟩
  · rw [← serves.read]
    exact accepted.trans chosen
  · rw [List.length_map, matched.length_eq]
  · exact ServiceServer.isBlock_of_matched matched fun _ answered =>
      answering.asked.final_terminal answered
  · rw [← serves.written, answering.direct.2, sum]
  · intro apart ended
    obtain ⟨future, located, current⟩ := serves.future
    obtain ⟨request, _, here⟩ := serves.located
    have still := ended future located
    have free : server.task = none := by
      cases future with
      | empty | finished => exact Option.map_eq_none_iff.mp current.symm
      | running owner task => cases still
    have loop := answering.coherent.loop
    rw [here, PoolStage.on_apart apart] at loop
    exact whole (loop free).2

/-- The stream by itself follows with what holds of it. -/
def answeringSimulation (tag connection : Nat) :
    Simulation (WatchedPool.machine tag : Machine (WatchedPool Request Reply) _)
      (ServiceServer.machine : Machine (ServiceServer Request Reply) _) where
  related watched server := Serves tag connection watched server ∧ server.Answering
  allowed watched action := watched.pool.Keeps tag action ∧ watched.pool.PromptsInTime tag action
  matched := by
    rintro watched next action server ⟨serves, answering⟩ ⟨keeps, prompts⟩ stepped
    obtain ⟨pool, moved, rfl⟩ := Option.map_eq_some_iff.mp stepped
    obtain ⟨trace, after, led, obeys, serves⟩ := serves.step keeps moved
    exact ⟨trace, after, led, serves, answering.run (obeys prompts) led⟩

namespace StreamPool

instance (tag : Nat) [DecidableEq Request] [DecidableEq Reply] (pool : StreamPool Request Reply)
    (action : PoolAction Request Reply) : Decidable (pool.PromptsInTime tag action) :=
  inferInstanceAs (Decidable (action = .loop → pool.loop = .promptWrite tag → _ = true))

/-- A call is cancelled while a second client connects, and then succeeds. -/
def cancelledCall : List (PoolAction Nat Nat) :=
  .loop :: .read 0 ⟨.pullNewReq, some 3⟩ :: List.replicate 5 PoolAction.loop ++
    .connect 1 :: List.replicate 11 PoolAction.loop ++ .read 0 ⟨.setCanceled, none⟩ ::
    List.replicate 5 PoolAction.loop ++ [.callbackSet 0 .setSuccess, .task 0, .task 0, .task 0,
      .callbackReturn 0 30, .task 0, .task 0]

end StreamPool

end ProtoCore.Service
