import ProtoCore.Routing.ServiceAddresses

/-!
# A service client gets its address

While a server of its service is there and every notification comes in time, the promise of a
service client can be given its value by the threads that have already been started, whatever
they were interrupted at.
-/

set_option autoImplicit false

namespace ProtoCore.Routing

open Library

/-- A handler there holds the mutex of the condition variable. -/
def HandlerPc.holding : HandlerPc → Bool
  | .evaluate | .park => true
  | _ => false

namespace NodeConnectionServer

/-- The mutex is held by a handler that will release it. -/
def Held (server : NodeConnectionServer) : Prop :=
  ∀ owner ∈ server.mtx, ∃ handler, server.handlers[owner]? = some handler ∧
    handler.pc.holding = true

theorem Held.of_kept {server next : NodeConnectionServer} (held : server.Held)
    (mtx : next.mtx = server.mtx)
    (kept : ∀ (id : Nat) handler, server.handlers[id]? = some handler →
      handler.pc.holding = true →
      ∃ later, next.handlers[id]? = some later ∧ later.pc.holding = true) : next.Held := by
  intro owner owned
  rw [mtx] at owned
  obtain ⟨handler, found, holding⟩ := held owner owned
  exact kept owner handler found holding

theorem Held.transfer {server next : NodeConnectionServer} (held : server.Held)
    (mtx : next.mtx = server.mtx) (handlers : next.handlers = server.handlers) : next.Held :=
  held.of_kept mtx fun _ handler found holding => ⟨handler, handlers ▸ found, holding⟩

theorem Held.released {next : NodeConnectionServer} (mtx : next.mtx = none) : next.Held := by
  intro owner owned
  rw [mtx] at owned
  cases owned

/-- A handler moves that did not hold the mutex, or that keeps it. -/
theorem Held.moved {server next : NodeConnectionServer} (held : server.Held) {id : Nat}
    {handler moved : Handler} (found : server.handlers[id]? = some handler)
    (mtx : next.mtx = server.mtx)
    (handlers : next.handlers = server.handlers.set id moved)
    (keeps : handler.pc.holding = true → moved.pc.holding = true) : next.Held := by
  refine held.of_kept mtx fun other before located holding => ?_
  rw [handlers]
  by_cases same : other = id
  · subst same
    cases found.symm.trans located
    exact ⟨moved, List.getElem?_set_self (List.getElem?_eq_some_iff.mp found).1, keeps holding⟩
  · exact ⟨before, (List.getElem?_set_ne (Ne.symm same)).trans located, holding⟩

theorem Held.addRpcServiceClient {server : NodeConnectionServer} (held : server.Held) {id : Nat}
    {handler : Handler} (found : server.handlers[id]? = some handler)
    (here : handler.pc.holding = false) : (server.addRpcServiceClient id handler).Held := by
  have keeps (moved : Handler) : handler.pc.holding = true → moved.pc.holding = true := by
    intro holding
    cases here.symm.trans holding
  simp only [NodeConnectionServer.addRpcServiceClient]
  split
  · exact held.moved found rfl rfl (keeps _)
  · exact held.moved found rfl rfl (keeps _)

theorem Held.runHandler {server next : NodeConnectionServer} (held : server.Held) {id : Nat}
    {handler : Handler} (found : server.handlers[id]? = some handler)
    (stepped : server.runHandler id handler = some next) : next.Held := by
  obtain ⟨rpc, request, pc, reply⟩ := handler
  unfold NodeConnectionServer.runHandler at stepped
  cases pc with
  | servingTest =>
      simp only at stepped
      split at stepped
      · cases stepped
        exact held.transfer rfl rfl
      · cases stepped
        exact held.moved found rfl rfl Bool.noConfusion
  | loop =>
      cases stepped
      exact held.moved found rfl rfl Bool.noConfusion
  | find =>
      cases stepped
      exact held.moved found rfl rfl Bool.noConfusion
  | connect =>
      cases rpc with
      | topicConnection => cases stepped
      | serviceConnection =>
          cases stepped
          exact held.addRpcServiceClient found rfl
  | lock =>
      simp only [Option.ite_none_right_eq_some, Option.some.injEq] at stepped
      obtain ⟨_, rfl⟩ := stepped
      intro owner owned
      cases owned
      exact ⟨_, List.getElem?_set_self (List.getElem?_eq_some_iff.mp found).1, rfl⟩
  | evaluate =>
      simp only at stepped
      split at stepped
      · cases stepped
        exact Held.released rfl
      · cases stepped
        exact held.moved found rfl rfl fun _ => rfl
  | park =>
      cases stepped
      exact Held.released rfl
  | parked => cases stepped
  | left => cases stepped

theorem Held.runCall {server next : NodeConnectionServer} (held : server.Held) {index : Nat}
    {call : AnnouncementCall} (stepped : server.runCall index call = some next) : next.Held := by
  obtain ⟨announcement, stage⟩ := call
  cases stage with
  | update =>
      cases stepped
      cases announcement with
      | advertise topic url => exact held.transfer rfl rfl
      | serviceClient service =>
          simp only [NodeConnectionServer.update]
          split
          · exact held.transfer rfl rfl
          · exact held.transfer rfl rfl
  | notify =>
      cases stepped
      refine held.of_kept rfl fun id handler found holding => ⟨handler, ?_, holding⟩
      have elsewhere : handler.wake = handler := by
        obtain ⟨rpc, request, pc, reply⟩ := handler
        cases pc <;> first | rfl | cases holding
      have woken : (server.handlers.map Handler.wake)[id]? = some handler.wake :=
        (List.getElem?_map ..).trans (congrArg (Option.map Handler.wake) found)
      exact woken.trans (congrArg some elsewhere)
  | returned => cases stepped

theorem Held.step {server next : NodeConnectionServer} {action : ServerAction}
    (held : server.Held) (stepped : server.step action = some next) : next.Held := by
  simp only [NodeConnectionServer.step, Option.ite_none_left_eq_some] at stepped
  obtain ⟨_, stepped⟩ := stepped
  cases action with
  | request rpc request =>
      cases stepped
      refine held.of_kept rfl fun id handler found holding => ⟨handler, ?_, holding⟩
      exact (List.getElem?_append_left (List.getElem?_eq_some_iff.mp found).1).trans found
  | run id =>
      obtain ⟨handler, found, stepped⟩ := Option.bind_eq_some_iff.mp stepped
      exact held.runHandler found stepped
  | connected id info =>
      obtain ⟨handler, found, stepped⟩ := Option.bind_eq_some_iff.mp stepped
      simp only [Option.ite_none_right_eq_some, Option.some.injEq] at stepped
      obtain ⟨⟨here, _⟩, rfl⟩ := stepped
      refine held.moved found rfl rfl fun holding => ?_
      rw [here] at holding
      cases holding
  | cancelled id =>
      obtain ⟨handler, found, stepped⟩ := Option.bind_eq_some_iff.mp stepped
      simp only [Option.ite_none_right_eq_some, Option.some.injEq] at stepped
      obtain ⟨here, rfl⟩ := stepped
      refine held.moved found rfl rfl fun holding => ?_
      rw [here] at holding
      cases holding
  | wake id =>
      obtain ⟨handler, found, stepped⟩ := Option.bind_eq_some_iff.mp stepped
      simp only [Option.ite_none_right_eq_some, Option.some.injEq] at stepped
      obtain ⟨here, rfl⟩ := stepped
      refine held.moved found rfl rfl fun holding => ?_
      rw [here] at holding
      cases holding
  | call index =>
      obtain ⟨call, _, stepped⟩ := Option.bind_eq_some_iff.mp stepped
      exact held.runCall stepped
  | resetServedService service =>
      simp only [advance, Option.ite_none_right_eq_some, Option.some.injEq] at stepped
      obtain ⟨_, rfl⟩ := stepped
      exact held.transfer rfl rfl
  | _ =>
      cases stepped
      exact held.transfer rfl rfl

/-- The steps of the threads that have been started. -/
def Started : ServerAction → Prop
  | .run _ | .call _ => True
  | _ => False

instance (action : ServerAction) : Decidable (Started action) :=
  match action with
  | .run _ | .call _ => isTrue trivial
  | .request _ _ | .announce _ | .connected _ _ | .cancelled _ | .wake _ | .subscribe _ _
  | .addServingService _ | .resetServedService _ | .setAbort => isFalse id

def Addressed (server : NodeConnectionServer) (service : String) : Prop :=
  ∃ address, server.services (awaitedKey service) = some (some address)

/-- A handler of the service that has not answered its call. It is notified if it waits, and
its test, if it is still to come, does not end the process. -/
structure Unanswered (server : NodeConnectionServer) (service : String) (handler : Handler) :
    Prop where
  rpc : handler.rpc = .serviceConnection
  object : handler.request.object = service
  here : handler.pc ≠ .left
  alone : handler.pc = .servingTest → server.findServingService service = false
  notified : handler.pc = .park ∨ handler.pc = .parked → server.Notifying

/-- A handler of the service is there, and the promise of its client has no value yet. -/
structure Serving (server : NodeConnectionServer) (id : Nat) (service : String) : Prop where
  ok : server.ok = true
  running : server.exited = false
  unset : server.services (awaitedKey service) = some none
  held : server.Held
  handler : ∃ handler, server.handlers[id]? = some handler ∧ server.Unanswered service handler

/-- The mutex is free, its owner is about to wait, or its owner is about to decide that. -/
def lockRank (server : NodeConnectionServer) : Nat :=
  match server.mtx with
  | none => 0
  | some owner =>
      match (server.handlers[owner]?).map Handler.pc with
      | some .evaluate => 2
      | _ => 1

def pcRank (server : NodeConnectionServer) : HandlerPc → Nat
  | .left => 0
  | .connect => 1
  | .find => 2
  | .loop => 3
  | .servingTest | .evaluate => 4
  | .lock => 5 + server.lockRank
  | .parked => 8
  | .park => 9

def rank (server : NodeConnectionServer) (id : Nat) : Nat :=
  ((server.handlers[id]?).map fun handler => server.pcRank handler.pc).getD 0

theorem rank_of_found {server : NodeConnectionServer} {id : Nat} {handler : Handler}
    (found : server.handlers[id]? = some handler) : server.rank id = server.pcRank handler.pc := by
  rw [rank, found]
  rfl

theorem lockRank_le (server : NodeConnectionServer) : server.lockRank ≤ 2 := by
  unfold lockRank
  split
  · exact Nat.zero_le 2
  · split
    · exact Nat.le_refl 2
    · exact Nat.le_succ 1

theorem step_run {server : NodeConnectionServer} {id : Nat} {handler : Handler}
    (running : server.exited = false) (found : server.handlers[id]? = some handler) :
    server.step (.run id) = server.runHandler id handler := by
  rw [step, running, if_neg Bool.noConfusion, advance, found]
  rfl

/-- The step takes the handler on, or gives the promise its value. -/
def Advances (server : NodeConnectionServer) (id : Nat) (service : String) : Prop :=
  ∃ action next, Started action ∧ server.step action = some next ∧
    (next.Serving id service ∨ next.Addressed service) ∧ next.rank id < server.rank id

theorem Serving.moved {server : NodeConnectionServer} {id : Nat} {service : String}
    (serving : server.Serving id service) {handler : Handler} {mtx : Option Nat} {pc : HandlerPc}
    (found : server.handlers[id]? = some handler)
    (stepped : server.runHandler id handler =
      some ({ server with mtx := mtx }.setHandler id { handler with pc := pc }))
    (unanswered : server.Unanswered service { handler with pc := pc })
    (lower : ({ server with mtx := mtx }.setHandler id { handler with pc := pc }).pcRank pc <
      server.pcRank handler.pc) : server.Advances id service := by
  have executed := (step_run serving.running found).trans stepped
  have there : (server.handlers.set id { handler with pc := pc })[id]? =
      some { handler with pc := pc } :=
    List.getElem?_set_self (List.getElem?_eq_some_iff.mp found).1
  refine ⟨.run id, _, trivial, executed, .inl ⟨serving.ok, serving.running, serving.unset,
    serving.held.step executed, _, there, ?_⟩, ?_⟩
  · exact ⟨unanswered.rpc, unanswered.object, unanswered.here, unanswered.alone,
      unanswered.notified⟩
  · rw [rank_of_found there, rank_of_found found]
    exact lower

/-- The owner of the mutex runs while the handler waits for it. -/
theorem Serving.waits {server next : NodeConnectionServer} {id owner : Nat} {service : String}
    (serving : server.Serving id service) {handler other moved : Handler}
    (found : server.handlers[id]? = some handler) (waiting : handler.pc = .lock)
    (located : server.handlers[owner]? = some other) (holding : other.pc.holding = true)
    (stepped : server.runHandler owner other = some next)
    (kept : next.handlers = server.handlers.set owner moved ∧ next.ok = server.ok ∧
      next.exited = server.exited ∧ next.services = server.services ∧ next.calls = server.calls)
    (lower : next.lockRank < server.lockRank) : server.Advances id service := by
  obtain ⟨handlers, ok, exited, services, calls⟩ := kept
  have executed := (step_run serving.running located).trans stepped
  have apart : owner ≠ id := by
    rintro rfl
    cases found.symm.trans located
    rw [waiting] at holding
    cases holding
  have there : next.handlers[id]? = some handler := by
    rw [handlers]
    exact (List.getElem?_set_ne apart).trans found
  obtain ⟨same, found', unanswered⟩ := serving.handler
  cases found.symm.trans found'
  refine ⟨.run owner, next, trivial, executed, .inl ⟨ok.trans serving.ok,
    exited.trans serving.running, ?_, serving.held.step executed, handler, there, unanswered.rpc,
    unanswered.object, unanswered.here, fun at_test => ?_, fun parked => ?_⟩, ?_⟩
  · rw [services]
    exact serving.unset
  · cases waiting.symm.trans at_test
  · rcases parked with parking | parked
    · cases waiting.symm.trans parking
    · cases waiting.symm.trans parked
  · rw [rank_of_found there, rank_of_found found, waiting]
    exact Nat.add_lt_add_left lower 5

theorem Unanswered.at {server : NodeConnectionServer} {service : String} {handler : Handler}
    (unanswered : server.Unanswered service handler) {pc : HandlerPc} (here : pc ≠ .left)
    (tested : pc ≠ .servingTest) (notified : pc = .park ∨ pc = .parked → server.Notifying) :
    server.Unanswered service { handler with pc := pc } :=
  ⟨unanswered.rpc, unanswered.object, here, fun test => absurd test tested, notified⟩

theorem awake {pc : HandlerPc} (elsewhere : pc ≠ .park ∧ pc ≠ .parked) {motive : Prop}
    (waiting : pc = .park ∨ pc = .parked) : motive := by
  rcases waiting with parking | parked
  · exact absurd parking elsewhere.1
  · exact absurd parked elsewhere.2

/-- The mutex that the handler waits for is free, or its owner can release it. -/
theorem Serving.lock {server : NodeConnectionServer} {id : Nat} {service : String}
    (serving : server.Serving id service) {rpc : Rpc} {request : PeerRequest}
    {reply : Option ConnectionReply}
    (found : server.handlers[id]? = some ⟨rpc, request, .lock, reply⟩)
    (unanswered : server.Unanswered service ⟨rpc, request, .lock, reply⟩) :
    server.Advances id service := by
  cases mtx : server.mtx with
  | none =>
      have free : server.mtx.isNone = true := by
        rw [mtx]
        rfl
      refine serving.moved found (if_pos free)
        (unanswered.at (by decide) (by decide) (awake (by decide))) ?_
      exact Nat.lt_of_lt_of_le (Nat.lt_succ_self 4) (Nat.le_add_right 5 server.lockRank)
  | some owner =>
      obtain ⟨⟨otherRpc, otherRequest, pc, otherReply⟩, located, holding⟩ :=
        serving.held owner mtx
      cases pc with
      | evaluate =>
          have before : server.lockRank = 2 := by
            rw [lockRank, mtx]
            simp only [located, Option.map_some]
          by_cases ready :
              server.waitPredicate ⟨otherRpc, otherRequest, .evaluate, otherReply⟩ = true
          · refine serving.waits found rfl located holding (if_pos ready)
              ⟨rfl, rfl, rfl, rfl, rfl⟩ ?_
            rw [before]
            exact Nat.zero_lt_two
          · refine serving.waits found rfl located holding (if_neg ready)
              ⟨rfl, rfl, rfl, rfl, rfl⟩ ?_
            have parking : (server.handlers.set owner
                ⟨otherRpc, otherRequest, .park, otherReply⟩)[owner]? =
                some ⟨otherRpc, otherRequest, .park, otherReply⟩ :=
              List.getElem?_set_self (List.getElem?_eq_some_iff.mp located).1
            rw [before, lockRank]
            simp only [setHandler, mtx, parking, Option.map_some]
            exact Nat.one_lt_two
      | park =>
          have before : server.lockRank = 1 := by
            rw [lockRank, mtx]
            simp only [located, Option.map_some]
          refine serving.waits found rfl located holding rfl ⟨rfl, rfl, rfl, rfl, rfl⟩ ?_
          rw [before]
          exact Nat.zero_lt_one
      | _ => cases holding

/-- A notification that is still to come wakes the handler. -/
theorem Serving.parked {server : NodeConnectionServer} {id : Nat} {service : String}
    (serving : server.Serving id service) {rpc : Rpc} {request : PeerRequest}
    {reply : Option ConnectionReply}
    (found : server.handlers[id]? = some ⟨rpc, request, .parked, reply⟩)
    (unanswered : server.Unanswered service ⟨rpc, request, .parked, reply⟩) :
    server.Advances id service := by
  obtain ⟨⟨announcement, stage⟩, member, rfl⟩ := unanswered.notified (.inr rfl)
  obtain ⟨index, located⟩ := List.mem_iff_getElem?.mp member
  obtain ⟨next, equal⟩ : ∃ next : NodeConnectionServer, next =
      { server with handlers := server.handlers.map Handler.wake }.setStage index
        ⟨announcement, .notify⟩ .returned := ⟨_, rfl⟩
  have executed : server.step (.call index) = some next := by
    rw [step, serving.running, if_neg Bool.noConfusion, advance, located, equal]
    rfl
  have there : next.handlers[id]? = some ⟨rpc, request, .lock, reply⟩ := by
    rw [equal]
    exact (List.getElem?_map ..).trans (congrArg (Option.map Handler.wake) found)
  have same : next.ok = server.ok ∧ next.exited = server.exited ∧
      next.services = server.services := by
    rw [equal]
    exact ⟨rfl, rfl, rfl⟩
  obtain ⟨ok, exited, services⟩ := same
  have awakened : next.Unanswered service ⟨rpc, request, .lock, reply⟩ :=
    ⟨unanswered.rpc, unanswered.object, HandlerPc.noConfusion, HandlerPc.noConfusion,
      awake ⟨HandlerPc.noConfusion, HandlerPc.noConfusion⟩⟩
  refine ⟨.call index, next, trivial, executed, .inl ⟨ok.trans serving.ok,
    exited.trans serving.running, ?_, serving.held.step executed, _, there, awakened⟩, ?_⟩
  · rw [services]
    exact serving.unset
  · rw [rank_of_found there, rank_of_found found]
    exact Nat.lt_succ_of_le (Nat.add_le_add_left next.lockRank_le 5)

theorem Serving.advances {server : NodeConnectionServer} {id : Nat} {service : String}
    (serving : server.Serving id service) : server.Advances id service := by
  obtain ⟨⟨rpc, request, pc, reply⟩, found, unanswered⟩ := serving.handler
  obtain rfl : rpc = .serviceConnection := unanswered.rpc
  obtain rfl : request.object = service := unanswered.object
  have granted : server.granted ⟨.serviceConnection, request, pc, reply⟩ = true := by
    simp only [NodeConnectionServer.granted, findWaitServedService, serving.unset,
      Option.isSome_some]
  cases pc with
  | servingTest =>
      have alone : ¬ server.findServingService request.object = true := by
        rw [unanswered.alone rfl]
        exact Bool.noConfusion
      exact serving.moved found (if_neg alone)
        (unanswered.at (by decide) (by decide) (awake (by decide))) (Nat.lt_succ_self 3)
  | loop =>
      have stepped : server.runHandler id ⟨.serviceConnection, request, .loop, reply⟩ =
          some (server.setHandler id ⟨.serviceConnection, request, .find, reply⟩) := by
        simp only [NodeConnectionServer.runHandler, serving.ok, if_true]
      exact serving.moved found stepped (unanswered.at (by decide) (by decide) (awake (by decide)))
        (Nat.lt_succ_self 2)
  | find =>
      have stepped : server.runHandler id ⟨.serviceConnection, request, .find, reply⟩ =
          some (server.setHandler id ⟨.serviceConnection, request, .connect, reply⟩) := by
        simp only [NodeConnectionServer.runHandler, granted, if_true]
      exact serving.moved found stepped (unanswered.at (by decide) (by decide) (awake (by decide)))
        (Nat.lt_succ_self 1)
  | connect =>
      have stepped : server.runHandler id ⟨.serviceConnection, request, .connect, reply⟩ =
          some (server.addRpcServiceClient id ⟨.serviceConnection, request, .connect, reply⟩) := rfl
      have executed := (step_run serving.running found).trans stepped
      have answers := addRpcServiceClient_of_unset found (by rw [serving.unset]; rfl)
      have address : server.addressOf id =
          some (request.ip ++ ":" ++ toString request.port) := by
        rw [addressOf, found]
        rfl
      refine ⟨.run id, _, trivial, executed,
        .inr ⟨request.ip ++ ":" ++ toString request.port, ?_⟩, ?_⟩
      · rw [answers.services, Function.update_self]
        exact congrArg some address
      · rw [rank_of_found answers.self, rank_of_found found]
        exact Nat.zero_lt_one
  | lock => exact serving.lock found unanswered
  | evaluate =>
      have ready : server.waitPredicate ⟨.serviceConnection, request, .evaluate, reply⟩ = true := by
        rw [waitPredicate, granted]
        rfl
      exact serving.moved found (if_pos ready)
        (unanswered.at (by decide) (by decide) (awake (by decide))) (Nat.lt_succ_self 3)
  | park =>
      exact serving.moved found rfl (unanswered.at (by decide) (by decide) fun _ =>
        unanswered.notified (.inl rfl)) (Nat.lt_succ_self 8)
  | parked => exact serving.parked found unanswered
  | left => exact absurd rfl unanswered.here

/-- The server of a service is parked when its client announces itself, and another handler has
the mutex. -/
def announcedToParked : List ServerAction :=
  [.request .serviceConnection { scanRequest with object := "map" }] ++
    List.replicate 6 (ServerAction.run 0) ++
    [.announce (.serviceClient "map"), .call 0] ++
    [.request .topicConnection scanRequest] ++ List.replicate 4 (ServerAction.run 1)

end NodeConnectionServer

end ProtoCore.Routing
