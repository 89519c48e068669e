import ProtoCore.Routing.PendingConnections

/-!
# Addresses of services

`serviceClient` and `reset` put a new promise at the key of a service. A handler of
`ServiceConnection` gives it the address of the server that asks. The promises are recorded
here with the handlers that gave them a value; the program keeps the newest of each service.
-/

set_option autoImplicit false

namespace ProtoCore.Routing

open Library

theorem awaitedKey_injective : Function.Injective awaitedKey := by
  intro left right same
  exact String.append_right_inj "d" |>.mp same

/-- A promise of an address, with the handlers that have given it a value. -/
structure AddressPromise where
  service : String
  setters : List Nat
  deriving DecidableEq, Repr

namespace AddressPromise

/-- The newest promise of the service gets a value. -/
def setValue (service : String) (id : Nat) : List AddressPromise → List AddressPromise
  | [] => []
  | promise :: older =>
      if promise.service = service then { promise with setters := id :: promise.setters } :: older
      else promise :: setValue service id older

def newest (promises : List AddressPromise) (service : String) : Option AddressPromise :=
  promises.find? fun promise => promise.service = service

theorem newest_cons_self (promise : AddressPromise) (older : List AddressPromise) :
    newest (promise :: older) promise.service = some promise :=
  List.find?_cons_of_pos (by simp)

theorem newest_cons_of_ne {promise : AddressPromise} {service : String}
    (other : promise.service ≠ service) (older : List AddressPromise) :
    newest (promise :: older) service = newest older service :=
  List.find?_cons_of_neg (by simpa using other)

theorem newest_mem {promises : List AddressPromise} {service : String} {promise : AddressPromise}
    (found : newest promises service = some promise) : promise ∈ promises :=
  List.mem_of_find?_eq_some found

theorem newest_service {promises : List AddressPromise} {service : String}
    {promise : AddressPromise} (found : newest promises service = some promise) :
    promise.service = service := by
  simpa using List.find?_some found

theorem newest_setValue_self (promises : List AddressPromise) (service : String) (id : Nat) :
    newest (setValue service id promises) service =
      (newest promises service).map fun promise =>
        { promise with setters := id :: promise.setters } := by
  induction promises with
  | nil => rfl
  | cons promise older ih =>
      rw [setValue]
      by_cases same : promise.service = service
      · subst same
        rw [if_pos rfl, newest_cons_self promise, Option.map_some]
        exact newest_cons_self { promise with setters := id :: promise.setters } older
      · rw [if_neg same, newest_cons_of_ne same, newest_cons_of_ne same]
        exact ih

theorem newest_setValue_of_ne {service other : String} (apart : other ≠ service)
    (promises : List AddressPromise) (id : Nat) :
    newest (setValue service id promises) other = newest promises other := by
  induction promises with
  | nil => rfl
  | cons promise older ih =>
      rw [setValue]
      split
      · rename_i same
        have skipped : promise.service ≠ other := fun equal => apart (equal.symm.trans same)
        have unchanged :
            { promise with setters := id :: promise.setters }.service ≠ other := skipped
        have later := newest_cons_of_ne unchanged older
        rw [later, newest_cons_of_ne skipped]
      · by_cases same : promise.service = other
        · subst same
          rw [newest_cons_self, newest_cons_self]
        · rw [newest_cons_of_ne same, newest_cons_of_ne same]
          exact ih

/-- A promise after the step is one from before it, or the newest one with its new value. -/
theorem mem_setValue {promises : List AddressPromise} {service : String} {id : Nat}
    {promise : AddressPromise} (member : promise ∈ setValue service id promises) :
    promise ∈ promises ∨ ∃ before, newest promises service = some before ∧
      promise = { before with setters := id :: before.setters } := by
  induction promises with
  | nil => cases member
  | cons head older ih =>
      rw [setValue] at member
      by_cases same : head.service = service
      · rw [if_pos same] at member
        rcases List.mem_cons.mp member with rfl | earlier
        · exact .inr ⟨head, same ▸ newest_cons_self head older, rfl⟩
        · exact .inl (List.mem_cons_of_mem _ earlier)
      · rw [if_neg same] at member
        rcases List.mem_cons.mp member with rfl | earlier
        · exact .inl List.mem_cons_self
        · rcases ih earlier with kept | ⟨before, found, equal⟩
          · exact .inl (List.mem_cons_of_mem _ kept)
          · exact .inr ⟨before, (newest_cons_of_ne same older).trans found, equal⟩

theorem setValue_setters {promises : List AddressPromise} {service : String}
    {promise : AddressPromise} (found : newest promises service = some promise) (id : Nat) :
    ((setValue service id promises).flatMap setters).Perm (id :: promises.flatMap setters) := by
  induction promises with
  | nil => cases found
  | cons head older ih =>
      rw [setValue]
      by_cases same : head.service = service
      · rw [if_pos same, List.flatMap_cons, List.flatMap_cons]
        exact List.Perm.refl _
      · rw [if_neg same, List.flatMap_cons, List.flatMap_cons]
        rw [newest_cons_of_ne same] at found
        exact ((ih found).append_left head.setters).trans List.perm_middle

end AddressPromise

/-- The handler after it has given the promise of its service a value. -/
def Handler.accepted (handler : Handler) : Handler :=
  { handler with
    pc := .left
    reply := some { object := handler.request.object, url := "", ip := "", port := 0 } }

namespace NodeConnectionServer

/-- The service for which the step makes a promise. -/
def promised (server : NodeConnectionServer) : ServerAction → Option String
  | .call index =>
      (server.calls[index]?).bind fun call =>
        match call.stage, call.announcement with
        | .update, .serviceClient service =>
            if server.findWaitServedService service then none else some service
        | _, _ => none
  | .resetServedService service => some service
  | _ => none

/-- The handler that gives a promise its value in the step, and the service. -/
def setter (server : NodeConnectionServer) : ServerAction → Option (Nat × String)
  | .run id =>
      (server.handlers[id]?).bind fun handler =>
        if handler.pc = .connect ∧ handler.rpc = .serviceConnection ∧
            (server.services (awaitedKey handler.request.object)).join = none then
          some (id, handler.request.object)
        else none
  | _ => none

/-- The address in the request of a handler. -/
def addressOf (server : NodeConnectionServer) (id : Nat) : Option String :=
  (server.handlers[id]?).map fun handler =>
    handler.request.ip ++ ":" ++ toString handler.request.port

/-- The handler has answered its call: a server of the service has its client. -/
def Connected (server : NodeConnectionServer) (service : String) (id : Nat) : Prop :=
  ∃ handler, server.handlers[id]? = some handler ∧ handler.rpc = .serviceConnection ∧
    handler.request.object = service ∧ handler.pc = .left ∧
      handler.reply = some { object := service, url := "", ip := "", port := 0 }

/-- A handler before and after a step that gives no promise a value. -/
structure Follows (server : NodeConnectionServer) (handler later : Handler) : Prop where
  rpc : later.rpc = handler.rpc
  request : later.request = handler.request
  left : handler.pc = .left → later.pc = .left
  reply : handler.rpc = .serviceConnection → later.reply = handler.reply
  connects : later.pc = .connect → handler.pc = .connect ∨ server.granted handler = true

theorem Follows.refl (server : NodeConnectionServer) (handler : Handler) :
    server.Follows handler handler :=
  ⟨rfl, rfl, id, fun _ => rfl, .inl⟩

theorem Follows.moved (server : NodeConnectionServer) {handler : Handler} {pc : HandlerPc}
    (here : handler.pc ≠ .left)
    (connects : pc = .connect → server.granted handler = true) :
    server.Follows handler { handler with pc := pc } :=
  ⟨rfl, rfl, fun left => absurd left here, fun _ => rfl, fun there => .inr (connects there)⟩

theorem Follows.wake (server : NodeConnectionServer) (handler : Handler) :
    server.Follows handler handler.wake where
  rpc := rfl
  request := rfl
  left left := by simp only [Handler.wake, left, reduceCtorEq, if_false]
  reply _ := rfl
  connects there := by
    simp only [Handler.wake] at there
    split at there
    · cases there
    · exact .inl there

/-- A step that neither makes a promise nor gives one a value. -/
structure Quiet (server next : NodeConnectionServer) : Prop where
  services : ∀ service, next.services (awaitedKey service) = server.services (awaitedKey service)
  kept : ∀ (id : Nat) handler, server.handlers[id]? = some handler →
    ∃ later, next.handlers[id]? = some later ∧ server.Follows handler later
  fresh : ∀ (id : Nat) later, next.handlers[id]? = some later → server.handlers[id]? = none →
    later.pc ≠ .connect ∧ later.reply = none

theorem Quiet.of_handlers {server next : NodeConnectionServer}
    (services : ∀ service,
      next.services (awaitedKey service) = server.services (awaitedKey service))
    (handlers : next.handlers = server.handlers) : server.Quiet next where
  services := services
  kept id handler found := ⟨handler, handlers ▸ found, Follows.refl server handler⟩
  fresh id later found absent := by
    rw [handlers, absent] at found
    cases found

theorem Quiet.of_set {server next : NodeConnectionServer} {id : Nat} {handler moved : Handler}
    (found : server.handlers[id]? = some handler) (follows : server.Follows handler moved)
    (services : next.services = server.services)
    (handlers : next.handlers = server.handlers.set id moved) : server.Quiet next where
  services service := by rw [services]
  kept other before located := by
    rw [handlers, List.getElem?_set]
    split
    · rename_i same
      subst same
      rw [found] at located
      cases located
      exact ⟨moved, if_pos (List.getElem?_eq_some_iff.mp found).1, follows⟩
    · exact ⟨before, located, Follows.refl server before⟩
  fresh other later located absent := by
    have outside := List.getElem?_eq_none_iff.mp absent
    rw [handlers, List.getElem?_eq_none (by rw [List.length_set]; exact outside)] at located
    cases located

theorem Quiet.moved {server : NodeConnectionServer} {id : Nat} {handler : Handler}
    (found : server.handlers[id]? = some handler) (here : handler.pc ≠ .left) (mtx : Option Nat)
    (pc : HandlerPc) (connects : pc = .connect → server.granted handler = true) :
    server.Quiet ({ server with mtx := mtx }.setHandler id { handler with pc := pc }) :=
  Quiet.of_set found (Follows.moved server here connects) rfl rfl

theorem Quiet.connected {server next : NodeConnectionServer} (quiet : server.Quiet next)
    {service : String} {id : Nat} (connected : server.Connected service id) :
    next.Connected service id := by
  obtain ⟨handler, found, rpc, object, left, reply⟩ := connected
  obtain ⟨later, located, follows⟩ := quiet.kept id handler found
  rw [← follows.request] at object
  exact ⟨later, located, follows.rpc.trans rpc, object, follows.left left,
    (follows.reply rpc).trans reply⟩

theorem Quiet.addressOf {server next : NodeConnectionServer} (quiet : server.Quiet next)
    {service : String} {id : Nat} (connected : server.Connected service id) :
    next.addressOf id = server.addressOf id := by
  obtain ⟨handler, found, _⟩ := connected
  obtain ⟨later, located, follows⟩ := quiet.kept id handler found
  simp only [NodeConnectionServer.addressOf, found, located, Option.map_some, follows.request]

theorem runHandler_cases {server next : NodeConnectionServer} {id : Nat} {handler : Handler}
    (found : server.handlers[id]? = some handler)
    (stepped : server.runHandler id handler = some next) :
    handler.pc = .connect ∧ handler.rpc = .serviceConnection ∧
        next = server.addRpcServiceClient id handler ∨
      handler.pc ≠ .connect ∧ server.Quiet next := by
  obtain ⟨rpc, request, pc, reply⟩ := handler
  unfold NodeConnectionServer.runHandler at stepped
  cases pc with
  | servingTest =>
      refine .inr ⟨HandlerPc.noConfusion, ?_⟩
      simp only at stepped
      split at stepped
      · cases stepped
        exact Quiet.of_handlers (fun _ => rfl) rfl
      · cases stepped
        exact Quiet.moved found HandlerPc.noConfusion server.mtx .loop HandlerPc.noConfusion
  | loop =>
      refine .inr ⟨HandlerPc.noConfusion, ?_⟩
      cases stepped
      refine Quiet.moved found HandlerPc.noConfusion server.mtx _ fun there => ?_
      cases alive : server.ok <;> rw [alive] at there <;> cases there
  | find =>
      refine .inr ⟨HandlerPc.noConfusion, ?_⟩
      cases stepped
      refine Quiet.moved found HandlerPc.noConfusion server.mtx _ fun there => ?_
      by_contra refused
      rw [if_neg refused] at there
      cases there
  | connect =>
      cases rpc with
      | topicConnection => cases stepped
      | serviceConnection =>
          cases stepped
          exact .inl ⟨rfl, rfl, rfl⟩
  | lock =>
      refine .inr ⟨HandlerPc.noConfusion, ?_⟩
      simp only [Option.ite_none_right_eq_some, Option.some.injEq] at stepped
      obtain ⟨_, rfl⟩ := stepped
      exact Quiet.moved found HandlerPc.noConfusion (some id) .evaluate HandlerPc.noConfusion
  | evaluate =>
      refine .inr ⟨HandlerPc.noConfusion, ?_⟩
      simp only at stepped
      split at stepped
      · cases stepped
        exact Quiet.moved found HandlerPc.noConfusion none .loop HandlerPc.noConfusion
      · cases stepped
        exact Quiet.moved found HandlerPc.noConfusion server.mtx .park HandlerPc.noConfusion
  | park =>
      refine .inr ⟨HandlerPc.noConfusion, ?_⟩
      cases stepped
      exact Quiet.moved found HandlerPc.noConfusion none .parked HandlerPc.noConfusion
  | parked => cases stepped
  | left => cases stepped

/-- A step gives a promise its value, makes a promise, or leaves the promises alone. -/
theorem step_cases {server next : NodeConnectionServer} {action : ServerAction}
    (stepped : server.step action = some next) :
    (∃ service, server.promised action = some service ∧ next.handlers = server.handlers ∧
      next.services = Function.update server.services (awaitedKey service) (some none)) ∨
    (∃ id handler, server.promised action = none ∧
      server.setter action = some (id, handler.request.object) ∧
      server.handlers[id]? = some handler ∧ handler.pc = .connect ∧
      handler.rpc = .serviceConnection ∧
      (server.services (awaitedKey handler.request.object)).join = none ∧
      next = server.addRpcServiceClient id handler) ∨
    (server.promised action = none ∧ server.setter action = none ∧ server.Quiet next) := by
  simp only [NodeConnectionServer.step, Option.ite_none_left_eq_some] at stepped
  obtain ⟨_, stepped⟩ := stepped
  cases action with
  | request rpc request =>
      cases stepped
      refine .inr (.inr ⟨rfl, rfl, fun _ => rfl, fun id handler found => ?_,
        fun id later found absent => ?_⟩)
      · exact ⟨handler, List.getElem?_append_left (List.getElem?_eq_some_iff.mp found).1 ▸ found,
          Follows.refl server handler⟩
      · rcases getElem?_concat_eq_some found with earlier | ⟨_, rfl⟩
        · cases absent.symm.trans earlier
        · cases rpc <;> exact ⟨HandlerPc.noConfusion, rfl⟩
  | announce announcement =>
      cases stepped
      exact .inr (.inr ⟨rfl, rfl, Quiet.of_handlers (fun _ => rfl) rfl⟩)
  | run id =>
      obtain ⟨handler, found, stepped⟩ := Option.bind_eq_some_iff.mp stepped
      have setter : server.setter (.run id) = if handler.pc = .connect ∧
          handler.rpc = .serviceConnection ∧
            (server.services (awaitedKey handler.request.object)).join = none then
          some (id, handler.request.object) else none := by
        simp only [NodeConnectionServer.setter, found, Option.bind_some]
      rcases runHandler_cases found stepped with ⟨here, rpc, rfl⟩ | ⟨elsewhere, quiet⟩
      · by_cases unset : (server.services (awaitedKey handler.request.object)).join = none
        · rw [if_pos ⟨here, rpc, unset⟩] at setter
          exact .inr (.inl ⟨id, handler, rfl, setter, found, here, rpc, unset, rfl⟩)
        · rw [if_neg fun all => unset all.2.2] at setter
          obtain ⟨address, set⟩ := Option.ne_none_iff_exists'.mp unset
          have located := Option.join_eq_some_iff.mp set
          refine .inr (.inr ⟨rfl, setter, ?_⟩)
          unfold NodeConnectionServer.addRpcServiceClient
          simp only [located]
          have elsewhere : handler.pc ≠ .left := by
            rw [here]
            exact HandlerPc.noConfusion
          exact Quiet.moved found elsewhere server.mtx .loop HandlerPc.noConfusion
      · rw [if_neg fun all => elsewhere all.1] at setter
        exact .inr (.inr ⟨rfl, setter, quiet⟩)
  | connected id info =>
      obtain ⟨handler, found, stepped⟩ := Option.bind_eq_some_iff.mp stepped
      simp only [Option.ite_none_right_eq_some, Option.some.injEq] at stepped
      obtain ⟨⟨here, rpc⟩, rfl⟩ := stepped
      have follows : server.Follows handler { handler with
          pc := .left
          reply := if info.connected then
              some {
                object := handler.request.object
                url := handler.request.url
                ip := info.ip
                port := info.port }
            else none } := by
        refine ⟨rfl, rfl, fun _ => rfl, fun other => ?_, fun there => ?_⟩
        · cases rpc.symm.trans other
        · cases there
      exact .inr (.inr ⟨rfl, rfl, Quiet.of_set found follows rfl rfl⟩)
  | cancelled id =>
      obtain ⟨handler, found, stepped⟩ := Option.bind_eq_some_iff.mp stepped
      simp only [Option.ite_none_right_eq_some, Option.some.injEq] at stepped
      obtain ⟨here, rfl⟩ := stepped
      have elsewhere : handler.pc ≠ .left := by
        rw [here]
        exact HandlerPc.noConfusion
      exact .inr (.inr ⟨rfl, rfl, Quiet.moved found elsewhere server.mtx _ HandlerPc.noConfusion⟩)
  | wake id =>
      obtain ⟨handler, found, stepped⟩ := Option.bind_eq_some_iff.mp stepped
      simp only [Option.ite_none_right_eq_some, Option.some.injEq] at stepped
      obtain ⟨here, rfl⟩ := stepped
      have elsewhere : handler.pc ≠ .left := by
        rw [here]
        exact HandlerPc.noConfusion
      exact .inr (.inr ⟨rfl, rfl, Quiet.moved found elsewhere server.mtx _ HandlerPc.noConfusion⟩)
  | call index =>
      obtain ⟨⟨announcement, stage⟩, found, stepped⟩ := Option.bind_eq_some_iff.mp stepped
      cases stage with
      | update =>
          cases stepped
          cases announcement with
          | advertise topic url =>
              have promised : server.promised (.call index) = none := by
                simp only [NodeConnectionServer.promised, found, Option.bind_some]
              exact .inr (.inr ⟨promised, rfl, Quiet.of_handlers (fun _ => rfl) rfl⟩)
          | serviceClient service =>
              have promised : server.promised (.call index) =
                  if server.findWaitServedService service then none else some service := by
                simp only [NodeConnectionServer.promised, found, Option.bind_some]
              simp only [NodeConnectionServer.update]
              split
              · rename_i again
                exact .inr (.inr ⟨promised.trans (if_pos again), rfl,
                  Quiet.of_handlers (fun _ => rfl) rfl⟩)
              · rename_i first
                exact .inl ⟨service, promised.trans (if_neg first), rfl, rfl⟩
      | notify =>
          cases stepped
          have promised : server.promised (.call index) = none := by
            simp only [NodeConnectionServer.promised, found, Option.bind_some]
          refine .inr (.inr ⟨promised, rfl, fun _ => rfl,
            fun id handler located => ⟨handler.wake, ?_, Follows.wake server handler⟩,
            fun id later located absent => ?_⟩)
          · exact (List.getElem?_map ..).trans (congrArg (Option.map Handler.wake) located)
          · have mapped : (server.handlers.map Handler.wake)[id]? = some later := located
            rw [List.getElem?_map, absent] at mapped
            cases mapped
      | returned => cases stepped
  | subscribe topic url =>
      cases stepped
      exact .inr (.inr ⟨rfl, rfl, Quiet.of_handlers (fun _ => rfl) rfl⟩)
  | addServingService service =>
      cases stepped
      refine .inr (.inr ⟨rfl, rfl, Quiet.of_handlers (fun other => ?_) rfl⟩)
      exact Function.update_of_ne (awaitedKey_ne_servingKey other service) (some none)
        server.services
  | resetServedService service =>
      simp only [advance, Option.ite_none_right_eq_some, Option.some.injEq] at stepped
      obtain ⟨_, rfl⟩ := stepped
      exact .inl ⟨service, rfl, rfl, rfl⟩
  | setAbort =>
      cases stepped
      exact .inr (.inr ⟨rfl, rfl, Quiet.of_handlers (fun _ => rfl) rfl⟩)

/-- What a handler leaves behind that has given the promise of its service a value. -/
structure Answers (server : NodeConnectionServer) (id : Nat) (handler : Handler)
    (next : NodeConnectionServer) : Prop where
  self : next.handlers[id]? = some handler.accepted
  other : ∀ {other : Nat}, other ≠ id → next.handlers[other]? = server.handlers[other]?
  services : next.services = Function.update server.services
    (awaitedKey handler.request.object) (some (server.addressOf id))

theorem Answers.addressOf {server next : NodeConnectionServer} {id : Nat} {handler : Handler}
    (answers : server.Answers id handler next) (found : server.handlers[id]? = some handler) :
    next.addressOf = server.addressOf := by
  funext other
  unfold NodeConnectionServer.addressOf
  by_cases self : other = id
  · rw [self, answers.self, found]
    rfl
  · rw [answers.other self]

theorem addRpcServiceClient_of_unset {server : NodeConnectionServer} {id : Nat}
    {handler : Handler} (found : server.handlers[id]? = some handler)
    (unset : (server.services (awaitedKey handler.request.object)).join = none) :
    server.Answers id handler (server.addRpcServiceClient id handler) := by
  have same : server.addRpcServiceClient id handler =
      { server with
        services := Function.update server.services (awaitedKey handler.request.object)
          (some (some (handler.request.ip ++ ":" ++ toString handler.request.port)))
      }.setHandler id handler.accepted := by
    unfold NodeConnectionServer.addRpcServiceClient
    cases located : server.services (awaitedKey handler.request.object) with
    | none => simp only [located, Handler.accepted]
    | some value =>
        cases value with
        | none => simp only [located, Handler.accepted]
        | some address =>
            rw [located] at unset
            cases unset
  rw [same]
  refine ⟨?_, fun elsewhere => ?_, ?_⟩
  · exact List.getElem?_set_self (List.getElem?_eq_some_iff.mp found).1
  · exact List.getElem?_set_ne elsewhere.symm
  · simp only [NodeConnectionServer.addressOf, found, Option.map_some, setHandler]

end NodeConnectionServer

/-- A node and every promise it has made, the newest first. -/
structure ServiceAddresses where
  server : NodeConnectionServer
  promises : List AddressPromise

namespace ServiceAddresses

def initial : ServiceAddresses where
  server := .initial
  promises := []

def record (addresses : ServiceAddresses) (action : ServerAction) : List AddressPromise :=
  match addresses.server.promised action with
  | some service => ⟨service, []⟩ :: addresses.promises
  | none =>
      match addresses.server.setter action with
      | some (id, service) => AddressPromise.setValue service id addresses.promises
      | none => addresses.promises

def step (addresses : ServiceAddresses) (action : ServerAction) : Option ServiceAddresses :=
  (addresses.server.step action).map fun next => ⟨next, addresses.record action⟩

def machine : Machine ServiceAddresses ServerAction := ⟨step⟩

/-- The replies and the values of the promises belong together one to one, and the program has
the newest promise of each service. -/
structure Assigned (addresses : ServiceAddresses) : Prop where
  once : ∀ promise ∈ addresses.promises, promise.setters.length ≤ 1
  distinct : (addresses.promises.flatMap AddressPromise.setters).Nodup
  connected : ∀ promise ∈ addresses.promises, ∀ id ∈ promise.setters,
    addresses.server.Connected promise.service id
  answered : ∀ (id : Nat) handler, addresses.server.handlers[id]? = some handler →
    handler.rpc = .serviceConnection → handler.reply.isSome →
      ∃ promise ∈ addresses.promises, id ∈ promise.setters
  current : ∀ service, addresses.server.services (awaitedKey service) =
    (AddressPromise.newest addresses.promises service).map fun promise =>
      promise.setters.head?.bind addresses.server.addressOf
  awaited : ∀ (id : Nat) handler, addresses.server.handlers[id]? = some handler →
    handler.pc = .connect → handler.rpc = .serviceConnection →
      (addresses.server.services (awaitedKey handler.request.object)).isSome

theorem initial_assigned : initial.Assigned where
  once _ member := by cases member
  distinct := List.nodup_nil
  connected _ member := by cases member
  answered _ _ found := by cases found
  current _ := rfl
  awaited _ _ found := by cases found

theorem Assigned.quiet {addresses : ServiceAddresses} (assigned : addresses.Assigned)
    {next : NodeConnectionServer} (quiet : addresses.server.Quiet next) :
    Assigned ⟨next, addresses.promises⟩ where
  once := assigned.once
  distinct := assigned.distinct
  connected promise member id set := quiet.connected (assigned.connected promise member id set)
  answered id later located rpc replied := by
    cases found : addresses.server.handlers[id]? with
    | none =>
        have unanswered := (quiet.fresh id later located found).2
        rw [unanswered] at replied
        cases replied
    | some handler =>
        obtain ⟨same, there, follows⟩ := quiet.kept id handler found
        cases located.symm.trans there
        have before := follows.rpc.symm.trans rpc
        exact assigned.answered id handler found before (follows.reply before ▸ replied)
  current service := by
    rw [quiet.services, assigned.current service]
    refine Option.map_congr fun promise newest => ?_
    refine Option.bind_congr fun id head => ?_
    have set := List.mem_of_head? head
    exact (quiet.addressOf (assigned.connected promise (AddressPromise.newest_mem newest) id
      set)).symm
  awaited id later located here rpc := by
    rw [quiet.services]
    cases found : addresses.server.handlers[id]? with
    | none => exact absurd here (quiet.fresh id later located found).1
    | some handler =>
        obtain ⟨same, there, follows⟩ := quiet.kept id handler found
        cases located.symm.trans there
        have before := follows.rpc.symm.trans rpc
        rw [follows.request]
        rcases follows.connects here with connecting | granted
        · exact assigned.awaited id handler found connecting before
        · simpa only [NodeConnectionServer.granted, before,
            NodeConnectionServer.findWaitServedService] using granted

theorem Assigned.promised {addresses : ServiceAddresses} (assigned : addresses.Assigned)
    {next : NodeConnectionServer} (service : String)
    (handlers : next.handlers = addresses.server.handlers)
    (services : next.services =
      Function.update addresses.server.services (awaitedKey service) (some none)) :
    Assigned ⟨next, ⟨service, []⟩ :: addresses.promises⟩ where
  once promise member := by
    rcases List.mem_cons.mp member with rfl | earlier
    · exact Nat.zero_le 1
    · exact assigned.once promise earlier
  distinct := by
    rw [List.flatMap_cons]
    exact assigned.distinct
  connected promise member id set := by
    rcases List.mem_cons.mp member with rfl | earlier
    · cases set
    · obtain ⟨handler, found, rest⟩ := assigned.connected promise earlier id set
      exact ⟨handler, handlers ▸ found, rest⟩
  answered id handler found rpc replied := by
    obtain ⟨promise, member, set⟩ := assigned.answered id handler (handlers ▸ found) rpc replied
    exact ⟨promise, List.mem_cons_of_mem _ member, set⟩
  current other := by
    rw [services]
    by_cases same : other = service
    · subst same
      rw [Function.update_self, AddressPromise.newest_cons_self ⟨other, []⟩]
      rfl
    · have skipped : (⟨service, []⟩ : AddressPromise).service ≠ other := Ne.symm same
      rw [Function.update_of_ne (awaitedKey_injective.ne same),
        AddressPromise.newest_cons_of_ne skipped, assigned.current other]
      have addressOf : next.addressOf = addresses.server.addressOf := by
        funext id
        simp only [NodeConnectionServer.addressOf, handlers]
      rw [addressOf]
  awaited id handler found here rpc := by
    rw [services, Function.update_apply]
    split
    · rfl
    · exact assigned.awaited id handler (handlers ▸ found) here rpc

theorem Assigned.unset {addresses : ServiceAddresses} (assigned : addresses.Assigned)
    {service : String} (present : (addresses.server.services (awaitedKey service)).isSome)
    (unset : (addresses.server.services (awaitedKey service)).join = none) :
    AddressPromise.newest addresses.promises service = some ⟨service, []⟩ := by
  rw [assigned.current service] at present unset
  cases newest : AddressPromise.newest addresses.promises service with
  | none =>
      rw [newest] at present
      cases present
  | some promise =>
      obtain ⟨name, setters⟩ := promise
      obtain rfl : name = service := AddressPromise.newest_service newest
      cases setters with
      | nil => rfl
      | cons id older =>
          -- a handler with a value for the promise has an address
          obtain ⟨handler, found, _⟩ :=
            assigned.connected _ (AddressPromise.newest_mem newest) id List.mem_cons_self
          rw [newest] at unset
          simp only [Option.map_some, List.head?_cons, Option.bind_some, Option.join_some,
            NodeConnectionServer.addressOf, found] at unset
          cases unset

theorem Assigned.set {addresses : ServiceAddresses} (assigned : addresses.Assigned) {id : Nat}
    {handler : Handler} (found : addresses.server.handlers[id]? = some handler)
    (here : handler.pc = .connect) (rpc : handler.rpc = .serviceConnection)
    (unset : (addresses.server.services (awaitedKey handler.request.object)).join = none) :
    Assigned ⟨addresses.server.addRpcServiceClient id handler,
      AddressPromise.setValue handler.request.object id addresses.promises⟩ := by
  have newest := assigned.unset (assigned.awaited id handler found here rpc) unset
  have same := NodeConnectionServer.addRpcServiceClient_of_unset found unset
  have apart {service : String} {other : Nat}
      (connected : addresses.server.Connected service other) : other ≠ id := by
    rintro rfl
    obtain ⟨before, located, _, _, left, _⟩ := connected
    cases found.symm.trans located
    cases here.symm.trans left
  refine ⟨fun promise member => ?_, ?_, fun promise member other setter => ?_,
    fun other later located service replied => ?_, fun service => ?_,
    fun other later located there service => ?_⟩
  · rcases AddressPromise.mem_setValue member with earlier | ⟨before, first, rfl⟩
    · exact assigned.once promise earlier
    · cases newest.symm.trans first
      exact Nat.le_refl 1
  · refine (AddressPromise.setValue_setters newest id).nodup_iff.mpr
      (List.nodup_cons.mpr ⟨fun member => ?_, assigned.distinct⟩)
    obtain ⟨promise, listed, setter⟩ := List.mem_flatMap.mp member
    exact apart (assigned.connected promise listed id setter) rfl
  · have kept {service : String} (connected : addresses.server.Connected service other) :
        (addresses.server.addRpcServiceClient id handler).Connected service other := by
      have elsewhere := apart connected
      obtain ⟨before, located, rest⟩ := connected
      exact ⟨before, (same.other elsewhere).trans located, rest⟩
    rcases AddressPromise.mem_setValue member with earlier | ⟨before, first, rfl⟩
    · exact kept (assigned.connected promise earlier other setter)
    · cases newest.symm.trans first
      rcases List.mem_singleton.mp setter with rfl
      exact ⟨handler.accepted, same.self, rpc, rfl, rfl, rfl⟩
  · have setters := AddressPromise.setValue_setters newest id
    have recorded : other ∈ id :: addresses.promises.flatMap AddressPromise.setters := by
      by_cases self : other = id
      · exact self ▸ List.mem_cons_self
      · obtain ⟨promise, listed, setter⟩ := assigned.answered other later
          ((same.other self).symm.trans located) service replied
        exact List.mem_cons_of_mem _ (List.mem_flatMap.mpr ⟨promise, listed, setter⟩)
    exact List.mem_flatMap.mp (setters.mem_iff.mpr recorded)
  · have addressOf := same.addressOf found
    rw [same.services]
    by_cases self : service = handler.request.object
    · subst self
      rw [Function.update_self, AddressPromise.newest_setValue_self, newest, addressOf]
      rfl
    · rw [Function.update_of_ne (awaitedKey_injective.ne self),
        AddressPromise.newest_setValue_of_ne self, assigned.current service, addressOf]
  · by_cases self : other = id
    · subst self
      cases same.self.symm.trans located
      cases there
    · have before := assigned.awaited other later ((same.other self).symm.trans located) there
        service
      rw [same.services, Function.update_apply]
      split
      · rfl
      · exact before

theorem Assigned.step {addresses next : ServiceAddresses} {action : ServerAction}
    (assigned : addresses.Assigned) (stepped : addresses.step action = some next) :
    next.Assigned := by
  obtain ⟨server, executed, rfl⟩ := Option.map_eq_some_iff.mp stepped
  rcases NodeConnectionServer.step_cases executed with ⟨service, promised, handlers, services⟩ |
    ⟨id, handler, promised, setter, found, here, rpc, unset, rfl⟩ | ⟨promised, setter, quiet⟩
  · simp only [record, promised]
    exact assigned.promised service handlers services
  · simp only [record, promised, setter]
    exact assigned.set found here rpc unset
  · simp only [record, promised, setter]
    exact assigned.quiet quiet

theorem addresses_assigned (run : List ServerAction) : machine.Along Assigned initial run :=
  machine.along_of_preserved Assigned (fun _ _ _ assigned stepped => assigned.step stepped)
    initial_assigned run

end ServiceAddresses

end ProtoCore.Routing
