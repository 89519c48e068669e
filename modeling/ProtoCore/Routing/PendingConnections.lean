import ProtoCore.Routing.ConnectionRequests
import ProtoCore.Routing.TypeSafety

/-!
# Pending connections

A handler that finds no publisher, or no client that awaits its service, sleeps on a
condition variable with a mutex of its own. `advertise` and `serviceClient` write the maps
under other locks and call `notify_all` under none. A section under one lock is one step.
-/

set_option autoImplicit false

namespace ProtoCore.Routing

open Library

def awaitedKey (service : String) : String := "d" ++ service

def servingKey (service : String) : String := "g" ++ service

theorem awaitedKey_ne_servingKey (left right : String) : awaitedKey left ≠ servingKey right := by
  intro same
  have heads := congrArg (fun key => key.toList.head?) same
  simp [awaitedKey, servingKey] at heads

inductive HandlerPc where
  | servingTest
  | loop
  | find
  | connect
  | lock
  | evaluate
  | park
  | parked
  | left
  deriving DecidableEq, Repr

/-- A handler there neither waits for a notification nor has been granted its request. -/
def HandlerPc.active : HandlerPc → Bool
  | .connect | .park | .parked => false
  | _ => true

/-- A handler of a connection request, with its reply once that is written. -/
structure Handler where
  rpc : Rpc
  request : PeerRequest
  pc : HandlerPc
  reply : Option ConnectionReply
  deriving DecidableEq, Repr

def Handler.wake (handler : Handler) : Handler :=
  { handler with pc := if handler.pc = .parked then .lock else handler.pc }

inductive Announcement where
  | advertise (topic url : String)
  | serviceClient (service : String)
  deriving DecidableEq, Repr

/-- The next statement of an announcement. -/
inductive CallStage where
  | update
  | notify
  | returned
  deriving DecidableEq, Repr

structure AnnouncementCall where
  announcement : Announcement
  stage : CallStage
  deriving DecidableEq, Repr

structure ClientInfo where
  connected : Bool
  ip : String
  port : Int
  deriving DecidableEq, Repr

/-- The maps of the node, the mutex of the condition variable, the handlers and the
announcements. A service maps to the address in its promise. -/
structure NodeConnectionServer where
  topics : String → Option String
  services : String → Option (Option String)
  mtx : Option Nat
  ok : Bool
  exited : Bool
  handlers : List Handler
  calls : List AnnouncementCall

inductive ServerAction where
  | request (rpc : Rpc) (request : PeerRequest)
  | announce (announcement : Announcement)
  | run (handler : Nat)
  | connected (handler : Nat) (info : ClientInfo)
  | cancelled (handler : Nat)
  | wake (handler : Nat)
  | call (index : Nat)
  | subscribe (topic url : String)
  | addServingService (service : String)
  | resetServedService (service : String)
  | setAbort
  deriving DecidableEq, Repr

namespace NodeConnectionServer

def initial : NodeConnectionServer where
  topics _ := none
  services _ := none
  mtx := none
  ok := true
  exited := false
  handlers := []
  calls := []

def findWaitPublishedTopic (server : NodeConnectionServer) (topic url : String) : Bool :=
  server.topics (publishedKey topic) = some url

def findWaitServedService (server : NodeConnectionServer) (service : String) : Bool :=
  (server.services (awaitedKey service)).isSome

def findServingService (server : NodeConnectionServer) (service : String) : Bool :=
  (server.services (servingKey service)).isSome

/-- The other side of the request is there. -/
def granted (server : NodeConnectionServer) (handler : Handler) : Bool :=
  match handler.rpc with
  | .topicConnection =>
      server.findWaitPublishedTopic handler.request.object handler.request.url
  | .serviceConnection => server.findWaitServedService handler.request.object

def waitPredicate (server : NodeConnectionServer) (handler : Handler) : Bool :=
  server.granted handler || !server.ok

def setHandler (server : NodeConnectionServer) (id : Nat) (handler : Handler) :
    NodeConnectionServer :=
  { server with handlers := server.handlers.set id handler }

/-- `setAbort` and `exit`. -/
def exit (server : NodeConnectionServer) : NodeConnectionServer :=
  { server with ok := false, exited := true }

/-- `add_rpc_service_client` and what follows. A promise that has its value already makes the
handler sleep and start again. -/
def addRpcServiceClient (server : NodeConnectionServer) (id : Nat) (handler : Handler) :
    NodeConnectionServer :=
  let service := handler.request.object
  match server.services (awaitedKey service) with
  | some (some _) => server.setHandler id { handler with pc := .loop }
  | _ =>
      { server with
        services := Function.update server.services (awaitedKey service)
          (some (some (handler.request.ip ++ ":" ++ toString handler.request.port)))
      }.setHandler id { handler with
        pc := .left
        reply := some { object := service, url := "", ip := "", port := 0 } }

/-- `add_tcp_client` has returned and its future is ready. -/
def addTcpClient (server : NodeConnectionServer) (id : Nat) (handler : Handler)
    (info : ClientInfo) : NodeConnectionServer :=
  server.setHandler id { handler with
    pc := .left
    reply := if info.connected then
        some {
          object := handler.request.object
          url := handler.request.url
          ip := info.ip
          port := info.port }
      else none }

def runHandler (server : NodeConnectionServer) (id : Nat) (handler : Handler) :
    Option NodeConnectionServer :=
  match handler.pc with
  | .servingTest =>
      if server.findServingService handler.request.object then some server.exit
      else some (server.setHandler id { handler with pc := .loop })
  | .loop => some (server.setHandler id { handler with pc := if server.ok then .find else .left })
  | .find =>
      some (server.setHandler id { handler with
        pc := if server.granted handler then .connect else .lock })
  | .connect =>
      match handler.rpc with
      | .topicConnection => none
      | .serviceConnection => some (server.addRpcServiceClient id handler)
  | .lock =>
      if server.mtx.isNone then
        some ({ server with mtx := some id }.setHandler id { handler with pc := .evaluate })
      else none
  | .evaluate =>
      if server.waitPredicate handler then
        some ({ server with mtx := none }.setHandler id { handler with pc := .loop })
      else some (server.setHandler id { handler with pc := .park })
  | .park => some ({ server with mtx := none }.setHandler id { handler with pc := .parked })
  | .parked | .left => none

def setStage (server : NodeConnectionServer) (index : Nat) (call : AnnouncementCall)
    (stage : CallStage) : NodeConnectionServer :=
  { server with calls := server.calls.set index { call with stage := stage } }

/-- A second client of one service ends the process. -/
def update (server : NodeConnectionServer) (index : Nat) (call : AnnouncementCall) :
    NodeConnectionServer :=
  match call.announcement with
  | .advertise topic url =>
      { server with
        topics := Function.update server.topics (publishedKey topic) (some url)
      }.setStage index call .notify
  | .serviceClient service =>
      if server.findWaitServedService service then server.exit
      else
        { server with
          services := Function.update server.services (awaitedKey service) (some none)
        }.setStage index call .notify

def runCall (server : NodeConnectionServer) (index : Nat) (call : AnnouncementCall) :
    Option NodeConnectionServer :=
  match call.stage with
  | .update => some (server.update index call)
  | .notify =>
      some ({ server with handlers := server.handlers.map Handler.wake }.setStage index call
        .returned)
  | .returned => none

def entry (rpc : Rpc) (request : PeerRequest) : Handler where
  rpc := rpc
  request := request
  pc := match rpc with
    | .topicConnection => .loop
    | .serviceConnection => .servingTest
  reply := none

/-- A handler may find its call cancelled at the head of the loop, and may wake without a
notification. Only the client that `serviceClient` has returned is reset. -/
def advance (server : NodeConnectionServer) : ServerAction → Option NodeConnectionServer
  | .request rpc request => some { server with handlers := server.handlers ++ [entry rpc request] }
  | .announce announcement =>
      some { server with calls := server.calls ++ [⟨announcement, .update⟩] }
  | .run id => (server.handlers[id]?).bind fun handler => server.runHandler id handler
  | .connected id info =>
      (server.handlers[id]?).bind fun handler =>
        if handler.pc = .connect ∧ handler.rpc = .topicConnection then
          some (server.addTcpClient id handler info)
        else none
  | .cancelled id =>
      (server.handlers[id]?).bind fun handler =>
        if handler.pc = .loop then some (server.setHandler id { handler with pc := .left })
        else none
  | .wake id =>
      (server.handlers[id]?).bind fun handler =>
        if handler.pc = .parked then some (server.setHandler id { handler with pc := .lock })
        else none
  | .call index => (server.calls[index]?).bind fun call => server.runCall index call
  | .subscribe topic url =>
      some { server with
        topics := Function.update server.topics (subscribedKey topic) (some url) }
  | .addServingService service =>
      some { server with
        services := Function.update server.services (servingKey service) (some none) }
  | .resetServedService service =>
      if server.findWaitServedService service then
        some { server with
          services := Function.update server.services (awaitedKey service) (some none) }
      else none
  | .setAbort => some { server with ok := false }

def step (server : NodeConnectionServer) (action : ServerAction) : Option NodeConnectionServer :=
  if server.exited then none else server.advance action

def machine : Machine NodeConnectionServer ServerAction := ⟨step⟩

/-! ## What a waiting handler still has coming to it -/

/-- An announcement stands between its update and its `notify_all`. -/
def Notifying (server : NodeConnectionServer) : Prop :=
  ∃ call ∈ server.calls, call.stage = .notify

/-- A parked handler whose topic is published, or whose service is awaited, is still to be
notified. -/
def NoLostWakeUp (server : NodeConnectionServer) : Prop :=
  ∀ handler ∈ server.handlers, handler.pc = .parked → server.granted handler = true →
    server.Notifying

/-- The notification does not come while a handler is about to park although the other side
is there by now. -/
def InTime (server : NodeConnectionServer) : ServerAction → Prop
  | .call index => ∀ call ∈ server.calls[index]?, call.stage = .notify →
      ∀ handler ∈ server.handlers, handler.pc = .park → server.granted handler = false
  | _ => True

instance (server : NodeConnectionServer) (action : ServerAction) :
    Decidable (server.InTime action) := by
  cases action <;> unfold InTime <;> infer_instance

structure Awaited (server : NodeConnectionServer) (handler : Handler) : Prop where
  notified : handler.pc = .park ∨ handler.pc = .parked → server.granted handler = true →
    server.Notifying
  promised : handler.pc = .connect → handler.rpc = .serviceConnection →
    server.granted handler = true

def AllAwaited (server : NodeConnectionServer) : Prop :=
  ∀ handler ∈ server.handlers, server.Awaited handler

theorem granted_congr {server next : NodeConnectionServer}
    (topics : ∀ topic, next.topics (publishedKey topic) = server.topics (publishedKey topic))
    (services : ∀ service, (next.services (awaitedKey service)).isSome =
      (server.services (awaitedKey service)).isSome) (handler : Handler) :
    next.granted handler = server.granted handler := by
  unfold granted
  cases handler.rpc with
  | topicConnection =>
      simp only [findWaitPublishedTopic, topics]
  | serviceConnection => exact services handler.request.object

theorem Awaited.transfer {server next : NodeConnectionServer} {handler : Handler}
    (awaited : server.Awaited handler) (same : next.granted handler = server.granted handler)
    (calls : next.calls = server.calls) : next.Awaited handler where
  notified waiting granted := by
    obtain ⟨call, member, stage⟩ := awaited.notified waiting (same ▸ granted)
    exact ⟨call, calls ▸ member, stage⟩
  promised connecting rpc := same.trans (awaited.promised connecting rpc)

theorem Awaited.of_notifying {server next : NodeConnectionServer} {handler : Handler}
    (awaited : server.Awaited handler) (notifying : next.Notifying)
    (kept : handler.rpc = .serviceConnection → server.granted handler = true →
      next.granted handler = true) : next.Awaited handler where
  notified _ _ := notifying
  promised connecting rpc := kept rpc (awaited.promised connecting rpc)

theorem Awaited.active {server : NodeConnectionServer} {handler : Handler}
    (active : handler.pc.active = true) : server.Awaited handler where
  notified waiting := by
    rcases waiting with located | located <;> rw [located] at active <;> cases active
  promised connecting := by
    rw [connecting] at active
    cases active

theorem AllAwaited.transfer {server next : NodeConnectionServer} (valid : server.AllAwaited)
    (same : ∀ handler, next.granted handler = server.granted handler)
    (calls : next.calls = server.calls) :
    ∀ handler ∈ server.handlers, next.Awaited handler :=
  fun handler member => (valid handler member).transfer (same handler) calls

theorem AllAwaited.moved {server next : NodeConnectionServer} {id : Nat} {moved : Handler}
    (rest : ∀ handler ∈ server.handlers, next.Awaited handler) (self : next.Awaited moved)
    (handlers : next.handlers = server.handlers.set id moved) : next.AllAwaited := by
  intro handler member
  rw [handlers] at member
  rcases List.mem_or_eq_of_mem_set member with earlier | same
  · exact rest handler earlier
  · rw [same]
    exact self

theorem AllAwaited.movedActive {server : NodeConnectionServer} (valid : server.AllAwaited)
    (id : Nat) (mtx : Option Nat) {moved : Handler} (active : moved.pc.active = true) :
    ({ server with mtx := mtx }.setHandler id moved).AllAwaited :=
  AllAwaited.moved (valid.transfer (fun _ => rfl) rfl) (Awaited.active active) rfl

theorem AllAwaited.addRpcServiceClient {server : NodeConnectionServer} (valid : server.AllAwaited)
    (id : Nat) {handler : Handler} (promised : server.granted handler = true)
    (rpc : handler.rpc = .serviceConnection) :
    (server.addRpcServiceClient id handler).AllAwaited := by
  have present : (server.services (awaitedKey handler.request.object)).isSome := by
    simpa only [granted, rpc, findWaitServedService] using promised
  simp only [NodeConnectionServer.addRpcServiceClient]
  split
  · exact valid.movedActive id server.mtx rfl
  · refine AllAwaited.moved (valid.transfer ?_ rfl) (Awaited.active rfl) rfl
    refine granted_congr (fun _ => rfl) fun service => ?_
    simp only [setHandler, Function.update_apply]
    split
    · rename_i same
      rw [same, present]
      rfl
    · rfl

theorem AllAwaited.runHandler {server next : NodeConnectionServer} (valid : server.AllAwaited)
    {id : Nat} {handler : Handler} (found : server.handlers[id]? = some handler)
    (stepped : server.runHandler id handler = some next) : next.AllAwaited := by
  have awaited := valid handler (List.mem_of_getElem? found)
  obtain ⟨rpc, request, pc, reply⟩ := handler
  unfold NodeConnectionServer.runHandler at stepped
  cases pc with
  | servingTest =>
      simp only at stepped
      split at stepped
      · cases stepped
        exact valid.transfer (fun _ => rfl) rfl
      · cases stepped
        exact valid.movedActive id server.mtx rfl
  | loop =>
      cases stepped
      cases server.ok <;>
        exact valid.movedActive id server.mtx rfl
  | find =>
      cases stepped
      cases granted : server.granted ⟨rpc, request, .find, reply⟩ with
      | false => exact valid.movedActive id server.mtx rfl
      | true =>
          have self : server.Awaited ⟨rpc, request, .connect, reply⟩ := by
            refine ⟨fun waiting => ?_, fun _ _ => granted⟩
            rcases waiting with located | located <;> cases located
          exact AllAwaited.moved (valid.transfer (fun _ => rfl) rfl) (self.transfer rfl rfl) rfl
  | connect =>
      cases rpc with
      | topicConnection => cases stepped
      | serviceConnection =>
          cases stepped
          exact valid.addRpcServiceClient id (awaited.promised rfl rfl) rfl
  | lock =>
      simp only [Option.ite_none_right_eq_some, Option.some.injEq] at stepped
      obtain ⟨_, rfl⟩ := stepped
      exact valid.movedActive id (some id) rfl
  | evaluate =>
      simp only at stepped
      split at stepped
      · cases stepped
        exact valid.movedActive id none rfl
      · rename_i refused
        cases stepped
        simp only [waitPredicate, Bool.or_eq_true, not_or] at refused
        -- found false: nothing is published yet that would need a notification
        refine AllAwaited.moved (valid.transfer (fun _ => rfl) rfl) ⟨fun _ granted => ?_, ?_⟩ rfl
        · exact absurd granted refused.1
        · intro connecting
          cases connecting
  | park =>
      cases stepped
      refine AllAwaited.moved (valid.transfer (fun _ => rfl) rfl) ⟨fun _ granted => ?_, ?_⟩ rfl
      · exact awaited.notified (.inl rfl) granted
      · intro connecting
        cases connecting
  | parked => cases stepped
  | left => cases stepped

theorem AllAwaited.update {server : NodeConnectionServer} (valid : server.AllAwaited)
    {index : Nat} {call : AnnouncementCall} (found : server.calls[index]? = some call) :
    (server.update index call).AllAwaited := by
  obtain ⟨inside, _⟩ := List.getElem?_eq_some_iff.mp found
  have notifying (state : NodeConnectionServer) (calls : state.calls = server.calls) :
      (state.setStage index call .notify).Notifying :=
    ⟨_, List.mem_set (by rw [calls]; exact inside) _, rfl⟩
  unfold NodeConnectionServer.update
  cases call.announcement with
  | advertise topic url =>
      intro handler member
      refine (valid handler member).of_notifying (notifying _ rfl) fun rpc granted => ?_
      rw [← granted]
      simp only [NodeConnectionServer.granted, rpc, findWaitServedService, setStage]
  | serviceClient service =>
      simp only
      split
      · exact valid.transfer (fun _ => rfl) rfl
      · intro handler member
        refine (valid handler member).of_notifying (notifying _ rfl) fun rpc granted => ?_
        simp only [NodeConnectionServer.granted, rpc, findWaitServedService, setStage,
          Function.update_apply] at granted ⊢
        split
        · rfl
        · exact granted

/-- What `notify_all` does not reach has nothing to be notified of. -/
theorem AllAwaited.notified {server : NodeConnectionServer} (valid : server.AllAwaited)
    {index : Nat} {call : AnnouncementCall}
    (inTime : ∀ handler ∈ server.handlers, handler.pc = .park → server.granted handler = false) :
    ({ server with handlers := server.handlers.map Handler.wake }.setStage index call
      .returned).AllAwaited := by
  intro handler member
  obtain ⟨before, earlier, rfl⟩ := List.mem_map.mp member
  have awaited := valid before earlier
  have unready := inTime before earlier
  obtain ⟨rpc, request, pc, reply⟩ := before
  cases pc with
  | park =>
      refine ⟨fun _ granted => ?_, fun connecting => ?_⟩
      · cases (unready rfl).symm.trans granted
      · cases connecting
  | connect =>
      refine ⟨fun waiting => ?_, awaited.promised⟩
      rcases waiting with located | located <;> cases located
  | _ => exact Awaited.active rfl

theorem AllAwaited.step {server next : NodeConnectionServer} {action : ServerAction}
    (valid : server.AllAwaited) (inTime : server.InTime action)
    (stepped : server.step action = some next) : next.AllAwaited := by
  simp only [NodeConnectionServer.step, Option.ite_none_left_eq_some] at stepped
  obtain ⟨_, stepped⟩ := stepped
  cases action with
  | request rpc request =>
      cases stepped
      intro handler member
      rcases List.mem_append.mp member with earlier | last
      · exact (valid handler earlier).transfer rfl rfl
      · cases List.mem_singleton.mp last
        cases rpc <;> exact Awaited.active rfl
  | announce announcement =>
      cases stepped
      intro handler member
      obtain ⟨notified, promised⟩ := valid handler member
      refine ⟨fun waiting granted => ?_, promised⟩
      obtain ⟨call, listed, stage⟩ := notified waiting granted
      exact ⟨call, List.mem_append_left _ listed, stage⟩
  | run id =>
      obtain ⟨handler, found, stepped⟩ := Option.bind_eq_some_iff.mp stepped
      exact valid.runHandler found stepped
  | connected id info =>
      obtain ⟨handler, found, stepped⟩ := Option.bind_eq_some_iff.mp stepped
      simp only [Option.ite_none_right_eq_some, Option.some.injEq] at stepped
      obtain ⟨_, rfl⟩ := stepped
      exact valid.movedActive id server.mtx rfl
  | cancelled id =>
      obtain ⟨handler, found, stepped⟩ := Option.bind_eq_some_iff.mp stepped
      simp only [Option.ite_none_right_eq_some, Option.some.injEq] at stepped
      obtain ⟨_, rfl⟩ := stepped
      exact valid.movedActive id server.mtx rfl
  | wake id =>
      obtain ⟨handler, found, stepped⟩ := Option.bind_eq_some_iff.mp stepped
      simp only [Option.ite_none_right_eq_some, Option.some.injEq] at stepped
      obtain ⟨_, rfl⟩ := stepped
      exact valid.movedActive id server.mtx rfl
  | call index =>
      obtain ⟨call, found, stepped⟩ := Option.bind_eq_some_iff.mp stepped
      unfold NodeConnectionServer.runCall at stepped
      cases stage : call.stage with
      | update =>
          rw [stage] at stepped
          cases stepped
          exact valid.update found
      | notify =>
          rw [stage] at stepped
          cases stepped
          exact valid.notified (inTime call found stage)
      | returned =>
          rw [stage] at stepped
          cases stepped
  | subscribe topic url =>
      cases stepped
      refine valid.transfer (granted_congr (fun other => ?_) (fun _ => rfl)) rfl
      exact Function.update_of_ne (publishedKey_ne_subscribedKey other topic) (some url)
        server.topics
  | addServingService service =>
      cases stepped
      refine valid.transfer (granted_congr (fun _ => rfl) (fun other => ?_)) rfl
      exact congrArg Option.isSome
        (Function.update_of_ne (awaitedKey_ne_servingKey other service) (some none)
          server.services)
  | resetServedService service =>
      simp only [advance, Option.ite_none_right_eq_some, Option.some.injEq] at stepped
      obtain ⟨present, rfl⟩ := stepped
      refine valid.transfer (granted_congr (fun _ => rfl) (fun other => ?_)) rfl
      simp only [Function.update_apply]
      split
      · rename_i same
        rw [same]
        exact present.symm
      · rfl
  | setAbort =>
      cases stepped
      exact valid.transfer (fun _ => rfl) rfl

theorem wakeUpsKept_of_inTime (run : List ServerAction)
    (inTime : machine.Obeys InTime initial run) :
    machine.Along NoLostWakeUp initial run := by
  have start : initial.AllAwaited := by
    intro handler member
    cases member
  apply (machine.along_of_obeys (fun _ _ _ valid permitted stepped => valid.step permitted stepped)
    start inTime).mono
  intro server valid handler member located granted
  exact (valid handler member).notified (.inr located) granted

def scanRequest : PeerRequest where
  object := "scan"
  url := getTypeurl "Scan"
  node := "/viewer"
  ip := "127.0.0.1"
  port := 5000

/-- A subscriber and a server of a service wait when their other sides announce themselves. -/
def announcedWhileParked : List ServerAction :=
  [.request .topicConnection scanRequest] ++ List.replicate 5 (ServerAction.run 0) ++
    [.request .serviceConnection { scanRequest with object := "map" }] ++
    List.replicate 6 (ServerAction.run 1) ++
    [.announce (.advertise "scan" (getTypeurl "Scan")), .call 0, .call 0,
      .announce (.serviceClient "map"), .call 1, .call 1, .run 0, .run 0, .run 0, .run 0,
      .connected 0 ⟨true, "127.0.0.1", 6000⟩]

theorem wakeUpsKept_of_inTime_announcedWhileParked :
    machine.Along NoLostWakeUp initial announcedWhileParked :=
  wakeUpsKept_of_inTime announcedWhileParked (by decide +kernel)

/-- The topic is advertised, and the handlers are notified, after the handler has found the
topic unpublished and before it is parked. -/
def advertisedBeforePark : List ServerAction :=
  [.request .topicConnection scanRequest] ++ List.replicate 4 (ServerAction.run 0) ++
    [.announce (.advertise "scan" (getTypeurl "Scan")), .call 0, .call 0, .run 0]

theorem advertisedBeforePark_lost :
    ¬ machine.Along NoLostWakeUp initial advertisedBeforePark := by
  intro along
  have evaluated : (machine.exec initial advertisedBeforePark).map (fun server =>
      (server.handlers.map fun handler => (handler.pc, server.granted handler),
        server.calls.map AnnouncementCall.stage)) =
      some ([(.parked, true)], [.returned]) := by
    decide +kernel
  obtain ⟨final, executed, same⟩ := Option.map_eq_some_iff.mp evaluated
  simp only [Prod.mk.injEq, List.map_eq_singleton_iff] at same
  obtain ⟨⟨handler, handlers, located, granted⟩, ⟨call, calls, returned⟩⟩ := same
  have member : handler ∈ final.handlers := by
    rw [handlers]
    exact List.mem_singleton_self handler
  obtain ⟨last, listed, notifying⟩ := along.final executed handler member located granted
  rw [calls, List.mem_singleton] at listed
  rw [listed, returned] at notifying
  cases notifying

end NodeConnectionServer

end ProtoCore.Routing
