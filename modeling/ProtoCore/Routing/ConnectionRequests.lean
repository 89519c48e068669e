import ProtoCore.Routing.TopicConnection

/-!
# Connection requests and peers

A node keeps its requests, and a client for each peer it knows. A new request goes to
every client, and a new client is given every earlier request. Both happen under one lock.
-/

set_option autoImplicit false

namespace ProtoCore.Routing

open Library

/-- A connection request with the address at which the requester is reached. -/
structure PeerRequest extends ConnectionRequest where
  ip : String
  port : Int
  deriving DecidableEq, Repr

structure ConnectionReply where
  object : String
  url : String
  ip : String
  port : Int
  deriving DecidableEq, Repr

inductive Rpc where
  | topicConnection
  | serviceConnection
  deriving DecidableEq, Repr

/-- A thread of a write queue, which issues one call and handles its reply. -/
structure Pull where
  rpc : Rpc
  request : PeerRequest
  returned : Bool
  deriving DecidableEq, Repr

structure NodeConnectionClient where
  channel : String
  writeQueue : List Pull
  deriving DecidableEq, Repr

namespace NodeConnectionClient

def new (rpcSrvAddr : String) : NodeConnectionClient where
  channel := rpcSrvAddr
  writeQueue := []

/-- `pull_subscribe_request` and `pull_serving_service_request`. -/
def pull (client : NodeConnectionClient) (rpc : Rpc) (request : PeerRequest) :
    NodeConnectionClient :=
  { client with
    writeQueue := client.writeQueue ++ [{ rpc := rpc, request := request, returned := false }] }

def pullAll (client : NodeConnectionClient) (rpc : Rpc) (requests : List PeerRequest) :
    NodeConnectionClient :=
  requests.foldl (fun client request => client.pull rpc request) client

def finish (client : NodeConnectionClient) (index : Nat) (pull : Pull) : NodeConnectionClient :=
  { client with writeQueue := client.writeQueue.set index { pull with returned := true } }

/-- The destructor joins the threads of the write queue. -/
def joined (client : NodeConnectionClient) : Bool := client.writeQueue.all Pull.returned

/-- The requests that have gone to the peer by one of its methods. -/
def issued (client : NodeConnectionClient) (rpc : Rpc) : List PeerRequest :=
  client.writeQueue.filterMap fun pull => if pull.rpc = rpc then some pull.request else none

end NodeConnectionClient

/-- A client that was erased or replaced, with the requests there were at that time. -/
structure EndedClient where
  client : NodeConnectionClient
  topicRequests : List PeerRequest
  serviceRequests : List PeerRequest
  deriving DecidableEq, Repr

/-- The clients by node, and the arguments with which `accept_client` was called. -/
structure NodeConnectionClientClub where
  thisNodeName : String
  clients : String → Option NodeConnectionClient
  topicRequests : List PeerRequest
  serviceRequests : List PeerRequest
  ended : List EndedClient
  acceptedTopics : List (String × String × Int)

/-- A call returns with its reply, or with a status that is not ok. -/
inductive ClubAction where
  | addClient (node rpcSrvAddr : String)
  | deleteClient (node : String)
  | pullSubscribeRequest (topic ip : String) (port : Int) (typeUrl : String)
  | pullServingServiceRequest (service ip : String) (port : Int)
  | returned (node : String) (index : Nat) (reply : Option ConnectionReply)
  deriving DecidableEq, Repr

namespace NodeConnectionClientClub

def initial (thisNodeName : String) : NodeConnectionClientClub where
  thisNodeName := thisNodeName
  clients _ := none
  topicRequests := []
  serviceRequests := []
  ended := []
  acceptedTopics := []

def subscribeRequest (club : NodeConnectionClientClub) (topic ip : String) (port : Int)
    (typeUrl : String) : PeerRequest :=
  { object := topic, ip := ip, port := port, url := typeUrl, node := club.thisNodeName }

def servingServiceRequest (club : NodeConnectionClientClub) (service ip : String) (port : Int) :
    PeerRequest :=
  { object := service, ip := ip, port := port, url := "", node := club.thisNodeName }

/-- The client that holds every request there is. -/
def freshClient (club : NodeConnectionClientClub) (rpcSrvAddr : String) : NodeConnectionClient :=
  ((NodeConnectionClient.new rpcSrvAddr).pullAll .topicConnection club.topicRequests).pullAll
    .serviceConnection club.serviceRequests

/-- The client of the node is destroyed, which waits for its threads. -/
def dropClient (club : NodeConnectionClientClub) (node : String) :
    Option NodeConnectionClientClub :=
  match club.clients node with
  | none => some club
  | some client =>
      if client.joined then
        some { club with
          clients := Function.update club.clients node none
          ended := club.ended ++ [{
            client := client
            topicRequests := club.topicRequests
            serviceRequests := club.serviceRequests }] }
      else none

def addClient (club : NodeConnectionClientClub) (node rpcSrvAddr : String) :
    Option NodeConnectionClientClub :=
  (club.dropClient node).map fun club =>
    { club with
      clients := Function.update club.clients node (some (club.freshClient rpcSrvAddr)) }

def pullEach (club : NodeConnectionClientClub) (rpc : Rpc) (request : PeerRequest) :
    String → Option NodeConnectionClient :=
  fun node => (club.clients node).map fun client => client.pull rpc request

def pullSubscribeRequest (club : NodeConnectionClientClub) (request : PeerRequest) :
    NodeConnectionClientClub :=
  { club with
    topicRequests := club.topicRequests ++ [request]
    clients := club.pullEach .topicConnection request }

def pullServingServiceRequest (club : NodeConnectionClientClub) (request : PeerRequest) :
    NodeConnectionClientClub :=
  { club with
    serviceRequests := club.serviceRequests ++ [request]
    clients := club.pullEach .serviceConnection request }

/-- What a thread does with a reply. `accept_service_client` does nothing yet. -/
def acceptReply (club : NodeConnectionClientClub) : Rpc → Option ConnectionReply →
    NodeConnectionClientClub
  | .topicConnection, some reply =>
      { club with
        acceptedTopics := club.acceptedTopics ++ [(reply.object, reply.ip, reply.port)] }
  | _, _ => club

def returned (club : NodeConnectionClientClub) (node : String) (index : Nat)
    (reply : Option ConnectionReply) : Option NodeConnectionClientClub :=
  match club.clients node with
  | none => none
  | some client =>
      match client.writeQueue[index]? with
      | none => none
      | some pull =>
          if pull.returned then none
          else some { club.acceptReply pull.rpc reply with
            clients := Function.update club.clients node (some (client.finish index pull)) }

def step (club : NodeConnectionClientClub) : ClubAction → Option NodeConnectionClientClub
  | .addClient node rpcSrvAddr => club.addClient node rpcSrvAddr
  | .deleteClient node => club.dropClient node
  | .pullSubscribeRequest topic ip port typeUrl =>
      some (club.pullSubscribeRequest (club.subscribeRequest topic ip port typeUrl))
  | .pullServingServiceRequest service ip port =>
      some (club.pullServingServiceRequest (club.servingServiceRequest service ip port))
  | .returned node index reply => club.returned node index reply

def machine : Machine NodeConnectionClientClub ClubAction := ⟨step⟩

end NodeConnectionClientClub

/-! ## Every client holds every request once -/

namespace NodeConnectionClient

/-- The client has been given exactly these requests, in this order. -/
structure Served (client : NodeConnectionClient) (topicRequests serviceRequests : List PeerRequest) :
    Prop where
  topics : client.issued .topicConnection = topicRequests
  services : client.issued .serviceConnection = serviceRequests

theorem issued_pull (client : NodeConnectionClient) (rpc kind : Rpc) (request : PeerRequest) :
    (client.pull rpc request).issued kind =
      client.issued kind ++ if rpc = kind then [request] else [] := by
  simp only [issued, pull, List.filterMap_append, List.filterMap_cons, List.filterMap_nil]
  by_cases same : rpc = kind
  · rw [if_pos same, if_pos same]
  · rw [if_neg same, if_neg same]

theorem issued_pullAll (client : NodeConnectionClient) (rpc kind : Rpc)
    (requests : List PeerRequest) :
    (client.pullAll rpc requests).issued kind =
      client.issued kind ++ if rpc = kind then requests else [] := by
  induction requests generalizing client with
  | nil => simp only [pullAll, List.foldl_nil, ite_self, List.append_nil]
  | cons request rest ih =>
      calc
        (client.pullAll rpc (request :: rest)).issued kind =
            (client.pull rpc request).issued kind ++ if rpc = kind then rest else [] :=
          ih (client.pull rpc request)
        _ = client.issued kind ++ if rpc = kind then request :: rest else [] := by
          rw [issued_pull, List.append_assoc]
          by_cases same : rpc = kind
          · simp only [if_pos same, List.singleton_append]
          · simp only [if_neg same, List.append_nil]

theorem issued_finish {client : NodeConnectionClient} {index : Nat} {pull : Pull}
    (found : client.writeQueue[index]? = some pull) (kind : Rpc) :
    (client.finish index pull).issued kind = client.issued kind := by
  obtain ⟨inside, rfl⟩ := List.getElem?_eq_some_iff.mp found
  have split := List.take_append_drop index client.writeQueue
  rw [List.drop_eq_getElem_cons inside] at split
  unfold issued finish
  rw [List.set_eq_take_append_cons_drop, if_pos inside]
  conv => rhs; rw [← split]
  simp only [List.filterMap_append, List.filterMap_cons]

theorem Served.pulledTopic {client : NodeConnectionClient}
    {topicRequests serviceRequests : List PeerRequest}
    (served : client.Served topicRequests serviceRequests) (request : PeerRequest) :
    (client.pull .topicConnection request).Served (topicRequests ++ [request]) serviceRequests where
  topics := by
    rw [issued_pull, if_pos rfl, served.topics]
  services := by
    rw [issued_pull, if_neg (by decide), List.append_nil, served.services]

theorem Served.pulledService {client : NodeConnectionClient}
    {topicRequests serviceRequests : List PeerRequest}
    (served : client.Served topicRequests serviceRequests) (request : PeerRequest) :
    (client.pull .serviceConnection request).Served topicRequests
      (serviceRequests ++ [request]) where
  topics := by
    rw [issued_pull, if_neg (by decide), List.append_nil, served.topics]
  services := by
    rw [issued_pull, if_pos rfl, served.services]

theorem Served.finished {client : NodeConnectionClient}
    {topicRequests serviceRequests : List PeerRequest}
    (served : client.Served topicRequests serviceRequests) {index : Nat} {pull : Pull}
    (found : client.writeQueue[index]? = some pull) :
    (client.finish index pull).Served topicRequests serviceRequests where
  topics := (issued_finish found _).trans served.topics
  services := (issued_finish found _).trans served.services

end NodeConnectionClient

namespace NodeConnectionClientClub

/-- Every live client has been given the requests there are, and every ended one those there
were at its end. -/
structure RequestsServed (club : NodeConnectionClientClub) : Prop where
  live : ∀ node client, club.clients node = some client →
    client.Served club.topicRequests club.serviceRequests
  ended : ∀ gone ∈ club.ended, gone.client.Served gone.topicRequests gone.serviceRequests

theorem freshClient_served (club : NodeConnectionClientClub) (rpcSrvAddr : String) :
    (club.freshClient rpcSrvAddr).Served club.topicRequests club.serviceRequests where
  topics := by
    unfold freshClient
    rw [NodeConnectionClient.issued_pullAll, NodeConnectionClient.issued_pullAll, if_pos rfl,
      if_neg (by decide), List.append_nil]
    rfl
  services := by
    unfold freshClient
    rw [NodeConnectionClient.issued_pullAll, NodeConnectionClient.issued_pullAll, if_pos rfl,
      if_neg (by decide), List.append_nil]
    rfl

theorem RequestsServed.updated {club : NodeConnectionClientClub} (served : club.RequestsServed)
    {node : String} {entry : Option NodeConnectionClient}
    (valid : ∀ client, entry = some client →
      client.Served club.topicRequests club.serviceRequests) (other : String)
    (client : NodeConnectionClient)
    (found : Function.update club.clients node entry other = some client) :
    client.Served club.topicRequests club.serviceRequests := by
  rw [Function.update_apply] at found
  split at found
  · exact valid client found
  · exact served.live other client found

theorem RequestsServed.dropped {club next : NodeConnectionClientClub}
    (served : club.RequestsServed) {node : String} (dropped : club.dropClient node = some next) :
    next.RequestsServed := by
  unfold dropClient at dropped
  cases found : club.clients node with
  | none =>
      rw [found] at dropped
      cases dropped
      exact served
  | some client =>
      rw [found] at dropped
      simp only [Option.ite_none_right_eq_some, Option.some.injEq] at dropped
      obtain ⟨_, rfl⟩ := dropped
      refine ⟨served.updated (fun _ same => by cases same), fun gone member => ?_⟩
      rcases List.mem_append.mp member with earlier | last
      · exact served.ended gone earlier
      · cases List.mem_singleton.mp last
        exact served.live node client found

theorem RequestsServed.added {club next : NodeConnectionClientClub}
    (served : club.RequestsServed) {node rpcSrvAddr : String}
    (added : club.addClient node rpcSrvAddr = some next) : next.RequestsServed := by
  obtain ⟨remaining, dropped, rfl⟩ := Option.map_eq_some_iff.mp added
  have kept := served.dropped dropped
  refine ⟨kept.updated fun client same => ?_, kept.ended⟩
  cases same
  exact freshClient_served remaining rpcSrvAddr

theorem acceptReply_frame (club : NodeConnectionClientClub) (rpc : Rpc)
    (reply : Option ConnectionReply) :
    (club.acceptReply rpc reply).thisNodeName = club.thisNodeName ∧
      (club.acceptReply rpc reply).topicRequests = club.topicRequests ∧
      (club.acceptReply rpc reply).serviceRequests = club.serviceRequests ∧
      (club.acceptReply rpc reply).ended = club.ended := by
  cases rpc <;> cases reply <;> exact ⟨rfl, rfl, rfl, rfl⟩

theorem RequestsServed.afterReturn {club next : NodeConnectionClientClub}
    (served : club.RequestsServed) {node : String} {index : Nat} {reply : Option ConnectionReply}
    (returned : club.returned node index reply = some next) : next.RequestsServed := by
  unfold NodeConnectionClientClub.returned at returned
  cases known : club.clients node with
  | none =>
      rw [known] at returned
      cases returned
  | some client =>
      cases found : client.writeQueue[index]? with
      | none =>
          simp only [known, found] at returned
          cases returned
      | some pull =>
          simp only [known, found, Option.ite_none_left_eq_some, Option.some.injEq] at returned
          obtain ⟨_, rfl⟩ := returned
          obtain ⟨_, topics, services, ended⟩ := club.acceptReply_frame pull.rpc reply
          refine ⟨?_, ?_⟩
          · rw [topics, services]
            apply served.updated
            intro moved same
            cases same
            exact (served.live node client known).finished found
          · rw [ended]
            exact served.ended

theorem RequestsServed.step {club next : NodeConnectionClientClub} (served : club.RequestsServed)
    {action : ClubAction} (stepped : club.step action = some next) : next.RequestsServed := by
  cases action with
  | addClient node rpcSrvAddr => exact served.added stepped
  | deleteClient node => exact served.dropped stepped
  | pullSubscribeRequest topic ip port typeUrl =>
      cases stepped
      refine ⟨fun node client found => ?_, served.ended⟩
      obtain ⟨before, known, rfl⟩ := Option.map_eq_some_iff.mp found
      exact (served.live node before known).pulledTopic _
  | pullServingServiceRequest service ip port =>
      cases stepped
      refine ⟨fun node client found => ?_, served.ended⟩
      obtain ⟨before, known, rfl⟩ := Option.map_eq_some_iff.mp found
      exact (served.live node before known).pulledService _
  | returned node index reply => exact served.afterReturn stepped

theorem requestsServed_initial (thisNodeName : String) : (initial thisNodeName).RequestsServed where
  live _ _ found := by cases found
  ended _ member := by cases member

/-- Whether a request comes before or after the discovery of a peer, each incarnation of the
peer's client is given it once. -/
theorem requests_served_along (thisNodeName : String) (run : List ClubAction) :
    machine.Along RequestsServed (initial thisNodeName) run :=
  machine.along_of_preserved RequestsServed (fun _ _ _ served stepped => served.step stepped)
    (requestsServed_initial thisNodeName) run

/-! ## The requests of a run -/

/-- The request that an action makes of the peers by the method. -/
def makes (club : NodeConnectionClientClub) (rpc : Rpc) : ClubAction → Option PeerRequest
  | .pullSubscribeRequest topic ip port typeUrl =>
      if rpc = .topicConnection then some (club.subscribeRequest topic ip port typeUrl) else none
  | .pullServingServiceRequest service ip port =>
      if rpc = .serviceConnection then some (club.servingServiceRequest service ip port) else none
  | .addClient _ _ | .deleteClient _ | .returned _ _ _ => none

/-- The requests that the node of the name makes in a run, by the method. -/
def requestsMade (thisNodeName : String) (rpc : Rpc) (run : List ClubAction) : List PeerRequest :=
  run.filterMap ((initial thisNodeName).makes rpc)

theorem makes_eq {club : NodeConnectionClientClub} {thisNodeName : String}
    (name : club.thisNodeName = thisNodeName) (rpc : Rpc) (action : ClubAction) :
    club.makes rpc action = (initial thisNodeName).makes rpc action := by
  subst name
  cases action with
  | pullSubscribeRequest topic ip port typeUrl => rfl
  | pullServingServiceRequest service ip port => rfl
  | addClient node rpcSrvAddr => rfl
  | deleteClient node => rfl
  | returned node index reply => rfl

theorem requestsMade_concat (thisNodeName : String) (rpc : Rpc) (run : List ClubAction)
    (action : ClubAction) :
    requestsMade thisNodeName rpc (run ++ [action]) =
      requestsMade thisNodeName rpc run ++ ((initial thisNodeName).makes rpc action).toList := by
  unfold requestsMade
  rw [List.filterMap_append]
  cases made : (initial thisNodeName).makes rpc action with
  | none => rw [List.filterMap_cons_none made, List.filterMap_nil, Option.toList_none]
  | some request => rw [List.filterMap_cons_some made, List.filterMap_nil, Option.toList_some]

/-- The two lists of the club are the requests of the run so far, and those of an ended client
are the requests of the run until then. -/
structure Made (thisNodeName : String) (run : List ClubAction) (club : NodeConnectionClientClub) :
    Prop where
  name : club.thisNodeName = thisNodeName
  topics : club.topicRequests = requestsMade thisNodeName .topicConnection run
  services : club.serviceRequests = requestsMade thisNodeName .serviceConnection run
  ended : ∀ gone ∈ club.ended, ∃ earlier, earlier <+: run ∧
    gone.topicRequests = requestsMade thisNodeName .topicConnection earlier ∧
    gone.serviceRequests = requestsMade thisNodeName .serviceConnection earlier

theorem Made.after {thisNodeName : String} {run : List ClubAction}
    {club next : NodeConnectionClientClub} (made : club.Made thisNodeName run) {action : ClubAction}
    (name : next.thisNodeName = club.thisNodeName)
    (topics : next.topicRequests =
      club.topicRequests ++ (club.makes .topicConnection action).toList)
    (services : next.serviceRequests =
      club.serviceRequests ++ (club.makes .serviceConnection action).toList)
    (ended : ∀ gone ∈ next.ended, gone ∈ club.ended ∨
      gone.topicRequests = club.topicRequests ∧ gone.serviceRequests = club.serviceRequests) :
    next.Made thisNodeName (run ++ [action]) where
  name := name.trans made.name
  topics := by rw [topics, made.topics, requestsMade_concat, makes_eq made.name]
  services := by rw [services, made.services, requestsMade_concat, makes_eq made.name]
  ended gone member := by
    rcases ended gone member with before | ⟨topics, services⟩
    · obtain ⟨earlier, early, same⟩ := made.ended gone before
      exact ⟨earlier, early.trans (List.prefix_append _ _), same⟩
    · exact ⟨run, List.prefix_append _ _, topics.trans made.topics, services.trans made.services⟩

/-- A step that drops at most one client. -/
structure Drops (club next : NodeConnectionClientClub) : Prop where
  name : next.thisNodeName = club.thisNodeName
  topics : next.topicRequests = club.topicRequests
  services : next.serviceRequests = club.serviceRequests
  ended : ∀ gone ∈ next.ended, gone ∈ club.ended ∨
    gone.topicRequests = club.topicRequests ∧ gone.serviceRequests = club.serviceRequests

theorem dropClient_drops {club next : NodeConnectionClientClub} {node : String}
    (dropped : club.dropClient node = some next) : club.Drops next := by
  unfold dropClient at dropped
  cases found : club.clients node with
  | none =>
      rw [found] at dropped
      cases dropped
      exact ⟨rfl, rfl, rfl, fun _ member => .inl member⟩
  | some client =>
      simp only [found, Option.ite_none_right_eq_some, Option.some.injEq] at dropped
      obtain ⟨_, rfl⟩ := dropped
      refine ⟨rfl, rfl, rfl, fun gone member => ?_⟩
      rcases List.mem_append.mp member with earlier | last
      · exact .inl earlier
      · cases List.mem_singleton.mp last
        exact .inr ⟨rfl, rfl⟩

theorem returned_drops {club next : NodeConnectionClientClub} {node : String} {index : Nat}
    {reply : Option ConnectionReply} (returned : club.returned node index reply = some next) :
    club.Drops next := by
  unfold NodeConnectionClientClub.returned at returned
  cases known : club.clients node with
  | none =>
      rw [known] at returned
      cases returned
  | some client =>
      cases found : client.writeQueue[index]? with
      | none =>
          simp only [known, found] at returned
          cases returned
      | some pull =>
          simp only [known, found, Option.ite_none_left_eq_some, Option.some.injEq] at returned
          obtain ⟨_, rfl⟩ := returned
          obtain ⟨name, topics, services, ended⟩ := club.acceptReply_frame pull.rpc reply
          refine ⟨name, topics, services, fun gone member => .inl ?_⟩
          rw [← ended]
          exact member

theorem Made.step {thisNodeName : String} {run : List ClubAction}
    {club next : NodeConnectionClientClub} (made : club.Made thisNodeName run) {action : ClubAction}
    (stepped : club.step action = some next) : next.Made thisNodeName (run ++ [action]) := by
  have quiet (drops : club.Drops next) (none : ∀ rpc, club.makes rpc action = none) :
      next.Made thisNodeName (run ++ [action]) := by
    refine made.after drops.name ?_ ?_ drops.ended
    · rw [none, Option.toList_none, List.append_nil]
      exact drops.topics
    · rw [none, Option.toList_none, List.append_nil]
      exact drops.services
  cases action with
  | addClient node rpcSrvAddr =>
      obtain ⟨remaining, dropped, rfl⟩ := Option.map_eq_some_iff.mp stepped
      have drops := dropClient_drops dropped
      exact quiet ⟨drops.name, drops.topics, drops.services, drops.ended⟩ fun _ => rfl
  | deleteClient node => exact quiet (dropClient_drops stepped) fun _ => rfl
  | pullSubscribeRequest topic ip port typeUrl =>
      cases stepped
      exact made.after rfl rfl (List.append_nil _).symm fun _ member => .inl member
  | pullServingServiceRequest service ip port =>
      cases stepped
      exact made.after rfl (List.append_nil _).symm rfl fun _ member => .inl member
  | returned node index reply => exact quiet (returned_drops stepped) fun _ => rfl

theorem Made.exec {thisNodeName : String} {past run : List ClubAction}
    {club final : NodeConnectionClientClub} (made : club.Made thisNodeName past)
    (executed : machine.exec club run = some final) : final.Made thisNodeName (past ++ run) := by
  induction run generalizing club past with
  | nil =>
      cases executed
      rw [List.append_nil]
      exact made
  | cons action rest ih =>
      obtain ⟨next, stepped, executed⟩ := machine.exec_cons_eq_some executed
      rw [List.append_cons]
      exact ih (made.step stepped) executed

/-- What a client has been given is what the node has requested in the run. A client that has
ended was given what the node had requested until then. -/
theorem issued_eq_requestsMade {thisNodeName : String} {run : List ClubAction}
    {final : NodeConnectionClientClub}
    (executed : machine.exec (initial thisNodeName) run = some final) :
    (∀ node client, final.clients node = some client → ∀ rpc,
      client.issued rpc = requestsMade thisNodeName rpc run) ∧
    ∀ gone ∈ final.ended, ∃ earlier, earlier <+: run ∧ ∀ rpc,
      gone.client.issued rpc = requestsMade thisNodeName rpc earlier := by
  have served : final.RequestsServed :=
    (machine.along_of_preserved RequestsServed (fun _ _ _ served stepped => served.step stepped)
      (requestsServed_initial thisNodeName) run).final executed
  have start : (initial thisNodeName).Made thisNodeName [] :=
    ⟨rfl, rfl, rfl, fun _ member => by cases member⟩
  have made := start.exec executed
  rw [List.nil_append] at made
  refine ⟨fun node client found rpc => ?_, fun gone member => ?_⟩
  · have given := served.live node client found
    cases rpc with
    | topicConnection => exact given.topics.trans made.topics
    | serviceConnection => exact given.services.trans made.services
  · obtain ⟨earlier, early, topics, services⟩ := made.ended gone member
    have given := served.ended gone member
    refine ⟨earlier, early, fun rpc => ?_⟩
    cases rpc with
    | topicConnection => exact given.topics.trans topics
    | serviceConnection => exact given.services.trans services

/-- A request made before its peer is known, and one made after. -/
example : (machine.exec (initial "n") [.pullSubscribeRequest "t" "ip" 1 "u",
      .addClient "peer" "addr", .pullSubscribeRequest "s" "ip" 2 "u"]).bind
    (fun club => (club.clients "peer").map fun client =>
      (client.issued .topicConnection).map fun request => request.object) = some ["t", "s"] := by
  decide +kernel

end NodeConnectionClientClub

end ProtoCore.Routing
