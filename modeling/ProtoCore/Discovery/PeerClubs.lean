import ProtoCore.Discovery.ViewConvergence
import ProtoCore.Library.FixedWidth
import ProtoCore.Params.ClientClub
import ProtoCore.Routing.ConnectionRequests
import ProtoCore.Topic.SocketAddress

/-!
# The clients of a discovered node

The register thread of a node reads the commands of the registrar and executes them one by
one: a node that is added gets a connection client and a parameter client, a node that is
deleted loses both. The user's calls and the replies of peers come in between.
-/

set_option autoImplicit false

namespace ProtoCore.Discovery

open Library

open Routing (NodeConnectionClientClub ClubAction)
open Params (ParamRPCClientClub ParamClubAction)

/-- The argument of `CreateChannel`. A port goes through an `int`. -/
def channelAddress (endpoint : String × UInt32) : String :=
  Topic.token endpoint.1 (int32 endpoint.2.toNat)

/-- A node after `Init`. `commands` are those that the registrar has sent and the register thread
has not finished; it is `halfway` when the first of them has come to the connection clients. -/
structure NodeHandler (Callback Value : Type) where
  name : String
  registVersion : Option Nat
  commands : List NodeInfo
  halfway : Bool
  connectionRpcClients : NodeConnectionClientClub
  paramClients : ParamRPCClientClub Callback Value

namespace NodeHandler

variable {Callback Value : Type}

def init (name : String) : NodeHandler Callback Value where
  name := name
  registVersion := none
  commands := []
  halfway := false
  connectionRpcClients := .initial name
  paramClients := .initial

def receive (node : NodeHandler Callback Value) (reply : RegistrationReply) :
    NodeHandler Callback Value :=
  { node with commands := node.commands ++ reply.operationCmd }

/-- The first call of `regist_node`, or of `delete_node`. -/
def connectionAction (info : NodeInfo) : ClubAction :=
  if info.code = .add then .addClient info.nodeName (channelAddress (info.ip, info.port))
  else .deleteClient info.nodeName

/-- The second call. -/
def paramAction (info : NodeInfo) : ParamClubAction Callback Value :=
  if info.code = .add then .addClient info.nodeName else .deleteClient info.nodeName

/-- The next call of the register thread. It waits for the threads of a client that it drops. -/
def execute (node : NodeHandler Callback Value) : Option (NodeHandler Callback Value) :=
  match node.commands with
  | [] => none
  | info :: rest =>
      if node.halfway then
        (node.paramClients.step (paramAction info)).map fun clients =>
          { node with paramClients := clients, commands := rest, halfway := false }
      else
        (node.connectionRpcClients.step (connectionAction info)).map fun clients =>
          { node with connectionRpcClients := clients, halfway := true }

/-- What others than the register thread do with the clients. -/
def connectionCall (node : NodeHandler Callback Value) (action : ClubAction) :
    Option (NodeHandler Callback Value) :=
  match action with
  | .addClient _ _ | .deleteClient _ => none
  | _ => (node.connectionRpcClients.step action).map fun clients =>
      { node with connectionRpcClients := clients }

def paramCall (node : NodeHandler Callback Value) (action : ParamClubAction Callback Value) :
    Option (NodeHandler Callback Value) :=
  match action with
  | .addClient _ | .deleteClient _ => none
  | _ => (node.paramClients.step action).map fun clients => { node with paramClients := clients }

end NodeHandler

structure Fleet (Callback Value : Type) where
  network : Network
  nodes : List (NodeHandler Callback Value)

/-- A node that starts, its registration with the registrar and the end of that, a reply of the
registrar to it, and the calls of its threads. -/
inductive FleetAction (Callback Value : Type) where
  | init (name : String)
  | regist (index : Nat) (ip : String) (port : UInt32)
  | deregist (registVersion : Nat)
  | receiveFirst (index : Nat)
  | receiveIncrement (index cversion : Nat)
  | execute (index : Nat)
  | connectionCall (index : Nat) (action : ClubAction)
  | paramCall (index : Nat) (action : ParamClubAction Callback Value)

namespace Network

/-- The reply that the registrar writes in a step. -/
def reply (network : Network) : NetworkAction → Option RegistrationReply
  | .receiveFirst registVersion => network.registrar.list 0 ((registVersion : Int) - 1)
  | .receiveIncrement registVersion cversion =>
      (network.subscribers registVersion).bind fun subscriber =>
        network.registrar.list (subscriber.keptVersion + 1) cversion
  | _ => none

end Network

namespace Fleet

variable {Callback Value : Type}

def initial : Fleet Callback Value where
  network := Network.initial
  nodes := []

/-- A step of one node alone. -/
def local_ (fleet : Fleet Callback Value) (index : Nat)
    (act : NodeHandler Callback Value → Option (NodeHandler Callback Value)) :
    Option (Fleet Callback Value) :=
  (fleet.nodes[index]?).bind fun node =>
    (act node).map fun next => { fleet with nodes := fleet.nodes.set index next }

/-- The name of a node is that of its registration. -/
def regist (fleet : Fleet Callback Value) (index : Nat) (ip : String) (port : UInt32) :
    Option (Fleet Callback Value) :=
  (fleet.nodes[index]?).bind fun node =>
    if node.registVersion = none then
      (fleet.network.step (.regist node.name ip port)).map fun network =>
        { network := network
          nodes := fleet.nodes.set index
            { node with registVersion := some fleet.network.registrar.version } }
    else none

/-- The reply of a step goes to the stream of the node. -/
def deliver (fleet : Fleet Callback Value) (index : Nat) (action : Nat → NetworkAction) :
    Option (Fleet Callback Value) :=
  (fleet.nodes[index]?).bind fun node =>
    node.registVersion.bind fun registVersion =>
      (fleet.network.step (action registVersion)).bind fun network =>
        (fleet.network.reply (action registVersion)).map fun reply =>
          { network := network, nodes := fleet.nodes.set index (node.receive reply) }

def step (fleet : Fleet Callback Value) :
    FleetAction Callback Value → Option (Fleet Callback Value)
  | .init name => some { fleet with nodes := fleet.nodes ++ [.init name] }
  | .regist index ip port => fleet.regist index ip port
  | .deregist registVersion =>
      (fleet.network.step (.deregist registVersion)).map fun network =>
        { fleet with network := network }
  | .receiveFirst index => fleet.deliver index .receiveFirst
  | .receiveIncrement index cversion =>
      fleet.deliver index fun registVersion => .receiveIncrement registVersion cversion
  | .execute index => fleet.local_ index NodeHandler.execute
  | .connectionCall index action => fleet.local_ index fun node => node.connectionCall action
  | .paramCall index action => fleet.local_ index fun node => node.paramCall action

def machine : Machine (Fleet Callback Value) (FleetAction Callback Value) := ⟨step⟩

end Fleet

/-! ## The clients that a step leaves -/

open Routing in
theorem channel_pullAll (client : NodeConnectionClient) (rpc : Rpc)
    (requests : List PeerRequest) : (client.pullAll rpc requests).channel = client.channel := by
  induction requests generalizing client with
  | nil => rfl
  | cons request rest ih => exact ih (client.pull rpc request)

namespace NodeHandler

variable {Callback Value : Type}

/-- The addresses that a node has connection clients for. -/
def channels (clients : NodeConnectionClientClub) (name : String) : Option String :=
  (clients.clients name).map fun client => client.channel

def known (clients : ParamRPCClientClub Callback Value) (name : String) : Bool :=
  (clients.clients name).isSome

theorem channels_dropClient {clients next : NodeConnectionClientClub} {node : String}
    (dropped : clients.dropClient node = some next) :
    channels next = Function.update (channels clients) node none := by
  unfold NodeConnectionClientClub.dropClient at dropped
  funext name
  cases found : clients.clients node with
  | none =>
      rw [found] at dropped
      cases dropped
      by_cases same : name = node
      · rw [same, Function.update_self, channels, found, Option.map_none]
      · rw [Function.update_of_ne same]
  | some client =>
      rw [found] at dropped
      obtain ⟨_, dropped⟩ := Option.ite_none_right_eq_some.mp dropped
      cases dropped
      by_cases same : name = node
      · simp only [channels, same, Function.update_self, Option.map_none]
      · simp only [channels, Function.update_of_ne same]

theorem channels_addClient {clients next : NodeConnectionClientClub} {node rpcSrvAddr : String}
    (added : clients.addClient node rpcSrvAddr = some next) :
    channels next = Function.update (channels clients) node (some rpcSrvAddr) := by
  obtain ⟨remaining, dropped, rfl⟩ := Option.map_eq_some_iff.mp added
  have others := channels_dropClient dropped
  funext name
  by_cases same : name = node
  · simp only [channels, same, Function.update_self, Option.map_some,
      NodeConnectionClientClub.freshClient, channel_pullAll]
    rfl
  · have kept := congrFun others name
    rw [Function.update_of_ne same] at kept ⊢
    simp only [channels, Function.update_of_ne same] at kept ⊢
    exact kept

theorem channels_execute {clients next : NodeConnectionClientClub} {info : NodeInfo}
    {view : NodeView} (stepped : clients.step (connectionAction info) = some next)
    (agree : ∀ name, channels clients name = (view name).map channelAddress) (name : String) :
    channels next name = (NodeRegist.execute view info name).map channelAddress := by
  unfold connectionAction at stepped
  unfold NodeRegist.execute
  split at stepped
  · rename_i adds
    rw [if_pos adds, channels_addClient stepped, Function.update_apply, Function.update_apply]
    split
    · rfl
    · exact agree name
  · rename_i deletes
    rw [if_neg deletes, channels_dropClient stepped, Function.update_apply, Function.update_apply]
    split
    · rfl
    · exact agree name

theorem channels_returned {clients next : NodeConnectionClientClub} {peer : String} {index : Nat}
    {reply : Option Routing.ConnectionReply}
    (returned : clients.returned peer index reply = some next) :
    channels next = channels clients := by
  unfold NodeConnectionClientClub.returned at returned
  cases found : clients.clients peer with
  | none =>
      rw [found] at returned
      cases returned
  | some client =>
      cases waiting : client.writeQueue[index]? with
      | none =>
          simp only [found, waiting] at returned
          cases returned
      | some pull =>
          simp only [found, waiting] at returned
          obtain ⟨_, returned⟩ := Option.ite_none_left_eq_some.mp returned
          cases returned
          funext name
          by_cases same : name = peer
          · simp only [channels, same, Function.update_self, found, Option.map_some]
            rfl
          · simp only [channels, Function.update_of_ne same]

theorem channels_connectionCall {node next : NodeHandler Callback Value} {action : ClubAction}
    (called : node.connectionCall action = some next) :
    channels next.connectionRpcClients = channels node.connectionRpcClients := by
  unfold connectionCall at called
  cases action with
  | addClient peer rpcSrvAddr => cases called
  | deleteClient peer => cases called
  | pullSubscribeRequest topic ip port typeUrl =>
      cases called
      funext name
      simp only [channels, NodeConnectionClientClub.pullSubscribeRequest,
        NodeConnectionClientClub.pullEach, Option.map_map]
      rfl
  | pullServingServiceRequest service ip port =>
      cases called
      funext name
      simp only [channels, NodeConnectionClientClub.pullServingServiceRequest,
        NodeConnectionClientClub.pullEach, Option.map_map]
      rfl
  | returned peer index reply =>
      obtain ⟨clients, returned, rfl⟩ := Option.map_eq_some_iff.mp called
      exact channels_returned returned

theorem known_setClient {clients : ParamRPCClientClub Callback Value} {peer : String}
    (entry : Option (Params.ParamRPCClient Callback Value)) :
    known (clients.setClient peer entry) = Function.update (known clients) peer entry.isSome := by
  funext name
  simp only [known, ParamRPCClientClub.setClient, Function.update_apply]
  split <;> rfl

/-- A client that changes stays a client. -/
theorem known_kept {clients : ParamRPCClientClub Callback Value} {peer : String}
    {client : Params.ParamRPCClient Callback Value} (found : clients.clients peer = some client)
    (changed : Params.ParamRPCClient Callback Value) :
    known (clients.setClient peer (some changed)) = known clients := by
  rw [known_setClient, Function.update_eq_self_iff]
  simp only [known, found, Option.isSome_some]

theorem known_deleteClient {clients next : ParamRPCClientClub Callback Value} {peer : String}
    (deleted : clients.deleteClient peer = some next) :
    known next = Function.update (known clients) peer false := by
  unfold ParamRPCClientClub.deleteClient at deleted
  cases found : clients.clients peer with
  | none =>
      rw [found] at deleted
      cases deleted
      exact (Function.update_eq_self_iff.mpr (by simp only [known, found, Option.isSome_none])).symm
  | some client =>
      rw [found] at deleted
      obtain ⟨_, deleted⟩ := Option.ite_none_right_eq_some.mp deleted
      cases deleted
      exact known_setClient none

theorem known_execute {clients next : ParamRPCClientClub Callback Value} {info : NodeInfo}
    {view : NodeView} (stepped : clients.step (paramAction info) = some next)
    (agree : ∀ name, known clients name = (view name).isSome) (name : String) :
    known next name = (NodeRegist.execute view info name).isSome := by
  unfold paramAction at stepped
  unfold NodeRegist.execute
  split at stepped
  · rename_i adds
    obtain ⟨remaining, deleted, rfl⟩ := Option.map_eq_some_iff.mp stepped
    rw [if_pos adds, known_setClient, known_deleteClient deleted, Function.update_idem,
      Function.update_apply, Function.update_apply]
    split
    · rfl
    · exact agree name
  · rename_i deletes
    rw [if_neg deletes, known_deleteClient stepped, Function.update_apply, Function.update_apply]
    split
    · rfl
    · exact agree name

theorem known_paramCall {node next : NodeHandler Callback Value}
    {action : ParamClubAction Callback Value} (called : node.paramCall action = some next) :
    known next.paramClients = known node.paramClients := by
  unfold paramCall at called
  cases action with
  | addClient peer => cases called
  | deleteClient peer => cases called
  | getRemoteRequest peer name =>
      cases called
      simp only [ParamRPCClientClub.getRemoteRequest]
      split
      · rfl
      · rename_i client found
        exact known_kept found _
  | getRemoteDynamicRequest peer name cb =>
      cases called
      simp only [ParamRPCClientClub.getRemoteDynamicRequest]
      split
      · rfl
      · rename_i client found
        exact known_kept found _
  | receive peer reader reply =>
      obtain ⟨clients, stepped, rfl⟩ := Option.map_eq_some_iff.mp called
      obtain ⟨client, found, stepped⟩ := Option.bind_eq_some_iff.mp stepped
      obtain ⟨changed, _, rfl⟩ := Option.map_eq_some_iff.mp stepped
      exact known_kept found changed
  | endReader peer reader =>
      obtain ⟨clients, stepped, rfl⟩ := Option.map_eq_some_iff.mp called
      obtain ⟨client, found, stepped⟩ := Option.bind_eq_some_iff.mp stepped
      obtain ⟨_, _, rfl⟩ := Option.map_eq_some_iff.mp stepped
      exact known_kept found _

/-! ## What a node has executed -/

/-- What the connection clients have come to, when the parameter clients show `executed`. -/
def reached (node : NodeHandler Callback Value) (executed : NodeView) : NodeView :=
  match node.halfway, node.commands with
  | true, info :: _ => NodeRegist.execute executed info
  | _, _ => executed

/-- The clients show what has been executed, and the commands left lead to what the registrar has
told the node. -/
structure Follows (node : NodeHandler Callback Value) (executed view : NodeView) : Prop where
  pending : node.commands.foldl NodeRegist.execute executed = view
  waiting : node.halfway = true → node.commands ≠ []
  channels : ∀ name, channels node.connectionRpcClients name =
    (node.reached executed name).map channelAddress
  known : ∀ name, known node.paramClients name = (executed name).isSome
  served : node.connectionRpcClients.RequestsServed
  agreed : node.paramClients.Agreed

theorem follows_init (name : String) :
    (init name : NodeHandler Callback Value).Follows (fun _ => none) fun _ => none where
  pending := rfl
  waiting halfway := by cases halfway
  channels _ := rfl
  known _ := rfl
  served := by
    refine ⟨fun _ _ found => ?_, fun _ member => ?_⟩
    · cases found
    · cases member
  agreed := by
    refine ⟨fun _ _ found => ?_, fun _ => rfl⟩
    cases found

section Steps

variable {node next : NodeHandler Callback Value} {executed view : NodeView}

theorem registVersion_execute (stepped : node.execute = some next) :
    next.registVersion = node.registVersion := by
  unfold NodeHandler.execute at stepped
  split at stepped
  · cases stepped
  · split at stepped
    · obtain ⟨clients, _, rfl⟩ := Option.map_eq_some_iff.mp stepped
      rfl
    · obtain ⟨clients, _, rfl⟩ := Option.map_eq_some_iff.mp stepped
      rfl

theorem connectionCall_eq_some {action : ClubAction}
    (called : node.connectionCall action = some next) :
    ∃ clients, node.connectionRpcClients.step action = some clients ∧
      { node with connectionRpcClients := clients } = next := by
  unfold NodeHandler.connectionCall at called
  split at called
  · cases called
  · cases called
  · exact Option.map_eq_some_iff.mp called

theorem paramCall_eq_some {action : ParamClubAction Callback Value}
    (called : node.paramCall action = some next) :
    ∃ clients, node.paramClients.step action = some clients ∧
      { node with paramClients := clients } = next := by
  unfold NodeHandler.paramCall at called
  split at called
  · cases called
  · cases called
  · exact Option.map_eq_some_iff.mp called

theorem Follows.receive (follows : node.Follows executed view) (reply : RegistrationReply) :
    (node.receive reply).Follows executed (NodeRegist.receive view reply) where
  pending := by
    change (node.commands ++ reply.operationCmd).foldl NodeRegist.execute executed = _
    rw [List.foldl_append, follows.pending]
    rfl
  waiting halfway := List.append_ne_nil_of_left_ne_nil (follows.waiting halfway) _
  channels name := by
    have same : (node.receive reply).reached executed = node.reached executed := by
      unfold reached NodeHandler.receive
      cases halfway : node.halfway with
      | false => rfl
      | true =>
          cases commands : node.commands with
          | nil => exact absurd commands (follows.waiting halfway)
          | cons info rest => rfl
    rw [same]
    exact follows.channels name
  known := follows.known
  served := follows.served
  agreed := follows.agreed

theorem Follows.execute (follows : node.Follows executed view)
    (stepped : node.execute = some next) : ∃ after, next.Follows after view := by
  unfold NodeHandler.execute at stepped
  cases commands : node.commands with
  | nil =>
      rw [commands] at stepped
      cases stepped
  | cons info rest =>
      simp only [commands] at stepped
      have pending := follows.pending
      have channels := follows.channels
      rw [commands, List.foldl_cons] at pending
      cases halfway : node.halfway with
      | true =>
          simp only [halfway, if_true] at stepped
          simp only [reached, halfway, commands] at channels
          obtain ⟨clients, acted, rfl⟩ := Option.map_eq_some_iff.mp stepped
          refine ⟨NodeRegist.execute executed info, pending, nofun, channels,
            known_execute acted follows.known, follows.served, follows.agreed.step acted⟩
      | false =>
          simp only [halfway, Bool.false_eq_true, if_false] at stepped
          simp only [reached, halfway] at channels
          obtain ⟨clients, acted, rfl⟩ := Option.map_eq_some_iff.mp stepped
          refine ⟨executed, pending, fun _ => List.cons_ne_nil info rest, ?_, follows.known,
            follows.served.step acted, follows.agreed⟩
          exact channels_execute acted channels

theorem Follows.connectionCall (follows : node.Follows executed view) {action : ClubAction}
    (called : node.connectionCall action = some next) : next.Follows executed view := by
  have same := channels_connectionCall called
  obtain ⟨clients, acted, rfl⟩ := connectionCall_eq_some called
  exact ⟨follows.pending, follows.waiting, fun name => same ▸ follows.channels name, follows.known,
    follows.served.step acted, follows.agreed⟩

theorem Follows.paramCall (follows : node.Follows executed view)
    {action : ParamClubAction Callback Value} (called : node.paramCall action = some next) :
    next.Follows executed view := by
  have same := known_paramCall called
  obtain ⟨clients, acted, rfl⟩ := paramCall_eq_some called
  exact ⟨follows.pending, follows.waiting, follows.channels, fun name => same ▸ follows.known name,
    follows.served, follows.agreed.step acted⟩

end Steps

end NodeHandler

/-! ## The network under the fleet -/

namespace Network

theorem regist_frame {network next : Network} {nodeName ip : String} {port : UInt32}
    (stepped : network.step (.regist nodeName ip port) = some next) :
    next.subscribers = network.subscribers ∧
      next.registrar.version = network.registrar.version + 1 := by
  simp only [Network.step] at stepped
  obtain ⟨_, stepped⟩ := Option.ite_none_left_eq_some.mp stepped
  cases stepped
  exact ⟨rfl, rfl⟩

theorem deregist_frame {network next : Network} {registVersion : Nat}
    (stepped : network.step (.deregist registVersion) = some next) :
    next.subscribers = network.subscribers ∧
      next.registrar.version = network.registrar.version + 1 := by
  simp only [Network.step] at stepped
  obtain ⟨_, stepped⟩ := Option.ite_none_right_eq_some.mp stepped
  cases stepped
  exact ⟨rfl, rfl⟩

/-- What a subscriber has been told so far. -/
def told (network : Network) (registVersion : Nat) : NodeView :=
  match network.subscribers registVersion with
  | none => fun _ => none
  | some subscriber => subscriber.view

/-- The reply of a step is what the subscriber is told by it, and nobody else is told anything. -/
structure Tells (network next : Network) (registVersion : Nat) (reply : RegistrationReply) : Prop
    where
  registrar : next.registrar = network.registrar
  told : next.told registVersion = NodeRegist.receive (network.told registVersion) reply
  others : ∀ other, other ≠ registVersion → next.subscribers other = network.subscribers other

theorem tells_deliver (network : Network) (registVersion keptVersion : Nat)
    (reply : RegistrationReply) :
    Tells network (network.deliver registVersion keptVersion (network.told registVersion) reply)
      registVersion reply where
  registrar := rfl
  told := by
    simp only [Network.told, Network.deliver, Function.update_self]
  others other apart := by
    simp only [Network.deliver, Function.update_of_ne apart]

theorem tells_receiveFirst {network next : Network} {registVersion : Nat}
    {reply : RegistrationReply}
    (stepped : network.step (.receiveFirst registVersion) = some next)
    (written : network.reply (.receiveFirst registVersion) = some reply) :
    Tells network next registVersion reply := by
  simp only [Network.step] at stepped
  obtain ⟨⟨_, unheard⟩, stepped⟩ := Option.ite_none_right_eq_some.mp stepped
  simp only [Network.reply] at written
  simp only [written, Option.bind_eq_bind, Option.bind_some, Option.pure_def,
    Option.some.injEq] at stepped
  have nothing : network.told registVersion = fun _ => none := by
    unfold Network.told
    rw [Option.isNone_iff_eq_none.mp unheard]
  have tells := tells_deliver network registVersion registVersion reply
  rw [nothing, stepped] at tells
  exact tells

theorem tells_receiveIncrement {network next : Network} {registVersion cversion : Nat}
    {reply : RegistrationReply}
    (stepped : network.step (.receiveIncrement registVersion cversion) = some next)
    (written : network.reply (.receiveIncrement registVersion cversion) = some reply) :
    Tells network next registVersion reply := by
  simp only [Network.step] at stepped
  obtain ⟨subscriber, found, stepped⟩ := Option.bind_eq_some_iff.mp stepped
  obtain ⟨_, stepped⟩ := Option.ite_none_right_eq_some.mp stepped
  simp only [Network.reply, found, Option.bind_some] at written
  simp only [written, Option.bind_eq_bind, Option.bind_some, Option.pure_def,
    Option.some.injEq] at stepped
  have before : network.told registVersion = subscriber.view := by
    unfold Network.told
    rw [found]
  have tells := tells_deliver network registVersion cversion reply
  rw [before, stepped] at tells
  exact tells

end Network

/-! ## Runs of the fleet -/

namespace Fleet

variable {Callback Value : Type}

/-- What the registrar has told a node. -/
def told (fleet : Fleet Callback Value) (node : NodeHandler Callback Value) : NodeView :=
  match node.registVersion with
  | none => fun _ => none
  | some registVersion => fleet.network.told registVersion

structure Connecting (fleet : Fleet Callback Value) : Prop where
  consistent : ∃ log, Network.Consistent fleet.network log
  follows : ∀ (index : Nat) (node : NodeHandler Callback Value), fleet.nodes[index]? = some node →
    ∃ executed, node.Follows executed (fleet.told node)
  given : ∀ node ∈ fleet.nodes, ∀ registVersion, node.registVersion = some registVersion →
    registVersion < fleet.network.registrar.version
  distinct : ∀ (first second : Nat) (left right : NodeHandler Callback Value),
    fleet.nodes[first]? = some left → fleet.nodes[second]? = some right →
    left.registVersion ≠ none → left.registVersion = right.registVersion → first = second

theorem connecting_initial : (initial : Fleet Callback Value).Connecting where
  consistent := ⟨[], Network.consistent_initial⟩
  follows _ _ located := by cases located
  given _ member := by cases member
  distinct _ _ _ _ located := by cases located

section Steps

variable {fleet next : Fleet Callback Value}

theorem getElem?_set_cases {Item : Type} {items : List Item} {index other : Nat} {item found : Item}
    (located : (items.set index item)[other]? = some found) :
    other = index ∧ found = item ∨ other ≠ index ∧ items[other]? = some found := by
  by_cases same : other = index
  · subst same
    have inside : other < items.length := by
      have long := (List.getElem?_eq_some_iff.mp located).1
      rwa [List.length_set] at long
    rw [List.getElem?_set_self inside] at located
    exact .inl ⟨rfl, (Option.some.inj located).symm⟩
  · rw [List.getElem?_set_ne (Ne.symm same)] at located
    exact .inr ⟨same, located⟩

theorem getElem?_concat_cases {Item : Type} {items : List Item} {index : Nat} {item found : Item}
    (located : (items ++ [item])[index]? = some found) :
    items[index]? = some found ∨ found = item := by
  rw [List.getElem?_append] at located
  split at located
  · exact .inl located
  · exact .inr (List.mem_singleton.mp (List.mem_of_getElem? located))

theorem Connecting.distinct_set (connecting : fleet.Connecting) {index : Nat}
    {node changed : NodeHandler Callback Value} (located : fleet.nodes[index]? = some node)
    (version : changed.registVersion = node.registVersion) (first second : Nat)
    (left right : NodeHandler Callback Value)
    (isThere : (fleet.nodes.set index changed)[first]? = some left)
    (also : (fleet.nodes.set index changed)[second]? = some right)
    (registered : left.registVersion ≠ none) (same : left.registVersion = right.registVersion) :
    first = second := by
  rcases getElem?_set_cases isThere with ⟨rfl, rfl⟩ | ⟨_, earlier⟩ <;>
    rcases getElem?_set_cases also with ⟨rfl, rfl⟩ | ⟨_, before⟩
  · rfl
  · rw [version] at registered same
    exact connecting.distinct _ _ node right located before registered same
  · rw [version] at same
    exact connecting.distinct _ _ left node earlier located registered same
  · exact connecting.distinct _ _ left right earlier before registered same

/-- A node that keeps its version changes alone. -/
theorem Connecting.alone (connecting : fleet.Connecting) {index : Nat}
    {node changed : NodeHandler Callback Value} (located : fleet.nodes[index]? = some node)
    (version : changed.registVersion = node.registVersion)
    (follows : ∃ executed, changed.Follows executed (fleet.told node)) :
    { fleet with nodes := fleet.nodes.set index changed }.Connecting where
  consistent := connecting.consistent
  follows other found isThere := by
    have same : fleet.told changed = fleet.told node := by
      unfold told
      rw [version]
    rcases getElem?_set_cases isThere with ⟨rfl, rfl⟩ | ⟨_, earlier⟩
    · change ∃ executed, found.Follows executed (fleet.told found)
      rw [same]
      exact follows
    · exact connecting.follows other found earlier
  given found member registVersion registered := by
    rcases List.mem_or_eq_of_mem_set member with earlier | rfl
    · exact connecting.given found earlier registVersion registered
    · exact connecting.given node (List.mem_of_getElem? located) registVersion
        (version ▸ registered)
  distinct := connecting.distinct_set located version

theorem Connecting.init (connecting : fleet.Connecting) (name : String) :
    { fleet with nodes := fleet.nodes ++ [NodeHandler.init name] }.Connecting where
  consistent := connecting.consistent
  follows index node located := by
    rcases getElem?_concat_cases located with earlier | rfl
    · exact connecting.follows index node earlier
    · exact ⟨_, NodeHandler.follows_init name⟩
  given node member registVersion registered := by
    rcases List.mem_append.mp member with earlier | last
    · exact connecting.given node earlier registVersion registered
    · cases List.mem_singleton.mp last
      cases registered
  distinct first second left right isThere also registered same := by
    rcases getElem?_concat_cases isThere with earlier | rfl
    · rcases getElem?_concat_cases also with before | rfl
      · exact connecting.distinct first second left right earlier before registered same
      · exact absurd same registered
    · exact absurd rfl registered

/-- The registrar moves on without telling anybody. -/
theorem Connecting.network (connecting : fleet.Connecting) {network : Network}
    (consistent : ∃ log, Network.Consistent network log)
    (subscribers : network.subscribers = fleet.network.subscribers)
    (version : fleet.network.registrar.version ≤ network.registrar.version) :
    { fleet with network := network }.Connecting where
  consistent := consistent
  follows index node located := by
    have same : ({ fleet with network := network } : Fleet Callback Value).told node =
        fleet.told node := by
      simp only [told, Network.told, subscribers]
    rw [same]
    exact connecting.follows index node located
  given node member registVersion registered :=
    Nat.lt_of_lt_of_le (connecting.given node member registVersion registered) version
  distinct := connecting.distinct

theorem Connecting.unheard (connecting : fleet.Connecting) {registVersion : Nat}
    (new : fleet.network.registrar.version ≤ registVersion) :
    fleet.network.subscribers registVersion = none := by
  obtain ⟨log, consistent⟩ := connecting.consistent
  cases found : fleet.network.subscribers registVersion with
  | none => rfl
  | some subscriber =>
      obtain ⟨first, inside, _⟩ := consistent.tracked found
      have version := consistent.represents.version
      omega

theorem Connecting.regist (connecting : fleet.Connecting) {index : Nat} {ip : String}
    {port : UInt32} (registered : fleet.regist index ip port = some next) : next.Connecting := by
  obtain ⟨node, located, registered⟩ := Option.bind_eq_some_iff.mp registered
  obtain ⟨unregistered, registered⟩ := Option.ite_none_right_eq_some.mp registered
  obtain ⟨network, stepped, rfl⟩ := Option.map_eq_some_iff.mp registered
  obtain ⟨log, consistent⟩ := connecting.consistent
  obtain ⟨subscribers, version⟩ := Network.regist_frame stepped
  have moved := connecting.network (consistent.step stepped) subscribers
    (version ▸ Nat.le_succ _)
  have unheard : network.told fleet.network.registrar.version = fun _ => none := by
    unfold Network.told
    rw [subscribers, connecting.unheard (Nat.le_refl _)]
  refine ⟨moved.consistent, ?_, ?_, ?_⟩
  · intro other found isThere
    rcases getElem?_set_cases isThere with ⟨rfl, rfl⟩ | ⟨_, earlier⟩
    · obtain ⟨executed, follows⟩ := connecting.follows other node located
      have nothing : fleet.told node = fun _ => none := by
        unfold told
        rw [unregistered]
      rw [nothing] at follows
      refine ⟨executed, ?_⟩
      change NodeHandler.Follows _ executed (network.told fleet.network.registrar.version)
      rw [unheard]
      exact { follows with }
    · exact moved.follows other found earlier
  · intro found member registVersion given
    rcases List.mem_or_eq_of_mem_set member with earlier | rfl
    · exact moved.given found earlier registVersion given
    · cases given
      change fleet.network.registrar.version < network.registrar.version
      omega
  · -- nobody else has the new version
    have fresh {found : NodeHandler Callback Value} (member : found ∈ fleet.nodes)
        (same : found.registVersion = some fleet.network.registrar.version) : False :=
      Nat.lt_irrefl _ (connecting.given found member _ same)
    intro first second left right isThere also given same
    rcases getElem?_set_cases isThere with ⟨rfl, rfl⟩ | ⟨_, earlier⟩ <;>
      rcases getElem?_set_cases also with ⟨rfl, rfl⟩ | ⟨_, before⟩
    · rfl
    · exact (fresh (List.mem_of_getElem? before) same.symm).elim
    · exact (fresh (List.mem_of_getElem? earlier) same).elim
    · exact connecting.distinct first second left right earlier before given same

theorem Connecting.deliver (connecting : fleet.Connecting) {index : Nat}
    {action : Nat → NetworkAction}
    (tells : ∀ registVersion network reply,
      fleet.network.step (action registVersion) = some network →
      fleet.network.reply (action registVersion) = some reply →
      Network.Tells fleet.network network registVersion reply)
    (delivered : fleet.deliver index action = some next) : next.Connecting := by
  obtain ⟨node, located, delivered⟩ := Option.bind_eq_some_iff.mp delivered
  obtain ⟨registVersion, registered, delivered⟩ := Option.bind_eq_some_iff.mp delivered
  obtain ⟨network, stepped, delivered⟩ := Option.bind_eq_some_iff.mp delivered
  obtain ⟨reply, written, rfl⟩ := Option.map_eq_some_iff.mp delivered
  obtain ⟨registrar, told, others⟩ := tells registVersion network reply stepped written
  obtain ⟨log, consistent⟩ := connecting.consistent
  refine ⟨consistent.step stepped, ?_, ?_, ?_⟩
  · intro other found isThere
    rcases getElem?_set_cases isThere with ⟨rfl, rfl⟩ | ⟨apart, earlier⟩
    · obtain ⟨executed, follows⟩ := connecting.follows other node located
      refine ⟨executed, ?_⟩
      have after := follows.receive reply
      have before : fleet.told node = fleet.network.told registVersion := by
        simp only [Fleet.told, registered]
      have here : Fleet.told ⟨network, fleet.nodes.set other (node.receive reply)⟩
          (node.receive reply) = network.told registVersion := by
        simp only [Fleet.told, NodeHandler.receive, registered]
      rw [here, told, ← before]
      exact after
    · have kept : Fleet.told ⟨network, fleet.nodes.set index (node.receive reply)⟩ found =
          fleet.told found := by
        unfold Fleet.told
        cases version : found.registVersion with
        | none => rfl
        | some own =>
            have differs : own ≠ registVersion := by
              rintro rfl
              refine apart (connecting.distinct other index found node earlier located ?_ ?_)
              · rw [version]
                exact Option.some_ne_none own
              · rw [version, registered]
            simp only [Network.told, others own differs]
      rw [kept]
      exact connecting.follows other found earlier
  · intro found member own given
    change own < network.registrar.version
    rw [registrar]
    rcases List.mem_or_eq_of_mem_set member with earlier | rfl
    · exact connecting.given found earlier own given
    · exact connecting.given node (List.mem_of_getElem? located) own given
  · have version : (node.receive reply).registVersion = node.registVersion := rfl
    exact connecting.distinct_set located version

theorem Connecting.local_ (connecting : fleet.Connecting) {index : Nat}
    {act : NodeHandler Callback Value → Option (NodeHandler Callback Value)}
    (kept : ∀ node changed, act node = some changed → changed.registVersion = node.registVersion ∧
      ∀ executed view, node.Follows executed view → ∃ after, changed.Follows after view)
    (acted : fleet.local_ index act = some next) : next.Connecting := by
  obtain ⟨node, located, acted⟩ := Option.bind_eq_some_iff.mp acted
  obtain ⟨changed, called, rfl⟩ := Option.map_eq_some_iff.mp acted
  obtain ⟨version, follows⟩ := kept node changed called
  obtain ⟨executed, before⟩ := connecting.follows index node located
  exact connecting.alone located version (follows executed _ before)

theorem Connecting.step (connecting : fleet.Connecting) {action : FleetAction Callback Value}
    (stepped : fleet.step action = some next) : next.Connecting := by
  cases action with
  | init name =>
      cases stepped
      exact connecting.init name
  | regist index ip port => exact connecting.regist stepped
  | deregist registVersion =>
      obtain ⟨network, moved, rfl⟩ := Option.map_eq_some_iff.mp stepped
      obtain ⟨log, consistent⟩ := connecting.consistent
      obtain ⟨subscribers, version⟩ := Network.deregist_frame moved
      exact connecting.network (consistent.step moved) subscribers (version ▸ Nat.le_succ _)
  | receiveFirst index =>
      exact connecting.deliver (fun _ _ _ => Network.tells_receiveFirst) stepped
  | receiveIncrement index cversion =>
      exact connecting.deliver (fun _ _ _ => Network.tells_receiveIncrement) stepped
  | execute index =>
      refine connecting.local_ (fun node changed acted => ⟨?_, fun _ _ follows => ?_⟩) stepped
      · exact NodeHandler.registVersion_execute acted
      · exact follows.execute acted
  | connectionCall index action =>
      refine connecting.local_ (fun node changed acted => ⟨?_, fun _ _ follows => ?_⟩) stepped
      · obtain ⟨clients, _, rfl⟩ := NodeHandler.connectionCall_eq_some acted
        rfl
      · exact ⟨_, follows.connectionCall acted⟩
  | paramCall index action =>
      refine connecting.local_ (fun node changed acted => ⟨?_, fun _ _ follows => ?_⟩) stepped
      · obtain ⟨clients, _, rfl⟩ := NodeHandler.paramCall_eq_some acted
        rfl
      · exact ⟨_, follows.paramCall acted⟩

end Steps

/-- The registered nodes but the node itself. -/
def Peer (fleet : Fleet Callback Value) (registVersion : Nat) (peer : Registered) : Prop :=
  peer ∈ fleet.network.registered ∧ peer.registVersion ≠ registVersion

/-- A node that has executed what the registrar has told it up to the newest version has clients
for its peers and for nobody else. Each has been given every request once, and the callbacks. -/
def Connected (fleet : Fleet Callback Value) : Prop :=
  ∀ node ∈ fleet.nodes, ∀ registVersion, node.registVersion = some registVersion →
    ∀ subscriber, fleet.network.subscribers registVersion = some subscriber →
    subscriber.keptVersion + 1 = fleet.network.registrar.version → node.commands = [] →
    (∀ name address, NodeHandler.channels node.connectionRpcClients name = some address ↔
      ∃ peer, fleet.Peer registVersion peer ∧ peer.nodeName = name ∧
        channelAddress (peer.ip, peer.port) = address) ∧
    (∀ name, NodeHandler.known node.paramClients name = true ↔
      ∃ peer, fleet.Peer registVersion peer ∧ peer.nodeName = name) ∧
    node.connectionRpcClients.RequestsServed ∧ node.paramClients.CallbacksKept

theorem Connecting.connected {fleet : Fleet Callback Value} (connecting : fleet.Connecting) :
    fleet.Connected := by
  intro node member registVersion registered subscriber found current finished
  obtain ⟨index, located⟩ := List.mem_iff_getElem?.mp member
  obtain ⟨executed, follows⟩ := connecting.follows index node located
  obtain ⟨log, consistent⟩ := connecting.consistent
  have converged := consistent.converged registVersion subscriber found current
  have shown : executed = subscriber.view := by
    have pending := follows.pending
    rw [finished] at pending
    simp only [told, registered, Network.told, found] at pending
    exact pending
  have unstarted : node.reached executed = executed := by
    unfold NodeHandler.reached
    rw [finished]
    cases node.halfway <;> rfl
  refine ⟨fun name address => ?_, fun name => ?_, follows.served, follows.agreed.kept⟩
  · rw [follows.channels name, unstarted, shown, Option.map_eq_some_iff]
    constructor
    · rintro ⟨endpoint, viewed, rfl⟩
      obtain ⟨peer, listed, other, named, rfl⟩ := (converged name endpoint).mp viewed
      exact ⟨peer, ⟨listed, other⟩, named, rfl⟩
    · rintro ⟨peer, ⟨listed, other⟩, named, rfl⟩
      exact ⟨_, (converged name _).mpr ⟨peer, listed, other, named, rfl⟩, rfl⟩
  · rw [follows.known name, shown, Option.isSome_iff_exists]
    constructor
    · rintro ⟨endpoint, viewed⟩
      obtain ⟨peer, listed, other, named, _⟩ := (converged name endpoint).mp viewed
      exact ⟨peer, ⟨listed, other⟩, named⟩
    · rintro ⟨peer, ⟨listed, other⟩, named⟩
      exact ⟨_, (converged name _).mpr ⟨peer, listed, other, named, rfl⟩⟩

/-- From the registrations to the clients: whatever the order of registrations, replies, commands
and requests, a node that is up to date is connected to its peers. -/
theorem clubs_converge (run : List (FleetAction Callback Value)) :
    machine.Along Connected (initial : Fleet Callback Value) run := by
  have connecting : machine.Along Connecting (initial : Fleet Callback Value) run :=
    machine.along_of_preserved Connecting (fun _ _ _ before stepped => before.step stepped)
      connecting_initial run
  exact connecting.mono fun _ before => before.connected

end Fleet

end ProtoCore.Discovery
