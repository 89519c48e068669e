import ProtoCore.Discovery.Registrar
import ProtoCore.Library.Machine

/-!
# Subscribers converge to the registered nodes

Registrations and deregistrations happen as single steps here. Each registered
node first receives the log below its own version and then any increments, which
the registrar may evaluate when its log already extends past them.
-/

set_option autoImplicit false

namespace ProtoCore.Discovery

open Library Library.CompactedLog

/-- A `Regist` handler between its registration and its deregistration. -/
structure Registered where
  registVersion : Nat
  nodeName : String
  ip : String
  port : UInt32
  deriving DecidableEq, Repr

/-- The node behind a handler, once it has received the first list. -/
structure Subscriber where
  keptVersion : Nat
  view : NodeView

structure Network where
  registrar : Registrar
  registered : List Registered
  subscribers : Nat → Option Subscriber

inductive NetworkAction where
  | regist (nodeName ip : String) (port : UInt32)
  | deregist (registVersion : Nat)
  | receiveFirst (registVersion : Nat)
  | receiveIncrement (registVersion cversion : Nat)

namespace Network

def initial : Network :=
  { registrar := Registrar.empty, registered := [], subscribers := fun _ => none }

def deliver (network : Network) (registVersion keptVersion : Nat) (view : NodeView)
    (reply : RegistrationReply) : Network :=
  { network with
    subscribers := Function.update network.subscribers registVersion
      (some { keptVersion := keptVersion, view := NodeRegist.receive view reply }) }

/-- One step of the registrar or of one subscriber. `cversion` is any value
`version - 1` has had, so the list may be taken after the log has grown on. -/
def step (network : Network) : NetworkAction → Option Network
  | .regist nodeName ip port =>
      if network.registrar.findExistNode nodeName then none
      else
        let (registVersion, registrar) := network.registrar.register nodeName ip port
        some { network with
          registrar := registrar
          registered := ⟨registVersion, nodeName, ip, port⟩ :: network.registered }
  | .deregist registVersion =>
      if network.registered.any (·.registVersion = registVersion) then
        some { network with
          registrar := network.registrar.deregister registVersion
          registered := network.registered.filter (·.registVersion ≠ registVersion) }
      else none
  | .receiveFirst registVersion =>
      if network.registered.any (·.registVersion = registVersion) ∧
          (network.subscribers registVersion).isNone then do
        let reply ← network.registrar.list 0 ((registVersion : Int) - 1)
        return network.deliver registVersion registVersion (fun _ => none) reply
      else none
  | .receiveIncrement registVersion cversion => do
      let subscriber ← network.subscribers registVersion
      if subscriber.keptVersion + 1 ≤ cversion ∧ cversion < network.registrar.version then
        let reply ← network.registrar.list (subscriber.keptVersion + 1) cversion
        return network.deliver registVersion cversion subscriber.view reply
      else none

def machine : Machine Network NetworkAction := ⟨step⟩

/-- A subscriber that has received everything up to the newest version shows
exactly the registered nodes other than itself. -/
def Converged (network : Network) : Prop :=
  ∀ registVersion subscriber, network.subscribers registVersion = some subscriber →
    subscriber.keptVersion + 1 = network.registrar.version →
    ∀ nodeName endpoint, subscriber.view nodeName = some endpoint ↔
      ∃ node ∈ network.registered, node.registVersion ≠ registVersion ∧
        node.nodeName = nodeName ∧ (node.ip, node.port) = endpoint

/-- The log behind the registrar, and what each subscriber has consumed of it. -/
structure Consistent (network : Network) (log : List LogEvent) : Prop where
  represents : Represents network.registrar log
  registered : ∀ node, node ∈ network.registered ↔
    Live log node.registVersion node.nodeName (node.ip, node.port)
  tracked : ∀ {registVersion : Nat} {subscriber : Subscriber},
    network.subscribers registVersion = some subscriber →
    registVersion ≤ subscriber.keptVersion ∧ subscriber.keptVersion < log.length ∧
      Tracks log registVersion (subscriber.keptVersion + 1) subscriber.view

theorem consistent_initial : Consistent initial [] where
  represents := represents_empty
  registered node := by
    simp only [initial, List.not_mem_nil, false_iff]
    exact fun living => absurd living.1 (Nat.not_lt_zero _)
  tracked found := by cases found

theorem Consistent.tracked_append {network : Network} {log : List LogEvent}
    (consistent : Consistent network log) (event : LogEvent) {registVersion : Nat}
    {subscriber : Subscriber} (found : network.subscribers registVersion = some subscriber) :
    registVersion ≤ subscriber.keptVersion ∧
      subscriber.keptVersion < (log ++ [event]).length ∧
      Tracks (log ++ [event]) registVersion (subscriber.keptVersion + 1) subscriber.view := by
  obtain ⟨first, inside, tracks⟩ := consistent.tracked found
  exact ⟨first, by simp; omega, tracks.append inside event⟩

theorem Consistent.deliver {network : Network} {log : List LogEvent}
    (consistent : Consistent network log) {registVersion keptVersion : Nat} {view : NodeView}
    {reply : RegistrationReply} (after : registVersion ≤ keptVersion)
    (inside : keptVersion < log.length)
    (tracks : Tracks log registVersion (keptVersion + 1) (NodeRegist.receive view reply)) :
    Consistent (network.deliver registVersion keptVersion view reply) log := by
  refine ⟨consistent.represents, consistent.registered, fun {version subscriber} found => ?_⟩
  simp only [Network.deliver] at found
  by_cases updated : version = registVersion
  · subst updated
    rw [Function.update_self] at found
    cases found
    exact ⟨after, inside, tracks⟩
  · rw [Function.update_of_ne updated] at found
    exact consistent.tracked found

theorem Consistent.regist {network next : Network} {log : List LogEvent}
    (consistent : Consistent network log) {nodeName ip : String} {port : UInt32}
    (stepped : network.step (.regist nodeName ip port) = some next) :
    Consistent next (log ++ [.add nodeName (ip, port)]) := by
  simp only [step] at stepped
  split at stepped
  · cases stepped
  · rename_i unused
    cases stepped
    refine ⟨consistent.represents.register (by simpa using unused) ip port, fun node => ?_,
      fun found => consistent.tracked_append _ found⟩
    rw [live_append_add consistent.represents.wellFormed, List.mem_cons, consistent.registered]
    have version := consistent.represents.version
    obtain ⟨registVersion, name, ip', port'⟩ := node
    simp [Registrar.register, Registrar.takeVersion, version]
    grind

theorem Consistent.deregist {network next : Network} {log : List LogEvent}
    (consistent : Consistent network log) {registVersion : Nat}
    (stepped : network.step (.deregist registVersion) = some next) :
    Consistent next (log ++ [.remove registVersion]) := by
  simp only [step] at stepped
  split at stepped
  · rename_i present
    cases stepped
    obtain ⟨node, member, same⟩ := List.any_eq_true.mp present
    have living := (consistent.registered node).mp member
    have sameVersion : node.registVersion = registVersion := by simpa using same
    rw [sameVersion] at living
    refine ⟨consistent.represents.deregister living, fun other => ?_,
      fun found => consistent.tracked_append _ found⟩
    rw [live_append_remove, List.mem_filter, consistent.registered]
    simp
  · cases stepped

theorem Consistent.receiveFirst {network next : Network} {log : List LogEvent}
    (consistent : Consistent network log) {registVersion : Nat}
    (stepped : network.step (.receiveFirst registVersion) = some next) :
    Consistent next log := by
  simp only [step] at stepped
  split at stepped
  · rename_i enabled
    obtain ⟨node, member, same⟩ := List.any_eq_true.mp enabled.1
    have living := (consistent.registered node).mp member
    have sameVersion : node.registVersion = registVersion := by simpa using same
    rw [sameVersion] at living
    obtain ⟨reply, listed, mapped⟩ := consistent.represents.list 0 _ living.1.le
    simp only [listed, Option.bind_eq_bind, Option.bind_some, Option.pure_def,
      Option.some.injEq] at stepped
    subst stepped
    refine consistent.deliver le_rfl living.1 ?_
    rw [NodeRegist.receive_eq_replay, mapped]
    have below := (tracks_zero log registVersion).range consistent.represents.wellFormed
      (Nat.zero_le _) living.1.le fun position _ before => before.ne
    exact below.skipOwn living.2.1
  · cases stepped

theorem Consistent.receiveIncrement {network next : Network} {log : List LogEvent}
    (consistent : Consistent network log) {registVersion cversion : Nat}
    (stepped : network.step (.receiveIncrement registVersion cversion) = some next) :
    Consistent next log := by
  simp only [step] at stepped
  obtain ⟨subscriber, found, stepped⟩ := Option.bind_eq_some_iff.mp stepped
  split at stepped
  · rename_i enabled
    obtain ⟨first, inside, tracks⟩ := consistent.tracked found
    have version := consistent.represents.version
    obtain ⟨reply, listed, mapped⟩ := consistent.represents.list
      (subscriber.keptVersion + 1) (cversion + 1) (by omega)
    have shape : ((cversion + 1 : Nat) : Int) - 1 = cversion := by omega
    rw [shape] at listed
    simp only [listed, Option.bind_eq_bind, Option.bind_some, Option.pure_def,
      Option.some.injEq] at stepped
    subst stepped
    refine consistent.deliver (by omega) (by omega) ?_
    rw [NodeRegist.receive_eq_replay, mapped]
    exact tracks.range consistent.represents.wellFormed (by omega) (by omega)
      fun position after _ => by omega
  · cases stepped

theorem Consistent.step {network next : Network} {action : NetworkAction} {log : List LogEvent}
    (consistent : Consistent network log) (stepped : network.step action = some next) :
    ∃ log, Consistent next log := by
  cases action with
  | regist nodeName ip port => exact ⟨_, consistent.regist stepped⟩
  | deregist registVersion => exact ⟨_, consistent.deregist stepped⟩
  | receiveFirst registVersion => exact ⟨_, consistent.receiveFirst stepped⟩
  | receiveIncrement registVersion cversion => exact ⟨_, consistent.receiveIncrement stepped⟩

theorem Consistent.converged {network : Network} {log : List LogEvent}
    (consistent : Consistent network log) : Converged network := by
  intro registVersion subscriber found current nodeName endpoint
  obtain ⟨_, _, tracks⟩ := consistent.tracked found
  rw [current, consistent.represents.version] at tracks
  rw [tracks.complete]
  constructor
  · intro shown
    obtain ⟨position, other, living⟩ := shown
    exact ⟨⟨position, nodeName, endpoint.1, endpoint.2⟩,
      (consistent.registered _).mpr living, other, rfl, rfl⟩
  · intro registered
    obtain ⟨node, member, other, rfl, rfl⟩ := registered
    exact ⟨node.registVersion, other, (consistent.registered node).mp member⟩

theorem along_consistent (run : List NetworkAction) :
    machine.Along (fun network => ∃ log, Consistent network log) initial run := by
  refine machine.along_of_preserved _ ?_ ⟨[], consistent_initial⟩ run
  intro network action next tracked stepped
  obtain ⟨log, consistent⟩ := tracked
  exact consistent.step stepped

theorem views_converge (run : List NetworkAction) : machine.Along Converged initial run :=
  (along_consistent run).mono fun _ ⟨_, consistent⟩ => consistent.converged

/-- A node receives the registration of another, and then its deregistration. -/
example : (machine.exec initial [.regist "a" "127.0.0.1" 1, .receiveFirst 0,
      .regist "b" "127.0.0.1" 2, .receiveIncrement 0 1]).bind
    (fun network => (network.subscribers 0).map fun subscriber => subscriber.view "b") =
      some (some ("127.0.0.1", 2)) ∧
    (machine.exec initial [.regist "a" "127.0.0.1" 1, .receiveFirst 0,
      .regist "b" "127.0.0.1" 2, .receiveIncrement 0 1, .deregist 1, .receiveIncrement 0 2]).bind
    (fun network => (network.subscribers 0).map fun subscriber => subscriber.view "b") =
      some none := by
  decide +kernel

/-- No list reads outside `nodes`, so a subscriber is only held up by its own progress. -/
def Listable (network : Network) : Prop :=
  (∀ node ∈ network.registered, network.subscribers node.registVersion = none →
    (network.step (.receiveFirst node.registVersion)).isSome) ∧
  ∀ registVersion subscriber cversion, network.subscribers registVersion = some subscriber →
    subscriber.keptVersion + 1 ≤ cversion → cversion < network.registrar.version →
    (network.step (.receiveIncrement registVersion cversion)).isSome

theorem Consistent.listable {network : Network} {log : List LogEvent}
    (consistent : Consistent network log) : Listable network := by
  constructor
  · intro node member unheard
    have inside := ((consistent.registered node).mp member).1
    obtain ⟨reply, listed, _⟩ := consistent.represents.list 0 node.registVersion inside.le
    have known : network.registered.any (·.registVersion = node.registVersion) = true :=
      List.any_eq_true.mpr ⟨node, member, decide_eq_true rfl⟩
    simp only [Network.step]
    rw [if_pos ⟨known, by rw [unheard]; rfl⟩, listed]
    rfl
  · intro registVersion subscriber cversion found newer written
    rw [consistent.represents.version] at written
    obtain ⟨reply, listed, _⟩ :=
      consistent.represents.list (subscriber.keptVersion + 1) (cversion + 1) written
    have bounds : subscriber.keptVersion + 1 ≤ cversion ∧
        cversion < network.registrar.version :=
      ⟨newer, consistent.represents.version ▸ written⟩
    rw [show ((cversion + 1 : Nat) : Int) - 1 = cversion by omega] at listed
    simp only [Network.step, found, Option.bind_eq_bind, Option.bind_some]
    rw [if_pos bounds, listed]
    rfl

theorem lists_succeed (run : List NetworkAction) : machine.Along Listable initial run :=
  (along_consistent run).mono fun _ ⟨_, consistent⟩ => consistent.listable

end Network

end ProtoCore.Discovery
