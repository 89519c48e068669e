import ProtoCore.Discovery.HandlerConvergence
import ProtoCore.Discovery.ViewConvergence
import ProtoCore.Library.Simulation

/-!
# Registrations that nothing divides

The handlers take a version and write its slot in two steps, and list in steps of their own.
While no handler moves between the two steps of another and none takes a name that is alive, they
go through a run of the network in which each registration and each deregistration is one step.
-/

set_option autoImplicit false

namespace ProtoCore.Discovery

open Library

namespace Network

def Registers (network : Network) (registVersion : Nat) : Prop :=
  ∃ node ∈ network.registered, node.registVersion = registVersion

/-- What a network has of the handler that has sent these commands. -/
def Known (network : Network) (received : List NodeInfo) : RegistPc → Prop
  | .idle => received = []
  | .registration _ nodeName _ _ =>
      received = [] ∧ network.registrar.findExistNode nodeName = false
  | .listFirst registVersion => received = [] ∧ network.Registers registVersion ∧
      network.subscribers registVersion = none
  | .wait registVersion keptVersion => network.Registers registVersion ∧
      network.subscribers registVersion =
        some ⟨keptVersion, received.foldl NodeRegist.execute fun _ => none⟩
  | .listIncrement registVersion keptVersion cversion => network.Registers registVersion ∧
      network.subscribers registVersion =
        some ⟨keptVersion, received.foldl NodeRegist.execute fun _ => none⟩ ∧
      keptVersion + 1 ≤ cversion ∧ cversion < network.registrar.version
  | .write registVersion _ cversion reply => network.Registers registVersion ∧
      network.subscribers registVersion =
        some ⟨cversion, (received ++ reply).foldl NodeRegist.execute fun _ => none⟩
  | .leave registVersion | .deregistration registVersion _ => network.Registers registVersion
  | .done => True

theorem Known.registers {network : Network} {received : List NodeInfo} {pc : RegistPc}
    (known : network.Known received pc) {registVersion : Nat}
    (registered : pc.registered = some registVersion) : network.Registers registVersion := by
  cases pc with
  | idle | registration | done => cases registered
  | listFirst =>
      cases registered
      exact known.2.1
  | wait | listIncrement | write =>
      cases registered
      exact known.1
  | leave | deregistration =>
      cases registered
      exact known

/-- A step that leaves the node of the handler and its subscriber alone. -/
theorem Known.frame {network next : Network} {received : List NodeInfo} {pc : RegistPc}
    (known : network.Known received pc) (settled : pc.pending = none)
    (kept : ∀ registVersion, pc.registered = some registVersion →
      next.Registers registVersion ∧
        next.subscribers registVersion = network.subscribers registVersion)
    (later : network.registrar.version ≤ next.registrar.version) : next.Known received pc := by
  cases pc with
  | registration | deregistration => cases settled
  | idle => exact known
  | done => trivial
  | listFirst registVersion =>
      obtain ⟨registers, same⟩ := kept registVersion rfl
      exact ⟨known.1, registers, same.trans known.2.2⟩
  | wait registVersion keptVersion =>
      obtain ⟨registers, same⟩ := kept registVersion rfl
      exact ⟨registers, same.trans known.2⟩
  | listIncrement registVersion keptVersion cversion =>
      obtain ⟨registers, same⟩ := kept registVersion rfl
      obtain ⟨_, subscribed, newer, inside⟩ := known
      exact ⟨registers, same.trans subscribed, newer, Nat.lt_of_lt_of_le inside later⟩
  | write registVersion keptVersion cversion reply =>
      obtain ⟨registers, same⟩ := kept registVersion rfl
      exact ⟨registers, same.trans known.2⟩
  | leave registVersion => exact (kept registVersion rfl).1

theorem Consistent.lt_version {network : Network} {log : List LogEvent}
    (consistent : network.Consistent log) {registVersion : Nat}
    (registers : network.Registers registVersion) :
    registVersion < network.registrar.version := by
  obtain ⟨node, member, rfl⟩ := registers
  rw [consistent.represents.version]
  exact ((consistent.registered node).mp member).1

/-- A version that is still to be taken has no subscriber. -/
theorem Consistent.unheard {network : Network} {log : List LogEvent}
    (consistent : network.Consistent log) :
    network.subscribers network.registrar.version = none := by
  cases found : network.subscribers network.registrar.version with
  | none => rfl
  | some subscriber =>
      obtain ⟨first, inside, _⟩ := consistent.tracked found
      rw [consistent.represents.version] at first
      omega

end Network

namespace Service

/-- No other handler stands between a version and its slot, and a name that is taken belongs to no
live node. -/
def Undivided (service : Service) (action : Nat × RegistMove) : Prop :=
  (∀ other, other ≠ action.1 → (service.handlers other).pending = none) ∧
  match action.2 with
  | .takeVersion nodeName _ _ => service.registrar.findExistNode nodeName = false
  | _ => True

/-- The network has the registrar of the service, up to a version that has just been taken, and the
nodes and the subscribers of its handlers. -/
structure Mirrors (service : Service) (network : Network) : Prop where
  consistent : ∃ log, network.Consistent log
  registrar : (∀ handler, (service.handlers handler).pending = none) →
    service.registrar = network.registrar
  taken : ∀ handler version, (service.handlers handler).pending = some version →
    version = network.registrar.version ∧ service.registrar = network.registrar.takeVersion.2
  known : ∀ handler, network.Known (service.received handler) (service.handlers handler)
  alone : ∀ left right registVersion, (service.handlers left).registered = some registVersion →
    (service.handlers right).registered = some registVersion → left = right

theorem mirrors_initial : Mirrors initial Network.initial where
  consistent := ⟨[], Network.consistent_initial⟩
  registrar _ := rfl
  taken _ _ pending := by cases pending
  known _ := rfl
  alone _ _ _ registered := by cases registered

section Steps

variable {service next : Service} {network after : Network} {handler : Nat}

theorem Mirrors.quiet (mirrors : Mirrors service network)
    (others : ∀ other, other ≠ handler → (service.handlers other).pending = none)
    (own : (service.handlers handler).pending = none) : service.registrar = network.registrar := by
  refine mirrors.registrar fun other => ?_
  by_cases same : other = handler
  · exact same ▸ own
  · exact others other same

/-- One handler goes on, and the network does what concerns that handler only. -/
theorem Mirrors.advance (mirrors : Mirrors service network)
    (consistent : ∃ log, after.Consistent log)
    (others : ∀ other, other ≠ handler → (service.handlers other).pending = none) {pc : RegistPc}
    (moved : next.handlers = Function.update service.handlers handler pc)
    (received : ∀ other, other ≠ handler → next.received other = service.received other)
    (registrar : pc.pending = none → next.registrar = after.registrar)
    (taken : ∀ version, pc.pending = some version →
      version = after.registrar.version ∧ next.registrar = after.registrar.takeVersion.2)
    (known : after.Known (next.received handler) pc)
    (own : ∀ registVersion, pc.registered = some registVersion →
      (service.handlers handler).registered = some registVersion ∨
        registVersion = network.registrar.version)
    (kept : ∀ registVersion, network.Registers registVersion →
      (service.handlers handler).registered ≠ some registVersion →
        after.Registers registVersion ∧
          after.subscribers registVersion = network.subscribers registVersion)
    (later : network.registrar.version ≤ after.registrar.version) : Mirrors next after := by
  have here : next.handlers handler = pc := by rw [moved, Function.update_self]
  have elsewhere (other : Nat) (apart : other ≠ handler) :
      next.handlers other = service.handlers other := by rw [moved, Function.update_of_ne apart]
  have unlike (other registVersion : Nat) (apart : other ≠ handler)
      (registered : (service.handlers other).registered = some registVersion) :
      pc.registered ≠ some registVersion := by
    intro same
    rcases own registVersion same with before | new
    · exact apart (mirrors.alone _ _ _ registered before)
    · obtain ⟨log, before⟩ := mirrors.consistent
      have below := before.lt_version ((mirrors.known other).registers registered)
      omega
  refine ⟨consistent, fun settled => ?_, fun other version pending => ?_, fun other => ?_,
    fun left right registVersion first second => ?_⟩
  · exact registrar (here ▸ settled handler)
  · by_cases same : other = handler
    · subst same
      exact taken version (here ▸ pending)
    · rw [elsewhere other same, others other same] at pending
      cases pending
  · by_cases same : other = handler
    · subst same
      rw [here]
      exact known
    · rw [elsewhere other same, received other same]
      refine (mirrors.known other).frame (others other same) (fun registVersion registered => ?_)
        later
      refine kept registVersion ((mirrors.known other).registers registered) fun own => ?_
      exact same (mirrors.alone _ _ _ registered own)
  · by_cases one : left = handler
    · by_cases two : right = handler
      · exact one.trans two.symm
      · rw [one, here] at first
        rw [elsewhere right two] at second
        exact absurd first (unlike right registVersion two second)
    · rw [elsewhere left one] at first
      by_cases two : right = handler
      · rw [two, here] at second
        exact absurd second (unlike left registVersion one first)
      · rw [elsewhere right two] at second
        exact mirrors.alone _ _ _ first second

/-- The handler moves on without the network. -/
theorem Mirrors.stutter (mirrors : Mirrors service network)
    (others : ∀ other, other ≠ handler → (service.handlers other).pending = none) {pc : RegistPc}
    (moved : next.handlers = Function.update service.handlers handler pc)
    (received : ∀ other, other ≠ handler → next.received other = service.received other)
    (registrar : pc.pending = none → next.registrar = network.registrar)
    (taken : ∀ version, pc.pending = some version →
      version = network.registrar.version ∧ next.registrar = network.registrar.takeVersion.2)
    (known : network.Known (next.received handler) pc)
    (own : ∀ registVersion, pc.registered = some registVersion →
      (service.handlers handler).registered = some registVersion) : Mirrors next network :=
  mirrors.advance mirrors.consistent others moved received registrar taken known
    (fun registVersion registered => .inl (own registVersion registered))
    (fun _ registers _ => ⟨registers, rfl⟩) (Nat.le_refl _)

variable {registVersion keptVersion : Nat}

/-- The handler is sent a list, and the network delivers the same list as one step. -/
theorem Mirrors.deliver (mirrors : Mirrors service network)
    (others : ∀ other, other ≠ handler → (service.handlers other).pending = none)
    {cversion : Nat} {view : NodeView} {reply : RegistrationReply} {pc : RegistPc}
    (consistent : ∃ log, (network.deliver registVersion cversion view reply).Consistent log)
    (moved : next.handlers = Function.update service.handlers handler pc)
    (received : ∀ other, other ≠ handler → next.received other = service.received other)
    (same : next.registrar = network.registrar) (settled : pc.pending = none)
    (known : (network.deliver registVersion cversion view reply).Known (next.received handler) pc)
    (before : (service.handlers handler).registered = some registVersion)
    (stays : pc.registered = some registVersion) :
    Mirrors next (network.deliver registVersion cversion view reply) := by
  refine mirrors.advance consistent others moved received (fun _ => same) (fun version pending => ?_)
    known (fun other registered => .inl ?_) (fun other registers unlike => ⟨registers, ?_⟩)
    (Nat.le_refl _)
  · rw [settled] at pending
    cases pending
  · cases stays.symm.trans registered
    exact before
  · refine Function.update_of_ne (fun equal => unlike ?_) ..
    rw [equal]
    exact before

theorem readRange_eq {reply : RegistrationReply} {start stop : Nat}
    (listed : service.registrar.list start ((stop : Int) - 1) = some reply) :
    (service.readRange start stop).1 = reply.operationCmd := by
  simp only [readRange, listed]

/-- The first list of a handler. -/
theorem Mirrors.listFirst (mirrors : Mirrors service network)
    (others : ∀ other, other ≠ handler → (service.handlers other).pending = none)
    (here : service.handlers handler = .listFirst registVersion) :
    ∃ after, network.step (.receiveFirst registVersion) = some after ∧
      Mirrors { service with
        handlers := Function.update service.handlers handler (.wait registVersion registVersion)
        received := Function.update service.received handler
          (service.received handler ++ (service.readRange 0 registVersion).1)
        misread := service.misread ++ (service.readRange 0 registVersion).2 } after := by
  have settled : (service.handlers handler).pending = none := by rw [here]; rfl
  have same := mirrors.quiet others settled
  have known := mirrors.known handler
  rw [here] at known
  obtain ⟨silent, registers, unheard⟩ := known
  obtain ⟨log, consistent⟩ := mirrors.consistent
  have inside := consistent.lt_version registers
  rw [consistent.represents.version] at inside
  obtain ⟨reply, listed, _⟩ := consistent.represents.list 0 registVersion inside.le
  obtain ⟨node, member, own⟩ := registers
  have stepped : network.step (.receiveFirst registVersion) =
      some (network.deliver registVersion registVersion (fun _ => none) reply) := by
    have registered : network.registered.any (·.registVersion = registVersion) = true :=
      List.any_eq_true.mpr ⟨node, member, decide_eq_true own⟩
    simp only [Network.step]
    rw [if_pos ⟨registered, by rw [unheard]; rfl⟩, listed]
    rfl
  have read := readRange_eq (same ▸ listed)
  refine ⟨_, stepped, mirrors.deliver others (consistent.step stepped) rfl
    (fun other apart => Function.update_of_ne apart ..) same rfl ?_ (by rw [here]; rfl) rfl⟩
  refine ⟨⟨node, member, own⟩, (Function.update_self ..).trans ?_⟩
  simp only [Function.update_self, silent, read, List.nil_append, NodeRegist.receive]

/-- An increment, which is written to its subscriber later. -/
theorem Mirrors.listIncrement (mirrors : Mirrors service network)
    (others : ∀ other, other ≠ handler → (service.handlers other).pending = none)
    {cversion : Nat} (here : service.handlers handler =
      .listIncrement registVersion keptVersion cversion) :
    ∃ after, network.step (.receiveIncrement registVersion cversion) = some after ∧
      Mirrors { service.moveTo handler (.write registVersion keptVersion cversion
          (service.readRange (keptVersion + 1) (cversion + 1)).1) with
        misread := service.misread ++
          (service.readRange (keptVersion + 1) (cversion + 1)).2 } after := by
  have settled : (service.handlers handler).pending = none := by rw [here]; rfl
  have same := mirrors.quiet others settled
  have known := mirrors.known handler
  rw [here] at known
  obtain ⟨registers, subscribed, newer, inside⟩ := known
  obtain ⟨log, consistent⟩ := mirrors.consistent
  have below := inside
  rw [consistent.represents.version] at below
  obtain ⟨reply, listed, _⟩ := consistent.represents.list (keptVersion + 1) (cversion + 1) below
  have read := readRange_eq (same ▸ listed)
  rw [show ((cversion + 1 : Nat) : Int) - 1 = cversion by omega] at listed
  have stepped : network.step (.receiveIncrement registVersion cversion) =
      some (network.deliver registVersion cversion
        ((service.received handler).foldl NodeRegist.execute fun _ => none) reply) := by
    simp only [Network.step, subscribed, Option.bind_eq_bind, Option.bind_some]
    rw [if_pos ⟨newer, inside⟩, listed]
    rfl
  refine ⟨_, stepped, mirrors.deliver others (consistent.step stepped) rfl (fun _ _ => rfl) same rfl
    ?_ (by rw [here]; rfl) rfl⟩
  refine ⟨registers, (Function.update_self ..).trans ?_⟩
  simp only [moveTo, read, List.foldl_append, NodeRegist.receive]

/-- The slot of a registration is written, and the node is registered in one step. -/
theorem Mirrors.registration (mirrors : Mirrors service network)
    (others : ∀ other, other ≠ handler → (service.handlers other).pending = none)
    {nodeName ip : String} {port : UInt32}
    (here : service.handlers handler = .registration registVersion nodeName ip port) :
    ∃ after, network.step (.regist nodeName ip port) = some after ∧
      Mirrors (service.store handler
        (service.registrar.registration registVersion nodeName ip port) registVersion
        ⟨ip, port, nodeName, .add⟩ (.listFirst registVersion)) after := by
  obtain ⟨rfl, same⟩ := mirrors.taken handler registVersion (by rw [here]; rfl)
  have known := mirrors.known handler
  rw [here] at known
  obtain ⟨silent, unused⟩ := known
  obtain ⟨log, consistent⟩ := mirrors.consistent
  have stepped : network.step (.regist nodeName ip port) = some { network with
      registrar := (network.registrar.register nodeName ip port).2
      registered := ⟨network.registrar.version, nodeName, ip, port⟩ :: network.registered } := by
    simp only [Network.step, unused, Bool.false_eq_true, if_false]
    rfl
  refine ⟨_, stepped, mirrors.advance (consistent.step stepped) others rfl (fun _ _ => rfl)
    (fun _ => by rw [same]; rfl) (fun _ pending => by cases pending) ?_
    (fun _ registered => .inr (Option.some.inj registered).symm) (fun other registers _ => ?_)
    (Nat.le_succ _)⟩
  · exact ⟨silent, ⟨_, List.mem_cons_self, rfl⟩, consistent.unheard⟩
  · obtain ⟨node, member, own⟩ := registers
    exact ⟨⟨node, List.mem_cons_of_mem _ member, own⟩, rfl⟩

/-- The slot of a deletion is written, and the node is deregistered in one step. -/
theorem Mirrors.deregistration (mirrors : Mirrors service network)
    (others : ∀ other, other ≠ handler → (service.handlers other).pending = none)
    {deletedVersion : Nat}
    (here : service.handlers handler = .deregistration registVersion deletedVersion)
    {info : NodeInfo} :
    ∃ after, network.step (.deregist registVersion) = some after ∧
      Mirrors (service.store handler
        (service.registrar.deregistration registVersion deletedVersion) deletedVersion info
        .done) after := by
  obtain ⟨rfl, same⟩ := mirrors.taken handler deletedVersion (by rw [here]; rfl)
  have registers : network.Registers registVersion := by
    have known := mirrors.known handler
    rw [here] at known
    exact known
  obtain ⟨node, member, own⟩ := registers
  obtain ⟨log, consistent⟩ := mirrors.consistent
  have stepped : network.step (.deregist registVersion) = some { network with
      registrar := network.registrar.deregister registVersion
      registered := network.registered.filter (·.registVersion ≠ registVersion) } := by
    have registered : network.registered.any (·.registVersion = registVersion) = true :=
      List.any_eq_true.mpr ⟨node, member, decide_eq_true own⟩
    simp only [Network.step, registered, if_true]
  refine ⟨_, stepped, mirrors.advance (consistent.step stepped) others rfl (fun _ _ => rfl)
    (fun _ => by rw [same]; rfl) (fun _ pending => by cases pending) trivial
    (fun _ registered => by cases registered) (fun other registers unlike => ?_) (Nat.le_succ _)⟩
  obtain ⟨node, member, rfl⟩ := registers
  refine ⟨⟨node, List.mem_filter.mpr ⟨member, decide_eq_true fun equal => unlike ?_⟩, rfl⟩, rfl⟩
  rw [here, equal]
  rfl

/-- Each undivided step is one of the network, or none. -/
theorem Mirrors.step (mirrors : Mirrors service network) {action : Nat × RegistMove}
    (undivided : service.Undivided action) (stepped : service.step action = some next) :
    ∃ trace after, Network.machine.exec network trace = some after ∧ Mirrors next after := by
  obtain ⟨handler, move⟩ := action
  obtain ⟨others, unused⟩ := undivided
  have silently (same : Mirrors next network) :
      ∃ trace after, Network.machine.exec network trace = some after ∧ Mirrors next after :=
    ⟨[], network, rfl, same⟩
  have once {move : NetworkAction}
      (moved : ∃ after, network.step move = some after ∧ Mirrors next after) :
      ∃ trace after, Network.machine.exec network trace = some after ∧ Mirrors next after := by
    obtain ⟨after, stepped, same⟩ := moved
    exact ⟨[move], after, Network.machine.exec_of_step stepped, same⟩
  have known := mirrors.known handler
  simp only [Service.step] at stepped
  split at stepped
  case h_1 here =>
    -- a version is taken, and the slot is still to be written
    cases stepped
    have same := mirrors.quiet others (by rw [here]; rfl)
    rw [here] at known
    refine silently (mirrors.stutter others rfl (fun _ _ => rfl) (fun settled => by cases settled)
      (fun version pending => ?_) ⟨known, ?_⟩ (fun _ registered => by cases registered))
    · cases pending
      rw [same]
      exact ⟨rfl, rfl⟩
    · rw [← same]
      exact unused
  case h_2 here =>
    cases stepped
    exact once (mirrors.registration others here)
  case h_3 here =>
    cases stepped
    exact once (mirrors.listFirst others here)
  case h_4 registVersion keptVersion here =>
    rw [here] at known
    obtain ⟨registers, subscribed⟩ := known
    have same := mirrors.quiet others (by rw [here]; rfl)
    split at stepped
    · rename_i newer
      cases stepped
      have inside : service.registrar.version - 1 < network.registrar.version := by
        rw [same] at newer ⊢
        omega
      exact silently (mirrors.stutter others rfl (fun _ _ => rfl) (fun _ => same)
        (fun _ pending => by cases pending) ⟨registers, subscribed, newer, inside⟩
        fun _ registered => by rw [here]; exact registered)
    · cases stepped
      exact silently mirrors
  case h_5 here =>
    cases stepped
    exact once (mirrors.listIncrement others here)
  case h_6 registVersion keptVersion cversion reply here =>
    cases stepped
    have same := mirrors.quiet others (by rw [here]; rfl)
    rw [here] at known
    refine silently (mirrors.stutter others rfl (fun other apart => Function.update_of_ne apart ..)
      (fun _ => same) (fun _ pending => by cases pending) ?_
      fun _ registered => by rw [here]; exact registered)
    have sent : Function.update service.received handler (service.received handler ++ reply)
        handler = service.received handler ++ reply := Function.update_self ..
    exact ⟨known.1, known.2.trans (congrArg (fun sent : List NodeInfo =>
      some (⟨cversion, sent.foldl NodeRegist.execute fun _ => none⟩ : Subscriber)) sent.symm)⟩
  case h_7 registVersion keptVersion cversion reply here =>
    cases stepped
    have same := mirrors.quiet others (by rw [here]; rfl)
    rw [here] at known
    exact silently (mirrors.stutter others rfl (fun _ _ => rfl) (fun _ => same)
      (fun _ pending => by cases pending) known.1 fun _ registered => by rw [here]; exact registered)
  case h_8 registVersion keptVersion here =>
    cases stepped
    have same := mirrors.quiet others (by rw [here]; rfl)
    rw [here] at known
    exact silently (mirrors.stutter others rfl (fun _ _ => rfl) (fun _ => same)
      (fun _ pending => by cases pending) known.1 fun _ registered => by rw [here]; exact registered)
  case h_9 registVersion here =>
    cases stepped
    have same := mirrors.quiet others (by rw [here]; rfl)
    rw [here] at known
    refine silently (mirrors.stutter others rfl (fun _ _ => rfl) (fun settled => by cases settled)
      (fun version pending => ?_) known fun _ registered => by rw [here]; exact registered)
    cases pending
    rw [same]
    exact ⟨rfl, rfl⟩
  case h_10 here =>
    cases stepped
    exact once (mirrors.deregistration others here)
  case h_11 => cases stepped

end Steps

/-- Handlers that nothing divides go through a run of the network. -/
def undividedSimulation : Simulation machine Network.machine where
  related := Mirrors
  allowed := Undivided
  matched := fun mirrors undivided stepped => mirrors.step undivided stepped

theorem network_of_undivided {run : List (Nat × RegistMove)} {service : Service}
    (undivided : machine.Obeys Undivided initial run)
    (executed : machine.exec initial run = some service) :
    ∃ trace network, Network.machine.exec .initial trace = some network ∧
      Mirrors service network :=
  undividedSimulation.exec mirrors_initial undivided executed

/-- What a waiting handler has been sent is what the network has delivered to its subscriber. -/
theorem Mirrors.shown {service : Service} {network : Network} (mirrors : Mirrors service network)
    {handler registVersion keptVersion : Nat}
    (waits : service.handlers handler = .wait registVersion keptVersion) :
    network.subscribers registVersion = some ⟨keptVersion, service.shown handler⟩ := by
  have known := mirrors.known handler
  rw [waits] at known
  exact known.2

end Service

end ProtoCore.Discovery
