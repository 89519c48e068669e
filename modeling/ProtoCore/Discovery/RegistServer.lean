import ProtoCore.Discovery.HandlerConvergence
import ProtoCore.Discovery.UniqueNames
import ProtoCore.Library.Simulation

/-!
# The calls of `Regist`

A call looks for its name, waits on a condition variable while the name is alive, registers its
node, and then waits on the same condition variable for newer versions. The mutex of the
condition variable does not cover the changes of the registrar, so a notification may come
between a test and the wait that follows it; the health check notifies all waiting calls from
time to time.
-/

set_option autoImplicit false

namespace ProtoCore.Discovery

open Library Library.CompactedLog

inductive CallPc where
  | findExistNode
  | lockName
  | evaluateName
  | parkName
  | parkedName
  | admitted
  | takeVersion
  | registration (registVersion : Nat)
  | listFirst (registVersion : Nat)
  | writeFirst (registVersion : Nat) (reply : List NodeInfo)
  | notifyFirst (registVersion : Nat)
  | loop (registVersion keptVersion : Nat)
  | test (registVersion keptVersion : Nat)
  | lock (registVersion keptVersion : Nat)
  | park (registVersion keptVersion : Nat)
  | parked (registVersion keptVersion : Nat)
  | relock (registVersion keptVersion : Nat)
  | readVersion (registVersion keptVersion : Nat)
  | list (registVersion keptVersion cversion : Nat)
  | write (registVersion keptVersion cversion : Nat) (reply : List NodeInfo)
  | leave (registVersion : Nat)
  | deregistration (registVersion deletedVersion : Nat)
  | notifyLast
  | withdrawn
  | done
  deriving DecidableEq

namespace CallPc

/-- A call there holds the mutex of the condition variable. -/
def holding : CallPc → Bool
  | .evaluateName | .parkName | .admitted | .park .. | .readVersion .. | .list .. | .write .. => true
  | _ => false

def returned : CallPc → Bool
  | .withdrawn | .done => true
  | _ => false

/-- What `notify_all` does to a call. -/
def wake : CallPc → CallPc
  | .parkedName => .lockName
  | .parked registVersion keptVersion => .relock registVersion keptVersion
  | pc => pc

/-- The first reply, while it is not yet written. -/
def firstReply : CallPc → List NodeInfo
  | .writeFirst _ reply => reply
  | _ => []

/-- The version whose slot has the node of the call. -/
def live : CallPc → Option Nat
  | .listFirst registVersion | .writeFirst registVersion _ | .notifyFirst registVersion
  | .loop registVersion _ | .test registVersion _ | .lock registVersion _
  | .park registVersion _ | .parked registVersion _ | .relock registVersion _
  | .readVersion registVersion _ | .list registVersion _ _ | .write registVersion _ _ _
  | .leave registVersion | .deregistration registVersion _ => some registVersion
  | _ => none

end CallPc

/-- A call with its context. A write fails from when the stream of the caller is broken. -/
structure RegistCall where
  info : NodeInfo
  pc : CallPc := .findExistNode
  cancelled : Bool := false
  broken : Bool := false
  sent : List NodeInfo := []
  deriving DecidableEq

namespace RegistCall

def goTo (call : RegistCall) (pc : CallPc) : RegistCall := { call with pc := pc }

def wake (call : RegistCall) : RegistCall := call.goTo call.pc.wake

def send (call : RegistCall) (reply : List NodeInfo) : RegistCall :=
  if call.broken then call else { call with sent := call.sent ++ reply }

end RegistCall

def Registrar.listed (registrar : Registrar) (start stop : Nat) : List NodeInfo :=
  match registrar.list start ((stop : Int) - 1) with
  | some reply => reply.operationCmd
  | none => []

/-- The `mtx` here is the one of the condition variable, that of the registrar is held within
one step. -/
structure RegistServer where
  registrar : Registrar
  calls : List RegistCall
  mtx : Option Nat
  ok : Bool
  deriving DecidableEq

/-- What one step of a call does. -/
structure CallEffect where
  registrar : Registrar
  mtx : Option Nat
  call : RegistCall
  notifies : Bool

inductive RegistServerAction where
  | regist (info : NodeInfo)
  | run (id : Nat)
  | spuriousWake (id : Nat)
  | cancel (id : Nat)
  | breakStream (id : Nat)
  | healthyCheck
  | setAbort
  deriving DecidableEq

namespace RegistServer

def initial : RegistServer where
  registrar := Registrar.empty
  calls := []
  mtx := none
  ok := true

def moves (server : RegistServer) (call : RegistCall) : CallEffect :=
  ⟨server.registrar, server.mtx, call, false⟩

def acquires (server : RegistServer) (id : Nat) (call : RegistCall) : Option CallEffect :=
  if server.mtx.isNone then some ⟨server.registrar, some id, call, false⟩ else none

def releases (server : RegistServer) (call : RegistCall) : CallEffect :=
  ⟨server.registrar, none, call, false⟩

def notifies (server : RegistServer) (call : RegistCall) : CallEffect :=
  ⟨server.registrar, server.mtx, call, true⟩

def changes (server : RegistServer) (registrar : Registrar) (call : RegistCall) : CallEffect :=
  ⟨registrar, server.mtx, call, false⟩

/-- The next step of a call, if it is not waiting. -/
def effect (server : RegistServer) (id : Nat) (call : RegistCall) : Option CallEffect :=
  let registrar := server.registrar
  match call.pc with
  | .findExistNode =>
      some (server.moves (call.goTo
        (if registrar.findExistNode call.info.nodeName then .lockName else .takeVersion)))
  | .lockName => server.acquires id (call.goTo .evaluateName)
  | .evaluateName =>
      some (server.moves (call.goTo
        (if !registrar.findExistNode call.info.nodeName || call.cancelled then .admitted
         else .parkName)))
  | .parkName => some (server.releases (call.goTo .parkedName))
  | .parkedName => none
  | .admitted =>
      some (server.releases (call.goTo (if call.cancelled then .withdrawn else .takeVersion)))
  | .takeVersion =>
      let (registVersion, registrar) := registrar.takeVersion
      some (server.changes registrar (call.goTo (.registration registVersion)))
  | .registration registVersion =>
      some (server.changes (registrar.registration registVersion call.info.nodeName call.info.ip
        call.info.port) (call.goTo (.listFirst registVersion)))
  | .listFirst registVersion =>
      some (server.moves (call.goTo (.writeFirst registVersion (registrar.listed 0 registVersion))))
  | .writeFirst registVersion reply =>
      some (server.moves ((call.send reply).goTo (.notifyFirst registVersion)))
  | .notifyFirst registVersion =>
      some (server.notifies (call.goTo (.loop registVersion registVersion)))
  | .loop registVersion keptVersion =>
      some (server.moves (call.goTo
        (if server.ok then .test registVersion keptVersion else .leave registVersion)))
  | .test registVersion keptVersion =>
      some (server.moves (call.goTo
        (if call.cancelled then .leave registVersion else .lock registVersion keptVersion)))
  | .lock registVersion keptVersion =>
      server.acquires id (call.goTo (.park registVersion keptVersion))
  | .park registVersion keptVersion =>
      some (server.releases (call.goTo (.parked registVersion keptVersion)))
  | .parked _ _ => none
  | .relock registVersion keptVersion =>
      server.acquires id (call.goTo (.readVersion registVersion keptVersion))
  | .readVersion registVersion keptVersion =>
      let cversion := registrar.version - 1
      if keptVersion + 1 ≤ cversion then
        some (server.moves (call.goTo (.list registVersion keptVersion cversion)))
      else some (server.releases (call.goTo (.loop registVersion keptVersion)))
  | .list registVersion keptVersion cversion =>
      some (server.moves (call.goTo (.write registVersion keptVersion cversion
        (registrar.listed (keptVersion + 1) (cversion + 1)))))
  | .write registVersion _ cversion reply =>
      some (server.releases ((call.send reply).goTo
        (if call.broken then .leave registVersion else .loop registVersion cversion)))
  | .leave registVersion =>
      let (deletedVersion, registrar) := registrar.takeVersion
      some (server.changes registrar (call.goTo (.deregistration registVersion deletedVersion)))
  | .deregistration registVersion deletedVersion =>
      some (server.changes (registrar.deregistration registVersion deletedVersion)
        (call.goTo .notifyLast))
  | .notifyLast => some (server.notifies (call.goTo .done))
  | .withdrawn => none
  | .done => none

def notifyAll (server : RegistServer) : RegistServer :=
  { server with calls := server.calls.map RegistCall.wake }

def apply (server : RegistServer) (id : Nat) (effect : CallEffect) : RegistServer :=
  { server with
    registrar := effect.registrar
    mtx := effect.mtx
    calls := (if effect.notifies then server.notifyAll.calls else server.calls).set id effect.call }

def setCall (server : RegistServer) (id : Nat) (call : RegistCall) : RegistServer :=
  { server with calls := server.calls.set id call }

def step (server : RegistServer) : RegistServerAction → Option RegistServer
  | .regist info => some { server with calls := server.calls ++ [{ info := info }] }
  | .run id => (server.calls[id]?).bind fun call => (server.effect id call).map (server.apply id)
  | .spuriousWake id => (server.calls[id]?).map fun call => server.setCall id call.wake
  | .cancel id =>
      (server.calls[id]?).map fun call => server.setCall id { call with cancelled := true }
  | .breakStream id =>
      (server.calls[id]?).map fun call => server.setCall id { call with broken := true }
  | .healthyCheck => if server.ok then some server.notifyAll else none
  | .setAbort => some { server with ok := false }

def machine : Machine RegistServer RegistServerAction := ⟨step⟩

/-! ## The calls one by one -/

theorem wake_getElem? (calls : List RegistCall) (id : Nat) :
    (calls.map RegistCall.wake)[id]? = (calls[id]?).map RegistCall.wake :=
  List.getElem?_map ..

theorem apply_self {server : RegistServer} {id : Nat} {call : RegistCall} {effect : CallEffect}
    (found : server.calls[id]? = some call) :
    (server.apply id effect).calls[id]? = some effect.call := by
  have inside := (List.getElem?_eq_some_iff.mp found).1
  refine List.getElem?_set_self ?_
  split
  · exact Nat.lt_of_lt_of_eq inside (List.length_map _).symm
  · exact inside

theorem apply_other {server : RegistServer} {id other : Nat} (effect : CallEffect)
    (apart : other ≠ id) :
    (server.apply id effect).calls[other]? =
      if effect.notifies then (server.calls[other]?).map RegistCall.wake
      else server.calls[other]? := by
  refine (List.getElem?_set_ne (Ne.symm apart)).trans ?_
  split
  · exact wake_getElem? server.calls other
  · rfl

theorem setCall_getElem? {server : RegistServer} {id : Nat} {call : RegistCall}
    (found : server.calls[id]? = some call) (later : RegistCall) (other : Nat) :
    (server.setCall id later).calls[other]? =
      if other = id then some later else server.calls[other]? := by
  split
  · rename_i here
    rw [here]
    exact List.getElem?_set_self (List.getElem?_eq_some_iff.mp found).1
  · rename_i apart
    exact List.getElem?_set_ne (Ne.symm apart)

end RegistServer

/-- What may happen to a call while it does not run. -/
structure RegistCall.Touched (call later : RegistCall) : Prop where
  info : later.info = call.info
  pc : later.pc = call.pc ∨ later.pc = call.pc.wake
  cancelled : later.cancelled = false → call.cancelled = false
  broken : later.broken = false → call.broken = false
  sent : later.sent = call.sent

namespace RegistCall

theorem Touched.refl (call : RegistCall) : call.Touched call :=
  ⟨rfl, .inl rfl, fun open' => open', fun whole => whole, rfl⟩

theorem Touched.woken (call : RegistCall) : call.Touched call.wake :=
  ⟨rfl, .inr rfl, fun open' => open', fun whole => whole, rfl⟩

/-- What does not see the difference between a call that waits and one that is woken. -/
theorem Touched.same {Value : Type} {view : CallPc → Value} {call later : RegistCall}
    (touched : call.Touched later) (blind : ∀ pc : CallPc, view pc.wake = view pc) :
    view later.pc = view call.pc := by
  rcases touched.pc with same | woken
  · rw [same]
  · rw [woken, blind]

theorem Touched.holding {call later : RegistCall} (touched : call.Touched later) :
    later.pc.holding = call.pc.holding :=
  touched.same fun pc => by cases pc <;> rfl

theorem Touched.live {call later : RegistCall} (touched : call.Touched later) :
    later.pc.live = call.pc.live :=
  touched.same fun pc => by cases pc <;> rfl

theorem Touched.firstReply {call later : RegistCall} (touched : call.Touched later) :
    later.pc.firstReply = call.pc.firstReply :=
  touched.same fun pc => by cases pc <;> rfl

end RegistCall

namespace RegistServer

/-- The calls that do not act in a step are only touched, and a new one may have come. -/
structure Around (acts : Nat → Prop) (server next : RegistServer) : Prop where
  before : ∀ {id : Nat} {call : RegistCall}, ¬ acts id → server.calls[id]? = some call →
    ∃ later, next.calls[id]? = some later ∧ call.Touched later
  after : ∀ {id : Nat} {later : RegistCall}, ¬ acts id → next.calls[id]? = some later →
    (∃ call, server.calls[id]? = some call ∧ call.Touched later) ∨
      server.calls[id]? = none ∧ ∃ info, later = { info := info }

theorem Around.of_getElem? {acts : Nat → Prop} {server next : RegistServer}
    (same : ∀ id, ¬ acts id → next.calls[id]? = server.calls[id]? ∨
      ∃ call later, server.calls[id]? = some call ∧ next.calls[id]? = some later ∧
        call.Touched later) : Around acts server next where
  before {id call} idle found := by
    rcases same id idle with unchanged | ⟨known, later, located, reached, touched⟩
    · exact ⟨call, unchanged.trans found, RegistCall.Touched.refl call⟩
    · cases located.symm.trans found
      exact ⟨later, reached, touched⟩
  after {id later} idle found := by
    rcases same id idle with unchanged | ⟨call, known, located, reached, touched⟩
    · exact .inl ⟨later, unchanged.symm.trans found, RegistCall.Touched.refl later⟩
    · cases reached.symm.trans found
      exact .inl ⟨call, located, touched⟩

theorem woken_or_same (server : RegistServer) (id : Nat) :
    server.notifyAll.calls[id]? = server.calls[id]? ∨
      ∃ call later, server.calls[id]? = some call ∧ server.notifyAll.calls[id]? = some later ∧
        call.Touched later := by
  have woken := wake_getElem? server.calls id
  cases found : server.calls[id]? with
  | none =>
      rw [found] at woken
      exact .inl woken
  | some call =>
      rw [found] at woken
      exact .inr ⟨call, call.wake, rfl, woken, RegistCall.Touched.woken call⟩

theorem around_apply (server : RegistServer) (id : Nat) (effect : CallEffect) :
    Around (· = id) server (server.apply id effect) := by
  refine Around.of_getElem? fun other apart => ?_
  rw [apply_other effect apart]
  split
  · rw [← wake_getElem?]
    exact server.woken_or_same other
  · exact .inl rfl

theorem around_setCall {server : RegistServer} {id : Nat} {call later : RegistCall}
    (found : server.calls[id]? = some call) (touched : call.Touched later) :
    Around (fun _ => False) server (server.setCall id later) := by
  refine Around.of_getElem? fun other _ => ?_
  rw [setCall_getElem? found]
  split
  · rename_i here
    exact .inr ⟨call, later, here ▸ found, rfl, touched⟩
  · exact .inl rfl

/-- A step is one of a call, or the calls are only touched. -/
theorem step_cases {server next : RegistServer} {action : RegistServerAction}
    (stepped : server.step action = some next) :
    (∃ id call effect, action = .run id ∧ server.calls[id]? = some call ∧
      server.effect id call = some effect ∧ next = server.apply id effect) ∨
    (next.registrar = server.registrar ∧ next.mtx = server.mtx ∧
      Around (fun _ => False) server next) := by
  cases action with
  | regist info =>
      cases stepped
      refine .inr ⟨rfl, rfl, ⟨fun {id call} _ found => ⟨call, ?_, RegistCall.Touched.refl call⟩,
        fun {id later} _ found => ?_⟩⟩
      · exact (List.getElem?_append_left (List.getElem?_eq_some_iff.mp found).1).trans found
      · rcases getElem?_concat_eq_some found with earlier | ⟨rfl, rfl⟩
        · exact .inl ⟨later, earlier, RegistCall.Touched.refl later⟩
        · exact .inr ⟨List.getElem?_eq_none (Nat.le_refl _), info, rfl⟩
  | run id =>
      obtain ⟨call, found, stepped⟩ := Option.bind_eq_some_iff.mp stepped
      obtain ⟨effect, effected, rfl⟩ := Option.map_eq_some_iff.mp stepped
      exact .inl ⟨id, call, effect, rfl, found, effected, rfl⟩
  | spuriousWake id =>
      obtain ⟨call, found, rfl⟩ := Option.map_eq_some_iff.mp stepped
      exact .inr ⟨rfl, rfl, around_setCall found (RegistCall.Touched.woken call)⟩
  | cancel id =>
      obtain ⟨call, found, rfl⟩ := Option.map_eq_some_iff.mp stepped
      exact .inr ⟨rfl, rfl, around_setCall found
        ⟨rfl, .inl rfl, Bool.noConfusion, fun whole => whole, rfl⟩⟩
  | breakStream id =>
      obtain ⟨call, found, rfl⟩ := Option.map_eq_some_iff.mp stepped
      exact .inr ⟨rfl, rfl, around_setCall found
        ⟨rfl, .inl rfl, fun open' => open', Bool.noConfusion, rfl⟩⟩
  | healthyCheck =>
      simp only [step, Option.ite_none_right_eq_some, Option.some.injEq] at stepped
      obtain ⟨_, rfl⟩ := stepped
      exact .inr ⟨rfl, rfl, Around.of_getElem? fun id _ => server.woken_or_same id⟩
  | setAbort =>
      cases stepped
      exact .inr ⟨rfl, rfl, Around.of_getElem? fun _ _ => .inl rfl⟩

/-! ## The mutex -/

/-- The owner of the mutex is the one call that holds it. -/
def Locked (server : RegistServer) : Prop :=
  ∀ id, server.mtx = some id ↔ ∃ call, server.calls[id]? = some call ∧ call.pc.holding = true

theorem locked_initial : initial.Locked := by
  intro id
  constructor
  · intro owned
    cases owned
  · rintro ⟨_, found, _⟩
    cases found

theorem effect_mtx {server : RegistServer} {id : Nat} {call : RegistCall} {result : CallEffect}
    (effected : server.effect id call = some result) :
    (result.mtx = server.mtx ∧ result.call.pc.holding = call.pc.holding) ∨
    (server.mtx = none ∧ result.mtx = some id ∧ result.call.pc.holding = true) ∨
    (result.mtx = none ∧ call.pc.holding = true ∧ result.call.pc.holding = false) := by
  obtain ⟨info, pc, cancelled, broken, sent⟩ := call
  cases pc with
  | lockName | lock | relock =>
      simp only [effect, acquires, Option.ite_none_right_eq_some, Option.some.injEq,
        Option.isNone_iff_eq_none] at effected
      obtain ⟨free, rfl⟩ := effected
      exact .inr (.inl ⟨free, rfl, rfl⟩)
  | parkName | park =>
      cases effected
      exact .inr (.inr ⟨rfl, rfl, rfl⟩)
  | admitted =>
      cases effected
      cases cancelled with
      | false | true => exact .inr (.inr ⟨rfl, rfl, rfl⟩)
  | write registVersion keptVersion cversion reply =>
      cases effected
      cases broken with
      | false | true => exact .inr (.inr ⟨rfl, rfl, rfl⟩)
  | readVersion registVersion keptVersion =>
      simp only [effect] at effected
      split at effected
      · cases effected
        exact .inl ⟨rfl, rfl⟩
      · cases effected
        exact .inr (.inr ⟨rfl, rfl, rfl⟩)
  | parkedName | parked | withdrawn | done => cases effected
  | findExistNode | evaluateName | loop | test =>
      cases effected
      refine .inl ⟨rfl, ?_⟩
      simp only [moves, RegistCall.goTo]
      split <;> rfl
  | _ =>
      cases effected
      exact .inl ⟨rfl, rfl⟩

theorem Around.holding {acts : Nat → Prop} {server next : RegistServer}
    (around : Around acts server next) {id : Nat} (idle : ¬ acts id) :
    (∃ later, next.calls[id]? = some later ∧ later.pc.holding = true) ↔
      ∃ call, server.calls[id]? = some call ∧ call.pc.holding = true := by
  constructor
  · rintro ⟨later, found, holds⟩
    rcases around.after idle found with ⟨call, located, touched⟩ | ⟨_, info, rfl⟩
    · exact ⟨call, located, touched.holding ▸ holds⟩
    · cases holds
  · rintro ⟨call, found, holds⟩
    obtain ⟨later, located, touched⟩ := around.before idle found
    exact ⟨later, located, touched.holding ▸ holds⟩

theorem Locked.run {server : RegistServer} (locked : server.Locked) {id : Nat} {call : RegistCall}
    (found : server.calls[id]? = some call) {result : CallEffect}
    (effected : server.effect id call = some result) : (server.apply id result).Locked := by
  have around := server.around_apply id result
  have self : (∃ later, (server.apply id result).calls[id]? = some later ∧
      later.pc.holding = true) ↔ result.call.pc.holding = true := by
    rw [apply_self found]
    simp only [Option.some.injEq, exists_eq_left']
  have own : server.mtx = some id ↔ call.pc.holding = true := by
    rw [locked id, found]
    simp only [Option.some.injEq, exists_eq_left']
  intro other
  change result.mtx = some other ↔ _
  by_cases here : other = id
  · subst here
    rw [self]
    rcases effect_mtx effected with ⟨mtx, same⟩ | ⟨_, mtx, holds⟩ | ⟨mtx, _, leaves⟩
    · rw [mtx, same, own]
    · exact ⟨fun _ => holds, fun _ => mtx⟩
    · rw [mtx, leaves]
      exact iff_of_false (Option.some_ne_none other).symm Bool.noConfusion
  · rw [around.holding here, ← locked other]
    rcases effect_mtx effected with ⟨mtx, _⟩ | ⟨free, mtx, _⟩ | ⟨mtx, holds, _⟩
    · rw [mtx]
    · rw [mtx, free]
      refine iff_of_false (fun owned => ?_) (Option.some_ne_none other).symm
      exact here (Option.some.inj owned).symm
    · rw [mtx, own.mpr holds]
      refine iff_of_false (Option.some_ne_none other).symm fun owned => ?_
      exact here (Option.some.inj owned).symm

theorem Locked.step {server next : RegistServer} {action : RegistServerAction}
    (locked : server.Locked) (stepped : server.step action = some next) : next.Locked := by
  rcases step_cases stepped with ⟨id, call, result, -, found, effected, rfl⟩ | ⟨-, mtx, around⟩
  · exact locked.run found effected
  · intro id
    rw [mtx, locked id, around.holding not_false]

end RegistServer

/-! ## The handlers behind the calls -/

/-- The versions that a call has to do with. -/
def CallPc.regist (info : NodeInfo) : CallPc → RegistPc
  | .findExistNode | .lockName | .evaluateName | .parkName | .parkedName | .admitted
  | .takeVersion | .withdrawn => .idle
  | .registration registVersion =>
      .registration registVersion info.nodeName info.ip info.port
  | .listFirst registVersion => .listFirst registVersion
  | .writeFirst registVersion _ | .notifyFirst registVersion => .wait registVersion registVersion
  | .loop registVersion keptVersion | .test registVersion keptVersion
  | .lock registVersion keptVersion | .park registVersion keptVersion
  | .parked registVersion keptVersion | .relock registVersion keptVersion
  | .readVersion registVersion keptVersion => .wait registVersion keptVersion
  | .list registVersion keptVersion cversion => .listIncrement registVersion keptVersion cversion
  | .write registVersion keptVersion cversion reply =>
      .write registVersion keptVersion cversion reply
  | .leave registVersion => .leave registVersion
  | .deregistration registVersion deletedVersion => .deregistration registVersion deletedVersion
  | .notifyLast | .done => .done

namespace RegistCall

def regist (call : RegistCall) : RegistPc := call.pc.regist call.info

def node (call : RegistCall) : NodeInfo :=
  ⟨call.info.ip, call.info.port, call.info.nodeName, .add⟩

theorem Touched.regist {call later : RegistCall} (touched : call.Touched later) :
    later.regist = call.regist := by
  rw [RegistCall.regist, touched.info]
  exact touched.same fun pc => by cases pc <;> rfl

theorem Touched.node {call later : RegistCall} (touched : call.Touched later) :
    later.node = call.node := by
  rw [RegistCall.node, touched.info, RegistCall.node]

end RegistCall

def RegistServer.handler (server : RegistServer) (id : Nat) : RegistPc :=
  ((server.calls[id]?).map RegistCall.regist).getD .idle

/-- The server without its condition variable. A caller whose stream is not broken has been sent
what the handler behind it has been sent. -/
structure Behind (server : RegistServer) (service : Service) : Prop where
  registrar : service.registrar = server.registrar
  handlers : ∀ id, service.handlers id = server.handler id
  received : ∀ {id : Nat} {call : RegistCall}, server.calls[id]? = some call →
    call.broken = false → service.received id = call.sent ++ call.pc.firstReply
  absent : ∀ {id : Nat}, server.calls[id]? = none → service.received id = []
  written : ∀ {id : Nat} {call : RegistCall} {registVersion : Nat},
    server.calls[id]? = some call → call.pc.live = some registVersion →
    (registVersion, call.node) ∈ service.writes

theorem behind_initial : Behind RegistServer.initial Service.initial where
  registrar := rfl
  handlers _ := rfl
  received found := by cases found
  absent _ := rfl
  written found := by cases found

theorem RegistServer.handler_of_found {server : RegistServer} {id : Nat} {call : RegistCall}
    (found : server.calls[id]? = some call) : server.handler id = call.regist := by
  rw [handler, found]
  rfl

namespace RegistServer.Around

variable {acts : Nat → Prop} {server next : RegistServer}

theorem handler (around : Around acts server next) {id : Nat} (idle : ¬ acts id) :
    next.handler id = server.handler id := by
  cases located : next.calls[id]? with
  | none =>
      cases found : server.calls[id]? with
      | none => rw [RegistServer.handler, RegistServer.handler, located, found]
      | some call =>
          obtain ⟨later, known, _⟩ := around.before idle found
          cases located.symm.trans known
  | some later =>
      rw [handler_of_found located]
      rcases around.after idle located with ⟨call, found, touched⟩ | ⟨absent, info, rfl⟩
      · rw [handler_of_found found, touched.regist]
      · rw [RegistServer.handler, absent]
        rfl

end RegistServer.Around

/-- The calls that do not act stay behind the same handlers. -/
theorem Behind.around {acts : Nat → Prop} {server next : RegistServer} {service after : Service}
    (behind : Behind server service) (around : server.Around acts next)
    (registrar : after.registrar = next.registrar)
    (handlers : ∀ id, ¬ acts id → after.handlers id = service.handlers id)
    (received : ∀ id, ¬ acts id → after.received id = service.received id)
    (writes : ∀ entry ∈ service.writes, entry ∈ after.writes)
    (acting : ∀ id, acts id → ∃ call, next.calls[id]? = some call ∧
      after.handlers id = call.regist ∧
      (call.broken = false → after.received id = call.sent ++ call.pc.firstReply) ∧
      ∀ registVersion, call.pc.live = some registVersion →
        (registVersion, call.node) ∈ after.writes) : Behind next after where
  registrar := registrar
  handlers id := by
    by_cases active : acts id
    · obtain ⟨call, found, pc, _⟩ := acting id active
      rw [pc, RegistServer.handler_of_found found]
    · rw [handlers id active, behind.handlers, around.handler active]
  received {id later} found whole := by
    by_cases active : acts id
    · obtain ⟨call, located, _, sent, _⟩ := acting id active
      cases located.symm.trans found
      exact sent whole
    · rw [received id active]
      rcases around.after active found with ⟨call, located, touched⟩ | ⟨absent, info, rfl⟩
      · rw [behind.received located (touched.broken whole), touched.sent, touched.firstReply]
      · exact behind.absent absent
  absent {id} missing := by
    by_cases active : acts id
    · obtain ⟨call, located, _⟩ := acting id active
      cases located.symm.trans missing
    · rw [received id active]
      cases found : server.calls[id]? with
      | none => exact behind.absent found
      | some call =>
          obtain ⟨later, located, _⟩ := around.before active found
          cases located.symm.trans missing
  written {id later registVersion} found living := by
    by_cases active : acts id
    · obtain ⟨call, located, _, _, wrote⟩ := acting id active
      cases located.symm.trans found
      exact wrote registVersion living
    · rcases around.after active found with ⟨call, located, touched⟩ | ⟨_, info, rfl⟩
      · rw [touched.node]
        exact writes _ (behind.written located (touched.live.symm.trans living))
      · cases living

/-- The step of a call and the step of the handler behind it. -/
theorem Behind.apply {server : RegistServer} {service after : Service}
    (behind : Behind server service) {id : Nat} {call : RegistCall}
    (found : server.calls[id]? = some call) {result : CallEffect}
    (registrar : after.registrar = result.registrar)
    (handlers : after.handlers = Function.update service.handlers id result.call.regist)
    (received : ∀ other, other ≠ id → after.received other = service.received other)
    (writes : ∀ entry ∈ service.writes, entry ∈ after.writes)
    (sent : result.call.broken = false →
      after.received id = result.call.sent ++ result.call.pc.firstReply)
    (wrote : ∀ registVersion, result.call.pc.live = some registVersion →
      (registVersion, result.call.node) ∈ after.writes) :
    Behind (server.apply id result) after := by
  refine behind.around (server.around_apply id result) registrar (fun other apart => ?_)
    received writes ?_
  · rw [handlers]
    exact Function.update_of_ne apart _ _
  · rintro _ rfl
    refine ⟨result.call, RegistServer.apply_self found, ?_, sent, wrote⟩
    rw [handlers]
    exact Function.update_self ..

/-- A step of a call that the handler behind it does not make. -/
theorem Behind.stays {server : RegistServer} {service : Service} (behind : Behind server service)
    {id : Nat} {call : RegistCall} (found : server.calls[id]? = some call) {result : CallEffect}
    (registrar : result.registrar = server.registrar)
    (regist : result.call.regist = call.regist) (live : result.call.pc.live = call.pc.live)
    (node : result.call.node = call.node)
    (sent : result.call.broken = false → call.broken = false ∧
      call.sent ++ call.pc.firstReply = result.call.sent ++ result.call.pc.firstReply) :
    Behind (server.apply id result) service := by
  refine behind.apply found (behind.registrar.trans registrar.symm) ?_ (fun _ _ => rfl)
    (fun _ member => member) (fun whole => ?_) (fun registVersion living => ?_)
  · rw [regist, ← RegistServer.handler_of_found found, ← behind.handlers, Function.update_eq_self]
  · obtain ⟨before, same⟩ := sent whole
    rw [behind.received found before, same]
  · rw [node]
    exact behind.written found (live.symm.trans living)

/-- The call goes on, and the handler behind it does not. -/
theorem Behind.goesOn {server : RegistServer} {service : Service} (behind : Behind server service)
    {id : Nat} {call : RegistCall} (found : server.calls[id]? = some call) {pc : CallPc}
    {result : CallEffect} (registrar : result.registrar = server.registrar)
    (moved : result.call = call.goTo pc) (regist : pc.regist call.info = call.regist)
    (live : pc.live = call.pc.live) (firstReply : pc.firstReply = call.pc.firstReply) :
    Behind (server.apply id result) service := by
  have plain : result.call.info = call.info ∧ result.call.broken = call.broken ∧
      result.call.sent = call.sent ∧ result.call.pc = pc := by
    rw [moved]
    exact ⟨rfl, rfl, rfl, rfl⟩
  obtain ⟨info, broken, sent, here⟩ := plain
  refine behind.stays found registrar ?_ (by rw [here, live]) ?_ fun whole => ?_
  · rw [RegistCall.regist, info, here, regist]
  · rw [RegistCall.node, info, RegistCall.node]
  · rw [sent, here, firstReply]
    exact ⟨broken.symm.trans whole, rfl⟩

/-- The step of the handler behind a call. -/
def Matched (server : RegistServer) (service : Service) (id : Nat) (call : RegistCall)
    (result : CallEffect) : Prop :=
  ∃ move after, service.step (id, move) = some after ∧ Behind (server.apply id result) after ∧
    ∀ nodeName ip port, move = .takeVersion nodeName ip port →
      call.pc = .takeVersion ∧ nodeName = call.info.nodeName

/-- The handler behind the call goes on without changing the registrar. -/
theorem Behind.follows {server : RegistServer} {service : Service}
    (behind : Behind server service) {id : Nat} {call : RegistCall}
    (found : server.calls[id]? = some call) {pc : CallPc} {result : CallEffect}
    (registrar : result.registrar = server.registrar) (moved : result.call = call.goTo pc)
    (live : ∀ registVersion, pc.live = some registVersion → call.pc.live = some registVersion)
    (firstReply : pc.firstReply = call.pc.firstReply) (move : RegistMove)
    (taken : ∀ nodeName ip port, move ≠ .takeVersion nodeName ip port)
    (stepped : service.step (id, move) = some (service.moveTo id (pc.regist call.info))) :
    Matched server service id call result := by
  have plain : result.call.info = call.info ∧ result.call.broken = call.broken ∧
      result.call.sent = call.sent ∧ result.call.pc = pc := by
    rw [moved]
    exact ⟨rfl, rfl, rfl, rfl⟩
  obtain ⟨info, broken, sent, here⟩ := plain
  refine ⟨move, _, stepped, behind.apply found (behind.registrar.trans registrar.symm) ?_
    (fun _ _ => rfl) (fun _ member => member) (fun whole => ?_) (fun registVersion living => ?_),
    fun nodeName ip port same => absurd same (taken nodeName ip port)⟩
  · rw [RegistCall.regist, info, here]
    rfl
  · rw [sent, here, firstReply]
    exact behind.received found (broken.symm.trans whole)
  · rw [RegistCall.node, info]
    exact behind.written found (live registVersion (by rw [← here, living]))

theorem Behind.run {server : RegistServer} {service : Service} (behind : Behind server service)
    {id : Nat} {call : RegistCall} (found : server.calls[id]? = some call) {result : CallEffect}
    (effected : server.effect id call = some result) :
    Behind (server.apply id result) service ∨ Matched server service id call result := by
  obtain ⟨info, pc, cancelled, broken, sent⟩ := call
  have here : service.handlers id = pc.regist info :=
    (behind.handlers id).trans (RegistServer.handler_of_found found)
  have registrar := behind.registrar
  have received : broken = false → service.received id = sent ++ pc.firstReply :=
    behind.received found
  have written (version : Nat) (living : pc.live = some version) :
      (version, ⟨info.ip, info.port, info.nodeName, .add⟩) ∈ service.writes :=
    behind.written found living
  cases pc with
  | findExistNode | evaluateName | admitted =>
      cases effected
      refine .inl (behind.goesOn found rfl rfl ?_ ?_ ?_) <;> split <;> rfl
  | lockName | lock | relock =>
      simp only [RegistServer.effect, RegistServer.acquires, Option.ite_none_right_eq_some,
        Option.some.injEq] at effected
      obtain ⟨_, rfl⟩ := effected
      exact .inl (behind.goesOn found rfl rfl rfl rfl rfl)
  | parkName | park | notifyFirst | notifyLast =>
      cases effected
      exact .inl (behind.goesOn found rfl rfl rfl rfl rfl)
  | takeVersion =>
      cases effected
      have stepped : service.step (id, .takeVersion info.nodeName info.ip info.port) =
          some ({ service with registrar := service.registrar.takeVersion.2 }.moveTo id
            (.registration service.registrar.version info.nodeName info.ip info.port)) := by
        simp only [Service.step, here]
        rfl
      refine .inr ⟨_, _, stepped, behind.apply found ?_ ?_ (fun _ _ => rfl)
        (fun _ member => member) received
        (fun _ living => by cases living), fun nodeName ip port same => ?_⟩
      · rw [registrar]
        rfl
      · rw [registrar]
        rfl
      · cases same
        exact ⟨rfl, rfl⟩
  | registration registVersion =>
      cases effected
      have stepped : service.step (id, .registration) =
          some (service.store id
            (service.registrar.registration registVersion info.nodeName info.ip info.port)
            registVersion ⟨info.ip, info.port, info.nodeName, .add⟩ (.listFirst registVersion)) := by
        simp only [Service.step, here]
        rfl
      refine .inr ⟨_, _, stepped, behind.apply found ?_ rfl (fun _ _ => rfl)
        (fun _ member => List.mem_cons_of_mem _ member)
        received (fun version living => ?_), fun _ _ _ same => by cases same⟩
      · rw [registrar]
        rfl
      · cases living
        exact List.mem_cons_self
  | listFirst registVersion =>
      cases effected
      have stepped : service.step (id, .list) = some { service with
          handlers := Function.update service.handlers id (.wait registVersion registVersion)
          received := Function.update service.received id
            (service.received id ++ service.registrar.listed 0 registVersion)
          misread := service.misread ++ (service.readRange 0 registVersion).2 } := by
        simp only [Service.step, here]
        rfl
      refine .inr ⟨_, _, stepped, behind.apply found registrar rfl
        (fun other apart => Function.update_of_ne apart _ _) (fun _ member => member)
        (fun whole => ?_) written, fun _ _ _ same => by cases same⟩
      simp only [Function.update_self, received whole, registrar]
      exact congrArg (· ++ _) (List.append_nil sent)
  | writeFirst registVersion reply =>
      cases effected
      refine .inl (behind.stays found rfl ?_ rfl ?_ fun whole => ?_)
      · cases broken <;> rfl
      · cases broken <;> rfl
      · cases broken with
        | true => cases whole
        | false => exact ⟨rfl, (List.append_nil _).symm⟩
  | loop registVersion keptVersion =>
      cases effected
      cases server.ok with
      | true => exact .inl (behind.goesOn found rfl rfl rfl rfl rfl)
      | false =>
          have stepped : service.step (id, .cancelled) =
              some (service.moveTo id (.leave registVersion)) := by
            simp only [Service.step, here]
            rfl
          exact .inr (behind.follows found rfl rfl (fun _ living => living) rfl .cancelled
            (fun _ _ _ same => by cases same) stepped)
  | test registVersion keptVersion =>
      cases effected
      cases cancelled with
      | false => exact .inl (behind.goesOn found rfl rfl rfl rfl rfl)
      | true =>
          have stepped : service.step (id, .cancelled) =
              some (service.moveTo id (.leave registVersion)) := by
            simp only [Service.step, here]
            rfl
          exact .inr (behind.follows found rfl rfl (fun _ living => living) rfl .cancelled
            (fun _ _ _ same => by cases same) stepped)
  | readVersion registVersion keptVersion =>
      simp only [RegistServer.effect] at effected
      split at effected
      · rename_i newer
        cases effected
        have stepped : service.step (id, .readVersion) = some (service.moveTo id
            (.listIncrement registVersion keptVersion (server.registrar.version - 1))) := by
          simp only [Service.step, here]
          rw [registrar]
          exact if_pos newer
        exact .inr (behind.follows found rfl rfl (fun _ living => living) rfl .readVersion
          (fun _ _ _ same => by cases same) stepped)
      · cases effected
        exact .inl (behind.goesOn found rfl rfl rfl rfl rfl)
  | list registVersion keptVersion cversion =>
      cases effected
      have stepped : service.step (id, .list) = some { service.moveTo id
          (.write registVersion keptVersion cversion
            (service.registrar.listed (keptVersion + 1) (cversion + 1))) with
          misread := service.misread ++
            (service.readRange (keptVersion + 1) (cversion + 1)).2 } := by
        simp only [Service.step, here]
        rfl
      refine .inr ⟨_, _, stepped, behind.apply found registrar ?_ (fun _ _ => rfl)
        (fun _ member => member) received written, fun _ _ _ same => by cases same⟩
      rw [registrar]
      rfl
  | write registVersion keptVersion cversion reply =>
      cases effected
      cases broken with
      | true =>
          have stepped : service.step (id, .write false) =
              some (service.moveTo id (.leave registVersion)) := by
            simp only [Service.step, here]
            rfl
          exact .inr (behind.follows found rfl rfl (fun _ living => living) rfl (.write false)
            (fun _ _ _ same => by cases same) stepped)
      | false =>
          have stepped : service.step (id, .write true) =
              some { service.moveTo id (.wait registVersion cversion) with
                received := Function.update service.received id
                  (service.received id ++ reply) } := by
            simp only [Service.step, here]
            rfl
          refine .inr ⟨_, _, stepped, behind.apply found registrar rfl
            (fun other apart => Function.update_of_ne apart _ _) (fun _ member => member)
            (fun whole => ?_) written, fun _ _ _ same => by cases same⟩
          have before := received rfl
          simp only [Function.update_self, before]
          exact (List.append_assoc ..).trans (List.append_nil _).symm
  | leave registVersion =>
      cases effected
      have stepped : service.step (id, .takeDeletedVersion) =
          some ({ service with registrar := service.registrar.takeVersion.2 }.moveTo id
            (.deregistration registVersion service.registrar.version)) := by
        simp only [Service.step, here]
        rfl
      refine .inr ⟨_, _, stepped, behind.apply found ?_ ?_ (fun _ _ => rfl)
        (fun _ member => member) received written, fun _ _ _ same => by cases same⟩
      · rw [registrar]
        rfl
      · rw [registrar]
        rfl
  | deregistration registVersion deletedVersion =>
      cases effected
      let after := service.registrar.deregistration registVersion deletedVersion
      have stepped : service.step (id, .deregistration) = some (service.store id after
          deletedVersion (after.nodes.getD deletedVersion Slot.init).2 .done) := by
        simp only [Service.step, here]
        rfl
      refine .inr ⟨_, _, stepped, behind.apply found ?_ rfl (fun _ _ => rfl)
        (fun _ member => List.mem_cons_of_mem _ member) received
        (fun version living => by cases living), fun _ _ _ same => by cases same⟩
      exact congrArg (fun registrar : Registrar =>
        registrar.deregistration registVersion deletedVersion) registrar
  | parkedName | parked | withdrawn | done => cases effected

/-! ## Names -/

namespace RegistCall

/-- Past the look for the name, and not yet registered. -/
def entering (call : RegistCall) : Bool :=
  match call.pc with
  | .admitted => !call.cancelled
  | .takeVersion | .registration _ => true
  | _ => false

def live (call : RegistCall) : Bool := call.pc.live.isSome

def claims (call : RegistCall) : Bool := call.entering || call.live

theorem Touched.stillLive {call later : RegistCall} (touched : call.Touched later) :
    later.live = call.live := by
  rw [RegistCall.live, touched.live, RegistCall.live]

theorem Touched.entering {call later : RegistCall} (touched : call.Touched later)
    (enters : later.entering = true) : call.entering = true := by
  have here : later.pc = call.pc := by
    rcases touched.pc with same | woken
    · exact same
    · rw [RegistCall.entering, woken] at enters
      rw [woken]
      cases located : call.pc with
      | parkedName | parked =>
          rw [located] at enters
          cases enters
      | _ => rfl
  rw [RegistCall.entering, here] at enters
  rw [RegistCall.entering]
  split at enters
  · rw [touched.cancelled (Bool.not_eq_eq_eq_not.mp enters)]
    rfl
  · rfl
  · rfl
  · cases enters

theorem Touched.claims {call later : RegistCall} (touched : call.Touched later)
    (claiming : later.claims = true) : call.claims = true := by
  rcases Bool.or_eq_true_iff.mp claiming with enters | living
  · exact Bool.or_eq_true_iff.mpr (.inl (touched.entering enters))
  · exact Bool.or_eq_true_iff.mpr (.inr (touched.stillLive ▸ living))

end RegistCall

namespace RegistServer

/-- The call finds that no node of its name is alive. -/
def Passes (server : RegistServer) (call : RegistCall) : Prop :=
  (call.pc = .findExistNode ∨ call.pc = .evaluateName ∧ call.cancelled = false) ∧
    call.info.nodeName ∉ server.registrar.aliveNodes

/-- A list is taken while no call stands between taking a version of the range and writing its
slot, and a name is found free while no other call stands between finding the same name free and
registering it. -/
def Orderly (server : RegistServer) : RegistServerAction → Prop
  | .run id => ∀ call ∈ server.calls[id]?,
      (∀ range ∈ call.regist.range, ∀ other ∈ server.calls, ∀ position ∈ other.regist.pending,
        ¬ (range.1 ≤ position ∧ position < range.2)) ∧
      (server.Passes call → ∀ other ∈ server.calls, other.entering = true →
        other.info.nodeName ≠ call.info.nodeName)
  | _ => True

instance (server : RegistServer) (call : RegistCall) : Decidable (server.Passes call) :=
  inferInstanceAs (Decidable ((_ ∨ _ ∧ _) ∧ _ ∉ _))

instance (server : RegistServer) (action : RegistServerAction) :
    Decidable (server.Orderly action) :=
  match action with
  | .run id => inferInstanceAs (Decidable (∀ call ∈ server.calls[id]?, _ ∧ (_ → _)))
  | .regist _ | .spuriousWake _ | .cancel _ | .breakStream _ | .healthyCheck | .setAbort =>
      isTrue trivial

theorem effect_names {server : RegistServer} {id : Nat} {call : RegistCall} {result : CallEffect}
    (effected : server.effect id call = some result) :
    result.call.info = call.info ∧
      ((result.registrar.aliveNodes = server.registrar.aliveNodes ∧
          result.call.live = call.live ∧
          (result.call.claims = true → call.claims = true ∨ server.Passes call)) ∨
        (result.registrar.aliveNodes =
            insert call.info.nodeName server.registrar.aliveNodes ∧
          call.claims = true ∧ result.call.live = true) ∨
        ∃ registVersion deletedVersion, call.pc = .deregistration registVersion deletedVersion ∧
          result.registrar = server.registrar.deregistration registVersion deletedVersion ∧
          result.call.claims = false) := by
  obtain ⟨info, pc, cancelled, broken, sent⟩ := call
  cases pc with
  | findExistNode =>
      cases effected
      refine ⟨rfl, ?_⟩
      simp only [moves, RegistCall.goTo]
      split
      · exact .inl ⟨trivial, rfl, fun claiming => .inl claiming⟩
      · rename_i absent
        refine .inl ⟨trivial, rfl, fun _ => .inr ⟨.inl rfl, fun member => absent ?_⟩⟩
        exact decide_eq_true member
  | evaluateName =>
      cases effected
      refine ⟨rfl, ?_⟩
      simp only [moves, RegistCall.goTo]
      split
      · rename_i free
        refine .inl ⟨trivial, rfl, fun claiming => .inr ?_⟩
        obtain rfl : cancelled = false := by
          simpa only [RegistCall.claims, RegistCall.entering, RegistCall.live, CallPc.live,
            Option.isSome_none, Bool.or_false, Bool.not_eq_true'] using claiming
        refine ⟨.inr ⟨rfl, rfl⟩, fun member => ?_⟩
        rw [Bool.or_false, Registrar.findExistNode, decide_eq_true member] at free
        cases free
      · exact .inl ⟨trivial, rfl, fun claiming => .inl claiming⟩
  | admitted =>
      cases effected
      cases cancelled with
      | true => exact ⟨rfl, .inl ⟨rfl, rfl, fun claiming => .inl claiming⟩⟩
      | false => exact ⟨rfl, .inl ⟨rfl, rfl, fun _ => .inl rfl⟩⟩
  | lockName | lock | relock =>
      simp only [effect, acquires, Option.ite_none_right_eq_some, Option.some.injEq] at effected
      obtain ⟨_, rfl⟩ := effected
      exact ⟨rfl, .inl ⟨rfl, rfl, fun claiming => .inl claiming⟩⟩
  | registration registVersion =>
      cases effected
      exact ⟨rfl, .inr (.inl ⟨rfl, rfl, rfl⟩)⟩
  | deregistration registVersion deletedVersion =>
      cases effected
      exact ⟨rfl, .inr (.inr ⟨registVersion, deletedVersion, rfl, rfl, rfl⟩)⟩
  | writeFirst | write =>
      cases effected
      cases broken with
      | true => exact ⟨rfl, .inl ⟨rfl, rfl, fun _ => .inl rfl⟩⟩
      | false => exact ⟨rfl, .inl ⟨rfl, rfl, fun _ => .inl rfl⟩⟩
  | loop =>
      cases effected
      cases server.ok with
      | true => exact ⟨rfl, .inl ⟨rfl, rfl, fun _ => .inl rfl⟩⟩
      | false => exact ⟨rfl, .inl ⟨rfl, rfl, fun _ => .inl rfl⟩⟩
  | test =>
      cases effected
      cases cancelled with
      | true => exact ⟨rfl, .inl ⟨rfl, rfl, fun _ => .inl rfl⟩⟩
      | false => exact ⟨rfl, .inl ⟨rfl, rfl, fun _ => .inl rfl⟩⟩
  | readVersion =>
      simp only [effect] at effected
      split at effected
      · cases effected
        exact ⟨rfl, .inl ⟨rfl, rfl, fun _ => .inl rfl⟩⟩
      · cases effected
        exact ⟨rfl, .inl ⟨rfl, rfl, fun _ => .inl rfl⟩⟩
  | parkedName | parked | withdrawn | done => cases effected
  | _ =>
      cases effected
      exact ⟨rfl, .inl ⟨rfl, rfl, fun claiming => .inl claiming⟩⟩

theorem Around.claimed {acts : Nat → Prop} {server next : RegistServer}
    (around : server.Around acts next) {id : Nat} {later : RegistCall} (idle : ¬ acts id)
    (found : next.calls[id]? = some later) (claiming : later.claims = true) :
    ∃ call, server.calls[id]? = some call ∧ call.claims = true ∧
      call.info.nodeName = later.info.nodeName := by
  rcases around.after idle found with ⟨call, located, touched⟩ | ⟨_, info, rfl⟩
  · exact ⟨call, located, touched.claims claiming, by rw [touched.info]⟩
  · cases claiming

/-- The call has a registered node of that name. -/
def Registered (server : RegistServer) (id : Nat) (name : String) : Prop :=
  ∃ call, server.calls[id]? = some call ∧ call.live = true ∧ call.info.nodeName = name

theorem Around.registered {acts : Nat → Prop} {server next : RegistServer}
    (around : server.Around acts next) {id : Nat} (idle : ¬ acts id) (name : String) :
    next.Registered id name ↔ server.Registered id name := by
  constructor
  · rintro ⟨later, located, living, rfl⟩
    rcases around.after idle located with ⟨call, found, touched⟩ | ⟨_, info, rfl⟩
    · exact ⟨call, found, touched.stillLive ▸ living, by rw [touched.info]⟩
    · cases living
  · rintro ⟨call, found, living, rfl⟩
    obtain ⟨later, located, touched⟩ := around.before idle found
    exact ⟨later, located, touched.stillLive ▸ living, by rw [touched.info]⟩

theorem registered_of_found {server : RegistServer} {id : Nat} {call : RegistCall}
    (found : server.calls[id]? = some call) (name : String) :
    server.Registered id name ↔ call.live = true ∧ call.info.nodeName = name := by
  simp only [Registered, found, Option.some.injEq, exists_eq_left']

/-- No two calls have the same name, from when they have found it free until it is erased, and
the names that are alive are those of the registered calls. -/
structure Named (server : RegistServer) : Prop where
  single : ∀ {left right : Nat} {one other : RegistCall}, server.calls[left]? = some one →
    server.calls[right]? = some other → one.claims = true → other.claims = true →
    one.info.nodeName = other.info.nodeName → left = right
  alive : ∀ name, name ∈ server.registrar.aliveNodes ↔ ∃ id, server.Registered id name

theorem named_initial : initial.Named where
  single found := by cases found
  alive name := by
    constructor
    · intro member
      cases member
    · rintro ⟨_, _, found, _⟩
      cases found

theorem Named.around {server next : RegistServer} (named : server.Named)
    (registrar : next.registrar = server.registrar)
    (around : server.Around (fun _ => False) next) : next.Named where
  single found located claims claimed same := by
    obtain ⟨_, found, claims, name⟩ := around.claimed not_false found claims
    obtain ⟨_, located, claimed, name'⟩ := around.claimed not_false located claimed
    exact named.single found located claims claimed (by rw [name, name', same])
  alive name := by
    rw [registrar, named.alive name]
    exact exists_congr fun id => (around.registered not_false name).symm

/-- A call keeps its name, or takes one that nobody has, and what is alive changes with it. -/
theorem Named.apply {server : RegistServer} (named : server.Named) {id : Nat} {call : RegistCall}
    (found : server.calls[id]? = some call) {result : CallEffect}
    (info : result.call.info = call.info)
    (fresh : result.call.claims = true → ∀ (other : Nat) later, other ≠ id →
      server.calls[other]? = some later → later.claims = true →
      later.info.nodeName ≠ call.info.nodeName)
    (alive : ∀ name, name ∈ result.registrar.aliveNodes ↔
      (result.call.live = true ∧ call.info.nodeName = name) ∨
        ∃ other, other ≠ id ∧ server.Registered other name) : (server.apply id result).Named where
  single {left right one other} found' located claims claimed same := by
    have around := server.around_apply id result
    have self := @apply_self server id call result found
    by_cases here : left = id
    · by_cases there : right = id
      · exact here.trans there.symm
      · subst here
        cases self.symm.trans found'
        obtain ⟨known, located, claimed, name⟩ := around.claimed there located claimed
        exact absurd (by rw [name, ← same, info]) (fresh claims right known there located claimed)
    · obtain ⟨known, before, claims, name⟩ := around.claimed here found' claims
      by_cases there : right = id
      · subst there
        cases self.symm.trans located
        exact absurd (by rw [name, same, info]) (fresh claimed left known here before claims)
      · obtain ⟨_, located, claimed, name'⟩ := around.claimed there located claimed
        exact named.single before located claims claimed (by rw [name, name', same])
  alive name := by
    have around := server.around_apply id result
    change name ∈ result.registrar.aliveNodes ↔ _
    rw [alive name]
    constructor
    · rintro (own | ⟨other, apart, registered⟩)
      · exact ⟨id, (registered_of_found (apply_self found) name).mpr (by rw [info]; exact own)⟩
      · exact ⟨other, (around.registered apart name).mpr registered⟩
    · rintro ⟨other, registered⟩
      by_cases here : other = id
      · subst here
        rw [registered_of_found (apply_self found), info] at registered
        exact .inl registered
      · exact .inr ⟨other, here, (around.registered here name).mp registered⟩

theorem Named.alive_split {server : RegistServer} (named : server.Named) {id : Nat}
    {call : RegistCall} (found : server.calls[id]? = some call) (name : String) :
    name ∈ server.registrar.aliveNodes ↔ (call.live = true ∧ call.info.nodeName = name) ∨
      ∃ other, other ≠ id ∧ server.Registered other name := by
  rw [named.alive name]
  constructor
  · rintro ⟨other, registered⟩
    by_cases here : other = id
    · subst here
      exact .inl ((registered_of_found found name).mp registered)
    · exact .inr ⟨other, here, registered⟩
  · rintro (own | ⟨other, _, registered⟩)
    · exact ⟨id, (registered_of_found found name).mpr own⟩
    · exact ⟨other, registered⟩

theorem Named.run {server : RegistServer} (named : server.Named) {service : Service}
    (behind : Behind server service) (accounted : Service.Accounted service) {id : Nat}
    {call : RegistCall} (found : server.calls[id]? = some call)
    (orderly : server.Orderly (.run id)) {result : CallEffect}
    (effected : server.effect id call = some result) : (server.apply id result).Named := by
  obtain ⟨info, cases'⟩ := effect_names effected
  have others (claiming : call.claims = true) (other : Nat) (later : RegistCall)
      (apart : other ≠ id) (located : server.calls[other]? = some later)
      (claimed : later.claims = true) : later.info.nodeName ≠ call.info.nodeName :=
    fun same => apart (named.single located found claimed claiming same)
  rcases cases' with ⟨alive, living, claims⟩ | ⟨alive, claiming, living⟩ |
    ⟨registVersion, deletedVersion, pc, registrar, released⟩
  · refine named.apply found info (fun claiming other later apart located claimed => ?_)
      fun name => ?_
    · rcases claims claiming with before | passes
      · exact others before other later apart located claimed
      · rcases Bool.or_eq_true_iff.mp claimed with enters | alive
        · exact (orderly call found).2 passes later (List.mem_of_getElem? located) enters
        · intro same
          exact passes.2 ((named.alive _).mpr ⟨other, later, located, alive, same⟩)
    · rw [alive, living]
      exact named.alive_split found name
  · refine named.apply found info (fun _ => others claiming) fun name => ?_
    rw [alive, Finset.mem_insert, named.alive_split found name]
    constructor
    · rintro (rfl | ⟨_, rfl⟩ | other)
      · exact .inl ⟨living, rfl⟩
      · exact .inl ⟨living, rfl⟩
      · exact .inr other
    · rintro (⟨_, rfl⟩ | other)
      · exact .inl rfl
      · exact .inr (.inr other)
  · have own : call.pc.live = some registVersion := by
      rw [pc]
      rfl
    have claiming : call.claims = true :=
      Bool.or_eq_true_iff.mpr (.inr (Option.isSome_of_eq_some own))
    have gone : ¬ result.call.live = true := fun living => by
      cases released.symm.trans (Bool.or_eq_true_iff.mpr (.inr living))
    refine named.apply found info (fun claimed => by cases released.symm.trans claimed)
      fun name => ?_
    obtain ⟨first, slot⟩ := accounted.stored (behind.written found own)
    rw [behind.registrar] at slot
    rw [registrar, Admission.deregistration_alive _ deletedVersion slot, Finset.mem_erase,
      named.alive_split found name]
    constructor
    · rintro ⟨apart, ⟨_, same⟩ | other⟩
      · exact absurd same.symm apart
      · exact .inr other
    · rintro (⟨living, _⟩ | ⟨other, apart, later, located, living, same⟩)
      · exact absurd living gone
      · refine ⟨fun equal => ?_, .inr ⟨other, apart, later, located, living, same⟩⟩
        exact others claiming other later apart located (Bool.or_eq_true_iff.mpr (.inr living))
          (same.trans equal)

end RegistServer

/-! ## Runs in order -/

theorem Behind.found_of_pending {server : RegistServer} {service : Service}
    (behind : Behind server service) {id position : Nat}
    (pending : (service.handlers id).pending = some position) :
    ∃ call, server.calls[id]? = some call ∧ call.regist.pending = some position := by
  rw [behind.handlers, RegistServer.handler] at pending
  cases found : server.calls[id]? with
  | none =>
      rw [found] at pending
      cases pending
  | some call =>
      rw [found] at pending
      exact ⟨call, rfl, pending⟩

theorem Behind.rangeSettled {server : RegistServer} {service : Service}
    (behind : Behind server service) {id : Nat} {call : RegistCall}
    (found : server.calls[id]? = some call) (orderly : server.Orderly (.run id))
    (move : RegistMove) : Service.RangeSettled service (id, move) := by
  intro _ start stop range other position pending
  obtain ⟨later, located, waiting⟩ := behind.found_of_pending pending
  have here : (service.handlers id).range = some (start, stop) := range
  rw [behind.handlers, RegistServer.handler_of_found found] at here
  exact (orderly call found).1 (start, stop) here later (List.mem_of_getElem? located) position
    waiting

theorem Behind.nameOf {server : RegistServer} {service : Service} (behind : Behind server service)
    (accounted : Service.Accounted service) {id : Nat} {name : String}
    (named : service.nameOf id = some name) :
    ∃ call, server.calls[id]? = some call ∧ call.claims = true ∧ call.info.nodeName = name ∧
      call.pc ≠ .takeVersion := by
  have here := behind.handlers id
  cases found : server.calls[id]? with
  | none =>
      have idle : service.handlers id = .idle := by
        rw [here, RegistServer.handler, found]
        rfl
      simp only [Service.nameOf, idle, RegistPc.current, Option.bind_none] at named
      cases named
  | some call =>
      rw [RegistServer.handler_of_found found] at here
      have slot (version : Nat) (living : call.pc.live = some version) :
          (service.registrar.nodes[version]?).map (fun slot => slot.2.nodeName) =
            some call.info.nodeName := by
        obtain ⟨first, located⟩ := accounted.stored (behind.written found living)
        rw [located]
        rfl
      obtain ⟨info, pc, cancelled, broken, sent⟩ := call
      refine ⟨_, rfl, ?_⟩
      cases pc with
      | registration registVersion =>
          simp only [Service.nameOf, here, RegistCall.regist, CallPc.regist] at named
          cases named
          exact ⟨rfl, rfl, CallPc.noConfusion⟩
      | listFirst | writeFirst | notifyFirst | loop | test | lock | park | parked | relock
      | readVersion | list | write | leave =>
          simp only [Service.nameOf, here, RegistCall.regist, CallPc.regist, RegistPc.current,
            Option.bind_some] at named
          exact ⟨rfl, Option.some.inj ((slot _ rfl).symm.trans named), CallPc.noConfusion⟩
      | _ =>
          simp only [Service.nameOf, here, RegistCall.regist, CallPc.regist, RegistPc.current,
            Option.bind_none] at named
          cases named

/-- Nothing is found to be out of order: behind the server is a service with its log, the calls
have names of their own, and the mutex has its owner. -/
structure Tracked (server : RegistServer) (service : Service) (log : List LogEvent) : Prop where
  behind : Behind server service
  logged : Service.Logged service log
  named : server.Named
  locked : server.Locked

theorem tracked_initial : Tracked RegistServer.initial Service.initial [] :=
  ⟨behind_initial, Service.logged_initial, RegistServer.named_initial, RegistServer.locked_initial⟩

theorem Tracked.step {server next : RegistServer} {service : Service} {log : List LogEvent}
    (tracked : Tracked server service log) {action : RegistServerAction}
    (orderly : server.Orderly action) (stepped : server.step action = some next) :
    ∃ after log', Tracked next after log' := by
  obtain ⟨behind, logged, named, locked⟩ := tracked
  have locked := locked.step stepped
  rcases RegistServer.step_cases stepped with ⟨id, call, result, rfl, found, effected, rfl⟩ |
    ⟨registrar, _, around⟩
  · have named' := named.run behind logged.accounted found orderly effected
    rcases behind.run found effected with behind' | ⟨move, after, stepped, behind', taking⟩
    · exact ⟨service, log, behind', logged, named', locked⟩
    · have settled := behind.rangeSettled found orderly move
      have free : Service.NameFree service (id, move) := by
        cases move with
        | takeVersion nodeName ip port =>
            intro other same
            obtain ⟨pc, rfl⟩ := taking nodeName ip port rfl
            obtain ⟨later, located, claims, name, elsewhere⟩ :=
              behind.nameOf logged.accounted same
            have claimed : call.claims = true := by
              rw [RegistCall.claims, RegistCall.entering, pc]
              rfl
            obtain rfl := named.single located found claims claimed name
            cases located.symm.trans found
            exact elsewhere pc
        | _ => trivial
      obtain ⟨log', logged'⟩ := logged.step settled free stepped
      exact ⟨after, log', behind', logged', named', locked⟩
  · refine ⟨service, log, ?_, logged, named.around registrar around, locked⟩
    exact behind.around around (behind.registrar.trans registrar.symm) (fun _ _ => rfl)
      (fun _ _ => rfl) (fun _ member => member) fun _ active => active.elim

end ProtoCore.Discovery
