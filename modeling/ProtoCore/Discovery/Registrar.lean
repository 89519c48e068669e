import Mathlib.Data.Finset.Basic
import ProtoCore.Library.CompactedLog

/-!
# The registrar and its version log

`Registrar` keeps one slot for each version: an added node with the version that
deleted it, or a deletion. `list` sends a range of slots and leaves out the
additions that carry a deleting version, together with that version.
-/

set_option autoImplicit false

namespace ProtoCore.Discovery

open Library.CompactedLog

inductive OperationCode where
  | add
  | delete
  deriving DecidableEq, Repr

structure NodeInfo where
  ip : String := ""
  port : UInt32 := 0
  nodeName : String := ""
  code : OperationCode := .add
  deriving DecidableEq, Repr

structure RegistrationReply where
  version : UInt32
  operationCmd : List NodeInfo
  deriving DecidableEq, Repr

/-- A slot of `nodes`: the version that deleted the node, and the node. -/
abbrev Slot := Int × NodeInfo

def Slot.init : Slot := (0, {})

structure Registrar where
  version : Nat
  nodes : List Slot
  aliveNodes : Finset String
  deriving DecidableEq

/-- `std::vector::resize`, whose new slots are value-initialised. -/
def resize (nodes : List Slot) (size : Nat) : List Slot :=
  nodes.take size ++ List.replicate (size - nodes.length) Slot.init

def reserve (nodes : List Slot) (position : Nat) : List Slot :=
  if nodes.length ≤ position then resize nodes (position + 1000) else nodes

namespace Registrar

def empty : Registrar := { version := 0, nodes := [], aliveNodes := ∅ }

def findExistNode (registrar : Registrar) (name : String) : Bool :=
  name ∈ registrar.aliveNodes

/-- The atomic `version++`: the old value, and the counter moved on. -/
def takeVersion (registrar : Registrar) : Nat × Registrar :=
  (registrar.version, { registrar with version := registrar.version + 1 })

def registration (registrar : Registrar) (fixedVersion : Nat) (name ip : String)
    (port : UInt32) : Registrar :=
  let info : NodeInfo := { ip := ip, port := port, nodeName := name, code := .add }
  { registrar with
    nodes := (reserve registrar.nodes fixedVersion).set fixedVersion (-1, info)
    aliveNodes := insert name registrar.aliveNodes }

/-- The locked part of `deregistration`, after it has taken `deletedVersion`. -/
def deregistration (registrar : Registrar) (registVersion deletedVersion : Nat) : Registrar :=
  let reserved := reserve registrar.nodes deletedVersion
  let info := { (reserved.getD registVersion Slot.init).2 with code := .delete }
  let nodes := reserved.set deletedVersion (-1, info)
  { registrar with
    nodes := nodes.set registVersion
      ((deletedVersion : Int), (nodes.getD registVersion Slot.init).2)
    aliveNodes := registrar.aliveNodes.erase info.nodeName }

/-- The loop of `list`; reading outside `nodes` has no result. -/
def listLoop (nodes : List Slot) : Nat → Nat → List Int → Option (List NodeInfo)
  | 0, _, _ => some []
  | remaining + 1, i, skipVersion =>
      if (i : Int) ∈ skipVersion then listLoop nodes remaining (i + 1) skipVersion
      else
        match nodes[i]? with
        | none => none
        | some (first, second) =>
            if 0 < first then listLoop nodes remaining (i + 1) (first :: skipVersion)
            else (listLoop nodes remaining (i + 1) skipVersion).map (second :: ·)

def listReads (nodes : List Slot) : Nat → Nat → List Int → List Nat
  | 0, _, _ => []
  | remaining + 1, i, skipVersion =>
      if (i : Int) ∈ skipVersion then listReads nodes remaining (i + 1) skipVersion
      else
        match nodes[i]? with
        | none => [i]
        | some (first, _) =>
            i :: listReads nodes remaining (i + 1)
              (if 0 < first then first :: skipVersion else skipVersion)

/-- `list(from, to)`, where `to` is `-1` for the first registration. -/
def list (registrar : Registrar) (from_ : Nat) (to_ : Int) : Option RegistrationReply :=
  (listLoop registrar.nodes (to_ + 1 - from_).toNat from_ []).map fun operationCmd =>
    { version := UInt32.ofInt to_, operationCmd := operationCmd }

end Registrar

/-- The nodes a subscriber is connected to, with their addresses. -/
abbrev NodeView := View String (String × UInt32)

/-- `NodeRegist`'s treatment of one command: connect, or drop the connection. -/
def NodeRegist.execute (view : NodeView) (info : NodeInfo) : NodeView :=
  if info.code = .add then Function.update view info.nodeName (some (info.ip, info.port))
  else Function.update view info.nodeName none

def NodeRegist.receive (view : NodeView) (reply : RegistrationReply) : NodeView :=
  reply.operationCmd.foldl NodeRegist.execute view

/-! ## The abstract log behind the slots -/

abbrev LogEvent := Event String (String × UInt32)

def NodeInfo.command (info : NodeInfo) : Command String (String × UInt32) :=
  if info.code = .add then .put info.nodeName (info.ip, info.port) else .erase info.nodeName

theorem NodeRegist.execute_eq_apply (view : NodeView) (info : NodeInfo) :
    NodeRegist.execute view info = info.command.apply view := by
  unfold NodeRegist.execute NodeInfo.command
  split <;> rfl

theorem NodeRegist.receive_eq_replay (view : NodeView) (reply : RegistrationReply) :
    NodeRegist.receive view reply = replay view (reply.operationCmd.map NodeInfo.command) := by
  simp only [NodeRegist.receive, replay, List.foldl_map]
  congr
  funext view info
  exact NodeRegist.execute_eq_apply view info

/-- The slots are determined by the log of additions and removals: a removed
addition points forward to its removal, every other slot points nowhere. -/
structure Represents (registrar : Registrar) (log : List LogEvent) : Prop where
  wellFormed : WellFormed log
  version : registrar.version = log.length
  live : ∀ {position : Nat} {name ip : String} {port : UInt32},
    Live log position name (ip, port) →
    registrar.nodes[position]? = some (-1, ⟨ip, port, name, .add⟩)
  cancelled : ∀ {position target : Nat} {name ip : String} {port : UInt32},
    log[position]? = some (.remove target) → log[target]? = some (.add name (ip, port)) →
    registrar.nodes[target]? = some ((position : Int), ⟨ip, port, name, .add⟩)
  removed : ∀ {position target : Nat} {name ip : String} {port : UInt32},
    log[position]? = some (.remove target) → log[target]? = some (.add name (ip, port)) →
    registrar.nodes[position]? = some (-1, ⟨ip, port, name, .delete⟩)
  alive : ∀ name, name ∈ registrar.aliveNodes ↔
    ∃ position endpoint, Live log position name endpoint

theorem represents_empty : Represents Registrar.empty [] where
  wellFormed := wellFormed_nil
  version := rfl
  live living := absurd living.1 (Nat.not_lt_zero _)
  cancelled found := by simp at found
  removed found := by simp at found
  alive name := by
    simp only [Registrar.empty, Finset.notMem_empty, false_iff, not_exists]
    exact fun position endpoint living => absurd living.1 (Nat.not_lt_zero _)

/-! ## Writing slots -/

theorem resize_length {nodes : List Slot} {size : Nat} (grows : nodes.length ≤ size) :
    (resize nodes size).length = size := by
  simp [resize]
  omega

theorem resize_getElem?_old {nodes : List Slot} {size position : Nat}
    (grows : nodes.length ≤ size) (inside : position < nodes.length) :
    (resize nodes size)[position]? = nodes[position]? := by
  rw [resize, List.take_of_length_le grows, List.getElem?_append_left inside]

theorem reserve_getElem?_old {nodes : List Slot} {bound position : Nat}
    (inside : position < nodes.length) : (reserve nodes bound)[position]? = nodes[position]? := by
  unfold reserve
  split
  · exact resize_getElem?_old (by omega) inside
  · rfl

theorem lt_reserve_length (nodes : List Slot) (bound : Nat) :
    bound < (reserve nodes bound).length := by
  unfold reserve
  split
  · rw [resize_length (by omega)]
    omega
  · omega

theorem length_le_reserve (nodes : List Slot) (bound : Nat) :
    nodes.length ≤ (reserve nodes bound).length := by
  unfold reserve
  split
  · rw [resize_length (by omega)]
    omega
  · exact le_rfl

theorem Represents.inside {registrar : Registrar} {log : List LogEvent}
    (represents : Represents registrar log) {position : Nat} (before : position < log.length) :
    position < registrar.nodes.length := by
  have located : log[position]? = some log[position] := List.getElem?_eq_getElem before
  suffices ∃ slot, registrar.nodes[position]? = some slot by
    obtain ⟨slot, found⟩ := this
    exact (List.getElem?_eq_some_iff.mp found).1
  cases event : log[position] with
  | add name endpoint =>
      have added : log[position]? = some (.add name endpoint) := by rw [located, event]
      rcases live_or_removed added with living | ⟨removal, removed⟩
      · exact ⟨_, represents.live living⟩
      · exact ⟨_, represents.cancelled removed added⟩
  | remove target =>
      have removed : log[position]? = some (.remove target) := by rw [located, event]
      obtain ⟨_, name, endpoint, added⟩ := represents.wellFormed.targets removed
      exact ⟨_, represents.removed removed added⟩

def Registrar.register (registrar : Registrar) (name ip : String) (port : UInt32) :
    Nat × Registrar :=
  let (registVersion, taken) := registrar.takeVersion
  (registVersion, taken.registration registVersion name ip port)

def Registrar.deregister (registrar : Registrar) (registVersion : Nat) : Registrar :=
  let (deletedVersion, taken) := registrar.takeVersion
  taken.deregistration registVersion deletedVersion

theorem Represents.register {registrar : Registrar} {log : List LogEvent}
    (represents : Represents registrar log) {name : String}
    (unused : registrar.findExistNode name = false) (ip : String) (port : UInt32) :
    Represents (registrar.register name ip port).2 (log ++ [.add name (ip, port)]) := by
  have fresh : name ∉ registrar.aliveNodes := by
    simpa [Registrar.findExistNode] using unused
  have notLive : ∀ position endpoint, ¬ Live log position name endpoint :=
    fun position endpoint living => fresh ((represents.alive name).mpr ⟨position, endpoint, living⟩)
  have same : registrar.version = log.length := represents.version
  have kept : ∀ {position : Nat}, position < log.length →
      (registrar.register name ip port).2.nodes[position]? = registrar.nodes[position]? := by
    intro position before
    have different : registrar.version ≠ position := by omega
    exact (List.getElem?_set_ne different).trans (reserve_getElem?_old (represents.inside before))
  constructor
  · exact represents.wellFormed.append_add name (ip, port) notLive
  · simp [Registrar.register, Registrar.takeVersion, Registrar.registration, same]
  · intro position other ip' port' living
    rcases (live_append_add represents.wellFormed _ _).mp living with old | ⟨rfl, rfl, sameEnd⟩
    · rw [kept old.1]
      exact represents.live old
    · cases sameEnd
      rw [← same]
      exact List.getElem?_set_self (lt_reserve_length _ _)
  · intro position target other ip' port' removed added
    rcases getElem?_append_last removed with old | ⟨_, mismatch⟩
    · obtain ⟨before, _, _, _⟩ := represents.wellFormed.targets old
      have inside := before.trans (lt_length_of_getElem? old)
      rw [List.getElem?_append_left inside] at added
      rw [kept inside]
      exact represents.cancelled old added
    · cases mismatch
  · intro position target other ip' port' removed added
    rcases getElem?_append_last removed with old | ⟨_, mismatch⟩
    · obtain ⟨before, _, _, _⟩ := represents.wellFormed.targets old
      have inside := before.trans (lt_length_of_getElem? old)
      rw [List.getElem?_append_left inside] at added
      rw [kept (lt_length_of_getElem? old)]
      exact represents.removed old added
    · cases mismatch
  · intro other
    simp only [Registrar.register, Registrar.takeVersion, Registrar.registration,
      Finset.mem_insert, represents.alive, live_append_add represents.wellFormed]
    constructor
    · intro alive
      rcases alive with rfl | ⟨position, endpoint, living⟩
      · exact ⟨log.length, (ip, port), .inr ⟨rfl, rfl, rfl⟩⟩
      · exact ⟨position, endpoint, .inl living⟩
    · intro alive
      rcases alive with ⟨position, endpoint, living | ⟨_, rfl, _⟩⟩
      · exact .inr ⟨position, endpoint, living⟩
      · exact .inl rfl

theorem Represents.deregister {registrar : Registrar} {log : List LogEvent}
    (represents : Represents registrar log) {registVersion : Nat} {name ip : String}
    {port : UInt32} (living : Live log registVersion name (ip, port)) :
    Represents (registrar.deregister registVersion) (log ++ [.remove registVersion]) := by
  have same : registrar.version = log.length := represents.version
  have inside : registVersion < registrar.nodes.length := represents.inside living.1
  have kept : ∀ {position : Nat}, position < log.length →
      (reserve registrar.nodes log.length)[position]? = registrar.nodes[position]? :=
    fun before => reserve_getElem?_old (represents.inside before)
  have registered : (reserve registrar.nodes log.length)[registVersion]? =
      some (-1, ⟨ip, port, name, .add⟩) :=
    (kept living.1).trans (represents.live living)
  have shape : registrar.deregister registVersion =
      { version := log.length + 1
        nodes := ((reserve registrar.nodes log.length).set log.length
          (-1, ⟨ip, port, name, .delete⟩)).set registVersion
          ((log.length : Int), ⟨ip, port, name, .add⟩)
        aliveNodes := registrar.aliveNodes.erase name } := by
    have other : log.length ≠ registVersion := by have := living.1; omega
    simp [Registrar.deregister, Registrar.takeVersion, Registrar.deregistration, same,
      List.getD_eq_getElem?_getD, registered, List.getElem?_set_ne other]
  have old : ∀ {position : Nat}, position < log.length → position ≠ registVersion →
      (registrar.deregister registVersion).nodes[position]? = registrar.nodes[position]? := by
    intro position before different
    rw [shape, List.getElem?_set_ne different.symm, List.getElem?_set_ne (by omega)]
    exact kept before
  constructor
  · exact represents.wellFormed.append_remove living
  · simp [shape]
  · intro position other ip' port' stillLive
    obtain ⟨before, different⟩ := live_append_remove.mp stillLive
    rw [old before.1 different]
    exact represents.live before
  · intro position target other ip' port' removed added
    rcases getElem?_append_last removed with earlier | ⟨rfl, sameTarget⟩
    · have before := (represents.wellFormed.targets earlier).1
      have bound := before.trans (lt_length_of_getElem? earlier)
      have different : target ≠ registVersion := by
        intro sameTarget
        exact living.2.2 position (lt_length_of_getElem? earlier) (sameTarget ▸ earlier)
      rw [List.getElem?_append_left bound] at added
      rw [old bound different]
      exact represents.cancelled earlier added
    · cases sameTarget
      rw [List.getElem?_append_left living.1, living.2.1] at added
      cases added
      rw [shape, List.getElem?_set_self]
      simpa using inside.trans_le (length_le_reserve registrar.nodes log.length)
  · intro position target other ip' port' removed added
    rcases getElem?_append_last removed with earlier | ⟨rfl, sameTarget⟩
    · have before := (represents.wellFormed.targets earlier).1
      have bound := before.trans (lt_length_of_getElem? earlier)
      have different : position ≠ registVersion := by
        intro samePosition
        have sameEvent := (samePosition ▸ earlier).symm.trans living.2.1
        cases sameEvent
      rw [List.getElem?_append_left bound] at added
      rw [old (lt_length_of_getElem? earlier) different]
      exact represents.removed earlier added
    · cases sameTarget
      rw [List.getElem?_append_left living.1, living.2.1] at added
      cases added
      rw [shape, List.getElem?_set_ne (by have := living.1; omega), 
        List.getElem?_set_self (lt_reserve_length _ _)]
  · intro other
    simp only [shape, Finset.mem_erase, represents.alive, live_append_remove]
    constructor
    · intro alive
      obtain ⟨different, position, endpoint, before⟩ := alive
      refine ⟨position, endpoint, before, fun samePosition => different ?_⟩
      have sameEvent := (samePosition ▸ before.2.1).symm.trans living.2.1
      simp only [Option.some.injEq, Event.add.injEq] at sameEvent
      exact sameEvent.1
    · intro alive
      obtain ⟨position, endpoint, before, different⟩ := alive
      refine ⟨fun sameName => different ?_, position, endpoint, before⟩
      subst sameName
      exact (before.unique represents.wellFormed living).1

/-! ## `list` sends the compacted range -/

def SkipsRemoved (log : List LogEvent) (start position : Nat) (skipVersion : List Int) : Prop :=
  ∀ i : Nat, (i : Int) ∈ skipVersion ↔
    ∃ target, start ≤ target ∧ target < position ∧ log[i]? = some (.remove target)

theorem SkipsRemoved.step {log : List LogEvent} {start position : Nat} {skipVersion : List Int}
    (skips : SkipsRemoved log start position skipVersion)
    (kept : ∀ i : Nat, log[i]? ≠ some (.remove position)) :
    SkipsRemoved log start (position + 1) skipVersion := by
  intro i
  rw [skips i]
  constructor
  · intro skipped
    obtain ⟨target, first, before, removed⟩ := skipped
    exact ⟨target, first, by omega, removed⟩
  · intro skipped
    obtain ⟨target, first, before, removed⟩ := skipped
    have different : target ≠ position := fun same => kept i (same ▸ removed)
    exact ⟨target, first, by omega, removed⟩

theorem SkipsRemoved.cons {log : List LogEvent} {start position removal : Nat}
    {skipVersion : List Int} (valid : WellFormed log)
    (skips : SkipsRemoved log start position skipVersion) (inRange : start ≤ position)
    (removed : log[removal]? = some (.remove position)) :
    SkipsRemoved log start (position + 1) ((removal : Int) :: skipVersion) := by
  intro i
  rw [List.mem_cons, skips i]
  constructor
  · intro skipped
    rcases skipped with same | ⟨target, first, before, located⟩
    · have sameIndex : i = removal := by exact_mod_cast same
      exact ⟨position, inRange, by omega, sameIndex ▸ removed⟩
    · exact ⟨target, first, by omega, located⟩
  · intro skipped
    obtain ⟨target, first, before, located⟩ := skipped
    by_cases last : target = position
    · subst last
      exact .inl (by exact_mod_cast valid.once located removed)
    · exact .inr ⟨target, first, by omega, located⟩

theorem Represents.listLoop {registrar : Registrar} {log : List LogEvent}
    (represents : Represents registrar log) {start : Nat} (remaining position : Nat)
    {skipVersion : List Int} (inRange : start ≤ position)
    (inside : position + remaining ≤ log.length)
    (skips : SkipsRemoved log start position skipVersion) :
    ∃ cmds, Registrar.listLoop registrar.nodes remaining position skipVersion = some cmds ∧
      cmds.map NodeInfo.command =
        (List.range' position remaining).filterMap (commandAt log start) := by
  induction remaining generalizing position skipVersion with
  | zero => exact ⟨[], rfl, rfl⟩
  | succ remaining ih =>
      have located : log[position]? = some log[position] := List.getElem?_eq_getElem (by omega)
      rw [List.range'_succ]
      cases event : log[position] with
      | add name endpoint =>
          have added : log[position]? = some (.add name endpoint) := by rw [located, event]
          have visited : (position : Int) ∉ skipVersion := by
            rw [skips position]
            intro skipped
            obtain ⟨target, _, _, removed⟩ := skipped
            rw [added] at removed
            cases removed
          rcases live_or_removed added with living | ⟨removal, removed⟩
          · have absent : .remove position ∉ log := by
              intro member
              obtain ⟨removal, removed⟩ := List.mem_iff_getElem?.mp member
              exact living.2.2 removal (lt_length_of_getElem? removed) removed
            have slot := represents.live living
            obtain ⟨cmds, looped, mapped⟩ := ih (position + 1) (by omega) (by omega)
              (skips.step fun i removed => absent (List.mem_of_getElem? removed))
            refine ⟨⟨endpoint.1, endpoint.2, name, .add⟩ :: cmds, ?_, ?_⟩
            · simp [Registrar.listLoop, visited, slot, looped]
            · simp [NodeInfo.command, commandAt, added, absent, mapped]
          · have slot := represents.cancelled removed added
            have positive : 0 < removal := by
              have := (represents.wellFormed.targets removed).1
              omega
            obtain ⟨cmds, looped, mapped⟩ := ih (position + 1) (by omega) (by omega)
              (skips.cons represents.wellFormed inRange removed)
            refine ⟨cmds, ?_, ?_⟩
            · simp [Registrar.listLoop, visited, slot, positive, looped]
            · simp [commandAt, added, List.mem_of_getElem? removed, mapped]
      | remove target =>
          have removed : log[position]? = some (.remove target) := by rw [located, event]
          obtain ⟨before, name, endpoint, added⟩ := represents.wellFormed.targets removed
          have unremoved : ∀ i : Nat, log[i]? ≠ some (.remove position) := by
            intro i located
            obtain ⟨_, _, _, mismatch⟩ := represents.wellFormed.targets located
            rw [removed] at mismatch
            cases mismatch
          obtain ⟨cmds, looped, mapped⟩ := ih (position + 1) (by omega) (by omega)
            (skips.step unremoved)
          by_cases paired : start ≤ target
          · have skipped : (position : Int) ∈ skipVersion :=
              (skips position).mpr ⟨target, paired, before, removed⟩
            refine ⟨cmds, ?_, ?_⟩
            · simp [Registrar.listLoop, skipped, looped]
            · simp [commandAt, removed, paired, mapped]
          · have visited : (position : Int) ∉ skipVersion := by
              rw [skips position]
              intro skipped
              obtain ⟨other, first, _, located⟩ := skipped
              rw [removed] at located
              cases located
              exact paired first
            have slot := represents.removed removed added
            refine ⟨⟨endpoint.1, endpoint.2, name, .delete⟩ :: cmds, ?_, ?_⟩
            · simp [Registrar.listLoop, visited, slot, looped]
            · simp [NodeInfo.command, commandAt, removed, added, paired, mapped]

/-- On a log that has been written up to `stop`, `list` reads no slot outside
`nodes` and its commands are the compacted range. -/
theorem Represents.list {registrar : Registrar} {log : List LogEvent}
    (represents : Represents registrar log) (start stop : Nat) (inside : stop ≤ log.length) :
    ∃ reply, registrar.list start ((stop : Int) - 1) = some reply ∧
      reply.operationCmd.map NodeInfo.command = compacted log start stop := by
  by_cases ordered : start ≤ stop
  · have unskipped : SkipsRemoved log start start [] := by
      intro i
      simp
      omega
    obtain ⟨cmds, looped, mapped⟩ :=
      represents.listLoop (stop - start) start le_rfl (by omega) unskipped
    exact ⟨⟨UInt32.ofInt (stop - 1), cmds⟩, by simp [Registrar.list, looped], mapped⟩
  · have empty : stop - start = 0 := by omega
    exact ⟨⟨UInt32.ofInt (stop - 1), []⟩, by simp [Registrar.list, empty, Registrar.listLoop],
      by simp [compacted, empty]⟩

end ProtoCore.Discovery
