import ProtoCore.Discovery.Registrar
import ProtoCore.Library.Machine

/-!
# One live registration per name

`Regist` looks for the name among the alive nodes and registers it in a later critical
section, so several handlers may have found the same name free. Deregistration erases
the name of its slot, whoever else has registered it.
-/

set_option autoImplicit false

namespace ProtoCore.Discovery

open Library

inductive AdmissionPc where
  | idle
  | wait (info : NodeInfo)
  | takeVersion (info : NodeInfo)
  | registration (registVersion : Nat) (info : NodeInfo)
  | registered (registVersion : Nat) (nodeName : String)
  | deregistration (registVersion : Nat) (nodeName : String) (deletedVersion : Nat)
  | done
  deriving DecidableEq

namespace AdmissionPc

/-- The version that is registered and not deregistered, with its name. -/
def live : AdmissionPc → Option (Nat × String)
  | .registered registVersion nodeName | .deregistration registVersion nodeName _ =>
      some (registVersion, nodeName)
  | _ => none

def taken : AdmissionPc → List Nat
  | .registration registVersion _ | .registered registVersion _ => [registVersion]
  | .deregistration registVersion _ deletedVersion => [registVersion, deletedVersion]
  | _ => []

end AdmissionPc

inductive AdmissionMove where
  | findExistNode (info : NodeInfo)
  | wait (cancelled : Bool)
  | takeVersion
  | registration
  | takeDeletedVersion
  | deregistration

structure Admission where
  registrar : Registrar
  handlers : Nat → AdmissionPc

namespace Admission

def initial : Admission where
  registrar := Registrar.empty
  handlers _ := .idle

def moveTo (admission : Admission) (handler : Nat) (pc : AdmissionPc) : Admission :=
  { admission with handlers := Function.update admission.handlers handler pc }

def register (admission : Admission) (handler registVersion : Nat) (info : NodeInfo) :
    Admission :=
  let registrar :=
    admission.registrar.registration registVersion info.nodeName info.ip info.port
  { admission with registrar := registrar }.moveTo handler
    (.registered registVersion info.nodeName)

def deregister (admission : Admission) (handler registVersion deletedVersion : Nat) :
    Admission :=
  let registrar := admission.registrar.deregistration registVersion deletedVersion
  { admission with registrar := registrar }.moveTo handler .done

/-- A call that is cancelled while it waits returns without a registration. -/
def step (admission : Admission) (action : Nat × AdmissionMove) : Option Admission :=
  let (handler, move) := action
  let registrar := admission.registrar
  match admission.handlers handler, move with
  | .idle, .findExistNode info =>
      some (admission.moveTo handler
        (if registrar.findExistNode info.nodeName then .wait info else .takeVersion info))
  | .wait info, .wait cancelled =>
      if cancelled then some (admission.moveTo handler .done)
      else if registrar.findExistNode info.nodeName then none
      else some (admission.moveTo handler (.takeVersion info))
  | .takeVersion info, .takeVersion =>
      let (registVersion, registrar) := registrar.takeVersion
      some ({ admission with registrar := registrar }.moveTo handler
        (.registration registVersion info))
  | .registration registVersion info, .registration =>
      some (admission.register handler registVersion info)
  | .registered registVersion nodeName, .takeDeletedVersion =>
      let (deletedVersion, registrar) := registrar.takeVersion
      some ({ admission with registrar := registrar }.moveTo handler
        (.deregistration registVersion nodeName deletedVersion))
  | .deregistration registVersion _ deletedVersion, .deregistration =>
      some (admission.deregister handler registVersion deletedVersion)
  | _, _ => none

def machine : Machine Admission (Nat × AdmissionMove) := ⟨step⟩

def Live (admission : Admission) (handler registVersion : Nat) (name : String) : Prop :=
  (admission.handlers handler).live = some (registVersion, name)

/-- Each name has at most one live version, and is alive if it has one. -/
structure Unique (admission : Admission) : Prop where
  single : ∀ {left right first second name}, admission.Live left first name →
    admission.Live right second name → first = second
  alive : ∀ name, name ∈ admission.registrar.aliveNodes ↔
    ∃ handler registVersion, admission.Live handler registVersion name

/-- The name of the node that an action registers. -/
def registering (admission : Admission) (action : Nat × AdmissionMove) : Option String :=
  match admission.handlers action.1, action.2 with
  | .registration _ info, .registration => some info.nodeName
  | _, _ => none

/-- No node of that name is alive when one is registered. -/
def Vacant (admission : Admission) (action : Nat × AdmissionMove) : Prop :=
  ∀ name ∈ admission.registering action, name ∉ admission.registrar.aliveNodes

/-- The versions in use are distinct, and the slot of a live version has its name. -/
structure Numbered (admission : Admission) : Prop where
  below : ∀ {handler version}, version ∈ (admission.handlers handler).taken →
    version < admission.registrar.version
  apart : ∀ {left right version}, version ∈ (admission.handlers left).taken →
    version ∈ (admission.handlers right).taken → left = right
  ordered : ∀ {handler registVersion nodeName deletedVersion},
    admission.handlers handler = .deregistration registVersion nodeName deletedVersion →
    registVersion ≠ deletedVersion
  slot : ∀ {handler registVersion name}, admission.Live handler registVersion name →
    ∃ slot, admission.registrar.nodes[registVersion]? = some slot ∧ slot.2.nodeName = name

theorem numbered_initial : Numbered initial where
  below member := by cases member
  apart member := by cases member
  ordered located := by cases located
  slot living := by cases living

theorem unique_initial : Unique initial where
  single living := by cases living
  alive name := by
    constructor
    · intro member
      cases member
    · intro ⟨_, _, living⟩
      cases living

theorem moveTo_handlers (admission : Admission) (handler other : Nat) (pc : AdmissionPc) :
    (admission.moveTo handler pc).handlers other =
      if other = handler then pc else admission.handlers other := by
  simp only [moveTo, Function.update_apply]

theorem live_taken {pc : AdmissionPc} {registVersion : Nat} {name : String}
    (living : pc.live = some (registVersion, name)) : registVersion ∈ pc.taken := by
  cases pc with
  | registered | deregistration =>
      cases living
      exact List.mem_cons_self
  | _ => cases living

theorem Numbered.apart_live {admission : Admission} (numbered : Numbered admission)
    {left right first second : Nat} {name name' : String}
    (one : admission.Live left first name) (other : admission.Live right second name')
    (different : left ≠ right) : first ≠ second := by
  intro same
  subst same
  exact different (numbered.apart (live_taken one) (live_taken other))

/-! ## Steps that change nothing alive -/

theorem live_moveTo {admission : Admission} {registrar : Registrar} {handler : Nat}
    {pc : AdmissionPc} (same : pc.live = (admission.handlers handler).live)
    (other registVersion : Nat) (name : String) :
    ({ admission with registrar := registrar }.moveTo handler pc).Live other registVersion name ↔
      admission.Live other registVersion name := by
  simp only [Live, moveTo_handlers]
  split
  · rename_i here
    rw [here, same]
  · rfl

theorem Unique.moveTo {admission : Admission} (unique : Unique admission) {registrar : Registrar}
    {handler : Nat} {pc : AdmissionPc} (same : pc.live = (admission.handlers handler).live)
    (alive : registrar.aliveNodes = admission.registrar.aliveNodes) :
    Unique ({ admission with registrar := registrar }.moveTo handler pc) where
  single one other :=
    unique.single ((live_moveTo same _ _ _).mp one) ((live_moveTo same _ _ _).mp other)
  alive name := by
    simp only [live_moveTo same]
    rw [← unique.alive, ← alive]
    rfl

theorem Numbered.moveTo {admission : Admission} (numbered : Numbered admission) {handler : Nat}
    {pc : AdmissionPc} (same : pc.live = (admission.handlers handler).live)
    (free : pc.taken = []) : Numbered (admission.moveTo handler pc) where
  below {other version} member := by
    rw [moveTo_handlers] at member
    split at member
    · rw [free] at member
      cases member
    · exact numbered.below member
  apart {left right version} one other := by
    rw [moveTo_handlers] at one other
    split at one
    · rw [free] at one
      cases one
    · split at other
      · rw [free] at other
        cases other
      · exact numbered.apart one other
  ordered {other registVersion nodeName deletedVersion} located := by
    rw [moveTo_handlers] at located
    split at located
    · rw [located] at free
      cases free
    · exact numbered.ordered located
  slot {other registVersion name} living :=
    numbered.slot ((live_moveTo same other registVersion name).mp living)

/-- Taking a version, in addition to those the handler has. -/
theorem Numbered.take {admission : Admission} (numbered : Numbered admission) {handler : Nat}
    {pc : AdmissionPc} (same : pc.live = (admission.handlers handler).live)
    (taken : ∀ version, version ∈ pc.taken ↔
      version ∈ (admission.handlers handler).taken ∨ version = admission.registrar.version)
    (ordered : ∀ {registVersion nodeName deletedVersion},
      pc = .deregistration registVersion nodeName deletedVersion →
      registVersion ∈ (admission.handlers handler).taken ∧
        deletedVersion = admission.registrar.version) :
    Numbered ({ admission with registrar := admission.registrar.takeVersion.2 }.moveTo handler
      pc) where
  below {other version} member := by
    change version < admission.registrar.version + 1
    rw [moveTo_handlers] at member
    split at member
    · rcases (taken version).mp member with before | fresh
      · exact (numbered.below before).trans (Nat.lt_succ_self _)
      · omega
    · exact (numbered.below member).trans (Nat.lt_succ_self _)
  apart {left right version} one other := by
    have old : ∀ {other}, version ∈ (admission.handlers other).taken →
        version ≠ admission.registrar.version := fun member => (numbered.below member).ne
    rw [moveTo_handlers] at one other
    split at one
    · rename_i here
      split at other
      · rename_i there
        exact here.trans there.symm
      · rcases (taken version).mp one with before | fresh
        · exact here ▸ numbered.apart before other
        · exact absurd fresh (old other)
    · split at other
      · rename_i there
        rcases (taken version).mp other with before | fresh
        · exact there ▸ numbered.apart one before
        · exact absurd fresh (old one)
      · exact numbered.apart one other
  ordered {other registVersion nodeName deletedVersion} located := by
    rw [moveTo_handlers] at located
    split at located
    · obtain ⟨before, fresh⟩ := ordered located
      exact fresh ▸ (numbered.below before).ne
    · exact numbered.ordered located
  slot living := numbered.slot ((live_moveTo same _ _ _).mp living)

/-! ## Registration -/

theorem live_register {admission : Admission} {handler registVersion : Nat} {info : NodeInfo}
    (other version : Nat) (name : String) :
    (admission.register handler registVersion info).Live other version name ↔
      if other = handler then version = registVersion ∧ name = info.nodeName
      else admission.Live other version name := by
  simp only [Live, register, moveTo_handlers]
  split
  · simp only [AdmissionPc.live, Option.some.injEq, Prod.mk.injEq, eq_comm]
  · rfl

/-- The handler that has taken the version of a slot writes it. -/
theorem registration_slot (registrar : Registrar) (registVersion : Nat) (info : NodeInfo) :
    ∃ slot, (registrar.registration registVersion info.nodeName info.ip
      info.port).nodes[registVersion]? = some slot ∧ slot.2.nodeName = info.nodeName :=
  ⟨_, List.getElem?_set_self (lt_reserve_length _ _), rfl⟩

theorem registration_other (registrar : Registrar) {registVersion version : Nat}
    (different : registVersion ≠ version) (info : NodeInfo) {slot : Slot}
    (located : registrar.nodes[version]? = some slot) :
    (registrar.registration registVersion info.nodeName info.ip info.port).nodes[version]? =
      some slot := by
  have inside := (List.getElem?_eq_some_iff.mp located).1
  exact (List.getElem?_set_ne different).trans ((reserve_getElem?_old inside).trans located)

theorem Numbered.register {admission : Admission} (numbered : Numbered admission)
    {handler registVersion : Nat} {info : NodeInfo}
    (located : admission.handlers handler = .registration registVersion info) :
    Numbered (admission.register handler registVersion info) where
  below {other version} member := by
    rw [Admission.register, moveTo_handlers] at member
    split at member
    · have here : version ∈ (admission.handlers handler).taken := by
        rw [located]
        exact member
      exact numbered.below here
    · exact numbered.below member
  apart {left right version} one other := by
    have kept : ∀ {any}, version ∈ (if any = handler then
        AdmissionPc.registered registVersion info.nodeName else admission.handlers any).taken →
        version ∈ (admission.handlers any).taken := by
      intro any member
      split at member
      · rename_i here
        rw [here, located]
        exact member
      · exact member
    rw [Admission.register, moveTo_handlers] at one other
    exact numbered.apart (kept one) (kept other)
  ordered {other _ _ _} same := by
    rw [Admission.register, moveTo_handlers] at same
    split at same
    · cases same
    · exact numbered.ordered same
  slot {other version name} living := by
    rw [live_register] at living
    split at living
    · obtain ⟨rfl, rfl⟩ := living
      exact registration_slot _ _ _
    · rename_i elsewhere
      obtain ⟨slot, found, named⟩ := numbered.slot living
      have different : registVersion ≠ version := by
        intro same
        have here : version ∈ (admission.handlers handler).taken := by
          rw [located, ← same]
          exact List.mem_cons_self
        exact elsewhere (numbered.apart (live_taken living) here)
      exact ⟨slot, registration_other _ different info found, named⟩

theorem Unique.register {admission : Admission} (unique : Unique admission)
    {handler registVersion : Nat} {info : NodeInfo}
    (located : admission.handlers handler = .registration registVersion info)
    (vacant : info.nodeName ∉ admission.registrar.aliveNodes) :
    Unique (admission.register handler registVersion info) where
  single {left right first second name} one other := by
    have fresh : ∀ {any version}, ¬ admission.Live any version info.nodeName :=
      fun living => vacant ((unique.alive _).mpr ⟨_, _, living⟩)
    rw [live_register] at one other
    split at one
    · split at other
      · rw [one.1, other.1]
      · exact absurd (one.2 ▸ other) fresh
    · split at other
      · exact absurd (other.2 ▸ one) fresh
      · exact unique.single one other
  alive name := by
    change name ∈ insert info.nodeName admission.registrar.aliveNodes ↔ _
    rw [Finset.mem_insert, unique.alive]
    constructor
    · intro alive
      rcases alive with rfl | ⟨other, version, living⟩
      · exact ⟨handler, registVersion, (live_register _ _ _).mpr (by rw [if_pos rfl]; trivial)⟩
      · have elsewhere : other ≠ handler := by
          intro here
          rw [Live, here, located] at living
          cases living
        exact ⟨other, version, (live_register _ _ _).mpr (by rw [if_neg elsewhere]; exact living)⟩
    · intro ⟨other, version, living⟩
      rw [live_register] at living
      split at living
      · exact .inl living.2
      · exact .inr ⟨other, version, living⟩

/-! ## Deregistration -/

theorem live_deregister {admission : Admission} {handler registVersion deletedVersion : Nat}
    (other version : Nat) (name : String) :
    (admission.deregister handler registVersion deletedVersion).Live other version name ↔
      other ≠ handler ∧ admission.Live other version name := by
  simp only [Live, deregister, moveTo_handlers]
  split
  · rename_i here
    constructor
    · intro living
      cases living
    · intro living
      exact absurd here living.1
  · rename_i elsewhere
    exact ⟨fun living => ⟨elsewhere, living⟩, fun living => living.2⟩

theorem deregistration_other (registrar : Registrar) {registVersion deletedVersion version : Nat}
    (kept : registVersion ≠ version) (fresh : deletedVersion ≠ version) {slot : Slot}
    (located : registrar.nodes[version]? = some slot) :
    (registrar.deregistration registVersion deletedVersion).nodes[version]? = some slot := by
  have inside := (List.getElem?_eq_some_iff.mp located).1
  refine (List.getElem?_set_ne kept).trans ((List.getElem?_set_ne fresh).trans ?_)
  exact (reserve_getElem?_old inside).trans located

/-- Deregistration erases the name that the slot of its version has. -/
theorem deregistration_alive (registrar : Registrar) {registVersion : Nat} (deletedVersion : Nat)
    {slot : Slot} (located : registrar.nodes[registVersion]? = some slot) :
    (registrar.deregistration registVersion deletedVersion).aliveNodes =
      registrar.aliveNodes.erase slot.2.nodeName := by
  have inside := (List.getElem?_eq_some_iff.mp located).1
  have reserved : (reserve registrar.nodes deletedVersion)[registVersion]? = some slot :=
    (reserve_getElem?_old inside).trans located
  simp only [Registrar.deregistration, List.getD_eq_getElem?_getD, reserved, Option.getD_some]

theorem Numbered.deregister {admission : Admission} (numbered : Numbered admission)
    {handler registVersion deletedVersion : Nat} {nodeName : String}
    (located : admission.handlers handler =
      .deregistration registVersion nodeName deletedVersion) :
    Numbered (admission.deregister handler registVersion deletedVersion) where
  below {other version} member := by
    rw [Admission.deregister, moveTo_handlers] at member
    split at member
    · cases member
    · exact numbered.below member
  apart {left right version} one other := by
    rw [Admission.deregister, moveTo_handlers] at one other
    split at one
    · cases one
    · split at other
      · cases other
      · exact numbered.apart one other
  ordered {other _ _ _} same := by
    rw [Admission.deregister, moveTo_handlers] at same
    split at same
    · cases same
    · exact numbered.ordered same
  slot {other version name} living := by
    obtain ⟨elsewhere, living⟩ := (live_deregister _ _ _).mp living
    obtain ⟨slot, found, named⟩ := numbered.slot living
    have different : ∀ {position}, position ∈ (admission.handlers handler).taken →
        position ≠ version := by
      intro position member same
      exact elsewhere (numbered.apart (live_taken living) (same ▸ member))
    rw [located] at different
    exact ⟨slot, deregistration_other _ (different List.mem_cons_self)
      (different (List.mem_cons_of_mem _ List.mem_cons_self)) found, named⟩

theorem Unique.deregister {admission : Admission} (numbered : Numbered admission)
    (unique : Unique admission) {handler registVersion deletedVersion : Nat} {nodeName : String}
    (located : admission.handlers handler =
      .deregistration registVersion nodeName deletedVersion) :
    Unique (admission.deregister handler registVersion deletedVersion) where
  single one other :=
    unique.single ((live_deregister _ _ _).mp one).2 ((live_deregister _ _ _).mp other).2
  alive name := by
    have here : admission.Live handler registVersion nodeName := by
      rw [Live, located]
      rfl
    obtain ⟨slot, found, named⟩ := numbered.slot here
    have erased : (admission.deregister handler registVersion
        deletedVersion).registrar.aliveNodes = admission.registrar.aliveNodes.erase nodeName := by
      rw [← named]
      exact deregistration_alive _ deletedVersion found
    rw [erased, Finset.mem_erase, unique.alive]
    constructor
    · intro ⟨different, other, version, living⟩
      have elsewhere : other ≠ handler := by
        intro same
        rw [same, Live, located] at living
        cases living
        exact different rfl
      exact ⟨other, version, (live_deregister _ _ _).mpr ⟨elsewhere, living⟩⟩
    · intro ⟨other, version, living⟩
      obtain ⟨elsewhere, living⟩ := (live_deregister _ _ _).mp living
      refine ⟨fun same => ?_, other, version, living⟩
      -- Two versions of one name would be the same version, held by two handlers.
      exact numbered.apart_live living here elsewhere (unique.single living (same ▸ here))

/-! ## Runs -/

theorem Numbered.step {admission next : Admission} {action : Nat × AdmissionMove}
    (numbered : Numbered admission) (stepped : admission.step action = some next) :
    Numbered next := by
  obtain ⟨handler, move⟩ := action
  simp only [Admission.step] at stepped
  split at stepped
  case h_1 located =>
    cases stepped
    apply numbered.moveTo
    · rw [located]
      split <;> rfl
    · split <;> rfl
  case h_2 located =>
    split at stepped
    · cases stepped
      exact numbered.moveTo (by rw [located]; rfl) rfl
    · split at stepped
      · cases stepped
      · cases stepped
        exact numbered.moveTo (by rw [located]; rfl) rfl
  case h_3 located =>
    cases stepped
    apply numbered.take
    · rw [located]
      rfl
    · intro version
      rw [located]
      exact List.mem_singleton.trans (Iff.symm (or_iff_right List.not_mem_nil))
    · intro _ _ _ same
      cases same
  case h_4 located =>
    cases stepped
    exact numbered.register located
  case h_5 registVersion nodeName located =>
    cases stepped
    apply numbered.take
    · rw [located]
      rfl
    · intro version
      rw [located]
      exact List.mem_cons.trans (or_congr List.mem_singleton.symm List.mem_singleton)
    · intro _ _ _ same
      cases same
      rw [located]
      exact ⟨List.mem_cons_self, rfl⟩
  case h_6 located =>
    cases stepped
    exact numbered.deregister located
  case h_7 => cases stepped

theorem Unique.step {admission next : Admission} {action : Nat × AdmissionMove}
    (numbered : Numbered admission) (unique : Unique admission) (vacant : Vacant admission action)
    (stepped : admission.step action = some next) : Unique next := by
  obtain ⟨handler, move⟩ := action
  simp only [Admission.step] at stepped
  split at stepped
  case h_1 located =>
    cases stepped
    apply unique.moveTo _ rfl
    rw [located]
    split <;> rfl
  case h_2 located =>
    split at stepped
    · cases stepped
      exact unique.moveTo (by rw [located]; rfl) rfl
    · split at stepped
      · cases stepped
      · cases stepped
        exact unique.moveTo (by rw [located]; rfl) rfl
  case h_3 located =>
    cases stepped
    exact unique.moveTo (by rw [located]; rfl) rfl
  case h_4 registVersion info located =>
    cases stepped
    apply unique.register located
    apply vacant
    simp only [registering, located, Option.mem_def]
  case h_5 located =>
    cases stepped
    exact unique.moveTo (by rw [located]; rfl) rfl
  case h_6 located =>
    cases stepped
    exact unique.deregister numbered located
  case h_7 => cases stepped

/-- Registering a name that is alive leaves two live versions of it. -/
theorem vacant_of_unique {admission next : Admission} {action : Nat × AdmissionMove}
    (numbered : Numbered admission) (before : Unique admission)
    (stepped : admission.step action = some next) (after : Unique next) :
    Vacant admission action := by
  obtain ⟨handler, move⟩ := action
  intro name named alive
  simp only [registering, Option.mem_def] at named
  split at named
  · rename_i registVersion info located
    cases named
    simp only [Admission.step, located] at stepped
    cases stepped
    obtain ⟨other, version, living⟩ := (before.alive _).mp alive
    have elsewhere : other ≠ handler := by
      intro same
      rw [same, Live, located] at living
      cases living
    have old : (admission.register handler registVersion info).Live other version
        info.nodeName := (live_register _ _ _).mpr (by rw [if_neg elsewhere]; exact living)
    have new : (admission.register handler registVersion info).Live handler registVersion
        info.nodeName := (live_register _ _ _).mpr (by rw [if_pos rfl]; exact ⟨rfl, rfl⟩)
    exact (numbered.register located).apart_live old new elsewhere (after.single old new)
  · cases named

/-- The names are unique in exactly the runs that register no name while it is alive. -/
theorem unique_iff_vacant (run : List (Nat × AdmissionMove)) :
    machine.Along Unique initial run ↔ machine.Obeys Vacant initial run :=
  machine.along_iff_obeys (fun admission => Numbered admission ∧ Unique admission)
    (fun _ valid => valid.2)
    (fun _ _ _ valid vacant stepped =>
      ⟨valid.1.step stepped, valid.2.step valid.1 vacant stepped⟩)
    (fun _ _ _ valid stepped after => vacant_of_unique valid.1 valid.2 stepped after)
    ⟨numbered_initial, unique_initial⟩ run

/-- Two nodes of one name look for it before either is registered. -/
def registeredTwice : List (Nat × AdmissionMove) :=
  [(0, .findExistNode ⟨"10.0.0.1", 4001, "camera", .add⟩),
    (1, .findExistNode ⟨"10.0.0.2", 4002, "camera", .add⟩),
    (0, .takeVersion), (0, .registration), (1, .takeVersion), (1, .registration)]

theorem registeredTwice_not_unique : ¬ machine.Along Unique initial registeredTwice := by
  intro along
  have evaluated : (machine.exec initial registeredTwice).map (fun admission =>
      ((admission.handlers 0).live, (admission.handlers 1).live)) =
      some (some (0, "camera"), some (1, "camera")) := by
    decide +kernel
  obtain ⟨final, executed, same⟩ := Option.map_eq_some_iff.mp evaluated
  obtain ⟨one, other⟩ := Prod.mk.inj same
  have versions := (along.final executed).single one other
  cases versions

end Admission

end ProtoCore.Discovery
