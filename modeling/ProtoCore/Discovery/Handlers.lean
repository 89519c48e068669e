import ProtoCore.Discovery.Registrar
import ProtoCore.Library.Machine

/-!
# Interleaved `Regist` handlers

Every handler takes versions with an atomic increment and writes its slots under
the registrar's lock, which are separate steps. The counter is also the watermark
that all other handlers list up to.
-/

set_option autoImplicit false

namespace ProtoCore.Discovery

open Library

inductive RegistPc where
  | idle
  | registration (registVersion : Nat) (nodeName ip : String) (port : UInt32)
  | listFirst (registVersion : Nat)
  | wait (registVersion keptVersion : Nat)
  | listIncrement (registVersion keptVersion cversion : Nat)
  | write (registVersion keptVersion cversion : Nat) (reply : List NodeInfo)
  | leave (registVersion : Nat)
  | deregistration (registVersion deletedVersion : Nat)
  | done
  deriving DecidableEq

namespace RegistPc

/-- The version taken whose slot is not yet written. -/
def pending : RegistPc → Option Nat
  | .registration registVersion _ _ _ => some registVersion
  | .deregistration _ deletedVersion => some deletedVersion
  | _ => none

/-- The range the next `list` reads, as its first position and its end. -/
def range : RegistPc → Option (Nat × Nat)
  | .listFirst registVersion => some (0, registVersion)
  | .listIncrement _ keptVersion cversion => some (keptVersion + 1, cversion + 1)
  | _ => none

def registered : RegistPc → Option Nat
  | .idle | .registration .. | .done => none
  | .listFirst registVersion | .wait registVersion _ | .listIncrement registVersion _ _
  | .write registVersion _ _ _ | .leave registVersion | .deregistration registVersion _ =>
      some registVersion

def covered : RegistPc → Option Nat
  | .wait _ keptVersion | .listIncrement _ keptVersion _ => some keptVersion
  | .write _ _ cversion _ => some cversion
  | _ => none

def outgoing : RegistPc → List NodeInfo
  | .write _ _ _ reply => reply
  | _ => []

end RegistPc

/-- The service with a record of every slot write, of the commands each caller has
received, and of the positions a `list` has read too early or outside `nodes`. -/
structure Service where
  registrar : Registrar
  handlers : Nat → RegistPc
  writes : List (Nat × NodeInfo)
  received : Nat → List NodeInfo
  misread : List Nat

inductive RegistMove where
  | takeVersion (nodeName ip : String) (port : UInt32)
  | registration
  | list
  | readVersion
  | write (ok : Bool)
  | cancelled
  | takeDeletedVersion
  | deregistration

namespace Service

def initial : Service where
  registrar := Registrar.empty
  handlers := fun _ => .idle
  writes := []
  received := fun _ => []
  misread := []

def Written (service : Service) (position : Nat) : Prop :=
  ∃ info, (position, info) ∈ service.writes

instance (service : Service) (position : Nat) : Decidable (service.Written position) :=
  decidable_of_iff (position ∈ service.writes.map Prod.fst) (by simp [Written])

def moveTo (service : Service) (handler : Nat) (pc : RegistPc) : Service :=
  { service with handlers := Function.update service.handlers handler pc }

def store (service : Service) (handler : Nat) (registrar : Registrar) (position : Nat)
    (info : NodeInfo) (pc : RegistPc) : Service :=
  { service with
    registrar := registrar
    handlers := Function.update service.handlers handler pc
    writes := (position, info) :: service.writes }

/-- Evaluate `list`, recording the positions it should not have read. -/
def readRange (service : Service) (start stop : Nat) : List NodeInfo × List Nat :=
  let nodes := service.registrar.nodes
  let reads := Registrar.listReads nodes (stop - start) start []
  let reply := service.registrar.list start ((stop : Int) - 1)
  (match reply with
    | some reply => reply.operationCmd
    | none => [],
   reads.filter fun position => ¬ (position < nodes.length ∧ service.Written position))

def step (service : Service) (action : Nat × RegistMove) : Option Service :=
  let (handler, move) := action
  match service.handlers handler, move with
  | .idle, .takeVersion nodeName ip port =>
      let (registVersion, registrar) := service.registrar.takeVersion
      some (({ service with registrar := registrar }).moveTo handler
        (.registration registVersion nodeName ip port))
  | .registration registVersion nodeName ip port, .registration =>
      some (service.store handler
        (service.registrar.registration registVersion nodeName ip port) registVersion
        ⟨ip, port, nodeName, .add⟩ (.listFirst registVersion))
  | .listFirst registVersion, .list =>
      let (reply, misread) := service.readRange 0 registVersion
      some { service with
        handlers := Function.update service.handlers handler (.wait registVersion registVersion)
        received := Function.update service.received handler (service.received handler ++ reply)
        misread := service.misread ++ misread }
  | .wait registVersion keptVersion, .readVersion =>
      let cversion := service.registrar.version - 1
      if keptVersion + 1 ≤ cversion then
        some (service.moveTo handler (.listIncrement registVersion keptVersion cversion))
      else some service
  | .listIncrement registVersion keptVersion cversion, .list =>
      let (reply, misread) := service.readRange (keptVersion + 1) (cversion + 1)
      some { service.moveTo handler (.write registVersion keptVersion cversion reply) with
        misread := service.misread ++ misread }
  | .write registVersion _ cversion reply, .write true =>
      some { service.moveTo handler (.wait registVersion cversion) with
        received := Function.update service.received handler (service.received handler ++ reply) }
  | .write registVersion _ _ _, .write false =>
      some (service.moveTo handler (.leave registVersion))
  | .wait registVersion _, .cancelled =>
      some (service.moveTo handler (.leave registVersion))
  | .leave registVersion, .takeDeletedVersion =>
      let (deletedVersion, registrar) := service.registrar.takeVersion
      some (({ service with registrar := registrar }).moveTo handler
        (.deregistration registVersion deletedVersion))
  | .deregistration registVersion deletedVersion, .deregistration =>
      let registrar := service.registrar.deregistration registVersion deletedVersion
      some (service.store handler registrar deletedVersion
        (registrar.nodes.getD deletedVersion Slot.init).2 .done)
  | _, _ => none

def machine : Machine Service (Nat × RegistMove) := ⟨step⟩

/-- No list has read a slot before its write, nothing but written slots has been
received, and every list that is over has left no unwritten slot behind it. -/
structure Published (service : Service) : Prop where
  read : service.misread = []
  received : ∀ handler info, info ∈ service.received handler →
    ∃ position, (position, info) ∈ service.writes
  covered : ∀ handler newest, (service.handlers handler).covered = some newest →
    ∀ position ≤ newest, service.Written position

/-- A `list` is taken while no handler stands between taking a version of the
range and writing its slot. -/
def RangeSettled (service : Service) (action : Nat × RegistMove) : Prop :=
  action.2 = .list → ∀ start stop, (service.handlers action.1).range = some (start, stop) →
    ∀ other position, (service.handlers other).pending = some position →
      ¬ (start ≤ position ∧ position < stop)

/-- Every version taken is written or still pending with exactly one handler. -/
structure Accounted (service : Service) : Prop extends Published service where
  complete : ∀ position < service.registrar.version,
    service.Written position ∨ ∃ handler, (service.handlers handler).pending = some position
  below : ∀ {position : Nat}, service.Written position → position < service.registrar.version
  unwritten : ∀ {handler position : Nat}, (service.handlers handler).pending = some position →
    position < service.registrar.version ∧ ¬ service.Written position
  alone : ∀ {left right position : Nat}, (service.handlers left).pending = some position →
    (service.handlers right).pending = some position → left = right
  stored : ∀ {position : Nat} {info : NodeInfo}, (position, info) ∈ service.writes →
    ∃ first, service.registrar.nodes[position]? = some (first, info)
  pointers : ∀ {position : Nat} {slot : Slot}, service.registrar.nodes[position]? = some slot →
    0 < slot.1 → service.Written slot.1.toNat
  registered : ∀ {handler registVersion : Nat},
    (service.handlers handler).registered = some registVersion → service.Written registVersion
  ranged : ∀ {handler start stop : Nat},
    (service.handlers handler).range = some (start, stop) → stop ≤ service.registrar.version
  outgoing : ∀ {handler : Nat} {info : NodeInfo}, info ∈ (service.handlers handler).outgoing →
    ∃ position, (position, info) ∈ service.writes

theorem accounted_initial : Accounted initial where
  read := rfl
  received _ _ member := by cases member
  covered _ _ reached := by cases reached
  complete _ before := absurd before (Nat.not_lt_zero _)
  below written := by obtain ⟨_, member⟩ := written; cases member
  unwritten waiting := by cases waiting
  alone waiting := by cases waiting
  stored member := by cases member
  pointers located := by simp [initial, Registrar.empty] at located
  registered known := by cases known
  ranged known := by cases known
  outgoing member := by cases member

/-! ## What `list` reads -/

theorem listReads_range (nodes : List Slot) {remaining start position : Nat}
    {skipVersion : List Int}
    (member : position ∈ Registrar.listReads nodes remaining start skipVersion) :
    start ≤ position ∧ position < start + remaining := by
  induction remaining generalizing start skipVersion with
  | zero => cases member
  | succ remaining ih =>
      simp only [Registrar.listReads] at member
      split at member
      · have := ih member
        omega
      · split at member
        · have : position = start := by simpa using member
          omega
        · rcases List.mem_cons.mp member with same | later
          · omega
          · have := ih later
            omega

theorem listLoop_reads {nodes : List Slot} {remaining start : Nat} {skipVersion : List Int}
    {cmds : List NodeInfo}
    (looped : Registrar.listLoop nodes remaining start skipVersion = some cmds)
    {info : NodeInfo} (member : info ∈ cmds) :
    ∃ position ∈ Registrar.listReads nodes remaining start skipVersion,
      ∃ first, nodes[position]? = some (first, info) := by
  induction remaining generalizing start skipVersion cmds with
  | zero =>
      cases looped
      cases member
  | succ remaining ih =>
      simp only [Registrar.listLoop] at looped
      simp only [Registrar.listReads]
      split at looped
      · rename_i skipped
        simp only [skipped, if_true]
        exact ih looped member
      · rename_i visited
        simp only [visited, if_false]
        cases slot : nodes[start]? with
        | none =>
            rw [slot] at looped
            cases looped
        | some content =>
            obtain ⟨first, second⟩ := content
            simp only [slot] at looped ⊢
            split at looped
            · rename_i cancelled
              simp only [cancelled, if_true]
              obtain ⟨position, read, found⟩ := ih looped member
              exact ⟨position, List.mem_cons_of_mem _ read, found⟩
            · rename_i kept
              simp only [kept, if_false]
              obtain ⟨rest, tail, rfl⟩ := Option.map_eq_some_iff.mp looped
              rcases List.mem_cons.mp member with same | later
              · exact ⟨start, List.mem_cons_self, first, by rw [slot, same]⟩
              · obtain ⟨position, read, found⟩ := ih tail later
                exact ⟨position, List.mem_cons_of_mem _ read, found⟩

/-- If every slot `list` reads satisfies a property that pointers carry along,
then so does every position of the range, read or skipped. -/
theorem listReads_covers {nodes : List Slot} {good : Nat → Prop}
    (inside : ∀ position, good position → position < nodes.length)
    (pointers : ∀ {position : Nat} {slot : Slot}, nodes[position]? = some slot → 0 < slot.1 →
      good slot.1.toNat)
    {remaining start : Nat} {skipVersion : List Int}
    (skipped : ∀ first ∈ skipVersion, good first.toNat)
    (read : ∀ position ∈ Registrar.listReads nodes remaining start skipVersion, good position)
    {position : Nat} (after : start ≤ position) (before : position < start + remaining) :
    good position := by
  induction remaining generalizing start skipVersion with
  | zero => omega
  | succ remaining ih =>
      simp only [Registrar.listReads] at read
      by_cases member : (start : Int) ∈ skipVersion
      · simp only [member, if_true] at read
        by_cases here : position = start
        · have := skipped _ member
          simpa [here] using this
        · exact ih skipped read (by omega) (by omega)
      · simp only [member, if_false] at read
        cases slot : nodes[start]? with
        | none =>
            have outside : nodes.length ≤ start := List.getElem?_eq_none_iff.mp slot
            have := inside start (read start (by simp [slot]))
            omega
        | some content =>
            obtain ⟨first, second⟩ := content
            simp only [slot] at read
            by_cases here : position = start
            · exact here ▸ read start List.mem_cons_self
            · refine ih ?_ (fun other later => read other (List.mem_cons_of_mem _ later))
                (by omega) (by omega)
              split
              · rename_i cancelled
                intro other later
                rcases List.mem_cons.mp later with same | earlier
                · exact same ▸ pointers slot cancelled
                · exact skipped other earlier
              · exact skipped

theorem Accounted.inside {service : Service} (accounted : Accounted service) {position : Nat}
    (written : service.Written position) : position < service.registrar.nodes.length := by
  obtain ⟨info, member⟩ := written
  obtain ⟨first, located⟩ := accounted.stored member
  exact (List.getElem?_eq_some_iff.mp located).1

theorem Accounted.misread_iff {service : Service} (accounted : Accounted service)
    (start stop : Nat) : (service.readRange start stop).2 = [] ↔
      ∀ position, start ≤ position → position < stop → service.Written position := by
  simp only [readRange, List.filter_eq_nil_iff, decide_eq_true_eq, not_not]
  constructor
  · intro read position after before
    have unskipped : ∀ first ∈ ([] : List Int), service.Written first.toNat := nofun
    exact listReads_covers (fun position written => accounted.inside written) accounted.pointers
      unskipped (fun position member => (read position member).2) after (by omega)
  · intro written position member
    have bounds := listReads_range _ member
    have here := written position bounds.1 (by omega)
    exact ⟨accounted.inside here, here⟩

theorem Accounted.replied {service : Service} (accounted : Accounted service) {start stop : Nat}
    (written : ∀ position, start ≤ position → position < stop → service.Written position)
    {info : NodeInfo} (member : info ∈ (service.readRange start stop).1) :
    ∃ position, (position, info) ∈ service.writes := by
  simp only [readRange] at member
  split at member
  · rename_i reply listed
    obtain ⟨cmds, looped, rfl⟩ := Option.map_eq_some_iff.mp listed
    have size : (((stop : Int) - 1) + 1 - start).toNat = stop - start := by omega
    rw [size] at looped
    obtain ⟨position, read, first, located⟩ := listLoop_reads looped member
    have bounds := listReads_range _ read
    obtain ⟨stored, wrote⟩ := written position bounds.1 (by omega)
    obtain ⟨first', located'⟩ := accounted.stored wrote
    rw [located] at located'
    cases located'
    exact ⟨position, wrote⟩
  · cases member

theorem Accounted.settled {service : Service} (accounted : Accounted service)
    {handler start stop : Nat} (ranged : (service.handlers handler).range = some (start, stop))
    (settled : RangeSettled service (handler, .list)) (position : Nat) (after : start ≤ position)
    (before : position < stop) : service.Written position := by
  have taken := before.trans_le (accounted.ranged ranged)
  rcases accounted.complete position taken with written | ⟨other, waiting⟩
  · exact written
  · exact absurd ⟨after, before⟩ (settled rfl start stop ranged other position waiting)

/-! ## Preservation, one lemma for each kind of step -/

theorem moveTo_handlers (service : Service) (handler other : Nat) (pc : RegistPc) :
    (service.moveTo handler pc).handlers other =
      if other = handler then pc else service.handlers other := by
  simp [moveTo, Function.update_apply]

theorem Accounted.moveTo {service : Service} (accounted : Accounted service) {handler : Nat}
    {pc : RegistPc} (idle : (service.handlers handler).pending = none) (free : pc.pending = none)
    (registered : ∀ {registVersion : Nat}, pc.registered = some registVersion →
      service.Written registVersion)
    (covered : ∀ newest, pc.covered = some newest → ∀ position ≤ newest, service.Written position)
    (ranged : ∀ {start stop : Nat}, pc.range = some (start, stop) →
      stop ≤ service.registrar.version)
    (outgoing : ∀ {info : NodeInfo}, info ∈ pc.outgoing →
      ∃ position, (position, info) ∈ service.writes) : Accounted (service.moveTo handler pc) := by
  have waiting : ∀ {other position : Nat},
      ((service.moveTo handler pc).handlers other).pending = some position ↔
        (service.handlers other).pending = some position := by
    intro other position
    rw [moveTo_handlers]
    split
    · rename_i same
      rw [free, same, idle]
    · rfl
  refine ⟨⟨accounted.read, accounted.received, ?_⟩, ?_, accounted.below, ?_, ?_, accounted.stored,
    accounted.pointers, ?_, ?_, ?_⟩
  · intro other newest reached
    rw [moveTo_handlers] at reached
    split at reached
    · exact covered newest reached
    · exact accounted.covered other newest reached
  · intro position before
    rcases accounted.complete position before with written | ⟨other, pending⟩
    · exact .inl written
    · exact .inr ⟨other, waiting.mpr pending⟩
  · exact fun pending => accounted.unwritten (waiting.mp pending)
  · exact fun left right => accounted.alone (waiting.mp left) (waiting.mp right)
  · intro other registVersion known
    rw [moveTo_handlers] at known
    split at known
    · exact registered known
    · exact accounted.registered known
  · intro other start stop known
    rw [moveTo_handlers] at known
    split at known
    · exact ranged known
    · exact accounted.ranged known
  · intro other info member
    rw [moveTo_handlers] at member
    split at member
    · exact outgoing member
    · exact accounted.outgoing member

/-- The atomic increment gives the handler a version nobody has written. -/
theorem Accounted.take {service : Service} (accounted : Accounted service) {handler : Nat}
    {pc : RegistPc} (idle : (service.handlers handler).pending = none)
    (taken : pc.pending = some service.registrar.version)
    (registered : ∀ {registVersion : Nat}, pc.registered = some registVersion →
      service.Written registVersion)
    (covered : pc.covered = none) (ranged : pc.range = none) (outgoing : pc.outgoing = []) :
    Accounted
      (({ service with registrar := service.registrar.takeVersion.2 }).moveTo handler pc) := by
  have waiting : ∀ {other position : Nat},
      ((service.moveTo handler pc).handlers other).pending = some position ↔
        other = handler ∧ position = service.registrar.version ∨
          (service.handlers other).pending = some position := by
    intro other position
    rw [moveTo_handlers]
    split
    · rename_i same
      rw [taken, same, idle]
      simp [eq_comm]
    · rename_i different
      simp [different]
  refine ⟨⟨accounted.read, accounted.received, ?_⟩, ?_, ?_, ?_, ?_, accounted.stored,
    accounted.pointers, ?_, ?_, ?_⟩
  · intro other newest reached
    change ((service.moveTo handler pc).handlers other).covered = _ at reached
    rw [moveTo_handlers] at reached
    split at reached
    · rw [covered] at reached
      cases reached
    · exact accounted.covered other newest reached
  · intro position before
    change position < service.registrar.version + 1 at before
    by_cases last : position = service.registrar.version
    · exact .inr ⟨handler, waiting.mpr (.inl ⟨rfl, last⟩)⟩
    · rcases accounted.complete position (by omega) with written | ⟨other, pending⟩
      · exact .inl written
      · exact .inr ⟨other, waiting.mpr (.inr pending)⟩
  · exact fun written => (accounted.below written).trans (Nat.lt_succ_self _)
  · intro other position pending
    rcases waiting.mp pending with ⟨_, rfl⟩ | pending
    · exact ⟨Nat.lt_succ_self _, fun written => absurd (accounted.below written) (lt_irrefl _)⟩
    · obtain ⟨before, unwritten⟩ := accounted.unwritten pending
      exact ⟨before.trans (Nat.lt_succ_self _), unwritten⟩
  · intro left right position first second
    rcases waiting.mp first with ⟨rfl, same⟩ | old <;>
      rcases waiting.mp second with ⟨rfl, same'⟩ | old'
    · rfl
    · have := (accounted.unwritten old').1
      omega
    · have := (accounted.unwritten old).1
      omega
    · exact accounted.alone old old'
  · intro other registVersion known
    change ((service.moveTo handler pc).handlers other).registered = _ at known
    rw [moveTo_handlers] at known
    split at known
    · exact registered known
    · exact accounted.registered known
  · intro other start stop known
    change ((service.moveTo handler pc).handlers other).range = _ at known
    rw [moveTo_handlers] at known
    split at known
    · rw [ranged] at known
      cases known
    · exact (accounted.ranged known).trans (Nat.le_succ _)
  · intro other info member
    change info ∈ ((service.moveTo handler pc).handlers other).outgoing at member
    rw [moveTo_handlers] at member
    split at member
    · rw [outgoing] at member
      cases member
    · exact accounted.outgoing member

theorem written_store {service : Service} {handler position other : Nat} {registrar : Registrar}
    {info : NodeInfo} {pc : RegistPc} :
    (service.store handler registrar position info pc).Written other ↔
      other = position ∨ service.Written other := by
  simp only [Written, store, List.mem_cons, Prod.mk.injEq]
  constructor
  · intro stored
    rcases stored with ⟨content, ⟨same, _⟩ | member⟩
    · exact .inl same
    · exact .inr ⟨content, member⟩
  · intro stored
    rcases stored with rfl | ⟨content, member⟩
    · exact ⟨info, .inl ⟨rfl, rfl⟩⟩
    · exact ⟨content, .inr member⟩

/-- Writing the pending slot of a handler, with every older slot kept. -/
theorem Accounted.store {service : Service} (accounted : Accounted service)
    {handler position : Nat} {registrar : Registrar} {info : NodeInfo} {pc : RegistPc}
    (pending : (service.handlers handler).pending = some position)
    (sameVersion : registrar.version = service.registrar.version)
    (written : ∃ first, registrar.nodes[position]? = some (first, info))
    (kept : ∀ {other : Nat}, other ≠ position → other < service.registrar.nodes.length →
      registrar.nodes[other]?.map Prod.snd = service.registrar.nodes[other]?.map Prod.snd)
    (pointers : ∀ {other : Nat} {slot : Slot}, registrar.nodes[other]? = some slot → 0 < slot.1 →
      slot.1.toNat = position ∨ service.Written slot.1.toNat)
    (free : pc.pending = none) (uncovered : pc.covered = none)
    (registered : ∀ {registVersion : Nat}, pc.registered = some registVersion →
      registVersion = position)
    (ranged : ∀ {start stop : Nat}, pc.range = some (start, stop) → stop ≤ position)
    (silent : pc.outgoing = []) :
    Accounted (service.store handler registrar position info pc) := by
  obtain ⟨taken, unwritten⟩ := accounted.unwritten pending
  have handlers : ∀ other, (service.store handler registrar position info pc).handlers other =
      if other = handler then pc else service.handlers other :=
    fun other => by simp [Service.store, Function.update_apply]
  have waiting : ∀ {other waited : Nat},
      ((service.store handler registrar position info pc).handlers other).pending = some waited →
        other ≠ handler ∧ (service.handlers other).pending = some waited := by
    intro other waited known
    rw [handlers] at known
    split at known
    · rw [free] at known
      cases known
    · rename_i different
      exact ⟨different, known⟩
  exact {
    read := accounted.read
    received := by
      intro other content member
      obtain ⟨origin, wrote⟩ := accounted.received other content member
      exact ⟨origin, List.mem_cons_of_mem _ wrote⟩
    covered := by
      intro other newest reached earlier before
      rw [handlers] at reached
      split at reached
      · rw [uncovered] at reached
        cases reached
      · exact written_store.mpr (.inr (accounted.covered other newest reached earlier before))
    complete := by
      intro other before
      rw [show (service.store handler registrar position info pc).registrar.version =
        service.registrar.version from sameVersion] at before
      by_cases here : other = position
      · exact .inl (written_store.mpr (.inl here))
      · rcases accounted.complete other before with old | ⟨owner, waited⟩
        · exact .inl (written_store.mpr (.inr old))
        · refine .inr ⟨owner, ?_⟩
          rw [handlers]
          split
          · rename_i same
            rw [same, pending] at waited
            cases waited
            exact absurd rfl here
          · exact waited
    below := by
      intro other wrote
      rw [show (service.store handler registrar position info pc).registrar.version =
        service.registrar.version from sameVersion]
      rcases written_store.mp wrote with rfl | old
      · exact taken
      · exact accounted.below old
    unwritten := by
      intro other waited known
      obtain ⟨different, known⟩ := waiting known
      obtain ⟨before, unwrote⟩ := accounted.unwritten known
      refine ⟨sameVersion ▸ before, fun wrote => ?_⟩
      rcases written_store.mp wrote with same | old
      · exact different (accounted.alone (same ▸ known) pending)
      · exact unwrote old
    alone := fun left right => accounted.alone (waiting left).2 (waiting right).2
    stored := by
      intro other content member
      simp only [Service.store, List.mem_cons, Prod.mk.injEq] at member ⊢
      rcases member with ⟨rfl, rfl⟩ | old
      · exact written
      · have different : other ≠ position := fun same => unwritten ⟨content, same ▸ old⟩
        obtain ⟨first, located⟩ := accounted.stored old
        have same := kept different (List.getElem?_eq_some_iff.mp located).1
        rw [located] at same
        obtain ⟨slot, found, rfl⟩ := Option.map_eq_some_iff.mp same
        exact ⟨slot.1, found⟩
    pointers := by
      intro other slot located positive
      rcases pointers located positive with same | old
      · exact written_store.mpr (.inl same)
      · exact written_store.mpr (.inr old)
    registered := by
      intro other registVersion known
      rw [handlers] at known
      split at known
      · exact written_store.mpr (.inl (registered known))
      · exact written_store.mpr (.inr (accounted.registered known))
    ranged := by
      intro other start stop known
      rw [handlers] at known
      split at known
      · exact (ranged known).trans (sameVersion ▸ taken.le)
      · exact (accounted.ranged known).trans sameVersion.ge
    outgoing := by
      intro other content member
      rw [handlers] at member
      split at member
      · rw [silent] at member
        cases member
      · obtain ⟨origin, wrote⟩ := accounted.outgoing member
        exact ⟨origin, List.mem_cons_of_mem _ wrote⟩ }

theorem Accounted.record {service : Service} (accounted : Accounted service)
    {handler : Nat} {reply : List NodeInfo} (replied : ∀ info ∈ reply,
      ∃ position, (position, info) ∈ service.writes) :
    Accounted { service with
      received := Function.update service.received handler (service.received handler ++ reply) } where
  toPublished := by
    refine ⟨accounted.read, ?_, accounted.covered⟩
    intro other info member
    by_cases same : other = handler
    · subst same
      simp only [Function.update_self, List.mem_append] at member
      rcases member with old | new
      · exact accounted.received other info old
      · exact replied info new
    · simp only [Function.update_of_ne same] at member
      exact accounted.received other info member
  complete := accounted.complete
  below := accounted.below
  unwritten := accounted.unwritten
  alone := accounted.alone
  stored := accounted.stored
  pointers := accounted.pointers
  registered := accounted.registered
  ranged := accounted.ranged
  outgoing := accounted.outgoing

theorem reserve_getElem?_mem {nodes : List Slot} {bound position : Nat} {slot : Slot}
    (located : (reserve nodes bound)[position]? = some slot) :
    nodes[position]? = some slot ∨ slot = Slot.init := by
  unfold reserve at located
  split at located
  · rw [resize, List.take_of_length_le (by omega), List.getElem?_append] at located
    split at located
    · exact .inl located
    · exact .inr (List.eq_of_mem_replicate (List.mem_of_getElem? located))
  · exact .inl located

theorem Accounted.registrationStep {service : Service} (accounted : Accounted service)
    {handler registVersion : Nat} {nodeName ip : String} {port : UInt32}
    (pc : service.handlers handler = .registration registVersion nodeName ip port) :
    Accounted (service.store handler
      (service.registrar.registration registVersion nodeName ip port) registVersion
      ⟨ip, port, nodeName, .add⟩ (.listFirst registVersion)) := by
  refine accounted.store (by rw [pc]; rfl) rfl
    ⟨-1, List.getElem?_set_self (lt_reserve_length _ _)⟩ ?_ ?_ rfl rfl ?_ ?_ rfl
  · intro other different inside
    simp only [Registrar.registration]
    rw [List.getElem?_set_ne different.symm, reserve_getElem?_old inside]
  · intro other slot located positive
    by_cases here : other = registVersion
    · subst here
      simp only [Registrar.registration] at located
      rw [List.getElem?_set_self (lt_reserve_length _ _)] at located
      cases located
      cases positive
    · simp only [Registrar.registration] at located
      rw [List.getElem?_set_ne (Ne.symm here)] at located
      rcases reserve_getElem?_mem located with old | new
      · exact .inr (accounted.pointers old positive)
      · rw [new] at positive
        cases positive
  · intro other known
    cases known
    rfl
  · intro start stop known
    cases known
    exact le_rfl

theorem Accounted.deregistrationStep {service : Service} (accounted : Accounted service)
    {handler registVersion deletedVersion : Nat}
    (pc : service.handlers handler = .deregistration registVersion deletedVersion) :
    let registrar := service.registrar.deregistration registVersion deletedVersion
    Accounted (service.store handler registrar deletedVersion
      (registrar.nodes.getD deletedVersion Slot.init).2 .done) := by
  intro registrar
  have pending : (service.handlers handler).pending = some deletedVersion := by rw [pc]; rfl
  have unwritten := (accounted.unwritten pending).2
  have own : service.Written registVersion := 
    accounted.registered (congrArg RegistPc.registered pc)
  have different : registVersion ≠ deletedVersion := fun same => unwritten (same ▸ own)
  obtain ⟨info, wrote⟩ := own
  obtain ⟨first, located⟩ := accounted.stored wrote
  have inside := (List.getElem?_eq_some_iff.mp located).1
  have reserved : (reserve service.registrar.nodes deletedVersion)[registVersion]? =
      some (first, info) := (reserve_getElem?_old inside).trans located
  have nodes : registrar.nodes =
      ((reserve service.registrar.nodes deletedVersion).set deletedVersion
        (-1, { info with code := .delete })).set registVersion ((deletedVersion : Int), info) := by
    simp [registrar, Registrar.deregistration, List.getD_eq_getElem?_getD, reserved,
      List.getElem?_set_ne different.symm]
  have deleted : registrar.nodes[deletedVersion]? = some (-1, { info with code := .delete }) := by
    rw [nodes, List.getElem?_set_ne different, List.getElem?_set_self (lt_reserve_length _ _)]
  refine accounted.store pending rfl ⟨-1, by simp [List.getD_eq_getElem?_getD, deleted]⟩ ?_ ?_ rfl
    rfl (fun known => by cases known) (fun known => by cases known) rfl
  · intro other notHere before
    rw [nodes]
    by_cases same : other = registVersion
    · subst same
      rw [List.getElem?_set_self (by simpa using before.trans_le (length_le_reserve _ _)), located]
      rfl
    · rw [List.getElem?_set_ne (Ne.symm same), List.getElem?_set_ne notHere.symm,
        reserve_getElem?_old before]
  · intro other slot found positive
    rw [nodes] at found
    by_cases same : other = registVersion
    · subst same
      rw [List.getElem?_set_self (by simpa using inside.trans_le (length_le_reserve _ _))] at found
      cases found
      exact .inl (by simp)
    · rw [List.getElem?_set_ne (Ne.symm same)] at found
      by_cases here : other = deletedVersion
      · subst here
        rw [List.getElem?_set_self (lt_reserve_length _ _)] at found
        cases found
        cases positive
      · rw [List.getElem?_set_ne (Ne.symm here)] at found
        rcases reserve_getElem?_mem found with old | new
        · exact .inr (accounted.pointers old positive)
        · rw [new] at positive
          cases positive

theorem Accounted.listFirstStep {service : Service} (accounted : Accounted service)
    {handler registVersion : Nat}
    (pc : service.handlers handler = .listFirst registVersion)
    (written : ∀ position < registVersion, service.Written position) :
    Accounted { service with
      handlers := Function.update service.handlers handler (.wait registVersion registVersion)
      received := Function.update service.received handler
        (service.received handler ++ (service.readRange 0 registVersion).1)
      misread := service.misread ++ (service.readRange 0 registVersion).2 } := by
  have inRange : ∀ position, 0 ≤ position → position < registVersion →
      service.Written position := fun position _ before => written position before
  rw [(accounted.misread_iff 0 registVersion).mpr inRange, List.append_nil]
  have own : service.Written registVersion := 
    accounted.registered (congrArg RegistPc.registered pc)
  have moved : Accounted (service.moveTo handler (.wait registVersion registVersion)) := by
    refine accounted.moveTo (by rw [pc]; rfl) rfl (fun known => by cases known; exact own) ?_
      (fun known => by cases known) (fun member => by cases member)
    intro newest reached position before
    cases reached
    rcases before.lt_or_eq with below | rfl
    · exact written position below
    · exact own
  exact moved.record fun info member => accounted.replied inRange member

theorem Accounted.listIncrementStep {service : Service} (accounted : Accounted service)
    {handler registVersion keptVersion cversion : Nat}
    (pc : service.handlers handler = .listIncrement registVersion keptVersion cversion)
    (written : ∀ position, keptVersion + 1 ≤ position → position < cversion + 1 →
      service.Written position) :
    Accounted { service.moveTo handler (.write registVersion keptVersion cversion
        (service.readRange (keptVersion + 1) (cversion + 1)).1) with
      misread := service.misread ++ (service.readRange (keptVersion + 1) (cversion + 1)).2 } := by
  rw [(accounted.misread_iff _ _).mpr written, List.append_nil]
  refine accounted.moveTo (by rw [pc]; rfl) rfl ?_ ?_ (fun known => by cases known) ?_
  · intro other known
    cases known
    exact accounted.registered (congrArg RegistPc.registered pc)
  · intro newest reached position before
    cases reached
    by_cases kept : position ≤ keptVersion
    · exact accounted.covered handler keptVersion (by rw [pc]; rfl) position kept
    · exact written position (by omega) (by omega)
  · exact fun member => accounted.replied written member

theorem Accounted.step {service next : Service} {action : Nat × RegistMove}
    (accounted : Accounted service) (settled : RangeSettled service action)
    (stepped : service.step action = some next) : Accounted next := by
  obtain ⟨handler, move⟩ := action
  simp only [Service.step] at stepped
  split at stepped
  case h_1 nodeName ip port pc =>
      cases stepped
      exact accounted.take (by rw [pc]; rfl) rfl (fun known => by cases known) rfl rfl rfl
  case h_2 pc =>
      cases stepped
      exact accounted.registrationStep pc
  case h_3 registVersion pc =>
      cases stepped
      exact accounted.listFirstStep pc fun position before =>
        accounted.settled (by rw [pc]; rfl) settled position (Nat.zero_le _) before
  case h_4 registVersion keptVersion pc =>
      split at stepped
      · cases stepped
        refine accounted.moveTo (by rw [pc]; rfl) rfl ?_ ?_ ?_ (fun member => by cases member)
        · intro other known
          cases known
          exact accounted.registered (congrArg RegistPc.registered pc)
        · intro newest reached
          cases reached
          exact accounted.covered handler keptVersion (by rw [pc]; rfl)
        · intro start stop known
          cases known
          omega
      · cases stepped
        exact accounted
  case h_5 pc =>
      cases stepped
      exact accounted.listIncrementStep pc (accounted.settled (by rw [pc]; rfl) settled)
  case h_6 registVersion keptVersion cversion reply pc =>
      cases stepped
      have moved : Accounted (service.moveTo handler (.wait registVersion cversion)) := by
        refine accounted.moveTo (by rw [pc]; rfl) rfl ?_ ?_ (fun known => by cases known)
          (fun member => by cases member)
        · intro other known
          cases known
          exact accounted.registered (congrArg RegistPc.registered pc)
        · intro newest reached
          cases reached
          exact accounted.covered handler cversion (by rw [pc]; rfl)
      refine moved.record fun info member => ?_
      have listed : info ∈ (service.handlers handler).outgoing := by
        rw [pc]
        exact member
      exact accounted.outgoing listed
  case h_7 pc =>
      cases stepped
      refine accounted.moveTo (by rw [pc]; rfl) rfl ?_ (fun _ reached => by cases reached)
        (fun known => by cases known) (fun member => by cases member)
      intro other known
      cases known
      exact accounted.registered (congrArg RegistPc.registered pc)
  case h_8 pc =>
      cases stepped
      refine accounted.moveTo (by rw [pc]; rfl) rfl ?_ (fun _ reached => by cases reached)
        (fun known => by cases known) (fun member => by cases member)
      intro other known
      cases known
      exact accounted.registered (congrArg RegistPc.registered pc)
  case h_9 pc =>
      cases stepped
      refine accounted.take (by rw [pc]; rfl) rfl ?_ rfl rfl rfl
      intro other known
      cases known
      exact accounted.registered (congrArg RegistPc.registered pc)
  case h_10 pc =>
      cases stepped
      exact accounted.deregistrationStep pc
  case h_11 => cases stepped

/-- Listing over a pending version leaves a misread position on record. -/
theorem Accounted.settled_of_published {service next : Service} {action : Nat × RegistMove}
    (accounted : Accounted service) (stepped : service.step action = some next)
    (published : Published next) : RangeSettled service action := by
  obtain ⟨handler, move⟩ := action
  intro listed start stop ranged other position waiting within
  obtain ⟨after, before⟩ := within
  cases (listed : move = .list)
  have unwritten := (accounted.unwritten waiting).2
  suffices (service.readRange start stop).2 = [] from
    unwritten ((accounted.misread_iff start stop).mp this position after before)
  simp only [Service.step] at stepped
  cases pc : service.handlers handler with
  | listFirst registVersion =>
      rw [pc] at ranged stepped
      cases ranged
      cases stepped
      exact (List.append_eq_nil_iff.mp published.read).2
  | listIncrement registVersion keptVersion cversion =>
      rw [pc] at ranged stepped
      cases ranged
      cases stepped
      exact (List.append_eq_nil_iff.mp published.read).2
  | _ =>
      rw [pc] at ranged
      cases ranged

/-- The watermark is safe in exactly the runs that never list across a version
another handler has taken but not yet written. -/
theorem published_iff_rangeSettled (run : List (Nat × RegistMove)) :
    machine.Along Published initial run ↔ machine.Obeys RangeSettled initial run :=
  machine.along_iff_obeys Accounted (fun _ accounted => accounted.toPublished)
    (fun _ _ _ accounted settled stepped => accounted.step settled stepped)
    (fun _ _ _ accounted stepped published => accounted.settled_of_published stepped published)
    accounted_initial run

/-- The first node is registered and waits; the second has taken version 1 when
the first lists up to it, and receives an empty node instead. -/
def earlyList : List (Nat × RegistMove) :=
  [(0, .takeVersion "camera" "10.0.0.1" 4001), (0, .registration), (0, .list),
    (1, .takeVersion "lidar" "10.0.0.2" 4002), (0, .readVersion), (0, .list), (0, .write true),
    (1, .registration)]

theorem earlyList_not_published : ¬ machine.Along Published initial earlyList := by
  intro along
  have evaluated : (machine.exec initial earlyList).map (·.misread) = some [1] := by
    decide +kernel
  obtain ⟨final, executed, misread⟩ := Option.map_eq_some_iff.mp evaluated
  have published := along.final executed
  rw [published.read] at misread
  cases misread

end Service

end ProtoCore.Discovery
