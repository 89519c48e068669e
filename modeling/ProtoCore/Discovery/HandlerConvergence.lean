import ProtoCore.Discovery.Handlers
import ProtoCore.Library.MarkedLog

/-!
# Subscribers of interleaved handlers converge

The handlers of `Regist` take their versions and write their slots in separate steps, so a slot
may be written before an older one, and a node is marked as deleted some time after the version
of its deletion is taken. What a subscriber is sent still adds up to the registered nodes, as
long as no version is listed before its slot is written and no two live nodes share a name.
-/

set_option autoImplicit false

namespace ProtoCore.Discovery

open Library Library.CompactedLog

namespace RegistPc

/-- The version that is registered, or about to be, and not yet to be deleted. -/
def current : RegistPc → Option Nat
  | .registration registVersion _ _ _ | .listFirst registVersion | .wait registVersion _
  | .listIncrement registVersion _ _ | .write registVersion _ _ _ | .leave registVersion =>
      some registVersion
  | .idle | .deregistration .. | .done => none

/-- The subscriber's own version and the newest one that it has been sent, or is being sent. -/
def reading : RegistPc → Option (Nat × Nat)
  | .wait registVersion keptVersion | .listIncrement registVersion keptVersion _ =>
      some (registVersion, keptVersion)
  | .write registVersion _ cversion _ => some (registVersion, cversion)
  | _ => none

def unheard : RegistPc → Bool
  | .idle | .registration .. | .listFirst _ => true
  | _ => false

end RegistPc

/-- The slot has the version of its deletion. -/
def Registrar.Marked (registrar : Registrar) (position : Nat) : Prop :=
  ∃ slot ∈ registrar.nodes[position]?, 0 < slot.1

instance (registrar : Registrar) : DecidablePred registrar.Marked := fun position =>
  match located : registrar.nodes[position]? with
  | none => isFalse fun ⟨_, found, _⟩ => by
      rw [located] at found
      cases found
  | some slot => decidable_of_iff (0 < slot.1) <| by
      simp only [Registrar.Marked, located, Option.mem_def, Option.some.injEq, exists_eq_left']

namespace Service

/-- The name under which a handler has a node, or is about to. -/
def nameOf (service : Service) (handler : Nat) : Option String :=
  match service.handlers handler with
  | .registration _ nodeName _ _ => some nodeName
  | pc => pc.current.bind fun registVersion =>
      (service.registrar.nodes[registVersion]?).map fun slot => slot.2.nodeName

/-- No handler has a node of that name when one takes its version. -/
def NameFree (service : Service) (action : Nat × RegistMove) : Prop :=
  match action.2 with
  | .takeVersion nodeName _ _ => ∀ handler, service.nameOf handler ≠ some nodeName
  | _ => True

/-- What the subscriber behind a handler shows. -/
def shown (service : Service) (handler : Nat) : NodeView :=
  (service.received handler).foldl NodeRegist.execute fun _ => none

/-- A subscriber that has been sent the newest version shows the nodes of the other handlers. -/
def Converged (service : Service) : Prop :=
  ∀ handler registVersion keptVersion,
    service.handlers handler = .wait registVersion keptVersion →
    keptVersion + 1 = service.registrar.version → ∀ nodeName endpoint,
    service.shown handler nodeName = some endpoint ↔
      ∃ other version first, other ≠ handler ∧ (service.handlers other).current = some version ∧
        service.registrar.nodes[version]? = some (first, ⟨endpoint.1, endpoint.2, nodeName, .add⟩)

/-! ## The log behind the versions -/

/-- A version has its event from when it is taken. Its slot shows that event once it is written, and
that of its removal once that is written. -/
structure Logged (service : Service) (log : List LogEvent) : Prop where
  accounted : Accounted service
  wellFormed : WellFormed log
  version : service.registrar.version = log.length
  added : ∀ {position : Nat} {name : String} {endpoint : String × UInt32},
    log[position]? = some (.add name endpoint) → service.Written position →
    ∃ first, service.registrar.nodes[position]? =
      some (first, ⟨endpoint.1, endpoint.2, name, .add⟩)
  marked : ∀ {position : Nat} {slot : Slot}, service.registrar.nodes[position]? = some slot →
    0 < slot.1 → log[slot.1.toNat]? = some (.remove position)
  removed : ∀ {position target : Nat} {name : String} {endpoint : String × UInt32},
    log[position]? = some (.remove target) → service.Written position →
    log[target]? = some (.add name endpoint) →
    service.registrar.nodes[position]? = some (-1, ⟨endpoint.1, endpoint.2, name, .delete⟩) ∧
      service.registrar.nodes[target]? =
        some ((position : Int), ⟨endpoint.1, endpoint.2, name, .add⟩)
  registering : ∀ {handler registVersion : Nat} {name ip : String} {port : UInt32},
    service.handlers handler = .registration registVersion name ip port →
    log[registVersion]? = some (.add name (ip, port))
  deleting : ∀ {handler registVersion deletedVersion : Nat},
    service.handlers handler = .deregistration registVersion deletedVersion →
    log[deletedVersion]? = some (.remove registVersion)
  owned : ∀ {handler position : Nat}, (service.handlers handler).current = some position →
    ∃ name endpoint, Live log position name endpoint
  owner : ∀ {position : Nat} {name : String} {endpoint : String × UInt32},
    Live log position name endpoint → ∃ handler, (service.handlers handler).current = some position
  apart : ∀ {left right position : Nat}, (service.handlers left).current = some position →
    (service.handlers right).current = some position → left = right
  ordered : ∀ {handler start stop : Nat},
    (service.handlers handler).range = some (start, stop) → start ≤ stop
  silent : ∀ {handler : Nat}, (service.handlers handler).unheard = true →
    service.received handler = []
  reading : ∀ {handler own kept : Nat}, (service.handlers handler).reading = some (own, kept) →
    own ≤ kept ∧ kept < log.length ∧ Tracks log own (kept + 1)
      (replay (fun _ => none)
        ((service.received handler ++ (service.handlers handler).outgoing).map NodeInfo.command))

theorem logged_initial : Logged initial [] where
  accounted := accounted_initial
  wellFormed := wellFormed_nil
  version := rfl
  added found := by cases found
  marked located := by cases located
  removed found := by cases found
  registering found := by cases found
  deleting found := by cases found
  owned found := by cases found
  owner living := absurd living.1 (Nat.not_lt_zero _)
  apart found := by cases found
  ordered found := by cases found
  silent _ := rfl
  reading found := by cases found

/-! ## What `list` sends -/

/-- The versions to skip are those in the marks that the loop has passed. -/
def SkipsMarked (registrar : Registrar) (start position : Nat) (skipVersion : List Int) : Prop :=
  ∀ i : Nat, (i : Int) ∈ skipVersion ↔ ∃ target slot, start ≤ target ∧ target < position ∧
    registrar.nodes[target]? = some slot ∧ 0 < slot.1 ∧ slot.1 = i

theorem SkipsMarked.pass {registrar : Registrar} {start position : Nat} {skipVersion : List Int}
    (skips : SkipsMarked registrar start position skipVersion)
    (unmarked : ¬ registrar.Marked position) :
    SkipsMarked registrar start (position + 1) skipVersion := by
  intro i
  rw [skips i]
  constructor
  · rintro ⟨target, slot, first, before, located, positive, same⟩
    exact ⟨target, slot, first, by omega, located, positive, same⟩
  · rintro ⟨target, slot, first, before, located, positive, same⟩
    have different : target ≠ position := by
      rintro rfl
      exact unmarked ⟨slot, located, positive⟩
    exact ⟨target, slot, first, by omega, located, positive, same⟩

theorem SkipsMarked.mark {registrar : Registrar} {start position : Nat} {skipVersion : List Int}
    {slot : Slot} (skips : SkipsMarked registrar start position skipVersion)
    (inRange : start ≤ position) (located : registrar.nodes[position]? = some slot)
    (positive : 0 < slot.1) :
    SkipsMarked registrar start (position + 1) (slot.1 :: skipVersion) := by
  intro i
  rw [List.mem_cons, skips i]
  constructor
  · rintro (same | ⟨target, other, first, before, found, above, same⟩)
    · exact ⟨position, slot, inRange, Nat.lt_succ_self _, located, positive, same.symm⟩
    · exact ⟨target, other, first, by omega, found, above, same⟩
  · rintro ⟨target, other, first, before, found, above, same⟩
    by_cases last : target = position
    · subst last
      cases located.symm.trans found
      exact .inl same.symm
    · exact .inr ⟨target, other, first, by omega, found, above, same⟩

theorem Logged.listLoop {service : Service} {log : List LogEvent} (logged : Logged service log)
    {start : Nat} (remaining position : Nat) {skipVersion : List Int} (inRange : start ≤ position)
    (written : ∀ other, start ≤ other → other < position + remaining → service.Written other)
    (skips : SkipsMarked service.registrar start position skipVersion) :
    ∃ cmds, Registrar.listLoop service.registrar.nodes remaining position skipVersion = some cmds ∧
      cmds.map NodeInfo.command =
        (List.range' position remaining).filterMap
          (markedAt log service.registrar.Marked start) := by
  induction remaining generalizing position skipVersion with
  | zero => exact ⟨[], rfl, rfl⟩
  | succ remaining ih =>
      have here := written position inRange (by omega)
      have inside : position < log.length := logged.version ▸ logged.accounted.below here
      have located : log[position]? = some log[position] := List.getElem?_eq_getElem inside
      have onward {skipVersion : List Int}
          (later : SkipsMarked service.registrar start (position + 1) skipVersion) :=
        ih (position + 1) (by omega) (fun other first before => written other first (by omega)) later
      rw [List.range'_succ]
      cases event : log[position] with
      | add name endpoint =>
          have added : log[position]? = some (.add name endpoint) := by rw [located, event]
          obtain ⟨first, slot⟩ := logged.added added here
          have visited : (position : Int) ∉ skipVersion := by
            rw [skips position]
            rintro ⟨target, other, _, _, found, positive, same⟩
            have marks := logged.marked found positive
            rw [same, Int.toNat_natCast, added] at marks
            cases marks
          by_cases positive : 0 < first
          · have mark : service.registrar.Marked position := ⟨_, slot, positive⟩
            obtain ⟨cmds, looped, mapped⟩ := onward (skips.mark inRange slot positive)
            refine ⟨cmds, ?_, ?_⟩
            · simp [Registrar.listLoop, visited, slot, positive, looped]
            · simp [markedAt, added, mark, mapped]
          · have unmarked : ¬ service.registrar.Marked position := by
              rintro ⟨other, found, above⟩
              cases slot.symm.trans found
              exact positive above
            obtain ⟨cmds, looped, mapped⟩ := onward (skips.pass unmarked)
            refine ⟨⟨endpoint.1, endpoint.2, name, .add⟩ :: cmds, ?_, ?_⟩
            · simp [Registrar.listLoop, visited, slot, positive, looped]
            · simp [NodeInfo.command, markedAt, added, unmarked, mapped]
      | remove target =>
          have removed : log[position]? = some (.remove target) := by rw [located, event]
          obtain ⟨before, name, endpoint, added⟩ := logged.wellFormed.targets removed
          obtain ⟨slot, mark⟩ := logged.removed removed here added
          have unmarked : ¬ service.registrar.Marked position := by
            rintro ⟨other, found, above⟩
            cases slot.symm.trans found
            cases above
          obtain ⟨cmds, looped, mapped⟩ := onward (skips.pass unmarked)
          by_cases paired : start ≤ target
          · have skipped : (position : Int) ∈ skipVersion := by
              rw [skips position]
              exact ⟨target, _, paired, before, mark, by simp; omega, rfl⟩
            refine ⟨cmds, ?_, ?_⟩
            · simp [Registrar.listLoop, skipped, looped]
            · simp [markedAt, removed, paired, mapped]
          · have visited : (position : Int) ∉ skipVersion := by
              rw [skips position]
              rintro ⟨other, found, first, _, marks, positive, same⟩
              have removing := logged.marked marks positive
              rw [same, Int.toNat_natCast, removed] at removing
              cases removing
              exact paired first
            refine ⟨⟨endpoint.1, endpoint.2, name, .delete⟩ :: cmds, ?_, ?_⟩
            · simp [Registrar.listLoop, visited, slot, looped]
            · simp [NodeInfo.command, markedAt, removed, added, paired, mapped]

theorem Logged.marks {service : Service} {log : List LogEvent} (logged : Logged service log)
    {start stop : Nat}
    (written : ∀ position, start ≤ position → position < stop → service.Written position) :
    Marks log service.registrar.Marked start stop where
  removed position mark := by
    obtain ⟨slot, located, positive⟩ := mark
    exact List.mem_of_getElem? (logged.marked located positive)
  inside position target after before removed := by
    obtain ⟨earlier, name, endpoint, added⟩ := logged.wellFormed.targets removed
    obtain ⟨_, mark⟩ := logged.removed removed (written position after before) added
    exact ⟨_, mark, by simp; omega⟩

/-- The commands of a range whose slots are written take a subscriber to its end. -/
theorem Logged.tracks {service : Service} {log : List LogEvent} (logged : Logged service log)
    {own start stop : Nat} {view : NodeView}
    (written : ∀ position, start ≤ position → position < stop → service.Written position)
    (ordered : start ≤ stop) (inside : stop ≤ log.length)
    (other : ∀ position, start ≤ position → position < stop → position ≠ own)
    (tracks : Tracks log own start view) :
    Tracks log own stop
      (replay view ((service.readRange start stop).1.map NodeInfo.command)) := by
  have unskipped : SkipsMarked service.registrar start start [] := by
    intro i
    simp
    omega
  obtain ⟨cmds, looped, mapped⟩ := logged.listLoop (stop - start) start (Nat.le_refl _)
    (fun position first before => written position first (by omega)) unskipped
  have size : ((stop : Int) - 1 + 1 - start).toNat = stop - start := by omega
  have read : (service.readRange start stop).1 = cmds := by
    simp only [readRange, Registrar.list, size, looped, Option.map_some]
  rw [read, mapped]
  exact tracks.sent logged.wellFormed (logged.marks written) ordered inside other

/-! ## Steps -/

section Steps

variable {service next : Service} {log : List LogEvent}

/-- A handler goes on that neither takes a version nor writes a slot. -/
theorem Logged.update (logged : Logged service log) (accounted : Accounted next) {handler : Nat}
    {pc : RegistPc} (registrar : next.registrar = service.registrar)
    (writes : next.writes = service.writes)
    (handlers : next.handlers = Function.update service.handlers handler pc)
    (received : ∀ other, other ≠ handler → next.received other = service.received other)
    (current : pc.current = (service.handlers handler).current) (free : pc.pending = none)
    (ordered : ∀ start stop, pc.range = some (start, stop) → start ≤ stop)
    (silent : pc.unheard = true → next.received handler = [])
    (reading : ∀ own kept, pc.reading = some (own, kept) →
      own ≤ kept ∧ kept < log.length ∧ Tracks log own (kept + 1)
        (replay (fun _ => none)
          ((next.received handler ++ pc.outgoing).map NodeInfo.command))) : Logged next log := by
  have written (position : Nat) : next.Written position ↔ service.Written position := by
    simp only [Written, writes]
  have currents (other : Nat) :
      (next.handlers other).current = (service.handlers other).current := by
    rw [handlers, Function.update_apply]
    split
    · rename_i same
      rw [same, current]
    · rfl
  refine ⟨accounted, logged.wellFormed, by rw [registrar, logged.version], ?_, ?_, ?_, ?_, ?_, ?_,
    ?_, ?_, ?_, ?_, ?_⟩
  · intro position name endpoint added wrote
    rw [registrar]
    exact logged.added added ((written position).mp wrote)
  · intro position slot located
    rw [registrar] at located
    exact logged.marked located
  · intro position target name endpoint removed wrote
    rw [registrar]
    exact logged.removed removed ((written position).mp wrote)
  · intro other registVersion name ip port located
    rw [handlers, Function.update_apply] at located
    split at located
    · rw [located] at free
      cases free
    · exact logged.registering located
  · intro other registVersion deletedVersion located
    rw [handlers, Function.update_apply] at located
    split at located
    · rw [located] at free
      cases free
    · exact logged.deleting located
  · intro other position known
    exact logged.owned (currents other ▸ known)
  · intro position name endpoint living
    obtain ⟨other, known⟩ := logged.owner living
    exact ⟨other, (currents other).trans known⟩
  · intro left right position first second
    exact logged.apart (currents left ▸ first) (currents right ▸ second)
  · intro other start stop known
    rw [handlers, Function.update_apply] at known
    split at known
    · exact ordered start stop known
    · exact logged.ordered known
  · intro other unheard
    rw [handlers, Function.update_apply] at unheard
    by_cases same : other = handler
    · rw [if_pos same] at unheard
      exact same ▸ silent unheard
    · rw [if_neg same] at unheard
      exact (received other same).trans (logged.silent unheard)
  · intro other own kept known
    rw [handlers, Function.update_apply] at known ⊢
    by_cases same : other = handler
    · rw [if_pos same] at known ⊢
      exact same ▸ reading own kept known
    · rw [if_neg same] at known ⊢
      rw [received other same]
      exact logged.reading known

/-- A handler takes the next version, whose event is known from then on. -/
theorem Logged.take (logged : Logged service log) {handler : Nat} {pc : RegistPc}
    {event : LogEvent}
    (accounted : Accounted
      (({ service with registrar := service.registrar.takeVersion.2 }).moveTo handler pc))
    (wellFormed : WellFormed (log ++ [event]))
    (registering : ∀ {registVersion : Nat} {name ip : String} {port : UInt32},
      pc = .registration registVersion name ip port →
      (log ++ [event])[registVersion]? = some (.add name (ip, port)))
    (deleting : ∀ {registVersion deletedVersion : Nat},
      pc = .deregistration registVersion deletedVersion →
      (log ++ [event])[deletedVersion]? = some (.remove registVersion))
    (owned : ∀ {other position : Nat},
      (Function.update service.handlers handler pc other).current = some position →
      ∃ name endpoint, Live (log ++ [event]) position name endpoint)
    (owner : ∀ {position : Nat} {name : String} {endpoint : String × UInt32},
      Live (log ++ [event]) position name endpoint →
      ∃ other, (Function.update service.handlers handler pc other).current = some position)
    (apart : ∀ {left right position : Nat},
      (Function.update service.handlers handler pc left).current = some position →
      (Function.update service.handlers handler pc right).current = some position → left = right)
    (unranged : pc.range = none) (silent : pc.unheard = true → service.received handler = [])
    (unread : pc.reading = none) :
    Logged (({ service with registrar := service.registrar.takeVersion.2 }).moveTo handler pc)
      (log ++ [event]) := by
  have old {position : Nat} {found : LogEvent} (wrote : service.Written position)
      (located : (log ++ [event])[position]? = some found) : log[position]? = some found := by
    have inside : position < log.length := logged.version ▸ logged.accounted.below wrote
    rwa [List.getElem?_append_left inside] at located
  refine ⟨accounted, wellFormed, ?_, ?_, ?_, ?_, ?_, ?_, owned, owner, apart, ?_, ?_, ?_⟩
  · rw [List.length_append, List.length_singleton, ← logged.version]
    rfl
  · intro position name endpoint added wrote
    exact logged.added (old wrote added) wrote
  · intro position slot located positive
    exact getElem?_append_old (logged.marked located positive) event
  · intro position target name endpoint removed wrote added
    have before := old wrote removed
    obtain ⟨earlier, name', endpoint', added'⟩ := logged.wellFormed.targets before
    have same := (getElem?_append_old added' event).symm.trans added
    cases same
    exact logged.removed before wrote added'
  · intro other registVersion name ip port located
    rw [moveTo_handlers] at located
    split at located
    · exact registering located
    · exact getElem?_append_old (logged.registering located) event
  · intro other registVersion deletedVersion located
    rw [moveTo_handlers] at located
    split at located
    · exact deleting located
    · exact getElem?_append_old (logged.deleting located) event
  · intro other start stop known
    rw [moveTo_handlers] at known
    split at known
    · rw [unranged] at known
      cases known
    · exact logged.ordered known
  · intro other unheard
    rw [moveTo_handlers] at unheard
    split at unheard
    · rename_i same
      exact same ▸ silent unheard
    · exact logged.silent unheard
  · intro other own kept known
    rw [moveTo_handlers] at known ⊢
    split at known
    · rw [unread] at known
      cases known
    · rename_i different
      rw [if_neg different]
      obtain ⟨first, inside, tracks⟩ := logged.reading known
      refine ⟨first, ?_, tracks.append inside event⟩
      rw [List.length_append]
      exact Nat.lt_of_lt_of_le inside (Nat.le_add_right _ _)

theorem Logged.unused (logged : Logged service log) {nodeName : String}
    (free : ∀ handler, service.nameOf handler ≠ some nodeName) (position : Nat)
    (endpoint : String × UInt32) : ¬ Live log position nodeName endpoint := by
  intro living
  obtain ⟨handler, known⟩ := logged.owner living
  apply free handler
  cases pc : service.handlers handler with
  | registration registVersion name ip port =>
      rw [pc] at known
      cases known
      have same := (logged.registering pc).symm.trans living.2.1
      cases same
      simp only [nameOf, pc]
  | idle | deregistration | done =>
      rw [pc] at known
      cases known
  | listFirst | wait | listIncrement | write | leave =>
      have registered : (service.handlers handler).registered = some position := by
        rw [pc] at known ⊢
        exact known
      have wrote := logged.accounted.registered registered
      obtain ⟨first, slot⟩ := logged.added living.2.1 wrote
      rw [pc] at known
      simp only [nameOf, pc, known, Option.bind_some, slot, Option.map_some]

theorem Logged.takeVersion (logged : Logged service log) {handler : Nat} {nodeName ip : String}
    {port : UInt32} (idle : service.handlers handler = .idle)
    (free : ∀ other, service.nameOf other ≠ some nodeName)
    (accounted : Accounted (({ service with
      registrar := service.registrar.takeVersion.2 }).moveTo handler
        (.registration service.registrar.version nodeName ip port))) :
    Logged (({ service with registrar := service.registrar.takeVersion.2 }).moveTo handler
      (.registration service.registrar.version nodeName ip port))
      (log ++ [.add nodeName (ip, port)]) := by
  have live {position : Nat} {name : String} {endpoint : String × UInt32} :
      Live (log ++ [.add nodeName (ip, port)]) position name endpoint ↔
        Live log position name endpoint ∨
          position = log.length ∧ nodeName = name ∧ (ip, port) = endpoint :=
    live_append_add logged.wellFormed nodeName (ip, port)
  have currents (other position : Nat) : (Function.update service.handlers handler
      (.registration service.registrar.version nodeName ip port) other).current = some position ↔
        other = handler ∧ position = log.length ∨
          (service.handlers other).current = some position := by
    rw [Function.update_apply]
    split
    · rename_i same
      rw [same, idle, logged.version]
      simp [RegistPc.current, eq_comm]
    · rename_i different
      simp [different]
  have new (other : Nat) : (service.handlers other).current ≠ some log.length := by
    intro known
    obtain ⟨_, _, living⟩ := logged.owned known
    exact Nat.lt_irrefl _ living.1
  refine logged.take accounted (logged.wellFormed.append_add nodeName (ip, port)
    (logged.unused free)) ?_ (fun same => by cases same) ?_ ?_ ?_ rfl
    (fun _ => logged.silent (by rw [idle]; rfl)) rfl
  · intro registVersion name ip' port' same
    cases same
    rw [logged.version]
    simp
  · intro other position known
    rcases (currents other position).mp known with ⟨_, rfl⟩ | earlier
    · exact ⟨nodeName, (ip, port), live.mpr (.inr ⟨rfl, rfl, rfl⟩)⟩
    · obtain ⟨name, endpoint, living⟩ := logged.owned earlier
      exact ⟨name, endpoint, live.mpr (.inl living)⟩
  · intro position name endpoint living
    rcases live.mp living with earlier | ⟨rfl, _, _⟩
    · obtain ⟨other, known⟩ := logged.owner earlier
      exact ⟨other, (currents other position).mpr (.inr known)⟩
    · exact ⟨handler, (currents handler _).mpr (.inl ⟨rfl, rfl⟩)⟩
  · intro left right position first second
    rcases (currents left position).mp first with ⟨rfl, rfl⟩ | earlier <;>
      rcases (currents right _).mp second with ⟨rfl, same⟩ | before
    · rfl
    · exact absurd before (new right)
    · exact absurd (same ▸ earlier) (new left)
    · exact logged.apart earlier before

theorem Logged.takeDeletedVersion (logged : Logged service log) {handler registVersion : Nat}
    (leaving : service.handlers handler = .leave registVersion)
    (accounted : Accounted (({ service with
      registrar := service.registrar.takeVersion.2 }).moveTo handler
        (.deregistration registVersion service.registrar.version))) :
    Logged (({ service with registrar := service.registrar.takeVersion.2 }).moveTo handler
      (.deregistration registVersion service.registrar.version))
      (log ++ [.remove registVersion]) := by
  have own : (service.handlers handler).current = some registVersion := by
    rw [leaving]
    rfl
  obtain ⟨nodeName, endpoint, living⟩ := logged.owned own
  have currents (other position : Nat) : (Function.update service.handlers handler
      (.deregistration registVersion service.registrar.version) other).current = some position ↔
        (service.handlers other).current = some position ∧ position ≠ registVersion := by
    rw [Function.update_apply]
    split
    · rename_i same
      rw [same, own]
      constructor
      · intro known
        cases known
      · rintro ⟨known, different⟩
        cases known
        exact absurd rfl different
    · rename_i different
      constructor
      · intro known
        refine ⟨known, ?_⟩
        rintro rfl
        exact different (logged.apart known own)
      · exact And.left
  refine logged.take accounted (logged.wellFormed.append_remove living)
    (fun same => by cases same) ?_ ?_ ?_ ?_ rfl (fun unheard => by cases unheard) rfl
  · intro version deletedVersion same
    cases same
    rw [logged.version]
    simp
  · intro other position known
    obtain ⟨earlier, different⟩ := (currents other position).mp known
    obtain ⟨name, content, alive⟩ := logged.owned earlier
    exact ⟨name, content, live_append_remove.mpr ⟨alive, different⟩⟩
  · intro position name content alive
    obtain ⟨earlier, different⟩ := live_append_remove.mp alive
    obtain ⟨other, known⟩ := logged.owner earlier
    exact ⟨other, (currents other position).mpr ⟨known, different⟩⟩
  · intro left right position first second
    exact logged.apart ((currents left position).mp first).1 ((currents right position).mp second).1

/-- A handler writes the slot of its version. -/
theorem Logged.store (logged : Logged service log) {handler position : Nat} {registrar : Registrar}
    {info : NodeInfo} {pc : RegistPc}
    (accounted : Accounted (service.store handler registrar position info pc))
    (sameVersion : registrar.version = service.registrar.version)
    (added : ∀ {other : Nat} {name : String} {endpoint : String × UInt32},
      log[other]? = some (.add name endpoint) → other = position ∨ service.Written other →
      ∃ first, registrar.nodes[other]? = some (first, ⟨endpoint.1, endpoint.2, name, .add⟩))
    (marked : ∀ {other : Nat} {slot : Slot}, registrar.nodes[other]? = some slot → 0 < slot.1 →
      log[slot.1.toNat]? = some (.remove other))
    (removed : ∀ {other target : Nat} {name : String} {endpoint : String × UInt32},
      log[other]? = some (.remove target) → other = position ∨ service.Written other →
      log[target]? = some (.add name endpoint) →
      registrar.nodes[other]? = some (-1, ⟨endpoint.1, endpoint.2, name, .delete⟩) ∧
        registrar.nodes[target]? =
          some ((other : Int), ⟨endpoint.1, endpoint.2, name, .add⟩))
    (free : pc.pending = none) (current : pc.current = (service.handlers handler).current)
    (ordered : ∀ start stop, pc.range = some (start, stop) → start ≤ stop)
    (silent : pc.unheard = true → service.received handler = []) (unread : pc.reading = none) :
    Logged (service.store handler registrar position info pc) log := by
  have handlers (other : Nat) : (service.store handler registrar position info pc).handlers other =
      if other = handler then pc else service.handlers other := by
    simp only [Service.store, Function.update_apply]
  have currents (other : Nat) :
      ((service.store handler registrar position info pc).handlers other).current =
        (service.handlers other).current := by
    rw [handlers]
    split
    · rename_i same
      rw [same, current]
    · rfl
  refine ⟨accounted, logged.wellFormed, sameVersion.trans logged.version, ?_, marked, ?_, ?_, ?_,
    ?_, ?_, ?_, ?_, ?_, ?_⟩
  · exact fun located wrote => added located (written_store.mp wrote)
  · exact fun located wrote => removed located (written_store.mp wrote)
  · intro other registVersion name ip port located
    rw [handlers] at located
    split at located
    · rw [located] at free
      cases free
    · exact logged.registering located
  · intro other registVersion deletedVersion located
    rw [handlers] at located
    split at located
    · rw [located] at free
      cases free
    · exact logged.deleting located
  · exact fun {other _} known => logged.owned (currents other ▸ known)
  · intro other name endpoint living
    obtain ⟨owner, known⟩ := logged.owner living
    exact ⟨owner, (currents owner).trans known⟩
  · exact fun {left right _} first second =>
      logged.apart (currents left ▸ first) (currents right ▸ second)
  · intro other start stop known
    rw [handlers] at known
    split at known
    · exact ordered start stop known
    · exact logged.ordered known
  · intro other unheard
    rw [handlers] at unheard
    split at unheard
    · rename_i same
      exact same ▸ silent unheard
    · exact logged.silent unheard
  · intro other own kept known
    rw [handlers] at known ⊢
    split at known
    · rw [unread] at known
      cases known
    · rename_i different
      rw [if_neg different]
      exact logged.reading known

theorem Logged.inside (logged : Logged service log) {position : Nat}
    (wrote : service.Written position) : position < service.registrar.nodes.length :=
  logged.accounted.inside wrote

theorem Logged.registrationStep (logged : Logged service log) {handler registVersion : Nat}
    {nodeName ip : String} {port : UInt32}
    (pc : service.handlers handler = .registration registVersion nodeName ip port) :
    Logged (service.store handler
      (service.registrar.registration registVersion nodeName ip port) registVersion
      ⟨ip, port, nodeName, .add⟩ (.listFirst registVersion)) log := by
  have event := logged.registering pc
  have current : (service.handlers handler).current = some registVersion := by rw [pc]; rfl
  obtain ⟨_, _, living⟩ := logged.owned current
  have here : (service.registrar.registration registVersion nodeName ip port).nodes[registVersion]? =
      some (-1, ⟨ip, port, nodeName, .add⟩) :=
    List.getElem?_set_self (lt_reserve_length _ _)
  have kept {other : Nat} (different : other ≠ registVersion) :
      (service.registrar.registration registVersion nodeName ip port).nodes[other]? =
        (reserve service.registrar.nodes registVersion)[other]? :=
    List.getElem?_set_ne different.symm
  have old {other : Nat} (different : other ≠ registVersion) (wrote : service.Written other) :
      (service.registrar.registration registVersion nodeName ip port).nodes[other]? =
        service.registrar.nodes[other]? :=
    (kept different).trans (reserve_getElem?_old (logged.inside wrote))
  refine logged.store (logged.accounted.registrationStep pc) rfl ?_ ?_ ?_ rfl current.symm ?_
    (fun _ => logged.silent (by rw [pc]; rfl)) rfl
  · intro other name endpoint added wrote
    by_cases same : other = registVersion
    · subst same
      cases event.symm.trans added
      exact ⟨-1, here⟩
    · rw [old same (wrote.resolve_left same)]
      exact logged.added added (wrote.resolve_left same)
  · intro other slot located positive
    by_cases same : other = registVersion
    · subst same
      cases here.symm.trans located
      cases positive
    · rw [kept same] at located
      rcases reserve_getElem?_mem located with before | new
      · exact logged.marked before positive
      · rw [new] at positive
        cases positive
  · intro other target name endpoint removed wrote added
    have different : other ≠ registVersion := by
      rintro rfl
      cases event.symm.trans removed
    have apart : target ≠ registVersion := by
      rintro rfl
      exact living.2.2 other (lt_length_of_getElem? removed) removed
    have wrote := wrote.resolve_left different
    obtain ⟨slot, mark⟩ := logged.removed removed wrote added
    rw [old different wrote, kept apart,
      reserve_getElem?_old (List.getElem?_eq_some_iff.mp mark).1]
    exact ⟨slot, mark⟩
  · intro start stop known
    cases known
    exact Nat.zero_le _

theorem Logged.deregistrationStep (logged : Logged service log)
    {handler registVersion deletedVersion : Nat}
    (pc : service.handlers handler = .deregistration registVersion deletedVersion) :
    let registrar := service.registrar.deregistration registVersion deletedVersion
    Logged (service.store handler registrar deletedVersion
      (registrar.nodes.getD deletedVersion Slot.init).2 .done) log := by
  intro registrar
  have event := logged.deleting pc
  obtain ⟨_, nodeName, endpoint, addition⟩ := logged.wellFormed.targets event
  have unwritten := (logged.accounted.unwritten
    (show (service.handlers handler).pending = some deletedVersion by rw [pc]; rfl)).2
  have own : service.Written registVersion :=
    logged.accounted.registered (congrArg RegistPc.registered pc)
  obtain ⟨first, located⟩ := logged.added addition own
  have inside := logged.inside own
  have different : registVersion ≠ deletedVersion := fun same => unwritten (same ▸ own)
  have reserved : (reserve service.registrar.nodes deletedVersion)[registVersion]? =
      some (first, ⟨endpoint.1, endpoint.2, nodeName, .add⟩) :=
    (reserve_getElem?_old inside).trans located
  have nodes : registrar.nodes = ((reserve service.registrar.nodes deletedVersion).set
      deletedVersion (-1, ⟨endpoint.1, endpoint.2, nodeName, .delete⟩)).set registVersion
        ((deletedVersion : Int), ⟨endpoint.1, endpoint.2, nodeName, .add⟩) := by
    simp [registrar, Registrar.deregistration, List.getD_eq_getElem?_getD, reserved,
      List.getElem?_set_ne different.symm]
  have deleted : registrar.nodes[deletedVersion]? =
      some (-1, ⟨endpoint.1, endpoint.2, nodeName, .delete⟩) := by
    rw [nodes, List.getElem?_set_ne different, List.getElem?_set_self (lt_reserve_length _ _)]
  have marks : registrar.nodes[registVersion]? =
      some ((deletedVersion : Int), ⟨endpoint.1, endpoint.2, nodeName, .add⟩) := by
    rw [nodes, List.getElem?_set_self]
    rw [List.length_set]
    exact inside.trans_le (length_le_reserve _ _)
  have kept {other : Nat} (apart : other ≠ registVersion) (away : other ≠ deletedVersion) :
      registrar.nodes[other]? = (reserve service.registrar.nodes deletedVersion)[other]? := by
    rw [nodes, List.getElem?_set_ne apart.symm, List.getElem?_set_ne away.symm]
  refine logged.store (logged.accounted.deregistrationStep pc) rfl ?_ ?_ ?_ rfl (by rw [pc]; rfl)
    (fun _ _ known => by cases known) (fun unheard => by cases unheard) rfl
  · intro other name content added wrote
    have away : other ≠ deletedVersion := by
      rintro rfl
      cases event.symm.trans added
    by_cases same : other = registVersion
    · subst same
      cases addition.symm.trans added
      exact ⟨_, marks⟩
    · have wrote := wrote.resolve_left away
      rw [kept same away, reserve_getElem?_old (logged.inside wrote)]
      exact logged.added added wrote
  · intro other slot found positive
    by_cases same : other = registVersion
    · subst same
      cases marks.symm.trans found
      exact event
    · by_cases here : other = deletedVersion
      · subst here
        cases deleted.symm.trans found
        cases positive
      · rw [kept same here] at found
        rcases reserve_getElem?_mem found with before | new
        · exact logged.marked before positive
        · rw [new] at positive
          cases positive
  · intro other target name content removed wrote added
    by_cases here : other = deletedVersion
    · subst here
      cases event.symm.trans removed
      cases addition.symm.trans added
      exact ⟨deleted, marks⟩
    · have wrote := wrote.resolve_left here
      obtain ⟨slot, mark⟩ := logged.removed removed wrote added
      have apart : other ≠ registVersion := by
        rintro rfl
        cases addition.symm.trans removed
      have elsewhere : target ≠ registVersion := by
        rintro rfl
        exact here (logged.wellFormed.once removed event)
      have away : target ≠ deletedVersion := by
        rintro rfl
        cases event.symm.trans added
      rw [kept apart here, reserve_getElem?_old (logged.inside wrote), kept elsewhere away,
        reserve_getElem?_old (List.getElem?_eq_some_iff.mp mark).1]
      exact ⟨slot, mark⟩

theorem Logged.listFirstStep (logged : Logged service log) {handler registVersion : Nat}
    (pc : service.handlers handler = .listFirst registVersion)
    (written : ∀ position < registVersion, service.Written position)
    (accounted : Accounted { service with
      handlers := Function.update service.handlers handler (.wait registVersion registVersion)
      received := Function.update service.received handler
        (service.received handler ++ (service.readRange 0 registVersion).1)
      misread := service.misread ++ (service.readRange 0 registVersion).2 }) :
    Logged { service with
      handlers := Function.update service.handlers handler (.wait registVersion registVersion)
      received := Function.update service.received handler
        (service.received handler ++ (service.readRange 0 registVersion).1)
      misread := service.misread ++ (service.readRange 0 registVersion).2 } log := by
  have current : (service.handlers handler).current = some registVersion := by rw [pc]; rfl
  obtain ⟨nodeName, endpoint, living⟩ := logged.owned current
  refine logged.update accounted rfl rfl rfl ?_ current.symm rfl (fun _ _ known => by cases known)
    (fun unheard => by cases unheard) ?_
  · exact fun other different => Function.update_of_ne different _ _
  · intro own kept known
    cases known
    have unheard : (service.handlers handler).unheard = true := by rw [pc]; rfl
    have nothing := logged.silent unheard
    have below := logged.tracks (fun position _ before => written position before)
      (Nat.zero_le _) living.1.le (fun position _ before => before.ne)
      (tracks_zero log registVersion)
    refine ⟨Nat.le_refl _, living.1, ?_⟩
    simp only [Function.update_self, nothing, List.nil_append, RegistPc.outgoing, List.append_nil]
    exact below.skipOwn living.2.1

theorem Logged.listIncrementStep (logged : Logged service log)
    {handler registVersion keptVersion cversion : Nat}
    (pc : service.handlers handler = .listIncrement registVersion keptVersion cversion)
    (written : ∀ position, keptVersion + 1 ≤ position → position < cversion + 1 →
      service.Written position)
    (accounted : Accounted { service.moveTo handler (.write registVersion keptVersion cversion
        (service.readRange (keptVersion + 1) (cversion + 1)).1) with
      misread := service.misread ++ (service.readRange (keptVersion + 1) (cversion + 1)).2 }) :
    Logged { service.moveTo handler (.write registVersion keptVersion cversion
        (service.readRange (keptVersion + 1) (cversion + 1)).1) with
      misread := service.misread ++ (service.readRange (keptVersion + 1) (cversion + 1)).2 }
      log := by
  have current : (service.handlers handler).current = some registVersion := by rw [pc]; rfl
  have range : (service.handlers handler).range = some (keptVersion + 1, cversion + 1) := by
    rw [pc]
    rfl
  have reads : (service.handlers handler).reading = some (registVersion, keptVersion) := by
    rw [pc]
    rfl
  have bound := logged.version ▸ logged.accounted.ranged range
  have ordered := logged.ordered range
  obtain ⟨first, inside, before⟩ := logged.reading reads
  refine logged.update accounted rfl rfl rfl (fun _ _ => rfl) current.symm rfl
    (fun _ _ known => by cases known) (fun unheard => by cases unheard) ?_
  intro own kept known
  cases known
  have after := logged.tracks written ordered bound (fun position after _ => by omega) before
  rw [pc] at after
  refine ⟨by omega, by omega, ?_⟩
  simp only [RegistPc.outgoing, List.append_nil] at after
  rw [List.map_append, replay_append]
  exact after

/-- The stream has ended, or a write to it has failed. -/
theorem Logged.leaves (logged : Logged service log) {handler registVersion : Nat}
    (accounted : Accounted (service.moveTo handler (.leave registVersion)))
    (own : (service.handlers handler).current = some registVersion) :
    Logged (service.moveTo handler (.leave registVersion)) log :=
  logged.update accounted rfl rfl rfl (fun _ _ => rfl) own.symm rfl
    (fun _ _ known => by cases known) (fun unheard => by cases unheard)
    (fun _ _ known => by cases known)

theorem Logged.step (logged : Logged service log) {action : Nat × RegistMove}
    (settled : RangeSettled service action) (free : NameFree service action)
    (stepped : service.step action = some next) : ∃ log, Logged next log := by
  have accounted := logged.accounted.step settled stepped
  obtain ⟨handler, move⟩ := action
  simp only [Service.step] at stepped
  split at stepped
  case h_1 nodeName ip port pc =>
      cases stepped
      exact ⟨_, logged.takeVersion pc free accounted⟩
  case h_2 pc =>
      cases stepped
      exact ⟨log, logged.registrationStep pc⟩
  case h_3 registVersion pc =>
      cases stepped
      refine ⟨log, logged.listFirstStep pc (fun position before => ?_) accounted⟩
      exact logged.accounted.settled (by rw [pc]; rfl) settled position (Nat.zero_le _) before
  case h_4 registVersion keptVersion pc =>
      split at stepped
      · rename_i newer
        cases stepped
        have reads : (service.handlers handler).reading = some (registVersion, keptVersion) := by
          rw [pc]
          rfl
        have before := logged.reading reads
        rw [pc] at before
        refine ⟨log, logged.update accounted rfl rfl rfl (fun _ _ => rfl) (by rw [pc]; rfl) rfl ?_
          (fun unheard => by cases unheard) ?_⟩
        · intro start stop known
          cases known
          omega
        · intro own kept known
          cases known
          exact before
      · cases stepped
        exact ⟨log, logged⟩
  case h_5 pc =>
      cases stepped
      exact ⟨log, logged.listIncrementStep pc
        (logged.accounted.settled (by rw [pc]; rfl) settled) accounted⟩
  case h_6 registVersion keptVersion cversion reply pc =>
      cases stepped
      have reads : (service.handlers handler).reading = some (registVersion, cversion) := by
        rw [pc]
        rfl
      have before := logged.reading reads
      rw [pc] at before
      refine ⟨log, logged.update accounted rfl rfl rfl ?_ (by rw [pc]; rfl) rfl
        (fun _ _ known => by cases known) (fun unheard => by cases unheard) ?_⟩
      · exact fun other different => Function.update_of_ne different _ _
      · intro own kept known
        cases known
        simp only [Function.update_self, RegistPc.outgoing, List.append_nil]
        exact before
  case h_7 registVersion keptVersion cversion reply pc =>
      cases stepped
      exact ⟨log, logged.leaves accounted (by rw [pc]; rfl)⟩
  case h_8 registVersion keptVersion pc =>
      cases stepped
      exact ⟨log, logged.leaves accounted (by rw [pc]; rfl)⟩
  case h_9 registVersion pc =>
      cases stepped
      exact ⟨_, logged.takeDeletedVersion pc accounted⟩
  case h_10 registVersion deletedVersion pc =>
      cases stepped
      exact ⟨log, logged.deregistrationStep pc⟩
  case h_11 => cases stepped

end Steps

theorem shown_eq_replay (service : Service) (handler : Nat) :
    service.shown handler =
      replay (fun _ => none) ((service.received handler).map NodeInfo.command) :=
  NodeRegist.receive_eq_replay (fun _ => none) ⟨0, service.received handler⟩

theorem Logged.converged {service : Service} {log : List LogEvent} (logged : Logged service log) :
    service.Converged := by
  rintro handler registVersion keptVersion pc newest nodeName ⟨ip, port⟩
  have reads : (service.handlers handler).reading = some (registVersion, keptVersion) := by
    rw [pc]
    rfl
  have covered : (service.handlers handler).covered = some keptVersion := by
    rw [pc]
    rfl
  have own : (service.handlers handler).current = some registVersion := by
    rw [pc]
    rfl
  obtain ⟨_, _, tracks⟩ := logged.reading reads
  -- the newest version has been listed, so that every slot is written
  have written (position : Nat) (inside : position < log.length) : service.Written position := by
    apply logged.accounted.covered handler keptVersion covered
    have := logged.version
    omega
  rw [pc, newest, logged.version] at tracks
  simp only [RegistPc.outgoing, List.append_nil] at tracks
  rw [shown_eq_replay, tracks.complete]
  constructor
  · rintro ⟨position, different, living⟩
    obtain ⟨other, known⟩ := logged.owner living
    obtain ⟨first, slot⟩ := logged.added living.2.1 (written position living.1)
    refine ⟨other, position, first, ?_, known, slot⟩
    rintro rfl
    cases own.symm.trans known
    exact different rfl
  · rintro ⟨other, version, first, different, known, slot⟩
    obtain ⟨name, ⟨ip', port'⟩, living⟩ := logged.owned known
    obtain ⟨first', slot'⟩ := logged.added living.2.1 (written version living.1)
    cases slot.symm.trans slot'
    refine ⟨version, ?_, living⟩
    rintro rfl
    exact different (logged.apart known own)

/-- While nobody lists a version before its slot is written, and live nodes have names of their
own, every subscriber that is up to date shows the registered nodes, in spite of slots that were
written out of order and deletions that were not marked in time. -/
theorem subscribers_converge (run : List (Nat × RegistMove))
    (inOrder : machine.Obeys (fun service action =>
      RangeSettled service action ∧ NameFree service action) initial run) :
    machine.Along Converged initial run := by
  have logged : machine.Along (fun service => ∃ log, Logged service log) initial run := by
    refine machine.along_of_obeys ?_ ⟨[], logged_initial⟩ inOrder
    rintro service action next ⟨log, logged⟩ ⟨settled, free⟩ stepped
    exact logged.step settled free stepped
  exact logged.mono fun _ ⟨_, logged⟩ => logged.converged

/-! ## Runs of few handlers -/

theorem handlers_step {service next : Service} {action : Nat × RegistMove}
    (stepped : service.step action = some next) (other : Nat) (apart : other ≠ action.1) :
    next.handlers other = service.handlers other := by
  obtain ⟨handler, move⟩ := action
  have apart : other ≠ handler := apart
  simp only [Service.step] at stepped
  split at stepped
  case h_4 =>
      split at stepped
      · cases stepped
        exact Function.update_of_ne apart _ _
      · cases stepped
        rfl
  case h_11 => cases stepped
  all_goals
    cases stepped
    exact Function.update_of_ne apart _ _

/-- The conditions on a step, when the handlers from `bound` on have not started. -/
def inOrderBelow (bound : Nat) (service : Service) (action : Nat × RegistMove) : Bool :=
  decide (action.1 < bound) &&
    match action.2 with
    | .list =>
        match (service.handlers action.1).range with
        | none => true
        | some (start, stop) => (List.range bound).all fun other =>
            match (service.handlers other).pending with
            | none => true
            | some position => decide (position < start ∨ stop ≤ position)
    | .takeVersion nodeName _ _ =>
        (List.range bound).all fun other => decide (service.nameOf other ≠ some nodeName)
    | _ => true

theorem inOrder_of_below {bound : Nat} {service : Service} {action : Nat × RegistMove}
    (idle : ∀ other, bound ≤ other → service.handlers other = .idle)
    (checked : inOrderBelow bound service action = true) :
    action.1 < bound ∧ RangeSettled service action ∧ NameFree service action := by
  obtain ⟨handler, move⟩ := action
  unfold inOrderBelow at checked
  rw [Bool.and_eq_true, decide_eq_true_eq] at checked
  obtain ⟨below, checked⟩ := checked
  refine ⟨below, ?_, ?_⟩
  · rintro rfl start stop ranged other position waiting ⟨after, before⟩
    simp only [ranged, List.all_eq_true, List.mem_range] at checked
    rcases Nat.lt_or_ge other bound with inside | outside
    · have apart := checked other inside
      simp only [waiting, decide_eq_true_eq] at apart
      omega
    · rw [idle other outside] at waiting
      cases waiting
  · unfold NameFree
    cases move with
    | takeVersion nodeName ip port =>
        simp only [List.all_eq_true, List.mem_range, decide_eq_true_eq] at checked
        intro other
        rcases Nat.lt_or_ge other bound with inside | outside
        · exact checked other inside
        · simp only [nameOf, idle other outside, RegistPc.current]
          exact nofun
    | _ => trivial

theorem obeys_of_below {bound : Nat} {run : List (Nat × RegistMove)} {service : Service}
    (idle : ∀ other, bound ≤ other → service.handlers other = .idle)
    (checked : machine.Obeys (fun service action => inOrderBelow bound service action = true)
      service run) :
    machine.Obeys (fun service action => RangeSettled service action ∧ NameFree service action)
      service run := by
  induction run generalizing service with
  | nil => trivial
  | cons action rest ih =>
      intro next stepped
      obtain ⟨here, later⟩ := checked next stepped
      obtain ⟨below, inOrder⟩ := inOrder_of_below idle here
      refine ⟨inOrder, ih (fun other outside => ?_) later⟩
      rw [handlers_step stepped other (Nat.ne_of_gt (Nat.lt_of_lt_of_le below outside))]
      exact idle other outside

/-- The second node writes its slot before the first, and the third is told of the first while
the version of its deletion is taken but not written. -/
def lateMark : List (Nat × RegistMove) :=
  [(0, .takeVersion "camera" "10.0.0.1" 4001), (1, .takeVersion "lidar" "10.0.0.2" 4002),
    (1, .registration), (0, .registration), (0, .list), (1, .list),
    (2, .takeVersion "planner" "10.0.0.3" 4003), (2, .registration), (0, .cancelled),
    (0, .takeDeletedVersion), (2, .list), (0, .deregistration), (1, .readVersion), (1, .list),
    (1, .write true), (2, .readVersion), (2, .list), (2, .write true)]

theorem subscribers_converge_lateMark :
    machine.Along Converged initial lateMark ∧
      (machine.exec initial lateMark).map (fun service =>
        (service.received 2).map fun info => (info.nodeName, info.code)) =
          some [("camera", .add), ("lidar", .add), ("camera", .delete)] := by
  have inOrder : machine.Obeys (fun service action => inOrderBelow 3 service action = true) initial
      lateMark := by
    decide +kernel
  exact ⟨subscribers_converge lateMark (obeys_of_below (fun _ _ => rfl) inOrder), by
    decide +kernel⟩

end Service

end ProtoCore.Discovery
