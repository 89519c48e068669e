import ProtoCore.Discovery.RegistServer
import Mathlib.Algebra.Order.BigOperators.Group.List
import Mathlib.Algebra.Order.Group.Nat

/-!
# The registrar comes to rest

Wherever its calls have been interrupted, and whatever notifications have come too early, the
calls and the health check can bring the registrar to a state in which every call has returned
or waits, and nobody who waits has anything to wait for but a new event.
-/

set_option autoImplicit false

namespace ProtoCore.Discovery

open Library Library.CompactedLog

namespace CallPc

/-- How many versions the call has still to take. -/
def takes : CallPc → Nat
  | .findExistNode | .lockName | .evaluateName | .parkName | .parkedName | .admitted
  | .takeVersion => 2
  | .deregistration .. | .notifyLast | .withdrawn | .done => 0
  | _ => 1

/-- How many versions the call has taken and not written. -/
def pendings : CallPc → Nat
  | .registration _ | .deregistration _ _ => 1
  | _ => 0

/-- How far a call that has nothing to do is from waiting. -/
def unparked : CallPc → Nat
  | .relock .. => 6
  | .readVersion .. => 5
  | .findExistNode | .loop .. => 4
  | .lockName | .test .. => 3
  | .evaluateName | .lock .. => 2
  | .parkName | .park .. => 1
  | _ => 0

def waiting : CallPc → Bool
  | .parkedName | .parked .. | .withdrawn | .done => true
  | _ => false

/-- The range that a call has read or is about to read. -/
def listing : CallPc → Option (Nat × Nat)
  | .list _ keptVersion cversion | .write _ keptVersion cversion _ => some (keptVersion, cversion)
  | _ => none

end CallPc

namespace RegistCall

def lag (registrar : Registrar) (keptVersion : Nat) : Nat := registrar.version - 1 - keptVersion

/-- A call in its loop that goes on for newer versions, or leaves. -/
def round (call : RegistCall) (registrar : Registrar) (keptVersion ahead leaving : Nat) : Nat :=
  if call.cancelled then leaving
  else if lag registrar keptVersion = 0 then 0
  else 16 * lag registrar keptVersion + ahead

/-- A call that has to wait for its name. -/
def waitsForName (call : RegistCall) (registrar : Registrar) : Bool :=
  registrar.findExistNode call.info.nodeName && !call.cancelled

def entry (call : RegistCall) (registrar : Registrar) (ahead : Nat) : Nat :=
  if call.waitsForName registrar then 0 else ahead

/-- How far a call is from having nothing to do, as long as no version is taken. -/
def busy (call : RegistCall) (registrar : Registrar) : Nat :=
  match call.pc with
  | .findExistNode => call.entry registrar 8
  | .parkName => call.entry registrar 7
  | .parkedName => call.entry registrar 6
  | .lockName => call.entry registrar 5
  | .evaluateName => call.entry registrar 4
  | .admitted => 3
  | .takeVersion => 2
  | .registration _ | .deregistration .. | .withdrawn | .done => 0
  | .listFirst registVersion => 16 * lag registrar registVersion + 30
  | .writeFirst registVersion _ => 16 * lag registrar registVersion + 29
  | .notifyFirst registVersion => 16 * lag registrar registVersion + 28
  | .loop _ keptVersion => call.round registrar keptVersion 10 3
  | .test _ keptVersion => call.round registrar keptVersion 9 2
  | .lock _ keptVersion => call.round registrar keptVersion 8 10
  | .park _ keptVersion => call.round registrar keptVersion 7 9
  | .parked _ keptVersion => call.round registrar keptVersion 6 8
  | .relock _ keptVersion => call.round registrar keptVersion 5 7
  | .readVersion _ keptVersion => call.round registrar keptVersion 4 6
  | .list _ keptVersion _ => call.round registrar keptVersion 3 5
  | .write _ keptVersion _ _ => call.round registrar keptVersion 2 4
  | .leave _ | .notifyLast => 1

/-- The call has returned, or waits with nothing to do. -/
def resting (call : RegistCall) (registrar : Registrar) : Bool :=
  call.pc.waiting && call.busy registrar == 0

theorem round_mono (call : RegistCall) (registrar : Registrar) (keptVersion : Nat)
    {ahead ahead' leaving leaving' : Nat} (first : ahead ≤ ahead') (second : leaving ≤ leaving') :
    call.round registrar keptVersion ahead leaving ≤
      call.round registrar keptVersion ahead' leaving' := by
  unfold round
  split
  · exact second
  · split
    · exact Nat.le_refl 0
    · exact Nat.add_le_add_left first _

/-- The call comes nearer to having nothing to do, or had nothing to do. -/
theorem round_lower (call : RegistCall) (registrar : Registrar) (keptVersion : Nat)
    {ahead ahead' leaving leaving' : Nat} (first : ahead < ahead') (second : leaving < leaving') :
    call.round registrar keptVersion ahead leaving <
        call.round registrar keptVersion ahead' leaving' ∨
      call.round registrar keptVersion ahead leaving =
        call.round registrar keptVersion ahead' leaving' := by
  unfold round
  split
  · exact .inl second
  · split
    · exact .inr rfl
    · exact .inl (Nat.add_lt_add_left first _)

/-- A call that has newer versions to read comes nearer to having nothing to do. -/
theorem round_lt (call : RegistCall) {registrar : Registrar} {keptVersion : Nat}
    (newer : 0 < lag registrar keptVersion) {ahead ahead' leaving leaving' : Nat}
    (first : ahead < ahead') (second : leaving < leaving') :
    call.round registrar keptVersion ahead leaving <
      call.round registrar keptVersion ahead' leaving' := by
  unfold round
  split
  · exact second
  · rw [if_neg (Nat.ne_of_gt newer), if_neg (Nat.ne_of_gt newer)]
    exact Nat.add_lt_add_left first _

theorem round_le (call : RegistCall) (registrar : Registrar) (keptVersion ahead leaving : Nat) :
    call.round registrar keptVersion ahead leaving ≤
      16 * lag registrar keptVersion + max ahead leaving := by
  unfold round
  split
  · exact Nat.le_add_left_of_le (Nat.le_max_right _ _)
  · split
    · exact Nat.zero_le _
    · exact Nat.add_le_add_left (Nat.le_max_left _ _) _

theorem lt_round {call : RegistCall} {registrar : Registrar} {keptVersion bound : Nat}
    (newer : 0 < lag registrar keptVersion) {ahead leaving : Nat}
    (first : bound < 16 * lag registrar keptVersion + ahead) (second : bound < leaving) :
    bound < call.round registrar keptVersion ahead leaving := by
  unfold round
  split
  · exact second
  · rw [if_neg (Nat.ne_of_gt newer)]
    exact first

theorem round_upToDate {call : RegistCall} {registrar : Registrar} {keptVersion : Nat}
    (newest : lag registrar keptVersion = 0) (ahead leaving : Nat) :
    call.round registrar keptVersion ahead leaving = if call.cancelled then leaving else 0 := by
  rw [round, if_pos newest]

theorem round_open {call : RegistCall} (open' : call.cancelled = false) (registrar : Registrar)
    (keptVersion ahead leaving : Nat) :
    call.round registrar keptVersion ahead leaving =
      if lag registrar keptVersion = 0 then 0 else 16 * lag registrar keptVersion + ahead := by
  rw [round, open', if_neg Bool.false_ne_true]

/-- A call that has read newer versions is further, although it begins its loop again. -/
theorem round_next {call later : RegistCall} {registrar : Registrar} {keptVersion cversion : Nat}
    (nearer : lag registrar cversion < lag registrar keptVersion)
    (same : later.cancelled = call.cancelled) {ahead ahead' leaving leaving' : Nat}
    (first : ahead < 16 + ahead') (second : leaving < leaving') :
    later.round registrar cversion ahead leaving <
      call.round registrar keptVersion ahead' leaving' := by
  unfold round
  rw [same]
  split
  · exact second
  · rw [if_neg (Nat.ne_of_gt (Nat.zero_lt_of_lt nearer))]
    split <;> omega

theorem round_busy {call : RegistCall} {registrar : Registrar}
    {keptVersion ahead ahead' leaving leaving' : Nat}
    (busy : call.round registrar keptVersion ahead' leaving' ≠ 0) (first : ahead < ahead')
    (second : leaving < leaving') : call.round registrar keptVersion ahead leaving <
      call.round registrar keptVersion ahead' leaving' := by
  rcases Nat.eq_zero_or_pos (lag registrar keptVersion) with newest | newer
  · rw [round_upToDate newest] at busy ⊢
    rw [round_upToDate newest]
    split
    · exact second
    · rename_i open'
      exact absurd (if_neg open') busy
  · exact call.round_lt newer first second

theorem entry_busy {call : RegistCall} {registrar : Registrar} {ahead ahead' : Nat}
    (busy : call.entry registrar ahead' ≠ 0) (lower : ahead < ahead') :
    call.entry registrar ahead < call.entry registrar ahead' := by
  unfold entry at busy ⊢
  split
  · rename_i waits
    exact absurd (if_pos waits) busy
  · exact lower

theorem entry_lower (call : RegistCall) (registrar : Registrar) {ahead ahead' : Nat}
    (lower : ahead < ahead') : call.entry registrar ahead < call.entry registrar ahead' ∨
      call.entry registrar ahead = call.entry registrar ahead' := by
  unfold entry
  split
  · exact .inr rfl
  · exact .inl lower

theorem lag_lt {registrar : Registrar} {keptVersion cversion : Nat} (newer : keptVersion < cversion)
    (taken : cversion < registrar.version) : lag registrar cversion < lag registrar keptVersion := by
  unfold lag
  omega

end RegistCall

namespace RegistServer

/-- A call that lists has seen a newer version. -/
def Ahead (server : RegistServer) (call : RegistCall) : Prop :=
  ∀ range ∈ call.pc.listing, range.1 < range.2 ∧ range.2 < server.registrar.version

/-- Taking a version comes before writing one, and that before coming nearer to rest. -/
theorem effect_lowers {server : RegistServer} {id : Nat} {call : RegistCall} {result : CallEffect}
    (effected : server.effect id call = some result) (ahead : server.Ahead call)
    (ok : server.ok = true) :
    result.call.pc.takes < call.pc.takes ∨
    (result.call.pc.takes = call.pc.takes ∧ result.call.pc.pendings < call.pc.pendings) ∨
    (result.call.pc.takes = call.pc.takes ∧ result.call.pc.pendings = call.pc.pendings ∧
      result.registrar = server.registrar ∧
      (result.call.busy server.registrar < call.busy server.registrar ∨
        result.call.busy server.registrar = call.busy server.registrar ∧
          result.notifies = false ∧ result.call.pc.unparked < call.pc.unparked)) := by
  obtain ⟨info, pc, cancelled, broken, sent⟩ := call
  cases pc with
  | findExistNode =>
      cases effected
      refine .inr (.inr ?_)
      simp only [moves, RegistCall.goTo]
      split
      · refine ⟨rfl, rfl, trivial, ?_⟩
        exact (RegistCall.entry_lower _ _ (by decide)).imp_right fun same =>
          ⟨same, trivial, Nat.lt_succ_self _⟩
      · rename_i absent
        refine ⟨rfl, rfl, trivial, .inl ?_⟩
        have free : ¬ RegistCall.waitsForName ⟨info, .findExistNode, cancelled, broken, sent⟩
            server.registrar = true := fun waits => absent (Bool.and_eq_true_iff.mp waits).1
        simp only [RegistCall.busy, RegistCall.entry, if_neg free]
        decide
  | lockName =>
      simp only [effect, acquires, Option.ite_none_right_eq_some, Option.some.injEq] at effected
      obtain ⟨_, rfl⟩ := effected
      refine .inr (.inr ⟨rfl, rfl, rfl, ?_⟩)
      exact (RegistCall.entry_lower _ _ (by decide)).imp_right fun same =>
        ⟨same, rfl, Nat.lt_succ_self _⟩
  | evaluateName =>
      cases effected
      refine .inr (.inr ?_)
      simp only [moves, RegistCall.goTo]
      split
      · rename_i free
        refine ⟨rfl, rfl, trivial, .inl ?_⟩
        have free : ¬ RegistCall.waitsForName ⟨info, .evaluateName, cancelled, broken, sent⟩
            server.registrar = true := by
          rw [RegistCall.waitsForName, Bool.and_eq_true, Bool.not_eq_true']
          rintro ⟨alive, rfl⟩
          rw [alive] at free
          cases free
        simp only [RegistCall.busy, RegistCall.entry, if_neg free]
        decide
      · rename_i taken
        refine ⟨rfl, rfl, trivial, .inr ⟨?_, trivial, Nat.lt_succ_self _⟩⟩
        rw [Bool.or_eq_true, Bool.not_eq_true', not_or, Bool.not_eq_false, Bool.not_eq_true]
          at taken
        obtain ⟨alive, open'⟩ := taken
        have waits (pc : CallPc) : RegistCall.waitsForName ⟨info, pc, cancelled, broken, sent⟩
            server.registrar = true := by
          rw [RegistCall.waitsForName, alive, open']
          rfl
        simp only [RegistCall.busy, RegistCall.entry, if_pos (waits _)]
  | parkName =>
      cases effected
      refine .inr (.inr ⟨rfl, rfl, rfl, ?_⟩)
      exact (RegistCall.entry_lower _ _ (by decide)).imp_right fun same =>
        ⟨same, rfl, Nat.lt_succ_self _⟩
  | admitted =>
      cases effected
      cases cancelled with
      | true => exact .inl Nat.zero_lt_two
      | false => exact .inr (.inr ⟨rfl, rfl, rfl, .inl (Nat.lt_succ_self 2)⟩)
  | takeVersion | leave =>
      cases effected
      exact .inl (Nat.lt_succ_self _)
  | registration | deregistration =>
      cases effected
      exact .inr (.inl ⟨rfl, Nat.zero_lt_one⟩)
  | listFirst =>
      cases effected
      exact .inr (.inr ⟨rfl, rfl, rfl, .inl (Nat.lt_succ_self _)⟩)
  | writeFirst =>
      cases effected
      refine .inr (.inr ⟨rfl, rfl, rfl, .inl ?_⟩)
      exact Nat.lt_succ_self _
  | notifyFirst =>
      cases effected
      refine .inr (.inr ⟨rfl, rfl, rfl, .inl ?_⟩)
      refine Nat.lt_of_le_of_lt (RegistCall.round_le _ _ _ _ _) ?_
      exact Nat.add_lt_add_left (by decide) _
  | loop =>
      cases effected
      refine .inr (.inr ?_)
      simp only [moves, ok, if_true]
      refine ⟨rfl, rfl, trivial, ?_⟩
      exact (RegistCall.round_lower _ _ _ (by decide) (by decide)).imp_right fun same =>
        ⟨same, trivial, Nat.lt_succ_self _⟩
  | test =>
      cases effected
      cases cancelled with
      | true => exact .inr (.inr ⟨rfl, rfl, rfl, .inl (Nat.lt_succ_self 1)⟩)
      | false =>
          refine .inr (.inr ⟨rfl, rfl, rfl, ?_⟩)
          have open' (pc : CallPc) :
              (RegistCall.mk info pc false broken sent).cancelled = false := rfl
          simp only [RegistCall.busy, moves, RegistCall.goTo, Bool.false_eq_true, if_false,
            RegistCall.round_open (open' _)]
          split
          · exact .inr ⟨rfl, trivial, Nat.lt_succ_self _⟩
          · exact .inl (Nat.lt_succ_self _)
  | lock | relock =>
      simp only [effect, acquires, Option.ite_none_right_eq_some, Option.some.injEq] at effected
      obtain ⟨_, rfl⟩ := effected
      refine .inr (.inr ⟨rfl, rfl, rfl, ?_⟩)
      exact (RegistCall.round_lower _ _ _ (by decide) (by decide)).imp_right fun same =>
        ⟨same, rfl, Nat.lt_succ_self _⟩
  | park =>
      cases effected
      refine .inr (.inr ⟨rfl, rfl, rfl, ?_⟩)
      exact (RegistCall.round_lower _ _ _ (by decide) (by decide)).imp_right fun same =>
        ⟨same, rfl, Nat.lt_succ_self _⟩
  | readVersion registVersion keptVersion =>
      simp only [effect] at effected
      split at effected
      · cases effected
        refine .inr (.inr ⟨rfl, rfl, rfl, ?_⟩)
        exact (RegistCall.round_lower _ _ _ (by decide) (by decide)).imp_right fun same =>
          ⟨same, rfl, Nat.zero_lt_succ _⟩
      · rename_i newest
        cases effected
        have newest : RegistCall.lag server.registrar keptVersion = 0 := by
          unfold RegistCall.lag
          omega
        refine .inr (.inr ⟨rfl, rfl, rfl, ?_⟩)
        simp only [RegistCall.busy, releases, RegistCall.goTo, RegistCall.round_upToDate newest]
        split
        · exact .inl (by decide)
        · exact .inr ⟨rfl, trivial, Nat.lt_succ_self _⟩
  | list registVersion keptVersion cversion =>
      cases effected
      obtain ⟨newer, taken⟩ := ahead (keptVersion, cversion) rfl
      have behind := Nat.zero_lt_of_lt (RegistCall.lag_lt newer taken)
      exact .inr (.inr ⟨rfl, rfl, rfl, .inl (RegistCall.round_lt _ behind (by decide) (by decide))⟩)
  | write registVersion keptVersion cversion reply =>
      cases effected
      obtain ⟨newer, taken⟩ := ahead (keptVersion, cversion) rfl
      have nearer := RegistCall.lag_lt newer taken
      have behind := Nat.zero_lt_of_lt nearer
      cases broken with
      | true =>
          refine .inr (.inr ⟨rfl, rfl, rfl, .inl ?_⟩)
          have later : 1 < 16 * RegistCall.lag server.registrar keptVersion + 2 := by omega
          exact RegistCall.lt_round behind later (show 1 < 4 by decide)
      | false =>
          refine .inr (.inr ⟨rfl, rfl, rfl, .inl ?_⟩)
          exact RegistCall.round_next nearer rfl (by decide) (by decide)
  | notifyLast =>
      cases effected
      exact .inr (.inr ⟨rfl, rfl, rfl, .inl Nat.zero_lt_one⟩)
  | parkedName | parked | withdrawn | done => cases effected

theorem takes_wake (call : RegistCall) : call.wake.pc.takes = call.pc.takes := by
  obtain ⟨info, pc, cancelled, broken, sent⟩ := call
  cases pc <;> rfl

theorem pendings_wake (call : RegistCall) : call.wake.pc.pendings = call.pc.pendings := by
  obtain ⟨info, pc, cancelled, broken, sent⟩ := call
  cases pc <;> rfl

theorem busy_wake_le (call : RegistCall) (registrar : Registrar) :
    call.wake.busy registrar ≤ call.busy registrar := by
  obtain ⟨info, pc, cancelled, broken, sent⟩ := call
  cases pc with
  | parkedName =>
      rcases RegistCall.entry_lower ⟨info, .parkedName, cancelled, broken, sent⟩ registrar
        (show 5 < 6 by decide) with lower | same
      · exact Nat.le_of_lt lower
      · exact Nat.le_of_eq same
  | parked registVersion keptVersion =>
      exact RegistCall.round_mono _ registrar keptVersion (by decide) (by decide)
  | _ => exact Nat.le_refl _

/-- A notification brings a waiting call nearer to rest that has something to do. -/
theorem busy_wake_lt {call : RegistCall} {registrar : Registrar} (waiting : call.pc.waiting = true)
    (restless : call.resting registrar = false) :
    call.wake.busy registrar < call.busy registrar := by
  have busy : call.busy registrar ≠ 0 := by
    intro idle
    rw [RegistCall.resting, waiting, idle] at restless
    cases restless
  obtain ⟨info, pc, cancelled, broken, sent⟩ := call
  cases pc with
  | parkedName => exact RegistCall.entry_busy busy (Nat.lt_succ_self 5)
  | parked => exact RegistCall.round_busy busy (Nat.lt_succ_self 5) (Nat.lt_succ_self 7)
  | withdrawn | done => exact absurd rfl busy
  | _ => cases waiting

/-! ## The measure of the whole registrar -/

def total (server : RegistServer) (weight : RegistCall → Nat) : Nat :=
  (server.calls.map weight).sum

def restlessness (server : RegistServer) : Nat × Nat × Nat × Nat :=
  (server.total fun call => call.pc.takes, server.total fun call => call.pc.pendings,
    server.total fun call => call.busy server.registrar, server.total fun call => call.pc.unparked)

/-- The measure is lower in the first of its parts that is not the same. -/
def Lower (next server : RegistServer) : Prop :=
  WellFoundedRelation.rel next.restlessness server.restlessness

theorem total_notifyAll_le (server : RegistServer) {weight : RegistCall → Nat}
    (woken : ∀ call, weight call.wake ≤ weight call) :
    server.notifyAll.total weight ≤ server.total weight := by
  rw [total, notifyAll, List.map_map]
  exact List.sum_le_sum fun call _ => woken call

theorem total_notifyAll (server : RegistServer) {weight : RegistCall → Nat}
    (woken : ∀ call, weight call.wake = weight call) :
    server.notifyAll.total weight = server.total weight := by
  rw [total, notifyAll, List.map_map, total]
  exact congrArg List.sum (List.map_congr_left fun call _ => woken call)

theorem effect_awake {server : RegistServer} {id : Nat} {call : RegistCall}
    {result : CallEffect} (effected : server.effect id call = some result) :
    call.wake = call := by
  obtain ⟨info, pc, cancelled, broken, sent⟩ := call
  cases pc with
  | parkedName | parked => cases effected
  | _ => rfl

/-- The weight of the call is exchanged, and a notification does not add to that of the others. -/
theorem total_apply_le {server : RegistServer} {id : Nat} {call : RegistCall}
    (found : server.calls[id]? = some call) {result : CallEffect}
    (effected : server.effect id call = some result) {weight : RegistCall → Nat}
    (woken : ∀ call, weight call.wake ≤ weight call) :
    (server.apply id result).total weight + weight call ≤
      server.total weight + weight result.call := by
  rw [total, apply]
  dsimp only
  split
  · have there : server.notifyAll.calls[id]? = some call := by
      refine (wake_getElem? server.calls id).trans ?_
      rw [found, Option.map_some, effect_awake effected]
    rw [sum_set there]
    exact Nat.add_le_add_right (server.total_notifyAll_le woken) _
  · rw [sum_set found]
    exact Nat.le_refl _

theorem total_apply {server : RegistServer} {id : Nat} {call : RegistCall}
    (found : server.calls[id]? = some call) {result : CallEffect}
    (effected : server.effect id call = some result) {weight : RegistCall → Nat}
    (same : result.notifies = true → ∀ call, weight call.wake = weight call) :
    (server.apply id result).total weight + weight call =
      server.total weight + weight result.call := by
  rw [total, apply]
  dsimp only
  split
  · rename_i notified
    have there : server.notifyAll.calls[id]? = some call := by
      refine (wake_getElem? server.calls id).trans ?_
      rw [found, Option.map_some, effect_awake effected]
    rw [sum_set there]
    exact congrArg (· + _) (server.total_notifyAll (same notified))
  · rw [sum_set found]
    rfl

theorem lower_of_cases {next server : RegistServer}
    (cases' : next.restlessness.1 < server.restlessness.1 ∨
      next.restlessness.1 = server.restlessness.1 ∧
        (next.restlessness.2.1 < server.restlessness.2.1 ∨
          next.restlessness.2.1 = server.restlessness.2.1 ∧
            (next.restlessness.2.2.1 < server.restlessness.2.2.1 ∨
              next.restlessness.2.2.1 = server.restlessness.2.2.1 ∧
                next.restlessness.2.2.2 < server.restlessness.2.2.2))) : next.Lower server := by
  unfold Lower
  generalize next.restlessness = after at cases' ⊢
  generalize server.restlessness = before at cases' ⊢
  obtain ⟨takes, pendings, busy, unparked⟩ := after
  obtain ⟨takes', pendings', busy', unparked'⟩ := before
  dsimp only at cases'
  rcases cases' with lower | ⟨rfl, lower | ⟨rfl, lower | ⟨rfl, lower⟩⟩⟩
  · exact Prod.Lex.left _ _ lower
  · exact Prod.Lex.right _ (Prod.Lex.left _ _ lower)
  · exact Prod.Lex.right _ (Prod.Lex.right _ (Prod.Lex.left _ _ lower))
  · exact Prod.Lex.right _ (Prod.Lex.right _ (Prod.Lex.right _ lower))

/-- Every step of a call brings the registrar nearer to rest. -/
theorem lower_apply {server : RegistServer} {id : Nat} {call : RegistCall}
    (found : server.calls[id]? = some call) {result : CallEffect}
    (effected : server.effect id call = some result) (ahead : server.Ahead call)
    (ok : server.ok = true) : (server.apply id result).Lower server := by
  have takes := @total_apply server id call found result effected
    (fun call => call.pc.takes) fun _ => takes_wake
  have pendings := @total_apply server id call found result effected
    (fun call => call.pc.pendings) fun _ => pendings_wake
  apply lower_of_cases
  dsimp only [restlessness]
  rcases effect_lowers effected ahead ok with lower | ⟨same, lower⟩ |
    ⟨same, same', registrar, nearer⟩
  · exact .inl (by omega)
  · exact .inr ⟨by omega, .inl (by omega)⟩
  · have busy := @total_apply_le server id call found result effected
      (fun call => call.busy server.registrar) fun call => busy_wake_le call _
    have unchanged : (server.apply id result).registrar = server.registrar := registrar
    rw [unchanged]
    refine .inr ⟨by omega, .inr ⟨by omega, ?_⟩⟩
    rcases nearer with lower | ⟨equal, silent, lower⟩
    · exact .inl (by omega)
    · have loud : ¬ result.notifies = true := by
        rw [silent]
        exact Bool.false_ne_true
      have busy' := @total_apply server id call found result effected
        (fun call => call.busy server.registrar) fun notified => absurd notified loud
      have unparked := @total_apply server id call found result effected
        (fun call => call.pc.unparked) fun notified => absurd notified loud
      exact .inr ⟨by omega, by omega⟩

theorem lower_notifyAll {server : RegistServer} {call : RegistCall} (member : call ∈ server.calls)
    (waiting : call.pc.waiting = true)
    (restless : call.resting server.registrar = false) : server.notifyAll.Lower server := by
  apply lower_of_cases
  dsimp only [restlessness]
  refine .inr ⟨server.total_notifyAll takes_wake, .inr ⟨server.total_notifyAll pendings_wake,
    .inl ?_⟩⟩
  rw [total, notifyAll, List.map_map]
  exact List.sum_lt_sum _ _ (fun call _ => busy_wake_le call _)
    ⟨call, member, busy_wake_lt waiting restless⟩

/-! ## What can be done next -/

theorem effect_isSome {server : RegistServer} {id : Nat} {call : RegistCall}
    (awake : call.pc.waiting = false) (free : server.mtx = none ∨ call.pc.holding = true) :
    ∃ result, server.effect id call = some result := by
  obtain ⟨info, pc, cancelled, broken, sent⟩ := call
  cases pc with
  | lockName | lock | relock =>
      rcases free with free | holds
      · exact ⟨_, if_pos (by rw [free]; rfl)⟩
      · cases holds
  | readVersion =>
      simp only [effect]
      split
      · exact ⟨_, rfl⟩
      · exact ⟨_, rfl⟩
  | parkedName | parked | withdrawn | done => cases awake
  | _ => exact ⟨_, rfl⟩

/-- The steps of the calls and of the health check. -/
def Started : RegistServerAction → Prop
  | .run _ | .healthyCheck => True
  | _ => False

/-- Everybody who waits has nothing to do. -/
def AtRest (server : RegistServer) : Prop :=
  ∀ call ∈ server.calls, call.resting server.registrar = true

/-- A step in order that brings the registrar nearer to rest. -/
def Advances (server : RegistServer) : Prop :=
  ∃ action next, (Started action ∧ server.Orderly action) ∧ server.step action = some next ∧
    next.ok = true ∧ next.Lower server

theorem advances_of_run {server : RegistServer} (ok : server.ok = true)
    (ahead : ∀ call ∈ server.calls, server.Ahead call) {id : Nat} {call : RegistCall}
    (found : server.calls[id]? = some call)
    (enabled : ∃ result, server.effect id call = some result)
    (orderly : server.Orderly (.run id)) : server.Advances := by
  obtain ⟨result, effected⟩ := enabled
  refine ⟨.run id, server.apply id result, ⟨trivial, orderly⟩, ?_, ok,
    lower_apply found effected (ahead call (List.mem_of_getElem? found)) ok⟩
  rw [step, found, Option.bind_some, effected]
  rfl

/-- With no version taken and not written, nobody about to take one, and the mutex free or held by
the call, its step is in order. -/
theorem orderly_of_still {server : RegistServer} (locked : server.Locked)
    (written : ∀ call ∈ server.calls, call.pc.pendings = 0)
    (settled : ∀ call ∈ server.calls, call.pc ≠ .takeVersion) {id : Nat} {call : RegistCall}
    (found : server.calls[id]? = some call)
    (free : server.mtx = none ∨ call.pc.holding = true) : server.Orderly (.run id) := by
  intro known located
  cases found.symm.trans located
  constructor
  · intro range _ other member position pending
    have none := written other member
    obtain ⟨info, pc, cancelled, broken, sent⟩ := other
    cases pc with
    | registration | deregistration => cases none
    | _ => cases pending
  · rintro ⟨passing, _⟩ other member enters
    have elsewhere : other.pc = .admitted := by
      have none := written other member
      have taking := settled other member
      obtain ⟨info, pc, cancelled, broken, sent⟩ := other
      cases pc with
      | admitted => rfl
      | takeVersion => exact absurd rfl taking
      | registration => cases none
      | _ => cases enters
    obtain ⟨index, there⟩ := List.mem_iff_getElem?.mp member
    have owned := (locked index).mpr ⟨other, there, by rw [elsewhere]; rfl⟩
    rcases free with free | holds
    · cases free.symm.trans owned
    · have own := (locked id).mpr ⟨call, found, holds⟩
      cases own.symm.trans owned
      cases found.symm.trans there
      rcases passing with here | ⟨here, _⟩
      · cases here.symm.trans elsewhere
      · cases here.symm.trans elsewhere

/-- A call that neither lists nor looks for its name is in order. -/
theorem orderly_of_pc {server : RegistServer} {id : Nat} {call : RegistCall}
    (found : server.calls[id]? = some call) (range : call.regist.range = none)
    (passing : call.pc ≠ .findExistNode ∧ call.pc ≠ .evaluateName) :
    server.Orderly (.run id) := by
  intro known located
  cases found.symm.trans located
  constructor
  · intro known listed
    rw [range] at listed
    cases listed
  · rintro ⟨here | ⟨here, _⟩, _⟩
    · exact absurd here passing.1
    · exact absurd here passing.2

/-- Whoever has taken a version writes it first, then whoever has passed takes one, then the owner
of the mutex goes on, and then the others. The health check notifies when all wait. -/
theorem advances {server : RegistServer} (locked : server.Locked)
    (ahead : ∀ call ∈ server.calls, server.Ahead call) (ok : server.ok = true)
    (restless : ¬ server.AtRest) : server.Advances := by
  by_cases written : ∀ call ∈ server.calls, call.pc.pendings = 0
  case neg =>
    simp only [not_forall, exists_prop] at written
    obtain ⟨call, member, pending⟩ := written
    obtain ⟨id, found⟩ := List.mem_iff_getElem?.mp member
    obtain ⟨info, pc, cancelled, broken, sent⟩ := call
    cases pc with
    | registration | deregistration =>
        exact advances_of_run ok ahead found ⟨_, rfl⟩
          (orderly_of_pc found rfl ⟨CallPc.noConfusion, CallPc.noConfusion⟩)
    | _ => exact absurd rfl pending
  by_cases settled : ∀ call ∈ server.calls, call.pc ≠ .takeVersion
  case neg =>
    simp only [not_forall, exists_prop, not_not] at settled
    obtain ⟨⟨info, pc, cancelled, broken, sent⟩, member, here⟩ := settled
    obtain rfl : pc = .takeVersion := here
    obtain ⟨id, found⟩ := List.mem_iff_getElem?.mp member
    exact advances_of_run ok ahead found ⟨_, rfl⟩
      (orderly_of_pc found rfl ⟨CallPc.noConfusion, CallPc.noConfusion⟩)
  cases mtx : server.mtx with
  | some owner =>
      obtain ⟨call, found, holds⟩ := (locked owner).mp mtx
      have awake : call.pc.waiting = false := by
        cases located : call.pc with
        | parkedName | parked | withdrawn | done =>
            rw [located] at holds
            cases holds
        | _ => rfl
      exact advances_of_run ok ahead found (effect_isSome awake (.inr holds))
        (orderly_of_still locked written settled found (.inr holds))
  | none =>
      by_cases asleep : ∀ call ∈ server.calls, call.pc.waiting = true
      · simp only [AtRest, not_forall, exists_prop] at restless
        obtain ⟨call, member, restless⟩ := restless
        refine ⟨.healthyCheck, server.notifyAll, ⟨trivial, trivial⟩, if_pos ok, ok, ?_⟩
        exact lower_notifyAll member (asleep call member) (Bool.eq_false_iff.mpr restless)
      · simp only [not_forall, exists_prop] at asleep
        obtain ⟨call, member, awake⟩ := asleep
        obtain ⟨id, found⟩ := List.mem_iff_getElem?.mp member
        exact advances_of_run ok ahead found
          (effect_isSome (Bool.eq_false_iff.mpr awake) (.inl mtx))
          (orderly_of_still locked written settled found (.inl mtx))

/-! ## Whole runs -/

theorem ahead_initial : ∀ call ∈ initial.calls, initial.Ahead call := by
  intro call member
  cases member

theorem effect_version {server : RegistServer} {id : Nat} {call : RegistCall}
    {result : CallEffect} (effected : server.effect id call = some result) :
    server.registrar.version ≤ result.registrar.version := by
  obtain ⟨info, pc, cancelled, broken, sent⟩ := call
  cases pc with
  | takeVersion | leave =>
      cases effected
      exact Nat.le_succ _
  | lockName | lock | relock =>
      simp only [effect, acquires, Option.ite_none_right_eq_some, Option.some.injEq] at effected
      obtain ⟨_, rfl⟩ := effected
      exact Nat.le_refl _
  | readVersion =>
      simp only [effect] at effected
      split at effected <;> cases effected <;> exact Nat.le_refl _
  | parkedName | parked | withdrawn | done => cases effected
  | _ =>
      cases effected
      exact Nat.le_refl _

theorem effect_listing {server : RegistServer} {id : Nat} {call : RegistCall}
    {result : CallEffect} (effected : server.effect id call = some result)
    {range : Nat × Nat} (listing : result.call.pc.listing = some range) :
    call.pc.listing = some range ∨ range.1 < range.2 ∧ range.2 < server.registrar.version := by
  obtain ⟨info, pc, cancelled, broken, sent⟩ := call
  cases pc with
  | readVersion =>
      simp only [effect] at effected
      split at effected
      · cases effected
        cases listing
        refine .inr ⟨?_, ?_⟩ <;> dsimp only <;> omega
      · cases effected
        cases listing
  | list =>
      cases effected
      exact .inl listing
  | findExistNode | evaluateName | admitted | loop | test | write =>
      cases effected
      simp only [moves, releases, RegistCall.goTo] at listing
      split at listing <;> cases listing
  | lockName | lock | relock =>
      simp only [effect, acquires, Option.ite_none_right_eq_some, Option.some.injEq] at effected
      obtain ⟨_, rfl⟩ := effected
      cases listing
  | parkedName | parked | withdrawn | done => cases effected
  | _ =>
      cases effected
      cases listing

theorem Around.ahead {acts : Nat → Prop} {server next : RegistServer}
    (around : server.Around acts next) (ahead : ∀ call ∈ server.calls, server.Ahead call)
    (newer : server.registrar.version ≤ next.registrar.version) {id : Nat} {later : RegistCall}
    (idle : ¬ acts id) (found : next.calls[id]? = some later) : next.Ahead later := by
  intro range listing
  rcases around.after idle found with ⟨call, located, touched⟩ | ⟨_, info, rfl⟩
  · have same : later.pc.listing = call.pc.listing := touched.same fun pc => by cases pc <;> rfl
    rw [same] at listing
    obtain ⟨rising, taken⟩ := ahead call (List.mem_of_getElem? located) range listing
    exact ⟨rising, Nat.lt_of_lt_of_le taken newer⟩
  · cases listing

theorem ahead_step {server next : RegistServer} {action : RegistServerAction}
    (ahead : ∀ call ∈ server.calls, server.Ahead call) (stepped : server.step action = some next) :
    ∀ call ∈ next.calls, next.Ahead call := by
  intro later member
  obtain ⟨index, located⟩ := List.mem_iff_getElem?.mp member
  rcases step_cases stepped with ⟨id, call, result, -, found, effected, rfl⟩ |
    ⟨registrar, _, around⟩
  · have newer := effect_version effected
    by_cases here : index = id
    · subst here
      cases located.symm.trans (apply_self found)
      intro range listing
      rcases effect_listing effected listing with before | ⟨rising, taken⟩
      · obtain ⟨rising, taken⟩ := ahead call (List.mem_of_getElem? found) range before
        exact ⟨rising, Nat.lt_of_lt_of_le taken newer⟩
      · exact ⟨rising, Nat.lt_of_lt_of_le taken newer⟩
    · exact (server.around_apply id result).ahead ahead newer here located
  · exact around.ahead ahead (by rw [registrar]) not_false located

/-! ## A registrar at rest -/

end RegistServer

namespace RegistCall

/-- The nodes that the caller shows. -/
def shown (call : RegistCall) : NodeView :=
  call.sent.foldl NodeRegist.execute fun _ => none

/-- The call has a registered node, and waits for newer versions. -/
def Serving (call : RegistCall) : Prop :=
  call.cancelled = false ∧ ∃ registVersion keptVersion, call.pc = .parked registVersion keptVersion

end RegistCall

namespace RegistServer

/-- Every call has returned, or waits for a name that another call serves, or serves its own
node and has been sent everything, so that its caller shows exactly the nodes that others serve. -/
def Quiescent (server : RegistServer) : Prop :=
  ∀ (id : Nat) call, server.calls[id]? = some call →
    call.pc.returned = true ∨
    (call.cancelled = false ∧ call.pc = .parkedName ∧
      ∃ other ∈ server.calls, other.Serving ∧ other.info.nodeName = call.info.nodeName) ∨
    (call.Serving ∧ (call.broken = false → ∀ nodeName endpoint,
      call.shown nodeName = some endpoint ↔ ∃ (other : Nat) (later : RegistCall), other ≠ id ∧
        server.calls[other]? = some later ∧ later.Serving ∧ later.info.nodeName = nodeName ∧
        (later.info.ip, later.info.port) = endpoint))

theorem resting_cases {call : RegistCall} {registrar : Registrar}
    (resting : call.resting registrar = true) :
    call.pc.returned = true ∨
    (call.cancelled = false ∧ call.pc = .parkedName ∧
      call.info.nodeName ∈ registrar.aliveNodes) ∨
    (call.cancelled = false ∧ ∃ registVersion keptVersion,
      call.pc = .parked registVersion keptVersion ∧ registrar.version ≤ keptVersion + 1) := by
  obtain ⟨waiting, idle⟩ := Bool.and_eq_true_iff.mp resting
  have idle : call.busy registrar = 0 := beq_iff_eq.mp idle
  obtain ⟨info, pc, cancelled, broken, sent⟩ := call
  cases pc with
  | withdrawn | done => exact .inl rfl
  | parkedName =>
      simp only [RegistCall.busy, RegistCall.entry] at idle
      split at idle
      · rename_i waits
        obtain ⟨alive, open'⟩ := Bool.and_eq_true_iff.mp waits
        exact .inr (.inl ⟨(Bool.not_eq_true' _).mp open', rfl, of_decide_eq_true alive⟩)
      · cases idle
  | parked registVersion keptVersion =>
      simp only [RegistCall.busy, RegistCall.round] at idle
      split at idle
      · cases idle
      · rename_i open'
        split at idle
        · rename_i newest
          refine .inr (.inr ⟨Bool.eq_false_iff.mpr open', registVersion, keptVersion, rfl, ?_⟩)
          unfold RegistCall.lag at newest
          omega
        · omega
  | _ => cases waiting

theorem serving_of_live {call : RegistCall} {registrar : Registrar}
    (resting : call.resting registrar = true) (living : call.live = true) : call.Serving := by
  rcases resting_cases resting with returned | ⟨_, here, _⟩ | ⟨open', own, kept, here, _⟩
  · obtain ⟨info, pc, cancelled, broken, sent⟩ := call
    cases pc with
    | withdrawn | done => cases living
    | _ => cases returned
  · rw [RegistCall.live, here] at living
    cases living
  · exact ⟨open', own, kept, here⟩

theorem AtRest.shown {server : RegistServer} {service : Service} {log : List LogEvent}
    (rest : server.AtRest) (tracked : Tracked server service log) {id : Nat} {call : RegistCall}
    (found : server.calls[id]? = some call) {registVersion keptVersion : Nat}
    (here : call.pc = .parked registVersion keptVersion)
    (newest : server.registrar.version ≤ keptVersion + 1) (whole : call.broken = false)
    (nodeName : String) (endpoint : String × UInt32) :
    call.shown nodeName = some endpoint ↔ ∃ (other : Nat) (later : RegistCall), other ≠ id ∧
      server.calls[other]? = some later ∧ later.Serving ∧ later.info.nodeName = nodeName ∧
      (later.info.ip, later.info.port) = endpoint := by
  obtain ⟨behind, logged, named, locked⟩ := tracked
  obtain ⟨ip, port⟩ := endpoint
  have waits : service.handlers id = .wait registVersion keptVersion := by
    rw [behind.handlers, handler_of_found found, RegistCall.regist, here]
    rfl
  have version : keptVersion + 1 = service.registrar.version := by
    have reads : (service.handlers id).reading = some (registVersion, keptVersion) := by
      rw [waits]
      rfl
    have below := (logged.reading reads).2.1
    rw [logged.version]
    rw [← behind.registrar, logged.version] at newest
    omega
  have received := behind.received found whole
  rw [here] at received
  have same : service.shown id = call.shown := by
    rw [Service.shown, received, RegistCall.shown]
    exact congrArg (List.foldl NodeRegist.execute fun _ => none) (List.append_nil call.sent)
  rw [← same, logged.converged id registVersion keptVersion waits version nodeName (ip, port)]
  constructor
  · rintro ⟨other, position, first, apart, current, slot⟩
    rw [behind.handlers, RegistServer.handler] at current
    cases located : server.calls[other]? with
    | none =>
        rw [located] at current
        cases current
    | some later =>
        rw [located] at current
        have current : later.regist.current = some position := current
        have own : later.pc.live = some position ∧ later.live = true := by
          have resting := rest later (List.mem_of_getElem? located)
          rcases resting_cases resting with returned | ⟨_, there, _⟩ | ⟨_, own, kept, there, _⟩
          · obtain ⟨info, pc, cancelled, broken, sent⟩ := later
            cases pc with
            | withdrawn | done => cases current
            | _ => cases returned
          · rw [RegistCall.regist, there] at current
            cases current
          · rw [RegistCall.regist, there] at current
            cases current
            rw [RegistCall.live, there]
            exact ⟨rfl, rfl⟩
        obtain ⟨first', slot'⟩ := logged.accounted.stored (behind.written located own.1)
        cases slot.symm.trans slot'
        have serving := serving_of_live (rest later (List.mem_of_getElem? located)) own.2
        exact ⟨other, later, apart, located, serving, rfl, rfl⟩
  · rintro ⟨other, later, apart, located, ⟨_, own, kept, there⟩, rfl, endpoint⟩
    cases endpoint
    have living : later.pc.live = some own := by
      rw [there]
      rfl
    obtain ⟨first, slot⟩ := logged.accounted.stored (behind.written located living)
    refine ⟨other, own, first, apart, ?_, slot⟩
    rw [behind.handlers, handler_of_found located, RegistCall.regist, there]
    rfl

theorem AtRest.quiescent {server : RegistServer} {service : Service} {log : List LogEvent}
    (rest : server.AtRest) (tracked : Tracked server service log) : server.Quiescent := by
  intro id call found
  rcases resting_cases (rest call (List.mem_of_getElem? found)) with
    returned | ⟨open', here, alive⟩ | ⟨open', own, kept, here, newest⟩
  · exact .inl returned
  · obtain ⟨other, later, located, living, name⟩ := (tracked.named.alive _).mp alive
    have member := List.mem_of_getElem? located
    exact .inr (.inl ⟨open', here, later, member, serving_of_live (rest later member) living, name⟩)
  · exact .inr (.inr ⟨⟨open', own, kept, here⟩, fun whole nodeName endpoint =>
      rest.shown tracked found here newest whole nodeName endpoint⟩)

/-- What holds along the runs in order. -/
structure Sound (server : RegistServer) : Prop where
  tracked : ∃ service log, Tracked server service log
  ahead : ∀ call ∈ server.calls, server.Ahead call

theorem sound_initial : initial.Sound := ⟨⟨_, _, tracked_initial⟩, ahead_initial⟩

theorem Sound.step {server next : RegistServer} {action : RegistServerAction}
    (sound : server.Sound) (orderly : server.Orderly action)
    (stepped : server.step action = some next) : next.Sound := by
  obtain ⟨⟨service, log, tracked⟩, ahead⟩ := sound
  exact ⟨tracked.step orderly stepped, ahead_step ahead stepped⟩

/-- From wherever a run in order has led, the calls and the health check can bring the registrar
to rest, and then everybody who waits shows the registered nodes or has his name taken. -/
theorem comes_to_rest {run : List RegistServerAction} {server : RegistServer}
    (orderly : machine.Obeys Orderly initial run) (executed : machine.exec initial run = some server)
    (ok : server.ok = true) :
    ∃ more final, machine.Obeys (fun server action => Started action ∧ server.Orderly action)
      server more ∧ machine.exec server more = some final ∧ final.Quiescent := by
  have sound : server.Sound := (machine.along_of_obeys
    (fun _ _ _ sound permitted stepped => sound.step permitted stepped) sound_initial
    orderly).final executed
  have lowers : ∀ server : RegistServer, server.Sound ∧ server.ok = true → ¬ server.AtRest →
      ∃ action next, (Started action ∧ server.Orderly action) ∧
        machine.step server action = some next ∧ (next.Sound ∧ next.ok = true) ∧
        WellFoundedRelation.rel next.restlessness server.restlessness := by
    rintro server ⟨sound, ok⟩ restless
    obtain ⟨_, _, tracked⟩ := sound.tracked
    obtain ⟨action, next, permitted, stepped, ok', lower⟩ :=
      advances tracked.locked sound.ahead ok restless
    exact ⟨action, next, permitted, stepped, ⟨sound.step permitted.2 stepped, ok'⟩, lower⟩
  obtain ⟨more, final, obeys, reached, rest⟩ :=
    machine.reaches_of_lowers restlessness lowers ⟨sound, ok⟩
  refine ⟨more, final, obeys, reached, ?_⟩
  have sound' : final.Sound := (machine.along_of_obeys
    (fun _ _ _ sound permitted stepped => sound.step permitted.2 stepped) sound obeys).final reached
  obtain ⟨_, _, tracked⟩ := sound'.tracked
  exact rest.quiescent tracked

/-- The second node registers between the test of the first and its wait, and a third call has
found the name of the first taken. -/
def lostNotification : List RegistServerAction :=
  [.regist { nodeName := "camera", ip := "10.0.0.1", port := 4001 }] ++
    List.replicate 8 (.run 0) ++
    [.regist { nodeName := "lidar", ip := "10.0.0.2", port := 4002 }] ++
    List.replicate 6 (.run 1) ++ [.run 0, .run 0] ++
    [.regist { nodeName := "camera", ip := "10.0.0.3", port := 4003 }, .run 2]

theorem comes_to_rest_lostNotification :
    ∃ server, machine.exec initial lostNotification = some server ∧
      server.calls.map RegistCall.pc = [.parked 0 0, .loop 1 1, .lockName] ∧
      ∃ more final, machine.Obeys (fun server action => Started action ∧ server.Orderly action)
        server more ∧ machine.exec server more = some final ∧ final.Quiescent := by
  have evaluated : (machine.exec initial lostNotification).map (fun server =>
      (server.calls.map RegistCall.pc, server.ok)) =
      some ([.parked 0 0, .loop 1 1, .lockName], true) := by
    decide +kernel
  obtain ⟨server, executed, same⟩ := Option.map_eq_some_iff.mp evaluated
  obtain ⟨calls, ok⟩ := Prod.mk.injEq .. ▸ same
  exact ⟨server, executed, calls, comes_to_rest (by decide +kernel) executed ok⟩

end RegistServer

end ProtoCore.Discovery
