import Mathlib.Algebra.GroupWithZero.Nat
import Mathlib.Data.List.Basic
import Mathlib.Data.List.Perm.Basic

/-!
# Machines with resolved choices

A machine is a partial step function over labelled actions. An action names the
process that moves and every value its environment supplies, so a run is a list
of actions and can be evaluated. An action that is not enabled stops the run.
-/

set_option autoImplicit false

namespace ProtoCore.Library

structure Machine (State Action : Type) where
  step : State → Action → Option State

namespace Machine

variable {State Action : Type} (machine : Machine State Action)

/-- Execute a whole run. A disabled action leaves no final state. -/
def exec : State → List Action → Option State
  | state, [] => some state
  | state, action :: rest => (machine.step state action).bind fun next => exec next rest

/-- The property holds in every state the run passes through, both ends included. -/
def Along (property : State → Prop) : State → List Action → Prop
  | state, [] => property state
  | state, action :: rest =>
      property state ∧ ∀ next, machine.step state action = some next → Along property next rest

/-- Every enabled step of the run meets a condition on the state before it. -/
def Obeys (allowed : State → Action → Prop) : State → List Action → Prop
  | _, [] => True
  | state, action :: rest =>
      ∀ next, machine.step state action = some next →
        allowed state action ∧ Obeys allowed next rest

theorem exec_cons (state : State) (action : Action) (rest : List Action) :
    machine.exec state (action :: rest) =
      (machine.step state action).bind fun next => machine.exec next rest := rfl

theorem exec_cons_eq_some {state final : State} {action : Action} {rest : List Action}
    (executed : machine.exec state (action :: rest) = some final) :
    ∃ next, machine.step state action = some next ∧ machine.exec next rest = some final := by
  rw [exec_cons] at executed
  exact Option.bind_eq_some_iff.mp executed

theorem exec_cons_of_step {state next : State} {action : Action}
    (stepped : machine.step state action = some next) (rest : List Action) :
    machine.exec state (action :: rest) = machine.exec next rest := by
  rw [exec_cons, stepped, Option.bind_some]

theorem exec_of_step {state next : State} {action : Action}
    (stepped : machine.step state action = some next) :
    machine.exec state [action] = some next :=
  machine.exec_cons_of_step stepped []

theorem Along.head {machine : Machine State Action} {property : State → Prop} {state : State}
    {run : List Action} (along : machine.Along property state run) : property state := by
  cases run with
  | nil => exact along
  | cons action rest => exact along.1

theorem Along.mono {machine : Machine State Action} {stronger weaker : State → Prop}
    (implies : ∀ state, stronger state → weaker state) {state : State} {run : List Action}
    (along : machine.Along stronger state run) : machine.Along weaker state run := by
  induction run generalizing state with
  | nil => exact implies state along
  | cons action rest ih =>
      exact ⟨implies state along.1, fun next stepped => ih (along.2 next stepped)⟩

theorem Along.final {machine : Machine State Action} {property : State → Prop}
    {state final : State} {run : List Action} (along : machine.Along property state run)
    (executed : machine.exec state run = some final) : property final := by
  induction run generalizing state with
  | nil =>
      cases executed
      exact along
  | cons action rest ih =>
      obtain ⟨next, stepped, executed⟩ := machine.exec_cons_eq_some executed
      exact ih (along.2 next stepped) executed

instance Obeys.decidable (allowed : State → Action → Prop)
    [∀ state action, Decidable (allowed state action)] :
    (state : State) → (run : List Action) → Decidable (machine.Obeys allowed state run)
  | _, [] => isTrue trivial
  | state, action :: rest =>
      match located : machine.step state action with
      | none => isTrue fun next stepped => by
          rw [located] at stepped
          cases stepped
      | some next =>
          have := Obeys.decidable allowed next rest
          decidable_of_iff (allowed state action ∧ machine.Obeys allowed next rest) <| by
            simp only [Obeys, located, Option.some.injEq, forall_eq']

theorem Obeys.of_forall {machine : Machine State Action} {allowed : State → Action → Prop}
    (always : ∀ state action, allowed state action) (state : State) (run : List Action) :
    machine.Obeys allowed state run := by
  induction run generalizing state with
  | nil => trivial
  | cons action rest ih => exact fun next _ => ⟨always state action, ih next⟩

/-- A condition on the actions of the run alone. -/
theorem Obeys.of_mem (machine : Machine State Action) {allowed : Action → Prop}
    {run : List Action} (all : ∀ action ∈ run, allowed action) (state : State) :
    machine.Obeys (fun _ action => allowed action) state run := by
  induction run generalizing state with
  | nil => trivial
  | cons action rest ih =>
      exact fun next _ => ⟨all action List.mem_cons_self,
        ih (fun other member => all other (List.mem_cons_of_mem _ member)) next⟩

theorem Obeys.mono {machine : Machine State Action} {stronger weaker : State → Action → Prop}
    (implies : ∀ state action, stronger state action → weaker state action) {state : State}
    {run : List Action} (obeys : machine.Obeys stronger state run) :
    machine.Obeys weaker state run := by
  induction run generalizing state with
  | nil => trivial
  | cons action rest ih =>
      intro next stepped
      obtain ⟨permitted, remaining⟩ := obeys next stepped
      exact ⟨implies state action permitted, ih remaining⟩

theorem Obeys.left {machine : Machine State Action} {allowed : State → Action → Prop}
    {state : State} {first second : List Action}
    (obeys : machine.Obeys allowed state (first ++ second)) :
    machine.Obeys allowed state first := by
  induction first generalizing state with
  | nil => trivial
  | cons action rest ih =>
      intro next stepped
      obtain ⟨permitted, remaining⟩ := obeys next stepped
      exact ⟨permitted, ih remaining⟩

theorem Obeys.right {machine : Machine State Action} {allowed : State → Action → Prop}
    {state middle : State} {first second : List Action}
    (obeys : machine.Obeys allowed state (first ++ second))
    (executed : machine.exec state first = some middle) :
    machine.Obeys allowed middle second := by
  induction first generalizing state with
  | nil =>
      cases executed
      exact obeys
  | cons action rest ih =>
      obtain ⟨next, stepped, executed⟩ := machine.exec_cons_eq_some executed
      exact ih (obeys next stepped).2 executed

/-- The invariant rule for runs restricted by a condition on their steps. -/
theorem along_of_obeys {invariant : State → Prop} {allowed : State → Action → Prop}
    (preserved : ∀ state action next, invariant state → allowed state action →
      machine.step state action = some next → invariant next)
    {state : State} {run : List Action} (start : invariant state)
    (obeys : machine.Obeys allowed state run) : machine.Along invariant state run := by
  induction run generalizing state with
  | nil => exact start
  | cons action rest ih =>
      refine ⟨start, fun next stepped => ?_⟩
      obtain ⟨permitted, remaining⟩ := obeys next stepped
      exact ih (preserved state action next start permitted stepped) remaining

theorem along_of_preserved (invariant : State → Prop)
    (preserved : ∀ state action next, invariant state →
      machine.step state action = some next → invariant next)
    {state : State} (start : invariant state) (run : List Action) :
    machine.Along invariant state run :=
  have free : machine.Obeys (fun _ _ => True) state run :=
    Obeys.of_forall (fun _ _ => trivial) state run
  machine.along_of_obeys (fun state action next valid _ => preserved state action next valid) start
    free

/-- Two conditions that agree on every step from a state with the invariant. -/
theorem obeys_iff_of_preserved (invariant : State → Prop) {allowed other : State → Action → Prop}
    (preserved : ∀ state action next, invariant state →
      machine.step state action = some next → invariant next)
    (same : ∀ state action next, invariant state → machine.step state action = some next →
      (allowed state action ↔ other state action))
    {state : State} (start : invariant state) (run : List Action) :
    machine.Obeys allowed state run ↔ machine.Obeys other state run := by
  induction run generalizing state with
  | nil => rfl
  | cons action rest ih =>
      refine forall_congr' fun next => imp_congr_right fun stepped => ?_
      exact and_congr (same state action next start stepped)
        (ih (preserved state action next start stepped))

/-- An exact condition under an assumption on the steps: it keeps the invariant, and the
first step that breaks it already falsifies the property in the state it reaches. -/
theorem along_iff_obeys_of (invariant : State → Prop) {property : State → Prop}
    {assumed allowed : State → Action → Prop}
    (sound : ∀ state, invariant state → property state)
    (preserved : ∀ state action next, invariant state → assumed state action →
      allowed state action → machine.step state action = some next → invariant next)
    (necessary : ∀ state action next, invariant state → assumed state action →
      machine.step state action = some next → property next → allowed state action)
    {state : State} (start : invariant state) {run : List Action}
    (assuming : machine.Obeys assumed state run) :
    machine.Along property state run ↔ machine.Obeys allowed state run := by
  induction run generalizing state with
  | nil => exact ⟨fun _ => trivial, fun _ => sound state start⟩
  | cons action rest ih =>
      constructor
      · intro along next stepped
        obtain ⟨given, assuming⟩ := assuming next stepped
        have reached := along.2 next stepped
        have permitted := necessary state action next start given stepped reached.head
        have valid := preserved state action next start given permitted stepped
        exact ⟨permitted, (ih valid assuming).mp reached⟩
      · intro obeys
        refine ⟨sound state start, fun next stepped => ?_⟩
        obtain ⟨given, assuming⟩ := assuming next stepped
        obtain ⟨permitted, remaining⟩ := obeys next stepped
        have valid := preserved state action next start given permitted stepped
        exact (ih valid assuming).mpr remaining

/-- An exact condition: it keeps the invariant, and the first step that breaks
it already falsifies the property in the state it reaches. -/
theorem along_iff_obeys (invariant : State → Prop) {property : State → Prop}
    {allowed : State → Action → Prop}
    (sound : ∀ state, invariant state → property state)
    (preserved : ∀ state action next, invariant state → allowed state action →
      machine.step state action = some next → invariant next)
    (necessary : ∀ state action next, invariant state →
      machine.step state action = some next → property next → allowed state action)
    {state : State} (start : invariant state) (run : List Action) :
    machine.Along property state run ↔ machine.Obeys allowed state run :=
  have free : machine.Obeys (fun _ _ => True) state run :=
    Obeys.of_forall (fun _ _ => trivial) state run
  machine.along_iff_obeys_of invariant sound
    (fun state action next valid _ => preserved state action next valid)
    (fun state action next valid _ => necessary state action next valid) start free

/-- The invariant rule for a property of the state and of what is still to come. -/
theorem exec_of_remaining {invariant : State → List Action → Prop}
    (preserved : ∀ state action rest next, invariant state (action :: rest) →
      machine.step state action = some next → invariant next rest)
    {state final : State} {run : List Action} (start : invariant state run)
    (executed : machine.exec state run = some final) : invariant final [] := by
  induction run generalizing state with
  | nil =>
      cases executed
      exact start
  | cons action rest ih =>
      obtain ⟨next, stepped, executed⟩ := machine.exec_cons_eq_some executed
      exact ih (preserved state action rest next start stepped) executed

/-- The termination rule: each counted step of a run lowers a measure of the state and of
what is still to come, and no other step raises it. -/
theorem countP_le_measure {invariant : State → List Action → Prop}
    {measure : State → List Action → Nat} {counted : Action → Bool}
    (lowers : ∀ state action rest next, invariant state (action :: rest) →
      machine.step state action = some next → invariant next rest ∧
        measure next rest + (if counted action then 1 else 0) ≤ measure state (action :: rest))
    {state final : State} {run : List Action} (start : invariant state run)
    (executed : machine.exec state run = some final) :
    run.countP counted ≤ measure state run := by
  induction run generalizing state with
  | nil => exact Nat.zero_le _
  | cons action rest ih =>
      obtain ⟨next, stepped, executed⟩ := machine.exec_cons_eq_some executed
      obtain ⟨valid, lower⟩ := lowers state action rest next start stepped
      have remaining := ih valid executed
      rw [List.countP_cons]
      omega

/-- The progress rule: while the goal does not hold, some permitted step lowers a measure. -/
theorem reaches_of_lowers {Rank : Type} [WellFoundedRelation Rank] {invariant goal : State → Prop}
    {allowed : State → Action → Prop} (measure : State → Rank)
    (lowers : ∀ state, invariant state → ¬ goal state → ∃ action next,
      allowed state action ∧ machine.step state action = some next ∧ invariant next ∧
        WellFoundedRelation.rel (measure next) (measure state))
    {state : State} (start : invariant state) :
    ∃ run final, machine.Obeys allowed state run ∧ machine.exec state run = some final ∧
      goal final := by
  induction state using (InvImage.wf measure WellFoundedRelation.wf).induction with
  | h state ih =>
    by_cases reached : goal state
    · exact ⟨[], state, trivial, rfl, reached⟩
    · obtain ⟨action, next, permitted, stepped, valid, lower⟩ := lowers state start reached
      obtain ⟨run, final, obeys, executed, reached⟩ := ih next lower valid
      refine ⟨action :: run, final, fun other same => ?_, ?_, reached⟩
      · rw [stepped] at same
        cases same
        exact ⟨permitted, obeys⟩
      · rw [exec_cons, stepped]
        exact executed

end Machine

/-! ## Processes by their place in a list -/

variable {Process : Type} {processes : List Process} {index : Nat} {process : Process}

theorem perm_eraseIdx (located : processes[index]? = some process) :
    processes.Perm (process :: processes.eraseIdx index) := by
  obtain ⟨inside, rfl⟩ := List.getElem?_eq_some_iff.mp located
  exact (List.getElem_cons_eraseIdx_perm inside).symm

theorem getElem?_concat_eq_some {other : Process}
    (located : (processes ++ [other])[index]? = some process) :
    processes[index]? = some process ∨ index = processes.length ∧ process = other := by
  rcases Nat.lt_or_ge index processes.length with inside | outside
  · rw [List.getElem?_append_left inside] at located
    exact .inl located
  · rw [List.getElem?_append_right outside] at located
    rw [List.getElem?_singleton, Option.ite_none_right_eq_some, Option.some.injEq] at located
    exact .inr ⟨by omega, located.2.symm⟩

theorem perm_set (located : processes[index]? = some process) (other : Process) :
    (processes.set index other).Perm (other :: processes.eraseIdx index) :=
  List.set_perm_cons_eraseIdx (List.getElem?_eq_some_iff.mp located).1 other

/-- The total weight changes with the process that is replaced. -/
theorem sum_set (located : processes[index]? = some process) (other : Process)
    (weight : Process → Nat) :
    ((processes.set index other).map weight).sum + weight process =
      (processes.map weight).sum + weight other := by
  have before := ((perm_eraseIdx located).map weight).sum_nat
  have after := ((perm_set located other).map weight).sum_nat
  rw [before, after, List.map_cons, List.map_cons, List.sum_cons, List.sum_cons]
  omega

end ProtoCore.Library
