import Mathlib.Data.List.Forall2
import ProtoCore.Library.Machine

/-!
# Simulations

A machine simulates another when every permitted step of the other, from a state related
to its own, is matched by a run of its own. Whole runs are then matched by runs, and what
holds along all runs of the one holds, through the relation, along those of the other.
-/

set_option autoImplicit false

namespace ProtoCore.Library

variable {Low High LowAction HighAction : Type}

namespace Machine

theorem exec_append (machine : Machine Low LowAction) (state : Low)
    (first second : List LowAction) :
    machine.exec state (first ++ second) =
      (machine.exec state first).bind fun middle => machine.exec middle second := by
  induction first generalizing state with
  | nil => rfl
  | cons action rest ih =>
      rw [List.cons_append, exec_cons, exec_cons]
      cases machine.step state action with
      | none => rfl
      | some next => exact ih next

theorem exists_middle {machine : Machine Low LowAction} {state final : Low}
    {first second : List LowAction} (executed : machine.exec state (first ++ second) = some final) :
    ∃ middle, machine.exec state first = some middle ∧
      machine.exec middle second = some final := by
  rw [exec_append] at executed
  exact Option.bind_eq_some_iff.mp executed

theorem exec_append_eq_some {machine : Machine Low LowAction} {state middle final : Low}
    {first second : List LowAction} (led : machine.exec state first = some middle)
    (onward : machine.exec middle second = some final) :
    machine.exec state (first ++ second) = some final := by
  rw [exec_append, led]
  exact onward

end Machine

structure Simulation (low : Machine Low LowAction) (high : Machine High HighAction) where
  related : Low → High → Prop
  allowed : Low → LowAction → Prop
  matched : ∀ {state next : Low} {action : LowAction} {abstract : High},
    related state abstract → allowed state action → low.step state action = some next →
    ∃ trace after, high.exec abstract trace = some after ∧ related next after

namespace Simulation

variable {low : Machine Low LowAction} {high : Machine High HighAction}
  (simulation : Simulation low high)

theorem exec {state final : Low} {abstract : High} {run : List LowAction}
    (start : simulation.related state abstract)
    (obeys : low.Obeys simulation.allowed state run)
    (executed : low.exec state run = some final) :
    ∃ trace after, high.exec abstract trace = some after ∧ simulation.related final after := by
  induction run generalizing state abstract with
  | nil =>
      cases executed
      exact ⟨[], abstract, rfl, start⟩
  | cons action rest ih =>
      obtain ⟨next, stepped, executed⟩ := low.exec_cons_eq_some executed
      obtain ⟨permitted, remaining⟩ := obeys next stepped
      obtain ⟨trace, middle, led, related⟩ := simulation.matched start permitted stepped
      obtain ⟨later, after, onward, related⟩ := ih related remaining executed
      exact ⟨trace ++ later, after, Machine.exec_append_eq_some led onward, related⟩

/-- What every run of the simulating machine keeps is found behind every state of a run of
the other. -/
theorem along {invariant : High → Prop}
    (kept : ∀ abstract action after, invariant abstract → high.step abstract action = some after →
      invariant after)
    {state : Low} {abstract : High} {run : List LowAction}
    (start : simulation.related state abstract) (initially : invariant abstract)
    (obeys : low.Obeys simulation.allowed state run) :
    low.Along (fun reached => ∃ behind, simulation.related reached behind ∧ invariant behind)
      state run := by
  refine low.along_of_obeys ?_ ⟨abstract, start, initially⟩ obeys
  rintro before action next ⟨behind, related, holds⟩ permitted stepped
  obtain ⟨trace, after, led, related⟩ := simulation.matched related permitted stepped
  exact ⟨after, related, (high.along_of_preserved invariant kept holds trace).final led⟩

end Simulation

/-! ## Processes related one by one -/

section Related

variable {Left Right : Type} {related : Left → Right → Prop} {left : List Left}
  {right : List Right}

theorem related_getElem? (all : List.Forall₂ related left right) {index : Nat} {process : Left}
    (located : left[index]? = some process) :
    ∃ other, right[index]? = some other ∧ related process other := by
  induction all generalizing index with
  | nil => cases located
  | cons head tail ih =>
      cases index with
      | zero =>
          cases located
          exact ⟨_, rfl, head⟩
      | succ index => exact ih located

theorem related_set (all : List.Forall₂ related left right) (index : Nat) {process : Left}
    {other : Right} (here : related process other) :
    List.Forall₂ related (left.set index process) (right.set index other) := by
  induction all generalizing index with
  | nil => exact .nil
  | cons head tail ih =>
      cases index with
      | zero => exact .cons here tail
      | succ index => exact .cons head (ih index)

theorem related_eraseIdx (all : List.Forall₂ related left right) (index : Nat) :
    List.Forall₂ related (left.eraseIdx index) (right.eraseIdx index) := by
  induction all generalizing index with
  | nil => exact .nil
  | cons head tail ih =>
      cases index with
      | zero => exact tail
      | succ index => exact .cons head (ih index)

theorem related_mapIdx {before : Nat → Left → Left} {after : Nat → Right → Right}
    (each : ∀ index process other, related process other →
      related (before index process) (after index other))
    (all : List.Forall₂ related left right) :
    List.Forall₂ related (left.mapIdx before) (right.mapIdx after) := by
  induction all generalizing before after with
  | nil => exact .nil
  | cons head tail ih =>
      rw [List.mapIdx_cons, List.mapIdx_cons]
      exact .cons (each 0 _ _ head) (ih fun index => each (index + 1))

end Related

end ProtoCore.Library
