import Mathlib.Order.Basic

/-!
# Functions with fuel

A function that may not end is given fuel and fails with a mark of its own when the fuel
is used up. Its answer is the one that enough fuel gives.
-/

set_option autoImplicit false

namespace ProtoCore.Library

variable {Error Value Result : Type} {out : Error}

/-- More fuel leaves an answer as it is. -/
def Steady (out : Error) (call : Nat → Except Error Value) : Prop :=
  ∀ fuel more, fuel ≤ more → call fuel ≠ .error out → call more = call fuel

def Returns (out : Error) (call : Nat → Except Error Value) (answer : Except Error Value) : Prop :=
  answer ≠ .error out ∧ ∃ fuel, call fuel = answer

def fault? : Except Error Value → Option Error
  | .error fault => some fault
  | .ok _ => none

namespace Steady

theorem of_succ {call : Nat → Except Error Value}
    (next : ∀ fuel, call fuel ≠ .error out → call (fuel + 1) = call fuel) : Steady out call := by
  intro fuel more enough ended
  induction enough with
  | refl => rfl
  | step _ ih => rw [next _ (by rw [ih]; exact ended), ih]

theorem const (answer : Except Error Value) : Steady out fun _ => answer :=
  fun _ _ _ _ => rfl

theorem bind {call : Nat → Except Error Value} {rest : Value → Nat → Except Error Result}
    (first : Steady out call) (second : ∀ value, Steady out (rest value)) :
    Steady out fun fuel => call fuel >>= fun value => rest value fuel := by
  intro fuel more enough ended
  dsimp only at ended ⊢
  cases answered : call fuel with
  | error fault =>
      rw [answered] at ended
      have unfinished : call fuel ≠ .error out := by
        intro failed
        cases answered.symm.trans failed
        exact ended rfl
      have same := first fuel more enough unfinished
      rw [same, answered]
      rfl
  | ok value =>
      rw [answered] at ended
      have same := first fuel more enough (by rw [answered]; exact fun failed => by cases failed)
      rw [same, answered]
      exact second value fuel more enough ended

theorem map {call : Nat → Except Error Value} (steady : Steady out call)
    (convert : Value → Result) : Steady out fun fuel => (call fuel).map convert := by
  intro fuel more enough ended
  dsimp only at ended ⊢
  rw [steady fuel more enough fun failed => ended (by rw [failed]; rfl)]

end Steady

namespace Returns

theorem unique {call : Nat → Except Error Value} {first second : Except Error Value}
    (steady : Steady out call) (one : Returns out call first) (other : Returns out call second) :
    first = second := by
  obtain ⟨firstEnds, fuel, firstCall⟩ := one
  obtain ⟨secondEnds, more, secondCall⟩ := other
  have firstSame := steady fuel (max fuel more) (Nat.le_max_left _ _) (firstCall ▸ firstEnds)
  have secondSame := steady more (max fuel more) (Nat.le_max_right _ _) (secondCall ▸ secondEnds)
  rw [← firstCall, ← firstSame, secondSame, secondCall]

theorem of_toOption {call : Nat → Except Error Value} {fuel : Nat} {value : Value}
    (called : (call fuel).toOption = some value) : Returns out call (.ok value) := by
  refine ⟨(fun failed => by cases failed), fuel, ?_⟩
  cases answered : call fuel with
  | error fault =>
      rw [answered] at called
      cases called
  | ok found =>
      rw [answered] at called
      cases called
      rfl

theorem of_fault {call : Nat → Except Error Value} {fuel : Nat} {fault : Error}
    (failed : fault? (call fuel) = some fault) (other : fault ≠ out) :
    Returns out call (.error fault) := by
  refine ⟨fun same => other (Except.error.inj same), fuel, ?_⟩
  cases answered : call fuel with
  | error found =>
      rw [answered] at failed
      cases failed
      rfl
  | ok value =>
      rw [answered] at failed
      cases failed

/-- Calls that agree with enough fuel have the same answer. -/
theorem of_eventually {call other : Nat → Except Error Value} {answer : Except Error Value}
    (steady : Steady out call) (returns : Returns out call answer) {enough : Nat}
    (same : ∀ fuel, enough ≤ fuel → other fuel = call fuel) : Returns out other answer := by
  obtain ⟨ended, fuel, called⟩ := returns
  refine ⟨ended, max fuel enough, ?_⟩
  rw [same _ (Nat.le_max_right _ _), steady fuel _ (Nat.le_max_left _ _) (called ▸ ended), called]

end Returns

end ProtoCore.Library
