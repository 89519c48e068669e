import ProtoCore.Library.ParentForest

/-!
# Loops up the parents

A loop that follows parent pointers until a test stops it. Among finitely many nodes it
ends exactly if it does not run into a cycle on which no test stops it.
-/

set_option autoImplicit false

namespace ProtoCore.Library

variable {Node : Type}

/-- The nodes for which the body of the loop runs. `enters` is the test before the body,
which may know the nodes that have been visited, and `leaves` the one inside. -/
def visits (parent : Node → Option Node) (enters : List Node → Node → Bool)
    (leaves : Node → Bool) : Nat → List Node → Option Node → List Node
  | _, _, none => []
  | 0, _, some _ => []
  | fuel + 1, visited, some node =>
      if enters visited node then
        node :: if leaves node then []
          else visits parent enters leaves fuel (node :: visited) (parent node)
      else []

/-- The way up runs into a cycle and goes on at every node of both. -/
def Trapped (parent : Node → Option Node) (goesOn : Node → Prop) (node : Node) : Prop :=
  ∃ lower turn cycle, Path parent node lower turn ∧ Path parent turn cycle turn ∧ cycle ≠ [] ∧
    ∀ other ∈ lower ++ cycle, goesOn other

variable {parent : Node → Option Node}

namespace Trapped

variable {goesOn : Node → Prop}

theorem step {node : Node} (trapped : Trapped parent goesOn node) :
    goesOn node ∧ ∃ next, parent node = some next ∧ Trapped parent goesOn next := by
  obtain ⟨lower, turn, cycle, lowerPath, cyclePath, proper, on⟩ := trapped
  cases lowerPath with
  | here =>
      cases cyclePath with
      | here => exact absurd rfl proper
      | up linked rest =>
          refine ⟨on _ (by simp), _, linked, _, _, _, rest, .up linked rest, proper, ?_⟩
          intro other member
          apply on other
          simp only [List.mem_append, List.mem_cons, List.nil_append] at member ⊢
          tauto
  | up linked rest =>
      refine ⟨on _ (by simp), _, linked, _, _, _, rest, cyclePath, proper, ?_⟩
      exact fun other member => on other (List.mem_cons_of_mem _ member)

theorem mono {weaker : Node → Prop} (implies : ∀ other, goesOn other → weaker other)
    {node : Node} (trapped : Trapped parent goesOn node) : Trapped parent weaker node := by
  obtain ⟨lower, turn, cycle, lowerPath, cyclePath, proper, on⟩ := trapped
  exact ⟨lower, turn, cycle, lowerPath, cyclePath, proper, fun other member =>
    implies other (on other member)⟩

theorem of_up {node next : Node} (linked : parent node = some next) (on : goesOn node)
    (trapped : Trapped parent goesOn next) : Trapped parent goesOn node := by
  obtain ⟨lower, turn, cycle, lowerPath, cyclePath, proper, others⟩ := trapped
  refine ⟨_, turn, cycle, .up linked lowerPath, cyclePath, proper, fun other member => ?_⟩
  rcases List.mem_cons.mp member with same | later
  · exact same ▸ on
  · exact others other later

/-- The way up never leaves the nodes that go on. -/
theorem along {node above : Node} {below : List Node} (trapped : Trapped parent goesOn node)
    (path : Path parent node below above) : goesOn above := by
  induction path with
  | here => exact trapped.step.1
  | up linked _ ih =>
      obtain ⟨_, next, linked', higher⟩ := trapped.step
      obtain rfl := Option.some.inj (linked.symm.trans linked')
      exact ih higher

end Trapped

section Visits

variable {enters : List Node → Node → Bool} {leaves : Node → Bool}

/-- The way to a visited node leads through nodes at which the loop has gone on. -/
theorem mem_visits {fuel : Nat} {visited : List Node} {node other : Node}
    (member : other ∈ visits parent enters leaves fuel visited (some node)) :
    ∃ lower, Path parent node lower other ∧
      ∀ middle ∈ lower, (∃ before, enters before middle = true) ∧ leaves middle = false := by
  induction fuel generalizing visited node with
  | zero => cases member
  | succ fuel ih =>
      rw [visits] at member
      split at member
      · rename_i entered
        rcases List.mem_cons.mp member with rfl | later
        · exact ⟨[], .here _, nofun⟩
        · split at later
          · cases later
          · rename_i stays
            cases linked : parent node with
            | none =>
                rw [linked] at later
                cases fuel <;> cases later
            | some next =>
                rw [linked] at later
                obtain ⟨lower, path, on⟩ := ih later
                refine ⟨node :: lower, .up linked path, fun middle inside => ?_⟩
                rcases List.mem_cons.mp inside with rfl | above
                · exact ⟨⟨visited, entered⟩, Bool.not_eq_true _ ▸ stays⟩
                · exact on middle above
      · cases member

theorem length_visits_le [DecidableEq Node] {nodes : Finset Node}
    (closed : ∀ node next, parent node = some next → next ∈ nodes) {start : Option Node}
    (starts : ∀ node, start = some node → node ∈ nodes) {fuel : Nat} {visited : List Node}
    (once : (visits parent enters leaves fuel visited start).Nodup) :
    (visits parent enters leaves fuel visited start).length ≤ nodes.card := by
  rw [← List.toFinset_card_of_nodup once]
  refine Finset.card_le_card fun other member => ?_
  cases start with
  | none => cases fuel <;> cases List.mem_toFinset.mp member
  | some node =>
      obtain ⟨lower, path, _⟩ := mem_visits (List.mem_toFinset.mp member)
      exact path.ancestor_mem closed (starts node rfl)

/-- A loop that tests for its visited nodes visits none of them again. -/
theorem nodup_visits_of_fresh
    (fresh : ∀ visited node, enters visited node = true → node ∉ visited) (fuel : Nat)
    (visited : List Node) (start : Option Node) :
    (visits parent enters leaves fuel visited start).Nodup ∧
      ∀ node ∈ visits parent enters leaves fuel visited start, node ∉ visited := by
  induction fuel generalizing visited start with
  | zero => cases start <;> exact ⟨List.nodup_nil, nofun⟩
  | succ fuel ih =>
      cases start with
      | none => exact ⟨List.nodup_nil, nofun⟩
      | some node =>
          rw [visits]
          split
          · rename_i entered
            split
            · refine ⟨List.nodup_singleton node, fun other member => ?_⟩
              rw [List.mem_singleton.mp member]
              exact fresh visited node entered
            · obtain ⟨distinct, apart⟩ := ih (node :: visited) (parent node)
              refine ⟨List.nodup_cons.mpr ⟨fun again => ?_, distinct⟩, fun other member => ?_⟩
              · exact apart node again List.mem_cons_self
              · rcases List.mem_cons.mp member with rfl | later
                · exact fresh visited other entered
                · exact fun before => apart other later (List.mem_cons_of_mem _ before)
          · exact ⟨List.nodup_nil, nofun⟩

end Visits

section Untested

variable {enters leaves : Node → Bool}

/-- The nodes at which a loop without a memory goes on. -/
def GoesOn (enters leaves : Node → Bool) (node : Node) : Prop :=
  enters node = true ∧ leaves node = false

theorem visits_cons {node : Node} (on : GoesOn enters leaves node) (fuel : Nat)
    (visited : List Node) :
    visits parent (fun _ => enters) leaves (fuel + 1) visited (some node) =
      node :: visits parent (fun _ => enters) leaves fuel (node :: visited) (parent node) := by
  rw [visits, if_pos on.1, on.2]
  rfl

theorem visits_append {node turn : Node} {lower : List Node} (path : Path parent node lower turn)
    (on : ∀ other ∈ lower, GoesOn enters leaves other) (fuel : Nat) (visited : List Node) :
    ∃ later, visits parent (fun _ => enters) leaves (lower.length + fuel) visited (some node) =
      lower ++ visits parent (fun _ => enters) leaves fuel later (some turn) := by
  induction path generalizing visited with
  | here => exact ⟨visited, by rw [List.length_nil, Nat.zero_add, List.nil_append]⟩
  | up linked rest ih =>
      rename_i node next turn below
      obtain ⟨later, same⟩ := ih (fun other member => on other (List.mem_cons_of_mem _ member))
        (node :: visited)
      refine ⟨later, ?_⟩
      rw [List.length_cons, Nat.add_right_comm, visits_cons (on node List.mem_cons_self), linked,
        same, List.cons_append]

theorem trapped_of_not_nodup {fuel : Nat} {visited : List Node} {node : Node}
    (again : ¬ (visits parent (fun _ => enters) leaves fuel visited (some node)).Nodup) :
    Trapped parent (GoesOn enters leaves) node := by
  induction fuel generalizing visited node with
  | zero => exact absurd List.nodup_nil again
  | succ fuel ih =>
      rw [visits] at again
      split at again
      · rename_i entered
        split at again
        · exact absurd (List.nodup_singleton node) again
        · rename_i stays
          have on : GoesOn enters leaves node := ⟨entered, Bool.not_eq_true _ ▸ stays⟩
          cases linked : parent node with
          | none =>
              rw [linked] at again
              cases fuel <;> exact absurd (List.nodup_singleton node) again
          | some next =>
              rw [linked, List.nodup_cons] at again
              by_cases back :
                  node ∈ visits parent (fun _ => enters) leaves fuel (node :: visited) (some next)
              · obtain ⟨lower, path, others⟩ := mem_visits back
                refine ⟨[], node, node :: lower, .here node, .up linked path,
                  List.cons_ne_nil _ _, fun other member => ?_⟩
                rcases List.mem_cons.mp member with rfl | above
                · exact on
                · obtain ⟨⟨_, otherEntered⟩, otherStays⟩ := others other above
                  exact ⟨otherEntered, otherStays⟩
              · exact .of_up linked on (ih fun distinct => again ⟨back, distinct⟩)
      · exact absurd List.nodup_nil again

/-- A loop without a memory visits no node twice exactly if it is not trapped. -/
theorem nodup_visits_iff (visited : List Node) (node : Node) :
    (∀ fuel, (visits parent (fun _ => enters) leaves fuel visited (some node)).Nodup) ↔
      ¬ Trapped parent (GoesOn enters leaves) node := by
  constructor
  · intro once trapped
    obtain ⟨lower, turn, cycle, lowerPath, cyclePath, proper, on⟩ := trapped
    obtain ⟨later, round⟩ := visits_append (lowerPath.append cyclePath) on 1 visited
    have entered : enters turn = true := by
      have onTurn : turn ∈ lower ++ cycle := by
        cases cyclePath with
        | here => exact absurd rfl proper
        | up => simp
      exact (on turn onTurn).1
    have back : turn ∈ cycle := by
      cases cyclePath with
      | here => exact absurd rfl proper
      | up => exact List.mem_cons_self
    have twice := once ((lower ++ cycle).length + 1)
    rw [round] at twice
    refine (List.nodup_append.mp twice).2.2 turn (List.mem_append_right _ back) turn ?_ rfl
    rw [visits, if_pos entered]
    exact List.mem_cons_self
  · intro free fuel
    by_contra again
    exact free (trapped_of_not_nodup again)

end Untested

end ProtoCore.Library
