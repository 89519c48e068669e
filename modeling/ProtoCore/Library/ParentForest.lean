import Mathlib.Data.Finset.Card
import Mathlib.Algebra.Group.Basic
import Mathlib.Algebra.Group.Commute.Defs

/-!
# Forests long by parent pointers

A partial parent function without cycles is a forest. Paths go from a node up to one of
its ancestors, and the product of a path composes the values of its nodes from the
ancestor down.
-/

set_option autoImplicit false

namespace ProtoCore.Library

variable {Node : Type} (parent : Node → Option Node)

/-- The nodes from `node` up to, but without, its ancestor. -/
inductive Path : Node → List Node → Node → Prop where
  | here (node : Node) : Path node [] node
  | up {node next ancestor : Node} {below : List Node} (linked : parent node = some next)
      (rest : Path next below ancestor) : Path node (node :: below) ancestor

def Acyclic : Prop := ∀ node below, Path parent node below node → below = []

/-- The last node on the way up from both, below all their other common ancestors. -/
structure LowestCommon (left right lowest : Node) : Prop where
  overLeft : ∃ below, Path parent left below lowest
  overRight : ∃ below, Path parent right below lowest
  reaches : ∀ belowLeft belowRight ancestor, Path parent left belowLeft ancestor →
    Path parent right belowRight ancestor → ∃ below, Path parent lowest below ancestor

variable {parent}

namespace Path

theorem append {node middle ancestor : Node} {below above : List Node}
    (lower : Path parent node below middle) (upper : Path parent middle above ancestor) :
    Path parent node (below ++ above) ancestor := by
  induction lower with
  | here node => exact upper
  | up linked rest ih => exact .up linked (ih upper)

/-- Two paths up from one node run together as far as the shorter goes. -/
theorem linear {node left right : Node} {below below' : List Node}
    (first : Path parent node below left) (second : Path parent node below' right) :
    (∃ between, below' = below ++ between ∧ Path parent left between right) ∨
      ∃ between, below = below' ++ between ∧ Path parent right between left := by
  induction first generalizing below' with
  | here node => exact .inl ⟨below', rfl, second⟩
  | up linked rest ih =>
      cases second with
      | here => exact .inr ⟨_, rfl, .up linked rest⟩
      | up linked' rest' =>
          obtain rfl := Option.some.inj (linked.symm.trans linked')
          rcases ih rest' with ⟨between, rfl, path⟩ | ⟨between, rfl, path⟩
          · exact .inl ⟨between, rfl, path⟩
          · exact .inr ⟨between, rfl, path⟩

theorem split {node middle ancestor : Node} {below : List Node}
    (path : Path parent node below ancestor) (member : middle ∈ below) :
    ∃ lower upper, below = lower ++ upper ∧ upper ≠ [] ∧ Path parent node lower middle ∧
      Path parent middle upper ancestor := by
  induction path with
  | here => cases member
  | up linked rest ih =>
      rcases List.mem_cons.mp member with rfl | member
      · exact ⟨[], _, rfl, List.cons_ne_nil _ _, .here _, .up linked rest⟩
      · obtain ⟨lower, upper, rfl, proper, below, above⟩ := ih member
        exact ⟨_ :: lower, upper, rfl, proper, .up linked below, above⟩

theorem linked_of_mem {node middle ancestor : Node} {below : List Node}
    (path : Path parent node below ancestor) (member : middle ∈ below) :
    parent middle ≠ none := by
  obtain ⟨_, upper, _, proper, _, above⟩ := path.split member
  cases above with
  | here => exact absurd rfl proper
  | up linked _ => simp [linked]

theorem start_mem {node ancestor : Node} {below : List Node}
    (path : Path parent node below ancestor) : node ∈ below ++ [ancestor] := by
  cases path with
  | here => exact List.mem_cons_self
  | up => exact List.mem_cons_self

theorem ancestor_mem {nodes : Finset Node}
    (closed : ∀ node next, parent node = some next → next ∈ nodes) {node ancestor : Node}
    {below : List Node} (path : Path parent node below ancestor) (start : node ∈ nodes) :
    ancestor ∈ nodes := by
  induction path with
  | here => exact start
  | up linked _ ih => exact ih (closed _ _ linked)

theorem unique (acyclic : Acyclic parent) {node ancestor : Node} {below below' : List Node}
    (first : Path parent node below ancestor) (second : Path parent node below' ancestor) :
    below = below' := by
  rcases first.linear second with ⟨between, rfl, path⟩ | ⟨between, rfl, path⟩
  · rw [acyclic _ _ path, List.append_nil]
  · rw [acyclic _ _ path, List.append_nil]

theorem nodup (acyclic : Acyclic parent) {node ancestor : Node} {below : List Node}
    (path : Path parent node below ancestor) : (below ++ [ancestor]).Nodup := by
  induction path with
  | here => exact List.nodup_singleton _
  | up linked rest ih =>
      refine List.nodup_cons.mpr ⟨fun member => ?_, ih⟩
      rcases List.mem_append.mp member with inner | last
      · obtain ⟨lower, _, _, _, below, _⟩ := rest.split inner
        exact List.cons_ne_nil _ _ (acyclic _ _ (.up linked below))
      · rw [List.mem_singleton] at last
        subst last
        exact List.cons_ne_nil _ _ (acyclic _ _ (.up linked rest))

theorem ancestor_not_mem (acyclic : Acyclic parent) {node ancestor : Node} {below : List Node}
    (path : Path parent node below ancestor) : ancestor ∉ below := by
  intro member
  exact (List.nodup_append.mp (path.nodup acyclic)).2.2 _ member _ (List.mem_singleton_self _) rfl

theorem mono {extended : Node → Option Node}
    (kept : ∀ node next, parent node = some next → extended node = some next)
    {node ancestor : Node} {below : List Node} (path : Path parent node below ancestor) :
    Path extended node below ancestor := by
  induction path with
  | here node => exact .here node
  | up linked rest ih => exact .up (kept _ _ linked) ih

/-- Every ancestor is on the way to the root. -/
theorem continues {node ancestor root : Node} {below above : List Node}
    (path : Path parent node below ancestor) (rooted : Path parent node above root)
    (last : parent root = none) : ∃ upper, Path parent ancestor upper root := by
  rcases path.linear rooted with ⟨between, _, upper⟩ | ⟨between, _, upper⟩
  · exact ⟨between, upper⟩
  · cases upper with
    | here => exact ⟨[], .here _⟩
    | up linked _ => cases last.symm.trans linked

/-- Below a root there is one path only, so no cycle. -/
theorem nil_of_root {node root : Node} {cycle above : List Node}
    (closed : Path parent node cycle node) (upper : Path parent node above root)
    (last : parent root = none) : cycle = [] := by
  have long := closed.append upper
  rcases upper.linear long with ⟨between, split, path⟩ | ⟨between, split, path⟩
  · cases path with
    | here => exact List.append_left_eq_self.mp ((List.append_nil above) ▸ split)
    | up linked _ => cases last.symm.trans linked
  · cases path with
    | here => exact List.append_left_eq_self.mp ((List.append_nil _) ▸ split.symm)
    | up linked _ => cases last.symm.trans linked

theorem nodup_of_root {node ancestor root : Node} {below above : List Node}
    (path : Path parent node below ancestor) (upper : Path parent ancestor above root)
    (last : parent root = none) : (below ++ [ancestor]).Nodup := by
  induction path with
  | here => exact List.nodup_singleton _
  | up linked rest ih =>
      have whole := (Path.up linked rest).append upper
      refine List.nodup_cons.mpr ⟨fun member => ?_, ih upper⟩
      rcases List.mem_append.mp member with inner | here
      · obtain ⟨lower, _, _, _, below, _⟩ := rest.split inner
        exact List.cons_ne_nil _ _ ((Path.up linked below).nil_of_root whole last)
      · cases List.mem_singleton.mp here
        exact List.cons_ne_nil _ _ ((Path.up linked rest).nil_of_root whole last)

/-- The nodes on the way to a root are the ancestors of its start, itself included. -/
theorem mem_iff {node root middle : Node} {below : List Node}
    (path : Path parent node below root) (last : parent root = none) :
    middle ∈ below ++ [root] ↔ ∃ lower, Path parent node lower middle := by
  rw [List.mem_append, List.mem_singleton]
  constructor
  · intro inside
    rcases inside with member | rfl
    · obtain ⟨lower, _, _, _, reached, _⟩ := path.split member
      exact ⟨lower, reached⟩
    · exact ⟨below, path⟩
  · intro reaching
    obtain ⟨lower, reached⟩ := reaching
    rcases path.linear reached with ⟨between, _, above⟩ | ⟨between, rfl, above⟩
    · cases above with
      | here => exact .inr rfl
      | up linked _ => exact absurd (last.symm.trans linked) nofun
    · cases above with
      | here => exact .inr rfl
      | up => exact .inl (by simp)

end Path

/-- Parents that come before their children leave no cycle. -/
theorem acyclic_of_rank (rank : Node → Nat)
    (decreasing : ∀ node next, parent node = some next → rank next < rank node) :
    Acyclic parent := by
  have descend : ∀ {node ancestor below}, Path parent node below ancestor →
      below ≠ [] → rank ancestor < rank node := by
    intro node ancestor below path
    induction path with
    | here => exact fun proper => absurd rfl proper
    | up linked rest ih =>
        intro _
        have first := decreasing _ _ linked
        cases rest with
        | here => exact first
        | up => exact (ih (List.cons_ne_nil _ _)).trans first
  intro node below path
  by_contra proper
  exact Nat.lt_irrefl _ (descend path proper)

/-- Whether a root is reached in a number of steps. -/
def leadsToRoot (parent : Node → Option Node) : Nat → Node → Bool
  | 0, node => (parent node).isNone
  | steps + 1, node =>
      match parent node with
      | none => true
      | some next => leadsToRoot parent steps next

theorem exists_path_of_leadsToRoot {steps : Nat} {node : Node}
    (leads : leadsToRoot parent steps node = true) :
    ∃ below root, Path parent node below root ∧ parent root = none := by
  induction steps generalizing node with
  | zero => exact ⟨[], node, .here node, Option.isNone_iff_eq_none.mp leads⟩
  | succ steps ih =>
      cases linked : parent node with
      | none => exact ⟨[], node, .here node, linked⟩
      | some next =>
          rw [leadsToRoot, linked] at leads
          obtain ⟨below, root, path, last⟩ := ih leads
          exact ⟨node :: below, root, .up linked path, last⟩

theorem exists_path_of_length (node : Node) (count : Nat) :
    (∃ below root, Path parent node below root ∧ parent root = none) ∨
      ∃ below ancestor, Path parent node below ancestor ∧ below.length = count := by
  induction count with
  | zero => exact .inr ⟨[], node, .here node, rfl⟩
  | succ count ih =>
      rcases ih with root | ⟨below, ancestor, path, length⟩
      · exact .inl root
      · cases linked : parent ancestor with
        | none => exact .inl ⟨below, ancestor, path, linked⟩
        | some next =>
            refine .inr ⟨below ++ [ancestor], next, path.append (.up linked (.here next)), ?_⟩
            rw [List.length_append, length, List.length_singleton]

theorem exists_root [DecidableEq Node] (acyclic : Acyclic parent) {nodes : Finset Node}
    (finite : ∀ node, parent node ≠ none → node ∈ nodes) (node : Node) :
    ∃ below root, Path parent node below root ∧ parent root = none := by
  refine (exists_path_of_length node (nodes.card + 1)).resolve_right ?_
  intro long
  obtain ⟨below, ancestor, path, length⟩ := long
  have inside : below.toFinset ⊆ nodes := fun middle member =>
    finite middle (path.linked_of_mem (List.mem_toFinset.mp member))
  have bounded := Finset.card_le_card inside
  have distinct : below.Nodup := (List.nodup_append.mp (path.nodup acyclic)).1
  rw [List.toFinset_card_of_nodup distinct, length] at bounded
  omega

theorem exists_first_common {left right ancestor : Node} {belowLeft belowRight : List Node}
    (leftPath : Path parent left belowLeft ancestor)
    (rightPath : Path parent right belowRight ancestor) :
    ∃ lowest lowerRight upper, belowRight = lowerRight ++ upper ∧
      Path parent right lowerRight lowest ∧ Path parent lowest upper ancestor ∧
      (∃ lowerLeft, Path parent left lowerLeft lowest) ∧
      ∀ node ∈ lowerRight, ¬ ∃ lowerLeft, Path parent left lowerLeft node := by
  induction rightPath with
  | here => exact ⟨_, [], [], rfl, .here _, .here _, ⟨belowLeft, leftPath⟩, by simp⟩
  | up linked rest ih =>
      rename_i node next ancestor below
      by_cases common : ∃ lowerLeft, Path parent left lowerLeft node
      · exact ⟨node, [], _, rfl, .here node, .up linked rest, common, by simp⟩
      · obtain ⟨lowest, lowerRight, upper, rfl, lower, above, reached, first⟩ := ih leftPath
        refine ⟨lowest, node :: lowerRight, upper, rfl, .up linked lower, above, reached, ?_⟩
        intro middle member
        rcases List.mem_cons.mp member with rfl | member
        · exact common
        · exact first middle member

theorem lowestCommon_of_first {left right lowest : Node} {lowerLeft lowerRight : List Node}
    (leftPath : Path parent left lowerLeft lowest) (rightPath : Path parent right lowerRight lowest)
    (first : ∀ node ∈ lowerRight, ¬ ∃ below, Path parent left below node) :
    LowestCommon parent left right lowest where
  overLeft := ⟨lowerLeft, leftPath⟩
  overRight := ⟨lowerRight, rightPath⟩
  reaches belowLeft belowRight ancestor fromLeft fromRight := by
    rcases rightPath.linear fromRight with ⟨between, _, path⟩ | ⟨between, split, path⟩
    · exact ⟨between, path⟩
    · cases path with
      | here => exact ⟨[], .here _⟩
      | up linked rest =>
          exact absurd ⟨belowLeft, fromLeft⟩ (first ancestor (by rw [split]; simp))

theorem LowestCommon.unique (acyclic : Acyclic parent) {left right lowest other : Node}
    (first : LowestCommon parent left right lowest)
    (second : LowestCommon parent left right other) : lowest = other := by
  obtain ⟨_, firstLeft⟩ := first.overLeft
  obtain ⟨_, firstRight⟩ := first.overRight
  obtain ⟨_, secondLeft⟩ := second.overLeft
  obtain ⟨_, secondRight⟩ := second.overRight
  obtain ⟨up, above⟩ := first.reaches _ _ other secondLeft secondRight
  obtain ⟨down, under⟩ := second.reaches _ _ lowest firstLeft firstRight
  have closed := acyclic _ _ (above.append under)
  obtain ⟨rfl, _⟩ := List.append_eq_nil_iff.mp closed
  cases above
  rfl

/-- A common ancestor at the end of two paths that do not touch before. -/
def Join (parent : Node → Option Node) (left right top : Node) : Prop :=
  ∃ lowerLeft lowerRight, Path parent left lowerLeft top ∧ Path parent right lowerRight top ∧
    ∀ node ∈ lowerRight, node ∉ lowerLeft

namespace Join

theorem symm {left right top : Node} (join : Join parent left right top) :
    Join parent right left top := by
  obtain ⟨lowerLeft, lowerRight, leftPath, rightPath, apart⟩ := join
  exact ⟨lowerRight, lowerLeft, rightPath, leftPath, fun node member other =>
    apart node other member⟩

theorem mono {extended : Node → Option Node}
    (kept : ∀ node next, parent node = some next → extended node = some next)
    {left right top : Node} (join : Join parent left right top) :
    Join extended left right top := by
  obtain ⟨lowerLeft, lowerRight, leftPath, rightPath, apart⟩ := join
  exact ⟨lowerLeft, lowerRight, leftPath.mono kept, rightPath.mono kept, apart⟩

/-- Below a root, such an ancestor is the first common one. -/
theorem first {left right top root : Node} {above : List Node} (join : Join parent left right top)
    (rooted : Path parent left above root) (last : parent root = none) :
    ∃ lowerLeft lowerRight upper, Path parent left lowerLeft top ∧
      Path parent right lowerRight top ∧ Path parent top upper root ∧
      ∀ node ∈ lowerRight, ¬ ∃ lower, Path parent left lower node := by
  obtain ⟨lowerLeft, lowerRight, leftPath, rightPath, apart⟩ := join
  obtain ⟨upper, upperPath⟩ := leftPath.continues rooted last
  refine ⟨lowerLeft, lowerRight, upper, leftPath, rightPath, upperPath, fun node member => ?_⟩
  intro reached
  obtain ⟨lower, reached⟩ := reached
  obtain ⟨_, between, _, proper, _, toTop⟩ := rightPath.split member
  rcases leftPath.linear reached with ⟨above, _, path⟩ | ⟨under, split, path⟩
  · -- A node of the right path above the top closes a cycle.
    have cycle := (path.append toTop).nil_of_root upperPath last
    exact proper (List.append_eq_nil_iff.mp cycle).2
  · cases path with
    | here =>
        have cycle := toTop.nil_of_root upperPath last
        exact proper cycle
    | up linked _ =>
        apply apart node member
        rw [split]
        exact List.mem_append_right _ List.mem_cons_self

end Join

/-! ## Products along paths -/

section Product

variable {Value : Type} (value : Node → Value)

/-- The values along a path, composed from the ancestor down. -/
def pathProduct [MulOneClass Value] : List Node → Value
  | [] => 1
  | node :: below => pathProduct below * value node

theorem pathProduct_append [Monoid Value] (lower upper : List Node) :
    pathProduct value (lower ++ upper) = pathProduct value upper * pathProduct value lower := by
  induction lower with
  | nil => simp [pathProduct]
  | cons node lower ih => rw [List.cons_append, pathProduct, ih, pathProduct, mul_assoc]

/-- The relative value of two nodes does not depend on the common ancestor. -/
theorem pathProduct_relative [Group Value] (left right upper : List Node) :
    (pathProduct value (left ++ upper))⁻¹ * pathProduct value (right ++ upper) =
      (pathProduct value left)⁻¹ * pathProduct value right := by
  rw [pathProduct_append, pathProduct_append, mul_inv_rev, mul_assoc, inv_mul_cancel_left]

end Product

/-- The two orders of composing a pose with an inverse agree exactly for commuting poses. -/
theorem mul_inv_eq_inv_mul_iff {Value : Type} [Group Value] (left right : Value) :
    right * left⁻¹ = left⁻¹ * right ↔ Commute left right := by
  rw [eq_comm, inv_mul_eq_iff_eq_mul, ← mul_assoc, eq_mul_inv_iff_mul_eq]
  exact eq_comm

end ProtoCore.Library
