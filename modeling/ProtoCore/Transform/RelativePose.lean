import Mathlib.Algebra.Group.Int.Defs
import Mathlib.Algebra.Group.MinimalAxioms
import ProtoCore.Library.ParentForest
import ProtoCore.Transform.TransformTree

/-!
# Relative poses

A lookup multiplies the pose of `to` by the inverse of the pose of `from` on the right,
both taken in the lowest common ancestor. The relative pose has the inverse on the left,
so the two agree exactly for commuting poses.
-/

set_option autoImplicit false

namespace ProtoCore.Transform

open Library

variable {Scalar Frame : Type}

namespace TransformTree

/-! ## Trees built by `addTransformNode` -/

/-- No pointer is null, every parent is a node, and nothing is cached. -/
structure WellBuilt (tree : TransformTree Scalar) : Prop where
  stored : ∀ name, tree.count name = true → (tree.node name).isSome
  parents : ∀ name next, tree.parent name = some next → (tree.node next).isSome
  uncached : ∀ token, tree.sharedAncestor token = none
  finite : ∃ names : Finset String, ∀ name, tree.count name = true → name ∈ names

theorem node_setNode (tree : TransformTree Scalar) (name other : String)
    (node : TransformTreeNode Scalar) :
    (tree.setNode name node).node other = if other = name then some node else tree.node other := by
  simp only [TransformTree.node, setNode, Function.update_apply]
  split <;> rfl

theorem count_setNode (tree : TransformTree Scalar) (name other : String)
    (node : TransformTreeNode Scalar) :
    (tree.setNode name node).count other = true ↔ other = name ∨ tree.count other = true := by
  simp only [count, setNode, Function.update_apply]
  split
  · rename_i same
    simp [same]
  · rename_i different
    simp [different]

theorem count_of_node {tree : TransformTree Scalar} {name : String}
    (present : (tree.node name).isSome) : tree.count name = true := by
  simp only [TransformTree.node, count] at present ⊢
  cases stored : tree.nodes name with
  | none =>
      rw [stored] at present
      cases present
  | some pointer => rfl

/-- Every parent is a node, among finitely many names. Some names may have null pointers. -/
structure Linked (tree : TransformTree Scalar) : Prop where
  parents : ∀ name next, tree.parent name = some next → (tree.node next).isSome
  finite : ∃ names : Finset String, ∀ name, tree.count name = true → name ∈ names

theorem WellBuilt.linked {tree : TransformTree Scalar} (built : tree.WellBuilt) : tree.Linked :=
  ⟨built.parents, built.finite⟩

theorem Linked.setNode {tree : TransformTree Scalar} (linked : tree.Linked) (name : String)
    {node : TransformTreeNode Scalar}
    (known : ∀ next, node.parent = some next → next = name ∨ (tree.node next).isSome) :
    (tree.setNode name node).Linked where
  parents other next linking := by
    have reached : next = name ∨ (tree.node next).isSome := by
      rw [TransformTree.parent, node_setNode] at linking
      split at linking
      · exact known next linking
      · exact .inr (linked.parents other next linking)
    rw [node_setNode]
    split
    · rfl
    · rename_i different
      exact reached.resolve_left different
  finite := by
    obtain ⟨names, inside⟩ := linked.finite
    refine ⟨insert name names, fun other present => ?_⟩
    rcases (count_setNode ..).mp present with rfl | present
    · exact Finset.mem_insert_self _ _
    · exact Finset.mem_insert_of_mem (inside other present)

theorem Linked.create {tree : TransformTree Scalar} (linked : tree.Linked) (name : String) :
    (tree.create name).Linked := by
  unfold TransformTree.create
  split
  · exact linked
  · exact linked.setNode name nofun

theorem WellBuilt.setNode {tree : TransformTree Scalar} (built : tree.WellBuilt) (name : String)
    {node : TransformTreeNode Scalar}
    (known : ∀ next, node.parent = some next → next = name ∨ (tree.node next).isSome) :
    (tree.setNode name node).WellBuilt where
  stored other present := by
    rw [node_setNode]
    split
    · rfl
    · rename_i different
      exact built.stored other (((count_setNode ..).mp present).resolve_left different)
  parents := (built.linked.setNode name known).parents
  uncached := built.uncached
  finite := (built.linked.setNode name known).finite

theorem WellBuilt.create {tree : TransformTree Scalar} (built : tree.WellBuilt) (name : String) :
    (tree.create name).WellBuilt ∧ ((tree.create name).node name).isSome ∧
      ∀ other, (tree.node other).isSome → ((tree.create name).node other).isSome := by
  unfold TransformTree.create
  split
  · rename_i present
    exact ⟨built, built.stored name present, fun _ old => old⟩
  · refine ⟨built.setNode name nofun, ?_, fun other old => ?_⟩
    · rw [node_setNode, if_pos rfl]
      rfl
    · rw [node_setNode]
      split
      · rfl
      · exact old

@[simp] theorem push_parent (node : TransformTreeNode Scalar) (transform : TransformD Scalar) :
    (node.push transform).parent = node.parent := by
  unfold TransformTreeNode.push
  dsimp only
  split
  · rfl
  · unfold TransformTreeNode.cleanup
    split <;> rfl

theorem push_marked_parent (node : TransformTreeNode Scalar) (transform : TransformD Scalar)
    (isStatic : Bool) :
    ((if isStatic then { node with isStatic := true } else node).push transform).parent =
      node.parent := by
  rw [push_parent]
  split <;> rfl

theorem Linked.addTransformNode {tree next : TransformTree Scalar} (linked : tree.Linked)
    {transform : TransformD Scalar} {isStatic : Bool}
    (added : tree.addTransformNode transform isStatic = .ok next) : next.Linked := by
  have created := (linked.create transform.childFrameId).create transform.header.frameId
  simp only [TransformTree.addTransformNode] at added
  split at added
  · cases added
  · rename_i node located
    split at added <;> cases added <;> refine created.setNode _ fun above pointing => .inr ?_
    · obtain ⟨_, pointed, rfl⟩ := Option.map_eq_some_iff.mp pointing
      exact pointed ▸ rfl
    · rw [push_marked_parent] at pointing
      apply created.parents transform.childFrameId above
      rw [TransformTree.parent, located]
      exact pointing

theorem WellBuilt.addTransformNode {tree : TransformTree Scalar} (built : tree.WellBuilt)
    (transform : TransformD Scalar) (isStatic : Bool) :
    ∃ next, tree.addTransformNode transform isStatic = .ok next ∧ next.WellBuilt := by
  obtain ⟨childBuilt, child, _⟩ := built.create transform.childFrameId
  obtain ⟨bothBuilt, frame, kept⟩ := childBuilt.create transform.header.frameId
  obtain ⟨node, located⟩ := Option.isSome_iff_exists.mp (kept _ child)
  simp only [TransformTree.addTransformNode, located]
  split
  · refine ⟨_, rfl, bothBuilt.setNode _ fun next linked => ?_⟩
    simp only [pointer, Option.map_eq_some_iff] at linked
    obtain ⟨_, _, rfl⟩ := linked
    exact .inr frame
  · refine ⟨_, rfl, bothBuilt.setNode _ fun next linked => .inr ?_⟩
    rw [push_marked_parent] at linked
    exact bothBuilt.parents transform.childFrameId next
      (by rw [TransformTree.parent, located]; exact linked)

theorem empty_wellBuilt : (empty : TransformTree Scalar).WellBuilt where
  stored := nofun
  parents := nofun
  uncached _ := rfl
  finite := ⟨∅, nofun⟩

theorem build_wellBuilt (calls : List (TransformD Scalar × Bool)) :
    ∃ tree, build calls = .ok tree ∧ tree.WellBuilt := by
  have extend : ∀ (calls : List (TransformD Scalar × Bool)) (tree : TransformTree Scalar),
      tree.WellBuilt → ∃ final, calls.foldlM (fun tree call =>
        tree.addTransformNode call.1 call.2) tree = .ok final ∧ final.WellBuilt := by
    intro calls
    induction calls with
    | nil => exact fun tree built => ⟨tree, rfl, built⟩
    | cons call calls ih =>
        intro tree built
        obtain ⟨next, added, nextBuilt⟩ := built.addTransformNode call.1 call.2
        obtain ⟨final, rest, finalBuilt⟩ := ih next nextBuilt
        exact ⟨final, by rw [List.foldlM_cons, added]; exact rest, finalBuilt⟩
  exact extend calls empty empty_wellBuilt

theorem parent_create {tree : TransformTree Scalar} {name other next : String}
    (linked : (tree.create name).parent other = some next) : tree.parent other = some next := by
  unfold TransformTree.create at linked
  split at linked
  · exact linked
  · rw [TransformTree.parent, node_setNode] at linked
    split at linked
    · cases linked
    · exact linked

theorem parent_addTransformNode {tree final : TransformTree Scalar}
    {transform : TransformD Scalar} {isStatic : Bool}
    (added : tree.addTransformNode transform isStatic = .ok final) {name next : String}
    (linked : final.parent name = some next) :
    tree.parent name = some next ∨
      name = transform.childFrameId ∧ next = transform.header.frameId := by
  simp only [TransformTree.addTransformNode] at added
  split at added
  · cases added
  · rename_i node located
    split at added <;> cases added <;> rw [TransformTree.parent, node_setNode] at linked <;>
      split at linked
    · rename_i same
      simp only [Option.bind_some, pointer, Option.map_eq_some_iff] at linked
      obtain ⟨_, _, rfl⟩ := linked
      exact .inr ⟨same, rfl⟩
    · exact .inl (parent_create (parent_create linked))
    · rename_i same
      rw [Option.bind_some, push_marked_parent] at linked
      have earlier : ((tree.create transform.childFrameId).create transform.header.frameId).parent
          name = some next := by
        rw [TransformTree.parent, same, located]
        exact linked
      exact .inl (parent_create (parent_create earlier))
    · exact .inl (parent_create (parent_create linked))

/-- Every parent link was named by one of the calls. -/
theorem parent_build {calls : List (TransformD Scalar × Bool)} {tree : TransformTree Scalar}
    (built : build calls = .ok tree) {name next : String} (linked : tree.parent name = some next) :
    ∃ call ∈ calls, name = call.1.childFrameId ∧ next = call.1.header.frameId := by
  have extend : ∀ (calls : List (TransformD Scalar × Bool)) (start : TransformTree Scalar),
      calls.foldlM (fun tree call => tree.addTransformNode call.1 call.2) start = .ok tree →
      start.parent name = some next ∨
        ∃ call ∈ calls, name = call.1.childFrameId ∧ next = call.1.header.frameId := by
    intro calls
    induction calls with
    | nil =>
        intro start folded
        cases folded
        exact .inl linked
    | cons call calls ih =>
        intro start folded
        rw [List.foldlM_cons] at folded
        cases added : start.addTransformNode call.1 call.2 with
        | error fault =>
            rw [added] at folded
            cases folded
        | ok middle =>
            rw [added] at folded
            rcases ih middle folded with earlier | ⟨later, member, named⟩
            · rcases parent_addTransformNode added earlier with before | named
              · exact .inl before
              · exact .inr ⟨call, List.mem_cons_self, named⟩
            · exact .inr ⟨later, List.mem_cons_of_mem _ member, named⟩
  exact (extend calls empty built).resolve_left nofun

/-! ## The walks -/

theorem traverse_path {tree : TransformTree Scalar} {name root : String} {below : List String}
    (path : Path tree.parent name below root) (last : tree.parent root = none) {fuel : Nat}
    {traversed : List String} (enough : below.length < fuel) (distinct : (below ++ [root]).Nodup)
    (fresh : ∀ other ∈ below ++ [root], other ∉ traversed) :
    tree.traverse fuel traversed (some name) =
      .ok (some ((below ++ [root]).reverse ++ traversed)) := by
  induction path generalizing fuel traversed with
  | here root =>
      obtain ⟨fuel, rfl⟩ := Nat.exists_eq_succ_of_ne_zero (Nat.ne_of_gt (Nat.zero_lt_of_lt enough))
      rw [traverse, if_neg (fresh root (by simp)), last]
      cases fuel <;> rfl
  | up linked rest ih =>
      rename_i name next ancestor below
      obtain ⟨fuel, rfl⟩ := Nat.exists_eq_succ_of_ne_zero (Nat.ne_of_gt (Nat.zero_lt_of_lt enough))
      obtain ⟨new, distinct⟩ := List.nodup_cons.mp distinct
      rw [traverse, if_neg (fresh name List.mem_cons_self), linked,
        ih last (by simpa using enough) distinct fun other member => ?_]
      · simp
      · rw [List.mem_cons, not_or]
        exact ⟨fun same => new (same ▸ member), fresh other (List.mem_cons_of_mem _ member)⟩

theorem meet_path {tree : TransformTree Scalar} {name lowest : String} {lower : List String}
    (path : Path tree.parent name lower lowest) {fromTraversed : List String}
    (first : ∀ other ∈ lower, other ∉ fromTraversed) (common : lowest ∈ fromTraversed) {fuel : Nat}
    {traversed : List String} (enough : lower.length < fuel) (distinct : (lower ++ [lowest]).Nodup)
    (fresh : ∀ other ∈ lower ++ [lowest], other ∉ traversed) :
    tree.meet fromTraversed fuel traversed (some name) = .ok (some (some lowest)) := by
  induction path generalizing fuel traversed with
  | here lowest =>
      obtain ⟨fuel, rfl⟩ := Nat.exists_eq_succ_of_ne_zero (Nat.ne_of_gt (Nat.zero_lt_of_lt enough))
      rw [meet, if_neg (fresh lowest (by simp)), if_pos common]
  | up linked rest ih =>
      rename_i name next ancestor below
      obtain ⟨fuel, rfl⟩ := Nat.exists_eq_succ_of_ne_zero (Nat.ne_of_gt (Nat.zero_lt_of_lt enough))
      obtain ⟨new, distinct⟩ := List.nodup_cons.mp distinct
      rw [meet, if_neg (fresh name List.mem_cons_self), if_neg (first name List.mem_cons_self),
        linked]
      refine ih (fun other member => first other (List.mem_cons_of_mem _ member)) common
        (by simpa using enough) distinct fun other member => ?_
      rw [List.mem_cons, not_or]
      exact ⟨fun same => new (same ▸ member), fresh other (List.mem_cons_of_mem _ member)⟩

variable (kdlFrame : Vector3 Scalar → Quaternion Scalar → Frame)

/-- The node has an entry for the stamp and the tolerance. -/
def Usable (tree : TransformTree Scalar) (leastStamp : Timestamp) (toleranceMs : Int)
    (name : String) : Prop :=
  ((tree.node name).bind fun node => node.selected leastStamp toleranceMs).isSome

/-- The pose of a node in its parent by the selected entry. -/
def pose [One Frame] (tree : TransformTree Scalar) (leastStamp : Timestamp) (toleranceMs : Int)
    (name : String) : Frame :=
  ((tree.node name).bind fun node => node.transform kdlFrame leastStamp toleranceMs).getD 1

theorem climb_on [Mul Frame] [One Frame] {tree : TransformTree Scalar} {root : Option String}
    {leastStamp : Timestamp} {toleranceMs : Int} {name : String} (below : some name ≠ root)
    (usable : tree.Usable leastStamp toleranceMs name) (fuel : Nat) (frame : Frame) :
    tree.climb kdlFrame root leastStamp toleranceMs (fuel + 1) (some name) frame =
      tree.climb kdlFrame root leastStamp toleranceMs fuel (tree.parent name)
        (tree.pose kdlFrame leastStamp toleranceMs name * frame) := by
  obtain ⟨entry, usable⟩ := Option.isSome_iff_exists.mp usable
  obtain ⟨node, located, selected⟩ := Option.bind_eq_some_iff.mp usable
  rw [climb, if_neg below, pose, TransformTree.parent, located]
  simp only [TransformTreeNode.transform, selected, Option.map_some, Option.bind_some,
    Option.getD_some]

theorem climb_blocked [Mul Frame] {tree : TransformTree Scalar} {root : Option String}
    {leastStamp : Timestamp} {toleranceMs : Int} {name : String} (below : some name ≠ root)
    (present : (tree.node name).isSome) (blocked : ¬ tree.Usable leastStamp toleranceMs name)
    (fuel : Nat) (frame : Frame) :
    tree.climb kdlFrame root leastStamp toleranceMs (fuel + 1) (some name) frame =
      .ok (false, frame) := by
  obtain ⟨node, located⟩ := Option.isSome_iff_exists.mp present
  rw [Usable, located, Option.bind_some, Option.not_isSome_iff_eq_none] at blocked
  rw [climb, if_neg below, located]
  simp only [TransformTreeNode.transform, blocked, Option.map_none]

variable [Group Frame]

theorem climb_path {tree : TransformTree Scalar} {leastStamp : Timestamp} {toleranceMs : Int}
    {name lowest : String} {lower : List String} (path : Path tree.parent name lower lowest)
    (outside : lowest ∉ lower) (usable : ∀ other ∈ lower, tree.Usable leastStamp toleranceMs other)
    {fuel : Nat} (enough : lower.length < fuel) (frame : Frame) :
    tree.climb kdlFrame (some lowest) leastStamp toleranceMs fuel (some name) frame =
      .ok (true, pathProduct (tree.pose kdlFrame leastStamp toleranceMs) lower * frame) := by
  induction path generalizing fuel frame with
  | here lowest =>
      obtain ⟨fuel, rfl⟩ := Nat.exists_eq_succ_of_ne_zero (Nat.ne_of_gt (Nat.zero_lt_of_lt enough))
      rw [climb, if_pos rfl, pathProduct, one_mul]
  | up linked rest ih =>
      rename_i name next lowest below
      obtain ⟨fuel, rfl⟩ := Nat.exists_eq_succ_of_ne_zero (Nat.ne_of_gt (Nat.zero_lt_of_lt enough))
      rw [List.mem_cons, not_or] at outside
      rw [climb_on kdlFrame (fun same => outside.1 (Option.some.inj same).symm)
        (usable name List.mem_cons_self), linked,
        ih outside.2 (fun other member => usable other (List.mem_cons_of_mem _ member))
          (by simpa using enough), pathProduct, mul_assoc]

theorem WellBuilt.node_of_path {tree : TransformTree Scalar} (built : tree.WellBuilt)
    {name ancestor : String} {below : List String} (path : Path tree.parent name below ancestor)
    (known : tree.count ancestor = true) : (tree.node name).isSome := by
  cases path with
  | here => exact built.stored _ known
  | up linked _ =>
      obtain ⟨node, located, _⟩ := Option.bind_eq_some_iff.mp linked
      exact located ▸ rfl

theorem pointer_of_node {tree : TransformTree Scalar} {name : String}
    (present : (tree.node name).isSome) : tree.pointer name = some name := by
  obtain ⟨node, located⟩ := Option.isSome_iff_exists.mp present
  rw [pointer, located, Option.map_some]

theorem touch_of_node {tree : TransformTree Scalar} {name : String}
    (present : (tree.node name).isSome) : tree.touch name = tree :=
  if_pos (count_of_node present)

def poseIn (tree : TransformTree Scalar) (leastStamp : Timestamp) (toleranceMs : Int)
    (below : List String) : Frame :=
  pathProduct (tree.pose kdlFrame leastStamp toleranceMs) below

/-- The two walks find the first common ancestor below a root. -/
theorem findSharedAncestor_of_first {tree : TransformTree Scalar} {fromTf toTf lowest root : String}
    {below lowerFrom lowerTo upper : List String} (fromNode : (tree.node fromTf).isSome)
    (toNode : (tree.node toTf).isSome) (rootPath : Path tree.parent fromTf below root)
    (last : tree.parent root = none) (fromPath : Path tree.parent fromTf lowerFrom lowest)
    (toPath : Path tree.parent toTf lowerTo lowest) (upperPath : Path tree.parent lowest upper root)
    (first : ∀ other ∈ lowerTo, ¬ ∃ lower, Path tree.parent fromTf lower other) {fuel : Nat}
    (enough : below.length + lowerTo.length < fuel) :
    tree.findSharedAncestor fuel fromTf toTf = .ok (true, { tree with
      sharedAncestor :=
        Function.update tree.sharedAncestor (ancestorToken fromTf toTf) (some lowest) }) := by
  have reached : ∀ other, other ∈ (below ++ [root]).reverse ↔
      ∃ lower, Path tree.parent fromTf lower other := fun other => by
    rw [List.mem_reverse, rootPath.mem_iff last]
  have traversed : tree.traverse fuel [] (some fromTf) = .ok (some (below ++ [root]).reverse) := by
    rw [traverse_path rootPath last (by omega) (rootPath.nodup_of_root (.here root) last)
      (fun _ _ => List.not_mem_nil), List.append_nil]
  have met : tree.meet (below ++ [root]).reverse fuel [] (some toTf) = .ok (some (some lowest)) :=
    meet_path toPath (fun other member => by rw [reached]; exact first other member)
      ((reached lowest).mpr ⟨lowerFrom, fromPath⟩) (by omega)
      (toPath.nodup_of_root upperPath last) (fun _ _ => List.not_mem_nil)
  simp only [findSharedAncestor, count_of_node fromNode, count_of_node toNode,
    pointer_of_node fromNode, pointer_of_node toNode, traversed, met, bind, Except.bind,
    Bool.not_true, Bool.or_self, Bool.false_eq_true, ↓reduceIte]

theorem WellBuilt.exists_root {tree : TransformTree Scalar} (built : tree.WellBuilt)
    (acyclic : Acyclic tree.parent) (name : String) :
    ∃ below root, Path tree.parent name below root ∧ tree.parent root = none := by
  obtain ⟨names, inside⟩ := built.finite
  have linked : ∀ name, tree.parent name ≠ none → name ∈ names := by
    intro name linked
    obtain ⟨next, linked⟩ := Option.ne_none_iff_exists'.mp linked
    obtain ⟨node, located, _⟩ := Option.bind_eq_some_iff.mp linked
    exact inside name (count_of_node (located ▸ rfl))
  exact Library.exists_root acyclic linked name

/-- What a first lookup computes, with both poses in the first common ancestor. -/
theorem WellBuilt.transform {tree : TransformTree Scalar} (built : tree.WellBuilt)
    (acyclic : Acyclic tree.parent) {leastStamp : Timestamp} {toleranceMs : Int}
    {fromTf toTf lowest : String} {lowerFrom lowerTo : List String}
    (fromPath : Path tree.parent fromTf lowerFrom lowest)
    (toPath : Path tree.parent toTf lowerTo lowest) (known : tree.count lowest = true)
    (first : ∀ other ∈ lowerTo, ¬ ∃ below, Path tree.parent fromTf below other)
    (usable : ∀ other ∈ lowerFrom ++ lowerTo, tree.Usable leastStamp toleranceMs other)
    (frame : Frame) :
    ∃ enough final, ∀ fuel, enough ≤ fuel →
      tree.transform kdlFrame fuel frame fromTf toTf leastStamp toleranceMs =
        .ok (true, tree.poseIn kdlFrame leastStamp toleranceMs lowerTo *
          (tree.poseIn kdlFrame leastStamp toleranceMs lowerFrom)⁻¹, final) := by
  have fromNode := built.node_of_path fromPath known
  have toNode := built.node_of_path toPath known
  obtain ⟨below, root, rootPath, last⟩ := built.exists_root acyclic fromTf
  obtain ⟨upper, upperPath⟩ := fromPath.continues rootPath last
  let final : TransformTree Scalar := { tree with
    sharedAncestor := Function.update tree.sharedAncestor (ancestorToken fromTf toTf) (some lowest) }
  refine ⟨below.length + lowerFrom.length + lowerTo.length + 1, final, fun fuel enough => ?_⟩
  have found : tree.findSharedAncestor fuel fromTf toTf = .ok (true, final) :=
    findSharedAncestor_of_first fromNode toNode rootPath last fromPath toPath upperPath first
      (by omega)
  have fromFinal : Path final.parent fromTf lowerFrom lowest := fromPath
  have toFinal : Path final.parent toTf lowerTo lowest := toPath
  have up : final.climb kdlFrame (some lowest) leastStamp toleranceMs fuel (some fromTf) 1 =
      .ok (true, tree.poseIn kdlFrame leastStamp toleranceMs lowerFrom * 1) :=
    climb_path kdlFrame fromFinal (fromPath.ancestor_not_mem acyclic)
      (fun other member => usable other (List.mem_append_left _ member)) (by omega) 1
  have down : ∀ start, final.climb kdlFrame (some lowest) leastStamp toleranceMs fuel (some toTf)
      start = .ok (true, tree.poseIn kdlFrame leastStamp toleranceMs lowerTo * start) :=
    climb_path kdlFrame toFinal (toPath.ancestor_not_mem acyclic)
      (fun other member => usable other (List.mem_append_right _ member)) (by omega)
  have cached : final.sharedAncestor (ancestorToken fromTf toTf) = some lowest :=
    Function.update_self ..
  have fromPointer : final.pointer fromTf = some fromTf := pointer_of_node fromNode
  have toPointer : final.pointer toTf = some toTf := pointer_of_node toNode
  have fromTouched : final.touch fromTf = final := touch_of_node fromNode
  have toTouched : final.touch toTf = final := touch_of_node toNode
  simp only [TransformTree.transform, getTransform, built.uncached, found, cached, fromTouched,
    toTouched, fromPointer, toPointer, up, down, bind, Except.bind, mul_one, Option.isSome_none,
    Bool.false_eq_true, Bool.not_true, ↓reduceIte]

/-- After any calls of `addTransformNode` without a cycle, a lookup of two frames with a
usable entry in every node below a common ancestor succeeds. Their relative pose is the
same for every common ancestor, and the lookup yields it exactly if their poses in the
lowest one commute. -/
theorem transform_eq_relative_iff {calls : List (TransformD Scalar × Bool)}
    {tree : TransformTree Scalar} (built : build calls = .ok tree) (acyclic : Acyclic tree.parent)
    {leastStamp : Timestamp} {toleranceMs : Int} {fromTf toTf ancestor : String}
    {belowFrom belowTo : List String} (known : tree.count ancestor = true)
    (fromPath : Path tree.parent fromTf belowFrom ancestor)
    (toPath : Path tree.parent toTf belowTo ancestor)
    (usable : ∀ name ∈ belowFrom ++ belowTo, tree.Usable leastStamp toleranceMs name)
    (frame : Frame) :
    ∃ lowest lowerFrom lowerTo, LowestCommon tree.parent fromTf toTf lowest ∧
      Path tree.parent fromTf lowerFrom lowest ∧ Path tree.parent toTf lowerTo lowest ∧
      (tree.poseIn kdlFrame leastStamp toleranceMs belowFrom)⁻¹ *
          tree.poseIn kdlFrame leastStamp toleranceMs belowTo =
        (tree.poseIn kdlFrame leastStamp toleranceMs lowerFrom)⁻¹ *
          tree.poseIn kdlFrame leastStamp toleranceMs lowerTo ∧
      ∃ result enough final, (∀ fuel, enough ≤ fuel →
        tree.transform kdlFrame fuel frame fromTf toTf leastStamp toleranceMs =
          .ok (true, result, final)) ∧
        (result = (tree.poseIn kdlFrame leastStamp toleranceMs belowFrom)⁻¹ *
            tree.poseIn kdlFrame leastStamp toleranceMs belowTo ↔
          Commute (tree.poseIn kdlFrame leastStamp toleranceMs lowerFrom)
            (tree.poseIn kdlFrame leastStamp toleranceMs lowerTo)) := by
  obtain ⟨_, same, wellBuilt⟩ := build_wellBuilt calls
  obtain rfl := Except.ok.inj (built.symm.trans same)
  obtain ⟨lowest, lowerTo, upper, rfl, lowerToPath, upperPath, ⟨lowerFrom, lowerFromPath⟩, first⟩ :=
    exists_first_common fromPath toPath
  obtain rfl := fromPath.unique acyclic (lowerFromPath.append upperPath)
  have inner : ∀ name ∈ lowerFrom ++ lowerTo, tree.Usable leastStamp toleranceMs name := by
    intro name member
    refine usable name ?_
    simp only [List.mem_append] at member ⊢
    tauto
  have lowestKnown : tree.count lowest = true :=
    count_of_node (wellBuilt.node_of_path upperPath known)
  obtain ⟨enough, final, transformed⟩ := wellBuilt.transform kdlFrame acyclic lowerFromPath
    lowerToPath lowestKnown first inner frame
  have relative := pathProduct_relative (tree.pose kdlFrame leastStamp toleranceMs) lowerFrom
    lowerTo upper
  refine ⟨lowest, lowerFrom, lowerTo, lowestCommon_of_first lowerFromPath lowerToPath first,
    lowerFromPath, lowerToPath, relative, _, enough, final, transformed, ?_⟩
  rw [poseIn, poseIn, poseIn, poseIn, relative]
  exact mul_inv_eq_inv_mul_iff _ _

end TransformTree

/-! ## Half turns -/

/-- A translation by whole numbers, after a half turn about the z-axis or none. -/
structure HalfTurn where
  x : Int
  y : Int
  z : Int
  turned : Bool
  deriving DecidableEq, Repr

namespace HalfTurn

def compose (left right : HalfTurn) : HalfTurn where
  x := left.x + if left.turned then -right.x else right.x
  y := left.y + if left.turned then -right.y else right.y
  z := left.z + right.z
  turned := left.turned ^^ right.turned

def inverse (motion : HalfTurn) : HalfTurn where
  x := if motion.turned then motion.x else -motion.x
  y := if motion.turned then motion.y else -motion.y
  z := -motion.z
  turned := motion.turned

instance : Mul HalfTurn := ⟨compose⟩

instance : One HalfTurn := ⟨⟨0, 0, 0, false⟩⟩

instance : Inv HalfTurn := ⟨inverse⟩

instance : Group HalfTurn := Group.ofLeftAxioms
  (by
    rintro ⟨x, y, z, turned⟩ ⟨x', y', z', turned'⟩ ⟨x'', y'', z'', turned''⟩
    change compose (compose _ _) _ = compose _ (compose _ _)
    cases turned <;> cases turned' <;> simp [compose] <;> omega)
  (by
    rintro ⟨x, y, z, turned⟩
    change compose ⟨0, 0, 0, false⟩ _ = _
    simp [compose])
  (by
    rintro ⟨x, y, z, turned⟩
    change compose (inverse _) _ = ⟨0, 0, 0, false⟩
    cases turned <;> simp [compose, inverse])

/-- The frame for the quaternions of no turn and of a half turn about the z-axis. -/
def frame (translation : Vector3 Int) (rotation : Quaternion Int) : HalfTurn :=
  ⟨translation.x, translation.y, translation.z, rotation.w = 0⟩

def call (childFrameId : String) (x : Int) (rotation : Quaternion Int) : TransformD Int × Bool :=
  (⟨⟨⟨0, 0⟩, "root"⟩, childFrameId, ⟨x, 0, 0⟩, rotation⟩, false)

end HalfTurn

namespace TransformTree

theorem eval_build {Value : Type} (eval : TransformTree Scalar → Value)
    {calls : List (TransformD Scalar × Bool)} {tree : TransformTree Scalar}
    (built : build calls = .ok tree) {value : Value}
    (evaluated : (build calls).toOption.map eval = some value) : eval tree = value := by
  rw [built] at evaluated
  exact Option.some.inj evaluated

def siblings : List (TransformD Int × Bool) :=
  [HalfTurn.call "a" 1 ⟨0, 0, 0, 1⟩, HalfTurn.call "b" 3 ⟨0, 0, 0, 1⟩]

theorem siblings_acyclic {tree : TransformTree Int} (built : build siblings = .ok tree) :
    Acyclic tree.parent := by
  refine acyclic_of_rank (fun name => if name = "root" then 0 else 1) fun name next linked => ?_
  obtain ⟨call, member, rfl, rfl⟩ := parent_build built linked
  have ordered : ∀ call ∈ siblings, call.1.header.frameId = "root" ∧
      call.1.childFrameId ≠ "root" := by decide +kernel
  obtain ⟨root, other⟩ := ordered call member
  simp only [root, other, ↓reduceIte]
  decide

theorem transform_eq_relative_iff_siblings :
    ∃ tree, build siblings = .ok tree ∧
      ∃ lowest lowerFrom lowerTo, LowestCommon tree.parent "a" "b" lowest ∧
        Path tree.parent "a" lowerFrom lowest ∧ Path tree.parent "b" lowerTo lowest ∧
        (tree.poseIn HalfTurn.frame ⟨0, 0⟩ (-1) ["a"])⁻¹ *
            tree.poseIn HalfTurn.frame ⟨0, 0⟩ (-1) ["b"] =
          (tree.poseIn HalfTurn.frame ⟨0, 0⟩ (-1) lowerFrom)⁻¹ *
            tree.poseIn HalfTurn.frame ⟨0, 0⟩ (-1) lowerTo ∧
        ∃ result enough final, (∀ fuel, enough ≤ fuel →
          tree.transform HalfTurn.frame fuel 1 "a" "b" ⟨0, 0⟩ (-1) = .ok (true, result, final)) ∧
          (result = (tree.poseIn HalfTurn.frame ⟨0, 0⟩ (-1) ["a"])⁻¹ *
              tree.poseIn HalfTurn.frame ⟨0, 0⟩ (-1) ["b"] ↔
            Commute (tree.poseIn HalfTurn.frame ⟨0, 0⟩ (-1) lowerFrom)
              (tree.poseIn HalfTurn.frame ⟨0, 0⟩ (-1) lowerTo)) := by
  obtain ⟨tree, built, _⟩ := build_wellBuilt siblings
  have aParent : tree.parent "a" = some "root" :=
    eval_build (fun tree => tree.parent "a") built (by decide +kernel)
  have bParent : tree.parent "b" = some "root" :=
    eval_build (fun tree => tree.parent "b") built (by decide +kernel)
  have known : tree.count "root" = true :=
    eval_build (fun tree => tree.count "root") built (by decide +kernel)
  have selected : ["a", "b"].all (fun name => ((tree.node name).bind fun node =>
      node.selected ⟨0, 0⟩ (-1)).isSome) = true :=
    eval_build (fun tree => ["a", "b"].all fun name => ((tree.node name).bind fun node =>
      node.selected ⟨0, 0⟩ (-1)).isSome) built (by decide +kernel)
  have usable : ∀ name ∈ ["a", "b"], tree.Usable ⟨0, 0⟩ (-1) name := List.all_eq_true.mp selected
  exact ⟨tree, built, transform_eq_relative_iff HalfTurn.frame built (siblings_acyclic built) known
    (.up aParent (.here "root")) (.up bParent (.here "root")) usable 1⟩

/-- A translated frame and a turned one under the same parent. -/
def turnedSibling : List (TransformD Int × Bool) :=
  [HalfTurn.call "a" 1 ⟨0, 0, 0, 1⟩, HalfTurn.call "b" 0 ⟨0, 0, 1, 0⟩]

theorem turnedSibling_not_relative :
    ∃ tree result final, build turnedSibling = .ok tree ∧
      tree.parent "a" = some "root" ∧ tree.parent "b" = some "root" ∧
      tree.transform HalfTurn.frame 4 1 "a" "b" ⟨0, 0⟩ (-1) = .ok (true, result, final) ∧
      result ≠ (tree.poseIn HalfTurn.frame ⟨0, 0⟩ (-1) ["a"])⁻¹ *
        tree.poseIn HalfTurn.frame ⟨0, 0⟩ (-1) ["b"] := by
  obtain ⟨tree, built, _⟩ := build_wellBuilt turnedSibling
  have aParent : tree.parent "a" = some "root" :=
    eval_build (fun tree => tree.parent "a") built (by decide +kernel)
  have bParent : tree.parent "b" = some "root" :=
    eval_build (fun tree => tree.parent "b") built (by decide +kernel)
  have looked : (tree.transform HalfTurn.frame 4 1 "a" "b" ⟨0, 0⟩ (-1)).toOption.map
      (fun lookup => (lookup.1, lookup.2.1)) = some (true, ⟨1, 0, 0, true⟩) :=
    eval_build (fun tree => (tree.transform HalfTurn.frame 4 1 "a" "b" ⟨0, 0⟩ (-1)).toOption.map
      fun lookup => (lookup.1, lookup.2.1)) built (by decide +kernel)
  have expected : (tree.poseIn HalfTurn.frame ⟨0, 0⟩ (-1) ["a"])⁻¹ *
      tree.poseIn HalfTurn.frame ⟨0, 0⟩ (-1) ["b"] = ⟨-1, 0, 0, true⟩ :=
    eval_build (fun tree => (tree.poseIn HalfTurn.frame ⟨0, 0⟩ (-1) ["a"])⁻¹ *
      tree.poseIn HalfTurn.frame ⟨0, 0⟩ (-1) ["b"]) built (by decide +kernel)
  cases ran : tree.transform HalfTurn.frame 4 1 "a" "b" ⟨0, 0⟩ (-1) with
  | error fault =>
      rw [ran] at looked
      cases looked
  | ok lookup =>
      obtain ⟨ok, result, final⟩ := lookup
      rw [ran] at looked
      obtain ⟨rfl, rfl⟩ := Prod.mk.inj (Option.some.inj looked)
      refine ⟨tree, _, final, built, aParent, bParent, ran, ?_⟩
      rw [expected]
      decide

end TransformTree

end ProtoCore.Transform
