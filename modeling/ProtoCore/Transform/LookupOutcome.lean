import ProtoCore.Transform.AncestorCache

/-!
# When a lookup succeeds

The second walk of `find_shared_ancestor` leaves its loop at the first node that the first
walk has passed, or at the end of the parents. The log line below the loop reads a frame
id in both cases, so two known frames under different roots end in a null pointer.
-/

set_option autoImplicit false

namespace ProtoCore.Transform

open Library

variable {Scalar Frame : Type}

namespace Lookup

def Known (lookup : Lookup Frame) (tree : TransformTree Scalar) : Prop :=
  tree.count lookup.fromTf = true ∧ tree.count lookup.toTf = true

def ChainsMeet (lookup : Lookup Frame) (tree : TransformTree Scalar) : Prop :=
  ∃ belowFrom belowTo ancestor, Path tree.parent lookup.fromTf belowFrom ancestor ∧
    Path tree.parent lookup.toTf belowTo ancestor

/-- Both frames exist, their parents meet, and every node below the place has an entry. -/
def Resolvable (lookup : Lookup Frame) (tree : TransformTree Scalar) : Prop :=
  lookup.Known tree ∧ ∃ lowest lowerFrom lowerTo,
    LowestCommon tree.parent lookup.fromTf lookup.toTf lowest ∧
    Path tree.parent lookup.fromTf lowerFrom lowest ∧
    Path tree.parent lookup.toTf lowerTo lowest ∧
    ∀ name ∈ lowerFrom ++ lowerTo, tree.Usable lookup.leastStamp lookup.toleranceMs name

/-- The lookup returns, and with `true` exactly if it can be resolved. -/
def AnswersProperly (kdlFrame : Vector3 Scalar → Quaternion Scalar → Frame)
    [Mul Frame] [Inv Frame] [One Frame] (lookup : Lookup Frame) (tree : TransformTree Scalar) :
    Prop :=
  ∃ ok frame, Returns .outOfFuel (lookup.answer kdlFrame tree) (.ok (ok, frame)) ∧
    (ok = true ↔ lookup.Resolvable tree)

end Lookup

namespace TransformTree

/-! ## Chains that do not meet -/

/-- The second walk, up to a root that the first has not reached. -/
theorem meet_apart {tree : TransformTree Scalar} {name root : String} {below : List String}
    (path : Path tree.parent name below root) (last : tree.parent root = none)
    {fromTraversed : List String} (apart : ∀ other ∈ below ++ [root], other ∉ fromTraversed)
    {fuel : Nat} {traversed : List String} (enough : below.length < fuel)
    (distinct : (below ++ [root]).Nodup) (fresh : ∀ other ∈ below ++ [root], other ∉ traversed) :
    tree.meet fromTraversed fuel traversed (some name) = .ok (some none) := by
  induction path generalizing fuel traversed with
  | here root =>
      obtain ⟨fuel, rfl⟩ := Nat.exists_eq_succ_of_ne_zero (Nat.ne_of_gt (Nat.zero_lt_of_lt enough))
      rw [meet, if_neg (fresh root (by simp)), if_neg (apart root (by simp)), last]
      cases fuel <;> rfl
  | up linked rest ih =>
      rename_i name next ancestor below
      obtain ⟨fuel, rfl⟩ := Nat.exists_eq_succ_of_ne_zero (Nat.ne_of_gt (Nat.zero_lt_of_lt enough))
      obtain ⟨new, distinct⟩ := List.nodup_cons.mp distinct
      rw [meet, if_neg (fresh name List.mem_cons_self), if_neg (apart name List.mem_cons_self),
        linked]
      refine ih last (fun other member => apart other (List.mem_cons_of_mem _ member))
        (by simpa using enough) distinct fun other member => ?_
      rw [List.mem_cons, not_or]
      exact ⟨fun same => new (same ▸ member), fresh other (List.mem_cons_of_mem _ member)⟩

theorem findSharedAncestor_apart {tree : TransformTree Scalar}
    {fromTf toTf fromRoot toRoot : String} {belowFrom belowTo : List String}
    (fromNode : (tree.node fromTf).isSome) (toNode : (tree.node toTf).isSome)
    (fromPath : Path tree.parent fromTf belowFrom fromRoot)
    (fromLast : tree.parent fromRoot = none) (toPath : Path tree.parent toTf belowTo toRoot)
    (toLast : tree.parent toRoot = none)
    (apart : ∀ other below above, Path tree.parent fromTf below other →
      ¬ Path tree.parent toTf above other)
    {fuel : Nat} (enough : belowFrom.length + belowTo.length < fuel) :
    tree.findSharedAncestor fuel fromTf toTf = .error .nullNode := by
  have traversed : tree.traverse fuel [] (some fromTf) =
      .ok (some (belowFrom ++ [fromRoot]).reverse) := by
    rw [traverse_path fromPath fromLast (by omega)
      (fromPath.nodup_of_root (.here fromRoot) fromLast) (fun _ _ => List.not_mem_nil),
      List.append_nil]
  have met : tree.meet (belowFrom ++ [fromRoot]).reverse fuel [] (some toTf) = .ok (some none) := by
    refine meet_apart toPath toLast (fun other member reached => ?_) (by omega)
      (toPath.nodup_of_root (.here toRoot) toLast) (fun _ _ => List.not_mem_nil)
    obtain ⟨above, up⟩ := (toPath.mem_iff toLast).mp member
    obtain ⟨below, lower⟩ := (fromPath.mem_iff fromLast).mp (List.mem_reverse.mp reached)
    exact apart other below above lower up
  simp only [findSharedAncestor, count_of_node fromNode, count_of_node toNode,
    pointer_of_node fromNode, pointer_of_node toNode, traversed, met, bind, Except.bind,
    Bool.not_true, Bool.or_self, Bool.false_eq_true, ↓reduceIte]

theorem findSharedAncestor_unknown {tree : TransformTree Scalar} {fromTf toTf : String}
    (unknown : ¬ (tree.count fromTf = true ∧ tree.count toTf = true)) (fuel : Nat) :
    tree.findSharedAncestor fuel fromTf toTf = .ok (false, tree) := by
  have missing : (!tree.count fromTf || !tree.count toTf) = true := by
    rw [← Bool.not_and, Bool.not_eq_true', Bool.eq_false_iff]
    exact fun both => unknown (Bool.and_eq_true_iff.mp both)
  rw [findSharedAncestor, if_pos missing]

/-! ## The walks of `get_transform` -/

section Walks

variable (kdlFrame : Vector3 Scalar → Quaternion Scalar → Frame) [Mul Frame] [Inv Frame] [One Frame]

omit [Inv Frame] in
/-- A walk up to an ancestor ends, and succeeds exactly if every node below has an entry. -/
theorem climb_outcome {tree : TransformTree Scalar} {name top : String} {lower : List String}
    (path : Path tree.parent name lower top) (outside : top ∉ lower) (leastStamp : Timestamp)
    (toleranceMs : Int) {fuel : Nat} (enough : lower.length < fuel) (frame : Frame) :
    ∃ ok result, tree.climb kdlFrame (some top) leastStamp toleranceMs fuel (some name) frame =
        .ok (ok, result) ∧
      (ok = true ↔ ∀ other ∈ lower, tree.Usable leastStamp toleranceMs other) := by
  induction path generalizing fuel frame with
  | here top =>
      obtain ⟨fuel, rfl⟩ := Nat.exists_eq_succ_of_ne_zero (Nat.ne_of_gt (Nat.zero_lt_of_lt enough))
      refine ⟨true, frame, ?_, ?_⟩
      · rw [climb, if_pos rfl]
      · simp
  | up linked rest ih =>
      rename_i name next top below
      obtain ⟨fuel, rfl⟩ := Nat.exists_eq_succ_of_ne_zero (Nat.ne_of_gt (Nat.zero_lt_of_lt enough))
      rw [List.mem_cons, not_or] at outside
      have under : some name ≠ some top := fun same => outside.1 (Option.some.inj same).symm
      simp only [List.forall_mem_cons]
      by_cases usable : tree.Usable leastStamp toleranceMs name
      · obtain ⟨ok, result, climbed, success⟩ := ih outside.2 (Nat.lt_of_succ_lt_succ enough)
          (tree.pose kdlFrame leastStamp toleranceMs name * frame)
        refine ⟨ok, result, ?_, ?_⟩
        · rw [climb_on kdlFrame under usable, linked, climbed]
        · rw [success, and_iff_right usable]
      · obtain ⟨node, located, _⟩ := Option.bind_eq_some_iff.mp linked
        refine ⟨false, frame, climb_blocked kdlFrame under (located ▸ rfl) usable fuel frame, ?_⟩
        constructor
        · intro succeeded
          cases succeeded
        · exact fun both => absurd both.1 usable

theorem climbs_outcome {tree : TransformTree Scalar} {lookup : Lookup Frame} {top : String}
    {lowerFrom lowerTo : List String} (acyclic : Acyclic tree.parent)
    (fromPath : Path tree.parent lookup.fromTf lowerFrom top)
    (toPath : Path tree.parent lookup.toTf lowerTo top) {fuel : Nat}
    (enough : lowerFrom.length + lowerTo.length < fuel) :
    ∃ ok frame, tree.climbs kdlFrame (some top) lookup fuel = .ok (ok, frame) ∧
      (ok = true ↔ ∀ other ∈ lowerFrom ++ lowerTo,
        tree.Usable lookup.leastStamp lookup.toleranceMs other) := by
  obtain ⟨upOk, upFrame, up, upSuccess⟩ := climb_outcome kdlFrame fromPath
    (fromPath.ancestor_not_mem acyclic) lookup.leastStamp lookup.toleranceMs
    (show lowerFrom.length < fuel by omega) 1
  obtain ⟨downOk, downFrame, down, downSuccess⟩ := climb_outcome kdlFrame toPath
    (toPath.ancestor_not_mem acyclic) lookup.leastStamp lookup.toleranceMs
    (show lowerTo.length < fuel by omega) upFrame⁻¹
  simp only [List.forall_mem_append, ← upSuccess, ← downSuccess]
  cases upOk with
  | false =>
      refine ⟨false, upFrame, ?_, by simp⟩
      simp only [climbs, up, bind, Except.bind, Bool.not_false, if_true]
  | true =>
      refine ⟨downOk, downFrame, ?_, by simp⟩
      simp only [climbs, up, bind, Except.bind, Bool.not_true, Bool.false_eq_true, if_false]
      exact down

/-! ## Outcomes -/

theorem WellBuilt.answer_unknown {tree : TransformTree Scalar} (built : tree.WellBuilt)
    {lookup : Lookup Frame} (unknown : ¬ lookup.Known tree) :
    lookup.AnswersProperly kdlFrame tree := by
  refine ⟨false, lookup.frame, ⟨nofun, 0, ?_⟩, nofun, fun resolvable => ?_⟩
  · rw [answer_missed kdlFrame (built.uncached _), findSharedAncestor_unknown unknown]
    rfl
  · exact absurd resolvable.1 unknown

theorem WellBuilt.answer_apart {tree : TransformTree Scalar} (built : tree.WellBuilt)
    (acyclic : Acyclic tree.parent) {lookup : Lookup Frame} (known : lookup.Known tree)
    (apart : ¬ lookup.ChainsMeet tree) :
    Returns .outOfFuel (lookup.answer kdlFrame tree) (.error .nullNode) := by
  obtain ⟨belowFrom, fromRoot, fromPath, fromLast⟩ := built.exists_root acyclic lookup.fromTf
  obtain ⟨belowTo, toRoot, toPath, toLast⟩ := built.exists_root acyclic lookup.toTf
  refine ⟨nofun, belowFrom.length + belowTo.length + 1, ?_⟩
  rw [answer_missed kdlFrame (built.uncached _), findSharedAncestor_apart (built.stored _ known.1)
    (built.stored _ known.2) fromPath fromLast toPath toLast
    (fun other below above lower upper => apart ⟨below, above, other, lower, upper⟩)
    (Nat.lt_succ_self _)]
  rfl

theorem WellBuilt.answer_meeting {tree : TransformTree Scalar} (built : tree.WellBuilt)
    (acyclic : Acyclic tree.parent) {lookup : Lookup Frame} (known : lookup.Known tree)
    (meeting : lookup.ChainsMeet tree) : lookup.AnswersProperly kdlFrame tree := by
  obtain ⟨_, _, _, fromAbove, toAbove⟩ := meeting
  obtain ⟨lowest, lowerTo, upper, _, toPath, _, ⟨lowerFrom, fromPath⟩, first⟩ :=
    exists_first_common fromAbove toAbove
  obtain ⟨below, root, rootPath, last⟩ := built.exists_root acyclic lookup.fromTf
  obtain ⟨above, upperPath⟩ := fromPath.continues rootPath last
  have common := lowestCommon_of_first fromPath toPath first
  let fuel := below.length + lowerFrom.length + lowerTo.length + 1
  have fromNode := built.stored _ known.1
  have toNode := built.stored _ known.2
  have found := findSharedAncestor_of_first fromNode toNode rootPath last fromPath toPath upperPath
    first (show below.length + lowerTo.length < fuel by omega)
  obtain ⟨ok, frame, climbed, success⟩ := climbs_outcome kdlFrame acyclic fromPath toPath
    (show lowerFrom.length + lowerTo.length < fuel by omega)
  refine ⟨ok, frame, ⟨nofun, fuel, ?_⟩, success.trans ⟨fun usable => ?_, fun resolvable => ?_⟩⟩
  · rw [← climbed]
    exact answer_found kdlFrame (built.uncached _) fromNode toNode found rfl
      (Function.update_self ..)
  · exact ⟨known, lowest, lowerFrom, lowerTo, common, fromPath, toPath, usable⟩
  · obtain ⟨_, other, otherFrom, otherTo, otherCommon, otherFromPath, otherToPath, usable⟩ :=
      resolvable
    obtain rfl := common.unique acyclic otherCommon
    obtain rfl := fromPath.unique acyclic otherFromPath
    obtain rfl := toPath.unique acyclic otherToPath
    exact usable

/-- After any calls of `addTransformNode` without a cycle, a lookup returns, and with
`true` exactly when it can be resolved, if and only if two known frames have a common
ancestor. -/
theorem answersProperly_iff_chainsMeet {calls : List (TransformD Scalar × Bool)}
    {tree : TransformTree Scalar} (built : build calls = .ok tree) (acyclic : Acyclic tree.parent)
    (lookup : Lookup Frame) :
    lookup.AnswersProperly kdlFrame tree ↔ (lookup.Known tree → lookup.ChainsMeet tree) := by
  obtain ⟨_, same, wellBuilt⟩ := build_wellBuilt calls
  obtain rfl := Except.ok.inj (built.symm.trans same)
  constructor
  · intro proper known
    by_contra apart
    obtain ⟨ok, frame, returns, _⟩ := proper
    have faulty := wellBuilt.answer_apart kdlFrame acyclic known apart
    cases returns.unique (answer_steady kdlFrame lookup tree) faulty
  · intro meets
    by_cases known : lookup.Known tree
    · exact wellBuilt.answer_meeting kdlFrame acyclic known (meets known)
    · exact wellBuilt.answer_unknown kdlFrame known

end Walks

/-- Two frames under different roots. -/
def strangers : List (TransformD Int × Bool) :=
  [HalfTurn.call "a" 1 ⟨0, 0, 0, 1⟩, (⟨⟨⟨0, 0⟩, "world"⟩, "b", ⟨3, 0, 0⟩, ⟨0, 0, 0, 1⟩⟩, false)]

theorem answersProperly_iff_chainsMeet_siblings :
    ∃ tree, build siblings = .ok tree ∧
      ((CachingTree.lookAcross "a" "b").AnswersProperly HalfTurn.frame tree ↔
        ((CachingTree.lookAcross "a" "b").Known tree →
          (CachingTree.lookAcross "a" "b").ChainsMeet tree)) := by
  obtain ⟨tree, built, _⟩ := build_wellBuilt siblings
  exact ⟨tree, built,
    answersProperly_iff_chainsMeet HalfTurn.frame built (siblings_acyclic built) _⟩

theorem strangers_not_answersProperly :
    ∃ tree, build strangers = .ok tree ∧ Acyclic tree.parent ∧
      ¬ (CachingTree.lookAcross "a" "b").AnswersProperly HalfTurn.frame tree := by
  obtain ⟨tree, built, _⟩ := build_wellBuilt strangers
  refine ⟨tree, built, ?_, fun proper => ?_⟩
  · refine acyclic_of_rank (fun name => if name = "root" ∨ name = "world" then 0 else 1)
      fun name next linked => ?_
    obtain ⟨call, member, rfl, rfl⟩ := parent_build built linked
    have ordered : ∀ call ∈ strangers,
        (call.1.header.frameId = "root" ∨ call.1.header.frameId = "world") ∧
          ¬ (call.1.childFrameId = "root" ∨ call.1.childFrameId = "world") := by decide +kernel
    obtain ⟨above, under⟩ := ordered call member
    rw [if_pos above, if_neg under]
    decide
  · obtain ⟨ok, frame, returns, _⟩ := proper
    let lookup := CachingTree.lookAcross "a" "b"
    have failed : fault? (lookup.answer HalfTurn.frame tree 4) = some .nullNode :=
      eval_build (fun tree => fault? (lookup.answer HalfTurn.frame tree 4)) built
        (by decide +kernel)
    have faulty := Returns.of_fault failed (show Fault.nullNode ≠ .outOfFuel by decide)
    cases returns.unique (answer_steady _ _ _) faulty

end TransformTree

end ProtoCore.Transform
