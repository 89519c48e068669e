import ProtoCore.Library.Fuel
import ProtoCore.Library.Machine
import ProtoCore.Library.ParentWalk
import ProtoCore.Transform.RelativePose

/-!
# The cache of shared ancestors

A lookup that finds its pair in the cache skips `find_shared_ancestor` and with it the
test for closed loops. Entries stay for good, under the two names joined into one string.
-/

set_option autoImplicit false

namespace ProtoCore.Transform

open Library

variable {Scalar Frame : Type}

/-- The arguments of a call of `transform`, with the content of the frame to fill in. -/
structure Lookup (Frame : Type) where
  frame : Frame
  fromTf : String
  toTf : String
  leastStamp : Timestamp
  toleranceMs : Int

def Lookup.token (lookup : Lookup Frame) : String :=
  TransformTree.ancestorToken lookup.fromTf lookup.toTf

inductive TreeCall (Scalar Frame : Type) where
  | addTransformNode (transform : TransformD Scalar) (isStatic : Bool)
  | transform (lookup : Lookup Frame)

/-- A tree and the pairs whose lookups have put an entry in its cache. -/
structure CachingTree (Scalar : Type) where
  tree : TransformTree Scalar
  pairs : List (String × String)

def TransformTree.emptied (tree : TransformTree Scalar) : TransformTree Scalar :=
  { tree with sharedAncestor := fun _ => none }

section Calls

variable (kdlFrame : Vector3 Scalar → Quaternion Scalar → Frame) [Mul Frame] [Inv Frame] [One Frame]

def Lookup.run (lookup : Lookup Frame) (tree : TransformTree Scalar) (fuel : Nat) :
    Except Fault (Bool × Frame × TransformTree Scalar) :=
  tree.transform kdlFrame fuel lookup.frame lookup.fromTf lookup.toTf lookup.leastStamp
    lookup.toleranceMs

/-- What the caller sees: the result and the frame. -/
def Lookup.answer (lookup : Lookup Frame) (tree : TransformTree Scalar) (fuel : Nat) :
    Except Fault (Bool × Frame) :=
  (lookup.run kdlFrame tree fuel).map fun found => (found.1, found.2.1)

namespace CachingTree

def initial : CachingTree Scalar where
  tree := .empty
  pairs := []

def looked (state : CachingTree Scalar) (lookup : Lookup Frame) (next : TransformTree Scalar) :
    CachingTree Scalar where
  tree := next
  pairs :=
    if (state.tree.sharedAncestor lookup.token).isNone && (next.sharedAncestor lookup.token).isSome
    then (lookup.fromTf, lookup.toTf) :: state.pairs
    else state.pairs

/-- A call that fails or does not end is the last one. -/
def step (fuel : Nat) (state : CachingTree Scalar) :
    TreeCall Scalar Frame → Option (CachingTree Scalar)
  | .addTransformNode transform isStatic =>
      match state.tree.addTransformNode transform isStatic with
      | .ok next => some { state with tree := next }
      | .error _ => none
  | .transform lookup =>
      match lookup.run kdlFrame state.tree fuel with
      | .ok found => some (state.looked lookup found.2.2)
      | .error _ => none

def machine (fuel : Nat) : Machine (CachingTree Scalar) (TreeCall Scalar Frame) :=
  ⟨step kdlFrame fuel⟩

/-- The lookup ends, and as it would with an empty cache. -/
def Transparent (lookup : Lookup Frame) (tree : TransformTree Scalar) : Prop :=
  ∃ answer, Returns .outOfFuel (lookup.answer kdlFrame tree) answer ∧
    Returns .outOfFuel (lookup.answer kdlFrame tree.emptied) answer

/-- A lookup that hits the cache: only the same two frames have used its entry's key, and
the parents of its first frame lead to a root. -/
def Steadfast (state : CachingTree Scalar) : TreeCall Scalar Frame → Prop
  | .addTransformNode _ _ => True
  | .transform lookup =>
      (state.tree.sharedAncestor lookup.token).isSome →
        (∀ pair ∈ state.pairs, TransformTree.ancestorToken pair.1 pair.2 = lookup.token →
          pair = (lookup.fromTf, lookup.toTf) ∨ pair = (lookup.toTf, lookup.fromTf)) ∧
        ∃ below root, Path state.tree.parent lookup.fromTf below root ∧
          state.tree.parent root = none

end CachingTree

end Calls

namespace TransformTree

/-! ## Fuel -/

theorem traverse_steady (tree : TransformTree Scalar) (traversed : List String)
    (start : Option String) :
    Steady .outOfFuel fun fuel => tree.traverse fuel traversed start := by
  apply Steady.of_succ
  intro fuel
  induction fuel generalizing traversed start with
  | zero =>
      intro ended
      cases start with
      | none => rfl
      | some root => exact absurd rfl ended
  | succ fuel ih =>
      intro ended
      cases start with
      | none => rfl
      | some root =>
          rw [traverse] at ended
          rw [traverse, traverse]
          split
          · rfl
          · rename_i fresh
            rw [if_neg fresh] at ended
            exact ih _ _ ended

theorem meet_steady (tree : TransformTree Scalar) (fromTraversed traversed : List String)
    (start : Option String) :
    Steady .outOfFuel fun fuel => tree.meet fromTraversed fuel traversed start := by
  apply Steady.of_succ
  intro fuel
  induction fuel generalizing traversed start with
  | zero =>
      intro ended
      cases start with
      | none => rfl
      | some root => exact absurd rfl ended
  | succ fuel ih =>
      intro ended
      cases start with
      | none => rfl
      | some root =>
          rw [meet] at ended
          rw [meet, meet]
          split
          · rfl
          · rename_i fresh
            rw [if_neg fresh] at ended
            split
            · rfl
            · rename_i apart
              rw [if_neg apart] at ended
              exact ih _ _ ended

theorem findSharedAncestor_steady (tree : TransformTree Scalar) (fromTf toTf : String) :
    Steady .outOfFuel fun fuel => tree.findSharedAncestor fuel fromTf toTf := by
  unfold findSharedAncestor
  split
  · exact Steady.const _
  · apply (traverse_steady tree [] _).bind
    intro traversed
    cases traversed with
    | none => exact Steady.const _
    | some fromTraversed =>
        apply (meet_steady tree fromTraversed [] _).bind
        intro met
        rcases met with _ | _ | root
        · exact Steady.const _
        · exact Steady.const _
        · exact Steady.const _

variable (kdlFrame : Vector3 Scalar → Quaternion Scalar → Frame) [Mul Frame] [Inv Frame] [One Frame]

omit [Inv Frame] [One Frame] in
theorem climb_steady (tree : TransformTree Scalar) (root : Option String) (leastStamp : Timestamp)
    (toleranceMs : Int) (start : Option String) (frame : Frame) :
    Steady .outOfFuel fun fuel =>
      tree.climb kdlFrame root leastStamp toleranceMs fuel start frame := by
  apply Steady.of_succ
  intro fuel
  induction fuel generalizing start frame with
  | zero =>
      intro ended
      cases start with
      | none => rfl
      | some name => exact absurd rfl ended
  | succ fuel ih =>
      intro ended
      cases start with
      | none => rfl
      | some name =>
          rw [climb] at ended
          rw [climb, climb]
          split
          · rfl
          · rename_i below
            rw [if_neg below] at ended
            cases located : tree.node name with
            | none => rfl
            | some node =>
                rw [located] at ended
                dsimp only at ended ⊢
                cases posed : node.transform kdlFrame leastStamp toleranceMs with
                | none => rfl
                | some value =>
                    rw [posed] at ended
                    exact ih _ _ ended

theorem getTransform_steady (tree : TransformTree Scalar) (fromTf toTf : String)
    (leastStamp : Timestamp) (toleranceMs : Int) :
    Steady .outOfFuel fun fuel =>
      tree.getTransform kdlFrame fuel fromTf toTf leastStamp toleranceMs := by
  unfold getTransform
  apply (climb_steady kdlFrame _ _ _ _ _ _).bind
  intro climbed
  dsimp only
  split
  · exact Steady.const _
  · apply (climb_steady kdlFrame _ _ _ _ _ _).bind
    intro descended
    exact Steady.const _

theorem answer_steady (lookup : Lookup Frame) (tree : TransformTree Scalar) :
    Steady .outOfFuel (lookup.answer kdlFrame tree) := by
  apply Steady.map
  unfold Lookup.run TransformTree.transform
  split
  · exact getTransform_steady kdlFrame _ _ _ _ _
  · apply (findSharedAncestor_steady tree _ _).bind
    intro found
    dsimp only
    split
    · exact Steady.const _
    · exact getTransform_steady kdlFrame _ _ _ _ _

end TransformTree

/-! ## The tree under a growing cache -/

namespace TransformTree

/-- Nodes and parents stay, and the cache is not touched. -/
structure Grown (tree next : TransformTree Scalar) : Prop where
  nodes : ∀ name, (tree.node name).isSome → (next.node name).isSome
  parents : ∀ name above, tree.parent name = some above → next.parent name = some above
  cache : next.sharedAncestor = tree.sharedAncestor

theorem Grown.refl (tree : TransformTree Scalar) : Grown tree tree where
  nodes _ present := present
  parents _ _ linked := linked
  cache := rfl

theorem Grown.trans {tree middle next : TransformTree Scalar} (first : Grown tree middle)
    (second : Grown middle next) : Grown tree next where
  nodes name present := second.nodes name (first.nodes name present)
  parents name above linked := second.parents name above (first.parents name above linked)
  cache := second.cache.trans first.cache

theorem Grown.setNode (tree : TransformTree Scalar) (name : String)
    {node : TransformTreeNode Scalar}
    (kept : ∀ above, tree.parent name = some above → node.parent = some above) :
    Grown tree (tree.setNode name node) where
  nodes other present := by
    rw [node_setNode]
    split
    · rfl
    · exact present
  parents other above linked := by
    rw [TransformTree.parent, node_setNode]
    split
    · rename_i same
      exact kept above (same ▸ linked)
    · exact linked
  cache := rfl

theorem Grown.create (tree : TransformTree Scalar) (name : String) :
    Grown tree (tree.create name) := by
  unfold TransformTree.create
  split
  · exact Grown.refl tree
  · rename_i absent
    apply Grown.setNode
    intro above linked
    obtain ⟨node, located, _⟩ := Option.bind_eq_some_iff.mp linked
    exact absurd (count_of_node (located ▸ rfl)) absent

theorem grown_addTransformNode {tree next : TransformTree Scalar} {transform : TransformD Scalar}
    {isStatic : Bool} (added : tree.addTransformNode transform isStatic = .ok next) :
    Grown tree next := by
  have created := (Grown.create tree transform.childFrameId).trans
    (Grown.create _ transform.header.frameId)
  apply created.trans
  simp only [TransformTree.addTransformNode] at added
  split at added
  · cases added
  · rename_i node located
    have parentSame := push_marked_parent node transform isStatic
    have pointed : ((tree.create transform.childFrameId).create transform.header.frameId).parent
        transform.childFrameId = node.parent := by
      rw [TransformTree.parent, located, Option.bind_some]
    split at added
    · rename_i orphan
      cases added
      apply Grown.setNode
      intro above linked
      cases (parentSame.symm.trans orphan).symm.trans (pointed.symm.trans linked)
    · cases added
      apply Grown.setNode
      intro above linked
      rw [parentSame, ← pointed]
      exact linked

theorem emptied_create (tree : TransformTree Scalar) (name : String) :
    tree.emptied.create name = (tree.create name).emptied := by
  unfold TransformTree.create
  have same : tree.emptied.count name = tree.count name := rfl
  rw [same]
  split <;> rfl

theorem addTransformNode_emptied (tree : TransformTree Scalar) (transform : TransformD Scalar)
    (isStatic : Bool) : tree.emptied.addTransformNode transform isStatic =
      (tree.addTransformNode transform isStatic).map emptied := by
  simp only [TransformTree.addTransformNode, emptied_create]
  have same : ∀ (other : TransformTree Scalar) name, other.emptied.node name = other.node name :=
    fun _ _ => rfl
  rw [same]
  split
  · rfl
  · split <;> rfl

/-! ## What the search finds -/

theorem traverse_ok {tree : TransformTree Scalar} {fuel : Nat} {traversed found : List String}
    {name : String} (walked : tree.traverse fuel traversed (some name) = .ok (some found)) :
    ∃ below root, Path tree.parent name below root ∧ tree.parent root = none ∧
      found = (below ++ [root]).reverse ++ traversed := by
  induction fuel generalizing traversed name with
  | zero => cases walked
  | succ fuel ih =>
      rw [traverse] at walked
      split at walked
      · cases walked
      · cases linked : tree.parent name with
        | none =>
            rw [linked] at walked
            refine ⟨[], name, .here name, linked, ?_⟩
            cases fuel <;> cases walked <;> rfl
        | some next =>
            rw [linked] at walked
            obtain ⟨below, root, path, last, rfl⟩ := ih walked
            refine ⟨name :: below, root, .up linked path, last, ?_⟩
            simp only [List.cons_append, List.reverse_cons, List.append_assoc, List.nil_append]

theorem meet_ok {tree : TransformTree Scalar} {fromTraversed traversed : List String} {fuel : Nat}
    {name top : String}
    (walked : tree.meet fromTraversed fuel traversed (some name) = .ok (some (some top))) :
    ∃ lower, Path tree.parent name lower top ∧ top ∈ fromTraversed ∧
      ∀ other ∈ lower, other ∉ fromTraversed := by
  induction fuel generalizing traversed name with
  | zero => cases walked
  | succ fuel ih =>
      rw [meet] at walked
      split at walked
      · cases walked
      · split at walked
        · rename_i common
          cases walked
          exact ⟨[], .here _, common, fun _ member => absurd member List.not_mem_nil⟩
        · rename_i apart
          cases linked : tree.parent name with
          | none =>
              rw [linked] at walked
              cases fuel <;> cases walked
          | some next =>
              rw [linked] at walked
              obtain ⟨lower, path, common, first⟩ := ih walked
              refine ⟨name :: lower, .up linked path, common, fun other member => ?_⟩
              rcases List.mem_cons.mp member with same | later
              · exact same ▸ apart
              · exact first other later

theorem node_of_pointer {tree : TransformTree Scalar} {name other : String}
    (pointing : tree.pointer name = some other) : (tree.node name).isSome ∧ name = other := by
  obtain ⟨node, located, rfl⟩ := Option.map_eq_some_iff.mp pointing
  exact ⟨located ▸ rfl, rfl⟩

theorem pointer_of_traverse {tree : TransformTree Scalar} {fuel : Nat} {found : List String}
    {start : Option String} (walked : tree.traverse fuel [] start = .ok (some found))
    {name : String} (member : name ∈ found) : ∃ other, start = some other := by
  cases start with
  | none => cases fuel <;> cases walked <;> cases member
  | some other => exact ⟨other, rfl⟩

theorem pointer_of_meet {tree : TransformTree Scalar} {fromTraversed traversed : List String}
    {fuel : Nat} {start : Option String} {top : String}
    (walked : tree.meet fromTraversed fuel traversed start = .ok (some (some top))) :
    ∃ other, start = some other := by
  cases start with
  | none => cases fuel <;> cases walked
  | some other => exact ⟨other, rfl⟩

/-- A search that succeeds has found the first common ancestor below a root, and one that
fails has changed nothing. -/
theorem findSharedAncestor_ok {tree : TransformTree Scalar} {fuel : Nat} {fromTf toTf : String}
    {found : Bool} {next : TransformTree Scalar}
    (searched : tree.findSharedAncestor fuel fromTf toTf = .ok (found, next)) :
    (found = false ∧ next = tree) ∨ found = true ∧
      (tree.node fromTf).isSome ∧ (tree.node toTf).isSome ∧
      ∃ top below root, Join tree.parent fromTf toTf top ∧
        Path tree.parent fromTf below root ∧ tree.parent root = none ∧ next.nodes = tree.nodes ∧
        next.sharedAncestor =
          Function.update tree.sharedAncestor (ancestorToken fromTf toTf) (some top) := by
  unfold findSharedAncestor at searched
  split at searched
  · cases searched
    exact .inl ⟨rfl, rfl⟩
  · dsimp only [bind, Except.bind] at searched
    cases walked : tree.traverse fuel [] (tree.pointer fromTf) with
    | error fault =>
        rw [walked] at searched
        cases searched
    | ok traversed =>
        rw [walked] at searched
        cases traversed with
        | none =>
            cases searched
            exact .inl ⟨rfl, rfl⟩
        | some fromTraversed =>
            dsimp only at searched
            cases met : tree.meet fromTraversed fuel [] (tree.pointer toTf) with
            | error fault =>
                rw [met] at searched
                cases searched
            | ok top =>
                rw [met] at searched
                rcases top with _ | _ | top
                · cases searched
                  exact .inl ⟨rfl, rfl⟩
                · cases searched
                · cases searched
                  -- Neither pointer was null, for then nothing is in common.
                  obtain ⟨toName, toPointer⟩ := pointer_of_meet met
                  obtain ⟨toNode, rfl⟩ := node_of_pointer toPointer
                  rw [toPointer] at met
                  obtain ⟨lowerTo, toPath, common, first⟩ := meet_ok met
                  obtain ⟨fromName, fromPointer⟩ := pointer_of_traverse walked common
                  obtain ⟨fromNode, rfl⟩ := node_of_pointer fromPointer
                  rw [fromPointer] at walked
                  obtain ⟨below, root, rootPath, last, rfl⟩ := traverse_ok walked
                  rw [List.append_nil] at common first
                  have reached : ∀ other, other ∈ (below ++ [root]).reverse ↔
                      ∃ lower, Path tree.parent fromTf lower other := fun other => by
                    rw [List.mem_reverse, rootPath.mem_iff last]
                  obtain ⟨lowerFrom, fromPath⟩ := (reached top).mp common
                  refine .inr ⟨rfl, fromNode, toNode, top, below, root, ⟨lowerFrom, lowerTo,
                    fromPath, toPath, fun other member under => ?_⟩, rootPath, last, rfl, rfl⟩
                  obtain ⟨lower, _, _, _, path, _⟩ := fromPath.split under
                  exact first other member ((reached other).mpr ⟨lower, path⟩)

/-- Trees that a search cannot tell apart. -/
structure SameShape (tree other : TransformTree Scalar) : Prop where
  counts : ∀ name, other.count name = tree.count name
  pointers : ∀ name, other.pointer name = tree.pointer name
  parents : ∀ name, other.parent name = tree.parent name

theorem sameShape_emptied (tree : TransformTree Scalar) : SameShape tree tree.emptied where
  counts _ := rfl
  pointers _ := rfl
  parents _ := rfl

theorem SameShape.traverse {tree other : TransformTree Scalar} (shape : SameShape tree other)
    (fuel : Nat) (traversed : List String) (start : Option String) :
    other.traverse fuel traversed start = tree.traverse fuel traversed start := by
  induction fuel generalizing traversed start with
  | zero => cases start <;> rfl
  | succ fuel ih =>
      cases start with
      | none => rfl
      | some name =>
          rw [TransformTree.traverse, TransformTree.traverse, shape.parents]
          split
          · rfl
          · exact ih _ _

theorem SameShape.meet {tree other : TransformTree Scalar} (shape : SameShape tree other)
    (fromTraversed : List String) (fuel : Nat) (traversed : List String) (start : Option String) :
    other.meet fromTraversed fuel traversed start =
      tree.meet fromTraversed fuel traversed start := by
  induction fuel generalizing traversed start with
  | zero => cases start <;> rfl
  | succ fuel ih =>
      cases start with
      | none => rfl
      | some name =>
          rw [TransformTree.meet, TransformTree.meet, shape.parents]
          split
          · rfl
          · split
            · rfl
            · exact ih _ _

/-- The search finds the same in both, and each keeps its own nodes and cache. -/
theorem SameShape.findSharedAncestor {tree other : TransformTree Scalar}
    (shape : SameShape tree other) (fuel : Nat) (fromTf toTf : String) :
    other.findSharedAncestor fuel fromTf toTf =
      (tree.findSharedAncestor fuel fromTf toTf).map fun found =>
        (found.1, if found.1 then { other with
          sharedAncestor := Function.update other.sharedAncestor (ancestorToken fromTf toTf)
            (found.2.sharedAncestor (ancestorToken fromTf toTf)) } else other) := by
  unfold TransformTree.findSharedAncestor
  simp only [shape.counts, shape.pointers, shape.traverse, shape.meet]
  split
  · rfl
  · cases tree.traverse fuel [] (tree.pointer fromTf) with
    | error fault => rfl
    | ok traversed =>
        cases traversed with
        | none => rfl
        | some fromTraversed =>
            dsimp only [bind, Except.bind]
            cases tree.meet fromTraversed fuel [] (tree.pointer toTf) with
            | error fault => rfl
            | ok top =>
                rcases top with _ | _ | top
                · rfl
                · rfl
                · simp only [Except.map, if_true, Function.update_self]

/-! ## Every search ends -/

/-- The nodes for which the body of the first loop of the search runs. -/
def firstVisits (tree : TransformTree Scalar) (fuel : Nat) (traversed : List String)
    (start : Option String) : List String :=
  visits tree.parent (fun visited name => name ∉ visited) (fun _ => false) fuel traversed start

/-- The same for the second loop. It is left at a node that the first has passed. -/
def secondVisits (tree : TransformTree Scalar) (fromTraversed : List String) (fuel : Nat)
    (traversed : List String) (start : Option String) : List String :=
  visits tree.parent (fun visited name => name ∉ visited) (fun name => name ∈ fromTraversed) fuel
    traversed start

theorem length_firstVisits {tree : TransformTree Scalar} {fuel : Nat} {traversed : List String}
    {start : Option String} (out : tree.traverse fuel traversed start = .error .outOfFuel) :
    (tree.firstVisits fuel traversed start).length = fuel := by
  induction fuel generalizing traversed start with
  | zero =>
      cases start with
      | none => cases out
      | some name => rfl
  | succ fuel ih =>
      cases start with
      | none => cases out
      | some name =>
          rw [traverse] at out
          split at out
          · cases out
          · rename_i fresh
            rw [firstVisits, visits, if_pos (decide_eq_true fresh), List.length_cons]
            exact congrArg (· + 1) (ih out)

theorem length_secondVisits {tree : TransformTree Scalar} {fromTraversed traversed : List String}
    {fuel : Nat} {start : Option String}
    (out : tree.meet fromTraversed fuel traversed start = .error .outOfFuel) :
    (tree.secondVisits fromTraversed fuel traversed start).length = fuel := by
  induction fuel generalizing traversed start with
  | zero =>
      cases start with
      | none => cases out
      | some name => rfl
  | succ fuel ih =>
      cases start with
      | none => cases out
      | some name =>
          rw [meet] at out
          split at out
          · cases out
          · rename_i fresh
            split at out
            · cases out
            · rename_i apart
              rw [secondVisits, visits, if_pos (decide_eq_true fresh), decide_eq_false apart,
                List.length_cons]
              exact congrArg (· + 1) (ih out)

theorem nodup_firstVisits (tree : TransformTree Scalar) (fuel : Nat) (start : Option String) :
    (tree.firstVisits fuel [] start).Nodup :=
  (nodup_visits_of_fresh (fun _ _ fresh => of_decide_eq_true fresh) fuel [] start).1

theorem nodup_secondVisits (tree : TransformTree Scalar) (fromTraversed : List String) (fuel : Nat)
    (start : Option String) : (tree.secondVisits fromTraversed fuel [] start).Nodup :=
  (nodup_visits_of_fresh (fun _ _ fresh => of_decide_eq_true fresh) fuel [] start).1

theorem Linked.names {tree : TransformTree Scalar} (linked : tree.Linked) :
    ∃ names : Finset String, (∀ name next, tree.parent name = some next → next ∈ names) ∧
      ∀ name other, tree.pointer name = some other → other ∈ names := by
  obtain ⟨names, inside⟩ := linked.finite
  refine ⟨names, fun name next above => inside next (count_of_node (linked.parents name next above)),
    fun name other pointing => ?_⟩
  obtain ⟨present, rfl⟩ := node_of_pointer pointing
  exact inside name (count_of_node present)

theorem Linked.findSharedAncestor_ends {tree : TransformTree Scalar} (linked : tree.Linked)
    (fromTf toTf : String) :
    ∃ fuel, tree.findSharedAncestor fuel fromTf toTf ≠ .error .outOfFuel := by
  obtain ⟨names, closed, pointed⟩ := linked.names
  have walked : tree.traverse (names.card + 1) [] (tree.pointer fromTf) ≠ .error .outOfFuel := by
    intro out
    have bounded := length_visits_le closed (pointed fromTf)
      (tree.nodup_firstVisits (names.card + 1) (tree.pointer fromTf))
    rw [← firstVisits, length_firstVisits out] at bounded
    omega
  have ended : ∀ fromTraversed,
      tree.meet fromTraversed (names.card + 1) [] (tree.pointer toTf) ≠ .error .outOfFuel := by
    intro fromTraversed out
    have bounded := length_visits_le closed (pointed toTf)
      (tree.nodup_secondVisits fromTraversed (names.card + 1) (tree.pointer toTf))
    rw [← secondVisits, length_secondVisits out] at bounded
    omega
  refine ⟨names.card + 1, ?_⟩
  unfold findSharedAncestor
  split
  · exact fun failed => by cases failed
  · cases traversed : tree.traverse (names.card + 1) [] (tree.pointer fromTf) with
    | error fault =>
        intro failed
        cases failed
        exact walked traversed
    | ok found =>
        cases found with
        | none => exact fun failed => by cases failed
        | some fromTraversed =>
            dsimp only [bind, Except.bind]
            cases met : tree.meet fromTraversed (names.card + 1) [] (tree.pointer toTf) with
            | error fault =>
                intro failed
                cases failed
                exact ended fromTraversed met
            | ok top =>
                rcases top with _ | _ | top
                · exact fun failed => by cases failed
                · exact fun failed => by cases failed
                · exact fun failed => by cases failed

section Climbs

variable (kdlFrame : Vector3 Scalar → Quaternion Scalar → Frame) [Mul Frame] [Inv Frame] [One Frame]

/-- Both climbs of `get_transform` to the ancestor that the cache names. -/
def climbs (tree : TransformTree Scalar) (root : Option String) (lookup : Lookup Frame)
    (fuel : Nat) : Except Fault (Bool × Frame) := do
  let (ok, frame) ← tree.climb kdlFrame root lookup.leastStamp lookup.toleranceMs fuel
    (some lookup.fromTf) 1
  if !ok then .ok (false, frame)
  else tree.climb kdlFrame root lookup.leastStamp lookup.toleranceMs fuel (some lookup.toTf) frame⁻¹

theorem getTransform_of_nodes {tree : TransformTree Scalar} {lookup : Lookup Frame}
    (fromNode : (tree.node lookup.fromTf).isSome) (toNode : (tree.node lookup.toTf).isSome)
    (fuel : Nat) :
    tree.getTransform kdlFrame fuel lookup.fromTf lookup.toTf lookup.leastStamp
        lookup.toleranceMs =
      (tree.climbs kdlFrame (tree.sharedAncestor lookup.token) lookup fuel).map
        fun found => (found.1, found.2, tree) := by
  unfold getTransform climbs
  simp only [touch_of_node fromNode, touch_of_node toNode, pointer_of_node fromNode,
    pointer_of_node toNode, bind, Except.bind, Lookup.token]
  cases tree.climb kdlFrame (tree.sharedAncestor (ancestorToken lookup.fromTf lookup.toTf))
    lookup.leastStamp lookup.toleranceMs fuel (some lookup.fromTf) 1 with
  | error fault => rfl
  | ok climbed =>
      obtain ⟨ok, frame⟩ := climbed
      cases ok
      · rfl
      · simp only [Bool.not_true, Bool.false_eq_true, if_false]
        cases tree.climb kdlFrame (tree.sharedAncestor (ancestorToken lookup.fromTf lookup.toTf))
          lookup.leastStamp lookup.toleranceMs fuel (some lookup.toTf) frame⁻¹ with
        | error fault => rfl
        | ok found => rfl

omit [Inv Frame] [One Frame] in
theorem climb_congr {tree other : TransformTree Scalar}
    (nodes : ∀ name, other.node name = tree.node name) (root : Option String)
    (leastStamp : Timestamp) (toleranceMs : Int) (fuel : Nat) (start : Option String)
    (frame : Frame) :
    other.climb kdlFrame root leastStamp toleranceMs fuel start frame =
      tree.climb kdlFrame root leastStamp toleranceMs fuel start frame := by
  induction fuel generalizing start frame with
  | zero => cases start <;> rfl
  | succ fuel ih =>
      cases start with
      | none => rfl
      | some name =>
          rw [climb, climb, nodes]
          split
          · rfl
          · split
            · rfl
            · split
              · rfl
              · exact ih _ _

theorem climbs_congr {tree other : TransformTree Scalar} (same : other.nodes = tree.nodes)
    (root : Option String) (lookup : Lookup Frame) (fuel : Nat) :
    other.climbs kdlFrame root lookup fuel = tree.climbs kdlFrame root lookup fuel := by
  have nodes : ∀ name, other.node name = tree.node name := fun name => by
    rw [TransformTree.node, TransformTree.node, same]
  unfold climbs
  simp only [climb_congr kdlFrame nodes]

theorem climbs_emptied (tree : TransformTree Scalar) (root : Option String)
    (lookup : Lookup Frame) (fuel : Nat) :
    tree.emptied.climbs kdlFrame root lookup fuel = tree.climbs kdlFrame root lookup fuel := by
  have same : tree.emptied.nodes = tree.nodes := rfl
  exact climbs_congr kdlFrame same root lookup fuel

omit [Inv Frame] [One Frame] in
theorem climb_ends {tree : TransformTree Scalar} {name top : String} {lower : List String}
    (path : Path tree.parent name lower top) (outside : top ∉ lower) (leastStamp : Timestamp)
    (toleranceMs : Int) {fuel : Nat} (enough : lower.length < fuel) (frame : Frame) :
    tree.climb kdlFrame (some top) leastStamp toleranceMs fuel (some name) frame ≠
      .error .outOfFuel := by
  induction path generalizing fuel frame with
  | here top =>
      obtain ⟨fuel, rfl⟩ := Nat.exists_eq_succ_of_ne_zero (Nat.ne_of_gt (Nat.zero_lt_of_lt enough))
      rw [climb, if_pos rfl]
      exact fun failed => by cases failed
  | up linked rest ih =>
      rename_i name next top below
      obtain ⟨fuel, rfl⟩ := Nat.exists_eq_succ_of_ne_zero (Nat.ne_of_gt (Nat.zero_lt_of_lt enough))
      rw [List.mem_cons, not_or] at outside
      obtain ⟨node, located, pointed⟩ := Option.bind_eq_some_iff.mp linked
      rw [climb, if_neg fun same => outside.1 (Option.some.inj same).symm, located]
      dsimp only
      split
      · exact fun failed => by cases failed
      · rw [pointed]
        exact ih outside.2 (Nat.lt_of_succ_lt_succ enough) _

theorem climbs_end {tree : TransformTree Scalar} {lookup : Lookup Frame} {top root : String}
    {lowerFrom lowerTo upper : List String} (fromPath : Path tree.parent lookup.fromTf lowerFrom top)
    (toPath : Path tree.parent lookup.toTf lowerTo top) (upperPath : Path tree.parent top upper root)
    (last : tree.parent root = none) {fuel : Nat}
    (enough : lowerFrom.length + lowerTo.length < fuel) :
    tree.climbs kdlFrame (some top) lookup fuel ≠ .error .outOfFuel := by
  have outside : ∀ {name lower}, Path tree.parent name lower top → top ∉ lower :=
    fun path member => (List.nodup_append.mp (path.nodup_of_root upperPath last)).2.2 _ member _
      (List.mem_singleton_self _) rfl
  have climbing : tree.climb kdlFrame (some top) lookup.leastStamp lookup.toleranceMs fuel
      (some lookup.fromTf) 1 ≠ .error .outOfFuel :=
    climb_ends kdlFrame fromPath (outside fromPath) _ _ (by omega) 1
  unfold climbs
  cases climbed : tree.climb kdlFrame (some top) lookup.leastStamp lookup.toleranceMs fuel
    (some lookup.fromTf) 1 with
  | error fault =>
      intro failed
      cases failed
      exact climbing climbed
  | ok found =>
      dsimp only [bind, Except.bind]
      split
      · exact fun failed => by cases failed
      · exact climb_ends kdlFrame toPath (outside toPath) _ _ (by omega) _

/-- A lookup with a cached ancestor, of two frames that the tree has. -/
theorem run_hit {tree : TransformTree Scalar} {lookup : Lookup Frame} {top : String}
    (fromNode : (tree.node lookup.fromTf).isSome) (toNode : (tree.node lookup.toTf).isSome)
    (cached : tree.sharedAncestor lookup.token = some top) (fuel : Nat) :
    lookup.run kdlFrame tree fuel =
      (tree.climbs kdlFrame (some top) lookup fuel).map fun found => (found.1, found.2, tree) := by
  have hit : (tree.sharedAncestor (ancestorToken lookup.fromTf lookup.toTf)).isSome = true :=
    cached ▸ rfl
  unfold Lookup.run TransformTree.transform
  rw [if_pos hit, getTransform_of_nodes kdlFrame fromNode toNode, cached]

theorem answer_hit {tree : TransformTree Scalar} {lookup : Lookup Frame} {top : String}
    (fromNode : (tree.node lookup.fromTf).isSome) (toNode : (tree.node lookup.toTf).isSome)
    (cached : tree.sharedAncestor lookup.token = some top) (fuel : Nat) :
    lookup.answer kdlFrame tree fuel = tree.climbs kdlFrame (some top) lookup fuel := by
  rw [Lookup.answer, run_hit kdlFrame fromNode toNode cached]
  cases tree.climbs kdlFrame (some top) lookup fuel <;> rfl

theorem run_missed {tree : TransformTree Scalar} {lookup : Lookup Frame}
    (missed : tree.sharedAncestor lookup.token = none) (fuel : Nat) :
    lookup.run kdlFrame tree fuel =
      (tree.findSharedAncestor fuel lookup.fromTf lookup.toTf).bind fun found =>
        if found.1 then found.2.getTransform kdlFrame fuel lookup.fromTf lookup.toTf
          lookup.leastStamp lookup.toleranceMs
        else .ok (false, lookup.frame, found.2) := by
  have miss : ¬ (tree.sharedAncestor (ancestorToken lookup.fromTf lookup.toTf)).isSome = true := by
    intro hit
    rw [Lookup.token] at missed
    rw [missed] at hit
    cases hit
  unfold Lookup.run TransformTree.transform
  rw [if_neg miss]
  cases tree.findSharedAncestor fuel lookup.fromTf lookup.toTf with
  | error fault => rfl
  | ok found =>
      obtain ⟨found, next⟩ := found
      cases found <;> rfl

theorem answer_missed {tree : TransformTree Scalar} {lookup : Lookup Frame}
    (missed : tree.sharedAncestor lookup.token = none) (fuel : Nat) :
    lookup.answer kdlFrame tree fuel =
      (tree.findSharedAncestor fuel lookup.fromTf lookup.toTf).bind fun found =>
        if found.1 then (found.2.getTransform kdlFrame fuel lookup.fromTf lookup.toTf
          lookup.leastStamp lookup.toleranceMs).map fun found => (found.1, found.2.1)
        else .ok (false, lookup.frame) := by
  rw [Lookup.answer, run_missed kdlFrame missed]
  cases tree.findSharedAncestor fuel lookup.fromTf lookup.toTf with
  | error fault => rfl
  | ok found =>
      obtain ⟨found, next⟩ := found
      cases found <;> rfl

/-- A lookup that has to search, when the search succeeds. -/
theorem answer_found {tree next : TransformTree Scalar} {lookup : Lookup Frame} {top : String}
    {fuel : Nat} (missed : tree.sharedAncestor lookup.token = none)
    (fromNode : (tree.node lookup.fromTf).isSome) (toNode : (tree.node lookup.toTf).isSome)
    (found : tree.findSharedAncestor fuel lookup.fromTf lookup.toTf = .ok (true, next))
    (same : next.nodes = tree.nodes) (cached : next.sharedAncestor lookup.token = some top) :
    lookup.answer kdlFrame tree fuel = tree.climbs kdlFrame (some top) lookup fuel := by
  have nodes : ∀ name, next.node name = tree.node name := fun name => by
    rw [TransformTree.node, TransformTree.node, same]
  rw [answer_missed kdlFrame missed, found]
  dsimp only [Except.bind]
  rw [if_pos rfl, getTransform_of_nodes kdlFrame (by rw [nodes]; exact fromNode)
    (by rw [nodes]; exact toNode), cached, climbs_congr kdlFrame same]
  cases tree.climbs kdlFrame (some top) lookup fuel <;> rfl

/-- A lookup that has to search ends, and as it would with an empty cache. -/
theorem answer_emptied {tree : TransformTree Scalar} {lookup : Lookup Frame}
    (missed : tree.sharedAncestor lookup.token = none) (fuel : Nat) :
    lookup.answer kdlFrame tree fuel = lookup.answer kdlFrame tree.emptied fuel := by
  have emptied := (sameShape_emptied tree).findSharedAncestor fuel lookup.fromTf lookup.toTf
  cases searched : tree.findSharedAncestor fuel lookup.fromTf lookup.toTf with
  | error fault =>
      rw [searched] at emptied
      rw [answer_missed kdlFrame missed, answer_missed kdlFrame rfl, searched, emptied]
      rfl
  | ok result =>
      obtain ⟨found, next⟩ := result
      rcases findSharedAncestor_ok searched with ⟨rfl, rfl⟩ |
        ⟨rfl, fromNode, toNode, top, _, _, _, _, _, same, cache⟩
      · rw [searched] at emptied
        rw [answer_missed kdlFrame missed, answer_missed kdlFrame rfl, searched, emptied]
        rfl
      · rw [searched] at emptied
        have cached : next.sharedAncestor lookup.token = some top := by
          rw [cache]
          exact Function.update_self ..
        rw [answer_found kdlFrame missed fromNode toNode searched same cached]
        have fromEmptied : (tree.emptied.node lookup.fromTf).isSome = true := fromNode
        have toEmptied : (tree.emptied.node lookup.toTf).isSome = true := toNode
        have missedEmptied : tree.emptied.sharedAncestor lookup.token = none := rfl
        rw [← climbs_emptied]
        symm
        apply answer_found kdlFrame missedEmptied fromEmptied toEmptied emptied rfl
        rw [Lookup.token] at cached ⊢
        dsimp only
        rw [if_pos rfl]
        dsimp only
        rw [Function.update_self, cached]

theorem returns_emptied {tree : TransformTree Scalar} (lookup : Lookup Frame)
    (built : tree.emptied.WellBuilt) :
    ∃ answer, Returns .outOfFuel (lookup.answer kdlFrame tree.emptied) answer := by
  obtain ⟨fuel, ended⟩ := built.linked.findSharedAncestor_ends lookup.fromTf lookup.toTf
  cases searched : tree.emptied.findSharedAncestor fuel lookup.fromTf lookup.toTf with
  | error fault =>
      refine ⟨.error fault, ?_, fuel, ?_⟩
      · intro failed
        cases failed
        exact ended searched
      · rw [answer_missed kdlFrame rfl, searched]
        rfl
  | ok result =>
      obtain ⟨found, next⟩ := result
      have more := findSharedAncestor_steady tree.emptied lookup.fromTf lookup.toTf
      rcases findSharedAncestor_ok searched with ⟨rfl, rfl⟩ |
        ⟨rfl, fromNode, toNode, top, below, root, join, rooted, last, same, cache⟩
      · refine ⟨.ok (false, lookup.frame), (fun failed => by cases failed), fuel, ?_⟩
        rw [answer_missed kdlFrame rfl, searched]
        rfl
      · obtain ⟨lowerFrom, lowerTo, upper, fromPath, toPath, upperPath, _⟩ := join.first rooted last
        let enough := max fuel (lowerFrom.length + lowerTo.length + 1)
        have again := more fuel enough (Nat.le_max_left _ _) ended
        dsimp only at again
        rw [searched] at again
        have cached : next.sharedAncestor lookup.token = some top := by
          rw [cache]
          exact Function.update_self ..
        refine ⟨_, ?_, enough, rfl⟩
        rw [answer_found kdlFrame rfl fromNode toNode again same cached]
        exact climbs_end kdlFrame fromPath toPath upperPath last (Nat.le_max_right _ _)

end Climbs

end TransformTree

namespace CachingTree

open TransformTree

/-- The tree is well built apart from its cache, and every entry is where the two frames of
one of the pairs with its key come together. -/
structure Sound (state : CachingTree Scalar) : Prop where
  built : state.tree.emptied.WellBuilt
  joined : ∀ token top, state.tree.sharedAncestor token = some top →
    (state.tree.node top).isSome ∧ ∃ pair ∈ state.pairs,
      ancestorToken pair.1 pair.2 = token ∧ Join state.tree.parent pair.1 pair.2 top

theorem initial_sound : (initial : CachingTree Scalar).Sound where
  built := empty_wellBuilt
  joined _ _ cached := by cases cached

/-- The entry of a steadfast lookup is the first common ancestor of its frames. -/
theorem Sound.join {state : CachingTree Scalar} (sound : state.Sound) {lookup : Lookup Frame}
    (steadfast : state.Steadfast (.transform lookup)) {top : String}
    (cached : state.tree.sharedAncestor lookup.token = some top) :
    (state.tree.node lookup.fromTf).isSome ∧ (state.tree.node lookup.toTf).isSome ∧
      Join state.tree.parent lookup.fromTf lookup.toTf top := by
  obtain ⟨alone, _⟩ := steadfast (cached ▸ rfl)
  obtain ⟨present, pair, member, token, join⟩ := sound.joined _ _ cached
  have oriented : Join state.tree.parent lookup.fromTf lookup.toTf top := by
    rcases alone pair member token with same | swapped
    · rw [same] at join
      exact join
    · rw [swapped] at join
      exact join.symm
  obtain ⟨_, _, fromPath, toPath, _⟩ := id oriented
  have known : state.tree.emptied.count top = true := count_of_node present
  exact ⟨sound.built.node_of_path fromPath known, sound.built.node_of_path toPath known, oriented⟩

theorem node_above {tree : TransformTree Scalar} (built : tree.WellBuilt) {name ancestor : String}
    {below : List String} (path : Path tree.parent name below ancestor)
    (present : (tree.node name).isSome) : (tree.node ancestor).isSome := by
  induction path with
  | here => exact present
  | up linked _ ih => exact ih (built.parents _ _ linked)

theorem Sound.addTransformNode {state : CachingTree Scalar} (sound : state.Sound)
    {transform : TransformD Scalar} {isStatic : Bool} {next : TransformTree Scalar}
    (added : state.tree.addTransformNode transform isStatic = .ok next) :
    ({ state with tree := next } : CachingTree Scalar).Sound where
  built := by
    obtain ⟨emptied, same, built⟩ := sound.built.addTransformNode transform isStatic
    rw [addTransformNode_emptied, added] at same
    cases same
    exact built
  joined token top cached := by
    have grown := grown_addTransformNode added
    rw [grown.cache] at cached
    obtain ⟨present, pair, member, named, join⟩ := sound.joined token top cached
    exact ⟨grown.nodes top present, pair, member, named, join.mono grown.parents⟩

/-- The entry that a search puts in the cache. -/
theorem Sound.found {state : CachingTree Scalar} (sound : state.Sound) {lookup : Lookup Frame}
    (missed : state.tree.sharedAncestor lookup.token = none) {top : String}
    (join : Join state.tree.parent lookup.fromTf lookup.toTf top)
    (fromNode : (state.tree.node lookup.fromTf).isSome) {next : TransformTree Scalar}
    (nodes : next.nodes = state.tree.nodes)
    (cache : next.sharedAncestor =
      Function.update state.tree.sharedAncestor lookup.token (some top)) :
    (state.looked lookup next).Sound where
  built := by
    have same : next.emptied = state.tree.emptied := by
      rw [emptied, emptied, nodes]
    rw [CachingTree.looked, same]
    exact sound.built
  joined token other cached := by
    have present : ∀ name, next.node name = state.tree.node name := fun name => by
      rw [TransformTree.node, TransformTree.node, nodes]
    have parents : next.parent = state.tree.parent := by
      funext name
      rw [TransformTree.parent, TransformTree.parent, present]
    have added : (state.looked lookup next).pairs =
        (lookup.fromTf, lookup.toTf) :: state.pairs := by
      simp only [CachingTree.looked, missed, cache, Function.update_self, Option.isNone_none,
        Option.isSome_some, Bool.and_self, if_true]
    have tree : (state.looked lookup next).tree = next := rfl
    rw [tree] at cached
    rw [added, tree, present, parents]
    rw [cache, Function.update_apply] at cached
    split at cached
    · rename_i same
      cases cached
      obtain ⟨_, _, fromPath, _, _⟩ := id join
      exact ⟨node_above sound.built fromPath fromNode, _, List.mem_cons_self, same.symm, join⟩
    · obtain ⟨known, pair, member, named, before⟩ := sound.joined token other cached
      exact ⟨known, pair, List.mem_cons_of_mem _ member, named, before⟩

section Runs

variable (kdlFrame : Vector3 Scalar → Quaternion Scalar → Frame) [Mul Frame] [Inv Frame] [One Frame]

theorem Sound.transparent {state : CachingTree Scalar} (sound : state.Sound)
    {lookup : Lookup Frame} (steadfast : state.Steadfast (.transform lookup)) :
    Transparent kdlFrame lookup state.tree := by
  obtain ⟨answer, returns⟩ := returns_emptied kdlFrame lookup sound.built
  refine ⟨answer, ?_, returns⟩
  have steady := answer_steady kdlFrame lookup state.tree.emptied
  cases cached : state.tree.sharedAncestor lookup.token with
  | none =>
      exact returns.of_eventually steady fun fuel (_ : 0 ≤ fuel) =>
        answer_emptied kdlFrame cached fuel
  | some top =>
      obtain ⟨fromNode, toNode, join⟩ := sound.join steadfast cached
      obtain ⟨_, below, root, rooted, last⟩ := steadfast (cached ▸ rfl)
      obtain ⟨lowerFrom, lowerTo, upper, fromPath, toPath, upperPath, first⟩ :=
        join.first rooted last
      have same : ∀ fuel, below.length + lowerTo.length + 1 ≤ fuel →
          lookup.answer kdlFrame state.tree fuel =
            lookup.answer kdlFrame state.tree.emptied fuel := by
        intro fuel enough
        -- With the loop tests passed, the search finds the cached ancestor again.
        have fromEmptied : (state.tree.emptied.node lookup.fromTf).isSome = true := fromNode
        have toEmptied : (state.tree.emptied.node lookup.toTf).isSome = true := toNode
        have missed : state.tree.emptied.sharedAncestor lookup.token = none := rfl
        have found := findSharedAncestor_of_first fromEmptied toEmptied rooted last fromPath toPath
          upperPath first enough
        rw [answer_hit kdlFrame fromNode toNode cached, ← climbs_emptied]
        symm
        exact answer_found kdlFrame missed fromEmptied toEmptied found rfl
          (Function.update_self ..)
      exact returns.of_eventually steady same

theorem Sound.looked {state : CachingTree Scalar} (sound : state.Sound) {lookup : Lookup Frame}
    (steadfast : state.Steadfast (.transform lookup)) {fuel : Nat} {ok : Bool} {frame : Frame}
    {next : TransformTree Scalar}
    (ran : lookup.run kdlFrame state.tree fuel = .ok (ok, frame, next)) :
    (state.looked lookup next).Sound := by
  cases cached : state.tree.sharedAncestor lookup.token with
  | some top =>
      obtain ⟨fromNode, toNode, _⟩ := sound.join steadfast cached
      rw [run_hit kdlFrame fromNode toNode cached] at ran
      cases climbed : state.tree.climbs kdlFrame (some top) lookup fuel with
      | error fault =>
          rw [climbed] at ran
          cases ran
      | ok found =>
          rw [climbed] at ran
          cases ran
          have same : state.looked lookup state.tree = state := by
            simp only [CachingTree.looked, cached, Option.isNone_some, Bool.false_and,
              Bool.false_eq_true, if_false]
          rw [same]
          exact sound
  | none =>
      rw [run_missed kdlFrame cached] at ran
      cases searched : state.tree.findSharedAncestor fuel lookup.fromTf lookup.toTf with
      | error fault =>
          rw [searched] at ran
          cases ran
      | ok result =>
          obtain ⟨found, after⟩ := result
          rw [searched] at ran
          rcases findSharedAncestor_ok searched with ⟨rfl, rfl⟩ |
            ⟨rfl, fromNode, toNode, top, _, _, join, _, _, nodes, cache⟩
          · cases ran
            have same : state.looked lookup state.tree = state := by
              simp only [CachingTree.looked, cached, Option.isNone_none, Option.isSome_none,
                Bool.and_false, Bool.false_eq_true, if_false]
            rw [same]
            exact sound
          · have present : ∀ name, after.node name = state.tree.node name := fun name => by
              rw [TransformTree.node, TransformTree.node, nodes]
            dsimp only [Except.bind] at ran
            rw [if_pos rfl, getTransform_of_nodes kdlFrame (by rw [present]; exact fromNode)
              (by rw [present]; exact toNode)] at ran
            cases climbed : after.climbs kdlFrame (after.sharedAncestor lookup.token) lookup fuel with
            | error fault =>
                rw [climbed] at ran
                cases ran
            | ok found =>
                rw [climbed] at ran
                cases ran
                exact sound.found cached join fromNode nodes cache

theorem Sound.step {state next : CachingTree Scalar} {call : TreeCall Scalar Frame} {fuel : Nat}
    (sound : state.Sound) (steadfast : state.Steadfast call)
    (stepped : state.step kdlFrame fuel call = some next) : next.Sound := by
  cases call with
  | addTransformNode transform isStatic =>
      simp only [CachingTree.step] at stepped
      split at stepped
      · rename_i added
        cases stepped
        exact sound.addTransformNode added
      · cases stepped
  | transform lookup =>
      simp only [CachingTree.step] at stepped
      split at stepped
      · rename_i found ran
        cases stepped
        exact sound.looked kdlFrame steadfast ran
      · cases stepped

/-- After calls of which each lookup is steadfast, so is the next: every one of them ends
as it would with an empty cache. -/
theorem transparent_of_steadfast {fuel : Nat} {run : List (TreeCall Scalar Frame)}
    {final : CachingTree Scalar}
    (executed : (machine kdlFrame fuel).exec initial run = some final)
    (steadfast : (machine kdlFrame fuel).Obeys Steadfast initial run) {lookup : Lookup Frame}
    (now : final.Steadfast (.transform lookup)) : Transparent kdlFrame lookup final.tree := by
  have along : (machine kdlFrame fuel).Along Sound initial run :=
    (machine kdlFrame fuel).along_of_obeys
      (fun _ _ _ sound allowed stepped => Sound.step kdlFrame sound allowed stepped)
      initial_sound steadfast
  exact (along.final executed).transparent kdlFrame now

end Runs

/-- The condition, with a bound on the way to the root, can be evaluated. -/
def Checked (state : CachingTree Scalar) : TreeCall Scalar Frame → Prop
  | .addTransformNode _ _ => True
  | .transform lookup =>
      (state.tree.sharedAncestor lookup.token).isSome →
        (∀ pair ∈ state.pairs, ancestorToken pair.1 pair.2 = lookup.token →
          pair = (lookup.fromTf, lookup.toTf) ∨ pair = (lookup.toTf, lookup.fromTf)) ∧
        leadsToRoot state.tree.parent 4 lookup.fromTf = true

instance (state : CachingTree Scalar) :
    (call : TreeCall Scalar Frame) → Decidable (state.Checked call)
  | .addTransformNode _ _ => isTrue trivial
  | .transform _ => inferInstanceAs (Decidable (_ → _ ∧ _))

theorem Checked.steadfast (state : CachingTree Scalar) (call : TreeCall Scalar Frame)
    (checked : state.Checked call) : state.Steadfast call := by
  cases call with
  | addTransformNode _ _ => trivial
  | transform lookup =>
      intro hit
      obtain ⟨alone, leads⟩ := checked hit
      exact ⟨alone, exists_path_of_leadsToRoot leads⟩

def lookAcross (fromTf toTf : String) : Lookup HalfTurn := ⟨1, fromTf, toTf, ⟨0, 0⟩, -1⟩

def addUnderRoot (childFrameId : String) (x : Int) : TreeCall Int HalfTurn :=
  .addTransformNode (HalfTurn.call childFrameId x ⟨0, 0, 0, 1⟩).1 false

/-- Siblings looked up, and again the other way round once the tree has grown. -/
def lookBack : List (TreeCall Int HalfTurn) :=
  [addUnderRoot "a" 1, addUnderRoot "b" 3, .transform (lookAcross "a" "b"), addUnderRoot "c" 5]

def lookBackFinal : CachingTree Int :=
  ((machine HalfTurn.frame 8).exec initial lookBack).getD initial

theorem transparent_of_steadfast_lookBack :
    (lookBackFinal.tree.sharedAncestor (lookAcross "b" "a").token).isSome = true ∧
      Transparent HalfTurn.frame (lookAcross "b" "a") lookBackFinal.tree := by
  have enabled : ((machine HalfTurn.frame 8).exec initial lookBack).isSome = true := by
    decide +kernel
  have executed : (machine HalfTurn.frame 8).exec initial lookBack = some lookBackFinal := by
    obtain ⟨final, executed⟩ := Option.isSome_iff_exists.mp enabled
    rw [lookBackFinal, executed]
    rfl
  have checked : (machine HalfTurn.frame 8).Obeys Checked initial lookBack := by decide +kernel
  have last : lookBackFinal.Checked (.transform (lookAcross "b" "a")) := by decide +kernel
  exact ⟨by decide +kernel, transparent_of_steadfast HalfTurn.frame executed
    (checked.mono Checked.steadfast) (last.steadfast)⟩

/-- The root of two siblings is put under one of them after their lookup. -/
def closeLoop : List (TreeCall Int HalfTurn) :=
  [addUnderRoot "a" 1, addUnderRoot "b" 3, .transform (lookAcross "a" "b"),
    .addTransformNode ⟨⟨⟨0, 0⟩, "a"⟩, "root", ⟨7, 0, 0⟩, ⟨0, 0, 0, 1⟩⟩ false]

def closeLoopFinal : CachingTree Int :=
  ((machine HalfTurn.frame 8).exec initial closeLoop).getD initial

theorem closeLoop_not_transparent :
    ∃ final, (machine HalfTurn.frame 8).exec initial closeLoop = some final ∧
      ¬ Transparent HalfTurn.frame (lookAcross "a" "b") final.tree := by
  have enabled : ((machine HalfTurn.frame 8).exec initial closeLoop).isSome = true := by
    decide +kernel
  obtain ⟨final, executed⟩ := Option.isSome_iff_exists.mp enabled
  have same : closeLoopFinal = final := by
    rw [closeLoopFinal, executed]
    rfl
  subst same
  refine ⟨closeLoopFinal, executed, fun transparent => ?_⟩
  obtain ⟨answer, withCache, without⟩ := transparent
  have hit : ((lookAcross "a" "b").answer HalfTurn.frame closeLoopFinal.tree 8).toOption =
      some (true, ⟨2, 0, 0, false⟩) := by decide +kernel
  have missed : ((lookAcross "a" "b").answer HalfTurn.frame closeLoopFinal.tree.emptied 8).toOption =
      some (false, 1) := by decide +kernel
  have kept := withCache.unique (answer_steady _ _ _) (Returns.of_toOption hit)
  have lost := without.unique (answer_steady _ _ _) (Returns.of_toOption missed)
  cases kept.symm.trans lost

end CachingTree

end ProtoCore.Transform
