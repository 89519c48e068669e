import ProtoCore.Transform.ArrivalOrder
import ProtoCore.Transform.LookupOutcome

/-!
# Conflicting parents

`addTransformNode` creates the nodes, sets the static flag and pushes the entry before it
compares the parents, and logs a conflict when all of this has happened.
-/

set_option autoImplicit false

namespace ProtoCore.Transform

open Library

variable {Scalar Frame : Type}

/-- Calls of `addTransformNode`, one after another. -/
def adding : Machine (TransformTree Scalar) (TransformD Scalar × Bool) where
  step tree call := (tree.addTransformNode call.1 call.2).toOption

namespace TransformTree

/-- The frame id of the parent of a node. -/
def parentFrame (tree : TransformTree Scalar) (name : String) : Option String :=
  (tree.parent name).bind fun above => (tree.node above).map TransformTreeNode.frameId

/-- Every entry is a transform to the node's parent. -/
def Labelled (tree : TransformTree Scalar) : Prop :=
  ∀ name node, tree.node name = some node → ∀ entry ∈ node.valueTimeSeries,
    tree.parentFrame name = some entry.header.frameId

def Conflicts (tree : TransformTree Scalar) (call : TransformD Scalar × Bool) : Prop :=
  ∃ frame, tree.parentFrame call.1.childFrameId = some frame ∧ frame ≠ call.1.header.frameId

def entries (tree : TransformTree Scalar) (name : String) : List (TransformD Scalar) :=
  ((tree.node name).map TransformTreeNode.valueTimeSeries).getD []

def isStatic (tree : TransformTree Scalar) (name : String) : Bool :=
  ((tree.node name).map TransformTreeNode.isStatic).getD false

/-- The same entries and static flags, and the same answer to every lookup. -/
structure Unchanged (kdlFrame : Vector3 Scalar → Quaternion Scalar → Frame)
    [Mul Frame] [Inv Frame] [One Frame] (tree next : TransformTree Scalar) : Prop where
  entries : ∀ name, next.entries name = tree.entries name
  flags : ∀ name, next.isStatic name = tree.isStatic name
  answers : ∀ (lookup : Lookup Frame) fuel,
    lookup.answer kdlFrame next fuel = lookup.answer kdlFrame tree fuel

/-- A transform with another parent than that of the node is rejected. -/
def Rejects (kdlFrame : Vector3 Scalar → Quaternion Scalar → Frame)
    [Mul Frame] [Inv Frame] [One Frame] (tree : TransformTree Scalar)
    (call : TransformD Scalar × Bool) : Prop :=
  tree.Conflicts call → ∀ next, tree.addTransformNode call.1 call.2 = .ok next →
    Unchanged kdlFrame tree next

/-- A transform with another parent finds this parent in the tree. A static one finds the node
static. Its stamp is there already, or the node is not static and drops the transform at once
for its difference to a later one. -/
def Harmless (tree : TransformTree Scalar) (call : TransformD Scalar × Bool) : Prop :=
  tree.Conflicts call → tree.count call.1.header.frameId = true ∧
    ∀ node, tree.node call.1.childFrameId = some node →
      (call.2 = true → node.isStatic = true) ∧
      ((∃ entry ∈ node.valueTimeSeries, entry.stamp = call.1.stamp) ∨
        node.isStatic = false ∧ ∃ newest, node.valueTimeSeries.getLast? = some newest ∧
          call.1.stamp.before newest.stamp = true ∧
          node.memoryDuration < timeDiffMs newest.stamp call.1.stamp)

end TransformTree

namespace TransformTreeNode

/-- What holds of every node under its name in a tree that has been built. -/
structure Settled (name : String) (node : TransformTreeNode Scalar) : Prop where
  named : node.frameId = name
  duration : node.memoryDuration = 1000
  ordered : OrderedBy TransformD.stamp node.series.entries
  current : node.series.Current TransformD.stamp expires

theorem settled_new (name : String) : Settled name (new name : TransformTreeNode Scalar) where
  named := rfl
  duration := rfl
  ordered := List.Pairwise.nil
  current _ _ last := by cases last

theorem push_eq (node : TransformTreeNode Scalar) (transform : TransformD Scalar) :
    node.push transform = { node with
      valueTimeSeries := (node.push transform).valueTimeSeries } := by
  unfold push
  dsimp only
  split
  · rfl
  · unfold cleanup
    split <;> rfl

theorem receive_eq (node : TransformTreeNode Scalar) (call : TransformD Scalar × Bool) :
    node.receive call = { node with
      isStatic := (node.receive call).isStatic
      valueTimeSeries := (node.receive call).valueTimeSeries } := by
  unfold receive
  rw [push_eq]
  split <;> rfl

theorem Settled.receive {name : String} {node : TransformTreeNode Scalar}
    (settled : Settled name node) (call : TransformD Scalar × Bool) (parent : Option String) :
    Settled name { node.receive call with parent } where
  named := by
    rw [receive_eq]
    exact settled.named
  duration := (receive_memoryDuration node call).trans settled.duration
  ordered := by
    have series := receive_series settled.duration call
    change OrderedBy TransformD.stamp (node.receive call).series.entries
    rw [series]
    exact Series.ordered_receive settled.ordered call
  current := by
    have series := receive_series settled.duration call
    change (node.receive call).series.Current TransformD.stamp expires
    rw [series]
    exact Series.current_receive expires_self node.series call

theorem mem_receive {node : TransformTreeNode Scalar} (duration : node.memoryDuration = 1000)
    {call : TransformD Scalar × Bool} {entry : TransformD Scalar}
    (member : entry ∈ (node.receive call).valueTimeSeries) :
    entry = call.1 ∨ entry ∈ node.valueTimeSeries := by
  have entries := congrArg Series.entries (receive_series duration call)
  have inside : entry ∈ (node.series.receive TransformD.stamp expires call).entries :=
    entries ▸ member
  exact Series.mem_of_mem_receive inside

/-- A call leaves a node as it is exactly if the node is marked already and spurns the entry. -/
theorem Settled.receive_eq_self_iff {name : String} {node : TransformTreeNode Scalar}
    (settled : Settled name node) (call : TransformD Scalar × Bool) :
    node.receive call = node ↔
      (call.2 = true → node.isStatic = true) ∧
        node.series.Spurned TransformD.stamp expires call.1 := by
  have received := receive_series settled.duration call
  have exactly := Series.receive_eq_self_iff expires_self settled.ordered settled.current call
  rw [← received] at exactly
  refine Iff.trans ⟨congrArg series, fun same => ?_⟩ exactly
  have marked := congrArg Series.retaining same
  have kept := congrArg Series.entries same
  dsimp only [series] at marked kept
  rw [receive_eq, marked, kept]

end TransformTreeNode

namespace TransformTree

structure Settled (tree : TransformTree Scalar) : Prop where
  built : tree.WellBuilt
  nodes : ∀ name node, tree.node name = some node → node.Settled name

theorem empty_settled : (empty : TransformTree Scalar).Settled :=
  ⟨empty_wellBuilt, nofun⟩

theorem Settled.addTransformNode {tree next : TransformTree Scalar} (settled : tree.Settled)
    {call : TransformD Scalar × Bool} (added : tree.addTransformNode call.1 call.2 = .ok next) :
    next.Settled where
  built := by
    obtain ⟨other, same, built⟩ := settled.built.addTransformNode call.1 call.2
    exact Except.ok.inj (added.symm.trans same) ▸ built
  nodes name node located := by
    have before : ∀ name, ((tree.node name).getD (.new name)).Settled name := by
      intro name
      cases found : tree.node name with
      | none => exact TransformTreeNode.settled_new name
      | some other => exact settled.nodes name other found
    rw [node_addTransformNode settled.built added] at located
    split at located
    · rename_i child
      cases located
      rw [child]
      exact (before _).receive call _
    · split at located
      · rename_i frame
        cases located
        exact frame ▸ before _
      · exact settled.nodes name node located

theorem Settled.parentFrame_eq {tree : TransformTree Scalar} (settled : tree.Settled)
    (name : String) : tree.parentFrame name = tree.parent name := by
  unfold TransformTree.parentFrame
  cases linked : tree.parent name with
  | none => rfl
  | some above =>
      obtain ⟨node, located⟩ := Option.isSome_iff_exists.mp (settled.built.parents name above linked)
      rw [Option.bind_some, located, Option.map_some, (settled.nodes above node located).named]

theorem Settled.conflicts_iff {tree : TransformTree Scalar} (settled : tree.Settled)
    (call : TransformD Scalar × Bool) :
    tree.Conflicts call ↔ ∃ node above, tree.node call.1.childFrameId = some node ∧
      node.parent = some above ∧ above ≠ call.1.header.frameId := by
  unfold Conflicts
  rw [settled.parentFrame_eq]
  constructor
  · intro conflict
    obtain ⟨above, linked, other⟩ := conflict
    obtain ⟨node, located, pointed⟩ := Option.bind_eq_some_iff.mp linked
    exact ⟨node, above, located, pointed, other⟩
  · intro conflict
    obtain ⟨node, above, located, pointed, other⟩ := conflict
    exact ⟨above, Option.bind_eq_some_iff.mpr ⟨node, located, pointed⟩, other⟩

/-- In the words of the series. -/
theorem Settled.harmless_iff {tree : TransformTree Scalar} (settled : tree.Settled)
    {call : TransformD Scalar × Bool} {node : TransformTreeNode Scalar}
    (located : tree.node call.1.childFrameId = some node) (conflict : tree.Conflicts call) :
    tree.Harmless call ↔ tree.count call.1.header.frameId = true ∧ node.receive call = node := by
  have valid := settled.nodes _ node located
  rw [valid.receive_eq_self_iff]
  unfold Harmless Series.Spurned
  simp only [conflict, true_implies, located, Option.some.injEq, forall_eq', valid.duration,
    expires, decide_eq_true_eq, Timestamp.before_iff_lt, TransformTreeNode.series]

theorem WellBuilt.ext {tree other : TransformTree Scalar} (built : tree.WellBuilt)
    (otherBuilt : other.WellBuilt) (same : ∀ name, other.node name = tree.node name) :
    other = tree := by
  have pointers : ∀ {one : TransformTree Scalar}, one.WellBuilt → ∀ name,
      one.nodes name = (one.node name).map some := by
    intro one valid name
    cases stored : one.nodes name with
    | none =>
        rw [TransformTree.node, stored]
        rfl
    | some pointer =>
        have present := valid.stored name (by rw [count, stored]; rfl)
        rw [TransformTree.node, stored] at present ⊢
        cases pointer with
        | none => cases present
        | some node => rfl
  obtain ⟨nodes, cache⟩ := tree
  obtain ⟨otherNodes, otherCache⟩ := other
  congr 1
  · funext name
    have between := congrArg (Option.map some) (same name)
    exact (pointers otherBuilt name).trans (between.trans (pointers built name).symm)
  · funext token
    exact (otherBuilt.uncached token).trans (built.uncached token).symm

/-- A harmless conflict changes nothing at all. -/
theorem Settled.eq_of_harmless {tree next : TransformTree Scalar} (settled : tree.Settled)
    {call : TransformD Scalar × Bool} (conflict : tree.Conflicts call)
    (harmless : tree.Harmless call)
    (added : tree.addTransformNode call.1 call.2 = .ok next) : next = tree := by
  obtain ⟨node, above, located, pointed, _⟩ := (settled.conflicts_iff call).mp conflict
  obtain ⟨known, same⟩ := (settled.harmless_iff located conflict).mp harmless
  refine settled.built.ext (settled.addTransformNode added).built fun name => ?_
  rw [node_addTransformNode settled.built added]
  split
  · rename_i child
    have linked : node.parent.or (some call.1.header.frameId) = node.parent := by
      rw [pointed, Option.some_or]
    rw [child, located, Option.getD_some, same, linked]
  · split
    · rename_i frame
      obtain ⟨found, present⟩ := Option.isSome_iff_exists.mp (settled.built.stored _ known)
      rw [frame, present, Option.getD_some]
    · rfl

theorem Settled.parent_of_entry {tree : TransformTree Scalar} (settled : tree.Settled)
    (labelled : tree.Labelled) {name : String} {node : TransformTreeNode Scalar}
    (located : tree.node name = some node) {entry : TransformD Scalar}
    (member : entry ∈ node.valueTimeSeries) : node.parent = some entry.header.frameId := by
  have labels := labelled name node located entry member
  have parents : tree.parent name = (tree.node name).bind TransformTreeNode.parent := rfl
  rw [settled.parentFrame_eq, parents, located] at labels
  exact labels

/-- The entries of a node after a transform to the parent it has, or gets. -/
theorem Settled.parent_of_received {tree : TransformTree Scalar} (settled : tree.Settled)
    (labelled : tree.Labelled) {call : TransformD Scalar × Bool}
    (agrees : ¬ tree.Conflicts call) {old : TransformTreeNode Scalar}
    (found : tree.node call.1.childFrameId = some old) {entry : TransformD Scalar}
    (member : entry ∈ (old.receive call).valueTimeSeries) :
    old.parent.or (some call.1.header.frameId) = some entry.header.frameId := by
  have kept := (settled.nodes _ old found).duration
  cases pointed : old.parent with
  | none =>
      rcases TransformTreeNode.mem_receive kept member with rfl | among
      · rfl
      · cases pointed.symm.trans (settled.parent_of_entry labelled found among)
  | some above =>
      have same : above = call.1.header.frameId := by
        by_contra other
        exact agrees ((settled.conflicts_iff call).mpr ⟨old, above, found, pointed, other⟩)
      rcases TransformTreeNode.mem_receive kept member with rfl | among
      · rw [Option.some_or, same]
      · rw [Option.some_or, ← pointed]
        exact settled.parent_of_entry labelled found among

/-- The entries stay transforms to the parent. -/
theorem Settled.labelled_addTransformNode {tree next : TransformTree Scalar}
    (settled : tree.Settled) (labelled : tree.Labelled) {call : TransformD Scalar × Bool}
    (harmless : tree.Harmless call)
    (added : tree.addTransformNode call.1 call.2 = .ok next) : next.Labelled := by
  by_cases conflict : tree.Conflicts call
  · rw [settled.eq_of_harmless conflict harmless added]
    exact labelled
  · intro name node located entry member
    rw [(settled.addTransformNode added).parentFrame_eq, TransformTree.parent, located,
      Option.bind_some]
    rw [node_addTransformNode settled.built added] at located
    split at located
    · cases located
      cases found : tree.node call.1.childFrameId with
      | none =>
          simp only [found, Option.getD_none] at member ⊢
          rcases TransformTreeNode.mem_receive rfl member with rfl | old
          · rfl
          · cases old
      | some old =>
          simp only [found, Option.getD_some] at member ⊢
          exact settled.parent_of_received labelled conflict found member
    · split at located
      · cases found : tree.node call.1.header.frameId with
        | none =>
            rw [found] at located
            cases located
            cases member
        | some old =>
            rw [found] at located
            cases located
            exact settled.parent_of_entry labelled found member
      · exact settled.parent_of_entry labelled located member

section Conflicts

variable (kdlFrame : Vector3 Scalar → Quaternion Scalar → Frame) [Mul Frame] [Inv Frame] [One Frame]

/-- A root is its own ancestor. -/
theorem WellBuilt.answer_root {tree : TransformTree Scalar} (built : tree.WellBuilt)
    {lookup : Lookup Frame} (known : tree.count lookup.fromTf = true)
    (same : lookup.toTf = lookup.fromTf) (last : tree.parent lookup.fromTf = none) :
    lookup.answer kdlFrame tree 1 = .ok (true, 1⁻¹) := by
  have fromNode := built.stored _ known
  have toNode : (tree.node lookup.toTf).isSome := same ▸ fromNode
  have toPath : Path tree.parent lookup.toTf [] lookup.fromTf := same ▸ .here _
  have found := findSharedAncestor_of_first fromNode toNode (.here _) last (.here _) toPath
    (.here _) (fun other member => absurd member List.not_mem_nil) (show 0 + 0 < 1 by decide)
  rw [answer_found kdlFrame (built.uncached _) fromNode toNode found rfl (Function.update_self ..)]
  simp only [climbs, climb, same, if_true, bind, Except.bind, Bool.not_true, Bool.false_eq_true,
    if_false]

theorem Settled.rejects_iff_harmless {tree next : TransformTree Scalar} (settled : tree.Settled)
    {call : TransformD Scalar × Bool}
    (added : tree.addTransformNode call.1 call.2 = .ok next) :
    tree.Rejects kdlFrame call ↔ tree.Harmless call := by
  constructor
  · intro rejects conflict
    obtain ⟨node, above, located, pointed, _⟩ := (settled.conflicts_iff call).mp conflict
    have unchanged := rejects conflict next added
    have after := node_addTransformNode settled.built added
    dsimp only at after
    refine (settled.harmless_iff located conflict).mpr ⟨?_, ?_⟩ conflict
    · -- a new frame would be found under its own name
      by_contra unknown
      have absent : tree.node call.1.header.frameId = none := by
        cases found : tree.node call.1.header.frameId with
        | none => rfl
        | some other => exact absurd (count_of_node (found ▸ rfl)) unknown
      have other : call.1.header.frameId ≠ call.1.childFrameId := by
        intro same
        rw [same, located] at absent
        cases absent
      have created := after call.1.header.frameId
      rw [if_neg other, if_pos rfl, absent, Option.getD_none] at created
      let lookup : Lookup Frame := ⟨1, call.1.header.frameId, call.1.header.frameId, ⟨0, 0⟩, 0⟩
      have known : next.count lookup.fromTf = true := count_of_node (created ▸ rfl)
      have orphan : next.parent lookup.fromTf = none := by
        rw [TransformTree.parent, created]
        rfl
      have answers := unchanged.answers lookup 1
      rw [(settled.addTransformNode added).built.answer_root kdlFrame known rfl orphan,
        answer_missed kdlFrame (settled.built.uncached _),
        findSharedAncestor_unknown fun both => unknown both.1] at answers
      cases answers
    · have child := after call.1.childFrameId
      rw [if_pos rfl, located, Option.getD_some] at child
      have entries := unchanged.entries call.1.childFrameId
      have flags := unchanged.flags call.1.childFrameId
      rw [TransformTree.entries, TransformTree.entries, child, located] at entries
      rw [TransformTree.isStatic, TransformTree.isStatic, child, located] at flags
      simp only [Option.map_some, Option.getD_some] at entries flags
      rw [TransformTreeNode.receive_eq, entries, flags]
  · intro harmless conflict other again
    rw [settled.eq_of_harmless conflict harmless again]
    exact ⟨fun _ => rfl, fun _ => rfl, fun _ _ => rfl⟩

/-- In every tree that any calls build, each entry is a transform to its node's parent and
conflicting transforms are rejected, if and only if every conflicting transform is harmless. -/
theorem labelled_and_rejects_iff_harmless (calls : List (TransformD Scalar × Bool)) :
    adding.Along Labelled (empty : TransformTree Scalar) calls ∧
        adding.Obeys (Rejects kdlFrame) empty calls ↔
      adding.Obeys Harmless empty calls := by
  have stepped : ∀ {tree next : TransformTree Scalar} {call : TransformD Scalar × Bool},
      adding.step tree call = some next → tree.addTransformNode call.1 call.2 = .ok next := by
    intro tree next call taken
    change (tree.addTransformNode call.1 call.2).toOption = some next at taken
    cases added : tree.addTransformNode call.1 call.2 with
    | error fault =>
        rw [added] at taken
        cases taken
    | ok found =>
        rw [added] at taken
        cases taken
        rfl
  have rejects := adding.obeys_iff_of_preserved Settled
    (fun _ _ _ settled taken => settled.addTransformNode (stepped taken))
    (fun _ _ _ settled taken => settled.rejects_iff_harmless kdlFrame (stepped taken))
    empty_settled calls
  rw [rejects]
  refine ⟨And.right, fun harmless => ⟨?_, harmless⟩⟩
  have preserved : ∀ (tree : TransformTree Scalar) call next, Settled tree ∧ tree.Labelled →
      tree.Harmless call → adding.step tree call = some next →
      Settled next ∧ next.Labelled := by
    rintro tree call next ⟨settled, labelled⟩ harmless taken
    exact ⟨settled.addTransformNode (stepped taken),
      settled.labelled_addTransformNode labelled harmless (stepped taken)⟩
  have along := adding.along_of_obeys preserved ⟨empty_settled, nofun⟩ harmless
  exact along.mono fun _ both => both.2

end Conflicts

/-- A frame gets a second parent one second later. -/
def secondParent : List (TransformD Int × Bool) :=
  [HalfTurn.call "a" 1 ⟨0, 0, 0, 1⟩, (⟨⟨⟨1, 0⟩, "world"⟩, "a", ⟨3, 0, 0⟩, ⟨0, 0, 0, 1⟩⟩, false)]

def secondParentFinal : TransformTree Int := (adding.exec empty secondParent).getD empty

theorem secondParent_not_rejected :
    ¬ (adding.Along Labelled (empty : TransformTree Int) secondParent ∧
      adding.Obeys (Rejects HalfTurn.frame) empty secondParent) := by
  intro both
  have enabled : (adding.exec (empty : TransformTree Int) secondParent).isSome = true := by
    decide +kernel
  have executed : adding.exec (empty : TransformTree Int) secondParent = some secondParentFinal := by
    obtain ⟨final, executed⟩ := Option.isSome_iff_exists.mp enabled
    rw [secondParentFinal, executed]
    rfl
  have labelled := both.1.final executed
  have mixed : (secondParentFinal.node "a").map (fun node => node.valueTimeSeries.all fun entry =>
      secondParentFinal.parentFrame "a" = some entry.header.frameId) = some false := by
    decide +kernel
  obtain ⟨node, located, different⟩ := Option.map_eq_some_iff.mp mixed
  have same := List.all_eq_true.mpr fun entry member =>
    decide_eq_true (labelled "a" node located entry member)
  cases same.symm.trans different

end TransformTree

end ProtoCore.Transform
