import Mathlib.Data.Prod.Lex
import ProtoCore.Library.RetainedSeries
import ProtoCore.Transform.AncestorCache

/-!
# The order of arrival

Trees that have been given the same transforms in different orders. A node keeps the
first of the transforms with one stamp, and each arrival drops what it makes outdated.
-/

set_option autoImplicit false

namespace ProtoCore.Transform

open Library

variable {Scalar Frame : Type}

/-! ## Stamps -/

def Timestamp.toPair (stamp : Timestamp) : ℤ ×ₗ ℤ := toLex (stamp.seconds, stamp.nanos)

theorem Timestamp.toPair_injective : Function.Injective Timestamp.toPair := by
  intro left right same
  obtain ⟨seconds, nanos⟩ := Prod.mk.inj (toLex.injective same)
  cases left
  cases right
  simp only at seconds nanos
  rw [seconds, nanos]

instance : LinearOrder Timestamp := .lift' Timestamp.toPair Timestamp.toPair_injective

theorem Timestamp.before_iff_lt (left right : Timestamp) :
    left.before right = true ↔ left < right := by
  have pairs : left < right ↔
      toLex (left.seconds, left.nanos) < toLex (right.seconds, right.nanos) :=
    Iff.rfl
  rw [pairs, Prod.Lex.toLex_lt_toLex, Timestamp.before, Bool.or_eq_true, Bool.and_eq_true,
    decide_eq_true_iff, decide_eq_true_iff, decide_eq_true_iff]

/-- Whether a node drops an entry of one stamp when its newest entry has another. -/
def expires (newest stamp : Timestamp) : Bool := decide (1000 < timeDiffMs newest stamp)

theorem expires_self (stamp : Timestamp) : expires stamp stamp = false := by
  simp only [expires, timeDiffMs, Int.sub_self, Int.zero_mul, Int.zero_tdiv]
  rfl

/-! ## The series of a node -/

theorem insertEntry_eq (entry : TransformD Scalar) (entries : List (TransformD Scalar)) :
    insertEntry entry entries = insertByKey TransformD.stamp entry entries := by
  induction entries with
  | nil => rfl
  | cons first rest ih =>
      rw [insertEntry, insertByKey, ih]
      simp only [Timestamp.before_iff_lt]

namespace TransformTreeNode

def series (node : TransformTreeNode Scalar) : Series (TransformD Scalar) :=
  ⟨node.isStatic, node.valueTimeSeries⟩

/-- What a call of `addTransformNode` does to its child, apart from the parent. -/
def receive (node : TransformTreeNode Scalar) (call : TransformD Scalar × Bool) :
    TransformTreeNode Scalar :=
  (if call.2 then { node with isStatic := true } else node).push call.1

theorem push_series (node : TransformTreeNode Scalar) (transform : TransformD Scalar)
    (duration : node.memoryDuration = 1000) :
    (node.push transform).series = ⟨node.isStatic, if node.isStatic then
      insertByKey TransformD.stamp transform node.valueTimeSeries
      else prune TransformD.stamp expires
        (insertByKey TransformD.stamp transform node.valueTimeSeries)⟩ := by
  unfold push series
  rw [insertEntry_eq]
  dsimp only
  cases last : (insertByKey TransformD.stamp transform node.valueTimeSeries).getLast? with
  | none =>
      dsimp only [prune]
      rw [last, ite_self]
  | some newest =>
      dsimp only [cleanup, prune]
      rw [last]
      split
      · rfl
      · rw [duration]
        rfl

theorem receive_series {node : TransformTreeNode Scalar} (duration : node.memoryDuration = 1000)
    (call : TransformD Scalar × Bool) :
    (node.receive call).series = node.series.receive TransformD.stamp expires call := by
  obtain ⟨transform, isStatic⟩ := call
  unfold receive
  cases isStatic
  · rw [if_neg Bool.false_ne_true, push_series _ _ duration]
    simp only [Series.receive, series, Bool.or_false]
  · rw [if_pos rfl]
    have pushed := push_series { node with isStatic := true } transform duration
    apply pushed.trans
    simp only [Series.receive, series, Bool.or_true, if_true]

theorem push_memoryDuration (node : TransformTreeNode Scalar) (transform : TransformD Scalar) :
    (node.push transform).memoryDuration = node.memoryDuration := by
  unfold push
  dsimp only
  split
  · rfl
  · unfold cleanup
    split <;> rfl

theorem receive_memoryDuration (node : TransformTreeNode Scalar) (call : TransformD Scalar × Bool) :
    (node.receive call).memoryDuration = node.memoryDuration := by
  unfold receive
  rw [push_memoryDuration]
  split <;> rfl

theorem receive_parent (node : TransformTreeNode Scalar) (call : TransformD Scalar × Bool) :
    (node.receive call).parent = node.parent := by
  unfold receive
  rw [TransformTree.push_parent]
  split <;> rfl

end TransformTreeNode

/-! ## Trees as collections -/

/-- The transforms that name a frame as their child. -/
def own (calls : List (TransformD Scalar × Bool)) (name : String) :
    List (TransformD Scalar × Bool) :=
  calls.filter fun call => call.1.childFrameId = name

/-- The parent at first sight. -/
def parentOf (calls : List (TransformD Scalar × Bool)) (name : String) : Option String :=
  (own calls name).head?.map fun call => call.1.header.frameId

def Mentions (calls : List (TransformD Scalar × Bool)) (name : String) : Prop :=
  ∃ call ∈ calls, call.1.childFrameId = name ∨ call.1.header.frameId = name

namespace TransformTree

/-- The nodes of the tree, as the calls in their order have made them. -/
structure Assembled (calls : List (TransformD Scalar × Bool)) (tree : TransformTree Scalar) :
    Prop where
  present : ∀ name, (tree.node name).isSome = true ↔ Mentions calls name
  parents : ∀ name, tree.parent name = parentOf calls name
  series : ∀ name node, tree.node name = some node → node.memoryDuration = 1000 ∧
    node.series = Series.collect TransformD.stamp expires (own calls name)

theorem empty_assembled : Assembled [] (empty : TransformTree Scalar) where
  present name := by
    constructor
    · intro none
      cases none
    · intro mentioned
      obtain ⟨_, member, _⟩ := mentioned
      cases member
  parents _ := rfl
  series _ _ located := by cases located

theorem own_append (calls : List (TransformD Scalar × Bool)) (call : TransformD Scalar × Bool)
    (name : String) : own (calls ++ [call]) name =
      own calls name ++ if call.1.childFrameId = name then [call] else [] := by
  rw [own, List.filter_append, List.filter_singleton, Bool.cond_decide]
  rfl

theorem parentOf_append (calls : List (TransformD Scalar × Bool))
    (call : TransformD Scalar × Bool) (name : String) : parentOf (calls ++ [call]) name =
      (parentOf calls name).or
        (if call.1.childFrameId = name then some call.1.header.frameId else none) := by
  rw [parentOf, own_append, parentOf]
  cases (own calls name) with
  | nil =>
      split <;> rfl
  | cons first rest => rfl

theorem mentions_append {calls : List (TransformD Scalar × Bool)}
    {call : TransformD Scalar × Bool} {name : String} : Mentions (calls ++ [call]) name ↔
      Mentions calls name ∨ call.1.childFrameId = name ∨ call.1.header.frameId = name := by
  unfold Mentions
  simp only [List.mem_append, List.mem_singleton, or_and_right, exists_or, exists_eq_left]

theorem node_create {tree : TransformTree Scalar} (built : tree.WellBuilt) (name other : String) :
    (tree.create name).node other =
      if other = name then some ((tree.node name).getD (.new name)) else tree.node other := by
  unfold TransformTree.create
  split
  · rename_i counted
    obtain ⟨node, located⟩ := Option.isSome_iff_exists.mp (built.stored name counted)
    split
    · rename_i same
      rw [same, located]
      rfl
    · rfl
  · rename_i uncounted
    have absent : tree.node name = none := by
      cases located : tree.node name with
      | none => rfl
      | some node => exact absurd (count_of_node (located ▸ rfl)) uncounted
    rw [node_setNode, absent]
    rfl

/-- Both frames get their nodes, and the child receives the transform. -/
theorem node_addTransformNode {tree next : TransformTree Scalar} (built : tree.WellBuilt)
    {call : TransformD Scalar × Bool} (added : tree.addTransformNode call.1 call.2 = .ok next)
    (name : String) :
    let child := call.1.childFrameId
    let frame := call.1.header.frameId
    let node := (tree.node child).getD (.new child)
    next.node name =
      if name = child then some { node.receive call with parent := node.parent.or (some frame) }
      else if name = frame then some ((tree.node frame).getD (.new frame))
      else tree.node name := by
  intro child frame node
  have created : ((tree.create child).create frame).node child = some node := by
    rw [node_create (built.create child).1, node_create built, node_create built, if_pos rfl]
    split
    · rename_i same
      rw [← same, if_pos rfl]
      rfl
    · rfl
  have framed : ((tree.create child).create frame).node frame =
      some (((tree.create child).node frame).getD (.new frame)) := by
    rw [node_create (built.create child).1, if_pos rfl]
  have pointed : ((tree.create child).create frame).pointer frame = some frame :=
    pointer_of_node (framed ▸ rfl)
  have others : ∀ other, other ≠ child → ((tree.create child).create frame).node other =
      if other = frame then some ((tree.node frame).getD (.new frame)) else tree.node other := by
    intro other different
    rw [node_create (built.create child).1, node_create built, node_create built, if_neg different]
    split
    · rename_i same
      rw [if_neg (same ▸ different)]
    · rfl
  have received : node.receive call =
      (if call.2 then { node with isStatic := true } else node).push call.1 := rfl
  have parentSame := TransformTreeNode.receive_parent node call
  simp only [TransformTree.addTransformNode] at added
  rw [created] at added
  dsimp only at added
  rw [← received] at added
  split at added
  · rename_i orphan
    cases added
    rw [node_setNode, pointed]
    split
    · rw [← parentSame, orphan]
      rfl
    · rename_i different
      exact others name different
  · rename_i above linked
    cases added
    rw [node_setNode]
    split
    · have kept : node.parent.or (some frame) = (node.receive call).parent := by
        rw [← parentSame, linked]
        rfl
      rw [kept]
    · rename_i different
      exact others name different

theorem Assembled.node {calls : List (TransformD Scalar × Bool)} {tree : TransformTree Scalar}
    (assembled : Assembled calls tree) (name : String) :
    let node := (tree.node name).getD (.new name)
    node.parent = parentOf calls name ∧ node.memoryDuration = 1000 ∧
      node.series = Series.collect TransformD.stamp expires (own calls name) := by
  intro node
  cases located : tree.node name with
  | some found =>
      have same : node = found := by
        simp only [node, located, Option.getD_some]
      have linked := assembled.parents name
      rw [TransformTree.parent, located, Option.bind_some] at linked
      rw [same]
      exact ⟨linked, assembled.series name found located⟩
  | none =>
      have same : node = .new name := by
        simp only [node, located, Option.getD_none]
      have none : own calls name = [] := by
        apply List.filter_eq_nil_iff.mpr
        intro call member matched
        have mentioned : Mentions calls name := ⟨call, member, .inl (of_decide_eq_true matched)⟩
        rw [← assembled.present, located] at mentioned
        cases mentioned
      rw [same, parentOf, none]
      exact ⟨rfl, rfl, rfl⟩

theorem Assembled.addTransformNode {calls : List (TransformD Scalar × Bool)}
    {tree next : TransformTree Scalar} (assembled : Assembled calls tree) (built : tree.WellBuilt)
    {call : TransformD Scalar × Bool} (added : tree.addTransformNode call.1 call.2 = .ok next) :
    Assembled (calls ++ [call]) next := by
  have nodes := node_addTransformNode built added
  have before := assembled.node
  dsimp only at nodes before
  constructor
  · intro name
    rw [nodes, mentions_append, ← assembled.present]
    split
    · rename_i same
      exact ⟨fun _ => .inr (.inl same.symm), fun _ => rfl⟩
    · rename_i notChild
      split
      · rename_i same
        exact ⟨fun _ => .inr (.inr same.symm), fun _ => rfl⟩
      · rename_i notFrame
        constructor
        · exact .inl
        · intro mentioned
          rcases mentioned with known | child | frame
          · exact known
          · exact absurd child.symm notChild
          · exact absurd frame.symm notFrame
  · intro name
    rw [TransformTree.parent, nodes, parentOf_append]
    split
    · rename_i same
      subst same
      rw [if_pos rfl, ← (before _).1]
      rfl
    · rename_i notChild
      rw [if_neg (Ne.symm notChild), Option.or_none]
      split
      · rename_i same
        rw [same]
        exact (before _).1
      · exact assembled.parents name
  · intro name node located
    rw [nodes] at located
    rw [own_append]
    split at located
    · rename_i same
      subst same
      cases located
      obtain ⟨_, duration, series⟩ := before call.1.childFrameId
      rw [if_pos rfl, Series.collect, List.foldl_append, ← Series.collect, ← series]
      constructor
      · rw [← duration]
        exact TransformTreeNode.receive_memoryDuration _ call
      · exact TransformTreeNode.receive_series duration call
    · rename_i notChild
      rw [if_neg (Ne.symm notChild), List.append_nil]
      split at located
      · rename_i same
        cases located
        rw [same]
        exact (before _).2
      · exact assembled.series name node located

theorem wellBuilt_of_build {calls : List (TransformD Scalar × Bool)} {tree : TransformTree Scalar}
    (built : build calls = .ok tree) : tree.WellBuilt := by
  obtain ⟨other, same, wellBuilt⟩ := build_wellBuilt calls
  cases built.symm.trans same
  exact wellBuilt

theorem build_assembled {calls : List (TransformD Scalar × Bool)} {tree : TransformTree Scalar}
    (built : build calls = .ok tree) : Assembled calls tree := by
  have extend : ∀ (later earlier : List (TransformD Scalar × Bool)) (start : TransformTree Scalar),
      start.WellBuilt → Assembled earlier start →
      later.foldlM (fun tree call => tree.addTransformNode call.1 call.2) start = .ok tree →
      Assembled (earlier ++ later) tree := by
    intro later
    induction later with
    | nil =>
        intro earlier start _ assembled folded
        cases folded
        rw [List.append_nil]
        exact assembled
    | cons call later ih =>
        intro earlier start wellBuilt assembled folded
        obtain ⟨next, added, nextBuilt⟩ := wellBuilt.addTransformNode call.1 call.2
        rw [List.foldlM_cons, added] at folded
        rw [List.append_cons]
        exact ih _ next nextBuilt (assembled.addTransformNode wellBuilt added) folded
  exact extend calls [] empty empty_wellBuilt empty_assembled built

end TransformTree

/-! ## What a lookup reads of a node -/

section Reading

variable (kdlFrame : Vector3 Scalar → Quaternion Scalar → Frame)

def posed (transform : TransformD Scalar) : Frame := transform.toKDL kdlFrame

namespace TransformTreeNode

/-- A node gives its last entry, or the entry for a stamp, by stamps and poses alone. -/
theorem transform_of_static {node : TransformTreeNode Scalar} (isStatic : node.isStatic = true)
    (leastStamp : Timestamp) (toleranceMs : Int) :
    node.transform kdlFrame leastStamp toleranceMs =
      node.valueTimeSeries.getLast?.map (posed kdlFrame) := by
  unfold transform selected
  cases node.valueTimeSeries.getLast? with
  | none => rfl
  | some last =>
      rw [isStatic]
      rfl

def read (entries : List (Timestamp × Frame)) (leastStamp : Timestamp) (toleranceMs : Int) :
    Option Frame :=
  match entries.getLast? with
  | none => none
  | some last =>
      if toleranceMs < 0 then some last.2
      else
        let found := (entries.find? fun entry => !entry.1.before leastStamp).getD last
        if ((timeDiffMs leastStamp found.1).natAbs : Int) ≤ toleranceMs then some found.2 else none

theorem transform_of_pruning {node : TransformTreeNode Scalar} (pruning : node.isStatic = false)
    (leastStamp : Timestamp) (toleranceMs : Int) :
    node.transform kdlFrame leastStamp toleranceMs =
      read (node.valueTimeSeries.map fun entry => (entry.stamp, posed kdlFrame entry)) leastStamp
        toleranceMs := by
  unfold transform selected read
  rw [List.getLast?_map]
  cases node.valueTimeSeries.getLast? with
  | none => rfl
  | some last =>
      rw [pruning, List.find?_map]
      simp only [Option.map_some, Bool.false_or, decide_eq_true_eq]
      split
      · rfl
      · have same : ((fun entry : Timestamp × Frame => !entry.1.before leastStamp) ∘
            fun entry : TransformD Scalar => (entry.stamp, posed kdlFrame entry)) =
            fun entry => !entry.stamp.before leastStamp := rfl
        rw [same]
        cases node.valueTimeSeries.find? fun entry => !entry.stamp.before leastStamp with
        | none =>
            simp only [Option.map_none, Option.getD_none]
            split <;> rfl
        | some found =>
            simp only [Option.map_some, Option.getD_some]
            split <;> rfl

/-- Orders of agreeing transforms leave nodes that give the same poses. -/
theorem transform_eq {first second : List (TransformD Scalar × Bool)}
    (agreeing : Agreeing TransformD.stamp expires (posed kdlFrame) first)
    (same : second.Perm first) {node other : TransformTreeNode Scalar}
    (one : node.series = Series.collect TransformD.stamp expires first)
    (two : other.series = Series.collect TransformD.stamp expires second)
    (leastStamp : Timestamp) (toleranceMs : Int) :
    other.transform kdlFrame leastStamp toleranceMs =
      node.transform kdlFrame leastStamp toleranceMs := by
  have entries : node.valueTimeSeries = (Series.collect TransformD.stamp expires first).entries :=
    one ▸ rfl
  have otherEntries : other.valueTimeSeries =
      (Series.collect TransformD.stamp expires second).entries := two ▸ rfl
  have flag : node.isStatic = marked first :=
    (congrArg Series.retaining one).trans (Series.retaining_collect first)
  have otherFlag : other.isStatic = marked first :=
    ((congrArg Series.retaining two).trans (Series.retaining_collect second)).trans
      (marked_perm same)
  cases isStatic : marked first with
  | true =>
      rw [transform_of_static kdlFrame (flag.trans isStatic),
        transform_of_static kdlFrame (otherFlag.trans isStatic), entries, otherEntries]
      exact (Series.Agreeing.last_eq expires_self agreeing same isStatic).symm
  | false =>
      rw [transform_of_pruning kdlFrame (flag.trans isStatic),
        transform_of_pruning kdlFrame (otherFlag.trans isStatic), entries, otherEntries]
      have equal := Series.Agreeing.entries_eq expires_self agreeing same isStatic
      rw [equal]

end TransformTreeNode

end Reading

/-! ## Collections whose order does not matter -/

def SameParent (calls : List (TransformD Scalar × Bool)) : Prop :=
  ∀ first ∈ calls, ∀ second ∈ calls, first.1.childFrameId = second.1.childFrameId →
    first.1.header.frameId = second.1.header.frameId

def LeadsToRoot (calls : List (TransformD Scalar × Bool)) (name : String) : Prop :=
  ∃ below root, Path (parentOf calls) name below root ∧ parentOf calls root = none

section Collections

variable (kdlFrame : Vector3 Scalar → Quaternion Scalar → Frame)

/-- Every order of the calls gives a tree with the same answers. -/
def OrderFree [Mul Frame] [Inv Frame] [One Frame]
    (calls : List (TransformD Scalar × Bool)) : Prop :=
  ∀ first second, first.Perm calls → second.Perm calls → ∀ tree other,
    TransformTree.build first = .ok tree → TransformTree.build second = .ok other →
    ∀ lookup : Lookup Frame, ∃ answer,
      Returns .outOfFuel (lookup.answer kdlFrame tree) answer ∧
      Returns .outOfFuel (lookup.answer kdlFrame other) answer

/-- Of a child below a root, transforms with one stamp have one pose where they can be
read, and what any of the transforms drops the newest one drops. -/
def Consistent (calls : List (TransformD Scalar × Bool)) : Prop :=
  ∀ call ∈ calls, LeadsToRoot calls call.1.childFrameId →
    Agreeing TransformD.stamp expires (posed kdlFrame) (own calls call.1.childFrameId)

/-- Poses differ between the stamps of a child that are no tick apart. -/
def Apart (calls : List (TransformD Scalar × Bool)) : Prop :=
  ∀ first ∈ calls, ∀ second ∈ calls, first.1.childFrameId = second.1.childFrameId →
    first.1.stamp ≠ second.1.stamp → timeDiffMs first.1.stamp second.1.stamp = 0 →
    posed kdlFrame first.1 ≠ posed kdlFrame second.1

end Collections

theorem mem_own {calls : List (TransformD Scalar × Bool)} {name : String}
    {call : TransformD Scalar × Bool} :
    call ∈ own calls name ↔ call ∈ calls ∧ call.1.childFrameId = name := by
  rw [own, List.mem_filter, decide_eq_true_iff]

theorem own_perm {calls order : List (TransformD Scalar × Bool)} (same : order.Perm calls)
    (name : String) : (own order name).Perm (own calls name) :=
  same.filter _

theorem SameParent.perm {calls order : List (TransformD Scalar × Bool)}
    (parents : SameParent calls) (same : order.Perm calls) : SameParent order :=
  fun first member second other =>
    parents first (same.mem_iff.mp member) second (same.mem_iff.mp other)

theorem SameParent.parentOf_iff {calls : List (TransformD Scalar × Bool)}
    (parents : SameParent calls) (name above : String) : parentOf calls name = some above ↔
      ∃ call ∈ calls, call.1.childFrameId = name ∧ call.1.header.frameId = above := by
  rw [parentOf]
  cases found : own calls name with
  | nil =>
      constructor
      · intro none
        cases none
      · intro named
        obtain ⟨call, member, child, _⟩ := named
        have within := mem_own.mpr ⟨member, child⟩
        rw [found] at within
        cases within
  | cons first rest =>
      obtain ⟨member, child⟩ := mem_own.mp (found ▸ List.mem_cons_self : first ∈ own calls name)
      rw [List.head?_cons, Option.map_some, Option.some_inj]
      constructor
      · intro frame
        exact ⟨first, member, child, frame⟩
      · intro named
        obtain ⟨call, other, same, rfl⟩ := named
        exact parents first member call other (child.trans same.symm)

theorem SameParent.parentOf_perm {calls order : List (TransformD Scalar × Bool)}
    (parents : SameParent calls) (same : order.Perm calls) (name : String) :
    parentOf order name = parentOf calls name := by
  apply Option.ext
  intro above
  rw [(parents.perm same).parentOf_iff, parents.parentOf_iff]
  simp only [same.mem_iff]

theorem mentions_perm {calls order : List (TransformD Scalar × Bool)} (same : order.Perm calls)
    (name : String) : Mentions order name ↔ Mentions calls name := by
  unfold Mentions
  simp only [same.mem_iff]

namespace TransformTree

/-! ## Alike trees answer alike -/

variable (kdlFrame : Vector3 Scalar → Quaternion Scalar → Frame)

def poseAt (tree : TransformTree Scalar) (leastStamp : Timestamp) (toleranceMs : Int)
    (name : String) : Option (Option Frame) :=
  (tree.node name).map fun node => node.transform kdlFrame leastStamp toleranceMs

/-- The same nodes with the same parents, and the same poses below a root. -/
structure Alike (tree other : TransformTree Scalar) : Prop where
  shape : SameShape tree other
  poses : ∀ name below root, Path tree.parent name below root → tree.parent root = none →
    ∀ leastStamp toleranceMs, other.poseAt kdlFrame leastStamp toleranceMs name =
      tree.poseAt kdlFrame leastStamp toleranceMs name

variable [Mul Frame] [Inv Frame] [One Frame]

omit [Inv Frame] [One Frame] in
theorem Alike.climb {tree other : TransformTree Scalar} (alike : Alike kdlFrame tree other)
    {name root : String} {below : List String} (path : Path tree.parent name below root)
    (last : tree.parent root = none) (top : Option String) (leastStamp : Timestamp)
    (toleranceMs : Int) (fuel : Nat) (frame : Frame) :
    other.climb kdlFrame top leastStamp toleranceMs fuel (some name) frame =
      tree.climb kdlFrame top leastStamp toleranceMs fuel (some name) frame := by
  induction fuel generalizing name below frame with
  | zero => rfl
  | succ fuel ih =>
      have read := alike.poses name below root path last leastStamp toleranceMs
      have linked := alike.shape.parents name
      rw [TransformTree.climb, TransformTree.climb]
      split
      · rfl
      · unfold poseAt at read
        unfold TransformTree.parent at linked
        cases located : tree.node name with
        | none =>
            rw [located] at read
            rw [Option.map_eq_none_iff.mp read]
        | some node =>
            rw [located] at read linked
            obtain ⟨found, there, same⟩ := Option.map_eq_some_iff.mp read
            rw [there] at linked ⊢
            have parents : found.parent = node.parent := linked
            dsimp only at same ⊢
            rw [same, parents]
            cases node.transform kdlFrame leastStamp toleranceMs with
            | none => rfl
            | some value =>
              cases above : node.parent with
              | none => cases fuel <;> rfl
              | some next =>
                  have up : tree.parent name = some next := by
                    rw [TransformTree.parent, located]
                    exact above
                  cases path with
                  | here => cases last.symm.trans up
                  | up step rest =>
                      cases step.symm.trans up
                      exact ih rest _

theorem Alike.climbs {tree other : TransformTree Scalar} (alike : Alike kdlFrame tree other)
    {lookup : Lookup Frame} {root : String} {belowFrom belowTo : List String}
    (fromPath : Path tree.parent lookup.fromTf belowFrom root)
    (toPath : Path tree.parent lookup.toTf belowTo root) (last : tree.parent root = none)
    (top : Option String) (fuel : Nat) :
    other.climbs kdlFrame top lookup fuel = tree.climbs kdlFrame top lookup fuel := by
  unfold TransformTree.climbs
  simp only [alike.climb kdlFrame fromPath last, alike.climb kdlFrame toPath last]

theorem Alike.answer {tree other : TransformTree Scalar} (alike : Alike kdlFrame tree other)
    (built : tree.WellBuilt) (otherBuilt : other.WellBuilt) (lookup : Lookup Frame) (fuel : Nat) :
    lookup.answer kdlFrame other fuel = lookup.answer kdlFrame tree fuel := by
  have missed := built.uncached lookup.token
  have otherMissed := otherBuilt.uncached lookup.token
  have both := alike.shape.findSharedAncestor fuel lookup.fromTf lookup.toTf
  cases searched : tree.findSharedAncestor fuel lookup.fromTf lookup.toTf with
  | error fault =>
      rw [searched] at both
      rw [answer_missed kdlFrame missed, answer_missed kdlFrame otherMissed, searched, both]
      rfl
  | ok result =>
      obtain ⟨found, next⟩ := result
      rw [searched] at both
      rcases findSharedAncestor_ok searched with ⟨rfl, rfl⟩ |
        ⟨rfl, fromNode, toNode, top, below, root, join, rooted, last, same, cache⟩
      · rw [answer_missed kdlFrame missed, answer_missed kdlFrame otherMissed, searched, both]
        rfl
      · have cached : next.sharedAncestor lookup.token = some top := by
          rw [cache]
          exact Function.update_self ..
        have pointed : ∀ name, (tree.node name).isSome = true →
            (other.node name).isSome = true := by
          intro name present
          have pointer := alike.shape.pointers name
          rw [pointer_of_node present] at pointer
          obtain ⟨node, located, _⟩ := Option.map_eq_some_iff.mp pointer
          exact located ▸ rfl
        obtain ⟨_, _, _, _, toPath, upperPath, _⟩ := join.first rooted last
        rw [answer_found kdlFrame missed fromNode toNode searched same cached,
          ← alike.climbs kdlFrame rooted (toPath.append upperPath) last]
        apply answer_found kdlFrame otherMissed (pointed _ fromNode) (pointed _ toNode) both rfl
        rw [Lookup.token] at cached ⊢
        dsimp only
        rw [if_pos rfl]
        dsimp only
        rw [Function.update_self, cached]

omit [Mul Frame] [Inv Frame] [One Frame] in
/-- Collections that agree leave alike trees, whatever their order. -/
theorem alike_of_consistent {calls first second : List (TransformD Scalar × Bool)}
    (parents : SameParent calls) (consistent : Consistent kdlFrame calls)
    (one : first.Perm calls) (two : second.Perm calls) {tree other : TransformTree Scalar}
    (built : build first = .ok tree) (otherBuilt : build second = .ok other) :
    Alike kdlFrame tree other := by
  have wellBuilt := wellBuilt_of_build built
  have otherWellBuilt := wellBuilt_of_build otherBuilt
  have assembled := build_assembled built
  have otherAssembled := build_assembled otherBuilt
  have present : ∀ name, (other.node name).isSome = (tree.node name).isSome := by
    intro name
    rw [Bool.eq_iff_iff, assembled.present, otherAssembled.present, mentions_perm one,
      mentions_perm two]
  have linked : ∀ name, tree.parent name = parentOf calls name := fun name =>
    (assembled.parents name).trans (parents.parentOf_perm one name)
  constructor
  · constructor
    · intro name
      have counted : ∀ {tree : TransformTree Scalar}, tree.WellBuilt →
          (tree.count name = true ↔ (tree.node name).isSome = true) :=
        fun built => ⟨built.stored name, count_of_node⟩
      rw [Bool.eq_iff_iff, counted wellBuilt, counted otherWellBuilt, present]
    · intro name
      have both := present name
      rw [pointer, pointer]
      cases located : tree.node name with
      | none =>
          rw [located] at both
          cases there : other.node name with
          | none => rfl
          | some found =>
              rw [there] at both
              cases both
      | some node =>
          rw [located] at both
          obtain ⟨found, there⟩ := Option.isSome_iff_exists.mp both
          rw [there]
          rfl
    · intro name
      rw [linked, otherAssembled.parents, parents.parentOf_perm two]
  · intro name below root path last leastStamp toleranceMs
    have both := present name
    unfold poseAt
    cases located : tree.node name with
    | none =>
        rw [located] at both
        cases there : other.node name with
        | none => rfl
        | some found =>
            rw [there] at both
            cases both
    | some node =>
        rw [located] at both
        obtain ⟨found, there⟩ := Option.isSome_iff_exists.mp both
        rw [there, Option.map_some, Option.map_some]
        congr 1
        have leads : LeadsToRoot calls name := by
          have same : tree.parent = parentOf calls := funext linked
          exact ⟨below, root, same ▸ path, same ▸ last⟩
        have agreeing : Agreeing TransformD.stamp expires (posed kdlFrame) (own calls name) := by
          cases owned : own calls name with
          | nil => exact ⟨(fun _ none => by cases none), (fun _ _ none => by cases none)⟩
          | cons call rest =>
              obtain ⟨member, child⟩ :=
                mem_own.mp (owned ▸ List.mem_cons_self : call ∈ own calls name)
              rw [← owned, ← child]
              exact consistent call member (child ▸ leads)
        exact TransformTreeNode.transform_eq kdlFrame (agreeing.perm (own_perm one name))
          ((own_perm two name).trans (own_perm one name).symm)
          (assembled.series name node located).2 (otherAssembled.series name found there).2
          leastStamp toleranceMs

theorem orderFree_of_consistent {calls : List (TransformD Scalar × Bool)}
    (parents : SameParent calls) (consistent : Consistent kdlFrame calls) :
    OrderFree kdlFrame calls := by
  intro first second one two tree other built otherBuilt lookup
  have wellBuilt := wellBuilt_of_build built
  have alike := alike_of_consistent kdlFrame parents consistent one two built otherBuilt
  have same : tree.emptied = tree := by
    have cache : tree.sharedAncestor = fun _ => none := funext wellBuilt.uncached
    rw [emptied, ← cache]
  obtain ⟨answer, returns⟩ := returns_emptied kdlFrame lookup (same.symm ▸ wellBuilt)
  rw [same] at returns
  refine ⟨answer, returns, ?_⟩
  exact returns.of_eventually (answer_steady kdlFrame lookup tree) fun fuel (_ : 0 ≤ fuel) =>
    alike.answer kdlFrame wellBuilt (wellBuilt_of_build otherBuilt) lookup fuel

end TransformTree

/-! ## Orders that a lookup can tell apart -/

namespace TransformTreeNode

variable (kdlFrame : Vector3 Scalar → Quaternion Scalar → Frame)

theorem timeDiffMs_self (stamp : Timestamp) : timeDiffMs stamp stamp = 0 := by
  simp only [timeDiffMs, Int.sub_self, Int.zero_mul, Int.zero_tdiv, Int.add_zero]

/-- Without tolerance, the entry for its own stamp is given. -/
theorem transform_of_mem {node : TransformTreeNode Scalar} (pruning : node.isStatic = false)
    (ordered : OrderedBy TransformD.stamp node.valueTimeSeries) {entry : TransformD Scalar}
    (member : entry ∈ node.valueTimeSeries) :
    node.transform kdlFrame entry.stamp 0 = some (posed kdlFrame entry) := by
  have found : node.valueTimeSeries.find? (fun other => !other.stamp.before entry.stamp) =
      some entry := by
    obtain ⟨front, back, split⟩ := List.append_of_mem member
    rw [List.find?_eq_some_iff_append]
    constructor
    · cases before : entry.stamp.before entry.stamp with
      | false => rfl
      | true => exact absurd ((Timestamp.before_iff_lt _ _).mp before) (lt_irrefl _)
    · refine ⟨front, back, split, fun other early => ?_⟩
      rw [split] at ordered
      have less := (List.pairwise_append.mp ordered).2.2 other early entry List.mem_cons_self
      rw [(Timestamp.before_iff_lt _ _).mpr less]
      rfl
  unfold transform selected
  cases last : node.valueTimeSeries.getLast? with
  | none => cases List.getLast?_eq_none_iff.mp last ▸ member
  | some newest =>
      rw [pruning, found]
      dsimp only [Option.getD_some]
      rw [timeDiffMs_self]
      rfl

/-- What is given without tolerance is no tick away from the stamp. -/
theorem mem_of_transform {node : TransformTreeNode Scalar} (pruning : node.isStatic = false)
    {stamp : Timestamp} {value : Frame} (given : node.transform kdlFrame stamp 0 = some value) :
    ∃ entry ∈ node.valueTimeSeries, timeDiffMs stamp entry.stamp = 0 ∧
      posed kdlFrame entry = value := by
  obtain ⟨entry, selecting, same⟩ := Option.map_eq_some_iff.mp given
  refine ⟨entry, ?_⟩
  unfold selected at selecting
  cases last : node.valueTimeSeries.getLast? with
  | none =>
      rw [last] at selecting
      cases selecting
  | some newest =>
      rw [last, pruning] at selecting
      dsimp only at selecting
      rw [if_neg (by decide)] at selecting
      split at selecting
      · rename_i close
        cases selecting
        refine ⟨?_, ?_, same⟩
        · cases found : node.valueTimeSeries.find? fun entry => !entry.stamp.before stamp with
          | none => exact List.mem_of_getLast? last
          | some first => exact List.mem_of_find?_eq_some found
        · omega
      · cases selecting

end TransformTreeNode

namespace TransformTree

variable (kdlFrame : Vector3 Scalar → Quaternion Scalar → Frame) [Group Frame]

/-- The lookup of the pose of a parent in its child. -/
def upward (call : TransformD Scalar) (leastStamp : Timestamp) (toleranceMs : Int) :
    Lookup Frame :=
  ⟨1, call.childFrameId, call.header.frameId, leastStamp, toleranceMs⟩

def upwardAnswer (pose : Option Frame) : Bool × Frame :=
  match pose with
  | none => (false, 1)
  | some value => (true, (value * 1)⁻¹)

/-- Below a root, the lookup of a frame and its parent tells the pose of the frame. -/
theorem returns_upward {tree : TransformTree Scalar} (built : tree.WellBuilt)
    {call : TransformD Scalar} (linked : tree.parent call.childFrameId = some call.header.frameId)
    {root : String} {below : List String} (path : Path tree.parent call.childFrameId below root)
    (last : tree.parent root = none) {node : TransformTreeNode Scalar}
    (located : tree.node call.childFrameId = some node) (leastStamp : Timestamp)
    (toleranceMs : Int) :
    Returns .outOfFuel ((upward call leastStamp toleranceMs).answer kdlFrame tree)
      (.ok (upwardAnswer (node.transform kdlFrame leastStamp toleranceMs))) := by
  have fromNode : (tree.node call.childFrameId).isSome = true := located ▸ rfl
  have toNode := built.parents _ _ linked
  have upper : ∃ upper, Path tree.parent call.header.frameId upper root := by
    cases path with
    | here => cases last.symm.trans linked
    | up step rest =>
        cases step.symm.trans linked
        exact ⟨_, rest⟩
  obtain ⟨upper, upperPath⟩ := upper
  have apart : call.childFrameId ≠ call.header.frameId := by
    intro same
    have cycle : Path tree.parent call.childFrameId [call.childFrameId] call.childFrameId :=
      .up (linked.trans (congrArg some same.symm)) (.here _)
    cases cycle.nil_of_root path last
  refine ⟨(fun failed => by cases failed), below.length + 2, ?_⟩
  have found := findSharedAncestor_of_first fromNode toNode path last (.up linked (.here _))
    (.here _) upperPath (fun _ member => absurd member List.not_mem_nil)
    (show below.length + ([] : List String).length < below.length + 2 by
      rw [List.length_nil]; omega)
  have looked : (upward call leastStamp toleranceMs).answer kdlFrame tree (below.length + 2) =
      tree.climbs kdlFrame (some call.header.frameId) (upward call leastStamp toleranceMs)
        (below.length + 2) :=
    answer_found kdlFrame (built.uncached _) fromNode toNode found rfl (Function.update_self ..)
  rw [looked]
  unfold climbs
  dsimp only [upward, bind, Except.bind]
  rw [climb, if_neg fun same => apart (Option.some.inj same), located]
  dsimp only
  cases node.transform kdlFrame leastStamp toleranceMs with
  | none => rfl
  | some value =>
      rw [TransformTree.parent, located, Option.bind_some] at linked
      dsimp only
      rw [linked, climb, if_pos rfl]
      dsimp only
      rw [if_neg (by decide), climb, if_pos rfl]
      rfl

/-- An order of a child's own transforms, before all other transforms. -/
theorem exists_node_of_order {calls order : List (TransformD Scalar × Bool)}
    {call : TransformD Scalar × Bool} (member : call ∈ calls)
    (same : order.Perm (own calls call.1.childFrameId)) :
    ∃ whole tree node, whole.Perm calls ∧ build whole = .ok tree ∧
      tree.node call.1.childFrameId = some node ∧
      node.series = Series.collect TransformD.stamp expires order := by
  let name := call.1.childFrameId
  let others := calls.filter fun call => !decide (call.1.childFrameId = name)
  have whole : (order ++ others).Perm calls :=
    (same.append_right others).trans (List.filter_append_perm _ _)
  have kept : own (order ++ others) name = order := by
    have first : own order name = order := by
      apply List.filter_eq_self.mpr
      intro other within
      exact decide_eq_true (mem_own.mp (same.mem_iff.mp within)).2
    have rest : own others name = [] := by
      apply List.filter_eq_nil_iff.mpr
      intro other within child
      have outside := (List.mem_filter.mp within).2
      rw [child] at outside
      cases outside
    rw [own, List.filter_append]
    exact (congrArg₂ _ first rest).trans (List.append_nil _)
  obtain ⟨tree, built, _⟩ := build_wellBuilt (order ++ others)
  have assembled := build_assembled built
  have mentioned : Mentions (order ++ others) name := ⟨call, whole.mem_iff.mpr member, .inl rfl⟩
  obtain ⟨node, located⟩ := Option.isSome_iff_exists.mp ((assembled.present name).mpr mentioned)
  refine ⟨order ++ others, tree, node, whole, built, located, ?_⟩
  rw [(assembled.series name node located).2, kept]

/-- With answers free of the order, all orders of a child's transforms read alike. -/
theorem transform_eq_of_orderFree {calls : List (TransformD Scalar × Bool)}
    (parents : SameParent calls) (free : OrderFree kdlFrame calls)
    {call : TransformD Scalar × Bool} (member : call ∈ calls)
    (leads : LeadsToRoot calls call.1.childFrameId) {first second : List (TransformD Scalar × Bool)}
    (one : first.Perm (own calls call.1.childFrameId))
    (two : second.Perm (own calls call.1.childFrameId)) :
    ∃ node other : TransformTreeNode Scalar,
      node.series = Series.collect TransformD.stamp expires first ∧
      other.series = Series.collect TransformD.stamp expires second ∧
      ∀ leastStamp toleranceMs, node.transform kdlFrame leastStamp toleranceMs =
        other.transform kdlFrame leastStamp toleranceMs := by
  obtain ⟨whole, tree, node, wholePerm, built, located, series⟩ := exists_node_of_order member one
  obtain ⟨whole', other, found, otherPerm, otherBuilt, otherLocated, otherSeries⟩ :=
    exists_node_of_order member two
  refine ⟨node, found, series, otherSeries, fun leastStamp toleranceMs => ?_⟩
  have parent := (parents.parentOf_iff call.1.childFrameId call.1.header.frameId).mpr
    ⟨call, member, rfl, rfl⟩
  obtain ⟨below, root, path, last⟩ := leads
  have returns : ∀ {order : List (TransformD Scalar × Bool)} {tree : TransformTree Scalar}
      {node : TransformTreeNode Scalar}, order.Perm calls → build order = .ok tree →
      tree.node call.1.childFrameId = some node →
      Returns .outOfFuel ((upward call.1 leastStamp toleranceMs).answer kdlFrame tree)
        (.ok (upwardAnswer (node.transform kdlFrame leastStamp toleranceMs))) := by
    intro order tree node same built located
    have linked : tree.parent = parentOf calls := funext fun name =>
      ((build_assembled built).parents name).trans (parents.parentOf_perm same name)
    exact returns_upward kdlFrame (wellBuilt_of_build built) (linked ▸ parent) (linked ▸ path)
      (linked ▸ last) located leastStamp toleranceMs
  obtain ⟨answer, left, right⟩ := free whole whole' wholePerm otherPerm tree other built otherBuilt
    (upward call.1 leastStamp toleranceMs)
  have same := (left.unique (answer_steady _ _ _) (returns wholePerm built located)).symm.trans
    (right.unique (answer_steady _ _ _) (returns otherPerm otherBuilt otherLocated))
  have answers := Except.ok.inj same
  cases pose : node.transform kdlFrame leastStamp toleranceMs with
  | none =>
      cases otherPose : found.transform kdlFrame leastStamp toleranceMs with
      | none => rfl
      | some value =>
          rw [pose, otherPose] at answers
          cases congrArg Prod.fst answers
  | some value =>
      cases otherPose : found.transform kdlFrame leastStamp toleranceMs with
      | none =>
          rw [pose, otherPose] at answers
          cases congrArg Prod.fst answers
      | some value' =>
          rw [pose, otherPose] at answers
          have inverses := inv_injective (congrArg Prod.snd answers)
          rw [mul_one, mul_one] at inverses
          rw [inverses]

theorem isStatic_of_series {node : TransformTreeNode Scalar}
    {order calls : List (TransformD Scalar × Bool)} (same : order.Perm calls)
    (series : node.series = Series.collect TransformD.stamp expires order) :
    node.isStatic = marked calls :=
  ((congrArg Series.retaining series).trans (Series.retaining_collect order)).trans
    (marked_perm same)

theorem entries_of_series {node : TransformTreeNode Scalar}
    {order : List (TransformD Scalar × Bool)}
    (series : node.series = Series.collect TransformD.stamp expires order) :
    node.valueTimeSeries = (Series.collect TransformD.stamp expires order).entries :=
  congrArg Series.entries series

omit [Group Frame] in
/-- An order that keeps a transform lets its pose be read. -/
theorem transform_of_kept {node : TransformTreeNode Scalar}
    {order calls : List (TransformD Scalar × Bool)} (same : order.Perm calls)
    (series : node.series = Series.collect TransformD.stamp expires order)
    (pruning : marked calls = false) {entry : TransformD Scalar}
    (kept : entry ∈ (Series.collect TransformD.stamp expires order).entries) :
    node.transform kdlFrame entry.stamp 0 = some (posed kdlFrame entry) := by
  apply TransformTreeNode.transform_of_mem kdlFrame
    ((isStatic_of_series same series).trans pruning)
  · rw [entries_of_series series]
    exact Series.ordered_collect order
  · rw [entries_of_series series]
    exact kept

/-- The poses of two transforms with one stamp, where they can be read. -/
theorem posed_eq_of_orderFree {calls : List (TransformD Scalar × Bool)}
    (parents : SameParent calls) (free : OrderFree kdlFrame calls)
    {call : TransformD Scalar × Bool} (member : call ∈ calls)
    (leads : LeadsToRoot calls call.1.childFrameId) {first second : TransformD Scalar × Bool}
    (one : first ∈ own calls call.1.childFrameId) (two : second ∈ own calls call.1.childFrameId)
    (same : first.1.stamp = second.1.stamp)
    (decisive : Decisive TransformD.stamp expires (own calls call.1.childFrameId) first.1) :
    posed kdlFrame first.1 = posed kdlFrame second.1 := by
  unfold Decisive at decisive
  cases pruning : marked (own calls call.1.childFrameId) with
  | true =>
      rw [if_pos pruning] at decisive
      have other : Newest TransformD.stamp (own calls call.1.childFrameId) second.1 := by
        unfold Newest at decisive ⊢
        rw [← same]
        exact decisive
      obtain ⟨order, perm, last⟩ := Series.exists_order_last expires_self one decisive
      obtain ⟨order', perm', last'⟩ := Series.exists_order_last expires_self two other
      obtain ⟨node, found, series, series', reads⟩ :=
        transform_eq_of_orderFree kdlFrame parents free member leads perm perm'
      have read := reads first.1.stamp 0
      rw [TransformTreeNode.transform_of_static kdlFrame
          ((isStatic_of_series perm series).trans pruning),
        TransformTreeNode.transform_of_static kdlFrame
          ((isStatic_of_series perm' series').trans pruning),
        entries_of_series series, entries_of_series series', last, last'] at read
      exact Option.some.inj read
  | false =>
      rw [if_neg (by rw [pruning]; exact Bool.false_ne_true)] at decisive
      have other :
          ¬ Outdated TransformD.stamp expires (own calls call.1.childFrameId) second.1 := by
        unfold Outdated at decisive ⊢
        rw [← same]
        exact decisive
      obtain ⟨order, perm, kept⟩ := Series.exists_order_keeping expires_self one decisive
      obtain ⟨order', perm', kept'⟩ := Series.exists_order_keeping expires_self two other
      obtain ⟨node, found, series, series', reads⟩ :=
        transform_eq_of_orderFree kdlFrame parents free member leads perm perm'
      have read := reads first.1.stamp 0
      rw [transform_of_kept kdlFrame perm series pruning kept, same,
        transform_of_kept kdlFrame perm' series' pruning kept'] at read
      exact Option.some.inj read

theorem consistent_of_orderFree {calls : List (TransformD Scalar × Bool)}
    (parents : SameParent calls) (apart : Apart kdlFrame calls)
    (free : OrderFree kdlFrame calls) : Consistent kdlFrame calls := by
  intro call member leads
  constructor
  · intro first one second two same decisive
    exact posed_eq_of_orderFree kdlFrame parents free member leads one two same decisive
  · intro pruning old oldMember newer newerMember above dropped
    by_contra current
    obtain ⟨order, perm, kept⟩ := Series.exists_order_keeping expires_self oldMember current
    obtain ⟨order', perm', gone⟩ :=
      Series.exists_order_dropping expires_self pruning newerMember above dropped
    obtain ⟨node, found, series, series', reads⟩ :=
      transform_eq_of_orderFree kdlFrame parents free member leads perm perm'
    have read := reads old.1.stamp 0
    rw [transform_of_kept kdlFrame perm series pruning kept] at read
    obtain ⟨entry, within, close, same⟩ := TransformTreeNode.mem_of_transform kdlFrame
      ((isStatic_of_series perm' series').trans pruning) read.symm
    rw [entries_of_series series'] at within
    obtain ⟨arrival, arrived, rfl⟩ := Series.mem_collect within
    obtain ⟨amongOld, oldChild⟩ := mem_own.mp oldMember
    obtain ⟨among, child⟩ := mem_own.mp (perm'.mem_iff.mp arrived)
    exact apart old amongOld arrival among (oldChild.trans child.symm)
      (fun equal => gone arrival.1 within equal.symm) close same.symm

/-- Where each child has one parent, consistent collections give the same answers in every
order; and only these do, poses apart that no tick separates. -/
theorem orderFree_of_consistent_and_conversely (calls : List (TransformD Scalar × Bool))
    (parents : SameParent calls) :
    (Consistent kdlFrame calls → OrderFree kdlFrame calls) ∧
      (Apart kdlFrame calls → OrderFree kdlFrame calls → Consistent kdlFrame calls) :=
  ⟨orderFree_of_consistent kdlFrame parents, consistent_of_orderFree kdlFrame parents⟩

def stamped (childFrameId : String) (seconds nanos x : Int) (isStatic : Bool) :
    TransformD Int × Bool :=
  (⟨⟨⟨seconds, nanos⟩, "root"⟩, childFrameId, ⟨x, 0, 0⟩, ⟨0, 0, 0, 1⟩⟩, isStatic)

/-- A static child, and one whose first transform its last one drops. -/
def staticAndMoving : List (TransformD Int × Bool) :=
  [stamped "a" 0 0 1 true, stamped "b" 0 5000000 2 false, stamped "b" 0 8000000 3 false,
    stamped "b" 1 0 4 false]

theorem orderFree_of_consistent_and_conversely_staticAndMoving :
    OrderFree HalfTurn.frame staticAndMoving := by
  have parents : ∀ first ∈ staticAndMoving, ∀ second ∈ staticAndMoving,
      first.1.childFrameId = second.1.childFrameId →
      first.1.header.frameId = second.1.header.frameId := by decide +kernel
  have agreeing : ∀ call ∈ staticAndMoving, Agreeing TransformD.stamp expires
      (posed HalfTurn.frame) (own staticAndMoving call.1.childFrameId) := by decide +kernel
  exact (orderFree_of_consistent_and_conversely HalfTurn.frame staticAndMoving parents).1
    fun call member _ => agreeing call member

/-- A lookup that two orders of a collection answer differently. -/
theorem not_orderFree_of_answers {calls order : List (TransformD Scalar × Bool)}
    (same : order.Perm calls) (lookup : Lookup Frame) {fuel : Nat} {left right : Bool × Frame}
    (early : ((build calls).toOption.map fun tree =>
      (lookup.answer kdlFrame tree fuel).toOption) = some (some left))
    (late : ((build order).toOption.map fun tree =>
      (lookup.answer kdlFrame tree fuel).toOption) = some (some right))
    (differ : left ≠ right) : ¬ OrderFree kdlFrame calls := by
  intro free
  obtain ⟨tree, built, _⟩ := build_wellBuilt calls
  obtain ⟨other, otherBuilt, _⟩ := build_wellBuilt order
  obtain ⟨answer, one, two⟩ := free calls order (.refl _) same tree other built otherBuilt lookup
  have first := one.unique (answer_steady _ _ _) (Returns.of_toOption (eval_build _ built early))
  have second := two.unique (answer_steady _ _ _)
    (Returns.of_toOption (eval_build _ otherBuilt late))
  exact differ (Except.ok.inj (first.symm.trans second))

/-- Two static transforms of one frame without stamps. -/
def rivals : List (TransformD Int × Bool) := [stamped "a" 0 0 1 true, stamped "a" 0 0 2 true]

/-- The second transform drops the first, which the third one would keep. -/
def dropped : List (TransformD Int × Bool) :=
  [stamped "b" 0 5000000 1 false, stamped "b" 1 0 2 false, stamped "b" 2 5000000 3 false]

theorem rivals_and_dropped_not_orderFree :
    (SameParent rivals ∧ ¬ OrderFree HalfTurn.frame rivals) ∧
      (SameParent dropped ∧ ¬ OrderFree HalfTurn.frame dropped) := by
  have parents : (∀ first ∈ rivals, ∀ second ∈ rivals,
      first.1.childFrameId = second.1.childFrameId →
      first.1.header.frameId = second.1.header.frameId) ∧
      ∀ first ∈ dropped, ∀ second ∈ dropped,
        first.1.childFrameId = second.1.childFrameId →
        first.1.header.frameId = second.1.header.frameId := by decide +kernel
  refine ⟨⟨parents.1, ?_⟩, ⟨parents.2, ?_⟩⟩
  · exact not_orderFree_of_answers HalfTurn.frame (List.reverse_perm rivals)
      ⟨1, "root", "a", ⟨0, 0⟩, -1⟩
      (by decide +kernel : ((build rivals).toOption.map fun tree =>
        (Lookup.answer HalfTurn.frame ⟨1, "root", "a", ⟨0, 0⟩, -1⟩ tree 4).toOption) =
        some (some (true, ⟨1, 0, 0, false⟩)))
      (by decide +kernel : ((build rivals.reverse).toOption.map fun tree =>
        (Lookup.answer HalfTurn.frame ⟨1, "root", "a", ⟨0, 0⟩, -1⟩ tree 4).toOption) =
        some (some (true, ⟨2, 0, 0, false⟩)))
      (by decide)
  · exact not_orderFree_of_answers HalfTurn.frame (List.reverse_perm dropped)
      ⟨1, "root", "b", ⟨0, 5000000⟩, 0⟩
      (by decide +kernel : ((build dropped).toOption.map fun tree =>
        (Lookup.answer HalfTurn.frame ⟨1, "root", "b", ⟨0, 5000000⟩, 0⟩ tree 4).toOption) =
        some (some (false, 1)))
      (by decide +kernel : ((build dropped.reverse).toOption.map fun tree =>
        (Lookup.answer HalfTurn.frame ⟨1, "root", "b", ⟨0, 5000000⟩, 0⟩ tree 4).toOption) =
        some (some (true, ⟨1, 0, 0, false⟩)))
      (by decide)

end TransformTree

end ProtoCore.Transform
