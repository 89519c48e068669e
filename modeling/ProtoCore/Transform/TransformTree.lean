import Mathlib.Algebra.Group.Basic
import Mathlib.Logic.Function.Basic

/-!
# The transform tree

A tree of named frames with parent pointers. A node keeps the transforms to its parent,
ordered by their stamps. A lookup walks from both frames up to a shared ancestor, which
it keeps for later lookups of the same pair. The rigid motions of KDL are a parameter.
-/

set_option autoImplicit false

namespace ProtoCore.Transform

structure Timestamp where
  seconds : Int
  nanos : Int
  deriving DecidableEq, Repr

structure Vector3 (Scalar : Type) where
  x : Scalar
  y : Scalar
  z : Scalar
  deriving DecidableEq, Repr

structure Quaternion (Scalar : Type) where
  x : Scalar
  y : Scalar
  z : Scalar
  w : Scalar
  deriving DecidableEq, Repr

structure Header where
  timestamp : Timestamp
  frameId : String
  deriving DecidableEq, Repr

structure TransformD (Scalar : Type) where
  header : Header
  childFrameId : String
  transition : Vector3 Scalar
  rotation : Quaternion Scalar
  deriving DecidableEq, Repr

def Timestamp.before (left right : Timestamp) : Bool :=
  left.seconds < right.seconds || (left.seconds = right.seconds && left.nanos < right.nanos)

/-- The difference of two stamps as the source computes it in milliseconds. -/
def timeDiffMs (left right : Timestamp) : Int :=
  (right.seconds - left.seconds) * 1000 + (right.nanos - left.nanos).tdiv 1000

variable {Scalar Frame : Type} (kdlFrame : Vector3 Scalar → Quaternion Scalar → Frame)

namespace TransformD

def stamp (transform : TransformD Scalar) : Timestamp := transform.header.timestamp

def toKDL (transform : TransformD Scalar) : Frame :=
  kdlFrame transform.transition transform.rotation

end TransformD

structure TransformTreeNode (Scalar : Type) where
  frameId : String
  parent : Option String
  isStatic : Bool
  valueTimeSeries : List (TransformD Scalar)
  memoryDuration : Int
  deriving DecidableEq, Repr

/-- Insertion into the ordered set. An entry with an equal stamp stays. -/
def insertEntry (entry : TransformD Scalar) : List (TransformD Scalar) → List (TransformD Scalar)
  | [] => [entry]
  | first :: rest =>
      if entry.stamp.before first.stamp then entry :: first :: rest
      else if first.stamp.before entry.stamp then first :: insertEntry entry rest
      else first :: rest

namespace TransformTreeNode

def new (id : String) : TransformTreeNode Scalar where
  frameId := id
  parent := none
  isStatic := false
  valueTimeSeries := []
  memoryDuration := 1000

/-- The entry that `transform` selects. The lower bound falls back to the last entry. -/
def selected (node : TransformTreeNode Scalar) (leastStamp : Timestamp) (toleranceMs : Int) :
    Option (TransformD Scalar) :=
  match node.valueTimeSeries.getLast? with
  | none => none
  | some last =>
      if node.isStatic || toleranceMs < 0 then some last
      else
        let found := (node.valueTimeSeries.find? fun entry =>
          !entry.stamp.before leastStamp).getD last
        if ((timeDiffMs leastStamp found.stamp).natAbs : Int) ≤ toleranceMs then some found else none

def transform (node : TransformTreeNode Scalar) (leastStamp : Timestamp) (toleranceMs : Int) :
    Option Frame :=
  (node.selected leastStamp toleranceMs).map fun entry => entry.toKDL kdlFrame

def cleanup (node : TransformTreeNode Scalar) (currentTime : Timestamp) :
    TransformTreeNode Scalar :=
  if node.isStatic then node
  else { node with
    valueTimeSeries := node.valueTimeSeries.filter fun entry =>
      !decide (node.memoryDuration < timeDiffMs currentTime entry.stamp) }

def push (node : TransformTreeNode Scalar) (transform : TransformD Scalar) :
    TransformTreeNode Scalar :=
  let node := { node with valueTimeSeries := insertEntry transform node.valueTimeSeries }
  match node.valueTimeSeries.getLast? with
  | none => node
  | some last => node.cleanup last.stamp

end TransformTreeNode

inductive Fault where
  | nullNode
  | outOfFuel
  deriving DecidableEq, Repr

/-- A key of `nodes` may hold a null pointer, which `operator[]` has put there. A node is
known by its name elsewhere. -/
structure TransformTree (Scalar : Type) where
  nodes : String → Option (Option (TransformTreeNode Scalar))
  sharedAncestor : String → Option String

namespace TransformTree

def empty : TransformTree Scalar where
  nodes _ := none
  sharedAncestor _ := none

def count (tree : TransformTree Scalar) (name : String) : Bool := (tree.nodes name).isSome

def node (tree : TransformTree Scalar) (name : String) : Option (TransformTreeNode Scalar) :=
  (tree.nodes name).join

def pointer (tree : TransformTree Scalar) (name : String) : Option String :=
  (tree.node name).map fun _ => name

def parent (tree : TransformTree Scalar) (name : String) : Option String :=
  (tree.node name).bind TransformTreeNode.parent

def setNode (tree : TransformTree Scalar) (name : String) (node : TransformTreeNode Scalar) :
    TransformTree Scalar :=
  { tree with nodes := Function.update tree.nodes name (some (some node)) }

/-- `nodes[name]`, which inserts a null pointer for a new name. -/
def touch (tree : TransformTree Scalar) (name : String) : TransformTree Scalar :=
  if tree.count name then tree
  else { tree with nodes := Function.update tree.nodes name (some none) }

def create (tree : TransformTree Scalar) (name : String) : TransformTree Scalar :=
  if tree.count name then tree else tree.setNode name (.new name)

/-- A second parent is only logged. -/
def addTransformNode (tree : TransformTree Scalar) (transform : TransformD Scalar)
    (isStatic : Bool) : Except Fault (TransformTree Scalar) :=
  let childFrameId := transform.childFrameId
  let frameId := transform.header.frameId
  let tree := (tree.create childFrameId).create frameId
  match tree.node childFrameId with
  | none => .error .nullNode
  | some node =>
      let node := if isStatic then { node with isStatic := true } else node
      let node := node.push transform
      match node.parent with
      | none => .ok (tree.setNode childFrameId { node with parent := tree.pointer frameId })
      | some _ => .ok (tree.setNode childFrameId node)

def ancestorToken (fromTf toTf : String) : String :=
  if toTf < fromTf then fromTf ++ ":" ++ toTf else toTf ++ ":" ++ fromTf

/-- The first walk of `find_shared_ancestor`: the nodes traversed, or `none` in a loop. -/
def traverse (tree : TransformTree Scalar) :
    Nat → List String → Option String → Except Fault (Option (List String))
  | _, traversed, none => .ok (some traversed)
  | 0, _, some _ => .error .outOfFuel
  | fuel + 1, traversed, some root =>
      if root ∈ traversed then .ok none
      else tree.traverse fuel (root :: traversed) (tree.parent root)

/-- The second walk: the pointer it ends with, or `none` in a loop. -/
def meet (tree : TransformTree Scalar) (fromTraversed : List String) :
    Nat → List String → Option String → Except Fault (Option (Option String))
  | _, _, none => .ok (some none)
  | 0, _, some _ => .error .outOfFuel
  | fuel + 1, toTraversed, some root =>
      if root ∈ toTraversed then .ok none
      else if root ∈ fromTraversed then .ok (some (some root))
      else tree.meet fromTraversed fuel (root :: toTraversed) (tree.parent root)

/-- The log line at its end reads `frame_id` through the pointer of the second walk. -/
def findSharedAncestor (tree : TransformTree Scalar) (fuel : Nat) (fromTf toTf : String) :
    Except Fault (Bool × TransformTree Scalar) :=
  if !tree.count fromTf || !tree.count toTf then .ok (false, tree)
  else do
    match ← tree.traverse fuel [] (tree.pointer fromTf) with
    | none => .ok (false, tree)
    | some fromTraversed =>
        match ← tree.meet fromTraversed fuel [] (tree.pointer toTf) with
        | none => .ok (false, tree)
        | some none => .error .nullNode
        | some (some root) => .ok (true, { tree with
            sharedAncestor :=
              Function.update tree.sharedAncestor (ancestorToken fromTf toTf) (some root) })

variable [Mul Frame] [Inv Frame] [One Frame]

/-- One of the two walks of `get_transform`, up to `root` or to the end. -/
def climb (tree : TransformTree Scalar) (root : Option String) (leastStamp : Timestamp)
    (toleranceMs : Int) : Nat → Option String → Frame → Except Fault (Bool × Frame)
  | _, none, frame => .ok (true, frame)
  | 0, some _, _ => .error .outOfFuel
  | fuel + 1, some currentNode, frame =>
      if some currentNode = root then .ok (true, frame)
      else
        match tree.node currentNode with
        | none => .error .nullNode
        | some node =>
            match node.transform kdlFrame leastStamp toleranceMs with
            | none => .ok (false, frame)
            | some currentTransform =>
                tree.climb root leastStamp toleranceMs fuel node.parent (currentTransform * frame)

def getTransform (tree : TransformTree Scalar) (fuel : Nat) (fromTf toTf : String)
    (leastStamp : Timestamp) (toleranceMs : Int) :
    Except Fault (Bool × Frame × TransformTree Scalar) := do
  let root := tree.sharedAncestor (ancestorToken fromTf toTf)
  let tree := tree.touch fromTf
  let (ok, frame) ← tree.climb kdlFrame root leastStamp toleranceMs fuel (tree.pointer fromTf) 1
  if !ok then .ok (false, frame, tree)
  else
    let tree := tree.touch toTf
    let (ok, frame) ←
      tree.climb kdlFrame root leastStamp toleranceMs fuel (tree.pointer toTf) frame⁻¹
    .ok (ok, frame, tree)

/-- A lookup: whether it succeeds, what it leaves in `frame`, and the tree after it. -/
def transform (tree : TransformTree Scalar) (fuel : Nat) (frame : Frame) (fromTf toTf : String)
    (leastStamp : Timestamp) (toleranceMs : Int) :
    Except Fault (Bool × Frame × TransformTree Scalar) := do
  if (tree.sharedAncestor (ancestorToken fromTf toTf)).isSome then
    tree.getTransform kdlFrame fuel fromTf toTf leastStamp toleranceMs
  else
    let (found, tree) ← tree.findSharedAncestor fuel fromTf toTf
    if !found then .ok (false, frame, tree)
    else tree.getTransform kdlFrame fuel fromTf toTf leastStamp toleranceMs

def build (calls : List (TransformD Scalar × Bool)) : Except Fault (TransformTree Scalar) :=
  calls.foldlM (fun tree call => tree.addTransformNode call.1 call.2) empty

end TransformTree

end ProtoCore.Transform
