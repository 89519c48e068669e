import Mathlib.Data.String.Basic
import ProtoCore.Transform.LookupTermination

/-!
# Lookups of a listener

`lookupTransform` writes the frame that it finds into a message. Both walks of a lookup
multiply on the left, so the walk of one direction is the start of the other one.
-/

set_option autoImplicit false

namespace ProtoCore.Transform

open Library

variable {Scalar Frame : Type}

def Lookup.opposite (lookup : Lookup Frame) : Lookup Frame :=
  { lookup with fromTf := lookup.toTf, toTf := lookup.fromTf }

namespace TransformTree

theorem ancestorToken_comm (fromTf toTf : String) :
    ancestorToken toTf fromTf = ancestorToken fromTf toTf := by
  unfold ancestorToken
  rcases lt_trichotomy fromTf toTf with before | rfl | after
  · rw [if_pos before, if_neg (lt_asymm before)]
  · rfl
  · rw [if_neg (lt_asymm after), if_pos after]

/-! ## Walks -/

section Walks

variable (kdlFrame : Vector3 Scalar → Quaternion Scalar → Frame) [Group Frame]

/-- A walk takes the frame that it starts with along. -/
theorem climb_mul (tree : TransformTree Scalar) (root : Option String) (leastStamp : Timestamp)
    (toleranceMs : Int) (fuel : Nat) (start : Option String) (frame : Frame) :
    tree.climb kdlFrame root leastStamp toleranceMs fuel start frame =
      (tree.climb kdlFrame root leastStamp toleranceMs fuel start 1).map
        fun found => (found.1, found.2 * frame) := by
  induction fuel generalizing start frame with
  | zero =>
      cases start with
      | none =>
          have same : (1 : Frame) * frame = frame := one_mul frame
          rw [climb, climb, Except.map, same]
      | some name => rfl
  | succ fuel ih =>
      cases start with
      | none =>
          have same : (1 : Frame) * frame = frame := one_mul frame
          rw [climb, climb, Except.map, same]
      | some name =>
          rw [climb, climb]
          split
          · rw [Except.map, one_mul]
          · split
            · rfl
            · rename_i node _
              split
              · rw [Except.map, one_mul]
              · rename_i value _
                rw [ih _ (value * frame), ih _ (value * 1), mul_one]
                cases tree.climb kdlFrame root leastStamp toleranceMs fuel node.parent 1 with
                | error fault => rfl
                | ok found => rw [Except.map, Except.map, Except.map, mul_assoc]

/-- A lookup whose pair has an entry in the cache, of frames that the tree may not have. -/
theorem answer_cached {tree : TransformTree Scalar} {lookup : Lookup Frame} {top : String}
    (cached : tree.sharedAncestor lookup.token = some top) (fuel : Nat) :
    lookup.answer kdlFrame tree fuel =
      (tree.climb kdlFrame (some top) lookup.leastStamp lookup.toleranceMs fuel
        (tree.pointer lookup.fromTf) 1).bind fun up =>
          if !up.1 then .ok (false, up.2)
          else tree.climb kdlFrame (some top) lookup.leastStamp lookup.toleranceMs fuel
            (tree.pointer lookup.toTf) up.2⁻¹ := by
  have hit : (tree.sharedAncestor (ancestorToken lookup.fromTf lookup.toTf)).isSome = true :=
    cached ▸ rfl
  unfold Lookup.answer Lookup.run TransformTree.transform
  rw [if_pos hit, getTransform_eq, cached]
  cases tree.climb kdlFrame (some top) lookup.leastStamp lookup.toleranceMs fuel
    (tree.pointer lookup.fromTf) 1 with
  | error fault => rfl
  | ok up =>
      dsimp only [Except.bind]
      split
      · rfl
      · cases tree.climb kdlFrame (some top) lookup.leastStamp lookup.toleranceMs fuel
          (tree.pointer lookup.toTf) up.2⁻¹ <;> rfl

/-- Both directions take the two walks of the pair. -/
theorem answer_opposite {tree : TransformTree Scalar} {lookup : Lookup Frame} {top : String}
    (cached : tree.sharedAncestor lookup.token = some top) {fuel : Nat} {frame : Frame}
    (answered : lookup.answer kdlFrame tree fuel = .ok (true, frame)) :
    lookup.opposite.answer kdlFrame tree fuel = .ok (true, frame⁻¹) := by
  have back : tree.sharedAncestor lookup.opposite.token = some top :=
    (congrArg tree.sharedAncestor (ancestorToken_comm lookup.fromTf lookup.toTf)).trans cached
  rw [answer_cached kdlFrame cached] at answered
  rw [answer_cached kdlFrame back]
  cases first : tree.climb kdlFrame (some top) lookup.leastStamp lookup.toleranceMs fuel
    (tree.pointer lookup.fromTf) 1 with
  | error fault =>
      rw [first] at answered
      cases answered
  | ok up =>
      obtain ⟨upOk, up⟩ := up
      cases upOk with
      | false =>
          rw [first] at answered
          cases answered
      | true =>
          rw [first] at answered
          have second : tree.climb kdlFrame (some top) lookup.leastStamp lookup.toleranceMs fuel
              (tree.pointer lookup.toTf) up⁻¹ = .ok (true, frame) := answered
          rw [climb_mul] at second
          cases other : tree.climb kdlFrame (some top) lookup.leastStamp lookup.toleranceMs fuel
            (tree.pointer lookup.toTf) 1 with
          | error fault =>
              rw [other] at second
              cases second
          | ok down =>
              obtain ⟨downOk, down⟩ := down
              rw [other] at second
              cases second
              have returned : tree.climb kdlFrame (some top) lookup.leastStamp lookup.toleranceMs
                  fuel (tree.pointer lookup.fromTf) down⁻¹ = .ok (true, up * down⁻¹) := by
                rw [climb_mul, first]
                rfl
              have product : (down * up⁻¹)⁻¹ = up * down⁻¹ := by rw [mul_inv_rev, inv_inv]
              rw [product]
              have walked : tree.climb kdlFrame (some top) lookup.opposite.leastStamp
                  lookup.opposite.toleranceMs fuel (tree.pointer lookup.opposite.fromTf) 1 =
                  .ok (true, down) := other
              rw [walked]
              exact returned

/-! ## Later lookups -/

/-- Nodes and cache entries stay as they are. -/
structure Kept (tree next : TransformTree Scalar) : Prop where
  nodes : ∀ name, next.node name = tree.node name
  cache : ∀ token top, tree.sharedAncestor token = some top → next.sharedAncestor token = some top

theorem Kept.refl (tree : TransformTree Scalar) : Kept tree tree where
  nodes _ := rfl
  cache _ _ cached := cached

theorem Kept.trans {tree middle next : TransformTree Scalar} (first : Kept tree middle)
    (second : Kept middle next) : Kept tree next where
  nodes name := (second.nodes name).trans (first.nodes name)
  cache token top cached := second.cache token top (first.cache token top cached)

theorem Kept.touch (tree : TransformTree Scalar) (name : String) : Kept tree (tree.touch name) where
  nodes := node_touch tree name
  cache token _ cached := (congrFun (sharedAncestor_touch tree name) token).trans cached

theorem Kept.answer {tree next : TransformTree Scalar} (kept : Kept tree next)
    {lookup : Lookup Frame} {top : String} (cached : tree.sharedAncestor lookup.token = some top)
    (fuel : Nat) : lookup.answer kdlFrame next fuel = lookup.answer kdlFrame tree fuel := by
  rw [answer_cached kdlFrame cached, answer_cached kdlFrame (kept.cache _ _ cached)]
  simp only [pointer, climb_congr kdlFrame kept.nodes, kept.nodes]

theorem kept_getTransform {tree next : TransformTree Scalar} {lookup : Lookup Frame} {fuel : Nat}
    {ok : Bool} {frame : Frame}
    (got : tree.getTransform kdlFrame fuel lookup.fromTf lookup.toTf lookup.leastStamp
      lookup.toleranceMs = .ok (ok, frame, next)) : Kept tree next := by
  rw [getTransform_eq] at got
  cases climbed : tree.climb kdlFrame (tree.sharedAncestor lookup.token) lookup.leastStamp
    lookup.toleranceMs fuel (tree.pointer lookup.fromTf) 1 with
  | error fault =>
      rw [climbed] at got
      cases got
  | ok up =>
      rw [climbed] at got
      dsimp only [Except.bind] at got
      split at got
      · cases got
        exact .touch tree _
      · cases descended : tree.climb kdlFrame (tree.sharedAncestor lookup.token)
          lookup.leastStamp lookup.toleranceMs fuel (tree.pointer lookup.toTf) up.2⁻¹ with
        | error fault =>
            rw [descended] at got
            cases got
        | ok down =>
            rw [descended] at got
            cases got
            exact (Kept.touch tree _).trans (.touch _ _)

/-- A lookup keeps the tree. If it succeeds, it leaves an entry for its pair, with which it
would answer the same. -/
theorem kept_run {tree next : TransformTree Scalar} {lookup : Lookup Frame} {fuel : Nat}
    {ok : Bool} {frame : Frame} (ran : lookup.run kdlFrame tree fuel = .ok (ok, frame, next)) :
    Kept tree next ∧ (ok = true → ∃ top, next.sharedAncestor lookup.token = some top ∧
      lookup.answer kdlFrame next fuel = .ok (ok, frame)) := by
  cases cached : tree.sharedAncestor lookup.token with
  | some top =>
      have hit : (tree.sharedAncestor (ancestorToken lookup.fromTf lookup.toTf)).isSome = true :=
        cached ▸ rfl
      have answered : lookup.answer kdlFrame tree fuel = .ok (ok, frame) := by
        rw [Lookup.answer, ran]
        rfl
      rw [Lookup.run, TransformTree.transform, if_pos hit] at ran
      have kept := kept_getTransform kdlFrame ran
      exact ⟨kept, fun _ =>
        ⟨top, kept.cache _ _ cached, (kept.answer kdlFrame cached fuel).trans answered⟩⟩
  | none =>
      rw [run_missed kdlFrame cached] at ran
      cases searched : tree.findSharedAncestor fuel lookup.fromTf lookup.toTf with
      | error fault =>
          rw [searched] at ran
          cases ran
      | ok result =>
          obtain ⟨found, after⟩ := result
          rw [searched] at ran
          rcases findSharedAncestor_ok searched with ⟨rfl, rfl⟩ |
            ⟨rfl, _, _, top, _, _, _, _, _, same, cache⟩
          · cases ran
            exact ⟨.refl _, fun succeeded => by cases succeeded⟩
          · dsimp only [Except.bind] at ran
            rw [if_pos rfl] at ran
            have named : after.sharedAncestor lookup.token = some top := by
              rw [cache]
              exact Function.update_self ..
            have before : Kept tree after := by
              constructor
              · intro name
                rw [TransformTree.node, TransformTree.node, same]
              · intro token other known
                rw [cache, Function.update_of_ne, known]
                intro equal
                cases cached.symm.trans (equal ▸ known)
            have kept := kept_getTransform kdlFrame ran
            have hit : (after.sharedAncestor
                (ancestorToken lookup.fromTf lookup.toTf)).isSome = true := named ▸ rfl
            have answered : lookup.answer kdlFrame after fuel = .ok (ok, frame) := by
              rw [Lookup.answer, Lookup.run, TransformTree.transform, if_pos hit, ran]
              rfl
            exact ⟨before.trans kept, fun _ =>
              ⟨top, kept.cache _ _ named, (kept.answer kdlFrame named fuel).trans answered⟩⟩

end Walks

end TransformTree

/-! ## Messages -/

section Messages

variable (kdlFrame : Vector3 Scalar → Quaternion Scalar → Frame) [Group Frame]
  (transition : Frame → Vector3 Scalar) (rotation : Frame → Quaternion Scalar)

/-- The message is changed only if the lookup succeeds, and keeps its stamp. -/
def TransformTree.lookupTransform (tree : TransformTree Scalar) (fuel : Nat)
    (fromTf toTf : String) (transform : TransformD Scalar) (timeoutMs : Int) :
    Except Fault (Bool × TransformD Scalar × TransformTree Scalar) := do
  let (ret, frame, tree) ←
    tree.transform kdlFrame fuel 1 fromTf toTf transform.header.timestamp timeoutMs
  if ret then
    .ok (true, {
      header := { transform.header with frameId := fromTf }
      childFrameId := toTf
      transition := transition frame
      rotation := rotation frame }, tree)
  else .ok (false, transform, tree)

/-- The call of `transform` that `lookupTransform` makes. -/
def lookupOf (fromTf toTf : String) (transform : TransformD Scalar) (timeoutMs : Int) :
    Lookup Frame :=
  ⟨1, fromTf, toTf, transform.header.timestamp, timeoutMs⟩

def replyOf (fromTf toTf : String) (transform : TransformD Scalar) (frame : Frame) :
    TransformD Scalar where
  header := { transform.header with frameId := fromTf }
  childFrameId := toTf
  transition := transition frame
  rotation := rotation frame

namespace TransformTree

theorem lookupTransform_true_iff {tree : TransformTree Scalar} {fuel : Nat} {fromTf toTf : String}
    {request reply : TransformD Scalar} {timeoutMs : Int} {next : TransformTree Scalar} :
    tree.lookupTransform kdlFrame transition rotation fuel fromTf toTf request timeoutMs =
        .ok (true, reply, next) ↔
      ∃ frame, (lookupOf fromTf toTf request timeoutMs).run kdlFrame tree fuel =
          .ok (true, frame, next) ∧ reply = replyOf transition rotation fromTf toTf request frame := by
  unfold lookupTransform Lookup.run lookupOf replyOf
  cases tree.transform kdlFrame fuel (1 : Frame) fromTf toTf request.header.timestamp timeoutMs with
  | error fault =>
      constructor
      · intro failed
        cases failed
      · intro found
        obtain ⟨_, failed, _⟩ := found
        cases failed
  | ok found =>
      obtain ⟨ret, frame, after⟩ := found
      cases ret with
      | false =>
          constructor
          · intro failed
            cases failed
          · intro found
            obtain ⟨_, failed, _⟩ := found
            cases failed
      | true =>
          constructor
          · intro succeeded
            cases succeeded
            exact ⟨frame, rfl, rfl⟩
          · intro found
            obtain ⟨_, same, rfl⟩ := found
            cases same
            rfl

theorem run_of_answer {tree : TransformTree Scalar} {lookup : Lookup Frame} {fuel : Nat}
    {ok : Bool} {frame : Frame} (answered : lookup.answer kdlFrame tree fuel = .ok (ok, frame)) :
    ∃ next, lookup.run kdlFrame tree fuel = .ok (ok, frame, next) := by
  unfold Lookup.answer at answered
  cases ran : lookup.run kdlFrame tree fuel with
  | error fault =>
      rw [ran] at answered
      cases answered
  | ok found =>
      rw [ran] at answered
      cases answered
      exact ⟨found.2.2, rfl⟩

theorem kept_of_exec {fuel : Nat} {later : List (Lookup Frame)} {start final : CachingTree Scalar}
    (executed : (CachingTree.machine kdlFrame fuel).exec start (later.map .transform) =
      some final) : Kept start.tree final.tree := by
  induction later generalizing start with
  | nil =>
      cases executed
      exact .refl _
  | cons lookup later ih =>
      obtain ⟨next, stepped, executed⟩ :=
        (CachingTree.machine kdlFrame fuel).exec_cons_eq_some executed
      simp only [CachingTree.machine, CachingTree.step] at stepped
      split at stepped
      · rename_i found ran
        cases stepped
        exact (kept_run kdlFrame ran).1.trans (ih executed)
      · cases stepped

/-- A successful lookup stands until something is added to the tree, whatever is looked up in
between: it gives the same message again, and the lookup from the second frame to the first
one succeeds and gives the inverse motion. This holds in every tree, those with loops or with
entries of other pairs in the cache included. -/
theorem lookupTransform_stands
    (faithful : ∀ frame, kdlFrame (transition frame) (rotation frame) = frame)
    {tree : TransformTree Scalar} {fuel : Nat} {fromTf toTf : String}
    {request there : TransformD Scalar} {timeoutMs : Int} {start final : CachingTree Scalar}
    (found : tree.lookupTransform kdlFrame transition rotation fuel fromTf toTf request timeoutMs =
      .ok (true, there, start.tree)) (later : List (Lookup Frame))
    (executed : (CachingTree.machine kdlFrame fuel).exec start (later.map .transform) =
      some final) :
    (∃ next, final.tree.lookupTransform kdlFrame transition rotation fuel fromTf toTf request
      timeoutMs = .ok (true, there, next)) ∧
    ∃ back next, final.tree.lookupTransform kdlFrame transition rotation fuel toTf fromTf request
        timeoutMs = .ok (true, back, next) ∧
      back.toKDL kdlFrame = (there.toKDL kdlFrame)⁻¹ := by
  obtain ⟨frame, ran, rfl⟩ := (lookupTransform_true_iff kdlFrame transition rotation).mp found
  obtain ⟨top, cached, answered⟩ := (kept_run kdlFrame ran).2 rfl
  have kept := kept_of_exec kdlFrame executed
  have again := (kept.answer kdlFrame cached fuel).trans answered
  have opposite := answer_opposite kdlFrame (kept.cache _ _ cached) again
  obtain ⟨next, repeated⟩ := run_of_answer kdlFrame again
  obtain ⟨after, returned⟩ := run_of_answer kdlFrame opposite
  refine ⟨⟨next, ?_⟩, replyOf transition rotation toTf fromTf request frame⁻¹, after, ?_, ?_⟩
  · exact (lookupTransform_true_iff kdlFrame transition rotation).mpr ⟨frame, repeated, rfl⟩
  · exact (lookupTransform_true_iff kdlFrame transition rotation).mpr ⟨_, returned, rfl⟩
  · exact (faithful _).trans (congrArg Inv.inv (faithful frame)).symm

end TransformTree

end Messages

namespace HalfTurn

def transition (motion : HalfTurn) : Vector3 Int := ⟨motion.x, motion.y, motion.z⟩

def rotation (motion : HalfTurn) : Quaternion Int :=
  if motion.turned then ⟨0, 0, 1, 0⟩ else ⟨0, 0, 0, 1⟩

theorem frame_transition_rotation (motion : HalfTurn) :
    frame motion.transition motion.rotation = motion := by
  obtain ⟨x, y, z, turned⟩ := motion
  cases turned <;> rfl

end HalfTurn

namespace TransformTree

def anyRequest : TransformD Int := (HalfTurn.call "" 0 ⟨0, 0, 0, 1⟩).1

def lookedUp (tree : TransformTree Int) (fromTf toTf : String) :
    Except Fault (Bool × TransformD Int × TransformTree Int) :=
  tree.lookupTransform HalfTurn.frame HalfTurn.transition HalfTurn.rotation 4 fromTf toTf anyRequest
    (-1)

/-- Two siblings, and a lookup from their root in between. -/
theorem lookupTransform_stands_turnedSibling :
    ∃ tree there next last back after, build turnedSibling = .ok tree ∧
      tree.lookedUp "a" "b" = .ok (true, there, next) ∧
      (CachingTree.machine HalfTurn.frame 4).exec ⟨next, []⟩ [.transform
        (CachingTree.lookAcross "root" "b")] = some last ∧
      last.tree.lookedUp "b" "a" = .ok (true, back, after) ∧
      back.toKDL HalfTurn.frame = (there.toKDL HalfTurn.frame)⁻¹ := by
  obtain ⟨tree, built, _⟩ := build_wellBuilt turnedSibling
  have looked : ((tree.lookedUp "a" "b").toOption.map fun found => found.1) = some true :=
    eval_build (fun tree => (tree.lookedUp "a" "b").toOption.map fun found => found.1) built
      (by decide +kernel)
  have goesOn : ((tree.lookedUp "a" "b").toOption.bind fun found =>
      (CachingTree.machine HalfTurn.frame 4).exec ⟨found.2.2, []⟩
        [.transform (CachingTree.lookAcross "root" "b")]).isSome = true :=
    eval_build (fun tree => ((tree.lookedUp "a" "b").toOption.bind fun found =>
      (CachingTree.machine HalfTurn.frame 4).exec ⟨found.2.2, []⟩
        [.transform (CachingTree.lookAcross "root" "b")]).isSome) built (by decide +kernel)
  cases found : tree.lookedUp "a" "b" with
  | error fault =>
      rw [found] at looked
      cases looked
  | ok result =>
      obtain ⟨ret, there, next⟩ := result
      rw [found] at looked goesOn
      obtain rfl : ret = true := Option.some.inj looked
      obtain ⟨last, executed⟩ := Option.isSome_iff_exists.mp goesOn
      let start : CachingTree Int := ⟨next, []⟩
      have first : tree.lookedUp "a" "b" = .ok (true, there, start.tree) := found
      obtain ⟨_, back, after, returned, inverse⟩ :=
        lookupTransform_stands HalfTurn.frame HalfTurn.transition HalfTurn.rotation
          HalfTurn.frame_transition_rotation first [CachingTree.lookAcross "root" "b"] executed
      exact ⟨tree, there, next, last, back, after, built, found, executed, returned, inverse⟩

end TransformTree

end ProtoCore.Transform
