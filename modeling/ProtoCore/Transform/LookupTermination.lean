import ProtoCore.Transform.AncestorCache

/-!
# Lookups that end

The loops of `find_shared_ancestor` keep the nodes that they have visited. Those of
`get_transform` do not, and rely on the ancestor in the cache. Two pairs of names with one
key share it, and the second pair may lie on a cycle without the ancestor.
-/

set_option autoImplicit false

namespace ProtoCore.Transform

open Library

variable {Scalar Frame : Type}

/-! ## Visited nodes -/

/-- The nodes for which the body of a loop of `get_transform` runs. The loop is left at a
node without a usable entry. -/
def TransformTree.climbVisits (tree : TransformTree Scalar) (root : Option String)
    (lookup : Lookup Frame) (fuel : Nat) (start : Option String) : List String :=
  visits tree.parent (fun _ name => some name ≠ root)
    (fun name => ((tree.node name).bind fun node =>
      node.selected lookup.leastStamp lookup.toleranceMs).isNone) fuel [] start

namespace Lookup

section Walks

variable (kdlFrame : Vector3 Scalar → Quaternion Scalar → Frame) [Mul Frame] [Inv Frame] [One Frame]

/-- The nodes visited by each walk of `get_transform` that takes place. -/
def climbWalks (lookup : Lookup Frame) (tree : TransformTree Scalar) (root : Option String)
    (fuel : Nat) : List (List String) :=
  tree.climbVisits root lookup fuel (tree.pointer lookup.fromTf) ::
    match tree.climb kdlFrame root lookup.leastStamp lookup.toleranceMs fuel
      (tree.pointer lookup.fromTf) 1 with
    | .ok (true, _) => [tree.climbVisits root lookup fuel (tree.pointer lookup.toTf)]
    | _ => []

/-- The nodes visited by each walk of a lookup that takes place. -/
def walks (lookup : Lookup Frame) (tree : TransformTree Scalar) (fuel : Nat) :
    List (List String) :=
  if (tree.sharedAncestor lookup.token).isSome then
    lookup.climbWalks kdlFrame tree (tree.sharedAncestor lookup.token) fuel
  else if !tree.count lookup.fromTf || !tree.count lookup.toTf then []
  else
    tree.firstVisits fuel [] (tree.pointer lookup.fromTf) ::
      match tree.traverse fuel [] (tree.pointer lookup.fromTf) with
      | .ok (some fromTraversed) =>
          tree.secondVisits fromTraversed fuel [] (tree.pointer lookup.toTf) ::
            match tree.findSharedAncestor fuel lookup.fromTf lookup.toTf with
            | .ok (true, next) =>
                lookup.climbWalks kdlFrame next (next.sharedAncestor lookup.token) fuel
            | _ => []
      | _ => []

/-- The lookup ends, and no walk of it visits a node twice. -/
structure Ends (lookup : Lookup Frame) (tree : TransformTree Scalar) : Prop where
  ends : ∃ fuel, lookup.run kdlFrame tree fuel ≠ .error .outOfFuel
  once : ∀ fuel, ∀ walk ∈ lookup.walks kdlFrame tree fuel, walk.Nodup

end Walks

/-- The parents of a frame run into a cycle on which every node has a usable entry, past
usable entries only and never to the ancestor. -/
def Trapped (lookup : Lookup Frame) (tree : TransformTree Scalar) (root name : String) : Prop :=
  Library.Trapped tree.parent
    (fun other => other ≠ root ∧ tree.Usable lookup.leastStamp lookup.toleranceMs other) name

/-- The parents of a frame come to a node without a usable entry before the ancestor. -/
def Blocked (lookup : Lookup Frame) (tree : TransformTree Scalar) (root name : String) : Prop :=
  ∃ below last, Path tree.parent name below last ∧ root ∉ below ++ [last] ∧
    (tree.node last).isSome ∧ ¬ tree.Usable lookup.leastStamp lookup.toleranceMs last

/-- No walk of `get_transform` that takes place is trapped. -/
def Untrapped (lookup : Lookup Frame) (tree : TransformTree Scalar) (root : String) : Prop :=
  ¬ lookup.Trapped tree root lookup.fromTf ∧
    (lookup.Blocked tree root lookup.fromTf ∨ ¬ lookup.Trapped tree root lookup.toTf)

end Lookup

/-- An ancestor in the cache is that of the lookup's own pair, or no walk to it is trapped. -/
def CachingTree.Untangled (state : CachingTree Scalar) (lookup : Lookup Frame) : Prop :=
  ∀ root, state.tree.sharedAncestor lookup.token = some root →
    (∀ pair ∈ state.pairs, TransformTree.ancestorToken pair.1 pair.2 = lookup.token →
      pair = (lookup.fromTf, lookup.toTf) ∨ pair = (lookup.toTf, lookup.fromTf)) ∨
    lookup.Untrapped state.tree root

namespace TransformTree

/-! ## The walks of `get_transform` -/

theorem goesOn_iff {tree : TransformTree Scalar} {lookup : Lookup Frame} {root name : String} :
    GoesOn (fun name => some name ≠ some root)
        (fun name => ((tree.node name).bind fun node =>
          node.selected lookup.leastStamp lookup.toleranceMs).isNone) name ↔
      name ≠ root ∧ tree.Usable lookup.leastStamp lookup.toleranceMs name := by
  rw [GoesOn, Usable, decide_eq_true_eq, Ne, Option.some.injEq, ← Option.not_isSome,
    Bool.not_eq_false']

theorem nodup_climbVisits_iff (tree : TransformTree Scalar) (root : String) (lookup : Lookup Frame)
    (name : String) :
    (∀ fuel, (tree.climbVisits (some root) lookup fuel (some name)).Nodup) ↔
      ¬ lookup.Trapped tree root name := by
  unfold climbVisits Lookup.Trapped
  rw [nodup_visits_iff, not_iff_not]
  exact ⟨Trapped.mono fun _ => goesOn_iff.mp, Trapped.mono fun _ => goesOn_iff.mpr⟩

theorem not_trapped_of_orphan {tree : TransformTree Scalar} {root name : String}
    {lookup : Lookup Frame} (orphan : tree.parent name = none) :
    ¬ lookup.Trapped tree root name := by
  intro trapped
  obtain ⟨_, next, linked, _⟩ := trapped.step
  cases orphan.symm.trans linked

theorem parent_of_pointer {tree : TransformTree Scalar} {name : String}
    (absent : tree.pointer name = none) : tree.parent name = none := by
  rw [TransformTree.parent, Option.map_eq_none_iff.mp absent]
  rfl

theorem nodup_pointer_iff (tree : TransformTree Scalar) (root : String) (lookup : Lookup Frame)
    (name : String) :
    (∀ fuel, (tree.climbVisits (some root) lookup fuel (tree.pointer name)).Nodup) ↔
      ¬ lookup.Trapped tree root name := by
  cases pointing : tree.pointer name with
  | none =>
      refine ⟨fun _ => not_trapped_of_orphan (parent_of_pointer pointing), fun _ fuel => ?_⟩
      cases fuel <;> exact List.nodup_nil
  | some other =>
      obtain ⟨_, rfl⟩ := node_of_pointer pointing
      exact nodup_climbVisits_iff tree root lookup name

theorem blocked_up {tree : TransformTree Scalar} {root name : String} {lookup : Lookup Frame}
    (below : name ≠ root) (usable : tree.Usable lookup.leastStamp lookup.toleranceMs name) :
    lookup.Blocked tree root name ↔
      ∃ next, tree.parent name = some next ∧ lookup.Blocked tree root next := by
  constructor
  · intro blocked
    obtain ⟨_, last, path, outside, present, unusable⟩ := blocked
    cases path with
    | here => exact absurd usable unusable
    | up linked rest =>
        refine ⟨_, linked, _, last, rest, fun member => ?_, present, unusable⟩
        exact outside (List.mem_cons_of_mem _ member)
  · intro above
    obtain ⟨next, linked, under, last, path, outside, blocked⟩ := above
    refine ⟨name :: under, last, .up linked path, fun member => ?_, blocked⟩
    rcases List.mem_cons.mp member with same | later
    · exact below same.symm
    · exact outside later

/-! ## Names put in by lookups -/

theorem node_touch (tree : TransformTree Scalar) (name other : String) :
    (tree.touch name).node other = tree.node other := by
  unfold touch
  split
  · rfl
  · rename_i absent
    simp only [TransformTree.node, Function.update_apply]
    split
    · rename_i same
      rw [count, Bool.not_eq_true, Option.isSome_eq_false_iff, Option.isNone_iff_eq_none] at absent
      rw [same, absent]
      rfl
    · rfl

theorem pointer_touch (tree : TransformTree Scalar) (name other : String) :
    (tree.touch name).pointer other = tree.pointer other := by
  rw [pointer, pointer, node_touch]

/-! ## Searches -/

/-- Neither of two frames with a common ancestor is trapped below it. -/
theorem untrapped_of_join {tree : TransformTree Scalar} {lookup : Lookup Frame} {root : String}
    (join : Join tree.parent lookup.fromTf lookup.toTf root) : lookup.Untrapped tree root := by
  obtain ⟨_, _, fromPath, toPath, _⟩ := join
  have reaches : ∀ {name below}, Path tree.parent name below root →
      ¬ lookup.Trapped tree root name := fun path trapped => (trapped.along path).1 rfl
  exact ⟨reaches fromPath, .inr (reaches toPath)⟩

theorem parent_congr {tree next : TransformTree Scalar} (same : next.nodes = tree.nodes) :
    next.parent = tree.parent := by
  funext name
  rw [TransformTree.parent, TransformTree.parent, TransformTree.node, TransformTree.node, same]

theorem Linked.congr {tree next : TransformTree Scalar} (linked : tree.Linked)
    (same : next.nodes = tree.nodes) : next.Linked where
  parents := by
    rw [parent_congr same]
    intro name above linking
    rw [TransformTree.node, same]
    exact linked.parents name above linking
  finite := by
    obtain ⟨names, inside⟩ := linked.finite
    refine ⟨names, fun name present => inside name ?_⟩
    rw [count, ← same]
    exact present

/-- The climbs after a search that has succeeded are not trapped. -/
theorem Linked.untrapped_of_found {tree next : TransformTree Scalar} (linked : tree.Linked)
    {lookup : Lookup Frame} {fuel : Nat}
    (searched : tree.findSharedAncestor fuel lookup.fromTf lookup.toTf = .ok (true, next)) :
    next.Linked ∧ ∃ top, next.sharedAncestor lookup.token = some top ∧
      lookup.Untrapped next top := by
  rcases findSharedAncestor_ok searched with ⟨failed, _⟩ |
    ⟨_, _, _, top, _, _, join, _, _, same, cache⟩
  · cases failed
  · refine ⟨linked.congr same, top, ?_, untrapped_of_join ?_⟩
    · rw [cache]
      exact Function.update_self ..
    · rw [parent_congr same]
      exact join

theorem parent_touch (tree : TransformTree Scalar) (name : String) :
    (tree.touch name).parent = tree.parent := by
  funext other
  rw [TransformTree.parent, TransformTree.parent, node_touch]

theorem sharedAncestor_touch (tree : TransformTree Scalar) (name : String) :
    (tree.touch name).sharedAncestor = tree.sharedAncestor := by
  unfold touch
  split <;> rfl

theorem Linked.touch {tree : TransformTree Scalar} (linked : tree.Linked) (name : String) :
    (tree.touch name).Linked where
  parents := by
    rw [parent_touch]
    intro other above linking
    rw [node_touch]
    exact linked.parents other above linking
  finite := by
    obtain ⟨names, inside⟩ := linked.finite
    refine ⟨insert name names, fun other present => ?_⟩
    unfold TransformTree.touch at present
    split at present
    · exact Finset.mem_insert_of_mem (inside other present)
    · simp only [count, Function.update_apply] at present
      split at present
      · rename_i same
        exact same ▸ Finset.mem_insert_self _ _
      · exact Finset.mem_insert_of_mem (inside other present)

section Climbs

variable (kdlFrame : Vector3 Scalar → Quaternion Scalar → Frame) [Mul Frame] [Inv Frame] [One Frame]

omit [Inv Frame] [One Frame] in
theorem length_climbVisits {tree : TransformTree Scalar} {root : Option String}
    {lookup : Lookup Frame} {fuel : Nat} {visited : List String} {start : Option String}
    {frame : Frame}
    (out : tree.climb kdlFrame root lookup.leastStamp lookup.toleranceMs fuel start frame =
      .error .outOfFuel) :
    (visits tree.parent (fun _ name => some name ≠ root)
      (fun name => ((tree.node name).bind fun node =>
        node.selected lookup.leastStamp lookup.toleranceMs).isNone) fuel visited start).length =
      fuel := by
  induction fuel generalizing visited start frame with
  | zero =>
      cases start with
      | none => cases out
      | some name => rfl
  | succ fuel ih =>
      cases start with
      | none => cases out
      | some name =>
          rw [climb] at out
          split at out
          · cases out
          · rename_i below
            cases located : tree.node name with
            | none =>
                rw [located] at out
                cases out
            | some node =>
                rw [located] at out
                dsimp only [TransformTreeNode.transform] at out
                cases selected : node.selected lookup.leastStamp lookup.toleranceMs with
                | none =>
                    rw [selected] at out
                    cases out
                | some entry =>
                    rw [selected] at out
                    have above : tree.parent name = node.parent := by
                      rw [TransformTree.parent, located, Option.bind_some]
                    rw [visits, if_pos (decide_eq_true below), located, Option.bind_some, selected,
                      above, List.length_cons]
                    exact congrArg (· + 1) (ih out)

omit [Inv Frame] in
/-- A trapped walk uses up any fuel. -/
theorem climb_trapped {tree : TransformTree Scalar} {root name : String} {lookup : Lookup Frame}
    (trapped : lookup.Trapped tree root name) (fuel : Nat) (frame : Frame) :
    tree.climb kdlFrame (some root) lookup.leastStamp lookup.toleranceMs fuel (some name) frame =
      .error .outOfFuel := by
  induction fuel generalizing name frame with
  | zero => rfl
  | succ fuel ih =>
      obtain ⟨⟨below, usable⟩, next, linked, higher⟩ := trapped.step
      rw [climb_on kdlFrame (fun same => below (Option.some.inj same)) usable, linked]
      exact ih higher _

omit [Inv Frame] in
/-- A walk that ends fails exactly if it is blocked. -/
theorem climb_ok {tree : TransformTree Scalar} {root name : String} {lookup : Lookup Frame}
    {fuel : Nat} {frame result : Frame} {ok : Bool}
    (climbed : tree.climb kdlFrame (some root) lookup.leastStamp lookup.toleranceMs fuel
      (some name) frame = .ok (ok, result)) :
    ok = false ↔ lookup.Blocked tree root name := by
  induction fuel generalizing name frame with
  | zero => cases climbed
  | succ fuel ih =>
      by_cases top : name = root
      · rw [climb, if_pos (congrArg some top)] at climbed
        cases climbed
        constructor
        · intro failed
          cases failed
        · rintro ⟨below, last, path, outside, _⟩
          exact absurd (top ▸ path.start_mem) outside
      · have under : some name ≠ some root := fun same => top (Option.some.inj same)
        cases located : tree.node name with
        | none =>
            rw [climb, if_neg under, located] at climbed
            cases climbed
        | some node =>
            have present : (tree.node name).isSome := located ▸ rfl
            by_cases usable : tree.Usable lookup.leastStamp lookup.toleranceMs name
            · rw [climb_on kdlFrame under usable] at climbed
              rw [blocked_up top usable]
              cases linked : tree.parent name with
              | none =>
                  rw [linked] at climbed
                  cases fuel <;> cases climbed <;> simp
              | some next =>
                  rw [linked] at climbed
                  rw [ih climbed]
                  simp
            · rw [climb_blocked kdlFrame under present usable] at climbed
              cases climbed
              refine ⟨fun _ => ⟨[], name, .here name, ?_, present, usable⟩, fun _ => rfl⟩
              rw [List.nil_append, List.mem_singleton]
              exact fun same => top same.symm

omit [Inv Frame] in
/-- The same from a frame that the tree may not have. -/
theorem climb_pointer_ok {tree : TransformTree Scalar} {root name : String} {lookup : Lookup Frame}
    {fuel : Nat} {frame result : Frame} {ok : Bool}
    (climbed : tree.climb kdlFrame (some root) lookup.leastStamp lookup.toleranceMs fuel
      (tree.pointer name) frame = .ok (ok, result)) :
    ok = false ↔ lookup.Blocked tree root name := by
  cases pointing : tree.pointer name with
  | some other =>
      obtain ⟨_, rfl⟩ := node_of_pointer pointing
      rw [pointing] at climbed
      exact climb_ok kdlFrame climbed
  | none =>
      rw [pointing] at climbed
      have passed : ok = true := by cases fuel <;> cases climbed <;> rfl
      refine ⟨fun failed => absurd (passed.symm.trans failed) nofun, fun blocked => ?_⟩
      obtain ⟨_, last, path, _, present, _⟩ := blocked
      have orphan := parent_of_pointer pointing
      cases path with
      | here =>
          rw [pointer_of_node present] at pointing
          cases pointing
      | up linked _ => cases orphan.symm.trans linked

omit [Inv Frame] [One Frame] in
/-- With one pass for each name, a walk ends if it is not trapped. -/
theorem Linked.exists_enough {tree : TransformTree Scalar} (linked : tree.Linked)
    (lookup : Lookup Frame) :
    ∃ enough, ∀ root name frame, ¬ lookup.Trapped tree root name →
      tree.climb kdlFrame (some root) lookup.leastStamp lookup.toleranceMs enough
        (tree.pointer name) frame ≠ .error .outOfFuel := by
  obtain ⟨names, closed, pointed⟩ := linked.names
  refine ⟨names.card + 1, fun root name frame free out => ?_⟩
  have once := (nodup_pointer_iff tree root lookup name).mpr free (names.card + 1)
  have bounded := length_visits_le closed (pointed name) once
  rw [length_climbVisits kdlFrame out] at bounded
  omega

omit [Inv Frame] in
/-- No walk meets a null pointer. -/
theorem Linked.climb_error {tree : TransformTree Scalar} (linked : tree.Linked)
    {root : Option String} {leastStamp : Timestamp} {toleranceMs : Int} {fuel : Nat}
    {start : Option String} (known : ∀ name, start = some name → (tree.node name).isSome)
    {frame : Frame} {fault : Fault}
    (failed : tree.climb kdlFrame root leastStamp toleranceMs fuel start frame = .error fault) :
    fault = .outOfFuel := by
  induction fuel generalizing start frame with
  | zero =>
      cases start with
      | none => cases failed
      | some name =>
          cases failed
          rfl
  | succ fuel ih =>
      cases start with
      | none => cases failed
      | some name =>
          by_cases top : some name = root
          · rw [climb, if_pos top] at failed
            cases failed
          · by_cases usable : tree.Usable leastStamp toleranceMs name
            · rw [climb_on kdlFrame top usable] at failed
              exact ih (fun next above => linked.parents name next above) failed
            · rw [climb_blocked kdlFrame top (known name rfl) usable] at failed
              cases failed

omit [Inv Frame] in
theorem climb_pointer_trapped {tree : TransformTree Scalar} {root name : String}
    {lookup : Lookup Frame} (trapped : lookup.Trapped tree root name) (fuel : Nat)
    (frame : Frame) :
    tree.climb kdlFrame (some root) lookup.leastStamp lookup.toleranceMs fuel (tree.pointer name)
      frame = .error .outOfFuel := by
  cases pointing : tree.pointer name with
  | none => exact absurd trapped (not_trapped_of_orphan (parent_of_pointer pointing))
  | some other =>
      obtain ⟨_, rfl⟩ := node_of_pointer pointing
      exact climb_trapped kdlFrame trapped fuel frame

/-- Both walks of `get_transform` for frames that the tree may not have. -/
theorem getTransform_eq (tree : TransformTree Scalar) (lookup : Lookup Frame) (fuel : Nat) :
    tree.getTransform kdlFrame fuel lookup.fromTf lookup.toTf lookup.leastStamp
        lookup.toleranceMs =
      (tree.climb kdlFrame (tree.sharedAncestor lookup.token) lookup.leastStamp lookup.toleranceMs
        fuel (tree.pointer lookup.fromTf) 1).bind fun up =>
        if !up.1 then .ok (false, up.2, tree.touch lookup.fromTf)
        else (tree.climb kdlFrame (tree.sharedAncestor lookup.token) lookup.leastStamp
          lookup.toleranceMs fuel (tree.pointer lookup.toTf) up.2⁻¹).map fun down =>
            (down.1, down.2, (tree.touch lookup.fromTf).touch lookup.toTf) := by
  have twice : ∀ name, ((tree.touch lookup.fromTf).touch lookup.toTf).node name =
      tree.node name := fun name => by rw [node_touch, node_touch]
  unfold getTransform
  simp only [climb_congr kdlFrame (node_touch tree lookup.fromTf), climb_congr kdlFrame twice,
    pointer_touch, bind, Lookup.token]
  cases tree.climb kdlFrame (tree.sharedAncestor (ancestorToken lookup.fromTf lookup.toTf))
    lookup.leastStamp lookup.toleranceMs fuel (tree.pointer lookup.fromTf) 1 with
  | error fault => rfl
  | ok up =>
      obtain ⟨ok, frame⟩ := up
      cases ok
      · rfl
      · dsimp only [Except.bind]
        simp only [Bool.not_true, Bool.false_eq_true, if_false]
        cases tree.climb kdlFrame (tree.sharedAncestor (ancestorToken lookup.fromTf lookup.toTf))
          lookup.leastStamp lookup.toleranceMs fuel (tree.pointer lookup.toTf) frame⁻¹ with
        | error fault => rfl
        | ok down => rfl

theorem Linked.untrapped_of_ends {tree : TransformTree Scalar} (linked : tree.Linked)
    {lookup : Lookup Frame} {root : String}
    (cached : tree.sharedAncestor lookup.token = some root) {fuel : Nat}
    (ended : tree.getTransform kdlFrame fuel lookup.fromTf lookup.toTf lookup.leastStamp
      lookup.toleranceMs ≠ .error .outOfFuel) : lookup.Untrapped tree root := by
  rw [getTransform_eq, cached] at ended
  constructor
  · intro trapped
    rw [climb_pointer_trapped kdlFrame trapped] at ended
    exact ended rfl
  · rw [or_iff_not_imp_right, not_not]
    intro trapped
    cases climbed : tree.climb kdlFrame (some root) lookup.leastStamp lookup.toleranceMs fuel
      (tree.pointer lookup.fromTf) 1 with
    | error fault =>
        have known : ∀ name, tree.pointer lookup.fromTf = some name → (tree.node name).isSome := by
          intro name pointing
          obtain ⟨present, rfl⟩ := node_of_pointer pointing
          exact present
        rw [climbed, linked.climb_error kdlFrame known climbed] at ended
        exact absurd rfl ended
    | ok up =>
        obtain ⟨ok, frame⟩ := up
        cases ok with
        | false => exact (climb_pointer_ok kdlFrame climbed).mp rfl
        | true =>
            rw [climbed] at ended
            dsimp only [Except.bind] at ended
            rw [climb_pointer_trapped kdlFrame trapped] at ended
            exact absurd rfl ended

theorem Linked.ends_of_untrapped {tree : TransformTree Scalar} (linked : tree.Linked)
    {lookup : Lookup Frame} {root : String}
    (cached : tree.sharedAncestor lookup.token = some root) (free : lookup.Untrapped tree root) :
    ∃ enough, tree.getTransform kdlFrame enough lookup.fromTf lookup.toTf lookup.leastStamp
      lookup.toleranceMs ≠ .error .outOfFuel := by
  obtain ⟨fromFree, toFree⟩ := free
  obtain ⟨enough, ends⟩ := linked.exists_enough kdlFrame lookup
  refine ⟨enough, ?_⟩
  rw [getTransform_eq, cached]
  cases climbed : tree.climb kdlFrame (some root) lookup.leastStamp lookup.toleranceMs enough
    (tree.pointer lookup.fromTf) 1 with
  | error fault =>
      intro failed
      cases failed
      exact ends root lookup.fromTf 1 fromFree climbed
  | ok up =>
      obtain ⟨ok, frame⟩ := up
      have blocked := climb_pointer_ok kdlFrame climbed
      cases ok with
      | false => exact fun failed => by cases failed
      | true =>
          have toEnds := ends root lookup.toTf frame⁻¹
            (toFree.resolve_left fun under => absurd (blocked.mpr under) nofun)
          dsimp only [Except.bind]
          cases descended : tree.climb kdlFrame (some root) lookup.leastStamp lookup.toleranceMs
            enough (tree.pointer lookup.toTf) frame⁻¹ with
          | error fault =>
              intro failed
              cases failed
              exact toEnds descended
          | ok down => exact fun failed => by cases failed

omit [Inv Frame] in
theorem nodup_climbWalks {tree : TransformTree Scalar} {lookup : Lookup Frame} {root : String}
    (free : lookup.Untrapped tree root) (fuel : Nat) :
    ∀ walk ∈ lookup.climbWalks kdlFrame tree (some root) fuel, walk.Nodup := by
  obtain ⟨fromFree, toFree⟩ := free
  intro walk member
  rcases List.mem_cons.mp member with rfl | second
  · exact (nodup_pointer_iff tree root lookup lookup.fromTf).mpr fromFree fuel
  · split at second
    · rename_i climbed
      cases List.mem_singleton.mp second
      have blocked := climb_pointer_ok kdlFrame climbed
      refine (nodup_pointer_iff tree root lookup lookup.toTf).mpr ?_ fuel
      exact toFree.resolve_left fun under => absurd (blocked.mpr under) nofun
    · cases second

theorem Linked.search_runs {tree : TransformTree Scalar} (linked : tree.Linked)
    {lookup : Lookup Frame} (missed : tree.sharedAncestor lookup.token = none) :
    ∃ fuel, lookup.run kdlFrame tree fuel ≠ .error .outOfFuel := by
  obtain ⟨fuel, ended⟩ := linked.findSharedAncestor_ends lookup.fromTf lookup.toTf
  cases searched : tree.findSharedAncestor fuel lookup.fromTf lookup.toTf with
  | error fault =>
      refine ⟨fuel, ?_⟩
      rw [run_missed kdlFrame missed, searched]
      intro failed
      cases failed
      exact ended searched
  | ok result =>
      obtain ⟨ok, next⟩ := result
      cases ok with
      | false =>
          refine ⟨fuel, ?_⟩
          rw [run_missed kdlFrame missed, searched]
          exact fun failed => by cases failed
      | true =>
          obtain ⟨nextLinked, top, cached, free⟩ := linked.untrapped_of_found searched
          obtain ⟨enough, climbed⟩ := nextLinked.ends_of_untrapped kdlFrame cached free
          have search := findSharedAncestor_steady tree lookup.fromTf lookup.toTf fuel
            (max fuel enough) (Nat.le_max_left _ _) ended
          have climb := getTransform_steady kdlFrame next lookup.fromTf lookup.toTf
            lookup.leastStamp lookup.toleranceMs enough (max fuel enough) (Nat.le_max_right _ _)
            climbed
          dsimp only at search climb
          refine ⟨max fuel enough, ?_⟩
          rw [run_missed kdlFrame missed, search, searched]
          dsimp only [Except.bind]
          rw [if_pos rfl, climb]
          exact climbed

/-- A lookup that has to search ends. -/
theorem Linked.search_ends {tree : TransformTree Scalar} (linked : tree.Linked)
    {lookup : Lookup Frame} (missed : tree.sharedAncestor lookup.token = none) :
    lookup.Ends kdlFrame tree := by
  refine ⟨linked.search_runs kdlFrame missed, fun fuel walk member => ?_⟩
  rw [Lookup.walks, missed] at member
  simp only [Option.isSome_none, Bool.false_eq_true, if_false] at member
  split at member
  · cases member
  · rcases List.mem_cons.mp member with rfl | later
    · exact nodup_firstVisits tree fuel _
    · split at later
      · rcases List.mem_cons.mp later with rfl | climbing
        · exact nodup_secondVisits tree _ fuel _
        · split at climbing
          · rename_i searched
            obtain ⟨_, top, cached, free⟩ := linked.untrapped_of_found searched
            rw [cached] at climbing
            exact nodup_climbWalks kdlFrame free fuel walk climbing
          · cases climbing
      · cases later

/-- A lookup with an ancestor in the cache ends exactly if it is not trapped. -/
theorem Linked.hit_ends_iff {tree : TransformTree Scalar} (linked : tree.Linked)
    {lookup : Lookup Frame} {root : String}
    (cached : tree.sharedAncestor lookup.token = some root) :
    lookup.Ends kdlFrame tree ↔ lookup.Untrapped tree root := by
  have hit : (tree.sharedAncestor (ancestorToken lookup.fromTf lookup.toTf)).isSome = true :=
    cached ▸ rfl
  have ran : ∀ fuel, lookup.run kdlFrame tree fuel = tree.getTransform kdlFrame fuel lookup.fromTf
      lookup.toTf lookup.leastStamp lookup.toleranceMs := fun fuel => by
    rw [Lookup.run, TransformTree.transform, if_pos hit]
  constructor
  · intro ended
    obtain ⟨fuel, ended⟩ := ended.ends
    rw [ran] at ended
    exact linked.untrapped_of_ends kdlFrame cached ended
  · intro free
    constructor
    · obtain ⟨enough, ended⟩ := linked.ends_of_untrapped kdlFrame cached free
      exact ⟨enough, by rw [ran]; exact ended⟩
    · intro fuel walk member
      rw [Lookup.walks, cached] at member
      exact nodup_climbWalks kdlFrame free fuel walk member

/-- The climbs may bring in names without nodes. -/
theorem Linked.getTransform_ok {tree next : TransformTree Scalar} (linked : tree.Linked)
    {lookup : Lookup Frame} {fuel : Nat} {ok : Bool} {frame : Frame}
    (got : tree.getTransform kdlFrame fuel lookup.fromTf lookup.toTf lookup.leastStamp
      lookup.toleranceMs = .ok (ok, frame, next)) :
    next.Linked ∧ next.parent = tree.parent ∧ next.sharedAncestor = tree.sharedAncestor := by
  rw [getTransform_eq] at got
  cases climbed : tree.climb kdlFrame (tree.sharedAncestor lookup.token) lookup.leastStamp
    lookup.toleranceMs fuel (tree.pointer lookup.fromTf) 1 with
  | error fault =>
      rw [climbed] at got
      cases got
  | ok up =>
      obtain ⟨upOk, upFrame⟩ := up
      rw [climbed] at got
      dsimp only [Except.bind] at got
      cases upOk with
      | false =>
          cases got
          exact ⟨linked.touch _, parent_touch .., sharedAncestor_touch ..⟩
      | true =>
          cases descended : tree.climb kdlFrame (tree.sharedAncestor lookup.token)
            lookup.leastStamp lookup.toleranceMs fuel (tree.pointer lookup.toTf) upFrame⁻¹ with
          | error fault =>
              rw [descended] at got
              cases got
          | ok down =>
              rw [descended] at got
              cases got
              exact ⟨(linked.touch _).touch _, by rw [parent_touch, parent_touch],
                by rw [sharedAncestor_touch, sharedAncestor_touch]⟩

/-- What a lookup does to the tree: names may come in without nodes, and a search that has
succeeded leaves its ancestor in the cache. -/
theorem Linked.run_ok {tree next : TransformTree Scalar} (linked : tree.Linked)
    {lookup : Lookup Frame} {fuel : Nat} {ok : Bool} {frame : Frame}
    (ran : lookup.run kdlFrame tree fuel = .ok (ok, frame, next)) :
    next.Linked ∧ next.parent = tree.parent ∧
      (next.sharedAncestor = tree.sharedAncestor ∨
        tree.sharedAncestor lookup.token = none ∧
        ∃ top, Join tree.parent lookup.fromTf lookup.toTf top ∧
          next.sharedAncestor = Function.update tree.sharedAncestor lookup.token (some top)) := by
  cases cached : tree.sharedAncestor lookup.token with
  | some root =>
      have hit : (tree.sharedAncestor (ancestorToken lookup.fromTf lookup.toTf)).isSome = true :=
        cached ▸ rfl
      rw [Lookup.run, TransformTree.transform, if_pos hit] at ran
      obtain ⟨built, parents, cache⟩ := linked.getTransform_ok kdlFrame ran
      exact ⟨built, parents, .inl cache⟩
  | none =>
      rw [run_missed kdlFrame cached] at ran
      cases searched : tree.findSharedAncestor fuel lookup.fromTf lookup.toTf with
      | error fault =>
          rw [searched] at ran
          cases ran
      | ok result =>
          obtain ⟨found, after⟩ := result
          rw [searched] at ran
          rcases findSharedAncestor_ok searched with ⟨rfl, rfl⟩ |
            ⟨rfl, _, _, top, _, _, join, _, _, same, cache⟩
          · cases ran
            exact ⟨linked, rfl, .inl rfl⟩
          · dsimp only [Except.bind] at ran
            rw [if_pos rfl] at ran
            obtain ⟨built, parents, kept⟩ := (linked.congr same).getTransform_ok kdlFrame ran
            refine ⟨built, parents.trans (parent_congr same), .inr ⟨rfl, top, join, ?_⟩⟩
            exact kept.trans cache

end Climbs

end TransformTree

namespace CachingTree

open TransformTree

/-! ## Runs -/

/-- Every entry is where the two frames of one of the pairs with its key come together. -/
structure Anchored (state : CachingTree Scalar) : Prop where
  linked : state.tree.Linked
  joined : ∀ token top, state.tree.sharedAncestor token = some top → ∃ pair ∈ state.pairs,
    ancestorToken pair.1 pair.2 = token ∧ Join state.tree.parent pair.1 pair.2 top

theorem initial_anchored : (initial : CachingTree Scalar).Anchored where
  linked := empty_wellBuilt.linked
  joined _ _ cached := by cases cached

section Runs

variable (kdlFrame : Vector3 Scalar → Quaternion Scalar → Frame) [Mul Frame] [Inv Frame] [One Frame]

theorem Anchored.step {state next : CachingTree Scalar} {call : TreeCall Scalar Frame} {fuel : Nat}
    (anchored : state.Anchored) (stepped : state.step kdlFrame fuel call = some next) :
    next.Anchored := by
  cases call with
  | addTransformNode transform isStatic =>
      simp only [CachingTree.step] at stepped
      split at stepped
      · rename_i added
        cases stepped
        have grown := grown_addTransformNode added
        refine ⟨anchored.linked.addTransformNode added, fun token top cached => ?_⟩
        rw [grown.cache] at cached
        obtain ⟨pair, member, named, join⟩ := anchored.joined token top cached
        exact ⟨pair, member, named, join.mono grown.parents⟩
      · cases stepped
  | transform lookup =>
      simp only [CachingTree.step] at stepped
      split at stepped
      · rename_i found ran
        cases stepped
        obtain ⟨linked, parents, cache⟩ := anchored.linked.run_ok kdlFrame ran
        refine ⟨linked, fun token top cached => ?_⟩
        have tree : (state.looked lookup found.2.2).tree = found.2.2 := rfl
        have kept : ∀ pair ∈ state.pairs, pair ∈ (state.looked lookup found.2.2).pairs := by
          intro pair member
          simp only [CachingTree.looked]
          split
          · exact List.mem_cons_of_mem _ member
          · exact member
        rw [tree] at cached ⊢
        rw [parents]
        rcases cache with same | ⟨missed, above, join, updated⟩
        · rw [same] at cached
          obtain ⟨pair, member, named, before⟩ := anchored.joined token top cached
          exact ⟨pair, kept pair member, named, before⟩
        · have added : (lookup.fromTf, lookup.toTf) ∈ (state.looked lookup found.2.2).pairs := by
            simp only [CachingTree.looked, missed, updated, Function.update_self,
              Option.isNone_none, Option.isSome_some, Bool.and_self, if_true]
            exact List.mem_cons_self
          rw [updated, Function.update_apply] at cached
          split at cached
          · rename_i own
            cases cached
            exact ⟨_, added, own.symm, join⟩
          · obtain ⟨pair, member, named, before⟩ := anchored.joined token top cached
            exact ⟨pair, kept pair member, named, before⟩
      · cases stepped

theorem anchored_of_exec {fuel : Nat} {run : List (TreeCall Scalar Frame)}
    {final : CachingTree Scalar}
    (executed : (machine kdlFrame fuel).exec initial run = some final) : final.Anchored :=
  ((machine kdlFrame fuel).along_of_preserved Anchored
    (fun _ _ _ anchored stepped => anchored.step kdlFrame stepped) initial_anchored run).final
    executed

/-- In every state that additions and lookups can reach, a lookup ends and visits no node
twice if and only if an ancestor in the cache is that of its own pair, or no walk to it is
trapped. -/
theorem ends_iff_untangled {fuel : Nat} {run : List (TreeCall Scalar Frame)}
    {final : CachingTree Scalar}
    (executed : (machine kdlFrame fuel).exec initial run = some final) (lookup : Lookup Frame) :
    lookup.Ends kdlFrame final.tree ↔ final.Untangled lookup := by
  have anchored := anchored_of_exec kdlFrame executed
  cases cached : final.tree.sharedAncestor lookup.token with
  | none =>
      refine ⟨fun _ root hit => ?_, fun _ => anchored.linked.search_ends kdlFrame cached⟩
      cases cached.symm.trans hit
  | some top =>
      rw [anchored.linked.hit_ends_iff kdlFrame cached]
      constructor
      · intro free root hit
        cases cached.symm.trans hit
        exact .inr free
      · intro untangled
        rcases untangled top cached with own | free
        · obtain ⟨pair, member, named, join⟩ := anchored.joined _ top cached
          rcases own pair member named with rfl | rfl
          · exact untrapped_of_join join
          · exact untrapped_of_join join.symm
        · exact free

end Runs

theorem ends_iff_untangled_lookBack :
    (lookAcross "b" "a").Ends HalfTurn.frame lookBackFinal.tree ↔
      lookBackFinal.Untangled (lookAcross "b" "a") := by
  have enabled : ((machine HalfTurn.frame 8).exec initial lookBack).isSome = true := by
    decide +kernel
  have executed : (machine HalfTurn.frame 8).exec initial lookBack = some lookBackFinal := by
    obtain ⟨final, executed⟩ := Option.isSome_iff_exists.mp enabled
    rw [lookBackFinal, executed]
    rfl
  exact ends_iff_untangled HalfTurn.frame executed _

/-- Two frames under a root are looked up, and two others are each other's parents. -/
def tangle : List (TreeCall Int HalfTurn) :=
  [addUnderRoot "x:b" 1, addUnderRoot "a" 3, .transform (lookAcross "x:b" "a"),
    .addTransformNode ⟨⟨⟨0, 0⟩, "y"⟩, "x", ⟨5, 0, 0⟩, ⟨0, 0, 0, 1⟩⟩ false,
    .addTransformNode ⟨⟨⟨0, 0⟩, "x"⟩, "y", ⟨7, 0, 0⟩, ⟨0, 0, 0, 1⟩⟩ false]

def tangleFinal : CachingTree Int :=
  ((machine HalfTurn.frame 8).exec initial tangle).getD initial

theorem tangle_not_ends :
    ∃ final, (machine HalfTurn.frame 8).exec initial tangle = some final ∧
      ¬ (lookAcross "x" "b:a").Ends HalfTurn.frame final.tree := by
  have enabled : ((machine HalfTurn.frame 8).exec initial tangle).isSome = true := by
    decide +kernel
  obtain ⟨final, executed⟩ := Option.isSome_iff_exists.mp enabled
  have same : tangleFinal = final := by
    rw [tangleFinal, executed]
    rfl
  subst same
  refine ⟨tangleFinal, executed, fun ended => ?_⟩
  have cached : tangleFinal.tree.sharedAncestor (lookAcross "x" "b:a").token = some "root" := by
    decide +kernel
  have xParent : tangleFinal.tree.parent "x" = some "y" := by decide +kernel
  have yParent : tangleFinal.tree.parent "y" = some "x" := by decide +kernel
  have selected : ["x", "y"].all (fun name => name ≠ "root" && ((tangleFinal.tree.node name).bind
      fun node => node.selected ⟨0, 0⟩ (-1)).isSome) = true := by decide +kernel
  have linked := (anchored_of_exec HalfTurn.frame executed).linked
  refine ((linked.hit_ends_iff HalfTurn.frame cached).mp ended).1
    ⟨[], "x", ["x", "y"], .here "x", .up xParent (.up yParent (.here "x")), List.cons_ne_nil _ _,
      fun other member => ?_⟩
  have both := List.all_eq_true.mp selected other member
  rw [Bool.and_eq_true, decide_eq_true_eq] at both
  exact both

end CachingTree

end ProtoCore.Transform
