import Mathlib.Data.List.Induction
import ProtoCore.Library.Simulation
import ProtoCore.Transform.ParentConflict
import ProtoCore.Transform.StaticGossip

/-!
# The listeners of a network

Every listener adds the static transforms that it is given to a tree of its own, in the
order in which they come, and once more whenever a link gives it one again.
-/

set_option autoImplicit false

namespace ProtoCore.Transform

open Library

variable {Node Scalar Frame Bytes : Type}

def staticCalls (messages : List (TransformD Scalar)) : List (TransformD Scalar × Bool) :=
  messages.map fun message => (message, true)

theorem mem_staticCalls {messages : List (TransformD Scalar)} {call : TransformD Scalar × Bool} :
    call ∈ staticCalls messages ↔ call.1 ∈ messages ∧ call.2 = true := by
  obtain ⟨message, isStatic⟩ := call
  constructor
  · intro member
    obtain ⟨other, among, same⟩ := List.mem_map.mp member
    cases same
    exact ⟨among, rfl⟩
  · intro both
    obtain ⟨among, mark⟩ := both
    exact List.mem_map.mpr ⟨message, among, congrArg (Prod.mk message) mark.symm⟩

namespace TransformTree

/-! ## Repeated transforms -/

theorem build_append (calls : List (TransformD Scalar × Bool)) (call : TransformD Scalar × Bool) :
    build (calls ++ [call]) =
      (build calls).bind fun tree => tree.addTransformNode call.1 call.2 := by
  rw [build, List.foldlM_append, ← build]
  apply congrArg (Except.bind (build calls))
  funext tree
  exact bind_pure _

theorem build_staticCalls_append (messages : List (TransformD Scalar))
    (message : TransformD Scalar) : build (staticCalls (messages ++ [message])) =
      (build (staticCalls messages)).bind fun tree => tree.addTransformNode message true := by
  rw [staticCalls, List.map_append]
  exact build_append _ (message, true)

theorem settled_of_build {calls : List (TransformD Scalar × Bool)} {tree : TransformTree Scalar}
    (built : build calls = .ok tree) : tree.Settled := by
  induction calls using List.reverseRecOn generalizing tree with
  | nil =>
      cases built
      exact empty_settled
  | append_singleton earlier call ih =>
      rw [build_append] at built
      obtain ⟨before, first, _⟩ := build_wellBuilt earlier
      rw [first] at built
      exact (ih first).addTransformNode built

/-- The node of a static transform keeps an entry with its stamp. -/
theorem receive_again {messages : List (TransformD Scalar)} {tree : TransformTree Scalar}
    (built : build (staticCalls messages) = .ok tree) {message : TransformD Scalar}
    (member : message ∈ messages) {node : TransformTreeNode Scalar}
    (located : tree.node message.childFrameId = some node) :
    node.receive (message, true) = node := by
  have settled := (settled_of_build built).nodes _ node located
  have series := ((build_assembled built).series _ node located).2
  have called : (message, true) ∈ own (staticCalls messages) message.childFrameId :=
    mem_own.mpr ⟨mem_staticCalls.mpr ⟨member, rfl⟩, rfl⟩
  have isStatic : node.isStatic = true := by
    have retaining := (congrArg Series.retaining series).trans (Series.retaining_collect _)
    exact retaining.trans (List.any_eq_true.mpr ⟨_, called, rfl⟩)
  have marks : ∀ call ∈ own (staticCalls messages) message.childFrameId, call.2 = true :=
    fun call among => (mem_staticCalls.mp (mem_own.mp among).1).2
  have present : ∃ entry ∈ node.series.entries, entry.stamp = message.stamp := by
    rw [series]
    exact Series.exists_key_collect_of_marks marks called
  exact (settled.receive_eq_self_iff _).mpr ⟨fun _ => isStatic, .inl present⟩

/-- A static transform that the tree has been given before leaves all of it as it is. -/
theorem addTransformNode_again {messages : List (TransformD Scalar)} {tree : TransformTree Scalar}
    (built : build (staticCalls messages) = .ok tree) {message : TransformD Scalar}
    (member : message ∈ messages) : tree.addTransformNode message true = .ok tree := by
  have settled := settled_of_build built
  have assembled := build_assembled built
  have called : (message, true) ∈ staticCalls messages := mem_staticCalls.mpr ⟨member, rfl⟩
  obtain ⟨next, added, nextBuilt⟩ := settled.built.addTransformNode message true
  have taken : tree.addTransformNode (message, true).1 (message, true).2 = .ok next := added
  obtain ⟨child, located⟩ :=
    Option.isSome_iff_exists.mp ((assembled.present _).mpr ⟨_, called, .inl rfl⟩)
  obtain ⟨frame, framed⟩ :=
    Option.isSome_iff_exists.mp ((assembled.present _).mpr ⟨_, called, .inr rfl⟩)
  have linked : child.parent.or (some message.header.frameId) = child.parent := by
    have parents : child.parent = parentOf (staticCalls messages) message.childFrameId := by
      have above := assembled.parents message.childFrameId
      rw [TransformTree.parent, located] at above
      exact above
    have mine : (message, true) ∈ own (staticCalls messages) message.childFrameId :=
      mem_own.mpr ⟨called, rfl⟩
    rw [parents, parentOf]
    cases first : own (staticCalls messages) message.childFrameId with
    | nil =>
        rw [first] at mine
        cases mine
    | cons call rest => rfl
  have same : next = tree := by
    refine settled.built.ext nextBuilt fun name => ?_
    rw [node_addTransformNode settled.built taken]
    dsimp only
    split
    · rename_i here
      rw [here, located, Option.getD_some, receive_again built member located, linked]
    · split
      · rename_i here
        rw [here, framed, Option.getD_some]
      · rfl
  rw [added, same]

theorem exists_distinct_build [DecidableEq Scalar] (messages : List (TransformD Scalar)) :
    ∃ distinct : List (TransformD Scalar), distinct.Nodup ∧
      (∀ message, message ∈ distinct ↔ message ∈ messages) ∧
      build (staticCalls distinct) = build (staticCalls messages) := by
  induction messages using List.reverseRecOn with
  | nil => exact ⟨[], List.nodup_nil, fun _ => Iff.rfl, rfl⟩
  | append_singleton earlier message ih =>
      obtain ⟨distinct, once, same, trees⟩ := ih
      by_cases known : message ∈ distinct
      · obtain ⟨tree, built, _⟩ := build_wellBuilt (staticCalls distinct)
        refine ⟨distinct, once, fun other => ?_, ?_⟩
        · rw [List.mem_append, List.mem_singleton, ← same]
          constructor
          · exact .inl
          · intro either
            rcases either with among | rfl
            · exact among
            · exact known
        · rw [build_staticCalls_append, ← trees, built]
          exact (addTransformNode_again built known).symm
      · refine ⟨distinct ++ [message], ?_, fun other => ?_, ?_⟩
        · apply List.nodup_append.mpr
          refine ⟨once, List.nodup_singleton _, fun other among last here equal => ?_⟩
          rw [equal, List.mem_singleton.mp here] at among
          exact known among
        · rw [List.mem_append, List.mem_append, same]
        · rw [build_staticCalls_append, build_staticCalls_append, trees]

end TransformTree

/-! ## The same transforms -/

theorem SameParent.of_mem_iff {calls order : List (TransformD Scalar × Bool)}
    (parents : SameParent calls) (same : ∀ call, call ∈ order ↔ call ∈ calls) :
    SameParent order :=
  fun first member second other => parents first ((same _).mp member) second ((same _).mp other)

theorem SameParent.parentOf_of_mem_iff {calls order : List (TransformD Scalar × Bool)}
    (parents : SameParent calls) (same : ∀ call, call ∈ order ↔ call ∈ calls) :
    parentOf order = parentOf calls := by
  funext name
  apply Option.ext
  intro above
  rw [(parents.of_mem_iff same).parentOf_iff, parents.parentOf_iff]
  simp only [same]

theorem Consistent.of_mem_iff {kdlFrame : Vector3 Scalar → Quaternion Scalar → Frame}
    {calls order : List (TransformD Scalar × Bool)} (consistent : Consistent kdlFrame calls)
    (parents : SameParent calls) (same : ∀ call, call ∈ order ↔ call ∈ calls) :
    Consistent kdlFrame order := by
  intro call member leads
  unfold LeadsToRoot at leads
  rw [parents.parentOf_of_mem_iff same] at leads
  refine (consistent call ((same call).mp member) leads).of_mem_iff fun other => ?_
  rw [mem_own, mem_own, same]

theorem mem_staticCalls_iff {messages others : List (TransformD Scalar)}
    (same : ∀ message, message ∈ messages ↔ message ∈ others) (call : TransformD Scalar × Bool) :
    call ∈ staticCalls messages ↔ call ∈ staticCalls others := by
  rw [mem_staticCalls, mem_staticCalls, same]

/-- Two trees answer alike that have been given the same static transforms, each of them any
number of times and in any order. -/
theorem TransformTree.answers_of_mem_iff [DecidableEq Scalar] [Mul Frame] [Inv Frame] [One Frame]
    (kdlFrame : Vector3 Scalar → Quaternion Scalar → Frame)
    {messages others : List (TransformD Scalar)} (parents : SameParent (staticCalls messages))
    (consistent : Consistent kdlFrame (staticCalls messages))
    (same : ∀ message, message ∈ others ↔ message ∈ messages) {tree other : TransformTree Scalar}
    (built : build (staticCalls messages) = .ok tree)
    (otherBuilt : build (staticCalls others) = .ok other) (lookup : Lookup Frame) :
    ∃ answer, Returns .outOfFuel (lookup.answer kdlFrame tree) answer ∧
      Returns .outOfFuel (lookup.answer kdlFrame other) answer := by
  obtain ⟨first, firstOnce, firstSame, firstTree⟩ := exists_distinct_build messages
  obtain ⟨second, secondOnce, secondSame, secondTree⟩ := exists_distinct_build others
  have agree : second.Perm first := by
    apply (List.perm_ext_iff_of_nodup secondOnce firstOnce).mpr
    intro message
    rw [firstSame, secondSame, same]
  have members := mem_staticCalls_iff firstSame
  have free : OrderFree kdlFrame (staticCalls first) :=
    orderFree_of_consistent kdlFrame (parents.of_mem_iff members)
      (consistent.of_mem_iff parents members)
  exact free _ _ (.refl _) (agree.map _) tree other (firstTree.trans built)
    (secondTree.trans otherBuilt) lookup

/-! ## The network -/

namespace StaticNetwork

variable {Message : Type}

/-- The listener whose `static_tf_call_back` a move runs, and what it is given. -/
def called (network : StaticNetwork Node Message Bytes) :
    StaticMove Node Message → Option (Node × Message)
  | .deliver index =>
      match network.links[index]? with
      | some ⟨_, target, message :: _⟩ => some (target, message)
      | _ => none
  | _ => none

/-- Nothing is on a link or in a call of `publish`. -/
def Quiet (network : StaticNetwork Node Message Bytes) : Prop :=
  (∀ link ∈ network.links, link.queue = []) ∧ network.publishing = []

instance [DecidableEq Node] [DecidableEq Message] (network : StaticNetwork Node Message Bytes) :
    Decidable network.Quiet :=
  inferInstanceAs (Decidable (_ ∧ _))

theorem Quiet.not_inFlight {network : StaticNetwork Node Message Bytes} (quiet : network.Quiet)
    (message : Message) : ¬ network.InFlight message := by
  intro flying
  rcases flying with ⟨link, member, queued⟩ | ⟨call, calling, _⟩
  · rw [quiet.1 link member] at queued
    cases queued
  · rw [quiet.2] at calling
    cases calling

variable [DecidableEq Node] [DecidableEq Message] [DecidableEq Bytes]
  {serialize : Message ↪ Bytes} {network next : StaticNetwork Node Message Bytes}
  {move : StaticMove Node Message}

theorem received_of_called (stepped : network.step serialize move = some next) :
    (network.called move = none ∧ next.received = network.received) ∨
      ∃ target message, network.called move = some (target, message) ∧
        next.received = Function.update network.received target
          (insert message (network.received target)) := by
  cases move with
  | sendTransform node message =>
      cases stepped
      exact .inl ⟨rfl, rfl⟩
  | connect source target order =>
      simp only [step] at stepped
      split at stepped
      · cases stepped
        exact .inl ⟨rfl, rfl⟩
      · cases stepped
  | writeToCache call =>
      simp only [step] at stepped
      split at stepped
      · split at stepped
        · cases stepped
          exact .inl ⟨rfl, rfl⟩
        · cases stepped
          exact .inl ⟨rfl, rfl⟩
      · cases stepped
  | writeToSocket call =>
      simp only [step] at stepped
      split at stepped
      · cases stepped
        exact .inl ⟨rfl, rfl⟩
      · cases stepped
  | deliver index =>
      simp only [step] at stepped
      split at stepped
      · rename_i source target message queue located
        cases stepped
        refine .inr ⟨target, message, ?_, rfl⟩
        rw [called, located]
      · cases stepped

/-- The node has the message in its cache, or in a call of `publish`. -/
def Publishes (serialize : Message ↪ Bytes) (network : StaticNetwork Node Message Bytes)
    (node : Node) (message : Message) : Prop :=
  serialize message ∈ network.cache node ∨
    ∃ call ∈ network.publishing, call.node = node ∧ call.message = message

theorem Publishes.step {node : Node} {message : Message} (carried : Carried serialize network)
    (publishes : Publishes serialize network node message)
    (stepped : network.step serialize move = some next) :
    Publishes serialize next node message := by
  cases step_change stepped with
  | sent _ _ _ result | delivered _ _ _ _ _ _ _ _ _ result =>
      subst result
      rcases publishes with cached | ⟨call, calling, about⟩
      · exact .inl cached
      · exact .inr ⟨call, List.mem_append_left _ calling, about⟩
  | connected _ _ _ _ _ _ result =>
      subst result
      exact publishes
  | known _ _ others _ calls known result =>
      subst result
      rcases publishes with cached | ⟨call, calling, here, same⟩
      · exact .inl cached
      · rcases List.mem_cons.mp (calls.mem_iff.mp calling) with rfl | other
        · exact .inl (here ▸ same ▸ known)
        · exact .inr ⟨call, other, here, same⟩
  | cached source added others _ calls _ result =>
      subst result
      have grown : ∀ frame, frame ∈ network.cache node ∨ node = source ∧ frame = serialize added →
          frame ∈ Function.update network.cache source
            (insert (serialize added) (network.cache source)) node := by
        intro frame either
        rw [Function.update_apply]
        split
        · rename_i same
          rcases either with before | ⟨_, new⟩
          · exact Finset.mem_insert_of_mem (same ▸ before)
          · exact new ▸ Finset.mem_insert_self _ _
        · rename_i different
          rcases either with before | ⟨same, _⟩
          · exact before
          · exact absurd same different
      rcases publishes with cached | ⟨call, calling, here, same⟩
      · exact .inl (grown _ (.inl cached))
      · rcases List.mem_cons.mp (calls.mem_iff.mp calling) with rfl | other
        · exact .inl (grown _ (.inr ⟨here.symm, congrArg serialize same.symm⟩))
        · exact .inr ⟨call, List.mem_append_left _ other, here, same⟩
  | written _ _ others _ calls result =>
      subst result
      rcases publishes with cached | ⟨call, calling, here, same⟩
      · exact .inl cached
      · rcases List.mem_cons.mp (calls.mem_iff.mp calling) with rfl | other
        · exact .inl (here ▸ same ▸ carried.started _ calling rfl)
        · exact .inr ⟨call, other, here, same⟩

end StaticNetwork

/-- The gossip with the tree of each listener. -/
structure ListenerNetwork (Node Scalar Bytes : Type) where
  network : StaticNetwork Node (TransformD Scalar) Bytes
  trees : Node → Except Fault (TransformTree Scalar)

namespace ListenerNetwork

def initial : ListenerNetwork Node Scalar Bytes where
  network := .initial
  trees _ := .ok .empty

/-- Each tree has been built from what its listener has received. -/
def Grown (state : ListenerNetwork Node Scalar Bytes) : Prop :=
  ∀ node, ∃ messages, state.trees node = TransformTree.build (staticCalls messages) ∧
    ∀ message, message ∈ messages ↔ message ∈ state.network.received node

theorem grown_initial : (initial : ListenerNetwork Node Scalar Bytes).Grown :=
  fun _ => ⟨[], rfl, fun _ => iff_of_false List.not_mem_nil (Finset.notMem_empty _)⟩

variable [DecidableEq Node]

/-- `static_tf_call_back` adds what it is given to the tree before it publishes it. -/
def added (state : ListenerNetwork Node Scalar Bytes) (move : StaticMove Node (TransformD Scalar)) :
    Node → Except Fault (TransformTree Scalar) :=
  match state.network.called move with
  | none => state.trees
  | some (target, message) => Function.update state.trees target
      ((state.trees target).bind fun tree => tree.addTransformNode message true)

variable [DecidableEq Scalar] [DecidableEq Bytes]

def step (serialize : TransformD Scalar ↪ Bytes) (state : ListenerNetwork Node Scalar Bytes)
    (move : StaticMove Node (TransformD Scalar)) : Option (ListenerNetwork Node Scalar Bytes) :=
  (state.network.step serialize move).map fun network => ⟨network, state.added move⟩

def machine (serialize : TransformD Scalar ↪ Bytes) :
    Machine (ListenerNetwork Node Scalar Bytes) (StaticMove Node (TransformD Scalar)) :=
  ⟨step serialize⟩

variable {serialize : TransformD Scalar ↪ Bytes} {state next : ListenerNetwork Node Scalar Bytes}
  {move : StaticMove Node (TransformD Scalar)}

theorem step_eq (stepped : (machine serialize).step state move = some next) :
    state.network.step serialize move = some next.network ∧ next.trees = state.added move := by
  obtain ⟨network, taken, rfl⟩ := Option.map_eq_some_iff.mp stepped
  exact ⟨taken, rfl⟩

theorem Grown.step (grown : state.Grown)
    (stepped : (machine serialize).step state move = some next) : next.Grown := by
  obtain ⟨taken, trees⟩ := step_eq stepped
  intro node
  obtain ⟨messages, built, same⟩ := grown node
  unfold added at trees
  rcases StaticNetwork.received_of_called taken with
    ⟨idle, received⟩ | ⟨target, message, called, received⟩
  · rw [idle] at trees
    rw [trees, received]
    exact ⟨messages, built, same⟩
  · rw [called] at trees
    rw [trees, received]
    dsimp only
    by_cases here : node = target
    · subst here
      refine ⟨messages ++ [message], ?_, fun other => ?_⟩
      · rw [Function.update_self, built, TransformTree.build_staticCalls_append]
      · rw [Function.update_self, Finset.mem_insert, List.mem_append, List.mem_singleton, same,
          or_comm]
    · rw [Function.update_of_ne here, Function.update_of_ne here]
      exact ⟨messages, built, same⟩

theorem carried_of_exec {run : List (StaticMove Node (TransformD Scalar))}
    {start final : ListenerNetwork Node Scalar Bytes} (carried : start.network.Carried serialize)
    (executed : (machine serialize).exec start run = some final) :
    final.network.Carried serialize := by
  have preserved : ∀ (state : ListenerNetwork Node Scalar Bytes) move next,
      state.network.Carried serialize → (machine serialize).step state move = some next →
      next.network.Carried serialize :=
    fun _ _ _ valid stepped => valid.step (step_eq stepped).1
  exact ((machine serialize).along_of_preserved _ preserved carried run).final executed

/-- Nothing is received that has not been broadcast. -/
theorem broadcast_of_received {run : List (StaticMove Node (TransformD Scalar))}
    {final : ListenerNetwork Node Scalar Bytes}
    (executed : (machine serialize).exec initial run = some final) {node : Node}
    {message : TransformD Scalar} (received : message ∈ final.network.received node) :
    message ∈ run.filterMap StaticMove.message := by
  let frames := StaticNetwork.broadcasts serialize run
  let links := run.countP StaticMove.isConnect
  have preserved : ∀ (state : ListenerNetwork Node Scalar Bytes) move rest next,
      StaticNetwork.Bounded serialize frames links state.network (move :: rest) →
      (machine serialize).step state move = some next →
      StaticNetwork.Bounded serialize frames links next.network rest :=
    fun _ _ _ _ bounded stepped => bounded.step (step_eq stepped).1
  have bounded := (machine serialize).exec_of_remaining preserved
    (StaticNetwork.bounded_initial serialize run) executed
  have carried := carried_of_exec (StaticNetwork.carried_initial serialize) executed
  have framed : serialize message ∈ frames := by
    rcases carried.published node message received with cached | ⟨call, calling, _, same⟩
    · exact bounded.cache node cached
    · exact same ▸ bounded.called call calling
  obtain ⟨other, sent, same⟩ := List.mem_map.mp (List.mem_toFinset.mp framed)
  exact serialize.injective same ▸ sent

/-- A node has what it has broadcast itself. -/
theorem publishes_of_sent {run : List (StaticMove Node (TransformD Scalar))}
    {final : ListenerNetwork Node Scalar Bytes}
    (executed : (machine serialize).exec initial run = some final) {node : Node}
    {message : TransformD Scalar} (sent : .sendTransform node message ∈ run) :
    final.network.Publishes serialize node message := by
  obtain ⟨front, back, rfl⟩ := List.append_of_mem sent
  obtain ⟨before, led, onward⟩ := Machine.exists_middle executed
  obtain ⟨after, stepped, onward⟩ := (machine serialize).exec_cons_eq_some onward
  have carried := (carried_of_exec (StaticNetwork.carried_initial serialize) led).step
    (step_eq stepped).1
  have begun : after.network.Publishes serialize node message := by
    rw [← Option.some.inj (step_eq stepped).1]
    exact .inr ⟨_, List.mem_append_right _ List.mem_cons_self, rfl, rfl⟩
  have preserved : ∀ (state : ListenerNetwork Node Scalar Bytes) move next,
      state.network.Carried serialize ∧ state.network.Publishes serialize node message →
      (machine serialize).step state move = some next →
      next.network.Carried serialize ∧ next.network.Publishes serialize node message :=
    fun _ _ _ both stepped =>
      ⟨both.1.step (step_eq stepped).1, both.2.step both.1 (step_eq stepped).1⟩
  exact (((machine serialize).along_of_preserved _ preserved ⟨carried, begun⟩ back).final
    onward).2

theorem received_of_reached {run : List (StaticMove Node (TransformD Scalar))}
    {final : ListenerNetwork Node Scalar Bytes}
    (executed : (machine serialize).exec initial run = some final) (quiet : final.network.Quiet)
    {source node : Node} {message : TransformD Scalar}
    (sent : .sendTransform source message ∈ run)
    (reached : Relation.TransGen final.network.Linked source node) :
    message ∈ final.network.received node := by
  have carried := carried_of_exec (StaticNetwork.carried_initial serialize) executed
  have has : final.network.Has serialize source message := by
    rcases publishes_of_sent executed sent with cached | ⟨call, calling, _⟩
    · exact .inl cached
    · rw [quiet.2] at calling
      cases calling
  exact carried.has_reachable (quiet.not_inFlight message) has reached

/-- Two linked nodes broadcast a frame each, and both get both transforms back. -/
def crossing : List (StaticMove (Fin 2) (TransformD Int)) :=
  let first := (TransformTree.stamped "a" 0 0 1 true).1
  let second := (TransformTree.stamped "b" 0 0 2 true).1
  [.connect 0 1 [], .connect 1 0 [], .sendTransform 0 first, .sendTransform 1 second,
    .writeToCache 0, .writeToSocket 1, .writeToCache 0, .writeToSocket 0, .deliver 0, .deliver 1,
    .writeToCache 0, .writeToSocket 1, .writeToCache 0, .writeToSocket 0, .deliver 0, .deliver 1,
    .writeToCache 0, .writeToCache 0]

def crossingFinal : ListenerNetwork (Fin 2) Int (TransformD Int) :=
  ((machine (.refl _)).exec initial crossing).getD initial

end ListenerNetwork

end ProtoCore.Transform
