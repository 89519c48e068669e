import Mathlib.Algebra.BigOperators.Group.Finset.Basic
import Mathlib.Algebra.GroupWithZero.Nat
import Mathlib.Data.Fintype.Card
import Mathlib.Data.List.Perm.Basic
import Mathlib.Logic.Relation
import ProtoCore.Library.Machine

/-!
# Gossip of static transforms

Every listener publishes each static transform it receives, with `cache`. The cache of
serialised messages stops the second publication at a node, and gives a later
connection what it has missed. A link is a connection for `/tf_static`.
-/

set_option autoImplicit false

namespace ProtoCore.Transform

open Library

variable {Node Message Frame : Type}

structure StaticLink (Node Message : Type) where
  source : Node
  target : Node
  queue : List Message
  deriving DecidableEq

/-- A call of `publish` in progress: before `write_to_cache`, or, `cached`, before
`write_to_socket`. -/
structure StaticPublish (Node Message : Type) where
  node : Node
  message : Message
  cached : Bool
  deriving DecidableEq

/-- The caches, the transforms each tree has been given, the links with their frames, the
calls in progress and a record of the messages forwarded. -/
structure StaticNetwork (Node Message Frame : Type) where
  cache : Node → Finset Frame
  received : Node → Finset Message
  links : List (StaticLink Node Message)
  publishing : List (StaticPublish Node Message)
  forwarded : List (Node × Message)

inductive StaticMove (Node Message : Type) where
  | sendTransform (node : Node) (message : Message)
  | connect (source target : Node) (order : List Message)
  | writeToCache (call : Nat)
  | writeToSocket (call : Nat)
  | deliver (link : Nat)
  deriving DecidableEq

namespace StaticMove

def message : StaticMove Node Message → Option Message
  | .sendTransform _ message => some message
  | _ => none

def isConnect : StaticMove Node Message → Bool
  | .connect _ _ _ => true
  | _ => false

def isSend : StaticMove Node Message → Bool
  | .sendTransform _ _ => true
  | _ => false

/-- The steps of the gossip itself: deliveries and the halves of their publications. -/
def internal : StaticMove Node Message → Bool
  | .writeToCache _ | .writeToSocket _ | .deliver _ => true
  | _ => false

end StaticMove

def StaticLink.append [DecidableEq Node] (link : StaticLink Node Message) (node : Node)
    (message : Message) : StaticLink Node Message :=
  if link.source = node then { link with queue := link.queue ++ [message] } else link

namespace StaticNetwork

def initial : StaticNetwork Node Message Frame where
  cache _ := ∅
  received _ := ∅
  links := []
  publishing := []
  forwarded := []

variable [DecidableEq Node] [DecidableEq Message] [DecidableEq Frame]

/-- `static_tf_call_back` gives the message to the tree and publishes it. A new connection
is sent the whole cache, in the order of the unordered set. A receiver parses a frame back
to its message, so `serialize` is an embedding. -/
def step (serialize : Message ↪ Frame) (network : StaticNetwork Node Message Frame) :
    StaticMove Node Message → Option (StaticNetwork Node Message Frame)
  | .sendTransform node message =>
      some { network with publishing := network.publishing ++ [⟨node, message, false⟩] }
  | .connect source target order =>
      if order.Nodup ∧ (order.map serialize).toFinset = network.cache source then
        some { network with links := network.links ++ [⟨source, target, order⟩] }
      else none
  | .writeToCache call =>
      match network.publishing[call]? with
      | some ⟨node, message, false⟩ =>
          if serialize message ∈ network.cache node then
            some { network with publishing := network.publishing.eraseIdx call }
          else
            some { network with
              cache := Function.update network.cache node
                (insert (serialize message) (network.cache node))
              publishing := network.publishing.eraseIdx call ++ [⟨node, message, true⟩] }
      | _ => none
  | .writeToSocket call =>
      match network.publishing[call]? with
      | some ⟨node, message, true⟩ =>
          some { network with
            links := network.links.map fun link => link.append node message
            publishing := network.publishing.eraseIdx call
            forwarded := network.forwarded ++ [(node, message)] }
      | _ => none
  | .deliver index =>
      match network.links[index]? with
      | some ⟨source, target, message :: queue⟩ =>
          some { network with
            links := network.links.set index ⟨source, target, queue⟩
            received := Function.update network.received target
              (insert message (network.received target))
            publishing := network.publishing ++ [⟨target, message, false⟩] }
      | _ => none

def machine (serialize : Message ↪ Frame) :
    Machine (StaticNetwork Node Message Frame) (StaticMove Node Message) := ⟨step serialize⟩

/-- What one step does, with the calls in progress up to their order. -/
inductive Change (serialize : Message ↪ Frame) (network : StaticNetwork Node Message Frame)
    (move : StaticMove Node Message) (next : StaticNetwork Node Message Frame) : Prop where
  | sent (node : Node) (message : Message) (acting : move = .sendTransform node message)
      (result : next = { network with
        publishing := network.publishing ++ [⟨node, message, false⟩] })
  | connected (source target : Node) (order : List Message)
      (acting : move = .connect source target order) (distinct : order.Nodup)
      (whole : (order.map serialize).toFinset = network.cache source)
      (result : next = { network with links := network.links ++ [⟨source, target, order⟩] })
  | known (node : Node) (message : Message) (others : List (StaticPublish Node Message))
      (acting : move.internal = true)
      (calls : network.publishing.Perm (⟨node, message, false⟩ :: others))
      (cached : serialize message ∈ network.cache node)
      (result : next = { network with publishing := others })
  | cached (node : Node) (message : Message) (others : List (StaticPublish Node Message))
      (acting : move.internal = true)
      (calls : network.publishing.Perm (⟨node, message, false⟩ :: others))
      (fresh : serialize message ∉ network.cache node)
      (result : next = { network with
        cache := Function.update network.cache node
          (insert (serialize message) (network.cache node))
        publishing := others ++ [⟨node, message, true⟩] })
  | written (node : Node) (message : Message) (others : List (StaticPublish Node Message))
      (acting : move.internal = true)
      (calls : network.publishing.Perm (⟨node, message, true⟩ :: others))
      (result : next = { network with
        links := network.links.map fun link => link.append node message
        publishing := others
        forwarded := network.forwarded ++ [(node, message)] })
  | delivered (source target : Node) (message : Message) (queue : List Message)
      (after others : List (StaticLink Node Message)) (acting : move.internal = true)
      (links : network.links.Perm (⟨source, target, message :: queue⟩ :: others))
      (moved : after.Perm (⟨source, target, queue⟩ :: others))
      (result : next = { network with
        links := after
        received := Function.update network.received target
          (insert message (network.received target))
        publishing := network.publishing ++ [⟨target, message, false⟩] })

theorem step_change {serialize : Message ↪ Frame} {network next : StaticNetwork Node Message Frame}
    {move : StaticMove Node Message} (stepped : network.step serialize move = some next) :
    Change serialize network move next := by
  cases move with
  | sendTransform node message =>
      cases stepped
      exact .sent node message rfl rfl
  | connect source target order =>
      simp only [step] at stepped
      split at stepped
      · rename_i enabled
        cases stepped
        exact .connected source target order rfl enabled.1 enabled.2 rfl
      · cases stepped
  | writeToCache call =>
      simp only [step] at stepped
      split at stepped
      · rename_i node message located
        have calls := perm_eraseIdx located
        split at stepped
        · rename_i cached
          cases stepped
          exact .known node message _ rfl calls cached rfl
        · rename_i fresh
          cases stepped
          exact .cached node message _ rfl calls fresh rfl
      · cases stepped
  | writeToSocket call =>
      simp only [step] at stepped
      split at stepped
      · rename_i node message located
        cases stepped
        exact .written node message _ rfl (perm_eraseIdx located) rfl
      · cases stepped
  | deliver index =>
      simp only [step] at stepped
      split at stepped
      · rename_i source target message queue located
        cases stepped
        exact .delivered source target message queue _ _ rfl (perm_eraseIdx located)
          (perm_set located _) rfl
      · cases stepped

/-! ## Each node forwards a message once -/

end StaticNetwork

def StaticPublish.started (call : StaticPublish Node Message) : Option (Node × Message) :=
  if call.cached then some (call.node, call.message) else none

namespace StaticNetwork

/-- The messages that a node has forwarded or is about to, each of which it has cached. -/
def started (network : StaticNetwork Node Message Frame) : List (Node × Message) :=
  network.forwarded ++ network.publishing.filterMap StaticPublish.started

structure ForwardsOnce (serialize : Message ↪ Frame)
    (network : StaticNetwork Node Message Frame) : Prop where
  once : network.started.Nodup
  cached : ∀ pair ∈ network.started, serialize pair.2 ∈ network.cache pair.1

theorem started_perm {network : StaticNetwork Node Message Frame}
    {call : StaticPublish Node Message} {others : List (StaticPublish Node Message)}
    (calls : network.publishing.Perm (call :: others)) :
    network.started.Perm
      (network.forwarded ++ (call.started.toList ++ others.filterMap StaticPublish.started)) := by
  apply List.Perm.append_left
  apply (calls.filterMap _).trans
  cases found : call.started with
  | none => rw [List.filterMap_cons_none found]; exact List.Perm.refl _
  | some pair => rw [List.filterMap_cons_some found]; exact List.Perm.refl _

theorem ForwardsOnce.perm {serialize : Message ↪ Frame}
    {network next : StaticNetwork Node Message Frame} (valid : ForwardsOnce serialize network)
    (same : network.started.Perm next.started) (kept : next.cache = network.cache) :
    ForwardsOnce serialize next where
  once := same.nodup_iff.mp valid.once
  cached pair member := by
    rw [kept]
    exact valid.cached pair (same.mem_iff.mpr member)

theorem forwardsOnce_initial (serialize : Message ↪ Frame) :
    ForwardsOnce serialize (initial : StaticNetwork Node Message Frame) where
  once := List.nodup_nil
  cached _ member := by cases member

variable [DecidableEq Node] [DecidableEq Message] [DecidableEq Frame]

theorem ForwardsOnce.step {serialize : Message ↪ Frame}
    {network next : StaticNetwork Node Message Frame} {move : StaticMove Node Message}
    (valid : ForwardsOnce serialize network) (stepped : network.step serialize move = some next) :
    ForwardsOnce serialize next := by
  cases step_change stepped with
  | sent node message _ result | delivered _ node message _ _ _ _ _ _ result =>
      subst result
      let call : StaticPublish Node Message := ⟨node, message, false⟩
      have same : network.started.Perm (network.forwarded ++
          (network.publishing ++ [call]).filterMap StaticPublish.started) := by
        rw [List.filterMap_append]
        exact List.Perm.append_left _ (List.Perm.of_eq (List.append_nil _).symm)
      exact valid.perm same rfl
  | connected _ _ _ _ _ _ result =>
      subst result
      exact ⟨valid.once, valid.cached⟩
  | known node message others _ calls _ result =>
      subst result
      exact valid.perm (started_perm calls) rfl
  | cached node message others _ calls fresh result =>
      subst result
      -- The pair is new, as everything started is cached.
      have new : (node, message) ∉ network.started := fun member => fresh (valid.cached _ member)
      have earlier := started_perm calls
      let call : StaticPublish Node Message := ⟨node, message, true⟩
      have all : (network.started ++ [(node, message)]).Perm
          (network.forwarded ++ (others ++ [call]).filterMap StaticPublish.started) := by
        apply (earlier.append_right _).trans
        rw [List.filterMap_append, List.append_assoc]
        exact List.Perm.refl _
      constructor
      · have distinct : (network.started ++ [(node, message)]).Nodup := by
          apply List.nodup_append.mpr
          refine ⟨valid.once, List.nodup_singleton _, fun pair member other here same => ?_⟩
          rw [List.mem_singleton.mp here] at same
          exact new (same ▸ member)
        exact all.nodup_iff.mp distinct
      · intro pair member
        simp only [Function.update_apply]
        rcases List.mem_append.mp (all.mem_iff.mpr member) with old | here
        · have before := valid.cached pair old
          split
          · rename_i same
            exact Finset.mem_insert_of_mem (same ▸ before)
          · exact before
        · cases List.mem_singleton.mp here
          rw [if_pos rfl]
          exact Finset.mem_insert_self _ _
  | written node message others _ calls result =>
      subst result
      have same := started_perm calls
      rw [← List.append_assoc] at same
      exact valid.perm same rfl

/-! ## Completeness -/

/-- The frame is on a link, or in a call of `publish` that has not written it yet. -/
def InFlight (network : StaticNetwork Node Message Frame) (message : Message) : Prop :=
  (∃ link ∈ network.links, message ∈ link.queue) ∨
    ∃ call ∈ network.publishing, call.message = message

instance (network : StaticNetwork Node Message Frame) (message : Message) :
    Decidable (network.InFlight message) :=
  inferInstanceAs (Decidable (_ ∨ _))

def Linked (network : StaticNetwork Node Message Frame) (source target : Node) : Prop :=
  ∃ link ∈ network.links, link.source = source ∧ link.target = target

instance (network : StaticNetwork Node Message Frame) (source target : Node) :
    Decidable (network.Linked source target) :=
  inferInstanceAs (Decidable (∃ link ∈ network.links, _))

/-- The node has published the transform, or its tree has been given it. -/
def Has (serialize : Message ↪ Frame) (network : StaticNetwork Node Message Frame) (node : Node)
    (message : Message) : Prop :=
  serialize message ∈ network.cache node ∨ message ∈ network.received node

/-- What a node has cached goes to each of its links, and what a tree is given is cached. -/
structure Carried (serialize : Message ↪ Frame) (network : StaticNetwork Node Message Frame) :
    Prop where
  linked : ∀ link ∈ network.links, ∀ message, serialize message ∈ network.cache link.source →
    message ∈ link.queue ∨ message ∈ network.received link.target ∨
      ⟨link.source, message, true⟩ ∈ network.publishing
  published : ∀ node, ∀ message ∈ network.received node,
    serialize message ∈ network.cache node ∨
      ∃ call ∈ network.publishing, call.node = node ∧ call.message = message
  started : ∀ call ∈ network.publishing, call.cached = true →
    serialize call.message ∈ network.cache call.node

omit [DecidableEq Node] [DecidableEq Message] [DecidableEq Frame] in
theorem carried_initial (serialize : Message ↪ Frame) :
    Carried serialize (initial : StaticNetwork Node Message Frame) where
  linked _ member := by cases member
  published _ _ member := by cases member
  started _ member := by cases member

omit [DecidableEq Node] [DecidableEq Message] [DecidableEq Frame] in
/-- A call added to those in progress, and possibly some received, change nothing else. -/
theorem Carried.begin {serialize : Message ↪ Frame} {network : StaticNetwork Node Message Frame}
    (carried : Carried serialize network) (node : Node) (message : Message) :
    Carried serialize { network with
      publishing := network.publishing ++ [⟨node, message, false⟩] } where
  linked link member other cached := by
    rcases carried.linked link member other cached with queued | received | writing
    · exact .inl queued
    · exact .inr (.inl received)
    · exact .inr (.inr (List.mem_append_left _ writing))
  published other given member := by
    rcases carried.published other given member with cached | ⟨call, calling, same⟩
    · exact .inl cached
    · exact .inr ⟨call, List.mem_append_left _ calling, same⟩
  started call member cached := by
    rcases List.mem_append.mp member with before | here
    · exact carried.started call before cached
    · cases List.mem_singleton.mp here
      cases cached

omit [DecidableEq Node] [DecidableEq Message] in
theorem Carried.connected {serialize : Message ↪ Frame}
    {network : StaticNetwork Node Message Frame} (carried : Carried serialize network)
    {source : Node} (target : Node) {order : List Message}
    (whole : (order.map serialize).toFinset = network.cache source) :
    Carried serialize { network with links := network.links ++ [⟨source, target, order⟩] } where
  linked link member message cached := by
    rcases List.mem_append.mp member with before | here
    · exact carried.linked link before message cached
    · cases List.mem_singleton.mp here
      dsimp only at cached
      rw [← whole, List.mem_toFinset, List.mem_map] at cached
      obtain ⟨other, queued, same⟩ := cached
      exact .inl (serialize.injective same ▸ queued)
  published := carried.published
  started := carried.started

omit [DecidableEq Node] [DecidableEq Message] [DecidableEq Frame] in
theorem Carried.known {serialize : Message ↪ Frame}
    {network : StaticNetwork Node Message Frame} (carried : Carried serialize network)
    {node : Node} {message : Message} {others : List (StaticPublish Node Message)}
    (calls : network.publishing.Perm (⟨node, message, false⟩ :: others))
    (cached : serialize message ∈ network.cache node) :
    Carried serialize { network with publishing := others } where
  linked link member other known := by
    rcases carried.linked link member other known with queued | received | writing
    · exact .inl queued
    · exact .inr (.inl received)
    · rcases List.mem_cons.mp (calls.mem_iff.mp writing) with same | later
      · cases same
      · exact .inr (.inr later)
  published other given member := by
    rcases carried.published other given member with known | ⟨call, calling, at_, about⟩
    · exact .inl known
    · rcases List.mem_cons.mp (calls.mem_iff.mp calling) with same | later
      · subst same
        subst at_ about
        exact .inl cached
      · exact .inr ⟨call, later, at_, about⟩
  started call member := carried.started call (calls.mem_iff.mpr (List.mem_cons_of_mem _ member))

omit [DecidableEq Message] in
theorem Carried.cached {serialize : Message ↪ Frame}
    {network : StaticNetwork Node Message Frame} (carried : Carried serialize network)
    {node : Node} {message : Message} {others : List (StaticPublish Node Message)}
    (calls : network.publishing.Perm (⟨node, message, false⟩ :: others)) :
    Carried serialize { network with
      cache := Function.update network.cache node
        (insert (serialize message) (network.cache node))
      publishing := others ++ [⟨node, message, true⟩] } := by
  have cache : ∀ other frame, frame ∈ Function.update network.cache node
      (insert (serialize message) (network.cache node)) other ↔
      (other = node ∧ frame = serialize message) ∨ frame ∈ network.cache other := by
    intro other frame
    rw [Function.update_apply]
    split
    · rename_i same
      rw [Finset.mem_insert, same]
      simp only [true_and]
    · rename_i different
      simp only [different, false_and, false_or]
  refine ⟨fun link member other known => ?_, fun other given member => ?_,
    fun call member begun => ?_⟩
  · rcases (cache _ _).mp known with ⟨here, same⟩ | before
    · rw [serialize.injective same, here]
      exact .inr (.inr (List.mem_append_right _ List.mem_cons_self))
    · rcases carried.linked link member other before with queued | received | writing
      · exact .inl queued
      · exact .inr (.inl received)
      · rcases List.mem_cons.mp (calls.mem_iff.mp writing) with same | later
        · cases same
        · exact .inr (.inr (List.mem_append_left _ later))
  · rcases carried.published other given member with known | ⟨call, calling, at_, about⟩
    · exact .inl ((cache _ _).mpr (.inr known))
    · rcases List.mem_cons.mp (calls.mem_iff.mp calling) with same | later
      · subst same
        subst at_ about
        exact .inl ((cache _ _).mpr (.inl ⟨rfl, rfl⟩))
      · exact .inr ⟨call, List.mem_append_left _ later, at_, about⟩
  · rcases List.mem_append.mp member with before | here
    · have old := carried.started call (calls.mem_iff.mpr (List.mem_cons_of_mem _ before)) begun
      exact (cache _ _).mpr (.inr old)
    · cases List.mem_singleton.mp here
      exact (cache _ _).mpr (.inl ⟨rfl, rfl⟩)

omit [DecidableEq Message] in
@[simp] theorem append_source (link : StaticLink Node Message) (node : Node)
    (message : Message) : (link.append node message).source = link.source := by
  unfold StaticLink.append
  split <;> rfl

omit [DecidableEq Message] in
@[simp] theorem append_target (link : StaticLink Node Message) (node : Node)
    (message : Message) : (link.append node message).target = link.target := by
  unfold StaticLink.append
  split <;> rfl

omit [DecidableEq Message] in
theorem mem_append_queue {link : StaticLink Node Message} {node : Node}
    {message other : Message} : other ∈ (link.append node message).queue ↔
      other ∈ link.queue ∨ link.source = node ∧ other = message := by
  unfold StaticLink.append
  split
  · rename_i same
    simp only [List.mem_append, List.mem_singleton, same, true_and]
  · rename_i different
    simp only [different, false_and, or_false]

omit [DecidableEq Message] [DecidableEq Frame] in
theorem Carried.written {serialize : Message ↪ Frame}
    {network : StaticNetwork Node Message Frame} (carried : Carried serialize network)
    {node : Node} {message : Message} {others : List (StaticPublish Node Message)}
    (calls : network.publishing.Perm (⟨node, message, true⟩ :: others))
    (forwarded : List (Node × Message)) :
    Carried serialize { network with
      links := network.links.map fun link => link.append node message
      publishing := others
      forwarded := forwarded } where
  linked appended member other known := by
    obtain ⟨link, inside, rfl⟩ := List.mem_map.mp member
    rw [append_source] at known
    rw [append_source, append_target, mem_append_queue]
    rcases carried.linked link inside other known with queued | received | writing
    · exact .inl (.inl queued)
    · exact .inr (.inl received)
    · rcases List.mem_cons.mp (calls.mem_iff.mp writing) with same | later
      · cases same
        exact .inl (.inr ⟨rfl, rfl⟩)
      · exact .inr (.inr later)
  published other given member := by
    rcases carried.published other given member with known | ⟨call, calling, at_, about⟩
    · exact .inl known
    · rcases List.mem_cons.mp (calls.mem_iff.mp calling) with same | later
      · have cached := carried.started call calling (by rw [same])
        exact .inl (at_ ▸ about ▸ cached)
      · exact .inr ⟨call, later, at_, about⟩
  started call member := carried.started call (calls.mem_iff.mpr (List.mem_cons_of_mem _ member))

omit [DecidableEq Frame] in
theorem Carried.delivered {serialize : Message ↪ Frame}
    {network : StaticNetwork Node Message Frame} (carried : Carried serialize network)
    {source target : Node} {message : Message} {queue : List Message}
    {after others : List (StaticLink Node Message)}
    (links : network.links.Perm (⟨source, target, message :: queue⟩ :: others))
    (moved : after.Perm (⟨source, target, queue⟩ :: others)) :
    Carried serialize { network with
      links := after
      received := Function.update network.received target
        (insert message (network.received target))
      publishing := network.publishing ++ [⟨target, message, false⟩] } := by
  have received : ∀ node other, other ∈ Function.update network.received target
      (insert message (network.received target)) node ↔
      (node = target ∧ other = message) ∨ other ∈ network.received node := by
    intro node other
    rw [Function.update_apply]
    split
    · rename_i same
      rw [Finset.mem_insert, same]
      simp only [true_and]
    · rename_i different
      simp only [different, false_and, false_or]
  refine ⟨fun link member other known => ?_, fun node given member => ?_,
    (carried.begin target message).started⟩
  · rcases List.mem_cons.mp (moved.mem_iff.mp member) with here | elsewhere
    · subst here
      have inside := links.mem_iff.mpr List.mem_cons_self
      rcases carried.linked _ inside other known with queued | given | writing
      · rcases List.mem_cons.mp queued with same | later
        · exact .inr (.inl ((received _ _).mpr (.inl ⟨rfl, same⟩)))
        · exact .inl later
      · exact .inr (.inl ((received _ _).mpr (.inr given)))
      · exact .inr (.inr (List.mem_append_left _ writing))
    · have inside := links.mem_iff.mpr (List.mem_cons_of_mem _ elsewhere)
      rcases carried.linked link inside other known with queued | given | writing
      · exact .inl queued
      · exact .inr (.inl ((received _ _).mpr (.inr given)))
      · exact .inr (.inr (List.mem_append_left _ writing))
  · rcases (received _ _).mp member with ⟨here, same⟩ | before
    · exact .inr ⟨_, List.mem_append_right _ List.mem_cons_self, here.symm, same.symm⟩
    · exact (carried.begin target message).published node given before

theorem Carried.step {serialize : Message ↪ Frame}
    {network next : StaticNetwork Node Message Frame} {move : StaticMove Node Message}
    (carried : Carried serialize network) (stepped : network.step serialize move = some next) :
    Carried serialize next := by
  cases step_change stepped with
  | sent node message _ result => exact result ▸ carried.begin node message
  | connected source target order _ _ whole result => exact result ▸ carried.connected target whole
  | known _ _ _ _ calls cached result => exact result ▸ carried.known calls cached
  | cached _ _ _ _ calls _ result => exact result ▸ carried.cached calls
  | written _ _ _ _ calls result => exact result ▸ carried.written calls _
  | delivered _ _ _ _ _ _ _ links moved result => exact result ▸ carried.delivered links moved

omit [DecidableEq Node] [DecidableEq Message] [DecidableEq Frame] in
/-- A message that is not in flight has come from every node that has it over its links. -/
theorem Carried.has_linked {serialize : Message ↪ Frame}
    {network : StaticNetwork Node Message Frame} (carried : Carried serialize network)
    {message : Message} (quiet : ¬ network.InFlight message) {source target : Node}
    (has : network.Has serialize source message) (linked : network.Linked source target) :
    message ∈ network.received target := by
  have cached : serialize message ∈ network.cache source := by
    rcases has with cached | given
    · exact cached
    · rcases carried.published source message given with cached | ⟨call, calling, _, about⟩
      · exact cached
      · exact absurd (.inr ⟨call, calling, about⟩) quiet
  obtain ⟨link, member, rfl, rfl⟩ := linked
  rcases carried.linked link member message cached with queued | received | writing
  · exact absurd (.inl ⟨link, member, queued⟩) quiet
  · exact received
  · exact absurd (.inr ⟨_, writing, rfl⟩) quiet

omit [DecidableEq Node] [DecidableEq Message] [DecidableEq Frame] in
theorem Carried.has_reachable {serialize : Message ↪ Frame}
    {network : StaticNetwork Node Message Frame} (carried : Carried serialize network)
    {message : Message} (quiet : ¬ network.InFlight message) {source target : Node}
    (has : network.Has serialize source message)
    (reachable : Relation.TransGen network.Linked source target) :
    message ∈ network.received target := by
  induction reachable with
  | single linked => exact carried.has_linked quiet has linked
  | tail _ linked ih => exact carried.has_linked quiet (.inr ih) linked

/-! ## Termination -/

/-- What a call in progress can still cause, when a node has at most `links` links. -/
def callWeight (links : Nat) (call : StaticPublish Node Message) : Nat :=
  if call.cached then 2 * links + 1 else 1

/-- The work left: a message not yet cached at a node costs its publication there, which
puts a frame on each link; a frame costs its delivery and the call this makes; and what is
still to come adds a call, or a link with the whole cache. -/
def remaining [Fintype Node] (frames : Finset Frame) (links : Nat)
    (network : StaticNetwork Node Message Frame) (rest : List (StaticMove Node Message)) : Nat :=
  (∑ node, (frames \ network.cache node).card) * (2 * links + 1) +
    (network.publishing.map (callWeight links)).sum +
    2 * (network.links.map fun link => link.queue.length).sum +
    2 * frames.card * rest.countP StaticMove.isConnect + rest.countP StaticMove.isSend

/-- Nothing but the frames is ever sent, over no more than the given number of links. -/
structure Bounded (serialize : Message ↪ Frame) (frames : Finset Frame) (links : Nat)
    (network : StaticNetwork Node Message Frame) (rest : List (StaticMove Node Message)) :
    Prop where
  cache : ∀ node, network.cache node ⊆ frames
  queued : ∀ link ∈ network.links, ∀ message ∈ link.queue, serialize message ∈ frames
  called : ∀ call ∈ network.publishing, serialize call.message ∈ frames
  coming : ∀ move ∈ rest, ∀ message, move.message = some message → serialize message ∈ frames
  linked : network.links.length + rest.countP StaticMove.isConnect ≤ links

omit [DecidableEq Node] [DecidableEq Message] in
theorem internal_not_external {move : StaticMove Node Message} (acting : move.internal = true) :
    move.isConnect = false ∧ move.isSend = false := by
  cases move <;> first | exact ⟨rfl, rfl⟩ | cases acting

omit [DecidableEq Node] [DecidableEq Message] [DecidableEq Frame] in
theorem Bounded.coming_tail {serialize : Message ↪ Frame} {frames : Finset Frame} {links : Nat}
    {network : StaticNetwork Node Message Frame} {move : StaticMove Node Message}
    {rest : List (StaticMove Node Message)}
    (bounded : Bounded serialize frames links network (move :: rest)) :
    ∀ later ∈ rest, ∀ message, later.message = some message → serialize message ∈ frames :=
  fun later member => bounded.coming later (List.mem_cons_of_mem _ member)

omit [DecidableEq Node] [DecidableEq Message] in
theorem countP_internal {move : StaticMove Node Message} (acting : move.internal = true)
    (rest : List (StaticMove Node Message)) :
    (move :: rest).countP StaticMove.isConnect = rest.countP StaticMove.isConnect ∧
      (move :: rest).countP StaticMove.isSend = rest.countP StaticMove.isSend := by
  obtain ⟨connect, send⟩ := internal_not_external acting
  constructor
  · exact List.countP_cons_of_neg (by rw [connect]; exact Bool.false_ne_true)
  · exact List.countP_cons_of_neg (by rw [send]; exact Bool.false_ne_true)

theorem Bounded.step {serialize : Message ↪ Frame} {frames : Finset Frame} {links : Nat}
    {network next : StaticNetwork Node Message Frame} {move : StaticMove Node Message}
    {rest : List (StaticMove Node Message)}
    (bounded : Bounded serialize frames links network (move :: rest))
    (stepped : network.step serialize move = some next) :
    Bounded serialize frames links next rest := by
  have coming := bounded.coming_tail
  have linked := bounded.linked
  cases step_change stepped with
  | sent node message acting result =>
      subst acting result
      refine ⟨bounded.cache, bounded.queued, fun call member => ?_, coming, linked⟩
      rcases List.mem_append.mp member with before | here
      · exact bounded.called call before
      · cases List.mem_singleton.mp here
        exact bounded.coming _ List.mem_cons_self message rfl
  | connected source target order acting _ whole result =>
      subst acting result
      refine ⟨bounded.cache, fun link member message queued => ?_, bounded.called, coming, ?_⟩
      · rcases List.mem_append.mp member with before | here
        · exact bounded.queued link before message queued
        · cases List.mem_singleton.mp here
          apply bounded.cache source
          rw [← whole]
          exact List.mem_toFinset.mpr (List.mem_map_of_mem queued)
      · rw [List.countP_cons_of_pos rfl] at linked
        rw [List.length_append, List.length_singleton]
        omega
  | known node message others acting calls _ result =>
      subst result
      rw [(countP_internal acting rest).1] at linked
      exact ⟨bounded.cache, bounded.queued, fun call member =>
        bounded.called call (calls.mem_iff.mpr (List.mem_cons_of_mem _ member)), coming, linked⟩
  | cached node message others acting calls _ result =>
      subst result
      rw [(countP_internal acting rest).1] at linked
      have framed : serialize message ∈ frames :=
        bounded.called _ (calls.mem_iff.mpr List.mem_cons_self)
      refine ⟨fun other => ?_, bounded.queued, fun call member => ?_, coming, linked⟩
      · dsimp only
        rw [Function.update_apply]
        split
        · exact Finset.insert_subset framed (bounded.cache node)
        · exact bounded.cache other
      · rcases List.mem_append.mp member with before | here
        · exact bounded.called call (calls.mem_iff.mpr (List.mem_cons_of_mem _ before))
        · cases List.mem_singleton.mp here
          exact framed
  | written node message others acting calls result =>
      subst result
      rw [(countP_internal acting rest).1] at linked
      refine ⟨bounded.cache, fun link member other queued => ?_, fun call member =>
        bounded.called call (calls.mem_iff.mpr (List.mem_cons_of_mem _ member)), coming, ?_⟩
      · obtain ⟨before, inside, rfl⟩ := List.mem_map.mp member
        rcases mem_append_queue.mp queued with old | ⟨_, same⟩
        · exact bounded.queued before inside other old
        · exact same ▸ bounded.called _ (calls.mem_iff.mpr List.mem_cons_self)
      · rw [List.length_map]
        exact linked
  | delivered source target message queue after others acting sockets moved result =>
      subst result
      rw [(countP_internal acting rest).1] at linked
      have inside := sockets.mem_iff.mpr List.mem_cons_self
      refine ⟨bounded.cache, fun link member other queued => ?_, fun call member => ?_, coming, ?_⟩
      · rcases List.mem_cons.mp (moved.mem_iff.mp member) with here | elsewhere
        · subst here
          exact bounded.queued _ inside other (List.mem_cons_of_mem _ queued)
        · exact bounded.queued link (sockets.mem_iff.mpr (List.mem_cons_of_mem _ elsewhere)) other
            queued
      · rcases List.mem_append.mp member with before | here
        · exact bounded.called call before
        · cases List.mem_singleton.mp here
          exact bounded.queued _ inside message List.mem_cons_self
      · rw [sockets.length_eq, List.length_cons] at linked
        rw [moved.length_eq, List.length_cons]
        exact linked

/-- Caching one more of the frames at a node. -/
theorem uncached_insert [Fintype Node] {frames : Finset Frame} (cache : Node → Finset Frame)
    {node : Node} {frame : Frame} (framed : frame ∈ frames) (fresh : frame ∉ cache node) :
    (∑ other, (frames \ Function.update cache node (insert frame (cache node)) other).card) + 1 =
      ∑ other, (frames \ cache other).card := by
  rw [← Finset.add_sum_erase _ _ (Finset.mem_univ node),
    ← Finset.add_sum_erase _ (fun other => (frames \ cache other).card) (Finset.mem_univ node)]
  have others : ∑ other ∈ Finset.univ.erase node,
      (frames \ Function.update cache node (insert frame (cache node)) other).card =
      ∑ other ∈ Finset.univ.erase node, (frames \ cache other).card := by
    apply Finset.sum_congr rfl
    intro other member
    rw [Function.update_of_ne (Finset.ne_of_mem_erase member)]
  have here : (frames \ insert frame (cache node)).card + 1 = (frames \ cache node).card := by
    rw [Finset.sdiff_insert]
    exact Finset.card_erase_add_one (Finset.mem_sdiff.mpr ⟨framed, fresh⟩)
  rw [others, Function.update_self]
  omega

omit [DecidableEq Message] in
theorem sum_append_queue (links : List (StaticLink Node Message)) (node : Node)
    (message : Message) :
    ((links.map fun link => link.append node message).map fun link => link.queue.length).sum ≤
      (links.map fun link => link.queue.length).sum + links.length := by
  induction links with
  | nil => exact Nat.le_refl _
  | cons link links ih =>
      have here : (link.append node message).queue.length ≤ link.queue.length + 1 := by
        unfold StaticLink.append
        split
        · exact Nat.le_of_eq List.length_append
        · exact Nat.le_succ _
      simp only [List.map_cons, List.sum_cons, List.length_cons]
      omega

/-- The parts of the measure that a step changes, with the calls and links up to order. -/
theorem remaining_lowers [Fintype Node] {serialize : Message ↪ Frame} {frames : Finset Frame}
    {links : Nat} {network next : StaticNetwork Node Message Frame}
    {move : StaticMove Node Message} {rest : List (StaticMove Node Message)}
    (bounded : Bounded serialize frames links network (move :: rest))
    (stepped : network.step serialize move = some next) :
    remaining frames links next rest + (if move.internal then 1 else 0) ≤
      remaining frames links network (move :: rest) := by
  unfold remaining
  cases step_change stepped with
  | sent node message acting result =>
      subst acting result
      have idle : (StaticMove.sendTransform node message).internal = false := rfl
      have one : callWeight links ⟨node, message, false⟩ = 1 := rfl
      rw [List.countP_cons_of_neg Bool.false_ne_true, List.countP_cons_of_pos rfl, idle]
      simp only [List.map_append, List.sum_append, List.map_singleton, List.sum_singleton, one,
        Bool.false_eq_true, if_false]
      omega
  | connected source target order acting distinct whole result =>
      subst acting result
      have idle : (StaticMove.connect source target order).internal = false := rfl
      rw [List.countP_cons_of_pos rfl, List.countP_cons_of_neg Bool.false_ne_true, idle]
      simp only [List.map_append, List.sum_append, List.map_singleton, List.sum_singleton]
      have short : order.length ≤ frames.card := by
        have frames_distinct := distinct.map serialize.injective
        have mapped : (order.map serialize).length = order.length := List.length_map _
        rw [← mapped, ← List.toFinset_card_of_nodup frames_distinct, whole]
        exact Finset.card_le_card (bounded.cache source)
      have cost := Nat.mul_succ (2 * frames.card) (rest.countP StaticMove.isConnect)
      simp only [Nat.succ_eq_add_one] at cost
      simp only [cost, Bool.false_eq_true, if_false]
      omega
  | known node message others acting calls _ result =>
      subst result
      dsimp only
      obtain ⟨connects, sends⟩ := countP_internal acting rest
      have weights := (calls.map (callWeight links)).sum_eq
      rw [List.map_cons, List.sum_cons] at weights
      have one : callWeight links ⟨node, message, false⟩ = 1 := rfl
      rw [connects, sends, weights, one, if_pos acting]
      omega
  | cached node message others acting calls fresh result =>
      subst result
      dsimp only
      obtain ⟨connects, sends⟩ := countP_internal acting rest
      have weights := (calls.map (callWeight links)).sum_eq
      rw [List.map_cons, List.sum_cons] at weights
      have one : callWeight links ⟨node, message, false⟩ = 1 := rfl
      have more : callWeight links ⟨node, message, true⟩ = 2 * links + 1 := rfl
      have framed : serialize message ∈ frames :=
        bounded.called _ (calls.mem_iff.mpr List.mem_cons_self)
      -- The new call is paid for by the message that is now cached at the node.
      have paid := uncached_insert network.cache framed fresh
      rw [connects, sends, weights, one, ← paid, Nat.add_mul _ 1 (2 * links + 1), if_pos acting]
      simp only [List.map_append, List.sum_append, List.map_singleton, List.sum_singleton, more]
      omega
  | written node message others acting calls result =>
      subst result
      dsimp only
      obtain ⟨connects, sends⟩ := countP_internal acting rest
      have weights := (calls.map (callWeight links)).sum_eq
      rw [List.map_cons, List.sum_cons] at weights
      have more : callWeight links ⟨node, message, true⟩ = 2 * links + 1 := rfl
      have appended := sum_append_queue network.links node message
      have linked := bounded.linked
      rw [connects] at linked
      rw [connects, sends, weights, more, if_pos acting]
      omega
  | delivered source target message queue after others acting sockets moved result =>
      subst result
      dsimp only
      obtain ⟨connects, sends⟩ := countP_internal acting rest
      have queues := (sockets.map fun link => link.queue.length).sum_eq
      rw [List.map_cons, List.sum_cons, List.length_cons] at queues
      have shorter := (moved.map fun link => link.queue.length).sum_eq
      rw [List.map_cons, List.sum_cons] at shorter
      have one : callWeight links ⟨target, message, false⟩ = 1 := rfl
      rw [connects, sends, queues, if_pos acting]
      simp only [List.map_append, List.sum_append, List.map_singleton, List.sum_singleton, one,
        shorter]
      omega

/-- The distinct frames that a run broadcasts. -/
def broadcasts (serialize : Message ↪ Frame) (run : List (StaticMove Node Message)) :
    Finset Frame :=
  ((run.filterMap StaticMove.message).map serialize).toFinset

omit [DecidableEq Node] [DecidableEq Message] in
theorem bounded_initial (serialize : Message ↪ Frame) (run : List (StaticMove Node Message)) :
    Bounded serialize (broadcasts serialize run) (run.countP StaticMove.isConnect)
      (initial : StaticNetwork Node Message Frame) run where
  cache _ := Finset.empty_subset _
  queued _ member := by cases member
  called _ member := by cases member
  coming move member message sent :=
    List.mem_toFinset.mpr (List.mem_map_of_mem (List.mem_filterMap.mpr ⟨move, member, sent⟩))
  linked := Nat.le_of_eq (Nat.zero_add _)

/-- The most steps that a number of nodes, distinct frames, links and broadcasts allow. -/
def gossipLimit (nodes frames links sends : Nat) : Nat :=
  nodes * frames * (2 * links + 1) + 2 * frames * links + sends

theorem internal_le_gossipLimit [Fintype Node] {serialize : Message ↪ Frame}
    {run : List (StaticMove Node Message)} {final : StaticNetwork Node Message Frame}
    (executed : (machine serialize).exec initial run = some final) :
    run.countP StaticMove.internal ≤ gossipLimit (Fintype.card Node)
      (broadcasts serialize run).card (run.countP StaticMove.isConnect)
      (run.countP StaticMove.isSend) := by
  let frames := broadcasts serialize run
  let links := run.countP StaticMove.isConnect
  have lowers : ∀ (network : StaticNetwork Node Message Frame) move rest next,
      Bounded serialize frames links network (move :: rest) →
      (machine serialize).step network move = some next →
      Bounded serialize frames links next rest ∧
        remaining frames links next rest + (if move.internal then 1 else 0) ≤
          remaining frames links network (move :: rest) :=
    fun _ _ _ _ bounded stepped =>
      ⟨Bounded.step bounded stepped, remaining_lowers bounded stepped⟩
  have bound :=
    (machine serialize).countP_le_measure lowers (bounded_initial serialize run) executed
  have start : remaining frames links (initial : StaticNetwork Node Message Frame) run =
      gossipLimit (Fintype.card Node) frames.card links (run.countP StaticMove.isSend) := by
    have uncached : (∑ node : Node,
        (frames \ (initial : StaticNetwork Node Message Frame).cache node).card) =
        Fintype.card Node * frames.card :=
      Finset.sum_const_nat fun _ _ => by simp only [initial, Finset.sdiff_empty]
    unfold remaining gossipLimit
    rw [uncached]
    rfl
  exact start ▸ bound

/-- Two nodes linked both ways, and a third that joins after the broadcast. -/
def lateJoin : List (StaticMove (Fin 3) Nat) :=
  [.connect 0 1 [], .connect 1 0 [], .sendTransform 0 7, .writeToCache 0, .writeToSocket 0,
    .deliver 0, .writeToCache 0, .writeToSocket 0, .deliver 1, .connect 1 2 [7],
    .writeToCache 0, .deliver 2, .writeToCache 0, .writeToSocket 0]

def lateJoinFinal : StaticNetwork (Fin 3) Nat Nat :=
  ((machine (.refl Nat)).exec initial lateJoin).getD initial

end StaticNetwork

end ProtoCore.Transform
