import Mathlib.Data.List.Basic
import Mathlib.Data.List.Infix
import ProtoCore.Library.Machine

/-!
# Broadcast over queues

A subscription starts with a backlog and is told of some of the messages published after
it. It receives what it was told in the order of its queue.
-/

set_option autoImplicit false

namespace ProtoCore.Library

/-- `since` counts the messages published before the subscription. -/
structure Subscription (Message : Type) where
  backlog : List Message
  since : Nat
  received : List Message
  queued : List Message
  deriving DecidableEq

structure Broadcast (Message : Type) where
  published : List Message
  subscriptions : List (Subscription Message)
  deriving DecidableEq

inductive BroadcastAction (Message : Type) where
  | join (backlog : List Message)
  | publish (message : Message) (reached : List Nat)
  | receive (index : Nat)

namespace Subscription

variable {Message : Type}

def joined (backlog : List Message) (since : Nat) : Subscription Message where
  backlog := backlog
  since := since
  received := []
  queued := backlog

def enqueue (subscription : Subscription Message) (message : Message) : Subscription Message :=
  { subscription with queued := subscription.queued ++ [message] }

/-- The first messages of the queue have been received. -/
def taken (subscription : Subscription Message) (count : Nat) : Subscription Message :=
  { subscription with
    received := subscription.received ++ subscription.queued.take count
    queued := subscription.queued.drop count }

/-- All that the subscription was ever told. -/
def told (subscription : Subscription Message) : List Message :=
  subscription.received ++ subscription.queued

@[simp] theorem told_enqueue (subscription : Subscription Message) (message : Message) :
    (subscription.enqueue message).told = subscription.told ++ [message] :=
  (List.append_assoc _ _ _).symm

@[simp] theorem told_taken (subscription : Subscription Message) (count : Nat) :
    (subscription.taken count).told = subscription.told := by
  simp only [told, taken, List.append_assoc, List.take_append_drop]

theorem taken_zero (subscription : Subscription Message) : subscription.taken 0 = subscription := by
  simp only [taken, List.take_zero, List.append_nil, List.drop_zero]

theorem taken_succ {subscription : Subscription Message} {message : Message} {rest : List Message}
    (queued : subscription.queued = message :: rest) (count : Nat) :
    subscription.taken (count + 1) = (subscription.taken 1).taken count := by
  simp only [taken, queued, List.take_succ_cons, List.drop_succ_cons, List.take_zero,
    List.drop_zero, List.append_assoc, List.singleton_append]

end Subscription

namespace Broadcast

variable {Message : Type}

def initial : Broadcast Message := { published := [], subscriptions := [] }

def publish (broadcast : Broadcast Message) (message : Message) (reached : List Nat) :
    Broadcast Message where
  published := broadcast.published ++ [message]
  subscriptions := broadcast.subscriptions.mapIdx fun index subscription =>
    if index ∈ reached then subscription.enqueue message else subscription

def step (broadcast : Broadcast Message) : BroadcastAction Message → Option (Broadcast Message)
  | .join backlog => some { broadcast with
      subscriptions := broadcast.subscriptions ++ [.joined backlog broadcast.published.length] }
  | .publish message reached => some (broadcast.publish message reached)
  | .receive index =>
      (broadcast.subscriptions[index]?).bind fun subscription =>
        if subscription.queued = [] then none
        else some { broadcast with
          subscriptions := broadcast.subscriptions.set index (subscription.taken 1) }

def machine : Machine (Broadcast Message) (BroadcastAction Message) := ⟨step⟩

/-- One receipt after another takes the front of the queue. -/
theorem exec_receive {broadcast : Broadcast Message} {index count : Nat}
    {subscription : Subscription Message}
    (located : broadcast.subscriptions[index]? = some subscription)
    (enough : count ≤ subscription.queued.length) :
    machine.exec broadcast (List.replicate count (.receive index)) = some { broadcast with
      subscriptions := broadcast.subscriptions.set index (subscription.taken count) } := by
  induction count generalizing broadcast subscription with
  | zero =>
      obtain ⟨inside, found⟩ := List.getElem?_eq_some_iff.mp located
      have unchanged : broadcast.subscriptions.set index (subscription.taken 0) =
          broadcast.subscriptions := by
        rw [Subscription.taken_zero, ← found]
        exact List.set_getElem_self inside
      rw [unchanged]
      rfl
  | succ count ih =>
      cases queued : subscription.queued with
      | nil =>
          rw [queued] at enough
          exact absurd enough (Nat.not_succ_le_zero count)
      | cons message rest =>
          have inside := (List.getElem?_eq_some_iff.mp located).1
          have stepped : machine.step broadcast (.receive index) = some { broadcast with
              subscriptions := broadcast.subscriptions.set index (subscription.taken 1) } := by
            change (broadcast.subscriptions[index]?).bind _ = _
            rw [located, Option.bind_some, if_neg (by rw [queued]; exact List.cons_ne_nil _ _)]
          have fewer : count ≤ (subscription.taken 1).queued.length := by
            rw [queued] at enough
            simp only [Subscription.taken, queued, List.drop_succ_cons, List.drop_zero]
            exact Nat.le_of_succ_le_succ enough
          have reached : ({ broadcast with
              subscriptions := broadcast.subscriptions.set index (subscription.taken 1) } :
                Broadcast Message).subscriptions[index]? = some (subscription.taken 1) :=
            List.getElem?_set_self inside
          have later := ih reached fewer
          rw [List.replicate_succ, Machine.exec_cons, stepped, Option.bind_some, later,
            Subscription.taken_succ queued count]
          simp only [List.set_set]

/-! ## Order -/

/-- After its backlog, a subscription is told of publications in their order, each at most
once, and of none from before it joined. -/
def Heard (published : List Message) (subscription : Subscription Message) : Prop :=
  ∃ heard, heard.Sublist (published.drop subscription.since) ∧
    subscription.told = subscription.backlog ++ heard

structure Ordered (broadcast : Broadcast Message) : Prop where
  since : ∀ subscription ∈ broadcast.subscriptions,
    subscription.since ≤ broadcast.published.length
  heard : ∀ subscription ∈ broadcast.subscriptions, Heard broadcast.published subscription

theorem ordered_initial : (initial : Broadcast Message).Ordered where
  since _ member := absurd member List.not_mem_nil
  heard _ member := absurd member List.not_mem_nil

theorem drop_concat {published : List Message} {since : Nat} (before : since ≤ published.length)
    (message : Message) :
    (published ++ [message]).drop since = published.drop since ++ [message] :=
  List.drop_append_of_le_length before

theorem Ordered.publish {broadcast : Broadcast Message} (ordered : broadcast.Ordered)
    (message : Message) (reached : List Nat) : (broadcast.publish message reached).Ordered := by
  have each : ∀ subscription ∈ (broadcast.publish message reached).subscriptions,
      ∃ before ∈ broadcast.subscriptions,
        subscription = before.enqueue message ∨ subscription = before := by
    intro subscription member
    obtain ⟨index, inside, rfl⟩ := List.mem_iff_getElem.mp member
    simp only [Broadcast.publish, List.length_mapIdx] at inside
    refine ⟨broadcast.subscriptions[index], List.getElem_mem inside, ?_⟩
    simp only [Broadcast.publish, List.getElem_mapIdx]
    split
    · exact .inl rfl
    · exact .inr rfl
  constructor
  · intro subscription member
    obtain ⟨before, listed, rfl | rfl⟩ := each subscription member
    · exact Nat.le_trans (ordered.since before listed) (by simp [Broadcast.publish])
    · exact Nat.le_trans (ordered.since subscription listed) (by simp [Broadcast.publish])
  · intro subscription member
    obtain ⟨before, listed, same⟩ := each subscription member
    obtain ⟨heard, sublist, told⟩ := ordered.heard before listed
    have dropped := drop_concat (ordered.since before listed) message
    rcases same with rfl | rfl
    · refine ⟨heard ++ [message], ?_, ?_⟩
      · change (heard ++ [message]).Sublist ((broadcast.published ++ [message]).drop before.since)
        rw [dropped]
        exact sublist.append (List.Sublist.refl _)
      · rw [Subscription.told_enqueue, told, List.append_assoc]
        rfl
    · refine ⟨heard, ?_, told⟩
      change heard.Sublist ((broadcast.published ++ [message]).drop subscription.since)
      rw [dropped]
      exact sublist.trans (List.sublist_append_left _ _)

theorem Ordered.step {broadcast next : Broadcast Message} {action : BroadcastAction Message}
    (ordered : broadcast.Ordered) (stepped : broadcast.step action = some next) :
    next.Ordered := by
  cases action with
  | join backlog =>
      cases stepped
      constructor
      · intro subscription member
        rcases List.mem_append.mp member with old | new
        · exact ordered.since subscription old
        · rw [List.mem_singleton.mp new]
          exact Nat.le_refl _
      · intro subscription member
        rcases List.mem_append.mp member with old | new
        · exact ordered.heard subscription old
        · rw [List.mem_singleton.mp new]
          exact ⟨[], List.nil_sublist _, (List.append_nil _).symm⟩
  | publish message reached =>
      cases stepped
      exact ordered.publish message reached
  | receive index =>
      obtain ⟨subscription, located, guarded⟩ := Option.bind_eq_some_iff.mp stepped
      split at guarded
      · cases guarded
      · cases guarded
        have listed := List.mem_of_getElem? located
        constructor
        · intro other member
          rcases List.mem_or_eq_of_mem_set member with old | rfl
          · exact ordered.since other old
          · exact ordered.since subscription listed
        · intro other member
          rcases List.mem_or_eq_of_mem_set member with old | rfl
          · exact ordered.heard other old
          · obtain ⟨heard, sublist, told⟩ := ordered.heard subscription listed
            exact ⟨heard, sublist, (Subscription.told_taken subscription 1).trans told⟩

end Broadcast

end ProtoCore.Library
