import Mathlib.Data.Nat.Basic
import Mathlib.Order.Basic
import ProtoCore.Service.ServiceServer

/-!
# Writes in flight on a stream

`write_reply` hands a reply to `Write` at once when the queue is empty, and only adds
to a queue that is not. So the queue never fills: the replies keep their order, but
nothing holds back a second `Write` while the first is still outstanding.
-/

set_option autoImplicit false

namespace ProtoCore.Service

open Library

variable {Request Reply : Type}

namespace ReplyStream

/-- At most one `Write` is outstanding, and the replies go to `Write` in the order in
which `write_reply` was called. -/
def Orderly (stream : ReplyStream Reply) : Prop :=
  stream.outstanding ≤ 1 ∧ stream.written ++ stream.replyWaitQueue = stream.issued

def Direct (stream : ReplyStream Reply) : Prop :=
  stream.replyWaitQueue = [] ∧ stream.written = stream.issued

theorem Direct.writeReply {stream : ReplyStream Reply} (direct : stream.Direct)
    (reply : ServiceRPCReply Reply) : (stream.writeReply reply).Direct := by
  obtain ⟨empty, same⟩ := direct
  unfold ReplyStream.writeReply
  split
  · exact ⟨empty, same⟩
  · rw [if_pos (by rw [empty]; rfl)]
    exact ⟨empty, by simp only [write, same]⟩

theorem Direct.complete {stream next : ReplyStream Reply} {ok : Bool} (direct : stream.Direct)
    (completed : stream.complete ok = some next) :
    next.Direct ∧ next.outstanding ≤ stream.outstanding := by
  unfold ReplyStream.complete at completed
  split at completed
  · cases completed
    exact ⟨direct, Nat.sub_le _ _⟩
  · cases completed

theorem Direct.handleWrite {stream next : ReplyStream Reply} (direct : stream.Direct)
    (handled : stream.handleWrite = some next) :
    next.Direct ∧ next.outstanding = stream.outstanding := by
  simp only [ReplyStream.handleWrite, direct.1] at handled
  split at handled
  · cases handled
    exact ⟨⟨rfl, direct.2⟩, rfl⟩
  · cases handled

theorem complete_written {stream next : ReplyStream Reply} {ok : Bool}
    (completed : stream.complete ok = some next) : next.written = stream.written := by
  unfold ReplyStream.complete at completed
  split at completed <;> cases completed
  rfl

theorem Direct.handleWrite_written {stream next : ReplyStream Reply} (direct : stream.Direct)
    (handled : stream.handleWrite = some next) : next.written = stream.written := by
  simp only [ReplyStream.handleWrite, direct.1] at handled
  split at handled <;> cases handled
  rfl

theorem writeReply_cancelled {stream : ReplyStream Reply} (cancelled : stream.isCancelled = true)
    (reply : ServiceRPCReply Reply) : stream.writeReply reply = stream :=
  if_pos cancelled

theorem Direct.writeReply_outstanding {stream : ReplyStream Reply} (direct : stream.Direct)
    (active : stream.isCancelled = false) (reply : ServiceRPCReply Reply) :
    (stream.writeReply reply).outstanding = stream.outstanding + 1 := by
  unfold ReplyStream.writeReply
  rw [if_neg (by simp [active]), if_pos (by rw [direct.1]; rfl)]
  rfl

theorem writeReply_issued {stream : ReplyStream Reply} (active : stream.isCancelled = false)
    (reply : ServiceRPCReply Reply) :
    (stream.writeReply reply).issued = stream.issued ++ [reply] := by
  unfold ReplyStream.writeReply
  rw [if_neg (by simp [active])]
  split <;> rfl

@[simp] theorem writeReply_isCancelled (stream : ReplyStream Reply)
    (reply : ServiceRPCReply Reply) :
    (stream.writeReply reply).isCancelled = stream.isCancelled := by
  unfold ReplyStream.writeReply
  split
  · rfl
  · split <;> rfl

end ReplyStream

namespace ServiceServer

/-- The reply that a step passes to `write_reply`. -/
def replying (server : ServiceServer Request Reply) :
    Action Request Reply → Option (ServiceRPCReply Reply)
  | .loop =>
      match server.loop with
      | .processWrite _ => some { status := .process, payload := none }
      | .promptWrite => some { status := .prompted, payload := none }
      | _ => none
  | .task =>
      match server.task with
      | some (.writeReply reply) => some reply
      | _ => none
  | _ => none

/-- What a step can do to the sending half of the stream. -/
inductive ReplyMove (server : ServiceServer Request Reply) (action : Action Request Reply)
    (next : ReplyStream Reply) : Prop where
  | called (reply : ServiceRPCReply Reply) (calling : server.replying action = some reply)
      (written : next = server.replies.writeReply reply)
  | kept (silent : server.replying action = none) (same : next = server.replies)
  | completed (ok : Bool) (silent : server.replying action = none)
      (ended : server.replies.complete ok = some next)
  | handled (silent : server.replying action = none)
      (popped : server.replies.handleWrite = some next)
  | disconnected (silent : server.replying action = none)
      (cancelled : next = { server.replies with isCancelled := true })

theorem loopStep_move {server next : ServiceServer Request Reply}
    (stepped : server.loopStep = some next) : ReplyMove server .loop next.replies := by
  unfold loopStep at stepped
  split at stepped
  case h_1 => cases stepped
  case h_2 located | h_3 located | h_6 located | h_7 located =>
    split at stepped <;> cases stepped <;> exact .kept (by simp only [replying, located]) rfl
  case h_4 located =>
    cases stepped
    exact .called _ (by simp only [replying, located]) rfl
  case h_5 located =>
    split at stepped
    · cases stepped
    · cases stepped
      exact .kept (by simp only [replying, located]) rfl
  case h_8 located =>
    cases stepped
    exact .called _ (by simp only [replying, located]) rfl

theorem taskStep_move {server next : ServiceServer Request Reply}
    (stepped : server.taskStep = some next) : ReplyMove server .task next.replies := by
  unfold taskStep at stepped
  split at stepped
  case h_1 | h_2 => cases stepped
  case h_3 located | h_4 located | h_8 located | h_9 located =>
    split at stepped <;> cases stepped <;> exact .kept (by simp only [replying, located]) rfl
  case h_5 located | h_6 located | h_10 located =>
    cases stepped
    exact .kept (by simp only [replying, located]) rfl
  case h_7 reply located =>
    cases stepped
    exact .called reply (by simp only [replying, located]) rfl

theorem step_move {server next : ServiceServer Request Reply} {action : Action Request Reply}
    (stepped : server.step action = some next) : ReplyMove server action next.replies := by
  cases action with
  | receive request =>
      simp only [step, receive] at stepped
      split at stepped <;> cases stepped
      exact .kept rfl rfl
  | loop => exact loopStep_move stepped
  | callbackSet setter =>
      simp only [step, callbackSet] at stepped
      split at stepped <;> cases stepped
      exact .kept rfl rfl
  | callbackReturn payload =>
      simp only [step, callbackReturn] at stepped
      split at stepped <;> cases stepped
      exact .kept rfl rfl
  | task => exact taskStep_move stepped
  | complete ok =>
      obtain ⟨replies, ended, rfl⟩ := Option.map_eq_some_iff.mp stepped
      exact .completed ok rfl ended
  | handleWrite =>
      simp only [step] at stepped
      split at stepped
      · obtain ⟨replies, popped, rfl⟩ := Option.map_eq_some_iff.mp stepped
        exact .handled rfl popped
      · cases stepped
  | disconnect =>
      cases stepped
      exact .disconnected rfl rfl

/-- Every reply passed to `write_reply` on a live context finds no `Write` outstanding. -/
def WritesAlone (server : ServiceServer Request Reply) (action : Action Request Reply) : Prop :=
  (server.replying action).isSome → server.replies.isCancelled = false →
    server.replies.outstanding = 0

theorem step_direct {server next : ServiceServer Request Reply} (action : Action Request Reply)
    (direct : server.replies.Direct) (stepped : server.step action = some next) :
    next.replies.Direct := by
  cases step_move stepped with
  | called reply calling written => exact written ▸ direct.writeReply reply
  | kept silent same => exact same ▸ direct
  | completed ok silent ended => exact (direct.complete ended).1
  | handled silent popped => exact (direct.handleWrite popped).1
  | disconnected silent cancelled => exact cancelled ▸ direct

theorem outstanding_step {server next : ServiceServer Request Reply}
    {action : Action Request Reply} (direct : server.replies.Direct)
    (single : server.replies.outstanding ≤ 1) (stepped : server.step action = some next) :
    next.replies.outstanding ≤ 1 ↔ server.WritesAlone action := by
  cases step_move stepped with
  | called reply calling written =>
      have called : (server.replying action).isSome := by rw [calling]; rfl
      cases cancelled : server.replies.isCancelled with
      | true =>
          rw [written, ReplyStream.writeReply_cancelled cancelled]
          exact ⟨fun _ _ active => absurd (cancelled.symm.trans active) (by decide), fun _ => single⟩
      | false =>
          rw [written, direct.writeReply_outstanding cancelled]
          exact ⟨fun bound _ _ => by omega, fun alone => by have := alone called cancelled; omega⟩
  | kept silent same =>
      exact ⟨fun _ calling => by simp [silent] at calling, fun _ => same ▸ single⟩
  | completed ok silent ended =>
      exact ⟨fun _ calling => by simp [silent] at calling,
        fun _ => (direct.complete ended).2.trans single⟩
  | handled silent popped =>
      exact ⟨fun _ calling => by simp [silent] at calling,
        fun _ => (direct.handleWrite popped).2.trans_le single⟩
  | disconnected silent cancelled =>
      exact ⟨fun _ calling => by simp [silent] at calling, fun _ => cancelled ▸ single⟩

/-- Throughout a run at most one `Write` is outstanding and the replies are in order,
exactly if each reply is passed to `write_reply` when no `Write` is outstanding. -/
theorem orderly_iff_writesAlone (run : List (Action Request Reply)) :
    machine.Along (fun server => server.replies.Orderly) connected run ↔
      machine.Obeys WritesAlone connected run := by
  refine machine.along_iff_obeys
    (fun server => server.replies.Direct ∧ server.replies.outstanding ≤ 1)
    ?_ ?_ ?_ ⟨⟨rfl, rfl⟩, Nat.zero_le 1⟩ run
  · intro server valid
    obtain ⟨⟨empty, same⟩, single⟩ := valid
    exact ⟨single, by rw [empty, List.append_nil, same]⟩
  · intro server action next valid alone stepped
    obtain ⟨direct, single⟩ := valid
    exact ⟨step_direct action direct stepped, (outstanding_step direct single stepped).mpr alone⟩
  · intro server action next valid stepped orderly
    obtain ⟨direct, single⟩ := valid
    exact (outstanding_step direct single stepped).mp orderly.1

/-- A request whose callback succeeds before the write of PROCESS has ended. -/
def quickSuccess : List (Action Unit Unit) :=
  [.receive ⟨.pullNewReq, some ()⟩, .loop, .loop, .loop, .loop, .callbackSet .setSuccess,
    .task, .task, .callbackReturn (), .task, .task]

theorem quickSuccess_not_orderly :
    ¬ machine.Along (fun server => server.replies.Orderly) connected quickSuccess := by
  intro along
  have evaluated : (machine.exec connected quickSuccess).map
      (fun server => server.replies.outstanding) = some 2 := by decide
  obtain ⟨final, executed, two⟩ := Option.map_eq_some_iff.mp evaluated
  have single := (along.final executed).1
  omega

end ServiceServer

end ProtoCore.Service
