import Mathlib.Data.List.Basic
import Mathlib.Data.List.Infix

/-!
# Streams of frames

A stream is the concatenation of the frames of a list of messages. Every prefix
of it is cut into the frames that are complete and the beginning of the next one.
-/

set_option autoImplicit false

namespace ProtoCore.Library.FrameStream

variable {Message Symbol : Type} (frame : Message → List Symbol)

def stream (messages : List Message) : List Symbol := messages.flatMap frame

@[simp] theorem stream_nil : stream frame [] = [] := rfl

@[simp] theorem stream_cons (message : Message) (messages : List Message) :
    stream frame (message :: messages) = frame message ++ stream frame messages := rfl

theorem stream_append (left right : List Message) :
    stream frame (left ++ right) = stream frame left ++ stream frame right :=
  List.flatMap_append

theorem stream_take_drop (messages : List Message) (count : Nat) :
    stream frame (messages.take count) ++ stream frame (messages.drop count) =
      stream frame messages := by
  rw [← stream_append, List.take_append_drop]

theorem length_le_stream (nonempty : ∀ message, frame message ≠ [])
    (messages : List Message) : messages.length ≤ (stream frame messages).length := by
  induction messages with
  | nil => exact le_rfl
  | cons message messages ih =>
      have := List.length_pos_of_ne_nil (nonempty message)
      rw [stream_cons, List.length_append, List.length_cons]
      omega

/-- `count` frames are complete in `received`, and `rest` is shorter than the next. -/
structure Cut (messages : List Message) (received : List Symbol) (count : Nat)
    (rest : List Symbol) : Prop where
  within : count ≤ messages.length
  split : received = stream frame (messages.take count) ++ rest
  short : ∀ next, messages[count]? = some next → rest.length < (frame next).length

variable {frame}

theorem Cut.none (messages : List Message) {received : List Symbol}
    (short : ∀ next, messages[0]? = some next → received.length < (frame next).length) :
    Cut frame messages received 0 received :=
  ⟨Nat.zero_le _, by simp, short⟩

theorem Cut.cons {messages : List Message} {received rest : List Symbol} {count : Nat}
    (cut : Cut frame messages received count rest) (message : Message) :
    Cut frame (message :: messages) (frame message ++ received) (count + 1) rest where
  within := Nat.succ_le_succ cut.within
  split := by simp [cut.split]
  short next found := cut.short next (by simpa using found)

theorem Cut.rest_prefix {messages : List Message} {received rest more : List Symbol}
    {count : Nat} (cut : Cut frame messages received count rest)
    (whole : received ++ more <+: stream frame messages) :
    rest ++ more <+: stream frame (messages.drop count) := by
  rw [cut.split, ← stream_take_drop frame messages count, List.append_assoc] at whole
  exact (List.prefix_append_right_inj _).mp whole

/-- Cutting what has arrived, and later the incomplete frame with what follows
it, cuts the whole. -/
theorem Cut.extend {messages : List Message} {received rest more later : List Symbol}
    {count further : Nat} (cut : Cut frame messages received count rest)
    (next : Cut frame (messages.drop count) (rest ++ more) further later) :
    Cut frame messages (received ++ more) (count + further) later where
  within := by
    have := next.within
    have := cut.within
    simp only [List.length_drop] at *
    omega
  split := by
    rw [cut.split, List.append_assoc, next.split, ← List.append_assoc, ← stream_append,
      List.take_add]
  short message found := next.short message (by rw [List.getElem?_drop]; exact found)

theorem Cut.whole {messages : List Message} {rest : List Symbol} {count : Nat}
    (cut : Cut frame messages (stream frame messages) count rest) :
    count = messages.length ∧ rest = [] := by
  have remaining : rest = stream frame (messages.drop count) := by
    have split := cut.split
    rw [← stream_take_drop frame messages count] at split
    exact (List.append_cancel_left split).symm
  have finished : count = messages.length := by
    by_contra unfinished
    have inside : count < messages.length := by
      have := cut.within
      omega
    have short := cut.short messages[count] (List.getElem?_eq_getElem inside)
    rw [remaining, List.drop_eq_getElem_cons inside, stream_cons, List.length_append] at short
    omega
  refine ⟨finished, ?_⟩
  rw [remaining, finished, List.drop_length, stream_nil]

theorem Cut.count_le {messages : List Message} {received rest : List Symbol} {count : Nat}
    (cut : Cut frame messages received count rest) (nonempty : ∀ message, frame message ≠ []) :
    count ≤ received.length := by
  have taken := length_le_stream frame nonempty (messages.take count)
  rw [List.length_take_of_le cut.within] at taken
  rw [cut.split, List.length_append]
  omega

theorem exists_cut {messages : List Message} {received : List Symbol}
    (initial : received <+: stream frame messages) :
    ∃ count rest, Cut frame messages received count rest := by
  induction messages generalizing received with
  | nil => exact ⟨0, received, Cut.none [] (by simp)⟩
  | cons message messages ih =>
      by_cases complete : (frame message).length ≤ received.length
      · obtain ⟨tail, rfl⟩ : frame message <+: received :=
          List.prefix_of_prefix_length_le (List.prefix_append _ _) initial complete
        rw [stream_cons, List.prefix_append_right_inj] at initial
        obtain ⟨count, rest, cut⟩ := ih initial
        exact ⟨count + 1, rest, cut.cons message⟩
      · exact ⟨0, received, Cut.none _ (by simpa using complete)⟩

end ProtoCore.Library.FrameStream
