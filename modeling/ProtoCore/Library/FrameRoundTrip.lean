import ProtoCore.Library.FrameReader
import ProtoCore.Library.FrameStream

/-!
# Reading back a stream of frames

A reader that recognises the frames of some messages, and waits for more at the beginning of
such a frame, cuts a stream of those messages where the stream itself is cut.
-/

set_option autoImplicit false

namespace ProtoCore.Library

open FrameStream

variable {Message Symbol : Type}

/-- The reader finds the frame of the message, and nothing in a beginning of it. -/
structure FrameReader.Recognises (reader : FrameReader Symbol Message)
    (frame : Message → List Symbol) (message : Message) : Prop where
  whole : ∀ more, reader.front (frame message ++ more) = .frame (frame message).length message
  beginning : ∀ symbols, symbols <+: frame message → symbols.length < (frame message).length →
    reader.front symbols = .incomplete

namespace FrameStream

variable {frame : Message → List Symbol} {reader : FrameReader Symbol Message}

/-- The incomplete frame of a cut is the beginning of the next one, or nothing. -/
theorem Cut.rest_beginning {messages : List Message} {received rest : List Symbol} {count : Nat}
    (cut : Cut frame messages received count rest)
    (initial : received <+: stream frame messages) :
    rest = [] ∨ ∃ next ∈ messages, rest <+: frame next ∧ rest.length < (frame next).length := by
  have remaining : rest <+: stream frame (messages.drop count) := by
    have whole : received ++ [] <+: stream frame messages := by
      rw [List.append_nil]
      exact initial
    simpa only [List.append_nil] using cut.rest_prefix whole
  cases left : messages.drop count with
  | nil =>
      rw [left, stream_nil, List.prefix_nil] at remaining
      exact .inl remaining
  | cons next later =>
      have located : messages[count]? = some next := by
        have first := congrArg List.head? left
        rw [List.head?_drop] at first
        exact first
      have short := cut.short next located
      rw [left, stream_cons] at remaining
      exact .inr ⟨next, List.mem_of_getElem? located,
        List.prefix_of_prefix_length_le remaining (List.prefix_append _ _) short.le, short⟩

/-- A cut stays where it is when the stream goes on with another message. -/
theorem Cut.concat {messages : List Message} {received rest : List Symbol} {count : Nat}
    (cut : Cut frame messages received count rest)
    (initial : received <+: stream frame messages) {message : Message}
    (nonempty : frame message ≠ []) : Cut frame (messages ++ [message]) received count rest where
  within := by
    rw [List.length_append]
    exact Nat.le_trans cut.within (Nat.le_add_right _ _)
  split := by
    rw [List.take_append_of_le_length cut.within]
    exact cut.split
  short next found := by
    rcases Nat.lt_or_ge count messages.length with inside | outside
    · rw [List.getElem?_append_left inside] at found
      exact cut.short next found
    · -- the whole stream has been cut, and nothing is left
      have finished : messages.drop count = [] := List.drop_eq_nil_of_le outside
      have remaining : rest <+: stream frame (messages.drop count) := by
        have whole : received ++ [] <+: stream frame messages := by
          rw [List.append_nil]
          exact initial
        simpa only [List.append_nil] using cut.rest_prefix whole
      rw [finished, stream_nil, List.prefix_nil] at remaining
      rw [List.getElem?_append_right outside, List.getElem?_singleton,
        Option.ite_none_right_eq_some, Option.some.injEq] at found
      rw [remaining, ← found.2]
      exact List.length_pos_of_ne_nil nonempty

theorem Cut.front_rest {messages : List Message} {received rest : List Symbol} {count : Nat}
    (cut : Cut frame messages received count rest)
    (recognised : ∀ message ∈ messages, reader.Recognises frame message)
    (initial : received <+: stream frame messages) (nothing : reader.front [] = .incomplete) :
    reader.front rest = .incomplete := by
  rcases cut.rest_beginning initial with rfl | ⟨next, member, beginning, short⟩
  · exact nothing
  · exact (recognised next member).beginning rest beginning short

/-- The frames that are complete are read one after another. -/
theorem reads_stream {messages : List Message}
    (recognised : ∀ message ∈ messages, reader.Recognises frame message) (position : Nat)
    (rest : List Symbol) :
    ∃ frames, reader.Reads position (stream frame messages ++ rest) frames
        (position + (stream frame messages).length) rest ∧
      frames.map Prod.snd = messages := by
  induction messages generalizing position with
  | nil => exact ⟨[], .done position rest, rfl⟩
  | cons message messages ih =>
      have found := (recognised message List.mem_cons_self).whole (stream frame messages ++ rest)
      obtain ⟨frames, reads, same⟩ := ih
        (fun other member => recognised other (List.mem_cons_of_mem _ member))
        (position + (frame message).length)
      refine ⟨(position, message) :: frames, ?_, by rw [List.map_cons, same]⟩
      rw [stream_cons, List.append_assoc, List.length_append, ← Nat.add_assoc]
      refine .frame found ?_
      rw [List.drop_left]
      exact reads

end FrameStream

end ProtoCore.Library
