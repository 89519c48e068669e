import Mathlib.Data.List.Basic
import Mathlib.Data.List.Infix

/-!
# Readers of frames

A reader looks at the front of what has arrived. It finds a frame, something broken, or
not enough yet, and what it has found stays as it is when more arrives. A stream then has
one list of frames, however it is cut when it arrives.
-/

set_option autoImplicit false

namespace ProtoCore.Library

inductive Front (Message : Type) where
  | incomplete
  | broken
  | frame (size : Nat) (message : Message)

structure FrameReader (Symbol Message : Type) where
  front : List Symbol → Front Message
  fits : ∀ {symbols size message}, front symbols = .frame size message →
    0 < size ∧ size ≤ symbols.length
  steady : ∀ {symbols}, front symbols ≠ .incomplete → ∀ more,
    front (symbols ++ more) = front symbols

namespace FrameReader

variable {Symbol Message : Type} (reader : FrameReader Symbol Message)

/-- The messages from the front on, each with the position of its frame. -/
def framesFrom : Nat → Nat → List Symbol → List (Nat × Message)
  | 0, _, _ => []
  | fuel + 1, position, symbols =>
      match reader.front symbols with
      | .frame size message =>
          (position, message) :: framesFrom fuel (position + size) (symbols.drop size)
      | _ => []

/-- Every frame takes a symbol or more, so the length of the stream is fuel enough. -/
def framesAt (position : Nat) (symbols : List Symbol) : List (Nat × Message) :=
  reader.framesFrom symbols.length position symbols

/-- No frame is at the front. -/
def Stops (symbols : List Symbol) : Prop :=
  ∀ size message, reader.front symbols ≠ .frame size message

/-- Frames end to end, from a position to the symbols that are left. -/
inductive Reads : Nat → List Symbol → List (Nat × Message) → Nat → List Symbol → Prop where
  | done (position : Nat) (symbols : List Symbol) : Reads position symbols [] position symbols
  | frame {position size last : Nat} {symbols left : List Symbol} {message : Message}
      {frames : List (Nat × Message)} (found : reader.front symbols = .frame size message)
      (rest : Reads (position + size) (symbols.drop size) frames last left) :
      Reads position symbols ((position, message) :: frames) last left

variable {reader}

theorem framesFrom_stops {symbols : List Symbol} (stops : reader.Stops symbols)
    (fuel position : Nat) : reader.framesFrom fuel position symbols = [] := by
  cases fuel with
  | zero => rfl
  | succ fuel =>
      rw [framesFrom]
      cases looked : reader.front symbols with
      | frame size message => exact absurd looked (stops size message)
      | _ => rfl

theorem framesFrom_fuel {fuel other : Nat} (position : Nat) {symbols : List Symbol}
    (enough : symbols.length ≤ fuel) (also : symbols.length ≤ other) :
    reader.framesFrom fuel position symbols = reader.framesFrom other position symbols := by
  induction fuel generalizing other position symbols with
  | zero =>
      have stops : reader.Stops symbols := by
        intro size message found
        have fits := reader.fits found
        omega
      rw [framesFrom_stops stops, framesFrom_stops stops]
  | succ fuel ih =>
      cases looked : reader.front symbols with
      | frame size message =>
          have fits := reader.fits looked
          cases other with
          | zero => omega
          | succ other =>
              have shorter : (symbols.drop size).length + 1 ≤ symbols.length := by
                rw [List.length_drop]
                omega
              simp only [framesFrom, looked]
              rw [ih _ (by omega) (by omega : _ ≤ other)]
      | incomplete | broken =>
          have stops : reader.Stops symbols := by
            intro size message found
            rw [looked] at found
            cases found
          rw [framesFrom_stops stops, framesFrom_stops stops]

theorem framesAt_stops {symbols : List Symbol} (stops : reader.Stops symbols) (position : Nat) :
    reader.framesAt position symbols = [] :=
  framesFrom_stops stops _ _

theorem framesAt_frame {symbols : List Symbol} {size : Nat} {message : Message}
    (found : reader.front symbols = .frame size message) (position : Nat) :
    reader.framesAt position symbols =
      (position, message) :: reader.framesAt (position + size) (symbols.drop size) := by
  have shorter : (symbols.drop size).length ≤ symbols.length := by
    rw [List.length_drop]
    omega
  have rest : reader.framesFrom symbols.length (position + size) (symbols.drop size) =
      reader.framesAt (position + size) (symbols.drop size) :=
    framesFrom_fuel _ shorter (Nat.le_refl _)
  rw [framesAt, framesFrom_fuel position (Nat.le_refl _) (Nat.le_succ _)]
  simp only [framesFrom, found, rest]

theorem Reads.framesAt {position last : Nat} {symbols left : List Symbol}
    {frames : List (Nat × Message)} (reads : reader.Reads position symbols frames last left) :
    reader.framesAt position symbols = frames ++ reader.framesAt last left := by
  induction reads with
  | done => rfl
  | frame found _ ih => rw [framesAt_frame found, ih, List.cons_append]

theorem Reads.append {position last : Nat} {symbols left : List Symbol}
    {frames : List (Nat × Message)} (reads : reader.Reads position symbols frames last left)
    (more : List Symbol) : reader.Reads position (symbols ++ more) frames last (left ++ more) := by
  induction reads with
  | done position symbols => exact .done position _
  | @frame position size last symbols left message frames found _ ih =>
      have fits := reader.fits found
      have kept : reader.front (symbols ++ more) = .frame size message := by
        rw [reader.steady (by rw [found]; exact fun same => by cases same), found]
      refine .frame kept ?_
      rw [List.drop_append_of_le_length fits.2]
      exact ih

theorem Reads.trans {position middle last : Nat} {symbols between left : List Symbol}
    {first second : List (Nat × Message)}
    (reads : reader.Reads position symbols first middle between)
    (further : reader.Reads middle between second last left) :
    reader.Reads position symbols (first ++ second) last left := by
  induction reads with
  | done => exact further
  | frame found _ ih => exact .frame found (ih further)

theorem Reads.length {position last : Nat} {symbols left : List Symbol}
    {frames : List (Nat × Message)} (reads : reader.Reads position symbols frames last left) :
    position ≤ last ∧ last + left.length = position + symbols.length := by
  induction reads with
  | done => exact ⟨Nat.le_refl _, rfl⟩
  | frame found _ ih =>
      have fits := reader.fits found
      rw [List.length_drop] at ih
      omega

theorem Reads.left_eq {position last : Nat} {symbols left : List Symbol}
    {frames : List (Nat × Message)} (reads : reader.Reads position symbols frames last left) :
    left = symbols.drop (last - position) := by
  induction reads with
  | done => rw [Nat.sub_self, List.drop_zero]
  | frame found rest ih =>
      have ahead := rest.length.1
      rw [ih, List.drop_drop]
      congr 1
      omega

theorem Reads.shift {position last : Nat} {symbols left : List Symbol}
    {frames : List (Nat × Message)} (reads : reader.Reads position symbols frames last left)
    (before : Nat) :
    reader.Reads (before + position) symbols
      (frames.map fun frame => (before + frame.1, frame.2)) (before + last) left := by
  induction reads with
  | done position symbols => exact .done _ symbols
  | frame found _ ih =>
      refine .frame found ?_
      rw [Nat.add_assoc]
      exact ih

theorem exists_reads (reader : FrameReader Symbol Message) (position : Nat) (symbols : List Symbol) :
    ∃ last left, reader.Reads position symbols (reader.framesAt position symbols) last left ∧
      reader.Stops left := by
  induction size : symbols.length using Nat.strong_induction_on generalizing position symbols with
  | _ length ih =>
      cases looked : reader.front symbols with
      | frame taken message =>
          have fits := reader.fits looked
          obtain ⟨last, left, reads, stops⟩ := ih (symbols.drop taken).length
            (by rw [List.length_drop]; omega) (position + taken) (symbols.drop taken) rfl
          rw [framesAt_frame looked]
          exact ⟨last, left, .frame looked reads, stops⟩
      | incomplete | broken =>
          have stops : reader.Stops symbols := by
            intro size message found
            rw [looked] at found
            cases found
          rw [framesAt_stops stops]
          exact ⟨position, symbols, .done position symbols, stops⟩

theorem Reads.increasing {position last : Nat} {symbols left : List Symbol}
    {frames : List (Nat × Message)} (reads : reader.Reads position symbols frames last left) :
    (∀ frame ∈ frames, position ≤ frame.1) ∧
      frames.Pairwise fun earlier later => earlier.1 < later.1 := by
  induction reads with
  | done => exact ⟨fun _ member => absurd member List.not_mem_nil, List.Pairwise.nil⟩
  | frame found _ ih =>
      have fits := reader.fits found
      refine ⟨fun frame member => ?_, List.pairwise_cons.mpr ⟨fun later member => ?_, ih.2⟩⟩
      · rcases List.mem_cons.mp member with rfl | later
        · exact Nat.le_refl _
        · have bound := ih.1 frame later
          omega
      · have bound := ih.1 later member
        dsimp only
        omega

theorem framesAt_shift (before : Nat) (symbols : List Symbol) :
    reader.framesAt before symbols =
      (reader.framesAt 0 symbols).map fun frame => (before + frame.1, frame.2) := by
  obtain ⟨last, left, reads, stops⟩ := exists_reads reader 0 symbols
  have shifted := (reads.shift before).framesAt
  rw [framesAt_stops stops, List.append_nil] at shifted
  exact shifted

/-- The frames of a stream are at different positions. -/
theorem nodup_positions (position : Nat) (symbols : List Symbol) :
    ((reader.framesAt position symbols).map Prod.fst).Nodup := by
  obtain ⟨_, _, reads, _⟩ := exists_reads reader position symbols
  exact List.pairwise_map.mpr (reads.increasing.2.imp Nat.ne_of_lt)

/-- What is read in several goes is what is read at once. -/
theorem Reads.framesAt_append {position last : Nat} {symbols left : List Symbol}
    {frames : List (Nat × Message)} (reads : reader.Reads position symbols frames last left)
    (more : List Symbol) :
    reader.framesAt position (symbols ++ more) =
      frames ++ reader.framesAt last (left ++ more) :=
  (reads.append more).framesAt

end FrameReader

end ProtoCore.Library
