import ProtoCore.Library.Machine
import ProtoCore.Transform.Tolerance

/-!
# The history of a node

`cleanup` should drop what is older than the newest entry by more than the duration of the
node. It counts the difference of two stamps the other way round, so that seconds make it
smaller, and takes microseconds for milliseconds.
-/

set_option autoImplicit false

namespace ProtoCore.Transform

open Library

variable {Scalar : Type}

/-- One stamp is older than another by more than so many milliseconds. -/
def LeftBehind (durationMs : Int) (newest stamp : Timestamp) : Prop :=
  durationMs * 10 ^ 6 < newest.nanoseconds - stamp.nanoseconds

/-- The test of `cleanup` is right about one stamp. -/
def CountsRight (durationMs : Int) (newest stamp : Timestamp) : Prop :=
  TransformTreeNode.outlasts durationMs newest stamp = false ↔ ¬ LeftBehind durationMs newest stamp

theorem forward {durationMs : Int} (nonneg : 0 ≤ durationMs) :
    Forward (LeftBehind durationMs) Timestamp.Valid where
  fresh stamp := by
    unfold LeftBehind
    omega
  grows newest later stamp valid validLater le behind := by
    rw [valid.le_iff validLater] at le
    unfold LeftBehind at behind ⊢
    omega

/-- Division rounds towards zero. -/
theorem tdiv_thousand (difference : Int) :
    (0 ≤ difference ∧ difference.tdiv 1000 = difference / 1000) ∨
      (difference < 0 ∧ difference.tdiv 1000 = -(-difference / 1000)) := by
  rcases lt_or_ge difference 0 with negative | nonneg
  · refine .inr ⟨negative, ?_⟩
    have flipped := Int.neg_tdiv (-difference) 1000
    rw [Int.neg_neg] at flipped
    rw [flipped, Int.tdiv_eq_ediv_of_nonneg (show 0 ≤ -difference by omega)]
  · exact .inl ⟨nonneg, Int.tdiv_eq_ediv_of_nonneg nonneg⟩

/-- With the duration that every tree gives its nodes, the test is right about stamps of the
newest second, and of others only by the nanoseconds in which they differ. -/
theorem countsRight_default_iff {newest stamp : Timestamp} (valid : newest.Valid)
    (validStamp : stamp.Valid) (le : stamp ≤ newest) :
    CountsRight 1000 newest stamp ↔
      newest.seconds = stamp.seconds ∨
      (newest.seconds = stamp.seconds + 1 ∧
        0 ≤ stamp.nanos - newest.nanos ∧ stamp.nanos - newest.nanos < 2001000) ∨
      (stamp.seconds + 2 ≤ newest.seconds ∧
        10 ^ 6 * (newest.seconds - stamp.seconds + 1) + 1000 ≤ stamp.nanos - newest.nanos) := by
  obtain ⟨low, high⟩ := valid
  obtain ⟨low', high'⟩ := validStamp
  rw [← not_lt, Timestamp.lt_iff] at le
  rw [CountsRight, TransformTreeNode.outlasts, decide_eq_false_iff_not, LeftBehind, timeDiffMs,
    Timestamp.nanoseconds, Timestamp.nanoseconds]
  have rounded := tdiv_thousand (stamp.nanos - newest.nanos)
  omega

/-! ## Pushes -/

/-- A node with all that has been pushed to it. -/
structure Pushing (Scalar : Type) where
  node : TransformTreeNode Scalar
  pushed : List (TransformD Scalar)

namespace Pushing

def start (id : String) (memoryDuration : Int) : Pushing Scalar where
  node := { (.new id : TransformTreeNode Scalar) with memoryDuration }
  pushed := []

def machine : Machine (Pushing Scalar) (TransformD Scalar) where
  step pushing transform := some ⟨pushing.node.push transform, pushing.pushed ++ [transform]⟩

/-- The entries are the first ones pushed of their stamps, and no older than the newest by more
than the duration. -/
def Retains (pushing : Pushing Scalar) : Prop :=
  Windowed TransformD.stamp (LeftBehind pushing.node.memoryDuration) pushing.pushed
    pushing.node.valueTimeSeries

/-- The test of `cleanup` is right about the entries and the one that is pushed. -/
def Counts (pushing : Pushing Scalar) (transform : TransformD Scalar) : Prop :=
  ∀ newest ∈ (insertEntry transform pushing.node.valueTimeSeries).getLast?,
    ∀ entry ∈ insertEntry transform pushing.node.valueTimeSeries,
      CountsRight pushing.node.memoryDuration newest.stamp entry.stamp

/-- All about the node that holds after any pushes of valid stamps. -/
structure Sound (memoryDuration : Int) (pushing : Pushing Scalar) : Prop where
  duration : pushing.node.memoryDuration = memoryDuration
  collects : pushing.node.Collects pushing.pushed
  valid : ∀ transform ∈ pushing.pushed, transform.stamp.Valid
  -- a negative duration drops every entry at once
  dropped : memoryDuration < 0 → pushing.node.valueTimeSeries = []

theorem sound_start (id : String) (memoryDuration : Int) :
    Sound memoryDuration (start id memoryDuration : Pushing Scalar) where
  duration := rfl
  collects := ⟨rfl, List.Pairwise.nil, fun _ member => absurd member List.not_mem_nil⟩
  valid _ member := absurd member List.not_mem_nil
  dropped _ := rfl

theorem Sound.push {memoryDuration : Int} {pushing : Pushing Scalar}
    (sound : Sound memoryDuration pushing) {transform : TransformD Scalar}
    (valid : transform.stamp.Valid) :
    Sound memoryDuration ⟨pushing.node.push transform, pushing.pushed ++ [transform]⟩ where
  duration := (TransformTreeNode.push_memoryDuration _ _).trans sound.duration
  collects := sound.collects.push transform
  valid other member := by
    rcases List.mem_append.mp member with before | here
    · exact sound.valid other before
    · exact List.mem_singleton.mp here ▸ valid
  dropped negative := by
    rw [TransformTreeNode.push_pruning sound.collects.pruning, sound.dropped negative,
      sound.duration]
    have gone : TransformTreeNode.outlasts memoryDuration transform.stamp transform.stamp = true :=
      decide_eq_true (by rw [TransformTreeNode.timeDiffMs_self]; exact negative)
    simp only [insertByKey, prune, List.getLast?_singleton, List.filter_cons, gone, Bool.not_true,
      Bool.false_eq_true, if_false, List.filter_nil]

/-- With a negative duration no entry is in the window. -/
theorem Sound.retains_of_negative {memoryDuration : Int} {pushing : Pushing Scalar}
    (sound : Sound memoryDuration pushing) (negative : memoryDuration < 0) :
    pushing.Retains := by
  intro entry
  rw [sound.dropped negative]
  refine ⟨fun member => absurd member List.not_mem_nil, fun inside => ?_⟩
  obtain ⟨newest, member, greatest, recent⟩ := inside.recent
  have le := greatest entry inside.mem
  rw [(sound.valid entry inside.mem).le_iff (sound.valid newest member)] at le
  rw [LeftBehind, sound.duration] at recent
  omega

theorem Sound.counts_of_negative {memoryDuration : Int} {pushing : Pushing Scalar}
    (sound : Sound memoryDuration pushing) (negative : memoryDuration < 0)
    (transform : TransformD Scalar) : pushing.Counts transform := by
  intro newest last entry member
  rw [sound.dropped negative, insertEntry] at last member
  rw [List.getLast?_singleton] at last
  obtain rfl := Option.some.inj last
  rw [List.mem_singleton.mp member, CountsRight, TransformTreeNode.outlasts,
    TransformTreeNode.timeDiffMs_self, sound.duration, LeftBehind, decide_eq_false_iff_not]
  omega

/-- One push keeps the window exactly if the test is right about all that is there. -/
theorem Sound.retains_push_iff {memoryDuration : Int} {pushing : Pushing Scalar}
    (sound : Sound memoryDuration pushing) (retains : pushing.Retains)
    {transform : TransformD Scalar} (valid : transform.stamp.Valid) :
    Retains ⟨pushing.node.push transform, pushing.pushed ++ [transform]⟩ ↔
      pushing.Counts transform := by
  have next := sound.push valid
  rcases lt_or_ge memoryDuration 0 with negative | nonneg
  · exact ⟨fun _ => sound.counts_of_negative negative transform,
      fun _ => next.retains_of_negative negative⟩
  · obtain ⟨_, among, _⟩ :=
      exists_key_insertByKey TransformD.stamp transform pushing.node.valueTimeSeries
    cases last : (insertByKey TransformD.stamp transform pushing.node.valueTimeSeries).getLast? with
    | none => cases List.getLast?_eq_none_iff.mp last ▸ among
    | some newest =>
        have step := retains.prune_iff (forward (sound.duration ▸ nonneg)) sound.collects.ordered
          next.valid last (TransformTreeNode.outlasts pushing.node.memoryDuration)
        unfold Retains Counts
        rw [insertEntry_eq, last, TransformTreeNode.push_pruning sound.collects.pruning]
        simp only [Option.mem_some_iff, forall_eq']
        exact step

/-- From its creation on, a node holds the window exactly if `cleanup` is right about every
entry at every push. -/
theorem retains_iff_counts (id : String) (memoryDuration : Int)
    {transforms : List (TransformD Scalar)}
    (valid : ∀ transform ∈ transforms, transform.stamp.Valid) :
    machine.Along Retains (start id memoryDuration) transforms ↔
      machine.Obeys Counts (start id memoryDuration) transforms := by
  have assuming := Machine.Obeys.of_mem machine valid (start id memoryDuration)
  refine machine.along_iff_obeys_of
    (fun pushing => Sound memoryDuration pushing ∧ pushing.Retains) (fun _ both => both.2)
    ?_ ?_ ⟨sound_start id memoryDuration, ?_⟩ assuming
  · rintro pushing transform next ⟨sound, retains⟩ valid counts stepped
    cases stepped
    exact ⟨sound.push valid, (sound.retains_push_iff retains valid).mpr counts⟩
  · rintro pushing transform next ⟨sound, retains⟩ valid stepped kept
    cases stepped
    exact (sound.retains_push_iff retains valid).mp kept
  · intro entry
    exact ⟨fun member => absurd member List.not_mem_nil,
      fun inside => absurd inside.mem List.not_mem_nil⟩

theorem retains_iff_counts_second :
    let transforms := [TransformTreeNode.sample 0 500 1, TransformTreeNode.sample 1 0 2,
      TransformTreeNode.sample 0 500 3]
    machine.Along Retains (start "a" 1000) transforms ↔
      machine.Obeys Counts (start "a" 1000) transforms :=
  retains_iff_counts "a" 1000 (by decide)

/-- Whole seconds never make an entry expire. -/
theorem fiveSeconds_not_retains :
    ¬ machine.Along Retains (start "a" 1000)
      [TransformTreeNode.sample 0 0 1, TransformTreeNode.sample 5 0 2] := by
  intro along
  have executed : machine.exec (start "a" 1000)
      [TransformTreeNode.sample 0 0 1, TransformTreeNode.sample 5 0 2] = some _ := rfl
  have retains := along.final executed
  have inside := (retains (TransformTreeNode.sample 0 0 1)).mp (by decide +kernel)
  obtain ⟨newest, member, greatest, recent⟩ := inside.recent
  have le := greatest (TransformTreeNode.sample 5 0 2) (by decide +kernel)
  rcases List.mem_cons.mp member with rfl | later
  · rw [Timestamp.Valid.le_iff (by decide) (by decide)] at le
    revert le
    decide
  · obtain rfl := List.mem_singleton.mp later
    apply recent
    unfold LeftBehind
    decide

end Pushing

end ProtoCore.Transform
