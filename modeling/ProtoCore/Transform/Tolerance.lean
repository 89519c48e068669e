import ProtoCore.Library.WindowedSeries
import ProtoCore.Transform.ArrivalOrder

/-!
# Lookups with a tolerance

A timed lookup compares one entry with the requested stamp, the first that is not older or
else the newest, and counts their difference as 1000 for a second and 1 for a microsecond.
-/

set_option autoImplicit false

namespace ProtoCore.Transform

open Library

variable {Scalar Frame : Type}

/-! ## Time -/

namespace Timestamp

/-- What protobuf promises of a stamp. -/
structure Valid (stamp : Timestamp) : Prop where
  low : 0 ≤ stamp.nanos
  high : stamp.nanos < 10 ^ 9

instance (stamp : Timestamp) : Decidable stamp.Valid :=
  decidable_of_iff (0 ≤ stamp.nanos ∧ stamp.nanos < 10 ^ 9)
    ⟨fun both => ⟨both.1, both.2⟩, fun valid => ⟨valid.low, valid.high⟩⟩

def nanoseconds (stamp : Timestamp) : Int := stamp.seconds * 10 ^ 9 + stamp.nanos

theorem before_eq_decide (left right : Timestamp) : left.before right = decide (left < right) := by
  rw [Bool.eq_iff_iff, decide_eq_true_iff]
  exact before_iff_lt left right

theorem lt_iff {left right : Timestamp} : left < right ↔
    left.seconds < right.seconds ∨ left.seconds = right.seconds ∧ left.nanos < right.nanos := by
  rw [← before_iff_lt, before, Bool.or_eq_true, Bool.and_eq_true, decide_eq_true_iff,
    decide_eq_true_iff, decide_eq_true_iff]

/-- Valid stamps are ordered as their times are. -/
theorem Valid.lt_iff {left right : Timestamp} (first : left.Valid) (second : right.Valid) :
    left < right ↔ left.nanoseconds < right.nanoseconds := by
  obtain ⟨low, high⟩ := first
  obtain ⟨low', high'⟩ := second
  rw [Timestamp.lt_iff, nanoseconds, nanoseconds]
  omega

theorem Valid.le_iff {left right : Timestamp} (first : left.Valid) (second : right.Valid) :
    left ≤ right ↔ left.nanoseconds ≤ right.nanoseconds := by
  rw [← not_lt, second.lt_iff first, not_lt]

/-- At most so many milliseconds apart. -/
def Within (stamp : Timestamp) (toleranceMs : Int) (other : Timestamp) : Prop :=
  ((other.nanoseconds - stamp.nanoseconds).natAbs : Int) ≤ toleranceMs * 10 ^ 6

/-- At most so many milliseconds apart by the count of the source. -/
def CountedWithin (stamp : Timestamp) (toleranceMs : Int) (other : Timestamp) : Prop :=
  ((timeDiffMs stamp other).natAbs : Int) ≤ toleranceMs

instance (stamp : Timestamp) (toleranceMs : Int) (other : Timestamp) :
    Decidable (stamp.Within toleranceMs other) :=
  inferInstanceAs (Decidable (_ ≤ _))

instance (stamp : Timestamp) (toleranceMs : Int) (other : Timestamp) :
    Decidable (stamp.CountedWithin toleranceMs other) :=
  inferInstanceAs (Decidable (_ ≤ _))

/-- The count is right for stamps that differ by whole seconds. -/
theorem countedWithin_iff_within_of_nanos {stamp other : Timestamp} (toleranceMs : Int)
    (same : other.nanos = stamp.nanos) :
    stamp.CountedWithin toleranceMs other ↔ stamp.Within toleranceMs other := by
  rw [CountedWithin, Within, timeDiffMs, nanoseconds, nanoseconds, same, Int.sub_self,
    Int.zero_tdiv]
  omega

end Timestamp

/-! ## The series of a node -/

namespace TransformTreeNode

/-- A node that nothing has marked as static, after the pushes. -/
def pushAll (id : String) (memoryDuration : Int) (transforms : List (TransformD Scalar)) :
    TransformTreeNode Scalar :=
  transforms.foldl push { (new id : TransformTreeNode Scalar) with memoryDuration }

/-- What `cleanup` drops, for any duration. -/
def outlasts (memoryDuration : Int) (newest stamp : Timestamp) : Bool :=
  decide (memoryDuration < timeDiffMs newest stamp)

/-- A push changes nothing but the series. -/
theorem push_pruning {node : TransformTreeNode Scalar} (pruning : node.isStatic = false)
    (transform : TransformD Scalar) : node.push transform = { node with
      valueTimeSeries := prune TransformD.stamp (outlasts node.memoryDuration)
        (insertByKey TransformD.stamp transform node.valueTimeSeries) } := by
  unfold push prune
  rw [insertEntry_eq]
  dsimp only
  cases (insertByKey TransformD.stamp transform node.valueTimeSeries).getLast? with
  | none => rfl
  | some newest =>
      dsimp only [cleanup]
      rw [if_neg (by rw [pruning]; exact Bool.false_ne_true)]
      rfl

/-- A node with a series of some of the transforms, in the order of their stamps. -/
structure Collects (transforms : List (TransformD Scalar)) (node : TransformTreeNode Scalar) :
    Prop where
  pruning : node.isStatic = false
  ordered : OrderedBy TransformD.stamp node.valueTimeSeries
  pushed : ∀ entry ∈ node.valueTimeSeries, entry ∈ transforms

theorem Collects.push {transforms : List (TransformD Scalar)} {node : TransformTreeNode Scalar}
    (collects : Collects transforms node) (transform : TransformD Scalar) :
    Collects (transforms ++ [transform]) (node.push transform) := by
  rw [push_pruning collects.pruning]
  refine ⟨collects.pruning, (collects.ordered.insertByKey transform).prune, fun entry member => ?_⟩
  rcases mem_of_mem_insertByKey (mem_of_mem_prune member) with rfl | before
  · exact List.mem_append_right _ List.mem_cons_self
  · exact List.mem_append_left _ (collects.pushed entry before)

theorem Collects.foldl {before transforms : List (TransformD Scalar)}
    {node : TransformTreeNode Scalar} (collects : Collects before node) :
    Collects (before ++ transforms) (transforms.foldl TransformTreeNode.push node) := by
  induction transforms generalizing before node with
  | nil =>
      rw [List.append_nil]
      exact collects
  | cons transform transforms ih =>
      have next := ih (collects.push transform)
      rw [List.append_assoc] at next
      exact next

theorem collects_pushAll (id : String) (memoryDuration : Int)
    (transforms : List (TransformD Scalar)) :
    Collects transforms (pushAll id memoryDuration transforms) := by
  have start : Collects [] { (new id : TransformTreeNode Scalar) with memoryDuration } :=
    ⟨rfl, List.Pairwise.nil, fun _ member => absurd member List.not_mem_nil⟩
  exact start.foldl

/-! ## One lookup -/

/-- The entry that a timed lookup compares with the stamp. -/
def compared (node : TransformTreeNode Scalar) (leastStamp : Timestamp) :
    Option (TransformD Scalar) :=
  node.valueTimeSeries.getLast?.map fun last =>
    lowerBound TransformD.stamp leastStamp node.valueTimeSeries last

theorem selected_timed {node : TransformTreeNode Scalar} (pruning : node.isStatic = false)
    (leastStamp : Timestamp) {toleranceMs : Int} (timed : 0 ≤ toleranceMs) :
    node.selected leastStamp toleranceMs =
      (node.compared leastStamp).bind fun entry =>
        if leastStamp.CountedWithin toleranceMs entry.stamp then some entry else none := by
  unfold selected compared
  cases node.valueTimeSeries.getLast? with
  | none => rfl
  | some last =>
      have late : (node.isStatic || decide (toleranceMs < 0)) = false := by
        rw [pruning, decide_eq_false (not_lt.mpr timed)]
        rfl
      simp only [late, Timestamp.before_eq_decide]
      rw [if_neg Bool.false_ne_true]
      rfl

variable (kdlFrame : Vector3 Scalar → Quaternion Scalar → Frame)

/-- A lookup gives the pose of an entry within the tolerance, and fails only without one. -/
def HonoursTolerance (node : TransformTreeNode Scalar) (leastStamp : Timestamp)
    (toleranceMs : Int) : Prop :=
  match node.transform kdlFrame leastStamp toleranceMs with
  | some frame => ∃ entry ∈ node.valueTimeSeries,
      leastStamp.Within toleranceMs entry.stamp ∧ posed kdlFrame entry = frame
  | none => ∀ entry ∈ node.valueTimeSeries, ¬ leastStamp.Within toleranceMs entry.stamp

/-- The compared entry is counted as within the tolerance exactly if it is, and if it is not
then the newest entry before the stamp is not either; or else an entry within the tolerance
has the pose of the compared one by coincidence. -/
def Discerns (node : TransformTreeNode Scalar) (leastStamp : Timestamp) (toleranceMs : Int) :
    Prop :=
  ∀ entry, node.compared leastStamp = some entry →
    ((leastStamp.CountedWithin toleranceMs entry.stamp ↔
        leastStamp.Within toleranceMs entry.stamp) ∧
      (leastStamp.Within toleranceMs entry.stamp ∨
        ∀ older, previous TransformD.stamp leastStamp node.valueTimeSeries = some older →
          ¬ leastStamp.Within toleranceMs older.stamp)) ∨
    leastStamp.CountedWithin toleranceMs entry.stamp ∧ ∃ other ∈ node.valueTimeSeries,
      leastStamp.Within toleranceMs other.stamp ∧ posed kdlFrame other = posed kdlFrame entry

/-- The entries within a tolerance are found at the neighbours of the stamp. -/
theorem exists_within_iff {node : TransformTreeNode Scalar}
    (ordered : OrderedBy TransformD.stamp node.valueTimeSeries)
    (valid : ∀ entry ∈ node.valueTimeSeries, entry.stamp.Valid) {leastStamp : Timestamp}
    (requested : leastStamp.Valid) (toleranceMs : Int) {entry : TransformD Scalar}
    (found : node.compared leastStamp = some entry) :
    (∃ other ∈ node.valueTimeSeries, leastStamp.Within toleranceMs other.stamp) ↔
      leastStamp.Within toleranceMs entry.stamp ∨
        ∃ older, previous TransformD.stamp leastStamp node.valueTimeSeries = some older ∧
          leastStamp.Within toleranceMs older.stamp := by
  obtain ⟨last, newest, rfl⟩ := Option.map_eq_some_iff.mp found
  refine ordered.exists_near_iff newest (fun entry member other also notOlder closer near => ?_)
    fun entry member other also older closer near => ?_
  · rw [requested.le_iff (valid other also)] at notOlder
    rw [(valid other also).le_iff (valid entry member)] at closer
    unfold Timestamp.Within at near ⊢
    omega
  · rw [(valid other also).lt_iff requested] at older
    rw [(valid entry member).le_iff (valid other also)] at closer
    unfold Timestamp.Within at near ⊢
    omega

/-- A timed lookup honours its tolerance exactly if the count is right about the entry that
it compares, and if looking at the entry before as well would have changed nothing. -/
theorem honoursTolerance_iff_discerns (id : String) (memoryDuration : Int)
    {transforms : List (TransformD Scalar)}
    (valid : ∀ transform ∈ transforms, transform.stamp.Valid) {leastStamp : Timestamp}
    (requested : leastStamp.Valid) {toleranceMs : Int} (timed : 0 ≤ toleranceMs) :
    (pushAll id memoryDuration transforms).HonoursTolerance kdlFrame leastStamp toleranceMs ↔
      (pushAll id memoryDuration transforms).Discerns kdlFrame leastStamp toleranceMs := by
  have collects := collects_pushAll id memoryDuration transforms
  generalize pushAll id memoryDuration transforms = node at collects ⊢
  have validEntries : ∀ entry ∈ node.valueTimeSeries, entry.stamp.Valid :=
    fun entry member => valid entry (collects.pushed entry member)
  have selected := selected_timed collects.pruning leastStamp timed
  unfold HonoursTolerance Discerns transform
  rw [selected]
  cases found : node.compared leastStamp with
  | none =>
      have empty : node.valueTimeSeries = [] :=
        List.getLast?_eq_none_iff.mp (Option.map_eq_none_iff.mp found)
      rw [empty]
      exact ⟨fun _ => nofun, fun _ => nofun⟩
  | some entry =>
      have member : entry ∈ node.valueTimeSeries := by
        obtain ⟨last, newest, rfl⟩ := Option.map_eq_some_iff.mp found
        exact lowerBound_mem (List.mem_of_getLast? newest)
      have within := exists_within_iff collects.ordered validEntries requested toleranceMs found
      rw [Option.bind_some]
      simp only [Option.some.injEq, forall_eq']
      by_cases counted : leastStamp.CountedWithin toleranceMs entry.stamp
      · rw [if_pos counted]
        constructor
        · intro honours
          exact .inr ⟨counted, honours⟩
        · rintro (⟨right, _⟩ | ⟨_, coincidence⟩)
          · exact ⟨entry, member, right.mp counted, rfl⟩
          · exact coincidence
      · rw [if_neg counted]
        constructor
        · intro none
          refine .inl ⟨⟨fun counts => absurd counts counted,
            fun close => absurd close (none entry member)⟩, .inr fun older before => ?_⟩
          exact none older (mem_of_previous before)
        · rintro (⟨right, neighbour⟩ | ⟨counts, _⟩) other among close
          · rcases within.mp ⟨other, among, close⟩ with here | ⟨older, before, near⟩
            · exact counted (right.mpr here)
            · rcases neighbour with here | far
              · exact counted (right.mpr here)
              · exact far older before near
          · exact counted counts

def sample (seconds nanos x : Int) : TransformD Int :=
  ⟨⟨⟨seconds, nanos⟩, "root"⟩, "a", ⟨x, 0, 0⟩, ⟨0, 0, 0, 1⟩⟩

theorem honoursTolerance_iff_discerns_seconds :
    let node := pushAll "a" 1000 [sample 2 0 20, sample 1 0 10]
    node.HonoursTolerance (fun vector _ => vector.x) ⟨1, 0⟩ 5 ↔
      node.Discerns (fun vector _ => vector.x) ⟨1, 0⟩ 5 :=
  honoursTolerance_iff_discerns (fun vector _ => vector.x) "a" 1000 (by decide) (by decide)
    (by decide)

/-- An entry half a millisecond old is missed with a tolerance of one. -/
theorem halfMillisecond_not_honoursTolerance :
    ¬ (pushAll "a" 1000 [sample 1 0 10]).HonoursTolerance (fun vector _ => vector.x)
      ⟨1, 500000⟩ 1 := by
  intro honours
  have missed : (pushAll "a" 1000 [sample 1 0 10]).transform (fun vector _ => vector.x)
      ⟨1, 500000⟩ 1 = none := by decide
  rw [HonoursTolerance, missed] at honours
  exact honours (sample 1 0 10) (by decide) (by decide)

end TransformTreeNode

end ProtoCore.Transform
