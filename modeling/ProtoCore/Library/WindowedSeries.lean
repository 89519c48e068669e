import Mathlib.Data.List.MinMax
import ProtoCore.Library.RetainedSeries

/-!
# Series with a window

A series should hold the first arrivals of the keys that the newest one does not leave
behind. One that prunes by a test of its own does so as long as the test agrees with the
window. A search in it for a key has two neighbours to look at.
-/

set_option autoImplicit false

namespace ProtoCore.Library

variable {Entry Key : Type} [LinearOrder Key] (key : Entry → Key)

/-! ## The neighbours of a key -/

/-- The first entry that does not come before the key, or else the last entry. -/
def lowerBound (stamp : Key) (entries : List Entry) (last : Entry) : Entry :=
  (entries.find? fun entry => !decide (key entry < stamp)).getD last

/-- The last entry that comes before the key. -/
def previous (stamp : Key) (entries : List Entry) : Option Entry :=
  (entries.filter fun entry => decide (key entry < stamp)).getLast?

variable {key}

theorem mem_of_previous {stamp : Key} {entries : List Entry} {entry : Entry}
    (found : previous key stamp entries = some entry) : entry ∈ entries :=
  (List.mem_filter.mp (List.mem_of_getLast? found)).1

theorem lowerBound_mem {stamp : Key} {entries : List Entry} {last : Entry}
    (member : last ∈ entries) : lowerBound key stamp entries last ∈ entries := by
  unfold lowerBound
  cases found : entries.find? fun entry => !decide (key entry < stamp) with
  | none => exact member
  | some entry => exact List.mem_of_find?_eq_some found

/-- No entry before the key is closer than the previous one. -/
theorem OrderedBy.le_previous {entries : List Entry} (ordered : OrderedBy key entries)
    {stamp : Key} {entry : Entry} (member : entry ∈ entries) (early : key entry < stamp) :
    ∃ other, previous key stamp entries = some other ∧ key other < stamp ∧
      key entry ≤ key other := by
  have among : entry ∈ entries.filter fun entry => decide (key entry < stamp) :=
    List.mem_filter.mpr ⟨member, decide_eq_true early⟩
  cases found : previous key stamp entries with
  | none => cases List.getLast?_eq_none_iff.mp found ▸ among
  | some other =>
      have inside := List.mem_filter.mp (List.mem_of_getLast? found)
      have filtered : OrderedBy key (entries.filter fun entry => decide (key entry < stamp)) :=
        ordered.filter _
      exact ⟨other, rfl, of_decide_eq_true inside.2, filtered.le_getLast found entry among⟩

/-- No entry from the key on is closer than its lower bound. -/
theorem OrderedBy.lowerBound_le {entries : List Entry} (ordered : OrderedBy key entries)
    {stamp : Key} {entry : Entry} (member : entry ∈ entries) (late : ¬ key entry < stamp)
    (last : Entry) :
    stamp ≤ key (lowerBound key stamp entries last) ∧
      key (lowerBound key stamp entries last) ≤ key entry := by
  cases found : entries.find? fun entry => !decide (key entry < stamp) with
  | none =>
      have none := List.find?_eq_none.mp found entry member
      rw [decide_eq_false late] at none
      exact absurd rfl none
  | some other =>
      rw [lowerBound, found, Option.getD_some]
      obtain ⟨notEarly, front, back, split, early⟩ := List.find?_eq_some_iff_append.mp found
      rw [Bool.not_eq_true', decide_eq_false_iff_not] at notEarly
      refine ⟨not_lt.mp notEarly, ?_⟩
      rw [split] at member ordered
      rcases List.mem_append.mp member with before | rest
      · have sooner := early entry before
        rw [Bool.not_not, decide_eq_true_iff] at sooner
        exact absurd sooner late
      · rcases List.mem_cons.mp rest with rfl | later
        · exact le_rfl
        · have tail := (List.pairwise_append.mp ordered).2.1
          exact ((List.pairwise_cons.mp tail).1 entry later).le

/-- What is near a key and goes on being near towards it is found at one of two neighbours. -/
theorem OrderedBy.exists_near_iff {entries : List Entry} (ordered : OrderedBy key entries)
    {last : Entry} (newest : entries.getLast? = some last) {stamp : Key} {near : Key → Prop}
    (after : ∀ entry ∈ entries, ∀ other ∈ entries, stamp ≤ key other → key other ≤ key entry →
      near (key entry) → near (key other))
    (before : ∀ entry ∈ entries, ∀ other ∈ entries, key other < stamp → key entry ≤ key other →
      near (key entry) → near (key other)) :
    (∃ entry ∈ entries, near (key entry)) ↔
      near (key (lowerBound key stamp entries last)) ∨
        ∃ entry, previous key stamp entries = some entry ∧ near (key entry) := by
  have inside : lowerBound key stamp entries last ∈ entries :=
    lowerBound_mem (List.mem_of_getLast? newest)
  constructor
  · rintro ⟨entry, member, close⟩
    by_cases early : key entry < stamp
    · obtain ⟨other, found, earlier, above⟩ := ordered.le_previous member early
      exact .inr ⟨other, found,
        before entry member other (mem_of_previous found) earlier above close⟩
    · obtain ⟨notEarly, below⟩ := ordered.lowerBound_le member early last
      exact .inl (after entry member _ inside notEarly below close)
  · rintro (close | ⟨entry, found, close⟩)
    · exact ⟨_, inside, close⟩
    · exact ⟨entry, mem_of_previous found, close⟩

/-! ## The window of the newest arrival -/

variable (key) (outside : Key → Key → Prop)

/-- The first arrival of its key, and not left behind by the newest arrival. -/
structure InWindow (arrived : List Entry) (entry : Entry) : Prop where
  first : arrived.find? (fun other => key other = key entry) = some entry
  recent : ∃ newest ∈ arrived, (∀ other ∈ arrived, key other ≤ key newest) ∧
    ¬ outside (key newest) (key entry)

/-- The entries are those in the window. -/
def Windowed (arrived entries : List Entry) : Prop :=
  ∀ entry, entry ∈ entries ↔ InWindow key outside arrived entry

/-- A window that moves forward with its newest key. -/
structure Forward (valid : Key → Prop) : Prop where
  fresh : ∀ stamp, ¬ outside stamp stamp
  grows : ∀ newest later stamp, valid newest → valid later → newest ≤ later →
    outside newest stamp → outside later stamp

variable {key outside}

theorem exists_greatest (key : Entry → Key) {arrived : List Entry} (nonempty : arrived ≠ []) :
    ∃ newest ∈ arrived, ∀ other ∈ arrived, key other ≤ key newest := by
  have some : arrived.argmax key ≠ none := fun none => nonempty (List.argmax_eq_none.mp none)
  obtain ⟨newest, greatest⟩ := Option.ne_none_iff_exists'.mp some
  exact ⟨newest, List.argmax_mem greatest, fun _ among => List.le_of_mem_argmax among greatest⟩

/-- The first arrival of a key that has arrived. -/
theorem exists_first (key : Entry → Key) {arrived : List Entry} {entry : Entry}
    (member : entry ∈ arrived) :
    ∃ first ∈ arrived, key first = key entry ∧
      arrived.find? (fun other => key other = key first) = some first := by
  cases found : arrived.find? fun other => key other = key entry with
  | none =>
      have none := List.find?_eq_none.mp found entry member
      exact absurd (decide_eq_true rfl) none
  | some first =>
      have matched := List.find?_some found
      have same : key first = key entry := of_decide_eq_true matched
      exact ⟨first, List.mem_of_find?_eq_some found, same, by rw [same]; exact found⟩

/-- An entry that is inserted has a key that was not there. -/
theorem key_ne_of_inserted {entry : Entry} {entries : List Entry}
    (ordered : OrderedBy key entries) (inserted : entry ∈ insertByKey key entry entries)
    (fresh : entry ∉ entries) : ∀ other ∈ entries, key other ≠ key entry := by
  intro other member same
  have both := ordered.insertByKey entry
  exact fresh (both.eq_of_key inserted (mem_insertByKey_of_mem member) same.symm ▸ member)

theorem InWindow.mem {arrived : List Entry} {entry : Entry}
    (inside : InWindow key outside arrived entry) : entry ∈ arrived :=
  List.mem_of_find?_eq_some inside.first

/-- Every entry after an insertion has arrived. -/
theorem Windowed.arrived {arrived entries : List Entry}
    (windowed : Windowed key outside arrived entries) {arrival entry : Entry}
    (member : entry ∈ insertByKey key arrival entries) : entry ∈ arrived ++ [arrival] := by
  rcases mem_of_mem_insertByKey member with rfl | before
  · exact List.mem_append_right _ List.mem_cons_self
  · exact List.mem_append_left _ ((windowed entry).mp before).mem

section Arrival

variable {valid : Key → Prop} (forward : Forward outside valid) {arrived entries : List Entry}
  (ordered : OrderedBy key entries) (windowed : Windowed key outside arrived entries)
  {arrival newest : Entry} (allValid : ∀ other ∈ arrived ++ [arrival], valid (key other))
  (last : (insertByKey key arrival entries).getLast? = some newest)

include forward ordered windowed last

/-- The newest entry is the newest arrival. -/
theorem Windowed.newest_greatest :
    ∀ other ∈ arrived ++ [arrival], key other ≤ key newest := by
  intro other member
  have inserted := ordered.insertByKey arrival
  rcases List.mem_append.mp member with before | here
  · obtain ⟨greatest, among, above⟩ := exists_greatest key (List.ne_nil_of_mem before)
    obtain ⟨first, place, same, found⟩ := exists_first key among
    have kept : first ∈ entries := (windowed first).mpr
      ⟨found, greatest, among, above, by rw [same]; exact forward.fresh _⟩
    calc key other ≤ key greatest := above other before
      _ = key first := same.symm
      _ ≤ key newest := inserted.le_getLast last first (mem_insertByKey_of_mem kept)
  · rw [List.mem_singleton.mp here]
    obtain ⟨entry, place, same⟩ := exists_key_insertByKey key arrival entries
    rw [← same]
    exact inserted.le_getLast last entry place

include allValid

/-- A first arrival that is in the window now has been in it before. -/
theorem Windowed.mem_of_first {entry : Entry}
    (first : arrived.find? (fun other => key other = key entry) = some entry)
    (recent : ¬ outside (key newest) (key entry)) : entry ∈ entries := by
  have greatest := windowed.newest_greatest forward ordered last
  have among := windowed.arrived (List.mem_of_getLast? last)
  obtain ⟨latest, latestIn, above⟩ :=
    exists_greatest key (List.ne_nil_of_mem (List.mem_of_find?_eq_some first))
  refine (windowed entry).mpr ⟨first, latest, latestIn, above, fun left => recent ?_⟩
  -- what the newest arrival of before leaves behind, this one leaves behind
  have known := List.mem_append_left [arrival] latestIn
  exact forward.grows _ _ _ (allValid latest known) (allValid newest among)
    (greatest latest known) left

/-- What an insertion leaves in the window. -/
theorem Windowed.mem_insert_iff (entry : Entry) :
    entry ∈ insertByKey key arrival entries ∧ ¬ outside (key newest) (key entry) ↔
      InWindow key outside (arrived ++ [arrival]) entry := by
  have greatest := windowed.newest_greatest forward ordered last
  have among := windowed.arrived (List.mem_of_getLast? last)
  have mem_of_first : ∀ {first : Entry},
      arrived.find? (fun other => key other = key first) = some first →
      ¬ outside (key newest) (key first) → first ∈ entries :=
    windowed.mem_of_first forward ordered allValid last
  constructor
  · rintro ⟨member, recent⟩
    refine ⟨?_, newest, among, greatest, recent⟩
    rw [List.find?_append]
    by_cases before : entry ∈ entries
    · rw [((windowed entry).mp before).first]
      rfl
    · have here : entry = arrival := (mem_of_mem_insertByKey member).resolve_right before
      subst here
      have none : arrived.find? (fun other => key other = key entry) = none := by
        refine List.find?_eq_none.mpr fun old arrivedOld same => ?_
        obtain ⟨first, _, same', found⟩ := exists_first key arrivedOld
        have same : key first = key entry := same'.trans (of_decide_eq_true same)
        have kept := mem_of_first found (by rw [same]; exact recent)
        exact key_ne_of_inserted ordered member before first kept same
      rw [none, Option.none_or]
      exact List.find?_cons_of_pos (decide_eq_true rfl)
  · intro inside
    obtain ⟨later, place, above, recent⟩ := inside.recent
    have same : key later = key newest :=
      le_antisymm (greatest later place) (above newest among)
    rw [same] at recent
    refine ⟨?_, recent⟩
    have first := inside.first
    rw [List.find?_append] at first
    cases found : arrived.find? fun other => key other = key entry with
    | some old =>
        rw [found, Option.some_or, Option.some.injEq] at first
        subst first
        exact mem_insertByKey_of_mem (mem_of_first found recent)
    | none =>
        rw [found, Option.none_or] at first
        obtain rfl : entry = arrival := List.mem_singleton.mp (List.mem_of_find?_eq_some first)
        obtain ⟨other, inserted, same⟩ := exists_key_insertByKey key entry entries
        rcases mem_of_mem_insertByKey inserted with rfl | before
        · exact inserted
        · have missing := List.find?_eq_none.mp found other ((windowed other).mp before).mem
          exact absurd (decide_eq_true same) missing

/-- An arrival keeps the window exactly if the test of the pruning agrees with the window on
the entries there, the new one included. -/
theorem Windowed.prune_iff (expired : Key → Key → Bool) :
    Windowed key outside (arrived ++ [arrival])
        (prune key expired (insertByKey key arrival entries)) ↔
      ∀ entry ∈ insertByKey key arrival entries,
        (expired (key newest) (key entry) = false ↔ ¬ outside (key newest) (key entry)) := by
  have inside := windowed.mem_insert_iff forward ordered allValid last
  constructor
  · intro kept entry member
    have same := (mem_prune_iff last).symm.trans (kept entry)
    exact ⟨fun stays => ((inside entry).mpr (same.mp ⟨member, stays⟩)).2,
      fun recent => (same.mpr ((inside entry).mp ⟨member, recent⟩)).2⟩
  · intro agrees entry
    rw [mem_prune_iff last, ← inside entry]
    exact ⟨fun stays => ⟨stays.1, (agrees entry stays.1).mp stays.2⟩,
      fun recent => ⟨recent.1, (agrees entry recent.1).mpr recent.2⟩⟩

end Arrival

end ProtoCore.Library
