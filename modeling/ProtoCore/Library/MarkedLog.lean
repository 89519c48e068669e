import ProtoCore.Library.CompactedLog

/-!
# Reading a log whose marks lag behind

A removal takes its position in the log before it marks the addition that it removes. A reader
leaves out the additions that are marked by then. It may be sent one that is already removed,
and is then sent the removal with a later range.
-/

set_option autoImplicit false

namespace ProtoCore.Library.CompactedLog

variable {Key Value : Type}

/-- Marked additions are removed ones, and every removal inside the range has made its mark. -/
structure Marks (log : List (Event Key Value)) (marked : Nat → Prop) (start stop : Nat) : Prop where
  removed : ∀ position, marked position → .remove position ∈ log
  inside : ∀ position target, start ≤ position → position < stop →
    log[position]? = some (.remove target) → marked target

theorem Marks.shorter {log : List (Event Key Value)} {marked : Nat → Prop} {start stop shorter : Nat}
    (marks : Marks log marked start stop) (le : shorter ≤ stop) : Marks log marked start shorter where
  removed := marks.removed
  inside position target after before := marks.inside position target after (by omega)

/-- Inside one range the marked additions are hidden. -/
structure TracksMarked (log : List (Event Key Value)) (marked : Nat → Prop) (own start bound : Nat)
    (view : View Key Value) : Prop extends Tracks log own bound view where
  hidden : ∀ {position : Nat} {key : Key} {value : Value}, start ≤ position → position ≠ own →
    LiveBefore log bound position key value → marked position → view key = none

theorem Tracks.openMarked {log : List (Event Key Value)} {own start : Nat} {view : View Key Value}
    (tracks : Tracks log own start view) (marked : Nat → Prop) :
    TracksMarked log marked own start start view where
  toTracks := tracks
  hidden inRange _ live := absurd live.1 (by omega)

section Steps

variable {log : List (Event Key Value)} {marked : Nat → Prop} {own start bound : Nat}
  {view next : View Key Value}

theorem LiveBefore.same_key {position : Nat} {key name : Key} {value old : Value}
    (live : LiveBefore log (bound + 1) position name old)
    (added : log[bound]? = some (.add key value)) (last : position = bound) :
    name = key ∧ old = value := by
  subst last
  have sameEvent := live.2.1.symm.trans added
  simp only [Option.some.injEq, Event.add.injEq] at sameEvent
  exact sameEvent

theorem TracksMarked.step_add (valid : WellFormed log) (marks : Marks log marked start (bound + 1))
    (tracks : TracksMarked log marked own start bound view) {key : Key} {value : Value}
    (added : log[bound]? = some (.add key value))
    (others : ∀ other, other ≠ key → next other = view other)
    (shown : ¬ marked bound → next key = some value)
    (leftOut : marked bound → next key = view key) (other : bound ≠ own) :
    TracksMarked log marked own start (bound + 1) next := by
  have unshown : view key = none :=
    tracks.absent fun _ _ _ live => valid.unused_before added live
  have fresh : ∀ {position old}, LiveBefore log (bound + 1) position key old →
      position = bound ∧ old = value := by
    intro position old live
    by_cases last : position = bound
    · exact ⟨last, (live.same_key added last).2⟩
    · exact absurd (live.pred last) (valid.unused_before added)
  have earlier : ∀ {position name old}, name ≠ key →
      LiveBefore log (bound + 1) position name old → LiveBefore log bound position name old :=
    fun different live => live.pred fun last => different (live.same_key added last).1
  refine ⟨⟨?_, ?_⟩, ?_⟩
  · intro position name old notOwn live
    by_cases sameKey : name = key
    · subst sameKey
      obtain ⟨rfl, rfl⟩ := fresh live
      by_cases mark : marked position
      · exact .inr ⟨(leftOut mark).trans unshown, marks.removed position mark⟩
      · exact .inl (shown mark)
    · rw [others name sameKey]
      exact tracks.present notOwn (earlier sameKey live)
  · intro name noLive
    by_cases sameKey : name = key
    · subst sameKey
      refine absurd ⟨Nat.lt_succ_self _, added, fun removal before located => ?_⟩
        (noLive bound value other)
      have := (valid.targets located).1
      omega
    · rw [others name sameKey]
      refine tracks.absent fun position old notOwn live => noLive position old notOwn ?_
      exact live.succ (by rw [added]; simp)
  · intro position name old inRange notOwn live mark
    by_cases sameKey : name = key
    · subst sameKey
      obtain ⟨rfl, rfl⟩ := fresh live
      exact (leftOut mark).trans unshown
    · rw [others name sameKey]
      exact tracks.hidden inRange notOwn (earlier sameKey live) mark

theorem TracksMarked.step_remove (valid : WellFormed log)
    (marks : Marks log marked start (bound + 1)) (inRange : start ≤ bound)
    (tracks : TracksMarked log marked own start bound view) {target : Nat} {key : Key}
    {value : Value} (removed : log[bound]? = some (.remove target))
    (added : log[target]? = some (.add key value))
    (others : ∀ other, other ≠ key → next other = view other)
    (erased : target < start → next key = none)
    (leftOut : start ≤ target → next key = view key) :
    TracksMarked log marked own start (bound + 1) next := by
  have targetLive := valid.live_target removed added
  have mark := marks.inside bound target inRange (Nat.lt_succ_self _) removed
  have cleared : next key = none := by
    by_cases sent : start ≤ target
    · rw [leftOut sent]
      by_cases own : target = own
      · -- the reader's own addition is never shown, and no other one shares its key
        refine tracks.absent fun position old notOwn live => notOwn ?_
        exact (live.unique valid targetLive).1.trans own
      · exact tracks.hidden sent own targetLive mark
    · exact erased (by omega)
  have earlier : ∀ {position name old}, LiveBefore log (bound + 1) position name old →
      LiveBefore log bound position name old ∧ name ≠ key := by
    intro position name old live
    have notLast : position ≠ bound := by
      intro last
      subst last
      cases live.2.1.symm.trans removed
    refine ⟨live.pred notLast, fun sameKey => ?_⟩
    subst sameKey
    have same := ((live.pred notLast).unique valid targetLive).1
    exact live.2.2 bound (Nat.lt_succ_self _) (same ▸ removed)
  refine ⟨⟨?_, ?_⟩, ?_⟩
  · intro position name old notOwn live
    obtain ⟨before, different⟩ := earlier live
    rw [others name different]
    exact tracks.present notOwn before
  · intro name noLive
    by_cases sameKey : name = key
    · exact sameKey ▸ cleared
    · rw [others name sameKey]
      refine tracks.absent fun position old notOwn live => noLive position old notOwn ?_
      refine live.succ fun located => sameKey ?_
      have sameTarget := located.symm.trans removed
      simp only [Option.some.injEq, Event.remove.injEq] at sameTarget
      have sameEvent := (sameTarget ▸ live.2.1).symm.trans added
      simp only [Option.some.injEq, Event.add.injEq] at sameEvent
      exact sameEvent.1
  · intro position name old sent notOwn live hidden
    obtain ⟨before, different⟩ := earlier live
    rw [others name different]
    exact tracks.hidden sent notOwn before hidden

end Steps

section Ranges

variable (log : List (Event Key Value)) (marked : Nat → Prop) [DecidablePred marked]

/-- What a range that begins at `start` sends for one position. -/
def markedAt (start position : Nat) : Option (Command Key Value) :=
  match log[position]? with
  | some (.add key value) => if marked position then none else some (.put key value)
  | some (.remove target) =>
      if start ≤ target then none
      else match log[target]? with
        | some (.add key _) => some (.erase key)
        | _ => none
  | none => none

def sent (start stop : Nat) : List (Command Key Value) :=
  (List.range' start (stop - start)).filterMap (markedAt log marked start)

theorem sent_self (start : Nat) : sent log marked start start = [] := by
  simp [sent]

theorem sent_succ {start stop : Nat} (ordered : start ≤ stop) :
    sent log marked start (stop + 1) =
      sent log marked start stop ++ (markedAt log marked start stop).toList := by
  have size : stop + 1 - start = (stop - start) + 1 := by omega
  rw [sent, size, List.range'_1_concat, List.filterMap_append, sent]
  have last : start + (stop - start) = stop := by omega
  cases found : markedAt log marked start stop <;> simp [last, found]

variable [DecidableEq Key] {log marked}

theorem TracksMarked.step (valid : WellFormed log) {own start bound : Nat} {view : View Key Value}
    (marks : Marks log marked start (bound + 1))
    (tracks : TracksMarked log marked own start bound view) (ordered : start ≤ bound)
    (inside : bound < log.length) (other : bound ≠ own) :
    TracksMarked log marked own start (bound + 1)
      (replay view (markedAt log marked start bound).toList) := by
  have located : log[bound]? = some log[bound] := List.getElem?_eq_getElem inside
  cases event : log[bound] with
  | add key value =>
      have added : log[bound]? = some (.add key value) := by rw [located, event]
      refine tracks.step_add valid marks added ?_ ?_ ?_ other
      · intro name different
        by_cases mark : marked bound <;>
          simp [markedAt, added, mark, replay, Command.apply, different]
      · intro mark
        simp [markedAt, added, mark, replay, Command.apply]
      · intro mark
        simp [markedAt, added, mark, replay]
  | remove target =>
      have removed : log[bound]? = some (.remove target) := by rw [located, event]
      obtain ⟨_, key, value, added⟩ := valid.targets removed
      refine tracks.step_remove valid marks ordered removed added ?_ ?_ ?_
      · intro name different
        by_cases inRange : start ≤ target <;>
          simp [markedAt, removed, added, inRange, replay, Command.apply, different]
      · intro before
        have outside : ¬ start ≤ target := by omega
        simp [markedAt, removed, added, outside, replay, Command.apply]
      · intro inRange
        simp [markedAt, removed, inRange, replay]

/-- A whole range takes the reader from its first position to its end, whichever of the later
removals have made their marks. -/
theorem Tracks.sent (valid : WellFormed log) {own start stop : Nat} {view : View Key Value}
    (marks : Marks log marked start stop) (tracks : Tracks log own start view)
    (ordered : start ≤ stop) (inside : stop ≤ log.length)
    (other : ∀ position, start ≤ position → position < stop → position ≠ own) :
    Tracks log own stop (replay view (CompactedLog.sent log marked start stop)) := by
  suffices TracksMarked log marked own start stop
      (replay view (CompactedLog.sent log marked start stop)) from this.toTracks
  induction stop, ordered using Nat.le_induction with
  | base =>
      rw [sent_self]
      exact tracks.openMarked marked
  | succ stop ordered ih =>
      rw [sent_succ log marked ordered, replay_append]
      have before := ih (marks.shorter (Nat.le_succ stop)) (by omega)
        fun position first before => other position first (by omega)
      exact before.step valid marks ordered (by omega) (other stop ordered (by omega))

end Ranges

end ProtoCore.Library.CompactedLog
