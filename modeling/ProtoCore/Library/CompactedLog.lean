import Mathlib.Data.List.Basic
import Mathlib.Data.List.Range
import Mathlib.Logic.Function.Basic

/-!
# Replaying a compacted log

An append-only log of additions and removals of keyed values. A reader consumes
the log range by range. Each range leaves out additions that are already removed
somewhere in the log, and the removals whose addition lies in the same range.
-/

set_option autoImplicit false

namespace ProtoCore.Library.CompactedLog

inductive Event (Key Value : Type) where
  | add (key : Key) (value : Value)
  | remove (position : Nat)
  deriving DecidableEq

inductive Command (Key Value : Type) where
  | put (key : Key) (value : Value)
  | erase (key : Key)
  deriving DecidableEq

abbrev View (Key Value : Type) := Key → Option Value

variable {Key Value : Type}

/-- Additions are of keys with no live addition, and removals are of live additions. -/
structure WellFormed (log : List (Event Key Value)) : Prop where
  targets : ∀ {position target : Nat}, log[position]? = some (.remove target) →
    target < position ∧ ∃ key value, log[target]? = some (.add key value)
  once : ∀ {first second target : Nat}, log[first]? = some (.remove target) →
    log[second]? = some (.remove target) → first = second
  exclusive : ∀ {first second : Nat} {key : Key} {old new : Value}, first < second →
    log[first]? = some (.add key old) → log[second]? = some (.add key new) →
    ∃ position, position < second ∧ log[position]? = some (.remove first)

/-- The addition at `position` is not removed before `bound`. -/
def LiveBefore (log : List (Event Key Value)) (bound position : Nat) (key : Key)
    (value : Value) : Prop :=
  position < bound ∧ log[position]? = some (.add key value) ∧
    ∀ removal, removal < bound → log[removal]? ≠ some (.remove position)

def Live (log : List (Event Key Value)) (position : Nat) (key : Key) (value : Value) : Prop :=
  LiveBefore log log.length position key value

theorem wellFormed_nil : WellFormed ([] : List (Event Key Value)) where
  targets found := by simp at found
  once found := by simp at found
  exclusive _ found := by simp at found

theorem getElem?_append_last {log : List (Event Key Value)} {event found : Event Key Value}
    {position : Nat} (located : (log ++ [event])[position]? = some found) :
    log[position]? = some found ∨ position = log.length ∧ event = found := by
  rw [List.getElem?_append] at located
  split at located
  · exact .inl located
  · rename_i outside
    obtain ⟨inside, same⟩ := List.getElem?_eq_some_iff.mp located
    simp only [List.length_singleton] at inside
    have last : position = log.length := by omega
    subst last
    exact .inr ⟨rfl, by simpa using located⟩

theorem getElem?_append_old {log : List (Event Key Value)} {found : Event Key Value}
    {position : Nat} (located : log[position]? = some found) (event : Event Key Value) :
    (log ++ [event])[position]? = some found := by
  have inside := (List.getElem?_eq_some_iff.mp located).1
  rw [List.getElem?_append_left inside]
  exact located

theorem lt_length_of_getElem? {log : List (Event Key Value)} {found : Event Key Value}
    {position : Nat} (located : log[position]? = some found) : position < log.length :=
  (List.getElem?_eq_some_iff.mp located).1

theorem WellFormed.append_add {log : List (Event Key Value)} (valid : WellFormed log)
    (key : Key) (value : Value) (unused : ∀ position old, ¬ Live log position key old) :
    WellFormed (log ++ [.add key value]) where
  targets {position target} located := by
    rcases getElem?_append_last located with old | ⟨_, mismatch⟩
    · obtain ⟨before, name, content, added⟩ := valid.targets old
      exact ⟨before, name, content, getElem?_append_old added _⟩
    · cases mismatch
  once first second := by
    rcases getElem?_append_last first with first | ⟨_, mismatch⟩
    · rcases getElem?_append_last second with second | ⟨_, mismatch⟩
      · exact valid.once first second
      · cases mismatch
    · cases mismatch
  exclusive {first second name old new} before left right := by
    rcases getElem?_append_last left with left | ⟨last, _⟩
    · rcases getElem?_append_last right with right | ⟨last, same⟩
      · obtain ⟨position, earlier, removed⟩ := valid.exclusive before left right
        exact ⟨position, earlier, getElem?_append_old removed _⟩
      · cases same
        by_contra absent
        push Not at absent
        refine unused first old ⟨lt_length_of_getElem? left, left, fun removal inside located => ?_⟩
        exact absent removal (by omega) (getElem?_append_old located _)
    · rcases getElem?_append_last right with right | ⟨last', _⟩
      · have := lt_length_of_getElem? right
        omega
      · omega

theorem WellFormed.append_remove {log : List (Event Key Value)} (valid : WellFormed log)
    {target : Nat} {key : Key} {value : Value} (live : Live log target key value) :
    WellFormed (log ++ [.remove target]) where
  targets {position removed} located := by
    rcases getElem?_append_last located with old | ⟨last, same⟩
    · obtain ⟨before, name, content, added⟩ := valid.targets old
      exact ⟨before, name, content, getElem?_append_old added _⟩
    · cases same
      exact ⟨last ▸ live.1, key, value, getElem?_append_old live.2.1 _⟩
  once {left right removed} first second := by
    rcases getElem?_append_last first with first | ⟨last, same⟩ <;>
      rcases getElem?_append_last second with second | ⟨last', same'⟩
    · exact valid.once first second
    · cases same'
      exact absurd first (live.2.2 left (lt_length_of_getElem? first))
    · cases same
      exact absurd second (live.2.2 right (lt_length_of_getElem? second))
    · omega
  exclusive before left right := by
    rcases getElem?_append_last right with right | ⟨_, mismatch⟩
    · have inside := lt_length_of_getElem? right
      rcases getElem?_append_last left with left | ⟨_, mismatch⟩
      · obtain ⟨position, earlier, removed⟩ := valid.exclusive before left right
        exact ⟨position, earlier, getElem?_append_old removed _⟩
      · cases mismatch
    · cases mismatch

theorem live_append_add {log : List (Event Key Value)} (valid : WellFormed log)
    (added : Key) (content : Value) {position : Nat} {key : Key} {value : Value} :
    Live (log ++ [.add added content]) position key value ↔
      Live log position key value ∨ position = log.length ∧ added = key ∧ content = value := by
  constructor
  · intro alive
    obtain ⟨_, located, kept⟩ := alive
    rcases getElem?_append_last located with old | ⟨last, same⟩
    · refine .inl ⟨lt_length_of_getElem? old, old, fun removal before removed => ?_⟩
      exact kept removal (by simp; omega) (getElem?_append_old removed _)
    · cases same
      exact .inr ⟨last, rfl, rfl⟩
  · intro alive
    rcases alive with ⟨inside, located, kept⟩ | ⟨rfl, rfl, rfl⟩
    · refine ⟨by simp; omega, getElem?_append_old located _, fun removal before removed => ?_⟩
      rcases getElem?_append_last removed with old | ⟨_, mismatch⟩
      · exact kept removal (lt_length_of_getElem? old) old
      · cases mismatch
    · refine ⟨by simp, by simp, fun removal before removed => ?_⟩
      rcases getElem?_append_last removed with old | ⟨_, mismatch⟩
      · have := (valid.targets old).1
        have := lt_length_of_getElem? old
        omega
      · cases mismatch

theorem live_append_remove {log : List (Event Key Value)} {target position : Nat} {key : Key}
    {value : Value} : Live (log ++ [.remove target]) position key value ↔
      Live log position key value ∧ position ≠ target := by
  constructor
  · intro alive
    obtain ⟨_, located, kept⟩ := alive
    rcases getElem?_append_last located with old | ⟨_, mismatch⟩
    · refine ⟨⟨lt_length_of_getElem? old, old, fun removal before removed => ?_⟩, ?_⟩
      · exact kept removal (by simp; omega) (getElem?_append_old removed _)
      · intro same
        exact kept log.length (by simp) (by simp [same])
    · cases mismatch
  · intro alive
    obtain ⟨⟨inside, located, kept⟩, different⟩ := alive
    refine ⟨by simp; omega, getElem?_append_old located _, fun removal before removed => ?_⟩
    rcases getElem?_append_last removed with old | ⟨_, same⟩
    · exact kept removal (lt_length_of_getElem? old) old
    · cases same
      exact different rfl

theorem live_or_removed {log : List (Event Key Value)} {position : Nat} {key : Key}
    {value : Value} (added : log[position]? = some (.add key value)) :
    Live log position key value ∨ ∃ removal : Nat, log[removal]? = some (Event.remove position) := by
  by_cases removed : ∃ removal : Nat, log[removal]? = some (Event.remove position)
  · exact .inr removed
  · push Not at removed
    exact .inl ⟨lt_length_of_getElem? added, added, fun removal _ => removed removal⟩

theorem LiveBefore.unique {log : List (Event Key Value)} (valid : WellFormed log)
    {bound left right : Nat} {key : Key} {old new : Value}
    (first : LiveBefore log bound left key old) (second : LiveBefore log bound right key new) :
    left = right ∧ old = new := by
  rcases Nat.lt_trichotomy left right with before | same | after
  · obtain ⟨position, earlier, removed⟩ := valid.exclusive before first.2.1 second.2.1
    exact absurd removed (first.2.2 position (earlier.trans second.1))
  · subst same
    have sameEvent := first.2.1.symm.trans second.2.1
    simp only [Option.some.injEq, Event.add.injEq] at sameEvent
    exact ⟨rfl, sameEvent.2⟩
  · obtain ⟨position, earlier, removed⟩ := valid.exclusive after second.2.1 first.2.1
    exact absurd removed (second.2.2 position (earlier.trans first.1))

/-- A reader that skips its own position `own` and has consumed everything
below `bound`: each key shows its live value, unless that value is already
removed further on in the log and was left out. -/
structure Tracks (log : List (Event Key Value)) (own bound : Nat) (view : View Key Value) :
    Prop where
  present : ∀ {position : Nat} {key : Key} {value : Value}, position ≠ own →
    LiveBefore log bound position key value →
    view key = some value ∨ view key = none ∧ .remove position ∈ log
  absent : ∀ {key : Key}, (∀ position value, position ≠ own →
    ¬ LiveBefore log bound position key value) → view key = none

theorem tracks_zero (log : List (Event Key Value)) (own : Nat) :
    Tracks log own 0 (fun _ => none) where
  present _ live := absurd live.1 (Nat.not_lt_zero _)
  absent _ := rfl

theorem LiveBefore.pred {log : List (Event Key Value)} {bound position : Nat} {key : Key}
    {value : Value} (live : LiveBefore log (bound + 1) position key value)
    (earlier : position ≠ bound) : LiveBefore log bound position key value :=
  ⟨by have := live.1; omega, live.2.1, fun removal before => live.2.2 removal (by omega)⟩

theorem LiveBefore.succ {log : List (Event Key Value)} {bound position : Nat} {key : Key}
    {value : Value} (live : LiveBefore log bound position key value)
    (kept : log[bound]? ≠ some (.remove position)) :
    LiveBefore log (bound + 1) position key value := by
  refine ⟨by have := live.1; omega, live.2.1, fun removal before => ?_⟩
  by_cases last : removal = bound
  · exact last ▸ kept
  · exact live.2.2 removal (by omega)

theorem WellFormed.unused_before {log : List (Event Key Value)} (valid : WellFormed log)
    {bound position : Nat} {key : Key} {old new : Value}
    (added : log[bound]? = some (.add key new)) : ¬ LiveBefore log bound position key old := by
  intro live
  obtain ⟨removal, before, removed⟩ := valid.exclusive live.1 live.2.1 added
  exact live.2.2 removal before removed

theorem WellFormed.live_target {log : List (Event Key Value)} (valid : WellFormed log)
    {bound target : Nat} {key : Key} {value : Value}
    (removed : log[bound]? = some (.remove target))
    (added : log[target]? = some (.add key value)) : LiveBefore log bound target key value := by
  refine ⟨(valid.targets removed).1, added, fun removal before located => ?_⟩
  have same := valid.once located removed
  omega

/-- Growth of the log can only turn shown values into removed ones. -/
theorem Tracks.append {log : List (Event Key Value)} {own bound : Nat} {view : View Key Value}
    (tracks : Tracks log own bound view) (inside : bound ≤ log.length)
    (event : Event Key Value) : Tracks (log ++ [event]) own bound view := by
  have same : ∀ position, position < bound → (log ++ [event])[position]? = log[position]? :=
    fun position before => List.getElem?_append_left (by omega)
  have liveIff : ∀ position key value,
      LiveBefore (log ++ [event]) bound position key value ↔
        LiveBefore log bound position key value := by
    intro position key value
    constructor
    · intro alive
      obtain ⟨before, added, kept⟩ := alive
      exact ⟨before, same position before ▸ added,
        fun removal earlier => same removal earlier ▸ kept removal earlier⟩
    · intro alive
      obtain ⟨before, added, kept⟩ := alive
      exact ⟨before, (same position before).symm ▸ added,
        fun removal earlier => (same removal earlier).symm ▸ kept removal earlier⟩
  constructor
  · intro position key value other live
    rcases tracks.present other ((liveIff _ _ _).mp live) with shown | ⟨hidden, removed⟩
    · exact .inl shown
    · exact .inr ⟨hidden, List.mem_append_left _ removed⟩
  · intro key noLive
    exact tracks.absent fun position value other live =>
      noLive position value other ((liveIff _ _ _).mpr live)

/-- Inside one range the left-out additions are exactly hidden. -/
structure TracksRange (log : List (Event Key Value)) (own start bound : Nat)
    (view : View Key Value) : Prop extends Tracks log own bound view where
  hidden : ∀ {position : Nat} {key : Key} {value : Value}, start ≤ position → position ≠ own →
    LiveBefore log bound position key value → .remove position ∈ log → view key = none

theorem TracksRange.step_add {log : List (Event Key Value)} (valid : WellFormed log)
    {own start bound : Nat} {view : View Key Value}
    (tracks : TracksRange log own start bound view) {key : Key} {value : Value}
    (added : log[bound]? = some (.add key value)) {next : View Key Value}
    (others : ∀ other, other ≠ key → next other = view other)
    (shown : .remove bound ∉ log → next key = some value)
    (leftOut : .remove bound ∈ log → next key = view key) (other : bound ≠ own) :
    TracksRange log own start (bound + 1) next := by
  have unshown : view key = none :=
    tracks.absent fun _ _ _ live => valid.unused_before added live
  have fresh : ∀ {position old}, LiveBefore log (bound + 1) position key old →
      position = bound ∧ old = value := by
    intro position old live
    by_cases last : position = bound
    · subst last
      have sameEvent := live.2.1.symm.trans added
      simp only [Option.some.injEq, Event.add.injEq] at sameEvent
      exact ⟨rfl, sameEvent.2⟩
    · exact absurd (live.pred last) (valid.unused_before added)
  have earlier : ∀ {position name old}, name ≠ key →
      LiveBefore log (bound + 1) position name old → LiveBefore log bound position name old := by
    intro position name old different live
    refine live.pred fun last => different ?_
    subst last
    have sameEvent := live.2.1.symm.trans added
    simp only [Option.some.injEq, Event.add.injEq] at sameEvent
    exact sameEvent.1
  have last : LiveBefore log (bound + 1) bound key value := by
    refine ⟨Nat.lt_succ_self _, added, fun removal before located => ?_⟩
    have := (valid.targets located).1
    omega
  refine ⟨⟨?_, ?_⟩, ?_⟩
  · intro position name old notOwn live
    by_cases sameKey : name = key
    · subst sameKey
      obtain ⟨rfl, rfl⟩ := fresh live
      by_cases removed : .remove position ∈ log
      · exact .inr ⟨(leftOut removed).trans unshown, removed⟩
      · exact .inl (shown removed)
    · rw [others name sameKey]
      exact tracks.present notOwn (earlier sameKey live)
  · intro name noLive
    by_cases sameKey : name = key
    · subst sameKey
      exact absurd last (noLive bound value other)
    · rw [others name sameKey]
      refine tracks.absent fun position old notOwn live => noLive position old notOwn ?_
      exact live.succ (by rw [added]; simp)
  · intro position name old inRange notOwn live removed
    by_cases sameKey : name = key
    · subst sameKey
      obtain ⟨rfl, rfl⟩ := fresh live
      exact (leftOut removed).trans unshown
    · rw [others name sameKey]
      exact tracks.hidden inRange notOwn (earlier sameKey live) removed

theorem TracksRange.step_remove {log : List (Event Key Value)} (valid : WellFormed log)
    {own start bound target : Nat} {view : View Key Value}
    (tracks : TracksRange log own start bound view) {key : Key} {value : Value}
    (removed : log[bound]? = some (.remove target))
    (added : log[target]? = some (.add key value)) {next : View Key Value}
    (others : ∀ other, other ≠ key → next other = view other)
    (erased : target < start → next key = none)
    (leftOut : start ≤ target → next key = view key) :
    TracksRange log own start (bound + 1) next := by
  have targetLive := valid.live_target removed added
  have member : .remove target ∈ log := List.mem_of_getElem? removed
  have cleared : next key = none := by
    by_cases inRange : start ≤ target
    · rw [leftOut inRange]
      by_cases own : target = own
      · -- the reader's own addition is never shown, and no other one shares its key
        refine tracks.absent fun position old notOwn live => notOwn ?_
        exact (live.unique valid targetLive).1.trans own
      · exact tracks.hidden inRange own targetLive member
    · exact erased (by omega)
  have earlier : ∀ {position name old}, LiveBefore log (bound + 1) position name old →
      LiveBefore log bound position name old ∧ name ≠ key := by
    intro position name old live
    have notLast : position ≠ bound := by
      intro last
      subst last
      have sameEvent := live.2.1.symm.trans removed
      cases sameEvent
    refine ⟨live.pred notLast, fun sameKey => ?_⟩
    subst sameKey
    have same := ((live.pred notLast).unique valid targetLive).1
    exact live.2.2 bound (Nat.lt_succ_self _) (same ▸ removed)
  refine ⟨⟨?_, ?_⟩, ?_⟩
  · intro position name old notOwn live
    obtain ⟨before, different⟩ := earlier live
    rw [others name different]
    exact tracks.present notOwn before
  · intro name noLive
    by_cases sameKey : name = key
    · exact sameKey ▸ cleared
    · rw [others name sameKey]
      refine tracks.absent fun position old notOwn live => noLive position old notOwn ?_
      refine live.succ fun located => sameKey ?_
      have sameTarget := located.symm.trans removed
      simp only [Option.some.injEq, Event.remove.injEq] at sameTarget
      have sameEvent := (sameTarget ▸ live.2.1).symm.trans added
      simp only [Option.some.injEq, Event.add.injEq] at sameEvent
      exact sameEvent.1
  · intro position name old inRange notOwn live hidden
    obtain ⟨before, different⟩ := earlier live
    rw [others name different]
    exact tracks.hidden inRange notOwn before hidden

theorem Tracks.openRange {log : List (Event Key Value)} {own start : Nat} {view : View Key Value}
    (tracks : Tracks log own start view) : TracksRange log own start start view where
  toTracks := tracks
  hidden inRange _ live := absurd live.1 (by omega)

theorem Tracks.skipOwn {log : List (Event Key Value)} {own : Nat} {view : View Key Value}
    (tracks : Tracks log own own view) {key : Key} {value : Value}
    (added : log[own]? = some (.add key value)) : Tracks log own (own + 1) view where
  present notOwn live := tracks.present notOwn (live.pred notOwn)
  absent noLive := tracks.absent fun position old notOwn live =>
    noLive position old notOwn (live.succ (by rw [added]; simp))

/-- Having consumed the whole log, the reader shows exactly the live additions
of the others. -/
theorem Tracks.complete {log : List (Event Key Value)} {own : Nat} {view : View Key Value}
    (tracks : Tracks log own log.length view) (key : Key) (value : Value) :
    view key = some value ↔ ∃ position, position ≠ own ∧ Live log position key value := by
  have visible : ∀ {position content}, position ≠ own → Live log position key content →
      view key = some content := by
    intro position content notOwn live
    rcases tracks.present notOwn live with shown | ⟨_, removed⟩
    · exact shown
    · obtain ⟨removal, located⟩ := List.mem_iff_getElem?.mp removed
      exact absurd located (live.2.2 removal (lt_length_of_getElem? located))
  constructor
  · intro shown
    by_contra noLive
    push Not at noLive
    have hidden : view key = none := tracks.absent fun position old notOwn live => by
      have same := (visible notOwn live).symm.trans shown
      cases same
      exact noLive position notOwn live
    rw [shown] at hidden
    cases hidden
  · intro alive
    obtain ⟨position, notOwn, live⟩ := alive
    exact visible notOwn live

section Ranges

variable [DecidableEq Key]

def Command.apply (view : View Key Value) : Command Key Value → View Key Value
  | .put key value => Function.update view key (some value)
  | .erase key => Function.update view key none

def replay (view : View Key Value) (commands : List (Command Key Value)) : View Key Value :=
  commands.foldl Command.apply view

theorem replay_append (view : View Key Value) (left right : List (Command Key Value)) :
    replay view (left ++ right) = replay (replay view left) right :=
  List.foldl_append

variable [DecidableEq Value]

/-- What a range that begins at `start` sends for one position. -/
def commandAt (log : List (Event Key Value)) (start position : Nat) :
    Option (Command Key Value) :=
  match log[position]? with
  | some (.add key value) => if .remove position ∈ log then none else some (.put key value)
  | some (.remove target) =>
      if start ≤ target then none
      else match log[target]? with
        | some (.add key _) => some (.erase key)
        | _ => none
  | none => none

def compacted (log : List (Event Key Value)) (start stop : Nat) : List (Command Key Value) :=
  (List.range' start (stop - start)).filterMap (commandAt log start)

theorem compacted_self (log : List (Event Key Value)) (start : Nat) :
    compacted log start start = [] := by
  simp [compacted]

theorem compacted_succ (log : List (Event Key Value)) {start stop : Nat} (ordered : start ≤ stop) :
    compacted log start (stop + 1) =
      compacted log start stop ++ (commandAt log start stop).toList := by
  have size : stop + 1 - start = (stop - start) + 1 := by omega
  rw [compacted, size, List.range'_1_concat, List.filterMap_append, compacted]
  have last : start + (stop - start) = stop := by omega
  cases found : commandAt log start stop <;> simp [last, found]

theorem TracksRange.step {log : List (Event Key Value)} (valid : WellFormed log)
    {own start bound : Nat} {view : View Key Value}
    (tracks : TracksRange log own start bound view) (inside : bound < log.length)
    (other : bound ≠ own) :
    TracksRange log own start (bound + 1)
      (replay view (commandAt log start bound).toList) := by
  have located : log[bound]? = some log[bound] := List.getElem?_eq_getElem inside
  cases event : log[bound] with
  | add key value =>
      have added : log[bound]? = some (.add key value) := by rw [located, event]
      refine tracks.step_add valid added ?_ ?_ ?_ other
      · intro name different
        by_cases removed : .remove bound ∈ log <;>
          simp [commandAt, added, removed, replay, Command.apply, different]
      · intro removed
        simp [commandAt, added, removed, replay, Command.apply]
      · intro removed
        simp [commandAt, added, removed, replay]
  | remove target =>
      have removed : log[bound]? = some (.remove target) := by rw [located, event]
      obtain ⟨_, key, value, added⟩ := valid.targets removed
      refine tracks.step_remove valid removed added ?_ ?_ ?_
      · intro name different
        by_cases inRange : start ≤ target <;>
          simp [commandAt, removed, added, inRange, replay, Command.apply, different]
      · intro before
        have outside : ¬ start ≤ target := by omega
        simp [commandAt, removed, added, outside, replay, Command.apply]
      · intro inRange
        simp [commandAt, removed, inRange, replay]

/-- A whole range takes the reader from its first position to its end, however
far the log has already grown beyond the range. -/
theorem Tracks.range {log : List (Event Key Value)} (valid : WellFormed log)
    {own start stop : Nat} {view : View Key Value} (tracks : Tracks log own start view)
    (ordered : start ≤ stop) (inside : stop ≤ log.length)
    (other : ∀ position, start ≤ position → position < stop → position ≠ own) :
    Tracks log own stop (replay view (compacted log start stop)) := by
  suffices TracksRange log own start stop (replay view (compacted log start stop)) from
    this.toTracks
  induction stop, ordered using Nat.le_induction with
  | base =>
      rw [compacted_self]
      exact tracks.openRange
  | succ stop ordered ih =>
      rw [compacted_succ log ordered, replay_append]
      exact (ih (by omega) fun position first before => other position first (by omega)).step valid
        (by omega) (other stop ordered (by omega))

end Ranges

end ProtoCore.Library.CompactedLog
