import Mathlib.Data.List.Induction
import Mathlib.Data.List.Sort
import Mathlib.Order.Defs.LinearOrder

/-!
# Ordered series with retention

Entries are kept in the order of their keys, the first arrival for each key. An arrival
drops what has expired relative to the newest entry, until one comes that ends this.
-/

set_option autoImplicit false

namespace ProtoCore.Library

variable {Entry Key : Type} [LinearOrder Key] (key : Entry → Key) (expired : Key → Key → Bool)

def insertByKey (entry : Entry) : List Entry → List Entry
  | [] => [entry]
  | first :: rest =>
      if key entry < key first then entry :: first :: rest
      else if key first < key entry then first :: insertByKey entry rest
      else first :: rest

def prune (entries : List Entry) : List Entry :=
  match entries.getLast? with
  | none => entries
  | some newest => entries.filter fun entry => !expired (key newest) (key entry)

structure Series (Entry : Type) where
  retaining : Bool
  entries : List Entry

namespace Series

def empty : Series Entry := ⟨false, []⟩

/-- An arrival with its mark, which ends the pruning for good. -/
def receive (series : Series Entry) (arrival : Entry × Bool) : Series Entry where
  retaining := series.retaining || arrival.2
  entries :=
    if series.retaining || arrival.2 then insertByKey key arrival.1 series.entries
    else prune key expired (insertByKey key arrival.1 series.entries)

def collect (arrivals : List (Entry × Bool)) : Series Entry :=
  arrivals.foldl (receive key expired) empty

end Series

abbrev OrderedBy (entries : List Entry) : Prop :=
  entries.Pairwise fun left right => key left < key right

variable {key expired}

/-! ## Insertion and pruning -/

theorem mem_of_mem_insertByKey {entry other : Entry} {entries : List Entry}
    (member : other ∈ insertByKey key entry entries) : other = entry ∨ other ∈ entries := by
  induction entries with
  | nil => exact .inl (List.mem_singleton.mp member)
  | cons first rest ih =>
      rw [insertByKey] at member
      split at member
      · exact List.mem_cons.mp member
      · split at member
        · rcases List.mem_cons.mp member with here | later
          · exact .inr (here ▸ List.mem_cons_self)
          · rcases ih later with same | before
            · exact .inl same
            · exact .inr (List.mem_cons_of_mem _ before)
        · exact .inr member

theorem mem_insertByKey_of_mem {entry other : Entry} {entries : List Entry}
    (member : other ∈ entries) : other ∈ insertByKey key entry entries := by
  induction entries with
  | nil => cases member
  | cons first rest ih =>
      rw [insertByKey]
      split
      · exact List.mem_cons_of_mem _ member
      · split
        · rcases List.mem_cons.mp member with here | later
          · exact here ▸ List.mem_cons_self
          · exact List.mem_cons_of_mem _ (ih later)
        · exact member

/-- The key of an insertion is there afterwards, with the new entry or an older one. -/
theorem exists_key_insertByKey (key : Entry → Key) (entry : Entry) (entries : List Entry) :
    ∃ other ∈ insertByKey key entry entries, key other = key entry := by
  induction entries with
  | nil => exact ⟨entry, List.mem_cons_self, rfl⟩
  | cons first rest ih =>
      rw [insertByKey]
      split
      · exact ⟨entry, List.mem_cons_self, rfl⟩
      · rename_i notBefore
        split
        · obtain ⟨other, member, same⟩ := ih
          exact ⟨other, List.mem_cons_of_mem _ member, same⟩
        · rename_i notAfter
          exact ⟨first, List.mem_cons_self,
            le_antisymm (not_lt.mp notBefore) (not_lt.mp notAfter)⟩

theorem OrderedBy.insertByKey {entries : List Entry} (ordered : OrderedBy key entries)
    (entry : Entry) : OrderedBy key (insertByKey key entry entries) := by
  induction entries with
  | nil => exact List.pairwise_singleton _ _
  | cons first rest ih =>
      obtain ⟨least, tail⟩ := List.pairwise_cons.mp ordered
      rw [Library.insertByKey]
      split
      · rename_i before
        apply List.pairwise_cons.mpr
        refine ⟨fun other member => ?_, ordered⟩
        rcases List.mem_cons.mp member with here | later
        · exact here ▸ before
        · exact before.trans (least other later)
      · split
        · rename_i after
          apply List.pairwise_cons.mpr
          refine ⟨fun other member => ?_, ih tail⟩
          rcases mem_of_mem_insertByKey member with same | later
          · exact same ▸ after
          · exact least other later
        · exact ordered

theorem OrderedBy.prune {entries : List Entry} (ordered : OrderedBy key entries) :
    OrderedBy key (prune key expired entries) := by
  unfold Library.prune
  split
  · exact ordered
  · exact ordered.filter _

omit [LinearOrder Key] in
theorem mem_of_mem_prune {entry : Entry} {entries : List Entry}
    (member : entry ∈ prune key expired entries) : entry ∈ entries := by
  unfold prune at member
  split at member
  · exact member
  · exact (List.mem_filter.mp member).1

/-- The last entry has the greatest key. -/
theorem OrderedBy.le_getLast {entries : List Entry} (ordered : OrderedBy key entries)
    {newest : Entry} (last : entries.getLast? = some newest) :
    ∀ entry ∈ entries, key entry ≤ key newest := by
  obtain ⟨front, rfl⟩ := List.getLast?_eq_some_iff.mp last
  intro entry member
  rcases List.mem_append.mp member with before | here
  · exact ((List.pairwise_append.mp ordered).2.2 entry before newest List.mem_cons_self).le
  · rw [List.mem_singleton.mp here]

omit [LinearOrder Key] in
theorem mem_prune_iff {entries : List Entry} {newest entry : Entry}
    (last : entries.getLast? = some newest) : entry ∈ prune key expired entries ↔
      entry ∈ entries ∧ expired (key newest) (key entry) = false := by
  unfold prune
  rw [last]
  dsimp only
  rw [List.mem_filter, Bool.not_eq_true']

omit [LinearOrder Key] in
/-- With the newest entry never expired, pruning keeps it in its place. -/
theorem getLast?_prune (fresh : ∀ stamp, expired stamp stamp = false) (entries : List Entry) :
    (prune key expired entries).getLast? = entries.getLast? := by
  unfold prune
  cases last : entries.getLast? with
  | none => exact last
  | some newest =>
      obtain ⟨front, rfl⟩ := List.getLast?_eq_some_iff.mp last
      dsimp only
      rw [List.filter_append, List.filter_cons_of_pos (by rw [fresh]; rfl), List.filter_nil]
      exact List.getLast?_concat

/-! ## One arrival -/

namespace Series

theorem ordered_receive {series : Series Entry} (ordered : OrderedBy key series.entries)
    (arrival : Entry × Bool) : OrderedBy key (series.receive key expired arrival).entries := by
  unfold receive
  dsimp only
  split
  · exact ordered.insertByKey _
  · exact (ordered.insertByKey _).prune

theorem mem_of_mem_receive {series : Series Entry} {arrival : Entry × Bool} {entry : Entry}
    (member : entry ∈ (series.receive key expired arrival).entries) :
    entry = arrival.1 ∨ entry ∈ series.entries := by
  unfold receive at member
  dsimp only at member
  split at member
  · exact mem_of_mem_insertByKey member
  · exact mem_of_mem_insertByKey (mem_of_mem_prune member)

theorem getLast?_receive (fresh : ∀ stamp, expired stamp stamp = false) (series : Series Entry)
    (arrival : Entry × Bool) : (series.receive key expired arrival).entries.getLast? =
      (insertByKey key arrival.1 series.entries).getLast? := by
  unfold receive
  dsimp only
  split
  · rfl
  · exact getLast?_prune fresh _

theorem mem_receive_of_mem {series : Series Entry} {arrival : Entry × Bool} {entry : Entry}
    (member : entry ∈ insertByKey key arrival.1 series.entries)
    (lasts : ∀ newest, (insertByKey key arrival.1 series.entries).getLast? = some newest →
      expired (key newest) (key entry) = false) :
    entry ∈ (series.receive key expired arrival).entries := by
  unfold receive
  dsimp only
  split
  · exact member
  · cases last : (insertByKey key arrival.1 series.entries).getLast? with
    | none => cases List.getLast?_eq_none_iff.mp last ▸ member
    | some newest => exact (mem_prune_iff last).mpr ⟨member, lasts newest last⟩

/-! ## All the arrivals -/

theorem ordered_foldl {series : Series Entry} (ordered : OrderedBy key series.entries)
    (arrivals : List (Entry × Bool)) :
    OrderedBy key (arrivals.foldl (receive key expired) series).entries := by
  induction arrivals generalizing series with
  | nil => exact ordered
  | cons arrival arrivals ih => exact ih (ordered_receive ordered arrival)

theorem mem_of_mem_foldl {series : Series Entry} {arrivals : List (Entry × Bool)} {entry : Entry}
    (member : entry ∈ (arrivals.foldl (receive key expired) series).entries) :
    entry ∈ series.entries ∨ ∃ arrival ∈ arrivals, arrival.1 = entry := by
  induction arrivals generalizing series with
  | nil => exact .inl member
  | cons arrival arrivals ih =>
      rcases ih member with before | ⟨later, among, same⟩
      · rcases mem_of_mem_receive before with here | old
        · exact .inr ⟨arrival, List.mem_cons_self, here.symm⟩
        · exact .inl old
      · exact .inr ⟨later, List.mem_cons_of_mem _ among, same⟩

theorem retaining_foldl (series : Series Entry) (arrivals : List (Entry × Bool)) :
    (arrivals.foldl (receive key expired) series).retaining =
      (series.retaining || arrivals.any fun arrival => arrival.2) := by
  induction arrivals generalizing series with
  | nil => exact (Bool.or_false _).symm
  | cons arrival arrivals ih =>
      rw [List.foldl_cons, ih, List.any_cons, ← Bool.or_assoc]
      rfl

/-- The newest entry of all is the last one, and stays. -/
theorem exists_newest_receive (fresh : ∀ stamp, expired stamp stamp = false)
    {series : Series Entry} (ordered : OrderedBy key series.entries) (arrival : Entry × Bool)
    {entry : Entry} (member : entry ∈ series.entries ∨ arrival.1 = entry) :
    ∃ newest ∈ (series.receive key expired arrival).entries,
      (series.receive key expired arrival).entries.getLast? = some newest ∧
        key entry ≤ key newest := by
  have inserted := ordered.insertByKey arrival.1
  have place : ∃ other ∈ insertByKey key arrival.1 series.entries, key entry = key other := by
    rcases member with before | here
    · exact ⟨entry, mem_insertByKey_of_mem before, rfl⟩
    · obtain ⟨other, among, same⟩ := exists_key_insertByKey key arrival.1 series.entries
      exact ⟨other, among, here ▸ same.symm⟩
  obtain ⟨other, among, same⟩ := place
  cases last : (insertByKey key arrival.1 series.entries).getLast? with
  | none => cases List.getLast?_eq_none_iff.mp last ▸ among
  | some newest =>
      have kept := (getLast?_receive fresh series arrival).trans last
      refine ⟨newest, List.mem_of_getLast? kept, kept, ?_⟩
      rw [same]
      exact inserted.le_getLast last other among

theorem exists_newest_foldl (fresh : ∀ stamp, expired stamp stamp = false)
    {series : Series Entry} (ordered : OrderedBy key series.entries)
    {arrivals : List (Entry × Bool)} {entry : Entry}
    (member : entry ∈ series.entries ∨ ∃ arrival ∈ arrivals, arrival.1 = entry) :
    ∃ newest, (arrivals.foldl (receive key expired) series).entries.getLast? = some newest ∧
      key entry ≤ key newest := by
  induction arrivals generalizing series entry with
  | nil =>
      rcases member with here | ⟨_, none, _⟩
      · cases last : series.entries.getLast? with
        | none => cases List.getLast?_eq_none_iff.mp last ▸ here
        | some newest => exact ⟨newest, last, ordered.le_getLast last entry here⟩
      · cases none
  | cons arrival arrivals ih =>
      have next : OrderedBy key (series.receive key expired arrival).entries :=
        ordered_receive ordered arrival
      have later : (∃ first ∈ (series.receive key expired arrival).entries,
          key entry ≤ key first) ∨ ∃ other ∈ arrivals, other.1 = entry := by
        rcases member with before | ⟨other, among, same⟩
        · obtain ⟨newest, kept, _, least⟩ :=
            exists_newest_receive fresh ordered arrival (.inl before)
          exact .inl ⟨newest, kept, least⟩
        · rcases List.mem_cons.mp among with here | after
          · obtain ⟨newest, kept, _, least⟩ :=
              exists_newest_receive fresh ordered arrival (.inr (here ▸ same))
            exact .inl ⟨newest, kept, least⟩
          · exact .inr ⟨other, after, same⟩
      rcases later with ⟨first, kept, least⟩ | after
      · obtain ⟨newest, last, above⟩ := ih next (.inl kept)
        exact ⟨newest, last, least.trans above⟩
      · exact ih next (.inr after)

/-- An entry stays that none of the entries newer than those around it makes expire. -/
theorem mem_foldl_of_mem (fresh : ∀ stamp, expired stamp stamp = false)
    {series : Series Entry} (ordered : OrderedBy key series.entries)
    {arrivals : List (Entry × Bool)} {entry : Entry} (member : entry ∈ series.entries)
    (lasts : ∀ newest, newest ∈ series.entries ∨ (∃ arrival ∈ arrivals, arrival.1 = newest) →
      (∀ other ∈ series.entries, key other ≤ key newest) →
      expired (key newest) (key entry) = false) :
    entry ∈ (arrivals.foldl (receive key expired) series).entries := by
  induction arrivals generalizing series with
  | nil => exact member
  | cons arrival arrivals ih =>
      have next : OrderedBy key (series.receive key expired arrival).entries :=
        ordered_receive ordered arrival
      have inserted := ordered.insertByKey arrival.1
      have known : ∀ newest, newest ∈ (series.receive key expired arrival).entries ∨
          (∃ other ∈ arrivals, other.1 = newest) →
          newest ∈ series.entries ∨ ∃ other ∈ arrival :: arrivals, other.1 = newest := by
        intro newest among
        rcases among with here | ⟨other, after, same⟩
        · rcases mem_of_mem_receive here with same | before
          · exact .inr ⟨arrival, List.mem_cons_self, same.symm⟩
          · exact .inl before
        · exact .inr ⟨other, List.mem_cons_of_mem _ after, same⟩
      apply ih next
      · apply mem_receive_of_mem (mem_insertByKey_of_mem member)
        intro newest last
        apply lasts newest
        · rcases mem_of_mem_insertByKey (List.mem_of_getLast? last) with same | before
          · exact .inr ⟨arrival, List.mem_cons_self, same.symm⟩
          · exact .inl before
        · exact fun other before => inserted.le_getLast last other (mem_insertByKey_of_mem before)
      · intro newest among above
        apply lasts newest (known newest among)
        intro other before
        obtain ⟨first, kept, _, least⟩ := exists_newest_receive fresh ordered arrival (.inl before)
        exact least.trans (above first kept)

/-- After an arrival without retention, nothing expired is left. -/
theorem fresh_receive (fresh : ∀ stamp, expired stamp stamp = false) {series : Series Entry}
    {arrival : Entry × Bool} (pruning : (series.receive key expired arrival).retaining = false)
    {newest entry : Entry}
    (last : (series.receive key expired arrival).entries.getLast? = some newest)
    (member : entry ∈ (series.receive key expired arrival).entries) :
    expired (key newest) (key entry) = false := by
  rw [getLast?_receive fresh] at last
  have unmarked : (series.retaining || arrival.2) = false := pruning
  unfold receive at member
  dsimp only at member
  rw [if_neg (by rw [unmarked]; exact Bool.false_ne_true)] at member
  exact ((mem_prune_iff last).mp member).2

theorem ordered_collect (arrivals : List (Entry × Bool)) :
    OrderedBy key (collect key expired arrivals).entries :=
  ordered_foldl List.Pairwise.nil arrivals

theorem mem_collect {arrivals : List (Entry × Bool)} {entry : Entry}
    (member : entry ∈ (collect key expired arrivals).entries) :
    ∃ arrival ∈ arrivals, arrival.1 = entry :=
  (mem_of_mem_foldl member).resolve_left List.not_mem_nil

theorem exists_newest_collect (key : Entry → Key) (fresh : ∀ stamp, expired stamp stamp = false)
    {arrivals : List (Entry × Bool)} {arrival : Entry × Bool} (member : arrival ∈ arrivals) :
    ∃ newest, (collect key expired arrivals).entries.getLast? = some newest ∧
      key arrival.1 ≤ key newest :=
  exists_newest_foldl fresh List.Pairwise.nil (.inr ⟨arrival, member, rfl⟩)

theorem fresh_collect (fresh : ∀ stamp, expired stamp stamp = false)
    {arrivals : List (Entry × Bool)}
    (pruning : (collect key expired arrivals).retaining = false) {newest entry : Entry}
    (last : (collect key expired arrivals).entries.getLast? = some newest)
    (member : entry ∈ (collect key expired arrivals).entries) :
    expired (key newest) (key entry) = false := by
  obtain ⟨arrival, among, _⟩ := mem_collect member
  have split := List.dropLast_append_getLast (List.ne_nil_of_mem among)
  rw [← split, collect, List.foldl_append] at pruning last member
  exact fresh_receive fresh pruning last member

end Series

/-! ## The order of arrival -/

variable (key expired)

def marked (arrivals : List (Entry × Bool)) : Bool := arrivals.any fun arrival => arrival.2

def Newest (arrivals : List (Entry × Bool)) (entry : Entry) : Prop :=
  ∀ other ∈ arrivals, key other.1 ≤ key entry

def Outdated (arrivals : List (Entry × Bool)) (entry : Entry) : Prop :=
  ∃ newest ∈ arrivals, Newest key arrivals newest.1 ∧ expired (key newest.1) (key entry) = true

/-- Whether the value of an entry can matter in the end: with retention that of the last
entry is asked for, and without it that of every entry which has not expired. -/
def Decisive (arrivals : List (Entry × Bool)) (entry : Entry) : Prop :=
  if marked arrivals then Newest key arrivals entry else ¬ Outdated key expired arrivals entry

/-- Entries with equal keys have equal values where they matter, and what any entry drops
the newest one drops. -/
structure Agreeing {Value : Type} (value : Entry → Value) (arrivals : List (Entry × Bool)) :
    Prop where
  equal : ∀ first ∈ arrivals, ∀ second ∈ arrivals, key first.1 = key second.1 →
    Decisive key expired arrivals first.1 → value first.1 = value second.1
  outdated : marked arrivals = false → ∀ old ∈ arrivals, ∀ newer ∈ arrivals,
    key old.1 ≤ key newer.1 → expired (key newer.1) (key old.1) = true →
    Outdated key expired arrivals old.1

instance (arrivals : List (Entry × Bool)) (entry : Entry) :
    Decidable (Newest key arrivals entry) :=
  inferInstanceAs (Decidable (∀ other ∈ arrivals, _))

instance (arrivals : List (Entry × Bool)) (entry : Entry) :
    Decidable (Outdated key expired arrivals entry) :=
  inferInstanceAs (Decidable (∃ newest ∈ arrivals, _))

instance (arrivals : List (Entry × Bool)) (entry : Entry) :
    Decidable (Decisive key expired arrivals entry) :=
  inferInstanceAs (Decidable (if marked arrivals then Newest key arrivals entry
    else ¬ Outdated key expired arrivals entry))

instance {Value : Type} [DecidableEq Value] (value : Entry → Value)
    (arrivals : List (Entry × Bool)) : Decidable (Agreeing key expired value arrivals) :=
  decidable_of_iff
    ((∀ first ∈ arrivals, ∀ second ∈ arrivals, key first.1 = key second.1 →
      Decisive key expired arrivals first.1 → value first.1 = value second.1) ∧
      (marked arrivals = false → ∀ old ∈ arrivals, ∀ newer ∈ arrivals,
        key old.1 ≤ key newer.1 → expired (key newer.1) (key old.1) = true →
        Outdated key expired arrivals old.1))
    ⟨fun parts => ⟨parts.1, parts.2⟩, fun agreeing => ⟨agreeing.equal, agreeing.outdated⟩⟩

variable {key expired}

theorem marked_perm {arrivals order : List (Entry × Bool)} (same : order.Perm arrivals) :
    marked order = marked arrivals :=
  same.any_eq

theorem Newest.perm {arrivals order : List (Entry × Bool)} (same : order.Perm arrivals)
    {entry : Entry} : Newest key order entry ↔ Newest key arrivals entry := by
  unfold Newest
  simp only [same.mem_iff]

theorem Outdated.perm {arrivals order : List (Entry × Bool)} (same : order.Perm arrivals)
    {entry : Entry} : Outdated key expired order entry ↔ Outdated key expired arrivals entry := by
  unfold Outdated
  simp only [same.mem_iff, Newest.perm same]

theorem Agreeing.perm {Value : Type} {value : Entry → Value} {arrivals order : List (Entry × Bool)}
    (agreeing : Agreeing key expired value arrivals) (same : order.Perm arrivals) :
    Agreeing key expired value order where
  equal first member second other equal decisive := by
    unfold Decisive at decisive
    rw [marked_perm same, Newest.perm same, Outdated.perm same] at decisive
    exact agreeing.equal first (same.mem_iff.mp member) second (same.mem_iff.mp other) equal
      decisive
  outdated pruning old member newer other later expires := by
    rw [Outdated.perm same]
    exact agreeing.outdated (marked_perm same ▸ pruning) old (same.mem_iff.mp member) newer
      (same.mem_iff.mp other) later expires

/-- What is agreed on does not depend on how often an arrival is repeated. -/
theorem Agreeing.of_mem_iff {Value : Type} {value : Entry → Value}
    {arrivals order : List (Entry × Bool)} (agreeing : Agreeing key expired value arrivals)
    (same : ∀ arrival, arrival ∈ order ↔ arrival ∈ arrivals) :
    Agreeing key expired value order := by
  have marks : marked order = marked arrivals := by
    rw [Bool.eq_iff_iff, marked, marked, List.any_eq_true, List.any_eq_true]
    simp only [same]
  have outdated : ∀ entry, Outdated key expired order entry ↔
      Outdated key expired arrivals entry := by
    intro entry
    unfold Outdated Newest
    simp only [same]
  constructor
  · intro first member second other equal decisive
    unfold Decisive Newest at decisive
    simp only [marks, outdated, same] at decisive
    exact agreeing.equal first ((same _).mp member) second ((same _).mp other) equal decisive
  · intro pruning old member newer other later expires
    exact (outdated _).mpr (agreeing.outdated (marks ▸ pruning) old ((same _).mp member) newer
      ((same _).mp other) later expires)

theorem OrderedBy.eq_of_key {entries : List Entry} (ordered : OrderedBy key entries)
    {first second : Entry} (one : first ∈ entries) (other : second ∈ entries)
    (same : key first = key second) : first = second := by
  induction entries with
  | nil => cases one
  | cons entry entries ih =>
      obtain ⟨least, tail⟩ := List.pairwise_cons.mp ordered
      rcases List.mem_cons.mp one with here | later
      · rcases List.mem_cons.mp other with there | later
        · rw [here, there]
        · exact absurd (here ▸ same) (least second later).ne
      · rcases List.mem_cons.mp other with there | last
        · exact absurd (there ▸ same.symm) (least first later).ne
        · exact ih tail later last

namespace Series

theorem retaining_collect (arrivals : List (Entry × Bool)) :
    (collect key expired arrivals).retaining = marked arrivals := by
  rw [collect, retaining_foldl]
  exact Bool.false_or _

theorem newest_getLast (fresh : ∀ stamp, expired stamp stamp = false)
    {arrivals : List (Entry × Bool)} {last : Entry}
    (found : (collect key expired arrivals).entries.getLast? = some last) :
    (∃ arrival ∈ arrivals, arrival.1 = last) ∧ Newest key arrivals last := by
  refine ⟨mem_collect (List.mem_of_getLast? found), fun other member => ?_⟩
  obtain ⟨newest, same, least⟩ := exists_newest_collect key fresh member
  cases found.symm.trans same
  exact least

theorem not_outdated (fresh : ∀ stamp, expired stamp stamp = false)
    {arrivals : List (Entry × Bool)} (pruning : marked arrivals = false) {entry : Entry}
    (member : entry ∈ (collect key expired arrivals).entries) :
    ¬ Outdated key expired arrivals entry := by
  intro outdated
  obtain ⟨newest, among, above, expires⟩ := outdated
  obtain ⟨last, found, least⟩ := exists_newest_collect key fresh among
  obtain ⟨⟨arrival, arrived, same⟩, _⟩ := newest_getLast fresh found
  have equal : key last = key newest.1 := le_antisymm (same ▸ above arrival arrived) least
  have kept := fresh_collect fresh ((retaining_collect arrivals).trans pruning) found member
  rw [equal, expires] at kept
  cases kept

/-- What no later arrival drops is kept, by its key. -/
theorem exists_key_collect (fresh : ∀ stamp, expired stamp stamp = false)
    {arrivals : List (Entry × Bool)} {arrival : Entry × Bool} (member : arrival ∈ arrivals)
    (lasts : ∀ newer ∈ arrivals, key arrival.1 ≤ key newer.1 →
      expired (key newer.1) (key arrival.1) = false) :
    ∃ entry ∈ (collect key expired arrivals).entries, key entry = key arrival.1 := by
  obtain ⟨front, back, rfl⟩ := List.append_of_mem member
  let series := collect key expired front
  have ordered : OrderedBy key series.entries := ordered_collect front
  obtain ⟨entry, inserted, same⟩ := exists_key_insertByKey key arrival.1 series.entries
  have known : ∀ newest ∈ insertByKey key arrival.1 series.entries,
      ∃ other ∈ front ++ arrival :: back, other.1 = newest := by
    intro newest among
    rcases mem_of_mem_insertByKey among with here | before
    · exact ⟨arrival, member, here.symm⟩
    · obtain ⟨other, early, same⟩ := mem_collect before
      exact ⟨other, List.mem_append_left _ early, same⟩
  have arrived : entry ∈ (series.receive key expired arrival).entries := by
    apply mem_receive_of_mem inserted
    intro newest last
    obtain ⟨other, among, rfl⟩ := known newest (List.mem_of_getLast? last)
    rw [same]
    apply lasts other among
    rw [← same]
    exact (ordered.insertByKey _).le_getLast last entry inserted
  refine ⟨entry, ?_, same⟩
  rw [collect, List.foldl_append, List.foldl_cons]
  apply mem_foldl_of_mem fresh (ordered_receive ordered arrival) arrived
  intro newest among above
  have origin : ∃ other ∈ front ++ arrival :: back, other.1 = newest := by
    rcases among with before | ⟨other, later, same⟩
    · rcases mem_of_mem_receive before with here | early
      · exact ⟨arrival, member, here.symm⟩
      · obtain ⟨other, first, same⟩ := mem_collect early
        exact ⟨other, List.mem_append_left _ first, same⟩
    · exact ⟨other, List.mem_append_right _ (List.mem_cons_of_mem _ later), same⟩
  obtain ⟨other, within, rfl⟩ := origin
  rw [same]
  exact lasts other within (same ▸ above entry arrived)

/-- Nothing expires of a series whose arrivals are all marked. -/
theorem exists_key_collect_of_marks {arrivals : List (Entry × Bool)}
    (marks : ∀ arrival ∈ arrivals, arrival.2 = true) {arrival : Entry × Bool}
    (member : arrival ∈ arrivals) :
    ∃ entry ∈ (collect key expired arrivals).entries, key entry = key arrival.1 := by
  induction arrivals using List.reverseRecOn with
  | nil => cases member
  | append_singleton earlier last ih =>
      have mark : last.2 = true := marks last (List.mem_append_right _ List.mem_cons_self)
      have entries : (collect key expired (earlier ++ [last])).entries =
          insertByKey key last.1 (collect key expired earlier).entries := by
        rw [collect, List.foldl_append, List.foldl_cons, List.foldl_nil, ← collect, receive, mark,
          Bool.or_true]
        rfl
      rw [entries]
      rcases List.mem_append.mp member with before | here
      · obtain ⟨entry, kept, same⟩ :=
          ih (fun other among => marks other (List.mem_append_left _ among)) before
        exact ⟨entry, mem_insertByKey_of_mem kept, same⟩
      · rw [List.mem_singleton.mp here]
        exact exists_key_insertByKey key last.1 _

/-! ### Orders that agree -/

theorem map_eq_of_keys {Value : Type} {value : Entry → Value} {left right : List Entry}
    (leftOrdered : OrderedBy key left) (rightOrdered : OrderedBy key right)
    (toRight : ∀ entry ∈ left, ∃ other ∈ right, key entry = key other ∧ value entry = value other)
    (toLeft : ∀ entry ∈ right, ∃ other ∈ left, key entry = key other ∧ value entry = value other) :
    left.map (fun entry => (key entry, value entry)) =
      right.map fun entry => (key entry, value entry) := by
  have increasing : ∀ {entries : List Entry}, OrderedBy key entries →
      (entries.map fun entry => (key entry, value entry)).Pairwise fun one other =>
        one.1 < other.1 := fun ordered => List.pairwise_map.mpr ordered
  have distinct : ∀ {pairs : List (Key × Value)},
      pairs.Pairwise (fun one other => one.1 < other.1) → pairs.Nodup :=
    fun ordered => ordered.imp fun less same => less.ne (congrArg Prod.fst same)
  have sub : ∀ {source target : List Entry},
      (∀ entry ∈ source, ∃ other ∈ target, key entry = key other ∧ value entry = value other) →
      ∀ pair ∈ source.map (fun entry => (key entry, value entry)),
        pair ∈ target.map fun entry => (key entry, value entry) := by
    intro source target found pair member
    obtain ⟨entry, among, rfl⟩ := List.mem_map.mp member
    obtain ⟨other, there, sameKey, sameValue⟩ := found entry among
    exact List.mem_map.mpr ⟨other, there, by rw [sameKey, sameValue]⟩
  apply List.Perm.eq_of_pairwise (fun _ _ _ _ less more => absurd (less.trans more) (lt_irrefl _))
    (increasing leftOrdered) (increasing rightOrdered)
  apply (List.perm_ext_iff_of_nodup (distinct (increasing leftOrdered))
    (distinct (increasing rightOrdered))).mpr
  exact fun pair => ⟨sub toRight pair, sub toLeft pair⟩

theorem Agreeing.entries_eq {Value : Type} {value : Entry → Value}
    (fresh : ∀ stamp, expired stamp stamp = false) {first second : List (Entry × Bool)}
    (agreeing : Agreeing key expired value first) (same : second.Perm first)
    (pruning : marked first = false) :
    (collect key expired first).entries.map (fun entry => (key entry, value entry)) =
      (collect key expired second).entries.map fun entry => (key entry, value entry) := by
  have cross : ∀ {one other : List (Entry × Bool)}, Agreeing key expired value one →
      other.Perm one → marked one = false → ∀ entry ∈ (collect key expired one).entries,
      ∃ found ∈ (collect key expired other).entries,
        key entry = key found ∧ value entry = value found := by
    intro one other agreeing same pruning entry member
    obtain ⟨arrival, among, rfl⟩ := mem_collect member
    have current := not_outdated fresh pruning member
    have lasts : ∀ newer ∈ other, key arrival.1 ≤ key newer.1 →
        expired (key newer.1) (key arrival.1) = false := by
      intro newer later above
      cases expires : expired (key newer.1) (key arrival.1) with
      | false => rfl
      | true => exact absurd (agreeing.outdated pruning arrival among newer
          (same.mem_iff.mp later) above expires) current
    obtain ⟨found, there, equal⟩ := exists_key_collect fresh (same.mem_iff.mpr among) lasts
    obtain ⟨origin, came, rfl⟩ := mem_collect there
    refine ⟨origin.1, there, equal.symm, ?_⟩
    apply agreeing.equal arrival among origin (same.mem_iff.mp came) equal.symm
    unfold Decisive
    rw [if_neg (by rw [pruning]; exact Bool.false_ne_true)]
    exact current
  apply map_eq_of_keys (ordered_collect first) (ordered_collect second)
  · exact cross agreeing same pruning
  · exact cross (agreeing.perm same) same.symm ((marked_perm same).trans pruning)

theorem Agreeing.last_eq {Value : Type} {value : Entry → Value}
    (fresh : ∀ stamp, expired stamp stamp = false) {first second : List (Entry × Bool)}
    (agreeing : Agreeing key expired value first) (same : second.Perm first)
    (retaining : marked first = true) :
    (collect key expired first).entries.getLast?.map value =
      (collect key expired second).entries.getLast?.map value := by
  cases one : (collect key expired first).entries.getLast? with
  | none =>
      have empty : first = [] := by
        cases first with
        | nil => rfl
        | cons arrival arrivals =>
            have here : arrival ∈ arrival :: arrivals := List.mem_cons_self
            obtain ⟨newest, found, _⟩ := exists_newest_collect key fresh here
            cases one.symm.trans found
      subst empty
      cases retaining
  | some newest =>
      obtain ⟨⟨arrival, among, rfl⟩, above⟩ := newest_getLast fresh one
      obtain ⟨other, found, least⟩ := exists_newest_collect key fresh (same.mem_iff.mpr among)
      obtain ⟨⟨origin, came, rfl⟩, _⟩ := newest_getLast fresh found
      have within := same.mem_iff.mp came
      have equal : key arrival.1 = key origin.1 := le_antisymm least (above origin within)
      rw [found, Option.map_some, Option.map_some]
      congr 1
      apply agreeing.equal arrival among origin within equal
      unfold Decisive
      rw [if_pos retaining]
      exact above

/-! ### Orders that differ -/

theorem mem_insertByKey_self {entry : Entry} {entries : List Entry}
    (new : ∀ other ∈ entries, key other ≠ key entry) : entry ∈ insertByKey key entry entries := by
  induction entries with
  | nil => exact List.mem_cons_self
  | cons first rest ih =>
      rw [insertByKey]
      split
      · exact List.mem_cons_self
      · rename_i notBefore
        rw [if_pos (lt_of_le_of_ne (not_lt.mp notBefore) (new first List.mem_cons_self))]
        exact List.mem_cons_of_mem _
          (ih fun other member => new other (List.mem_cons_of_mem _ member))

/-- The first arrival into an empty series is its only entry. -/
theorem entries_receive_empty (key : Entry → Key) (fresh : ∀ stamp, expired stamp stamp = false)
    (arrival : Entry × Bool) : (empty.receive key expired arrival).entries = [arrival.1] := by
  have kept : [arrival.1].filter (fun entry => !expired (key arrival.1) (key entry)) =
      [arrival.1] := List.filter_cons_of_pos (by rw [fresh]; rfl)
  unfold receive
  dsimp only [empty, insertByKey]
  cases arrival.2
  · exact kept
  · rfl

/-- A newest arrival that comes first is the last entry in the end. -/
theorem exists_order_last (fresh : ∀ stamp, expired stamp stamp = false)
    {arrivals : List (Entry × Bool)} {arrival : Entry × Bool} (member : arrival ∈ arrivals)
    (newest : Newest key arrivals arrival.1) :
    ∃ order, order.Perm arrivals ∧
      (collect key expired order).entries.getLast? = some arrival.1 := by
  obtain ⟨front, back, rfl⟩ := List.append_of_mem member
  have same : (arrival :: (front ++ back)).Perm (front ++ arrival :: back) :=
    List.perm_middle.symm
  refine ⟨arrival :: (front ++ back), same, ?_⟩
  have single := entries_receive_empty key fresh arrival
  have kept : arrival.1 ∈ (collect key expired (arrival :: (front ++ back))).entries := by
    rw [collect, List.foldl_cons]
    apply mem_foldl_of_mem fresh (ordered_receive List.Pairwise.nil arrival)
    · rw [single]
      exact List.mem_cons_self
    · intro other among above
      have bounded : key other ≤ key arrival.1 := by
        rcases among with before | ⟨later, within, rfl⟩
        · rw [single] at before
          rw [List.mem_singleton.mp before]
        · exact newest later (same.mem_iff.mp (List.mem_cons_of_mem _ within))
      have equal : key other = key arrival.1 :=
        le_antisymm bounded (above arrival.1 (by rw [single]; exact List.mem_cons_self))
      rw [equal]
      exact fresh _
  obtain ⟨last, found, least⟩ :=
    exists_newest_collect key fresh (same.mem_iff.mpr member)
  obtain ⟨⟨origin, came, rfl⟩, _⟩ := newest_getLast fresh found
  have equal := le_antisymm least (newest origin (same.mem_iff.mp came))
  rw [found, (ordered_collect _).eq_of_key kept (List.mem_of_getLast? found) equal]

/-- After the newest one, an arrival stays that is not outdated and the first of its key. -/
theorem exists_order_keeping (fresh : ∀ stamp, expired stamp stamp = false)
    {arrivals : List (Entry × Bool)} {arrival : Entry × Bool} (member : arrival ∈ arrivals)
    (current : ¬ Outdated key expired arrivals arrival.1) :
    ∃ order, order.Perm arrivals ∧ arrival.1 ∈ (collect key expired order).entries := by
  obtain ⟨last, found, least⟩ := exists_newest_collect key fresh member
  obtain ⟨⟨newest, among, rfl⟩, above⟩ := newest_getLast fresh found
  by_cases equal : key arrival.1 = key newest.1
  · have top : Newest key arrivals arrival.1 := by
      intro other within
      rw [equal]
      exact above other within
    obtain ⟨order, same, last⟩ := exists_order_last fresh member top
    exact ⟨order, same, List.mem_of_getLast? last⟩
  · have unexpired : expired (key newest.1) (key arrival.1) = false := by
      cases expires : expired (key newest.1) (key arrival.1) with
      | false => rfl
      | true => exact absurd ⟨newest, among, above, expires⟩ current
    obtain ⟨front, back, rfl⟩ := List.append_of_mem among
    have other : arrival ∈ front ++ back := by
      rcases List.mem_append.mp member with before | after
      · exact List.mem_append_left _ before
      · rcases List.mem_cons.mp after with here | later
        · exact absurd (congrArg (fun pair => key pair.1) here) equal
        · exact List.mem_append_right _ later
    obtain ⟨left, right, split⟩ := List.append_of_mem other
    have reordered : (newest :: arrival :: (left ++ right)).Perm (front ++ newest :: back) := by
      apply (List.Perm.cons newest _).trans List.perm_middle.symm
      rw [split]
      exact List.perm_middle.symm
    refine ⟨newest :: arrival :: (left ++ right), reordered, ?_⟩
    have single := entries_receive_empty key fresh newest
    let first := empty.receive key expired newest
    have ordered : OrderedBy key first.entries := ordered_receive List.Pairwise.nil newest
    have bounded : ∀ entry ∈ insertByKey key arrival.1 first.entries, key entry ≤ key newest.1 := by
      intro entry within
      rcases mem_of_mem_insertByKey within with here | before
      · exact here ▸ least
      · rw [single] at before
        rw [List.mem_singleton.mp before]
    have arrived : arrival.1 ∈ (first.receive key expired arrival).entries := by
      apply mem_receive_of_mem
      · apply mem_insertByKey_self
        intro entry within
        rw [single] at within
        rw [List.mem_singleton.mp within]
        exact Ne.symm equal
      · intro entry last
        have top : key newest.1 ≤ key entry :=
          (ordered.insertByKey _).le_getLast last newest.1
            (mem_insertByKey_of_mem (by rw [single]; exact List.mem_cons_self))
        rw [le_antisymm (bounded entry (List.mem_of_getLast? last)) top]
        exact unexpired
    rw [collect, List.foldl_cons, List.foldl_cons]
    apply mem_foldl_of_mem fresh (ordered_receive ordered arrival) arrived
    intro entry among top
    have origin : ∃ other ∈ front ++ newest :: back, other.1 = entry := by
      rcases among with before | ⟨other, later, same⟩
      · rcases mem_of_mem_receive before with here | early
        · exact ⟨arrival, member, here.symm⟩
        · rw [single] at early
          exact ⟨newest, List.mem_append_right _ List.mem_cons_self,
            (List.mem_singleton.mp early).symm⟩
      · have within := List.mem_cons_of_mem newest (List.mem_cons_of_mem arrival later)
        exact ⟨other, reordered.mem_iff.mp within, same⟩
    obtain ⟨other, within, rfl⟩ := origin
    obtain ⟨high, kept, _, atLeast⟩ := exists_newest_receive fresh ordered arrival
      (.inl (by rw [single]; exact List.mem_cons_self : newest.1 ∈ first.entries))
    rw [le_antisymm (above other within) (atLeast.trans (top high kept))]
    exact unexpired

/-- With all entries of a key before one that makes them expire, none of them is left. -/
theorem exists_order_dropping (fresh : ∀ stamp, expired stamp stamp = false)
    {arrivals : List (Entry × Bool)} (pruning : marked arrivals = false)
    {old : Entry} {newer : Entry × Bool} (member : newer ∈ arrivals)
    (above : key old ≤ key newer.1) (expires : expired (key newer.1) (key old) = true) :
    ∃ order, order.Perm arrivals ∧
      ∀ entry ∈ (collect key expired order).entries, key entry ≠ key old := by
  have different : key newer.1 ≠ key old := by
    intro same
    rw [same, fresh] at expires
    cases expires
  let alike := arrivals.filter fun arrival => key arrival.1 = key old
  let others := arrivals.filter fun arrival => !decide (key arrival.1 = key old)
  have parted : (alike ++ others).Perm arrivals := List.filter_append_perm _ _
  have newerOther : newer ∈ others :=
    List.mem_filter.mpr ⟨member, by rw [decide_eq_false different]; rfl⟩
  obtain ⟨front, back, split⟩ := List.append_of_mem newerOther
  have reordered : (alike ++ [newer] ++ (front ++ back)).Perm arrivals := by
    rw [List.append_assoc]
    apply List.Perm.trans _ parted
    rw [split]
    have moved : (newer :: (front ++ back)).Perm (front ++ newer :: back) :=
      List.perm_middle.symm
    exact moved.append_left alike
  refine ⟨alike ++ [newer] ++ (front ++ back), reordered, fun entry kept same => ?_⟩
  rw [collect, List.foldl_append] at kept
  rcases mem_of_mem_foldl kept with before | ⟨later, among, rfl⟩
  · -- The newer entry has come last, and none of the old key is newer.
    have unmarked : marked (alike ++ [newer]) = false := by
      have all : marked (alike ++ [newer] ++ (front ++ back)) = false :=
        (marked_perm reordered).trans pruning
      rw [marked, List.any_append] at all
      exact (Bool.or_eq_false_iff.mp all).1
    apply not_outdated fresh unmarked before
    refine ⟨newer, List.mem_append_right _ List.mem_cons_self, fun other within => ?_,
      same ▸ expires⟩
    rcases List.mem_append.mp within with early | last
    · rw [of_decide_eq_true (List.mem_filter.mp early).2]
      exact above
    · rw [List.mem_singleton.mp last]
  · have outside : later ∈ others := by
      rw [split]
      rcases List.mem_append.mp among with left | right
      · exact List.mem_append_left _ left
      · exact List.mem_append_right _ (List.mem_cons_of_mem _ right)
    have unlike := (List.mem_filter.mp outside).2
    rw [decide_eq_true same] at unlike
    cases unlike

end Series

/-! ### Arrivals without effect -/

theorem OrderedBy.insertByKey_of_key {entries : List Entry} (ordered : OrderedBy key entries)
    {entry other : Entry} (member : other ∈ entries) (same : key other = key entry) :
    Library.insertByKey key entry entries = entries := by
  induction entries with
  | nil => cases member
  | cons first rest ih =>
      obtain ⟨least, tail⟩ := List.pairwise_cons.mp ordered
      rw [Library.insertByKey]
      rcases List.mem_cons.mp member with rfl | later
      · rw [same, if_neg (lt_irrefl _), if_neg (lt_irrefl _)]
      · have after : key first < key entry := same ▸ least other later
        rw [if_neg after.not_gt, if_pos after, ih tail later]

/-- A test that drops the new entry and no other undoes its insertion. -/
theorem filter_insertByKey {entry : Entry} {entries : List Entry} {kept : Entry → Bool}
    (dropped : kept entry = false) (others : ∀ other ∈ entries, kept other = true) :
    (insertByKey key entry entries).filter kept = entries := by
  induction entries with
  | nil => exact List.filter_cons_of_neg (by rw [dropped]; exact Bool.false_ne_true)
  | cons first rest ih =>
      have same : (first :: rest).filter kept = first :: rest := List.filter_eq_self.mpr others
      rw [insertByKey]
      split
      · rw [List.filter_cons_of_neg (by rw [dropped]; exact Bool.false_ne_true), same]
      · split
        · rw [List.filter_cons_of_pos (others first List.mem_cons_self),
            ih fun other member => others other (List.mem_cons_of_mem _ member)]
        · exact same

theorem OrderedBy.getLast?_insertByKey {entries : List Entry} (ordered : OrderedBy key entries)
    {entry newest : Entry} (last : entries.getLast? = some newest) (older : key entry < key newest) :
    (Library.insertByKey key entry entries).getLast? = some newest := by
  have member := List.mem_of_getLast? last
  have stays : newest ∈ Library.insertByKey key entry entries := mem_insertByKey_of_mem member
  have inserted := ordered.insertByKey entry
  cases found : (Library.insertByKey key entry entries).getLast? with
  | none => cases List.getLast?_eq_none_iff.mp found ▸ stays
  | some other =>
      have above := inserted.le_getLast found newest stays
      rcases mem_of_mem_insertByKey (List.mem_of_getLast? found) with rfl | before
      · exact absurd above (not_le.mpr older)
      · have le := ordered.le_getLast last other before
        rw [ordered.eq_of_key before member (le_antisymm le above)]

namespace Series

/-- In a series that is not retained nothing is expired. -/
def Current (key : Entry → Key) (expired : Key → Key → Bool) (series : Series Entry) : Prop :=
  series.retaining = false → ∀ newest, series.entries.getLast? = some newest →
    ∀ entry ∈ series.entries, expired (key newest) (key entry) = false

theorem current_receive (fresh : ∀ stamp, expired stamp stamp = false) (series : Series Entry)
    (arrival : Entry × Bool) : (series.receive key expired arrival).Current key expired :=
  fun pruning _ last _ member => fresh_receive fresh pruning last member

/-- Its key is there already, or it leaves at once. -/
def Spurned (key : Entry → Key) (expired : Key → Key → Bool) (series : Series Entry)
    (entry : Entry) : Prop :=
  (∃ other ∈ series.entries, key other = key entry) ∨
    series.retaining = false ∧ ∃ newest, series.entries.getLast? = some newest ∧
      key entry < key newest ∧ expired (key newest) (key entry) = true

theorem receive_of_spurned {series : Series Entry} (ordered : OrderedBy key series.entries)
    (current : series.Current key expired) {arrival : Entry × Bool}
    (unmarked : arrival.2 = true → series.retaining = true)
    (spurned : series.Spurned key expired arrival.1) :
    series.receive key expired arrival = series := by
  have retaining : (series.retaining || arrival.2) = series.retaining := by
    cases marked : arrival.2 with
    | false => exact Bool.or_false _
    | true => rw [unmarked marked, Bool.or_self]
  obtain ⟨keeps, entries⟩ := series
  dsimp only at retaining unmarked ordered
  unfold receive
  rw [retaining]
  dsimp only
  congr 1
  rcases spurned with ⟨other, member, same⟩ | ⟨pruning, newest, last, older, gone⟩
  · rw [ordered.insertByKey_of_key member same]
    split
    · rfl
    · rename_i pruning
      unfold prune
      split
      · rfl
      · rename_i newest last
        refine List.filter_eq_self.mpr fun entry among => ?_
        rw [current (Bool.not_eq_true _ ▸ pruning) newest last entry among]
        rfl
  · dsimp only at pruning last
    rw [if_neg (by rw [pruning]; exact Bool.false_ne_true), prune,
      ordered.getLast?_insertByKey last older]
    refine filter_insertByKey (by rw [gone]; rfl) fun other member => ?_
    rw [current pruning newest last other member]
    rfl

theorem spurned_of_receive (fresh : ∀ stamp, expired stamp stamp = false) {series : Series Entry}
    (ordered : OrderedBy key series.entries) {arrival : Entry × Bool}
    (same : (series.receive key expired arrival).entries = series.entries) :
    series.Spurned key expired arrival.1 := by
  by_contra welcome
  rw [Spurned, not_or] at welcome
  obtain ⟨new, stays⟩ := welcome
  have inserted : arrival.1 ∈ insertByKey key arrival.1 series.entries :=
    mem_insertByKey_self fun other member equal => new ⟨other, member, equal⟩
  have absent : arrival.1 ∉ series.entries := fun member => new ⟨_, member, rfl⟩
  have last : (series.receive key expired arrival).entries.getLast? =
      (insertByKey key arrival.1 series.entries).getLast? := getLast?_receive fresh series arrival
  rw [same] at last
  refine absent (same ▸ mem_receive_of_mem inserted fun newest greatest => ?_)
  by_contra gone
  rw [Bool.not_eq_false] at gone
  rw [greatest] at last
  have member := List.mem_of_getLast? last
  have le := (ordered.insertByKey arrival.1).le_getLast greatest arrival.1 inserted
  have older : key arrival.1 < key newest :=
    lt_of_le_of_ne le fun equal => new ⟨newest, member, equal.symm⟩
  cases retaining : series.retaining with
  | false => exact stays ⟨retaining, newest, last, older, gone⟩
  | true =>
      have kept : arrival.1 ∈ (series.receive key expired arrival).entries := by
        unfold receive
        rw [retaining]
        exact inserted
      exact absent (same ▸ kept)

/-- An arrival changes nothing exactly if its mark is no news and it is spurned. -/
theorem receive_eq_self_iff (fresh : ∀ stamp, expired stamp stamp = false) {series : Series Entry}
    (ordered : OrderedBy key series.entries) (current : series.Current key expired)
    (arrival : Entry × Bool) :
    series.receive key expired arrival = series ↔
      (arrival.2 = true → series.retaining = true) ∧ series.Spurned key expired arrival.1 := by
  constructor
  · intro same
    have unmarked : arrival.2 = true → series.retaining = true := by
      intro marked
      rw [← same, receive, marked]
      exact Bool.or_true _
    exact ⟨unmarked, spurned_of_receive fresh ordered (congrArg entries same)⟩
  · exact fun both => receive_of_spurned ordered current both.1 both.2

end Series

end ProtoCore.Library
