import ProtoCore.Library.Machine
import ProtoCore.Topic.TCPClient

/-!
# What reaches a subscriber's socket

The bytes the kernel has taken, followed by the bytes still kept for the socket,
are the bytes it is owed. `write_fd` loses count in one case: when a partial write
leaves an old `EAGAIN` in `errno`, the loop ends before it counts the bytes taken.
-/

set_option autoImplicit false

namespace ProtoCore.Topic

open Library

/-- Some but not all bytes were taken while `errno` still held `EAGAIN`. -/
def WriteCall.StickyPartial (call : WriteCall) : Prop :=
  ∃ count : Nat, call.result = .accepted count ∧ 0 < count ∧ (count : Int) < call.offered ∧
    call.errno = EAGAIN

namespace Kernel

theorem write_accepted {kernel next : Kernel} {fd count : Nat} {bytes : List UInt8} {nwrite : Int}
    (wrote : kernel.write fd bytes (.accepted count) = some (nwrite, next)) :
    count ≤ bytes.length ∧ nwrite = count ∧ next.errno = kernel.errno ∧
      next.opened = kernel.opened ∧ next.accepted = Function.update kernel.accepted fd
        (kernel.accepted fd ++ bytes.take count) := by
  simp only [write] at wrote
  split at wrote
  · rename_i fits
    cases wrote
    exact ⟨fits, rfl, rfl, rfl, rfl⟩
  · cases wrote

theorem write_error {kernel next : Kernel} {fd : Nat} {bytes : List UInt8} {errno nwrite : Int}
    (wrote : kernel.write fd bytes (.error errno) = some (nwrite, next)) :
    nwrite = -1 ∧ next = { kernel with errno := errno } := by
  simp only [write, Option.some.injEq, Prod.mk.injEq] at wrote
  exact ⟨wrote.1.symm, wrote.2.symm⟩

end Kernel

/-- What the loop of `write_fd` guarantees when it ends with `n` bytes left. -/
structure LoopSpec (fd : Nat) (toSend : List UInt8) (siz n : Int) (kernel : Kernel)
    (final : WriteLoopEnd) : Prop where
  opened : final.kernel.opened = kernel.opened
  others : ∀ other, other ≠ fd → final.kernel.accepted other = kernel.accepted other
  balanced : (∀ call ∈ final.calls, ¬ call.StickyPartial) →
    final.kernel.accepted fd ++ toSend.drop (siz - final.n).toNat =
      kernel.accepted fd ++ toSend.drop (siz - n).toNat
  repeated : (∃ call ∈ final.calls, call.StickyPartial) → final.ok = true ∧
    (kernel.accepted fd).length + (toSend.drop (siz - n).toNat).length <
      (final.kernel.accepted fd).length + (toSend.drop (siz - final.n).toNat).length

namespace LoopSpec

variable {fd : Nat} {toSend : List UInt8} {siz n : Int} {kernel : Kernel}

theorem done (results : List WriteResult) :
    LoopSpec fd toSend siz n kernel ⟨true, n, kernel, results, []⟩ where
  opened := rfl
  others _ _ := rfl
  balanced _ := rfl
  repeated sticky := by
    obtain ⟨_, member, _⟩ := sticky
    cases member

theorem failed (ok : Bool) (errno : Int) (results : List WriteResult) :
    LoopSpec fd toSend siz n kernel ⟨ok, n, { kernel with errno := errno }, results,
      [⟨fd, n, kernel.errno, .error errno⟩]⟩ where
  opened := rfl
  others _ _ := rfl
  balanced _ := rfl
  repeated sticky := by
    obtain ⟨call, member, count, mismatch, _⟩ := sticky
    rw [List.mem_singleton] at member
    subst member
    cases mismatch

theorem advance {count : Nat} (left : 0 < n) (within : n ≤ siz)
    (fits : count ≤ ((toSend.drop (siz - n).toNat).take n.toNat).length) :
    (count : Int) ≤ n ∧
      ((toSend.drop (siz - n).toNat).take n.toNat).take count ++
        toSend.drop (siz - (n - count)).toNat = toSend.drop (siz - n).toNat := by
  have short : count ≤ n.toNat := by
    rw [List.length_take] at fits
    omega
  refine ⟨by omega, ?_⟩
  have position : (siz - (n - count)).toNat = (siz - n).toNat + count := by omega
  rw [position, List.take_take, Nat.min_eq_left short, ← List.drop_drop, List.take_append_drop]

/-- The loop breaks on an `errno` the call has not set: its bytes stay queued. -/
theorem sticky {count : Nat} {next : Kernel} (results : List WriteResult)
    (wrote : kernel.write fd ((toSend.drop (siz - n).toNat).take n.toNat) (.accepted count) =
      some ((count : Int), next)) (partly : (count : Int) < n) (old : next.errno = EAGAIN) :
    LoopSpec fd toSend siz n kernel
      ⟨true, n, next, results, [⟨fd, n, kernel.errno, .accepted count⟩]⟩ := by
  obtain ⟨fits, _, errnoSame, openedSame, accepted⟩ := Kernel.write_accepted wrote
  have taken : next.accepted fd = kernel.accepted fd ++
      ((toSend.drop (siz - n).toNat).take n.toNat).take count := by
    rw [accepted, Function.update_self]
  refine ⟨openedSame, ?_, fun quiet => ?_, ?_⟩
  · intro other different
    rw [accepted, Function.update_of_ne different]
  · have nothing : count = 0 := by
      by_contra some
      exact quiet _ List.mem_cons_self ⟨count, rfl, by omega, partly, errnoSame ▸ old⟩
    simp [taken, nothing]
  · intro faulty
    obtain ⟨call, member, other, same, positive, _⟩ := faulty
    rw [List.mem_singleton] at member
    subst member
    cases same
    refine ⟨rfl, ?_⟩
    rw [taken, List.length_append, List.length_take_of_le fits]
    dsimp only
    omega

theorem counted {count : Nat} {next : Kernel} {final : WriteLoopEnd}
    (left : 0 < n) (within : n ≤ siz)
    (wrote : kernel.write fd ((toSend.drop (siz - n).toNat).take n.toNat) (.accepted count) =
      some ((count : Int), next)) (goes : ¬ ((count : Int) < n ∧ next.errno = EAGAIN))
    (spec : LoopSpec fd toSend siz (n - count) next final) :
    LoopSpec fd toSend siz n kernel
      { final with calls := ⟨fd, n, kernel.errno, .accepted count⟩ :: final.calls } := by
  obtain ⟨fits, _, errnoSame, openedSame, accepted⟩ := Kernel.write_accepted wrote
  have sum : next.accepted fd ++ toSend.drop (siz - (n - count)).toNat =
      kernel.accepted fd ++ toSend.drop (siz - n).toNat := by
    rw [accepted, Function.update_self, List.append_assoc, (advance left within fits).2]
  refine ⟨spec.opened.trans openedSame, ?_, ?_, ?_⟩
  · intro other different
    have kept := spec.others other different
    rw [accepted, Function.update_of_ne different] at kept
    exact kept
  · intro quiet
    exact (spec.balanced fun call member => quiet call (List.mem_cons_of_mem _ member)).trans sum
  · intro faulty
    obtain ⟨call, member, sticky⟩ := faulty
    rcases List.mem_cons.mp member with rfl | later
    · obtain ⟨other, same, _, partly, old⟩ := sticky
      cases same
      exact absurd ⟨partly, errnoSame.trans old⟩ goes
    · obtain ⟨good, more⟩ := spec.repeated ⟨call, later, sticky⟩
      have lengths := congrArg List.length sum
      simp only [List.length_append] at lengths
      exact ⟨good, by dsimp only; omega⟩

end LoopSpec

theorem writeLoop_spec {fd : Nat} {toSend : List UInt8} {siz : Int}
    {results : List WriteResult} {n : Int} {kernel : Kernel} {final : WriteLoopEnd}
    (within : n ≤ siz) (looped : writeLoop fd toSend siz results n kernel = some final) :
    LoopSpec fd toSend siz n kernel final := by
  induction results generalizing n kernel final with
  | nil =>
      simp only [writeLoop] at looped
      split at looped
      · cases looped
      · cases looped
        exact LoopSpec.done []
  | cons result results ih =>
      simp only [writeLoop] at looped
      split at looped
      · rename_i left
        cases wrote : kernel.write fd ((toSend.drop (siz - n).toNat).take n.toNat) result with
        | none =>
            rw [wrote] at looped
            cases looped
        | some outcome =>
            obtain ⟨nwrite, next⟩ := outcome
            simp only [wrote] at looped
            cases result with
            | error errno =>
                obtain ⟨rfl, rfl⟩ := Kernel.write_error wrote
                split at looped
                · cases looped
                  exact LoopSpec.failed false errno results
                · split at looped
                  · cases looped
                    exact LoopSpec.failed true errno results
                  · omega
            | accepted count =>
                obtain ⟨fits, rfl, _, _, _⟩ := Kernel.write_accepted wrote
                rw [if_neg (by omega)] at looped
                split at looped
                · rename_i breaks
                  cases looped
                  exact LoopSpec.sticky results wrote breaks.1 breaks.2
                · rename_i goes
                  obtain ⟨tail, rest, rfl⟩ := Option.map_eq_some_iff.mp looped
                  exact LoopSpec.counted left within wrote goes (ih (by omega) rest)
      · cases looped
        exact LoopSpec.done (result :: results)

namespace Publishing

/-- The bytes taken and the bytes kept are the initial data and the whole frames
appended since, in the order of their publication. -/
def Balanced (state : Publishing) (fd : Nat) : Prop :=
  ∃ data, state.client.clientsData[fd]? = some data ∧
    state.kernel.accepted fd ++ data = state.initial fd ++ (state.frames fd).flatten

def StreamsIntact (state : Publishing) : Prop :=
  ∀ topic, ∀ fd ∈ state.client.clientsTopicFd topic, state.Balanced fd

structure SameStream (fd : Nat) (left right : Publishing) : Prop where
  data : right.client.clientsData[fd]? = left.client.clientsData[fd]?
  accepted : right.kernel.accepted fd = left.kernel.accepted fd
  initial : right.initial fd = left.initial fd
  frames : right.frames fd = left.frames fd
  registered : ∀ topic, fd ∈ right.client.clientsTopicFd topic ↔
    fd ∈ left.client.clientsTopicFd topic

theorem SameStream.refl (fd : Nat) (state : Publishing) : SameStream fd state state :=
  ⟨rfl, rfl, rfl, rfl, fun _ => Iff.rfl⟩

theorem SameStream.symm {fd : Nat} {left right : Publishing} (same : SameStream fd left right) :
    SameStream fd right left where
  data := same.data.symm
  accepted := same.accepted.symm
  initial := same.initial.symm
  frames := same.frames.symm
  registered topic := (same.registered topic).symm

theorem SameStream.trans {fd : Nat} {first second third : Publishing}
    (left : SameStream fd first second) (right : SameStream fd second third) :
    SameStream fd first third where
  data := right.data.trans left.data
  accepted := right.accepted.trans left.accepted
  initial := right.initial.trans left.initial
  frames := right.frames.trans left.frames
  registered topic := (right.registered topic).trans (left.registered topic)

theorem SameStream.balanced_iff {fd : Nat} {left right : Publishing}
    (same : SameStream fd left right) : right.Balanced fd ↔ left.Balanced fd := by
  simp only [Balanced, same.data, same.accepted, same.initial, same.frames]

theorem append_same {state : Publishing} {fd other : Nat} (different : other ≠ fd)
    (data msg : List UInt8) : SameStream other state (state.append fd data msg) where
  data := List.getElem?_set_ne different.symm
  accepted := rfl
  initial := rfl
  frames := Function.update_of_ne different _ _
  registered _ := Iff.rfl

theorem Balanced.append {state : Publishing} {fd : Nat} {data : List UInt8}
    (balanced : state.Balanced fd) (found : state.client.clientsData[fd]? = some data)
    (msg : List UInt8) : (state.append fd data msg).Balanced fd := by
  obtain ⟨kept, located, sum⟩ := balanced
  rw [found] at located
  cases located
  have inside := (List.getElem?_eq_some_iff.mp found).1
  refine ⟨data ++ msg, List.getElem?_set_self inside, ?_⟩
  simp only [Publishing.append, Function.update_self, List.flatten_append, List.flatten_cons,
    List.flatten_nil, List.append_nil]
  rw [← List.append_assoc, sum, List.append_assoc]

/-- The effect of `write_fd` outside the stream it serves. -/
structure FdSpec (state : Publishing) (topic : String) (fd : Nat) (written : Written) : Prop where
  same : ∀ other, other ≠ fd → SameStream other state written.state
  kept : written.ok = true → written.state.client.clientsTopicFd = state.client.clientsTopicFd ∧
    written.state.kernel.opened = state.kernel.opened
  dropped : written.ok = false → written.state.kernel.opened = state.kernel.opened.erase fd ∧
    written.state.client.clientsTopicFd = Function.update state.client.clientsTopicFd topic
      ((state.client.clientsTopicFd topic).erase fd)

theorem writeFd_spec {state : Publishing} {topic : String} {fd : Nat}
    {results : List WriteResult} {written : Written}
    (wrote : state.writeFd topic fd results = some written) : FdSpec state topic fd written := by
  cases located : state.client.clientsData[fd]? with
  | none =>
      simp only [writeFd, located] at wrote
      cases wrote
  | some toSend =>
      simp only [writeFd, located] at wrote
      obtain ⟨final, looped, rfl⟩ := Option.map_eq_some_iff.mp wrote
      have spec := writeLoop_spec le_rfl looped
      cases good : final.ok with
      | true =>
          simp only [↓reduceIte]
          refine ⟨fun other different => ?_, fun _ => ⟨rfl, spec.opened⟩, nofun⟩
          exact ⟨List.getElem?_set_ne different.symm, spec.others other different, rfl, rfl,
            fun _ => Iff.rfl⟩
      | false =>
          simp only [Bool.false_eq_true, ↓reduceIte]
          refine ⟨fun other different => ?_, nofun, fun _ => ⟨?_, rfl⟩⟩
          · refine ⟨List.getElem?_set_ne different.symm, spec.others other different, rfl, rfl,
              fun other' => ?_⟩
            simp only [dropSocket, Function.update_apply]
            split
            · rename_i same
              simp [same, different]
            · rfl
          · simp only [dropSocket, spec.opened]

/-- `write_fd` keeps the stream it serves intact exactly if no write was partial
under an old `EAGAIN`. -/
theorem writeFd_balanced {state : Publishing} {topic : String} {fd : Nat}
    {results : List WriteResult} {written : Written} (balanced : state.Balanced fd)
    (wrote : state.writeFd topic fd results = some written) :
    ((∀ call ∈ written.calls, ¬ call.StickyPartial) → written.ok = true →
      written.state.Balanced fd) ∧
    ((∃ call ∈ written.calls, call.StickyPartial) → written.ok = true ∧
      ¬ written.state.Balanced fd) := by
  obtain ⟨toSend, located, sum⟩ := balanced
  have inside := (List.getElem?_eq_some_iff.mp located).1
  simp only [writeFd, located] at wrote
  obtain ⟨final, looped, rfl⟩ := Option.map_eq_some_iff.mp wrote
  have spec := writeLoop_spec le_rfl looped
  have start : toSend.drop (int32 toSend.length - int32 toSend.length).toNat = toSend := by simp
  have unsent : ∀ data,
      (state.keepUnsent fd data final.kernel).client.clientsData[fd]? = some data :=
    fun data => List.getElem?_set_self inside
  constructor
  · intro quiet good
    have kept := spec.balanced quiet
    rw [start, sum] at kept
    dsimp only at good ⊢
    rw [if_pos good]
    exact ⟨_, unsent _, kept⟩
  · intro sticky
    obtain ⟨good, more⟩ := spec.repeated sticky
    refine ⟨good, ?_⟩
    dsimp only
    rw [if_pos good]
    intro balanced
    obtain ⟨data, found, same⟩ := balanced
    rw [unsent] at found
    obtain rfl := Option.some.inj found
    have before := congrArg List.length sum
    have after := congrArg List.length same
    rw [start] at more
    simp only [List.length_append] at before after
    exact absurd (after.trans before.symm) more.ne'

/-- Every registered socket is open, belongs to one topic and has its stream intact. -/
structure Sound (state : Publishing) : Prop where
  intact : state.StreamsIntact
  opened : ∀ {topic : String} {fd : Nat}, fd ∈ state.client.clientsTopicFd topic →
    fd ∈ state.kernel.opened
  single : ∀ {left right : String} {fd : Nat}, fd ∈ state.client.clientsTopicFd left →
    fd ∈ state.client.clientsTopicFd right → left = right

theorem Sound.append {state : Publishing} (sound : state.Sound) {topic : String} {fd : Nat}
    (member : fd ∈ state.client.clientsTopicFd topic) {data : List UInt8}
    (found : state.client.clientsData[fd]? = some data) (msg : List UInt8) :
    (state.append fd data msg).Sound where
  intact other fd' member' := by
    by_cases same : fd' = fd
    · subst same
      exact (sound.intact topic fd' member).append found msg
    · exact (append_same same data msg).balanced_iff.mpr (sound.intact other fd' member')
  opened := sound.opened
  single := sound.single

theorem Sound.writeFd {state : Publishing} (sound : state.Sound) {topic : String} {fd : Nat}
    (member : fd ∈ state.client.clientsTopicFd topic) {results : List WriteResult}
    {written : Written} (wrote : state.writeFd topic fd results = some written)
    (quiet : ∀ call ∈ written.calls, ¬ call.StickyPartial) : written.state.Sound := by
  have spec := writeFd_spec wrote
  cases good : written.ok with
  | true =>
      obtain ⟨sockets, opened⟩ := spec.kept good
      refine ⟨fun other fd' member' => ?_, fun member' => ?_, fun left right => ?_⟩
      · by_cases same : fd' = fd
        · exact same ▸ (writeFd_balanced (sound.intact topic fd member) wrote).1 quiet good
        · rw [sockets] at member'
          exact (spec.same fd' same).balanced_iff.mpr (sound.intact other fd' member')
      · rw [sockets] at member'
        rw [opened]
        exact sound.opened member'
      · rw [sockets] at left right
        exact sound.single left right
  | false =>
      obtain ⟨opened, sockets⟩ := spec.dropped good
      have gone : ∀ {other fd'}, fd' ∈ written.state.client.clientsTopicFd other →
          fd' ≠ fd ∧ fd' ∈ state.client.clientsTopicFd other := by
        intro other fd' member'
        rw [sockets, Function.update_apply] at member'
        split at member'
        · rename_i here
          subst here
          exact ⟨Finset.ne_of_mem_erase member', Finset.mem_of_mem_erase member'⟩
        · rename_i elsewhere
          exact ⟨fun same => elsewhere (sound.single (same ▸ member') member), member'⟩
      refine ⟨fun other fd' member' => ?_, fun member' => ?_, fun left right => ?_⟩
      · exact (spec.same fd' (gone member').1).balanced_iff.mpr
          (sound.intact other fd' (gone member').2)
      · rw [opened]
        exact Finset.mem_erase.mpr ⟨(gone member').1, sound.opened (gone member').2⟩
      · exact sound.single (gone left).2 (gone right).2

/-- What the loop of `write_to_socket` does with the first of its sockets, whose pending bytes
are `data`. -/
inductive FirstSocket (topic : String) (msg : List UInt8) (fd : Nat) (fds : List Nat)
    (state : Publishing) (results : List WriteResult) (data : List UInt8) : Written → Prop where
  | skipped {written : Written} (full : maxWriteBufferSize < data.length)
      (rest : writeSockets topic msg fds state results = some written) :
      FirstSocket topic msg fd fds state results data written
  | failed {first : Written} (room : ¬ maxWriteBufferSize < data.length)
      (wrote : (state.append fd data msg).writeFd topic fd results = some first)
      (bad : first.ok = false) : FirstSocket topic msg fd fds state results data first
  | served {first final : Written} (room : ¬ maxWriteBufferSize < data.length)
      (wrote : (state.append fd data msg).writeFd topic fd results = some first)
      (good : first.ok = true)
      (rest : writeSockets topic msg fds first.state first.results = some final) :
      FirstSocket topic msg fd fds state results data
        { final with calls := first.calls ++ final.calls }

theorem writeSockets_cons {topic : String} {msg : List UInt8} {fd : Nat} {fds : List Nat}
    {state : Publishing} {results : List WriteResult} {written : Written}
    (wrote : writeSockets topic msg (fd :: fds) state results = some written) :
    ∃ data, state.client.clientsData[fd]? = some data ∧
      FirstSocket topic msg fd fds state results data written := by
  simp only [writeSockets] at wrote
  split at wrote
  · cases wrote
  · rename_i data located
    refine ⟨data, located, ?_⟩
    split at wrote
    · rename_i full
      exact .skipped full wrote
    · rename_i room
      split at wrote
      · cases wrote
      · rename_i first wroteFirst
        split at wrote
        · rename_i good
          obtain ⟨final, rest, rfl⟩ := Option.map_eq_some_iff.mp wrote
          exact .served room wroteFirst good rest
        · rename_i bad
          cases wrote
          exact .failed room wroteFirst (Bool.eq_false_of_not_eq_true bad)

theorem writeSockets_same {topic : String} {msg : List UInt8} {fds : List Nat}
    {state : Publishing} {results : List WriteResult} {written : Written}
    (wrote : writeSockets topic msg fds state results = some written) {other : Nat}
    (absent : other ∉ fds) : SameStream other state written.state := by
  induction fds generalizing state results written with
  | nil =>
      obtain rfl := Option.some.inj wrote
      exact SameStream.refl other state
  | cons fd fds ih =>
      rw [List.mem_cons, not_or] at absent
      obtain ⟨different, absent⟩ := absent
      have head : ∀ {data first},
          (state.append fd data msg).writeFd topic fd results = some first →
          SameStream other state first.state := fun wroteFirst =>
        (append_same different _ msg).trans ((writeFd_spec wroteFirst).same other different)
      obtain ⟨data, _, served⟩ := writeSockets_cons wrote
      cases served with
      | skipped full rest => exact ih rest absent
      | failed room wroteFirst bad => exact head wroteFirst
      | served room wroteFirst good rest =>
          rename_i first final
          have tail : SameStream other first.state final.state := ih rest absent
          exact (head wroteFirst).trans tail

/-- One call of `write_to_socket`: all streams stay intact exactly if no write of
the call was partial under an old `EAGAIN`. -/
theorem Sound.writeSockets {topic : String} {msg : List UInt8} {fds : List Nat}
    {state : Publishing} {results : List WriteResult} {written : Written}
    (sound : state.Sound) (distinct : fds.Nodup)
    (members : ∀ fd ∈ fds, fd ∈ state.client.clientsTopicFd topic)
    (wrote : writeSockets topic msg fds state results = some written) :
    ((∀ call ∈ written.calls, ¬ call.StickyPartial) → written.state.Sound) ∧
      (written.state.StreamsIntact → ∀ call ∈ written.calls, ¬ call.StickyPartial) := by
  induction fds generalizing state results written with
  | nil =>
      cases wrote
      exact ⟨fun _ => sound, fun _ _ member => by cases member⟩
  | cons fd fds ih =>
      obtain ⟨absent, distinct⟩ := List.nodup_cons.mp distinct
      have member := members fd List.mem_cons_self
      obtain ⟨data, found, served⟩ := writeSockets_cons wrote
      cases served with
      | skipped full rest =>
          exact ih sound distinct (fun fd' later => members fd' (List.mem_cons_of_mem _ later)) rest
      | failed room wroteFirst bad =>
          have appended := sound.append member found msg
          have balance := writeFd_balanced (appended.intact topic fd member) wroteFirst
          refine ⟨appended.writeFd member wroteFirst, fun _ call called sticky => ?_⟩
          rw [(balance.2 ⟨call, called, sticky⟩).1] at bad
          cases bad
      | served room wroteFirst good rest =>
          rename_i first final
          have appended := sound.append member found msg
          have balance := writeFd_balanced (appended.intact topic fd member) wroteFirst
          have quietSound := appended.writeFd member wroteFirst
          have sockets := ((writeFd_spec wroteFirst).kept good).1
          have stillMembers : ∀ fd' ∈ fds, fd' ∈ first.state.client.clientsTopicFd topic := by
            intro fd' later
            rw [sockets]
            exact members fd' (List.mem_cons_of_mem _ later)
          -- a stream broken at the head stays broken, and its socket registered
          have quietFirst : final.state.StreamsIntact →
              ∀ call ∈ first.calls, ¬ call.StickyPartial := by
            intro intact call called sticky
            have same := writeSockets_same rest absent
            have registered := (same.registered topic).mpr (by rw [sockets]; exact member)
            exact (balance.2 ⟨call, called, sticky⟩).2
              (same.balanced_iff.mp (intact topic fd registered))
          refine ⟨fun quiet => ?_, fun intact call called => ?_⟩
          · have headSound := quietSound fun call called =>
              quiet call (List.mem_append_left _ called)
            exact (ih headSound distinct stillMembers rest).1 fun call called =>
              quiet call (List.mem_append_right _ called)
          · rcases List.mem_append.mp called with early | late
            · exact quietFirst intact call early
            · exact (ih (quietSound (quietFirst intact)) distinct stillMembers rest).2 intact
                call late

theorem mem_connect {state : Publishing} {topic other : String} {fd fd' : Nat}
    {cache : List (List UInt8)} :
    fd' ∈ (state.connect topic fd cache).client.clientsTopicFd other ↔
      (other = topic ∧ fd' = fd) ∨ fd' ∈ state.client.clientsTopicFd other := by
  simp only [connect, Function.update_apply]
  split
  · rename_i same
    simp [same]
  · rename_i different
    simp [different]

theorem Sound.connect {state : Publishing} (sound : state.Sound) {topic : String} {fd : Nat}
    {cache : List (List UInt8)} (closed : fd ∉ state.kernel.opened)
    (inside : fd < (grow state.client.clientsData [] fd).length) :
    (state.connect topic fd cache).Sound where
  intact other fd' member := by
    by_cases same : fd' = fd
    · subst same
      exact ⟨cache.flatten, List.getElem?_set_self inside, by simp [Publishing.connect]⟩
    · rcases mem_connect.mp member with ⟨_, here⟩ | old
      · exact absurd here same
      · obtain ⟨data, found, sum⟩ := sound.intact other fd' old
        refine ⟨data, ?_, ?_⟩
        · exact (List.getElem?_set_ne (Ne.symm same)).trans (getElem?_grow found)
        · simpa [Publishing.connect, Function.update_of_ne same] using sum
  opened member := by
    rcases mem_connect.mp member with ⟨_, here⟩ | old
    · exact Finset.mem_insert.mpr (.inl here)
    · exact Finset.mem_insert_of_mem (sound.opened old)
  single {left right fd'} first second := by
    rcases mem_connect.mp first with ⟨first, here⟩ | first
    · rcases mem_connect.mp second with ⟨second, _⟩ | second
      · exact first.trans second.symm
      · exact absurd (sound.opened (here ▸ second)) closed
    · rcases mem_connect.mp second with ⟨_, here⟩ | second
      · exact absurd (sound.opened (here ▸ first)) closed
      · exact sound.single first second

theorem Sound.complete {state : Publishing} (sound : state.Sound) {topic : String} {fd : Nat}
    {cache : List (List UInt8)} {results : List WriteResult} {written : Written}
    (completed : state.complete topic fd cache results = some written) :
    ((∀ call ∈ written.calls, ¬ call.StickyPartial) → written.state.Sound) ∧
      (written.state.StreamsIntact → ∀ call ∈ written.calls, ¬ call.StickyPartial) := by
  unfold Publishing.complete at completed
  split at completed
  · rename_i enabled
    have connected : (state.connect topic fd cache).Sound := sound.connect enabled.1 enabled.2.1
    have member : fd ∈ (state.connect topic fd cache).client.clientsTopicFd topic :=
      mem_connect.mpr (.inl ⟨rfl, rfl⟩)
    refine ⟨connected.writeFd member completed, fun intact call called sticky => ?_⟩
    have balance := writeFd_balanced (connected.intact topic fd member) completed
    obtain ⟨good, broken⟩ := balance.2 ⟨call, called, sticky⟩
    refine broken (intact topic fd ?_)
    rw [((writeFd_spec completed).kept good).1]
    exact member
  · cases completed

/-! ## Runs -/

def machine : Machine Publishing Operation where
  step state operation := (state.perform operation).map Written.state

/-- No write of the operation is partial while `errno` holds an old `EAGAIN`. -/
def NoStickyPartial (state : Publishing) (operation : Operation) : Prop :=
  ∀ written, state.perform operation = some written →
    ∀ call ∈ written.calls, ¬ call.StickyPartial

theorem Sound.withErrno {state : Publishing} (sound : state.Sound) (errno : Int) :
    ({ state with kernel := { state.kernel with errno := errno } } : Publishing).Sound :=
  ⟨sound.intact, sound.opened, sound.single⟩

theorem Sound.perform {state : Publishing} (sound : state.Sound) {operation : Operation}
    {written : Written} (performed : state.perform operation = some written) :
    ((∀ call ∈ written.calls, ¬ call.StickyPartial) → written.state.Sound) ∧
      (written.state.StreamsIntact → ∀ call ∈ written.calls, ¬ call.StickyPartial) := by
  cases operation with
  | writeToCache topic data =>
      cases performed
      exact ⟨fun _ => ⟨sound.intact, sound.opened, sound.single⟩, fun _ _ called => by cases called⟩
  | writeToSocket topic msg order errno results =>
      simp only [Publishing.perform] at performed
      split at performed
      · rename_i enabled
        refine (sound.withErrno errno).writeSockets enabled.1 (fun fd member => ?_) performed
        exact enabled.2 ▸ List.mem_toFinset.mpr member
      · cases performed
  | complete topic fd cache errno results =>
      exact (sound.withErrno errno).complete performed

/-- From every sound state, all streams stay intact throughout a run exactly if
no write of the run is partial while `errno` holds an old `EAGAIN`. -/
theorem streamsIntact_iff_noStickyPartial {state : Publishing} (sound : state.Sound)
    (run : List Operation) :
    machine.Along StreamsIntact state run ↔ machine.Obeys NoStickyPartial state run := by
  refine machine.along_iff_obeys Sound (fun _ sound => sound.intact) ?_ ?_ sound run
  · intro state operation next sound quiet stepped
    obtain ⟨written, performed, rfl⟩ := Option.map_eq_some_iff.mp stepped
    exact (sound.perform performed).1 (quiet written performed)
  · intro state operation next sound stepped intact written performed
    simp only [machine, performed, Option.map_some, Option.some.injEq] at stepped
    subst stepped
    exact (sound.perform performed).2 intact

def oneSubscriber : Publishing where
  client := {
    clientsTopicFd := fun topic => if topic = "hello" then {0} else ∅
    clientsData := [[]]
    staticTopicCache := fun _ => ∅ }
  kernel := { errno := 0, opened := {0}, accepted := fun _ => [] }
  initial := fun _ => []
  frames := fun _ => []

theorem oneSubscriber_sound : oneSubscriber.Sound := by
  have only : ∀ {topic fd}, fd ∈ oneSubscriber.client.clientsTopicFd topic →
      topic = "hello" ∧ fd = 0 := by
    intro topic fd member
    simp only [oneSubscriber] at member
    split at member
    · rename_i hello
      exact ⟨hello, Finset.mem_singleton.mp member⟩
    · cases member
  refine ⟨fun topic fd member => ?_, fun member => ?_, fun left right => ?_⟩
  · exact (only member).2 ▸ ⟨[], rfl, rfl⟩
  · exact (only member).2 ▸ Finset.mem_singleton_self 0
  · exact (only left).1.trans (only right).1.symm

/-- The socket is full, and at the next publication takes one byte only. -/
def fullThenPartial : List Operation :=
  [.writeToSocket "hello" [2, 0, 0, 0, 8, 1] [0] 0 [.error EAGAIN],
    .writeToSocket "hello" [0, 0, 0, 0] [0] EAGAIN [.accepted 1]]

theorem fullThenPartial_not_intact :
    ¬ machine.Along StreamsIntact oneSubscriber fullThenPartial := by
  intro along
  have evaluated : (machine.exec oneSubscriber fullThenPartial).map (fun final =>
      ((final.client.clientsTopicFd "hello", final.kernel.accepted 0, final.client.clientsData[0]?),
        final.initial 0 ++ (final.frames 0).flatten)) =
      some (({0}, [2], some [2, 0, 0, 0, 8, 1, 0, 0, 0, 0]), [2, 0, 0, 0, 8, 1, 0, 0, 0, 0]) := by
    decide
  obtain ⟨final, executed, shape⟩ := Option.map_eq_some_iff.mp evaluated
  simp only [Prod.mk.injEq] at shape
  obtain ⟨⟨registered, accepted, data⟩, expected⟩ := shape
  obtain ⟨kept, located, sum⟩ := along.final executed "hello" 0 (by rw [registered]; decide)
  rw [data] at located
  cases located
  rw [accepted, expected] at sum
  cases sum

/-- The same publications when the second write goes through at once. -/
theorem streamsIntact_iff_noStickyPartial_hello :
    machine.Along StreamsIntact oneSubscriber
        [.writeToSocket "hello" [2, 0, 0, 0, 8, 1] [0] 0 [.error EAGAIN],
          .writeToSocket "hello" [0, 0, 0, 0] [0] EAGAIN [.accepted 10]] ↔
      machine.Obeys NoStickyPartial oneSubscriber
        [.writeToSocket "hello" [2, 0, 0, 0, 8, 1] [0] 0 [.error EAGAIN],
          .writeToSocket "hello" [0, 0, 0, 0] [0] EAGAIN [.accepted 10]] :=
  streamsIntact_iff_noStickyPartial oneSubscriber_sound _

end Publishing

end ProtoCore.Topic
