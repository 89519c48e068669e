import Mathlib.Data.List.Basic
import ProtoCore.Topic.StreamIntegrity

/-!
# Latched messages

`publish` with `cache` enters the message in the cache of the topic and writes it to the
sockets afterwards. A socket completed later gets the cache, one completed earlier the
write; what the loop of `write_to_socket` passes over is not sent again.
-/

set_option autoImplicit false

namespace ProtoCore.Topic

open Library

instance (call : WriteCall) : Decidable call.StickyPartial :=
  match result : call.result with
  | .accepted count =>
      decidable_of_iff (0 < count ∧ (count : Int) < call.offered ∧ call.errno = EAGAIN) <| by
        simp only [WriteCall.StickyPartial, result, WriteResult.accepted.injEq, exists_eq_left']
  | .error _ => isFalse fun sticky => by
      obtain ⟨count, same, _⟩ := sticky
      rw [result] at same
      cases same

namespace Publishing

instance (state : Publishing) (operation : Operation) :
    Decidable (state.NoStickyPartial operation) :=
  inferInstanceAs (Decidable (∀ written ∈ state.perform operation,
    ∀ call ∈ written.calls, ¬ call.StickyPartial))

/-- The sockets of the order that the loop of `write_to_socket` leaves without the message:
those over the limit, and all that follow a failed one. -/
def missed (topic : String) (msg : List UInt8) :
    List Nat → Publishing → List WriteResult → List Nat
  | [], _, _ => []
  | fd :: fds, state, results =>
      match state.client.clientsData[fd]? with
      | none => []
      | some data =>
          if maxWriteBufferSize < data.length then fd :: missed topic msg fds state results
          else
            match (state.append fd data msg).writeFd topic fd results with
            | none => []
            | some written =>
                if written.ok then missed topic msg fds written.state written.results else fds

/-- The message is a frame of the stream of a socket, between frames of the cache. -/
def Carries (state : Publishing) (topic : String) (fd : Nat) (msg : List UInt8) : Prop :=
  ∃ data before after, state.client.clientsData[fd]? = some data ∧
    (∀ frame ∈ before ++ after, frame ∈ state.client.staticTopicCache topic) ∧
    state.kernel.accepted fd ++ data = (before ++ msg :: after).flatten

end Publishing

/-- A message entered in the cache and not yet written, with the sockets completed since. -/
structure Latch where
  msg : List UInt8
  joined : Finset Nat
  deriving DecidableEq

structure Latching where
  publishing : Publishing
  pending : List Latch

inductive LatchMove where
  | writeToCache (msg : List UInt8)
  | writeToSocket (latch : Nat) (order : List Nat) (errno : Int) (results : List WriteResult)
  | complete (fd : Nat) (cache : List (List UInt8)) (errno : Int) (results : List WriteResult)

namespace Latching

def initial : Latching := { publishing := .new, pending := [] }

/-- The operation of the socket side that a move performs on the topic. -/
def operation (latching : Latching) (topic : String) : LatchMove → Option Publishing.Operation
  | .writeToCache msg => some (.writeToCache topic msg)
  | .writeToSocket latch order errno results =>
      (latching.pending[latch]?).map fun latch =>
        .writeToSocket topic latch.msg order errno results
  | .complete fd cache errno results => some (.complete topic fd cache errno results)

/-- What happens to the pending messages. One that was cached before is not published. -/
def advance (latching : Latching) (inserted : Bool) : LatchMove → List Latch
  | .writeToCache msg =>
      if inserted then latching.pending ++ [{ msg := msg, joined := ∅ }] else latching.pending
  | .writeToSocket latch _ _ _ => latching.pending.eraseIdx latch
  | .complete fd _ _ _ =>
      latching.pending.map fun latch => { latch with joined := insert fd latch.joined }

def step (topic : String) (latching : Latching) (move : LatchMove) : Option Latching :=
  (latching.operation topic move).bind fun operation =>
    (latching.publishing.perform operation).map fun written =>
      { publishing := written.state, pending := latching.advance written.ok move }

def machine (topic : String) : Machine Latching LatchMove := ⟨step topic⟩

/-- While no publication is between its two steps, the stream of every registered socket
carries every message of the cache. -/
def Latched (topic : String) (latching : Latching) : Prop :=
  latching.pending = [] →
    ∀ msg ∈ latching.publishing.client.staticTopicCache topic,
      ∀ fd ∈ latching.publishing.client.clientsTopicFd topic,
        latching.publishing.Carries topic fd msg

/-- The write of a message passes over no socket but those that got it with the cache. -/
def NoneMissed (topic : String) (latching : Latching) : LatchMove → Prop
  | .writeToSocket latch order errno results =>
      let publishing := latching.publishing
      let kernel := { publishing.kernel with errno := errno }
      ∀ pending : Latch, latching.pending[latch]? = some pending →
        ∀ fd ∈ Publishing.missed topic pending.msg order { publishing with kernel := kernel }
          results, fd ∈ pending.joined
  | _ => True

/-- No write of the move is partial while `errno` holds an old `EAGAIN`. -/
def NoStickyPartial (topic : String) (latching : Latching) (move : LatchMove) : Prop :=
  ∀ operation, latching.operation topic move = some operation →
    latching.publishing.NoStickyPartial operation

instance (topic : String) (latching : Latching) (move : LatchMove) :
    Decidable (NoneMissed topic latching move) :=
  match move with
  | .writeToCache _ | .complete _ _ _ _ => isTrue trivial
  | .writeToSocket latch _ _ _ =>
      inferInstanceAs (Decidable (∀ pending ∈ latching.pending[latch]?, _))

instance (topic : String) (latching : Latching) (move : LatchMove) :
    Decidable (NoStickyPartial topic latching move) :=
  inferInstanceAs (Decidable (∀ operation ∈ latching.operation topic move, _))

end Latching

/-! ## What a write does to the records -/

namespace Publishing

theorem writeFd_records {state : Publishing} {topic : String} {fd : Nat}
    {results : List WriteResult} {written : Written}
    (wrote : state.writeFd topic fd results = some written) :
    written.state.frames = state.frames ∧ written.state.initial = state.initial ∧
      written.state.client.staticTopicCache = state.client.staticTopicCache := by
  unfold writeFd at wrote
  split at wrote
  · cases wrote
  · obtain ⟨final, _, rfl⟩ := Option.map_eq_some_iff.mp wrote
    cases good : final.ok
    · simp only [Bool.false_eq_true, if_false]
      exact ⟨rfl, rfl, rfl⟩
    · simp only [if_true]
      exact ⟨rfl, rfl, rfl⟩

theorem writeFd_registered {state : Publishing} {topic : String} {fd : Nat}
    {results : List WriteResult} {written : Written}
    (wrote : state.writeFd topic fd results = some written) {other : Nat}
    (registered : other ∈ written.state.client.clientsTopicFd topic) :
    other ∈ state.client.clientsTopicFd topic ∧ (written.ok = false → other ≠ fd) := by
  have spec := writeFd_spec wrote
  cases good : written.ok with
  | true =>
      rw [(spec.kept good).1] at registered
      exact ⟨registered, fun bad => by cases bad⟩
  | false =>
      rw [(spec.dropped good).2, Function.update_self] at registered
      exact ⟨Finset.mem_of_mem_erase registered, fun _ => Finset.ne_of_mem_erase registered⟩

/-- The records after a write of a message to the sockets of an order. -/
structure Delivered (topic : String) (msg : List UInt8) (fds missed : List Nat)
    (before after : Publishing) : Prop where
  initial : after.initial = before.initial
  cache : after.client.staticTopicCache = before.client.staticTopicCache
  registered : ∀ fd ∈ after.client.clientsTopicFd topic, fd ∈ before.client.clientsTopicFd topic
  others : ∀ fd, fd ∉ fds → after.frames fd = before.frames fd
  reached : ∀ fd ∈ fds, fd ∈ after.client.clientsTopicFd topic →
    after.frames fd = before.frames fd ++ [msg] ∨
      after.frames fd = before.frames fd ∧ fd ∈ missed

theorem append_frames_of_ne (state : Publishing) {fd other : Nat} (different : other ≠ fd)
    (data msg : List UInt8) : (state.append fd data msg).frames other = state.frames other :=
  Function.update_of_ne different _ _

/-- The message is recorded for its own socket only. -/
theorem writeFd_frames_of_ne {state : Publishing} {topic : String} {fd other : Nat}
    {data msg : List UInt8} {results : List WriteResult} {written : Written}
    (wrote : (state.append fd data msg).writeFd topic fd results = some written)
    (different : other ≠ fd) : written.state.frames other = state.frames other := by
  rw [(writeFd_records wrote).1, append_frames_of_ne _ different]

theorem writeSockets_delivered {topic : String} {msg : List UInt8} {fds : List Nat}
    {state : Publishing} {results : List WriteResult} {written : Written}
    (distinct : fds.Nodup) (wrote : writeSockets topic msg fds state results = some written) :
    Delivered topic msg fds (missed topic msg fds state results) state written.state := by
  induction fds generalizing state results written with
  | nil =>
      cases wrote
      exact ⟨rfl, rfl, fun _ member => member, fun _ _ => rfl, fun _ none => by cases none⟩
  | cons fd fds ih =>
      obtain ⟨absent, distinct⟩ := List.nodup_cons.mp distinct
      obtain ⟨data, found, step⟩ := writeSockets_cons wrote
      cases step with
      | skipped full rest =>
          simp only [missed, found, if_pos full]
          have rest := ih distinct rest
          refine ⟨rest.initial, rest.cache, rest.registered, fun other elsewhere =>
            rest.others other fun member => elsewhere (List.mem_cons_of_mem _ member), ?_⟩
          intro other member registered
          rcases List.mem_cons.mp member with here | later
          · exact .inr ⟨here ▸ rest.others fd absent, here ▸ List.mem_cons_self⟩
          · rcases rest.reached other later registered with got | ⟨same, skipped⟩
            · exact .inl got
            · exact .inr ⟨same, List.mem_cons_of_mem _ skipped⟩
      | failed room wroteFirst bad =>
          simp only [missed, found, if_neg room, wroteFirst, bad, if_neg Bool.false_ne_true]
          obtain ⟨_, initial, cache⟩ := writeFd_records wroteFirst
          refine ⟨initial, cache, ?_, ?_, ?_⟩
          · intro other registered
            exact (writeFd_registered wroteFirst registered).1
          · intro other elsewhere
            exact writeFd_frames_of_ne wroteFirst (not_or.mp (List.mem_cons.not.mp elsewhere)).1
          · intro other member registered
            have different : other ≠ fd := (writeFd_registered wroteFirst registered).2 bad
            rcases List.mem_cons.mp member with here | later
            · exact absurd here different
            · exact .inr ⟨writeFd_frames_of_ne wroteFirst different, later⟩
      | served room wroteFirst good rest =>
          rename_i first final
          simp only [missed, found, if_neg room, wroteFirst, if_pos good]
          obtain ⟨frames, initial, cache⟩ := writeFd_records wroteFirst
          have appended : first.state.frames fd = state.frames fd ++ [msg] := by
            rw [frames]
            exact Function.update_self ..
          have rest := ih distinct rest
          refine ⟨rest.initial.trans initial, rest.cache.trans cache, ?_, ?_, ?_⟩
          · intro other registered
            exact (writeFd_registered wroteFirst (rest.registered other registered)).1
          · intro other elsewhere
            obtain ⟨different, elsewhere⟩ := not_or.mp (List.mem_cons.not.mp elsewhere)
            exact (rest.others other elsewhere).trans (writeFd_frames_of_ne wroteFirst different)
          · intro other member registered
            rcases List.mem_cons.mp member with here | later
            · exact .inl (here ▸ (rest.others fd absent).trans appended)
            · have different : other ≠ fd := fun same => absent (same ▸ later)
              rw [← writeFd_frames_of_ne wroteFirst different]
              exact rest.reached other later registered

theorem writeFd_delivered {state : Publishing} {topic : String} {fd : Nat}
    {results : List WriteResult} {written : Written}
    (wrote : state.writeFd topic fd results = some written) (msg : List UInt8) :
    Delivered topic msg [] [] state written.state := by
  obtain ⟨frames, initial, cache⟩ := writeFd_records wrote
  exact ⟨initial, cache, fun other registered => (writeFd_registered wrote registered).1,
    fun other _ => by rw [frames], fun _ none => by cases none⟩

theorem new_sound : new.Sound where
  intact _ _ member := by cases member
  opened member := by cases member
  single member := by cases member

end Publishing

/-! ## The invariant -/

namespace Latching

/-- The stream of the socket has frames of the cache only, and all of them but those whose
write is pending and was not yet cached when the socket was completed. -/
def Carrying (topic : String) (latching : Latching) (fd : Nat) : Prop :=
  ∃ replayed : List (List UInt8),
    latching.publishing.initial fd = replayed.flatten ∧
    (∀ frame ∈ replayed ++ latching.publishing.frames fd,
      frame ∈ latching.publishing.client.staticTopicCache topic) ∧
    ∀ msg ∈ latching.publishing.client.staticTopicCache topic,
      msg ∈ replayed ++ latching.publishing.frames fd ∨
        ∃ latch ∈ latching.pending, latch.msg = msg ∧ fd ∉ latch.joined

structure Complete (topic : String) (latching : Latching) : Prop where
  sound : latching.publishing.Sound
  carrying : ∀ fd ∈ latching.publishing.client.clientsTopicFd topic, latching.Carrying topic fd
  cached : ∀ latch ∈ latching.pending,
    latch.msg ∈ latching.publishing.client.staticTopicCache topic

theorem complete_initial (topic : String) : Complete topic initial where
  sound := Publishing.new_sound
  carrying _ member := by cases member
  cached _ member := by cases member

theorem Complete.latched {topic : String} {latching : Latching}
    (complete : Complete topic latching) : Latched topic latching := by
  intro idle msg cached fd registered
  obtain ⟨replayed, initial, frames, present⟩ := complete.carrying fd registered
  obtain ⟨data, located, sum⟩ := complete.sound.intact topic fd registered
  have member : msg ∈ replayed ++ latching.publishing.frames fd := by
    rcases present msg cached with member | ⟨latch, waiting, _⟩
    · exact member
    · rw [idle] at waiting
      cases waiting
  obtain ⟨before, after, split⟩ := List.append_of_mem member
  refine ⟨data, before, after, located, fun frame inside => ?_, ?_⟩
  · apply frames
    rw [split]
    rcases List.mem_append.mp inside with early | late
    · exact List.mem_append_left _ early
    · exact List.mem_append_right _ (List.mem_cons_of_mem _ late)
  · rw [sum, initial, ← List.flatten_append, split]

/-- A message that is cached already is not published again. -/
theorem Complete.writeToCache {topic : String} {latching : Latching}
    (complete : Complete topic latching) {msg : List UInt8} {written : Publishing.Written}
    (performed : latching.publishing.perform (.writeToCache topic msg) = some written) :
    Complete topic { publishing := written.state
                     pending := latching.advance written.ok (.writeToCache msg) } := by
  obtain rfl := Option.some.inj performed
  have cache : ∀ other, other ∈ Function.update latching.publishing.client.staticTopicCache topic
      (insert msg (latching.publishing.client.staticTopicCache topic)) topic ↔
      other = msg ∨ other ∈ latching.publishing.client.staticTopicCache topic := by
    intro other
    rw [Function.update_self, Finset.mem_insert]
  have waiting : ∀ latch ∈ latching.pending, latch ∈ latching.advance
      (msg ∉ latching.publishing.client.staticTopicCache topic) (.writeToCache msg) := by
    intro latch member
    simp only [advance]
    split
    · exact List.mem_append_left _ member
    · exact member
  refine ⟨⟨complete.sound.intact, complete.sound.opened, complete.sound.single⟩, ?_, ?_⟩
  · intro fd registered
    obtain ⟨replayed, initial, frames, present⟩ := complete.carrying fd registered
    refine ⟨replayed, initial, fun frame member => (cache frame).mpr (.inr (frames frame member)),
      fun other member => ?_⟩
    by_cases known : other ∈ latching.publishing.client.staticTopicCache topic
    · rcases present other known with there | ⟨latch, pending, same, apart⟩
      · exact .inl there
      · exact .inr ⟨latch, waiting latch pending, same, apart⟩
    · have here : other = msg := ((cache other).mp member).resolve_right known
      refine .inr ⟨⟨msg, ∅⟩, ?_, here.symm, Finset.notMem_empty fd⟩
      rw [here] at known
      simp only [advance, known, not_false_eq_true, decide_true, if_true]
      exact List.mem_append_right _ List.mem_cons_self
  · intro latch member
    simp only [advance] at member
    split at member
    · rcases List.mem_append.mp member with old | new
      · exact (cache _).mpr (.inr (complete.cached latch old))
      · cases List.mem_singleton.mp new
        exact (cache _).mpr (.inl rfl)
    · exact (cache _).mpr (.inr (complete.cached latch member))

/-- The write of a pending message reaches every socket that has not got it. -/
theorem Complete.writeToSocket {topic : String} {latching : Latching}
    (complete : Complete topic latching) {index : Nat} {latch : Latch}
    (located : latching.pending[index]? = some latch) {order : List Nat} {missed : List Nat}
    {before after : Publishing} (sound : after.Sound)
    (delivered : Publishing.Delivered topic latch.msg order missed before after)
    (frames : before.frames = latching.publishing.frames)
    (initial : before.initial = latching.publishing.initial)
    (client : before.client = latching.publishing.client)
    (all : ∀ fd ∈ latching.publishing.client.clientsTopicFd topic, fd ∈ order)
    (joined : ∀ fd ∈ missed, fd ∈ latch.joined) :
    Complete topic { publishing := after, pending := latching.pending.eraseIdx index } := by
  have cache : after.client.staticTopicCache = latching.publishing.client.staticTopicCache := by
    rw [delivered.cache, client]
  have other : ∀ waiting ∈ latching.pending, waiting = latch ∨
      waiting ∈ latching.pending.eraseIdx index := by
    intro waiting member
    obtain ⟨position, found⟩ := List.mem_iff_getElem?.mp member
    by_cases here : position = index
    · rw [here, located] at found
      exact .inl (Option.some.inj found).symm
    · exact .inr (List.mem_eraseIdx_iff_getElem?.mpr ⟨position, here, found⟩)
  refine ⟨sound, ?_, ?_⟩
  · intro fd registered
    have old := delivered.registered fd registered
    rw [client] at old
    obtain ⟨replayed, start, within, present⟩ := complete.carrying fd old
    have reached := delivered.reached fd (all fd old) registered
    rw [frames] at reached
    refine ⟨replayed, ?_, ?_, ?_⟩
    · dsimp only
      rw [delivered.initial, initial, start]
    · intro frame member
      dsimp only at member ⊢
      rw [cache]
      rcases reached with got | ⟨same, _⟩
      · rw [got, ← List.append_assoc] at member
        rcases List.mem_append.mp member with before | here
        · exact within frame before
        · rw [List.mem_singleton.mp here]
          exact complete.cached latch (List.mem_of_getElem? located)
      · rw [same] at member
        exact within frame member
    · intro msg member
      dsimp only at member ⊢
      rw [cache] at member
      have grown : ∀ frame ∈ replayed ++ latching.publishing.frames fd,
          frame ∈ replayed ++ after.frames fd := by
        intro frame member
        rcases reached with got | ⟨same, _⟩
        · rw [got, ← List.append_assoc]
          exact List.mem_append_left _ member
        · rw [same]
          exact member
      rcases present msg member with there | ⟨waiting, pending, same, apart⟩
      · exact .inl (grown msg there)
      · rcases other waiting pending with rfl | still
        · rcases reached with got | ⟨_, skipped⟩
          · refine .inl ?_
            rw [got, ← same]
            exact List.mem_append_right _ (List.mem_append_right _ List.mem_cons_self)
          · exact absurd (joined fd skipped) apart
        · exact .inr ⟨waiting, still, same, apart⟩
  · intro waiting member
    dsimp only at member ⊢
    rw [cache]
    exact complete.cached waiting (List.mem_of_mem_eraseIdx member)

/-- A new socket gets the whole cache, that of the pending messages included. -/
theorem Complete.complete {topic : String} {latching : Latching}
    (complete : Complete topic latching) {fd : Nat} {cache : List (List UInt8)}
    (whole : cache.toFinset = latching.publishing.client.staticTopicCache topic)
    {before after : Publishing} (sound : after.Sound)
    (delivered : Publishing.Delivered topic [] [] [] (before.connect topic fd cache) after)
    (frames : before.frames = latching.publishing.frames)
    (initial : before.initial = latching.publishing.initial)
    (client : before.client = latching.publishing.client) :
    Complete topic { publishing := after
                     pending := latching.pending.map fun latch =>
                       { latch with joined := insert fd latch.joined } } := by
  have kept : after.client.staticTopicCache = latching.publishing.client.staticTopicCache :=
    delivered.cache.trans (congrArg (fun client => client.staticTopicCache) client)
  refine ⟨sound, ?_, ?_⟩
  · intro other registered
    have records := delivered.others other List.not_mem_nil
    have start := congrFun delivered.initial other
    simp only [Publishing.connect, frames, initial] at records start
    by_cases here : other = fd
    · rw [here, Function.update_self] at records start
      refine ⟨cache, ?_, ?_, ?_⟩
      · rw [here]
        exact start
      · intro frame member
        dsimp only at member ⊢
        rw [here, records, List.append_nil] at member
        rw [kept, ← whole]
        exact List.mem_toFinset.mpr member
      · intro msg member
        dsimp only at member
        rw [kept, ← whole] at member
        exact .inl (List.mem_append_left _ (List.mem_toFinset.mp member))
    · rw [Function.update_of_ne here] at records start
      have old : other ∈ latching.publishing.client.clientsTopicFd topic := by
        rcases Publishing.mem_connect.mp (delivered.registered other registered) with new | old
        · exact absurd new.2 here
        · exact client ▸ old
      obtain ⟨replayed, first, within, present⟩ := complete.carrying other old
      refine ⟨replayed, start.trans first, fun frame member => ?_, fun msg member => ?_⟩
      · dsimp only at member ⊢
        rw [records] at member
        rw [kept]
        exact within frame member
      · dsimp only at member ⊢
        rw [kept] at member
        rw [records]
        rcases present msg member with there | ⟨latch, pending, same, apart⟩
        · exact .inl there
        · refine .inr ⟨_, List.mem_map_of_mem pending, same, ?_⟩
          intro joined
          rcases Finset.mem_insert.mp joined with new | before
          · exact here new
          · exact apart before
  · intro latch member
    obtain ⟨before, pending, rfl⟩ := List.mem_map.mp member
    dsimp only
    rw [kept]
    exact complete.cached before pending

theorem Complete.step {topic : String} {latching next : Latching} {move : LatchMove}
    (complete : Complete topic latching)
    (allowed : NoneMissed topic latching move ∧ NoStickyPartial topic latching move)
    (stepped : latching.step topic move = some next) : Complete topic next := by
  obtain ⟨missed, quiet⟩ := allowed
  obtain ⟨operation, chosen, stepped⟩ := Option.bind_eq_some_iff.mp stepped
  obtain ⟨written, performed, rfl⟩ := Option.map_eq_some_iff.mp stepped
  have sound := (complete.sound.perform performed).1 (quiet operation chosen written performed)
  cases move with
  | writeToCache msg =>
      cases chosen
      exact complete.writeToCache performed
  | writeToSocket index order errno results =>
      obtain ⟨latch, located, rfl⟩ := Option.map_eq_some_iff.mp chosen
      simp only [Publishing.perform] at performed
      split at performed
      · rename_i enabled
        have delivered := Publishing.writeSockets_delivered enabled.1 performed
        have all : ∀ fd ∈ latching.publishing.client.clientsTopicFd topic, fd ∈ order :=
          fun fd member => List.mem_toFinset.mp (enabled.2 ▸ member)
        exact complete.writeToSocket located sound delivered rfl rfl rfl all (missed latch located)
      · cases performed
  | complete fd cache errno results =>
      cases chosen
      simp only [Publishing.perform, Publishing.complete] at performed
      split at performed
      · rename_i enabled
        have delivered := Publishing.writeFd_delivered performed []
        exact complete.complete enabled.2.2.2 sound delivered rfl rfl rfl
      · cases performed

/-- Every latched message reaches every subscriber in any run in which no write of one
passes over a socket that needs it, or leaves a partial write uncounted. -/
theorem latched_of_noneMissed (topic : String) (run : List LatchMove)
    (allowed : (machine topic).Obeys (fun latching move =>
      NoneMissed topic latching move ∧ NoStickyPartial topic latching move) initial run) :
    (machine topic).Along (Latched topic) initial run := by
  have complete := (machine topic).along_of_obeys
    (fun _ _ _ valid permitted stepped => Complete.step valid permitted stepped)
    (complete_initial topic) allowed
  exact complete.mono fun _ valid => valid.latched

def hello : List UInt8 := [2, 0, 0, 0, 8, 1]

/-- The second socket is completed between the two steps of a publication, and fails as
the last one of the write. -/
def joinedBetween : List LatchMove :=
  [.complete 0 [] 0 [], .writeToCache hello, .complete 1 [hello] 0 [.accepted 6],
    .writeToSocket 0 [0, 1] 0 [.accepted 6, .error 32], .writeToCache hello]

theorem latched_of_noneMissed_joinedBetween :
    (machine "hello").Along (Latched "hello") initial joinedBetween :=
  latched_of_noneMissed "hello" joinedBetween (by decide +kernel)

/-- The first of two sockets has been closed by its subscriber when the message is written. -/
def firstClosed : List LatchMove :=
  [.complete 0 [] 0 [], .complete 1 [] 0 [], .writeToCache hello,
    .writeToSocket 0 [0, 1] 0 [.error 32]]

theorem firstClosed_not_latched :
    ¬ (machine "hello").Along (Latched "hello") initial firstClosed := by
  intro along
  have evaluated : ((machine "hello").exec initial firstClosed).map (fun final =>
      (final.pending, (final.publishing.client.staticTopicCache "hello",
        final.publishing.client.clientsTopicFd "hello"),
        final.publishing.client.clientsData[1]?.map (final.publishing.kernel.accepted 1 ++ ·))) =
      some ([], ({hello}, {1}), some []) := by
    decide +kernel
  obtain ⟨final, executed, same⟩ := Option.map_eq_some_iff.mp evaluated
  simp only [Prod.mk.injEq] at same
  obtain ⟨idle, ⟨cache, registered⟩, empty⟩ := same
  obtain ⟨data, before, after, located, _, stream⟩ := along.final executed idle hello
    (cache ▸ Finset.mem_singleton_self hello) 1 (registered ▸ Finset.mem_singleton_self 1)
  rw [located, Option.map_some, stream, Option.some.injEq, List.flatten_eq_nil_iff] at empty
  have nothing := empty hello (List.mem_append_right _ List.mem_cons_self)
  cases nothing

end Latching

end ProtoCore.Topic
