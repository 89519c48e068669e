import ProtoCore.Topic.Fanout

/-!
# The backlog of a socket

The bytes a socket has not taken are written by the next `write_to_socket` of its topic, but
one that finds more than `MAX_WRITE_BUFFER_SIZE` of them passes the socket over. Nothing
else writes them.
-/

set_option autoImplicit false

namespace ProtoCore.Topic

open Library

/-- Every call of `write(2)` takes all the bytes it is offered. -/
def AcceptsAll (calls : List WriteCall) : Prop :=
  ∀ call ∈ calls, call.result = .accepted call.offered.toNat

instance (calls : List WriteCall) : Decidable (AcceptsAll calls) :=
  inferInstanceAs (Decidable (∀ call ∈ calls, _))

theorem writeLoop_call {fd : Nat} {toSend : List UInt8} {siz n : Int} {result : WriteResult}
    {results : List WriteResult} {kernel : Kernel} {final : WriteLoopEnd} (left : 0 < n)
    (looped : writeLoop fd toSend siz (result :: results) n kernel = some final) :
    ⟨fd, n, kernel.errno, result⟩ ∈ final.calls := by
  simp only [writeLoop, if_pos left] at looped
  cases wrote : kernel.write fd ((toSend.drop (siz - n).toNat).take n.toNat) result with
  | none =>
      rw [wrote] at looped
      cases looped
  | some outcome =>
      obtain ⟨nwrite, next⟩ := outcome
      simp only [wrote] at looped
      by_cases fails : nwrite < n ∧ nwrite = -1 ∧ next.errno ≠ EAGAIN
      · rw [if_pos fails] at looped
        cases looped
        exact List.mem_singleton_self _
      · rw [if_neg fails] at looped
        by_cases breaks : nwrite < n ∧ next.errno = EAGAIN
        · rw [if_pos breaks] at looped
          cases looped
          exact List.mem_singleton_self _
        · rw [if_neg breaks] at looped
          obtain ⟨rest, _, rfl⟩ := Option.map_eq_some_iff.mp looped
          exact List.mem_cons_self

/-- A socket that takes all it is offered is offered all, up to the sizes that wrap. -/
theorem writeLoop_all {fd : Nat} {toSend : List UInt8} {results : List WriteResult}
    {kernel : Kernel} {final : WriteLoopEnd}
    (looped : writeLoop fd toSend (int32 toSend.length) results (int32 toSend.length) kernel =
      some final) (accepts : AcceptsAll final.calls) :
    final.ok = true ∧ (toSend.drop (int32 toSend.length - final.n).toNat = [] ↔
      toSend.length < 2 ^ 31) := by
  have small := int32_le (Int.natCast_nonneg toSend.length)
  have whole : int32 toSend.length = toSend.length ↔ toSend.length < 2 ^ 31 :=
    (int32_eq_iff (Int.natCast_nonneg toSend.length)).trans (by omega)
  generalize int32 toSend.length = siz at looped small whole ⊢
  by_cases left : 0 < siz
  · cases results with
    | nil =>
        rw [writeLoop, if_pos left] at looped
        cases looped
    | cons result results =>
        obtain ⟨n, rfl⟩ : ∃ n : Nat, siz = n := ⟨siz.toNat, by omega⟩
        have called := accepts _ (writeLoop_call left looped)
        simp only [Int.toNat_natCast] at called
        subst called
        rw [writeLoop_accepted fd (by omega) (Nat.le_refl n) (by omega) (Nat.le_refl n),
          if_neg (fun held => Nat.lt_irrefl n held.1), Nat.sub_self, Nat.cast_zero,
          writeLoop_idle (Int.le_refl 0)] at looped
        cases looped
        refine ⟨rfl, ?_⟩
        rw [List.drop_eq_nil_iff, ← whole]
        dsimp only
        omega
  · rw [writeLoop_idle (Int.not_lt.mp left)] at looped
    cases looped
    refine ⟨rfl, ?_⟩
    rw [List.drop_eq_nil_iff, ← whole]
    dsimp only
    omega

namespace Publishing

/-- The socket is not passed over, and `int` holds the size of what is written. -/
structure Drains (state : Publishing) (msg : List UInt8) (fd : Nat) : Prop where
  room : (state.client.clientsData[fd]?.getD []).length ≤ maxWriteBufferSize
  size : (state.client.clientsData[fd]?.getD []).length + msg.length < 2 ^ 31

theorem Drains.same {left right : Publishing} {msg : List UInt8} {fd : Nat}
    (same : SameStream fd left right) : right.Drains msg fd ↔ left.Drains msg fd := by
  constructor
  · intro drains
    exact ⟨same.data ▸ drains.room, same.data ▸ drains.size⟩
  · intro drains
    exact ⟨same.data.symm ▸ drains.room, same.data.symm ▸ drains.size⟩

theorem writeFd_all {state : Publishing} {topic : String} {fd : Nat} {toSend : List UInt8}
    {results : List WriteResult} {written : Written}
    (located : state.client.clientsData[fd]? = some toSend)
    (wrote : state.writeFd topic fd results = some written)
    (accepts : AcceptsAll written.calls) :
    written.ok = true ∧
      (written.state.client.clientsData[fd]? = some [] ↔ toSend.length < 2 ^ 31) := by
  have inside := (List.getElem?_eq_some_iff.mp located).1
  simp only [writeFd, located] at wrote
  obtain ⟨final, looped, rfl⟩ := Option.map_eq_some_iff.mp wrote
  obtain ⟨good, empty⟩ := writeLoop_all looped accepts
  refine ⟨good, ?_⟩
  dsimp only
  rw [if_pos good, ← empty]
  have unsent : ∀ data,
      (state.keepUnsent fd data final.kernel).client.clientsData[fd]? = some data :=
    fun data => List.getElem?_set_self inside
  rw [unsent, Option.some.injEq]

/-- A loop in which every write takes all it is offered, one socket after the other. -/
theorem writeSockets_all {topic : String} {msg : List UInt8} {fds : List Nat}
    (distinct : fds.Nodup) {state : Publishing} {results : List WriteResult} {written : Written}
    (wrote : writeSockets topic msg fds state results = some written)
    (accepts : AcceptsAll written.calls) {fd : Nat} (member : fd ∈ fds) :
    written.state.client.clientsData[fd]? = some [] ↔ state.Drains msg fd := by
  induction fds generalizing state results written with
  | nil => cases member
  | cons first fds ih =>
      obtain ⟨absent, distinct⟩ := List.nodup_cons.mp distinct
      obtain ⟨data, located, served⟩ := writeSockets_cons wrote
      have found : (state.append first data msg).client.clientsData[first]? =
          some (data ++ msg) :=
        List.getElem?_set_self (List.getElem?_eq_some_iff.mp located).1
      cases served with
      | skipped full rest =>
          rcases List.mem_cons.mp member with rfl | later
          · rw [(writeSockets_same rest absent).data, located, Option.some.injEq]
            refine ⟨fun empty => ?_, fun drains => ?_⟩
            · rw [empty] at full
              cases full
            · have room := drains.room
              rw [located] at room
              exact absurd room (Nat.not_le_of_lt full)
          · exact ih distinct rest accepts later
      | failed room wroteFirst bad =>
          rw [(writeFd_all found wroteFirst accepts).1] at bad
          cases bad
      | served room wroteFirst good rest =>
          rename_i head final
          have all := writeFd_all found wroteFirst fun call called =>
            accepts call (List.mem_append_left _ called)
          rcases List.mem_cons.mp member with rfl | later
          · have kept := (writeSockets_same rest absent).data
            have empty : final.state.client.clientsData[fd]? = some [] ↔
                (data ++ msg).length < 2 ^ 31 := by
              rw [kept]
              exact all.2
            rw [List.length_append] at empty
            refine empty.trans ⟨fun size => ?_, fun drains => ?_⟩
            · refine ⟨?_, ?_⟩ <;> rw [located]
              · exact Nat.le_of_not_lt room
              · exact size
            · have size := drains.size
              rw [located] at size
              exact size
          · have different : fd ≠ first := by
              rintro rfl
              exact absent later
            have same := (append_same different data msg).trans
              ((writeFd_spec wroteFirst).same fd different)
            have drained := ih distinct rest (fun call called =>
              accepts call (List.mem_append_right head.calls called)) later
            exact drained.trans (Drains.same same)

/-- A call in which every write takes all it is offered leaves nothing behind exactly if it
finds no backlog above the limit, and no size that wraps. -/
theorem drained_iff_drains {state : Publishing} {topic : String} {msg : List UInt8}
    {order : List Nat} {errno : Int} {results : List WriteResult} {written : Written}
    (performed : state.perform (.writeToSocket topic msg order errno results) = some written)
    (accepts : AcceptsAll written.calls) :
    (∀ fd ∈ state.client.clientsTopicFd topic,
      written.state.client.clientsData[fd]? = some []) ↔
      ∀ fd ∈ state.client.clientsTopicFd topic, state.Drains msg fd := by
  simp only [perform] at performed
  by_cases enumerates : order.Nodup ∧ order.toFinset = state.client.clientsTopicFd topic
  · rw [if_pos enumerates] at performed
    have drained : ∀ fd ∈ state.client.clientsTopicFd topic,
        (written.state.client.clientsData[fd]? = some [] ↔ state.Drains msg fd) := by
      intro fd member
      rw [← enumerates.2, List.mem_toFinset] at member
      have unchanged : SameStream fd state
          { state with kernel := { state.kernel with errno := errno } } :=
        ⟨rfl, rfl, rfl, rfl, fun _ => Iff.rfl⟩
      exact (writeSockets_all enumerates.1 performed accepts member).trans (Drains.same unchanged)
    exact forall₂_congr drained
  · rw [if_neg enumerates] at performed
    cases performed

theorem drained_iff_drains_one :
    ∃ written, oneSubscriber.perform
        (.writeToSocket "hello" [0, 0, 0, 0] [0] 0 [.accepted 4]) = some written ∧
      AcceptsAll written.calls ∧
      ((∀ fd ∈ oneSubscriber.client.clientsTopicFd "hello",
        written.state.client.clientsData[fd]? = some []) ↔
          ∀ fd ∈ oneSubscriber.client.clientsTopicFd "hello",
            oneSubscriber.Drains [0, 0, 0, 0] fd) := by
  have performed : oneSubscriber.perform
      (.writeToSocket "hello" [0, 0, 0, 0] [0] 0 [.accepted 4]) = some _ := rfl
  have accepts : AcceptsAll [(⟨0, 4, 0, .accepted 4⟩ : WriteCall)] := by decide
  exact ⟨_, performed, accepts, drained_iff_drains performed accepts⟩

/-- A subscriber connects, and is full when a message is published. -/
def publishToFull (msg : List UInt8) : List Operation :=
  [.complete "hello" 0 [] 0 [], .writeToSocket "hello" msg [0] 0 [.error EAGAIN]]

theorem publishToFull_backlog {msg : List UInt8} (positive : 0 < msg.length)
    (size : msg.length < 2 ^ 31) :
    ∃ state, machine.exec new (publishToFull msg) = some state ∧
      state.client.clientsTopicFd "hello" = {0} ∧ state.client.clientsData[0]? = some msg := by
  obtain ⟨connected, completed, topics, empty⟩ : ∃ connected,
      machine.step new (.complete "hello" 0 [] 0 []) = some connected ∧
        connected.client.clientsTopicFd "hello" = {0} ∧
        connected.client.clientsData[0]? = some [] := ⟨_, rfl, rfl, rfl⟩
  have siz : (int32 msg.length).toNat = msg.length := by
    rw [(int32_eq_iff (Int.natCast_nonneg msg.length)).mpr (by omega), Int.toNat_natCast]
  obtain ⟨last, length⟩ : ∃ last, msg.length = last + 1 := ⟨msg.length - 1, by omega⟩
  let start : Publishing :=
    { connected with kernel := { connected.kernel with errno := 0 } }
  have found : (start.append 0 [] msg).client.clientsData[0]? = some msg :=
    List.getElem?_set_self (List.getElem?_eq_some_iff.mp empty).1
  obtain ⟨written, wrote, result⟩ := writeFd_result "hello" found
    (show lasts _ [.error EAGAIN] = true by rw [siz, length]; rfl)
    (fun _ _ _ same => by cases same)
  have errno : (start.append 0 [] msg).kernel.errno = 0 := rfl
  have kept : written.ok = true := by
    rw [result.ok, siz, length, errno]
    rfl
  have data := result.data
  rw [kept, if_pos rfl, siz, errno, length] at data
  have looped : writeSockets "hello" msg [0] start [.error EAGAIN] = some {
      ok := true, state := written.state, results := written.results,
      calls := written.calls ++ [] } := by
    simp only [writeSockets, start, empty] at wrote ⊢
    rw [if_neg (show ¬ maxWriteBufferSize < ([] : List UInt8).length from Nat.not_lt_zero _)]
    simp only [wrote, kept]
    rfl
  have performed : machine.step connected (.writeToSocket "hello" msg [0] 0 [.error EAGAIN]) =
      some written.state := by
    have enumerates : [0].Nodup ∧ [0].toFinset = connected.client.clientsTopicFd "hello" :=
      ⟨List.nodup_singleton 0, by rw [topics]; rfl⟩
    simp only [machine, perform]
    rw [if_pos enumerates]
    exact congrArg (Option.map Written.state) looped
  refine ⟨written.state, ?_, ?_, data⟩
  · rw [publishToFull, machine.exec_cons, completed, Option.bind_some, machine.exec_cons,
      performed]
    rfl
  · rw [((writeFd_spec wrote).kept kept).1]
    exact topics

/-- A single message above the limit is never written once its first write finds no room. -/
theorem oversized_not_drained :
    ∃ state written,
      machine.exec new (publishToFull (List.replicate 65537 0)) = some state ∧
      state.perform (.writeToSocket "hello" [0, 0, 0, 0] [0] 0 []) = some written ∧
      AcceptsAll written.calls ∧
      ¬ ∀ fd ∈ state.client.clientsTopicFd "hello",
        written.state.client.clientsData[fd]? = some [] := by
  have length : (List.replicate 65537 (0 : UInt8)).length = 65537 := List.length_replicate
  obtain ⟨state, executed, topics, backlog⟩ := publishToFull_backlog
    (show 0 < (List.replicate 65537 (0 : UInt8)).length by omega) (by omega)
  generalize List.replicate 65537 (0 : UInt8) = msg at length executed backlog
  refine ⟨state, ⟨true, { state with kernel := { state.kernel with errno := 0 } }, [], []⟩,
    executed, ?_, nofun, fun drained => ?_⟩
  · have enumerates : [0].Nodup ∧ [0].toFinset = state.client.clientsTopicFd "hello" :=
      ⟨List.nodup_singleton 0, by rw [topics]; rfl⟩
    simp only [perform]
    rw [if_pos enumerates]
    simp only [writeSockets, backlog]
    rw [if_pos (by rw [length]; decide)]
  · have empty := drained 0 (by rw [topics]; exact Finset.mem_singleton_self 0)
    cases backlog.symm.trans empty
    cases length

end Publishing

end ProtoCore.Topic
