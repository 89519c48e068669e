import ProtoCore.Service.StreamPool

/-!
# Where a stream id is

Ids come from a counter and from the queue of those given back. Each is in one place at
any time, and the vectors are as long as the counter says.
-/

set_option autoImplicit false

namespace ProtoCore.Service

open Library

namespace PoolStage

def creator : PoolStage → Option Creator
  | .generate creator | .grow creator _ | .abortTestProcess creator _
  | .abortTestPrompted creator _ | .abortWrite creator _ | .get creator _ | .listen creator _
  | .killed creator _ => some creator
  | _ => none

/-- The id that has been generated and does not listen yet. -/
def inHand : PoolStage → List Nat
  | .grow _ id | .abortTestProcess _ id | .abortTestPrompted _ id | .abortWrite _ id
  | .get _ id | .listen _ id | .killed _ id => [id]
  | _ => []

/-- The listeners still to be made before the loop is idle. -/
def due (stage : PoolStage) : Nat :=
  match stage.creator with
  | some (.constructor left) => left + 1
  | some (.connect _) => 1
  | none => 0

/-- The id of the event that the loop handles. -/
def tag (stage : PoolStage) : Option Nat :=
  match stage.creator with
  | some (.constructor _) => none
  | some (.connect tag) => some tag
  | none =>
      match stage with
      | .suspendTestProcess tag | .suspendTestPrompted tag | .suspendWrite tag | .readFirst tag
      | .processed tag | .testSuspend tag | .processTest tag | .processWrite tag | .launch tag
      | .testProcess tag | .promptTest tag | .promptWrite tag | .readAgain tag => some tag
      | _ => none

/-- The ids that the vectors are indexed with. `grow` asks for their size first. -/
def indices : PoolStage → List Nat
  | .idle | .generate _ | .grow _ _ | .killed _ _ => []
  | stage => stage.inHand ++ stage.tag.toList

end PoolStage

namespace StreamPool

variable {Request Reply : Type}

structure Sized (pool : StreamPool Request Reply) (size : Nat) : Prop where
  streams : pool.streams.length = size
  contexts : pool.contexts.length = size
  requests : pool.requests.length = size
  callsStatus : pool.callsStatus.length = size
  futureStorages : pool.futureStorages.length = size
  replyWaitQueue : pool.replyWaitQueue.length = size

/-- Between two events each id below the counter is in one place, once; ten ids wait for their
CONNECT, and all vectors have an entry for each id. No index is ever out of range. -/
structure IdsPooled (pool : StreamPool Request Reply) : Prop where
  places : pool.loop = .idle → ∀ id, id < pool.streamId →
    pool.pulls.count id + pool.connected.count id + pool.reusableId.count id = 1
  listeners : pool.loop = .idle → pool.pulls.length = 10
  sizes : pool.loop = .idle → pool.Sized pool.streamId
  inRange : ∃ size, pool.Sized size ∧ ∀ id ∈ pool.loop.indices ++ pool.writes, id < size

/-- How often an id waits for its CONNECT, is connected, was given back or is in hand. -/
def placed (pool : StreamPool Request Reply) (id : Nat) : Nat :=
  pool.pulls.count id + pool.connected.count id + pool.reusableId.count id +
    pool.loop.inHand.count id

structure Counted (pool : StreamPool Request Reply) : Prop where
  inside : ∀ id, id < pool.streamId → pool.placed id = 1
  outside : ∀ id, pool.streamId ≤ id → pool.placed id = 0
  listeners : pool.pulls.length + pool.loop.due = 10
  sized : pool.Sized pool.streams.length
  length : pool.streams.length = pool.streamId ∨
    ∃ creator, pool.loop = .grow creator pool.streams.length ∧
      pool.streams.length + 1 = pool.streamId
  tag : ∀ tag ∈ pool.loop.tag, tag < pool.streams.length
  writes : ∀ id ∈ pool.writes, id < pool.streams.length

theorem Counted.inHand_lt {pool : StreamPool Request Reply} (counted : pool.Counted) {id : Nat}
    (held : pool.loop.inHand = [id]) : id < pool.streamId := by
  by_contra far
  have place := counted.outside id (Nat.le_of_not_lt far)
  rw [placed, held, List.count_singleton_self] at place
  omega

theorem Counted.pooled {pool : StreamPool Request Reply} (counted : pool.Counted) :
    pool.IdsPooled where
  places idle id near := by
    have place := counted.inside id near
    rw [placed, idle] at place
    exact place
  listeners idle := by
    have total := counted.listeners
    rw [idle] at total
    exact total
  sizes idle := by
    rcases counted.length with same | ⟨creator, growing, _⟩
    · exact same ▸ counted.sized
    · rw [idle] at growing
      cases growing
  inRange := by
    refine ⟨pool.streams.length, counted.sized, fun id member => ?_⟩
    rcases List.mem_append.mp member with used | written
    · have settled : (∀ creator id, pool.loop ≠ .grow creator id) →
          pool.streams.length = pool.streamId := by
        intro apart
        rcases counted.length with same | ⟨creator, growing, _⟩
        · exact same
        · exact absurd growing (apart creator _)
      have tag := counted.tag
      have held := @counted.inHand_lt
      cases stage : pool.loop with
      | idle | generate | grow | killed =>
          rw [stage] at used
          cases used
      | abortTestProcess creator other | abortTestPrompted creator other
      | abortWrite creator other | get creator other | listen creator other =>
          rw [stage] at used held settled tag
          have same := settled fun _ _ growing => by cases growing
          rcases List.mem_append.mp used with mine | events
          · cases List.mem_singleton.mp mine
            rw [same]
            exact held rfl
          · exact tag id (Option.mem_toList.mp events)
      | _ =>
          rw [stage] at used tag
          exact tag id (Option.mem_toList.mp used)
    · exact counted.writes id written

/-! ## What leaves the ids where they are -/

theorem Sized.setStatus {pool : StreamPool Request Reply} {size : Nat} (sized : pool.Sized size)
    (id : Nat) (status : ServiceCallStatus) : (pool.setStatus id status).Sized size :=
  { sized with
    callsStatus := by
      rw [StreamPool.setStatus, List.length_set]
      exact sized.callsStatus }

theorem Sized.setFuture {pool : StreamPool Request Reply} {size : Nat} (sized : pool.Sized size)
    (id : Nat) (future : TaskFuture Reply) : (pool.setFuture id future).Sized size :=
  { sized with
    futureStorages := by
      rw [StreamPool.setFuture, List.length_set]
      exact sized.futureStorages }

theorem Sized.setReading {pool : StreamPool Request Reply} {size : Nat} (sized : pool.Sized size)
    (id : Nat) (reading : Option Nat) : (pool.setReading id reading).Sized size :=
  { sized with
    streams := by
      rw [StreamPool.setReading, List.length_modify]
      exact sized.streams }

theorem Sized.setQueue {pool : StreamPool Request Reply} {size : Nat} (sized : pool.Sized size)
    (id : Nat) (queue : List (TaggedReply Reply)) :
    { pool with replyWaitQueue := pool.replyWaitQueue.set id queue }.Sized size :=
  { sized with
    replyWaitQueue := by
      rw [List.length_set]
      exact sized.replyWaitQueue }

/-- The loop, the places of the ids and the lengths stay as they are. -/
structure Unmoved (pool next : StreamPool Request Reply) : Prop where
  pulls : next.pulls = pool.pulls
  connected : next.connected = pool.connected
  reusableId : next.reusableId = pool.reusableId
  streamId : next.streamId = pool.streamId
  loop : next.loop = pool.loop
  sized : ∀ size, pool.Sized size → next.Sized size
  writes : ∀ id ∈ next.writes, id ∈ pool.writes ∨ id < pool.streams.length

theorem Unmoved.refl (pool : StreamPool Request Reply) : pool.Unmoved pool :=
  ⟨rfl, rfl, rfl, rfl, rfl, fun _ sized => sized, fun _ member => .inl member⟩

theorem Unmoved.setStatus {pool next : StreamPool Request Reply} (unmoved : pool.Unmoved next)
    (id : Nat) (status : ServiceCallStatus) : pool.Unmoved (next.setStatus id status) :=
  { unmoved with sized := fun size sized => (unmoved.sized size sized).setStatus id status }

theorem Unmoved.setFuture {pool next : StreamPool Request Reply} (unmoved : pool.Unmoved next)
    (id : Nat) (future : TaskFuture Reply) : pool.Unmoved (next.setFuture id future) :=
  { unmoved with sized := fun size sized => (unmoved.sized size sized).setFuture id future }

theorem Unmoved.setReading {pool next : StreamPool Request Reply} (unmoved : pool.Unmoved next)
    (id : Nat) (reading : Option Nat) : pool.Unmoved (next.setReading id reading) :=
  { unmoved with sized := fun size sized => (unmoved.sized size sized).setReading id reading }

theorem Unmoved.send {pool next : StreamPool Request Reply} (unmoved : pool.Unmoved next)
    {id : Nat} {stream : StreamObject} (located : id < pool.streams.length)
    (tagged : TaggedReply Reply) : pool.Unmoved (next.send id stream tagged) :=
  { unmoved with
    sized := fun size sized =>
      let kept := unmoved.sized size sized
      ⟨kept.streams, kept.contexts, kept.requests, kept.callsStatus, kept.futureStorages,
        kept.replyWaitQueue⟩
    writes := fun other member => by
      rcases List.mem_append.mp member with earlier | last
      · exact unmoved.writes other earlier
      · cases List.mem_singleton.mp last
        exact .inr located }

theorem Unmoved.writeReply {pool next : StreamPool Request Reply} (unmoved : pool.Unmoved next)
    (same : next.streams.length = pool.streams.length) (id : Nat) (tagged : TaggedReply Reply) :
    pool.Unmoved (next.writeReply id tagged) := by
  unfold StreamPool.writeReply
  split
  · rename_i located
    exact unmoved.send (same ▸ (List.getElem?_eq_some_iff.mp located).1) tagged
  · exact { unmoved with sized := fun size sized => (unmoved.sized size sized).setQueue id _ }
  · exact unmoved

theorem Unmoved.writeStatus {pool next : StreamPool Request Reply} (unmoved : pool.Unmoved next)
    (same : next.streams.length = pool.streams.length) (id : Nat) (status : ServiceCallStatus) :
    pool.Unmoved (next.writeStatus id status) := by
  unfold StreamPool.writeStatus
  split
  · exact unmoved
  · exact unmoved.writeReply same id _

theorem unmoved_taskStep {pool next : StreamPool Request Reply} {id : Nat}
    (stepped : pool.taskStep id = some next) : pool.Unmoved next := by
  have same := Unmoved.refl pool
  unfold StreamPool.taskStep at stepped
  cases running : pool.futureStorages[id]? with
  | none =>
      rw [running] at stepped
      cases stepped
  | some future =>
      rw [running] at stepped
      cases future with
      | empty => cases stepped
      | finished => cases stepped
      | running connection task =>
          cases task with
          | callback => cases stepped
          | setTestProcess setter | setTestPrompted setter =>
              cases stepped
              exact same.setFuture id _
          | setWrite setter =>
              cases stepped
              exact (same.setStatus id setter.status).setFuture id _
          | endStatus payload =>
              obtain ⟨status, _, rfl⟩ := Option.map_eq_some_iff.mp stepped
              exact (same.setStatus id (endStatus status)).setFuture id _
          | writeReply reply =>
              cases stepped
              exact (same.writeReply rfl id _).setFuture id _
          | suspendTestProcess | suspendTestPrompted =>
              cases stepped
              exact same.setFuture id _
          | suspendWrite =>
              cases stepped
              exact (same.setStatus id .suspend).setFuture id _

theorem unmoved_callbackStep {pool next : StreamPool Request Reply} {id : Nat}
    {task : TaskStep Reply} (stepped : pool.callbackStep id task = some next) :
    pool.Unmoved next := by
  unfold StreamPool.callbackStep at stepped
  split at stepped
  · cases stepped
    exact (Unmoved.refl pool).setFuture id _
  · cases stepped

theorem readEnds_eq_some {pool next : StreamPool Request Reply} {id : Nat}
    (ends : pool.readEnds id = some next) : ∃ stream, pool.streams[id]? = some stream ∧
      stream.reading.isSome = true ∧ next = pool.setReading id none := by
  unfold StreamPool.readEnds at ends
  split at ends
  · rename_i stream holder
    obtain ⟨reading, same⟩ := Option.ite_none_right_eq_some.mp ends
    exact ⟨stream, holder, reading, (Option.some.inj same).symm⟩
  · cases ends

theorem unmoved_readEnds {pool next : StreamPool Request Reply} {id : Nat}
    (stepped : pool.readEnds id = some next) :
    pool.Unmoved next ∧ id < pool.streams.length := by
  obtain ⟨_, located, _, rfl⟩ := readEnds_eq_some stepped
  exact ⟨(Unmoved.refl pool).setReading id none, (List.getElem?_eq_some_iff.mp located).1⟩

theorem length_store (pool : StreamPool Request Reply) (id : Nat)
    (request : ServiceRPCRequest Request) :
    (pool.store id request).length = pool.requests.length := by
  unfold store
  split
  · exact List.length_set ..
  · rfl

theorem unmoved_handleWrite (pool : StreamPool Request Reply) (id : Nat) :
    pool.Unmoved (pool.handleWrite id) := by
  unfold StreamPool.handleWrite
  split
  · rename_i tagged rest stream _ located
    have same := Unmoved.refl pool
    have dequeued : pool.Unmoved
        { pool with replyWaitQueue := pool.replyWaitQueue.set id rest } :=
      { same with sized := fun size sized => sized.setQueue id rest }
    exact dequeued.send (List.getElem?_eq_some_iff.mp located).1 _
  · exact Unmoved.refl pool

theorem Counted.unmoved {pool next : StreamPool Request Reply} (counted : pool.Counted)
    (unmoved : pool.Unmoved next) : next.Counted := by
  obtain ⟨pulls, connected, reusableId, streamId, loop, sized, writes⟩ := unmoved
  have sizes := sized _ counted.sized
  have placed (id : Nat) : next.placed id = pool.placed id := by
    rw [StreamPool.placed, StreamPool.placed, pulls, connected, reusableId, loop]
  refine ⟨?_, ?_, ?_, ?_, ?_, ?_, fun id member => ?_⟩
  · simp only [placed, streamId]
    exact counted.inside
  · simp only [placed, streamId]
    exact counted.outside
  · rw [pulls, loop]
    exact counted.listeners
  · exact sizes.streams.symm ▸ sizes
  · rw [sizes.streams, streamId, loop]
    exact counted.length
  · rw [sizes.streams, loop]
    exact counted.tag
  · rw [sizes.streams]
    rcases writes id member with earlier | located
    · exact counted.writes id earlier
    · exact located

/-! ## The steps of the loop -/

theorem Counted.settled {pool : StreamPool Request Reply} (counted : pool.Counted)
    (apart : ∀ creator id, pool.loop ≠ .grow creator id) :
    pool.streams.length = pool.streamId := by
  rcases counted.length with same | ⟨creator, growing, _⟩
  · exact same
  · exact absurd growing (apart creator _)

/-- The loop goes on within one event, with the same id in hand. -/
structure Follows (before after : PoolStage) : Prop where
  inHand : after.inHand = before.inHand
  due : after.due = before.due
  tag : ∀ tag ∈ after.tag, tag ∈ before.tag
  settled : ∀ creator id, before ≠ .grow creator id

theorem Follows.choose {before first second : PoolStage} {test : Prop} [Decidable test]
    (left : Follows before first) (right : Follows before second) :
    Follows before (if test then first else second) := by
  split
  · exact left
  · exact right

theorem Counted.advance {pool kept : StreamPool Request Reply} (counted : pool.Counted)
    (unmoved : pool.Unmoved kept) {before stage : PoolStage} (located : pool.loop = before)
    (follows : Follows before stage) : { kept with loop := stage }.Counted := by
  subst located
  obtain ⟨inHand, due, tag, apart⟩ := follows
  have after := counted.unmoved unmoved
  have same := unmoved.loop
  have placed (id : Nat) : { kept with loop := stage }.placed id = kept.placed id := by
    rw [StreamPool.placed, StreamPool.placed, same, ← inHand]
  refine ⟨?_, ?_, ?_, { after.sized with }, ?_, ?_, after.writes⟩
  · simp only [placed]
    exact after.inside
  · simp only [placed]
    exact after.outside
  · have total := after.listeners
    rw [same, ← due] at total
    exact total
  · exact .inl (after.settled (by rw [same]; exact apart))
  · intro id member
    apply after.tag id
    rw [same]
    exact tag id member

theorem Sized.pushBack {pool : StreamPool Request Reply} {size : Nat} (sized : pool.Sized size) :
    pool.pushBack.Sized (size + 1) := by
  obtain ⟨streams, contexts, requests, callsStatus, futureStorages, replyWaitQueue⟩ := sized
  refine ⟨?_, ?_, ?_, ?_, ?_, ?_⟩ <;>
    simp only [StreamPool.pushBack, List.length_append, List.length_singleton, *]

theorem Sized.listenOn {pool : StreamPool Request Reply} {size : Nat} (sized : pool.Sized size)
    (id : Nat) : (pool.listenOn id).Sized size := by
  obtain ⟨streams, contexts, requests, callsStatus, futureStorages, replyWaitQueue⟩ := sized
  refine ⟨?_, ?_, requests, callsStatus, futureStorages, replyWaitQueue⟩
  · rw [StreamPool.listenOn, List.length_modify]
    exact streams
  · rw [StreamPool.listenOn, List.length_set]
    exact contexts

theorem Counted.generate {pool next : StreamPool Request Reply} (counted : pool.Counted)
    {creator : Creator} (stage : pool.loop = .generate creator)
    (stepped : pool.createStep = some next) : next.Counted := by
  have settled := counted.settled fun _ _ growing => by rw [stage] at growing; cases growing
  obtain ⟨inside, outside, listeners, sized, _, tag, writes⟩ := counted
  have before (id : Nat) : pool.placed id =
      pool.pulls.count id + pool.connected.count id + pool.reusableId.count id := by
    rw [placed, stage]
    rfl
  rw [stage] at listeners tag
  unfold StreamPool.createStep at stepped
  simp only [stage] at stepped
  cases reusable : pool.reusableId with
  | nil =>
      rw [reusable] at stepped
      cases stepped
      have after (id : Nat) : pool.pulls.count id + pool.connected.count id + [].count id +
          [pool.streamId].count id = pool.placed id + if pool.streamId = id then 1 else 0 := by
        rw [before, reusable, List.count_singleton]
        simp only [beq_iff_eq]
      refine ⟨fun id near => ?_, fun id far => ?_, listeners, { sized with },
        .inr ⟨creator, ?_, ?_⟩, tag, writes⟩
      · refine (after id).trans ?_
        by_cases new : pool.streamId = id
        · rw [outside id (Nat.le_of_eq new), if_pos new]
        · rw [if_neg new, inside id (by simp only at near; omega)]
      · simp only at far
        refine (after id).trans ?_
        rw [outside id (by omega), if_neg (by omega)]
      · rw [settled]
      · rw [settled]
  | cons id rest =>
      rw [reusable] at stepped
      cases stepped
      have after (other : Nat) : pool.pulls.count other + pool.connected.count other +
          rest.count other + [id].count other = pool.placed other := by
        rw [before, reusable, show id :: rest = [id] ++ rest from rfl, List.count_append]
        omega
      exact ⟨fun other near => (after other).trans (inside other near),
        fun other far => (after other).trans (outside other far), listeners, { sized with },
        .inl settled, tag, writes⟩

theorem Counted.grow {pool next : StreamPool Request Reply} (counted : pool.Counted)
    {creator : Creator} {id : Nat} (stage : pool.loop = .grow creator id)
    (stepped : pool.createStep = some next) : next.Counted := by
  have inside := counted.inHand_lt (by rw [stage]; rfl)
  obtain ⟨near, far, listeners, sized, length, tag, writes⟩ := counted
  have placed (kept : StreamPool Request Reply) (pulls : kept.pulls = pool.pulls)
      (connected : kept.connected = pool.connected) (reusable : kept.reusableId = pool.reusableId)
      (other : Nat) :
      { kept with loop := .abortTestProcess creator id }.placed other = pool.placed other := by
    rw [StreamPool.placed, StreamPool.placed, stage, pulls, connected, reusable]
    rfl
  rw [stage] at listeners tag
  unfold StreamPool.createStep at stepped
  simp only [stage] at stepped
  cases stepped
  rcases length with same | ⟨_, growing, next⟩
  · rw [if_neg (by omega)]
    exact ⟨fun other inside => (placed pool rfl rfl rfl other).trans (near other inside),
      fun other outside => (placed pool rfl rfl rfl other).trans (far other outside), listeners,
      { sized with }, .inl same, tag, writes⟩
  · rw [stage] at growing
    cases growing
    rw [if_pos (Nat.le_refl _)]
    have grown : pool.pushBack.streams.length = pool.streams.length + 1 := sized.pushBack.streams
    refine ⟨fun other inside => (placed pool.pushBack rfl rfl rfl other).trans (near other inside),
      fun other outside => (placed pool.pushBack rfl rfl rfl other).trans (far other outside),
      listeners, ?_, .inl ?_, fun other member => ?_, fun other member => ?_⟩
    · exact { grown.symm ▸ sized.pushBack with }
    · exact grown.trans next
    · have := tag other member
      simp only [grown]
      omega
    · have := writes other member
      simp only [grown]
      omega

theorem Counted.listen {pool next : StreamPool Request Reply} (counted : pool.Counted)
    {creator : Creator} {id : Nat} (stage : pool.loop = .listen creator id)
    (stepped : pool.createStep = some next) : next.Counted := by
  have settled := counted.settled fun _ _ growing => by rw [stage] at growing; cases growing
  obtain ⟨near, far, listeners, sized, _, tag, writes⟩ := counted
  unfold StreamPool.createStep at stepped
  simp only [stage] at stepped
  cases stepped
  have sizes := sized.listenOn id
  have length : (pool.listenOn id).streams.length = pool.streams.length := sizes.streams
  have emptied : creator.next.inHand = [] := by
    rcases creator with ⟨_ | left⟩ | other <;> rfl
  have remaining : creator.next.due + 1 = (PoolStage.listen creator id).due := by
    rcases creator with ⟨_ | left⟩ | other <;> rfl
  have placed (other : Nat) :
      { pool.listenOn id with loop := creator.next }.placed other = pool.placed other := by
    have held : pool.loop.inHand = [id] := by rw [stage]; rfl
    change (pool.pulls ++ [id]).count other + pool.connected.count other +
      pool.reusableId.count other + creator.next.inHand.count other = pool.placed other
    rw [StreamPool.placed, held, emptied, List.count_append, List.count_nil]
    omega
  rw [stage] at listeners tag
  refine ⟨fun other inside => (placed other).trans (near other inside),
    fun other outside => (placed other).trans (far other outside), ?_, ?_, .inl ?_,
    fun other member => ?_, fun other member => ?_⟩
  · simp only [StreamPool.listenOn, List.length_append, List.length_singleton]
    omega
  · exact { length.symm ▸ sizes with }
  · exact length.trans settled
  · have same : creator.next.tag = (PoolStage.listen creator id).tag := by
      rcases creator with ⟨_ | left⟩ | other <;> rfl
    simp only [same] at member
    simp only [length]
    exact tag other member
  · simp only [length]
    exact writes other member

theorem Counted.createStep {pool next : StreamPool Request Reply} (counted : pool.Counted)
    (stepped : pool.createStep = some next) : next.Counted := by
  have same := Unmoved.refl pool
  have started := stepped
  unfold StreamPool.createStep at started
  cases stage : pool.loop with
  | generate creator => exact counted.generate stage stepped
  | grow creator id => exact counted.grow stage stepped
  | abortTestProcess creator id | abortTestPrompted creator id =>
      simp only [stage] at started
      cases started
      exact counted.advance same stage (.choose ⟨rfl, rfl, fun _ member => member, by simp⟩
        ⟨rfl, rfl, fun _ member => member, by simp⟩)
  | abortWrite creator id =>
      simp only [stage] at started
      cases started
      exact counted.advance (same.setStatus id .aborted) stage
        ⟨rfl, rfl, fun _ member => member, by simp⟩
  | get creator id =>
      simp only [stage] at started
      split at started
      · cases started
        exact counted.advance (same.setFuture id .empty) stage
          ⟨rfl, rfl, fun _ member => member, by simp⟩
      · cases started
        exact counted.advance same stage ⟨rfl, rfl, fun _ member => member, by simp⟩
      · cases started
  | listen creator id => exact counted.listen stage stepped
  | _ =>
      simp only [stage] at started
      cases started

theorem Counted.connectStep {pool next : StreamPool Request Reply} (counted : pool.Counted)
    (stepped : pool.connectStep = some next) : next.Counted := by
  have same := Unmoved.refl pool
  unfold StreamPool.connectStep at stepped
  cases stage : pool.loop with
  | suspendTestProcess tag | suspendTestPrompted tag =>
      simp only [stage] at stepped
      cases stepped
      exact counted.advance same stage (.choose ⟨rfl, rfl, fun _ member => member, by simp⟩
        ⟨rfl, rfl, fun _ member => member, by simp⟩)
  | suspendWrite tag =>
      simp only [stage] at stepped
      cases stepped
      exact counted.advance (same.setStatus tag .suspend) stage
        ⟨rfl, rfl, fun _ member => member, by simp⟩
  | readFirst tag =>
      simp only [stage] at stepped
      cases stepped
      exact counted.advance (same.setReading tag (some pool.allocation)) stage
        ⟨rfl, rfl, fun _ member => member, by simp⟩
  | processed tag =>
      simp only [stage] at stepped
      cases stepped
      exact counted.advance same stage ⟨rfl, rfl, fun _ member => (by cases member), by simp⟩
  | _ =>
      simp only [stage] at stepped
      cases stepped

theorem Counted.readStep {pool next : StreamPool Request Reply} (counted : pool.Counted)
    (stepped : pool.readStep = some next) : next.Counted := by
  have same := Unmoved.refl pool
  unfold StreamPool.readStep at stepped
  cases stage : pool.loop with
  | testSuspend tag | testProcess tag =>
      simp only [stage] at stepped
      obtain ⟨request, _, rfl⟩ := Option.map_eq_some_iff.mp stepped
      exact counted.advance same stage (.choose ⟨rfl, rfl, fun _ member => member, by simp⟩
        ⟨rfl, rfl, fun _ member => member, by simp⟩)
  | processTest tag | promptTest tag =>
      simp only [stage] at stepped
      cases stepped
      exact counted.advance same stage (.choose ⟨rfl, rfl, fun _ member => member, by simp⟩
        ⟨rfl, rfl, fun _ member => member, by simp⟩)
  | processWrite tag =>
      simp only [stage] at stepped
      cases stepped
      exact counted.advance ((same.setStatus tag .process).writeStatus rfl tag .process) stage
        ⟨rfl, rfl, fun _ member => member, by simp⟩
  | promptWrite tag =>
      simp only [stage] at stepped
      cases stepped
      exact counted.advance ((same.setStatus tag .prompted).writeStatus rfl tag .prompted) stage
        ⟨rfl, rfl, fun _ member => member, by simp⟩
  | launch tag =>
      simp only [stage, StreamPool.launchTask] at stepped
      split at stepped
      · rename_i future stream request _ _ _
        simp only [Option.ite_none_left_eq_some, Option.some.injEq] at stepped
        obtain ⟨_, rfl⟩ := stepped
        have launched : pool.Unmoved
            { pool.setFuture tag (.running stream.number .callback) with
              accepted := Function.update pool.accepted tag (pool.accepted tag ++ [request]) } :=
          { same with
            sized := fun size sized =>
              { sized.setFuture tag (.running stream.number .callback) with } }
        exact counted.advance launched stage ⟨rfl, rfl, fun _ member => member, by simp⟩
      · cases stepped
  | readAgain tag =>
      simp only [stage] at stepped
      cases stepped
      exact counted.advance (same.setReading tag (some pool.allocation)) stage
        ⟨rfl, rfl, fun _ member => (by cases member), by simp⟩
  | _ =>
      simp only [stage] at stepped
      cases stepped

theorem Counted.loopStep {pool next : StreamPool Request Reply} (counted : pool.Counted)
    (stepped : pool.loopStep = some next) : next.Counted := by
  unfold StreamPool.loopStep at stepped
  split at stepped
  case h_13 => exact counted.readStep stepped
  all_goals first | exact counted.createStep stepped | exact counted.connectStep stepped

/-! ## The events -/

theorem count_moved {left : List Nat} (right : List Nat) {moved : Nat} (present : moved ∈ left)
    (id : Nat) :
    (left.erase moved).count id + (right ++ [moved]).count id = left.count id + right.count id := by
  have positive : 0 < left.count moved := List.count_pos_iff.mpr present
  rw [List.count_append, List.count_singleton, List.count_erase]
  by_cases same : moved = id
  · subst same
    simp only [BEq.rfl, ↓reduceIte]
    omega
  · simp only [beq_iff_eq, same, ↓reduceIte]
    omega

theorem Counted.event {pool next : StreamPool Request Reply} {action : PoolAction Request Reply}
    (counted : pool.Counted) (idle : pool.loop = .idle) (stepped : pool.event action = some next) :
    next.Counted := by
  obtain ⟨inside, outside, listeners, sized, length, tag, writes⟩ := counted
  have counted : pool.Counted := ⟨inside, outside, listeners, sized, length, tag, writes⟩
  have settled := counted.settled (by rw [idle]; simp)
  have before (id : Nat) : pool.placed id =
      pool.pulls.count id + pool.connected.count id + pool.reusableId.count id := by
    rw [placed, idle]
    rfl
  cases action with
  | connect id =>
      simp only [StreamPool.event, Option.ite_none_right_eq_some, Option.some.injEq] at stepped
      obtain ⟨present, rfl⟩ := stepped
      have member : id ∈ pool.pulls := List.contains_iff_mem.mp present
      have after (other : Nat) : (pool.pulls.erase id).count other +
          (pool.connected ++ [id]).count other + pool.reusableId.count other + [].count other =
            pool.placed other := by
        have moved := count_moved pool.connected member other
        rw [before, List.count_nil]
        omega
      refine ⟨fun other near => (after other).trans (inside other near),
        fun other far => (after other).trans (outside other far), ?_, { sized with }, .inl settled,
        fun other same => ?_, writes⟩
      · rw [idle] at listeners
        have shorter := List.length_erase_of_mem member
        have positive := List.length_pos_of_mem member
        simp only [PoolStage.due, PoolStage.creator] at listeners ⊢
        omega
      · cases same
        by_contra far
        have place := outside id (settled ▸ Nat.le_of_not_lt far)
        have positive : 0 < pool.pulls.count id := List.count_pos_iff.mpr member
        rw [before] at place
        omega
  | read id request =>
      obtain ⟨ended, readEnds, rfl⟩ := Option.map_eq_some_iff.mp stepped
      obtain ⟨unmoved, located⟩ := unmoved_readEnds readEnds
      have after := counted.unmoved unmoved
      have same := unmoved.loop
      have length : ended.streams.length = pool.streams.length := (unmoved.sized _ sized).streams
      have kept (other : Nat) :
          { ended with
            requests := pool.store id request
            loop := .testSuspend id }.placed other = ended.placed other := by
        rw [placed, placed, same, idle]
        rfl
      refine ⟨fun other near => (kept other).trans (after.inside other near),
        fun other far => (kept other).trans (after.outside other far), ?_, ?_,
        .inl (length.trans (settled.trans unmoved.streamId.symm)), fun other member => ?_,
        after.writes⟩
      · have total := after.listeners
        rw [same, idle] at total
        exact total
      · exact { after.sized with
          requests := by
            rw [length_store, sized.requests, length] }
      · cases member
        exact length ▸ located
  | readFailed id => exact counted.unmoved (unmoved_readEnds stepped).1
  | write id =>
      simp only [StreamPool.event, Option.ite_none_right_eq_some, Option.some.injEq] at stepped
      obtain ⟨_, rfl⟩ := stepped
      have erased : { pool with writes := pool.writes.erase id }.Counted :=
        ⟨inside, outside, listeners, { sized with }, length, tag,
          fun other member => writes other (List.mem_of_mem_erase member)⟩
      exact erased.unmoved (unmoved_handleWrite _ id)
  | writeFailed id =>
      simp only [StreamPool.event, Option.ite_none_right_eq_some, Option.some.injEq] at stepped
      obtain ⟨_, rfl⟩ := stepped
      exact ⟨inside, outside, listeners, { sized with }, length, tag,
        fun other member => writes other (List.mem_of_mem_erase member)⟩
  | brokenPipe id =>
      simp only [StreamPool.event, Option.ite_none_right_eq_some, Option.some.injEq] at stepped
      obtain ⟨present, rfl⟩ := stepped
      have member : id ∈ pool.connected := List.contains_iff_mem.mp present
      have after (other : Nat) :
          { pool with
            connected := pool.connected.erase id
            reusableId := pool.reusableId ++ [id] }.placed other = pool.placed other := by
        have moved := count_moved pool.reusableId member other
        simp only [placed]
        omega
      exact ⟨fun other near => (after other).trans (inside other near),
        fun other far => (after other).trans (outside other far), listeners, { sized with }, length,
        tag, writes⟩
  | _ => cases stepped

theorem Counted.step {pool next : StreamPool Request Reply} {action : PoolAction Request Reply}
    (counted : pool.Counted) (stepped : pool.step action = some next) : next.Counted := by
  have events (event : PoolAction Request Reply)
      (stepped : (if pool.loop = .idle then pool.event event else none) = some next) :
      next.Counted := by
    simp only [Option.ite_none_right_eq_some] at stepped
    exact counted.event stepped.1 stepped.2
  cases action with
  | cancel id =>
      simp only [StreamPool.step, Option.ite_none_right_eq_some, Option.some.injEq] at stepped
      obtain ⟨_, rfl⟩ := stepped
      have same := Unmoved.refl pool
      refine counted.unmoved { same with sized := fun size sized => { sized with contexts := ?_ } }
      rw [List.length_set]
      exact sized.contexts
  | loop => exact counted.loopStep stepped
  | callbackSet id setter => exact counted.unmoved (unmoved_callbackStep stepped)
  | callbackReturn id payload => exact counted.unmoved (unmoved_callbackStep stepped)
  | task id => exact counted.unmoved (unmoved_taskStep stepped)
  | connect id => exact events _ stepped
  | read id request => exact events _ stepped
  | readFailed id => exact events _ stepped
  | write id => exact events _ stepped
  | writeFailed id => exact events _ stepped
  | brokenPipe id => exact events _ stepped

theorem counted_initial : (initial : StreamPool Request Reply).Counted := by
  refine ⟨fun id near => ?_, fun _ _ => rfl, rfl, ⟨rfl, rfl, rfl, rfl, rfl, rfl⟩, .inl rfl,
    fun _ member => ?_, fun _ member => ?_⟩
  · cases near
  · cases member
  · cases member

theorem counted_along (run : List (PoolAction Request Reply)) :
    machine.Along Counted (initial : StreamPool Request Reply) run :=
  machine.along_of_preserved Counted (fun _ _ _ counted stepped => counted.step stepped)
    counted_initial run

theorem ids_pooled_along (run : List (PoolAction Request Reply)) :
    machine.Along IdsPooled (initial : StreamPool Request Reply) run :=
  (counted_along run).mono fun _ counted => counted.pooled

/-- Ten listeners are made. A client takes the place of one, another is made for it, and its id
comes back. -/
example : (machine.exec (initial : StreamPool Nat Nat) (List.replicate 60 .loop ++
      .connect 4 :: List.replicate 11 .loop ++ [.brokenPipe 4])).map
    (fun pool => (pool.loop, pool.pulls, pool.connected, pool.reusableId)) =
      some (.idle, [0, 1, 2, 3, 5, 6, 7, 8, 9, 10], [], [4]) := by
  decide +kernel

end StreamPool

end ProtoCore.Service
