import ProtoCore.Service.StreamIds

/-!
# Streams used again

`CreateListenPort` takes an id over from its last connection: it aborts the status, waits
for the task and replaces context and stream. The wait empties the future of the id, which
only an accepted request fills again.
-/

set_option autoImplicit false

namespace ProtoCore.Service

open Library

namespace StreamPool

variable {Request Reply : Type}

/-! ## What a task does -/

/-- A step of the task of an id changes the status, the future and the replies of the id only,
and never writes a status that the loop alone may set. -/
structure TaskMoves (pool next : StreamPool Request Reply) (id connection : Nat) : Prop where
  running : ∃ task, pool.futureStorages[id]? = some (.running connection task)
  future : next.futureStorages = pool.futureStorages.set id .finished ∨
    ∃ task, next.futureStorages = pool.futureStorages.set id (.running connection task)
  status : next.callsStatus = pool.callsStatus ∨ ∃ status, status ≠ .process ∧
    status ≠ .prompted ∧ next.callsStatus = pool.callsStatus.set id status
  streams : next.streams = pool.streams
  pulls : next.pulls = pool.pulls
  connected : next.connected = pool.connected
  loop : next.loop = pool.loop
  accepted : next.accepted = pool.accepted
  replies : next.replyWaitQueue = pool.replyWaitQueue ∧ next.sent = pool.sent ∨ ∃ reply,
    next.replyWaitQueue = (pool.writeReply id ⟨connection, reply⟩).replyWaitQueue ∧
      next.sent = (pool.writeReply id ⟨connection, reply⟩).sent

/-- `write_reply` concerns the replies and nothing else. -/
structure OnlyReplies (pool next : StreamPool Request Reply) : Prop where
  streams : next.streams = pool.streams
  futureStorages : next.futureStorages = pool.futureStorages
  callsStatus : next.callsStatus = pool.callsStatus
  pulls : next.pulls = pool.pulls
  connected : next.connected = pool.connected
  loop : next.loop = pool.loop
  accepted : next.accepted = pool.accepted

theorem onlyReplies_writeReply (pool : StreamPool Request Reply) (id : Nat)
    (tagged : TaggedReply Reply) : pool.OnlyReplies (pool.writeReply id tagged) := by
  unfold StreamPool.writeReply
  split <;> exact ⟨rfl, rfl, rfl, rfl, rfl, rfl, rfl⟩

theorem onlyReplies_writeStatus (pool : StreamPool Request Reply) (id : Nat)
    (status : ServiceCallStatus) : pool.OnlyReplies (pool.writeStatus id status) := by
  unfold StreamPool.writeStatus
  split
  · exact ⟨rfl, rfl, rfl, rfl, rfl, rfl, rfl⟩
  · exact onlyReplies_writeReply pool id _

theorem endStatus_ne (status : ServiceCallStatus) :
    endStatus status ≠ .process ∧ endStatus status ≠ .prompted := by
  cases status <;> decide

theorem setter_status_ne (setter : Setter) :
    setter.status ≠ .process ∧ setter.status ≠ .prompted := by
  cases setter <;> decide

theorem taskMoves_taskStep {pool next : StreamPool Request Reply} {id : Nat}
    (stepped : pool.taskStep id = some next) : ∃ connection, pool.TaskMoves next id connection := by
  unfold StreamPool.taskStep at stepped
  cases running : pool.futureStorages[id]? with
  | none =>
      simp only [running] at stepped
      cases stepped
  | some future =>
      simp only [running] at stepped
      cases future with
      | empty => cases stepped
      | finished => cases stepped
      | running connection task =>
          refine ⟨connection, ?_⟩
          have active : ∃ task, pool.futureStorages[id]? = some (.running connection task) :=
            ⟨task, running⟩
          cases task with
          | callback => cases stepped
          | setTestProcess setter | setTestPrompted setter =>
              cases stepped
              exact ⟨active, .inr ⟨_, rfl⟩, .inl rfl, rfl, rfl, rfl, rfl, rfl, .inl ⟨rfl, rfl⟩⟩
          | setWrite setter =>
              cases stepped
              have apart := setter_status_ne setter
              exact ⟨active, .inr ⟨_, rfl⟩, .inr ⟨_, apart.1, apart.2, rfl⟩, rfl, rfl, rfl, rfl,
                rfl, .inl ⟨rfl, rfl⟩⟩
          | endStatus payload =>
              obtain ⟨status, _, rfl⟩ := Option.map_eq_some_iff.mp stepped
              have apart := endStatus_ne status
              exact ⟨active, .inr ⟨_, rfl⟩, .inr ⟨_, apart.1, apart.2, rfl⟩, rfl, rfl, rfl, rfl,
                rfl, .inl ⟨rfl, rfl⟩⟩
          | writeReply reply =>
              cases stepped
              have only := onlyReplies_writeReply pool id ⟨connection, reply⟩
              refine ⟨active, .inr ⟨.suspendTestProcess, ?_⟩, .inl only.callsStatus, only.streams,
                only.pulls, only.connected, only.loop, only.accepted, .inr ⟨reply, rfl, rfl⟩⟩
              rw [StreamPool.setFuture, only.futureStorages]
          | suspendTestProcess =>
              cases stepped
              cases pool.isProcess id
              · exact ⟨active, .inr ⟨_, rfl⟩, .inl rfl, rfl, rfl, rfl, rfl, rfl, .inl ⟨rfl, rfl⟩⟩
              · exact ⟨active, .inl rfl, .inl rfl, rfl, rfl, rfl, rfl, rfl, .inl ⟨rfl, rfl⟩⟩
          | suspendTestPrompted =>
              cases stepped
              cases pool.isPrompted id
              · exact ⟨active, .inr ⟨_, rfl⟩, .inl rfl, rfl, rfl, rfl, rfl, rfl, .inl ⟨rfl, rfl⟩⟩
              · exact ⟨active, .inl rfl, .inl rfl, rfl, rfl, rfl, rfl, rfl, .inl ⟨rfl, rfl⟩⟩
          | suspendWrite =>
              cases stepped
              exact ⟨active, .inl rfl, .inr ⟨.suspend, by decide, by decide, rfl⟩, rfl, rfl, rfl,
                rfl, rfl, .inl ⟨rfl, rfl⟩⟩

theorem taskMoves_callbackStep {pool next : StreamPool Request Reply} {id : Nat}
    {task : TaskStep Reply} (stepped : pool.callbackStep id task = some next) :
    ∃ connection, pool.TaskMoves next id connection := by
  unfold StreamPool.callbackStep at stepped
  split at stepped
  · rename_i connection running
    cases stepped
    exact ⟨connection, ⟨_, running⟩, .inr ⟨task, rfl⟩, .inl rfl, rfl, rfl, rfl, rfl, rfl,
      .inl ⟨rfl, rfl⟩⟩
  · cases stepped

/-! ## The future of an id -/

/-- The loop has called `get()` on futures with a shared state only. -/
def Alive (pool : StreamPool Request Reply) : Prop :=
  ∀ creator id, pool.loop ≠ .killed creator id

/-- The id has never listened, or a request was accepted on the connection that it comes from. -/
def Requested (pool : StreamPool Request Reply) (id : Nat) : Prop :=
  ∀ stream ∈ pool.streams[id]?, stream.number ≠ 0 → pool.accepted id ≠ []

instance [DecidableEq Request] (pool : StreamPool Request Reply) (id : Nat) :
    Decidable (pool.Requested id) :=
  inferInstanceAs (Decidable (∀ stream ∈ pool.streams[id]?, _ → _))

/-- `CreateListenPort` waits only for an id with a request. -/
def GetsRequested (pool : StreamPool Request Reply) : PoolAction Request Reply → Prop
  | .loop =>
      match pool.loop with
      | .get _ id => pool.Requested id
      | _ => True
  | _ => True

instance [DecidableEq Request] (pool : StreamPool Request Reply)
    (action : PoolAction Request Reply) : Decidable (pool.GetsRequested action) := by
  cases action <;> unfold GetsRequested <;> (try infer_instance)
  cases pool.loop <;> infer_instance

/-- A future lacks a state exactly when the id has listened and no request was accepted since. -/
structure Filled (pool : StreamPool Request Reply) (id : Nat) : Prop where
  iff : ∀ future stream, pool.futureStorages[id]? = some future → pool.streams[id]? = some stream →
    (future = .empty ↔ stream.number ≠ 0 ∧ pool.accepted id = [])

structure Futures (pool : StreamPool Request Reply) : Prop where
  counted : pool.Counted
  alive : pool.Alive
  filled : ∀ id, (∀ creator, pool.loop ≠ .listen creator id) → pool.Filled id
  emptied : ∀ creator id, pool.loop = .listen creator id → ∀ future ∈ pool.futureStorages[id]?,
    future = .empty

theorem Filled.frame {pool next : StreamPool Request Reply} {id : Nat} (filled : pool.Filled id)
    (futures : next.futureStorages[id]? = pool.futureStorages[id]?)
    (streams : (next.streams[id]?).map StreamObject.number =
      (pool.streams[id]?).map StreamObject.number)
    (accepted : next.accepted id = pool.accepted id) : next.Filled id where
  iff future stream located holder := by
    rw [holder, Option.map_some] at streams
    obtain ⟨before, found, number⟩ := Option.map_eq_some_iff.mp streams.symm
    rw [← number, accepted]
    exact filled.iff future before (futures ▸ located) found

/-- A future with a state, of an id that is new or has a request. -/
theorem Filled.of_filled {pool : StreamPool Request Reply} {id : Nat}
    (full : ∀ future ∈ pool.futureStorages[id]?, future ≠ .empty)
    (requested : pool.Requested id) : pool.Filled id where
  iff future stream located holder := by
    constructor
    · intro empty
      exact absurd empty (full future located)
    · rintro ⟨listened, unrequested⟩
      exact absurd unrequested (requested stream holder listened)

theorem number_setReading (pool : StreamPool Request Reply) (id : Nat) (reading : Option Nat)
    (other : Nat) :
    ((pool.setReading id reading).streams[other]?).map StreamObject.number =
      (pool.streams[other]?).map StreamObject.number := by
  rw [StreamPool.setReading, List.getElem?_modify]
  cases pool.streams[other]? with
  | none => rfl
  | some stream => by_cases same : id = other <;> simp [same]

/-- The loop holds no future that lacks a state. -/
def Settled : PoolStage → Prop
  | .listen .. | .killed .. => False
  | _ => True

theorem Settled.listen {stage : PoolStage} (settled : Settled stage) (creator : Creator)
    (id : Nat) : stage ≠ .listen creator id := by
  rintro rfl
  exact settled

theorem Settled.killed {stage : PoolStage} (settled : Settled stage) (creator : Creator)
    (id : Nat) : stage ≠ .killed creator id := by
  rintro rfl
  exact settled

/-- A step that leaves futures, stream objects and accepted requests alone. -/
theorem Futures.quiet {pool next : StreamPool Request Reply} (valid : pool.Futures)
    (counted : next.Counted) (futures : next.futureStorages = pool.futureStorages)
    (streams : ∀ id : Nat, (next.streams[id]?).map StreamObject.number =
      (pool.streams[id]?).map StreamObject.number)
    (accepted : next.accepted = pool.accepted)
    (before : Settled pool.loop) (after : Settled next.loop) : next.Futures where
  counted := counted
  alive := after.killed
  filled id _ := (valid.filled id fun creator => before.listen creator id).frame (by rw [futures])
    (streams id) (by rw [accepted])
  emptied creator id listening := absurd listening (after.listen creator id)

theorem Futures.task {pool next : StreamPool Request Reply} {id connection : Nat}
    (valid : pool.Futures) (moves : pool.TaskMoves next id connection) (counted : next.Counted) :
    next.Futures := by
  obtain ⟨task, running⟩ := moves.running
  have inside := (List.getElem?_eq_some_iff.mp running).1
  have elsewhere (other : Nat) (apart : id ≠ other) :
      next.futureStorages[other]? = pool.futureStorages[other]? := by
    rcases moves.future with ended | ⟨_, moved⟩
    · rw [ended, List.getElem?_set_ne apart]
    · rw [moved, List.getElem?_set_ne apart]
  have busy (creator : Creator) : pool.loop ≠ .listen creator id := by
    intro listening
    cases valid.emptied creator id listening _ running
  refine ⟨counted, ?_, fun other unlistened => ?_, fun creator other listening => ?_⟩
  · intro creator other killed
    exact valid.alive creator other (moves.loop ▸ killed)
  · have filled := valid.filled other (moves.loop ▸ unlistened)
    by_cases same : id = other
    · subst same
      apply Filled.of_filled
      · intro future member empty
        subst empty
        rcases moves.future with ended | ⟨_, moved⟩
        · rw [ended, List.getElem?_set_self inside] at member
          cases member
        · rw [moved, List.getElem?_set_self inside] at member
          cases member
      · intro stream holder listened unrequested
        rw [moves.streams] at holder
        rw [moves.accepted] at unrequested
        cases (filled.iff _ stream running holder).mpr ⟨listened, unrequested⟩
    · exact filled.frame (elsewhere other same) (by rw [moves.streams]) (by rw [moves.accepted])
  · rw [moves.loop] at listening
    have apart : id ≠ other := by
      intro same
      subst same
      exact busy creator listening
    rw [elsewhere other apart]
    exact valid.emptied creator other listening

theorem Futures.grow {pool next : StreamPool Request Reply} (valid : pool.Futures)
    {creator : Creator} {id : Nat} (stage : pool.loop = .grow creator id)
    (stepped : pool.createStep = some next) : next.Futures := by
  have counted := valid.counted.grow stage stepped
  have settled (creator : Creator) (id : Nat) : pool.loop ≠ .listen creator id := by
    rw [stage]
    simp
  have sized := valid.counted.sized
  unfold StreamPool.createStep at stepped
  simp only [stage] at stepped
  cases stepped
  refine ⟨counted, by simp [Alive], fun other _ => ?_, by simp⟩
  have filled := valid.filled other fun creator => settled creator other
  split
  · -- the new entry holds a finished task, and a stream that has never listened
    refine ⟨fun future stream located holder => ?_⟩
    rcases getElem?_concat_eq_some located with old | ⟨new, rfl⟩ <;>
      rcases getElem?_concat_eq_some holder with oldStream | ⟨newStream, rfl⟩
    · exact filled.iff future stream old oldStream
    · have := (List.getElem?_eq_some_iff.mp old).1
      have := sized.futureStorages
      omega
    · have := (List.getElem?_eq_some_iff.mp oldStream).1
      have := sized.futureStorages
      omega
    · simp
  · exact filled.frame rfl rfl rfl

theorem Futures.get {pool next : StreamPool Request Reply} (valid : pool.Futures)
    {creator : Creator} {id : Nat} (stage : pool.loop = .get creator id)
    (requested : pool.Requested id) (stepped : pool.createStep = some next) : next.Futures := by
  have counted := valid.counted.createStep stepped
  have filled (other : Nat) := valid.filled other fun creator => by rw [stage]; simp
  unfold StreamPool.createStep at stepped
  simp only [stage] at stepped
  split at stepped
  · rename_i located
    cases stepped
    have inside := (List.getElem?_eq_some_iff.mp located).1
    refine ⟨counted, by simp [Alive], fun other unlistened => ?_, fun _ other same future => ?_⟩
    · have apart : id ≠ other := by
        intro same
        subst same
        exact unlistened creator rfl
      exact (filled other).frame (List.getElem?_set_ne apart) rfl rfl
    · cases same
      intro member
      cases (List.getElem?_set_self inside).symm.trans member
      rfl
  · rename_i located
    exfalso
    have inside : id < pool.streams.length := by
      rw [valid.counted.sized.streams, ← valid.counted.sized.futureStorages]
      exact (List.getElem?_eq_some_iff.mp located).1
    have holder := List.getElem?_eq_getElem inside
    obtain ⟨listened, unrequested⟩ := ((filled id).iff _ _ located holder).mp rfl
    exact requested _ holder listened unrequested
  · cases stepped

theorem Futures.listen {pool next : StreamPool Request Reply} (valid : pool.Futures)
    {creator : Creator} {id : Nat} (stage : pool.loop = .listen creator id)
    (stepped : pool.createStep = some next) : next.Futures := by
  have counted := valid.counted.listen stage stepped
  have emptied := valid.emptied creator id stage
  unfold StreamPool.createStep at stepped
  simp only [stage] at stepped
  cases stepped
  have next_ne (other : Creator) (place : Nat) : creator.next ≠ .listen other place := by
    rcases creator with ⟨_ | left⟩ | tag <;> simp [Creator.next]
  refine ⟨counted, ?_, fun other _ => ?_, fun other place same => absurd same (next_ne other place)⟩
  · intro other place
    rcases creator with ⟨_ | left⟩ | tag <;> simp [Creator.next]
  · by_cases same : id = other
    · subst same
      refine ⟨fun future stream located holder => ?_⟩
      simp only [StreamPool.listenOn, Function.update_self, and_true]
      refine iff_of_true (emptied future located) ?_
      simp only [StreamPool.listenOn, List.getElem?_modify_eq] at holder
      obtain ⟨before, _, rfl⟩ := Option.map_eq_some_iff.mp holder
      exact Nat.succ_ne_zero before.number
    · have filled := valid.filled other fun creator => by rw [stage]; simp [same]
      apply filled.frame
      · rfl
      · simp only [StreamPool.listenOn, List.getElem?_modify_ne _ _ same]
      · exact Function.update_of_ne (Ne.symm same) _ _

theorem Futures.launch {pool next : StreamPool Request Reply} (valid : pool.Futures) {tag : Nat}
    (stage : pool.loop = .launch tag) (stepped : pool.readStep = some next) : next.Futures := by
  have counted := valid.counted.readStep stepped
  have filled (other : Nat) := valid.filled other fun creator => by rw [stage]; simp
  unfold StreamPool.readStep at stepped
  simp only [stage, StreamPool.launchTask] at stepped
  split at stepped
  · rename_i future stream request located _ _
    simp only [Option.ite_none_left_eq_some, Option.some.injEq] at stepped
    obtain ⟨_, rfl⟩ := stepped
    have inside := (List.getElem?_eq_some_iff.mp located).1
    refine ⟨counted, by simp [Alive], fun other _ => ?_, by simp⟩
    by_cases same : tag = other
    · subst same
      apply Filled.of_filled
      · intro future member
        cases (List.getElem?_set_self inside).symm.trans member
        simp
      · intro _ _ _
        simp
    · exact (filled other).frame (List.getElem?_set_ne same) rfl
        (Function.update_of_ne (Ne.symm same) _ _)
  · cases stepped

theorem Futures.createStep {pool next : StreamPool Request Reply} (valid : pool.Futures)
    (requested : ∀ creator id, pool.loop = .get creator id → pool.Requested id)
    (stepped : pool.createStep = some next) : next.Futures := by
  have counted := valid.counted.createStep stepped
  cases stage : pool.loop with
  | grow creator id => exact valid.grow stage stepped
  | get creator id => exact valid.get stage (requested creator id stage) stepped
  | listen creator id => exact valid.listen stage stepped
  | generate creator =>
      unfold StreamPool.createStep at stepped
      simp only [stage] at stepped
      split at stepped <;> cases stepped <;>
        exact valid.quiet counted rfl (fun _ => rfl) rfl (by rw [stage]; trivial) trivial
  | abortTestProcess creator id =>
      unfold StreamPool.createStep at stepped
      simp only [stage] at stepped
      cases stepped
      exact valid.quiet counted rfl (fun _ => rfl) rfl (by rw [stage]; trivial)
        (by cases pool.isProcess id <;> trivial)
  | abortTestPrompted creator id =>
      unfold StreamPool.createStep at stepped
      simp only [stage] at stepped
      cases stepped
      exact valid.quiet counted rfl (fun _ => rfl) rfl (by rw [stage]; trivial)
        (by cases pool.isPrompted id <;> trivial)
  | abortWrite creator id =>
      unfold StreamPool.createStep at stepped
      simp only [stage] at stepped
      cases stepped
      exact valid.quiet counted rfl (fun _ => rfl) rfl (by rw [stage]; trivial) trivial
  | _ =>
      unfold StreamPool.createStep at stepped
      simp only [stage] at stepped
      cases stepped

theorem Futures.connectStep {pool next : StreamPool Request Reply} (valid : pool.Futures)
    (stepped : pool.connectStep = some next) : next.Futures := by
  have counted := valid.counted.connectStep stepped
  unfold StreamPool.connectStep at stepped
  cases stage : pool.loop with
  | suspendTestProcess tag =>
      simp only [stage] at stepped
      cases stepped
      exact valid.quiet counted rfl (fun _ => rfl) rfl (by rw [stage]; trivial)
        (by cases pool.isProcess tag <;> trivial)
  | suspendTestPrompted tag =>
      simp only [stage] at stepped
      cases stepped
      exact valid.quiet counted rfl (fun _ => rfl) rfl (by rw [stage]; trivial)
        (by cases pool.isPrompted tag <;> trivial)
  | suspendWrite tag | processed tag =>
      simp only [stage] at stepped
      cases stepped
      exact valid.quiet counted rfl (fun _ => rfl) rfl (by rw [stage]; trivial) trivial
  | readFirst tag =>
      simp only [stage] at stepped
      cases stepped
      exact valid.quiet counted rfl (number_setReading pool tag _) rfl (by rw [stage]; trivial)
        trivial
  | _ =>
      simp only [stage] at stepped
      cases stepped

theorem Futures.readStep {pool next : StreamPool Request Reply} (valid : pool.Futures)
    (stepped : pool.readStep = some next) : next.Futures := by
  have counted := valid.counted.readStep stepped
  have started := stepped
  unfold StreamPool.readStep at stepped
  cases stage : pool.loop with
  | launch tag => exact valid.launch stage started
  | testSuspend tag | testProcess tag =>
      simp only [stage] at stepped
      obtain ⟨request, _, rfl⟩ := Option.map_eq_some_iff.mp stepped
      exact valid.quiet counted rfl (fun _ => rfl) rfl (by rw [stage]; trivial)
        (by simp only; split <;> trivial)
  | processTest tag | promptTest tag =>
      simp only [stage] at stepped
      cases stepped
      exact valid.quiet counted rfl (fun _ => rfl) rfl (by rw [stage]; trivial)
        (by simp only; split <;> trivial)
  | processWrite tag =>
      simp only [stage] at stepped
      cases stepped
      have only := onlyReplies_writeStatus (pool.setStatus tag .process) tag .process
      exact valid.quiet counted only.futureStorages (fun _ => by rw [only.streams]; rfl)
        only.accepted (by rw [stage]; trivial) trivial
  | promptWrite tag =>
      simp only [stage] at stepped
      cases stepped
      have only := onlyReplies_writeStatus (pool.setStatus tag .prompted) tag .prompted
      exact valid.quiet counted only.futureStorages (fun _ => by rw [only.streams]; rfl)
        only.accepted (by rw [stage]; trivial) trivial
  | readAgain tag =>
      simp only [stage] at stepped
      cases stepped
      exact valid.quiet counted rfl (number_setReading pool tag _) rfl (by rw [stage]; trivial)
        trivial
  | _ =>
      simp only [stage] at stepped
      cases stepped

theorem onlyReplies_handleWrite (pool : StreamPool Request Reply) (id : Nat) :
    pool.OnlyReplies (pool.handleWrite id) := by
  unfold StreamPool.handleWrite
  split <;> exact ⟨rfl, rfl, rfl, rfl, rfl, rfl, rfl⟩

theorem Futures.event {pool next : StreamPool Request Reply} {action : PoolAction Request Reply}
    (valid : pool.Futures) (idle : pool.loop = .idle) (stepped : pool.event action = some next) :
    next.Futures := by
  have counted := valid.counted.event idle stepped
  have settled : Settled pool.loop := by
    rw [idle]
    trivial
  cases action with
  | connect id =>
      simp only [StreamPool.event, Option.ite_none_right_eq_some, Option.some.injEq] at stepped
      obtain ⟨_, rfl⟩ := stepped
      exact valid.quiet counted rfl (fun _ => rfl) rfl settled trivial
  | read id request =>
      obtain ⟨_, ends, rfl⟩ := Option.map_eq_some_iff.mp stepped
      obtain ⟨_, _, _, rfl⟩ := readEnds_eq_some ends
      exact valid.quiet counted rfl (number_setReading pool id none) rfl settled trivial
  | readFailed id =>
      obtain ⟨_, _, _, rfl⟩ := readEnds_eq_some stepped
      exact valid.quiet counted rfl (number_setReading pool id none) rfl settled settled
  | write id =>
      simp only [StreamPool.event, Option.ite_none_right_eq_some, Option.some.injEq] at stepped
      obtain ⟨_, rfl⟩ := stepped
      have only := onlyReplies_handleWrite { pool with writes := pool.writes.erase id } id
      exact valid.quiet counted only.futureStorages (fun _ => by rw [only.streams]) only.accepted
        settled (by rw [only.loop]; exact settled)
  | writeFailed id | brokenPipe id =>
      simp only [StreamPool.event, Option.ite_none_right_eq_some, Option.some.injEq] at stepped
      obtain ⟨_, rfl⟩ := stepped
      exact valid.quiet counted rfl (fun _ => rfl) rfl settled settled
  | _ => cases stepped

theorem Futures.step {pool next : StreamPool Request Reply} {action : PoolAction Request Reply}
    (valid : pool.Futures) (requested : pool.GetsRequested action)
    (stepped : pool.step action = some next) : next.Futures := by
  have counted := valid.counted.step stepped
  have events (event : PoolAction Request Reply)
      (stepped : (if pool.loop = .idle then pool.event event else none) = some next) :
      next.Futures := by
    simp only [Option.ite_none_right_eq_some] at stepped
    exact valid.event stepped.1 stepped.2
  cases action with
  | cancel id =>
      simp only [StreamPool.step, Option.ite_none_right_eq_some, Option.some.injEq] at stepped
      obtain ⟨_, rfl⟩ := stepped
      refine ⟨counted, valid.alive, fun id unlistened => ?_, valid.emptied⟩
      exact (valid.filled id unlistened).frame rfl rfl rfl
  | loop =>
      have waits (creator : Creator) (id : Nat) (stage : pool.loop = .get creator id) :
          pool.Requested id := by
        simpa only [GetsRequested, stage] using requested
      change pool.loopStep = some next at stepped
      unfold StreamPool.loopStep at stepped
      split at stepped
      case h_13 => exact valid.readStep stepped
      all_goals first | exact valid.createStep waits stepped | exact valid.connectStep stepped
  | callbackSet id setter =>
      obtain ⟨connection, moves⟩ := taskMoves_callbackStep stepped
      exact valid.task moves counted
  | callbackReturn id payload =>
      obtain ⟨connection, moves⟩ := taskMoves_callbackStep stepped
      exact valid.task moves counted
  | task id =>
      obtain ⟨connection, moves⟩ := taskMoves_taskStep stepped
      exact valid.task moves counted
  | connect id => exact events _ stepped
  | read id request => exact events _ stepped
  | readFailed id => exact events _ stepped
  | write id => exact events _ stepped
  | writeFailed id => exact events _ stepped
  | brokenPipe id => exact events _ stepped

/-- A `get()` that does not kill the loop is one on the id of a request. -/
theorem Futures.necessary {pool next : StreamPool Request Reply}
    {action : PoolAction Request Reply} (valid : pool.Futures)
    (stepped : pool.step action = some next) (alive : next.Alive) : pool.GetsRequested action := by
  cases action with
  | loop =>
      cases stage : pool.loop with
      | get creator id =>
          simp only [GetsRequested, stage]
          intro stream holder listened unrequested
          have filled := valid.filled id fun creator => by rw [stage]; simp
          have inside : id < pool.futureStorages.length := by
            rw [valid.counted.sized.futureStorages]
            exact (List.getElem?_eq_some_iff.mp holder).1
          have located := List.getElem?_eq_getElem inside
          have empty := (filled.iff _ stream located holder).mpr ⟨listened, unrequested⟩
          rw [empty] at located
          change pool.loopStep = some next at stepped
          simp only [StreamPool.loopStep, StreamPool.createStep, stage, located,
            Option.some.injEq] at stepped
          exact alive creator id (by rw [← stepped])
      | _ => simp only [GetsRequested, stage]
  | _ => trivial

theorem futures_initial : (initial : StreamPool Request Reply).Futures where
  counted := counted_initial
  alive := by simp [Alive, initial]
  filled id _ := ⟨fun _ _ located => by cases located⟩
  emptied _ _ listening := by cases listening

theorem alive_iff_getsRequested (run : List (PoolAction Request Reply)) :
    machine.Along Alive (initial : StreamPool Request Reply) run ↔
      machine.Obeys GetsRequested (initial : StreamPool Request Reply) run :=
  machine.along_iff_obeys Futures (fun _ valid => valid.alive)
    (fun _ _ _ valid requested stepped => valid.step requested stepped)
    (fun _ _ _ valid stepped alive => valid.necessary stepped alive) futures_initial run

/-- The server makes its listeners; a client connects and leaves without a request, and then
another client connects. -/
def silentClient : List (PoolAction Nat Nat) :=
  List.replicate 60 PoolAction.loop ++ .connect 0 :: List.replicate 11 PoolAction.loop ++
    .brokenPipe 0 :: .connect 1 :: List.replicate 5 PoolAction.loop

theorem silentClient_kills : ¬ machine.Along Alive initial silentClient := by
  intro along
  have evaluated : (machine.exec initial silentClient).map StreamPool.loop =
      some (.killed (.connect 1) 0) := by
    decide +kernel
  obtain ⟨final, executed, killed⟩ := Option.map_eq_some_iff.mp evaluated
  exact along.final executed (.connect 1) 0 killed

end StreamPool

end ProtoCore.Service
