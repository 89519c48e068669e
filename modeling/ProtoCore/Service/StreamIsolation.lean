import ProtoCore.Service.StreamRecycling

/-!
# What a recycled id carries over

Nothing: an id that listens has neither a call nor a task, its queue is empty, and its
stream object is not read from before its CONNECT.
-/

set_option autoImplicit false

namespace ProtoCore.Service

open Library

namespace StreamPool

variable {Request Reply : Type}

/-- The CONNECT of an id has been processed with no call and no task left on it, and a reply has
only been written on the stream object whose call has produced it. -/
structure Isolated (pool : StreamPool Request Reply) : Prop where
  connected : ∀ tag, pool.loop = .processed tag → pool.callsStatus[tag]? = some .suspend ∧
    ∀ future ∈ pool.futureStorages[tag]?, future.isRunning = false
  sent : ∀ sent ∈ pool.sent, sent.stream = sent.tagged.connection

/-! ## Ids at rest -/

/-- No call is under way. Only a READ of the id can change that. -/
def Calm (pool : StreamPool Request Reply) (id : Nat) : Prop :=
  pool.isProcess id = false ∧ pool.isPrompted id = false

/-- No task is under way. -/
def Ended (pool : StreamPool Request Reply) (id : Nat) : Prop :=
  ∀ future ∈ pool.futureStorages[id]?, future.isRunning = false

def Unread (pool : StreamPool Request Reply) (id : Nat) : Prop :=
  ∀ stream ∈ pool.streams[id]?, stream.reading = none

/-- The CONNECT that makes a listener concerns an id at rest which is no listener itself. -/
def AwaitsConnect (pool : StreamPool Request Reply) : Creator → Prop
  | .constructor _ => True
  | .connect tag => pool.Calm tag ∧ pool.Ended tag ∧ tag ∉ pool.pulls ∧ tag ∈ pool.connected

/-- What the loop relies on at its next step. -/
def Fits (pool : StreamPool Request Reply) : PoolStage → Prop
  | .generate creator | .grow creator _ | .abortTestProcess creator _ | .abortWrite creator _ =>
      pool.AwaitsConnect creator
  | .abortTestPrompted creator id => pool.AwaitsConnect creator ∧ pool.isProcess id = false
  | .get creator id => pool.AwaitsConnect creator ∧ pool.Calm id
  | .listen creator id => pool.AwaitsConnect creator ∧ pool.Calm id ∧ pool.Ended id
  | .suspendTestProcess tag | .suspendTestPrompted tag | .suspendWrite tag =>
      pool.Calm tag ∧ pool.Ended tag ∧ tag ∉ pool.pulls
  | .readFirst tag | .processed tag =>
      pool.callsStatus[tag]? = some .suspend ∧ pool.Ended tag ∧ tag ∉ pool.pulls
  | .testSuspend tag | .processTest tag | .processWrite tag | .launch tag | .testProcess tag
  | .promptTest tag | .promptWrite tag | .readAgain tag => tag ∉ pool.pulls
  | .idle | .killed _ _ => True

/-- No reply waits in a queue, and each was written on its own stream object. -/
def Direct (pool : StreamPool Request Reply) : Prop :=
  (∀ queue ∈ pool.replyWaitQueue, queue = []) ∧
    ∀ sent ∈ pool.sent, sent.stream = sent.tagged.connection

/-- A running task belongs to the stream object that its id has now. -/
def TasksOwned (pool : StreamPool Request Reply) : Prop :=
  ∀ (id connection : Nat) (task : TaskStep Reply),
    pool.futureStorages[id]? = some (.running connection task) →
      ∀ stream ∈ pool.streams[id]?, stream.number = connection

structure Separate (pool : StreamPool Request Reply) : Prop where
  counted : pool.Counted
  direct : pool.Direct
  owned : pool.TasksOwned
  pulls : ∀ id ∈ pool.pulls, pool.Calm id ∧ pool.Ended id ∧ pool.Unread id
  stage : pool.Fits pool.loop

theorem Separate.isolated {pool : StreamPool Request Reply} (separate : pool.Separate) :
    pool.Isolated where
  connected tag processed := by
    have fits := separate.stage
    rw [processed] at fits
    exact ⟨fits.1, fits.2.1⟩
  sent := separate.direct.2

/-- Ids at rest stay so. -/
structure Settles (pool next : StreamPool Request Reply) : Prop where
  process : ∀ id, pool.isProcess id = false → next.isProcess id = false
  prompted : ∀ id, pool.isPrompted id = false → next.isPrompted id = false
  ended : ∀ id, pool.Ended id → next.Ended id
  pulls : next.pulls = pool.pulls
  connected : next.connected = pool.connected

theorem Settles.calm {pool next : StreamPool Request Reply} (settles : pool.Settles next) {id : Nat}
    (calm : pool.Calm id) : next.Calm id :=
  ⟨settles.process id calm.1, settles.prompted id calm.2⟩

theorem Settles.unlistened {pool next : StreamPool Request Reply} (settles : pool.Settles next)
    {id : Nat} (unlistened : id ∉ pool.pulls) : id ∉ next.pulls :=
  settles.pulls ▸ unlistened

theorem AwaitsConnect.settles {pool next : StreamPool Request Reply} {creator : Creator}
    (awaits : pool.AwaitsConnect creator) (settles : pool.Settles next) :
    next.AwaitsConnect creator := by
  cases creator with
  | constructor left => trivial
  | connect tag =>
      obtain ⟨calm, ended, unlistened, connected⟩ := awaits
      exact ⟨settles.calm calm, settles.ended tag ended, settles.unlistened unlistened,
        settles.connected ▸ connected⟩

theorem Fits.settles {pool next : StreamPool Request Reply} {stage : PoolStage}
    (fits : pool.Fits stage) (settles : pool.Settles next)
    (suspended : ∀ id : Nat, pool.Ended id → pool.callsStatus[id]? = some .suspend →
      next.callsStatus[id]? = some .suspend) : next.Fits stage := by
  cases stage with
  | generate creator | grow creator id | abortTestProcess creator id | abortWrite creator id =>
      exact AwaitsConnect.settles fits settles
  | abortTestPrompted creator id => exact ⟨fits.1.settles settles, settles.process id fits.2⟩
  | get creator id => exact ⟨fits.1.settles settles, settles.calm fits.2⟩
  | listen creator id =>
      exact ⟨fits.1.settles settles, settles.calm fits.2.1, settles.ended id fits.2.2⟩
  | suspendTestProcess tag | suspendTestPrompted tag | suspendWrite tag =>
      exact ⟨settles.calm fits.1, settles.ended tag fits.2.1, settles.unlistened fits.2.2⟩
  | readFirst tag | processed tag =>
      exact ⟨suspended tag fits.2.1 fits.1, settles.ended tag fits.2.1, settles.unlistened fits.2.2⟩
  | testSuspend tag | processTest tag | processWrite tag | launch tag | testProcess tag
  | promptTest tag | promptWrite tag | readAgain tag => exact settles.unlistened fits
  | idle | killed => trivial

/-! ## Status, future and replies -/

theorem getElem?_set_ne_of_ne {α : Type} {values : List α} {value avoided : α} {id other : Nat}
    (apart : value ≠ avoided) (before : values[other]? ≠ some avoided) :
    (values.set id value)[other]? ≠ some avoided := by
  intro found
  rw [List.getElem?_set] at found
  split at found
  · split at found
    · exact apart (Option.some.inj found)
    · cases found
  · exact before found

theorem isProcess_of_set {pool next : StreamPool Request Reply} {id other : Nat}
    {status : ServiceCallStatus} (set : next.callsStatus = pool.callsStatus.set id status)
    (apart : status ≠ .process) (before : pool.isProcess other = false) :
    next.isProcess other = false := by
  unfold StreamPool.isProcess at before ⊢
  rw [decide_eq_false_iff_not] at before ⊢
  rw [set]
  exact getElem?_set_ne_of_ne apart before

theorem isPrompted_of_set {pool next : StreamPool Request Reply} {id other : Nat}
    {status : ServiceCallStatus} (set : next.callsStatus = pool.callsStatus.set id status)
    (apart : status ≠ .prompted) (before : pool.isPrompted other = false) :
    next.isPrompted other = false := by
  unfold StreamPool.isPrompted at before ⊢
  rw [decide_eq_false_iff_not] at before ⊢
  rw [set]
  exact getElem?_set_ne_of_ne apart before

/-- A status other than these two makes its id calm. -/
theorem calm_setStatus (pool : StreamPool Request Reply) (id : Nat) {status : ServiceCallStatus}
    (process : status ≠ .process) (prompted : status ≠ .prompted) :
    (pool.setStatus id status).Calm id := by
  constructor
  · unfold StreamPool.isProcess StreamPool.setStatus
    rw [decide_eq_false_iff_not, List.getElem?_set_self']
    cases pool.callsStatus[id]? with
    | none => simp
    | some before => simpa using process
  · unfold StreamPool.isPrompted StreamPool.setStatus
    rw [decide_eq_false_iff_not, List.getElem?_set_self']
    cases pool.callsStatus[id]? with
    | none => simp
    | some before => simpa using prompted

theorem ended_of_set {pool next : StreamPool Request Reply} {id other : Nat}
    {future : TaskFuture Reply} (set : next.futureStorages = pool.futureStorages.set id future)
    (still : id = other → future.isRunning = false) (before : pool.Ended other) :
    next.Ended other := by
  intro found member
  rw [set, List.getElem?_set] at member
  split at member
  · rename_i same
    split at member
    · cases member
      exact still same
    · cases member
  · exact before found member

theorem Direct.writeReply {pool : StreamPool Request Reply} {size id : Nat}
    {tagged : TaggedReply Reply} (direct : pool.Direct) (sized : pool.Sized size)
    (own : ∀ stream ∈ pool.streams[id]?, stream.number = tagged.connection) :
    (pool.writeReply id tagged).Direct := by
  unfold StreamPool.writeReply
  split
  · rename_i stream _ _ holder
    refine ⟨direct.1, fun sent member => ?_⟩
    rcases List.mem_append.mp member with earlier | last
    · exact direct.2 sent earlier
    · cases List.mem_singleton.mp last
      exact own stream holder
  · -- a queue that is empty has its reply written, so this is an id without a stream object
    rename_i queue _ waiting unwritten
    exfalso
    have empty := direct.1 queue (List.mem_of_getElem? waiting)
    have inside : id < pool.streams.length := by
      rw [sized.streams, ← sized.replyWaitQueue]
      exact (List.getElem?_eq_some_iff.mp waiting).1
    subst empty
    exact unwritten _ (List.getElem?_eq_getElem inside) rfl
  · exact direct

theorem Direct.writeStatus {pool : StreamPool Request Reply} {size id : Nat}
    {status : ServiceCallStatus} (direct : pool.Direct) (sized : pool.Sized size) :
    (pool.writeStatus id status).Direct := by
  unfold StreamPool.writeStatus
  split
  · exact direct
  · rename_i stream holder
    refine direct.writeReply sized fun other member => ?_
    rw [holder] at member
    cases member
    rfl

/-! ## Tasks -/

theorem TaskMoves.settles {pool next : StreamPool Request Reply} {id connection : Nat}
    (moves : pool.TaskMoves next id connection) : pool.Settles next where
  process other before := by
    rcases moves.status with same | ⟨status, process, _, set⟩
    · rw [StreamPool.isProcess, same]
      exact before
    · exact isProcess_of_set set process before
  prompted other before := by
    rcases moves.status with same | ⟨status, _, prompted, set⟩
    · rw [StreamPool.isPrompted, same]
      exact before
    · exact isPrompted_of_set set prompted before
  ended other before := by
    obtain ⟨task, running⟩ := moves.running
    have busy (same : id = other) : False := by
      subst same
      cases before _ running
    rcases moves.future with ended | ⟨_, moved⟩
    · exact ended_of_set ended (fun _ => rfl) before
    · exact ended_of_set moved (fun same => (busy same).elim) before
  pulls := moves.pulls
  connected := moves.connected

theorem Separate.task {pool next : StreamPool Request Reply} {id connection : Nat}
    (separate : pool.Separate) (moves : pool.TaskMoves next id connection)
    (counted : next.Counted) : next.Separate := by
  obtain ⟨task, running⟩ := moves.running
  have settles := moves.settles
  have own := separate.owned id connection task running
  refine ⟨counted, ?_, fun other owner step located stream holder => ?_, fun other listed => ?_, ?_⟩
  · rcases moves.replies with ⟨queues, sent⟩ | ⟨reply, queues, sent⟩
    · rw [Direct, queues, sent]
      exact separate.direct
    · rw [Direct, queues, sent]
      exact separate.direct.writeReply separate.counted.sized own
  · rw [moves.streams] at holder
    rcases moves.future with ended | ⟨moved, set⟩
    · rw [ended, List.getElem?_set] at located
      split at located
      · split at located <;> cases located
      · exact separate.owned other owner step located stream holder
    · rw [set, List.getElem?_set] at located
      split at located
      · rename_i same
        subst same
        split at located
        · cases located
          exact own stream holder
        · cases located
      · exact separate.owned other owner step located stream holder
  · rw [moves.pulls] at listed
    obtain ⟨calm, ended, unread⟩ := separate.pulls other listed
    refine ⟨settles.calm calm, settles.ended other ended, ?_⟩
    rw [Unread, moves.streams]
    exact unread
  · rw [moves.loop]
    refine separate.stage.settles settles fun other still suspended => ?_
    -- the status of an id at rest is not written
    have apart : id ≠ other := by
      intro same
      subst same
      cases still _ running
    rcases moves.status with same | ⟨status, _, _, set⟩
    · rw [same]
      exact suspended
    · rw [set, List.getElem?_set_ne apart]
      exact suspended

/-! ## The steps of the loop -/

theorem Settles.refl (pool : StreamPool Request Reply) : pool.Settles pool :=
  ⟨fun _ before => before, fun _ before => before, fun _ before => before, rfl, rfl⟩

theorem Settles.advance {pool next : StreamPool Request Reply} (settles : pool.Settles next)
    (stage : PoolStage) : pool.Settles { next with loop := stage } :=
  ⟨settles.process, settles.prompted, settles.ended, settles.pulls, settles.connected⟩

theorem settles_setStatus (pool : StreamPool Request Reply) (id : Nat) (status : ServiceCallStatus)
    (process : status ≠ .process) (prompted : status ≠ .prompted) :
    pool.Settles (pool.setStatus id status) where
  process _ before := isProcess_of_set rfl process before
  prompted _ before := isPrompted_of_set rfl prompted before
  ended _ before := before
  pulls := rfl
  connected := rfl

theorem settles_setFuture (pool : StreamPool Request Reply) (id : Nat) (future : TaskFuture Reply)
    (still : future.isRunning = false) : pool.Settles (pool.setFuture id future) where
  process _ before := before
  prompted _ before := before
  ended _ before := ended_of_set rfl (fun _ => still) before
  pulls := rfl
  connected := rfl

theorem settles_pushBack (pool : StreamPool Request Reply) : pool.Settles pool.pushBack where
  process id before := by
    unfold StreamPool.isProcess at before ⊢
    rw [decide_eq_false_iff_not] at before ⊢
    intro found
    rcases getElem?_concat_eq_some found with earlier | ⟨_, new⟩
    · exact before earlier
    · cases new
  prompted id before := by
    unfold StreamPool.isPrompted at before ⊢
    rw [decide_eq_false_iff_not] at before ⊢
    intro found
    rcases getElem?_concat_eq_some found with earlier | ⟨_, new⟩
    · exact before earlier
    · cases new
  ended id before future member := by
    rcases getElem?_concat_eq_some member with earlier | ⟨_, new⟩
    · exact before future earlier
    · cases new
      rfl
  pulls := rfl
  connected := rfl

theorem TasksOwned.frame {pool next : StreamPool Request Reply} (owned : pool.TasksOwned)
    (futures : next.futureStorages = pool.futureStorages)
    (streams : ∀ id : Nat, (next.streams[id]?).map StreamObject.number =
      (pool.streams[id]?).map StreamObject.number) : next.TasksOwned := by
  intro id owner task located stream holder
  have numbers := streams id
  rw [holder, Option.map_some] at numbers
  obtain ⟨before, found, number⟩ := Option.map_eq_some_iff.mp numbers.symm
  rw [← number]
  exact owned id owner task (futures ▸ located) before found

theorem TasksOwned.setFuture {pool : StreamPool Request Reply} (owned : pool.TasksOwned)
    {id : Nat} {future : TaskFuture Reply}
    (own : ∀ owner task, future = .running owner task →
      ∀ stream ∈ pool.streams[id]?, stream.number = owner) :
    (pool.setFuture id future).TasksOwned := by
  intro other owner task located stream holder
  rw [StreamPool.setFuture, List.getElem?_set] at located
  split at located
  · rename_i same
    subst same
    split at located
    · cases located
      exact own owner task rfl stream holder
    · cases located
  · exact owned other owner task located stream holder

theorem unread_setReading {pool : StreamPool Request Reply} {id other : Nat} {reading : Option Nat}
    (apart : id ≠ other) (unread : pool.Unread other) :
    (pool.setReading id reading).Unread other := by
  rw [Unread, StreamPool.setReading, List.getElem?_modify_ne _ _ apart]
  exact unread

theorem Separate.settles {pool next : StreamPool Request Reply} (separate : pool.Separate)
    (settles : pool.Settles next) (counted : next.Counted) (direct : next.Direct)
    (owned : next.TasksOwned) (unread : ∀ id, pool.Unread id → next.Unread id)
    (stage : next.Fits next.loop) : next.Separate where
  counted := counted
  direct := direct
  owned := owned
  pulls id listed := by
    obtain ⟨calm, ended, before⟩ := separate.pulls id (settles.pulls ▸ listed)
    exact ⟨settles.calm calm, settles.ended id ended, unread id before⟩
  stage := stage

/-- The socket of an id that is no listener starts or ends a READ. -/
theorem Separate.setReading {pool : StreamPool Request Reply} {id : Nat} {reading : Option Nat}
    {requests : List (ServiceRPCRequest Request)} {stage : PoolStage} (separate : pool.Separate)
    (unlistened : id ∉ pool.pulls)
    (counted :
      { pool.setReading id reading with requests := requests, loop := stage }.Counted)
    (fits :
      { pool.setReading id reading with requests := requests, loop := stage }.Fits stage) :
    { pool.setReading id reading with requests := requests, loop := stage }.Separate where
  counted := counted
  direct := separate.direct
  owned := separate.owned.frame rfl (number_setReading pool id reading)
  pulls other listed := by
    obtain ⟨calm, ended, unread⟩ := separate.pulls other listed
    refine ⟨calm, ended, unread_setReading (fun same => ?_) unread⟩
    subst same
    exact unlistened listed
  stage := fits

theorem Separate.grow {pool next : StreamPool Request Reply} (separate : pool.Separate)
    {creator : Creator} {id : Nat} (stage : pool.loop = .grow creator id)
    (stepped : pool.createStep = some next) : next.Separate := by
  have counted := separate.counted.createStep stepped
  have fits := separate.stage
  rw [stage] at fits
  unfold StreamPool.createStep at stepped
  simp only [stage] at stepped
  cases stepped
  by_cases short : pool.streams.length ≤ id
  · simp only [if_pos short] at counted ⊢
    have settles := (settles_pushBack pool).advance (.abortTestProcess creator id)
    refine separate.settles settles counted
      ⟨fun queue member => ?_, separate.direct.2⟩ ?_ (fun other unread stream member => ?_)
      (AwaitsConnect.settles fits settles)
    · rcases List.mem_append.mp member with earlier | last
      · exact separate.direct.1 queue earlier
      · exact List.mem_singleton.mp last
    · intro other owner task located stream holder
      rcases getElem?_concat_eq_some located with earlier | ⟨_, new⟩
      · rcases getElem?_concat_eq_some holder with before | ⟨far, _⟩
        · exact separate.owned other owner task earlier stream before
        · -- a future further on than the streams
          have inside := (List.getElem?_eq_some_iff.mp earlier).1
          rw [separate.counted.sized.futureStorages] at inside
          exact absurd far (Nat.ne_of_lt inside)
      · cases new
    · rcases getElem?_concat_eq_some member with earlier | ⟨_, new⟩
      · exact unread stream earlier
      · subst new
        rfl
  · simp only [if_neg short] at counted ⊢
    exact ⟨counted, separate.direct, separate.owned, separate.pulls, fits⟩

theorem Separate.listen {pool next : StreamPool Request Reply} (separate : pool.Separate)
    {creator : Creator} {id : Nat} (stage : pool.loop = .listen creator id)
    (stepped : pool.createStep = some next) : next.Separate := by
  have counted := separate.counted.createStep stepped
  have held : pool.loop.inHand = [id] := by rw [stage]; rfl
  have place := separate.counted.inside id (separate.counted.inHand_lt held)
  rw [placed, held, List.count_singleton_self] at place
  have fits := separate.stage
  rw [stage] at fits
  obtain ⟨awaits, calm, ended⟩ := fits
  unfold StreamPool.createStep at stepped
  simp only [stage] at stepped
  cases stepped
  refine ⟨counted, separate.direct, ?_, fun other listed => ?_, ?_⟩
  · intro other owner task located stream holder
    have apart : id ≠ other := by
      intro same
      subst same
      cases ended _ located
    apply separate.owned other owner task located stream
    rwa [StreamPool.listenOn, List.getElem?_modify_ne _ _ apart] at holder
  · have rest : pool.Calm other ∧ pool.Ended other ∧ (id ≠ other → pool.Unread other) := by
      rcases List.mem_append.mp listed with earlier | last
      · obtain ⟨calm, ended, unread⟩ := separate.pulls other earlier
        exact ⟨calm, ended, fun _ => unread⟩
      · cases List.mem_singleton.mp last
        exact ⟨calm, ended, fun apart => absurd rfl apart⟩
    refine ⟨rest.1, rest.2.1, fun stream holder => ?_⟩
    by_cases same : id = other
    · subst same
      simp only [StreamPool.listenOn, List.getElem?_modify_eq] at holder
      obtain ⟨before, _, rfl⟩ := Option.map_eq_some_iff.mp holder
      rfl
    · apply rest.2.2 same stream
      simpa only [StreamPool.listenOn, List.getElem?_modify_ne _ _ same] using holder
  · cases creator with
    | constructor left => cases left <;> trivial
    | connect tag =>
        obtain ⟨still, done, unlistened, connected⟩ := awaits
        refine ⟨still, done, fun listed => ?_⟩
        rcases List.mem_append.mp listed with earlier | last
        · exact unlistened earlier
        · -- the id in hand is not connected
          cases List.mem_singleton.mp last
          have positive := List.count_pos_iff.mpr connected
          omega

theorem Separate.createStep {pool next : StreamPool Request Reply} (separate : pool.Separate)
    (stepped : pool.createStep = some next) : next.Separate := by
  have counted := separate.counted.createStep stepped
  have fits := separate.stage
  have started := stepped
  unfold StreamPool.createStep at stepped
  cases stage : pool.loop with
  | grow creator id => exact separate.grow stage started
  | listen creator id => exact separate.listen stage started
  | generate creator =>
      rw [stage] at fits
      simp only [stage] at stepped
      split at stepped <;> cases stepped <;>
        exact ⟨counted, separate.direct, separate.owned, separate.pulls, fits⟩
  | abortTestProcess creator id =>
      rw [stage] at fits
      simp only [stage] at stepped
      cases stepped
      refine ⟨counted, separate.direct, separate.owned, separate.pulls, ?_⟩
      cases tested : pool.isProcess id with
      | true => exact fits
      | false => exact ⟨fits, tested⟩
  | abortTestPrompted creator id =>
      rw [stage] at fits
      simp only [stage] at stepped
      cases stepped
      refine ⟨counted, separate.direct, separate.owned, separate.pulls, ?_⟩
      cases tested : pool.isPrompted id with
      | true => exact fits.1
      | false => exact ⟨fits.1, fits.2, tested⟩
  | abortWrite creator id =>
      rw [stage] at fits
      simp only [stage] at stepped
      cases stepped
      have aborted := settles_setStatus pool id .aborted (by decide) (by decide)
      have settles := aborted.advance (.get creator id)
      exact separate.settles settles counted
        separate.direct separate.owned (fun _ unread => unread)
        ⟨AwaitsConnect.settles fits settles, calm_setStatus pool id (by decide) (by decide)⟩
  | get creator id =>
      rw [stage] at fits
      simp only [stage] at stepped
      split at stepped
      · cases stepped
        have settles := (settles_setFuture pool id .empty rfl).advance (.listen creator id)
        refine separate.settles settles counted
          separate.direct ?_ (fun _ unread => unread)
          ⟨AwaitsConnect.settles fits.1 settles, fits.2, fun future member => ?_⟩
        · exact separate.owned.setFuture fun _ _ running => by cases running
        · simp only [StreamPool.setFuture, List.getElem?_set_self'] at member
          obtain ⟨_, _, rfl⟩ := Option.map_eq_some_iff.mp member
          rfl
      · cases stepped
        exact ⟨counted, separate.direct, separate.owned, separate.pulls, trivial⟩
      · cases stepped
  | _ =>
      simp only [stage] at stepped
      cases stepped

theorem Separate.connectStep {pool next : StreamPool Request Reply} (separate : pool.Separate)
    (stepped : pool.connectStep = some next) : next.Separate := by
  have counted := separate.counted.connectStep stepped
  have inside := separate.counted.tag
  have fits := separate.stage
  unfold StreamPool.connectStep at stepped
  cases stage : pool.loop with
  | suspendTestProcess tag =>
      rw [stage] at fits
      simp only [stage, fits.1.1] at stepped
      cases stepped
      exact ⟨counted, separate.direct, separate.owned, separate.pulls, fits⟩
  | suspendTestPrompted tag =>
      rw [stage] at fits
      simp only [stage, fits.1.2] at stepped
      cases stepped
      exact ⟨counted, separate.direct, separate.owned, separate.pulls, fits⟩
  | suspendWrite tag =>
      rw [stage] at fits inside
      simp only [stage] at stepped
      cases stepped
      have suspended := settles_setStatus pool tag .suspend (by decide) (by decide)
      refine separate.settles (suspended.advance (.readFirst tag)) counted separate.direct
        separate.owned (fun _ unread => unread) ⟨?_, fits.2⟩
      have near := inside tag rfl
      rw [← separate.counted.sized.callsStatus] at near
      exact List.getElem?_set_self near
  | readFirst tag =>
      rw [stage] at fits
      simp only [stage] at stepped
      cases stepped
      exact separate.setReading fits.2.2 counted fits
  | processed tag =>
      simp only [stage] at stepped
      cases stepped
      exact ⟨counted, separate.direct, separate.owned, separate.pulls, trivial⟩
  | _ =>
      simp only [stage] at stepped
      cases stepped

/-- A READ sets the status of an id that is no listener, and replies to its call. -/
theorem Separate.announce {pool : StreamPool Request Reply} (separate : pool.Separate) {tag : Nat}
    (unlistened : tag ∉ pool.pulls) (status : ServiceCallStatus) {stage : PoolStage}
    (counted : { (pool.setStatus tag status).writeStatus tag status with loop := stage }.Counted)
    (fits : ∀ next : StreamPool Request Reply, tag ∉ next.pulls → next.Fits stage) :
    { (pool.setStatus tag status).writeStatus tag status with loop := stage }.Separate := by
  have only := onlyReplies_writeStatus (pool.setStatus tag status) tag status
  have sized := separate.counted.sized.setStatus tag status
  have direct : (pool.setStatus tag status).Direct := separate.direct
  refine ⟨counted, direct.writeStatus sized,
    separate.owned.frame only.futureStorages fun _ => by rw [only.streams]; rfl,
    fun id listed => ?_, fits _ (only.pulls ▸ unlistened)⟩
  have earlier : id ∈ pool.pulls := only.pulls ▸ listed
  obtain ⟨calm, ended, unread⟩ := separate.pulls id earlier
  have apart : tag ≠ id := by
    intro same
    subst same
    exact unlistened earlier
  have kept : (pool.setStatus tag status).callsStatus[id]? = pool.callsStatus[id]? :=
    List.getElem?_set_ne apart
  simp only [Calm, Ended, Unread, StreamPool.isProcess, StreamPool.isPrompted, only.callsStatus,
    only.futureStorages, only.streams, kept]
  exact ⟨calm, ended, unread⟩

theorem Separate.readStep {pool next : StreamPool Request Reply} (separate : pool.Separate)
    (stepped : pool.readStep = some next) : next.Separate := by
  have counted := separate.counted.readStep stepped
  have fits := separate.stage
  unfold StreamPool.readStep at stepped
  cases stage : pool.loop with
  | testSuspend tag | testProcess tag =>
      rw [stage] at fits
      simp only [stage] at stepped
      obtain ⟨request, _, rfl⟩ := Option.map_eq_some_iff.mp stepped
      refine ⟨counted, separate.direct, separate.owned, separate.pulls, ?_⟩
      simp only
      split <;> exact fits
  | processTest tag | promptTest tag =>
      rw [stage] at fits
      simp only [stage] at stepped
      cases stepped
      refine ⟨counted, separate.direct, separate.owned, separate.pulls, ?_⟩
      simp only
      split <;> exact fits
  | processWrite tag | promptWrite tag =>
      rw [stage] at fits
      simp only [stage] at stepped
      cases stepped
      exact separate.announce fits _ counted fun _ unlistened => unlistened
  | launch tag =>
      rw [stage] at fits
      simp only [stage, StreamPool.launchTask] at stepped
      split at stepped
      · rename_i future stream request _ holder _
        simp only [Option.ite_none_left_eq_some, Option.some.injEq] at stepped
        obtain ⟨_, rfl⟩ := stepped
        have started : (pool.setFuture tag (.running stream.number .callback)).TasksOwned := by
          refine separate.owned.setFuture fun owner task running other member => ?_
          cases running
          rw [holder] at member
          cases member
          rfl
        refine ⟨counted, separate.direct, started, fun id listed => ?_, fits⟩
        obtain ⟨calm, ended, unread⟩ := separate.pulls id listed
        refine ⟨calm, ended_of_set rfl (fun same => ?_) ended, unread⟩
        subst same
        exact absurd listed fits
      · cases stepped
  | readAgain tag =>
      rw [stage] at fits
      simp only [stage] at stepped
      cases stepped
      exact separate.setReading fits counted trivial
  | _ =>
      simp only [stage] at stepped
      cases stepped

/-! ## The events -/

theorem handleWrite_of_direct {pool : StreamPool Request Reply} (direct : pool.Direct) (id : Nat) :
    pool.handleWrite id = pool := by
  unfold StreamPool.handleWrite
  split
  · rename_i waiting _
    cases direct.1 _ (List.mem_of_getElem? waiting)
  · rfl

theorem Separate.event {pool next : StreamPool Request Reply} {action : PoolAction Request Reply}
    (separate : pool.Separate) (idle : pool.loop = .idle)
    (stepped : pool.event action = some next) : next.Separate := by
  have counted := separate.counted.event idle stepped
  have ended {id : Nat} {after : StreamPool Request Reply} (ends : pool.readEnds id = some after) :
      after = pool.setReading id none ∧ id ∉ pool.pulls := by
    obtain ⟨stream, holder, reading, rfl⟩ := readEnds_eq_some ends
    refine ⟨rfl, fun listed => ?_⟩
    rw [(separate.pulls id listed).2.2 stream holder] at reading
    cases reading
  cases action with
  | connect id =>
      simp only [StreamPool.event, Option.ite_none_right_eq_some, Option.some.injEq] at stepped
      obtain ⟨present, rfl⟩ := stepped
      have listed : id ∈ pool.pulls := List.contains_iff_mem.mp present
      obtain ⟨calm, done, _⟩ := separate.pulls id listed
      refine ⟨counted, separate.direct, separate.owned,
        fun other member => separate.pulls other (List.mem_of_mem_erase member),
        calm, done, fun again => ?_, List.mem_append_right _ (List.mem_singleton_self id)⟩
      -- the id was a listener once
      have positive := List.count_pos_iff.mpr again
      rw [List.count_erase_self] at positive
      by_cases near : id < pool.streamId
      · have place := separate.counted.inside id near
        rw [placed] at place
        omega
      · have place := separate.counted.outside id (Nat.le_of_not_lt near)
        rw [placed] at place
        omega
  | read id request =>
      obtain ⟨_, ends, rfl⟩ := Option.map_eq_some_iff.mp stepped
      obtain ⟨rfl, unlistened⟩ := ended ends
      exact separate.setReading unlistened counted unlistened
  | readFailed id =>
      obtain ⟨rfl, unlistened⟩ := ended stepped
      apply separate.setReading unlistened counted
      rw [idle]
      trivial
  | write id =>
      simp only [StreamPool.event, Option.ite_none_right_eq_some, Option.some.injEq] at stepped
      obtain ⟨_, rfl⟩ := stepped
      have direct : { pool with writes := pool.writes.erase id }.Direct := separate.direct
      rw [handleWrite_of_direct direct id] at counted ⊢
      exact ⟨counted, direct, separate.owned, separate.pulls, by rw [idle]; trivial⟩
  | writeFailed id | brokenPipe id =>
      simp only [StreamPool.event, Option.ite_none_right_eq_some, Option.some.injEq] at stepped
      obtain ⟨_, rfl⟩ := stepped
      exact ⟨counted, separate.direct, separate.owned, separate.pulls, by rw [idle]; trivial⟩
  | _ => cases stepped

theorem Separate.step {pool next : StreamPool Request Reply} {action : PoolAction Request Reply}
    (separate : pool.Separate) (stepped : pool.step action = some next) : next.Separate := by
  have counted := separate.counted.step stepped
  have events (event : PoolAction Request Reply)
      (stepped : (if pool.loop = .idle then pool.event event else none) = some next) :
      next.Separate := by
    simp only [Option.ite_none_right_eq_some] at stepped
    exact separate.event stepped.1 stepped.2
  cases action with
  | cancel id =>
      simp only [StreamPool.step, Option.ite_none_right_eq_some, Option.some.injEq] at stepped
      obtain ⟨_, rfl⟩ := stepped
      refine ⟨counted, separate.direct, separate.owned, separate.pulls, ?_⟩
      have settles : pool.Settles { pool with contexts := pool.contexts.set id true } :=
        ⟨fun _ before => before, fun _ before => before, fun _ before => before, rfl, rfl⟩
      exact separate.stage.settles settles fun _ _ suspended => suspended
  | loop =>
      change pool.loopStep = some next at stepped
      unfold StreamPool.loopStep at stepped
      split at stepped
      case h_13 => exact separate.readStep stepped
      all_goals first | exact separate.createStep stepped | exact separate.connectStep stepped
  | callbackSet id setter =>
      obtain ⟨connection, moves⟩ := taskMoves_callbackStep stepped
      exact separate.task moves counted
  | callbackReturn id payload =>
      obtain ⟨connection, moves⟩ := taskMoves_callbackStep stepped
      exact separate.task moves counted
  | task id =>
      obtain ⟨connection, moves⟩ := taskMoves_taskStep stepped
      exact separate.task moves counted
  | connect id => exact events _ stepped
  | read id request => exact events _ stepped
  | readFailed id => exact events _ stepped
  | write id => exact events _ stepped
  | writeFailed id => exact events _ stepped
  | brokenPipe id => exact events _ stepped

theorem separate_initial : (initial : StreamPool Request Reply).Separate where
  counted := counted_initial
  direct := ⟨fun _ member => (by cases member), fun _ member => (by cases member)⟩
  owned _ _ _ located := by cases located
  pulls _ listed := by cases listed
  stage := trivial

theorem isolated_along (run : List (PoolAction Request Reply)) :
    machine.Along Isolated (initial : StreamPool Request Reply) run := by
  have separate := machine.along_of_preserved Separate
    (fun _ _ _ separate stepped => separate.step stepped) separate_initial run
  exact separate.mono fun _ separate => separate.isolated

end StreamPool

end ProtoCore.Service
