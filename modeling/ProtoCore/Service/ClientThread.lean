import ProtoCore.Library.Machine
import ProtoCore.Service.ServiceClient

/-!
# The thread of a service client

The constructor starts a thread that waits for a server and reads its stream. `request` and
`cancel` join this thread when they cannot write, and `reset` joins it and starts another. A
thread that has been joined cannot be joined again.
-/

set_option autoImplicit false

namespace ProtoCore.Service

open Library

/-- What the thread does next. It is in `wait_server_addr.get()` until that has returned. -/
inductive ReaderStage where
  | getAddress
  | createConnection
  | clearRequested
  | testOk
  | read
  | ended
  deriving DecidableEq, Repr

/-- The statements of `reset` after the first. -/
inductive ResetStage where
  | join
  | assign
  deriving DecidableEq, Repr

/-- `join` of a thread that is not joinable throws. The process ends when a joinable thread is
assigned to, and when an exception leaves a thread. -/
inductive ThreadFault where
  | systemError
  | terminate
  | dataRace
  deriving DecidableEq, Repr

/-- A client with its thread. `addressed` is whether the promise behind `wait_server_addr` has
its value, and `failures` counts the writes that have failed since the thread was started. -/
structure ThreadedClient (Request Reply : Type) where
  client : ServiceClient Request Reply
  reader : ReaderStage
  joinable : Bool
  addressed : Bool
  ok : Bool
  resetting : Option ResetStage
  failures : Nat
  fault : Option ThreadFault

/-- `write` is the result of a write of the user's call and `user` any other statement of it,
`announce` the address of a server, and `reader` a statement of the thread that is no read. -/
inductive ThreadAction (Request Reply : Type) where
  | request (payload : Request)
  | cancel
  | reset
  | write (ok : Bool)
  | user
  | announce
  | reader
  | receive (reply : ServiceRPCReply Reply)
  | close
  | setAbort
  deriving DecidableEq, Repr

/-- `create_connection` up to `connected = true`. -/
def ServiceClient.openStream {Request Reply : Type} (client : ServiceClient Request Reply) :
    ServiceClient Request Reply :=
  { client with
    connected := true
    replyPromise := client.replyPromise + 1
    retrieved := false
    reading := true }

namespace ThreadedClient

variable {Request Reply : Type}

/-- The client after its constructor, which does not initialise `requested`. -/
def initial (requested : Bool) : ThreadedClient Request Reply where
  client := { ServiceClient.opened with
    connected := false
    requested := requested
    reading := false }
  reader := .getAddress
  joinable := true
  addressed := false
  ok := true
  resetting := none
  failures := 0
  fault := none

def fail (state : ThreadedClient Request Reply) (fault : ThreadFault) :
    ThreadedClient Request Reply :=
  { state with fault := some fault }

/-- No user call holds `usr_operation_mtx`. -/
def idle (state : ThreadedClient Request Reply) : Bool :=
  match state.resetting, state.client.user with
  | none, .idle => true
  | _, _ => false

/-- `wait_server_notify_thread.join()`, which waits for the end of the thread. -/
def join (state : ThreadedClient Request Reply) : Option (ThreadedClient Request Reply) :=
  if state.joinable then
    match state.reader with
    | .ended => some { state with joinable := false }
    | _ => none
  else some (state.fail .systemError)

/-- `reset` up to its join. The new promise breaks one that has no value, and the exception
leaves the thread that waits for it; the new future is put where that thread reads. -/
def reset (state : ThreadedClient Request Reply) : ThreadedClient Request Reply :=
  match state.reader with
  | .getAddress => state.fail (if state.addressed then .dataRace else .terminate)
  | _ => { state with addressed := false, resetting := some .join }

/-- The assignment of a new thread. -/
def assignThread (state : ThreadedClient Request Reply) : ThreadedClient Request Reply :=
  if state.joinable then state.fail .terminate
  else { state with
    reader := .getAddress
    joinable := true
    resetting := none
    failures := 0 }

/-- The next statement of the user's call that is no write. -/
def userStep (state : ThreadedClient Request Reply) : Option (ThreadedClient Request Reply) :=
  match state.resetting with
  | some .join => state.join.map fun joined => { joined with resetting := some .assign }
  | some .assign => some state.assignThread
  | none =>
      match state.client.user with
      | .join => state.join.map fun joined =>
          { joined with client := { joined.client with user := .idle } }
      | _ => state.client.userStep.map fun client => { state with client := client }

def readerStep (state : ThreadedClient Request Reply) : Option (ThreadedClient Request Reply) :=
  match state.reader with
  | .getAddress => if state.addressed then some { state with reader := .createConnection } else none
  | .createConnection =>
      some { state with client := state.client.openStream, reader := .clearRequested }
  | .clearRequested =>
      some { state with client := { state.client with requested := false }, reader := .testOk }
  | .testOk => some { state with reader := if state.ok then .read else .ended }
  | .read | .ended => none

/-- `stream_->Read` with its result, and what the loop does with it. -/
def readStep (state : ThreadedClient Request Reply) (result : Option (ServiceRPCReply Reply)) :
    Option (ThreadedClient Request Reply) :=
  match state.reader with
  | .read =>
      match result with
      | some reply => (state.client.receive reply).map fun client =>
          { state with client := client, reader := .testOk }
      | none => state.client.close.map fun client =>
          { state with client := client, reader := .ended }
  | _ => none

def act (state : ThreadedClient Request Reply) :
    ThreadAction Request Reply → Option (ThreadedClient Request Reply)
  | .request payload =>
      if state.idle then
        (state.client.request payload).map fun client => { state with client := client }
      else none
  | .cancel =>
      if state.idle then state.client.cancel.map fun client => { state with client := client }
      else none
  | .reset => if state.idle then some state.reset else none
  | .write ok => (state.client.write ok).map fun client =>
      { state with
        client := client
        failures := if ok then state.failures else state.failures + 1 }
  | .user => state.userStep
  | .announce => some { state with addressed := true }
  | .reader => state.readerStep
  | .receive reply => state.readStep (some reply)
  | .close => state.readStep none
  | .setAbort => some { state with ok := false }

/-- Nothing is known of what follows a fault. -/
def step (state : ThreadedClient Request Reply) (action : ThreadAction Request Reply) :
    Option (ThreadedClient Request Reply) :=
  if state.fault.isSome then none else state.act action

def machine : Machine (ThreadedClient Request Reply) (ThreadAction Request Reply) := ⟨step⟩

/-- Every `join` so far was on a joinable thread and every assignment to one that is not, and
no call has ended the process. -/
def Safe (state : ThreadedClient Request Reply) : Prop := state.fault = none

/-- The write that makes a user's call join the thread is the first to fail since the thread
was started; none has failed when `reset` joins it; and `reset` finds it past its wait for the
address of a server. -/
def Unspent (state : ThreadedClient Request Reply) : ThreadAction Request Reply → Prop
  | .reset => state.reader ≠ .getAddress
  | .user => (state.resetting = some .join → state.failures = 0) ∧
      (state.resetting = none → state.client.user = .join → state.failures = 1)
  | _ => True

/-! ## Whether the thread can be joined -/

/-- The thread can be joined until a failed write has made a call join it. -/
structure Accounted (state : ThreadedClient Request Reply) : Prop where
  sound : state.fault = none
  alone : state.resetting ≠ none → state.client.user = .idle
  failed : state.client.user = .join → 0 < state.failures
  joined : state.resetting = some .assign → state.joinable = false
  unjoined : state.resetting ≠ some .assign →
    (state.joinable = true ↔
      state.failures = 0 ∨ state.failures = 1 ∧ state.client.user = .join)

theorem accounted_initial (requested : Bool) :
    (initial requested : ThreadedClient Request Reply).Accounted where
  sound := rfl
  alone _ := rfl
  failed := nofun
  joined := nofun
  unjoined _ := ⟨fun _ => .inl rfl, fun _ => rfl⟩

/-- A step that leaves the thread object alone, and the user's call away from a join. -/
theorem Accounted.frame {state next : ThreadedClient Request Reply} (accounted : state.Accounted)
    (fault : next.fault = state.fault) (joinable : next.joinable = state.joinable)
    (resetting : next.resetting = state.resetting) (failures : next.failures = state.failures)
    (user : next.client.user = state.client.user ∨ state.resetting = none ∧
      state.client.user ≠ .join ∧ next.client.user ≠ .join) : next.Accounted := by
  obtain ⟨sound, alone, failed, joined, unjoined⟩ := accounted
  rcases user with same | ⟨free, before, after⟩
  · refine ⟨fault.trans sound, ?_, ?_, ?_, ?_⟩
    · rw [resetting, same]
      exact alone
    · rw [same, failures]
      exact failed
    · rw [resetting, joinable]
      exact joined
    · rw [resetting, joinable, failures, same]
      exact unjoined
  · refine ⟨fault.trans sound, ?_, fun here => absurd here after, ?_, ?_⟩
    · rw [resetting, free]
      exact fun busy => absurd rfl busy
    · rw [resetting, joinable]
      exact joined
    · rw [resetting, joinable, failures]
      intro elsewhere
      rw [unjoined elsewhere]
      simp only [before, after]

theorem idle_iff {state : ThreadedClient Request Reply} :
    state.idle = true ↔ state.resetting = none ∧ state.client.user = .idle := by
  unfold idle
  split
  · rename_i free unused
    exact ⟨fun _ => ⟨free, unused⟩, fun _ => rfl⟩
  · rename_i other
    exact ⟨nofun, fun ⟨free, unused⟩ => absurd unused (other free)⟩

/-! ## The user's calls -/

theorem request_user {client next : ServiceClient Request Reply} {payload : Request}
    (called : client.request payload = some next) : next.user ≠ .join := by
  unfold ServiceClient.request at called
  split at called
  · rename_i idle
    split at called <;> cases called
    · rw [idle]
      exact nofun
    · exact nofun
  · cases called

theorem cancel_user {client next : ServiceClient Request Reply}
    (called : client.cancel = some next) : next.user ≠ .join := by
  unfold ServiceClient.cancel at called
  split at called
  · rename_i idle
    split at called <;> cases called
    · rw [idle]
      exact nofun
    · exact nofun
  · cases called

theorem write_user {client next : ServiceClient Request Reply} {ok : Bool}
    (written : client.write ok = some next) :
    client.user ≠ .idle ∧ client.user ≠ .join ∧ (next.user = .join ↔ ok = false) := by
  unfold ServiceClient.write at written
  split at written
  · cases written
  · split at written
    · rename_i request here
      rw [here]
      refine ⟨nofun, nofun, ?_⟩
      split at written
      · rename_i good
        cases written
        rw [good]
        exact ⟨nofun, nofun⟩
      · rename_i bad
        cases written
        exact ⟨fun _ => Bool.eq_false_iff.mpr bad, fun _ => rfl⟩
    · rename_i here
      rw [here]
      cases written
      refine ⟨nofun, nofun, ?_⟩
      cases ok with
      | true => exact ⟨nofun, nofun⟩
      | false => exact ⟨fun _ => rfl, fun _ => rfl⟩
    · cases written

theorem userStep_user {client next : ServiceClient Request Reply} (before : client.user ≠ .join)
    (stepped : client.userStep = some next) : client.user ≠ .idle ∧ next.user ≠ .join := by
  unfold ServiceClient.userStep at stepped
  split at stepped
  · rename_i here
    cases stepped
    rw [here]
    exact ⟨nofun, nofun⟩
  · rename_i here
    rw [here]
    split at stepped <;> cases stepped <;> exact ⟨nofun, nofun⟩
  · rename_i here
    exact absurd here before
  · cases stepped

theorem Accounted.write {state : ThreadedClient Request Reply} (accounted : state.Accounted)
    {client : ServiceClient Request Reply} {ok : Bool}
    (written : state.client.write ok = some client) :
    ({ state with
      client := client
      failures := if ok then state.failures else state.failures + 1 } :
      ThreadedClient Request Reply).Accounted := by
  obtain ⟨busy, before, joins⟩ := write_user written
  have free : state.resetting = none := by
    by_contra other
    exact busy (accounted.alone other)
  have joinable := accounted.unjoined (by rw [free]; exact nofun)
  refine ⟨accounted.sound, fun other => absurd free other, fun here => ?_, ?_, fun _ => ?_⟩
  · rw [joins.mp here]
    exact Nat.succ_pos _
  · exact fun other => accounted.joined other
  · rw [joinable]
    cases ok with
    | true =>
        have after : client.user ≠ .join := fun here => nomatch joins.mp here
        simp only [before, after, if_true]
    | false =>
        have after : client.user = .join := joins.mpr rfl
        simp only [before, after, Bool.false_eq_true, if_false, and_false, or_false, and_true]
        omega

/-! ## Joins and assignments -/

/-- A join that does not throw. -/
theorem join_cases {state joined : ThreadedClient Request Reply}
    (stepped : state.join = some joined) :
    state.joinable = true ∧ joined = { state with joinable := false } ∨
      state.joinable = false ∧ joined = state.fail .systemError := by
  unfold join at stepped
  split at stepped
  · rename_i joinable
    split at stepped <;> cases stepped
    exact .inl ⟨joinable, rfl⟩
  · rename_i spent
    cases stepped
    exact .inr ⟨Bool.eq_false_iff.mpr spent, rfl⟩

theorem Accounted.userStep {state next : ThreadedClient Request Reply}
    (accounted : state.Accounted) (unspent : state.Unspent .user)
    (stepped : state.userStep = some next) : next.Accounted := by
  obtain ⟨unjoinedYet, firstFailure⟩ := unspent
  unfold ThreadedClient.userStep at stepped
  cases busy : state.resetting with
  | none =>
      have joinable := accounted.unjoined (by rw [busy]; exact nofun)
      by_cases here : state.client.user = .join
      · have one := firstFailure busy here
        simp only [busy, here] at stepped
        obtain ⟨joined, joining, rfl⟩ := Option.map_eq_some_iff.mp stepped
        have first := joinable.mpr (.inr ⟨one, here⟩)
        rcases join_cases joining with ⟨_, rfl⟩ | ⟨spent, _⟩
        · refine ⟨accounted.sound, fun _ => rfl, nofun, fun _ => rfl, fun _ => ?_⟩
          simp [one]
        · cases first.symm.trans spent
      · simp only [busy] at stepped
        obtain ⟨client, moved, rfl⟩ := Option.map_eq_some_iff.mp stepped
        have after := (userStep_user here moved).2
        exact accounted.frame rfl rfl busy.symm rfl (.inr ⟨busy, here, after⟩)
  | some stage =>
      have unused := accounted.alone (by rw [busy]; exact nofun)
      cases stage with
      | join =>
          simp only [busy] at stepped
          obtain ⟨joined, joining, rfl⟩ := Option.map_eq_some_iff.mp stepped
          have first := (accounted.unjoined (by rw [busy]; exact nofun)).mpr
            (.inl (unjoinedYet busy))
          rcases join_cases joining with ⟨_, rfl⟩ | ⟨spent, _⟩
          · refine ⟨accounted.sound, fun _ => unused, fun here => ?_, fun _ => rfl, ?_⟩
            · exact nomatch unused.symm.trans here
            · exact fun other => absurd rfl other
          · cases first.symm.trans spent
      | assign =>
          simp only [busy] at stepped
          cases stepped
          have joined := accounted.joined busy
          unfold assignThread
          rw [if_neg (by rw [joined]; exact Bool.false_ne_true)]
          refine ⟨accounted.sound, fun other => absurd rfl other, fun here => ?_, nofun, ?_⟩
          · exact nomatch unused.symm.trans here
          · exact fun _ => ⟨fun _ => .inl rfl, fun _ => rfl⟩

theorem Accounted.readerStep {state next : ThreadedClient Request Reply}
    (accounted : state.Accounted) (stepped : state.readerStep = some next) : next.Accounted := by
  unfold ThreadedClient.readerStep at stepped
  split at stepped
  · split at stepped <;> cases stepped
    exact accounted.frame rfl rfl rfl rfl (.inl rfl)
  all_goals cases stepped <;> exact accounted.frame rfl rfl rfl rfl (.inl rfl)

theorem Accounted.readStep {state next : ThreadedClient Request Reply}
    (accounted : state.Accounted) {result : Option (ServiceRPCReply Reply)}
    (stepped : state.readStep result = some next) : next.Accounted := by
  unfold ThreadedClient.readStep at stepped
  split at stepped
  · cases result with
    | some reply =>
        obtain ⟨client, received, rfl⟩ := Option.map_eq_some_iff.mp stepped
        refine accounted.frame rfl rfl rfl rfl (.inl ?_)
        unfold ServiceClient.receive at received
        split at received
        · split at received <;> cases received <;> rfl
        · cases received
    | none =>
        obtain ⟨client, closed, rfl⟩ := Option.map_eq_some_iff.mp stepped
        refine accounted.frame rfl rfl rfl rfl (.inl ?_)
        unfold ServiceClient.close at closed
        split at closed <;> cases closed
        rfl
  · cases stepped

theorem Accounted.reset {state : ThreadedClient Request Reply} (accounted : state.Accounted)
    (free : state.resetting = none) (unused : state.client.user = .idle)
    (past : state.reader ≠ .getAddress) : state.reset.Accounted := by
  have joinable := accounted.unjoined (by rw [free]; exact nofun)
  unfold ThreadedClient.reset
  split
  · rename_i waiting
    exact absurd waiting past
  · refine ⟨accounted.sound, fun _ => unused, ?_, nofun, fun _ => joinable⟩
    exact accounted.failed

theorem Accounted.act_of_step {state next : ThreadedClient Request Reply}
    {action : ThreadAction Request Reply} (accounted : state.Accounted)
    (stepped : state.step action = some next) : state.act action = some next := by
  unfold ThreadedClient.step at stepped
  rw [if_neg (by rw [accounted.sound]; exact nofun)] at stepped
  exact stepped

theorem Accounted.step {state next : ThreadedClient Request Reply}
    {action : ThreadAction Request Reply} (accounted : state.Accounted)
    (unspent : state.Unspent action) (stepped : state.step action = some next) :
    next.Accounted := by
  have stepped := accounted.act_of_step stepped
  unfold act at stepped
  cases action with
  | request payload =>
      dsimp only at stepped
      split at stepped
      · rename_i idle
        obtain ⟨free, unused⟩ := idle_iff.mp idle
        obtain ⟨client, called, rfl⟩ := Option.map_eq_some_iff.mp stepped
        exact accounted.frame rfl rfl rfl rfl
          (.inr ⟨free, by rw [unused]; exact nofun, request_user called⟩)
      · cases stepped
  | cancel =>
      dsimp only at stepped
      split at stepped
      · rename_i idle
        obtain ⟨free, unused⟩ := idle_iff.mp idle
        obtain ⟨client, called, rfl⟩ := Option.map_eq_some_iff.mp stepped
        exact accounted.frame rfl rfl rfl rfl
          (.inr ⟨free, by rw [unused]; exact nofun, cancel_user called⟩)
      · cases stepped
  | reset =>
      dsimp only at stepped
      split at stepped
      · rename_i idle
        obtain ⟨free, unused⟩ := idle_iff.mp idle
        cases stepped
        exact accounted.reset free unused unspent
      · cases stepped
  | write ok =>
      obtain ⟨client, written, rfl⟩ := Option.map_eq_some_iff.mp stepped
      exact accounted.write written
  | user => exact accounted.userStep unspent stepped
  | announce =>
      cases stepped
      exact accounted.frame rfl rfl rfl rfl (.inl rfl)
  | reader => exact accounted.readerStep stepped
  | receive reply => exact accounted.readStep stepped
  | close => exact accounted.readStep stepped
  | setAbort =>
      cases stepped
      exact accounted.frame rfl rfl rfl rfl (.inl rfl)

/-- A step that does not go wrong has met the condition. -/
theorem Accounted.unspent {state next : ThreadedClient Request Reply}
    {action : ThreadAction Request Reply} (accounted : state.Accounted)
    (stepped : state.step action = some next) (safe : next.Safe) : state.Unspent action := by
  have stepped := accounted.act_of_step stepped
  unfold act at stepped
  cases action with
  | reset =>
      intro waiting
      dsimp only at stepped
      split at stepped
      · cases stepped
        unfold Safe ThreadedClient.reset at safe
        rw [waiting] at safe
        cases safe
      · cases stepped
  | user =>
      change state.userStep = some next at stepped
      unfold ThreadedClient.userStep at stepped
      constructor
      · intro busy
        have unused := accounted.alone (by rw [busy]; exact nofun)
        have joinable := accounted.unjoined (by rw [busy]; exact nofun)
        simp only [busy] at stepped
        obtain ⟨joined, joining, rfl⟩ := Option.map_eq_some_iff.mp stepped
        rcases join_cases joining with ⟨first, _⟩ | ⟨_, rfl⟩
        · rcases joinable.mp first with none | ⟨_, here⟩
          · exact none
          · cases unused.symm.trans here
        · cases safe
      · intro free here
        have joinable := accounted.unjoined (by rw [free]; exact nofun)
        have positive := accounted.failed here
        simp only [free, here] at stepped
        obtain ⟨joined, joining, rfl⟩ := Option.map_eq_some_iff.mp stepped
        rcases join_cases joining with ⟨first, _⟩ | ⟨_, rfl⟩
        · rcases joinable.mp first with none | ⟨one, _⟩
          · omega
          · exact one
        · cases safe
  | _ => trivial

/-- Along every sequence of calls, connections, stream closures and failing writes, the thread
is joined and replaced only when it may be, if and only if it is joined for at most one
failed write, is not reset after that one, and is not reset while it waits for a server. -/
theorem safe_iff_unspent (requested : Bool) (run : List (ThreadAction Request Reply)) :
    machine.Along Safe (initial requested : ThreadedClient Request Reply) run ↔
      machine.Obeys Unspent (initial requested) run :=
  machine.along_iff_obeys Accounted (fun _ accounted => accounted.sound)
    (fun _ _ _ accounted unspent stepped => accounted.step unspent stepped)
    (fun _ _ _ accounted stepped safe => accounted.unspent stepped safe)
    (accounted_initial requested) run

/-- The server goes away, the next request cannot be written, and the user resets. -/
def resetAfterFailedRequest : List (ThreadAction Nat Nat) :=
  [.announce, .reader, .reader, .reader, .reader, .request 1, .close, .write false, .user, .reset,
    .user]

theorem resetAfterFailedRequest_not_safe :
    ¬ machine.Along Safe (initial false : ThreadedClient Nat Nat) resetAfterFailedRequest := by
  intro along
  have thrown : (machine.exec (initial false) resetAfterFailedRequest).map
      ThreadedClient.fault = some (some .systemError) := by
    decide
  obtain ⟨final, executed, fault⟩ := Option.map_eq_some_iff.mp thrown
  cases (along.final executed).symm.trans fault

end ThreadedClient

end ProtoCore.Service
