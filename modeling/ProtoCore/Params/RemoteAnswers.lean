import ProtoCore.Params.RemoteReads
import ProtoCore.Params.Watchers

/-!
# Answers of remote parameters

What the calls for a name return are values received on that name, in the order of their
receipt. Calls that are made one at a time open one reader for each name.
-/

set_option autoImplicit false

namespace ProtoCore.Params

open Library

variable {Callback Value : Type}

/-! ## Values that follow a history -/

theorem Follows.take {payloads history : List Value} (follows : Follows payloads history)
    (count : Nat) : Follows (payloads.take count) history := by
  rw [← List.take_append_drop count payloads] at follows
  exact follows.left

theorem Follows.trans {first second history : List Value} (follows : Follows first second)
    (onwards : Follows second history) : Follows first history := by
  obtain ⟨inner, innerOrdered, innerSame⟩ := follows
  obtain ⟨outer, outerOrdered, outerSame⟩ := onwards
  have lengths : outer.length = second.length := by
    simpa only [List.length_map] using congrArg List.length outerSame
  have inside : ∀ position ∈ inner, position < outer.length := by
    intro position member
    have present : second[position]? ∈ first.map some := innerSame ▸ List.mem_map_of_mem member
    obtain ⟨payload, _, same⟩ := List.mem_map.mp present
    rw [lengths]
    exact (List.getElem?_eq_some_iff.mp same.symm).1
  refine ⟨inner.map fun position => (outer[position]?).getD 0, ?_, ?_⟩
  · rw [List.pairwise_map]
    refine innerOrdered.imp_of_mem fun {left right} leftMember rightMember before => ?_
    have leftInside := inside left leftMember
    have rightInside := inside right rightMember
    rw [List.getElem?_eq_getElem leftInside, List.getElem?_eq_getElem rightInside]
    rcases Nat.eq_or_lt_of_le before with rfl | lower
    · exact Nat.le_refl _
    · exact List.pairwise_iff_getElem.mp outerOrdered left right leftInside rightInside lower
  · rw [List.map_map, ← innerSame]
    refine List.map_congr_left fun position member => ?_
    have within := inside position member
    have located : history[outer[position]]? = second[position]? := by
      have each := congrArg (fun list => list[position]?) outerSame
      simp only [List.getElem?_map, List.getElem?_eq_getElem within, Option.map_some] at each
      have known : position < second.length := by
        rw [← lengths]
        exact within
      rw [List.getElem?_eq_getElem known] at each ⊢
      exact Option.some.inj each
    simp only [Function.comp_apply, List.getElem?_eq_getElem within, Option.getD_some]
    exact located

/-! ## What a client has received and answered -/

namespace RemoteParams

/-- The replies received on a name. -/
def repliesOf (state : RemoteParams Callback Value) (name : String) :
    List (GetParamRPCReply Value) :=
  (state.received.filter fun received => received.name = name).map Received.reply

/-- The values that the calls for a name have returned. -/
def answered (state : RemoteParams Callback Value) (name : String) : List Value :=
  (state.answers.filter fun answer => answer.name = name).filterMap fun answer =>
    answer.reply.value

theorem Tracked.runCall {state next : RemoteParams Callback Value} (tracked : state.Tracked)
    {id : Nat} {call : RemoteCall Callback} (stepped : state.runCall id call = some next) :
    next.Tracked := by
  obtain ⟨name, cb, pc, available⟩ := call
  cases pc with
  | find =>
      cases stepped
      exact tracked.frame rfl rfl rfl
  | share =>
      cases stepped
      cases cb with
      | none => exact tracked.frame rfl rfl rfl
      | some cb => exact (tracked.put name (some cb)).frame rfl rfl rfl
  | get =>
      obtain ⟨slot, _, rfl⟩ := Option.map_eq_some_iff.mp stepped
      exact tracked.frame rfl rfl rfl
  | create =>
      simp only [RemoteParams.runCall, Option.ite_none_right_eq_some, Option.some.injEq] at stepped
      obtain ⟨_, rfl⟩ := stepped
      exact (tracked.put name cb).frame rfl rfl rfl
  | pull =>
      cases stepped
      exact tracked.frame rfl rfl rfl
  | done => cases stepped

theorem Tracked.step {state next : RemoteParams Callback Value}
    {action : RemoteAction Callback Value} (tracked : state.Tracked)
    (stepped : state.step action = some next) : next.Tracked := by
  cases action with
  | getRemoteParam name cb =>
      cases stepped
      exact tracked.frame rfl rfl rfl
  | run id =>
      obtain ⟨call, _, stepped⟩ := Option.bind_eq_some_iff.mp stepped
      exact tracked.runCall stepped
  | receive index reply =>
      obtain ⟨reader, _, stepped⟩ := Option.bind_eq_some_iff.mp stepped
      exact tracked.receive stepped
  | endReader index =>
      obtain ⟨reader, _, rfl⟩ := Option.map_eq_some_iff.mp stepped
      exact tracked.frame rfl rfl rfl
  | invoke index =>
      obtain ⟨invocation, _, rfl⟩ := Option.map_eq_some_iff.mp stepped
      exact tracked.frame rfl rfl rfl

theorem repliesOf_receive {state next : RemoteParams Callback Value}
    {received : Received Value} (log : next.received = state.received ++ [received])
    (name : String) : next.repliesOf name =
      if received.name = name then state.repliesOf name ++ [received.reply]
      else state.repliesOf name := by
  unfold repliesOf
  rw [log, List.filter_append, List.map_append]
  split
  · rename_i same
    rw [List.filter_cons_of_pos (by simpa using same)]
    rfl
  · rename_i other
    rw [List.filter_cons_of_neg (by simpa using other)]
    exact List.append_nil _

theorem answered_answer (state : RemoteParams Callback Value) (call : RemoteCall Callback)
    (reply : GetParamRPCReply Value) (name : String) :
    (state.answer call reply).answered name =
      if call.name = name then state.answered name ++ reply.value.toList
      else state.answered name := by
  unfold answered answer
  rw [List.filter_append, List.filterMap_append]
  split
  · rename_i same
    rw [List.filter_cons_of_pos (by simpa using same)]
    cases located : reply.value <;>
      simp only [List.filter_nil, List.filterMap_cons, located, List.filterMap_nil,
        Option.toList_none, Option.toList_some]
  · rename_i other
    rw [List.filter_cons_of_neg (by simpa using other)]
    exact List.append_nil _

/-- What the receipt of a reply leaves as it was. -/
structure Receives (state : RemoteParams Callback Value) (name : String)
    (reply : GetParamRPCReply Value) (next : RemoteParams Callback Value) : Prop where
  log : ∃ slot, next.received = state.received ++ [⟨name, slot, reply⟩]
  answers : next.answers = state.answers
  calls : next.calls = state.calls
  readers : next.client.writeThread = state.client.writeThread
  pointers : next.client.getReplies = state.client.getReplies

theorem receives {state next : RemoteParams Callback Value} {reader : Reader}
    {reply : GetParamRPCReply Value} (stepped : state.receive reader reply = some next) :
    state.Receives reader.name reply next := by
  simp only [receive, Option.ite_none_right_eq_some] at stepped
  obtain ⟨_, stepped⟩ := stepped
  obtain ⟨id, _, stepped⟩ := Option.bind_eq_some_iff.mp stepped
  obtain ⟨slot, _, rfl⟩ := Option.map_eq_some_iff.mp stepped
  exact ⟨⟨id, rfl⟩, rfl, rfl, rfl, rfl⟩

theorem Receives.repliesOf {state next : RemoteParams Callback Value} {name : String}
    {reply : GetParamRPCReply Value} (receives : state.Receives name reply next) (other : String) :
    next.repliesOf other =
      if name = other then state.repliesOf other ++ [reply] else state.repliesOf other := by
  obtain ⟨slot, log⟩ := receives.log
  exact repliesOf_receive log other

/-- What calls have returned are values received on their name, in the order of receipt. -/
def Answered (state : RemoteParams Callback Value) : Prop :=
  ∀ name, Follows (state.answered name)
    ((state.repliesOf name).filterMap GetParamRPCReply.value)

theorem Answered.frame {state next : RemoteParams Callback Value} (answered : state.Answered)
    (answers : next.answers = state.answers) (log : next.received = state.received) :
    next.Answered := by
  intro name
  simpa only [RemoteParams.answered, repliesOf, answers, log] using answered name

theorem Answered.opened {state : RemoteParams Callback Value} (answered : state.Answered)
    (call : RemoteCall Callback) : (state.answer call unavailable).Answered := by
  intro name
  have same := state.answered_answer call unavailable name
  simp only [Params.unavailable, GetParamRPCReply.value, Option.toList_none, List.append_nil,
    ite_self] at same
  have kept := answered name
  rw [← same] at kept
  exact kept

/-- The value in the active slot is the one received last on the name. -/
theorem Tracked.getLast?_of_active {state : RemoteParams Callback Value} (tracked : state.Tracked)
    {name : String} {slot : ParamSlot Callback Value}
    (active : state.client.activeSlot name = some slot) {value : Value}
    (holds : slot.data.value = some value) :
    ((state.repliesOf name).filterMap GetParamRPCReply.value).getLast? = some value := by
  obtain ⟨id, pointed, located⟩ := Option.bind_eq_some_iff.mp active
  have stored := tracked.stored name id slot pointed located
  unfold expected at stored
  cases last : state.lastReceived name with
  | none =>
      simp only [last] at stored
      rw [stored] at holds
      cases holds
  | some received =>
      simp only [last] at stored
      split at stored
      · rw [stored] at holds
        obtain ⟨before, logged⟩ := List.getLast?_eq_some_iff.mp last
        rw [repliesOf, logged, List.map_append, List.filterMap_append, List.map_singleton,
          List.filterMap_cons_some holds]
        exact List.getLast?_concat
      · rw [stored] at holds
        cases holds

theorem Answered.get {state : RemoteParams Callback Value} (answered : state.Answered)
    (tracked : state.Tracked) {call : RemoteCall Callback} {slot : ParamSlot Callback Value}
    (active : state.client.activeSlot call.name = some slot) :
    (state.answer call slot.data).Answered := by
  intro name
  have same := state.answered_answer call slot.data name
  have received : (state.answer call slot.data).repliesOf name = state.repliesOf name := rfl
  rw [same, received]
  split
  · rename_i named
    cases holds : slot.data.value with
    | none =>
        rw [Option.toList_none, List.append_nil]
        exact answered name
    | some value =>
        rw [← named]
        exact (answered call.name).concat (tracked.getLast?_of_active active holds)
  · exact answered name

theorem Answered.runCall {state next : RemoteParams Callback Value} (answered : state.Answered)
    (tracked : state.Tracked) {id : Nat} {call : RemoteCall Callback}
    (stepped : state.runCall id call = some next) : next.Answered := by
  obtain ⟨name, cb, pc, available⟩ := call
  cases pc with
  | find =>
      cases stepped
      exact answered.frame rfl rfl
  | share =>
      cases stepped
      exact answered.frame rfl rfl
  | get =>
      obtain ⟨slot, active, rfl⟩ := Option.map_eq_some_iff.mp stepped
      exact (answered.get tracked active).frame rfl rfl
  | create =>
      simp only [RemoteParams.runCall, Option.ite_none_right_eq_some, Option.some.injEq] at stepped
      obtain ⟨_, rfl⟩ := stepped
      exact answered.frame rfl rfl
  | pull =>
      cases stepped
      exact (answered.opened ⟨name, cb, .pull, available⟩).frame rfl rfl
  | done => cases stepped

theorem Answered.step {state next : RemoteParams Callback Value}
    {action : RemoteAction Callback Value} (answered : state.Answered) (tracked : state.Tracked)
    (stepped : state.step action = some next) : next.Answered := by
  cases action with
  | getRemoteParam name cb =>
      cases stepped
      exact answered.frame rfl rfl
  | run id =>
      obtain ⟨call, _, stepped⟩ := Option.bind_eq_some_iff.mp stepped
      exact answered.runCall tracked stepped
  | receive index reply =>
      obtain ⟨reader, _, stepped⟩ := Option.bind_eq_some_iff.mp stepped
      have received := receives stepped
      intro name
      have same : next.answered name = state.answered name := by
        simp only [RemoteParams.answered, received.answers]
      rw [received.repliesOf name, same]
      split
      · rw [List.filterMap_append]
        cases holds : reply.value with
        | none =>
            rw [List.filterMap_cons_none holds, List.filterMap_nil, List.append_nil]
            exact answered name
        | some value =>
            rw [List.filterMap_cons_some holds]
            exact (answered name).later value
      · exact answered name
  | endReader index =>
      obtain ⟨reader, _, rfl⟩ := Option.map_eq_some_iff.mp stepped
      exact answered.frame rfl rfl
  | invoke index =>
      obtain ⟨invocation, _, rfl⟩ := Option.map_eq_some_iff.mp stepped
      exact answered.frame rfl rfl

/-- A call is made when those before it have returned. -/
def Alone (state : RemoteParams Callback Value) : RemoteAction Callback Value → Prop
  | .getRemoteParam .. => ∀ call ∈ state.calls, call.pc = .done
  | _ => True

/-- Calls one at a time open one reader for each name. -/
structure Orderly (state : RemoteParams Callback Value) : Prop where
  serial : ∀ (left right : Nat) first second, state.calls[left]? = some first →
    state.calls[right]? = some second → first.pc ≠ .done → second.pc ≠ .done → left = right
  creating : ∀ call ∈ state.calls, call.pc = .create → state.client.getReplies call.name = none
  pulling : ∀ call ∈ state.calls, call.pc = .pull →
    (state.client.getReplies call.name).isSome ∧
      ∀ reader ∈ state.client.writeThread, reader.name ≠ call.name
  slotted : ∀ reader ∈ state.client.writeThread, (state.client.getReplies reader.name).isSome
  sole : (state.client.writeThread.map Reader.name).Nodup
  heard : ∀ received ∈ state.received,
    ∃ reader ∈ state.client.writeThread, reader.name = received.name

theorem initial_orderly : (initial : RemoteParams Callback Value).Orderly where
  serial _ _ _ _ found := by cases found
  creating _ member := by cases member
  pulling _ member := by cases member
  slotted _ member := by cases member
  sole := List.nodup_nil
  heard _ member := by cases member

theorem Orderly.others {state : RemoteParams Callback Value} (orderly : state.Orderly) {id : Nat}
    {call moved : RemoteCall Callback} (found : state.calls[id]? = some call)
    (pending : call.pc ≠ .done) {index : Nat} {other : RemoteCall Callback}
    (located : (state.calls.set id moved)[index]? = some other) :
    index = id ∧ other = moved ∨ other.pc = .done := by
  by_cases same : index = id
  · subst same
    rw [List.getElem?_set_self (List.getElem?_eq_some_iff.mp found).1] at located
    exact .inl ⟨rfl, (Option.some.inj located).symm⟩
  · rw [List.getElem?_set_ne (Ne.symm same)] at located
    by_contra unfinished
    exact same (orderly.serial index id other call located found
      (fun done => unfinished (.inr done)) pending)

/-- The call in progress moves on, and its client with it. -/
theorem Orderly.moved {state next : RemoteParams Callback Value} (orderly : state.Orderly)
    {id : Nat} {call moved : RemoteCall Callback} (found : state.calls[id]? = some call)
    (pending : call.pc ≠ .done) (calls : next.calls = state.calls.set id moved)
    (log : next.received = state.received)
    (pointers : ∀ name, (state.client.getReplies name).isSome →
      (next.client.getReplies name).isSome)
    (readers : next.client.writeThread = state.client.writeThread)
    (creating : moved.pc = .create → next.client.getReplies moved.name = none)
    (pulling : moved.pc = .pull → (next.client.getReplies moved.name).isSome ∧
      ∀ reader ∈ state.client.writeThread, reader.name ≠ moved.name) : next.Orderly := by
  refine ⟨fun left right first second => ?_, fun other member => ?_, fun other member => ?_,
    fun reader member => ?_, ?_, ?_⟩
  · rw [calls]
    intro located later unfinished open_
    obtain ⟨rfl, _⟩ := (orderly.others found pending located).resolve_right unfinished
    obtain ⟨rfl, _⟩ := (orderly.others found pending later).resolve_right open_
    rfl
  · intro here
    rw [calls] at member
    obtain ⟨index, located⟩ := List.mem_iff_getElem?.mp member
    rcases orderly.others found pending located with ⟨_, rfl⟩ | done
    · exact creating here
    · cases here.symm.trans done
  · intro here
    rw [calls] at member
    obtain ⟨index, located⟩ := List.mem_iff_getElem?.mp member
    rcases orderly.others found pending located with ⟨_, rfl⟩ | done
    · rw [readers]
      exact pulling here
    · cases here.symm.trans done
  · rw [readers] at member
    exact pointers reader.name (orderly.slotted reader member)
  · rw [readers]
    exact orderly.sole
  · rw [readers, log]
    exact orderly.heard

theorem isSome_putSlot (client : ParamRPCClient Callback Value) (name : String)
    (cb : Option Callback) (other : String) (present : (client.getReplies other).isSome) :
    ((client.putSlot name cb).getReplies other).isSome := by
  simp only [ParamRPCClient.putSlot, Function.update_apply]
  split
  · rfl
  · exact present

theorem Orderly.openReader {state next : RemoteParams Callback Value} (orderly : state.Orderly)
    {name : String} (present : (state.client.getReplies name).isSome)
    (fresh : ∀ reader ∈ state.client.writeThread, reader.name ≠ name)
    (client : next.client = state.client.openReader name) (log : next.received = state.received)
    (calls : next.calls = state.calls) (finished : ∀ call ∈ state.calls, call.pc = .done) :
    next.Orderly where
  serial left right first second := by
    rw [calls]
    exact orderly.serial left right first second
  creating call member here := by
    rw [calls] at member
    cases here.symm.trans (finished call member)
  pulling call member here := by
    rw [calls] at member
    cases here.symm.trans (finished call member)
  slotted reader member := by
    rw [client] at member ⊢
    rcases List.mem_append.mp member with earlier | last
    · exact orderly.slotted reader earlier
    · cases List.mem_singleton.mp last
      exact present
  sole := by
    rw [client]
    simp only [ParamRPCClient.openReader, List.map_append, List.map_singleton]
    refine List.nodup_append.mpr ⟨orderly.sole, List.nodup_singleton name, ?_⟩
    intro other member last here same
    obtain ⟨reader, listed, rfl⟩ := List.mem_map.mp member
    exact fresh reader listed (same.trans (List.mem_singleton.mp here))
  heard received member := by
    rw [log] at member
    obtain ⟨reader, listed, named⟩ := orderly.heard received member
    rw [client]
    exact ⟨reader, List.mem_append_left _ listed, named⟩

theorem Orderly.runCall {state next : RemoteParams Callback Value} (orderly : state.Orderly)
    {id : Nat} {call : RemoteCall Callback} (found : state.calls[id]? = some call)
    (stepped : state.runCall id call = some next) : next.Orderly := by
  obtain ⟨name, cb, pc, available⟩ := call
  cases pc with
  | find =>
      cases stepped
      refine orderly.moved found CallPc.noConfusion rfl rfl (fun _ present => present) rfl
        (fun here => ?_) fun here => ?_
      · change state.client.getReplies name = none
        by_contra present
        have known : state.client.findParam name = true :=
          Option.isSome_iff_ne_none.mpr present
        simp only [known, if_true] at here
        cases here
      · cases known : state.client.findParam name <;> simp [known] at here
  | share =>
      cases stepped
      refine orderly.moved found CallPc.noConfusion rfl rfl (fun other present => ?_) ?_
        CallPc.noConfusion CallPc.noConfusion
      · cases cb with
        | none => exact present
        | some cb => exact isSome_putSlot state.client name (some cb) other present
      · cases cb <;> rfl
  | get =>
      obtain ⟨slot, _, rfl⟩ := Option.map_eq_some_iff.mp stepped
      exact orderly.moved found CallPc.noConfusion rfl rfl (fun _ present => present) rfl
        CallPc.noConfusion CallPc.noConfusion
  | create =>
      simp only [RemoteParams.runCall, Option.ite_none_right_eq_some, Option.some.injEq] at stepped
      obtain ⟨_, rfl⟩ := stepped
      have absent := orderly.creating _ (List.mem_of_getElem? found) rfl
      refine orderly.moved found CallPc.noConfusion rfl rfl
        (fun other present => isSome_putSlot state.client name cb other present) rfl
        CallPc.noConfusion fun _ => ⟨?_, fun reader member same => ?_⟩
      · simp only [setCall, ParamRPCClient.putSlot, Function.update_self, Option.isSome_some]
      · have present := orderly.slotted reader member
        rw [same, absent] at present
        cases present
  | pull =>
      cases stepped
      obtain ⟨present, fresh⟩ := orderly.pulling _ (List.mem_of_getElem? found) rfl
      have finished : (state.setCall id ⟨name, cb, .done, available⟩).Orderly :=
        orderly.moved found CallPc.noConfusion rfl rfl (fun _ present => present) rfl
          CallPc.noConfusion CallPc.noConfusion
      refine finished.openReader present fresh rfl rfl rfl fun other member => ?_
      obtain ⟨index, located⟩ := List.mem_iff_getElem?.mp member
      rcases orderly.others found CallPc.noConfusion located with ⟨_, rfl⟩ | done
      · rfl
      · exact done
  | done => cases stepped

theorem Orderly.getRemoteParam {state next : RemoteParams Callback Value}
    (orderly : state.Orderly) (finished : ∀ call ∈ state.calls, call.pc = .done)
    {new : RemoteCall Callback} (start : new.pc = .find) (calls : next.calls = state.calls ++ [new])
    (client : next.client = state.client) (log : next.received = state.received) :
    next.Orderly := by
  have last (index : Nat) (call : RemoteCall Callback)
      (located : next.calls[index]? = some call) (unfinished : call.pc ≠ .done) :
      index = state.calls.length := by
    rw [calls] at located
    rcases getElem?_concat_eq_some located with earlier | ⟨here, _⟩
    · exact absurd (finished call (List.mem_of_getElem? earlier)) unfinished
    · exact here
  have either (call : RemoteCall Callback) (member : call ∈ next.calls) :
      call.pc = .done ∨ call.pc = .find := by
    rw [calls] at member
    rcases List.mem_append.mp member with earlier | new
    · exact .inl (finished call earlier)
    · rw [List.mem_singleton.mp new]
      exact .inr start
  refine ⟨fun left right first second located later unfinished open_ => ?_,
    fun call member here => ?_, fun call member here => ?_, ?_, ?_, ?_⟩
  · exact (last left first located unfinished).trans (last right second later open_).symm
  · rcases either call member with done | find
    · cases here.symm.trans done
    · cases here.symm.trans find
  · rcases either call member with done | find
    · cases here.symm.trans done
    · cases here.symm.trans find
  · rw [client]
    exact orderly.slotted
  · rw [client]
    exact orderly.sole
  · rw [client, log]
    exact orderly.heard

theorem Orderly.receive {state next : RemoteParams Callback Value} (orderly : state.Orderly)
    {reader : Reader} {reply : GetParamRPCReply Value}
    (member : reader ∈ state.client.writeThread)
    (received : state.Receives reader.name reply next) : next.Orderly := by
  obtain ⟨⟨slot, log⟩, _, calls, readers, pointers⟩ := received
  refine ⟨?_, ?_, ?_, ?_, ?_, fun other listed => ?_⟩
  · rw [calls]
    exact orderly.serial
  · rw [calls, pointers]
    exact orderly.creating
  · rw [calls, pointers, readers]
    exact orderly.pulling
  · rw [pointers, readers]
    exact orderly.slotted
  · rw [readers]
    exact orderly.sole
  · rw [log] at listed
    rw [readers]
    rcases List.mem_append.mp listed with earlier | last
    · exact orderly.heard other earlier
    · cases List.mem_singleton.mp last
      exact ⟨reader, member, rfl⟩

theorem Orderly.endReader {state : RemoteParams Callback Value} (orderly : state.Orderly)
    {index : Nat} {reader : Reader} (located : state.client.writeThread[index]? = some reader) :
    { state with client := state.client.endReader index reader }.Orderly := by
  have names : ((state.client.writeThread.set index { reader with ended := true }).map
      Reader.name) = state.client.writeThread.map Reader.name := by
    obtain ⟨inside, rfl⟩ := List.getElem?_eq_some_iff.mp located
    rw [List.map_set]
    have within : index < (state.client.writeThread.map Reader.name).length := by
      rw [List.length_map]
      exact inside
    have kept := List.set_getElem_self within
    rw [List.getElem_map] at kept
    exact kept
  have named {other : Reader}
      (member : other ∈ state.client.writeThread.set index { reader with ended := true }) :
      ∃ before ∈ state.client.writeThread, before.name = other.name := by
    have listed : other.name ∈ (state.client.writeThread.set index
        { reader with ended := true }).map Reader.name := List.mem_map_of_mem member
    rw [names] at listed
    exact List.mem_map.mp listed
  refine ⟨orderly.serial, orderly.creating, fun call member here => ?_, fun other member => ?_, ?_,
    fun received listed => ?_⟩
  · obtain ⟨present, fresh⟩ := orderly.pulling call member here
    refine ⟨present, fun other listed same => ?_⟩
    obtain ⟨before, earlier, equal⟩ := named listed
    exact fresh before earlier (equal.trans same)
  · obtain ⟨before, earlier, equal⟩ := named member
    have present := orderly.slotted before earlier
    rw [equal] at present
    exact present
  · exact names ▸ orderly.sole
  · obtain ⟨before, earlier, equal⟩ := orderly.heard received listed
    have member : before.name ∈ (state.client.writeThread.set index
        { reader with ended := true }).map Reader.name := by
      rw [names]
      exact List.mem_map_of_mem earlier
    obtain ⟨later, here, same⟩ := List.mem_map.mp member
    exact ⟨later, here, same.trans equal⟩

theorem Orderly.step {state next : RemoteParams Callback Value}
    {action : RemoteAction Callback Value} (orderly : state.Orderly) (alone : state.Alone action)
    (stepped : state.step action = some next) : next.Orderly := by
  cases action with
  | getRemoteParam name cb =>
      cases stepped
      exact orderly.getRemoteParam alone rfl rfl rfl rfl
  | run id =>
      obtain ⟨call, found, stepped⟩ := Option.bind_eq_some_iff.mp stepped
      exact orderly.runCall found stepped
  | receive index reply =>
      obtain ⟨reader, located, stepped⟩ := Option.bind_eq_some_iff.mp stepped
      exact orderly.receive (List.mem_of_getElem? located) (receives stepped)
  | endReader index =>
      obtain ⟨reader, located, rfl⟩ := Option.map_eq_some_iff.mp stepped
      exact orderly.endReader located
  | invoke index =>
      obtain ⟨invocation, _, rfl⟩ := Option.map_eq_some_iff.mp stepped
      exact ⟨orderly.serial, orderly.creating, orderly.pulling, orderly.slotted, orderly.sole,
        orderly.heard⟩

end RemoteParams

end ProtoCore.Params
