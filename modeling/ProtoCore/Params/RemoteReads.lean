import ProtoCore.Params.ParamClient

/-!
# Reads of remote parameters

A slot holds the reply stored in it last. A new slot holds none, also when it takes the
place of one that did.
-/

set_option autoImplicit false

namespace ProtoCore.Params

open Library

variable {Callback Value : Type}

namespace RemoteParams

/-- The reply a slot holds when it is the active one of its name. -/
def expected (state : RemoteParams Callback Value) (name : String) (id : Nat) :
    GetParamRPCReply Value :=
  match state.lastReceived name with
  | none => unavailable
  | some received => if received.slot = id then received.reply else unavailable

structure Tracked (state : RemoteParams Callback Value) : Prop where
  pointed : ∀ name id, state.client.getReplies name = some id → id < state.client.slots.length
  separate : ∀ left right id, state.client.getReplies left = some id →
    state.client.getReplies right = some id → left = right
  logged : ∀ received ∈ state.received, received.slot < state.client.slots.length ∧
    (state.client.getReplies received.name).isSome
  stored : ∀ name id slot, state.client.getReplies name = some id →
    state.client.slots[id]? = some slot → slot.data = state.expected name id

/-- A call that creates a slot was made before any reply for its name. -/
structure Noted (state : RemoteParams Callback Value) (call : RemoteCall Callback) : Prop where
  available : call.available = true → (state.lastReceived call.name).isSome
  creating : call.pc = .create ∨ call.pc = .pull → call.available = false

/-- Every call made after a reply has returned the reply received last. -/
def ReadsLatest (state : RemoteParams Callback Value) : Prop :=
  ∀ answer ∈ state.answers, answer.available = true → answer.latest = some answer.reply

/-- No slot of the name has been made since its last reply, or that reply is what a new slot
holds anyway. -/
def Undisturbed (state : RemoteParams Callback Value) (name : String) : Prop :=
  ∀ received ∈ state.lastReceived name,
    state.client.getReplies name = some received.slot ∨ received.reply = unavailable

instance [DecidableEq Value] (state : RemoteParams Callback Value) (name : String) :
    Decidable (state.Undisturbed name) :=
  inferInstanceAs (Decidable (∀ received ∈ state.lastReceived name, _))

/-- Such a call reads its slot only while the slot is undisturbed. -/
def ReadsUndisturbed (state : RemoteParams Callback Value) :
    RemoteAction Callback Value → Prop
  | .run id => ∀ call ∈ state.calls[id]?, call.pc = .get → call.available = true →
      state.Undisturbed call.name
  | _ => True

instance [DecidableEq Value] (state : RemoteParams Callback Value)
    (action : RemoteAction Callback Value) : Decidable (state.ReadsUndisturbed action) :=
  match action with
  | .run id =>
      inferInstanceAs (Decidable (∀ call ∈ state.calls[id]?, call.pc = .get →
        call.available = true → state.Undisturbed call.name))
  | .getRemoteParam .. | .receive .. | .endReader _ | .invoke _ => .isTrue trivial

theorem lastReceived_mem {state : RemoteParams Callback Value} {name : String}
    {received : Received Value} (last : state.lastReceived name = some received) :
    received ∈ state.received ∧ received.name = name := by
  obtain ⟨member, same⟩ := List.mem_filter.mp (List.mem_of_getLast? last)
  exact ⟨member, of_decide_eq_true same⟩

theorem lastReceived_append (state : RemoteParams Callback Value) (received : Received Value)
    (name : String) {next : RemoteParams Callback Value}
    (log : next.received = state.received ++ [received]) :
    next.lastReceived name =
      if received.name = name then some received else state.lastReceived name := by
  unfold lastReceived
  rw [log, List.filter_append]
  by_cases same : received.name = name
  · rw [if_pos same, List.filter_cons_of_pos (by simpa using same), List.filter_nil,
      List.getLast?_concat]
  · rw [if_neg same, List.filter_cons_of_neg (by simpa using same), List.filter_nil,
      List.append_nil]

theorem Tracked.frame {state next : RemoteParams Callback Value} (tracked : state.Tracked)
    (slots : next.client.slots = state.client.slots)
    (pointers : next.client.getReplies = state.client.getReplies)
    (log : next.received = state.received) : next.Tracked where
  pointed := by
    rw [slots, pointers]
    exact tracked.pointed
  separate := by
    rw [pointers]
    exact tracked.separate
  logged := by
    rw [slots, pointers, log]
    exact tracked.logged
  stored := by
    simp only [expected, lastReceived, slots, pointers, log]
    exact tracked.stored

theorem Tracked.put {state : RemoteParams Callback Value} (tracked : state.Tracked)
    (name : String) (cb : Option Callback) :
    { state with client := state.client.putSlot name cb }.Tracked where
  pointed other id found := by
    simp only [ParamRPCClient.putSlot, Function.update_apply, List.length_append,
      List.length_singleton] at found ⊢
    split at found
    · cases found
      omega
    · have := tracked.pointed other id found
      omega
  separate left right id := by
    simp only [ParamRPCClient.putSlot, Function.update_apply]
    intro first second
    split at first <;> split at second
    · rename_i sameLeft sameRight
      exact sameLeft.trans sameRight.symm
    · cases first
      have := tracked.pointed right _ second
      omega
    · cases second
      have := tracked.pointed left _ first
      omega
    · exact tracked.separate left right id first second
  logged received member := by
    obtain ⟨inside, present⟩ := tracked.logged received member
    simp only [ParamRPCClient.putSlot, Function.update_apply, List.length_append,
      List.length_singleton]
    refine ⟨by omega, ?_⟩
    split
    · rfl
    · exact present
  stored other id slot found located := by
    simp only [ParamRPCClient.putSlot, Function.update_apply] at found located
    split at found
    · rename_i same
      cases found
      -- the new slot is empty, and no reply was stored in it
      rw [List.getElem?_concat_length] at located
      cases located
      unfold expected
      cases last : lastReceived _ other with
      | none => rfl
      | some received =>
          have inside := (tracked.logged received (lastReceived_mem last).1).1
          simp only [if_neg (Nat.ne_of_lt inside)]
          rfl
    · rw [List.getElem?_append_left (tracked.pointed other id found)] at located
      exact tracked.stored other id slot found located

theorem Tracked.receive {state next : RemoteParams Callback Value} (tracked : state.Tracked)
    {reader : Reader} {reply : GetParamRPCReply Value}
    (received : state.receive reader reply = some next) : next.Tracked := by
  simp only [RemoteParams.receive, Option.ite_none_right_eq_some] at received
  obtain ⟨_, received⟩ := received
  obtain ⟨id, found, received⟩ := Option.bind_eq_some_iff.mp received
  obtain ⟨slot, located, rfl⟩ := Option.map_eq_some_iff.mp received
  have inside := tracked.pointed _ _ found
  refine ⟨?_, tracked.separate, ?_, ?_⟩
  · intro name other same
    simpa only [ParamRPCClient.setSlot, List.length_set] using tracked.pointed name other same
  · intro log member
    simp only [ParamRPCClient.setSlot, List.length_set]
    rcases List.mem_append.mp member with earlier | last
    · exact tracked.logged log earlier
    · cases List.mem_singleton.mp last
      exact ⟨inside, by rw [found]; rfl⟩
  · intro name other holder same held
    simp only [ParamRPCClient.setSlot] at same held
    unfold expected
    rw [lastReceived_append state ⟨reader.name, id, reply⟩ name rfl]
    by_cases own : reader.name = name
    · subst own
      cases found.symm.trans same
      rw [List.getElem?_set_self inside] at held
      cases held
      simp only [↓reduceIte, ParamSlot.set]
    · simp only [if_neg own]
      have apart : id ≠ other := by
        intro equal
        exact own (tracked.separate _ _ id found (equal ▸ same))
      rw [List.getElem?_set_ne apart] at held
      exact tracked.stored name other holder same held

theorem Tracked.active {state : RemoteParams Callback Value} (tracked : state.Tracked)
    {name : String} (found : state.client.findParam name = true) :
    ∃ slot, state.client.activeSlot name = some slot := by
  obtain ⟨id, pointed⟩ := Option.isSome_iff_exists.mp found
  have inside := tracked.pointed name id pointed
  refine ⟨state.client.slots[id], ?_⟩
  rw [ParamRPCClient.activeSlot, pointed, Option.bind_some, List.getElem?_eq_getElem inside]

/-- A call that no other call interrupts does what `getRemoteParam` says. -/
theorem Tracked.getRemoteParam_alone {state : RemoteParams Callback Value}
    (tracked : state.Tracked) (unshared : state.unshared = true) (name : String)
    (cb : Option Callback) :
    let id := state.calls.length
    ∃ final, machine.exec state [.getRemoteParam name cb, .run id, .run id, .run id] = some final ∧
      final.client = (state.client.getRemoteParam name cb).1 ∧
      final.answers.getLast?.map RemoteAnswer.reply =
        some (state.client.getRemoteParam name cb).2 := by
  simp only [Machine.exec, machine, step, Option.bind_some, List.getElem?_concat_length]
  cases found : state.client.findParam name with
  | false =>
      simp only [runCall, found, setCall, Option.bind_some,
        List.set_append_right _ _ (Nat.le_refl _), Nat.sub_self, List.set_cons_zero,
        List.getElem?_concat_length, Bool.false_eq_true, ↓reduceIte]
      rw [if_pos (by simpa [RemoteParams.unshared] using unshared)]
      simp [ParamRPCClient.getRemoteParam, found, answer]
  | true =>
      obtain ⟨slot, active⟩ := tracked.active found
      cases cb with
      | none =>
          simp [runCall, found, setCall, ParamRPCClient.getRemoteParam, answer,
            ParamRPCClient.replaceSlot, active]
      | some cb =>
          simp [runCall, found, setCall, ParamRPCClient.getRemoteParam, answer,
            ParamRPCClient.replaceSlot, ParamRPCClient.activeSlot_putSlot]

/-- What the condition reads off at a `get`: the answer is the last reply. -/
theorem Tracked.latest_iff {state : RemoteParams Callback Value} (tracked : state.Tracked)
    {name : String} {slot : ParamSlot Callback Value}
    (active : state.client.activeSlot name = some slot) (known : (state.lastReceived name).isSome) :
    (state.lastReceived name).map Received.reply = some slot.data ↔ state.Undisturbed name := by
  obtain ⟨id, found, located⟩ := Option.bind_eq_some_iff.mp active
  obtain ⟨received, last⟩ := Option.isSome_iff_exists.mp known
  have stored := tracked.stored name id slot found located
  simp only [expected, last] at stored
  rw [Undisturbed, last, found, stored]
  simp only [Option.map_some, Option.some.injEq, Option.mem_def, forall_eq']
  by_cases same : received.slot = id
  · simp only [same, ↓reduceIte, true_or]
  · rw [if_neg same]
    constructor
    · exact Or.inr
    · intro undisturbed
      exact undisturbed.resolve_left fun equal => same equal.symm

theorem noted_fresh (state : RemoteParams Callback Value) (name : String) (cb : Option Callback) :
    state.Noted { name := name, cb := cb, pc := .find, available := false } where
  available noted := by cases noted
  creating located := by rcases located with located | located <;> cases located

structure Reading (state : RemoteParams Callback Value) : Prop where
  tracked : state.Tracked
  noted : ∀ call ∈ state.calls, state.Noted call
  latest : state.ReadsLatest

theorem Reading.setCall {state next : RemoteParams Callback Value} (valid : state.Reading)
    (tracked : next.Tracked) (received : next.received = state.received)
    {id : Nat} {call : RemoteCall Callback} (calls : next.calls = state.calls.set id call)
    (noted : state.Noted call) (latest : next.ReadsLatest) : next.Reading := by
  refine ⟨tracked, fun other member => ?_, latest⟩
  have kept : state.Noted other := by
    rw [calls] at member
    rcases List.mem_or_eq_of_mem_set member with earlier | same
    · exact valid.noted other earlier
    · rw [same]
      exact noted
  refine ⟨?_, kept.creating⟩
  simpa only [lastReceived, received] using kept.available

theorem readsLatest_answer {state : RemoteParams Callback Value} (latest : state.ReadsLatest)
    {call : RemoteCall Callback} {reply : GetParamRPCReply Value}
    (correct : call.available = true →
      (state.lastReceived call.name).map Received.reply = some reply) :
    (state.answer call reply).ReadsLatest := by
  intro answer member
  rcases List.mem_append.mp member with earlier | last
  · exact latest answer earlier
  · cases List.mem_singleton.mp last
    exact correct

theorem Reading.runCall {state next : RemoteParams Callback Value} (valid : state.Reading)
    {id : Nat} {call : RemoteCall Callback} (located : state.calls[id]? = some call)
    (undisturbed : call.pc = .get → call.available = true → state.Undisturbed call.name)
    (stepped : state.runCall id call = some next) : next.Reading := by
  have noted := valid.noted call (List.mem_of_getElem? located)
  have tracked := valid.tracked
  obtain ⟨name, cb, pc, available⟩ := call
  cases pc with
  | find =>
      cases stepped
      refine valid.setCall (tracked.frame rfl rfl rfl) rfl rfl
        ⟨fun known => known, fun creating => ?_⟩ valid.latest
      -- a name without a slot has had no reply
      cases found : state.client.findParam name with
      | true =>
          simp only [found, ↓reduceIte] at creating
          rcases creating with same | same <;> cases same
      | false =>
          cases last : state.lastReceived name with
          | none => rfl
          | some received =>
              obtain ⟨member, same⟩ := lastReceived_mem last
              have present := (tracked.logged received member).2
              rw [same] at present
              cases found.symm.trans present
  | share =>
      cases stepped
      refine valid.setCall ?_ rfl rfl ⟨noted.available, fun creating => ?_⟩ valid.latest
      · cases cb with
        | none => exact tracked.frame rfl rfl rfl
        | some cb => exact (tracked.put name (some cb)).frame rfl rfl rfl
      · rcases creating with same | same <;> cases same
  | get =>
      obtain ⟨slot, active, rfl⟩ := Option.map_eq_some_iff.mp stepped
      refine valid.setCall (tracked.frame rfl rfl rfl) rfl rfl
        ⟨noted.available, fun creating => ?_⟩ ?_
      · rcases creating with same | same <;> cases same
      · exact readsLatest_answer valid.latest fun known =>
          (tracked.latest_iff active (noted.available known)).mpr (undisturbed rfl known)
  | create =>
      simp only [RemoteParams.runCall, Option.ite_none_right_eq_some, Option.some.injEq] at stepped
      obtain ⟨_, rfl⟩ := stepped
      refine valid.setCall ((tracked.put name cb).frame rfl rfl rfl) rfl rfl
        ⟨noted.available, fun _ => ?_⟩ valid.latest
      exact noted.creating (.inl rfl)
  | pull =>
      cases stepped
      refine valid.setCall (tracked.frame rfl rfl rfl) rfl rfl
        ⟨noted.available, fun creating => ?_⟩ ?_
      · rcases creating with same | same <;> cases same
      · refine readsLatest_answer valid.latest fun known => ?_
        cases (noted.creating (.inr rfl)).symm.trans known
  | done => cases stepped

theorem Reading.receive {state next : RemoteParams Callback Value} (valid : state.Reading)
    {reader : Reader} {reply : GetParamRPCReply Value}
    (stepped : state.receive reader reply = some next) : next.Reading := by
  have tracked := valid.tracked.receive stepped
  simp only [RemoteParams.receive, Option.ite_none_right_eq_some] at stepped
  obtain ⟨_, stepped⟩ := stepped
  obtain ⟨id, _, stepped⟩ := Option.bind_eq_some_iff.mp stepped
  obtain ⟨slot, _, rfl⟩ := Option.map_eq_some_iff.mp stepped
  refine ⟨tracked, fun call member => ?_, valid.latest⟩
  have noted := valid.noted call member
  refine ⟨fun known => ?_, noted.creating⟩
  rw [lastReceived_append state ⟨reader.name, id, reply⟩ call.name rfl]
  split
  · rfl
  · exact noted.available known

theorem Reading.step {state next : RemoteParams Callback Value}
    {action : RemoteAction Callback Value} (valid : state.Reading)
    (undisturbed : state.ReadsUndisturbed action) (stepped : state.step action = some next) :
    next.Reading := by
  obtain ⟨tracked, noted, latest⟩ := valid
  cases action with
  | getRemoteParam name cb =>
      cases stepped
      refine ⟨tracked.frame rfl rfl rfl, fun call member => ?_, latest⟩
      rcases List.mem_append.mp member with earlier | last
      · exact ⟨(noted call earlier).available, (noted call earlier).creating⟩
      · cases List.mem_singleton.mp last
        exact noted_fresh _ name cb
  | run id =>
      obtain ⟨call, located, stepped⟩ := Option.bind_eq_some_iff.mp stepped
      have valid : state.Reading := ⟨tracked, noted, latest⟩
      exact valid.runCall located (undisturbed call located) stepped
  | receive index reply =>
      obtain ⟨reader, _, stepped⟩ := Option.bind_eq_some_iff.mp stepped
      have valid : state.Reading := ⟨tracked, noted, latest⟩
      exact valid.receive stepped
  | endReader index =>
      obtain ⟨reader, _, rfl⟩ := Option.map_eq_some_iff.mp stepped
      exact ⟨tracked.frame rfl rfl rfl,
        fun call member => ⟨(noted call member).available, (noted call member).creating⟩, latest⟩
  | invoke index =>
      obtain ⟨invocation, _, rfl⟩ := Option.map_eq_some_iff.mp stepped
      exact ⟨tracked.frame rfl rfl rfl,
        fun call member => ⟨(noted call member).available, (noted call member).creating⟩, latest⟩

/-- An answer that is the last reply shows that nothing has disturbed the slot. -/
theorem Reading.necessary {state next : RemoteParams Callback Value}
    {action : RemoteAction Callback Value} (valid : state.Reading)
    (stepped : state.step action = some next) (latest : next.ReadsLatest) :
    state.ReadsUndisturbed action := by
  cases action with
  | run id =>
      intro call located reading known
      obtain ⟨other, same, stepped⟩ := Option.bind_eq_some_iff.mp stepped
      cases located.symm.trans same
      simp only [RemoteParams.runCall, reading] at stepped
      obtain ⟨slot, active, rfl⟩ := Option.map_eq_some_iff.mp stepped
      have noted := (valid.noted call (List.mem_of_getElem? located)).available known
      refine (valid.tracked.latest_iff active noted).mp ?_
      exact latest _ (List.mem_append_right _ (List.mem_singleton_self _)) known
  | _ => trivial

theorem readsLatest_iff_undisturbed (run : List (RemoteAction Callback Value)) :
    machine.Along ReadsLatest initial run ↔ machine.Obeys ReadsUndisturbed initial run := by
  have start : (initial : RemoteParams Callback Value).Reading := by
    refine ⟨⟨fun _ _ found => ?_, fun _ _ _ found => ?_, fun _ member => ?_, fun _ _ _ found => ?_⟩,
      fun _ member => ?_, fun _ member => ?_⟩
    · cases found
    · cases found
    · cases member
    · cases found
    · cases member
    · cases member
  exact machine.along_iff_obeys Reading (fun _ valid => valid.latest)
    (fun _ _ _ valid undisturbed stepped => valid.step undisturbed stepped)
    (fun _ _ _ valid stepped latest => valid.necessary stepped latest) start run

/-- A parameter is read, and then asked for again with a callback. -/
def callbackAfterRead : List (RemoteAction Nat Nat) :=
  [.getRemoteParam "gain" none, .run 0, .run 0, .run 0, .receive 0 ⟨.normal, some 5⟩,
    .getRemoteParam "gain" (some 0), .run 1, .run 1, .run 1]

theorem callbackAfterRead_not_latest : ¬ machine.Along ReadsLatest initial callbackAfterRead := by
  intro along
  have evaluated : (machine.exec initial callbackAfterRead).map (fun state => state.answers) =
      some [⟨"gain", unavailable, false, none⟩,
        ⟨"gain", unavailable, true, some ⟨.normal, some 5⟩⟩] := by
    decide +kernel
  obtain ⟨final, executed, answers⟩ := Option.map_eq_some_iff.mp evaluated
  have latest := along.final executed ⟨"gain", unavailable, true, some ⟨.normal, some 5⟩⟩ (by
    rw [answers]
    decide) rfl
  cases latest

end RemoteParams

end ProtoCore.Params
