import ProtoCore.Params.ParamClient

/-!
# The order of remote callbacks

Every value stored in a slot with a callback starts a thread of its own, and the threads
run in any order.
-/

set_option autoImplicit false

namespace ProtoCore.Params

open Library

variable {Callback Value : Type}

namespace RemoteParams

/-- The values stored in a slot, in the order of their receipt. -/
def valuesOf (state : RemoteParams Callback Value) (id : Nat) : List (GetParamRPCReply Value) :=
  (state.received.filter fun received =>
    received.slot = id ∧ received.reply.status = .normal).map Received.reply

def repliesFor (invocations : List (Invocation Value)) (id : Nat) :
    List (GetParamRPCReply Value) :=
  (invocations.filter fun invocation => invocation.slot = id).map Invocation.reply

/-- The callback of the slot is given every value once, in order, and so the last one last. -/
structure InOrder (state : RemoteParams Callback Value) (id : Nat) : Prop where
  once : (repliesFor state.called id ++ repliesFor state.threads id).Perm (state.valuesOf id)
  order : repliesFor state.called id <+: state.valuesOf id
  last : repliesFor state.threads id = [] →
    (repliesFor state.called id).getLast? = (state.valuesOf id).getLast?

/-- Every callback is called in the order of the values received for it. -/
def CallsInOrder (state : RemoteParams Callback Value) : Prop :=
  ∀ id cb, state.client.callback id = some cb → state.InOrder id

/-- A callback thread that runs carries the value that is next in the order of receipt. -/
def NextInOrder (state : RemoteParams Callback Value) : RemoteAction Callback Value → Prop
  | .invoke index => ∀ invocation ∈ state.threads[index]?,
      (state.valuesOf invocation.slot)[(repliesFor state.called invocation.slot).length]? =
        some invocation.reply
  | _ => True

instance [DecidableEq Value] (state : RemoteParams Callback Value)
    (action : RemoteAction Callback Value) : Decidable (state.NextInOrder action) := by
  cases action <;> unfold NextInOrder <;> infer_instance

/-- A callback thread that runs has no older one of its slot before it. -/
def OldestFirst (state : RemoteParams Callback Value) : RemoteAction Callback Value → Prop
  | .invoke index => ∀ invocation ∈ state.threads[index]?, ∀ older ∈ state.threads.take index,
      older.slot ≠ invocation.slot
  | _ => True

instance (state : RemoteParams Callback Value) (action : RemoteAction Callback Value) :
    Decidable (state.OldestFirst action) := by
  cases action <;> unfold OldestFirst <;> infer_instance

/-- What a callback has been given and what its threads carry are the values of its slot. -/
def Queued (state : RemoteParams Callback Value) : Prop :=
  ∀ id cb, state.client.callback id = some cb →
    repliesFor state.called id ++ repliesFor state.threads id = state.valuesOf id

theorem InOrder.of_prefix {state : RemoteParams Callback Value} {id : Nat}
    (once : (repliesFor state.called id ++ repliesFor state.threads id).Perm (state.valuesOf id))
    (order : repliesFor state.called id <+: state.valuesOf id) : state.InOrder id where
  once := once
  order := order
  last drained := by
    rw [drained, List.append_nil] at once
    rw [order.eq_of_length once.length_eq]

theorem concat_prefix_iff {Item : Type} {first whole : List Item} {item : Item}
    (initial : first <+: whole) : first ++ [item] <+: whole ↔ whole[first.length]? = some item := by
  obtain ⟨rest, rfl⟩ := initial
  rw [List.prefix_append_right_inj, List.getElem?_append_right (Nat.le_refl _), Nat.sub_self]
  cases rest with
  | nil => simp
  | cons head tail => simp [eq_comm]

theorem repliesFor_append (left right : List (Invocation Value)) (id : Nat) :
    repliesFor (left ++ right) id = repliesFor left id ++ repliesFor right id := by
  simp only [repliesFor, List.filter_append, List.map_append]

theorem repliesFor_single (invocation : Invocation Value) (id : Nat) :
    repliesFor [invocation] id = if invocation.slot = id then [invocation.reply] else [] := by
  unfold repliesFor
  by_cases same : invocation.slot = id
  · rw [if_pos same, List.filter_cons_of_pos (by simpa using same)]
    rfl
  · rw [if_neg same, List.filter_cons_of_neg (by simpa using same)]
    rfl

theorem repliesFor_unused {invocations : List (Invocation Value)} {id bound : Nat}
    (used : ∀ invocation ∈ invocations, invocation.slot < bound) (outside : bound ≤ id) :
    repliesFor invocations id = [] := by
  rw [repliesFor, List.filter_eq_nil_iff.mpr, List.map_nil]
  intro invocation member same
  have := used invocation member
  have := of_decide_eq_true same
  omega

/-- The slots that the records speak of are there, and a thread belongs to a callback. -/
structure Placed (state : RemoteParams Callback Value) : Prop where
  received : ∀ received ∈ state.received, received.slot < state.client.slots.length
  called : ∀ invocation ∈ state.called, invocation.slot < state.client.slots.length
  threads : ∀ invocation ∈ state.threads, (state.client.callback invocation.slot).isSome

theorem callback_lt {client : ParamRPCClient Callback Value} {id : Nat}
    (present : (client.callback id).isSome) : id < client.slots.length := by
  by_contra outside
  rw [ParamRPCClient.callback, List.getElem?_eq_none (Nat.le_of_not_lt outside)] at present
  cases present

/-- Nothing was received for the slot. -/
structure Unused (state : RemoteParams Callback Value) (id : Nat) : Prop where
  values : state.valuesOf id = []
  called : repliesFor state.called id = []
  threads : repliesFor state.threads id = []

theorem Placed.unused {state : RemoteParams Callback Value} (placed : state.Placed) {id : Nat}
    (outside : state.client.slots.length ≤ id) : state.Unused id where
  values := by
    rw [valuesOf, List.filter_eq_nil_iff.mpr, List.map_nil]
    intro log member same
    have := placed.received log member
    have := (of_decide_eq_true same).1
    omega
  called := repliesFor_unused placed.called outside
  threads := repliesFor_unused
    (fun invocation member => callback_lt (placed.threads invocation member)) outside

/-- What a step adds to the values of a slot, it adds to the threads of its callback. -/
structure Arrives (state next : RemoteParams Callback Value) (id : Nat) : Prop where
  called : repliesFor next.called id = repliesFor state.called id
  arrived : ∃ arrived, repliesFor next.threads id = repliesFor state.threads id ++ arrived ∧
    next.valuesOf id = state.valuesOf id ++ arrived

/-- Slots are only added, and the records stay. -/
structure Extends (state next : RemoteParams Callback Value) : Prop where
  slots : state.client.slots <+: next.client.slots
  received : next.received = state.received
  called : next.called = state.called
  threads : next.threads = state.threads

theorem Extends.callback {state next : RemoteParams Callback Value} (extended : state.Extends next)
    {id : Nat} (inside : id < state.client.slots.length) :
    next.client.callback id = state.client.callback id := by
  obtain ⟨more, same⟩ := extended.slots
  rw [ParamRPCClient.callback, ParamRPCClient.callback, ← same, List.getElem?_append_left inside]

theorem Extends.arrives {state next : RemoteParams Callback Value} (extended : state.Extends next)
    (id : Nat) : state.Arrives next id := by
  obtain ⟨_, received, called, threads⟩ := extended
  refine ⟨by rw [called], [], ?_, ?_⟩
  · rw [threads, List.append_nil]
  · rw [valuesOf, received, List.append_nil, valuesOf]

theorem Placed.extend {state next : RemoteParams Callback Value} (placed : state.Placed)
    (extended : state.Extends next) : next.Placed := by
  have longer := extended.slots.length_le
  refine ⟨?_, ?_, ?_⟩
  · rw [extended.received]
    exact fun log member => Nat.lt_of_lt_of_le (placed.received log member) longer
  · rw [extended.called]
    exact fun log member => Nat.lt_of_lt_of_le (placed.called log member) longer
  · rw [extended.threads]
    intro invocation member
    have present := placed.threads invocation member
    rw [extended.callback (callback_lt present)]
    exact present

theorem runCall_extends {state next : RemoteParams Callback Value} {id : Nat}
    {call : RemoteCall Callback} (stepped : state.runCall id call = some next) :
    state.Extends next := by
  obtain ⟨name, cb, pc, available⟩ := call
  cases pc with
  | find =>
      cases stepped
      exact ⟨List.prefix_refl _, rfl, rfl, rfl⟩
  | share =>
      cases stepped
      cases cb with
      | none => exact ⟨List.prefix_refl _, rfl, rfl, rfl⟩
      | some cb => exact ⟨List.prefix_append _ _, rfl, rfl, rfl⟩
  | get =>
      obtain ⟨slot, _, rfl⟩ := Option.map_eq_some_iff.mp stepped
      exact ⟨List.prefix_refl _, rfl, rfl, rfl⟩
  | create =>
      simp only [RemoteParams.runCall, Option.ite_none_right_eq_some, Option.some.injEq] at stepped
      obtain ⟨_, rfl⟩ := stepped
      exact ⟨List.prefix_append _ _, rfl, rfl, rfl⟩
  | pull =>
      cases stepped
      exact ⟨List.prefix_refl _, rfl, rfl, rfl⟩
  | done => cases stepped

theorem valuesOf_append (state : RemoteParams Callback Value) (received : Received Value) (id : Nat)
    {next : RemoteParams Callback Value} (log : next.received = state.received ++ [received]) :
    next.valuesOf id = state.valuesOf id ++
      if received.slot = id ∧ received.reply.status = .normal then [received.reply] else [] := by
  rw [valuesOf, valuesOf, log, List.filter_append, List.map_append]
  congr 1
  by_cases same : received.slot = id ∧ received.reply.status = .normal
  · rw [if_pos same, List.filter_cons_of_pos (by simpa using same)]
    rfl
  · rw [if_neg same, List.filter_cons_of_neg (by simpa using same)]
    rfl

theorem Placed.receive {state next : RemoteParams Callback Value} (placed : state.Placed)
    {reader : Reader} {reply : GetParamRPCReply Value}
    (stepped : state.receive reader reply = some next) : next.Placed := by
  simp only [RemoteParams.receive, Option.ite_none_right_eq_some] at stepped
  obtain ⟨_, stepped⟩ := stepped
  obtain ⟨id, _, stepped⟩ := Option.bind_eq_some_iff.mp stepped
  obtain ⟨slot, located, rfl⟩ := Option.map_eq_some_iff.mp stepped
  refine ⟨?_, ?_, ?_⟩
  · intro log member
    rw [ParamRPCClient.setSlot, List.length_set]
    rcases List.mem_append.mp member with earlier | last
    · exact placed.received log earlier
    · cases List.mem_singleton.mp last
      exact (List.getElem?_eq_some_iff.mp located).1
  · intro invocation member
    rw [ParamRPCClient.setSlot, List.length_set]
    exact placed.called invocation member
  · intro invocation member
    rw [ParamRPCClient.callback_setSlot located reply]
    simp only at member
    split at member
    · rename_i starts
      rcases List.mem_append.mp member with earlier | last
      · exact placed.threads invocation earlier
      · cases List.mem_singleton.mp last
        rw [ParamRPCClient.callback, located]
        exact (Bool.and_eq_true_iff.mp starts).1
    · exact placed.threads invocation member

/-- A reply adds the same to the values of a callback and to the threads that carry them. -/
theorem receive_arrives {state next : RemoteParams Callback Value} {reader : Reader}
    {reply : GetParamRPCReply Value} (stepped : state.receive reader reply = some next)
    {id : Nat} {cb : Callback} (found : next.client.callback id = some cb) :
    state.client.callback id = some cb ∧ state.Arrives next id := by
  simp only [RemoteParams.receive, Option.ite_none_right_eq_some] at stepped
  obtain ⟨_, stepped⟩ := stepped
  obtain ⟨active, _, stepped⟩ := Option.bind_eq_some_iff.mp stepped
  obtain ⟨slot, located, rfl⟩ := Option.map_eq_some_iff.mp stepped
  rw [ParamRPCClient.callback_setSlot located reply] at found
  refine ⟨found, rfl, if active = id ∧ reply.status = .normal then [reply] else [], ?_,
    valuesOf_append state ⟨reader.name, active, reply⟩ id rfl⟩
  by_cases same : active = id
  · subst same
    rw [ParamRPCClient.callback, located, Option.bind_some] at found
    have starts : slot.starts reply = true ↔ reply.status = .normal := by
      simp only [ParamSlot.starts, found, Option.isSome_some, Bool.true_and, beq_iff_eq]
    by_cases normal : reply.status = .normal
    · rw [if_pos (starts.mpr normal), if_pos ⟨rfl, normal⟩, repliesFor_append, repliesFor_single,
        if_pos rfl]
    · rw [if_neg (fun started => normal (starts.mp started)),
        if_neg (fun both => normal both.2), List.append_nil]
  · have elsewhere : ¬ (active = id ∧ reply.status = .normal) := fun both => same both.1
    rw [if_neg elsewhere, List.append_nil]
    dsimp only
    split
    · rw [repliesFor_append, repliesFor_single, if_neg same, List.append_nil]
    · rfl

/-- Every step but those of the callback threads. -/
theorem Placed.arrives {state next : RemoteParams Callback Value} (placed : state.Placed)
    {action : RemoteAction Callback Value} (waits : ∀ index, action ≠ .invoke index)
    (stepped : state.step action = some next) :
    next.Placed ∧ ∀ id cb, next.client.callback id = some cb → state.Arrives next id ∧
      (state.client.callback id = some cb ∨ state.Unused id) := by
  have extend (extended : state.Extends next) :
      next.Placed ∧ ∀ id cb, next.client.callback id = some cb → state.Arrives next id ∧
        (state.client.callback id = some cb ∨ state.Unused id) := by
    refine ⟨placed.extend extended, fun id cb found => ⟨extended.arrives id, ?_⟩⟩
    by_cases inside : id < state.client.slots.length
    · exact .inl ((extended.callback inside).symm.trans found)
    · -- nothing speaks of a slot that has just been made
      exact .inr (placed.unused (Nat.le_of_not_lt inside))
  cases action with
  | getRemoteParam name cb =>
      cases stepped
      exact extend ⟨List.prefix_refl _, rfl, rfl, rfl⟩
  | run id =>
      obtain ⟨call, _, stepped⟩ := Option.bind_eq_some_iff.mp stepped
      exact extend (runCall_extends stepped)
  | receive index reply =>
      obtain ⟨reader, _, stepped⟩ := Option.bind_eq_some_iff.mp stepped
      refine ⟨placed.receive stepped, fun id cb found => ?_⟩
      obtain ⟨before, arrives⟩ := receive_arrives stepped found
      exact ⟨arrives, .inl before⟩
  | endReader index =>
      obtain ⟨reader, _, rfl⟩ := Option.map_eq_some_iff.mp stepped
      exact extend ⟨List.prefix_refl _, rfl, rfl, rfl⟩
  | invoke index => exact absurd rfl (waits index)

theorem Placed.invoke {state : RemoteParams Callback Value} (placed : state.Placed) {index : Nat}
    {invocation : Invocation Value} (located : state.threads[index]? = some invocation) :
    { state with
      threads := state.threads.eraseIdx index
      called := state.called ++ [invocation] }.Placed := by
  refine ⟨placed.received, fun other member => ?_, fun other member => ?_⟩
  · rcases List.mem_append.mp member with earlier | last
    · exact placed.called other earlier
    · cases List.mem_singleton.mp last
      exact callback_lt (placed.threads invocation (List.mem_of_getElem? located))
  · exact placed.threads other (List.mem_of_mem_eraseIdx member)

/-! ## In the order of receipt -/

structure Handing (state : RemoteParams Callback Value) : Prop extends Placed state where
  inOrder : state.CallsInOrder

theorem Unused.inOrder {state : RemoteParams Callback Value} {id : Nat}
    (unused : state.Unused id) : state.InOrder id := by
  apply InOrder.of_prefix
  · rw [unused.called, unused.threads, unused.values]
    exact List.Perm.refl _
  · rw [unused.called]
    exact List.nil_prefix

theorem InOrder.arrives {state next : RemoteParams Callback Value} {id : Nat}
    (inOrder : state.InOrder id) (arrives : state.Arrives next id) : next.InOrder id := by
  obtain ⟨called, arrived, threads, values⟩ := arrives
  apply InOrder.of_prefix
  · rw [called, threads, values, ← List.append_assoc]
    exact inOrder.once.append_right _
  · rw [called, values]
    exact inOrder.order.trans (List.prefix_append _ _)

theorem invoked_perm {state : RemoteParams Callback Value} {index : Nat}
    {invocation : Invocation Value} (located : state.threads[index]? = some invocation) (id : Nat) :
    (repliesFor (state.called ++ [invocation]) id ++
      repliesFor (state.threads.eraseIdx index) id).Perm
        (repliesFor state.called id ++ repliesFor state.threads id) := by
  have moved : (repliesFor state.threads id).Perm
      (repliesFor ([invocation] ++ state.threads.eraseIdx index) id) :=
    ((perm_eraseIdx located).filter _).map _
  rw [repliesFor_append] at moved ⊢
  rw [List.append_assoc]
  exact (moved.symm.append_left _)

theorem Handing.invoke {state : RemoteParams Callback Value} (handing : state.Handing)
    {index : Nat} {invocation : Invocation Value}
    (located : state.threads[index]? = some invocation)
    (due : (state.valuesOf invocation.slot)[(repliesFor state.called invocation.slot).length]? =
      some invocation.reply) :
    { state with
      threads := state.threads.eraseIdx index
      called := state.called ++ [invocation] }.Handing := by
  refine ⟨handing.toPlaced.invoke located, fun id cb found => ?_⟩
  obtain ⟨once, order, _⟩ := handing.inOrder id cb found
  apply InOrder.of_prefix
  · exact (invoked_perm located id).trans once
  · rw [repliesFor_append, repliesFor_single]
    by_cases same : invocation.slot = id
    · subst same
      rw [if_pos rfl]
      exact (concat_prefix_iff order).mpr due
    · rw [if_neg same, List.append_nil]
      exact order

theorem Handing.step {state next : RemoteParams Callback Value}
    {action : RemoteAction Callback Value} (handing : state.Handing)
    (due : state.NextInOrder action) (stepped : state.step action = some next) :
    next.Handing := by
  by_cases runs : ∃ index, action = .invoke index
  · obtain ⟨index, rfl⟩ := runs
    obtain ⟨invocation, located, rfl⟩ := Option.map_eq_some_iff.mp stepped
    exact handing.invoke located (due invocation located)
  · obtain ⟨placed, slots⟩ :=
      handing.toPlaced.arrives (fun index same => runs ⟨index, same⟩) stepped
    refine ⟨placed, fun id cb found => ?_⟩
    obtain ⟨arrives, known | unused⟩ := slots id cb found
    · exact (handing.inOrder id cb known).arrives arrives
    · exact unused.inOrder.arrives arrives

theorem Handing.necessary {state next : RemoteParams Callback Value}
    {action : RemoteAction Callback Value} (handing : state.Handing)
    (stepped : state.step action = some next) (inOrder : next.CallsInOrder) :
    state.NextInOrder action := by
  cases action with
  | invoke index =>
      intro invocation located
      obtain ⟨other, same, rfl⟩ := Option.map_eq_some_iff.mp stepped
      cases located.symm.trans same
      obtain ⟨cb, found⟩ := Option.isSome_iff_exists.mp
        (handing.threads invocation (List.mem_of_getElem? located))
      have order := (inOrder invocation.slot cb found).order
      rw [repliesFor_append, repliesFor_single, if_pos rfl] at order
      exact (concat_prefix_iff (handing.inOrder invocation.slot cb found).order).mp order
  | _ => trivial

theorem placed_initial : (initial : RemoteParams Callback Value).Placed where
  received _ member := by cases member
  called _ member := by cases member
  threads _ member := by cases member

theorem callsInOrder_iff_nextInOrder (run : List (RemoteAction Callback Value)) :
    machine.Along CallsInOrder initial run ↔ machine.Obeys NextInOrder initial run := by
  have start : (initial : RemoteParams Callback Value).Handing :=
    ⟨placed_initial, fun _ _ found => by cases found⟩
  exact machine.along_iff_obeys Handing (fun _ handing => handing.inOrder)
    (fun _ _ _ handing due stepped => handing.step due stepped)
    (fun _ _ _ handing stepped inOrder => handing.necessary stepped inOrder) start run

/-- Two values are received, and their threads run the other way round. -/
def laterThreadFirst : List (RemoteAction Nat Nat) :=
  [.getRemoteParam "gain" (some 0), .run 0, .run 0, .run 0, .receive 0 ⟨.normal, some 5⟩,
    .receive 0 ⟨.normal, some 7⟩, .invoke 1, .invoke 0]

theorem laterThreadFirst_not_inOrder :
    ¬ machine.Along CallsInOrder initial laterThreadFirst := by
  intro along
  have evaluated : (machine.exec initial laterThreadFirst).map (fun state =>
      (state.client.callback 0, repliesFor state.called 0, state.valuesOf 0)) =
      some (some 0, [⟨.normal, some 7⟩, ⟨.normal, some 5⟩],
        [⟨.normal, some 5⟩, ⟨.normal, some 7⟩]) := by
    decide +kernel
  obtain ⟨final, executed, same⟩ := Option.map_eq_some_iff.mp evaluated
  simp only [Prod.mk.injEq] at same
  obtain ⟨found, called, values⟩ := same
  have order := (along.final executed 0 0 found).order
  rw [called, values] at order
  revert order
  decide

/-! ## The oldest thread first -/

structure Queuing (state : RemoteParams Callback Value) : Prop extends Placed state where
  queued : state.Queued

/-- The oldest thread of a slot carries the first of the replies that its threads carry. -/
theorem repliesFor_eraseIdx {threads : List (Invocation Value)} {index : Nat}
    {invocation : Invocation Value} (located : threads[index]? = some invocation)
    (oldest : ∀ older ∈ threads.take index, older.slot ≠ invocation.slot) (id : Nat) :
    repliesFor threads id =
      repliesFor [invocation] id ++ repliesFor (threads.eraseIdx index) id := by
  obtain ⟨inside, rfl⟩ := List.getElem?_eq_some_iff.mp located
  have split : threads = threads.take index ++ [threads[index]] ++ threads.drop (index + 1) := by
    rw [List.append_assoc, List.singleton_append, ← List.drop_eq_getElem_cons inside,
      List.take_append_drop]
  conv => lhs; rw [split]
  rw [List.eraseIdx_eq_take_drop_succ, repliesFor_append, repliesFor_append, repliesFor_append,
    ← List.append_assoc]
  congr 1
  by_cases same : threads[index].slot = id
  · have none : repliesFor (threads.take index) id = [] := by
      rw [repliesFor, List.filter_eq_nil_iff.mpr, List.map_nil]
      intro older member here
      exact oldest older member ((of_decide_eq_true here).trans same.symm)
    rw [none, List.nil_append, List.append_nil]
  · rw [repliesFor_single, if_neg same, List.append_nil, List.nil_append]

theorem Queuing.step {state next : RemoteParams Callback Value}
    {action : RemoteAction Callback Value} (queuing : state.Queuing)
    (oldest : state.OldestFirst action) (stepped : state.step action = some next) :
    next.Queuing := by
  by_cases runs : ∃ index, action = .invoke index
  · obtain ⟨index, rfl⟩ := runs
    obtain ⟨invocation, located, rfl⟩ := Option.map_eq_some_iff.mp stepped
    refine ⟨queuing.toPlaced.invoke located, fun id cb found => ?_⟩
    have queued := queuing.queued id cb found
    rw [repliesFor_eraseIdx located (oldest invocation located)] at queued
    rw [repliesFor_append, List.append_assoc]
    exact queued
  · obtain ⟨placed, slots⟩ :=
      queuing.toPlaced.arrives (fun index same => runs ⟨index, same⟩) stepped
    refine ⟨placed, fun id cb found => ?_⟩
    obtain ⟨⟨called, arrived, threads, values⟩, known | unused⟩ := slots id cb found
    · rw [called, threads, values, ← queuing.queued id cb known, List.append_assoc]
    · rw [called, threads, values, unused.called, unused.threads, unused.values]
      rfl

/-- The oldest thread of a slot carries the value that is next in the order of receipt. Another
thread does so only if it carries an equal reply. -/
theorem Queuing.nextInOrder {state : RemoteParams Callback Value} (queuing : state.Queuing)
    {action : RemoteAction Callback Value} (oldest : state.OldestFirst action) :
    state.NextInOrder action := by
  cases action with
  | invoke index =>
      intro invocation located
      obtain ⟨cb, found⟩ := Option.isSome_iff_exists.mp
        (queuing.threads invocation (List.mem_of_getElem? located))
      have queued := queuing.queued invocation.slot cb found
      rw [repliesFor_eraseIdx located (oldest invocation located), repliesFor_single,
        if_pos rfl] at queued
      rw [← queued, List.getElem?_append_right (Nat.le_refl _), Nat.sub_self]
      rfl
  | getRemoteParam name cb => trivial
  | run id => trivial
  | receive index reply => trivial
  | endReader index => trivial

theorem Queuing.oldestFirst {state : RemoteParams Callback Value} (queuing : state.Queuing)
    (distinct : ∀ id, (repliesFor state.threads id).Nodup)
    {action : RemoteAction Callback Value} (due : state.NextInOrder action) :
    state.OldestFirst action := by
  cases action with
  | invoke index =>
      intro invocation located older before same
      obtain ⟨cb, found⟩ := Option.isSome_iff_exists.mp
        (queuing.threads invocation (List.mem_of_getElem? located))
      have due := due invocation located
      rw [← queuing.queued invocation.slot cb found,
        List.getElem?_append_right (Nat.le_refl _), Nat.sub_self] at due
      -- the replies of the older threads come before that of this one
      have repeated := distinct invocation.slot
      rw [← List.take_append_drop index state.threads, repliesFor_append] at due repeated
      have earlier : older.reply ∈ repliesFor (state.threads.take index) invocation.slot :=
        List.mem_map.mpr ⟨older, List.mem_filter.mpr ⟨before, decide_eq_true same⟩, rfl⟩
      have later : invocation.reply ∈ repliesFor (state.threads.drop index) invocation.slot := by
        have first : (state.threads.drop index)[0]? = some invocation := by
          rw [List.getElem?_drop]
          exact located
        exact List.mem_map.mpr ⟨invocation,
          List.mem_filter.mpr ⟨List.mem_of_getElem? first, decide_eq_true rfl⟩, rfl⟩
      rw [List.getElem?_append_left (List.length_pos_of_mem earlier)] at due
      exact List.disjoint_of_nodup_append repeated (List.mem_of_getElem? due) later
  | getRemoteParam name cb => trivial
  | run id => trivial
  | receive index reply => trivial
  | endReader index => trivial

/-- When the oldest thread of a slot always runs first, the values of a slot are those that its
callback has been given and then those that its threads carry. -/
theorem queued_of_oldestFirst {run : List (RemoteAction Callback Value)}
    (oldest : machine.Obeys OldestFirst initial run) : machine.Along Queued initial run := by
  have start : (initial : RemoteParams Callback Value).Queuing :=
    ⟨placed_initial, fun _ _ found => by cases found⟩
  exact (machine.along_of_obeys
    (fun _ _ _ queuing oldest stepped => queuing.step oldest stepped) start oldest).mono
      fun _ queuing => queuing.queued

theorem Queued.callsInOrder {state : RemoteParams Callback Value} (queued : state.Queued) :
    state.CallsInOrder := by
  intro id cb found
  have values := queued id cb found
  apply InOrder.of_prefix
  · rw [values]
  · rw [← values]
    exact List.prefix_append _ _

theorem callsInOrder_of_oldestFirst {run : List (RemoteAction Callback Value)}
    (oldest : machine.Obeys OldestFirst initial run) : machine.Along CallsInOrder initial run :=
  (queued_of_oldestFirst oldest).mono fun _ queued => queued.callsInOrder

end RemoteParams

end ProtoCore.Params
