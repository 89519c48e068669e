import ProtoCore.Params.ParamClient

/-!
# The parameter clients of a node

The club has a client for each node it knows, and a queue of the callbacks asked for. The
queue is given to every new client and never emptied. Each operation holds the mutex of the
club; a reply that is stored meanwhile changes no callback.
-/

set_option autoImplicit false

namespace ProtoCore.Params

open Library

variable {Callback Value : Type}

structure GetRequestPack (Callback : Type) where
  name : String
  cb : Callback
  deriving DecidableEq, Repr

/-- A callback that was asked for, and the node it was asked for at. -/
structure Registration (Callback : Type) where
  namespace_ : String
  pack : GetRequestPack Callback
  deriving DecidableEq, Repr

/-- `registered` records the calls with a callback. -/
structure ParamRPCClientClub (Callback Value : Type) where
  clients : String → Option (ParamRPCClient Callback Value)
  getRequestsQueue : String → List (GetRequestPack Callback)
  registered : List (Registration Callback)

inductive ParamClubAction (Callback Value : Type) where
  | getRemoteRequest (namespace_ name : String)
  | getRemoteDynamicRequest (namespace_ name : String) (cb : Callback)
  | addClient (namespace_ : String)
  | deleteClient (namespace_ : String)
  | receive (namespace_ : String) (reader : Nat) (reply : GetParamRPCReply Value)
  | endReader (namespace_ : String) (reader : Nat)
  deriving DecidableEq, Repr

namespace ParamRPCClientClub

def initial : ParamRPCClientClub Callback Value where
  clients _ := none
  getRequestsQueue _ := []
  registered := []

def setClient (club : ParamRPCClientClub Callback Value) (namespace_ : String)
    (client : Option (ParamRPCClient Callback Value)) : ParamRPCClientClub Callback Value :=
  { club with clients := Function.update club.clients namespace_ client }

/-- `getRemoteRequest` for a value. The request does not go into the queue. -/
def getRemoteRequest (club : ParamRPCClientClub Callback Value) (namespace_ name : String) :
    ParamRPCClientClub Callback Value × GetParamRPCReply Value :=
  match club.clients namespace_ with
  | none => (club, unavailable)
  | some client =>
      let (client, reply) := client.getRemoteParam name none
      (club.setClient namespace_ (some client), reply)

def pushRequest (club : ParamRPCClientClub Callback Value) (namespace_ : String)
    (pack : GetRequestPack Callback) : ParamRPCClientClub Callback Value :=
  { club with
    getRequestsQueue := Function.update club.getRequestsQueue namespace_
      (club.getRequestsQueue namespace_ ++ [pack])
    registered := club.registered ++ [⟨namespace_, pack⟩] }

/-- `getRemoteRequest` for a callback. -/
def getRemoteDynamicRequest (club : ParamRPCClientClub Callback Value)
    (namespace_ name : String) (cb : Callback) :
    ParamRPCClientClub Callback Value × ParameterStatus :=
  let club := club.pushRequest namespace_ ⟨name, cb⟩
  match club.clients namespace_ with
  | none => (club, .tmepNotAvaliable)
  | some client =>
      let (client, reply) := client.getRemoteParam name (some cb)
      (club.setClient namespace_ (some client), reply.status)

/-- The client of the node is destroyed, which waits for its readers. -/
def deleteClient (club : ParamRPCClientClub Callback Value) (namespace_ : String) :
    Option (ParamRPCClientClub Callback Value) :=
  match club.clients namespace_ with
  | none => some club
  | some client => if client.joined then some (club.setClient namespace_ none) else none

def replay (client : ParamRPCClient Callback Value) (queue : List (GetRequestPack Callback)) :
    ParamRPCClient Callback Value :=
  queue.foldl (fun client pack => (client.getRemoteParam pack.name (some pack.cb)).1) client

def addClient (club : ParamRPCClientClub Callback Value) (namespace_ : String) :
    Option (ParamRPCClientClub Callback Value) :=
  (club.deleteClient namespace_).map fun club =>
    club.setClient namespace_ (some (replay .new (club.getRequestsQueue namespace_)))

/-- A reader stores a reply in the slot that is active for its name. -/
def receive (client : ParamRPCClient Callback Value) (index : Nat)
    (reply : GetParamRPCReply Value) : Option (ParamRPCClient Callback Value) :=
  (client.writeThread[index]?).bind fun reader =>
    if reader.ended then none
    else (client.getReplies reader.name).bind fun id =>
      (client.slots[id]?).map fun slot => client.setSlot id (slot.set reply)

def step (club : ParamRPCClientClub Callback Value) :
    ParamClubAction Callback Value → Option (ParamRPCClientClub Callback Value)
  | .getRemoteRequest namespace_ name => some (club.getRemoteRequest namespace_ name).1
  | .getRemoteDynamicRequest namespace_ name cb =>
      some (club.getRemoteDynamicRequest namespace_ name cb).1
  | .addClient namespace_ => club.addClient namespace_
  | .deleteClient namespace_ => club.deleteClient namespace_
  | .receive namespace_ index reply =>
      (club.clients namespace_).bind fun client =>
        (receive client index reply).map fun client => club.setClient namespace_ (some client)
  | .endReader namespace_ index =>
      (club.clients namespace_).bind fun client =>
        (client.writeThread[index]?).map fun reader =>
          club.setClient namespace_ (some (client.endReader index reader))

def machine : Machine (ParamRPCClientClub Callback Value) (ParamClubAction Callback Value) :=
  ⟨step⟩

/-- The callback asked for last. -/
def lastRegistered (club : ParamRPCClientClub Callback Value) (namespace_ name : String) :
    Option Callback :=
  ((club.registered.filter fun registration =>
    registration.namespace_ = namespace_ ∧ registration.pack.name = name).getLast?).map
      fun registration => registration.pack.cb

end ParamRPCClientClub

namespace ParamRPCClient

/-- The streams that the client has opened for a name. -/
def readersOf (client : ParamRPCClient Callback Value) (name : String) : Nat :=
  client.writeThread.countP fun reader => reader.name = name

def activeCallback (client : ParamRPCClient Callback Value) (name : String) : Option Callback :=
  (client.activeSlot name).bind ParamSlot.cb

def lastOf (queue : List (GetRequestPack Callback)) (name : String) : Option Callback :=
  ((queue.filter fun pack => pack.name = name).getLast?).map GetRequestPack.cb

/-- The slots agree with the queue, and the readers with the slots. -/
structure Holds (client : ParamRPCClient Callback Value) (queue : List (GetRequestPack Callback)) :
    Prop where
  pointed : ∀ name id, client.getReplies name = some id → id < client.slots.length
  active : ∀ name cb, lastOf queue name = some cb → client.activeCallback name = some cb
  readers : ∀ name, client.readersOf name = if client.findParam name then 1 else 0

theorem lastOf_append (queue : List (GetRequestPack Callback)) (pack : GetRequestPack Callback)
    (name : String) :
    lastOf (queue ++ [pack]) name =
      if pack.name = name then some pack.cb else lastOf queue name := by
  unfold lastOf
  rw [List.filter_append]
  by_cases same : pack.name = name
  · rw [if_pos same, List.filter_cons_of_pos (by simpa using same), List.filter_nil,
      List.getLast?_concat, Option.map_some]
  · rw [if_neg same, List.filter_cons_of_neg (by simpa using same), List.filter_nil,
      List.append_nil]

theorem activeCallback_putSlot {client : ParamRPCClient Callback Value}
    (pointed : ∀ name id, client.getReplies name = some id → id < client.slots.length)
    (name other : String) (cb : Option Callback) :
    (client.putSlot name cb).activeCallback other =
      if name = other then cb else client.activeCallback other := by
  by_cases same : name = other
  · rw [if_pos same, activeCallback, same, activeSlot_putSlot]
    rfl
  · rw [if_neg same]
    have apart : other ≠ name := Ne.symm same
    simp only [activeCallback, activeSlot, putSlot, Function.update_of_ne apart]
    cases found : client.getReplies other with
    | none => rfl
    | some id =>
        rw [Option.bind_some, Option.bind_some,
          List.getElem?_append_left (pointed other id found)]

theorem findParam_putSlot (client : ParamRPCClient Callback Value) (name other : String)
    (cb : Option Callback) :
    (client.putSlot name cb).findParam other = true ↔
      name = other ∨ client.findParam other = true := by
  simp only [findParam, putSlot, Function.update_apply]
  by_cases same : other = name
  · simp [same]
  · simp [same, Ne.symm same]

theorem readersOf_openReader (client : ParamRPCClient Callback Value) (name other : String) :
    (client.openReader name).readersOf other =
      client.readersOf other + if name = other then 1 else 0 := by
  simp only [readersOf, openReader, List.countP_append, List.countP_singleton, decide_eq_true_eq]

theorem pointed_putSlot {client : ParamRPCClient Callback Value}
    (pointed : ∀ name id, client.getReplies name = some id → id < client.slots.length)
    (name : String) (cb : Option Callback) (other : String) (id : Nat)
    (found : (client.putSlot name cb).getReplies other = some id) :
    id < (client.putSlot name cb).slots.length := by
  simp only [putSlot, Function.update_apply, List.length_append, List.length_singleton] at found ⊢
  by_cases same : other = name
  · rw [if_pos same] at found
    cases found
    omega
  · rw [if_neg same] at found
    have := pointed other id found
    omega

/-- A slot made for the last entry of a queue holds its callback. -/
theorem Holds.putCallback {client : ParamRPCClient Callback Value}
    {queue : List (GetRequestPack Callback)} (holds : client.Holds queue)
    (pack : GetRequestPack Callback) (name : String) (cb : Callback)
    (last : lastOf (queue ++ [pack]) name = some cb) :
    (client.putSlot pack.name (some pack.cb)).activeCallback name = some cb := by
  rw [activeCallback_putSlot holds.pointed]
  rw [lastOf_append] at last
  by_cases same : pack.name = name
  · rw [if_pos same] at last ⊢
    exact last
  · rw [if_neg same] at last ⊢
    exact holds.active name cb last

theorem Holds.readersKept {client : ParamRPCClient Callback Value}
    {queue : List (GetRequestPack Callback)} (holds : client.Holds queue) {name : String}
    (found : client.findParam name = true) (cb : Option Callback) (other : String) :
    (client.putSlot name cb).readersOf other =
      if (client.putSlot name cb).findParam other then 1 else 0 := by
  have same : (client.putSlot name cb).findParam other = client.findParam other := by
    rw [Bool.eq_iff_iff, findParam_putSlot]
    constructor
    · rintro (rfl | present)
      · exact found
      · exact present
    · exact Or.inr
  rw [same]
  exact holds.readers other

theorem Holds.readerOpened {client : ParamRPCClient Callback Value}
    {queue : List (GetRequestPack Callback)} (holds : client.Holds queue) {name : String}
    (missing : client.findParam name = false) (cb : Option Callback) (other : String) :
    ((client.putSlot name cb).openReader name).readersOf other =
      if ((client.putSlot name cb).openReader name).findParam other then 1 else 0 := by
  have before : (client.putSlot name cb).readersOf other =
      if client.findParam other then 1 else 0 := holds.readers other
  have present := findParam_putSlot client name other cb
  change _ = if (client.putSlot name cb).findParam other then 1 else 0
  rw [readersOf_openReader, before]
  by_cases same : name = other
  · subst same
    rw [if_pos rfl, if_pos (present.mpr (.inl rfl)), missing]
    rfl
  · rw [if_neg same, Nat.add_zero]
    simp only [present, same, false_or]

/-- A call with a callback puts the callback in the active slot, whatever was there. -/
theorem Holds.asked {client : ParamRPCClient Callback Value}
    {queue : List (GetRequestPack Callback)} (holds : client.Holds queue)
    (pack : GetRequestPack Callback) :
    (client.getRemoteParam pack.name (some pack.cb)).1.Holds (queue ++ [pack]) := by
  unfold getRemoteParam
  cases found : client.findParam pack.name with
  | true =>
      exact ⟨pointed_putSlot holds.pointed pack.name (some pack.cb), holds.putCallback pack,
        holds.readersKept found (some pack.cb)⟩
  | false =>
      exact ⟨pointed_putSlot holds.pointed pack.name (some pack.cb), holds.putCallback pack,
        holds.readerOpened found (some pack.cb)⟩

/-- A plain call makes a slot only for a name that has no callback. -/
theorem Holds.read {client : ParamRPCClient Callback Value}
    {queue : List (GetRequestPack Callback)} (holds : client.Holds queue) (name : String) :
    (client.getRemoteParam name none).1.Holds queue := by
  unfold getRemoteParam
  cases found : client.findParam name with
  | true => exact holds
  | false =>
      refine ⟨pointed_putSlot holds.pointed name none, fun other cb last => ?_,
        holds.readerOpened found none⟩
      have active := holds.active other cb last
      have apart : name ≠ other := by
        intro same
        subst same
        have missing : client.getReplies name = none := Option.isNone_iff_eq_none.mp (by
          simpa only [findParam, Option.isSome_eq_false_iff] using found)
        rw [activeCallback, activeSlot, missing] at active
        cases active
      change (client.putSlot name none).activeCallback other = some cb
      rw [activeCallback_putSlot holds.pointed, if_neg apart]
      exact active

theorem holds_new : (new : ParamRPCClient Callback Value).Holds [] where
  pointed _ _ found := by cases found
  active _ _ last := by cases last
  readers _ := rfl

theorem Holds.stored {client : ParamRPCClient Callback Value}
    {queue : List (GetRequestPack Callback)} (holds : client.Holds queue) {id : Nat}
    {slot : ParamSlot Callback Value} (located : client.slots[id]? = some slot)
    (reply : GetParamRPCReply Value) : (client.setSlot id (slot.set reply)).Holds queue where
  pointed name other found := by
    rw [setSlot, List.length_set]
    exact holds.pointed name other found
  active name cb last := by
    have active := holds.active name cb last
    simp only [activeCallback, activeSlot, Option.bind_assoc] at active ⊢
    rw [← active]
    exact congrArg _ (funext fun other => callback_setSlot located reply other)
  readers := holds.readers

theorem Holds.readerEnded {client : ParamRPCClient Callback Value}
    {queue : List (GetRequestPack Callback)} (holds : client.Holds queue) {index : Nat}
    {reader : Reader} (located : client.writeThread[index]? = some reader) :
    (client.endReader index reader).Holds queue where
  pointed := holds.pointed
  active := holds.active
  readers name := by
    have same := (perm_set located { reader with ended := true }).countP_eq
      fun reader => reader.name = name
    have before := (perm_eraseIdx located).countP_eq fun reader => reader.name = name
    rw [List.countP_cons] at same before
    have kept : (client.endReader index reader).readersOf name = client.readersOf name :=
      same.trans before.symm
    rw [kept]
    exact holds.readers name

end ParamRPCClient

namespace ParamRPCClientClub

/-- Every live client calls the callback registered last, and has one reader for a name. -/
def CallbacksKept (club : ParamRPCClientClub Callback Value) : Prop :=
  ∀ namespace_ client, club.clients namespace_ = some client → ∀ name,
    (∀ cb, club.lastRegistered namespace_ name = some cb → client.activeCallback name = some cb) ∧
      client.readersOf name ≤ 1

structure Agreed (club : ParamRPCClientClub Callback Value) : Prop where
  clients : ∀ namespace_ client, club.clients namespace_ = some client →
    client.Holds (club.getRequestsQueue namespace_)
  queued : ∀ namespace_, (club.registered.filter fun registration =>
    registration.namespace_ = namespace_).map Registration.pack = club.getRequestsQueue namespace_

theorem Agreed.lastRegistered {club : ParamRPCClientClub Callback Value} (agreed : club.Agreed)
    (namespace_ name : String) :
    club.lastRegistered namespace_ name =
      ParamRPCClient.lastOf (club.getRequestsQueue namespace_) name := by
  rw [← agreed.queued namespace_]
  simp only [ParamRPCClientClub.lastRegistered, ParamRPCClient.lastOf, List.filter_map,
    List.getLast?_map, Option.map_map, List.filter_filter]
  congr 3
  funext registration
  simp only [Function.comp_apply, Bool.decide_and, Bool.and_comm]

theorem Agreed.kept {club : ParamRPCClientClub Callback Value} (agreed : club.Agreed) :
    club.CallbacksKept := by
  intro namespace_ client found name
  have holds := agreed.clients namespace_ client found
  refine ⟨fun cb last => holds.active name cb ?_, ?_⟩
  · rw [← agreed.lastRegistered]
    exact last
  · rw [holds.readers]
    split <;> omega

theorem Agreed.set {club : ParamRPCClientClub Callback Value} (agreed : club.Agreed)
    {namespace_ : String} {entry : Option (ParamRPCClient Callback Value)}
    (valid : ∀ client, entry = some client → client.Holds (club.getRequestsQueue namespace_)) :
    (club.setClient namespace_ entry).Agreed := by
  refine ⟨fun other client found => ?_, agreed.queued⟩
  simp only [setClient, Function.update_apply] at found ⊢
  by_cases same : other = namespace_
  · rw [if_pos same] at found
    rw [same]
    exact valid client found
  · rw [if_neg same] at found
    exact agreed.clients other client found

theorem holds_replay {client : ParamRPCClient Callback Value}
    {before : List (GetRequestPack Callback)} (holds : client.Holds before)
    (queue : List (GetRequestPack Callback)) : (replay client queue).Holds (before ++ queue) := by
  induction queue generalizing client before with
  | nil =>
      rw [List.append_nil]
      exact holds
  | cons pack rest ih =>
      have next := ih (holds.asked pack)
      rw [List.append_assoc, List.singleton_append] at next
      exact next

theorem Agreed.deleted {club next : ParamRPCClientClub Callback Value} (agreed : club.Agreed)
    {namespace_ : String} (deleted : club.deleteClient namespace_ = some next) :
    next.Agreed := by
  unfold deleteClient at deleted
  cases found : club.clients namespace_ with
  | none =>
      rw [found] at deleted
      cases deleted
      exact agreed
  | some client =>
      rw [found] at deleted
      simp only [Option.ite_none_right_eq_some, Option.some.injEq] at deleted
      obtain ⟨_, rfl⟩ := deleted
      apply agreed.set
      intro other same
      cases same

theorem Agreed.added {club next : ParamRPCClientClub Callback Value} (agreed : club.Agreed)
    {namespace_ : String} (added : club.addClient namespace_ = some next) : next.Agreed := by
  obtain ⟨remaining, deleted, rfl⟩ := Option.map_eq_some_iff.mp added
  apply (agreed.deleted deleted).set
  intro client same
  cases same
  exact holds_replay ParamRPCClient.holds_new (remaining.getRequestsQueue namespace_)

theorem Agreed.read {club : ParamRPCClientClub Callback Value} (agreed : club.Agreed)
    (namespace_ name : String) : (club.getRemoteRequest namespace_ name).1.Agreed := by
  unfold getRemoteRequest
  cases found : club.clients namespace_ with
  | none => exact agreed
  | some client =>
      apply agreed.set
      intro next same
      cases same
      exact (agreed.clients namespace_ client found).read name

/-- The request is in the queue, and for a client that exists also in its slot. -/
theorem Agreed.asked {club : ParamRPCClientClub Callback Value} (agreed : club.Agreed)
    (namespace_ name : String) (cb : Callback) :
    (club.getRemoteDynamicRequest namespace_ name cb).1.Agreed := by
  have queued (other : String) :
      ((club.registered ++ [(⟨namespace_, ⟨name, cb⟩⟩ : Registration Callback)]).filter
        fun registration => registration.namespace_ = other).map Registration.pack =
      Function.update club.getRequestsQueue namespace_
        (club.getRequestsQueue namespace_ ++ [⟨name, cb⟩]) other := by
    rw [List.filter_append, List.map_append, agreed.queued, Function.update_apply]
    by_cases same : namespace_ = other
    · subst same
      simp
    · simp [same, Ne.symm same]
  refine ⟨fun other client found => ?_, fun other => ?_⟩
  · unfold getRemoteDynamicRequest at found ⊢
    simp only [pushRequest] at found ⊢
    by_cases same : other = namespace_
    · subst same
      cases known : club.clients other with
      | none =>
          simp only [known] at found
          cases found
      | some before =>
          simp only [known, setClient, Function.update_self] at found ⊢
          cases found
          exact (agreed.clients other before known).asked ⟨name, cb⟩
    · cases known : club.clients namespace_ with
      | none =>
          simp only [known, Function.update_of_ne same] at found ⊢
          exact agreed.clients other client found
      | some before =>
          simp only [known, setClient, Function.update_of_ne same] at found ⊢
          exact agreed.clients other client found
  · unfold getRemoteDynamicRequest
    simp only [pushRequest]
    cases club.clients namespace_ <;> exact queued other

theorem Agreed.step {club next : ParamRPCClientClub Callback Value}
    {action : ParamClubAction Callback Value} (agreed : club.Agreed)
    (stepped : club.step action = some next) : next.Agreed := by
  cases action with
  | getRemoteRequest namespace_ name =>
      cases stepped
      exact agreed.read namespace_ name
  | getRemoteDynamicRequest namespace_ name cb =>
      cases stepped
      exact agreed.asked namespace_ name cb
  | addClient namespace_ => exact agreed.added stepped
  | deleteClient namespace_ => exact agreed.deleted stepped
  | receive namespace_ index reply =>
      obtain ⟨client, found, stepped⟩ := Option.bind_eq_some_iff.mp stepped
      obtain ⟨moved, received, rfl⟩ := Option.map_eq_some_iff.mp stepped
      obtain ⟨reader, _, received⟩ := Option.bind_eq_some_iff.mp received
      simp only [Option.ite_none_left_eq_some] at received
      obtain ⟨_, received⟩ := received
      obtain ⟨id, _, received⟩ := Option.bind_eq_some_iff.mp received
      obtain ⟨slot, located, rfl⟩ := Option.map_eq_some_iff.mp received
      apply agreed.set
      intro other same
      cases same
      exact (agreed.clients namespace_ client found).stored located reply
  | endReader namespace_ index =>
      obtain ⟨client, found, stepped⟩ := Option.bind_eq_some_iff.mp stepped
      obtain ⟨reader, located, rfl⟩ := Option.map_eq_some_iff.mp stepped
      apply agreed.set
      intro other same
      cases same
      exact (agreed.clients namespace_ client found).readerEnded located

/-- However clients come and go, each works with the callback registered last. -/
theorem callbacks_kept_along (run : List (ParamClubAction Callback Value)) :
    machine.Along CallbacksKept initial run := by
  have start : (initial : ParamRPCClientClub Callback Value).Agreed := by
    refine ⟨fun _ _ found => ?_, fun _ => rfl⟩
    cases found
  exact (machine.along_of_preserved Agreed (fun _ _ _ agreed stepped => agreed.step stepped)
    start run).mono fun _ agreed => agreed.kept

/-- The client that replaces another has the callback that was registered last, and one stream. -/
example : (machine.exec (initial : ParamRPCClientClub Nat Nat)
      [.getRemoteDynamicRequest "n" "p" 1, .addClient "n", .getRemoteDynamicRequest "n" "p" 2,
        .endReader "n" 0, .addClient "n"]).bind
    (fun club => (club.clients "n").map fun client =>
      (client.activeCallback "p", client.readersOf "p")) = some (some 2, 1) := by
  decide +kernel

end ParamRPCClientClub

end ProtoCore.Params
