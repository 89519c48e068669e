import ProtoCore.Params.RemoteAnswers

/-!
# Remote parameters from end to end

A parameter server and a client of another node. Each reader of the client is served by a
handler of its own, and reads the replies of that handler in the order of their writes. The
calls of a client do not overlap, since `ParamRPCClientClub` makes each of them under its mutex.
-/

set_option autoImplicit false

namespace ProtoCore.Params

open Library

variable {Callback Value : Type}

/-! ## A handler while the server runs -/

/-- The thread is a handler of `getRemoteParam` for the name. -/
def Thread.Serves (thread : Thread Value) (name : String) : Prop :=
  ∃ watcher, thread.pc.watcher = some watcher ∧ watcher.remote = true ∧ watcher.name = name

/-- A handler later on, with what it has written since. -/
structure Thread.Continues (thread later : Thread Value) : Prop where
  serves : ∀ name, thread.Serves name → later.Serves name
  written : thread.written <+: later.written

theorem Thread.Continues.refl (thread : Thread Value) : thread.Continues thread :=
  ⟨fun _ serves => serves, List.prefix_rfl⟩

theorem Thread.Continues.moved {thread : Thread Value} {watcher : Watcher} {pc : Pc Value}
    (before : thread.pc.watcher = some watcher) (version : Int)
    (after : pc.watcher = some { watcher with version := version }) :
    thread.Continues { thread with pc := pc } := by
  refine ⟨fun name serves => ?_, List.prefix_rfl⟩
  obtain ⟨same, located, remote, named⟩ := serves
  cases before.symm.trans located
  exact ⟨_, after, remote, named⟩

theorem Thread.Continues.wake (thread : Thread Value) : thread.Continues thread.wake := by
  obtain ⟨pc, written, called⟩ := thread
  cases pc <;> exact ⟨fun _ serves => serves, List.prefix_rfl⟩

/-- A watcher that has nothing to pass on and compares versions or sleeps. -/
def Pc.standing : Pc Value → Option Watcher
  | .lock watcher | .evaluate watcher | .park watcher | .parked watcher => some watcher
  | _ => none

theorem Thread.latest_of_standing {thread : Thread Value} {watcher : Watcher}
    (waits : thread.pc.standing = some watcher) : thread.pc.remembering = some watcher ∧
      thread.pc.watcher = some watcher ∧ (watcher.remote = true →
        thread.latest = thread.written.getLast?.bind GetParamRPCReply.value) := by
  obtain ⟨pc, written, called⟩ := thread
  cases pc with
  | lock other | evaluate other | park other | parked other =>
      cases waits
      exact ⟨rfl, rfl, fun side => if_pos side⟩
  | _ => cases waits

namespace ParamServer

theorem continues_watch {server : ParamServer Value} {id : Nat} {thread moved : Thread Value}
    {mtx : Option Nat} (stepped : server.watch id thread = some (mtx, moved)) :
    thread.Continues moved := by
  obtain ⟨pc, written, called⟩ := thread
  cases pc with
  | loop watcher =>
      cases stepped
      cases server.ok <;> exact .moved rfl watcher.version rfl
  | find watcher =>
      simp only [watch, Option.ite_none_right_eq_some, Option.some.injEq, Prod.mk.injEq] at stepped
      obtain ⟨_, _, rfl⟩ := stepped
      cases server.store.findParam watcher.name <;> cases watcher.remote <;>
        exact .moved rfl watcher.version rfl
  | getRead watcher =>
      simp only [watch, Option.ite_none_right_eq_some] at stepped
      obtain ⟨param, _, same⟩ := Option.map_eq_some_iff.mp stepped.2
      cases same
      exact .moved rfl watcher.version rfl
  | getLoad watcher param =>
      cases stepped
      exact .moved rfl (server.store.paramsVersion watcher.name) rfl
  | getCall watcher param =>
      cases stepped
      exact ⟨fun _ serves => serves, List.prefix_rfl⟩
  | remoteLoad watcher =>
      cases stepped
      exact .moved rfl (server.store.paramsVersion watcher.name) rfl
  | remoteCopy watcher =>
      simp only [watch, Option.ite_none_right_eq_some] at stepped
      obtain ⟨param, _, same⟩ := Option.map_eq_some_iff.mp stepped.2
      cases same
      exact .moved rfl watcher.version rfl
  | remoteWrite watcher reply =>
      cases stepped
      exact ⟨fun _ serves => serves, List.prefix_append written [reply]⟩
  | lock watcher =>
      simp only [watch, Option.ite_none_right_eq_some, Option.some.injEq, Prod.mk.injEq] at stepped
      obtain ⟨_, _, rfl⟩ := stepped
      exact .moved rfl watcher.version rfl
  | evaluate watcher =>
      simp only [watch, Option.ite_none_right_eq_some] at stepped
      obtain ⟨_, stepped⟩ := stepped
      split at stepped
      · cases stepped
        exact .moved rfl watcher.version rfl
      · cases stepped
        exact .moved rfl watcher.version rfl
  | park watcher =>
      cases stepped
      exact .moved rfl watcher.version rfl
  | _ => cases stepped

theorem continues_set {server next : ParamServer Value} {id other : Nat}
    {thread moved : Thread Value} (found : server.threads[id]? = some thread)
    (threads : next.threads = server.threads.set other moved)
    (own : other = id → thread.Continues moved) :
    ∃ later, next.threads[id]? = some later ∧ thread.Continues later := by
  rw [threads]
  by_cases same : other = id
  · refine ⟨moved, ?_, own same⟩
    rw [same]
    exact List.getElem?_set_self (List.getElem?_eq_some_iff.mp found).1
  · exact ⟨thread, (List.getElem?_set_ne same).trans found, .refl thread⟩

theorem search_outside {server next : ParamServer Value} {id : Nat} {thread : Thread Value}
    (stepped : server.search id thread = some next) :
    thread.pc.watcher = none ∧ ∃ moved, next.threads = server.threads.set id moved := by
  obtain ⟨pc, written, called⟩ := thread
  cases pc with
  | findParam update =>
      simp only [search, Option.ite_none_right_eq_some, Option.some.injEq] at stepped
      obtain ⟨_, rfl⟩ := stepped
      refine ⟨rfl,
        ⟨(update.afterFindParam (server.store.findParam update.name)).1, written, called⟩, ?_⟩
      simp only [setThread, answer_threads]
  | isConst update =>
      cases stepped
      refine ⟨rfl,
        ⟨(update.afterIsConst (server.store.isConst update.name)).1, written, called⟩, ?_⟩
      simp only [setThread, answer_threads]
      rfl
  | body update =>
      simp only [search, Option.ite_none_right_eq_some, Option.some.injEq] at stepped
      obtain ⟨_, rfl⟩ := stepped
      exact ⟨rfl, _, rfl⟩
  | _ => cases stepped

theorem body_inside {server : ParamServer Value} {id : Nat} {holding : Holding Value}
    (moving : server.body (.run id) = some holding) :
    holding.thread = id ∧ server.threads[id]?.map Thread.pc = some .inside := by
  simp only [body] at moving
  split at moving
  · rename_i inside _
    split at moving
    · rename_i same
      cases moving
      exact ⟨same, inside⟩
    · cases moving
  · cases moving

theorem continues_runBody {server next : ParamServer Value} {id acting : Nat}
    {thread acted : Thread Value} {holding : Holding Value} {name : String}
    (found : server.threads[id]? = some thread) (serves : thread.Serves name)
    (moving : server.body (.run acting) = some holding)
    (stepped : server.runBody acted holding = some next) :
    ∃ later, next.threads[id]? = some later ∧ thread.Continues later := by
  obtain ⟨rfl, inside⟩ := body_inside moving
  -- the thread that holds the lock is no watcher
  have apart : holding.thread ≠ id := by
    intro same
    obtain ⟨watcher, located, _⟩ := serves
    rw [same, found, Option.map_some, Option.some.injEq] at inside
    rw [inside] at located
    cases located
  unfold runBody at stepped
  cases stage : holding.stage with
  | assign =>
      rw [stage] at stepped
      obtain ⟨value, _, rfl⟩ := Option.map_eq_some_iff.mp stepped
      exact ⟨thread, found, .refl thread⟩
  | count =>
      rw [stage] at stepped
      cases stepped
      exact ⟨thread, found, .refl thread⟩
  | insertConst =>
      rw [stage] at stepped
      cases stepped
      exact ⟨thread, found, .refl thread⟩
  | notify =>
      rw [stage] at stepped
      cases stepped
      refine ⟨thread.wake, ?_, .wake thread⟩
      simp only [notifyAll, setThread, answer_threads, List.getElem?_map,
        List.getElem?_set_ne apart, found, Option.map_some]

/-- A handler stays one, and its replies stay. -/
theorem continues_step {server next : ParamServer Value} {action : Action Value} {id : Nat}
    {thread : Thread Value} {name : String} (found : server.threads[id]? = some thread)
    (serves : thread.Serves name) (stepped : server.step action = some next) :
    ∃ later, next.threads[id]? = some later ∧ thread.Continues later := by
  cases action with
  | start operation =>
      cases stepped
      have inside := (List.getElem?_eq_some_iff.mp found).1
      exact ⟨thread, (List.getElem?_append_left inside).trans found, .refl thread⟩
  | run acting =>
      simp only [step] at stepped
      split at stepped
      · cases stepped
      · rename_i acted located
        split at stepped
        · rename_i holding moving
          exact continues_runBody found serves moving stepped
        · split at stepped
          · rename_i mtx moved watched
            cases stepped
            refine continues_set found rfl fun same => ?_
            subst same
            cases found.symm.trans located
            exact continues_watch watched
          · obtain ⟨outside, moved, threads⟩ := search_outside stepped
            refine continues_set found threads fun same => ?_
            subst same
            cases found.symm.trans located
            obtain ⟨watcher, watching, _⟩ := serves
            cases outside.symm.trans watching
  | cancelled acting =>
      simp only [step] at stepped
      split at stepped
      · cases stepped
      · rename_i acted located
        split at stepped
        · rename_i watcher watching
          split at stepped
          · cases stepped
            refine continues_set found rfl fun same => ?_
            subst same
            cases found.symm.trans located
            exact .moved (by rw [watching]; rfl) watcher.version rfl
          · cases stepped
        · cases stepped
  | wake acting =>
      simp only [step] at stepped
      split at stepped
      · cases stepped
      · rename_i acted located
        split at stepped
        · rename_i watcher watching
          cases stepped
          refine continues_set found rfl fun same => ?_
          subst same
          cases found.symm.trans located
          exact .moved (by rw [watching]; rfl) watcher.version rfl
        · cases stepped
  | setAbort =>
      cases stepped
      exact ⟨thread, found, .refl thread⟩

end ParamServer

/-! ## A server and a client -/

/-- The handler that serves a reader, and how many of its replies the reader has read. -/
structure ReplyStream where
  handler : Nat
  read : Nat
  deriving DecidableEq, Repr

structure RemoteMirror (Callback Value : Type) where
  server : ParamServer Value
  remote : RemoteParams Callback Value
  streams : Nat → Option ReplyStream

/-- A step of the server alone or of the client alone, the start of the handler for a reader,
and the receipt of the reader's next reply. -/
inductive MirrorAction (Callback Value : Type) where
  | server (action : Action Value)
  | remote (action : RemoteAction Callback Value)
  | connect (reader : Nat)
  | receive (reader : Nat)

/-- The action leaves the streams alone, and no call is made while another one is under way. -/
def RemoteParams.permits (remote : RemoteParams Callback Value) :
    RemoteAction Callback Value → Bool
  | .receive .. => false
  | .getRemoteParam .. => remote.calls.all fun call => call.pc == .done
  | _ => true

/-- What a step of the client keeps of its readers. A new one has received nothing. -/
structure RemoteParams.Keeps (remote next : RemoteParams Callback Value) : Prop where
  log : next.received = remote.received
  readers : ∀ (index : Nat) before, remote.client.writeThread[index]? = some before →
    ∃ reader, next.client.writeThread[index]? = some reader ∧ reader.name = before.name
  fresh : ∀ (index : Nat) reader, next.client.writeThread[index]? = some reader →
    (∃ before, remote.client.writeThread[index]? = some before ∧ before.name = reader.name) ∨
      remote.repliesOf reader.name = []

theorem RemoteParams.Keeps.of_readers {remote next : RemoteParams Callback Value}
    (log : next.received = remote.received)
    (readers : next.client.writeThread = remote.client.writeThread) : remote.Keeps next where
  log := log
  readers _ before located := ⟨before, readers ▸ located, rfl⟩
  fresh _ reader located := .inl ⟨reader, readers ▸ located, rfl⟩

theorem RemoteParams.Orderly.repliesOf_eq_nil {remote : RemoteParams Callback Value}
    (orderly : remote.Orderly) {name : String}
    (unread : ∀ reader ∈ remote.client.writeThread, reader.name ≠ name) :
    remote.repliesOf name = [] := by
  rw [repliesOf, List.map_eq_nil_iff, List.filter_eq_nil_iff]
  intro received member named
  obtain ⟨reader, listed, same⟩ := orderly.heard received member
  exact unread reader listed (same.trans (of_decide_eq_true named))

theorem RemoteParams.Orderly.keeps_runCall {remote next : RemoteParams Callback Value}
    (orderly : remote.Orderly) {id : Nat} {call : RemoteCall Callback}
    (found : remote.calls[id]? = some call) (stepped : remote.runCall id call = some next) :
    remote.Keeps next := by
  obtain ⟨name, cb, pc, available⟩ := call
  cases pc with
  | find =>
      cases stepped
      exact .of_readers rfl rfl
  | share =>
      cases stepped
      cases cb <;> exact .of_readers rfl rfl
  | get =>
      obtain ⟨slot, _, rfl⟩ := Option.map_eq_some_iff.mp stepped
      exact .of_readers rfl rfl
  | create =>
      simp only [RemoteParams.runCall, Option.ite_none_right_eq_some, Option.some.injEq] at stepped
      obtain ⟨_, rfl⟩ := stepped
      exact .of_readers rfl rfl
  | pull =>
      cases stepped
      obtain ⟨_, unread⟩ := orderly.pulling _ (List.mem_of_getElem? found) rfl
      refine ⟨rfl, fun index before located => ⟨before, ?_, rfl⟩, fun index reader located => ?_⟩
      · exact (List.getElem?_append_left (List.getElem?_eq_some_iff.mp located).1).trans located
      · rcases getElem?_concat_eq_some located with earlier | ⟨_, rfl⟩
        · exact .inl ⟨reader, earlier, rfl⟩
        · exact .inr (orderly.repliesOf_eq_nil unread)
  | done => cases stepped

theorem RemoteParams.Orderly.keeps {remote next : RemoteParams Callback Value}
    (orderly : remote.Orderly) {action : RemoteAction Callback Value}
    (permitted : remote.permits action = true) (stepped : remote.step action = some next) :
    remote.Keeps next := by
  cases action with
  | getRemoteParam name cb =>
      cases stepped
      exact .of_readers rfl rfl
  | run id =>
      obtain ⟨call, found, stepped⟩ := Option.bind_eq_some_iff.mp stepped
      exact orderly.keeps_runCall found stepped
  | receive index reply => cases permitted
  | endReader index =>
      obtain ⟨reader, located, rfl⟩ := Option.map_eq_some_iff.mp stepped
      have inside := (List.getElem?_eq_some_iff.mp located).1
      have kept (other : Nat) : ((remote.client.writeThread.set index
          { reader with ended := true })[other]?).map Reader.name =
            (remote.client.writeThread[other]?).map Reader.name := by
        by_cases same : index = other
        · subst same
          rw [List.getElem?_set_self inside, located]
          rfl
        · rw [List.getElem?_set_ne same]
      refine ⟨rfl, fun other before found => ?_, fun other later found => .inl ?_⟩
      · have here := kept other
        rw [found] at here
        exact Option.map_eq_some_iff.mp here
      · have here := kept other
        rw [show (remote.client.writeThread.set index { reader with ended := true })[other]? =
          some later from found] at here
        exact Option.map_eq_some_iff.mp here.symm
  | invoke index =>
      obtain ⟨invocation, _, rfl⟩ := Option.map_eq_some_iff.mp stepped
      exact .of_readers rfl rfl

theorem RemoteParams.alone_of_permits {remote : RemoteParams Callback Value}
    {action : RemoteAction Callback Value} (permitted : remote.permits action = true) :
    remote.Alone action := by
  cases action with
  | getRemoteParam name cb =>
      intro call member
      exact eq_of_beq (List.all_eq_true.mp permitted call member)
  | _ => trivial

namespace RemoteMirror

def initial : RemoteMirror Callback Value where
  server := .initial
  remote := .initial
  streams _ := none

def connect (mirror : RemoteMirror Callback Value) (index : Nat) (reader : Reader) :
    Option (RemoteMirror Callback Value) :=
  if !reader.ended && (mirror.streams index).isNone then
    (mirror.server.step (.start (.watch true reader.name))).map fun server =>
      { mirror with
        server := server
        streams := Function.update mirror.streams index
          (some { handler := mirror.server.threads.length, read := 0 }) }
  else none

/-- The next reply that the handler has written. -/
def nextReply (mirror : RemoteMirror Callback Value) (stream : ReplyStream) :
    Option (GetParamRPCReply Value) :=
  (mirror.server.threads[stream.handler]?).bind fun thread => thread.written[stream.read]?

def step (mirror : RemoteMirror Callback Value) :
    MirrorAction Callback Value → Option (RemoteMirror Callback Value)
  | .server action => (mirror.server.step action).map fun server => { mirror with server := server }
  | .remote action =>
      if mirror.remote.permits action then
        (mirror.remote.step action).map fun remote => { mirror with remote := remote }
      else none
  | .connect index => (mirror.remote.client.writeThread[index]?).bind (mirror.connect index)
  | .receive index =>
      (mirror.streams index).bind fun stream =>
        (mirror.nextReply stream).bind fun reply =>
          (mirror.remote.step (.receive index reply)).map fun remote =>
            { mirror with
              remote := remote
              streams := Function.update mirror.streams index
                (some { stream with read := stream.read + 1 }) }

def machine : Machine (RemoteMirror Callback Value) (MirrorAction Callback Value) := ⟨step⟩

/-- A reader has received what its handler has written, up to what it has still to read. -/
structure Serves (mirror : RemoteMirror Callback Value) (stream : ReplyStream) (name : String)
    (thread : Thread Value) : Prop where
  found : mirror.server.threads[stream.handler]? = some thread
  serves : thread.Serves name
  read : stream.read ≤ thread.written.length
  replies : mirror.remote.repliesOf name = thread.written.take stream.read

structure Mirrored (mirror : RemoteMirror Callback Value) : Prop where
  orderly : mirror.remote.Orderly
  tracked : mirror.remote.Tracked
  answered : mirror.remote.Answered
  sound : mirror.server.store.Sound
  streamed : ParamServer.AllThreads Streamed mirror.server
  served : ∀ index stream, mirror.streams index = some stream → ∃ reader thread,
    mirror.remote.client.writeThread[index]? = some reader ∧
      mirror.Serves stream reader.name thread
  unopened : ∀ (index : Nat) reader, mirror.remote.client.writeThread[index]? = some reader →
    mirror.streams index = none → mirror.remote.repliesOf reader.name = []

theorem initial_mirrored : (initial : RemoteMirror Callback Value).Mirrored where
  orderly := RemoteParams.initial_orderly
  tracked := {
    pointed _ _ found := by cases found
    separate _ _ _ found := by cases found
    logged _ member := by cases member
    stored _ _ _ found := by cases found }
  answered _ := Follows.nil _
  sound := ParamServer.initial_sound
  streamed _ member := by cases member
  served _ _ found := by cases found
  unopened _ _ found := by cases found

theorem Serves.server {mirror : RemoteMirror Callback Value} {stream : ReplyStream}
    {name : String} {thread : Thread Value} (serves : mirror.Serves stream name thread)
    {action : Action Value} {server : ParamServer Value}
    (stepped : mirror.server.step action = some server) :
    ∃ later, { mirror with server := server }.Serves stream name later := by
  obtain ⟨later, found, continues⟩ :=
    ParamServer.continues_step serves.found serves.serves stepped
  obtain ⟨rest, written⟩ := continues.written
  refine ⟨later, found, continues.serves name serves.serves, ?_, ?_⟩
  · rw [← written, List.length_append]
    exact Nat.le_add_right_of_le serves.read
  · rw [← written, List.take_append_of_le_length serves.read]
    exact serves.replies

theorem Mirrored.streamed_step {mirror : RemoteMirror Callback Value} (mirrored : mirror.Mirrored)
    {action : Action Value} {server : ParamServer Value}
    (stepped : mirror.server.step action = some server) :
    server.store.Sound ∧ ParamServer.AllThreads Streamed server :=
  ⟨ParamServer.sound_step mirrored.sound stepped,
    streamed_preserved.step mirrored.sound mirrored.streamed (fun _ _ _ _ => trivial) stepped⟩

theorem Mirrored.server {mirror : RemoteMirror Callback Value} (mirrored : mirror.Mirrored)
    {action : Action Value} {server : ParamServer Value}
    (stepped : mirror.server.step action = some server) :
    { mirror with server := server }.Mirrored where
  orderly := mirrored.orderly
  tracked := mirrored.tracked
  answered := mirrored.answered
  sound := (mirrored.streamed_step stepped).1
  streamed := (mirrored.streamed_step stepped).2
  served index stream opened := by
    obtain ⟨reader, thread, located, serves⟩ := mirrored.served index stream opened
    obtain ⟨later, serves⟩ := serves.server stepped
    exact ⟨reader, later, located, serves⟩
  unopened := mirrored.unopened

theorem Mirrored.connect {mirror next : RemoteMirror Callback Value} (mirrored : mirror.Mirrored)
    {index : Nat} {reader : Reader}
    (located : mirror.remote.client.writeThread[index]? = some reader)
    (stepped : mirror.connect index reader = some next) : next.Mirrored := by
  simp only [RemoteMirror.connect, Option.ite_none_right_eq_some] at stepped
  obtain ⟨ready, stepped⟩ := stepped
  obtain ⟨server, started, rfl⟩ := Option.map_eq_some_iff.mp stepped
  have closed : mirror.streams index = none :=
    Option.isNone_iff_eq_none.mp (Bool.and_eq_true_iff.mp ready).2
  have moved := mirrored.server started
  refine ⟨moved.orderly, moved.tracked, moved.answered, moved.sound, moved.streamed,
    fun other stream opened => ?_, fun other before found unopened => ?_⟩
  · simp only [Function.update_apply] at opened
    split at opened
    · rename_i same
      cases opened
      rw [same]
      cases started
      refine ⟨reader, ⟨.loop ⟨true, reader.name, 0⟩, [], []⟩, located, ?_, ⟨_, rfl, rfl, rfl⟩,
        Nat.le_refl 0, ?_⟩
      · exact List.getElem?_concat_length
      · exact mirrored.unopened index reader located closed
    · obtain ⟨holder, thread, found, serves⟩ := moved.served other stream opened
      exact ⟨holder, thread, found, serves.found, serves.serves, serves.read, serves.replies⟩
  · simp only [Function.update_apply] at unopened
    split at unopened
    · cases unopened
    · exact mirrored.unopened other before found unopened

theorem Mirrored.remote {mirror : RemoteMirror Callback Value} (mirrored : mirror.Mirrored)
    {action : RemoteAction Callback Value} {remote : RemoteParams Callback Value}
    (permitted : mirror.remote.permits action = true)
    (stepped : mirror.remote.step action = some remote) :
    { mirror with remote := remote }.Mirrored := by
  have keeps := mirrored.orderly.keeps permitted stepped
  have replies (name : String) : remote.repliesOf name = mirror.remote.repliesOf name := by
    rw [RemoteParams.repliesOf, keeps.log]
    rfl
  refine ⟨mirrored.orderly.step (RemoteParams.alone_of_permits permitted) stepped,
    mirrored.tracked.step stepped, mirrored.answered.step mirrored.tracked stepped,
    mirrored.sound, mirrored.streamed, fun index stream opened => ?_,
    fun index reader located unopened => ?_⟩
  · obtain ⟨before, thread, located, serves⟩ := mirrored.served index stream opened
    obtain ⟨reader, found, named⟩ := keeps.readers index before located
    rw [← named] at serves
    exact ⟨reader, thread, found, serves.found, serves.serves, serves.read,
      (replies reader.name).trans serves.replies⟩
  · rw [replies]
    rcases keeps.fresh index reader located with ⟨before, found, named⟩ | unread
    · rw [← named]
      exact mirrored.unopened index before found unopened
    · exact unread

theorem Mirrored.receive {mirror : RemoteMirror Callback Value} (mirrored : mirror.Mirrored)
    {index : Nat} {stream : ReplyStream} {reply : GetParamRPCReply Value}
    {remote : RemoteParams Callback Value} (opened : mirror.streams index = some stream)
    (written : mirror.nextReply stream = some reply)
    (stepped : mirror.remote.step (.receive index reply) = some remote) :
    { mirror with
      remote := remote
      streams := Function.update mirror.streams index
        (some { stream with read := stream.read + 1 }) }.Mirrored := by
  obtain ⟨reader, thread, located, serves⟩ := mirrored.served index stream opened
  have received : mirror.remote.Receives reader.name reply remote := by
    obtain ⟨same, found, stepped⟩ := Option.bind_eq_some_iff.mp stepped
    cases located.symm.trans found
    exact RemoteParams.receives stepped
  have next : thread.written[stream.read]? = some reply := by
    rw [nextReply, serves.found] at written
    exact written
  obtain ⟨inside, rfl⟩ := List.getElem?_eq_some_iff.mp next
  -- no other reader has this name
  have apart {other : Nat} {holder : Reader} (elsewhere : other ≠ index)
      (found : mirror.remote.client.writeThread[other]? = some holder) :
      reader.name ≠ holder.name := by
    intro same
    have within : index < (mirror.remote.client.writeThread.map Reader.name).length := by
      rw [List.length_map]
      exact (List.getElem?_eq_some_iff.mp located).1
    refine elsewhere ((List.getElem?_inj within mirrored.orderly.sole).mp ?_).symm
    rw [List.getElem?_map, List.getElem?_map, located, found]
    exact congrArg some same
  have alone : mirror.remote.Alone (.receive index thread.written[stream.read]) := trivial
  refine ⟨mirrored.orderly.step alone stepped, mirrored.tracked.step stepped,
    mirrored.answered.step mirrored.tracked stepped, mirrored.sound, mirrored.streamed,
    fun other holder known => ?_, fun other holder found unopened => ?_⟩
  · simp only [Function.update_apply] at known
    split at known
    · rename_i same
      cases known
      rw [same]
      refine ⟨reader, thread, received.readers ▸ located, serves.found, serves.serves, inside, ?_⟩
      rw [received.repliesOf, if_pos rfl, serves.replies]
      exact (List.take_append_getElem inside)
    · rename_i elsewhere
      obtain ⟨before, other_thread, found, serves⟩ := mirrored.served other holder known
      refine ⟨before, other_thread, received.readers ▸ found, serves.found, serves.serves,
        serves.read, ?_⟩
      rw [received.repliesOf, if_neg (apart elsewhere found)]
      exact serves.replies
  · simp only [Function.update_apply] at unopened
    split at unopened
    · cases unopened
    · rename_i elsewhere
      have before : mirror.remote.client.writeThread[other]? = some holder :=
        received.readers ▸ found
      rw [received.repliesOf, if_neg (apart elsewhere before)]
      exact mirrored.unopened other holder before unopened

theorem Mirrored.step {mirror next : RemoteMirror Callback Value}
    {action : MirrorAction Callback Value} (mirrored : mirror.Mirrored)
    (stepped : mirror.step action = some next) : next.Mirrored := by
  cases action with
  | server action =>
      obtain ⟨server, executed, rfl⟩ := Option.map_eq_some_iff.mp stepped
      exact mirrored.server executed
  | remote action =>
      simp only [RemoteMirror.step, Option.ite_none_right_eq_some] at stepped
      obtain ⟨permitted, stepped⟩ := stepped
      obtain ⟨remote, executed, rfl⟩ := Option.map_eq_some_iff.mp stepped
      exact mirrored.remote permitted executed
  | connect index =>
      obtain ⟨reader, located, stepped⟩ := Option.bind_eq_some_iff.mp stepped
      exact mirrored.connect located stepped
  | receive index =>
      obtain ⟨stream, opened, stepped⟩ := Option.bind_eq_some_iff.mp stepped
      obtain ⟨reply, written, stepped⟩ := Option.bind_eq_some_iff.mp stepped
      obtain ⟨remote, executed, rfl⟩ := Option.map_eq_some_iff.mp stepped
      exact mirrored.receive opened written executed

/-- The values that a handler has written, as far as they have been read, are values that the
parameter has had. -/
theorem Mirrored.received_follow {mirror : RemoteMirror Callback Value}
    (mirrored : mirror.Mirrored) (name : String) :
    Follows ((mirror.remote.repliesOf name).filterMap GetParamRPCReply.value)
      (mirror.server.store.history name) := by
  by_cases unread : ∀ reader ∈ mirror.remote.client.writeThread, reader.name ≠ name
  · rw [mirrored.orderly.repliesOf_eq_nil unread]
    exact Follows.nil _
  · simp only [not_forall, not_not] at unread
    obtain ⟨reader, member, rfl⟩ := unread
    obtain ⟨index, located⟩ := List.mem_iff_getElem?.mp member
    cases opened : mirror.streams index with
    | none =>
        rw [mirrored.unopened index reader located opened]
        exact Follows.nil _
    | some stream =>
        obtain ⟨same, thread, found, serves⟩ := mirrored.served index stream opened
        cases located.symm.trans found
        obtain ⟨watcher, watching, _, named⟩ := serves.serves
        have follows := (mirrored.streamed thread (List.mem_of_getElem? serves.found) watcher
          watching).follows
        rw [named, Thread.replies, ← List.take_append_drop stream.read thread.written,
          List.append_assoc, List.filterMap_append] at follows
        rw [serves.replies]
        exact follows.left

/-- The calls for a name have returned values that the parameter has had, in their order. -/
def Monotone (mirror : RemoteMirror Callback Value) : Prop :=
  ∀ name, Follows (mirror.remote.answered name) (mirror.server.store.history name)

theorem reads_monotone (run : List (MirrorAction Callback Value)) :
    machine.Along Monotone initial run := by
  have along := machine.along_of_preserved Mirrored
    (fun _ _ _ mirrored stepped => mirrored.step stepped)
    (initial_mirrored : (initial : RemoteMirror Callback Value).Mirrored) run
  exact along.mono fun mirror mirrored name =>
    (mirrored.answered name).trans (mirrored.received_follow name)

/-- A step of the server writes a version that a handler remembers only when the handler has
the value as well. -/
def Noticed (mirror : RemoteMirror Callback Value) : MirrorAction Callback Value → Prop
  | .server action => ParamServer.Fitting (Params.Noticed true) mirror.server action
  | _ => True

instance [DecidableEq Value] (mirror : RemoteMirror Callback Value)
    (action : MirrorAction Callback Value) : Decidable (mirror.Noticed action) :=
  match action with
  | .server action =>
      inferInstanceAs (Decidable (ParamServer.Fitting (Params.Noticed true) mirror.server action))
  | .remote _ | .connect _ | .receive _ => isTrue trivial

theorem fresh_step {mirror next : RemoteMirror Callback Value}
    {action : MirrorAction Callback Value} (mirrored : mirror.Mirrored)
    (fresh : ParamServer.AllThreads (Fresh true) mirror.server) (noticed : mirror.Noticed action)
    (stepped : mirror.step action = some next) :
    ParamServer.AllThreads (Fresh true) next.server := by
  have preserved : ParamServer.Preserved (Params.Noticed true) (@Fresh Value true) :=
    fresh_preserved (fun _ _ _ _ side => by cases side) fun _ _ _ fits => fits
  cases action with
  | server action =>
      obtain ⟨server, executed, rfl⟩ := Option.map_eq_some_iff.mp stepped
      exact preserved.step mirrored.sound fresh noticed executed
  | remote action =>
      simp only [RemoteMirror.step, Option.ite_none_right_eq_some] at stepped
      obtain ⟨remote, _, rfl⟩ := Option.map_eq_some_iff.mp stepped.2
      exact fresh
  | connect index =>
      obtain ⟨reader, _, stepped⟩ := Option.bind_eq_some_iff.mp stepped
      simp only [RemoteMirror.connect, Option.ite_none_right_eq_some] at stepped
      obtain ⟨server, executed, rfl⟩ := Option.map_eq_some_iff.mp stepped.2
      refine preserved.step mirrored.sound fresh (fun holding moving => ?_) executed
      cases moving
  | receive index =>
      obtain ⟨stream, _, stepped⟩ := Option.bind_eq_some_iff.mp stepped
      obtain ⟨reply, _, stepped⟩ := Option.bind_eq_some_iff.mp stepped
      obtain ⟨remote, _, rfl⟩ := Option.map_eq_some_iff.mp stepped
      exact fresh

/-- While a handler has nothing new to write and its reader nothing left to read, the client has
received the current value, and a call returns it unless a callback has been registered since. -/
def Current (mirror : RemoteMirror Callback Value) : Prop :=
  ∀ (index : Nat) stream reader thread watcher value, mirror.streams index = some stream →
    mirror.remote.client.writeThread[index]? = some reader →
    mirror.server.threads[stream.handler]? = some thread → thread.pc.standing = some watcher →
    mirror.server.store.paramsMtx = none → mirror.server.waitPredicate watcher = false →
    stream.read = thread.written.length →
    mirror.server.store.params reader.name = some value →
      (mirror.remote.lastReceived reader.name).map Received.reply =
          some { status := .normal, payload := some value } ∧
        ∀ slot, mirror.remote.client.activeSlot reader.name = some slot →
          (slot.data = { status := .normal, payload := some value } ↔
            mirror.remote.Undisturbed reader.name)

theorem Mirrored.current {mirror : RemoteMirror Callback Value} (mirrored : mirror.Mirrored)
    (fresh : ParamServer.AllThreads (Fresh true) mirror.server) : mirror.Current := by
  intro index stream reader thread watcher value opened located found waits free predicate drained
    stored
  obtain ⟨same, served, held, serves⟩ := mirrored.served index stream opened
  cases located.symm.trans held
  cases found.symm.trans serves.found
  obtain ⟨remembering, watching, latest⟩ := Thread.latest_of_standing waits
  obtain ⟨other, known, side, named⟩ := serves.serves
  cases watching.symm.trans known
  rw [← named] at stored ⊢
  have unchanged : mirror.server.store.paramsVersion watcher.name = watcher.version := by
    simp only [ParamServer.waitPredicate, Store.findParam, stored, Option.isSome_some,
      Bool.true_and, Bool.or_eq_false_iff, bne_eq_false_iff_eq] at predicate
    exact predicate.1.symm
  have taken := (fresh thread (List.mem_of_getElem? found)).remembering watcher remembering side
    (mirror.server.store.settled_of_free free watcher.name) unchanged value stored
  rw [latest side] at taken
  obtain ⟨reply, last, holds⟩ := Option.bind_eq_some_iff.mp taken
  have received : (mirror.remote.lastReceived watcher.name).map Received.reply =
      some { status := .normal, payload := some value } := by
    have replies := serves.replies
    rw [drained, List.take_length, ← named] at replies
    rw [← ParamServer.GetParamRPCReply.eq_of_value holds, ← last, ← replies]
    exact List.getLast?_map.symm
  refine ⟨received, fun slot active => ?_⟩
  have present : (mirror.remote.lastReceived watcher.name).isSome := by
    cases located : mirror.remote.lastReceived watcher.name with
    | none =>
        rw [located] at received
        cases received
    | some last => rfl
  rw [← mirrored.tracked.latest_iff active present, received]
  exact ⟨fun same => by rw [same], fun same => (Option.some.inj same).symm⟩

theorem reads_current (run : List (MirrorAction Callback Value))
    (noticed : machine.Obeys Noticed initial run) : machine.Along Current initial run := by
  have start : (initial : RemoteMirror Callback Value).Mirrored ∧
      ParamServer.AllThreads (Fresh true) (initial : RemoteMirror Callback Value).server :=
    ⟨initial_mirrored, fun _ member => by cases member⟩
  have along := machine.along_of_obeys
    (fun (mirror : RemoteMirror Callback Value) action next valid permitted stepped =>
      And.intro (valid.1.step stepped) (fresh_step valid.1 valid.2 permitted stepped)) start noticed
  exact along.mono fun mirror valid => valid.1.current valid.2

/-- A client reads a parameter before it is declared, after it is declared and after it is set.
Each change reaches it before its next read. -/
def setWhileRead : List (MirrorAction Nat Nat) :=
  let call (id : Nat) : List (MirrorAction Nat Nat) :=
    .remote (.getRemoteParam "gain" none) :: List.replicate 3 (.remote (.run id))
  let serve (count : Nat) : List (MirrorAction Nat Nat) := List.replicate count (.server (.run 0))
  call 0 ++ [.connect 0] ++ serve 6 ++ [.receive 0] ++
    .server (.start (.modify (.declare "gain" 5 false))) ::
      List.replicate 5 (.server (.run 1)) ++ serve 8 ++ [.receive 0] ++ call 1 ++
    .server (.start (.modify (.set "gain" 7))) :: List.replicate 6 (.server (.run 2)) ++ serve 8 ++
    [.receive 0] ++ call 2

theorem reads_current_setWhileRead : machine.Along Current initial setWhileRead :=
  reads_current setWhileRead (by decide +kernel)

end RemoteMirror

end ProtoCore.Params
