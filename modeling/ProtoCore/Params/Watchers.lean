import ProtoCore.Params.ParamServer

/-!
# What watchers have seen

A watcher takes a value and a version in two steps and compares the version later. The
handler of a remote watcher loads the version first, so that every later update shows;
the thread of a local one reads the value first and can miss the update in between.
-/

set_option autoImplicit false

namespace ProtoCore.Params

open Library

variable {Value : Type}

def GetParamRPCReply.value (reply : GetParamRPCReply Value) : Option Value :=
  match reply.status with
  | .normal => reply.payload
  | _ => none

namespace Pc

/-- The watcher between its read of the value and its load of the version. -/
def reading : Pc Value → Option (Watcher × Value)
  | .getLoad watcher param => some (watcher, param)
  | _ => none

/-- The watcher whose version is to be compared with the stored one. -/
def remembering : Pc Value → Option Watcher
  | .getCall watcher _ | .remoteWrite watcher _ | .lock watcher | .evaluate watcher
  | .park watcher | .parked watcher => some watcher
  | _ => none

/-- Whose points of control these are. -/
def Kind (remote : Bool) : Pc Value → Prop
  | .getRead _ | .getLoad _ _ | .getCall _ _ => remote = false
  | .remoteLoad _ | .remoteCopy _ | .remoteWrite _ _ => remote = true
  | _ => True

/-- The reply that `Write` is about to get. -/
def writing : Pc Value → List (GetParamRPCReply Value)
  | .remoteWrite _ reply => [reply]
  | _ => []

end Pc

/-- The value that a watcher has taken last. -/
def Thread.latest (thread : Thread Value) : Option Value :=
  match thread.pc with
  | .getLoad _ param | .getCall _ param => some param
  | .remoteWrite _ reply => reply.value
  | .lock watcher | .evaluate watcher | .park watcher | .parked watcher =>
      if watcher.remote then thread.written.getLast?.bind GetParamRPCReply.value
      else thread.called.getLast?
  | _ => none

/-- The replies of a handler, with the one it has at hand. -/
def Thread.replies (thread : Thread Value) : List (GetParamRPCReply Value) :=
  thread.written ++ thread.pc.writing

/-- No update stands between its assignment of the parameter and its write of the version. -/
def Store.Settled (store : Store Value) (name : String) : Prop :=
  ∀ holding, store.paramsMtx = some holding → holding.stage = .count → holding.update.name ≠ name

/-! ## Freshness -/

/-- A version is written while a watcher has read the value and not yet loaded the
version only if that value is the stored one. -/
def ReadInOrder (store : Store Value) (holding : Holding Value) (thread : Thread Value) : Prop :=
  holding.stage = .count → ∀ read ∈ thread.pc.reading,
    read.1.name = holding.update.name → store.params read.1.name = some read.2

/-- The version written is the one that a watcher remembers only if the value the watcher
has taken is the stored one. -/
def Noticed (remote : Bool) (store : Store Value) (holding : Holding Value)
    (thread : Thread Value) : Prop :=
  holding.stage = .count → ∀ watcher ∈ thread.pc.remembering, watcher.remote = remote →
    watcher.name = holding.update.name →
    holding.update.counted (store.paramsVersion watcher.name) = watcher.version →
    store.params watcher.name = thread.latest

instance [DecidableEq Value] (store : Store Value) (holding : Holding Value)
    (thread : Thread Value) : Decidable (ReadInOrder store holding thread) :=
  inferInstanceAs (Decidable (_ → ∀ read ∈ thread.pc.reading, _))

instance [DecidableEq Value] (remote : Bool) (store : Store Value) (holding : Holding Value)
    (thread : Thread Value) : Decidable (Noticed remote store holding thread) :=
  inferInstanceAs (Decidable (_ → ∀ watcher ∈ thread.pc.remembering, _))

/-- While the remembered version is the stored one, so is the value. -/
structure Fresh (remote : Bool) (store : Store Value) (thread : Thread Value) : Prop where
  kind : ∀ watcher, thread.pc.watcher = some watcher → thread.pc.Kind watcher.remote
  reading : ∀ read, thread.pc.reading = some read → read.1.remote = remote →
    store.Settled read.1.name → store.params read.1.name = some read.2
  remembering : ∀ watcher, thread.pc.remembering = some watcher → watcher.remote = remote →
    store.Settled watcher.name → store.paramsVersion watcher.name = watcher.version →
    ∀ value, store.params watcher.name = some value → thread.latest = some value

theorem Store.settled_of_stage {store : Store Value} {holding : Holding Value}
    (held : store.paramsMtx = some holding) (stage : holding.stage ≠ .count) (name : String) :
    store.Settled name := by
  intro other same counting
  cases held.symm.trans same
  exact absurd counting stage

theorem Store.settled_of_free {store : Store Value} (free : store.paramsMtx = none)
    (name : String) : store.Settled name := by
  intro holding same
  cases free.symm.trans same

theorem Fresh.idle {remote : Bool} {store : Store Value} {thread : Thread Value}
    (kind : ∀ watcher, thread.pc.watcher = some watcher → thread.pc.Kind watcher.remote)
    (reading : thread.pc.reading = none) (remembering : thread.pc.remembering = none) :
    Fresh remote store thread where
  kind := kind
  reading read located := by
    rw [reading] at located
    cases located
  remembering watcher located := by
    rw [remembering] at located
    cases located

theorem Fresh.outside {remote : Bool} {store : Store Value} {thread : Thread Value}
    (outside : thread.pc.watcher = none) : Fresh remote store thread := by
  apply Fresh.idle
  · intro watcher located
    rw [outside] at located
    cases located
  · cases pc : thread.pc <;> rw [pc] at outside <;> first | rfl | cases outside
  · cases pc : thread.pc <;> rw [pc] at outside <;> first | rfl | cases outside

theorem Fresh.readingLocal {remote : Bool} {store : Store Value} {thread : Thread Value}
    (fresh : Fresh remote store thread) {read : Watcher × Value}
    (located : thread.pc.reading = some read) : read.1.remote = false := by
  cases pc : thread.pc with
  | getLoad watcher param =>
      have kind := fresh.kind watcher (by rw [pc]; rfl)
      rw [pc] at located kind
      cases located
      exact kind
  | _ =>
      rw [pc] at located
      cases located

/-- A step of a watcher leaves it fresh, whatever the store. -/
theorem Fresh.watched {remote : Bool} {server : ParamServer Value} {id : Nat}
    {thread moved : Thread Value} {mtx : Option Nat} (fresh : Fresh remote server.store thread)
    (stepped : server.watch id thread = some (mtx, moved)) :
    Fresh remote server.store moved := by
  obtain ⟨pc, written, called⟩ := thread
  cases pc with
  | loop watcher =>
      cases stepped
      apply Fresh.idle <;> split <;> first | rfl | exact fun _ _ => trivial
  | find watcher =>
      simp only [ParamServer.watch] at stepped
      split at stepped
      · cases stepped
        -- A name that is not found has no value to be behind.
        cases found : server.store.findParam watcher.name <;> cases side : watcher.remote
        · refine ⟨fun _ _ => trivial, fun _ none => (by cases none), ?_⟩
          intro _ same _ _ _ value stored
          cases same
          simp only [Store.findParam, stored, Option.isSome_some, reduceCtorEq] at found
        · refine ⟨fun _ same => (by cases same; exact side), fun _ none => (by cases none), ?_⟩
          intro _ same _ _ _ value stored
          cases same
          simp only [Store.findParam, stored, Option.isSome_some, reduceCtorEq] at found
        · exact Fresh.idle (fun _ same => (by cases same; exact side)) rfl rfl
        · exact Fresh.idle (fun _ same => (by cases same; exact side)) rfl rfl
      · cases stepped
  | getRead watcher =>
      simp only [ParamServer.watch] at stepped
      split at stepped
      · obtain ⟨param, stored, same⟩ := Option.map_eq_some_iff.mp stepped
        cases same
        refine ⟨fresh.kind, ?_, fun _ none => (by cases none)⟩
        intro read located _ _
        cases located
        exact stored
      · cases stepped
  | getLoad watcher param =>
      cases stepped
      refine ⟨?_, fun _ none => (by cases none), ?_⟩
      · intro _ same
        cases same
        exact fresh.kind watcher rfl
      · intro _ same side settled _ value stored
        cases same
        have read := fresh.reading (watcher, param) rfl side settled
        exact read.symm.trans stored
  | getCall watcher param =>
      cases stepped
      have isLocal : watcher.remote = false := fresh.kind watcher rfl
      refine ⟨fun _ _ => trivial, fun _ none => (by cases none), ?_⟩
      intro _ same side settled unchanged value stored
      cases same
      have taken := fresh.remembering watcher rfl side settled unchanged value stored
      simp only [Thread.latest, isLocal, Bool.false_eq_true, if_false, List.getLast?_concat]
      exact taken
  | remoteLoad watcher =>
      cases stepped
      apply Fresh.idle _ rfl rfl
      intro _ same
      cases same
      exact fresh.kind watcher rfl
  | remoteCopy watcher =>
      simp only [ParamServer.watch] at stepped
      split at stepped
      · obtain ⟨param, copied, same⟩ := Option.map_eq_some_iff.mp stepped
        cases same
        refine ⟨fresh.kind, fun _ none => (by cases none), ?_⟩
        intro _ same _ _ _ value stored
        cases same
        exact copied.symm.trans stored
      · cases stepped
  | remoteWrite watcher reply =>
      cases stepped
      have isRemote : watcher.remote = true := fresh.kind watcher rfl
      refine ⟨fun _ _ => trivial, fun _ none => (by cases none), ?_⟩
      intro _ same side settled unchanged value stored
      cases same
      have taken := fresh.remembering watcher rfl side settled unchanged value stored
      simp only [Thread.latest, isRemote, if_true, List.getLast?_concat, Option.bind_some]
      exact taken
  | lock watcher =>
      simp only [ParamServer.watch] at stepped
      split at stepped
      · cases stepped
        exact ⟨fresh.kind, fun _ none => (by cases none), fresh.remembering⟩
      · cases stepped
  | evaluate watcher =>
      simp only [ParamServer.watch] at stepped
      split at stepped
      · split at stepped
        · cases stepped
          exact Fresh.idle (fun _ _ => trivial) rfl rfl
        · cases stepped
          exact ⟨fresh.kind, fun _ none => (by cases none), fresh.remembering⟩
      · cases stepped
  | park watcher =>
      cases stepped
      exact ⟨fresh.kind, fun _ none => (by cases none), fresh.remembering⟩
  | _ => cases stepped

theorem fresh_preserved {remote : Bool}
    {fits : Store Value → Holding Value → Thread Value → Prop}
    (inOrder : ∀ store holding thread, fits store holding thread → remote = false →
      ReadInOrder store holding thread)
    (noticed : ∀ store holding thread, fits store holding thread →
      Noticed remote store holding thread) :
    ParamServer.Preserved fits (Fresh remote) where
  outside := Fresh.outside
  started remote name := Fresh.idle (fun _ _ => trivial) rfl rfl
  cancelled _ _ := Fresh.idle (fun _ _ => trivial) rfl rfl
  woken := by
    intro store thread watcher fresh located
    obtain ⟨pc, written, called⟩ := thread
    cases located
    exact ⟨fresh.kind, fresh.reading, fresh.remembering⟩
  watched _ fresh stepped := fresh.watched stepped
  acquired := by
    intro store thread id update fresh free
    exact ⟨fresh.kind, fun read located side _ => fresh.reading read located side
      (store.settled_of_free free _), fun watcher located side _ => fresh.remembering watcher
        located side (store.settled_of_free free _)⟩
  assigned := by
    intro store thread holding value fresh _ held stage _
    have before := store.settled_of_stage held (by rw [stage]; exact Stage.noConfusion)
    have other : ∀ {name}, (store.assign holding value).Settled name →
        (store.assign holding value).params name = store.params name := by
      intro name settled
      exact Function.update_of_ne (settled _ rfl rfl).symm _ _
    refine ⟨fresh.kind, fun read located side settled => ?_,
      fun watcher located side settled same param stored => ?_⟩
    · rw [other settled]
      exact fresh.reading read located side (before _)
    · rw [other settled] at stored
      exact fresh.remembering watcher located side (before _) same param stored
  counted := by
    intro store thread holding fresh fitting held stage
    have unsettled : ∀ {name}, name ≠ holding.update.name → store.Settled name := by
      intro name other holder same _
      cases held.symm.trans same
      exact other.symm
    refine ⟨fresh.kind, fun read located side _ => ?_,
      fun watcher located side _ same param stored => ?_⟩
    · by_cases here : read.1.name = holding.update.name
      · have isLocal : remote = false := side ▸ fresh.readingLocal located
        exact inOrder _ _ _ fitting isLocal stage read located here
      · exact fresh.reading read located side (unsettled here)
    · by_cases here : watcher.name = holding.update.name
      · have stamped : holding.update.counted (store.paramsVersion watcher.name) =
            watcher.version := by
          rw [← same]
          simp only [Store.count, here, Function.update_self]
        rw [← noticed _ _ _ fitting stage watcher located side here stamped]
        exact stored
      · have kept : store.paramsVersion watcher.name = watcher.version := by
          rw [← same]
          simp only [Store.count, Function.update_of_ne here]
        exact fresh.remembering watcher located side (unsettled here) kept param stored
  inserted := by
    intro store thread holding fresh _ held stage
    have before := store.settled_of_stage held (by rw [stage]; exact Stage.noConfusion)
    exact ⟨fresh.kind, fun read located side _ => fresh.reading read located side (before _),
      fun watcher located side _ => fresh.remembering watcher located side (before _)⟩
  released := by
    intro store thread holding fresh _ held stage
    have before := store.settled_of_stage held (by rw [stage]; exact Stage.noConfusion)
    have kept : Fresh remote store.release thread :=
      ⟨fresh.kind, fun read located side _ => fresh.reading read located side (before _),
        fun watcher located side _ => fresh.remembering watcher located side (before _)⟩
    obtain ⟨pc, written, called⟩ := thread
    cases pc <;> exact ⟨kept.kind, kept.reading, kept.remembering⟩

/-! ## The order of the replies -/

/-- The payloads are values of the history, with repetitions and gaps, and in its order. -/
def Follows (payloads history : List Value) : Prop :=
  ∃ positions : List Nat, positions.Pairwise (· ≤ ·) ∧
    positions.map (fun position => history[position]?) = payloads.map some

theorem Follows.nil (history : List Value) : Follows [] history := ⟨[], List.Pairwise.nil, rfl⟩

theorem Follows.left {first second history : List Value}
    (follows : Follows (first ++ second) history) : Follows first history := by
  obtain ⟨positions, ordered, located⟩ := follows
  refine ⟨positions.take first.length, ordered.sublist (List.take_sublist _ _), ?_⟩
  rw [List.map_take, located, ← List.map_take, List.take_left]

theorem Follows.later {payloads history : List Value} (follows : Follows payloads history)
    (value : Value) : Follows payloads (history ++ [value]) := by
  obtain ⟨positions, ordered, located⟩ := follows
  refine ⟨positions, ordered, ?_⟩
  rw [← located]
  apply List.map_congr_left
  intro position member
  have inside : history[position]? ∈ payloads.map some := located ▸ List.mem_map_of_mem member
  obtain ⟨payload, _, same⟩ := List.mem_map.mp inside
  exact List.getElem?_append_left (List.getElem?_eq_some_iff.mp same.symm).1

theorem Follows.concat {payloads history : List Value} (follows : Follows payloads history)
    {value : Value} (last : history.getLast? = some value) :
    Follows (payloads ++ [value]) history := by
  obtain ⟨positions, ordered, located⟩ := follows
  refine ⟨positions ++ [history.length - 1], ?_, ?_⟩
  · apply List.pairwise_append.mpr
    refine ⟨ordered, List.pairwise_singleton _ _, fun position member final same => ?_⟩
    cases List.mem_singleton.mp same
    have inside : history[position]? ∈ payloads.map some := located ▸ List.mem_map_of_mem member
    obtain ⟨payload, _, same⟩ := List.mem_map.mp inside
    have := (List.getElem?_eq_some_iff.mp same.symm).1
    omega
  · rw [List.map_append, List.map_append, located, List.map_singleton, List.map_singleton,
      ← last, List.getLast?_eq_getElem?]

def Ordered (replies : List (GetParamRPCReply Value)) : Prop :=
  replies.Pairwise fun earlier later =>
    earlier.status = .normal → later.status ≠ .tmepNotAvaliable

/-- The replies about a parameter so far. -/
structure Stream (store : Store Value) (name : String) (replies : List (GetParamRPCReply Value)) :
    Prop where
  follows : Follows (replies.filterMap GetParamRPCReply.value) (store.history name)
  ordered : Ordered replies
  declared : ∀ reply ∈ replies, reply.status = .normal → store.params name ≠ none

theorem Stream.nil (store : Store Value) (name : String) : Stream store name [] where
  follows := Follows.nil _
  ordered := List.Pairwise.nil
  declared _ member := by cases member

theorem Stream.unavailable {store : Store Value} {name : String}
    {replies : List (GetParamRPCReply Value)} (stream : Stream store name replies)
    (undeclared : store.params name = none) :
    Stream store name (replies ++ [{ status := .tmepNotAvaliable, payload := none }]) where
  follows := by
    rw [List.filterMap_append]
    simpa only [List.filterMap_cons, GetParamRPCReply.value, List.filterMap_nil, List.append_nil]
      using stream.follows
  ordered := by
    apply List.pairwise_append.mpr
    refine ⟨stream.ordered, List.pairwise_singleton _ _, fun reply member _ _ normal => ?_⟩
    exact absurd undeclared (stream.declared reply member normal)
  declared reply member normal := by
    rcases List.mem_append.mp member with before | here
    · exact stream.declared reply before normal
    · cases List.mem_singleton.mp here
      cases normal

theorem Stream.available {store : Store Value} {name : String}
    {replies : List (GetParamRPCReply Value)} (stream : Stream store name replies)
    (sound : store.Sound) {value : Value} (copied : store.params name = some value) :
    Stream store name (replies ++ [{ status := .normal, payload := some value }]) where
  follows := by
    rw [List.filterMap_append]
    exact stream.follows.concat ((sound.recorded name).trans copied)
  ordered := by
    apply List.pairwise_append.mpr
    refine ⟨stream.ordered, List.pairwise_singleton _ _, fun _ _ later here _ => ?_⟩
    cases List.mem_singleton.mp here
    exact ParameterStatus.noConfusion
  declared _ _ _ := by
    rw [copied]
    exact Option.some_ne_none value

theorem Stream.assign {store : Store Value} {name : String}
    {replies : List (GetParamRPCReply Value)} (stream : Stream store name replies)
    (holding : Holding Value) (value : Value) :
    Stream (store.assign holding value) name replies where
  follows := by
    simp only [Store.assign, Function.update_apply]
    split
    · rename_i same
      exact same ▸ stream.follows.later value
    · exact stream.follows
  ordered := stream.ordered
  declared reply member normal := by
    simp only [Store.assign, Function.update_apply]
    split
    · exact Option.some_ne_none value
    · exact stream.declared reply member normal

def Streamed (store : Store Value) (thread : Thread Value) : Prop :=
  ∀ watcher, thread.pc.watcher = some watcher → Stream store watcher.name thread.replies

theorem Streamed.same {store : Store Value} {thread moved : Thread Value}
    (streamed : Streamed store thread) {watcher : Watcher}
    (before : thread.pc.watcher = some watcher) (version : Int)
    (after : moved.pc.watcher = some { watcher with version := version })
    (replies : moved.replies = thread.replies) : Streamed store moved := by
  intro other located
  cases after.symm.trans located
  rw [replies]
  exact streamed watcher before

theorem Streamed.watched {server : ParamServer Value} {id : Nat} {thread moved : Thread Value}
    {mtx : Option Nat} (sound : server.store.Sound) (streamed : Streamed server.store thread)
    (stepped : server.watch id thread = some (mtx, moved)) : Streamed server.store moved := by
  obtain ⟨pc, written, called⟩ := thread
  cases pc with
  | loop watcher =>
      cases stepped
      apply streamed.same rfl watcher.version <;> split <;> rfl
  | find watcher =>
      simp only [ParamServer.watch] at stepped
      split at stepped
      · cases stepped
        cases found : server.store.findParam watcher.name <;> cases watcher.remote
        · exact streamed.same rfl watcher.version rfl rfl
        · intro _ same
          cases same
          have undeclared : server.store.params watcher.name = none :=
            Option.isSome_eq_false_iff.mp found |> Option.isNone_iff_eq_none.mp
          have before := (streamed watcher rfl).unavailable undeclared
          simp only [Thread.replies, Pc.writing, List.append_nil] at before
          exact before
        · exact streamed.same rfl watcher.version rfl rfl
        · exact streamed.same rfl watcher.version rfl rfl
      · cases stepped
  | getRead watcher =>
      simp only [ParamServer.watch] at stepped
      split at stepped
      · obtain ⟨param, _, same⟩ := Option.map_eq_some_iff.mp stepped
        cases same
        exact streamed.same rfl watcher.version rfl rfl
      · cases stepped
  | getLoad watcher param =>
      cases stepped
      exact streamed.same rfl (server.store.paramsVersion watcher.name) rfl rfl
  | getCall watcher param =>
      cases stepped
      exact streamed.same rfl watcher.version rfl rfl
  | remoteLoad watcher =>
      cases stepped
      exact streamed.same rfl (server.store.paramsVersion watcher.name) rfl rfl
  | remoteCopy watcher =>
      simp only [ParamServer.watch] at stepped
      split at stepped
      · obtain ⟨param, copied, same⟩ := Option.map_eq_some_iff.mp stepped
        cases same
        intro _ same
        cases same
        have before := (streamed watcher rfl).available sound copied
        simp only [Thread.replies, Pc.writing, List.append_nil] at before
        exact before
      · cases stepped
  | remoteWrite watcher reply =>
      cases stepped
      exact streamed.same rfl watcher.version rfl (List.append_nil _)
  | lock watcher =>
      simp only [ParamServer.watch] at stepped
      split at stepped
      · cases stepped
        exact streamed.same rfl watcher.version rfl rfl
      · cases stepped
  | evaluate watcher =>
      simp only [ParamServer.watch] at stepped
      split at stepped
      · split at stepped
        · cases stepped
          exact streamed.same rfl watcher.version rfl rfl
        · cases stepped
          exact streamed.same rfl watcher.version rfl rfl
      · cases stepped
  | park watcher =>
      cases stepped
      exact streamed.same rfl watcher.version rfl rfl
  | _ => cases stepped

theorem streamed_preserved :
    ParamServer.Preserved (fun _ _ _ => True) (@Streamed Value) where
  outside := by
    intro store thread outside watcher located
    rw [outside] at located
    cases located
  started remote name := by
    intro watcher located
    exact Stream.nil _ _
  cancelled := by
    intro store thread watcher streamed located
    obtain ⟨pc, written, called⟩ := thread
    cases located
    exact streamed.same rfl watcher.version rfl rfl
  woken := by
    intro store thread watcher streamed located
    obtain ⟨pc, written, called⟩ := thread
    cases located
    exact streamed.same rfl watcher.version rfl rfl
  watched sound streamed stepped := streamed.watched sound stepped
  acquired _ _ streamed _ watcher located :=
    ⟨(streamed watcher located).follows, (streamed watcher located).ordered,
      (streamed watcher located).declared⟩
  assigned streamed _ _ _ _ watcher located := (streamed watcher located).assign _ _
  counted streamed _ _ _ watcher located :=
    ⟨(streamed watcher located).follows, (streamed watcher located).ordered,
      (streamed watcher located).declared⟩
  inserted streamed _ _ _ watcher located :=
    ⟨(streamed watcher located).follows, (streamed watcher located).ordered,
      (streamed watcher located).declared⟩
  released := by
    intro store thread holding streamed _ _ _
    have kept : Streamed store.release thread := fun watcher located =>
      ⟨(streamed watcher located).follows, (streamed watcher located).ordered,
        (streamed watcher located).declared⟩
    obtain ⟨pc, written, called⟩ := thread
    cases pc <;> exact kept

/-! ## The results -/

namespace ParamServer

/-- A false wait predicate of a callback thread finds the current value passed on. The
predicate asks `find_param`, which waits until no update holds the lock. -/
def FreshCalls (server : ParamServer Value) : Prop :=
  ∀ thread ∈ server.threads, ∀ watcher, thread.pc = .evaluate watcher → watcher.remote = false →
    server.store.paramsMtx = none → server.waitPredicate watcher = false →
    ∀ value, server.store.params watcher.name = some value → thread.called.getLast? = some value

/-- A false wait predicate of a handler finds the current value in the last reply. -/
def FreshReplies (server : ParamServer Value) : Prop :=
  ∀ thread ∈ server.threads, ∀ watcher, thread.pc = .evaluate watcher → watcher.remote = true →
    server.store.paramsMtx = none → server.waitPredicate watcher = false →
    ∀ value, server.store.params watcher.name = some value →
      thread.written.getLast? = some { status := .normal, payload := some value }

/-- Every handler has written values of its parameter in their order, and nothing but
values after the first of them. -/
def OrderedReplies (server : ParamServer Value) : Prop :=
  ∀ thread ∈ server.threads, ∀ watcher, thread.pc.watcher = some watcher →
    Follows (thread.written.filterMap GetParamRPCReply.value)
        (server.store.history watcher.name) ∧
      Ordered thread.written

theorem latest_of_fresh {remote : Bool} {server : ParamServer Value}
    (fresh : AllThreads (Fresh remote) server) {thread : Thread Value}
    (member : thread ∈ server.threads) {watcher : Watcher} (located : thread.pc = .evaluate watcher)
    (side : watcher.remote = remote) (free : server.store.paramsMtx = none)
    (waiting : server.waitPredicate watcher = false) {value : Value}
    (stored : server.store.params watcher.name = some value) : thread.latest = some value := by
  have unchanged : server.store.paramsVersion watcher.name = watcher.version := by
    simp only [waitPredicate, Store.findParam, stored, Option.isSome_some, Bool.true_and,
      Bool.or_eq_false_iff, bne_eq_false_iff_eq] at waiting
    exact waiting.1.symm
  exact (fresh thread member).remembering watcher (by rw [located]; rfl) side
    (server.store.settled_of_free free _) unchanged value stored

theorem GetParamRPCReply.eq_of_value {reply : GetParamRPCReply Value} {value : Value}
    (holds : reply.value = some value) : reply = { status := .normal, payload := some value } := by
  obtain ⟨status, payload⟩ := reply
  cases status
  · cases holds
    rfl
  · cases holds
  · cases holds

/-- A callback thread does not settle on an old value in any run in which no update writes
the version between its two reads, or back to the number it remembers. -/
theorem freshCalls_of_noticed (run : List (Action Value))
    (noticed : machine.Obeys (Fitting fun store holding thread =>
      ReadInOrder store holding thread ∧ Noticed false store holding thread) initial run) :
    machine.Along FreshCalls initial run := by
  have fresh : machine.Along (AllThreads (Fresh false)) initial run :=
    (fresh_preserved (fun _ _ _ fits _ => fits.1) fun _ _ _ fits => fits.2).along noticed
  apply fresh.mono
  intro server valid thread member watcher located side free waiting value stored
  have latest := latest_of_fresh valid member located side free waiting stored
  simpa only [Thread.latest, located, side, Bool.false_eq_true, if_false] using latest

/-- A callback thread is waiting when the parameter is set, and calls back again. -/
def setAfterPark : List (Action Nat) :=
  .start (.modify (.declare "gain" 5 false)) :: List.replicate 5 (Action.run 0) ++
    .start (.watch false "gain") :: List.replicate 8 (Action.run 1) ++
    .start (.modify (.set "gain" 7)) :: List.replicate 6 (Action.run 2) ++
    List.replicate 8 (Action.run 1)

theorem freshCalls_of_noticed_setAfterPark : machine.Along FreshCalls initial setAfterPark :=
  freshCalls_of_noticed setAfterPark (by decide +kernel)

/-- The parameter is set after the callback thread has read it and before it has loaded
the version. -/
def setBetweenReads : List (Action Nat) :=
  .start (.modify (.declare "gain" 5 false)) :: List.replicate 5 (Action.run 0) ++
    .start (.watch false "gain") :: List.replicate 3 (Action.run 1) ++
    .start (.modify (.set "gain" 7)) :: List.replicate 6 (Action.run 2) ++
    List.replicate 3 (Action.run 1)

theorem setBetweenReads_not_fresh : ¬ machine.Along FreshCalls initial setBetweenReads := by
  intro along
  have evaluated : (machine.exec initial setBetweenReads).map (fun server =>
      (server.threads[1]?, server.store.paramsMtx, server.store.params "gain",
        server.waitPredicate ⟨false, "gain", 2⟩)) =
      some (some ⟨.evaluate ⟨false, "gain", 2⟩, [], [5]⟩, none, some 7, false) := by
    decide +kernel
  obtain ⟨final, executed, same⟩ := Option.map_eq_some_iff.mp evaluated
  simp only [Prod.mk.injEq] at same
  obtain ⟨located, free, stored, waiting⟩ := same
  have fresh :=
    along.final executed _ (List.mem_of_getElem? located) _ rfl rfl free waiting 7 stored
  exact absurd fresh (by decide)

/-- The replies of a handler keep the order of the values in every run. The last one is
current whenever the handler waits, unless a version is written back to what it remembers. -/
theorem orderedReplies_and_freshReplies (run : List (Action Value)) :
    machine.Along OrderedReplies initial run ∧
      (machine.Obeys (Fitting (Noticed true)) initial run →
        machine.Along FreshReplies initial run) := by
  constructor
  · have free : machine.Obeys (Fitting fun _ _ _ => True) initial run :=
      Machine.Obeys.of_forall (fun _ _ _ _ _ _ => trivial) initial run
    apply (streamed_preserved.along free).mono
    intro server valid thread member watcher located
    have stream := valid thread member watcher located
    constructor
    · have follows := stream.follows
      rw [Thread.replies, List.filterMap_append] at follows
      exact follows.left
    · exact (List.pairwise_append.mp stream.ordered).1
  · intro noticed
    have fresh : machine.Along (AllThreads (Fresh true)) initial run :=
      (fresh_preserved (fun _ _ _ _ side => by cases side) fun _ _ _ fits => fits).along noticed
    apply fresh.mono
    intro server valid thread member watcher located side free waiting value stored
    have latest := latest_of_fresh valid member located side free waiting stored
    simp only [Thread.latest, located, side, if_true] at latest
    obtain ⟨reply, last, holds⟩ := Option.bind_eq_some_iff.mp latest
    rw [last, GetParamRPCReply.eq_of_value holds]

/-- A handler is served while the parameter is declared, set and set from outside. -/
def servedHandler : List (Action Nat) :=
  .start (.watch true "gain") :: List.replicate 6 (Action.run 0) ++
    .start (.modify (.declare "gain" 5 false)) :: List.replicate 5 (Action.run 1) ++
    List.replicate 10 (Action.run 0) ++
    .start (.modify (.setRemoteParam "gain" (some 7))) :: List.replicate 6 (Action.run 2) ++
    List.replicate 8 (Action.run 0)

theorem orderedReplies_and_freshReplies_servedHandler :
    machine.Along FreshReplies initial servedHandler :=
  (orderedReplies_and_freshReplies servedHandler).2 (by decide +kernel)

/-- Two declarations have found no parameter. The second resets the version after a handler
has answered with the value of the first. -/
def declaredTwice : List (Action Nat) :=
  .start (.modify (.declare "gain" 5 false)) :: .start (.modify (.declare "gain" 7 false)) ::
    .run 0 :: .run 1 :: List.replicate 4 (Action.run 0) ++
    .start (.watch true "gain") :: List.replicate 6 (Action.run 2) ++
    List.replicate 4 (Action.run 1)

theorem declaredTwice_not_fresh : ¬ machine.Along FreshReplies initial declaredTwice := by
  intro along
  have evaluated : (machine.exec initial declaredTwice).map (fun server =>
      (server.threads[2]?, server.store.paramsMtx, server.store.params "gain",
        server.waitPredicate ⟨true, "gain", 1⟩)) =
      some (some ⟨.evaluate ⟨true, "gain", 1⟩, [⟨.normal, some 5⟩], []⟩, none, some 7, false) := by
    decide +kernel
  obtain ⟨final, executed, same⟩ := Option.map_eq_some_iff.mp evaluated
  simp only [Prod.mk.injEq] at same
  obtain ⟨located, free, stored, waiting⟩ := same
  have fresh :=
    along.final executed _ (List.mem_of_getElem? located) _ rfl rfl free waiting 7 stored
  exact absurd fresh (by decide)

end ParamServer

end ProtoCore.Params
