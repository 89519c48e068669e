import Mathlib.Data.Finset.Insert
import Mathlib.Data.List.Basic
import Mathlib.Logic.Function.Basic
import ProtoCore.Library.FixedWidth
import ProtoCore.Library.Machine

/-!
# The parameter server

Parameters and their versions are written under the exclusive `params_mtx`. Watchers
read a value under the shared lock and a version under none, and wait on a condition
variable with a mutex of its own, which the writers never take. A section under the
shared lock is one step; the holder of the exclusive lock is part of the state.
-/

set_option autoImplicit false

namespace ProtoCore.Params

open Library

variable {Value : Type}

inductive ParameterStatus where
  | normal
  | tmepNotAvaliable
  | notChangeable
  deriving DecidableEq, Repr

structure GetParamRPCReply (Value : Type) where
  status : ParameterStatus
  payload : Option Value
  deriving DecidableEq, Repr

/-- A call that writes a parameter. A payload that `UnpackTo` rejects is `none`. -/
inductive Update (Value : Type) where
  | declare (name : String) (val : Value) (isConst : Bool)
  | set (name : String) (val : Value)
  | setRemoteParam (name : String) (payload : Option Value)
  deriving DecidableEq, Repr

namespace Update

def name : Update Value → String
  | .declare name _ _ | .set name _ | .setRemoteParam name _ => name

def isConst : Update Value → Bool
  | .declare _ _ isConst => isConst
  | _ => false

/-- The value after the assignment. Only `declare` can do without a stored one. -/
def assigned : Update Value → Option Value → Option Value
  | .declare _ val _, _ => some val
  | .set _ val, stored => stored.map fun _ => val
  | .setRemoteParam _ payload, stored => stored.map payload.getD

def counted : Update Value → Int → Int
  | .declare .., _ => 1
  | _, version => int32 (version + 1)

end Update

/-- The next statement of an update that holds `params_mtx`. -/
inductive Stage where
  | assign
  | count
  | insertConst
  | notify
  deriving DecidableEq, Repr

structure Holding (Value : Type) where
  thread : Nat
  update : Update Value
  stage : Stage
  deriving DecidableEq, Repr

/-- A `getRemoteParam` handler, or the thread that `get` starts for a callback. -/
structure Watcher where
  remote : Bool
  name : String
  version : Int
  deriving DecidableEq, Repr

inductive Pc (Value : Type) where
  | findParam (update : Update Value)
  | isConst (update : Update Value)
  | body (update : Update Value)
  | inside
  | done
  | loop (watcher : Watcher)
  | find (watcher : Watcher)
  | getRead (watcher : Watcher)
  | getLoad (watcher : Watcher) (param : Value)
  | getCall (watcher : Watcher) (param : Value)
  | remoteLoad (watcher : Watcher)
  | remoteCopy (watcher : Watcher)
  | remoteWrite (watcher : Watcher) (reply : GetParamRPCReply Value)
  | lock (watcher : Watcher)
  | evaluate (watcher : Watcher)
  | park (watcher : Watcher)
  | parked (watcher : Watcher)
  | left (watcher : Watcher)
  deriving DecidableEq, Repr

namespace Pc

def watcher : Pc Value → Option Watcher
  | .findParam _ | .isConst _ | .body _ | .inside | .done => none
  | .loop watcher | .find watcher | .getRead watcher | .getLoad watcher _ | .getCall watcher _
  | .remoteLoad watcher | .remoteCopy watcher | .remoteWrite watcher _ | .lock watcher
  | .evaluate watcher | .park watcher | .parked watcher | .left watcher => some watcher

def wake : Pc Value → Pc Value
  | .parked watcher => .lock watcher
  | pc => pc

end Pc

/-- A thread with the replies it has passed to `Write` and the values to its callback. -/
structure Thread (Value : Type) where
  pc : Pc Value
  written : List (GetParamRPCReply Value)
  called : List Value
  deriving DecidableEq, Repr

def Thread.wake (thread : Thread Value) : Thread Value := { thread with pc := thread.pc.wake }

/-- The answer of `setRemoteParam`, and whether the name was a constant by then. What
one step of the call has seen declared constant, its last step sees so too. -/
structure Answer where
  name : String
  status : ParameterStatus
  constant : Bool
  deriving DecidableEq, Repr

/-- The parameters, the holder of `params_mtx`, and the values each parameter has had. -/
structure Store (Value : Type) where
  params : String → Option Value
  paramsVersion : String → Int
  isConstParams : Finset String
  paramsMtx : Option (Holding Value)
  history : String → List Value

namespace Store

def findParam (store : Store Value) (name : String) : Bool := (store.params name).isSome

def isConst (store : Store Value) (name : String) : Bool := name ∈ store.isConstParams

def assign (store : Store Value) (holding : Holding Value) (value : Value) : Store Value :=
  let name := holding.update.name
  { store with
    params := Function.update store.params name (some value)
    history := Function.update store.history name (store.history name ++ [value])
    paramsMtx := some { holding with stage := .count } }

def count (store : Store Value) (holding : Holding Value) : Store Value :=
  let name := holding.update.name
  { store with
    paramsVersion := Function.update store.paramsVersion name
      (holding.update.counted (store.paramsVersion name))
    paramsMtx := some { holding with
      stage := if holding.update.isConst then .insertConst else .notify } }

def insertConst (store : Store Value) (holding : Holding Value) : Store Value :=
  { store with
    isConstParams := insert holding.update.name store.isConstParams
    paramsMtx := some { holding with stage := .notify } }

def acquire (store : Store Value) (thread : Nat) (update : Update Value) : Store Value :=
  { store with paramsMtx := some { thread := thread, update := update, stage := .assign } }

def release (store : Store Value) : Store Value := { store with paramsMtx := none }

end Store

namespace Update

/-- Where a call goes on after `find_param`, and what `setRemoteParam` answers. -/
def afterFindParam (update : Update Value) (found : Bool) : Pc Value × Option ParameterStatus :=
  match update, found with
  | .declare .., true => (.done, none)
  | .declare .., false => (.body update, none)
  | .set .., true => (.isConst update, none)
  | .set .., false => (.done, none)
  | .setRemoteParam .., true => (.body update, none)
  | .setRemoteParam .., false => (.done, some .tmepNotAvaliable)

/-- Where a call goes on after `is_const`, which `declare` does not ask. -/
def afterIsConst (update : Update Value) (constant : Bool) : Pc Value × Option ParameterStatus :=
  match update, constant with
  | .declare .., _ => (.done, none)
  | .set .., true => (.done, none)
  | .set .., false => (.body update, none)
  | .setRemoteParam .., true => (.done, some .notChangeable)
  | .setRemoteParam .., false => (.findParam update, none)

def firstTest : Update Value → Pc Value
  | .setRemoteParam name payload => .isConst (.setRemoteParam name payload)
  | update => .findParam update

/-- The answer of a body. -/
def status : Update Value → Option ParameterStatus
  | .setRemoteParam .. => some .normal
  | _ => none

end Update

inductive Operation (Value : Type) where
  | modify (update : Update Value)
  | watch (remote : Bool) (name : String)

def Operation.entry : Operation Value → Pc Value
  | .modify update => update.firstTest
  | .watch remote name => .loop { remote := remote, name := name, version := 0 }

inductive Action (Value : Type) where
  | start (operation : Operation Value)
  | run (thread : Nat)
  | cancelled (thread : Nat)
  | wake (thread : Nat)
  | setAbort

/-- The server, the mutex of its condition variable, its threads and the answers to
`setRemoteParam`. -/
structure ParamServer (Value : Type) where
  store : Store Value
  mtx : Option Nat
  ok : Bool
  threads : List (Thread Value)
  answers : List Answer

namespace ParamServer

def initial : ParamServer Value where
  store := {
    params := fun _ => none
    paramsVersion := fun _ => 0
    isConstParams := ∅
    paramsMtx := none
    history := fun _ => [] }
  mtx := none
  ok := true
  threads := []
  answers := []

def waitPredicate (server : ParamServer Value) (watcher : Watcher) : Bool :=
  (server.store.findParam watcher.name &&
    watcher.version != server.store.paramsVersion watcher.name) || !server.ok

def setThread (server : ParamServer Value) (id : Nat) (thread : Thread Value) :
    ParamServer Value :=
  { server with threads := server.threads.set id thread }

def answer (server : ParamServer Value) (name : String) :
    Option ParameterStatus → ParamServer Value
  | none => server
  | some status =>
      { server with answers := server.answers ++ [⟨name, status, server.store.isConst name⟩] }

/-- `notify_all` reaches the threads that are parked. -/
def notifyAll (server : ParamServer Value) : ParamServer Value :=
  { server with threads := server.threads.map Thread.wake }

/-- The steps of an update outside its body. -/
def search (server : ParamServer Value) (id : Nat) (thread : Thread Value) :
    Option (ParamServer Value) :=
  match thread.pc with
  | .findParam update =>
      if server.store.paramsMtx.isNone then
        let (pc, status) := update.afterFindParam (server.store.findParam update.name)
        some ((server.answer update.name status).setThread id { thread with pc := pc })
      else none
  | .isConst update =>
      let (pc, status) := update.afterIsConst (server.store.isConst update.name)
      some ((server.answer update.name status).setThread id { thread with pc := pc })
  | .body update =>
      if server.store.paramsMtx.isNone then
        some ({ server with store := server.store.acquire id update }.setThread id
          { thread with pc := .inside })
      else none
  | _ => none

/-- The steps of a watcher, which change `mtx` and the thread itself only. -/
def watch (server : ParamServer Value) (id : Nat) (thread : Thread Value) :
    Option (Option Nat × Thread Value) :=
  match thread.pc with
  | .loop watcher =>
      some (server.mtx, { thread with pc := if server.ok then .find watcher else .left watcher })
  | .find watcher =>
      if server.store.paramsMtx.isNone then
        some (server.mtx, { thread with
          pc := match server.store.findParam watcher.name, watcher.remote with
            | true, true => .remoteLoad watcher
            | true, false => .getRead watcher
            | false, true => .remoteWrite watcher { status := .tmepNotAvaliable, payload := none }
            | false, false => .lock watcher })
      else none
  | .getRead watcher =>
      if server.store.paramsMtx.isNone then
        (server.store.params watcher.name).map fun param =>
          (server.mtx, { thread with pc := .getLoad watcher param })
      else none
  | .getLoad watcher param =>
      let version := server.store.paramsVersion watcher.name
      some (server.mtx, { thread with pc := .getCall { watcher with version := version } param })
  | .getCall watcher param =>
      some (server.mtx, { thread with pc := .lock watcher, called := thread.called ++ [param] })
  | .remoteLoad watcher =>
      let version := server.store.paramsVersion watcher.name
      some (server.mtx, { thread with pc := .remoteCopy { watcher with version := version } })
  | .remoteCopy watcher =>
      if server.store.paramsMtx.isNone then
        (server.store.params watcher.name).map fun param =>
          (server.mtx, { thread with
            pc := .remoteWrite watcher { status := .normal, payload := some param } })
      else none
  | .remoteWrite watcher reply =>
      some (server.mtx, { thread with pc := .lock watcher, written := thread.written ++ [reply] })
  | .lock watcher =>
      if server.mtx.isNone then some (some id, { thread with pc := .evaluate watcher }) else none
  | .evaluate watcher =>
      if server.store.paramsMtx.isNone then
        if server.waitPredicate watcher then some (none, { thread with pc := .loop watcher })
        else some (server.mtx, { thread with pc := .park watcher })
      else none
  | .park watcher => some (none, { thread with pc := .parked watcher })
  | _ => none

/-- The body that an action moves on. -/
def body (server : ParamServer Value) : Action Value → Option (Holding Value)
  | .run id =>
      match server.threads[id]?.map Thread.pc, server.store.paramsMtx with
      | some .inside, some holding => if holding.thread = id then some holding else none
      | _, _ => none
  | _ => none

/-- The steps of a body. The last one is `notify_all`, after which the lock is given up. -/
def runBody (server : ParamServer Value) (thread : Thread Value) (holding : Holding Value) :
    Option (ParamServer Value) :=
  match holding.stage with
  | .assign =>
      (holding.update.assigned (server.store.params holding.update.name)).map fun value =>
        { server with store := server.store.assign holding value }
  | .count => some { server with store := server.store.count holding }
  | .insertConst => some { server with store := server.store.insertConst holding }
  | .notify =>
      let answered := server.answer holding.update.name holding.update.status
      some ({ answered with store := server.store.release }.setThread holding.thread
        { thread with pc := .done }).notifyAll

/-- A watcher may find its call cancelled at the head of the loop, and may be woken
without a notification. -/
def step (server : ParamServer Value) (action : Action Value) : Option (ParamServer Value) :=
  match action with
  | .start operation =>
      let thread := { pc := operation.entry, written := [], called := [] }
      some { server with threads := server.threads ++ [thread] }
  | .run id =>
      match server.threads[id]? with
      | none => none
      | some thread =>
          match server.body action with
          | some holding => server.runBody thread holding
          | none =>
              match server.watch id thread with
              | some (mtx, moved) => some ({ server with mtx := mtx }.setThread id moved)
              | none => server.search id thread
  | .cancelled id =>
      match server.threads[id]? with
      | none => none
      | some thread =>
          match thread.pc with
          | .loop watcher =>
              if watcher.remote then
                some (server.setThread id { thread with pc := .left watcher })
              else none
          | _ => none
  | .wake id =>
      match server.threads[id]? with
      | none => none
      | some thread =>
          match thread.pc with
          | .parked watcher => some (server.setThread id { thread with pc := .lock watcher })
          | _ => none
  | .setAbort => some { server with ok := false }

def machine : Machine (ParamServer Value) (Action Value) := ⟨step⟩

@[simp] theorem answer_store (server : ParamServer Value) (name : String)
    (status : Option ParameterStatus) : (server.answer name status).store = server.store := by
  cases status <;> rfl

@[simp] theorem answer_threads (server : ParamServer Value) (name : String)
    (status : Option ParameterStatus) :
    (server.answer name status).threads = server.threads := by
  cases status <;> rfl

theorem body_eq_some {server : ParamServer Value} {action : Action Value}
    {holding : Holding Value} (moving : server.body action = some holding) :
    action = .run holding.thread ∧ server.store.paramsMtx = some holding := by
  unfold body at moving
  split at moving
  · split at moving
    · rename_i held
      split at moving
      · rename_i same
        cases moving
        exact ⟨by rw [same], held⟩
      · cases moving
    · cases moving
  · cases moving

/-- What one step does to the store and to the threads. -/
inductive Change (server : ParamServer Value) (action : Action Value)
    (next : ParamServer Value) : Prop where
  | started (operation : Operation Value) (same : next.store = server.store)
      (threads : next.threads = server.threads ++
        [{ pc := operation.entry, written := [], called := [] }])
  | cancelled (id : Nat) (thread : Thread Value) (watcher : Watcher)
      (found : server.threads[id]? = some thread) (located : thread.pc = .loop watcher)
      (same : next.store = server.store)
      (threads : next.threads = server.threads.set id { thread with pc := .left watcher })
  | woken (id : Nat) (thread : Thread Value) (watcher : Watcher)
      (found : server.threads[id]? = some thread) (located : thread.pc = .parked watcher)
      (same : next.store = server.store)
      (threads : next.threads = server.threads.set id { thread with pc := .lock watcher })
  | aborted (same : next.store = server.store) (threads : next.threads = server.threads)
  | watched (id : Nat) (thread moved : Thread Value) (mtx : Option Nat)
      (found : server.threads[id]? = some thread)
      (stepped : server.watch id thread = some (mtx, moved)) (same : next.store = server.store)
      (threads : next.threads = server.threads.set id moved)
  | searched (id : Nat) (thread : Thread Value) (pc : Pc Value)
      (found : server.threads[id]? = some thread) (outside : pc.watcher = none)
      (same : next.store = server.store)
      (threads : next.threads = server.threads.set id { thread with pc := pc })
  | acquired (id : Nat) (thread : Thread Value) (update : Update Value)
      (acting : action = .run id) (found : server.threads[id]? = some thread)
      (located : thread.pc = .body update) (free : server.store.paramsMtx = none)
      (store : next.store = server.store.acquire id update)
      (threads : next.threads = server.threads.set id { thread with pc := .inside })
  | assigned (holding : Holding Value) (value : Value)
      (moving : server.body action = some holding) (stage : holding.stage = .assign)
      (result : holding.update.assigned (server.store.params holding.update.name) = some value)
      (store : next.store = server.store.assign holding value)
      (threads : next.threads = server.threads)
  | counted (holding : Holding Value) (moving : server.body action = some holding)
      (stage : holding.stage = .count) (store : next.store = server.store.count holding)
      (threads : next.threads = server.threads)
  | inserted (holding : Holding Value) (moving : server.body action = some holding)
      (stage : holding.stage = .insertConst)
      (store : next.store = server.store.insertConst holding)
      (threads : next.threads = server.threads)
  | released (holding : Holding Value) (thread : Thread Value)
      (moving : server.body action = some holding) (stage : holding.stage = .notify)
      (store : next.store = server.store.release)
      (threads : next.threads =
        (server.threads.set holding.thread { thread with pc := .done }).map Thread.wake)

theorem afterFindParam_watcher (update : Update Value) (found : Bool) :
    (update.afterFindParam found).1.watcher = none := by
  cases update <;> cases found <;> rfl

theorem afterIsConst_watcher (update : Update Value) (constant : Bool) :
    (update.afterIsConst constant).1.watcher = none := by
  cases update <;> cases constant <;> rfl

theorem search_change {server next : ParamServer Value} {id : Nat} {thread : Thread Value}
    (found : server.threads[id]? = some thread) (stepped : server.search id thread = some next) :
    Change server (.run id) next := by
  unfold search at stepped
  split at stepped
  case h_1 update located =>
    split at stepped
    · cases stepped
      exact .searched id thread (update.afterFindParam (server.store.findParam update.name)).1
        found (afterFindParam_watcher _ _) (answer_store _ _ _)
        (by simp only [setThread, answer_threads]; rfl)
    · cases stepped
  case h_2 update located =>
    cases stepped
    exact .searched id thread (update.afterIsConst (server.store.isConst update.name)).1 found
      (afterIsConst_watcher _ _) (answer_store _ _ _)
      (by simp only [setThread, answer_threads]; rfl)
  case h_3 update located =>
    split at stepped
    · rename_i free
      cases stepped
      exact .acquired id thread update rfl found located (Option.isNone_iff_eq_none.mp free) rfl rfl
    · cases stepped
  case h_4 => cases stepped

theorem runBody_change {server next : ParamServer Value} {action : Action Value}
    {thread : Thread Value} {holding : Holding Value}
    (moving : server.body action = some holding)
    (stepped : server.runBody thread holding = some next) : Change server action next := by
  unfold runBody at stepped
  split at stepped
  case h_1 stage =>
    obtain ⟨value, result, rfl⟩ := Option.map_eq_some_iff.mp stepped
    exact .assigned holding value moving stage result rfl rfl
  case h_2 stage =>
    cases stepped
    exact .counted holding moving stage rfl rfl
  case h_3 stage =>
    cases stepped
    exact .inserted holding moving stage rfl rfl
  case h_4 stage =>
    cases stepped
    exact .released holding thread moving stage rfl
      (by simp only [notifyAll, setThread, answer_threads])

theorem step_change {server next : ParamServer Value} {action : Action Value}
    (stepped : server.step action = some next) : Change server action next := by
  cases action with
  | start operation =>
      cases stepped
      exact .started operation rfl rfl
  | run id =>
      simp only [step] at stepped
      split at stepped
      · cases stepped
      · rename_i thread found
        split at stepped
        · rename_i holding moving
          exact runBody_change moving stepped
        · split at stepped
          · rename_i mtx moved watched
            cases stepped
            exact .watched id thread moved mtx found watched rfl rfl
          · exact search_change found stepped
  | cancelled id =>
      simp only [step] at stepped
      split at stepped
      · cases stepped
      · rename_i thread found
        split at stepped
        · rename_i watcher located
          split at stepped
          · cases stepped
            exact .cancelled id thread watcher found located rfl rfl
          · cases stepped
        · cases stepped
  | wake id =>
      simp only [step] at stepped
      split at stepped
      · cases stepped
      · rename_i thread found
        split at stepped
        · rename_i watcher located
          cases stepped
          exact .woken id thread watcher found located rfl rfl
        · cases stepped
  | setAbort =>
      cases stepped
      exact .aborted rfl rfl

/-! ## The store -/

end ParamServer

namespace Store

/-- The last recorded value is the stored one, and a name is counted only when declared. -/
structure Sound (store : Store Value) : Prop where
  recorded : ∀ name, (store.history name).getLast? = store.params name
  uncounted : ∀ name, store.params name = none → store.paramsVersion name = 0
  held : ∀ holding, store.paramsMtx = some holding → holding.stage ≠ .assign →
    store.params holding.update.name ≠ none

theorem Sound.acquire {store : Store Value} (sound : store.Sound) (id : Nat)
    (update : Update Value) : (store.acquire id update).Sound where
  recorded := sound.recorded
  uncounted := sound.uncounted
  held holding same started := by
    cases same
    exact absurd rfl started

theorem Sound.assign {store : Store Value} (sound : store.Sound) (holding : Holding Value)
    (value : Value) : (store.assign holding value).Sound where
  recorded name := by
    simp only [Store.assign, Function.update_apply]
    split
    · exact List.getLast?_concat
    · exact sound.recorded name
  uncounted name undeclared := by
    simp only [Store.assign, Function.update_apply] at undeclared
    split at undeclared
    · cases undeclared
    · exact sound.uncounted name undeclared
  held other same _ := by
    cases same
    simp only [Store.assign, Function.update_self]
    exact Option.some_ne_none value

theorem Sound.count {store : Store Value} (sound : store.Sound) {holding : Holding Value}
    (held : store.paramsMtx = some holding) (stage : holding.stage = .count) :
    (store.count holding).Sound where
  recorded := sound.recorded
  uncounted name undeclared := by
    have declared := sound.held holding held (by rw [stage]; exact Stage.noConfusion)
    simp only [Store.count, Function.update_apply]
    split
    · rename_i same
      exact absurd (same ▸ undeclared) declared
    · exact sound.uncounted name undeclared
  held other same _ := by
    cases same
    exact sound.held holding held (by rw [stage]; exact Stage.noConfusion)

theorem Sound.insertConst {store : Store Value} (sound : store.Sound) {holding : Holding Value}
    (held : store.paramsMtx = some holding) (stage : holding.stage = .insertConst) :
    (store.insertConst holding).Sound where
  recorded := sound.recorded
  uncounted := sound.uncounted
  held other same _ := by
    cases same
    exact sound.held holding held (by rw [stage]; exact Stage.noConfusion)

theorem Sound.release {store : Store Value} (sound : store.Sound) : store.release.Sound where
  recorded := sound.recorded
  uncounted := sound.uncounted
  held _ same _ := by cases same

end Store

namespace ParamServer

theorem initial_sound : (initial : ParamServer Value).store.Sound where
  recorded _ := rfl
  uncounted _ _ := rfl
  held _ same _ := by cases same

theorem sound_step {server next : ParamServer Value} {action : Action Value}
    (sound : server.store.Sound) (stepped : server.step action = some next) :
    next.store.Sound := by
  cases step_change stepped with
  | started _ same _ | cancelled _ _ _ _ _ same _ | woken _ _ _ _ _ same _ | aborted same _
  | watched _ _ _ _ _ _ same _ | searched _ _ _ _ _ same _ => exact same ▸ sound
  | acquired id _ update _ _ _ _ store _ => exact store ▸ sound.acquire id update
  | assigned holding value _ _ _ store _ => exact store ▸ sound.assign holding value
  | counted holding moving stage store _ =>
      exact store ▸ sound.count (body_eq_some moving).2 stage
  | inserted holding moving stage store _ =>
      exact store ▸ sound.insertConst (body_eq_some moving).2 stage
  | released holding _ moving _ store _ => exact store ▸ sound.release

/-! ## Properties of single threads -/

/-- The property holds of the store and every thread. -/
def AllThreads (good : Store Value → Thread Value → Prop) (server : ParamServer Value) : Prop :=
  ∀ thread ∈ server.threads, good server.store thread

/-- The body that moves on meets a condition on the store and every thread. -/
def Fitting (fits : Store Value → Holding Value → Thread Value → Prop)
    (server : ParamServer Value) (action : Action Value) : Prop :=
  ∀ holding ∈ server.body action, ∀ thread ∈ server.threads, fits server.store holding thread

instance (fits : Store Value → Holding Value → Thread Value → Prop)
    [∀ store holding thread, Decidable (fits store holding thread)]
    (server : ParamServer Value) (action : Action Value) : Decidable (Fitting fits server action) :=
  inferInstanceAs (Decidable (∀ holding ∈ server.body action, _))

/-- A property of watchers that survives every step, if the bodies fit. -/
structure Preserved (fits : Store Value → Holding Value → Thread Value → Prop)
    (good : Store Value → Thread Value → Prop) : Prop where
  outside : ∀ {store thread}, thread.pc.watcher = none → good store thread
  started : ∀ {store} remote name, good store
    { pc := .loop { remote := remote, name := name, version := 0 }, written := [], called := [] }
  cancelled : ∀ {store thread watcher}, good store thread → thread.pc = .loop watcher →
    good store { thread with pc := .left watcher }
  woken : ∀ {store thread watcher}, good store thread → thread.pc = .parked watcher →
    good store { thread with pc := .lock watcher }
  watched : ∀ {server : ParamServer Value} {id thread mtx moved}, server.store.Sound →
    good server.store thread → server.watch id thread = some (mtx, moved) → good server.store moved
  acquired : ∀ {store thread} id update, good store thread → store.paramsMtx = none →
    good (store.acquire id update) thread
  assigned : ∀ {store thread holding value}, good store thread → fits store holding thread →
    store.paramsMtx = some holding → holding.stage = .assign →
    holding.update.assigned (store.params holding.update.name) = some value →
    good (store.assign holding value) thread
  counted : ∀ {store thread holding}, good store thread → fits store holding thread →
    store.paramsMtx = some holding → holding.stage = .count → good (store.count holding) thread
  inserted : ∀ {store thread holding}, good store thread → fits store holding thread →
    store.paramsMtx = some holding → holding.stage = .insertConst →
    good (store.insertConst holding) thread
  released : ∀ {store thread holding}, good store thread → fits store holding thread →
    store.paramsMtx = some holding → holding.stage = .notify →
    good store.release thread.wake

theorem AllThreads.set {good : Store Value → Thread Value → Prop} {server next : ParamServer Value}
    {id : Nat} {thread : Thread Value} (valid : AllThreads good server)
    (same : next.store = server.store) (threads : next.threads = server.threads.set id thread)
    (moved : good server.store thread) : AllThreads good next := by
  intro other member
  rw [threads] at member
  rw [same]
  rcases List.mem_or_eq_of_mem_set member with before | here
  · exact valid other before
  · exact here ▸ moved

theorem Preserved.step {fits : Store Value → Holding Value → Thread Value → Prop}
    {good : Store Value → Thread Value → Prop} (preserved : Preserved fits good)
    {server next : ParamServer Value} {action : Action Value} (sound : server.store.Sound)
    (valid : AllThreads good server) (fitting : Fitting fits server action)
    (stepped : server.step action = some next) : AllThreads good next := by
  cases step_change stepped with
  | started operation same threads =>
      intro thread member
      rw [threads] at member
      rw [same]
      rcases List.mem_append.mp member with before | new
      · exact valid thread before
      · cases List.mem_singleton.mp new
        cases operation with
        | modify update => cases update <;> exact preserved.outside rfl
        | watch remote name => exact preserved.started remote name
  | cancelled id thread watcher found located same threads =>
      have member := List.mem_of_getElem? found
      exact valid.set same threads (preserved.cancelled (valid thread member) located)
  | woken id thread watcher found located same threads =>
      have member := List.mem_of_getElem? found
      exact valid.set same threads (preserved.woken (valid thread member) located)
  | aborted same threads =>
      intro thread member
      rw [same]
      exact valid thread (threads ▸ member)
  | watched id thread moved mtx found watched same threads =>
      have member := List.mem_of_getElem? found
      exact valid.set same threads (preserved.watched sound (valid thread member) watched)
  | searched id thread pc found outside same threads =>
      exact valid.set same threads (preserved.outside outside)
  | acquired id thread update acting found located free store threads =>
      intro other member
      rw [threads] at member
      rw [store]
      rcases List.mem_or_eq_of_mem_set member with before | here
      · exact preserved.acquired id update (valid other before) free
      · exact preserved.outside (here ▸ rfl)
  | assigned holding value moving stage result store threads =>
      intro thread member
      rw [threads] at member
      rw [store]
      exact preserved.assigned (valid thread member) (fitting holding moving thread member)
        (body_eq_some moving).2 stage result
  | counted holding moving stage store threads =>
      intro thread member
      rw [threads] at member
      rw [store]
      exact preserved.counted (valid thread member) (fitting holding moving thread member)
        (body_eq_some moving).2 stage
  | inserted holding moving stage store threads =>
      intro thread member
      rw [threads] at member
      rw [store]
      exact preserved.inserted (valid thread member) (fitting holding moving thread member)
        (body_eq_some moving).2 stage
  | released holding thread moving stage store threads =>
      intro other member
      rw [threads] at member
      rw [store]
      obtain ⟨sleeper, inside, rfl⟩ := List.mem_map.mp member
      rcases List.mem_or_eq_of_mem_set inside with before | here
      · exact preserved.released (valid sleeper before) (fitting holding moving sleeper before)
          (body_eq_some moving).2 stage
      · exact preserved.outside (here ▸ rfl)

theorem Preserved.along {fits : Store Value → Holding Value → Thread Value → Prop}
    {good : Store Value → Thread Value → Prop} (preserved : Preserved fits good)
    {run : List (Action Value)} (obeys : machine.Obeys (Fitting fits) initial run) :
    machine.Along (AllThreads good) initial run := by
  have start : AllThreads good initial := fun _ member => by cases member
  have both : machine.Along (fun server : ParamServer Value =>
      server.store.Sound ∧ AllThreads good server) initial run := by
    apply machine.along_of_obeys _ ⟨initial_sound, start⟩ obeys
    intro server action next valid fitting stepped
    exact ⟨sound_step valid.1 stepped, preserved.step valid.1 valid.2 fitting stepped⟩
  exact both.mono fun _ valid => valid.2

end ParamServer

end ProtoCore.Params
