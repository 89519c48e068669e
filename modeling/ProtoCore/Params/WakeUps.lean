import ProtoCore.Params.ParamServer

/-!
# Wake-ups of parked watchers

The wait predicate is evaluated under `mtx`, which the updates never take. So a
`notify_all` can come between an evaluation and the parking that follows it, where it
reaches nobody.
-/

set_option autoImplicit false

namespace ProtoCore.Params

open Library

variable {Value : Type}

namespace Pc

/-- The watcher that has found its predicate false and does not yet wait. -/
def parking : Pc Value → Option Watcher
  | .park watcher => some watcher
  | _ => none

/-- The watcher whose next evaluation needs a notification. -/
def waiting : Pc Value → Option Watcher
  | .park watcher | .parked watcher => some watcher
  | _ => none

end Pc

/-- An update stands between its write of the version and its `notify_all`. -/
def Store.Notifying (store : Store Value) : Prop :=
  ∃ holding, store.paramsMtx = some holding ∧
    (holding.stage = .insertConst ∨ holding.stage = .notify)

/-- The notification does not come while the watcher is about to park although the version
has moved on. -/
def InTime (store : Store Value) (holding : Holding Value) (thread : Thread Value) : Prop :=
  holding.stage = .notify → ∀ watcher ∈ thread.pc.parking,
    store.paramsVersion watcher.name = watcher.version

instance (store : Store Value) (holding : Holding Value) (thread : Thread Value) :
    Decidable (InTime store holding thread) :=
  inferInstanceAs (Decidable (_ → ∀ watcher ∈ thread.pc.parking, _))

structure Awaited (store : Store Value) (thread : Thread Value) : Prop where
  unloaded : ∀ watcher, thread.pc.watcher = some watcher → store.params watcher.name = none →
    watcher.version = 0
  notified : ∀ watcher, thread.pc.waiting = some watcher →
    store.paramsVersion watcher.name ≠ watcher.version → store.Notifying

theorem Awaited.active {store : Store Value} {thread : Thread Value}
    (unloaded : ∀ watcher, thread.pc.watcher = some watcher → store.params watcher.name = none →
      watcher.version = 0)
    (active : thread.pc.waiting = none) : Awaited store thread where
  unloaded := unloaded
  notified watcher located := by
    rw [active] at located
    cases located

theorem Awaited.outside {store : Store Value} {thread : Thread Value}
    (outside : thread.pc.watcher = none) : Awaited store thread := by
  apply Awaited.active
  · intro watcher located
    rw [outside] at located
    cases located
  · cases pc : thread.pc <;> rw [pc] at outside <;> first | rfl | cases outside

/-- A predicate found false means that the version has not moved. -/
theorem Awaited.unchanged {server : ParamServer Value} {thread : Thread Value}
    (sound : server.store.Sound) (awaited : Awaited server.store thread) {watcher : Watcher}
    (located : thread.pc.watcher = some watcher)
    (refused : server.waitPredicate watcher = false) :
    server.store.paramsVersion watcher.name = watcher.version := by
  simp only [ParamServer.waitPredicate, Bool.or_eq_false_iff, Bool.and_eq_false_iff,
    bne_eq_false_iff_eq] at refused
  rcases refused.1 with undeclared | same
  · have missing : server.store.params watcher.name = none := by
      simpa only [Store.findParam, Option.isSome_eq_false_iff, Option.isNone_iff_eq_none]
        using undeclared
    rw [sound.uncounted _ missing, awaited.unloaded watcher located missing]
  · exact same.symm

theorem Awaited.watched {server : ParamServer Value} {id : Nat} {thread moved : Thread Value}
    {mtx : Option Nat} (sound : server.store.Sound) (awaited : Awaited server.store thread)
    (stepped : server.watch id thread = some (mtx, moved)) : Awaited server.store moved := by
  obtain ⟨pc, written, called⟩ := thread
  have unloaded := awaited.unloaded
  cases pc with
  | loop watcher =>
      cases stepped
      cases server.ok <;> exact Awaited.active unloaded rfl
  | find watcher =>
      simp only [ParamServer.watch] at stepped
      split at stepped
      · cases stepped
        cases server.store.findParam watcher.name <;> cases watcher.remote <;>
          exact Awaited.active unloaded rfl
      · cases stepped
  | getRead watcher | remoteCopy watcher =>
      simp only [ParamServer.watch] at stepped
      split at stepped
      · obtain ⟨param, _, same⟩ := Option.map_eq_some_iff.mp stepped
        cases same
        exact Awaited.active unloaded rfl
      · cases stepped
  | getLoad watcher param | remoteLoad watcher =>
      cases stepped
      apply Awaited.active _ rfl
      intro _ same undeclared
      cases same
      exact sound.uncounted _ undeclared
  | getCall watcher param | remoteWrite watcher reply =>
      cases stepped
      exact Awaited.active unloaded rfl
  | lock watcher =>
      simp only [ParamServer.watch] at stepped
      split at stepped
      · cases stepped
        exact Awaited.active unloaded rfl
      · cases stepped
  | evaluate watcher =>
      simp only [ParamServer.watch] at stepped
      split at stepped
      · split at stepped
        · cases stepped
          exact Awaited.active unloaded rfl
        · rename_i refused
          cases stepped
          refine ⟨unloaded, fun _ same moved => ?_⟩
          cases same
          exact absurd (awaited.unchanged sound rfl (Bool.eq_false_iff.mpr refused)) moved
      · cases stepped
  | park watcher =>
      cases stepped
      exact ⟨unloaded, awaited.notified⟩
  | _ => cases stepped

theorem Awaited.quiet {store : Store Value} {thread : Thread Value}
    (awaited : Awaited store thread) (silent : ¬ store.Notifying) {watcher : Watcher}
    (located : thread.pc.waiting = some watcher) :
    store.paramsVersion watcher.name = watcher.version := by
  by_contra moved
  exact silent (awaited.notified watcher located moved)

theorem awaited_preserved : ParamServer.Preserved (@InTime Value) Awaited where
  outside := Awaited.outside
  started remote name := Awaited.active (fun _ same _ => by cases same; rfl) rfl
  cancelled := by
    intro store thread watcher awaited located
    obtain ⟨pc, written, called⟩ := thread
    cases located
    exact Awaited.active awaited.unloaded rfl
  woken := by
    intro store thread watcher awaited located
    obtain ⟨pc, written, called⟩ := thread
    cases located
    exact Awaited.active awaited.unloaded rfl
  watched sound awaited stepped := awaited.watched sound stepped
  acquired := by
    intro store thread id update awaited free
    have silent : ¬ store.Notifying := by
      intro ⟨holding, held, _⟩
      cases free.symm.trans held
    exact ⟨awaited.unloaded, fun watcher located moved =>
      absurd (awaited.quiet silent located) moved⟩
  assigned := by
    intro store thread holding value awaited _ held stage _
    have silent : ¬ store.Notifying := by
      intro ⟨holder, same, late⟩
      cases held.symm.trans same
      rw [stage] at late
      rcases late with late | late <;> cases late
    refine ⟨fun watcher located undeclared => ?_, fun watcher located moved =>
      absurd (awaited.quiet silent located) moved⟩
    simp only [Store.assign, Function.update_apply] at undeclared
    split at undeclared
    · cases undeclared
    · exact awaited.unloaded watcher located undeclared
  counted := by
    intro store thread holding awaited _ _ _
    refine ⟨awaited.unloaded, fun _ _ _ => ⟨_, rfl, ?_⟩⟩
    cases holding.update.isConst
    · exact .inr rfl
    · exact .inl rfl
  inserted awaited _ _ _ := ⟨awaited.unloaded, fun _ _ _ => ⟨_, rfl, .inr rfl⟩⟩
  released := by
    intro store thread holding awaited inTime _ stage
    obtain ⟨pc, written, called⟩ := thread
    cases pc with
    | park watcher =>
        refine ⟨awaited.unloaded, fun _ same moved => ?_⟩
        cases same
        exact absurd (inTime stage watcher rfl) moved
    | _ => exact Awaited.active awaited.unloaded rfl

namespace ParamServer

/-- A parked watcher whose version is no longer the stored one is still to be notified. -/
def NoLostWakeUp (server : ParamServer Value) : Prop :=
  ∀ thread ∈ server.threads, ∀ watcher, thread.pc = .parked watcher →
    server.store.paramsVersion watcher.name ≠ watcher.version → server.store.Notifying

theorem noLostWakeUp_of_inTime (run : List (Action Value))
    (inTime : machine.Obeys (Fitting InTime) initial run) :
    machine.Along NoLostWakeUp initial run := by
  apply (awaited_preserved.along inTime).mono
  intro server valid thread member watcher located moved
  exact (valid thread member).notified watcher (by rw [located]; rfl) moved

/-- A handler and a callback thread wait when the parameter is set. -/
def setWhileParked : List (Action Nat) :=
  .start (.modify (.declare "gain" 5 false)) :: List.replicate 5 (Action.run 0) ++
    .start (.watch true "gain") :: List.replicate 8 (Action.run 1) ++
    .start (.watch false "gain") :: List.replicate 8 (Action.run 2) ++
    .start (.modify (.set "gain" 7)) :: List.replicate 6 (Action.run 3)

theorem noLostWakeUp_of_inTime_setWhileParked :
    machine.Along NoLostWakeUp initial setWhileParked :=
  noLostWakeUp_of_inTime setWhileParked (by decide +kernel)

/-- The parameter is set, and its watchers are notified, after a handler has found the
predicate false and before it is parked. -/
def setBeforePark : List (Action Nat) :=
  .start (.modify (.declare "gain" 5 false)) :: List.replicate 5 (Action.run 0) ++
    .start (.watch true "gain") :: List.replicate 7 (Action.run 1) ++
    .start (.modify (.set "gain" 7)) :: List.replicate 6 (Action.run 2) ++ [.run 1]

theorem setBeforePark_lost : ¬ machine.Along NoLostWakeUp initial setBeforePark := by
  intro along
  have evaluated : (machine.exec initial setBeforePark).map (fun server =>
      (server.threads[1]?.map Thread.pc, server.store.paramsMtx,
        server.store.paramsVersion "gain")) =
      some (some (.parked ⟨true, "gain", 1⟩), none, 2) := by
    decide +kernel
  obtain ⟨final, executed, same⟩ := Option.map_eq_some_iff.mp evaluated
  simp only [Prod.mk.injEq, Option.map_eq_some_iff] at same
  obtain ⟨⟨thread, found, located⟩, free, version⟩ := same
  obtain ⟨holding, held, _⟩ := along.final executed thread (List.mem_of_getElem? found) _ located
    (by rw [version]; decide)
  cases free.symm.trans held

end ParamServer

end ProtoCore.Params
