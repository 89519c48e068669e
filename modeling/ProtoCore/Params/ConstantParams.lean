import ProtoCore.Params.ParamServer

/-!
# Constant parameters

`is_const` is asked before `params_mtx` is taken for the update, and a second
declaration is not kept out by the first. A constant is safe as long as no update
enters its body behind the declaration.
-/

set_option autoImplicit false

namespace ProtoCore.Params

open Library

variable {Value : Type}

/-- The update is a declaration that stores what is stored already. -/
def Update.Redeclares (update : Update Value) (stored : Option Value) : Prop :=
  match update with
  | .declare _ val _ => stored = some val
  | _ => False

instance [DecidableEq Value] (update : Update Value) (stored : Option Value) :
    Decidable (update.Redeclares stored) :=
  match update with
  | .declare _ val _ => inferInstanceAs (Decidable (stored = some val))
  | .set _ _ | .setRemoteParam _ _ => isFalse fun redeclares => redeclares

theorem Update.Redeclares.counted {update : Update Value} {stored : Option Value}
    (redeclares : update.Redeclares stored) (version : Int) : update.counted version = 1 := by
  cases update with
  | declare => rfl
  | set => cases redeclares
  | setRemoteParam => cases redeclares

theorem Update.Redeclares.assigned {update : Update Value} {stored : Option Value}
    (redeclares : update.Redeclares stored) (value : Value)
    (result : update.assigned stored = some value) : stored = some value := by
  cases update with
  | declare => exact Eq.trans redeclares result
  | set => cases redeclares
  | setRemoteParam => cases redeclares

theorem Update.redeclares_of_assigned {update : Update Value} (constant : update.isConst = true)
    {stored : Option Value} {value : Value} (result : update.assigned stored = some value) :
    update.Redeclares (some value) := by
  cases update with
  | declare => exact result.symm
  | set => cases constant
  | setRemoteParam => cases constant

namespace Store

/-- Constants are declared and counted once, and the body that is running, if it is about
one of them, stores the value it has. -/
structure Frozen (store : Store Value) : Prop where
  declared : ∀ name ∈ store.isConstParams, store.params name ≠ none
  counted : ∀ name ∈ store.isConstParams, store.paramsVersion name = 1
  redeclared : ∀ holding, store.paramsMtx = some holding →
    (holding.update.name ∈ store.isConstParams ∨
      holding.update.isConst = true ∧ holding.stage ≠ .assign) →
    holding.update.Redeclares (store.params holding.update.name)
  inserting : ∀ holding, store.paramsMtx = some holding → holding.stage = .insertConst →
    store.paramsVersion holding.update.name = 1 ∧ holding.update.isConst = true

/-- What is constant stays so, with its value and its version. -/
def Kept (before after : Store Value) : Prop :=
  ∀ name ∈ before.isConstParams, name ∈ after.isConstParams ∧
    after.params name = before.params name ∧ after.paramsVersion name = before.paramsVersion name

theorem Kept.refl (store : Store Value) : store.Kept store := fun _ member => ⟨member, rfl, rfl⟩

theorem Kept.trans {first second third : Store Value} (left : first.Kept second)
    (right : second.Kept third) : first.Kept third := by
  intro name member
  obtain ⟨still, value, version⟩ := left name member
  obtain ⟨finally', value', version'⟩ := right name still
  exact ⟨finally', value'.trans value, version'.trans version⟩

theorem Frozen.acquire {store : Store Value} (frozen : store.Frozen) (id : Nat)
    {update : Update Value} (untouched : update.name ∈ store.isConstParams →
      update.Redeclares (store.params update.name)) : (store.acquire id update).Frozen where
  declared := frozen.declared
  counted := frozen.counted
  redeclared holding same about := by
    cases same
    rcases about with constant | ⟨_, started⟩
    · exact untouched constant
    · exact absurd rfl started
  inserting holding same stage := by
    cases same
    cases stage

theorem Frozen.assign {store : Store Value} (frozen : store.Frozen) {holding : Holding Value}
    (held : store.paramsMtx = some holding) {value : Value}
    (result : holding.update.assigned (store.params holding.update.name) = some value) :
    (store.assign holding value).Frozen ∧ store.Kept (store.assign holding value) := by
  have same : ∀ name ∈ store.isConstParams,
      (store.assign holding value).params name = store.params name := by
    intro name member
    simp only [Store.assign, Function.update_apply]
    split
    · rename_i here
      rw [here] at member ⊢
      exact ((frozen.redeclared holding held (.inl member)).assigned value result).symm
    · rfl
  refine ⟨⟨fun name member => ?_, frozen.counted, ?_, ?_⟩, fun name member =>
    ⟨member, same name member, rfl⟩⟩
  · rw [same name member]
    exact frozen.declared name member
  · intro other now about
    cases now
    simp only [Store.assign, Function.update_self]
    rcases about with constant | ⟨constant, _⟩
    · have before := frozen.redeclared holding held (.inl constant)
      exact before.assigned value result ▸ before
    · exact Update.redeclares_of_assigned constant result
  · intro other now stage
    cases now
    cases stage

theorem Frozen.count {store : Store Value} (frozen : store.Frozen) {holding : Holding Value}
    (held : store.paramsMtx = some holding) (stage : holding.stage = .count) :
    (store.count holding).Frozen ∧ store.Kept (store.count holding) := by
  have started : holding.stage ≠ .assign := by
    rw [stage]
    exact Stage.noConfusion
  have same : ∀ name ∈ store.isConstParams,
      (store.count holding).paramsVersion name = store.paramsVersion name := by
    intro name member
    simp only [Store.count, Function.update_apply]
    split
    · rename_i here
      rw [here] at member
      rw [(frozen.redeclared holding held (.inl member)).counted, here, frozen.counted _ member]
    · rfl
  refine ⟨⟨frozen.declared, fun name member => ?_, ?_, ?_⟩, fun name member =>
    ⟨member, rfl, same name member⟩⟩
  · rw [same name member]
    exact frozen.counted name member
  · intro other now about
    cases now
    rcases about with constant | ⟨constant, _⟩
    · exact frozen.redeclared holding held (.inl constant)
    · exact frozen.redeclared holding held (.inr ⟨constant, started⟩)
  · intro other now inserting
    cases now
    have constant : holding.update.isConst = true := by
      by_contra plain
      rw [if_neg plain] at inserting
      cases inserting
    have redeclares := frozen.redeclared holding held (.inr ⟨constant, started⟩)
    refine ⟨?_, constant⟩
    simp only [Store.count, Function.update_self]
    exact redeclares.counted _

theorem Frozen.insertConst {store : Store Value} (frozen : store.Frozen) (sound : store.Sound)
    {holding : Holding Value} (held : store.paramsMtx = some holding)
    (stage : holding.stage = .insertConst) :
    (store.insertConst holding).Frozen ∧ store.Kept (store.insertConst holding) := by
  have started : holding.stage ≠ .assign := by
    rw [stage]
    exact Stage.noConfusion
  obtain ⟨version, constant⟩ := frozen.inserting holding held stage
  refine ⟨⟨?_, ?_, ?_, ?_⟩, fun name member => ⟨Finset.mem_insert_of_mem member, rfl, rfl⟩⟩
  · intro name member
    rcases Finset.mem_insert.mp member with here | before
    · exact here ▸ sound.held holding held started
    · exact frozen.declared name before
  · intro name member
    rcases Finset.mem_insert.mp member with here | before
    · exact here ▸ version
    · exact frozen.counted name before
  · intro other now _
    cases now
    exact frozen.redeclared holding held (.inr ⟨constant, started⟩)
  · intro other now stage
    cases now
    cases stage

theorem Frozen.release {store : Store Value} (frozen : store.Frozen) : store.release.Frozen where
  declared := frozen.declared
  counted := frozen.counted
  redeclared _ same _ := by cases same
  inserting _ same _ := by cases same

end Store

namespace ParamServer

/-- The update whose body an action enters. -/
def entering (server : ParamServer Value) : Action Value → Option (Update Value)
  | .run id =>
      match server.threads[id]?.map Thread.pc with
      | some (.body update) => some update
      | _ => none
  | _ => none

/-- The body entered is not about a constant, or declares it with the value it has. -/
def Untouched (server : ParamServer Value) (action : Action Value) : Prop :=
  ∀ update ∈ server.entering action, update.name ∈ server.store.isConstParams →
    update.Redeclares (server.store.params update.name)

instance [DecidableEq Value] (server : ParamServer Value) (action : Action Value) :
    Decidable (Untouched server action) :=
  inferInstanceAs (Decidable (∀ update ∈ server.entering action, _))

theorem frozen_step {server next : ParamServer Value} {action : Action Value}
    (sound : server.store.Sound) (frozen : server.store.Frozen)
    (untouched : Untouched server action) (stepped : server.step action = some next) :
    next.store.Frozen ∧ server.store.Kept next.store := by
  cases step_change stepped with
  | started _ same _ | cancelled _ _ _ _ _ same _ | woken _ _ _ _ _ same _ | aborted same _
  | watched _ _ _ _ _ _ same _ | searched _ _ _ _ _ same _ =>
      rw [same]
      exact ⟨frozen, Store.Kept.refl _⟩
  | acquired id thread update acting found located free store _ =>
      rw [store]
      have entered : update ∈ server.entering action := by
        rw [acting]
        simp only [entering, found, Option.map_some, located, Option.mem_def]
      exact ⟨frozen.acquire id (untouched update entered), Store.Kept.refl _⟩
  | assigned holding value moving _ result store _ =>
      rw [store]
      exact frozen.assign (body_eq_some moving).2 result
  | counted holding moving stage store _ =>
      rw [store]
      exact frozen.count (body_eq_some moving).2 stage
  | inserted holding moving stage store _ =>
      rw [store]
      exact frozen.insertConst sound (body_eq_some moving).2 stage
  | released holding _ moving _ store _ =>
      rw [store]
      exact ⟨frozen.release, Store.Kept.refl _⟩

/-- What a call of `setRemoteParam` answers, and on what ground. -/
def Ground (server : ParamServer Value) (action : Action Value) (name : String) :
    ParameterStatus → Prop
  | .normal => ∃ holding payload, server.body action = some holding ∧
      holding.update = .setRemoteParam name payload
  | .tmepNotAvaliable => server.store.params name = none
  | .notChangeable => True

theorem answer_answers (server : ParamServer Value) (name : String)
    (status : Option ParameterStatus) {answer : Answer}
    (member : answer ∈ (server.answer name status).answers) :
    answer ∈ server.answers ∨ status = some answer.status ∧ answer.name = name ∧
      answer.constant = server.store.isConst name := by
  cases status with
  | none => exact .inl member
  | some status =>
      rcases List.mem_append.mp member with before | here
      · exact .inl before
      · cases List.mem_singleton.mp here
        exact .inr ⟨rfl, rfl, rfl⟩

theorem search_answers {server next : ParamServer Value} {action : Action Value} {id : Nat}
    {thread : Thread Value} (stepped : server.search id thread = some next) {answer : Answer}
    (member : answer ∈ next.answers) :
    answer ∈ server.answers ∨ answer.constant = server.store.isConst answer.name ∧
      Ground server action answer.name answer.status := by
  unfold search at stepped
  split at stepped
  case h_1 update located =>
    split at stepped
    · cases stepped
      rcases answer_answers server _ _ member with before | ⟨status, named, constant⟩
      · exact .inl before
      · refine .inr ⟨named ▸ constant, ?_⟩
        cases found : server.store.findParam update.name with
        | true => cases update <;> rw [found] at status <;> cases status
        | false =>
            cases update with
            | declare | set =>
                rw [found] at status
                cases status
            | setRemoteParam =>
                rw [found] at status
                rw [← Option.some.inj status, named]
                exact Option.isNone_iff_eq_none.mp (Option.isSome_eq_false_iff.mp found)
    · cases stepped
  case h_2 update located =>
    cases stepped
    rcases answer_answers server _ _ member with before | ⟨status, named, constant⟩
    · exact .inl before
    · refine .inr ⟨named ▸ constant, ?_⟩
      cases update <;> cases known : server.store.isConst _ <;> rw [known] at status <;>
        first | cases status | (rw [← Option.some.inj status]; trivial)
  case h_3 =>
    split at stepped
    · cases stepped
      exact .inl member
    · cases stepped
  case h_4 => cases stepped

theorem runBody_answers {server next : ParamServer Value} {action : Action Value}
    {thread : Thread Value} {holding : Holding Value}
    (moving : server.body action = some holding)
    (stepped : server.runBody thread holding = some next) {answer : Answer}
    (member : answer ∈ next.answers) :
    answer ∈ server.answers ∨ answer.constant = server.store.isConst answer.name ∧
      Ground server action answer.name answer.status := by
  unfold runBody at stepped
  split at stepped
  case h_1 =>
    obtain ⟨value, _, rfl⟩ := Option.map_eq_some_iff.mp stepped
    exact .inl member
  case h_2 | h_3 =>
    cases stepped
    exact .inl member
  case h_4 =>
    cases stepped
    rcases answer_answers server _ _ member with before | ⟨status, named, constant⟩
    · exact .inl before
    · refine .inr ⟨named ▸ constant, ?_⟩
      cases update : holding.update with
      | declare | set =>
          rw [update] at status
          cases status
      | setRemoteParam name payload =>
          rw [update] at status named
          rw [← Option.some.inj status, named]
          exact ⟨holding, payload, moving, update⟩

theorem step_answers {server next : ParamServer Value} {action : Action Value}
    (stepped : server.step action = some next) {answer : Answer}
    (member : answer ∈ next.answers) :
    answer ∈ server.answers ∨ answer.constant = server.store.isConst answer.name ∧
      Ground server action answer.name answer.status := by
  cases action with
  | start operation =>
      cases stepped
      exact .inl member
  | run id =>
      simp only [step] at stepped
      split at stepped
      · cases stepped
      · split at stepped
        · rename_i holding moving
          exact runBody_answers moving stepped member
        · split at stepped
          · cases stepped
            exact .inl member
          · exact search_answers stepped member
  | cancelled id =>
      simp only [step] at stepped
      split at stepped
      · cases stepped
      · split at stepped
        · split at stepped
          · cases stepped
            exact .inl member
          · cases stepped
        · cases stepped
  | wake id =>
      simp only [step] at stepped
      split at stepped
      · cases stepped
      · split at stepped
        · cases stepped
          exact .inl member
        · cases stepped
  | setAbort =>
      cases stepped
      exact .inl member

/-- `setRemoteParam` has answered `NOT_CHANGEABLE` wherever it could see a constant. -/
def Refused (server : ParamServer Value) : Prop :=
  ∀ answer ∈ server.answers, answer.constant = true → answer.status = .notChangeable

theorem refused_step {server next : ParamServer Value} {action : Action Value}
    (frozen : server.store.Frozen) (refused : Refused server)
    (stepped : server.step action = some next) : Refused next := by
  intro answer member constant
  rcases step_answers stepped member with before | ⟨known, ground⟩
  · exact refused answer before constant
  · have inside : answer.name ∈ server.store.isConstParams := by
      rw [known] at constant
      exact of_decide_eq_true constant
    cases status : answer.status with
    | normal =>
        rw [status] at ground
        obtain ⟨holding, payload, moving, update⟩ := ground
        have redeclares := frozen.redeclared holding (body_eq_some moving).2
          (.inl (by rw [update]; exact inside))
        rw [update] at redeclares
        cases redeclares
    | tmepNotAvaliable =>
        rw [status] at ground
        exact absurd ground (frozen.declared _ inside)
    | notChangeable => rfl

/-- Every constant keeps its value and its version from the state in which it is one. -/
def ConstantsKept (run : List (Action Value)) : Prop :=
  ∀ first second middle, run = first ++ second → machine.exec initial first = some middle →
    machine.Along (fun later => middle.store.Kept later.store) middle second

structure Secure (server : ParamServer Value) : Prop where
  sound : server.store.Sound
  frozen : server.store.Frozen
  refused : Refused server

theorem initial_secure : Secure (initial : ParamServer Value) where
  sound := initial_sound
  frozen := {
    declared := fun _ member => by cases member
    counted := fun _ member => by cases member
    redeclared := fun _ same _ => by cases same
    inserting := fun _ same _ => by cases same }
  refused _ member := by cases member

theorem Secure.step {server next : ParamServer Value} {action : Action Value}
    (secure : Secure server) (untouched : Untouched server action)
    (stepped : server.step action = some next) : Secure next where
  sound := sound_step secure.sound stepped
  frozen := (frozen_step secure.sound secure.frozen untouched stepped).1
  refused := refused_step secure.frozen secure.refused stepped

theorem Secure.kept {server : ParamServer Value} (secure : Secure server)
    {run : List (Action Value)} (untouched : machine.Obeys Untouched server run) :
    machine.Along (fun later => server.store.Kept later.store) server run := by
  have both : machine.Along (fun later => Secure later ∧ server.store.Kept later.store)
      server run := by
    apply machine.along_of_obeys _ ⟨secure, Store.Kept.refl _⟩ untouched
    intro state action next valid permitted stepped
    have kept := (frozen_step valid.1.sound valid.1.frozen permitted stepped).2
    exact ⟨valid.1.step permitted stepped, valid.2.trans kept⟩
  exact both.mono fun _ valid => valid.2

/-- Constants never change, and calls of `setRemoteParam` on them are refused, in any run
in which no update enters its body for a name that has become constant meanwhile. -/
theorem constantsKept_of_untouched (run : List (Action Value))
    (untouched : machine.Obeys Untouched initial run) :
    ConstantsKept run ∧ machine.Along Refused initial run := by
  have secure : ∀ {part : List (Action Value)}, machine.Obeys Untouched initial part →
      machine.Along Secure initial part := fun obeys =>
    machine.along_of_obeys (fun _ _ _ valid permitted stepped => valid.step permitted stepped)
      initial_secure obeys
  constructor
  · intro first second middle split reached
    rw [split] at untouched
    exact ((secure untouched.left).final reached).kept (untouched.right reached)
  · exact (secure untouched).mono fun _ valid => valid.refused

/-- A constant is declared, then set and set from outside. -/
def setAfterDeclare : List (Action Nat) :=
  .start (.modify (.declare "gain" 5 true)) :: List.replicate 6 (Action.run 0) ++
    [.start (.modify (.set "gain" 7)), .run 1, .run 1,
      .start (.modify (.setRemoteParam "gain" (some 9))), .run 2]

theorem constantsKept_of_untouched_setAfterDeclare :
    ConstantsKept setAfterDeclare ∧ machine.Along Refused initial setAfterDeclare :=
  constantsKept_of_untouched setAfterDeclare (by decide +kernel)

/-- A call of `setRemoteParam` has asked `is_const` before a constant is declared. -/
def beforeDeclare : List (Action Nat) :=
  .start (.modify (.setRemoteParam "gain" (some 7))) :: .run 0 ::
    .start (.modify (.declare "gain" 5 true)) :: List.replicate 6 (Action.run 1)

/-- The rest of the call finds the parameter and changes it. -/
def setDeclared : List (Action Nat) := List.replicate 5 (Action.run 0)

theorem setDeclared_not_kept :
    ¬ ConstantsKept (beforeDeclare ++ setDeclared) ∧
      ¬ machine.Along Refused initial (beforeDeclare ++ setDeclared) := by
  constructor
  · intro kept
    have evaluated : (machine.exec initial beforeDeclare).map (fun server =>
        (server.store.isConst "gain", server.store.params "gain",
          (machine.exec server setDeclared).map fun final => final.store.params "gain")) =
        some (true, some 5, some (some 7)) := by
      decide +kernel
    obtain ⟨middle, reached, same⟩ := Option.map_eq_some_iff.mp evaluated
    simp only [Prod.mk.injEq, Option.map_eq_some_iff] at same
    obtain ⟨constant, before, final, executed, after⟩ := same
    have stays := (kept _ _ middle rfl reached).final executed "gain" (of_decide_eq_true constant)
    rw [stays.2.1, before] at after
    exact absurd after (by decide)
  · intro along
    have evaluated : (machine.exec initial (beforeDeclare ++ setDeclared)).map (·.answers) =
        some [⟨"gain", .normal, true⟩] := by
      decide +kernel
    obtain ⟨final, executed, answers⟩ := Option.map_eq_some_iff.mp evaluated
    have refused := along.final executed
    rw [Refused, answers] at refused
    have status := refused _ List.mem_cons_self rfl
    cases status

end ParamServer

end ProtoCore.Params
