import ProtoCore.Params.TypedParams

/-!
# Parameters at their declared types

`set` and `get` cast the stored pointer to the type that their caller names, without a test.
A parameter keeps the type of its declaration, so the casts are right as long as every caller
names this type.
-/

set_option autoImplicit false

namespace ProtoCore.Params

open Library

variable {Kind : Type} {Message : Kind → Type}

/-- A cast of the parameter of a name, to read it or to write it. -/
structure Access (Kind : Type) where
  name : String
  used : Kind
  deriving DecidableEq, Repr

/-- The calls of a node on its own parameters. `get` with a callback starts a thread, which
reads again and again. -/
inductive LocalCall (Message : Kind → Type) where
  | declare (kind : Kind) (name : String) (val : Message kind) (isConst : Bool)
  | set (kind : Kind) (name : String) (val : Message kind)
  | get (kind : Kind) (name : String)
  | getDynamic (kind : Kind) (name : String)
  | read (thread : Nat)

/-- How a call ends, with what it has read. A cast to another type has no defined result. -/
inductive Result (Message : Kind → Type) where
  | refused
  | done (read : Option (Parameter Message))
  | undefined

/-- A server with the threads of its callbacks and all casts so far. -/
structure LocalParams (Message : Kind → Type) where
  server : TypedServer Message
  threads : List (Kind × String)
  accesses : List (Access Kind)
  undefined : Bool

namespace LocalParams

def initial : LocalParams Message where
  server := .initial
  threads := []
  accesses := []
  undefined := false

/-- The type and the name that a call uses. -/
def target (state : LocalParams Message) : LocalCall Message → Option (Kind × String)
  | .declare .. => none
  | .set kind name _ | .get kind name | .getDynamic kind name => some (kind, name)
  | .read thread => state.threads[thread]?

/-- Every cast was to the type that the parameter was created with. -/
def OnlyAsDeclared (state : LocalParams Message) : Prop :=
  ∀ access ∈ state.accesses, ∃ parameter, state.server.params access.name = some parameter ∧
    parameter.kind = access.used

def Mismatched (state : LocalParams Message) (call : LocalCall Message) : Prop :=
  ∃ kind name parameter, state.target call = some (kind, name) ∧
    state.server.params name = some parameter ∧ parameter.kind ≠ kind

/-- A write at the type of the parameter, or to a new name, keeps all types. -/
theorem OnlyAsDeclared.write {state : LocalParams Message} (valid : state.OnlyAsDeclared)
    {kind : Kind} {name : String}
    (fits : ∀ parameter, state.server.params name = some parameter → parameter.kind = kind)
    (val : Message kind) (version : Int) :
    ({ state with server := state.server.write name ⟨kind, val⟩ version } :
      LocalParams Message).OnlyAsDeclared := by
  intro access member
  obtain ⟨parameter, declared, used⟩ := valid access member
  simp only [TypedServer.write, Function.update_apply]
  split
  · rename_i same
    exact ⟨_, rfl, (fits parameter (same ▸ declared)).symm.trans used⟩
  · exact ⟨parameter, declared, used⟩

/-- A cast to the right type is one more of them. -/
theorem OnlyAsDeclared.cast {state : LocalParams Message} (valid : state.OnlyAsDeclared)
    {kind : Kind} {name : String} {parameter : Parameter Message}
    (declared : state.server.params name = some parameter) (same : parameter.kind = kind) :
    ({ state with accesses := state.accesses ++ [⟨name, kind⟩] } :
      LocalParams Message).OnlyAsDeclared := by
  intro access member
  rcases List.mem_append.mp member with before | here
  · exact valid access before
  · rw [List.mem_singleton.mp here]
    exact ⟨parameter, declared, same⟩

theorem OnlyAsDeclared.declare {state : LocalParams Message} (valid : state.OnlyAsDeclared)
    {kind : Kind} {name : String} (val : Message kind) (isConst : Bool)
    (undeclared : state.server.params name = none) :
    ({ state with server := state.server.declare kind name val isConst } :
      LocalParams Message).OnlyAsDeclared := by
  have fits : ∀ parameter, state.server.params name = some parameter → parameter.kind = kind := by
    intro parameter declared
    rw [undeclared] at declared
    cases declared
  have written := valid.write fits val 1
  unfold TypedServer.declare TypedServer.findParam
  rw [undeclared]
  cases isConst with
  | false => exact written
  | true => exact written

section Calls

variable [DecidableEq Kind]

/-- `static_cast` to the parameter type of a kind, and what is done through the pointer. -/
def cast (state : LocalParams Message) (kind : Kind) (name : String)
    (parameter : Parameter Message) (result : Result Message) (server : TypedServer Message) :
    Result Message × LocalParams Message :=
  let accesses := state.accesses ++ [(⟨name, kind⟩ : Access Kind)]
  if parameter.kind = kind then (result, { state with server, accesses })
  else (.undefined, { state with undefined := true, accesses })

def get (state : LocalParams Message) (kind : Kind) (name : String) :
    Result Message × LocalParams Message :=
  match state.server.params name with
  | none => (.refused, state)
  | some parameter => state.cast kind name parameter (.done (some parameter)) state.server

def perform (state : LocalParams Message) :
    LocalCall Message → Result Message × LocalParams Message
  | .declare kind name val isConst =>
      if state.server.findParam name then (.refused, state)
      else (.done none, { state with server := state.server.declare kind name val isConst })
  | .set kind name val =>
      match state.server.params name with
      | none => (.refused, state)
      | some parameter =>
          if state.server.isConst name then (.refused, state)
          else state.cast kind name parameter (.done none)
            (state.server.write name ⟨kind, val⟩ (state.server.nextVersion name))
  | .get kind name => state.get kind name
  | .getDynamic kind name => (.done none, { state with threads := state.threads ++ [(kind, name)] })
  | .read thread =>
      match state.threads[thread]? with
      | none => (.refused, state)
      | some (kind, name) => state.get kind name

/-- Nothing is known of what follows an undefined result. -/
def machine : Machine (LocalParams Message) (LocalCall Message) where
  step state call := if state.undefined then none else some (state.perform call).2

/-- A `set` or `get` at another type fails and changes no value and no version. -/
def Refuses (state : LocalParams Message) (call : LocalCall Message) : Prop :=
  state.Mismatched call →
    (state.perform call).1 = .refused ∧ (state.perform call).2.server = state.server

/-- The call does not use a declared parameter at another type, except to set a constant. -/
def AtDeclaredType (state : LocalParams Message) (call : LocalCall Message) : Prop :=
  state.Mismatched call → ∃ kind name val, call = .set kind name val ∧
    state.server.isConst name = true

theorem cast_mismatched {state : LocalParams Message} {kind : Kind} {name : String}
    {parameter : Parameter Message} (different : parameter.kind ≠ kind) (result : Result Message)
    (server : TypedServer Message) :
    (state.cast kind name parameter result server).1 = .undefined := by
  rw [cast, if_neg different]

theorem get_mismatched {state : LocalParams Message} {kind : Kind} {name : String}
    {parameter : Parameter Message} (declared : state.server.params name = some parameter)
    (different : parameter.kind ≠ kind) : (state.get kind name).1 = .undefined := by
  rw [get, declared]
  exact cast_mismatched different _ _

theorem refuses_iff_atDeclaredType (state : LocalParams Message) (call : LocalCall Message) :
    state.Refuses call ↔ state.AtDeclaredType call := by
  unfold Refuses AtDeclaredType
  refine imp_congr_right fun mismatched => ?_
  obtain ⟨kind, name, parameter, used, declared, different⟩ := mismatched
  cases call with
  | declare => cases used
  | set kind' name' val =>
      cases used
      constructor
      · intro refused
        refine ⟨kind, name, val, rfl, ?_⟩
        by_contra changeable
        have ended := refused.1
        rw [perform, declared] at ended
        dsimp only at ended
        rw [if_neg changeable, cast_mismatched different] at ended
        cases ended
      · rintro ⟨_, _, _, same, constant⟩
        cases same
        rw [perform, declared]
        dsimp only
        rw [if_pos constant]
        exact ⟨rfl, rfl⟩
  | get kind' name' =>
      cases used
      refine ⟨fun refused => ?_, nofun⟩
      have ended := refused.1
      rw [perform, get_mismatched declared different] at ended
      cases ended
  | getDynamic kind' name' =>
      refine ⟨fun refused => ?_, nofun⟩
      cases refused.1
  | read thread =>
      refine ⟨fun refused => ?_, nofun⟩
      have ended := refused.1
      have located : state.threads[thread]? = some (kind, name) := used
      rw [perform, located] at ended
      dsimp only at ended
      rw [get_mismatched declared different] at ended
      cases ended

theorem OnlyAsDeclared.get {state : LocalParams Message} (valid : state.OnlyAsDeclared)
    {kind : Kind} {name : String}
    (fits : ∀ parameter, state.server.params name = some parameter → parameter.kind = kind) :
    (state.get kind name).2.OnlyAsDeclared := by
  unfold LocalParams.get
  split
  · exact valid
  · rename_i parameter declared
    unfold LocalParams.cast
    rw [if_pos (fits parameter declared)]
    exact valid.cast declared (fits parameter declared)

theorem AtDeclaredType.kind_eq {state : LocalParams Message} {call : LocalCall Message}
    (typed : state.AtDeclaredType call) {kind : Kind} {name : String}
    (used : state.target call = some (kind, name))
    (changeable : ∀ val, call = .set kind name val → state.server.isConst name = false)
    {parameter : Parameter Message} (declared : state.server.params name = some parameter) :
    parameter.kind = kind := by
  by_contra different
  obtain ⟨kind', name', val, rfl, constant⟩ := typed ⟨kind, name, parameter, used, declared,
    different⟩
  cases used
  rw [changeable val rfl] at constant
  cases constant

theorem OnlyAsDeclared.perform {state : LocalParams Message} (valid : state.OnlyAsDeclared)
    {call : LocalCall Message} (typed : state.AtDeclaredType call) :
    (state.perform call).2.OnlyAsDeclared := by
  cases call with
  | declare kind name val isConst =>
      unfold LocalParams.perform TypedServer.findParam
      dsimp only
      split
      · exact valid
      · rename_i undeclared
        exact valid.declare val isConst (Option.not_isSome_iff_eq_none.mp undeclared)
  | set kind name val =>
      unfold LocalParams.perform
      dsimp only
      split
      · exact valid
      · rename_i parameter declared
        split
        · exact valid
        · rename_i changeable
          have same : parameter.kind = kind := typed.kind_eq rfl
            (fun _ _ => Bool.eq_false_of_not_eq_true changeable) declared
          have fits : ∀ other, state.server.params name = some other → other.kind = kind := by
            intro other located
            rw [declared] at located
            cases located
            exact same
          have written := valid.write fits val (state.server.nextVersion name)
          unfold LocalParams.cast
          rw [if_pos same]
          exact written.cast (Function.update_self ..) rfl
  | get kind name => exact valid.get fun parameter => typed.kind_eq rfl nofun
  | getDynamic kind name => exact valid
  | read thread =>
      unfold LocalParams.perform
      dsimp only
      split
      · exact valid
      · rename_i kind name located
        exact valid.get fun parameter => typed.kind_eq located nofun

/-- Along every sequence of calls, each parameter is accessed only at the type of its
declaration and every access at another type is refused, if and only if no call names another
type, except to set a constant. -/
theorem onlyAsDeclared_and_refuses_iff (run : List (LocalCall Message)) :
    machine.Along OnlyAsDeclared (initial : LocalParams Message) run ∧
        machine.Obeys Refuses initial run ↔
      machine.Obeys AtDeclaredType initial run := by
  constructor
  · rintro ⟨_, refuses⟩
    exact refuses.mono fun state call => (refuses_iff_atDeclaredType state call).mp
  · intro typed
    refine ⟨machine.along_of_obeys ?_ nofun typed,
      typed.mono fun state call => (refuses_iff_atDeclaredType state call).mpr⟩
    intro state call next valid typed stepped
    change (if state.undefined then none else some (state.perform call).2) = some next at stepped
    split at stepped
    · cases stepped
    · cases stepped
      exact valid.perform typed

end Calls

/-- A gain that is declared as an integer is read through a pointer to a Boolean parameter. -/
theorem gainAsBool_not_refused :
    ¬ (machine.Along OnlyAsDeclared (initial : LocalParams Sample.Data)
          [.declare .int32 "gain" (1 : Int) false, .get .bool "gain"] ∧
        machine.Obeys Refuses (initial : LocalParams Sample.Data)
          [.declare .int32 "gain" (1 : Int) false, .get .bool "gain"]) := by
  rintro ⟨_, refusing⟩
  obtain ⟨_, refusing⟩ := refusing _ rfl
  obtain ⟨refuses, _⟩ := refusing _ rfl
  have mismatched : Mismatched
      ((initial : LocalParams Sample.Data).perform (.declare .int32 "gain" (1 : Int) false)).2
      (.get .bool "gain") :=
    ⟨.bool, "gain", ⟨.int32, (1 : Int)⟩, rfl, rfl, nofun⟩
  cases (refuses mismatched).1

end LocalParams

end ProtoCore.Params
