import ProtoCore.Params.TypedParams

/-!
# What `NORMAL` means

`setRemoteParam` and `getRemoteRequest` take their status from elsewhere and drop the result
of `UnpackTo`. A payload of another type, or with a malformed body, is answered as if it had
been transferred.
-/

set_option autoImplicit false

namespace ProtoCore.Params

variable {Kind Callback : Type} {Message : Kind → Type}

namespace TypedServer

/-- `NORMAL` is answered exactly when the value has become that of the payload, and otherwise
nothing has changed and nobody is notified. -/
structure Faithful (codec : Codec Message) (server : TypedServer Message) (name : String)
    (payload : AnyPayload) : Prop where
  normal : (server.setRemoteParam codec name payload).1 = .normal →
    ∃ parameter value, server.params name = some parameter ∧
      codec.held parameter.kind payload = some value ∧
      (server.setRemoteParam codec name payload).2.params name = some ⟨parameter.kind, value⟩
  become : ∀ parameter value, server.params name = some parameter →
    codec.held parameter.kind payload = some value → parameter.val ≠ value →
    (server.setRemoteParam codec name payload).2.params name = some ⟨parameter.kind, value⟩ →
    (server.setRemoteParam codec name payload).1 = .normal
  otherwise : (server.setRemoteParam codec name payload).1 ≠ .normal →
    (server.setRemoteParam codec name payload).2 = server

/-- The parameter is a constant, is not declared, or has the type of the payload, whose body is
well formed. -/
def Takes (codec : Codec Message) (server : TypedServer Message) (name : String)
    (payload : AnyPayload) : Prop :=
  server.isConst name = true ∨
    ∀ parameter, server.params name = some parameter →
      (codec.held parameter.kind payload).isSome = true

theorem setRemoteParam_const (codec : Codec Message) {server : TypedServer Message} {name : String}
    (constant : server.isConst name = true) (payload : AnyPayload) :
    server.setRemoteParam codec name payload = (.notChangeable, server) := by
  rw [setRemoteParam, if_pos constant]

theorem setRemoteParam_undeclared (codec : Codec Message) {server : TypedServer Message}
    {name : String} (changeable : ¬ server.isConst name = true)
    (undeclared : server.params name = none) (payload : AnyPayload) :
    server.setRemoteParam codec name payload = (.tmepNotAvaliable, server) := by
  rw [setRemoteParam, if_neg changeable, undeclared]

theorem setRemoteParam_declared (codec : Codec Message) {server : TypedServer Message}
    {name : String} (changeable : ¬ server.isConst name = true) {parameter : Parameter Message}
    (declared : server.params name = some parameter) (payload : AnyPayload) :
    server.setRemoteParam codec name payload =
      (.normal,
        server.write name (parameter.setRemoteValue codec payload) (server.nextVersion name)) := by
  rw [setRemoteParam, if_neg changeable, declared]

theorem params_write (server : TypedServer Message) (name : String) (parameter : Parameter Message)
    (version : Int) : (server.write name parameter version).params name = some parameter :=
  Function.update_self ..

/-- An answer other than `NORMAL` is faithful if nothing has changed. -/
theorem faithful_of_refused {codec : Codec Message} {server : TypedServer Message} {name : String}
    {payload : AnyPayload} {status : ParameterStatus} (abnormal : status ≠ .normal)
    (answered : server.setRemoteParam codec name payload = (status, server)) :
    Faithful codec server name payload where
  normal answer := by
    rw [answered] at answer
    exact absurd answer abnormal
  become parameter value located held different became := by
    rw [answered, located] at became
    obtain ⟨kind, val⟩ := parameter
    cases became
    exact absurd rfl different
  otherwise _ := by rw [answered]

theorem faithful_iff_takes {codec : Codec Message} (documented : codec.Documented)
    (server : TypedServer Message) (name : String) (payload : AnyPayload) :
    Faithful codec server name payload ↔ server.Takes codec name payload := by
  by_cases constant : server.isConst name = true
  · exact ⟨fun _ => .inl constant, fun _ =>
      faithful_of_refused (show ParameterStatus.notChangeable ≠ .normal by decide)
        (setRemoteParam_const codec constant payload)⟩
  · cases declared : server.params name with
    | none =>
        refine ⟨fun _ => .inr fun parameter located => ?_, fun _ =>
          faithful_of_refused (show ParameterStatus.tmepNotAvaliable ≠ .normal by decide)
            (setRemoteParam_undeclared codec constant declared payload)⟩
        cases declared.symm.trans located
    | some parameter =>
        have answered := setRemoteParam_declared codec constant declared payload
        constructor
        · intro faithful
          obtain ⟨other, value, located, held, _⟩ := faithful.normal (by rw [answered])
          refine .inr fun found here => ?_
          cases here.symm.trans located
          rw [held]
          rfl
        · intro takes
          obtain ⟨value, held⟩ := Option.isSome_iff_exists.mp
            (takes.resolve_left constant parameter declared)
          have unpacked : parameter.setRemoteValue codec payload = ⟨parameter.kind, value⟩ := by
            rw [Parameter.setRemoteValue, documented.unpacks _ _ _ _ held]
          refine ⟨fun _ => ⟨parameter, value, declared, held, ?_⟩, fun _ _ _ _ _ _ => ?_,
            fun abnormal => ?_⟩
          · rw [answered, params_write, unpacked]
          · rw [answered]
          · rw [answered] at abnormal
            exact absurd rfl abnormal

/-- The documentation of `PackFrom`: a payload carries its message and none of another type. -/
structure Packs (codec : Codec Message) : Prop where
  own : ∀ kind value, codec.held kind (codec.packFrom kind value) = some value
  foreign : ∀ kind other value, kind ≠ other → codec.held kind (codec.packFrom other value) = none

/-- A client's `setRemoteRequest` is answered faithfully, unless it is about a parameter of
another type. -/
theorem faithful_packFrom_iff {codec : Codec Message} (documented : codec.Documented)
    (packs : Packs codec) {server : TypedServer Message} {name : String}
    (changeable : ¬ server.isConst name = true) {parameter : Parameter Message}
    (declared : server.params name = some parameter) (kind : Kind) (value : Message kind) :
    Faithful codec server name (codec.packFrom kind value) ↔ parameter.kind = kind := by
  rw [faithful_iff_takes documented, Takes, or_iff_right changeable]
  constructor
  · intro held
    by_contra different
    have carries := held parameter declared
    rw [packs.foreign _ _ value different] at carries
    cases carries
  · intro same other located
    cases declared.symm.trans located
    subst same
    rw [packs.own]
    rfl

end TypedServer

namespace ParamRPCClientClub

/-- The reply received last for a name, as its slot holds it. -/
def received (club : ParamRPCClientClub Callback AnyPayload) (namespace_ name : String) :
    Option (GetParamRPCReply AnyPayload) :=
  (club.clients namespace_).bind fun client => (client.activeSlot name).map ParamSlot.data

/-- `NORMAL` is returned only with the value of the received reply in the output. -/
def Faithful (codec : Codec Message) (club : ParamRPCClientClub Callback AnyPayload) (kind : Kind)
    (namespace_ name : String) (reply : Message kind) : Prop :=
  (club.getTypedRequest codec kind namespace_ name reply).1 = .normal →
    ∃ answer, club.received namespace_ name = some answer ∧
      codec.held kind (payloadOf answer) =
        some (club.getTypedRequest codec kind namespace_ name reply).2.1

/-- A reply that is `NORMAL` carries a message of the type asked for. -/
def Carries (codec : Codec Message) (club : ParamRPCClientClub Callback AnyPayload) (kind : Kind)
    (namespace_ name : String) : Prop :=
  ∀ answer, club.received namespace_ name = some answer → answer.status = .normal →
    (codec.held kind (payloadOf answer)).isSome = true

theorem getRemoteRequest_reply {club : ParamRPCClientClub Callback AnyPayload}
    {namespace_ : String} {client : ParamRPCClient Callback AnyPayload}
    (located : club.clients namespace_ = some client) (name : String) :
    (club.getRemoteRequest namespace_ name).2 =
      (club.received namespace_ name).getD unavailable := by
  rw [getRemoteRequest, received, located]
  simp only [Option.bind_some, ParamRPCClient.getRemoteParam]
  split
  · rfl
  · rename_i absent
    rw [ParamRPCClient.findParam, Bool.not_eq_true, Option.isSome_eq_false_iff,
      Option.isNone_iff_eq_none] at absent
    rw [ParamRPCClient.activeSlot, absent]
    rfl

theorem faithful_iff_carries {codec : Codec Message} (documented : codec.Documented)
    (club : ParamRPCClientClub Callback AnyPayload) (kind : Kind) (namespace_ name : String)
    (reply : Message kind) :
    Faithful codec club kind namespace_ name reply ↔ Carries codec club kind namespace_ name := by
  cases located : club.clients namespace_ with
  | none =>
      have none : club.received namespace_ name = none := by rw [received, located]; rfl
      refine ⟨fun _ answer found => ?_, fun _ normal => ?_⟩
      · cases none.symm.trans found
      · rw [getTypedRequest, located] at normal
        cases normal
  | some client =>
      have answered : (club.getTypedRequest codec kind namespace_ name reply).1 =
          ((club.received namespace_ name).getD unavailable).status ∧
          (club.getTypedRequest codec kind namespace_ name reply).2.1 =
            (codec.unpackTo kind (payloadOf ((club.received namespace_ name).getD unavailable))
              reply).2 := by
        rw [getTypedRequest, located, ← getRemoteRequest_reply located]
        exact ⟨rfl, rfl⟩
      rw [Faithful, answered.1, answered.2]
      constructor
      · intro faithful answer found normal
        rw [found] at faithful
        obtain ⟨_, same, held⟩ := faithful normal
        cases same
        exact held ▸ rfl
      · intro carries normal
        cases found : club.received namespace_ name with
        | none =>
            rw [found] at normal
            cases normal
        | some answer =>
            rw [found] at normal
            obtain ⟨value, held⟩ := Option.isSome_iff_exists.mp (carries answer found normal)
            refine ⟨answer, rfl, ?_⟩
            rw [Option.getD_some, documented.unpacks _ _ _ _ held, held]

end ParamRPCClientClub

/-- Both statuses mean what they say exactly when the payload can be unpacked into the type of
the parameter, or of the output. -/
theorem faithful_iff_unpacks {codec : Codec Message} (documented : codec.Documented) :
    (∀ (server : TypedServer Message) name payload,
      server.Faithful codec name payload ↔ server.Takes codec name payload) ∧
    ∀ (club : ParamRPCClientClub Callback AnyPayload) (kind : Kind) namespace_ name reply,
      club.Faithful codec kind namespace_ name reply ↔ club.Carries codec kind namespace_ name :=
  ⟨TypedServer.faithful_iff_takes documented, ParamRPCClientClub.faithful_iff_carries documented⟩

theorem faithful_iff_unpacks_sample :
    (∀ (server : TypedServer Sample.Data) name payload,
      server.Faithful Sample.codec name payload ↔ server.Takes Sample.codec name payload) ∧
    ∀ (club : ParamRPCClientClub Nat AnyPayload) (kind : Sample) namespace_ name reply,
      club.Faithful Sample.codec kind namespace_ name reply ↔
        club.Carries Sample.codec kind namespace_ name :=
  faithful_iff_unpacks Sample.codec_documented

namespace Sample

/-- An integer is set to a boolean. -/
def gain : TypedServer Data := TypedServer.initial.declare .int32 "gain" (1 : Int) false

theorem gain_not_faithful :
    ¬ gain.Faithful codec "gain" (codec.packFrom .bool (true : Bool)) := by
  intro faithful
  obtain ⟨parameter, value, declared, held, _⟩ := faithful.normal rfl
  have integer : gain.params "gain" = some ⟨.int32, (1 : Int)⟩ := rfl
  cases integer.symm.trans declared
  have refused : codec.held .int32 (codec.packFrom .bool (true : Bool)) = none := by decide
  cases refused.symm.trans held

end Sample

end ProtoCore.Params
