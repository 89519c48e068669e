import ProtoCore.Topic.LatchedMessages

/-!
# How the stream of a socket grows

Between the completion of its connection and the end of it, what the kernel has taken on a
socket only gets longer, and is a beginning of what the socket is owed; so is what the
kernel has taken when a write fails and the socket is given up.
-/

set_option autoImplicit false

namespace ProtoCore.Topic

open Library

theorem writeLoop_grows {fd : Nat} {toSend : List UInt8} {siz n : Int}
    {results : List WriteResult} {kernel : Kernel} {final : WriteLoopEnd}
    (looped : writeLoop fd toSend siz results n kernel = some final) :
    kernel.accepted fd <+: final.kernel.accepted fd := by
  induction results generalizing n kernel final with
  | nil =>
      simp only [writeLoop] at looped
      split at looped
      · cases looped
      · cases looped
        exact List.prefix_refl _
  | cons result results ih =>
      simp only [writeLoop] at looped
      split at looped
      · cases wrote : kernel.write fd ((toSend.drop (siz - n).toNat).take n.toNat) result with
        | none =>
            rw [wrote] at looped
            cases looped
        | some outcome =>
            obtain ⟨nwrite, next⟩ := outcome
            have grown : kernel.accepted fd <+: next.accepted fd := by
              cases result with
              | error errno =>
                  obtain ⟨_, rfl⟩ := Kernel.write_error wrote
                  exact List.prefix_refl _
              | accepted count =>
                  obtain ⟨_, _, _, _, accepted⟩ := Kernel.write_accepted wrote
                  rw [accepted, Function.update_self]
                  exact List.prefix_append _ _
            simp only [wrote] at looped
            split at looped
            · cases looped
              exact grown
            · split at looped
              · cases looped
                exact grown
              · obtain ⟨tail, rest, rfl⟩ := Option.map_eq_some_iff.mp looped
                have later := ih rest
                exact grown.trans later
      · cases looped
        exact List.prefix_refl _

namespace Publishing

/-- What the socket has been owed since its connection was completed. -/
def owed (state : Publishing) (fd : Nat) : List UInt8 :=
  state.initial fd ++ (state.frames fd).flatten

/-- The kernel has taken more of a socket's stream, to which frames were added. -/
structure Grown (fd : Nat) (before after : Publishing) (added : List (List UInt8)) : Prop where
  initial : after.initial fd = before.initial fd
  frames : after.frames fd = before.frames fd ++ added
  accepted : before.kernel.accepted fd <+: after.kernel.accepted fd
  within : before.kernel.accepted fd <+: before.owed fd →
    after.kernel.accepted fd <+: after.owed fd

namespace Grown

variable {fd : Nat} {first second third : Publishing} {added more : List (List UInt8)}

theorem refl (fd : Nat) (state : Publishing) : Grown fd state state [] :=
  ⟨rfl, (List.append_nil _).symm, List.prefix_refl _, fun kept => kept⟩

theorem trans (left : Grown fd first second added) (right : Grown fd second third more) :
    Grown fd first third (added ++ more) where
  initial := right.initial.trans left.initial
  frames := by rw [right.frames, left.frames, List.append_assoc]
  accepted := left.accepted.trans right.accepted
  within kept := right.within (left.within kept)

theorem of_same (same : SameStream fd first second) : Grown fd first second [] where
  initial := same.initial
  frames := by rw [same.frames, List.append_nil]
  accepted := by
    rw [same.accepted]
  within kept := by
    rw [same.accepted, owed, same.initial, same.frames]
    exact kept

theorem owed (grown : Grown fd first second added) :
    second.owed fd = first.owed fd ++ added.flatten := by
  rw [Publishing.owed, Publishing.owed, grown.initial, grown.frames, List.flatten_append,
    List.append_assoc]

end Grown

theorem append_grown (state : Publishing) (fd : Nat) (data msg : List UInt8) :
    Grown fd state (state.append fd data msg) [msg] where
  initial := rfl
  frames := Function.update_self ..
  accepted := List.prefix_refl _
  within kept := by
    have appended : (state.append fd data msg).frames fd = state.frames fd ++ [msg] :=
      Function.update_self ..
    have start : (state.append fd data msg).initial fd = state.initial fd := rfl
    rw [owed, appended, start, List.flatten_append, ← List.append_assoc]
    exact kept.trans (List.prefix_append _ _)

/-- Whether `write_fd` keeps the socket or gives it up, the bytes taken are of its stream. -/
theorem writeFd_grown {state : Publishing} {topic : String} {fd : Nat}
    {results : List WriteResult} {written : Written} (balanced : state.Balanced fd)
    (wrote : state.writeFd topic fd results = some written)
    (quiet : ∀ call ∈ written.calls, ¬ call.StickyPartial) (other : Nat) :
    Grown other state written.state [] := by
  by_cases same : other = fd
  · subst same
    obtain ⟨frames, initial, _⟩ := writeFd_records wrote
    obtain ⟨toSend, located, sum⟩ := balanced
    simp only [writeFd, located] at wrote
    obtain ⟨final, looped, rfl⟩ := Option.map_eq_some_iff.mp wrote
    have spec := writeLoop_spec le_rfl looped
    have kernel : (if final.ok = true
        then state.keepUnsent other (toSend.drop (int32 toSend.length - final.n).toNat) final.kernel
        else state.dropSocket topic other final.kernel).kernel.accepted = final.kernel.accepted := by
      split <;> rfl
    dsimp only at frames initial quiet ⊢
    refine ⟨by rw [initial], by rw [frames, List.append_nil], ?_, fun _ => ?_⟩
    · rw [kernel]
      exact writeLoop_grows looped
    · have kept := spec.balanced quiet
      rw [Int.sub_self, Int.toNat_zero, List.drop_zero, sum] at kept
      rw [kernel, owed, initial, frames, ← kept]
      exact List.prefix_append _ _
  · exact .of_same ((writeFd_spec wrote).same other same)

/-- One call of `write_to_socket`: every stream has grown, by the message or by no frame. -/
theorem Sound.writeSockets_grown {topic : String} {msg : List UInt8} {fds : List Nat}
    {state : Publishing} {results : List WriteResult} {written : Written}
    (sound : state.Sound) (distinct : fds.Nodup)
    (members : ∀ fd ∈ fds, fd ∈ state.client.clientsTopicFd topic)
    (wrote : Publishing.writeSockets topic msg fds state results = some written)
    (quiet : ∀ call ∈ written.calls, ¬ call.StickyPartial) (other : Nat) :
    ∃ added, Grown other state written.state added ∧
      (added = [] ∨ added = [msg] ∧ other ∈ fds) := by
  by_cases listed : other ∈ fds
  · induction fds generalizing state results written with
    | nil => cases listed
    | cons fd fds ih =>
        obtain ⟨absent, distinct⟩ := List.nodup_cons.mp distinct
        have member := members fd List.mem_cons_self
        obtain ⟨data, found, served⟩ := writeSockets_cons wrote
        cases served with
        | skipped full rest =>
            rcases List.mem_cons.mp listed with rfl | later
            · exact ⟨[], .of_same (writeSockets_same rest absent), .inl rfl⟩
            · obtain ⟨added, grown, shape⟩ := ih sound distinct
                (fun fd' member' => members fd' (List.mem_cons_of_mem _ member')) rest quiet later
              exact ⟨added, grown, shape.imp_right fun same => ⟨same.1, listed⟩⟩
        | failed room wroteFirst bad =>
            have appended := sound.append member found msg
            have first := writeFd_grown (appended.intact topic fd member) wroteFirst quiet other
            by_cases here : other = fd
            · subst here
              exact ⟨[msg], (append_grown state other data msg).trans first, .inr ⟨rfl, listed⟩⟩
            · exact ⟨[], .trans (.of_same (append_same here data msg)) first, .inl rfl⟩
        | served room wroteFirst good rest =>
            rename_i first final
            have appended := sound.append member found msg
            have quietFirst : ∀ call ∈ first.calls, ¬ call.StickyPartial := fun call called =>
              quiet call (List.mem_append_left _ called)
            have head := writeFd_grown (appended.intact topic fd member) wroteFirst quietFirst other
            rcases List.mem_cons.mp listed with rfl | later
            · have tail : Grown other first.state final.state [] :=
                .of_same (writeSockets_same rest absent)
              exact ⟨[msg], ((append_grown state other data msg).trans head).trans tail,
                .inr ⟨rfl, listed⟩⟩
            · have different : other ≠ fd := fun same => absent (same ▸ later)
              have sockets := ((writeFd_spec wroteFirst).kept good).1
              obtain ⟨added, grown, shape⟩ := ih (appended.writeFd member wroteFirst quietFirst)
                distinct (fun fd' member' => by
                  rw [sockets]
                  exact members fd' (List.mem_cons_of_mem _ member')) rest
                (fun call called => quiet call (List.mem_append_right _ called)) later
              exact ⟨added, (Grown.trans (.of_same (append_same different data msg)) head).trans
                grown, shape.imp_right fun same => ⟨same.1, listed⟩⟩
  · exact ⟨[], .of_same (writeSockets_same wrote listed), .inl rfl⟩

/-- Only a completed connection registers a socket. -/
theorem writeFd_members {state : Publishing} {topic : String} {fd : Nat}
    {results : List WriteResult} {written : Written}
    (wrote : state.writeFd topic fd results = some written) {other : String} {fd' : Nat}
    (member : fd' ∈ written.state.client.clientsTopicFd other) :
    fd' ∈ state.client.clientsTopicFd other := by
  have spec := writeFd_spec wrote
  cases good : written.ok with
  | true =>
      rw [(spec.kept good).1] at member
      exact member
  | false =>
      rw [(spec.dropped good).2, Function.update_apply] at member
      split at member
      · rename_i same
        subst same
        exact Finset.mem_of_mem_erase member
      · exact member

theorem writeSockets_members {topic : String} {msg : List UInt8} {fds : List Nat}
    {state : Publishing} {results : List WriteResult} {written : Written}
    (wrote : writeSockets topic msg fds state results = some written) {other : String} {fd' : Nat}
    (member : fd' ∈ written.state.client.clientsTopicFd other) :
    fd' ∈ state.client.clientsTopicFd other := by
  induction fds generalizing state results written with
  | nil =>
      cases wrote
      exact member
  | cons fd fds ih =>
      obtain ⟨data, _, served⟩ := writeSockets_cons wrote
      cases served with
      | skipped _ rest => exact ih rest member
      | failed _ wroteFirst _ => exact writeFd_members wroteFirst member
      | served _ wroteFirst _ rest => exact writeFd_members wroteFirst (ih rest member)

/-- A message was written to the sockets of a topic. -/
structure Wrote (state : Publishing) (topic : String) (msg : List UInt8) (after : Publishing) :
    Prop where
  grown : ∀ fd, ∃ added, Grown fd state after added ∧
    (added = [] ∨ added = [msg] ∧ fd ∈ state.client.clientsTopicFd topic)
  members : ∀ {topic' fd}, fd ∈ after.client.clientsTopicFd topic' →
    fd ∈ state.client.clientsTopicFd topic'
  cached : after.client.staticTopicCache = state.client.staticTopicCache

theorem Sound.perform_wrote {state : Publishing} (sound : state.Sound) {topic : String}
    {msg : List UInt8} {order : List Nat} {errno : Int} {results : List WriteResult}
    {written : Written}
    (performed : Publishing.perform state (.writeToSocket topic msg order errno results) =
      some written)
    (quiet : ∀ call ∈ written.calls, ¬ call.StickyPartial) :
    Wrote state topic msg written.state := by
  simp only [Publishing.perform] at performed
  split at performed
  · rename_i enabled
    have registered : ∀ fd ∈ order, fd ∈ state.client.clientsTopicFd topic := fun fd member =>
      enabled.2 ▸ List.mem_toFinset.mpr member
    refine ⟨fun fd => ?_, fun member => writeSockets_members performed member,
      (writeSockets_delivered enabled.1 performed).cache⟩
    obtain ⟨added, grown, shape⟩ := (sound.withErrno errno).writeSockets_grown enabled.1
      registered performed quiet fd
    exact ⟨added, ⟨grown.initial, grown.frames, grown.accepted, grown.within⟩,
      shape.imp_right fun same => ⟨same.1, registered fd same.2⟩⟩
  · cases performed

/-- A write that passes over no socket adds the message to every stream that goes on. -/
theorem perform_told {state : Publishing} {topic : String} {msg : List UInt8} {order : List Nat}
    {errno : Int} {results : List WriteResult} {written : Written}
    (performed : state.perform (.writeToSocket topic msg order errno results) = some written)
    (none : missed topic msg order { state with
      kernel := { state.kernel with errno := errno } } results = []) :
    ∀ fd ∈ written.state.client.clientsTopicFd topic,
      fd ∈ state.client.clientsTopicFd topic ∧ written.state.frames fd ≠ state.frames fd := by
  intro fd registered
  simp only [perform] at performed
  split at performed
  · rename_i enabled
    have delivered := writeSockets_delivered enabled.1 performed
    have before := delivered.registered fd registered
    refine ⟨before, ?_⟩
    have listed : fd ∈ order := by
      rw [← List.mem_toFinset, enabled.2]
      exact before
    rcases delivered.reached fd listed registered with told | ⟨_, passed⟩
    · rw [told]
      exact fun same => absurd (List.append_right_eq_self.mp same) (List.cons_ne_nil _ _)
    · rw [none] at passed
      cases passed
  · cases performed

/-- A connection is completed: the streams of the other sockets go on, and that of its own
begins with the cache. -/
structure Begun (state : Publishing) (topic : String) (fd : Nat) (cache : List (List UInt8))
    (after : Publishing) : Prop where
  owed : after.owed fd = cache.flatten
  taken : after.kernel.accepted fd <+: after.owed fd
  others : ∀ other, other ≠ fd → Grown other state after []
  mine : ∀ other, fd ∈ after.client.clientsTopicFd other → other = topic
  members : ∀ {topic' fd'}, fd' ∈ after.client.clientsTopicFd topic' → fd' ≠ fd →
    fd' ∈ state.client.clientsTopicFd topic'
  cached : after.client.staticTopicCache = state.client.staticTopicCache
  whole : cache.toFinset = state.client.staticTopicCache topic

theorem connect_same (state : Publishing) {topic : String} {fd other : Nat}
    (cache : List (List UInt8)) (different : other ≠ fd) :
    Grown other state (state.connect topic fd cache) [] where
  initial := Function.update_of_ne different _ _
  frames := (Function.update_of_ne different _ _).trans (List.append_nil _).symm
  accepted := by
    change _ <+: Function.update state.kernel.accepted fd [] other
    rw [Function.update_of_ne different]
  within kept := by
    change Function.update state.kernel.accepted fd [] other <+:
      Function.update state.initial fd _ other ++ (Function.update state.frames fd [] other).flatten
    rw [Function.update_of_ne different, Function.update_of_ne different,
      Function.update_of_ne different]
    exact kept

theorem Sound.complete_begun {state : Publishing} (sound : state.Sound) {topic : String}
    {fd : Nat} {cache : List (List UInt8)} {results : List WriteResult} {written : Written}
    (completed : Publishing.complete state topic fd cache results = some written)
    (quiet : ∀ call ∈ written.calls, ¬ call.StickyPartial) :
    Begun state topic fd cache written.state := by
  unfold Publishing.complete at completed
  split at completed
  · rename_i enabled
    have connected : (state.connect topic fd cache).Sound := sound.connect enabled.1 enabled.2.1
    have member : fd ∈ (state.connect topic fd cache).client.clientsTopicFd topic :=
      mem_connect.mpr (.inl ⟨rfl, rfl⟩)
    have grown := writeFd_grown (connected.intact topic fd member) completed quiet
    have initial : (state.connect topic fd cache).initial fd = cache.flatten :=
      Function.update_self ..
    have frames : (state.connect topic fd cache).frames fd = [] := Function.update_self ..
    have start : (state.connect topic fd cache).owed fd = cache.flatten := by
      rw [owed, initial, frames, List.flatten_nil, List.append_nil]
    have empty : (state.connect topic fd cache).kernel.accepted fd = [] :=
      Function.update_self ..
    refine ⟨?_, ?_, fun other different => ?_, fun other registered => ?_,
      fun registered different => ?_, ?_, enabled.2.2.2⟩
    · rw [(grown fd).owed, start, List.flatten_nil, List.append_nil]
    · refine (grown fd).within ?_
      rw [empty]
      exact List.nil_prefix
    · exact (connect_same state cache different).trans (grown other)
    · rcases mem_connect.mp (writeFd_members completed registered) with ⟨same, _⟩ | old
      · exact same
      · exact absurd (sound.opened old) enabled.1
    · rcases mem_connect.mp (writeFd_members completed registered) with ⟨_, same⟩ | old
      · exact absurd same different
      · exact old
    · exact (writeFd_records completed).2.2
  · cases completed

theorem Sound.perform_begun {state : Publishing} (sound : state.Sound) {topic : String}
    {fd : Nat} {cache : List (List UInt8)} {errno : Int} {results : List WriteResult}
    {written : Written}
    (performed : Publishing.perform state (.complete topic fd cache errno results) = some written)
    (quiet : ∀ call ∈ written.calls, ¬ call.StickyPartial) :
    Begun state topic fd cache written.state := by
  have begun := (sound.withErrno errno).complete_begun performed quiet
  refine ⟨begun.owed, begun.taken, fun other different => ?_, begun.mine, begun.members,
    begun.cached, begun.whole⟩
  have grown := begun.others other different
  exact ⟨grown.initial, grown.frames, grown.accepted, grown.within⟩

end Publishing

end ProtoCore.Topic
