import ProtoCore.Topic.FdIndices

/-!
# The ledger of a publisher's sockets

Each socket of `add_client` is to be closed once or registered, and each future to be completed
once, with whether the socket was registered. The exits of `add_client` are spread over the
call, its helper and its thread; some of them forget one of these, and some do it twice.
-/

set_option autoImplicit false

namespace ProtoCore.Topic

open Library

/-- One call: its socket is closed at most once and by nobody else, it is never closed and
registered, and when the call is over it is one of the two. The future is completed once. -/
structure ConnectAttempt.Settled (attempt : ConnectAttempt) : Prop where
  once : attempt.closes ≤ 1
  own : ∀ fd ∈ attempt.fd, attempt.isOpen = true ↔ attempt.closes = 0
  apart : attempt.registered = true → attempt.closes = 0
  ended : attempt.stage = .ended → ∀ fd ∈ attempt.fd,
    attempt.closes = 1 ∨ attempt.registered = true
  future : attempt.shared = true
  value : attempt.values = [] ∨ attempt.values = [attempt.inserted]
  completed : attempt.stage = .ended → attempt.values = [attempt.inserted]

/-- A `write` that fails for good. -/
def WriteResult.failing : WriteResult → Bool
  | .accepted _ => false
  | .error errno => errno != EAGAIN

namespace ClientSockets

/-- No access has gone wrong, every call is settled, and the accounts of the calls are those of
the kernel and of `clients_topic_fd`. -/
structure Settled (sockets : ClientSockets) : Prop where
  unhalted : sockets.halted = false
  calls : ∀ attempt ∈ sockets.attempts, attempt.Settled
  opened : ∀ fd, fd ∈ sockets.publishing.kernel.opened ↔
    ∃ attempt ∈ sockets.attempts, attempt.fd = some fd ∧ attempt.isOpen = true
  listed : ∀ topic fd, fd ∈ sockets.publishing.client.clientsTopicFd topic ↔
    ∃ attempt ∈ sockets.attempts, attempt.topic = topic ∧ attempt.fd = some fd ∧
      attempt.registered = true

/-- The kernel gives a descriptor that is not open. -/
def Fresh (sockets : ClientSockets) : SocketAction → Prop
  | .addClient _ calls => ∀ fd ∈ calls.socket, fd ∉ sockets.publishing.kernel.opened
  | _ => True

/-- The system calls take none of the exits that lose a socket or a future, a thread waits for a
descriptor that has a bit in its `fd_set`, and the write of a thread does not fail on a socket that
`write_to_socket` has closed before. -/
def Clean (sockets : ClientSockets) : SocketAction → Prop
  | .addClient _ calls => calls.socket.isSome = true ∧ calls.setNonblock = true ∧
      (calls.inetPton = true → calls.connect ≠ .connected ∧
        (calls.connect = .error EINPROGRESS →
          (calls.getsockname.any fun addr => addr.sinAddr.dotted.length < 15) = true))
  | .select index ready soError =>
      (∀ thread ∈ sockets.threadAt index .select, thread.2 < fdSetsize) ∧
        (ready = true → soError.isSome = true)
  | .write index _ results => ∀ attempt ∈ sockets.attempts[index]?,
      attempt.isOpen = true ∨ results.all (fun result => !result.failing) = true
  | _ => True

instance (sockets : ClientSockets) (action : SocketAction) : Decidable (sockets.Fresh action) := by
  unfold Fresh
  split <;> infer_instance

instance (sockets : ClientSockets) (action : SocketAction) : Decidable (sockets.Clean action) := by
  unfold Clean
  split <;> infer_instance

def freshStep (sockets : ClientSockets) (action : SocketAction) : Option ClientSockets :=
  if sockets.Fresh action then sockets.step action else none

def freshMachine : Machine ClientSockets SocketAction := ⟨freshStep⟩

end ClientSockets

/-! ## One call -/

namespace ConnectAttempt

/-- The account of a call while all goes well. -/
structure Accounted (attempt : ConnectAttempt) : Prop where
  socket : attempt.fd.isSome = true
  future : attempt.shared = true
  closes : attempt.closes = if attempt.isOpen then 0 else 1
  registered : attempt.registered = true ↔ attempt.isOpen = true ∧ attempt.stage ≠ .select
  waiting : attempt.stage = .select → attempt.isOpen = true
  past : attempt.registered = true → attempt.inserted = true
  values : attempt.values =
    if attempt.stage = .write ∨ attempt.stage = .ended then [attempt.inserted] else []

theorem Accounted.settled {attempt : ConnectAttempt} (accounted : attempt.Accounted) :
    attempt.Settled where
  once := by
    rw [accounted.closes]
    split <;> decide
  own _ _ := by
    rw [accounted.closes]
    split
    · rename_i open'
      exact ⟨fun _ => rfl, fun _ => open'⟩
    · rename_i closed
      exact ⟨fun open' => absurd open' closed, nofun⟩
  apart registered := by
    rw [accounted.closes, if_pos (accounted.registered.mp registered).1]
  ended ended _ _ := by
    rw [accounted.closes]
    by_cases open' : attempt.isOpen = true
    · exact .inr (accounted.registered.mpr ⟨open', by rw [ended]; decide⟩)
    · exact .inl (if_neg open')
  future := accounted.future
  value := by
    rw [accounted.values]
    split
    · exact .inr rfl
    · exact .inl rfl
  completed ended := by
    rw [accounted.values, if_pos (.inr ended)]

/-- A close by the number of another socket. -/
theorem release_of_closed {attempt : ConnectAttempt} {fd : Nat}
    (closed : attempt.fd = some fd → attempt.isOpen = false) : attempt.release fd = attempt := by
  unfold release
  split
  · rename_i same
    rw [← closed same]
  · rfl

theorem holds_iff {attempt : ConnectAttempt} {topic : String} {fd : Nat} :
    attempt.holds topic fd = true ↔
      attempt.topic = topic ∧ attempt.fd = some fd ∧ attempt.registered = true := by
  simp only [holds, Bool.and_eq_true, beq_iff_eq]
  constructor
  · rintro ⟨⟨registered, same⟩, number⟩
    exact ⟨same, number, registered⟩
  · rintro ⟨same, number, registered⟩
    exact ⟨⟨registered, same⟩, number⟩

theorem erase_of_not_holds {attempt : ConnectAttempt} {topic : String} {fd : Nat}
    (free : attempt.holds topic fd = false) : attempt.erase topic fd = attempt := by
  rw [erase, if_neg (Bool.eq_false_iff.mp free)]

end ConnectAttempt

/-! ## Books -/

/-- One call of several is replaced by a later state of it. -/
structure Replaced (before after : List ConnectAttempt) (index : Nat)
    (old new : ConnectAttempt) : Prop where
  old : before[index]? = some old
  new : after[index]? = some new
  others : ∀ position, position ≠ index → after[position]? = before[position]?

/-- Some call at another place has the property. -/
def Elsewhere (attempts : List ConnectAttempt) (index : Nat) (property : ConnectAttempt → Prop) :
    Prop :=
  ∃ position attempt, position ≠ index ∧ attempts[position]? = some attempt ∧ property attempt

theorem exists_mem_iff_elsewhere {attempts : List ConnectAttempt} {index : Nat}
    {attempt : ConnectAttempt} (located : attempts[index]? = some attempt)
    (property : ConnectAttempt → Prop) : (∃ other ∈ attempts, property other) ↔
      property attempt ∨ Elsewhere attempts index property := by
  constructor
  · rintro ⟨other, member, has⟩
    obtain ⟨position, found⟩ := List.mem_iff_getElem?.mp member
    by_cases here : position = index
    · subst here
      cases located.symm.trans found
      exact .inl has
    · exact .inr ⟨position, other, here, found, has⟩
  · rintro (has | ⟨position, other, _, found, has⟩)
    · exact ⟨attempt, List.mem_of_getElem? located, has⟩
    · exact ⟨other, List.mem_of_getElem? found, has⟩

theorem Replaced.elsewhere {before after : List ConnectAttempt} {index : Nat}
    {old new : ConnectAttempt} (replaced : Replaced before after index old new)
    (property : ConnectAttempt → Prop) :
    Elsewhere after index property ↔ Elsewhere before index property := by
  constructor
  · rintro ⟨position, attempt, apart, located, has⟩
    exact ⟨position, attempt, apart, (replaced.others position apart).symm.trans located, has⟩
  · rintro ⟨position, attempt, apart, located, has⟩
    exact ⟨position, attempt, apart, (replaced.others position apart).trans located, has⟩

/-- The calls account for the open sockets and for the sets of the topics. -/
structure Books (attempts : List ConnectAttempt) (opened : Finset Nat)
    (sets : String → Finset Nat) : Prop where
  accounted : ∀ attempt ∈ attempts, attempt.Accounted
  lone : ∀ (left right : Nat) (first second : ConnectAttempt), attempts[left]? = some first →
    attempts[right]? = some second → first.isOpen = true → second.isOpen = true →
      first.fd = second.fd → left = right
  opened : ∀ fd, fd ∈ opened ↔
    ∃ attempt ∈ attempts, attempt.fd = some fd ∧ attempt.isOpen = true
  listed : ∀ topic fd, fd ∈ sets topic ↔
    ∃ attempt ∈ attempts, attempt.topic = topic ∧ attempt.fd = some fd ∧
      attempt.registered = true

namespace Books

variable {attempts after : List ConnectAttempt} {opened : Finset Nat}
  {sets : String → Finset Nat} {index : Nat} {old new : ConnectAttempt}

theorem accounted_replaced (books : Books attempts opened sets)
    (replaced : Replaced attempts after index old new) (accounted : new.Accounted) :
    ∀ attempt ∈ after, attempt.Accounted := by
  intro attempt member
  obtain ⟨position, located⟩ := List.mem_iff_getElem?.mp member
  by_cases here : position = index
  · subst here
    cases replaced.new.symm.trans located
    exact accounted
  · rw [replaced.others position here] at located
    exact books.accounted attempt (List.mem_of_getElem? located)

theorem lone_replaced (books : Books attempts opened sets)
    (replaced : Replaced attempts after index old new) (fd : new.fd = old.fd)
    (keeps : new.isOpen = true → old.isOpen = true) (left right : Nat)
    (first second : ConnectAttempt) (here : after[left]? = some first)
    (there : after[right]? = some second) (firstOpen : first.isOpen = true)
    (secondOpen : second.isOpen = true) (same : first.fd = second.fd) : left = right := by
  by_cases one : left = index
  · by_cases two : right = index
    · exact one.trans two.symm
    · subst one
      cases replaced.new.symm.trans here
      rw [replaced.others right two] at there
      exact books.lone left right old second replaced.old there (keeps firstOpen) secondOpen
        (fd.symm.trans same)
  · rw [replaced.others left one] at here
    by_cases two : right = index
    · subst two
      cases replaced.new.symm.trans there
      exact books.lone left right first old here replaced.old firstOpen (keeps secondOpen)
        (same.trans fd)
    · rw [replaced.others right two] at there
      exact books.lone left right first second here there firstOpen secondOpen same

/-- No other open socket has the number of an open one. -/
theorem not_elsewhere_open (books : Books attempts opened sets) {fd : Nat}
    (located : attempts[index]? = some old) (holds : old.fd = some fd)
    (open' : old.isOpen = true) :
    ¬ Elsewhere attempts index fun attempt => attempt.fd = some fd ∧ attempt.isOpen = true := by
  rintro ⟨position, attempt, apart, found, same, also⟩
  exact apart (books.lone position index attempt old found located also open'
    (same.trans holds.symm))

theorem not_elsewhere_registered (books : Books attempts opened sets) {fd : Nat}
    (located : attempts[index]? = some old) (holds : old.fd = some fd)
    (open' : old.isOpen = true) (topic : String) :
    ¬ Elsewhere attempts index fun attempt =>
      attempt.topic = topic ∧ attempt.fd = some fd ∧ attempt.registered = true := by
  rintro ⟨position, attempt, apart, found, _, same, registered⟩
  have accounted := books.accounted attempt (List.mem_of_getElem? found)
  exact books.not_elsewhere_open located holds open'
    ⟨position, attempt, apart, found, same, (accounted.registered.mp registered).1⟩

/-- The call moves on. -/
theorem keep (books : Books attempts opened sets)
    (replaced : Replaced attempts after index old new) (accounted : new.Accounted)
    (topic : new.topic = old.topic) (fd : new.fd = old.fd) (isOpen : new.isOpen = old.isOpen)
    (registered : new.registered = old.registered) : Books after opened sets where
  accounted := books.accounted_replaced replaced accounted
  lone := books.lone_replaced replaced fd (isOpen.symm.trans ·)
  opened number := by
    rw [exists_mem_iff_elsewhere replaced.new, replaced.elsewhere, fd, isOpen]
    exact (books.opened number).trans (exists_mem_iff_elsewhere replaced.old _)
  listed name number := by
    rw [exists_mem_iff_elsewhere replaced.new, replaced.elsewhere, topic, fd, registered]
    exact (books.listed name number).trans (exists_mem_iff_elsewhere replaced.old _)

/-- The socket of the call is closed, and leaves its set. -/
theorem close (books : Books attempts opened sets)
    (replaced : Replaced attempts after index old new) (accounted : new.Accounted)
    {number : Nat} (holds : old.fd = some number) (open' : old.isOpen = true)
    (fd : new.fd = old.fd) (closed : new.isOpen = false) :
    Books after (opened.erase number)
      (Function.update sets old.topic ((sets old.topic).erase number)) where
  accounted := books.accounted_replaced replaced accounted
  lone := books.lone_replaced replaced fd fun _ => open'
  opened other := by
    have alone := books.not_elsewhere_open replaced.old holds open'
    rw [exists_mem_iff_elsewhere replaced.new, replaced.elsewhere, Finset.mem_erase,
      books.opened other, exists_mem_iff_elsewhere replaced.old]
    constructor
    · rintro ⟨apart, ⟨same, _⟩ | elsewhere⟩
      · exact absurd (Option.some.inj (same.symm.trans holds)) apart
      · exact .inr elsewhere
    · rintro (⟨_, opens⟩ | elsewhere)
      · cases closed.symm.trans opens
      · refine ⟨fun same => ?_, .inr elsewhere⟩
        subst same
        exact alone elsewhere
  listed topic other := by
    have alone := books.not_elsewhere_registered replaced.old holds open' topic
    have gone : ¬ new.registered = true := fun registered => by
      cases closed.symm.trans (accounted.registered.mp registered).1
    have member := books.listed topic other
    rw [exists_mem_iff_elsewhere replaced.old] at member
    rw [exists_mem_iff_elsewhere replaced.new, replaced.elsewhere]
    constructor
    · intro listed
      by_cases here : topic = old.topic
      · subst here
        rw [Function.update_self, Finset.mem_erase] at listed
        rcases member.mp listed.2 with ⟨_, same, _⟩ | elsewhere
        · exact absurd (Option.some.inj (same.symm.trans holds)) listed.1
        · exact .inr elsewhere
      · rw [Function.update_of_ne here] at listed
        rcases member.mp listed with ⟨same, _⟩ | elsewhere
        · exact absurd same.symm here
        · exact .inr elsewhere
    · rintro (⟨_, _, registered⟩ | elsewhere)
      · exact absurd registered gone
      · have listed := member.mpr (.inr elsewhere)
        by_cases here : topic = old.topic
        · subst here
          rw [Function.update_self, Finset.mem_erase]
          refine ⟨fun same => ?_, listed⟩
          subst same
          exact alone elsewhere
        · rw [Function.update_of_ne here]
          exact listed

/-- The socket of the call is registered. -/
theorem register (books : Books attempts opened sets)
    (replaced : Replaced attempts after index old new) (accounted : new.Accounted)
    {number : Nat} (holds : old.fd = some number) (topic : new.topic = old.topic)
    (fd : new.fd = old.fd) (isOpen : new.isOpen = old.isOpen)
    (registered : new.registered = true) :
    Books after opened
      (Function.update sets old.topic (insert number (sets old.topic))) where
  accounted := books.accounted_replaced replaced accounted
  lone := books.lone_replaced replaced fd (isOpen.symm.trans ·)
  opened other := by
    rw [exists_mem_iff_elsewhere replaced.new, replaced.elsewhere, fd, isOpen]
    exact (books.opened other).trans (exists_mem_iff_elsewhere replaced.old _)
  listed name other := by
    have member := books.listed name other
    rw [exists_mem_iff_elsewhere replaced.old] at member
    rw [exists_mem_iff_elsewhere replaced.new, replaced.elsewhere, topic, fd, holds]
    constructor
    · intro listed
      by_cases here : name = old.topic
      · subst here
        rw [Function.update_self, Finset.mem_insert] at listed
        rcases listed with rfl | listed
        · exact .inl ⟨rfl, rfl, registered⟩
        · rcases member.mp listed with ⟨_, same, _⟩ | elsewhere
          · exact .inl ⟨rfl, holds.symm.trans same, registered⟩
          · exact .inr elsewhere
      · rw [Function.update_of_ne here] at listed
        rcases member.mp listed with ⟨same, _⟩ | elsewhere
        · exact absurd same.symm here
        · exact .inr elsewhere
    · rintro (⟨rfl, same, _⟩ | elsewhere)
      · rw [Function.update_self, Option.some.inj same]
        exact Finset.mem_insert_self ..
      · have listed := member.mpr (.inr elsewhere)
        by_cases here : name = old.topic
        · subst here
          rw [Function.update_self]
          exact Finset.mem_insert_of_mem listed
        · rw [Function.update_of_ne here]
          exact listed

/-- A new call, whose socket is open only if it waits for its connection. -/
theorem append (books : Books attempts opened sets) {attempt : ConnectAttempt}
    (accounted : attempt.Accounted) (free : attempt.registered = false)
    (fresh : ∀ fd ∈ attempt.fd, fd ∉ opened) :
    Books (attempts ++ [attempt])
      (opened ∪ if attempt.isOpen then attempt.fd.toFinset else ∅) sets where
  accounted other member := by
    rcases List.mem_append.mp member with earlier | last
    · exact books.accounted other earlier
    · cases List.mem_singleton.mp last
      exact accounted
  lone left right first second here there firstOpen secondOpen same := by
    have unlike (position : Nat) (other : ConnectAttempt)
        (located : attempts[position]? = some other)
        (opens : other.isOpen = true) (same : other.fd = attempt.fd) : False := by
      obtain ⟨fd, holds⟩ := Option.isSome_iff_exists.mp accounted.socket
      exact fresh fd holds ((books.opened fd).mpr
        ⟨other, List.mem_of_getElem? located, same.trans holds, opens⟩)
    rcases getElem?_concat_eq_some here with earlier | ⟨last, rfl⟩
    · rcases getElem?_concat_eq_some there with also | ⟨_, rfl⟩
      · exact books.lone left right first second earlier also firstOpen secondOpen same
      · exact (unlike left first earlier firstOpen same).elim
    · rcases getElem?_concat_eq_some there with earlier | ⟨final, _⟩
      · exact (unlike right second earlier secondOpen same.symm).elim
      · exact last.trans final.symm
  opened fd := by
    rw [Finset.mem_union, books.opened fd]
    constructor
    · rintro (⟨other, member, facts⟩ | last)
      · exact ⟨other, List.mem_append_left _ member, facts⟩
      · split at last
        · rename_i opens
          exact ⟨attempt, List.mem_append_right _ (List.mem_singleton_self _),
            Option.mem_toFinset.mp last, opens⟩
        · exact absurd last (Finset.notMem_empty fd)
    · rintro ⟨other, member, holds, opens⟩
      rcases List.mem_append.mp member with earlier | last
      · exact .inl ⟨other, earlier, holds, opens⟩
      · cases List.mem_singleton.mp last
        rw [if_pos opens]
        exact .inr (Option.mem_toFinset.mpr holds)
  listed topic fd := by
    rw [books.listed topic fd]
    constructor
    · rintro ⟨other, member, facts⟩
      exact ⟨other, List.mem_append_left _ member, facts⟩
    · rintro ⟨other, member, facts⟩
      rcases List.mem_append.mp member with earlier | last
      · exact ⟨other, earlier, facts⟩
      · cases List.mem_singleton.mp last
        cases free.symm.trans facts.2.2

end Books

/-! ## How a step replaces a call -/

theorem Replaced.modify {attempts : List ConnectAttempt} {index : Nat} {old : ConnectAttempt}
    (located : attempts[index]? = some old) (change : ConnectAttempt → ConnectAttempt) :
    Replaced attempts (attempts.modify index change) index old (change old) where
  old := located
  new := by
    rw [List.getElem?_modify_eq, located]
    rfl
  others position apart := List.getElem?_modify_ne change attempts (Ne.symm apart)

theorem Replaced.map {attempts : List ConnectAttempt} {index : Nat} {old : ConnectAttempt}
    (located : attempts[index]? = some old) {change : ConnectAttempt → ConnectAttempt}
    (same : ∀ position attempt, position ≠ index → attempts[position]? = some attempt →
      change attempt = attempt) :
    Replaced attempts (attempts.map change) index old (change old) where
  old := located
  new := by rw [List.getElem?_map, located, Option.map_some]
  others position apart := by
    rw [List.getElem?_map]
    cases found : attempts[position]? with
    | none => rfl
    | some attempt => rw [Option.map_some, same position attempt apart found]

theorem Replaced.trans {first second third : List ConnectAttempt} {index : Nat}
    {old middle new : ConnectAttempt} (left : Replaced first second index old middle)
    (right : Replaced second third index middle new) : Replaced first third index old new where
  old := left.old
  new := right.new
  others position apart := (right.others position apart).trans (left.others position apart)

namespace Books

variable {attempts : List ConnectAttempt} {opened : Finset Nat} {sets : String → Finset Nat}
  {index : Nat} {old : ConnectAttempt} {fd : Nat}

theorem release_others (books : Books attempts opened sets)
    (located : attempts[index]? = some old) (holds : old.fd = some fd) (open' : old.isOpen = true)
    (position : Nat) (attempt : ConnectAttempt) (apart : position ≠ index)
    (found : attempts[position]? = some attempt) : attempt.release fd = attempt := by
  apply ConnectAttempt.release_of_closed
  intro same
  by_contra opens
  exact books.not_elsewhere_open located holds open'
    ⟨position, attempt, apart, found, same, Bool.eq_true_of_not_eq_false opens⟩

theorem not_holds_others (books : Books attempts opened sets)
    (located : attempts[index]? = some old) (holds : old.fd = some fd) (open' : old.isOpen = true)
    (topic : String) (position : Nat) (attempt : ConnectAttempt) (apart : position ≠ index)
    (found : attempts[position]? = some attempt) : attempt.holds topic fd = false := by
  by_contra held
  exact books.not_elsewhere_registered located holds open' topic
    ⟨position, attempt, apart, found,
      ConnectAttempt.holds_iff.mp (Bool.eq_true_of_not_eq_false held)⟩

/-- The thread gives up its open socket. -/
theorem replaced_giveUp (books : Books attempts opened sets)
    (located : attempts[index]? = some old) (holds : old.fd = some fd) (open' : old.isOpen = true)
    (change : ConnectAttempt → ConnectAttempt) :
    Replaced attempts ((attempts.map (·.release fd)).modify index change) index old
      (change (old.release fd)) :=
  have released := Replaced.map located (books.release_others located holds open')
  released.trans (.modify released.new change)

theorem replaced_writeFailed (books : Books attempts opened sets)
    (located : attempts[index]? = some old) (holds : old.fd = some fd) (open' : old.isOpen = true)
    (topic : String) (change : ConnectAttempt → ConnectAttempt) :
    Replaced attempts
      ((attempts.map fun other => (other.erase topic fd).release fd).modify index change) index old
      (change ((old.erase topic fd).release fd)) := by
  have released : Replaced attempts
      (attempts.map fun other => (other.erase topic fd).release fd) index old
      ((old.erase topic fd).release fd) := by
    apply Replaced.map located
    intro position attempt apart found
    rw [ConnectAttempt.erase_of_not_holds
      (books.not_holds_others located holds open' topic position attempt apart found)]
    exact books.release_others located holds open' position attempt apart found
  exact released.trans (.modify released.new change)

theorem replaced_drop (books : Books attempts opened sets)
    (located : attempts[index]? = some old) (holds : old.fd = some fd) (open' : old.isOpen = true)
    (topic : String) :
    Replaced attempts (attempts.map (·.drop topic fd)) index old (old.drop topic fd) := by
  apply Replaced.map located
  intro position attempt apart found
  rw [ConnectAttempt.drop, if_neg (Bool.eq_false_iff.mp
    (books.not_holds_others located holds open' topic position attempt apart found))]
  exact books.release_others located holds open' position attempt apart found

end Books

namespace ConnectAttempt

theorem Accounted.enter {attempt : ConnectAttempt} (accounted : attempt.Accounted)
    {stage : ConnectStage} (past : attempt.stage ≠ .select) (onward : stage ≠ .select)
    (told : (stage = .write ∨ stage = .ended) ↔
      (attempt.stage = .write ∨ attempt.stage = .ended)) : (attempt.enter stage).Accounted where
  socket := accounted.socket
  future := accounted.future
  closes := accounted.closes
  registered := by
    rw [show (attempt.enter stage).registered = attempt.registered from rfl, accounted.registered]
    exact and_congr_right fun _ => ⟨fun _ => onward, fun _ => past⟩
  waiting waits := absurd waits onward
  past := accounted.past
  values := by
    refine accounted.values.trans ?_
    exact if_congr told.symm rfl rfl

/-- The open socket of a call is closed. -/
theorem Accounted.close {old new : ConnectAttempt} (accounted : old.Accounted)
    (open' : old.isOpen = true) (fd : new.fd = old.fd) (shared : new.shared = old.shared)
    (closes : new.closes = old.closes + 1) (closed : new.isOpen = false)
    (erased : new.registered = false) (onward : new.stage ≠ .select)
    (values : new.values =
      if new.stage = .write ∨ new.stage = .ended then [new.inserted] else []) :
    new.Accounted where
  socket := fd ▸ accounted.socket
  future := shared.trans accounted.future
  closes := by
    rw [closes, accounted.closes, open', closed]
    rfl
  registered := by
    rw [erased, closed]
    exact ⟨nofun, nofun⟩
  waiting waits := absurd waits onward
  past registered := by cases erased.symm.trans registered
  values := values

theorem connectAttempt_fd (topic : String) (calls : ConnectCalls) :
    (connectAttempt topic calls).fd = calls.socket := by
  have attempted := connectAttempt_cases topic calls
  generalize connectAttempt topic calls = attempt at attempted ⊢
  cases attempted with
  | noSocket socket => exact socket.symm
  | blocking socket => exact socket.symm
  | noAddress socket => exact socket.symm
  | connected socket => exact socket.symm
  | failed socket => exact socket.symm
  | unnamed socket => exact socket.symm
  | null socket => exact socket.symm
  | waiting socket => exact socket.symm

theorem getSocketInfo_of_fits {sockname : Option SockaddrIn}
    (fits : (sockname.any fun addr => addr.sinAddr.dotted.length < 15) = true) :
    getSocketInfo sockname ≠ .failed ∧ getSocketInfo sockname ≠ .null := by
  cases sockname with
  | none => cases fits
  | some addr =>
      rw [Option.any_some, decide_eq_true_eq] at fits
      simp only [getSocketInfo, inetNtop, if_pos fits]
      exact ⟨nofun, nofun⟩

theorem connectAttempt_accounted {sockets : ClientSockets} {topic : String} {calls : ConnectCalls}
    (clean : sockets.Clean (.addClient topic calls)) :
    (connectAttempt topic calls).Accounted ∧
      (connectAttempt topic calls).registered = false := by
  obtain ⟨given, nonblock, progress⟩ := clean
  have attempted := connectAttempt_cases topic calls
  generalize connectAttempt topic calls = attempt at attempted ⊢
  cases attempted with
  | noSocket socket =>
      rw [socket] at given
      cases given
  | blocking _ blocking => cases blocking.symm.trans nonblock
  | noAddress => exact ⟨⟨rfl, rfl, rfl, ⟨nofun, nofun⟩, nofun, nofun, rfl⟩, rfl⟩
  | connected _ _ address connected => exact absurd connected (progress address).1
  | failed => exact ⟨⟨rfl, rfl, rfl, ⟨nofun, nofun⟩, nofun, nofun, rfl⟩, rfl⟩
  | unnamed _ _ address connect name =>
      exact absurd name (getSocketInfo_of_fits ((progress address).2 connect)).1
  | null _ _ address connect name =>
      exact absurd name (getSocketInfo_of_fits ((progress address).2 connect)).2
  | waiting =>
      exact ⟨⟨rfl, rfl, rfl, ⟨nofun, fun waits => absurd rfl waits.2⟩, fun _ => rfl, nofun, rfl⟩,
        rfl⟩

end ConnectAttempt

/-! ## Writes that do not fail -/

theorem writeLoop_ok {fd : Nat} {toSend : List UInt8} {siz n : Int} {results : List WriteResult}
    {kernel : Kernel} {final : WriteLoopEnd}
    (good : results.all (fun result => !result.failing) = true)
    (looped : writeLoop fd toSend siz results n kernel = some final) : final.ok = true := by
  induction results generalizing n kernel final with
  | nil =>
      simp only [writeLoop] at looped
      split at looped
      · cases looped
      · cases looped
        rfl
  | cons result results ih =>
      rw [List.all_cons, Bool.and_eq_true] at good
      simp only [writeLoop] at looped
      split at looped
      · cases wrote : kernel.write fd ((toSend.drop (siz - n).toNat).take n.toNat) result with
        | none =>
            rw [wrote] at looped
            cases looped
        | some outcome =>
            obtain ⟨nwrite, next⟩ := outcome
            simp only [wrote] at looped
            split at looped
            · rename_i fails
              -- only an error returns -1, and its `errno` is then the one tested
              cases result with
              | accepted count =>
                  obtain ⟨_, rfl, _⟩ := Kernel.write_accepted wrote
                  omega
              | error errno =>
                  obtain ⟨_, rfl⟩ := Kernel.write_error wrote
                  have spared := good.1
                  simp only [WriteResult.failing, Bool.not_eq_true', bne_eq_false_iff_eq] at spared
                  exact absurd spared fails.2.2
            · split at looped
              · cases looped
                rfl
              · obtain ⟨tail, rest, rfl⟩ := Option.map_eq_some_iff.mp looped
                have kept : tail.ok = true := ih good.2 rest
                exact kept
      · cases looped
        rfl

theorem Publishing.writeFd_ok {state : Publishing} {topic : String} {fd : Nat}
    {results : List WriteResult} {written : Publishing.Written}
    (good : results.all (fun result => !result.failing) = true)
    (wrote : state.writeFd topic fd results = some written) : written.ok = true := by
  unfold Publishing.writeFd at wrote
  split at wrote
  · cases wrote
  · obtain ⟨final, looped, rfl⟩ := Option.map_eq_some_iff.mp wrote
    exact writeLoop_ok good looped

/-! ## Runs -/

namespace ClientSockets

/-- The sockets of a publisher while all goes well. -/
structure Ledger (sockets : ClientSockets) : Prop where
  roomy : sockets.Roomy
  books : Books sockets.attempts sockets.publishing.kernel.opened
    sockets.publishing.client.clientsTopicFd
  looped : ∀ loop ∈ sockets.loop, ∀ fd ∈ loop.fds,
    fd ∈ sockets.publishing.client.clientsTopicFd loop.topic

theorem Ledger.settled {sockets : ClientSockets} (ledger : sockets.Ledger)
    (bounded : sockets.overrun = false) : sockets.Settled where
  unhalted := by
    rw [halted, ledger.roomy.inside, bounded]
    rfl
  calls attempt member := (ledger.books.accounted attempt member).settled
  opened := ledger.books.opened
  listed := ledger.books.listed

/-- No thread sets a bit that its `fd_set` lacks. -/
theorem overrun_of_step {sockets next : ClientSockets} {action : SocketAction}
    (clean : sockets.Clean action) (stepped : sockets.step action = some next) :
    next.overrun = false := by
  obtain ⟨running, stepped⟩ := step_cases stepped
  have bounded : sockets.overrun = false := (Bool.or_eq_false_iff.mp running).2
  cases stepped with
  | overrun thread far => exact absurd (clean.1 _ thread.threadAt) (Nat.not_lt.mpr far)
  | _ => exact bounded

namespace Ledger

variable {sockets : ClientSockets} {index : Nat} {stage : ConnectStage} {attempt : ConnectAttempt}
  {fd : Nat}

theorem accounted (ledger : sockets.Ledger) (thread : sockets.Thread index stage attempt fd) :
    attempt.Accounted :=
  ledger.books.accounted attempt (List.mem_of_getElem? thread.located)

theorem fits (ledger : sockets.Ledger) (thread : sockets.Thread index stage attempt fd) :
    attempt.Fits sockets.size :=
  ledger.roomy.fits attempt (List.mem_of_getElem? thread.located)

/-- A thread that waits for its connection has an open socket and has told nothing. -/
theorem waiting (ledger : sockets.Ledger) (thread : sockets.Thread index .select attempt fd) :
    attempt.isOpen = true ∧ attempt.registered = false ∧ attempt.inserted = false ∧
      attempt.values = [] := by
  have accounted := ledger.accounted thread
  refine ⟨accounted.waiting thread.stage, ?_, (ledger.fits thread).waiting thread.stage, ?_⟩
  · by_contra registered
    exact (accounted.registered.mp (Bool.eq_true_of_not_eq_false registered)).2 thread.stage
  · rw [accounted.values, thread.stage]
    rfl

/-- The thread goes on, its socket stays as it is. -/
theorem keep {next : ClientSockets} (ledger : sockets.Ledger) (roomy : next.Roomy)
    (thread : sockets.Thread index stage attempt fd)
    {change : ConnectAttempt → ConnectAttempt}
    (moved : next.attempts = sockets.attempts.modify index change)
    (accounted : (change attempt).Accounted)
    (topic : (change attempt).topic = attempt.topic) (same : (change attempt).fd = attempt.fd)
    (isOpen : (change attempt).isOpen = attempt.isOpen)
    (registered : (change attempt).registered = attempt.registered)
    (opened : next.publishing.kernel.opened = sockets.publishing.kernel.opened)
    (sets : next.publishing.client.clientsTopicFd = sockets.publishing.client.clientsTopicFd)
    (loop : next.loop = sockets.loop) : next.Ledger where
  roomy := roomy
  books := by
    rw [moved, opened, sets]
    exact ledger.books.keep (.modify thread.located change) accounted topic same isOpen registered
  looped := by
    rw [loop, sets]
    exact ledger.looped

/-- Nothing but data changes, and the loop may go on. -/
theorem same {next : ClientSockets} (ledger : sockets.Ledger) (roomy : next.Roomy)
    (attempts : next.attempts = sockets.attempts)
    (opened : next.publishing.kernel.opened = sockets.publishing.kernel.opened)
    (sets : next.publishing.client.clientsTopicFd = sockets.publishing.client.clientsTopicFd)
    (looped : ∀ loop ∈ next.loop, ∀ fd ∈ loop.fds,
      fd ∈ sockets.publishing.client.clientsTopicFd loop.topic) : next.Ledger where
  roomy := roomy
  books := by
    rw [attempts, opened, sets]
    exact ledger.books
  looped := by
    rw [sets]
    exact looped

theorem addClient (ledger : sockets.Ledger) {topic : String} {calls : ConnectCalls}
    (clean : sockets.Clean (.addClient topic calls))
    (fresh : sockets.Fresh (.addClient topic calls)) : (sockets.addClient topic calls).Ledger where
  roomy := ledger.roomy.addClient topic calls
  books := by
    obtain ⟨accounted, free⟩ := ConnectAttempt.connectAttempt_accounted clean
    refine ledger.books.append accounted free fun fd holds => ?_
    rw [ConnectAttempt.connectAttempt_fd] at holds
    exact fresh fd holds
  looped := ledger.looped

theorem giveUp (ledger : sockets.Ledger) (thread : sockets.Thread index .select attempt fd)
    (roomy : (sockets.giveUp index fd).Roomy) : (sockets.giveUp index fd).Ledger where
  roomy := roomy
  books := by
    obtain ⟨open', free, uninserted, silent⟩ := ledger.waiting thread
    have released : attempt.release fd = { attempt with isOpen := false } := if_pos thread.fd
    have closed := ledger.books.close
      (ledger.books.replaced_giveUp thread.located thread.fd open' fun attempt =>
        (attempt.close.setValue false).enter .ended)
      ((ledger.accounted thread).close open' (by rw [released]; rfl) (by rw [released]; rfl)
        (by rw [released]; rfl) rfl (by rw [released]; exact free) nofun (by
          rw [released]
          show attempt.values ++ [false] = [attempt.inserted]
          rw [silent, uninserted]
          rfl))
      thread.fd open' (by rw [released]; rfl) rfl
    -- the socket is in no set yet
    have absent : fd ∉ sockets.publishing.client.clientsTopicFd attempt.topic := by
      intro listed
      rcases (exists_mem_iff_elsewhere thread.located _).mp
        ((ledger.books.listed attempt.topic fd).mp listed) with ⟨_, _, registered⟩ | elsewhere
      · cases free.symm.trans registered
      · exact ledger.books.not_elsewhere_registered thread.located thread.fd open' _ elsewhere
    rw [Finset.erase_eq_of_notMem absent, Function.update_eq_self] at closed
    exact closed
  looped := ledger.looped

theorem register (ledger : sockets.Ledger) (thread : sockets.Thread index .select attempt fd)
    {next : ClientSockets} (roomy : next.Roomy)
    (moved : next = (sockets.update (sockets.publishing.insertFd attempt.topic fd)).modify index
      fun attempt => attempt.register.enter .resize) : next.Ledger := by
  obtain ⟨open', free, _, silent⟩ := ledger.waiting thread
  have accounted := ledger.accounted thread
  subst moved
  refine ⟨roomy, ?_, ?_⟩
  · refine ledger.books.register (.modify thread.located fun attempt =>
      attempt.register.enter .resize) ?_ thread.fd rfl rfl rfl rfl
    exact ⟨accounted.socket, accounted.future, accounted.closes,
      ⟨fun _ => ⟨open', nofun⟩, fun _ => rfl⟩, nofun, fun _ => rfl, silent⟩
  · intro loop held other member
    have listed := ledger.looped loop held other member
    show other ∈ Function.update sockets.publishing.client.clientsTopicFd attempt.topic
      (insert fd (sockets.publishing.client.clientsTopicFd attempt.topic)) loop.topic
    by_cases here : loop.topic = attempt.topic
    · rw [here] at listed ⊢
      rw [Function.update_self]
      exact Finset.mem_insert_of_mem listed
    · rw [Function.update_of_ne here]
      exact listed

theorem writeFailed (ledger : sockets.Ledger) (thread : sockets.Thread index .write attempt fd)
    {errno : Int} {results : List WriteResult} {written : Publishing.Written}
    (clean : sockets.Clean (.write index errno results)) (idle : sockets.loop = none)
    (wrote : (sockets.publishing.withErrno errno).writeFd attempt.topic fd results = some written)
    (failed : written.ok = false) {next : ClientSockets} (roomy : next.Roomy)
    (moved : next = ((sockets.update written.state).each fun other =>
      (other.erase attempt.topic fd).release fd).modify index fun attempt =>
        attempt.close.enter .ended) : next.Ledger := by
  have accounted := ledger.accounted thread
  have spec := Publishing.writeFd_spec wrote
  -- a socket that is closed already would make the write fail on it
  have open' : attempt.isOpen = true := by
    rcases clean attempt thread.located with open' | good
    · exact open'
    · cases failed.symm.trans (Publishing.writeFd_ok good wrote)
  have registered : attempt.registered = true :=
    accounted.registered.mpr ⟨open', by rw [thread.stage]; decide⟩
  have erased : (attempt.erase attempt.topic fd).release fd =
      { attempt with registered := false, isOpen := false } := by
    have held : attempt.holds attempt.topic fd = true :=
      ConnectAttempt.holds_iff.mpr ⟨rfl, thread.fd, registered⟩
    rw [ConnectAttempt.erase, if_pos held, ConnectAttempt.release, if_pos thread.fd]
  have told : attempt.values = [attempt.inserted] := by
    rw [accounted.values, thread.stage]
    rfl
  subst moved
  refine ⟨roomy, ?_, ?_⟩
  · have closed := ledger.books.close
      (ledger.books.replaced_writeFailed thread.located thread.fd open' attempt.topic
        fun attempt => attempt.close.enter .ended)
      (accounted.close open' (by rw [erased]; rfl) (by rw [erased]; rfl) (by rw [erased]; rfl) rfl
        (by rw [erased]; rfl) nofun (by rw [erased]; exact told))
      thread.fd open' (by rw [erased]; rfl) rfl
    show Books _ written.state.kernel.opened written.state.client.clientsTopicFd
    rw [(spec.dropped failed).1, (spec.dropped failed).2]
    exact closed
  · intro loop held
    cases idle.symm.trans held

theorem nextFailed (ledger : sockets.Ledger) {topic : String} {msg : List UInt8} {fds : List Nat}
    (held : sockets.loop = some ⟨topic, msg, fd :: fds⟩) {data : List UInt8}
    {results : List WriteResult} {written : Publishing.Written}
    (wrote : (sockets.publishing.append fd data msg).writeFd topic fd results = some written)
    (failed : written.ok = false) {next : ClientSockets} (roomy : next.Roomy)
    (moved : next = { (sockets.update written.state).each (·.drop topic fd) with loop := none }) :
    next.Ledger := by
  have spec := Publishing.writeFd_spec wrote
  obtain ⟨attempt, member, rfl, holds, registered⟩ :=
    (ledger.books.listed topic fd).mp (ledger.looped _ held fd List.mem_cons_self)
  obtain ⟨index, located⟩ := List.mem_iff_getElem?.mp member
  have accounted := ledger.books.accounted attempt member
  obtain ⟨open', past⟩ := accounted.registered.mp registered
  have dropped : attempt.drop attempt.topic fd =
      { attempt with registered := false, closes := attempt.closes + 1, isOpen := false } := by
    have held : attempt.holds attempt.topic fd = true :=
      ConnectAttempt.holds_iff.mpr ⟨rfl, holds, registered⟩
    rw [ConnectAttempt.drop, if_pos held, ConnectAttempt.erase, if_pos held]
    rfl
  subst moved
  refine ⟨roomy, ?_, nofun⟩
  have closed := ledger.books.close
    (ledger.books.replaced_drop located holds open' attempt.topic)
    (accounted.close open' (by rw [dropped]) (by rw [dropped]) (by rw [dropped])
      (by rw [dropped]) (by rw [dropped]) (by rw [dropped]; exact past)
      (by rw [dropped]; exact accounted.values))
    holds open' (by rw [dropped]) (by rw [dropped])
  show Books _ written.state.kernel.opened written.state.client.clientsTopicFd
  rw [(spec.dropped failed).1, (spec.dropped failed).2]
  exact closed

theorem step {next : ClientSockets} {action : SocketAction} (ledger : sockets.Ledger)
    (clean : sockets.Clean action) (fresh : sockets.Fresh action)
    (reach : sockets.InReach action) (stepped : sockets.step action = some next) :
    next.Ledger := by
  have roomy := ledger.roomy.step reach stepped
  obtain ⟨_, stepped⟩ := step_cases stepped
  cases stepped with
  | addClient => exact ledger.addClient clean fresh
  | overrun => exact ledger.same roomy rfl rfl rfl ledger.looped
  | giveUp thread => exact ledger.giveUp thread roomy
  | unread thread => cases clean.2 rfl
  | register thread => exact ledger.register thread roomy rfl
  | resize thread =>
      have accounted := ledger.accounted thread
      refine ledger.keep roomy thread rfl (accounted.enter ?_ nofun ?_) rfl rfl rfl rfl rfl rfl rfl
      · rw [thread.stage]
        decide
      · rw [thread.stage]
        decide
  | assign thread inside =>
      have accounted := ledger.accounted thread
      refine ledger.keep roomy thread rfl (accounted.enter ?_ nofun ?_) rfl rfl rfl rfl rfl rfl rfl
      · rw [thread.stage]
        decide
      · rw [thread.stage]
        decide
  | @notify index attempt fd thread =>
      have accounted := ledger.accounted thread
      have silent : attempt.values = [] := by
        rw [accounted.values, thread.stage]
        rfl
      have inserted := (ledger.fits thread).inserted_of_stage thread.stage nofun nofun
      refine ledger.keep roomy thread rfl ?_ rfl rfl rfl rfl rfl rfl rfl
      refine ⟨accounted.socket, accounted.future, accounted.closes, ?_, nofun, accounted.past, ?_⟩
      · refine accounted.registered.trans (and_congr_right fun _ => ⟨nofun, fun _ => ?_⟩)
        rw [thread.stage]
        decide
      · show attempt.values ++ [true] = [attempt.inserted]
        rw [silent, inserted]
        rfl
  | write idle thread wrote good =>
      have accounted := ledger.accounted thread
      have spec := Publishing.writeFd_spec wrote
      refine ledger.keep roomy thread rfl (accounted.enter ?_ nofun ?_) rfl rfl rfl rfl
        (spec.kept good).2 (spec.kept good).1 rfl
      · rw [thread.stage]
        decide
      · rw [thread.stage]
        decide
  | writeFailed idle thread wrote failed =>
      exact ledger.writeFailed thread clean idle wrote failed roomy rfl
  | assignOutside | writeOutside | nextOutside => cases roomy.inside
  | writeToSocket _ members =>
      refine ledger.same roomy rfl rfl rfl fun loop held fd member => ?_
      cases held
      exact members ▸ List.mem_toFinset.mpr member
  | finish => exact ledger.same roomy rfl rfl rfl nofun
  | skip held =>
      refine ledger.same roomy rfl rfl rfl fun loop same fd member => ?_
      cases same
      exact ledger.looped _ held fd (List.mem_cons_of_mem _ member)
  | next held wrote good =>
      have spec := Publishing.writeFd_spec wrote
      refine ledger.same roomy rfl (spec.kept good).2 (spec.kept good).1
        fun loop same fd member => ?_
      cases same
      exact ledger.looped _ held fd (List.mem_cons_of_mem _ member)
  | nextFailed held wrote failed => exact ledger.nextFailed held wrote failed roomy rfl
  | writeToCache => exact ledger.same roomy rfl rfl rfl ledger.looped

theorem initial : ClientSockets.initial.Ledger where
  roomy := roomy_initial
  books := {
    accounted := fun _ member => absurd member List.not_mem_nil
    lone := fun _ _ _ _ here => by cases here
    opened := fun fd => by
      refine ⟨fun member => absurd member (Finset.notMem_empty fd), ?_⟩
      rintro ⟨_, member, _⟩
      cases member
    listed := fun topic fd => by
      refine ⟨fun member => absurd member (Finset.notMem_empty fd), ?_⟩
      rintro ⟨_, member, _⟩
      cases member }
  looped loop held := by cases held

end Ledger

/-- In every run whose calls take clean exits and whose descriptors are in reach, no access goes
wrong, each socket is closed once or registered, and each future tells once which. -/
theorem settled_of_clean {run : List SocketAction}
    (clean : freshMachine.Obeys (fun sockets action => sockets.Clean action ∧
      sockets.InReach action) initial run) : freshMachine.Along Settled initial run := by
  have ledger : freshMachine.Along (fun sockets => sockets.Ledger ∧ sockets.overrun = false)
      initial run := by
    refine freshMachine.along_of_obeys (fun sockets action next kept allowed stepped => ?_)
      ⟨Ledger.initial, rfl⟩ clean
    obtain ⟨fresh, stepped⟩ := Option.ite_none_right_eq_some.mp stepped
    exact ⟨kept.1.step allowed.1 fresh allowed.2 stepped, overrun_of_step allowed.1 stepped⟩
  exact ledger.mono fun _ kept => kept.1.settled kept.2

/-- One descriptor for three calls: a connection that fails, one that a later write closes, and
one that stays. -/
def reused : List SocketAction :=
  [.addClient "bumper" (NodeSockets.connecting 7 40000), .select 0 true (some 111),
    .addClient "bumper" (NodeSockets.connecting 7 40001), .select 1 true (some 0), .resize 1,
    .assign 1 [], .notify 1, .write 1 0 [], .writeToSocket "bumper" [1, 2] [7] 0,
    .writeNext [.error 32],
    .addClient "bumper" (NodeSockets.connecting 7 40002), .select 2 true (some 0), .resize 2,
    .assign 2 [], .notify 2, .write 2 0 []]

theorem settled_of_clean_reused : freshMachine.Along Settled initial reused ∧
    (freshMachine.exec initial reused).map (fun sockets => sockets.attempts.map fun attempt =>
      (attempt.closes, attempt.registered, attempt.values)) =
        some [(1, false, [false]), (1, false, [true]), (0, true, [true])] :=
  ⟨settled_of_clean (by decide +kernel), by decide +kernel⟩

/-- `getsockname` fails: `get_socket_info` closes the socket, and so does `add_client`. -/
def closedTwice : List SocketAction :=
  [.addClient "bumper" { NodeSockets.connecting 7 40000 with getsockname := none }]

theorem closedTwice_not_settled : ¬ freshMachine.Along Settled initial closedTwice := by
  intro along
  have evaluated : (freshMachine.exec initial closedTwice).map (fun sockets =>
      sockets.attempts.map ConnectAttempt.closes) = some [2] := by
    decide +kernel
  obtain ⟨final, executed, closes⟩ := Option.map_eq_some_iff.mp evaluated
  obtain ⟨attempt, same, twice⟩ := List.map_eq_singleton_iff.mp closes
  have once := ((along.final executed).calls attempt (same ▸ List.mem_singleton_self _)).once
  omega

end ClientSockets

end ProtoCore.Topic
