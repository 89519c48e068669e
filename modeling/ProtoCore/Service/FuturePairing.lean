import Mathlib.Data.Nat.Basic
import Mathlib.Order.Basic
import ProtoCore.Library.Machine
import ProtoCore.Service.ServiceClient

/-!
# Requests and futures

`request` writes first and takes the future of the promise last. If the reader stays
idle in between, the k-th request gets the k-th final reply; otherwise the promise it
was meant to wait on has already been replaced.
-/

set_option autoImplicit false

namespace ProtoCore.Service

open Library

variable {Request Reply : Type}

/-- The reader handles a final reply, or the end of the stream. -/
def ClientAction.Ends : ClientAction Request Reply → Prop
  | .receive reply => reply.status.isFinal
  | .close => True
  | _ => False

instance (action : ClientAction Request Reply) : Decidable action.Ends := by
  cases action <;> unfold ClientAction.Ends <;> infer_instance

namespace ServiceClient

/-- What completes the `k`-th future, once it has come. -/
def expected (client : ServiceClient Request Reply) (k : Nat) : List (Outcome Reply) :=
  match client.finals[k]? with
  | some reply => [.value reply]
  | none => if client.reading then [] else [.streamClose]

/-- Each successful `request` has returned a future, which is completed with its own reply
or the end of the stream, once and no earlier; and when all futures are completed, the
client may send again. -/
structure Paired (client : ServiceClient Request Reply) : Prop where
  returned : client.user ≠ .requestSent → client.user ≠ .requestFuture →
    client.futures.length = client.sent.length
  completed : ∀ k future, client.futures[k]? = some future →
    client.completions future = client.expected k
  released : client.user ≠ .requestFuture →
    (∀ future ∈ client.futures, client.completions future ≠ []) → client.requested = false

/-- The server answers each request at most once. -/
def Answerable (client : ServiceClient Request Reply) : ClientAction Request Reply → Prop
  | .receive reply => reply.status.isFinal → client.finals.length < client.sent.length
  | _ => True

instance (client : ServiceClient Request Reply) (action : ClientAction Request Reply) :
    Decidable (client.Answerable action) := by
  cases action <;> unfold Answerable <;> infer_instance

def conversation : Machine (ServiceClient Request Reply) (ClientAction Request Reply) where
  step client action := if client.Answerable action then client.step action else none

/-- The reader ends no call while `request` stands between its write and its future. -/
def Unhurried (client : ServiceClient Request Reply) (action : ClientAction Request Reply) :
    Prop :=
  action.Ends → client.user ≠ .requestSent ∧ client.user ≠ .requestFuture

/-! ## The invariant -/

def Settled (client : ServiceClient Request Reply) : Prop :=
  client.requested = false ∧ client.retrieved = false ∧
    client.futures.length = client.finals.length

def Waiting (client : ServiceClient Request Reply) : Prop :=
  client.requested = true ∧ client.retrieved = true ∧
    client.futures.length = client.finals.length + 1

/-- Where the user's call stands, while the stream is open. -/
def Progress (client : ServiceClient Request Reply) : Prop :=
  match client.user with
  | .requestWrite _ => client.Settled ∧ client.sent.length = client.futures.length
  | .requestSent => client.Settled ∧ client.sent.length = client.futures.length + 1
  | .requestFuture =>
      client.requested = true ∧ client.retrieved = false ∧
        client.futures.length = client.finals.length ∧
        client.sent.length = client.futures.length + 1
  | _ => (client.Settled ∨ client.Waiting) ∧ client.sent.length = client.futures.length

structure Matched (client : ServiceClient Request Reply) : Prop where
  futures : client.futures = List.range client.futures.length
  promise : client.replyPromise = client.finals.length + if client.reading then 0 else 1
  fresh : ∀ k, client.replyPromise ≤ k → client.completions k = []
  completed : ∀ k < client.futures.length, client.completions k = client.expected k
  connected : client.connected = client.reading
  progress : client.reading = true → client.Progress
  ended : client.reading = false → client.requested = false ∧ client.user ≠ .requestSent ∧
    client.user ≠ .requestFuture ∧ client.sent.length = client.futures.length

theorem opened_matched : (opened : ServiceClient Request Reply).Matched where
  futures := rfl
  promise := rfl
  fresh _ _ := rfl
  completed _ inside := absurd inside (Nat.not_lt_zero _)
  connected := rfl
  progress _ := ⟨.inl ⟨rfl, rfl, rfl⟩, rfl⟩
  ended := nofun

/-- A future is completed exactly once its reply has come or the stream has ended. -/
theorem expected_eq_nil {client : ServiceClient Request Reply} {k : Nat} :
    client.expected k = [] ↔ client.finals.length ≤ k ∧ client.reading = true := by
  unfold expected
  split
  · rename_i found
    have inside := (List.getElem?_eq_some_iff.mp found).1
    simp only [List.cons_ne_nil, false_iff]
    omega
  · rename_i missing
    have outside := List.getElem?_eq_none_iff.mp missing
    cases client.reading with
    | true => simpa using outside
    | false => simp

theorem Matched.paired {client : ServiceClient Request Reply} (matched : client.Matched) :
    client.Paired := by
  have located : ∀ {k future}, client.futures[k]? = some future →
      k < client.futures.length ∧ future = k := by
    intro k future found
    rw [matched.futures] at found
    obtain ⟨inside, same⟩ := List.getElem?_eq_some_iff.mp found
    rw [List.getElem_range] at same
    exact ⟨by simpa using inside, same.symm⟩
  refine ⟨fun notSent notFuture => ?_, fun k future found => ?_, fun notFuture all => ?_⟩
  · cases reading : client.reading with
    | false => exact (matched.ended reading).2.2.2.symm
    | true =>
        have progress := matched.progress reading
        unfold Progress at progress
        split at progress
        · exact progress.2.symm
        · contradiction
        · contradiction
        · exact progress.2.symm
  · obtain ⟨inside, rfl⟩ := located found
    exact matched.completed _ inside
  · cases reading : client.reading with
    | false => exact (matched.ended reading).1
    | true =>
        have progress := matched.progress reading
        have notWaiting : ¬ client.Waiting := by
          intro waiting
          obtain ⟨_, _, longer⟩ := waiting
          have inside : client.finals.length < client.futures.length := by omega
          have listed : client.finals.length ∈ client.futures := by
            rw [matched.futures]
            exact List.mem_range.mpr inside
          refine all _ listed ?_
          rw [matched.completed _ inside]
          exact expected_eq_nil.mpr ⟨le_rfl, reading⟩
        unfold Progress at progress
        split at progress
        · exact progress.1.1
        · exact progress.1.1
        · contradiction
        · exact (progress.1.resolve_right notWaiting).1

/-! ## Steps -/

theorem Matched.move {client : ServiceClient Request Reply} (matched : client.Matched)
    (user : UserStep Request) (status : ServiceCallStatus)
    (progress : client.reading = true →
      ({ client with user := user, status := status } : ServiceClient Request Reply).Progress)
    (notSent : client.reading = false → user ≠ .requestSent ∧ user ≠ .requestFuture) :
    ({ client with user := user, status := status } : ServiceClient Request Reply).Matched where
  futures := matched.futures
  promise := matched.promise
  fresh := matched.fresh
  completed := matched.completed
  connected := matched.connected
  progress := progress
  ended closed :=
    ⟨(matched.ended closed).1, (notSent closed).1, (notSent closed).2, (matched.ended closed).2.2.2⟩

theorem Matched.request {client next : ServiceClient Request Reply} {payload : Request}
    (matched : client.Matched) (stepped : client.request payload = some next) : next.Matched := by
  unfold ServiceClient.request at stepped
  split at stepped
  · rename_i idle
    split at stepped
    · cases stepped
      exact matched
    · rename_i allowed
      simp only [Bool.or_eq_true, Bool.not_eq_true', not_or, Bool.not_eq_false,
        Bool.not_eq_true] at allowed
      cases stepped
      refine matched.move _ _ (fun reading => ?_) (fun _ => ⟨nofun, nofun⟩)
      have progress := matched.progress reading
      simp only [Progress, idle] at progress
      refine ⟨progress.1.resolve_right fun waiting => ?_, progress.2⟩
      exact absurd (waiting.1.symm.trans allowed.2) nofun
  · cases stepped

theorem Matched.cancel {client next : ServiceClient Request Reply}
    (matched : client.Matched) (stepped : client.cancel = some next) : next.Matched := by
  unfold ServiceClient.cancel at stepped
  split at stepped
  · rename_i idle
    split at stepped
    · cases stepped
      exact matched
    · cases stepped
      refine matched.move _ _ (fun reading => ?_) (fun _ => ⟨nofun, nofun⟩)
      have progress := matched.progress reading
      simp only [Progress, idle] at progress
      exact progress
  · cases stepped

theorem Matched.write {client next : ServiceClient Request Reply} {ok : Bool}
    (matched : client.Matched) (stepped : client.write ok = some next) : next.Matched := by
  unfold ServiceClient.write at stepped
  split at stepped
  · cases stepped
  · rename_i live
    simp only [Bool.and_eq_true, Bool.not_eq_true', not_and, Bool.not_eq_false] at live
    split at stepped
    · rename_i request writing
      split at stepped
      · rename_i good
        have progress := matched.progress (live good)
        simp only [Progress, writing] at progress
        cases stepped
        refine ⟨matched.futures, matched.promise, matched.fresh, matched.completed,
          matched.connected, fun _ => ⟨progress.1, ?_⟩, fun closed => ?_⟩
        · simpa using progress.2
        · exact absurd ((live good).symm.trans closed) nofun
      · cases stepped
        refine matched.move _ _ (fun reading => ?_) (fun _ => ⟨nofun, nofun⟩)
        have progress := matched.progress reading
        simp only [Progress, writing] at progress
        exact ⟨.inl progress.1, progress.2⟩
    · rename_i writing
      cases stepped
      refine matched.move _ _ (fun reading => ?_) (fun _ => ?_)
      · have progress := matched.progress reading
        simp only [Progress, writing] at progress
        cases ok <;> exact progress
      · cases ok <;> exact ⟨nofun, nofun⟩
    · cases stepped

theorem Matched.userStep {client next : ServiceClient Request Reply}
    (matched : client.Matched) (stepped : client.userStep = some next) : next.Matched := by
  unfold ServiceClient.userStep at stepped
  split at stepped
  · rename_i sent
    have reading : client.reading = true := by
      by_contra closed
      exact (matched.ended (by simpa using closed)).2.1 sent
    have progress := matched.progress reading
    simp only [Progress, sent] at progress
    cases stepped
    refine ⟨matched.futures, matched.promise, matched.fresh, matched.completed,
      matched.connected, fun _ => ?_, fun closed => absurd (reading.symm.trans closed) nofun⟩
    exact ⟨rfl, progress.1.2.1, progress.1.2.2, progress.2⟩
  · rename_i taking
    have reading : client.reading = true := by
      by_contra closed
      exact (matched.ended (by simpa using closed)).2.2.1 taking
    have progress := matched.progress reading
    simp only [Progress, taking] at progress
    obtain ⟨requested, unretrieved, balanced, longer⟩ := progress
    rw [if_neg (by simp [unretrieved])] at stepped
    have current : client.replyPromise = client.futures.length := by
      rw [matched.promise, reading, balanced]
      rfl
    cases stepped
    refine ⟨?_, matched.promise, matched.fresh, fun k inside => ?_, matched.connected,
      fun _ => ⟨.inr ⟨requested, rfl, ?_⟩, ?_⟩,
      fun closed => absurd (reading.symm.trans closed) nofun⟩
    · simp only [current, List.length_append, List.length_singleton, List.range_succ]
      rw [← matched.futures]
    · simp only [List.length_append, List.length_singleton] at inside
      rcases Nat.lt_succ_iff_lt_or_eq.mp inside with earlier | rfl
      · exact matched.completed k earlier
      · refine (matched.fresh _ current.le).trans (Eq.symm ?_)
        exact expected_eq_nil.mpr ⟨balanced.ge, reading⟩
    · simpa using balanced
    · simpa using longer
  · rename_i joining
    split at stepped
    · cases stepped
    · rename_i ended
      cases stepped
      exact matched.move _ _ (fun reading => absurd reading ended) (fun _ => ⟨nofun, nofun⟩)
  · cases stepped

theorem Settled.progress {client : ServiceClient Request Reply} (settled : client.Settled)
    (sent : client.sent.length = client.futures.length) (notSent : client.user ≠ .requestSent)
    (notFuture : client.user ≠ .requestFuture) : client.Progress := by
  unfold Progress
  split
  · exact ⟨settled, sent⟩
  · contradiction
  · contradiction
  · exact ⟨.inl settled, sent⟩

/-- Between calls, or before the write of one, all earlier requests have their futures. -/
theorem Matched.balance {client : ServiceClient Request Reply} (matched : client.Matched)
    (reading : client.reading = true) (notSent : client.user ≠ .requestSent)
    (notFuture : client.user ≠ .requestFuture) :
    client.sent.length = client.futures.length ∧ (client.Settled ∨ client.Waiting) := by
  have progress := matched.progress reading
  unfold Progress at progress
  split at progress
  · exact ⟨progress.2, .inl progress.1⟩
  · contradiction
  · contradiction
  · exact ⟨progress.2, progress.1⟩

theorem Matched.receive {client next : ServiceClient Request Reply}
    {reply : ServiceRPCReply Reply} (matched : client.Matched)
    (answerable : client.Answerable (.receive reply)) (unhurried : client.Unhurried (.receive reply))
    (stepped : client.receive reply = some next) : next.Matched := by
  unfold ServiceClient.receive at stepped
  split at stepped
  · rename_i reading
    split at stepped
    · rename_i final
      obtain ⟨notSent, notFuture⟩ := unhurried final
      have owed := answerable final
      obtain ⟨sent, settled | waiting⟩ := matched.balance reading notSent notFuture
      · exact absurd settled.2.2 (by omega)
      · obtain ⟨_, _, longer⟩ := waiting
        have current : client.replyPromise = client.finals.length := by
          rw [matched.promise, reading]
          rfl
        cases stepped
        refine ⟨matched.futures, ?_, fun k above => ?_, fun k inside => ?_, matched.connected,
          fun _ => ?_, fun closed => absurd (reading.symm.trans closed) nofun⟩
        · simp [fulfil, current, reading]
        · simp only [fulfil] at above ⊢
          rw [Function.update_of_ne (by omega)]
          exact matched.fresh k (by omega)
        · simp only [fulfil, expected] at inside ⊢
          by_cases last : k = client.finals.length
          · subst last
            rw [current, Function.update_self, matched.fresh _ current.le]
            simp
          · rw [current, Function.update_of_ne last, List.getElem?_append_left (by omega)]
            exact matched.completed k inside
        · refine Settled.progress ⟨rfl, rfl, ?_⟩ sent notSent notFuture
          simpa [fulfil] using longer
    · cases stepped
      exact matched.move _ _ (fun reading => matched.progress reading)
        fun closed => absurd (reading.symm.trans closed) nofun
  · cases stepped

theorem Matched.close {client next : ServiceClient Request Reply} (matched : client.Matched)
    (unhurried : client.Unhurried .close) (stepped : client.close = some next) : next.Matched := by
  unfold ServiceClient.close at stepped
  split at stepped
  · rename_i reading
    obtain ⟨notSent, notFuture⟩ := unhurried trivial
    obtain ⟨sent, progress⟩ := matched.balance reading notSent notFuture
    have current : client.replyPromise = client.finals.length := by
      rw [matched.promise, reading]
      rfl
    have atMostOne : client.futures.length ≤ client.finals.length + 1 := by
      rcases progress with settled | waiting
      · exact settled.2.2.le.trans (Nat.le_succ _)
      · exact waiting.2.2.le
    cases stepped
    refine ⟨matched.futures, ?_, fun k above => ?_, fun k inside => ?_, rfl, nofun,
      fun _ => ⟨rfl, notSent, notFuture, sent⟩⟩
    · simp [fulfil, current]
    · simp only [fulfil] at above ⊢
      rw [Function.update_of_ne (by omega)]
      exact matched.fresh k (by omega)
    · simp only [fulfil, expected] at inside ⊢
      by_cases last : k = client.finals.length
      · subst last
        have waiting := progress.resolve_left fun settled => absurd settled.2.2 (by omega)
        rw [current, Function.update_self, matched.fresh _ current.le, waiting.1]
        simp
      · have answered : k < client.finals.length := by omega
        rw [current, Function.update_of_ne last, matched.completed k inside, expected,
          List.getElem?_eq_getElem answered]
  · cases stepped

theorem Matched.step {client next : ServiceClient Request Reply}
    {action : ClientAction Request Reply} (matched : client.Matched)
    (unhurried : client.Unhurried action) (stepped : conversation.step client action = some next) :
    next.Matched := by
  simp only [conversation] at stepped
  split at stepped
  · rename_i answerable
    cases action with
    | request payload => exact matched.request stepped
    | cancel => exact matched.cancel stepped
    | write ok => exact matched.write stepped
    | user => exact matched.userStep stepped
    | receive reply => exact matched.receive answerable unhurried stepped
    | close => exact matched.close unhurried stepped
  · cases stepped

/-- In every run in which the reader ends no call between a request's write and its
future, the k-th request gets the k-th final reply, or the end of the stream. -/
theorem paired_of_unhurried (run : List (ClientAction Request Reply))
    (unhurried : conversation.Obeys Unhurried opened run) :
    conversation.Along Paired opened run :=
  (conversation.along_of_obeys
    (fun _ _ _ matched unhurried stepped => matched.step unhurried stepped)
    opened_matched unhurried).mono fun _ matched => matched.paired

instance [DecidableEq Request] (client : ServiceClient Request Reply)
    (action : ClientAction Request Reply) : Decidable (client.Unhurried action) :=
  inferInstanceAs (Decidable (action.Ends → client.user ≠ .requestSent ∧
    client.user ≠ .requestFuture))

/-- One request is answered, and the stream ends during the next. -/
theorem paired_of_unhurried_twice :
    (conversation : Machine (ServiceClient Unit String) _).Along Paired opened
      [.request (), .write true, .receive ⟨.process, none⟩, .user, .user,
        .receive ⟨.success, some "done"⟩, .request (), .write true, .user, .user, .close] :=
  paired_of_unhurried _ (by decide)

/-- The final reply is handled before the future is taken. -/
def quickReply : List (ClientAction Unit String) :=
  [.request (), .write true, .receive ⟨.success, some "done"⟩, .user, .user]

theorem quickReply_not_paired : ¬ conversation.Along Paired opened quickReply := by
  intro along
  have evaluated : (conversation.exec opened quickReply).map (fun client =>
      (client.futures, client.finals, client.completions 1)) =
      some ([1], [some "done"], []) := by decide
  obtain ⟨final, executed, shape⟩ := Option.map_eq_some_iff.mp evaluated
  simp only [Prod.mk.injEq] at shape
  obtain ⟨futures, finals, completions⟩ := shape
  have completed := (along.final executed).completed 0 1 (by rw [futures]; rfl)
  rw [completions, expected, finals] at completed
  cases completed

end ServiceClient

end ProtoCore.Service
