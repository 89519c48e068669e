import ProtoCore.Service.StreamIsolation

/-!
# The entries of one id

What belongs to an id in the vectors of a server, what a step writes on the stream of the id, and
which steps of the pool do not concern the id.
-/

set_option autoImplicit false

namespace ProtoCore.Service

variable {Request Reply : Type}

/-- The entries of an id. -/
structure StreamView (Request Reply : Type) where
  status : Option ServiceCallStatus
  context : Option Bool
  request : Option (ServiceRPCRequest Request)
  queue : Option (List (TaggedReply Reply))
  number : Option Nat
  future : Option (TaskFuture Reply)
  accepted : List (ServiceRPCRequest Request)

namespace StreamPool

def view (pool : StreamPool Request Reply) (tag : Nat) : StreamView Request Reply where
  status := pool.callsStatus[tag]?
  context := pool.contexts[tag]?
  request := pool.requests[tag]?
  queue := pool.replyWaitQueue[tag]?
  number := (pool.streams[tag]?).map StreamObject.number
  future := pool.futureStorages[tag]?
  accepted := pool.accepted tag

/-- What a step has passed to `Write` on the stream of an id, which is then the last of the
outstanding writes. -/
def issues (pool next : StreamPool Request Reply) (tag : Nat) : List (ServiceRPCReply Reply) :=
  if next.writes.getLast? = some tag then
    (next.sent.drop pool.sent.length).map fun sent => sent.tagged.reply
  else []

theorem issues_of_sent {pool next : StreamPool Request Reply} (same : next.sent = pool.sent)
    (tag : Nat) : pool.issues next tag = [] := by
  rw [issues, same, List.drop_length]
  exact ite_self []

theorem issues_of_writes {pool next : StreamPool Request Reply} {tag id : Nat}
    (last : next.writes.getLast? = some id) (apart : id ≠ tag) : pool.issues next tag = [] := by
  rw [issues, last]
  exact if_neg fun same => apart (Option.some.inj same)

theorem view_setStatus (pool : StreamPool Request Reply) {id tag : Nat} (apart : id ≠ tag)
    (status : ServiceCallStatus) : (pool.setStatus id status).view tag = pool.view tag := by
  simp only [view, setStatus, List.getElem?_set_ne apart]

theorem view_setFuture (pool : StreamPool Request Reply) {id tag : Nat} (apart : id ≠ tag)
    (future : TaskFuture Reply) : (pool.setFuture id future).view tag = pool.view tag := by
  simp only [view, setFuture, List.getElem?_set_ne apart]

theorem view_setStatus_self (pool : StreamPool Request Reply) {tag : Nat}
    {before : ServiceCallStatus} (located : pool.callsStatus[tag]? = some before)
    (status : ServiceCallStatus) :
    (pool.setStatus tag status).view tag = { pool.view tag with status := some status } := by
  have inside := (List.getElem?_eq_some_iff.mp located).1
  simp only [view, setStatus, List.getElem?_set_self inside]

theorem view_setFuture_self (pool : StreamPool Request Reply) {tag : Nat}
    {before : TaskFuture Reply} (located : pool.futureStorages[tag]? = some before)
    (future : TaskFuture Reply) :
    (pool.setFuture tag future).view tag = { pool.view tag with future := some future } := by
  have inside := (List.getElem?_eq_some_iff.mp located).1
  simp only [view, setFuture, List.getElem?_set_self inside]

theorem view_setReading (pool : StreamPool Request Reply) (id tag : Nat) (reading : Option Nat) :
    (pool.setReading id reading).view tag = pool.view tag := by
  have number := number_setReading pool id reading tag
  simp only [view, number]
  rfl

/-- A change that does not concern the id. -/
structure Elsewhere (tag : Nat) (pool next : StreamPool Request Reply) : Prop where
  view : next.view tag = pool.view tag
  count : next.writes.count tag = pool.writes.count tag
  silent : pool.issues next tag = []

/-- Only entries of other ids change. -/
theorem Elsewhere.quiet {tag : Nat} {pool next : StreamPool Request Reply}
    (view : next.view tag = pool.view tag) (writes : next.writes = pool.writes)
    (sent : next.sent = pool.sent) : Elsewhere tag pool next :=
  ⟨view, by rw [writes], issues_of_sent sent tag⟩

theorem elsewhere_send (pool : StreamPool Request Reply) {id tag : Nat} (apart : id ≠ tag)
    (stream : StreamObject) (tagged : TaggedReply Reply) :
    Elsewhere tag pool (pool.send id stream tagged) where
  view := rfl
  count := by
    have none : [id].count tag = 0 := List.count_eq_zero.mpr fun member =>
      apart (List.mem_singleton.mp member).symm
    rw [send, List.count_append, none, Nat.add_zero]
  silent := issues_of_writes List.getLast?_concat apart

theorem elsewhere_writeReply (pool : StreamPool Request Reply) {id tag : Nat} (apart : id ≠ tag)
    (tagged : TaggedReply Reply) : Elsewhere tag pool (pool.writeReply id tagged) := by
  unfold writeReply
  split
  · exact pool.elsewhere_send apart _ tagged
  · refine Elsewhere.quiet ?_ rfl rfl
    simp only [view, List.getElem?_set_ne apart]
  · exact Elsewhere.quiet rfl rfl rfl

theorem elsewhere_writeStatus (pool : StreamPool Request Reply) {id tag : Nat} (apart : id ≠ tag)
    (status : ServiceCallStatus) : Elsewhere tag pool (pool.writeStatus id status) := by
  unfold writeStatus
  split
  · exact Elsewhere.quiet rfl rfl rfl
  · exact pool.elsewhere_writeReply apart _

/-- The entries of another id and the place of the loop change as well. -/
theorem Elsewhere.from {tag : Nat} {pool middle next : StreamPool Request Reply}
    (elsewhere : Elsewhere tag pool middle) (view : next.view tag = middle.view tag)
    (writes : next.writes = middle.writes) (sent : next.sent = middle.sent) :
    Elsewhere tag pool next where
  view := view.trans elsewhere.view
  count := by rw [writes, elsewhere.count]
  silent := by
    have silent := elsewhere.silent
    rw [issues] at silent ⊢
    rw [writes, sent]
    exact silent

theorem Elsewhere.after {tag : Nat} {pool before next : StreamPool Request Reply}
    (elsewhere : Elsewhere tag before next) (view : before.view tag = pool.view tag)
    (writes : before.writes = pool.writes) (sent : before.sent = pool.sent) :
    Elsewhere tag pool next where
  view := elsewhere.view.trans view
  count := by rw [elsewhere.count, writes]
  silent := by
    have silent := elsewhere.silent
    rw [issues, sent] at silent
    exact silent

theorem elsewhere_announce (pool : StreamPool Request Reply) {id tag : Nat} (apart : id ≠ tag)
    (status : ServiceCallStatus) :
    Elsewhere tag pool ((pool.setStatus id status).writeStatus id status) :=
  (elsewhere_writeStatus _ apart status).after (pool.view_setStatus apart status) rfl rfl

theorem elsewhere_taskStep {pool next : StreamPool Request Reply} {id tag : Nat} (apart : id ≠ tag)
    (stepped : pool.taskStep id = some next) : Elsewhere tag pool next := by
  unfold taskStep at stepped
  split at stepped
  case h_2 => cases stepped
  rename_i connection task _
  cases task with
  | callback => cases stepped
  | setTestProcess | setTestPrompted | suspendTestProcess | suspendTestPrompted =>
      cases stepped
      exact Elsewhere.quiet (pool.view_setFuture apart _) rfl rfl
  | setWrite setter =>
      cases stepped
      exact Elsewhere.quiet ((view_setFuture _ apart _).trans (pool.view_setStatus apart _)) rfl rfl
  | endStatus payload =>
      obtain ⟨status, _, rfl⟩ := Option.map_eq_some_iff.mp stepped
      exact Elsewhere.quiet ((view_setFuture _ apart _).trans (pool.view_setStatus apart _)) rfl rfl
  | writeReply reply =>
      cases stepped
      exact (pool.elsewhere_writeReply apart _).from (view_setFuture _ apart _) rfl rfl
  | suspendWrite =>
      cases stepped
      exact Elsewhere.quiet ((view_setFuture _ apart _).trans (pool.view_setStatus apart _)) rfl rfl

theorem elsewhere_callbackStep {pool next : StreamPool Request Reply} {id tag : Nat}
    (apart : id ≠ tag) {task : TaskStep Reply} (stepped : pool.callbackStep id task = some next) :
    Elsewhere tag pool next := by
  unfold callbackStep at stepped
  split at stepped
  · cases stepped
    exact Elsewhere.quiet (pool.view_setFuture apart _) rfl rfl
  · cases stepped

theorem elsewhere_erase (pool : StreamPool Request Reply) {id tag : Nat} (apart : id ≠ tag) :
    Elsewhere tag pool { pool with writes := pool.writes.erase id } :=
  ⟨rfl, List.count_erase_of_ne apart.symm, issues_of_sent rfl tag⟩

theorem elsewhere_handleWrite (pool : StreamPool Request Reply) {id tag : Nat}
    (apart : id ≠ tag) :
    Elsewhere tag pool ({ pool with writes := pool.writes.erase id }.handleWrite id) := by
  unfold handleWrite
  split
  · refine ⟨?_, ?_, issues_of_writes List.getLast?_concat apart⟩
    · simp only [view, send, List.getElem?_set_ne apart]
    · have none : [id].count tag = 0 := List.count_eq_zero.mpr fun member =>
        apart (List.mem_singleton.mp member).symm
      simp only [send, List.count_append, none, Nat.add_zero, List.count_erase_of_ne apart.symm]
  · exact pool.elsewhere_erase apart

theorem getElem?_store_ne (pool : StreamPool Request Reply) {id tag : Nat} (apart : id ≠ tag)
    (request : ServiceRPCRequest Request) :
    (pool.store id request)[tag]? = pool.requests[tag]? := by
  unfold store
  split
  · exact List.getElem?_set_ne apart
  · rfl

theorem elsewhere_createStep {pool next : StreamPool Request Reply} {tag : Nat}
    (grown : pool.pushBack.view tag = pool.view tag) (kept : tag ∉ pool.loop.inHand)
    (apart : pool.loop.tag ≠ some tag) (unlistened : tag ∉ pool.pulls)
    (stepped : pool.createStep = some next) :
    Elsewhere tag pool next ∧ next.loop.tag ≠ some tag ∧ tag ∉ next.pulls := by
  unfold createStep at stepped
  cases stage : pool.loop with
  | generate creator =>
      rw [stage] at apart
      simp only [stage] at stepped
      split at stepped <;> cases stepped <;>
        exact ⟨Elsewhere.quiet rfl rfl rfl, apart, unlistened⟩
  | grow creator id =>
      rw [stage] at apart
      simp only [stage] at stepped
      cases stepped
      split
      · exact ⟨Elsewhere.quiet grown rfl rfl, apart, unlistened⟩
      · exact ⟨Elsewhere.quiet rfl rfl rfl, apart, unlistened⟩
  | abortTestProcess creator id | abortTestPrompted creator id =>
      rw [stage] at apart
      simp only [stage] at stepped
      cases stepped
      refine ⟨Elsewhere.quiet rfl rfl rfl, ?_, unlistened⟩
      dsimp only
      split <;> exact apart
  | abortWrite creator id =>
      rw [stage] at apart kept
      simp only [stage] at stepped
      cases stepped
      have other : id ≠ tag := fun same => kept (List.mem_singleton.mpr same.symm)
      exact ⟨Elsewhere.quiet (pool.view_setStatus other _) rfl rfl, apart, unlistened⟩
  | get creator id =>
      rw [stage] at apart kept
      simp only [stage] at stepped
      have other : id ≠ tag := fun same => kept (List.mem_singleton.mpr same.symm)
      split at stepped
      · cases stepped
        exact ⟨Elsewhere.quiet (pool.view_setFuture other _) rfl rfl, apart, unlistened⟩
      · cases stepped
        exact ⟨Elsewhere.quiet rfl rfl rfl, apart, unlistened⟩
      · cases stepped
  | listen creator id =>
      rw [stage] at apart kept
      simp only [stage] at stepped
      cases stepped
      have other : id ≠ tag := fun same => kept (List.mem_singleton.mpr same.symm)
      refine ⟨Elsewhere.quiet ?_ rfl rfl, ?_, ?_⟩
      · simp only [view, listenOn, List.getElem?_set_ne other, List.getElem?_modify_ne _ _ other,
          Function.update_of_ne other.symm]
      · cases creator with
        | constructor left => cases left <;> exact (Option.some_ne_none tag).symm
        | connect connecting => exact apart
      · exact fun member => (List.mem_append.mp member).elim unlistened fun last =>
          other (List.mem_singleton.mp last).symm
  | _ =>
      simp only [stage] at stepped
      cases stepped

theorem elsewhere_connectStep {pool next : StreamPool Request Reply} {tag : Nat}
    (apart : pool.loop.tag ≠ some tag) (unlistened : tag ∉ pool.pulls)
    (stepped : pool.connectStep = some next) :
    Elsewhere tag pool next ∧ next.loop.tag ≠ some tag ∧ tag ∉ next.pulls := by
  unfold connectStep at stepped
  cases stage : pool.loop with
  | suspendTestProcess id | suspendTestPrompted id =>
      rw [stage] at apart
      simp only [stage] at stepped
      cases stepped
      refine ⟨Elsewhere.quiet rfl rfl rfl, ?_, unlistened⟩
      dsimp only
      split <;> exact apart
  | suspendWrite id =>
      rw [stage] at apart
      simp only [stage] at stepped
      cases stepped
      have other : id ≠ tag := fun same => apart (congrArg some same)
      exact ⟨Elsewhere.quiet (pool.view_setStatus other _) rfl rfl, apart, unlistened⟩
  | readFirst id =>
      rw [stage] at apart
      simp only [stage] at stepped
      cases stepped
      exact ⟨Elsewhere.quiet (pool.view_setReading id tag _) rfl rfl, apart, unlistened⟩
  | processed id =>
      simp only [stage] at stepped
      cases stepped
      exact ⟨Elsewhere.quiet rfl rfl rfl, (Option.some_ne_none tag).symm, unlistened⟩
  | _ =>
      simp only [stage] at stepped
      cases stepped

theorem elsewhere_readStep {pool next : StreamPool Request Reply} {tag : Nat}
    (apart : pool.loop.tag ≠ some tag) (unlistened : tag ∉ pool.pulls)
    (stepped : pool.readStep = some next) :
    Elsewhere tag pool next ∧ next.loop.tag ≠ some tag ∧ tag ∉ next.pulls := by
  unfold readStep at stepped
  cases stage : pool.loop with
  | testSuspend id | testProcess id =>
      rw [stage] at apart
      simp only [stage] at stepped
      obtain ⟨request, _, rfl⟩ := Option.map_eq_some_iff.mp stepped
      refine ⟨Elsewhere.quiet rfl rfl rfl, ?_, unlistened⟩
      dsimp only
      split <;> exact apart
  | processTest id | promptTest id =>
      rw [stage] at apart
      simp only [stage] at stepped
      cases stepped
      refine ⟨Elsewhere.quiet rfl rfl rfl, ?_, unlistened⟩
      dsimp only
      split <;> exact apart
  | processWrite id | promptWrite id =>
      rw [stage] at apart
      simp only [stage] at stepped
      cases stepped
      have other : id ≠ tag := fun same => apart (congrArg some same)
      refine ⟨(pool.elsewhere_announce other _).from rfl rfl rfl, apart, ?_⟩
      change tag ∉ ((pool.setStatus id _).writeStatus id _).pulls
      rw [(onlyReplies_writeStatus _ id _).pulls]
      exact unlistened
  | launch id =>
      rw [stage] at apart
      simp only [stage, launchTask] at stepped
      have other : id ≠ tag := fun same => apart (congrArg some same)
      split at stepped
      · split at stepped
        · cases stepped
        · cases stepped
          refine ⟨Elsewhere.quiet ?_ rfl rfl, apart, unlistened⟩
          simp only [view, setFuture, List.getElem?_set_ne other,
            Function.update_of_ne other.symm]
      · cases stepped
  | readAgain id =>
      simp only [stage] at stepped
      cases stepped
      exact ⟨Elsewhere.quiet (pool.view_setReading id tag _) rfl rfl,
        (Option.some_ne_none tag).symm, unlistened⟩
  | _ =>
      simp only [stage] at stepped
      cases stepped

/-- The loop handles an event of another id. -/
theorem elsewhere_loopStep {pool next : StreamPool Request Reply} {tag : Nat}
    (grown : pool.pushBack.view tag = pool.view tag) (kept : tag ∉ pool.loop.inHand)
    (apart : pool.loop.tag ≠ some tag) (unlistened : tag ∉ pool.pulls)
    (stepped : pool.loopStep = some next) :
    Elsewhere tag pool next ∧ next.loop.tag ≠ some tag ∧ tag ∉ next.pulls := by
  unfold loopStep at stepped
  split at stepped
  iterate 7 exact elsewhere_createStep grown kept apart unlistened stepped
  iterate 5 exact elsewhere_connectStep apart unlistened stepped
  exact elsewhere_readStep apart unlistened stepped

end StreamPool

end ProtoCore.Service
