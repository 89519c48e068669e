import Mathlib.Data.List.Nodup
import Mathlib.Data.List.Perm.Subperm
import ProtoCore.Service.StreamProjection

/-!
# The memory of the requests

`requests_` doubles its capacity when it is full. Reads begin when the first ten listeners
are there, so the memory that a `Read` was given is left at the seventeenth id, and not before.
-/

set_option autoImplicit false

namespace ProtoCore.Service

open Library

variable {Request Reply : Type}

namespace StreamPool

/-! ## Doubling -/

/-- The capacity and the number of allocations of a vector that has grown to the length. -/
def Doubled (length capacity allocation : Nat) : Prop :=
  (length = 0 ∧ capacity = 0 ∧ allocation = 0) ∨
    ∃ power, capacity = 2 ^ power ∧ allocation = power + 1 ∧ length ≤ capacity ∧
      capacity < 2 * length

theorem Doubled.push {length capacity allocation : Nat}
    (doubled : Doubled length capacity allocation) :
    Doubled (length + 1) (if length = capacity then capacity + max capacity 1 else capacity)
      (if length = capacity then allocation + 1 else allocation) := by
  rcases doubled with ⟨rfl, rfl, rfl⟩ | ⟨power, rfl, rfl, inside, tight⟩
  · exact .inr ⟨0, rfl, rfl, Nat.le_refl _, by decide⟩
  · have positive : 1 ≤ 2 ^ power := Nat.one_le_two_pow
    by_cases full : length = 2 ^ power
    · rw [if_pos full, if_pos full, max_eq_left positive]
      exact .inr ⟨power + 1, by rw [Nat.pow_succ]; omega, rfl, by omega, by omega⟩
    · rw [if_neg full, if_neg full]
      exact .inr ⟨power, rfl, rfl, by omega, by omega⟩

theorem Doubled.le_allocation {length capacity allocation : Nat}
    (doubled : Doubled length capacity allocation) (many : 9 ≤ length) : 5 ≤ allocation := by
  rcases doubled with ⟨rfl, _, _⟩ | ⟨power, rfl, rfl, inside, _⟩
  · omega
  · have large : 2 ^ 3 < 2 ^ power := by omega
    have := (Nat.pow_lt_pow_iff_right (Nat.lt_succ_self 1)).mp large
    omega

theorem Doubled.allocation_le {length capacity allocation : Nat}
    (doubled : Doubled length capacity allocation) (few : length ≤ 16) : allocation ≤ 5 := by
  rcases doubled with ⟨_, _, rfl⟩ | ⟨power, rfl, rfl, _, tight⟩
  · omega
  · have small : 2 ^ power < 2 ^ 5 := by omega
    have := (Nat.pow_lt_pow_iff_right (Nat.lt_succ_self 1)).mp small
    omega

/-! ## What a step does to the memory -/

/-- The vector is where it was, and the reads are those that there were. -/
structure SameMemory (pool next : StreamPool Request Reply) : Prop where
  streams : next.streams = pool.streams
  requests : next.requests.length = pool.requests.length
  capacity : next.capacity = pool.capacity
  allocation : next.allocation = pool.allocation

theorem sameMemory_writeReply (pool : StreamPool Request Reply) (id : Nat)
    (tagged : TaggedReply Reply) : pool.SameMemory (pool.writeReply id tagged) := by
  unfold StreamPool.writeReply
  split
  · exact ⟨rfl, rfl, rfl, rfl⟩
  · exact ⟨rfl, rfl, rfl, rfl⟩
  · exact ⟨rfl, rfl, rfl, rfl⟩

theorem sameMemory_writeStatus (pool : StreamPool Request Reply) (id : Nat)
    (status : ServiceCallStatus) : pool.SameMemory (pool.writeStatus id status) := by
  unfold StreamPool.writeStatus
  split
  · exact ⟨rfl, rfl, rfl, rfl⟩
  · exact sameMemory_writeReply pool id _

theorem sameMemory_handleWrite (pool : StreamPool Request Reply) (id : Nat) :
    pool.SameMemory (pool.handleWrite id) := by
  unfold StreamPool.handleWrite
  split
  · exact ⟨rfl, rfl, rfl, rfl⟩
  · exact ⟨rfl, rfl, rfl, rfl⟩

theorem sameMemory_taskStep {pool next : StreamPool Request Reply} {id : Nat}
    (stepped : pool.taskStep id = some next) : pool.SameMemory next := by
  unfold StreamPool.taskStep at stepped
  cases running : pool.futureStorages[id]? with
  | none =>
      rw [running] at stepped
      cases stepped
  | some future =>
      rw [running] at stepped
      cases future with
      | empty => cases stepped
      | finished => cases stepped
      | running connection task =>
          cases task with
          | callback => cases stepped
          | endStatus payload =>
              obtain ⟨status, _, rfl⟩ := Option.map_eq_some_iff.mp stepped
              exact ⟨rfl, rfl, rfl, rfl⟩
          | writeReply reply =>
              cases stepped
              obtain ⟨streams, requests, capacity, allocation⟩ :=
                sameMemory_writeReply pool id ⟨connection, reply⟩
              exact ⟨streams, requests, capacity, allocation⟩
          | setTestProcess setter | setTestPrompted setter | setWrite setter | suspendTestProcess
          | suspendTestPrompted | suspendWrite =>
              cases stepped
              exact ⟨rfl, rfl, rfl, rfl⟩

theorem sameMemory_callbackStep {pool next : StreamPool Request Reply} {id : Nat}
    {task : TaskStep Reply} (stepped : pool.callbackStep id task = some next) :
    pool.SameMemory next := by
  unfold StreamPool.callbackStep at stepped
  split at stepped
  · cases stepped
    exact ⟨rfl, rfl, rfl, rfl⟩
  · cases stepped

/-- A read begins when no listener is due, in the memory of that moment. -/
inductive Touches (pool next : StreamPool Request Reply) : Prop where
  | nothing (same : pool.SameMemory next)
  | begins (id : Nat) (due : pool.loop.due = 0)
      (same : (pool.setReading id (some pool.allocation)).SameMemory next)
  | ends (id : Nat) (same : (pool.setReading id none).SameMemory next)
  | listens (id : Nat) (same : (pool.listenOn id).SameMemory next)
  | grows (same : pool.pushBack.SameMemory next)

theorem touches_createStep {pool next : StreamPool Request Reply}
    (stepped : pool.createStep = some next) : pool.Touches next := by
  unfold StreamPool.createStep at stepped
  cases stage : pool.loop with
  | generate creator =>
      simp only [stage] at stepped
      split at stepped
      · cases stepped
        exact .nothing ⟨rfl, rfl, rfl, rfl⟩
      · cases stepped
        exact .nothing ⟨rfl, rfl, rfl, rfl⟩
  | grow creator id =>
      simp only [stage] at stepped
      cases stepped
      split
      · exact .grows ⟨rfl, rfl, rfl, rfl⟩
      · exact .nothing ⟨rfl, rfl, rfl, rfl⟩
  | abortTestProcess creator id | abortTestPrompted creator id | abortWrite creator id =>
      simp only [stage] at stepped
      cases stepped
      exact .nothing ⟨rfl, rfl, rfl, rfl⟩
  | get creator id =>
      simp only [stage] at stepped
      split at stepped
      · cases stepped
        exact .nothing ⟨rfl, rfl, rfl, rfl⟩
      · cases stepped
        exact .nothing ⟨rfl, rfl, rfl, rfl⟩
      · cases stepped
  | listen creator id =>
      simp only [stage] at stepped
      cases stepped
      exact .listens id ⟨rfl, rfl, rfl, rfl⟩
  | _ =>
      simp only [stage] at stepped
      cases stepped

theorem touches_connectStep {pool next : StreamPool Request Reply}
    (stepped : pool.connectStep = some next) : pool.Touches next := by
  unfold StreamPool.connectStep at stepped
  cases stage : pool.loop with
  | suspendTestProcess tag | suspendTestPrompted tag | suspendWrite tag | processed tag =>
      simp only [stage] at stepped
      cases stepped
      exact .nothing ⟨rfl, rfl, rfl, rfl⟩
  | readFirst tag =>
      simp only [stage] at stepped
      cases stepped
      exact .begins tag (by rw [stage]; rfl) ⟨rfl, rfl, rfl, rfl⟩
  | _ =>
      simp only [stage] at stepped
      cases stepped

theorem touches_readStep {pool next : StreamPool Request Reply}
    (stepped : pool.readStep = some next) : pool.Touches next := by
  unfold StreamPool.readStep at stepped
  cases stage : pool.loop with
  | testSuspend tag | testProcess tag =>
      simp only [stage] at stepped
      obtain ⟨request, _, rfl⟩ := Option.map_eq_some_iff.mp stepped
      exact .nothing ⟨rfl, rfl, rfl, rfl⟩
  | processTest tag | promptTest tag =>
      simp only [stage] at stepped
      cases stepped
      exact .nothing ⟨rfl, rfl, rfl, rfl⟩
  | processWrite tag =>
      simp only [stage] at stepped
      cases stepped
      obtain ⟨streams, requests, capacity, allocation⟩ :=
        sameMemory_writeStatus (pool.setStatus tag .process) tag .process
      exact .nothing ⟨streams, requests, capacity, allocation⟩
  | promptWrite tag =>
      simp only [stage] at stepped
      cases stepped
      obtain ⟨streams, requests, capacity, allocation⟩ :=
        sameMemory_writeStatus (pool.setStatus tag .prompted) tag .prompted
      exact .nothing ⟨streams, requests, capacity, allocation⟩
  | launch tag =>
      simp only [stage, StreamPool.launchTask] at stepped
      split at stepped
      · simp only [Option.ite_none_left_eq_some, Option.some.injEq] at stepped
        obtain ⟨_, rfl⟩ := stepped
        exact .nothing ⟨rfl, rfl, rfl, rfl⟩
      · cases stepped
  | readAgain tag =>
      simp only [stage] at stepped
      cases stepped
      exact .begins tag (by rw [stage]; rfl) ⟨rfl, rfl, rfl, rfl⟩
  | _ =>
      simp only [stage] at stepped
      cases stepped

theorem touches_event {pool next : StreamPool Request Reply} {action : PoolAction Request Reply}
    (stepped : pool.event action = some next) : pool.Touches next := by
  cases action with
  | connect id =>
      obtain ⟨_, same⟩ := Option.ite_none_right_eq_some.mp stepped
      cases same
      exact .nothing ⟨rfl, rfl, rfl, rfl⟩
  | read id request =>
      obtain ⟨ended, ends, rfl⟩ := Option.map_eq_some_iff.mp stepped
      obtain ⟨_, _, _, rfl⟩ := readEnds_eq_some ends
      exact .ends id ⟨rfl, length_store pool id request, rfl, rfl⟩
  | readFailed id =>
      obtain ⟨_, _, _, rfl⟩ := readEnds_eq_some stepped
      exact .ends id ⟨rfl, rfl, rfl, rfl⟩
  | write id =>
      obtain ⟨_, same⟩ := Option.ite_none_right_eq_some.mp stepped
      cases same
      obtain ⟨streams, requests, capacity, allocation⟩ :=
        sameMemory_handleWrite { pool with writes := pool.writes.erase id } id
      exact .nothing ⟨streams, requests, capacity, allocation⟩
  | writeFailed id =>
      obtain ⟨_, same⟩ := Option.ite_none_right_eq_some.mp stepped
      cases same
      exact .nothing ⟨rfl, rfl, rfl, rfl⟩
  | brokenPipe id =>
      obtain ⟨_, same⟩ := Option.ite_none_right_eq_some.mp stepped
      cases same
      exact .nothing ⟨rfl, rfl, rfl, rfl⟩
  | _ => cases stepped

theorem touches_step {pool next : StreamPool Request Reply} {action : PoolAction Request Reply}
    (stepped : pool.step action = some next) : pool.Touches next := by
  have events {event : PoolAction Request Reply}
      (stepped : (if pool.loop = .idle then pool.event event else none) = some next) :
      pool.Touches next := touches_event (Option.ite_none_right_eq_some.mp stepped).2
  cases action with
  | cancel id =>
      obtain ⟨_, same⟩ := Option.ite_none_right_eq_some.mp stepped
      cases same
      exact .nothing ⟨rfl, rfl, rfl, rfl⟩
  | loop =>
      simp only [StreamPool.step, StreamPool.loopStep] at stepped
      split at stepped
      case h_13 => exact touches_readStep stepped
      all_goals first | exact touches_createStep stepped | exact touches_connectStep stepped
  | callbackSet id setter => exact .nothing (sameMemory_callbackStep stepped)
  | callbackReturn id payload => exact .nothing (sameMemory_callbackStep stepped)
  | task id => exact .nothing (sameMemory_taskStep stepped)
  | connect id => exact events stepped
  | read id request => exact events stepped
  | readFailed id => exact events stepped
  | write id => exact events stepped
  | writeFailed id => exact events stepped
  | brokenPipe id => exact events stepped

/-! ## The invariant -/

/-- No read is in memory from before the tenth listener. -/
structure Housed (pool : StreamPool Request Reply) : Prop where
  counted : pool.Counted
  doubled : Doubled pool.requests.length pool.capacity pool.allocation
  reading : ∀ stream ∈ pool.streams, ∀ allocation ∈ stream.reading,
    5 ≤ allocation ∧ allocation ≤ pool.allocation

/-- When no listener is due, ten ids listen. -/
theorem Counted.ten_le {pool : StreamPool Request Reply} (counted : pool.Counted)
    (due : pool.loop.due = 0) : 10 ≤ pool.streamId := by
  have listeners := counted.listeners
  rw [due, Nat.add_zero] at listeners
  have placed (id : Nat) : pool.pulls.count id ≤ pool.placed id := by
    unfold StreamPool.placed
    omega
  have inside : ∀ id ∈ pool.pulls, id < pool.streamId := by
    intro id member
    by_contra far
    have none := counted.outside id (Nat.le_of_not_lt far)
    have positive : 0 < pool.pulls.count id := List.count_pos_iff.mpr member
    have := placed id
    omega
  have distinct : pool.pulls.Nodup := by
    rw [List.nodup_iff_count_le_one]
    intro id
    by_cases near : id < pool.streamId
    · exact counted.inside id near ▸ placed id
    · rw [List.count_eq_zero_of_not_mem fun member => near (inside id member)]
      exact Nat.zero_le _
  have within : pool.pulls ⊆ List.range pool.streamId :=
    fun id member => List.mem_range.mpr (inside id member)
  have fewer := (distinct.subperm within).length_le
  rw [List.length_range, listeners] at fewer
  exact fewer

theorem housed_initial : (initial : StreamPool Request Reply).Housed where
  counted := counted_initial
  doubled := .inl ⟨rfl, rfl, rfl⟩
  reading _ member := by cases member

section Steps

variable {pool next : StreamPool Request Reply}

/-- The vector stays, and every read is one from before or in the memory that there is. -/
theorem Housed.kept (housed : pool.Housed) (counted : next.Counted)
    (requests : next.requests.length = pool.requests.length)
    (capacity : next.capacity = pool.capacity) (allocation : next.allocation = pool.allocation)
    (reading : ∀ stream ∈ next.streams, (∃ before ∈ pool.streams,
      before.reading = stream.reading) ∨ stream.reading = none ∨
        5 ≤ pool.allocation ∧ stream.reading = some pool.allocation) : next.Housed where
  counted := counted
  doubled := by
    rw [requests, capacity, allocation]
    exact housed.doubled
  reading stream member read reads := by
    rw [allocation]
    rcases reading stream member with ⟨before, known, same⟩ | none | ⟨late, here⟩
    · exact housed.reading before known read (same ▸ reads)
    · rw [none] at reads
      cases reads
    · rw [here] at reads
      cases reads
      exact ⟨late, Nat.le_refl _⟩

theorem reading_modify {streams : List StreamObject} {id : Nat}
    {change : StreamObject → StreamObject} {reading : Option Nat} {stream : StreamObject}
    (member : stream ∈ streams.modify id change)
    (changed : ∀ before, (change before).reading = reading) :
    (∃ before ∈ streams, before.reading = stream.reading) ∨ stream.reading = reading := by
  obtain ⟨position, located⟩ := List.mem_iff_getElem?.mp member
  rw [List.getElem?_modify] at located
  obtain ⟨before, known, same⟩ := Option.map_eq_some_iff.mp located
  split at same
  · exact .inr (same ▸ changed before)
  · exact .inl ⟨before, List.mem_of_getElem? known, congrArg StreamObject.reading same⟩

theorem Housed.late (housed : pool.Housed) (due : pool.loop.due = 0) : 5 ≤ pool.allocation := by
  have ten := housed.counted.ten_le due
  have settled := housed.counted.settled fun creator id growing => by
    rw [growing] at due
    cases creator <;> cases due
  have many : 9 ≤ pool.requests.length := by
    rw [housed.counted.sized.requests, settled]
    omega
  exact housed.doubled.le_allocation many

theorem Housed.touches (housed : pool.Housed) (counted : next.Counted)
    (touches : pool.Touches next) : next.Housed := by
  cases touches with
  | nothing same =>
      refine housed.kept counted same.requests same.capacity same.allocation
        fun stream member => .inl ⟨stream, ?_, rfl⟩
      exact same.streams ▸ member
  | begins id due same =>
      refine housed.kept counted same.requests same.capacity same.allocation fun stream member => ?_
      have moved : stream ∈ pool.streams.modify id
          fun before => { before with reading := some pool.allocation } := by
        rw [same.streams] at member
        exact member
      rcases reading_modify moved fun _ => rfl with known | here
      · exact .inl known
      · exact .inr (.inr ⟨housed.late due, here⟩)
  | ends id same =>
      refine housed.kept counted same.requests same.capacity same.allocation fun stream member => ?_
      have moved : stream ∈ pool.streams.modify id
          fun before => { before with reading := none } := by
        rw [same.streams] at member
        exact member
      rcases reading_modify moved fun _ => rfl with known | here
      · exact .inl known
      · exact .inr (.inl here)
  | listens id same =>
      refine housed.kept counted same.requests same.capacity same.allocation fun stream member => ?_
      have moved : stream ∈ pool.streams.modify id
          fun before => { number := before.number + 1, reading := none } := by
        rw [same.streams] at member
        exact member
      rcases reading_modify moved fun _ => rfl with known | here
      · exact .inl known
      · exact .inr (.inl here)
  | grows same =>
      refine ⟨counted, ?_, fun stream member read reads => ?_⟩
      · rw [same.requests, same.capacity, same.allocation, StreamPool.pushBack]
        simp only [List.length_append, List.length_singleton]
        exact housed.doubled.push
      · rw [same.streams, StreamPool.pushBack] at member
        have longer : pool.allocation ≤ next.allocation := by
          rw [same.allocation, StreamPool.pushBack]
          dsimp only
          split
          · exact Nat.le_succ _
          · exact Nat.le_refl _
        rcases List.mem_append.mp member with known | new
        · obtain ⟨late, early⟩ := housed.reading stream known read reads
          exact ⟨late, early.trans longer⟩
        · cases List.mem_singleton.mp new
          cases reads

theorem Housed.step {action : PoolAction Request Reply} (housed : pool.Housed)
    (stepped : pool.step action = some next) : next.Housed :=
  housed.touches (housed.counted.step stepped) (touches_step stepped)

/-- With sixteen ids at most, a message that is read lands. -/
theorem Housed.lands {action : PoolAction Request Reply} (housed : pool.Housed)
    (few : pool.streamId ≤ 16) (stepped : pool.step action = some next) : pool.Lands action := by
  cases action with
  | read id request =>
      obtain ⟨idle, stepped⟩ := Option.ite_none_right_eq_some.mp stepped
      obtain ⟨ended, ends, _⟩ := Option.map_eq_some_iff.mp stepped
      obtain ⟨stream, located, reads, _⟩ := readEnds_eq_some ends
      obtain ⟨allocation, reading⟩ := Option.isSome_iff_exists.mp reads
      obtain ⟨late, early⟩ :=
        housed.reading stream (List.mem_of_getElem? located) allocation reading
      have settled := housed.counted.settled fun creator id growing => by
        rw [idle] at growing
        cases growing
      have short : pool.requests.length ≤ 16 := by
        rw [housed.counted.sized.requests, settled]
        exact few
      have bound := housed.doubled.allocation_le short
      have same : allocation = pool.allocation := by omega
      simp only [Lands, StreamPool.lands, located, Option.any_some, reading, same, BEq.rfl]
  | connect id => trivial
  | readFailed id => trivial
  | write id => trivial
  | writeFailed id => trivial
  | brokenPipe id => trivial
  | cancel id => trivial
  | loop => trivial
  | callbackSet id setter => trivial
  | callbackReturn id payload => trivial
  | task id => trivial

theorem Housed.landed {run : List (PoolAction Request Reply)} {final : StreamPool Request Reply}
    (housed : pool.Housed) (few : machine.Obeys (fun pool _ => pool.streamId ≤ 16) pool run)
    (executed : machine.exec pool run = some final) :
    landingMachine.exec pool run = some final := by
  induction run generalizing pool with
  | nil => exact executed
  | cons action rest ih =>
      obtain ⟨next, stepped, executed⟩ := machine.exec_cons_eq_some executed
      obtain ⟨short, few⟩ := few next stepped
      have landing : landingMachine.step pool action = some next :=
        (if_pos (housed.lands short stepped)).trans stepped
      rw [landingMachine.exec_cons_of_step landing]
      exact ih (housed.step stepped) few executed

end Steps

/-- A run of a server that has sixteen ids at most loses no message to freed memory. -/
theorem landed_of_few {run : List (PoolAction Request Reply)} {pool : StreamPool Request Reply}
    (few : machine.Obeys (fun pool _ => pool.streamId ≤ 16) initial run)
    (executed : machine.exec initial run = some pool) :
    landingMachine.exec initial run = some pool :=
  housed_initial.landed few executed

end StreamPool

end ProtoCore.Service
