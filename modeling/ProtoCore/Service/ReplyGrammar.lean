import Mathlib.Data.List.Forall2
import ProtoCore.Service.OutstandingWrites

/-!
# The replies of a stream

As long as `setPrompted` writes while the call is still in PROCESS, the replies are one
block for each call, ending in the first status its callback asked for. The test that
`setPrompted` makes under an earlier lock does not ensure this.
-/

set_option autoImplicit false

namespace ProtoCore.Service

open Library

variable {Request Reply : Type}

/-- A status that `setSuspend` overwrites and the setters do not. -/
def ServiceCallStatus.Terminal (status : ServiceCallStatus) : Prop :=
  status ≠ .suspend ∧ status ≠ .process ∧ status ≠ .prompted

theorem Setter.status_terminal (setter : Setter) : setter.status.Terminal := by
  cases setter <;> exact ⟨by decide, by decide, by decide⟩

namespace Call

def final (call : Call Request) : ServiceCallStatus := call.set.headD .aborted

def Block (call : Call Request) (statuses : List ServiceCallStatus) : Prop :=
  statuses = [.process, call.final] ∨ statuses = [.process, .prompted, call.final]

end Call

/-- The statuses asked for so far explain the status of a running call. -/
def Shows (set : List ServiceCallStatus) (status : ServiceCallStatus) : Prop :=
  match set with
  | [] => status = .process ∨ status = .prompted
  | first :: _ => status = first ∧ first.Terminal

theorem Shows.not_suspend {set : List ServiceCallStatus} {status : ServiceCallStatus}
    (consistent : Shows set status) : status ≠ .suspend := by
  cases set with
  | nil => rcases consistent with rfl | rfl <;> decide
  | cons first rest => exact consistent.1 ▸ consistent.2.1

/-- A setter that finds the call neither in PROCESS nor in PROMPTED changes nothing. -/
theorem Shows.late {set : List ServiceCallStatus} {status asked : ServiceCallStatus}
    (consistent : Shows set status) (notProcess : status ≠ .process)
    (notPrompted : status ≠ .prompted) :
    Shows (set ++ [asked]) status := by
  cases set with
  | nil =>
      rcases consistent with same | same
      · exact absurd same notProcess
      · exact absurd same notPrompted
  | cons first rest => exact consistent

theorem Shows.open_nil {set : List ServiceCallStatus} {status : ServiceCallStatus}
    (consistent : Shows set status) (running : status = .process ∨ status = .prompted) :
    set = [] := by
  cases set with
  | nil => rfl
  | cons first rest =>
      obtain ⟨rfl, _, notProcess, notPrompted⟩ := consistent
      rcases running with same | same
      · exact absurd same notProcess
      · exact absurd same notPrompted

/-- What has been replied to a call that is in progress. -/
def Opened : ServiceCallStatus → List ServiceCallStatus → Prop
  | .suspend, beginning => beginning = []
  | .process, beginning => beginning = [.process]
  | _, beginning => beginning = [.process] ∨ beginning = [.process, .prompted]

theorem Opened.of_terminal {status : ServiceCallStatus} {beginning : List ServiceCallStatus}
    (opened : Opened status beginning) (terminal : status.Terminal) :
    beginning = [.process] ∨ beginning = [.process, .prompted] := by
  obtain ⟨notSuspend, notProcess, _⟩ := terminal
  cases status with
  | suspend => exact absurd rfl notSuspend
  | process => exact absurd rfl notProcess
  | success | aborted | failed | prompted => exact opened

theorem Opened.terminal {status ended : ServiceCallStatus} {beginning : List ServiceCallStatus}
    (opened : Opened status beginning) (notSuspend : status ≠ .suspend) (terminal : ended.Terminal) :
    Opened ended beginning := by
  have shape : beginning = [.process] ∨ beginning = [.process, .prompted] := by
    cases status with
    | suspend => exact absurd rfl notSuspend
    | process => exact .inl opened
    | success | aborted | failed | prompted => exact opened
  obtain ⟨notSuspend, notProcess, notPrompted⟩ := terminal
  cases ended with
  | suspend => exact absurd rfl notSuspend
  | process => exact absurd rfl notProcess
  | prompted => exact absurd rfl notPrompted
  | success | aborted | failed => exact shape

theorem Opened.beginning {status : ServiceCallStatus} {beginning : List ServiceCallStatus}
    (opened : Opened status beginning) : beginning <+: [.process, .prompted] := by
  cases status with
  | suspend => exact opened ▸ List.nil_prefix
  | process => exact opened ▸ ⟨[.prompted], rfl⟩
  | success | aborted | failed | prompted =>
      rcases opened with rfl | rfl
      · exact ⟨[.prompted], rfl⟩
      · exact List.prefix_rfl

namespace ServiceServer

/-- Whole blocks for the answered calls, then the beginning of one for the call in progress. -/
def Grammar (server : ServiceServer Request Reply) : Prop :=
  ∃ blocks beginning, List.Forall₂ Call.Block server.answered blocks ∧
    server.replies.issued.map ServiceRPCReply.status = blocks.flatten ++ beginning ∧
    beginning <+: [.process, .prompted] ∧ (server.running = none → beginning = [])

/-- The replies on a connected stream follow the grammar, with one call for each accepted
request, and a stream without a call is in SUSPEND. -/
structure Faithful (server : ServiceServer Request Reply) : Prop where
  grammar : server.replies.isCancelled = false → server.Grammar
  calls : (server.answered ++ server.running.toList).map Call.request = server.accepted
  suspended : server.task = none → server.running = none → server.callsStatus = .suspend

/-! ## The invariant -/

/-- Without a task the stream is in SUSPEND and no call is in progress. -/
def Quiet (task : Option (TaskStep Reply)) (status : ServiceCallStatus)
    (running : Option (Call Request)) : Prop :=
  task = none → status = .suspend ∧ running = none

theorem Quiet.running {task : TaskStep Reply} {status : ServiceCallStatus}
    {running : Option (Call Request)} : Quiet (some task) status running := by
  intro ended
  cases ended

def LoopFacts (task : Option (TaskStep Reply)) (status : ServiceCallStatus)
    (running : Option (Call Request)) : LoopStep Request → Prop
  | .processTest request | .processWrite request =>
      task = none ∧ status = .suspend ∧ running = some ⟨request, []⟩
  | .launch request => task = none ∧ status = .process ∧ running = some ⟨request, []⟩
  | _ => Quiet task status running

def TaskFacts (status : ServiceCallStatus) (running : Option (Call Request)) :
    TaskStep Reply → Prop
  | .callback | .endStatus _ => ∃ call, running = some call ∧ Shows call.set status
  | .setTestProcess setter =>
      ∃ request set, running = some ⟨request, set ++ [setter.status]⟩ ∧ Shows set status
  | .setTestPrompted setter =>
      status ≠ .process ∧
        ∃ request set, running = some ⟨request, set ++ [setter.status]⟩ ∧ Shows set status
  | .setWrite setter =>
      (status = .process ∨ status = .prompted) ∧
        ∃ request, running = some ⟨request, [setter.status]⟩
  | .writeReply reply =>
      ∃ call, running = some call ∧ reply.status = call.final ∧ status = call.final ∧
        status.Terminal
  | .suspendTestProcess | .suspendTestPrompted | .suspendWrite =>
      running = none ∧ status.Terminal

/-- The replies issued so far, for the calls answered and the one in progress. -/
def Answers (issued : List ServiceCallStatus) (answered : List (Call Request))
    (status : ServiceCallStatus) (running : Option (Call Request)) : Prop :=
  ∃ blocks beginning, List.Forall₂ Call.Block answered blocks ∧
    issued = blocks.flatten ++ beginning ∧
    match running with
    | none => beginning = []
    | some _ => Opened status beginning

structure Coherent (server : ServiceServer Request Reply) : Prop where
  loop : LoopFacts server.task server.callsStatus server.running server.loop
  task : ∀ task, server.task = some task → TaskFacts server.callsStatus server.running task
  calls : (server.answered ++ server.running.toList).map Call.request = server.accepted
  answers : server.replies.isCancelled = false →
    Answers (server.replies.issued.map ServiceRPCReply.status) server.answered
      server.callsStatus server.running

theorem LoopFacts.busy {task : TaskStep Reply} {status : ServiceCallStatus}
    {running : Option (Call Request)} {loop : LoopStep Request}
    (facts : LoopFacts (some task) status running loop) {task' : Option (TaskStep Reply)}
    {status' : ServiceCallStatus} {running' : Option (Call Request)}
    (quiet : Quiet task' status' running') : LoopFacts task' status' running' loop := by
  cases loop with
  | processTest | processWrite | launch => cases facts.1
  | idle | testSuspend | testProcess | promptTest | promptWrite => exact quiet

theorem LoopFacts.quiet {task : Option (TaskStep Reply)} {status : ServiceCallStatus}
    {running : Option (Call Request)} {loop : LoopStep Request}
    (facts : LoopFacts task status running loop) (idle : running = none) :
    Quiet task status running := by
  cases loop with
  | processTest | processWrite | launch => cases idle.symm.trans facts.2.2
  | idle | testSuspend | testProcess | promptTest | promptWrite => exact facts

theorem TaskFacts.not_suspend {status : ServiceCallStatus} {running : Option (Call Request)}
    {task : TaskStep Reply} (facts : TaskFacts status running task) : status ≠ .suspend := by
  cases task with
  | callback | endStatus =>
      obtain ⟨_, _, consistent⟩ := facts
      exact consistent.not_suspend
  | setTestProcess =>
      obtain ⟨_, _, _, consistent⟩ := facts
      exact consistent.not_suspend
  | setTestPrompted =>
      obtain ⟨_, _, _, _, consistent⟩ := facts
      exact consistent.not_suspend
  | setWrite =>
      obtain ⟨rfl | rfl, _⟩ := facts <;> decide
  | writeReply =>
      obtain ⟨_, _, _, _, terminal⟩ := facts
      exact terminal.1
  | suspendTestProcess | suspendTestPrompted | suspendWrite => exact facts.2.1

theorem TaskFacts.prompt {running : Option (Call Request)} {task : TaskStep Reply}
    (facts : TaskFacts .process running task) :
    TaskFacts .prompted running task ∧ running.isSome := by
  cases task with
  | callback | endStatus =>
      obtain ⟨call, rfl, consistent⟩ := facts
      have unset := consistent.open_nil (.inl rfl)
      exact ⟨⟨call, rfl, by rw [unset]; exact .inr rfl⟩, rfl⟩
  | setTestProcess =>
      obtain ⟨request, set, rfl, consistent⟩ := facts
      have unset := consistent.open_nil (.inl rfl)
      exact ⟨⟨request, set, rfl, by rw [unset]; exact .inr rfl⟩, rfl⟩
  | setTestPrompted => exact absurd rfl facts.1
  | setWrite =>
      obtain ⟨_, request, rfl⟩ := facts
      exact ⟨⟨.inr rfl, request, rfl⟩, rfl⟩
  | writeReply =>
      obtain ⟨_, _, _, _, terminal⟩ := facts
      exact absurd rfl terminal.2.1
  | suspendTestProcess | suspendTestPrompted | suspendWrite => exact absurd rfl facts.2.2.1

/-! ## Steps -/

theorem Answers.reply {issued : List ServiceCallStatus} {answered : List (Call Request)}
    {status status' : ServiceCallStatus} {running running' : Option (Call Request)}
    {reply : ServiceCallStatus} (answers : Answers issued answered status running)
    (inside : running.isSome) (inside' : running'.isSome)
    (opened : ∀ beginning, Opened status beginning → Opened status' (beginning ++ [reply])) :
    Answers (issued ++ [reply]) answered status' running' := by
  obtain ⟨call, rfl⟩ := Option.isSome_iff_exists.mp inside
  obtain ⟨call', rfl⟩ := Option.isSome_iff_exists.mp inside'
  obtain ⟨blocks, beginning, matched, sum, shape⟩ := answers
  exact ⟨blocks, beginning ++ [reply], matched, by rw [sum, List.append_assoc],
    opened beginning shape⟩

theorem Answers.become {issued : List ServiceCallStatus} {answered : List (Call Request)}
    {status status' : ServiceCallStatus} {running running' : Option (Call Request)}
    (answers : Answers issued answered status running)
    (inside : running.isSome) (inside' : running'.isSome)
    (opened : ∀ beginning, Opened status beginning → Opened status' beginning) :
    Answers issued answered status' running' := by
  obtain ⟨call, rfl⟩ := Option.isSome_iff_exists.mp inside
  obtain ⟨call', rfl⟩ := Option.isSome_iff_exists.mp inside'
  obtain ⟨blocks, beginning, matched, sum, shape⟩ := answers
  exact ⟨blocks, beginning, matched, sum, opened beginning shape⟩

theorem Answers.start {issued : List ServiceCallStatus} {answered : List (Call Request)}
    {status : ServiceCallStatus} (answers : Answers issued answered status none)
    (call : Call Request) : Answers issued answered .suspend (some call) := by
  obtain ⟨blocks, beginning, matched, sum, shape⟩ := answers
  exact ⟨blocks, beginning, matched, sum, shape⟩

theorem Answers.finish {issued : List ServiceCallStatus} {answered : List (Call Request)}
    {status : ServiceCallStatus} {call : Call Request}
    (answers : Answers issued answered status (some call)) (terminal : status.Terminal)
    {status' : ServiceCallStatus} :
    Answers (issued ++ [call.final]) (answered ++ [call]) status' none := by
  obtain ⟨blocks, beginning, matched, sum, shape⟩ := answers
  refine ⟨blocks ++ [beginning ++ [call.final]], [], ?_, by rw [sum]; simp, rfl⟩
  refine List.rel_append matched (.cons ?_ .nil)
  rcases Opened.of_terminal shape terminal with rfl | rfl
  · exact .inl rfl
  · exact .inr rfl

def PromptsInTime (server : ServiceServer Request Reply) (action : Action Request Reply) : Prop :=
  action = .loop → server.loop = .promptWrite → server.callsStatus = .process

theorem Coherent.loopStep {server next : ServiceServer Request Reply}
    (coherent : server.Coherent) (inTime : server.PromptsInTime .loop)
    (stepped : server.loopStep = some next) : next.Coherent := by
  have loop := coherent.loop
  unfold ServiceServer.loopStep at stepped
  split at stepped
  case h_1 => cases stepped
  case h_2 request located =>
    rw [located] at loop
    split at stepped
    · rename_i accepts
      simp only [Bool.and_eq_true, isSuspend, decide_eq_true_eq] at accepts
      have idle : server.task = none := by
        cases located : server.task with
        | none => rfl
        | some task => exact absurd accepts.1 (coherent.task task located).not_suspend
      obtain ⟨suspended, empty⟩ := loop idle
      have calls := coherent.calls
      have answers := coherent.answers
      rw [empty] at calls answers
      cases stepped
      refine ⟨⟨idle, suspended, rfl⟩, fun task running => ?_, ?_, fun active => ?_⟩
      · cases idle.symm.trans running
      · simp only [Option.toList_none, List.append_nil] at calls
        simp only [Option.toList_some, List.map_append, List.map_cons, List.map_nil, calls]
      · dsimp only
        rw [suspended]
        exact (answers active).start _
    · cases stepped
      exact ⟨loop, coherent.task, coherent.calls, coherent.answers⟩
  case h_3 request located =>
    rw [located] at loop
    obtain ⟨idle, suspended, running⟩ := loop
    rw [if_neg (by simp [isSuspend, suspended])] at stepped
    cases stepped
    exact ⟨⟨idle, suspended, running⟩, coherent.task, coherent.calls, coherent.answers⟩
  case h_4 request located =>
    rw [located] at loop
    obtain ⟨idle, suspended, running⟩ := loop
    cases stepped
    refine ⟨⟨idle, rfl, running⟩, fun task busy => ?_, coherent.calls, fun active => ?_⟩
    · cases idle.symm.trans busy
    · simp only [writeReply, ReplyStream.writeReply_isCancelled] at active ⊢
      rw [ReplyStream.writeReply_issued active, List.map_append]
      have answers := coherent.answers active
      rw [suspended] at answers
      exact answers.reply (by rw [running]; rfl) (by rw [running]; rfl) fun beginning empty => by
        rw [show beginning = [] from empty]
        rfl
  case h_5 request located =>
    rw [located] at loop
    obtain ⟨idle, processing, running⟩ := loop
    rw [idle] at stepped
    cases stepped
    refine ⟨Quiet.running, fun task started => ?_, coherent.calls, coherent.answers⟩
    cases started
    exact ⟨_, running, .inl processing⟩
  case h_6 request located =>
    rw [located] at loop
    split at stepped <;> cases stepped <;>
      exact ⟨loop, coherent.task, coherent.calls, coherent.answers⟩
  case h_7 located =>
    rw [located] at loop
    split at stepped <;> cases stepped <;>
      exact ⟨loop, coherent.task, coherent.calls, coherent.answers⟩
  case h_8 located =>
    rw [located] at loop
    have processing := inTime rfl located
    cases stepped
    cases busy : server.task with
    | none => cases (loop busy).1.symm.trans processing
    | some task =>
        have facts := coherent.task task busy
        rw [processing] at facts
        obtain ⟨prompted, running⟩ := facts.prompt
        refine ⟨?_, fun task' same => ?_, coherent.calls, fun active => ?_⟩
        · intro ended
          cases busy.symm.trans ended
        · cases busy.symm.trans same
          exact prompted
        · simp only [writeReply, ReplyStream.writeReply_isCancelled] at active ⊢
          rw [ReplyStream.writeReply_issued active, List.map_append]
          have answers := coherent.answers active
          rw [processing] at answers
          exact answers.reply running running fun beginning only => by
            rw [show beginning = [.process] from only]
            exact .inr rfl

theorem endStatus_final {server : ServiceServer Request Reply} {call : Call Request}
    (consistent : Shows call.set server.callsStatus) :
    server.endStatus = call.final ∧ server.endStatus.Terminal := by
  cases asked : call.set with
  | nil =>
      rw [asked] at consistent
      have unset : server.endStatus = .aborted := by
        rcases consistent with same | same <;>
          simp [ServiceServer.endStatus, isSuspend, isProcess, isPrompted, same]
      rw [unset, Call.final, asked]
      exact ⟨rfl, by decide, by decide, by decide⟩
  | cons first rest =>
      rw [asked] at consistent
      obtain ⟨same, terminal⟩ := consistent
      have kept : server.endStatus = first := by
        obtain ⟨notSuspend, notProcess, notPrompted⟩ := terminal
        simp [ServiceServer.endStatus, isSuspend, isProcess, isPrompted, same, notSuspend,
          notProcess, notPrompted]
      rw [kept, Call.final, asked]
      exact ⟨rfl, terminal⟩

theorem Coherent.taskStep {server next : ServiceServer Request Reply}
    (coherent : server.Coherent) (stepped : server.taskStep = some next) : next.Coherent := by
  have loop := coherent.loop
  cases located : server.task with
  | none =>
      simp only [ServiceServer.taskStep, located] at stepped
      cases stepped
  | some task =>
      have facts := coherent.task task located
      rw [located] at loop
      -- a step that stays in the task only has to say where it now stands
      have move : ∀ task', TaskFacts server.callsStatus server.running task' →
          ({ server with task := some task' } : ServiceServer Request Reply).Coherent := by
        intro task' facts'
        refine ⟨loop.busy Quiet.running, fun task'' same => ?_, coherent.calls, coherent.answers⟩
        cases same
        exact facts'
      cases task with
      | callback =>
          simp only [ServiceServer.taskStep, located] at stepped
          cases stepped
      | setTestProcess setter =>
          obtain ⟨request, set, running, consistent⟩ := facts
          simp only [ServiceServer.taskStep, located, isProcess, decide_eq_true_eq] at stepped
          split at stepped
          · rename_i processing
            cases stepped
            have unset := consistent.open_nil (.inl processing)
            exact move _ ⟨.inl processing, request, by rw [running, unset]; rfl⟩
          · rename_i notProcess
            cases stepped
            exact move _ ⟨notProcess, request, set, running, consistent⟩
      | setTestPrompted setter =>
          obtain ⟨notProcess, request, set, running, consistent⟩ := facts
          simp only [ServiceServer.taskStep, located, isPrompted, decide_eq_true_eq] at stepped
          split at stepped
          · rename_i prompted
            cases stepped
            have unset := consistent.open_nil (.inr prompted)
            exact move _ ⟨.inr prompted, request, by rw [running, unset]; rfl⟩
          · rename_i notPrompted
            cases stepped
            exact move _ ⟨_, running, consistent.late notProcess notPrompted⟩
      | setWrite setter =>
          obtain ⟨open_, request, running⟩ := facts
          simp only [ServiceServer.taskStep, located] at stepped
          cases stepped
          refine ⟨loop.busy Quiet.running, fun task' same => ?_, coherent.calls, fun active => ?_⟩
          · cases same
            exact ⟨_, running, rfl, setter.status_terminal⟩
          · refine (coherent.answers active).become (by rw [running]; rfl) (by rw [running]; rfl)
              fun beginning opened => opened.terminal ?_ setter.status_terminal
            rcases open_ with same | same <;> rw [same] <;> decide
      | endStatus payload =>
          obtain ⟨call, running, consistent⟩ := facts
          obtain ⟨final, terminal⟩ := endStatus_final consistent
          simp only [ServiceServer.taskStep, located] at stepped
          cases stepped
          refine ⟨loop.busy Quiet.running, fun task' same => ?_, coherent.calls, fun active => ?_⟩
          · cases same
            exact ⟨call, running, final, final, terminal⟩
          · exact (coherent.answers active).become (by rw [running]; rfl) (by rw [running]; rfl)
              fun beginning opened => opened.terminal consistent.not_suspend terminal
      | writeReply reply =>
          obtain ⟨call, running, replied, ended, terminal⟩ := facts
          simp only [ServiceServer.taskStep, located, running, Option.toList_some] at stepped
          cases stepped
          refine ⟨loop.busy Quiet.running, fun task' same => ?_, ?_, fun active => ?_⟩
          · cases same
            exact ⟨rfl, terminal⟩
          · have calls := coherent.calls
            rw [running] at calls
            simpa [ServiceServer.writeReply] using calls
          · simp only [ServiceServer.writeReply, ReplyStream.writeReply_isCancelled] at active ⊢
            rw [ReplyStream.writeReply_issued active, List.map_append, List.map_singleton, replied]
            have answers := coherent.answers active
            rw [running] at answers
            exact answers.finish terminal
      | suspendTestProcess =>
          obtain ⟨idle, terminal⟩ := facts
          simp only [ServiceServer.taskStep, located, isProcess, decide_eq_true_eq] at stepped
          rw [if_neg terminal.2.1] at stepped
          cases stepped
          exact move _ ⟨idle, terminal⟩
      | suspendTestPrompted =>
          obtain ⟨idle, terminal⟩ := facts
          simp only [ServiceServer.taskStep, located, isPrompted, decide_eq_true_eq] at stepped
          rw [if_neg terminal.2.2] at stepped
          cases stepped
          exact move _ ⟨idle, terminal⟩
      | suspendWrite =>
          obtain ⟨idle, _⟩ := facts
          simp only [ServiceServer.taskStep, located] at stepped
          cases stepped
          refine ⟨loop.busy fun _ => ⟨rfl, idle⟩, (fun _ same => by cases same), coherent.calls,
            fun active => ?_⟩
          have answers := coherent.answers active
          rw [idle] at answers
          dsimp only
          rw [idle]
          exact answers

theorem Coherent.callbackSet {server next : ServiceServer Request Reply} {setter : Setter}
    (coherent : server.Coherent) (stepped : server.callbackSet setter = some next) :
    next.Coherent := by
  unfold ServiceServer.callbackSet at stepped
  split at stepped
  · rename_i located
    have loop := coherent.loop
    rw [located] at loop
    obtain ⟨call, running, consistent⟩ := coherent.task _ located
    have calls := coherent.calls
    have answers := coherent.answers
    rw [running] at stepped calls answers
    cases stepped
    refine ⟨loop.busy Quiet.running, fun task' same => ?_, by simpa using calls, fun active => ?_⟩
    · cases same
      exact ⟨_, _, rfl, consistent⟩
    · exact (answers active).become rfl rfl fun _ opened => opened
  · cases stepped

theorem Coherent.callbackReturn {server next : ServiceServer Request Reply} {payload : Reply}
    (coherent : server.Coherent) (stepped : server.callbackReturn payload = some next) :
    next.Coherent := by
  unfold ServiceServer.callbackReturn at stepped
  split at stepped
  · rename_i located
    have loop := coherent.loop
    rw [located] at loop
    have facts := coherent.task _ located
    cases stepped
    refine ⟨loop.busy Quiet.running, fun task' same => ?_, coherent.calls, coherent.answers⟩
    cases same
    exact facts
  · cases stepped

theorem Coherent.receive {server next : ServiceServer Request Reply}
    {request : ServiceRPCRequest Request} (coherent : server.Coherent)
    (stepped : server.receive request = some next) : next.Coherent := by
  unfold ServiceServer.receive at stepped
  split at stepped
  · rename_i located
    have loop := coherent.loop
    rw [located] at loop
    cases stepped
    exact ⟨loop, coherent.task, coherent.calls, coherent.answers⟩
  · cases stepped

theorem Coherent.step {server next : ServiceServer Request Reply} {action : Action Request Reply}
    (coherent : server.Coherent) (inTime : server.PromptsInTime action)
    (stepped : server.step action = some next) : next.Coherent := by
  cases action with
  | receive request => exact coherent.receive stepped
  | loop => exact coherent.loopStep inTime stepped
  | callbackSet setter => exact coherent.callbackSet stepped
  | callbackReturn payload => exact coherent.callbackReturn stepped
  | task => exact coherent.taskStep stepped
  | complete ok =>
      obtain ⟨replies, ended, rfl⟩ := Option.map_eq_some_iff.mp stepped
      simp only [ReplyStream.complete] at ended
      split at ended
      · cases ended
        exact ⟨coherent.loop, coherent.task, coherent.calls, coherent.answers⟩
      · cases ended
  | handleWrite =>
      simp only [ServiceServer.step] at stepped
      split at stepped
      · obtain ⟨replies, popped, rfl⟩ := Option.map_eq_some_iff.mp stepped
        simp only [ReplyStream.handleWrite] at popped
        split at popped
        · split at popped <;> cases popped <;>
            exact ⟨coherent.loop, coherent.task, coherent.calls, coherent.answers⟩
        · cases popped
      · cases stepped
  | disconnect =>
      cases stepped
      exact ⟨coherent.loop, coherent.task, coherent.calls, fun active => by cases active⟩

theorem Coherent.faithful {server : ServiceServer Request Reply} (coherent : server.Coherent) :
    server.Faithful := by
  refine ⟨fun active => ?_, coherent.calls, fun ended idle => (coherent.loop.quiet idle ended).1⟩
  obtain ⟨blocks, beginning, matched, sum, shape⟩ := coherent.answers active
  cases running : server.running with
  | none =>
      rw [running] at shape
      exact ⟨blocks, beginning, matched, sum, by rw [shape]; exact List.nil_prefix, fun _ => shape⟩
  | some call =>
      rw [running] at shape
      exact ⟨blocks, beginning, matched, sum, Opened.beginning shape,
        fun empty => by cases running.symm.trans empty⟩

theorem connected_coherent : (connected : ServiceServer Request Reply).Coherent where
  loop := fun _ => ⟨rfl, rfl⟩
  task _ same := by cases same
  calls := rfl
  answers _ := ⟨[], [], .nil, rfl, rfl⟩

/-- In every run in which `setPrompted` only writes while the call is in PROCESS, the
replies follow the grammar, with the final statuses the callbacks asked for. -/
theorem faithful_of_promptsInTime (run : List (Action Request Reply))
    (inTime : machine.Obeys PromptsInTime connected run) :
    machine.Along Faithful connected run :=
  (machine.along_of_obeys (fun _ _ _ coherent inTime stepped => coherent.step inTime stepped)
    connected_coherent inTime).mono fun _ coherent => coherent.faithful

instance [DecidableEq Request] [DecidableEq Reply] (server : ServiceServer Request Reply)
    (action : Action Request Reply) : Decidable (server.PromptsInTime action) :=
  inferInstanceAs (Decidable (action = .loop → server.loop = .promptWrite →
    server.callsStatus = .process))

/-- The loop tests and applies a cancel before the callback calls `setSuccess`. -/
theorem faithful_of_promptsInTime_success :
    (machine : Machine (ServiceServer Unit Unit) _).Along Faithful connected
      [.receive ⟨.pullNewReq, some ()⟩, .loop, .loop, .loop, .loop,
        .receive ⟨.setCanceled, none⟩, .loop, .loop, .loop, .loop,
        .callbackSet .setSuccess, .task, .task, .task, .callbackReturn (), .task, .task,
        .task, .task, .task] :=
  faithful_of_promptsInTime _ (by decide)

/-- The loop tests for a cancel before, and applies it after, the callback's `setSuccess`. -/
def latePrompt : List (Action Unit Unit) :=
  [.receive ⟨.pullNewReq, some ()⟩, .loop, .loop, .loop, .loop,
    .receive ⟨.setCanceled, none⟩, .loop, .loop, .loop,
    .callbackSet .setSuccess, .task, .task, .loop, .callbackReturn (), .task, .task]

theorem latePrompt_not_faithful : ¬ machine.Along Faithful connected latePrompt := by
  intro along
  have evaluated : (machine.exec connected latePrompt).map (fun server =>
      (server.replies.isCancelled, server.replies.issued.map ServiceRPCReply.status,
        server.answered.map Call.set, server.running)) =
      some (false, [.process, .prompted, .aborted], [[.success]], none) := by decide
  obtain ⟨final, executed, shape⟩ := Option.map_eq_some_iff.mp evaluated
  simp only [Prod.mk.injEq] at shape
  obtain ⟨active, issued, sets, idle⟩ := shape
  obtain ⟨blocks, beginning, matched, sum, _, empty⟩ := (along.final executed).grammar active
  obtain ⟨call, answered, asked⟩ := List.map_eq_singleton_iff.mp sets
  rw [answered] at matched
  rw [issued, empty idle] at sum
  cases matched with
  | cons block rest =>
      cases rest
      have success : call.final = .success := by rw [Call.final, asked]; rfl
      rcases block with rfl | rfl <;> rw [success] at sum <;> simp at sum

end ServiceServer

end ProtoCore.Service
