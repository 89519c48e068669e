import ProtoCore.Topic.StreamIntegrity

/-!
# One message for many sockets

`write_to_socket` serves the sockets of a topic one after the other. What one socket does
reaches the next in two ways: the loop returns at the first write that fails, and `errno`
keeps the `EAGAIN` of a full socket for the writes that come after it.
-/

set_option autoImplicit false

namespace ProtoCore.Topic

open Library

/-! ## The results of one write -/

/-- The error that ends a write of `n` bytes, if one does. -/
def raised : Nat → List WriteResult → Option Int
  | 0, _ | _ + 1, [] => none
  | _ + 1, .error errno :: _ => some errno
  | n + 1, .accepted count :: results => raised (n + 1 - count) results

/-- The bytes taken until the write ends. -/
def taken : Nat → List WriteResult → Nat
  | 0, _ | _ + 1, [] | _ + 1, .error _ :: _ => 0
  | n + 1, .accepted count :: results => count + taken (n + 1 - count) results

/-- The results last until the write ends, and take no more than it offers. -/
def lasts : Nat → List WriteResult → Bool
  | 0, _ | _ + 1, .error _ :: _ => true
  | _ + 1, [] => false
  | n + 1, .accepted count :: results => decide (count ≤ n + 1) && lasts (n + 1 - count) results

theorem lasts_accepted {n count : Nat} {results : List WriteResult} (positive : 0 < n)
    (ends : lasts n (.accepted count :: results) = true) :
    count ≤ n ∧ lasts (n - count) results = true := by
  cases n with
  | zero => exact absurd positive (Nat.lt_irrefl 0)
  | succ n =>
      rw [lasts, Bool.and_eq_true, decide_eq_true_iff] at ends
      exact ends

/-- Under an old `EAGAIN` the loop ends with its first result. -/
def heard (errno : Int) (results : List WriteResult) : List WriteResult :=
  if errno = EAGAIN then results.take 1 else results

theorem taken_accepted {n : Nat} (positive : 0 < n) (count : Nat) (results : List WriteResult) :
    taken n (.accepted count :: results) = count + taken (n - count) results := by
  cases n with
  | zero => exact absurd positive (Nat.lt_irrefl 0)
  | succ n => rw [taken]

theorem taken_le {n : Nat} {results : List WriteResult} (ends : lasts n results = true) :
    taken n results ≤ n := by
  induction results generalizing n with
  | nil => cases n <;> exact Nat.zero_le _
  | cons result results ih =>
      cases n with
      | zero => exact Nat.le_refl _
      | succ n =>
          cases result with
          | error errno => exact Nat.zero_le _
          | accepted count =>
              obtain ⟨fits, ends⟩ := lasts_accepted (show 0 < n + 1 by omega) ends
              have rest := ih ends
              rw [taken]
              omega

theorem fails_iff {raises : Option Int} :
    (raises.all fun errno => errno = EAGAIN) = false ↔
      ∃ errno, raises = some errno ∧ errno ≠ EAGAIN := by
  cases raises with
  | none =>
      refine ⟨nofun, fun fails => ?_⟩
      obtain ⟨_, same, _⟩ := fails
      cases same
  | some errno =>
      rw [Option.all_some, decide_eq_false_iff_not]
      exact ⟨fun different => ⟨errno, rfl, different⟩, fun ⟨_, same, different⟩ =>
        Option.some.inj same ▸ different⟩

theorem raised_of_good {raises : Option Int}
    (good : (raises.all fun errno => errno = EAGAIN) = true) (before : Int) :
    raises.getD before = before ∨ raises = some EAGAIN := by
  cases raises with
  | none => exact .inl rfl
  | some errno =>
      rw [Option.all_some, decide_eq_true_iff] at good
      exact .inr (congrArg some good)

/-- What the first result says of a write that is not short at first. -/
theorem heard_first {n : Nat} {results : List WriteResult} (ends : lasts n results = true)
    (nothing : ∀ count rest, results = .accepted count :: rest → count < n →
      taken n results = 0 ∧ ((raised n results).all fun errno => errno = EAGAIN) = true) :
    taken n (results.take 1) = taken n results ∧
      ((raised n (results.take 1)).all fun errno => errno = EAGAIN) =
        ((raised n results).all fun errno => errno = EAGAIN) := by
  cases n with
  | zero => exact ⟨by rw [taken, taken], by rw [raised, raised]⟩
  | succ n =>
      cases results with
      | nil => cases ends
      | cons result results =>
          rw [List.take_succ_cons, List.take_zero]
          cases result with
          | error errno => exact ⟨rfl, rfl⟩
          | accepted count =>
              obtain ⟨fits, _⟩ := lasts_accepted (show 0 < n + 1 by omega) ends
              by_cases short : count < n + 1
              · obtain ⟨none, good⟩ := nothing count results rfl short
                rw [taken] at none
                obtain rfl : count = 0 := by omega
                refine ⟨?_, ?_⟩
                · rw [taken, taken, none]
                  rfl
                · rw [good]
                  rfl
              · obtain rfl : count = n + 1 := by omega
                refine ⟨?_, ?_⟩
                · rw [taken, taken, Nat.sub_self, taken, taken]
                · rw [raised, raised, Nat.sub_self, raised, raised]

/-- What the loop of `write_fd` comes to, by its results. -/
structure LoopResult (fd : Nat) (toSend : List UInt8) (siz n : Nat) (results : List WriteResult)
    (kernel : Kernel) (final : WriteLoopEnd) : Prop where
  ok : final.ok = (raised n results).all fun errno => errno = EAGAIN
  left : final.n = n - taken n results
  errno : final.kernel.errno = (raised n results).getD kernel.errno
  accepted : final.kernel.accepted fd =
    kernel.accepted fd ++ (toSend.drop (siz - n)).take (taken n results)
  failed : ∀ errno, raised n results = some errno →
    ∃ call ∈ final.calls, call.fd = fd ∧ call.result = .error errno

/-- The kernel after it has taken the bytes. -/
def Kernel.took (kernel : Kernel) (fd : Nat) (bytes : List UInt8) : Kernel :=
  { kernel with accepted := Function.update kernel.accepted fd (kernel.accepted fd ++ bytes) }

section Loop

variable {fd siz n : Nat} {toSend : List UInt8} {results : List WriteResult} {kernel : Kernel}

theorem writeLoop_idle {siz n : Int} (idle : n ≤ 0) (kernel : Kernel)
    (results : List WriteResult) :
    writeLoop fd toSend siz results n kernel = some ⟨true, n, kernel, results, []⟩ := by
  cases results with
  | nil => rw [writeLoop, if_neg (Int.not_lt_of_ge idle)]
  | cons result results => rw [writeLoop, if_neg (Int.not_lt_of_ge idle)]

/-- One round that takes some bytes. -/
theorem writeLoop_accepted (fd : Nat) {count : Nat} (positive : 0 < n) (within : n ≤ siz)
    (room : siz ≤ toSend.length) (fits : count ≤ n) (kernel : Kernel)
    (results : List WriteResult) :
    writeLoop fd toSend siz (.accepted count :: results) n kernel =
      if count < n ∧ kernel.errno = EAGAIN then
        some ⟨true, n, kernel.took fd ((toSend.drop (siz - n)).take count), results,
          [⟨fd, n, kernel.errno, .accepted count⟩]⟩
      else
        (writeLoop fd toSend siz results ((n - count : Nat) : Int)
          (kernel.took fd ((toSend.drop (siz - n)).take count))).map fun final =>
            { final with calls := ⟨fd, n, kernel.errno, .accepted count⟩ :: final.calls } := by
  have offered : ((toSend.drop ((siz : Int) - n).toNat).take (n : Int).toNat) =
      (toSend.drop (siz - n)).take n := by
    rw [Int.toNat_natCast, show ((siz : Int) - n).toNat = siz - n by omega]
  have long : count ≤ ((toSend.drop (siz - n)).take n).length := by
    rw [List.length_take, List.length_drop]
    omega
  have wrote : kernel.write fd ((toSend.drop (siz - n)).take n) (.accepted count) =
      some ((count : Int), kernel.took fd ((toSend.drop (siz - n)).take count)) := by
    rw [Kernel.write, if_pos long, List.take_take, Nat.min_eq_left fits]
    rfl
  have same : (kernel.took fd ((toSend.drop (siz - n)).take count)).errno = kernel.errno := rfl
  have rest : (n : Int) - count = ((n - count : Nat) : Int) := by omega
  rw [writeLoop, if_pos (by omega), offered, wrote]
  simp only [same, rest]
  rw [if_neg (by omega)]
  by_cases held : count < n ∧ kernel.errno = EAGAIN
  · rw [if_pos held, if_pos ⟨by omega, held.2⟩]
  · rw [if_neg held, if_neg fun breaks => held ⟨by omega, breaks.2⟩]

/-- An error ends the loop, and only `EAGAIN` keeps the socket. -/
theorem writeLoop_error (positive : 0 < n) (errno : Int) :
    writeLoop fd toSend siz (.error errno :: results) n kernel =
      some ⟨decide (errno = EAGAIN), n, { kernel with errno := errno }, results,
        [⟨fd, n, kernel.errno, .error errno⟩]⟩ := by
  rw [writeLoop, if_pos (by omega), Kernel.write]
  by_cases full : errno = EAGAIN
  · subst full
    dsimp only
    rw [if_neg (fun fails => fails.2.2 rfl), if_pos ⟨by omega, rfl⟩]
    rfl
  · dsimp only
    rw [if_pos ⟨by omega, rfl, full⟩, decide_eq_false full]

namespace LoopResult

theorem idle (kernel : Kernel) (results others : List WriteResult) :
    LoopResult fd toSend siz 0 results kernel ⟨true, (0 : Nat), kernel, others, []⟩ where
  ok := by rw [raised]; rfl
  left := by rw [taken]; rfl
  errno := by rw [raised]; rfl
  accepted := by rw [taken, List.take_zero, List.append_nil]
  failed errno raises := by
    rw [raised] at raises
    cases raises

/-- No result, and nothing counted. -/
theorem silent (n : Nat) (kernel : Kernel) (others : List WriteResult) :
    LoopResult fd toSend siz n [] kernel ⟨true, n, kernel, others, []⟩ := by
  cases n with
  | zero => exact idle kernel [] others
  | succ n =>
      refine ⟨by rw [raised]; rfl, by rw [taken]; exact (Int.sub_zero _).symm,
        by rw [raised]; rfl, ?_, ?_⟩
      · rw [taken, List.take_zero, List.append_nil]
      · intro errno raises
        rw [raised] at raises
        cases raises

theorem error (positive : 0 < n) (kernel : Kernel) (errno : Int)
    (results others : List WriteResult) :
    LoopResult fd toSend siz n (.error errno :: results) kernel
      ⟨decide (errno = EAGAIN), n, { kernel with errno := errno }, others,
        [⟨fd, n, kernel.errno, .error errno⟩]⟩ := by
  cases n with
  | zero => exact absurd positive (Nat.lt_irrefl 0)
  | succ n =>
      refine ⟨by rw [raised]; rfl, by rw [taken]; rfl, by rw [raised]; rfl, ?_, ?_⟩
      · rw [taken, List.take_zero, List.append_nil]
      · intro other raises
        rw [raised] at raises
        cases raises
        exact ⟨_, List.mem_singleton_self _, rfl, rfl⟩

theorem accept {count : Nat} {final : WriteLoopEnd} (positive : 0 < n) (within : n ≤ siz)
    (fits : count ≤ n) (rest : LoopResult fd toSend siz (n - count) results
      (kernel.took fd ((toSend.drop (siz - n)).take count)) final) (call : WriteCall) :
    LoopResult fd toSend siz n (.accepted count :: results) kernel
      { final with calls := call :: final.calls } := by
  cases n with
  | zero => exact absurd positive (Nat.lt_irrefl 0)
  | succ n =>
      refine ⟨?_, ?_, ?_, ?_, ?_⟩
      · rw [raised]
        exact rest.ok
      · rw [taken]
        have left := rest.left
        dsimp only
        omega
      · rw [raised]
        exact rest.errno
      · have followed := rest.accepted
        dsimp only [Kernel.took] at followed ⊢
        rw [followed, Function.update_self, taken, List.append_assoc, List.take_add,
          List.drop_drop, show siz - (n + 1) + count = siz - (n + 1 - count) by omega]
      · intro errno raises
        rw [raised] at raises
        obtain ⟨call, member, made⟩ := rest.failed errno raises
        exact ⟨call, List.mem_cons_of_mem _ member, made⟩

end LoopResult

/-- The whole script, where no `EAGAIN` is old. -/
theorem writeLoop_fresh (fd : Nat) (within : n ≤ siz) (room : siz ≤ toSend.length)
    (ends : lasts n results = true)
    (fresh : kernel.errno ≠ EAGAIN) :
    ∃ final, writeLoop fd toSend siz results n kernel = some final ∧
      LoopResult fd toSend siz n results kernel final := by
  induction results generalizing n kernel with
  | nil =>
      cases n with
      | zero => exact ⟨_, writeLoop_idle (Int.le_refl 0) kernel [], .idle kernel [] []⟩
      | succ n => cases ends
  | cons result results ih =>
      by_cases positive : 0 < n
      · cases result with
        | error errno => exact ⟨_, writeLoop_error positive errno, .error positive kernel errno _ _⟩
        | accepted count =>
            obtain ⟨fits, ends⟩ := lasts_accepted positive ends
            have looped := writeLoop_accepted fd positive within room fits kernel results
            rw [if_neg fun held => fresh held.2] at looped
            obtain ⟨final, ran, rest⟩ := ih (Nat.le_trans (Nat.sub_le n count) within) ends
              (show (kernel.took fd ((toSend.drop (siz - n)).take count)).errno ≠ EAGAIN from fresh)
            rw [ran] at looped
            exact ⟨_, looped, rest.accept positive within fits _⟩
      · obtain rfl : n = 0 := Nat.eq_zero_of_not_pos positive
        exact ⟨_, writeLoop_idle (Int.le_refl 0) kernel _, .idle kernel _ _⟩

/-- Under an old `EAGAIN` the loop makes the same of what it hears, unless it hears of some
but not all of its bytes. -/
theorem writeLoop_heard (fd : Nat) (within : n ≤ siz) (room : siz ≤ toSend.length)
    (ends : lasts n results = true)
    (whole : kernel.errno = EAGAIN → ∀ count rest, results = .accepted count :: rest →
      count < n → count = 0) :
    ∃ final, writeLoop fd toSend siz results n kernel = some final ∧
      LoopResult fd toSend siz n (heard kernel.errno results) kernel final := by
  by_cases old : kernel.errno = EAGAIN
  · rw [heard, if_pos old]
    by_cases positive : 0 < n
    · cases results with
      | nil =>
          cases n with
          | zero => exact absurd positive (Nat.lt_irrefl 0)
          | succ n => cases ends
      | cons result results =>
          rw [List.take_succ_cons, List.take_zero]
          cases result with
          | error errno =>
              exact ⟨_, writeLoop_error positive errno, .error positive kernel errno _ _⟩
          | accepted count =>
              have none := whole old count results rfl
              obtain ⟨fits, _⟩ := lasts_accepted positive ends
              have looped := writeLoop_accepted fd positive within room fits kernel results
              by_cases short : count < n
              · -- nothing was taken, and the loop breaks
                obtain rfl := none short
                rw [if_pos ⟨short, old⟩] at looped
                exact ⟨_, looped, .accept positive within fits (.silent n _ results) _⟩
              · obtain rfl : count = n := by omega
                rw [if_neg fun held => short held.1, Nat.sub_self, Nat.cast_zero,
                  writeLoop_idle (Int.le_refl 0)] at looped
                refine ⟨_, looped, .accept positive within fits ?_ _⟩
                rw [Nat.sub_self]
                exact .idle _ [] results
    · obtain rfl : n = 0 := Nat.eq_zero_of_not_pos positive
      exact ⟨_, writeLoop_idle (Int.le_refl 0) kernel _, .idle kernel _ _⟩
  · rw [heard, if_neg old]
    exact writeLoop_fresh fd within room ends old

end Loop

namespace Publishing

/-! ## A script for each socket -/

/-- The loop of `write_to_socket`, where each socket has results of its own. -/
def writeEach (topic : String) (msg : List UInt8) (scripts : Nat → List WriteResult) :
    List Nat → Publishing → Option Written
  | [], state => some ⟨true, state, [], []⟩
  | fd :: fds, state =>
      match state.client.clientsData[fd]? with
      | none => none
      | some data =>
          if maxWriteBufferSize < data.length then writeEach topic msg scripts fds state
          else
            match (state.append fd data msg).writeFd topic fd (scripts fd) with
            | none => none
            | some written =>
                if written.ok then
                  (writeEach topic msg scripts fds written.state).map fun final =>
                    { final with calls := written.calls ++ final.calls }
                else some { written with results := [] }

theorem writeLoop_used {fd : Nat} {toSend : List UInt8} {siz n : Int}
    {results : List WriteResult} {kernel : Kernel} {final : WriteLoopEnd}
    (looped : writeLoop fd toSend siz results n kernel = some final) :
    ∃ used, results = used ++ final.results ∧ ∀ others,
      writeLoop fd toSend siz (used ++ others) n kernel =
        some { final with results := others } := by
  induction results generalizing n kernel final with
  | nil =>
      by_cases left : 0 < n
      · rw [writeLoop, if_pos left] at looped
        cases looped
      · rw [writeLoop, if_neg left] at looped
        cases looped
        exact ⟨[], rfl, fun others => writeLoop_idle (Int.not_lt.mp left) kernel others⟩
  | cons result results ih =>
      by_cases left : 0 < n
      · simp only [writeLoop, if_pos left] at looped
        cases wrote : kernel.write fd ((toSend.drop (siz - n).toNat).take n.toNat) result with
        | none =>
            rw [wrote] at looped
            cases looped
        | some outcome =>
            obtain ⟨nwrite, next⟩ := outcome
            simp only [wrote] at looped
            by_cases fails : nwrite < n ∧ nwrite = -1 ∧ next.errno ≠ EAGAIN
            · rw [if_pos fails] at looped
              cases looped
              refine ⟨[result], rfl, fun others => ?_⟩
              simp only [List.cons_append, writeLoop, if_pos left, wrote, if_pos fails]
              rfl
            · rw [if_neg fails] at looped
              by_cases breaks : nwrite < n ∧ next.errno = EAGAIN
              · rw [if_pos breaks] at looped
                cases looped
                refine ⟨[result], rfl, fun others => ?_⟩
                simp only [List.cons_append, writeLoop, if_pos left, wrote, if_neg fails,
                  if_pos breaks]
                rfl
              · rw [if_neg breaks] at looped
                obtain ⟨rest, ran, rfl⟩ := Option.map_eq_some_iff.mp looped
                obtain ⟨used, split, same⟩ := ih ran
                refine ⟨result :: used, congrArg (result :: ·) split, fun others => ?_⟩
                simp only [List.cons_append, writeLoop, if_pos left, wrote, if_neg fails,
                  if_neg breaks, same]
                rfl
      · rw [writeLoop_idle (Int.not_lt.mp left)] at looped
        cases looped
        exact ⟨[], rfl, fun others => writeLoop_idle (Int.not_lt.mp left) kernel others⟩

theorem writeFd_used {state : Publishing} {topic : String} {fd : Nat}
    {results : List WriteResult} {written : Written}
    (wrote : state.writeFd topic fd results = some written) :
    ∃ used, results = used ++ written.results ∧ ∀ others,
      state.writeFd topic fd (used ++ others) = some { written with results := others } := by
  cases located : state.client.clientsData[fd]? with
  | none =>
      simp only [writeFd, located] at wrote
      cases wrote
  | some toSend =>
      simp only [writeFd, located] at wrote ⊢
      obtain ⟨final, looped, rfl⟩ := Option.map_eq_some_iff.mp wrote
      obtain ⟨used, split, same⟩ := writeLoop_used looped
      refine ⟨used, split, fun others => ?_⟩
      rw [same]
      rfl

/-- The results that it has used are enough. -/
theorem writeFd_alone {state : Publishing} {topic : String} {fd : Nat}
    {results : List WriteResult} {written : Written}
    (wrote : state.writeFd topic fd results = some written) :
    ∃ used, state.writeFd topic fd used = some { written with results := [] } := by
  obtain ⟨used, _, same⟩ := writeFd_used wrote
  refine ⟨used, ?_⟩
  rw [← same [], List.append_nil]

/-- What the sockets do by scripts of their own is a call of `write_to_socket`. -/
theorem writeEach_writeSockets {topic : String} {msg : List UInt8}
    {scripts : Nat → List WriteResult} {fds : List Nat} {state : Publishing} {written : Written}
    (wrote : writeEach topic msg scripts fds state = some written) :
    ∃ used, ∀ others, writeSockets topic msg fds state (used ++ others) =
      some { written with results := others } := by
  induction fds generalizing state written with
  | nil =>
      cases wrote
      exact ⟨[], fun others => rfl⟩
  | cons fd fds ih =>
      cases located : state.client.clientsData[fd]? with
      | none =>
          simp only [writeEach, located] at wrote
          cases wrote
      | some data =>
          simp only [writeEach, writeSockets, located] at wrote ⊢
          by_cases skips : maxWriteBufferSize < data.length
          · simp only [if_pos skips] at wrote ⊢
            exact ih wrote
          · simp only [if_neg skips] at wrote ⊢
            cases first : (state.append fd data msg).writeFd topic fd (scripts fd) with
            | none =>
                rw [first] at wrote
                cases wrote
            | some served =>
                obtain ⟨head, _, same⟩ := writeFd_used first
                simp only [first] at wrote
                by_cases good : served.ok = true
                · rw [if_pos good] at wrote
                  obtain ⟨final, rest, rfl⟩ := Option.map_eq_some_iff.mp wrote
                  obtain ⟨tail, ran⟩ := ih rest
                  refine ⟨head ++ tail, fun others => ?_⟩
                  rw [List.append_assoc, same]
                  simp only [if_pos good, ran]
                  rfl
                · rw [if_neg good] at wrote
                  cases wrote
                  refine ⟨head, fun others => ?_⟩
                  rw [same]
                  simp only [if_neg good]

theorem writeEach_congr {topic : String} {msg : List UInt8}
    {scripts others : Nat → List WriteResult} {fds : List Nat}
    (same : ∀ fd ∈ fds, scripts fd = others fd) (state : Publishing) :
    writeEach topic msg scripts fds state = writeEach topic msg others fds state := by
  induction fds generalizing state with
  | nil => rfl
  | cons fd fds ih =>
      have head := same fd List.mem_cons_self
      have tail := ih fun later member => same later (List.mem_cons_of_mem fd member)
      simp only [writeEach, head, tail]

/-- Every call of `write_to_socket` gives each socket a script of its own. -/
theorem writeSockets_writeEach {topic : String} {msg : List UInt8} {fds : List Nat}
    (distinct : fds.Nodup) {state : Publishing} {results : List WriteResult} {written : Written}
    (wrote : writeSockets topic msg fds state results = some written) :
    ∃ scripts, writeEach topic msg scripts fds state = some { written with results := [] } := by
  induction fds generalizing state results written with
  | nil =>
      cases wrote
      exact ⟨fun _ => [], rfl⟩
  | cons fd fds ih =>
      obtain ⟨absent, distinct⟩ := List.nodup_cons.mp distinct
      obtain ⟨data, located, step⟩ := writeSockets_cons wrote
      cases step with
      | skipped full rest =>
          obtain ⟨scripts, ran⟩ := ih distinct rest
          refine ⟨scripts, ?_⟩
          simp only [writeEach, located, if_pos full, ran]
      | failed room wroteFirst bad =>
          obtain ⟨head, alone⟩ := writeFd_alone wroteFirst
          refine ⟨fun _ => head, ?_⟩
          simp only [writeEach, located, if_neg room, alone, bad, if_neg Bool.false_ne_true]
      | served room wroteFirst good rest =>
          rename_i served final
          obtain ⟨head, alone⟩ := writeFd_alone wroteFirst
          obtain ⟨scripts, ran⟩ := ih distinct rest
          have kept : writeEach topic msg (Function.update scripts fd head) fds
              served.state = writeEach topic msg scripts fds served.state := by
            refine writeEach_congr (fun later member => ?_) _
            have different : later ≠ fd := by
              rintro rfl
              exact absent member
            exact Function.update_of_ne different _ _
          refine ⟨Function.update scripts fd head, ?_⟩
          simp only [writeEach, located, if_neg room, Function.update_self, alone, if_pos good,
            kept, ran]
          rfl

/-! ## One socket -/

/-- What `write_fd` comes to for a socket with the bytes `toSend`, by its results. -/
structure FdResult (state : Publishing) (fd : Nat) (toSend : List UInt8)
    (results : List WriteResult) (written : Written) : Prop where
  ok : written.ok = (raised (int32 toSend.length).toNat results).all fun errno => errno = EAGAIN
  data : written.state.client.clientsData[fd]? =
    some (if written.ok then toSend.drop (taken (int32 toSend.length).toNat results) else [])
  accepted : written.state.kernel.accepted fd =
    state.kernel.accepted fd ++ toSend.take (taken (int32 toSend.length).toNat results)
  initial : written.state.initial fd = state.initial fd
  frames : written.state.frames fd = state.frames fd
  errno : written.state.kernel.errno =
    (raised (int32 toSend.length).toNat results).getD state.kernel.errno
  failed : ∀ errno, raised (int32 toSend.length).toNat results = some errno →
    ∃ call ∈ written.calls, call.fd = fd ∧ call.result = .error errno

theorem writeLoop_int32 (fd : Nat) (toSend : List UInt8) {results : List WriteResult}
    {kernel : Kernel} (ends : lasts (int32 toSend.length).toNat results = true)
    (whole : kernel.errno = EAGAIN → ∀ count rest, results = .accepted count :: rest →
      count < (int32 toSend.length).toNat → count = 0) :
    ∃ final, writeLoop fd toSend (int32 toSend.length) results (int32 toSend.length) kernel =
        some final ∧
      (int32 toSend.length - final.n).toNat =
        taken (int32 toSend.length).toNat (heard kernel.errno results) ∧
      ∃ left, LoopResult fd toSend (int32 toSend.length).toNat (int32 toSend.length).toNat
        (heard kernel.errno results) kernel { final with n := left } := by
  have small := int32_le (Int.natCast_nonneg toSend.length)
  generalize int32 toSend.length = siz at small ends whole ⊢
  by_cases empty : siz ≤ 0
  · have zero : siz.toNat = 0 := by omega
    rw [zero]
    refine ⟨_, writeLoop_idle empty kernel results, ?_, _, .idle kernel _ results⟩
    rw [taken, Int.sub_self]
    rfl
  · obtain ⟨n, rfl⟩ : ∃ n : Nat, siz = n := ⟨siz.toNat, by omega⟩
    rw [Int.toNat_natCast] at ends whole ⊢
    obtain ⟨final, ran, result⟩ := writeLoop_heard fd (Nat.le_refl n)
      (show n ≤ toSend.length by omega) ends whole
    have left := result.left
    exact ⟨final, ran, by omega, final.n, result⟩

theorem writeFd_result {state : Publishing} (topic : String) {fd : Nat} {toSend : List UInt8}
    {results : List WriteResult} (located : state.client.clientsData[fd]? = some toSend)
    (ends : lasts (int32 toSend.length).toNat results = true)
    (whole : state.kernel.errno = EAGAIN → ∀ count rest, results = .accepted count :: rest →
      count < (int32 toSend.length).toNat → count = 0) :
    ∃ written, state.writeFd topic fd results = some written ∧
      FdResult state fd toSend (heard state.kernel.errno results) written := by
  obtain ⟨final, ran, erased, _, result⟩ := writeLoop_int32 fd toSend ends whole
  have inside := (List.getElem?_eq_some_iff.mp located).1
  have wrote : state.writeFd topic fd results = some {
      ok := final.ok
      state := if final.ok
        then state.keepUnsent fd (toSend.drop (int32 toSend.length - final.n).toNat) final.kernel
        else state.dropSocket topic fd final.kernel
      results := final.results
      calls := final.calls } := by
    simp only [writeFd, located, ran]
    rfl
  refine ⟨_, wrote, ?_⟩
  have accepted := result.accepted
  rw [Nat.sub_self, List.drop_zero] at accepted
  cases good : final.ok with
  | true =>
      refine ⟨good ▸ result.ok, ?_, accepted, rfl, rfl, result.errno, result.failed⟩
      simp only [if_true, erased]
      exact List.getElem?_set_self inside
  | false =>
      refine ⟨good ▸ result.ok, ?_, accepted, rfl, rfl, result.errno, result.failed⟩
      exact List.getElem?_set_self inside

/-! ## All sockets of a topic -/

section Fanout

variable (start : Publishing) (topic : String) (msg : List UInt8)
  (scripts : Nat → List WriteResult)

/-- The socket is registered, and is not passed over for the bytes it still has to take. -/
structure Due (fd : Nat) : Prop where
  registered : fd ∈ start.client.clientsTopicFd topic
  room : (start.client.clientsData[fd]?.getD []).length ≤ maxWriteBufferSize

/-- What `write_fd` is called with. -/
def queued (fd : Nat) : List UInt8 := start.client.clientsData[fd]?.getD [] ++ msg

def offered (fd : Nat) : Nat := (int32 (start.queued msg fd).length).toNat

/-- The results that a socket's write has if it comes first. -/
def own (fd : Nat) : List WriteResult := heard start.kernel.errno (scripts fd)

/-- A socket's write does not fail if it comes first. -/
def succeeds (fd : Nat) : Bool :=
  (raised (start.offered msg fd) (start.own scripts fd)).all fun errno => errno = EAGAIN

/-- The message is the last in the stream of the socket. -/
structure Reached (fd : Nat) (written : Written) : Prop where
  registered : fd ∈ written.state.client.clientsTopicFd topic
  frames : written.state.frames fd = start.frames fd ++ [msg]
  stream : ∃ data left, start.client.clientsData[fd]? = some data ∧
    written.state.client.clientsData[fd]? = some left ∧
    written.state.kernel.accepted fd ++ left = start.kernel.accepted fd ++ (data ++ msg)

/-- A write of its own has failed, and the socket is gone. -/
structure Removed (fd : Nat) (written : Written) : Prop where
  unregistered : fd ∉ written.state.client.clientsTopicFd topic
  failed : ∃ call ∈ written.calls, call.fd = fd ∧
    ∃ errno, call.result = .error errno ∧ errno ≠ EAGAIN

/-- An order in which the loop can come to the sockets of the topic. -/
structure Order (order : List Nat) : Prop where
  distinct : order.Nodup
  all : order.toFinset = start.client.clientsTopicFd topic

/-- In every order each socket has what only its own buffer and its own results make of the
message, and no order differs from another. -/
structure Independent : Prop where
  served : ∀ order, start.Order topic order →
    ∃ written, writeEach topic msg scripts order start = some written ∧ ∀ fd,
      (start.Due topic fd → start.Reached topic msg fd written ∨ Removed topic fd written) ∧
      (¬ start.Due topic fd → SameStream fd start written.state)
  sameResult : ∀ order other, start.Order topic order → start.Order topic other →
    ∀ written written', writeEach topic msg scripts order start = some written →
      writeEach topic msg scripts other start = some written' →
        ∀ fd, SameStream fd written.state written'.state

/-- A short first result, after which the loop goes on unless `errno` is an old `EAGAIN`. -/
def FirstShort (fd count : Nat) : Prop :=
  ∃ rest, scripts fd = .accepted count :: rest ∧ count < start.offered msg fd

/-- A write that fails is the only one; no write is short at first and takes bytes, if there
is an old `EAGAIN` in `errno` or one from another socket. -/
structure Unentangled : Prop where
  alone : ∀ fd, start.Due topic fd → start.succeeds msg scripts fd = false →
    ∀ other, start.Due topic other → other = fd
  whole : start.kernel.errno = EAGAIN → ∀ fd count, start.Due topic fd →
    start.FirstShort msg scripts fd count → count = 0
  quiet : start.kernel.errno ≠ EAGAIN → ∀ fd other count, start.Due topic fd →
    start.Due topic other → other ≠ fd →
    raised (start.offered msg other) (scripts other) = some EAGAIN →
    start.FirstShort msg scripts fd count → taken (start.offered msg fd) (scripts fd) = 0

/-- When the loop comes to a socket, `errno` is as it was, or an `EAGAIN` that it does not hear. -/
def ErrnoSpares (fd : Nat) (state : Publishing) : Prop :=
  state.kernel.errno = start.kernel.errno ∨
    state.kernel.errno = EAGAIN ∧ start.kernel.errno ≠ EAGAIN ∧
      ∀ count, start.FirstShort msg scripts fd count →
        taken (start.offered msg fd) (scripts fd) = 0 ∧ start.succeeds msg scripts fd = true

/-- What a socket has after a call, by its own buffer and its own results. -/
structure Outcome (fd : Nat) (final : Publishing) : Prop where
  data : final.client.clientsData[fd]? = some (if start.succeeds msg scripts fd
    then (start.queued msg fd).drop (taken (start.offered msg fd) (start.own scripts fd)) else [])
  accepted : final.kernel.accepted fd = start.kernel.accepted fd ++
    (start.queued msg fd).take (taken (start.offered msg fd) (start.own scripts fd))
  initial : final.initial fd = start.initial fd
  frames : final.frames fd = start.frames fd ++ [msg]
  registered : ∀ other, fd ∈ final.client.clientsTopicFd other ↔
    fd ∈ start.client.clientsTopicFd other ∧
      (start.succeeds msg scripts fd = true ∨ other ≠ topic)

/-- What the write of a socket comes to, in a state where all about the socket is as it was. -/
structure Served (state : Publishing) (fd : Nat) (served : Written) : Prop where
  ok : served.ok = start.succeeds msg scripts fd
  outcome : start.Outcome topic msg scripts fd served.state
  failed : served.ok = false → ∃ call ∈ served.calls, call.fd = fd ∧
    ∃ errno, call.result = .error errno ∧ errno ≠ EAGAIN
  passes : ((raised (start.offered msg fd) (heard state.kernel.errno (scripts fd))).all
    fun errno => errno = EAGAIN) = start.succeeds msg scripts fd
  errno : served.state.kernel.errno =
    (raised (start.offered msg fd) (heard state.kernel.errno (scripts fd))).getD state.kernel.errno

end Fanout

section Results

variable {start : Publishing} {topic : String} {msg : List UInt8}
  {scripts : Nat → List WriteResult} {fd : Nat}

theorem Outcome.same {final other : Publishing}
    (outcome : start.Outcome topic msg scripts fd final) (same : SameStream fd final other) :
    start.Outcome topic msg scripts fd other where
  data := same.data.trans outcome.data
  accepted := same.accepted.trans outcome.accepted
  initial := same.initial.trans outcome.initial
  frames := same.frames.trans outcome.frames
  registered topic := (same.registered topic).trans (outcome.registered topic)

theorem Outcome.unique {left right : Publishing}
    (first : start.Outcome topic msg scripts fd left)
    (second : start.Outcome topic msg scripts fd right) : SameStream fd left right where
  data := second.data.trans first.data.symm
  accepted := second.accepted.trans first.accepted.symm
  initial := second.initial.trans first.initial.symm
  frames := second.frames.trans first.frames.symm
  registered topic := (second.registered topic).trans (first.registered topic).symm

theorem Outcome.reached {written : Written} {data : List UInt8}
    (outcome : start.Outcome topic msg scripts fd written.state)
    (located : start.client.clientsData[fd]? = some data)
    (member : fd ∈ start.client.clientsTopicFd topic)
    (good : start.succeeds msg scripts fd = true) : start.Reached topic msg fd written where
  registered := (outcome.registered topic).mpr ⟨member, .inl good⟩
  frames := outcome.frames
  stream := by
    have left := outcome.data
    rw [if_pos good] at left
    refine ⟨data, _, located, left, ?_⟩
    rw [outcome.accepted, List.append_assoc, List.take_append_drop, queued, located]
    rfl

theorem ErrnoSpares.unheard {state : Publishing} (spares : start.ErrnoSpares msg scripts fd state)
    (whole : start.kernel.errno = EAGAIN → ∀ count, start.FirstShort msg scripts fd count →
      count = 0) :
    state.kernel.errno = EAGAIN → ∀ count rest, scripts fd = .accepted count :: rest →
      count < start.offered msg fd → count = 0 := by
  intro old count rest first short
  rcases spares with errno | ⟨_, _, quiet⟩
  · exact whole (errno ▸ old) count ⟨rest, first, short⟩
  · have none := (quiet count ⟨rest, first, short⟩).1
    rw [first, taken_accepted (Nat.zero_lt_of_lt short)] at none
    omega

/-- The socket takes what it would take if it came first, and fails if it would fail then. -/
theorem ErrnoSpares.alike {state : Publishing} (spares : start.ErrnoSpares msg scripts fd state)
    (ends : lasts (start.offered msg fd) (scripts fd) = true) :
    taken (start.offered msg fd) (heard state.kernel.errno (scripts fd)) =
        taken (start.offered msg fd) (start.own scripts fd) ∧
      ((raised (start.offered msg fd) (heard state.kernel.errno (scripts fd))).all
        fun errno => errno = EAGAIN) = start.succeeds msg scripts fd := by
  rcases spares with errno | ⟨old, fresh, quiet⟩
  · rw [errno]
    exact ⟨rfl, rfl⟩
  · have own : start.own scripts fd = scripts fd := if_neg fresh
    rw [succeeds, own, heard, if_pos old]
    refine heard_first ends fun count rest first short => ?_
    have quiet := quiet count ⟨rest, first, short⟩
    rw [succeeds, own] at quiet
    exact quiet

theorem FdSpec.mem_iff {state : Publishing} {written : Written}
    (spec : FdSpec state topic fd written) (other : String) :
    fd ∈ written.state.client.clientsTopicFd other ↔
      fd ∈ state.client.clientsTopicFd other ∧ (written.ok = true ∨ other ≠ topic) := by
  cases kept : written.ok with
  | true =>
      rw [(spec.kept kept).1]
      exact ⟨fun member => ⟨member, .inl rfl⟩, And.left⟩
  | false =>
      rw [(spec.dropped kept).2]
      by_cases here : other = topic
      · subst here
        rw [Function.update_self]
        exact ⟨fun member => absurd rfl (Finset.ne_of_mem_erase member),
          fun both => absurd both.2 (by simp)⟩
      · rw [Function.update_of_ne here]
        exact ⟨fun member => ⟨member, .inr here⟩, And.left⟩

/-- The write of a socket for which all is as it was, `errno` perhaps apart. -/
theorem serve (topic : String) {state : Publishing} {data : List UInt8}
    (same : SameStream fd start state)
    (located : start.client.clientsData[fd]? = some data)
    (ends : lasts (start.offered msg fd) (scripts fd) = true)
    (whole : start.kernel.errno = EAGAIN → ∀ count, start.FirstShort msg scripts fd count →
      count = 0)
    (spares : start.ErrnoSpares msg scripts fd state) :
    ∃ served, (state.append fd data msg).writeFd topic fd (scripts fd) = some served ∧
      start.Served topic msg scripts state fd served := by
  have inside : fd < state.client.clientsData.length := by
    have found := same.data.trans located
    exact (List.getElem?_eq_some_iff.mp found).1
  have found : (state.append fd data msg).client.clientsData[fd]? = some (data ++ msg) :=
    List.getElem?_set_self inside
  have bytes : start.queued msg fd = data ++ msg := by
    rw [queued, located]
    rfl
  have size : (int32 (data ++ msg).length).toNat = start.offered msg fd := by
    rw [offered, bytes]
  have unheard := spares.unheard whole
  obtain ⟨served, wrote, result⟩ : ∃ served,
      (state.append fd data msg).writeFd topic fd (scripts fd) = some served ∧
        FdResult (state.append fd data msg) fd (data ++ msg)
          (heard state.kernel.errno (scripts fd)) served :=
    writeFd_result topic found (by rw [size]; exact ends) (by rw [size]; exact unheard)
  obtain ⟨count, good⟩ := spares.alike ends
  have ok : served.ok = start.succeeds msg scripts fd := by
    rw [result.ok, size]
    exact good
  refine ⟨served, wrote, ok, ?_, fun bad => ?_, good, by rw [result.errno, size]; rfl⟩
  · refine ⟨?_, ?_, ?_, ?_, fun other => ?_⟩
    · have left := result.data
      rw [size, ok] at left
      exact left.trans (by rw [bytes, ← count])
    · have gone := result.accepted
      rw [size] at gone
      exact gone.trans (by rw [bytes, ← count, ← same.accepted]; rfl)
    · exact result.initial.trans same.initial
    · have appended : (state.append fd data msg).frames fd = state.frames fd ++ [msg] :=
        Function.update_self fd _ _
      rw [result.frames, appended, same.frames]
    · rw [← ok]
      exact ((writeFd_spec wrote).mem_iff other).trans
        (and_congr_left' (same.registered other))
  · obtain ⟨error, raises, different⟩ := fails_iff.mp (result.ok.symm.trans bad)
    obtain ⟨call, member, mine, failed⟩ := result.failed error raises
    exact ⟨call, member, mine, error, failed, different⟩

theorem writeEach_same {fds : List Nat} {state : Publishing} {written : Written}
    (wrote : writeEach topic msg scripts fds state = some written) {other : Nat}
    (absent : other ∉ fds) : SameStream other state written.state := by
  obtain ⟨used, ran⟩ := writeEach_writeSockets wrote
  exact writeSockets_same (ran []) absent

/-- `errno` is as it was, or is the `EAGAIN` of a socket that has been served. -/
def ErrnoFrom (start : Publishing) (topic : String) (msg : List UInt8)
    (scripts : Nat → List WriteResult) (fds : List Nat) (state : Publishing) : Prop :=
  state.kernel.errno = start.kernel.errno ∨
    state.kernel.errno = EAGAIN ∧ start.kernel.errno ≠ EAGAIN ∧
      ∃ other, start.Due topic other ∧ other ∉ fds ∧
        raised (start.offered msg other) (scripts other) = some EAGAIN

theorem ErrnoFrom.tail {fds : List Nat} {state : Publishing}
    (errno : start.ErrnoFrom topic msg scripts (fd :: fds) state) :
    start.ErrnoFrom topic msg scripts fds state := by
  rcases errno with errno | ⟨full, fresh, other, due, gone, blocked⟩
  · exact .inl errno
  · exact .inr ⟨full, fresh, other, due, fun member => gone (List.mem_cons_of_mem fd member),
      blocked⟩

theorem ErrnoFrom.next {fds : List Nat} {state next : Publishing}
    (errno : start.ErrnoFrom topic msg scripts (fd :: fds) state) (due : start.Due topic fd)
    (absent : fd ∉ fds)
    (good : ((raised (start.offered msg fd) (heard state.kernel.errno (scripts fd))).all
      fun errno => errno = EAGAIN) = true)
    (raises : next.kernel.errno =
      (raised (start.offered msg fd) (heard state.kernel.errno (scripts fd))).getD
        state.kernel.errno) :
    start.ErrnoFrom topic msg scripts fds next := by
  rcases raised_of_good good state.kernel.errno with kept | full
  · have tail := errno.tail
    rw [ErrnoFrom, ← kept, ← raises] at tail
    exact tail
  · rw [full] at raises
    rcases errno.tail with same | ⟨_, others⟩
    · rw [same] at full
      by_cases old : start.kernel.errno = EAGAIN
      · exact .inl (raises.trans old.symm)
      · rw [heard, if_neg old] at full
        exact .inr ⟨raises, old, fd, due, absent, full⟩
    · exact .inr ⟨raises, others⟩

/-- An `EAGAIN` of a socket served before does no harm to a later one. -/
theorem Unentangled.spares (unentangled : start.Unentangled topic msg scripts)
    {fds : List Nat} {state : Publishing}
    (errno : start.ErrnoFrom topic msg scripts (fd :: fds) state) (due : start.Due topic fd) :
    start.ErrnoSpares msg scripts fd state := by
  rcases errno with errno | ⟨full, fresh, other, otherDue, gone, blocked⟩
  · exact .inl errno
  · refine .inr ⟨full, fresh, fun count first => ?_⟩
    have different : other ≠ fd := by
      rintro rfl
      exact gone List.mem_cons_self
    refine ⟨unentangled.quiet fresh fd other count due otherDue different blocked first, ?_⟩
    cases good : start.succeeds msg scripts fd with
    | true => rfl
    | false => exact absurd (unentangled.alone fd due good other otherDue) different

/-- The loop from any point on, with the sockets still to come as they were. -/
theorem writeEach_outcome (unentangled : start.Unentangled topic msg scripts)
    (known : ∀ fd ∈ start.client.clientsTopicFd topic, fd < start.client.clientsData.length)
    (ends : ∀ fd, start.Due topic fd → lasts (start.offered msg fd) (scripts fd) = true)
    {fds : List Nat} (distinct : fds.Nodup)
    (members : ∀ fd ∈ fds, fd ∈ start.client.clientsTopicFd topic) {state : Publishing}
    (same : ∀ fd ∈ fds, SameStream fd start state)
    (errno : start.ErrnoFrom topic msg scripts fds state) :
    ∃ written, writeEach topic msg scripts fds state = some written ∧ ∀ fd ∈ fds,
      (start.Due topic fd → start.Outcome topic msg scripts fd written.state ∧
        (start.succeeds msg scripts fd = false → ∃ call ∈ written.calls, call.fd = fd ∧
          ∃ errno, call.result = .error errno ∧ errno ≠ EAGAIN)) ∧
      (¬ start.Due topic fd → SameStream fd start written.state) := by
  induction fds generalizing state with
  | nil => exact ⟨_, rfl, fun fd member => absurd member List.not_mem_nil⟩
  | cons fd fds ih =>
      obtain ⟨absent, distinct⟩ := List.nodup_cons.mp distinct
      have registered := members fd List.mem_cons_self
      have located : start.client.clientsData[fd]? =
          some (start.client.clientsData[fd]?.getD []) := by
        rw [List.getElem?_eq_getElem (known fd registered)]
        rfl
      generalize found : start.client.clientsData[fd]?.getD [] = data at located
      have here := (same fd List.mem_cons_self).data.trans located
      have later : ∀ other ∈ fds, other ≠ fd := by
        rintro other member rfl
        exact absent member
      by_cases due : start.Due topic fd
      · have short : ¬ maxWriteBufferSize < data.length := by
          have room := due.room
          rw [found] at room
          exact Nat.not_lt_of_le room
        obtain ⟨served, wrote, result⟩ :=
          serve topic (same fd List.mem_cons_self) located (ends fd due)
            (fun old count first => unentangled.whole old fd count due first)
            (unentangled.spares errno due)
        have untouched : ∀ other ∈ fds, SameStream other start served.state := by
          intro other member
          have different := later other member
          exact (same other (List.mem_cons_of_mem fd member)).trans
            ((append_same different data msg).trans ((writeFd_spec wrote).same other different))
        cases good : served.ok with
        | true =>
            have errnoNext := errno.next due absent
              (result.passes.trans (result.ok.symm.trans good)) result.errno
            obtain ⟨written, ran, outcomes⟩ := ih distinct
              (fun other member => members other (List.mem_cons_of_mem fd member)) untouched
              errnoNext
            refine ⟨{ written with calls := served.calls ++ written.calls }, ?_, ?_⟩
            · simp only [writeEach, here, if_neg short, wrote, if_pos good, ran]
              rfl
            · intro other member
              rcases List.mem_cons.mp member with rfl | member
              · refine ⟨fun _ => ⟨result.outcome.same (writeEach_same ran absent), fun bad => ?_⟩,
                  fun notDue => absurd due notDue⟩
                rw [← result.ok, good] at bad
                cases bad
              · obtain ⟨served', skipped⟩ := outcomes other member
                refine ⟨fun otherDue => ?_, skipped⟩
                obtain ⟨outcome, failed⟩ := served' otherDue
                refine ⟨outcome, fun bad => ?_⟩
                obtain ⟨call, called, failed⟩ := failed bad
                exact ⟨call, List.mem_append_right _ called, failed⟩
        | false =>
            refine ⟨{ served with results := [] }, ?_, fun other member => ?_⟩
            · simp only [writeEach, here, if_neg short, wrote]
              rw [if_neg (by rw [good]; exact Bool.false_ne_true)]
            · rcases List.mem_cons.mp member with rfl | member
              · exact ⟨fun _ => ⟨result.outcome, fun _ => result.failed good⟩,
                  fun notDue => absurd due notDue⟩
              · -- no other socket waits for the message
                refine ⟨fun otherDue => ?_, fun _ => untouched other member⟩
                have only := unentangled.alone fd due (result.ok.symm.trans good) other otherDue
                exact absurd only (later other member)
      · have long : maxWriteBufferSize < data.length := by
          by_contra short
          exact due ⟨registered, by rw [found]; exact Nat.le_of_not_lt short⟩
        obtain ⟨written, ran, outcomes⟩ := ih distinct
          (fun other member => members other (List.mem_cons_of_mem fd member))
          (fun other member => same other (List.mem_cons_of_mem fd member)) errno.tail
        refine ⟨written, ?_, fun other member => ?_⟩
        · simp only [writeEach, here, if_pos long]
          exact ran
        · rcases List.mem_cons.mp member with rfl | member
          · exact ⟨fun isDue => absurd isDue due, fun _ =>
              (same other List.mem_cons_self).trans (writeEach_same ran absent)⟩
          · exact outcomes other member

/-- Sockets that do not fail, and take no bytes at first that others could keep from being
counted, do not affect each other. -/
theorem Unentangled.independent (unentangled : start.Unentangled topic msg scripts)
    (known : ∀ fd ∈ start.client.clientsTopicFd topic, fd < start.client.clientsData.length)
    (ends : ∀ fd, start.Due topic fd → lasts (start.offered msg fd) (scripts fd) = true) :
    start.Independent topic msg scripts := by
  have ran : ∀ order, start.Order topic order → ∃ written,
      writeEach topic msg scripts order start = some written ∧ ∀ fd ∈ order,
        (start.Due topic fd → start.Outcome topic msg scripts fd written.state ∧
          (start.succeeds msg scripts fd = false → ∃ call ∈ written.calls, call.fd = fd ∧
            ∃ errno, call.result = .error errno ∧ errno ≠ EAGAIN)) ∧
        (¬ start.Due topic fd → SameStream fd start written.state) := fun order enumerates =>
    writeEach_outcome unentangled known ends enumerates.distinct
      (fun fd member => enumerates.all ▸ List.mem_toFinset.mpr member)
      (fun fd _ => SameStream.refl fd start) (.inl rfl)
  have here : ∀ {order}, start.Order topic order → ∀ {fd},
      fd ∈ start.client.clientsTopicFd topic → fd ∈ order := fun enumerates _ member =>
    List.mem_toFinset.mp (enumerates.all ▸ member)
  constructor
  · intro order enumerates
    obtain ⟨written, wrote, outcomes⟩ := ran order enumerates
    refine ⟨written, wrote, fun fd => ⟨fun due => ?_, fun notDue => ?_⟩⟩
    · obtain ⟨outcome, failed⟩ := (outcomes fd (here enumerates due.registered)).1 due
      cases good : start.succeeds msg scripts fd with
      | true =>
          have located := List.getElem?_eq_getElem (known fd due.registered)
          exact .inl (outcome.reached located due.registered good)
      | false =>
          refine .inr ⟨fun member => ?_, failed good⟩
          rcases ((outcome.registered topic).mp member).2 with kept | elsewhere
          · rw [good] at kept
            cases kept
          · exact elsewhere rfl
    · by_cases member : fd ∈ order
      · exact (outcomes fd member).2 notDue
      · exact writeEach_same wrote member
  · intro order other enumerates also written written' wrote wrote' fd
    obtain ⟨first, ran₁, outcomes₁⟩ := ran order enumerates
    obtain ⟨second, ran₂, outcomes₂⟩ := ran other also
    cases wrote.symm.trans ran₁
    cases wrote'.symm.trans ran₂
    by_cases member : fd ∈ start.client.clientsTopicFd topic
    · have left := outcomes₁ fd (here enumerates member)
      have right := outcomes₂ fd (here also member)
      by_cases due : start.Due topic fd
      · exact (left.1 due).1.unique (right.1 due).1
      · exact (left.2 due).symm.trans (right.2 due)
    · have absent : ∀ {order}, start.Order topic order → fd ∉ order := fun enumerates inside =>
        member (enumerates.all ▸ List.mem_toFinset.mpr inside)
      exact (writeEach_same wrote (absent enumerates)).symm.trans
        (writeEach_same wrote' (absent also))

/-! ## Sockets that do affect each other -/

/-- Under an old `EAGAIN` a first write that is short ends the loop, and is not counted. -/
theorem held (topic : String) {state : Publishing} {data : List UInt8} {count : Nat}
    (same : SameStream fd start state) (located : start.client.clientsData[fd]? = some data)
    (old : state.kernel.errno = EAGAIN) (first : start.FirstShort msg scripts fd count) :
    ∃ served, (state.append fd data msg).writeFd topic fd (scripts fd) = some served ∧
      served.ok = true ∧
      served.state.client.clientsData[fd]? = some (data ++ msg) ∧
      served.state.kernel.accepted fd = start.kernel.accepted fd ++ (data ++ msg).take count ∧
      ∀ other, fd ∈ served.state.client.clientsTopicFd other ↔
        fd ∈ start.client.clientsTopicFd other := by
  obtain ⟨rest, script, short⟩ := first
  have inside : fd < state.client.clientsData.length := by
    have found := same.data.trans located
    exact (List.getElem?_eq_some_iff.mp found).1
  have found : (state.append fd data msg).client.clientsData[fd]? = some (data ++ msg) :=
    List.getElem?_set_self inside
  have small := int32_le (Int.natCast_nonneg (data ++ msg).length)
  have size : (int32 (data ++ msg).length).toNat = start.offered msg fd := by
    rw [offered, queued, located]
    rfl
  obtain ⟨siz, whole⟩ : ∃ siz : Nat, int32 (data ++ msg).length = siz :=
    ⟨(int32 (data ++ msg).length).toNat, by omega⟩
  have sizes : siz = start.offered msg fd := by
    rw [← size, whole, Int.toNat_natCast]
  have looped := writeLoop_accepted fd (show 0 < siz by omega) (Nat.le_refl siz)
    (show siz ≤ (data ++ msg).length by omega) (show count ≤ siz by omega) state.kernel rest
  rw [if_pos ⟨by omega, old⟩, Nat.sub_self, List.drop_zero] at looped
  have wrote : (state.append fd data msg).writeFd topic fd (scripts fd) = some {
      ok := true
      state := (state.append fd data msg).keepUnsent fd
        ((data ++ msg).drop ((siz : Int) - siz).toNat)
        (state.kernel.took fd ((data ++ msg).take count))
      results := rest
      calls := [⟨fd, siz, state.kernel.errno, .accepted count⟩] } := by
    simp only [writeFd, found, whole, script]
    exact congrArg _ looped
  refine ⟨_, wrote, rfl, ?_, ?_, fun other => same.registered other⟩
  · rw [Int.sub_self]
    exact List.getElem?_set_self (by rw [append, List.length_set]; exact inside)
  · rw [← same.accepted]
    exact Function.update_self fd _ _

theorem held_nothing {data : List UInt8} {count : Nat} {served : Publishing} {written : Written}
    (located : start.client.clientsData[fd]? = some data)
    (member : fd ∈ start.client.clientsTopicFd topic)
    (first : start.FirstShort msg scripts fd count)
    (kept : served.client.clientsData[fd]? = some (data ++ msg))
    (gone : served.kernel.accepted fd = start.kernel.accepted fd ++ (data ++ msg).take count)
    (registered : ∀ other, fd ∈ served.client.clientsTopicFd other ↔
      fd ∈ start.client.clientsTopicFd other)
    (same : SameStream fd served written.state)
    (delivered : start.Reached topic msg fd written ∨ Removed topic fd written) : count = 0 := by
  rcases delivered with reached | removed
  · obtain ⟨pending, left, here, found, stream⟩ := reached.stream
    cases located.symm.trans here
    cases (same.data.trans kept).symm.trans found
    have lengths := congrArg List.length stream
    rw [same.accepted, gone] at lengths
    have small := int32_le (Int.natCast_nonneg (data ++ msg).length)
    have offers : start.offered msg fd = (int32 (data ++ msg).length).toNat := by
      rw [offered, queued, located]
      rfl
    obtain ⟨_, _, short⟩ := first
    simp only [List.length_append, List.length_take] at lengths small
    rw [offers, List.length_append] at short
    omega
  · exact absurd ((same.registered topic).mpr ((registered topic).mpr member))
      removed.unregistered

/-- Some sockets can always come first. -/
theorem order_from {fds : List Nat} (distinct : fds.Nodup)
    (members : ∀ fd ∈ fds, fd ∈ start.client.clientsTopicFd topic) :
    start.Order topic (fds ++ (start.client.clientsTopicFd topic \ fds.toFinset).toList) where
  distinct := by
    refine List.nodup_append.mpr ⟨distinct, Finset.nodup_toList _, fun fd member other later => ?_⟩
    rintro rfl
    have outside := (Finset.mem_sdiff.mp (Finset.mem_toList.mp later)).2
    exact outside (List.mem_toFinset.mpr member)
  all := by
    refine Finset.ext fun fd => ?_
    rw [List.mem_toFinset, List.mem_append, Finset.mem_toList, Finset.mem_sdiff, List.mem_toFinset]
    by_cases first : fd ∈ fds
    · exact ⟨fun _ => members fd first, fun _ => .inl first⟩
    · exact ⟨fun either => (either.resolve_left first).1, fun member => .inr ⟨member, first⟩⟩

/-- The first socket of an order is served first. -/
theorem writeEach_cons {fds : List Nat} {state : Publishing} {data : List UInt8}
    {served written : Written} (located : state.client.clientsData[fd]? = some data)
    (room : data.length ≤ maxWriteBufferSize)
    (wrote : (state.append fd data msg).writeFd topic fd (scripts fd) = some served)
    (ran : writeEach topic msg scripts (fd :: fds) state = some written) :
    (served.ok = true → ∃ final, writeEach topic msg scripts fds served.state = some final ∧
      final.state = written.state) ∧ (served.ok = false → written.state = served.state) := by
  simp only [writeEach, located, if_neg (Nat.not_lt_of_le room), wrote] at ran
  cases good : served.ok with
  | true =>
      rw [if_pos good] at ran
      obtain ⟨final, rest, rfl⟩ := Option.map_eq_some_iff.mp ran
      exact ⟨fun _ => ⟨final, rest, rfl⟩, nofun⟩
  | false =>
      rw [good, if_neg Bool.false_ne_true] at ran
      cases ran
      exact ⟨nofun, fun _ => rfl⟩

theorem Due.located (due : start.Due topic fd)
    (known : ∀ fd ∈ start.client.clientsTopicFd topic, fd < start.client.clientsData.length) :
    ∃ data, start.client.clientsData[fd]? = some data ∧ data.length ≤ maxWriteBufferSize := by
  have located := List.getElem?_eq_getElem (known fd due.registered)
  have room := due.room
  rw [located] at room
  exact ⟨_, located, room⟩

/-- The call in which a socket comes first. -/
theorem Independent.first (independent : start.Independent topic msg scripts)
    (due : start.Due topic fd) {data : List UInt8} {served : Written}
    (located : start.client.clientsData[fd]? = some data)
    (room : data.length ≤ maxWriteBufferSize)
    (wrote : (start.append fd data msg).writeFd topic fd (scripts fd) = some served) :
    ∃ order written, start.Order topic order ∧
      writeEach topic msg scripts order start = some written ∧
      SameStream fd served.state written.state ∧
      (served.ok = false → written.state = served.state) ∧
      ∀ fd, start.Due topic fd → start.Reached topic msg fd written ∨ Removed topic fd written := by
  have enumerates : start.Order topic ([fd] ++ _) := order_from (List.nodup_singleton fd)
    fun other member => List.mem_singleton.mp member ▸ due.registered
  obtain ⟨written, ran, delivered⟩ := independent.served _ enumerates
  obtain ⟨kept, dropped⟩ := writeEach_cons located room wrote ran
  refine ⟨_, written, enumerates, ran, ?_, dropped, fun fd => (delivered fd).1⟩
  cases good : served.ok with
  | true =>
      obtain ⟨final, rest, same⟩ := kept good
      rw [← same]
      exact writeEach_same rest (List.nodup_cons.mp enumerates.distinct).1
  | false =>
      rw [dropped good]
      exact SameStream.refl fd _

theorem Independent.whole (independent : start.Independent topic msg scripts)
    (known : ∀ fd ∈ start.client.clientsTopicFd topic, fd < start.client.clientsData.length)
    (old : start.kernel.errno = EAGAIN) {count : Nat} (due : start.Due topic fd)
    (first : start.FirstShort msg scripts fd count) : count = 0 := by
  obtain ⟨data, located, room⟩ := due.located known
  obtain ⟨served, wrote, _, kept, gone, registered⟩ :=
    held topic (SameStream.refl fd start) located old first
  obtain ⟨_, written, _, _, same, _, delivered⟩ := independent.first due located room wrote
  exact held_nothing located due.registered first kept gone registered same (delivered fd due)

theorem Independent.alone (independent : start.Independent topic msg scripts)
    (known : ∀ fd ∈ start.client.clientsTopicFd topic, fd < start.client.clientsData.length)
    (ends : ∀ fd, start.Due topic fd → lasts (start.offered msg fd) (scripts fd) = true)
    (due : start.Due topic fd) (fails : start.succeeds msg scripts fd = false) {other : Nat}
    (otherDue : start.Due topic other) : other = fd := by
  by_contra different
  obtain ⟨data, located, room⟩ := due.located known
  obtain ⟨served, wrote, result⟩ := serve topic (SameStream.refl fd start) located (ends fd due)
    (fun old count first => independent.whole known old due first) (.inl rfl)
  obtain ⟨_, written, _, _, _, dropped, delivered⟩ := independent.first due located room wrote
  -- the loop has returned, and the other socket is as it was
  have untouched : SameStream other start written.state := by
    rw [dropped (result.ok.trans fails)]
    exact (append_same different data msg).trans ((writeFd_spec wrote).same other different)
  rcases delivered other otherDue with reached | removed
  · have frames := congrArg List.length reached.frames
    rw [untouched.frames, List.length_append, List.length_singleton] at frames
    omega
  · exact removed.unregistered ((untouched.registered topic).mpr otherDue.registered)

theorem Independent.quiet (independent : start.Independent topic msg scripts)
    (known : ∀ fd ∈ start.client.clientsTopicFd topic, fd < start.client.clientsData.length)
    (ends : ∀ fd, start.Due topic fd → lasts (start.offered msg fd) (scripts fd) = true)
    (fresh : start.kernel.errno ≠ EAGAIN) {other count : Nat} (due : start.Due topic fd)
    (otherDue : start.Due topic other) (different : other ≠ fd)
    (blocked : raised (start.offered msg other) (scripts other) = some EAGAIN)
    (first : start.FirstShort msg scripts fd count) :
    taken (start.offered msg fd) (scripts fd) = 0 := by
  obtain ⟨data, located, room⟩ := due.located known
  obtain ⟨pending, found, space⟩ := otherDue.located known
  have mine : start.own scripts fd = scripts fd := if_neg fresh
  have others : start.own scripts other = scripts other := if_neg fresh
  -- the other socket first: its `EAGAIN` ends this socket's write at its first result
  obtain ⟨full, wroteFull, result⟩ := serve topic (SameStream.refl other start) found
    (ends other otherDue) (fun old => absurd old fresh) (.inl rfl)
  have good : full.ok = true := by
    rw [result.ok, succeeds, others, blocked]
    rfl
  have errno : full.state.kernel.errno = EAGAIN := by
    rw [result.errno, heard, if_neg fresh, blocked]
    rfl
  have untouched : SameStream fd start full.state :=
    (append_same different.symm pending msg).trans
      ((writeFd_spec wroteFull).same fd different.symm)
  obtain ⟨served, wrote, kept, left, gone, registered⟩ := held topic untouched located errno first
  have distinct : [other, fd].Nodup := by
    rw [List.nodup_cons, List.mem_singleton]
    exact ⟨different, List.nodup_singleton fd⟩
  have second : start.Order topic ([other, fd] ++ _) := order_from distinct fun fd' member => by
    rcases List.mem_cons.mp member with rfl | member
    · exact otherDue.registered
    · exact List.mem_singleton.mp member ▸ due.registered
  obtain ⟨written, ran, delivered⟩ := independent.served _ second
  obtain ⟨next, rest, same⟩ := (writeEach_cons found space wroteFull ran).1 good
  obtain ⟨final, tail, same'⟩ :=
    (writeEach_cons (untouched.data.trans located) room wrote rest).1 kept
  have absent := (List.nodup_cons.mp (List.nodup_cons.mp second.distinct).2).1
  have after : SameStream fd served.state written.state := by
    rw [← same, ← same']
    exact writeEach_same tail absent
  obtain rfl := held_nothing located due.registered first left gone registered after
    ((delivered fd).1 due)
  -- this socket first: its whole script is heard
  obtain ⟨whole, wroteWhole, alone⟩ := serve topic (SameStream.refl fd start)
    located (ends fd due) (fun old => absurd old fresh) (.inl rfl)
  obtain ⟨_, written', enumerates, ran', same'', _, _⟩ :=
    independent.first due located room wroteWhole
  have bytes := (independent.sameResult _ _ second enumerates written written' ran ran' fd).accepted
  rw [(alone.outcome.same same'').accepted, after.accepted, gone, mine] at bytes
  have lengths := congrArg List.length bytes
  have inside := taken_le (ends fd due)
  have small := int32_le (Int.natCast_nonneg (start.queued msg fd).length)
  rw [List.length_append, List.length_append, List.length_take, List.length_take] at lengths
  have offers : start.offered msg fd ≤ (start.queued msg fd).length := Int.toNat_le.mpr small
  rw [Nat.zero_min, Nat.min_eq_left (Nat.le_trans inside offers)] at lengths
  omega

/-- Sockets do not affect each other exactly if a write that fails is the only one, and no
write that is short at first takes bytes under an `EAGAIN` of before. -/
theorem independent_iff_unentangled (start : Publishing) (topic : String) (msg : List UInt8)
    (scripts : Nat → List WriteResult)
    (known : ∀ fd ∈ start.client.clientsTopicFd topic, fd < start.client.clientsData.length)
    (ends : ∀ fd, start.Due topic fd → lasts (start.offered msg fd) (scripts fd) = true) :
    start.Independent topic msg scripts ↔ start.Unentangled topic msg scripts := by
  refine ⟨fun independent => ?_, fun unentangled => unentangled.independent known ends⟩
  exact {
    alone := fun fd due fails other otherDue =>
      independent.alone known ends due fails otherDue
    whole := fun old fd count due first => independent.whole known old due first
    quiet := fun fresh fd other count due otherDue different blocked first =>
      independent.quiet known ends fresh due otherDue different blocked first }

end Results

def twoSubscribers : Publishing where
  client := {
    clientsTopicFd := fun topic => if topic = "hello" then {0, 1} else ∅
    clientsData := [[], []]
    staticTopicCache := fun _ => ∅ }
  kernel := { errno := 0, opened := {0, 1}, accepted := fun _ => [] }
  initial := fun _ => []
  frames := fun _ => []

theorem twoSubscribers_known :
    ∀ fd ∈ twoSubscribers.client.clientsTopicFd "hello",
      fd < twoSubscribers.client.clientsData.length := by decide

/-- The first socket takes its frame, and the second is full. -/
def fullScripts : Nat → List WriteResult
  | 0 => [.accepted 4]
  | _ => [.error EAGAIN]

theorem independent_iff_unentangled_full :
    twoSubscribers.Independent "hello" [0, 0, 0, 0] fullScripts ↔
      twoSubscribers.Unentangled "hello" [0, 0, 0, 0] fullScripts :=
  independent_iff_unentangled twoSubscribers "hello" [0, 0, 0, 0] fullScripts twoSubscribers_known
    fun fd due => by
      have members : ∀ fd ∈ twoSubscribers.client.clientsTopicFd "hello",
          lasts (twoSubscribers.offered [0, 0, 0, 0] fd) (fullScripts fd) = true := by decide
      exact members fd due.registered

/-- The peer of the first socket is gone, and the second would take its frame. -/
def brokenScripts : Nat → List WriteResult
  | 0 => [.error 32]
  | _ => [.accepted 4]

theorem broken_not_independent :
    ¬ twoSubscribers.Independent "hello" [0, 0, 0, 0] brokenScripts := by
  intro independent
  have ends : ∀ fd ∈ twoSubscribers.client.clientsTopicFd "hello",
      lasts (twoSubscribers.offered [0, 0, 0, 0] fd) (brokenScripts fd) = true := by decide
  have due : ∀ fd ∈ twoSubscribers.client.clientsTopicFd "hello",
      (twoSubscribers.client.clientsData[fd]?.getD []).length ≤ maxWriteBufferSize := by decide
  have first : twoSubscribers.Due "hello" 0 := ⟨by decide, due 0 (by decide)⟩
  have second : twoSubscribers.Due "hello" 1 := ⟨by decide, due 1 (by decide)⟩
  have same := independent.alone twoSubscribers_known (fun fd due => ends fd due.registered) first
    (by decide) second
  cases same

end Publishing

end ProtoCore.Topic
