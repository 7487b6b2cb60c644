import AccumulatorMachine.Proofs.FailStop

/-!
# Telling the observer of a halt

A machine has one place where it halts, and there it tells its observer. It gets there from a running
machine only, and only clearing makes a halted machine run again. So each halt is told once, to the
observer of that moment, and nothing else is told to anyone.

## Main definitions

* `Machine.installed` — the observer that requests leave behind.

## Main results

* `Machine.calls_handle` — what one request tells: a halt, and nothing else.
* `Machine.length_calls_serve_le_one` — requests without clearing tell of one halt at most.
* `Machine.told_once_per_halt` — both, for every request among any others.
-/

set_option autoImplicit false

namespace AccumulatorMachine.Machine

/-! ## One request -/

/-- A step that halts a running machine tells its observer, and no other step tells anyone. -/
lemma calls_step (m : Machine) :
    m.step.calls =
      if m.halted = false ∧ m.step.machine.halted = true then m.observer.toList else [] := by
  cases hh : m.halted with
  | true =>
    rw [step_of_halted hh]
    rfl
  | false =>
    rw [step, hh, if_neg Bool.false_ne_true]
    cases Microcode.cycle.run m.toProcessor with
    | error e p => rfl
    | ok line p =>
      by_cases hop : line.op = .halt
      · simp [hop, halt, withProcessor]
      · simp [hop, withProcessor, hh]

/-- A running machine is halted by a fault or by a `HALT` that succeeds. -/
lemma halted_step_iff {m : Machine} (h : m.halted = false) :
    m.step.machine.halted = true ↔
      (∃ e, m.step.result = .error e) ∨ ∃ line, m.step.result = .ok line ∧ line.op = .halt := by
  rw [step, h, if_neg Bool.false_ne_true]
  cases Microcode.cycle.run m.toProcessor with
  | error e p => simp [halt]
  | ok line p => by_cases hop : line.op = .halt <;> simp [hop, halt, withProcessor, h]

/-- A request tells nobody unless it is a step that halts a running machine. -/
lemma calls_handle (m : Machine) (r : Request) :
    (m.handle r).calls =
      if r = .step ∧ m.halted = false ∧ (m.handle r).machine.halted = true then m.observer.toList
      else [] := by
  cases r with
  | step =>
    simp only [true_and]
    exact calls_step m
  | clear => rfl
  | observe observer => rfl
  | access a => rfl

/-- A request tells one observer at most. -/
lemma length_calls_handle_le_one (m : Machine) (r : Request) : (m.handle r).calls.length ≤ 1 := by
  rw [calls_handle]
  split
  · exact Option.length_toList_le
  · exact Nat.zero_le 1

/-- Whoever is told, the machine has halted. -/
lemma halted_of_calls_ne_nil {m : Machine} {r : Request} (h : (m.handle r).calls ≠ []) :
    r = .step ∧ m.halted = false ∧ (m.handle r).machine.halted = true := by
  rw [calls_handle] at h
  by_contra hnot
  exact h (if_neg hnot)

/-! ## Requests in a row -/

/-- The observer that requests leave behind: the last one that they install, or the one before them. -/
def installed (observer : Option Observer) (rs : List Request) : Option Observer :=
  rs.foldl
    (fun current r =>
      match r with
      | .observe new => some new
      | _ => current)
    observer

/-- A step keeps the observer. -/
lemma observer_step (m : Machine) : m.step.machine.observer = m.observer := by
  rw [step]
  split
  · rfl
  · cases Microcode.cycle.run m.toProcessor with
    | error e p => rfl
    | ok line p => by_cases hop : line.op = .halt <;> simp [hop, halt, withProcessor]

/-- Only a request to do so replaces the observer. -/
lemma observer_after (m : Machine) (rs : List Request) :
    (m.after rs).observer = installed m.observer rs := by
  induction rs generalizing m with
  | nil => rfl
  | cons r rs ih =>
    have hone : (m.handle r).machine.observer = installed m.observer [r] := by
      cases r with
      | step => exact observer_step m
      | clear | observe _ | access _ => rfl
    show ((m.handle r).machine.after rs).observer = _
    rw [ih, hone]
    rfl

/-- Requests in two parts are answered one part after the other. -/
lemma serve_append (m : Machine) (earlier later : List Request) :
    m.serve (earlier ++ later) = m.serve earlier ++ (m.after earlier).serve later := by
  induction earlier generalizing m with
  | nil => rfl
  | cons r rs ih =>
    show m.handle r :: (m.handle r).machine.serve (rs ++ later) = _
    rw [ih]
    rfl

/-- Each request is answered. -/
lemma length_serve (m : Machine) (rs : List Request) : (m.serve rs).length = rs.length := by
  induction rs generalizing m with
  | nil => rfl
  | cons r rs ih => exact congrArg (· + 1) (ih _)

/-- The answers to requests in the middle of others. -/
lemma take_drop_serve (m : Machine) (earlier between later : List Request) :
    ((m.serve (earlier ++ between ++ later)).drop earlier.length).take between.length =
      (m.after earlier).serve between := by
  rw [List.append_assoc, serve_append, serve_append, ← length_serve m earlier, List.drop_left,
    ← length_serve (m.after earlier) between, List.take_left]

/-- A halted machine tells nobody until it is cleared. -/
lemma calls_serve_of_halted {m : Machine} (h : m.halted = true) {rs : List Request}
    (hrs : Request.clear ∉ rs) : (m.serve rs).flatMap Reply.calls = [] := by
  induction rs generalizing m with
  | nil => rfl
  | cons r rs ih =>
    rw [List.mem_cons, not_or] at hrs
    have hone : (m.handle r).calls = [] := by
      by_contra hne
      obtain ⟨-, hrunning, -⟩ := halted_of_calls_ne_nil hne
      rw [h] at hrunning
      cases hrunning
    show (m.handle r).calls ++ ((m.handle r).machine.serve rs).flatMap Reply.calls = []
    rw [hone, ih (halted_handle h (Ne.symm hrs.1)) hrs.2]
    rfl

/-- **Requests without clearing tell of one halt at most.**

**Proof sketch.** Induction on the requests. As long as nobody is told, the others decide. The first
request that tells someone tells one observer, and leaves a halted machine, which tells nobody more. -/
theorem length_calls_serve_le_one (m : Machine) {rs : List Request} (hrs : Request.clear ∉ rs) :
    ((m.serve rs).flatMap Reply.calls).length ≤ 1 := by
  induction rs generalizing m with
  | nil => exact Nat.zero_le 1
  | cons r rs ih =>
    rw [List.mem_cons, not_or] at hrs
    show ((m.handle r).calls ++ ((m.handle r).machine.serve rs).flatMap Reply.calls).length ≤ 1
    by_cases hnone : (m.handle r).calls = []
    · rw [hnone]
      exact ih _ hrs.2
    · obtain ⟨-, -, hhalted⟩ := halted_of_calls_ne_nil hnone
      rw [calls_serve_of_halted hhalted hrs.2, List.append_nil]
      exact length_calls_handle_le_one m r

/-- **Each halt is told once, to the observer of that moment.** Whatever is asked of a machine:

* a step that halts a running machine, by a fault or by a `HALT` that succeeds, tells the observer that
  is installed by then, and no other request tells anyone;
* between two clearings one halt is told at most;
* an observer that is installed on a halted machine is not told of anything before the machine is
  cleared and halts again. -/
theorem told_once_per_halt (m : Machine) (rs : List Request) :
    (∀ earlier r later, rs = earlier ++ r :: later →
      ∃ reply, (m.serve rs)[earlier.length]? = some reply ∧
        reply.calls =
          (if r = .step ∧ (m.after earlier).halted = false ∧ reply.machine.halted = true then
            (installed m.observer earlier).toList
          else []) ∧
        (r = .step → (m.after earlier).halted = false →
          (reply.machine.halted = true ↔
            (∃ e, reply.response = .step (.error e)) ∨
              ∃ line, reply.response = .step (.ok line) ∧ line.op = .halt))) ∧
      (∀ earlier between later, rs = earlier ++ between ++ later → Request.clear ∉ between →
        ((((m.serve rs).drop earlier.length).take between.length).flatMap Reply.calls).length ≤ 1) ∧
      ∀ earlier o between r later, rs = earlier ++ .observe o :: between ++ r :: later →
        (m.after earlier).halted = true →
        ∀ reply, (m.serve rs)[(earlier ++ .observe o :: between).length]? = some reply →
          reply.calls ≠ [] →
          Request.clear ∈ between ∧ r = .step ∧
            (m.after (earlier ++ .observe o :: between)).halted = false ∧
            reply.machine.halted = true := by
  have hreply : ∀ earlier r later, rs = earlier ++ r :: later →
      (m.serve rs)[earlier.length]? = some ((m.after earlier).handle r) := by
    rintro earlier r later rfl
    rw [getElem?_serve, List.take_left, List.getElem?_append_right le_rfl, Nat.sub_self]
    rfl
  refine ⟨fun earlier r later hrs => ?_, fun earlier between later hrs hclear => ?_,
    fun earlier o between r later hrs hhalted reply hat hcalls => ?_⟩
  · refine ⟨_, hreply earlier r later hrs, ?_, ?_⟩
    · rw [calls_handle, observer_after]
    · rintro rfl hrunning
      simpa [handle] using halted_step_iff hrunning
  · rw [hrs, take_drop_serve]
    exact length_calls_serve_le_one _ hclear
  · rw [hreply _ r later hrs, Option.some.injEq] at hat
    subst hat
    obtain ⟨hstep, hrunning, hend⟩ := halted_of_calls_ne_nil hcalls
    refine ⟨?_, hstep, hrunning, hend⟩
    by_contra hclear
    -- Without clearing, the machine would be halted still when the step begins.
    have hstill : (m.after (earlier ++ .observe o :: between)).halted = true := by
      rw [after, List.foldl_append]
      exact halted_after (m := m.after earlier) hhalted (by simpa using hclear)
    rw [hrunning] at hstill
    cases hstill

/-- A `HALT` is told to the first observer. The second one, installed afterwards, is told only of the
fault after the machine has been cleared. -/
theorem told_once_per_halt_two_observers :
    ∃ (m : Machine) (rs : List Request), rs = [.step, .observe 1, .step, .clear, .step] ∧
      (m.serve rs).map Reply.calls = [[0], [], [], [], [1]] ∧
      ((((m.serve rs).drop 0).take 3).flatMap Reply.calls).length ≤ 1 ∧
      (m.after [.step, .observe 1, .step, .clear]).halted = false := by
  let m : Machine :=
    { observer := some 0
      memory := { Memory.empty with
        code := Memory.empty.code.set 0 (some (.assemble .halt .direct 0)) } }
  let rs : List Request := [.step, .observe 1, .step, .clear, .step]
  have htold := told_once_per_halt m rs
  have hcalls : (m.serve rs).map Reply.calls = [[0], [], [], [], [1]] := by decide
  obtain ⟨reply, hreply, -⟩ := htold.1 [.step, .observe 1, .step, .clear] .step [] rfl
  have hlast : reply.calls = [1] := by
    have h := congrArg (·[4]?) hcalls
    change Option.map Reply.calls (m.serve rs)[4]? = some [1] at h
    rw [show (m.serve rs)[4]? = some reply from hreply] at h
    exact Option.some.inj h
  have hnone : reply.calls ≠ [] := by
    rw [hlast]
    exact List.cons_ne_nil _ _
  have hhalted : (m.after [.step]).halted = true := by decide
  have hlater := htold.2.2 [.step] 1 [.step, .clear] .step [] rfl hhalted reply hreply hnone
  exact ⟨m, rs, rfl, hcalls,
    htold.2.1 [] [.step, .observe 1, .step] [.clear, .step] rfl (by decide), hlater.2.2.1⟩

end AccumulatorMachine.Machine
