import AccumulatorMachine.Machine.Basic
import Mathlib.Tactic

/-!
# Failing stops the machine

Microcode works in place, so a piece of it that fails halfway would leave half of its changes behind.
No operation does: each has made all the look-ups that can fail before it changes anything, and a
refused write changes nothing either. So a cycle that fails leaves its processor as it was, and all that
a failed step does is to halt the machine. A halted machine stays halted until it is cleared.

## Main definitions

* `Microcode.KeepsOnFailure` — work that leaves the processor as it was when it fails.
* `Microcode.NeverFails` — work that gives a result on every processor.
* `Machine.after` — the machine after some requests.

## Main results

* `Microcode.cycle_keepsOnFailure` — a cycle that fails changes nothing.
* `Machine.halted_after` — only clearing lets a halted machine go on.
* `Machine.fail_stop` — both together, for every machine and every sequence of requests.
-/

set_option autoImplicit false

namespace AccumulatorMachine

namespace Microcode

/-- Work that leaves the processor as it was when it fails. -/
def KeepsOnFailure {α : Type} (x : Microcode α) : Prop :=
  ∀ p e q, x.run p = .error e q → q = p

/-- Work that gives a result on every processor. -/
def NeverFails {α : Type} (x : Microcode α) : Prop := ∀ p, ∃ a q, x.run p = .ok a q

/-! ## Rules -/

section Rules

variable {α β : Type}

/-- Work that never fails has nothing to keep. -/
lemma NeverFails.keepsOnFailure {x : Microcode α} (hx : NeverFails x) : KeepsOnFailure x := by
  intro p e q hrun
  obtain ⟨a, r, ha⟩ := hx p
  rw [ha] at hrun
  cases hrun

/-- Looking something up changes nothing, so it may come before any work. -/
lemma KeepsOnFailure.look {f : Processor → Except Fault α} {g : α → Microcode β}
    (hg : ∀ a, KeepsOnFailure (g a)) : KeepsOnFailure (look f >>= g) := by
  intro p e q hrun
  rw [run_look_bind] at hrun
  cases hf : f p with
  | error e' =>
    rw [hf] at hrun
    cases hrun
    rfl
  | ok a =>
    rw [hf] at hrun
    exact hg a p e q hrun

/-- Reading the processor changes nothing, so it may come before any work. -/
lemma KeepsOnFailure.get {g : Processor → Microcode β} (hg : ∀ p, KeepsOnFailure (g p)) :
    KeepsOnFailure (MonadState.get >>= g) := by
  intro p e q hrun
  exact hg p p e q hrun

/-- A refused write changes nothing. After one that is carried out nothing may fail any more. -/
lemma KeepsOnFailure.write {s : Store} {g : Unit → Microcode β} (hg : NeverFails (g ())) :
    KeepsOnFailure (write s >>= g) := by
  intro p e q hrun
  rw [run_write_bind] at hrun
  cases hw : p.memory.writeData s.address s.value with
  | error e' =>
    rw [hw] at hrun
    cases hrun
    rfl
  | ok m =>
    -- The memory has changed by now, but the rest gives a result and no error.
    obtain ⟨a, r, ha⟩ := hg { p with memory := m }
    rw [hw] at hrun
    change (g ()).run _ = _ at hrun
    rw [ha] at hrun
    cases hrun

end Rules

/-- Reporting never fails. -/
lemma report_neverFails (d : Decoded) (store : Option Store) : NeverFails (report d store) :=
  fun p => ⟨⟨d, p.registers, store⟩, p, rfl⟩

/-- Going on to the next instruction never fails. -/
lemma advance_neverFails (d : Decoded) (store : Option Store) : NeverFails (advance d store) :=
  fun p => ⟨_, _, run_advance d store p⟩

/-- Changing the accumulator never fails. -/
lemma accumulate_neverFails (d : Decoded) (f : Int32 → Int32) : NeverFails (accumulate d f) :=
  fun p => ⟨_, _, run_accumulate d f p⟩

/-! ## Operations -/

section Operations

variable (d : Decoded)

/-- Combining with the operand changes the accumulator last. -/
lemma combine_keepsOnFailure (accepted : List Mode) (f : Int32 → Int32 → Int32) :
    KeepsOnFailure (combine d accepted f) := by
  apply KeepsOnFailure.look
  intro _
  apply KeepsOnFailure.look
  intro x
  exact (accumulate_neverFails d _).keepsOnFailure

/-- Storing writes its cell after the mode and the operand are settled, and then only goes on. -/
lemma sto_keepsOnFailure : KeepsOnFailure (sto d) := by
  apply KeepsOnFailure.look
  intro _
  apply KeepsOnFailure.look
  intro x
  apply KeepsOnFailure.get
  intro p
  exact KeepsOnFailure.write (advance_neverFails d _)

/-- Division refuses a divisor that is zero before it changes the accumulator. -/
lemma div_keepsOnFailure : KeepsOnFailure (div d) := by
  apply KeepsOnFailure.look
  intro _
  apply KeepsOnFailure.look
  intro x
  apply KeepsOnFailure.look
  intro _
  exact (accumulate_neverFails d _).keepsOnFailure

/-- A jump finds its destination before it moves the program counter. -/
lemma jump_keepsOnFailure : KeepsOnFailure (jump d) := by
  apply KeepsOnFailure.look
  intro address
  apply NeverFails.keepsOnFailure
  intro p
  exact ⟨_, _, rfl⟩

/-- A conditional jump is a jump or only goes on. -/
lemma jmpz_keepsOnFailure : KeepsOnFailure (jmpz d) := by
  apply KeepsOnFailure.get
  intro p
  by_cases hzero : p.registers.accumulator = 0
  · rw [if_pos hzero]
    exact jump_keepsOnFailure d
  · rw [if_neg hzero]
    exact (advance_neverFails d none).keepsOnFailure

/-- A test looks at its cell before it changes the accumulator. -/
lemma compare_keepsOnFailure (test : Int32 → Bool) : KeepsOnFailure (compare d test) := by
  apply KeepsOnFailure.look
  intro _
  apply KeepsOnFailure.look
  intro x
  exact (accumulate_neverFails d _).keepsOnFailure

/-- The operations without an operand only check their mode. -/
lemma check_keepsOnFailure {accepted : List Mode} {x : Microcode LogLine} (hx : NeverFails x) :
    KeepsOnFailure (check d accepted >>= fun _ => x) := by
  apply KeepsOnFailure.look
  intro _
  exact hx.keepsOnFailure

/-- No operation has changed anything when it fails. -/
lemma microcode_keepsOnFailure : KeepsOnFailure d.microcode := by
  rw [Decoded.microcode]
  cases d.op with
  | nop => exact check_keepsOnFailure d (advance_neverFails d none)
  | not => exact check_keepsOnFailure d (accumulate_neverFails d _)
  | halt => exact check_keepsOnFailure d (report_neverFails d none)
  | lod | add | sub | mul | and => exact combine_keepsOnFailure d _ _
  | sto => exact sto_keepsOnFailure d
  | div => exact div_keepsOnFailure d
  | jump => exact jump_keepsOnFailure d
  | jmpz => exact jmpz_keepsOnFailure d
  | cmpl | cmpz => exact compare_keepsOnFailure d _

end Operations

/-- A cycle that fails has changed nothing. -/
theorem cycle_keepsOnFailure : KeepsOnFailure cycle := by
  apply KeepsOnFailure.look
  intro d
  exact microcode_keepsOnFailure d

end Microcode

namespace Machine

/-! ## Steps -/

/-- All that a failed step does is to halt the machine.

**Proof sketch.** On a halted machine there is nothing to show. Otherwise the cycle has failed, since a
step whose cycle succeeds gives a result, and a cycle that fails keeps the processor. -/
lemma machine_of_step_error {m : Machine} {e : Fault} (h : m.step.result = .error e) :
    m.step.machine = { m with halted := true } := by
  rw [step] at h ⊢
  cases hh : m.halted with
  | true =>
    rw [if_pos rfl]
    show m = { m with halted := true }
    rw [← hh]
  | false =>
    rw [hh, if_neg Bool.false_ne_true] at h
    rw [if_neg Bool.false_ne_true]
    cases hrun : Microcode.cycle.run m.toProcessor with
    | error e' p =>
      have hp : p = m.toProcessor := Microcode.cycle_keepsOnFailure _ _ _ hrun
      subst hp
      rfl
    | ok line p =>
      -- A cycle that succeeds gives a result, whether or not it halts the machine.
      rw [hrun] at h
      by_cases hop : line.op = .halt <;> simp [hop, halt] at h

/-- A halted machine refuses to step, and nothing changes. -/
lemma step_of_halted {m : Machine} (h : m.halted = true) :
    m.step = { result := .error .halted, machine := m } := by
  rw [step, h]
  rfl

/-! ## Requests -/

/-- The machine after some requests. -/
def after (m : Machine) (rs : List Request) : Machine :=
  rs.foldl (fun m r => (m.handle r).machine) m

/-- The answer to a request is given by the machine that the requests before it have left. -/
lemma getElem?_serve (m : Machine) (rs : List Request) (i : Nat) :
    (m.serve rs)[i]? = rs[i]?.map (m.after (rs.take i)).handle := by
  induction rs generalizing m i with
  | nil => simp [serve]
  | cons r rs ih =>
    cases i with
    | zero => rfl
    | succ i =>
      rw [serve, List.getElem?_cons_succ, List.getElem?_cons_succ, ih]
      rfl

/-- A halted machine stays halted unless it is cleared. -/
lemma halted_handle {m : Machine} (h : m.halted = true) {r : Request} (hr : r ≠ .clear) :
    (m.handle r).machine.halted = true := by
  cases r with
  | step =>
    rw [handle, step_of_halted h]
    exact h
  | clear => exact absurd rfl hr
  | observe observer => exact h
  | access a => exact h

/-- Requests other than clearing leave a halted machine halted. -/
theorem halted_after {m : Machine} (h : m.halted = true) {rs : List Request}
    (hrs : Request.clear ∉ rs) : (m.after rs).halted = true := by
  induction rs generalizing m with
  | nil => exact h
  | cons r rs ih =>
    rw [List.mem_cons, not_or] at hrs
    exact ih (halted_handle h (Ne.symm hrs.1)) hrs.2

/-- **The machine is fail-stop.** A step that fails leaves registers and memory exactly as they were,
and the machine halted. Whatever is asked of a halted machine, short of clearing it, it stays halted,
and each step among the requests answers that it has halted, changes nothing and calls nobody. -/
theorem fail_stop (m : Machine) :
    (∀ e, m.step.result = .error e →
      m.step.machine.registers = m.registers ∧ m.step.machine.memory.code = m.memory.code ∧
        m.step.machine.memory.data = m.memory.data ∧
        m.step.machine.memory.programSize = m.memory.programSize ∧
        m.step.machine.memory.changed = m.memory.changed ∧ m.step.machine.halted = true) ∧
      (m.halted = true → ∀ rs, Request.clear ∉ rs →
        (∀ reply ∈ m.serve rs, reply.machine.halted = true) ∧
          ∀ earlier later, rs = earlier ++ .step :: later →
            (m.serve rs)[earlier.length]? =
              some { response := .step (.error .halted), machine := m.after earlier }) := by
  refine ⟨fun e he => ?_, fun h rs hrs => ⟨fun reply hreply => ?_, ?_⟩⟩
  · rw [machine_of_step_error he]
    exact ⟨rfl, rfl, rfl, rfl, rfl, rfl⟩
  · -- The reply is that of the machine which the requests before it have left.
    obtain ⟨i, hi⟩ := List.mem_iff_getElem?.1 hreply
    rw [getElem?_serve, Option.map_eq_some_iff] at hi
    obtain ⟨r, hr, rfl⟩ := hi
    have hbefore : Request.clear ∉ rs.take i := fun hc => hrs (List.mem_of_mem_take hc)
    have hne : r ≠ .clear := fun hc => hrs (hc ▸ List.mem_of_getElem? hr)
    exact halted_handle (halted_after h hbefore) hne
  · rintro earlier later rfl
    have hbefore : Request.clear ∉ earlier := fun hc => hrs (List.mem_append_left _ hc)
    rw [getElem?_serve, List.take_left, List.getElem?_append_right le_rfl, Nat.sub_self]
    show some ((m.after earlier).handle .step) = _
    rw [handle, step_of_halted (halted_after h hbefore)]

/-- A store that is refused halts the machine; only clearing it lets it go on. -/
theorem fail_stop_refused_store :
    ∃ m : Machine, m.step.result = .error (.resolution ⟨.dataAddress 512⟩) ∧
      m.step.machine.memory.data = m.memory.data ∧ m.step.machine.halted = true ∧
      (m.step.machine.serve [.access .resetRegisters, .step])[1]? =
        some { response := .step (.error .halted),
               machine := m.step.machine.after [.access .resetRegisters] } := by
  let m : Machine :=
    { registers := ⟨7, 0⟩
      memory := { Memory.empty with
        code := Memory.empty.code.set 0 (some (.assemble .sto .direct 512)) } }
  have hfail : m.step.result = .error (.resolution ⟨.dataAddress 512⟩) := by decide
  have hkept := (fail_stop m).1 _ hfail
  have hhalted : m.step.machine.halted = true := hkept.2.2.2.2.2
  have hserve := ((fail_stop m.step.machine).2 hhalted
    [.access .resetRegisters, .step] (by decide)).2 [.access .resetRegisters] [] rfl
  exact ⟨m, hfail, hkept.2.2.1, hhalted, hserve⟩

end Machine

end AccumulatorMachine
