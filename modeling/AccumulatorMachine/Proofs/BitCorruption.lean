import AccumulatorMachine.Proofs.UnseenProgram
import Mathlib.Data.Nat.Bitwise

/-!
# A corrupted opcode is never executed

A flipped bit changes the number of ones of an opcode by one, so an opcode that passed the parity check
fails it. A fetch checks parity before anything else, and nothing but a fetch looks at a slot. So a
machine with one flipped bit runs like the sound machine up to the moment at which it fetches the
corrupted instruction, and there it stops with nothing changed.

## Main definitions

* `Instruction.flipBit` — an instruction with one bit of its opcode flipped.
* `Machine.corrupted` — a machine with one bit of one opcode flipped.
* `Machine.Fetches` — the next step fetches what a slot holds.
* `Machine.RunAlike` — two machines do the same for some steps.

## Main results

* `Instruction.hasEvenParity_flipBit_iff` — a flipped bit always shows in the parity.
* `Machine.corruption_caught` — a corrupted opcode is caught before it acts.
-/

set_option autoImplicit false

namespace AccumulatorMachine

namespace Instruction

/-! ## One flipped bit -/

/-- The instruction with one bit of its opcode flipped. -/
def flipBit (i : Instruction) (bit : Fin 8) : Instruction :=
  { i with opcode := i.opcode ^^^ UInt8.ofNat (2 ^ (bit : Nat)) }

/-- One flipped bit changes the number of ones by one.

**Proof sketch.** Either the lowest bit is flipped and the others stay, or it stays and a bit of the
other half is flipped. -/
lemma ones_xor_two_pow {width bit : Nat} (h : bit < width) (n : Nat) :
    ones width (n ^^^ 2 ^ bit) % 2 = (ones width n + 1) % 2 := by
  induction width generalizing bit n with
  | zero => omega
  | succ width ih =>
    rw [ones, ones, Nat.xor_div_two, Nat.xor_mod_two_eq]
    cases bit with
    | zero =>
      have hhalf : n / 2 ^^^ 2 ^ 0 / 2 = n / 2 := Nat.xor_zero (n / 2)
      rw [hhalf, pow_zero]
      omega
    | succ bit =>
      have hpow : 2 ^ (bit + 1) = 2 * 2 ^ bit := Nat.pow_succ'
      have hhalf : 2 ^ (bit + 1) / 2 = 2 ^ bit := by omega
      have hrest := ih (Nat.lt_of_succ_lt_succ h) (n / 2)
      rw [hhalf]
      omega

/-- **A flipped bit always shows in the parity.** -/
theorem hasEvenParity_flipBit_iff (i : Instruction) (bit : Fin 8) :
    (i.flipBit bit).HasEvenParity ↔ ¬ i.HasEvenParity := by
  have hpow : 2 ^ (bit : Nat) < 2 ^ 8 := Nat.pow_lt_pow_right (by decide) bit.isLt
  have hflip : (i.flipBit bit).opcode.toNat = i.opcode.toNat ^^^ 2 ^ (bit : Nat) := by
    rw [flipBit, UInt8.toNat_xor, UInt8.toNat_ofNat_of_lt' hpow]
  have hones := ones_xor_two_pow bit.isLt i.opcode.toNat
  rw [HasEvenParity, HasEvenParity, hflip]
  omega

end Instruction

namespace Machine

/-! ## Corrupted machines -/

/-- The machine with one bit of the opcode in a slot flipped. -/
def corrupted (m : Machine) (slot : Fin codeSize) (bit : Fin 8) : Machine :=
  m.withProgram
    (m.memory.code.set slot ((m.memory.code.get slot).map (·.flipBit bit)) slot.isLt)
    m.memory.programSize

/-- The next step of a machine fetches what a slot holds. -/
def Fetches (m : Machine) (slot : Fin codeSize) : Prop :=
  m.halted = false ∧ m.registers.counter.toInt = slot

/-- Two machines do the same for some steps: they give the same results and log lines, and behind each
step they agree in everything but the program. -/
structure RunAlike (m m' : Machine) (n : Nat) : Prop where
  results : m.results n = m'.results n
  log : m.log n = m'.log n
  registers : ∀ k ≤ n, (m.stepped k).registers = (m'.stepped k).registers
  data : ∀ k ≤ n, (m.stepped k).memory.data = (m'.stepped k).memory.data
  changed : ∀ k ≤ n, (m.stepped k).memory.changed = (m'.stepped k).memory.changed
  halted : ∀ k ≤ n, (m.stepped k).halted = (m'.stepped k).halted

section Corrupted

variable {m : Machine} {slot : Fin codeSize} {bit : Fin 8} {n : Nat}

/-- A step that does not fetch the corrupted slot fetches alike. -/
lemma fetchesAlike_of_not_fetches (h : ¬ (m.stepped n).Fetches slot) :
    (m.stepped n).FetchesAlike (m.corrupted slot bit).memory.code := by
  intro hrunning other hcounter
  have hne : (slot : Nat) ≠ other := by
    intro heq
    exact h ⟨hrunning, hcounter.trans (congrArg Int.ofNat heq.symm)⟩
  rw [(Replay.follows_log m n).code]
  exact Vector.getElem_set_ne slot.isLt other.isLt hne

/-- As long as the corrupted slot is not fetched, the corrupted machine is the sound one but for its
program. -/
lemma stepped_corrupted (h : ∀ j < n, ¬ (m.stepped j).Fetches slot) :
    (m.corrupted slot bit).stepped n =
      (m.stepped n).withProgram (m.corrupted slot bit).memory.code m.memory.programSize :=
  stepped_withProgram fun j hj => fetchesAlike_of_not_fetches (h j hj)

/-- As long as the corrupted slot is not fetched, the two machines do the same. -/
lemma runAlike_corrupted (h : ∀ j < n, ¬ (m.stepped j).Fetches slot) :
    RunAlike (m.corrupted slot bit) m n := by
  have hresults : (m.corrupted slot bit).results n = m.results n :=
    results_withProgram fun j hj => fetchesAlike_of_not_fetches (h j hj)
  have hstepped : ∀ k ≤ n, (m.corrupted slot bit).stepped k =
      (m.stepped k).withProgram (m.corrupted slot bit).memory.code m.memory.programSize :=
    fun k hk => stepped_corrupted fun j hj => h j (hj.trans_le hk)
  refine ⟨hresults, ?_, ?_, ?_, ?_, ?_⟩
  · rw [log_eq, log_eq, hresults]
  all_goals
    intro k hk
    rw [hstepped k hk]
    rfl

end Corrupted

/-- A step that fetches an opcode of odd parity refuses it. -/
lemma step_of_odd_parity {m : Machine} {slot : Fin codeSize} {i : Instruction} (h : m.Fetches slot)
    (hcode : m.memory.code.get slot = some i) (hodd : ¬ i.HasEvenParity) :
    m.step.result = .error (.parity i.opcode) := by
  have hread : m.memory.readCode m.registers.counter = .ok i := by
    have hslot : m.memory.code[slot] = some i := hcode
    rw [Memory.readCode, position?_eq_some_iff.2 h.2]
    simp only [hslot]
  have hfetch : m.toProcessor.fetch = .error (.parity i.opcode) := by
    rw [Processor.fetch, hread]
    show Decoded.ofInstruction _ i = _
    rw [Decoded.ofInstruction, if_neg hodd]
  have hcycle : Microcode.cycle.run m.toProcessor = .error (.parity i.opcode) m.toProcessor := by
    rw [Microcode.cycle, Microcode.run_look_bind, hfetch]
  rw [step, if_neg (ne_true_of_eq_false h.1), hcycle]
  rfl

/-- **A corrupted opcode is caught before it acts.** One bit of an opcode of even parity is flipped. Up
to the first step that fetches its slot, the corrupted machine and the sound one do the same; there the
corrupted machine refuses the opcode for its parity, changes neither a register nor a cell nor its
program, and halts. If the slot is never fetched, the two never differ. The parity of the other slots
plays no part. -/
theorem corruption_caught {m : Machine} {slot : Fin codeSize} {i : Instruction}
    (hset : m.memory.code.get slot = some i) (heven : i.HasEvenParity) (bit : Fin 8) :
    (∀ n, (∀ j < n, ¬ (m.stepped j).Fetches slot) →
      RunAlike (m.corrupted slot bit) m n ∧
        ((m.stepped n).Fetches slot →
          ((m.corrupted slot bit).stepped n).step.result =
              .error (.parity (i.flipBit bit).opcode) ∧
            (m.corrupted slot bit).stepped (n + 1) =
              { (m.corrupted slot bit).stepped n with halted := true })) ∧
      ((∀ n, ¬ (m.stepped n).Fetches slot) → ∀ n, RunAlike (m.corrupted slot bit) m n) := by
  refine ⟨fun n hbefore => ⟨runAlike_corrupted hbefore, fun hfetches => ?_⟩,
    fun hnever n => runAlike_corrupted fun j _ => hnever j⟩
  have hcode : (m.corrupted slot bit).memory.code.get slot = some (i.flipBit bit) := by
    show (m.memory.code.set slot ((m.memory.code.get slot).map (·.flipBit bit)))[(slot : Nat)] = _
    rw [Vector.getElem_set_self, hset]
    rfl
  have hodd : ¬ (i.flipBit bit).HasEvenParity := by
    rw [Instruction.hasEvenParity_flipBit_iff, not_not]
    exact heven
  have hresult : ((m.corrupted slot bit).stepped n).step.result =
      .error (.parity (i.flipBit bit).opcode) := by
    rw [stepped_corrupted hbefore]
    exact step_of_odd_parity hfetches hcode hodd
  exact ⟨hresult, machine_of_step_error hresult⟩

/-- The second instruction is corrupted in the group of its operation: the first is executed, the second
is refused. -/
theorem corruption_caught_second :
    ∃ m : Machine, (m.memory.code.get 1).isSome ∧
      RunAlike (m.corrupted 1 4) m 1 ∧ m.log 1 ≠ [] ∧ (m.stepped 1).step.result.toBool = true ∧
      ((m.corrupted 1 4).stepped 1).step.result = .error (.parity 0b111011) ∧
      (m.corrupted 1 4).stepped 2 = { (m.corrupted 1 4).stepped 1 with halted := true } := by
  let i : Instruction := .assemble .add .immediate 1
  let m : Machine :=
    { memory := { Memory.empty with
        code := (Memory.empty.code.set 0 (some (.assemble .lod .immediate 41))).set 1 (some i) } }
  have hbefore : ∀ j < 1, ¬ (m.stepped j).Fetches 1 := by
    intro j hj hfetches
    obtain rfl : j = 0 := by omega
    exact absurd hfetches.2 (by decide)
  have hset : m.memory.code.get 1 = some i := by decide
  have hcaught := (corruption_caught hset (by decide) 4).1 1 hbefore
  have hfetches : (m.stepped 1).Fetches 1 := ⟨by decide, by decide⟩
  have hopcode : (i.flipBit 4).opcode = 0b111011 := by decide
  obtain ⟨hresult, hstopped⟩ := hcaught.2 hfetches
  rw [hopcode] at hresult
  exact ⟨m, by decide, hcaught.1, by decide, by decide, hresult, hstopped⟩

end Machine

end AccumulatorMachine
