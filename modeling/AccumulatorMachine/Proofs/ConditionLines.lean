import AccumulatorMachine.Proofs.ConditionGrammar

/-!
# The lines with a condition

The lines that give an assertion, and those that give a run, told without a reader. A line has at most
one comment, at its end, and blanks around its tokens.

## Main definitions

* `Script.AssertLine` — the lines that assert a chain of terms.
* `Script.RunLine` — the lines that run the machine, perhaps until a chain of terms holds.

## Main results

* `Sentence.read_eq_some_iff` — a line is read by its first word.
* `Script.ofLine_claim_iff`, `Script.ofLine_run_iff` — which lines are assertions, and which are runs.
-/

set_option autoImplicit false

namespace AccumulatorMachine.Script

open Sentence

/-! ## The grammar -/

/-- The lines that assert a chain of terms. -/
inductive AssertLine (first : Term) (links : List (Connective × Term)) (text : List Char) :
    List Char → Prop
  | intro {before gap chain gap' tail : List Char} (hbefore : Spaces before) (hgap : Spaces gap)
    (hchain : ChainWrittenAs first links chain) (hgap' : Spaces gap') (htext : IsDescription text)
    (htail : IsTail tail) :
    AssertLine first links text
      (before ++ ("assert".toList ++ (gap ++ (chain ++ (gap' ++
        ("$$".toList ++ (text ++ ("$$".toList ++ tail))))))))

/-- The texts that stand for the address at which a run starts, if it is given. -/
inductive StartWrittenAs : Option Int32 → List Char → Prop
  | none : StartWrittenAs none []
  | some {gap digits : List Char} {address : Nat} (hgap : Spaces gap)
    (h : Numeral.SpellsNat digits address) (hlt : address < Word.limit) :
    StartWrittenAs (some (Int32.ofNat address)) (gap ++ ("#0x".toList ++ digits))

/-- The texts that stand for the chain of terms until which a run goes, if it is given. -/
inductive UntilWrittenAs : Option (Term × List (Connective × Term)) → List Char → Prop
  | none : UntilWrittenAs none []
  | some {first : Term} {links : List (Connective × Term)} {gap gap' chain : List Char}
    (hgap : Spaces gap) (hgap' : Spaces gap') (hchain : ChainWrittenAs first links chain) :
    UntilWrittenAs (some (first, links)) (gap ++ ("until".toList ++ (gap' ++ chain)))

/-- The lines that run the machine. -/
inductive RunLine (start : Option Int32) (stop : Option (Term × List (Connective × Term))) :
    List Char → Prop
  | intro {before address clause tail : List Char} (hbefore : Spaces before)
    (haddress : StartWrittenAs start address) (hclause : UntilWrittenAs stop clause)
    (htail : IsTail tail) :
    RunLine start stop (before ++ ("run".toList ++ (address ++ (clause ++ tail))))

/-- The condition that a run is given: a chain of terms, or never to stop. -/
def stopCondition : Option (Term × List (Connective × Term)) → Condition
  | none => neverStop
  | some (first, links) => Condition.join first links

/-! ## First words -/

namespace Sentence

/-- A command is one that its first word may give. -/
lemma firstWord_of_mem {word : String} {reader : Reader Sentence} (h : (word, reader) ∈ commands)
    {cs rest : List Char} {s : Sentence} (hread : reader cs = some (s, rest)) : s.firstWord = word := by
  simp only [commands, List.mem_cons, Prod.mk.injEq, List.not_mem_nil, or_false] at h
  rcases h with ⟨rfl, rfl⟩ | ⟨rfl, rfl⟩ | ⟨rfl, rfl⟩ | ⟨rfl, rfl⟩ | ⟨rfl, rfl⟩ | ⟨rfl, rfl⟩ |
      ⟨rfl, rfl⟩ <;>
    simp only [markerCommand, memoryCommand, codeCommand, sourceCommand, registersCommand, runCommand,
      assertCommand, Option.or_eq_some_iff, Option.map_eq_some_iff, Option.bind_eq_bind,
      Option.bind_eq_some_iff, Prod.exists, Prod.mk.injEq, Option.some.injEq] at hread
  · obtain ⟨_, _, -, rfl, -⟩ := hread
    rfl
  · rcases hread with ⟨_, -, rfl, -⟩ |
      ⟨-, ⟨_, -, _, _, -, rfl, -⟩ | ⟨-, _, -, _, _, -, _, _, -, rfl, -⟩⟩ <;> rfl
  · obtain ⟨_, -, _, _, -, _, _, -, rfl, -⟩ := hread
    rfl
  · obtain ⟨_, -, _, _, -, rfl, -⟩ := hread
    rfl
  · rcases hread with ⟨_, -, rfl, -⟩ | ⟨-, _, -, _, _, -, _, -, _, _, -, rfl, -⟩ <;> rfl
  · obtain ⟨rfl, -⟩ := hread
    rfl
  · obtain ⟨_, _, -, _, _, -, rfl, -⟩ := hread
    rfl

/-- Something that may be missing is taken if it is there, and otherwise nothing is taken. -/
lemma optional_eq_iff {α : Type} {reader : Reader α} {cs rest : List Char} {a : Option α} :
    optional reader cs = (a, rest) ↔
      reader cs = none ∧ a = none ∧ rest = cs ∨ ∃ b, reader cs = some (b, rest) ∧ a = some b := by
  cases h : reader cs with
  | none => simp [optional, h, eq_comm]
  | some found => simp [optional, h, Prod.ext_iff, eq_comm, and_comm]

/-- **A line is read by its first word.** -/
lemma read_eq_some_iff {line : List Char} {s : Sentence} :
    read line = some (some s) ↔
      ∃ before reader body rest, Spaces before ∧ (s.firstWord, reader) ∈ commands ∧
        line = before ++ (s.firstWord.toList ++ body) ∧ reader body = some (s, rest) ∧ IsTail rest := by
  obtain ⟨hne, hstart, -⟩ := s.firstWord_spec
  constructor
  · intro h
    rw [read] at h
    cases htaken : optional command (skip line) with
    | mk sentence rest =>
      simp only [htaken, Option.ite_none_right_eq_some, Option.some.injEq] at h
      obtain ⟨htail, rfl⟩ := h
      obtain ⟨s', hcommand, hs⟩ : ∃ s', command (skip line) = some (s', rest) ∧ some s = some s' := by
        simpa using optional_eq_iff.1 htaken
      obtain rfl := Option.some.inj hs
      obtain ⟨⟨word, reader⟩, hmem, hreader⟩ := List.exists_of_findSome?_eq_some hcommand
      obtain ⟨body, hword, hbody⟩ := Option.bind_eq_some_iff.1 hreader
      obtain rfl := firstWord_of_mem hmem hbody
      obtain ⟨before, hbefore, rfl⟩ := (skip_eq_append_iff hne hstart).1 (after_eq_some_iff.1 hword)
      exact ⟨before, reader, body, rest, hbefore, hmem, rfl, hbody, skip_eq_nil_iff.1 htail⟩
  · rintro ⟨before, reader, body, rest, hbefore, hmem, rfl, hbody, htail⟩
    rw [read, skip_append hbefore (startsToken_append hne hstart body)]
    simp only [optional, command_append hmem hbody, skip_eq_nil_iff.2 htail, if_true]

end Sentence

/-- A line has a command if it has a sentence whose numbers can be read. -/
lemma ofLine_eq_some_iff {line : List Char} {c : Command} :
    Command.ofLine line = .ok (some c) ↔
      ∃ s, Sentence.read (Text.trim line) = some (some s) ∧ s.toCommand = .ok c := by
  rw [Command.ofLine]
  cases Sentence.read (Text.trim line) with
  | none => simp
  | some sentence =>
    cases sentence with
    | none => simp
    | some s => cases h : s.toCommand <;> simp [h, Except.mapError, Except.map]

/-! ## Assertions -/

/-- The text of a chain is where a token starts. -/
lemma startsToken_chain {first : Term} {links : List (Connective × Term)} {text : List Char}
    (h : ChainWrittenAs first links text) : text ≠ [] ∧ StartsToken text := by
  obtain ⟨head, more, rfl, hhead, -⟩ := h
  obtain ⟨hne, hstart⟩ := startsToken_writtenTerm hhead
  exact ⟨List.append_ne_nil_of_left_ne_nil hne more, startsToken_append hne hstart more⟩

/-- An assertion comes of a sentence with its description and with a condition whose numbers can be read. -/
lemma toCommand_claim_iff {s : Sentence} {c : Condition} {description : String} :
    s.toCommand = .ok (.claim c description) ↔
      ∃ spelled, s = .claim spelled description.toList ∧ spelled.toCondition = .ok c := by
  cases s with
  | claim spelled text =>
    simp only [Sentence.toCommand, bind_eq_ok_iff, Except.ok.injEq, Command.claim.injEq,
      Sentence.claim.injEq]
    constructor
    · rintro ⟨c', hc, rfl, rfl⟩
      exact ⟨spelled, ⟨rfl, String.toList_ofList.symm⟩, hc⟩
    · rintro ⟨_, ⟨rfl, rfl⟩, hc⟩
      exact ⟨c, hc, rfl, String.ofList_toList⟩
  | marker _ | flushMemory | load _ | writeData _ _ | writeCode _ _ | checkSource _ | flushRegisters
  | setRegister _ _ | run _ _ => simp [Sentence.toCommand, bind_eq_ok_iff, map_eq_ok_iff]

/-- No further term of a chain stands where all is skipped. -/
lemma link_eq_none_of_tail {cs : List Char} (h : IsTail cs) : link cs = none := by
  rw [link, skip_eq_nil_iff.2 h]
  rfl

/-- What is read as a description stands between two pairs of dollar signs and holds none. -/
lemma description_eq_some {cs text rest : List Char} (h : description cs = some (text, rest)) :
    cs = "$$".toList ++ (text ++ ("$$".toList ++ rest)) ∧ IsDescription text := by
  obtain ⟨body, hopen, hbody⟩ := Option.bind_eq_some_iff.1 h
  obtain ⟨rfl, hinfix, hlast⟩ := untilDollars_eq_some hbody
  exact ⟨after_eq_some_iff.1 hopen, hinfix, hlast⟩

/-- **The lines that are assertions.** -/
theorem ofLine_claim_iff {line : List Char} {c : Condition} {text : String} :
    Command.ofLine line = .ok (some (.claim c text)) ↔
      ∃ first links, AssertLine first links text.toList (Text.trim line) ∧
        c = Condition.join first links := by
  simp only [ofLine_eq_some_iff, toCommand_claim_iff]
  constructor
  · rintro ⟨_, hread, spelled, rfl, hvalue⟩
    obtain ⟨before, reader, body, rest, hbefore, hmem, hline, hbody, htail⟩ := read_eq_some_iff.1 hread
    obtain rfl : reader = assertCommand := by simpa [commands, firstWord] using hmem
    simp only [assertCommand, Option.bind_eq_bind, Option.bind_eq_some_iff, Prod.exists,
      Option.some.injEq, Prod.mk.injEq, Sentence.claim.injEq] at hbody
    obtain ⟨_, cs, hcondition, _, _, hdescription, ⟨rfl, rfl⟩, rfl⟩ := hbody
    obtain ⟨first, links, chain, rfl, hskip, hchain⟩ := exists_chain ⟨_, hcondition, hvalue⟩
    obtain ⟨hne, hstart⟩ := startsToken_chain hchain
    obtain ⟨gap, hgap, rfl⟩ := (skip_eq_append_iff hne hstart).1 hskip
    obtain ⟨hskip', htext⟩ := description_eq_some hdescription
    obtain ⟨gap', hgap', rfl⟩ := (skip_eq_append_iff (by decide) (by decide)).1 hskip'
    refine ⟨first, links, ?_, rfl⟩
    rw [hline]
    exact .intro hbefore hgap hchain hgap' htext htail
  · rintro ⟨first, links, hline, rfl⟩
    generalize Text.trim line = trimmed at hline ⊢
    cases hline with
    | @intro before gap chain gap' tail hbefore hgap hchain hgap' htext htail =>
      obtain ⟨hne, hstart⟩ := startsToken_chain hchain
      have hends : EndsNumber (gap' ++ ("$$".toList ++ (text.toList ++ ("$$".toList ++ tail)))) :=
        endsNumber_spaces hgap' (endsNumber_cons (by decide) _)
      obtain ⟨spelled, hread, hvalue⟩ := condition_read hchain hends (link_description hgap' _)
      have hbody := assertCommand_of_condition hgap hgap' htext (startsToken_append hne hstart _) hread
      refine ⟨.claim spelled text.toList, read_eq_some_iff.2 ⟨before, assertCommand, _, tail, hbefore,
        ?_, rfl, hbody, htail⟩, spelled, rfl, hvalue⟩
      simp [commands, firstWord]

/-! ## Runs -/

/-- Nothing is skipped twice. -/
lemma skip_skip (cs : List Char) : skip (skip cs) = skip cs := by
  by_cases hcomment : commentMark.isPrefixOf (cs.dropWhile isGap) = true
  · have hskip : skip cs = [] := if_pos hcomment
    rw [hskip]
    rfl
  · have hskip : skip cs = cs.dropWhile isGap := if_neg hcomment
    rw [hskip, skip, List.dropWhile_idempotent]
    exact if_neg hcomment

/-- Digits are read as the start of a run if they spell an address that is a word and not negative. -/
lemma readStart_eq_ok_iff {digits : List Char} (h : IsHex digits) {w : Int32} :
    readStart digits = .ok w ↔
      ∃ address, Numeral.SpellsNat digits address ∧ address < Word.limit ∧ w = Int32.ofNat address := by
  simp only [readStart, bind_eq_ok_iff, readAddress_eq_ok_iff h]
  constructor
  · rintro ⟨address, ⟨hspells, -⟩, hvalue⟩
    split at hvalue
    · exact ⟨address, hspells, ‹_›, (Except.ok.inj hvalue).symm⟩
    · cases hvalue
  · rintro ⟨address, hspells, hlt, rfl⟩
    have hle : address ≤ greatestAddress := by
      unfold Word.limit at hlt
      unfold greatestAddress
      omega
    exact ⟨address, ⟨hspells, hle⟩, if_pos hlt⟩

/-- A run comes of a sentence whose start and condition can be read; without a condition it never stops
early. -/
lemma toCommand_run_iff {s : Sentence} {start : Option Int32} {c : Condition} :
    s.toCommand = .ok (.run start c) ↔
      ∃ address clause stop, s = .run address clause ∧ readOptional readStart address = .ok start ∧
        readOptional ConditionText.toCondition clause = .ok stop ∧ c = stop.getD neverStop := by
  cases s with
  | run address clause =>
    simp only [Sentence.toCommand, bind_eq_ok_iff, Except.ok.injEq, Command.run.injEq,
      Sentence.run.injEq]
    constructor
    · rintro ⟨_, hstart, stop, hstop, rfl, rfl⟩
      exact ⟨address, clause, stop, ⟨rfl, rfl⟩, hstart, hstop, rfl⟩
    · rintro ⟨_, _, stop, ⟨rfl, rfl⟩, hstart, hstop, rfl⟩
      exact ⟨start, hstart, stop, hstop, rfl, rfl⟩
  | marker _ | flushMemory | load _ | writeData _ _ | writeCode _ _ | checkSource _ | flushRegisters
  | setRegister _ _ | claim _ _ => simp [Sentence.toCommand, bind_eq_ok_iff, map_eq_ok_iff]

/-- An address is read if it is there. What is left differs at most by what is skipped next. -/
lemma start_read {start : Option Int32} {text cs : List Char} (h : StartWrittenAs start text)
    (hends : EndsNumber cs) (hcell : cellDigits (skip cs) = none) :
    ∃ address rest, optional cellDigits (skip (text ++ cs)) = (address, rest) ∧
      readOptional readStart address = .ok start ∧ skip rest = skip cs := by
  cases h with
  | none =>
    exact ⟨none, skip cs, optional_eq_iff.2 (Or.inl ⟨hcell, rfl, rfl⟩), rfl, skip_skip cs⟩
  | @some gap digits address hgap h hlt =>
    have hhex := isHex_of_spellsNat h
    have haddress : cellDigits (skip (gap ++ ("#0x".toList ++ (digits ++ cs)))) = some (digits, cs) := by
      rw [skip_append hgap (startsToken_append (by decide) (by decide) _), cellDigits_append hhex hends]
    refine ⟨some digits, cs, optional_eq_iff.2 (Or.inr ⟨digits, ?_, rfl⟩), ?_, rfl⟩
    · rw [List.append_assoc, List.append_assoc, haddress]
    · exact map_eq_ok_iff.2 ⟨_, (readStart_eq_ok_iff hhex).2 ⟨address, h, hlt, rfl⟩, rfl⟩

/-- Nothing else is read as the address of a run. -/
lemma exists_start {start : Option Int32} {address : Option (List Char)} {cs rest : List Char}
    (hread : optional cellDigits (skip cs) = (address, rest))
    (hvalue : readOptional readStart address = .ok start) :
    ∃ text cs', cs = text ++ cs' ∧ StartWrittenAs start text ∧ skip rest = skip cs' := by
  rcases optional_eq_iff.1 hread with ⟨-, rfl, rfl⟩ | ⟨digits, hcell, rfl⟩
  · obtain rfl : none = start := Except.ok.inj hvalue
    exact ⟨[], cs, rfl, .none, skip_skip cs⟩
  · obtain ⟨hskip, hhex, -⟩ := cellDigits_eq_some_iff.1 hcell
    obtain ⟨gap, hgap, rfl⟩ := (skip_eq_append_iff (by decide) (by decide)).1 hskip
    obtain ⟨w, hw, rfl⟩ := map_eq_ok_iff.1 hvalue
    obtain ⟨n, hspells, hlt, rfl⟩ := (readStart_eq_ok_iff hhex).1 hw
    refine ⟨_, rest, ?_, .some hgap hspells hlt, rfl⟩
    simp only [List.append_assoc]

/-- A stop condition is read if it is there, behind anything that is skipped. -/
lemma until_read {stop : Option (Term × List (Connective × Term))} {text tail cs : List Char}
    (h : UntilWrittenAs stop text) (htail : IsTail tail) (hskip : skip cs = skip (text ++ tail)) :
    ∃ clause rest c, optional untilClause cs = (clause, rest) ∧
      readOptional ConditionText.toCondition clause = .ok c ∧ stopCondition stop = c.getD neverStop ∧
      IsTail rest := by
  cases h with
  | none =>
    rw [List.nil_append, skip_eq_nil_iff.2 htail] at hskip
    have hnone : untilClause cs = none := by
      rw [untilClause, token, hskip]
      rfl
    exact ⟨none, cs, none, optional_eq_iff.2 (Or.inl ⟨hnone, rfl, rfl⟩), rfl, rfl,
      skip_eq_nil_iff.1 hskip⟩
  | @some first links gap gap' chain hgap hgap' hchain =>
    obtain ⟨hne, hstart⟩ := startsToken_chain hchain
    obtain ⟨spelled, hread, hvalue⟩ :=
      condition_read hchain htail.endsNumber (link_eq_none_of_tail htail)
    have hclause : untilClause cs = some (spelled, tail) := by
      rw [untilClause, token, hskip, ← token, ← untilClause, List.append_assoc, List.append_assoc,
        List.append_assoc, untilClause_of_condition hgap hgap' (startsToken_append hne hstart tail) hread]
    exact ⟨some spelled, tail, _, optional_eq_iff.2 (Or.inr ⟨spelled, hclause, rfl⟩),
      map_eq_ok_iff.2 ⟨_, hvalue, rfl⟩, rfl, htail⟩

/-- Nothing else is read as a stop condition. -/
lemma exists_until {clause : Option ConditionText} {c : Option Condition} {cs cs' rest : List Char}
    (hread : optional untilClause cs = (clause, rest))
    (hvalue : readOptional ConditionText.toCondition clause = .ok c) (hskip : skip cs = skip cs')
    (htail : IsTail rest) :
    ∃ stop text tail, cs' = text ++ tail ∧ UntilWrittenAs stop text ∧
      stopCondition stop = c.getD neverStop ∧ IsTail tail := by
  rcases optional_eq_iff.1 hread with ⟨-, rfl, rfl⟩ | ⟨spelled, hclause, rfl⟩
  · obtain rfl : none = c := Except.ok.inj hvalue
    refine ⟨none, [], cs', rfl, .none, rfl, ?_⟩
    rw [← skip_eq_nil_iff, ← hskip]
    exact skip_eq_nil_iff.2 htail
  · obtain ⟨condition', hcondition, rfl⟩ := map_eq_ok_iff.1 hvalue
    obtain ⟨body, hword, hbody⟩ := Option.bind_eq_some_iff.1 hclause
    obtain ⟨first, links, chain, rfl, hskip', hchain⟩ := exists_chain ⟨spelled, hbody, hcondition⟩
    obtain ⟨hne, hstart⟩ := startsToken_chain hchain
    obtain ⟨gap', hgap', rfl⟩ := (skip_eq_append_iff hne hstart).1 hskip'
    have huntil := after_eq_some_iff.1 hword
    rw [hskip] at huntil
    obtain ⟨gap, hgap, rfl⟩ := (skip_eq_append_iff (by decide) (by decide)).1 huntil
    refine ⟨some (first, links), _, rest, ?_, .some hgap hgap' hchain, rfl, htail⟩
    simp only [List.append_assoc]

/-- **The lines that are runs.** -/
theorem ofLine_run_iff {line : List Char} {start : Option Int32} {c : Condition} :
    Command.ofLine line = .ok (some (.run start c)) ↔
      ∃ stop, RunLine start stop (Text.trim line) ∧ c = stopCondition stop := by
  simp only [ofLine_eq_some_iff, toCommand_run_iff]
  constructor
  · rintro ⟨_, hread, address, clause, stop, rfl, haddress, hclause, rfl⟩
    obtain ⟨before, reader, body, rest, hbefore, hmem, hline, hbody, htail⟩ := read_eq_some_iff.1 hread
    obtain rfl : reader = runCommand := by simpa [commands, firstWord] using hmem
    simp only [runCommand, Option.some.injEq, Prod.mk.injEq, Sentence.run.injEq] at hbody
    obtain ⟨⟨rfl, rfl⟩, rfl⟩ := hbody
    obtain ⟨text, cs, rfl, hstart, hskip⟩ := exists_start rfl haddress
    obtain ⟨stop', clause, tail, rfl, huntil, hstop, htail'⟩ := exists_until rfl hclause hskip htail
    refine ⟨stop', ?_, hstop.symm⟩
    rw [hline]
    exact .intro hbefore hstart huntil htail'
  · rintro ⟨stop, hline, rfl⟩
    generalize Text.trim line = trimmed at hline ⊢
    cases hline with
    | @intro before address clause tail hbefore haddress hclause htail =>
      obtain ⟨hends, hcell⟩ :
          EndsNumber (clause ++ tail) ∧ cellDigits (skip (clause ++ tail)) = none := by
        cases hclause with
        | none =>
          rw [List.nil_append, skip_eq_nil_iff.2 htail]
          exact ⟨htail.endsNumber, rfl⟩
        | some hgap hgap' hchain =>
          rw [List.append_assoc, List.append_assoc,
            skip_append hgap (startsToken_append (by decide) (by decide) _)]
          exact ⟨endsNumber_spaces hgap (endsNumber_cons (by decide) _), rfl⟩
      obtain ⟨spelled, cs, hread, hvalue, hskip⟩ := start_read haddress hends hcell
      obtain ⟨clause', rest, c, hread', hvalue', hstop, htail'⟩ := until_read hclause htail hskip
      refine ⟨.run spelled clause', read_eq_some_iff.2 ⟨before, runCommand, _, rest, hbefore, ?_, rfl,
        ?_, htail'⟩, spelled, clause', c, rfl, hvalue, hvalue', hstop⟩
      · simp [commands, firstWord]
      · simp only [runCommand, hread, hread']

end AccumulatorMachine.Script
