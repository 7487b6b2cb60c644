import AccumulatorMachine.Proofs.LinePlaces
import AccumulatorMachine.Proofs.WrittenNumbers
import AccumulatorMachine.Script.Token

/-!
# Displayed tokens

The display of tokens is the texts of the tokens, one behind the other. A token knows of those in front of
it only how many assertions there are. What prepares the machine and what a run logs is whole lines that
stand in front of the rest of the text of their token. So a display that leaves them out is a display of
the tokens without them, and its lines are among those of the full display, in the same order.

## Main definitions

* `Token.quiet` — what is left of a token without its preparation and its log.
* `Token.verdict` — what an assertion says behind its description.

## Main results

* `display_concat` — the text of one more token.
* `display_append` — the display of the first tokens is what the display of all of them starts with.
* `display_false` — a display without preparation and logs.
* `lines_display_sublist` — its lines are among those of the full display.
* `verbosity_only_adds_lines` — all of this, and how assertions are numbered.
-/

set_option autoImplicit false

namespace AccumulatorMachine.Script

/-! ## Numbers of assertions -/

/-- In base ten, numbers are written as they are commonly shown, with zeros in front. -/
lemma toList_natural_ten (width n : Nat) :
    (Numeral.natural 10 width n).toList = (toString n).toList.leftpad width '0' := by
  rw [Numeral.toList_natural (by omega) le_rfl, Nat.toString_eq_repr, Nat.toList_repr]

/-! ## One token behind others -/

/-- Assertions are counted, in 32 bits. -/
lemma foldl_displayStep_fst (verbose : Bool) (shown : UInt32 × String) (tokens : List Token) :
    (tokens.foldl (displayStep verbose) shown).1 =
      shown.1 + UInt32.ofNat (tokens.countP Token.isAssertion) := by
  induction tokens generalizing shown with
  | nil => exact (UInt32.add_zero shown.1).symm
  | cons t rest ih =>
    rw [List.foldl_cons, ih, List.countP_cons, displayStep]
    cases t.isAssertion with
    | false => rfl
    | true => rw [if_pos rfl, if_pos rfl, UInt32.ofNat_add, UInt32.add_assoc, UInt32.add_comm 1]; rfl

/-- The text of one more token. Its number is the count of the assertions up to it, in 32 bits. -/
lemma display_concat (verbose : Bool) (tokens : List Token) (t : Token) :
    display verbose (tokens ++ [t]) =
      display verbose tokens ++
        t.text verbose ((tokens ++ [t]).countP Token.isAssertion % 2 ^ 32) := by
  have hcount := foldl_displayStep_fst verbose (0, "") (tokens ++ [t])
  rw [UInt32.zero_add, List.foldl_append, List.foldl_cons, List.foldl_nil] at hcount
  rw [display, List.foldl_append, List.foldl_cons, List.foldl_nil, ← UInt32.toNat_ofNat', ← hcount]
  rfl

/-- The display of the first tokens is what the display of all of them starts with. -/
lemma display_append (verbose : Bool) (tokens rest : List Token) :
    ∃ more, display verbose (tokens ++ rest) = display verbose tokens ++ more := by
  induction rest using List.reverseRecOn with
  | nil => exact ⟨"", by simp⟩
  | append_singleton rest t ih =>
    obtain ⟨more, hmore⟩ := ih
    rw [← List.append_assoc, display_concat, hmore]
    exact ⟨_, String.append_assoc⟩

/-! ## Preparation and logs -/

namespace Token

/-- What is left of a token without its preparation and its log; a fault is kept. -/
def quiet : Token → Option Token
  | setup _ => none
  | run _ fault => some (run [] fault)
  | t => some t

/-- What an assertion says behind its description. -/
def verdict : Option String → String
  | none => " ✅\n"
  | some why => " ❌\n" ++ why ++ "\n"

/-- The text of an assertion is its number, its description and the verdict. -/
lemma text_assertion (verbose : Bool) (number : Nat) (why : Option String) (description : String) :
    (assertion why description).text verbose number =
      String.ofList ((toString number).toList.leftpad 2 '0') ++ " → " ++ description ++ verdict why := by
  rw [← toList_natural_ten, String.ofList_toList]
  cases why
  · rfl
  · simp only [text, verdict, String.append_assoc]

/-- What is not shown of a token is gone from the quiet token. -/
lemma text_false (t : Token) (number : Nat) :
    t.text false number = (t.quiet.map (text true number)).getD "" := by
  cases t with
  | assertion why description => cases why <;> rfl
  | marker _ | failure _ | setup _ => rfl
  | run lines fault => cases fault <;> rfl

/-- Assertions stay. -/
lemma countP_filterMap_quiet (tokens : List Token) :
    (tokens.filterMap quiet).countP isAssertion = tokens.countP isAssertion := by
  rw [List.countP_filterMap]
  refine List.countP_congr fun t _ => ?_
  cases t <;> simp [quiet, isAssertion]

end Token

/-- A display without preparation and logs is a display of the tokens without them. -/
lemma display_false (tokens : List Token) :
    display false tokens = display true (tokens.filterMap Token.quiet) := by
  induction tokens using List.reverseRecOn with
  | nil => rfl
  | append_singleton tokens t ih =>
    rw [display_concat, ih, Token.text_false, ← Token.countP_filterMap_quiet, List.filterMap_append]
    cases hquiet : t.quiet with
    | none => simp [hquiet]
    | some t' => simp [hquiet, display_concat]

/-! ## Lines of the display -/

/-- The text is whole lines. -/
def IsWholeLines (text : String) : Prop := text.toList = [] ∨ text.toList.getLast? = some '\n'

/-- Lines with more lines behind them. -/
lemma IsWholeLines.append {a b : String} (ha : IsWholeLines a) (hb : IsWholeLines b) :
    IsWholeLines (a ++ b) := by
  rw [IsWholeLines, String.toList_append]
  rcases hb with hb | hb
  · rwa [hb, List.append_nil]
  · exact Or.inr (by rw [List.getLast?_append, hb]; rfl)

/-- Lines behind whole lines are cut on their own. -/
lemma lines_append {a : String} (ha : IsWholeLines a) (b : String) :
    Text.lines (a ++ b).toList = Text.lines a.toList ++ Text.lines b.toList := by
  rw [String.toList_append]
  exact Text.cutLines_append_of_ends ha _

/-- Whatever stands in front of a line feed, it ends the last line. -/
lemma isWholeLines_append {ending : String} (h : ending.toList.getLast? = some '\n') (text : String) :
    IsWholeLines (text ++ ending) := by
  refine Or.inr ?_
  rw [String.toList_append, List.getLast?_append, h]
  rfl

/-- Whole lines one behind the other are whole lines. -/
lemma isWholeLines_join {parts : List String} (h : ∀ part ∈ parts, IsWholeLines part) :
    IsWholeLines (String.join parts) := by
  induction parts with
  | nil => exact Or.inl rfl
  | cons part parts ih =>
    obtain ⟨hpart, hparts⟩ := List.forall_mem_cons.1 h
    rw [String.join_cons]
    exact hpart.append (ih hparts)

/-- A line with a sign in front is a whole line. -/
lemma isWholeLines_signed (sign line : String) : IsWholeLines (Token.signed sign line) :=
  isWholeLines_append (by decide) _

/-- So are several of them. -/
lemma isWholeLines_join_signed (sign : String) (lines : List String) :
    IsWholeLines (String.join (lines.map (Token.signed sign))) := by
  refine isWholeLines_join fun part hpart => ?_
  obtain ⟨line, -, rfl⟩ := List.mem_map.1 hpart
  exact isWholeLines_signed sign line

namespace Token

/-- What is shown only when asked for is whole lines in front of the rest. -/
lemma exists_text_true (t : Token) (number : Nat) :
    ∃ logged, IsWholeLines logged ∧ t.text true number = logged ++ t.text false number := by
  cases t with
  | assertion why description => exact ⟨"", Or.inl rfl, by cases why <;> simp [text]⟩
  | marker _ | failure _ => exact ⟨"", Or.inl rfl, by simp [text]⟩
  | setup lines => exact ⟨_, isWholeLines_join_signed "🔧" lines, by simp [text]⟩
  | run lines fault => exact ⟨_, isWholeLines_join_signed "⚡" lines, by simp [text]⟩

/-- The text of a token is whole lines. -/
lemma isWholeLines_text (verbose : Bool) (t : Token) (number : Nat) :
    IsWholeLines (t.text verbose number) := by
  have hquiet : IsWholeLines (t.text false number) := by
    cases t with
    | assertion why description =>
      cases why with
      | none => exact isWholeLines_append (by decide) _
      | some why => exact isWholeLines_append (by decide) _
    | marker _ | failure _ => exact isWholeLines_signed _ _
    | setup lines => exact Or.inl rfl
    | run lines fault =>
      cases fault with
      | none => exact Or.inl rfl
      | some why => simpa [text] using isWholeLines_signed "💥" why
  cases verbose with
  | false => exact hquiet
  | true =>
    obtain ⟨logged, hlogged, htext⟩ := t.exists_text_true number
    rw [htext]
    exact hlogged.append hquiet

end Token

/-- So is every display. -/
lemma isWholeLines_display (verbose : Bool) (tokens : List Token) :
    IsWholeLines (display verbose tokens) := by
  induction tokens using List.reverseRecOn with
  | nil => exact Or.inl rfl
  | append_singleton tokens t ih =>
    rw [display_concat]
    exact ih.append (Token.isWholeLines_text verbose t _)

/-- The lines of a display without preparation and logs are among those of the full display. -/
lemma lines_display_sublist (tokens : List Token) :
    (Text.lines (display false tokens).toList).Sublist (Text.lines (display true tokens).toList) := by
  induction tokens using List.reverseRecOn with
  | nil => exact List.Sublist.refl _
  | append_singleton tokens t ih =>
    obtain ⟨logged, hlogged, htext⟩ :=
      t.exists_text_true ((tokens ++ [t]).countP Token.isAssertion % 2 ^ 32)
    rw [display_concat, display_concat, lines_append (isWholeLines_display false tokens),
      lines_append (isWholeLines_display true tokens), htext, lines_append hlogged]
    exact ih.append (List.sublist_append_right _ _)

/-- **Verbosity only adds lines, and assertions are numbered in order.** A display without preparation and
logs is the full display of the tokens without them, and its lines are among those of the full display. In
both, an assertion has the number that it has among the assertions, counted in 32 bits and written with at
least two digits, whatever stands between them. The display of the first tokens is what the display of all
of them starts with.

**Proof sketch.** Induction on the tokens from the last one on. The text of a token depends on those in
front of it by the count of the assertions only, and a quiet token is an assertion if the token is one. -/
theorem verbosity_only_adds_lines :
    (∀ tokens : List Token,
      display false tokens = display true (tokens.filterMap Token.quiet) ∧
        (Text.lines (display false tokens).toList).Sublist
          (Text.lines (display true tokens).toList)) ∧
    ∀ (verbose : Bool) (front : List Token),
      (∀ why description behind, ∃ more,
        display verbose (front ++ .assertion why description :: behind) =
          display verbose front ++
            (String.ofList
              ((toString ((front.countP Token.isAssertion + 1) % 2 ^ 32)).toList.leftpad 2 '0') ++
              " → " ++ description ++ Token.verdict why) ++ more) ∧
        ∀ behind, ∃ more, display verbose (front ++ behind) = display verbose front ++ more := by
  refine ⟨fun tokens => ⟨display_false tokens, lines_display_sublist tokens⟩, fun verbose front => ?_⟩
  refine ⟨fun why description behind => ?_, display_append verbose front⟩
  obtain ⟨more, hmore⟩ := display_append verbose (front ++ [Token.assertion why description]) behind
  have hcount : (front ++ [Token.assertion why description]).countP Token.isAssertion =
      front.countP Token.isAssertion + 1 := by
    rw [List.countP_append]
    rfl
  rw [display_concat, hcount, Token.text_assertion, List.append_assoc, List.singleton_append] at hmore
  exact ⟨more, hmore⟩

example : display false
      [.assertion none "a", .setup ["b"], .run ["c"] (some "d"), .assertion (some "e") "f"] =
    "01 → a ✅\n💥 d\n02 → f ❌\ne\n" := by decide +kernel

end AccumulatorMachine.Script
