import AccumulatorMachine.Files
import AccumulatorMachine.Proofs.TextLayout

/-!
# Lines of a text and of its bytes

A file is bytes. It is cut into lines before anything is decoded, so that a line that is no UTF-8 spoils
no other. On a text in UTF-8 this makes no difference, since the bytes of a line end stand for
themselves and are part of no other character.

The lines of a text are those that it has been made of, whichever line ends have been used, up to a
carriage return that a line itself ends in. No reader minds the difference: a carriage return is a blank
and is trimmed off.

## Main definitions

* `Text.encode` — the bytes of a text in UTF-8.
* `Text.HasLines` — a text is made of lines and line ends.

## Main results

* `Text.cutLines_encode` — the lines of the bytes are the bytes of the lines.
* `Text.decode_eq_some_iff` — the only bytes that are decoded to a text.
* `readLines_toUTF8` — the lines of a file that holds a text.
* `Text.HasLines.map_trim_lines` — the lines of a text that is made of lines.
-/

set_option autoImplicit false

namespace AccumulatorMachine

namespace Text

/-! ## Bytes -/

/-- The bytes of a text in UTF-8. -/
def encode (text : List Char) : List UInt8 := text.flatMap String.utf8EncodeChar

/-- A text is encoded character by character. -/
lemma encode_cons (c : Char) (cs : List Char) :
    encode (c :: cs) = String.utf8EncodeChar c ++ encode cs := List.flatMap_cons

/-- A byte below 128 is the number of the character that it is part of. -/
lemma toNat_of_mem_utf8EncodeChar {c : Char} {b : UInt8} (h : b ∈ String.utf8EncodeChar c)
    (hb : b.toNat < 128) : c.toNat = b.toNat := by
  have hc : c.toNat = c.val.toNat := rfl
  unfold String.utf8EncodeChar at h
  simp only at h
  split_ifs at h with h1 h2 h3
  all_goals
    simp only [List.mem_cons, List.not_mem_nil, or_false] at h
  · subst h
    simp only [UInt8.toNat_ofNat'] at hb ⊢
    omega
  -- All bytes of a longer character are at least 128.
  · rcases h with rfl | rfl <;> simp only [UInt8.toNat_ofNat'] at hb <;> omega
  · rcases h with rfl | rfl | rfl <;> simp only [UInt8.toNat_ofNat'] at hb <;> omega
  · rcases h with rfl | rfl | rfl | rfl <;> simp only [UInt8.toNat_ofNat'] at hb <;> omega

/-- The bytes of a text start with a line feed exactly when the text does. -/
lemma head?_encode_eq_feed_iff (text : List Char) :
    (encode text).head? = some 10 ↔ text.head? = some '\n' := by
  cases text with
  | nil => simp [encode]
  | cons c cs =>
    obtain ⟨b, bs, hc⟩ := List.exists_cons_of_ne_nil (String.utf8EncodeChar_ne_nil (c := c))
    rw [encode_cons, hc]
    simp only [List.cons_append, List.head?_cons, Option.some.injEq]
    constructor
    · rintro rfl
      have hb : (10 : UInt8) ∈ String.utf8EncodeChar c := by simp [hc]
      exact Char.toNat_inj.1 (toNat_of_mem_utf8EncodeChar hb (by decide))
    · rintro rfl
      exact (List.cons.inj hc).1.symm

/-- A word that is not empty joins the first line. -/
lemma foldr_pushFirst {α : Type} {word : List α} (h : word ≠ []) (lines : List (List α)) :
    word.foldr pushFirst lines = (word ++ lines.headD []) :: lines.tail := by
  induction word with
  | nil => exact absurd rfl h
  | cons c cs ih =>
    cases cs with
    | nil => cases lines <;> rfl
    | cons d ds =>
      rw [List.foldr_cons, ih (List.cons_ne_nil d ds)]
      rfl

/-- Symbols that are no part of a line end join the first line, one after the other. -/
lemma cutLines_append {α : Type} [DecidableEq α] {feed ret : α} {word : List α} (hfeed : feed ∉ word)
    (hret : ret ∉ word) (rest : List α) :
    cutLines feed ret (word ++ rest) = word.foldr pushFirst (cutLines feed ret rest) := by
  induction word with
  | nil => rfl
  | cons c cs ih =>
    rw [List.mem_cons, not_or] at hfeed hret
    rw [List.cons_append, cutLines_cons, if_neg (Ne.symm hfeed.1),
      if_neg (fun h => hret.1 h.1.symm), ih hfeed.2 hret.2]
    rfl

/-- **The lines of the bytes of a text are the bytes of its lines.**

**Proof sketch.** Induction on the text. A line feed and a carriage return are one byte each, and this
byte does what the character does. The bytes of any other character join the first line. -/
theorem cutLines_encode (text : List Char) :
    cutLines 10 13 (encode text) = (lines text).map encode := by
  induction text with
  | nil => rfl
  | cons c cs ih =>
    have hcut : lines (c :: cs) =
        if c = '\n' then [] :: lines cs
        else if c = '\r' ∧ cs.head? = some '\n' then lines cs
        else pushFirst c (lines cs) := cutLines_cons '\n' '\r' c cs
    have hother : ∀ b : UInt8, b.toNat < 128 → b.toNat ≠ c.toNat → b ∉ String.utf8EncodeChar c :=
      fun b hb hne hmem => hne (toNat_of_mem_utf8EncodeChar hmem hb).symm
    rw [hcut, encode_cons]
    by_cases hfeed : c = '\n'
    · have hbytes : String.utf8EncodeChar '\n' = [10] := by decide
      rw [hfeed, hbytes, List.singleton_append, cutLines_cons, if_pos rfl, if_pos rfl, ih]
      rfl
    · rw [if_neg hfeed]
      by_cases hret : c = '\r'
      · have hbytes : String.utf8EncodeChar '\r' = [13] := by decide
        rw [hret, hbytes, List.singleton_append, cutLines_cons, if_neg (by decide), ih]
        simp only [head?_encode_eq_feed_iff, true_and]
        split
        · rfl
        · cases lines cs <;> simp [pushFirst, encode, hbytes]
      · rw [if_neg fun h => hret h.1, cutLines_append, ih,
          foldr_pushFirst String.utf8EncodeChar_ne_nil]
        · cases lines cs <;> simp [pushFirst, encode]
        · exact hother 10 (by decide) fun h => hfeed (Char.toNat_inj.1 h.symm)
        · exact hother 13 (by decide) fun h => hret (Char.toNat_inj.1 h.symm)

/-- A text is decoded from its bytes. -/
lemma decode_encode (text : List Char) : decode (encode text) = some text := by
  have hvalid : (encode text).toByteArray.IsValidUTF8 := ByteArray.isValidUTF8_utf8Encode
  rw [decode, String.fromUTF8?, dif_pos hvalid]
  show some (String.ofList text).toList = some text
  rw [String.toList_ofList]

/-- Bytes are decoded to the text that they are the bytes of. -/
lemma decode_eq_some_iff {bytes : List UInt8} {text : List Char} :
    decode bytes = some text ↔ bytes = encode text := by
  constructor
  · intro h
    obtain ⟨s, hs, rfl⟩ := Option.map_eq_some_iff.1 h
    have hbytes : s.toByteArray = bytes.toByteArray := by
      unfold String.fromUTF8? at hs
      split at hs
      · cases hs
        rfl
      · cases hs
    rw [← String.utf8Encode_toList] at hbytes
    have hdata := congrArg (fun b : ByteArray => b.data.toList) hbytes
    rw [List.toList_data_toByteArray] at hdata
    exact hdata.symm.trans List.toList_data_toByteArray
  · rintro rfl
    exact decode_encode text

/-- A carriage return behind bytes is one behind their text. -/
lemma decode_append_return (bytes : List UInt8) :
    decode (bytes ++ [13]) = (decode bytes).map (· ++ ['\r']) := by
  have hreturn : ∀ text, encode (text ++ ['\r']) = encode text ++ [13] := by
    intro text
    rw [encode, List.flatMap_append]
    rfl
  cases hdecode : decode bytes with
  | some text =>
    rw [Option.map_some, decode_eq_some_iff, hreturn, decode_eq_some_iff.1 hdecode]
  | none =>
    rw [Option.map_none, Option.eq_none_iff_forall_ne_some]
    intro text htext
    have hbytes := decode_eq_some_iff.1 htext
    -- The last character has 13 as its last byte, so it is the carriage return.
    obtain rfl | ⟨front, c, rfl⟩ := List.eq_nil_or_concat' text
    · exact List.append_ne_nil_of_right_ne_nil _ (List.cons_ne_nil _ _) hbytes
    · have hsplit : encode (front ++ [c]) = encode front ++ String.utf8EncodeChar c := by
        rw [encode, List.flatMap_append, List.flatMap_singleton]
        rfl
      have hlast : (13 : UInt8) ∈ String.utf8EncodeChar c := by
        have hget := congrArg List.getLast? hbytes
        rw [hsplit, List.getLast?_concat,
          List.getLast?_append_of_ne_nil _ String.utf8EncodeChar_ne_nil] at hget
        exact List.mem_of_mem_getLast? hget.symm
      obtain rfl : c = '\r' := Char.toNat_inj.1 (toNat_of_mem_utf8EncodeChar hlast (by decide))
      rw [hreturn] at hbytes
      have hfront := decode_eq_some_iff.2 (List.append_cancel_right hbytes)
      rw [hdecode] at hfront
      cases hfront

end Text

open Text in
/-- The lines of a file that holds a text are the lines of the text. -/
theorem readLines_toUTF8 (text : String) : readLines text.toUTF8 = (lines text.toList).map .ok := by
  have hbytes : text.toUTF8.data.toList = encode text.toList := by
    rw [String.toUTF8_eq_toByteArray, ← String.utf8Encode_toList]
    exact List.toList_data_toByteArray
  rw [readLines, byteLines, hbytes, cutLines_encode, List.map_map, List.map_map]
  refine List.map_congr_left fun line _ => ?_
  simp only [Function.comp_apply, decode_encode]

namespace Text

/-! ## Line ends -/

/-- A text is made of lines, each with a line end behind it. The last line may stand at the end of the
text instead, unless it is empty. -/
inductive HasLines : List Char → List (List Char) → Prop
  | nil : HasLines [] []
  | last {line : List Char} (hne : line ≠ []) (hfeed : '\n' ∉ line) : HasLines line [line]
  | cons {line ending text : List Char} {rest : List (List Char)} (hfeed : '\n' ∉ line)
    (hending : ending ∈ [['\n'], ['\r', '\n']]) (hrest : HasLines text rest) :
    HasLines (line ++ (ending ++ text)) (line :: rest)

/-- Lines without line feeds make a text. -/
lemma exists_hasLines {ls : List (List Char)} (h : ∀ line ∈ ls, '\n' ∉ line) :
    ∃ text, HasLines text ls := by
  induction ls with
  | nil => exact ⟨[], .nil⟩
  | cons line ls ih =>
    obtain ⟨hline, hls⟩ := List.forall_mem_cons.1 h
    obtain ⟨text, htext⟩ := ih hls
    exact ⟨_, .cons hline List.mem_cons_self htext⟩

/-- Blanks around a line are trimmed off. -/
lemma trim_append {before behind : List Char} (hbefore : IsBlankLine before)
    (hbehind : IsBlankLine behind) (line : List Char) :
    trim (before ++ (line ++ behind)) = trim line := by
  have hend : behind.reverse.dropWhile isBlank = [] := by
    rw [dropWhile_eq_nil_iff]
    intro c hc
    exact hbehind c (List.mem_reverse.1 hc)
  rw [trim, trim, List.dropWhile_append_of_pos hbefore, List.dropWhile_append]
  cases line.dropWhile isBlank with
  | nil =>
    have hnil : behind.dropWhile isBlank = [] := (dropWhile_eq_nil_iff isBlank behind).2 hbehind
    simp [hnil]
  | cons c cs =>
    show trimEnd ((c :: cs) ++ behind) = trimEnd (c :: cs)
    rw [trimEnd, trimEnd, List.reverse_append, List.dropWhile_append, hend]
    rfl

/-- A carriage return at the end of a line is trimmed off. -/
lemma trim_append_return (line : List Char) : trim (line ++ ['\r']) = trim line :=
  trim_append isBlankLine_nil (by decide) line

/-- A carriage return at the end of a line is trimmed off. -/
lemma trim_dropReturn (line : List Char) : trim (dropReturn line) = trim line := by
  unfold dropReturn
  split
  · rename_i hret
    obtain ⟨front, rfl⟩ := List.getLast?_eq_some_iff.1 hret
    have htrim : trim ([] ++ (front ++ ['\r'])) = trim front :=
      trim_append isBlankLine_nil (by decide) front
    rw [List.dropLast_concat]
    exact htrim.symm
  · rfl

/-- A text that starts with a line and its line feed has this line first. -/
lemma lines_append_feed {line : List Char} (h : '\n' ∉ line) (text : List Char) :
    lines (line ++ '\n' :: text) = dropReturn line :: lines text := by
  rw [lines_eq_splitLines, lines_eq_splitLines, splitLines, splitLines,
    List.splitOn_append_cons_self_of_not_mem h]
  obtain ⟨piece, pieces, hpieces⟩ := List.exists_cons_of_ne_nil (List.splitOn_ne_nil '\n' text)
  rw [hpieces]
  rfl

/-- The lines of a text are those that it is made of, except that a line feed takes a carriage return
from the line in front of it. -/
lemma HasLines.forall₂_lines {text : List Char} {ls : List (List Char)} (h : HasLines text ls) :
    List.Forall₂ (fun shown line => shown = line ∨ shown = dropReturn line) (lines text) ls := by
  induction h with
  | nil => exact .nil
  | last hne hfeed =>
    rw [lines_eq_splitLines, splitLines, List.splitOn_eq_singleton hfeed, linesOfPieces, if_neg hne]
    exact .cons (.inl rfl) .nil
  | @cons line ending text rest hfeed hending _ ih =>
    simp only [List.mem_cons, List.not_mem_nil, or_false] at hending
    rcases hending with rfl | rfl
    · rw [List.singleton_append, lines_append_feed hfeed]
      exact .cons (.inr rfl) ih
    · -- The carriage return of the line end is the one that is dropped.
      have hline : line ++ (['\r', '\n'] ++ text) = (line ++ ['\r']) ++ '\n' :: text := by simp
      have hdrop : dropReturn (line ++ ['\r']) = line := by simp [dropReturn]
      rw [hline, lines_append_feed (by simp [hfeed]), hdrop]
      exact .cons (.inl rfl) ih

/-- The lines of a text are those that it is made of, up to blanks at their ends. -/
theorem HasLines.map_trim_lines {text : List Char} {ls : List (List Char)} (h : HasLines text ls) :
    (lines text).map trim = ls.map trim := by
  rw [← List.forall₂_eq_eq_eq, List.forall₂_map_left_iff, List.forall₂_map_right_iff]
  refine h.forall₂_lines.imp fun shown line hshown => ?_
  rcases hshown with rfl | rfl
  · rfl
  · exact trim_dropReturn line

/-- They are those that it is made of, if no line ends in a carriage return. -/
lemma HasLines.lines_eq {text : List Char} {ls : List (List Char)} (h : HasLines text ls)
    (hreturn : ∀ line ∈ ls, line.getLast? ≠ some '\r') : lines text = ls := by
  have hlines := h.forall₂_lines
  clear h
  generalize lines text = shown at hlines
  induction hlines with
  | nil => rfl
  | @cons first line _ _ hfirst _ ih =>
    obtain ⟨hline, hmore⟩ := List.forall_mem_cons.1 hreturn
    have hdrop : dropReturn line = line := if_neg hline
    rw [hdrop, or_self] at hfirst
    rw [hfirst, ih hmore]

end Text

end AccumulatorMachine
