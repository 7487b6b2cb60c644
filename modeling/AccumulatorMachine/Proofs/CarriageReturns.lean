import AccumulatorMachine.Proofs.DataSections
import AccumulatorMachine.Proofs.LocalEdits
import AccumulatorMachine.Script.Session

/-!
# Carriage returns at line ends

A text may be given a carriage return in front of every line feed, whatever carriage returns it has
already. Each line feed takes one of them. So the lines of the text stay the same, or get one carriage
return at their ends: a line gets one if its line end had one already.

Nobody minds. Whatever is read is trimmed first, and the only thing that is asked of a line that is not
trimmed is whether it starts with a blank or a tab. So a source has the same report, an image is read as
the same program or refused for the same reason, and a session sends the same tokens and ends in the same
way.

What is said of a line without a form may quote the line, in words that are not fixed here. It quotes the
trimmed line, so no carriage return of a line end gets into a token or an error.

## Main definitions

* `Text.withReturns` — a text with a carriage return in front of every line feed.

## Main results

* `Text.lines_withReturns` — its lines.
* `Source.foldl_line_of_readAs`, `Script.Settings.runFrom_congr` — what is made of lines does not depend on
  carriage returns at their ends.
* `line_ends_do_not_matter` — a source, an image and a script.
-/

set_option autoImplicit false

namespace AccumulatorMachine

namespace Text

/-! ## Lines -/

/-- A text with a carriage return in front of every line feed. -/
def withReturns (text : List Char) : List Char :=
  text.flatMap fun c => if c = '\n' then ['\r', '\n'] else [c]

/-- Each line feed of two texts gets its carriage return in its own text. -/
lemma withReturns_append (text more : List Char) :
    withReturns (text ++ more) = withReturns text ++ withReturns more := List.flatMap_append

/-- Nothing happens to a line. -/
lemma withReturns_of_notMem {line : List Char} (h : '\n' ∉ line) : withReturns line = line := by
  have hchar : ∀ c ∈ line, (if c = '\n' then ['\r', '\n'] else [c]) = [c] := by
    intro c hc
    rw [if_neg]
    rintro rfl
    exact h hc
  rw [withReturns, List.flatMap_congr hchar, List.flatMap_singleton']

/-- A line that ends at a line feed ends at a carriage return and the line feed. -/
lemma lines_withReturns_append {line : List Char} (h : '\n' ∉ line) (text : List Char) :
    lines (withReturns (line ++ '\n' :: text)) = line :: lines (withReturns text) := by
  have htext : withReturns (line ++ '\n' :: text) = line ++ '\r' :: '\n' :: withReturns text := by
    rw [withReturns_append, withReturns_of_notMem h]
    rfl
  rw [htext]
  exact cutLines_ret_feed (by decide) h _

/-- A text that is made of lines still is, up to carriage returns at their ends.

**Proof sketch.** Induction on the lines. The line feed behind a line takes the new carriage return, so the
one that stood there before, if any, is now part of the line. -/
lemma HasLines.readAs_withReturns {text : List Char} {ls : List (List Char)} (h : HasLines text ls) :
    List.Forall₂ (ReadAs '\r') (lines (withReturns text)) ls := by
  induction h with
  | nil => exact .nil
  | last hne hfeed =>
    rw [withReturns_of_notMem hfeed, lines, cutLines_of_notMem hne hfeed]
    exact .cons (.inl rfl) .nil
  | @cons line ending text rest hfeed hending _ ih =>
    simp only [List.mem_cons, List.not_mem_nil, or_false] at hending
    rcases hending with rfl | rfl
    · rw [List.singleton_append, lines_withReturns_append hfeed]
      exact .cons (.inl rfl) ih
    · have hline : line ++ (['\r', '\n'] ++ text) = (line ++ ['\r']) ++ '\n' :: text := by simp
      rw [hline, lines_withReturns_append (by simp [hfeed])]
      exact .cons (.inr rfl) ih

/-- **The lines of a text with carriage returns** are those of the text, up to a carriage return. -/
theorem lines_withReturns (text : List Char) :
    List.Forall₂ (ReadAs '\r') (lines (withReturns text)) (lines text) :=
  (hasLines_lines text).readAs_withReturns

/-- A carriage return at the end of a line is trimmed off. -/
lemma ReadAs.trim_eq {line shown : List Char} (h : ReadAs '\r' line shown) : trim line = trim shown := by
  rcases h with rfl | rfl
  · rfl
  · exact trim_append_return shown

/-- Trimmed, the lines are the same. -/
lemma map_trim_lines_withReturns (text : List Char) :
    (lines (withReturns text)).map trim = (lines text).map trim := by
  rw [← List.forall₂_eq_eq_eq, List.forall₂_map_left_iff, List.forall₂_map_right_iff]
  exact (lines_withReturns text).imp fun _ _ h => h.trim_eq

/-- The lines of the bytes of such a text are its lines. -/
lemma readLines_withReturns (text : String) :
    readLines (String.ofList (withReturns text.toList)).toUTF8 =
      (lines (withReturns text.toList)).map .ok := by
  rw [readLines_toUTF8, String.toList_ofList]

end Text

open Text

/-! ## Sources -/

namespace Source

/-- A carriage return at the end of a line is not seen. -/
lemma Scan.line_of_readAs (s : Scan) {line shown : List Char} (h : ReadAs '\r' line shown) :
    s.line line = s.line shown := by
  rcases h with rfl | rfl
  · rfl
  · simp only [Scan.line, trim_append_return, statement_append_return]

/-- So it is not seen in any of the lines. -/
lemma foldl_line_of_readAs {lines shown : List (List Char)}
    (h : List.Forall₂ (ReadAs '\r') lines shown) (s : Scan) :
    lines.foldl Scan.line s = shown.foldl Scan.line s := by
  induction h generalizing s with
  | nil => rfl
  | cons hline _ ih => rw [List.foldl_cons, List.foldl_cons, s.line_of_readAs hline, ih]

end Source

/-! ## Scripts -/

namespace Script

/-- A command is read from the trimmed line, and so is the line that an error of form names. -/
lemma Command.ofLine_congr {line line' : List Char} (h : trim line = trim line') :
    ofLine line = ofLine line' := by
  rw [ofLine, ofLine, h]

variable (settings : Settings) (files : Files)

/-- One line of a session is seen trimmed, in what it gives and in what is said of it. -/
lemma Settings.take_congr (m : Machine) (sent : Array Token) {line line' : List Char}
    (h : trim line = trim line') :
    settings.take files m sent (.ok line) = settings.take files m sent (.ok line') := by
  have hobey : obey files settings.steps m (.ok line) = obey files settings.steps m (.ok line') := by
    simp only [obey, Command.ofLine_congr h]
  rw [take, take, hobey]

/-- A session sees the trimmed lines only. -/
lemma Settings.runFrom_congr {ls ls' : List (List Char)} (h : ls.map trim = ls'.map trim)
    (m : Machine) (sent : Array Token) :
    settings.runFrom files m sent (ls.map .ok) = settings.runFrom files m sent (ls'.map .ok) := by
  induction ls generalizing ls' m sent with
  | nil =>
    rw [List.map_nil, List.nil_eq, List.map_eq_nil_iff] at h
    rw [h]
  | cons line ls ih =>
    cases ls' with
    | nil => cases h
    | cons line' ls' =>
      simp only [List.map_cons, List.cons.injEq] at h
      obtain ⟨hline, hls⟩ := h
      rw [List.map_cons, List.map_cons, runFrom, runFrom, settings.take_congr files m sent hline]
      cases settings.take files m sent (.ok line') with
      | error outcome => rfl
      | ok next => exact ih hls next.1 next.2

end Script

/-- **Line ends do not matter.** A text may be given a carriage return in front of every line feed,
whatever carriage returns it has already. As a source, it has the same diagnostics. As an image, it is
read as the same program, or refused for the same reason. As a script, it sends the same tokens and ends
in the same way, with any files and any settings: whatever words a line without a form is answered with,
they are about the trimmed line.

**Proof sketch.** The lines of the text are the same up to a carriage return at their ends. -/
theorem line_ends_do_not_matter (text : String) :
    Source.check (withReturns text.toList) = Source.check text.toList ∧
    Image.ofLines (readLines (String.ofList (withReturns text.toList)).toUTF8) =
      Image.ofLines (readLines text.toUTF8) ∧
    ∀ (settings : Script.Settings) (files : Files),
      settings.run files (.lines (readLines (String.ofList (withReturns text.toList)).toUTF8)) =
        settings.run files (.lines (readLines text.toUTF8)) := by
  have htrim := map_trim_lines_withReturns text.toList
  rw [readLines_withReturns, readLines_toUTF8]
  refine ⟨?_, Image.ofLines_congr htrim, fun settings files => ?_⟩
  · rw [Source.check, Source.check, Source.foldl_line_of_readAs (lines_withReturns text.toList)]
  · exact congrArg Script.Course.ended (settings.runFrom_congr files htrim {} #[])

end AccumulatorMachine
