import AccumulatorMachine.Text.Lines
import Mathlib.Tactic

/-!
# Lines at their places

A line of a text stands between what is in front of it, which is empty or ends in a line feed, and a line
end with the rest of the text behind it, or the end of the text. Another line may be put into this place.
It becomes a line of its own, and all other lines stay as they are. Only a carriage return at its end may
be taken for a part of the line end.

This holds of characters and of bytes alike.

## Main definitions

* `Text.Place` — a place at which a line can stand, and `Place.fill`, the text with a line there.
* `Text.ReadAs` — a line as it is found again, with or without a carriage return at its end.
* `Text.StandsAt` — a line of a text stands at a place.

## Main results

* `Text.cutLines_append_of_ends` — lines in front of a line of its own are cut on their own.
* `Text.Place.cutLines_fill` — the lines of a text with a line at a place.
* `Text.exists_standsAt` — each line of a text stands at a place.
-/

set_option autoImplicit false

namespace AccumulatorMachine.Text

variable {α : Type} [DecidableEq α] {feed ret : α}

/-! ## Texts that end in a line feed -/

/-- Only the empty text has no line. -/
lemma cutLines_eq_nil_iff (text : List α) : cutLines feed ret text = [] ↔ text = [] := by
  induction text with
  | nil => exact iff_of_true rfl rfl
  | cons c cs ih =>
    refine iff_of_false ?_ (List.cons_ne_nil c cs)
    rw [cutLines_cons]
    split
    · exact List.cons_ne_nil _ _
    · split
      · rename_i hret
        rw [ih]
        rintro rfl
        cases hret.2
      · cases cutLines feed ret cs <;> exact List.cons_ne_nil _ _

omit [DecidableEq α] in
/-- A symbol joins the first of several lines. -/
lemma pushFirst_append (c : α) {lines : List (List α)} (h : lines ≠ []) (more : List (List α)) :
    pushFirst c (lines ++ more) = pushFirst c lines ++ more := by
  obtain ⟨line, lines, rfl⟩ := List.exists_cons_of_ne_nil h
  rfl

/-- What follows a line feed, or the start of the text, has lines of its own. -/
lemma cutLines_append_of_ends {front : List α} (h : front = [] ∨ front.getLast? = some feed)
    (rest : List α) :
    cutLines feed ret (front ++ rest) = cutLines feed ret front ++ cutLines feed ret rest := by
  induction front with
  | nil => rfl
  | cons c cs ih =>
    by_cases hcs : cs = []
    · subst hcs
      have hc : c = feed := by simpa using h
      rw [List.singleton_append, cutLines_cons, if_pos hc, cutLines_cons, if_pos hc]
      rfl
    · have hlast : cs.getLast? = some feed := by
        simpa [List.getLast?_cons, List.getLast?_eq_some_getLast hcs] using h
      rw [List.cons_append, cutLines_cons, cutLines_cons feed ret c cs, ih (.inr hlast),
        List.head?_append_of_ne_nil _ hcs]
      split
      · rfl
      · split
        · rfl
        · exact pushFirst_append c ((cutLines_eq_nil_iff cs).not.2 hcs) _

/-! ## One line -/

/-- A line as it is found again: a carriage return at its end may be missing. -/
def ReadAs (ret : α) (line shown : List α) : Prop := line = shown ∨ line = shown ++ [ret]

/-- A line at the end of a text is kept whole. -/
lemma cutLines_of_notMem {line : List α} (hne : line ≠ []) (hfeed : feed ∉ line) :
    cutLines feed ret line = [line] := by
  induction line with
  | nil => exact absurd rfl hne
  | cons c cs ih =>
    rw [List.mem_cons, not_or] at hfeed
    have hhead : cs.head? ≠ some feed := fun h => hfeed.2 (List.mem_of_mem_head? h)
    rw [cutLines_cons, if_neg (Ne.symm hfeed.1), if_neg fun h => hhead h.2]
    by_cases hcs : cs = []
    · rw [hcs]
      rfl
    · rw [ih hcs hfeed.2]
      rfl

/-- In front of a line feed, a carriage return at the end of a line is part of the line end. -/
lemma exists_cutLines_feed {line : List α} (hfeed : feed ∉ line) (rest : List α) :
    ∃ shown, ReadAs ret line shown ∧
      cutLines feed ret (line ++ feed :: rest) = shown :: cutLines feed ret rest := by
  induction line with
  | nil => exact ⟨[], .inl rfl, by rw [List.nil_append, cutLines_cons, if_pos rfl]⟩
  | cons c cs ih =>
    rw [List.mem_cons, not_or] at hfeed
    obtain ⟨shown, hshown, hcut⟩ := ih hfeed.2
    rw [List.cons_append, cutLines_cons, if_neg (Ne.symm hfeed.1), hcut]
    by_cases hc : c = ret ∧ (cs ++ feed :: rest).head? = some feed
    · -- The carriage return stands right in front of the line feed.
      have hcs : cs = [] := by
        by_contra hne
        rw [List.head?_append_of_ne_nil _ hne] at hc
        exact hfeed.2 (List.mem_of_mem_head? hc.2)
      subst hcs
      have hnil : shown = [] := by
        rcases hshown with h | h
        · exact h.symm
        · simp at h
      exact ⟨[], .inr (by rw [hc.1]; rfl), by rw [if_pos hc, hnil]⟩
    · rw [if_neg hc]
      refine ⟨c :: shown, ?_, rfl⟩
      exact hshown.imp (congrArg (c :: ·)) (congrArg (c :: ·))

/-- The line end takes one carriage return only. -/
lemma cutLines_ret_feed {line : List α} (hret : ret ≠ feed) (hfeed : feed ∉ line) (rest : List α) :
    cutLines feed ret (line ++ ret :: feed :: rest) = line :: cutLines feed ret rest := by
  induction line with
  | nil =>
    rw [List.nil_append, cutLines_cons, if_neg hret, if_pos ⟨rfl, rfl⟩, cutLines_cons, if_pos rfl]
  | cons c cs ih =>
    rw [List.mem_cons, not_or] at hfeed
    have hhead : (cs ++ ret :: feed :: rest).head? ≠ some feed := by
      cases cs with
      | nil => simpa using hret
      | cons d ds =>
        rw [List.mem_cons, not_or] at hfeed
        simpa using Ne.symm hfeed.2.1
    rw [List.cons_append, cutLines_cons, if_neg (Ne.symm hfeed.1), if_neg fun h => hhead h.2,
      ih hfeed.2]
    rfl

/-! ## Places -/

/-- A place at which a line can stand. -/
structure Place (feed ret : α) where
  /-- The text up to the line. -/
  front : List α
  /-- The line end, unless the line is the last one. -/
  ending : List α
  /-- The text behind the line end. -/
  behind : List α
  front_ends : front = [] ∨ front.getLast? = some feed
  ending_or : ending = [] ∧ behind = [] ∨ ending = [feed] ∨ ending = [ret, feed]

namespace Place

variable (p : Place feed ret)

/-- The text with a line at the place. -/
def fill (line : List α) : List α := p.front ++ (line ++ (p.ending ++ p.behind))

/-- The lines in front of the place. -/
def before : List (List α) := cutLines feed ret p.front

/-- The lines behind the place. -/
def later : List (List α) := cutLines feed ret p.behind

/-- The number of the line at the place. -/
def number : Nat := p.before.length + 1

/-- The lines of a text with a line at a place: this line and all the others.

**Proof sketch.** The text in front of the place is cut on its own, and so is what follows the line end.
In between there are three line ends, and each makes one line of what it ends. -/
lemma cutLines_fill (hret : ret ≠ feed) {line : List α} (hne : line ≠ []) (hfeed : feed ∉ line) :
    ∃ shown, ReadAs ret line shown ∧
      cutLines feed ret (p.fill line) = p.before ++ shown :: p.later := by
  rw [fill, cutLines_append_of_ends p.front_ends, before, later]
  rcases p.ending_or with ⟨hending, hbehind⟩ | hending | hending
  · exact ⟨line, .inl rfl, by
      rw [hending, hbehind, List.append_nil, List.append_nil, cutLines_of_notMem hne hfeed]
      rfl⟩
  · obtain ⟨shown, hshown, hcut⟩ := exists_cutLines_feed hfeed p.behind
    exact ⟨shown, hshown, by rw [hending, List.singleton_append, hcut]⟩
  · refine ⟨line, .inl rfl, ?_⟩
    rw [hending, List.cons_append, List.singleton_append, cutLines_ret_feed hret hfeed]

end Place

/-- A line of a text stands at a place, between its other lines. -/
structure StandsAt (p : Place feed ret) (text : List α) (before : List (List α)) (line : List α)
    (later : List (List α)) : Prop where
  fill_eq : p.fill line = text
  before_eq : p.before = before
  later_eq : p.later = later
  feed_notMem : feed ∉ line

section Cons

variable {c : α} {cs line : List α} {before later : List (List α)}

/-- A symbol in front of a place. -/
def Place.cons (c : α) (p : Place feed ret) (h : p.front = [] → c = feed) : Place feed ret where
  front := c :: p.front
  ending := p.ending
  behind := p.behind
  front_ends := by
    rcases p.front_ends with hfront | hfront
    · exact .inr (by rw [hfront, h hfront]; rfl)
    · exact .inr (by rw [List.getLast?_cons, hfront]; rfl)
  ending_or := p.ending_or

/-- A line feed in front of a text is one more empty line. -/
lemma exists_standsAt_feed
    (ih : ∀ before line, cutLines feed ret cs = before ++ line :: later →
      ∃ p : Place feed ret, StandsAt p cs before line later)
    (h : [] :: cutLines feed ret cs = before ++ line :: later) :
    ∃ p : Place feed ret, StandsAt p (feed :: cs) before line later := by
  cases before with
  | nil =>
    obtain ⟨rfl, rfl⟩ := List.cons.inj h
    exact ⟨⟨[], [feed], cs, .inl rfl, .inr (.inl rfl)⟩, rfl, rfl, rfl, List.not_mem_nil⟩
  | cons first before =>
    obtain ⟨rfl, hcs⟩ := List.cons.inj h
    obtain ⟨p, rfl, rfl, hlater, hfeed⟩ := ih before line hcs
    exact ⟨p.cons feed fun _ => rfl, rfl, (cutLines_cons feed ret feed _).trans (if_pos rfl), hlater,
      hfeed⟩

/-- A carriage return in front of a line feed is a part of the line end. -/
lemma exists_standsAt_return (hret : ret ≠ feed) (hhead : cs.head? = some feed)
    {p : Place feed ret} (h : StandsAt p cs before line later) :
    ∃ p : Place feed ret, StandsAt p (ret :: cs) before line later := by
  obtain ⟨rfl, rfl, rfl, hfeed⟩ := h
  by_cases hfront : p.front = []
  · -- The line feed is the line end at the place.
    rw [Place.fill, hfront, List.nil_append] at hhead
    have hline : line = [] := by
      by_contra hne
      rw [List.head?_append_of_ne_nil _ hne] at hhead
      exact hfeed (List.mem_of_mem_head? hhead)
    subst hline
    have hending : p.ending = [feed] := by
      rcases p.ending_or with ⟨hending, hbehind⟩ | hending | hending
      · rw [hending, hbehind] at hhead
        cases hhead
      · exact hending
      · rw [hending] at hhead
        exact absurd (Option.some.inj hhead) hret
    refine ⟨⟨[], [ret, feed], p.behind, .inl rfl, .inr (.inr rfl)⟩, ?_, ?_, rfl, hfeed⟩
    · rw [Place.fill, Place.fill, hfront, hending]
      rfl
    · rw [Place.before, Place.before, hfront]
  · rw [Place.fill, List.head?_append_of_ne_nil _ hfront] at hhead
    refine ⟨p.cons ret fun hnil => absurd hnil hfront, rfl, ?_, rfl, hfeed⟩
    exact (cutLines_cons feed ret ret _).trans ((if_neg hret).trans (if_pos ⟨rfl, hhead⟩))

/-- Any other symbol joins the first line. -/
lemma exists_standsAt_push (hc : c ≠ feed) (hreturn : ¬ (c = ret ∧ cs.head? = some feed))
    (ih : ∀ before line, cutLines feed ret cs = before ++ line :: later →
      ∃ p : Place feed ret, StandsAt p cs before line later)
    (h : pushFirst c (cutLines feed ret cs) = before ++ line :: later) :
    ∃ p : Place feed ret, StandsAt p (c :: cs) before line later := by
  cases hcs : cutLines feed ret cs with
  | nil =>
    rw [hcs] at h
    rw [(cutLines_eq_nil_iff cs).1 hcs]
    cases before with
    | nil =>
      obtain ⟨rfl, rfl⟩ := List.cons.inj h
      exact ⟨⟨[], [], [], .inl rfl, .inl ⟨rfl, rfl⟩⟩, rfl, rfl, rfl,
        fun hmem => hc (List.mem_singleton.1 hmem).symm⟩
    | cons start before => exact absurd (List.cons.inj h).2.symm (by simp)
  | cons first rest =>
    rw [hcs] at h
    cases before with
    | nil =>
      -- The symbol joins the line at the place.
      obtain ⟨rfl, rfl⟩ := List.cons.inj h
      obtain ⟨p, rfl, hbefore, hlater, hfeed⟩ := ih [] first hcs
      have hfront := (cutLines_eq_nil_iff p.front).1 hbefore
      refine ⟨p, ?_, hbefore, hlater, ?_⟩
      · rw [Place.fill, Place.fill, hfront]
        rfl
      · exact fun hmem => (List.mem_cons.1 hmem).elim (fun h => hc h.symm) hfeed
    | cons start before =>
      obtain ⟨rfl, rfl⟩ := List.cons.inj h
      obtain ⟨p, rfl, hbefore, hlater, hfeed⟩ := ih (first :: before) line hcs
      have hfront : p.front ≠ [] := by
        intro hnil
        have hempty : cutLines feed ret p.front = [] := (cutLines_eq_nil_iff p.front).2 hnil
        exact List.cons_ne_nil _ _ (hbefore.symm.trans hempty)
      rw [Place.fill, List.head?_append_of_ne_nil _ hfront] at hreturn
      refine ⟨p.cons c fun hnil => absurd hnil hfront, rfl, ?_, hlater, hfeed⟩
      have hcut : cutLines feed ret p.front = first :: before := hbefore
      refine (cutLines_cons feed ret c _).trans ((if_neg hc).trans ((if_neg hreturn).trans ?_))
      rw [hcut]
      rfl

end Cons

/-- **Each line of a text stands at a place.**

**Proof sketch.** Induction on the text. Of a symbol in front of it, the place of a line can tell what
becomes: one more line, a part of a line end, or a part of the first line. -/
theorem exists_standsAt (hret : ret ≠ feed) {text line : List α} {before later : List (List α)}
    (h : cutLines feed ret text = before ++ line :: later) :
    ∃ p : Place feed ret, StandsAt p text before line later := by
  induction text generalizing before line with
  | nil => cases before <;> cases h
  | cons c cs ih =>
    have ih : ∀ before line, cutLines feed ret cs = before ++ line :: later →
        ∃ p : Place feed ret, StandsAt p cs before line later := fun _ _ => ih
    rw [cutLines_cons] at h
    split at h
    · rename_i hc
      rw [hc]
      exact exists_standsAt_feed ih h
    · rename_i hc
      split at h
      · rename_i hreturn
        obtain ⟨p, hp⟩ := ih before line h
        rw [hreturn.1]
        exact exists_standsAt_return hret hreturn.2 hp
      · rename_i hreturn
        exact exists_standsAt_push hc hreturn ih h

end AccumulatorMachine.Text
