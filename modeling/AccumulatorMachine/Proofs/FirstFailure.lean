import AccumulatorMachine.CommandLine
import AccumulatorMachine.Proofs.DisplayedTokens

/-!
# Stopping at the first failure

A session that stops at a failure and one that goes on take the same lines in the same way up to the
first failure. So the first session is the second one, cut there: it has sent all tokens before the
failing one, and the failing one too, unless that one stands for a line that gives no token.

## Main definitions

* `Token.complaint?` — the text with which a session stops at a token.
* `CutAtFailure` — an outcome is a list of tokens, cut at the first failing one.
* `tokensFrom` — the tokens of the lines that are left, whatever fails among them.

## Main results

* `Settings.runFrom_goOn` — a session that goes on sends the tokens of all its lines.
* `Settings.runFrom_stop` — a session that stops is cut at its first failing token.
* `CommandLine.stop_cuts_goOn` — so are the two ways to call the program.
-/

set_option autoImplicit false

namespace AccumulatorMachine.Script

/-! ## Failing tokens -/

namespace Token

/-- The text with which a session that stops at a failing token ends. -/
def complaint? : Token → Option String
  | .failure message => some message
  | .assertion (some why) description => some ("assertion '" ++ description ++ "' failed: " ++ why)
  | .run _ (some fault) => some ("run aborted: " ++ fault)
  | _ => none

/-- The token stands for a line that gives no token of its own. -/
def isFailure : Token → Bool
  | .failure _ => true
  | _ => false

/-- The token of a line: its own, or one that reports why there is none. -/
def ofLine (wording : Wording) : Except LineError Token → Token
  | .ok t => t
  | .error e => .failure (e.message wording)

/-- A token at which a session stops is failing, and the session ends with its text. -/
lemma of_error?_eq_some {t : Token} {e : SessionError} (h : t.error? = some e) (wording : Wording) :
    t.isFailing = true ∧ t.isFailure = false ∧ t.complaint? = some (e.message wording) := by
  cases t with
  | assertion why description =>
    cases why with
    | none => cases h
    | some why =>
      cases h
      exact ⟨rfl, rfl, rfl⟩
  | run lines fault =>
    cases fault with
    | none => cases h
    | some fault =>
      cases h
      exact ⟨rfl, rfl, rfl⟩
  | marker | failure | setup => cases h

/-- A token at which no session stops is not failing, unless it stands for a line without a token. -/
lemma isFailing_eq_isFailure {t : Token} (h : t.error? = none) : t.isFailing = t.isFailure := by
  cases t with
  | assertion why description =>
    cases why with
    | none => rfl
    | some why => cases h
  | run lines fault =>
    cases fault with
    | none => rfl
    | some fault => cases h
  | marker | failure | setup => rfl

end Token

section Cut

variable {wording : Wording} {full before later : List Token} {t : Token} {o : Outcome}

/-- The outcome is that of a session that would send `full`, if it went on after failures, but stops at
the first failing token: it has sent that token unless it stands for a line without one. -/
def CutAtFailure (wording : Wording) (full : List Token) (o : Outcome) : Prop :=
  ((∀ t ∈ full, t.isFailing = false) → o = ⟨full, .ok ()⟩) ∧
    ∀ k t, full[k]? = some t → t.isFailing = true → (∀ u ∈ full.take k, u.isFailing = false) →
      o.tokens = (if t.isFailure then full.take k else full.take (k + 1)) ∧
        ∃ e, o.result = .error e ∧ t.complaint? = some (e.message wording)

/-- Tokens none of which is failing are not cut. -/
lemma CutAtFailure.of_clean (h : ∀ t ∈ full, t.isFailing = false) :
    CutAtFailure wording full ⟨full, .ok ()⟩ := by
  refine ⟨fun _ => rfl, fun k t hk ht _ => ?_⟩
  have hclean : t.isFailing = false := h t (List.mem_of_getElem? hk)
  rw [hclean] at ht
  cases ht

/-- Tokens are cut at a failing one that follows others none of which is.

**Proof sketch.** There is only one place to cut: a failing token at an earlier place would be among the
others, and the one at a later place would not be the first. -/
lemma CutAtFailure.of_failing {e : SessionError}
    (hbefore : ∀ u ∈ before, u.isFailing = false) (ht : t.isFailing = true)
    (htokens : o.tokens = if t.isFailure then before else before ++ [t])
    (hresult : o.result = .error e) (he : t.complaint? = some (e.message wording)) :
    CutAtFailure wording (before ++ t :: later) o := by
  refine ⟨fun hall => ?_, fun k u hk hu hfirst => ?_⟩
  · have hclean := hall t (by simp)
    rw [hclean] at ht
    cases ht
  · have hplace : k = before.length := by
      rcases Nat.lt_trichotomy k before.length with hlt | heq | hgt
      · rw [List.getElem?_append_left hlt] at hk
        have hclean := hbefore u (List.mem_of_getElem? hk)
        rw [hclean] at hu
        cases hu
      · exact heq
      · -- The token `u` at a later place has `t` in front of it.
        have hmem : t ∈ (before ++ t :: later).take k := by
          rw [List.take_append, List.mem_append]
          right
          obtain ⟨j, hj⟩ : ∃ j, k - before.length = j + 1 := ⟨k - before.length - 1, by omega⟩
          rw [hj, List.take_succ_cons]
          exact List.mem_cons_self
        have hclean := hfirst t hmem
        rw [hclean] at ht
        cases ht
    subst hplace
    have hu : t = u := by simpa using hk
    subst hu
    refine ⟨?_, e, hresult, he⟩
    rw [htokens, List.take_left, List.take_length_add_append]
    rfl

/-- Either no token is failing, or one is the first that is. -/
lemma clean_or_first_failing (full : List Token) :
    (∀ t ∈ full, t.isFailing = false) ∨
      ∃ k t, full[k]? = some t ∧ t.isFailing = true ∧ ∀ u ∈ full.take k, u.isFailing = false := by
  cases hfind : full.find? Token.isFailing with
  | none =>
    left
    simpa using hfind
  | some t =>
    right
    obtain ⟨ht, before, later, rfl, hbefore⟩ := List.find?_eq_some_iff_append.1 hfind
    refine ⟨before.length, t, by simp, ht, ?_⟩
    rw [List.take_left]
    simpa using hbefore

/-- A session that stops ends well exactly when no token is failing. -/
lemma CutAtFailure.result_eq_ok_iff (h : CutAtFailure wording full o) :
    o.result = .ok () ↔ ∀ t ∈ full, t.isFailing = false := by
  constructor
  · intro hok
    rcases clean_or_first_failing full with hclean | ⟨k, t, hk, ht, hfirst⟩
    · exact hclean
    · obtain ⟨-, e, he, -⟩ := h.2 k t hk ht hfirst
      rw [hok] at he
      cases he
  · intro hclean
    rw [h.1 hclean]

/-- A session that stops sends the first ones of the tokens. -/
lemma CutAtFailure.tokens_append (h : CutAtFailure wording full o) :
    ∃ rest, full = o.tokens ++ rest := by
  rcases clean_or_first_failing full with hclean | ⟨k, t, hk, ht, hfirst⟩
  · rw [h.1 hclean]
    exact ⟨[], (List.append_nil full).symm⟩
  · rw [(h.2 k t hk ht hfirst).1]
    cases t.isFailure with
    | true => exact ⟨full.drop k, (List.take_append_drop k full).symm⟩
    | false => exact ⟨full.drop (k + 1), (List.take_append_drop (k + 1) full).symm⟩

end Cut

/-! ## Lines -/

section Lines

variable (wording : Wording) (files : Files) (steps : Nat)

/-- The tokens of the lines that are left, whatever fails among them. -/
def tokensFrom (m : Machine) : List ReadLine → List Token
  | [] => []
  | line :: rest =>
    match obey files steps m line with
    | (none, m) => tokensFrom m rest
    | (some result, m) => Token.ofLine wording result :: tokensFrom m rest

/-- Preparing the machine gives a token that says so. -/
lemma prepare_token {m : Machine} {accesses : List Access} {report : String} {t : Token}
    (h : (prepare m accesses report).1 = .ok t) : t = .setup [report] := by
  rw [prepare] at h
  cases hp : m.toProcessor.performAll accesses with
  | mk result p =>
    rw [hp] at h
    cases result with
    | error e => cases h
    | ok u => exact (Except.ok.inj h).symm

/-- Loading an image prepares the machine. -/
lemma loadImage_token {m : Machine} {file : String} {view : FileView} {t : Token}
    (h : (loadImage m file view).1 = .ok t) : ∃ lines, t = .setup lines := by
  rw [loadImage] at h
  cases hv : view.lines with
  | error e =>
    rw [hv] at h
    cases h
  | ok reading =>
    simp only [hv] at h
    cases hi : Image.ofReading reading with
    | error e =>
      rw [hi] at h
      cases h
    | ok image =>
      rw [hi] at h
      exact ⟨_, prepare_token h⟩

/-- The token of a command that is carried out. Only a run gives that of a run. -/
lemma execute_token {m : Machine} {c : Command} {t : Token}
    (h : (c.execute files steps m).1 = .ok t) :
    (∃ start stop r, c = .run start stop ∧ t = .ofRun r) ∨ (∃ description, t = .marker description) ∨
      (∃ lines, t = .setup lines) ∨ ∃ failure description, t = .assertion failure description := by
  cases c with
  | marker description => exact Or.inr (Or.inl ⟨description, (Except.ok.inj h).symm⟩)
  | flushMemory | flushRegisters | setRegister _ _ =>
    exact Or.inr (Or.inr (Or.inl ⟨_, (Except.ok.inj h).symm⟩))
  | checkSource file => exact Or.inr (Or.inr (Or.inr ⟨_, _, (Except.ok.inj h).symm⟩))
  | load file => exact Or.inr (Or.inr (Or.inl (loadImage_token h)))
  | writeData address words =>
    rw [Command.execute, writeWords] at h
    split at h
    · cases h
    · exact Or.inr (Or.inr (Or.inl ⟨_, prepare_token h⟩))
  | writeCode address instructions => exact Or.inr (Or.inr (Or.inl ⟨_, prepare_token h⟩))
  | run start stop =>
    rw [Command.execute] at h
    cases hr : m.runFor start stop steps with
    | mk result m' =>
      rw [hr] at h
      cases result with
      | error e => cases h
      | ok r => exact Or.inl ⟨start, stop, r, rfl, (Except.ok.inj h).symm⟩
  | claim condition description =>
    simp only [Command.execute, assertCondition] at h
    cases hs : condition.shortfall m with
    | error e =>
      rw [hs] at h
      cases h
    | ok why =>
      rw [hs] at h
      exact Or.inr (Or.inr (Or.inr ⟨_, _, (Except.ok.inj h).symm⟩))

/-- A command that is carried out gives a token of its own. -/
lemma execute_isFailure {m : Machine} {c : Command} {t : Token}
    (h : (c.execute files steps m).1 = .ok t) : t.isFailure = false := by
  rcases execute_token files steps h with ⟨_, _, r, -, rfl⟩ | ⟨_, rfl⟩ | ⟨_, rfl⟩ | ⟨_, _, rfl⟩ <;> rfl

/-- A line that gives a token gives one of its own. -/
lemma obey_isFailure {m m' : Machine} {line : ReadLine} {t : Token}
    (h : obey files steps m line = (some (.ok t), m')) : t.isFailure = false := by
  cases line with
  | error e => cases h
  | ok line =>
    simp only [obey] at h
    cases hc : Command.ofLine line with
    | error e =>
      rw [hc] at h
      cases h
    | ok command =>
      rw [hc] at h
      cases command with
      | none => cases h
      | some c =>
        simp only [Prod.mk.injEq, Option.some.injEq] at h
        cases hx : (c.execute files steps (c.before m)).1 with
        | error e =>
          rw [hx] at h
          cases h.1
        | ok u =>
          rw [hx] at h
          obtain rfl : u = t := by
            injection h.1
          exact execute_isFailure files steps hx

end Lines

/-! ## Sessions -/

namespace Settings

variable (wording : Wording) (files : Files) (steps : Nat)

/-- A session that goes on after failures. -/
def goOn : Settings := { wording := wording, stopOnFailure := false, steps := steps }

/-- A session that stops at the first failure. -/
def stop : Settings := { wording := wording, stopOnFailure := true, steps := steps }

/-- A session that goes on sends the tokens of all its lines. -/
lemma runFrom_goOn (m : Machine) (sent : Array Token) (lines : List ReadLine) :
    (goOn wording steps).runFrom files m sent lines =
      ⟨sent.toList ++ tokensFrom wording files steps m lines, .ok ()⟩ := by
  induction lines generalizing m sent with
  | nil => simp [runFrom, tokensFrom]
  | cons line rest ih =>
    rw [runFrom, take, tokensFrom]
    cases ho : obey files (goOn wording steps).steps m line with
    | mk result m' =>
      change obey files steps m line = _ at ho
      rw [ho]
      cases result with
      | none => exact ih m' sent
      | some result =>
        cases result with
        | error e =>
          show (goOn wording steps).runFrom files m' (sent.push (.failure (e.message wording))) rest = _
          rw [ih]
          simp [Token.ofLine]
        | ok t =>
          show (goOn wording steps).runFrom files m' (sent.push t) rest = _
          rw [ih]
          simp [Token.ofLine]

/-- **A session that stops is cut at its first failing token.**

**Proof sketch.** Induction on the lines. As long as the session goes on, no token that it has sent is
failing, and it has sent what the other session has sent. A line that gives no token ends it before
anything is sent, a token with an error ends it behind that token. -/
lemma runFrom_stop (m : Machine) (sent : Array Token) (lines : List ReadLine)
    (hsent : ∀ t ∈ sent.toList, t.isFailing = false) :
    CutAtFailure wording (sent.toList ++ tokensFrom wording files steps m lines)
      ((stop wording steps).runFrom files m sent lines) := by
  induction lines generalizing m sent with
  | nil =>
    rw [runFrom, tokensFrom, List.append_nil]
    exact CutAtFailure.of_clean hsent
  | cons line rest ih =>
    rw [runFrom, take, tokensFrom]
    cases ho : obey files (stop wording steps).steps m line with
    | mk result m' =>
      change obey files steps m line = _ at ho
      rw [ho]
      cases result with
      | none => exact ih m' sent hsent
      | some result =>
        cases result with
        | error e => exact CutAtFailure.of_failing hsent rfl rfl rfl rfl
        | ok t =>
          cases herr : t.error? with
          | some e =>
            obtain ⟨hfailing, hfailure, hcomplaint⟩ := Token.of_error?_eq_some herr wording
            simp only [stop, herr]
            refine CutAtFailure.of_failing hsent hfailing ?_ rfl hcomplaint
            simp [Token.ofLine, hfailure]
          | none =>
            -- The session goes on: nothing that it has sent is failing, this token included.
            have hclean : t.isFailing = false := by
              rw [Token.isFailing_eq_isFailure herr]
              exact obey_isFailure files steps ho
            have hpush : ∀ u ∈ (sent.push t).toList, u.isFailing = false := by
              intro u hu
              rw [Array.toList_push, List.mem_append, List.mem_singleton] at hu
              rcases hu with hu | rfl
              · exact hsent u hu
              · exact hclean
            have hrest := ih m' (sent.push t) hpush
            rw [Array.toList_push, List.append_assoc] at hrest
            simp only [herr]
            exact hrest

end Settings

end AccumulatorMachine.Script

namespace AccumulatorMachine.CommandLine

open Script

/-! ## The program -/

section Program

variable (wording : Wording) {o : Options} {input : ByteArray} {files : Files} {lines : List ReadLine}

/-- What the program does with a script that has an end. -/
lemma execute_of_lines (h : o.reading input files = .ok (.lines lines)) :
    o.execute wording input files =
      let outcome := (o.settings wording).runLines files lines
      let output := display o.verbose outcome.tokens
      match outcome.result with
      | .ok () => .finished 0 output ""
      | .error e => .finished 1 output (Options.complaint (e.message wording)) := by
  rw [Options.execute, h]
  rfl

/-- **Stopping at a failure cuts what a session that goes on would send.** A session that goes on ends
well, and the one that stops is the same up to the first failing token. So the program that goes on ends
with exit code `0`; the one that stops does so exactly when no token is failing, and its output is the
first part of the other one's. -/
theorem stop_cuts_goOn :
    (∀ (files : Files) (steps : Nat) (lines : List ReadLine),
      let full := (Settings.goOn wording steps).runLines files lines
      full.result = .ok () ∧
        CutAtFailure wording full.tokens ((Settings.stop wording steps).runLines files lines)) ∧
      ∀ (o : Options) (input : ByteArray) (files : Files) (lines : List ReadLine),
        o.reading input files = .ok (.lines lines) →
        let full := ((Settings.goOn wording o.steps).runLines files lines).tokens
        { o with continueOnFailure := true }.execute wording input files =
            .finished 0 (display o.verbose full) "" ∧
          ∃ exit output errors more,
            { o with continueOnFailure := false }.execute wording input files =
                .finished exit output errors ∧
              (exit = 0 ↔ ∀ t ∈ full, t.isFailing = false) ∧
              display o.verbose full = output ++ more := by
  have hgoOn : ∀ (files : Files) (steps : Nat) (lines : List ReadLine),
      ((Settings.goOn wording steps).runLines files lines).result = .ok () := by
    intro files steps lines
    rw [Settings.runLines, Settings.runFrom_goOn]
  have hcut : ∀ (files : Files) (steps : Nat) (lines : List ReadLine),
      CutAtFailure wording ((Settings.goOn wording steps).runLines files lines).tokens
        ((Settings.stop wording steps).runLines files lines) := by
    intro files steps lines
    rw [Settings.runLines, Settings.runFrom_goOn]
    exact Settings.runFrom_stop wording files steps {} #[] lines (by simp)
  refine ⟨fun files steps lines => ⟨hgoOn files steps lines, hcut files steps lines⟩, ?_⟩
  intro o input files lines h
  refine ⟨?_, ?_⟩
  · have hrun : ({ o with continueOnFailure := true }.settings wording).runLines files lines =
        (Settings.goOn wording o.steps).runLines files lines := rfl
    rw [execute_of_lines wording (o := { o with continueOnFailure := true }) h, hrun]
    simp only [hgoOn]
  · have hrun : ({ o with continueOnFailure := false }.settings wording).runLines files lines =
        (Settings.stop wording o.steps).runLines files lines := rfl
    have hstop := hcut files o.steps lines
    rw [execute_of_lines wording (o := { o with continueOnFailure := false }) h, hrun]
    -- From here on, only the cut matters, and not the session that makes it.
    generalize (Settings.stop wording o.steps).runLines files lines = stopped at hstop ⊢
    obtain ⟨tokens, result⟩ := stopped
    obtain ⟨rest, hrest⟩ := hstop.tokens_append
    obtain ⟨more, hmore⟩ := display_append o.verbose tokens rest
    have hiff := hstop.result_eq_ok_iff
    rw [← hiff, hrest]
    cases result with
    | ok u => exact ⟨0, _, _, more, rfl, by simp, hmore⟩
    | error e => exact ⟨1, _, _, more, rfl, by simp, hmore⟩

end Program

/-- A script whose only line is no command. -/
theorem stop_cuts_goOn_no_command :
    ∃ (o : Options) (input : ByteArray) (lines : List ReadLine),
      o.reading input (fun _ => .directory) = .ok (.lines lines) ∧ lines = [.ok ['?']] ∧
        ∀ wording, ∃ exit output errors,
          { o with continueOnFailure := false }.execute wording input (fun _ => .directory) =
            .finished exit output errors ∧ exit ≠ 0 := by
  let o : Options := { script := "-" }
  let input : ByteArray := ⟨#[0x3F, 0x0A]⟩
  have hread : o.reading input (fun _ => .directory) = .ok (.lines [.ok ['?']]) := by
    have hinput : o.readsInput = true := by decide
    have hlines : readLines input = [.ok ['?']] := by decide
    rw [Options.reading, if_pos hinput, hlines]
  refine ⟨o, input, _, hread, rfl, fun wording => ?_⟩
  obtain ⟨-, exit, output, errors, more, hexec, hexit, -⟩ :=
    (stop_cuts_goOn wording).2 o input _ _ hread
  refine ⟨exit, output, errors, hexec, fun hzero => ?_⟩
  have hclean := hexit.1 hzero (.failure (wording ['?'])) (List.mem_singleton_self _)
  cases hclean

end AccumulatorMachine.CommandLine
