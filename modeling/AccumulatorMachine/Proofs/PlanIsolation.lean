import AccumulatorMachine.Proofs.FirstFailure

/-!
# Test plans do not know of each other

A marker line starts a test plan on a new machine, and the machine is all that a session carries from
line to line besides the tokens it has sent. So the lines before a marker leave no trace in the tokens
after it, whatever they have done and however they have failed.

## Main definitions

* `IsMarker` — a line that starts a test plan.
* `Outcome.behind` — an outcome, with tokens that were sent before.

## Main results

* `Settings.runFrom_eq_behind` — what has been sent already stands in front and plays no other part.
* `Settings.runLines_append_marker` — a session that reaches a marker starts over there.
* `Settings.plans_isolated` — so the tokens of two plans are those of the one, then those of the other.
-/

set_option autoImplicit false

namespace AccumulatorMachine.Script

/-- A line that starts a test plan. -/
def IsMarker (line : ReadLine) : Prop :=
  ∃ text description, line = .ok text ∧ Command.ofLine text = .ok (some (.marker description))

/-- A marker leaves a new machine, whatever it finds. -/
lemma obey_marker (files : Files) (steps : Nat) {marker : ReadLine} (h : IsMarker marker) :
    ∃ description, ∀ m, obey files steps m marker = (some (.ok (.marker description)), {}) := by
  obtain ⟨text, description, rfl, hline⟩ := h
  refine ⟨description, fun m => ?_⟩
  rw [obey, hline]
  rfl

/-- An outcome, with tokens that were sent before. -/
def Outcome.behind (sent : Array Token) (o : Outcome) : Outcome := ⟨sent.toList ++ o.tokens, o.result⟩

/-- Tokens that were sent before in two parts. -/
lemma Outcome.behind_append (sent more : Array Token) (o : Outcome) :
    o.behind (sent ++ more) = (o.behind more).behind sent := by
  simp [behind]

namespace Settings

variable (settings : Settings) (files : Files)

/-! ## One line -/

/-- What has been sent already is no reason for what a line gives. -/
lemma take_eq_behind (m : Machine) (sent : Array Token) (line : ReadLine) :
    settings.take files m sent line =
      match settings.take files m #[] line with
      | .error o => .error (o.behind sent)
      | .ok (m, more) => .ok (m, sent ++ more) := by
  rw [take, take]
  cases obey files settings.steps m line with
  | mk result m =>
    cases result with
    | none => simp
    | some result =>
      cases result with
      | error e => cases hstop : settings.stopOnFailure <;> simp [Outcome.behind]
      | ok t =>
        cases hstop : settings.stopOnFailure with
        | false => simp
        | true => cases herr : t.error? <;> simp [herr, Outcome.behind]

/-- A line that ends a session ends it with an error. -/
lemma result_of_take_eq_error {m : Machine} {sent : Array Token} {line : ReadLine} {o : Outcome}
    (h : settings.take files m sent line = .error o) : o.result ≠ .ok () := by
  rw [take] at h
  split at h
  · cases h
  · split at h
    · cases h
      intro hok
      cases hok
    · cases h
  · split at h
    · cases h
      intro hok
      cases hok
    · cases h

/-- A marker is taken on any machine in the same way, as it brings a new one. -/
lemma take_marker {marker : ReadLine} (h : IsMarker marker) (m : Machine) (sent : Array Token) :
    settings.take files m sent marker = settings.take files {} sent marker := by
  obtain ⟨description, hobey⟩ := obey_marker files settings.steps h
  rw [take, take, hobey m, hobey {}]

/-! ## Lines in a row -/

/-- What has been sent already stands in front of what the lines that are left give. -/
lemma runFrom_eq_behind (m : Machine) (sent : Array Token) (lines : List ReadLine) :
    settings.runFrom files m sent lines = (settings.runFrom files m #[] lines).behind sent := by
  induction lines generalizing m sent with
  | nil => simp [runFrom, Outcome.behind]
  | cons line rest ih =>
    rw [runFrom, runFrom, take_eq_behind]
    cases settings.take files m #[] line with
    | error o => rfl
    | ok next =>
      show settings.runFrom files next.1 (sent ++ next.2) rest =
        (settings.runFrom files next.1 next.2 rest).behind sent
      rw [ih next.1 (sent ++ next.2), ih next.1 next.2, Outcome.behind_append]

/-- A session that ends well goes on with more lines, if there are any.

**Proof sketch.** Induction on the lines: none of them ends the session, since one that does ends it
with an error. -/
lemma runFrom_append {m : Machine} {sent : Array Token} {before : List ReadLine}
    (h : (settings.runFrom files m sent before).result = .ok ()) (rest : List ReadLine) :
    ∃ m', settings.runFrom files m sent (before ++ rest) =
      settings.runFrom files m' (settings.runFrom files m sent before).tokens.toArray rest := by
  induction before generalizing m sent with
  | nil => exact ⟨m, by simp [runFrom]⟩
  | cons line lines ih =>
    rw [List.cons_append, runFrom]
    rw [runFrom] at h ⊢
    cases htake : settings.take files m sent line with
    | error o =>
      rw [htake] at h
      exact absurd h (result_of_take_eq_error settings files htake)
    | ok next =>
      rw [htake] at h
      exact ih h

/-- **A session that reaches a marker starts over there.** It has sent what the lines before the marker
give, and it goes on like a session that begins with the marker. -/
lemma runLines_append_marker {before : List ReadLine} {marker : ReadLine} (hmarker : IsMarker marker)
    (h : (settings.runLines files before).result = .ok ()) (plan : List ReadLine) :
    settings.runLines files (before ++ marker :: plan) =
      (settings.runLines files (marker :: plan)).behind
        (settings.runLines files before).tokens.toArray := by
  obtain ⟨m, hm⟩ := runFrom_append settings files h (marker :: plan)
  have hfresh : settings.runFrom files m #[] (marker :: plan) =
      settings.runFrom files {} #[] (marker :: plan) := by
    rw [runFrom, runFrom, take_marker settings files hmarker m]
  rw [runLines, hm, runFrom_eq_behind, hfresh]
  rfl

/-- **Test plans are isolated.** A session that goes on after failures sends, for two plans, the tokens
of the first and then the tokens of the second, as if each were a session of its own. A session that
stops at failures does so too, and ends as the second plan ends, provided that it gets to the end of the
first. -/
theorem plans_isolated (wording : Wording) (steps : Nat) (before plan : List ReadLine) {marker : ReadLine}
    (hmarker : IsMarker marker) :
    ((goOn wording steps).runLines files (before ++ [marker] ++ plan)).tokens =
        ((goOn wording steps).runLines files before).tokens ++
          ((goOn wording steps).runLines files ([marker] ++ plan)).tokens ∧
      (((stop wording steps).runLines files before).result = .ok () →
        ((stop wording steps).runLines files (before ++ [marker] ++ plan)).tokens =
            ((stop wording steps).runLines files before).tokens ++
              ((stop wording steps).runLines files ([marker] ++ plan)).tokens ∧
          ((stop wording steps).runLines files (before ++ [marker] ++ plan)).result =
            ((stop wording steps).runLines files ([marker] ++ plan)).result) := by
  rw [List.append_assoc, List.singleton_append]
  refine ⟨?_, fun hstop => ⟨?_, ?_⟩⟩
  · have hgoOn : ((goOn wording steps).runLines files before).result = .ok () := by
      rw [runLines, runFrom_goOn]
    rw [runLines_append_marker (goOn wording steps) files hmarker hgoOn]
    rfl
  · rw [runLines_append_marker (stop wording steps) files hmarker hstop]
    rfl
  · rw [runLines_append_marker (stop wording steps) files hmarker hstop]
    rfl

/-- A plan that sets a register, behind which another one finds the register at zero. -/
theorem plans_isolated_register :
    ∃ (before plan : List ReadLine) (marker : ReadLine), IsMarker marker ∧
      ∀ wording, ((stop wording 10).runLines (fun _ => .directory) before).result = .ok () ∧
        ((stop wording 10).runLines (fun _ => .directory) (before ++ [marker] ++ plan)).tokens =
          [.setup ["register A set to 0x00000005"], .marker "b", .assertion none "zero"] := by
  let before : List ReadLine := [.ok "registers set A=0x5".toList]
  let plan : List ReadLine := [.ok "assert A = 0x0 $$zero$$".toList]
  let marker : ReadLine := .ok "marker $$b$$".toList
  have hmarker : IsMarker marker := ⟨_, "b", rfl, by decide +kernel⟩
  refine ⟨before, plan, marker, hmarker, fun wording => ?_⟩
  have hstop : ((stop wording 10).runLines (fun _ => .directory) before).result = .ok () := rfl
  have hisolated := (plans_isolated (fun _ => .directory) wording 10 before plan hmarker).2 hstop
  refine ⟨hstop, ?_⟩
  rw [hisolated.1]
  with_unfolding_all rfl

end Settings

end AccumulatorMachine.Script
