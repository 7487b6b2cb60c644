import AccumulatorMachine.Proofs.TokenTrees

/-!
# The trees of script lines

The readers of a script line and the grammar agree: they take the same lines, and the tree of a line
shows what the reader of the line has found. The two are set side by side expression by expression, as
two results that agree: either there is none, or there are both, and the nodes show what is read.

What is left need not be the same. An expression takes the gap in front of a part that may be missing
even if the part is missing, which no reader does; but what comes next may stand behind a gap anyway.

## Main definitions

* `Grammar.Agree` — what a reader finds and what an expression finds.
* `Grammar.ShowsTerm`, `ShowsCondition`, `ShowsSentence` — a node shows what has been read.

## Main results

* `Grammar.Agree.seq`, `Grammar.Agree.or`, `Grammar.agree_many` — agreement part by part.
* `Grammar.agree_read` — the tree of a line shows its sentence.
-/

set_option autoImplicit false

namespace AccumulatorMachine.Script.Grammar

open Sentence

/-! ## Agreement -/

/-- A reader and an expression agree: they find nothing, or they both find something, the nodes of the
expression show what the reader has found, and what they leave is related. -/
def Agree {α : Type} (shows : α → List Node → Prop) (tail : List Char → List Char → Prop)
    (found : Option (α × List Char)) (parsed : Option (List Node × List Char)) : Prop :=
  Option.Rel (fun x y => shows x.1 y.1 ∧ tail x.2 y.2) found parsed

/-- The same text is left behind a gap. -/
def SameBehindGap (cs cs' : List Char) : Prop := skip cs = skip cs'

section Agree

variable {α β : Type} {shows : α → List Node → Prop} {shows' : β → List Node → Prop}
  {tail tail' : List Char → List Char → Prop} {found : Option (α × List Char)}
  {parsed : Option (List Node × List Char)} {line cs : List Char} {spaced : Bool}

/-- Nodes that show one thing may be taken to show another. -/
lemma Agree.mono {shows' : α → List Node → Prop} (h : Agree shows tail found parsed)
    (hshows : ∀ a nodes, shows a nodes → shows' a nodes) : Agree shows' tail found parsed := by
  cases h with
  | none => exact .none
  | some h => exact .some ⟨hshows _ _ h.1, h.2⟩

/-- The same text is the same behind a gap. -/
lemma Agree.loose (h : Agree shows Eq found parsed) : Agree shows SameBehindGap found parsed := by
  cases h with
  | none => exact .none
  | some h => exact .some ⟨h.1, congrArg skip h.2⟩

/-- A choice agrees if both of its parts do. -/
lemma Agree.or {found' : Option (α × List Char)} {parsed' : Option (List Node × List Char)}
    (h : Agree shows tail found parsed) (h' : Agree shows tail found' parsed') :
    Agree shows tail (found.or found') (parsed.or parsed') := by
  cases h with
  | none => exact h'
  | some h => exact .some h

/-- What is read may be put into another form. -/
lemma Agree.map {f : α → β} (h : Agree shows tail found parsed)
    (hf : ∀ a nodes, shows a nodes → shows' (f a) nodes) :
    Agree shows' tail (found.map fun x => (f x.1, x.2)) parsed := by
  cases h with
  | none => exact .none
  | some h => exact .some ⟨hf _ _ h.1, h.2⟩

/-- What is found may be told in other words. -/
lemma Agree.bind_some {f : α → β} (h : Agree shows tail found parsed)
    (hf : ∀ a nodes, shows a nodes → shows' (f a) nodes) :
    Agree shows' tail (found.bind fun x => some (f x.1, x.2)) parsed := by
  have hmap := h.map hf
  rwa [Option.map_eq_bind] at hmap

/-- One part behind another agrees if the first does, and then the second behind whatever the first has
left. -/
lemma Agree.seq {first second : Expr} {f : α × List Char → Option (β × List Char)}
    (h : Agree shows tail found (first.parse line skip spaced cs))
    (hnext : ∀ a nodes mid mid', shows a nodes → tail mid mid' →
      Agree (fun b more => shows' b (nodes ++ more)) tail' (f (a, mid))
        (second.parse line skip spaced (behindGap skip spaced mid'))) :
    Agree shows' tail' (found.bind f) ((Expr.seq first second).parse line skip spaced cs) := by
  rw [parse_seq]
  generalize first.parse line skip spaced cs = parsed at h
  cases h with
  | none => exact .none
  | @some x y h =>
    have hmore := hnext x.1 y.1 x.2 y.2 h.1 h.2
    rw [Option.bind_some, Option.bind_some]
    generalize second.parse line skip spaced (behindGap skip spaced y.2) = parsed at hmore
    generalize f x = found' at hmore
    cases hmore with
    | none => exact .none
    | some hmore => exact .some hmore

/-- A word in front of an expression is taken first. -/
lemma Agree.literal_seq {word : String} {e : Expr} {f : List Char → Option (α × List Char)}
    (hnext : ∀ rest, Agree shows tail (f rest) (e.parse line skip spaced (behindGap skip spaced rest))) :
    Agree shows tail ((literal word cs).bind f)
      ((Expr.seq (.literal word) e).parse line skip spaced cs) := by
  rw [parse_seq_literal]
  cases literal word cs with
  | none => exact .none
  | some rest => exact hnext rest

/-- A part that may be missing has no node if it is missing. -/
lemma agree_optional {reader : Reader α} {e : Expr} {cs' : List Char}
    (h : Agree shows SameBehindGap (reader cs) (e.parse line skip spaced cs'))
    (hcs : SameBehindGap cs cs') :
    Agree (fun a nodes => a.elim (nodes = []) (shows · nodes)) SameBehindGap
      (some (optional reader cs)) ((Expr.optional e).parse line skip spaced cs') := by
  simp only [Sentence.optional, Expr.parse]
  generalize e.parse line skip spaced cs' = parsed at h
  generalize reader cs = found at h
  cases h with
  | none => exact .some ⟨rfl, hcs⟩
  | some h => exact .some h

/-- A word at the end of an expression is taken without a node. -/
lemma agree_literal {word : String} {a : α} (hshows : shows a []) :
    Agree shows Eq ((literal word cs).bind fun rest => some (a, rest))
      ((Expr.literal word).parse line skip spaced cs) := by
  simp only [Expr.parse]
  cases literal word cs with
  | none => exact .none
  | some rest => exact .some ⟨hshows, rfl⟩

/-- A rule puts a node around what it takes, with some text. -/
lemma Agree.rule {name : Rule} {body : Expr}
    (h : Agree (fun a nodes => ∀ text, shows a [.mk name text nodes]) tail found
      (body.parse line skip spaced cs)) :
    Agree shows tail found ((Expr.rule name .normal body).parse line skip spaced cs) := by
  rw [parse_rule_eq_map, decide_eq_true rfl, Bool.and_true]
  generalize body.parse line skip spaced cs = parsed at h
  cases h with
  | none => exact .none
  | some h => exact .some ⟨h.1 _, h.2⟩

/-- An expression finds what a reader finds, and the nodes are determined by it. -/
lemma agree_of_eq (node : α → Node) (h : parsed = found.map fun x => ([node x.1], x.2)) :
    Agree (fun a nodes => nodes = [node a]) Eq found parsed := by
  subst h
  cases found with
  | none => exact .none
  | some x => exact .some ⟨rfl, rfl⟩

end Agree

section Repeated

variable {α : Type} {shows : α → List Node → Prop} {line : List Char} {reader : Reader α}

/-- Items in a row are found one by one. -/
lemma forall₂_repeatedUpTo {item : Reader (List Node)}
    (hitem : ∀ cs, Agree shows Eq (reader cs) (item cs)) (count : Nat) (cs : List Char) :
    List.Forall₂ shows (repeatedUpTo reader count cs).1 (repeatedUpTo item count cs).1 ∧
      (repeatedUpTo reader count cs).2 = (repeatedUpTo item count cs).2 := by
  induction count generalizing cs with
  | zero => exact ⟨.nil, rfl⟩
  | succ count ih =>
    have hfound := hitem cs
    rw [repeatedUpTo, repeatedUpTo]
    generalize item cs = parsed at hfound
    generalize reader cs = found at hfound
    cases hfound with
    | none => exact ⟨.nil, rfl⟩
    | @some x y hfound =>
      obtain ⟨hmore, hrest⟩ := ih x.2
      rw [hfound.2] at hmore hrest
      simp only [hfound.2]
      exact ⟨.cons hfound.1 hmore, hrest⟩

/-- A repetition behind a gap takes what a reader takes again and again, and leaves the same behind a
gap. -/
lemma agree_many {e : Expr} (htakes : e.takes = true)
    (hitem : ∀ cs, Agree shows Eq (reader cs) (e.parse line skip true (skip cs))) (cs : List Char) :
    Agree (fun l nodes => ∃ found, nodes = found.flatten ∧ List.Forall₂ shows l found) SameBehindGap
      (some (repeated reader cs)) ((Expr.many e).parse line skip true (skip cs)) := by
  have hmany := parse_many length_skip_le line htakes true cs
  simp only [behindGap, if_true] at hmany
  obtain ⟨hfound, hrest⟩ := forall₂_repeatedUpTo hitem cs.length cs
  rw [hmany]
  refine .some ⟨⟨_, rfl, hfound⟩, ?_⟩
  rw [SameBehindGap]
  split
  · rename_i hnil
    rw [repeated_snd_of_fst_eq_nil, skip_skip]
    rw [repeated] at hnil ⊢
    rw [hnil] at hfound
    exact List.forall₂_nil_right_iff.1 hfound
  · rw [repeated, hrest]
    rfl

end Repeated

/-! ## Quantities and terms -/

section Terms

variable {line : List Char}

/-- A node shows a term. Gaps inside it play no part. -/
inductive ShowsTerm : TermText → Node → Prop
  | constant (b : Bool) : ShowsTerm (.constant b) (truthNode b)
  | halted : ShowsTerm .halted haltedNode
  | compare (left : QuantityText) (c : Comparison) (right : QuantityText) (text : List Char) :
    ShowsTerm (.compare left c right)
      (.mk .operation text [quantityNode left, signNode c, quantityNode right])

/-- A node alone shows a term. -/
def ShowsTermAlone (t : TermText) (nodes : List Node) : Prop := ∃ n, nodes = [n] ∧ ShowsTerm t n

/-- A rule for a single word leaves that word. -/
lemma agree_wordRule {α : Type} {shows : α → List Node → Prop} (name : Rule) (word : String) {a : α}
    (hshows : shows a [.leaf name word.toList]) (cs : List Char) :
    Agree shows Eq ((literal word cs).map (a, ·))
      ((Expr.rule name .normal (.literal word)).parse line skip true cs) := by
  rw [parse_wordRule]
  cases literal word cs with
  | none => exact .none
  | some rest => exact .some ⟨hshows, rfl⟩

/-- Comparisons agree: two quantities with a sign between them. -/
lemma agree_operation (cs : List Char) :
    Agree ShowsTermAlone Eq
      ((quantity cs).bind fun x => (comparison (skip x.2)).bind fun y =>
        (quantity (skip y.2)).bind fun z => some (.compare x.1 y.1 z.1, z.2))
      (operation.parse line skip true cs) := by
  refine Agree.rule (Agree.seq (agree_of_eq quantityNode (parse_source true cs)) ?_)
  rintro left _ mid _ rfl rfl
  refine Agree.seq (agree_of_eq signNode (parse_comparisonOperator true (skip mid))) ?_
  rintro c _ mid' _ rfl rfl
  refine (agree_of_eq quantityNode (parse_source true (skip mid'))).bind_some ?_
  rintro right _ rfl text
  exact ⟨_, rfl, .compare left c right text⟩

/-- Terms agree: truth values, the question for a halt, and comparisons. -/
lemma agree_term (cs : List Char) :
    Agree ShowsTermAlone Eq (term cs) (booleanTerm.parse line skip true cs) := by
  have hterm : term cs = ((truth cs).map fun x => (.constant x.1, x.2)).or
      (((literal "halted" cs).map (.halted, ·)).or
        ((quantity cs).bind fun x => (comparison (skip x.2)).bind fun y =>
          (quantity (skip y.2)).bind fun z => some (.compare x.1 y.1 z.1, z.2))) := by
    rw [truth, Option.map_or, Option.or_assoc, Option.map_map, Option.map_map]
    rfl
  rw [hterm, booleanTerm, parse_choice, parse_choice]
  refine Agree.or ?_ (Agree.or ?_ (agree_operation cs))
  · refine (agree_of_eq truthNode (parse_boolean true cs)).map ?_
    rintro b _ rfl
    exact ⟨_, rfl, .constant b⟩
  · exact agree_wordRule .halted "halted" ⟨_, rfl, .halted⟩ cs

end Terms

/-! ## Chains -/

section Chains

variable {line : List Char}

/-- Two nodes show one more term of a chain. -/
def ShowsLink (l : Connective × TermText) (nodes : List Node) : Prop :=
  ∃ n, nodes = [joinNode l.1, n] ∧ ShowsTerm l.2 n

/-- A node shows a chain of terms. -/
inductive ShowsCondition : ConditionText → Node → Prop
  | mk (text : List Char) {c : ConditionText} {n : Node} {found : List (List Node)}
    (hfirst : ShowsTerm c.first n) (hrest : List.Forall₂ ShowsLink c.rest found) :
    ShowsCondition c (.mk .booleanCondition text (n :: found.flatten))

/-- A node alone shows a chain of terms. -/
def ShowsConditionAlone (c : ConditionText) (nodes : List Node) : Prop :=
  ∃ n, nodes = [n] ∧ ShowsCondition c n

/-- Further terms agree, each with the word that joins it. -/
lemma agree_link (cs : List Char) :
    Agree ShowsLink Eq (link cs)
      ((Expr.seq logicalOperator booleanTerm).parse line skip true (skip cs)) := by
  refine Agree.seq (agree_of_eq joinNode (parse_logicalOperator true (skip cs))) ?_
  rintro join _ mid _ rfl rfl
  refine (agree_term (skip mid)).bind_some ?_
  rintro t _ ⟨n, rfl, ht⟩
  exact ⟨n, rfl, ht⟩

/-- Chains of terms agree, up to the gap behind the last one. -/
lemma agree_condition (cs : List Char) :
    Agree ShowsConditionAlone SameBehindGap (condition cs)
      (booleanCondition.parse line skip true cs) := by
  refine Agree.rule (Agree.seq (agree_term cs) ?_)
  rintro first _ mid _ ⟨n, rfl, hfirst⟩ rfl
  refine (agree_many rfl agree_link mid).bind_some ?_
  rintro rest _ ⟨found, rfl, hrest⟩ text
  exact ⟨_, rfl, .mk text hfirst hrest⟩

end Chains

/-! ## Lists -/

section Lists

variable {line : List Char}

/-- A list of items shows each of them. -/
lemma agree_items {α : Type} {item : Reader α} {e : Expr} {node : α → Node}
    (hitem : ∀ cs, e.parse line skip true cs = (item cs).map fun x => ([node x.1], x.2))
    (cs : List Char) :
    Agree (fun l nodes => nodes = l.map node) Eq (items item cs)
      ((listOf e).parse line skip true cs) := by
  have hnext : ∀ cs, Agree (fun a nodes => nodes = [node a]) Eq (nextItem item cs)
      ((Expr.seq (.literal ",") e).parse line skip true (skip cs)) :=
    fun cs => Agree.literal_seq fun rest => agree_of_eq node (hitem (skip rest))
  refine Agree.literal_seq fun rest => Agree.seq (agree_of_eq node (hitem (skip rest))) ?_
  rintro first _ mid _ rfl rfl
  show Agree _ Eq ((some (repeated (nextItem item) mid)).bind fun x =>
    (token ")" x.2).bind fun rest => some (first :: x.1, rest)) _
  refine Agree.seq (agree_many rfl hnext mid) ?_
  rintro more _ mid' mid'' ⟨found, rfl, hfound⟩ hmid
  rw [behindGap, if_pos rfl, ← show skip mid' = skip mid'' from hmid]
  refine agree_literal ?_
  have hmore : found.flatten = more.map node := by
    induction hfound with
    | nil => rfl
    | cons ha _ ih => rw [List.flatten_cons, ha, ih, List.map_cons, List.singleton_append]
  rw [hmore, List.append_nil, List.map_cons, List.singleton_append]

end Lists

/-! ## Commands -/

/-- Nodes show the stop condition of a run, if there is one. -/
inductive ShowsStop : Option ConditionText → List Node → Prop
  | none : ShowsStop none []
  | some (text : List Char) {c : ConditionText} {n : Node} (h : ShowsCondition c n) :
    ShowsStop (some c) [.mk .runUntilCondition text [n]]

/-- A node shows a sentence. Gaps inside it play no part. -/
inductive ShowsSentence : Sentence → Node → Prop
  | marker (outer text : List Char) :
    ShowsSentence (.marker text) (.mk .marker outer [descriptionNode text])
  | flushMemory (outer : List Char) :
    ShowsSentence .flushMemory
      (.mk .memoryInstruction outer [.leaf .memoryFlush "flush".toList])
  | load (outer inner file : List Char) :
    ShowsSentence (.load file)
      (.mk .memoryInstruction outer [.mk .memoryLoad inner [fileNode file]])
  | writeData (outer inner list address : List Char) (words : List (List Char)) :
    ShowsSentence (.writeData address words)
      (.mk .memoryInstruction outer [.mk .memoryWrite inner
        [cellNode address, .mk .wordList list (words.map wordNode)]])
  | writeCode (outer inner list address : List Char) (instructions : List (List Char × List Char)) :
    ShowsSentence (.writeCode address instructions)
      (.mk .codeInstruction outer [.mk .codeWrite inner
        [cellNode address, .mk .instructionList list (instructions.map instructionNode)]])
  | checkSource (outer file : List Char) :
    ShowsSentence (.checkSource file) (.mk .sourceInstruction outer [fileNode file])
  | flushRegisters (outer : List Char) :
    ShowsSentence .flushRegisters
      (.mk .registersInstruction outer [.leaf .registersFlush "flush".toList])
  | setRegister (outer inner : List Char) (name : RegisterName) (value : List Char) :
    ShowsSentence (.setRegister name value)
      (.mk .registersInstruction outer [.mk .registersSet inner [registerNode name, valueNode value]])
  | run (outer : List Char) (start : Option (List Char)) {stop : Option ConditionText}
    {nodes : List Node} (h : ShowsStop stop nodes) :
    ShowsSentence (.run start stop)
      (.mk .runInstruction outer ((start.map cellNode).toList ++ nodes))
  | claim (outer text : List Char) {c : ConditionText} {n : Node} (h : ShowsCondition c n) :
    ShowsSentence (.claim c text) (.mk .assertInstruction outer [n, descriptionNode text])

/-- A node alone shows a sentence. -/
def ShowsSentenceAlone (s : Sentence) (nodes : List Node) : Prop :=
  ∃ n, nodes = [n] ∧ ShowsSentence s n

section Commands

variable {line : List Char}

/-- Markers agree. -/
lemma agree_marker (cs : List Char) :
    Agree ShowsSentenceAlone Eq ((literal "marker" cs).bind markerCommand)
      (marker.parse line skip true cs) := by
  refine Agree.rule (Agree.literal_seq fun rest => ?_)
  refine (agree_of_eq descriptionNode (parse_description true (skip rest))).map ?_
  rintro text _ rfl outer
  exact ⟨_, rfl, .marker outer text⟩

/-- An address and a list of items behind `write`. -/
lemma agree_write {α : Type} {item : Reader α} {e : Expr} {node : α → Node}
    (hitem : ∀ cs, e.parse line skip true cs = (item cs).map fun x => ([node x.1], x.2))
    (name : Rule) (f : List Char → List α → Sentence) (cs : List Char) :
    Agree (fun s nodes => ∃ list address l, s = f address l ∧
        nodes = [cellNode address, .mk name list (l.map node)]) Eq
      ((literal "write" cs).bind fun cs => (cellDigits (skip cs)).bind fun x =>
        (items item (skip x.2)).bind fun y => some (f x.1 y.1, y.2))
      ((Expr.seq (.literal "write") (.seq memoryAddress (.rule name .normal (listOf e)))).parse
        line skip true cs) := by
  refine Agree.literal_seq fun rest => ?_
  refine Agree.seq (agree_of_eq cellNode (parse_memoryAddress true (skip rest))) ?_
  rintro address _ mid _ rfl rfl
  have hlist : Agree (fun l nodes => ∃ list, nodes = [.mk name list (l.map node)]) Eq
      (items item (skip mid)) ((Expr.rule name .normal (listOf e)).parse line skip true (skip mid)) :=
    Agree.rule ((agree_items hitem (skip mid)).mono fun l nodes h list => ⟨list, by rw [h]⟩)
  refine hlist.bind_some ?_
  rintro l _ ⟨list, rfl⟩
  exact ⟨list, address, l, rfl, rfl⟩

/-- So do the commands of the memory. -/
lemma agree_memoryCommand (cs : List Char) :
    Agree ShowsSentenceAlone Eq ((literal "memory" cs).bind memoryCommand)
      (memoryInstruction.parse line skip true cs) := by
  refine Agree.rule (Agree.literal_seq fun rest => ?_)
  rw [behindGap, if_pos rfl, parse_choice, parse_choice]
  refine Agree.or ?_ (Agree.or ?_ ?_)
  · exact agree_wordRule .memoryFlush "flush" (fun outer => ⟨_, rfl, .flushMemory outer⟩) (skip rest)
  · refine Agree.rule (Agree.literal_seq fun rest => ?_)
    refine (agree_of_eq fileNode (parse_filename true (skip rest))).bind_some ?_
    rintro file _ rfl inner outer
    exact ⟨_, rfl, .load outer inner file⟩
  · refine Agree.rule ((agree_write (parse_word true) .wordList .writeData (skip rest)).mono ?_)
    rintro _ _ ⟨list, address, words, rfl, rfl⟩ inner outer
    exact ⟨_, rfl, .writeData outer inner list address words⟩

/-- So do those of the code. -/
lemma agree_codeCommand (cs : List Char) :
    Agree ShowsSentenceAlone Eq ((literal "code" cs).bind codeCommand)
      (codeInstruction.parse line skip true cs) := by
  refine Agree.rule (Agree.literal_seq fun rest => Agree.rule ?_)
  refine (agree_write (parse_instructionWord true) .instructionList .writeCode (skip rest)).mono ?_
  rintro _ _ ⟨list, address, instructions, rfl, rfl⟩ inner outer
  exact ⟨_, rfl, .writeCode outer inner list address instructions⟩

/-- So do checks of sources. -/
lemma agree_sourceCommand (cs : List Char) :
    Agree ShowsSentenceAlone Eq ((literal "source" cs).bind sourceCommand)
      (sourceInstruction.parse line skip true cs) := by
  refine Agree.rule (Agree.literal_seq fun rest => Agree.literal_seq fun rest => ?_)
  refine (agree_of_eq fileNode (parse_filename true (skip rest))).bind_some ?_
  rintro file _ rfl outer
  exact ⟨_, rfl, .checkSource outer file⟩

/-- So do the commands of the registers. -/
lemma agree_registersCommand (cs : List Char) :
    Agree ShowsSentenceAlone Eq ((literal "registers" cs).bind registersCommand)
      (registersInstruction.parse line skip true cs) := by
  refine Agree.rule (Agree.literal_seq fun rest => ?_)
  rw [behindGap, if_pos rfl, parse_choice]
  refine Agree.or ?_ (Agree.rule (Agree.literal_seq fun rest => ?_))
  · exact agree_wordRule .registersFlush "flush" (fun outer => ⟨_, rfl, .flushRegisters outer⟩)
      (skip rest)
  · refine Agree.seq (agree_of_eq registerNode (parse_register true (skip rest))) ?_
    rintro name _ mid _ rfl rfl
    refine Agree.literal_seq fun rest => ?_
    refine (agree_of_eq valueNode (parse_value true (skip rest))).bind_some ?_
    rintro value _ rfl inner outer
    exact ⟨_, rfl, .setRegister outer inner name value⟩

/-- The condition of a run agrees, up to the gap behind it. -/
lemma agree_untilClause (cs : List Char) :
    Agree (fun c nodes => ShowsStop (some c) nodes) SameBehindGap (untilClause cs)
      (runUntilCondition.parse line skip true (skip cs)) := by
  refine Agree.rule (Agree.literal_seq fun rest => ?_)
  refine (agree_condition (skip rest)).mono ?_
  rintro c _ ⟨n, rfl, hc⟩ text
  exact .some text hc

/-- Runs agree, up to the gap behind them. -/
lemma agree_runCommand (cs : List Char) :
    Agree ShowsSentenceAlone SameBehindGap ((literal "run" cs).bind runCommand)
      (runInstruction.parse line skip true cs) := by
  refine Agree.rule (Agree.literal_seq fun rest => ?_)
  show Agree _ _ ((some (optional cellDigits (skip rest))).bind fun x =>
    (some (optional untilClause x.2)).bind fun y => some (Sentence.run x.1 y.1, y.2)) _
  refine Agree.seq
    (agree_optional (agree_of_eq cellNode (parse_memoryAddress true (skip rest))).loose rfl) ?_
  rintro start nodes mid mid' hstart hmid
  rw [behindGap, if_pos rfl, ← show skip mid = skip mid' from hmid]
  refine (agree_optional (agree_untilClause mid) (skip_skip mid).symm).bind_some ?_
  rintro stop more hstop outer
  have hnodes : nodes = (start.map cellNode).toList := by
    cases start <;> exact hstart
  have hmore : ShowsStop stop more := by
    cases stop with
    | none => exact hstop.symm ▸ .none
    | some c => exact hstop
  exact ⟨_, rfl, hnodes ▸ .run outer start hmore⟩

/-- Assertions agree. -/
lemma agree_assertCommand (cs : List Char) :
    Agree ShowsSentenceAlone Eq ((literal "assert" cs).bind assertCommand)
      (assertInstruction.parse line skip true cs) := by
  refine Agree.rule (Agree.literal_seq fun rest => ?_)
  refine Agree.seq (agree_condition (skip rest)) ?_
  rintro c _ mid mid' ⟨n, rfl, hc⟩ hmid
  rw [behindGap, if_pos rfl, ← show skip mid = skip mid' from hmid]
  refine (agree_of_eq descriptionNode (parse_description true (skip mid))).bind_some ?_
  rintro text _ rfl outer
  exact ⟨_, rfl, .claim outer text hc⟩

/-- A command and the node around it. -/
lemma agree_command (cs : List Char) :
    Agree (fun s nodes => ∃ text n, nodes = [.mk .instruction text [n]] ∧ ShowsSentence s n)
      SameBehindGap (command cs) (Grammar.instruction.parse line skip true cs) := by
  have hcommand : command cs = ((literal "marker" cs).bind markerCommand).or
      (((literal "memory" cs).bind memoryCommand).or (((literal "code" cs).bind codeCommand).or
        (((literal "source" cs).bind sourceCommand).or
          (((literal "registers" cs).bind registersCommand).or
            (((literal "run" cs).bind runCommand).or ((literal "assert" cs).bind assertCommand)))))) := by
    simp only [command, commands, findSome?_cons_eq_or, List.findSome?_nil, Option.or_none]
  have hchoice : Agree ShowsSentenceAlone SameBehindGap (command cs)
      ((Expr.choice marker (.choice memoryInstruction (.choice codeInstruction
        (.choice sourceInstruction (.choice registersInstruction (.choice runInstruction
          assertInstruction)))))).parse line skip true cs) := by
    rw [hcommand]
    simp only [parse_choice]
    exact (agree_marker cs).loose.or ((agree_memoryCommand cs).loose.or
      ((agree_codeCommand cs).loose.or ((agree_sourceCommand cs).loose.or
        ((agree_registersCommand cs).loose.or ((agree_runCommand cs).or
          (agree_assertCommand cs).loose)))))
  refine Agree.rule (hchoice.mono ?_)
  rintro s _ ⟨n, rfl, hs⟩ text
  exact ⟨text, n, rfl, hs⟩

end Commands

/-! ## Lines -/

/-- The tree of a line shows its sentence, if the line has one. -/
inductive ShowsLine : Option Sentence → List Node → Prop
  | nothing : ShowsLine none [.leaf .endOfInput []]
  | sentence (text : List Char) {s : Sentence} {n : Node} (h : ShowsSentence s n) :
    ShowsLine (some s) [.mk .instruction text [n], .leaf .endOfInput []]

/-- **The readers and the grammar take the same lines, and the tree of a line shows its sentence.** -/
lemma agree_read (line : List Char) : Option.Rel ShowsLine (Sentence.read line) (tree line) := by
  have hstart : Expr.start.parse line skip true line = some ([], line) := by simp [Expr.parse]
  have hcommand : Agree _ SameBehindGap (some (Sentence.optional command (skip line)))
      ((Expr.optional Grammar.instruction).parse line skip true (skip line)) :=
    agree_optional (agree_command (skip line)) rfl
  rw [tree, gapBehind_eq_skip, sentence, parse_seq, hstart, Option.bind_some, parse_seq, behindGap,
    if_pos rfl, Sentence.read]
  generalize (Expr.optional Grammar.instruction).parse line skip true (skip line) = parsed at hcommand ⊢
  generalize Sentence.optional command (skip line) = found at hcommand ⊢
  obtain ⟨sentence, rest⟩ := found
  cases hcommand with
  | @some _ y h =>
    obtain ⟨hnodes, hrest⟩ := h
    rw [Option.bind_some, behindGap, if_pos rfl, ← show skip rest = skip y.2 from hrest,
      parse_endOfInput]
    by_cases hnil : skip rest = []
    · simp only [hnil, if_true]
      refine .some ?_
      cases sentence with
      | none =>
        have hnone : y.1 = [] := hnodes
        rw [hnone]
        exact .nothing
      | some s =>
        obtain ⟨text, n, hn, hs⟩ := hnodes
        rw [hn]
        exact .sentence text hs
    · simp only [hnil, if_false]
      exact .none

end AccumulatorMachine.Script.Grammar
