/-
Paths as source texts. A path is one word of the lexer, and that word is what the expression parser reads as a
truth value, as the start of a negation, or else as the variable and the fields that the path names.
-/
import Screenplay.Proofs.Parse.Texts
import Screenplay.Proofs.Text.Pieces
import Screenplay.Proofs.Token.Tiling

namespace Screenplay

open Screenplay.Text

/-! ## Cutting -/

namespace Text

/-- What holds of all characters of the pieces of a text holds of all its characters but the separator. -/
theorem forall_mem_of_cutAt {p : Char → Prop} {a : Char} (ha : p a) {cs : List Char}
    (h : ∀ piece ∈ cutAt a cs, ∀ c ∈ piece, p c) : ∀ c ∈ cs, p c := by
  fun_induction cutAt a cs with
  | case1 => exact List.forall_mem_nil _
  | case2 cs ih => exact List.forall_mem_cons.mpr ⟨ha, ih fun piece hp => h piece (List.mem_cons_of_mem _ hp)⟩
  | case3 c cs _ hn => exact absurd hn (cutAt_ne_nil a cs)
  | case4 c cs _ first later hf ih =>
    have whole := h _ List.mem_cons_self
    refine List.forall_mem_cons.mpr ⟨whole c List.mem_cons_self, ih fun piece hp => ?_⟩
    rw [hf] at hp
    rcases List.mem_cons.mp hp with rfl | hp
    · exact fun d hd => whole d (List.mem_cons_of_mem _ hd)
    · exact h piece (List.mem_cons_of_mem _ hp)

/-- The pieces of a text hold no separator. -/
theorem not_mem_of_cutAt (a : Char) (cs : List Char) : ∀ piece ∈ cutAt a cs, a ∉ piece := by
  fun_induction cutAt a cs with
  | case1 => simp
  | case2 cs ih => exact List.forall_mem_cons.mpr ⟨List.not_mem_nil, ih⟩
  | case3 c cs _ h => exact absurd h (cutAt_ne_nil a cs)
  | case4 c cs hc first later hf ih =>
    rw [hf] at ih
    obtain ⟨own, others⟩ := List.forall_mem_cons.mp ih
    refine List.forall_mem_cons.mpr ⟨?_, others⟩
    rw [List.mem_cons, not_or]
    exact ⟨Ne.symm hc, own⟩

/-- A text without the separator is its only piece. -/
theorem cutAt_of_not_mem {a : Char} {cs : List Char} (h : a ∉ cs) : cutAt a cs = [cs] := by
  induction cs with
  | nil => rfl
  | cons c cs ih =>
    rw [List.mem_cons, not_or] at h
    rw [cutAt, if_neg (Ne.symm h.1), ih h.2]

/-- The pieces of a text, put after one another with the separator between them, are the text. -/
theorem foldl_cutAt {a : Char} {cs first : List Char} {later : List (List Char)}
    (h : cutAt a cs = first :: later) : later.foldl (fun text piece => text ++ a :: piece) first = cs := by
  -- what the pieces are put behind stays in front of them
  have moved (later : List (List Char)) (start first : List Char) :
      later.foldl (fun text piece => text ++ a :: piece) (start ++ first) =
        start ++ later.foldl (fun text piece => text ++ a :: piece) first := by
    induction later generalizing first with
    | nil => rfl
    | cons piece later ih => rw [List.foldl_cons, List.foldl_cons, List.append_assoc, ih]
  induction cs generalizing first later with
  | nil =>
    cases h
    rfl
  | cons c cs ih =>
    rw [cutAt] at h
    split at h
    · next hc =>
      cases h
      cases hr : cutAt a cs with
      | nil => exact absurd hr (cutAt_ne_nil a cs)
      | cons piece later =>
        rw [List.foldl_cons, List.nil_append, hc, ← ih hr]
        exact moved later [a] piece
    · cases hr : cutAt a cs with
      | nil => exact absurd hr (cutAt_ne_nil a cs)
      | cons piece others =>
        rw [hr] at h
        cases h
        rw [← ih hr]
        exact moved later [c] piece

end Text

/-! ## Words -/

/-- A character of a path. -/
def isPathChar (c : Char) : Bool := isNameChar c || c == '.'

theorem isPathChar_of_isNameStart {c : Char} (h : isNameStart c = true) : isPathChar c = true := by
  simp [isPathChar, isNameChar, h]

/-- A path starts like a name and goes on with characters of paths. -/
theorem exists_of_isPath {text : List Char} (h : isPath text = true) :
    ∃ c cs, text = c :: cs ∧ isNameStart c = true ∧ ∀ d ∈ text, isPathChar d = true := by
  have names : ∀ piece ∈ cutAt '.' text, isName piece = true := List.all_eq_true.mp h
  have all : ∀ d ∈ text, isPathChar d = true := by
    refine forall_mem_of_cutAt (a := '.') (by decide) fun piece hp d hd => ?_
    have name := names piece hp
    cases piece with
    | nil => cases hd
    | cons c cs =>
      rw [isName, Bool.and_eq_true] at name
      rcases List.mem_cons.mp hd with rfl | hd
      · exact isPathChar_of_isNameStart name.1
      · simp [isPathChar, List.all_eq_true.mp name.2 d hd]
  cases text with
  | nil => exact absurd (names [] List.mem_cons_self) Bool.false_ne_true
  | cons c cs =>
    refine ⟨c, cs, rfl, ?_, all⟩
    rw [cutAt] at names
    split at names
    · exact absurd (names [] List.mem_cons_self) Bool.false_ne_true
    · split at names
      · next hn => exact absurd hn (cutAt_ne_nil _ _)
      · have name := names _ List.mem_cons_self
        rw [isName, Bool.and_eq_true] at name
        exact name.1

/-- A name starts with an underscore, a dollar sign or a letter of ASCII. -/
theorem toNat_of_isNameStart {c : Char} (h : isNameStart c = true) :
    c.toNat = 95 ∨ c.toNat = 36 ∨ (65 ≤ c.toNat ∧ c.toNat ≤ 90) ∨ (97 ≤ c.toNat ∧ c.toNat ≤ 122) := by
  rw [isNameStart] at h
  delta Char.isAlpha Char.isUpper Char.isLower at h
  simp only [Bool.or_eq_true, Bool.and_eq_true, beq_iff_eq, decide_eq_true_iff, ge_iff_le,
    UInt32.le_iff_toNat_le] at h
  rcases h with ((h | h) | rfl) | rfl
  · exact .inr (.inr (.inl h))
  · exact .inr (.inr (.inr h))
  · exact .inl rfl
  · exact .inr (.inl rfl)

/-- The other characters of paths are the point and the digits of ASCII. -/
theorem toNat_of_isPathChar {c : Char} (h : isPathChar c = true) :
    isNameStart c = true ∨ c.toNat = 46 ∨ (48 ≤ c.toNat ∧ c.toNat ≤ 57) := by
  simp only [isPathChar, isNameChar, Char.isDigit, Bool.or_eq_true, beq_iff_eq, Bool.and_eq_true,
    decide_eq_true_iff, ge_iff_le, UInt32.le_iff_toNat_le] at h
  rcases h with (h | h) | rfl
  · exact .inl h
  · exact .inr (.inr h)
  · exact .inr (.inl rfl)

theorem isBlank_of_isPathChar {c : Char} (h : isPathChar c = true) : isBlank c = false := by
  have place : c.toNat = 36 ∨ (46 ≤ c.toNat ∧ c.toNat ≤ 122) := by
    rcases toNat_of_isPathChar h with h | h
    · have := toNat_of_isNameStart h
      omega
    · omega
  simp only [isBlank, inRanges, separatorRange, paddingRanges, List.any_eq_false, Bool.and_eq_true,
    decide_eq_true_iff, List.forall_mem_cons]
  refine ⟨?_, ?_, ?_, ?_, ?_, ?_, ?_, ?_, ?_, ?_, ?_, List.forall_mem_nil _⟩ <;> omega

/-- The marks that end a word are none of a path, and neither is the mark of an arrow. -/
theorem not_mem_marks_of_isPathChar {c : Char} (h : isPathChar c = true) :
    c ∉ '-' :: '#' :: '"' :: '\'' :: Token.singles := by
  intro hc
  have marks : ('-' :: '#' :: '"' :: '\'' :: Token.singles).all (fun d => !isPathChar d) = true := by decide
  have := List.all_eq_true.mp marks c hc
  rw [h] at this
  cases this

theorem endsWord_of_isPathChar {c : Char} (h : isPathChar c = true) : Token.endsWord c = false := by
  have none := not_mem_marks_of_isPathChar h
  simp only [List.mem_cons, not_or] at none
  simp [Token.endsWord, Token.isQuote, isBlank_of_isPathChar h, none]

namespace Token

/-- A word of the characters of paths has no end before the end of the text. -/
theorem splitWord_of_path {cs : List Char} (h : ∀ c ∈ cs, isPathChar c = true) : splitWord cs = (cs, []) := by
  induction cs with
  | nil => rfl
  | cons c cs ih =>
    obtain ⟨first, later⟩ := List.forall_mem_cons.mp h
    have arrow : c ≠ '-' := fun hc => not_mem_marks_of_isPathChar first (hc ▸ List.mem_cons_self)
    rw [splitWord, endsWord_of_isPathChar first, beq_false_of_ne arrow, ih later]
    rfl

theorem symbol?_of_path {c : Char} {cs : List Char} (h : isPathChar c = true) : symbol? (c :: cs) = none := by
  have single : singles.contains c = false := by
    rw [List.contains_eq_mem, decide_eq_false_iff_not]
    intro hc
    refine not_mem_marks_of_isPathChar h ?_
    simp only [List.mem_cons, hc, or_true]
  have pair (d : Char) : pairs.contains (c, d) = false := by
    rw [List.contains_eq_mem, decide_eq_false_iff_not]
    intro hc
    have firsts : pairs.all (fun p => !isPathChar p.1) = true := by decide
    have := List.all_eq_true.mp firsts _ hc
    rw [h] at this
    cases this
  cases cs with
  | nil => rw [symbol?, single]; rfl
  | cons d cs => rw [symbol?, pair, single]; rfl

/-- A text of the characters of paths is one word. -/
theorem scan_of_path {c : Char} {cs : List Char} (h : ∀ d ∈ c :: cs, isPathChar d = true) :
    ∃ word ending, scan (c :: cs) = .ok [word, ending] ∧ word.kind = .word ∧
      word.value = String.ofList (c :: cs) ∧ ending.isEnding = true ∧ ending.value = "" := by
  obtain ⟨first, later⟩ := List.forall_mem_cons.mp h
  have none := not_mem_marks_of_isPathChar first
  simp only [List.mem_cons, not_or] at none
  have gap : splitGap false (c :: cs) = ([], c :: cs) := by
    rw [splitGap, inComment, if_neg (by simp [none]), isBlank_of_isPathChar first]
    rfl
  have word : lexeme? (c :: cs) = some ⟨.word, c :: cs, c :: cs, []⟩ := by
    rw [lexeme?, if_neg (by simp [isQuote, none]), symbol?_of_path first, splitWord_of_path later]
  rw [scan, scanFrom_eq, gap]
  simp only [word]
  rw [scanFrom_eq]
  exact ⟨_, _, rfl, rfl, rfl, rfl, rfl⟩

end Token

/-- A text that starts like a name is no number, and does not look like one. -/
theorem Number.read?_of_isNameStart {c : Char} (h : isNameStart c = true) (cs : List Char) :
    Number.read? (c :: cs) = .ok none ∧ looksNumeric (c :: cs) = false := by
  have place := toNat_of_isNameStart h
  have minus : c ≠ '-' := by
    rintro rfl
    exact absurd h (by decide)
  have digit : isDigit c = false := by
    have zero : '0'.toNat = 48 := rfl
    have nine : '9'.toNat = 57 := rfl
    have outside : ¬ ('0' ≤ c ∧ c ≤ '9') := by
      rw [Char.le_def, Char.le_def, UInt32.le_iff_toNat_le, UInt32.le_iff_toNat_le]
      change ¬ ('0'.toNat ≤ c.toNat ∧ c.toNat ≤ '9'.toNat)
      omega
    rw [isDigit, digit?, if_pos (by omega), if_neg outside]
    rfl
  have sign : splitMinus (c :: cs) = (false, c :: cs) := by
    unfold splitMinus
    split
    · next heq => exact absurd (List.cons.inj heq).1 minus
    · rfl
  refine ⟨?_, ?_⟩
  · rw [Number.read?, sign]
    simp [List.span_eq_takeWhile_dropWhile, digit]
  · rw [looksNumeric, sign]
    exact digit

/-! ## Expressions of paths -/

namespace Expr

/-- The text of a path is the path. -/
theorem text_ofPathText (name : String) : (ofPathText name).text = name := by
  have fields (later : List (List Char)) (e : Expr) : ((later.map String.ofList).foldl .field e).text.toList =
      later.foldl (fun text piece => text ++ '.' :: piece) e.text.toList := by
    induction later generalizing e with
    | nil => rfl
    | cons piece later ih =>
      rw [List.map_cons, List.foldl_cons, List.foldl_cons, ih, text, String.toList_append, String.toList_append,
        String.toList_ofList, List.append_assoc]
      simp
  cases h : cutAt '.' name.toList with
  | nil => exact absurd h (cutAt_ne_nil _ _)
  | cons first later =>
    rw [← String.toList_inj, ofPathText, h, List.map_cons, ofPath, fields, text, String.toList_ofList,
      foldl_cutAt h]

/-- The expression of a path reads a variable, whose name is the path if it has no point in it and another name
otherwise. -/
theorem ofPathText_root (name : String) :
    ∃ root fields, ofPathText name = fields.foldl .field (.var root) ∧
      ('.' ∉ name.toList → root = name ∧ fields = []) ∧ ('.' ∈ name.toList → root ≠ name) := by
  cases h : cutAt '.' name.toList with
  | nil => exact absurd h (cutAt_ne_nil _ _)
  | cons first later =>
    refine ⟨String.ofList first, later.map String.ofList, by rw [ofPathText, h]; rfl, fun hn => ?_, ?_⟩
    · rw [cutAt_of_not_mem hn] at h
      cases h
      exact ⟨String.ofList_toList, rfl⟩
    · rintro hn rfl
      have first_mem : first ∈ cutAt '.' (String.ofList first).toList := h ▸ List.mem_cons_self
      rw [String.toList_ofList] at hn
      exact not_mem_of_cutAt _ _ first first_mem hn

end Expr

/-! ## Reading paths -/

namespace Parse

theorem atSymbol_run (symbol : String) (source : Source) (s : ParseState) :
    atSymbol symbol source s = (.ok (s.cursor.current.isSymbol symbol), s) :=
  rfl

theorem atWord_run (word : String) (source : Source) (s : ParseState) :
    atWord word source s = (.ok (s.cursor.current.isWord word), s) :=
  rfl

end Parse

namespace Expr

open Parse

variable {inner : Parse Expr} {source : Source} {s : ParseState} {word : Token}

/-- A word that is a truth value is read as that. -/
theorem parseWord_bool (h : word.value = "true" ∨ word.value = "false") :
    parseWord inner word source s =
      (.ok (.literal (.bool (word.value = "true"))), { s with cursor := s.cursor.next }) := by
  rw [parseWord, bind_run_ok (t := { s with cursor := s.cursor.next }) rfl, if_pos h]
  rfl

/-- Of another word that is a path, what follows it tells whether it names a function. -/
theorem parseWord_name (inner : Parse Expr) (source : Source) (path : isPath word.value.toList = true)
    (other : ¬ (word.value = "true" ∨ word.value = "false"))
    (passes : (Check.text word.value "identifier").Passes s.guard.policy.enforced) :
    ∃ guard, guard.policy = s.guard.policy ∧ parseWord inner word source s =
      (do
        if ← atSymbol "(" then return .call word.value (← parseArguments inner)
        return .ofPathText word.value : Parse Expr) source { s with cursor := s.cursor.next, guard } := by
  obtain ⟨c, cs, hc, start, -⟩ := exists_of_isPath path
  obtain ⟨number, looks⟩ := Number.read?_of_isNameStart start cs
  rw [parseWord, bind_run_ok (t := { s with cursor := s.cursor.next }) rfl, if_neg other]
  have none : number? word source { s with cursor := s.cursor.next } =
      (.ok Option.none, { s with cursor := s.cursor.next }) := by
    rw [number?, hc, number, looks]
    rfl
  rw [bind_run_ok none]
  dsimp only
  have checked : check [.text word.value "identifier"] source { s with cursor := s.cursor.next } = (.ok (), _) :=
    check_run_ok.mpr ⟨Guard.check_eq_ok.mpr (List.forall_mem_singleton.mpr passes), rfl⟩
  rw [if_pos path, bind_run_ok checked]
  exact ⟨_, Guard.check_policy _ _, rfl⟩

/-- Where it names none, it is read as the variable and the fields that it names. -/
theorem parseWord_path (inner : Parse Expr) (source : Source) (path : isPath word.value.toList = true)
    (other : ¬ (word.value = "true" ∨ word.value = "false"))
    (passes : (Check.text word.value "identifier").Passes s.guard.policy.enforced)
    (alone : s.cursor.next.current.isSymbol "(" = false) :
    ∃ guard, guard.policy = s.guard.policy ∧ parseWord inner word source s =
      (.ok (.ofPathText word.value), { s with cursor := s.cursor.next, guard }) := by
  obtain ⟨guard, kept, named⟩ := parseWord_name inner source path other passes
  rw [named, bind_run_ok (atSymbol_run "(" source _), alone]
  exact ⟨guard, kept, rfl⟩

theorem parseOperandWith_word (kind : s.cursor.current.kind = .word) :
    parseOperandWith inner source s = parseWord inner s.cursor.current source s := by
  rw [parseOperandWith, bind_run_ok (current_run source s), kind]

section

variable {operand : Parse Expr}

/-- After the sign of a negation there is an operand, and nothing more. -/
theorem parseWith_negation (sign : (s.cursor.current.isSymbol "!" || s.cursor.current.isWord "not") = true) :
    parseWith operand source s = (do return .not (← operand) : Parse Expr) source { s with cursor := s.cursor.next } := by
  rw [parseWith, bind_run_ok (atSymbol_run "!" source s), bind_run_ok (atWord_run "not" source s), if_pos sign,
    bind_run_ok (t := { s with cursor := s.cursor.next }) rfl]

/-- Without the sign there is an operand, and another one if there is an operator after it. -/
theorem parseWith_positive (mark : s.cursor.current.isSymbol "!" = false)
    (word : s.cursor.current.isWord "not" = false) :
    parseWith operand source s =
      (do
        let left ← operand
        match (← current).operator? with
        | some op =>
          discard advance
          return .binary op left (← operand)
        | none => return left : Parse Expr) source s := by
  rw [parseWith, bind_run_ok (atSymbol_run "!" source s), bind_run_ok (atWord_run "not" source s), mark, word,
    Bool.or_false]
  rfl

end

/-- A word that starts no negation, and that nothing follows, is the whole expression. -/
theorem parseWith_word {t : ParseState} {e : Expr} (kind : s.cursor.current.kind = .word)
    (positive : s.cursor.current.value ≠ "not") (h : parseWord inner s.cursor.current source s = (.ok e, t))
    (alone : t.cursor.current.operator? = none) : parseWith (parseOperandWith inner) source s = (.ok e, t) := by
  have mark : s.cursor.current.isSymbol "!" = false := Token.isSymbol_of_kind (by rw [kind]; decide)
  have word : s.cursor.current.isWord "not" = false := by simp [Token.isWord, positive]
  have operand : parseOperandWith inner source s = (.ok e, t) := by
    rw [parseOperandWith_word kind]
    exact h
  rw [parseWith_positive mark word, bind_run_ok operand, bind_run_ok (current_run source t), alone]
  rfl

/-- A negation of nothing is no expression. -/
theorem parseWith_not (kind : s.cursor.current.kind = .word) (negated : s.cursor.current.value = "not")
    (ended : s.cursor.next.current.kind = .ending) :
    ∃ failure, (parseWith (parseOperandWith inner) source s).1 = .error failure := by
  obtain ⟨failure, failed⟩ : ∃ failure,
      (parseOperandWith inner source { s with cursor := s.cursor.next }).1 = .error failure := by
    rw [parseOperandWith, bind_run_ok (current_run source _), ended]
    exact ⟨_, rfl⟩
  have word : s.cursor.current.isWord "not" = true := Token.isWord_iff.mpr ⟨kind, negated⟩
  rw [parseWith_negation (by rw [word, Bool.or_true]), bind_run_error failed]
  exact ⟨failure, rfl⟩

end Expr

/-! ## Reading paths -/

namespace Policy

open Parse

/-- What the expression parser makes of a text that stands alone: the expression, and the tokens left over. -/
def readExpr (policy : Policy) (text : String) : Except Failure (Expr × List Token) :=
  (policy.read (Expr.parse maxDepth) (.ofText text none)).1

variable {policy : Policy} {name : String}

/-- The text of a path is read as one word, the first of an operand. -/
theorem readExpr_eq (policy : Policy) (h : isPath name.toList = true) :
    ∃ word ending inner outcome state, word.kind = .word ∧ word.value = name ∧ ending.kind = .ending ∧
      ending.value = "" ∧
      Expr.parseWith (Expr.parseOperandWith inner) (.ofText name none) ⟨⟨word, word, [ending]⟩, ⟨policy, []⟩, 0⟩ =
        (outcome, state) ∧
      policy.readExpr name = outcome.map (·, state.cursor.rest) := by
  obtain ⟨c, cs, hc, -, all⟩ := exists_of_isPath h
  rw [hc] at all
  obtain ⟨word, ending, scanned, kind, value, ends, empty⟩ := Token.scan_of_path all
  have tokens : (Source.ofText name none).tokens = .ok [word, ending] := by
    have read : Token.scan (Source.ofText name none).lines.text = .ok [word, ending] := by
      change Token.scan name.toList = _
      rw [hc, scanned]
    rw [Source.tokens, read]
  refine ⟨word, ending, Expr.parseWith (Expr.parseOperand (maxDepth - 3)), _, _, kind, ?_, of_decide_eq_true ends,
    empty, rfl, ?_⟩
  · rw [value, ← hc, String.ofList_toList]
  · rw [readExpr, read, tokens]
    rfl

/-- A path is read as a truth value, as the start of a negation, or as the variable and the fields that it
names. -/
theorem readExpr_of_path (h : isPath name.toList = true)
    (clean : policy.enforced.findBlocked name = none) :
    (name = "not" → ∃ failure, policy.readExpr name = .error failure) ∧
      (name = "true" ∨ name = "false" →
        ∃ ending, ending.kind = .ending ∧ policy.readExpr name = .ok (.literal (.bool (name = "true")), [ending])) ∧
      (name ∉ ["not", "true", "false"] →
        ∃ ending, ending.kind = .ending ∧ policy.readExpr name = .ok (.ofPathText name, [ending])) := by
  obtain ⟨word, ending, inner, outcome, state, kind, rfl, ends, empty, run, read⟩ := readExpr_eq policy h
  have stop : ending.operator? = none := by
    rw [Token.operator?, empty]
    rfl
  let start : ParseState := ⟨⟨word, word, [ending]⟩, ⟨policy, []⟩, 0⟩
  rw [read]
  -- the scanned word stands alone before the ending, and its value decides which branch of the parser reads it
  refine ⟨fun negated => ?_, fun truth => ?_, fun other => ?_⟩
  · obtain ⟨failure, failed⟩ := Expr.parseWith_not (s := start) kind negated ends
    rw [run] at failed
    cases failed
    exact ⟨failure, rfl⟩
  · have positive : word.value ≠ "not" := by rcases truth with h | h <;> rw [h] <;> decide
    rw [Expr.parseWith_word (s := start) kind positive (Expr.parseWord_bool truth) stop] at run
    cases run
    exact ⟨ending, ends, rfl⟩
  · simp only [List.mem_cons, List.not_mem_nil, or_false, not_or] at other
    have alone : ending.isSymbol "(" = false := Token.isSymbol_of_kind (by rw [ends]; decide)
    have passes : (Check.text word.value "identifier").Passes policy.enforced := Check.passes_text.mpr clean
    obtain ⟨guard, -, named⟩ := Expr.parseWord_path (s := start) _ _ h (not_or.mpr other.2) passes alone
    rw [Expr.parseWith_word (s := start) kind other.1 named stop] at run
    cases run
    exact ⟨ending, ends, rfl⟩

end Policy

end Screenplay
