/-
The texts of tokens, scanned again. A lexeme that nothing or a blank follows is found again in its own text, so the
texts of the tokens of a source text, put together with blanks between them, have the same tokens once more. A text
between quotes, with its quotes and backslashes escaped, is one string literal that stands for the text.
-/
import Screenplay.Proofs.Token.Tiling

namespace Screenplay

namespace Token

open Text

/-! ## String literals -/

theorem stringTail?_close (quote : Char) (cs : List Char) :
    stringTail? quote (quote :: cs) = some ⟨.string, [], [quote], cs⟩ := by
  cases cs <;> simp [stringTail?]

theorem stringTail?_escape {quote : Char} (plain : quote ≠ '\\') (d : Char) (cs : List Char) :
    stringTail? quote ('\\' :: d :: cs) = (stringTail? quote cs).map (·.push [unescape d] ['\\', d]) := by
  rw [stringTail?, if_neg plain.symm, if_pos rfl]

theorem stringTail?_cons {quote c : Char} (other : c ≠ quote) (single : c ≠ '\\') (cs : List Char) :
    stringTail? quote (c :: cs) = (stringTail? quote cs).map (·.push [c] [c]) := by
  cases cs with
  | nil => simp [stringTail?, other]
  | cons d cs => rw [stringTail?, if_neg other, if_neg single]

/-- What follows its closing quote is nothing to a string literal. -/
theorem stringTail?_raw_append {quote : Char} (plain : quote ≠ '\\') {cs : List Char} {l : Lexeme}
    (h : stringTail? quote cs = some l) (rest : List Char) :
    stringTail? quote (l.raw ++ rest) = some { l with rest } := by
  fun_induction stringTail? quote cs generalizing l with
  | case1 => cases h
  | case2 =>
    cases h
    exact stringTail?_close quote rest
  | case3 => cases h
  | case4 =>
    cases h
    exact stringTail?_close quote rest
  | case5 d cs _ ih =>
    obtain ⟨m, hm, rfl⟩ := Option.map_eq_some_iff.mp h
    simp only [Lexeme.push, List.cons_append, List.nil_append]
    rw [stringTail?_escape plain, ih hm]
    rfl
  | case6 c d cs other single ih =>
    obtain ⟨m, hm, rfl⟩ := Option.map_eq_some_iff.mp h
    simp only [Lexeme.push, List.cons_append, List.nil_append]
    rw [stringTail?_cons other single, ih hm]
    rfl

/-! ## Lexemes -/

/-- What may follow a lexeme without changing it, whatever its kind: nothing, or a blank and more. -/
def Apart (rest : List Char) : Prop := ∀ c ∈ rest.head?, isBlank c = true

theorem not_mem_pairs_of_isBlank {d : Char} (h : isBlank d = true) (c : Char) : pairs.contains (c, d) = false := by
  rw [List.contains_eq_mem, decide_eq_false_iff_not]
  intro hp
  have seconds : pairs.all (fun p => !isBlank p.2) = true := by decide
  have := List.all_eq_true.mp seconds _ hp
  rw [h] at this
  cases this

/-- No symbol starts with a character that is none, unless it makes one with the next character. -/
theorem symbol?_eq_none_iff {c : Char} {cs : List Char} :
    symbol? (c :: cs) = none ↔ singles.contains c = false ∧ ∀ d ∈ cs.head?, pairs.contains (c, d) = false := by
  cases cs with
  | nil => simp [symbol?]
  | cons d cs =>
    rw [symbol?]
    constructor
    · intro h
      split at h
      · cases h
      · next pair =>
        split at h
        · cases h
        · next single =>
          refine ⟨eq_false_of_ne_true single, ?_⟩
          rintro e ⟨⟩
          exact eq_false_of_ne_true pair
    · rintro ⟨single, pair⟩
      rw [pair d rfl, single]
      rfl

theorem symbol?_raw_append {cs : List Char} {l : Lexeme} (h : symbol? cs = some l) {rest : List Char}
    (apart : Apart rest) : symbol? (l.raw ++ rest) = some { l with rest } := by
  -- a single sign stays one before a blank, with which no pair ends
  have alone {c : Char} (single : singles.contains c = true) :
      symbol? (c :: rest) = some ⟨.symbol, [c], [c], rest⟩ := by
    cases rest with
    | nil => rw [symbol?, if_pos single]
    | cons d ds => rw [symbol?, not_mem_pairs_of_isBlank (apart d rfl), if_neg Bool.false_ne_true, if_pos single]
  unfold symbol? at h
  split at h
  · cases h
  · next c =>
    split at h
    · next single =>
      cases h
      exact alone single
    · cases h
  · next c d cs =>
    split at h
    · next pair =>
      cases h
      change symbol? (c :: d :: rest) = _
      rw [symbol?, if_pos pair]
    · split at h
      · next single =>
        cases h
        exact alone single
      · cases h

/-- What follows the start of a word in its text follows it in the word alone, or is the blank that ends it. -/
theorem head?_word_append (cs : List Char) {rest : List Char} (apart : Apart rest) {d : Char}
    (h : d ∈ ((splitWord cs).1 ++ rest).head?) : d ∈ cs.head? ∨ isBlank d = true := by
  cases hw : (splitWord cs).1 with
  | nil =>
    rw [hw] at h
    exact .inr (apart d h)
  | cons e word =>
    have whole := splitWord_append cs
    rw [hw] at h whole
    rw [← whole]
    exact .inl h

theorem splitWord_append_apart (cs : List Char) {rest : List Char} (apart : Apart rest) :
    splitWord ((splitWord cs).1 ++ rest) = ((splitWord cs).1, rest) := by
  have ends : splitWord rest = ([], rest) := by
    cases rest with
    | nil => rfl
    | cons d ds => rw [splitWord, endsWord, apart d rfl]; rfl
  induction cs with
  | nil => exact ends
  | cons c cs ih =>
    rw [splitWord]
    split
    · exact ends
    · next going =>
      simp only [Bool.or_eq_true, Bool.and_eq_true, beq_iff_eq, not_or, not_and] at going
      obtain ⟨inside, arrow⟩ := going
      -- the end of the word is no arrow: what follows is as it was, or a blank
      have further : ¬ (endsWord c = true ∨ c = '-' ∧ ((splitWord cs).1 ++ rest).head? = some '>') := by
        rintro (h | ⟨minus, head⟩)
        · exact inside h
        · rcases head?_word_append cs apart (Option.mem_def.mpr head) with same | blank
          · exact arrow minus same
          · exact absurd blank (by decide)
      change splitWord (c :: ((splitWord cs).1 ++ rest)) = (c :: (splitWord cs).1, rest)
      rw [splitWord, if_neg (by simpa using further), ih]

/-- A lexeme that nothing or a blank follows is found again in its own text. -/
theorem lexeme?_raw_append {cs : List Char} {l : Lexeme} (h : lexeme? cs = some l) {rest : List Char}
    (apart : Apart rest) : lexeme? (l.raw ++ rest) = some { l with rest } := by
  cases cs with
  | nil => cases h
  | cons c cs =>
    rw [lexeme?] at h
    split at h
    · next quote =>
      obtain ⟨m, hm, rfl⟩ := Option.map_eq_some_iff.mp h
      -- a string ends with its own quote, whatever follows
      have plain : c ≠ '\\' := by
        rintro rfl
        exact absurd quote (by decide)
      change lexeme? (c :: (m.raw ++ rest)) = _
      rw [lexeme?, if_pos quote, stringTail?_raw_append plain hm]
      rfl
    · next unquoted =>
      split at h
      · next m hm =>
        cases h
        -- a symbol is found again, and it starts as before with no quote
        obtain ⟨whole, nonempty⟩ := symbol?_append hm
        have again := symbol?_raw_append hm apart
        cases hr : l.raw with
        | nil => exact absurd hr nonempty
        | cons d raw =>
          rw [hr] at whole again
          obtain ⟨rfl, -⟩ := List.cons.inj whole
          rw [List.cons_append] at again ⊢
          rw [lexeme?, if_neg unquoted, again]
      · next none =>
        cases h
        obtain ⟨single, pair⟩ := symbol?_eq_none_iff.mp none
        -- neither the second character of a word nor the blank behind it makes a symbol of its start
        have still : symbol? (c :: ((splitWord cs).1 ++ rest)) = Option.none := by
          refine symbol?_eq_none_iff.mpr ⟨single, fun d hd => ?_⟩
          rcases head?_word_append cs apart hd with same | blank
          · exact pair d same
          · exact not_mem_pairs_of_isBlank blank c
        change lexeme? (c :: ((splitWord cs).1 ++ rest)) = _
        rw [lexeme?, if_neg unquoted, still, splitWord_append_apart cs apart]

/-! ## Gaps -/

/-- A character starts no gap if it is no blank and no mark of a comment. -/
theorem splitGap_eq_nil_iff {c : Char} {cs : List Char} :
    splitGap false (c :: cs) = ([], c :: cs) ↔ c ≠ '#' ∧ isBlank c = false := by
  rw [splitGap]
  constructor
  · intro h
    split at h
    · cases h
    · next mark =>
      split at h
      · cases h
      · next blank => exact ⟨by simpa [inComment] using mark, by simpa using blank⟩
  · rintro ⟨mark, blank⟩
    rw [if_neg (by simpa [inComment] using mark), if_neg (by simp [blank])]

/-- A gap is followed by none. -/
theorem splitGap_after (inside : Bool) (cs : List Char) :
    splitGap false (splitGap inside cs).2 = ([], (splitGap inside cs).2) := by
  induction cs generalizing inside with
  | nil => rfl
  | cons c cs ih =>
    rw [splitGap]
    split
    · exact ih true
    · next outside =>
      split
      · exact ih false
      · next blank =>
        refine splitGap_eq_nil_iff.mpr ⟨?_, by simpa using blank⟩
        rintro rfl
        cases inside <;> exact outside rfl

/-- Where a lexeme starts no gap does, neither where its text stands before anything else. -/
theorem splitGap_raw_append {cs : List Char} {l : Lexeme} (h : lexeme? cs = some l) (gap : splitGap false cs = ([], cs))
    (rest : List Char) : splitGap false (l.raw ++ rest) = ([], l.raw ++ rest) := by
  obtain ⟨whole, nonempty⟩ := lexeme?_append h
  cases hr : l.raw with
  | nil => exact absurd hr nonempty
  | cons c raw =>
    rw [hr] at whole
    rw [← whole] at gap
    exact splitGap_eq_nil_iff.mpr (splitGap_eq_nil_iff.mp gap)

/-! ## Scanning again -/

/-- What a token is, wherever it stands. -/
def content (t : Token) : TokenKind × String × String := (t.kind, t.value, t.text)

theorem scanFrom_blank (offset : Nat) (position : Position) (cs : List Char) :
    scanFrom offset position (' ' :: cs) = scanFrom (offset + 1) (position.next ' ') cs := by
  have gap : splitGap false (' ' :: cs) = (' ' :: (splitGap false cs).1, (splitGap false cs).2) := by
    rw [splitGap, if_neg (by decide), if_pos (by decide)]
  have length : offset + (' ' :: (splitGap false cs).1).length = offset + 1 + (splitGap false cs).1.length := by
    rw [List.length_cons]
    omega
  rw [scanFrom_eq, gap, scanFrom_eq (offset + 1)]
  dsimp only
  rw [length]
  rfl

/-- Texts with blanks between them: after the first one comes nothing, or a blank and the others. -/
theorem exists_join_cons (text : String) (texts : List String) :
    ∃ rest, (Text.join " " (text :: texts)).toList = text.toList ++ rest ∧ Apart rest ∧
      ∀ offset position, ∃ offset' position',
        scanFrom offset position rest = scanFrom offset' position' (Text.join " " texts).toList := by
  cases texts with
  | nil => exact ⟨[], (List.append_nil _).symm, by rintro c ⟨⟩, fun offset position => ⟨offset, position, rfl⟩⟩
  | cons later texts =>
    refine ⟨' ' :: (Text.join " " (later :: texts)).toList, ?_, ?_, fun offset position => ?_⟩
    · rw [Text.join, String.toList_append, String.toList_append, List.append_assoc]
      rfl
    · rintro c ⟨⟩
      decide
    · exact ⟨offset + 1, position.next ' ', scanFrom_blank ..⟩

theorem texts_cons {t : Token} (h : t.kind ≠ .ending) (tokens : List Token) :
    texts (t :: tokens) = t.text :: texts tokens := by
  rw [texts, List.filter_cons_of_pos (by simpa [isEnding] using h)]
  rfl

/-- A lexeme that no gap comes before is the first token, and scanning goes on after it. -/
theorem scanFrom_of_lexeme {cs : List Char} {l : Lexeme} (gap : splitGap false cs = ([], cs))
    (found : lexeme? cs = some l) (offset : Nat) (position : Position) :
    scanFrom offset position cs =
      (scanFrom (offset + l.raw.length) (position.after l.raw) l.rest).map (ofLexeme l offset position :: ·) := by
  rw [scanFrom_eq, gap]
  cases cs with
  | nil => cases found
  | cons c rest =>
    dsimp only
    rw [found]
    rfl

/-- The texts of tokens that have been scanned are scanned again, wherever they stand. -/
theorem scanFrom_texts (offset : Nat) (position : Position) (cs : List Char) :
    ∀ tokens, scanFrom offset position cs = .ok tokens → ∀ offset' position',
      ∃ again, scanFrom offset' position' (Text.join " " (texts tokens)).toList = .ok again ∧
        again.map content = tokens.map content := by
  fun_induction scanFrom offset position cs with
  | case1 =>
    rintro _ ⟨⟩ offset' position'
    exact ⟨_, scanFrom_eq .., rfl⟩
  | case2 => rintro _ ⟨⟩
  | case3 start place cs gap after offset position going l found ih =>
    intro tokens h offset' position'
    cases scanned : scanFrom (offset + l.raw.length) (position.after l.raw) l.rest with
    | error e =>
      rw [scanned] at h
      cases h
    | ok later =>
      rw [scanned] at h
      cases h
      -- the first token ends at the blank before the others, which are scanned behind it by induction
      obtain ⟨rest, joined, apart, goesOn⟩ := exists_join_cons (String.ofList l.raw) (texts later)
      obtain ⟨o, p, same⟩ := goesOn (offset' + l.raw.length) (position'.after l.raw)
      obtain ⟨again, scannedAgain, contents⟩ := ih later scanned o p
      have none := splitGap_raw_append found (splitGap_after false cs) rest
      rw [texts_cons (lexeme?_kind found), ofLexeme, joined, String.toList_ofList,
        scanFrom_of_lexeme none (lexeme?_raw_append found apart), same, scannedAgain]
      refine ⟨_, rfl, ?_⟩
      rw [List.map_cons, List.map_cons, contents]
      rfl

/-! ## Spelling texts -/

/-- The ways to write a text between quotes: the quote and the backslash after a backslash, line breaks and tabs as
they are or as a backslash and a letter, and everything else as it is. -/
inductive Spelled (quote : Char) : List Char → List Char → Prop where
  | nil : Spelled quote [] []
  | plain {c : Char} {text written : List Char} (other : c ≠ quote) (single : c ≠ '\\')
    (later : Spelled quote text written) : Spelled quote (c :: text) (c :: written)
  | escaped {c : Char} {text written : List Char} (special : c = quote ∨ c = '\\')
    (later : Spelled quote text written) : Spelled quote (c :: text) ('\\' :: c :: written)
  | lineBreak {text written : List Char} (later : Spelled quote text written) :
    Spelled quote ('\n' :: text) ('\\' :: 'n' :: written)
  | tab {text written : List Char} (later : Spelled quote text written) :
    Spelled quote ('\t' :: text) ('\\' :: 't' :: written)

theorem exists_spelled (quote : Char) (text : List Char) : ∃ written, Spelled quote text written := by
  induction text with
  | nil => exact ⟨[], .nil⟩
  | cons c text ih =>
    obtain ⟨written, later⟩ := ih
    by_cases special : c = quote ∨ c = '\\'
    · exact ⟨_, .escaped special later⟩
    · exact ⟨_, .plain (fun h => special (.inl h)) (fun h => special (.inr h)) later⟩

/-- A text that is written between quotes is read back up to the closing quote. -/
theorem stringTail?_of_spelled {quote : Char} (h : isQuote quote = true) {text written : List Char}
    (spelled : Spelled quote text written) (rest : List Char) :
    stringTail? quote (written ++ quote :: rest) = some ⟨.string, text, written ++ [quote], rest⟩ := by
  have plain : quote ≠ '\\' := by
    rintro rfl
    exact absurd h (by decide)
  induction spelled with
  | nil => exact stringTail?_close quote rest
  | plain other single _ ih =>
    rw [List.cons_append, stringTail?_cons other single, ih]
    rfl
  | @escaped c _ _ special _ ih =>
    -- neither of the two letters that stand for something else is a quote or a backslash
    have itself : unescape c = c := by
      simp only [isQuote, Bool.or_eq_true, beq_iff_eq] at h
      rcases special with rfl | rfl
      · rcases h with rfl | rfl <;> rfl
      · rfl
    rw [List.cons_append, List.cons_append, stringTail?_escape plain, ih, itself]
    rfl
  | lineBreak _ ih =>
    rw [List.cons_append, List.cons_append, stringTail?_escape plain, ih]
    rfl
  | tab _ ih =>
    rw [List.cons_append, List.cons_append, stringTail?_escape plain, ih]
    rfl

/-- A text that is written between quotes is one token, and nothing comes after it. -/
theorem scan_of_spelled {quote : Char} (h : isQuote quote = true) {text written : List Char}
    (spelled : Spelled quote text written) :
    scan (quote :: written ++ [quote]) =
      .ok [⟨.string, String.ofList text, String.ofList (quote :: written ++ [quote]), 0,
        (quote :: written ++ [quote]).length, .first⟩,
        endingAt (quote :: written ++ [quote]).length (.counted (quote :: written ++ [quote]))] := by
  have gap : splitGap false (quote :: written ++ [quote]) = ([], quote :: written ++ [quote]) := by
    refine splitGap_eq_nil_iff.mpr ?_
    simp only [isQuote, Bool.or_eq_true, beq_iff_eq] at h
    rcases h with rfl | rfl <;> decide
  have literal : lexeme? (quote :: written ++ [quote]) = some ⟨.string, text, quote :: written ++ [quote], []⟩ := by
    rw [List.cons_append, lexeme?, if_pos h, stringTail?_of_spelled h spelled]
    rfl
  rw [scan, scanFrom_of_lexeme gap literal, scanFrom_eq, ← Position.first_after, ofLexeme]
  simp only [splitGap, List.length_nil, Nat.zero_add, Nat.add_zero]
  rfl

end Token

/-! ## Source texts -/

namespace Source

/-- The texts of the tokens of a source text, with a blank between each two of them, are a source text with the same
tokens: their kinds, their values and their texts. -/
theorem tokens_joined {source : Source} {tokens : List Token} (h : source.tokens = .ok tokens)
    (file : Option String) :
    ∃ again, (ofText (Text.join " " (Token.texts tokens)) file).tokens = .ok again ∧
      again.map Token.content = tokens.map Token.content := by
  obtain ⟨again, scanned, contents⟩ :=
    Token.scanFrom_texts 0 .first source.lines.text tokens (tokens_eq_ok.mp h) 0 .first
  exact ⟨again, tokens_eq_ok.mpr scanned, contents⟩

/-- The joined texts of a source text without its comment, and their tokens. -/
theorem tokens_joined_greetingSource :
    ∃ tokens again, greetingSource.tokens = .ok tokens ∧
      Text.join " " (Token.texts tokens) = "say \"hi # there\" -> x" ∧
      (ofText "say \"hi # there\" -> x" none).tokens = .ok again ∧
      again.map Token.content = tokens.map Token.content := by
  have told : greetingSource.tokens.toOption.any
      (fun tokens => Text.join " " (Token.texts tokens) == "say \"hi # there\" -> x") = true := by
    decide +kernel
  cases h : greetingSource.tokens with
  | error failure => rw [h] at told; cases told
  | ok tokens =>
    rw [h, Except.toOption, Option.any_some, beq_iff_eq] at told
    obtain ⟨again, rescanned, contents⟩ := tokens_joined h none
    rw [told] at rescanned
    exact ⟨tokens, again, rfl, told, rescanned, contents⟩

/-- Every text can be written between quotes of either kind, and however it is written, the whole is one string
literal with the text as its value. -/
theorem tokens_of_literal {quote : Char} (h : Token.isQuote quote = true) (text : String) :
    (∃ written, Token.Spelled quote text.toList written) ∧
      ∀ written, Token.Spelled quote text.toList written → ∀ file,
        let literal := quote :: written ++ [quote]
        (ofText (String.ofList literal) file).tokens =
          .ok [⟨.string, text, String.ofList literal, 0, literal.length, .first⟩,
            .endingAt literal.length (.counted literal)] := by
  refine ⟨Token.exists_spelled quote _, fun written spelled file => tokens_eq_ok.mpr ?_⟩
  change Token.scan (String.ofList (quote :: written ++ [quote])).toList = _
  rw [String.toList_ofList, Token.scan_of_spelled h spelled, String.ofList_toList]

/-- A text of a quote, a comment mark, a line break and a backslash between quotes, with the line break written in
either way. -/
theorem tokens_of_literal_marks :
    Token.isQuote '\'' = true ∧
      (ofText "'\\'#\\n\\\\'" none).tokens =
        .ok [⟨.string, "'#\n\\", "'\\'#\\n\\\\'", 0, 9, ⟨1, 1⟩⟩, .endingAt 9 ⟨1, 10⟩] ∧
      (ofText "'\\'#\n\\\\'" none).tokens =
        .ok [⟨.string, "'#\n\\", "'\\'#\n\\\\'", 0, 8, ⟨1, 1⟩⟩, .endingAt 8 ⟨2, 4⟩] := by
  have single : Token.isQuote '\'' = true := by decide
  obtain ⟨-, read⟩ := tokens_of_literal single "'#\n\\"
  refine ⟨single, read ['\\', '\'', '#', '\\', 'n', '\\', '\\'] ?_ none,
    read ['\\', '\'', '#', '\n', '\\', '\\'] ?_ none⟩
  · exact .escaped (.inl rfl) (.plain (by decide) (by decide) (.lineBreak (.escaped (.inr rfl) .nil)))
  · exact .escaped (.inl rfl)
      (.plain (by decide) (by decide) (.plain (by decide) (by decide) (.escaped (.inr rfl) .nil)))

end Source

end Screenplay
