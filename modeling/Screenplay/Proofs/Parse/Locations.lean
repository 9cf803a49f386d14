/-
Where errors are located. The tokens that a parser comes across are those of the source text, or stand where a
string literal of the text stands in which they are embedded. So an error is located at a token of the text, or at
an opening quote in the text that is never closed, and shows the line of this place; all but the error of a string
literal that is never closed in an embedded source, which is located in that source and shows it.
-/
import Screenplay.Proofs.Parse.Progress
import Screenplay.Proofs.Text.Lines

namespace Screenplay

/-! ## Places in a source text -/

namespace Source

/-- A location that tells a place in a source text, and shows the line that it is on. -/
structure Shows (source : Source) (place : Text.Position) (l : Location) : Prop where
  file : l.file = source.file
  line : l.line = place.line
  column : l.column = place.column
  excerpt : ∃ text, (Text.cutAt '\n' source.lines.text)[place.line - 1]? = some text ∧
    l.excerpt = some (String.ofList text)

/-- A location that points into a source text: at one of its tokens, or at an opening quote that is never closed. -/
inductive PointsInto (source : Source) (l : Location) : Prop
  | token {tokens : List Token} {t : Token} (scanned : source.tokens = .ok tokens) (ht : t ∈ tokens)
    (shows : source.Shows t.position l)
  | quote {opening : Token.OpenString} {offset : Nat} {quote : Char} {rest : List Char}
    (unterminated : Token.scan source.lines.text = .error opening)
    (place : opening.position = .counted (source.lines.text.take offset))
    (follows : source.lines.text.drop offset = quote :: rest) (opens : Token.isQuote quote = true)
    (unclosed : Token.Unclosed quote rest) (shows : source.Shows opening.position l)

/-- The error of a string literal that is never closed in a source that is embedded in a token of a text. -/
inductive OpensInside (source : Source) (e : ParseError) : Prop
  | intro {tokens : List Token} {t : Token} {inner : List Char} {opening : Token.OpenString}
    (scanned : source.tokens = .ok tokens) (ht : t ∈ tokens)
    (piece : .embedded inner ∈ Segment.ofText t.value.toList) (opens : Token.scan inner = .error opening)
    (same : e = Expr.openStringError none inner opening)

theorem shows_of_lineText {text : String} {file : Option String} (offset : Nat) {l : Location}
    (h : l = ⟨file, (Text.Position.counted (text.toList.take offset)).line,
      (Text.Position.counted (text.toList.take offset)).column,
      some (String.ofList ((Text.LineIndex.ofText text.toList).lineText
        (Text.Position.counted (text.toList.take offset)).line))⟩) :
    (ofText text file).Shows (.counted (text.toList.take offset)) l := by
  obtain ⟨line, piece, shown⟩ := Text.exists_line text.toList offset
  rw [shown] at h
  rw [h]
  exact ⟨rfl, rfl, rfl, line, piece, rfl⟩

end Source

namespace Parse

/-! ## Blame -/

/-- What is blamed for the errors of a source text, for the tokens that are known in it: the known tokens, and the
string literals that are never closed in what is embedded in them. What is embedded has known tokens, too. -/
structure Blames (source : Source) (Known : Token → Prop) (Fault : ParseError → Prop) : Prop where
  token : ∀ t, Known t → ∀ cause, Fault (errorAt source t cause)
  opened : ∀ t, Known t → ∀ inner, .embedded inner ∈ Segment.ofText t.value.toList →
    ∀ opening, Token.scan inner = .error opening → Fault (Expr.openStringError none inner opening)
  inside : ∀ t, Known t → ∀ inner, .embedded inner ∈ Segment.ofText t.value.toList →
    ∀ tokens, Token.scan inner = .ok tokens → ∀ u ∈ tokens, Known { u with position := t.position }

variable {α β σ : Type} {source : Source} {Known : Token → Prop} {Fault : ParseError → Prop}

/-- A run of a parser that leaves known tokens if it succeeds, and fails for what is blamed. -/
def Answers (Known : Token → Prop) (Fault : ParseError → Prop) (result : Except Failure α × ParseState) : Prop :=
  (∀ a t, result = (.ok a, t) → ∀ u ∈ t.cursor.rest, Known u) ∧ ∀ e, result.1 = .error (.parse e) → Fault e

theorem Answers.ok {a : α} {t : ParseState} (h : ∀ u ∈ t.cursor.rest, Known u) : Answers Known Fault (.ok a, t) := by
  constructor
  · rintro b t' ⟨⟩
    exact h
  · rintro e ⟨⟩

theorem Answers.error {failure : Failure} {t : ParseState} (h : ∀ e, failure = .parse e → Fault e) :
    Answers Known Fault (α := α) (.error failure, t) := by
  constructor
  · rintro b t' ⟨⟩
  · rintro e ⟨⟩
    exact h e rfl

/-- A parser that answers wherever the tokens are known. -/
def Located (source : Source) (Known : Token → Prop) (Fault : ParseError → Prop) (m : Parse α) : Prop :=
  ∀ s, (∀ t ∈ s.cursor.rest, Known t) → Answers Known Fault (m source s)

namespace Located

/-! ### Steps -/

theorem pure (a : α) : Located source Known Fault (Pure.pure a) := fun _ hs => .ok hs

theorem throw {failure : Failure} (h : ∀ e, failure = .parse e → Fault e) :
    Located source Known Fault (MonadExcept.throw failure : Parse α) := fun _ _ => .error h

theorem refuse (violation : Violation) : Located source Known Fault (Parse.refuse violation : Parse α) :=
  throw (by rintro e ⟨⟩)

/-- A step that only looks. -/
theorem of_look {m : Parse α} {look : ParseState → α} (h : ∀ s, m source s = (.ok (look s), s)) :
    Located source Known Fault m := by
  intro s hs
  rw [h]
  exact .ok hs

theorem settle (use : Guard → Except Violation Unit × Guard) :
    Located source Known Fault (do Parse.settle (use (← get).guard)) := by
  intro s hs
  show Answers _ _ (Parse.settle (use s.guard) source s)
  rcases use s.guard with ⟨violation | ⟨⟩, guard⟩
  · exact .error (by rintro e ⟨⟩)
  · exact .ok hs

theorem failAt (blames : Blames source Known Fault) {t : Token} (ht : Known t) (cause : ParseCause) :
    Located source Known Fault (Parse.failAt t cause : Parse α) := by
  intro s hs
  refine .error fun e he => ?_
  cases he
  exact blames.token t ht cause

/-! ### Composition -/

theorem bind {m : Parse α} {f : α → Parse β} (hm : Located source Known Fault m)
    (hf : ∀ a, Located source Known Fault (f a)) : Located source Known Fault (m >>= f) := by
  intro s hs
  obtain ⟨left, failed⟩ := hm s hs
  rw [bind_run]
  rcases hr : m source s with ⟨e | a, t⟩
  · rw [hr] at failed
    exact .error fun e he => failed e (congrArg Except.error he)
  · exact hf a t (left a t hr)

theorem current {f : Token → Parse β} (hf : ∀ t, Known t → Located source Known Fault (f t)) :
    Located source Known Fault (Parse.current >>= f) := by
  intro s hs
  exact hf s.cursor.current (hs _ List.mem_cons_self) s hs

/-- The tokens after a known place are known. -/
theorem advance {f : Token → Parse β} (hf : ∀ t, Known t → Located source Known Fault (f t)) :
    Located source Known Fault (Parse.advance >>= f) := by
  intro s hs
  refine hf s.cursor.current (hs _ List.mem_cons_self) _ fun t ht => hs t ?_
  exact s.cursor.next_rest_suffix.subset ht

theorem orElseFrom {first second : Parse α} (hf : Located source Known Fault first)
    (hs : Located source Known Fault second) : Located source Known Fault (Parse.orElseFrom first second) := by
  intro s known
  by_cases hp : ∃ e, (first source s).1 = .error (.parse e)
  · obtain ⟨e, hp⟩ := hp
    rcases hr : first source s with ⟨outcome, failed⟩
    rw [hr] at hp
    cases hp
    rw [orElseFrom_run_parse hr]
    exact hs { failed with cursor := s.cursor } known
  · rw [orElseFrom_run_other fun e h => hp ⟨e, h⟩]
    exact hf s known

theorem steps (blames : Blames source Known Fault) : Steps Known fun _ => Located source Known Fault where
  any h := h
  slow h := h
  pure := pure
  input _ := throw (by rintro e ⟨⟩)
  refuse := refuse
  failAt := failAt blames
  bind := bind
  later := bind
  read := of_look fun _ => rfl
  previous := of_look fun _ => rfl
  following := of_look fun _ => rfl
  current := current
  advance := advance
  check checks := settle (·.check checks)
  orElseFrom := orElseFrom

/-! ### Loops -/

theorem roundsUpTo {round : σ → Parse (Round σ)} (h : ∀ x, Located source Known Fault (round x)) :
    ∀ n x, Located source Known Fault (Parse.roundsUpTo round n x)
  | 0, _ => throw (by rintro e ⟨⟩)
  | n + 1, x => by
    refine bind (h x) fun r => ?_
    cases r with
    | again y => exact roundsUpTo h n y
    | done y => exact pure y

theorem rounds {round : σ → Parse (Round σ)} (h : ∀ x, Located source Known Fault (round x)) (x : σ) :
    Located source Known Fault (Parse.rounds round x) := fun s hs => roundsUpTo h _ x s hs

theorem itemsUntil (blames : Blames source Known Fault) {closing : String} {item : σ → Parse σ}
    (h : ∀ x, Located source Known Fault (item x)) (x : σ) :
    Located source Known Fault (Parse.itemsUntil closing item x) := by
  refine rounds (fun x => bind ((steps blames).atSymbol closing) fun b => ?_) x
  split
  · exact pure _
  · exact bind (h x) fun _ => pure _

theorem itemsBetweenCommas (blames : Blames source Known Fault) {closing : String} {item : σ → Parse σ}
    (h : ∀ x, Located source Known Fault (item x)) (x : σ) :
    Located source Known Fault (Parse.itemsBetweenCommas closing item x) := by
  refine rounds (fun x => bind ((steps blames).atSymbol closing) fun b => ?_) x
  split
  · exact pure _
  · refine bind (h x) fun y => bind ((steps blames).skipSymbol ",") fun comma => ?_
    split
    · exact pure _
    · exact pure _

theorem itemsFrom (blames : Blames source Known Fault) {start : String} {item : σ → Parse σ}
    (h : ∀ x, Located source Known Fault (item x)) (x : σ) :
    Located source Known Fault (Parse.itemsFrom start item x) := by
  refine rounds (fun x => bind ((steps blames).atWord start) fun b => ?_) x
  split
  · exact bind (h x) fun _ => pure _
  · exact pure _

/-! ### Embedded sources -/

/-- What is embedded in a known token is read from known tokens, and the place outside is known again. -/
theorem embedded (blames : Blames source Known Fault) {inner : Parse Expr} (hi : Located source Known Fault inner)
    {origin : Token} (known : Known origin) {text : List Char}
    (piece : .embedded text ∈ Segment.ofText origin.value.toList) :
    Located source Known Fault (Expr.parseEmbedded inner origin text) := by
  unfold Expr.parseEmbedded
  split
  · next opening opens =>
    refine throw fun e he => ?_
    cases he
    exact blames.opened origin known text piece opening opens
  · next tokens scanned =>
    intro s hs
    -- the tokens inside have been moved to the place of the text, which is a known one
    have inside : ∀ t ∈ (Cursor.ofTokens (tokens.map ({ · with position := origin.position }))).rest, Known t := by
      have ended := Ended.of_scan scanned
      rw [Cursor.rest_ofTokens (by simpa using ended.ne_nil)]
      intro t ht
      obtain ⟨u, hu, rfl⟩ := List.mem_map.mp ht
      exact blames.inside origin known text piece tokens scanned u hu
    rw [bind_run_ok (get_run source s)]
    dsimp only
    rw [bind_run_ok (goTo_run _ source s), bind_run]
    obtain ⟨left, failed⟩ := hi { s with cursor := .ofTokens _ } inside
    rcases hr : inner source _ with ⟨failure | e, t⟩
    · rw [hr] at failed
      exact .error fun e he => failed e (congrArg Except.error he)
    · dsimp only
      rw [Parse.atEnding, bind_assoc, bind_run_ok (current_run source t), pure_bind]
      split
      · rw [bind_run_ok (goTo_run _ source t)]
        exact .ok hs
      · -- what is left over inside is blamed on the next token there
        refine .error fun error he => ?_
        cases he
        exact blames.token _ (left e t hr _ List.mem_cons_self) .trailingText

/-! ### Raw code -/

theorem code (blames : Blames source Known Fault) : Located source Known Fault Action.parseCode := by
  have text (first : Token) : Located source Known Fault (do
      let text := (← MonadReader.read).slice first.start (← Parse.previous).stop
      Parse.check (Check.string text "action code")
      return Action.code text) := by
    refine bind (steps blames).read fun _ => bind (steps blames).previous fun _ => ?_
    exact bind ((steps blames).check _) fun _ => pure _
  intro s hs
  rw [Action.parseCode, bind_run_ok (current_run source s), bind_run_ok (get_run source s),
    bind_run_ok (goTo_run _ source s)]
  exact text s.cursor.current _ fun t ht => hs t (s.cursor.skipCode_rest_suffix.subset ht)

/-! ### The grammar -/

theorem counted (blames : Blames source Known Fault) (v : StateVar) : Located source Known Fault (do
    modify fun s => { s with declared := s.declared + 1 }
    Parse.check [Check.stateCount (← get).declared]
    return v) := fun s hs =>
  bind ((steps blames).check _) (fun _ => pure v) { s with declared := s.declared + 1 } hs

theorem measured (screen : Screen) : Located source Known Fault (do
    Parse.settle ((← get).guard.checkTree screen.name screen.ui)
    return screen) := fun s hs =>
  bind (settle (·.checkTree screen.name screen.ui)) (fun _ => pure screen) s hs

/-- Every parser of the grammar fails for what is blamed only. -/
theorem rules (blames : Blames source Known Fault) : Rules Known fun _ => Located source Known Fault where
  toSteps := steps blames
  itemsUntil := itemsUntil blames
  itemsBetweenCommas := itemsBetweenCommas blames
  itemsFrom := itemsFrom blames
  embedded known piece hi := embedded blames hi known piece
  code := code blames
  counted := counted blames
  measured := measured

end Located

end Parse

/-! ## Source texts -/

/-- Every token of a text is located at an offset of it. -/
theorem Token.position_of_scan {text : List Char} {tokens : List Token} (h : scan text = .ok tokens) {t : Token}
    (ht : t ∈ tokens) : ∃ offset, t.position = .counted (text.take offset) := by
  have scans : Scans text 0 (scan text) := scans_scanFrom [] text
  rw [h] at scans
  cases scans with
  | done tiling =>
    rcases List.mem_append.mp ht with ht | ht
    · exact ⟨t.start, (tiling.stands t ht).position⟩
    · rw [List.mem_singleton.mp ht]
      exact ⟨text.length, by rw [List.take_length]; rfl⟩

namespace Source

variable {text : String} {file : Option String} {tokens : List Token}

theorem lines_ofText (text : String) (file : Option String) : (ofText text file).lines.text = text.toList := rfl

/-- A token that stands where one of some tokens does: it has the value of this one, or a value in which nothing is
embedded. -/
def Stems (tokens : List Token) (t : Token) : Prop :=
  ∃ u ∈ tokens, t.position = u.position ∧ (t.value = u.value ∨ '}' ∉ t.value.toList)

/-- Where something is embedded in the value of a token, it is embedded in the token that it stems from. -/
theorem Stems.exists_piece {t : Token} (h : Stems tokens t) {inner : List Char}
    (piece : .embedded inner ∈ Segment.ofText t.value.toList) :
    ∃ u ∈ tokens, t.position = u.position ∧ .embedded inner ∈ Segment.ofText u.value.toList := by
  obtain ⟨u, hu, place, same | plain⟩ := h
  · exact ⟨u, hu, place, same ▸ piece⟩
  · have closes : '}' ∈ t.value.toList := (Segment.embedded_pieces piece).subset (by simp)
    exact absurd closes plain

/-- The errors that are blamed on the tokens of a text point into it, or are those of string literals that are opened
in embedded sources. -/
theorem blames (file : Option String) (scanned : Token.scan text.toList = .ok tokens) :
    Parse.Blames (ofText text file) (Stems tokens) fun e =>
      (ofText text file).PointsInto e.location ∨ (ofText text file).OpensInside e := by
  refine ⟨?_, ?_, ?_⟩
  · rintro t ⟨u, hu, place, -⟩ cause
    obtain ⟨offset, position⟩ := Token.position_of_scan scanned hu
    refine .inl (.token (tokens_eq_ok.mpr scanned) hu ?_)
    rw [position]
    refine shows_of_lineText offset ?_
    rw [← position, ← place]
    rfl
  · intro t stems inner piece opening opens
    obtain ⟨u, hu, -, piece⟩ := stems.exists_piece piece
    exact .inr ⟨tokens_eq_ok.mpr scanned, hu, piece, opens, rfl⟩
  · intro t stems inner piece later inside v hv
    obtain ⟨u, hu, place, -⟩ := stems.exists_piece piece
    refine ⟨u, hu, place, .inr fun closes => ?_⟩
    -- a closing brace in a value would stand in the embedded source
    rcases Token.value_mem_of_scan inside hv '}' closes with mem | same | same
    · exact Segment.embedded_closed piece mem
    · exact absurd same (by decide)
    · exact absurd same (by decide)

/-- A text that is not tokenized is blamed on an opening quote in it. -/
theorem pointsInto_of_tokens {e : ParseError} (h : (ofText text file).tokens = .error (.parse e)) :
    (ofText text file).PointsInto e.location := by
  have scans : Token.Scans text.toList 0 (Token.scan text.toList) := Token.scans_scanFrom [] text.toList
  unfold Source.tokens at h
  rw [lines_ofText] at h
  cases scanned : Token.scan text.toList with
  | ok tokens =>
    rw [scanned] at h
    cases h
  | error opening =>
    rw [scanned] at h scans
    cases h
    cases scans with
    | opened tiling follows opens unclosed =>
      exact .quote scanned rfl follows opens unclosed (shows_of_lineText _ rfl)

end Source

/-- Errors of reading a program point into its source text: they are located at a token of the text, its end
included, or at its opening quote that is never closed, and show the text of this line. The only ones that need not
are the errors of string literals that are opened in a source embedded in a token, and never closed there: they are
located in the embedded source, name no file, and show a line of the embedded source. -/
theorem Program.pointsInto_or_opensInside {level : Level} {text : String} {file : Option String} {e : ParseError}
    (h : (Program.parse level (.ofText text file)).1 = .error (.parse e)) :
    (Source.ofText text file).PointsInto e.location ∨ (Source.ofText text file).OpensInside e := by
  rw [Program.parse, Policy.read] at h
  cases ht : (Source.ofText text file).tokens with
  | error failure =>
    rw [ht] at h
    cases h
    exact .inl (Source.pointsInto_of_tokens ht)
  | ok tokens =>
    have scanned := Source.tokens_eq_ok.mp ht
    have located := (Parse.Located.rules (Source.blames file scanned)).program (k := .stays)
    rw [ht] at h
    dsimp only [Parse.runOn] at h
    rcases hr : Program.parser (.ofText text file) ⟨.ofTokens tokens, ⟨Policy.ofLevel level, []⟩, 0⟩
      with ⟨failure | p, state⟩
    · rw [hr] at h
      cases h
      refine (located _ fun t ht => ?_).2 e (congrArg Prod.fst hr)
      rw [Cursor.rest_ofTokens (Ended.of_scan scanned).ne_nil] at ht
      exact ⟨t, ht, rfl, .inl rfl⟩
    · rw [hr] at h
      cases h

/-- A text with a word that starts no item. -/
def strayText : String := "app A \x7b start = H\n  colour = 3 \x7d"

/-- A text with a string literal that is never closed in an embedded source. -/
def openText : String :=
  "app A \x7b start = H \x7d\nscreen H \x7b ui \x7b label \"$\x7b a 'x\x7d\" \x7d \x7d"

theorem Except.eq_error_of_map {ε α β : Type} {outcome : Except ε α} {f : α → β} {e : ε}
    (h : outcome.map f = .error e) : outcome = .error e := by
  cases outcome with
  | error e' =>
    cases h
    rfl
  | ok a => cases h

/-- The error in the first text is located at the word. -/
theorem Program.parse_strayText :
    (parse .strict (.ofText strayText none)).1 =
      .error (.parse ⟨.expected "'start' or 'state' in app block", some "colour",
        ⟨none, 2, 3, some "  colour = 3 \x7d"⟩⟩) := by
  apply Except.eq_error_of_map (f := fun _ => ())
  decide +kernel

/-- The error in the second text is located in the embedded source. -/
theorem Program.parse_openText :
    (parse .strict (.ofText openText none)).1 =
      .error (.parse ⟨.unterminatedString, some "'x", ⟨none, 1, 4, some " a 'x"⟩⟩) := by
  apply Except.eq_error_of_map (f := fun _ => ())
  decide +kernel

/-- The first line of the second text is another one than the error shows. -/
theorem Source.not_shows_openText (place : Text.Position) :
    ¬ (ofText openText none).Shows place ⟨none, 1, 4, some " a 'x"⟩ := by
  rintro ⟨-, line, -, text, piece, shown⟩
  have first : place.line = 1 := Int.ofNat.inj line.symm
  have known : (Text.cutAt '\n' (ofText openText none).lines.text)[0]? = some "app A \x7b start = H \x7d".toList := by
    decide +kernel
  rw [first, Nat.sub_self, known] at piece
  cases piece
  exact absurd shown (by decide)

theorem Source.not_pointsInto_of_shown : ¬ (ofText openText none).PointsInto ⟨none, 1, 4, some " a 'x"⟩ := by
  rintro (⟨-, -, shows⟩ | ⟨-, -, -, -, -, shows⟩)
  · exact not_shows_openText _ shows
  · exact not_shows_openText _ shows

/-- So the error in it does not point into the text. -/
theorem Program.not_pointsInto_openText :
    ∃ e, (parse .strict (.ofText openText none)).1 = .error (.parse e) ∧
      ¬ (Source.ofText openText none).PointsInto e.location :=
  ⟨_, parse_openText, Source.not_pointsInto_of_shown⟩

/-- The error in the first text points into it, and that in the second one is that of a string literal which is opened
in an embedded source. -/
theorem Program.pointsInto_strayText :
    (∃ e, (parse .strict (.ofText strayText none)).1 = .error (.parse e) ∧
      (Source.ofText strayText none).PointsInto e.location) ∧
    ∃ e, (parse .strict (.ofText openText none)).1 = .error (.parse e) ∧
      (Source.ofText openText none).OpensInside e := by
  refine ⟨⟨_, parse_strayText, ?_⟩, ⟨_, parse_openText, ?_⟩⟩
  · rcases pointsInto_or_opensInside parse_strayText with points | opens
    · exact points
    · obtain ⟨-, -, -, -, same⟩ := opens
      cases same
  · rcases pointsInto_or_opensInside parse_openText with points | opens
    · exact absurd points Source.not_pointsInto_of_shown
    · exact opens

end Screenplay
