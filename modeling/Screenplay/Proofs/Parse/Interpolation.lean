/-
The display text of a string literal. From the left on, every source between `$`, a pair of braces and no closing brace
in between gives way to the display text of the expression that it is read as; everything else of the text stays as it
is, an opening that is never closed included.
-/
import Mathlib.Data.List.Basic
import Screenplay.Expr.Evaluation
import Screenplay.Proofs.Parse.Alike
import Screenplay.Proofs.Parse.VettedTrees

namespace Screenplay

/-- Texts that are joined with nothing between them. -/
theorem Text.toList_join_empty (texts : List String) :
    (Text.join "" texts).toList = (texts.map String.toList).flatten := by
  induction texts with
  | nil => rfl
  | cons t texts ih =>
    cases texts with
    | nil => simp [Text.join]
    | cons u texts =>
      rw [Text.join, String.toList_append, String.toList_append, ih]
      simp

/-! ## Embedded sources -/

namespace Segment

/-- An embedded source ends with the first closing brace. -/
theorem splitEmbedded?_of_closed {inner : List Char} (closed : '}' ∉ inner) (rest : List Char) :
    splitEmbedded? ('$' :: '{' :: inner ++ '}' :: rest) = some (inner, rest) := by
  have goesOn : ∀ c ∈ inner, decide (c ≠ '}') = true := by
    intro c mem
    exact decide_eq_true fun closes => closed (closes ▸ mem)
  have first : ('}' :: rest).takeWhile (· ≠ '}') = [] := rfl
  have later : ('}' :: rest).dropWhile (· ≠ '}') = '}' :: rest := rfl
  simp only [List.cons_append, splitEmbedded?]
  rw [List.takeWhile_append_of_pos goesOn, List.dropWhile_append_of_pos goesOn, first, later, List.append_nil]

/-- Where none is found, no embedded source starts, whatever comes later. -/
theorem splitEmbedded?_eq_none {text : List Char} (h : splitEmbedded? text = none) (source rest : List Char) :
    text ≠ '$' :: '{' :: source ++ '}' :: rest := by
  rintro rfl
  simp only [List.cons_append, splitEmbedded?] at h
  split at h
  · next none =>
    have all := List.dropWhile_eq_nil_iff.mp none '}' (by simp)
    cases all
  · cases h

end Segment

/-! ## Filling in -/

/-- A text in which the embedded sources are filled in, each with a text that it tells. An embedded source ends with
the next closing brace, and no other character is changed, lost or moved. -/
inductive Filled (Tells : List Char → List Char → Prop) : List Char → List Char → Prop where
  | nil : Filled Tells [] []
  | embedded {source told text shown : List Char} (closed : '}' ∉ source) (tells : Tells source told)
    (later : Filled Tells text shown) : Filled Tells ('$' :: '{' :: source ++ '}' :: text) (told ++ shown)
  /-- a character that no embedded source starts with -/
  | plain {c : Char} {text shown : List Char} (other : ∀ source rest, c :: text ≠ '$' :: '{' :: source ++ '}' :: rest)
    (later : Filled Tells text shown) : Filled Tells (c :: text) (c :: shown)

namespace Filled

variable {Tells : List Char → List Char → Prop} {text shown shown' : List Char}

/-- There is one way to fill in a text if every source tells one text only. -/
theorem unique (one : ∀ source told told', Tells source told → Tells source told' → told = told')
    (h : Filled Tells text shown) (h' : Filled Tells text shown') : shown = shown' := by
  induction h generalizing shown' with
  | nil =>
    cases h'
    rfl
  | @embedded source told text shown closed tells later ih =>
    -- both ways fill in the same source, since it ends with the first closing brace in either
    generalize whole : '$' :: '{' :: source ++ '}' :: text = cs at h'
    cases h' with
    | nil => cases whole
    | @embedded source' told' text' shown' closed' tells' later' =>
      have split := Segment.splitEmbedded?_of_closed closed text
      rw [whole, Segment.splitEmbedded?_of_closed closed' text'] at split
      cases split
      rw [one source told told' tells tells', ih later']
    | plain other => exact absurd whole.symm (other _ _)
  | plain other later ih =>
    generalize whole : _ :: _ = cs at h'
    cases h' with
    | nil => cases whole
    | embedded => exact absurd whole (other _ _)
    | plain other' later' =>
      cases whole
      rw [ih later']

/-- Where nothing is embedded, the text is shown as it is. -/
theorem of_plain (h : Segment.embeds text = false) : Filled Tells text text := by
  induction text with
  | nil => exact nil
  | cons c text ih =>
    have absent : ¬ ['$', '{'] <:+: c :: text := by
      rw [← Text.occurs_iff]
      exact ne_true_of_eq_false h
    rw [List.infix_cons_iff, not_or] at absent
    refine plain (fun source rest whole => absent.1 ?_) (ih ?_)
    · rw [whole]
      exact ⟨source ++ '}' :: rest, rfl⟩
    · refine eq_false_of_ne_true ?_
      rw [Segment.embeds, Text.occurs_iff]
      exact absent.2

end Filled

namespace Segment

/-- Pieces and the texts that they are shown as. -/
inductive Shows (Tells : List Char → List Char → Prop) : Segment → List Char → Prop where
  | literal (text : List Char) : Shows Tells (.literal text) text
  | embedded {source told : List Char} (tells : Tells source told) : Shows Tells (.embedded source) told

variable {Tells : List Char → List Char → Prop}

/-- A character in front of pieces is shown in front of what they are shown as. -/
theorem forall₂_shows_push {c : Char} {segments : List Segment} {shown : List (List Char)}
    (h : List.Forall₂ (Shows Tells) (push c segments) shown) :
    ∃ later, List.Forall₂ (Shows Tells) segments later ∧ shown.flatten = c :: later.flatten := by
  unfold push at h
  split at h
  · obtain _ | ⟨⟨_⟩, others⟩ := h
    exact ⟨_, .cons (.literal _) others, rfl⟩
  · obtain _ | ⟨⟨_⟩, others⟩ := h
    exact ⟨_, others, rfl⟩

/-- The pieces of a text fill it in. -/
theorem filled_ofText (text : List Char) {shown : List (List Char)}
    (h : List.Forall₂ (Shows Tells) (ofText text) shown) : Filled Tells text shown.flatten := by
  fun_induction ofText text generalizing shown with
  | case1 text inner rest split ih =>
    cases h with
    | cons first later =>
      cases first with
      | embedded tells =>
        rw [splitEmbedded?_append split]
        exact .embedded (splitEmbedded?_closed split) tells (ih later)
  | case2 =>
    cases h
    exact .nil
  | case3 c text split ih =>
    -- the character is the start of a literal piece, or joins the one after it
    obtain ⟨later, others, whole⟩ := forall₂_shows_push h
    rw [whole]
    exact .plain (splitEmbedded?_eq_none split) (ih others)

end Segment

/-! ## Embedded expressions -/

/-- A source tells the display text of the value of the expression that it is read as where it stands alone. -/
def Policy.Tells (policy : Policy) (look : String → Option Value) (source told : List Char) : Prop :=
  ∃ e ending value, ending.isEnding = true ∧ policy.readExpr (.ofList source) = .ok (e, [ending]) ∧
    e.evaluate look = .ok value ∧ told = value.display.toList

theorem Policy.Tells.unique {policy : Policy} {look : String → Option Value} {source told told' : List Char}
    (h : policy.Tells look source told) (h' : policy.Tells look source told') : told = told' := by
  obtain ⟨e, ending, value, -, read, evaluated, rfl⟩ := h
  obtain ⟨e', ending', value', -, read', evaluated', rfl⟩ := h'
  rw [read] at read'
  cases read'
  rw [evaluated] at evaluated'
  cases evaluated'
  rfl

/-- The expression of a piece: a literal piece as it is, an embedded source as it is read where it stands alone. -/
inductive Segment.ReadAs (policy : Policy) : Segment → Expr → Prop where
  | literal (text : List Char) : ReadAs policy (.literal text) (.literal (.text (.ofList text)))
  | embedded {source : List Char} {e : Expr} {ending : Token} (ends : ending.isEnding = true)
    (read : policy.readExpr (.ofList source) = .ok (e, [ending])) : ReadAs policy (.embedded source) e

namespace Expr

open Parse

variable {policy : Policy} {look : String → Option Value}

section

variable {depth : Nat} (hd : depth ≤ maxDepth)
include hd

theorem reads_parseSegments_pieces (origin : Token) : ∀ segments : List Segment,
    Reads policy (parseSegments (parse depth) origin segments) (List.Forall₂ (Segment.ReadAs policy) segments)
  | [] => .pure .nil
  | .literal text :: later => by
    refine (reads_parseSegments_pieces origin later).bind fun es pieces => .pure ?_
    exact .cons (.literal text) pieces
  | .embedded text :: later => by
    have first : Reads policy (parseEmbedded (parse depth) origin text)
        (Segment.ReadAs policy (.embedded text)) := by
      rintro source s rfl
      obtain ⟨kept, declared, -⟩ := reads_parseEmbedded (reads_parse depth) origin text source s rfl
      refine ⟨kept, declared, fun e read => ?_⟩
      obtain ⟨ending, ends, alone⟩ := Policy.readExpr_of_parseEmbedded hd (Prod.ext read rfl)
      exact .embedded ends alone
    refine first.bind fun e piece => (reads_parseSegments_pieces origin later).bind fun es pieces => .pure ?_
    exact .cons piece pieces

/-- A string literal without embedded expressions is a text, any other one is made of its pieces. -/
theorem reads_parseText_pieces (token : Token) :
    Reads policy (parseText (parse depth) token) fun e =>
      (Segment.embeds token.value.toList = false ∧ e = .literal (.text token.value)) ∨
        ∃ parts, e = .interpolation parts ∧
          List.Forall₂ (Segment.ReadAs policy) (Segment.ofText token.value.toList) parts := by
  refine .bind (.check _) fun _ _ => ?_
  dsimp only
  split
  · refine (reads_parseSegments_pieces hd token _).bind fun parts pieces => .pure (.inr ?_)
    exact ⟨parts, rfl, pieces⟩
  · next plain => exact .pure (.inl ⟨eq_false_of_ne_true plain, rfl⟩)

end

/-! ## Display texts -/

theorem displays_cons_eq_ok {e : Expr} {es : List Expr} {texts : List String}
    (h : displays look (e :: es) = .ok texts) :
    ∃ value later, e.evaluate look = .ok value ∧ displays look es = .ok later ∧ texts = value.display :: later := by
  rw [displays] at h
  cases first : e.evaluate look with
  | error u =>
    rw [first] at h
    cases h
  | ok value =>
    rw [first] at h
    cases others : displays look es with
    | error u =>
      rw [others] at h
      cases h
    | ok later =>
      rw [others] at h
      cases h
      exact ⟨value, later, rfl, rfl, rfl⟩

theorem evaluate_interpolation_eq_ok {parts : List Expr} {value : Value}
    (h : (interpolation parts).evaluate look = .ok value) :
    ∃ texts, displays look parts = .ok texts ∧ value = .text (Text.join "" texts) := by
  rw [evaluate] at h
  cases told : displays look parts with
  | error u =>
    rw [told] at h
    cases h
  | ok texts =>
    rw [told] at h
    exact ⟨texts, rfl, (Except.ok.inj h).symm⟩

/-- What the expressions of some pieces are displayed as is what the pieces are shown as. -/
theorem shows_of_displays {segments : List Segment} {parts : List Expr} {texts : List String}
    (pieces : List.Forall₂ (Segment.ReadAs policy) segments parts) (h : displays look parts = .ok texts) :
    List.Forall₂ (Segment.Shows (policy.Tells look)) segments (texts.map String.toList) := by
  induction pieces generalizing texts with
  | nil =>
    rw [displays] at h
    cases h
    exact .nil
  | @cons segment e segments parts piece _ ih =>
    obtain ⟨value, later, evaluated, others, rfl⟩ := displays_cons_eq_ok h
    refine .cons ?_ (ih others)
    cases piece with
    | literal text =>
      cases evaluated
      rw [Value.display, String.toList_ofList]
      exact .literal text
    | embedded ends read => exact .embedded ⟨e, _, value, ends, read, evaluated, rfl⟩

/-- The value of a string literal is displayed as the text of the literal with every embedded source filled in, and as
nothing else: each source, from the left on, gives way to the display text of the expression that it is read as where
it stands alone, and every other character is kept. -/
theorem filled_iff_display_of_parseText {depth : Nat} (hd : depth ≤ maxDepth) {token : Token} {source : Source}
    {s t : ParseState} {e : Expr} (read : parseText (parse depth) token source s = (.ok e, t))
    {look : String → Option Value} {value : Value} (evaluated : e.evaluate look = .ok value) (shown : List Char) :
    Filled (s.guard.policy.Tells look) token.value.toList shown ↔ shown = value.display.toList := by
  have displayed : Filled (s.guard.policy.Tells look) token.value.toList value.display.toList := by
    obtain ⟨-, -, made⟩ := reads_parseText_pieces hd token source s rfl
    rcases made e (congrArg Prod.fst read) with ⟨plain, rfl⟩ | ⟨parts, rfl, pieces⟩
    · cases evaluated
      exact .of_plain plain
    · obtain ⟨texts, told, rfl⟩ := evaluate_interpolation_eq_ok evaluated
      rw [Value.display, Text.toList_join_empty]
      exact Segment.filled_ofText _ (shows_of_displays pieces told)
  constructor
  · intro other
    exact other.unique (fun _ _ _ first second => first.unique second) displayed
  · rintro rfl
    exact displayed

/-- A string literal with two embedded sources, and a third one that is never closed. -/
def priceLiteral : Token :=
  { kind := .string
    value := "$$\x7bx\x7d, $\x7b y.z \x7d or $\x7bx"
    text := "'$$\x7bx\x7d, $\x7b y.z \x7d or $\x7bx'"
    start := 0
    stop := 24
    position := .first }

/-- A value of the variable `x`, and of no other one. -/
def priceOf (name : String) : Option Value := if name = "x" then some (.int 3) else none

/-- The literal is shown with the value of the variable, with the path of the unknown one, and with its end as it
is. -/
theorem filled_priceLiteral :
    ∃ e value t, parseText (parse maxDepth) priceLiteral (.ofText priceLiteral.text none)
        ⟨.ofTokens [priceLiteral], .ofLevel .strict, 0⟩ = (.ok e, t) ∧
      e.evaluate priceOf = .ok value ∧ value.display = "$3, y.z or $\x7bx" ∧
      ∀ shown, Filled ((Policy.ofLevel .strict).Tells priceOf) priceLiteral.value.toList shown ↔
        shown = "$3, y.z or $\x7bx".toList := by
  let run := parseText (parse maxDepth) priceLiteral (.ofText priceLiteral.text none)
    ⟨.ofTokens [priceLiteral], .ofLevel .strict, 0⟩
  have told : run.1.toOption.any
      (fun e => (e.evaluate priceOf).toOption.any (·.display == "$3, y.z or $\x7bx")) = true := by
    decide +kernel
  rcases read : run with ⟨failure | e, t⟩
  · rw [read] at told
    cases told
  · rw [read, Except.toOption, Option.any_some] at told
    cases evaluated : e.evaluate priceOf with
    | error u =>
      rw [evaluated] at told
      cases told
    | ok value =>
      rw [evaluated, Except.toOption, Option.any_some, beq_iff_eq] at told
      refine ⟨e, value, t, read, evaluated, told, fun shown => ?_⟩
      rw [← told]
      exact filled_iff_display_of_parseText (Nat.le_refl _) read evaluated shown

end Expr

end Screenplay
