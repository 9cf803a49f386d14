/-
Pieces of texts: what a text is cut into, and the literal pieces of an interpolated text, all stand in the
text as they are.
-/
import Mathlib.Data.List.TakeWhile
import Screenplay.Expr.Interpolation

namespace Screenplay

/-! ## Cutting -/

namespace Text

theorem cutAt_ne_nil (a : Char) (cs : List Char) : cutAt a cs ≠ [] := by
  fun_induction cutAt a cs with
  | case1 => exact List.cons_ne_nil _ _
  | case2 => exact List.cons_ne_nil _ _
  | case3 => exact List.cons_ne_nil _ _
  | case4 => exact List.cons_ne_nil _ _

/-- The first piece stands at the beginning of the text, and every piece stands in it. -/
theorem cutAt_pieces (a : Char) (cs : List Char) :
    (∀ first later, cutAt a cs = first :: later → first <+: cs) ∧
      ∀ piece ∈ cutAt a cs, piece <:+: cs := by
  fun_induction cutAt a cs with
  | case1 => simp
  | case2 cs ih =>
    refine ⟨?_, ?_⟩
    · rintro first later h
      cases h
      exact List.nil_prefix
    · rintro piece hp
      rcases List.mem_cons.mp hp with rfl | hp
      · exact List.nil_infix
      · exact List.infix_cons (ih.2 piece hp)
  | case3 c cs _ h => exact absurd h (cutAt_ne_nil a cs)
  | case4 c cs _ first later h ih =>
    have start := ih.1 first later h
    refine ⟨?_, ?_⟩
    · rintro first' later' he
      cases he
      exact List.cons_prefix_cons.mpr ⟨rfl, start⟩
    · rintro piece hp
      rcases List.mem_cons.mp hp with rfl | hp
      · exact (List.cons_prefix_cons.mpr ⟨rfl, start⟩).isInfix
      · exact List.infix_cons (ih.2 piece (h ▸ List.mem_cons_of_mem _ hp))

end Text

/-! ## Interpolated texts -/

namespace Segment

/-- A literal piece that comes first stands at the beginning of the text, and every literal piece stands
in it. -/
theorem literal_pieces (cs : List Char) :
    (∀ text later, ofText cs = .literal text :: later → text <+: cs) ∧
      ∀ text, .literal text ∈ ofText cs → text <:+: cs := by
  fun_induction ofText cs with
  | case1 cs inner rest h ih =>
    have rest_infix : rest <:+: cs := by
      rw [splitEmbedded?_append h]
      exact (List.suffix_cons _ rest).isInfix.trans (List.suffix_append _ _).isInfix
    refine ⟨?_, ?_⟩
    · rintro text later he
      cases he
    · rintro text ht
      rcases List.mem_cons.mp ht with he | ht
      · cases he
      · exact (ih.2 text ht).trans rest_infix
  | case2 => simp
  | case3 c cs h ih =>
    -- the character joins the literal piece after it, if there is one
    unfold push
    split
    · next text later he =>
      have start : c :: text <+: c :: cs := List.cons_prefix_cons.mpr ⟨rfl, ih.1 text later he⟩
      refine ⟨?_, ?_⟩
      · rintro text' later' he'
        cases he'
        exact start
      · rintro text' ht
        rcases List.mem_cons.mp ht with he' | ht
        · cases he'
          exact start.isInfix
        · exact List.infix_cons (ih.2 text' (he ▸ List.mem_cons_of_mem _ ht))
    · refine ⟨?_, ?_⟩
      · rintro text' later' he'
        cases he'
        exact List.cons_prefix_cons.mpr ⟨rfl, List.nil_prefix⟩
      · rintro text' ht
        rcases List.mem_cons.mp ht with he' | ht
        · cases he'
          exact (List.cons_prefix_cons.mpr ⟨rfl, List.nil_prefix⟩).isInfix
        · exact List.infix_cons (ih.2 text' ht)

theorem splitEmbedded?_closed {text inner rest : List Char} (h : splitEmbedded? text = some (inner, rest)) :
    '}' ∉ inner := by
  unfold splitEmbedded? at h
  split at h
  · split at h
    · cases h
    · cases h
      intro mem
      simpa using List.mem_takeWhile_imp mem
  · cases h

/-- A character in front changes the literal pieces only. -/
theorem embedded_mem_push {c : Char} {source : List Char} {segments : List Segment}
    (h : .embedded source ∈ push c segments) : .embedded source ∈ segments := by
  unfold push at h
  split at h
  · rcases List.mem_cons.mp h with same | h
    · cases same
    · exact List.mem_cons_of_mem _ h
  · rcases List.mem_cons.mp h with same | h
    · cases same
    · exact h

/-- An embedded piece holds no closing brace. -/
theorem embedded_closed {cs source : List Char} (h : .embedded source ∈ ofText cs) : '}' ∉ source := by
  fun_induction ofText cs with
  | case1 cs inner rest hs ih =>
    rcases List.mem_cons.mp h with same | h
    · cases same
      exact splitEmbedded?_closed hs
    · exact ih h
  | case2 => cases h
  | case3 c cs _ ih => exact ih (embedded_mem_push h)

/-- Every embedded piece stands in the text between its braces. -/
theorem embedded_pieces {cs source : List Char} (h : .embedded source ∈ ofText cs) :
    '$' :: '{' :: source ++ ['}'] <:+: cs := by
  fun_induction ofText cs with
  | case1 cs inner rest hs ih =>
    have whole : cs = ('$' :: '{' :: inner ++ ['}']) ++ rest := by
      rw [splitEmbedded?_append hs]
      simp
    rw [whole]
    rcases List.mem_cons.mp h with he | h
    · cases he
      exact (List.prefix_append _ rest).isInfix
    · exact (ih h).trans (List.suffix_append _ rest).isInfix
  | case2 => cases h
  | case3 c cs _ ih => exact List.infix_cons (ih (embedded_mem_push h))

end Segment

end Screenplay
