/-
The denylist and pieces of texts: a text is free of the denylist if no pattern stands anywhere in it,
case ignored, so every piece of such a text is free of it. A call is told by the bracket after its name.
-/
import Screenplay.Policy

namespace Screenplay

open Screenplay.Text

/-! ## Pieces of texts -/

theorem Text.fold_append (cs ds : List Char) : fold (cs ++ ds) = fold cs ++ fold ds :=
  List.flatMap_append

theorem Text.fold_piece {cs ds : List Char} (h : cs <:+: ds) : fold cs <:+: fold ds := by
  obtain ⟨before, after, rfl⟩ := h
  rw [fold_append, fold_append]
  exact ⟨fold before, fold after, rfl⟩

namespace Policy

variable {policy : Policy}

theorem findBlocked_eq_none {text : String} :
    policy.findBlocked text = none ↔
      ∀ pattern ∈ policy.patterns, ¬ pattern.toList <:+: fold text.toList := by
  unfold findBlocked
  rw [List.find?_eq_none]
  exact forall₂_congr fun pattern _ => not_congr (occurs_iff _ _)

/-- A piece of a text that is free of the denylist is free of it. -/
theorem findBlocked_of_piece {text piece : String} (h : policy.findBlocked text = none)
    (hp : piece.toList <:+: text.toList) : policy.findBlocked piece = none := by
  rw [findBlocked_eq_none] at h ⊢
  exact fun pattern hm hi => h pattern hm (hi.trans (fold_piece hp))

/-! ## Names of calls -/

/-- The words that the denylist only forbids as the name of a call, with a bracket after it. -/
def callWords : List String := ["compile", "fork", "globals", "locals", "open"]

/-- The patterns that end in a bracket are the words of calls with the bracket. -/
theorem pattern_of_bracket :
    ∀ pattern ∈ denylist, pattern.toList.getLast? = some '(' →
      ∃ word ∈ callWords, pattern.toList = word.toList ++ ['('] := by
  decide

theorem patterns_subset (level : Level) : (ofLevel level).patterns ⊆ denylist := by
  cases level
  · exact List.Subset.refl _
  · exact List.filter_sublist.subset
  · exact List.Subset.refl _

/-- The words of calls are forbidden at every level. -/
theorem callWords_denied (level : Level) :
    ∀ word ∈ callWords, ∃ pattern ∈ (ofLevel level).patterns,
      pattern.toList = word.toList ++ ['('] := by
  cases level <;> decide

/-- The name of a call that is free of the denylist by itself is free of it with the bracket exactly if
it does not end in a word that the denylist forbids there. -/
theorem findBlocked_bracket {level : Level} {name : String}
    (h : (ofLevel level).findBlocked name = none) :
    (ofLevel level).findBlocked (name ++ "(") = none ↔
      ∀ word ∈ callWords, ¬ word.toList <:+ fold name.toList := by
  have hb : fold (name ++ "(").toList = fold name.toList ++ ['('] := by
    rw [String.toList_append, fold_append]
    rfl
  rw [findBlocked_eq_none] at h ⊢
  rw [hb]
  constructor
  · intro hn word hw hs
    obtain ⟨pattern, hm, hp⟩ := callWords_denied level word hw
    refine hn pattern hm (List.infix_concat_iff.mpr (.inl ?_))
    rw [hp]
    obtain ⟨before, he⟩ := hs
    exact ⟨before, by rw [← List.append_assoc, he]⟩
  · intro hn pattern hm hi
    rcases List.infix_concat_iff.mp hi with hs | hi
    · -- a pattern that stands at the end is nothing or reaches the bracket
      rcases List.suffix_concat_iff.mp hs with he | ⟨stem, he, hs⟩
      · exact h pattern hm (he ▸ List.nil_infix)
      · obtain ⟨word, hw, hp⟩ :=
          pattern_of_bracket pattern (patterns_subset level hm) (by simp [he])
        rw [he] at hp
        exact hn word hw (List.append_cancel_right hp ▸ hs)
    · exact h pattern hm hi

end Policy

end Screenplay
