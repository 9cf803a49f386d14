/-
Documents in the order of their keys. Sorting the entries of objects when a document is written is
writing a sorted document as it is, so the text of a document tells it up to the order of its entries.
-/
import Screenplay.Proofs.Json.Texts
import Mathlib.Data.List.Sort

namespace Screenplay.Json

/-! ## Sorted entries -/

section Entries

variable {α β : Type}

/-- Entries with something done to the value of each. -/
def mapEntries (f : α → β) (entries : List (String × α)) : List (String × β) :=
  entries.map fun e => (e.1, f e.2)

theorem insertEntry_map (f : α → β) (e : String × α) (es : List (String × α)) :
    insertEntry (e.1, f e.2) (mapEntries f es) = mapEntries f (insertEntry e es) := by
  induction es with
  | nil => rfl
  | cons first es ih =>
    show (if e.1 ≤ first.1 then _ else (first.1, f first.2) :: insertEntry _ (mapEntries f es)) = _
    rw [ih, insertEntry]
    split
    · rfl
    · rfl

/-- The values have no part in the order of entries. -/
theorem sortEntries_map (f : α → β) (es : List (String × α)) :
    sortEntries (mapEntries f es) = mapEntries f (sortEntries es) := by
  induction es with
  | nil => rfl
  | cons e es ih =>
    show insertEntry (e.1, f e.2) (sortEntries (mapEntries f es)) = _
    rw [ih, insertEntry_map]
    rfl

theorem insertEntry_perm (e : String × α) (es : List (String × α)) : (insertEntry e es).Perm (e :: es) := by
  induction es with
  | nil => exact .refl _
  | cons first es ih =>
    unfold insertEntry
    split
    · exact .refl _
    · exact (ih.cons first).trans (.swap e first es)

theorem sortEntries_perm (es : List (String × α)) : (sortEntries es).Perm es := by
  induction es with
  | nil => exact .refl _
  | cons e es ih => exact (insertEntry_perm e _).trans (ih.cons e)

theorem insertEntry_pairwise (e : String × α) {es : List (String × α)}
    (h : es.Pairwise fun a b => a.1 ≤ b.1) : (insertEntry e es).Pairwise fun a b => a.1 ≤ b.1 := by
  induction es with
  | nil => exact List.pairwise_singleton _ _
  | cons first es ih =>
    rw [List.pairwise_cons] at h
    unfold insertEntry
    split
    · rename_i hle
      refine List.pairwise_cons.mpr ⟨fun a ha => ?_, List.pairwise_cons.mpr h⟩
      rcases List.mem_cons.mp ha with rfl | ha
      · exact hle
      · exact String.le_trans hle (h.1 a ha)
    · rename_i hlt
      refine List.pairwise_cons.mpr ⟨fun a ha => ?_, ih h.2⟩
      rcases List.mem_cons.mp ((insertEntry_perm e es).mem_iff.mp ha) with rfl | ha
      · exact (String.le_total _ _).resolve_left hlt
      · exact h.1 a ha

theorem sortEntries_pairwise (es : List (String × α)) :
    (sortEntries es).Pairwise fun a b => a.1 ≤ b.1 := by
  induction es with
  | nil => exact .nil
  | cons e es ih => exact insertEntry_pairwise e ih

/-- Entries that are in order stay where they are. -/
theorem sortEntries_of_pairwise {es : List (String × α)} (h : es.Pairwise fun a b => a.1 ≤ b.1) :
    sortEntries es = es := by
  induction es with
  | nil => rfl
  | cons e es ih =>
    rw [List.pairwise_cons] at h
    show insertEntry e (sortEntries es) = e :: es
    rw [ih h.2]
    cases es with
    | nil => rfl
    | cons first es => rw [insertEntry, if_pos (h.1 first List.mem_cons_self)]

theorem sortEntries_sortEntries (es : List (String × α)) : sortEntries (sortEntries es) = sortEntries es :=
  sortEntries_of_pairwise (sortEntries_pairwise es)

/-- Entries with different keys are sorted in the same way exactly if they are the same up to their
order. -/
theorem sortEntries_eq_iff {es fs : List (String × α)} (distinct : (es.map (·.1)).Nodup) :
    sortEntries es = sortEntries fs ↔ es.Perm fs := by
  constructor
  · intro h
    have perm := sortEntries_perm fs
    rw [← h] at perm
    exact (sortEntries_perm es).symm.trans perm
  · intro h
    have perm : (sortEntries es).Perm (sortEntries fs) :=
      ((sortEntries_perm es).trans h).trans (sortEntries_perm fs).symm
    refine perm.eq_of_pairwise ?_ (sortEntries_pairwise es) (sortEntries_pairwise fs)
    intro a b ha hb le ge
    have hab : a.1 = b.1 := String.le_antisymm le ge
    have hb' : b ∈ sortEntries es := perm.mem_iff.mpr hb
    exact List.inj_on_of_nodup_map distinct ((sortEntries_perm es).mem_iff.mp ha)
      ((sortEntries_perm es).mem_iff.mp hb') hab

theorem get?_insertEntry (e : String × α) (es : List (String × α)) (key : String) :
    Entries.get? (insertEntry e es) key = Entries.get? (e :: es) key := by
  induction es with
  | nil => rfl
  | cons first es ih =>
    unfold insertEntry
    split
    · rfl
    · rename_i hlt
      unfold Entries.get? at ih ⊢
      simp only [List.find?_cons] at ih ⊢
      by_cases hf : first.1 = key
      · have he : (e.1 == key) = false := by
          rw [beq_eq_false_iff_ne]
          rintro rfl
          exact hlt (hf ▸ String.le_refl _)
        simp [hf, he]
      · have hf' : (first.1 == key) = false := by simpa using hf
        simpa [hf'] using ih

/-- Sorting entries does not move a key in front of an equal one. -/
theorem get?_sortEntries (es : List (String × α)) (key : String) :
    Entries.get? (sortEntries es) key = Entries.get? es key := by
  induction es with
  | nil => rfl
  | cons e es ih =>
    show Entries.get? (insertEntry e (sortEntries es)) key = _
    rw [get?_insertEntry]
    unfold Entries.get? at ih ⊢
    simp only [List.find?_cons]
    split
    · rfl
    · exact ih

theorem get?_mapEntries (f : α → β) (es : List (String × α)) (key : String) :
    Entries.get? (mapEntries f es) key = (Entries.get? es key).map f := by
  unfold Entries.get? mapEntries
  rw [List.find?_map]
  simp [Function.comp_def]

end Entries

/-! ## Sorted documents -/

mutual

/-- A document with the entries of its objects in the order of their keys. -/
def sorted : Json → Json
  | null => null
  | bool b => bool b
  | int n => int n
  | float x => float x
  | text s => text s
  | list items => list (sortedItems items)
  | object entries => object (sortEntries (sortedEntries entries))

/-- Some documents, each sorted. -/
def sortedItems : List Json → List Json
  | [] => []
  | j :: js => sorted j :: sortedItems js

/-- Entries as they are, with sorted values. -/
def sortedEntries : List (String × Json) → List (String × Json)
  | [] => []
  | (k, j) :: es => (k, sorted j) :: sortedEntries es

end

theorem sortedItems_eq (js : List Json) : sortedItems js = js.map sorted := by
  induction js with
  | nil => rfl
  | cons j js ih => rw [sortedItems, ih, List.map_cons]

theorem sortedEntries_eq (es : List (String × Json)) : sortedEntries es = mapEntries sorted es := by
  induction es with
  | nil => rfl
  | cons e es ih =>
    rw [sortedEntries, ih]
    rfl

mutual

/-- Sorting a document a second time changes nothing. -/
theorem sorted_sorted : ∀ j : Json, j.sorted.sorted = j.sorted
  | null | bool _ | int _ | float _ | text _ => rfl
  | list items => by
    rw [sorted, sorted, sortedItems_sortedItems items]
  | object entries => by
    have again := sortedEntries_sortedEntries entries
    rw [sortedEntries_eq] at again
    rw [sorted, sorted, sortedEntries_eq (sortEntries _), ← sortEntries_map, again, sortEntries_sortEntries]

theorem sortedItems_sortedItems : ∀ js : List Json, sortedItems (sortedItems js) = sortedItems js
  | [] => rfl
  | j :: js => by
    rw [sortedItems, sortedItems, sorted_sorted j, sortedItems_sortedItems js]

theorem sortedEntries_sortedEntries :
    ∀ es : List (String × Json), sortedEntries (sortedEntries es) = sortedEntries es
  | [] => rfl
  | (k, j) :: es => by
    rw [sortedEntries, sortedEntries, sorted_sorted j, sortedEntries_sortedEntries es]

end

/-! ## Texts -/

/-- A style that writes the entries of objects as they are. -/
def Style.asGiven (style : Style) : Style := { style with sorted := false }

variable {style : Style}

mutual

/-- A document written with its entries sorted is the sorted document written as it is. -/
theorem chars_sorted (hs : style.sorted = true) (depth : ℕ) :
    ∀ j, chars style depth j = chars style.asGiven depth j.sorted
  | null | bool _ | int _ | float _ | text _ => rfl
  | list items => by
    rw [sorted, chars, chars, itemChars_sorted hs (depth + 1) items]
    rfl
  | object entries => by
    have written := valueChars_sorted hs (depth + 1) entries
    rw [valueChars_eq, valueChars_eq] at written
    -- the writer sorts the written values, the sorted document has its values sorted before
    rw [sorted, chars_object (rfl : style.asGiven.sorted = false), chars, valueChars_eq, written,
      if_pos hs]
    have moved := sortEntries_map (chars style.asGiven (depth + 1)) (sortedEntries entries)
    unfold mapEntries at moved
    rw [moved, List.map_map]
    rfl

theorem itemChars_sorted (hs : style.sorted = true) (depth : ℕ) :
    ∀ js, itemChars style depth js = itemChars style.asGiven depth (sortedItems js)
  | [] => rfl
  | j :: js => by
    rw [sortedItems, itemChars, itemChars, chars_sorted hs depth j, itemChars_sorted hs depth js]

theorem valueChars_sorted (hs : style.sorted = true) (depth : ℕ) :
    ∀ es, valueChars style depth es = valueChars style.asGiven depth (sortedEntries es)
  | [] => rfl
  | (k, j) :: es => by
    rw [sortedEntries, valueChars, valueChars, chars_sorted hs depth j, valueChars_sorted hs depth es]

end

/-- Two documents have the same sorted text exactly if they are equal up to the order of their entries. -/
theorem render_eq_iff (hs : style.sorted = true) {j k : Json} :
    j.render style = k.render style ↔ j.sorted = k.sorted := by
  constructor
  · intro h
    have same : chars style 0 j = chars style 0 k := String.ofList_injective h
    rw [chars_sorted hs, chars_sorted hs] at same
    have ends : Delimited [] := by
      intro c hc
      cases hc
    have whole := tells_chars (rfl : style.asGiven.sorted = false) 0 j.sorted k.sorted [] [] ends ends
    rw [List.append_nil, List.append_nil] at whole
    exact (whole same).1
  · intro h
    unfold render
    rw [chars_sorted hs, chars_sorted hs, h]

/-! ## Fields -/

/-- The field of an object under a key. -/
def field? (key : String) : Json → Option Json
  | object entries => Entries.get? entries key
  | _ => none

theorem field?_sorted (key : String) (j : Json) : j.sorted.field? key = (j.field? key).map sorted := by
  cases j with
  | object entries =>
    show Entries.get? (sortEntries (sortedEntries entries)) key = (Entries.get? entries key).map sorted
    rw [get?_sortEntries, sortedEntries_eq, get?_mapEntries]
  | _ => rfl

variable {j k : Json}

/-- Documents that are equal up to the order of their entries have fields that are. -/
theorem field_eq (h : j.sorted = k.sorted) (key : String) {a b : Json} (ha : j.field? key = some a)
    (hb : k.field? key = some b) : a.sorted = b.sorted := by
  have same := field?_sorted key j
  rw [h, field?_sorted, ha, hb] at same
  exact (Option.some.inj same).symm

theorem text_eq {s t : String} (h : (text s).sorted = (text t).sorted) : s = t := Json.text.inj h

theorem items_eq {js ks : List Json} (h : (list js).sorted = (list ks).sorted) :
    js.map sorted = ks.map sorted := by
  have same := Json.list.inj h
  rwa [sortedItems_eq, sortedItems_eq] at same

theorem entries_eq {es fs : List (String × Json)} (h : (object es).sorted = (object fs).sorted) :
    mapEntries sorted (sortEntries es) = mapEntries sorted (sortEntries fs) := by
  have same := Json.object.inj h
  rwa [sortedEntries_eq, sortedEntries_eq, sortEntries_map, sortEntries_map] at same

end Screenplay.Json
