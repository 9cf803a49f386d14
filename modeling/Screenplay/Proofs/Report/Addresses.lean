/-
The addresses in a running text. The search from left to right finds exactly the longest ones: what stands
in the text as an address and is part of no longer address there.
-/
import Mathlib.Data.List.TakeWhile
import Screenplay.Report.Finding

namespace Screenplay.Finding

/-! ## Addresses -/

/-- A scheme with some text after it, without a character that ends an address. -/
def IsAddress (url : List Char) : Prop :=
  ∃ scheme ∈ [plainScheme, "https://".toList], ∃ tail, tail ≠ [] ∧ scheme ++ tail = url ∧
    ∀ c ∈ url, isUrlChar c = true

/-- An address that stands in a text and is part of no longer address there. -/
def AddressIn (text url : List Char) : Prop :=
  IsAddress url ∧ ∃ before after, before ++ url ++ after = text ∧
    ∀ left right, left <:+ before → right <+: after → IsAddress (left ++ url ++ right) →
      left = [] ∧ right = []

theorem IsAddress.ne_nil {url : List Char} (h : IsAddress url) : url ≠ [] := by
  obtain ⟨scheme, -, tail, hne, rfl, -⟩ := h
  simp [hne]

theorem IsAddress.all {url : List Char} (h : IsAddress url) : ∀ c ∈ url, isUrlChar c = true := by
  obtain ⟨-, -, -, -, -, all⟩ := h
  exact all

theorem afterScheme?_eq_some {text rest : List Char} :
    afterScheme? text = some rest ↔ ∃ scheme ∈ [plainScheme, "https://".toList], scheme ++ rest = text := by
  constructor
  · intro h
    unfold afterScheme? at h
    split at h
    · cases h
      exact ⟨_, List.mem_cons_self, rfl⟩
    · cases h
      exact ⟨_, List.mem_cons_of_mem _ List.mem_cons_self, rfl⟩
    · cases h
  · rintro ⟨scheme, hs, rfl⟩
    rcases List.mem_cons.mp hs with rfl | hs
    · rfl
    · cases List.mem_singleton.mp hs
      rfl

/-- What ends where a condition first fails is the part of a text that satisfies it. -/
theorem takeWhile_eq_of_ends {p : Char → Bool} {part rest : List Char} (all : ∀ c ∈ part, p c = true)
    (ends : ∀ c, rest.head? = some c → p c = false) : (part ++ rest).takeWhile p = part := by
  rw [List.takeWhile_append_of_pos all]
  cases rest with
  | nil => simp
  | cons c cs => simp [ends c rfl]

theorem ends_dropWhile (p : Char → Bool) (text : List Char) :
    ∀ c, (text.dropWhile p).head? = some c → p c = false := by
  intro c hc
  have := List.head?_dropWhile_not p text
  rw [hc] at this
  exact this

/-! ## The search -/

theorem urlsFrom_eq_drop (skip : Nat) (text : List Char) : urlsFrom skip text = urls (text.drop skip) := by
  induction text generalizing skip with
  | nil => simp [urls, urlsFrom]
  | cons c cs ih =>
    cases skip with
    | zero => rfl
    | succ skip => rw [urlsFrom, ih, List.drop_succ_cons]

/-- The longest address at the beginning of a text that starts with a scheme. -/
theorem isAddress_takeWhile {scheme : List Char} (hs : scheme ∈ [plainScheme, "https://".toList])
    {rest : List Char} (h : rest.takeWhile isUrlChar ≠ []) :
    IsAddress (scheme ++ rest.takeWhile isUrlChar) := by
  refine ⟨scheme, hs, _, h, rfl, fun c hc => ?_⟩
  rcases List.mem_append.mp hc with hc | hc
  · have all : ∀ scheme ∈ [plainScheme, "https://".toList], scheme.all isUrlChar = true := by decide
    exact List.all_eq_true.mp (all scheme hs) c hc
  · exact List.mem_takeWhile_imp hc

/-- Where no address starts, the search goes on with the next character. -/
theorem urls_cons {c : Char} {cs : List Char} (h : ∀ url, url <+: c :: cs → ¬ IsAddress url) :
    urls (c :: cs) = urls cs := by
  rw [urls, urlsFrom]
  split
  · rfl
  · next rest hr =>
    obtain ⟨scheme, hs, ht⟩ := afterScheme?_eq_some.mp hr
    have none : rest.takeWhile isUrlChar = [] := by
      by_contra hn
      refine h _ ?_ (isAddress_takeWhile hs hn)
      rw [← ht]
      exact (List.prefix_append_right_inj scheme).mpr (List.takeWhile_prefix _)
    rw [none]
    rfl

/-- Where an address starts that cannot be longer, the search goes on after it. -/
theorem urls_append {url rest : List Char} (h : IsAddress url)
    (ends : ∀ c, rest.head? = some c → isUrlChar c = false) : urls (url ++ rest) = url :: urls rest := by
  obtain ⟨scheme, hs, tail, hne, rfl, all⟩ := h
  have after : afterScheme? (scheme ++ tail ++ rest) = some (tail ++ rest) :=
    afterScheme?_eq_some.mpr ⟨scheme, hs, (List.append_assoc ..).symm⟩
  have longest : (tail ++ rest).takeWhile isUrlChar = tail :=
    takeWhile_eq_of_ends (fun c hc => all c (List.mem_append_right _ hc)) ends
  obtain ⟨c, cs, hc⟩ := List.exists_cons_of_ne_nil (List.append_ne_nil_of_right_ne_nil scheme hne)
  have whole : (scheme ++ tail ++ rest).take
      ((scheme ++ tail ++ rest).length - (tail ++ rest).length + tail.length) = scheme ++ tail := by
    have size : (scheme ++ tail ++ rest).length - (tail ++ rest).length + tail.length =
        (scheme ++ tail).length := by
      simp only [List.length_append]
      omega
    rw [size, List.take_left]
  rw [hc] at after whole ⊢
  rw [urls, List.cons_append, urlsFrom]
  rw [List.cons_append] at after whole
  simp only [after, longest, whole, List.isEmpty_iff, hne, if_false]
  rw [urlsFrom_eq_drop, List.length_cons, Nat.add_sub_cancel, List.drop_left]

/-- A text starts with an address that cannot be longer, or it starts with none. -/
theorem starts_or_not (text : List Char) :
    (∃ url rest, text = url ++ rest ∧ IsAddress url ∧ ∀ c, rest.head? = some c → isUrlChar c = false) ∨
      ∀ url, url <+: text → ¬ IsAddress url := by
  by_cases h : ∃ url, url <+: text ∧ IsAddress url
  · obtain ⟨_, ⟨more, rfl⟩, scheme, hs, tail, hne, rfl, all⟩ := h
    refine .inl ⟨scheme ++ (tail ++ more).takeWhile isUrlChar, (tail ++ more).dropWhile isUrlChar, ?_,
      isAddress_takeWhile hs ?_, ends_dropWhile _ _⟩
    · rw [List.append_assoc, List.append_assoc, List.takeWhile_append_dropWhile]
    · rw [List.takeWhile_append_of_pos fun c hc => all c (List.mem_append_right _ hc)]
      exact List.append_ne_nil_of_left_ne_nil hne _
  · exact .inr fun url hp ha => h ⟨url, hp, ha⟩

/-! ## What is found -/

theorem not_addressIn_nil (url : List Char) : ¬ AddressIn [] url := by
  rintro ⟨ha, before, after, h, -⟩
  simp [ha.ne_nil] at h

/-- Where no address starts, the addresses of a text are those after the first character. -/
theorem addressIn_cons {c : Char} {cs : List Char} (h : ∀ url, url <+: c :: cs → ¬ IsAddress url)
    {url : List Char} : AddressIn (c :: cs) url ↔ AddressIn cs url := by
  constructor
  · rintro ⟨ha, before, after, ht, longest⟩
    cases before with
    | nil => exact absurd ha (h url ⟨after, ht⟩)
    | cons d before =>
      obtain ⟨rfl, rfl⟩ := List.cons.inj ht
      refine ⟨ha, before, after, rfl, fun left right hl => ?_⟩
      exact longest left right (hl.trans (List.suffix_cons _ _))
  · rintro ⟨ha, before, after, rfl, longest⟩
    refine ⟨ha, c :: before, after, rfl, fun left right hl hr hw => ?_⟩
    rcases List.suffix_cons_iff.mp hl with rfl | hl
    · obtain ⟨more, rfl⟩ := hr
      exact absurd hw (h _ ⟨more, by simp⟩)
    · exact longest left right hl hr hw

/-- Where an address starts that cannot be longer, the addresses of a text are this one and those after it. -/
theorem addressIn_append {first rest : List Char} (h : IsAddress first)
    (ends : ∀ c, rest.head? = some c → isUrlChar c = false) {url : List Char} :
    AddressIn (first ++ rest) url ↔ url = first ∨ AddressIn rest url := by
  have stop {more : List Char} (hp : more <+: rest) (all : ∀ c ∈ more, isUrlChar c = true) : more = [] := by
    obtain ⟨last, rfl⟩ := hp
    cases more with
    | nil => rfl
    | cons c cs => exact absurd (all c List.mem_cons_self) (by simp [ends c rfl])
  constructor
  · rintro ⟨ha, before, after, ht, longest⟩
    rw [List.append_assoc] at ht
    rcases List.append_eq_append_iff.mp ht with ⟨a, rfl, hs⟩ | ⟨later, rfl, rfl⟩
    · -- it starts in the first address, so it ends there, and is that address
      have inside : ∃ b, a = url ++ b ∧ after = b ++ rest := by
        rcases List.append_eq_append_iff.mp hs with inside | ⟨b, rfl, rfl⟩
        · exact inside
        · have none := stop (List.prefix_append b after) fun c hc => ha.all c (List.mem_append_right _ hc)
          exact ⟨[], by simp [none], by simp [none]⟩
      obtain ⟨b, rfl, rfl⟩ := inside
      rw [← List.append_assoc] at h
      obtain ⟨rfl, rfl⟩ := longest before b List.suffix_rfl (List.prefix_append b rest) h
      exact .inl (by simp)
    · refine .inr ⟨ha, later, after, by simp, fun left right hl => ?_⟩
      exact longest left right (hl.trans (List.suffix_append first later))
  · rintro (rfl | ⟨ha, before, after, rfl, longest⟩)
    · refine ⟨h, [], rest, by simp, fun left right hl hr hw => ⟨List.suffix_nil.mp hl, ?_⟩⟩
      exact stop hr fun c hc => hw.all c (List.mem_append_right _ hc)
    · refine ⟨ha, first ++ before, after, by simp, fun left right hl hr hw => ?_⟩
      rcases List.suffix_or_suffix_of_suffix hl (List.suffix_append first before) with hl | ⟨more, rfl⟩
      · exact longest left right hl hr hw
      · -- it would run over the character that ends the first address
        have none : before ++ url = [] := stop (List.prefix_append _ after) fun c hc => by
          refine hw.all c (List.mem_append_left _ ?_)
          rw [List.append_assoc]
          exact List.mem_append_right _ hc
        exact absurd (List.append_eq_nil_iff.mp none).2 ha.ne_nil

/-- The search finds exactly the longest addresses. -/
theorem mem_urls {text url : List Char} : url ∈ urls text ↔ AddressIn text url := by
  induction h : text.length using Nat.strong_induction_on generalizing text with
  | _ n ih =>
    rcases starts_or_not text with ⟨first, rest, rfl, ha, ends⟩ | none
    · have shorter : rest.length < n := by
        have := List.length_pos_iff.mpr ha.ne_nil
        rw [← h, List.length_append]
        omega
      rw [urls_append ha ends, List.mem_cons, ih _ shorter rfl, addressIn_append ha ends]
    · cases text with
      | nil => exact iff_of_false List.not_mem_nil (not_addressIn_nil url)
      | cons c cs =>
        rw [urls_cons none, addressIn_cons none, ih _ (h ▸ Nat.lt_succ_self _) rfl]

end Screenplay.Finding
