/-
Reading documents back from their texts: a document can be told from its text, also from the start of a
longer one, as long as the entries of objects are written as given. Quoted texts and brackets close
themselves, and the other texts end before a delimiter.
-/
import Screenplay.Proofs.Json.Numbers

namespace Screenplay.Json

variable {c d : Char} {r s u v : List Char}

/-! ## Quoted texts -/

theorem digitChar_inj {a b : ℕ} (ha : a < 16) (hb : b < 16) (h : a.digitChar = b.digitChar) : a = b := by
  have all : ∀ a b : Fin 16, (a : ℕ).digitChar = (b : ℕ).digitChar → a = b := by decide
  exact congrArg Fin.val (all ⟨a, ha⟩ ⟨b, hb⟩ h)

/-- The four hexadecimal digits of a code unit. -/
theorem hex_four {n : ℕ} (hn : n < 0x10000) :
    Text.hex 4 n = [(n / 0x1000).digitChar, (n / 0x100 % 16).digitChar, (n / 0x10 % 16).digitChar,
      (n % 16).digitChar] := by
  have split (k : ℕ) : Nat.toDigits 16 k
      = if k < 16 then [k.digitChar] else Nat.toDigits 16 (k / 16) ++ [(k % 16).digitChar] :=
    Nat.toDigits_eq_if (by decide)
  unfold Text.hex
  dsimp only
  -- by the number of digits that are not filled in
  by_cases h1 : n < 16
  · rw [split n, if_pos h1]
    have e1 : n / 0x1000 = 0 := by omega
    have e2 : n / 0x100 % 16 = 0 := by omega
    have e3 : n / 0x10 % 16 = 0 := by omega
    have e4 : n % 16 = n := by omega
    rw [e1, e2, e3, e4]
    rfl
  by_cases h2 : n < 0x100
  · rw [split n, if_neg h1, split (n / 16), if_pos (by omega)]
    have e1 : n / 0x1000 = 0 := by omega
    have e2 : n / 0x100 % 16 = 0 := by omega
    have e3 : n / 0x10 % 16 = n / 16 := by omega
    rw [e1, e2, e3]
    rfl
  by_cases h3 : n < 0x1000
  · rw [split n, if_neg h1, split (n / 16), if_neg (by omega), split (n / 16 / 16), if_pos (by omega)]
    have e1 : n / 0x1000 = 0 := by omega
    have e2 : n / 0x100 % 16 = n / 16 / 16 := by omega
    rw [e1, e2]
    rfl
  · rw [split n, if_neg h1, split (n / 16), if_neg (by omega), split (n / 16 / 16), if_neg (by omega),
      split (n / 16 / 16 / 16), if_pos (by omega)]
    have e1 : n / 0x1000 = n / 16 / 16 / 16 := by omega
    have e2 : n / 0x100 % 16 = n / 16 / 16 % 16 := by omega
    rw [e1, e2]
    rfl

/-- An escaped code unit closes itself. -/
theorem unitEscape_unique {n m : ℕ} (hn : n < 0x10000) (hm : m < 0x10000)
    (h : unitEscape n ++ r = unitEscape m ++ s) : n = m ∧ r = s := by
  unfold unitEscape at h
  rw [hex_four hn, hex_four hm] at h
  simp only [List.cons_append, List.nil_append, List.cons.injEq, true_and] at h
  obtain ⟨h1, h2, h3, h4, hr⟩ := h
  have d1 := digitChar_inj (by omega) (by omega) h1
  have d2 := digitChar_inj (by omega) (by omega) h2
  have d3 := digitChar_inj (by omega) (by omega) h3
  have d4 := digitChar_inj (by omega) (by omega) h4
  exact ⟨by omega, hr⟩

theorem toNat_bounds (c : Char) : c.toNat < 0xd800 ∨ 0xdfff < c.toNat ∧ c.toNat < 0x110000 := c.valid

/-- An escaped character closes itself: the first of two code units is a surrogate, and no character
is. -/
theorem charEscape_unique (h : charEscape c ++ r = charEscape d ++ s) : c = d ∧ r = s := by
  have hc := toNat_bounds c
  have hd := toNat_bounds d
  unfold charEscape at h
  dsimp only at h
  by_cases hc' : c.toNat < 0x10000
  · rw [if_pos hc'] at h
    by_cases hd' : d.toNat < 0x10000
    · rw [if_pos hd'] at h
      obtain ⟨hn, hr⟩ := unitEscape_unique hc' hd' h
      exact ⟨Char.toNat_inj.mp hn, hr⟩
    · rw [if_neg hd', List.append_assoc] at h
      have := (unitEscape_unique hc' (by omega) h).1
      omega
  · rw [if_neg hc', List.append_assoc] at h
    by_cases hd' : d.toNat < 0x10000
    · rw [if_pos hd'] at h
      have := (unitEscape_unique (by omega) hd' h).1
      omega
    · rw [if_neg hd', List.append_assoc] at h
      obtain ⟨high, h⟩ := unitEscape_unique (by omega) (by omega) h
      obtain ⟨low, hr⟩ := unitEscape_unique (by omega) (by omega) h
      exact ⟨Char.toNat_inj.mp (by omega), hr⟩

/-- The character that a letter after a backslash stands for. -/
def escapeMeaning (letter : Char) : Char :=
  if letter = 'n' then '\n'
  else if letter = 'r' then '\r'
  else if letter = 't' then '\t'
  else if letter = 'b' then '\x08'
  else if letter = 'f' then '\x0c'
  else letter

/-- The ways to write a character between quotation marks. -/
inductive Escape (c : Char) : List Char → Prop
  | plain (hs : c ≠ '\\') (hq : c ≠ '"') : Escape c [c]
  | letter {x : Char} (hu : x ≠ 'u') (hc : c = escapeMeaning x) : Escape c ['\\', x]
  | units : Escape c (charEscape c)

theorem escape_escaped (ascii : Bool) (c : Char) : Escape c (escaped ascii c) := by
  unfold escaped
  by_cases mark : c = '"' ∨ c = '\\'
  · rw [if_pos mark]
    obtain rfl | rfl := mark
    · exact .letter (by decide) (by decide)
    · exact .letter (by decide) (by decide)
  rw [if_neg mark]
  rw [not_or] at mark
  by_cases newline : c = '\n'
  · rw [if_pos newline]
    exact .letter (by decide) (newline.trans (by decide))
  rw [if_neg newline]
  by_cases carriage : c = '\r'
  · rw [if_pos carriage]
    exact .letter (by decide) (carriage.trans (by decide))
  rw [if_neg carriage]
  by_cases tab : c = '\t'
  · rw [if_pos tab]
    exact .letter (by decide) (tab.trans (by decide))
  rw [if_neg tab]
  by_cases back : c = '\x08'
  · rw [if_pos back]
    exact .letter (by decide) (back.trans (by decide))
  rw [if_neg back]
  by_cases form : c = '\x0c'
  · rw [if_pos form]
    exact .letter (by decide) (form.trans (by decide))
  rw [if_neg form]
  -- what has no letter of its own is written by its code units, or as it is
  by_cases hidden : c.toNat < 32 ∨ (ascii = true ∧ 127 ≤ c.toNat)
  · rw [if_pos hidden]
    exact .units
  · rw [if_neg hidden]
    exact .plain mark.2 mark.1

theorem exists_charEscape (c : Char) : ∃ cs, charEscape c = '\\' :: 'u' :: cs := by
  unfold charEscape unitEscape
  dsimp only
  split
  · exact ⟨_, rfl⟩
  · rw [List.cons_append, List.cons_append]
    exact ⟨_, rfl⟩

/-- A character between quotation marks closes itself. -/
theorem Escape.unique (hu : Escape c u) (hv : Escape d v) (h : u ++ r = v ++ s) : c = d ∧ r = s := by
  obtain ⟨cs, hcs⟩ := exists_charEscape c
  obtain ⟨ds, hds⟩ := exists_charEscape d
  -- the first two characters tell the ways to write a character apart
  cases hu with
  | plain hs hq =>
    cases hv with
    | plain => exact List.cons_eq_cons.mp h
    | letter => exact absurd (List.cons_eq_cons.mp h).1 hs
    | units =>
      rw [hds] at h
      exact absurd (List.cons_eq_cons.mp h).1 hs
  | letter hx hc =>
    cases hv with
    | plain hs => exact absurd (List.cons_eq_cons.mp h).1.symm hs
    | letter hy hd =>
      simp only [List.cons_append, List.nil_append, List.cons.injEq, true_and] at h
      rw [hc, hd, h.1]
      exact ⟨rfl, h.2⟩
    | units =>
      rw [hds] at h
      simp only [List.cons_append, List.nil_append, List.cons.injEq, true_and] at h
      exact absurd h.1 hx
  | units =>
    cases hv with
    | plain hs =>
      rw [hcs] at h
      exact absurd (List.cons_eq_cons.mp h).1.symm hs
    | letter hy =>
      rw [hcs] at h
      simp only [List.cons_append, List.nil_append, List.cons.injEq, true_and] at h
      exact absurd h.1.symm hy
    | units => exact charEscape_unique h

/-- No character is written like a closing quotation mark. -/
theorem Escape.ne_mark (hu : Escape c u) : u ++ r ≠ '"' :: s := by
  intro h
  cases hu with
  | plain hs hq => exact hq (List.cons_eq_cons.mp h).1
  | letter => exact absurd (List.cons_eq_cons.mp h).1 (by decide)
  | units =>
    obtain ⟨cs, hcs⟩ := exists_charEscape c
    rw [hcs] at h
    exact absurd (List.cons_eq_cons.mp h).1 (by decide)

theorem escapedChars_unique {ascii : Bool} {cs ds : List Char}
    (h : cs.flatMap (escaped ascii) ++ '"' :: r = ds.flatMap (escaped ascii) ++ '"' :: s) :
    cs = ds ∧ r = s := by
  induction cs generalizing ds with
  | nil =>
    cases ds with
    | nil => exact ⟨rfl, (List.cons_eq_cons.mp h).2⟩
    | cons d ds =>
      rw [List.flatMap_cons, List.append_assoc] at h
      exact absurd h.symm (escape_escaped ascii d).ne_mark
  | cons c cs ih =>
    cases ds with
    | nil =>
      rw [List.flatMap_cons, List.append_assoc] at h
      exact absurd h (escape_escaped ascii c).ne_mark
    | cons d ds =>
      rw [List.flatMap_cons, List.flatMap_cons, List.append_assoc, List.append_assoc] at h
      obtain ⟨rfl, later⟩ := (escape_escaped ascii c).unique (escape_escaped ascii d) h
      obtain ⟨rfl, hr⟩ := ih later
      exact ⟨rfl, hr⟩

/-- A quoted text closes itself, and different texts are quoted differently. -/
theorem quoted_unique {ascii : Bool} {t t' : String} (h : quoted ascii t ++ r = quoted ascii t' ++ s) :
    t = t' ∧ r = s := by
  unfold quoted at h
  simp only [List.cons_append, List.append_assoc, List.nil_append, List.cons.injEq, true_and] at h
  obtain ⟨ht, hr⟩ := escapedChars_unique h
  exact ⟨String.toList_inj.mp ht, hr⟩

/-! ## Delimiters -/

/-- The characters that can follow a document inside another one. -/
def delimiters : List Char := [',', ']', '\x7d', '\n']

/-- A rest that is empty or starts with a delimiter. -/
def Delimited (r : List Char) : Prop := ∀ c ∈ r.head?, c ∈ delimiters

/-- A text that delimiters cannot stand in. -/
def Whole (u : List Char) : Prop := ∀ c ∈ u, c ∉ delimiters

/-- Two texts without delimiters that are followed by one are the same. -/
theorem Whole.unique (hu : Whole u) (hv : Whole v) (hr : Delimited r) (hs : Delimited s)
    (h : u ++ r = v ++ s) : u = v ∧ r = s := by
  induction u generalizing v with
  | nil =>
    cases v with
    | nil => exact ⟨rfl, h⟩
    | cons c v =>
      rw [List.nil_append] at h
      exact absurd (hr c (by rw [h]; rfl)) (hv c List.mem_cons_self)
  | cons c u ih =>
    cases v with
    | nil =>
      rw [List.nil_append] at h
      exact absurd (hs c (by rw [← h]; rfl)) (hu c List.mem_cons_self)
    | cons d v =>
      obtain ⟨rfl, later⟩ := List.cons_eq_cons.mp h
      obtain ⟨rfl, hr⟩ := ih (fun c hc => hu c (List.mem_cons_of_mem _ hc))
        (fun c hc => hv c (List.mem_cons_of_mem _ hc)) later
      exact ⟨rfl, hr⟩

/-! ## Words -/

/-- The documents that are written in one word, and how. -/
inductive Word : Json → List Char → Prop
  | null : Word null "null".toList
  | bool (b : Bool) : Word (bool b) (Value.boolText b).toList
  | int (n : ℤ) : Word (int n) (toString n).toList
  | float (x : Float) : Word (float x) (floatChars x)

theorem not_delimiter_of_number (h : c.isDigit = true ∨ c ∈ numberLetters) : c ∉ delimiters := by
  intro hd
  simp only [delimiters, List.mem_cons, List.not_mem_nil, or_false] at hd
  obtain rfl | rfl | rfl | rfl := hd <;> revert h <;> decide

theorem Word.whole {j : Json} (h : Word j u) : Whole u := by
  have letters {u : List Char} (hu : u.all (!delimiters.contains ·) = true) : Whole u := by
    intro c hc
    simpa using List.all_eq_true.mp hu c hc
  cases h with
  | null => exact letters (by decide)
  | bool b => cases b <;> exact letters (by decide)
  | int n =>
    intro c hc
    obtain h | rfl := mem_intChars hc
    · exact not_delimiter_of_number (.inl h)
    · decide
  | float x => exact fun c hc => not_delimiter_of_number (mem_floatChars hc)

/-- Texts in which only characters of numbers stand. -/
def Numeric (u : List Char) : Prop := ∀ c ∈ u, c.isDigit = true ∨ c ∈ numberLetters

theorem numeric_int (n : ℤ) : Numeric (toString n).toList := by
  intro c hc
  obtain h | rfl := mem_intChars hc
  · exact .inl h
  · exact .inr (by decide)

theorem numeric_float (x : Float) : Numeric (floatChars x) := fun _ hc => mem_floatChars hc

/-- The words of the literals, by a letter that no number has. -/
theorem not_numeric (h : 'l' ∈ u ∨ 'r' ∈ u) : ¬ Numeric u := by
  intro hu
  obtain h | h := h
  · exact absurd (hu _ h) (by decide)
  · exact absurd (hu _ h) (by decide)

theorem floatChars_ne_int (x : Float) (n : ℤ) : floatChars x ≠ (toString n).toList := by
  intro h
  obtain ⟨c, hc, digit, minus⟩ := exists_mark x
  rw [h] at hc
  obtain h | h := mem_intChars hc
  · rw [digit] at h
    cases h
  · exact minus h

/-- No word is that of two documents. -/
theorem Word.unique {j k : Json} (hj : Word j u) (hk : Word k v) (h : u = v) : j = k := by
  -- no other word is made of the characters of numbers
  have none : ¬ Numeric "null".toList := not_numeric (by decide)
  have truth (b : Bool) : ¬ Numeric (Value.boolText b).toList := by
    cases b
    · exact not_numeric (by decide)
    · exact not_numeric (by decide)
  cases hj with
  | null =>
    cases hk with
    | null => rfl
    | bool b => cases b <;> exact absurd h (by decide)
    | int n => exact absurd (h ▸ numeric_int n) none
    | float x => exact absurd (h ▸ numeric_float x) none
  | bool a =>
    cases hk with
    | null => cases a <;> exact absurd h (by decide)
    | bool b =>
      cases a <;> cases b
      · rfl
      · exact absurd h (by decide)
      · exact absurd h (by decide)
      · rfl
    | int n => exact absurd (h ▸ numeric_int n) (truth a)
    | float x => exact absurd (h ▸ numeric_float x) (truth a)
  | int n =>
    cases hk with
    | null => exact absurd (h ▸ numeric_int n) none
    | bool b => exact absurd (h ▸ numeric_int n) (truth b)
    | int m => rw [intChars_inj h]
    | float x => exact absurd h.symm (floatChars_ne_int x n)
  | float x =>
    cases hk with
    | null => exact absurd (h ▸ numeric_float x) none
    | bool b => exact absurd (h ▸ numeric_float x) (truth b)
    | int n => exact absurd h (floatChars_ne_int x n)
    | float y => rw [floatChars_inj h]

/-! ## Brackets -/

/-- A way to write things that tells each of them before a delimiter. -/
def Tells {α : Type} (write : α → List Char) (a : α) : Prop :=
  ∀ b r s, Delimited r → Delimited s → write a ++ r = write b ++ s → a = b ∧ r = s

section Brackets

variable {α : Type} (style : Style) (depth : ℕ) {opening closing : Char}

/-- What follows an item between brackets: the other items, the closing bracket and a rest. -/
def remainder (closing : Char) (items : List (List Char)) (r : List Char) : List Char :=
  items.flatMap (fun item => ',' :: lineBreak style (depth + 1) ++ item)
    ++ (lineBreak style depth ++ closing :: r)

theorem bracketed_nil (r : List Char) :
    bracketed style depth opening closing [] ++ r = opening :: closing :: r := rfl

theorem bracketed_cons (item : List Char) (items : List (List Char)) (r : List Char) :
    bracketed style depth opening closing (item :: items) ++ r
      = opening :: (lineBreak style (depth + 1) ++ (item ++ remainder style depth closing items r)) := by
  simp [bracketed, remainder]

theorem lineBreak_append (r : List Char) :
    lineBreak style depth ++ r = r ∨ ∃ cs, lineBreak style depth ++ r = '\n' :: cs := by
  unfold lineBreak
  split
  · exact .inr ⟨_, rfl⟩
  · exact .inl rfl

theorem remainder_nil (r : List Char) :
    remainder style depth closing [] r = lineBreak style depth ++ closing :: r := rfl

theorem remainder_cons (item : List Char) (items : List (List Char)) (r : List Char) :
    remainder style depth closing (item :: items) r
      = ',' :: (lineBreak style (depth + 1) ++ (item ++ remainder style depth closing items r)) := by
  simp [remainder]

theorem delimited_remainder (hc : closing ∈ delimiters) (items : List (List Char)) (r : List Char) :
    Delimited (remainder style depth closing items r) := by
  intro c h
  cases items with
  | nil =>
    rw [remainder_nil] at h
    obtain same | ⟨cs, same⟩ := lineBreak_append style depth (closing :: r)
    · rw [same] at h
      cases h
      exact hc
    · rw [same] at h
      cases h
      decide
  | cons item items =>
    rw [remainder_cons] at h
    cases h
    decide

variable {write : α → List Char}

/-- The remainder of a list tells its items, one after the other. -/
theorem remainder_unique (hc : closing ∈ delimiters) (hcomma : closing ≠ ',') {as bs : List α}
    (tells : ∀ a ∈ as, Tells write a)
    (h : remainder style depth closing (as.map write) r = remainder style depth closing (bs.map write) s) :
    as = bs ∧ r = s := by
  -- a list that ends goes on with its bracket or a line break and this bracket, never with a comma
  have ends (r : List Char) (item : List Char) (items : List (List Char)) (s : List Char) :
      remainder style depth closing [] r ≠ remainder style depth closing (item :: items) s := by
    intro h
    rw [remainder_nil, remainder_cons] at h
    obtain same | ⟨cs, same⟩ := lineBreak_append style depth (closing :: r)
    · rw [same] at h
      exact hcomma (List.cons_eq_cons.mp h).1
    · rw [same] at h
      exact absurd (List.cons_eq_cons.mp h).1 (by decide)
  induction as generalizing bs with
  | nil =>
    cases bs with
    | nil =>
      rw [List.map_nil, remainder_nil, remainder_nil] at h
      exact ⟨rfl, (List.cons_eq_cons.mp (List.append_cancel_left h)).2⟩
    | cons b bs => exact absurd h (ends _ _ _ _)
  | cons a as ih =>
    cases bs with
    | nil => exact absurd h.symm (ends _ _ _ _)
    | cons b bs =>
      rw [List.map_cons, List.map_cons, remainder_cons, remainder_cons] at h
      have items := List.append_cancel_left (List.cons_eq_cons.mp h).2
      obtain ⟨rfl, later⟩ := tells a List.mem_cons_self b _ _ (delimited_remainder style depth hc _ _)
        (delimited_remainder style depth hc _ _) items
      obtain ⟨rfl, hr⟩ := ih (fun a ha => tells a (List.mem_cons_of_mem _ ha)) later
      exact ⟨rfl, hr⟩

/-- Brackets tell the items between them, and close themselves. -/
theorem bracketed_unique (hc : closing ∈ delimiters) (hcomma : closing ≠ ',') (hline : closing ≠ '\n')
    {as bs : List α} (tells : ∀ a ∈ as, Tells write a)
    (starts : ∀ a, ∃ c cs, write a = c :: cs ∧ c ∉ delimiters)
    (h : bracketed style depth opening closing (as.map write) ++ r
      = bracketed style depth opening closing (bs.map write) ++ s) : as = bs ∧ r = s := by
  -- an empty list closes at once, where any other has a line break or the start of an item
  have empty (r : List Char) (b : α) (items : List (List Char)) (s : List Char) :
      bracketed style depth opening closing [] ++ r
        ≠ bracketed style depth opening closing (write b :: items) ++ s := by
    intro h
    rw [bracketed_nil, bracketed_cons] at h
    have inner := (List.cons_eq_cons.mp h).2
    obtain ⟨c, cs, hb, start⟩ := starts b
    obtain same | ⟨cs, same⟩ := lineBreak_append style (depth + 1)
      (write b ++ remainder style depth closing items s)
    · rw [same, hb] at inner
      rw [(List.cons_eq_cons.mp inner).1] at hc
      exact start hc
    · rw [same] at inner
      exact hline (List.cons_eq_cons.mp inner).1
  cases as with
  | nil =>
    cases bs with
    | nil =>
      rw [List.map_nil, bracketed_nil, bracketed_nil] at h
      simp only [List.cons.injEq, true_and] at h
      exact ⟨rfl, h⟩
    | cons b bs => exact absurd h (empty _ _ _ _)
  | cons a as =>
    cases bs with
    | nil => exact absurd h.symm (empty _ _ _ _)
    | cons b bs =>
      rw [List.map_cons, List.map_cons, bracketed_cons, bracketed_cons] at h
      have items := List.append_cancel_left (List.cons_eq_cons.mp h).2
      obtain ⟨rfl, later⟩ := tells a List.mem_cons_self b _ _ (delimited_remainder style depth hc _ _)
        (delimited_remainder style depth hc _ _) items
      obtain ⟨rfl, hr⟩ := remainder_unique style depth hc hcomma
        (fun a ha => tells a (List.mem_cons_of_mem _ ha)) later
      exact ⟨rfl, hr⟩

end Brackets

/-! ## Documents -/

/-- How the text of a document starts. -/
inductive Start where
  | word | quote | bracket | brace
deriving DecidableEq

/-- How the text of a document starts. -/
def start : Json → Start
  | null | bool _ | int _ | float _ => .word
  | text _ => .quote
  | list _ => .bracket
  | object _ => .brace

/-- What a first character says about a document. -/
def startOf (c : Char) : Start :=
  if c = '"' then .quote else if c = '[' then .bracket else if c = '\x7b' then .brace else .word

variable {style : Style}

theorem word_of_start (style : Style) {j : Json} (h : j.start = .word) (depth : ℕ) : Word j (chars style depth j) := by
  cases j with
  | null => exact .null
  | bool b => exact .bool b
  | int n => exact .int n
  | float x => exact .float x
  | text | list | object => cases h

theorem itemChars_eq (depth : ℕ) (js : List Json) : itemChars style depth js = js.map (chars style depth) := by
  induction js with
  | nil => rfl
  | cons j js ih => rw [itemChars, ih, List.map_cons]

theorem valueChars_eq (depth : ℕ) (es : List (String × Json)) :
    valueChars style depth es = es.map fun e => (e.1, chars style depth e.2) := by
  induction es with
  | nil => rfl
  | cons e es ih => rw [valueChars, ih, List.map_cons]

/-- A word starts with no delimiter, mark or bracket. -/
theorem Word.cons {j : Json} (h : Word j u) : ∃ c cs, u = c :: cs ∧ c ∉ delimiters ∧ startOf c = .word := by
  have number (hn : Numeric u) (hne : u ≠ []) :
      ∃ c cs, u = c :: cs ∧ c ∉ delimiters ∧ startOf c = .word := by
    obtain ⟨c, cs, hc⟩ := List.exists_cons_of_ne_nil hne
    have hfirst := hn c (hc ▸ List.mem_cons_self)
    refine ⟨c, cs, hc, not_delimiter_of_number hfirst, ?_⟩
    have other {d : Char} (hd : d.isDigit = false ∧ d ∉ numberLetters) : c ≠ d := by
      rintro rfl
      obtain h | h := hfirst
      · rw [hd.1] at h
        cases h
      · exact hd.2 h
    unfold startOf
    rw [if_neg (other (by decide)), if_neg (other (by decide)), if_neg (other (by decide))]
  cases h with
  | null => exact ⟨_, _, rfl, by decide, by decide⟩
  | bool b =>
    cases b
    · exact ⟨_, _, rfl, by decide, by decide⟩
    · exact ⟨_, _, rfl, by decide, by decide⟩
  | int n =>
    refine number (numeric_int n) ?_
    rw [intChars_eq]
    simp
  | float x =>
    refine number (numeric_float x) ?_
    obtain ⟨c, hc, -⟩ := exists_mark x
    exact List.ne_nil_of_mem hc

/-- The first character of a document tells how it starts. -/
theorem chars_cons (style : Style) (depth : ℕ) (j : Json) :
    ∃ c cs, chars style depth j = c :: cs ∧ c ∉ delimiters ∧ startOf c = j.start := by
  have bracketed_cons {opening closing : Char} (items : List (List Char)) :
      ∃ cs, bracketed style depth opening closing items = opening :: cs := by
    cases items with
    | nil => exact ⟨_, rfl⟩
    | cons item items => exact ⟨_, rfl⟩
  cases j with
  | text t => exact ⟨_, _, rfl, by decide, rfl⟩
  | list items =>
    obtain ⟨cs, h⟩ := bracketed_cons (itemChars style (depth + 1) items)
    exact ⟨'[', cs, h, by decide, rfl⟩
  | object entries =>
    obtain ⟨cs, h⟩ := bracketed_cons
      ((if style.sorted then sortEntries (valueChars style (depth + 1) entries)
        else valueChars style (depth + 1) entries).map (entryChars style))
    exact ⟨'\x7b', cs, h, by decide, rfl⟩
  | null | bool | int | float => exact (word_of_start style rfl depth).cons

/-- Two documents with the same text start in the same way. -/
theorem start_eq {depth : ℕ} {j k : Json} (h : chars style depth j ++ r = chars style depth k ++ s) :
    j.start = k.start := by
  obtain ⟨c, cs, hc, -, hj⟩ := chars_cons style depth j
  obtain ⟨d, ds, hd, -, hk⟩ := chars_cons style depth k
  rw [hc, hd] at h
  rw [← hj, ← hk, (List.cons_eq_cons.mp h).1]

/-- The text of an entry tells its key and its value. -/
theorem tells_entry {write : Json → List Char} {e : String × Json} (h : Tells write e.2) :
    Tells (fun e : String × Json => entryChars style (e.1, write e.2)) e := by
  intro f r s hr hs same
  unfold entryChars at same
  simp only [List.append_assoc] at same
  obtain ⟨key, later⟩ := quoted_unique same
  rw [List.cons_append, List.cons_append] at later
  obtain ⟨value, rest⟩ := h f.2 r s hr hs (List.append_cancel_left (List.cons_eq_cons.mp later).2)
  exact ⟨Prod.ext key value, rest⟩

/-- The text of a word tells it. -/
theorem tells_word {j : Json} (hj : j.start = .word) (depth : ℕ) : Tells (chars style depth) j := by
  intro k r s hr hs h
  have hk : k.start = .word := (start_eq h).symm.trans hj
  have first := word_of_start style hj depth
  have second := word_of_start style hk depth
  obtain ⟨text, rest⟩ := first.whole.unique second.whole hr hs h
  exact ⟨first.unique second text, rest⟩

theorem chars_object (unsorted : style.sorted = false) (depth : ℕ) (es : List (String × Json)) :
    chars style depth (object es) = bracketed style depth '\x7b' '\x7d'
      (es.map fun e => entryChars style (e.1, chars style (depth + 1) e.2)) := by
  rw [chars, valueChars_eq, unsorted]
  simp [Function.comp_def]

mutual

/-- The text of a document tells it, up to a delimiter. -/
theorem tells_chars (unsorted : style.sorted = false) (depth : ℕ) : ∀ j, Tells (chars style depth) j
  | null | bool _ | int _ | float _ => tells_word rfl depth
  | text t => fun k r s _ _ h => by
    have hk := start_eq h
    cases k with
    | text t' =>
      obtain ⟨rfl, rest⟩ := quoted_unique h
      exact ⟨rfl, rest⟩
    | _ => cases hk
  -- brackets close themselves, so it does not matter what follows them
  | list items => fun k r s _ _ h => by
    have hk := start_eq h
    cases k with
    | list items' =>
      rw [chars, chars, itemChars_eq, itemChars_eq] at h
      obtain ⟨rfl, rest⟩ := bracketed_unique style depth (by decide) (by decide) (by decide)
        (tells_items unsorted (depth + 1) items) (fun j => by
          obtain ⟨c, cs, hc, start, -⟩ := chars_cons style (depth + 1) j
          exact ⟨c, cs, hc, start⟩) h
      exact ⟨rfl, rest⟩
    | _ => cases hk
  | object entries => fun k r s _ _ h => by
    have hk := start_eq h
    cases k with
    | object entries' =>
      rw [chars_object unsorted, chars_object unsorted] at h
      obtain ⟨rfl, rest⟩ := bracketed_unique style depth (by decide) (by decide) (by decide)
        (fun e he => tells_entry (tells_entries unsorted (depth + 1) entries e he))
        (fun e => ⟨_, _, rfl, by decide⟩) h
      exact ⟨rfl, rest⟩
    | _ => cases hk

theorem tells_items (unsorted : style.sorted = false) (depth : ℕ) :
    ∀ js : List Json, ∀ j ∈ js, Tells (chars style depth) j
  | [], _, h => nomatch h
  | j :: js, k, h => by
    rcases List.mem_cons.mp h with first | later
    · rw [first]
      exact tells_chars unsorted depth j
    · exact tells_items unsorted depth js k later

theorem tells_entries (unsorted : style.sorted = false) (depth : ℕ) :
    ∀ es : List (String × Json), ∀ e ∈ es, Tells (chars style depth) e.2
  | [], _, h => nomatch h
  | (key, j) :: es, e, h => by
    rcases List.mem_cons.mp h with first | later
    · rw [first]
      exact tells_chars unsorted depth j
    · exact tells_entries unsorted depth es e later

end

end Screenplay.Json
