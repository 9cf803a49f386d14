/-
White space: the characters that separate words, those of them that may stand around a number, and
trimming either from both ends of a text.
-/
namespace Screenplay.Text

/-! ## Ranges of code points -/

/-- Whether a character lies in one of some closed ranges of code points. -/
def inRanges (ranges : List (Nat × Nat)) (c : Char) : Bool :=
  ranges.any fun r => r.1 ≤ c.toNat && c.toNat ≤ r.2

/-! ## White space -/

/-- The code points of the white space that may stand around a number, as closed ranges: the
separators and the layout controls. -/
def paddingRanges : List (Nat × Nat) := [
  (0x9, 0xd), (0x20, 0x20), (0x85, 0x85), (0xa0, 0xa0), (0x1680, 0x1680), (0x2000, 0x200a),
  (0x2028, 0x2029), (0x202f, 0x202f), (0x205f, 0x205f), (0x3000, 0x3000)]

/-- The code points of the four information separators, as a closed range. -/
def separatorRange : Nat × Nat := (0x1c, 0x1f)

/-- A white space character that may stand around a number. -/
def isPadding (c : Char) : Bool := inRanges paddingRanges c

/-- A white space character. The information separators separate words, although they may not stand
around a number. -/
def isBlank (c : Char) : Bool := inRanges (separatorRange :: paddingRanges) c

/-- A text without the characters of some class at its two ends. -/
def trimOf (p : Char → Bool) (cs : List Char) : List Char :=
  ((cs.dropWhile p).reverse.dropWhile p).reverse

/-- A text without the white space at its two ends. -/
def trim (cs : List Char) : List Char := trimOf isBlank cs

/-- The text of a number without the white space around it. -/
def trimNumber (cs : List Char) : List Char := trimOf isPadding cs

end Screenplay.Text
