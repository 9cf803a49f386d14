/-
Reading UTF-8: the characters of a sequence of bytes, or the first place where the bytes are no
text. Overlong forms, surrogates and code points past the last one are no text.
-/
namespace Screenplay.Text.Utf8

/-- What is wrong with some bytes. -/
inductive Flaw where
  /-- a byte that starts no character -/
  | start
  /-- a byte that does not continue the character started before it -/
  | continuation
  /-- the bytes end inside a character -/
  | ending
deriving Repr, DecidableEq

/-- The wording of a flaw. -/
def Flaw.reason : Flaw → String
  | start => "invalid start byte"
  | continuation => "invalid continuation byte"
  | ending => "unexpected end of data"

/-- The first place where bytes are no text: the offset of the character that is not finished, and
the number of its bytes up to the flaw. -/
structure Error where
  flaw : Flaw
  offset : Nat
  length : Nat
deriving Repr, DecidableEq

/-! ## Characters -/

/-- The number of bytes of a character that starts with a byte, and the bits that the byte gives. -/
def lead? (b : Nat) : Option (Nat × Nat) :=
  if b < 0x80 then some (0, b)
  else if b < 0xc2 then none
  else if b < 0xe0 then some (1, b - 0xc0)
  else if b < 0xf0 then some (2, b - 0xe0)
  else if b < 0xf5 then some (3, b - 0xf0)
  else none

/-- The values that the second byte of a character may have, given the first one. -/
def secondRange (b : Nat) : Nat × Nat :=
  if b = 0xe0 then (0xa0, 0xbf)
  else if b = 0xed then (0x80, 0x9f)
  else if b = 0xf0 then (0x90, 0xbf)
  else if b = 0xf4 then (0x80, 0x8f)
  else (0x80, 0xbf)

/-- Reads `count` bytes that continue a character of which `seen` bytes were read; the first of them
lies in a range, the other ones in the full range. A flaw comes with the number of bytes before it. -/
def continueWith (range : Nat × Nat) (seen count bits : Nat) (bytes : List UInt8) :
    Except (Flaw × Nat) Nat :=
  match count, bytes with
  | 0, _ => .ok bits
  | _ + 1, [] => .error (.ending, seen)
  | count + 1, b :: bytes =>
    if range.1 ≤ b.toNat ∧ b.toNat ≤ range.2 then
      continueWith (0x80, 0xbf) (seen + 1) count (64 * bits + (b.toNat - 0x80)) bytes
    else .error (.continuation, seen)

/-- The character at the start of some bytes, and the number of bytes after its first one. -/
def character (first : UInt8) (later : List UInt8) : Except (Flaw × Nat) (Char × Nat) :=
  match lead? first.toNat with
  | none => .error (.start, 1)
  | some (count, bits) =>
    (continueWith (secondRange first.toNat) 1 count bits later).map fun n => (Char.ofNat n, count)

/-! ## Texts -/

/-- Reads bytes from some offset on; `skip` bytes still belong to the last character. -/
def decodeFrom (offset skip : Nat) : List UInt8 → Except Error (List Char)
  | [] => .ok []
  | b :: bytes =>
    match skip with
    | skip + 1 => decodeFrom (offset + 1) skip bytes
    | 0 =>
      match character b bytes with
      | .error (flaw, length) => .error ⟨flaw, offset, length⟩
      | .ok (c, count) => (decodeFrom (offset + 1) count bytes).map (c :: ·)

/-- The text of some bytes. -/
def decode (bytes : List UInt8) : Except Error String :=
  (decodeFrom 0 0 bytes).map String.ofList

end Screenplay.Text.Utf8
