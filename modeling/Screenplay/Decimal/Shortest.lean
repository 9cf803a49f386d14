/-
The shortest decimal of a binary floating point number: of the decimals that round to the number,
the one with the fewest digits, and of those the nearest. All comparisons are exact, in natural
numbers.
-/
namespace Screenplay.Decimal

/-! ## Binary numbers -/

/-- The positive number `mantissa · 2 ^ exponent`. `narrow` marks the smallest mantissa of a binade,
whose lower neighbour is half as far away as its upper one. -/
structure Binary where
  mantissa : Nat
  exponent : Int
  narrow : Bool
deriving Repr, DecidableEq

/-- The magnitude of a finite number, from its bit pattern. -/
def Binary.ofBits (bits : Nat) : Binary :=
  let fraction : Nat := bits % Nat.pow 2 52
  let biased : Nat := bits / Nat.pow 2 52 % Nat.pow 2 11
  if biased = 0 then ⟨fraction, -1074, false⟩
  else ⟨Nat.pow 2 52 + fraction, biased - 1075, fraction = 0 && 1 < biased⟩

/-! ## Ratios -/

/-- A non-negative rational number. -/
structure Ratio where
  num : Nat
  den : Nat
deriving Repr, DecidableEq

namespace Ratio

/-- `n · base ^ e`. -/
def scaled (base n : Nat) (e : Int) : Ratio :=
  if 0 ≤ e then ⟨n * base.pow e.toNat, 1⟩ else ⟨n, base.pow (-e).toNat⟩

/-- The order of two ratios, by cross multiplication. -/
def compare (a b : Ratio) : Ordering := Ord.compare (a.num * b.den) (b.num * a.den)

/-- The whole part of `a / b`. -/
def floorDiv (a b : Ratio) : Nat := a.num * b.den / (a.den * b.num)

end Ratio

/-- The number of decimal digits of a natural number. -/
def digitCount (n : Nat) : Nat := (Nat.toDigits 10 n).length

/-- The position of the first digit of a positive ratio: the largest `k` with `10 ^ k ≤ r`. -/
def firstPlace (r : Ratio) : Int :=
  let guess : Int := (digitCount r.num : Int) - digitCount r.den
  if (Ratio.scaled 10 1 guess).compare r = .gt then guess - 1 else guess

/-! ## The search -/

namespace Binary

/-- The value of a binary number. -/
def value (x : Binary) : Ratio := Ratio.scaled 2 x.mantissa x.exponent

/-- Whether a ratio rounds to `x`: it lies between the midpoints to the two neighbours, where the
midpoints themselves count exactly for an even mantissa. -/
def rounds (x : Binary) (r : Ratio) : Bool :=
  let low := Ratio.scaled 2 (4 * x.mantissa - (if x.narrow then 1 else 2)) (x.exponent - 2)
  let high := Ratio.scaled 2 (4 * x.mantissa + 2) (x.exponent - 2)
  let even := x.mantissa % 2 = 0
  (match low.compare r with | .lt => true | .eq => even | .gt => false)
    && (match r.compare high with | .lt => true | .eq => even | .gt => false)

/-- The decimal with `count` digits that rounds to `x`, if there is one: of the two multiples of the
last place around `x`, the nearer one that rounds to `x`, the even one on a tie. -/
def decimal? (x : Binary) (count : Nat) : Option (Nat × Int) :=
  let place := firstPlace x.value - count + 1
  let below := x.value.floorDiv (Ratio.scaled 10 1 place)
  let half := Ratio.scaled 10 (2 * below + 1) place
  let twice : Ratio := ⟨2 * x.value.num, x.value.den⟩
  match x.rounds (Ratio.scaled 10 below place), x.rounds (Ratio.scaled 10 (below + 1) place) with
  | true, true =>
    match twice.compare half with
    | .lt => some (below, place)
    | .gt => some (below + 1, place)
    | .eq => some (if below % 2 = 0 then below else below + 1, place)
  | true, false => some (below, place)
  | false, true => some (below + 1, place)
  | false, false => none

/-- The shortest decimal `d · 10 ^ e` of a positive number, as `(d, e)`. Seventeen digits always
suffice. -/
def shortest (x : Binary) : Nat × Int :=
  ((List.range 17).findSome? fun n => x.decimal? (n + 1)).getD (0, 0)

end Binary

/-! ## Layout -/

/-- How a decimal is laid out: the places of the decimal point, counted from the first digit, for
which it is written out in full, and the least number of digits of an exponent. -/
structure Style where
  leastPoint : Int
  mostPoint : Int
  exponentWidth : Nat
deriving Repr, DecidableEq

/-- The digits of a number without the zeros at its end. -/
def significant (n : Nat) : List Char :=
  ((Nat.toDigits 10 n).reverse.dropWhile (· == '0')).reverse

/-- A positive decimal `n · 10 ^ e` in a style: always with a point or an exponent. -/
def layout (style : Style) (n : Nat) (e : Int) : List Char :=
  let digits := significant n
  let point : Int := digitCount n + e
  if style.leastPoint ≤ point ∧ point ≤ style.mostPoint then
    if point ≤ 0 then '0' :: '.' :: List.replicate (-point).toNat '0' ++ digits
    else if point.toNat < digits.length then
      digits.take point.toNat ++ '.' :: digits.drop point.toNat
    else digits ++ List.replicate (point.toNat - digits.length) '0' ++ ['.', '0']
  else
    let places := Nat.toDigits 10 (point - 1).natAbs
    digits.take 1 ++ (if digits.length = 1 then [] else '.' :: digits.drop 1)
      ++ ['e', if point < 1 then '-' else '+']
      ++ List.replicate (style.exponentWidth - places.length) '0' ++ places

/-- The shortest text of a floating point number that reads back as the same number. -/
def text (style : Style) (x : Float) : String :=
  if x.isNaN then "nan"
  else
    let bits := x.toBits.toNat
    let sign := if bits < Nat.pow 2 63 then [] else ['-']
    if x.isInf then String.ofList (sign ++ ['i', 'n', 'f'])
    else if bits % Nat.pow 2 63 = 0 then String.ofList (sign ++ ['0', '.', '0'])
    else
      let d := (Binary.ofBits bits).shortest
      String.ofList (sign ++ layout style d.1 d.2)

end Screenplay.Decimal
