namespace EvmStorage

/-!
# Binary floating-point numbers of 64 bits

A finite number is kept as `± mantissa * 2 ^ exponent` with a mantissa below
`2 ^ 53`, so that it can be read, rounded and written in exact arithmetic.
Its text has the fewest digits that read back to it; of two such texts the
nearer one is taken.
-/

/-- A binary floating-point number of 64 bits. -/
inductive Binary64 where
  | nan
  | infinite (negative : Bool)
  | finite (negative : Bool) (mantissa : Nat) (exponent : Int)
  deriving DecidableEq, Repr

namespace Binary64

/-- The exponent of the numbers nearest to zero. -/
def leastExponent : Int :=
  -1074

/-- The exponent of the numbers farthest from zero. -/
def greatestExponent : Int :=
  971

/--
The natural number nearest to a quotient, a half going to the even neighbour.
-/
def roundQuotient (numerator denominator : Nat) : Nat :=
  let quotient := numerator / denominator
  let rest := numerator % denominator
  if 2 * rest > denominator ∨ (2 * rest = denominator ∧ quotient % 2 = 1) then
    quotient + 1
  else
    quotient

/--
The exponent at which a positive quotient has a mantissa of 53 bits, or the
least exponent.
-/
def exponentOf (numerator denominator : Nat) : Int :=
  let bits : Int := (numerator.log2 : Int) - (denominator.log2 : Int)
  let reachesBits :=
    if 0 ≤ bits then
      decide (denominator * Nat.pow 2 bits.toNat ≤ numerator)
    else
      decide (denominator ≤ numerator * Nat.pow 2 (-bits).toNat)
  max leastExponent (if reachesBits then bits - 52 else bits - 53)

/-- The floating-point number nearest to a quotient of naturals. -/
def ofQuotient
    (negative : Bool)
    (numerator denominator : Nat) :
    Binary64 :=
  if numerator = 0 then
    .finite negative 0 leastExponent
  else
    let exponent := exponentOf numerator denominator
    let mantissa :=
      if 0 ≤ exponent then
        roundQuotient numerator (denominator * Nat.pow 2 exponent.toNat)
      else
        roundQuotient (numerator * Nat.pow 2 (-exponent).toNat) denominator
    let (mantissa, exponent) :=
      if mantissa = Nat.pow 2 53 then
        (Nat.pow 2 52, exponent + 1)
      else
        (mantissa, exponent)
    if exponent > greatestExponent then
      .infinite negative
    else
      .finite negative mantissa exponent

/-- The number of decimal digits of a natural number. -/
def digitCount (n : Nat) : Nat :=
  (Nat.toDigits 10 n).length

/--
The floating-point number nearest to `± digits * 10 ^ exponent`.

Beyond four hundred places on either side the answer no longer depends on the
digits, and the power of ten is not computed.
-/
def ofDecimal
    (negative : Bool)
    (digits : Nat)
    (exponent : Int) :
    Binary64 :=
  let magnitude := exponent + digitCount digits
  if digits = 0 ∨ magnitude < -400 then
    .finite negative 0 leastExponent
  else if magnitude > 400 then
    .infinite negative
  else if 0 ≤ exponent then
    ofQuotient negative (digits * Nat.pow 10 exponent.toNat) 1
  else
    ofQuotient negative digits (Nat.pow 10 (-exponent).toNat)

/-- Whether a number is zero of either sign. -/
def isZero : Binary64 → Bool
  | .finite _ mantissa _ => mantissa == 0
  | _ => false

/-- The exact worth of a finite number. -/
def toDyadic? : Binary64 → Option Dyadic
  | .finite negative mantissa exponent =>
      some (Dyadic.ofIntWithPrec (if negative then -mantissa else mantissa)
        (-exponent))
  | _ => none

/-- A finite magnitude as a quotient of naturals. -/
def quotientOf (mantissa : Nat) (exponent : Int) : Nat × Nat :=
  if 0 ≤ exponent then
    (mantissa * Nat.pow 2 exponent.toNat, 1)
  else
    (mantissa, Nat.pow 2 (-exponent).toNat)

/-- A quotient scaled by a power of ten, as a quotient. -/
def scaled
    (numerator denominator : Nat)
    (power : Int) :
    Nat × Nat :=
  if 0 ≤ power then
    (numerator * Nat.pow 10 power.toNat, denominator)
  else
    (numerator, denominator * Nat.pow 10 (-power).toNat)

/-- Whether a positive quotient is at least a power of ten. -/
def reaches
    (numerator denominator : Nat)
    (power : Int) :
    Bool :=
  let (top, bottom) := scaled numerator denominator (-power)
  bottom ≤ top

/-- The greatest power of ten that a positive quotient reaches. -/
def decimalExponent (numerator denominator : Nat) : Int :=
  let bits : Int := (numerator.log2 : Int) - (denominator.log2 : Int)
  let estimate := (bits * 30103) / 100000
  if reaches numerator denominator (estimate + 1) then
    estimate + 1
  else if reaches numerator denominator estimate then
    estimate
  else
    estimate - 1

/--
The decimal with a given number of digits that reads back to a number, if
there is one: the nearer of its two neighbours among such decimals.
-/
def nearestDecimal?
    (mantissa : Nat)
    (exponent : Int)
    (count : Nat) :
    Option (Nat × Int) :=
  let (numerator, denominator) := quotientOf mantissa exponent
  let unit := decimalExponent numerator denominator + 1 - count
  let (top, bottom) := scaled numerator denominator (-unit)
  let below := top / bottom
  let readsBack (digits : Nat) : Bool :=
    ofDecimal false digits unit == .finite false mantissa exponent
  let nearest := roundQuotient top bottom
  let other := if nearest = below then below + 1 else below
  if readsBack nearest then
    some (nearest, unit)
  else if readsBack other then
    some (other, unit)
  else
    none

/--
The decimal with the fewest digits that reads back to a positive finite number.
-/
def shortestDecimal
    (mantissa : Nat)
    (exponent : Int) :
    Nat × Int :=
  ((List.range 17).findSome? fun index =>
    nearestDecimal? mantissa exponent (index + 1)).getD
    (mantissa, exponent)

/--
The digits of a decimal without zeros at its end, and the place of its point.
-/
def placedDigits : Nat × Int → List Char × Int
  | (digits, unit) =>
      let text := Nat.toDigits 10 digits
      ((text.reverse.dropWhile (· == '0')).reverse, unit + text.length)

/-- An exponent with its sign and at least two digits. -/
def exponentText (exponent : Int) : String :=
  let digits := toString exponent.natAbs
  let sign := if exponent < 0 then "-" else "+"
  sign ++ (if digits.length < 2 then "0" ++ digits else digits)

/--
The text of a positive magnitude from its digits and the place of its point.

Magnitudes from one ten-thousandth up to ten to the sixteenth are written by
place, with a digit on both sides of the point; others with an exponent.
-/
def layOut (digits : List Char) (place : Int) : String :=
  if place ≤ -4 ∨ 16 < place then
    let fraction := digits.drop 1
    let point := if fraction.isEmpty then [] else '.' :: fraction
    String.ofList (digits.take 1 ++ point) ++ "e" ++ exponentText (place - 1)
  else if place ≤ 0 then
    "0." ++ String.ofList (List.replicate (-place).toNat '0' ++ digits)
  else
    let whole := digits.take place.toNat
    let zeros := List.replicate (place.toNat - digits.length) '0'
    let fraction := digits.drop place.toNat
    String.ofList (whole ++ zeros) ++ "." ++
      (if fraction.isEmpty then "0" else String.ofList fraction)

/-- The text of a number. -/
def text : Binary64 → String
  | .nan => "nan"
  | .infinite negative => if negative then "-inf" else "inf"
  | .finite negative mantissa exponent =>
      let magnitude :=
        if mantissa = 0 then
          "0.0"
        else
          let (digits, place) :=
            placedDigits (shortestDecimal mantissa exponent)
          layOut digits place
      if negative then "-" ++ magnitude else magnitude

end Binary64

end EvmStorage
