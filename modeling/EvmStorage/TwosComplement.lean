import EvmStorage.Fault

namespace EvmStorage.TwosComplement

/-!
# Two's complement

Integers of a width of `bits` bits are stored modulo `2 ^ bits`; the upper
half of the stored numbers stands for the negative integers.  The integers have
any size, and no bound is set to the widths: what a machine has no room for is
not told apart here.
-/

/-- The power of two that belongs to a width of at least one bit. -/
def modulus (bits : Int) : Int :=
  Int.pow 2 bits.toNat

/-- The stored number at which the negative integers of a width begin. -/
def signBound (bits : Int) : Int :=
  Int.pow 2 (bits - 1).toNat

/--
The integer that a stored number of a width stands for.

Every positive width will do; only the memory of a machine bounds it.
-/
def decode
    (stored bits : Int) :
    Except Fault Int :=
  if bits ≤ 0 then
    .error (.misuse (.widthNotPositive bits))
  else if signBound bits ≤ stored then
    .ok (stored - modulus bits)
  else
    .ok stored

/--
The number that stores an integer in a width; numbers already stored are kept.

Every positive width will do; only the memory of a machine bounds it.
-/
def encode
    (n bits : Int) :
    Except Fault Int :=
  if bits ≤ 0 then
    .error (.misuse (.widthNotPositive bits))
  else if -signBound bits ≤ n ∧ n < modulus bits then
    .ok (n % modulus bits)
  else
    .error (.misuse (.numberOutOfWidth n bits))

end EvmStorage.TwosComplement
