import EvmStorage.Text.Bounds

namespace EvmStorage.Text

/-!
# Decimal digits

Every script that writes numbers by place has ten consecutive code points for
its digits, so the table holds the zeros only.  A second table holds the
characters that stand for a digit without being written by place, such as
superscripts and circled digits.
-/

/--
The code points of the digits zero, one for each run of ten decimal digits.
-/
def digitZeros : List Nat :=
  [
    48, 1632, 1776, 1984, 2406, 2534, 2662, 2790, 2918, 3046,
    3174, 3302, 3430, 3558, 3664, 3792, 3872, 4160, 4240, 6112,
    6160, 6470, 6608, 6784, 6800, 6992, 7088, 7232, 7248, 42528,
    43216, 43264, 43472, 43504, 43600, 44016, 65296, 66720, 68912, 69734,
    69872, 69942, 70096, 70384, 70736, 70864, 71248, 71360, 71472, 71904,
    72016, 72784, 73040, 73120, 92768, 92864, 93008, 120782, 120792, 120802,
    120812, 120822, 123200, 123632, 125264, 130032
  ]

/-- The value of a decimal digit of any script. -/
def digitValue? (c : Char) : Option Nat :=
  (digitZeros.find? fun first => first <= c.toNat && c.toNat < first + 10).map
    fun first => c.toNat - first

/-- Where runs of digits that are not written by place begin and end. -/
def digitSignBounds : Bounds :=
  [
    178, 180, 185, 186, 4969, 4978, 6618, 6619, 8304, 8305,
    8308, 8314, 8320, 8330, 9312, 9321, 9332, 9341, 9352, 9361,
    9450, 9451, 9461, 9470, 9471, 9472, 10102, 10111, 10112, 10121,
    10122, 10131, 68160, 68164, 69216, 69225, 69714, 69723, 127232, 127243
  ]

/-- Whether a character stands for a digit, written by place or not. -/
def isDigitSign (c : Char) : Bool :=
  (digitValue? c).isSome || digitSignBounds.holds c

end EvmStorage.Text
