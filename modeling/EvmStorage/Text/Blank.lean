import EvmStorage.Text.Bounds

namespace EvmStorage.Text

/-!
# White space

The characters with the Unicode property of white space, together with the
four information separators U+001C to U+001F, are blank.
-/

/-- Where runs of blank characters begin and end, by code point. -/
def blankBounds : Bounds :=
  [
    9, 14, 28, 33, 133, 134, 160, 161, 5760, 5761,
    8192, 8203, 8232, 8234, 8239, 8240, 8287, 8288, 12288, 12289
  ]

/-- Whether a character is blank. -/
def isBlank (c : Char) : Bool :=
  blankBounds.holds c

/-- A text without the blank characters at its two ends. -/
def strip (s : List Char) : List Char :=
  ((s.dropWhile isBlank).reverse.dropWhile isBlank).reverse

end EvmStorage.Text
