namespace EvmStorage.Text

/-!
# Character classes as bounds

A class of characters is kept as the increasing list of code points at which
membership changes, starting from outside.  A character belongs to the class
when it has passed an odd number of these bounds.
-/

/-- The code points at which membership of a class changes. -/
abbrev Bounds := List Nat

/-- Whether a character belongs to the class with the given bounds. -/
def Bounds.holds : Bounds → Char → Bool
  | [], _ => false
  | start :: rest, c =>
      if c.toNat < start then
        false
      else
        !Bounds.holds rest c

end EvmStorage.Text
