import EvmStorage.HashedSlot

namespace EvmStorage.Command

/-!
# The slot calculator

The calculator prints how the slot of a value of a mapping is found, or where
the elements of an array start.  What was printed before a fault stays.
-/

/-- What a command printed, and the code or the fault that it ended with. -/
structure Report where
  output : String
  ending : Except Fault Nat

/-- Lines of text, each with its end. -/
def lines (texts : List String) : String :=
  String.join (texts.map fun text => text ++ "\n")

/--
A number in at least 64 hex digits behind a mark; a sign takes the place of a
digit.
-/
def wideHex (n : Int) : String :=
  if n < 0 then
    "0x-" ++ String.ofList (Text.hexPadded 63 n.natAbs)
  else
    paddedHex n.natAbs

namespace SlotCalculator

/-- How the calculator is called. -/
def usage : String :=
  lines [
    "",
    "Calculate Solidity mapping and dynamic array storage slots",
    "",
    "For a mapping at storage slot N:",
    "  storage_slot = keccak256(abi.encode(key, slot))",
    "",
    "For a dynamic array at storage slot N:",
    "  element i lives at keccak256(abi.encode(slot)) + i " ++
      "(for 32-byte elements)",
    "",
    "Usage:",
    "  python calculate_storage_slot.py <key> <slot> [key_type]     " ++
      "(key_type defaults to uint256)",
    "  python calculate_storage_slot.py --array <slot> [index]",
    ""
  ]

/-- The integer that an argument writes, its base told by its mark. -/
def integer (argument : String) : Except Fault Int :=
  match Numeral.read? .marked argument.toList with
  | some n => .ok n
  | none => .error (.misuse .notNumeral)

/-- An integer that is to be printed in decimal. -/
def shownInteger (n : Int) : Except Fault Int :=
  if Value.canWriteInt n then .ok n else .error (.misuse .numberTooLong)

/-- The lines about an array at a slot. -/
def arrayLines
    (slot start : Int) :
    List String :=
  [
    "Dynamic array at slot " ++ toString slot,
    "  Length slot: " ++ hexText slot,
    "  Data starts: " ++ wideHex start
  ]

/-- The line about an element of an array. -/
def elementLine
    (start index : Int) :
    String :=
  "  Element " ++ toString index ++ " (32-byte elements): " ++
    wideHex (start + index)

/-- What is printed for an array. -/
def array
    (hash : Digest)
    (slotText : String)
    (indexText : Option String) :
    Report :=
  let located : Except Fault (Int × Int) := do
    let slot ← integer slotText
    let start ← dataSlot hash slot
    return (slot, start)
  match located with
  | .error fault => { output := "", ending := .error fault }
  | .ok (slot, start) =>
      let printed := lines (arrayLines slot start)
      match indexText.mapM (fun text => integer text >>= shownInteger) with
      | .error fault => { output := printed, ending := .error fault }
      | .ok none => { output := printed, ending := .ok 0 }
      | .ok (some index) =>
          { output := printed ++ lines [elementLine start index]
            ending := .ok 0 }

/-- The lines that every calculation for a mapping begins with. -/
def mappingTitle : List String :=
  ["Solidity Mapping Storage Slot Calculator", "".pushn '=' 50]

/-- The lines that name the key and the slot of a mapping. -/
def mappingArguments
    (key : String)
    (slot : Int)
    (typeName : String) :
    List String :=
  ["Key: " ++ key ++ " (" ++ typeName ++ "), Slot: " ++ toString slot, ""]

/-- The lines that show a calculation. -/
def breakdownLines (found : Breakdown) : List String :=
  [
    "Calculation breakdown:",
    "".pushn '-' 50,
    "1. Key bytes (32 bytes):  " ++ found.keyBytes,
    "2. Slot bytes (32 bytes): " ++ found.slotBytes,
    "3. Concatenated (64 bytes):",
    "   " ++ found.concatenated,
    "4. keccak256(concatenated): " ++ found.storageSlot
  ]

/-- What is printed for a mapping. -/
def mapping
    (hash : Digest)
    (key slotText typeName : String) :
    Report :=
  match integer slotText with
  | .error fault => { output := "", ending := .error fault }
  | .ok slot =>
      match shownInteger slot with
      | .error fault => { output := lines mappingTitle, ending := .error fault }
      | .ok slot =>
          let printed :=
            lines (mappingTitle ++ mappingArguments key slot typeName)
          match breakdown hash (.text key) slot typeName with
          | .error fault => { output := printed, ending := .error fault }
          | .ok found =>
              { output := printed ++ lines (breakdownLines found)
                ending := .ok 0 }

/--
Whether arguments are too few to calculate anything, so that the usage is
printed.
-/
def needsUsage (arguments : List String) : Bool :=
  arguments.length < 2

/-- What the calculator prints for its arguments. -/
def run
    (hash : Digest)
    (arguments : List String) :
    Report :=
  if needsUsage arguments then
    { output := usage, ending := .ok 1 }
  else
    let first := arguments.getD 0 ""
    let second := arguments.getD 1 ""
    let rest := arguments.drop 2
    if first = "--array" then
      array hash second rest.head?
    else
      mapping hash first second (rest.headD "uint256")

end SlotCalculator

end EvmStorage.Command
