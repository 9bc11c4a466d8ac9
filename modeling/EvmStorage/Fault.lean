import EvmStorage.Failure
import EvmStorage.Value.Shown

namespace EvmStorage

/-!
# Faults

Everything that can go wrong is told by its cause.  Five families of causes
make up the errors that callers are promised: a malformed layout, a type that
cannot be decoded, a name or index that does not exist, a key that is no
value of its type, and a read that failed.  The causes that remain come from
arguments that no caller should pass, or from parts of a report that have
another JSON kind than they must have.  A message shows numbers in decimal;
where one is too long for that the fault is in no family.
-/

/-- The layout, or a use of one of its types, is malformed. -/
inductive SchemaFault where
  | reportNotObject
  | storageMissing
  | typeNotObject (id kind : String)
  | typePartMissing (id part : String)
  | unknownEncoding (id : String) (encoding : Value)
  | memberPartMissing (id part : String)
  | variablePartMissing (part : String)
  | invalidNumber (what : String) (value : Value)
  | mappingPartMissing (id : String)
  | elementTypeMissing (id : String)
  | notJson (path : String)
  | undefinedType (id : Value)
  | notStruct (id : String) (label : Value)
  | notFixedArray (id : String) (label : Value)
  | notArray (id : String) (label : Value)
  | notScalar (id : String) (label : Value)
  | notBytes (id : String) (label : Value)
  | unselectedMapping (path label : Value)
  | slotOutsideSpace (slot : Int)
  | windowOutsideSlot (size offset : Int)
  | elementSizeNotPositive (size : Int)
  | elementIndexNegative (index : Int)
  | tooFewSlots (label : Value) (length needed found : Int)
  | memberOutsideStruct (member label : Value)
  | shortLengthTooLong (length : Nat) (word : Bytes)

/-- A type is known but cannot be decoded, or cannot be a key. -/
inductive UnsupportedFault where
  | dataType (label : String)
  | storedElsewhere (label : Value)
  | elementsElsewhere (label element : Value)
  | keyType (name : String)

/-- A variable, a member, an element or a part of a path does not exist. -/
inductive NotFoundFault where
  | variable (label : Value)
  | member (name : Value) (id : String)
  | memberOfNonStruct (name label : Value)
  | keyOfNonMapping (key label : Value)
  | indexOfNonArray (label : Value)
  | indexNotInteger (index : Value)
  | indexNegative (index : Int)
  | indexOutOfRange (index : Int) (label : Value)
  | pathUnterminated (position : Nat) (path : String)
  | pathEmptyBrackets (position : Nat) (path : String)
  | pathUnexpected (found : Char) (position : Nat) (path : String)
  | pathEmpty
  | pathStart (path : String)

/-- A key is no value of the type of the keys. -/
inductive InvalidKeyFault where
  | invalid (keyType : String) (key : Value)
  | notHex (key : String)
  | notEncodable (key : Value) (keyType : String)

/-- A word could not be read, or what was read is no word. -/
inductive ReadFault where
  | valueOutOfRange (n : Int)
  | valueNotHex (text : String)
  | valueOfKind (kind : String)
  | valueTooLong (length : Nat)
  | wordOfLength (length : Nat)
  | failed (slot : Int) (address : String) (block : Value) (error : CallError)
  | retriesExceeded (last : Option CallError)

/-- The parts of a report that must have a certain JSON kind. -/
inductive ReportPart where
  | variableList
  | variableEntry
  | variableLabel
  | typeTable
  | memberList
  | memberEntry
  deriving DecidableEq, Repr

/-- Arguments and reports that lie outside of what callers are promised. -/
inductive MisuseFault where
  | partOfWrongKind (part : ReportPart)
  | typeIdNotText (id : Value)
  | labelNotText (label : Value)
  | lengthLabelNotText (label : Value)
  | keyTypeNotText (keyType : Value)
  | unusableLabel (label : Value)
  | pathNotText (path : Value)
  | typeNestedInItself (id : String)
  | numeralTooLong
  | notNumeral
  | numberTooLong
  | numberOutOfWidth (n bits : Int)
  | widthNotPositive (bits : Int)
  | slotOutsideSpace (slot : Int)
  | malformedAddress
  | addressOfKind (kind : String)
  | emptyWord
  | noWords
  | sizeTooLarge (size : Int)
  | segmentKind (kind : String)
  | breakdownOfHashedKey
  | fileMissing (path : String)
  | fileNotUtf8 (path : String)
  | nestedTooDeep
  | halfCharacter

/-- What went wrong, by its cause. -/
inductive Fault where
  | schema (cause : SchemaFault)
  | unsupported (cause : UnsupportedFault)
  | notFound (cause : NotFoundFault)
  | invalidKey (cause : InvalidKeyFault)
  | read (cause : ReadFault)
  | relayed (failure : Failure)
  | cancelled
  | unanswered
  | misuse (cause : MisuseFault)

/-- An integer in hex digits behind its sign and mark. -/
def hexText (n : Int) : String :=
  (if n < 0 then "-0x" else "0x") ++ String.ofList (Nat.toDigits 16 n.natAbs)

/-- A type with its label, as messages name it. -/
def typeWithLabel (id : String) (label : Value) : String :=
  "Type `" ++ id ++ "` (" ++ label.plain ++ ")"

/-- What a message about an unknown name ends with. -/
def layoutAdvice : String :=
  "Please check the supplied storage layout file."

/-- The message of a malformed layout. -/
def SchemaFault.message : SchemaFault → String
  | .reportNotObject => "Storage layout must be a JSON object"
  | .storageMissing => "Storage layout is missing `storage`"
  | .typeNotObject id kind =>
    "Type `" ++ id ++ "` must be an object, got " ++ kind
  | .typePartMissing id part =>
    "Type `" ++ id ++ "` is missing " ++ Text.quoted part
  | .unknownEncoding id encoding =>
      "Type `" ++ id ++ "` has unknown encoding `" ++ encoding.plain ++ "`"
  | .memberPartMissing id part =>
    "Member of `" ++ id ++ "` is missing " ++ Text.quoted part
  | .variablePartMissing part => "Storage entry is missing " ++ Text.quoted part
  | .invalidNumber what value => "Invalid " ++ what ++ ": " ++ value.quoted
  | .mappingPartMissing id =>
    "Mapping type `" ++ id ++ "` must declare key and value"
  | .elementTypeMissing id =>
    "Dynamic array type `" ++ id ++ "` must declare base"
  | .notJson path => "Storage layout " ++ path ++ " is not valid JSON"
  | .undefinedType id =>
      "Type `" ++ id.plain ++
        "` is referenced but not defined in the storage layout"
  | .notStruct id label => typeWithLabel id label ++ " is not a struct"
  | .notFixedArray id label =>
    typeWithLabel id label ++ " is not a fixed-size array"
  | .notArray id label => typeWithLabel id label ++ " is not an array"
  | .notScalar id label =>
    typeWithLabel id label ++ " is not a single value type"
  | .notBytes id label => typeWithLabel id label ++ " is not bytes or string"
  | .unselectedMapping path label =>
      "`" ++ path.plain ++ "` is a mapping (" ++
        label.plain ++ "); select a key before resolving"
  | .slotOutsideSpace slot =>
      "Slot " ++ toString slot ++ " is outside the 256-bit slot space"
  | .windowOutsideSlot size offset =>
      "Window of " ++ toString size ++ " bytes at offset " ++ toString offset ++
        " does not fit in one slot"
  | .elementSizeNotPositive size =>
      "Array element size must be positive, got " ++ toString size
  | .elementIndexNegative index =>
      "Array index must not be negative, got " ++ toString index
  | .tooFewSlots label length needed found =>
      "`" ++ label.plain ++ "` of length " ++ toString length ++ " needs " ++
        toString needed ++ " slots, got " ++ toString found
  | .memberOutsideStruct member label =>
      "Member `" ++ member.plain ++ "` of `" ++ label.plain ++
        "` lies outside the struct's slots"
  | .shortLengthTooLong length word =>
      "Invalid short bytes length " ++ toString length ++ " in word " ++
        Bytes.toMarkedHex word

/-- The message of a type that cannot be decoded or used as a key. -/
def UnsupportedFault.message : UnsupportedFault → String
  | .dataType label => "Unsupported data type found: " ++ label
  | .storedElsewhere label =>
      "`" ++ label.plain ++
        "` is stored out of place and cannot be decoded " ++
          "from the enclosing slots"
  | .elementsElsewhere label element =>
      "Cannot decode `" ++ label.plain ++ "` as a whole: elements are `" ++
        element.plain ++ "`"
  | .keyType name => "Unsupported mapping key type `" ++ name ++ "`"

/-- The message of something that does not exist. -/
def NotFoundFault.message : NotFoundFault → String
  | .variable label =>
      "Unrecognized top-level property `" ++ label.plain ++ "`. " ++
        layoutAdvice
  | .member name id =>
      "Unrecognized property `" ++ name.plain ++ "` on `" ++ id ++ "`. " ++
        layoutAdvice
  | .memberOfNonStruct name label =>
      "Cannot access member `" ++ name.plain ++ "` of non-struct `" ++
        label.plain ++ "`"
  | .keyOfNonMapping key label =>
      "Cannot look up key " ++ key.quoted ++ " in non-mapping `" ++
        label.plain ++ "`"
  | .indexOfNonArray label =>
    "Cannot index into non-array `" ++ label.plain ++ "`"
  | .indexNotInteger index =>
    "Array index must be an integer, got " ++ index.quoted
  | .indexNegative index =>
    "Array index must not be negative, got " ++ toString index
  | .indexOutOfRange index label =>
      "Index " ++ toString index ++ " is out of range for `" ++
        label.plain ++ "`"
  | .pathUnterminated position path =>
      "Unterminated `[` at position " ++ toString position ++ " of path `" ++
        path ++ "`"
  | .pathEmptyBrackets position path =>
      "Empty `[]` at position " ++ toString position ++ " of path `" ++
        path ++ "`"
  | .pathUnexpected found position path =>
      "Unexpected `" ++ String.singleton found ++ "` at position " ++
        toString position ++ " of path `" ++ path ++ "`"
  | .pathEmpty => "Empty storage path"
  | .pathStart path =>
    "Path `" ++ path ++ "` must start with a state variable name"

/-- The message of a key that is no value of its type. -/
def InvalidKeyFault.message : InvalidKeyFault → String
  | .invalid keyType key => "Invalid " ++ keyType ++ " key " ++ key.quoted
  | .notHex key => "Invalid bytes key " ++ Text.quoted key ++ ", expected hex"
  | .notEncodable key keyType =>
    "Cannot encode " ++ key.quoted ++ " as " ++ keyType

/-- The values that the message of a malformed layout shows. -/
def SchemaFault.shownValues : SchemaFault → List Value
  | .unknownEncoding _ value | .invalidNumber _ value
  | .undefinedType value => [value]
  | .notStruct _ label | .notFixedArray _ label | .notArray _ label => [label]
  | .notScalar _ label | .notBytes _ label => [label]
  | .unselectedMapping path label => [path, label]
  | .slotOutsideSpace n | .elementSizeNotPositive n
  | .elementIndexNegative n => [.int n]
  | .windowOutsideSlot size offset => [.int size, .int offset]
  | .tooFewSlots label length needed found =>
    [label, .int length, .int needed, .int found]
  | .memberOutsideStruct member label => [member, label]
  | _ => []

/-- The values that the message of a type that cannot be decoded shows. -/
def UnsupportedFault.shownValues : UnsupportedFault → List Value
  | .storedElsewhere label => [label]
  | .elementsElsewhere label element => [label, element]
  | _ => []

/-- The values that the message of something that does not exist shows. -/
def NotFoundFault.shownValues : NotFoundFault → List Value
  | .variable name | .member name _ => [name]
  | .memberOfNonStruct value label
  | .keyOfNonMapping value label => [value, label]
  | .indexOfNonArray value | .indexNotInteger value => [value]
  | .indexNegative index => [.int index]
  | .indexOutOfRange index label => [.int index, label]
  | _ => []

/-- The values that the message of a key that is no value of its type shows. -/
def InvalidKeyFault.shownValues : InvalidKeyFault → List Value
  | .invalid _ key | .notEncodable key _ => [key]
  | .notHex _ => []

/-- The values that the message of a failed read shows. -/
def ReadFault.shownValues : ReadFault → List Value
  | .valueOutOfRange n => [.int n]
  | .failed _ _ block _ => [block]
  | _ => []

/-- The values that the message of a misuse shows. -/
def MisuseFault.shownValues : MisuseFault → List Value
  | .numberOutOfWidth n bits => [.int n, .int bits]
  | .slotOutsideSpace slot => [.int slot]
  | _ => []

/-- What a message about a failed call ends with. -/
def CallError.reason : CallError → String
  | .raised failure => ": " ++ failure.text
  | .timedOut => ": "
  | .addressRejected | .timeLimitTooLarge | .countTooLarge => ""
  | .retriesExceeded _ => ": Exceeded retry count"

/-- The message of a failed read. -/
def ReadFault.message : ReadFault → String
  | .valueOutOfRange n => "Storage value out of range: " ++ toString n
  | .valueNotHex text => "Storage value is not hex: " ++ Text.quoted text
  | .valueOfKind kind => "Unexpected storage value type " ++ kind
  | .valueTooLong length =>
      "Storage value is " ++ toString length ++ " bytes, expected at most 32"
  | .wordOfLength length =>
    "Storage word must be 32 bytes, got " ++ toString length
  | .failed slot address block error =>
      "Failed to read slot " ++ hexText slot ++ " of " ++ address ++
        " at block " ++ block.plain ++ error.reason
  | .retriesExceeded _ => "Exceeded retry count"

/--
The message of an argument or report outside of what callers are promised.
-/
def MisuseFault.message : MisuseFault → String
  | .partOfWrongKind _ => "A part of the report has the wrong JSON kind"
  | .typeIdNotText _ => "A list or an object cannot name a type"
  | .labelNotText _ => "The label of a type must be a text"
  | .lengthLabelNotText _ => "The label of an array must be a text"
  | .keyTypeNotText _ => "The key type of a mapping must be a text"
  | .unusableLabel _ => "A list or an object cannot be looked up by"
  | .pathNotText _ => "Only a path that is a text can be made longer"
  | .typeNestedInItself id => "Type `" ++ id ++ "` is nested in itself"
  | .numeralTooLong => "The numeral has too many digits"
  | .notNumeral => "The text is not a numeral"
  | .numberTooLong => "The number is too long to be written in decimal"
  | .numberOutOfWidth n bits =>
    toString n ++ " does not fit in " ++ toString bits ++ " bits"
  | .widthNotPositive _ => "A width must be positive"
  | .slotOutsideSpace slot => "Slot " ++ toString slot ++ " cannot be hashed"
  | .malformedAddress => "The address does not have 20 bytes"
  | .addressOfKind kind => "An address cannot be of kind " ++ kind
  | .emptyWord => "The word has no bytes"
  | .noWords => "There are no words to decode"
  | .sizeTooLarge size => "The size " ++ toString size ++ " is too large"
  | .segmentKind kind => "Unknown path segment kind `" ++ kind ++ "`"
  | .breakdownOfHashedKey =>
      "Only value-type keys are ABI-encoded; " ++
        "string and bytes keys are hashed unpadded"
  | .fileMissing path =>
      "[Errno 2] No such file or directory: " ++ Text.quoted path
  | .fileNotUtf8 path => "The file " ++ path ++ " is not UTF-8"
  | .nestedTooDeep => "The document is nested too deeply"
  | .halfCharacter => "A text of the document holds half of a character"

namespace Fault

/-- The message of a fault. -/
def message : Fault → String
  | .schema cause => cause.message
  | .unsupported cause => cause.message
  | .notFound cause => cause.message
  | .invalidKey cause => cause.message
  | .read cause => cause.message
  | .relayed failure => failure.message
  | .cancelled => "The read was cancelled"
  | .unanswered => "The provider did not answer"
  | .misuse cause => cause.message

/-- The values that the message of a fault shows. -/
def shownValues : Fault → List Value
  | .schema cause => cause.shownValues
  | .unsupported cause => cause.shownValues
  | .notFound cause => cause.shownValues
  | .invalidKey cause => cause.shownValues
  | .read cause => cause.shownValues
  | .misuse cause => cause.shownValues
  | .relayed _ | .cancelled | .unanswered => []

/-- Whether the message of a fault can be written. -/
def hasMessage (fault : Fault) : Bool :=
  fault.shownValues.all Value.canShow

/-- The name of the family that the cause of a fault belongs to. -/
def causeFamily? : Fault → Option String
  | .schema _ => some "SchemaError"
  | .unsupported _ => some "UnsupportedTypeError"
  | .notFound _ => some "NotFoundError"
  | .invalidKey _ => some "InvalidKeyError"
  | .read _ => some "StorageIOError"
  | .relayed failure =>
    if failure.kind.isReported then some failure.kind.name else none
  | .cancelled | .unanswered | .misuse _ => none

/--
The name of the family of a fault, for the families that callers are promised.

A fault whose message cannot be written is in none of them.
-/
def family? (fault : Fault) : Option String :=
  if fault.hasMessage then fault.causeFamily? else none

/-- Whether a fault belongs to the families that callers are promised. -/
def isReported (fault : Fault) : Bool :=
  fault.family?.isSome

/-- The error of a provider's call that led to a fault. -/
def cause? : Fault → Option CallError
  | .read (.failed _ _ _ error) => some error
  | .read (.retriesExceeded last) => last
  | _ => none

end Fault

end EvmStorage
