import EvmStorage.Decode
import EvmStorage.Path
import EvmStorage.Position
import EvmStorage.Reading

namespace EvmStorage

/-!
# Cursors

A cursor is a position together with the type that is stored there and the
path by which it was reached: the label of a variable, and behind it the text
of every step.  Moving a cursor reads nothing; what it points at is read when
the cursor is resolved.
-/

/-- A position whose type is known, and the path that led to it. -/
structure Cursor where
  position : Position
  type : TypeEntry
  path : Value
  deriving DecidableEq

namespace Cursor

/-- The cursor at a position, if the layout has the type of the position. -/
def ofPosition
    (layout : Layout)
    (position : Position)
    (path : Value) :
    Except Fault Cursor := do
  let type ← layout.lookup position.type
  return { position, type, path }

/-- How a step is shown in the path of a cursor. -/
def stepText : Step → String
  | .field name => "." ++ name.plain
  | .key key => "[" ++ key.plain ++ "]"
  | .index index => "[" ++ index.plain ++ "]"

/-- Whether a step can be shown in the path of a cursor. -/
def canShowStep : Step → Bool
  | .field value | .key value | .index value => value.canShow

/--
A path with one more step; a label that is not a text cannot be the start of
one.
-/
def extendPath
    (path : Value)
    (step : Step) :
    Except Fault Value :=
  match path with
  | .text s => .ok (.text (s ++ stepText step))
  | label => .error (.misuse (.pathNotText label))

/--
The cursor that one step leads to; the step has to be one that can be shown.
-/
def step
    (hash : Digest)
    (layout : Layout)
    (cursor : Cursor)
    (step : Step) :
    Except Fault Cursor :=
  if canShowStep step then do
    let position ← cursor.position.step hash layout step
    let path ← extendPath cursor.path step
    Cursor.ofPosition layout position path
  else
    .error (.misuse .numberTooLong)

/-- The same cursor at another block. -/
def atBlock
    (cursor : Cursor)
    (block : Value) :
    Cursor :=
  { cursor with position := { cursor.position with block := block } }

/-- The step that a part of a path stands for at a value of a type. -/
def stepOf
    (type : TypeEntry) :
    Path.Segment →
    Step
  | .name label => .field (.text label)
  | .bracket content =>
      if type.isMapping then .key (.text content) else .index (.text content)

/-- The cursor that the parts of a path lead to. -/
def follow
    (hash : Digest)
    (layout : Layout) :
    Cursor →
    List Path.Segment →
    Except Fault Cursor
  | cursor, [] => .ok cursor
  | cursor, segment :: rest => do
      let next ← cursor.step hash layout (stepOf cursor.type segment)
      follow hash layout next rest

/-- The cursor that a path leads to from here. -/
def followPath
    (hash : Digest)
    (layout : Layout)
    (cursor : Cursor)
    (path : String) :
    Except Fault Cursor := do
  let segments ← Path.segments path
  cursor.follow hash layout segments

/-- A cursor as text. -/
def text (cursor : Cursor) : String :=
  "Cursor(" ++ (if cursor.path.truthy then cursor.path.plain else "<root>") ++
    " @ slot " ++ hexText cursor.position.slot ++
    ", offset " ++ toString cursor.position.offset ++
    ", block " ++ cursor.position.block.plain ++ ")"

/-- The value of a type that lies in one part of a slot. -/
def readScalar
    (hash : Digest)
    (cursor : Cursor) :
    Reading Value := do
  let word ← Reading.slot cursor.position.slot
  Reading.done do
    let data ← Word.window word cursor.position.offset cursor.type.size
    Decode.scalar hash data cursor.type

/-- The value of a struct or of an array with a length in its label. -/
def readInPlace
    (hash : Digest)
    (layout : Layout)
    (cursor : Cursor) :
    Reading Value :=
  match slotSpan cursor.type.size with
  | .error fault => .done (.error fault)
  | .ok count =>
      Reading.slots cursor.position.slot count.toNat fun words =>
        .done <|
          if cursor.type.isStruct then
            (Decode.struct hash layout words cursor.type).map .struct
          else
            (Decode.sequence hash layout words cursor.type none).map .list

/-- The elements of an array whose length is stored in the slot of the array. -/
def readDynamicArray
    (hash : Digest)
    (layout : Layout)
    (cursor : Cursor) :
    Reading Value := do
  let word ← Reading.slot cursor.position.slot
  let length : Int := Bytes.toNat word
  let element ← Reading.done (layout.elementOf cursor.type)
  let count ← Reading.done (arraySpan length element.size)
  let start ← Reading.done (dataSlot hash cursor.position.slot)
  Reading.slots start count.toNat fun words =>
    .done ((Decode.sequence hash layout words cursor.type length).map .list)

/-- The text of a byte string, short or long. -/
def readBytes
    (hash : Digest)
    (cursor : Cursor) :
    Reading Value := do
  let word ← Reading.slot cursor.position.slot
  let header ← Reading.done (Decode.bytesHeader word)
  let textOf (data : Bytes) : Reading Value :=
    .done ((Decode.bytesText (data.take header.length) cursor.type).map .text)
  if header.isLong then do
    let start ← Reading.done (dataSlot hash cursor.position.slot)
    let count ← Reading.done (slotSpan header.length)
    Reading.slots start count.toNat fun words => textOf words.flatten
  else
    textOf word

/--
The value at a cursor; arrays whose elements lie elsewhere and mappings have
none.
-/
def resolve
    (hash : Digest)
    (layout : Layout)
    (cursor : Cursor) :
    Reading Value :=
  let type := cursor.type
  if type.isMapping then
    .done (.error (.schema (.unselectedMapping cursor.path type.label)))
  else if type.isScalar then
    cursor.readScalar hash
  else do
    if type.isArray then
      let _ ← Reading.done (Decode.elementInPlace layout type)
    if type.isStruct || type.isFixedArray then
      cursor.readInPlace hash layout
    else if type.isDynamicArray then
      cursor.readDynamicArray hash layout
    else
      cursor.readBytes hash

end Cursor

end EvmStorage
