namespace EvmStorage.Key

/-!
# Names of key types

A layout names the key type of a mapping by an identifier of its own, which
holds the kind of the type and, for types that a contract declares, their
name.  Keys are encoded under the name of an elementary type.
-/

/-- Whether one text occurs inside another. -/
def occursIn (part : List Char) : List Char → Bool
  | [] => part.isEmpty
  | c :: rest => part.isPrefixOf (c :: rest) || occursIn part rest

/-- An identifier without the mark that identifiers of types begin with. -/
def dropTypeMark : List Char → List Char
  | 't' :: '_' :: rest => rest
  | id => id

/--
The name under which the keys of a type are encoded, from the identifier of the
type.
-/
def typeName (id : String) : String :=
  let s := dropTypeMark id.toList
  let name := String.ofList s
  if occursIn "contract".toList s || name.startsWith "address" then
    "address"
  else if occursIn "enum".toList s then
    "uint8"
  else if name.startsWith "string" then
    "string"
  else if name.startsWith "bytes_" then
    "bytes"
  else
    name

end EvmStorage.Key
