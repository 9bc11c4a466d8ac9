import EvmStorage.Address
import EvmStorage.Json.Writer
import EvmStorage.Value.Shown

namespace EvmStorage

/-!
# Contract handles

A handle stands for a contract seen through one description of its interface.
The cache makes a handle the first time that an address and a description are
asked for together, and finds it again however the address is spelled and in
whatever order the names in the description stand.
-/

/-- A contract with a description of its interface, numbered as it was made. -/
structure Handle where
  serial : Nat
  address : String
  description : Value
  deriving DecidableEq

/--
What a handle is found by: the checked address and the canonical description.
-/
structure HandleKey where
  address : String
  canonical : String
  deriving DecidableEq

/-- The handles made so far, and how many there have ever been. -/
structure HandleCache where
  entries : List (HandleKey × Handle)
  made : Nat
  deriving DecidableEq

namespace HandleCache

/-- The cache without handles. -/
def empty : HandleCache where
  entries := []
  made := 0

/-- The number of handles that can be found. -/
def size (cache : HandleCache) : Nat :=
  cache.entries.length

/-- The handle that is found by a key. -/
def find?
    (cache : HandleCache)
    (key : HandleKey) :
    Option Handle :=
  (cache.entries.find? fun entry => entry.1 = key).map Prod.snd

/--
The key of an address and a description, whose integers must not be too long to
be written.
-/
def keyOf
    (hash : Digest)
    (address description : Value) :
    Except Fault HandleKey := do
  let content ← Address.ofValue address
  if description.canShow then
    return {
      address := Address.checksum hash content
      canonical := Json.write description
    }
  else
    .error (.misuse .numberTooLong)

/-- The handle of an address and a description, and the cache that has it. -/
def get
    (hash : Digest)
    (cache : HandleCache)
    (address description : Value) :
    Except Fault (Handle × HandleCache) := do
  let key ← keyOf hash address description
  match cache.find? key with
  | some handle => return (handle, cache)
  | none =>
      let handle : Handle := {
        serial := cache.made + 1
        address := key.address
        description := description
      }
      return (handle, {
        entries := cache.entries ++ [(key, handle)]
        made := cache.made + 1
      })

/-- The cache without its handles; later handles get new numbers. -/
def clear (cache : HandleCache) : HandleCache :=
  { cache with entries := [] }

end HandleCache

end EvmStorage
