import EvmStorage.Cursor
import EvmStorage.Provider

namespace EvmStorage

/-!
# Contracts

A contract is an address with a layout and the block it is read at unless a
cursor asks for another one.  Every path starts at one of its variables.
-/

/-- A contract whose storage is laid out in a known way. -/
structure Contract where
  address : String
  layout : Layout
  defaultBlock : Value
  deriving DecidableEq

namespace Contract

/-- The same contract at another block. -/
def atBlock
    (contract : Contract)
    (block : Value) :
    Contract :=
  { contract with defaultBlock := block }

/-- The cursor on the variable with a given label. -/
def cursorOn
    (contract : Contract)
    (label : Value) :
    Except Fault Cursor := do
  let found ← contract.layout.topLevel label
  let position : Position := {
    slot := found.slot
    offset := found.offset
    type := found.type
    address := contract.address
    block := contract.defaultBlock
  }
  Cursor.ofPosition contract.layout position label

/--
The cursor that a path leads to; the path begins with the name of a variable.
-/
def followPath
    (hash : Digest)
    (contract : Contract)
    (path : String) :
    Except Fault Cursor := do
  let segments ← Path.segments path
  match segments with
  | .name label :: rest => do
      let cursor ← contract.cursorOn (.text label)
      cursor.follow hash contract.layout rest
  | _ => .error (.notFound (.pathStart path))

/-- The value at a cursor, read from a provider. -/
def read
    (hash : Digest)
    (contract : Contract)
    (provider : Provider σ)
    (cursor : Cursor)
    (state : σ) :
    Except Fault Value × σ :=
  provider.run cursor.position.address cursor.position.block
    (cursor.resolve hash contract.layout) state

/-- A value that was found under a path, and the slot at which it starts. -/
structure Finding where
  path : String
  slot : Int
  value : Value
  deriving DecidableEq

/-- The values under paths, read one after the other. -/
def readPaths
    (hash : Digest)
    (contract : Contract)
    (provider : Provider σ) :
    List String →
    σ →
    Except Fault (List Finding) × σ
  | [], state => (.ok [], state)
  | path :: rest, state =>
      match contract.followPath hash path with
      | .error fault => (.error fault, state)
      | .ok cursor =>
          match contract.read hash provider cursor state with
          | (.error fault, later) => (.error fault, later)
          | (.ok value, later) =>
              match contract.readPaths hash provider rest later with
              | (.error fault, last) => (.error fault, last)
              | (.ok findings, last) =>
                  (.ok ({ path, slot := cursor.position.slot, value } ::
                    findings), last)

end Contract

end EvmStorage
