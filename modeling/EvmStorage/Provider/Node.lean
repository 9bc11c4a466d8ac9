import EvmStorage.Numeral
import EvmStorage.Provider

namespace EvmStorage

/-!
# Nodes in memory

A node in memory answers requests from a table of words.  A word may be set
for one block only, where it wins over the word of the slot; slots without a
word hold zeros.  Incidents that are waiting meet the next requests, one each,
before any word is looked up; every request is recorded.
-/

/-- What may happen to a request instead of an answer. -/
inductive Incident where
  | raised (failure : Failure)
  | cancellation
  | silence
  deriving DecidableEq, Repr

/-- The answer to a request that met an incident. -/
def Incident.answer : Incident → Answer
  | .raised failure => .failed (.raised failure)
  | .cancellation => .cancelled
  | .silence => .silent

/-- The words of a contract, the incidents ahead and the requests so far. -/
structure Node where
  words : List (Int × Value)
  blockWords : List ((Int × Value) × Value)
  incidents : List Incident
  requests : List Request

namespace Node

/-- A node without words. -/
def empty : Node where
  words := []
  blockWords := []
  incidents := []
  requests := []

/--
A node with the word of a slot set for all blocks that have none of their own.
-/
def setWord
    (node : Node)
    (slot : Int)
    (raw : Value) :
    Node :=
  { node with words := (slot, raw) :: node.words }

/-- A node with the word of a slot set for one block. -/
def setBlockWord
    (node : Node)
    (slot : Int)
    (block raw : Value) :
    Node :=
  { node with blockWords := ((slot, block), raw) :: node.blockWords }

/--
The node whose words a record gives by slot; names that are no numerals are
passed over.
-/
def ofRecord (fields : List (String × Value)) : Node :=
  fields.foldl
    (fun node (name, raw) =>
      match Numeral.read? .marked name.toList with
      | some slot => node.setWord slot raw
      | none => node)
    empty

/-- A node with incidents behind those that wait already. -/
def expect
    (node : Node)
    (incidents : List Incident) :
    Node :=
  { node with incidents := node.incidents ++ incidents }

/-- The raw word of a slot at a block. -/
def rawWord
    (node : Node)
    (slot : Int)
    (block : Value) :
    Value :=
  match node.blockWords.lookup (slot, block) with
  | some raw => raw
  | none => (node.words.lookup slot).getD (.bytes (Word.ofNat 0))

/-- The answer of a node, which records the request. -/
def provider : Provider Node :=
  fun request node =>
    let node := { node with requests := node.requests ++ [request] }
    match node.incidents with
    | incident :: rest => (incident.answer, { node with incidents := rest })
    | [] => (.value (node.rawWord request.slot request.block), node)

/-- A node that cannot be reached. -/
def unreachable : Provider Node :=
  fun _ node => (.failed (.raised { kind := .connection, message := "" }), node)

end Node

end EvmStorage
