import EvmStorage.Word

namespace EvmStorage

/-!
# Readings

A reading is a computation that asks for the words of slots, one after the
other, and decides by each word how it goes on.  It does not say where the
words come from; the slots it asks for are all that can be seen of it before
its result.
-/

/-- A computation that asks for words. -/
inductive Reading (α : Type) where
  | done (result : Except Fault α)
  | word (slot : Int) (next : Bytes → Reading α)

namespace Reading

/-- A reading that goes on with the result of another one. -/
def bind
    (first : Reading α)
    (next : α → Reading β) :
    Reading β :=
  match first with
  | .done (.ok result) => next result
  | .done (.error fault) => .done (.error fault)
  | .word slot continuation => .word slot fun content =>
    (continuation content).bind next

instance : Monad Reading where
  pure result := .done (.ok result)
  bind := bind

/-- The word of one slot. -/
def slot (number : Int) : Reading Bytes :=
  .word number fun content => .done (.ok content)

/--
The words of consecutive slots, counted modulo their number, and what is done
with them.
-/
def slots
    (start : Int) :
    (count : Nat) →
    (List Bytes → Reading α) →
    Reading α
  | 0, next => next []
  | count + 1, next =>
      .word (start % slotModulus) fun content =>
        slots (start + 1) count fun contents => next (content :: contents)

end Reading

end EvmStorage
