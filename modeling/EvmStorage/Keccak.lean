import EvmStorage.Bytes

namespace EvmStorage.Keccak

/-!
# Keccak-256

The sponge of 1600 bits with a rate of 136 bytes, padded with a one bit, zeros
and a final one bit.  Everything that depends on a hash takes it as a
parameter of type `Digest`; `Keccak.digest` is the one that contracts use.
-/

/--
A lane of the state for each of the 25 places, `x + 5 * y` holding column `x`
of row `y`.
-/
abbrev State := Vector UInt64 25

/-- The number of message bytes taken in by one permutation. -/
def rate : Nat :=
  136

/-- The lane in column `x` and row `y`, both counted modulo five. -/
def lane
    (state : State)
    (x y : Nat) :
    UInt64 :=
  state.get ⟨x % 5 + 5 * (y % 5), by omega⟩

/--
The state whose lane in column `x` and row `y` is the given function of them.
-/
def fill (f : Nat → Nat → UInt64) : State :=
  Vector.ofFn fun place => f (place.val % 5) (place.val / 5)

/-- A lane turned left by fewer than 64 bits. -/
def turn
    (word : UInt64)
    (distance : Nat) :
    UInt64 :=
  if distance = 0 then
    word
  else
    (word <<< UInt64.ofNat distance) ||| (word >>> UInt64.ofNat (64 - distance))

/-- How far each lane is turned, row by row. -/
def distances : Vector Nat 25 :=
  #v[
    0, 1, 62, 28, 27,
    36, 44, 6, 55, 20,
    3, 10, 43, 25, 39,
    41, 45, 15, 21, 8,
    18, 2, 61, 56, 14
  ]

/-- The constants added to the first lane, one for each round. -/
def roundConstants : List UInt64 :=
  [
    0x0000000000000001, 0x0000000000008082, 0x800000000000808a,
    0x8000000080008000, 0x000000000000808b, 0x0000000080000001,
    0x8000000080008081, 0x8000000000008009, 0x000000000000008a,
    0x0000000000000088, 0x0000000080008009, 0x000000008000000a,
    0x000000008000808b, 0x800000000000008b, 0x8000000000008089,
    0x8000000000008003, 0x8000000000008002, 0x8000000000000080,
    0x000000000000800a, 0x800000008000000a, 0x8000000080008081,
    0x8000000000008080, 0x0000000080000001, 0x8000000080008008
  ]

/-- The parity of each column. -/
def parities (state : State) : Vector UInt64 5 :=
  Vector.ofFn fun x =>
    lane state x 0 ^^^ lane state x 1 ^^^ lane state x 2 ^^^
      lane state x 3 ^^^ lane state x 4

/-- Adds to each lane the parities of the two columns beside it. -/
def mixColumns (state : State) : State :=
  let sums := parities state
  let parity (x : Nat) : UInt64 :=
    sums.get ⟨x % 5, by omega⟩
  let beside (x : Nat) : UInt64 :=
    parity (x + 4) ^^^ turn (parity (x + 1)) 1
  fill fun x y => lane state x y ^^^ beside x

/--
Turns every lane and moves it to its new place.

The lane of column `x` and row `y` moves to column `y` and row `2 x + 3 y`, so
column `x` and row `y` are filled from column `x + 3 y` and row `x`.
-/
def turnAndMove (state : State) : State :=
  fill fun x y =>
    turn
      (lane state (x + 3 * y) x)
      (distances.get ⟨(x + 3 * y) % 5 + 5 * (x % 5), by omega⟩)

/-- Combines each lane with the two that follow it in its row. -/
def mixRows (state : State) : State :=
  fill fun x y =>
    lane state x y ^^^ (~~~(lane state (x + 1) y) &&& lane state (x + 2) y)

/-- One round of the permutation. -/
def round
    (state : State)
    (constant : UInt64) :
    State :=
  let mixed := mixRows (turnAndMove (mixColumns state))
  mixed.set 0 (mixed[0] ^^^ constant)

/-- The permutation of the state. -/
def permute (state : State) : State :=
  roundConstants.foldl round state

/-- The lane written by eight bytes, least significant first. -/
def laneOfBytes (bytes : Bytes) : UInt64 :=
  UInt64.ofNat (Bytes.toNat bytes.reverse)

/-- The eight bytes of a lane, least significant first. -/
def bytesOfLane (word : UInt64) : Bytes :=
  (Bytes.ofNat 8 word.toNat).reverse

/-- Takes one block of `rate` bytes into the state. -/
def absorb
    (state : State)
    (block : Bytes) :
    State :=
  permute
    (Vector.ofFn fun place =>
      if place.val < rate / 8 then
        state[place] ^^^ laneOfBytes ((block.drop (8 * place.val)).take 8)
      else
        state[place])

/-- A message filled up to a whole number of blocks. -/
def pad (message : Bytes) : Bytes :=
  let missing := rate - message.length % rate
  if missing = 1 then
    message ++ [0x81]
  else
    message ++ 0x01 :: (List.replicate (missing - 2) 0x00 ++ [0x80])

/-- The state after a whole message. -/
def absorbAll (message : Bytes) : State :=
  let padded := pad message
  (List.range (padded.length / rate)).foldl
    (fun state index => absorb state ((padded.drop (rate * index)).take rate))
    (Vector.replicate 25 0)

/-- The 32 bytes of the hash of a message. -/
def hash (message : Bytes) : Bytes :=
  let state := absorbAll message
  [lane state 0 0, lane state 1 0, lane state 2 0, lane state 3 0].flatMap
    bytesOfLane

end EvmStorage.Keccak

namespace EvmStorage

/--
A hash of byte strings, its result read as a number.

Slots are such numbers, so nothing else of a hash is ever used.
-/
abbrev Digest := Bytes → Nat

/-- The Keccak-256 hash as a 256-bit number. -/
def Keccak.digest : Digest :=
  fun message => Bytes.toNat (Keccak.hash message)

end EvmStorage
