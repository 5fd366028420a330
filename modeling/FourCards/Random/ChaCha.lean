/-
This file defines the keystream of the ChaCha cipher with twelve rounds, taken word by word.
-/

namespace FourCards

namespace ChaCha

/-- The working state of one block. -/
abbrev Block := Vector UInt32 16

def rotateLeft (word : UInt32) (count : UInt32) : UInt32 :=
  (word <<< count) ||| (word >>> (32 - count))

def quarterRound (block : Block) (a b c d : Fin 16) : Block :=
  let mix (block : Block) (target source turned : Fin 16) (count : UInt32) : Block :=
    let block := block.set target (block[target] + block[source])
    block.set turned (rotateLeft (block[turned] ^^^ block[target]) count)
  let block := mix block a b d 16
  let block := mix block c d b 12
  let block := mix block a b d 8
  mix block c d b 7

def columnRound (block : Block) : Block :=
  let block := quarterRound block 0 4 8 12
  let block := quarterRound block 1 5 9 13
  let block := quarterRound block 2 6 10 14
  quarterRound block 3 7 11 15

def diagonalRound (block : Block) : Block :=
  let block := quarterRound block 0 5 10 15
  let block := quarterRound block 1 6 11 12
  let block := quarterRound block 2 7 8 13
  quarterRound block 3 4 9 14

def rounds : Nat → Block → Block
  | 0, block => block
  | count + 1, block => rounds count (diagonalRound (columnRound block))

/-- The words that spell "expand 32-byte k". -/
def constants : Vector UInt32 4 :=
  #v[0x61707865, 0x3320646e, 0x79622d32, 0x6b206574]

/-- The constants, the key, the number of the block and an empty nonce. -/
def initial (key : Vector UInt32 8) (number : UInt64) : Block :=
  constants ++ key ++ #v[number.toUInt32, (number >>> 32).toUInt32, 0, 0]

def keystream (key : Vector UInt32 8) (number : UInt64) : Block :=
  let start := initial key number
  Vector.zipWith (· + ·) (rounds 6 start) start

/-- Eight words made from a seed, each the output of a step of a congruential generator. -/
def keyWords : Nat → UInt64 → List UInt32
  | 0, _ => []
  | count + 1, state =>
      let state := state * 6364136223846793005 + 11634580027462260723
      let mixed := (((state >>> 18) ^^^ state) >>> 27).toUInt32
      let turn := (state >>> 59).toUInt32
      rotateLeft mixed (32 - turn) :: keyWords count state

theorem keyWordsLength (count : Nat) (state : UInt64) :
    (keyWords count state).length = count := by
  induction count generalizing state with
  | zero => rfl
  | succ count inductionHypothesis => simp [keyWords, inductionHypothesis]

def keyOfSeed (seed : UInt64) : Vector UInt32 8 :=
  ⟨(keyWords 8 seed).toArray, by simp [keyWordsLength]⟩

end ChaCha

/-- A place in the keystream of a key. -/
structure ChaCha where
  key : Vector UInt32 8
  position : Nat
deriving DecidableEq

namespace ChaCha

def ofSeed (seed : UInt64) : ChaCha :=
  ⟨keyOfSeed seed, 0⟩

def next (stream : ChaCha) : UInt32 × ChaCha :=
  let block := keystream stream.key (UInt64.ofNat (stream.position / 16))
  (block[stream.position % 16], ⟨stream.key, stream.position + 1⟩)

end ChaCha

end FourCards
