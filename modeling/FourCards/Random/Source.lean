/-
This file defines sources of random words and draws numbers below a bound from them.
-/

import FourCards.Random.ChaCha

namespace FourCards

class WordSource (σ : Type) where
  next : σ → UInt32 × σ

inductive Source where
  /-- The words of a list, then zeros. -/
  | listed (words : List UInt32)
  /-- The upper halves of the states of a congruential generator. -/
  | congruential (state : UInt64)
  | keystream (stream : ChaCha)
deriving DecidableEq

namespace Source

def ofSeed (seed : UInt64) : Source :=
  keystream (ChaCha.ofSeed seed)

def next : Source → UInt32 × Source
  | listed [] => (0, listed [])
  | listed (word :: words) => (word, listed words)
  | congruential state =>
      let state := state * 6364136223846793005 + 1442695040888963407
      ((state >>> 32).toUInt32, congruential state)
  | keystream stream => (stream.next.1, keystream stream.next.2)

instance : WordSource Source := ⟨next⟩

end Source

namespace Draw

/-- The last word that is accepted when drawing below `bound`: up to it, the low halves of the
products cover every outcome equally often. -/
def zone (bound : Nat) : Nat :=
  bound <<< (31 - bound.log2) - 1

def accepts (bound : Nat) (word : UInt32) : Bool :=
  word.toNat * bound % UInt32.size ≤ zone bound

theorem outcomeBelow (bound : Nat) (positive : 0 < bound) (word : UInt32) :
    word.toNat * bound / UInt32.size < bound := by
  have below : word.toNat < UInt32.size := word.toNat_lt
  rw [Nat.div_lt_iff_lt_mul (by decide), Nat.mul_comm]
  exact Nat.mul_lt_mul_of_pos_left below positive

/-- The upper half of the product of the word and the bound. -/
def outcome (last : Nat) (word : UInt32) : Fin (last + 1) :=
  ⟨word.toNat * (last + 1) / UInt32.size, outcomeBelow (last + 1) (Nat.succ_pos last) word⟩

/-- Draws a number up to `last` from the first word that is accepted. If none ever is, the search for it
has no end and nothing is drawn. -/
def upTo {σ : Type} [WordSource σ] (last : Nat) (source : σ) : Option (Fin (last + 1) × σ) :=
  let drawn := WordSource.next source
  if accepts (last + 1) drawn.1 then some (outcome last drawn.1, drawn.2)
  else by
    -- The search goes on with the words that are left.
    apply upTo
    exact drawn.2
partial_fixpoint

/-- The places of a shuffle are drawn from a source. -/
def pick {σ : Type} [WordSource σ] (last : Nat) : StateT σ Option (Fin (last + 1)) :=
  upTo last

end Draw

end FourCards
