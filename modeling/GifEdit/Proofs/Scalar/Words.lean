/-
  GifEdit.Proofs.Scalar.Words
  ───────────────────────────
  **ARITHMETIC THAT MUST STAY IN WORDS.**

  Positions and sides are 32-bit words.  The editor computes with them as with natural
  numbers, and that is right as long as no sum passes the largest word and no difference
  falls below zero.  The checked operations have a result exactly then:

      word? n          n itself           where n is a word
      wordSub? a b     the difference     where b is at most a

  A computation written with them has a result only if it never left the words on its
  way, and the result is that of the natural numbers.
-/
import GifEdit.Scalar

namespace GifEdit.Scalar

/-- A whole number as a word, if it is one. -/
def word? (n : Nat) : Option Nat := if n ≤ wordMax then some n else none

/-- The difference of two words, if it is not below zero. -/
def wordSub? (a b : Nat) : Option Nat := if b ≤ a then some (a - b) else none

variable {n m a b c : Nat}

theorem word?_eq_some : word? n = some m ↔ n ≤ wordMax ∧ n = m := by
  unfold word?
  by_cases h : n ≤ wordMax
  · rw [if_pos h]
    simp [h]
  · rw [if_neg h]
    simp [h]

theorem word?_of_le (h : n ≤ wordMax) : word? n = some n := if_pos h

theorem wordSub?_of_le (h : b ≤ a) : wordSub? a b = some (a - b) := if_pos h

end GifEdit.Scalar
