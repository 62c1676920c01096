/-
ProcBook/Text/Word.lean

Word characters: letters, marks, digits, connecting punctuation and the two joiners.  A keyword
counts only where no word character touches it, so this class decides where words begin and end.
-/
import ProcBook.Text.WordTable

namespace ProcBook.Text

/-- Whether `n` lies in the class whose beginnings and ends are `flips`: an odd number of them has
been passed. -/
def insideFlips (flips : List Nat) (n : Nat) : Bool := flips.countP (· ≤ n) % 2 == 1

/-- The characters that make up words. -/
def isWord (c : Char) : Bool :=
  if c.toNat < 0x80 then c.isAlphanum || c == '_' else insideFlips wordFlips c.toNat

end ProcBook.Text
