import Typings.Text.CodePoint
import Typings.Text.Decomposition.Data

/-!
Text without accents. A character is replaced by the starters of its compatibility decomposition: ligatures, letters
in circles and wide forms become plain letters, and combining marks go away. As only marks are ever put into another
order by decomposing a text, nothing has to be sorted.
-/

namespace Typings.Text

/-- The table of starters. -/
def Decomposition.table : List Run := Run.readAll Decomposition.data

/-- The parts of a Hangul syllable: leading consonant, vowel and, if there is one, trailing consonant. -/
def hangulParts (n : Nat) : List Char :=
  let i := n - 0xAC00
  let tail := i % 28
  [Char.ofNat (0x1100 + i / 588), Char.ofNat (0x1161 + i % 588 / 28)] ++
    if tail = 0 then [] else [Char.ofNat (0x11A7 + tail)]

/-- The starters of the compatibility decomposition of a character. -/
def starters (c : Char) : List Char :=
  if c.toNat < 0x80 then [c]
  else if 0xAC00 ≤ c.toNat ∧ c.toNat ≤ 0xD7A3 then hangulParts c.toNat
  else match Decomposition.table.find? (·.holds c.toNat) with
    | some r => r.image.map fun n => Char.ofNat (n + (c.toNat - r.first))
    | none => [c]

/-- Text with every character replaced by the starters of its decomposition. -/
def unaccented (cs : List Char) : List Char := cs.flatMap starters

end Typings.Text
