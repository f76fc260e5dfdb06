import Typings.Text.Blank

/-!
Messages on a terminal. Lines are filled with whole words as far as the columns go, a word that is too long for any line
is cut, and every character takes one column. Square brackets around words are styles there, so messages are
written with their brackets escaped; what is left of that are two small changes to backslashes.
-/

namespace Typings.Console

/-! ### Backslashes -/

/-- What follows an opening bracket up to the end of a style, if a style could start there. -/
def style? : List Char → Option (List Char × List Char)
  | [] => none
  | c :: rest =>
    let (body, after) := rest.span fun d => d ≠ '[' && d ≠ ']'
    match after with
    | ']' :: more =>
      if c.isLower || c = '#' || c = '/' || c = '@' then some (c :: body ++ [']'], more) else none
    | _ => none

/-- A message as it comes out of its escaped form: a backslash before a bracket that opens no style is lost. `held` counts
the backslashes that come before. -/
def unescaped : (fuel : Nat) → (held : Nat) → List Char → List Char
  | 0, held, cs => List.replicate held '\\' ++ cs
  | _ + 1, held, [] => List.replicate held '\\'
  | fuel + 1, held, c :: rest =>
    if c = '\\' then unescaped fuel (held + 1) rest
    else if c = '[' then
      match style? rest with
      | some (style, after) => List.replicate held '\\' ++ '[' :: style ++ unescaped fuel 0 after
      | none => List.replicate (held - 1) '\\' ++ '[' :: unescaped fuel 0 rest
    else List.replicate held '\\' ++ c :: unescaped fuel 0 rest

/-- A text with its last backslash doubled, if it ends with one alone. -/
def doubled (cs : List Char) : List Char :=
  match cs.reverse with
  | ['\\'] => ['\\', '\\']
  | '\\' :: c :: _ => if c = '\\' then cs else cs ++ ['\\']
  | _ => cs

/-- Whether a character is a control that is left out: bell, backspace, vertical tab, form feed and carriage return. -/
def isDropped (c : Char) : Bool := [0x7, 0x8, 0xB, 0xC, 0xD].contains c.toNat

/-- The characters of a message that are shown. -/
def shown (cs : List Char) : List Char := (unescaped (cs.length + 1) 0 (doubled cs)).filter (!isDropped ·)

/-! ### Lines -/

/-- Put spaces for tabs, up to the next column of a multiple of eight; `column` is the present one. -/
def withoutTabs (column : Nat) : List Char → List Char
  | [] => []
  | c :: rest =>
    if c = '\t' then
      let count := 8 - column % 8
      List.replicate count ' ' ++ withoutTabs (column + count) rest
    else c :: withoutTabs (column + 1) rest

/-- Cut a text into pieces of a width, the last of which may be shorter; `room` is what is left of the present one. -/
def chopped (width room : Nat) : List Char → List (List Char)
  | [] => [[]]
  | c :: rest =>
    match room with
    | 0 => [] :: (match chopped width (width - 1) rest with
      | first :: more => (c :: first) :: more
      | [] => [[c]])
    | room + 1 => match chopped width room rest with
      | first :: more => (c :: first) :: more
      | [] => [[c]]

/-- Cut a line into words, each with the white space after it, and the first one also with that before it. -/
def cut : (fuel : Nat) → List Char → List (List Char)
  | 0, _ => []
  | fuel + 1, cs =>
    let (front, rest) := cs.span Text.isBlank
    let (word, rest) := rest.span (!Text.isBlank ·)
    let (gap, rest) := rest.span Text.isBlank
    if word = [] then [] else (front ++ word ++ gap) :: cut fuel rest

/-- Lines that are being filled, the last one first. -/
structure Filling where
  /-- The lines. -/
  lines : List (List Char)
  /-- How much of the last line is taken. -/
  used : Nat

/-- Add to the last line. -/
def Filling.extend (f : Filling) (piece : List Char) : List (List Char) :=
  match f.lines with
  | last :: before => (last ++ piece) :: before
  | [] => [piece]

/-- Put a word in. -/
def Filling.put (width : Nat) (f : Filling) (word : List Char) : Filling :=
  let length := (Text.trimEnd word).length
  if f.used + length ≤ width then ⟨f.extend word, f.used + word.length⟩
  else if length ≤ width then ⟨word :: f.lines, word.length⟩
  else
    let pieces := chopped width width word
    let lines := if f.lines.all (·.isEmpty) then pieces.reverse else pieces.reverse ++ f.lines
    ⟨lines, (pieces.getLastD []).length⟩

/-- A line without white space at its end that goes beyond the width. -/
def fitted (width : Nat) (line : List Char) : List Char :=
  line.take (max width (Text.trimEnd line).length)

/-- The lines that one line of a text becomes. -/
def wrapLine (width : Nat) (line : List Char) : List (List Char) :=
  let line := withoutTabs 0 line
  match cut (line.length + 1) line with
  | [] => [fitted width line]
  | words => (words.foldl (Filling.put width) ⟨[[]], 0⟩).lines.reverse.map (fitted width)

/-- The columns of a terminal that does not say how many it has. -/
def width : Nat := 80

/-- A text in lines that fit. -/
def wrapped (cs : List Char) : List Char := ['\n'].intercalate ((cs.splitOn '\n').flatMap (wrapLine width))

/-- A message as it shows on a terminal, after words of the program's own. -/
def message (own text : String) : String := String.ofList (wrapped (own.toList ++ shown text.toList)) ++ "\n"

end Typings.Console
