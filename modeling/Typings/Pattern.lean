import Typings.Files

/-!
Patterns for names of files. A star stands for any characters, a question mark for one, and brackets for one of those
inside them, or for none of those if an exclamation mark comes first. Between slashes two stars stand for any number of
folders. Names that start with a full stop are found only by patterns that do.
-/

namespace Typings

/-- A part of a pattern for one name. -/
inductive Glyph where
  /-- A star. -/
  | many
  /-- A question mark. -/
  | one
  /-- Brackets, with ranges of characters. -/
  | among (negated : Bool) (ranges : List (Char × Char))
  /-- A character. -/
  | char (c : Char)
  deriving DecidableEq

namespace Glyph

/-- The ranges between brackets; a hyphen between two characters makes a range of them. -/
def ranges : List Char → List (Char × Char)
  | a :: '-' :: b :: rest => (a, b) :: ranges rest
  | a :: rest => (a, a) :: ranges rest
  | [] => []

/-- Split at the closing bracket, if there is one. A bracket right at the start closes nothing. -/
def brackets? (cs : List Char) : Option (Glyph × List Char) :=
  let (negated, body) := match cs with
    | '!' :: rest => (true, rest)
    | _ => (false, cs)
  let (front, rest) := match body with
    | ']' :: more => let (a, b) := more.span (· ≠ ']'); (']' :: a, b)
    | _ => body.span (· ≠ ']')
  match rest with
  | _ :: after => some (among negated (ranges front), after)
  | [] => none

/-- The glyphs of a pattern; `fuel` is its length. -/
def parseFrom : (fuel : Nat) → List Char → List Glyph
  | 0, _ => []
  | _ + 1, [] => []
  | fuel + 1, '*' :: rest => many :: parseFrom fuel rest
  | fuel + 1, '?' :: rest => one :: parseFrom fuel rest
  | fuel + 1, '[' :: rest => match brackets? rest with
    | some (g, after) => g :: parseFrom fuel after
    | none => char '[' :: parseFrom fuel rest
  | fuel + 1, c :: rest => char c :: parseFrom fuel rest

/-- The glyphs of a pattern. -/
def parse (cs : List Char) : List Glyph := parseFrom cs.length cs

/-- Whether a glyph other than a star stands for a character. -/
def accepts (g : Glyph) (c : Char) : Bool :=
  match g with
  | many | one => true
  | among negated rs => rs.any (fun (a, b) => a ≤ c && c ≤ b) != negated
  | char d => c = d

/-- Whether glyphs stand for a name. -/
def fits : List Glyph → List Char → Bool
  | [], cs => cs.isEmpty
  | many :: gs, [] => fits gs []
  | many :: gs, c :: cs => fits gs (c :: cs) || fits (many :: gs) cs
  | _ :: _, [] => false
  | g :: gs, c :: cs => g.accepts c && fits gs cs
termination_by gs cs => gs.length + cs.length

end Glyph

namespace Pattern

/-- Whether a text has signs of a pattern. -/
def hasSigns (cs : List Char) : Bool := cs.any fun c => c = '*' || c = '?' || c = '['

/-- Whether a name or a pattern starts with a full stop. -/
def isHidden (cs : List Char) : Bool := cs.head? = some '.'

/-- The part before the last slash, without the slashes at its end unless it has nothing else, and the part after it. -/
def cutLast (cs : List Char) : List Char × List Char :=
  let last := (cs.reverse.takeWhile (· ≠ '/')).reverse
  let front := cs.take (cs.length - last.length)
  (if front.all (· = '/') then front else (front.reverse.dropWhile (· = '/')).reverse, last)

/-- A folder and a name with a slash between them. -/
def glue (folder name : List Char) : List Char :=
  if folder = [] || folder.getLast? = some '/' then folder ++ name else folder ++ '/' :: name

section

variable {m : Type → Type} [Monad m] (files : Files m)

/-- The names in a folder, or only those of folders. -/
def namesIn (onlyFolders : Bool) (folder : List Char) : m (List (List Char)) := do
  let at' := if folder = [] then "." else String.ofList folder
  let names ← files.names at'
  let kept ← if onlyFolders
    then names.filterM fun n => files.isFolder (String.ofList (glue folder n.toList))
    else pure names
  return kept.map (·.toList)

/-- Everything inside a folder at any depth up to `depth`, without what is hidden. -/
def below (onlyFolders : Bool) : (depth : Nat) → (folder : List Char) → m (List (List Char))
  | 0, _ => pure []
  | depth + 1, folder => do
    let names := (← namesIn files onlyFolders folder).filter (!isHidden ·)
    let parts ← names.mapM fun n => do
      let inner ← below onlyFolders depth (glue folder n)
      return n :: inner.map (glue n)
    return parts.flatten

/-- How deep folders are searched. -/
def maxDepth : Nat := 2048

/-- What a pattern without slashes stands for in a folder. -/
def inFolder (onlyFolders : Bool) (pattern folder : List Char) : m (List (List Char)) := do
  if pattern = ['*', '*'] then
    let self := folder = [] || (← files.isFolder (String.ofList folder))
    return (if self then [[]] else []) ++ (← below files onlyFolders maxDepth folder)
  else if hasSigns pattern then
    let names ← namesIn files onlyFolders folder
    return names.filter fun n => (isHidden pattern || !isHidden n) && Glyph.fits (Glyph.parse pattern) n
  else if pattern = [] then
    return if ← files.isFolder (String.ofList folder) then [[]] else []
  else
    return if ← files.isThere (String.ofList (glue folder pattern)) then [pattern] else []

/-- The paths that a pattern stands for; `fuel` is its length. -/
def search : (fuel : Nat) → (onlyFolders : Bool) → (pattern : List Char) → m (List (List Char))
  | 0, _, _ => pure []
  | fuel + 1, onlyFolders, pattern => do
    let (folder, last) := cutLast pattern
    if folder = [] then inFolder files onlyFolders last []
    else
      let folders ← if hasSigns folder then search fuel true folder else pure [folder]
      let found ← folders.mapM fun f => do return (← inFolder files onlyFolders last f).map (glue f)
      return found.flatten

/-- The paths that a pattern stands for, sorted. -/
def expand (pattern : String) : m (List String) := do
  let cs := pattern.toList
  let found ← search files (cs.length + 1) false cs
  let found := if cs.take 2 = ['*', '*'] && found.head? = some [] then found.drop 1 else found
  return (found.map String.ofList).mergeSort

end

end Pattern

end Typings
