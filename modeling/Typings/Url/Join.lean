import Typings.Url.Parts

/-!
Relative references. A reference is resolved against a base of the same scheme: it keeps its own parts from the first
one that it has, takes the earlier ones from the base, and the path that results has no `.` or `..` segments.
-/

namespace Typings.Url

/-- Take the `.` and `..` segments out; `done` holds the segments so far, backwards. A `..` with nothing before it goes
away. -/
def foldDots (done : List (List Char)) : List (List Char) → List (List Char)
  | [] => done.reverse
  | s :: rest =>
    if s = ['.', '.'] then foldDots (done.drop 1) rest
    else if s = ['.'] then foldDots done rest
    else foldDots (s :: done) rest

/-- Segments joined by slashes. -/
def slashed : List (List Char) → List Char
  | [] => []
  | [s] => s
  | s :: t :: rest => s ++ '/' :: slashed (t :: rest)

/-- Drop the empty segments other than the first and the last. -/
def withoutEmpty (segments : List (List Char)) : List (List Char) :=
  match segments with
  | [] => []
  | s :: rest => s :: rest.dropLast.filter (· ≠ []) ++ rest.drop (rest.length - 1)

/-- The segments of a path seen from a base path, before dots are folded. -/
def segmentsFrom (base path : List Char) : List (List Char) :=
  if path.head? = some '/' then path.splitOn '/'
  else
    let parts := base.splitOn '/'
    let dir := if parts.getLastD [] = [] then parts else parts.dropLast
    withoutEmpty (dir ++ path.splitOn '/')

/-- The path that a reference path means, seen from a base path. -/
def joinPath (base path : List Char) : List Char :=
  let segments := segmentsFrom base path
  let folded := foldDots [] segments
  let last := segments.getLastD []
  let folded := if last = ['.'] || last = ['.', '.'] then folded ++ [[]] else folded
  let joined := slashed folded
  if joined = [] then ['/'] else joined

/-- What a split reference means, seen from a split base of the same scheme. -/
def resolve (base reference : Url) : Url :=
  let hosted := isAmong reference.scheme hostSchemes
  if hosted && reference.host ≠ [] then reference
  else
    let host := if hosted then base.host else reference.host
    if reference.path = [] && reference.params = [] then
      { reference with
        host
        path := base.path
        params := base.params
        query := if reference.query = [] then base.query else reference.query }
    else { reference with host, path := joinPath base.path reference.path }

/-- Resolve a reference against a base. An empty base or reference leaves the other one as it is, and so does a
reference whose scheme is another one or takes no relative references. -/
def join (base reference : List Char) : Except Fault (List Char) :=
  if base = [] then .ok reference
  else if reference = [] then .ok base
  else do
    let b ← split [] base
    let r ← split b.scheme reference
    if r.scheme ≠ b.scheme || !isAmong r.scheme relativeSchemes then return reference
    return (resolve b r).unsplit

end Typings.Url
