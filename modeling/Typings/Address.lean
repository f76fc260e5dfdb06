import Typings.Pointer
import Typings.Url.Join

/-!
Addresses of schemas. An address is the absolute form of an id or a reference: a document, a number sign and a fragment
in its one spelling. It is the key a schema is registered under, and its segments are the namespaces the schema is
declared in.
-/

namespace Typings

/-- The absolute address of a schema. -/
structure Address where
  /-- Document, number sign, fragment. -/
  text : String
  deriving DecidableEq

namespace Address

/-- Whether `part` stands somewhere in a text. -/
def occurs (part : List Char) : List Char → Bool
  | [] => part.isEmpty
  | c :: rest => part.isPrefixOf (c :: rest) || occurs part rest

/-- A text with a number sign, and with a slash in front if it is no URL and has none. -/
def rooted (cs : List Char) : List Char :=
  let marked := if cs.contains '#' then cs else cs ++ ['#']
  if occurs "://".toList marked || marked.head? = some '/' || marked.head? = some '#' then marked else '/' :: marked

/-- Document and fragment, the fragment in its one spelling. -/
def canonical (cs : List Char) : List Char :=
  let (document, fragment) := Url.cut '#' (rooted cs)
  document ++ '#' :: Pointer.canonicalFragment fragment

/-- The address that a text is for itself. -/
def ofText (text : String) : Address := ⟨String.ofList (canonical text.toList)⟩

/-- The base that enclosing ids make, from the outermost in: each is resolved against those before it. -/
def base : List Char → List String → Except Failure (List Char)
  | acc, [] => .ok acc
  | acc, p :: rest =>
    if p = "" then base acc rest
    else match Url.join acc p.toList with
      | .ok acc' => base acc' rest
      | .error _ => .error .badUrl

/-- The address of a text inside enclosing ids, given from the outermost in. -/
def within (text : String) (parents : List String) : Except Failure Address :=
  match base [] parents with
  | .error e => .error e
  | .ok [] => .ok (ofText text)
  | .ok b => match Url.join b text.toList with
    | .ok cs => .ok ⟨String.ofList (canonical cs)⟩
    | .error _ => .error .badUrl

/-- The address of a document without an id. -/
def empty : Address := ofText ""

/-- Whether it is the address of a document without an id. -/
def isEmpty (a : Address) : Bool := a.text = "#"

/-- Whether the document can be fetched. -/
def isFetchable (a : Address) : Bool := "http://".toList.isPrefixOf a.text.toList || "https://".toList.isPrefixOf a.text.toList

/-- The document's own location, without number sign and fragment. -/
def location (a : Address) : String := String.ofList (Url.cut '#' a.text.toList).1

/-- The address of the document. -/
def document (a : Address) : String := a.location ++ "#"

/-- The fragment. -/
def fragment (a : Address) : String := String.ofList (Url.cut '#' a.text.toList).2

/-- The names that the segments of a path stand for. -/
def segmentNames (cs : List Char) : List String :=
  ((cs.splitOn '/').filter (· ≠ [])).map fun s => String.ofList (Pointer.unescapeChars (Text.Percent.decode s))

/-- The names of an address: the host, the segments of the path, the segments of the fragment. -/
def names (a : Address) : Except Failure (List String) :=
  match Url.split [] a.text.toList with
  | .error _ => .error .badUrl
  | .ok u =>
    .ok ((if u.host = [] then [] else [String.ofList (Text.Percent.decode u.host)]) ++
      segmentNames u.path ++ segmentNames u.fragment)

/-- The last name, or nothing. -/
def lastName (a : Address) : Except Failure String := a.names.map (·.getLastD "")

end Address

end Typings
