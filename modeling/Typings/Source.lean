import Typings.Json.Reader
import Typings.Pattern
import Typings.Resolution
import Typings.Web
import Typings.Yaml.Value

/-!
Sources of documents: paths, patterns for paths, and URLs. A document is read as YAML if the name of its file says so, or
its type on the web, and as JSON otherwise. One that is `null` counts as empty.
-/

namespace Typings

/-- Where documents are loaded from. -/
structure Origin (m : Type → Type) where
  /-- The file system. -/
  files : Files m
  /-- The folder that relative paths start in. -/
  base : Path
  /-- The web. -/
  network : Network
  /-- Whether redirections on the web are followed. -/
  follows : Bool

namespace Source

/-- Whether a source is a URL. -/
def isUrl (source : String) : Bool := Url.isWeb source.toList

/-- A failure to load a source, for a reason in words. -/
def failure (source words : String) : Failure := .load source (some (.words words))

/-- Read the text of a document. -/
def parse (source : String) (asYaml : Bool) (cs : List Char) : Except Failure Node := do
  let document ←
    if asYaml then match Yaml.read cs with
      | .ok n => pure n
      | .error (.scalar misfit) => throw (failure source misfit.message)
      | .error _ => throw (.load source (some .notYaml))
    else match Json.read (String.ofList cs) with
      | .ok v => pure (Node.ofJson v)
      | .error words => throw (failure source words)
  if document.isNull then throw (failure source "document is empty") else return document

/-- A text in which every line ends with a line feed alone. -/
def withLineFeeds : List Char → List Char
  | [] => []
  | '\r' :: '\n' :: rest => '\n' :: withLineFeeds rest
  | '\r' :: rest => '\n' :: withLineFeeds rest
  | c :: rest => c :: withLineFeeds rest

/-- Read the octets of a file. -/
def parseFile (source : String) (path : Path) (octets : List Nat) : Except Failure Node :=
  match Text.Utf8.read octets with
  | .ok cs => parse source path.isYaml (withLineFeeds cs)
  | .error f => .error (failure source f.message)

/-- Load a document from the web. -/
def loadUrl (network : Network) (follows : Bool) (url : String) : Except Failure Node :=
  match network.get follows url with
  | .error words => .error (failure url words)
  | .ok reply =>
    let type := ((reply.header? "content-type").getD "").toList
    let asYaml := Address.occurs "yaml".toList type || ".yaml".toList.isSuffixOf url.toList ||
      ".yml".toList.isSuffixOf url.toList
    parse url asYaml reply.body.toList

end Source

namespace Origin

variable {m : Type → Type} [Monad m] (origin : Origin m)

/-- The path of a source. -/
def pathOf (source : String) : Path := origin.base.join (Path.ofText source)

/-- The paths and URLs that a source stands for, with what there is to tell about it. -/
def expand (source : String) : m (Except Failure (List String × List Notice)) := do
  if Source.isUrl source || !Pattern.hasSigns source.toList then return .ok ([source], [])
  else
    let pattern := if (Path.ofText source).isAbsolute then source else (origin.pathOf source).text
    match ← Pattern.expand origin.files pattern with
    | [] => return .error (Source.failure source "pattern matched no files")
    | found => return .ok (found, [.expanded source found.length])

/-- The paths and URLs that sources stand for. What there was to tell is kept also if there is a failure. -/
def expandAll : List String → m (Except Failure (List String) × List Notice)
  | [] => pure (.ok [], [])
  | source :: rest => do
    match ← origin.expand source with
    | .error f => return (.error f, [])
    | .ok (found, notices) =>
      let (others, more) ← expandAll rest
      return (others.map (found ++ ·), notices ++ more)

/-- Load the document of a path. -/
def loadFile (source : String) : m (Except Failure Node) := do
  let path := origin.pathOf source
  match ← origin.files.kind? path.text with
  | none => return .error (Source.failure source ("File not found: " ++ path.text))
  | some _ =>
    match ← origin.files.read path.text with
    | .error f => return .error (Source.failure source (f.message path.text))
    | .ok octets => return Source.parseFile source path octets

/-- Load the document of a path or a URL. -/
def load (source : String) : m (Except Failure Node) :=
  if Source.isUrl source then pure (Source.loadUrl origin.network origin.follows source) else origin.loadFile source

/-- What there is to tell when a source is loaded. -/
def loadNotices (source : String) : List Notice := if Source.isUrl source then [.fetching source] else []

/-- Load documents, each with its URL if it has one. -/
def loadEach : List String → m (Except Failure (List (Node × Option String)))
  | [] => pure (.ok [])
  | source :: rest => do
    match ← origin.load source with
    | .error f => return .error f
    | .ok document =>
      let url := if Source.isUrl source then some source else none
      return (← loadEach rest).map ((document, url) :: ·)

/-- Load all documents of sources. -/
def loadAll (sources : List String) : m (Except Failure (List (Node × Option String)) × List Notice) := do
  match ← origin.expandAll sources with
  | (.error f, notices) => return (.error f, notices)
  | (.ok found, notices) => return (← origin.loadEach found, notices ++ found.flatMap loadNotices)

/-- The way in which references to documents on the web are followed. -/
def fetcher : Fetcher := some fun url =>
  { notices := loadNotices url
    result :=
      let loaded := if Source.isUrl url then Source.loadUrl origin.network origin.follows url
        else .error (Source.failure url ("File not found: " ++ (origin.pathOf url).text))
      loaded.mapError (·.message) }

end Origin

end Typings
