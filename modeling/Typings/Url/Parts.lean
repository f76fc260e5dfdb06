import Typings.Url.Host

/-!
The parts of a URL: scheme, host, path, parameters of the last path segment, query and fragment. Splitting ignores
control characters and blanks in front, and tabs and line ends anywhere; putting together drops empty parts with their
delimiters.
-/

namespace Typings

/-- A URL in parts. -/
structure Url where
  /-- Before the colon, in lower case. -/
  scheme : List Char
  /-- After the two slashes. -/
  host : List Char
  /-- The path. -/
  path : List Char
  /-- After the semicolon of the last path segment. -/
  params : List Char
  /-- After the question mark. -/
  query : List Char
  /-- After the number sign. -/
  fragment : List Char
  deriving DecidableEq

namespace Url

/-- The host of a URL is not one that may be named. -/
inductive Fault where
  /-- No such host. -/
  | badHost

/-- Schemes whose URLs resolve relative references. -/
def relativeSchemes : List String :=
  ["", "ftp", "http", "gopher", "nntp", "imap", "wais", "file", "https", "shttp", "mms", "prospero", "rtsp", "rtspu",
    "sftp", "svn", "svn+ssh", "ws", "wss"]

/-- Schemes whose URLs have a host. -/
def hostSchemes : List String :=
  ["", "ftp", "http", "gopher", "nntp", "telnet", "imap", "wais", "file", "mms", "https", "shttp", "snews", "prospero",
    "rtsp", "rtspu", "rsync", "svn", "svn+ssh", "sftp", "nfs", "git", "git+ssh", "ws", "wss"]

/-- Schemes whose URLs have parameters. -/
def paramSchemes : List String :=
  ["", "ftp", "hdl", "prospero", "http", "imap", "https", "shttp", "rtsp", "rtspu", "sip", "sips", "mms", "sftp",
    "tel"]

/-- Whether a scheme stands in a list. -/
def isAmong (scheme : List Char) (schemes : List String) : Bool := schemes.contains (String.ofList scheme)

/-- Leave out what does not count: controls and blanks in front, tabs and line ends anywhere. -/
def cleaned (cs : List Char) : List Char :=
  (cs.dropWhile fun c => c.toNat ≤ 0x20).filter fun c => !(c = '\t' || c = '\r' || c = '\n')

/-- Characters of a scheme. -/
def isSchemeChar (c : Char) : Bool := c.isAlphanum || c = '+' || c = '-' || c = '.'

/-- Split off the scheme: it starts with a letter and ends at the first colon. -/
def splitScheme (cs : List Char) : Option (List Char × List Char) :=
  let (front, rest) := cs.span (· ≠ ':')
  if rest ≠ [] && (front.head?.map (·.isAlpha)).getD false && front.all isSchemeChar
  then some (front.map (·.toLower), rest.drop 1)
  else none

/-- Characters that end the host. -/
def endsHost (c : Char) : Bool := c = '/' || c = '?' || c = '#'

/-- Split at the first `c`, which goes away. -/
def cut (c : Char) (cs : List Char) : List Char × List Char :=
  let (front, rest) := cs.span (· ≠ c)
  (front, rest.drop 1)

/-- Split the parameters off the last segment of a path. -/
def splitParams (path : List Char) : List Char × List Char :=
  let last := (path.reverse.takeWhile (· ≠ '/')).reverse
  let front := path.take (path.length - last.length)
  let (segment, params) := cut ';' last
  (front ++ segment, params)

/-- Split a URL; `default` is the scheme of one that names none. -/
def split (default cs : List Char) : Except Fault Url :=
  let (scheme, rest) := (splitScheme (cleaned cs)).getD (default, cleaned cs)
  let (host, rest) := if rest.take 2 = ['/', '/'] then (rest.drop 2).span (!endsHost ·) else ([], rest)
  if !isHost host then .error .badHost
  else
    let (rest, fragment) := cut '#' rest
    let (rest, query) := cut '?' rest
    let (path, params) := if isAmong scheme paramSchemes then splitParams rest else (rest, [])
    .ok { scheme, host, path, params, query, fragment }

/-- Whether a text is the URL of something on the web. -/
def isWeb (cs : List Char) : Bool :=
  match split [] cs with
  | .ok u => (u.scheme = "http".toList || u.scheme = "https".toList) && u.host ≠ []
  | .error _ => false

/-- `mark` and a text, or nothing if the text is empty. -/
def marked (mark : Char) (cs : List Char) : List Char := if cs = [] then [] else mark :: cs

/-- Host and path. An empty host gets its two slashes only if the scheme asks for a host and the path does not start
with two slashes itself. -/
def authority (u : Url) (path : List Char) : List Char :=
  if u.host ≠ [] || (u.scheme ≠ [] && isAmong u.scheme hostSchemes && path.take 2 ≠ ['/', '/']) then
    '/' :: '/' :: u.host ++ (if path ≠ [] && path.head? ≠ some '/' then '/' :: path else path)
  else path

/-- Put a URL together. -/
def unsplit (u : Url) : List Char :=
  let body := u.authority (u.path ++ marked ';' u.params)
  (if u.scheme = [] then body else u.scheme ++ ':' :: body) ++ marked '?' u.query ++ marked '#' u.fragment

end Url

end Typings
