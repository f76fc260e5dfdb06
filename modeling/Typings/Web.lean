import Typings.Json.Number
import Typings.Table
import Typings.Url.Join

/-!
Documents on the web: replies, their status, and redirections.
-/

namespace Typings

/-- A reply to a request. -/
structure Reply where
  /-- The status. -/
  status : Nat
  /-- The headers. -/
  headers : List (String × String)
  /-- The text of the body. -/
  body : String

/-- The replies that there are; a URL without one cannot be reached. -/
abbrev Network := String → Option Reply

namespace Reply

/-- The words for a status. -/
def phrases : List (Nat × String) :=
  [(100, "Continue"), (101, "Switching Protocols"), (102, "Processing"), (103, "Early Hints"), (200, "OK"),
    (201, "Created"), (202, "Accepted"), (203, "Non-Authoritative Information"), (204, "No Content"),
    (205, "Reset Content"), (206, "Partial Content"), (207, "Multi-Status"), (208, "Already Reported"), (226, "IM Used"),
    (300, "Multiple Choices"), (301, "Moved Permanently"), (302, "Found"), (303, "See Other"), (304, "Not Modified"),
    (305, "Use Proxy"), (307, "Temporary Redirect"), (308, "Permanent Redirect"), (400, "Bad Request"),
    (401, "Unauthorized"), (402, "Payment Required"), (403, "Forbidden"), (404, "Not Found"), (405, "Method Not Allowed"),
    (406, "Not Acceptable"), (407, "Proxy Authentication Required"), (408, "Request Timeout"), (409, "Conflict"),
    (410, "Gone"), (411, "Length Required"), (412, "Precondition Failed"), (413, "Request Entity Too Large"),
    (414, "Request-URI Too Long"), (415, "Unsupported Media Type"), (416, "Requested Range Not Satisfiable"),
    (417, "Expectation Failed"), (418, "I'm a teapot"), (421, "Misdirected Request"), (422, "Unprocessable Entity"),
    (423, "Locked"), (424, "Failed Dependency"), (425, "Too Early"), (426, "Upgrade Required"),
    (428, "Precondition Required"), (429, "Too Many Requests"), (431, "Request Header Fields Too Large"),
    (451, "Unavailable For Legal Reasons"), (500, "Internal Server Error"), (501, "Not Implemented"),
    (502, "Bad Gateway"), (503, "Service Unavailable"), (504, "Gateway Timeout"), (505, "HTTP Version Not Supported"),
    (506, "Variant Also Negotiates"), (507, "Insufficient Storage"), (508, "Loop Detected"), (510, "Not Extended"),
    (511, "Network Authentication Required")]

/-- The value of a header; upper and lower case do not differ in names of headers. -/
def header? (r : Reply) (name : String) : Option String := (r.headers.find? fun (k, _) => k.toLower = name).map (·.2)

/-- Where the reply sends to. -/
def target? (r : Reply) : Option String :=
  if [301, 302, 303, 307, 308].contains r.status then r.header? "location" else none

/-- Whether the request succeeded. -/
def isSuccess (r : Reply) : Bool := 200 ≤ r.status && r.status < 300

/-- The words for a reply to a request that did not succeed. -/
def refusal (r : Reply) (url : String) : String :=
  let code := Number.intText r.status
  let kind := match r.status / 100 with
    | 1 => "Informational response"
    | 3 => "Redirect response"
    | 4 => "Client error"
    | 5 => "Server error"
    | _ => "Invalid status code"
  let place := match r.target? with
    | some location => "Redirect location: '" ++ location ++ "'\n"
    | none => ""
  kind ++ " '" ++ code ++ " " ++ (phrases.lookup r.status).getD "" ++ "' for url '" ++ url ++ "'\n" ++ place ++
    "For more information check: https://developer.mozilla.org/en-US/docs/Web/HTTP/Status/" ++ code

end Reply

namespace Network

/-- How many redirections are followed. -/
def maxRedirections : Nat := 20

/-- The reply to a request, and the URL it came from. Redirections are followed as long as there are `left`. -/
def request (network : Network) (follows : Bool) : (left : Nat) → (url : String) → Except String (Reply × String)
  | left, url =>
    match network url with
    | none => .error "connection refused"
    | some reply =>
      match reply.target?, follows, left with
      | some location, true, left + 1 =>
        match Url.join url.toList location.toList with
        | .ok next => request network follows left (String.ofList next)
        | .error _ => .error ("Invalid URL in location header: " ++ location ++ ".")
      | some _, true, 0 => .error "Exceeded maximum allowed redirects."
      | _, _, _ => .ok (reply, url)

/-- The reply to a successful request. -/
def get (network : Network) (follows : Bool) (url : String) : Except String Reply := do
  let (reply, last) ← request network follows maxRedirections url
  if reply.isSuccess then return reply else throw (reply.refusal last)

end Network

end Typings
