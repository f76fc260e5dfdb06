import Typings.Registry

/-!
Resolution of references, in rounds. A round takes the addresses that have no target yet, fetches the documents they
lie in if these can be fetched and are not known, and then looks for each target: among the registered schemas, in a
fetched document, or inside the registered schema whose address is the longest beginning of the one that is looked
for. Targets are registered, so that the next round finds the references inside them. The rounds end when every
reference has its target; if a round leaves some over, all of them are reported together.
-/

namespace Typings

/-- What asking for a document brings. -/
structure Fetched where
  /-- What there is to tell about it. -/
  notices : List Notice
  /-- A document with marks of its own, or the words for what went wrong. -/
  result : Except String Node

/-- How documents are fetched, if they are. -/
abbrev Fetcher := Option (String → Fetched)

namespace Resolution

/-- Whether the document of an address has to be fetched before the address can be resolved. -/
def needsFetch (r : Registry) (key : String) : Bool :=
  let a := Address.ofText key
  !r.schemas.has key && !r.schemas.has a.document && !r.documents.has a.document && a.isFetchable

/-- The locations of the documents that pending addresses need, each once; `done` holds those so far. -/
def wanted (r : Registry) (done : List String) : List String → List String
  | [] => done
  | key :: rest =>
    let url := (Address.ofText key).location
    wanted r (if needsFetch r key && !done.contains url then done ++ [url] else done) rest

/-- Take in what fetching a document brought: nothing, or the words for what went wrong. -/
def receive (url : String) (result : Except String Node) : Action (List String) :=
  match result with
  | .error words => pure ["Fail to fetch the $ref target document " ++ url ++ ": " ++ words]
  | .ok document => do
    Action.tell (.fetched url)
    let schema ← Action.openDocument document (some url)
    Action.register schema
    modify fun r => { r with documents := r.documents.set (Address.ofText url).text schema }
    return []

/-- Take in several documents, in order. -/
def receiveAll : List (String × Except String Node) → Action (List String)
  | [] => pure []
  | (url, result) :: rest => do
    let first ← receive url result
    let others ← receiveAll rest
    return first ++ others

/-- Fetch the documents that pending addresses need; the result are the words for what went wrong. -/
def fetchAll (fetcher : Fetcher) (pending : List String) : Action (List String) := do
  let urls := wanted (← get) [] pending
  match fetcher with
  | none => return urls.map fun url => url ++ "#: no document loader configured"
  | some fetch =>
    modify fun r =>
      { r with
        asked := urls.reverse ++ r.asked
        notices := (urls.flatMap fun url => (fetch url).notices).reverse ++ r.notices }
    receiveAll (urls.map fun url => (url, (fetch url).result))

/-- Whether the schema at `candidate` may hold the one at `key`: its address is a beginning that ends where a pointer
starts. -/
def mayHold (key candidate : String) : Bool :=
  let cs := candidate.toList
  candidate ≠ key && cs.isPrefixOf key.toList &&
    (cs.getLast? = some '#' || (key.toList.drop cs.length).head? = some '/') && cs.contains '#'

/-- The longest of the candidates that may hold `key`; `best` is the longest so far. -/
def longestHolder (key : String) (best : Option String) : List String → Option String
  | [] => best
  | c :: rest =>
    let better := mayHold key c && match best with
      | none => true
      | some b => b.length < c.length
    longestHolder key (if better then some c else best) rest

/-- The schema in which the target of `key` is looked for, and the pointer to it. -/
def holder (r : Registry) (key : Address) : Except Failure (Schema Node × String) :=
  match r.documents.get? key.document with
  | some document => .ok (document, key.fragment)
  | none =>
    match longestHolder key.text none r.schemas.keys with
    | none => .error (.reference key.text .noDocument)
    | some best => match r.schemas.get? best with
      | some s => .ok (s, String.ofList (key.text.toList.drop best.toList.length))
      | none => .error (.reference key.text .noDocument)

/-- The target of an address. -/
def target (key : Address) : Action (Schema Node) := do
  let r ← get
  match r.schemas.get? key.text with
  | some s => return s
  | none =>
    let (parent, pointer) ← Action.lift (holder r key)
    if pointer = "" then return parent
    else
      let s ← Action.lift (Schema.extract r.refs parent ("#" ++ pointer) (some key))
      Action.register s
      return s

/-- The addresses that a round could not resolve, with the reasons. -/
structure Leftover where
  /-- The addresses. -/
  keys : List String
  /-- The reasons. -/
  reasons : List String

/-- Look for the targets of the pending addresses. Failures about schemas are collected, others end the run. -/
def targets : List String → Action Leftover
  | [] => pure ⟨[], []⟩
  | key :: rest => do
    let failed : Option Failure ← fun r => match target (Address.ofText key) r with
      | .ok s r' => .ok none { r' with references := r'.references.set key (some s) }
      | .error f r' => if f.isSchemaFailure then .ok (some f) r' else .error f r'
    let left ← targets rest
    return match failed with
      | none => left
      | some f => ⟨key :: left.keys, f.message :: left.reasons⟩

/-- Resolve in at most `limit` rounds; `round` and `resolved` count what is done. -/
def rounds (fetcher : Fetcher) : (limit round resolved : Nat) → Action Nat
  | 0, _, resolved => do if (← get).pending = [] then return resolved else throw .endless
  | limit + 1, round, resolved => do
    let pending := (← get).pending
    if pending = [] then return resolved
    else
      Action.tell (.roundBegun (round + 1) pending.length)
      let unfetched ← fetchAll fetcher pending
      let left ← targets pending
      if unfetched = [] ∧ left.keys = [] then rounds fetcher limit (round + 1) (resolved + pending.length)
      else
        let named := if left.keys = [] then pending else left.keys
        throw (.reference (", ".intercalate named) (.leftOver (unfetched ++ left.reasons)))

/-- The number of rounds after which resolution is given up. As long as nothing is fetched, every round finds the target
of another reference that stands in what is registered already; the other rounds are for fetched documents. -/
def roundLimit (r : Registry) : Nat := r.size + 1000000

/-- Resolve every reference; the result is how many there were. -/
def resolve (fetcher : Fetcher) : Action Nat := do rounds fetcher (roundLimit (← get)) 0 0

end Resolution

end Typings
