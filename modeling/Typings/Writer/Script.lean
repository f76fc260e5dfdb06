import Typings.Writer

/-!
Writing as a program: steps that write, blocks with steps inside, steps that fail, and attempts that catch a failure.
However a block is left, the level of nesting is the one it was entered at; only a block that comes to its end
writes its closing brace.
-/

namespace Typings.Writer

/-- A block with its own beginning and end. -/
inductive Block where
  /-- A namespace. -/
  | space (name : String)
  /-- An interface. -/
  | interface (name : String)
  /-- Braces, which end the line or not. -/
  | braces (ended : Bool)
  /-- A deeper level and nothing else. -/
  | nested
  deriving DecidableEq

/-- A step of a program. -/
inductive Step where
  /-- Write a piece. -/
  | put (text : String)
  /-- Write a piece and end the line. -/
  | line (text : String)
  /-- Write a property name. -/
  | key (name : String) (optional : Bool)
  /-- Write a comment block. -/
  | comment (values : List Json)
  /-- Begin a type alias. -/
  | typeAlias (name : String)
  /-- Write the word before a declaration. -/
  | word
  /-- Start over. -/
  | clear
  /-- Fail. -/
  | fail
  /-- Do steps inside a block. -/
  | block (b : Block) (steps : List Step)
  /-- Do steps and go on behind them if they fail. -/
  | attempt (steps : List Step)

namespace Block

/-- Write the beginning. -/
def enter : Block → Writer → Writer
  | space name, w => w.openNamespace name
  | interface name, w => w.openInterface name
  | braces _, w => w.openBraces
  | nested, w => w.deeper

/-- Write the end. -/
def finish : Block → Writer → Writer
  | space _, w => w.closeNamespace
  | interface _, w => w.closeInterface
  | braces ended, w => w.closeBraces ended
  | nested, w => w.higher

end Block

/-- What a program has come to. -/
inductive Event where
  /-- A step was done. -/
  | did (step : Step)
  /-- A block was entered. -/
  | entered (b : Block)
  /-- A block came to its end. -/
  | finished
  /-- A failure was caught. -/
  | caught

/-- An event, with the writer as it was then. -/
structure Entry where
  /-- What happened. -/
  event : Event
  /-- The writer afterwards. -/
  writer : Writer

/-- Whether a program goes on. -/
inductive Course where
  /-- It goes on. -/
  | running
  /-- It failed. -/
  | failed
  deriving DecidableEq

/-- A program underway: the writer, the events so far, newest first, and whether it goes on. -/
structure Progress where
  /-- The writer. -/
  writer : Writer
  /-- The events so far, newest first. -/
  entries : List Entry
  /-- Whether it goes on. -/
  course : Course

/-- Take down an event. -/
def Progress.note (p : Progress) (e : Event) (w : Writer) : Progress :=
  { p with writer := w, entries := ⟨e, w⟩ :: p.entries }

mutual

/-- Do one step. -/
def step : Step → Progress → Progress
  | .put s, p => p.note (.did (.put s)) (p.writer.put s)
  | .line s, p => p.note (.did (.line s)) (p.writer.line s)
  | .key name optional, p => p.note (.did (.key name optional)) (p.writer.key name optional)
  | .comment values, p =>
    p.note (.did (.comment values)) (p.writer.comment (values.flatMap commentLines))
  | .typeAlias name, p => p.note (.did (.typeAlias name)) (p.writer.typeAlias name)
  | .word, p => p.note (.did .word) (p.writer.put p.writer.declarationWord)
  | .clear, p => p.note (.did .clear) p.writer.clear
  | .fail, p => { p with course := .failed }
  | .block b body, p =>
    let q := steps body (p.note (.entered b) (b.enter p.writer))
    match q.course with
    | .running => q.note .finished (b.finish q.writer)
    | .failed => { q with writer := q.writer.higher }
  | .attempt body, p =>
    let q := steps body p
    match q.course with
    | .running => q
    | .failed => { q.note .caught q.writer with course := .running }

/-- Do steps, one after the other, until one fails. -/
def steps : List Step → Progress → Progress
  | [], p => p
  | s :: rest, p =>
    let q := step s p
    match q.course with
    | .running => steps rest q
    | .failed => q

end

/-- Run a program on a new writer. -/
def run (indent : String) (program : List Step) : Progress := steps program ⟨new indent, [], .running⟩

end Typings.Writer
