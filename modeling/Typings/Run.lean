import Typings.Generator
import Typings.Settings

/-!
A whole run: the documents of the settings are loaded, the declarations are generated, and they are written to the output
file if there is one. Nothing is written if anything fails.
-/

namespace Typings.Run

variable {m : Type → Type} [Monad m]

/-- Write declarations to a file; the result is the path. -/
def save (files : Files m) (text path : String) : m (Except Failure String) := do
  let p := Path.ofText path
  match ← files.save p (Text.Utf8.encode text.toList) with
  | .ok _ => return .ok p.text
  | .error (fault, place) => return .error (.output p.text (some (fault.message place)))

/-- How the declarations of a run are generated. -/
def optionsOf (origin : Origin m) (settings : Settings) : Generator.Options :=
  { fetcher := origin.fetcher, indent := settings.indent, rules := settings.rules }

/-- Generate declarations for documents; what there was to tell comes newest first, before `told`. -/
def declare (options : Generator.Options) (documents : List (Node × Option String)) (told : List Notice) :
    Except Failure String × List Notice :=
  match Generator.generate options documents { Registry.empty with notices := told } with
  | .ok text r => (.ok text, r.notices)
  | .error f r => (.error f, r.notices)

/-- Do a run; the results are the declarations and what there was to tell, newest first. -/
def generate (origin : Origin m) (settings : Settings) : m (Except Failure String × List Notice) := do
  match ← origin.loadAll settings.sources with
  | (.error f, told) => return (.error f, told.reverse)
  | (.ok documents, told) =>
    match declare (optionsOf origin settings) documents (.loaded documents.length :: told.reverse) with
    | (.error f, told) => return (.error f, told)
    | (.ok text, told) =>
      match given settings.output with
      | none => return (.ok text, told)
      | some output =>
        match ← save origin.files text output with
        | .error f => return (.error f, told)
        | .ok path => return (.ok text, .finished output :: .wrote text.length path :: told)

end Typings.Run
