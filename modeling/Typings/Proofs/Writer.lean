import Mathlib.Tactic.Common
import Typings.Declaration

/-!
What writing does to a writer. Whatever is written goes behind the text so far and does not depend on it, and the level is
afterwards what it was before (`Writer.Acts`). This holds of single pieces and of blocks around what has it, so it holds of
types, heads and members at any depth (`TypeExpr.acts_write`). What is written at a place is therefore a text of its own,
`Writer.written`, which depends on the margin of the place alone.
-/

namespace Typings

namespace Writer

variable {w : Writer} {f g : Writer → Writer}

/-- The same place, with nothing written yet. -/
def bare (w : Writer) : Writer := { w with pieces := [] }

/-- The same place, with older pieces before everything that is written. -/
def after (w : Writer) (older : List String) : Writer := { w with pieces := w.pieces ++ older }

lemma bare_after (w : Writer) : w.bare.after w.pieces = w := rfl

lemma text_after (w : Writer) (older : List String) : (w.after older).text = String.join older.reverse ++ w.text := by
  rw [text, after, List.reverse_append, String.join_append, text]

/-! ### Pieces -/

lemma text_begin (w : Writer) : w.begin.text = w.text ++ if w.lineStarted then "" else w.margin := by
  unfold begin
  split_ifs with h
  · rw [String.append_empty]
  · rw [text, List.reverse_cons, String.join_append, text]
    simp [String.join_cons]

lemma text_put (s : String) (w : Writer) : (w.put s).text = w.begin.text ++ s := by
  rw [put, text, List.reverse_cons, String.join_append, text]
  simp [String.join_cons]

lemma text_line (s : String) (w : Writer) : (w.line s).text = (w.put s).text ++ "\n" := by
  rw [line, text, List.reverse_cons, String.join_append, text]
  simp [String.join_cons]

@[simp] lemma lineStarted_put (s : String) (w : Writer) : (w.put s).lineStarted = true := by
  unfold put begin
  split_ifs with h
  · exact h
  · rfl

/-- Inside a line nothing but the piece itself is written. -/
lemma text_put_put (s t : String) (w : Writer) : ((w.put s).put t).text = (w.put s).text ++ t := by
  rw [text_put, text_begin, lineStarted_put, if_pos rfl, String.append_empty]

lemma text_put_line (s t : String) (w : Writer) : ((w.put s).line t).text = (w.put s).text ++ t ++ "\n" := by
  rw [text_line, text_put_put]

/-! ### Acting on a place -/

/-- A way of writing puts text behind the text so far, without looking at it, and comes back to the level it started from. -/
structure Acts (f : Writer → Writer) : Prop where
  after : ∀ w older, f (w.after older) = (f w).after older
  indent : ∀ w, (f w).indent = w.indent
  level : ∀ w, (f w).level = w.level

/-- The text that is written at a place. -/
def written (f : Writer → Writer) (indent : String) (level : Int) (lineStarted : Bool) : String :=
  (f ⟨indent, level, lineStarted, []⟩).text

namespace Acts

lemma text (hf : Acts f) (w : Writer) : (f w).text = w.text ++ written f w.indent w.level w.lineStarted := by
  have h := hf.after w.bare w.pieces
  rw [bare_after] at h
  rw [h, text_after]
  rfl

lemma refl : Acts fun w => w := ⟨fun _ _ => rfl, fun _ => rfl, fun _ => rfl⟩

lemma comp (hg : Acts g) (hf : Acts f) : Acts fun w => g (f w) where
  after w older := by rw [hf.after, hg.after]
  indent w := by rw [hg.indent, hf.indent]
  level w := by rw [hg.level, hf.level]

lemma ite {p : Prop} [Decidable p] (hf : Acts f) (hg : Acts g) : Acts fun w => if p then f w else g w := by
  by_cases hp : p
  · simpa only [if_pos hp] using hf
  · simpa only [if_neg hp] using hg

lemma begin : Acts Writer.begin where
  after w older := by
    unfold Writer.begin
    by_cases h : w.lineStarted = true
    · rw [if_pos h, if_pos (show (w.after older).lineStarted = true from h)]
    · rw [if_neg h, if_neg (show ¬(w.after older).lineStarted = true from h)]
      rfl
  indent w := by
    unfold Writer.begin
    split_ifs <;> rfl
  level w := by
    unfold Writer.begin
    split_ifs <;> rfl

lemma put (s : String) : Acts (Writer.put s) where
  after w older := by
    unfold Writer.put
    rw [begin.after]
    rfl
  indent w := begin.indent w
  level w := begin.level w

lemma line (s : String) : Acts (Writer.line s) where
  after w older := by
    unfold Writer.line
    rw [(put s).after]
    rfl
  indent w := (put s).indent w
  level w := (put s).level w

lemma putDeclarationWord : Acts fun w => w.put w.declarationWord where
  after w older := (put w.declarationWord).after w older
  indent w := (put w.declarationWord).indent w
  level w := (put w.declarationWord).level w

/-- What is written one level deeper ends one level deeper, so that going up again restores the level. -/
lemma nested (hf : Acts f) : Acts fun w => (f w.deeper).higher where
  after w older := by
    have h := hf.after w.deeper older
    exact congrArg higher h
  indent w := hf.indent w.deeper
  level w := by
    show (f w.deeper).level - 1 = w.level
    rw [hf.level]
    exact Int.add_sub_cancel w.level 1

lemma key (name : String) (optional : Bool) : Acts (Writer.key name optional) :=
  (ite (p := optional = true) (put "?") refl).comp (put (keyText name))

lemma putLines (lines : List String) : Acts (Writer.putLines lines) := by
  induction lines with
  | nil => exact refl
  | cons s rest ih => exact ih.comp (line s)

lemma comment (lines : List String) : Acts (Writer.comment lines) :=
  ite refl ((line " */").comp ((putLines (lines.map commentLine)).comp (line "/**")))

lemma typeAlias (name : String) : Acts (Writer.typeAlias name) :=
  (put " = ").comp ((put name).comp ((put "type ").comp putDeclarationWord))

lemma braces (hf : Acts f) (ended : Bool) : Acts fun w => (f w.openBraces).closeBraces ended :=
  (ite (line ";") refl).comp ((put "\x7d").comp (hf.nested.comp (line "\x7b")))

lemma interface (hf : Acts f) (name : String) : Acts fun w => (f (w.openInterface name)).closeInterface :=
  (line "").comp ((hf.braces false).comp ((put " ").comp ((put name).comp ((put "interface ").comp putDeclarationWord))))

end Acts

@[simp] lemma indent_put (s : String) (w : Writer) : (w.put s).indent = w.indent := (Acts.put s).indent w

@[simp] lemma level_put (s : String) (w : Writer) : (w.put s).level = w.level := (Acts.put s).level w

@[simp] lemma indent_line (s : String) (w : Writer) : (w.line s).indent = w.indent := (Acts.line s).indent w

@[simp] lemma level_line (s : String) (w : Writer) : (w.line s).level = w.level := (Acts.line s).level w

end Writer

/-! ### Types -/

namespace TypeExpr

open Writer (Acts)

lemma acts_writeEnd (notes : List String) (ended : Bool) : Acts (writeEnd notes ended) :=
  Acts.ite ((Acts.line "").comp ((Acts.ite .refl (.put _)).comp (.put ";"))) (.ite .refl (.put _))

lemma acts_writeHead (h : Head) : Acts (writeHead h) := by
  cases h with
  | anyName => exact Acts.put _
  | property comment isReadonly name isOptional =>
    exact (Acts.put ": ").comp ((Acts.key name isOptional).comp ((Acts.ite (.put _) .refl).comp (.comment comment)))

mutual

theorem acts_write (ended : Bool) : ∀ t : TypeExpr, Acts (write ended t)
  | plain text notes => by
    simp only [write]
    exact (acts_writeEnd notes ended).comp (.put text)
  | union alternatives notes => by
    simp only [write]
    exact (acts_writeEnd notes ended).comp
      ((Acts.ite .refl (.put ")")).comp ((acts_writeAlternatives alternatives).comp (.ite .refl (.put "("))))
  | array item notes => by
    simp only [write]
    exact (acts_writeEnd notes ended).comp ((Acts.put "[]").comp (acts_write false item))
  | tuples variants notes => by
    simp only [write]
    exact (acts_writeEnd notes ended).comp (acts_writeVariants variants)
  | object members => by
    simp only [write]
    exact (acts_writeMembers members).braces ended

theorem acts_writeAlternatives : ∀ ts : List TypeExpr, Acts (writeAlternatives ts)
  | [] => Acts.refl
  | [t] => acts_write false t
  | t :: u :: rest => (acts_writeAlternatives (u :: rest)).comp ((Acts.put " | ").comp (acts_write false t))

theorem acts_writeSlots : ∀ ts : List TypeExpr, Acts (writeSlots ts)
  | [] => Acts.refl
  | [t] => acts_write false t
  | t :: u :: rest => (acts_writeSlots (u :: rest)).comp ((Acts.put ", ").comp (acts_write false t))

theorem acts_writeVariants : ∀ vs : List (List TypeExpr), Acts (writeVariants vs)
  | [] => Acts.refl
  | [v] => (Acts.put "]").comp ((acts_writeSlots v).comp (.put "["))
  | v :: u :: rest =>
    (acts_writeVariants (u :: rest)).comp
      ((Acts.put " | ").comp ((Acts.put "]").comp ((acts_writeSlots v).comp (.put "["))))

theorem acts_writeMembers : ∀ ms : List (Head × TypeExpr), Acts (writeMembers ms)
  | [] => Acts.refl
  | (h, t) :: rest => (acts_writeMembers rest).comp ((acts_write true t).comp (acts_writeHead h))

end

/-- The type at the end of a line ends the line. -/
lemma lineStarted_write (t : TypeExpr) (w : Writer) : (t.write true w).lineStarted = false := by
  cases t <;> simp only [write] <;> rfl

end TypeExpr

end Typings
