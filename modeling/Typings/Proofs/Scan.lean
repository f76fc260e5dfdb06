import Mathlib
import Typings.Proofs.Percent
import Typings.Proofs.Quiet

/-!
Declaration text as a reader sees it who knows string literals, comments and brackets, and nothing else (`Scan`). What is left
outside of all of them is the outer text; a text that is one operand has no bar there (`Scan.IsOperand`). A text that closes
whatever it opens is read the same way wherever it stands in code (`Scan.Reads`): such texts may be put behind one another and
into brackets, and literals, comments and plain words are of this kind.
-/

namespace Typings

/-- **The spelling of a character in a literal**: itself, a letter behind a backslash, one escape of four digits, or two. -/
lemma Json.Literal.encodeChar_cases (c : Char) :
    (c ≠ '"' ∧ c ≠ '\\' ∧ (0x20 ≤ c.toNat ∧ c.toNat ≤ 0x7E) ∧ encodeChar c = [c]) ∨
      (∃ e, simpleEscape? e = some c ∧ encodeChar c = ['\\', e]) ∨
      (c.toNat < 0x10000 ∧ encodeChar c = unitEscape c.toNat) ∨
      (0x10000 ≤ c.toNat ∧ encodeChar c =
        unitEscape (0xD800 + (c.toNat - 0x10000) / 1024) ++ unitEscape (0xDC00 + (c.toNat - 0x10000) % 1024)) := by
  by_cases hquote : c = '"'
  · subst hquote
    exact Or.inr (Or.inl ⟨'"', by decide, rfl⟩)
  by_cases hback : c = '\\'
  · subst hback
    exact Or.inr (Or.inl ⟨'\\', by decide, rfl⟩)
  by_cases hplain : 0x20 ≤ c.toNat ∧ c.toNat ≤ 0x7E
  · exact Or.inl ⟨hquote, hback, hplain, by rw [encodeChar, if_neg hquote, if_neg hback, if_pos hplain]⟩
  by_cases hfeed : c = '\n'
  · subst hfeed
    exact Or.inr (Or.inl ⟨'n', by decide, rfl⟩)
  by_cases hreturn : c = '\r'
  · subst hreturn
    exact Or.inr (Or.inl ⟨'r', by decide, rfl⟩)
  by_cases htab : c = '\t'
  · subst htab
    exact Or.inr (Or.inl ⟨'t', by decide, rfl⟩)
  by_cases hbackspace : c.toNat = 0x8
  · rw [← Text.Utf8.ofNat_of_eq hbackspace.symm]
    exact Or.inr (Or.inl ⟨'b', by decide, rfl⟩)
  by_cases hform : c.toNat = 0xC
  · rw [← Text.Utf8.ofNat_of_eq hform.symm]
    exact Or.inr (Or.inl ⟨'f', by decide, rfl⟩)
  rw [encodeChar, if_neg hquote, if_neg hback, if_neg hplain, if_neg hfeed, if_neg hreturn, if_neg htab, if_neg hbackspace,
    if_neg hform]
  by_cases hunit : c.toNat < 0x10000
  · exact Or.inr (Or.inr (Or.inl ⟨hunit, if_pos hunit⟩))
  · exact Or.inr (Or.inr (Or.inr ⟨not_lt.1 hunit, if_neg hunit⟩))

/-- Where a reader stands: in code, behind a slash that may begin a comment, in a literal or behind a backslash in it, in a
comment that goes to the end of the line, in one that does not, or behind a star in that. -/
inductive Scan.Mode where
  | code
  | slash
  | literal (quote : Char)
  | escaped (quote : Char)
  | line
  | block
  | star
  deriving DecidableEq

/-- What a reader knows of the text so far. -/
structure Scan where
  /-- Where the reader stands. -/
  mode : Scan.Mode
  /-- How many brackets are open. -/
  depth : Nat
  /-- The text outside of brackets, literals and comments, with the outermost brackets and quotes themselves. -/
  outer : List Char
  deriving DecidableEq

namespace Scan

/-- The characters around literals. -/
def quotes : List Char := ['"', Char.ofNat 0x27, Char.ofNat 0x60]

/-- Opening brackets. -/
def openers : List Char := ['(', '[', Char.ofNat 0x7B]

/-- Closing brackets. -/
def closers : List Char := [')', ']', Char.ofNat 0x7D]

/-- The characters of code that are more than themselves. -/
def specials : List Char := '/' :: (quotes ++ openers ++ closers)

/-- The characters that end a line. -/
def terminators : List Char := ['\n', '\r', Char.ofNat 0x2028, Char.ofNat 0x2029]

/-- Keep a character if it stands outside of brackets. -/
def keep (s : Scan) (c : Char) : Scan := { s with outer := if s.depth = 0 then s.outer ++ [c] else s.outer }

/-- Read a character of code. -/
def codeStep (s : Scan) (c : Char) : Scan :=
  if c = '/' then { s with mode := .slash }
  else if c ∈ quotes then { s.keep c with mode := .literal c }
  else if c ∈ openers then { s.keep c with depth := s.depth + 1 }
  else if c ∈ closers then { s with depth := s.depth - 1 }.keep c
  else s.keep c

/-- Read a character. -/
def step (s : Scan) (c : Char) : Scan :=
  match s.mode with
  | .code => codeStep s c
  | .slash =>
    if c = '*' then { s with mode := .block }
    else if c = '/' then { s with mode := .line }
    else codeStep { s.keep '/' with mode := .code } c
  | .literal q =>
    if c = '\\' then { s with mode := .escaped q }
    else if c = q then { s with mode := .code }.keep c
    else s
  | .escaped q => { s with mode := .literal q }
  | .line => if c ∈ terminators then { s with mode := .code } else s
  | .block => if c = '*' then { s with mode := .star } else s
  | .star => if c = '/' then { s with mode := .code } else if c = '*' then s else { s with mode := .block }

/-- Read a text. -/
def run (s : Scan) (cs : List Char) : Scan := cs.foldl step s

/-- **A text is one operand**: whatever it opens it closes, and outside of brackets, literals and comments there is something,
but no bar. -/
def IsOperand (text : String) : Prop :=
  let s := run ⟨.code, 0, []⟩ text.toList
  s.mode = .code ∧ s.depth = 0 ∧ '|' ∉ s.outer ∧ ∃ c ∈ s.outer, Text.isBlank c = false

instance (text : String) : Decidable (IsOperand text) :=
  let s := run ⟨.code, 0, []⟩ text.toList
  decidable_of_iff ((s.mode = .code && s.depth = 0 && !s.outer.contains '|' && s.outer.any (!Text.isBlank ·)) = true)
    (by simp [IsOperand, s, and_assoc])

/-! ### Reading wherever one stands -/

/-- **A text reads as its outer part**: wherever in code it stands, reading it leads back to code, with as many brackets
open, and outside of brackets its outer part is kept. -/
def Reads (cs outer : List Char) : Prop :=
  ∀ depth seen, run ⟨.code, depth, seen⟩ cs = ⟨.code, depth, if depth = 0 then seen ++ outer else seen⟩

variable {cs ds outer outer' : List Char} {c : Char} {mode : Mode} {depth : Nat} {seen : List Char}

lemma run_append (s : Scan) (cs ds : List Char) : run s (cs ++ ds) = run (run s cs) ds := List.foldl_append

lemma run_cons (s : Scan) (c : Char) (cs : List Char) : run s (c :: cs) = run (step s c) cs := rfl

lemma Reads.nil : Reads [] [] := by
  intro depth seen
  simp [run]

lemma Reads.append (h : Reads cs outer) (h' : Reads ds outer') : Reads (cs ++ ds) (outer ++ outer') := by
  intro depth seen
  rw [run_append, h, h']
  split_ifs
  · rw [List.append_assoc]
  · rfl

lemma step_plain (h : c ∉ specials) :
    step ⟨.code, depth, seen⟩ c = ⟨.code, depth, if depth = 0 then seen ++ [c] else seen⟩ := by
  simp only [specials, List.mem_cons, List.mem_append, not_or] at h
  obtain ⟨hslash, ⟨hquote, hopen⟩, hclose⟩ := h
  show codeStep _ c = _
  rw [codeStep, if_neg hslash, if_neg hquote, if_neg hopen, if_neg hclose, keep]

lemma reads_plain (h : ∀ c ∈ cs, c ∉ specials) : Reads cs cs := by
  induction cs with
  | nil => exact Reads.nil
  | cons c cs ih =>
    have hc : Reads [c] [c] := fun depth seen => step_plain (h c List.mem_cons_self)
    exact hc.append (ih fun c hc => h c (List.mem_cons_of_mem _ hc))

lemma openers_apart {o : Char} (h : o ∈ openers) : o ≠ '/' ∧ o ∉ quotes := by
  have hall : openers.all (fun o => o ≠ '/' && !quotes.contains o) = true := by decide
  simpa using List.all_eq_true.1 hall o h

lemma closers_apart {e : Char} (h : e ∈ closers) : e ≠ '/' ∧ e ∉ quotes ∧ e ∉ openers := by
  have hall : closers.all (fun e => e ≠ '/' && !quotes.contains e && !openers.contains e) = true := by decide
  simpa [and_assoc] using List.all_eq_true.1 hall e h

/-- Of a text in brackets only the brackets are seen from outside. -/
lemma Reads.brackets {o e : Char} (ho : o ∈ openers) (he : e ∈ closers) (h : Reads cs outer) :
    Reads (o :: (cs ++ [e])) [o, e] := by
  intro depth seen
  have hopen : step ⟨.code, depth, seen⟩ o = ⟨.code, depth + 1, if depth = 0 then seen ++ [o] else seen⟩ := by
    obtain ⟨hslash, hquote⟩ := openers_apart ho
    show codeStep _ o = _
    rw [codeStep, if_neg hslash, if_neg hquote, if_pos ho, keep]
  have hclose : ∀ seen, run ⟨.code, depth + 1, seen⟩ [e] = ⟨.code, depth, if depth = 0 then seen ++ [e] else seen⟩ := by
    obtain ⟨hslash, hquote, hopener⟩ := closers_apart he
    intro seen
    show codeStep _ e = _
    rw [codeStep, if_neg hslash, if_neg hquote, if_neg hopener, if_pos he, keep]
    rfl
  rw [run_cons, hopen, run_append, h, if_neg (Nat.succ_ne_zero depth), hclose]
  split_ifs
  · rw [List.append_assoc]
    rfl
  · rfl

/-! ### Literals -/

lemma run_literal (h : ∀ c ∈ cs, c ≠ '\\' ∧ c ≠ '"') : run ⟨.literal '"', depth, seen⟩ cs = ⟨.literal '"', depth, seen⟩ := by
  induction cs with
  | nil => rfl
  | cons c cs ih =>
    obtain ⟨hback, hquote⟩ := h c List.mem_cons_self
    have hstep : step ⟨.literal '"', depth, seen⟩ c = ⟨.literal '"', depth, seen⟩ := by
      show (if c = '\\' then _ else if c = '"' then _ else _) = _
      rw [if_neg hback, if_neg hquote]
    rw [run_cons, hstep, ih fun c hc => h c (List.mem_cons_of_mem _ hc)]

lemma mem_hexText {width n : Nat} (h : c ∈ Text.hexText width n) : ∃ k < 16, c = Text.lowerHex k := by
  induction width generalizing n with
  | zero => cases h
  | succ width ih =>
    rcases List.mem_append.1 h with h | h
    · exact ih h
    · exact ⟨n % 16, Nat.mod_lt n (by decide), List.mem_singleton.1 h⟩

/-- The character behind a backslash is taken as it is. -/
lemma run_escape (c : Char) (h : ∀ c ∈ cs, c ≠ '\\' ∧ c ≠ '"') :
    run ⟨.literal '"', depth, seen⟩ ('\\' :: c :: cs) = ⟨.literal '"', depth, seen⟩ := by
  rw [run_cons, run_cons]
  exact run_literal h

lemma run_unitEscape (n : Nat) :
    run ⟨.literal '"', depth, seen⟩ (Json.Literal.unitEscape n) = ⟨.literal '"', depth, seen⟩ := by
  refine run_escape 'u' fun c hc => ?_
  obtain ⟨k, hk, rfl⟩ := mem_hexText hc
  have hall : (List.range 16).all (fun k => Text.lowerHex k ≠ '\\' && Text.lowerHex k ≠ '"') = true := by decide
  simpa using List.all_eq_true.1 hall k (List.mem_range.2 hk)

/-- No character of a text ends the literal of the text. -/
lemma run_encodeChar (c : Char) :
    run ⟨.literal '"', depth, seen⟩ (Json.Literal.encodeChar c) = ⟨.literal '"', depth, seen⟩ := by
  rcases Json.Literal.encodeChar_cases c with ⟨hquote, hback, -, h⟩ | ⟨d, -, h⟩ | ⟨-, h⟩ | ⟨-, h⟩
  · rw [h]
    exact run_literal (by simpa using ⟨hback, hquote⟩)
  · rw [h]
    exact run_escape d (by simp)
  · rw [h, run_unitEscape]
  · rw [h, run_append, run_unitEscape, run_unitEscape]

lemma reads_encode (cs : List Char) : Reads (Json.Literal.encode cs) ['"', '"'] := by
  intro depth seen
  have hopen : step ⟨.code, depth, seen⟩ '"' = ⟨.literal '"', depth, if depth = 0 then seen ++ ['"'] else seen⟩ := rfl
  have hbody : ∀ seen, run ⟨.literal '"', depth, seen⟩ (cs.flatMap Json.Literal.encodeChar) =
      ⟨.literal '"', depth, seen⟩ := by
    intro seen
    induction cs with
    | nil => rfl
    | cons c cs ih => rw [List.flatMap_cons, run_append, run_encodeChar, ih]
  have hclose : ∀ seen, run ⟨.literal '"', depth, seen⟩ ['"'] = ⟨.code, depth, if depth = 0 then seen ++ ['"'] else seen⟩ :=
    fun _ => rfl
  rw [Json.Literal.encode, List.cons_append, run_cons, hopen, run_append, hbody, hclose]
  split_ifs
  · rw [List.append_assoc]
    rfl
  · rfl

/-! ### Comments -/

/-- Quiet text does not end a comment, behind a star or not. -/
lemma run_block (h : mode = .block ∧ Text.Quiet cs ∨ mode = .star ∧ Text.Quiet ('*' :: cs)) :
    ∃ mode', (mode' = .block ∨ mode' = .star) ∧ run ⟨mode, depth, seen⟩ cs = ⟨mode', depth, seen⟩ := by
  induction cs generalizing mode with
  | nil => exact ⟨mode, h.imp And.left And.left, rfl⟩
  | cons c cs ih =>
    by_cases hstar : c = '*'
    · subst hstar
      have hstep : step ⟨mode, depth, seen⟩ '*' = ⟨.star, depth, seen⟩ := by
        rcases h with ⟨rfl, -⟩ | ⟨rfl, -⟩ <;> rfl
      rw [run_cons, hstep]
      exact ih (Or.inr ⟨rfl, h.elim And.right fun h => (Text.quiet_cons_iff.1 h.2).2⟩)
    · have hrest : Text.Quiet cs := h.elim (fun h => (Text.quiet_cons_iff.1 h.2).2) fun h =>
        (Text.quiet_cons_iff.1 (Text.quiet_cons_iff.1 h.2).2).2
      have hstep : step ⟨mode, depth, seen⟩ c = ⟨.block, depth, seen⟩ := by
        rcases h with ⟨rfl, -⟩ | ⟨rfl, hq⟩
        · show (if c = '*' then _ else _) = _
          rw [if_neg hstar]
        · have hslash : c ≠ '/' := by
            rintro rfl
            exact (Text.quiet_cons_iff.1 hq).1 ⟨rfl, rfl⟩
          show (if c = '/' then _ else if c = '*' then _ else _) = _
          rw [if_neg hslash, if_neg hstar]
      rw [run_cons, hstep]
      exact ih (Or.inl ⟨rfl, hrest⟩)

lemma reads_block (h : Text.Quiet cs) : Reads ('/' :: '*' :: (cs ++ ['*', '/'])) [] := by
  intro depth seen
  have hopen : step (step ⟨.code, depth, seen⟩ '/') '*' = ⟨.block, depth, seen⟩ := rfl
  obtain ⟨mode', hmode, hrun⟩ : ∃ mode', (mode' = .block ∨ mode' = .star) ∧
      run ⟨.block, depth, seen⟩ cs = ⟨mode', depth, seen⟩ := run_block (Or.inl ⟨rfl, h⟩)
  rw [run_cons, run_cons, hopen, run_append, hrun, List.append_nil, ite_self]
  rcases hmode with rfl | rfl <;> rfl

lemma reads_line (h : ∀ c ∈ cs, c ∉ terminators) : Reads ('/' :: '/' :: (cs ++ ['\n'])) [] := by
  intro depth seen
  have hopen : step (step ⟨.code, depth, seen⟩ '/') '/' = ⟨.line, depth, seen⟩ := rfl
  have hbody : run ⟨.line, depth, seen⟩ cs = ⟨.line, depth, seen⟩ := by
    induction cs with
    | nil => rfl
    | cons c cs ih =>
      have hstep : step ⟨.line, depth, seen⟩ c = ⟨.line, depth, seen⟩ := if_neg (h c List.mem_cons_self)
      rw [run_cons, hstep, ih fun c hc => h c (List.mem_cons_of_mem _ hc)]
  rw [run_cons, run_cons, hopen, run_append, hbody, List.append_nil, ite_self]
  rfl

end Scan

end Typings
