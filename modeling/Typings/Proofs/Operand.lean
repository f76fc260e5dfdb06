import Mathlib
import Typings.Proofs.Scan
import Typings.Proofs.Tidy
import Typings.Proofs.Writer

/-!
The item of an array type as an operand. What is written before the brackets of an array is one operand, whatever the item is,
with two exceptions: tuples of different lengths are written without parentheses, so that the brackets belong to the last of
them (`TypeExpr.splits`), and a reference to a schema without letters or digits in its name is empty
(`TypeExpr.isNameless`). Main statement: `Emission.arrayType_operand`.
-/

namespace Typings

/-! ### What is seen of a text -/

namespace Scan

open Text (isBlank)

/-- The characters that are not white space. -/
def visible (cs : List Char) : List Char := cs.filter fun c => !isBlank c

/-- **What a text shows**: the visible characters of its outer part. -/
def Shows (cs shown : List Char) : Prop := ∃ outer, Reads cs outer ∧ visible outer = shown

variable {cs ds shown shown' : List Char}

lemma shows_nil : Shows [] [] := ⟨[], Reads.nil, rfl⟩

lemma Shows.append (h : Shows cs shown) (h' : Shows ds shown') : Shows (cs ++ ds) (shown ++ shown') := by
  obtain ⟨outer, hreads, rfl⟩ := h
  obtain ⟨outer', hreads', rfl⟩ := h'
  exact ⟨outer ++ outer', hreads.append hreads', List.filter_append ..⟩

lemma shows_plain (h : cs.all (fun c => !specials.contains c) = true) : Shows cs (visible cs) := by
  refine ⟨cs, reads_plain fun c hc => ?_, rfl⟩
  simpa using List.all_eq_true.1 h c hc

lemma specials_apart {c : Char} (h : c ∈ specials) : isBlank c = false ∧ Text.isWordChar c = false := by
  have hall : specials.all (fun c => !isBlank c && !Text.isWordChar c) = true := by decide
  simpa using List.all_eq_true.1 hall c h

lemma Shows.brackets {o e : Char} (ho : o ∈ openers) (he : e ∈ closers) (h : Shows cs shown) :
    Shows (o :: (cs ++ [e])) [o, e] := by
  obtain ⟨outer, hreads, -⟩ := h
  refine ⟨[o, e], hreads.brackets ho he, ?_⟩
  have hopen : isBlank o = false := (specials_apart (by simp [specials, ho])).1
  have hclose : isBlank e = false := (specials_apart (by simp [specials, he])).1
  simp [visible, hopen, hclose]

lemma shows_encode (cs : List Char) : Shows (Json.Literal.encode cs) ['"', '"'] := ⟨_, reads_encode cs, by decide⟩

lemma shows_block (h : Text.Quiet cs) : Shows ('/' :: '*' :: (cs ++ ['*', '/'])) [] := ⟨_, reads_block h, rfl⟩

lemma shows_line (h : ∀ c ∈ cs, c ∉ terminators) : Shows ('/' :: '/' :: (cs ++ ['\n'])) [] := ⟨_, reads_line h, rfl⟩

lemma isWordChar_of_isBlank {c : Char} (h : isBlank c = true) : Text.isWordChar c = false := by
  have hall : (Text.blanks.map Char.ofNat).all (fun c => !Text.isWordChar c) = true := by decide
  rw [isBlank, List.contains_iff_mem] at h
  simpa using List.all_eq_true.1 hall c (List.mem_map.2 ⟨c.toNat, h, Char.ofNat_toNat c⟩)

/-- White space is read as it is, and not seen. -/
lemma shows_blanks (h : cs.all isBlank = true) : Shows cs [] := by
  rw [List.all_eq_true] at h
  refine ⟨cs, reads_plain fun c hc hspecial => ?_, by simpa [visible] using h⟩
  exact absurd (h c hc) (by simp [specials_apart hspecial])

/-- Words are read and seen as they are. -/
lemma shows_word (h : Text.IsWord cs) : Shows cs cs := by
  rw [Text.isWord_iff] at h
  refine ⟨cs, reads_plain fun c hc hspecial => ?_, List.filter_eq_self.2 fun c hc => ?_⟩
  · exact absurd (h c hc) (by simp [specials_apart hspecial])
  · rw [Bool.not_eq_true', Bool.eq_false_iff]
    intro hblank
    exact absurd (h c hc) (by simp [isWordChar_of_isBlank hblank])

/-- Whether a text is an operand is seen of what it shows. -/
lemma isOperand_iff {text : String} (h : Shows text.toList shown) : IsOperand text ↔ '|' ∉ shown ∧ shown ≠ [] := by
  obtain ⟨outer, hreads, rfl⟩ := h
  have hrun : run ⟨.code, 0, []⟩ text.toList = ⟨.code, 0, outer⟩ := hreads 0 []
  unfold IsOperand
  rw [hrun]
  have hbar : '|' ∈ visible outer ↔ '|' ∈ outer := by
    simp only [visible, List.mem_filter, and_iff_left_iff_imp]
    exact fun _ => by decide
  have hnone : visible outer ≠ [] ↔ ∃ c ∈ outer, isBlank c = false := by
    simp [visible, List.filter_eq_nil_iff]
  rw [hbar, hnone]
  simp

end Scan

/-! ### Writing -/

namespace Writer

open Scan (Shows shows_nil shows_plain shows_blanks shows_word openers closers visible)

/-- The indentation is white space. -/
def IsBlank (w : Writer) : Prop := ∀ c ∈ w.indent.toList, Text.isBlank c = true

/-- **What is added between two states of a writer**, as it is seen. -/
structure Adds (w w' : Writer) (shown : List Char) : Prop where
  indent : w'.indent = w.indent
  text : ∃ cs, w'.text.toList = w.text.toList ++ cs ∧ Shows cs shown

variable {w w' w'' : Writer} {s t : String} {shown shown' : List Char}

lemma IsBlank.of_indent (h : IsBlank w) (hw : w'.indent = w.indent) : IsBlank w' := by rwa [IsBlank, hw]

lemma IsBlank.of_adds (h : IsBlank w) (hw : Adds w w' shown) : IsBlank w' := h.of_indent hw.indent

/-- A line begins with white space, or it has begun already. -/
lemma exists_begin (hw : IsBlank w) : ∃ m, w.begin.text.toList = w.text.toList ++ m ∧ m.all Text.isBlank = true := by
  refine ⟨_, by rw [text_begin, String.toList_append], List.all_eq_true.2 fun c hc => ?_⟩
  split_ifs at hc with hstarted
  · cases hc
  · rw [margin, String.toList_join] at hc
    obtain ⟨piece, hpiece, hc⟩ := List.mem_flatMap.1 hc
    rw [List.eq_of_mem_replicate hpiece] at hc
    exact hw c hc

namespace Adds

lemma refl (w : Writer) : Adds w w [] := ⟨rfl, [], (List.append_nil _).symm, shows_nil⟩

lemma trans (h : Adds w w' shown) (h' : Adds w' w'' shown') : Adds w w'' (shown ++ shown') := by
  obtain ⟨hindent, cs, htext, hcs⟩ := h
  obtain ⟨hindent', ds, htext', hds⟩ := h'
  exact ⟨hindent'.trans hindent, cs ++ ds, by rw [htext', htext, List.append_assoc], hcs.append hds⟩

/-- A text at the place of a writer. -/
lemma of_text {cs : List Char} (hindent : w'.indent = w.indent) (htext : w'.text.toList = w.text.toList ++ cs)
    (h : Shows cs shown) : Adds w w' shown := ⟨hindent, cs, htext, h⟩

lemma begin (hw : IsBlank w) : Adds w w.begin [] := by
  obtain ⟨m, hm, hblank⟩ := exists_begin hw
  exact of_text (Acts.begin.indent w) hm (shows_blanks hblank)

lemma put (hw : IsBlank w) (h : Shows s.toList shown) : Adds w (w.put s) shown :=
  (begin hw).trans (of_text (by rw [indent_put, Acts.begin.indent]) (by rw [text_put, String.toList_append]) h)

lemma line (hw : IsBlank w) (h : Shows s.toList shown) : Adds w (w.line s) shown := by
  have hend : Adds (w.put s) (w.line s) [] :=
    of_text (by simp) (by rw [text_line, String.toList_append]) (shows_blanks (by decide))
  simpa using (put hw h).trans hend

/-- What stands between two brackets is not seen. -/
lemma enclosed {o e : Char} (ho : o ∈ openers) (he : e ∈ closers) (hs : s.toList = [o]) (ht : t.toList = [e]) (hw : IsBlank w)
    (h : Adds (w.put s) w' shown) : Adds w (w'.put t) [o, e] := by
  obtain ⟨hindent, cs, htext, hcs⟩ := h
  have hindent' : w'.indent = w.indent := hindent.trans (indent_put s w)
  obtain ⟨-, ds, hds, hshows⟩ := begin (hw.of_indent hindent')
  refine (begin hw).trans (of_text ?_ ?_ ((hcs.append hshows).brackets ho he))
  · rw [indent_put, hindent', Acts.begin.indent]
  · rw [text_put, String.toList_append, hds, htext, text_put, String.toList_append, hs, ht]
    simp

end Adds

/-! ### Comments -/

lemma quiet_of_blanks {m : List Char} (h : m.all Text.isBlank = true) : Text.Quiet m :=
  Text.quiet_of_not_mem fun hstar => absurd (List.all_eq_true.1 h _ hstar) (by decide)

/-- The lines of a comment are quiet together, with their margins. -/
lemma exists_putLines {lines : List String} (hw : IsBlank w) (h : ∀ line ∈ lines, Text.Quiet line.toList) :
    ∃ cs, (putLines lines w).text.toList = w.text.toList ++ cs ∧ Text.Quiet cs ∧ ∀ line ∈ lines, line.toList <:+: cs := by
  induction lines generalizing w with
  | nil => exact ⟨[], (List.append_nil _).symm, Text.quiet_nil, List.forall_mem_nil _⟩
  | cons s lines ih =>
    obtain ⟨m, hm, hblank⟩ := exists_begin hw
    have hnext : IsBlank (w.line s) := hw.of_indent (indent_line s w)
    obtain ⟨cs, hcs, hquiet, hinside⟩ := ih hnext fun line hline => h line (List.mem_cons_of_mem _ hline)
    refine ⟨m ++ s.toList ++ '\n' :: cs, ?_, ?_, List.forall_mem_cons.2 ⟨⟨m, '\n' :: cs, rfl⟩, fun line hline => ?_⟩⟩
    · rw [putLines, hcs, text_line, text_put, String.toList_append, String.toList_append, hm]
      simp
    · have hfirst : Text.Quiet (m ++ s.toList) := by
        refine (quiet_of_blanks hblank).append (h s List.mem_cons_self) ?_
        rintro ⟨hstar, -⟩
        exact absurd (List.all_eq_true.1 hblank _ (List.mem_of_getLast? hstar)) (by decide)
      exact hfirst.append_cons hquiet (by decide) (by decide)
    · exact (hinside line hline).trans ⟨m ++ s.toList ++ ['\n'], [], by simp⟩

/-- What stands between the first line of a comment block and its end is quiet, and all lines are there. -/
lemma exists_comment {lines : List String} (hne : lines ≠ []) (hw : IsBlank w) (h : ∀ line ∈ lines, Text.Quiet line.toList) :
    ∃ inner, (w.comment lines).text.toList = w.begin.text.toList ++ ("/**\n".toList ++ inner ++ "*/\n".toList) ∧
      Text.Quiet inner ∧ ∀ line ∈ lines, (commentLine line).toList <:+: inner := by
  have hlines : ∀ line ∈ lines.map commentLine, Text.Quiet line.toList := by
    intro line hline
    obtain ⟨s, hs, rfl⟩ := List.mem_map.1 hline
    exact quiet_commentLine (h s hs)
  have hopen : IsBlank (w.line "/**") := hw.of_indent (by simp)
  obtain ⟨cs, hcs, hquiet, hinside⟩ := exists_putLines hopen hlines
  have hclose : IsBlank (putLines (lines.map commentLine) (w.line "/**")) := hopen.of_indent ((Acts.putLines _).indent _)
  obtain ⟨m, hm, hblank⟩ := exists_begin hclose
  have hlast : (m ++ [' ']).all Text.isBlank = true := by simpa [hblank] using (by decide : Text.isBlank ' ' = true)
  refine ⟨cs ++ (m ++ [' ']), ?_, hquiet.append (quiet_of_blanks hlast) ?_, fun line hline => ?_⟩
  · rw [comment, if_neg (by simpa using hne), text_line, text_put, String.toList_append, String.toList_append, hm, hcs, text_line,
      text_put]
    simp
  · rintro ⟨-, hslash⟩
    exact absurd (List.all_eq_true.1 hlast _ (List.mem_of_head? hslash)) (by decide)
  · exact (hinside _ (List.mem_map_of_mem hline)).trans (List.prefix_append _ _).isInfix

/-- Nothing is seen of a comment block. -/
lemma Adds.comment {lines : List String} (hw : IsBlank w) (h : ∀ line ∈ lines, Text.Quiet line.toList) :
    Adds w (w.comment lines) [] := by
  by_cases hne : lines = []
  · subst hne
    exact .refl w
  · obtain ⟨inner, htext, hquiet, -⟩ := exists_comment hne hw h
    have hstar : Text.Quiet ('*' :: '\n' :: inner) :=
      Text.quiet_cons_iff.2 ⟨by simp, Text.quiet_cons_iff.2 ⟨by simp, hquiet⟩⟩
    have hend : Shows ['\n'] [] := shows_blanks (by decide)
    refine (Adds.begin hw).trans (of_text ?_ ?_ ((Scan.shows_block hstar).append hend))
    · rw [(Acts.comment lines).indent, Acts.begin.indent]
    · rw [htext]
      simp

/-! ### Heads and ends -/

lemma exists_shows_keyText (name : String) : ∃ shown, Shows (keyText name).toList shown := by
  unfold keyText
  split_ifs with h
  · simp only [Name.isIdentifier, Bool.or_eq_true, Bool.and_eq_true, decide_eq_true_eq] at h
    rcases h with h | ⟨hlast, h⟩
    · exact ⟨_, shows_word (Text.isWord_of_isWord h)⟩
    · -- a line feed may stand behind the identifier
      obtain ⟨cs, hcs⟩ := List.getLast?_eq_some_iff.1 hlast
      have hend : Shows ['\n'] [] := shows_blanks (by decide)
      rw [hcs, List.dropLast_concat] at h
      exact ⟨_, hcs ▸ (shows_word (Text.isWord_of_isWord h)).append hend⟩
  · exact ⟨_, by
      rw [Json.text, String.toList_ofList, Json.chars]
      exact Scan.shows_encode _⟩

lemma exists_putIf (p : Bool) (hw : IsBlank w) (h : Shows s.toList shown) :
    ∃ shown, Adds w (if p then w.put s else w) shown := by
  cases p with
  | true => exact ⟨_, .put hw h⟩
  | false => exact ⟨_, .refl w⟩

/-- What comes before the type of a member closes what it opens. -/
lemma exists_writeHead {h : Head} (hh : h.IsTidy) (hw : IsBlank w) : ∃ shown, Adds w (TypeExpr.writeHead h w) shown := by
  cases h with
  | anyName =>
    have hname : Shows "name: string".toList (visible "name: string".toList) := shows_plain (by decide)
    have hcolon : Shows ": ".toList (visible ": ".toList) := shows_plain (by decide)
    exact ⟨_, .put hw ((hname.brackets (o := '[') (e := ']') (by decide) (by decide)).append hcolon)⟩
  | property comment isReadonly name isOptional =>
    have hcomment := Adds.comment hw hh
    obtain ⟨_, hreadonly⟩ := exists_putIf (s := "readonly ") isReadonly (hw.of_adds hcomment) (shows_plain (by decide))
    have hbefore := hcomment.trans hreadonly
    obtain ⟨_, hkey⟩ := exists_shows_keyText name
    have hname := hbefore.trans (.put (hw.of_adds hbefore) hkey)
    obtain ⟨_, hoptional⟩ := exists_putIf (s := "?") isOptional (hw.of_adds hname) (shows_plain (by decide))
    have hafter := hname.trans hoptional
    exact ⟨_, hafter.trans (.put (s := ": ") (hw.of_adds hafter) (shows_plain (by decide)))⟩

lemma isBlank_of_terminator {c : Char} (h : c ∈ Scan.terminators) : Text.isBlank c = true ∧ c ≠ ' ' := by
  have hall : Scan.terminators.all (fun c => Text.isBlank c && c ≠ ' ') = true := by decide
  simpa using List.all_eq_true.1 hall c h

/-- Behind a type inside a line nothing is seen; a line is ended with a semicolon. -/
lemma adds_writeEnd {notes : List String} (hn : AreNotes notes) (ended : Bool) (hw : IsBlank w) :
    Adds w (TypeExpr.writeEnd notes ended w) (if ended then [';'] else []) := by
  have hjoined := Emission.isNote_intercalate hn
  have hspace : Shows [' '] [] := shows_blanks (by decide)
  have hsemicolon : Adds w (w.put ";") [';'] := .put hw (shows_plain (by decide))
  unfold TypeExpr.writeEnd
  dsimp only
  cases ended with
  | true =>
    rw [if_pos rfl, if_pos rfl]
    by_cases hempty : notes.isEmpty = true
    · rw [if_pos hempty]
      simpa using hsemicolon.trans (.line (s := "") (hw.of_indent (by simp)) shows_nil)
    · rw [if_neg hempty]
      have hnote : Shows ('/' :: '/' :: ((' ' :: (" ".intercalate notes).toList) ++ ['\n'])) [] := by
        refine Scan.shows_line fun c hc hend => ?_
        obtain ⟨hblank, hne⟩ := isBlank_of_terminator hend
        rcases List.mem_cons.1 hc with rfl | hc
        · exact hne rfl
        · exact hne (hjoined.oneLine c hc hblank)
      refine hsemicolon.trans (.of_text (by simp) ?_ (hspace.append hnote))
      simp [text_put_line, text_put_put]
  | false =>
    rw [if_neg Bool.false_ne_true, if_neg Bool.false_ne_true]
    by_cases hempty : notes.isEmpty = true
    · rw [if_pos hempty]
      exact .refl w
    · rw [if_neg hempty]
      have hquiet : Text.Quiet (' ' :: (" ".intercalate notes).toList ++ [' ']) :=
        Text.Quiet.append_cons (Text.quiet_cons_iff.2 ⟨by simp, hjoined.quiet⟩) Text.quiet_nil (by decide) (by decide)
      refine .put hw ?_
      simpa using hspace.append (Scan.shows_block hquiet)

end Writer

/-! ### Types -/

namespace TypeExpr

open Writer (Adds IsBlank adds_writeEnd)
open Scan (Shows shows_plain)

/-- The item is written as alternatives without parentheses: it is tuples, or an array of such items. -/
def splits : TypeExpr → Bool
  | tuples _ _ => true
  | array item _ => item.splits
  | plain _ _ | union _ _ | object _ => false

/-- The item is a name without characters. -/
def isNameless : TypeExpr → Bool
  | plain text _ => text = ""
  | union _ _ | array _ _ | tuples _ _ | object _ => false

/-- **A type is read well**: it closes what it opens, and inside a line a bar is seen of it exactly if it splits, and nothing
exactly if it is nameless. -/
def IsReadWell (t : TypeExpr) : Prop :=
  ∀ ended w, IsBlank w → ∃ shown, Adds w (t.write ended w) shown ∧
    (ended = false → ('|' ∈ shown ↔ t.splits = true) ∧ (shown = [] ↔ t.isNameless = true))

variable {w : Writer}

/-- Types in a row, with a separator between them: what alternatives and the items of tuples are. -/
lemma exists_writeRow {f : List TypeExpr → Writer → Writer} {s : String} {shown : List Char} (hnil : ∀ w, f [] w = w)
    (hone : ∀ t w, f [t] w = write false t w)
    (hmore : ∀ t u rest w, f (t :: u :: rest) w = f (u :: rest) ((write false t w).put s))
    (hs : Shows s.toList shown) {ts : List TypeExpr} (h : ∀ t ∈ ts, t.IsReadWell) (hw : IsBlank w) :
    ∃ shown, Adds w (f ts w) shown := by
  induction ts generalizing w with
  | nil =>
    rw [hnil]
    exact ⟨_, .refl w⟩
  | cons t ts ih =>
    obtain ⟨_, hfirst, -⟩ := h t List.mem_cons_self false w hw
    cases ts with
    | nil =>
      rw [hone]
      exact ⟨_, hfirst⟩
    | cons u rest =>
      have hbefore := hfirst.trans (.put (hw.of_adds hfirst) hs)
      obtain ⟨_, hrest⟩ := ih (fun t ht => h t (List.mem_cons_of_mem _ ht)) (hw.of_adds hbefore)
      rw [hmore]
      exact ⟨_, hbefore.trans hrest⟩

lemma exists_writeAlternatives {ts : List TypeExpr} (h : ∀ t ∈ ts, t.IsReadWell) (hw : IsBlank w) :
    ∃ shown, Adds w (writeAlternatives ts w) shown :=
  exists_writeRow (fun _ => rfl) (fun _ _ => rfl) (fun _ _ _ _ => rfl) (shows_plain (by decide)) h hw

lemma exists_writeSlots {ts : List TypeExpr} (h : ∀ t ∈ ts, t.IsReadWell) (hw : IsBlank w) :
    ∃ shown, Adds w (writeSlots ts w) shown :=
  exists_writeRow (fun _ => rfl) (fun _ _ => rfl) (fun _ _ _ _ => rfl) (shows_plain (by decide)) h hw

/-- A tuple is a pair of brackets from outside. -/
lemma adds_tuple {ts : List TypeExpr} (h : ∀ t ∈ ts, t.IsReadWell) (hw : IsBlank w) :
    Adds w ((writeSlots ts (w.put "[")).put "]") ['[', ']'] := by
  obtain ⟨_, hslots⟩ := exists_writeSlots h (hw.of_indent (Writer.indent_put "[" w))
  exact .enclosed (by decide) (by decide) rfl rfl hw hslots

lemma exists_writeVariants {vs : List (List TypeExpr)} (h : ∀ v ∈ vs, ∀ t ∈ v, t.IsReadWell) (hw : IsBlank w) :
    ∃ shown, Adds w (writeVariants vs w) shown ∧ (2 ≤ vs.length → '|' ∈ shown) := by
  induction vs generalizing w with
  | nil => exact ⟨_, .refl w, by simp⟩
  | cons v vs ih =>
    have hfirst := adds_tuple (h v List.mem_cons_self) hw
    cases vs with
    | nil => exact ⟨_, hfirst, by simp⟩
    | cons u rest =>
      have hbefore := hfirst.trans (.put (s := " | ") (hw.of_adds hfirst) (shows_plain (by decide)))
      obtain ⟨_, hrest, -⟩ := ih (fun v hv => h v (List.mem_cons_of_mem _ hv)) (hw.of_adds hbefore)
      refine ⟨_, hbefore.trans hrest, fun _ => ?_⟩
      exact List.mem_append_left _ (List.mem_append_right _ (by decide))

lemma exists_writeMembers {ms : List (Head × TypeExpr)} (hh : ∀ m ∈ ms, m.1.IsTidy) (ht : ∀ m ∈ ms, m.2.IsReadWell)
    (hw : IsBlank w) : ∃ shown, Adds w (writeMembers ms w) shown := by
  induction ms generalizing w with
  | nil => exact ⟨_, .refl w⟩
  | cons m ms ih =>
    obtain ⟨_, hhead⟩ := Writer.exists_writeHead (hh m List.mem_cons_self) hw
    obtain ⟨_, htype, -⟩ := ht m List.mem_cons_self true _ (hw.of_adds hhead)
    have hmember := hhead.trans htype
    obtain ⟨_, hrest⟩ := ih (fun m hm => hh m (List.mem_cons_of_mem _ hm)) (fun m hm => ht m (List.mem_cons_of_mem _ hm))
      (hw.of_adds hmember)
    exact ⟨_, hmember.trans hrest⟩

/-- An object type is a pair of braces from outside. -/
lemma adds_braces {ms : List (Head × TypeExpr)} (hh : ∀ m ∈ ms, m.1.IsTidy) (ht : ∀ m ∈ ms, m.2.IsReadWell) (hw : IsBlank w) :
    Adds w ((writeMembers ms w.openBraces).higher.put "\x7d") [Char.ofNat 0x7B, Char.ofNat 0x7D] := by
  have hindent : w.openBraces.indent = w.indent := Writer.indent_line "\x7b" w
  have hopen : Adds (w.put "\x7b") w.openBraces [] := by
    have hend : Shows ['\n'] [] := Scan.shows_blanks (by decide)
    refine .of_text (hindent.trans (Writer.indent_put _ w).symm) ?_ hend
    exact (congrArg String.toList (Writer.text_line "\x7b" w)).trans String.toList_append
  obtain ⟨_, hmembers⟩ := exists_writeMembers hh ht (hw.of_indent hindent)
  have hinner := hopen.trans hmembers
  have hhigher : Adds (w.put "\x7b") (writeMembers ms w.openBraces).higher _ := ⟨hinner.indent, hinner.text⟩
  exact .enclosed (by decide) (by decide) rfl rfl hw hhigher

lemma exists_shows_atom {text : String} (h : IsAtom text) :
    ∃ shown, Shows text.toList shown ∧ '|' ∉ shown ∧ (shown = [] ↔ text = "") := by
  cases h with
  | word h =>
    refine ⟨_, Scan.shows_word h, fun hbar => absurd (Text.isWord_iff.1 h '|' hbar) (by decide), ?_⟩
    rw [String.toList_eq_nil_iff]
  | literal cs htext =>
    refine ⟨['"', '"'], htext ▸ Scan.shows_encode cs, by decide, by simp, ?_⟩
    rintro rfl
    cases htext
  | anyArray =>
    have hany : Shows "any".toList "any".toList := Scan.shows_word (by decide)
    exact ⟨_, hany.append (Scan.shows_nil.brackets (o := '[') (e := ']') (by decide) (by decide)), by decide, by decide⟩

/-- **Tidy types are read well.** The induction is on the type; what is written behind it shows nothing inside a line. -/
theorem IsTidy.isReadWell {t : TypeExpr} (h : t.IsTidy) : t.IsReadWell := by
  induction h with
  | plain hatom hn =>
    intro ended w hw
    obtain ⟨shown, hshows, hbar, hnone⟩ := exists_shows_atom hatom
    have htext := Adds.put hw hshows
    rw [write]
    refine ⟨_, htext.trans (adds_writeEnd hn ended (hw.of_adds htext)), ?_⟩
    rintro rfl
    simp [splits, isNameless, hbar, hnone]
  | union ht hn ih =>
    intro ended w hw
    rw [write]
    cases ended with
    | true =>
      obtain ⟨_, halternatives⟩ := exists_writeAlternatives ih hw
      exact ⟨_, halternatives.trans (adds_writeEnd hn true (hw.of_adds halternatives)), by simp⟩
    | false =>
      obtain ⟨_, halternatives⟩ := exists_writeAlternatives ih (hw.of_indent (Writer.indent_put "(" w))
      have hparentheses : Adds w ((writeAlternatives _ (w.put "(")).put ")") ['(', ')'] :=
        .enclosed (by decide) (by decide) rfl rfl hw halternatives
      exact ⟨_, hparentheses.trans (adds_writeEnd hn false (hw.of_adds hparentheses)), by simp [splits, isNameless]⟩
  | array ht hn ih =>
    intro ended w hw
    obtain ⟨shown, hitem, hfacts⟩ := ih false w hw
    have hbrackets : Shows "[]".toList ['[', ']'] := Scan.shows_nil.brackets (by decide) (by decide)
    have harray := hitem.trans (.put (hw.of_adds hitem) hbrackets)
    rw [write]
    refine ⟨_, harray.trans (adds_writeEnd hn ended (hw.of_adds harray)), ?_⟩
    rintro rfl
    simp [splits, isNameless, (hfacts rfl).1]
  | tuples hlength ht hn ih =>
    intro ended w hw
    obtain ⟨shown, hvariants, hbar⟩ := exists_writeVariants ih hw
    rw [write]
    refine ⟨_, hvariants.trans (adds_writeEnd hn ended (hw.of_adds hvariants)), fun _ => ?_⟩
    have hmem := hbar hlength
    simp [splits, isNameless, hmem, List.ne_nil_of_mem hmem]
  | @object ms hh ht ih =>
    intro ended w hw
    have hbraces := adds_braces hh ih hw
    rw [write, Writer.closeBraces]
    cases ended with
    | true => exact ⟨_, hbraces.trans (.line (s := ";") (hw.of_adds hbraces) (shows_plain (by decide))), by simp⟩
    | false => exact ⟨_, hbraces, fun _ => by simp [splits, isNameless]⟩

lemma lineStarted_writeEnd (notes : List String) (hw : w.lineStarted = true) :
    (writeEnd notes false w).lineStarted = true := by
  unfold writeEnd
  dsimp only
  rw [if_neg Bool.false_ne_true]
  split_ifs
  · exact hw
  · exact Writer.lineStarted_put _ w

lemma lineStarted_writeVariants {vs : List (List TypeExpr)} (h : vs ≠ []) (w : Writer) :
    (writeVariants vs w).lineStarted = true := by
  induction vs generalizing w with
  | nil => exact absurd rfl h
  | cons v vs ih =>
    cases vs with
    | nil => exact Writer.lineStarted_put _ _
    | cons u rest => exact ih (List.cons_ne_nil u rest) _

/-- A type inside a line does not end the line. -/
lemma IsTidy.lineStarted_write {t : TypeExpr} (h : t.IsTidy) (w : Writer) : (t.write false w).lineStarted = true := by
  cases h with
  | plain => exact lineStarted_writeEnd _ (Writer.lineStarted_put _ w)
  | union => exact lineStarted_writeEnd _ (Writer.lineStarted_put _ _)
  | array => exact lineStarted_writeEnd _ (Writer.lineStarted_put _ _)
  | tuples hlength => exact lineStarted_writeEnd _ (lineStarted_writeVariants (List.ne_nil_of_length_pos (by omega)) w)
  | object => exact Writer.lineStarted_put _ _

/-- An array is written as its item, brackets and the end. -/
lemma text_write_array {item : TypeExpr} (h : item.IsTidy) (notes : List String) (ended : Bool) (w : Writer) :
    ((array item notes).write ended w).text =
      w.text ++ Writer.written (item.write false) w.indent w.level w.lineStarted ++ "[]" ++
        Writer.written (writeEnd notes ended) w.indent w.level true := by
  have hbrackets : ((item.write false w).put "[]").text = (item.write false w).text ++ "[]" := by
    rw [Writer.text_put, Writer.text_begin, h.lineStarted_write, if_pos rfl, String.append_empty]
  rw [write, (acts_writeEnd notes ended).text, hbrackets, (acts_write false item).text, Writer.indent_put, Writer.level_put,
    Writer.lineStarted_put, (acts_write false item).indent, (acts_write false item).level]

/-- The text of a tidy item is one operand, unless it splits or is nameless. -/
theorem IsTidy.isOperand_iff {t : TypeExpr} (h : t.IsTidy) (w : Writer) (hw : IsBlank w) :
    Scan.IsOperand (Writer.written (t.write false) w.indent w.level w.lineStarted) ↔
      t.splits = false ∧ t.isNameless = false := by
  obtain ⟨shown, ⟨-, cs, htext, hshows⟩, hfacts⟩ := h.isReadWell false ⟨w.indent, w.level, w.lineStarted, []⟩ hw
  have hempty : cs = (Writer.written (t.write false) w.indent w.level w.lineStarted).toList := htext.symm
  rw [Scan.isOperand_iff (hempty ▸ hshows), (hfacts rfl).1, ne_eq, (hfacts rfl).2, Bool.not_eq_true, Bool.not_eq_true]

end TypeExpr

namespace Emission

/-- **Items of arrays as operands.** If a schema with one schema for all items has a type, the type is written as the type of
the item, a pair of brackets, and the end. The type of the item is one operand, whatever it is, unless it is tuples or an
array of such items, which are written as alternatives without parentheses, or a name without characters. -/
theorem arrayType_operand (env : Setting) (inside : List String) (depth : Nat) (s : Schema Fields) (items : Json)
    (hitems : s.content.get? "items" = some items) (hnull : items ≠ .null) (harr : ∀ xs, items ≠ .arr xs) {t : TypeExpr}
    {notices notices' : List Notice} (h : arrayType env inside (depth + 1) s notices = .ok t notices') :
    ∃ part item notices₁, partAt env s "/items" notices = .ok part notices₁ ∧
      typeOf env inside depth part notices₁ = .ok item notices' ∧ t = .array item (notes s.content) ∧
      ∀ (ended : Bool) (w : Writer), w.IsBlank →
        (t.write ended w).text = w.text ++ Writer.written (item.write false) w.indent w.level w.lineStarted ++ "[]" ++
          Writer.written (TypeExpr.writeEnd (notes s.content) ended) w.indent w.level true ∧
        (Scan.IsOperand (Writer.written (item.write false) w.indent w.level w.lineStarted) ↔
          item.splits = false ∧ item.isNameless = false) := by
  have harray : arrayType env inside (depth + 1) s = (do
      let part ← partAt env s "/items"
      let item ← typeOf env inside depth part
      return .array item (notes s.content)) := by
    rw [arrayType, hitems, Option.getD_some]
    cases items with
    | null => exact absurd rfl hnull
    | arr xs => exact absurd rfl (harr xs)
    | bool | num | str | extra | obj => rfl
  rw [harray] at h
  obtain ⟨part, notices₁, hpart, h⟩ := exists_of_bind_eq_ok h
  obtain ⟨item, notices₂, hitem, h⟩ := exists_of_bind_eq_ok h
  obtain ⟨rfl, rfl⟩ := EStateM.Result.ok.inj h
  have htidy : item.IsTidy := ((typesTidy env inside depth).typeOf part notices₁).good_of_ok hitem
  exact ⟨part, item, notices₁, hpart, hitem, rfl, fun ended w hw =>
    ⟨TypeExpr.text_write_array htidy _ ended w, htidy.isOperand_iff w hw⟩⟩

/-- A setting in which no other schema is known. -/
def loneSetting : Setting := ⟨⟨none, .distinct, 9⟩, fun _ => .error .endless, fun _ => false, .empty, 9⟩

/-- An array with one schema for all items. -/
def arrayOf (items : Json) : Schema Fields := ⟨.draft07, ⟨"/a#"⟩, [("type", .str "array"), ("items", items)], none, [], false⟩

/-- A text or nothing. -/
def textOrNull : Json := .obj [("type", .arr [.str "string", .str "null"])]

/-- A tuple of one text. -/
def oneText : Json := .obj [("type", .str "array"), ("items", .arr [.obj [("type", .str "string")]])]

theorem arrayType_operand_textOrNull :
    ∃ t notices', (arrayOf textOrNull).content.get? "items" = some textOrNull ∧
      arrayType loneSetting [] 9 (arrayOf textOrNull) [] = .ok t notices' ∧
      (t.write true (Writer.new "  ")).text = "(string | null)" ++ "[]" ++ ";\n" ∧ Scan.IsOperand "(string | null)" := by
  have hrun : arrayType loneSetting [] 9 (arrayOf textOrNull) [] =
      .ok (.array (.union [.plain "string" [], .plain "null" []] []) []) [] := by cbv
  obtain ⟨part, item, _, -, -, ht, hall⟩ := arrayType_operand loneSetting [] 8 (arrayOf textOrNull) textOrNull rfl
    (by rintro ⟨⟩) (by rintro _ ⟨⟩) hrun
  obtain ⟨rfl, -⟩ := TypeExpr.array.inj ht
  have hblank : (Writer.new "  ").IsBlank := List.all_eq_true.1 (by decide)
  exact ⟨_, _, rfl, hrun, by decide +kernel, (hall true _ hblank).2.2 ⟨rfl, rfl⟩⟩

/-- **Tuples split**: the brackets behind tuples of different lengths belong to the last of them. -/
theorem arrayType_splits_tuples :
    ∃ t notices', arrayType loneSetting [] 9 (arrayOf oneText) [] = .ok t notices' ∧
      (t.write true (Writer.new "  ")).text = "[string] | [string, any]" ++ "[]" ++ ";\n" ∧
      ¬Scan.IsOperand "[string] | [string, any]" := by
  have hrun : arrayType loneSetting [] 9 (arrayOf oneText) [] =
      .ok (.array (.tuples [[.plain "string" []], [.plain "string" [], .plain "any" []]] []) []) [] := by cbv
  exact ⟨_, _, hrun, by decide +kernel, by decide +kernel⟩

end Emission

end Typings
