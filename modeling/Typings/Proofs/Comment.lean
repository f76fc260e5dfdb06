import Typings.Proofs.Operand

/-!
Comments that end where they should. In a comment block the end of a comment stands once, behind all that was told
(`Text.ClosesOnce`), and so it does in the comment that holds the notes on a type inside a line; the notes at the end of a line
stand on that line. All of it holds for any values: where the force is taken out of a text no comment ends
(`Writer.quiet_defused`), and whatever is done to the text afterwards puts no slash behind a star. Main statement:
`Emission.comments_close_once`.
-/

namespace Typings

namespace Text

/-- **The end of a comment stands once** in a text, and `rest` behind it. -/
structure ClosesOnce (cs rest : List Char) : Prop where
  closes : '*' :: '/' :: rest <:+ cs
  once : ∀ front back, cs = front ++ '*' :: '/' :: back → back = rest

/-- A comment that is quiet up to its end, star included, and behind its end, ends once. -/
lemma closesOnce_of_quiet {front rest : List Char} (hf : Quiet front) (hr : Quiet ('/' :: rest)) :
    ClosesOnce (front ++ '*' :: '/' :: rest) rest where
  closes := List.suffix_append _ _
  once := by
    induction front with
    | nil =>
      rintro (_ | ⟨c, xs⟩) back h
      · exact (List.cons.inj (List.cons.inj h).2).2.symm
      · exact absurd ⟨xs, back, by simpa using (List.cons.inj h).2.symm⟩ hr
    | cons c front ih =>
      rw [quiet_cons_iff] at hf
      rintro (_ | ⟨d, xs⟩) back h
      · -- a star at the front would have to be followed by a slash
        obtain ⟨rfl, htail⟩ := List.cons.inj h
        cases front with
        | nil => cases htail
        | cons d front => exact absurd ⟨rfl, by simpa using (List.cons.inj htail).1⟩ hf.1
      · exact ih hf.2 xs back (List.cons.inj h).2

end Text

namespace Writer

open Text (Quiet ClosesOnce closesOnce_of_quiet)

variable {w : Writer}

/-- A comment block is empty or closes once, and says all its lines. -/
lemma closesOnce_comment {lines : List String} (hw : IsBlank w) (h : ∀ line ∈ lines, Quiet line.toList) :
    ∃ block, (w.comment lines).text.toList = w.text.toList ++ block ∧ (block ≠ [] → ClosesOnce block ['\n']) ∧
      ∀ line ∈ lines, (commentLine line).toList <:+: block := by
  by_cases hne : lines = []
  · subst hne
    exact ⟨[], (List.append_nil _).symm, absurd rfl, List.forall_mem_nil _⟩
  · obtain ⟨inner, htext, hquiet, hinside⟩ := exists_comment hne hw h
    obtain ⟨m, hm, hblank⟩ := exists_begin hw
    have hopen : Quiet (m ++ "/**".toList) := by
      refine (quiet_of_blanks hblank).append (by simp [Quiet, List.infix_cons_iff]) ?_
      rintro ⟨hstar, -⟩
      exact absurd (List.all_eq_true.1 hblank _ (List.mem_of_getLast? hstar)) (by decide)
    have hfront : Quiet (m ++ "/**".toList ++ '\n' :: inner) := hopen.append_cons hquiet (by decide) (by decide)
    refine ⟨m ++ "/**".toList ++ '\n' :: inner ++ ['*', '/', '\n'], ?_, fun _ => ?_, fun line hline => ?_⟩
    · rw [htext, hm]
      simp
    · exact closesOnce_of_quiet hfront (by simp [Quiet, List.infix_cons_iff])
    · exact (hinside line hline).trans ⟨m ++ "/**\n".toList, ['*', '/', '\n'], by simp⟩

end Writer

namespace Emission

open Text (Quiet ClosesOnce closesOnce_of_quiet)
open Writer (commentLines commentLine)

/-- A note at the end of a line stays on the line. -/
lemma IsNote.oneLine_comment {s : String} (h : IsNote s) : ∀ c ∈ (" // " ++ s).toList, c ∉ Scan.terminators := by
  intro c hc hend
  obtain ⟨hblank, hne⟩ := Writer.isBlank_of_terminator hend
  rw [String.toList_append] at hc
  rcases List.mem_append.1 hc with hc | hc
  · have hslash : c = ' ' ∨ c = '/' ∨ c = ' ' := by simpa using hc
    rcases hslash with rfl | rfl | rfl
    · exact hne rfl
    · exact absurd hblank (by decide)
    · exact hne rfl
  · exact hne (h.oneLine c hc hblank)

/-- A note inside a line closes once. -/
lemma IsNote.closesOnce_comment {s : String} (h : IsNote s) : ClosesOnce (" /* " ++ s ++ " */").toList [] := by
  have hfront : Quiet (" /* ".toList ++ s.toList ++ [' ']) := by
    have hopen : Quiet (" /* ".toList ++ s.toList) := by
      refine Quiet.append (by simp [Quiet, List.infix_cons_iff]) h.quiet ?_
      simp
    exact hopen.append_cons Text.quiet_nil (by decide) (by decide)
  have hlist : (" /* " ++ s ++ " */").toList = " /* ".toList ++ s.toList ++ [' '] ++ ['*', '/'] := by simp
  rw [hlist]
  exact closesOnce_of_quiet hfront (by simp [Quiet, List.infix_cons_iff])

/-- **Comments close once.** Whatever the values of a comment are, the end of a comment stands in the block just once, with the
end of the line behind it. Whatever the format and the pattern of a schema are, the notes at the end of a line have no end
of a line in them, and those inside a line have the end of a comment at their own end alone. -/
theorem comments_close_once (values : List Json) (fs : Fields) (w : Writer) (hw : w.IsBlank) :
    (∃ block, (w.comment (values.flatMap commentLines)).text.toList = w.text.toList ++ block ∧
      (block ≠ [] → ClosesOnce block ['\n']) ∧ ∀ line ∈ values.flatMap commentLines, (commentLine line).toList <:+: block) ∧
    (notes fs ≠ [] →
      (TypeExpr.writeEnd (notes fs) true w).text = (w.put ";").text ++ (" // " ++ " ".intercalate (notes fs)) ++ "\n" ∧
      (∀ c ∈ (" // " ++ " ".intercalate (notes fs)).toList, c ∉ Scan.terminators) ∧
      (TypeExpr.writeEnd (notes fs) false w).text = w.begin.text ++ (" /* " ++ " ".intercalate (notes fs) ++ " */") ∧
      ClosesOnce (" /* " ++ " ".intercalate (notes fs) ++ " */").toList []) := by
  have hlines : ∀ line ∈ values.flatMap commentLines, Quiet line.toList := by
    intro line hline
    obtain ⟨v, -, hv⟩ := List.mem_flatMap.1 hline
    exact Writer.quiet_commentLines hv
  have hnote : IsNote (" ".intercalate (notes fs)) := isNote_intercalate fun _ => isNote_notes
  refine ⟨Writer.closesOnce_comment hw hlines, fun hne => ⟨?_, hnote.oneLine_comment, ?_, hnote.closesOnce_comment⟩⟩
  · simp [TypeExpr.writeEnd, hne, Writer.text_put_line, Writer.text_put_put]
  · simp [TypeExpr.writeEnd, hne, Writer.text_put]

/-- Values and notes that have ends of comments and of lines in them, where a step of indentation is a tab. -/
theorem comments_close_once_terminators :
    Writer.IsBlank ⟨"\t", 1, false, []⟩ ∧
      (Writer.comment ([.str "**//", .arr [.str "*/"], .str "a\x0b*"].flatMap commentLines) ⟨"\t", 1, false, []⟩).text =
        "\t/**\n\t * **\\//\n\t * [\"*\\/\"]\n\t * a\n\t * *\n\t */\n" ∧
      ClosesOnce "\t/**\n\t * **\\//\n\t * [\"*\\/\"]\n\t * a\n\t * *\n\t */\n".toList ['\n'] ∧
      notes [("format", .str "a*/\u2028/"), ("pattern", .str "b\r*")] = ["a*\\/ /", "b *"] ∧
      ClosesOnce " /* a*\\/ / b * */".toList [] := by
  have hw : Writer.IsBlank ⟨"\t", 1, false, []⟩ := by
    intro c hc
    obtain rfl : c = '\t' := by simpa using hc
    decide
  have htext : (Writer.comment ([.str "**//", .arr [.str "*/"], .str "a\x0b*"].flatMap commentLines) ⟨"\t", 1, false, []⟩).text =
      "\t/**\n\t * **\\//\n\t * [\"*\\/\"]\n\t * a\n\t * *\n\t */\n" := by
    decide +kernel
  have hnotes : notes [("format", .str "a*/\u2028/"), ("pattern", .str "b\r*")] = ["a*\\/ /", "b *"] := by decide +kernel
  obtain ⟨⟨block, hblock, honce, -⟩, hend⟩ := comments_close_once [.str "**//", .arr [.str "*/"], .str "a\x0b*"]
    [("format", .str "a*/\u2028/"), ("pattern", .str "b\r*")] ⟨"\t", 1, false, []⟩ hw
  rw [hnotes] at hend
  have hwritten : "\t/**\n\t * **\\//\n\t * [\"*\\/\"]\n\t * a\n\t * *\n\t */\n".toList = block := by
    rw [← htext, hblock]
    rfl
  refine ⟨hw, htext, hwritten ▸ honce ?_, hnotes, (hend (by simp)).2.2.2⟩
  rw [← hwritten]
  simp

end Emission

end Typings
