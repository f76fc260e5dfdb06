import Mathlib.Data.List.Infix
import Mathlib.Tactic.Common
import Typings.Emission

/-!
Text that stays inside comments. A text is quiet if no comment ends in it (`Text.Quiet`). Taking the force out of a text makes
it quiet (`quiet_defused`), and what happens to it afterwards keeps it so: cutting into lines or words gives parts of the
text, and what is joined again has a blank between. Main statements: `Emission.isNote_notes` for the notes behind a type and
`Emission.quiet_commentOf` for the lines of a comment block.
-/

namespace Typings

namespace Text

/-- **A quiet text** has no end of a comment in it. -/
def Quiet (cs : List Char) : Prop := ¬['*', '/'] <:+: cs

variable {cs ds : List Char} {c : Char}

lemma Quiet.part (h : Quiet cs) (hd : ds <:+: cs) : Quiet ds := fun hend => h (hend.trans hd)

lemma quiet_nil : Quiet [] := by simp [Quiet]

lemma quiet_cons_iff : Quiet (c :: cs) ↔ ¬(c = '*' ∧ cs.head? = some '/') ∧ Quiet cs := by
  unfold Quiet
  rw [List.infix_cons_iff, not_or]
  refine and_congr_left fun _ => not_congr ?_
  cases cs with
  | nil => simp
  | cons d cs => simp [List.cons_prefix_cons, eq_comm]

/-- Two quiet texts make a quiet text, unless a star comes to stand before a slash. -/
lemma Quiet.append (hc : Quiet cs) (hd : Quiet ds) (h : ¬(cs.getLast? = some '*' ∧ ds.head? = some '/')) :
    Quiet (cs ++ ds) := by
  induction cs with
  | nil => exact hd
  | cons c cs ih =>
    rw [quiet_cons_iff] at hc
    rw [List.cons_append, quiet_cons_iff]
    cases cs with
    | nil => exact ⟨by simpa using h, hd⟩
    | cons b cs => exact ⟨by simpa using hc.1, ih hc.2 (by simpa using h)⟩

/-- Any other character keeps star and slash apart. -/
lemma Quiet.append_cons (hc : Quiet cs) (hd : Quiet ds) (hstar : c ≠ '*') (hslash : c ≠ '/') : Quiet (cs ++ c :: ds) :=
  hc.append (quiet_cons_iff.2 ⟨by simp [hstar], hd⟩) (by simp [hslash])

lemma quiet_of_not_mem (h : '*' ∉ cs) : Quiet cs := fun hend => h (hend.subset List.mem_cons_self)

lemma quiet_intercalate {words : List (List Char)} (h : ∀ w ∈ words, Quiet w) : Quiet ([' '].intercalate words) := by
  induction words with
  | nil => exact quiet_nil
  | cons w words ih =>
    cases words with
    | nil => simpa using h
    | cons v words =>
      rw [List.intercalate_cons_cons, List.append_assoc]
      exact (h w List.mem_cons_self).append_cons (ih fun v hv => h v (List.mem_cons_of_mem _ hv)) (by decide) (by decide)

lemma mem_intercalate {sep : List Char} {words : List (List Char)} (h : c ∈ sep.intercalate words) :
    c ∈ sep ∨ ∃ w ∈ words, c ∈ w := by
  induction words with
  | nil => cases h
  | cons w words ih =>
    cases words with
    | nil => exact Or.inr ⟨w, List.mem_cons_self, by simpa using h⟩
    | cons v words =>
      rw [List.intercalate_cons_cons, List.append_assoc, List.mem_append, List.mem_append] at h
      rcases h with h | h | h
      · exact Or.inr ⟨w, List.mem_cons_self, h⟩
      · exact Or.inl h
      · exact (ih h).imp_right fun ⟨u, hu, hc⟩ => ⟨u, List.mem_cons_of_mem _ hu, hc⟩

/-! ### Cutting -/

lemma infix_of_mem_linesFrom {acc line : List Char} (h : line ∈ linesFrom acc cs) : line <:+: acc.reverse ++ cs := by
  fun_induction linesFrom acc cs with
  | case1 => cases h
  | case2 acc _ =>
    obtain rfl := List.mem_singleton.1 h
    exact ⟨[], [], by simp⟩
  | case3 acc rest ih =>
    rcases List.mem_cons.1 h with rfl | h
    · exact ⟨[], '\r' :: '\n' :: rest, by simp⟩
    · exact (ih h).trans ⟨acc.reverse ++ ['\r', '\n'], [], by simp⟩
  | case4 acc c rest _ _ ih =>
    rcases List.mem_cons.1 h with rfl | h
    · exact ⟨[], c :: rest, by simp⟩
    · exact (ih h).trans ⟨acc.reverse ++ [c], [], by simp⟩
  | case5 acc c rest _ _ ih => simpa using ih h

lemma trimEnd_isPart (cs : List Char) : trimEnd cs <:+: cs := by
  have h := List.reverse_prefix.2 (List.dropWhile_suffix isBlank (l := cs.reverse))
  rw [List.reverse_reverse] at h
  exact h.isInfix

lemma quiet_lines {s line : String} (hs : Quiet s.toList) (h : line ∈ lines s) : Quiet line.toList := by
  obtain ⟨l, hl, rfl⟩ := List.mem_map.1 h
  rw [String.toList_ofList]
  exact hs.part (infix_of_mem_linesFrom hl)

/-- The first run of a cut text is what it begins with. -/
lemma splitOnP_eq_cons (p : Char → Bool) (cs : List Char) :
    ∃ first rest, cs.splitOnP p = first :: rest ∧ first <+: cs ∧ (∀ c ∈ first, p c = false) ∧
      ∀ run ∈ rest, run <:+: cs ∧ ∀ c ∈ run, p c = false := by
  induction cs with
  | nil => exact ⟨[], [], List.splitOnP_nil, List.nil_prefix, by simp, by simp⟩
  | cons c cs ih =>
    obtain ⟨first, rest, heq, hfirst, hplain, hrest⟩ := ih
    have hlater : ∀ run ∈ rest, run <:+: c :: cs ∧ ∀ c ∈ run, p c = false := fun run hrun =>
      ⟨(hrest run hrun).1.trans (List.suffix_cons c cs).isInfix, (hrest run hrun).2⟩
    rw [List.splitOnP_cons_eq_if_modifyHead, heq]
    by_cases hc : p c = true
    · rw [if_pos hc]
      refine ⟨[], _, rfl, List.nil_prefix, by simp, List.forall_mem_cons.2 ⟨⟨?_, hplain⟩, hlater⟩⟩
      exact hfirst.isInfix.trans (List.suffix_cons c cs).isInfix
    · rw [if_neg hc]
      refine ⟨c :: first, rest, rfl, List.cons_prefix_cons.2 ⟨rfl, hfirst⟩, ?_, hlater⟩
      exact List.forall_mem_cons.2 ⟨Bool.eq_false_iff.2 hc, hplain⟩

lemma of_mem_words {word : List Char} (h : word ∈ words cs) : word <:+: cs ∧ ∀ c ∈ word, isBlank c = false := by
  obtain ⟨first, rest, heq, hfirst, hplain, hrest⟩ := splitOnP_eq_cons isBlank cs
  rw [words, heq] at h
  rcases List.mem_cons.1 (List.mem_of_mem_filter h) with rfl | h
  · exact ⟨hfirst.isInfix, hplain⟩
  · exact hrest word h

end Text

/-! ### Taking the force out -/

namespace Writer

open Text (Quiet)

lemma head?_defused (cs : List Char) : (defused cs).head? = cs.head? := by
  fun_cases defused cs <;> rfl

theorem quiet_defused (cs : List Char) : Quiet (defused cs) := by
  fun_induction defused cs with
  | case1 => exact Text.quiet_nil
  | case2 rest ih =>
    rw [Text.quiet_cons_iff, Text.quiet_cons_iff, Text.quiet_cons_iff]
    exact ⟨by simp, by simp, by simp, ih⟩
  | case3 c rest hnot ih =>
    refine Text.quiet_cons_iff.2 ⟨?_, ih⟩
    rintro ⟨rfl, hhead⟩
    -- the slash would have been seen together with the star
    rw [head?_defused] at hhead
    obtain ⟨tail, rfl⟩ := List.head?_eq_some_iff.1 hhead
    exact hnot tail rfl rfl

lemma quiet_commentLines {v : Json} {line : String} (h : line ∈ commentLines v) : Quiet line.toList := by
  have hlines : ∀ cs : List Char, line ∈ Text.lines (String.ofList (defused cs)) → Quiet line.toList := fun cs =>
    Text.quiet_lines (by simpa using quiet_defused cs)
  cases v with
  | null => cases h
  | bool | num | str | extra | arr | obj => exact hlines _ h

/-- A line of a comment block is as quiet as its text. -/
lemma quiet_commentLine {s : String} (h : Quiet s.toList) : Quiet (commentLine s).toList := by
  have hline : Quiet (" * ".toList ++ s.toList) :=
    Quiet.append (by simp [Quiet, List.infix_cons_iff]) h (by simp)
  rw [commentLine, String.toList_ofList]
  exact hline.part (Text.trimEnd_isPart _)

end Writer

namespace Emission

open Text (Quiet)

/-- **A note** is quiet and stands on one line. -/
structure IsNote (s : String) : Prop where
  quiet : Quiet s.toList
  oneLine : ∀ c ∈ s.toList, Text.isBlank c = true → c = ' '

lemma isNote_intercalate {words : List String} (h : ∀ w ∈ words, IsNote w) : IsNote (" ".intercalate words) where
  quiet := by
    rw [String.toList_intercalate]
    refine Text.quiet_intercalate fun w hw => ?_
    obtain ⟨s, hs, rfl⟩ := List.mem_map.1 hw
    exact (h s hs).quiet
  oneLine c hc hblank := by
    rw [String.toList_intercalate] at hc
    rcases Text.mem_intercalate hc with hc | ⟨w, hw, hcw⟩
    · simpa using hc
    · obtain ⟨s, hs, rfl⟩ := List.mem_map.1 hw
      exact (h s hs).oneLine c hcw hblank

lemma isNote_note (v : Json) : IsNote (note v) := by
  refine isNote_intercalate fun w hw => ?_
  obtain ⟨word, hword, rfl⟩ := List.mem_map.1 hw
  obtain ⟨hpart, hplain⟩ := Text.of_mem_words hword
  constructor
  · rw [String.toList_ofList]
    exact (Writer.quiet_defused _).part hpart
  · intro c hc hblank
    rw [String.toList_ofList] at hc
    exact absurd hblank (by rw [hplain c hc]; exact Bool.false_ne_true)

theorem isNote_notes {fs : Fields} {s : String} (h : s ∈ notes fs) : IsNote s := by
  obtain ⟨key, -, hkey⟩ := List.mem_filterMap.1 h
  obtain ⟨v, -, rfl⟩ := Option.map_eq_some_iff.1 hkey
  exact isNote_note v

theorem quiet_commentOf {fs : Fields} {lines : List String} (h : commentOf fs = .ok lines) :
    ∀ line ∈ lines, Quiet line.toList := by
  intro line hline
  unfold commentOf at h
  dsimp only at h
  split_ifs at h
  all_goals
    obtain rfl := Except.ok.inj h
    obtain ⟨v, -, hv⟩ := List.mem_flatMap.1 hline
    exact Writer.quiet_commentLines hv

end Emission

end Typings
