import Typings.Proofs.Writer
import Typings.Writer.Script

/-!
How blocks are left. Whatever a program does but start over, it writes behind the text so far and comes back to the level it
started from (`Writer.Behind`), also if it fails; this is shown step by step and holds of whole programs. A program may stay in a
block many levels deep (`Writer.Stays`). Each of these stays ends at the level it began at; one that ends with a failure writes
nothing more, and one that comes to its end writes a single brace, on a line of its own unless a line was left unfinished
(`Writer.blocks_unwind`). Inside blocks an unfinished line is seen in the text, if no piece ends with a line feed of its own
(`Writer.ShowsLine`).
-/

namespace Typings.Writer

variable {u v w : Writer}

/-! ### Writers further on -/

lemma getLast?_put (s : String) (w : Writer) :
    (w.put s).text.toList.getLast? = s.toList.getLast?.or w.begin.text.toList.getLast? := by
  rw [text_put, String.toList_append, List.getLast?_append]

lemma getLast?_line (s : String) (w : Writer) : (w.line s).text.toList.getLast? = some '\n' := by
  rw [text_line, String.toList_append]
  exact List.getLast?_concat

/-- **The writer `u` has come further** than `w`: the text of `w` is still there, and where no line is begun a line has ended, if it
was so before. -/
structure Further (w u : Writer) : Prop where
  indent : u.indent = w.indent
  text : w.text.toList <+: u.text.toList
  ended : (w.lineStarted = false → w.text.toList.getLast? = some '\n') → u.lineStarted = false →
    u.text.toList.getLast? = some '\n'

namespace Further

lemma refl (w : Writer) : Further w w := ⟨rfl, List.prefix_rfl, id⟩

lemma trans (h : Further u v) (h' : Further v w) : Further u w :=
  ⟨h'.indent.trans h.indent, h.text.trans h'.text, fun hu => h'.ended (h.ended hu)⟩

lemma ite {p : Prop} [Decidable p] (hu : Further w u) (hv : Further w v) : Further w (if p then u else v) := by
  split_ifs
  · exact hu
  · exact hv

lemma put (s : String) (w : Writer) : Further w (w.put s) where
  indent := indent_put s w
  text := by
    rw [(Acts.put s).text w, String.toList_append]
    exact List.prefix_append _ _
  ended _ h := by
    rw [lineStarted_put] at h
    cases h

lemma line (s : String) (w : Writer) : Further w (w.line s) where
  indent := indent_line s w
  text := by
    rw [(Acts.line s).text w, String.toList_append]
    exact List.prefix_append _ _
  ended _ _ := getLast?_line s w

lemma deeper (w : Writer) : Further w w.deeper := ⟨rfl, List.prefix_rfl, id⟩

lemma higher (w : Writer) : Further w w.higher := ⟨rfl, List.prefix_rfl, id⟩

lemma key (name : String) (optional : Bool) (w : Writer) : Further w (w.key name optional) :=
  (put (keyText name) w).trans (ite (put "?" _) (refl _))

lemma putLines (lines : List String) (w : Writer) : Further w (w.putLines lines) := by
  induction lines generalizing w with
  | nil => exact refl w
  | cons s rest ih => exact (line s w).trans (ih _)

lemma comment (lines : List String) (w : Writer) : Further w (w.comment lines) :=
  ite (refl w) (((line "/**" w).trans (putLines _ _)).trans (line " */" _))

lemma typeAlias (name : String) (w : Writer) : Further w (w.typeAlias name) :=
  (((put _ w).trans (put _ _)).trans (put _ _)).trans (put _ _)

end Further

namespace Block

lemma further_enter (b : Block) (w : Writer) : Further w (b.enter w) := by
  cases b with
  | space name =>
    have hword : Further w (if w.level = 0 then w.put "declare " else w) := .ite (.put _ w) (.refl w)
    exact (((hword.trans (.put _ _)).trans (.put _ _)).trans (.line _ _)).trans (.deeper _)
  | interface name =>
    exact (((((Further.put _ w).trans (.put _ _)).trans (.put _ _)).trans (.put _ _)).trans (.line _ _)).trans (.deeper _)
  | braces ended => exact (Further.line _ w).trans (.deeper _)
  | nested => exact .deeper w

lemma further_finish (b : Block) (w : Writer) : Further w (b.finish w) := by
  cases b with
  | space name => exact (Further.higher w).trans (.line _ _)
  | interface name => exact ((Further.higher w).trans (.put _ _)).trans (.line _ _)
  | braces ended => exact ((Further.higher w).trans (.put _ _)).trans (.ite (.line _ _) (.refl _))
  | nested => exact .higher w

lemma level_enter (b : Block) (w : Writer) : (b.enter w).level = w.level + 1 := by
  cases b with
  | space name =>
    simp only [enter, openNamespace, deeper, level_line, level_put]
    split_ifs <;> simp
  | interface name => simp [enter, openInterface, openBraces, deeper]
  | braces ended => simp [enter, openBraces, deeper]
  | nested => rfl

lemma level_finish (b : Block) (w : Writer) : (b.finish w).level = w.level - 1 := by
  cases b with
  | space name => simp [finish, closeNamespace, higher]
  | interface name => simp [finish, closeInterface, closeBraces, higher]
  | braces ended => cases ended <;> simp [finish, closeBraces, higher]
  | nested => rfl

/-- A block with braces begins a new line for what is in it. -/
lemma enter_ends_line {b : Block} (h : b ≠ nested) (w : Writer) :
    (b.enter w).lineStarted = false ∧ (b.enter w).text.toList.getLast? = some '\n' := by
  cases b with
  | space name => exact ⟨rfl, getLast?_line _ _⟩
  | interface name => exact ⟨rfl, getLast?_line _ _⟩
  | braces ended => exact ⟨rfl, getLast?_line _ _⟩
  | nested => exact absurd rfl h

/-- What is written at the end of a block, with `margin` before the brace if there is one. -/
def closing (margin : String) : Block → String
  | space _ | interface _ => margin ++ "\x7d" ++ "\n"
  | braces ended => margin ++ "\x7d" ++ if ended then ";\n" else ""
  | nested => ""

lemma text_finish (b : Block) (w : Writer) :
    (b.finish w).text = w.text ++ b.closing (if w.lineStarted then "" else w.higher.margin) := by
  have hbrace : (w.higher.put "\x7d").text = w.text ++ (if w.lineStarted then "" else w.higher.margin) ++ "\x7d" := by
    rw [text_put, text_begin]
    rfl
  cases b with
  | space name =>
    show (w.higher.line "\x7d").text = _
    rw [text_line, hbrace]
    simp only [closing, String.append_assoc]
  | interface name =>
    show ((w.higher.put "\x7d").line "").text = _
    rw [text_put_line, hbrace]
    simp only [closing, String.append_assoc, String.empty_append]
  | braces ended =>
    cases ended with
    | true =>
      show ((w.higher.put "\x7d").line ";").text = _
      rw [text_put_line, hbrace]
      simp only [closing, String.append_assoc]
      rfl
    | false =>
      show (w.higher.put "\x7d").text = _
      rw [hbrace]
      simp only [closing, String.append_assoc, Bool.false_eq_true, if_false, String.append_empty]
  | nested => exact String.append_empty.symm

end Block

/-! ### Programs -/

mutual

/-- Whether a step starts over, itself or inside. -/
def Step.clears : Step → Bool
  | .clear => true
  | .block _ body => clearsAny body
  | .attempt body => clearsAny body
  | _ => false

/-- Whether one of the steps starts over. -/
def clearsAny : List Step → Bool
  | [] => false
  | s :: rest => s.clears || clearsAny rest

end

/-- A program underway has entered a block. -/
def Progress.entering (p : Progress) (b : Block) : Progress := p.note (.entered b) (b.enter p.writer)

variable {p q r : Progress} {b : Block} {s : Step} {body program rest : List Step}

lemma step_block_of_running (h : (steps body (p.entering b)).course = .running) :
    step (.block b body) p =
      (steps body (p.entering b)).note .finished (b.finish (steps body (p.entering b)).writer) := by
  rw [step]
  simp only [Progress.entering] at h ⊢
  rw [h]

lemma step_block_of_failed (h : (steps body (p.entering b)).course = .failed) :
    step (.block b body) p =
      { steps body (p.entering b) with writer := (steps body (p.entering b)).writer.higher } := by
  rw [step]
  simp only [Progress.entering] at h ⊢
  rw [h]

/-- **The program has come from `p` to `q`**: it is back at the level, the writer has come further, and so it has since each of the
events. -/
structure Behind (p q : Progress) : Prop where
  level : q.writer.level = p.writer.level
  further : Further p.writer q.writer
  noted : (∀ e ∈ p.entries, Further e.writer p.writer) → ∀ e ∈ q.entries, Further e.writer q.writer

namespace Behind

lemma refl (p : Progress) : Behind p p := ⟨rfl, .refl _, id⟩

lemma trans (h : Behind p q) (h' : Behind q r) : Behind p r :=
  ⟨h'.level.trans h.level, h.further.trans h'.further, fun hp => h'.noted (h.noted hp)⟩

end Behind

lemma noted_note (e : Event) (hw : Further p.writer w) (hp : ∀ e ∈ p.entries, Further e.writer p.writer) :
    ∀ e' ∈ (p.note e w).entries, Further e'.writer w := by
  intro e' he'
  rcases List.mem_cons.1 he' with rfl | he'
  · exact .refl _
  · exact (hp e' he').trans hw

lemma behind_note (e : Event) (hw : Further p.writer w) (hlevel : w.level = p.writer.level) : Behind p (p.note e w) :=
  ⟨hlevel, hw, noted_note e hw⟩

lemma further_block (b : Block) (body : List Step) (p : Progress) :
    Further (steps body (p.entering b)).writer (step (.block b body) p).writer := by
  cases hcourse : (steps body (p.entering b)).course with
  | running =>
    rw [step_block_of_running hcourse]
    exact b.further_finish _
  | failed =>
    rw [step_block_of_failed hcourse]
    exact .higher _

/-- A block brings a program back if its body does. -/
lemma behind_block (h : Behind (p.entering b) (steps body (p.entering b))) : Behind p (step (.block b body) p) := by
  -- the level that both ways out of the block lead to
  have hlevel : (steps body (p.entering b)).writer.level - 1 = p.writer.level := by
    rw [h.level]
    exact (congrArg (· - 1) (b.level_enter p.writer)).trans (Int.add_sub_cancel _ 1)
  have hfurther := ((b.further_enter p.writer).trans h.further).trans (further_block b body p)
  have hnoted := fun hp => h.noted (noted_note (.entered b) (b.further_enter p.writer) hp)
  cases hcourse : (steps body (p.entering b)).course with
  | running =>
    rw [step_block_of_running hcourse] at hfurther ⊢
    exact ⟨(b.level_finish _).trans hlevel, hfurther, fun hp => noted_note .finished (b.further_finish _) (hnoted hp)⟩
  | failed =>
    rw [step_block_of_failed hcourse] at hfurther ⊢
    exact ⟨hlevel, hfurther, fun hp e he => (hnoted hp e he).trans (.higher _)⟩

lemma behind_attempt (body : List Step) (p : Progress) : Behind (steps body p) (step (.attempt body) p) := by
  rw [step]
  cases (steps body p).course with
  | running => exact .refl _
  | failed => exact ⟨rfl, .refl _, noted_note .caught (.refl _)⟩

mutual

/-- **What one step does**: unless it starts over, the program comes back to the level it had. -/
theorem behind_step : ∀ s : Step, s.clears = false → ∀ p, Behind p (step s p)
  | .put s, _, p => by
    rw [step]
    exact behind_note _ (.put s _) (level_put s _)
  | .line s, _, p => by
    rw [step]
    exact behind_note _ (.line s _) (level_line s _)
  | .key name optional, _, p => by
    rw [step]
    exact behind_note _ (.key name optional _) ((Acts.key name optional).level _)
  | .comment values, _, p => by
    rw [step]
    exact behind_note _ (.comment _ _) ((Acts.comment _).level _)
  | .typeAlias name, _, p => by
    rw [step]
    exact behind_note _ (.typeAlias name _) ((Acts.typeAlias name).level _)
  | .word, _, p => by
    rw [step]
    exact behind_note _ (.put _ _) (level_put _ _)
  | .clear, h, _ => by cases h
  | .fail, _, p => by
    rw [step]
    exact ⟨rfl, .refl _, id⟩
  | .block b body, h, p => behind_block (behind_steps body h _)
  | .attempt body, h, p => (behind_steps body h p).trans (behind_attempt body p)

/-- **What a program does**, step after step until one fails. -/
theorem behind_steps : ∀ program : List Step, clearsAny program = false → ∀ p, Behind p (steps program p)
  | [], _, p => .refl p
  | s :: rest, h, p => by
    obtain ⟨hs, hrest⟩ := Bool.or_eq_false_iff.1 h
    rw [steps]
    cases hcourse : (step s p).course with
    | running => exact (behind_step s hs p).trans (behind_steps rest hrest _)
    | failed => exact behind_step s hs p

end

/-- Behind the first step comes the rest, or nothing. -/
lemma behind_rest (s : Step) (hrest : clearsAny rest = false) (p : Progress) : Behind (step s p) (steps (s :: rest) p) := by
  rw [steps]
  cases hcourse : (step s p).course with
  | running => exact behind_steps rest hrest _
  | failed => exact .refl _

/-! ### Lines in the text -/

mutual

/-- Whether no piece of a step ends with a line feed of its own. -/
def Step.isInline : Step → Bool
  | .put text => text.toList.getLast? ≠ some '\n'
  | .key name _ => name.toList.getLast? ≠ some '\n'
  | .block _ body => allInline body
  | .attempt body => allInline body
  | _ => true

/-- Whether no piece of the steps ends with a line feed of its own. -/
def allInline : List Step → Bool
  | [] => true
  | s :: rest => s.isInline && allInline rest

end

/-- **A line that is begun is seen** in the text. -/
def ShowsLine (w : Writer) : Prop := w.lineStarted = true → w.text.toList.getLast? ≠ some '\n'

/-- Where a margin is seen: inside a block, if a step of indentation is not empty and does not end with a line feed. -/
def HasMargin (w : Writer) : Prop := 1 ≤ w.level ∧ ∃ c, w.indent.toList.getLast? = some c ∧ c ≠ '\n'

lemma HasMargin.getLast?_margin (h : HasMargin w) : ∃ c, w.margin.toList.getLast? = some c ∧ c ≠ '\n' := by
  obtain ⟨hlevel, c, hc, hne⟩ := h
  obtain ⟨k, hk⟩ : ∃ k, w.level.toNat = k + 1 := ⟨w.level.toNat - 1, by omega⟩
  refine ⟨c, ?_, hne⟩
  rw [margin, hk, List.replicate_succ', String.join_append, String.toList_append, List.getLast?_append]
  simp [String.join_cons, hc]

lemma showsLine_line (s : String) (w : Writer) : ShowsLine (w.line s) := by
  rintro ⟨⟩

/-- A piece that is not empty is seen itself. -/
lemma showsLine_put_of_getLast? {s : String} {c : Char} (hs : s.toList.getLast? = some c) (hc : c ≠ '\n') (w : Writer) :
    ShowsLine (w.put s) := by
  intro _
  rw [getLast?_put, hs]
  simpa using hc

/-- Behind an empty piece the line is seen, or the margin is. -/
lemma showsLine_put {s : String} (hs : s.toList.getLast? ≠ some '\n') (hm : HasMargin w) (h : ShowsLine w) :
    ShowsLine (w.put s) := by
  cases hlast : s.toList.getLast? with
  | some c => exact showsLine_put_of_getLast? hlast (fun hc => hs (hc ▸ hlast)) w
  | none =>
    intro _
    rw [getLast?_put, hlast, Option.none_or, text_begin, String.toList_append, List.getLast?_append]
    by_cases hstarted : w.lineStarted = true
    · simpa [hstarted] using h hstarted
    · obtain ⟨c, hc, hne⟩ := hm.getLast?_margin
      simpa [hstarted, hc] using hne

lemma getLast?_keyText {name : String} (h : name.toList.getLast? ≠ some '\n') : (keyText name).toList.getLast? ≠ some '\n' := by
  unfold keyText
  split_ifs
  · exact h
  · rw [Json.text, String.toList_ofList, Json.chars, Json.Literal.encode, List.getLast?_concat]
    decide

lemma showsLine_key {name : String} (hname : name.toList.getLast? ≠ some '\n') (optional : Bool) (hm : HasMargin w)
    (h : ShowsLine w) : ShowsLine (w.key name optional) := by
  cases optional with
  | true => exact showsLine_put_of_getLast? (s := "?") rfl (by decide) _
  | false => exact showsLine_put (getLast?_keyText hname) hm h

lemma showsLine_comment (lines : List String) (h : ShowsLine w) : ShowsLine (w.comment lines) := by
  unfold comment
  split_ifs
  · exact h
  · exact showsLine_line _ _

lemma showsLine_finish (b : Block) (h : ShowsLine w) : ShowsLine (b.finish w) := by
  cases b with
  | space name => exact showsLine_line _ _
  | interface name => exact showsLine_line _ _
  | braces ended =>
    cases ended with
    | true => exact showsLine_line _ _
    | false => exact showsLine_put_of_getLast? (s := "\x7d") rfl (by decide) _
  | nested => exact h

lemma showsLine_enter (b : Block) (h : ShowsLine w) : ShowsLine (b.enter w) := by
  by_cases hb : b = .nested
  · subst hb
    exact h
  · intro hstarted
    rw [(Block.enter_ends_line hb w).1] at hstarted
    cases hstarted

/-- Inside a block and deeper in it margins are seen. -/
lemma hasMargin_enter (b : Block) (hlevel : 0 ≤ w.level) (hindent : ∃ c, w.indent.toList.getLast? = some c ∧ c ≠ '\n') :
    HasMargin (b.enter w) := by
  refine ⟨?_, ?_⟩
  · rw [b.level_enter]
    omega
  · rwa [(b.further_enter w).indent]

lemma HasMargin.behind (h : HasMargin p.writer) (hq : Behind p q) : HasMargin q.writer := by
  refine ⟨?_, ?_⟩
  · rw [hq.level]
    exact h.1
  · rw [hq.further.indent]
    exact h.2

lemma writer_attempt (body : List Step) (p : Progress) : (step (.attempt body) p).writer = (steps body p).writer := by
  rw [step]
  cases (steps body p).course <;> rfl

mutual

/-- **One step inside a block** leaves the line it begins in the text. -/
theorem showsLine_step : ∀ s : Step, s.clears = false → s.isInline = true → ∀ p, HasMargin p.writer → ShowsLine p.writer →
    ShowsLine (step s p).writer
  | .put text, _, h, p, hm, hw => by
    rw [step]
    exact showsLine_put (of_decide_eq_true h) hm hw
  | .line text, _, _, p, _, _ => by
    rw [step]
    exact showsLine_line text _
  | .key name optional, _, h, p, hm, hw => by
    rw [step]
    exact showsLine_key (of_decide_eq_true h) optional hm hw
  | .comment values, _, _, p, _, hw => by
    rw [step]
    exact showsLine_comment _ hw
  | .typeAlias name, _, _, p, _, _ => by
    rw [step]
    exact showsLine_put_of_getLast? (s := " = ") rfl (by decide) _
  | .word, _, _, p, hm, hw => by
    rw [step]
    refine showsLine_put ?_ hm hw
    unfold declarationWord
    split_ifs <;> decide
  | .clear, hclear, _, _, _, _ => by cases hclear
  | .fail, _, _, p, _, hw => by
    rw [step]
    exact hw
  | .block b body, hclear, h, p, hm, hw => by
    have hlevel : 0 ≤ p.writer.level := Int.le_trans (by decide) hm.1
    have hinside := showsLine_steps body hclear h (p.entering b) (hasMargin_enter b hlevel hm.2) (showsLine_enter b hw)
    cases hcourse : (steps body (p.entering b)).course with
    | running =>
      rw [step_block_of_running hcourse]
      exact showsLine_finish b hinside
    | failed =>
      rw [step_block_of_failed hcourse]
      exact hinside
  | .attempt body, hclear, h, p, hm, hw => by
    rw [writer_attempt]
    exact showsLine_steps body hclear h p hm hw

/-- **Steps inside a block** leave the line they begin in the text. -/
theorem showsLine_steps : ∀ program : List Step, clearsAny program = false → allInline program = true → ∀ p,
    HasMargin p.writer → ShowsLine p.writer → ShowsLine (steps program p).writer
  | [], _, _, _, _, hw => hw
  | s :: rest, hclear, h, p, hm, hw => by
    obtain ⟨hs, hrest⟩ := Bool.or_eq_false_iff.1 hclear
    obtain ⟨hinline, hinlines⟩ := Bool.and_eq_true_iff.1 h
    have hstep := showsLine_step s hs hinline p hm hw
    rw [steps]
    cases hcourse : (step s p).course with
    | running => exact showsLine_steps rest hrest hinlines _ (hm.behind (behind_step s hs p)) hstep
    | failed => exact hstep

end

/-! ### Stays -/

/-- A stay in a block. -/
structure Stay where
  /-- The block. -/
  block : Block
  /-- The program before it. -/
  before : Progress
  /-- The program where the body is over, at its end or by a failure. -/
  inside : Progress
  /-- The program behind it. -/
  behind : Progress

/-- The stay in a block with a body. -/
def Stay.ofBlock (b : Block) (body : List Step) (p : Progress) : Stay :=
  ⟨b, p, steps body (p.entering b), step (.block b body) p⟩

/-- **The stays of a program** that begins at `p`, each with the number of blocks around it. -/
inductive Stays : List Step → Progress → Nat → Stay → Prop where
  | here (b : Block) (body rest : List Step) (p : Progress) : Stays (.block b body :: rest) p 0 (.ofBlock b body p)
  | inside {b : Block} {body rest : List Step} {p : Progress} {n : Nat} {v : Stay} (h : Stays body (p.entering b) n v) :
    Stays (.block b body :: rest) p (n + 1) v
  | attempted {body rest : List Step} {p : Progress} {n : Nat} {v : Stay} (h : Stays body p n v) :
    Stays (.attempt body :: rest) p n v
  | later {s : Step} {rest : List Step} {p : Progress} {n : Nat} {v : Stay} (hs : (step s p).course = .running)
    (h : Stays rest (step s p) n v) : Stays (s :: rest) p n v

/-- **A stay unwinds** inside `depth` blocks. -/
structure Stay.Unwinds (indent : String) (depth : Nat) (v : Stay) : Prop where
  /-- It begins at the level that the blocks around it make. -/
  level_before : v.before.writer.level = depth
  /-- It ends at this level. -/
  level_behind : v.behind.writer.level = depth
  /-- What was written before the body is over is kept. -/
  kept : v.before.writer.text.toList <+: v.inside.writer.text.toList ∧
    v.inside.writer.text.toList <+: v.behind.writer.text.toList
  /-- A failure goes on, and nothing is written for it. -/
  failed : v.inside.course = .failed → v.behind.course = .failed ∧ v.behind.writer.text = v.inside.writer.text
  /-- At the end of the body the end of the block is written, with one brace unless the block has none. -/
  finished : v.inside.course = .running → v.behind.course = .running ∧ v.behind.writer.text = v.inside.writer.text ++
    v.block.closing (if v.inside.writer.lineStarted then "" else String.join (List.replicate depth indent))
  /-- The brace stands on a new line unless a line is unfinished. -/
  onNewLine : v.block ≠ .nested → v.inside.writer.lineStarted = false → v.inside.writer.text.toList.getLast? = some '\n'

/-- **One block unwinds.** -/
theorem unwinds_ofBlock {depth : Nat} (hbody : clearsAny body = false) (hlevel : p.writer.level = depth) :
    (Stay.ofBlock b body p).Unwinds p.writer.indent depth := by
  have hinner := behind_steps body hbody (p.entering b)
  have hbehind := behind_block hinner
  have henter := b.further_enter p.writer
  have hmargin : (steps body (p.entering b)).writer.higher.margin = String.join (List.replicate depth p.writer.indent) := by
    have hindent : (steps body (p.entering b)).writer.indent = p.writer.indent := hinner.further.indent.trans henter.indent
    have hinside : (steps body (p.entering b)).writer.level = depth + 1 := by
      rw [hinner.level, ← hlevel]
      exact b.level_enter p.writer
    unfold margin higher
    rw [hindent, hinside, Int.add_sub_cancel, Int.toNat_natCast]
  have hrunning (h : (steps body (p.entering b)).course = .running) : (step (.block b body) p).writer.text = _ :=
    (congrArg (·.writer.text) (step_block_of_running h)).trans (b.text_finish _)
  have hfailed (h : (steps body (p.entering b)).course = .failed) :
      (step (.block b body) p).writer.text = (steps body (p.entering b)).writer.text :=
    congrArg (·.writer.text) (step_block_of_failed h)
  exact {
    level_before := hlevel
    level_behind := hbehind.level.trans hlevel
    kept := ⟨henter.text.trans hinner.further.text, (further_block b body p).text⟩
    failed := fun h => ⟨(congrArg (·.course) (step_block_of_failed h)).trans h, hfailed h⟩
    finished := fun h => by
      refine ⟨(congrArg (·.course) (step_block_of_running h)).trans h, ?_⟩
      rw [← hmargin]
      exact hrunning h
    onNewLine := fun hb => hinner.further.ended fun _ => (Block.enter_ends_line hb p.writer).2 }

/-- In a block with braces the line state is what the text shows. -/
lemma lineStarted_ofBlock (hbody : clearsAny body = false) (hinline : allInline body = true) (hb : b ≠ .nested)
    (hlevel : 0 ≤ p.writer.level) (hindent : ∃ c, p.writer.indent.toList.getLast? = some c ∧ c ≠ '\n') :
    (steps body (p.entering b)).writer.lineStarted = false ↔
      (steps body (p.entering b)).writer.text.toList.getLast? = some '\n' := by
  obtain ⟨hstarted, hended⟩ := Block.enter_ends_line hb p.writer
  constructor
  · exact (behind_steps body hbody (p.entering b)).further.ended fun _ => hended
  · intro hlast
    have hshows := showsLine_steps body hbody hinline (p.entering b) (hasMargin_enter b hlevel hindent) fun h => by
      cases hstarted.symm.trans h
    by_contra hne
    exact hshows (eq_true_of_ne_false hne) hlast

/-- **Where a stay comes from**: a block of the program that is entered as deep as there are blocks around it. What the stay leaves
behind is still there when the program is over. -/
theorem Stays.eq_ofBlock {n : Nat} {v : Stay} (h : Stays program p n v) (hclear : clearsAny program = false) :
    ∃ b body q, v = .ofBlock b body q ∧ clearsAny body = false ∧ (allInline program = true → allInline body = true) ∧
      q.writer.level = p.writer.level + n ∧ q.writer.indent = p.writer.indent ∧
      Further v.behind.writer (steps program p).writer := by
  induction h with
  | here b body rest p =>
    obtain ⟨hbody, hrest⟩ := Bool.or_eq_false_iff.1 hclear
    exact ⟨b, body, p, rfl, hbody, fun h => (Bool.and_eq_true_iff.1 h).1, (Int.add_zero _).symm, rfl,
      (behind_rest _ hrest p).further⟩
  | @inside b body rest p n v _ ih =>
    obtain ⟨hbody, hrest⟩ := Bool.or_eq_false_iff.1 hclear
    obtain ⟨b', body', q, hv, hbody', hinline, hlevel, hindent, hfurther⟩ := ih hbody
    have henter : (p.entering b).writer.level = p.writer.level + 1 := b.level_enter p.writer
    refine ⟨b', body', q, hv, hbody', fun h => hinline (Bool.and_eq_true_iff.1 h).1, ?_,
      hindent.trans (b.further_enter p.writer).indent,
      (hfurther.trans (further_block b body p)).trans (behind_rest _ hrest p).further⟩
    rw [hlevel, henter]
    omega
  | @attempted body rest p n v _ ih =>
    obtain ⟨hbody, hrest⟩ := Bool.or_eq_false_iff.1 hclear
    obtain ⟨b', body', q, hv, hbody', hinline, hlevel, hindent, hfurther⟩ := ih hbody
    exact ⟨b', body', q, hv, hbody', fun h => hinline (Bool.and_eq_true_iff.1 h).1, hlevel, hindent,
      (hfurther.trans (behind_attempt body p).further).trans (behind_rest _ hrest p).further⟩
  | @later s rest p n v hs _ ih =>
    obtain ⟨hstep, hrest⟩ := Bool.or_eq_false_iff.1 hclear
    have hbehind := behind_step s hstep p
    obtain ⟨b', body', q, hv, hbody', hinline, hlevel, hindent, hfurther⟩ := ih hrest
    rw [steps, hs]
    exact ⟨b', body', q, hv, hbody', fun h => hinline (Bool.and_eq_true_iff.1 h).2, hbehind.level ▸ hlevel,
      hindent.trans hbehind.further.indent, hfurther⟩

/-- **Blocks unwind.** In a run that does not start over, every stay in a block unwinds, at whatever depth and however it ends;
what was written up to an event or the end of a stay is in the text at the end, and all blocks are left then. Whether a body
left a line unfinished is seen in the text, unless a piece ends with a line feed of its own. -/
theorem blocks_unwind (indent : String) (program : List Step) (hclear : clearsAny program = false) :
    (∀ n v, Stays program ⟨new indent, [], .running⟩ n v →
      v.Unwinds indent n ∧ v.behind.writer.text.toList <+: (run indent program).writer.text.toList) ∧
    (∀ e ∈ (run indent program).entries, e.writer.text.toList <+: (run indent program).writer.text.toList) ∧
    (run indent program).writer.level = 0 ∧
    (allInline program = true → (∃ c, indent.toList.getLast? = some c ∧ c ≠ '\n') →
      ∀ n v, Stays program ⟨new indent, [], .running⟩ n v → v.block ≠ .nested →
        (v.inside.writer.lineStarted = false ↔ v.inside.writer.text.toList.getLast? = some '\n')) := by
  have hbehind := behind_steps program hclear ⟨new indent, [], .running⟩
  have hlevel (n : Nat) : (new indent).level + n = n := Int.zero_add _
  refine ⟨fun n v hv => ?_, fun e he => ?_, hbehind.level, fun hinline hindent n v hv hb => ?_⟩
  · obtain ⟨b, body, q, rfl, hbody, -, hq, rfl, hfurther⟩ := hv.eq_ofBlock hclear
    exact ⟨unwinds_ofBlock hbody (hq.trans (hlevel n)), hfurther.text⟩
  · exact (hbehind.noted (List.forall_mem_nil _) e he).text
  · obtain ⟨b, body, q, rfl, hbody, hinlines, hq, rfl, -⟩ := hv.eq_ofBlock hclear
    exact lineStarted_ofBlock hbody (hinlines hinline) hb (by rw [hq, hlevel]; exact Int.natCast_nonneg n) hindent

/-- A failure that leaves two blocks, behind a block that came to its end, and a block behind it on the line left unfinished. -/
def interrupted : List Step :=
  [.attempt [.block (.space "N") [.block (.interface "I") [.put "a: ", .block (.braces true) [.line "b;"], .put "c", .fail]]],
    .block (.braces false) [.line "d;"]]

theorem blocks_unwind_interrupted :
    clearsAny interrupted = false ∧ allInline interrupted = true ∧
    (∃ v, Stays interrupted ⟨new "  ", [], .running⟩ 2 v ∧ v.inside.course = .running ∧ v.Unwinds "  " 2 ∧
      (v.inside.writer.lineStarted = false ↔ v.inside.writer.text.toList.getLast? = some '\n') ∧
      v.behind.writer.text = "declare namespace N \x7b\n  export interface I \x7b\n    a: \x7b\n      b;\n    \x7d;\n") ∧
    (∃ v, Stays interrupted ⟨new "  ", [], .running⟩ 1 v ∧ v.inside.course = .failed ∧ v.Unwinds "  " 1 ∧
      v.behind.writer.text = "declare namespace N \x7b\n  export interface I \x7b\n    a: \x7b\n      b;\n    \x7d;\n    c") ∧
    (run "  " interrupted).writer.level = 0 ∧ (run "  " interrupted).writer.text =
      "declare namespace N \x7b\n  export interface I \x7b\n    a: \x7b\n      b;\n    \x7d;\n    c\x7b\n  d;\n\x7d" := by
  have hclear : clearsAny interrupted = false := rfl
  have hinline : allInline interrupted = true := rfl
  obtain ⟨hstays, -, hlevel, hshows⟩ := blocks_unwind "  " interrupted hclear
  have hfinished : Stays interrupted ⟨new "  ", [], .running⟩ 2 _ := .attempted (.inside (.inside (.later rfl (.here _ _ _ _))))
  have hfailed : Stays interrupted ⟨new "  ", [], .running⟩ 1 _ := .attempted (.inside (.here _ _ _ _))
  have hline := hshows hinline ⟨' ', rfl, by decide⟩ _ _ hfinished (by rintro ⟨⟩)
  refine ⟨hclear, hinline, ⟨_, hfinished, ?_, (hstays _ _ hfinished).1, hline, ?_⟩, ⟨_, hfailed, ?_, (hstays _ _ hfailed).1, ?_⟩,
    hlevel, ?_⟩
  all_goals decide +kernel

end Typings.Writer
