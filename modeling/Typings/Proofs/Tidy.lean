import Mathlib
import Typings.Proofs.Binding
import Typings.Proofs.Quiet

/-!
The types that emission makes. A type is tidy if its parts are what they look like (`TypeExpr.IsTidy`): a plain type is a
dotted name, a numeral, a string literal or the array of anything; tuples have at least two lengths; notes stand on one
line, and neither they nor the comments on members end a comment. Main statement: `Emission.typesTidy`.
-/

namespace Typings

/-! ### Words -/

/-- The characters of dotted names and numerals. -/
def Text.isWordChar (c : Char) : Bool := c.isAlphanum || ['_', '$', '.', '-', '+'].contains c

namespace Text

lemma isWordChar_of_isAlphanum {c : Char} (h : c.isAlphanum = true) : isWordChar c = true := by
  rw [isWordChar, h, Bool.true_or]

lemma isWordChar_of_isDigit {c : Char} (h : c.isDigit = true) : isWordChar c = true :=
  isWordChar_of_isAlphanum (by rw [Char.isAlphanum, h, Bool.or_true])

lemma isWordChar_of_isPart {c : Char} (h : Name.isPart c = true) : isWordChar c = true := by
  simp only [Name.isPart, Bool.or_eq_true, decide_eq_true_eq] at h
  rcases h with (h | rfl) | rfl
  · exact isWordChar_of_isAlphanum h
  · decide
  · decide

/-- **A word**: a dotted name or a numeral, maybe an empty one. -/
def IsWord (cs : List Char) : Prop := cs.all isWordChar = true

variable {cs ds : List Char}

instance : Decidable (IsWord cs) := inferInstanceAs (Decidable (_ = true))

lemma isWord_iff : IsWord cs ↔ ∀ c ∈ cs, isWordChar c = true := List.all_eq_true

@[simp] lemma isWord_nil : IsWord [] := rfl

@[simp] lemma isWord_cons {c : Char} : IsWord (c :: cs) ↔ isWordChar c = true ∧ IsWord cs := by
  simp [isWord_iff]

@[simp] lemma isWord_append : IsWord (cs ++ ds) ↔ IsWord cs ∧ IsWord ds := by
  simp [isWord_iff, or_imp, forall_and]

lemma IsWord.subset (h : IsWord cs) (hd : ds ⊆ cs) : IsWord ds := isWord_iff.2 fun c hc => isWord_iff.1 h c (hd hc)

@[simp] lemma isWord_toDigits (n : Nat) : IsWord (Nat.toDigits 10 n) := isWord_iff.2 fun _ hc =>
  isWordChar_of_isDigit (Nat.isDigit_of_mem_toDigits (by decide) (by decide) hc)

@[simp] lemma isWord_zeros (n : Nat) : IsWord (List.replicate n '0') := isWord_iff.2 fun c hc => by
  rw [List.eq_of_mem_replicate hc]
  decide

/-- Identifiers are words. -/
lemma isWord_of_isWord (h : Name.isWord cs = true) : IsWord cs := isWord_iff.2 fun c hc =>
  isWordChar_of_isPart (Name.isPart_of_isWord h c hc)

end Text

namespace Number

open Text (IsWord)

lemma isWord_intText (n : Int) : IsWord (intText n).toList := by
  have hminus : IsWord "-".toList := by decide
  unfold intText
  dsimp only
  split_ifs
  · rw [String.toList_append, Text.isWord_append]
    exact ⟨hminus, by simp⟩
  · simp

lemma isWord_doubleText (x : Double) : IsWord x.text.toList := by
  obtain ⟨hpoint, he, hminus, hplus, hzero⟩ : Text.isWordChar '.' = true ∧ Text.isWordChar 'e' = true ∧
    Text.isWordChar '-' = true ∧ Text.isWordChar '+' = true ∧ Text.isWordChar '0' = true := by decide
  have hsign : IsWord (if x.isNegative then "-" else "").toList := by split_ifs <;> decide
  rcases hx : x.shortest with ⟨d, e⟩
  have hdigits : IsWord (Double.trimZeros (Nat.toDigits 10 d)) := (Text.isWord_toDigits d).subset fun c hc =>
    List.mem_reverse.1 ((List.dropWhile_suffix _).subset (List.mem_reverse.1 hc))
  have htake (n : Nat) : IsWord ((Double.trimZeros (Nat.toDigits 10 d)).take n) := hdigits.subset (List.take_subset n _)
  have hdrop (n : Nat) : IsWord ((Double.trimZeros (Nat.toDigits 10 d)).drop n) := hdigits.subset (List.drop_subset n _)
  unfold Double.text
  rw [hx]
  dsimp only
  generalize (if x.isNegative = true then "-" else "") = sign at hsign ⊢
  generalize Double.trimZeros (Nat.toDigits 10 d) = digits at hdigits htake hdrop ⊢
  have hsigned (cs : List Char) (hcs : IsWord cs) : IsWord (sign ++ String.ofList cs).toList := by simpa using ⟨hsign, hcs⟩
  split_ifs
  · exact hsigned "Infinity".toList (by decide)
  · decide
  · exact hsigned "0.0".toList (by decide)
  iterate 4
    refine hsigned _ (Text.isWord_append.2 ⟨?_, by simp [he, hminus, hplus, hzero]⟩)
    split <;> simp_all
  · exact hsigned _ (by simp [hzero, hpoint, hdigits])
  · exact hsigned _ (by simp [hzero, hpoint, htake])
  · exact hsigned _ (by simp [hpoint, htake, hdrop])

lemma isWord_text (n : Number) : IsWord n.text.toList := by
  cases n with
  | int n => exact isWord_intText n
  | double x => exact isWord_doubleText x

end Number

namespace Naming

open Text (IsWord)

lemma isWord_typeName (name : String) : IsWord (Name.typeName name).toList := Text.isWord_iff.2 fun _ hc =>
  Text.isWordChar_of_isPart (Name.isPart_of_mem_typeName hc)

/-- A dotted name of type names is a word. -/
lemma isWord_refer {α : Type} (tree : Namespace α) (inside target : List String) :
    IsWord (refer tree inside target).text.toList := by
  have hparts : IsWord (".".intercalate (refer tree inside target).parts).toList := by
    refine Text.isWord_iff.2 fun c hc => ?_
    rw [String.toList_intercalate] at hc
    rcases Text.mem_intercalate hc with hc | ⟨part, hpart, hc⟩
    · obtain rfl := List.mem_singleton.1 hc
      decide
    · obtain ⟨name, hname, rfl⟩ := List.mem_map.1 hpart
      obtain ⟨segment, -, rfl⟩ := List.mem_map.1 (List.mem_of_mem_drop hname)
      exact Text.isWord_iff.1 (isWord_typeName segment) c hc
  rw [Reference.text, String.toList_append, Text.isWord_append]
  exact ⟨by split_ifs <;> decide, hparts⟩

end Naming

/-! ### Types -/

/-- **The texts of plain types**: words, string literals, and the array of anything. -/
inductive IsAtom : String → Prop
  | word {text : String} : Text.IsWord text.toList → IsAtom text
  | literal {text : String} (cs : List Char) : text.toList = Json.Literal.encode cs → IsAtom text
  | anyArray : IsAtom "any[]"

/-- The comment on a member does not end before its end. -/
def Head.IsTidy : Head → Prop
  | .anyName => True
  | .property comment _ _ _ => ∀ line ∈ comment, Text.Quiet line.toList

/-- Notes that are notes. -/
def AreNotes (notes : List String) : Prop := ∀ note ∈ notes, Emission.IsNote note

/-- **A tidy type**: each part of it is what it looks like. -/
inductive TypeExpr.IsTidy : TypeExpr → Prop
  | plain {text : String} {notes : List String} : IsAtom text → AreNotes notes → IsTidy (.plain text notes)
  | union {ts : List TypeExpr} {notes : List String} : (∀ t ∈ ts, IsTidy t) → AreNotes notes → IsTidy (.union ts notes)
  | array {t : TypeExpr} {notes : List String} : IsTidy t → AreNotes notes → IsTidy (.array t notes)
  | tuples {vs : List (List TypeExpr)} {notes : List String} : 2 ≤ vs.length → (∀ v ∈ vs, ∀ t ∈ v, IsTidy t) →
      AreNotes notes → IsTidy (.tuples vs notes)
  | object {ms : List (Head × TypeExpr)} : (∀ m ∈ ms, m.1.IsTidy) → (∀ m ∈ ms, IsTidy m.2) → IsTidy (.object ms)

/-- A member of an object type with a tidy head and a tidy type. -/
def IsTidyMember (m : Head × TypeExpr) : Prop := m.1.IsTidy ∧ m.2.IsTidy

namespace Emission

variable {env : Setting} {inside : List String} {d : Nat}

lemma areNotes_notes (fs : Fields) : AreNotes (notes fs) := fun _ h => isNote_notes h

lemma areNotes_nil : AreNotes [] := List.forall_mem_nil _

/-- The text of a JSON value that is written as a string is a literal. -/
lemma isAtom_str (s : String) : IsAtom (Json.str s).text :=
  .literal s.toList (by rw [Json.text, String.toList_ofList, Json.chars])

lemma isAtom_literal {numeric : Bool} {v : Json} {text : String} (h : literal numeric v = .ok text) : IsAtom text := by
  unfold literal at h
  split at h
  · next n =>
    obtain rfl := Except.ok.inj h
    split_ifs
    · refine .word ?_
      rw [Json.text, String.toList_ofList, Json.chars]
      exact Number.isWord_text n
    · exact isAtom_str _
  · obtain rfl := Except.ok.inj h
    exact isAtom_str _
  · split_ifs at h
    obtain rfl := Except.ok.inj h
    exact isAtom_str _

lemma isAtom_primitive {type : Json} {schema : Option String} {name : String} (h : primitive type schema = .ok (some name)) :
    IsAtom name := by
  rw [primitive.eq_def] at h
  split at h
  all_goals cases h
  all_goals exact .word (by decide)

lemma lift_ensures {α : Type} {e : Except Failure α} {P : α → Prop} (h : ∀ a, e = .ok a → P a) : Ensures (Told.lift e) P := by
  cases e with
  | ok a => exact Ensures.of_pure (h a rfl)
  | error f => exact Ensures.of_throw

lemma nameOf_ensures (env : Setting) (inside : List String) (address : Address) :
    Ensures (nameOf env inside address) IsAtom := by
  unfold nameOf
  refine Ensures.anything.bind fun names _ => ?_
  dsimp only
  have hname : IsAtom (Naming.refer env.tree inside names).text := .word (Naming.isWord_refer env.tree inside names)
  split_ifs
  · exact Ensures.of_throw
  · exact Ensures.anything.bind fun _ _ => Ensures.of_pure hname
  · exact Ensures.of_pure hname

/-- What is made with a given depth is tidy. -/
structure TypesTidy (env : Setting) (inside : List String) (d : Nat) : Prop where
  typeOf : ∀ s, Ensures (typeOf env inside d s) TypeExpr.IsTidy
  namedType : ∀ s type shown, AreNotes shown → Ensures (namedType env inside d s type shown) TypeExpr.IsTidy
  partType : ∀ s, Ensures (partType env inside d s) TypeExpr.IsTidy
  arrayType : ∀ s, Ensures (arrayType env inside d s) TypeExpr.IsTidy
  members : ∀ s, Ensures (members env inside d s) fun ms => ∀ m ∈ ms, IsTidyMember m

namespace TypesTidy

/-- The parts of a schema have tidy types. -/
lemma partAt (ih : TypesTidy env inside d) (s : Schema Fields) (pointer : String) :
    Ensures (do Emission.partType env inside d (← Emission.partAt env s pointer)) TypeExpr.IsTidy :=
  Ensures.anything.bind fun t _ => ih.partType t

lemma typeOf_succ (ih : TypesTidy env inside d) (s : Schema Fields) :
    Ensures (Emission.typeOf env inside (d + 1) s) TypeExpr.IsTidy := by
  rw [Emission.typeOf]
  cases (s.content.get? "$ref").bind (·.str?) with
  | some r =>
    exact Ensures.anything.bind fun t _ => (nameOf_ensures env inside _).bind fun name hname =>
      Ensures.of_pure (.plain hname (areNotes_notes _))
  | none =>
    dsimp only
    split_ifs
    · exact (Ensures.mapM fun pointer _ => ih.partAt s pointer).bind fun types htypes =>
        Ensures.of_pure (TypeExpr.IsTidy.union htypes.2 (areNotes_notes _))
    · split
      · refine (lift_ensures (P := fun literals => ∀ l ∈ literals, IsAtom l) fun literals h l hl => ?_).bind
          fun literals hliterals => Ensures.of_pure (.union (fun t ht => ?_) (areNotes_notes _))
        · obtain ⟨v, -, hv⟩ := exists_of_mapM_eq_ok h hl
          exact isAtom_literal hv
        · obtain ⟨l, hl, rfl⟩ := List.mem_map.1 ht
          exact .plain (hliterals l hl) areNotes_nil
      · exact (lift_ensures fun _ => isAtom_literal).bind fun one hone => Ensures.of_pure (.plain hone (areNotes_notes _))
      · split
        · exact Ensures.of_pure (.plain (.word (by decide)) (areNotes_notes _))
        · exact (Ensures.mapM fun type _ => ih.namedType s type [] areNotes_nil).bind fun several hseveral =>
            Ensures.of_pure (.union hseveral.2 (areNotes_notes _))
        · exact ih.namedType s _ _ (areNotes_notes _)

lemma namedType_succ (ih : TypesTidy env inside d) (s : Schema Fields) (type : Json) {shown : List String}
    (hs : AreNotes shown) : Ensures (Emission.namedType env inside (d + 1) s type shown) TypeExpr.IsTidy := by
  rw [Emission.namedType]
  refine (lift_ensures (P := fun name => ∀ n, name = some n → IsAtom n) fun a ha n hn => ?_).bind fun name hname => ?_
  · exact isAtom_primitive (hn ▸ ha)
  cases name with
  | some name => exact Ensures.of_pure (.plain (hname name rfl) hs)
  | none =>
    dsimp only
    split_ifs
    · exact (ih.members s).bind fun ms hms =>
        Ensures.of_pure (.object (fun m hm => (hms m hm).1) fun m hm => (hms m hm).2)
    · exact ih.arrayType s

lemma partType_succ (ih : TypesTidy env inside d) (s : Schema Fields) :
    Ensures (Emission.partType env inside (d + 1) s) TypeExpr.IsTidy := by
  rw [Emission.partType]
  split_ifs
  · exact (nameOf_ensures env inside _).bind fun name hname => Ensures.of_pure (.plain hname (areNotes_notes _))
  · exact ih.typeOf s

/-- An array with a list of items has at least two lengths: one may be the length of the list, and one is longer. -/
lemma two_le_lengths {fs : Fields} {items : List Json} {least : Option Int} (hleast : minItems? fs = .ok least)
    (hempty : ¬(items.isEmpty && ((fs.get? "minItems").getD .null).isNull) = true) :
    2 ≤ (1 + max (least.getD 0) items.length - least.getD 1 + 1).toNat := by
  cases least with
  | some n =>
    simp only [Option.getD_some]
    omega
  | none =>
    have hnull : ((fs.get? "minItems").getD .null).isNull = true := by
      unfold minItems? at hleast
      split at hleast
      · next h => rw [h, Option.getD_none, Json.isNull]
      · next h => rw [h, Option.getD_some, Json.isNull]
      all_goals cases hleast
    rw [hnull, Bool.and_true, List.isEmpty_iff] at hempty
    have hpos := List.length_pos_iff.2 hempty
    simp only [Option.getD_none]
    omega

lemma isTidy_fillers {given length most : Nat} {t : TypeExpr} (h : t ∈ fillers given length most) : t.IsTidy := by
  obtain ⟨i, -, rfl⟩ := List.mem_map.1 h
  split_ifs <;> exact .plain (.word (by decide)) areNotes_nil

lemma arrayType_succ (ih : TypesTidy env inside d) (s : Schema Fields) :
    Ensures (Emission.arrayType env inside (d + 1) s) TypeExpr.IsTidy := by
  have hany : TypeExpr.IsTidy (.plain "any[]" (notes s.content)) := .plain .anyArray (areNotes_notes _)
  rw [Emission.arrayType]
  dsimp only
  split
  · exact Ensures.of_pure hany
  · next items _ =>
    split_ifs with hempty
    · exact Ensures.of_pure hany
    · refine (lift_ensures fun least hleast => two_le_lengths hleast hempty).bind fun least hlengths => ?_
      refine (Ensures.mapM (Q := fun v => ∀ t ∈ v, TypeExpr.IsTidy t) fun k _ => ?_).bind fun variants hvariants => ?_
      · refine (Ensures.mapM fun pointer _ => ih.partAt s pointer).bind fun types htypes => Ensures.of_pure fun t ht => ?_
        exact (List.mem_append.1 ht).elim (htypes.2 t) isTidy_fillers
      · refine Ensures.of_pure (.tuples ?_ hvariants.2 (areNotes_notes _))
        rw [hvariants.1, List.length_range]
        exact hlengths
  · exact Ensures.anything.bind fun item _ => (ih.typeOf item).bind fun type htype =>
      Ensures.of_pure (.array htype (areNotes_notes _))

lemma ownMember (ih : TypesTidy env inside d) (s : Schema Fields) (name : String) (isOptional : Bool) :
    Ensures (do
      let t ← Emission.partAt env s ("/properties/" ++ Pointer.escape name)
      let comment ← Told.lift (commentOf t.content)
      let type ← Emission.typeOf env inside d t
      return (Head.property comment (t.content.get? "readOnly" = some (.bool true)) name isOptional, type)) IsTidyMember := by
  refine Ensures.anything.bind fun t _ => ?_
  refine (lift_ensures fun _ => quiet_commentOf).bind fun comment hcomment => ?_
  exact (ih.typeOf t).bind fun type htype => Ensures.of_pure ⟨hcomment, htype⟩

lemma members_succ (ih : TypesTidy env inside d) (s : Schema Fields) :
    Ensures (Emission.members env inside (d + 1) s) fun ms => ∀ m ∈ ms, IsTidyMember m := by
  have hrest (additional : List (Head × TypeExpr)) (h : ∀ m ∈ additional, IsTidyMember m) {own : List (Head × TypeExpr)}
      (hown : ∀ m ∈ own, IsTidyMember m) : ∀ m ∈ additional ++ own, IsTidyMember m :=
    List.forall_mem_append.2 ⟨h, hown⟩
  have hany {t : TypeExpr} (ht : t.IsTidy) : ∀ m ∈ [(Head.anyName, t)], IsTidyMember m :=
    List.forall_mem_singleton.2 ⟨trivial, ht⟩
  rw [Emission.members]
  dsimp only
  split
  -- additional properties with a schema come first, the rest is the same in all cases
  on_goal 4 => refine Ensures.anything.bind fun t _ => (ih.typeOf t).bind fun type htype => ?_
  all_goals refine (Ensures.mapM fun name _ => ih.ownMember s name _).bind fun own hown => Ensures.of_pure (hrest _ ?_ hown.2)
  · exact List.forall_mem_nil _
  · exact List.forall_mem_nil _
  · exact hany (.plain (.word (by decide)) areNotes_nil)
  · exact hany htype

end TypesTidy

/-- **The types that emission makes are tidy**, by induction on the depth. -/
theorem typesTidy (env : Setting) (inside : List String) (d : Nat) : TypesTidy env inside d := by
  induction d with
  | zero =>
    refine ⟨fun s => ?_, fun s type shown _ => ?_, fun s => ?_, fun s => ?_, fun s => ?_⟩
    · rw [typeOf]
      exact Ensures.of_throw
    · rw [namedType]
      exact Ensures.of_throw
    · rw [partType]
      exact Ensures.of_throw
    · rw [arrayType]
      exact Ensures.of_throw
    · rw [members]
      exact Ensures.of_throw
  | succ d ih =>
    exact ⟨ih.typeOf_succ, fun s type _ hs => ih.namedType_succ s type hs, ih.partType_succ, ih.arrayType_succ,
      ih.members_succ⟩

end Emission

end Typings
