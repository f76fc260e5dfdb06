import Mathlib.Data.List.Basic
import Typings.Name

/-!
The type name of a segment. A segment is cut at its dollar signs; in each part the separator right before a word goes
first, and then whatever cannot stand in an identifier. A low line separates words and may stand in an identifier, so
the character behind it says whether it stays. Over the whole text this is one pass that looks one character ahead
(`Name.compact`, `Name.dollared_joinedWords`), and all that is said of type names follows from it: a type name is an
identifier or empty, and it is empty just if the segment has nothing to make a name of (`Name.typeName_isWord`).
-/

namespace Typings.Name

/-! ### Characters -/

lemma isLower_eq (c : Char) : c.isLower = (decide ('a'.val ≤ c.val) && decide (c.val ≤ 'z'.val)) := rfl

lemma isAlphanum_eq (c : Char) :
    c.isAlphanum = (decide ('A'.val ≤ c.val ∧ c.val ≤ 'Z'.val) || c.isLower || c.isDigit) := rfl

lemma isLower_toUpper (c : Char) : c.toUpper.isLower = false := by
  unfold Char.toUpper
  split
  · next h =>
    obtain ⟨hlow, hhigh⟩ := h
    simp only [isLower_eq, Bool.and_eq_false_iff, decide_eq_false_iff_not, UInt32.le_iff_toNat_le] at hlow hhigh ⊢
    left
    simp at hlow hhigh ⊢
    omega
  · next h =>
    simp only [isLower_eq, Bool.and_eq_false_iff, decide_eq_false_iff_not]
    by_contra hlower
    push Not at hlower
    exact h hlower

lemma isAlphanum_toUpper {c : Char} (h : c.isAlphanum = true) : c.toUpper.isAlphanum = true := by
  unfold Char.toUpper
  split
  · next hc =>
    obtain ⟨hlow, hhigh⟩ := hc
    simp only [isAlphanum_eq, Bool.or_eq_true, decide_eq_true_eq, UInt32.le_iff_toNat_le] at hlow hhigh ⊢
    left; left
    simp at hlow hhigh ⊢
    omega
  · exact h

lemma isLower_of_not_alphanum {c : Char} (h : c.isAlphanum = false) : c.isLower = false := by
  simp only [isAlphanum_eq, Bool.or_eq_false_iff] at h
  exact h.1.2

lemma toUpper_of_not_alphanum {c : Char} (h : c.isAlphanum = false) : c.toUpper = c := by
  have hlower := isLower_of_not_alphanum h
  simp only [isLower_eq, Bool.and_eq_false_iff, decide_eq_false_iff_not] at hlower
  exact dif_neg (not_and_or.2 hlower)

/-- What may stand in an identifier is what may start one, and digits. -/
lemma isPart_eq (c : Char) : isPart c = (isStart c || c.isDigit) := by
  simp only [isPart, isStart, Char.isAlphanum]
  ac_rfl

lemma isPart_of_isAlphanum {c : Char} (h : c.isAlphanum = true) : isPart c = true := by
  rw [isPart, h, Bool.true_or, Bool.true_or]

lemma isPart_of_isStart {c : Char} (h : isStart c = true) : isPart c = true := by rw [isPart_eq, h, Bool.true_or]

lemma isPart_of_isWord {cs : List Char} (h : isWord cs = true) : ∀ c ∈ cs, isPart c = true := by
  cases cs with
  | nil => exact List.forall_mem_nil _
  | cons c cs =>
    simp only [isWord, Bool.and_eq_true, List.all_eq_true] at h
    exact List.forall_mem_cons.2 ⟨isPart_of_isStart h.1, h.2⟩

/-! ### One pass -/

/-- Whether a character that is neither letter nor digit stays in front of `rest`: a dollar sign does, and a low line if
no word comes next. -/
def stays (c : Char) (rest : List Char) : Bool := c = '$' || c = '_' && !rest.head?.any Char.isAlphanum

/-- A type name in one pass, but for the low line that comes before a digit; `fresh` says that a letter or digit would
start a word here. -/
def compact (fresh : Bool) : List Char → List Char
  | [] => []
  | c :: rest =>
    if c.isAlphanum then (if fresh then c.toUpper else c) :: compact false rest
    else if stays c rest then c :: compact true rest
    else compact true rest

variable {fresh first : Bool} {c d : Char} {cs rest : List Char}

lemma stays_of_not_mem {p : List Char} (h : '$' ∉ c :: p) (rest : List Char) :
    stays c rest = (decide (c = '_') && !rest.head?.any Char.isAlphanum) := by
  have hne : c ≠ '$' := fun hc => h (by simp [hc])
  simp [stays, hne]

lemma compact_word (h : c.isAlphanum = true) :
    compact fresh (c :: rest) = (if fresh then c.toUpper else c) :: compact false rest := by
  rw [compact, if_pos h]

lemma compact_separator (h : c.isAlphanum = false) :
    compact fresh (c :: rest) = if stays c rest then c :: compact true rest else compact true rest := by
  rw [compact, if_neg (by simp [h])]

/-- Where no word starts, it does not matter whether one would. -/
lemma compact_fresh (h : cs.head?.any Char.isAlphanum = false) : compact fresh cs = compact true cs := by
  cases cs with
  | nil => rfl
  | cons c rest =>
    have hc : c.isAlphanum = false := h
    rw [compact_separator hc, compact_separator hc]

/-- In a part without dollar signs the one pass does what capitalizing and filtering do. The two flags need to agree
only in front of a letter or digit: behind a separator that stays, `capitalized` goes on as if inside of a word. -/
lemma compact_append {p t : List Char} (hp : '$' ∉ p) (ht : t.head?.any Char.isAlphanum = false)
    (hfirst : p.head?.any Char.isAlphanum = true → fresh = first) :
    compact fresh (p ++ t) = (capitalized first p).filter (fun c => c.isAlphanum || c = '_') ++ compact true t := by
  fun_induction capitalized first p generalizing fresh with
  | case1 first => exact compact_fresh ht
  | case2 first c =>
    by_cases hc : c.isAlphanum = true
    · have hup := isAlphanum_toUpper hc
      rw [List.singleton_append, compact_word hc, hfirst hc, compact_fresh ht]
      cases first <;> simp [hc, hup]
    · have hc : c.isAlphanum = false := by simpa using hc
      rw [List.singleton_append, compact_separator hc, toUpper_of_not_alphanum hc, ite_self, stays_of_not_mem hp, ht]
      by_cases hlow : c = '_' <;> simp [hlow, hc]
  | case3 first c d rest hc ih =>
    have hup := isAlphanum_toUpper hc
    have hrest : compact false (d :: rest ++ t) = _ := ih (fun h => hp (by simp [h])) fun _ => rfl
    rw [List.cons_append, compact_word hc, hfirst hc, hrest]
    cases first <;> simp [hc, hup]
  | case4 first c d rest hc hd ih =>
    -- the separator goes away, and the word behind it starts in upper case
    have hc : c.isAlphanum = false := by simpa using hc
    have hgone : stays c (d :: rest ++ t) = false := by simp [stays_of_not_mem hp, hd]
    have hrest : compact false (rest ++ t) = _ := ih (fun h => hp (by simp [h])) fun _ => rfl
    rw [List.cons_append, compact_separator hc, hgone, if_neg Bool.false_ne_true]
    rw [List.cons_append, compact_word hd, hrest]
    simp [isAlphanum_toUpper hd]
  | case5 first c d rest hc hd ih =>
    have hc : c.isAlphanum = false := by simpa using hc
    have hd : d.isAlphanum = false := by simpa using hd
    have hstays : stays c (d :: rest ++ t) = decide (c = '_') := by simp [stays_of_not_mem hp, hd]
    have hrest : compact true (d :: rest ++ t) = _ := ih (fun h => hp (by simp [h])) fun h => by simp [hd] at h
    rw [List.cons_append, compact_separator hc, hstays, hrest]
    by_cases hlow : c = '_' <;> simp [hlow, hc]

/-! ### The parts between dollar signs -/

lemma dollared_cons {p : List Char} {ps : List (List Char)} (h : ps ≠ []) :
    dollared (p :: ps) = p ++ '$' :: dollared ps := by
  obtain ⟨q, qs, rfl⟩ := List.exists_cons_of_ne_nil h
  rfl

/-- The words of all parts, with the dollar signs between them, in one pass. -/
theorem dollared_joinedWords (cs : List Char) : dollared ((cs.splitOn '$').map joinedWords) = compact true cs := by
  by_cases h : '$' ∈ cs
  · obtain ⟨p, rest, rfl, hp⟩ := List.eq_append_cons_of_mem h
    have hcut : compact true (p ++ '$' :: rest) = joinedWords p ++ compact true ('$' :: rest) :=
      compact_append hp rfl fun _ => rfl
    have hdollar : compact true ('$' :: rest) = '$' :: compact true rest := rfl
    rw [List.splitOn_append_cons_self_of_not_mem hp, List.map_cons,
      dollared_cons (by simp), dollared_joinedWords rest, hcut, hdollar]
  · have hcut : compact true (cs ++ []) = joinedWords cs ++ [] := compact_append h rfl fun _ => rfl
    rw [List.append_nil, List.append_nil] at hcut
    rw [List.splitOn_eq_singleton h, hcut]
    rfl
termination_by cs.length
decreasing_by subst_vars; simp; omega

/-! ### What the pass leaves -/

lemma isPart_of_stays (h : stays c rest = true) : isPart c = true := by
  simp only [stays, Bool.or_eq_true, Bool.and_eq_true] at h
  rcases h with hdollar | ⟨hlow, -⟩
  · rw [isPart, hdollar, Bool.or_true]
  · rw [isPart, hlow, Bool.or_true, Bool.true_or]

/-- Of the characters of identifiers only a low line can go, and it goes for the word behind it. -/
lemma exists_isPart_of_not_stays (hc : c.isAlphanum = false) (hpart : isPart c = true) (h : stays c rest = false) :
    ∃ d ∈ rest, isPart d = true := by
  simp only [stays, Bool.or_eq_false_iff] at h
  have hlow : decide (c = '_') = true := by simpa [isPart, hc, h.1] using hpart
  have hnext : rest.head?.any Char.isAlphanum = true := by simpa [hlow] using h.2
  obtain ⟨d, hd, hword⟩ := (Option.any_eq_true _ _).1 hnext
  exact ⟨d, List.mem_of_mem_head? hd, isPart_of_isAlphanum hword⟩

lemma isPart_of_mem_compact (h : d ∈ compact fresh cs) : isPart d = true := by
  fun_induction compact fresh cs with
  | case1 => cases h
  | case2 fresh c rest hc ih =>
    rcases List.mem_cons.1 h with rfl | h
    · split_ifs
      · exact isPart_of_isAlphanum (isAlphanum_toUpper hc)
      · exact isPart_of_isAlphanum hc
    · exact ih h
  | case3 fresh c rest hc hstays ih =>
    rcases List.mem_cons.1 h with rfl | h
    · exact isPart_of_stays hstays
    · exact ih h
  | case4 fresh c rest hc hgone ih => exact ih h

/-- Something is left just if the text has a character of identifiers. -/
lemma compact_ne_nil_iff : compact fresh cs ≠ [] ↔ ∃ c ∈ cs, isPart c = true := by
  fun_induction compact fresh cs with
  | case1 => simp
  | case2 fresh c rest hc ih =>
    exact iff_of_true (List.cons_ne_nil _ _) ⟨c, List.mem_cons_self, isPart_of_isAlphanum hc⟩
  | case3 fresh c rest hc hstays ih =>
    exact iff_of_true (List.cons_ne_nil _ _) ⟨c, List.mem_cons_self, isPart_of_stays hstays⟩
  | case4 fresh c rest hc hgone ih =>
    have hc : c.isAlphanum = false := by simpa using hc
    have hgone : stays c rest = false := by simpa using hgone
    rw [ih, List.exists_mem_cons_iff, iff_or_self]
    exact fun hpart => exists_isPart_of_not_stays hc hpart hgone

/-- Where a word would start, no small letter comes first. -/
lemma isLower_head_compact (h : (compact true cs).head? = some d) : d.isLower = false := by
  induction cs with
  | nil => cases h
  | cons c rest ih =>
    by_cases hc : c.isAlphanum = true
    · rw [compact_word hc] at h
      exact Option.some.inj h ▸ isLower_toUpper c
    · have hc : c.isAlphanum = false := by simpa using hc
      rw [compact_separator hc] at h
      split_ifs at h
      · exact Option.some.inj h ▸ isLower_of_not_alphanum hc
      · exact ih h

/-! ### Type names -/

/-- The characters of a type name are what the pass leaves, with a low line in front if a digit comes first. -/
lemma typeNameChars_cases (cs : List Char) :
    let body := compact true (Text.unaccented (Text.trim cs))
    (typeNameChars cs = body ∧ ∀ c ∈ body.head?, c.isDigit = false) ∨
      (typeNameChars cs = '_' :: body ∧ ∃ c ∈ body.head?, c.isDigit = true) := by
  simp only [typeNameChars, dollared_joinedWords]
  generalize compact true (Text.unaccented (Text.trim cs)) = body
  cases body with
  | nil => exact Or.inl ⟨rfl, by simp⟩
  | cons c rest =>
    by_cases hc : c.isDigit = true
    · exact Or.inr ⟨if_pos hc, c, rfl, hc⟩
    · exact Or.inl ⟨if_neg hc, by simpa using hc⟩

/-- Type names are made of the characters of identifiers. -/
lemma isPart_of_mem_typeName {name : String} (h : c ∈ (typeName name).toList) : isPart c = true := by
  rw [typeName, String.toList_ofList] at h
  rcases typeNameChars_cases name.toList with ⟨heq, -⟩ | ⟨heq, -⟩
  · exact isPart_of_mem_compact (heq ▸ h)
  · rw [heq] at h
    rcases List.mem_cons.1 h with rfl | h
    · decide
    · exact isPart_of_mem_compact h

/-- A type name has no dot in it. -/
lemma dot_not_mem_typeName (name : String) : '.' ∉ (typeName name).toList := fun h =>
  absurd (isPart_of_mem_typeName h) (by decide)

/-- A type name never starts with a small letter, so none is the name of the outermost level. -/
lemma typeName_ne_globalThis (name : String) : typeName name ≠ "globalThis" := by
  intro h
  have hlist : typeNameChars name.toList = 'g' :: "lobalThis".toList := by
    rw [← String.toList_ofList (l := typeNameChars name.toList)]
    exact congrArg String.toList h
  rcases typeNameChars_cases name.toList with ⟨heq, -⟩ | ⟨heq, -⟩
  · rw [hlist] at heq
    have hlower : 'g'.isLower = false := isLower_head_compact (by rw [← heq]; rfl)
    exact absurd hlower (by decide)
  · rw [hlist] at heq
    cases heq

/-- A type name is empty just if the pass leaves nothing. -/
lemma typeNameChars_ne_nil_iff (cs : List Char) :
    typeNameChars cs ≠ [] ↔ compact true (Text.unaccented (Text.trim cs)) ≠ [] := by
  rcases typeNameChars_cases cs with ⟨heq, -⟩ | ⟨heq, c, hc, -⟩
  · rw [heq]
  · exact iff_of_true (heq ▸ List.cons_ne_nil _ _) (List.ne_nil_of_mem (List.mem_of_mem_head? hc))

/-- A type name does not start with a digit. -/
lemma isDigit_head_typeNameChars {cs : List Char} (h : (typeNameChars cs).head? = some c) : c.isDigit = false := by
  rcases typeNameChars_cases cs with ⟨heq, hdigit⟩ | ⟨heq, -⟩
  · exact hdigit c (heq ▸ h)
  · rw [heq] at h
    exact Option.some.inj h ▸ rfl

/-- A type name is an identifier from its first character to its last, or empty; and it is not empty just if the
segment, without the white space around it and without accents, has a letter, a digit, a low line or a dollar sign in
it. -/
theorem typeName_isWord (name : String) :
    (typeName name = "" ∨ isWord (typeName name).toList = true) ∧
    (typeName name ≠ "" ↔ ∃ c ∈ Text.unaccented (Text.trim name.toList), isPart c = true) := by
  have hchars : (typeName name).toList = typeNameChars name.toList := String.toList_ofList
  constructor
  · cases hcs : typeNameChars name.toList with
    | nil => exact Or.inl (String.toList_eq_nil_iff.1 (hchars.trans hcs))
    | cons c rest =>
      have hpart : ∀ d ∈ c :: rest, isPart d = true := fun d hd => isPart_of_mem_typeName (hchars.trans hcs ▸ hd)
      have hdigit : c.isDigit = false := isDigit_head_typeNameChars (by rw [hcs]; rfl)
      have hstart : isStart c = true := by
        simpa [isPart_eq, hdigit] using hpart c List.mem_cons_self
      refine Or.inr ?_
      rw [hchars, hcs, isWord, hstart, Bool.true_and, List.all_eq_true]
      exact fun d hd => hpart d (List.mem_cons_of_mem c hd)
  · rw [← compact_ne_nil_iff, ← typeNameChars_ne_nil_iff, ← hchars, ne_eq, ne_eq, String.toList_eq_nil_iff]

example : typeName " 1_a _$_b__ " = "_1A_$B__" := by decide +kernel

end Typings.Name
