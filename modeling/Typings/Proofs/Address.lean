import Mathlib.Data.List.TakeDrop
import Mathlib.Data.List.TakeWhile
import Mathlib.Data.Nat.Init
import Typings.Address
import Typings.Proofs.Pointer

/-!
Addresses in their one form. An address is a document, a number sign and a fragment in its one spelling; bringing it into
this form again changes nothing (`Address.canonical_idem`), so an address that was made of any text inside any ids is the
address that its own text means (`Address.isCanonical_within`). The delicate point is the slash that is put before a text
without `://`: that sequence may stand in the fragment alone, and reading the escapes of the fragment must not take it
away (`Pointer.infix_canonicalFragment`).
-/

namespace Typings

open Typings.Text

/-! ### ASCII sequences survive decoding -/

namespace Text.Utf8

/-- An octet of ASCII ends the character before it: what is read does not depend on it. -/
lemma next_append_ascii {b : ℕ} (hb : b < 0x80) (a : ℕ) (rest more : List ℕ) :
    next a (rest ++ b :: more) = next a rest ∧ (next a rest).2 ≤ rest.length := by
  have ht : isTail b = false := by simp [isTail]; omega
  have hf : mayFollow a b = false := by
    unfold mayFollow
    split_ifs
    · simp; omega
    · simp; omega
    · simp; omega
    · simp; omega
    · exact ht
  -- the cases are those of the first octet; in each, the characters at hand are one to three octets
  by_cases h₁ : a < 0x80
  · simp only [next, if_pos h₁, Nat.zero_le, and_self]
  by_cases h₂ : 0xC2 ≤ a ∧ a ≤ 0xDF
  · simp only [next, if_neg h₁, if_pos h₂]
    rcases rest with _ | ⟨x, rest⟩
    · simp [ht]
    · by_cases hx : isTail x = true <;> simp [hx]
  by_cases h₃ : 0xE0 ≤ a ∧ a ≤ 0xEF
  · simp only [next, if_neg h₁, if_neg h₂, if_pos h₃]
    rcases rest with _ | ⟨x, _ | ⟨y, rest⟩⟩
    · rcases more with _ | ⟨_, _⟩ <;> simp [hf]
    · by_cases hx : mayFollow a x = true <;> simp [hx, ht]
    · by_cases hx : mayFollow a x = true <;> by_cases hy : isTail y = true <;> simp [hx, hy]
  by_cases h₄ : 0xF0 ≤ a ∧ a ≤ 0xF4
  · simp only [next, if_neg h₁, if_neg h₂, if_neg h₃, if_pos h₄]
    rcases rest with _ | ⟨x, _ | ⟨y, _ | ⟨z, rest⟩⟩⟩
    · rcases more with _ | ⟨_, _ | ⟨_, _⟩⟩ <;> simp [hf]
    · rcases more with _ | ⟨_, _⟩ <;> by_cases hx : mayFollow a x = true <;> simp [hx, ht]
    · by_cases hx : mayFollow a x = true <;> by_cases hy : isTail y = true <;> simp [hx, hy, ht]
    · by_cases hx : mayFollow a x = true <;> by_cases hy : isTail y = true <;> by_cases hz : isTail z = true <;>
        simp [hx, hy, hz]
  · simp only [next, if_neg h₁, if_neg h₂, if_neg h₃, if_neg h₄, Nat.zero_le, and_self]

lemma decode_append_ascii {b : ℕ} (hb : b < 0x80) (xs ys : List ℕ) :
    decode (xs ++ b :: ys) = decode xs ++ Char.ofNat b :: decode ys := by
  induction hn : xs.length using Nat.strong_induction_on generalizing xs with
  | _ n ih =>
    cases xs with
    | nil =>
      have hnext : next b ys = (Char.ofNat b, 0) := by simp [next, hb]
      simp [decode_cons, decode_nil, hnext]
    | cons a xs =>
      obtain ⟨hsame, hle⟩ := next_append_ascii hb a xs ys
      rw [List.cons_append, decode_cons, decode_cons, hsame, List.drop_append_of_le_length hle,
        ih _ (by simp at hn; simp; omega) _ rfl, List.cons_append]

end Text.Utf8

namespace Text.Percent

/-- A character that is no hexadecimal digit ends every escape before it. -/
lemma octets_append_of_not_hex {c : Char} (hc : hexDigit? c = none) (xs ys : List Char) :
    octets (xs ++ c :: ys) = octets xs ++ octets (c :: ys) := by
  fun_induction octets xs with
  | case1 => rfl
  | case2 a b rest m n hm hn ih =>
    rw [List.cons_append, List.cons_append, List.cons_append, octets, hm, hn]
    simp [ih]
  | case3 a b rest hab ih =>
    rw [List.cons_append, List.cons_append, List.cons_append, octets]
    split
    · next m n hm hn => exact absurd hn (hab m n hm)
    · rw [← List.cons_append, ← List.cons_append, ih, List.cons_append]
  | case4 d rest hd ih =>
    by_cases h : d = '%'
    · subst h
      -- fewer than two characters follow the sign
      rcases rest with _ | ⟨a, _ | ⟨b, rest⟩⟩
      · have e : octets [] = [] := rfl
        rw [e, List.append_nil]
        rcases ys with _ | ⟨b, ys⟩
        · simp [octets, Utf8.encodeChar]
        · simp [octets, hc, Utf8.encodeChar]
      · simp only [List.cons_append, List.nil_append] at ih ⊢
        rw [octets, hc]
        simp [ih, Utf8.encodeChar]
      · exact absurd rfl (hd a b rest rfl)
    · rw [List.cons_append, octets_cons_of_ne h, ih, List.append_assoc]

/-- The octet of an ASCII character that is no hexadecimal digit stays where it is. -/
lemma decode_append_ascii {c : Char} (hc : hexDigit? c = none) (hp : c ≠ '%') (ha : c.toNat < 0x80) (xs ys : List Char) :
    decode (xs ++ c :: ys) = decode xs ++ c :: decode ys := by
  have he : Utf8.encodeChar c = [c.toNat] := by simp [Utf8.encodeChar, ha]
  simp only [decode]
  rw [octets_append_of_not_hex hc, octets_cons_of_ne hp, he, List.singleton_append,
    Utf8.decode_append_ascii ha, Char.ofNat_toNat]

end Text.Percent

namespace Pointer

/-- **A mark of a URL in a fragment stays** when the fragment is brought into its one spelling. -/
theorem infix_canonicalFragment {cs : List Char} (h : [':', '/', '/'] <:+: cs) :
    [':', '/', '/'] <:+: canonicalFragment cs := by
  obtain ⟨xs, ys, rfl⟩ := h
  have hslash : ∀ zs, Percent.decode ('/' :: zs) = '/' :: Percent.decode zs := fun zs => by
    simpa [Percent.decode, Percent.octets, Utf8.decode_nil] using
      Percent.decode_append_ascii (c := '/') (by decide) (by decide) (by decide) [] zs
  have hd : Percent.decode (xs ++ [':', '/', '/'] ++ ys) =
      Percent.decode xs ++ ':' :: '/' :: '/' :: Percent.decode ys := by
    rw [List.append_assoc, List.cons_append, Percent.decode_append_ascii (by decide) (by decide) (by decide)]
    simp only [List.cons_append, List.nil_append, hslash]
  have he : ∀ c zs, ('/' :: fragmentSafe).contains c = true →
      Percent.encode ('/' :: fragmentSafe) (c :: zs) = c :: Percent.encode ('/' :: fragmentSafe) zs := by
    intro c zs hc
    simp only [Percent.encode, List.flatMap_cons, Percent.encodeChar, hc, Bool.or_true, if_true,
      List.singleton_append]
  rw [canonicalFragment, hd, Percent.encode_append, he _ _ (by decide), he _ _ (by decide), he _ _ (by decide)]
  exact ⟨_, _, List.append_assoc _ _ _⟩

end Pointer

/-! ### Cutting at the first mark -/

lemma Url.cut_append {c : Char} {front : List Char} (h : c ∉ front) (rest : List Char) :
    Url.cut c (front ++ c :: rest) = (front, rest) := by
  have hall : ∀ x ∈ front, decide (x ≠ c) = true := fun x hx => by
    simpa using fun e : x = c => h (e ▸ hx)
  simp only [Url.cut, List.span_eq_takeWhile_dropWhile, List.takeWhile_append_of_pos hall,
    List.dropWhile_append_of_pos hall]
  simp

lemma Url.cut_of_not_mem {c : Char} {cs : List Char} (h : c ∉ cs) : Url.cut c cs = (cs, []) := by
  have hall : ∀ x ∈ cs, decide (x ≠ c) = true := fun x hx => by
    simpa using fun e : x = c => h (e ▸ hx)
  have h₁ : cs.takeWhile (fun x => decide (x ≠ c)) = cs := List.takeWhile_eq_self_iff.2 hall
  have h₂ : cs.dropWhile (fun x => decide (x ≠ c)) = [] := List.dropWhile_eq_nil_iff.2 hall
  simp only [Url.cut, List.span_eq_takeWhile_dropWhile, h₁, h₂, List.drop_nil]

namespace Address

lemma occurs_iff {part cs : List Char} : occurs part cs = true ↔ part <:+: cs := by
  induction cs with
  | nil => simp [occurs]
  | cons c cs ih => simp [occurs, ih, List.infix_cons_iff]

/-- A text that needs no slash in front. -/
def IsRooted (cs : List Char) : Prop := [':', '/', '/'] <:+: cs ∨ cs.head? = some '/' ∨ cs.head? = some '#'

lemma rooted_eq_self {cs : List Char} (hm : '#' ∈ cs) (h : IsRooted cs) : rooted cs = cs := by
  have hc : cs.contains '#' = true := by simpa using hm
  simp only [rooted, hc, if_true, ite_eq_left_iff, Bool.not_eq_true, Bool.or_eq_false_iff]
  rintro ⟨⟨h₁, h₂⟩, h₃⟩
  rcases h with h | h | h
  · rw [← occurs_iff] at h
    exact absurd (h.symm.trans h₁) (by decide)
  · simp [h] at h₂
  · simp [h] at h₃

lemma hash_mem_rooted (cs : List Char) : '#' ∈ rooted cs := by
  have h : '#' ∈ (if cs.contains '#' then cs else cs ++ ['#']) := by
    split
    · next h => simpa using h
    · simp
  unfold rooted
  dsimp only
  generalize (if cs.contains '#' then cs else cs ++ ['#']) = marked at h
  split
  · exact h
  · exact List.mem_cons_of_mem _ h

lemma isRooted_rooted (cs : List Char) : IsRooted (rooted cs) := by
  unfold rooted
  dsimp only
  generalize (if cs.contains '#' then cs else cs ++ ['#']) = marked
  split
  · next h =>
    simp only [Bool.or_eq_true, decide_eq_true_eq] at h
    rcases h with (h | h) | h
    · exact Or.inl (occurs_iff.1 h)
    · exact Or.inr (Or.inl h)
    · exact Or.inr (Or.inr h)
  · exact Or.inr (Or.inl rfl)

/-- The parts of an address: nothing in the document is a number sign, and the whole needs no slash in front. -/
lemma canonical_parts (cs : List Char) : ∃ document fragment, '#' ∉ document ∧ IsRooted (document ++ '#' :: fragment) ∧
    canonical cs = document ++ '#' :: Pointer.canonicalFragment fragment := by
  obtain ⟨document, fragment, hr, hd⟩ := List.eq_append_cons_of_mem (hash_mem_rooted cs)
  refine ⟨document, fragment, hd, hr ▸ isRooted_rooted cs, ?_⟩
  simp only [canonical, hr, Url.cut_append hd]

/-- The number sign is not part of the mark of a URL, so the mark stands on one side of it. -/
lemma mark_of_append_hash {document fragment : List Char} (h : [':', '/', '/'] <:+: document ++ '#' :: fragment) :
    [':', '/', '/'] <:+: document ∨ [':', '/', '/'] <:+: fragment := by
  rcases List.infix_append_iff.1 h with h | h | ⟨xs, ys, hxy, hx, hy⟩
  · exact Or.inl h
  · rcases List.infix_cons_iff.1 h with h | h
    · exact absurd h (by simp)
    · exact Or.inr h
  · rcases List.prefix_cons_iff.1 hy with rfl | ⟨t, rfl, -⟩
    · rw [List.append_nil] at hxy
      exact Or.inl (hxy ▸ hx.isInfix)
    · have : '#' ∈ [':', '/', '/'] := by
        rw [hxy]
        simp
      exact absurd this (by decide)

lemma isRooted_canonical {document fragment : List Char} (h : IsRooted (document ++ '#' :: fragment)) :
    IsRooted (document ++ '#' :: Pointer.canonicalFragment fragment) := by
  rcases h with h | h | h
  · rcases mark_of_append_hash h with h | h
    · exact Or.inl (h.trans (List.prefix_append _ _).isInfix)
    · refine Or.inl ((Pointer.infix_canonicalFragment h).trans ?_)
      exact ⟨document ++ ['#'], [], by simp⟩
  · cases document with
    | nil => simp at h
    | cons c document => exact Or.inr (Or.inl (by simpa using h))
  · cases document with
    | nil => exact Or.inr (Or.inr rfl)
    | cons c document => exact Or.inr (Or.inr (by simpa using h))

lemma canonical_of_parts {document fragment : List Char} (hd : '#' ∉ document) (hr : IsRooted (document ++ '#' :: fragment))
    (hf : Pointer.canonicalFragment fragment = fragment) :
    canonical (document ++ '#' :: fragment) = document ++ '#' :: fragment := by
  have h := rooted_eq_self (by simp) hr
  simp only [canonical, h, Url.cut_append hd, hf]

/-- **The one form of an address is its own one form.** -/
theorem canonical_idem (cs : List Char) : canonical (canonical cs) = canonical cs := by
  obtain ⟨document, fragment, hd, hr, hc⟩ := canonical_parts cs
  rw [hc]
  exact canonical_of_parts hd (isRooted_canonical hr) (Pointer.canonicalFragment_idem fragment)

/-- A text that is an address in its one form. -/
def IsCanonical (text : String) : Prop := (ofText text).text = text

instance (text : String) : Decidable (IsCanonical text) := inferInstanceAs (Decidable (_ = _))

lemma isCanonical_ofList (cs : List Char) : IsCanonical (String.ofList (canonical cs)) := by
  simp [IsCanonical, ofText, canonical_idem]

lemma isCanonical_ofText (text : String) : IsCanonical (ofText text).text := isCanonical_ofList _

/-- Addresses inside ids are in their one form. -/
theorem isCanonical_within {text : String} {parents : List String} {a : Address} (h : within text parents = .ok a) :
    IsCanonical a.text := by
  unfold within at h
  split at h
  · cases h
  · cases h
    exact isCanonical_ofText text
  · split at h
    · cases h
      exact isCanonical_ofList _
    · cases h

lemma base_error {acc : List Char} {parents : List String} {f : Failure} (h : base acc parents = .error f) :
    f = .badUrl := by
  induction parents generalizing acc with
  | nil => cases h
  | cons p parents ih =>
    rw [base] at h
    split at h
    · exact ih h
    · split at h
      · exact ih h
      · cases h
        rfl

/-- Making an address of a text fails for one reason only. -/
lemma within_error {text : String} {parents : List String} {f : Failure} (h : within text parents = .error f) :
    f = .badUrl := by
  unfold within at h
  split at h
  · next hb =>
    cases h
    exact base_error hb
  · cases h
  · split at h
    · cases h
    · cases h
      rfl

end Address

end Typings
