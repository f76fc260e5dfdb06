import Mathlib.Data.List.Basic
import Typings.Pointer
import Typings.Proofs.Percent

/-!
Pointers and their form in fragments, on characters. The fragment of tokens is the percent-encoded pointer of the tokens,
so that reading a fragment gives the pointer and reading the pointer gives the tokens. Main statements:

* `parse_fragment`: the tokens of a fragment are read back;
* `canonicalFragment_fragment`: a fragment of tokens is its own one spelling;
* `fragmentChars_append_eq`: where the fragment of some tokens begins that of others and a slash follows, the tokens
  begin the others.
-/

namespace Typings.Pointer

open Typings.Text

/-! ### Tokens -/

lemma not_mem_escapeChars (cs : List Char) : '/' ∉ escapeChars cs := by
  intro h
  obtain ⟨c, -, hc⟩ := List.mem_flatMap.1 h
  unfold escapeChar at hc
  split_ifs at hc with h₁ h₂
  · simp at hc
  · simp at hc
  · exact h₂ (List.mem_singleton.1 hc).symm

lemma unescapeChars_cons_of_ne {c : Char} (h : c ≠ '~') (cs : List Char) :
    unescapeChars (c :: cs) = c :: unescapeChars cs := by
  rw [unescapeChars]
  · rintro rest rfl
    exact absurd rfl h
  · rintro rest rfl
    exact absurd rfl h

theorem unescapeChars_escapeChars (cs : List Char) : unescapeChars (escapeChars cs) = cs := by
  induction cs with
  | nil => rfl
  | cons c cs ih =>
    have hcons : escapeChars (c :: cs) = escapeChar c ++ escapeChars cs := List.flatMap_cons
    rw [hcons]
    unfold escapeChar
    split_ifs with h₁ h₂
    · subst h₁
      simp [unescapeChars, ih]
    · subst h₂
      simp [unescapeChars, ih]
    · simp [unescapeChars_cons_of_ne h₁, ih]

/-! ### Pointers -/

/-- The characters of the pointer of tokens. -/
def pointerChars (tokens : List String) : List Char := tokens.flatMap fun t => '/' :: escapeChars t.toList

/-- The characters of the fragment of tokens. -/
def fragmentChars (tokens : List String) : List Char :=
  tokens.flatMap fun t => '/' :: Percent.encode fragmentSafe (escapeChars t.toList)

lemma pointerChars_cons (t : String) (ts : List String) :
    pointerChars (t :: ts) = '/' :: (escapeChars t.toList ++ pointerChars ts) := rfl

lemma fragmentChars_cons (t : String) (ts : List String) :
    fragmentChars (t :: ts) = '/' :: (Percent.encode fragmentSafe (escapeChars t.toList) ++ fragmentChars ts) := rfl

lemma toList_fragment (tokens : List String) : (fragment tokens).toList = fragmentChars tokens := by
  simp [fragment, fragmentChars, String.toList_join, List.flatMap_map, encodeToken]

/-- The segments of a pointer, its first slash taken away, are the written tokens. -/
lemma splitOn_pointerChars (t : String) (ts : List String) :
    (escapeChars t.toList ++ pointerChars ts).splitOn '/' = (t :: ts).map fun u => escapeChars u.toList := by
  induction ts generalizing t with
  | nil => simpa [pointerChars] using List.splitOn_eq_singleton (not_mem_escapeChars t.toList)
  | cons u us ih =>
    rw [pointerChars_cons, List.splitOn_append_cons_self_of_not_mem (not_mem_escapeChars t.toList), ih u]
    rfl

/-- The tokens that the characters of a pointer stand for, as `parse` reads them. -/
lemma tokens_pointerChars (t : String) (ts : List String) :
    ((escapeChars t.toList ++ pointerChars ts).splitOn '/').map (fun u => String.ofList (unescapeChars u)) = t :: ts := by
  rw [splitOn_pointerChars, List.map_map]
  have h : (fun u => String.ofList (unescapeChars u)) ∘ (fun u : String => escapeChars u.toList) = id := by
    funext u
    simp [unescapeChars_escapeChars]
  rw [h, List.map_id]

/-! ### Fragments -/

lemma percent_not_mem_safe : '%' ∉ '/' :: fragmentSafe := by decide

lemma encode_escapeChars (cs : List Char) :
    Percent.encode ('/' :: fragmentSafe) (escapeChars cs) = Percent.encode fragmentSafe (escapeChars cs) := by
  refine List.flatMap_congr fun c hc => ?_
  have hne : c ≠ '/' := fun h => not_mem_escapeChars cs (h ▸ hc)
  simp [Percent.encodeChar, hne]

/-- The fragment of tokens is their pointer, encoded. -/
lemma fragmentChars_eq_encode (tokens : List String) :
    fragmentChars tokens = Percent.encode ('/' :: fragmentSafe) (pointerChars tokens) := by
  induction tokens with
  | nil => rfl
  | cons t ts ih =>
    have hslash : Percent.encode ('/' :: fragmentSafe) ('/' :: (escapeChars t.toList ++ pointerChars ts)) =
        '/' :: Percent.encode ('/' :: fragmentSafe) (escapeChars t.toList ++ pointerChars ts) := by
      simp [Percent.encode, Percent.encodeChar]
    rw [fragmentChars_cons, pointerChars_cons, hslash, Percent.encode_append, encode_escapeChars, ih]

lemma decode_fragmentChars (tokens : List String) : Percent.decode (fragmentChars tokens) = pointerChars tokens := by
  rw [fragmentChars_eq_encode, Percent.decode_encode percent_not_mem_safe]

theorem canonicalFragment_fragment (tokens : List String) :
    canonicalFragment (fragmentChars tokens) = fragmentChars tokens := by
  rw [canonicalFragment, decode_fragmentChars, fragmentChars_eq_encode]

theorem canonicalFragment_idem (cs : List Char) : canonicalFragment (canonicalFragment cs) = canonicalFragment cs := by
  simp only [canonicalFragment]
  rw [Percent.decode_encode percent_not_mem_safe]

/-- Characters that do not stand in a fragment in its one spelling. -/
lemma not_mem_canonicalFragment {c : Char} (hu : Percent.isUnreserved c = false) (hs : c ∉ '/' :: fragmentSafe)
    (hp : c ≠ '%') (cs : List Char) : c ∉ canonicalFragment cs := by
  intro h
  rcases Percent.mem_encode h with h | h | h
  · exact absurd (hu.symm.trans h) (by decide)
  · exact hs h
  · exact hp h

lemma hash_not_mem_canonicalFragment (cs : List Char) : '#' ∉ canonicalFragment cs :=
  not_mem_canonicalFragment (by decide) (by decide) (by decide) cs

lemma hash_not_mem_fragmentChars (tokens : List String) : '#' ∉ fragmentChars tokens := by
  rw [← canonicalFragment_fragment]
  exact hash_not_mem_canonicalFragment _

/-- **The tokens of a fragment are read back.** -/
theorem parse_fragment (tokens : List String) : parse ("#" ++ fragment tokens) = .ok tokens := by
  have hl : ("#" ++ fragment tokens).toList = '#' :: fragmentChars tokens := by
    simp [toList_fragment]
  unfold parse
  rw [hl]
  simp only [decode_fragmentChars]
  cases tokens with
  | nil => rfl
  | cons t ts =>
    rw [pointerChars_cons]
    simp only [tokens_pointerChars]

/-- A pointer whose last token is written without slashes has two tokens. -/
lemma parse_two {key token : List Char} (hk : '/' ∉ key) (ht : '/' ∉ token) :
    parse (String.ofList ('/' :: (key ++ '/' :: token))) =
      .ok [String.ofList (unescapeChars key), String.ofList (unescapeChars token)] := by
  simp [parse, List.splitOn_append_cons_self_of_not_mem hk, List.splitOn_eq_singleton ht]

/-! ### Beginnings of fragments -/

/-- A text that is empty or goes on with a slash. -/
def IsTail (cs : List Char) : Prop := cs = [] ∨ cs.head? = some '/'

lemma isTail_fragmentChars (tokens : List String) : IsTail (fragmentChars tokens) := by
  cases tokens with
  | nil => exact Or.inl rfl
  | cons t ts => exact Or.inr rfl

/-- Two texts without slashes, each followed by a tail, are equal where the wholes are. -/
lemma append_tail_inj {xs ys us vs : List Char} (hx : '/' ∉ xs) (hy : '/' ∉ ys) (hu : IsTail us) (hv : IsTail vs)
    (h : xs ++ us = ys ++ vs) : xs = ys ∧ us = vs := by
  have key : ∀ {xs us : List Char}, '/' ∉ xs → IsTail us → (xs ++ us).takeWhile (· ≠ '/') = xs := by
    intro xs us hx hu
    have hall : ∀ c ∈ xs, decide (c ≠ '/') = true := fun c hc => by
      simpa using fun e : c = '/' => hx (e ▸ hc)
    rw [List.takeWhile_append_of_pos hall]
    rcases hu with rfl | hu
    · simp
    · cases us with
      | nil => simp
      | cons c us =>
        obtain rfl : c = '/' := by simpa using hu
        simp
  have he : xs = ys := by rw [← key hx hu, h, key hy hv]
  subst he
  exact ⟨rfl, List.append_cancel_left h⟩

lemma slash_not_mem_encode (cs : List Char) : '/' ∉ Percent.encode fragmentSafe (escapeChars cs) := by
  intro h
  rcases Percent.mem_encode h with h | h | h
  · exact absurd h (by decide)
  · exact absurd h (by decide)
  · exact absurd h (by decide)

lemma encode_escapeChars_inj {t u : String}
    (h : Percent.encode fragmentSafe (escapeChars t.toList) = Percent.encode fragmentSafe (escapeChars u.toList)) :
    t = u := by
  have hs : '%' ∉ fragmentSafe := by decide
  have h' := congrArg Percent.decode h
  rw [Percent.decode_encode hs, Percent.decode_encode hs] at h'
  have h'' := congrArg unescapeChars h'
  rw [unescapeChars_escapeChars, unescapeChars_escapeChars] at h''
  exact String.toList_injective h''

/-- **Beginnings of fragments are fragments of beginnings.** -/
theorem fragmentChars_append_eq {ts us : List String} {rest : List Char} (hr : IsTail rest)
    (h : fragmentChars ts ++ rest = fragmentChars us) : ∃ vs, us = ts ++ vs ∧ rest = fragmentChars vs := by
  induction ts generalizing us with
  | nil => exact ⟨us, rfl, h⟩
  | cons t ts ih =>
    cases us with
    | nil => simp [fragmentChars] at h
    | cons u us =>
      rw [fragmentChars_cons, fragmentChars_cons, List.cons_append, List.append_assoc] at h
      have htail : IsTail (fragmentChars ts ++ rest) := by
        cases ts with
        | nil => exact hr
        | cons t' ts' => exact Or.inr rfl
      obtain ⟨ht, hrest⟩ := append_tail_inj (slash_not_mem_encode _) (slash_not_mem_encode _) htail
        (isTail_fragmentChars us) (List.cons.inj h).2
      obtain ⟨vs, rfl, hvs⟩ := ih hrest
      exact ⟨vs, by rw [encode_escapeChars_inj ht, List.cons_append], hvs⟩

theorem fragmentChars_injective {ts us : List String} (h : fragmentChars ts = fragmentChars us) : ts = us := by
  obtain ⟨vs, rfl, hvs⟩ := fragmentChars_append_eq (Or.inl rfl) ((List.append_nil _).trans h)
  cases vs with
  | nil => simp
  | cons v vs => simp [fragmentChars] at hvs

end Typings.Pointer
