import Mathlib.Tactic.Common
import Typings.Text.Percent

/-!
Reading back what was written, for UTF-8 and for percent-encoding. Main statements:

* `Utf8.decode_encode`: the octets of a text are read as that text;
* `Percent.decode_encode`: a text that was percent-encoded is read as itself, as long as the percent sign is not among
  the characters that stand for themselves;
* `Percent.mem_encode`: which characters an encoded text may hold.
-/

namespace Typings.Text

/-! ### UTF-8 -/

namespace Utf8

lemma decode_nil : decode [] = [] := by
  rw [decode]

lemma decode_cons (a : ℕ) (rest : List ℕ) :
    decode (a :: rest) = (next a rest).1 :: decode (rest.drop (next a rest).2) := by
  rw [decode]

lemma char_valid (c : Char) : c.toNat < 0xD800 ∨ (0xDFFF < c.toNat ∧ c.toNat < 0x110000) := c.valid

lemma ofNat_of_eq {c : Char} {n : ℕ} (h : n = c.toNat) : Char.ofNat n = c := by
  rw [h, Char.ofNat_toNat]

lemma next_two {c : Char} {a b : ℕ} (rest : List ℕ) (ha : 0xC2 ≤ a) (ha' : a ≤ 0xDF) (hb : 0x80 ≤ b) (hb' : b ≤ 0xBF)
    (hc : (a - 0xC0) * 64 + (b - 0x80) = c.toNat) : next a (b :: rest) = (c, 1) := by
  unfold next
  rw [if_neg (by omega), if_pos ⟨ha, ha'⟩]
  have ht : isTail b = true := by simp [isTail, hb, hb']
  simp only [ht, if_true, ofNat_of_eq hc]

lemma next_three {c : Char} {a b d : ℕ} (rest : List ℕ) (ha : 0xE0 ≤ a) (ha' : a ≤ 0xEF) (hb : mayFollow a b = true)
    (hd : 0x80 ≤ d) (hd' : d ≤ 0xBF) (hc : (a - 0xE0) * 4096 + (b - 0x80) * 64 + (d - 0x80) = c.toNat) :
    next a (b :: d :: rest) = (c, 2) := by
  unfold next
  rw [if_neg (by omega), if_neg (by omega), if_pos ⟨ha, ha'⟩]
  have ht : isTail d = true := by simp [isTail, hd, hd']
  simp [hb, ht, ofNat_of_eq hc]

lemma next_four {c : Char} {a b d e : ℕ} (rest : List ℕ) (ha : 0xF0 ≤ a) (ha' : a ≤ 0xF4) (hb : mayFollow a b = true)
    (hd : 0x80 ≤ d) (hd' : d ≤ 0xBF) (he : 0x80 ≤ e) (he' : e ≤ 0xBF)
    (hc : (a - 0xF0) * 262144 + (b - 0x80) * 4096 + (d - 0x80) * 64 + (e - 0x80) = c.toNat) :
    next a (b :: d :: e :: rest) = (c, 3) := by
  unfold next
  rw [if_neg (by omega), if_neg (by omega), if_neg (by omega), if_pos ⟨ha, ha'⟩]
  have ht : isTail d = true := by simp [isTail, hd, hd']
  have ht' : isTail e = true := by simp [isTail, he, he']
  simp [hb, ht, ht', ofNat_of_eq hc]

/-- **One character is read back**, whatever follows it. -/
theorem decode_encodeChar_append (c : Char) (rest : List ℕ) : decode (encodeChar c ++ rest) = c :: decode rest := by
  have hv := char_valid c
  simp only [encodeChar]
  split
  · next h =>
    have hn : next c.toNat rest = (c, 0) := by
      unfold next
      rw [if_pos h, Char.ofNat_toNat]
    simp [decode_cons, hn]
  split
  · next h1 h2 =>
    rw [List.cons_append, decode_cons, List.cons_append, next_two (c := c) _ (by omega) (by omega) (by omega) (by omega)
      (by omega)]
    simp
  split
  · next h1 h2 h3 =>
    have hb : mayFollow (0xE0 + c.toNat / 4096) (0x80 + c.toNat / 64 % 64) = true := by
      -- the second octet of the first block is large, and surrogates are no characters
      unfold mayFollow isTail
      split_ifs <;> simp only [Bool.and_eq_true, decide_eq_true_eq] <;> omega
    rw [List.cons_append, decode_cons, List.cons_append, List.cons_append,
      next_three (c := c) _ (by omega) (by omega) hb (by omega) (by omega) (by omega)]
    simp
  · next h1 h2 h3 =>
    have hb : mayFollow (0xF0 + c.toNat / 262144) (0x80 + c.toNat / 4096 % 64) = true := by
      unfold mayFollow isTail
      split_ifs <;> simp only [Bool.and_eq_true, decide_eq_true_eq] <;> omega
    rw [List.cons_append, decode_cons, List.cons_append, List.cons_append, List.cons_append,
      next_four (c := c) _ (by omega) (by omega) hb (by omega) (by omega) (by omega) (by omega) (by omega)]
    simp

theorem decode_encode (cs : List Char) : decode (encode cs) = cs := by
  induction cs with
  | nil => exact decode_nil
  | cons c cs ih =>
    rw [encode, List.flatMap_cons, decode_encodeChar_append]
    exact congrArg (c :: ·) ih

lemma encodeChar_lt {c : Char} {b : ℕ} (h : b ∈ encodeChar c) : b < 256 := by
  have hv := char_valid c
  simp only [encodeChar] at h
  split_ifs at h <;> simp only [List.mem_cons, List.not_mem_nil, or_false] at h <;> omega

end Utf8

/-! ### Percent-encoding -/

namespace Percent

lemma hexDigit?_upperHex : ∀ n < 16, hexDigit? (upperHex n) = some n := by decide

lemma isUnreserved_upperHex : ∀ n < 16, isUnreserved (upperHex n) = true := by decide

lemma octets_cons_of_ne {c : Char} (h : c ≠ '%') (rest : List Char) :
    octets (c :: rest) = Utf8.encodeChar c ++ octets rest := by
  rw [octets]
  intro a b r hc
  exact absurd hc h

lemma octets_escape {b : ℕ} (h : b < 256) (rest : List Char) : octets (escape b ++ rest) = b :: octets rest := by
  simp only [escape, List.cons_append, List.nil_append]
  rw [octets]
  rw [hexDigit?_upperHex (b / 16) (by omega), hexDigit?_upperHex (b % 16) (by omega)]
  simp only
  rw [show 16 * (b / 16) + b % 16 = b by omega]

lemma octets_escapes (bs : List ℕ) (h : ∀ b ∈ bs, b < 256) (rest : List Char) :
    octets (bs.flatMap escape ++ rest) = bs ++ octets rest := by
  induction bs with
  | nil => rfl
  | cons b bs ih =>
    rw [List.flatMap_cons, List.append_assoc, octets_escape (h b List.mem_cons_self),
      ih fun b' hb' => h b' (List.mem_cons_of_mem _ hb'), List.cons_append]

variable {safe : List Char}

lemma octets_encodeChar (hs : '%' ∉ safe) (c : Char) (rest : List Char) :
    octets (encodeChar safe c ++ rest) = Utf8.encodeChar c ++ octets rest := by
  unfold encodeChar
  split
  · next h =>
    have hc : c ≠ '%' := by
      rintro rfl
      simp [isUnreserved, hs] at h
    exact octets_cons_of_ne hc rest
  · exact octets_escapes _ (fun b hb => Utf8.encodeChar_lt hb) rest

lemma octets_encode (hs : '%' ∉ safe) (cs : List Char) : octets (encode safe cs) = Utf8.encode cs := by
  induction cs with
  | nil => rfl
  | cons c cs ih =>
    rw [encode, List.flatMap_cons, octets_encodeChar hs, Utf8.encode, List.flatMap_cons]
    exact congrArg _ ih

/-- **An encoded text is read as itself.** -/
theorem decode_encode (hs : '%' ∉ safe) (cs : List Char) : decode (encode safe cs) = cs := by
  rw [decode, octets_encode hs, Utf8.decode_encode]

/-- What an encoded text may hold. -/
theorem mem_encode {cs : List Char} {c : Char} (h : c ∈ encode safe cs) : isUnreserved c = true ∨ c ∈ safe ∨ c = '%' := by
  obtain ⟨d, -, hd⟩ := List.mem_flatMap.1 h
  unfold encodeChar at hd
  split at hd
  · next hk =>
    obtain rfl := List.mem_singleton.1 hd
    rcases Bool.or_eq_true_iff.1 hk with hk | hk
    · exact Or.inl hk
    · exact Or.inr (Or.inl (by simpa using hk))
  · obtain ⟨b, hb, hc⟩ := List.mem_flatMap.1 hd
    have hlt := Utf8.encodeChar_lt hb
    simp only [escape, List.mem_cons, List.not_mem_nil, or_false] at hc
    rcases hc with rfl | rfl | rfl
    · exact Or.inr (Or.inr rfl)
    · exact Or.inl (isUnreserved_upperHex _ (by omega))
    · exact Or.inl (isUnreserved_upperHex _ (by omega))

lemma encode_append (cs ds : List Char) : encode safe (cs ++ ds) = encode safe cs ++ encode safe ds :=
  List.flatMap_append

end Percent

end Typings.Text
