import Typings.Json.Reader
import Typings.Proofs.Percent
import Typings.Proofs.Scan
import Typings.Proofs.TypeName
import Typings.Proofs.Url
import Typings.Proofs.Writer

/-!
Property names read back. A string literal is read as the text that it was written for (`Json.readString_encode`), escape by
escape; characters above U+FFFF are two escapes that belong together. A name that is an identifier stands for itself. So a
property name is read back from the text that is written for it, and this text stands on one line
(`Writer.key_reads_back`). There is one exception: an identifier with a line feed behind it counts as an identifier.
-/

namespace Typings

/-! ### String literals -/

namespace Json

open Literal

variable {start : Nat} {acc rest : List Char} {c d : Char}

lemma readString_quote : readString start acc ('"' :: rest) = .ok (String.ofList acc.reverse, rest) := by
  rw [readString]

/-- A character that stands for itself. -/
lemma readString_plain (hquote : c ≠ '"') (hback : c ≠ '\\') (h : 0x20 ≤ c.toNat) :
    readString start acc (c :: rest) = readString start (c :: acc) rest := by
  rw [readString, if_neg (by omega)]
  · exact hquote
  · rintro rfl
    exact absurd rfl hback
  · rintro _ rfl
    exact absurd rfl hback
  · rintro _ _ rfl
    exact absurd rfl hback

/-- An escape of one character. -/
lemma readString_simple (h : simpleEscape? c = some d) :
    readString start acc ('\\' :: c :: rest) = readString start (d :: acc) rest := by
  rw [readString, h]
  rintro rfl
  have hnone : simpleEscape? 'u' = none := rfl
  cases hnone.symm.trans h

lemma hexDigit?_lowerHex : ∀ n < 16, Text.hexDigit? (Text.lowerHex n) = some n := by decide

/-- Four hexadecimal digits are read back. -/
lemma unit?_hexText {n : Nat} (h : n < 0x10000) (rest : List Char) : unit? (Text.hexText 4 n ++ rest) = some n := by
  have hdigit (k : Nat) : Text.hexDigit? (Text.lowerHex (k % 16)) = some (k % 16) := hexDigit?_lowerHex _ (by omega)
  simp only [Text.hexText, List.nil_append, List.cons_append, unit?, hdigit]
  congr 1
  omega

/-- A character below U+10000 is one escape: it is no surrogate. -/
lemma readString_unit (h : c.toNat < 0x10000) (hne : rest ≠ []) :
    readString start acc (unitEscape c.toNat ++ rest) = readString start (c :: acc) rest := by
  have hvalid := Text.Utf8.char_valid c
  have hhigh : isHigh c.toNat = false := by
    simp [isHigh]
    omega
  have hlow : isLow c.toNat = false := by
    simp [isLow]
    omega
  have hchar : unitChar c.toNat = c := by simp [unitChar, hhigh, hlow]
  have hdrop : (Text.hexText 4 c.toNat ++ rest).drop 4 = rest := rfl
  rw [unitEscape, List.cons_append, List.cons_append, readString, unit?_hexText h]
  simp only [hdrop, if_neg hne, hhigh, hchar, Bool.false_and, Bool.false_eq_true, if_false]

/-- A character above U+FFFF is two escapes, which are read together. -/
lemma readString_pair (h : 0x10000 ≤ c.toNat) (hne : rest ≠ []) :
    readString start acc (unitEscape (0xD800 + (c.toNat - 0x10000) / 1024) ++
      (unitEscape (0xDC00 + (c.toNat - 0x10000) % 1024) ++ rest)) = readString start (c :: acc) rest := by
  have hvalid := Text.Utf8.char_valid c
  obtain ⟨high, hhigh⟩ : ∃ n, n = 0xD800 + (c.toNat - 0x10000) / 1024 := ⟨_, rfl⟩
  obtain ⟨low, hlow⟩ : ∃ n, n = 0xDC00 + (c.toNat - 0x10000) % 1024 := ⟨_, rfl⟩
  have hisHigh : isHigh high = true := by
    simp [isHigh]
    omega
  have hisLow : isLow low = true := by
    simp [isLow]
    omega
  have hpair : pair high low = c := by
    rw [pair]
    exact Text.Utf8.ofNat_of_eq (by omega)
  have hlength : 6 < (unitEscape low ++ rest).length := by
    have := List.length_pos_iff.2 hne
    simp [unitEscape, Text.hexText]
    omega
  have htake : (unitEscape low ++ rest).take 2 = ['\\', 'u'] := rfl
  have hunit : unit? ((unitEscape low ++ rest).drop 2) = some low := unit?_hexText (by omega) rest
  have hdrop : (Text.hexText 4 high ++ (unitEscape low ++ rest)).drop 4 = unitEscape low ++ rest := rfl
  have hafter : (unitEscape low ++ rest).drop 6 = rest := rfl
  have hmore : unitEscape low ++ rest ≠ [] := by simp [hne]
  rw [← hhigh, ← hlow, unitEscape, List.cons_append, List.cons_append, readString, unit?_hexText (by omega)]
  simp only [hdrop, if_neg hmore, hisHigh, hlength, htake, hunit, hisLow, hpair, hafter, decide_true, Bool.and_self, if_true]

/-- **One character is read back**, whatever follows it. -/
lemma readString_encodeChar (hne : rest ≠ []) :
    readString start acc (encodeChar c ++ rest) = readString start (c :: acc) rest := by
  rcases encodeChar_cases c with ⟨hquote, hback, hplain, h⟩ | ⟨e, he, h⟩ | ⟨hunit, h⟩ | ⟨hpair, h⟩
  · rw [h]
    exact readString_plain hquote hback hplain.1
  · rw [h]
    exact readString_simple he
  · rw [h]
    exact readString_unit hunit hne
  · rw [h, List.append_assoc]
    exact readString_pair hpair hne

/-- **A literal is read back.** -/
theorem readString_encode (cs : List Char) :
    readString start acc (cs.flatMap encodeChar ++ '"' :: rest) = .ok (String.ofList (acc.reverse ++ cs), rest) := by
  induction cs generalizing acc with
  | nil => simp [readString_quote]
  | cons c cs ih =>
    rw [List.flatMap_cons, List.append_assoc, readString_encodeChar (by simp), ih]
    simp

end Json

/-! ### Characters on one line -/

namespace Text

lemma isLineEnd_iff {c : Char} : isLineEnd c = true ↔ c ∈ lineEnds.map Char.ofNat := by
  rw [isLineEnd, List.contains_iff_mem, List.mem_map]
  constructor
  · exact fun h => ⟨c.toNat, h, Char.ofNat_toNat c⟩
  · rintro ⟨n, hn, rfl⟩
    have hall : lineEnds.all (fun n => (Char.ofNat n).toNat == n) = true := by decide
    rwa [beq_iff_eq.1 (List.all_eq_true.1 hall n hn)]

/-- A class of characters that has no end of a line among them. -/
lemma isLineEnd_of_class {p : Char → Bool} (hp : (lineEnds.map Char.ofNat).all (fun c => !p c) = true) {c : Char}
    (h : p c = true) : isLineEnd c = false := by
  rw [← Bool.not_eq_true, isLineEnd_iff]
  intro hmem
  simpa [h] using List.all_eq_true.1 hp c hmem

lemma isLineEnd_of_visible {c : Char} (h : 0x20 ≤ c.toNat ∧ c.toNat ≤ 0x7E) : isLineEnd c = false :=
  isLineEnd_of_class (p := fun c => 0x20 ≤ c.toNat && c.toNat ≤ 0x7E) (by decide) (by simpa using h)

end Text

namespace Json.Literal

open Text (isLineEnd isLineEnd_of_visible)

lemma isLineEnd_of_mem_unitEscape {n : Nat} {c : Char} (h : c ∈ unitEscape n) : isLineEnd c = false := by
  rcases List.mem_cons.1 h with rfl | h
  · decide
  rcases List.mem_cons.1 h with rfl | h
  · decide
  obtain ⟨k, hk, rfl⟩ := Scan.mem_hexText h
  have hall : (List.range 16).all (fun k => !isLineEnd (Text.lowerHex k)) = true := by decide
  simpa using List.all_eq_true.1 hall k (List.mem_range.2 hk)

lemma isLineEnd_of_mem_encodeChar {c d : Char} (h : d ∈ encodeChar c) : isLineEnd d = false := by
  rcases encodeChar_cases c with ⟨-, -, hplain, hc⟩ | ⟨e, he, hc⟩ | ⟨-, hc⟩ | ⟨-, hc⟩ <;> rw [hc] at h
  · obtain rfl := List.mem_singleton.1 h
    exact isLineEnd_of_visible hplain
  · rcases List.mem_pair.1 h with rfl | rfl
    · decide
    · exact Text.isLineEnd_of_class (p := fun e => (simpleEscape? e).isSome) (by decide) (by simp [he])
  · exact isLineEnd_of_mem_unitEscape h
  · exact (List.mem_append.1 h).elim isLineEnd_of_mem_unitEscape isLineEnd_of_mem_unitEscape

/-- **A literal stands on one line.** -/
theorem isLineEnd_of_mem_encode {cs : List Char} {c : Char} (h : c ∈ encode cs) : isLineEnd c = false := by
  have hquote : isLineEnd '"' = false := by decide
  rw [encode, List.cons_append, List.mem_cons, List.mem_append, List.mem_singleton] at h
  rcases h with rfl | h | rfl
  · exact hquote
  · obtain ⟨d, -, hd⟩ := List.mem_flatMap.1 h
    exact isLineEnd_of_mem_encodeChar hd
  · exact hquote

end Json.Literal

/-! ### Property names -/

namespace Name

/-- An identifier with a line feed behind it. -/
def IsWordLine (name : String) : Prop := ∃ word, isWord word = true ∧ name.toList = word ++ ['\n']

lemma isIdentifier_iff {name : String} : isIdentifier name = true ↔ isWord name.toList = true ∨ IsWordLine name := by
  simp only [isIdentifier, Bool.or_eq_true, Bool.and_eq_true, decide_eq_true_eq, IsWordLine]
  refine or_congr_right ⟨?_, ?_⟩
  · rintro ⟨hlast, hword⟩
    obtain ⟨word, hname⟩ := List.getLast?_eq_some_iff.1 hlast
    rw [hname, List.dropLast_concat] at hword
    exact ⟨word, hword, hname⟩
  · rintro ⟨word, hword, hname⟩
    rw [hname, List.dropLast_concat]
    exact ⟨List.getLast?_concat, hword⟩

lemma isLineEnd_of_isWord {cs : List Char} (h : isWord cs = true) : ∀ c ∈ cs, Text.isLineEnd c = false := fun c hc =>
  Text.isLineEnd_of_class (p := isPart) (by decide) (isPart_of_isWord h c hc)

end Name

namespace Writer

/-- **Read a property name** at the front of a text: a string literal, or the longest row of characters that may stand in an
identifier, if it is one. -/
def readKey (cs : List Char) : Option (String × List Char) :=
  if cs.head? = some '"' then (Json.readString cs.length [] (cs.drop 1)).toOption
  else if Name.isWord (cs.takeWhile Name.isPart) then some (String.ofList (cs.takeWhile Name.isPart), cs.dropWhile Name.isPart)
  else none

variable {word rest : List Char}

lemma readKey_word (hword : Name.isWord word = true) (hrest : ∀ c ∈ rest.head?, Name.isPart c = false) :
    readKey (word ++ rest) = some (String.ofList word, rest) := by
  have hpart := Name.isPart_of_isWord hword
  have hquote : (word ++ rest).head? ≠ some '"' := by
    cases word with
    | nil => cases hword
    | cons c word =>
      rintro ⟨⟩
      exact absurd (hpart '"' List.mem_cons_self) (by decide)
  have hspan : (word ++ rest).span Name.isPart = (word, rest) := Url.span_append hpart hrest
  rw [List.span_eq_takeWhile_dropWhile] at hspan
  obtain ⟨htake, hdrop⟩ := Prod.mk.inj hspan
  rw [readKey, if_neg hquote, htake, hdrop, if_pos hword]

lemma readKey_encode (cs rest : List Char) : readKey (Json.Literal.encode cs ++ rest) = some (String.ofList cs, rest) := by
  have hhead : (Json.Literal.encode cs ++ rest).head? = some '"' := rfl
  have htail : (Json.Literal.encode cs ++ rest).drop 1 = cs.flatMap Json.Literal.encodeChar ++ '"' :: rest := by
    simp [Json.Literal.encode]
  rw [readKey, if_pos hhead, htail, Json.readString_encode]
  rfl

lemma text_key (name : String) (optional : Bool) (w : Writer) :
    (w.key name optional).text = w.begin.text ++ keyText name ++ if optional then "?" else "" := by
  cases optional with
  | true => exact (text_put_put _ _ w).trans (congrArg (· ++ "?") (text_put _ w))
  | false => exact (text_put _ w).trans String.append_empty.symm

/-- What is written for a name, by the three kinds of names. -/
lemma keyText_cases (name : String) :
    (Name.isWord name.toList = true ∧ ¬Name.IsWordLine name ∧ (keyText name).toList = name.toList) ∨
      (Name.IsWordLine name ∧ (keyText name).toList = name.toList) ∨
      (¬Name.IsWordLine name ∧ (keyText name).toList = Json.Literal.encode name.toList) := by
  unfold keyText
  by_cases hline : Name.IsWordLine name
  · rw [if_pos (Name.isIdentifier_iff.2 (Or.inr hline))]
    exact Or.inr (Or.inl ⟨hline, rfl⟩)
  by_cases hword : Name.isWord name.toList = true
  · rw [if_pos (Name.isIdentifier_iff.2 (Or.inl hword))]
    exact Or.inl ⟨hword, hline, rfl⟩
  · rw [if_neg fun h => (Name.isIdentifier_iff.1 h).elim hword hline, Json.text, String.toList_ofList, Json.chars]
    exact Or.inr (Or.inr ⟨hline, rfl⟩)

/-- **Property names read back.** What is written for a name is read as the name, up to what follows it, and stands on one line;
both hold exactly of the names that are not an identifier with a line feed behind it. -/
theorem key_reads_back (name : String) (optional : Bool) (w : Writer) (rest : List Char)
    (hrest : ∀ c ∈ rest.head?, Name.isPart c = false) :
    (w.key name optional).text = w.begin.text ++ keyText name ++ (if optional then "?" else "") ∧
      (readKey ((keyText name).toList ++ rest) = some (name, rest) ↔ ¬Name.IsWordLine name) ∧
      ((∀ c ∈ (keyText name).toList, Text.isLineEnd c = false) ↔ ¬Name.IsWordLine name) := by
  refine ⟨text_key name optional w, ?_⟩
  rcases keyText_cases name with ⟨hword, hline, htext⟩ | ⟨hline, htext⟩ | ⟨hline, htext⟩
  · rw [htext, readKey_word hword hrest, String.ofList_toList]
    exact ⟨iff_of_true rfl hline, iff_of_true (Name.isLineEnd_of_isWord hword) hline⟩
  · obtain ⟨word, hword, hname⟩ := id hline
    -- the identifier ends before the line feed, which is left over
    have hread : readKey (name.toList ++ rest) = some (String.ofList word, '\n' :: rest) := by
      rw [hname, List.append_assoc]
      exact readKey_word hword fun c hc => by
        obtain rfl : '\n' = c := by simpa using hc
        decide
    rw [htext, hread]
    refine ⟨iff_of_false ?_ (not_not_intro hline), iff_of_false ?_ (not_not_intro hline)⟩
    · simp
    · intro hall
      exact absurd (hall '\n' (by simp [hname])) (by decide)
  · rw [htext, readKey_encode, String.ofList_toList]
    exact ⟨iff_of_true rfl hline, iff_of_true (fun _ => Json.Literal.isLineEnd_of_mem_encode) hline⟩

/-- A name with a quotation mark, a backslash, a line feed, a control and characters on both sides of U+FFFF. -/
theorem key_reads_back_manyEscapes :
    (∀ c ∈ [':'].head?, Name.isPart c = false) ∧ ¬Name.IsWordLine "a\"\\\n\x7fé😀" ∧
      keyText "a\"\\\n\x7fé😀" = "\"a\\\"\\\\\\n\\u007f\\u00e9\\ud83d\\ude00\"" ∧
      readKey ("\"a\\\"\\\\\\n\\u007f\\u00e9\\ud83d\\ude00\"".toList ++ [':']) = some ("a\"\\\n\x7fé😀", [':']) := by
  have hrest : ∀ c ∈ [':'].head?, Name.isPart c = false := by
    rintro _ ⟨⟩
    decide
  have hline : ¬Name.IsWordLine "a\"\\\n\x7fé😀" := by
    rintro ⟨word, -, hname⟩
    have hlast := congrArg List.getLast? hname
    rw [List.getLast?_concat] at hlast
    exact absurd hlast (by decide)
  have htext : keyText "a\"\\\n\x7fé😀" = "\"a\\\"\\\\\\n\\u007f\\u00e9\\ud83d\\ude00\"" := by decide +kernel
  obtain ⟨-, hread, -⟩ := key_reads_back "a\"\\\n\x7fé😀" true (new "") [':'] hrest
  rw [htext] at hread
  exact ⟨hrest, hline, htext, hread.2 hline⟩

/-- An identifier with a line feed behind it is written as it is, and read without the line feed. -/
theorem key_breaks_line :
    (key "a\n" false (new "")).text = "a\n" ∧ Text.isLineEnd '\n' = true ∧ readKey "a\n:".toList = some ("a", ['\n', ':']) := by
  decide +kernel

end Writer

end Typings
