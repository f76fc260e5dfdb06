import Typings.Document
import Typings.Proofs.Address
import Typings.Proofs.Outcome

/-!
Spellings of a place. A reference into its own document may write the characters of a pointer plainly or escaped, and any
mixture of both; all spellings of one place are one address, and it is the id that the place gets when a document is
recognised or a part is taken out of it (`Pointer.spellings_agree`).
-/

namespace Typings

open Typings.Text

namespace Pointer

lemma toList_ofTokens (tokens : List String) : (ofTokens tokens).toList = pointerChars tokens := by
  simp [ofTokens, pointerChars, escape, String.toList_join, List.flatMap_map]

theorem parse_ofTokens (tokens : List String) : parse (ofTokens tokens) = .ok tokens := by
  unfold parse
  rw [toList_ofTokens]
  cases tokens with
  | nil => rfl
  | cons t ts =>
    show Except.ok (((escapeChars t.toList ++ pointerChars ts).splitOn '/').map fun u => String.ofList (unescapeChars u)) = _
    rw [tokens_pointerChars]

theorem parse_of_decode {s : String} {tokens : List String} (h : Percent.decode s.toList = pointerChars tokens) :
    parse ("#" ++ s) = .ok tokens := by
  have hl : ("#" ++ s).toList = '#' :: s.toList := by simp
  unfold parse
  rw [hl]
  simp only [h]
  cases tokens with
  | nil => rfl
  | cons t ts =>
    rw [pointerChars_cons]
    simp only [tokens_pointerChars]

theorem fragment_injective : Function.Injective fragment := by
  intro ts us h
  have hl : fragmentChars ts = fragmentChars us := by rw [← toList_fragment, ← toList_fragment, h]
  exact fragmentChars_injective hl

end Pointer

namespace Address

/-- The address of a whole document: nothing stands behind the number sign. -/
structure IsWhole (a : Address) : Prop where
  isCanonical : IsCanonical a.text
  text_eq : a.text = a.location ++ "#"

lemma hash_not_mem_location (a : Address) : '#' ∉ a.location.toList := by
  simp only [location, Url.cut, List.span_eq_takeWhile_dropWhile, String.toList_ofList]
  intro h
  simpa using List.mem_takeWhile_imp h

lemma isRooted_fragment {document : List Char} (h : IsRooted (document ++ ['#'])) (fragment : List Char) :
    IsRooted (document ++ '#' :: fragment) := by
  rcases h with h | h | h
  · exact Or.inl (h.trans ⟨[], fragment, by simp⟩)
  · cases document with
    | nil => simp at h
    | cons c document => exact Or.inr (Or.inl (by simpa using h))
  · cases document with
    | nil => exact Or.inr (Or.inr rfl)
    | cons c document => exact Or.inr (Or.inr (by simpa using h))

lemma IsWhole.isRooted {a : Address} (ha : IsWhole a) : IsRooted (a.location.toList ++ ['#']) := by
  obtain ⟨document, fragment, hd, hr, hc⟩ := canonical_parts a.text.toList
  have hl : a.text.toList = a.location.toList ++ ['#'] := by
    rw [ha.text_eq]
    simp
  have htext : (ofText a.text).text.toList = a.text.toList := congrArg String.toList ha.isCanonical
  rw [ofText, String.toList_ofList, hc, hl] at htext
  rw [← htext]
  exact isRooted_canonical hr

/-- **One address for all spellings** of a place in a document. -/
theorem IsWhole.ofText_spelling {a : Address} (ha : IsWhole a) {s : String} {tokens : List String}
    (h : Percent.decode s.toList = Pointer.pointerChars tokens) :
    ofText (a.location ++ "#" ++ s) = ⟨a.location ++ "#" ++ Pointer.fragment tokens⟩ := by
  have hfragment : Pointer.canonicalFragment s.toList = Pointer.fragmentChars tokens := by
    rw [Pointer.canonicalFragment, h, Pointer.fragmentChars_eq_encode]
  have hrooted := rooted_eq_self (by simp) (isRooted_fragment ha.isRooted s.toList)
  have hl : (a.location ++ "#" ++ s).toList = a.location.toList ++ '#' :: s.toList := by simp
  have hcanonical : canonical (a.location ++ "#" ++ s).toList =
      (a.location ++ "#" ++ Pointer.fragment tokens).toList := by
    simp only [hl, Address.canonical, hrooted, Url.cut_append (hash_not_mem_location a), hfragment]
    simp [Pointer.toList_fragment]
  rw [ofText, hcanonical, String.ofList_toList]

/-- A part that declares no id gets the address that every spelling of its place means. -/
theorem IsWhole.address_of_extract {refs : Refs} {d part : Schema Node} (hd : IsWhole d.address) {pointer s : String}
    {tokens : List String} (hp : Pointer.parse pointer = .ok tokens)
    (hs : Percent.decode s.toList = Pointer.pointerChars tokens) (h : d.extract refs pointer none = .ok part)
    (hdeclared : part.content.declaredId d.dialect = none) :
    part.address = ofText (d.address.location ++ "#" ++ s) := by
  unfold Schema.extract at h
  obtain ⟨tokens', ht, h⟩ := bind_eq_ok.1 h
  obtain rfl : tokens = tokens' := Except.ok.inj (hp.symm.trans ht)
  obtain ⟨content, -, h⟩ := bind_eq_ok.1 h
  obtain ⟨address, ha, h⟩ := bind_eq_ok.1 h
  obtain rfl : d.part tokens address content = part := Except.ok.inj h
  have hcontent : content.declaredId d.dialect = none := hdeclared
  rw [hcontent] at ha
  obtain rfl : ofText (d.address.text ++ Pointer.fragment tokens) = address := Except.ok.inj ha
  have hfragment : Percent.decode (Pointer.fragment tokens).toList = Pointer.pointerChars tokens := by
    rw [Pointer.toList_fragment, Pointer.decode_fragmentChars]
  rw [hd.ofText_spelling hs, ← hd.ofText_spelling hfragment, ← hd.text_eq]
  rfl

end Address

namespace Pointer

/-- **Spellings agree.** Whatever way a text writes the pointer of tokens, it is read as the tokens, and as an address it
is the one that the place gets as a named schema and as a part of a document. -/
theorem spellings_agree (tokens : List String) (s : String) (h : Percent.decode s.toList = (ofTokens tokens).toList) :
    parse ("#" ++ s) = .ok tokens ∧ parse (ofTokens tokens) = .ok tokens ∧
      (Address.ofText ("#" ++ s)).text = "#" ++ fragment tokens ∧ parse ("#" ++ fragment tokens) = .ok tokens ∧
      Function.Injective fragment ∧
      (∀ (dialect : Dialect) (front : List String) (schemas : Table String Node) (name : String) (node : Node),
        (name, node) ∈ schemas → tokens = front ++ [name] →
        ⟨node.mark, dialect.idKeyword, (Address.ofText ("#" ++ s)).text⟩ ∈ Document.schemaIds dialect front schemas) ∧
      ∀ (refs : Refs) (d part : Schema Node) (pointer : String), Address.IsWhole d.address → parse pointer = .ok tokens →
        d.extract refs pointer none = .ok part → part.content.declaredId d.dialect = none →
        part.address = Address.ofText (d.address.location ++ "#" ++ s) := by
  rw [toList_ofTokens] at h
  have haddress : (Address.ofText ("#" ++ s)).text = "#" ++ fragment tokens := by
    have hempty : Address.IsWhole ⟨"#"⟩ := ⟨by decide +kernel, by decide +kernel⟩
    have hlocation : Address.location ⟨"#"⟩ = "" := by decide +kernel
    have hs := hempty.ofText_spelling h
    rw [hlocation] at hs
    simpa using congrArg Address.text hs
  refine ⟨parse_of_decode h, parse_ofTokens tokens, haddress, parse_fragment tokens, fragment_injective, ?_, ?_⟩
  · intro dialect front schemas name node hmem htokens
    rw [haddress, htokens]
    exact List.mem_map.2 ⟨(name, node), hmem, rfl⟩
  · intro refs d part pointer hd hp hpart hdeclared
    exact hd.address_of_extract hp h hpart hdeclared

/-- Tokens with every character that an escape is for, an empty one among them, and a text that escapes some of it. -/
theorem spellings_agree_manyEscapes :
    Percent.decode "/~001%2F~1%25é/%23/".toList = (ofTokens ["~01", "/%é", "#", ""]).toList ∧
      parse "#/~001%2F~1%25é/%23/" = .ok ["~01", "/%é", "#", ""] ∧
      (Address.ofText "#/~001%2F~1%25é/%23/").text = "#/~001/~1%25%C3%A9/%23/" := by
  have h : Percent.decode "/~001%2F~1%25é/%23/".toList = (ofTokens ["~01", "/%é", "#", ""]).toList := by decide +kernel
  have key := spellings_agree ["~01", "/%é", "#", ""] "/~001%2F~1%25é/%23/" h
  have hfragment : "#" ++ fragment ["~01", "/%é", "#", ""] = "#/~001/~1%25%C3%A9/%23/" := by decide +kernel
  exact ⟨h, key.1, key.2.2.1.trans hfragment⟩

end Pointer

end Typings
