import Typings.Proofs.Ground
import Typings.Proofs.Node
import Typings.Proofs.Within

/-!
Parts of parts. Taking the part of a schema at one pointer, and then the part of that at another one, is taking the part at
both pointers, one behind the other, as long as no id is declared at the two places (`Schema.sub_composes`). The two addresses
agree since an address in its one form stays in it when the fragment of tokens is put behind it
(`Address.IsCanonical.ofText_append`). The names of a place in a document are those of the document and then the tokens, since
a fragment changes no other part of a URL, whatever the document is called (`Url.split_append_hash`).
-/

namespace Typings

open Typings.Text

/-! ### Fragments behind any document -/

namespace Url

lemma cleaned_append_hash (cs : List Char) {f : List Char} (hf : IsTidy f) : cleaned (cs ++ '#' :: f) = cleaned cs ++ '#' :: f := by
  have hhash : ('#' :: f).dropWhile (fun c => decide (c.toNat ≤ 0x20)) = '#' :: f := List.dropWhile_cons_of_neg (by decide)
  unfold cleaned
  rw [List.dropWhile_append]
  split_ifs with hempty
  · rw [List.isEmpty_iff.1 hempty, hhash, (isTidy_hash hf).filter_eq]
    rfl
  · rw [List.filter_append, (isTidy_hash hf).filter_eq]

lemma mem_cleaned {c : Char} (hc : ¬c.toNat ≤ 0x20) {cs : List Char} (h : c ∈ cs) : c ∈ cleaned cs := by
  have hdrop : c ∈ cs.dropWhile fun c => decide (c.toNat ≤ 0x20) := by
    have hsplit := List.takeWhile_append_dropWhile (p := fun c => decide (c.toNat ≤ 0x20)) (l := cs)
    rw [← hsplit, List.mem_append] at h
    refine h.resolve_left fun htake => hc ?_
    simpa using List.mem_takeWhile_imp htake
  refine List.mem_filter.2 ⟨hdrop, ?_⟩
  by_contra hblank
  simp only [Bool.not_eq_true, Bool.not_eq_false', Bool.or_eq_true, decide_eq_true_eq] at hblank
  rcases hblank with (rfl | rfl) | rfl <;> exact hc (by decide)

lemma cleaned_subset (cs : List Char) : cleaned cs ⊆ cs := fun _ hc =>
  List.dropWhile_subset _ (List.mem_of_mem_filter hc)

lemma splitScheme_colon {front : List Char} (h : ':' ∉ front) (rest : List Char) :
    splitScheme (front ++ ':' :: rest) = if ((front.head?.map (·.isAlpha)).getD false && front.all isSchemeChar) = true
      then some (front.map (·.toLower), rest) else none := by
  have hspan : (front ++ ':' :: rest).span (· ≠ ':') = (front, ':' :: rest) := by
    refine span_append (fun c hc => ?_) ?_
    · simpa using fun e : c = ':' => h (e ▸ hc)
    · rintro _ ⟨⟩
      decide
  simp only [splitScheme, hspan]
  simp

lemma splitScheme_of_head {cs : List Char} (h : ∀ c ∈ cs.head?, c.isAlpha = false) : splitScheme cs = none := by
  cases hscheme : splitScheme cs with
  | none => rfl
  | some e =>
    obtain ⟨front, rfl, -, halpha, -⟩ := splitScheme_eq_some (show splitScheme cs = some (e.1, e.2) from hscheme)
    cases front with
    | nil => cases halpha
    | cons c front =>
      have hc : c.isAlpha = true := halpha
      rw [h c rfl] at hc
      cases hc

/-- The scheme is found before the fragment: a document that needs no slash in front has a colon of its own, or it does not
begin with a letter. -/
lemma splitScheme_append_hash {document : List Char} (hr : Address.IsRooted (document ++ ['#'])) (f : List Char) :
    splitScheme (cleaned document ++ '#' :: f) = (splitScheme (cleaned document)).map fun e => (e.1, e.2 ++ '#' :: f) := by
  by_cases hcolon : ':' ∈ cleaned document
  · obtain ⟨front, rest, hsplit, hfront⟩ := List.eq_append_cons_of_mem hcolon
    rw [hsplit, List.append_assoc, List.cons_append, splitScheme_colon hfront, splitScheme_colon hfront]
    split_ifs <;> rfl
  · have hmark : ¬[':', '/', '/'] <:+: document ++ ['#'] := fun hmark => by
      have hmem : ':' ∈ document ++ ['#'] := hmark.subset List.mem_cons_self
      exact hcolon (mem_cleaned (by decide) (by simpa using hmem))
    have hhead : ∀ c ∈ (cleaned document).head?, c.isAlpha = false := by
      cases document with
      | nil => simp [cleaned]
      | cons d document =>
        have hd : d = '/' ∨ d = '#' := by simpa using hr.resolve_left hmark
        rcases hd with rfl | rfl <;> simp [cleaned]
    have hbehind : ∀ c ∈ (cleaned document ++ '#' :: f).head?, c.isAlpha = false := by
      cases hd : cleaned document with
      | nil => simp
      | cons c cs => simpa [hd] using hhead
    rw [splitScheme_of_head hhead, splitScheme_of_head hbehind]
    rfl

/-- Split off the host, where two slashes announce one. -/
def cutHost (cs : List Char) : List Char × List Char :=
  if cs.take 2 = ['/', '/'] then (cs.drop 2).span (!endsHost ·) else ([], cs)

lemma cutHost_append_hash (cs f : List Char) : cutHost (cs ++ '#' :: f) = ((cutHost cs).1, (cutHost cs).2 ++ '#' :: f) := by
  have htake : (cs ++ '#' :: f).take 2 = ['/', '/'] ↔ cs.take 2 = ['/', '/'] := by
    rcases cs with _ | ⟨a, _ | ⟨b, cs⟩⟩ <;> simp
  unfold cutHost
  by_cases h : cs.take 2 = ['/', '/']
  · obtain ⟨⟨host, tail⟩, hspan⟩ : ∃ e, (cs.drop 2).span (!endsHost ·) = e := ⟨_, rfl⟩
    obtain ⟨hcs, hinside, hbehind⟩ := eq_append_of_span hspan
    have hlength : 2 ≤ cs.length := by
      have := congrArg List.length h
      simp at this
      omega
    rw [if_pos h, if_pos (htake.2 h), List.drop_append_of_le_length hlength, hspan, hcs, List.append_assoc]
    refine span_append hinside fun c hc => ?_
    cases tail with
    | nil =>
      obtain rfl : '#' = c := by simpa using hc
      rfl
    | cons d tail => exact hbehind c hc
  · rw [if_neg h, if_neg (htake.not.2 h)]

lemma cutHost_subset (cs : List Char) : (cutHost cs).2 ⊆ cs := by
  unfold cutHost
  split_ifs
  · rw [List.span_eq_takeWhile_dropWhile]
    exact List.Subset.trans (List.dropWhile_subset _) (List.drop_subset _ _)
  · exact List.Subset.refl _

lemma split_eq_assembled (default cs : List Char) :
    split default cs =
      let e := (splitScheme (cleaned cs)).getD (default, cleaned cs)
      if isHost (cutHost e.2).1 then .ok (assembled e.1 (cutHost e.2).1 (cutHost e.2).2) else .error .badHost := by
  unfold split
  generalize (splitScheme (cleaned cs)).getD (default, cleaned cs) = e
  obtain ⟨scheme, rest⟩ := e
  simp only [cutHost, assembled]
  split_ifs <;> simp_all

/-- **A fragment is split off alone**, whatever the document is called. -/
theorem split_append_hash {document f : List Char} (hd : '#' ∉ document) (hr : Address.IsRooted (document ++ ['#']))
    (hf : IsTidy f) : split [] (document ++ '#' :: f) = (split [] document).map fun u => { u with fragment := f } := by
  rw [split_eq_assembled, split_eq_assembled, cleaned_append_hash document hf, splitScheme_append_hash hr]
  obtain ⟨e, he, hbefore⟩ : ∃ e, (splitScheme (cleaned document)).getD ([], cleaned document) = e ∧ '#' ∉ e.2 := by
    have hclean : '#' ∉ cleaned document := fun h => hd (cleaned_subset document h)
    refine ⟨_, rfl, ?_⟩
    cases hscheme : splitScheme (cleaned document) with
    | none => exact hclean
    | some e =>
      obtain ⟨front, hcs, -⟩ := splitScheme_eq_some (show splitScheme (cleaned document) = some (e.1, e.2) from hscheme)
      rw [hcs] at hclean
      exact fun h => hclean (by simp [show '#' ∈ e.2 from h])
  have hafter : ((splitScheme (cleaned document)).map fun e => (e.1, e.2 ++ '#' :: f)).getD
      ([], cleaned document ++ '#' :: f) = (e.1, e.2 ++ '#' :: f) := by
    rw [← he]
    cases splitScheme (cleaned document) <;> rfl
  rw [he, hafter]
  dsimp only
  rw [cutHost_append_hash]
  split_ifs
  · rw [assembled_fragment fun h => hbefore (cutHost_subset _ h)]
    rfl
  · rfl

end Url

/-! ### Addresses and names of places -/

namespace Pointer

/-- The fragment of tokens behind a fragment in its one spelling: both are encoded texts, and so is the whole. -/
lemma canonicalFragment_append {f : List Char} (hf : canonicalFragment f = f) (tokens : List String) :
    canonicalFragment (f ++ fragmentChars tokens) = f ++ fragmentChars tokens := by
  have hwhole : f ++ fragmentChars tokens =
      Percent.encode ('/' :: fragmentSafe) (Percent.decode f ++ pointerChars tokens) := by
    rw [Percent.encode_append, ← fragmentChars_eq_encode]
    exact congrArg (· ++ fragmentChars tokens) hf.symm
  rw [hwhole, canonicalFragment, Percent.decode_encode percent_not_mem_safe]

lemma encode_escapeChars_ne_nil {t : String} (h : t ≠ "") : Percent.encode fragmentSafe (escapeChars t.toList) ≠ [] := by
  intro hnil
  exact h (encode_escapeChars_inj (hnil.trans (by rfl)))

end Pointer

namespace Address

lemma IsRooted.append {cs : List Char} (h : IsRooted cs) (rest : List Char) : IsRooted (cs ++ rest) := by
  cases cs with
  | nil => simp [IsRooted] at h
  | cons c cs =>
    rcases h with h | h | h
    · exact Or.inl (h.trans (List.prefix_append _ _).isInfix)
    · exact Or.inr (Or.inl h)
    · exact Or.inr (Or.inr h)

/-- The parts of an address in its one form. -/
lemma IsCanonical.parts {text : String} (h : IsCanonical text) : ∃ document fragment, '#' ∉ document ∧
    IsRooted (document ++ '#' :: fragment) ∧ Pointer.canonicalFragment fragment = fragment ∧
    text.toList = document ++ '#' :: fragment := by
  obtain ⟨document, fragment, hd, hr, hc⟩ := canonical_parts text.toList
  rw [canonical_toList h] at hc
  exact ⟨document, _, hd, isRooted_canonical hr, Pointer.canonicalFragment_idem fragment, hc⟩

/-- **The fragment of tokens** behind an address in its one form leaves it in this form. -/
theorem IsCanonical.ofText_append {text : String} (h : IsCanonical text) (tokens : List String) :
    ofText (text ++ Pointer.fragment tokens) = ⟨text ++ Pointer.fragment tokens⟩ := by
  obtain ⟨document, fragment, hd, hr, hf, htext⟩ := h.parts
  have hlist : (text ++ Pointer.fragment tokens).toList = document ++ '#' :: (fragment ++ Pointer.fragmentChars tokens) := by
    rw [String.toList_append, htext, Pointer.toList_fragment, List.append_assoc, List.cons_append]
  have hrooted : IsRooted (document ++ '#' :: (fragment ++ Pointer.fragmentChars tokens)) := by
    simpa using hr.append (Pointer.fragmentChars tokens)
  rw [ofText, hlist, canonical_of_parts hd hrooted (Pointer.canonicalFragment_append hf tokens), ← hlist, String.ofList_toList]

lemma IsCanonical.append {text : String} (h : IsCanonical text) (tokens : List String) :
    IsCanonical (text ++ Pointer.fragment tokens) := congrArg Address.text (h.ofText_append tokens)

/-- An address without a fragment is the address of a whole document. -/
lemma IsCanonical.eq_locator {a : Address} (h : IsCanonical a.text) (hf : a.fragment = "") :
    ∃ home, IsGround home ∧ a.text = locator home [] := by
  obtain ⟨document, fragment, hd, hr, -, htext⟩ := h.parts
  have hnil : fragment = [] := by
    have hcut : a.fragment.toList = fragment := by
      rw [Address.fragment, String.toList_ofList, htext, Url.cut_append hd]
    rw [← hcut, hf]
    rfl
  subst hnil
  refine ⟨String.ofList document, ⟨?_, ?_⟩, ?_⟩
  · rwa [String.toList_ofList]
  · rwa [String.toList_ofList]
  · rw [← String.toList_inj, toList_locator, String.toList_ofList, htext]
    rfl

/-- The names of segments, one after the other. -/
lemma segmentNames_slash {segment rest : List Char} (hs : '/' ∉ segment) (hne : segment ≠ []) (hr : Pointer.IsTail rest) :
    segmentNames ('/' :: (segment ++ rest)) =
      String.ofList (Pointer.unescapeChars (Percent.decode segment)) :: segmentNames rest := by
  have hslash (cs : List Char) : ('/' :: cs).splitOn '/' = [] :: cs.splitOn '/' :=
    List.splitOn_append_cons_self_of_not_mem (List.not_mem_nil (a := '/')) cs
  rcases hr with rfl | hr
  · rw [List.append_nil, segmentNames, hslash, List.splitOn_eq_singleton hs]
    simp [segmentNames, hne]
  · obtain ⟨more, rfl⟩ := List.head?_eq_some_iff.1 hr
    rw [segmentNames, segmentNames, hslash, hslash, List.splitOn_append_cons_self_of_not_mem hs]
    simp [hne]

lemma segmentNames_fragmentChars {tokens : List String} (h : ∀ t ∈ tokens, t ≠ "") :
    segmentNames (Pointer.fragmentChars tokens) = tokens := by
  induction tokens with
  | nil => rfl
  | cons t tokens ih =>
    have hread : String.ofList (Pointer.unescapeChars (Percent.decode
        (Percent.encode Pointer.fragmentSafe (Pointer.escapeChars t.toList)))) = t := by
      rw [Percent.decode_encode (by decide), Pointer.unescapeChars_escapeChars, String.ofList_toList]
    rw [Pointer.fragmentChars_cons, segmentNames_slash (Pointer.slash_not_mem_encode _)
      (Pointer.encode_escapeChars_ne_nil (h t List.mem_cons_self)) (Pointer.isTail_fragmentChars tokens), hread,
      ih fun u hu => h u (List.mem_cons_of_mem _ hu)]

/-- **The names of a place** are those of its document and then the tokens of its pointer. -/
theorem names_locator {home : String} (h : IsGround home) {tokens : List String} (ht : ∀ t ∈ tokens, t ≠ "") :
    names ⟨locator home tokens⟩ = (names ⟨locator home []⟩).map (· ++ tokens) := by
  have hsplit (ts : List String) : Url.split [] (locator home ts).toList =
      (Url.split [] home.toList).map fun u => { u with fragment := Pointer.fragmentChars ts } := by
    rw [toList_locator]
    exact Url.split_append_hash h.hash h.rooted (Url.isTidy_fragmentChars ts)
  unfold names
  rw [hsplit, hsplit]
  cases Url.split [] home.toList with
  | error e => rfl
  | ok u =>
    have hnone : segmentNames (Pointer.fragmentChars []) = [] := segmentNames_fragmentChars (List.forall_mem_nil _)
    simp only [Except.map, segmentNames_fragmentChars ht, hnone, List.append_nil]

end Address

/-! ### Parts -/

lemma Pointer.follow_append (ts us : List String) (v : Json) : follow (ts ++ us) v = (follow ts v).bind (follow us) := by
  induction ts generalizing v with
  | nil => rfl
  | cons t ts ih =>
    rw [List.cons_append, follow, follow]
    cases step t v with
    | error e => rfl
    | ok x => exact ih x

namespace Schema

variable {κ : Type}

/-- The part of a schema at a pointer, for contents that are followed by `follow` and that declare ids by `declaredId`. -/
def partAt (follow : List String → κ → Except PointerFault κ) (declaredId : Dialect → κ → Option String) (s : Schema κ)
    (pointer : String) : Except Failure (Schema κ) := do
  let tokens ← Pointer.parse pointer
  let content ← (follow tokens s.content).mapError (Failure.pointer pointer)
  let address ← s.partAddress tokens none (declaredId s.dialect content)
  return s.part tokens address content

/-- **Taking parts composes** at two pointers, one behind the other. -/
structure Composes (take : Schema κ → String → Except Failure (Schema κ)) (declaredId : Dialect → κ → Option String)
    (r : Schema κ) (s t : List String) : Prop where
  /-- The two steps end well exactly if the one does. -/
  succeeds : (∃ q, (take r (Pointer.ofTokens s) >>= fun p => take p (Pointer.ofTokens t)) = .ok q) ↔
    ∃ q, take r (Pointer.ofTokens (s ++ t)) = .ok q
  /-- They lead to the same part. -/
  agrees : ∀ q q', (take r (Pointer.ofTokens s) >>= fun p => take p (Pointer.ofTokens t)) = .ok q →
    take r (Pointer.ofTokens (s ++ t)) = .ok q' → q.content = q'.content ∧ q.dialect = q'.dialect ∧
      q.address = q'.address ∧ q.openapi = q'.openapi ∧ q.operation = q'.operation
  /-- In a whole document, the part is named by the document and the tokens. -/
  names : r.address.fragment = "" → (∀ token ∈ s ++ t, token ≠ "") → ∀ q, take r (Pointer.ofTokens (s ++ t)) = .ok q →
    q.address.names = r.address.names.map (· ++ (s ++ t))
  /-- No other part of the document has these names. -/
  apart : r.address.fragment = "" → (∀ token ∈ s ++ t, token ≠ "") → ∀ us : List String, (∀ token ∈ us, token ≠ "") →
    ∀ q q' path, take r (Pointer.ofTokens (s ++ t)) = .ok q → take r (Pointer.ofTokens us) = .ok q' →
      declaredId r.dialect q'.content = none → q.address.names = .ok path → q'.address.names = .ok path → us = s ++ t

section PartAt

variable {follow : List String → κ → Except PointerFault κ} {declaredId : Dialect → κ → Option String} {r p : Schema κ}
  {s t tokens : List String}

lemma follow_of_partAt (h : r.partAt follow declaredId (Pointer.ofTokens tokens) = .ok p) :
    follow tokens r.content = .ok p.content := by
  obtain ⟨_, ht, h⟩ := bind_eq_ok.1 h
  obtain rfl := Except.ok.inj ((Pointer.parse_ofTokens tokens).symm.trans ht)
  obtain ⟨v, hv, h⟩ := bind_eq_ok.1 h
  obtain ⟨a, -, h⟩ := bind_eq_ok.1 h
  obtain rfl := Except.ok.inj h
  cases hf : follow tokens r.content with
  | error e =>
    rw [hf] at hv
    cases hv
  | ok w =>
    rw [hf] at hv
    exact congrArg Except.ok (Except.ok.inj hv)

/-- What is taken at a place where no id is declared. -/
lemma partAt_eq_ok (hr : Address.IsCanonical r.address.text)
    (h : ∀ v, follow tokens r.content = .ok v → declaredId r.dialect v = none) :
    r.partAt follow declaredId (Pointer.ofTokens tokens) = .ok p ↔ ∃ v, follow tokens r.content = .ok v ∧
      r.part tokens ⟨r.address.text ++ Pointer.fragment tokens⟩ v = p := by
  have htake (v : κ) (hv : follow tokens r.content = .ok v) : r.partAt follow declaredId (Pointer.ofTokens tokens) =
      .ok (r.part tokens ⟨r.address.text ++ Pointer.fragment tokens⟩ v) := by
    rw [partAt, Pointer.parse_ofTokens]
    simp only [bind, Except.bind, hv, Except.mapError, h v hv, partAddress, hr.ofText_append]
    rfl
  constructor
  · intro hp
    have hv := follow_of_partAt hp
    exact ⟨p.content, hv, Except.ok.inj ((htake _ hv).symm.trans hp)⟩
  · rintro ⟨v, hv, rfl⟩
    exact htake v hv

/-- The part of a part, at places where no id is declared. -/
lemma partAt_partAt_eq_ok (happend : ∀ ts us v, follow (ts ++ us) v = (follow ts v).bind (follow us))
    (hr : Address.IsCanonical r.address.text) (hs : ∀ v, follow s r.content = .ok v → declaredId r.dialect v = none)
    (hst : ∀ v, follow (s ++ t) r.content = .ok v → declaredId r.dialect v = none) :
    (r.partAt follow declaredId (Pointer.ofTokens s) >>= fun q => q.partAt follow declaredId (Pointer.ofTokens t)) = .ok p ↔
      ∃ u v, follow s r.content = .ok u ∧ follow (s ++ t) r.content = .ok v ∧
        (r.part s ⟨r.address.text ++ Pointer.fragment s⟩ u).part t ⟨r.address.text ++ Pointer.fragment (s ++ t)⟩ v = p := by
  have hsecond (q : Schema κ) (hcontent : follow s r.content = .ok q.content) (hdialect : q.dialect = r.dialect)
      (haddress : q.address.text = r.address.text ++ Pointer.fragment s) :
      q.partAt follow declaredId (Pointer.ofTokens t) = .ok p ↔
        ∃ v, follow (s ++ t) r.content = .ok v ∧ q.part t ⟨r.address.text ++ Pointer.fragment (s ++ t)⟩ v = p := by
    have hwhole : follow (s ++ t) r.content = follow t q.content := by
      rw [happend, hcontent]
      rfl
    have hcanonical : Address.IsCanonical q.address.text := haddress ▸ hr.append s
    rw [hwhole, ← hdialect] at hst
    rw [partAt_eq_ok hcanonical hst, haddress, hwhole, Pointer.fragment_append, String.append_assoc]
  rw [bind_eq_ok]
  constructor
  · rintro ⟨q, hq, hp⟩
    obtain ⟨u, hu, rfl⟩ := (partAt_eq_ok hr hs).1 hq
    obtain ⟨v, hv, rfl⟩ := (hsecond (r.part s ⟨r.address.text ++ Pointer.fragment s⟩ u) hu rfl rfl).1 hp
    exact ⟨u, v, hu, hv, rfl⟩
  · rintro ⟨u, v, hu, hv, rfl⟩
    exact ⟨_, (partAt_eq_ok hr hs).2 ⟨u, hu, rfl⟩,
      (hsecond (r.part s ⟨r.address.text ++ Pointer.fragment s⟩ u) hu rfl rfl).2 ⟨v, hv, rfl⟩⟩

/-- The names of a part of a whole document at a place where no id is declared. -/
lemma names_of_partAt (hr : Address.IsCanonical r.address.text) (hf : r.address.fragment = "")
    (ht : ∀ token ∈ tokens, token ≠ "") (h : ∀ v, follow tokens r.content = .ok v → declaredId r.dialect v = none)
    (hp : r.partAt follow declaredId (Pointer.ofTokens tokens) = .ok p) :
    p.address.names = r.address.names.map (· ++ tokens) := by
  obtain ⟨home, hhome, htext⟩ := hr.eq_locator hf
  obtain ⟨v, -, rfl⟩ := (partAt_eq_ok hr h).1 hp
  have haddress : r.address = ⟨Address.locator home []⟩ := by
    rw [← htext]
  have hplace : (⟨Address.locator home [] ++ Pointer.fragment tokens⟩ : Address) = ⟨Address.locator home tokens⟩ := by
    rw [← Address.locator_append, List.nil_append]
  rw [part, haddress, hplace]
  exact Address.names_locator hhome ht

theorem partAt_composes (happend : ∀ ts us v, follow (ts ++ us) v = (follow ts v).bind (follow us))
    (hr : Address.IsCanonical r.address.text) (hs : ∀ v, follow s r.content = .ok v → declaredId r.dialect v = none)
    (hst : ∀ v, follow (s ++ t) r.content = .ok v → declaredId r.dialect v = none) :
    Composes (partAt follow declaredId) declaredId r s t where
  succeeds := by
    have hfirst (v : κ) (hv : follow (s ++ t) r.content = .ok v) : ∃ u, follow s r.content = .ok u := by
      rw [happend] at hv
      exact (bind_eq_ok.1 hv).imp fun _ hu => hu.1
    simp only [partAt_partAt_eq_ok happend hr hs hst, partAt_eq_ok hr hst]
    constructor
    · rintro ⟨q, u, v, -, hv, rfl⟩
      exact ⟨_, v, hv, rfl⟩
    · rintro ⟨q, v, hv, rfl⟩
      obtain ⟨u, hu⟩ := hfirst v hv
      exact ⟨_, u, v, hu, hv, rfl⟩
  agrees q q' hq hq' := by
    obtain ⟨u, v, -, hv, rfl⟩ := (partAt_partAt_eq_ok happend hr hs hst).1 hq
    obtain ⟨v', hv', rfl⟩ := (partAt_eq_ok hr hst).1 hq'
    obtain rfl := Except.ok.inj (hv.symm.trans hv')
    refine ⟨rfl, rfl, rfl, rfl, ?_⟩
    cases s <;> simp [part]
  names hf hne q hq := names_of_partAt hr hf hne hst hq
  apart hf hne us hus q q' path hq hq' hdeclared hpath hpath' := by
    have hplain (v : κ) (hv : follow us r.content = .ok v) : declaredId r.dialect v = none := by
      obtain rfl := Except.ok.inj ((follow_of_partAt hq').symm.trans hv)
      exact hdeclared
    rw [names_of_partAt hr hf hne hst hq] at hpath
    rw [names_of_partAt hr hf hus hplain hq'] at hpath'
    cases hnames : r.address.names with
    | error e =>
      rw [hnames] at hpath
      cases hpath
    | ok front =>
      rw [hnames] at hpath hpath'
      exact List.append_cancel_left ((Except.ok.inj hpath').trans (Except.ok.inj hpath).symm)

end PartAt

/-- **Parts of parts.** Taking a part of a part is taking the part at both pointers, one behind the other, in a JSON value and
in a document whose references have texts of their own; and in a whole document its names are those of the document and the
tokens. -/
theorem sub_composes (s t : List String) :
    (∀ r : Schema Json, Address.IsCanonical r.address.text →
      (∀ v, Pointer.follow s r.content = .ok v → v.declaredId r.dialect = none) →
      (∀ v, Pointer.follow (s ++ t) r.content = .ok v → v.declaredId r.dialect = none) →
      Composes Schema.sub Json.declaredId r s t) ∧
    ∀ (refs : Refs) (r : Schema Node), Address.IsCanonical r.address.text →
      (∀ x, Node.follow refs s r.content = .ok x → x.declaredId r.dialect = none) →
      (∀ x, Node.follow refs (s ++ t) r.content = .ok x → x.declaredId r.dialect = none) →
      Composes (fun p pointer => p.extract refs pointer none) Node.declaredId r s t :=
  ⟨fun _ hr hs hst => partAt_composes Pointer.follow_append hr hs hst,
    fun refs _ hr hs hst => partAt_composes (Node.follow_append refs) hr hs hst⟩

/-- A document with signs in its member names that mean something in pointers and in fragments. -/
def separators : Schema Json :=
  { dialect := .draft07
    address := .ofText "http://h/d"
    content := .obj [("a/b", .obj [("%~:", .arr [.null, .obj [("é", .bool true)]])])]
    openapi := none
    ancestors := []
    operation := false }

theorem sub_composes_separators :
    Address.IsCanonical separators.address.text ∧
      (∀ v, Pointer.follow ["a/b", "%~:"] separators.content = .ok v → v.declaredId .draft07 = none) ∧
      (∀ v, Pointer.follow ["a/b", "%~:", "1", "é"] separators.content = .ok v → v.declaredId .draft07 = none) ∧
      ∃ p q, separators.sub "/a~1b/%~0:" = .ok p ∧ p.sub "/1/é" = .ok q ∧ q.content = .bool true ∧
        q.address.names = .ok ["h", "d", "a/b", "%~:", "1", "é"] := by
  have hcanonical : Address.IsCanonical separators.address.text := Address.isCanonical_ofText _
  have hs : ∀ v, Pointer.follow ["a/b", "%~:"] separators.content = .ok v → v.declaredId .draft07 = none := by
    rintro v ⟨⟩
    rfl
  have hst : ∀ v, Pointer.follow ["a/b", "%~:", "1", "é"] separators.content = .ok v → v.declaredId .draft07 = none := by
    rintro v ⟨⟩
    rfl
  have hcomposes := (sub_composes ["a/b", "%~:"] ["1", "é"]).1 separators hcanonical hs hst
  have hrun : (separators.sub (Pointer.ofTokens ["a/b", "%~:", "1", "é"])).toOption.any (fun q => q.content = .bool true) =
      true := by
    decide +kernel
  have hnames : separators.address.names = .ok ["h", "d"] := ok_of_toOption (by decide +kernel)
  have hfirst : Pointer.ofTokens ["a/b", "%~:"] = "/a~1b/%~0:" := by decide +kernel
  have hsecond : Pointer.ofTokens ["1", "é"] = "/1/é" := by decide +kernel
  obtain ⟨q', hq', hcontent⟩ := (Option.any_eq_true _ _).1 hrun
  have hone := ok_of_toOption hq'
  obtain ⟨q, htwo⟩ := hcomposes.succeeds.2 ⟨q', hone⟩
  obtain ⟨hsame, -, haddress, -⟩ := hcomposes.agrees q q' htwo hone
  have hplace := hcomposes.names (by decide +kernel) (by decide) q' hone
  obtain ⟨p, hp, hq⟩ := bind_eq_ok.1 htwo
  rw [hfirst] at hp
  rw [hsecond] at hq
  refine ⟨hcanonical, hs, hst, p, q, hp, hq, hsame.trans (of_decide_eq_true hcontent), ?_⟩
  rw [haddress, hplace, hnames]
  rfl

end Schema

end Typings
