import Typings.Proofs.Spelling
import Typings.Proofs.Url

/-!
Places inside any ids. The id of an operation or of a named schema is a number sign and the pointer to a place. Whatever the
ids around it are, web addresses or not, the address that comes out has the same text before the number sign for all places
(`Address.within_place`), so two places have two addresses, and a pointer that is put behind such an address leads on from the
place. The one thing that a place must not have is a token without characters before its last one, since the mark of a URL
in a fragment keeps a text from getting its slash in front.
-/

namespace Typings

open Typings.Text

/-! ### Number signs -/

namespace Url

lemma not_mem_cut (c : Char) (cs : List Char) : c ∉ (cut c cs).1 := by
  simp only [cut, List.span_eq_takeWhile_dropWhile]
  intro h
  simpa using List.mem_takeWhile_imp h

lemma cut_subset (c : Char) (cs : List Char) : (cut c cs).1 ⊆ cs ∧ (cut c cs).2 ⊆ cs := by
  simp only [cut, List.span_eq_takeWhile_dropWhile]
  exact ⟨List.takeWhile_subset _, List.Subset.trans (List.drop_subset _ _) (List.dropWhile_subset _)⟩

lemma splitParams_subset (path : List Char) : (splitParams path).1 ⊆ path ∧ (splitParams path).2 ⊆ path := by
  have hlast : (path.reverse.takeWhile (· ≠ '/')).reverse ⊆ path := by
    intro c hc
    exact List.mem_reverse.1 (List.takeWhile_subset _ (List.mem_reverse.1 hc))
  obtain ⟨hfront, hback⟩ := cut_subset ';' (path.reverse.takeWhile (· ≠ '/')).reverse
  simp only [splitParams]
  exact ⟨List.append_subset.2 ⟨List.take_subset _ _, List.Subset.trans hfront hlast⟩, List.Subset.trans hback hlast⟩

/-- A URL without number signs, its scheme and its fragment apart. -/
structure IsClear (u : Url) : Prop where
  host : '#' ∉ u.host
  path : '#' ∉ u.path
  params : '#' ∉ u.params
  query : '#' ∉ u.query

/-- The parts of a text have no number signs: the first one begins the fragment. -/
lemma isClear_of_split {cs : List Char} {u : Url} (h : split [] cs = .ok u) : u.IsClear := by
  unfold split at h
  generalize (splitScheme (cleaned cs)).getD ([], cleaned cs) = e at h
  obtain ⟨scheme, rest⟩ := e
  dsimp only at h
  have hhost : '#' ∉ (if rest.take 2 = ['/', '/'] then (rest.drop 2).span (!endsHost ·) else ([], rest)).1 := by
    split_ifs
    · intro hmem
      rw [List.span_eq_takeWhile_dropWhile] at hmem
      simpa [endsHost] using List.mem_takeWhile_imp hmem
    · exact List.not_mem_nil
  generalize (if rest.take 2 = ['/', '/'] then (rest.drop 2).span (!endsHost ·) else ([], rest)) = e at h hhost
  obtain ⟨host, rest⟩ := e
  dsimp only at h hhost
  split_ifs at h
  · -- what is before the number sign is cut further, and nothing is added to it
    have hfront := not_mem_cut '#' rest
    obtain ⟨hpath, hquery⟩ := cut_subset '?' (cut '#' rest).1
    obtain ⟨hsegment, hparams⟩ := splitParams_subset (cut '?' (cut '#' rest).1).1
    cases h
    exact ⟨hhost, fun hm => hfront (hpath (hsegment hm)), fun hm => hfront (hpath (hparams hm)),
      fun hm => hfront (hquery hm)⟩
  · have hfront := not_mem_cut '#' rest
    obtain ⟨hpath, hquery⟩ := cut_subset '?' (cut '#' rest).1
    cases h
    exact ⟨hhost, fun hm => hfront (hpath hm), List.not_mem_nil, fun hm => hfront (hquery hm)⟩

lemma not_mem_marked {c mark : Char} {cs : List Char} (hc : c ≠ mark) (h : c ∉ cs) : c ∉ marked mark cs := by
  unfold marked
  split_ifs
  · exact List.not_mem_nil
  · simp [hc, h]

lemma IsClear.unsplit {u : Url} (h : u.IsClear) (hs : '#' ∉ u.scheme) (hf : u.fragment = []) : '#' ∉ u.unsplit := by
  have hpath : '#' ∉ u.path ++ marked ';' u.params := by
    simp [h.path, not_mem_marked (show '#' ≠ ';' by decide) h.params]
  have hbody : '#' ∉ u.authority (u.path ++ marked ';' u.params) := by
    unfold authority
    split_ifs
    · simp [h.host, hpath]
    · simp [h.host, hpath]
    · exact hpath
  have hquery : '#' ∉ marked '?' u.query := not_mem_marked (by decide) h.query
  have hfragment : marked '#' u.fragment = [] := by rw [hf]; rfl
  unfold Url.unsplit
  dsimp only
  rw [hfragment, List.append_nil]
  split_ifs
  · simp [hbody, hquery]
  · simp [hs, hbody, hquery]

/-- **A reference to a fragment** keeps what is before the number sign, whatever it is joined to. -/
theorem join_hash {base : List Char} (hb : base ≠ []) : ∃ home, '#' ∉ home ∧
    ∀ f cs, IsTidy f → f ≠ [] → join base ('#' :: f) = .ok cs → cs = home ++ '#' :: f := by
  cases hsplit : split [] base with
  | error e =>
    refine ⟨[], List.not_mem_nil, fun f cs _ _ h => ?_⟩
    unfold join at h
    rw [if_neg hb, if_neg (List.cons_ne_nil _ _), hsplit] at h
    cases h
  | ok u =>
    have hclear := isClear_of_split hsplit
    by_cases hrelative : isAmong u.scheme relativeSchemes = true
    · -- the parts of the base, and the fragment of the reference
      let host := if isAmong u.scheme hostSchemes then u.host else []
      let home : Url := ⟨u.scheme, host, u.path, u.params, u.query, []⟩
      have hhost : '#' ∉ host := by
        unfold host
        split_ifs
        · exact hclear.host
        · exact List.not_mem_nil
      have hscheme : '#' ∉ u.scheme := by
        have hnone : ∀ scheme ∈ relativeSchemes, '#' ∉ scheme.toList := by decide
        simpa using hnone _ (List.contains_iff_mem.1 hrelative)
      have hhome : home.IsClear := ⟨hhost, hclear.path, hclear.params, hclear.query⟩
      refine ⟨home.unsplit, hhome.unsplit hscheme rfl, fun f cs hf hne h => ?_⟩
      have hresolve : resolve u ⟨u.scheme, [], [], [], [], f⟩ = { home with fragment := f } := by
        simp [resolve, home, host]
      rw [join_of_split hb (List.cons_ne_nil _ _) hsplit (split_of_hash hf _), hresolve, if_neg (by simp [hrelative]),
        unsplit_fragment rfl, marked, if_neg hne] at h
      exact (Except.ok.inj h).symm
    · refine ⟨[], List.not_mem_nil, fun f cs hf _ h => ?_⟩
      rw [join_of_split hb (List.cons_ne_nil _ _) hsplit (split_of_hash hf _), if_pos (by simp [hrelative])] at h
      exact (Except.ok.inj h).symm

end Url

/-! ### Slashes -/

namespace Pointer

lemma slashes_of_append {xs ys : List Char} (hx : '/' ∉ xs) (h : ['/', '/'] <:+: xs ++ ys) : ['/', '/'] <:+: ys := by
  induction xs with
  | nil => exact h
  | cons x xs ih =>
    have hne : '/' ≠ x := fun e => hx (e ▸ List.mem_cons_self)
    rcases List.infix_cons_iff.1 h with h | h
    · exact absurd (List.cons_prefix_cons.1 h).1 hne
    · exact ih (fun hm => hx (List.mem_cons_of_mem _ hm)) h

/-- Tokens that a place may have: none but the last is without characters. -/
def IsPlace (tokens : List String) : Prop := tokens ≠ [] ∧ ∀ t ∈ tokens.dropLast, t ≠ ""

/-- Two slashes in a row come of a token without characters before another one. -/
lemma no_slashes {tokens : List String} (h : ∀ t ∈ tokens.dropLast, t ≠ "") : ¬ ['/', '/'] <:+: fragmentChars tokens := by
  induction tokens with
  | nil => simp [fragmentChars]
  | cons t ts ih =>
    intro hslashes
    rw [fragmentChars_cons] at hslashes
    cases ts with
    | nil =>
      -- one token: a slash and no other
      have hone : ['/', '/'] <:+: ['/'] ++ (Percent.encode fragmentSafe (escapeChars t.toList) ++ []) := hslashes
      rw [List.append_nil] at hone
      rcases List.infix_cons_iff.1 hone with hslash | hslash
      · have hmem := (List.cons_prefix_cons.1 hslash).2.subset List.mem_cons_self
        exact slash_not_mem_encode _ hmem
      · exact slash_not_mem_encode _ (hslash.subset List.mem_cons_self)
    | cons u us =>
      have ht : t ≠ "" := h t (by simp)
      rcases List.infix_cons_iff.1 hslashes with hslash | hslash
      · have hhead := (List.cons_prefix_cons.1 hslash).2
        cases henc : Percent.encode fragmentSafe (escapeChars t.toList) with
        | nil => exact ht (encode_escapeChars_inj henc)
        | cons c cs =>
          rw [henc] at hhead
          have hc : '/' = c := (List.cons_prefix_cons.1 hhead).1
          exact slash_not_mem_encode t.toList (henc ▸ hc ▸ List.mem_cons_self)
      · exact ih (fun v hv => h v (by simp [hv])) (slashes_of_append (slash_not_mem_encode _) hslash)

lemma IsPlace.no_mark {tokens : List String} (h : IsPlace tokens) : ¬ [':', '/', '/'] <:+: fragmentChars tokens := by
  intro hmark
  have hslashes : ['/', '/'] <:+: [':', '/', '/'] := ⟨[':'], [], rfl⟩
  exact no_slashes h.2 (hslashes.trans hmark)

lemma fragment_append (ts us : List String) : fragment (ts ++ us) = fragment ts ++ fragment us := by
  rw [← String.toList_inj, String.toList_append, toList_fragment, toList_fragment, toList_fragment, fragmentChars,
    List.flatMap_append]
  rfl

end Pointer

/-! ### Addresses of places -/

namespace Address

/-- What may stand before the number sign of an address. -/
structure IsGround (home : String) : Prop where
  hash : '#' ∉ home.toList
  rooted : IsRooted (home.toList ++ ['#'])

lemma isGround_empty : IsGround "" := ⟨by decide, Or.inr (Or.inr rfl)⟩

lemma IsGround.ofText_locator {home : String} (h : IsGround home) (tokens : List String) :
    ofText (locator home tokens) = ⟨locator home tokens⟩ := by
  have hcanonical : canonical (locator home tokens).toList = (locator home tokens).toList := by
    rw [toList_locator]
    exact canonical_of_parts h.hash (isRooted_fragment h.rooted _) (Pointer.canonicalFragment_fragment tokens)
  rw [ofText, hcanonical, String.ofList_toList]

lemma locator_append (home : String) (ts us : List String) :
    locator home (ts ++ us) = locator home ts ++ Pointer.fragment us := by
  simp only [locator, Pointer.fragment_append, String.append_assoc]

lemma locator_injective (home : String) : Function.Injective (locator home) := by
  intro ts us h
  have hlist := congrArg String.toList h
  rw [toList_locator, toList_locator] at hlist
  exact Pointer.fragmentChars_injective (List.cons.inj (List.append_cancel_left hlist)).2

lemma eq_of_locator {home : String} {ts us : List String} (h : (⟨locator home ts⟩ : Address) = ⟨locator home us⟩) :
    ts = us :=
  locator_injective home (Address.mk.inj h)

lemma rooted_of_not_isRooted {cs : List Char} (hm : '#' ∈ cs) (h : ¬ IsRooted cs) : rooted cs = '/' :: cs := by
  have hc : cs.contains '#' = true := by simpa using hm
  simp only [rooted, hc, if_true]
  refine if_neg fun hrooted => h ?_
  simp only [Bool.or_eq_true, decide_eq_true_eq] at hrooted
  rcases hrooted with (hmark | hslash) | hhash
  · exact Or.inl (occurs_iff.1 hmark)
  · exact Or.inr (Or.inl hslash)
  · exact Or.inr (Or.inr hhash)

lemma isRooted_of_fragment {home f : List Char} (hf : ¬ [':', '/', '/'] <:+: f) (h : IsRooted (home ++ '#' :: f)) :
    IsRooted (home ++ ['#']) := by
  rcases h with h | h
  · rcases mark_of_append_hash h with h | h
    · exact Or.inl (h.trans (List.prefix_append _ _).isInfix)
    · exact absurd h hf
  · refine Or.inr ?_
    cases home with
    | nil => exact h
    | cons c home => exact h

/-- A text before the number sign gets its slash or not, whatever the place is. -/
lemma canonical_place {home : List Char} (hh : '#' ∉ home) : ∃ ground, IsGround ground ∧
    ∀ tokens, Pointer.IsPlace tokens →
      canonical (home ++ '#' :: Pointer.fragmentChars tokens) = (locator ground tokens).toList := by
  by_cases hr : IsRooted (home ++ ['#'])
  · refine ⟨String.ofList home, ⟨by simpa using hh, by simpa using hr⟩, fun tokens _ => ?_⟩
    rw [toList_locator, String.toList_ofList]
    exact canonical_of_parts hh (isRooted_fragment hr _) (Pointer.canonicalFragment_fragment tokens)
  · have hslash : '#' ∉ '/' :: home := by simp [hh]
    refine ⟨String.ofList ('/' :: home), ⟨by simpa using hh, Or.inr (Or.inl (by simp))⟩, fun tokens htokens => ?_⟩
    have hrooted : rooted (home ++ '#' :: Pointer.fragmentChars tokens) = '/' :: home ++ '#' :: Pointer.fragmentChars tokens :=
      rooted_of_not_isRooted (by simp) fun h => hr (isRooted_of_fragment htokens.no_mark h)
    simp only [canonical, hrooted, Url.cut_append hslash, Pointer.canonicalFragment_fragment]
    rw [toList_locator, String.toList_ofList]

/-- **Places inside any ids have one ground**: the same text stands before the number sign of all their addresses. -/
theorem within_place (scope : List String) : ∃ ground, IsGround ground ∧
    ∀ tokens a, Pointer.IsPlace tokens → within ("#" ++ Pointer.fragment tokens) scope = .ok a →
      a = ⟨locator ground tokens⟩ := by
  have htext : ∀ tokens, ("#" ++ Pointer.fragment tokens).toList = '#' :: Pointer.fragmentChars tokens := by
    intro tokens
    simp [Pointer.toList_fragment]
  unfold within
  cases base [] scope with
  | error e => exact ⟨"", isGround_empty, fun tokens a _ h => by cases h⟩
  | ok b =>
    cases b with
    | nil =>
      refine ⟨"", isGround_empty, fun tokens a _ h => ?_⟩
      rw [← locator_empty, isGround_empty.ofText_locator] at h
      exact (Except.ok.inj h).symm
    | cons c b =>
      obtain ⟨home, hhash, hjoin⟩ := Url.join_hash (List.cons_ne_nil c b)
      obtain ⟨ground, hground, hplace⟩ := canonical_place hhash
      refine ⟨ground, hground, fun tokens a htokens h => ?_⟩
      have hne : Pointer.fragmentChars tokens ≠ [] := by
        cases tokens with
        | nil => exact absurd rfl htokens.1
        | cons t ts => exact List.cons_ne_nil _ _
      dsimp only at h
      rw [htext] at h
      cases hcs : Url.join (c :: b) ('#' :: Pointer.fragmentChars tokens) with
      | error e =>
        rw [hcs] at h
        cases h
      | ok cs =>
        rw [hcs] at h
        obtain rfl := hjoin _ cs (Url.isTidy_fragmentChars tokens) hne hcs
        rw [← Except.ok.inj h, hplace tokens htokens, String.ofList_toList]

end Address

end Typings
