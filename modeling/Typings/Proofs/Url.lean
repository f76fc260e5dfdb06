import Typings.Proofs.Address

/-!
Fragments of web addresses. Where a URL has a host and no fragment, putting a fragment behind it changes that one part
(`split_fragment`), and references to a fragment are resolved by exchanging it (`join_fragment`). So inside a document
whose home is such a URL, every pointer has the address that is written by putting it behind the home
(`Address.within_local`, `Address.within_absolute`).
-/

namespace Typings.Url

/-! ### Splitting -/

/-- The parts of a URL with a scheme and a host; `tail` is what follows the host. -/
def assembled (scheme host tail : List Char) : Url :=
  let (rest, fragment) := cut '#' tail
  let (rest, query) := cut '?' rest
  let (path, params) := if isAmong scheme paramSchemes then splitParams rest else (rest, [])
  { scheme, host, path, params, query, fragment }

/-- A text with a scheme and a host. -/
structure Shape (cs front host tail : List Char) : Prop where
  text : cleaned cs = front ++ ':' :: '/' :: '/' :: (host ++ tail)
  colon : ':' ∉ front
  alpha : (front.head?.map (·.isAlpha)).getD false = true
  scheme : front.all isSchemeChar = true
  inside : ∀ c ∈ host, endsHost c = false
  behind : ∀ c, tail.head? = some c → endsHost c = true
  named : isHost host = true

lemma span_append {p : Char → Bool} {front rest : List Char} (hf : ∀ c ∈ front, p c = true)
    (hr : ∀ c, rest.head? = some c → p c = false) : (front ++ rest).span p = (front, rest) := by
  rw [List.span_eq_takeWhile_dropWhile, List.takeWhile_append_of_pos hf, List.dropWhile_append_of_pos hf]
  cases rest with
  | nil => simp
  | cons c rest =>
    have hc := hr c rfl
    simp [hc]

lemma split_of_shape {cs front host tail : List Char} (h : Shape cs front host tail) (default : List Char) :
    split default cs = .ok (assembled (front.map (·.toLower)) host tail) := by
  have hfront : ∀ c ∈ front, decide (c ≠ ':') = true := fun c hc => by
    simpa using fun e : c = ':' => h.colon (e ▸ hc)
  have hspan : (cleaned cs).span (· ≠ ':') = (front, ':' :: '/' :: '/' :: (host ++ tail)) := by
    rw [h.text]
    refine span_append hfront ?_
    rintro _ ⟨⟩
    decide
  have hscheme : splitScheme (cleaned cs) = some (front.map (·.toLower), '/' :: '/' :: (host ++ tail)) := by
    simp only [splitScheme, hspan, h.alpha, h.scheme]
    simp
  have hhost : (host ++ tail).span (!endsHost ·) = (host, tail) :=
    span_append (fun c hc => by simp [h.inside c hc]) fun c hc => by simp [h.behind c hc]
  have htake : ('/' :: '/' :: (host ++ tail)).take 2 = ['/', '/'] := rfl
  have hdrop : ('/' :: '/' :: (host ++ tail)).drop 2 = host ++ tail := rfl
  simp only [split, hscheme, Option.getD_some, htake, hdrop, if_true, hhost, h.named, assembled]
  simp

/-- What a part of a text that ends at a character is followed by. -/
lemma eq_append_of_span {p : Char → Bool} {cs front rest : List Char} (h : cs.span p = (front, rest)) :
    cs = front ++ rest ∧ (∀ c ∈ front, p c = true) ∧ ∀ c, rest.head? = some c → p c = false := by
  rw [List.span_eq_takeWhile_dropWhile] at h
  obtain ⟨rfl, rfl⟩ := Prod.mk.inj h
  refine ⟨List.takeWhile_append_dropWhile.symm, fun c hc => List.mem_takeWhile_imp hc, fun c hc => ?_⟩
  have hne : cs.dropWhile p ≠ [] := by
    intro hnil
    rw [hnil] at hc
    cases hc
  have hhead := List.head_dropWhile_not p hne
  rw [List.head?_eq_some_head hne] at hc
  exact Option.some.inj hc ▸ hhead

lemma splitScheme_eq_some {cs scheme rest : List Char} (h : splitScheme cs = some (scheme, rest)) :
    ∃ front, cs = front ++ ':' :: rest ∧ ':' ∉ front ∧ (front.head?.map (·.isAlpha)).getD false = true ∧
      front.all isSchemeChar = true ∧ scheme = front.map (·.toLower) := by
  obtain ⟨⟨front, tail⟩, hspan⟩ : ∃ e, cs.span (· ≠ ':') = e := ⟨_, rfl⟩
  obtain ⟨rfl, hfront, htail⟩ := eq_append_of_span hspan
  simp only [splitScheme, hspan] at h
  split_ifs at h with hc
  simp only [Bool.and_eq_true, decide_eq_true_eq] at hc
  cases h
  cases tail with
  | nil => exact absurd rfl hc.1.1
  | cons c tail =>
    obtain rfl : c = ':' := by simpa using htail c rfl
    refine ⟨front, rfl, fun hmem => ?_, hc.1.2, hc.2, rfl⟩
    simpa using hfront _ hmem

lemma shape_of_split {cs : List Char} {u : Url} (h : split [] cs = .ok u) (hs : u.scheme ≠ []) (hh : u.host ≠ []) :
    ∃ front host tail, Shape cs front host tail ∧ u = assembled (front.map (·.toLower)) host tail := by
  cases hscheme : splitScheme (cleaned cs) with
  | none =>
    simp only [split, hscheme, Option.getD_none] at h
    split_ifs at h
    all_goals
      cases h
      exact absurd rfl hs
  | some e =>
    obtain ⟨scheme, rest⟩ := e
    simp only [split, hscheme, Option.getD_some] at h
    by_cases htake : rest.take 2 = ['/', '/']
    · obtain ⟨front, hcs, hcolon, halpha, hall, rfl⟩ := splitScheme_eq_some hscheme
      obtain ⟨⟨host, tail⟩, hspan⟩ : ∃ e, (rest.drop 2).span (!endsHost ·) = e := ⟨_, rfl⟩
      obtain ⟨hrest, hinside, hbehind⟩ := eq_append_of_span hspan
      rw [if_pos htake, hspan] at h
      dsimp only at h
      split_ifs at h with hnamed hparams
      all_goals
        refine ⟨front, host, tail, ⟨?_, hcolon, halpha, hall, ?_, ?_, by simpa using hnamed⟩, ?_⟩
        · rw [hcs, ← hrest, ← List.take_append_drop 2 rest, htake]
          simp
        · intro c hc
          simpa using hinside c hc
        · intro c hc
          simpa using hbehind c hc
        · cases h
          simp only [assembled, hparams]
          rfl
    · rw [if_neg htake] at h
      dsimp only at h
      split_ifs at h
      all_goals
        cases h
        exact absurd rfl hh

/-! ### Fragments -/

/-- A text without tabs and line ends. -/
def IsTidy (cs : List Char) : Prop := ∀ c ∈ cs, (c = '\t' || c = '\r' || c = '\n') = false

lemma isTidy_fragmentChars (tokens : List String) : IsTidy (Pointer.fragmentChars tokens) := by
  intro c hc
  rw [← Pointer.canonicalFragment_fragment] at hc
  by_contra h
  simp only [Bool.not_eq_false, Bool.or_eq_true, decide_eq_true_eq] at h
  rcases h with (rfl | rfl) | rfl <;>
    exact Pointer.not_mem_canonicalFragment (by decide) (by decide) (by decide) _ hc

lemma isTidy_hash {f : List Char} (hf : IsTidy f) : IsTidy ('#' :: f) := by
  intro c hc
  rcases List.mem_cons.1 hc with rfl | hc
  · decide
  · exact hf c hc

lemma IsTidy.filter_eq {cs : List Char} (h : IsTidy cs) :
    cs.filter (fun c => !(c = '\t' || c = '\r' || c = '\n')) = cs :=
  List.filter_eq_self.2 fun c hc => by rw [h c hc]; rfl

lemma cleaned_append {cs : List Char} (h : cleaned cs ≠ []) {rest : List Char} (hr : IsTidy rest) :
    cleaned (cs ++ rest) = cleaned cs ++ rest := by
  have hdrop : cs.dropWhile (fun c => decide (c.toNat ≤ 0x20)) ≠ [] := by
    intro hnil
    rw [cleaned, hnil] at h
    exact h rfl
  unfold cleaned
  rw [List.dropWhile_append, if_neg (by simpa using hdrop), List.filter_append, hr.filter_eq]

lemma cleaned_of_hash {f : List Char} (hf : IsTidy f) : cleaned ('#' :: f) = '#' :: f := by
  unfold cleaned
  rw [List.dropWhile_cons_of_neg (by decide), List.filter_cons_of_pos (by decide), hf.filter_eq]

lemma assembled_fragment {tail : List Char} (h : '#' ∉ tail) (scheme host f : List Char) :
    assembled scheme host (tail ++ '#' :: f) = { assembled scheme host tail with fragment := f } := by
  simp only [assembled, cut_append h, cut_of_not_mem h]

lemma unsplit_fragment {u : Url} (h : u.fragment = []) (f : List Char) :
    ({ u with fragment := f } : Url).unsplit = u.unsplit ++ marked '#' f := by
  have hnil : marked '#' [] = [] := rfl
  rw [unsplit, unsplit, h, hnil, List.append_nil]
  rfl

/-- The URL of a document on the web: it has a host and no number sign, and is put together from its parts again. -/
structure IsHome (home : List Char) : Prop where
  web : isWeb home = true
  hash : '#' ∉ home
  whole : ∃ u, split [] home = .ok u ∧ u.unsplit = home

/-- The parts of a text before the number sign. -/
structure HasParts (home : List Char) (u : Url) : Prop where
  fragment : u.fragment = []
  unsplit : u.unsplit = home
  relative : isAmong u.scheme relativeSchemes = true
  hosted : isAmong u.scheme hostSchemes = true
  bare : split [] home = .ok u
  split_fragment : ∀ f, IsTidy f → split [] (home ++ '#' :: f) = .ok { u with fragment := f }

lemma split_of_hash {f : List Char} (hf : IsTidy f) (default : List Char) :
    split default ('#' :: f) = .ok ⟨default, [], [], [], [], f⟩ := by
  have hscheme : splitScheme ('#' :: f) = none := by
    cases h : splitScheme ('#' :: f) with
    | none => rfl
    | some e =>
      obtain ⟨scheme, rest⟩ := e
      obtain ⟨front, hcs, -, halpha, -⟩ := splitScheme_eq_some h
      cases front with
      | nil => cases halpha
      | cons c front =>
        cases hcs
        exact absurd (show '#'.isAlpha = true from halpha) (by decide)
  have htake : ¬ ('#' :: f).take 2 = ['/', '/'] := by simp
  have hhost : isHost [] = true := by decide
  have hcut : cut '#' ('#' :: f) = ([], f) := cut_append List.not_mem_nil f
  have hquery : cut '?' [] = ([], []) := cut_of_not_mem List.not_mem_nil
  have hparams : splitParams [] = ([], []) := by decide
  simp only [split, cleaned_of_hash hf, hscheme, Option.getD_none, if_neg htake, hhost, hcut, hquery, hparams]
  simp

lemma hasParts_nil : HasParts [] ⟨[], [], [], [], [], []⟩ :=
  ⟨rfl, by decide, by decide, by decide, rfl, fun _ hf => split_of_hash hf []⟩

lemma IsHome.hasParts {home : List Char} (h : IsHome home) : ∃ u, HasParts home u ∧ u.scheme ≠ [] ∧
    u.host ≠ [] ∧ ∀ f, IsTidy f → ∀ default, split default (home ++ '#' :: f) = .ok { u with fragment := f } := by
  obtain ⟨u, hu, hunsplit⟩ := h.whole
  have hweb := h.web
  simp only [isWeb, hu, Bool.and_eq_true, Bool.or_eq_true, decide_eq_true_eq] at hweb
  have hs : u.scheme ≠ [] := by
    rcases hweb.1 with hs | hs <;> rw [hs] <;> decide
  obtain ⟨front, host, tail, hshape, rfl⟩ := shape_of_split hu hs hweb.2
  have htail : '#' ∉ tail := by
    intro hmem
    refine h.hash ?_
    have hc : '#' ∈ cleaned home := by
      rw [hshape.text]
      simp [hmem]
    exact List.dropWhile_subset _ (List.mem_of_mem_filter hc)
  have hfragment : (assembled (front.map (·.toLower)) host tail).fragment = [] := by
    simp only [assembled, cut_of_not_mem htail]
  have hsplit : ∀ f, IsTidy f → ∀ default, split default (home ++ '#' :: f) =
      .ok { assembled (front.map (·.toLower)) host tail with fragment := f } := by
    intro f hf default
    rw [← assembled_fragment htail]
    refine split_of_shape ⟨?_, hshape.colon, hshape.alpha, hshape.scheme, hshape.inside, ?_, hshape.named⟩ default
    · rw [cleaned_append (by rw [hshape.text]; simp) (isTidy_hash hf), hshape.text]
      simp
    · cases tail with
      | nil =>
        rintro _ ⟨⟩
        rfl
      | cons c tail => exact hshape.behind
  refine ⟨_, ⟨hfragment, hunsplit, ?_, ?_, hu, fun f hf => hsplit f hf []⟩, hs, hweb.2, hsplit⟩
  · rcases hweb.1 with hs | hs <;> rw [hs] <;> decide
  · rcases hweb.1 with hs | hs <;> rw [hs] <;> decide

/-! ### Joining -/

/-- A text inside a document: its home, maybe with a fragment. -/
def IsWithin (home cs : List Char) : Prop := cs ≠ [] ∧ ∃ f, IsTidy f ∧ (cs = home ++ '#' :: f ∨ cs = home ++ marked '#' f)

lemma HasParts.split_within {home cs : List Char} {u : Url} (h : HasParts home u) (hcs : IsWithin home cs) :
    ∃ f, split [] cs = .ok { u with fragment := f } := by
  obtain ⟨-, f, hf, rfl | rfl⟩ := hcs
  · exact ⟨f, h.split_fragment f hf⟩
  · unfold marked
    split_ifs with hnil
    · refine ⟨[], ?_⟩
      rw [List.append_nil, h.bare, ← h.fragment]
    · exact ⟨f, h.split_fragment f hf⟩

lemma join_of_split {base reference : List Char} {b r : Url} (hb : base ≠ []) (hr : reference ≠ [])
    (hbase : split [] base = .ok b) (href : split b.scheme reference = .ok r) :
    join base reference = .ok (if r.scheme ≠ b.scheme || !isAmong r.scheme relativeSchemes then reference
      else (resolve b r).unsplit) := by
  unfold join
  rw [if_neg hb, if_neg hr, hbase]
  dsimp only [bind, Except.bind]
  rw [href]
  dsimp only
  split_ifs <;> rfl

/-- **A reference to a fragment** exchanges the fragment of its base. -/
theorem join_fragment {home base f : List Char} {u : Url} (h : HasParts home u) (hb : IsWithin home base)
    (hf : IsTidy f) : join base ('#' :: f) = .ok (home ++ marked '#' f) := by
  obtain ⟨f', hsplit⟩ := h.split_within hb
  have hresolve : resolve { u with fragment := f' } ⟨u.scheme, [], [], [], [], f⟩ = { u with fragment := f } := by
    simp [resolve, h.hosted]
  rw [join_of_split hb.1 (List.cons_ne_nil _ _) hsplit (split_of_hash hf _), hresolve,
    unsplit_fragment h.fragment, h.unsplit, if_neg]
  simp [h.relative]

/-- **A reference with a host** stays as it is, up to an empty fragment. -/
theorem join_absolute {home base f : List Char} {b : Url} (h : IsHome home) (hb : base ≠ []) (hsplit : split [] base = .ok b)
    (hf : IsTidy f) : ∃ cs, join base (home ++ '#' :: f) = .ok cs ∧ (cs = home ++ '#' :: f ∨ cs = home ++ marked '#' f) := by
  obtain ⟨u, hu, -, hhost, hfragment⟩ := h.hasParts
  have hresolve : resolve b { u with fragment := f } = { u with fragment := f } := by
    simp [resolve, hu.hosted, hhost]
  rw [join_of_split hb (by simp) hsplit (hfragment f hf _), hresolve, unsplit_fragment hu.fragment, hu.unsplit]
  split_ifs
  · exact ⟨_, rfl, Or.inl rfl⟩
  · exact ⟨_, rfl, Or.inr rfl⟩

end Typings.Url

namespace Typings.Address

/-! ### Addresses inside a document -/

/-- What may stand before the number sign: nothing, or the URL of a document on the web. -/
def IsHome (home : String) : Prop := home = "" ∨ Url.IsHome home.toList

/-- The text of the address of a place in a document. -/
def locator (home : String) (tokens : List String) : String := home ++ "#" ++ Pointer.fragment tokens

variable {home : String}

lemma toList_locator (home : String) (tokens : List String) :
    (locator home tokens).toList = home.toList ++ '#' :: Pointer.fragmentChars tokens := by
  simp [locator, Pointer.toList_fragment]

lemma locator_ne_hash (h : home ≠ "") (tokens : List String) : locator home tokens ≠ "#" := by
  intro heq
  have hlist := congrArg String.toList heq
  rw [toList_locator] at hlist
  cases hhome : home.toList with
  | nil => exact h (String.toList_inj.1 hhome)
  | cons c cs =>
    rw [hhome] at hlist
    have := congrArg List.length hlist
    simp at this

lemma locator_empty (tokens : List String) : locator "" tokens = "#" ++ Pointer.fragment tokens := by
  rw [← String.toList_inj, toList_locator]
  simp [Pointer.toList_fragment]

lemma IsHome.hash (h : IsHome home) : '#' ∉ home.toList := by
  rcases h with rfl | h
  · decide
  · exact h.hash

lemma IsHome.hasParts (h : IsHome home) : ∃ u, Url.HasParts home.toList u := by
  rcases h with rfl | h
  · exact ⟨_, Url.hasParts_nil⟩
  · obtain ⟨u, hu, -⟩ := h.hasParts
    exact ⟨u, hu⟩

lemma IsHome.isRooted (h : IsHome home) (f : List Char) : IsRooted (home.toList ++ '#' :: f) := by
  rcases h with rfl | h
  · exact Or.inr (Or.inr rfl)
  · obtain ⟨u, hu, hs, hhost, -⟩ := h.hasParts
    obtain ⟨rest, hrest⟩ : ∃ rest, home.toList = u.scheme ++ ':' :: '/' :: '/' :: rest := by
      rw [← hu.unsplit, Url.unsplit, if_neg hs, Url.authority, if_pos (by simp [hhost])]
      simp only [List.append_assoc, List.cons_append]
      exact ⟨_, rfl⟩
    refine Or.inl ⟨u.scheme, rest ++ '#' :: f, ?_⟩
    rw [hrest]
    simp

lemma canonical_append_hash {cs : List Char} (h : '#' ∉ cs) : canonical (cs ++ ['#']) = canonical cs := by
  have hrooted : rooted (cs ++ ['#']) = rooted cs := by
    simp [rooted, h]
  rw [canonical, canonical, hrooted]

lemma IsHome.canonical_locator (h : IsHome home) (tokens : List String) :
    canonical (locator home tokens).toList = (locator home tokens).toList := by
  rw [toList_locator]
  exact canonical_of_parts h.hash (h.isRooted _) (Pointer.canonicalFragment_fragment tokens)

lemma IsHome.ofText_locator (h : IsHome home) (tokens : List String) :
    ofText (locator home tokens) = ⟨locator home tokens⟩ := by
  rw [ofText, h.canonical_locator, String.ofList_toList]

/-- Both spellings of an empty fragment are read alike. -/
lemma IsHome.canonical_of_join (h : IsHome home) (tokens : List String) {cs : List Char}
    (hcs : cs = home.toList ++ '#' :: Pointer.fragmentChars tokens ∨
      cs = home.toList ++ Url.marked '#' (Pointer.fragmentChars tokens)) :
    String.ofList (canonical cs) = locator home tokens := by
  have hkey : canonical (home.toList ++ '#' :: Pointer.fragmentChars tokens) = (locator home tokens).toList := by
    rw [← toList_locator]
    exact h.canonical_locator tokens
  rcases hcs with rfl | rfl
  · rw [hkey, String.ofList_toList]
  · unfold Url.marked
    split_ifs with hnil
    · rw [hnil] at hkey
      rw [List.append_nil, ← canonical_append_hash h.hash, hkey, String.ofList_toList]
    · rw [hkey, String.ofList_toList]

/-- Addresses of places in a document, as they stand around its parts. -/
def IsScope (home : String) (scope : List String) : Prop := ∀ p ∈ scope, p ≠ "#" ∧ ∃ tokens, p = locator home tokens

lemma join_locator (h : IsHome home) {acc : List Char} (hacc : acc = [] ∨ Url.IsWithin home.toList acc)
    {tokens : List String} (hp : locator home tokens ≠ "#") :
    ∃ b, Url.join acc (locator home tokens).toList = .ok b ∧ Url.IsWithin home.toList b := by
  have htidy := Url.isTidy_fragmentChars tokens
  obtain ⟨u, hu⟩ := h.hasParts
  rw [toList_locator]
  rcases hacc with rfl | hacc
  · exact ⟨_, if_pos rfl, by simp, _, htidy, Or.inl rfl⟩
  · rcases h with rfl | h
    · -- without a home the fragment is not empty, or the address would be a bare number sign
      have hne : Pointer.fragmentChars tokens ≠ [] := by
        intro hnil
        apply hp
        rw [← String.toList_inj, toList_locator, hnil]
        rfl
      refine ⟨_, Url.join_fragment hu hacc htidy, ?_, _, htidy, Or.inr rfl⟩
      simp [Url.marked, hne]
    · obtain ⟨f, hsplit⟩ := hu.split_within hacc
      obtain ⟨cs, hcs, hshape⟩ := Url.join_absolute h hacc.1 hsplit htidy
      refine ⟨cs, hcs, ?_, _, htidy, hshape⟩
      have hhome : home.toList ≠ [] := by
        intro hnil
        have := h.web
        rw [hnil] at this
        exact absurd this (by decide)
      rcases hshape with rfl | rfl <;> simp [hhome]

lemma base_within (h : IsHome home) {scope : List String} (hs : IsScope home scope) {acc : List Char}
    (hacc : acc = [] ∨ Url.IsWithin home.toList acc) :
    ∃ b, base acc scope = .ok b ∧ (b = [] ∧ scope = [] ∨ Url.IsWithin home.toList b) := by
  induction scope generalizing acc with
  | nil => exact ⟨acc, rfl, hacc.imp_left fun h => ⟨h, rfl⟩⟩
  | cons p scope ih =>
    obtain ⟨hp, tokens, rfl⟩ := hs p List.mem_cons_self
    obtain ⟨b, hb, hwithin⟩ := join_locator h hacc hp
    obtain ⟨b', hb', h'⟩ := ih (fun p hp => hs p (List.mem_cons_of_mem _ hp)) (Or.inr hwithin)
    refine ⟨b', ?_, ?_⟩
    · rw [base, if_neg, hb]
      · exact hb'
      · intro hempty
        have := congrArg String.toList hempty
        rw [toList_locator] at this
        simp at this
    · rcases h' with ⟨rfl, rfl⟩ | h'
      · cases hb'
        exact absurd rfl hwithin.1
      · exact Or.inr h'

lemma within_of_join {text : String} {scope : List String} {b cs : List Char} (hb : base [] scope = .ok b) (hne : b ≠ [])
    (hj : Url.join b text.toList = .ok cs) : within text scope = .ok ⟨String.ofList (canonical cs)⟩ := by
  cases b with
  | nil => exact absurd rfl hne
  | cons c b =>
    rw [within, hb]
    dsimp only
    rw [hj]

/-- **A fragment alone** is a place in the document around it. -/
theorem within_local (h : IsHome home) {scope : List String} (hs : IsScope home scope) (hne : home = "" ∨ scope ≠ [])
    (tokens : List String) : within ("#" ++ Pointer.fragment tokens) scope = .ok ⟨locator home tokens⟩ := by
  have htext : ("#" ++ Pointer.fragment tokens).toList = '#' :: Pointer.fragmentChars tokens := by
    simp [Pointer.toList_fragment]
  obtain ⟨u, hu⟩ := h.hasParts
  obtain ⟨b, hb, ⟨rfl, rfl⟩ | hwithin⟩ := base_within h hs (Or.inl rfl)
  · obtain rfl : home = "" := hne.resolve_right (absurd rfl)
    rw [within, hb, ← locator_empty]
    exact congrArg Except.ok (h.ofText_locator tokens)
  · have hjoin := Url.join_fragment hu hwithin (Url.isTidy_fragmentChars tokens)
    rw [within_of_join hb hwithin.1 (htext ▸ hjoin), h.canonical_of_join tokens (Or.inr rfl)]

/-- **The address of a place** means that place from anywhere. -/
theorem within_absolute (h : IsHome home) {scope : List String} (hs : IsScope home scope) {other : String}
    (ho : Url.IsHome other.toList) (tokens : List String) :
    within (locator other tokens) scope = .ok ⟨locator other tokens⟩ := by
  obtain ⟨u, hu⟩ := h.hasParts
  have hother : IsHome other := Or.inr ho
  obtain ⟨b, hb, ⟨rfl, rfl⟩ | hwithin⟩ := base_within h hs (Or.inl rfl)
  · rw [within, hb]
    exact congrArg Except.ok (hother.ofText_locator tokens)
  · obtain ⟨f, hsplit⟩ := hu.split_within hwithin
    obtain ⟨cs, hcs, hshape⟩ := Url.join_absolute ho hwithin.1 hsplit (Url.isTidy_fragmentChars tokens)
    rw [← toList_locator] at hcs
    rw [within_of_join hb hwithin.1 hcs, hother.canonical_of_join tokens hshape]

end Typings.Address
