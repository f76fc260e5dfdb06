import Typings.Proofs.Upkeep
import Typings.Proofs.Url

/-!
Texts that stay. Whenever a walk reaches a reference, the text that the reference has by then is read again inside the ids
around it. An absolute text (`Address.IsAbsolute`) means itself inside all ids: it has a scheme, and if URLs of the scheme
resolve relative references, also a host, and it is spelled the way the parts of a URL are put together. All other texts
mean something else inside some id. Main statement: `kept_iff_isAbsolute`, a reference keeps its text in every run exactly
if the text is absolute.
-/

namespace Typings

/-! ### Texts that mean themselves -/

namespace Url

lemma isAmong_host {scheme : List Char} (h : isAmong scheme relativeSchemes = true) : isAmong scheme hostSchemes = true := by
  have hsub : ∀ s ∈ relativeSchemes, s ∈ hostSchemes := by decide
  unfold isAmong at *
  simp only [List.contains_iff_mem] at *
  exact hsub _ h

/-- A scheme of one's own is not taken from elsewhere. -/
lemma split_of_scheme {cs : List Char} {u : Url} (h : split [] cs = .ok u) (hs : u.scheme ≠ []) (default : List Char) :
    split default cs = .ok u := by
  cases hscheme : splitScheme (cleaned cs) with
  | none =>
    simp only [split, hscheme, Option.getD_none] at h
    split_ifs at h
    all_goals
      cases h
      exact absurd rfl hs
  | some e =>
    simp only [split, hscheme, Option.getD_some] at h ⊢
    exact h

/-- Whether the host may be named does not depend on the scheme. -/
lemma exists_split {default cs : List Char} {u : Url} (h : split default cs = .ok u) : ∃ v, split [] cs = .ok v := by
  cases hscheme : splitScheme (cleaned cs) with
  | none =>
    simp only [split, hscheme, Option.getD_none] at h ⊢
    split_ifs at h ⊢
    all_goals exact ⟨_, rfl⟩
  | some e =>
    simp only [split, hscheme, Option.getD_some] at h ⊢
    exact ⟨u, h⟩

lemma resolve_of_host {b u : Url} (hr : isAmong u.scheme relativeSchemes = true) (hh : u.host ≠ []) : resolve b u = u := by
  simp [resolve, isAmong_host hr, hh]

end Url

namespace Address

/-- **An absolute text.** A text whose host is not one that may be named cannot be read inside any id, and counts. -/
def IsAbsolute (text : String) : Prop :=
  ∀ u, Url.split [] text.toList = .ok u → u.scheme ≠ [] ∧
    (Url.isAmong u.scheme Url.relativeSchemes = true → u.host ≠ [] ∧ canonical u.unsplit = text.toList)

lemma canonical_toList {text : String} (h : IsCanonical text) : canonical text.toList = text.toList := by
  have hl := congrArg String.toList h
  rwa [ofText, String.toList_ofList] at hl

lemma hash_mem_of_isCanonical {text : String} (h : IsCanonical text) : '#' ∈ text.toList := by
  obtain ⟨document, fragment, -, -, hc⟩ := canonical_parts text.toList
  rw [canonical_toList h] at hc
  rw [hc]
  simp

lemma join_isAbsolute {text : String} (hc : IsCanonical text) (h : IsAbsolute text) {b cs : List Char} (hb : b ≠ [])
    (hj : Url.join b text.toList = .ok cs) : canonical cs = text.toList := by
  have hne : text.toList ≠ [] := List.ne_nil_of_mem (hash_mem_of_isCanonical hc)
  -- joining reads the base first, then the text with the scheme of the base in reserve
  cases hsplit : Url.split [] b with
  | error e =>
    rw [Url.join, if_neg hb, if_neg hne, hsplit] at hj
    cases hj
  | ok v =>
    cases hr : Url.split v.scheme text.toList with
    | error e =>
      rw [Url.join, if_neg hb, if_neg hne, hsplit] at hj
      dsimp only [bind, Except.bind] at hj
      rw [hr] at hj
      cases hj
    | ok r =>
      obtain ⟨u, hu⟩ := Url.exists_split hr
      obtain ⟨hs, hrelative⟩ := h u hu
      obtain rfl : r = u := Except.ok.inj (hr.symm.trans (Url.split_of_scheme hu hs _))
      rw [Url.join_of_split hb hne hsplit hr] at hj
      split_ifs at hj with hother
      · cases hj
        exact canonical_toList hc
      · cases hj
        simp only [Bool.or_eq_true, not_or, Bool.not_eq_true, Bool.not_eq_false'] at hother
        obtain ⟨hhost, hcanonical⟩ := hrelative hother.2
        rw [Url.resolve_of_host hother.2 hhost, hcanonical]

/-- **Absolute texts mean themselves** inside all ids. -/
theorem within_isAbsolute {text : String} (hc : IsCanonical text) (h : IsAbsolute text) {scope : List String} {a : Address}
    (hw : within text scope = .ok a) : a.text = text := by
  unfold within at hw
  split at hw
  · cases hw
  · cases hw
    exact hc
  · next b hb _ =>
    split at hw
    · next cs hj =>
      cases hw
      rw [join_isAbsolute hc h (by assumption) hj, String.ofList_toList]
    · cases hw

end Address

/-! ### Texts that mean something else -/

namespace Url

/-- A scheme as it is written: a letter, then letters, digits and the three signs. -/
structure IsScheme (scheme : List Char) : Prop where
  alpha : (scheme.head?.map (·.isAlpha)).getD false = true
  all : scheme.all isSchemeChar = true
  colon : ':' ∉ scheme
  hash : '#' ∉ scheme
  clean : cleaned scheme = scheme

lemma isScheme_relative {scheme : List Char} (h : isAmong scheme relativeSchemes = true) (hne : scheme ≠ []) :
    IsScheme scheme ∧ split [] (scheme ++ "://h#".toList) = .ok ⟨scheme, ['h'], [], [], [], []⟩ := by
  have hall : ∀ s ∈ relativeSchemes, s.toList ≠ [] → (((s.toList.head?.map (·.isAlpha)).getD false = true ∧
      s.toList.all isSchemeChar = true ∧ ':' ∉ s.toList ∧ '#' ∉ s.toList ∧ cleaned s.toList = s.toList) ∧
      (split [] (s.toList ++ "://h#".toList)).toOption = some ⟨s.toList, ['h'], [], [], [], []⟩) := by
    decide +kernel
  have hmem : String.ofList scheme ∈ relativeSchemes := by simpa [isAmong] using h
  obtain ⟨⟨h₁, h₂, h₃, h₄, h₅⟩, hsplit⟩ := hall _ hmem (by simpa using hne)
  rw [String.toList_ofList] at h₁ h₂ h₃ h₄ h₅ hsplit
  refine ⟨⟨h₁, h₂, h₃, h₄, h₅⟩, ?_⟩
  cases hu : split [] (scheme ++ "://h#".toList) with
  | error e =>
    rw [hu] at hsplit
    cases hsplit
  | ok u =>
    rw [hu] at hsplit
    exact congrArg Except.ok (Option.some.inj hsplit)

lemma cleaned_front {front : List Char} (hne : front ≠ []) (hclean : cleaned front = front) (rest : List Char) :
    cleaned (front ++ rest) = front ++ rest.filter fun c => !(c = '\t' || c = '\r' || c = '\n') := by
  have hdrop : front.dropWhile (fun c => decide (c.toNat ≤ 0x20)) ≠ [] := by
    intro hnil
    rw [cleaned, hnil] at hclean
    exact hne hclean.symm
  have hfront : (front.dropWhile fun c => decide (c.toNat ≤ 0x20)).filter
      (fun c => !(c = '\t' || c = '\r' || c = '\n')) = front := hclean
  unfold cleaned
  rw [List.dropWhile_append, if_neg (by simpa using hdrop), List.filter_append, hfront]

lemma splitScheme_append {scheme : List Char} (h : IsScheme scheme) (rest : List Char) :
    splitScheme (scheme ++ ':' :: rest) = some (scheme.map (·.toLower), rest) := by
  have hspan : (scheme ++ ':' :: rest).span (· ≠ ':') = (scheme, ':' :: rest) := by
    refine span_append (fun c hc => ?_) ?_
    · simpa using fun e : c = ':' => h.colon (e ▸ hc)
    · rintro _ ⟨⟩
      decide
  simp only [splitScheme, hspan, h.alpha, h.all]
  simp

lemma split_splitScheme {cs scheme rest : List Char} (hscheme : splitScheme (cleaned cs) = some (scheme, rest)) {u : Url}
    (hu : split [] cs = .ok u) :
    u.scheme = scheme ∧ (rest.take 2 = ['/', '/'] → u.host = ((rest.drop 2).span (!endsHost ·)).1) := by
  simp only [split, hscheme, Option.getD_some] at hu
  by_cases htake : rest.take 2 = ['/', '/']
  · simp only [if_pos htake] at hu
    split_ifs at hu
    all_goals
      cases hu
      exact ⟨rfl, fun _ => rfl⟩
  · simp only [if_neg htake] at hu
    split_ifs at hu
    all_goals
      cases hu
      exact ⟨rfl, fun h => absurd h htake⟩

/-- What is certain of a text that begins with a scheme, and maybe with the first letter of a host. -/
lemma split_begun {scheme rest : List Char} (h : IsScheme scheme) {u : Url}
    (hu : split [] (scheme ++ ':' :: '/' :: '/' :: rest) = .ok u) :
    u.scheme ≠ [] ∧ (rest.head? = some 'h' → u.host ≠ []) := by
  have hne : scheme ≠ [] := by
    rintro rfl
    exact absurd h.alpha (by decide)
  have hscheme : splitScheme (cleaned (scheme ++ ':' :: '/' :: '/' :: rest)) = some (scheme.map (·.toLower),
      '/' :: '/' :: rest.filter fun c => !(c = '\t' || c = '\r' || c = '\n')) := by
    rw [cleaned_front hne h.clean, ← splitScheme_append h]
    rfl
  obtain ⟨hs, hhost⟩ := split_splitScheme hscheme hu
  refine ⟨by simpa [hs] using hne, fun hhead => ?_⟩
  cases rest with
  | nil => cases hhead
  | cons c rest =>
    obtain rfl : c = 'h' := by simpa using hhead
    rw [hhost rfl]
    simp [endsHost, List.span_eq_takeWhile_dropWhile]

end Url

namespace Address

lemma canonical_front {front : List Char} (hm : [':', '/', '/'] <:+: front) (hh : '#' ∉ front) (rest : List Char) :
    ∃ rest', canonical (front ++ rest) = front ++ rest' := by
  obtain ⟨document, fragment, hrooted⟩ : ∃ document fragment, '#' ∉ document ∧
      rooted (front ++ rest) = front ++ document ++ '#' :: fragment := by
    have hoccurs : ∀ more, occurs "://".toList (front ++ more) = true :=
      fun more => occurs_iff.2 (hm.trans (List.prefix_append _ _).isInfix)
    unfold rooted
    dsimp only
    split
    · next hc =>
      have hmem : '#' ∈ rest := by
        have hin : '#' ∈ front ++ rest := by simpa using hc
        exact (List.mem_append.1 hin).resolve_left hh
      obtain ⟨document, fragment, rfl, hd⟩ := List.eq_append_cons_of_mem hmem
      refine ⟨document, fragment, hd, ?_⟩
      rw [hoccurs]
      simp
    · next hc =>
      have hnot : '#' ∉ rest := fun hmem => hc (by simp [hmem])
      refine ⟨rest, [], hnot, ?_⟩
      rw [List.append_assoc, hoccurs]
      simp
  obtain ⟨hd, hrooted⟩ := hrooted
  refine ⟨document ++ '#' :: Pointer.canonicalFragment fragment, ?_⟩
  have hdocument : '#' ∉ front ++ document := by
    rw [List.mem_append]
    exact fun h => h.elim hh hd
  simp only [canonical, hrooted, Url.cut_append hdocument]
  rw [List.append_assoc]

end Address

namespace Url

/-- Without a scheme of its own, a text takes that of the web; nothing else in it changes. -/
lemma split_http {cs : List Char} {u : Url} (h : split [] cs = .ok u) (hs : u.scheme = []) :
    split "http".toList cs = .ok { u with scheme := "http".toList } := by
  have hempty : isAmong [] paramSchemes = true := by decide
  have hhttp : isAmong "http".toList paramSchemes = true := by decide
  cases hscheme : splitScheme (cleaned cs) with
  | none =>
    simp only [split, hscheme, Option.getD_none, hempty, hhttp, if_true] at h ⊢
    split_ifs at h ⊢
    all_goals
      cases h
      rfl
  | some e =>
    obtain ⟨scheme, rest⟩ := e
    obtain ⟨front, -, -, halpha, -, rfl⟩ := splitScheme_eq_some hscheme
    have hscheme' := (split_splitScheme hscheme h).1
    rw [hs] at hscheme'
    rw [List.map_eq_nil_iff.1 hscheme'.symm] at halpha
    cases halpha

lemma unsplit_begins {u : Url} (hs : u.scheme ≠ []) (hh : u.host ≠ []) :
    ∃ rest, u.unsplit = u.scheme ++ ':' :: '/' :: '/' :: (u.host ++ rest) := by
  rw [unsplit, if_neg hs, authority, if_pos (by simp [hh])]
  simp only [List.append_assoc, List.cons_append]
  exact ⟨_, rfl⟩

/-- A text of the scheme of a base: it keeps its own host, or takes that of the base. -/
lemma resolve_parts {b r : Url} (hr : isAmong r.scheme relativeSchemes = true) :
    (resolve b r).scheme = r.scheme ∧ (resolve b r).host = if r.host = [] then b.host else r.host := by
  unfold resolve
  rw [isAmong_host hr]
  by_cases hh : r.host = []
  · simp only [hh]
    split_ifs
    all_goals simp_all
  · simp [hh]

end Url

namespace Address

/-- What a text means inside one id on a host, if both have one scheme. -/
lemma within_host {text : String} (hc : IsCanonical text) {scheme : List Char} {r : Url}
    (hs : Url.isAmong scheme Url.relativeSchemes = true) (hne : scheme ≠ [])
    (hr : Url.split scheme text.toList = .ok r) (hscheme : r.scheme = scheme) :
    within text [String.ofList (scheme ++ "://h#".toList)] =
      .ok ⟨String.ofList (canonical (Url.resolve ⟨scheme, ['h'], [], [], [], []⟩ r).unsplit)⟩ := by
  obtain ⟨-, hsplit⟩ := Url.isScheme_relative hs hne
  have hid : String.ofList (scheme ++ "://h#".toList) ≠ "" := by
    intro h
    have hl := congrArg String.toList h
    rw [String.toList_ofList] at hl
    exact absurd (List.append_eq_nil_iff.1 hl).2 (by decide)
  have hbase : base [] [String.ofList (scheme ++ "://h#".toList)] = .ok (scheme ++ "://h#".toList) := by
    rw [base, if_neg hid, String.toList_ofList, Url.join, if_pos rfl]
    rfl
  have hnil : scheme ++ "://h#".toList ≠ [] := fun h => hne (List.append_eq_nil_iff.1 h).1
  have htext : text.toList ≠ [] := List.ne_nil_of_mem (hash_mem_of_isCanonical hc)
  refine within_of_join hbase hnil ?_
  rw [Url.join_of_split hnil htext hsplit hr, if_neg]
  simp [hscheme, hs]

/-- What is certain of an address that was made of a text with a scheme. -/
lemma split_canonical {scheme : List Char} (h : Url.IsScheme scheme) {m rest : List Char} (hm : '#' ∉ m) {u : Url}
    (hu : Url.split [] (canonical (scheme ++ ':' :: '/' :: '/' :: (m ++ rest))) = .ok u) :
    u.scheme ≠ [] ∧ (m = ['h'] → u.host ≠ []) := by
  have hfront : '#' ∉ scheme ++ ':' :: '/' :: '/' :: m := by
    simp [h.hash, hm]
  have hmark : [':', '/', '/'] <:+: scheme ++ ':' :: '/' :: '/' :: m := ⟨scheme, m, by simp⟩
  obtain ⟨rest', hrest⟩ := canonical_front hmark hfront rest
  simp only [List.append_assoc, List.cons_append] at hrest
  rw [hrest] at hu
  obtain ⟨hs, hhost⟩ := Url.split_begun h hu
  refine ⟨hs, ?_⟩
  rintro rfl
  exact hhost rfl

/-- **Every other text means something else** inside some id. -/
theorem exists_other_meaning {text : String} (hc : IsCanonical text) (h : ¬ IsAbsolute text) :
    ∃ id, id ≠ "#" ∧ ∃ a, within text [id] = .ok a ∧ a.text ≠ text := by
  simp only [IsAbsolute, not_forall] at h
  obtain ⟨u, hu, h⟩ := h
  have hid : ∀ scheme : List Char, String.ofList (scheme ++ "://h#".toList) ≠ "#" := by
    intro scheme he
    have hl := congrArg List.length (congrArg String.toList he)
    rw [String.toList_ofList, List.length_append] at hl
    have hlength : "://h#".toList.length = 5 := rfl
    have hone : "#".toList.length = 1 := rfl
    omega
  by_cases hs : u.scheme = []
  · -- a text without a scheme gets one
    have hweb : Url.isAmong "http".toList Url.relativeSchemes = true := by decide
    have hne : "http".toList ≠ [] := by decide
    have hsplit := Url.split_http hu hs
    refine ⟨_, hid "http".toList, _, within_host hc hweb hne hsplit rfl, fun heq => ?_⟩
    obtain ⟨hscheme, hhost⟩ := Url.resolve_parts (b := ⟨"http".toList, ['h'], [], [], [], []⟩)
      (r := { u with scheme := "http".toList }) hweb
    have hnamed : (Url.resolve ⟨"http".toList, ['h'], [], [], [], []⟩ { u with scheme := "http".toList }).host ≠ [] := by
      rw [hhost]
      split_ifs with hh
      · simp
      · exact hh
    obtain ⟨rest, hrest⟩ := Url.unsplit_begins (by rwa [hscheme]) hnamed
    rw [hscheme] at hrest
    rw [← heq, String.toList_ofList, hrest] at hu
    exact (split_canonical (m := []) (Url.isScheme_relative hweb hne).1 List.not_mem_nil hu).1 hs
  · have hrelative : Url.isAmong u.scheme Url.relativeSchemes = true := by
      by_contra hr
      exact h ⟨hs, fun h' => absurd h' hr⟩
    have hwithin := within_host hc hrelative hs (Url.split_of_scheme hu hs _) rfl
    refine ⟨_, hid u.scheme, _, hwithin, fun heq => ?_⟩
    by_cases hh : u.host = []
    · -- a text without a host gets one
      obtain ⟨hscheme, hhost⟩ := Url.resolve_parts (b := ⟨u.scheme, ['h'], [], [], [], []⟩) hrelative
      rw [if_pos hh] at hhost
      obtain ⟨rest, hrest⟩ := Url.unsplit_begins (by rwa [hscheme]) (by simp [hhost])
      rw [hscheme, hhost] at hrest
      have hu' := hu
      rw [← heq, String.toList_ofList, hrest] at hu'
      exact (split_canonical (m := ['h']) (Url.isScheme_relative hrelative hs).1 (by decide) hu').2 rfl hh
    · -- a text that is spelled otherwise gets the spelling of its parts
      rw [Url.resolve_of_host hrelative hh] at heq
      refine h ⟨hs, fun _ => ⟨hh, ?_⟩⟩
      have hl := congrArg String.toList heq
      rwa [String.toList_ofList] at hl

end Address

/-! ### Walks and runs -/

namespace Discovery

variable {m : ℕ} {text : String}

lemma enter_refs (s : Schema Node) (visit : Visit) (t : Trail) :
    Yields (enter s visit) t (fun _ t' => t'.refs = t.refs) fun _ t' => t'.refs = t.refs := by
  unfold enter
  split
  · exact Yields.of_pure rfl
  · next id _ =>
    refine Yields.bind ?_
    cases Address.within id visit.scope with
    | error f => exact Yields.of_throw rfl
    | ok address =>
      exact Yields.of_pure (Yields.bind (Yields.of_get (Yields.bind (Yields.of_modify (Yields.of_pure rfl)))))

lemma canonize_stays (hc : Address.IsCanonical text) (ha : Address.IsAbsolute text) (node : Node) (scope : List String)
    {t : Trail} (ht : t.refs.get? m = some text) :
    Yields (canonize node scope) t (fun _ t' => t'.refs.get? m = some text) fun _ t' => t'.refs.get? m = some text := by
  refine Yields.bind (Yields.of_get ?_)
  cases hr : node.reference? t.refs with
  | none => exact Yields.of_pure ht
  | some now =>
    refine Yields.bind ?_
    cases hw : Address.within now scope with
    | error f => exact Yields.of_throw ht
    | ok address =>
      refine Yields.of_pure (Yields.bind (Yields.of_modify (Yields.of_modify ?_)))
      dsimp only
      rw [Table.get?_set]
      split_ifs with hmark
      · -- the reference is read again, and means itself
        have hnow : t.refs.get? m = some now := by
          rw [← hmark]
          exact Node.get?_mark_of_reference? hr (Table.has_iff.2 ⟨text, hmark ▸ ht⟩)
        obtain rfl : text = now := Option.some.inj (ht.symm.trans hnow)
        rw [Address.within_isAbsolute hc ha hw]
      · exact ht

lemma upheld_stays (hc : Address.IsCanonical text) (ha : Address.IsAbsolute text) (s : Schema Node) :
    Upheld s fun t => t.refs.get? m = some text where
  enter visit t _ ht := by
    have hstays : ∀ t' : Trail, t'.refs = t.refs → t'.refs.get? m = some text := fun t' h => h ▸ ht
    exact (enter_refs s visit t).mono (fun _ => hstays) fun _ => hstays
  canonize node scope _ ht := canonize_stays hc ha node scope ht

end Discovery

/-- Runs uphold that a reference has a certain absolute text. -/
lemma upheld_isAbsolute {m : ℕ} {text : String} (hc : Address.IsCanonical text) (ha : Address.IsAbsolute text) :
    Upheld (fun r => r.refs.get? m = some text) fun _ => True where
  stored _ _ := trivial
  aside _ _ _ hr := hr
  register {s} _ r hr := by
    obtain ⟨t, ht, hrefs, -⟩ := (Discovery.upheld_stays hc ha s).walk hr r.next
    have hstays : ∀ r', Action.Entered s r r' → r'.refs.get? m = some text := by
      intro r' h
      rw [h.refs, hrefs, ht]
    exact (Action.register_entered s r).mono (fun _ r' h => ⟨hstays r' h, trivial⟩) fun _ r' h => hstays r' h
  note _ hr := hr
  target _ _ hr := hr
  document _ _ hr := hr
  opened _ := trivial
  extracted _ _ := trivial
  replaced _ _ _ _ := trivial

/-! ### A reference and its text -/

/-- A schema that is a reference and nothing else. -/
def Schema.referrer (address : Address) (text : String) : Schema Node :=
  ⟨.draft04, address, .obj 0 [("$ref", .atom 1 (.str text))], none, [], false⟩

lemma canonize_referrer {refs : Refs} (address : Address) {a : Address} {text : String} {scope : List String}
    (hr : refs.get? 0 = none ∨ refs.get? 0 = some text) (hw : Address.within text scope = .ok a) :
    Yields (Discovery.canonize (Schema.referrer address text).content scope) ⟨refs, []⟩
      (fun _ t => t.refs.get? 0 = some a.text) fun _ _ => False := by
  have htext : (Schema.referrer address text).content.reference? refs = some text := by
    rcases hr with hr | hr <;>
      simp [Schema.referrer, Node.reference?, Node.get?, Table.get?, Node.current, hr, Node.str?]
  refine Yields.bind (Yields.of_get ?_)
  dsimp only
  rw [htext]
  refine Yields.bind ?_
  rw [hw]
  exact Yields.of_pure (Yields.bind (Yields.of_modify (Yields.of_modify (Table.get?_set_self _ _ _))))

/-- Registering a reference gives it the address that its text means. -/
lemma left_referrer {r : Registry} (address : Address) {a : Address} {text : String}
    (hr : r.refs.get? 0 = none ∨ r.refs.get? 0 = some text)
    (hw : Address.within text (Discovery.rootScope (.referrer address text)) = .ok a) :
    ((Call.register (.referrer address text)).left r).refs.get? 0 = some a.text := by
  have hwalk : (Discovery.walk (.referrer address text) r.refs r.next).refs.get? 0 = some a.text := by
    obtain ⟨⟨⟩, t, ht, hget⟩ := (canonize_referrer address hr hw).exists_ok
    have hchildren : Discovery.children .draft04 none (Schema.referrer address text).content = [] := rfl
    have hobject : (Schema.referrer address text).content.isObject = true := rfl
    have hdialect : (Schema.referrer address text).dialect = .draft04 := rfl
    have hopenapi : (Schema.referrer address text).openapi = none := rfl
    unfold Discovery.walk
    simp only [hobject, EStateM.run, ht, hdialect, hopenapi, hchildren, List.map_nil, List.append_nil]
    simp [Discovery.run, pure, EStateM.pure, hget]
  have hleft := Action.register_entered (.referrer address text) r
  unfold Call.left
  split
  · next hrun => rw [(hleft.good_of_ok hrun).refs, hwalk]
  · next hrun => rw [(hleft.bad_of_error hrun).refs, hwalk]

/-- **A reference keeps its text in every run exactly if the text is absolute.** -/
theorem kept_iff_isAbsolute {text : String} (hc : Address.IsCanonical text) :
    (∀ (calls later : List Call) (node : Node), (Call.leftAll calls .empty).refs.has node.mark = true →
      node.reference? (Call.leftAll calls .empty).refs = some text →
      node.reference? (Call.leftAll later (Call.leftAll calls .empty)).refs = some text) ↔ Address.IsAbsolute text := by
  constructor
  · intro h
    by_contra ha
    obtain ⟨id, hid, a, hw, hne⟩ := Address.exists_other_meaning hc ha
    -- the reference is registered on its own first, and then inside the id
    have hself : Address.within text [] = .ok ⟨text⟩ := congrArg (fun t => Except.ok (Address.mk t)) hc
    have hscope : Discovery.rootScope (.referrer ⟨id⟩ text) = [id] := by
      simp [Discovery.rootScope, Schema.scope, Schema.referrer, hid]
    have hfirst := left_referrer (r := .empty) ⟨"#"⟩ (Or.inl rfl) hself
    have hsecond := left_referrer ⟨id⟩ (Or.inr hfirst) (hscope ▸ hw)
    have hcurrent : ∀ {refs : Refs} {now : String}, refs.get? 0 = some now →
        (Schema.referrer ⟨"#"⟩ text).content.reference? refs = some now := by
      intro refs now hnow
      rw [Node.reference?_eq]
      simp [Schema.referrer, Node.reference?, Node.get?, Table.get?, Node.current, Node.str?, Node.mark, hnow]
    have hkept := h [.register (.referrer ⟨"#"⟩ text)] [.register (.referrer ⟨id⟩ text)]
      (Schema.referrer ⟨"#"⟩ text).content (Table.has_iff.2 ⟨_, hfirst⟩) (hcurrent hfirst)
    exact hne (Option.some.inj ((hcurrent hsecond).symm.trans hkept))
  · intro ha calls later node hmark htext
    have hget := Node.get?_mark_of_reference? htext hmark
    have hkept : (Call.leftAll later (Call.leftAll calls .empty)).refs.get? node.mark = some text :=
      (upheld_isAbsolute hc ha).leftAll (fun c _ => by cases c <;> trivial) hget
    rw [Node.reference?_eq] at htext ⊢
    obtain ⟨written, hwritten, -⟩ := Option.map_eq_some_iff.1 htext
    rw [hwritten, hkept]
    rfl

/-- A place on the web, spelled as its parts are put together. -/
theorem kept_iff_isAbsolute_web : Address.IsCanonical "http://h/d?q#/x" ∧
    ∀ (calls later : List Call) (node : Node), (Call.leftAll calls .empty).refs.has node.mark = true →
      node.reference? (Call.leftAll calls .empty).refs = some "http://h/d?q#/x" →
      node.reference? (Call.leftAll later (Call.leftAll calls .empty)).refs = some "http://h/d?q#/x" := by
  have hc : Address.IsCanonical "http://h/d?q#/x" := by decide +kernel
  have hsplit : (Url.split [] "http://h/d?q#/x".toList).toOption =
      some ⟨"http".toList, "h".toList, "/d".toList, [], "q".toList, "/x".toList⟩ := by
    decide +kernel
  refine ⟨hc, (kept_iff_isAbsolute hc).2 fun u hu => ?_⟩
  rw [hu] at hsplit
  obtain rfl := Option.some.inj hsplit
  exact ⟨by decide, fun _ => ⟨by decide, by decide +kernel⟩⟩

/-! ### A reference that is read again -/

/-- A document that is named by a URN. -/
def namedByUrn : Json := .obj [("id", .str "urn:foo")]

/-- A document with a reference to the one named by a URN, and a reference to that reference. -/
def refersToUrn : Json :=
  .obj [("id", .str "http://h/d"),
    ("properties", .obj [("p", .obj [("$ref", .str "#/properties/q")]), ("q", .obj [("$ref", .str "urn:foo")])])]

/-- Two documents that resolve: the second names the first, and the name is read when the document is registered. -/
def urnDocuments : List Call := [.document (Node.ofJson namedByUrn) none, .document (Node.ofJson refersToUrn) none]

/-- **A text that does not stay.** Resolving takes the inner reference out as a part of its own and reads its text once
more: the address of the first document becomes an address on the host of the second, under which there is nothing. -/
theorem reference_read_again :
    (Call.leftAll urnDocuments .empty).refs.get? 7 = some "/urn:foo#" ∧
      (Call.leftAll urnDocuments .empty).schemas.has "/urn:foo#" = true ∧
      (Call.leftAll [.resolve none] (Call.leftAll urnDocuments .empty)).refs.get? 7 = some "http://h/urn:foo#" ∧
      (Call.leftAll [.resolve none] (Call.leftAll urnDocuments .empty)).pending = ["http://h/urn:foo#"] := by
  decide +kernel

end Typings
