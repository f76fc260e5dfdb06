import Typings.Proofs.Ancestry
import Typings.Proofs.Ground
import Typings.Proofs.Stability

/-!
What the ids around a text decide. A web address is put together from its parts in such a way that it is split into the same
parts again (`Url.split_unsplit`). So it does not matter what else is around such an id: a text inside it means the same as
inside the id alone (`Address.within_nearest`), unless what is around cannot be read as a URL. The address that comes out is
in its one form, which is what registries have for a key (`Address.within_key`).
-/

namespace Typings

lemma ok_of_toOption {ε α : Type} {e : Except ε α} {a : α} (h : e.toOption = some a) : e = .ok a := by
  cases e with
  | error f => cases h
  | ok b => exact congrArg Except.ok (Option.some.inj h)

namespace Url

/-! ### Parts of a path -/

/-- Nothing is lost where a text is cut but the sign that it is cut at. -/
lemma cut_cases (c : Char) (cs : List Char) :
    cs = (cut c cs).1 ∧ (cut c cs).2 = [] ∨ cs = (cut c cs).1 ++ c :: (cut c cs).2 := by
  by_cases h : c ∈ cs
  · obtain ⟨front, rest, rfl, hfront⟩ := List.eq_append_cons_of_mem h
    exact Or.inr (by rw [cut_append hfront])
  · exact Or.inl (by rw [cut_of_not_mem h]; exact ⟨rfl, rfl⟩)

lemma cut_marked {c : Char} {front : List Char} (h : c ∉ front) (rest : List Char) :
    cut c (front ++ marked c rest) = (front, rest) := by
  unfold marked
  split_ifs with hnil
  · rw [List.append_nil, cut_of_not_mem h, hnil]
  · exact cut_append h rest

/-- A path in three pieces: up to its last slash, the last segment, the parameters of this segment. -/
structure InPieces (front segment params : List Char) : Prop where
  front : front = [] ∨ front.getLast? = some '/'
  slash : '/' ∉ segment
  semicolon : ';' ∉ segment
  params : '/' ∉ params

lemma splitParams_append {front last : List Char} (hfront : front = [] ∨ front.getLast? = some '/') (hlast : '/' ∉ last) :
    splitParams (front ++ last) = (front ++ (cut ';' last).1, (cut ';' last).2) := by
  have hall : ∀ c ∈ last.reverse, decide (c ≠ '/') = true := by
    intro c hc
    simpa using fun e : c = '/' => hlast (e ▸ List.mem_reverse.1 hc)
  have hnone : front.reverse.takeWhile (fun c => decide (c ≠ '/')) = [] := by
    rcases hfront with rfl | hfront
    · rfl
    · rw [← List.head?_reverse] at hfront
      obtain ⟨rest, hrest⟩ : ∃ rest, front.reverse = '/' :: rest := by
        cases hr : front.reverse with
        | nil => simp [hr] at hfront
        | cons c rest =>
          rw [hr] at hfront
          exact ⟨rest, by rw [Option.some.inj hfront]⟩
      rw [hrest]
      rfl
  have htake : ((front ++ last).reverse.takeWhile (fun c => decide (c ≠ '/'))).reverse = last := by
    rw [List.reverse_append, List.takeWhile_append_of_pos hall, hnone, List.append_nil, List.reverse_reverse]
  have hrest : (front ++ last).take ((front ++ last).length - last.length) = front := by
    rw [List.length_append, Nat.add_sub_cancel, List.take_left]
  simp only [splitParams, htake, hrest]

/-- Splitting a path gives its pieces. -/
lemma splitParams_pieces (path : List Char) : ∃ front segment params, InPieces front segment params ∧
    splitParams path = (front ++ segment, params) ∧ (path.head? = some '/' → front.head? = some '/') := by
  obtain ⟨front, last, rfl, hfront, hlast⟩ : ∃ front last, path = front ++ last ∧
      (front = [] ∨ front.getLast? = some '/') ∧ '/' ∉ last := by
    refine ⟨(path.reverse.dropWhile (· ≠ '/')).reverse, (path.reverse.takeWhile (· ≠ '/')).reverse, ?_, ?_, ?_⟩
    · rw [← List.reverse_append, List.takeWhile_append_dropWhile, List.reverse_reverse]
    · by_cases hnil : path.reverse.dropWhile (· ≠ '/') = []
      · exact Or.inl (by rw [hnil]; rfl)
      · refine Or.inr ?_
        have hhead := List.head_dropWhile_not (fun c => decide (c ≠ '/')) hnil
        rw [List.getLast?_reverse, List.head?_eq_some_head hnil]
        simpa using hhead
    · intro hmem
      simpa using List.mem_takeWhile_imp (List.mem_reverse.1 hmem)
  obtain ⟨hsegment, hparams⟩ := cut_subset ';' last
  refine ⟨front, (cut ';' last).1, (cut ';' last).2, ⟨hfront, fun h => hlast (hsegment h), not_mem_cut ';' last,
    fun h => hlast (hparams h)⟩, splitParams_append hfront hlast, fun hhead => ?_⟩
  cases front with
  | nil =>
    -- the whole path would be its last segment, in which there is no slash
    exact absurd (List.mem_of_mem_head? hhead) hlast
  | cons c front => exact hhead

lemma InPieces.splitParams_marked {front segment params : List Char} (h : InPieces front segment params) :
    splitParams (front ++ segment ++ marked ';' params) = (front ++ segment, params) := by
  have hlast : '/' ∉ segment ++ marked ';' params := by
    simp [h.slash, not_mem_marked (show '/' ≠ ';' by decide) h.params]
  rw [List.append_assoc, splitParams_append h.front hlast, cut_marked h.semicolon]

/-! ### Web addresses -/

/-- What follows the host of a URL that is put together. -/
def tailOf (u : Url) : List Char := u.path ++ marked ';' u.params ++ marked '?' u.query ++ marked '#' u.fragment

/-- **The parts behind a host**, as they come of splitting: the path is empty or begins with a slash, and no part has a sign
that would end it. -/
structure IsTailed (u : Url) : Prop where
  pieces : ∃ front segment, InPieces front segment u.params ∧ u.path = front ++ segment
  rooted : u.path = [] ∧ u.params = [] ∨ u.path.head? = some '/'
  path : '?' ∉ u.path ∧ '#' ∉ u.path
  params : '?' ∉ u.params ∧ '#' ∉ u.params
  query : '#' ∉ u.query

lemma isTailed_assembled {scheme : List Char} (hscheme : isAmong scheme paramSchemes = true) (host : List Char)
    {tail : List Char} (htail : ∀ c, tail.head? = some c → endsHost c = true) : (assembled scheme host tail).IsTailed := by
  simp only [assembled, hscheme, if_true]
  generalize hrest : (cut '?' (cut '#' tail).1).1 = rest
  -- what is left for the path has neither sign, and begins where the tail does
  have hquestion : '?' ∉ rest := hrest ▸ not_mem_cut '?' _
  have hhash : '#' ∉ rest := fun h => not_mem_cut '#' tail ((cut_subset '?' _).1 (hrest ▸ h))
  have hquery : '#' ∉ (cut '?' (cut '#' tail).1).2 := fun h => not_mem_cut '#' tail ((cut_subset '?' _).2 h)
  have hhead : rest = [] ∨ rest.head? = some '/' := by
    cases rest with
    | nil => exact Or.inl rfl
    | cons c rest =>
      have hcut : ∀ (d : Char) {cs : List Char}, (cut d cs).1.head? = some c → cs.head? = some c := by
        intro d cs h
        obtain ⟨hcs, -⟩ | hcs := cut_cases d cs
        · rw [hcs]
          exact h
        · rw [hcs, List.head?_append, h]
          rfl
      have hends := htail c (hcut '#' (hcut '?' (by rw [hrest]; rfl)))
      have hne : c ≠ '?' ∧ c ≠ '#' := ⟨fun e => hquestion (by simp [e]), fun e => hhash (by simp [e])⟩
      simpa [endsHost, hne.1, hne.2] using hends
  obtain ⟨front, segment, params, hpieces, hsplit, hfront⟩ := splitParams_pieces rest
  obtain ⟨hpath, hparams⟩ := splitParams_subset rest
  rw [hsplit] at hpath hparams ⊢
  refine ⟨⟨front, segment, hpieces, rfl⟩, ?_, ⟨fun h => hquestion (hpath h), fun h => hhash (hpath h)⟩,
    ⟨fun h => hquestion (hparams h), fun h => hhash (hparams h)⟩, hquery⟩
  rcases hhead with rfl | hhead
  · exact Or.inl ⟨List.subset_nil.1 hpath, List.subset_nil.1 hparams⟩
  · refine Or.inr ?_
    dsimp only
    rw [List.head?_append, hfront hhead]
    rfl

/-- The parts behind a host are found again. -/
lemma IsTailed.assembled_tailOf {u : Url} (h : u.IsTailed) (hscheme : isAmong u.scheme paramSchemes = true) :
    assembled u.scheme u.host u.tailOf = u := by
  obtain ⟨front, segment, hpieces, hpath⟩ := h.pieces
  have hquestion : '?' ∉ u.path ++ marked ';' u.params := by
    simp [h.path.1, not_mem_marked (show '?' ≠ ';' by decide) h.params.1]
  have hhash : '#' ∉ u.path ++ marked ';' u.params ++ marked '?' u.query := by
    simp [h.path.2, not_mem_marked (show '#' ≠ ';' by decide) h.params.2, not_mem_marked (show '#' ≠ '?' by decide) h.query]
  have hparams : splitParams (u.path ++ marked ';' u.params) = (u.path, u.params) := by
    rw [hpath]
    exact hpieces.splitParams_marked
  simp only [assembled, tailOf, cut_marked hhash, cut_marked hquestion, hscheme, if_true, hparams]

lemma IsTailed.head {u : Url} (h : u.IsTailed) {c : Char} (hc : u.tailOf.head? = some c) : endsHost c = true := by
  unfold tailOf at hc
  rcases h.rooted with ⟨hpath, hparams⟩ | hpath
  · have hnil : marked ';' [] = [] := rfl
    rw [hpath, hparams, hnil, List.nil_append, List.nil_append] at hc
    unfold marked at hc
    split_ifs at hc
    · cases hc
    · cases hc
      rfl
    · cases hc
      rfl
    · cases hc
      rfl
  · rw [List.head?_append, List.head?_append, List.head?_append, hpath] at hc
    cases hc
    rfl

/-- A URL with a host and a path that is empty or begins with a slash is put together as it stands. -/
lemma IsTailed.unsplit_eq {u : Url} (h : u.IsTailed) (hs : u.scheme ≠ []) (hh : u.host ≠ []) :
    u.unsplit = u.scheme ++ ':' :: '/' :: '/' :: (u.host ++ u.tailOf) := by
  have hslash : (u.path ++ marked ';' u.params ≠ [] && (u.path ++ marked ';' u.params).head? ≠ some '/') = false := by
    rcases h.rooted with ⟨hpath, hparams⟩ | hpath
    · rw [hpath, hparams]
      rfl
    · simp [List.head?_append, hpath]
  rw [unsplit, if_neg hs, authority, if_pos (by simp [hh]), hslash]
  simp [tailOf]

lemma isTidy_cleaned (cs : List Char) : IsTidy (cleaned cs) := by
  intro c hc
  simpa using List.of_mem_filter hc

lemma IsTidy.marked {cs : List Char} (h : IsTidy cs) {mark : Char} (hm : mark ∈ [';', '?', '#']) :
    IsTidy (marked mark cs) := by
  have hmark : ∀ m ∈ [';', '?', '#'], (m = '\t' || m = '\r' || m = '\n') = false := by simp
  intro c hc
  unfold Url.marked at hc
  split_ifs at hc
  · cases hc
  · rcases List.mem_cons.1 hc with rfl | hc
    · exact hmark c hm
    · exact h c hc

/-- No part has a tab or a line end that was not in the text. -/
lemma isTidy_tailOf (scheme host : List Char) {tail : List Char} (h : IsTidy tail) :
    IsTidy (assembled scheme host tail).tailOf := by
  obtain ⟨hfront, hfragment⟩ := cut_subset '#' tail
  obtain ⟨hrest, hquery⟩ := cut_subset '?' (cut '#' tail).1
  have hparts : (assembled scheme host tail).path ⊆ tail ∧ (assembled scheme host tail).params ⊆ tail := by
    unfold assembled
    dsimp only
    split_ifs
    · obtain ⟨hpath, hparams⟩ := splitParams_subset (cut '?' (cut '#' tail).1).1
      exact ⟨List.Subset.trans hpath (List.Subset.trans hrest hfront), List.Subset.trans hparams (List.Subset.trans hrest hfront)⟩
    · exact ⟨List.Subset.trans hrest hfront, List.nil_subset _⟩
  have hmark : ∀ {mark : Char} {part : List Char}, mark ∈ [';', '?', '#'] → part ⊆ tail → IsTidy (marked mark part) :=
    fun hm hpart => IsTidy.marked (fun c hc => h c (hpart hc)) hm
  intro c hc
  simp only [tailOf, List.mem_append] at hc
  rcases hc with ((hc | hc) | hc) | hc
  · exact h c (hparts.1 hc)
  · exact hmark (by simp) hparts.2 c hc
  · exact hmark (by simp) (List.Subset.trans hquery hfront) c hc
  · exact hmark (by simp) hfragment c hc

/-- What is known of the parts of a web address. -/
structure OnWeb (u : Url) : Prop where
  host : u.host ≠ []
  scheme : u.scheme ≠ []
  relative : isAmong u.scheme relativeSchemes = true
  params : isAmong u.scheme paramSchemes = true
  lower : u.scheme.map (·.toLower) = u.scheme

lemma onWeb_of_isWeb {cs : List Char} (h : isWeb cs = true) : ∃ u, split [] cs = .ok u ∧ u.OnWeb := by
  cases hu : split [] cs with
  | error e => simp [isWeb, hu] at h
  | ok u =>
    simp only [isWeb, hu, Bool.and_eq_true, Bool.or_eq_true, decide_eq_true_eq] at h
    obtain ⟨hs, hh⟩ := h
    refine ⟨u, rfl, hh, ?_, ?_, ?_, ?_⟩
    all_goals rcases hs with hs | hs <;> rw [hs] <;> decide

/-- **A web address is split into the parts that it was put together from.** -/
theorem split_unsplit {cs : List Char} {u : Url} (h : split [] cs = .ok u) (hw : u.OnWeb) : split [] u.unsplit = .ok u := by
  obtain ⟨hscheme, -⟩ := isScheme_relative hw.relative hw.scheme
  obtain ⟨front, host, tail, hshape, hu⟩ := shape_of_split h hw.scheme hw.host
  have hhost : u.host = host := by rw [hu]; rfl
  have htailed : u.IsTailed := by
    have hparams := hw.params
    rw [hu] at hparams ⊢
    exact isTailed_assembled hparams host hshape.behind
  have htidy : IsTidy ('/' :: '/' :: (u.host ++ u.tailOf)) := by
    have htext : IsTidy (front ++ ':' :: '/' :: '/' :: (host ++ tail)) := hshape.text ▸ isTidy_cleaned cs
    have htail : IsTidy tail := fun c hc => htext c (by simp [hc])
    intro c hc
    simp only [List.mem_cons, List.mem_append, hhost] at hc
    rcases hc with hc | hc | hc | hc
    · exact htext c (by simp [hc])
    · exact htext c (by simp [hc])
    · exact htext c (by simp [hc])
    · exact isTidy_tailOf _ host htail c (hu ▸ hc)
  have hagain : Shape u.unsplit u.scheme u.host u.tailOf := by
    refine ⟨?_, hscheme.colon, hscheme.alpha, hscheme.all, hhost ▸ hshape.inside, fun c => htailed.head, hhost ▸ hshape.named⟩
    rw [htailed.unsplit_eq hw.scheme hw.host, cleaned_front hw.scheme hscheme.clean, IsTidy.filter_eq]
    intro c hc
    rcases List.mem_cons.1 hc with rfl | hc
    · decide
    · exact htidy c hc
  rw [split_of_shape hagain, hw.lower, htailed.assembled_tailOf hw.params]

/-- Of a base, joining sees the parts. -/
lemma join_congr {b b' : List Char} {u : Url} (hb : b ≠ []) (hb' : b' ≠ []) (h : split [] b = .ok u) (h' : split [] b' = .ok u)
    {cs : List Char} (hcs : cs ≠ []) : join b cs = join b' cs := by
  simp only [join, if_neg hb, if_neg hb', if_neg hcs, h, h']

/-- Joined to any URL, a web address stays as it is or is put together anew; either way its parts stay. -/
lemma join_onWeb {b p : List Char} {u v : Url} (hv : split [] b = .ok v) (hu : split [] p = .ok u) (hw : u.OnWeb) :
    ∃ b', join b p = .ok b' ∧ b' ≠ [] ∧ split [] b' = .ok u := by
  have hne : ∀ {cs}, split [] cs = .ok u → cs ≠ [] := by
    rintro cs hcs rfl
    cases hcs
    exact hw.scheme rfl
  by_cases hb : b = []
  · exact ⟨p, by rw [join, if_pos hb], hne hu, hu⟩
  · rw [join_of_split hb (hne hu) hv (split_of_scheme hu hw.scheme _), resolve_of_host hw.relative hw.host]
    split_ifs
    · exact ⟨p, rfl, hne hu, hu⟩
    · exact ⟨u.unsplit, rfl, hne (split_unsplit hu hw), split_unsplit hu hw⟩

end Url

namespace Address

/-! ### Enclosing ids -/

/-- Of the enclosing ids, a text sees what it is joined to. -/
lemma within_of_bases {ps qs : List String} {b b' : List Char} (hb : base [] ps = .ok b) (hb' : base [] qs = .ok b')
    (hne : b ≠ []) (hne' : b' ≠ []) {text : String} (hj : Url.join b text.toList = Url.join b' text.toList) :
    within text ps = within text qs := by
  cases b with
  | nil => exact absurd rfl hne
  | cons c cs =>
    cases b' with
    | nil => exact absurd rfl hne'
    | cons c' cs' => simp only [within, hb, hb', hj]

lemma base_of_join {b b' : List Char} {p : String} (hp : p ≠ "") (h : Url.join b p.toList = .ok b') : base b [p] = .ok b' := by
  simp only [base, if_neg hp, h]

/-- Where the enclosing ids join to a text that is no URL, nothing can be read inside any further id. -/
lemma base_of_unreadable {b : List Char} {p : String} (hp : p ≠ "") {e : Url.Fault} (h : Url.split [] b = .error e) :
    base b [p] = .error .badUrl := by
  have hb : b ≠ [] := by
    rintro rfl
    cases h
  have hp' : p.toList ≠ [] := fun hnil => hp (String.toList_inj.1 hnil)
  have hj : Url.join b p.toList = .error e := by
    rw [Url.join, if_neg hb, if_neg hp', h]
    rfl
  simp only [base, if_neg hp, hj]

/-- **The nearest id decides.** Inside a web address a text means the same whatever is around the address, as long as that
can be read as a URL; if it cannot, no text means anything there. -/
theorem within_nearest {ps : List String} {p x : String} {b : List Char} (hb : base [] ps = .ok b)
    (hp : Url.isWeb p.toList = true) (hx : x ≠ "") :
    ((∃ v, Url.split [] b = .ok v) → within x (ps ++ [p]) = within x [p]) ∧
    ((¬ ∃ v, Url.split [] b = .ok v) → within x (ps ++ [p]) = .error .badUrl) := by
  obtain ⟨u, hu, hweb⟩ := Url.onWeb_of_isWeb hp
  have hone : Url.join [] p.toList = .ok p.toList := by rw [Url.join, if_pos rfl]
  have hpne : p ≠ "" := by
    rintro rfl
    cases hu
    exact hweb.scheme rfl
  have hxne : x.toList ≠ [] := fun hnil => hx (String.toList_inj.1 hnil)
  have hbase : base [] (ps ++ [p]) = base b [p] := by
    rw [base_append, hb]
    rfl
  refine ⟨?_, fun hbad => ?_⟩
  · rintro ⟨v, hv⟩
    obtain ⟨b', hb', hne', hsplit⟩ := Url.join_onWeb hv hu hweb
    have hpne' : p.toList ≠ [] := fun hnil => hpne (String.toList_inj.1 hnil)
    exact within_of_bases (hbase.trans (base_of_join hpne hb')) (base_of_join hpne hone) hne' hpne'
      (Url.join_congr hne' hpne' hsplit hu hxne)
  · cases hv : Url.split [] b with
    | ok v => exact absurd ⟨v, hv⟩ hbad
    | error e => simp only [within, hbase, base_of_unreadable hpne hv]

/-- The nearest id among four: it is put together anew, in lower case, and the text is resolved against its path. -/
theorem within_nearest_anew :
    base [] ["http://a/b/c", "d;e/f?g", ""] = .ok "http://a/b/d;e/f?g".toList ∧ Url.isWeb " HTTP://h/x;y/z;w?q#f".toList = true ∧
    Url.join "http://a/b/d;e/f?g".toList " HTTP://h/x;y/z;w?q#f".toList = .ok "http://h/x;y/z;w?q#f".toList ∧
    within "../v;p" (["http://a/b/c", "d;e/f?g", ""] ++ [" HTTP://h/x;y/z;w?q#f"]) = within "../v;p" [" HTTP://h/x;y/z;w?q#f"] ∧
    within "../v;p" [" HTTP://h/x;y/z;w?q#f"] = .ok ⟨"http://h/v;p#"⟩ := by
  have hb : base [] ["http://a/b/c", "d;e/f?g", ""] = .ok "http://a/b/d;e/f?g".toList := ok_of_toOption (by decide +kernel)
  have hweb : Url.isWeb " HTTP://h/x;y/z;w?q#f".toList = true := by decide +kernel
  have hread : Url.isWeb "http://a/b/d;e/f?g".toList = true := by decide +kernel
  obtain ⟨v, hv, -⟩ := Url.onWeb_of_isWeb hread
  exact ⟨hb, hweb, ok_of_toOption (by decide +kernel), (within_nearest hb hweb (by decide)).1 ⟨v, hv⟩,
    ok_of_toOption (by decide +kernel)⟩

/-- The outer id joins to itself without being read, and nothing can be joined to it. -/
theorem within_unreadable : base [] ["http://[x"] = .ok "http://[x".toList ∧ Url.isWeb "http://h/d".toList = true ∧
    within "y" (["http://[x"] ++ ["http://h/d"]) = .error .badUrl ∧ within "y" ["http://h/d"] = .ok ⟨"http://h/y#"⟩ := by
  refine ⟨ok_of_toOption (by decide +kernel), by decide +kernel, ?_, ok_of_toOption (by decide +kernel)⟩
  have hnone : (within "y" (["http://[x"] ++ ["http://h/d"])).toOption = none := by decide +kernel
  cases hw : within "y" (["http://[x"] ++ ["http://h/d"]) with
  | ok a =>
    rw [hw] at hnone
    cases hnone
  | error f => rw [within_error hw]

/-! ### Keys -/

lemma ofText_of_isCanonical {a : Address} (h : IsCanonical a.text) : ofText a.text = a := by
  cases a
  exact congrArg Address.mk h

/-- Fragments have one spelling exactly if they say the same. -/
lemma canonicalFragment_inj {f g : List Char} :
    Pointer.canonicalFragment f = Pointer.canonicalFragment g ↔ Text.Percent.decode f = Text.Percent.decode g := by
  constructor
  · intro h
    have hd := congrArg Text.Percent.decode h
    rwa [Pointer.canonicalFragment, Pointer.canonicalFragment, Text.Percent.decode_encode Pointer.percent_not_mem_safe,
      Text.Percent.decode_encode Pointer.percent_not_mem_safe] at hd
  · intro h
    rw [Pointer.canonicalFragment, Pointer.canonicalFragment, h]

/-- What is registered under the text of an address is what the address is resolved to. -/
lemma targets_registered {a : Address} (h : IsCanonical a.text) {r : Registry} {s : Schema Node}
    (hs : r.schemas.get? a.text = some s) :
    Resolution.targets [a.text] r = .ok ⟨[], []⟩ { r with references := r.references.set a.text (some s) } := by
  have htarget : Resolution.target (ofText a.text) r = .ok s r := by
    have hget : (get : Action Registry) r = .ok r r := rfl
    rw [ofText_of_isCanonical h, Resolution.target, bind_of_ok hget]
    simp only [hs]
    rfl
  rw [Resolution.targets]
  refine (bind_of_ok (a := none) ?_).trans rfl
  simp only [htarget]

/-- **Addresses are in their one form**: read as texts they are themselves. So in every registry the schema under the text of
an address is the one that the text leads to, and the one that resolution takes for the address when it has the text alone;
and nothing is found where nothing is stored under this text. Fragments have the same form exactly if they say the same. -/
theorem within_key {text : String} {parents : List String} {a : Address} (h : within text parents = .ok a) :
    within a.text [] = .ok a ∧
    (∀ (r : Registry) s, r.schemas.get? a.text = some s → r.dereference a.text = .ok s ∧
      Resolution.targets [a.text] r = .ok ⟨[], []⟩ { r with references := r.references.set a.text (some s) }) ∧
    (∀ r : Registry, r.lookup? a.text = none → r.dereference a.text = .error (.reference a.text .unregistered)) ∧
    ∀ f g, (Pointer.canonicalFragment f = Pointer.canonicalFragment g ↔ Text.Percent.decode f = Text.Percent.decode g) ∧
      Pointer.canonicalFragment (Pointer.canonicalFragment f) = Pointer.canonicalFragment f := by
  have hcanonical : IsCanonical a.text := isCanonical_within h
  have hself : ofText a.text = a := ofText_of_isCanonical hcanonical
  refine ⟨congrArg Except.ok hself, fun r s hs => ⟨?_, targets_registered hcanonical hs⟩, fun r hnone => ?_, fun f g =>
    ⟨canonicalFragment_inj, Pointer.canonicalFragment_idem f⟩⟩
  · simp only [Registry.dereference, hself, Registry.lookup?, hs, Option.some_or]
  · simp only [Registry.dereference, hself, hnone]

/-- A reference with malformed escapes, octets that are no text and letters beyond the first ones. -/
theorem within_key_malformed :
    within "../d#/é%C3%28%zz%2" ["http://h/a/b", "c/d"] = .ok ⟨"http://h/a/d#/%C3%A9%EF%BF%BD(%25zz%252"⟩ ∧
    within "http://h/a/d#/%C3%A9%EF%BF%BD(%25zz%252" [] = .ok ⟨"http://h/a/d#/%C3%A9%EF%BF%BD(%25zz%252"⟩ ∧
    (∀ (r : Registry) s, r.schemas.get? "http://h/a/d#/%C3%A9%EF%BF%BD(%25zz%252" = some s →
      r.dereference "http://h/a/d#/%C3%A9%EF%BF%BD(%25zz%252" = .ok s) ∧
    Pointer.canonicalFragment "/é%C3%28%zz%2".toList = Pointer.canonicalFragment "/%c3%a9%ff(%25zz%252".toList := by
  have h : within "../d#/é%C3%28%zz%2" ["http://h/a/b", "c/d"] = .ok ⟨"http://h/a/d#/%C3%A9%EF%BF%BD(%25zz%252"⟩ :=
    ok_of_toOption (by decide +kernel)
  obtain ⟨hself, hstored, -, hfragments⟩ := within_key h
  exact ⟨h, hself, fun r s hs => (hstored r s hs).1, (hfragments _ _).1.2 (by decide +kernel)⟩

end Address

end Typings
