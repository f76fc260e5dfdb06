import Typings.Resolution
import Typings.Proofs.Closure
import Typings.Proofs.Node
import Typings.Proofs.Url

/-!
Documents that refer to each other by pointers. Such documents have homes of their own, no part of them declares an id, and
every reference is a pointer into one of them. Main statements:

- `World.within_meaning`: a reference means one address, whichever schema the walk that meets it began with.
- `World.walk_followed`: a walk through what a pointer leads to writes these meanings, reports them, and does nothing else;
  and where it writes, whatever whole documents pass on holds (`World.Inherited`).
-/

namespace Typings

open Address (IsHome locator)

/-- A document with its home, the text before the number sign in its address. -/
structure Site where
  /-- The home. -/
  home : String
  /-- The dialect. -/
  dialect : Dialect
  /-- The content. -/
  node : Node

/-- The text of a reference means a place: a pointer into the document around it, or an address on the web. -/
def Site.Means (d : Site) (text : String) (target : Site) (tokens : List String) : Prop :=
  text = "#" ++ Pointer.fragment tokens ∧ target = d ∨
    text = locator target.home tokens ∧ Url.IsHome target.home.toList

/-- **Documents that refer to each other by pointers alone.** -/
structure World where
  /-- The documents. -/
  sites : List Site
  /-- Parts with one mark are one part. -/
  marks : ∀ d ∈ sites, ∀ d' ∈ sites, ∀ x ∈ d.node.parts, ∀ x' ∈ d'.node.parts, x.mark = x'.mark → d = d' ∧ x = x'
  /-- Documents have homes. -/
  homes : ∀ d ∈ sites, IsHome d.home
  /-- Documents with one home are one document. -/
  distinct : ∀ d ∈ sites, ∀ d' ∈ sites, d.home = d'.home → d = d'
  /-- No inner part declares an id. -/
  ids : ∀ d ∈ sites, ∀ x ∈ d.node.inner, x.declaredId d.dialect = none
  /-- References lead to places that exist. -/
  references : ∀ d ∈ sites, ∀ x ∈ d.node.parts, ∀ text, x.reference? [] = some text →
    ∃ target ∈ sites, ∃ tokens y, d.Means text target tokens ∧ target.node.follow [] tokens = .ok y

namespace World

/-! ### What references mean -/

/-- The address that a reference text means in a document. -/
def meaning (home text : String) : String := if text.toList.head? = some '#' then home ++ text else text

lemma head_ne_hash {home : String} (h : Url.IsHome home.toList) (tokens : List String) :
    (locator home tokens).toList.head? ≠ some '#' := by
  rw [Address.toList_locator]
  cases hc : home.toList with
  | nil =>
    have := h.web
    rw [hc] at this
    exact absurd this (by decide)
  | cons c cs =>
    rintro ⟨⟩
    exact h.hash (hc ▸ List.mem_cons_self)

lemma meaning_eq {d target : Site} {text : String} {tokens : List String} (h : d.Means text target tokens) :
    meaning d.home text = locator target.home tokens := by
  rcases h with ⟨rfl, rfl⟩ | ⟨rfl, hweb⟩
  · rw [meaning, if_pos (by simp), locator, String.append_assoc]
  · rw [meaning, if_neg (head_ne_hash hweb tokens)]

/-- **A reference means one address**, as it was written and as it stands, whatever scope of its document it is met in. -/
theorem within_meaning {d target : Site} {text : String} {tokens : List String} (hd : IsHome d.home)
    (h : d.Means text target tokens) {scope : List String} (hs : Address.IsScope d.home scope)
    (hne : d.home = "" ∨ scope ≠ []) :
    Address.within text scope = .ok ⟨meaning d.home text⟩ ∧
      Address.within (meaning d.home text) scope = .ok ⟨meaning d.home text⟩ := by
  rw [meaning_eq h]
  rcases h with ⟨rfl, rfl⟩ | ⟨rfl, hweb⟩
  · refine ⟨Address.within_local hd hs hne tokens, ?_⟩
    rcases hd with hempty | hweb
    · rw [hempty, Address.locator_empty]
      have hlocal := Address.within_local (Or.inl hempty) hs hne tokens
      rwa [hempty, Address.locator_empty] at hlocal
    · exact Address.within_absolute (Or.inr hweb) hs hweb tokens
  · have habsolute := Address.within_absolute hd hs hweb tokens
    exact ⟨habsolute, habsolute⟩

variable (W : World)

/-- The addresses that references mean. -/
def keys : List String :=
  W.sites.flatMap fun d => d.node.parts.filterMap fun x => (x.reference? []).map (meaning d.home)

variable {W} {P : Site → Node → Prop}

lemma mem_keys {d : Site} {x : Node} {text : String} (hd : d ∈ W.sites) (hx : x ∈ d.node.parts)
    (ht : x.reference? [] = some text) : meaning d.home text ∈ W.keys :=
  List.mem_flatMap.2 ⟨d, hd, List.mem_filterMap.2 ⟨x, hx, by rw [ht]; rfl⟩⟩

lemma exists_of_mem_keys {key : String} (h : key ∈ W.keys) :
    ∃ d ∈ W.sites, ∃ tokens y, key = locator d.home tokens ∧ d.node.follow [] tokens = .ok y := by
  obtain ⟨d, hd, h⟩ := List.mem_flatMap.1 h
  obtain ⟨x, hx, h⟩ := List.mem_filterMap.1 h
  obtain ⟨text, ht, rfl⟩ := Option.map_eq_some_iff.1 h
  obtain ⟨target, htarget, tokens, y, hmeans, hy⟩ := W.references d hd x hx text ht
  exact ⟨target, htarget, tokens, y, meaning_eq hmeans, hy⟩

lemma length_keys : W.keys.length ≤ Node.sizeItems (W.sites.map (·.node)) := by
  unfold keys
  generalize W.sites = sites
  induction sites with
  | nil => exact Nat.le_refl _
  | cons d sites ih =>
    have hfilter := List.length_filterMap_le (fun x => (Node.reference? [] x).map (meaning d.home)) d.node.parts
    rw [Node.length_parts] at hfilter
    rw [List.flatMap_cons, List.length_append, List.map_cons, Node.sizeItems]
    omega

/-! ### Walks -/

/-- Current texts are what the references mean. -/
def Good (W : World) (refs : Refs) : Prop :=
  ∀ d ∈ W.sites, ∀ x ∈ d.node.parts, ∀ text, x.reference? [] = some text →
    ∀ current, refs.get? x.mark = some current → current = meaning d.home text

/-- Current texts stay. -/
def Persists (refs refs' : Refs) : Prop := ∀ m text, refs.get? m = some text → refs'.get? m = some text

/-- What a walk does: it writes what references mean and reports that, and nothing else. -/
structure Kept (W : World) (t t' : Discovery.Trail) : Prop where
  good : W.Good t'.refs
  persists : Persists t.refs t'.refs
  found : ∀ f ∈ t'.found, f ∈ t.found ∨ ∃ key ∈ W.keys, f = .reference ⟨key⟩

lemma Kept.refl {t : Discovery.Trail} (h : W.Good t.refs) : Kept W t t := ⟨h, fun _ _ h => h, fun _ h => Or.inl h⟩

lemma Kept.trans {t₁ t₂ t₃ : Discovery.Trail} (h₁ : Kept W t₁ t₂) (h₂ : Kept W t₂ t₃) : Kept W t₁ t₃ := by
  refine ⟨h₂.good, fun m text h => h₂.persists m text (h₁.persists m text h), fun f hf => ?_⟩
  rcases h₂.found f hf with hf | hf
  · exact h₁.found f hf
  · exact Or.inr hf

/-- **A property that is passed on** by whole documents to whatever walks meet: to children, and to objects that references
lead to. -/
structure Inherited (W : World) (P : Site → Node → Prop) : Prop where
  whole : ∀ d ∈ W.sites, P d d.node
  child : ∀ d ∈ W.sites, ∀ x, P d x → ∀ y ∈ Discovery.children d.dialect none x, P d y
  target : ∀ d ∈ W.sites, ∀ x ∈ d.node.parts, P d x → ∀ text, x.reference? [] = some text →
    ∀ target ∈ W.sites, ∀ tokens y, d.Means text target tokens → target.node.follow [] tokens = .ok y →
      y.isObject = true → P target y

/-- The mark of a reference with the property. -/
def Marked (W : World) (P : Site → Node → Prop) (m : ℕ) : Prop :=
  ∃ d ∈ W.sites, ∃ x ∈ d.node.parts, P d x ∧ x.IsReference ∧ x.mark = m

/-- What a walk does: it writes references with the property only, and what it reports stands somewhere. -/
structure Followed (W : World) (P : Site → Node → Prop) (t t' : Discovery.Trail) : Prop extends Kept W t t' where
  marks : ∀ m, t'.refs.has m = true → t.refs.has m = true ∨ W.Marked P m
  backed : ∀ a, Discovery.Found.reference a ∈ t'.found → Discovery.Found.reference a ∈ t.found ∨ ∃ m, t'.refs.get? m = some a.text

lemma Followed.refl {t : Discovery.Trail} (h : W.Good t.refs) : Followed W P t t :=
  ⟨Kept.refl h, fun _ h => Or.inl h, fun _ h => Or.inl h⟩

lemma Followed.trans {t₁ t₂ t₃ : Discovery.Trail} (h₁ : Followed W P t₁ t₂) (h₂ : Followed W P t₂ t₃) : Followed W P t₁ t₃ := by
  refine ⟨h₁.toKept.trans h₂.toKept, fun m hm => ?_, fun a ha => ?_⟩
  · rcases h₂.marks m hm with hm | hm
    · exact h₁.marks m hm
    · exact Or.inr hm
  · rcases h₂.backed a ha with ha | ha
    · refine (h₁.backed a ha).imp_right ?_
      rintro ⟨m, hm⟩
      exact ⟨m, h₂.persists m _ hm⟩
    · exact Or.inr ha

section Walk

variable {d : Site} {scope : List String} (hP : Inherited W P) (hd : d ∈ W.sites) (hs : Address.IsScope d.home scope)
  (hne : d.home = "" ∨ scope ≠ [])
include hd hs hne

lemma canonize_kept {x : Node} (hx : x ∈ d.node.parts) {t : Discovery.Trail} (hgood : W.Good t.refs) :
    Yields (Discovery.canonize x scope) t (fun _ t' => Kept W t t') fun _ _ => False := by
  refine Yields.bind (Yields.of_get ?_)
  cases hr : x.reference? t.refs with
  | none => exact Yields.of_pure (Kept.refl hgood)
  | some current =>
    rw [Node.reference?_eq] at hr
    obtain ⟨text, ht, hcurrent⟩ := Option.map_eq_some_iff.1 hr
    obtain ⟨target, htarget, tokens, y, hmeans, hy⟩ := W.references d hd x hx text ht
    obtain ⟨hwritten, hstanding⟩ := within_meaning (W.homes d hd) hmeans hs hne
    have hwithin : Address.within current scope = .ok ⟨meaning d.home text⟩ := by
      cases hm : t.refs.get? x.mark with
      | none =>
        rw [hm] at hcurrent
        exact hcurrent ▸ hwritten
      | some now =>
        rw [hm] at hcurrent
        rw [← hcurrent, Option.getD_some, hgood d hd x hx text ht now hm]
        exact hstanding
    dsimp only
    rw [hwithin]
    refine Yields.bind (Yields.of_pure (Yields.bind (Yields.of_modify (Yields.of_modify ?_))))
    refine ⟨?_, ?_, ?_⟩
    · intro d' hd' x' hx' text' ht' now hnow
      rw [Table.get?_set] at hnow
      split_ifs at hnow with hmark
      · obtain ⟨rfl, rfl⟩ := W.marks d hd d' hd' x hx x' hx' hmark
        rw [ht] at ht'
        cases ht'
        cases hnow
        rfl
      · exact hgood d' hd' x' hx' text' ht' now hnow
    · intro m now hnow
      rw [Table.get?_set]
      split_ifs with hmark
      · subst hmark
        exact congrArg some (hgood d hd x hx text ht now hnow).symm
      · exact hnow
    · intro f hf
      rcases List.mem_cons.1 hf with rfl | hf
      · exact Or.inr ⟨_, mem_keys hd hx ht, rfl⟩
      · exact Or.inl hf

lemma canonize_followed {x : Node} (hx : x ∈ d.node.parts) (hp : P d x) {t : Discovery.Trail} (hgood : W.Good t.refs) :
    Yields (Discovery.canonize x scope) t (fun _ t' => Followed W P t t') fun _ _ => False := by
  refine ((canonize_kept hd hs hne hx hgood).and (Discovery.canonize_writes x scope t)).mono ?_ fun _ _ h => h.1
  rintro ⟨⟩ t' ⟨hkept, rfl | ⟨href, a, rfl⟩⟩
  · exact Followed.refl hgood
  · refine ⟨hkept, fun m hm => ?_, fun b hb => ?_⟩
    · rcases Table.has_set.1 hm with rfl | hm
      · exact Or.inr ⟨d, hd, x, hx, hp, href, rfl⟩
      · exact Or.inl hm
    · rcases List.mem_cons.1 hb with hb | hb
      · cases hb
        exact Or.inr ⟨x.mark, Table.get?_set_self _ _ _⟩
      · exact Or.inl hb

include hP

lemma run_followed {s : Schema Node} (hdialect : s.dialect = d.dialect) (hopenapi : s.openapi = none)
    {visits : List Discovery.Visit} (hv : ∀ v ∈ visits, v.node ∈ d.node.inner ∧ P d v.node ∧ v.scope = scope) {t : Discovery.Trail}
    (hgood : W.Good t.refs) :
    Yields (Discovery.run s visits) t (fun _ t' => Followed W P t t') fun _ _ => False := by
  -- along the recursion of the walk: there are no ids inside, so that the scope is that of the root all the way
  induction visits using Discovery.run.induct s generalizing t with
  | case1 =>
    rw [Discovery.run]
    exact Yields.of_pure (Followed.refl hgood)
  | case2 visit rest hobj ih =>
    obtain ⟨hinner, hp, rfl⟩ := hv visit List.mem_cons_self
    have henter : Discovery.enter s visit = pure visit.scope := by
      rw [Discovery.enter, hdialect, W.ids d hd visit.node hinner]
    rw [Discovery.run, if_pos hobj, henter]
    refine Yields.bind (Yields.of_pure (Yields.bind ?_))
    refine (canonize_followed hd hs hne (Node.parts_of_inner hinner) hp hgood).mono ?_ fun _ _ h => h
    rintro ⟨⟩ t₁ h₁
    refine (ih visit.scope ?_ h₁.good).mono (fun _ t₂ h₂ => h₁.trans h₂) fun _ _ h => h
    intro v hmem
    rcases List.mem_append.1 hmem with hmem | hmem
    · obtain ⟨child, hchild, rfl⟩ := List.mem_map.1 hmem
      rw [hdialect, hopenapi] at hchild
      exact ⟨Node.inner_trans d.node hinner (Node.inner_of_children hchild), hP.child d hd _ hp _ hchild, rfl⟩
    · exact hv v (List.mem_cons_of_mem _ hmem)
  | case3 visit rest hobj ih =>
    rw [Discovery.run, if_neg hobj]
    exact ih (fun v hmem => hv v (List.mem_cons_of_mem _ hmem)) hgood

end Walk

/-! ### Registered schemas -/

/-- A schema is what the pointer leads to in a document: as it stands, or as it stood before its text was written. -/
structure Holds (refs : Refs) (d : Site) (tokens : List String) (s : Schema Node) : Prop where
  address : s.address.text = locator d.home tokens
  dialect : s.dialect = d.dialect
  openapi : s.openapi = none
  ancestors : ∀ a ∈ s.ancestors, ∃ ts, a.text = locator d.home ts
  stands : d.node.follow refs tokens = .ok s.content ∨ d.node.follow [] tokens = .ok s.content

lemma Holds.scope {refs : Refs} {d : Site} {tokens : List String} {s : Schema Node} (h : Holds refs d tokens s) :
    ∀ p ∈ s.scope, ∃ ts, p = locator d.home ts := by
  intro p hp
  obtain ⟨a, ha, rfl⟩ := List.mem_map.1 hp
  rcases List.mem_append.1 ha with ha | ha
  · exact h.ancestors a ha
  · exact ⟨tokens, List.mem_singleton.1 ha ▸ h.address⟩

lemma Holds.isScope {refs : Refs} {d : Site} {tokens : List String} {s : Schema Node} (h : Holds refs d tokens s) :
    Address.IsScope d.home (Discovery.rootScope s) := by
  intro p hp
  obtain ⟨hp, hne⟩ := List.mem_filter.1 hp
  exact ⟨by simpa using hne, h.scope p hp⟩

lemma Holds.scope_ne_nil {refs : Refs} {d : Site} {tokens : List String} {s : Schema Node} (h : Holds refs d tokens s) :
    d.home = "" ∨ Discovery.rootScope s ≠ [] := by
  by_cases hempty : d.home = ""
  · exact Or.inl hempty
  · right
    apply List.ne_nil_of_mem (a := s.address.text)
    refine List.mem_filter.2 ⟨List.mem_map_of_mem (List.mem_append_right _ (List.mem_singleton_self _)), ?_⟩
    rw [h.address, decide_eq_true_eq]
    exact Address.locator_ne_hash hempty tokens

/-- The content is the same at all times, or it is the text of a `$ref`, as it stands or as it was written. -/
lemma Holds.cases {refs : Refs} {d : Site} {tokens : List String} {s : Schema Node} (h : Holds refs d tokens s) :
    (∀ refs', d.node.follow refs' tokens = .ok s.content) ∨
      ∃ front m n text, tokens = front ++ ["$ref"] ∧
        (∀ refs', d.node.follow refs' tokens = .ok (.atom n (.str ((refs'.get? m).getD text)))) ∧
        (s.content = .atom n (.str ((refs.get? m).getD text)) ∨ s.content = .atom n (.str text)) := by
  rcases Node.follow_cases tokens d.node with hsame | ⟨front, m, fs, n, text, hfront, -, -, htext⟩
  · refine Or.inl fun refs' => ?_
    rcases h.stands with hstands | hraw
    · rw [hsame refs', ← hsame refs, hstands]
    · rw [hsame refs', hraw]
  · refine Or.inr ⟨front, m, n, text, hfront, htext, ?_⟩
    rcases h.stands with hstands | hraw
    · exact Or.inl (Except.ok.inj ((htext refs).symm.trans hstands)).symm
    · exact Or.inr (Except.ok.inj ((htext []).symm.trans hraw)).symm

/-- A content with members is a part of its document. -/
lemma Holds.parts {refs : Refs} {d : Site} {tokens : List String} {s : Schema Node} (h : Holds refs d tokens s)
    (hobj : s.content.isObject = true) : s.content ∈ d.node.parts := by
  rcases h.cases with hsame | ⟨front, m, n, text, -, -, hcontent | hcontent⟩
  · exact Node.parts_of_follow (hsame [])
  · rw [hcontent] at hobj
    cases hobj
  · rw [hcontent] at hobj
    cases hobj

lemma Holds.mono {refs refs' : Refs} {d : Site} {tokens : List String} {s : Schema Node} (h : Holds refs d tokens s)
    (hp : Persists refs refs') : Holds refs' d tokens s := by
  refine ⟨h.address, h.dialect, h.openapi, h.ancestors, ?_⟩
  rcases h.cases with hsame | ⟨front, m, n, text, -, htext, hcontent | hcontent⟩
  · exact Or.inl (hsame refs')
  · rw [htext refs', htext [], hcontent]
    cases hm : refs.get? m with
    | none => exact Or.inr rfl
    | some now =>
      rw [hp m now hm]
      exact Or.inl rfl
  · rw [htext [], hcontent]
    exact Or.inr rfl

/-- The visits of a walk to the children of a schema that is no OpenAPI document. -/
def visits (s : Schema Node) : List Discovery.Visit :=
  (Discovery.children s.dialect s.openapi s.content).map (⟨·, Discovery.rootScope s, false⟩)

/-- A walk of two runs that succeed. -/
lemma walk_eq {s : Schema Node} {refs : Refs} {t t' : Discovery.Trail} (hopenapi : s.openapi = none)
    (hobj : s.content.isObject = true) (hroot : Discovery.canonize s.content (Discovery.rootScope s) ⟨refs, []⟩ = .ok () t)
    (hrun : Discovery.run s (visits s) t = .ok () t') (next : ℕ) :
    Discovery.walk s refs next = ⟨t'.refs, next, t'.found.reverse, none⟩ := by
  have hnot : ¬ s.openapi = some .v3 := by
    rw [hopenapi]
    decide
  unfold visits at hrun
  unfold Discovery.walk
  simp only [hobj, EStateM.run, hroot, if_neg hnot, List.map_nil, List.nil_append, hrun]
  rfl

theorem walk_followed (hP : Inherited W P) {refs : Refs} {d : Site} {tokens : List String} {s : Schema Node}
    (hd : d ∈ W.sites) (h : Holds refs d tokens s) (hp : s.content.isObject = true → P d s.content) (hgood : W.Good refs)
    (next : ℕ) :
    ∃ refs' found, Discovery.walk s refs next = ⟨refs', next, found, none⟩ ∧ Followed W P ⟨refs, []⟩ ⟨refs', found⟩ := by
  cases hobj : s.content.isObject with
  | false =>
    refine ⟨refs, [], ?_, Followed.refl hgood⟩
    unfold Discovery.walk
    simp only [hobj]
    rfl
  | true =>
    have hparts := h.parts hobj
    have hroot : Yields _ (⟨refs, []⟩ : Discovery.Trail) _ _ :=
      canonize_followed hd h.isScope h.scope_ne_nil hparts (hp hobj) hgood
    obtain ⟨_, t, hrun, hfirst⟩ := hroot.exists_ok
    have hvisits : ∀ v ∈ visits s, v.node ∈ d.node.inner ∧ P d v.node ∧ v.scope = Discovery.rootScope s := by
      intro v hv
      obtain ⟨child, hchild, rfl⟩ := List.mem_map.1 hv
      rw [h.dialect, h.openapi] at hchild
      exact ⟨Node.inner_of_parts hparts (Node.inner_of_children hchild), hP.child d hd _ (hp hobj) _ hchild, rfl⟩
    obtain ⟨_, t', hrun', hrest⟩ :=
      (run_followed hP hd h.isScope h.scope_ne_nil h.dialect h.openapi hvisits hfirst.good).exists_ok
    have hall := hfirst.trans hrest
    refine ⟨t'.refs, t'.found.reverse, walk_eq h.openapi hobj hrun hrun' next, ⟨hall.good, hall.persists, ?_⟩, hall.marks, ?_⟩
    · exact fun f hf => hall.found f (List.mem_reverse.1 hf)
    · exact fun a ha => hall.backed a (List.mem_reverse.1 ha)

theorem walk_kept {refs : Refs} {d : Site} {tokens : List String} {s : Schema Node} (hd : d ∈ W.sites)
    (h : Holds refs d tokens s) (hgood : W.Good refs) (next : ℕ) :
    ∃ refs' found, Discovery.walk s refs next = ⟨refs', next, found, none⟩ ∧ Kept W ⟨refs, []⟩ ⟨refs', found⟩ := by
  have hP : Inherited W fun _ _ => True :=
    ⟨fun _ _ => trivial, fun _ _ _ _ _ _ => trivial, fun _ _ _ _ _ _ _ _ _ _ _ _ _ _ => trivial⟩
  obtain ⟨refs', found, hwalk, hfollowed⟩ := walk_followed hP hd h (fun _ => trivial) hgood next
  exact ⟨refs', found, hwalk, hfollowed.toKept⟩

end World

end Typings
