import Typings.Proofs.Rounds

/-!
Resolution is navigation. For plain documents (`Plain`), taken in and registered in any order, resolution ends well
whatever refers to what, asks for no document, and gives every reference the value that its pointer leads to in the
document it names: `resolve_navigates`. There is one exception. A pointer may lead to the text of a `$ref`, and a text that
was taken out of a document does not follow when the reference is written anew: `resolve_keeps_text`.
-/

namespace Typings

open Address (IsHome locator)
open Node (label)

/-! ### Plain documents -/

/-- The dialect that a document is recognised to have. -/
def dialectOf (v : Json) : Dialect :=
  match Document.recognise (Node.ofJson v) with
  | .ok r => r.dialect
  | .error _ => .draft04

/-- The home of a document: its id, nothing if it has none. -/
def homeOf (v : Json) : String := (v.declaredId (dialectOf v)).getD ""

/-- **Plain documents**: no OpenAPI documents, with homes of their own on the web (one may have none), no ids inside, and
with references that are pointers to places that exist. -/
structure Plain (documents : List Json) : Prop where
  recognised : ∀ v ∈ documents, Document.recognise (Node.ofJson v) = .ok ⟨dialectOf v, none, []⟩
  homes : ∀ v ∈ documents, IsHome (homeOf v)
  distinct : (documents.map homeOf).Nodup
  ids : ∀ v ∈ documents, ∀ w ∈ v.inner, w.declaredId (dialectOf v) = none
  references : ∀ v ∈ documents, ∀ w ∈ v.parts, ∀ text, w.get? "$ref" = some (.str text) →
    ∃ target ∈ documents, ∃ tokens y, Pointer.follow tokens target = .ok y ∧
      (text = "#" ++ Pointer.fragment tokens ∧ target = v ∨
        text = homeOf target ++ "#" ++ Pointer.fragment tokens ∧ homeOf target ≠ "")

/-- A document as a site, marked from `next` on. -/
def siteOf (next : ℕ) (v : Json) : Site := ⟨homeOf v, dialectOf v, (label next v).1⟩

/-- Documents as sites, marked one after the other. -/
def layout (next : ℕ) : List Json → List Site
  | [] => []
  | v :: rest => siteOf next v :: layout (label next v).2 rest

lemma mem_layout {next : ℕ} {documents : List Json} {d : Site} (h : d ∈ layout next documents) :
    ∃ v ∈ documents, ∃ n, d = siteOf n v := by
  induction documents generalizing next with
  | nil => cases h
  | cons v rest ih =>
    rcases List.mem_cons.1 h with rfl | h
    · exact ⟨v, List.mem_cons_self, next, rfl⟩
    · obtain ⟨w, hw, hd⟩ := ih h
      exact ⟨w, List.mem_cons_of_mem _ hw, hd⟩

lemma exists_layout (next : ℕ) {documents : List Json} {v : Json} (h : v ∈ documents) :
    ∃ n, siteOf n v ∈ layout next documents := by
  induction documents generalizing next with
  | nil => cases h
  | cons w rest ih =>
    rcases List.mem_cons.1 h with rfl | h
    · exact ⟨next, List.mem_cons_self⟩
    · obtain ⟨n, hn⟩ := ih (label next w).2 h
      exact ⟨n, List.mem_cons_of_mem _ hn⟩

lemma homes_layout (next : ℕ) (documents : List Json) : (layout next documents).map (·.home) = documents.map homeOf := by
  induction documents generalizing next with
  | nil => rfl
  | cons v rest ih =>
    rw [layout, List.map_cons, List.map_cons, ih]
    rfl

/-- The marks of a layout follow each other. -/
lemma marks_layout (next : ℕ) (documents : List Json) :
    (layout next documents).flatMap (fun d => d.node.parts.map Node.mark) =
      List.range' next (Json.sizeItems documents) := by
  induction documents generalizing next with
  | nil => rfl
  | cons v rest ih =>
    rw [layout, List.flatMap_cons, ih, siteOf, Node.marks_label, Node.label_next, Json.sizeItems, ← List.range'_append_1]

/-! ### Marks do not matter -/

lemma get?_fields (node : Node) (key : String) : node.fields.get? key = node.get? [] key := by
  rcases node with ⟨m, a⟩ | ⟨m, xs⟩ | ⟨m, fs⟩
  · rfl
  · rfl
  · have hcurrent : Node.current [] m key = id := funext (Node.current_nil m key)
    rw [Node.get?, hcurrent, Option.map_id]
    rfl

/-- The text under a key is that of the value. -/
lemma text_read (x : Node) (key : String) :
    (x.fields.get? key).bind (·.str?) = ((x.read []).get? key).bind (·.str?) := by
  rw [get?_fields, Node.get?_read]
  cases x.get? [] key with
  | none => rfl
  | some y => exact (Node.str?_read [] y).symm

lemma declaredId_read (x : Node) (dialect : Dialect) : x.declaredId dialect = (x.read []).declaredId dialect := by
  rw [Node.declaredId, Json.declaredId, text_read]

lemma reference?_read (x : Node) : x.reference? [] = ((x.read []).get? "$ref").bind (·.str?) := by
  rw [← text_read, get?_fields]
  rfl

lemma str?_eq_some {v : Json} {text : String} (h : v.str? = some text) : v = .str text := by
  cases v with
  | str s => exact congrArg _ (Option.some.inj h)
  | _ => cases h

/-- Which plain document it is shows in its value. -/
lemma recognise_of_read {x y : Node} (hread : x.read [] = y.read []) {dialect : Dialect}
    (h : Document.recognise x = .ok ⟨dialect, none, []⟩) : Document.recognise y = .ok ⟨dialect, none, []⟩ := by
  have htext : ∀ key, (Document.member y key).bind (·.str?) = (Document.member x key).bind (·.str?) := fun key => by
    rw [Document.member, Document.member, text_read, text_read, hread]
  -- without a draft, the other keywords must not make it an OpenAPI document
  have hother : ∀ {p q : Prop} [Decidable p] [Decidable q] {a a' b b' c : Document.Recognised},
      a.openapi ≠ none → b.openapi ≠ none →
      (if p then pure a else if q then pure b else pure c : Except Failure _) = .ok ⟨dialect, none, []⟩ →
      (if p then pure a' else if q then pure b' else pure c : Except Failure _) = .ok ⟨dialect, none, []⟩ := by
    intro p q _ _ a a' b b' c ha hb heq
    split_ifs at heq ⊢
    · exact absurd (congrArg Document.Recognised.openapi (Except.ok.inj heq)) ha
    · exact absurd (congrArg Document.Recognised.openapi (Except.ok.inj heq)) hb
    · exact heq
  unfold Document.recognise at h ⊢
  rw [htext, htext, htext]
  cases hschema : (Document.member x "$schema").bind (·.str?) with
  | none =>
    rw [hschema] at h
    exact hother (by simp) (by simp) h
  | some schema =>
    rw [hschema] at h
    obtain ⟨draft, hdraft, h⟩ := bind_eq_ok.1 h
    refine bind_eq_ok.2 ⟨draft, hdraft, ?_⟩
    cases draft with
    | none => exact hother (by simp) (by simp) h
    | some dialect' => exact h

namespace Plain

variable {documents : List Json}

/-- Parts of plain documents are told apart by their marks. -/
lemma marks_inj (next : ℕ) {d d' : Site} (hd : d ∈ layout next documents) (hd' : d' ∈ layout next documents) {x x' : Node}
    (hx : x ∈ d.node.parts) (hx' : x' ∈ d'.node.parts) (hmark : x.mark = x'.mark) : d = d' ∧ x = x' := by
  have hnodup : (((layout next documents).flatMap fun d => d.node.parts.map (Prod.mk d)).map fun p => p.2.mark).Nodup := by
    rw [List.map_flatMap]
    simp only [List.map_map]
    have hmarks := marks_layout next documents
    exact hmarks ▸ List.nodup_range'
  have hmem : ∀ {d : Site} {x : Node}, d ∈ layout next documents → x ∈ d.node.parts →
      (d, x) ∈ (layout next documents).flatMap fun d => d.node.parts.map (Prod.mk d) := fun hd hx =>
    List.mem_flatMap.2 ⟨_, hd, List.mem_map_of_mem hx⟩
  exact Prod.mk.inj (List.inj_on_of_nodup_map hnodup (hmem hd hx) (hmem hd' hx') hmark)

/-- **The world of plain documents.** -/
def world (h : Plain documents) : World where
  sites := layout 0 documents
  marks _ hd _ hd' _ hx _ hx' := marks_inj 0 hd hd' hx hx'
  homes := by
    intro d hd
    obtain ⟨v, hv, n, rfl⟩ := mem_layout hd
    exact h.homes v hv
  distinct := by
    intro d hd d' hd' hhome
    have hnodup : ((layout 0 documents).map (·.home)).Nodup := homes_layout 0 documents ▸ h.distinct
    exact List.inj_on_of_nodup_map hnodup hd hd' hhome
  ids := by
    intro d hd x hx
    obtain ⟨v, hv, n, rfl⟩ := mem_layout hd
    rw [declaredId_read]
    refine h.ids v hv (x.read []) ?_
    have hinner := Node.inner_read (label n v).1
    rw [Node.read_label] at hinner
    exact hinner ▸ List.mem_map_of_mem hx
  references := by
    intro d hd x hx text ht
    obtain ⟨v, hv, n, rfl⟩ := mem_layout hd
    have hparts := Node.parts_read (label n v).1
    rw [Node.read_label] at hparts
    rw [reference?_read] at ht
    obtain ⟨w, hw, htext⟩ := Option.bind_eq_some_iff.1 ht
    rw [str?_eq_some htext] at hw
    obtain ⟨target, htarget, tokens, y, hy, hmeans⟩ := h.references v hv _ (hparts ▸ List.mem_map_of_mem hx) text hw
    have hfollow : ∀ n, ∃ z, (label n target).1.follow [] tokens = .ok z := by
      intro n
      have hread := Node.follow_read [] tokens (label n target).1
      rw [Node.read_label, hy] at hread
      cases hz : (label n target).1.follow [] tokens with
      | ok z => exact ⟨z, rfl⟩
      | error e =>
        rw [hz] at hread
        cases hread
    rcases hmeans with ⟨rfl, rfl⟩ | ⟨rfl, hne⟩
    · obtain ⟨z, hz⟩ := hfollow n
      exact ⟨_, hd, tokens, z, Or.inl ⟨rfl, rfl⟩, hz⟩
    · obtain ⟨m, hm⟩ := exists_layout 0 htarget
      obtain ⟨z, hz⟩ := hfollow m
      exact ⟨_, hm, tokens, z, Or.inr ⟨rfl, (h.homes target htarget).resolve_left hne⟩, hz⟩

end Plain

/-! ### Taking documents in -/

namespace Document

variable {ids : List Assignment}

mutual

/-- Ids that are meant for other parts change nothing. -/
theorem assign_of_marks : ∀ x : Node, (∀ y ∈ x.parts, ∀ a ∈ ids, a.mark ≠ y.mark) → assign ids x = x
  | .atom _ _, _ => rfl
  | .arr m xs, h => congrArg (Node.arr m) (assignItems_of_marks xs fun y hy => h y (Node.parts_of_inner hy))
  | .obj m fs, h => by
    have hfind : ids.find? (·.mark = m) = none := by
      refine List.find?_eq_none.2 fun a ha => ?_
      simpa [Node.mark] using h (.obj m fs) (Node.mem_parts_self _) a ha
    rw [assign, assignFields_of_marks fs fun y hy => h y (Node.parts_of_inner hy), assignTo, hfind]

theorem assignItems_of_marks : ∀ xs : List Node, (∀ y ∈ Node.innerItems xs, ∀ a ∈ ids, a.mark ≠ y.mark) →
    assignItems ids xs = xs
  | [], _ => rfl
  | x :: rest, h => by
    rw [assignItems, assign_of_marks x fun y hy => h y (List.mem_append_left _ hy),
      assignItems_of_marks rest fun y hy => h y (List.mem_append_right _ hy)]

theorem assignFields_of_marks : ∀ fs : List (String × Node), (∀ y ∈ Node.innerFields fs, ∀ a ∈ ids, a.mark ≠ y.mark) →
    assignFields ids fs = fs
  | [], _ => rfl
  | (_, x) :: rest, h => by
    rw [assignFields, assign_of_marks x fun y hy => h y (List.mem_append_left _ hy),
      assignFields_of_marks rest fun y hy => h y (List.mem_append_right _ hy)]

end

/-- A document with an id does not take another. -/
lemma assign_own {x : Node} {key id : String} (hmarks : ∀ y ∈ x.inner, x.mark ≠ y.mark)
    (hid : (x.fields.get? key).bind (·.str?) = some id) (url : String) : assign [⟨x.mark, key, url⟩] x = x := by
  cases x with
  | atom m a => rfl
  | arr m xs =>
    refine congrArg (Node.arr m) (assignItems_of_marks xs fun y hy a ha => ?_)
    rw [List.mem_singleton.1 ha]
    exact hmarks y hy
  | obj m fs =>
    have hfields : assignFields [⟨m, key, url⟩] fs = fs := by
      refine assignFields_of_marks fs fun y hy a ha => ?_
      rw [List.mem_singleton.1 ha]
      exact hmarks y hy
    obtain ⟨v, hv, htext⟩ := Option.bind_eq_some_iff.1 hid
    have hv : Table.get? fs key = some v := hv
    have hnull : v.isNull = false := by
      cases v with
      | atom n a =>
        cases a with
        | null => cases htext
        | _ => rfl
      | _ => rfl
    have hfind : List.find? (fun a => decide (a.mark = m)) [(⟨m, key, url⟩ : Assignment)] = some ⟨m, key, url⟩ := by
      simp
    simp only [Node.mark, assign, hfields, assignTo, hfind, hv, hnull, Bool.false_eq_true, if_false]

end Document

/-- The schema of a whole document. -/
def Site.schema (d : Site) : Schema Node := ⟨d.dialect, ⟨locator d.home []⟩, d.node, none, [], false⟩

lemma World.holds_schema (refs : Refs) (d : Site) : World.Holds refs d [] d.schema :=
  ⟨rfl, rfl, rfl, fun _ ha => absurd ha List.not_mem_nil, Or.inl rfl⟩

/-- Take documents in, with the URLs they were loaded from, and register them, in order. -/
def takeAll : List (Json × Option String) → Action Unit
  | [] => pure ()
  | (v, url) :: rest => do
    let _ ← Generator.addDocument (Node.ofJson v) url
    takeAll rest

/-- Take documents in and register them, in order. -/
def addAll : List Json → Action Unit
  | [] => pure ()
  | v :: rest => do
    let _ ← Generator.addDocument (Node.ofJson v) none
    addAll rest

lemma addAll_eq (documents : List Json) : addAll documents = takeAll (documents.map fun v => (v, none)) := by
  induction documents with
  | nil => rfl
  | cons v rest ih => rw [addAll, ih, List.map_cons, takeAll]

lemma Quiet.takeAll (documents : List (Json × Option String)) : Quiet (takeAll documents) := by
  induction documents with
  | nil => exact Quiet.of_pure
  | cons e rest ih => exact (Quiet.addDocument _ _).bind fun _ => ih

lemma ofText_home {home : String} (h : IsHome home) : Address.ofText home = ⟨locator home []⟩ := by
  have hcanonical := Address.canonical_append_hash h.hash
  have hlocator : (locator home []).toList = home.toList ++ ['#'] := Address.toList_locator home []
  rw [← h.ofText_locator, Address.ofText, Address.ofText, hlocator, hcanonical]

/-- The marks inside a document differ from its own. -/
lemma mark_ne_of_inner {n : ℕ} {v : Json} {y : Node} (hy : y ∈ (label n v).1.inner) : (label n v).1.mark ≠ y.mark := by
  have hnodup : ((label n v).1.parts.map Node.mark).Nodup := Node.marks_label n v ▸ List.nodup_range'
  rw [Node.parts, List.map_cons] at hnodup
  exact fun heq => (List.nodup_cons.1 hnodup).1 (heq ▸ List.mem_map_of_mem hy)

/-- A document that has an id does not take the URL it was loaded from. -/
lemma assign_url {n : ℕ} {v : Json} (hhome : homeOf v ≠ "") (url : String) :
    Document.assign [⟨(label n v).1.mark, (dialectOf v).idKeyword, url⟩] (label n v).1 = (label n v).1 := by
  have hid : (label n v).1.declaredId (dialectOf v) = v.declaredId (dialectOf v) := by
    rw [declaredId_read, Node.read_label]
  cases hsome : v.declaredId (dialectOf v) with
  | none =>
    rw [homeOf, hsome] at hhome
    exact absurd rfl hhome
  | some id =>
    rw [← hid, Node.declaredId, given] at hsome
    exact Document.assign_own (fun _ hy => mark_ne_of_inner hy) (Option.filter_eq_some_iff.1 hsome).1 url

/-- **A property that taking documents in keeps.** -/
structure World.Taking (W : World) (I : Registry → Prop) : Prop where
  told : ∀ {r : Registry} (next : ℕ) (notices : List Notice), I r → I { r with next, notices }
  register : ∀ {r : Registry} {d : Site}, d ∈ W.sites → World.Nav W r → I r →
    Yields (Action.register d.schema) r (fun _ r' => I r') fun _ _ => True

namespace Plain

variable {documents : List Json} (h : Plain documents)
include h

/-- A document that has an id, or was not loaded from anywhere, is taken in as it is. -/
lemma toSchema_eq {v : Json} (hv : v ∈ documents) {url : Option String} (hurl : url = none ∨ homeOf v ≠ "") (n : ℕ) :
    Document.toSchema (label n v).1 url = .ok (siteOf n v).schema := by
  have hread : (Node.ofJson v).read [] = (label n v).1.read [] := by
    rw [Node.ofJson, Node.read_label, Node.read_label]
  have hid : (label n v).1.declaredId (dialectOf v) = v.declaredId (dialectOf v) := by
    rw [declaredId_read, Node.read_label]
  have haddress := ofText_home (h.homes v hv)
  have hassign : Document.assign [] (label n v).1 = (label n v).1 :=
    Document.assign_of_marks _ fun _ _ _ ha => absurd ha List.not_mem_nil
  unfold Document.toSchema
  rw [recognise_of_read hread (h.recognised v hv)]
  refine congrArg Except.ok ?_
  cases url with
  | none =>
    simp only [List.append_nil, hassign, hid, Site.schema, siteOf]
    rw [← haddress, homeOf]
    cases v.declaredId (dialectOf v) <;> rfl
  | some u =>
    simp only [List.nil_append, assign_url (hurl.resolve_left (Option.some_ne_none u)) u, hid, Site.schema, siteOf]
    rw [← haddress, homeOf]
    cases v.declaredId (dialectOf v) <;> rfl

/-- The home of a document that is not taken in yet is not registered. -/
lemma locator_not_mem {done rest : List Site} {v : Json} {n : ℕ} (hsites : h.world.sites = done ++ siteOf n v :: rest) :
    locator (homeOf v) [] ∉ Table.keys (done.map fun d => (locator d.home [], d.schema)) := by
  intro hmem
  simp only [Table.keys, List.map_map, List.mem_map, Function.comp] at hmem
  obtain ⟨d', hd', hkey⟩ := hmem
  have hin : d' ∈ h.world.sites := hsites ▸ List.mem_append_left _ hd'
  have hd : siteOf n v ∈ h.world.sites := hsites ▸ List.mem_append_right _ List.mem_cons_self
  have hhome := (World.locator_inj (h.world.homes d' hin) (h.world.homes _ hd) hkey).1
  have hnodup : (h.world.sites.map (·.home)).Nodup := homes_layout 0 documents ▸ h.distinct
  rw [hsites, List.map_append] at hnodup
  refine List.disjoint_of_nodup_append hnodup (List.mem_map_of_mem hd') ?_
  rw [hhome]
  exact List.mem_cons_self

/-- **Taking plain documents in** registers each as a whole, in order. -/
theorem takeAll_nav {I : Registry → Prop} (hi : World.Taking h.world I) {rest : List (Json × Option String)}
    (hrest : ∀ e ∈ rest, e.1 ∈ documents ∧ (e.2 = none ∨ homeOf e.1 ≠ "")) {done : List Site} {r : Registry}
    (hsites : h.world.sites = done ++ layout r.next (rest.map (·.1))) (hr : World.Nav h.world r) (hI : I r)
    (hschemas : r.schemas = done.map fun d => (locator d.home [], d.schema)) :
    Yields (takeAll rest) r (fun _ r' => World.Nav h.world r' ∧ I r' ∧
      r'.schemas = h.world.sites.map fun d => (locator d.home [], d.schema)) fun _ _ => False := by
  -- on the documents still to come: those that are done are registered, the others are laid out from the next mark on
  induction rest generalizing done r with
  | nil =>
    rw [List.map_nil, layout, List.append_nil] at hsites
    exact Yields.of_pure ⟨hr, hI, hsites ▸ hschemas⟩
  | cons e rest ih =>
    obtain ⟨v, url⟩ := e
    obtain ⟨hv, hurl⟩ := hrest (v, url) List.mem_cons_self
    rw [List.map_cons, layout] at hsites
    have hd : siteOf r.next v ∈ h.world.sites := hsites ▸ List.mem_append_right _ List.mem_cons_self
    have hfresh := h.locator_not_mem hsites
    rw [← hschemas] at hfresh
    have hsites' : h.world.sites = (done ++ [siteOf r.next v]) ++ layout (label r.next v).2 (rest.map (·.1)) := by
      rw [hsites, List.append_assoc, List.singleton_append]
    have hshift : (Node.ofJson v).shift r.next = (label r.next v).1 := by
      rw [Node.ofJson, Node.shift_label, Nat.zero_add]
    have hbound : r.next + (Node.ofJson v).bound = (label r.next v).2 := by
      rw [Node.ofJson, Node.bound_label, Node.label_next, Nat.zero_add]
    refine Yields.bind (Yields.bind (Yields.bind (Yields.of_modifyGet ?_)))
    dsimp only
    rw [hshift, hbound, h.toSchema_eq hv hurl]
    refine Yields.bind (Yields.of_pure (Yields.bind (Yields.of_modify (Yields.of_pure (Yields.bind ?_)))))
    have hregister := fun next notices =>
      (World.register_nav (r := { r with next, notices }) (hr.told next notices) hd (World.holds_schema r.refs _)).and
        (hi.register hd (hr.told next notices) (hi.told next notices hI))
    refine (hregister _ _).mono ?_ fun _ _ h => h.1
    rintro ⟨⟩ r' ⟨hreg, hI'⟩
    have hnext : r'.next = (label r.next v).2 := hreg.next
    rw [← hnext] at hsites'
    refine Yields.of_pure (ih (fun e he => hrest e (List.mem_cons_of_mem _ he)) hsites' hreg.nav hI' ?_)
    rw [hreg.schemas, List.map_append, ← hschemas]
    exact Table.set_of_not_mem hfresh _

/-- After taking them in, all documents are registered, and there are rounds enough for all references. -/
lemma takeAll_complete {I : Registry → Prop} (hi : World.Taking h.world I) (hI : I .empty)
    {loaded : List (Json × Option String)} (hloaded : loaded.map (·.1) = documents)
    (hurl : ∀ e ∈ loaded, e.2 = none ∨ homeOf e.1 ≠ "") :
    ∃ r, takeAll loaded .empty = .ok () r ∧ r.Closed ∧ World.Nav h.world r ∧ I r ∧ World.Complete h.world r ∧
      Node.sizeItems (h.world.sites.map (·.node)) ≤ r.size := by
  have hrest : ∀ e ∈ loaded, e.1 ∈ documents ∧ (e.2 = none ∨ homeOf e.1 ≠ "") := fun e he =>
    ⟨hloaded ▸ List.mem_map_of_mem he, hurl e he⟩
  have hsites : h.world.sites = [] ++ layout 0 (loaded.map (·.1)) := by
    rw [hloaded]
    rfl
  obtain ⟨⟨⟩, r, htake, hnav, hr, hschemas⟩ := (h.takeAll_nav hi hrest hsites World.nav_empty hI rfl).exists_ok
  refine ⟨r, htake, ((Quiet.takeAll loaded _ Registry.closed_empty).good_of_ok htake).1, hnav, hr, fun d hd => ?_, ?_⟩
  · rw [Table.has_iff_mem_keys, hschemas]
    exact List.mem_map.2 ⟨(locator d.home [], d.schema), List.mem_map_of_mem hd, rfl⟩
  · have hcontents : r.schemas.values.map (·.content) = h.world.sites.map (·.node) := by
      rw [hschemas, Table.values, List.map_map, List.map_map]
      rfl
    rw [Registry.size, List.map_append, hcontents]
    exact Nat.le_trans (Nat.le_add_right _ _) (Nat.le_of_eq (Discovery.total_append _ _).symm)

lemma addAll_complete : ∃ r, addAll documents .empty = .ok () r ∧ r.Closed ∧ World.Nav h.world r ∧ World.Complete h.world r ∧
    Node.sizeItems (h.world.sites.map (·.node)) ≤ r.size := by
  have hi : World.Taking h.world fun _ => True := ⟨fun _ _ _ => trivial, fun _ _ _ => Yields.anything⟩
  have hloaded : (documents.map fun v => (v, (none : Option String))).map (·.1) = documents := by
    rw [List.map_map]
    exact List.map_id' documents
  obtain ⟨r, htake, hclosed, hnav, -, hcomplete, hsize⟩ := h.takeAll_complete hi trivial hloaded fun e he => by
    obtain ⟨v, -, rfl⟩ := List.mem_map.1 he
    exact Or.inl rfl
  exact ⟨r, addAll_eq documents ▸ htake, hclosed, hnav, hcomplete, hsize⟩

end Plain

/-! ### Navigation -/

namespace World

variable {W : World} {r : Registry}

lemma isObject_of_reaches {dialect : Dialect} {openapi : Option OpenApi} {x y : Node}
    (hreach : Discovery.Reaches dialect openapi x y) (hy : y.IsReference) : x.isObject = true := by
  by_contra hobj
  have hcovers : Discovery.CoversNode dialect openapi [] x := Discovery.coversNode_of_not_object hobj
  cases hcovers y hreach hy

lemma parts_of_reaches {dialect : Dialect} {openapi : Option OpenApi} {node x y : Node} (hx : x ∈ node.parts)
    (hreach : Discovery.Reaches dialect openapi x y) : y ∈ node.parts := by
  induction hreach with
  | refl => exact hx
  | tail _ hchild ih => exact Node.parts_trans ih (Node.parts_of_inner (Node.inner_of_children hchild))

/-- A reference that a registered schema reaches stands as what it means, and that is noted. -/
theorem Nav.reference (hr : Nav W r) (hclosed : r.Closed) {key : String} {s : Schema Node} (hs : r.schemas.get? key = some s)
    {x : Node} (hreach : Discovery.Reaches s.dialect s.openapi s.content x) {text : String}
    (ht : x.reference? [] = some text) :
    ∃ d ∈ W.sites, ∃ tokens, key = locator d.home tokens ∧ x.reference? r.refs = some (meaning d.home text) ∧
      meaning d.home text ∈ r.references.keys := by
  obtain ⟨d, hd, tokens, hkey, hholds⟩ := hr.schemas key s hs
  have hreference : x.IsReference := Option.isSome_iff_exists.2 ⟨text, ht⟩
  have hx := parts_of_reaches (hholds.parts (isObject_of_reaches hreach hreference)) hreach
  have hcovers := hclosed.schemas s (Table.mem_values_of_get? hs)
  obtain ⟨current, hcurrent⟩ := Table.has_iff.1 (hcovers x hreach hreference)
  obtain rfl := hr.good d hd x hx text ht current hcurrent
  refine ⟨d, hd, tokens, hkey, ?_, Table.has_iff_mem_keys.1 (hclosed.texts _ _ hcurrent).2⟩
  rw [Node.reference?_eq, ht, Option.map_some, hcurrent, Option.getD_some]

/-- What is noted is registered, once nothing is pending. -/
theorem Nav.target (hr : Nav W r) (hpending : r.pending = []) {key : String} (hkey : key ∈ r.references.keys) :
    ∃ d ∈ W.sites, ∃ tokens s, key = locator d.home tokens ∧ r.schemas.get? key = some s ∧ Holds r.refs d tokens s := by
  obtain ⟨o, ho⟩ := Table.has_iff.1 (Table.has_iff_mem_keys.2 hkey)
  obtain ⟨t, rfl⟩ := Registry.target_of_pending_nil hpending ho
  obtain ⟨s, hs⟩ := Table.has_iff.1 (hr.resolved key t ho)
  obtain ⟨d, hd, tokens, hkey, hholds⟩ := hr.schemas key s hs
  exact ⟨d, hd, tokens, s, hkey, hs, hholds⟩

/-- A document is registered as it is. -/
lemma Nav.root (hr : Nav W r) {d : Site} (hd : d ∈ W.sites) (hhas : r.schemas.has (locator d.home []) = true) :
    ∃ root, r.schemas.get? (locator d.home []) = some root ∧ root.content = d.node := by
  obtain ⟨root, hroot⟩ := Table.has_iff.1 hhas
  obtain ⟨d', hd', tokens, hkey, hholds⟩ := hr.schemas _ root hroot
  obtain ⟨hhome, rfl⟩ := locator_inj (W.homes d hd) (W.homes d' hd') hkey
  obtain rfl := W.distinct d hd d' hd' hhome
  refine ⟨root, hroot, ?_⟩
  rcases hholds.stands with hstands | hstands
  · exact (Except.ok.inj hstands).symm
  · exact (Except.ok.inj hstands).symm

/-- What a pointer leads to, or the text of a `$ref` as it was written. -/
lemma Holds.read {refs : Refs} {d : Site} {tokens : List String} {s : Schema Node} (hs : Holds refs d tokens s) :
    Pointer.follow tokens (d.node.read refs) = .ok (s.content.read refs) ∨
      ∃ front text, tokens = front ++ ["$ref"] ∧ Pointer.follow tokens (d.node.read []) = .ok (.str text) ∧
        s.content.read refs = .str text := by
  rcases hs.cases with hsame | ⟨front, m, n, text, hfront, htext, hcontent | hcontent⟩
  · exact Or.inl (by rw [Node.follow_read, hsame]; rfl)
  · exact Or.inl (by rw [Node.follow_read, htext, hcontent]; rfl)
  · refine Or.inr ⟨front, text, hfront, ?_, ?_⟩
    · rw [Node.follow_read, htext]
      rfl
    · rw [hcontent]
      rfl

end World

/-- **Resolution is navigation.** Plain documents can be taken in, and whatever the fetcher is, resolution ends well without
asking for a document. Every reference that a registered schema reaches then stands as what it means in its document and is
noted. Whatever is noted is a pointer into one of the documents; it has a schema that is registered under it, and the
content of that is the value that the pointer leads to in the document as it stands, or, where the pointer leads to the text
of a `$ref`, that text as it was written. -/
theorem resolve_navigates (documents : List Json) (h : Plain documents) :
    ∃ r, addAll documents .empty = .ok () r ∧
      ∀ fetcher, ∃ n r', Resolution.resolve fetcher r = .ok n r' ∧ r'.asked = [] ∧
        (∀ key s, r'.schemas.get? key = some s → ∀ x, Discovery.Reaches s.dialect s.openapi s.content x →
          ∀ text, x.reference? [] = some text →
            ∃ v ∈ documents, ∃ tokens, key = locator (homeOf v) tokens ∧
              x.reference? r'.refs = some (World.meaning (homeOf v) text) ∧
              World.meaning (homeOf v) text ∈ r'.references.keys) ∧
        ∀ key ∈ r'.references.keys, ∃ v ∈ documents, ∃ tokens root s, key = locator (homeOf v) tokens ∧
          r'.schemas.get? (locator (homeOf v) []) = some root ∧ root.content.read [] = v ∧
          r'.dereference key = .ok s ∧ r'.schemas.get? key = some s ∧ s.address.text = key ∧
          (Pointer.follow tokens (root.content.read r'.refs) = .ok (s.content.read r'.refs) ∨
            ∃ front text, tokens = front ++ ["$ref"] ∧ Pointer.follow tokens v = .ok (.str text) ∧
              s.content.read r'.refs = .str text) := by
  obtain ⟨r, hadd, hclosed, hnav, hcomplete, hsize⟩ := h.addAll_complete
  refine ⟨r, hadd, fun fetcher => ?_⟩
  obtain ⟨n, r', hresolve, hgrows, hpending⟩ := (World.resolve_nav fetcher hnav hcomplete hsize).exists_ok
  have hclosed' : r'.Closed := ((Quiet.resolve fetcher r hclosed).good_of_ok hresolve).1
  refine ⟨n, r', hresolve, hgrows.nav.asked, fun key s hs x hreach text ht => ?_, fun key hkey => ?_⟩
  · obtain ⟨d, hd, tokens, hkey, hmeans⟩ := hgrows.nav.reference hclosed' hs hreach ht
    obtain ⟨v, hv, m, rfl⟩ := mem_layout hd
    exact ⟨v, hv, tokens, hkey, hmeans⟩
  · obtain ⟨d, hd, tokens, s, rfl, hs, hholds⟩ := hgrows.nav.target hpending hkey
    obtain ⟨root, hroot, hcontent⟩ := hgrows.nav.root hd (hcomplete.mono hgrows d hd)
    have hderef : r'.dereference (locator d.home tokens) = .ok s := by
      rw [Registry.dereference, (h.world.homes d hd).ofText_locator, Registry.lookup?, hs]
      rfl
    have hread := hholds.read
    obtain ⟨v, hv, m, rfl⟩ := mem_layout hd
    rw [← hcontent] at hread
    have hwritten : root.content.read [] = v := by
      rw [hcontent, siteOf, Node.read_label]
    rw [hwritten] at hread
    exact ⟨v, hv, tokens, root, s, rfl, hroot, hwritten, hderef, hs, hholds.address, hread⟩

/-- A document in which one reference leads to the text of another. -/
def refersToText : Json :=
  .obj [("id", .str "http://h/d"),
    ("properties", .obj [("p", .obj [("$ref", .str "#/x/$ref")]), ("q", .obj [("$ref", .str "#/x")])]),
    ("x", .obj [("$ref", .str "#/definitions/b")]),
    ("definitions", .obj [("b", .obj [])])]

lemma plain_refersToText : Plain [refersToText] := by
  have hhome : homeOf refersToText = "http://h/d" := by decide +kernel
  have htexts : (refersToText.parts.all fun w => ((w.get? "$ref").bind (·.str?)).all fun text =>
      ["#/x/$ref", "#/x", "#/definitions/b"].contains text) = true := by decide +kernel
  have hids : (refersToText.inner.all fun w => (w.declaredId (dialectOf refersToText)).isNone) = true := by
    decide +kernel
  refine ⟨?_, ?_, List.nodup_singleton _, ?_, ?_⟩
  · intro v hv
    rw [List.mem_singleton.1 hv]
    rfl
  · intro v hv
    rw [List.mem_singleton.1 hv, hhome]
    exact Or.inr ⟨by decide +kernel, by decide +kernel, _, rfl, by decide +kernel⟩
  · intro v hv w hw
    rw [List.mem_singleton.1 hv] at hw ⊢
    exact Option.isNone_iff_eq_none.1 (List.all_eq_true.1 hids w hw)
  · intro v hv w hw text ht
    obtain rfl := List.mem_singleton.1 hv
    have hmem := List.all_eq_true.1 htexts w hw
    rw [ht] at hmem
    have hcontains : ["#/x/$ref", "#/x", "#/definitions/b"].contains text = true := hmem
    have htext : text = "#/x/$ref" ∨ text = "#/x" ∨ text = "#/definitions/b" := by simpa using hcontains
    refine ⟨refersToText, hv, ?_⟩
    rcases htext with rfl | rfl | rfl
    · exact ⟨["x", "$ref"], .str "#/definitions/b", rfl, Or.inl ⟨by decide +kernel, rfl⟩⟩
    · exact ⟨["x"], .obj [("$ref", .str "#/definitions/b")], rfl, Or.inl ⟨by decide +kernel, rfl⟩⟩
    · exact ⟨["definitions", "b"], .obj [], rfl, Or.inl ⟨by decide +kernel, rfl⟩⟩

/-- What a pointer leads to in the document of an address, and what the address has for its schema, if both are texts. -/
def textsAt (home : String) (tokens : List String) (r : Registry) : Option (String × String) := do
  let root ← r.schemas.get? (locator home [])
  let now ← ((Pointer.follow tokens (root.content.read r.refs)).toOption).bind (·.str?)
  let s ← (r.dereference (locator home tokens)).toOption
  let taken ← (s.content.read r.refs).str?
  return (now, taken)

/-- **A text that was taken out of a document stays.** The pointer leads to the reference as it stands now, the schema has it
as it was written. -/
theorem resolve_keeps_text :
    Plain [refersToText] ∧ ∃ r n r', addAll [refersToText] .empty = .ok () r ∧ Resolution.resolve none r = .ok n r' ∧
      "http://h/d#/x/$ref" ∈ r'.references.keys ∧
      textsAt "http://h/d" ["x", "$ref"] r' = some ("http://h/d#/definitions/b", "#/definitions/b") := by
  have hrun : (ends (addAll [refersToText]) .empty fun _ r => ends (Resolution.resolve none) r fun _ r' =>
      r'.references.keys.contains "http://h/d#/x/$ref" &&
        textsAt "http://h/d" ["x", "$ref"] r' == some ("http://h/d#/definitions/b", "#/definitions/b")) = true := by
    decide +kernel
  obtain ⟨⟨⟩, r, hadd, hrun⟩ := exists_of_ends hrun
  obtain ⟨n, r', hresolve, hrun⟩ := exists_of_ends hrun
  obtain ⟨hkey, htexts⟩ := Bool.and_eq_true_iff.1 hrun
  exact ⟨plain_refersToText, r, n, r', hadd, hresolve, List.contains_iff_mem.1 hkey, beq_iff_eq.1 htexts⟩

theorem resolve_navigates_refersToText :
    Plain [refersToText] ∧ ∃ r, addAll [refersToText] .empty = .ok () r ∧
      ∀ fetcher, ∃ n r', Resolution.resolve fetcher r = .ok n r' ∧ r'.asked = [] ∧
        ∀ key ∈ r'.references.keys, ∃ s, r'.dereference key = .ok s ∧ s.address.text = key := by
  refine ⟨plain_refersToText, ?_⟩
  obtain ⟨r, hadd, hresolve⟩ := resolve_navigates [refersToText] plain_refersToText
  refine ⟨r, hadd, fun fetcher => ?_⟩
  obtain ⟨n, r', hn, hasked, -, htargets⟩ := hresolve fetcher
  refine ⟨n, r', hn, hasked, fun key hkey => ?_⟩
  obtain ⟨v, -, tokens, root, s, -, -, -, hderef, -, haddress, -⟩ := htargets key hkey
  exact ⟨s, hderef, haddress⟩

end Typings
