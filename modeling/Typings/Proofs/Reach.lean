import Typings.Proofs.Navigation
import Typings.Proofs.Shift
import Typings.Proofs.Trace

/-!
What resolution reaches. Which parts of plain documents are walked through does not depend on the order in which the
documents are taken in: these are the whole documents, the children of parts that are reached, and the objects that
references in such parts lead to (`Reached`). When resolution has ended, the references that were written anew are those
that are reached, and the registered addresses are those of the documents and those that reached references mean. Main
statements:

- `Settled.get?_refs`: a reference has a current text if and only if it is reached, and the text is what it means.
- `Settled.mem_references`, `Settled.mem_schemas`: what is noted and what is registered.
- `Settled.get?_schemas_perm`: what is registered under an address is the same in every order, as far as declarations show
  it, and so is how large it is.
-/

namespace Typings

open Address (IsHome locator)
open Node (label)

/-- **Reached parts** of documents, which are marked from zero on. -/
inductive Reached (documents : List Json) : Json → Node → Prop
  /-- Whole documents. -/
  | whole {v : Json} (hv : v ∈ documents) : Reached documents v (Node.ofJson v)
  /-- Children. -/
  | child {v : Json} {x y : Node} (hx : Reached documents v x) (hy : y ∈ Discovery.children (dialectOf v) none x) :
    Reached documents v y
  /-- What references lead to. -/
  | target {v w : Json} {x y : Node} {text : String} {tokens : List String} (hx : Reached documents v x)
    (ht : x.reference? [] = some text) (hw : w ∈ documents)
    (hmeans : World.meaning (homeOf v) text = locator (homeOf w) tokens)
    (hy : (Node.ofJson w).follow [] tokens = .ok y) (hobj : y.isObject = true) : Reached documents w y

namespace Reached

variable {documents documents' : List Json} {v : Json} {x : Node}

lemma mem (h : Reached documents v x) : v ∈ documents := by
  induction h with
  | whole hv => exact hv
  | child _ _ ih => exact ih
  | target _ _ hw _ _ _ _ => exact hw

lemma parts (h : Reached documents v x) : x ∈ (Node.ofJson v).parts := by
  induction h with
  | whole hv => exact Node.mem_parts_self _
  | child _ hy ih => exact Node.parts_trans ih (Node.parts_of_inner (Node.inner_of_children hy))
  | target _ _ _ _ hy _ _ => exact Node.parts_of_follow hy

/-- What is reached depends on which documents there are. -/
lemma mono (h : Reached documents v x) (hsub : ∀ w ∈ documents, w ∈ documents') : Reached documents' v x := by
  induction h with
  | whole hv => exact .whole (hsub _ hv)
  | child _ hy ih => exact .child ih hy
  | target _ ht hw hmeans hy hobj ih => exact .target ih ht (hsub _ hw) hmeans hy hobj

lemma perm_iff (hperm : documents.Perm documents') : Reached documents v x ↔ Reached documents' v x :=
  ⟨fun h => h.mono fun _ hw => hperm.mem_iff.1 hw, fun h => h.mono fun _ hw => hperm.mem_iff.2 hw⟩

end Reached

/-! ### Sites -/

lemma node_siteOf (n : ℕ) (v : Json) : (siteOf n v).node = (Node.ofJson v).shift n := by
  rw [siteOf, Node.ofJson, Node.shift_label, Nat.zero_add]

lemma mark_ofJson (v : Json) : (Node.ofJson v).mark = 0 := by
  cases v <;> rfl

/-- A part of a site is reached in its document. -/
def ReachedAt (documents : List Json) (d : Site) (x : Node) : Prop :=
  ∃ v n y, d = siteOf n v ∧ x = y.shift n ∧ Reached documents v y

namespace Plain

variable {documents documents' : List Json}

lemma perm (h : Plain documents) (hperm : documents.Perm documents') : Plain documents' := by
  refine ⟨fun v hv => h.recognised v (hperm.mem_iff.2 hv), fun v hv => h.homes v (hperm.mem_iff.2 hv),
    (hperm.map homeOf).nodup_iff.1 h.distinct, fun v hv => h.ids v (hperm.mem_iff.2 hv), fun v hv w hw text ht => ?_⟩
  obtain ⟨target, htarget, rest⟩ := h.references v (hperm.mem_iff.2 hv) w hw text ht
  exact ⟨target, hperm.mem_iff.1 htarget, rest⟩

variable (h : Plain documents)
include h

lemma eq_of_home {v w : Json} (hv : v ∈ documents) (hw : w ∈ documents) (hhome : homeOf v = homeOf w) : v = w :=
  List.inj_on_of_nodup_map h.distinct hv hw hhome

lemma mem_sites {d : Site} (hd : d ∈ h.world.sites) : ∃ v ∈ documents, ∃ n, d = siteOf n v := mem_layout hd

lemma mem_of_site {v : Json} {n : ℕ} (hn : siteOf n v ∈ h.world.sites) : v ∈ documents := by
  obtain ⟨w, hw, m, heq⟩ := h.mem_sites hn
  have hread := congrArg (Node.read []) (congrArg Site.node heq)
  rw [siteOf, siteOf, Node.read_label, Node.read_label] at hread
  exact hread ▸ hw

lemma exists_site {v : Json} (hv : v ∈ documents) : ∃ n, siteOf n v ∈ h.world.sites := exists_layout 0 hv

/-- A document has one place among the others. -/
lemma eq_of_sites {v : Json} {n m : ℕ} (hn : siteOf n v ∈ h.world.sites) (hm : siteOf m v ∈ h.world.sites) : n = m := by
  have heq := congrArg Site.node (h.world.distinct _ hn _ hm rfl)
  rw [node_siteOf, node_siteOf] at heq
  have hmark := congrArg Node.mark heq
  rwa [Node.mark_shift, Node.mark_shift, mark_ofJson, Nat.zero_add, Nat.zero_add] at hmark

/-- **What is reached passes on** to whatever walks meet. -/
theorem inherited_reachedAt : World.Inherited h.world (ReachedAt documents) where
  whole d hd := by
    obtain ⟨v, hv, n, rfl⟩ := h.mem_sites hd
    exact ⟨v, n, _, rfl, node_siteOf n v, .whole hv⟩
  child := by
    rintro d hd _ ⟨v, n, x, rfl, rfl, hx⟩ y hy
    rw [Node.children_shift] at hy
    obtain ⟨z, hz, rfl⟩ := List.mem_map.1 hy
    exact ⟨v, n, z, rfl, rfl, hx.child hz⟩
  target := by
    rintro d hd _ - ⟨v, n, x, rfl, rfl, hx⟩ text ht target htarget tokens y hmeans hy hobj
    obtain ⟨w, hw, m, rfl⟩ := h.mem_sites htarget
    rw [Node.reference?_shift] at ht
    rw [node_siteOf, Node.follow_shift] at hy
    cases hz : (Node.ofJson w).follow [] tokens with
    | error e =>
      rw [hz] at hy
      cases hy
    | ok z =>
      rw [hz] at hy
      cases hy
      rw [Node.isObject_shift] at hobj
      exact ⟨w, m, z, rfl, rfl, hx.target ht hw (World.meaning_eq hmeans) hz hobj⟩

end Plain

/-! ### When resolution has ended -/

/-- **What resolution leaves of plain documents.** -/
structure Settled {documents : List Json} (h : Plain documents) (r : Registry) : Prop where
  nav : World.Nav h.world r
  complete : World.Complete h.world r
  traced : World.Traced h.world (ReachedAt documents) r
  closed : r.Closed
  pending : r.pending = []

namespace Settled

variable {documents : List Json} {h : Plain documents} {r : Registry} (hr : Settled h r)
include hr

lemma holds {d : Site} (hd : d ∈ h.world.sites) {tokens : List String} {s : Schema Node}
    (hs : r.schemas.get? (locator d.home tokens) = some s) : World.Holds r.refs d tokens s := by
  obtain ⟨d', hd', tokens', hkey, hholds⟩ := hr.nav.schemas _ s hs
  obtain ⟨hhome, rfl⟩ := World.locator_inj (h.world.homes d hd) (h.world.homes d' hd') hkey
  obtain rfl := h.world.distinct d hd d' hd' hhome
  exact hholds

/-- A reference that a registered schema of its document reaches stands as what it means, and that is noted. -/
lemma written_of_reaches {v : Json} {n : ℕ} (hn : siteOf n v ∈ h.world.sites) {tokens : List String} {s : Schema Node}
    (hs : r.schemas.get? (locator (homeOf v) tokens) = some s) {x : Node}
    (hreach : Discovery.Reaches s.dialect s.openapi s.content (x.shift n)) {text : String} (ht : x.reference? [] = some text) :
    r.refs.get? (x.mark + n) = some (World.meaning (homeOf v) text) ∧
      World.meaning (homeOf v) text ∈ r.references.keys := by
  rw [← Node.reference?_shift n] at ht
  obtain ⟨d, hd, tokens', hkey, hreference, hnoted⟩ := hr.nav.reference hr.closed hs hreach ht
  obtain ⟨hhome, -⟩ := World.locator_inj (h.world.homes _ hn) (h.world.homes d hd) hkey
  have hhas := hr.closed.schemas s (Table.mem_values_of_get? hs) _ hreach (Option.isSome_iff_exists.2 ⟨text, ht⟩)
  have hcurrent := Node.get?_mark_of_reference? hreference hhas
  rw [Node.mark_shift] at hcurrent
  have hhome : homeOf v = d.home := hhome
  rw [hhome]
  exact ⟨hcurrent, hnoted⟩

/-- What is reached in a document, a registered schema of the document reaches. -/
theorem reaches {v : Json} {x : Node} (hx : Reached documents v x) {n : ℕ} (hn : siteOf n v ∈ h.world.sites) :
    ∃ tokens s, r.schemas.get? (locator (homeOf v) tokens) = some s ∧
      Discovery.Reaches s.dialect s.openapi s.content (x.shift n) := by
  -- along the way in which the part is reached; nothing is pending, so that a reference leads to a registered schema
  induction hx generalizing n with
  | whole hv =>
    obtain ⟨root, hroot, hcontent⟩ := hr.nav.root hn (hr.complete _ hn)
    rw [node_siteOf] at hcontent
    refine ⟨[], root, hroot, ?_⟩
    rw [hcontent]
    exact .refl
  | child hx hy ih =>
    obtain ⟨tokens, s, hs, hreach⟩ := ih hn
    have hholds := hr.holds hn hs
    refine ⟨tokens, s, hs, hreach.tail ?_⟩
    rw [hholds.dialect, hholds.openapi, Node.children_shift]
    exact List.mem_map_of_mem hy
  | @target v w x y text tokens hx ht hw hmeans hy hobj ih =>
    obtain ⟨m, hm⟩ := h.exists_site hx.mem
    obtain ⟨us, s, hs, hreach⟩ := ih hm
    have hnoted := (hr.written_of_reaches hm hs hreach ht).2
    rw [hmeans] at hnoted
    obtain ⟨-, -, -, t, -, ht, -⟩ := hr.nav.target hr.pending hnoted
    have hcontent : t.content = y.shift n := by
      have hfollow : (siteOf n w).node.follow [] tokens = .ok (y.shift n) := by
        rw [node_siteOf, Node.follow_shift, hy]
        rfl
      rcases (hr.holds hn ht).cases with hsame | ⟨front, k, i, text, -, htext, -⟩
      · exact Except.ok.inj ((hsame []).symm.trans hfollow)
      · -- a text is no object
        have hatom := Except.ok.inj ((htext []).symm.trans hfollow)
        rw [← Node.isObject_shift n, ← hatom] at hobj
        cases hobj
    refine ⟨tokens, t, ht, ?_⟩
    rw [hcontent]
    exact .refl

/-- **A reference has a current text if and only if it is reached**, and the text is what the reference means. -/
theorem get?_refs {v : Json} {n : ℕ} (hn : siteOf n v ∈ h.world.sites) {x : Node} (hx : x ∈ (Node.ofJson v).parts)
    {current : String} :
    r.refs.get? (x.mark + n) = some current ↔
      Reached documents v x ∧ ∃ text, x.reference? [] = some text ∧ current = World.meaning (homeOf v) text := by
  constructor
  · intro hcurrent
    obtain ⟨d, hd, y, hy, ⟨w, m, z, rfl, rfl, hz⟩, href, hmark⟩ := hr.traced.marks _ (Table.has_iff.2 ⟨_, hcurrent⟩)
    have hx' : x.shift n ∈ (siteOf n v).node.parts := by
      rw [node_siteOf, Node.parts_shift]
      exact List.mem_map_of_mem hx
    -- the text was written for a reached part of some document, and marks tell documents and parts apart
    rw [← Node.mark_shift n x] at hmark
    obtain ⟨hsite, hpart⟩ := h.world.marks _ hd _ hn _ hy _ hx' hmark
    have hhome : homeOf w = homeOf v := congrArg Site.home hsite
    obtain rfl := h.eq_of_home hz.mem (h.mem_of_site hn) hhome
    obtain rfl := h.eq_of_sites hd hn
    rw [Node.mark_shift, Node.mark_shift] at hmark
    obtain rfl := eq_of_mark hz.parts hx (by omega)
    obtain ⟨text, ht⟩ := Option.isSome_iff_exists.1 href
    refine ⟨hz, text, by rwa [Node.reference?_shift] at ht, ?_⟩
    rw [← Node.mark_shift] at hcurrent
    exact hr.nav.good _ hn _ hx' text ht current hcurrent
  · rintro ⟨hreached, text, ht, rfl⟩
    obtain ⟨tokens, s, hs, hreach⟩ := hr.reaches hreached hn
    exact (hr.written_of_reaches hn hs hreach ht).1

/-- **What is noted** is what reached references mean. -/
theorem mem_references {key : String} : key ∈ r.references.keys ↔
    ∃ v x text, Reached documents v x ∧ x.reference? [] = some text ∧ key = World.meaning (homeOf v) text := by
  constructor
  · intro hkey
    obtain ⟨m, hm⟩ := hr.traced.backed key hkey
    obtain ⟨d, hd, y, hy, ⟨v, n, x, rfl, rfl, hx⟩, -, rfl⟩ := hr.traced.marks m (Table.has_iff.2 ⟨_, hm⟩)
    rw [Node.mark_shift] at hm
    obtain ⟨-, text, ht, rfl⟩ := (hr.get?_refs hd hx.parts).1 hm
    exact ⟨v, x, text, hx, ht, rfl⟩
  · rintro ⟨v, x, text, hx, ht, rfl⟩
    obtain ⟨n, hn⟩ := h.exists_site hx.mem
    obtain ⟨tokens, s, hs, hreach⟩ := hr.reaches hx hn
    exact (hr.written_of_reaches hn hs hreach ht).2

/-- **What is registered** are the documents and what is noted. -/
theorem mem_schemas {key : String} : key ∈ r.schemas.keys ↔
    key ∈ r.references.keys ∨ ∃ v ∈ documents, key = locator (homeOf v) [] := by
  constructor
  · intro hkey
    refine (hr.traced.known key hkey).imp_right ?_
    rintro ⟨d, hd, rfl⟩
    obtain ⟨v, hv, n, rfl⟩ := h.mem_sites hd
    exact ⟨v, hv, rfl⟩
  · rintro (hkey | ⟨v, hv, rfl⟩)
    · obtain ⟨-, -, -, s, -, hs, -⟩ := hr.nav.target hr.pending hkey
      exact Table.mem_keys_of_get? hs
    · obtain ⟨n, hn⟩ := h.exists_site hv
      have hhas : r.schemas.has (locator (homeOf v) []) = true := hr.complete (siteOf n v) hn
      exact Table.has_iff_mem_keys.1 hhas

lemma target {key : String} {o : Option (Schema Node)} (ho : r.references.get? key = some o) :
    ∃ s, o = some s ∧ ∃ d ∈ h.world.sites, ∃ tokens, key = locator d.home tokens ∧ World.Holds r.refs d tokens s := by
  obtain ⟨s, rfl⟩ := Registry.target_of_pending_nil hr.pending ho
  exact ⟨s, rfl, hr.traced.targets key s ho⟩

/-- What an address leads to is what is registered under it. -/
lemma lookup?_eq (key : String) : r.lookup? key = r.schemas.get? key := by
  unfold Registry.lookup?
  cases hs : r.schemas.get? key with
  | some s => rfl
  | none =>
    cases ho : r.references.get? key with
    | none => rfl
    | some o =>
      obtain ⟨s, rfl, -⟩ := hr.target ho
      have hhas := hr.nav.resolved key s ho
      rw [Table.has, hs] at hhas
      cases hhas

end Settled

/-! ### Two orders -/

/-- What a place holds is what the pointer leads to, as far as declarations show it. -/
lemma World.Holds.shows {refs : Refs} {d : Site} {tokens : List String} {s : Schema Node} (h : World.Holds refs d tokens s) :
    ∃ y, d.node.follow [] tokens = .ok y ∧ (s.content.read refs).hushed = (y.read refs).hushed ∧
      s.content.size = y.size := by
  rcases h.cases with hsame | ⟨front, m, n, text, -, htext, hcontent | hcontent⟩
  · exact ⟨_, hsame [], rfl, rfl⟩
  · exact ⟨_, htext [], by rw [hcontent]; rfl, by rw [hcontent]; rfl⟩
  · exact ⟨_, htext [], by rw [hcontent]; rfl, by rw [hcontent]; rfl⟩

/-- What declarations can show of a schema as it stands. -/
def Registry.shown (r : Registry) (s : Schema Node) : Schema Json := (s.read r.refs).bare

namespace Settled

variable {documents documents' : List Json} (hperm : documents.Perm documents') {h : Plain documents} {h' : Plain documents'}
  {r r' : Registry} (hr : Settled h r) (hr' : Settled h' r')
include hperm hr hr'

/-- What stands at a place of a document shows the same in every order. -/
lemma shown_eq {v : Json} {n n' : ℕ} (hn : siteOf n v ∈ h.world.sites) (hn' : siteOf n' v ∈ h'.world.sites)
    {tokens : List String} {s s' : Schema Node} (hs : World.Holds r.refs (siteOf n v) tokens s)
    (hs' : World.Holds r'.refs (siteOf n' v) tokens s') :
    r.shown s = r'.shown s' ∧ s.content.size = s'.content.size := by
  obtain ⟨y, hy, hread, hsize⟩ := hs.shows
  obtain ⟨y', hy', hread', hsize'⟩ := hs'.shows
  rw [node_siteOf, Node.follow_shift] at hy hy'
  cases hz : (Node.ofJson v).follow [] tokens with
  | error e =>
    rw [hz] at hy
    cases hy
  | ok z =>
    rw [hz] at hy hy'
    cases hy
    cases hy'
    have hcontent : (s.content.read r.refs).hushed = (s'.content.read r'.refs).hushed := by
      rw [hread, hread']
      -- marks depend on the order, but whether a reference was written anew does not
      refine congrArg Json.hushed (Node.read_shift z fun x hx => Option.ext fun current => ?_)
      have hx' := Node.parts_trans (Node.parts_of_follow hz) hx
      rw [hr.get?_refs hn hx', hr'.get?_refs hn' hx', Reached.perm_iff hperm]
    have haddress : s.address = s'.address := congrArg Address.mk (hs.address.trans hs'.address.symm)
    have hdialect : s.dialect = s'.dialect := hs.dialect.trans hs'.dialect.symm
    refine ⟨?_, by rw [hsize, hsize', Node.size_shift, Node.size_shift]⟩
    simp only [Registry.shown, Schema.bare, Schema.read, Schema.withContent, hcontent, haddress, hdialect]

/-- What an address leads to shows the same in every order. -/
lemma shown_eq_of_key {key : String} {s s' : Schema Node}
    (hs : ∃ d ∈ h.world.sites, ∃ tokens, key = locator d.home tokens ∧ World.Holds r.refs d tokens s)
    (hs' : ∃ d ∈ h'.world.sites, ∃ tokens, key = locator d.home tokens ∧ World.Holds r'.refs d tokens s') :
    r.shown s = r'.shown s' ∧ s.content.size = s'.content.size := by
  obtain ⟨d, hd, tokens, rfl, hs⟩ := hs
  obtain ⟨d', hd', tokens', hkey, hs'⟩ := hs'
  obtain ⟨hhome, rfl⟩ := World.locator_inj (h.world.homes _ hd) (h'.world.homes _ hd') hkey
  obtain ⟨v, hv, n, rfl⟩ := h.mem_sites hd
  obtain ⟨v', hv', n', rfl⟩ := h'.mem_sites hd'
  obtain rfl := h.eq_of_home hv (hperm.mem_iff.2 hv') hhome
  exact shown_eq hperm hr hr' hd hd' hs hs'

lemma mem_references_perm {key : String} : key ∈ r.references.keys ↔ key ∈ r'.references.keys := by
  rw [hr.mem_references, hr'.mem_references]
  simp only [Reached.perm_iff hperm]

lemma mem_schemas_perm {key : String} : key ∈ r.schemas.keys ↔ key ∈ r'.schemas.keys := by
  rw [hr.mem_schemas, hr'.mem_schemas, mem_references_perm hperm hr hr']
  simp only [hperm.mem_iff]

/-- **What is registered under an address** shows the same. -/
theorem get?_schemas_perm (key : String) : (r.schemas.get? key).map r.shown = (r'.schemas.get? key).map r'.shown :=
  Table.get?_map_eq (fun _ => mem_schemas_perm hperm hr hr')
    (fun key s s' hs hs' => (shown_eq_of_key hperm hr hr' (hr.nav.schemas key s hs) (hr'.nav.schemas key s' hs')).1) key

lemma values_schemas_perm : (r.schemas.values.map r.shown).Perm (r'.schemas.values.map r'.shown) :=
  Table.values_perm hr.traced.nodup hr'.traced.nodup (fun _ => mem_schemas_perm hperm hr hr')
    (get?_schemas_perm hperm hr hr')

/-- **All that addresses lead to** is as large. -/
theorem size_perm : r.size = r'.size := by
  have hschemas : (r.schemas.values.map fun s => s.content.size).Perm (r'.schemas.values.map fun s => s.content.size) := by
    have hkeys : ∀ key, key ∈ r.schemas.keys ↔ key ∈ r'.schemas.keys := fun _ => mem_schemas_perm hperm hr hr'
    refine Table.values_perm hr.traced.nodup hr'.traced.nodup hkeys (Table.get?_map_eq hkeys fun key s s' hs hs' => ?_)
    exact (shown_eq_of_key hperm hr hr' (hr.nav.schemas key s hs) (hr'.nav.schemas key s' hs')).2
  have hreferences : (r.references.values.map (Option.map fun s => s.content.size)).Perm
      (r'.references.values.map (Option.map fun s => s.content.size)) := by
    have hkeys : ∀ key, key ∈ r.references.keys ↔ key ∈ r'.references.keys := fun _ => mem_references_perm hperm hr hr'
    refine Table.values_perm hr.nav.nodup hr'.nav.nodup hkeys (Table.get?_map_eq hkeys fun key o o' ho ho' => ?_)
    obtain ⟨s, rfl, hs⟩ := hr.target ho
    obtain ⟨s', rfl, hs'⟩ := hr'.target ho'
    exact congrArg some (shown_eq_of_key hperm hr hr' hs hs').2
  have htargets := hreferences.filterMap id
  rw [List.filterMap_map, List.filterMap_map] at htargets
  refine Node.sizeItems_perm ?_
  rw [List.map_map, List.map_map, List.map_append, List.map_append, List.map_filterMap, List.map_filterMap]
  exact hschemas.append htargets

end Settled

end Typings
