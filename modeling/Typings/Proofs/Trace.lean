import Typings.Proofs.Ancestry
import Typings.Proofs.Rounds

/-!
What resolution touches. A walk writes nothing but the references that it meets (`World.walk_followed`), and resolution
walks through nothing but what references lead to. So a property of parts that whole documents have, and that passes on to
children and to what references lead to (`World.Inherited`), holds of every reference that was ever written
(`World.Traced`). Main statement:

- `World.lasting_traced`: resolution keeps this.
-/

namespace Typings

open Address (IsHome locator)
open Discovery (Found Trail)

/-! ### Bases -/

namespace Address

/-- A proper place in a document is its own base, whatever places of the document are around it. -/
lemma base_locator {home : String} (h : Url.IsHome home.toList) {scope tokens : List String} (hs : IsScope home scope)
    (hne : tokens ≠ []) : base [] (scope ++ [locator home tokens]) = .ok (locator home tokens).toList := by
  have htidy := Url.isTidy_fragmentChars tokens
  have hlocator : locator home tokens ≠ "" := by
    intro heq
    have hlist := congrArg String.toList heq
    rw [toList_locator] at hlist
    simp at hlist
  obtain ⟨u, hu, -⟩ := h.hasParts
  -- there is nothing around the place, or the base of what is around lies in the document
  obtain ⟨b, hb, ⟨rfl, rfl⟩ | hwithin⟩ := base_within (Or.inr h) hs (Or.inl rfl)
  · rw [List.nil_append, base, if_neg hlocator, Url.join, if_pos rfl]
    rfl
  · obtain ⟨f, hsplit⟩ := hu.split_within hwithin
    obtain ⟨cs, hcs, hshape⟩ := Url.join_absolute h hwithin.1 hsplit htidy
    have hfragment : Pointer.fragmentChars tokens ≠ [] := fun hnil => hne (Pointer.fragmentChars_injective hnil)
    have hmarked : Url.marked '#' (Pointer.fragmentChars tokens) = '#' :: Pointer.fragmentChars tokens := by
      simp [Url.marked, hfragment]
    have hjoined : cs = (locator home tokens).toList := by
      rw [toList_locator]
      rcases hshape with rfl | rfl
      · rfl
      · rw [hmarked]
    rw [← toList_locator] at hcs
    rw [base_append, hb, Except.bind, base, if_neg hlocator, hcs, hjoined]
    rfl

end Address

/-! ### One registration -/

/-- Only what is reported is noted. -/
lemma Action.takeUp_keys (found : List Found) (r : Registry) :
    Yields (Action.takeUp found) r
      (fun _ r' => ∀ key ∈ r'.references.keys, key ∈ r.references.keys ∨ Found.reference ⟨key⟩ ∈ found) fun _ _ => False := by
  induction found generalizing r with
  | nil => exact Yields.of_pure fun _ h => Or.inl h
  | cons f found ih =>
    cases f with
    | schema s refs =>
      refine Yields.bind ((Action.addSchema_yields s r).mono ?_ fun _ _ h => h)
      rintro ⟨⟩ _ ⟨notices, rfl⟩
      refine (ih _).mono (fun _ r' h key hkey => ?_) fun _ _ h => h
      exact (h key hkey).imp_right (List.mem_cons_of_mem _)
    | reference a =>
      refine Yields.bind (Yields.of_modify ((ih _).mono (fun _ r' h key hkey => ?_) fun _ _ h => h))
      rcases h key hkey with hkey | hkey
      · split_ifs at hkey
        · exact Or.inl hkey
        · rcases Table.mem_keys_set hkey with rfl | hkey
          · exact Or.inr List.mem_cons_self
          · exact Or.inl hkey
      · exact Or.inr (List.mem_cons_of_mem _ hkey)

lemma Action.register_keys (s : Schema Node) (r : Registry) :
    Yields (Action.register s) r
      (fun _ r' => r'.refs = (Discovery.walk s r.refs r.next).refs ∧ ∀ key ∈ r'.references.keys,
        key ∈ r.references.keys ∨ Found.reference ⟨key⟩ ∈ (Discovery.walk s r.refs r.next).found)
      fun _ _ => True := by
  unfold Action.register
  refine Yields.bind (Yields.of_modify (Yields.bind ((Action.addSchema_yields s _).mono ?_ fun _ _ h => h.elim)))
  rintro ⟨⟩ _ ⟨notices, rfl⟩
  refine Yields.bind (Yields.of_get (Yields.bind ((Action.takeUp_keys _ _).mono ?_ fun _ _ h => h.elim)))
  rintro ⟨⟩ r₂ hkeys
  refine Yields.bind (Yields.of_modify ?_)
  dsimp only
  split
  · exact Yields.of_throw trivial
  · exact Yields.of_pure ⟨rfl, hkeys⟩

namespace World

variable {W : World} {P : Site → Node → Prop}

/-- **A registry in which everything goes back to references with the property.** Whatever is noted stands in the place of
such a reference, and whatever is registered is a document or noted. -/
structure Traced (W : World) (P : Site → Node → Prop) (r : Registry) : Prop where
  marks : ∀ m, r.refs.has m = true → W.Marked P m
  backed : ∀ key ∈ r.references.keys, ∃ m, r.refs.get? m = some key
  known : ∀ key ∈ r.schemas.keys, key ∈ r.references.keys ∨ ∃ d ∈ W.sites, key = locator d.home []
  nodup : r.schemas.keys.Nodup
  schemas : ∀ s ∈ r.schemas.values, s.operation = false ∧ s.IsAnchored
  targets : ∀ key s, r.references.get? key = some (some s) →
    ∃ d ∈ W.sites, ∃ tokens, key = locator d.home tokens ∧ Holds r.refs d tokens s

lemma traced_empty : Traced W P .empty := by
  refine ⟨fun m hm => ?_, ?_, ?_, List.nodup_nil, ?_, ?_⟩
  · cases hm
  · intro key h
    cases h
  · intro key h
    cases h
  · intro s h
    cases h
  · intro key s h
    cases h

lemma Traced.told {r : Registry} (h : Traced W P r) (next : ℕ) (notices : List Notice) :
    Traced W P { r with next, notices } :=
  ⟨h.marks, h.backed, h.known, h.nodup, h.schemas, h.targets⟩

/-- **Registering a schema with the property.** -/
theorem register_traced (hP : Inherited W P) {r : Registry} (hr : Nav W r) (h : Traced W P r) {d : Site} (hd : d ∈ W.sites)
    {tokens : List String} {s : Schema Node} (hs : Holds r.refs d tokens s)
    (hp : s.content.isObject = true → P d s.content) (hoperation : s.operation = false) (hanchored : s.IsAnchored)
    (hknown : s.address.text ∈ r.references.keys ∨ ∃ d ∈ W.sites, s.address.text = locator d.home []) :
    Yields (Action.register s) r (fun _ r' => Registered W s r r' ∧ Traced W P r') fun _ _ => False := by
  obtain ⟨refs, found, hwalk, hfollowed⟩ := walk_followed hP hd hs hp hr.good r.next
  refine ((register_nav hr hd hs).and (Action.register_keys s r)).mono ?_ fun _ _ h => h.1
  rintro ⟨⟩ r' ⟨hreg, hrefs, hkeys⟩
  rw [hwalk] at hrefs hkeys
  -- what is new goes back to what the walk met; texts that were written before stay
  refine ⟨hreg, ?_, ?_, ?_, ?_, ?_, ?_⟩
  · intro m hm
    rw [hrefs] at hm
    exact (hfollowed.marks m hm).elim (h.marks m) id
  · intro key hkey
    rw [hrefs]
    rcases hkeys key hkey with hkey | hkey
    · obtain ⟨m, hm⟩ := h.backed key hkey
      exact ⟨m, hfollowed.persists m key hm⟩
    · exact (hfollowed.backed _ hkey).resolve_left List.not_mem_nil
  · intro key hkey
    have hstays : ∀ {k}, k ∈ r.references.keys → k ∈ r'.references.keys := fun hk => hreg.grows.noted _ hk
    rw [hreg.schemas] at hkey
    rcases Table.mem_keys_set hkey with rfl | hkey
    · exact hknown.imp_left hstays
    · exact (h.known key hkey).imp_left hstays
  · rw [hreg.schemas]
    exact Table.nodup_keys_set h.nodup _ _
  · intro s' hs'
    rw [hreg.schemas] at hs'
    rcases Table.mem_values_set hs' with rfl | hs'
    · exact ⟨hoperation, hanchored⟩
    · exact h.schemas s' hs'
  · intro key s' hs'
    obtain ⟨d', hd', tokens', hkey, hholds⟩ := h.targets key s' (hreg.references.targets key s' hs')
    refine ⟨d', hd', tokens', hkey, hholds.mono ?_⟩
    rw [hrefs]
    exact hfollowed.persists

/-! ### Resolution -/

/-- What a noted address leads to has the property, if it is an object. -/
lemma Traced.inherits (hP : Inherited W P) {r : Registry} (hr : Nav W r) (h : Traced W P r) {d : Site} (hd : d ∈ W.sites)
    {tokens : List String} (hkey : locator d.home tokens ∈ r.references.keys) {s : Schema Node}
    (hs : Holds r.refs d tokens s) (hobj : s.content.isObject = true) : P d s.content := by
  obtain ⟨m, hm⟩ := h.backed _ hkey
  obtain ⟨d', hd', x, hx, hp, href, rfl⟩ := h.marks m (Table.has_iff.2 ⟨_, hm⟩)
  obtain ⟨text, ht⟩ := Option.isSome_iff_exists.1 href
  obtain ⟨target, htarget, tokens', y, hmeans, hy⟩ := W.references d' hd' x hx text ht
  -- the address is what the reference means, so it leads to the same place
  have hmeaning := hr.good d' hd' x hx text ht _ hm
  rw [meaning_eq hmeans] at hmeaning
  obtain ⟨hhome, rfl⟩ := locator_inj (W.homes d hd) (W.homes target htarget) hmeaning
  obtain rfl := W.distinct d hd target htarget hhome
  have hcontent : s.content = y := by
    rcases hs.cases with hsame | ⟨front, n, k, text', -, -, htext | htext⟩
    · exact Except.ok.inj ((hsame []).symm.trans hy)
    · rw [htext] at hobj
      cases hobj
    · rw [htext] at hobj
      cases hobj
  rw [hcontent] at hobj ⊢
  exact hP.target d' hd' x hx hp text ht d hd tokens y hmeans hy hobj

/-- Giving a noted address the schema that is registered under it. -/
lemma Traced.setTarget {r : Registry} (hr : Nav W r) (h : Traced W P r) {key : String} (hkey : key ∈ r.references.keys)
    {s : Schema Node} (hs : r.schemas.get? key = some s) :
    Traced W P { r with references := r.references.set key (some s) } := by
  have hkeys : ∀ k, k ∈ (r.references.set key (some s)).keys ↔ k ∈ r.references.keys := by
    intro k
    rw [Table.keys_set, if_pos hkey]
  refine ⟨h.marks, fun k hk => h.backed k ((hkeys k).1 hk), fun k hk => (h.known k hk).imp_left (hkeys k).2, h.nodup,
    h.schemas, fun k t ht => ?_⟩
  dsimp only at ht
  rw [Table.get?_set] at ht
  split_ifs at ht with hk
  · cases ht
    exact hk ▸ hr.schemas key s hs
  · exact h.targets k t ht

/-- A proper part of a schema on the web is anchored. -/
lemma isAnchored_part {refs : Refs} {d : Site} (hweb : Url.IsHome d.home.toList) {ts vs : List String} {parent : Schema Node}
    (h : Holds refs d ts parent) (hvs : vs ≠ []) (content : Node) :
    (parent.part vs ⟨locator d.home (ts ++ vs)⟩ content).IsAnchored := by
  have hne : ts ++ vs ≠ [] := by
    simp [hvs]
  have hhome : d.home ≠ "" := by
    intro hempty
    have hnot := hweb.web
    rw [hempty] at hnot
    exact absurd hnot (by decide)
  have hscope : Address.IsScope d.home parent.scope := by
    intro p hp
    obtain ⟨us, rfl⟩ := h.scope p hp
    exact ⟨Address.locator_ne_hash hhome us, us, rfl⟩
  have hnil : Address.IsScope d.home [] := fun _ hp => absurd hp List.not_mem_nil
  have hpart : (parent.part vs ⟨locator d.home (ts ++ vs)⟩ content).scope = parent.scope ++ [locator d.home (ts ++ vs)] := by
    simp [Schema.scope, Schema.part]
  unfold Schema.IsAnchored
  rw [hpart, Address.base_locator hweb hscope hne]
  exact (Address.base_locator hweb hnil hne).symm

/-- **Resolution keeps that everything goes back to references with the property.** -/
theorem lasting_traced (hP : Inherited W P) (hweb : ∀ d ∈ W.sites, Url.IsHome d.home.toList) :
    Lasting W (Traced W P) where
  told notices h := h.told _ notices
  target {r key} hr hc hkey h := by
    -- the target is registered already, or it is a proper part of the nearest schema around it
    rcases target_eq hr hc (hr.noted key hkey) with ⟨s, hs, htarget⟩ |
      ⟨s, ⟨-, d, hd, ts, vs, parent, content, hvs, rfl, hparent, hholds, rfl, hpart⟩, htarget⟩
    · unfold Yields
      rw [htarget]
      exact h.setTarget hr hkey hs
    · unfold Yields
      rw [htarget]
      have hobj := h.inherits hP hr hd hkey hpart
      have hoperation := (h.schemas parent (Table.mem_values_of_get? hparent)).1
      refine Yields.bind ((register_traced hP hr h hd hpart hobj ?_ (isAnchored_part (hweb d hd) hholds hvs content)
        (Or.inl hkey)).mono ?_ fun _ _ h => h.elim)
      · simp [Schema.part, hoperation]
      · rintro ⟨⟩ r' ⟨hreg, htraced⟩
        refine Yields.of_pure (htraced.setTarget hreg.nav (hreg.grows.noted _ hkey) ?_)
        rw [hreg.schemas]
        exact Table.get?_set_self _ _ _

end World

end Typings
