import Mathlib.Data.Finset.Card
import Typings.Proofs.World

/-!
Resolution among documents that refer to each other by pointers. Every registered schema is what its address leads to
(`World.Nav`), and this stays so: a target that is not registered is taken out of the registered schema whose address is
the longest beginning of its own, and the rest of the address leads from there to the same place. A round resolves what
is pending and nothing is fetched, so the rounds end when all that references mean is resolved. Main statements:

- `World.register_nav`: registering keeps the registry truthful.
- `World.target_nav`: a reference has its target.
- `World.resolve_lasting`: resolution ends well, and what finding each target keeps, it keeps.
-/

namespace Typings

open Address (IsHome locator)

namespace World

variable {W : World}

/-! ### Registering -/

/-- **A registry of truthful schemas**: each is what its address leads to, and only what references mean is noted. -/
structure Nav (W : World) (r : Registry) : Prop where
  good : W.Good r.refs
  schemas : ∀ key s, r.schemas.get? key = some s →
    ∃ d ∈ W.sites, ∃ tokens, key = locator d.home tokens ∧ Holds r.refs d tokens s
  noted : ∀ key ∈ r.references.keys, key ∈ W.keys
  nodup : r.references.keys.Nodup
  resolved : ∀ key s, r.references.get? key = some (some s) → r.schemas.has key = true
  documents : r.documents = []
  asked : r.asked = []

lemma nav_empty : Nav W .empty :=
  ⟨fun _ _ _ _ _ _ _ h => absurd h (by simp [Registry.empty]), nofun, fun _ h => absurd h List.not_mem_nil, List.nodup_nil,
    nofun, rfl, rfl⟩

/-- Marks and notices do not matter. -/
lemma Nav.told {r : Registry} (hr : Nav W r) (next : ℕ) (notices : List Notice) : Nav W { r with next, notices } :=
  ⟨hr.good, hr.schemas, hr.noted, hr.nodup, hr.resolved, hr.documents, hr.asked⟩

/-- References that are noted anew have no targets; those with targets stay. -/
structure Noted (W : World) (t t' : Table String (Option (Schema Node))) : Prop where
  keys : ∀ key ∈ t'.keys, key ∈ t.keys ∨ key ∈ W.keys
  nodup : t.keys.Nodup → t'.keys.Nodup
  kept : ∀ key o, t.get? key = some o → t'.get? key = some o
  targets : ∀ key s, t'.get? key = some (some s) → t.get? key = some (some s)

lemma takeUp_noted {found : List Discovery.Found} (hf : ∀ f ∈ found, ∃ key ∈ W.keys, f = .reference ⟨key⟩)
    (r : Registry) :
    Yields (Action.takeUp found) r (fun _ r' => ∃ references, r' = { r with references } ∧ Noted W r.references references)
      fun _ _ => False := by
  induction found generalizing r with
  | nil => exact Yields.of_pure ⟨r.references, rfl, fun _ h => Or.inl h, id, fun _ _ h => h, fun _ _ h => h⟩
  | cons f found ih =>
    obtain ⟨key, hkey, rfl⟩ := hf f List.mem_cons_self
    have hrest := ih fun f hmem => hf f (List.mem_cons_of_mem _ hmem)
    refine Yields.bind (Yields.of_modify ?_)
    split_ifs with hhas
    · exact hrest r
    · refine (hrest _).mono ?_ fun _ _ h => h
      rintro ⟨⟩ _ ⟨references, rfl, h⟩
      have hnone : r.references.get? key = none := by
        simpa [Table.has] using hhas
      refine ⟨references, rfl, fun k hk => ?_, fun hn => h.nodup (Table.nodup_keys_set hn _ _), fun k o ho => ?_,
        fun k s hs => ?_⟩
      · rcases h.keys k hk with hk | hk
        · rcases Table.mem_keys_set hk with rfl | hk
          · exact Or.inr hkey
          · exact Or.inl hk
        · exact Or.inr hk
      · refine h.kept k o ?_
        rw [Table.get?_set_of_ne, ho]
        rintro rfl
        rw [hnone] at ho
        cases ho
      · have hset := h.targets k s hs
        rw [Table.get?_set] at hset
        split_ifs at hset with hk
        · cases hset
        · exact hset

/-- What registering changes: the schema is put under its address, and references are noted. -/
structure Registered (W : World) (s : Schema Node) (r r' : Registry) : Prop where
  nav : Nav W r'
  schemas : r'.schemas = r.schemas.set s.address.text s
  references : Noted W r.references r'.references
  next : r'.next = r.next

/-- **Registering a truthful schema** succeeds and keeps the registry truthful. -/
theorem register_nav {r : Registry} (hr : Nav W r) {d : Site} (hd : d ∈ W.sites) {tokens : List String} {s : Schema Node}
    (hs : Holds r.refs d tokens s) :
    Yields (Action.register s) r (fun _ r' => Registered W s r r') fun _ _ => False := by
  obtain ⟨refs, found, hwalk, hkept⟩ := walk_kept hd hs hr.good r.next
  have hfound : ∀ f ∈ found, ∃ key ∈ W.keys, f = .reference ⟨key⟩ := fun f hf =>
    (hkept.found f hf).resolve_left List.not_mem_nil
  unfold Action.register
  refine Yields.bind (Yields.of_modify (Yields.bind ((Action.addSchema_yields s _).mono ?_ fun _ _ h => h)))
  rintro ⟨⟩ _ ⟨notices, rfl⟩
  refine Yields.bind (Yields.of_get ?_)
  dsimp only
  rw [hwalk]
  refine Yields.bind ((takeUp_noted hfound _).mono ?_ fun _ _ h => h)
  rintro ⟨⟩ _ ⟨references, rfl, hnoted⟩
  refine Yields.bind (Yields.of_modify (Yields.of_pure ?_))
  refine ⟨⟨hkept.good, fun key s' hs' => ?_, fun key hk => ?_, hnoted.nodup hr.nodup, fun key s' hs' => ?_, hr.documents,
    hr.asked⟩, rfl, hnoted, rfl⟩
  · dsimp only at hs'
    rw [Table.get?_set] at hs'
    split_ifs at hs' with hkey
    · cases hs'
      exact ⟨d, hd, tokens, hkey ▸ hs.address, hs.mono hkept.persists⟩
    · obtain ⟨d', hd', tokens', hkey', hs''⟩ := hr.schemas key s' hs'
      exact ⟨d', hd', tokens', hkey', hs''.mono hkept.persists⟩
  · rcases hnoted.keys key hk with hk | hk
    · exact hr.noted key hk
    · exact hk
  · exact Table.has_set_of_has (hr.resolved key s' (hnoted.targets key s' hs'))

/-! ### The schema around a target -/

lemma locator_inj {home home' : String} (h : IsHome home) (h' : IsHome home') {ts us : List String}
    (heq : locator home ts = locator home' us) : home = home' ∧ ts = us := by
  have hlist := congrArg String.toList heq
  rw [Address.toList_locator, Address.toList_locator] at hlist
  have hcut := congrArg (Url.cut '#') hlist
  rw [Url.cut_append h.hash, Url.cut_append h'.hash] at hcut
  obtain ⟨hhome, hfragment⟩ := Prod.mk.inj hcut
  exact ⟨String.toList_inj.1 hhome, Pointer.fragmentChars_injective hfragment⟩

lemma document_locator {home : String} (h : IsHome home) (tokens : List String) :
    Address.document ⟨locator home tokens⟩ = locator home [] := by
  unfold Address.document Address.location
  rw [Address.toList_locator, Url.cut_append h.hash]
  simp [locator, Pointer.fragment]

/-- An address that may hold another is in the same document, and a pointer leads from it to the other. -/
theorem mayHold_locator {home home' : String} (h : IsHome home) (h' : IsHome home') {us ts : List String}
    (hold : Resolution.mayHold (locator home us) (locator home' ts) = true) :
    home' = home ∧ ∃ vs, vs ≠ [] ∧ us = ts ++ vs ∧
      (locator home us).toList.drop (locator home' ts).toList.length = Pointer.fragmentChars vs := by
  simp only [Resolution.mayHold, Bool.and_eq_true, decide_eq_true_eq, Bool.or_eq_true, List.isPrefixOf_iff_prefix] at hold
  obtain ⟨⟨⟨hne, ⟨rest, hrest⟩⟩, hend⟩, -⟩ := hold
  rw [← hrest, List.drop_left] at hend ⊢
  rw [Address.toList_locator, Address.toList_locator, List.append_assoc, List.cons_append] at hrest
  have hcut := congrArg (Url.cut '#') hrest
  rw [Url.cut_append h.hash, Url.cut_append h'.hash] at hcut
  obtain ⟨hhome, hfragment⟩ := Prod.mk.inj hcut
  have hhome := String.toList_inj.1 hhome
  have htail : Pointer.IsTail rest := by
    rcases hend with hlast | hslash
    · rw [Address.toList_locator] at hlast
      cases ts with
      | nil =>
        have hrest : rest = Pointer.fragmentChars us := hfragment
        exact hrest ▸ Pointer.isTail_fragmentChars us
      | cons t ts =>
        -- the last character comes from the fragment, which holds no number sign
        exfalso
        refine Pointer.hash_not_mem_fragmentChars (t :: ts) (List.mem_of_getLast? ?_)
        rw [Pointer.fragmentChars_cons] at hlast ⊢
        rwa [List.getLast?_append_cons, List.getLast?_cons_cons] at hlast
    · exact Or.inr hslash
  obtain ⟨vs, rfl, rfl⟩ := Pointer.fragmentChars_append_eq htail hfragment
  refine ⟨hhome, vs, ?_, rfl, rfl⟩
  rintro rfl
  exact hne (by rw [hhome, List.append_nil])

lemma mayHold_document (home : String) {us : List String} (hus : us ≠ []) :
    Resolution.mayHold (locator home us) (locator home []) = true := by
  have hnil : (locator home []).toList = home.toList ++ ['#'] := Address.toList_locator home []
  have hfragment : Pointer.fragmentChars us ≠ [] := by
    cases us with
    | nil => exact absurd rfl hus
    | cons u us => simp [Pointer.fragmentChars_cons]
  have hne : locator home [] ≠ locator home us := by
    intro heq
    have hlist := congrArg String.toList heq
    rw [hnil, Address.toList_locator] at hlist
    exact hfragment (List.cons.inj (List.append_cancel_left hlist)).2.symm
  simp [Resolution.mayHold, hne, hnil, Address.toList_locator]

lemma longestHolder_eq {key : String} {cs : List String} (best : Option String)
    (h : best.isSome = true ∨ ∃ c ∈ cs, Resolution.mayHold key c = true) :
    ∃ b, Resolution.longestHolder key best cs = some b ∧ (best = some b ∨ b ∈ cs ∧ Resolution.mayHold key b = true) := by
  induction cs generalizing best with
  | nil =>
    obtain ⟨b, hb⟩ := Option.isSome_iff_exists.1 (h.resolve_right (by simp))
    exact ⟨b, hb, Or.inl hb⟩
  | cons c cs ih =>
    rw [Resolution.longestHolder.eq_def]
    dsimp only
    split_ifs with hbetter
    · obtain ⟨hmay, -⟩ := Bool.and_eq_true_iff.1 hbetter
      obtain ⟨b, hb, hfrom⟩ := ih (some c) (Or.inl rfl)
      refine ⟨b, hb, Or.inr ?_⟩
      rcases hfrom with hfrom | ⟨hmem, hmay'⟩
      · cases hfrom
        exact ⟨List.mem_cons_self, hmay⟩
      · exact ⟨List.mem_cons_of_mem _ hmem, hmay'⟩
    · have hnext : best.isSome = true ∨ ∃ c ∈ cs, Resolution.mayHold key c = true := by
        rcases h with h | ⟨c', hmem, hmay⟩
        · exact Or.inl h
        · rcases List.mem_cons.1 hmem with rfl | hmem
          · cases best with
            | none => exact absurd (by rw [hmay]; rfl) hbetter
            | some b => exact Or.inl rfl
          · exact Or.inr ⟨c', hmem, hmay⟩
      obtain ⟨b, hb, hfrom⟩ := ih best hnext
      exact ⟨b, hb, hfrom.imp_right fun ⟨hmem, hmay⟩ => ⟨List.mem_cons_of_mem _ hmem, hmay⟩⟩

/-! ### Targets -/

/-- Below a truthful schema, a pointer leads where it leads in the document. -/
lemma Holds.follow {refs : Refs} {d : Site} {ts vs : List String} {s : Schema Node} {y : Node} (h : Holds refs d ts s)
    (hvs : vs ≠ []) (hy : d.node.follow [] (ts ++ vs) = .ok y) :
    ∃ content, s.content.follow refs vs = .ok content ∧ d.node.follow refs (ts ++ vs) = .ok content := by
  have hstands : d.node.follow refs ts = .ok s.content := by
    rcases h.cases with hsame | ⟨front, m, n, text, -, htext, -⟩
    · exact hsame refs
    · -- nothing stands below a text
      obtain ⟨v, vs, rfl⟩ := List.exists_cons_of_ne_nil hvs
      rw [Node.follow_append, htext []] at hy
      cases hy
  have hbelow : s.content.follow refs vs = d.node.follow refs (ts ++ vs) := by
    rw [Node.follow_append, hstands]
    rfl
  rcases Node.follow_cases (ts ++ vs) d.node with hsame | ⟨front, m, fs, n, text, -, -, -, htext⟩
  · exact ⟨y, by rw [hbelow, hsame refs, hy], by rw [hsame refs, hy]⟩
  · exact ⟨_, by rw [hbelow, htext refs], htext refs⟩

/-- What comes out of a truthful schema is truthful. -/
lemma Holds.extract {refs : Refs} {d : Site} {ts vs : List String} {s : Schema Node} {y : Node} (h : Holds refs d ts s)
    (hvs : vs ≠ []) (hy : d.node.follow [] (ts ++ vs) = .ok y) :
    ∃ content, Schema.extract refs s ("#" ++ Pointer.fragment vs) (some ⟨locator d.home (ts ++ vs)⟩) =
        .ok (s.part vs ⟨locator d.home (ts ++ vs)⟩ content) ∧
      Holds refs d (ts ++ vs) (s.part vs ⟨locator d.home (ts ++ vs)⟩ content) := by
  obtain ⟨content, hcontent, hstands⟩ := h.follow hvs hy
  refine ⟨content, ?_, rfl, h.dialect, h.openapi, ?_, Or.inl hstands⟩
  · unfold Schema.extract
    rw [Pointer.parse_fragment]
    simp only [bind, Except.bind, hcontent, Except.mapError, Schema.partAddress, pure, Except.pure]
  · intro a ha
    rcases List.mem_append.1 ha with ha | ha
    · exact h.ancestors a ha
    · exact ⟨ts, List.mem_singleton.1 ha ▸ h.address⟩

/-- A reference has a target. -/
def Resolved (r : Registry) (key : String) : Prop := ∃ s, r.references.get? key = some (some s)

/-- What resolution keeps: the registry stays truthful, and what was registered, was noted or had a target stays so. -/
structure Grows (W : World) (r r' : Registry) : Prop where
  nav : Nav W r'
  schemas : ∀ key, r.schemas.has key = true → r'.schemas.has key = true
  noted : ∀ key ∈ r.references.keys, key ∈ r'.references.keys
  resolved : ∀ key, Resolved r key → Resolved r' key

lemma Grows.refl {r : Registry} (h : Nav W r) : Grows W r r := ⟨h, fun _ h => h, fun _ h => h, fun _ h => h⟩

lemma Grows.trans {r₁ r₂ r₃ : Registry} (h₁ : Grows W r₁ r₂) (h₂ : Grows W r₂ r₃) : Grows W r₁ r₃ :=
  ⟨h₂.nav, fun key h => h₂.schemas key (h₁.schemas key h), fun key h => h₂.noted key (h₁.noted key h),
    fun key h => h₂.resolved key (h₁.resolved key h)⟩

lemma Registered.grows {s : Schema Node} {r r' : Registry} (h : Registered W s r r') : Grows W r r' := by
  refine ⟨h.nav, fun key hkey => ?_, fun key hkey => ?_, fun key ⟨t, ht⟩ => ⟨t, h.references.kept key _ ht⟩⟩
  · rw [h.schemas]
    exact Table.has_set_of_has hkey
  · obtain ⟨o, ho⟩ := Table.has_iff.1 (Table.has_iff_mem_keys.2 hkey)
    exact Table.mem_keys_of_get? (h.references.kept key o ho)

/-- All documents are registered. -/
def Complete (W : World) (r : Registry) : Prop := ∀ d ∈ W.sites, r.schemas.has (locator d.home []) = true

lemma Complete.mono {r r' : Registry} (h : Complete W r) (hg : Grows W r r') : Complete W r' :=
  fun d hd => hg.schemas _ (h d hd)

/-- A schema that is taken out of a registered one, where a pointer leads in its document. -/
structure Extracted (W : World) (r : Registry) (key : String) (s : Schema Node) : Prop where
  fresh : r.schemas.get? key = none
  around : ∃ d ∈ W.sites, ∃ ts vs parent content, vs ≠ [] ∧ key = locator d.home (ts ++ vs) ∧
    r.schemas.get? (locator d.home ts) = some parent ∧ Holds r.refs d ts parent ∧
    s = parent.part vs ⟨key⟩ content ∧ Holds r.refs d (ts ++ vs) s

/-- **How a reference finds its target**: it is registered already, or taken out of the schema around it. -/
theorem target_eq {r : Registry} (hr : Nav W r) (hc : Complete W r) {key : String} (hkey : key ∈ W.keys) :
    (∃ s, r.schemas.get? key = some s ∧ Resolution.target ⟨key⟩ r = .ok s r) ∨
      ∃ s, Extracted W r key s ∧ Resolution.target ⟨key⟩ r = (do Action.register s; return s : Action (Schema Node)) r := by
  obtain ⟨d, hd, us, y, rfl, hy⟩ := exists_of_mem_keys hkey
  have hget : (get : Action Registry) r = .ok r r := rfl
  cases hknown : r.schemas.get? (locator d.home us) with
  | some s =>
    refine Or.inl ⟨s, rfl, ?_⟩
    rw [Resolution.target, bind_of_ok hget]
    simp only [hknown]
    rfl
  | none =>
    have hus : us ≠ [] := by
      rintro rfl
      have := hc d hd
      rw [Table.has, hknown] at this
      cases this
    have hdocument := Table.has_iff_mem_keys.1 (hc d hd)
    obtain ⟨best, hbest, hfrom⟩ :=
      longestHolder_eq none (Or.inr ⟨locator d.home [], hdocument, mayHold_document d.home hus⟩)
    obtain ⟨hmem, hmay⟩ := hfrom.resolve_left (by simp)
    obtain ⟨parent, hparent⟩ := Table.has_iff.1 (Table.has_iff_mem_keys.2 hmem)
    obtain ⟨d', hd', ts, rfl, hholds⟩ := hr.schemas best parent hparent
    obtain ⟨hhome, vs, hvs, rfl, hdrop⟩ := mayHold_locator (W.homes d hd) (W.homes d' hd') hmay
    obtain rfl := W.distinct d' hd' d hd hhome
    have hpointer : String.ofList (Pointer.fragmentChars vs) = Pointer.fragment vs := by
      rw [← Pointer.toList_fragment, String.ofList_toList]
    have hholder : Resolution.holder r ⟨locator d'.home (ts ++ vs)⟩ = .ok (parent, Pointer.fragment vs) := by
      unfold Resolution.holder
      rw [hr.documents]
      simp only [Table.get?_nil, hbest, hparent, hdrop, hpointer]
    have hne : Pointer.fragment vs ≠ "" := by
      intro hempty
      have := congrArg String.toList hempty
      rw [Pointer.toList_fragment] at this
      exact hvs (Pointer.fragmentChars_injective this)
    obtain ⟨content, hs, hsholds⟩ := hholds.extract hvs hy
    refine Or.inr ⟨_, ⟨hknown, d', hd', ts, vs, parent, content, hvs, rfl, hparent, hholds, rfl, hsholds⟩, ?_⟩
    have hlift : ∀ {α : Type} (a : α), (Action.lift (.ok a) : Action α) r = .ok a r := fun _ => rfl
    rw [Resolution.target, bind_of_ok hget]
    simp only [hknown, hholder]
    rw [bind_of_ok (hlift _)]
    simp only [if_neg hne, hs]
    exact bind_of_ok (hlift _)

/-- **A reference has its target**: registered already, or taken out of the schema around it. -/
theorem target_nav {r : Registry} (hr : Nav W r) (hc : Complete W r) {key : String} (hkey : key ∈ W.keys) :
    Yields (Resolution.target ⟨key⟩) r (fun _ r' => Grows W r r' ∧ r'.schemas.has key = true) fun _ _ => False := by
  rcases target_eq hr hc hkey with ⟨s, hs, htarget⟩ | ⟨s, ⟨-, d, hd, ts, vs, parent, content, -, rfl, -, -, rfl, hholds⟩, htarget⟩
  · unfold Yields
    rw [htarget]
    exact ⟨Grows.refl hr, Table.has_iff.2 ⟨s, hs⟩⟩
  · unfold Yields
    rw [htarget]
    refine Yields.bind ((register_nav hr hd hholds).mono ?_ fun _ _ h => h)
    rintro ⟨⟩ r' hreg
    refine Yields.of_pure ⟨hreg.grows, ?_⟩
    rw [hreg.schemas]
    exact Table.has_set.2 (Or.inl rfl)

/-! ### Rounds -/

/-- Giving a reference its target keeps the registry truthful. -/
lemma grows_setTarget {r : Registry} (hr : Nav W r) {key : String} (hkey : key ∈ W.keys) (hhas : r.schemas.has key = true)
    (s : Schema Node) :
    Grows W r { r with references := r.references.set key (some s) } ∧
      Resolved { r with references := r.references.set key (some s) } key := by
  have hself : (r.references.set key (some s)).get? key = some (some s) := by
    rw [Table.get?_set, if_pos rfl]
  refine ⟨⟨⟨hr.good, hr.schemas, fun k hk => ?_, Table.nodup_keys_set hr.nodup _ _, fun k t ht => ?_, hr.documents, hr.asked⟩,
    fun _ h => h, fun k hk => ?_, fun k ⟨t, ht⟩ => ?_⟩, s, hself⟩
  · rcases Table.mem_keys_set hk with rfl | hk
    · exact hkey
    · exact hr.noted k hk
  · rw [Table.get?_set] at ht
    split_ifs at ht with hk
    · exact hk ▸ hhas
    · exact hr.resolved k t ht
  · exact Table.has_iff_mem_keys.1 (Table.has_set_of_has (Table.has_iff_mem_keys.2 hk))
  · by_cases hk : key = k
    · exact ⟨s, hk ▸ hself⟩
    · exact ⟨t, (Table.get?_set_of_ne hk).trans ht⟩

/-- **A property that resolution keeps**: finding the target of a noted address keeps it. -/
structure Lasting (W : World) (I : Registry → Prop) : Prop where
  told : ∀ {r : Registry} (notices : List Notice), I r → I { r with notices }
  target : ∀ {r : Registry} {key : String}, Nav W r → Complete W r → key ∈ r.references.keys → I r →
    Yields (Resolution.target ⟨key⟩) r (fun s r' => I { r' with references := r'.references.set key (some s) })
      fun _ _ => True

variable {I : Registry → Prop}

lemma targets_nav (hi : Lasting W I) {r : Registry} (hr : Nav W r) (hc : Complete W r) (h : I r) {pending : List String}
    (hp : ∀ key ∈ pending, key ∈ r.references.keys) :
    Yields (Resolution.targets pending) r
      (fun left r' => left.keys = [] ∧ Grows W r r' ∧ I r' ∧ ∀ key ∈ pending, Resolved r' key) fun _ _ => False := by
  induction pending generalizing r with
  | nil => exact Yields.of_pure ⟨rfl, Grows.refl hr, h, fun _ h => absurd h List.not_mem_nil⟩
  | cons key pending ih =>
    have hnoted := hp key List.mem_cons_self
    have hkey := hr.noted key hnoted
    have hoftext : Address.ofText key = ⟨key⟩ := by
      obtain ⟨d, hd, tokens, y, rfl, -⟩ := exists_of_mem_keys hkey
      exact (W.homes d hd).ofText_locator tokens
    obtain ⟨s, r₁, htarget, hgrows, hhas⟩ := (target_nav hr hc hkey).exists_ok
    have hlasts := (hi.target hr hc hnoted h).good_of_ok htarget
    obtain ⟨hset, hresolved⟩ := grows_setTarget hgrows.nav hkey hhas s
    have hgrows := hgrows.trans hset
    have hrest := ih hgrows.nav (hc.mono hgrows) hlasts fun k hk => hgrows.noted k (hp k (List.mem_cons_of_mem _ hk))
    rw [Resolution.targets]
    refine Yields.bind ?_
    simp only [Yields, hoftext, htarget]
    refine Yields.bind (hrest.mono ?_ fun _ _ h => h)
    rintro left r₂ ⟨hleft, hgrows₂, h₂, hall⟩
    refine Yields.of_pure ⟨hleft, hgrows.trans hgrows₂, h₂, fun k hk => ?_⟩
    rcases List.mem_cons.1 hk with rfl | hk
    · exact hgrows₂.resolved k hresolved
    · exact hall k hk

/-- Where all documents are registered, none is wanted. -/
lemma wanted_eq_nil {r : Registry} (hc : Complete W r) {pending : List String} (hp : ∀ key ∈ pending, key ∈ W.keys) :
    Resolution.wanted r [] pending = [] := by
  induction pending with
  | nil => rfl
  | cons key pending ih =>
    have hneeds : Resolution.needsFetch r key = false := by
      obtain ⟨d, hd, tokens, y, rfl, -⟩ := exists_of_mem_keys (hp key List.mem_cons_self)
      unfold Resolution.needsFetch
      simp [(W.homes d hd).ofText_locator, document_locator (W.homes d hd), hc d hd]
    rw [Resolution.wanted, hneeds]
    exact ih fun k hk => hp k (List.mem_cons_of_mem _ hk)

lemma fetchAll_nav {r : Registry} (hc : Complete W r) (fetcher : Fetcher) {pending : List String}
    (hp : ∀ key ∈ pending, key ∈ W.keys) :
    Yields (Resolution.fetchAll fetcher pending) r (fun words r' => words = [] ∧ r' = r) fun _ _ => False := by
  refine Yields.bind (Yields.of_get ?_)
  rw [wanted_eq_nil hc hp]
  cases fetcher with
  | none => exact Yields.of_pure ⟨rfl, rfl⟩
  | some fetch => exact Yields.bind (Yields.of_modify (Yields.of_pure ⟨rfl, rfl⟩))

lemma mem_pending {r : Registry} (hr : Nav W r) {key : String} (h : key ∈ r.pending) :
    key ∈ r.references.keys ∧ ¬ Resolved r key := by
  obtain ⟨⟨k, o⟩, hmem, rfl⟩ := List.mem_map.1 h
  obtain ⟨hmem, hnone⟩ := List.mem_filter.1 hmem
  refine ⟨List.mem_map_of_mem hmem, ?_⟩
  rintro ⟨s, hs⟩
  rw [Table.get?_of_mem hr.nodup hmem] at hs
  cases hs
  cases hnone

instance (r : Registry) : DecidablePred (Resolved r) := fun key =>
  decidable_of_iff (((r.references.get? key).getD none).isSome = true) <| by
    unfold Resolved
    cases r.references.get? key with
    | none => simp
    | some o => cases o <;> simp

/-- What references mean and what has no target yet. -/
def unresolved (W : World) (r : Registry) : Finset String := W.keys.toFinset.filter fun key => ¬ Resolved r key

lemma mem_unresolved {r : Registry} {key : String} : key ∈ W.unresolved r ↔ key ∈ W.keys ∧ ¬ Resolved r key := by
  rw [unresolved, Finset.mem_filter, List.mem_toFinset]

lemma unresolved_of_pending {r : Registry} (hr : Nav W r) {key : String} (h : key ∈ r.pending) : key ∈ W.unresolved r := by
  obtain ⟨hnoted, hnot⟩ := mem_pending hr h
  exact mem_unresolved.2 ⟨hr.noted key hnoted, hnot⟩

lemma card_unresolved_lt {r r' : Registry} (hg : Grows W r r') {key : String} (hkey : key ∈ W.unresolved r)
    (hresolved : Resolved r' key) : (W.unresolved r').card < (W.unresolved r).card := by
  refine Finset.card_lt_card ⟨fun k hk => ?_, fun hsub => ?_⟩
  · obtain ⟨hk, hnot⟩ := mem_unresolved.1 hk
    exact mem_unresolved.2 ⟨hk, fun h => hnot (hg.resolved k h)⟩
  · exact (mem_unresolved.1 (hsub hkey)).2 hresolved

/-- **Rounds end**: each resolves one of finitely many addresses at least. -/
theorem rounds_nav (hi : Lasting W I) (fetcher : Fetcher) {limit : ℕ} (round resolved : ℕ) {r : Registry} (hr : Nav W r)
    (hc : Complete W r) (h : I r) (hlimit : (W.unresolved r).card ≤ limit) :
    Yields (Resolution.rounds fetcher limit round resolved) r (fun _ r' => Grows W r r' ∧ I r' ∧ r'.pending = [])
      fun _ _ => False := by
  induction limit generalizing round resolved r with
  | zero =>
    refine Yields.bind (Yields.of_get ?_)
    have hpending : r.pending = [] := by
      refine List.eq_nil_iff_forall_not_mem.2 fun key hkey => ?_
      have hempty := Finset.card_eq_zero.1 (Nat.le_zero.1 hlimit)
      exact absurd (hempty ▸ unresolved_of_pending hr hkey) (Finset.notMem_empty key)
    rw [if_pos hpending]
    exact Yields.of_pure ⟨Grows.refl hr, h, hpending⟩
  | succ limit ih =>
    refine Yields.bind (Yields.of_get ?_)
    dsimp only
    split_ifs with hpending
    · exact Yields.of_pure ⟨Grows.refl hr, h, hpending⟩
    · have hnoted : ∀ key ∈ r.pending, key ∈ r.references.keys := fun key hkey => (mem_pending hr hkey).1
      have hkeys : ∀ key ∈ r.pending, key ∈ W.keys := fun key hkey => hr.noted key (hnoted key hkey)
      refine Yields.bind (Yields.of_modify ?_)
      have hnav := hr.told r.next (.roundBegun (round + 1) r.pending.length :: r.notices)
      have hcomplete : Complete W { r with notices := .roundBegun (round + 1) r.pending.length :: r.notices } := hc
      refine Yields.bind ((fetchAll_nav hcomplete fetcher hkeys).mono ?_ fun _ _ h => h)
      rintro _ _ ⟨rfl, rfl⟩
      refine Yields.bind ((targets_nav hi hnav hcomplete (hi.told _ h) hnoted).mono ?_ fun _ _ h => h)
      rintro left r' ⟨hleft, hgrows, h', hall⟩
      have hgrows : Grows W r r' := ⟨hgrows.nav, hgrows.schemas, hgrows.noted, hgrows.resolved⟩
      rw [if_pos ⟨rfl, hleft⟩]
      -- no target is left over, so that whatever was pending is resolved now
      obtain ⟨key, hkey⟩ := List.exists_mem_of_ne_nil _ hpending
      have hless := card_unresolved_lt hgrows (unresolved_of_pending hr hkey) (hall key hkey)
      refine (ih _ _ hgrows.nav (hc.mono hgrows) h' (by omega)).mono ?_ fun _ _ h => h
      rintro n r'' ⟨hgrows', hend⟩
      exact ⟨hgrows.trans hgrows', hend⟩

/-- **Resolution ends well** where all documents are registered; it leaves the registry truthful, and keeps what lasts. -/
theorem resolve_lasting (hi : Lasting W I) (fetcher : Fetcher) {r : Registry} (hr : Nav W r) (hc : Complete W r) (h : I r)
    (hsize : Node.sizeItems (W.sites.map (·.node)) ≤ r.size) :
    Yields (Resolution.resolve fetcher) r (fun _ r' => Grows W r r' ∧ I r' ∧ r'.pending = []) fun _ _ => False := by
  have hlimit : (W.unresolved r).card ≤ Resolution.roundLimit r :=
    calc (W.unresolved r).card
      _ ≤ W.keys.toFinset.card := Finset.card_filter_le _ _
      _ ≤ W.keys.length := List.toFinset_card_le _
      _ ≤ Node.sizeItems (W.sites.map (·.node)) := length_keys
      _ ≤ r.size := hsize
      _ ≤ Resolution.roundLimit r := Nat.le_add_right _ _
  exact Yields.bind (Yields.of_get (rounds_nav hi fetcher 0 0 hr hc h hlimit))

theorem resolve_nav (fetcher : Fetcher) {r : Registry} (hr : Nav W r) (hc : Complete W r)
    (hsize : Node.sizeItems (W.sites.map (·.node)) ≤ r.size) :
    Yields (Resolution.resolve fetcher) r (fun _ r' => Grows W r r' ∧ r'.pending = []) fun _ _ => False := by
  have hnothing : Lasting W fun _ => True := ⟨fun _ _ => trivial, fun _ _ _ _ => Yields.anything⟩
  exact (resolve_lasting hnothing fetcher hr hc trivial hsize).mono (fun _ _ ⟨hgrows, _, hpending⟩ => ⟨hgrows, hpending⟩)
    fun _ _ h => h

end World

end Typings
