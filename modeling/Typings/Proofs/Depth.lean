import Mathlib.Data.List.Perm.Subperm
import Typings.Proofs.Synthesis

/-!
How deep emission goes. From a value it goes on to the parts that declarations look into, and from `allOf` to the members
and the targets of references among them; a value is shallow if no such way from it is too long (`Shallow`). Merging makes
no way longer, since whatever it unites was there on one of the sides, so a normal form is as shallow as the value that it
comes from. Where no schema inherits from itself, a way comes to no schema twice, and is no longer than all schemas
together are large. References outside `allOf` may go round in circles: they are named and not followed. Main statements:

* `content_settles`: at depths that are enough for a shallow value, its normal form does not depend on the depth;
* `Registry.shallow_of_offers`: where no schema inherits from itself, each is as shallow as the registry is large;
* `emit_settles`: there, emission gives the same at all greater depths.
-/

namespace Typings

namespace Normal

/-! ### Shallow values -/

section Shallow

variable (lookup : String → Except Failure (Schema Json))

/-- Emission goes on from the value `u` of a member: to a part of it, to an inline member of `allOf`, or to the target of
one that is a reference. -/
inductive Descends (key : String) (u : Json) : Json → Prop
  | part {p : Discovery.Place} {w : Json} (hk : key ≠ "allOf") (hp : (key, p) ∈ shownPlaces) (hw : w ∈ pick p u) :
    Descends key u w
  | member {m : Json} (hk : key = "allOf") (hm : m ∈ u.items) (hr : reference? m = none) : Descends key u m
  | target {m : Json} {text : String} {t : Schema Json} (hk : key = "allOf") (hm : m ∈ u.items)
    (hr : reference? m = some text) (ht : lookup text = .ok t) : Descends key u t.content

/-- **A shallow value**: every way of emission from it comes to less than `n` values. -/
inductive Shallow : ℕ → Json → Prop
  | intro {n : ℕ} {v : Json} (h : ∀ key u, v.get? key = some u → ∀ w, Descends lookup key u w → Shallow n w) :
    Shallow (n + 1) v

/-- What shallowness asks of the value under a key. -/
def ShallowAt (n : ℕ) (key : String) (u : Json) : Prop := ∀ w, Descends lookup key u w → Shallow lookup n w

variable {lookup} {n : ℕ} {v w : Json} {fs gs : Fields} {key : String}

lemma shallow_obj : Shallow lookup (n + 1) (.obj fs) ↔ Everywhere (ShallowAt lookup n) fs := by
  constructor
  · rintro ⟨h⟩
    exact h
  · exact fun h => ⟨h⟩

lemma Shallow.pos (h : Shallow lookup n v) : 0 < n := by
  cases h
  exact Nat.succ_pos _

lemma Shallow.mono {k : ℕ} (h : Shallow lookup n v) (hk : n ≤ k) : Shallow lookup k v := by
  induction h generalizing k with
  | intro _ ih =>
    cases k with
    | zero => omega
    | succ k => exact ⟨fun key u hu w hw => ih key u hu w hw (by omega)⟩

lemma shallow_of_not_object (hn : 0 < n) (h : v.isObject = false) : Shallow lookup n v := by
  cases n with
  | zero => cases hn
  | succ n =>
    refine ⟨fun key u hu => ?_⟩
    rw [get?_of_not_object h] at hu
    cases hu

lemma Shallow.overlay (hf : Shallow lookup n (.obj fs)) (hg : Shallow lookup n (.obj gs)) :
    Shallow lookup n (.obj (Table.overlay fs (Table.entries gs))) := by
  cases n with
  | zero => exact absurd hf.pos (Nat.lt_irrefl 0)
  | succ n => exact shallow_obj.2 ((shallow_obj.1 hf).overlay (shallow_obj.1 hg))

/-- Keywords of other kinds do not matter. -/
lemma shallowAt_of_not_shown (hk : key ∉ shownPlaces.keys) (u : Json) : ShallowAt lookup n key u := by
  rintro w (⟨-, hp, -⟩ | ⟨rfl, -, -⟩ | ⟨rfl, -, -, -⟩)
  · exact absurd (List.mem_map_of_mem hp) hk
  · exact absurd (by decide) hk
  · exact absurd (by decide) hk

lemma shallowAt_type (u : Json) : ShallowAt lookup n "type" u := shallowAt_of_not_shown (by decide) u

lemma mem_items_combine {current : Option Json} (h : w ∈ (combine current v).items) :
    (∃ u, current = some u ∧ w ∈ u.items) ∨ w ∈ v.items := by
  rw [combine.eq_def] at h
  split at h
  · exact absurd h List.not_mem_nil
  · rcases mem_appendNew h with h | h
    · exact Or.inl ⟨_, rfl, h⟩
    · exact Or.inr h
  · exact Or.inr h

/-- **Merging makes no way longer.** -/
lemma shallowAt_combine {current : Option Json} (hc : ∀ u, current = some u → ShallowAt lookup n key u)
    (hv : ShallowAt lookup n key v) : ShallowAt lookup n key (combine current v) := by
  intro w hw
  cases hw with
  | part hk hp hw =>
    rcases mem_pick_combine hw with ⟨u, hu, hw⟩ | hw | ⟨hobj, hself⟩ | ⟨a, b, ha, rfl, rfl, hwa, hwb⟩
    · exact hc u hu w (.part hk hp hw)
    · exact hv w (.part hk hp hw)
    · exact shallow_of_not_object (hv v (.part hk hp hself)).pos hobj
    · exact (hc _ ha _ (.part hk hp hwa)).overlay (hv _ (.part hk hp hwb))
  | member hk hm hr =>
    rcases mem_items_combine hm with ⟨u, hu, hm⟩ | hm
    · exact hc u hu w (.member hk hm hr)
    · exact hv w (.member hk hm hr)
  | target hk hm hr ht =>
    rcases mem_items_combine hm with ⟨u, hu, hm⟩ | hm
    · exact hc u hu _ (.target hk hm hr ht)
    · exact hv _ (.target hk hm hr ht)

lemma shallow_ofBool (hn : 0 < n) (b : Bool) : Shallow lookup n (.obj (ofBool b)) := by
  cases n with
  | zero => cases hn
  | succ n =>
    refine shallow_obj.2 fun key u hu => ?_
    cases b with
    | true => cases hu
    | false =>
      obtain ⟨rfl, -⟩ : "not" = key ∧ Json.obj [] = u := by simpa [ofBool, Table.get?] using hu
      exact shallowAt_of_not_shown (by decide) u

end Shallow

/-! ### Normal forms at two depths -/

section Content

variable {lookup : String → Except Failure (Schema Json)} (rules : TypeRules) (bound bound' : ℕ)

/-- Normal forms of values that are shallow by `n` are the same at all depths that are enough for `n`. -/
def Settles (lookup : String → Except Failure (Schema Json)) (n : ℕ) : Prop :=
  ∀ depth depth' s seen v, n ≤ depth + 1 → n ≤ depth' + 1 → Shallow lookup n v →
    Alike (content ⟨some lookup, rules, bound⟩ depth s seen v) (content ⟨some lookup, rules, bound'⟩ depth' s seen v)
      (fun fs => Shallow lookup n (.obj fs)) (· ≠ .endless)

variable {rules bound bound'} {n depth depth' : ℕ} {s : Schema Json} {seen : List String}
  (hl : ∀ text f, lookup text = .error f → f ≠ .endless) (ih : Settles rules bound bound' lookup n)
  (hd : n ≤ depth) (hd' : n ≤ depth')

include hl ih hd hd' in
/-- A member is an inline value, or it leads to its target with one depth less. -/
lemma member_settles {members : List Json} (hm : ShallowAt lookup n "allOf" (.arr members)) {m : Json} (h : m ∈ members) :
    Alike (member ⟨some lookup, rules, bound⟩ depth s seen m) (member ⟨some lookup, rules, bound'⟩ depth' s seen m)
      (fun fs => Shallow lookup n (.obj fs)) (· ≠ .endless) := by
  rw [member.eq_def, member.eq_def]
  cases hr : reference? m with
  | none => exact ih depth depth' s seen m (by omega) (by omega) (hm m (.member rfl h hr))
  | some text =>
    dsimp only
    split_ifs
    · exact Alike.of_throw (by rintro ⟨⟩)
    · cases ht : lookup text with
      | error f => exact Alike.of_throw (hl text f ht)
      | ok t =>
        have hshallow : Shallow lookup n t.content := hm _ (.target rfl h hr ht)
        have hpos := hshallow.pos
        obtain ⟨d, rfl⟩ : ∃ d, depth = d + 1 := ⟨depth - 1, by omega⟩
        obtain ⟨d', rfl⟩ : ∃ d', depth' = d' + 1 := ⟨depth' - 1, by omega⟩
        exact ih d d' t (text :: seen) t.content hd hd' hshallow

include hl ih hd hd' in
lemma mergeAll_settles {members : List Json} (hm : ShallowAt lookup n "allOf" (.arr members)) {rest : List Json}
    (hrest : rest ⊆ members) {done : Fields} (hdone : Everywhere (ShallowAt lookup n) done) :
    Alike (mergeAll ⟨some lookup, rules, bound⟩ depth s seen done rest)
      (mergeAll ⟨some lookup, rules, bound'⟩ depth' s seen done rest) (Everywhere (ShallowAt lookup n)) (· ≠ .endless) := by
  induction rest generalizing done with
  | nil =>
    rw [mergeAll, mergeAll]
    exact Alike.of_pure hdone
  | cons m rest irest =>
    obtain ⟨hmem, hrest⟩ := List.cons_subset.1 hrest
    rw [mergeAll, mergeAll]
    refine (member_settles hl ih hd hd' hm hmem).bind fun fs hfs => ?_
    refine (Alike.forM fun key _ => Alike.of_modify).bind fun _ _ => irest hrest ?_
    refine hdone.merge (fun _ _ _ => shallowAt_combine) fun key v hv => ?_
    -- one value more for the schema itself, so what its members show is shallow enough
    have hmore : Everywhere (ShallowAt lookup n) fs := shallow_obj.1 (hfs.mono (Nat.le_succ n))
    exact hmore.erase _ key v (Table.mem_entries.1 hv)

omit hd hd' in
include hl ih in
lemma settles_succ : Settles rules bound bound' lookup (n + 1) := by
  intro depth depth' s seen v hd hd' hv
  have settle : ∀ fs, Everywhere (ShallowAt lookup n) fs →
      Alike (Told.lift (settleType rules fs)) (Told.lift (settleType rules fs))
        (fun gs => Shallow lookup (n + 1) (.obj gs)) (· ≠ .endless) := fun fs hfs =>
    Told.lift_alike (fun gs h => shallow_obj.2 (hfs.settleType shallowAt_type h)) fun f h => settleType_error h ▸ (by rintro ⟨⟩)
  cases v with
  | bool b =>
    rw [content, content]
    exact Alike.of_pure (shallow_ofBool (Nat.succ_pos n) b)
  | obj fs =>
    have hfs := shallow_obj.1 hv
    by_cases h : ∃ members, Table.get? fs "allOf" = some (.arr members)
    · obtain ⟨members, h⟩ := h
      rw [content_of_members h, content_of_members h]
      refine (mergeAll_settles hl ih (by omega) (by omega) (hfs "allOf" _ h) (List.Subset.refl _) (hfs.erase _)).bind ?_
      exact fun merged hm => settle merged hm
    · have h' : ∀ members, Table.get? fs "allOf" ≠ some (.arr members) := fun members hm => h ⟨members, hm⟩
      rw [content_of_no_members h', content_of_no_members h']
      exact settle _ (hfs.erase _)
  | _ =>
    rw [content, content]
    · exact Alike.of_throw (by rintro ⟨⟩)
    all_goals
      rintro _ ⟨⟩

omit ih hd hd' in
include hl in
/-- **The normal form of a shallow value** does not depend on the depth, and is as shallow as the value. -/
theorem content_settles (n : ℕ) : Settles rules bound bound' lookup n := by
  induction n with
  | zero => exact fun _ _ _ _ _ _ _ hv => absurd hv.pos (Nat.lt_irrefl 0)
  | succ n ih => exact settles_succ hl ih

omit ih hd hd' in
include hl in
lemma normalize_settles {env : Setting} (hlookup : env.lookup = some lookup) {inner : ℕ} (hdepth : n ≤ env.depth + 1)
    (hinner : n ≤ inner + 1) (hs : Shallow lookup n s.content) :
    Alike (normalize env s) (normalize { env with depth := inner } s) (fun t => Shallow lookup n (.obj t.content))
      (· ≠ .endless) := by
  obtain ⟨l, rules, depth⟩ := env
  cases hlookup
  exact (content_settles hl n depth inner s [] s.content hdepth hinner hs).bind fun _ hfs => Alike.of_pure hfs

end Content

end Normal

/-! ### Declarations at two depths -/

namespace Emission

/-- The same setting with other depths, one for normal forms and one for declarations. -/
def Setting.withDepths (env : Setting) (inner outer : ℕ) : Setting :=
  { env with normal := { env.normal with depth := inner }, depth := outer }

/-- A value is shallow enough for what is left of two depths: it takes four calls to come from a value to its parts. -/
def Fits (env : Setting) (inner : ℕ) (c d d' : ℕ) (v : Json) : Prop :=
  ∃ n, Normal.Shallow env.lookup n v ∧ n ≤ env.normal.depth + 1 ∧ n ≤ inner + 1 ∧ 4 * n + c ≤ d + 4 ∧ 4 * n + c ≤ d' + 4

/-- Settings that differ in the depths go together on values that are shallow enough for both. -/
lemma kindred_withDepths {env : Setting} (hnormal : env.normal.lookup = some env.lookup)
    (hl : ∀ text f, env.lookup text = .error f → f ≠ .endless) (inner outer : ℕ) :
    Kindred env (env.withDepths inner outer) (Fits env inner) (· ≠ .endless) where
  tree := rfl
  isRegistered := rfl
  own _ hf := hf.ne_endless
  lookup _ _ := Told.lift_alike (fun _ _ => trivial) fun f hf => hl _ f hf
  normalize {c d d' s} := by
    rintro ⟨n, hn, hdepth, hinner, hd, hd'⟩
    refine (Normal.normalize_settles hl hnormal hdepth hinner hn).mono fun t ht => ?_
    exact ⟨n, ht, hdepth, hinner, hd, hd'⟩
  part := by
    rintro c d d' v w ⟨n, ⟨hn⟩, hdepth, hinner, hd, hd'⟩ ⟨key, p, u, hk, hp, hu, hw⟩
    exact ⟨_, hn key u hu w (.part hk hp hw), by omega, by omega, by omega, by omega⟩
  call := by
    rintro c d d' v ⟨n, hn, hdepth, hinner, hd, hd'⟩
    exact ⟨n, hn, hdepth, hinner, by omega, by omega⟩
  less := by
    rintro c d d' v ⟨n, hn, hdepth, hinner, hd, hd'⟩
    exact ⟨n, hn, hdepth, hinner, by omega, by omega⟩
  depths := by
    rintro c d d' v ⟨n, hn, -, -, hd, hd'⟩
    have := hn.pos
    exact Or.inr ⟨d - 1, d' - 1, by omega, by omega⟩

end Emission

/-! ### Inheritance -/

namespace Normal

/-- The texts of the references among the members of `allOf`, at any depth of a value. -/
def inheritedTexts (v : Json) : List String :=
  v.parts.flatMap fun w => (((w.get? "allOf").map (·.items)).getD []).filterMap reference?

lemma pick_inside {p : Discovery.Place} {u w : Json} (h : w ∈ pick p u) : w.parts ⊆ u.parts ∧ w.size ≤ u.size := by
  have hself : w ∈ [u] → w.parts ⊆ u.parts ∧ w.size ≤ u.size := fun h =>
    List.mem_singleton.1 h ▸ ⟨List.Subset.refl _, Nat.le_refl _⟩
  have hheld : u.Holds w → w.parts ⊆ u.parts ∧ w.size ≤ u.size := fun h =>
    ⟨h.parts_subset, Nat.le_of_lt h.size_lt⟩
  cases p with
  | one => exact hself h
  | many => exact hheld (Or.inl h)
  | named => exact hheld (Or.inr h)
  | oneOrMany =>
    cases u with
    | arr xs => exact hheld (Or.inl h)
    | _ => exact hself h
  | manyOrNamed =>
    cases u with
    | arr xs => exact hheld (Or.inl h)
    | _ => exact hheld (Or.inr h)
  | sections =>
    obtain ⟨x, hx, hw⟩ := List.mem_flatMap.1 h
    have hx : u.Holds x := Or.inr hx
    have hw : x.Holds w := Or.inr hw
    exact ⟨List.Subset.trans hw.parts_subset hx.parts_subset, Nat.le_of_lt (hw.size_lt.trans hx.size_lt)⟩

lemma holds_of_get? {v u : Json} {key : String} (h : v.get? key = some u) : v.Holds u := by
  cases v with
  | obj fs => exact Or.inr (Table.mem_values_of_get? h)
  | _ => cases h

/-- A value is shallow by its size, and by what the targets of its `allOf` members need. -/
lemma shallow_of_targets {lookup : String → Except Failure (Schema Json)} {k : ℕ} (v : Json)
    (h : ∀ text ∈ inheritedTexts v, ∀ t, lookup text = .ok t → Shallow lookup k t.content) :
    Shallow lookup (v.size + k) v := by
  induction hsize : v.size using Nat.strong_induction_on generalizing v with
  | _ n ih =>
    subst hsize
    have hpos := v.size_pos
    -- whatever is inside inherits from nothing else, and is smaller
    have hinside : ∀ w : Json, w.parts ⊆ v.parts → w.size < v.size → Shallow lookup (v.size - 1 + k) w := by
      intro w hparts hlt
      refine (ih w.size hlt w (fun text htext => h text ?_) rfl).mono (by omega)
      obtain ⟨x, hx, htext⟩ := List.mem_flatMap.1 htext
      exact List.mem_flatMap.2 ⟨x, hparts hx, htext⟩
    have hsucc : v.size + k = v.size - 1 + k + 1 := by omega
    rw [hsucc]
    refine ⟨fun key u hu w hw => ?_⟩
    have hheld := holds_of_get? hu
    cases hw with
    | part _ _ hw =>
      obtain ⟨hparts, hle⟩ := pick_inside hw
      exact hinside w (List.Subset.trans hparts hheld.parts_subset) (Nat.lt_of_le_of_lt hle hheld.size_lt)
    | member _ hm _ =>
      have hm : u.Holds w := Or.inl hm
      exact hinside w (List.Subset.trans hm.parts_subset hheld.parts_subset) (hm.size_lt.trans hheld.size_lt)
    | target hk hm hr ht =>
      refine (h _ (List.mem_flatMap.2 ⟨v, List.mem_cons_self, ?_⟩) _ ht).mono (by omega)
      rw [← hk, hu]
      exact List.mem_filterMap.2 ⟨_, hm, hr⟩

end Normal

namespace Registry

/-- **One schema inherits from another**: somewhere in its content, a member of `allOf` is a reference to the other. -/
def Inherits (r : Registry) (s t : Schema Node) : Prop :=
  ∃ text ∈ Normal.inheritedTexts (s.content.read r.refs), r.dereference text = .ok t

/-- What references mean to emission. -/
def reads (r : Registry) (text : String) : Except Failure (Schema Json) := (r.dereference text).map (·.read r.refs)

lemma reads_error (r : Registry) (text : String) (f : Failure) (h : r.reads text = .error f) : f ≠ .endless := by
  rw [reads, dereference] at h
  split at h
  · cases h
  · cases h
    rintro ⟨⟩

variable {r : Registry}

/-- Distinct schemas that a registry offers are together no larger than the registry. -/
lemma size_le_of_offers {schemas : List (Schema Node)} (hnodup : schemas.Nodup) (h : ∀ s ∈ schemas, r.Offers s) :
    Node.sizeItems (schemas.map (·.content)) ≤ r.size := by
  have hsub : schemas ⊆ r.schemas.values ++ r.references.values.filterMap id := by
    intro s hs
    rcases h s hs with hs | hs
    · exact List.mem_append_left _ hs
    · exact List.mem_append_right _ (List.mem_filterMap.2 ⟨_, hs, rfl⟩)
  obtain ⟨all, hperm, hsublist⟩ := List.subperm_iff.1 (List.subperm_of_subset hnodup hsub)
  obtain ⟨others, hothers⟩ := hsublist.exists_perm_append
  have hsize : r.size = Node.sizeItems ((schemas ++ others).map (·.content)) :=
    Node.sizeItems_perm (((hperm.symm.trans hothers).map _).map _)
  rw [hsize, List.map_append]
  exact Nat.le_trans (Nat.le_add_right _ _) (Nat.le_of_eq (Discovery.total_append _ _).symm)

/-- A way of inheritance comes to no schema twice, so a schema is shallow by what is left of the size of the registry
when the schemas on the way to it are taken off. -/
lemma shallow_of_way (hr : ∀ s, ¬ Relation.TransGen r.Inherits s s) (n : ℕ) (way : List (Schema Node)) (s : Schema Node)
    (hnodup : (s :: way).Nodup) (hoffers : ∀ t ∈ s :: way, r.Offers t) (hway : ∀ t ∈ way, Relation.TransGen r.Inherits t s)
    (hn : Node.sizeItems (way.map (·.content)) + n = r.size) :
    Normal.Shallow r.reads n (s.content.read r.refs) := by
  induction n using Nat.strong_induction_on generalizing way s with
  | _ n ih =>
    have hsize := size_le_of_offers hnodup hoffers
    have hpos : 0 < s.content.size := by
      rw [← Node.size_read r.refs]
      exact Json.size_pos _
    rw [List.map_cons, Node.sizeItems] at hsize
    obtain ⟨k, rfl⟩ : ∃ k, n = s.content.size + k := ⟨n - s.content.size, by omega⟩
    have hshallow : Normal.Shallow r.reads ((s.content.read r.refs).size + k) (s.content.read r.refs) := by
      refine Normal.shallow_of_targets _ fun text htext t ht => ?_
      obtain ⟨t, hd, rfl⟩ : ∃ t', r.dereference text = .ok t' ∧ t'.read r.refs = t := by
        rw [reads] at ht
        cases hd : r.dereference text with
        | error f =>
          rw [hd] at ht
          cases ht
        | ok t' =>
          rw [hd] at ht
          cases ht
          exact ⟨t', rfl, rfl⟩
      have hinherits : r.Inherits s t := ⟨text, htext, hd⟩
      have hleads : ∀ t' ∈ s :: way, Relation.TransGen r.Inherits t' t := by
        intro t' ht'
        rcases List.mem_cons.1 ht' with rfl | ht'
        · exact .single hinherits
        · exact (hway t' ht').tail hinherits
      refine ih k (by omega) (s :: way) t (List.nodup_cons.2 ⟨fun ht => hr t (hleads t ht), hnodup⟩) ?_ hleads ?_
      · intro t' ht'
        rcases List.mem_cons.1 ht' with rfl | ht'
        · exact mem_of_dereference hd
        · exact hoffers t' ht'
      · rw [List.map_cons, Node.sizeItems]
        omega
    rwa [Node.size_read] at hshallow

/-- **Where no schema inherits from itself**, each is as shallow as the registry is large. -/
theorem shallow_of_offers (hr : ∀ s, ¬ Relation.TransGen r.Inherits s s) {s : Schema Node} (hs : r.Offers s) :
    Normal.Shallow r.reads r.size (s.content.read r.refs) := by
  refine shallow_of_way hr r.size [] s (List.pairwise_singleton _ s) (fun t ht => ?_) (fun t ht => ?_) (Nat.zero_add _)
  · exact List.mem_singleton.1 ht ▸ hs
  · cases ht

/-- No schema inherits from itself where what a schema inherits from always has a lower rank. -/
lemma not_inherits_self (rank : Schema Node → ℕ) (h : ∀ s t, r.Offers s → r.Inherits s t → rank t < rank s)
    (s : Schema Node) : ¬ Relation.TransGen r.Inherits s s := by
  have hoffers : ∀ s t, Relation.TransGen r.Inherits s t → r.Offers t := by
    intro s t hst
    cases hst with
    | single hst | tail _ hst =>
      obtain ⟨text, -, hd⟩ := hst
      exact mem_of_dereference hd
  have hlower : ∀ t, r.Offers s → Relation.TransGen r.Inherits s t → rank t < rank s := by
    intro t hs hst
    induction hst with
    | single hst => exact h _ _ hs hst
    | tail hsu hut ih => exact (h _ _ (hoffers _ _ hsu) hut).trans ih
  intro hss
  exact absurd (hlower s (hoffers s s hss) hss) (Nat.lt_irrefl _)

end Registry

namespace Generator

/-- **Emission comes to an end where no schema inherits from itself.** References outside `allOf` may go round in circles.
However much deeper emission may go, it gives the same, and it never stops for want of depth. -/
theorem emit_settles (options : Options) {r : Registry} (hr : ∀ s, ¬ Relation.TransGen r.Inherits s s)
    {tree : Namespace (Schema Node)} (htree : tree.Every r.Offers) {inner outer : ℕ} (hinner : depthBound r ≤ inner)
    (houter : 4 * depthBound r ≤ outer) (notices : List Notice) :
    Emission.emit ((emissionSetting options r tree).withDepths inner outer) notices =
        Emission.emit (emissionSetting options r tree) notices ∧
      ∀ notices', Emission.emit (emissionSetting options r tree) notices ≠ .error .endless notices' := by
  have hfits : (emissionSetting options r tree).tree.Every fun s =>
      Emission.Fits (emissionSetting options r tree) inner 3 (emissionSetting options r tree).depth outer s.content := by
    refine Namespace.every_map (fun s hs => ?_) tree htree
    have hbound : depthBound r = r.size + 1 := rfl
    refine ⟨r.size, Registry.shallow_of_offers hr hs, ?_, by omega, ?_, by omega⟩
    · change r.size ≤ depthBound r + 1
      omega
    · change 4 * r.size + 3 ≤ 4 * depthBound r + 4
      omega
  obtain ⟨heq, hyields⟩ := (Emission.kindred_withDepths rfl r.reads_error inner outer).emit hfits notices
  exact ⟨heq.symm, fun notices' h => hyields.bad_of_error h rfl⟩

/-- A schema at an address. -/
def plainSchema (text : String) (v : Json) : Schema Node := ⟨.draft07, .ofText text, Node.ofJson v, none, [], false⟩

/-- Things have owners. -/
def thing : Schema Node :=
  plainSchema "/thing" (.obj [("properties", .obj [("owner", .obj [("$ref", .str "/person")])])])

/-- Persons are things, and have friends and things. -/
def person : Schema Node :=
  plainSchema "/person" (.obj [("allOf", .arr [.obj [("$ref", .str "/thing")]]),
    ("properties", .obj [("friend", .obj [("$ref", .str "/person")]), ("owns", .obj [("$ref", .str "/thing")])])])

/-- A registry in which references go round in circles, but inheritance does not. -/
def society : Registry := { Registry.empty with schemas := [("/person#", person), ("/thing#", thing)] }

/-- Its namespaces. -/
def societyTree : Namespace (Schema Node) := .node none [("person", .node (some person) []), ("thing", .node (some thing) [])]

lemma society_offers {s : Schema Node} : society.Offers s ↔ s = person ∨ s = thing := by
  simp [Registry.Offers, society, Registry.empty, Table.values]

theorem emit_settles_society :
    (∀ s, ¬ Relation.TransGen society.Inherits s s) ∧ society.Inherits person thing ∧ societyTree.Every society.Offers ∧
      ∀ options notices, Emission.emit ((emissionSetting options society societyTree).withDepths 1000 4000) notices =
          Emission.emit (emissionSetting options society societyTree) notices ∧
        ∀ notices', Emission.emit (emissionSetting options society societyTree) notices ≠ .error .endless notices' := by
  have hperson : Normal.inheritedTexts (person.content.read society.refs) = ["/thing"] := by decide +kernel
  have hthing : Normal.inheritedTexts (thing.content.read society.refs) = [] := by decide +kernel
  have hkey : (Address.ofText "/thing").text = "/thing#" := by decide +kernel
  have htarget : society.dereference "/thing" = .ok thing := by
    rw [Registry.dereference, hkey]
    rfl
  have hacyclic : ∀ s, ¬ Relation.TransGen society.Inherits s s := by
    refine Registry.not_inherits_self (·.content.size) ?_
    rintro s t hs ⟨text, htext, ht⟩
    rcases society_offers.1 hs with rfl | rfl
    · rw [hperson, List.mem_singleton] at htext
      subst htext
      rw [htarget] at ht
      cases ht
      decide +kernel
    · rw [hthing] at htext
      cases htext
  have hleaf : ∀ s, society.Offers s → (Namespace.node (some s) []).Every society.Offers := fun s hs =>
    ⟨fun a ha => Option.some.inj ha ▸ hs, trivial⟩
  have htree : societyTree.Every society.Offers :=
    ⟨nofun, hleaf person (society_offers.2 (Or.inl rfl)), hleaf thing (society_offers.2 (Or.inr rfl)), trivial⟩
  refine ⟨hacyclic, ⟨"/thing", hperson ▸ List.mem_singleton_self _, htarget⟩, htree, fun options notices => ?_⟩
  exact emit_settles options hacyclic htree (by decide +kernel) (by decide +kernel) notices

end Generator

end Typings
