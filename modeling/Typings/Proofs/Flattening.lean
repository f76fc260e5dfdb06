import Mathlib
import Typings.Emission
import Typings.Proofs.Folding
import Typings.Proofs.Merging

/-!
Normal forms and flattening. A value is flattened by writing down what it says itself and then, for each member of its
`allOf` in order, the flattening of what the member stands for. Nested members are merged level by level, but for properties
and required names this comes to the same as going through the flattened list once: a later declaration of a property
replaces the value and leaves the place, and required names add up. Main statement: `normalize_flattens`.
-/

namespace Typings

lemma Json.same_str_iff {v : Json} {name : String} : v.same (.str name) = true ↔ v = .str name := by
  cases v <;> simp [same, numbersEqual, number?]

lemma Json.str_isIn_iff {xs : List Json} {name : String} : (str name).isIn xs = true ↔ str name ∈ xs := by
  simp [isIn, same_str_iff]

namespace Normal

open Emission (propertyNames requiredNames)

/-! ### Flattening -/

/-- The content that a member of `allOf` stands for: that of its target if it is a reference, itself if it is not. -/
def standsFor (find : String → Except Failure (Schema Json)) (m : Json) : Except Failure Json :=
  match reference? m with
  | none => .ok m
  | some text => (find text).map (·.content)

/-- **Members are flattened**, one after the other. -/
inductive Flattens (find : String → Except Failure (Schema Json)) : List Json → List Fields → Prop
  | nil : Flattens find [] []
  | cons {m v : Json} {rest : List Json} {own : Fields} {inner others : List Fields} (hm : standsFor find m = .ok v)
    (hown : own? v = some own) (hinner : Flattens find (allOf v) inner) (hrest : Flattens find rest others) :
    Flattens find (m :: rest) (own :: inner ++ others)

/-- The flattening of a value: what it says itself, then its members. -/
def IsFlat (find : String → Except Failure (Schema Json)) (v : Json) (entries : List Fields) : Prop :=
  ∃ own inner, own? v = some own ∧ Flattens find (allOf v) inner ∧ entries = own :: inner

section Flat

variable {find : String → Except Failure (Schema Json)} {members : List Json} {entries others : List Fields} {v : Json}

lemma Flattens.unique (h : Flattens find members entries) (h' : Flattens find members others) : entries = others := by
  induction h generalizing others with
  | nil =>
    cases h'
    rfl
  | cons hm hown _ _ ihinner ihrest =>
    cases h' with
    | cons hm' hown' hinner' hrest' =>
      obtain rfl := Except.ok.inj (hm.symm.trans hm')
      obtain rfl := Option.some.inj (hown.symm.trans hown')
      rw [ihinner hinner', ihrest hrest']

lemma IsFlat.unique (h : IsFlat find v entries) (h' : IsFlat find v others) : entries = others := by
  obtain ⟨own, inner, hown, hinner, rfl⟩ := h
  obtain ⟨own', inner', hown', hinner', rfl⟩ := h'
  rw [Option.some.inj (hown.symm.trans hown'), hinner.unique hinner']

lemma standsFor_of_meant {env : Setting} {s t : Schema Json} {m : Json} (h : meant env s m = .ok t) :
    standsFor env.find m = .ok t.content := by
  unfold standsFor
  cases hr : reference? m with
  | none =>
    rw [meant_of_inline hr] at h
    cases h
    rfl
  | some text =>
    rw [meant_of_reference hr] at h
    dsimp only
    rw [h]
    rfl

end Flat

/-! ### What a list of members says of properties -/

/-- The properties with their values. -/
def properties (fs : Fields) : Fields := ((fs.get? "properties").map (·.fields)).getD []

lemma keys_properties (fs : Fields) : (properties fs).keys = propertyNames fs := by
  unfold properties propertyNames
  cases fs.get? "properties" <;> rfl

/-- Properties are given by an object and required names by a list, where they are given. -/
def HasKinds (fs : Fields) : Prop :=
  (∀ v, fs.get? "properties" = some v → ∃ ps, v = .obj ps) ∧ ∀ v, fs.get? "required" = some v → ∃ names, v = .arr names

/-- **The members `fs` say of properties what `entries` say together**: the last of them that declares a name gives its value,
the first gives its place, and each adds to the required names. -/
structure Gathers (entries : List Fields) (fs : Fields) : Prop where
  kinds : HasKinds fs
  value : ∀ name, (properties fs).get? name = entries.reverse.findSome? fun e => (properties e).get? name
  order : (propertyNames fs).eraseDups = (entries.flatMap propertyNames).eraseDups
  nodup : (∀ e ∈ entries, (propertyNames e).Nodup) → (propertyNames fs).Nodup
  required : ∀ name, .str name ∈ requiredNames fs ↔ ∃ e ∈ entries, .str name ∈ requiredNames e

/-! ### Merging -/

lemma str_mem_appendNew {name : String} (xs ys : List Json) :
    .str name ∈ appendNew xs ys ↔ .str name ∈ xs ∨ .str name ∈ ys := by
  induction ys generalizing xs with
  | nil => simp [appendNew]
  | cons y ys ih =>
    rw [appendNew, ih, List.mem_cons]
    split_ifs with hy
    · constructor
      · rintro (h | h)
        · exact Or.inl h
        · exact Or.inr (Or.inr h)
      · rintro (h | rfl | h)
        · exact Or.inl h
        · exact Or.inl (Json.str_isIn_iff.1 hy)
        · exact Or.inr h
    · simp only [List.mem_append, List.mem_singleton, or_assoc]

section Merge

variable {a b fs : Fields} {entries others : List Fields} {name : String}

lemma get?_merge_entries (a b : Fields) (key : String) : (merge a b.entries).get? key = match b.get? key with
    | none => a.get? key
    | some v => some (combine (a.get? key) v) := by
  have h := get?_merge a (Table.nodup_keys_entries b) key
  rw [Table.get?_entries] at h
  exact h

/-- Two lists of members give properties in one of three ways: only the first does, only the second does, or both do. -/
lemma properties_merge (ha : HasKinds a) (hb : HasKinds b) :
    (properties b = [] ∧ properties (merge a b.entries) = properties a) ∨
    (properties a = [] ∧ properties (merge a b.entries) = properties b) ∨
    properties (merge a b.entries) = Table.overlay (properties a) (properties b).entries := by
  have hget := get?_merge_entries a b "properties"
  unfold properties
  cases hbv : b.get? "properties" with
  | none =>
    rw [hbv] at hget
    exact Or.inl ⟨rfl, by rw [hget]⟩
  | some bv =>
    obtain ⟨bs, rfl⟩ := hb.1 bv hbv
    rw [hbv] at hget
    cases hav : a.get? "properties" with
    | none =>
      rw [hav] at hget
      exact Or.inr (Or.inl ⟨rfl, by rw [hget]; rfl⟩)
    | some av =>
      obtain ⟨as, rfl⟩ := ha.1 av hav
      rw [hav] at hget
      exact Or.inr (Or.inr (by rw [hget]; rfl))

lemma mem_requiredNames_merge (ha : HasKinds a) (hb : HasKinds b) :
    .str name ∈ requiredNames (merge a b.entries) ↔ .str name ∈ requiredNames a ∨ .str name ∈ requiredNames b := by
  have hget := get?_merge_entries a b "required"
  unfold requiredNames
  cases hbv : b.get? "required" with
  | none =>
    rw [hbv] at hget
    rw [hget]
    simp
  | some bv =>
    obtain ⟨bs, rfl⟩ := hb.2 bv hbv
    rw [hbv] at hget
    rw [hget]
    cases hav : a.get? "required" with
    | none => simp [combine]
    | some av =>
      obtain ⟨as, rfl⟩ := ha.2 av hav
      exact str_mem_appendNew as bs

lemma kind_of_get?_merge {P : Json → Prop} (hP : ∀ v w, P v → P w → P (combine (some v) w)) {key : String}
    (ha : ∀ v, a.get? key = some v → P v) (hb : ∀ v, b.get? key = some v → P v) (v : Json)
    (hv : (merge a b.entries).get? key = some v) : P v := by
  rw [get?_merge_entries] at hv
  cases hbv : b.get? key with
  | none =>
    rw [hbv] at hv
    exact ha v hv
  | some w =>
    rw [hbv] at hv
    obtain rfl := Option.some.inj hv
    cases hav : a.get? key with
    | none => exact hb w hbv
    | some u => exact hP u w (ha u hav) (hb w hbv)

lemma HasKinds.merge (ha : HasKinds a) (hb : HasKinds b) : HasKinds (merge a b.entries) := by
  constructor
  · refine kind_of_get?_merge ?_ ha.1 hb.1
    rintro _ _ ⟨as, rfl⟩ ⟨bs, rfl⟩
    exact ⟨_, rfl⟩
  · refine kind_of_get?_merge ?_ ha.2 hb.2
    rintro _ _ ⟨as, rfl⟩ ⟨bs, rfl⟩
    exact ⟨_, rfl⟩

namespace Gathers

lemma single (h : HasKinds fs) : Gathers [fs] fs where
  kinds := h
  value name := by
    simp only [List.reverse_singleton, List.findSome?_cons, List.findSome?_nil]
    cases (properties fs).get? name <;> rfl
  order := by simp
  nodup h := h fs List.mem_cons_self
  required name := by simp

/-- Only what stands under `properties` and `required` counts. -/
lemma congr (h : Gathers entries a) (hp : b.get? "properties" = a.get? "properties")
    (hr : b.get? "required" = a.get? "required") : Gathers entries b := by
  have hproperties : properties b = properties a := by rw [properties, hp, properties]
  have hnames : propertyNames b = propertyNames a := by rw [propertyNames, hp, propertyNames]
  have hrequired : requiredNames b = requiredNames a := by rw [requiredNames, hr, requiredNames]
  constructor
  · unfold HasKinds
    rw [hp, hr]
    exact h.kinds
  · rw [hproperties]
    exact h.value
  · rw [hnames]
    exact h.order
  · rw [hnames]
    exact h.nodup
  · rw [hrequired]
    exact h.required

/-- **Merging adds up.** -/
theorem merge (ha : Gathers entries a) (hb : Gathers others b) : Gathers (entries ++ others) (merge a b.entries) := by
  have hmerge := properties_merge ha.kinds hb.kinds
  constructor
  · exact ha.kinds.merge hb.kinds
  · intro name
    rw [List.reverse_append, List.findSome?_append, ← ha.value, ← hb.value]
    rcases hmerge with ⟨hnone, heq⟩ | ⟨hnone, heq⟩ | heq
    · rw [heq, hnone]
      rfl
    · rw [heq, hnone, Table.get?_nil, Option.or_none]
    · rw [heq, Table.get?_overlay_of_nodup (Table.nodup_keys_entries _), Table.get?_entries]
  · rw [List.flatMap_append, ← Table.eraseDups_append_congr ha.order hb.order]
    simp only [← keys_properties]
    rcases hmerge with ⟨hnone, heq⟩ | ⟨hnone, heq⟩ | heq
    · rw [heq, hnone]
      exact congrArg List.eraseDups (List.append_nil _).symm
    · rw [heq, hnone]
      rfl
    · rw [heq, Table.eraseDups_keys_overlay]
      exact Table.eraseDups_append_congr rfl (Table.eraseDups_keys_entries _)
  · intro hnodup
    have hna := ha.nodup fun e he => hnodup e (List.mem_append_left _ he)
    have hnb := hb.nodup fun e he => hnodup e (List.mem_append_right _ he)
    rw [← keys_properties] at hna hnb ⊢
    rcases hmerge with ⟨-, heq⟩ | ⟨-, heq⟩ | heq
    · exact heq ▸ hna
    · exact heq ▸ hnb
    · exact heq ▸ Table.nodup_keys_overlay hna _
  · intro name
    rw [mem_requiredNames_merge ha.kinds hb.kinds, ha.required, hb.required]
    simp only [List.mem_append, or_and_right, exists_or]

end Gathers

end Merge

/-! ### Folding is gathering -/

lemma get?_settleType {rules : TypeRules} {fs result : Fields} (h : settleType rules fs = .ok result) {key : String}
    (hkey : key ≠ "type") : result.get? key = fs.get? key := by
  unfold settleType at h
  split at h
  · cases h
    split_ifs
    · exact Table.get?_set_of_ne hkey.symm
    · rfl
  · cases hred : reduceTypes rules _ with
    | error f =>
      rw [hred] at h
      cases h
    | ok types =>
      rw [hred] at h
      cases types with
      | nil =>
        cases h
        rw [Table.get?_erase, if_neg hkey.symm]
      | cons t types =>
        cases types <;> cases h <;> exact Table.get?_set_of_ne hkey.symm
  · cases h
    rfl

lemma Gathers.settleType {rules : TypeRules} {entries : List Fields} {fs result : Fields} (h : Gathers entries fs)
    (ht : settleType rules fs = .ok result) : Gathers entries result :=
  h.congr (get?_settleType ht (by decide)) (get?_settleType ht (by decide))

lemma Gathers.erase_id {entries : List Fields} {fs : Fields} (h : Gathers entries fs) (dialect : Dialect) :
    Gathers entries (fs.erase dialect.idKeyword) := by
  have hne : ∀ key, key ≠ "id" → key ≠ "$id" → (Table.erase fs dialect.idKeyword).get? key = fs.get? key := by
    intro key hid hid'
    rw [Table.get?_erase, if_neg]
    cases dialect
    · exact hid.symm
    · exact hid'.symm
  exact h.congr (hne _ (by decide) (by decide)) (hne _ (by decide) (by decide))

section Folding

variable {env : Setting} {s : Schema Json} {done result : Fields} {members : List Json} {entries before : List Fields}

lemma Folds.exists_flattens (h : Folds env s done members result) : ∃ entries, Flattens env.find members entries := by
  induction h with
  | nil => exact ⟨[], .nil⟩
  | cons hm hown _ _ _ ihinner ihrest =>
    obtain ⟨inner, hinner⟩ := ihinner
    obtain ⟨others, hrest⟩ := ihrest
    exact ⟨_, .cons (standsFor_of_meant hm) hown hinner hrest⟩

/-- **Folding members is gathering** from what is there already and from their flattening. -/
theorem Folds.gathers (h : Folds env s done members result) (hflat : Flattens env.find members entries)
    (hkinds : ∀ e ∈ entries, HasKinds e) (hdone : Gathers before done) : Gathers (before ++ entries) result := by
  -- on how the members are folded: a member brings the list of all that is nested in it
  induction h generalizing entries before with
  | nil =>
    cases hflat
    rwa [List.append_nil]
  | @cons s t done own merged fs result m rest hm hown _ htype _ ihinner ihrest =>
    cases hflat with
    | @cons _ v _ own' inner others hm' hown' hinner hrest =>
      obtain rfl := Except.ok.inj ((standsFor_of_meant hm).symm.trans hm')
      obtain rfl := Option.some.inj (hown.symm.trans hown')
      have hown : HasKinds own := hkinds own (by simp)
      have hin : ∀ e ∈ inner, HasKinds e := fun e he => hkinds e (by simp [he])
      have hout : ∀ e ∈ others, HasKinds e := fun e he => hkinds e (by simp [he])
      have hmember : Gathers (own :: inner) fs := (ihinner hinner hin (.single hown)).settleType htype
      have hmerged := hdone.merge (hmember.erase_id s.dialect)
      have hall := ihrest hrest hout hmerged
      rwa [List.append_assoc] at hall

end Folding

/-- **A normal form is a flattening gathered up.** If a schema has a normal form, its content can be flattened, in one way
only. If then properties are given by objects and required names by lists throughout, the normal form gives each property
the value of the last entry that declares it, has the properties in the order in which they are first seen, and requires
exactly the names that some entry requires. -/
theorem normalize_flattens (env : Setting) (s : Schema Json) (t : Schema Fields) (notices notices' : List Notice)
    (h : normalize env s notices = .ok t notices') :
    (∃ entries, IsFlat env.find s.content entries) ∧
    ∀ entries, IsFlat env.find s.content entries → (∀ e ∈ entries, HasKinds e) →
      (∀ name, (properties t.content).get? name = entries.reverse.findSome? fun e => (properties e).get? name) ∧
      (propertyNames t.content).eraseDups = (entries.flatMap propertyNames).eraseDups ∧
      ((∀ e ∈ entries, (propertyNames e).Nodup) → (propertyNames t.content).Nodup) ∧
      ∀ name, .str name ∈ requiredNames t.content ↔ ∃ e ∈ entries, .str name ∈ requiredNames e := by
  obtain ⟨own, merged, hown, hfolds, htype⟩ := (normalize_explained env s notices).good_of_ok h
  obtain ⟨inner, hinner⟩ := hfolds.exists_flattens
  have hflat : IsFlat env.find s.content (own :: inner) := ⟨own, inner, hown, hinner, rfl⟩
  refine ⟨⟨_, hflat⟩, fun entries hentries hkinds => ?_⟩
  obtain rfl := hflat.unique hentries
  have hfirst : Gathers [own] own := .single (hkinds own List.mem_cons_self)
  have hgathers := (hfolds.gathers hinner (fun e he => hkinds e (List.mem_cons_of_mem _ he)) hfirst).settleType htype
  exact ⟨hgathers.value, hgathers.order, hgathers.nodup, hgathers.required⟩

/-- A schema that inherits from a reference and from an inline member, each with members of its own. -/
def layered : Schema Json :=
  ⟨.draft07, .ofText "/x", .obj [("properties", .obj [("a", .bool true)]), ("required", .arr [.str "a"]),
    ("allOf", .arr [.obj [("$ref", .str "/base")],
      .obj [("allOf", .arr [.bool true, .obj [("properties", .obj [("b", .bool true)])]])]])], none, [], false⟩

/-- Here the reference of `layered` is known. -/
def layeredSetting : Setting :=
  ⟨some fun _ => .ok (layered.withContent (.obj [("properties", .obj [("b", .bool false), ("a", .bool false)]),
    ("allOf", .arr [.obj [("properties", .obj [("c", .obj [])]), ("required", .arr [.str "a", .str "c"])]])])), .distinct, 1⟩

/-- The flattening of `layered`. -/
def layeredEntries : List Fields :=
  [[("properties", .obj [("a", .bool true)]), ("required", .arr [.str "a"])],
    [("properties", .obj [("b", .bool false), ("a", .bool false)])],
    [("properties", .obj [("c", .obj [])]), ("required", .arr [.str "a", .str "c"])], [], [],
    [("properties", .obj [("b", .bool true)])]]

theorem normalize_flattens_layered :
    ∃ t, normalize layeredSetting layered [] = .ok t [] ∧ IsFlat layeredSetting.find layered.content layeredEntries ∧
      (∀ e ∈ layeredEntries, HasKinds e) ∧ (properties t.content).get? "a" = some (.bool false) ∧
      (properties t.content).get? "b" = some (.bool true) ∧ (propertyNames t.content).eraseDups = ["a", "b", "c"] ∧
      .str "c" ∈ requiredNames t.content ∧ .str "b" ∉ requiredNames t.content := by
  have hrun : normalize layeredSetting layered [] = .ok (layered.withContent [
      ("properties", .obj [("a", .bool false), ("b", .bool true), ("c", .obj [])]),
      ("required", .arr [.str "a", .str "c"]), ("type", .str "object")]) [] := by cbv
  have hflat : IsFlat layeredSetting.find layered.content layeredEntries :=
    ⟨_, _, rfl, .cons rfl rfl (.cons rfl rfl .nil .nil) (.cons rfl rfl (.cons rfl rfl .nil (.cons rfl rfl .nil .nil)) .nil), rfl⟩
  have hkinds : ∀ e ∈ layeredEntries, HasKinds e := by simp [layeredEntries, HasKinds, Table.get?]
  obtain ⟨-, hall⟩ := normalize_flattens layeredSetting layered _ [] [] hrun
  obtain ⟨hvalue, horder, -, hrequired⟩ := hall layeredEntries hflat hkinds
  refine ⟨_, hrun, hflat, hkinds, (hvalue "a").trans rfl, (hvalue "b").trans rfl, horder.trans rfl, ?_, ?_⟩
  · exact (hrequired "c").2 (by simp [layeredEntries, requiredNames, Table.get?, Json.items])
  · exact fun h => absurd ((hrequired "b").1 h) (by simp [layeredEntries, requiredNames, Table.get?, Json.items])

end Normal

end Typings
