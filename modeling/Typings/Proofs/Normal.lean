import Mathlib.Logic.Relation
import Typings.Normal
import Typings.Proofs.Node
import Typings.Proofs.Walk

/-!
References in normal forms. Merging copies values from one schema into another and makes new objects out of two old ones,
but every reference in the result stands in one of the schemas that were merged. So if all references that emission can
meet in a value satisfy a condition (`Sound`), and the same holds of every schema that is looked up under such a
reference, then it holds of the normal form. Main statements:

* `sound_read`: a document part is sound as it stands if every reference that it reaches satisfies the condition;
* `Everywhere.merge`, `soundAt_combine`: merging keeps values sound;
* `content_alike`: bringing a sound value into normal form looks up no text without the condition.
-/

namespace Typings

open Discovery (Place)

/-- A failure blames no reference, except for a target without names. -/
def Failure.SparesTargets (f : Failure) : Prop :=
  ∀ key fault, f = .reference key fault → fault = .nameless ∧ Address.names ⟨key⟩ = .ok []

lemma Told.lift_alike {α : Type} {e : Except Failure α} {good : α → Prop} {bad : Failure → Prop}
    (hok : ∀ a, e = .ok a → good a) (herror : ∀ f, e = .error f → bad f) :
    Alike (Told.lift e) (Told.lift e) good bad := by
  cases e with
  | ok a => exact Alike.of_pure (hok a rfl)
  | error f => exact Alike.of_throw (herror f rfl)

namespace Normal

/-! ### Places that emission looks into -/

/-- The keywords under which normal forms and declarations look for schemas. -/
def shownPlaces : Table String Place :=
  [("allOf", .many), ("anyOf", .many), ("oneOf", .many), ("items", .oneOrMany), ("additionalProperties", .one),
    ("properties", .named)]

lemma shownPlaces_subset (dialect : Dialect) (openapi : Option OpenApi) {e : String × Place} (h : e ∈ shownPlaces) :
    e ∈ Discovery.places dialect openapi := by
  have hc : e ∈ Discovery.commonPlaces := by
    simp only [shownPlaces, List.mem_cons, List.not_mem_nil, or_false] at h
    rcases h with rfl | rfl | rfl | rfl | rfl | rfl <;> simp [Discovery.commonPlaces]
  exact List.mem_append_left _ (List.mem_append_left _ hc)

/-- The values that stand in a place. -/
def pick : Place → Json → List Json
  | .one, v => [v]
  | .many, v => v.items
  | .oneOrMany, .arr xs => xs
  | .oneOrMany, v => [v]
  | .named, v => v.fields.values
  | .manyOrNamed, .arr xs => xs
  | .manyOrNamed, v => v.fields.values
  | .sections, v => v.fields.values.flatMap (·.fields.values)

/-- One value stands in a place of another. -/
def Shows (v w : Json) : Prop := ∃ key p u, (key, p) ∈ shownPlaces ∧ v.get? key = some u ∧ w ∈ pick p u

/-- One value stands in a place of another that declarations look into: any place but that of `allOf`. -/
def ShowsPart (v w : Json) : Prop :=
  ∃ key p u, key ≠ "allOf" ∧ (key, p) ∈ shownPlaces ∧ v.get? key = some u ∧ w ∈ pick p u

lemma ShowsPart.shows {v w : Json} : ShowsPart v w → Shows v w := fun ⟨key, p, u, _, hp, hu, hw⟩ => ⟨key, p, u, hp, hu, hw⟩

/-! ### Members -/

/-- A condition on keys and values holds of all members that count. -/
def Everywhere (P : String → Json → Prop) (fs : Fields) : Prop := ∀ key v, fs.get? key = some v → P key v

lemma mem_appendNew {xs ys : List Json} {w : Json} (h : w ∈ appendNew xs ys) : w ∈ xs ∨ w ∈ ys := by
  induction ys generalizing xs with
  | nil => exact Or.inl h
  | cons y ys ih =>
    rcases ih h with hx | hy
    · split_ifs at hx
      · exact Or.inl hx
      · refine (List.mem_append.1 hx).imp_right fun hw => ?_
        exact List.mem_singleton.1 hw ▸ List.mem_cons_self
    · exact Or.inr (List.mem_cons_of_mem _ hy)

lemma mem_values_united {fs gs : Fields} {w : Json} (h : w ∈ (Table.overlay fs (Table.entries gs)).values) :
    w ∈ gs.values ∨ w ∈ fs.values :=
  (Table.mem_values_overlay h).imp_left Table.mem_values_of_mem_entries

/-- What merging can show under a key: what one of the sides shows, something without members, or two objects united. -/
lemma mem_pick_combine {p : Place} {current : Option Json} {v w : Json} (h : w ∈ pick p (combine current v)) :
    (∃ u, current = some u ∧ w ∈ pick p u) ∨ w ∈ pick p v ∨ (w.isObject = false ∧ v ∈ pick p v) ∨
      ∃ a b, current = some (.obj a) ∧ v = .obj b ∧ w = .obj (Table.overlay a (Table.entries b)) ∧
        .obj a ∈ pick p (.obj a) ∧ .obj b ∈ pick p (.obj b) := by
  rw [combine.eq_def] at h
  split at h
  · next a b =>
    cases p with
    | one | oneOrMany =>
      refine Or.inr (Or.inr (Or.inr ⟨a, b, rfl, rfl, List.mem_singleton.1 h, ?_, ?_⟩))
      · exact List.mem_singleton_self _
      · exact List.mem_singleton_self _
    | many => exact absurd h List.not_mem_nil
    | named | manyOrNamed =>
      rcases mem_values_united h with h | h
      · exact Or.inr (Or.inl h)
      · exact Or.inl ⟨_, rfl, h⟩
    | sections =>
      obtain ⟨u, hu, hw⟩ := List.mem_flatMap.1 h
      rcases mem_values_united hu with hu | hu
      · exact Or.inr (Or.inl (List.mem_flatMap.2 ⟨u, hu, hw⟩))
      · exact Or.inl ⟨_, rfl, List.mem_flatMap.2 ⟨u, hu, hw⟩⟩
  · next xs ys =>
    cases p with
    | one =>
      rw [List.mem_singleton.1 h]
      exact Or.inr (Or.inr (Or.inl ⟨rfl, List.mem_singleton_self _⟩))
    | many | oneOrMany | manyOrNamed =>
      rcases mem_appendNew h with h | h
      · exact Or.inl ⟨_, rfl, h⟩
      · exact Or.inr (Or.inl h)
    | named | sections => exact absurd h List.not_mem_nil
  · exact Or.inr (Or.inl h)

/-- Giving members their type changes nothing but the type. -/
lemma settleType_cases {rules : TypeRules} {fs gs : Fields} (h : settleType rules fs = .ok gs) :
    gs = fs ∨ (∃ v, gs = fs.set "type" v) ∨ gs = fs.erase "type" := by
  rw [settleType.eq_def] at h
  split at h
  · cases h
    split_ifs
    · exact Or.inr (Or.inl ⟨_, rfl⟩)
    · exact Or.inl rfl
  · obtain ⟨types, -, h⟩ := bind_eq_ok.1 h
    split at h
    · cases h
      exact Or.inr (Or.inr rfl)
    · cases h
      exact Or.inr (Or.inl ⟨_, rfl⟩)
    · cases h
      exact Or.inr (Or.inl ⟨_, rfl⟩)
  · cases h
    exact Or.inl rfl

lemma settleType_error {rules : TypeRules} {fs : Fields} {f : Failure} (h : settleType rules fs = .error f) : f = .badKind := by
  rw [settleType.eq_def] at h
  split at h
  · cases h
  · rcases bind_eq_error.1 h with h | ⟨types, -, h⟩
    · rw [reduceTypes] at h
      split_ifs at h
      cases h
      rfl
    · split at h <;> cases h
  · cases h

namespace Everywhere

variable {P : String → Json → Prop} {fs gs : Fields} {key : String} {v : Json}

lemma set (h : Everywhere P fs) (hv : P key v) : Everywhere P (fs.set key v) := by
  intro k u hu
  rw [Table.get?_set] at hu
  split_ifs at hu with hk
  · cases hu
    exact hk ▸ hv
  · exact h k u hu

lemma erase (h : Everywhere P fs) (key : String) : Everywhere P (fs.erase key) := by
  intro k u hu
  rw [Table.get?_erase] at hu
  split_ifs at hu
  exact h k u hu

lemma overlay (hf : Everywhere P fs) (hg : Everywhere P gs) : Everywhere P (Table.overlay fs (Table.entries gs)) := by
  intro key v hv
  rcases Table.get?_overlay hv with he | hv
  · exact hg key v (Table.mem_entries.1 he)
  · exact hf key v hv

/-- Merging keeps a condition that combined values keep. -/
lemma merge (hP : ∀ key current v, (∀ u, current = some u → P key u) → P key v → P key (combine current v))
    {entries : List (String × Json)} (hf : Everywhere P fs) (he : ∀ key v, (key, v) ∈ entries → P key v) :
    Everywhere P (merge fs entries) := by
  induction entries generalizing fs with
  | nil => exact hf
  | cons e entries ih =>
    obtain ⟨key, v⟩ := e
    refine ih (hf.set (hP key _ v (fun u hu => hf key u hu) (he key v List.mem_cons_self))) fun k u hu => ?_
    exact he k u (List.mem_cons_of_mem _ hu)

lemma settleType {rules : TypeRules} (hP : ∀ v, P "type" v) (hf : Everywhere P fs)
    (h : settleType rules fs = .ok gs) : Everywhere P gs := by
  rcases settleType_cases h with rfl | ⟨v, rfl⟩ | rfl
  · exact hf
  · exact hf.set (hP v)
  · exact hf.erase _

end Everywhere

/-! ### Soundness -/

/-- **Soundness**: the references that emission can meet in a value satisfy `R`. -/
def Sound (R : String → Prop) (v : Json) : Prop :=
  ∀ w, Relation.ReflTransGen Shows v w → ∀ text, reference? w = some text → R text

/-- What soundness asks of the value under a key. -/
structure SoundAt (R : String → Prop) (key : String) (v : Json) : Prop where
  /-- The text of a reference. -/
  text : key = "$ref" → ∀ text, v.str? = some text → R text
  /-- Values in a place. -/
  place : ∀ p, (key, p) ∈ shownPlaces → ∀ w ∈ pick p v, Sound R w

variable {R : String → Prop} {v w : Json} {fs gs : Fields} {key : String}

lemma Sound.of_shows (h : Sound R v) (hw : Shows v w) : Sound R w :=
  fun u hu => h u (Relation.ReflTransGen.head hw hu)

lemma sound_iff : Sound R v ↔ (∀ text, reference? v = some text → R text) ∧ ∀ w, Shows v w → Sound R w := by
  constructor
  · intro h
    exact ⟨h v .refl, fun w hw => h.of_shows hw⟩
  · rintro ⟨hown, hshown⟩ w hw
    rcases Relation.ReflTransGen.cases_head hw with rfl | ⟨u, hu, huw⟩
    · exact hown
    · exact hshown u hu w huw

lemma sound_obj : Sound R (.obj fs) ↔ Everywhere (SoundAt R) fs := by
  rw [sound_iff]
  constructor
  · rintro ⟨hown, hshown⟩ key v hv
    refine ⟨?_, fun p hp w hw => hshown w ⟨key, p, v, hp, hv, hw⟩⟩
    rintro rfl text htext
    refine hown text ?_
    rw [reference?, Json.get?, hv]
    exact htext
  · intro h
    refine ⟨fun text htext => ?_, ?_⟩
    · obtain ⟨v, hv, hs⟩ := Option.bind_eq_some_iff.1 htext
      exact (h "$ref" v hv).text rfl text hs
    · rintro w ⟨key, p, v, hp, hv, hw⟩
      exact (h key v hv).place p hp w hw

lemma get?_of_not_object (h : v.isObject = false) : v.get? key = none := by
  cases v with
  | obj fs => cases h
  | _ => rfl

lemma sound_of_not_object (h : v.isObject = false) : Sound R v := by
  rw [sound_iff, reference?, get?_of_not_object h]
  refine ⟨nofun, ?_⟩
  rintro w ⟨key, p, u, -, hu, -⟩
  rw [get?_of_not_object h] at hu
  cases hu

/-- Keywords of other kinds do not matter. -/
lemma soundAt_of_not_shown (hr : key ≠ "$ref") (hk : key ∉ shownPlaces.keys) (v : Json) : SoundAt R key v :=
  ⟨fun h => absurd h hr, fun _ hp => absurd (List.mem_map_of_mem hp) hk⟩

lemma soundAt_type (v : Json) : SoundAt R "type" v := soundAt_of_not_shown (by decide) (by decide) v

lemma soundAt_combine {current : Option Json} (hc : ∀ u, current = some u → SoundAt R key u) (hv : SoundAt R key v) :
    SoundAt R key (combine current v) := by
  refine ⟨fun hk text htext => ?_, fun p hp w hw => ?_⟩
  · rw [combine.eq_def] at htext
    split at htext
    · cases htext
    · cases htext
    · exact hv.text hk text htext
  · rcases mem_pick_combine hw with ⟨u, hu, hw⟩ | hw | ⟨hobj, -⟩ | ⟨a, b, ha, rfl, rfl, hwa, hwb⟩
    · exact (hc u hu).place p hp w hw
    · exact hv.place p hp w hw
    · exact sound_of_not_object hobj
    · exact sound_obj.2 ((sound_obj.1 ((hc _ ha).place p hp _ hwa)).overlay (sound_obj.1 (hv.place p hp _ hwb)))

/-! ### Parts of documents -/

section Read

variable (refs : Refs)

/-- The reference that a part is stays the reference that its value is. -/
lemma reference?_read (node : Node) : reference? (node.read refs) = node.reference? refs := by
  rw [reference?, Node.get?_read, Node.reference?, Option.bind_map]
  exact congrArg _ (funext (Node.str?_read refs))

/-- A member of an object as it stands is a part as it stands, or a text. -/
lemma mem_values_read {node : Node} {w : Json} (h : w ∈ (node.read refs).fields.values) :
    (∃ inner ∈ node.fields.values, w = inner.read refs) ∨ ∃ s, w = .str s := by
  rcases node with ⟨m, a⟩ | ⟨m, xs⟩ | ⟨m, fields⟩
  · cases a <;> exact absurd h List.not_mem_nil
  · exact absurd h List.not_mem_nil
  · rw [Node.read, Json.fields, Node.readFields_eq, Table.values, List.map_map] at h
    obtain ⟨⟨k, x⟩, hx, rfl⟩ := List.mem_map.1 h
    rcases Node.current_cases refs m k x with hc | ⟨n, s, -, -, hc⟩
    · exact Or.inl ⟨x, List.mem_map_of_mem hx, congrArg (Node.read refs) hc⟩
    · exact Or.inr ⟨_, congrArg (Node.read refs) hc⟩

lemma mem_pick_read (p : Place) {node : Node} {w : Json} (h : w ∈ pick p (node.read refs)) :
    (∃ inner ∈ p.pick node, w = inner.read refs) ∨ ∃ s, w = .str s := by
  have hone : w ∈ [node.read refs] → (∃ inner ∈ [node], w = inner.read refs) ∨ ∃ s, w = .str s := fun h =>
    Or.inl ⟨node, List.mem_singleton_self _, List.mem_singleton.1 h⟩
  have hitems : ∀ xs : List Node, w ∈ Node.readItems refs xs →
      (∃ inner ∈ xs, w = inner.read refs) ∨ ∃ s, w = .str s := by
    intro xs h
    rw [Node.readItems_eq] at h
    obtain ⟨inner, hinner, rfl⟩ := List.mem_map.1 h
    exact Or.inl ⟨inner, hinner, rfl⟩
  cases p with
  | one => exact hone h
  | many =>
    rcases node with ⟨m, a⟩ | ⟨m, xs⟩ | ⟨m, fields⟩
    · cases a <;> exact absurd h List.not_mem_nil
    · exact hitems xs h
    · exact absurd h List.not_mem_nil
  | oneOrMany =>
    rcases node with ⟨m, a⟩ | ⟨m, xs⟩ | ⟨m, fields⟩
    · cases a <;> exact hone h
    · exact hitems xs h
    · exact hone h
  | named => exact mem_values_read refs h
  | manyOrNamed =>
    rcases node with ⟨m, a⟩ | ⟨m, xs⟩ | ⟨m, fields⟩
    · cases a <;> exact absurd h List.not_mem_nil
    · exact hitems xs h
    · exact mem_values_read refs h
  | sections =>
    obtain ⟨u, hu, hw⟩ := List.mem_flatMap.1 h
    rcases mem_values_read refs hu with ⟨inner, hinner, rfl⟩ | ⟨s, rfl⟩
    · rcases mem_values_read refs hw with ⟨part, hpart, rfl⟩ | hs
      · exact Or.inl ⟨part, List.mem_flatMap.2 ⟨inner, hinner, hpart⟩, rfl⟩
      · exact Or.inr hs
    · exact absurd hw List.not_mem_nil

/-- No place is that of a reference. -/
lemma get?_fields_of_place {node x : Node} {key : String} {p : Place} (hp : (key, p) ∈ shownPlaces)
    (hx : node.get? refs key = some x) : node.fields.get? key = some x := by
  have hk : key ≠ "$ref" := by
    rintro rfl
    simp [shownPlaces] at hp
  rcases node with ⟨m, a⟩ | ⟨m, xs⟩ | ⟨m, fields⟩
  · cases hx
  · cases hx
  · obtain ⟨y, hy, rfl⟩ := Option.map_eq_some_iff.1 hx
    rw [Node.fields, hy, Node.current]
    intro _ _ h
    exact absurd h hk

lemma shows_read (dialect : Dialect) (openapi : Option OpenApi) {node : Node} {w : Json} (h : Shows (node.read refs) w) :
    (∃ inner ∈ Discovery.children dialect openapi node, w = inner.read refs) ∨ ∃ s, w = .str s := by
  obtain ⟨key, p, u, hp, hu, hw⟩ := h
  rw [Node.get?_read] at hu
  obtain ⟨x, hx, rfl⟩ := Option.map_eq_some_iff.1 hu
  refine (mem_pick_read refs p hw).imp_left ?_
  rintro ⟨inner, hinner, rfl⟩
  refine ⟨inner, List.mem_flatMap.2 ⟨(key, p), shownPlaces_subset dialect openapi hp, ?_⟩, rfl⟩
  rw [get?_fields_of_place refs hp hx]
  exact hinner

/-- **A part is sound as it stands** if the references that it reaches satisfy the condition. -/
theorem sound_read {dialect : Dialect} {openapi : Option OpenApi} {node : Node}
    (h : ∀ inner, Discovery.Reaches dialect openapi node inner → ∀ text, inner.reference? refs = some text → R text) :
    Sound R (node.read refs) := by
  intro w hw
  -- whatever is met is a part that the node reaches, or a text
  have hmet : (∃ inner, Discovery.Reaches dialect openapi node inner ∧ w = inner.read refs) ∨ ∃ s, w = .str s := by
    induction hw with
    | refl => exact Or.inl ⟨node, .refl, rfl⟩
    | tail _ hstep ih =>
      rcases ih with ⟨inner, hinner, rfl⟩ | ⟨s, rfl⟩
      · refine (shows_read refs dialect openapi hstep).imp_left ?_
        rintro ⟨part, hpart, rfl⟩
        exact ⟨part, hinner.tail hpart, rfl⟩
      · obtain ⟨_, _, _, _, hu, _⟩ := hstep
        cases hu
  intro text htext
  rcases hmet with ⟨inner, hinner, rfl⟩ | ⟨s, rfl⟩
  · exact h inner hinner text (reference?_read refs inner ▸ htext)
  · cases htext

end Read

/-! ### Normal forms -/

section Content

variable {l l' : String → Except Failure (Schema Json)} (rules : TypeRules) (bound : ℕ)

/-- Two registries agree on the texts with `R`: there they have the same schemas, and these are sound. -/
def Agree (R : String → Prop) (l l' : String → Except Failure (Schema Json)) : Prop :=
  ∀ text, R text → ∃ t, l text = .ok t ∧ l' text = .ok t ∧ Sound R t.content

lemma content_of_members {env : Setting} {depth : ℕ} {s : Schema Json} {seen : List String} {members : List Json}
    (h : fs.get? "allOf" = some (.arr members)) :
    content env depth s seen (.obj fs) = (do
      let merged ← mergeAll env depth s seen (fs.erase "allOf") members
      Told.lift (settleType env.rules merged)) := by
  rw [content]
  split
  · next members' h' =>
    obtain rfl : members = members' := by
      rw [h] at h'
      injection h' with h'
      injection h'
    rfl
  · next hne => exact absurd h (hne members)

lemma content_of_no_members {env : Setting} {depth : ℕ} {s : Schema Json} {seen : List String}
    (h : ∀ members, fs.get? "allOf" ≠ some (.arr members)) :
    content env depth s seen (.obj fs) = Told.lift (settleType env.rules (fs.erase "allOf")) := by
  rw [content]
  split
  · next members h' => exact absurd h' (h members)
  · rfl

lemma settle_alike (hf : Sound R (.obj fs)) :
    Alike (Told.lift (settleType rules fs)) (Told.lift (settleType rules fs)) (fun gs => Sound R (.obj gs))
      Failure.SparesTargets :=
  Told.lift_alike (fun _ h => sound_obj.2 ((sound_obj.1 hf).settleType soundAt_type h)) fun _ h => settleType_error h ▸ nofun

mutual

/-- **Bringing a sound value into normal form** looks up no text without the condition. -/
theorem content_alike (hl : Agree R l l') (depth : ℕ) (s : Schema Json) (seen : List String) (v : Json) (hv : Sound R v) :
    Alike (content ⟨some l, rules, bound⟩ depth s seen v) (content ⟨some l', rules, bound⟩ depth s seen v)
      (fun fs => Sound R (.obj fs)) Failure.SparesTargets := by
  match v with
  | .bool b =>
    rw [content, content]
    refine Alike.of_pure ?_
    cases b
    · exact sound_obj.2 fun key u hu => by
        obtain ⟨rfl, rfl⟩ : "not" = key ∧ Json.obj [] = u := by simpa [ofBool, Table.get?] using hu
        exact soundAt_of_not_shown (by decide) (by decide) _
    · exact sound_obj.2 nofun
  | .obj fs =>
    by_cases h : ∃ members, Table.get? fs "allOf" = some (.arr members)
    · obtain ⟨members, h⟩ := h
      rw [content_of_members h, content_of_members h]
      refine Alike.bind (mergeAll_alike hl depth s seen (Table.erase fs "allOf") members (sound_obj.2 ((sound_obj.1 hv).erase _)) ?_) fun merged hm =>
        settle_alike rules hm
      exact (sound_obj.1 hv "allOf" _ h).place .many (by simp [shownPlaces])
    · have h' : ∀ members, Table.get? fs "allOf" ≠ some (.arr members) := fun members hm => h ⟨members, hm⟩
      rw [content_of_no_members h', content_of_no_members h']
      exact settle_alike rules (sound_obj.2 ((sound_obj.1 hv).erase _))
  | .null | .num _ | .str _ | .extra _ | .arr _ =>
    rw [content, content]
    · exact Alike.of_throw nofun
    all_goals nofun
termination_by (depth, 2 * v.size)
decreasing_by
  have := Json.size_le_of_get? h
  simp only [Json.size] at this ⊢
  exact Prod.Lex.right _ (by omega)

theorem member_alike (hl : Agree R l l') (depth : ℕ) (s : Schema Json) (seen : List String) (m : Json) (hm : Sound R m) :
    Alike (member ⟨some l, rules, bound⟩ depth s seen m) (member ⟨some l', rules, bound⟩ depth s seen m)
      (fun fs => Sound R (.obj fs)) Failure.SparesTargets := by
  rw [member.eq_def, member.eq_def]
  match h : reference? m with
  | none => exact content_alike hl depth s seen m hm
  | some text =>
    obtain ⟨t, ht, ht', hsound⟩ := hl text ((sound_iff.1 hm).1 text h)
    simp only [ht, ht']
    split_ifs
    · exact Alike.of_throw nofun
    · match depth with
      | 0 => exact Alike.of_throw nofun
      | depth + 1 => exact content_alike hl depth t (text :: seen) t.content hsound
termination_by (depth, 2 * m.size + 1)
decreasing_by
  · exact Prod.Lex.right _ (by omega)
  · exact Prod.Lex.left _ _ (by omega)

theorem mergeAll_alike (hl : Agree R l l') (depth : ℕ) (s : Schema Json) (seen : List String) (done : Fields)
    (members : List Json) (hd : Sound R (.obj done)) (hm : ∀ m ∈ members, Sound R m) :
    Alike (mergeAll ⟨some l, rules, bound⟩ depth s seen done members)
      (mergeAll ⟨some l', rules, bound⟩ depth s seen done members) (fun fs => Sound R (.obj fs))
      Failure.SparesTargets := by
  match members with
  | [] =>
    rw [mergeAll, mergeAll]
    exact Alike.of_pure hd
  | m :: rest =>
    rw [mergeAll, mergeAll]
    refine (member_alike hl depth s seen m (hm m List.mem_cons_self)).bind fun fs hfs => ?_
    refine (Alike.forM fun key _ => Alike.of_modify).bind fun _ _ => ?_
    refine mergeAll_alike hl depth s seen _ rest (sound_obj.2 ?_) fun m' hm' => hm m' (List.mem_cons_of_mem _ hm')
    refine (sound_obj.1 hd).merge (fun _ _ _ => soundAt_combine) fun key v hv => ?_
    exact (sound_obj.1 hfs).erase _ key v (Table.mem_entries.1 hv)
termination_by (depth, 2 * Json.sizeItems members + 2)
decreasing_by
  · exact Prod.Lex.right _ (by simp only [Json.sizeItems]; omega)
  · have := Json.size_pos m
    exact Prod.Lex.right _ (by simp only [Json.sizeItems]; omega)

end

end Content

end Normal

end Typings
