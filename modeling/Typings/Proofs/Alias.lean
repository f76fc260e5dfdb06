import Mathlib
import Typings.Proofs.Ancestry
import Typings.Proofs.NormalForm

/-!
Aliases among the members of `allOf`. A member that is a reference is followed once: it stands for the normal form of its target.
If the target is an alias, a reference and nothing else, then this normal form is the reference, and all that is merged is the
key `$ref`. So an alias counts for nothing (`mergeAlike_alias`), and what it refers to is not inherited. Main statement:
`normalize_alias`.
-/

namespace Typings

/-- Where one of two runs ends well, so does the other. -/
lemma Twins.exists_ok {ε σ α β : Type} {x : EStateM ε σ α} {y : EStateM ε σ β} {R : α → β → Prop} {s t t' : σ} {b : β}
    (h : Twins x y R) (hy : y t = .ok b t') : ∃ a s', x s = .ok a s' ∧ R a b := by
  have hxy := h s t
  rw [outcome_of_ok hy] at hxy
  cases hx : x s with
  | ok a s' =>
    rw [outcome_of_ok hx] at hxy
    cases hxy with
    | ok hab => exact ⟨a, s', rfl, hab⟩
  | error e s' =>
    rw [outcome_of_error hx] at hxy
    cases hxy

lemma Table.erase_set_self {κ α : Type} [DecidableEq κ] (t : Table κ α) (key : κ) (v : α) :
    (t.set key v).erase key = t.erase key := by
  induction t with
  | nil => simp [set, erase]
  | cons e t ih =>
    obtain ⟨k, w⟩ := e
    rw [set]
    split_ifs with hk
    · simp [erase, hk]
    · rw [erase, erase, if_neg hk, if_neg hk, ih]

namespace Normal

/-! ### Members that agree -/

/-- Members agree on all keys with `P`. -/
def AgreeOn (P : String → Prop) (a b : Fields) : Prop := ∀ key, P key → a.get? key = b.get? key

namespace AgreeOn

variable {P : String → Prop} {rules : TypeRules} {a a' b b' c d : Fields}

lemma refl (P : String → Prop) (a : Fields) : AgreeOn P a a := fun _ _ => rfl

lemma erase (h : AgreeOn P a b) (key : String) : AgreeOn P (a.erase key) (b.erase key) := by
  intro k hk
  rw [Table.get?_erase, Table.get?_erase, h k hk]

lemma set (h : AgreeOn P a b) (key : String) (v : Json) : AgreeOn P (a.set key v) (b.set key v) := by
  intro k hk
  rw [Table.get?_set, Table.get?_set, h k hk]

lemma merge (h : AgreeOn P a b) (h' : AgreeOn P c d) : AgreeOn P (merge a c.entries) (merge b d.entries) := by
  intro key hkey
  rw [get?_merge_entries, get?_merge_entries, h key hkey, h' key hkey]

lemma impliesObject_eq (h : AgreeOn P a b) (hproperties : P "properties") (hadditional : P "additionalProperties") :
    impliesObject a = impliesObject b := by
  unfold impliesObject
  rw [h _ hproperties, h _ hadditional]

/-- Where members agree on what types are told from, their types are settled alike. -/
lemma matches_settleType (h : AgreeOn P a b) (htype : P "type") (hproperties : P "properties")
    (hadditional : P "additionalProperties") : Matches (AgreeOn P) (settleType rules a) (settleType rules b) := by
  unfold settleType
  rw [h _ htype, h.impliesObject_eq hproperties hadditional]
  cases (b.get? "type").getD .null with
  | null =>
    apply Matches.ok
    split_ifs
    · exact h.set _ _
    · exact h
  | arr types =>
    show Matches _ (reduceTypes rules types >>= _) (reduceTypes rules types >>= _)
    cases reduceTypes rules types with
    | error f => exact .error f
    | ok reduced =>
      match reduced with
      | [] => exact .ok (h.erase _)
      | [t] => exact .ok (h.set _ _)
      | t :: u :: rest => exact .ok (h.set _ _)
  | _ => exact .ok h

lemma settleType (h : AgreeOn P a b) (htype : ¬ P "type") (ha : settleType rules a = .ok a')
    (hb : settleType rules b = .ok b') : AgreeOn P a' b' := by
  intro key hkey
  have hne : key ≠ "type" := by
    rintro rfl
    exact htype hkey
  rw [get?_settleType ha hne, get?_settleType hb hne, h key hkey]

end AgreeOn

/-! ### Runs that agree

What was told before does not count for a normal form, nor does the key `$ref` of what is merged. -/

/-- The keys other than that of references. -/
def ButReference (key : String) : Prop := key ≠ "$ref"

/-- The normal form of `v` is the same but for `$ref`, whatever was told before and whatever else the schema holds. -/
def IsSteady (env : Setting) (depth : ℕ) (v : Json) : Prop :=
  ∀ s u seen, s.Akin u → Twins (content env depth s seen v) (content env depth u seen v) (AgreeOn ButReference)

section Runs

variable {env : Setting} {depth : ℕ} {s u : Schema Json} {seen : List String} {m m' : Json} {done done' : Fields}
  {members members' rest rest' : List Json}

/-- Members that are merged alike into what agrees. -/
def MergeAlike (env : Setting) (depth : ℕ) (s u : Schema Json) (seen : List String) (members members' : List Json) : Prop :=
  ∀ done done', AgreeOn ButReference done done' →
    Twins (mergeAll env depth s seen done members) (mergeAll env depth u seen done' members') (AgreeOn ButReference)

lemma settleType_twins {a b : Fields} (h : AgreeOn ButReference a b) :
    Twins (Told.lift (settleType env.rules a)) (Told.lift (settleType env.rules b)) (AgreeOn ButReference) := by
  apply Told.lift_twins
  apply h.matches_settleType <;> simp [ButReference]

lemma tell_gives (keys : List String) (told : List Notice) :
    ∃ told', (keys.forM fun key => Told.tell (.kindMismatch key)) told = .ok ⟨⟩ told' := by
  induction keys generalizing told with
  | nil => exact ⟨told, rfl⟩
  | cons key keys ih => exact ih _

lemma tell_twins (keys keys' : List String) :
    Twins (keys.forM fun key => Told.tell (.kindMismatch key)) (keys'.forM fun key => Told.tell (.kindMismatch key)) Eq := by
  intro told told'
  obtain ⟨_, h⟩ := tell_gives keys told
  obtain ⟨_, h'⟩ := tell_gives keys' told'
  rw [outcome_of_ok h, outcome_of_ok h']
  exact .ok rfl

/-- One member, then the others. -/
lemma MergeAlike.cons (hsu : s.Akin u)
    (hm : Twins (member env depth s seen m) (member env depth u seen m') (AgreeOn ButReference))
    (hrest : MergeAlike env depth s u seen rest rest') : MergeAlike env depth s u seen (m :: rest) (m' :: rest') := by
  intro done done' hdone
  rw [mergeAll, mergeAll, hsu.dialect]
  refine hm.bind fun fs fs' hfs => ?_
  refine (tell_twins _ _).bind fun _ _ _ => ?_
  exact hrest _ _ (hdone.merge (hfs.erase _))

lemma member_twins_of_steady (hinline : IsSteady env depth m) (hbehind : ∀ less < depth, ∀ w, IsSteady env less w)
    (hsu : s.Akin u) : Twins (member env depth s seen m) (member env depth u seen m) (AgreeOn ButReference) := by
  cases hr : reference? m with
  | none =>
    rw [member_of_inline hr, member_of_inline hr]
    exact hinline s u seen hsu
  | some text =>
    by_cases hseen : text ∈ seen
    · rw [member_of_seen hr hseen, member_of_seen hr hseen]
      exact Twins.of_throw _
    · cases hfind : env.find text with
      | error f =>
        rw [member_of_unknown hr hseen hfind, member_of_unknown hr hseen hfind]
        exact Twins.of_throw _
      | ok t =>
        rw [member_of_target hr hseen hfind, member_of_target hr hseen hfind]
        cases depth with
        | zero => exact Twins.of_throw _
        | succ less => exact hbehind less (Nat.lt_succ_self less) _ t t _ ⟨rfl, rfl, rfl⟩

lemma mergeAlike_of_steady (hinline : ∀ m ∈ members, IsSteady env depth m) (hbehind : ∀ less < depth, ∀ w, IsSteady env less w)
    (hsu : s.Akin u) : MergeAlike env depth s u seen members members := by
  induction members with
  | nil =>
    intro done done' hdone
    rw [mergeAll, mergeAll]
    exact Twins.of_pure hdone
  | cons m members ih =>
    obtain ⟨hm, hmembers⟩ := List.forall_mem_cons.1 hinline
    exact (ih hmembers).cons hsu (member_twins_of_steady hm hbehind hsu)

theorem content_steady (env : Setting) (depth : ℕ) (v : Json) : IsSteady env depth v := by
  refine content_induction (P := IsSteady env) (fun depth v hinline hbehind => ?_) depth v
  intro s u seen hsu
  rw [content_eq, content_eq, hsu.address]
  cases own? v with
  | none => exact Twins.of_throw _
  | some own => exact (mergeAlike_of_steady hinline hbehind hsu _ _ (AgreeOn.refl _ own)).bind fun _ _ => settleType_twins

lemma mergeAlike_same (members : List Json) (hsu : s.Akin u) : MergeAlike env depth s u seen members members :=
  mergeAlike_of_steady (fun m _ => content_steady env depth m) (fun less _ => content_steady env less) hsu

/-- Members that are merged alike may follow the same members. -/
lemma MergeAlike.append (h : MergeAlike env depth s u seen rest rest') (hsu : s.Akin u) (front : List Json) :
    MergeAlike env depth s u seen (front ++ rest) (front ++ rest') := by
  induction front with
  | nil => exact h
  | cons m front ih =>
    exact ih.cons hsu (member_twins_of_steady (content_steady env depth m) (fun less _ => content_steady env less) hsu)

/-! ### Aliases -/

/-- The value that is a reference and nothing else. -/
def refersTo (text : String) : Json := .obj [("$ref", .str text)]

lemma settleType_reference (rules : TypeRules) (text : String) :
    settleType rules [("$ref", .str text)] = .ok [("$ref", .str text)] := rfl

variable {first second : String} {a : Schema Json}

/-- The normal form of an alias is the reference that it is. -/
lemma member_alias (hfind : env.find first = .ok a) (hcontent : a.content = refersTo second) (hseen : first ∉ seen)
    (told : List Notice) :
    member env (depth + 1) s seen (refersTo first) told = .ok [("$ref", .str second)] told := by
  rw [member_of_target rfl hseen hfind]
  dsimp only
  rw [hcontent, content_eq]
  show (mergeAll env depth a (first :: seen) [("$ref", .str second)] [] >>= _) told = _
  rw [mergeAll, pure_bind, settleType_reference]
  rfl

/-- **An alias counts for nothing**: members are merged as they are without it, but for the key `$ref`. -/
lemma mergeAlike_alias (hsu : s.Akin u) (hdepth : 0 < depth) (hfind : env.find first = .ok a)
    (hcontent : a.content = refersTo second) (hseen : first ∉ seen) (front back : List Json) :
    MergeAlike env depth s u seen (front ++ refersTo first :: back) (front ++ back) := by
  obtain ⟨less, rfl⟩ := Nat.exists_eq_succ_of_ne_zero hdepth.ne'
  refine MergeAlike.append (fun done done' hdone => ?_) hsu front
  rw [mergeAll]
  refine Twins.of_step (fun told => ⟨told, member_alias hfind hcontent hseen told⟩) ?_
  refine Twins.of_step (tell_gives _) (mergeAlike_same back hsu _ _ fun key hkey => ?_)
  rw [← hdone key hkey, get?_merge_of_none]
  rw [Table.get?_erase, Table.get?_cons, if_neg (Ne.symm hkey), Table.get?_nil, ite_self]

end Runs

/-! ### Members inside members -/

/-- A place for members of `allOf`: in a value itself, or in one of its members, and so on inwards. -/
inductive Spot
  | here (fs : Fields)
  | inside (fs : Fields) (front : List Json) (spot : Spot) (back : List Json)

namespace Spot

/-- The fields of the value around a place, `allOf` apart. -/
def fields : Spot → Fields
  | here fs => fs
  | inside fs _ _ _ => fs

/-- The value with members in the place. -/
def fill (members : List Json) : Spot → Json
  | here fs => .obj (fs.set "allOf" (.arr members))
  | inside fs front spot back => .obj (fs.set "allOf" (.arr (front ++ spot.fill members :: back)))

/-- None of the members around the place is a reference. -/
def IsInline : Spot → Prop
  | here _ => True
  | inside _ _ spot _ => reference? (.obj spot.fields) = none ∧ spot.IsInline

lemma reference?_fill (members : List Json) (spot : Spot) : reference? (spot.fill members) = reference? (.obj spot.fields) := by
  cases spot <;> simp only [reference?, fill, fields, Json.get?] <;> rw [Table.get?_set_of_ne (by decide)]

end Spot

section Spots

variable {env : Setting} {depth : ℕ} {s u : Schema Json} {seen : List String} {members members' : List Json}

lemma MergeAlike.content (h : MergeAlike env depth s u seen members members') (fs : Fields) :
    Twins (content env depth s seen (.obj (fs.set "allOf" (.arr members))))
      (content env depth u seen (.obj (fs.set "allOf" (.arr members')))) (AgreeOn ButReference) := by
  rw [content_of_members (Table.get?_set_self _ _ _), content_of_members (Table.get?_set_self _ _ _),
    Table.erase_set_self, Table.erase_set_self]
  exact (h _ _ (AgreeOn.refl _ _)).bind fun _ _ => settleType_twins

/-- Members that are merged alike are merged alike inside of other members. -/
theorem content_fill_twins (hsu : s.Akin u) (h : MergeAlike env depth s u seen members members') (spot : Spot)
    (hspot : spot.IsInline) :
    Twins (content env depth s seen (spot.fill members)) (content env depth u seen (spot.fill members'))
      (AgreeOn ButReference) := by
  induction spot with
  | here fs => exact h.content fs
  | inside fs front spot back ih =>
    obtain ⟨hr, hinner⟩ := hspot
    have hmember : Twins (member env depth s seen (spot.fill members)) (member env depth u seen (spot.fill members'))
        (AgreeOn ButReference) := by
      rw [member_of_inline ((spot.reference?_fill _).trans hr), member_of_inline ((spot.reference?_fill _).trans hr)]
      exact ih hinner
    exact (((mergeAlike_same back hsu).cons hsu hmember).append hsu front).content fs

end Spots

/-! ### Forms that agree -/

section Forms

variable {env : Setting} {s t : Schema Json} {a b fs fs' own result result' : Fields} {m m' : Json}
  {members rest rest' front back : List Json} {P : String → Prop}

/-- Folding gives one result. -/
lemma Folds.unique (h : Folds env s a members result) (h' : Folds env s a members result') : result = result' := by
  induction h generalizing result' with
  | nil =>
    cases h'
    rfl
  | cons hm hown _ htype _ ihinner ihrest =>
    cases h' with
    | cons hm' hown' hinner' htype' hrest' =>
      cases hm.symm.trans hm'
      cases hown.symm.trans hown'
      cases ihinner hinner'
      cases htype.symm.trans htype'
      exact ihrest hrest'

lemma HasForm.unique (h : HasForm env s fs) (h' : HasForm env s fs') : fs = fs' := by
  obtain ⟨own, merged, hown, hfolds, htype⟩ := h
  obtain ⟨own', merged', hown', hfolds', htype'⟩ := h'
  cases hown.symm.trans hown'
  cases hfolds.unique hfolds'
  cases htype.symm.trans htype'
  rfl

/-- A schema without members has what it says itself as its form, with the type settled. -/
lemma HasForm.settleType_own (h : HasForm env s fs) (hown : own? s.content = some own) (hall : allOf s.content = []) :
    settleType env.rules own = .ok fs := by
  obtain ⟨own', merged, hown', hfolds, htype⟩ := h
  cases hown.symm.trans hown'
  rw [hall] at hfolds
  cases hfolds
  exact htype

/-- Inline members and the keyword of ids are all that folding takes from the schema around. -/
lemma Folds.withContent (h : Folds env s a members result) (v : Json) : Folds env (s.withContent v) a members result := by
  induction h with
  | nil => exact .nil _ _
  | cons hm hown hinner htype _ _ ihrest => exact .cons hm hown hinner htype ihrest

/-- The forms of two members agree, where they have forms. -/
def FormsAgree (P : String → Prop) (env : Setting) (s : Schema Json) (m m' : Json) : Prop :=
  ∀ t t' fs fs', meant env s m = .ok t → HasForm env t fs → meant env s m' = .ok t' → HasForm env t' fs' → AgreeOn P fs fs'

lemma FormsAgree.refl (P : String → Prop) (env : Setting) (s : Schema Json) (m : Json) : FormsAgree P env s m m := by
  intro t t' fs fs' ht hfs ht' hfs'
  cases ht.symm.trans ht'
  cases hfs.unique hfs'
  exact AgreeOn.refl P fs

/-- Members with forms that agree are folded first. -/
lemma FormsAgree.folds_cons (hm : FormsAgree P env s m m') (h : Folds env s a (m :: rest) result)
    (h' : Folds env s b (m' :: rest') result') (hab : AgreeOn P a b) :
    ∃ c d, AgreeOn P c d ∧ Folds env s c rest result ∧ Folds env s d rest' result' := by
  cases h with
  | cons ht hown hinner htype hrest =>
    cases h' with
    | cons ht' hown' hinner' htype' hrest' =>
      have hfs := hm _ _ _ _ ht ⟨_, _, hown, hinner, htype⟩ ht' ⟨_, _, hown', hinner', htype'⟩
      exact ⟨_, _, hab.merge (hfs.erase _), hrest, hrest'⟩

/-- The same members, folded into what agrees. -/
lemma Folds.agreeOn (h : Folds env s a members result) (h' : Folds env s b members result') (hab : AgreeOn P a b) :
    AgreeOn P result result' := by
  induction members generalizing a b with
  | nil =>
    cases h
    cases h'
    exact hab
  | cons m members ih =>
    obtain ⟨c, d, hcd, hrest, hrest'⟩ := (FormsAgree.refl P env s m).folds_cons h h' hab
    exact ih hrest hrest' hcd

/-- Members with forms that agree may stand for each other. -/
lemma Folds.agreeOn_replace (h : Folds env s a (front ++ m :: back) result) (h' : Folds env s b (front ++ m' :: back) result')
    (hm : FormsAgree P env s m m') (hab : AgreeOn P a b) : AgreeOn P result result' := by
  induction front generalizing a b with
  | nil =>
    obtain ⟨c, d, hcd, hrest, hrest'⟩ := hm.folds_cons h h' hab
    exact hrest.agreeOn hrest' hcd
  | cons n front ih =>
    obtain ⟨c, d, hcd, hrest, hrest'⟩ := (FormsAgree.refl P env s n).folds_cons h h' hab
    exact ih hrest hrest' hcd

lemma hasForm_set_allOf {gs : Fields} (h : HasForm env (s.withContent (.obj (fs.set "allOf" (.arr members)))) gs) :
    ∃ merged, Folds env s (fs.erase "allOf") members merged ∧ settleType env.rules merged = .ok gs := by
  obtain ⟨own, merged, hown, hfolds, htype⟩ := h
  have hall : allOf (.obj (fs.set "allOf" (.arr members))) = members := by
    simp [allOf, Json.get?, Json.items]
  rw [Schema.withContent, own?, Table.erase_set_self] at hown
  cases hown
  refine ⟨merged, ?_, htype⟩
  have hback := hfolds.withContent s.content
  rwa [Schema.withContent, Schema.withContent, hall] at hback

/-- Members with forms that agree may stand for each other inside of other members. -/
theorem HasForm.agreeOn_fill (htype : ¬ P "type") (hm : FormsAgree P env s m m') (spot : Spot) (hspot : spot.IsInline)
    (h : HasForm env (s.withContent (spot.fill (front ++ m :: back))) fs)
    (h' : HasForm env (s.withContent (spot.fill (front ++ m' :: back))) fs') : AgreeOn P fs fs' := by
  induction spot generalizing fs fs' with
  | here gs =>
    obtain ⟨merged, hfolds, hsettle⟩ := hasForm_set_allOf h
    obtain ⟨merged', hfolds', hsettle'⟩ := hasForm_set_allOf h'
    exact (hfolds.agreeOn_replace hfolds' hm (AgreeOn.refl _ _)).settleType htype hsettle hsettle'
  | inside gs front' spot back' ih =>
    obtain ⟨hr, hinner⟩ := hspot
    obtain ⟨merged, hfolds, hsettle⟩ := hasForm_set_allOf h
    obtain ⟨merged', hfolds', hsettle'⟩ := hasForm_set_allOf h'
    refine (hfolds.agreeOn_replace hfolds' ?_ (AgreeOn.refl _ _)).settleType htype hsettle hsettle'
    intro t t' inner inner' ht hform ht' hform'
    rw [meant_of_inline ((spot.reference?_fill _).trans hr)] at ht ht'
    cases ht
    cases ht'
    exact ih hinner hform hform'

end Forms

/-! ### Schemas -/

section Schemas

variable {env : Setting} {a : Schema Json} {first second : String}

lemma normalize_twins_of_alias (hdepth : 0 < env.depth) (s : Schema Json) (spot : Spot) (hspot : spot.IsInline)
    (front back : List Json) (ha : env.find first = .ok a) (hcontent : a.content = refersTo second) :
    Twins (normalize env (s.withContent (spot.fill (front ++ refersTo first :: back))))
      (normalize env (s.withContent (spot.fill (front ++ back)))) (fun t u => AgreeOn ButReference t.content u.content) := by
  have hsame : (s.withContent (spot.fill (front ++ refersTo first :: back))).Akin (s.withContent (spot.fill (front ++ back))) :=
    ⟨rfl, rfl, rfl⟩
  have hmembers := mergeAlike_alias hsame hdepth ha hcontent List.not_mem_nil front back
  exact (content_fill_twins hsame hmembers spot hspot).bind fun fs fs' hfs => Twins.of_pure hfs

/-- The form of an alias says nothing but what it refers to. -/
lemma get?_form_of_alias {fs : Fields} (h : HasForm env a fs) (hcontent : a.content = refersTo second) {key : String}
    (hkey : ButReference key) : fs.get? key = none := by
  have hsettle : settleType env.rules [("$ref", .str second)] = .ok fs :=
    h.settleType_own (by rw [hcontent]; rfl) (by rw [hcontent]; rfl)
  rw [settleType_reference] at hsettle
  cases hsettle
  rw [Table.get?_cons, if_neg (Ne.symm hkey), Table.get?_nil]

/-- The keys of what a schema lets an object have and of what it has to have. -/
def OfProperties (key : String) : Prop := key = "properties" ∨ key = "required"

/-- **Aliases are not seen through.** Let a member of `allOf` refer to an alias, in a schema or in an inline member of it, at
any depth. Then the schema has the normal form that it has without the member, but for the key `$ref`. So properties and
required names are those that it has with the member referring to the target of the alias itself, if the form of that target has
none. -/
theorem normalize_alias (env : Setting) (hdepth : 0 < env.depth) (s : Schema Json) (spot : Spot) (hspot : spot.IsInline)
    (front back : List Json) (first second : String) (a b : Schema Json) (ha : env.find first = .ok a)
    (hcontent : a.content = refersTo second) (hb : env.find second = .ok b) :
    Twins (normalize env (s.withContent (spot.fill (front ++ refersTo first :: back))))
        (normalize env (s.withContent (spot.fill (front ++ back)))) (fun t u => AgreeOn ButReference t.content u.content) ∧
      ∀ t u told told' notices notices',
        normalize env (s.withContent (spot.fill (front ++ refersTo first :: back))) told = .ok t told' →
        normalize env (s.withContent (spot.fill (front ++ refersTo second :: back))) notices = .ok u notices' →
        (∀ fs, HasForm env b fs → ∀ key, OfProperties key → fs.get? key = none) →
        AgreeOn OfProperties t.content u.content := by
  refine ⟨normalize_twins_of_alias hdepth s spot hspot front back ha hcontent, ?_⟩
  intro t u told told' notices notices' ht hu hnone
  have htform := (normalize_explained env _ told).good_of_ok ht
  have huform := (normalize_explained env _ notices).good_of_ok hu
  refine htform.agreeOn_fill (by simp [OfProperties]) (fun c d fs fs' hc hfs hd hfs' => ?_) spot hspot huform
  rw [meant_of_reference rfl] at hc hd
  cases ha.symm.trans hc
  cases hb.symm.trans hd
  intro key hkey
  have hother : ButReference key := by
    rcases hkey with rfl | rfl <;> simp [ButReference]
  rw [get?_form_of_alias hfs hcontent hother, hnone fs' hfs' key hkey]

end Schemas

/-- Here `/a` is an alias of `/b`, and everything else has the content `b`. -/
def aliasSetting (b : Json) : Setting :=
  ⟨some fun text => .ok ⟨.draft07, .ofText text, if text = "/a" then refersTo "/b" else b, none, [], false⟩, .mergeNumeric, 1⟩

/-- A schema with members in the place `spot`. -/
def holding (spot : Spot) (members : List Json) : Schema Json := ⟨.draft07, .ofText "/x", spot.fill members, none, [], false⟩

/-- A place in an inline member, which has a property. -/
def nestedSpot : Spot := .inside [("required", .arr [.str "o"])] [] (.here [("properties", .obj [("o", .bool true)])]) [.bool true]

/-- An object of which no properties are told. -/
def someObject : Json := .obj [("type", .str "object")]

/-- The normal form of a schema that holds nothing of interest in `nestedSpot`. -/
def nestedForm : Fields :=
  [("required", .arr [.str "o"]), ("properties", .obj [("o", .bool true)]), ("type", .str "object")]

lemma normalize_nested : normalize (aliasSetting someObject) (holding nestedSpot []) [] =
    .ok ((holding nestedSpot []).withContent nestedForm) [] := by cbv

lemma normalize_nested_target : normalize (aliasSetting someObject) (holding nestedSpot [refersTo "/b"]) [] =
    .ok ((holding nestedSpot []).withContent nestedForm) [] := by cbv

theorem normalize_alias_nested :
    let env := aliasSetting someObject
    nestedSpot.IsInline ∧ (∃ a b, env.find "/a" = .ok a ∧ a.content = refersTo "/b" ∧ env.find "/b" = .ok b) ∧
      ∃ t u told, normalize env (holding nestedSpot [refersTo "/a"]) [] = .ok t told ∧
        normalize env (holding nestedSpot [refersTo "/b"]) [] = .ok u [] ∧ AgreeOn ButReference t.content nestedForm ∧
        AgreeOn OfProperties t.content u.content := by
  intro env
  have hspot : nestedSpot.IsInline := ⟨rfl, trivial⟩
  obtain ⟨htwins, hagree⟩ := normalize_alias env Nat.one_pos (holding nestedSpot []) nestedSpot hspot [] [] "/a" "/b" _ _
    rfl rfl rfl
  have hnone : ∀ fs, HasForm env ⟨.draft07, .ofText "/b", someObject, none, [], false⟩ fs →
      ∀ key, OfProperties key → fs.get? key = none := by
    intro fs hfs key hkey
    have hsettle : settleType env.rules [("type", .str "object")] = .ok fs := hfs.settleType_own rfl rfl
    cases hsettle
    rcases hkey with rfl | rfl <;> rfl
  obtain ⟨t, told, ht, hform⟩ := htwins.exists_ok normalize_nested
  exact ⟨hspot, ⟨_, _, rfl, rfl, rfl⟩, t, _, told, ht, normalize_nested_target, hform,
    hagree t _ [] told [] [] ht normalize_nested_target hnone⟩

/-- A schema with one property, without members of `allOf`. -/
def plainSpot : Spot := .here [("properties", .obj [("o", .bool true)])]

/-- An object with one property, which is required. -/
def requiring : Json := .obj [("properties", .obj [("p", .bool true)]), ("required", .arr [.str "p"])]

lemma normalize_plain : normalize (aliasSetting requiring) (holding plainSpot []) [] =
    .ok ((holding plainSpot []).withContent [("properties", .obj [("o", .bool true)]), ("type", .str "object")]) [] := by cbv

/-- **A property that is lost.** The schema behind the alias requires a property. A schema that refers to it inherits the property,
and one that refers to the alias does not. -/
theorem normalize_loses_inherited : ∃ t u told,
    normalize (aliasSetting requiring) (holding plainSpot [refersTo "/a"]) [] = .ok t told ∧
    normalize (aliasSetting requiring) (holding plainSpot [refersTo "/b"]) [] = .ok u [] ∧
    t.content.get? "properties" = some (.obj [("o", .bool true)]) ∧ t.content.get? "required" = none ∧
    u.content.get? "properties" = some (.obj [("o", .bool true), ("p", .bool true)]) ∧
    u.content.get? "required" = some (.arr [.str "p"]) := by
  have htwins : Twins (normalize (aliasSetting requiring) (holding plainSpot [refersTo "/a"]))
      (normalize (aliasSetting requiring) (holding plainSpot [])) (fun t u => AgreeOn ButReference t.content u.content) :=
    normalize_twins_of_alias Nat.one_pos (holding plainSpot []) plainSpot trivial [] [] rfl rfl
  have htarget : normalize (aliasSetting requiring) (holding plainSpot [refersTo "/b"]) [] =
      .ok ((holding plainSpot []).withContent [("properties", .obj [("o", .bool true), ("p", .bool true)]),
        ("required", .arr [.str "p"]), ("type", .str "object")]) [] := by cbv
  obtain ⟨t, told, ht, hagree⟩ := htwins.exists_ok normalize_plain
  refine ⟨t, _, told, ht, htarget, ?_, ?_, rfl, rfl⟩
  · exact hagree "properties" (by simp [ButReference])
  · exact hagree "required" (by simp [ButReference])

end Normal

end Typings
