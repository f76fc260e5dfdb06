import Mathlib
import Typings.Proofs.Equality
import Typings.Proofs.Flattening

/-!
What normal forms are, and what becomes of them when they are brought into normal form again. A normal form has no `allOf`, its
list of types is reduced (`IsNormal`), and its id is the schema's own. A second normalisation finds no members to merge and no
types to reduce; all that it can still do is to name a type that is missing. A type is missing only where the merged types are a
list that names none: objects are told from their properties before lists are reduced. Main statements:

* `normalize_isNormal`: the result of normalisation is in normal form;
* `normalize_again`: normalising again changes nothing, unless a list of types that names none stands beside properties.
-/

namespace Typings

namespace Normal

/-! ### Lists of types -/

section Types

variable {rules : TypeRules} {types done reduced : List Json} {t : Json}

lemma same_comm {a : Json} (ha : isComparable a = true) (b : Json) : a.same b = b.same a := by
  cases a with
  | null => cases b <;> simp [Json.same, Json.numbersEqual, Json.number?]
  | bool x => cases b <;> simp [Json.same, Json.numbersEqual_comm (.bool x)] <;> simp [Json.numbersEqual, Json.number?]
  | num n => cases b <;> simp [Json.same, Json.numbersEqual_comm (.num n)] <;> simp [Json.numbersEqual, Json.number?]
  | str text => cases b <;> simp [Json.same, Json.numbersEqual, Json.number?, eq_comm]
  | extra x =>
    cases b with
    | extra y =>
      simp only [Json.same]
      cases x <;> cases y <;> simp_all [Extra.same, Moment.same_comm, eq_comm, isComparable, Extra.isKey]
    | _ => simp [Json.same, Json.numbersEqual, Json.number?]
  | arr xs => cases ha
  | obj fs => cases ha

/-- Two types that are told apart, whichever comes first. -/
def Differ (a b : Json) : Prop := a.same b = false ∧ b.same a = false

/-- **A reduced list of types**: several types, all told apart, and no `integer` beside `number` if that counts as a part of it. -/
structure IsReduced (rules : TypeRules) (types : List Json) : Prop where
  several : 2 ≤ types.length
  comparable : ∀ t ∈ types, isComparable t = true
  distinct : types.Pairwise Differ
  numeric : rules = .mergeNumeric → ¬ (.str "integer" ∈ types ∧ .str "number" ∈ types)

lemma mem_distinctFrom (h : t ∈ distinctFrom done types) : t ∈ done ∨ t ∈ types := by
  induction types generalizing done with
  | nil => exact Or.inl h
  | cons y types ih =>
    rw [distinctFrom] at h
    rcases ih h with h | h
    · split_ifs at h
      · exact Or.inl h
      · rcases List.mem_append.1 h with h | h
        · exact Or.inl h
        · exact Or.inr (by simp_all)
    · exact Or.inr (List.mem_cons_of_mem _ h)

lemma distinctFrom_pairwise (hdone : done.Pairwise Differ) (htypes : ∀ t ∈ types, isComparable t = true) :
    (distinctFrom done types).Pairwise Differ := by
  induction types generalizing done with
  | nil => exact hdone
  | cons y types ih =>
    obtain ⟨hy, htypes⟩ := List.forall_mem_cons.1 htypes
    rw [distinctFrom]
    split_ifs with hin
    · exact ih hdone htypes
    · refine ih (List.pairwise_append.2 ⟨hdone, List.pairwise_singleton _ _, ?_⟩) htypes
      intro x hx z hz
      obtain rfl := List.mem_singleton.1 hz
      have hxy : x.same z = false := by
        simp only [Json.isIn, List.any_eq_true, not_exists, not_and, Bool.not_eq_true] at hin
        exact hin x hx
      exact ⟨hxy, by rw [same_comm hy, hxy]⟩

/-- Types that are told apart stay as they are. -/
lemma distinctFrom_of_pairwise (h : (done ++ types).Pairwise Differ) : distinctFrom done types = done ++ types := by
  induction types generalizing done with
  | nil => simp [distinctFrom]
  | cons y types ih =>
    have hy : y.isIn done = false := by
      rw [Json.isIn, List.any_eq_false]
      intro x hx
      have hxy := (List.pairwise_append.1 h).2.2 x hx y List.mem_cons_self
      simp [hxy.1]
    rw [distinctFrom, hy]
    simp only [Bool.false_eq_true, if_false]
    rw [ih (by rwa [List.append_assoc]), List.append_assoc]
    rfl

lemma mem_distinctFrom_of_mem (h : t ∈ done) : t ∈ distinctFrom done types := by
  induction types generalizing done with
  | nil => exact h
  | cons y types ih =>
    rw [distinctFrom]
    apply ih
    split_ifs
    · exact h
    · exact List.mem_append_left _ h

/-- Every type is there, or one that is the same. -/
lemma exists_same_of_mem (done : List Json) (h : t ∈ types) : ∃ u ∈ distinctFrom done types, u = t ∨ u.same t = true := by
  induction types generalizing done with
  | nil => cases h
  | cons y types ih =>
    rw [distinctFrom]
    rcases List.mem_cons.1 h with rfl | h
    · by_cases hin : t.isIn done = true
      · obtain ⟨u, hu, hsame⟩ := List.any_eq_true.1 hin
        rw [if_pos hin]
        exact ⟨u, mem_distinctFrom_of_mem hu, Or.inr hsame⟩
      · rw [if_neg hin]
        exact ⟨t, mem_distinctFrom_of_mem (List.mem_append_right _ (List.mem_singleton_self t)), Or.inl rfl⟩
    · exact ih _ h

lemma withoutInteger_sublist (types : List Json) : (withoutInteger types).Sublist types := by
  unfold withoutInteger
  split_ifs
  · exact List.filter_sublist
  · exact List.Sublist.refl _

lemma not_both_withoutInteger (types : List Json) :
    ¬ (.str "integer" ∈ withoutInteger types ∧ .str "number" ∈ withoutInteger types) := by
  rintro ⟨hinteger, hnumber⟩
  unfold withoutInteger at hinteger hnumber
  split_ifs at hinteger hnumber with hboth
  · simp at hinteger
  · simp_all

lemma withoutInteger_of_not_both (h : ¬ (.str "integer" ∈ types ∧ .str "number" ∈ types)) : withoutInteger types = types := by
  unfold withoutInteger
  rw [if_neg]
  simp only [List.contains_eq_mem, Bool.and_eq_true, decide_eq_true_eq]
  exact fun hboth => h ⟨hboth.2, hboth.1⟩

/-- What is left of a list of types. -/
def reducedTypes (rules : TypeRules) (types : List Json) : List Json :=
  match rules with
  | .mergeNumeric => withoutInteger (distinctFrom [] types)
  | .distinct => distinctFrom [] types

lemma reduceTypes_eq_ok_iff : reduceTypes rules types = .ok reduced ↔
    (∀ t ∈ types, isComparable t = true) ∧ reducedTypes rules types = reduced := by
  have hall : types.all isComparable = true ↔ ∀ t ∈ types, isComparable t = true := List.all_eq_true
  unfold reduceTypes
  split_ifs with h
  · rw [Except.ok.injEq, and_iff_right (hall.1 h)]
    rfl
  · simp only [false_iff, not_and]
    exact fun hcomparable => absurd (hall.2 hcomparable) h

lemma reducedTypes_sublist (rules : TypeRules) (types : List Json) :
    (reducedTypes rules types).Sublist (distinctFrom [] types) := by
  cases rules with
  | mergeNumeric => exact withoutInteger_sublist _
  | distinct => exact List.Sublist.refl _

/-- **Reduction gives reduced lists**, if several types are left. -/
lemma reduceTypes_reduced (h : reduceTypes rules types = .ok reduced) : (∀ t ∈ reduced, isComparable t = true) ∧
    (2 ≤ reduced.length → IsReduced rules reduced) := by
  obtain ⟨hcomparable, rfl⟩ := reduceTypes_eq_ok_iff.1 h
  have hdistinct : (distinctFrom [] types).Pairwise Differ := distinctFrom_pairwise List.Pairwise.nil hcomparable
  have hsub := reducedTypes_sublist rules types
  have hmem : ∀ t ∈ reducedTypes rules types, isComparable t = true := by
    intro t ht
    rcases mem_distinctFrom (hsub.subset ht) with ht | ht
    · cases ht
    · exact hcomparable t ht
  refine ⟨hmem, fun hlength => ⟨hlength, hmem, hdistinct.sublist hsub, ?_⟩⟩
  rintro rfl
  exact not_both_withoutInteger _

/-- Reduced lists stay as they are. -/
lemma IsReduced.reduceTypes_eq (h : IsReduced rules types) : reduceTypes rules types = .ok types := by
  have hdistinct : distinctFrom [] types = types := distinctFrom_of_pairwise h.distinct
  refine reduceTypes_eq_ok_iff.2 ⟨h.comparable, ?_⟩
  cases rules with
  | mergeNumeric => rw [reducedTypes, hdistinct, withoutInteger_of_not_both (h.numeric rfl)]
  | distinct => exact hdistinct

/-- A list of types names none: there is nothing in it but nulls. -/
def NamesNone (types : List Json) : Prop := ∀ t ∈ types, t = .null

lemma distinctFrom_namesNone (h : NamesNone types) : distinctFrom [.null] types = [.null] := by
  induction types with
  | nil => rfl
  | cons y types ih =>
    obtain ⟨rfl, hrest⟩ := List.forall_mem_cons.1 h
    exact ih hrest

/-- **What is left of a list that names none** is nothing, or one null. -/
lemma namesNone_iff_reducedTypes : NamesNone types ↔ reducedTypes rules types = [] ∨ reducedTypes rules types = [.null] := by
  constructor
  · intro hnone
    cases types with
    | nil => exact Or.inl (by cases rules <;> rfl)
    | cons y types =>
      obtain ⟨rfl, hrest⟩ := List.forall_mem_cons.1 hnone
      have hdistinct : distinctFrom [] (.null :: types) = [.null] := distinctFrom_namesNone hrest
      refine Or.inr ?_
      cases rules with
      | mergeNumeric => simp [reducedTypes, hdistinct, withoutInteger]
      | distinct => exact hdistinct
  · intro hreduced t ht
    have hnull : ∀ u ∈ reducedTypes rules types, u = .null := by
      rcases hreduced with h | h <;> simp [h]
    -- nothing was taken out, since `number` would be left
    have hdistinct : reducedTypes rules types = distinctFrom [] types := by
      cases rules with
      | distinct => rfl
      | mergeNumeric =>
        refine withoutInteger_of_not_both ?_
        rintro ⟨hinteger, hnumber⟩
        have hleft : Json.str "number" ∈ reducedTypes .mergeNumeric types := by
          simp [reducedTypes, withoutInteger, hinteger, hnumber]
        exact absurd (hnull _ hleft) (by simp)
    obtain ⟨u, hu, hsame⟩ := exists_same_of_mem [] ht
    obtain rfl := hnull u (hdistinct ▸ hu)
    rcases hsame with rfl | hsame
    · rfl
    · cases t with
      | null => rfl
      | _ => simp [Json.same] at hsame

end Types

/-! ### Settling the type -/

section Settle

variable {rules : TypeRules} {fs gs : Fields}

/-- There is no type. -/
def IsUntyped (fs : Fields) : Prop := (fs.get? "type").getD .null = .null

/-- **What settling the type does**, case by case. -/
inductive SettlesTo (rules : TypeRules) (fs : Fields) : Fields → Prop
  | object (htype : IsUntyped fs) (h : impliesObject fs = true) : SettlesTo rules fs (fs.set "type" (.str "object"))
  | untyped (htype : IsUntyped fs) (h : impliesObject fs = false) : SettlesTo rules fs fs
  | none {types : List Json} (htype : fs.get? "type" = some (.arr types)) (h : reduceTypes rules types = .ok []) :
    SettlesTo rules fs (fs.erase "type")
  | one {types : List Json} {t : Json} (htype : fs.get? "type" = some (.arr types)) (h : reduceTypes rules types = .ok [t]) :
    SettlesTo rules fs (fs.set "type" t)
  | several {types reduced : List Json} (htype : fs.get? "type" = some (.arr types))
    (h : reduceTypes rules types = .ok reduced) (hlength : 2 ≤ reduced.length) : SettlesTo rules fs (fs.set "type" (.arr reduced))
  | plain {v : Json} (htype : fs.get? "type" = some v) (hnull : v ≠ .null) (harr : ∀ types, v ≠ .arr types) :
    SettlesTo rules fs fs

lemma settlesTo_of_settleType (h : settleType rules fs = .ok gs) : SettlesTo rules fs gs := by
  unfold settleType at h
  split at h
  · next hnull =>
    cases hobject : impliesObject fs with
    | true =>
      rw [hobject] at h
      cases h
      exact .object hnull hobject
    | false =>
      rw [hobject] at h
      cases h
      exact .untyped hnull hobject
  · next types htypes =>
    have htype : fs.get? "type" = some (.arr types) := by
      cases hv : fs.get? "type" with
      | none => simp [hv] at htypes
      | some v => simpa [hv] using htypes
    obtain ⟨reduced, hreduced, h⟩ := bind_eq_ok.1 h
    rcases reduced with _ | ⟨t, _ | ⟨t', rest⟩⟩
    · cases h
      exact .none htype hreduced
    · cases h
      exact .one htype hreduced
    · cases h
      exact .several htype hreduced (by simp)
  · next hnull harr =>
    cases h
    cases hv : fs.get? "type" with
    | none => simp [hv] at hnull
    | some v => exact .plain hv (by simpa [hv] using hnull) (by simpa [hv] using harr)

lemma settleType_of_settlesTo (h : SettlesTo rules fs gs) : settleType rules fs = .ok gs := by
  unfold settleType
  cases h with
  | object htype h =>
    rw [show (fs.get? "type").getD .null = .null from htype]
    simp [h]
  | untyped htype h =>
    rw [show (fs.get? "type").getD .null = .null from htype]
    simp [h]
  | none htype h => simp [htype, h, bind, Except.bind, pure, Except.pure]
  | one htype h => simp [htype, h, bind, Except.bind, pure, Except.pure]
  | @several types reduced htype h hlength =>
    rcases reduced with _ | ⟨t, _ | ⟨t', rest⟩⟩
    · simp at hlength
    · simp at hlength
    · simp [htype, h, bind, Except.bind, pure, Except.pure]
  | @plain v htype hnull harr =>
    rw [htype, Option.getD_some]
    cases v with
    | null => exact absurd rfl hnull
    | arr types => exact absurd rfl (harr types)
    | _ => rfl

/-- A settled list of types is reduced. -/
lemma SettlesTo.isReduced (h : SettlesTo rules fs gs) {types : List Json} (htypes : gs.get? "type" = some (.arr types)) :
    IsReduced rules types := by
  cases h with
  | object htype h => simp at htypes
  | untyped htype h => simp [IsUntyped, htypes] at htype
  | none htype h => simp [Table.get?_erase] at htypes
  | one htype h =>
    have hcomparable := (reduceTypes_reduced h).1 _ List.mem_cons_self
    rw [Table.get?_set_self] at htypes
    cases htypes
    cases hcomparable
  | several htype h hlength =>
    rw [Table.get?_set_self] at htypes
    cases htypes
    exact (reduceTypes_reduced h).2 hlength
  | plain htype hnull harr =>
    rw [htype] at htypes
    cases htypes
    exact absurd rfl (harr types)

/-- Members speak of an object, and there is no type. -/
def LacksType (fs : Fields) : Prop := impliesObject fs = true ∧ IsUntyped fs

/-- Members speak of an object, and their list of types names none. -/
def LosesType (fs : Fields) : Prop :=
  impliesObject fs = true ∧ ∃ types, fs.get? "type" = some (.arr types) ∧ NamesNone types

lemma impliesObject_settleType (h : settleType rules fs = .ok gs) : impliesObject gs = impliesObject fs := by
  unfold impliesObject
  rw [get?_settleType h (by decide), get?_settleType h (by decide)]

/-- **The type is missing in the end** only where a list of types named none. -/
lemma lacksType_iff_losesType (h : settleType rules fs = .ok gs) : LacksType gs ↔ LosesType fs := by
  unfold LacksType LosesType
  rw [impliesObject_settleType h]
  refine and_congr_right fun hobject => ?_
  -- a list of types is what `reduceTypes` leaves of it
  have hlist : ∀ {types reduced : List Json}, fs.get? "type" = some (.arr types) → reduceTypes rules types = .ok reduced →
      ((∃ types, fs.get? "type" = some (.arr types) ∧ NamesNone types) ↔ reduced = [] ∨ reduced = [.null]) := by
    intro types reduced htype hreduced
    obtain ⟨-, rfl⟩ := reduceTypes_eq_ok_iff.1 hreduced
    rw [← namesNone_iff_reducedTypes, htype]
    simp
  cases settlesTo_of_settleType h with
  | object htype _ =>
    constructor
    · intro h
      simp [IsUntyped] at h
    · rintro ⟨types, htypes, -⟩
      simp [IsUntyped, htypes] at htype
  | untyped htype hnot => simp [hobject] at hnot
  | none htype hreduced => simp [hlist htype hreduced, IsUntyped, Table.get?_erase]
  | one htype hreduced => simp [hlist htype hreduced, IsUntyped]
  | several htype hreduced hlength =>
    rw [hlist htype hreduced]
    constructor
    · intro h
      simp [IsUntyped] at h
    · rintro (rfl | rfl) <;> simp at hlength
  | plain htype hnull harr =>
    constructor
    · intro h
      simp [IsUntyped, htype, hnull] at h
    · rintro ⟨types, htypes, -⟩
      rw [htype] at htypes
      exact absurd (Option.some.inj htypes) (harr types)

/-- **Members in normal form**: there is no `allOf`, and a list of types is reduced. -/
structure IsNormal (rules : TypeRules) (fs : Fields) : Prop where
  allOf : fs.get? "allOf" = none
  types : ∀ types, fs.get? "type" = some (.arr types) → IsReduced rules types

/-- Normal forms are settled, unless the type is missing. -/
lemma IsNormal.settleType_eq (h : IsNormal rules fs) (hlacks : ¬ LacksType fs) : settleType rules fs = .ok fs := by
  have huntyped : IsUntyped fs → settleType rules fs = .ok fs := by
    intro htype
    refine settleType_of_settlesTo (.untyped htype ?_)
    cases hobject : impliesObject fs with
    | false => rfl
    | true => exact absurd ⟨hobject, htype⟩ hlacks
  cases hv : fs.get? "type" with
  | none => exact huntyped (by simp [IsUntyped, hv])
  | some v =>
    cases v with
    | null => exact huntyped (by simp [IsUntyped, hv])
    | arr types =>
      have hreduced := h.types types hv
      have hsettled := settleType_of_settlesTo (.several hv hreduced.reduceTypes_eq hreduced.several)
      rwa [Table.set_of_get?_eq_some hv] at hsettled
    | _ => exact settleType_of_settlesTo (.plain hv (by simp) (by simp))

/-- A type that is missing is named. -/
lemma LacksType.settleType_eq (h : LacksType fs) : settleType rules fs = .ok (fs.set "type" (.str "object")) :=
  settleType_of_settlesTo (.object h.2 h.1)

/-- A normal form with its type named is a normal form, and its type is not missing. -/
lemma IsNormal.set_object (h : IsNormal rules fs) :
    IsNormal rules (fs.set "type" (.str "object")) ∧ ¬ LacksType (fs.set "type" (.str "object")) := by
  refine ⟨⟨?_, by simp⟩, by simp [LacksType, IsUntyped]⟩
  rw [Table.get?_set_of_ne (by decide), h.allOf]

end Settle

/-! ### The result of normalisation -/

section Result

variable {env : Setting} {s : Schema Json} {done own result fs : Fields} {members : List Json} {v : Json}

lemma get?_merge_of_none {a b : Fields} {key : String} (h : b.get? key = none) : (merge a b.entries).get? key = a.get? key := by
  rw [get?_merge_entries, h]

lemma get?_own_allOf (h : own? v = some own) : own.get? "allOf" = none := by
  cases v with
  | bool b => cases b <;> cases h <;> rfl
  | obj fs =>
    cases h
    rw [Table.get?_erase, if_pos rfl]
  | _ => cases h

lemma get?_own_id (h : own? v = some own) (dialect : Dialect) : own.get? dialect.idKeyword = v.get? dialect.idKeyword := by
  cases v with
  | bool b => cases b <;> cases h <;> cases dialect <;> rfl
  | obj fs =>
    cases h
    rw [Table.get?_erase, if_neg (by cases dialect <;> decide)]
    rfl
  | _ => cases h

/-- Members bring no `allOf` with them. -/
lemma Folds.get?_allOf (h : Folds env s done members result) (hdone : done.get? "allOf" = none) :
    result.get? "allOf" = none := by
  induction h with
  | nil => exact hdone
  | cons _ hown _ htype _ ihinner ihrest =>
    apply ihrest
    rw [get?_merge_of_none, hdone]
    rw [Table.get?_erase, get?_settleType htype (by decide), ihinner (get?_own_allOf hown), ite_self]

/-- Members bring no id with them. -/
lemma Folds.get?_id (h : Folds env s done members result) :
    result.get? s.dialect.idKeyword = done.get? s.dialect.idKeyword := by
  induction h with
  | nil => rfl
  | cons _ _ _ _ _ _ ihrest =>
    rw [ihrest, get?_merge_of_none]
    rw [Table.get?_erase, if_pos rfl]

lemma HasForm.isNormal (h : HasForm env s fs) : IsNormal env.rules fs := by
  obtain ⟨own, merged, hown, hfolds, htype⟩ := h
  constructor
  · rw [get?_settleType htype (by decide), hfolds.get?_allOf (get?_own_allOf hown)]
  · exact fun types htypes => (settlesTo_of_settleType htype).isReduced htypes

lemma HasForm.get?_id (h : HasForm env s fs) : fs.get? s.dialect.idKeyword = s.content.get? s.dialect.idKeyword := by
  obtain ⟨own, merged, hown, hfolds, htype⟩ := h
  rw [get?_settleType htype (by cases s.dialect <;> decide), hfolds.get?_id, get?_own_id hown]

end Result

/-- **The result of normalisation is in normal form**, however deep members are nested and whichever dialects they are written in:
it has no `allOf`, a list of types is reduced, and the id is the schema's own. -/
theorem normalize_isNormal (env : Setting) (s : Schema Json) (t : Schema Fields) (notices notices' : List Notice)
    (h : normalize env s notices = .ok t notices') :
    IsNormal env.rules t.content ∧ t.content.get? s.dialect.idKeyword = s.content.get? s.dialect.idKeyword := by
  have hform := (normalize_explained env s notices).good_of_ok h
  exact ⟨hform.isNormal, hform.get?_id⟩

/-- A schema of draft 7 that inherits from one of draft 4, which has an inline member; all of them name types. -/
def acrossDialects : Schema Json :=
  ⟨.draft07, .ofText "/x", .obj [("$id", .str "/x"), ("type", .arr [.str "integer", .str "string"]),
    ("allOf", .arr [.obj [("$ref", .str "/old")], .obj [("$id", .str "/y"), ("type", .arr [.str "null", .str "string"])]])],
    none, [], false⟩

/-- Here the reference of `acrossDialects` is known. -/
def acrossSetting : Setting :=
  ⟨some fun _ => .ok ⟨.draft04, .ofText "/old", .obj [("id", .str "/old"), ("$id", .str "/z"),
    ("properties", .obj [("a", .bool true)]), ("allOf", .arr [.obj [("id", .str "/in"), ("$id", .str "/w"),
      ("type", .arr [.str "number", .str "integer", .str "null"])]])], none, [], false⟩, .mergeNumeric, 1⟩

/-- The normal form of `acrossDialects`. -/
def acrossForm : Schema Fields :=
  acrossDialects.withContent [("$id", .str "/x"), ("type", .arr [.str "string", .str "number", .str "null"]),
    ("id", .str "/old"), ("properties", .obj [("a", .bool true)])]

lemma normalize_acrossDialects : normalize acrossSetting acrossDialects [] = .ok acrossForm [] := by cbv

theorem normalize_isNormal_acrossDialects : normalize acrossSetting acrossDialects [] = .ok acrossForm [] ∧
    IsNormal .mergeNumeric acrossForm.content ∧ acrossForm.content.get? "$id" = some (.str "/x") := by
  obtain ⟨hnormal, hid⟩ := normalize_isNormal acrossSetting acrossDialects acrossForm [] [] normalize_acrossDialects
  exact ⟨normalize_acrossDialects, hnormal, hid⟩

/-! ### Normalising again -/

/-- A schema in normal form, as the schema that it is. -/
def restated (t : Schema Fields) : Schema Json := t.withContent (.obj t.content)

section Again

variable {t : Schema Fields}

lemma normalize_restated (env : Setting) {gs : Fields} (hall : t.content.get? "allOf" = none)
    (htype : settleType env.rules t.content = .ok gs) (told : List Notice) :
    normalize env (restated t) told = .ok (t.withContent gs) told := by
  have hcontent : content env env.depth (restated t) [] (restated t).content = Told.lift (.ok gs) := by
    rw [restated, Schema.withContent, content_of_no_members (by simp [hall]), Table.erase_of_get?_eq_none hall, htype]
  unfold normalize
  rw [hcontent]
  rfl

/-- Normal forms stay as they are, unless the type is missing. -/
lemma normalize_of_typed (env : Setting) (h : IsNormal env.rules t.content) (htyped : ¬ LacksType t.content)
    (told : List Notice) : normalize env (restated t) told = .ok t told :=
  normalize_restated env h.allOf (h.settleType_eq htyped) told

/-- Where the type is missing, it is named. -/
lemma normalize_of_lacksType (env : Setting) (h : IsNormal env.rules t.content) (hlacks : LacksType t.content)
    (told : List Notice) :
    normalize env (restated t) told = .ok (t.withContent (t.content.set "type" (.str "object"))) told :=
  normalize_restated env h.allOf hlacks.settleType_eq told

end Again

/-- **Normalising again.** Take what the members of a schema are merged to. Normalising the result again changes nothing, just as
long as what is merged does not speak of an object with a list of types that names none; and this is the case in which the
result speaks of an object without a type. The result of a second normalisation is the same for good. -/
theorem normalize_again (env : Setting) (s : Schema Json) (t : Schema Fields) (notices notices' : List Notice)
    (h : normalize env s notices = .ok t notices') :
    ∃ own merged, own? s.content = some own ∧ Folds env s own (allOf s.content) merged ∧
      settleType env.rules merged = .ok t.content ∧
      ((∀ told, normalize env (restated t) told = .ok t told) ↔ ¬ LosesType merged) ∧
      (LacksType t.content ↔ LosesType merged) ∧
      ∃ u, (∀ told, normalize env (restated t) told = .ok u told) ∧ ∀ told, normalize env (restated u) told = .ok u told := by
  have hform := (normalize_explained env s notices).good_of_ok h
  have hnormal := hform.isNormal
  obtain ⟨own, merged, hown, hfolds, htype⟩ := hform
  have hlacks := lacksType_iff_losesType htype
  refine ⟨own, merged, hown, hfolds, htype, ?_, hlacks, ?_⟩
  · rw [← hlacks]
    constructor
    · -- a second normalisation would name the type that is missing
      intro hsame hmissing
      have hagain := normalize_of_lacksType env hnormal hmissing []
      rw [hsame []] at hagain
      injection hagain with hagain
      have hnamed : t.content.get? "type" = some (.str "object") := by
        rw [hagain]
        exact Table.get?_set_self _ _ _
      have huntyped := hmissing.2
      simp [IsUntyped, hnamed] at huntyped
    · exact normalize_of_typed env hnormal
  · by_cases hmissing : LacksType t.content
    · obtain ⟨hnormal', htyped⟩ := hnormal.set_object
      exact ⟨_, normalize_of_lacksType env hnormal hmissing,
        normalize_of_typed (t := t.withContent (t.content.set "type" (.str "object"))) env hnormal' htyped⟩
    · exact ⟨t, normalize_of_typed env hnormal hmissing, normalize_of_typed env hnormal hmissing⟩

theorem normalize_again_acrossDialects : normalize acrossSetting acrossDialects [] = .ok acrossForm [] ∧
    acrossForm.content.has "properties" = true ∧ ¬ LacksType acrossForm.content ∧
    ∀ told, normalize acrossSetting (restated acrossForm) told = .ok acrossForm told := by
  have hlacks : ¬ LacksType acrossForm.content := by
    rintro ⟨-, huntyped⟩
    cases huntyped
  obtain ⟨own, merged, -, -, -, hagain, hloses, -⟩ :=
    normalize_again acrossSetting acrossDialects acrossForm [] [] normalize_acrossDialects
  exact ⟨normalize_acrossDialects, rfl, hlacks, hagain.2 (mt hloses.2 hlacks)⟩

/-- A schema with properties and with an empty list of types. -/
def emptyTypes : Schema Json :=
  ⟨.draft07, .ofText "/x", .obj [("type", .arr []), ("properties", .obj [("a", .obj [])])], none, [], false⟩

/-- **A second normalisation that changes something.** The empty list of types goes, the properties stay without a type, and the
second normalisation names the type. -/
theorem normalize_drops_type : ∃ t u, normalize ⟨none, .mergeNumeric, 0⟩ emptyTypes [] = .ok t [] ∧
    normalize ⟨none, .mergeNumeric, 0⟩ (restated t) [] = .ok u [] ∧ t.content = [("properties", .obj [("a", .obj [])])] ∧
    u.content = [("properties", .obj [("a", .obj [])]), ("type", .str "object")] := by
  refine ⟨emptyTypes.withContent [("properties", .obj [("a", .obj [])])],
    emptyTypes.withContent [("properties", .obj [("a", .obj [])]), ("type", .str "object")], ?_, ?_, rfl, rfl⟩
  · cbv
  · cbv

end Normal

end Typings
