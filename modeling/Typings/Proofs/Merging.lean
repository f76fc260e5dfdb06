import Mathlib.Data.List.Basic
import Mathlib.Tactic.Common
import Typings.Normal.Merge
import Typings.Proofs.Equality

/-!
Laws of merging. Merging a schema again changes nothing, and three schemas may be merged from the left or from the right if
what they have under each key is of one sort. Both come down to the values under a key: objects are written one over the
other, and of arrays the later one adds what is new. What is new is asked of equality by meaning, so it matters that this is
transitive: an item that counts as there already because of another item counts so after that one has been left out.
-/

namespace Typings

namespace Normal

/-! ### Arrays -/

section Arrays

variable {x y : Json} {xs ys zs : List Json}

lemma isIn_iff : y.isIn xs = true ↔ ∃ x ∈ xs, x.same y = true := List.any_eq_true

lemma isIn_append_left (h : y.isIn xs = true) (ys : List Json) : y.isIn (xs ++ ys) = true := by
  obtain ⟨x, hx, hxy⟩ := isIn_iff.1 h
  exact isIn_iff.2 ⟨x, List.mem_append_left _ hx, hxy⟩

/-- What counts as there stays there. -/
lemma isIn_appendNew (h : y.isIn xs = true) (ys : List Json) : y.isIn (appendNew xs ys) = true := by
  induction ys generalizing xs with
  | nil => exact h
  | cons z ys ih =>
    rw [appendNew]
    split_ifs
    · exact ih h
    · exact ih (isIn_append_left h [z])

/-- An item that counts as there because of another counts so wherever that one does. -/
lemma isIn_trans (hx : x.isIn xs = true) (hxy : x.same y = true) : y.isIn xs = true := by
  obtain ⟨z, hz, hzx⟩ := isIn_iff.1 hx
  exact isIn_iff.2 ⟨z, hz, Json.same_trans z x y hzx hxy⟩

lemma appendNew_eq_self (h : ∀ y ∈ ys, y.isIn xs = true) : appendNew xs ys = xs := by
  induction ys with
  | nil => rfl
  | cons y ys ih =>
    obtain ⟨hy, hys⟩ := List.forall_mem_cons.1 h
    rw [appendNew, if_pos hy, ih hys]

lemma appendNew_append (xs ys zs : List Json) : appendNew xs (ys ++ zs) = appendNew (appendNew xs ys) zs := by
  induction ys generalizing xs with
  | nil => rfl
  | cons y ys ih => rw [List.cons_append, appendNew, ih, appendNew]

/-- What counts as there in an array that is added counts so afterwards. -/
lemma isIn_appendNew_of_isIn (h : y.isIn ys = true) (xs : List Json) : y.isIn (appendNew xs ys) = true := by
  obtain ⟨x, hx, hxy⟩ := isIn_iff.1 h
  induction ys generalizing xs with
  | nil => cases hx
  | cons z ys ih =>
    rw [appendNew]
    rcases List.mem_cons.1 hx with rfl | hx
    · refine isIn_appendNew ?_ ys
      split_ifs with hin
      · exact isIn_trans hin hxy
      · exact isIn_iff.2 ⟨x, List.mem_append_right _ (List.mem_singleton_self x), hxy⟩
    · exact ih (isIn_iff.2 ⟨x, hx, hxy⟩) _ hx

lemma isIn_self (hys : ∀ y ∈ ys, Json.IsRegular y) (hy : y ∈ ys) : y.isIn ys = true :=
  isIn_iff.2 ⟨y, hy, Json.same_refl y (hys y hy)⟩

/-- **Three arrays may be put together from either end.** -/
theorem appendNew_assoc (xs ys zs : List Json) : appendNew (appendNew xs ys) zs = appendNew xs (appendNew ys zs) := by
  -- on the last array: each of its items is new behind the first two, or it counts as there in one of them
  induction zs generalizing ys with
  | nil => rfl
  | cons z zs ih =>
    rw [appendNew, appendNew, ← ih]
    congr 1
    by_cases hz : z.isIn ys = true
    · rw [if_pos hz, if_pos (isIn_appendNew_of_isIn hz xs)]
    · rw [if_neg hz, appendNew_append]
      rfl

end Arrays

/-! ### Values -/

/-- What merging tells apart. -/
inductive Shape where
  /-- An object. -/
  | object
  /-- An array. -/
  | array
  /-- Anything else. -/
  | other
  deriving DecidableEq

/-- The shape of a value. -/
def shape : Json → Shape
  | .obj _ => .object
  | .arr _ => .array
  | _ => .other

lemma combine_other {v : Json} (h : shape v = .other) (current : Option Json) : combine current v = v := by
  cases v with
  | obj fs => cases h
  | arr xs => cases h
  | _ => unfold combine; split <;> simp_all

lemma combine_obj {as bs : Fields} (h : bs.keys.Nodup) : combine (some (.obj as)) (.obj bs) = .obj (Table.overlay as bs) := by
  rw [combine, Table.entries_of_nodup h]

/-- An object has all members of the object that came last. -/
lemma exists_combine_obj {bs : Fields} (h : bs.keys.Nodup) (current : Option Json) :
    ∃ fs : Fields, combine current (.obj bs) = .obj fs ∧ ∀ e ∈ bs, fs.get? e.1 = some e.2 := by
  have hget : ∀ e ∈ bs, bs.get? e.1 = some e.2 := fun e he => Table.get?_of_mem h he
  cases current with
  | none => exact ⟨bs, rfl, hget⟩
  | some u =>
    cases u with
    | obj as =>
      refine ⟨Table.overlay as bs, combine_obj h, fun e he => ?_⟩
      rw [Table.get?_overlay_of_nodup h, hget e he, Option.some_or]
    | _ => exact ⟨bs, rfl, hget⟩

/-- An array has all items of the array that came last. -/
lemma exists_combine_arr {ys : List Json} (h : ∀ y ∈ ys, Json.IsRegular y) (current : Option Json) :
    ∃ xs, combine current (.arr ys) = .arr xs ∧ ∀ y ∈ ys, y.isIn xs = true := by
  have hin : ∀ y ∈ ys, y.isIn ys = true := fun y hy => isIn_self h hy
  cases current with
  | none => exact ⟨ys, rfl, hin⟩
  | some u =>
    cases u with
    | arr as => exact ⟨appendNew as ys, rfl, fun y hy => isIn_appendNew_of_isIn (hin y hy) as⟩
    | _ => exact ⟨ys, rfl, hin⟩

/-- **A value that is merged again changes nothing.** -/
theorem combine_again {v : Json} (hv : Json.IsRegular v) (current : Option Json) :
    combine (some (combine current v)) v = combine current v := by
  cases v with
  | obj bs =>
    have hbs := (Json.isRegular_obj.1 hv).1
    obtain ⟨fs, hfs, hget⟩ := exists_combine_obj hbs current
    rw [hfs, combine_obj hbs, Table.overlay_eq_self hget]
  | arr ys =>
    obtain ⟨xs, hxs, hin⟩ := exists_combine_arr (Json.isRegular_arr.1 hv) current
    rw [hxs, combine, appendNew_eq_self hin]
  | _ => rw [combine_other rfl, combine_other rfl]

/-- **Three values of one shape may be merged from either end.** -/
theorem combine_assoc {u v w : Json} (hu : Json.IsRegular u) (hv : Json.IsRegular v) (hw : Json.IsRegular w)
    (huv : shape u = shape v) (hvw : shape v = shape w) :
    combine (some (combine (some u) v)) w = combine (some u) (combine (some v) w) := by
  cases w with
  | obj fs =>
    cases v <;> simp only [shape, reduceCtorEq] at hvw
    cases u <;> simp only [shape, reduceCtorEq] at huv
    have hfs := (Json.isRegular_obj.1 hw).1
    have hgs := (Json.isRegular_obj.1 hv).1
    rw [combine_obj hgs, combine_obj hfs, combine_obj hfs, combine_obj (Table.nodup_keys_overlay hgs fs),
      Table.overlay_assoc (Json.isRegular_obj.1 hu).1 hgs hfs]
  | arr zs =>
    cases v <;> simp only [shape, reduceCtorEq] at hvw
    cases u <;> simp only [shape, reduceCtorEq] at huv
    exact congrArg Json.arr (appendNew_assoc _ _ _)
  | _ => rw [combine_other rfl (some v), combine_other rfl, combine_other rfl]

/-! ### Schemas -/

lemma get?_merge (target : Fields) {later : List (String × Json)} (h : (Table.keys later).Nodup) (key : String) :
    (merge target later).get? key = match Table.get? later key with
      | none => target.get? key
      | some v => some (combine (target.get? key) v) := by
  induction later generalizing target with
  | nil => rfl
  | cons e later ih =>
    obtain ⟨k, w⟩ := e
    obtain ⟨hk, hlater⟩ := List.nodup_cons.1 h
    rw [merge, ih _ hlater, Table.get?_set, Table.get?_cons]
    by_cases hkey : k = key
    · subst hkey
      rw [Table.get?_eq_none hk, if_pos rfl, if_pos rfl]
    · rw [if_neg hkey, if_neg hkey]

lemma keys_merge_eq {target target' : Fields} (h : target.keys = target'.keys) (later : List (String × Json)) :
    (merge target later).keys = (Table.overlay target' later).keys := by
  induction later generalizing target target' with
  | nil => exact h
  | cons e later ih =>
    obtain ⟨k, v⟩ := e
    refine ih ?_
    rw [Table.keys_set, Table.keys_set, h]

/-- The keys of a later schema come behind those that are there. -/
lemma keys_merge (target : Fields) {later : List (String × Json)} (h : (Table.keys later).Nodup) :
    (merge target later).keys = target.keys ++ (Table.keys later).filter (· ∉ target.keys) := by
  rw [keys_merge_eq rfl, Table.keys_overlay h]

lemma nodup_keys_merge {target : Fields} (h : target.keys.Nodup) (later : List (String × Json)) :
    (merge target later).keys.Nodup := by
  rw [keys_merge_eq rfl]
  exact Table.nodup_keys_overlay h later

section Laws

variable {a b c : Fields}

lemma merge_again (ha : Json.IsRegular (.obj a)) (hb : Json.IsRegular (.obj b)) : merge (merge a b) b = merge a b := by
  have hakeys := (Json.isRegular_obj.1 ha).1
  have hbkeys := (Json.isRegular_obj.1 hb).1
  refine Table.ext_get? (nodup_keys_merge (nodup_keys_merge hakeys b) b) ?_ fun key => ?_
  · have hnone : b.keys.filter (· ∉ (merge a b).keys) = [] := by
      rw [List.filter_eq_nil_iff, keys_merge _ hbkeys]
      intro key hkey
      by_cases hmem : key ∈ a.keys <;> simp [hmem, hkey]
    rw [keys_merge _ hbkeys, hnone, List.append_nil]
  · rw [get?_merge _ hbkeys, get?_merge _ hbkeys]
    cases hv : b.get? key with
    | none => rfl
    | some v => exact congrArg some (combine_again (hb.of_get? hv) _)

/-- What schemas have under one key is of one shape. -/
def IsUniform (schemas : List Fields) : Prop :=
  ∀ s ∈ schemas, ∀ t ∈ schemas, ∀ e ∈ s, ∀ f ∈ t, e.1 = f.1 → shape e.2 = shape f.2

lemma merge_assoc (ha : Json.IsRegular (.obj a)) (hb : Json.IsRegular (.obj b)) (hc : Json.IsRegular (.obj c))
    (h : IsUniform [a, b, c]) : merge (merge a b) c = merge a (merge b c) := by
  have hakeys := (Json.isRegular_obj.1 ha).1
  have hbkeys := (Json.isRegular_obj.1 hb).1
  have hckeys := (Json.isRegular_obj.1 hc).1
  have hbckeys := nodup_keys_merge hbkeys c
  refine Table.ext_get? (nodup_keys_merge (nodup_keys_merge hakeys b) c) ?_ fun key => ?_
  · -- keys do not depend on values, so they are those of tables that are written over each other
    calc (merge (merge a b) c).keys
      _ = (Table.overlay (Table.overlay a b) c).keys := keys_merge_eq (keys_merge_eq rfl b) c
      _ = (Table.overlay a (Table.overlay b c)).keys := by rw [Table.overlay_assoc hakeys hbkeys hckeys]
      _ = a.keys ++ (merge b c).keys.filter (· ∉ a.keys) := by
        rw [Table.keys_overlay (Table.nodup_keys_overlay hbkeys c), keys_merge_eq rfl]
      _ = (merge a (merge b c)).keys := (keys_merge a hbckeys).symm
  · rw [get?_merge _ hckeys, get?_merge _ hbkeys, get?_merge _ hbckeys, get?_merge _ hckeys]
    cases hw : c.get? key with
    | none => rfl
    | some w =>
      cases hv : b.get? key with
      | none => rfl
      | some v =>
        cases hu : a.get? key with
        | none => rfl
        | some u =>
          have huv : shape u = shape v := h a (by simp) b (by simp) _ (Table.mem_of_get? hu) _ (Table.mem_of_get? hv) rfl
          have hvw : shape v = shape w := h b (by simp) c (by simp) _ (Table.mem_of_get? hv) _ (Table.mem_of_get? hw) rfl
          exact congrArg some (combine_assoc (ha.of_get? hu) (hb.of_get? hv) (hc.of_get? hw) huv hvw)

end Laws

/-- **The laws of merging.** For schemas in which no object has a key twice: merging a schema again changes nothing, and three
schemas that have values of one shape under each key may be merged from either end. Members and items stand in the same
order on both sides. -/
theorem merge_regroup (a b c : Fields) (ha : Json.IsRegular (.obj a)) (hb : Json.IsRegular (.obj b))
    (hc : Json.IsRegular (.obj c)) :
    merge (merge a b) b = merge a b ∧ (IsUniform [a, b, c] → merge (merge a b) c = merge a (merge b c)) :=
  ⟨merge_again ha hb, merge_assoc ha hb hc⟩

/-- Three schemas with overlapping keys, and with items that are equal without being written alike: `1`, `1.0` and `true`, and
two objects with their members in different order. -/
def overlapping : Fields × Fields × Fields :=
  ([("enum", .arr [.int 1, .obj [("p", .null), ("q", .int 0)], .int 1]), ("title", .str "a")],
    [("properties", .obj [("x", .str "b"), ("y", .str "b")]), ("enum", .arr [.bool true, .str "b"])],
    [("enum", .arr [.obj [("q", .bool false), ("p", .null)], .num (.double (.ofInt 1)), .str "c", .str "c"]),
      ("properties", .obj [("z", .str "c"), ("x", .str "c")]), ("title", .str "c")])

theorem merge_regroup_overlapping :
    let a := overlapping.1
    let b := overlapping.2.1
    let c := overlapping.2.2
    Json.IsRegular (.obj a) ∧ Json.IsRegular (.obj b) ∧ Json.IsRegular (.obj c) ∧ IsUniform [a, b, c] ∧
      merge (merge a b) b = merge a b ∧ merge (merge a b) c = merge a (merge b c) ∧
      merge (merge a b) c =
        [("enum", .arr [.int 1, .obj [("p", .null), ("q", .int 0)], .int 1, .str "b", .str "c"]), ("title", .str "c"),
          ("properties", .obj [("x", .str "c"), ("y", .str "b"), ("z", .str "c")])] := by
  intro a b c
  have hregular : Json.IsRegular (.obj a) ∧ Json.IsRegular (.obj b) ∧ Json.IsRegular (.obj c) := by
    simp [a, b, c, overlapping, Json.IsRegular, Json.AreRegular, Json.AreRegularFields, Table.keys]
  obtain ⟨ha, hb, hc⟩ := hregular
  have hu : IsUniform [a, b, c] := by
    unfold IsUniform
    decide
  obtain ⟨hagain, hassoc⟩ := merge_regroup a b c ha hb hc
  exact ⟨ha, hb, hc, hu, hagain, hassoc hu, by decide +kernel⟩

end Normal

end Typings
