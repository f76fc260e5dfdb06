import Typings.Proofs.Node
import Typings.Proofs.Walk

/-!
Documents under other marks. Shifting the marks of a document changes nothing but them: parts, children, references and
what pointers lead to are those of the document, shifted. A shifted document reads as another one does where the current
texts that they look up agree (`read_shift`).
-/

namespace Typings.Node

variable (n : ℕ)

lemma mark_shift (x : Node) : (x.shift n).mark = x.mark + n := by
  cases x <;> rfl

lemma isObject_shift (x : Node) : (x.shift n).isObject = x.isObject := by
  cases x <;> rfl

lemma shiftItems_eq (xs : List Node) : shiftItems n xs = xs.map (shift n) := by
  induction xs with
  | nil => rfl
  | cons x xs ih => rw [shiftItems, ih, List.map_cons]

lemma shiftFields_eq (fs : Table String Node) : shiftFields n fs = fs.map fun e => (e.1, e.2.shift n) := by
  induction fs with
  | nil => rfl
  | cons e fs ih =>
    obtain ⟨k, x⟩ := e
    rw [shiftFields, ih, List.map_cons]

/-! ### Members -/

lemma fields_shift (x : Node) : (x.shift n).fields = x.fields.map fun e => (e.1, e.2.shift n) := by
  cases x with
  | obj m fs => exact shiftFields_eq n fs
  | _ => rfl

lemma get?_fields_shift (x : Node) (key : String) : (x.shift n).fields.get? key = (x.fields.get? key).map (shift n) := by
  rw [fields_shift]
  exact Table.get?_map x.fields (fun _ => shift n) key

lemma values_shift (x : Node) : (x.shift n).fields.values = x.fields.values.map (shift n) := by
  rw [fields_shift, Table.values, Table.values, List.map_map, List.map_map]
  rfl

lemma get?_nil_shift (x : Node) (key : String) : (x.shift n).get? [] key = (x.get? [] key).map (shift n) := by
  cases x with
  | obj m fs =>
    have hfields := get?_fields_shift n (obj m fs) key
    have hcurrent : ∀ m, current [] m key = id := fun m => funext (current_nil m key)
    simp only [shift, fields] at hfields
    simp only [shift, get?, hcurrent, Option.map_id, id_eq, hfields]
  | _ => rfl

lemma reference?_shift (x : Node) : (x.shift n).reference? [] = x.reference? [] := by
  rw [reference?, reference?, get?_nil_shift]
  cases x.get? [] "$ref" with
  | none => rfl
  | some y =>
    rcases y with ⟨m, a⟩ | ⟨m, xs⟩ | ⟨m, fs⟩
    · cases a <;> rfl
    · rfl
    · rfl

lemma pick_shift (p : Discovery.Place) (x : Node) : p.pick (x.shift n) = (p.pick x).map (shift n) := by
  have hsections : (x.shift n).fields.values.flatMap (·.fields.values) =
      (x.fields.values.flatMap (·.fields.values)).map (shift n) := by
    rw [values_shift, List.flatMap_map, List.map_flatMap]
    exact List.flatMap_congr fun y _ => values_shift n y
  cases p with
  | one => rfl
  | sections => exact hsections
  | named => exact values_shift n x
  | many =>
    cases x with
    | arr m xs => exact shiftItems_eq n xs
    | _ => rfl
  | oneOrMany =>
    cases x with
    | arr m xs => exact shiftItems_eq n xs
    | _ => rfl
  | manyOrNamed =>
    cases x with
    | arr m xs => exact shiftItems_eq n xs
    | obj m fs => exact values_shift n (obj m fs)
    | atom m a => rfl

lemma children_shift (dialect : Dialect) (openapi : Option OpenApi) (x : Node) :
    Discovery.children dialect openapi (x.shift n) = (Discovery.children dialect openapi x).map (shift n) := by
  unfold Discovery.children Discovery.childrenAt
  rw [List.map_flatMap]
  refine List.flatMap_congr fun e _ => ?_
  rw [get?_fields_shift]
  cases x.fields.get? e.1 with
  | none => rfl
  | some y => exact pick_shift n e.2 y

/-! ### Parts -/

mutual

theorem inner_shift : ∀ x : Node, (x.shift n).inner = x.inner.map (shift n)
  | atom _ _ => rfl
  | arr _ xs => inner_shiftItems xs
  | obj _ fs => inner_shiftFields fs

theorem inner_shiftItems : ∀ xs : List Node, innerItems (shiftItems n xs) = (innerItems xs).map (shift n)
  | [] => rfl
  | x :: rest => by
    rw [shiftItems, innerItems, innerItems, inner_shift x, inner_shiftItems rest, List.map_append, List.map_cons]

theorem inner_shiftFields : ∀ fs : List (String × Node), innerFields (shiftFields n fs) = (innerFields fs).map (shift n)
  | [] => rfl
  | (_, x) :: rest => by
    rw [shiftFields, innerFields, innerFields, inner_shift x, inner_shiftFields rest, List.map_append, List.map_cons]

end

lemma parts_shift (x : Node) : (x.shift n).parts = x.parts.map (shift n) := by
  rw [parts, parts, inner_shift, List.map_cons]

lemma size_shift (x : Node) : (x.shift n).size = x.size := by
  rw [← length_parts, parts_shift, List.length_map, length_parts]

lemma step_shift (token : String) (x : Node) : step [] token (x.shift n) = (step [] token x).map (shift n) := by
  cases x with
  | atom m a => rfl
  | arr m xs =>
    rw [shift, step, step, shiftItems_eq, List.length_map]
    cases Pointer.place? token xs.length with
    | none => rfl
    | some i =>
      rw [Option.bind_some, Option.bind_some, List.getElem?_map]
      cases xs[i]? <;> rfl
  | obj m fs =>
    have hget := get?_nil_shift n (obj m fs) token
    rw [shift] at hget
    rw [shift, step, step, hget]
    cases (obj m fs).get? [] token <;> rfl

/-- Pointers lead to the same place. -/
theorem follow_shift (tokens : List String) (x : Node) :
    follow [] tokens (x.shift n) = (follow [] tokens x).map (shift n) := by
  induction tokens generalizing x with
  | nil => rfl
  | cons token tokens ih =>
    rw [follow, follow, step_shift]
    cases step [] token x with
    | error e => rfl
    | ok y => exact ih y

/-! ### Values -/

variable {n} {n' : ℕ} {refs refs' : Refs}

/-- A member as it stands is the member as it stands elsewhere, where the current text is the same. -/
lemma current_shift {m : ℕ} (hm : refs.get? (m + n) = refs'.get? (m + n')) {key : String} {x : Node}
    (hx : (x.shift n).read refs = (x.shift n').read refs') :
    (current refs (m + n) key (x.shift n)).read refs = (current refs' (m + n') key (x.shift n')).read refs' := by
  by_cases hkey : key = "$ref"
  · subst hkey
    cases x with
    | atom k a =>
      cases a with
      | str s =>
        simp only [shift, current, read, hm]
      | _ => exact hx
    | _ => exact hx
  · have hcurrent : ∀ (refs : Refs) m (y : Node), current refs m key y = y := by
      intro refs m y
      rw [current]
      exact fun _ _ h => absurd h hkey
    rw [hcurrent, hcurrent, hx]

mutual

/-- **Shifted documents read alike** where the current texts that they look up agree. -/
theorem read_shift : ∀ x : Node, (∀ y ∈ x.parts, refs.get? (y.mark + n) = refs'.get? (y.mark + n')) →
    (x.shift n).read refs = (x.shift n').read refs'
  | atom _ _, _ => rfl
  | arr m xs, h => by
    rw [shift, shift, read, read, read_shiftItems xs fun y hy => h y (parts_of_inner hy)]
  | obj m fs, h => by
    rw [shift, shift, read, read,
      read_shiftFields m fs (h (obj m fs) (mem_parts_self _)) fun y hy => h y (parts_of_inner hy)]

theorem read_shiftItems : ∀ xs : List Node,
    (∀ y ∈ innerItems xs, refs.get? (y.mark + n) = refs'.get? (y.mark + n')) →
    readItems refs (shiftItems n xs) = readItems refs' (shiftItems n' xs)
  | [], _ => rfl
  | x :: rest, h => by
    have hx := read_shift x fun y hy => h y (List.mem_append_left _ hy)
    have hrest := read_shiftItems rest fun y hy => h y (List.mem_append_right _ hy)
    rw [shiftItems, shiftItems, readItems, readItems, hx, hrest]

theorem read_shiftFields (m : ℕ) : ∀ fs : List (String × Node), refs.get? (m + n) = refs'.get? (m + n') →
    (∀ y ∈ innerFields fs, refs.get? (y.mark + n) = refs'.get? (y.mark + n')) →
    readFields refs (m + n) (shiftFields n fs) = readFields refs' (m + n') (shiftFields n' fs)
  | [], _, _ => rfl
  | (key, x) :: rest, hm, h => by
    have hx := read_shift x fun y hy => h y (List.mem_append_left _ hy)
    have hrest := read_shiftFields m rest hm fun y hy => h y (List.mem_append_right _ hy)
    rw [readFields_eq, readFields_eq] at hrest ⊢
    rw [shiftFields, shiftFields, List.map_cons, List.map_cons, current_shift hm hx, hrest]

end

end Typings.Node
