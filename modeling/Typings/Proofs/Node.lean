import Mathlib.Data.List.Nodup
import Mathlib.Data.List.Perm.Basic
import Typings.Discovery
import Typings.Proofs.Table

/-!
Parts of documents: what a part is as a value, which parts are inside it, and where pointers lead. Following a pointer does
not depend on the current texts of references, except for its very last step: the text of a `$ref` itself
(`follow_cases`). The parts of a document that is marked from some number on have consecutive marks (`marks_label`).
-/

namespace Typings

namespace Node

/-! ### Values of parts -/

section Read

variable (refs : Refs)

lemma readItems_eq (xs : List Node) : readItems refs xs = xs.map (·.read refs) := by
  induction xs with
  | nil => rfl
  | cons x xs ih => rw [readItems, ih, List.map_cons]

/-- Members are read as they stand. -/
lemma readFields_eq (m : ℕ) (fields : Table String Node) :
    readFields refs m fields = fields.map fun e => (e.1, (current refs m e.1 e.2).read refs) := by
  induction fields with
  | nil => rfl
  | cons e fields ih =>
    obtain ⟨k, x⟩ := e
    rw [List.map_cons, ← ih]
    by_cases h : k = "$ref"
    · subst h
      rcases x with ⟨n, _ | _ | _ | s | _⟩ | ⟨n, xs⟩ | ⟨n, gs⟩ <;> rfl
    · rw [readFields, current]
      · exact fun _ _ hk => absurd hk h
      · exact fun _ _ hk => absurd hk h

lemma get?_read (node : Node) (key : String) : (node.read refs).get? key = (node.get? refs key).map (·.read refs) := by
  rcases node with ⟨m, a⟩ | ⟨m, xs⟩ | ⟨m, fields⟩
  · cases a <;> rfl
  · rfl
  · rw [read, Json.get?, readFields_eq, Table.get?_map fields fun k x => (current refs m k x).read refs, get?,
      Option.map_map]
    rfl

lemma str?_read (node : Node) : (node.read refs).str? = node.str? := by
  rcases node with ⟨n, _ | _ | _ | s | _⟩ | ⟨n, xs⟩ | ⟨n, fs⟩ <;> rfl

/-- A member as it stands is the member, or a text in its place. -/
lemma current_cases (m : ℕ) (key : String) (node : Node) :
    current refs m key node = node ∨
      ∃ n s, key = "$ref" ∧ node = atom n (.str s) ∧
        current refs m key node = atom n (.str ((refs.get? m).getD s)) := by
  rw [current.eq_def]
  split
  · exact Or.inr ⟨_, _, rfl, rfl, rfl⟩
  · exact Or.inl rfl

lemma current_nil (m : ℕ) (key : String) (node : Node) : current [] m key node = node := by
  rcases current_cases [] m key node with h | ⟨n, s, rfl, rfl, -⟩
  · exact h
  · rfl

end Read

/-! ### Inner parts -/

mutual

/-- All parts inside a part, each before those inside it. -/
def inner : Node → List Node
  | atom _ _ => []
  | arr _ xs => innerItems xs
  | obj _ fs => innerFields fs

/-- The parts of items. -/
def innerItems : List Node → List Node
  | [] => []
  | x :: rest => x :: inner x ++ innerItems rest

/-- The parts of members. -/
def innerFields : List (String × Node) → List Node
  | [] => []
  | (_, x) :: rest => x :: inner x ++ innerFields rest

end

/-- A part and all parts inside it. -/
def parts (node : Node) : List Node := node :: node.inner

lemma innerItems_eq (xs : List Node) : innerItems xs = xs.flatMap parts := by
  induction xs with
  | nil => rfl
  | cons x xs ih => rw [innerItems, ih, List.flatMap_cons, parts]

lemma innerFields_eq (fs : Table String Node) : innerFields fs = fs.values.flatMap parts := by
  induction fs with
  | nil => rfl
  | cons e fs ih =>
    rw [innerFields, ih]
    rfl

lemma mem_parts_self (node : Node) : node ∈ node.parts := List.mem_cons_self

lemma parts_of_inner {node x : Node} (h : x ∈ node.inner) : x ∈ node.parts := List.mem_cons_of_mem _ h

/-- A part of a direct part is an inner part. -/
lemma mem_inner_obj {m : ℕ} {fs : Table String Node} {x y : Node} (hx : x ∈ fs.values) (hy : y ∈ x.parts) :
    y ∈ (obj m fs).inner := by
  rw [inner, innerFields_eq]
  exact List.mem_flatMap.2 ⟨x, hx, hy⟩

lemma mem_inner_arr {m : ℕ} {xs : List Node} {x y : Node} (hx : x ∈ xs) (hy : y ∈ x.parts) : y ∈ (arr m xs).inner := by
  rw [inner, innerItems_eq]
  exact List.mem_flatMap.2 ⟨x, hx, hy⟩

mutual

theorem inner_trans : ∀ (x : Node) {y z : Node}, y ∈ x.inner → z ∈ y.inner → z ∈ x.inner
  | atom _ _, _, _, hy, _ => absurd hy List.not_mem_nil
  | arr _ xs, _, _, hy, hz => innerItems_trans xs hy hz
  | obj _ fs, _, _, hy, hz => innerFields_trans fs hy hz

theorem innerItems_trans : ∀ (xs : List Node) {y z : Node}, y ∈ innerItems xs → z ∈ y.inner → z ∈ innerItems xs
  | [], _, _, hy, _ => absurd hy List.not_mem_nil
  | x :: rest, y, z, hy, hz => by
    rw [innerItems] at hy ⊢
    rcases List.mem_append.1 hy with hy | hy
    · rcases List.mem_cons.1 hy with rfl | hy
      · exact List.mem_append_left _ (List.mem_cons_of_mem _ hz)
      · exact List.mem_append_left _ (List.mem_cons_of_mem _ (inner_trans x hy hz))
    · exact List.mem_append_right _ (innerItems_trans rest hy hz)

theorem innerFields_trans : ∀ (fs : List (String × Node)) {y z : Node}, y ∈ innerFields fs → z ∈ y.inner →
    z ∈ innerFields fs
  | [], _, _, hy, _ => absurd hy List.not_mem_nil
  | (_, x) :: rest, y, z, hy, hz => by
    rw [innerFields] at hy ⊢
    rcases List.mem_append.1 hy with hy | hy
    · rcases List.mem_cons.1 hy with rfl | hy
      · exact List.mem_append_left _ (List.mem_cons_of_mem _ hz)
      · exact List.mem_append_left _ (List.mem_cons_of_mem _ (inner_trans x hy hz))
    · exact List.mem_append_right _ (innerFields_trans rest hy hz)

end

lemma inner_of_parts {x y z : Node} (hy : y ∈ x.parts) (hz : z ∈ y.inner) : z ∈ x.inner := by
  rcases List.mem_cons.1 hy with rfl | hy
  · exact hz
  · exact inner_trans x hy hz

lemma parts_trans {x y z : Node} (hy : y ∈ x.parts) (hz : z ∈ y.parts) : z ∈ x.parts := by
  rcases List.mem_cons.1 hz with rfl | hz
  · exact hy
  · exact parts_of_inner (inner_of_parts hy hz)

lemma parts_of_pick {p : Discovery.Place} {node x : Node} (h : x ∈ p.pick node) : x ∈ node.parts := by
  have hvalues : ∀ {node x : Node}, x ∈ node.fields.values → x ∈ node.inner := by
    intro node x h
    rcases node with ⟨m, a⟩ | ⟨m, xs⟩ | ⟨m, fs⟩
    · exact absurd h List.not_mem_nil
    · exact absurd h List.not_mem_nil
    · exact mem_inner_obj h (mem_parts_self x)
  have hone : ∀ {x : Node}, x ∈ [node] → x ∈ node.parts := by
    intro x h
    exact List.mem_singleton.1 h ▸ mem_parts_self _
  cases p with
  | one => exact hone h
  | many =>
    rcases node with ⟨m, a⟩ | ⟨m, xs⟩ | ⟨m, fs⟩
    · exact absurd h List.not_mem_nil
    · exact parts_of_inner (mem_inner_arr h (mem_parts_self x))
    · exact absurd h List.not_mem_nil
  | oneOrMany =>
    rcases node with ⟨m, a⟩ | ⟨m, xs⟩ | ⟨m, fs⟩
    · exact hone h
    · exact parts_of_inner (mem_inner_arr h (mem_parts_self x))
    · exact hone h
  | named => exact parts_of_inner (hvalues h)
  | manyOrNamed =>
    rcases node with ⟨m, a⟩ | ⟨m, xs⟩ | ⟨m, fs⟩
    · exact absurd h List.not_mem_nil
    · exact parts_of_inner (mem_inner_arr h (mem_parts_self x))
    · exact parts_of_inner (hvalues h)
  | sections =>
    obtain ⟨y, hy, hx⟩ := List.mem_flatMap.1 h
    exact parts_of_inner (inner_trans node (hvalues hy) (hvalues hx))

/-- The children that a walk visits are inner parts. -/
lemma inner_of_children {dialect : Dialect} {openapi : Option OpenApi} {node x : Node}
    (h : x ∈ Discovery.children dialect openapi node) : x ∈ node.inner := by
  obtain ⟨⟨key, p⟩, -, hx⟩ := List.mem_flatMap.1 h
  rcases node with ⟨m, a⟩ | ⟨m, xs⟩ | ⟨m, fs⟩
  · exact absurd hx List.not_mem_nil
  · exact absurd hx List.not_mem_nil
  · simp only [fields] at hx
    split at hx
    · next y hy => exact mem_inner_obj (Table.mem_values_of_get? hy) (parts_of_pick hx)
    · exact absurd hx List.not_mem_nil

mutual

theorem length_inner : ∀ x : Node, x.inner.length + 1 = x.size
  | atom _ _ => rfl
  | arr _ xs => by
    rw [inner, size, length_innerItems xs]
    omega
  | obj _ fs => by
    rw [inner, size, length_innerFields fs]
    omega

theorem length_innerItems : ∀ xs : List Node, (innerItems xs).length = sizeItems xs
  | [] => rfl
  | x :: rest => by
    have := length_inner x
    have := length_innerItems rest
    simp only [innerItems, sizeItems, List.length_append, List.length_cons]
    omega

theorem length_innerFields : ∀ fs : List (String × Node), (innerFields fs).length = sizeFields fs
  | [] => rfl
  | (_, x) :: rest => by
    have := length_inner x
    have := length_innerFields rest
    simp only [innerFields, sizeFields, List.length_append, List.length_cons]
    omega

end

lemma length_parts (x : Node) : x.parts.length = x.size := by
  rw [parts, List.length_cons, length_inner]

/-- Nodes of the same sizes have the same size together, in whatever order. -/
lemma sizeItems_perm {xs ys : List Node} (h : (xs.map size).Perm (ys.map size)) :
    sizeItems xs = sizeItems ys := by
  have hfold : ∀ zs : List Node, sizeItems zs = (zs.map size).foldr Nat.add 0 := by
    intro zs
    induction zs with
    | nil => rfl
    | cons z zs ih => exact congrArg (z.size + ·) ih
  have hcomm : LeftCommutative Nat.add := ⟨Nat.add_left_comm⟩
  rw [hfold, hfold, h.foldr_eq 0]

mutual

/-- Reading keeps the size. -/
theorem size_read (refs : Refs) : ∀ x : Node, (x.read refs).size = x.size
  | atom _ a => by cases a <;> rfl
  | arr _ xs => congrArg (1 + ·) (size_readItems refs xs)
  | obj m fs => congrArg (1 + ·) (size_readFields refs m fs)

theorem size_readItems (refs : Refs) : ∀ xs : List Node, Json.sizeItems (readItems refs xs) = sizeItems xs
  | [] => rfl
  | x :: rest => by simp only [readItems, Json.sizeItems, sizeItems, size_read refs x, size_readItems refs rest]

theorem size_readFields (refs : Refs) (m : ℕ) : ∀ fs : List (String × Node),
    Json.sizeFields (readFields refs m fs) = sizeFields fs
  | [] => rfl
  | (k, x) :: rest => by
    have hx : ((current refs m k x).read refs).size = x.size := by
      rcases current_cases refs m k x with h | ⟨n, s, -, rfl, h⟩
      · rw [h, size_read refs x]
      · rw [h]
        rfl
    have hrest := size_readFields refs m rest
    rw [readFields_eq] at hrest ⊢
    simp only [List.map_cons, Json.sizeFields, sizeFields, hx, hrest]

end

/-! ### Pointers -/

lemma follow_append (refs : Refs) (ts us : List String) (node : Node) :
    follow refs (ts ++ us) node = (follow refs ts node).bind (follow refs us) := by
  induction ts generalizing node with
  | nil => rfl
  | cons t ts ih =>
    rw [List.cons_append, follow, follow]
    cases step refs t node with
    | error e => rfl
    | ok x => exact ih x

lemma step_read (refs : Refs) (token : String) (node : Node) :
    Pointer.step token (node.read refs) = (step refs token node).map (·.read refs) := by
  rcases node with ⟨m, a⟩ | ⟨m, xs⟩ | ⟨m, fs⟩
  · cases a <;> rfl
  · rw [read, Pointer.step, step, readItems_eq, List.length_map]
    cases Pointer.place? token xs.length with
    | none => rfl
    | some i =>
      rw [Option.bind_some, Option.bind_some, List.getElem?_map]
      cases xs[i]? <;> rfl
  · have hget := get?_read refs (obj m fs) token
    rw [read, Json.get?] at hget
    rw [read, Pointer.step, step, hget]
    cases (obj m fs).get? refs token <;> rfl

/-- Pointers lead to the same places in parts and in their values. -/
theorem follow_read (refs : Refs) (tokens : List String) (node : Node) :
    Pointer.follow tokens (node.read refs) = (follow refs tokens node).map (·.read refs) := by
  induction tokens generalizing node with
  | nil => rfl
  | cons t tokens ih =>
    rw [Pointer.follow, follow, step_read]
    cases step refs t node with
    | error e => rfl
    | ok x => exact ih x

lemma step_cases (token : String) (node : Node) :
    (∀ refs, step refs token node = step [] token node) ∨
      ∃ m fs n s, token = "$ref" ∧ node = obj m fs ∧ Table.get? fs "$ref" = some (atom n (.str s)) ∧
        ∀ refs, step refs token node = .ok (atom n (.str ((refs.get? m).getD s))) := by
  rcases node with ⟨m, a⟩ | ⟨m, xs⟩ | ⟨m, fs⟩
  · exact Or.inl fun _ => rfl
  · exact Or.inl fun _ => rfl
  · cases hv : Table.get? fs token with
    | none =>
      left
      intro refs
      simp only [step, get?, hv, Option.map_none]
    | some v =>
      by_cases h : token = "$ref" ∧ ∃ n s, v = atom n (.str s)
      · obtain ⟨rfl, n, s, rfl⟩ := h
        refine Or.inr ⟨m, fs, n, s, rfl, rfl, hv, fun refs => ?_⟩
        simp only [step, get?, hv, Option.map_some, current]
      · have hc : ∀ refs, current refs m token v = v := by
          intro refs
          rcases current_cases refs m token v with hc | ⟨n, s, ht, hv', -⟩
          · exact hc
          · exact absurd ⟨ht, n, s, hv'⟩ h
        left
        intro refs
        simp only [step, get?, hv, Option.map_some, hc]

/-- **Where a pointer leads** does not depend on the texts of references, unless it leads to such a text. -/
theorem follow_cases (tokens : List String) (node : Node) :
    (∀ refs, follow refs tokens node = follow [] tokens node) ∨
      ∃ front m fs n s, tokens = front ++ ["$ref"] ∧ follow [] front node = .ok (obj m fs) ∧
        Table.get? fs "$ref" = some (atom n (.str s)) ∧
        ∀ refs, follow refs tokens node = .ok (atom n (.str ((refs.get? m).getD s))) := by
  induction tokens generalizing node with
  | nil => exact Or.inl fun _ => rfl
  | cons t tokens ih =>
    rcases step_cases t node with hstep | ⟨m, fs, n, s, rfl, rfl, hv, hstep⟩
    · cases hx : step [] t node with
      | error e =>
        left
        intro refs
        rw [follow, follow, hstep, hx]
        rfl
      | ok x =>
        have hcons : ∀ refs, follow refs (t :: tokens) node = follow refs tokens x := by
          intro refs
          rw [follow, hstep, hx]
          rfl
        rcases ih x with h | ⟨front, m, fs, n, s, rfl, hfront, hv, h⟩
        · exact Or.inl fun refs => by rw [hcons, hcons, h]
        · refine Or.inr ⟨t :: front, m, fs, n, s, rfl, ?_, hv, fun refs => (hcons refs).trans (h refs)⟩
          rw [follow, hx]
          exact hfront
    · -- a text has no parts, so the pointer ends here or fails
      cases tokens with
      | nil =>
        refine Or.inr ⟨[], m, fs, n, s, rfl, rfl, hv, fun refs => ?_⟩
        rw [follow, hstep]
        rfl
      | cons u tokens =>
        left
        intro refs
        rw [follow, follow, hstep, hstep]
        rfl

lemma inner_of_step {token : String} {node x : Node} (h : step [] token node = .ok x) : x ∈ node.inner := by
  rcases node with ⟨m, a⟩ | ⟨m, xs⟩ | ⟨m, fs⟩
  · cases h
  · rw [step] at h
    split at h
    · next y hy =>
      cases h
      obtain ⟨i, -, hi⟩ := Option.bind_eq_some_iff.1 hy
      exact mem_inner_arr (List.mem_of_getElem? hi) (mem_parts_self _)
    · cases h
  · rw [step] at h
    split at h
    · next y hy =>
      cases h
      obtain ⟨z, hz, hzy⟩ := Option.map_eq_some_iff.1 hy
      rw [current_nil] at hzy
      exact mem_inner_obj (hzy ▸ Table.mem_values_of_get? hz) (mem_parts_self _)
    · cases h

lemma parts_of_follow {tokens : List String} {node x : Node} (h : follow [] tokens node = .ok x) : x ∈ node.parts := by
  induction tokens generalizing node with
  | nil =>
    cases h
    exact mem_parts_self _
  | cons t tokens ih =>
    rw [follow] at h
    cases hy : step [] t node with
    | error e =>
      rw [hy] at h
      cases h
    | ok y =>
      rw [hy] at h
      exact parts_trans (parts_of_inner (inner_of_step hy)) (ih h)

/-! ### Marks -/

mutual

theorem label_next (n : ℕ) : ∀ v : Json, (label n v).2 = n + v.size
  | .null | .bool _ | .num _ | .str _ | .extra _ => rfl
  | .arr xs => by
    have := labelItems_next (n + 1) xs
    simp only [label, Json.size]
    omega
  | .obj fs => by
    have := labelFields_next (n + 1) fs
    simp only [label, Json.size]
    omega

theorem labelItems_next (n : ℕ) : ∀ xs : List Json, (labelItems n xs).2 = n + Json.sizeItems xs
  | [] => rfl
  | x :: rest => by
    simp only [labelItems, Json.sizeItems, labelItems_next _ rest, label_next n x]
    omega

theorem labelFields_next (n : ℕ) : ∀ fs : List (String × Json), (labelFields n fs).2 = n + Json.sizeFields fs
  | [] => rfl
  | (_, x) :: rest => by
    simp only [labelFields, Json.sizeFields, labelFields_next _ rest, label_next n x]
    omega

end

mutual

/-- **The parts of a marked document have consecutive marks**, in order. -/
theorem marks_label (n : ℕ) : ∀ v : Json, (label n v).1.parts.map mark = List.range' n v.size
  | .null | .bool _ | .num _ | .str _ | .extra _ => rfl
  | .arr xs => by
    simp only [label, parts, inner, List.map_cons, mark, marks_labelItems (n + 1) xs, Json.size]
    rw [Nat.add_comm 1, List.range'_succ]
  | .obj fs => by
    simp only [label, parts, inner, List.map_cons, mark, marks_labelFields (n + 1) fs, Json.size]
    rw [Nat.add_comm 1, List.range'_succ]

theorem marks_labelItems (n : ℕ) : ∀ xs : List Json,
    (innerItems (labelItems n xs).1).map mark = List.range' n (Json.sizeItems xs)
  | [] => rfl
  | x :: rest => by
    have hx := marks_label n x
    have hrest := marks_labelItems (n + x.size) rest
    simp only [parts] at hx
    simp only [labelItems, innerItems, label_next, List.map_append, hx, hrest, Json.sizeItems, List.range'_append_1]

theorem marks_labelFields (n : ℕ) : ∀ fs : List (String × Json),
    (innerFields (labelFields n fs).1).map mark = List.range' n (Json.sizeFields fs)
  | [] => rfl
  | (_, x) :: rest => by
    have hx := marks_label n x
    have hrest := marks_labelFields (n + x.size) rest
    simp only [parts] at hx
    simp only [labelFields, innerFields, label_next, List.map_append, hx, hrest, Json.sizeFields,
      List.range'_append_1]

end

mutual

theorem shift_label (m n : ℕ) : ∀ v : Json, shift m (label n v).1 = (label (n + m) v).1
  | .null | .bool _ | .num _ | .str _ | .extra _ => rfl
  | .arr xs => by
    simp only [label, shift, shift_labelItems m (n + 1) xs, Nat.add_right_comm n m 1]
  | .obj fs => by
    simp only [label, shift, shift_labelFields m (n + 1) fs, Nat.add_right_comm n m 1]

theorem shift_labelItems (m n : ℕ) : ∀ xs : List Json, shiftItems m (labelItems n xs).1 = (labelItems (n + m) xs).1
  | [] => rfl
  | x :: rest => by
    simp only [labelItems, shiftItems, label_next, shift_label m n x, shift_labelItems m _ rest,
      Nat.add_right_comm n m x.size]

theorem shift_labelFields (m n : ℕ) : ∀ fs : List (String × Json),
    shiftFields m (labelFields n fs).1 = (labelFields (n + m) fs).1
  | [] => rfl
  | (_, x) :: rest => by
    simp only [labelFields, shiftFields, label_next, shift_label m n x, shift_labelFields m _ rest,
      Nat.add_right_comm n m x.size]

end

mutual

theorem bound_label (n : ℕ) : ∀ v : Json, bound (label n v).1 = n + v.size
  | .null | .bool _ | .num _ | .str _ | .extra _ => rfl
  | .arr xs => by
    have := bound_labelItems (n + 1) xs
    simp only [label, bound, Json.size]
    omega
  | .obj fs => by
    have := bound_labelFields (n + 1) fs
    simp only [label, bound, Json.size]
    omega

theorem bound_labelItems (n : ℕ) : ∀ xs : List Json, max n (boundItems (labelItems n xs).1) = n + Json.sizeItems xs
  | [] => Nat.max_zero n
  | x :: rest => by
    have := bound_label n x
    have := bound_labelItems (n + x.size) rest
    simp only [labelItems, label_next, boundItems, Json.sizeItems]
    omega

theorem bound_labelFields (n : ℕ) : ∀ fs : List (String × Json),
    max n (boundFields (labelFields n fs).1) = n + Json.sizeFields fs
  | [] => Nat.max_zero n
  | (_, x) :: rest => by
    have := bound_label n x
    have := bound_labelFields (n + x.size) rest
    simp only [labelFields, label_next, boundFields, Json.sizeFields]
    omega

end

mutual

/-- A marked document is the value that was marked. -/
theorem read_label (n : ℕ) : ∀ v : Json, (label n v).1.read [] = v
  | .null | .bool _ | .num _ | .str _ | .extra _ => rfl
  | .arr xs => by simp only [label, read, read_labelItems (n + 1) xs]
  | .obj fs => by simp only [label, read, read_labelFields (n + 1) n fs]

theorem read_labelItems (n : ℕ) : ∀ xs : List Json, readItems [] (labelItems n xs).1 = xs
  | [] => rfl
  | x :: rest => by simp only [labelItems, readItems, read_label n x, read_labelItems _ rest]

theorem read_labelFields (n m : ℕ) : ∀ fs : List (String × Json), readFields [] m (labelFields n fs).1 = fs
  | [] => rfl
  | (k, x) :: rest => by
    have hrest := read_labelFields (n + x.size) m rest
    rw [readFields_eq] at hrest ⊢
    simp only [labelFields, List.map_cons, current_nil, read_label n x, label_next]
    simp only [current_nil] at hrest
    rw [hrest]

end

end Node

/-- The marks of a document tell its parts apart. -/
lemma eq_of_mark {v : Json} {x y : Node} (hx : x ∈ (Node.ofJson v).parts) (hy : y ∈ (Node.ofJson v).parts)
    (h : x.mark = y.mark) : x = y := by
  have hnodup : ((Node.ofJson v).parts.map Node.mark).Nodup := by
    rw [Node.ofJson, Node.marks_label]
    exact List.nodup_range'
  exact List.inj_on_of_nodup_map hnodup hx hy h

/-! ### Parts of values -/

namespace Json

mutual

/-- All values inside a value, each before those inside it. -/
def inner : Json → List Json
  | null | bool _ | num _ | str _ | extra _ => []
  | arr xs => innerItems xs
  | obj fs => innerFields fs

/-- The values in items. -/
def innerItems : List Json → List Json
  | [] => []
  | x :: rest => x :: inner x ++ innerItems rest

/-- The values in members. -/
def innerFields : List (String × Json) → List Json
  | [] => []
  | (_, x) :: rest => x :: inner x ++ innerFields rest

end

/-- A value and all values inside it. -/
def parts (v : Json) : List Json := v :: v.inner

lemma innerItems_eq (xs : List Json) : innerItems xs = xs.flatMap parts := by
  induction xs with
  | nil => rfl
  | cons x xs ih => rw [innerItems, ih, List.flatMap_cons, parts]

lemma innerFields_eq (fs : Fields) : innerFields fs = fs.values.flatMap parts := by
  induction fs with
  | nil => rfl
  | cons e fs ih => exact congrArg (parts e.2 ++ ·) ih

lemma size_le_of_mem {xs : List Json} {x : Json} (h : x ∈ xs) : x.size ≤ sizeItems xs := by
  induction xs with
  | nil => cases h
  | cons y xs ih =>
    rw [sizeItems]
    rcases List.mem_cons.1 h with rfl | h
    · omega
    · have := ih h
      omega

lemma sizeFields_eq (fs : Fields) : sizeFields fs = sizeItems fs.values := by
  induction fs with
  | nil => rfl
  | cons e fs ih => exact congrArg (size e.2 + ·) ih

/-- One value stands directly in another. -/
def Holds (v w : Json) : Prop := w ∈ v.items ∨ w ∈ v.fields.values

lemma Holds.parts_subset {v w : Json} (h : v.Holds w) : w.parts ⊆ v.parts := by
  intro u hu
  refine List.mem_cons_of_mem _ ?_
  rcases h with h | h
  · cases v with
    | arr xs =>
      rw [inner, innerItems_eq]
      exact List.mem_flatMap.2 ⟨w, h, hu⟩
    | _ => exact absurd h List.not_mem_nil
  · cases v with
    | obj fs =>
      rw [inner, innerFields_eq]
      exact List.mem_flatMap.2 ⟨w, h, hu⟩
    | _ => exact absurd h List.not_mem_nil

lemma Holds.size_lt {v w : Json} (h : v.Holds w) : w.size < v.size := by
  rcases h with h | h
  · cases v with
    | arr xs =>
      have : w.size ≤ sizeItems xs := size_le_of_mem h
      rw [size]
      omega
    | _ => exact absurd h List.not_mem_nil
  · cases v with
    | obj fs =>
      have : w.size ≤ sizeItems (Table.values fs) := size_le_of_mem h
      rw [size, sizeFields_eq]
      omega
    | _ => exact absurd h List.not_mem_nil

end Json

namespace Node

mutual

theorem inner_read : ∀ x : Node, (x.read []).inner = x.inner.map (·.read [])
  | atom _ a => by cases a <;> rfl
  | arr _ xs => inner_readItems xs
  | obj m fs => inner_readFields m fs

theorem inner_readItems : ∀ xs : List Node, Json.innerItems (readItems [] xs) = (innerItems xs).map (·.read [])
  | [] => rfl
  | x :: rest => by
    simp only [readItems, Json.innerItems, innerItems, List.map_append, List.map_cons, inner_read x,
      inner_readItems rest]

theorem inner_readFields (m : ℕ) : ∀ fs : List (String × Node),
    Json.innerFields (readFields [] m fs) = (innerFields fs).map (·.read [])
  | [] => rfl
  | (k, x) :: rest => by
    have hrest := inner_readFields m rest
    rw [readFields_eq] at hrest ⊢
    simp only [List.map_cons, current_nil, Json.innerFields, innerFields, List.map_append, inner_read x]
    simp only [current_nil] at hrest
    rw [hrest]

end

lemma parts_read (x : Node) : (x.read []).parts = x.parts.map (·.read []) := by
  rw [Json.parts, parts, List.map_cons, inner_read]

end Node

end Typings
