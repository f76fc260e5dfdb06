import Typings.Proofs.Parameters
import Typings.Proofs.Synthesis

/-!
Marks that are in use. A registry hands out marks in ascending order, and everything that it stores has marks below the next
one (`Registry.IsFresh`). So whatever is taken in or copied has marks that nothing else has, and what a registration writes is
known from the marks of its schema: a walk changes no text between the marks of its schema and the marks that it takes for
copies (`Discovery.walk_kept`). Main statement: `Call.isFresh_leftAll`, registries are fresh after any calls that are given
schemas of the registry.
-/

namespace Typings

open Discovery (Found Trail Visit walk)

/-! ### Bounds of parts -/

namespace Node

lemma boundItems_le {xs : List Node} {n : ℕ} : boundItems xs ≤ n ↔ ∀ x ∈ xs, x.bound ≤ n := by
  induction xs with
  | nil => simp [boundItems]
  | cons x xs ih => rw [boundItems, Nat.max_le, ih, List.forall_mem_cons]

lemma boundFields_le {fs : Table String Node} {n : ℕ} : boundFields fs ≤ n ↔ ∀ e ∈ fs, e.2.bound ≤ n := by
  induction fs with
  | nil => simp [boundFields]
  | cons e fs ih => rw [boundFields, Nat.max_le, ih, List.forall_mem_cons]

lemma bound_obj_le {m n : ℕ} {fs : Table String Node} : (obj m fs).bound ≤ n ↔ m < n ∧ ∀ e ∈ fs, e.2.bound ≤ n := by
  rw [bound, Nat.max_le, boundFields_le, Nat.succ_le_iff]

lemma bound_arr_le {m n : ℕ} {xs : List Node} : (arr m xs).bound ≤ n ↔ m < n ∧ ∀ x ∈ xs, x.bound ≤ n := by
  rw [bound, Nat.max_le, boundItems_le, Nat.succ_le_iff]

lemma mark_lt_bound (x : Node) : x.mark < x.bound := by
  cases x <;> simp only [mark, bound] <;> omega

lemma bound_le_of_mem_fields {x : Node} {e : String × Node} (h : e ∈ x.fields) : e.2.bound ≤ x.bound := by
  rcases x with ⟨m, a⟩ | ⟨m, xs⟩ | ⟨m, fs⟩
  · cases h
  · cases h
  · exact (bound_obj_le.1 le_rfl).2 e h

lemma bound_le_of_get? {x y : Node} {key : String} (h : x.fields.get? key = some y) : y.bound ≤ x.bound :=
  bound_le_of_mem_fields (Table.mem_of_get? h)

lemma bound_le_of_mem_items {x y : Node} (h : y ∈ x.items) : y.bound ≤ x.bound := by
  rcases x with ⟨m, a⟩ | ⟨m, xs⟩ | ⟨m, fs⟩
  · cases h
  · exact (bound_arr_le.1 le_rfl).2 y h
  · cases h

mutual

/-- Inner parts have lower bounds. -/
theorem bound_le_of_inner : ∀ (x : Node) {y : Node}, y ∈ x.inner → y.bound ≤ x.bound
  | atom _ _, _, h => absurd h List.not_mem_nil
  | arr _ xs, _, h => (bound_le_of_innerItems xs h).trans (Nat.le_max_right _ _)
  | obj _ fs, _, h => (bound_le_of_innerFields fs h).trans (Nat.le_max_right _ _)

theorem bound_le_of_innerItems : ∀ (xs : List Node) {y : Node}, y ∈ innerItems xs → y.bound ≤ boundItems xs
  | [], _, h => absurd h List.not_mem_nil
  | x :: rest, y, h => by
    rw [innerItems] at h
    rw [boundItems]
    rcases List.mem_append.1 h with h | h
    · rcases List.mem_cons.1 h with rfl | h
      · exact Nat.le_max_left _ _
      · exact (bound_le_of_inner x h).trans (Nat.le_max_left _ _)
    · exact (bound_le_of_innerItems rest h).trans (Nat.le_max_right _ _)

theorem bound_le_of_innerFields : ∀ (fs : List (String × Node)) {y : Node}, y ∈ innerFields fs → y.bound ≤ boundFields fs
  | [], _, h => absurd h List.not_mem_nil
  | (_, x) :: rest, y, h => by
    rw [innerFields] at h
    rw [boundFields]
    rcases List.mem_append.1 h with h | h
    · rcases List.mem_cons.1 h with rfl | h
      · exact Nat.le_max_left _ _
      · exact (bound_le_of_inner x h).trans (Nat.le_max_left _ _)
    · exact (bound_le_of_innerFields rest h).trans (Nat.le_max_right _ _)

end

lemma bound_le_of_parts {x y : Node} (h : y ∈ x.parts) : y.bound ≤ x.bound := by
  rcases List.mem_cons.1 h with rfl | h
  · exact le_rfl
  · exact bound_le_of_inner x h

lemma bound_current (refs : Refs) (m : ℕ) (key : String) (x : Node) : (current refs m key x).bound = x.bound := by
  rcases current_cases refs m key x with h | ⟨n, s, -, rfl, h⟩
  · rw [h]
  · rw [h]
    rfl

lemma bound_copy {refs : Refs} {mark m n : ℕ} {fs : Table String Node} (hmark : mark < n) (h : ∀ e ∈ fs, e.2.bound ≤ n) :
    (copy refs mark (obj m fs)).bound ≤ n := by
  refine bound_obj_le.2 ⟨hmark, fun e he => ?_⟩
  obtain ⟨e', he', rfl⟩ := List.mem_map.1 he
  rw [bound_current]
  exact h e' he'

lemma bound_set {x y : Node} {n : ℕ} (hx : x.bound ≤ n) (hy : y.bound ≤ n) (key : String) : (x.set key y).bound ≤ n := by
  rcases x with ⟨m, a⟩ | ⟨m, xs⟩ | ⟨m, fs⟩
  · exact hx
  · exact hx
  · obtain ⟨hm, hfs⟩ := bound_obj_le.1 hx
    refine bound_obj_le.2 ⟨hm, fun e he => ?_⟩
    rcases Table.mem_set he with rfl | he
    · exact hy
    · exact hfs e he

lemma bound_erase {x : Node} {n : ℕ} (hx : x.bound ≤ n) (key : String) : (x.erase key).bound ≤ n := by
  have hmem : ∀ {fs : Table String Node} {e : String × Node}, e ∈ fs.erase key → e ∈ fs := by
    intro fs e he
    induction fs with
    | nil => cases he
    | cons e' fs ih =>
      obtain ⟨k, v⟩ := e'
      rw [Table.erase] at he
      split_ifs at he
      · exact List.mem_cons_of_mem _ (ih he)
      · rcases List.mem_cons.1 he with rfl | he
        · exact List.mem_cons_self
        · exact List.mem_cons_of_mem _ (ih he)
  rcases x with ⟨m, a⟩ | ⟨m, xs⟩ | ⟨m, fs⟩
  · exact hx
  · exact hx
  · obtain ⟨hm, hfs⟩ := bound_obj_le.1 hx
    exact bound_obj_le.2 ⟨hm, fun e he => hfs e (hmem he)⟩

mutual

theorem bound_shift (k : ℕ) : ∀ x : Node, (shift k x).bound ≤ x.bound + k
  | atom m a => by
    simp only [shift, bound]
    omega
  | arr m xs => by
    have := boundItems_shift k xs
    simp only [shift, bound]
    omega
  | obj m fs => by
    have := boundFields_shift k fs
    simp only [shift, bound]
    omega

theorem boundItems_shift (k : ℕ) : ∀ xs : List Node, boundItems (shiftItems k xs) ≤ boundItems xs + k
  | [] => Nat.zero_le _
  | x :: rest => by
    have := bound_shift k x
    have := boundItems_shift k rest
    simp only [shiftItems, boundItems]
    omega

theorem boundFields_shift (k : ℕ) : ∀ fs : List (String × Node), boundFields (shiftFields k fs) ≤ boundFields fs + k
  | [] => Nat.zero_le _
  | (_, x) :: rest => by
    have := bound_shift k x
    have := boundFields_shift k rest
    simp only [shiftFields, boundFields]
    omega

end

/-- Pointers lead to parts, or to the text of a reference in the place of one. -/
lemma bound_le_of_follow {refs : Refs} {tokens : List String} {x y : Node} (h : follow refs tokens x = .ok y) :
    y.bound ≤ x.bound := by
  rcases follow_cases tokens x with hsame | ⟨front, m, fs, n, s, -, hfront, hget, htext⟩
  · rw [hsame] at h
    exact bound_le_of_parts (parts_of_follow h)
  · rw [htext] at h
    cases h
    exact ((bound_obj_le.1 le_rfl).2 _ (Table.mem_of_get? hget)).trans (bound_le_of_parts (parts_of_follow hfront))

end Node

namespace Document

lemma bound_assignTo {ids : List Assignment} {m n : ℕ} {fs : Table String Node} (hm : m < n) (h : ∀ e ∈ fs, e.2.bound ≤ n) :
    ∀ e ∈ assignTo ids m fs, e.2.bound ≤ n := by
  have hset : ∀ (key id : String), ∀ e ∈ fs.set key (.atom m (.str id)), e.2.bound ≤ n := by
    intro key id e he
    rcases Table.mem_set he with rfl | he
    · exact hm
    · exact h e he
  unfold assignTo
  split
  · split
    · split_ifs
      · exact hset _ _
      · exact h
    · exact hset _ _
  · exact h

mutual

/-- Ids for parts take no marks. -/
theorem bound_assign (ids : List Assignment) : ∀ x : Node, (assign ids x).bound ≤ x.bound
  | .atom _ _ => le_rfl
  | .arr m xs => by
    rw [assign, Node.bound_arr_le]
    exact ⟨Node.mark_lt_bound (.arr m xs), fun x hx =>
      (Node.boundItems_le.1 (boundItems_assign ids xs) x hx).trans (Nat.le_max_right _ _)⟩
  | .obj m fs => by
    rw [assign, Node.bound_obj_le]
    exact ⟨Node.mark_lt_bound (.obj m fs), bound_assignTo (Node.mark_lt_bound (.obj m fs)) fun e he =>
      (Node.boundFields_le.1 (boundFields_assign ids fs) e he).trans (Nat.le_max_right _ _)⟩

theorem boundItems_assign (ids : List Assignment) : ∀ xs : List Node, Node.boundItems (assignItems ids xs) ≤ Node.boundItems xs
  | [] => le_rfl
  | x :: rest => by
    have := bound_assign ids x
    have := boundItems_assign ids rest
    simp only [assignItems, Node.boundItems]
    omega

theorem boundFields_assign (ids : List Assignment) : ∀ fs : List (String × Node),
    Node.boundFields (assignFields ids fs) ≤ Node.boundFields fs
  | [] => le_rfl
  | (_, x) :: rest => by
    have := bound_assign ids x
    have := boundFields_assign ids rest
    simp only [assignFields, Node.boundFields]
    omega

end

lemma bound_toSchema {content : Node} {url : Option String} {s : Schema Node} (h : toSchema content url = .ok s) :
    s.content.bound ≤ content.bound := by
  unfold toSchema at h
  obtain ⟨recognised, -, h⟩ := bind_eq_ok.1 h
  cases h
  exact bound_assign _ content

end Document

lemma Schema.bound_extract {refs : Refs} {s part : Schema Node} {pointer : String} {explicit : Option Address}
    (h : Schema.extract refs s pointer explicit = .ok part) : part.content.bound ≤ s.content.bound := by
  unfold Schema.extract at h
  obtain ⟨tokens, -, h⟩ := bind_eq_ok.1 h
  obtain ⟨content, hcontent, h⟩ := bind_eq_ok.1 h
  obtain ⟨address, -, h⟩ := bind_eq_ok.1 h
  cases h
  cases hfollow : Node.follow refs tokens s.content with
  | error e =>
    rw [hfollow] at hcontent
    cases hcontent
  | ok x =>
    rw [hfollow] at hcontent
    cases hcontent
    exact Node.bound_le_of_follow hfollow

/-! ### What walks write -/

namespace Discovery

/-- A copy of an operation whose parts are below `a`: its own mark and that of its parameters are new. -/
structure IsNew (a low high : ℕ) (x : Node) : Prop where
  mark : low ≤ x.mark ∧ x.mark < high
  members : ∀ e ∈ x.fields, e.2.bound ≤ a ∨
    e.1 = "parameters" ∧ ∃ m items, e.2 = .arr m items ∧ low ≤ m ∧ m < high ∧ ∀ y ∈ items, y.bound ≤ a

/-- The parts that a walk may come to: parts below `a`, and copies of operations. Those that are no objects do not count. -/
def IsMet (a low high : ℕ) (x : Node) : Prop := x.isObject = true → x.bound ≤ a ∨ IsNew a low high x

section Copies

variable {a low high low' high' : ℕ}

lemma IsNew.mono {x : Node} (h : IsNew a low high x) (hlow : low' ≤ low) (hhigh : high ≤ high') : IsNew a low' high' x := by
  refine ⟨⟨hlow.trans h.mark.1, h.mark.2.trans_le hhigh⟩, fun e he => (h.members e he).imp_right ?_⟩
  rintro ⟨hkey, m, items, hitems, hm, hm', hbound⟩
  exact ⟨hkey, m, items, hitems, hlow.trans hm, hm'.trans_le hhigh, hbound⟩

lemma IsNew.bound_le {x : Node} (h : IsNew a low high x) (hobj : x.isObject = true) (ha : a ≤ high) : x.bound ≤ high := by
  rcases x with ⟨m, v⟩ | ⟨m, xs⟩ | ⟨m, fs⟩
  · cases hobj
  · cases hobj
  · refine Node.bound_obj_le.2 ⟨h.mark.2, fun e he => ?_⟩
    rcases h.members e he with hbound | ⟨-, n, items, hitems, -, hn, hbound⟩
    · exact hbound.trans ha
    · rw [hitems]
      exact Node.bound_arr_le.2 ⟨hn, fun y hy => (hbound y hy).trans ha⟩

lemma isNew_copy {refs : Refs} {n m : ℕ} {fs : Table String Node} (h : (Node.obj m fs).bound ≤ a) :
    IsNew a n (n + 2) (Node.copy refs n (.obj m fs)) := by
  refine ⟨⟨le_rfl, Nat.lt_add_of_pos_right Nat.two_pos⟩, fun e he => Or.inl ?_⟩
  obtain ⟨e', he', rfl⟩ := List.mem_map.1 he
  rw [Node.bound_current]
  exact (Node.bound_obj_le.1 h).2 e' he'

lemma IsNew.set_parameters {n : ℕ} {x : Node} (h : IsNew a n (n + 2) x) {merged : List Node}
    (hmerged : ∀ y ∈ merged, y.bound ≤ a) : IsNew a n (n + 2) (x.set "parameters" (.arr (n + 1) merged)) := by
  rcases x with ⟨m, v⟩ | ⟨m, xs⟩ | ⟨m, fs⟩
  · exact h
  · exact h
  · refine ⟨h.mark, fun e he => ?_⟩
    rcases Table.mem_set he with rfl | he
    · exact Or.inr ⟨rfl, n + 1, merged, rfl, Nat.le_succ n, Nat.lt_succ_self _, hmerged⟩
    · exact h.members e he

lemma mem_of_mergeParameters {shared own merged : List Node} (h : mergeParameters shared own = .ok merged) {y : Node}
    (hy : y ∈ merged) : y ∈ shared ∨ y ∈ own := by
  unfold mergeParameters at h
  obtain ⟨overridden, -, h⟩ := bind_eq_ok.1 h
  obtain ⟨keys, -, h⟩ := bind_eq_ok.1 h
  cases h
  rcases List.mem_append.1 hy with hy | hy
  · obtain ⟨e, he, rfl⟩ := List.mem_map.1 hy
    exact Or.inl (List.of_mem_zip (List.mem_of_mem_filter he)).1
  · exact Or.inr hy

lemma copyOperations_new {refs : Refs} {item : Node} (hitem : item.bound ≤ a) {methods : List String} {next last : ℕ}
    {copies : List Node} (h : copyOperations refs item next methods = .ok (copies, last)) :
    next ≤ last ∧ ∀ c ∈ copies, IsNew a next last c := by
  induction methods generalizing next last copies with
  | nil =>
    cases h
    exact ⟨le_rfl, fun _ hc => absurd hc List.not_mem_nil⟩
  | cons method methods ih =>
    rw [copyOperations] at h
    split at h
    · next m fs hop =>
      have hbound : (Node.obj m fs).bound ≤ a := (Node.bound_le_of_get? hop).trans hitem
      have htail : ∀ {copied : Node}, IsNew a next (next + 2) copied →
          (do let rest ← copyOperations refs item (next + 2) methods; pure (copied :: rest.1, rest.2)) = .ok (copies, last) →
            next ≤ last ∧ ∀ c ∈ copies, IsNew a next last c := by
        intro copied hcopied h
        obtain ⟨⟨others, last'⟩, hothers, h⟩ := bind_eq_ok.1 h
        cases h
        obtain ⟨hlast, hnew⟩ := ih hothers
        refine ⟨(Nat.le_add_right next 2).trans hlast, fun c hc => ?_⟩
        rcases List.mem_cons.1 hc with rfl | hc
        · exact hcopied.mono le_rfl hlast
        · exact (hnew c hc).mono (Nat.le_add_right next 2) le_rfl
      have hitems : ∀ (fields : Table String Node), (∀ e ∈ fields, e.2.bound ≤ a) →
          ∀ y ∈ ((fields.get? "parameters").map (·.items)).getD [], y.bound ≤ a := by
        intro fields hfields y hy
        cases hget : fields.get? "parameters" with
        | none =>
          rw [hget] at hy
          cases hy
        | some x =>
          rw [hget] at hy
          exact (Node.bound_le_of_mem_items hy).trans (hfields _ (Table.mem_of_get? hget))
      dsimp only at h
      split_ifs at h
      · exact htail (isNew_copy hbound) h
      · obtain ⟨merged, hmerged, h⟩ := bind_eq_ok.1 h
        refine htail ((isNew_copy hbound).set_parameters fun y hy => ?_) h
        rcases mem_of_mergeParameters hmerged hy with hy | hy
        · exact hitems _ (fun e he => (Node.bound_le_of_mem_fields he).trans hitem) y hy
        · exact hitems _ (Node.bound_obj_le.1 hbound).2 y hy
    · exact ih h

lemma copyAllOperations_new {refs : Refs} {items : List Node} (hitems : ∀ x ∈ items, x.bound ≤ a) {next last : ℕ}
    {copies : List Node} (h : copyAllOperations refs next items = .ok (copies, last)) :
    next ≤ last ∧ ∀ c ∈ copies, IsNew a next last c := by
  induction items generalizing next last copies with
  | nil =>
    cases h
    exact ⟨le_rfl, fun _ hc => absurd hc List.not_mem_nil⟩
  | cons item items ih =>
    rw [copyAllOperations] at h
    obtain ⟨⟨first, after⟩, hfirst, h⟩ := bind_eq_ok.1 h
    obtain ⟨⟨others, last'⟩, hothers, h⟩ := bind_eq_ok.1 h
    cases h
    obtain ⟨hafter, hnew⟩ := copyOperations_new (hitems item List.mem_cons_self) hfirst
    obtain ⟨hlast, hnew'⟩ := ih (fun x hx => hitems x (List.mem_cons_of_mem _ hx)) hothers
    refine ⟨hafter.trans hlast, fun c hc => ?_⟩
    rcases List.mem_append.1 hc with hc | hc
    · exact (hnew c hc).mono le_rfl hlast
    · exact (hnew' c hc).mono hafter le_rfl

lemma operationCopies_new {refs : Refs} {document : Node} (hdocument : document.bound ≤ a) {next last : ℕ}
    {copies : List Node} (h : operationCopies refs next document = .ok (copies, last)) :
    next ≤ last ∧ ∀ c ∈ copies, IsNew a next last c := by
  refine copyAllOperations_new (fun x hx => ?_) h
  cases hpaths : document.fields.get? "paths" with
  | none =>
    rw [hpaths] at hx
    cases hx
  | some paths =>
    rw [hpaths] at hx
    obtain ⟨e, he, rfl⟩ := List.mem_map.1 hx
    exact (Node.bound_le_of_mem_fields he).trans ((Node.bound_le_of_get? hpaths).trans hdocument)

/-- What stands in a place of a list is one of its items, or no object. -/
lemma mem_items_of_pick {p : Place} {m : ℕ} {items : List Node} {c : Node} (h : c ∈ p.pick (.arr m items))
    (hobj : c.isObject = true) : c ∈ items := by
  cases p with
  | one =>
    rw [List.mem_singleton.1 h] at hobj
    cases hobj
  | many | oneOrMany | manyOrNamed => exact h
  | named | sections => cases h

/-- The children of what a walk may come to are below `a`. -/
lemma IsMet.children {x : Node} (h : IsMet a low high x) (hobj : x.isObject = true) {dialect : Dialect}
    {openapi : Option OpenApi} {c : Node} (hc : c ∈ children dialect openapi x) : IsMet a low high c := by
  intro hcobj
  left
  rcases h hobj with hbound | hnew
  · exact (Node.bound_le_of_inner x (Node.inner_of_children hc)).trans hbound
  · obtain ⟨⟨key, p⟩, -, hc⟩ := List.mem_flatMap.1 hc
    dsimp only at hc
    split at hc
    · next y hy =>
      rcases hnew.members _ (Table.mem_of_get? hy) with hbound | ⟨-, m, items, rfl, -, -, hitems⟩
      · exact (Node.bound_le_of_parts (Node.parts_of_pick hc)).trans hbound
      · exact hitems c (mem_items_of_pick hc hcobj)
    · cases hc

end Copies

/-- **What a walk leaves alone**: texts at marks from `a` up to `low`. All marks with a text are below `high`, and what is
found is what a walk may come to. -/
structure Trail.IsKept (a low high : ℕ) (refs : Refs) (t : Trail) : Prop where
  frame : ∀ m, a ≤ m → m < low → t.refs.get? m = refs.get? m
  marks : ∀ m text, t.refs.get? m = some text → m < high
  found : ∀ s refs', Found.schema s refs' ∈ t.found → s.content.isObject = true ∧ IsMet a low high s.content

section Walks

variable {a low high : ℕ} {refs : Refs} {t : Trail}

lemma Trail.IsKept.mono (h : t.IsKept a low low refs) (hhigh : low ≤ high) : t.IsKept a low high refs := by
  refine ⟨h.frame, fun m text hm => (h.marks m text hm).trans_le hhigh, fun s refs' hs => ?_⟩
  obtain ⟨hobj, hmet⟩ := h.found s refs' hs
  exact ⟨hobj, fun hobj => (hmet hobj).imp_right fun hnew => hnew.mono le_rfl hhigh⟩

lemma enter_kept {s : Schema Node} {visit : Visit} (hobj : visit.node.isObject = true) (hmet : IsMet a low high visit.node)
    (ht : t.IsKept a low high refs) :
    Yields (enter s visit) t (fun _ t' => t'.IsKept a low high refs) fun _ t' => t'.IsKept a low high refs := by
  unfold enter
  split
  · exact Yields.of_pure ht
  · next id _ =>
    refine Yields.bind ?_
    cases Address.within id visit.scope with
    | error f => exact Yields.of_throw ht
    | ok address =>
      refine Yields.of_pure (Yields.bind (Yields.of_get (Yields.bind (Yields.of_modify (Yields.of_pure ?_)))))
      refine ⟨ht.frame, ht.marks, fun s' refs' hs' => ?_⟩
      rcases List.mem_cons.1 hs' with hs' | hs'
      · obtain ⟨rfl, -⟩ := Found.schema.inj hs'
        exact ⟨hobj, hmet⟩
      · exact ht.found s' refs' hs'

lemma canonize_kept (ha : a ≤ low) (hhigh : low ≤ high) {node : Node} (hobj : node.isObject = true)
    (hmet : IsMet a low high node) (scope : List String) (ht : t.IsKept a low high refs) :
    Yields (canonize node scope) t (fun _ t' => t'.IsKept a low high refs) fun _ t' => t'.IsKept a low high refs := by
  refine Yields.bind (Yields.of_get ?_)
  split
  · exact Yields.of_pure ht
  · next text _ =>
    refine Yields.bind ?_
    cases Address.within text scope with
    | error f => exact Yields.of_throw ht
    | ok address =>
      -- the mark that is written at is below `a`, or new
      have hmark : node.mark < a ∨ low ≤ node.mark ∧ node.mark < high :=
        (hmet hobj).imp (fun h => (Node.mark_lt_bound node).trans_le h) IsNew.mark
      refine Yields.of_pure (Yields.bind (Yields.of_modify (Yields.of_modify ⟨fun m hm hm' => ?_, fun m text' htext => ?_,
        fun s' refs' hs' => ht.found s' refs' (by simpa using hs')⟩)))
      · rw [Table.get?_set_of_ne (by omega)]
        exact ht.frame m hm hm'
      · rw [Table.get?_set] at htext
        split_ifs at htext with heq
        · omega
        · exact ht.marks m text' htext

lemma run_kept (s : Schema Node) (ha : a ≤ low) (hhigh : low ≤ high) {visits : List Visit}
    (hv : ∀ v ∈ visits, IsMet a low high v.node) (ht : t.IsKept a low high refs) :
    Yields (run s visits) t (fun _ t' => t'.IsKept a low high refs) fun _ t' => t'.IsKept a low high refs := by
  induction visits using run.induct s generalizing t with
  | case1 =>
    rw [run]
    exact Yields.of_pure ht
  | case2 visit rest hobj ih =>
    have hmet := hv visit List.mem_cons_self
    rw [run, if_pos hobj]
    refine Yields.bind ((enter_kept hobj hmet ht).mono (fun scope t₁ h₁ => ?_) fun _ _ h => h)
    refine Yields.bind ((canonize_kept ha hhigh hobj hmet scope h₁).mono (fun _ t₂ h₂ => ?_) fun _ _ h => h)
    refine ih scope (fun v hmem => ?_) h₂
    rcases List.mem_append.1 hmem with hmem | hmem
    · obtain ⟨child, hchild, rfl⟩ := List.mem_map.1 hmem
      exact hmet.children hobj hchild
    · exact hv v (List.mem_cons_of_mem _ hmem)
  | case3 visit rest hobj ih =>
    rw [run, if_neg hobj]
    exact ih (fun v hmem => hv v (List.mem_cons_of_mem _ hmem)) ht

/-- **What a walk through a schema below `a` leaves alone.** -/
theorem walk_kept {s : Schema Node} {next : ℕ} (hs : s.content.bound ≤ a) (ha : a ≤ next)
    (hrefs : ∀ m text, refs.get? m = some text → m < next) :
    next ≤ (walk s refs next).next ∧
      (Trail.mk (walk s refs next).refs (walk s refs next).found).IsKept a next (walk s refs next).next refs := by
  have hreverse : ∀ {t : Trail} {high : ℕ}, t.IsKept a next high refs →
      (Trail.mk t.refs t.found.reverse).IsKept a next high refs :=
    fun ht => ⟨ht.frame, ht.marks, fun s' refs' hs' => ht.found s' refs' (List.mem_reverse.1 hs')⟩
  have hstart : (Trail.mk refs []).IsKept a next next refs :=
    ⟨fun _ _ _ => rfl, hrefs, fun _ _ h => absurd h List.not_mem_nil⟩
  unfold walk
  dsimp only
  split
  · exact ⟨le_rfl, hstart⟩
  · next hobj =>
    have hobj : s.content.isObject = true := by simpa using hobj
    have hroot := canonize_kept ha le_rfl hobj (fun _ => Or.inl hs) (rootScope s) hstart
    split
    · next t ht => exact ⟨le_rfl, hreverse (hroot.bad_of_error ht)⟩
    · next t ht =>
      have hkept : t.IsKept a next next refs := hroot.good_of_ok ht
      split
      · exact ⟨le_rfl, hreverse hkept⟩
      · next operations last hcopies =>
        have hnew : next ≤ last ∧ ∀ c ∈ operations, IsNew a next last c := by
          split_ifs at hcopies
          · exact operationCopies_new hs hcopies
          · cases hcopies
            exact ⟨le_rfl, fun _ hc => absurd hc List.not_mem_nil⟩
        obtain ⟨hlast, hnew⟩ := hnew
        have hvisits : ∀ v : Visit, v ∈ operations.map (Visit.mk · (rootScope s) true) ++
            (children s.dialect s.openapi s.content).map (Visit.mk · (rootScope s) false) → IsMet a next last v.node := by
          intro v hv
          rcases List.mem_append.1 hv with hv | hv
          · obtain ⟨c, hc, rfl⟩ := List.mem_map.1 hv
            exact fun _ => Or.inr (hnew c hc)
          · obtain ⟨c, hc, rfl⟩ := List.mem_map.1 hv
            exact fun _ => Or.inl ((Node.bound_le_of_inner _ (Node.inner_of_children hc)).trans hs)
        have hrun := run_kept s ha hlast hvisits (hkept.mono hlast)
        split
        · next t' ht' => exact ⟨hlast, hreverse (hrun.bad_of_error ht')⟩
        · next t' ht' => exact ⟨hlast, hreverse (hrun.good_of_ok ht')⟩

end Walks

end Discovery

/-! ### Fresh registries -/

/-- **A fresh registry**: all marks with a text, and all marks of what is stored, are below the next one. -/
structure Registry.IsFresh (r : Registry) : Prop where
  refs : ∀ m text, r.refs.get? m = some text → m < r.next
  stored : ∀ s, r.Stores s → s.content.bound ≤ r.next

lemma Registry.isFresh_empty : Registry.empty.IsFresh := by
  refine ⟨by rintro _ _ ⟨⟩, fun s hs => ?_⟩
  rcases hs with hs | hs | hs
  · cases hs
  · cases hs
  · cases hs

/-- **Whatever is offered has media types below `a`**: those that the synthesis of an operation may come to. -/
def Registry.OffersBelow (a : ℕ) (r : Registry) : Prop :=
  ∀ s, r.Offers s → ∀ x, s.content.fields.get? "content" = some x → x.bound ≤ a

/-- What a later registry has left alone: texts at marks from `a` up to the next one. -/
structure Registry.Spares (a : ℕ) (r r' : Registry) : Prop where
  next : r.next ≤ r'.next
  refs : ∀ m, a ≤ m → m < r.next → r'.refs.get? m = r.refs.get? m

lemma Registry.Spares.refl (a : ℕ) (r : Registry) : r.Spares a r := ⟨le_rfl, fun _ _ _ => rfl⟩

lemma Registry.Spares.trans {a : ℕ} {r₁ r₂ r₃ : Registry} (h : r₁.Spares a r₂) (h' : r₂.Spares a r₃) : r₁.Spares a r₃ :=
  ⟨h.next.trans h'.next, fun m hm hm' => (h'.refs m hm (hm'.trans_le h.next)).trans (h.refs m hm hm')⟩

/-- What a registration keeps, of a schema below `a`. -/
structure Registry.Keeps (a : ℕ) (r r' : Registry) : Prop extends r.Spares a r' where
  fresh : r'.IsFresh
  below : r.OffersBelow a → r'.OffersBelow a

lemma Registry.IsFresh.keeps {r : Registry} (h : r.IsFresh) (a : ℕ) : r.Keeps a r := ⟨.refl a r, h, fun hbelow => hbelow⟩

lemma Registry.Keeps.trans {a : ℕ} {r₁ r₂ r₃ : Registry} (h : r₁.Keeps a r₂) (h' : r₂.Keeps a r₃) : r₁.Keeps a r₃ :=
  ⟨h.toSpares.trans h'.toSpares, h'.fresh, fun hbelow => h'.below (h.below hbelow)⟩

lemma Registry.IsFresh.offersBelow {r : Registry} (h : r.IsFresh) : r.OffersBelow r.next :=
  fun s hs _ hx => (Node.bound_le_of_get? hx).trans (h.stored s (hs.imp_right Or.inl))

lemma Action.Entered.keeps {s : Schema Node} {r r' : Registry} (h : Entered s r r') (hr : r.IsFresh) {a : ℕ}
    (hs : s.content.bound ≤ a) (ha : a ≤ r.next) : r.Keeps a r' := by
  obtain ⟨hnext, hkept⟩ := Discovery.walk_kept hs ha hr.refs
  rw [← h.next] at hnext hkept
  have hhigh : a ≤ r'.next := ha.trans hnext
  refine ⟨⟨hnext, fun m hm hm' => ?_⟩, ⟨fun m text hm => ?_, fun s' hs' => ?_⟩, fun hbelow s' hs' x hx => ?_⟩
  · rw [h.refs]
    exact hkept.frame m hm hm'
  · rw [h.refs] at hm
    exact hkept.marks m text hm
  · rcases hs' with hs' | hs' | hs'
    · rcases h.schemas s' hs' with rfl | hs' | ⟨refs, hs'⟩
      · exact hs.trans hhigh
      · exact (hr.stored s' (Or.inl hs')).trans hnext
      · obtain ⟨hobj, hmet⟩ := hkept.found s' refs hs'
        exact (hmet hobj).elim (fun hbound => hbound.trans hhigh) fun hnew => hnew.bound_le hobj hhigh
    · exact (hr.stored s' (Or.inr (Or.inl (h.targets s' hs')))).trans hnext
    · exact (hr.stored s' (Or.inr (Or.inr (h.documents ▸ hs')))).trans hnext
  · rcases hs' with hs' | hs'
    · rcases h.schemas s' hs' with rfl | hs' | ⟨refs, hs'⟩
      · exact (Node.bound_le_of_get? hx).trans hs
      · exact hbelow s' (Or.inl hs') x hx
      · obtain ⟨hobj, hmet⟩ := hkept.found s' refs hs'
        rcases hmet hobj with hbound | hnew
        · exact (Node.bound_le_of_get? hx).trans hbound
        · rcases hnew.members _ (Table.mem_of_get? hx) with hbound | ⟨hkey, -⟩
          · exact hbound
          · exact absurd (show "content" = "parameters" from hkey) (by decide)
    · exact hbelow s' (Or.inr (h.targets s' hs')) x hx

/-- **An action that keeps registries fresh**, begun when marks up to `n` are in use at least. It takes no mark back, and
what it ends with has `P`, by the mark that is next then. -/
def KeepsFresh {α : Type} (n : ℕ) (x : Action α) (P : ℕ → α → Prop) : Prop :=
  ∀ r, r.IsFresh → n ≤ r.next →
    Yields x r (fun a r' => r'.IsFresh ∧ r.next ≤ r'.next ∧ P r'.next a) fun _ r' => r'.IsFresh ∧ r.next ≤ r'.next

namespace KeepsFresh

variable {α β : Type} {n : ℕ} {x : Action α} {f : α → Action β} {P P' : ℕ → α → Prop} {Q : ℕ → β → Prop}

lemma mono (h : KeepsFresh n x P) (hP : ∀ k a, n ≤ k → P k a → P' k a) : KeepsFresh n x P' := by
  intro r hr hn
  refine (h r hr hn).mono ?_ fun _ _ h => h
  rintro a r' ⟨hr', hnext, ha⟩
  exact ⟨hr', hnext, hP _ a (hn.trans hnext) ha⟩

lemma bind (hx : KeepsFresh n x P) (hf : ∀ k a, n ≤ k → P k a → KeepsFresh k (f a) Q) : KeepsFresh n (x >>= f) Q := by
  intro r hr hn
  refine Yields.bind ((hx r hr hn).mono ?_ fun _ _ h => h)
  rintro a r' ⟨hr', hnext, ha⟩
  refine (hf r'.next a (hn.trans hnext) ha r' hr' le_rfl).mono ?_ ?_
  · rintro b r'' ⟨hr'', hnext', hb⟩
    exact ⟨hr'', hnext.trans hnext', hb⟩
  · rintro _ r'' ⟨hr'', hnext'⟩
    exact ⟨hr'', hnext.trans hnext'⟩

lemma of_pure {a : α} (h : ∀ k, n ≤ k → P k a) : KeepsFresh n (pure a) P :=
  fun _ hr hn => Yields.of_pure ⟨hr, le_rfl, h _ hn⟩

lemma of_throw {e : Failure} : KeepsFresh n (throw e : Action α) P := fun _ hr _ => Yields.of_throw ⟨hr, le_rfl⟩

lemma of_get : KeepsFresh n get fun k r => r.IsFresh ∧ r.next ≤ k := fun _ hr _ => Yields.of_get ⟨hr, le_rfl, hr, le_rfl⟩

lemma of_lift {e : Except Failure α} (h : ∀ a, e = .ok a → ∀ k, n ≤ k → P k a) : KeepsFresh n (Action.lift e) P := by
  cases he : e with
  | ok a => exact of_pure (h a he)
  | error f => exact of_throw

lemma mapM {g : α → Action β} {xs : List α} (h : ∀ k, n ≤ k → ∀ a ∈ xs, KeepsFresh k (g a) Q)
    (hQ : ∀ k k' b, k ≤ k' → Q k b → Q k' b) : KeepsFresh n (xs.mapM g) fun k bs => ∀ b ∈ bs, Q k b := by
  induction xs generalizing n with
  | nil => exact of_pure fun _ _ _ hb => absurd hb List.not_mem_nil
  | cons a xs ih =>
    rw [List.mapM_cons]
    refine (h n le_rfl a List.mem_cons_self).bind fun k b hk hb => ?_
    refine (ih fun k' hk' a' ha' => h k' (hk.trans hk') a' (List.mem_cons_of_mem _ ha')).bind fun k' bs hk' hbs => ?_
    refine of_pure fun k'' hk'' => List.forall_mem_cons.2 ⟨hQ _ _ b (hk'.trans hk'') hb, fun b' hb' => ?_⟩
    exact hQ _ _ b' hk'' (hbs b' hb')

/-! ### Steps -/

lemma tell (notice : Notice) : KeepsFresh n (Action.tell notice) fun _ _ => True :=
  fun _ hr _ => Yields.of_modify ⟨⟨hr.refs, hr.stored⟩, le_rfl, trivial⟩

lemma freshMark : KeepsFresh n Action.freshMark fun k m => m < k := by
  intro r hr _
  refine Yields.of_modifyGet ⟨⟨fun m text hm => ?_, fun s hs => ?_⟩, Nat.le_succ _, Nat.lt_succ_self _⟩
  · exact (hr.refs m text hm).trans (Nat.lt_succ_self _)
  · exact (hr.stored s hs).trans (Nat.le_succ _)

lemma adopt (document : Node) : KeepsFresh n (Action.adopt document) fun k content => content.bound ≤ k := by
  intro r hr _
  refine Yields.of_modifyGet ⟨⟨fun m text hm => ?_, fun s hs => ?_⟩, Nat.le_add_right _ _, ?_⟩
  · exact (hr.refs m text hm).trans_le (Nat.le_add_right _ _)
  · exact (hr.stored s hs).trans (Nat.le_add_right _ _)
  · rw [Nat.add_comm]
    exact Node.bound_shift r.next document

lemma register {s : Schema Node} (hs : s.content.bound ≤ n) : KeepsFresh n (Action.register s) fun _ _ => True := by
  intro r hr hn
  refine (Action.register_entered s r).mono (fun _ r' h => ?_) fun _ r' h => ?_
  · have hkeeps := h.keeps hr hs hn
    exact ⟨hkeeps.fresh, hkeeps.next, trivial⟩
  · have hkeeps := h.keeps hr hs hn
    exact ⟨hkeeps.fresh, hkeeps.next⟩

/-- A target is stored. -/
lemma setTarget {r : Registry} (hr : r.IsFresh) {s : Schema Node} (hs : s.content.bound ≤ r.next) (key : String) :
    Registry.IsFresh { r with references := r.references.set key (some s) } := by
  refine ⟨hr.refs, fun s' hs' => ?_⟩
  rcases hs' with hs' | hs' | hs'
  · exact hr.stored s' (Or.inl hs')
  · rcases Table.mem_values_set hs' with hs' | hs'
    · cases hs'
      exact hs
    · exact hr.stored s' (Or.inr (Or.inl hs'))
  · exact hr.stored s' (Or.inr (Or.inr hs'))

lemma addReference (a : Address) : KeepsFresh n (Action.addReference a) fun _ _ => True := by
  intro r hr _
  refine (Action.addReference_yields a r).mono ?_ fun _ _ h => h.elim
  rintro ⟨⟩ _ ⟨references, rfl, -, -, htargets⟩
  refine ⟨⟨hr.refs, fun s hs => ?_⟩, le_rfl, trivial⟩
  rcases hs with hs | hs | hs
  · exact hr.stored s (Or.inl hs)
  · exact hr.stored s (Or.inr (Or.inl (htargets s hs)))
  · exact hr.stored s (Or.inr (Or.inr hs))

/-! ### Operations -/

open Operation (Request Draft)

lemma resolved {node : Node} (h : node.bound ≤ n) :
    KeepsFresh n (Operation.resolved node) fun k content => content.bound ≤ k := by
  refine of_get.bind fun k r hk hr => ?_
  split
  · next text _ =>
    have htarget : KeepsFresh k (Action.lift (r.dereference text)) fun k s => s.content.bound ≤ k := by
      refine of_lift fun s hs k' hk' => ?_
      exact (hr.1.stored s ((Registry.mem_of_dereference hs).imp_right Or.inl)).trans (hr.2.trans hk')
    exact htarget.bind fun k' s _ hs => of_pure fun k'' hk'' => hs.trans hk''
  · exact of_pure fun k' hk' => h.trans (hk.trans hk')

lemma registerPart {content : Node} (h : content.bound ≤ n) (s : Schema Node) (name : String) :
    KeepsFresh n (Operation.registerPart s name content) fun _ _ => True :=
  (register h).bind fun _ _ _ _ => (addReference _).bind fun _ _ _ _ => of_pure fun _ _ => trivial

lemma parameters {operation : Node} (h : operation.bound ≤ n) :
    KeepsFresh n (Operation.parameters operation) fun k all => ∀ p ∈ all, p.bound ≤ k := by
  have hnone : ∀ {k}, KeepsFresh k (pure [] : Action (List Node)) fun k all => ∀ p ∈ all, p.bound ≤ k :=
    of_pure fun _ _ _ hp => absurd hp List.not_mem_nil
  unfold Operation.parameters
  split
  · next m xs hget =>
    have hxs : ∀ x ∈ xs, x.bound ≤ n := (Node.bound_arr_le.1 ((Node.bound_le_of_get? hget).trans h)).2
    refine (mapM (fun k hk x hx => resolved ((hxs x hx).trans hk)) fun _ _ _ hk hb => hb.trans hk).bind fun k raw _ hraw => ?_
    exact of_pure fun k' hk' p hp => (hraw p (List.mem_of_mem_filter hp)).trans hk'
  · split_ifs
    · exact of_throw
    · exact hnone
  · split_ifs
    · exact hnone
    · exact of_throw
  · exact hnone

lemma namedBy {parameter : Node} (h : parameter.bound ≤ n) :
    KeepsFresh n (Operation.namedBy parameter) fun k named => named.isObject = true → named.bound ≤ k := by
  unfold Operation.namedBy
  split
  · next node hnode => exact (resolved ((Node.bound_le_of_get? hnode).trans h)).mono fun _ _ _ hbound _ => hbound
  · exact of_pure fun _ _ => by rintro ⟨⟩

lemma parameterSchema {parameter : Node} (h : parameter.bound ≤ n) :
    KeepsFresh n (Operation.parameterSchema parameter) fun k schema => schema.bound ≤ k := by
  rw [Operation.parameterSchema_eq]
  refine (namedBy h).bind fun k named hk hnamed => freshMark.bind fun k' mark hk' hmark => of_get.bind fun k'' r hk'' _ => ?_
  refine of_pure fun l hl => ?_
  have hmark : mark < l := hmark.trans_le (hk''.trans hl)
  have htemplate : (Operation.template r.refs mark named).bound ≤ l := by
    have hplain : (Node.obj mark [("type", .atom mark (.str "string"))]).bound ≤ l :=
      Node.bound_obj_le.2 ⟨hmark, by
        rintro e he
        rw [List.mem_singleton.1 he]
        exact hmark⟩
    rcases named with ⟨m, a⟩ | ⟨m, xs⟩ | ⟨m, fs⟩
    · exact hplain
    · exact hplain
    · refine Node.bound_copy hmark fun e he => ?_
      exact ((Node.bound_obj_le.1 (hnamed rfl)).2 e he).trans (hk'.trans (hk''.trans hl))
  have hflattened : ∀ {content : Node}, content.bound ≤ l → (Operation.flattened mark content).bound ≤ l := by
    intro content hcontent
    unfold Operation.flattened
    split_ifs
    · exact Node.bound_set hcontent (show (Node.atom mark (.str "string")).bound ≤ l from hmark) _
    · exact hcontent
  have hdescribed : ∀ {content : Node}, content.bound ≤ l → (Operation.described parameter content).bound ≤ l := by
    intro content hcontent
    unfold Operation.described
    split
    · next description hget =>
      split_ifs
      · exact Node.bound_set hcontent ((Node.bound_le_of_get? hget).trans (h.trans (hk.trans (hk'.trans (hk''.trans hl))))) _
      · exact hcontent
    · exact hcontent
  exact hdescribed (hflattened (Node.bound_erase (Node.bound_erase htemplate _) _))

lemma collect {group : List Node} (hgroup : ∀ p ∈ group, p.bound ≤ n) {properties : Table String Node}
    (hproperties : ∀ e ∈ properties, e.2.bound ≤ n) (required : List String) :
    KeepsFresh n (Operation.collect group properties required) fun k result => ∀ e ∈ result.1, e.2.bound ≤ k := by
  induction group generalizing n properties required with
  | nil => exact of_pure fun k hk e he => (hproperties e he).trans hk
  | cons p group ih =>
    obtain ⟨hp, hgroup⟩ := List.forall_mem_cons.1 hgroup
    rw [Operation.collect]
    split
    · exact ih hgroup hproperties required
    · refine (parameterSchema hp).bind fun k schema hk hschema => ?_
      refine ih (fun q hq => (hgroup q hq).trans hk) (fun e he => ?_) _
      rcases Table.mem_set he with rfl | he
      · exact hschema
      · exact (hproperties e he).trans hk

/-- The content of the schema of a group. -/
lemma bound_group {k mark inner names : ℕ} {properties : Table String Node} (required : List String) (hmark : mark < k)
    (hinner : inner < k) (hnames : names < k) (hproperties : ∀ e ∈ properties, e.2.bound ≤ k) :
    (Node.obj mark [("type", .atom mark (.str "object")), ("properties", .obj inner properties),
      ("required", Operation.nameList names required)]).bound ≤ k := by
  refine Node.bound_obj_le.2 ⟨hmark, fun e he => ?_⟩
  simp only [List.mem_cons, List.not_mem_nil, or_false] at he
  rcases he with rfl | rfl | rfl
  · exact hmark
  · exact Node.bound_obj_le.2 ⟨hinner, hproperties⟩
  · refine Node.bound_arr_le.2 ⟨hnames, fun x hx => ?_⟩
    obtain ⟨name, -, rfl⟩ := List.mem_map.1 hx
    exact hnames

lemma addGroups {s : Schema Node} {all : List Node} (hall : ∀ p ∈ all, p.bound ≤ n) (locations : List String) (draft : Draft) :
    KeepsFresh n (Operation.addGroups s all locations draft) fun _ _ => True := by
  induction locations generalizing n draft with
  | nil => exact of_pure fun _ _ => trivial
  | cons location locations ih =>
    rw [Operation.addGroups]
    dsimp only
    split
    · exact ih hall draft
    · refine (collect (fun p hp => hall p (List.mem_of_mem_filter hp)) (fun e he => absurd he List.not_mem_nil) []).bind
        fun k₁ result hk₁ hresult => ?_
      refine freshMark.bind fun k₂ mark hk₂ hmark => freshMark.bind fun k₃ inner hk₃ hinner =>
        freshMark.bind fun k₄ names hk₄ hnames => ?_
      have hcontent := bound_group result.2 (hmark.trans_le (hk₃.trans hk₄)) (hinner.trans_le hk₄) hnames
        fun e he => (hresult e he).trans (hk₂.trans (hk₃.trans hk₄))
      refine (registerPart hcontent s _).bind fun k₅ _ hk₅ _ => ih (fun p hp => ?_) _
      exact (hall p hp).trans (hk₁.trans (hk₂.trans (hk₃.trans (hk₄.trans hk₅))))

lemma mediaSchemas_bound {media : Table String Node} (h : ∀ e ∈ media, e.2.bound ≤ n) :
    ∀ e ∈ Operation.mediaSchemas media, e.2.bound ≤ n := by
  intro e he
  obtain ⟨e', he', hsome⟩ := List.mem_filterMap.1 he
  split at hsome
  · next schema hschema =>
    split_ifs at hsome
    cases hsome
    exact (Node.bound_le_of_get? hschema).trans (h e' he')
  · cases hsome

lemma addBodies {s : Schema Node} (isOnly isRequired : Bool) (request : Request) {media : List (String × Node)}
    (h : ∀ e ∈ media, e.2.bound ≤ n) :
    KeepsFresh n (Operation.addBodies s isOnly isRequired request media) fun _ _ => True := by
  induction media generalizing n with
  | nil => exact of_pure fun _ _ => trivial
  | cons e media ih =>
    obtain ⟨mediaType, body⟩ := e
    obtain ⟨hbody, hmedia⟩ := List.forall_mem_cons.1 h
    rw [Operation.addBodies]
    refine (registerPart hbody s _).bind fun k bodySchema hk _ => ?_
    have hrest : ∀ {k' : ℕ} (variant : Json), n ≤ k' → KeepsFresh k' (do
        let content ← Action.adopt (Node.ofJson variant)
        let requestSchema ← Operation.registerPart s
          (if isOnly then "request" else Operation.mediaSegment isOnly mediaType ++ "Request") content
        let others ← Operation.addBodies s isOnly isRequired request media
        return bodySchema :: requestSchema :: others) fun _ _ => True := by
      intro k' variant hk'
      refine (adopt _).bind fun k₁ content hk₁ hcontent => (registerPart hcontent s _).bind fun k₂ _ hk₂ _ => ?_
      refine (ih fun e he => (hmedia e he).trans (hk'.trans (hk₁.trans hk₂))).bind fun _ _ _ _ => of_pure fun _ _ => trivial
    dsimp only
    split
    · rw [pure_bind]
      exact hrest _ hk
    · have hrequired : KeepsFresh k (Operation.hasRequired body) fun _ _ => True :=
        (resolved (hbody.trans hk)).bind fun _ _ _ _ => of_pure fun _ _ => trivial
      exact hrequired.bind fun k' _ hk' _ => hrest _ (hk.trans hk')

lemma requestBodies {s : Schema Node} (hs : s.content.bound ≤ n) (request : Request) :
    KeepsFresh n (Operation.requestBodies s request) fun _ _ => True := by
  unfold Operation.requestBodies
  split
  · exact of_pure fun _ _ => trivial
  · next node hnode =>
    refine (resolved ((Node.bound_le_of_get? hnode).trans hs)).bind fun k body hk hbody => ?_
    split
    · next m media hmedia =>
      have hbound := (Node.bound_obj_le.1 ((Node.bound_le_of_get? hmedia).trans hbody)).2
      exact addBodies _ _ _ (mediaSchemas_bound hbound)
    · exact of_pure fun _ _ => trivial

lemma addResponse {s : Schema Node} (status : String) (isOnly : Bool) {media : List (String × Node)}
    (h : ∀ e ∈ media, e.2.bound ≤ n) : KeepsFresh n (Operation.addResponse s status isOnly media) fun _ _ => True := by
  induction media generalizing n with
  | nil => exact of_pure fun _ _ => trivial
  | cons e media ih =>
    obtain ⟨he, hmedia⟩ := List.forall_mem_cons.1 h
    exact (registerPart he s _).bind fun k _ hk _ =>
      (ih fun e he => (hmedia e he).trans hk).bind fun _ _ _ _ => of_pure fun _ _ => trivial

lemma addResponses {s : Schema Node} {responses : List (String × Node)} (h : ∀ e ∈ responses, e.2.bound ≤ n) :
    KeepsFresh n (Operation.addResponses s responses) fun _ _ => True := by
  induction responses generalizing n with
  | nil => exact of_pure fun _ _ => trivial
  | cons e responses ih =>
    obtain ⟨he, hresponses⟩ := List.forall_mem_cons.1 h
    refine (resolved he).bind fun k response hk hresponse => ?_
    dsimp only
    split
    · next m media hmedia =>
      have hbound := (Node.bound_obj_le.1 ((Node.bound_le_of_get? hmedia).trans hresponse)).2
      exact (addResponse _ _ (mediaSchemas_bound hbound)).bind fun k' _ hk' _ =>
        (ih fun e he => (hresponses e he).trans (hk.trans hk')).bind fun _ _ _ _ => of_pure fun _ _ => trivial
    · rw [pure_bind]
      exact (ih fun e he => (hresponses e he).trans hk).bind fun _ _ _ _ => of_pure fun _ _ => trivial

lemma bound_responsesOf {s : Schema Node} {e : String × Node} (h : e ∈ Operation.responsesOf s) :
    e.2.bound ≤ s.content.bound := by
  unfold Operation.responsesOf at h
  cases hget : s.content.fields.get? "responses" with
  | none =>
    rw [hget] at h
    cases h
  | some node =>
    rw [hget] at h
    exact (Node.bound_le_of_mem_fields h).trans (Node.bound_le_of_get? hget)

lemma opening {s : Schema Node} (hs : s.content.bound ≤ n) : KeepsFresh n (Operation.opening s) fun _ _ => True :=
  (tell _).bind fun _ _ hk _ => (parameters (hs.trans hk)).bind fun _ _ _ hall => addGroups hall _ _

lemma requests {s : Schema Node} (hs : s.content.bound ≤ n) (draft : Draft) :
    KeepsFresh n (Operation.requests s draft) fun _ _ => True := by
  refine (requestBodies hs draft.request).bind fun k bodies _ _ => ?_
  dsimp only
  split
  · simp only [pure_bind]
    exact (adopt _).bind fun _ _ _ hcontent => (registerPart hcontent s _).bind fun _ _ _ _ => of_pure fun _ _ => trivial
  · rw [pure_bind]
    exact of_pure fun _ _ => trivial

lemma synthesize {s : Schema Node} (hs : s.content.bound ≤ n) : KeepsFresh n (Operation.synthesize s) fun _ _ => True := by
  cases hoperation : s.operation with
  | false =>
    unfold Operation.synthesize
    rw [hoperation]
    exact of_pure fun _ _ => trivial
  | true =>
    rw [Operation.synthesize_eq s hoperation]
    refine (opening hs).bind fun k draft hk _ => (requests (hs.trans hk) draft).bind fun k' _ hk' _ => ?_
    refine (addResponses fun e he => ?_).bind fun _ _ _ _ => of_pure fun _ _ => trivial
    exact (bound_responsesOf he).trans (hs.trans (hk.trans hk'))

/-! ### Resolution -/

lemma openDocument (document : Node) (url : Option String) :
    KeepsFresh n (Action.openDocument document url) fun k s => s.content.bound ≤ k := by
  refine (adopt document).bind fun k content hk hcontent => ?_
  have hschema : KeepsFresh k (Action.lift (Document.toSchema content url)) fun k s => s.content.bound ≤ k :=
    of_lift fun s hs k' hk' => (Document.bound_toSchema hs).trans (hcontent.trans hk')
  exact hschema.bind fun _ s _ hs => (tell _).bind fun _ _ hk' _ => of_pure fun _ hk'' => hs.trans (hk'.trans hk'')

lemma addDocument (document : Node) (url : Option String) :
    KeepsFresh n (Generator.addDocument document url) fun _ _ => True :=
  (openDocument document url).bind fun _ _ _ hs => (register hs).bind fun _ _ _ _ => of_pure fun _ _ => trivial

lemma receive (url : String) (result : Except String Node) : KeepsFresh n (Resolution.receive url result) fun _ _ => True := by
  cases result with
  | error words => exact of_pure fun _ _ => trivial
  | ok document =>
    refine (tell _).bind fun _ _ _ _ => (openDocument document _).bind fun k s hk hs => (register hs).bind fun k' _ hk' _ => ?_
    refine KeepsFresh.bind (P := fun _ _ => True) (fun r hr hn => ?_) fun _ _ _ _ => of_pure fun _ _ => trivial
    refine Yields.of_modify ⟨⟨hr.refs, fun s' hs' => ?_⟩, le_rfl, trivial⟩
    rcases hs' with hs' | hs' | hs'
    · exact hr.stored s' (Or.inl hs')
    · exact hr.stored s' (Or.inr (Or.inl hs'))
    · rcases Table.mem_values_set hs' with rfl | hs'
      · exact hs.trans (hk'.trans hn)
      · exact hr.stored s' (Or.inr (Or.inr hs'))

lemma receiveAll (results : List (String × Except String Node)) :
    KeepsFresh n (Resolution.receiveAll results) fun _ _ => True := by
  induction results generalizing n with
  | nil => exact of_pure fun _ _ => trivial
  | cons e results ih =>
    exact (receive e.1 e.2).bind fun _ _ _ _ => ih.bind fun _ _ _ _ => of_pure fun _ _ => trivial

lemma fetchAll (fetcher : Fetcher) (pending : List String) :
    KeepsFresh n (Resolution.fetchAll fetcher pending) fun _ _ => True := by
  refine of_get.bind fun k r _ _ => ?_
  cases fetcher with
  | none => exact of_pure fun _ _ => trivial
  | some fetch =>
    refine KeepsFresh.bind (P := fun _ _ => True) (fun r' hr' _ => ?_) fun _ _ _ _ => receiveAll _
    exact Yields.of_modify ⟨⟨hr'.refs, hr'.stored⟩, le_rfl, trivial⟩

lemma target (key : Address) : KeepsFresh n (Resolution.target key) fun k s => s.content.bound ≤ k := by
  refine of_get.bind fun k r _ hr => ?_
  split
  · next s hs => exact of_pure fun k' hk' => (hr.1.stored s (Or.inl (Table.mem_values_of_get? hs))).trans (hr.2.trans hk')
  · have hholder : KeepsFresh k (Action.lift (Resolution.holder r key)) fun k e => e.1.content.bound ≤ k := by
      refine of_lift fun e he k' hk' => (hr.1.stored e.1 ?_).trans (hr.2.trans hk')
      exact (Resolution.mem_of_holder he).symm.imp_right Or.inr
    refine hholder.bind fun k₁ e _ he => ?_
    dsimp only
    split_ifs
    · exact of_pure fun k' hk' => he.trans hk'
    · have hpart : KeepsFresh k₁ (Action.lift (Schema.extract r.refs e.1 ("#" ++ e.2) (some key)))
          fun k s => s.content.bound ≤ k :=
        of_lift fun s hs k' hk' => (Schema.bound_extract hs).trans (he.trans hk')
      exact hpart.bind fun _ s _ hs => (register hs).bind fun _ _ hk' _ => of_pure fun _ hk'' => hs.trans (hk'.trans hk'')

lemma targets (keys : List String) : KeepsFresh n (Resolution.targets keys) fun _ _ => True := by
  induction keys generalizing n with
  | nil => exact of_pure fun _ _ => trivial
  | cons key keys ih =>
    refine KeepsFresh.bind (P := fun _ _ => True) (fun r hr hn => ?_) fun _ _ _ _ =>
      ih.bind fun _ _ _ _ => of_pure fun _ _ => trivial
    have htarget := target (n := n) (Address.ofText key) r hr hn
    refine Yields.of_outcome (fun a r' hrun => ?_) fun f r' hrun => ?_
    · split at hrun
      · next s r₁ hs =>
        cases hrun
        obtain ⟨hr₁, hnext, hbound⟩ := htarget.good_of_ok hs
        exact ⟨setTarget hr₁ hbound key, hnext, trivial⟩
      · next f r₁ hf =>
        split_ifs at hrun
        cases hrun
        obtain ⟨hr₁, hnext⟩ := htarget.bad_of_error hf
        exact ⟨hr₁, hnext, trivial⟩
    · split at hrun
      · cases hrun
      · next f' r₁ hf =>
        split at hrun
        · cases hrun
        · cases hrun
          exact htarget.bad_of_error hf

lemma rounds (fetcher : Fetcher) (limit round done : ℕ) :
    KeepsFresh n (Resolution.rounds fetcher limit round done) fun _ _ => True := by
  induction limit generalizing n round done with
  | zero =>
    refine of_get.bind fun _ r _ _ => ?_
    split
    · exact of_pure fun _ _ => trivial
    · exact of_throw
  | succ limit ih =>
    refine of_get.bind fun _ r _ _ => ?_
    dsimp only
    split
    · exact of_pure fun _ _ => trivial
    · refine (tell _).bind fun _ _ _ _ => (fetchAll _ _).bind fun _ _ _ _ => (targets _).bind fun _ _ _ _ => ?_
      split
      · exact ih _ _
      · exact of_throw

lemma resolve (fetcher : Fetcher) : KeepsFresh n (Resolution.resolve fetcher) fun _ _ => True :=
  of_get.bind fun _ _ _ _ => rounds _ _ _ _

end KeepsFresh

/-! ### Calls -/

namespace Call

/-- A call that is given a schema of the registry, if it is given one. -/
def IsOwn (r : Registry) : Call → Prop
  | register s | synthesize s => r.Stores s
  | _ => True

/-- Calls that are given schemas of the registry that is there by then. -/
def AllOwn : List Call → Registry → Prop
  | [], _ => True
  | c :: calls, r => c.IsOwn r ∧ AllOwn calls (c.left r)

lemma isFresh_left {c : Call} {r : Registry} (hc : c.IsOwn r) (hr : r.IsFresh) : (c.left r).IsFresh := by
  have haction : KeepsFresh r.next c.action fun _ _ => True := by
    cases c with
    | document content url =>
      exact (KeepsFresh.addDocument content url).bind fun _ _ _ _ => KeepsFresh.of_pure fun _ _ => trivial
    | register s => exact KeepsFresh.register (hr.stored s hc)
    | addReference a => exact KeepsFresh.addReference a
    | synthesize s => exact (KeepsFresh.synthesize (hr.stored s hc)).bind fun _ _ _ _ => KeepsFresh.of_pure fun _ _ => trivial
    | resolve fetcher => exact (KeepsFresh.resolve fetcher).bind fun _ _ _ _ => KeepsFresh.of_pure fun _ _ => trivial
  have hyields := haction r hr le_rfl
  unfold left
  split
  · next hrun => exact (hyields.good_of_ok hrun).1
  · next hrun => exact (hyields.bad_of_error hrun).1

/-- **Registries are fresh** after all calls that are given schemas of the registry. -/
theorem isFresh_leftAll {calls : List Call} {r : Registry} (hc : AllOwn calls r) (hr : r.IsFresh) :
    (leftAll calls r).IsFresh := by
  induction calls generalizing r with
  | nil => exact hr
  | cons c calls ih => exact ih hc.2 (isFresh_left hc.1 hr)

end Call

end Typings
