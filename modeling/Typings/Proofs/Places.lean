import Mathlib.Data.List.Dedup
import Mathlib.Data.String.Basic
import Typings.Proofs.Placement

/-!
The tree that schemas are placed in, as a map from paths. The children of each node stand in the order of their names, without
repetition (`IsSorted`), and declaring something keeps this. In such a tree a declaration changes what is found at its own
path alone (`declaredAt_insert`) and adds the nodes on the way there (`isSome_find?_insert`), and a walk goes through the
nodes in the order of their paths (`walkFrom_lt`). Main statement: `Placement.build_isMapOf`.
-/

namespace Typings

namespace Namespace

variable {α : Type}

mutual

/-- The children of each node stand in the order of their names. -/
def IsSorted : Namespace α → Prop
  | node _ children => children.Pairwise (·.1 < ·.1) ∧ AreSorted children

/-- `IsSorted` for a list of children. -/
def AreSorted : List (String × Namespace α) → Prop
  | [] => True
  | (_, c) :: rest => IsSorted c ∧ AreSorted rest

end

lemma areSorted_iff {cs : List (String × Namespace α)} : AreSorted cs ↔ ∀ e ∈ cs, IsSorted e.2 := by
  induction cs with
  | nil => simp [AreSorted]
  | cons e cs ih => rw [AreSorted, ih, List.forall_mem_cons]

lemma isSorted_node {leaf : Option α} {cs : List (String × Namespace α)} :
    IsSorted (node leaf cs) ↔ cs.Pairwise (·.1 < ·.1) ∧ ∀ e ∈ cs, IsSorted e.2 := by
  rw [IsSorted, areSorted_iff]

lemma isSorted_empty : IsSorted (empty : Namespace α) := isSorted_node.2 ⟨List.Pairwise.nil, by simp⟩

/-! ### Entries of sorted lists -/

section Upsert

variable {ν : Type} {name key : String} {f : Option ν → ν} {cs : List (String × ν)}

/-- The entry of a name. -/
def slot? (cs : List (String × ν)) (name : String) : Option ν := (cs.find? (·.1 = name)).map (·.2)

lemma slot?_cons (k : String) (v : ν) (cs : List (String × ν)) (name : String) :
    slot? ((k, v) :: cs) name = if k = name then some v else slot? cs name := by
  unfold slot?
  rw [List.find?_cons]
  by_cases h : k = name <;> simp [h]

lemma slot?_eq_none (h : ∀ e ∈ cs, name < e.1) : slot? cs name = none := by
  unfold slot?
  rw [Option.map_eq_none_iff, List.find?_eq_none]
  intro e he
  have hne : e.1 ≠ name := (h e he).ne'
  simpa using hne

lemma mem_upsert {e : String × ν} (h : e ∈ upsert name f cs) : e.1 = name ∨ e ∈ cs := by
  induction cs with
  | nil => exact Or.inl (by rw [List.mem_singleton.1 h])
  | cons e' cs ih =>
    obtain ⟨k, v⟩ := e'
    rw [upsert] at h
    split_ifs at h with hk hlt
    · rcases List.mem_cons.1 h with rfl | h
      · exact Or.inl hk
      · exact Or.inr (List.mem_cons_of_mem _ h)
    · rcases List.mem_cons.1 h with rfl | h
      · exact Or.inl rfl
      · exact Or.inr h
    · rcases List.mem_cons.1 h with rfl | h
      · exact Or.inr List.mem_cons_self
      · exact (ih h).imp_right (List.mem_cons_of_mem _)

lemma pairwise_upsert (h : cs.Pairwise (·.1 < ·.1)) : (upsert name f cs).Pairwise (·.1 < ·.1) := by
  induction cs with
  | nil => exact List.pairwise_singleton _ _
  | cons e cs ih =>
    obtain ⟨k, v⟩ := e
    obtain ⟨hk, hcs⟩ := List.pairwise_cons.1 h
    rw [upsert]
    split_ifs with heq hlt
    · exact List.pairwise_cons.2 ⟨hk, hcs⟩
    · refine List.pairwise_cons.2 ⟨fun e he => ?_, h⟩
      rcases List.mem_cons.1 he with rfl | he
      · exact hlt
      · exact hlt.trans (hk e he)
    · have hgt : k < name := lt_of_le_of_ne (not_lt.1 hlt) heq
      refine List.pairwise_cons.2 ⟨fun e he => ?_, ih hcs⟩
      rcases mem_upsert he with hname | he
      · exact hname ▸ hgt
      · exact hk e he

/-- A change to an entry is seen under its own name alone. -/
lemma slot?_upsert (h : cs.Pairwise (·.1 < ·.1)) :
    slot? (upsert name f cs) key = if name = key then some (f (slot? cs name)) else slot? cs key := by
  induction cs with
  | nil =>
    rw [upsert, slot?_cons]
    rfl
  | cons e cs ih =>
    obtain ⟨k, v⟩ := e
    obtain ⟨hk, hcs⟩ := List.pairwise_cons.1 h
    by_cases heq : k = name
    · subst heq
      by_cases hkey : k = key
      · simp [upsert, slot?_cons, hkey]
      · simp [upsert, slot?_cons, hkey]
    · by_cases hlt : name < k
      · have hnone : slot? ((k, v) :: cs) name = none :=
          slot?_eq_none (List.forall_mem_cons.2 ⟨hlt, fun e he => hlt.trans (hk e he)⟩)
        rw [upsert, if_neg heq, if_pos hlt, slot?_cons, hnone]
      · rw [upsert, if_neg heq, if_neg hlt, slot?_cons, ih hcs, slot?_cons, slot?_cons, if_neg heq]
        by_cases hkey : name = key
        · rw [if_pos hkey, if_pos hkey, if_neg fun h => heq (h.trans hkey.symm)]
        · rw [if_neg hkey, if_neg hkey]

lemma forall_upsert {P : ν → Prop} (hf : ∀ c, (∀ v, c = some v → P v) → P (f c)) (h : ∀ e ∈ cs, P e.2) :
    ∀ e ∈ upsert name f cs, P e.2 := by
  induction cs with
  | nil => simpa [upsert] using hf none (by simp)
  | cons e cs ih =>
    obtain ⟨k, v⟩ := e
    obtain ⟨hv, hcs⟩ := List.forall_mem_cons.1 h
    rw [upsert]
    split_ifs
    · exact List.forall_mem_cons.2 ⟨hf (some v) (by simpa using hv), hcs⟩
    · exact List.forall_mem_cons.2 ⟨hf none (by simp), h⟩
    · exact List.forall_mem_cons.2 ⟨hv, ih hcs⟩

end Upsert

/-! ### Declarations in sorted trees -/

section Insert

variable {t : Namespace α} {p q : List String}

/-- What is declared at a path. -/
def declaredAt (t : Namespace α) (path : List String) : Option α := (t.find? path).bind (·.leaf)

lemma child?_eq (leaf : Option α) (cs : List (String × Namespace α)) (name : String) :
    (node leaf cs).child? name = slot? cs name := rfl

lemma isSorted_insert (h : IsSorted t) (a : α) (p : List String) : IsSorted (t.insert a p) := by
  induction p generalizing t with
  | nil =>
    obtain ⟨leaf, cs⟩ := t
    exact h
  | cons name p ih =>
    obtain ⟨leaf, cs⟩ := t
    obtain ⟨hcs, hall⟩ := isSorted_node.1 h
    refine isSorted_node.2 ⟨pairwise_upsert hcs, forall_upsert (fun c hc => ih ?_) hall⟩
    cases c with
    | none => exact isSorted_empty
    | some c => exact hc c rfl

/-- The child on the way to the path of a declaration has it inside; the others are as they were. -/
lemma child?_insert (h : IsSorted t) (a : α) (name key : String) (p : List String) :
    (t.insert a (name :: p)).child? key =
      if name = key then some (((t.child? name).getD empty).insert a p) else t.child? key := by
  obtain ⟨leaf, cs⟩ := t
  rw [insert, child?_eq, child?_eq, child?_eq, slot?_upsert (isSorted_node.1 h).1]

lemma isSorted_of_child? {c : Namespace α} {name : String} (h : IsSorted t) (hc : t.child? name = some c) : IsSorted c := by
  obtain ⟨leaf, cs⟩ := t
  obtain ⟨e, he, rfl⟩ := Option.map_eq_some_iff.1 hc
  exact (isSorted_node.1 h).2 e (List.mem_of_find?_eq_some he)

lemma isSorted_getD {name : String} (h : IsSorted t) : IsSorted ((t.child? name).getD empty) := by
  cases hc : t.child? name with
  | none => exact isSorted_empty
  | some c => exact isSorted_of_child? h hc

lemma find?_empty (path : List String) : (empty : Namespace α).find? path = if path = [] then some empty else none := by
  cases path <;> rfl

/-- **A declaration adds the nodes on the way to its path.** -/
theorem isSome_find?_insert (h : IsSorted t) (a : α) (p q : List String) :
    ((t.insert a p).find? q).isSome ↔ (t.find? q).isSome ∨ q <+: p := by
  induction p generalizing t q with
  | nil =>
    obtain ⟨leaf, cs⟩ := t
    cases q with
    | nil => simp [find?]
    | cons key q => simp [insert, find?, child?_eq]
  | cons name p ih =>
    cases q with
    | nil => simp [find?]
    | cons key q =>
      rw [find?, find?, child?_insert h, List.cons_prefix_cons]
      by_cases hkey : name = key
      · subst hkey
        rw [if_pos rfl, Option.bind_some, ih (isSorted_getD h)]
        cases hc : t.child? name with
        | none =>
          rw [Option.getD_none, find?_empty]
          by_cases hq : q = []
          · simp [hq]
          · simp [hq]
        | some c => simp
      · rw [if_neg hkey]
        simp [Ne.symm hkey]

lemma declaredAt_cons (t : Namespace α) (name : String) (path : List String) :
    t.declaredAt (name :: path) = (t.child? name).bind (·.declaredAt path) := by
  rw [declaredAt, find?, Option.bind_assoc]
  rfl

/-- **A declaration is found at its path, and nothing else changes.** -/
theorem declaredAt_insert (h : IsSorted t) (a : α) (p q : List String) :
    (t.insert a p).declaredAt q = if p = q then some a else t.declaredAt q := by
  induction p generalizing t q with
  | nil =>
    obtain ⟨leaf, cs⟩ := t
    cases q with
    | nil => rfl
    | cons key q => rfl
  | cons name p ih =>
    cases q with
    | nil =>
      obtain ⟨leaf, cs⟩ := t
      rfl
    | cons key q =>
      rw [declaredAt_cons, declaredAt_cons, child?_insert h]
      by_cases hkey : name = key
      · subst hkey
        rw [if_pos rfl, Option.bind_some, ih (isSorted_getD h)]
        by_cases hpq : p = q
        · simp [hpq]
        · rw [if_neg hpq, if_neg fun heq => hpq (List.cons.inj heq).2]
          cases t.child? name with
          | none => cases q <;> rfl
          | some c => rfl
      · rw [if_neg hkey, if_neg fun heq => hkey (List.cons.inj heq).1]

end Insert

/-! ### Several declarations -/

section DeclareAll

variable {t : Namespace α} {entries : List (List String × α)}

/-- The tree with several declarations, made one after the other. -/
def declareAll (t : Namespace α) (entries : List (List String × α)) : Namespace α :=
  entries.foldl (fun t e => t.insert e.2 e.1) t

lemma isSorted_declareAll (h : IsSorted t) (entries : List (List String × α)) : IsSorted (t.declareAll entries) := by
  induction entries generalizing t with
  | nil => exact h
  | cons e entries ih => exact ih (isSorted_insert h e.2 e.1)

/-- The nodes are those on the ways to the declarations. -/
lemma isSome_find?_declareAll (h : IsSorted t) (entries : List (List String × α)) (q : List String) :
    ((t.declareAll entries).find? q).isSome ↔ (t.find? q).isSome ∨ ∃ e ∈ entries, q <+: e.1 := by
  induction entries generalizing t with
  | nil => simp [declareAll]
  | cons e entries ih =>
    change (((t.insert e.2 e.1).declareAll entries).find? q).isSome ↔ _
    rw [ih (isSorted_insert h e.2 e.1), isSome_find?_insert h, or_assoc, List.exists_mem_cons_iff]

/-- At each path the last declaration counts. -/
lemma declaredAt_declareAll (h : IsSorted t) (entries : List (List String × α)) (q : List String) :
    (t.declareAll entries).declaredAt q = ((entries.filter (·.1 = q)).getLast?.map (·.2)).or (t.declaredAt q) := by
  induction entries generalizing t with
  | nil => rfl
  | cons e entries ih =>
    change ((t.insert e.2 e.1).declareAll entries).declaredAt q = _
    rw [ih (isSorted_insert h e.2 e.1), declaredAt_insert h, List.filter_cons]
    by_cases hq : e.1 = q
    · rw [if_pos hq, if_pos (by simpa using hq), List.getLast?_cons]
      cases (entries.filter (·.1 = q)).getLast? <;> rfl
    · rw [if_neg hq, if_neg (by simpa using hq)]

end DeclareAll

/-! ### The order of a walk -/

section Walk

variable {t : Namespace α}

lemma lt_append_cons (path : List String) (name : String) (q : List String) : path < path ++ name :: q := by
  induction path with
  | nil => exact List.nil_lt_cons name q
  | cons x path ih => exact List.cons_lt_cons_iff.2 (Or.inr ⟨rfl, ih⟩)

lemma append_cons_lt (path : List String) {name name' : String} (h : name < name') (q q' : List String) :
    path ++ name :: q < path ++ name' :: q' := by
  induction path with
  | nil => exact List.cons_lt_cons_iff.2 (Or.inl h)
  | cons x path ih => exact List.cons_lt_cons_iff.2 (Or.inr ⟨rfl, ih⟩)

lemma slot?_of_mem {ν : Type} {cs : List (String × ν)} {e : String × ν} (h : cs.Pairwise (·.1 < ·.1)) (he : e ∈ cs) :
    slot? cs e.1 = some e.2 := by
  induction cs with
  | nil => cases he
  | cons e' cs ih =>
    obtain ⟨k, v⟩ := e'
    obtain ⟨hk, hcs⟩ := List.pairwise_cons.1 h
    rw [slot?_cons]
    rcases List.mem_cons.1 he with rfl | he
    · rw [if_pos rfl]
    · rw [if_neg (hk e he).ne, ih hcs he]

mutual

/-- What a walk comes to is found at its path. -/
theorem find?_of_mem_walkFrom (path : List String) : ∀ t : Namespace α, IsSorted t → ∀ e ∈ walkFrom path t,
    ∃ q, e.1 = path ++ q ∧ t.find? q = some e.2
  | node leaf cs, h, e, he => by
    rw [walkFrom] at he
    rcases List.mem_cons.1 he with rfl | he
    · exact ⟨[], (List.append_nil path).symm, rfl⟩
    · obtain ⟨c, hc, q, hpath, hq⟩ := find?_of_mem_walkChildren path cs h.2 e he
      refine ⟨c.1 :: q, hpath, ?_⟩
      rw [find?, child?_eq, slot?_of_mem h.1 hc, Option.bind_some, hq]

theorem find?_of_mem_walkChildren (path : List String) : ∀ cs : List (String × Namespace α), AreSorted cs →
    ∀ e ∈ walkChildren path cs, ∃ c ∈ cs, ∃ q, e.1 = path ++ c.1 :: q ∧ c.2.find? q = some e.2
  | [], _, e, he => by
    rw [walkChildren] at he
    cases he
  | (name, c) :: cs, h, e, he => by
    rw [walkChildren] at he
    rcases List.mem_append.1 he with he | he
    · obtain ⟨q, hpath, hq⟩ := find?_of_mem_walkFrom (path ++ [name]) c h.1 e he
      exact ⟨(name, c), List.mem_cons_self, q, by rw [hpath, List.append_assoc, List.singleton_append], hq⟩
    · obtain ⟨c', hc', q, hpath, hq⟩ := find?_of_mem_walkChildren path cs h.2 e he
      exact ⟨c', List.mem_cons_of_mem _ hc', q, hpath, hq⟩

end

lemma mem_walk_iff (h : IsSorted t) {path : List String} {n : Namespace α} : (path, n) ∈ t.walk ↔ t.find? path = some n := by
  constructor
  · intro hmem
    obtain ⟨q, hpath, hq⟩ := find?_of_mem_walkFrom [] t h _ hmem
    obtain rfl : path = q := hpath
    exact hq
  · intro hfind
    exact mem_walkFrom_of_find? [] hfind

mutual

/-- **A walk goes through the nodes in the order of their paths.** -/
theorem walkFrom_lt (path : List String) : ∀ t : Namespace α, IsSorted t → (walkFrom path t).Pairwise (·.1 < ·.1)
  | node leaf cs, h => by
    rw [walkFrom]
    refine List.pairwise_cons.2 ⟨fun e he => ?_, walkChildren_lt path cs h.1 h.2⟩
    obtain ⟨c, -, q, hpath, -⟩ := find?_of_mem_walkChildren path cs h.2 e he
    rw [hpath]
    exact lt_append_cons path c.1 q

theorem walkChildren_lt (path : List String) : ∀ cs : List (String × Namespace α), cs.Pairwise (·.1 < ·.1) → AreSorted cs →
    (walkChildren path cs).Pairwise (·.1 < ·.1)
  | [], _, _ => by
    rw [walkChildren]
    exact List.Pairwise.nil
  | (name, c) :: cs, hcs, h => by
    obtain ⟨hname, hcs⟩ := List.pairwise_cons.1 hcs
    rw [walkChildren]
    refine List.pairwise_append.2 ⟨walkFrom_lt (path ++ [name]) c h.1, walkChildren_lt path cs hcs h.2, ?_⟩
    -- what is inside one child comes before what is inside a later one, by the names of the two
    intro e he e' he'
    obtain ⟨q, hpath, -⟩ := find?_of_mem_walkFrom (path ++ [name]) c h.1 e he
    obtain ⟨c', hc', q', hpath', -⟩ := find?_of_mem_walkChildren path cs h.2 e' he'
    rw [hpath, hpath', List.append_assoc]
    exact append_cons_lt path (hname c' hc') q q'

end

lemma nodup_leafPaths (h : IsSorted t) : (leafPaths t.walk).Nodup := by
  have hlt : (t.walk.filter (·.2.leaf.isSome)).Pairwise (·.1 < ·.1) := (walkFrom_lt [] t h).filter _
  rw [leafPaths, List.Nodup, List.pairwise_map]
  exact hlt.imp fun h => h.ne

lemma mem_leafPaths_walk (h : IsSorted t) {path : List String} : path ∈ leafPaths t.walk ↔ (t.declaredAt path).isSome := by
  rw [declaredAt]
  constructor
  · intro hpath
    obtain ⟨⟨q, n⟩, hmem, rfl⟩ := List.mem_map.1 hpath
    obtain ⟨hwalk, hleaf⟩ := List.mem_filter.1 hmem
    rw [(mem_walk_iff h).1 hwalk]
    exact hleaf
  · intro hleaf
    cases hn : t.find? path with
    | none =>
      rw [hn] at hleaf
      cases hleaf
    | some n =>
      rw [hn] at hleaf
      exact List.mem_map.2 ⟨(path, n), List.mem_filter.2 ⟨(mem_walk_iff h).2 hn, hleaf⟩, rfl⟩

end Walk

end Namespace

namespace Placement

variable {κ : Type}

/-- The path of a schema, if its address can be read. -/
def path? (s : Schema κ) : Option (List String) := s.address.names.toOption

/-- The schemas that have a place, with their paths. -/
def placed (schemas : List (Schema κ)) : List (List String × Schema κ) :=
  schemas.filterMap fun s => ((path? s).filter (· ≠ [])).map fun path => (path, s)

lemma path?_eq_some {s : Schema κ} {path : List String} : path? s = some path ↔ s.address.names = .ok path := by
  unfold path?
  cases s.address.names with
  | error f => simp [Except.toOption]
  | ok p => simp [Except.toOption]

lemma path?_eq_none {s : Schema κ} : path? s = none ↔ s.address.names = .error .badUrl := by
  unfold path?
  cases h : s.address.names with
  | error f => simp [Except.toOption, names_error_eq h]
  | ok p => simp [Except.toOption]

lemma mem_placed {schemas : List (Schema κ)} {path : List String} {s : Schema κ} :
    (path, s) ∈ placed schemas ↔ s ∈ schemas ∧ path? s = some path ∧ path ≠ [] := by
  unfold placed
  rw [List.mem_filterMap]
  constructor
  · rintro ⟨s', hs', h⟩
    obtain ⟨path', hpath', heq⟩ := Option.map_eq_some_iff.1 h
    obtain ⟨rfl, rfl⟩ := Prod.mk.inj heq
    obtain ⟨hsome, hne⟩ := Option.filter_eq_some_iff.1 hpath'
    exact ⟨hs', hsome, by simpa using hne⟩
  · rintro ⟨hs, hsome, hne⟩
    refine ⟨s, hs, ?_⟩
    rw [hsome, Option.filter_some, if_pos (by simpa using hne), Option.map_some]

lemma placed_cons (s : Schema κ) (schemas : List (Schema κ)) :
    placed (s :: schemas) = (((path? s).filter (· ≠ [])).map fun path => (path, s)).toList ++ placed schemas := by
  unfold placed
  rw [List.filterMap_cons]
  cases ((path? s).filter (· ≠ [])).map fun path => (path, s) <;> rfl

/-- The last schema at a path is the last one that is placed there. -/
lemma filter_placed {path : List String} (hne : path ≠ []) (schemas : List (Schema κ)) :
    ((placed schemas).filter (·.1 = path)).map (·.2) = schemas.filter (path? · = some path) := by
  induction schemas with
  | nil => rfl
  | cons s schemas ih =>
    rw [placed_cons, List.filter_append, List.map_append, ih, List.filter_cons]
    cases hs : path? s with
    | none => simp
    | some q =>
      by_cases hq : q = path
      · subst hq
        simp [Option.filter_some, hne]
      · by_cases hempty : q = []
        · simp [Option.filter_some, hempty, Ne.symm hne]
        · simp [Option.filter_some, hempty, hq]

/-! ### The outcome of placing -/

lemma foldlM_put_eq {schemas : List (Schema κ)} (h : ∀ s ∈ schemas, path? s ≠ none) (tree : Namespace (Schema κ)) :
    schemas.foldlM put tree = .ok (tree.declareAll (placed schemas)) := by
  induction schemas generalizing tree with
  | nil => rfl
  | cons s schemas ih =>
    obtain ⟨hs, hrest⟩ := List.forall_mem_cons.1 h
    obtain ⟨path, hpath⟩ := Option.ne_none_iff_exists'.1 hs
    have hput : put tree s = .ok (if path.isEmpty then tree else tree.insert s path) := by
      rw [put, path?_eq_some.1 hpath]
      rfl
    rw [List.foldlM_cons, hput, placed_cons, hpath]
    refine (ih hrest _).trans (congrArg Except.ok ?_)
    cases path with
    | nil => rfl
    | cons name path => rfl

lemma foldlM_put_error {schemas : List (Schema κ)} (h : ∃ s ∈ schemas, path? s = none) (tree : Namespace (Schema κ)) :
    schemas.foldlM put tree = .error .badUrl := by
  induction schemas generalizing tree with
  | nil => simp at h
  | cons s schemas ih =>
    rw [List.foldlM_cons, put]
    cases hs : s.address.names with
    | error f => rw [names_error_eq hs]; rfl
    | ok path =>
      obtain ⟨s', hs', hnone⟩ := h
      rcases List.mem_cons.1 hs' with rfl | hs'
      · rw [path?_eq_none, hs] at hnone
        cases hnone
      · exact ih ⟨s', hs', hnone⟩ _

/-- Nothing is declared only where nothing has a place. -/
lemma isEmpty_children_iff (schemas : List (Schema κ)) :
    (Namespace.empty.declareAll (placed schemas)).children.isEmpty = true ↔ placed schemas = [] := by
  constructor
  · intro hempty
    by_contra hne
    obtain ⟨⟨path, s⟩, he⟩ := List.exists_mem_of_ne_nil _ hne
    obtain ⟨-, -, hpath⟩ := mem_placed.1 he
    obtain ⟨name, rest, rfl⟩ := List.exists_cons_of_ne_nil hpath
    -- the first name of a path that is placed is the name of a child
    have hfind := (Namespace.isSome_find?_declareAll Namespace.isSorted_empty (placed schemas) [name]).2
      (Or.inr ⟨_, he, List.prefix_append [name] rest⟩)
    rw [Namespace.find?, Namespace.child?, List.isEmpty_iff.1 hempty] at hfind
    cases hfind
  · intro hnil
    rw [hnil]
    rfl

variable {schemas : List (Schema κ)}

lemma placed_eq_nil_iff (h : ∀ s ∈ schemas, path? s ≠ none) : placed schemas = [] ↔ ∀ s ∈ schemas, path? s = some [] := by
  rw [List.eq_nil_iff_forall_not_mem]
  constructor
  · intro hnil s hs
    obtain ⟨path, hpath⟩ := Option.ne_none_iff_exists'.1 (h s hs)
    by_contra hne
    exact hnil (path, s) (mem_placed.2 ⟨hs, hpath, fun heq => hne (heq ▸ hpath)⟩)
  · rintro hall ⟨path, s⟩ he
    obtain ⟨hs, hpath, hne⟩ := mem_placed.1 he
    rw [hall s hs] at hpath
    exact hne (Option.some.inj hpath).symm

lemma namespaceOf_eq (h : ∀ s ∈ schemas, path? s ≠ none) : namespaceOf schemas =
    if placed schemas = [] then .error (.schema .nothingDeclared) else .ok (Namespace.empty.declareAll (placed schemas)) := by
  unfold namespaceOf
  rw [foldlM_put_eq h]
  change (if _ then _ else _) = _
  simp only [isEmpty_children_iff]
  rfl

lemma namespaceOf_error (h : ∃ s ∈ schemas, path? s = none) : namespaceOf schemas = .error .badUrl := by
  unfold namespaceOf
  rw [foldlM_put_error h]
  rfl

/-- What is declared at a path is the last schema with that path. -/
lemma declaredAt_declareAll_placed (schemas : List (Schema κ)) (path : List String) :
    (Namespace.empty.declareAll (placed schemas)).declaredAt path =
      if path = [] then none else (schemas.filter (path? · = some path)).getLast? := by
  rw [Namespace.declaredAt_declareAll Namespace.isSorted_empty]
  split_ifs with hpath
  · have hnone : (placed schemas).filter (·.1 = path) = [] := by
      rw [List.filter_eq_nil_iff]
      rintro ⟨q, s⟩ he
      simpa [hpath] using (mem_placed.1 he).2.2
    rw [hnone, hpath]
    rfl
  · rw [← filter_placed hpath, List.getLast?_map]
    cases path with
    | nil => exact absurd rfl hpath
    | cons name path => exact Option.or_none

lemma countLeaves_declareAll_placed (schemas : List (Schema κ)) :
    (Namespace.empty.declareAll (placed schemas)).countLeaves = ((schemas.filterMap path?).filter (· ≠ [])).dedup.length := by
  have hsorted := Namespace.isSorted_declareAll Namespace.isSorted_empty (placed schemas)
  have hcount : (Namespace.empty.declareAll (placed schemas)).countLeaves =
      (Namespace.leafPaths (Namespace.empty.declareAll (placed schemas)).walk).length := by
    rw [Namespace.countLeaves, Namespace.leafPaths, List.length_map]
  rw [hcount]
  -- both are lists of the same paths without repetition
  refine List.Perm.length_eq ((List.perm_ext_iff_of_nodup (Namespace.nodup_leafPaths hsorted) (List.nodup_dedup _)).2 fun path => ?_)
  rw [Namespace.mem_leafPaths_walk hsorted, declaredAt_declareAll_placed, List.mem_dedup, List.mem_filter, List.mem_filterMap]
  by_cases hpath : path = []
  · simp [hpath]
  · simp [hpath]

/-- **A tree as a map from paths** to the schemas with them, of which the last one counts. -/
structure IsMapOf (t : Namespace (Schema κ)) (schemas : List (Schema κ)) : Prop where
  /-- The nodes are those on the ways to the paths of schemas. -/
  nodes : ∀ path, (t.find? path).isSome ↔ ∃ s ∈ schemas, ∃ q, path? s = some q ∧ q ≠ [] ∧ path <+: q
  /-- The root declares nothing, every other node the last schema with its path. -/
  leaves : ∀ path n, t.find? path = some n →
    n.leaf = if path = [] then none else (schemas.filter (path? · = some path)).getLast?
  /-- There are as many declarations as paths. -/
  count : t.countLeaves = ((schemas.filterMap path?).filter (· ≠ [])).dedup.length
  /-- A walk comes to all nodes. -/
  walked : ∀ path n, (path, n) ∈ t.walk ↔ t.find? path = some n
  /-- It goes in the order of their paths: by code point, and a path comes before those that continue it. -/
  ordered : (t.walk.map (·.1)).Pairwise (· < ·)

lemma isMapOf_declareAll_placed (h : placed schemas ≠ []) : IsMapOf (Namespace.empty.declareAll (placed schemas)) schemas where
  nodes path := by
    rw [Namespace.isSome_find?_declareAll Namespace.isSorted_empty]
    constructor
    · rintro (hempty | ⟨⟨q, s⟩, he, hle⟩)
      · -- the root is on the way to anything
        obtain rfl : path = [] := by
          by_contra hne
          rw [Namespace.find?_empty, if_neg hne] at hempty
          cases hempty
        obtain ⟨⟨q, s⟩, he⟩ := List.exists_mem_of_ne_nil _ h
        obtain ⟨hs, hq, hne⟩ := mem_placed.1 he
        exact ⟨s, hs, q, hq, hne, List.nil_prefix⟩
      · obtain ⟨hs, hq, hne⟩ := mem_placed.1 he
        exact ⟨s, hs, q, hq, hne, hle⟩
    · rintro ⟨s, hs, q, hq, hne, hle⟩
      exact Or.inr ⟨(q, s), mem_placed.2 ⟨hs, hq, hne⟩, hle⟩
  leaves path n hn := by
    rw [← declaredAt_declareAll_placed, Namespace.declaredAt, hn, Option.bind_some]
  count := countLeaves_declareAll_placed schemas
  walked path n := Namespace.mem_walk_iff (Namespace.isSorted_declareAll Namespace.isSorted_empty _)
  ordered := by
    rw [List.pairwise_map]
    exact Namespace.walkFrom_lt [] _ (Namespace.isSorted_declareAll Namespace.isSorted_empty _)

/-- **What placing schemas gives.** It fails for want of a declaration exactly if no schema has a name, and because of an address
exactly if there is one that cannot be read. Otherwise it gives the tree that is a map from the paths of the schemas. -/
theorem build_isMapOf (schemas : List (Schema κ)) (notices : List Notice) :
    ((∃ fault, outcome (build schemas) notices = .error (.schema fault)) ↔ ∀ s ∈ schemas, s.address.names = .ok []) ∧
    (outcome (build schemas) notices = .error .badUrl ↔ ∃ s ∈ schemas, ∀ path, s.address.names ≠ .ok path) ∧
    ((∀ s ∈ schemas, ∃ path, s.address.names = .ok path) → (∃ s ∈ schemas, s.address.names ≠ .ok []) →
      ∃ t, outcome (build schemas) notices = .ok t ∧ IsMapOf t schemas) := by
  have hsome : ∀ s : Schema κ, (∃ path, path? s = some path) ↔ path? s ≠ none := fun s => Option.ne_none_iff_exists'.symm
  simp only [outcome_build, ne_eq, ← path?_eq_some]
  by_cases hall : ∀ s ∈ schemas, path? s ≠ none
  · have hread : ¬ ∃ s ∈ schemas, ∀ path, ¬ path? s = some path := by
      rintro ⟨s, hs, hnone⟩
      obtain ⟨path, hpath⟩ := (hsome s).2 (hall s hs)
      exact hnone path hpath
    rw [namespaceOf_eq hall, ← placed_eq_nil_iff hall]
    by_cases hnil : placed schemas = []
    · rw [if_pos hnil]
      refine ⟨⟨fun _ => hnil, fun _ => ⟨_, rfl⟩⟩, ⟨by rintro ⟨⟩, fun h => absurd h hread⟩, ?_⟩
      rintro - ⟨s, hs, hne⟩
      exact absurd ((placed_eq_nil_iff hall).1 hnil s hs) hne
    · rw [if_neg hnil]
      refine ⟨⟨?_, fun h => absurd h hnil⟩, ⟨by rintro ⟨⟩, fun h => absurd h hread⟩, fun _ _ => ?_⟩
      · rintro ⟨fault, h⟩
        cases h
      · exact ⟨_, rfl, isMapOf_declareAll_placed hnil⟩
  · simp only [not_forall, not_not] at hall
    obtain ⟨s, hs, hnone⟩ := hall
    rw [namespaceOf_error ⟨s, hs, hnone⟩]
    refine ⟨⟨?_, fun h => ?_⟩, ⟨fun _ => ⟨s, hs, fun path => by simp [hnone]⟩, fun _ => rfl⟩, fun h => ?_⟩
    · rintro ⟨fault, h⟩
      cases h
    · rw [h s hs] at hnone
      cases hnone
    · obtain ⟨path, hpath⟩ := h s hs
      rw [hpath] at hnone
      cases hnone

/-- Schemas whose paths overlap in all ways: one without a name, one inside another, one on the way to another, and two with one
path. They are numbered as they come. -/
def overlapping : List (Schema Nat) :=
  ["/b#", "/a/x#", "#", "/a#", "/b#/"].zipIdx.map fun e => ⟨.draft07, ⟨e.1⟩, e.2, none, [], false⟩

theorem build_isMapOf_overlapping : ∃ t, outcome (build overlapping) [] = .ok t ∧ IsMapOf t overlapping ∧
    t.countLeaves = 3 ∧ ∀ n, t.find? ["b"] = some n → n.leaf.map (·.content) = some 4 := by
  have hsome : ∀ s ∈ overlapping, (path? s).isSome = true := by decide +kernel
  have hread : ∀ s ∈ overlapping, ∃ path, s.address.names = .ok path := fun s hs =>
    (Option.isSome_iff_exists.1 (hsome s hs)).imp fun _ => path?_eq_some.1
  have hnamed : ∃ s ∈ overlapping, s.address.names ≠ .ok [] :=
    ⟨_, .head _, fun h => absurd (path?_eq_some.2 h) (by decide +kernel)⟩
  obtain ⟨t, ht, hmap⟩ := (build_isMapOf overlapping []).2.2 hread hnamed
  refine ⟨t, ht, hmap, hmap.count.trans (by decide +kernel), fun n hn => ?_⟩
  rw [hmap.leaves _ n hn]
  decide +kernel

/-- **A schema without names is declared nowhere**, not even at the root, whose path is the empty one. -/
theorem build_skips_nameless :
    let schemas : List (Schema Nat) := ["#", "/a#"].zipIdx.map fun e => ⟨.draft07, ⟨e.1⟩, e.2, none, [], false⟩
    ∃ t, outcome (build schemas) [] = .ok t ∧ t.find? [] = some t ∧
      ((schemas.filter (path? · = some [])).getLast?.map (·.content)) = some 0 ∧ t.leaf.map (·.content) = none := by
  intro schemas
  have hrun : ends (build schemas) [] (fun t _ => t.leaf.isNone) = true := by decide +kernel
  obtain ⟨t, notices, ht, hleaf⟩ := exists_of_ends hrun
  refine ⟨t, outcome_of_ok ht, rfl, by decide +kernel, ?_⟩
  rw [Option.isNone_iff_eq_none.1 hleaf]
  rfl

end Placement

end Typings
