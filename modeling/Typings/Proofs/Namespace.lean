import Mathlib.Tactic.Common
import Typings.Namespace

/-!
Trees of namespaces. What holds of everything that is declared in a tree, `Every P`, is kept by declaring something with
`P`, and goes along with a map. Declarations at different paths may be made in either order (`insert_comm`), and a map
goes along with them (`map_insert`). A walk comes to every node that a path leads to (`mem_walkFrom_of_find?`), and what is
declared at a path is found there (`find?_insert`).
-/

namespace Typings.Namespace

variable {α β : Type}

mutual

/-- Everything that is declared satisfies `P`. -/
def Every (P : α → Prop) : Namespace α → Prop
  | node leaf children => (∀ a, leaf = some a → P a) ∧ EveryIn P children

/-- `Every` for a list of children. -/
def EveryIn (P : α → Prop) : List (String × Namespace α) → Prop
  | [] => True
  | (_, c) :: rest => Every P c ∧ EveryIn P rest

end

variable {P : α → Prop}

lemma every_empty : Every P empty := ⟨nofun, trivial⟩

lemma everyIn_upsert {f : Option (Namespace α) → Namespace α} (hf : ∀ c, (∀ t, c = some t → Every P t) → Every P (f c))
    (name : String) {cs : List (String × Namespace α)} (h : EveryIn P cs) : EveryIn P (upsert name f cs) := by
  induction cs with
  | nil => exact ⟨hf none nofun, trivial⟩
  | cons e cs ih =>
    obtain ⟨k, t⟩ := e
    rw [upsert]
    split_ifs
    · refine ⟨hf (some t) ?_, h.2⟩
      rintro _ ⟨⟩
      exact h.1
    · exact ⟨hf none nofun, h⟩
    · exact ⟨h.1, ih h.2⟩

lemma every_insert {a : α} (ha : P a) (path : List String) {t : Namespace α} (h : Every P t) :
    Every P (t.insert a path) := by
  induction path generalizing t with
  | nil =>
    obtain ⟨leaf, cs⟩ := t
    refine ⟨?_, h.2⟩
    rintro _ ⟨⟩
    exact ha
  | cons name path ih =>
    obtain ⟨leaf, cs⟩ := t
    refine ⟨h.1, everyIn_upsert (fun c hc => ih ?_) name h.2⟩
    cases c with
    | none => exact every_empty
    | some t => exact hc t rfl

mutual

theorem every_map {Q : β → Prop} {f : α → β} (hf : ∀ a, P a → Q (f a)) : ∀ t : Namespace α, Every P t → Every Q (t.map f)
  | node leaf children, h => by
    refine ⟨?_, everyIn_map hf children h.2⟩
    intro b hb
    obtain ⟨a, ha, rfl⟩ := Option.map_eq_some_iff.1 hb
    exact hf a (h.1 a ha)

theorem everyIn_map {Q : β → Prop} {f : α → β} (hf : ∀ a, P a → Q (f a)) :
    ∀ cs : List (String × Namespace α), EveryIn P cs → EveryIn Q (mapChildren f cs)
  | [], _ => trivial
  | (_, c) :: rest, h => ⟨every_map hf c h.1, everyIn_map hf rest h.2⟩

end

/-! ### The order of declarations -/

section Upsert

variable {ν : Type} {name name' : String} {f g : Option ν → ν}

/-- Two changes to one entry are one change. -/
lemma upsert_upsert (cs : List (String × ν)) : upsert name f (upsert name g cs) = upsert name (fun c => f (some (g c))) cs := by
  induction cs with
  | nil => simp [upsert]
  | cons e cs ih =>
    obtain ⟨k, v⟩ := e
    by_cases hk : k = name
    · simp [upsert, hk]
    · by_cases hlt : name < k
      · simp [upsert, hk, hlt]
      · simp [upsert, hk, hlt, ih]

/-- Changes to two entries may be made in either order. -/
lemma upsert_comm (hne : name ≠ name') (cs : List (String × ν)) :
    upsert name f (upsert name' g cs) = upsert name' g (upsert name f cs) := by
  induction cs with
  | nil =>
    simp only [upsert]
    grind
  | cons e cs ih =>
    -- each of the names stands at the entry, before it or behind it
    obtain ⟨k, v⟩ := e
    simp only [upsert]
    grind [upsert]

end Upsert

/-- **Declarations at two paths may be made in either order.** -/
theorem insert_comm {p q : List String} (hne : p ≠ q) (a b : α) (t : Namespace α) :
    (t.insert b q).insert a p = (t.insert a p).insert b q := by
  induction p generalizing q t with
  | nil =>
    obtain ⟨leaf, cs⟩ := t
    cases q with
    | nil => exact absurd rfl hne
    | cons name q => simp [insert]
  | cons name p ih =>
    obtain ⟨leaf, cs⟩ := t
    cases q with
    | nil => simp [insert]
    | cons name' q =>
      by_cases hname : name = name'
      · subst hname
        have hpq : p ≠ q := fun h => hne (h ▸ rfl)
        simp only [insert, upsert_upsert, Option.getD_some, ih hpq]
      · simp only [insert, upsert_comm hname]

/-! ### Maps -/

section Map

variable {γ : Type} (f : α → β)

lemma mapChildren_eq (cs : List (String × Namespace α)) : mapChildren f cs = cs.map fun e => (e.1, e.2.map f) := by
  induction cs with
  | nil => rfl
  | cons e cs ih => simp [mapChildren, ih]

lemma children_map (t : Namespace α) : (t.map f).children = mapChildren f t.children := by
  obtain ⟨leaf, cs⟩ := t
  rfl

mutual

theorem map_map (g : β → γ) : ∀ t : Namespace α, (t.map f).map g = t.map (g ∘ f)
  | node leaf children => by
    rw [map, map, map, mapChildren_mapChildren g children, Option.map_map]

theorem mapChildren_mapChildren (g : β → γ) : ∀ cs : List (String × Namespace α),
    mapChildren g (mapChildren f cs) = mapChildren (g ∘ f) cs
  | [] => rfl
  | (_, c) :: rest => by
    rw [mapChildren, mapChildren, mapChildren, map_map g c, mapChildren_mapChildren g rest]

end

lemma mapChildren_upsert (name : String) {h : Option (Namespace α) → Namespace α} {h' : Option (Namespace β) → Namespace β}
    (hh : ∀ c, (h c).map f = h' (c.map (map f))) (cs : List (String × Namespace α)) :
    mapChildren f (upsert name h cs) = upsert name h' (mapChildren f cs) := by
  induction cs with
  | nil => simp [upsert, mapChildren, hh]
  | cons e cs ih =>
    obtain ⟨k, c⟩ := e
    simp only [upsert, mapChildren]
    split_ifs
    · simp [mapChildren, hh]
    · simp [mapChildren, hh]
    · simp [mapChildren, ih]

/-- **A map goes along with declarations.** -/
theorem map_insert (a : α) (p : List String) (t : Namespace α) : (t.insert a p).map f = (t.map f).insert (f a) p := by
  induction p generalizing t with
  | nil =>
    obtain ⟨leaf, cs⟩ := t
    rfl
  | cons name p ih =>
    obtain ⟨leaf, cs⟩ := t
    have hchild : ∀ c : Option (Namespace α),
        ((c.getD empty).insert a p).map f = ((c.map (map f)).getD empty).insert (f a) p := by
      intro c
      cases c with
      | none => exact ih empty
      | some c => exact ih c
    exact congrArg (node (leaf.map f)) (mapChildren_upsert f name hchild cs)

lemma child?_map (t : Namespace α) (name : String) : (t.map f).child? name = (t.child? name).map (map f) := by
  rw [child?, child?, children_map, mapChildren_eq, List.find?_map, Option.map_map, Option.map_map]
  rfl

lemma find?_map (path : List String) (t : Namespace α) : (t.map f).find? path = (t.find? path).map (map f) := by
  induction path generalizing t with
  | nil => rfl
  | cons name path ih =>
    rw [find?, find?, child?_map]
    cases t.child? name with
    | none => rfl
    | some c => exact ih c

end Map

/-! ### Walks -/

/-- The paths of the nodes that declare something. -/
def leafPaths (nodes : List (List String × Namespace α)) : List (List String) := (nodes.filter (·.2.leaf.isSome)).map (·.1)

lemma leafPaths_append (nodes others : List (List String × Namespace α)) :
    leafPaths (nodes ++ others) = leafPaths nodes ++ leafPaths others := by
  simp only [leafPaths, List.filter_append, List.map_append]

lemma leafPaths_walkFrom (path : List String) (leaf : Option α) (children : List (String × Namespace α)) :
    leafPaths (walkFrom path (.node leaf children)) =
      leafPaths [(path, .node leaf children)] ++ leafPaths (walkChildren path children) := by
  rw [walkFrom]
  exact leafPaths_append [_] _

lemma walkFrom_subset (path : List String) {name : String} {child : Namespace α} {children : List (String × Namespace α)}
    (h : (name, child) ∈ children) :
    walkFrom (path ++ [name]) child ⊆ walkChildren path children := by
  induction children with
  | nil => cases h
  | cons e children ih =>
    obtain ⟨name', child'⟩ := e
    rw [walkChildren]
    rcases List.mem_cons.1 h with h | h
    · cases h
      exact List.subset_append_left _ _
    · exact List.subset_append_of_subset_right _ (ih h)

/-- A walk comes to every node that a path leads to. -/
lemma mem_walkFrom_of_find? (path : List String) {rest : List String} {t node : Namespace α} (h : t.find? rest = some node) :
    (path ++ rest, node) ∈ walkFrom path t := by
  induction rest generalizing path t with
  | nil =>
    cases h
    obtain ⟨leaf, children⟩ := node
    rw [List.append_nil, walkFrom]
    exact List.mem_cons_self
  | cons name rest ih =>
    obtain ⟨leaf, children⟩ := t
    obtain ⟨child, hchild, hrest⟩ := Option.bind_eq_some_iff.1 h
    obtain ⟨⟨name', child'⟩, hfind, rfl⟩ := Option.map_eq_some_iff.1 hchild
    obtain rfl : name' = name := by simpa using List.find?_some hfind
    have hmem := walkFrom_subset path (List.mem_of_find?_eq_some hfind) (ih (path ++ [name']) hrest)
    rw [List.append_assoc] at hmem
    rw [walkFrom]
    exact List.mem_cons_of_mem _ hmem

lemma mem_leafPaths {t node : Namespace α} {path : List String} (hne : path ≠ []) (h : t.find? path = some node)
    (hleaf : node.leaf.isSome = true) : path ∈ leafPaths (walkChildren [] t.children) := by
  obtain ⟨leaf, children⟩ := t
  have hmem := mem_walkFrom_of_find? [] h
  rw [List.nil_append, walkFrom] at hmem
  rcases List.mem_cons.1 hmem with hroot | hmem
  · exact absurd (Prod.mk.inj hroot).1 hne
  · exact List.mem_map.2 ⟨_, List.mem_filter.2 ⟨hmem, hleaf⟩, rfl⟩

/-! ### Looking up what was declared -/

lemma find?_upsert {ν : Type} (name : String) (f : Option ν → ν) (cs : List (String × ν)) :
    ∃ c, (upsert name f cs).find? (·.1 = name) = some (name, f c) := by
  induction cs with
  | nil => exact ⟨none, by simp [upsert]⟩
  | cons e cs ih =>
    obtain ⟨k, v⟩ := e
    rw [upsert]
    split_ifs with hk hlt
    · exact ⟨some v, by simp [hk]⟩
    · exact ⟨none, by simp⟩
    · obtain ⟨c, hc⟩ := ih
      exact ⟨c, by rw [List.find?_cons_of_neg (by simpa using hk), hc]⟩

/-- What is declared at a path is found there. -/
lemma find?_insert (a : α) (path : List String) (t : Namespace α) :
    ∃ node, (t.insert a path).find? path = some node ∧ node.leaf = some a := by
  induction path generalizing t with
  | nil =>
    obtain ⟨leaf, children⟩ := t
    exact ⟨_, rfl, rfl⟩
  | cons name path ih =>
    obtain ⟨leaf, children⟩ := t
    obtain ⟨c, hc⟩ := find?_upsert name (fun c => insert a path (c.getD empty)) children
    obtain ⟨node, hnode, hleaf⟩ := ih (c.getD empty)
    refine ⟨node, ?_, hleaf⟩
    rw [insert, find?, child?]
    change (Option.map _ (List.find? _ (upsert name _ children))).bind _ = _
    rw [hc]
    exact hnode

lemma insert_insert (a b : α) (path : List String) (t : Namespace α) : (t.insert a path).insert b path = t.insert b path := by
  induction path generalizing t with
  | nil =>
    obtain ⟨leaf, children⟩ := t
    rfl
  | cons name path ih =>
    obtain ⟨leaf, children⟩ := t
    simp only [insert, upsert_upsert, Option.getD_some, ih]

end Typings.Namespace
