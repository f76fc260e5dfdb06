import Typings.Placement
import Typings.Proofs.Ancestry
import Typings.Proofs.Namespace

/-!
The order of placement. Apart from what is told, the namespaces of schemas are a function of the schemas (`namespaceOf`),
and where no two schemas have the same names it is a function of which schemas there are. Main statements:

- `build_twins`: building has the outcome of `namespaceOf`.
- `namespaceOf_perm`: schemas with names of their own may come in any order.
- `namespaceOf_map`: a map that keeps addresses goes along.
-/

namespace Typings.Placement

variable {κ μ : Type}

/-- Put a schema in its place, if it has one. -/
def put (tree : Namespace (Schema κ)) (s : Schema κ) : Except Failure (Namespace (Schema κ)) := do
  let path ← s.address.names
  return if path.isEmpty then tree else tree.insert s path

/-- The namespaces of schemas. -/
def namespaceOf (schemas : List (Schema κ)) : Except Failure (Namespace (Schema κ)) := do
  let tree ← schemas.foldlM put .empty
  if tree.children.isEmpty then throw (.schema .nothingDeclared) else return tree

/-- Schemas with names of their own: two that have the same are one. -/
def NamesDiffer (schemas : List (Schema κ)) : Prop :=
  ∀ s ∈ schemas, ∀ t ∈ schemas, ∀ path, s.address.names = .ok path → t.address.names = .ok path → s = t

/-! ### What is told does not matter -/

lemma place_eq (tree : Namespace (Schema κ)) (path : List String) (s : Schema κ) (notices : List Notice) :
    ∃ notices', place tree path s notices = .ok (tree.insert s path) notices' := by
  unfold place
  cases (tree.find? path).bind (·.leaf) with
  | none => exact ⟨_, rfl⟩
  | some old => exact ⟨_, rfl⟩

lemma placeAll_twins (tree : Namespace (Schema κ)) (schemas : List (Schema κ)) :
    Twins (placeAll tree schemas) (Told.lift (schemas.foldlM put tree)) Eq := by
  induction schemas generalizing tree with
  | nil => exact fun _ _ => .ok rfl
  | cons s schemas ih =>
    rw [List.foldlM_cons, put, bind_assoc, Told.lift_bind, placeAll]
    refine (Told.lift_same _).bind_eq fun path => ?_
    rw [pure_bind]
    split_ifs
    · exact Twins.of_step (fun notices => ⟨_, rfl⟩) (ih tree)
    · exact Twins.of_step (place_eq tree path s) (ih _)

/-- **Building has the outcome of `namespaceOf`**, whatever has been told. -/
theorem build_twins (schemas : List (Schema κ)) : Twins (build schemas) (Told.lift (namespaceOf schemas)) Eq := by
  rw [namespaceOf, Told.lift_bind]
  refine (placeAll_twins .empty schemas).bind_eq fun tree => ?_
  split_ifs
  · exact Twins.of_throw _
  · exact Twins.of_pure rfl

lemma outcome_build (schemas : List (Schema κ)) (notices : List Notice) :
    outcome (build schemas) notices = namespaceOf schemas := by
  rw [(build_twins schemas notices notices).eq]
  cases namespaceOf schemas with
  | ok tree => rfl
  | error f => rfl

/-! ### Maps -/

section Map

variable {g : Schema κ → Schema μ} (hg : ∀ s, (g s).address = s.address)
include hg

lemma put_map (tree : Namespace (Schema κ)) (s : Schema κ) : put (tree.map g) (g s) = (put tree s).map (·.map g) := by
  unfold put
  rw [hg]
  cases s.address.names with
  | error f => rfl
  | ok path =>
    refine congrArg Except.ok ?_
    split_ifs
    · rfl
    · exact (Namespace.map_insert g s path tree).symm

lemma foldlM_put_map (schemas : List (Schema κ)) (tree : Namespace (Schema κ)) :
    (schemas.map g).foldlM put (tree.map g) = (schemas.foldlM put tree).map (·.map g) := by
  induction schemas generalizing tree with
  | nil => rfl
  | cons s schemas ih =>
    rw [List.map_cons, List.foldlM_cons, List.foldlM_cons, put_map hg]
    cases put tree s with
    | error f => rfl
    | ok tree' => exact ih tree'

/-- **A map that keeps addresses goes along.** -/
theorem namespaceOf_map (schemas : List (Schema κ)) : namespaceOf (schemas.map g) = (namespaceOf schemas).map (·.map g) := by
  have hempty : (Namespace.empty : Namespace (Schema μ)) = Namespace.empty.map g := rfl
  unfold namespaceOf
  rw [hempty, foldlM_put_map hg]
  cases schemas.foldlM put Namespace.empty with
  | error f => rfl
  | ok tree =>
    have hchildren : (tree.map g).children.isEmpty = tree.children.isEmpty := by
      rw [Namespace.children_map, Namespace.mapChildren_eq, List.isEmpty_map]
    change (if (tree.map g).children.isEmpty then _ else _) = Except.map _ (if tree.children.isEmpty then _ else _)
    rw [hchildren]
    split_ifs
    · rfl
    · rfl

end Map

/-! ### Permutations -/

lemma names_error_eq {a : Address} {f : Failure} (h : a.names = .error f) : f = .badUrl := by
  unfold Address.names at h
  split at h
  · exact (Except.error.inj h).symm
  · cases h

lemma put_comm {s t : Schema κ} (hne : ∀ path, s.address.names = .ok path → t.address.names = .ok path → s = t)
    (tree : Namespace (Schema κ)) : (put tree s >>= fun tree => put tree t) = put tree t >>= fun tree => put tree s := by
  unfold put
  cases hs : s.address.names with
  | error f =>
    -- which of two failures comes first is not seen, as there is only one kind
    obtain rfl := names_error_eq hs
    cases ht : t.address.names with
    | error f' =>
      obtain rfl := names_error_eq ht
      rfl
    | ok q => rfl
  | ok p =>
    cases ht : t.address.names with
    | error f => rfl
    | ok q =>
      by_cases hpq : p = q
      · obtain rfl := hne p hs (hpq ▸ ht)
        obtain rfl := Except.ok.inj (hs.symm.trans ht)
        rfl
      · refine congrArg Except.ok ?_
        split_ifs
        · rfl
        · rfl
        · rfl
        · exact Namespace.insert_comm (Ne.symm hpq) t s tree

lemma foldlM_put_perm {schemas schemas' : List (Schema κ)} (hperm : schemas.Perm schemas') (hd : NamesDiffer schemas)
    (tree : Namespace (Schema κ)) : schemas.foldlM put tree = schemas'.foldlM put tree := by
  -- on how the one list is permuted into the other; two neighbours change places because their names differ
  induction hperm generalizing tree with
  | nil => rfl
  | cons s _ ih =>
    have hrest := ih fun t ht t' ht' => hd t (List.mem_cons_of_mem _ ht) t' (List.mem_cons_of_mem _ ht')
    rw [List.foldlM_cons, List.foldlM_cons]
    exact bind_congr hrest
  | swap s t schemas =>
    have hcomm := put_comm (hd t List.mem_cons_self s (List.mem_cons_of_mem _ List.mem_cons_self)) tree
    simp only [List.foldlM_cons]
    rw [← bind_assoc, hcomm, bind_assoc]
  | trans hperm _ ih ih' =>
    rw [ih hd, ih' fun s hs t ht => hd s (hperm.mem_iff.2 hs) t (hperm.mem_iff.2 ht)]

/-- **Schemas with names of their own may come in any order.** -/
theorem namespaceOf_perm {schemas schemas' : List (Schema κ)} (hperm : schemas.Perm schemas') (hd : NamesDiffer schemas) :
    namespaceOf schemas = namespaceOf schemas' := by
  rw [namespaceOf, namespaceOf, foldlM_put_perm hperm hd]

end Typings.Placement
