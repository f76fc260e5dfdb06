import Mathlib.Data.List.Basic
import Mathlib.Tactic.Common
import Typings.Table

/-!
Reading tables after changing them. Writing a key changes the value of that key alone, keeps all keys, and brings no value
but the one that is written; removing a key removes that key alone; writing one table over another brings nothing that
neither of them has.
-/

namespace Typings.Table

variable {κ α : Type} [DecidableEq κ] {t : Table κ α} {k key : κ} {v w : α}

/-! ### Reading -/

@[simp] lemma get?_nil (key : κ) : get? ([] : Table κ α) key = none := rfl

lemma get?_cons (k : κ) (w : α) (t : Table κ α) (key : κ) :
    get? ((k, w) :: t) key = if k = key then some w else get? t key := rfl

lemma mem_of_get? (h : t.get? key = some v) : (key, v) ∈ t := by
  induction t with
  | nil => cases h
  | cons e t ih =>
    obtain ⟨k, w⟩ := e
    rw [get?_cons] at h
    split_ifs at h with hk
    · cases h
      exact hk ▸ List.mem_cons_self
    · exact List.mem_cons_of_mem _ (ih h)

lemma mem_values_of_get? (h : t.get? key = some v) : v ∈ t.values := List.mem_map_of_mem (mem_of_get? h)

lemma mem_keys_of_get? (h : t.get? key = some v) : key ∈ t.keys := List.mem_map_of_mem (mem_of_get? h)

lemma has_iff : t.has key = true ↔ ∃ v, t.get? key = some v := Option.isSome_iff_exists

lemma has_iff_mem_keys : t.has key = true ↔ key ∈ t.keys := by
  constructor
  · intro h
    obtain ⟨v, hv⟩ := has_iff.1 h
    exact mem_keys_of_get? hv
  · intro h
    induction t with
    | nil => cases h
    | cons e t ih =>
      obtain ⟨k, w⟩ := e
      simp only [has, get?_cons]
      split_ifs with hk
      · rfl
      · rcases List.mem_cons.1 h with h | h
        · exact absurd h.symm hk
        · exact ih h

/-! ### Writing -/

lemma get?_set (t : Table κ α) (k : κ) (v : α) (key : κ) :
    (t.set k v).get? key = if k = key then some v else t.get? key := by
  induction t with
  | nil => rfl
  | cons e t ih =>
    obtain ⟨l, w⟩ := e
    simp only [set]
    split_ifs with h₁ h₂ h₂
    · rw [get?_cons, if_pos (h₁.trans h₂)]
    · rw [get?_cons, get?_cons, if_neg (h₁ ▸ h₂), if_neg (h₁ ▸ h₂)]
    · rw [get?_cons, if_neg (fun h => h₁ (h.trans h₂.symm)), ih, if_pos h₂]
    · rw [get?_cons, get?_cons, ih, if_neg h₂]

@[simp] lemma get?_set_self (t : Table κ α) (k : κ) (v : α) : (t.set k v).get? k = some v := by
  rw [get?_set, if_pos rfl]

lemma get?_set_of_ne (h : k ≠ key) : (t.set k v).get? key = t.get? key := by
  rw [get?_set, if_neg h]

lemma has_set : (t.set k v).has key = true ↔ k = key ∨ t.has key = true := by
  simp only [has, get?_set]
  split_ifs with h
  · simp [h]
  · simp [h]

lemma has_set_of_has (h : t.has key = true) : (t.set k v).has key = true := has_set.2 (Or.inr h)

lemma mem_set {e : κ × α} (h : e ∈ t.set k v) : e = (k, v) ∨ e ∈ t := by
  induction t with
  | nil => exact Or.inl (List.mem_singleton.1 h)
  | cons e' t ih =>
    obtain ⟨l, u⟩ := e'
    simp only [set] at h
    split_ifs at h with hl
    · rcases List.mem_cons.1 h with h | h
      · exact Or.inl (hl ▸ h)
      · exact Or.inr (List.mem_cons_of_mem _ h)
    · rcases List.mem_cons.1 h with h | h
      · exact Or.inr (h ▸ List.mem_cons_self)
      · exact (ih h).imp_right (List.mem_cons_of_mem _)

lemma mem_values_set (h : w ∈ (t.set k v).values) : w = v ∨ w ∈ t.values := by
  obtain ⟨e, he, rfl⟩ := List.mem_map.1 h
  rcases mem_set he with rfl | he
  · exact Or.inl rfl
  · exact Or.inr (List.mem_map_of_mem he)

lemma keys_set (t : Table κ α) (k : κ) (v : α) : (t.set k v).keys = if k ∈ t.keys then t.keys else t.keys ++ [k] := by
  induction t with
  | nil => rfl
  | cons e t ih =>
    obtain ⟨l, u⟩ := e
    by_cases h : l = k
    · subst h
      simp [set, keys]
    · have hcons : k ∈ keys ((l, u) :: t) ↔ k ∈ keys t := by
        simp [keys, Ne.symm h]
      rw [set, if_neg h]
      change l :: keys (set t k v) = _
      rw [ih]
      simp only [hcons]
      split_ifs <;> rfl

lemma mem_keys_set (h : key ∈ (t.set k v).keys) : key = k ∨ key ∈ t.keys := by
  rw [keys_set] at h
  split_ifs at h
  · exact Or.inr h
  · exact (List.mem_append.1 h).symm.imp_left List.mem_singleton.1

lemma nodup_keys_set (h : t.keys.Nodup) (k : κ) (v : α) : (t.set k v).keys.Nodup := by
  rw [keys_set]
  split_ifs with hk
  · exact h
  · refine List.nodup_append.2 ⟨h, List.pairwise_singleton _ _, fun a ha b hb => ?_⟩
    rw [List.mem_singleton.1 hb]
    exact fun e => hk (e ▸ ha)

lemma set_of_not_mem (h : k ∉ t.keys) (v : α) : t.set k v = t ++ [(k, v)] := by
  induction t with
  | nil => rfl
  | cons e t ih =>
    obtain ⟨l, u⟩ := e
    have hl : l ≠ k := fun e => h (e ▸ List.mem_cons_self)
    have ht : k ∉ keys t := fun hmem => h (List.mem_cons_of_mem _ hmem)
    rw [set, if_neg hl, ih ht]
    rfl

lemma set_of_get?_eq_some (h : t.get? key = some v) :
    t.set key v = t := by
  induction t with
  | nil => cases h
  | cons e t ih =>
    obtain ⟨k, w⟩ := e
    rw [get?_cons] at h
    rw [set]
    split_ifs at h ⊢
    · cases h
      rfl
    · rw [ih h]

/-- In a table without repeated keys, what stands under a key is found. -/
lemma get?_of_mem (hnodup : t.keys.Nodup) (h : (key, v) ∈ t) : t.get? key = some v := by
  induction t with
  | nil => cases h
  | cons e t ih =>
    obtain ⟨l, u⟩ := e
    obtain ⟨hl, ht⟩ := List.nodup_cons.1 hnodup
    rw [get?_cons]
    rcases List.mem_cons.1 h with h | h
    · cases h
      rw [if_pos rfl]
    · rw [if_neg, ih ht h]
      rintro rfl
      exact hl (List.mem_map.2 ⟨_, h, rfl⟩)

lemma get?_map {β : Type} (t : Table κ α) (f : κ → α → β) (key : κ) :
    get? (t.map fun e => (e.1, f e.1 e.2)) key = (t.get? key).map (f key) := by
  induction t with
  | nil => rfl
  | cons e t ih =>
    obtain ⟨k, x⟩ := e
    rw [List.map_cons, get?_cons, get?_cons, ih]
    split_ifs with h
    · rw [h, Option.map_some]
    · rfl

/-! ### Removing and uniting -/

lemma get?_erase (t : Table κ α) (k key : κ) : (t.erase k).get? key = if k = key then none else t.get? key := by
  induction t with
  | nil => rw [erase, get?_nil, ite_self]
  | cons e t ih =>
    obtain ⟨k', w⟩ := e
    by_cases hk : k' = k
    · subst hk
      rw [erase, if_pos rfl, ih, get?_cons]
      split_ifs <;> rfl
    · rw [erase, if_neg hk, get?_cons, get?_cons, ih]
      by_cases hkey : k' = key
      · rw [if_pos hkey, if_pos hkey, if_neg fun h => hk (hkey.trans h.symm)]
      · rw [if_neg hkey, if_neg hkey]

lemma erase_of_get?_eq_none (h : t.get? key = none) :
    t.erase key = t := by
  induction t with
  | nil => rfl
  | cons e t ih =>
    obtain ⟨k, v⟩ := e
    rw [get?_cons] at h
    split_ifs at h with hk
    rw [erase, if_neg hk, ih h]

/-- The entries that count are those that are found. -/
lemma mem_entries : (key, v) ∈ t.entries ↔ t.get? key = some v := by
  induction t with
  | nil => simp [entries]
  | cons e t ih =>
    obtain ⟨k, w⟩ := e
    rw [entries, List.mem_cons, List.mem_filter, ih, get?_cons, Prod.mk.injEq]
    by_cases hk : k = key
    · subst hk
      simp [eq_comm]
    · simp [hk, Ne.symm hk]

lemma get?_overlay {s : List (κ × α)} (h : (overlay t s).get? key = some v) : (key, v) ∈ s ∨ t.get? key = some v := by
  induction s generalizing t with
  | nil => exact Or.inr h
  | cons e s ih =>
    obtain ⟨k, w⟩ := e
    rcases ih h with hs | hset
    · exact Or.inl (List.mem_cons_of_mem _ hs)
    · rw [get?_set] at hset
      split_ifs at hset with hk
      · cases hset
        exact Or.inl (hk ▸ List.mem_cons_self)
      · exact Or.inr hset

lemma mem_values_overlay {s : List (κ × α)} (h : w ∈ (overlay t s).values) : w ∈ s.map (·.2) ∨ w ∈ t.values := by
  induction s generalizing t with
  | nil => exact Or.inr h
  | cons e s ih =>
    rcases ih h with hs | hset
    · exact Or.inl (List.mem_cons_of_mem _ hs)
    · rcases mem_values_set hset with rfl | ht
      · exact Or.inl List.mem_cons_self
      · exact Or.inr ht

lemma mem_values_of_mem_entries (h : w ∈ t.entries.map (·.2)) : w ∈ t.values := by
  obtain ⟨⟨k, v⟩, he, rfl⟩ := List.mem_map.1 h
  exact mem_values_of_get? (mem_entries.1 he)

lemma nodup_keys_entries (t : Table κ α) : (keys (entries t)).Nodup := by
  induction t with
  | nil => exact List.nodup_nil
  | cons e t ih =>
    obtain ⟨k, w⟩ := e
    rw [entries]
    refine List.nodup_cons.2 ⟨fun hk => ?_, (List.filter_sublist.map _).nodup ih⟩
    obtain ⟨e, he, hek⟩ := List.mem_map.1 hk
    simpa [hek] using (List.mem_filter.1 he).2

@[simp] lemma get?_entries (t : Table κ α) (key : κ) : get? t.entries key = t.get? key := by
  cases h : t.get? key with
  | some v => exact get?_of_mem (nodup_keys_entries t) (mem_entries.2 h)
  | none =>
    cases h' : get? t.entries key with
    | none => rfl
    | some v => rw [mem_entries.1 (mem_of_get? h')] at h; cases h

lemma get?_eq_none (h : key ∉ t.keys) : t.get? key = none := by
  rw [← has_iff_mem_keys, has, Bool.not_eq_true, Option.isSome_eq_false_iff] at h
  exact Option.isNone_iff_eq_none.1 h

/-- What is written over a table counts before what the table has. -/
lemma get?_overlay_of_nodup {s : List (κ × α)} (hs : (keys s).Nodup) (t : Table κ α) (key : κ) :
    (overlay t s).get? key = (get? s key).or (t.get? key) := by
  induction s generalizing t with
  | nil => rfl
  | cons e s ih =>
    obtain ⟨k, w⟩ := e
    obtain ⟨hk, hs⟩ := List.nodup_cons.1 hs
    rw [overlay, List.foldl_cons]
    change get? (overlay (t.set k w) s) key = _
    rw [ih hs, get?_set, get?_cons]
    by_cases h : k = key
    · subst h
      rw [if_pos rfl, if_pos rfl, get?_eq_none hk]
      rfl
    · rw [if_neg h, if_neg h]

lemma nodup_keys_overlay (h : t.keys.Nodup) (s : List (κ × α)) : (overlay t s).keys.Nodup := by
  induction s generalizing t with
  | nil => exact h
  | cons e s ih => exact ih (nodup_keys_set h e.1 e.2)

lemma entries_of_nodup (h : t.keys.Nodup) : t.entries = t := by
  induction t with
  | nil => rfl
  | cons e t ih =>
    obtain ⟨k, v⟩ := e
    obtain ⟨hk, ht⟩ := List.nodup_cons.1 h
    rw [entries, ih ht, List.filter_eq_self.2]
    intro e he
    have hne : e.1 ≠ k := fun heq => hk (heq ▸ List.mem_map.2 ⟨e, he, rfl⟩)
    simpa using hne

/-- The keys of a table that is written over another come behind those that are there. -/
lemma keys_overlay {s : List (κ × α)} (hs : (keys s).Nodup) (t : Table κ α) :
    (overlay t s).keys = t.keys ++ (keys s).filter (· ∉ t.keys) := by
  induction s generalizing t with
  | nil => simp [overlay, keys]
  | cons e s ih =>
    obtain ⟨k, v⟩ := e
    obtain ⟨hk, hs⟩ := List.nodup_cons.1 hs
    change (overlay (t.set k v) s).keys = t.keys ++ (k :: keys s).filter (· ∉ t.keys)
    rw [ih hs, keys_set, List.filter_cons]
    by_cases hmem : k ∈ t.keys
    · simp [hmem]
    · have hne : ∀ key ∈ keys s, key ≠ k := fun key hkey heq => hk (heq ▸ hkey)
      simp only [hmem, if_false, not_false_eq_true, decide_true, if_true, List.append_assoc, List.singleton_append]
      refine congrArg (t.keys ++ k :: ·) (List.filter_congr fun key hkey => ?_)
      simp [hne key hkey]

/-- A table without repeated keys is told by its keys, in order, and what stands under them. -/
lemma ext_get? {t s : Table κ α} (ht : t.keys.Nodup) (hkeys : t.keys = s.keys) (h : ∀ key, t.get? key = s.get? key) : t = s := by
  induction t generalizing s with
  | nil =>
    cases s with
    | nil => rfl
    | cons e s => cases hkeys
  | cons e t ih =>
    obtain ⟨k, v⟩ := e
    cases s with
    | nil => cases hkeys
    | cons e' s =>
      obtain ⟨k', v'⟩ := e'
      obtain ⟨rfl, hrest⟩ : k = k' ∧ keys t = keys s := List.cons.inj hkeys
      obtain ⟨hk, ht⟩ := List.nodup_cons.1 ht
      have hv := h k
      rw [get?_cons, if_pos rfl, get?_cons, if_pos rfl] at hv
      obtain rfl := Option.some.inj hv
      rw [ih ht hrest]
      intro key
      by_cases hkey : k = key
      · subst hkey
        rw [get?_eq_none hk, get?_eq_none (t := s) (hrest ▸ hk)]
      · have hget := h key
        rwa [get?_cons, if_neg hkey, get?_cons, if_neg hkey] at hget

lemma overlay_assoc {t s u : Table κ α} (ht : t.keys.Nodup) (hs : s.keys.Nodup) (hu : u.keys.Nodup) :
    overlay (overlay t s) u = overlay t (overlay s u) := by
  have hsu := nodup_keys_overlay hs u
  refine ext_get? (nodup_keys_overlay (nodup_keys_overlay ht s) u) ?_ fun key => ?_
  · rw [keys_overlay hu, keys_overlay hs, keys_overlay hsu, keys_overlay hu, List.filter_append, List.filter_filter,
      List.append_assoc]
    refine congrArg (fun l => t.keys ++ (_ ++ l)) (List.filter_congr fun key _ => ?_)
    simp
    grind
  · rw [get?_overlay_of_nodup hu, get?_overlay_of_nodup hs, get?_overlay_of_nodup hsu, get?_overlay_of_nodup hu, Option.or_assoc]

/-- Nothing changes where a table has all entries that are written. -/
lemma overlay_eq_self {t : Table κ α} {s : List (κ × α)} (h : ∀ e ∈ s, t.get? e.1 = some e.2) : overlay t s = t := by
  induction s with
  | nil => rfl
  | cons e s ih =>
    obtain ⟨he, hs⟩ := List.forall_mem_cons.1 h
    change overlay (t.set e.1 e.2) s = t
    rw [set_of_get?_eq_some he, ih hs]

/-! ### Names in the order in which they are first seen -/

lemma eraseDups_filter (p : κ → Bool) (l : List κ) : (l.filter p).eraseDups = l.eraseDups.filter p := by
  induction hn : l.length using Nat.strongRecOn generalizing l with
  | _ n ih =>
    cases l with
    | nil => rfl
    | cons a l =>
      have hlt : (l.filter fun b => !b == a).length < n := by
        have := List.length_filter_le (fun b => !b == a) l
        simp only [List.length_cons] at hn
        omega
      have hrest := ih _ hlt (l.filter fun b => !b == a) rfl
      rw [List.eraseDups_cons, List.filter_cons, List.filter_cons, ← hrest]
      by_cases ha : p a
      · rw [if_pos ha, if_pos ha, List.eraseDups_cons, List.filter_filter, List.filter_filter]
        simp only [Bool.and_comm]
      · rw [if_neg ha, if_neg ha, List.filter_filter]
        congr 1
        refine List.filter_congr fun b _ => ?_
        by_cases hb : b = a
        · subst hb
          simp [ha]
        · simp [hb]

lemma eraseDups_of_nodup {l : List κ} (h : l.Nodup) : l.eraseDups = l := by
  induction l with
  | nil => rfl
  | cons a l ih =>
    obtain ⟨ha, hl⟩ := List.nodup_cons.1 h
    have hfilter : (l.filter fun b => !b == a) = l := by
      refine List.filter_eq_self.2 fun b hb => ?_
      have hne : b ≠ a := fun heq => ha (heq ▸ hb)
      simp [hne]
    rw [List.eraseDups_cons, hfilter, ih hl]

lemma eraseDups_append_congr {as as' bs bs' : List κ} (ha : as.eraseDups = as'.eraseDups)
    (hb : bs.eraseDups = bs'.eraseDups) : (as ++ bs).eraseDups = (as' ++ bs').eraseDups := by
  have hmem : ∀ b, as.elem b = as'.elem b := by
    intro b
    rw [Bool.eq_iff_iff, List.elem_iff, List.elem_iff, ← List.mem_eraseDups, ha, List.mem_eraseDups]
  rw [List.eraseDups_append, List.eraseDups_append, List.removeAll, List.removeAll, eraseDups_filter, eraseDups_filter, ha, hb]
  simp only [hmem]

lemma eraseDups_keys_set (t : Table κ α) (k : κ) (v : α) : (t.set k v).keys.eraseDups = (t.keys ++ [k]).eraseDups := by
  rw [keys_set]
  split_ifs with hk
  · have hnone : [k].removeAll t.keys = [] := by simp [List.removeAll, hk]
    rw [List.eraseDups_append, hnone]
    simp
  · rfl

lemma eraseDups_keys_overlay (t : Table κ α) (s : List (κ × α)) :
    (overlay t s).keys.eraseDups = (t.keys ++ keys s).eraseDups := by
  induction s generalizing t with
  | nil => exact congrArg List.eraseDups (List.append_nil _).symm
  | cons e s ih =>
    obtain ⟨k, w⟩ := e
    change (overlay (t.set k w) s).keys.eraseDups = (t.keys ++ k :: keys s).eraseDups
    rw [ih, eraseDups_append_congr (eraseDups_keys_set t k w) rfl, List.append_assoc]
    rfl

lemma eraseDups_keys_entries (t : Table κ α) : (keys t.entries).eraseDups = t.keys.eraseDups := by
  induction t with
  | nil => rfl
  | cons e t ih =>
    obtain ⟨k, w⟩ := e
    have hfilter : keys ((entries t).filter (·.1 ≠ k)) = (keys (entries t)).filter fun b => !b == k := by
      simp only [keys, List.filter_map]
      congr 1
      refine List.filter_congr fun e _ => ?_
      by_cases h : e.1 = k <;> simp [h]
    change (k :: keys ((entries t).filter (·.1 ≠ k))).eraseDups = (k :: keys t).eraseDups
    rw [List.eraseDups_cons, List.eraseDups_cons, hfilter, List.filter_filter, eraseDups_filter, eraseDups_filter, ih]
    simp only [Bool.and_self]

/-! ### Two tables with the same keys -/

section SameKeys

variable {β γ : Type} {t' : Table κ β} {f : α → γ} {g : β → γ}

/-- What tables show under each key is the same where it is so under their own keys. -/
lemma get?_map_eq (hkeys : ∀ key, key ∈ t.keys ↔ key ∈ t'.keys)
    (h : ∀ key a b, t.get? key = some a → t'.get? key = some b → f a = g b) (key : κ) :
    (t.get? key).map f = (t'.get? key).map g := by
  have hmem := hkeys key
  rw [← has_iff_mem_keys, ← has_iff_mem_keys, has, has] at hmem
  cases ha : t.get? key with
  | none =>
    cases hb : t'.get? key with
    | none => rfl
    | some b =>
      rw [ha, hb] at hmem
      cases hmem.2 rfl
  | some a =>
    cases hb : t'.get? key with
    | none =>
      rw [ha, hb] at hmem
      cases hmem.1 rfl
    | some b => exact congrArg some (h key a b ha hb)

/-- The values of a table without repeated keys are those of its keys, in order. -/
lemma map_values (ht : t.keys.Nodup) (f : α → γ) : t.values.map f = t.keys.filterMap fun key => (t.get? key).map f := by
  induction t with
  | nil => rfl
  | cons e t ih =>
    obtain ⟨k, v⟩ := e
    obtain ⟨hk, ht⟩ := List.nodup_cons.1 ht
    have hv : (get? ((k, v) :: t) k).map f = some (f v) := by
      rw [get?_cons, if_pos rfl, Option.map_some]
    have hrest : (keys t).filterMap (fun key => (get? t key).map f) =
        (keys t).filterMap fun key => (get? ((k, v) :: t) key).map f := by
      refine List.filterMap_congr fun key hkey => ?_
      have hne : k ≠ key := fun h => hk (h ▸ hkey)
      rw [get?_cons, if_neg hne]
    change f v :: (values t).map f = (k :: keys t).filterMap _
    rw [List.filterMap_cons, hv, ih ht, hrest]

/-- **Tables that show the same under each key** have the same values to show, in whatever order. -/
theorem values_perm (ht : t.keys.Nodup) (ht' : t'.keys.Nodup) (hkeys : ∀ key, key ∈ t.keys ↔ key ∈ t'.keys)
    (h : ∀ key, (t.get? key).map f = (t'.get? key).map g) : (t.values.map f).Perm (t'.values.map g) := by
  rw [map_values ht, map_values ht', funext h]
  exact ((List.perm_ext_iff_of_nodup ht ht').2 hkeys).filterMap _

end SameKeys

end Typings.Table
