import Typings.Emission
import Typings.Proofs.Namespace
import Typings.Proofs.Normal

/-!
Declarations in two settings. Emission follows schemas from a type to the types of its parts, and what it comes to in two
settings is the same if the schemas on the way are fit for both (`Kindred`): what they refer to has the same names in both,
they have the same normal form in both, and their parts are fit again. The depth goes down by one from call to call, so all
statements about one depth are taken together (`TypesAlike`). Main statements:

* `Kindred.emit`: settings that go together give the same declarations;
* `emit_alike`: emission looks up the references of sound schemas and nothing else, so two registries that agree on the
  texts with a condition give the same declarations for sound schemas, whatever else is in them.
-/

namespace Typings

/-- A failure that has nothing to do with what is registered: it blames no reference, except for a target without names,
and it is not for want of depth. -/
structure Failure.IsOwn (f : Failure) : Prop where
  spares : f.SparesTargets
  ne_endless : f ≠ .endless

namespace Emission

open Typings.Normal (Agree Sound ShowsPart)

/-! ### Failures of emission itself -/

section Failures

variable {f : Failure}

lemma isOwn_badKind : Failure.IsOwn .badKind := ⟨by rintro _ _ ⟨⟩, by rintro ⟨⟩⟩

lemma isOwn_badUrl : Failure.IsOwn .badUrl := ⟨by rintro _ _ ⟨⟩, by rintro ⟨⟩⟩

lemma isOwn_pointer (pointer : String) (fault : PointerFault) : Failure.IsOwn (.pointer pointer fault) :=
  ⟨by rintro _ _ ⟨⟩, by rintro ⟨⟩⟩

lemma sub_error {s : Schema Json} {pointer : String} (h : s.sub pointer = .error f) : f.IsOwn := by
  rcases bind_eq_error.1 h with h | ⟨tokens, -, h⟩
  · simp only [Pointer.parse] at h
    split at h <;> cases h
    exact isOwn_pointer _ _
  rcases bind_eq_error.1 h with h | ⟨content, -, h⟩
  · rw [Pointer.get] at h
    cases hf : Pointer.follow tokens s.content with
    | ok w =>
      rw [hf] at h
      cases h
    | error fault =>
      rw [hf] at h
      cases h
      exact isOwn_pointer _ _
  rcases bind_eq_error.1 h with h | ⟨address, -, h⟩
  · rw [Schema.partAddress.eq_def] at h
    split at h
    · cases h
    · rw [Address.within_error h]
      exact isOwn_badUrl
    · cases h
  · cases h

lemma names_error {a : Address} (h : a.names = .error f) : f.IsOwn := by
  unfold Address.names at h
  generalize Url.split [] a.text.toList = u at h
  cases u with
  | ok u => cases h
  | error e =>
    obtain rfl := Except.error.inj h
    exact isOwn_badUrl

lemma literal_error {numeric : Bool} {v : Json} (h : literal numeric v = .error f) : f.IsOwn := by
  rw [literal.eq_def] at h
  split at h
  · cases h
  · cases h
  · split_ifs at h
    cases h
    exact isOwn_badKind

lemma primitive_error {type : Json} {name : Option String} (h : primitive type name = .error f) : f.IsOwn := by
  rw [primitive.eq_def] at h
  split at h <;> cases h
  all_goals exact ⟨by rintro _ _ ⟨⟩, by rintro ⟨⟩⟩

lemma minItems?_error {fs : Fields} (h : minItems? fs = .error f) : f.IsOwn := by
  rw [minItems?.eq_def] at h
  split at h <;> cases h
  exact isOwn_badKind

lemma commentOf_error {fs : Fields} (h : commentOf fs = .error f) : f.IsOwn := by
  simp only [commentOf] at h
  split_ifs at h
  all_goals
    cases h
    exact isOwn_badKind

end Failures

/-! ### Pointers to parts -/

lemma sub_content {s t : Schema Json} {pointer : String} {tokens : List String} (hp : Pointer.parse pointer = .ok tokens)
    (h : s.sub pointer = .ok t) : Pointer.follow tokens s.content = .ok t.content := by
  obtain ⟨tokens', hp', h⟩ := bind_eq_ok.1 h
  obtain rfl : tokens = tokens' := by
    rw [hp] at hp'
    exact Except.ok.inj hp'
  obtain ⟨content, hget, h⟩ := bind_eq_ok.1 h
  obtain ⟨address, -, h⟩ := bind_eq_ok.1 h
  cases h
  rw [Pointer.get] at hget
  cases hf : Pointer.follow tokens s.content with
  | ok w =>
    rw [hf] at hget
    cases hget
    rfl
  | error fault =>
    rw [hf] at hget
    cases hget

section Places

variable {s : Schema Fields} {v w : Json} {key token : String}

lemma follow_key (hv : s.content.get? key = some v) {tokens : List String} :
    Pointer.follow (key :: tokens) (.obj s.content) = Pointer.follow tokens v := by
  rw [Pointer.follow, Pointer.step, hv]
  rfl

lemma follow_token (h : Pointer.follow [token] v = .ok w) : Pointer.step token v = .ok w := by
  obtain ⟨u, hu, hw⟩ := bind_eq_ok.1 h
  cases hw
  exact hu

lemma mem_of_step_arr {xs : List Json} (h : Pointer.step token (.arr xs) = .ok w) : w ∈ xs := by
  rw [Pointer.step] at h
  split at h
  · next u hu =>
    cases h
    obtain ⟨i, -, hi⟩ := Option.bind_eq_some_iff.1 hu
    exact List.mem_of_getElem? hi
  · cases h

lemma get?_of_step {fs : Fields} (h : Pointer.step token (.obj fs) = .ok w) : fs.get? token = some w := by
  rw [Pointer.step] at h
  split at h
  · next u hu =>
    cases h
    exact hu
  · cases h

lemma slash_not_mem_intText (n : ℕ) : '/' ∉ (Number.intText n).toList := by
  have htext : (Number.intText n).toList = Nat.toDigits 10 n := by
    simp [Number.intText, show ¬ ((n : ℤ) < 0) by omega]
  rw [htext]
  intro h
  have := Nat.isDigit_of_mem_toDigits (by decide) (by decide) h
  revert this
  decide

lemma pointer_eq (key token : String) :
    "/" ++ key ++ "/" ++ token = String.ofList ('/' :: (key.toList ++ '/' :: token.toList)) := by
  rw [← String.toList_inj]
  simp

/-- The keywords whose arrays are looked into item by item. -/
def listKeys : List String := ["anyOf", "oneOf", "items"]

lemma parse_itemPointer {n : ℕ} {pointer : String} (hk : key ∈ listKeys) (h : pointer ∈ itemPointers key n) :
    ∃ token, Pointer.parse pointer = .ok [key, token] := by
  obtain ⟨i, -, rfl⟩ := List.mem_map.1 h
  have hkey : '/' ∉ key.toList ∧ String.ofList (Pointer.unescapeChars key.toList) = key := by
    simp only [listKeys, List.mem_cons, List.not_mem_nil, or_false] at hk
    rcases hk with rfl | rfl | rfl <;> decide
  rw [pointer_eq, Pointer.parse_two hkey.1 (slash_not_mem_intText i), hkey.2]
  exact ⟨_, rfl⟩

lemma parse_propertyPointer (name : String) :
    Pointer.parse ("/properties/" ++ Pointer.escape name) = .ok ["properties", name] := by
  have hp : "/properties/" = "/" ++ "properties" ++ "/" := by decide
  have he : (Pointer.escape name).toList = Pointer.escapeChars name.toList := by simp [Pointer.escape]
  rw [hp, pointer_eq, he, Pointer.parse_two (by decide) (Pointer.not_mem_escapeChars _),
    Pointer.unescapeChars_escapeChars, String.ofList_toList]
  rfl

/-- A pointer into an object leads to a part that declarations look into, if it leads anywhere. -/
def LooksInto (fs : Fields) (pointer : String) : Prop :=
  ∃ tokens, Pointer.parse pointer = .ok tokens ∧ ∀ w, Pointer.follow tokens (.obj fs) = .ok w → ShowsPart (.obj fs) w

lemma looksInto_item {xs : List Json} {n : ℕ} {pointer : String} (hk : key ∈ listKeys)
    (hv : s.content.get? key = some (.arr xs)) (hp : pointer ∈ itemPointers key n) : LooksInto s.content pointer := by
  obtain ⟨token, hparse⟩ := parse_itemPointer hk hp
  refine ⟨_, hparse, fun w hw => ?_⟩
  rw [follow_key hv] at hw
  have hmem := mem_of_step_arr (follow_token hw)
  simp only [listKeys, List.mem_cons, List.not_mem_nil, or_false] at hk
  rcases hk with rfl | rfl | rfl
  · exact ⟨_, .many, _, by decide, by simp [Normal.shownPlaces], hv, hmem⟩
  · exact ⟨_, .many, _, by decide, by simp [Normal.shownPlaces], hv, hmem⟩
  · exact ⟨_, .oneOrMany, _, by decide, by simp [Normal.shownPlaces], hv, hmem⟩

lemma looksInto_alternative {pointer : String} (hp : pointer ∈ alternatives s.content) : LooksInto s.content pointer := by
  obtain ⟨key, hk, hp⟩ := List.mem_flatMap.1 hp
  have hk' : key ∈ listKeys := by
    simp only [List.mem_cons, List.not_mem_nil, or_false] at hk
    rcases hk with rfl | rfl <;> decide
  cases hv : s.content.get? key with
  | none =>
    rw [hv] at hp
    exact absurd hp List.not_mem_nil
  | some v =>
    cases v with
    | arr xs => exact looksInto_item hk' hv hp
    | _ =>
      rw [hv] at hp
      exact absurd hp List.not_mem_nil

lemma looksInto_items (hv : ∀ xs, s.content.get? "items" ≠ some (.arr xs)) : LooksInto s.content "/items" := by
  refine ⟨["items"], rfl, fun w hw => ?_⟩
  have hget : s.content.get? "items" = some w := get?_of_step (follow_token hw)
  refine ⟨"items", .oneOrMany, w, by decide, by simp [Normal.shownPlaces], hget, ?_⟩
  cases w with
  | arr xs => exact absurd hget (hv xs)
  | _ => exact List.mem_singleton_self _

lemma looksInto_additional : LooksInto s.content "/additionalProperties" := by
  refine ⟨["additionalProperties"], rfl, fun w hw => ?_⟩
  have hget : s.content.get? "additionalProperties" = some w := get?_of_step (follow_token hw)
  exact ⟨_, .one, w, by decide, by simp [Normal.shownPlaces], hget, List.mem_singleton_self _⟩

lemma looksInto_property {name : String} (hn : name ∈ propertyNames s.content) :
    LooksInto s.content ("/properties/" ++ Pointer.escape name) := by
  refine ⟨_, parse_propertyPointer name, fun w hw => ?_⟩
  cases hv : s.content.get? "properties" with
  | none =>
    rw [propertyNames, hv] at hn
    exact absurd hn List.not_mem_nil
  | some v =>
    rw [follow_key hv] at hw
    cases v with
    | obj fs =>
      have hmem := Table.mem_values_of_get? (get?_of_step (follow_token hw))
      exact ⟨_, .named, _, by decide, by simp [Normal.shownPlaces], hv, hmem⟩
    | _ =>
      rw [propertyNames, hv] at hn
      exact absurd hn List.not_mem_nil

end Places

/-! ### Settings that go together -/

/-- **Two settings go together** on the values that are `fit`. Here `fit c d d' v` is to say that emission may come to `v`
with the depth `d` in the one setting and `d'` in the other, `c` calls before it looks into the parts of `v`. -/
structure Kindred (env env' : Setting) (fit : ℕ → ℕ → ℕ → Json → Prop) (bad : Failure → Prop) : Prop where
  tree : env'.tree = env.tree
  isRegistered : env'.isRegistered = env.isRegistered
  /-- Failures of emission itself may come. -/
  own : ∀ f : Failure, f.IsOwn → bad f
  /-- References have the same targets. -/
  lookup : ∀ {c d d' v text}, fit c d d' v → Normal.reference? v = some text →
    Alike (Told.lift (env.lookup text)) (Told.lift (env'.lookup text)) (fun _ => True) bad
  /-- Normal forms are the same and fit again. -/
  normalize : ∀ {c d d'} {s : Schema Json}, fit c d d' s.content →
    Alike (Normal.normalize env.normal s) (Normal.normalize env'.normal s) (fun t => fit c d d' (.obj t.content)) bad
  /-- Parts are fit again. -/
  part : ∀ {c d d' v w}, fit (c + 1) (d + 1) (d' + 1) v → ShowsPart v w → fit 4 d d' w
  call : ∀ {c d d' v}, fit (c + 1) (d + 1) (d' + 1) v → fit c d d' v
  less : ∀ {c d d' v}, fit (c + 1) d d' v → fit c d d' v
  /-- Both depths come to an end together, if that may be. -/
  depths : ∀ {c d d' v}, fit (c + 1) d d' v → d = 0 ∧ d' = 0 ∧ bad .endless ∨ ∃ e e', d = e + 1 ∧ d' = e' + 1

/-- What is true of emission at one pair of depths: for fit schemas both settings give the same. -/
structure TypesAlike (env env' : Setting) (fit : ℕ → ℕ → ℕ → Json → Prop) (bad : Failure → Prop) (inside : List String)
    (d d' : ℕ) : Prop where
  typeOf : ∀ s : Schema Fields, fit 3 d d' (.obj s.content) →
    Alike (typeOf env inside d s) (typeOf env' inside d' s) (fun _ => True) bad
  namedType : ∀ (s : Schema Fields) (type : Json) (shown : List String), fit 2 d d' (.obj s.content) →
    Alike (namedType env inside d s type shown) (namedType env' inside d' s type shown) (fun _ => True) bad
  partType : ∀ s : Schema Fields, fit 4 d d' (.obj s.content) →
    Alike (partType env inside d s) (partType env' inside d' s) (fun _ => True) bad
  arrayType : ∀ s : Schema Fields, fit 1 d d' (.obj s.content) →
    Alike (arrayType env inside d s) (arrayType env' inside d' s) (fun _ => True) bad
  members : ∀ s : Schema Fields, fit 1 d d' (.obj s.content) →
    Alike (members env inside d s) (members env' inside d' s) (fun _ => True) bad

namespace Kindred

variable {env env' : Setting} {fit : ℕ → ℕ → ℕ → Json → Prop} {bad : Failure → Prop} (h : Kindred env env' fit bad)
include h

lemma lift {α : Type} {e : Except Failure α} (he : ∀ f, e = .error f → f.IsOwn) :
    Alike (Told.lift e) (Told.lift e) (fun _ => True) bad :=
  Told.lift_alike (fun _ _ => trivial) fun f hf => h.own f (he f hf)

/-- The parts of a fit schema are fit. -/
lemma partAt {c d d' : ℕ} {s : Schema Fields} {pointer : String} (hs : fit (c + 1) (d + 1) (d' + 1) (.obj s.content))
    (hp : LooksInto s.content pointer) :
    Alike (partAt env s pointer) (partAt env' s pointer) (fun t => fit 4 d d' (.obj t.content)) bad := by
  obtain ⟨tokens, hparse, hshows⟩ := hp
  refine Alike.bind (P := fun t => fit 4 d d' t.content) ?_ fun t ht => h.normalize ht
  refine Told.lift_alike (fun t ht => ?_) fun f hf => h.own f (sub_error hf)
  exact h.part hs (hshows _ (sub_content hparse ht))

lemma nameOf (inside : List String) (a : Address) :
    Alike (nameOf env inside a) (nameOf env' inside a) (fun _ => True) bad := by
  unfold Emission.nameOf
  rw [h.tree]
  refine Alike.bind (P := fun names => a.names = .ok names)
    (Told.lift_alike (fun _ hn => hn) fun f hf => h.own f (names_error hf)) ?_
  intro names hnames
  dsimp only
  split_ifs with hempty
  · refine Alike.of_throw (h.own _ ⟨?_, by rintro ⟨⟩⟩)
    intro key fault hf
    cases hf
    exact ⟨rfl, List.isEmpty_iff.1 hempty ▸ hnames⟩
  · exact Alike.of_modify.bind fun _ _ => Alike.of_pure trivial
  · exact Alike.of_pure trivial

/-- Where no depth is left there is nothing to compare. -/
lemma descend {α : Type} {x y : ℕ → Told α} {c d d' : ℕ} {v : Json} (hv : fit (c + 1) d d' v)
    (hx : x 0 = throw .endless) (hy : y 0 = throw .endless)
    (hxy : ∀ e e', d = e + 1 → d' = e' + 1 → Alike (x (e + 1)) (y (e' + 1)) (fun _ => True) bad) :
    Alike (x d) (y d') (fun _ => True) bad := by
  rcases h.depths hv with ⟨rfl, rfl, hbad⟩ | ⟨e, e', rfl, rfl⟩
  · rw [hx, hy]
    exact Alike.of_throw hbad
  · exact hxy e e' rfl rfl

section Types

variable {inside : List String} {d d' : ℕ} {s : Schema Fields}

lemma typeOf (ih : TypesAlike env env' fit bad inside d d') (hs : fit 3 (d + 1) (d' + 1) (.obj s.content)) :
    Alike (typeOf env inside (d + 1) s) (typeOf env' inside (d' + 1) s) (fun _ => True) bad := by
  rw [Emission.typeOf, Emission.typeOf]
  cases hr : (s.content.get? "$ref").bind (·.str?) with
  | some text =>
    exact (h.lookup hs hr).bind fun t _ => (h.nameOf inside _).bind fun _ _ => Alike.of_pure trivial
  | none =>
    dsimp only
    split_ifs
    · refine (Alike.mapM fun pointer hp => ?_).bind fun _ _ => Alike.of_pure trivial
      exact (h.partAt hs (looksInto_alternative hp)).bind fun t ht => ih.partType t ht
    · split
      · refine (h.lift fun f hf => ?_).bind fun _ _ => Alike.of_pure trivial
        obtain ⟨v, -, hv⟩ := mapM_eq_error hf
        exact literal_error hv
      · exact (h.lift fun _ => literal_error).bind fun _ _ => Alike.of_pure trivial
      · split
        · exact Alike.of_pure trivial
        · exact (Alike.mapM fun type _ => ih.namedType s type [] (h.call hs)).bind fun _ _ => Alike.of_pure trivial
        · exact ih.namedType s _ _ (h.call hs)

lemma namedType (ih : TypesAlike env env' fit bad inside d d') (hs : fit 2 (d + 1) (d' + 1) (.obj s.content)) (type : Json)
    (shown : List String) :
    Alike (namedType env inside (d + 1) s type shown) (namedType env' inside (d' + 1) s type shown) (fun _ => True) bad := by
  rw [Emission.namedType, Emission.namedType]
  refine (h.lift fun _ => primitive_error).bind fun name _ => ?_
  cases name with
  | some name => exact Alike.of_pure trivial
  | none =>
    dsimp only
    split_ifs
    · exact (ih.members s (h.call hs)).bind fun _ _ => Alike.of_pure trivial
    · exact ih.arrayType s (h.call hs)

lemma partType (ih : TypesAlike env env' fit bad inside d d') (hs : fit 4 (d + 1) (d' + 1) (.obj s.content)) :
    Alike (partType env inside (d + 1) s) (partType env' inside (d' + 1) s) (fun _ => True) bad := by
  rw [Emission.partType, Emission.partType, h.isRegistered]
  by_cases hid : (((Json.obj s.content).declaredId s.dialect).isSome && env.isRegistered s.address.text) = true
  · rw [if_pos hid, if_pos hid]
    exact (h.nameOf inside _).bind fun _ _ => Alike.of_pure trivial
  · rw [if_neg hid, if_neg hid]
    exact ih.typeOf s (h.call hs)

lemma arrayType (ih : TypesAlike env env' fit bad inside d d') (hs : fit 1 (d + 1) (d' + 1) (.obj s.content)) :
    Alike (arrayType env inside (d + 1) s) (arrayType env' inside (d' + 1) s) (fun _ => True) bad := by
  rw [Emission.arrayType, Emission.arrayType]
  split
  · exact Alike.of_pure trivial
  · next items hitems =>
    have hitems : s.content.get? "items" = some (.arr items) := by
      cases hv : s.content.get? "items" with
      | none =>
        rw [hv] at hitems
        cases hitems
      | some v =>
        rw [hv] at hitems
        exact congrArg some hitems
    split_ifs
    · exact Alike.of_pure trivial
    · refine (h.lift fun _ => minItems?_error).bind fun least _ => ?_
      refine (Alike.mapM fun k _ => ?_).bind fun _ _ => Alike.of_pure trivial
      refine (Alike.mapM fun pointer hp => ?_).bind fun _ _ => Alike.of_pure trivial
      exact (h.partAt hs (looksInto_item (by decide) hitems hp)).bind fun t ht => ih.partType t ht
  · next hnull harr =>
    have hitems : LooksInto s.content "/items" := by
      refine looksInto_items fun xs hv => harr xs ?_
      rw [hv]
      rfl
    refine (h.partAt hs hitems).bind fun t ht => ?_
    exact (ih.typeOf t (h.less ht)).bind fun _ _ => Alike.of_pure trivial

lemma members (ih : TypesAlike env env' fit bad inside d d') (hs : fit 1 (d + 1) (d' + 1) (.obj s.content)) :
    Alike (members env inside (d + 1) s) (members env' inside (d' + 1) s) (fun _ => True) bad := by
  rw [Emission.members, Emission.members]
  dsimp only
  split
  -- additional properties with a schema come first, the rest is the same in all cases
  on_goal 4 =>
    refine (h.partAt hs looksInto_additional).bind fun t ht => (ih.typeOf t (h.less ht)).bind fun _ _ => ?_
  all_goals
    refine (Alike.mapM fun name hn => ?_).bind fun _ _ => Alike.of_pure trivial
    refine (h.partAt hs (looksInto_property hn)).bind fun t ht => ?_
    refine (h.lift fun _ => commentOf_error).bind fun _ _ => ?_
    exact (ih.typeOf t (h.less ht)).bind fun _ _ => Alike.of_pure trivial

end Types

/-- All depths, by induction on the first of the two. -/
lemma typesAlike (inside : List String) (d d' : ℕ) : TypesAlike env env' fit bad inside d d' := by
  induction d using Nat.strong_induction_on generalizing d' with
  | _ d ih =>
    refine ⟨fun s hs => ?_, fun s type shown hs => ?_, fun s hs => ?_, fun s hs => ?_, fun s hs => ?_⟩
    · refine h.descend (x := (Emission.typeOf env inside · s)) (y := (Emission.typeOf env' inside · s)) hs
        (by rw [Emission.typeOf]) (by rw [Emission.typeOf]) ?_
      rintro e e' rfl rfl
      exact h.typeOf (ih e (Nat.lt_succ_self e) e') hs
    · refine h.descend (x := (Emission.namedType env inside · s type shown))
        (y := (Emission.namedType env' inside · s type shown)) hs (by rw [Emission.namedType]) (by rw [Emission.namedType]) ?_
      rintro e e' rfl rfl
      exact h.namedType (ih e (Nat.lt_succ_self e) e') hs type shown
    · refine h.descend (x := (Emission.partType env inside · s)) (y := (Emission.partType env' inside · s)) hs
        (by rw [Emission.partType]) (by rw [Emission.partType]) ?_
      rintro e e' rfl rfl
      exact h.partType (ih e (Nat.lt_succ_self e) e') hs
    · refine h.descend (x := (Emission.arrayType env inside · s)) (y := (Emission.arrayType env' inside · s)) hs
        (by rw [Emission.arrayType]) (by rw [Emission.arrayType]) ?_
      rintro e e' rfl rfl
      exact h.arrayType (ih e (Nat.lt_succ_self e) e') hs
    · refine h.descend (x := (Emission.members env inside · s)) (y := (Emission.members env' inside · s)) hs
        (by rw [Emission.members]) (by rw [Emission.members]) ?_
      rintro e e' rfl rfl
      exact h.members (ih e (Nat.lt_succ_self e) e') hs

/-! ### Declarations -/

lemma declare (path : List String) {s : Schema Json} (hs : fit 3 env.depth env'.depth s.content) :
    Alike (declare env path s) (declare env' path s) (fun _ => True) bad := by
  have types := h.typesAlike path.dropLast env.depth env'.depth
  refine Alike.of_modify.bind fun _ _ => ?_
  refine (h.normalize hs).bind fun n hn => ?_
  have hone : fit 1 env.depth env'.depth (.obj n.content) := h.less (h.less hn)
  refine (h.lift fun _ => commentOf_error).bind fun _ _ => ?_
  dsimp only
  split_ifs
  · exact (types.members n hone).bind fun _ _ => Alike.of_pure trivial
  · exact (types.members n hone).bind fun _ _ => Alike.of_pure trivial
  · exact (types.arrayType n hone).bind fun _ _ => Alike.of_pure trivial
  · exact (types.typeOf n hn).bind fun _ _ => Alike.of_pure trivial

omit h in
mutual

theorem itemsAt (h : Kindred env env' fit bad) (path : List String) : ∀ t : Namespace (Schema Json),
    t.Every (fun s => fit 3 env.depth env'.depth s.content) →
    Alike (itemsAt env path t) (itemsAt env' path t) (fun _ => True) bad
  | .node leaf children, ht => by
    have inner := itemsOf h path children ht.2
    cases leaf with
    | none =>
      rw [Emission.itemsAt.eq_def, Emission.itemsAt.eq_def]
      dsimp only
      split_ifs
      · exact Alike.of_pure trivial
      · exact inner.bind fun _ _ => Alike.of_pure trivial
    | some s =>
      rw [Emission.itemsAt.eq_def, Emission.itemsAt.eq_def]
      refine (h.declare path (ht.1 s rfl)).bind fun _ _ => ?_
      split_ifs
      · exact Alike.of_pure trivial
      · exact inner.bind fun _ _ => Alike.of_pure trivial

theorem itemsOf (h : Kindred env env' fit bad) (path : List String) :
    ∀ children : List (String × Namespace (Schema Json)),
    Namespace.EveryIn (fun s => fit 3 env.depth env'.depth s.content) children →
    Alike (itemsOf env path children) (itemsOf env' path children) (fun _ => True) bad
  | [], _ => by
    rw [Emission.itemsOf, Emission.itemsOf]
    exact Alike.of_pure trivial
  | (name, node) :: rest, ht => by
    rw [Emission.itemsOf, Emission.itemsOf]
    refine (itemsAt h (path ++ [name]) node ht.1).bind fun _ _ => ?_
    exact (itemsOf h path rest ht.2).bind fun _ _ => Alike.of_pure trivial

end

/-- **Settings that go together give the same declarations.** -/
theorem emit (htree : env.tree.Every fun s => fit 3 env.depth env'.depth s.content) :
    Alike (emit env) (emit env') (fun _ => True) bad := by
  have hchildren : Namespace.EveryIn (fun s => fit 3 env.depth env'.depth s.content) env.tree.children := by
    cases ht : env.tree with
    | node leaf children =>
      rw [ht] at htree
      exact htree.2
  unfold Emission.emit
  rw [h.tree]
  exact itemsOf h [] env.tree.children hchildren

end Kindred

/-! ### Two registries -/

/-- The same setting with another registry. -/
def Setting.withLookup (env : Setting) (l : String → Except Failure (Schema Json)) : Setting :=
  { env with lookup := l, normal := { env.normal with lookup := some l } }

variable {R : String → Prop} {l l' : String → Except Failure (Schema Json)}

lemma normalize_alike (hl : Agree R l l') (env : Setting) {s : Schema Json} (hs : Sound R s.content) :
    Alike (Normal.normalize (env.withLookup l).normal s) (Normal.normalize (env.withLookup l').normal s)
      (fun t => Sound R (.obj t.content)) Failure.SparesTargets :=
  (Normal.content_alike env.normal.rules env.normal.depth hl env.normal.depth s [] s.content hs).bind fun _ hfs =>
    Alike.of_pure hfs

/-- Registries that agree on the texts with a condition go together on sound values. -/
lemma kindred_of_agree (hl : Agree R l l') (env : Setting) :
    Kindred (env.withLookup l) (env.withLookup l') (fun _ d d' v => d = d' ∧ Sound R v) Failure.SparesTargets where
  tree := rfl
  isRegistered := rfl
  own _ hf := hf.spares
  lookup hv hr := by
    obtain ⟨t, ht, ht', -⟩ := hl _ ((Normal.sound_iff.1 hv.2).1 _ hr)
    simp only [Setting.withLookup, ht, ht']
    exact Alike.of_pure trivial
  normalize hs := (normalize_alike hl env hs.2).mono fun _ ht => ⟨hs.1, ht⟩
  part hv hw := ⟨Nat.succ.inj hv.1, hv.2.of_shows hw.shows⟩
  call hv := ⟨Nat.succ.inj hv.1, hv.2⟩
  less hv := hv
  depths {c d d' v} hv := by
    obtain ⟨rfl, -⟩ := hv
    cases d with
    | zero => exact Or.inl ⟨rfl, rfl, by rintro _ _ ⟨⟩⟩
    | succ d => exact Or.inr ⟨d, d, rfl, rfl⟩

/-- **Emission looks up the references of sound schemas and nothing else.** -/
theorem emit_alike (hl : Agree R l l') (env : Setting) (h : env.tree.Every fun s => Sound R s.content) :
    Alike (emit (env.withLookup l)) (emit (env.withLookup l')) (fun _ => True) Failure.SparesTargets :=
  (kindred_of_agree hl env).emit (by simpa [Setting.withLookup] using h)

end Emission

end Typings
