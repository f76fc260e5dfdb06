import Typings.Proofs.Normal

/-!
How normal forms come about. A normal form is what a value says itself, with the normal forms of its `allOf` members merged
into it one after the other (`Folds`). The depth and the references that are being followed decide only whether there is
one. A run that ends well gives a normal form in this sense; a run that meets a reference again while following it has come
round a circle of references (`Blames`). Main statement: `normalize_explained`.
-/

namespace Typings.Normal

open Relation (ReflTransGen TransGen)

/-! ### Members and what they stand for -/

/-- What the text of a reference means; without a registry, nothing. -/
def Setting.find (env : Setting) (text : String) : Except Failure (Schema Json) :=
  match env.lookup with
  | none => .error (.schema (.noRegistry text))
  | some lookup => lookup text

/-- The members of `allOf`. -/
def allOf (v : Json) : List Json := ((v.get? "allOf").map (·.items)).getD []

/-- What a value says itself, without its `allOf`; a truth value stands for an object. -/
def own? : Json → Option Fields
  | .bool b => some (ofBool b)
  | .obj fs => some (Table.erase fs "allOf")
  | _ => none

/-- The schema that a member of `allOf` stands for: its target if it is a reference, itself if it is not. -/
def meant (env : Setting) (s : Schema Json) (m : Json) : Except Failure (Schema Json) :=
  match reference? m with
  | none => .ok (s.withContent m)
  | some text => env.find text

/-- **Members are folded** into `done`, each in its normal form and without its id. -/
inductive Folds (env : Setting) : Schema Json → Fields → List Json → Fields → Prop
  | nil (s : Schema Json) (done : Fields) : Folds env s done [] done
  | cons {s t : Schema Json} {done own merged fs result : Fields} {m : Json} {rest : List Json}
    (hm : meant env s m = .ok t) (hown : own? t.content = some own) (hinner : Folds env t own (allOf t.content) merged)
    (htype : settleType env.rules merged = .ok fs)
    (hrest : Folds env s (merge done (fs.erase s.dialect.idKeyword).entries) rest result) :
    Folds env s done (m :: rest) result

/-- A schema has a normal form: its members are folded into what it says itself, and the type is settled. -/
def HasForm (env : Setting) (s : Schema Json) (fs : Fields) : Prop :=
  ∃ own merged, own? s.content = some own ∧ Folds env s own (allOf s.content) merged ∧
    settleType env.rules merged = .ok fs

/-- A value points to a reference: the reference is a member of its `allOf`, or of the `allOf` of an inline member, and
so on inwards. -/
inductive PointsTo (text : String) : Json → Prop
  | member {v m : Json} (hm : m ∈ allOf v) (hr : reference? m = some text) : PointsTo text v
  | inline {v m : Json} (hm : m ∈ allOf v) (hr : reference? m = none) (h : PointsTo text m) : PointsTo text v

/-- One reference leads to another: the content it stands for points to it. -/
def LeadsTo (find : String → Except Failure (Schema Json)) (text text' : String) : Prop :=
  ∃ t, find text = .ok t ∧ PointsTo text' t.content

/-- A value leads to the reference `text`, which is being followed already or leads back to itself. -/
def Blames (find : String → Except Failure (Schema Json)) (seen : List String) (v : Json) (text : String) : Prop :=
  ∃ first, PointsTo first v ∧ ReflTransGen (LeadsTo find) first text ∧ (text ∈ seen ∨ TransGen (LeadsTo find) text text)

variable {env : Setting} {depth : ℕ} {s t : Schema Json} {seen : List String} {v m : Json} {text again : String}

lemma meant_of_inline (hr : reference? m = none) : meant env s m = .ok (s.withContent m) := by
  unfold meant
  rw [hr]

lemma meant_of_reference (hr : reference? m = some text) : meant env s m = env.find text := by
  unfold meant
  rw [hr]

lemma sizeItems_allOf_lt (v : Json) : Json.sizeItems (allOf v) < v.size := by
  unfold allOf
  cases v with
  | obj fs =>
    rw [Json.get?, Json.size]
    cases h : Table.get? fs "allOf" with
    | none => simp only [Option.map_none, Option.getD_none, Json.sizeItems]; omega
    | some u =>
      have hu := Json.size_le_of_get? h
      cases u <;> simp only [Option.map_some, Option.getD_some, Json.items, Json.sizeItems, Json.size] at hu ⊢ <;> omega
  | _ => exact Json.size_pos _

lemma pointsTo_iff : PointsTo text v ↔
    ∃ m ∈ allOf v, reference? m = some text ∨ reference? m = none ∧ PointsTo text m := by
  constructor
  · intro h
    cases h with
    | member hm hr => exact ⟨_, hm, Or.inl hr⟩
    | inline hm hr h => exact ⟨_, hm, Or.inr ⟨hr, h⟩⟩
  · rintro ⟨m, hm, hr | ⟨hr, h⟩⟩
    · exact .member hm hr
    · exact .inline hm hr h

namespace Blames

variable {find : String → Except Failure (Schema Json)}

lemma of_seen (hm : m ∈ allOf v) (hr : reference? m = some text) (hseen : text ∈ seen) : Blames find seen v text :=
  ⟨text, .member hm hr, .refl, Or.inl hseen⟩

lemma inline (hm : m ∈ allOf v) (hr : reference? m = none) (h : Blames find seen m text) : Blames find seen v text := by
  obtain ⟨first, hfirst, hrest⟩ := h
  exact ⟨first, .inline hm hr hfirst, hrest⟩

/-- What is blamed behind a reference is blamed before it: if it is the reference itself, a circle is closed. -/
lemma behind (hm : m ∈ allOf v) (hr : reference? m = some text) (ht : find text = .ok t)
    (h : Blames find (text :: seen) t.content again) : Blames find seen v again := by
  obtain ⟨first, hfirst, hpath, hagain⟩ := h
  have hstep : LeadsTo find text first := ⟨t, ht, hfirst⟩
  refine ⟨text, .member hm hr, .head hstep hpath, ?_⟩
  rcases hagain with hagain | hcircle
  · rcases List.mem_cons.1 hagain with rfl | hseen
    · exact Or.inr (.head' hstep hpath)
    · exact Or.inl hseen
  · exact Or.inr hcircle

end Blames

/-! ### The functions in one form each -/

lemma settleType_ofBool (rules : TypeRules) (b : Bool) : settleType rules (ofBool b) = .ok (ofBool b) := by
  cases b <;> rfl

/-- Whatever a value is, its members are merged into what it says itself. -/
lemma content_eq (env : Setting) (depth : ℕ) (s : Schema Json) (seen : List String) (v : Json) :
    content env depth s seen v = match own? v with
      | none => throw (.schema (.notObject s.address.text))
      | some own => mergeAll env depth s seen own (allOf v) >>= fun merged => Told.lift (settleType env.rules merged) := by
  cases v with
  | bool b =>
    have hall : allOf (.bool b) = [] := rfl
    rw [content, own?, hall]
    dsimp only
    rw [mergeAll, pure_bind, settleType_ofBool]
    rfl
  | obj fs =>
    rw [own?]
    dsimp only
    by_cases h : ∃ members, Table.get? fs "allOf" = some (.arr members)
    · obtain ⟨members, h⟩ := h
      have hall : allOf (.obj fs) = members := by simp [allOf, Json.get?, h, Json.items]
      rw [content_of_members h, hall]
    · have h' : ∀ members, Table.get? fs "allOf" ≠ some (.arr members) := fun members hm => h ⟨members, hm⟩
      have hall : allOf (.obj fs) = [] := by
        unfold allOf
        rw [Json.get?]
        cases hu : Table.get? fs "allOf" with
        | none => rfl
        | some u =>
          cases u with
          | arr members => exact absurd hu (h' members)
          | _ => rfl
      rw [content_of_no_members h', hall, mergeAll, pure_bind]
  | _ =>
    rw [content, own?]
    all_goals
      rintro _ ⟨⟩

lemma member_of_inline (hr : reference? m = none) : member env depth s seen m = content env depth s seen m := by
  rw [member.eq_def, hr]

lemma member_of_seen (hr : reference? m = some text) (hseen : text ∈ seen) :
    member env depth s seen m = throw (.schema (.circular text)) := by
  rw [member.eq_def, hr]
  dsimp only
  rw [if_pos (List.contains_iff_mem.2 hseen)]

lemma member_of_unknown {f : Failure} (hr : reference? m = some text) (hseen : text ∉ seen)
    (hf : env.find text = .error f) : member env depth s seen m = throw f := by
  rw [member.eq_def, hr]
  dsimp only
  rw [if_neg (fun h => hseen (List.contains_iff_mem.1 h))]
  unfold Setting.find at hf
  cases hl : env.lookup with
  | none =>
    rw [hl] at hf
    cases hf
    rfl
  | some lookup =>
    rw [hl] at hf
    dsimp only at hf ⊢
    rw [hf]

lemma member_of_target (hr : reference? m = some text) (hseen : text ∉ seen) (ht : env.find text = .ok t) :
    member env depth s seen m = match depth with
      | 0 => throw .endless
      | depth + 1 => content env depth t (text :: seen) t.content := by
  rw [member.eq_def, hr]
  dsimp only
  rw [if_neg (fun h => hseen (List.contains_iff_mem.1 h))]
  unfold Setting.find at ht
  cases hl : env.lookup with
  | none =>
    rw [hl] at ht
    cases ht
  | some lookup =>
    rw [hl] at ht
    dsimp only at ht ⊢
    rw [ht]
    cases depth <;> rfl

/-! ### Runs -/

/-- **Induction on normal forms**: inline members are smaller, and targets have less depth. -/
theorem content_induction {P : ℕ → Json → Prop}
    (h : ∀ depth v, (∀ m ∈ allOf v, P depth m) → (∀ less < depth, ∀ w, P less w) → P depth v) (depth : ℕ) (v : Json) :
    P depth v := by
  induction depth using Nat.strong_induction_on generalizing v with
  | _ depth ih =>
    induction hsize : v.size using Nat.strong_induction_on generalizing v with
    | _ size isize =>
      refine h depth v (fun m hm => isize m.size ?_ m rfl) ih
      have hlt := sizeItems_allOf_lt v
      have hle := Json.size_le_of_mem hm
      omega

/-- What a failure of the normal form of `v` says about circles, unless it comes from looking a reference up. -/
def Accounts (env : Setting) (seen : List String) (v : Json) (f : Failure) : Prop :=
  ∀ text, f = .schema (.circular text) → Blames env.find seen v text ∨ ∃ other, env.find other = .error f

/-- What the run of a normal form shows. -/
def IsExplained (env : Setting) (depth : ℕ) (v : Json) : Prop :=
  ∀ s seen notices, Yields (content env depth s seen v) notices (fun fs _ => HasForm env (s.withContent v) fs)
    fun f _ => Accounts env seen v f

lemma accounts_of_ne {f : Failure} (h : ∀ text, f ≠ .schema (.circular text)) : Accounts env seen v f :=
  fun text hf => absurd hf (h text)

lemma Accounts.imp {w : Json} {seen' : List String} {f : Failure} (h : Accounts env seen' w f)
    (himp : ∀ text, Blames env.find seen' w text → Blames env.find seen v text) : Accounts env seen v f :=
  fun text hf => (h text hf).imp_left (himp text)

lemma member_explained (hinline : ∀ m ∈ allOf v, IsExplained env depth m)
    (hbehind : ∀ less < depth, ∀ w, IsExplained env less w) (hm : m ∈ allOf v) (notices : List Notice) :
    Yields (member env depth s seen m) notices
      (fun fs _ => ∃ t, meant env (s.withContent v) m = .ok t ∧ HasForm env t fs) fun f _ => Accounts env seen v f := by
  cases hr : reference? m with
  | none =>
    rw [member_of_inline hr]
    refine (hinline m hm s seen notices).mono (fun fs _ hfs => ?_) fun f _ hf => hf.imp fun _ => Blames.inline hm hr
    exact ⟨s.withContent m, meant_of_inline hr, hfs⟩
  | some text =>
    by_cases hseen : text ∈ seen
    · rw [member_of_seen hr hseen]
      refine Yields.of_throw fun again hagain => Or.inl ?_
      cases hagain
      exact Blames.of_seen hm hr hseen
    · cases hfind : env.find text with
      | error f =>
        rw [member_of_unknown hr hseen hfind]
        exact Yields.of_throw fun _ _ => Or.inr ⟨text, hfind⟩
      | ok t =>
        rw [member_of_target hr hseen hfind]
        cases depth with
        | zero => exact Yields.of_throw (accounts_of_ne (by rintro _ ⟨⟩))
        | succ less =>
          refine (hbehind less (Nat.lt_succ_self less) t.content t (text :: seen) notices).mono (fun fs _ hfs => ?_) ?_
          · exact ⟨t, (meant_of_reference hr).trans hfind, hfs⟩
          · exact fun f _ hf => hf.imp fun _ => Blames.behind hm hr hfind

lemma mergeAll_explained (hinline : ∀ m ∈ allOf v, IsExplained env depth m)
    (hbehind : ∀ less < depth, ∀ w, IsExplained env less w) {members : List Json} (hsub : members ⊆ allOf v) (done : Fields)
    (notices : List Notice) :
    Yields (mergeAll env depth s seen done members) notices
      (fun merged _ => Folds env (s.withContent v) done members merged) fun f _ => Accounts env seen v f := by
  induction members generalizing done notices with
  | nil =>
    rw [mergeAll]
    exact Yields.of_pure (.nil _ done)
  | cons m members ih =>
    obtain ⟨hm, hsub⟩ := List.cons_subset.1 hsub
    have htold : ∀ (keys : List String) notices, Yields (keys.forM fun key => Told.tell (.kindMismatch key)) notices
        (fun _ _ => True) fun f _ => Accounts env seen v f := by
      intro keys
      induction keys with
      | nil => exact fun _ => Yields.of_pure trivial
      | cons key keys ih => exact fun notices => Yields.bind (Yields.of_modify (ih _))
    rw [mergeAll]
    refine Yields.bind ((member_explained hinline hbehind hm notices).mono (fun fs notices hfs => ?_) fun _ _ h => h)
    refine Yields.bind ((htold _ notices).mono (fun _ notices _ => ?_) fun _ _ h => h)
    refine (ih hsub _ notices).mono (fun result _ hresult => ?_) fun _ _ h => h
    obtain ⟨t, ht, own, merged, hown, hinner, htype⟩ := hfs
    exact .cons ht hown hinner htype hresult

/-- **What the run of a normal form shows**: a normal form that comes from folding the members, or a reason that is not
about circles, or a circle. -/
theorem content_explained (env : Setting) (depth : ℕ) (v : Json) : IsExplained env depth v := by
  refine content_induction (P := IsExplained env) (fun depth v hinline hbehind => ?_) depth v
  intro s seen notices
  rw [content_eq]
  cases hown : own? v with
  | none => exact Yields.of_throw (accounts_of_ne (by rintro _ ⟨⟩))
  | some own =>
    have hmerged := @mergeAll_explained env depth s seen v hinline hbehind _ (List.Subset.refl _) own notices
    refine Yields.bind (hmerged.mono (fun merged notices hfolds => ?_) fun _ _ h => h)
    cases htype : settleType env.rules merged with
    | error f =>
      refine Yields.of_throw (accounts_of_ne ?_)
      rw [settleType_error htype]
      rintro _ ⟨⟩
    | ok fs => exact Yields.of_pure ⟨own, merged, hown, hfolds, htype⟩

/-- What the run of `normalize` shows. -/
lemma normalize_explained (env : Setting) (s : Schema Json) (notices : List Notice) :
    Yields (normalize env s) notices (fun t _ => HasForm env s t.content) fun f _ => Accounts env [] s.content f := by
  refine Yields.bind ((content_explained env env.depth s.content s [] notices).mono (fun fs notices hfs => ?_) fun _ _ h => h)
  exact Yields.of_pure hfs

end Typings.Normal
