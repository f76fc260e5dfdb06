import Mathlib
import Typings.Proofs.Depth
import Typings.Proofs.Folding

/-!
Circles of `allOf` references. On the way from a value inwards, no reference is followed twice, so a registry with finitely
many texts in it bounds how many are followed one inside the other, and the depth of normal forms is never used up. A normal
form exists only if the references that a value leads to come to an end. Main statements:

* `content_settled`: at depths that are enough for the texts that are left, the outcome does not depend on the depth;
* `HasForm.acc`: the references that a normal form followed come to an end;
* `Generator.normalize_finds_circles`: a failure for a circle is about a circle, and no circle has a normal form.
-/

namespace Typings

open Relation (ReflTransGen TransGen)

namespace Normal

/-! ### Texts that are left -/

section Left

variable {find : String → Except Failure (Schema Json)} {texts : Finset String} {depth : ℕ} {seen : List String}
  {v m : Json} {t : Schema Json} {text : String}

/-- The texts that are not being followed. -/
def left (texts : Finset String) (seen : List String) : Finset String := texts.filter (· ∉ seen)

lemma card_left_le (texts : Finset String) (seen : List String) : (left texts seen).card ≤ texts.card :=
  Finset.card_filter_le _ _

lemma card_left_lt (htext : text ∈ texts) (hseen : text ∉ seen) :
    (left texts (text :: seen)).card < (left texts seen).card := by
  apply Finset.card_lt_card
  refine (Finset.ssubset_iff_of_subset ?_).2 ⟨text, by simp [left, htext, hseen], by simp [left]⟩
  intro other hother
  simp only [left, Finset.mem_filter, List.mem_cons, not_or] at hother ⊢
  exact ⟨hother.1, hother.2.2⟩

/-- The contents of all references point to `texts` only. -/
def IsClosed (find : String → Except Failure (Schema Json)) (texts : Finset String) : Prop :=
  ∀ text t, find text = .ok t → ∀ text', PointsTo text' t.content → text' ∈ texts

/-- The depth is enough for a value: where a reference of it is followed, fewer texts are left than the depth is. -/
def IsEnough (texts : Finset String) (depth : ℕ) (seen : List String) (v : Json) : Prop :=
  ∀ text, PointsTo text v → text ∉ seen → (left texts (text :: seen)).card < depth

lemma isEnough_of_card (h : texts.card < depth) : IsEnough texts depth seen v :=
  fun _ _ _ => Nat.lt_of_le_of_lt (card_left_le _ _) h

lemma IsEnough.inline (h : IsEnough texts depth seen v) (hm : m ∈ allOf v) (hr : reference? m = none) :
    IsEnough texts depth seen m := fun text htext => h text (.inline hm hr htext)

/-- Following a reference takes one depth and one text. -/
lemma IsEnough.behind (h : IsEnough texts depth seen v) (hclosed : IsClosed find texts) (hm : m ∈ allOf v)
    (hr : reference? m = some text) (hseen : text ∉ seen) (ht : find text = .ok t) :
    ∃ less, depth = less + 1 ∧ IsEnough texts less (text :: seen) t.content := by
  have hlt := h text (.member hm hr) hseen
  refine ⟨depth - 1, by omega, fun next hnext hnew => ?_⟩
  have hless := card_left_lt (hclosed text t ht next hnext) hnew
  omega

end Left

/-! ### Normal forms at two depths -/

section Settled

variable {env : Setting} {texts : Finset String} {other depth depth' : ℕ} {s : Schema Json} {seen : List String}
  {v m : Json}

/-- At depths that are enough for a value, its normal form is the same, and does not fail for want of depth. -/
def IsSettled (env : Setting) (other : ℕ) (texts : Finset String) (depth : ℕ) (v : Json) : Prop :=
  ∀ depth' s seen, IsEnough texts depth seen v → IsEnough texts depth' seen v →
    Alike (content env depth s seen v) (content { env with depth := other } depth' s seen v) (fun _ => True) (· ≠ .endless)

variable (hfind : ∀ text f, env.find text = .error f → f ≠ .endless) (hclosed : IsClosed env.find texts)
  (hinline : ∀ m ∈ allOf v, IsSettled env other texts depth m)
  (hbehind : ∀ less < depth, ∀ w, IsSettled env other texts less w)
  (hd : IsEnough texts depth seen v) (hd' : IsEnough texts depth' seen v)

include hfind hclosed hinline hbehind hd hd'

lemma member_settled (hm : m ∈ allOf v) :
    Alike (member env depth s seen m) (member { env with depth := other } depth' s seen m) (fun _ => True)
      (· ≠ .endless) := by
  cases hr : reference? m with
  | none =>
    rw [member_of_inline hr, member_of_inline hr]
    exact hinline m hm depth' s seen (hd.inline hm hr) (hd'.inline hm hr)
  | some text =>
    by_cases hseen : text ∈ seen
    · rw [member_of_seen hr hseen, member_of_seen hr hseen]
      exact Alike.of_throw (by rintro ⟨⟩)
    · cases ht : env.find text with
      | error f =>
        have ht' : { env with depth := other }.find text = .error f := ht
        rw [member_of_unknown hr hseen ht, member_of_unknown hr hseen ht']
        exact Alike.of_throw (hfind text f ht)
      | ok t =>
        have ht' : { env with depth := other }.find text = .ok t := ht
        obtain ⟨less, rfl, hless⟩ := hd.behind hclosed hm hr hseen ht
        obtain ⟨less', rfl, hless'⟩ := hd'.behind hclosed hm hr hseen ht
        rw [member_of_target hr hseen ht, member_of_target hr hseen ht']
        exact hbehind less (Nat.lt_succ_self less) t.content less' t (text :: seen) hless hless'

lemma mergeAll_settled {members : List Json} (hsub : members ⊆ allOf v) (done : Fields) :
    Alike (mergeAll env depth s seen done members) (mergeAll { env with depth := other } depth' s seen done members)
      (fun _ => True) (· ≠ .endless) := by
  induction members generalizing done with
  | nil =>
    rw [mergeAll, mergeAll]
    exact Alike.of_pure trivial
  | cons m members ih =>
    obtain ⟨hm, hsub⟩ := List.cons_subset.1 hsub
    rw [mergeAll, mergeAll]
    refine (member_settled hfind hclosed hinline hbehind hd hd' hm).bind fun fs _ => ?_
    exact (Alike.forM fun key _ => Alike.of_modify).bind fun _ _ => ih hsub _

omit hinline hbehind hd hd'

/-- **Where the depths are enough, they do not matter.** -/
theorem content_settled (other depth : ℕ) (v : Json) : IsSettled env other texts depth v := by
  refine content_induction (P := IsSettled env other texts) (fun depth v hinline hbehind => ?_) depth v
  intro depth' s seen hd hd'
  rw [content_eq, content_eq]
  cases own? v with
  | none => exact Alike.of_throw (by rintro ⟨⟩)
  | some own =>
    refine (mergeAll_settled hfind hclosed hinline hbehind hd hd' (List.Subset.refl _) own).bind fun merged _ => ?_
    exact Told.lift_alike (fun _ _ => trivial) fun f hf => settleType_error hf ▸ (by rintro ⟨⟩)

/-- **Normalisation comes to an end**: from some depth on, more depth changes nothing. -/
theorem normalize_settled (hdepth : texts.card < env.depth) (hother : texts.card < other) (s : Schema Json) :
    Alike (normalize env s) (normalize { env with depth := other } s) (fun _ => True) (· ≠ .endless) := by
  have hcontent := content_settled hfind hclosed other env.depth s.content other s [] (isEnough_of_card hdepth)
    (isEnough_of_card hother)
  exact hcontent.bind fun _ _ => Alike.of_pure trivial

end Settled

/-! ### Circles -/

/-- **A circle is reached**: a value leads to the reference `text`, and `text` leads back to itself. -/
def ReachesCircle (find : String → Except Failure (Schema Json)) (v : Json) (text : String) : Prop :=
  ∃ first, PointsTo first v ∧ ReflTransGen (LeadsTo find) first text ∧ TransGen (LeadsTo find) text text

lemma Blames.reachesCircle {find : String → Except Failure (Schema Json)} {v : Json} {text : String}
    (h : Blames find [] v text) : ReachesCircle find v text := by
  obtain ⟨first, hfirst, hpath, hagain⟩ := h
  exact ⟨first, hfirst, hpath, hagain.resolve_left List.not_mem_nil⟩

lemma not_transGen_of_acc {α : Type} {R : α → α → Prop} {a : α} (h : Acc (fun b a => R a b) a) : ¬ TransGen R a a := by
  induction h with
  | intro a _ ih =>
    intro hcircle
    obtain ⟨b, hab, hba⟩ := TransGen.head'_iff.1 hcircle
    exact ih b hab (.tail' hba hab)

lemma acc_of_reflTransGen {α : Type} {R : α → α → Prop} {a b : α} (h : Acc (fun b a => R a b) a)
    (hab : ReflTransGen R a b) : Acc (fun b a => R a b) b := by
  induction hab with
  | refl => exact h
  | tail _ hstep ih => exact ih.inv hstep

variable {env : Setting}

/-- The references among members that were folded come to an end. -/
lemma Folds.acc {s : Schema Json} {done result : Fields} {members : List Json} (h : Folds env s done members result)
    {m : Json} (hm : m ∈ members) {text : String} (htext : reference? m = some text ∨ reference? m = none ∧ PointsTo text m) :
    Acc (fun b a => LeadsTo env.find a b) text := by
  -- on how the members are folded: what a member stands for was folded before it
  induction h generalizing m text with
  | nil => cases hm
  | cons hmeant _ _ _ _ ihinner ihrest =>
    rcases List.mem_cons.1 hm with rfl | hm
    · rcases htext with hr | ⟨hr, hpoints⟩
      · rw [meant_of_reference hr] at hmeant
        refine ⟨text, ?_⟩
        rintro next ⟨t, ht, hnext⟩
        obtain rfl := Except.ok.inj (hmeant.symm.trans ht)
        obtain ⟨m', hm', htext⟩ := pointsTo_iff.1 hnext
        exact ihinner hm' htext
      · rw [meant_of_inline hr] at hmeant
        obtain rfl := Except.ok.inj hmeant
        obtain ⟨m', hm', htext⟩ := pointsTo_iff.1 hpoints
        exact ihinner hm' htext
    · exact ihrest hm htext

/-- **Where there is a normal form, references come to an end.** -/
theorem HasForm.acc {s : Schema Json} {fs : Fields} (h : HasForm env s fs) {text : String} (htext : PointsTo text s.content) :
    Acc (fun b a => LeadsTo env.find a b) text := by
  obtain ⟨own, merged, -, hfolds, -⟩ := h
  obtain ⟨m, hm, htext⟩ := pointsTo_iff.1 htext
  exact hfolds.acc hm htext

lemma HasForm.not_reachesCircle {s : Schema Json} {fs : Fields} (h : HasForm env s fs) (text : String) :
    ¬ ReachesCircle env.find s.content text := by
  rintro ⟨first, hfirst, hpath, hcircle⟩
  exact not_transGen_of_acc (acc_of_reflTransGen (h.acc hfirst) hpath) hcircle

end Normal

/-! ### The texts of a registry -/

lemma Json.length_parts (v : Json) : v.parts.length = v.size := by
  have hread : (Node.ofJson v).read [] = v := Node.read_label 0 v
  calc v.parts.length = (Node.ofJson v).parts.length := by rw [← hread, Node.parts_read, List.length_map, hread]
    _ = (Node.ofJson v).size := Node.length_parts _
    _ = v.size := by rw [← Node.size_read [] (Node.ofJson v), hread]

lemma Normal.parts_of_pointsTo {text : String} {v : Json} (h : PointsTo text v) : .str text ∈ v.parts := by
  have hinside : ∀ {v m : Json}, m ∈ allOf v → m.parts ⊆ v.parts := by
    intro v m hm
    unfold allOf at hm
    cases hu : v.get? "allOf" with
    | none =>
      rw [hu] at hm
      cases hm
    | some u =>
      rw [hu] at hm
      have hitem : u.Holds m := Or.inl hm
      exact List.Subset.trans hitem.parts_subset (holds_of_get? hu).parts_subset
  induction h with
  | member hm hr =>
    obtain ⟨u, hu, hs⟩ := Option.bind_eq_some_iff.1 hr
    cases u with
    | str text' =>
      cases hs
      exact hinside hm ((holds_of_get? hu).parts_subset List.mem_cons_self)
    | _ => cases hs
  | inline hm _ _ ih => exact hinside hm ih

namespace Registry

/-- All that an address can lead to, as it stands. -/
def contents (r : Registry) : List Json :=
  (r.schemas.values ++ r.references.values.filterMap id).map (·.content.read r.refs)

/-- The texts in all that an address can lead to. -/
def texts (r : Registry) : Finset String := (r.contents.flatMap fun v => v.parts.filterMap Json.str?).toFinset

lemma card_texts_le (r : Registry) : r.texts.card ≤ r.size := by
  have hlength : ∀ schemas : List (Schema Node),
      ((schemas.map (·.content.read r.refs)).flatMap fun v => v.parts.filterMap Json.str?).length ≤
        Node.sizeItems (schemas.map (·.content)) := by
    intro schemas
    induction schemas with
    | nil => exact Nat.le_refl 0
    | cons s schemas ih =>
      have hs := List.length_filterMap_le Json.str? (s.content.read r.refs).parts
      rw [Json.length_parts, Node.size_read] at hs
      simp only [List.map_cons, List.flatMap_cons, List.length_append, Node.sizeItems]
      omega
  exact Nat.le_trans (List.toFinset_card_le _) (hlength _)

lemma isClosed_texts (r : Registry) : Normal.IsClosed r.reads r.texts := by
  intro text t ht next hnext
  rw [reads] at ht
  cases hd : r.dereference text with
  | error f =>
    rw [hd] at ht
    cases ht
  | ok s =>
    rw [hd] at ht
    cases ht
    have hmem : s ∈ r.schemas.values ++ r.references.values.filterMap id := by
      rcases mem_of_dereference hd with hs | hs
      · exact List.mem_append_left _ hs
      · exact List.mem_append_right _ (List.mem_filterMap.2 ⟨_, hs, rfl⟩)
    rw [texts, List.mem_toFinset]
    refine List.mem_flatMap.2 ⟨s.content.read r.refs, List.mem_map_of_mem hmem, ?_⟩
    exact List.mem_filterMap.2 ⟨_, Normal.parts_of_pointsTo hnext, rfl⟩

end Registry

namespace Generator

/-- **Normalisation finds circles, and only circles.** With any registry it comes to an end: more depth than it has changes
nothing, and it never stops for want of depth. If it fails for a circle, the reference that it names is one to which the
schema leads and which leads back to itself; and a schema that leads to any such reference has no normal form. -/
theorem normalize_finds_circles (options : Options) (r : Registry) (s : Schema Json) (notices : List Notice) :
    (∀ depth, depthBound r ≤ depth →
      Normal.normalize { normalSetting options r with depth } s notices = Normal.normalize (normalSetting options r) s notices) ∧
    (∀ notices', Normal.normalize (normalSetting options r) s notices ≠ .error .endless notices') ∧
    (∀ text notices', Normal.normalize (normalSetting options r) s notices = .error (.schema (.circular text)) notices' →
      Normal.ReachesCircle r.reads s.content text) ∧
    ∀ text, Normal.ReachesCircle r.reads s.content text →
      ∀ t notices', Normal.normalize (normalSetting options r) s notices ≠ .ok t notices' := by
  have hbound : r.texts.card < depthBound r := Nat.lt_succ_of_le r.card_texts_le
  have hsettled : ∀ depth, depthBound r ≤ depth → Alike (Normal.normalize (normalSetting options r) s)
      (Normal.normalize { normalSetting options r with depth } s) (fun _ => True) (· ≠ .endless) := by
    intro depth hdepth
    have hfind : ∀ text f, (normalSetting options r).find text = .error f → f ≠ .endless := r.reads_error
    exact Normal.normalize_settled hfind r.isClosed_texts hbound (Nat.lt_of_lt_of_le hbound hdepth) s
  have hexplained := Normal.normalize_explained (normalSetting options r) s notices
  refine ⟨fun depth hdepth => (hsettled depth hdepth notices).1.symm, fun notices' h => ?_, fun text notices' h => ?_, ?_⟩
  · exact (hsettled _ (Nat.le_refl _) notices).2.bad_of_error h rfl
  · rcases hexplained.bad_of_error h text rfl with hblames | ⟨other, hother⟩
    · exact hblames.reachesCircle
    · -- looking a reference up fails for other reasons
      have hreads : r.reads other = .error (.schema (.circular text)) := hother
      rw [Registry.reads, Registry.dereference] at hreads
      split at hreads <;> cases hreads
  · intro text hcircle t notices' h
    exact (hexplained.good_of_ok h).not_reachesCircle text hcircle

/-- A value that inherits from references. -/
def inherits (texts : List String) : Json := .obj [("allOf", .arr (texts.map fun text => .obj [("$ref", .str text)]))]

/-- Two schemas that inherit from each other, one of them under two spellings, and two that inherit from a third. -/
def ringAndDiamond : Registry :=
  { Registry.empty with
    schemas := [("/a#", plainSchema "/a" (inherits ["/b"])), ("/b#", plainSchema "/b" (inherits ["/a"])),
      ("/c#", plainSchema "/c" (inherits ["/e"])), ("/d#", plainSchema "/d" (inherits ["/e"])),
      ("/e#", plainSchema "/e" (.obj [("type", .str "object")]))] }

theorem normalize_finds_circles_ringAndDiamond :
    let env := normalSetting ⟨none, "", .distinct⟩ ringAndDiamond
    let ring : Schema Json := (plainSchema "/x" .null).withContent (inherits ["/a#"])
    let diamond : Schema Json := (plainSchema "/x" .null).withContent (inherits ["/c", "/d"])
    Normal.normalize env ring [] = .error (.schema (.circular "/b")) [] ∧
      Normal.ReachesCircle ringAndDiamond.reads ring.content "/b" ∧
      Normal.normalize env diamond [] = .ok (diamond.withContent [("type", .str "object")]) [] ∧
      ∀ text, ¬ Normal.ReachesCircle ringAndDiamond.reads diamond.content text := by
  intro env ring diamond
  have hring : Normal.normalize env ring [] = .error (.schema (.circular "/b")) [] := by cbv
  have hdiamond : Normal.normalize env diamond [] = .ok (diamond.withContent [("type", .str "object")]) [] := by cbv
  obtain ⟨-, -, hcircle, -⟩ := normalize_finds_circles ⟨none, "", .distinct⟩ ringAndDiamond ring []
  obtain ⟨-, -, -, hnone⟩ := normalize_finds_circles ⟨none, "", .distinct⟩ ringAndDiamond diamond []
  exact ⟨hring, hcircle "/b" [] hring, hdiamond, fun text h => hnone text h _ [] hdiamond⟩

end Generator

end Typings
