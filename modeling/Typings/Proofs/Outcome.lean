import Mathlib.Tactic.Common

/-!
Computations that may fail and that keep a state: what holds of the outcome. `Yields x s good bad` says that `x`, begun in
the state `s`, ends well with `good` or fails with `bad`; the lemmas run through a computation step by step. `Alike x y
good bad` says the same of two computations at once, and that their outcomes are equal. `Twins x y R` says that two
computations end alike from any two states. `Ensures x P` leaves states and failures aside: the value has `P` where there
is one.
-/

namespace Typings

variable {ε σ α β : Type}

/-- **What a computation yields** from a state: `good` if it ends well, `bad` if it fails. -/
def Yields (x : EStateM ε σ α) (s : σ) (good : α → σ → Prop) (bad : ε → σ → Prop) : Prop :=
  match x s with
  | .ok a s' => good a s'
  | .error e s' => bad e s'

namespace Yields

variable {x : EStateM ε σ α} {f : α → EStateM ε σ β} {s s' : σ} {a : α} {e : ε} {good good' : α → σ → Prop}
  {bad bad' : ε → σ → Prop}

lemma good_of_ok (h : Yields x s good bad) (hx : x s = .ok a s') : good a s' := by
  unfold Yields at h
  rwa [hx] at h

lemma bad_of_error (h : Yields x s good bad) (hx : x s = .error e s') : bad e s' := by
  unfold Yields at h
  rwa [hx] at h

lemma exists_ok (h : Yields x s good fun _ _ => False) : ∃ a s', x s = .ok a s' ∧ good a s' := by
  unfold Yields at h
  split at h
  · next a s' hx => exact ⟨a, s', hx, h⟩
  · exact h.elim

lemma of_outcome (hok : ∀ a s', x s = .ok a s' → good a s') (hbad : ∀ e s', x s = .error e s' → bad e s') :
    Yields x s good bad := by
  unfold Yields
  split
  · next hx => exact hok _ _ hx
  · next hx => exact hbad _ _ hx

lemma mono (h : Yields x s good bad) (hg : ∀ a s', good a s' → good' a s') (hb : ∀ e s', bad e s' → bad' e s') :
    Yields x s good' bad' :=
  of_outcome (fun a s' hx => hg a s' (h.good_of_ok hx)) fun e s' hx => hb e s' (h.bad_of_error hx)

lemma and (h : Yields x s good bad) (h' : Yields x s good' bad') :
    Yields x s (fun a s' => good a s' ∧ good' a s') fun e s' => bad e s' ∧ bad' e s' :=
  of_outcome (fun _ _ hx => ⟨h.good_of_ok hx, h'.good_of_ok hx⟩) fun _ _ hx => ⟨h.bad_of_error hx, h'.bad_of_error hx⟩

lemma anything : Yields x s (fun _ _ => True) fun _ _ => True :=
  of_outcome (fun _ _ _ => trivial) fun _ _ _ => trivial

/-- One step, then what follows it. -/
lemma bind {good : β → σ → Prop} (h : Yields x s (fun a s' => Yields (f a) s' good bad) bad) :
    Yields (x >>= f) s good bad := by
  have hrun : (x >>= f) s = EStateM.bind x f s := rfl
  unfold Yields at h ⊢
  rw [hrun, EStateM.bind]
  split at h
  · next hx =>
    rw [hx]
    exact h
  · next hx =>
    rw [hx]
    exact h

/-- One step that may end anyhow, then what follows it. -/
lemma skip {good : β → σ → Prop} (h : ∀ a s', Yields (f a) s' good fun _ _ => True) :
    Yields (x >>= f) s good fun _ _ => True :=
  bind (anything.mono (fun a s' _ => h a s') fun _ _ _ => trivial)

lemma of_ok (hx : x s = .ok a s') (h : good a s') : Yields x s good bad := by
  unfold Yields
  rwa [hx]

lemma of_pure (h : good a s) : Yields (pure a) s good bad := h

lemma of_throw (h : bad e s) : Yields (throw e) s good bad := h

lemma of_modify {g : σ → σ} {good : Unit → σ → Prop} (h : good () (g s)) : Yields (modify g) s good bad := h

lemma of_modifyGet {g : σ → α × σ} (h : good (g s).1 (g s).2) : Yields (modifyGet g) s good bad := h

lemma of_get {good : σ → σ → Prop} (h : good s s) : Yields get s good bad := h

end Yields

/-- **What a computation ensures**: wherever it ends well, its value has `P`. -/
def Ensures (x : EStateM ε σ α) (P : α → Prop) : Prop := ∀ s, Yields x s (fun a _ => P a) fun _ _ => True

namespace Ensures

variable {x : EStateM ε σ α} {f : α → EStateM ε σ β} {P : α → Prop} {Q : β → Prop} {a : α} {e : ε}

lemma anything : Ensures x fun _ => True := fun _ => Yields.anything

lemma of_pure (h : P a) : Ensures (pure a : EStateM ε σ α) P := fun _ => Yields.of_pure h

lemma of_throw : Ensures (throw e : EStateM ε σ α) P := fun _ => Yields.of_throw trivial

lemma bind (hx : Ensures x P) (hf : ∀ a, P a → Ensures (f a) Q) : Ensures (x >>= f) Q := fun s =>
  Yields.bind ((hx s).mono (fun a s' ha => hf a ha s') fun _ _ h => h)

lemma mapM {xs : List α} (h : ∀ a ∈ xs, Ensures (f a) Q) :
    Ensures (xs.mapM f) fun bs => bs.length = xs.length ∧ ∀ b ∈ bs, Q b := by
  induction xs with
  | nil => exact of_pure ⟨rfl, by simp⟩
  | cons a xs ih =>
    rw [List.mapM_cons]
    refine (h a List.mem_cons_self).bind fun b hb => ?_
    refine (ih fun a ha => h a (List.mem_cons_of_mem _ ha)).bind fun bs hbs => ?_
    exact of_pure ⟨congrArg (· + 1) hbs.1, List.forall_mem_cons.2 ⟨hb, hbs.2⟩⟩

end Ensures

/-- Whether a computation ends well, with a value and in a state of which `p` holds. -/
def ends (x : EStateM ε σ α) (s : σ) (p : α → σ → Bool) : Bool :=
  match x s with
  | .ok a s' => p a s'
  | .error _ _ => false

lemma exists_of_ends {x : EStateM ε σ α} {s : σ} {p : α → σ → Bool} (h : ends x s p = true) :
    ∃ a s', x s = .ok a s' ∧ p a s' = true := by
  unfold ends at h
  split at h
  · next a s' hx => exact ⟨a, s', hx, h⟩
  · cases h

/-! ### Two computations side by side -/

/-- **Two computations are alike**: from every state both have the same outcome, a value with `good` or a failure with
`bad`. -/
def Alike (x y : EStateM ε σ α) (good : α → Prop) (bad : ε → Prop) : Prop :=
  ∀ s, x s = y s ∧ Yields x s (fun a _ => good a) fun e _ => bad e

namespace Alike

variable {x y : EStateM ε σ α} {f g : α → EStateM ε σ β} {a : α} {e : ε} {good good' : α → Prop} {bad : ε → Prop}

lemma of_pure (h : good a) : Alike (σ := σ) (pure a) (pure a) good bad := fun _ => ⟨rfl, h⟩

lemma of_throw (h : bad e) : Alike (σ := σ) (throw e) (throw e) good bad := fun _ => ⟨rfl, h⟩

lemma of_modify {g : σ → σ} : Alike (modify g) (modify g) (fun _ => True) bad := fun _ => ⟨rfl, trivial⟩

lemma mono (h : Alike x y good bad) (hg : ∀ a, good a → good' a) : Alike x y good' bad :=
  fun s => ⟨(h s).1, (h s).2.mono (fun a _ => hg a) fun _ _ he => he⟩

/-- One step, then what follows it. -/
lemma bind {good : β → Prop} {P : α → Prop} (h : Alike x y P bad) (hf : ∀ a, P a → Alike (f a) (g a) good bad) :
    Alike (x >>= f) (y >>= g) good bad := by
  intro s
  obtain ⟨heq, hx⟩ := h s
  have hrun : (x >>= f) s = EStateM.bind x f s := rfl
  have hrun' : (y >>= g) s = EStateM.bind y g s := rfl
  refine ⟨?_, Yields.bind (hx.mono (fun a s' ha => (hf a ha s').2) fun _ _ he => he)⟩
  rw [hrun, hrun', EStateM.bind, EStateM.bind, ← heq]
  cases hs : x s with
  | ok a s' => exact (hf a (hx.good_of_ok hs) s').1
  | error e s' => rfl

lemma mapM {xs : List α} (h : ∀ a ∈ xs, Alike (f a) (g a) (fun _ => True) bad) :
    Alike (xs.mapM f) (xs.mapM g) (fun _ => True) bad := by
  induction xs with
  | nil => exact of_pure trivial
  | cons a xs ih =>
    rw [List.mapM_cons, List.mapM_cons]
    refine (h a List.mem_cons_self).bind fun _ _ => ?_
    exact (ih fun a' ha' => h a' (List.mem_cons_of_mem _ ha')).bind fun _ _ => of_pure trivial

lemma forM {xs : List α} {f g : α → EStateM ε σ PUnit} (h : ∀ a ∈ xs, Alike (f a) (g a) (fun _ => True) bad) :
    Alike (xs.forM f) (xs.forM g) (fun _ => True) bad := by
  induction xs with
  | nil => exact of_pure trivial
  | cons a xs ih =>
    exact (h a List.mem_cons_self).bind fun _ _ => ih fun a' ha' => h a' (List.mem_cons_of_mem _ ha')

end Alike

/-! ### Two computations from two states -/

/-- The outcome of a computation, without the state that it leaves. -/
def outcome (x : EStateM ε σ α) (s : σ) : Except ε α :=
  match x s with
  | .ok a _ => .ok a
  | .error e _ => .error e

/-- The state that a computation leaves, whether it ends well or fails. -/
def final (x : EStateM ε σ α) (s : σ) : σ :=
  match x s with
  | .ok _ s' | .error _ s' => s'

/-- Two outcomes match: they are values with `R`, or one and the same failure. -/
inductive Matches (R : α → β → Prop) : Except ε α → Except ε β → Prop
  | ok {a : α} {b : β} (h : R a b) : Matches R (.ok a) (.ok b)
  | error (e : ε) : Matches R (.error e) (.error e)

/-- **Twins**: the outcomes of two computations match, whatever states they begin in. -/
def Twins (x : EStateM ε σ α) (y : EStateM ε σ β) (R : α → β → Prop) : Prop :=
  ∀ s t, Matches R (outcome x s) (outcome y t)

section Runs

variable {x : EStateM ε σ α} {f : α → EStateM ε σ β} {s s' : σ} {a : α} {e : ε}

lemma bind_of_ok (h : x s = .ok a s') : (x >>= f) s = f a s' := by
  have hrun : (x >>= f) s = EStateM.bind x f s := rfl
  rw [hrun, EStateM.bind, h]

lemma bind_of_error (h : x s = .error e s') : (x >>= f) s = .error e s' := by
  have hrun : (x >>= f) s = EStateM.bind x f s := rfl
  rw [hrun, EStateM.bind, h]

lemma exists_of_bind_eq_ok {b : β} (h : (x >>= f) s = .ok b s') : ∃ a s₁, x s = .ok a s₁ ∧ f a s₁ = .ok b s' := by
  cases hx : x s with
  | ok a s₁ =>
    rw [bind_of_ok hx] at h
    exact ⟨a, s₁, rfl, h⟩
  | error e s₁ =>
    rw [bind_of_error hx] at h
    cases h

lemma outcome_of_ok (h : x s = .ok a s') : outcome x s = .ok a := by
  unfold outcome
  rw [h]

lemma outcome_of_error (h : x s = .error e s') : outcome x s = .error e := by
  unfold outcome
  rw [h]

lemma outcome_bind_of_ok (h : x s = .ok a s') : outcome (x >>= f) s = outcome (f a) s' := by
  unfold outcome
  rw [bind_of_ok h]

lemma outcome_bind_of_error (h : x s = .error e s') : outcome (x >>= f) s = .error e := outcome_of_error (bind_of_error h)

lemma final_of_ok (h : x s = .ok a s') : final x s = s' := by
  unfold final
  rw [h]

lemma final_of_error (h : x s = .error e s') : final x s = s' := by
  unfold final
  rw [h]

lemma eq_error_of_outcome (h : outcome x s = .error e) : x s = .error e (final x s) := by
  unfold outcome at h
  unfold final
  cases hx : x s with
  | ok a s' =>
    rw [hx] at h
    cases h
  | error e' s' =>
    rw [hx] at h
    cases h
    rfl

lemma final_bind_of_ok (h : x s = .ok a s') : final (x >>= f) s = final (f a) s' := by
  unfold final
  rw [bind_of_ok h]

end Runs

lemma final_of_yields {x : EStateM ε σ α} {s : σ} {P : σ → Prop} (h : Yields x s (fun _ => P) fun _ => P) :
    P (final x s) := by
  unfold final
  split
  · next hx => exact h.good_of_ok hx
  · next hx => exact h.bad_of_error hx

namespace Matches

lemma eq {o o' : Except ε α} (h : Matches Eq o o') : o = o' := by
  cases h with
  | ok h => rw [h]
  | error e => rfl

end Matches

namespace Twins

variable {γ δ : Type} {x : EStateM ε σ α} {y : EStateM ε σ β} {R : α → β → Prop}

lemma of_pure {a : α} {b : β} (h : R a b) : Twins (ε := ε) (σ := σ) (pure a) (pure b) R := fun _ _ => .ok h

lemma of_throw (e : ε) : Twins (throw e : EStateM ε σ α) (throw e : EStateM ε σ β) R := fun _ _ => .error e

lemma of_modify {f g : σ → σ} : Twins (ε := ε) (modify f) (modify g) Eq := fun _ _ => .ok rfl

/-- One step, then what follows it. -/
lemma bind {f : α → EStateM ε σ γ} {g : β → EStateM ε σ δ} {S : γ → δ → Prop} (h : Twins x y R)
    (hf : ∀ a b, R a b → Twins (f a) (g b) S) : Twins (x >>= f) (y >>= g) S := by
  intro s t
  have hxy := h s t
  cases hx : x s with
  | ok a s' =>
    cases hy : y t with
    | ok b t' =>
      rw [outcome_bind_of_ok hx, outcome_bind_of_ok hy]
      simp only [outcome, hx, hy] at hxy
      cases hxy with
      | ok hab => exact hf a b hab s' t'
    | error e t' =>
      simp only [outcome, hx, hy] at hxy
      cases hxy
  | error e s' =>
    cases hy : y t with
    | ok b t' =>
      simp only [outcome, hx, hy] at hxy
      cases hxy
    | error e' t' =>
      rw [outcome_bind_of_error hx, outcome_bind_of_error hy]
      simp only [outcome, hx, hy] at hxy
      cases hxy
      exact .error e

/-- A step that gives its value in every state does not show. -/
lemma of_step {f : α → EStateM ε σ γ} {a : α} {S : γ → β → Prop} (hx : ∀ s, ∃ s', x s = .ok a s') (h : Twins (f a) y S) :
    Twins (x >>= f) y S := by
  intro s t
  obtain ⟨s', hrun⟩ := hx s
  rw [outcome_bind_of_ok hrun]
  exact h s' t

/-- Where the values of the first step are equal, the same follows. -/
lemma bind_eq {y : EStateM ε σ α} {f g : α → EStateM ε σ γ} {S : γ → γ → Prop} (h : Twins x y Eq)
    (hf : ∀ a, Twins (f a) (g a) S) : Twins (x >>= f) (y >>= g) S := by
  refine h.bind ?_
  rintro a _ rfl
  exact hf a

lemma map {y : EStateM ε σ α} (h : Twins x y Eq) (f : α → γ) :
    Twins (do let a ← x; pure (f a)) (do let a ← y; pure (f a)) Eq := h.bind_eq fun _ => of_pure rfl

lemma mapM {f g : γ → EStateM ε σ δ} {xs : List γ} (h : ∀ c ∈ xs, Twins (f c) (g c) Eq) :
    Twins (xs.mapM f) (xs.mapM g) Eq := by
  induction xs with
  | nil => exact of_pure rfl
  | cons c xs ih =>
    rw [List.mapM_cons, List.mapM_cons]
    exact (h c List.mem_cons_self).bind_eq fun _ => (ih fun c' hc' => h c' (List.mem_cons_of_mem _ hc')).map _

lemma forM {f g : γ → EStateM ε σ PUnit} {xs : List γ} (h : ∀ c ∈ xs, Twins (f c) (g c) Eq) :
    Twins (xs.forM f) (xs.forM g) Eq := by
  induction xs with
  | nil => exact of_pure rfl
  | cons c xs ih => exact (h c List.mem_cons_self).bind fun _ _ _ => ih fun c' hc' => h c' (List.mem_cons_of_mem _ hc')

end Twins

/-! ### Without a state -/

lemma bind_eq_ok {x : Except ε α} {f : α → Except ε β} {b : β} :
    (x >>= f) = .ok b ↔ ∃ a, x = .ok a ∧ f a = .ok b := by
  cases x <;> simp [bind, Except.bind]

lemma bind_eq_error {x : Except ε α} {f : α → Except ε β} {e : ε} :
    (x >>= f) = .error e ↔ x = .error e ∨ ∃ a, x = .ok a ∧ f a = .error e := by
  cases x <;> simp [bind, Except.bind]

lemma exists_of_mapM_eq_ok {g : α → Except ε β} {xs : List α} {ys : List β} (h : xs.mapM g = .ok ys) {y : β} (hy : y ∈ ys) :
    ∃ x ∈ xs, g x = .ok y := by
  induction xs generalizing ys with
  | nil =>
    cases h
    cases hy
  | cons x xs ih =>
    rw [List.mapM_cons, bind_eq_ok] at h
    obtain ⟨y', hy', h⟩ := h
    obtain ⟨ys', hys', h⟩ := bind_eq_ok.1 h
    cases h
    rcases List.mem_cons.1 hy with rfl | hy
    · exact ⟨x, List.mem_cons_self, hy'⟩
    · obtain ⟨x', hx', he⟩ := ih hys' hy
      exact ⟨x', List.mem_cons_of_mem _ hx', he⟩

lemma mapM_eq_error {g : α → Except ε β} {xs : List α} {e : ε} (h : xs.mapM g = .error e) :
    ∃ x ∈ xs, g x = .error e := by
  induction xs with
  | nil => cases h
  | cons x xs ih =>
    rw [List.mapM_cons, bind_eq_error] at h
    rcases h with h | ⟨y, -, h⟩
    · exact ⟨x, List.mem_cons_self, h⟩
    · rcases bind_eq_error.1 h with h | ⟨ys, -, h⟩
      · obtain ⟨x', hx', he⟩ := ih h
        exact ⟨x', List.mem_cons_of_mem _ hx', he⟩
      · cases h

end Typings
