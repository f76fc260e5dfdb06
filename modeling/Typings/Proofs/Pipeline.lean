import Typings.Proofs.Closure
import Typings.Proofs.Emission

/-!
The whole way from documents to declarations. When both stages of resolution have succeeded, the registry is closed and
nothing is left to resolve, so every schema in the namespaces is sound: each reference that emission can meet in it, also
in what merging makes of it, has its schema. Main statement:

* `emit_registered`: emission looks up registered texts only; the only failure about a reference that it can end with
  is a target without names.
-/

namespace Typings

namespace Registry

variable {r : Registry}

/-- A text that means a schema. -/
def IsRegistered (r : Registry) (text : String) : Prop := ∃ s, r.dereference text = .ok s

lemma covers_of_dereference (hr : r.Closed) {text : String} {s : Schema Node} (h : r.dereference text = .ok s) :
    Discovery.Covers r.refs s :=
  (mem_of_dereference h).elim (hr.schemas s) (hr.targets s)

/-- **Covered schemas are sound** in a closed registry where nothing is left to resolve. -/
lemma sound_of_covers (hr : r.Closed) (hp : r.pending = []) {s : Schema Node} (hs : Discovery.Covers r.refs s) :
    Normal.Sound r.IsRegistered (s.read r.refs).content :=
  Normal.sound_read r.refs fun _ hreach _ htext => (hr.dereference hp hs hreach htext).2

end Registry

namespace Placement

variable {κ : Type} {P : Schema κ → Prop}

lemma place_every {tree : Namespace (Schema κ)} {s : Schema κ} (ht : tree.Every P) (hs : P s) (path : List String)
    (notices : List Notice) : Yields (place tree path s) notices (fun t _ => t.Every P) fun _ _ => True := by
  have hplaced := Namespace.every_insert hs path ht
  unfold place
  split
  · exact Yields.bind (Yields.of_modify (Yields.of_pure hplaced))
  · exact Yields.of_pure hplaced

lemma placeAll_every {tree : Namespace (Schema κ)} {schemas : List (Schema κ)} (ht : tree.Every P)
    (hs : ∀ s ∈ schemas, P s) (notices : List Notice) :
    Yields (placeAll tree schemas) notices (fun t _ => t.Every P) fun _ _ => True := by
  induction schemas generalizing tree notices with
  | nil => exact Yields.of_pure ht
  | cons s schemas ih =>
    have hrest : ∀ s' ∈ schemas, P s' := fun s' hs' => hs s' (List.mem_cons_of_mem _ hs')
    refine Yields.bind (Yields.anything.mono (fun path notices _ => ?_) fun _ _ h => h)
    split_ifs
    · exact Yields.bind (Yields.of_modify (ih ht hrest _))
    · exact Yields.bind ((place_every ht (hs s List.mem_cons_self) path notices).mono
        (fun t notices ht' => ih ht' hrest notices) fun _ _ h => h)

lemma build_every {schemas : List (Schema κ)} (hs : ∀ s ∈ schemas, P s) (notices : List Notice) :
    Yields (build schemas) notices (fun t _ => t.Every P) fun _ _ => True := by
  refine Yields.bind ((placeAll_every Namespace.every_empty hs notices).mono (fun t notices ht => ?_) fun _ _ h => h)
  split_ifs
  · exact Yields.of_throw trivial
  · exact Yields.of_pure ht

end Placement

namespace Generator

/-- All that comes before the declarations: the documents are registered, both stages are run and the namespaces are
built. -/
def prepare (options : Options) : List (Node × Option String) → Action (Namespace (Schema Node))
  | [] => do
    let _ ← runStage options .documents
    let _ ← runStage options .synthesized
    let tree ← namespaces
    Action.tell (.namespacesBuilt tree.countLeaves)
    return tree
  | (document, url) :: rest => do
    let _ ← addDocument document url
    prepare options rest

/-- Generating declarations is preparing and then emitting them. -/
theorem generate_eq (options : Options) (documents : List (Node × Option String)) :
    generate options documents = prepare options documents >>= emit options := by
  induction documents with
  | nil => simp [generate, prepare, finish]
  | cons d documents ih => simp [generate, prepare, ih]

lemma runStage_pending (options : Options) (stage : Stage) (r : Registry) :
    Yields (runStage options stage) r (fun _ r' => r'.pending = []) fun _ _ => True := by
  have hresolve : ∀ r, Yields (do
      let resolved ← Resolution.resolve options.fetcher
      Action.tell (.stageDone stage.name resolved)
      return resolved) r (fun _ r' => r'.pending = []) fun _ _ => True := by
    intro r
    refine Yields.bind (Yields.of_outcome (fun n r' h => ?_) fun _ _ _ => trivial)
    have hp : r'.pending = [] := Resolution.pending_of_resolve h
    exact Yields.bind (Yields.of_modify (Yields.of_pure hp))
  unfold runStage
  split_ifs
  · exact Yields.bind (Yields.of_get (Yields.bind (Yields.anything.mono (fun n r' _ =>
      Yields.bind (Yields.of_modify (hresolve _))) fun _ _ h => h)))
  · exact hresolve r

/-- A registry from which declarations are emitted, with its namespaces: it is closed, nothing is left to resolve, and what
is declared is registered. -/
structure Ready (r : Registry) (tree : Namespace (Schema Node)) : Prop where
  closed : r.Closed
  pending : r.pending = []
  declared : tree.Every (· ∈ r.schemas.values)

lemma namespaces_ready {r : Registry} (hr : r.Closed) (hp : r.pending = []) :
    Yields namespaces r (fun tree r' => Ready r' tree) fun _ _ => True := by
  refine Yields.bind (Yields.of_get (Yields.of_outcome (fun tree r' h => ?_) fun _ _ _ => trivial))
  have hbuild := Placement.build_every (P := (· ∈ r.schemas.values))
    (fun s hs => List.mem_of_mem_filter (p := (·.isDeclarable)) hs) r.notices
  simp only [told] at h
  split at h
  · next tree' notices hrun =>
    cases h
    exact ⟨⟨hr.texts, hr.schemas, hr.targets, hr.documents⟩, hp, hbuild.good_of_ok hrun⟩
  · cases h

/-- What is prepared can be emitted. -/
theorem prepare_ready (options : Options) (documents : List (Node × Option String)) {r : Registry} (hr : r.Closed) :
    Yields (prepare options documents) r (fun tree r' => Ready r' tree) fun _ _ => True := by
  induction documents generalizing r with
  | nil =>
    have hstage : ∀ stage {r : Registry}, r.Closed →
        Yields (runStage options stage) r (fun _ r' => r'.Closed ∧ r'.pending = []) fun _ _ => True := by
      intro stage r hr
      refine Yields.of_outcome (fun n r' h => ⟨?_, ?_⟩) fun _ _ _ => trivial
      · exact ((Quiet.runStage options stage r hr).good_of_ok h).1
      · exact (runStage_pending options stage r).good_of_ok h
    refine Yields.bind ((hstage .documents hr).mono (fun _ r₁ h₁ => ?_) fun _ _ h => h)
    refine Yields.bind ((hstage .synthesized h₁.1).mono (fun _ r₂ h₂ => ?_) fun _ _ h => h)
    refine Yields.bind ((namespaces_ready h₂.1 h₂.2).mono (fun tree r₃ h₃ => ?_) fun _ _ h => h)
    refine Yields.bind (Yields.of_modify (Yields.of_pure ?_))
    exact ⟨⟨h₃.closed.texts, h₃.closed.schemas, h₃.closed.targets, h₃.closed.documents⟩, h₃.pending, h₃.declared⟩
  | cons d documents ih =>
    refine Yields.bind (Yields.of_outcome (fun s r' h => ?_) fun _ _ _ => trivial)
    exact ih ((Quiet.addDocument d.1 d.2 r hr).good_of_ok h).1

lemma emission_alike (options : Options) {r : Registry} {tree : Namespace (Schema Node)} (h : Ready r tree)
    (lookup : String → Except Failure (Schema Json))
    (hl : ∀ text s, r.dereference text = .ok s → lookup text = .ok (s.read r.refs)) :
    Alike (Emission.emit (emissionSetting options r tree))
      (Emission.emit ((emissionSetting options r tree).withLookup lookup)) (fun _ => True) Failure.SparesTargets := by
  have hagree : Normal.Agree r.IsRegistered (fun text => (r.dereference text).map (·.read r.refs)) lookup := by
    rintro text ⟨s, hs⟩
    refine ⟨s.read r.refs, congrArg (Except.map _) hs, hl text s hs, ?_⟩
    exact Registry.sound_of_covers h.closed h.pending (Registry.covers_of_dereference h.closed hs)
  refine Emission.emit_alike hagree (emissionSetting options r tree) ?_
  refine Namespace.every_map (fun s hs => ?_) tree h.declared
  exact Registry.sound_of_covers h.closed h.pending (h.closed.schemas s hs)

/-- **Emission finds every reference.** After both stages it looks up registered texts only: whatever other texts mean, the
outcome is the same. And the only failure about a reference is that a target has no names. -/
theorem emit_registered (options : Options) (documents : List (Node × Option String)) (r : Registry)
    (tree : Namespace (Schema Node)) (h : prepare options documents .empty = .ok tree r) :
    (∀ lookup : String → Except Failure (Schema Json),
      (∀ text s, r.dereference text = .ok s → lookup text = .ok (s.read r.refs)) → ∀ notices,
        Emission.emit ((emissionSetting options r tree).withLookup lookup) notices =
          Emission.emit (emissionSetting options r tree) notices) ∧
    ∀ f r', emit options tree r = .error f r' → ∀ key fault, f = .reference key fault →
      fault = .nameless ∧ Address.names ⟨key⟩ = .ok [] := by
  have hready := (prepare_ready options documents Registry.closed_empty).good_of_ok h
  refine ⟨fun lookup hlookup notices => ((emission_alike options hready lookup hlookup notices).1).symm, ?_⟩
  intro f r' hf
  have halike := emission_alike options hready (fun text => (r.dereference text).map (·.read r.refs))
    (fun text s hs => congrArg (Except.map _) hs) r.notices
  have hyields : Yields (emit options tree) r (fun _ _ => True) fun f _ => f.SparesTargets := by
    refine Yields.bind (Yields.of_get (Yields.bind (Yields.of_outcome (fun _ _ _ => Yields.of_pure trivial) ?_)))
    intro f r' hrun
    simp only [told] at hrun
    split at hrun
    · cases hrun
    · next f' notices hfail =>
      cases hrun
      exact halike.2.bad_of_error hfail
  exact hyields.bad_of_error hf

/-- A document without an id whose `b` refers to the whole of it, through an `allOf` member. -/
def refersToWhole : Json :=
  .obj [("$ref", .str "#/definitions/b"), ("definitions", .obj [
    ("a", .obj [("properties", .obj [("whole", .obj [("$ref", .str "#")])])]),
    ("b", .obj [("allOf", .arr [.obj [("$ref", .str "#/definitions/a")]])])])]

theorem emit_registered_refersToWhole :
    ∃ tree r, prepare ⟨none, "", .distinct⟩ [(Node.ofJson refersToWhole, none)] .empty = .ok tree r ∧
      (∀ notices, Emission.emit ((emissionSetting ⟨none, "", .distinct⟩ r tree).withLookup fun text =>
          if r.dereference text matches .ok _ then (r.dereference text).map (·.read r.refs) else .error .endless) notices =
        Emission.emit (emissionSetting ⟨none, "", .distinct⟩ r tree) notices) ∧
      ∀ key fault r', emit ⟨none, "", .distinct⟩ tree r = .error (.reference key fault) r' →
        fault = .nameless ∧ Address.names ⟨key⟩ = .ok [] := by
  have hrun : (ends (prepare ⟨none, "", .distinct⟩ [(Node.ofJson refersToWhole, none)]) .empty fun _ _ => true) = true := by
    decide +kernel
  obtain ⟨tree, r, hprepare, -⟩ := exists_of_ends hrun
  obtain ⟨hlookup, hfail⟩ := emit_registered _ _ r tree hprepare
  refine ⟨tree, r, hprepare, hlookup _ fun text s hs => ?_, fun key fault r' h => hfail _ r' h key fault rfl⟩
  rw [hs]
  rfl

end Generator

end Typings
