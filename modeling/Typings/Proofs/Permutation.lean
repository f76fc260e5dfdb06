import Typings.Proofs.Pipeline
import Typings.Proofs.Placement
import Typings.Proofs.Reach

/-!
The order of documents. Plain documents with homes of their own give the same declarations in every order, as long as no
two registered addresses have the same names. Taking them in and resolving what they refer to ends well, and leaves the
same registry as far as declarations show it (`generate_settles`, `Settled.size_perm`, `Settled.get?_schemas_perm`); the
namespaces are those of the registered schemas in any order (`Placement.namespaceOf_perm`); and emission sees nothing else
(`Emission.emit_bare`). Main statement: `generate_perm`.
-/

namespace Typings

/-- Registered addresses have names of their own: two that have the same are one. -/
def Registry.NamesDiffer (r : Registry) : Prop :=
  ∀ key ∈ r.schemas.keys, ∀ key' ∈ r.schemas.keys, ∀ path,
    Address.names ⟨key⟩ = .ok path → Address.names ⟨key'⟩ = .ok path → key = key'

/-! ### A settled registry -/

namespace Settled

variable {documents : List Json} {h : Plain documents} {r : Registry} (hr : Settled h r)
include hr

lemma told (notices : List Notice) : Settled h { r with notices } where
  nav := hr.nav.told r.next notices
  complete := hr.complete
  traced := hr.traced.told r.next notices
  closed := ⟨hr.closed.texts, hr.closed.schemas, hr.closed.targets, hr.closed.documents⟩
  pending := hr.pending

/-- Whatever is registered is registered under its own address. -/
lemma address_of_mem {s : Schema Node} (hs : s ∈ r.schemas.values) : r.schemas.get? s.address.text = some s := by
  obtain ⟨⟨key, t⟩, hmem, rfl⟩ := List.mem_map.1 hs
  have hget : r.schemas.get? key = some t := Table.get?_of_mem hr.traced.nodup hmem
  obtain ⟨d, hd, tokens, hkey, hholds⟩ := hr.nav.schemas key t hget
  have haddress : t.address.text = key := hholds.address.trans hkey.symm
  change r.schemas.get? t.address.text = some t
  rw [haddress, hget]

lemma filter_isDeclarable : r.schemas.values.filter (·.isDeclarable) = r.schemas.values := by
  refine List.filter_eq_self.2 fun s hs => ?_
  obtain ⟨d, hd, tokens, hkey, hholds⟩ := hr.nav.schemas _ s (hr.address_of_mem hs)
  have hoperation := (hr.traced.schemas s hs).1
  unfold Schema.isDeclarable Schema.isDocument Schema.isComponent
  rw [hoperation, hholds.openapi]
  rfl

lemma isAnchored_of_dereference {text : String} {s : Schema Node} (hs : r.dereference text = .ok s) : s.IsAnchored := by
  simp only [Registry.dereference, hr.lookup?_eq] at hs
  cases hget : r.schemas.get? (Address.ofText text).text with
  | none =>
    rw [hget] at hs
    cases hs
  | some t =>
    rw [hget] at hs
    cases hs
    exact (hr.traced.schemas s (Table.mem_values_of_get? hget)).2

lemma shown_dereference (text : String) : (r.dereference text).map r.shown =
    (((r.schemas.get? (Address.ofText text).text).map r.shown).map Except.ok).getD
      (.error (.reference (Address.ofText text).text .unregistered)) := by
  simp only [Registry.dereference, hr.lookup?_eq]
  cases r.schemas.get? (Address.ofText text).text with
  | none => rfl
  | some s => rfl

/-- Schemas with the same names are one, where their addresses are. -/
lemma namesDiffer (hnames : r.NamesDiffer) : Placement.NamesDiffer (r.schemas.values.map r.shown) := by
  intro a ha b hb path hpath hpath'
  obtain ⟨s, hs, rfl⟩ := List.mem_map.1 ha
  obtain ⟨t, ht, rfl⟩ := List.mem_map.1 hb
  have hs' := hr.address_of_mem hs
  have ht' := hr.address_of_mem ht
  have hkey := hnames _ (Table.mem_keys_of_get? hs') _ (Table.mem_keys_of_get? ht') path hpath hpath'
  rw [hkey] at hs'
  rw [Option.some.inj (hs'.symm.trans ht')]

end Settled

/-! ### Up to the declarations -/

namespace Generator

/-- A document as it is taken in, with the URL it was loaded from. -/
def loaded (e : Json × Option String) : Node × Option String := (Node.ofJson e.1, e.2)

/-- Documents are taken in before anything else. -/
lemma generate_eq_takeAll (options : Options) (documents : List (Json × Option String)) :
    generate options (documents.map loaded) = takeAll documents >>= fun _ => finish options := by
  induction documents with
  | nil => simp [generate, takeAll]
  | cons e documents ih => simp [loaded, generate, takeAll, ih]

lemma taking_traced {documents : List Json} (h : Plain documents) :
    World.Taking h.world (World.Traced h.world (ReachedAt documents)) where
  told next notices ht := ht.told next notices
  register {r d} hd hr ht := by
    have hscope : d.schema.scope = [d.schema.address.text] := rfl
    have hanchored : d.schema.IsAnchored := by rw [Schema.IsAnchored, hscope]
    have hregister := World.register_traced h.inherited_reachedAt hr ht hd (World.holds_schema r.refs d)
      (fun _ => h.inherited_reachedAt.whole d hd) rfl hanchored (Or.inr ⟨d, hd, rfl⟩)
    exact hregister.mono (fun _ _ h => h.2) fun _ _ h => h.elim

/-- **The first stage settles the registry.** -/
theorem runStage_settled (options : Options) {documents : List Json} {h : Plain documents}
    (hweb : ∀ v ∈ documents, homeOf v ≠ "") {r : Registry} (hc : r.Closed) (hr : World.Nav h.world r)
    (ht : World.Traced h.world (ReachedAt documents) r) (hcomplete : World.Complete h.world r)
    (hsize : Node.sizeItems (h.world.sites.map (·.node)) ≤ r.size) :
    Yields (runStage options .documents) r (fun _ r' => Settled h r') fun _ _ => False := by
  have hlasting := World.lasting_traced h.inherited_reachedAt fun d hd => by
    obtain ⟨v, hv, n, rfl⟩ := h.mem_sites hd
    exact (h.homes v hv).resolve_left (hweb v hv)
  have hresolve := World.resolve_lasting hlasting options.fetcher hr hcomplete ht hsize
  have hstage : Stage.documents ≠ .synthesized := by decide
  unfold runStage
  rw [if_neg hstage]
  refine Yields.bind (Yields.of_outcome (fun n r' hrun => ?_) fun f r' hrun => hresolve.bad_of_error hrun)
  obtain ⟨hgrows, htraced, hpending⟩ := hresolve.good_of_ok hrun
  have hsettled : Settled h r' :=
    ⟨hgrows.nav, hcomplete.mono hgrows, htraced, ((Quiet.resolve options.fetcher r hc).good_of_ok hrun).1, hpending⟩
  exact Yields.bind (Yields.of_modify (Yields.of_pure (hsettled.told _)))

/-- Without operations there is nothing to replace. -/
lemma synthesizeAll_eq {schemas : List (Schema Node)} (h : ∀ s ∈ schemas, s.operation = false) (r : Registry) :
    synthesizeAll schemas r = .ok 0 r := by
  induction schemas with
  | nil => rfl
  | cons s schemas ih =>
    have hfirst : (pure 0 : Action ℕ) r = .ok 0 r := rfl
    have hrest := ih fun t ht => h t (List.mem_cons_of_mem _ ht)
    rw [synthesizeAll, h s List.mem_cons_self, if_neg Bool.false_ne_true, bind_of_ok hfirst]
    exact bind_of_ok hrest

/-- **The second stage finds nothing to do.** -/
lemma runStage_synthesized (options : Options) {documents : List Json} {h : Plain documents} {r : Registry}
    (hr : Settled h r) : Yields (runStage options .synthesized) r (fun _ r' => Settled h r') fun _ _ => False := by
  unfold runStage
  rw [if_pos rfl]
  refine Yields.bind (Yields.of_get (Yields.bind ?_))
  refine Yields.of_ok (synthesizeAll_eq (fun s hs => (hr.traced.schemas s hs).1) r) (Yields.bind (Yields.of_modify ?_))
  have htold := hr.told (.synthesized 0 :: r.notices)
  refine Yields.bind (Yields.of_ok (Resolution.resolve_of_pending_nil htold.pending options.fetcher) ?_)
  exact Yields.bind (Yields.of_modify (Yields.of_pure (htold.told _)))

/-- Declare what is registered. -/
def declareAll (options : Options) : Action String := do
  let tree ← namespaces
  Action.tell (.namespacesBuilt tree.countLeaves)
  emit options tree

/-- **Plain documents are declared from a settled registry.** -/
theorem generate_settles (options : Options) {documents : List (Json × Option String)} (h : Plain (documents.map (·.1)))
    (hweb : ∀ e ∈ documents, homeOf e.1 ≠ "") :
    ∃ r, Settled h r ∧ generate options (documents.map loaded) .empty = declareAll options r := by
  obtain ⟨r, htake, hclosed, hnav, htraced, hcomplete, hsize⟩ :=
    h.takeAll_complete (taking_traced h) World.traced_empty rfl fun e he => Or.inr (hweb e he)
  have hweb' : ∀ v ∈ documents.map (·.1), homeOf v ≠ "" := by
    intro v hv
    obtain ⟨e, he, rfl⟩ := List.mem_map.1 hv
    exact hweb e he
  obtain ⟨n, r₁, hfirst, hr₁⟩ := (runStage_settled options hweb' hclosed hnav htraced hcomplete hsize).exists_ok
  obtain ⟨m, r₂, hsecond, hr₂⟩ := (runStage_synthesized options hr₁).exists_ok
  refine ⟨r₂, hr₂, ?_⟩
  -- no step fails, so that each run is followed into the next
  rw [generate_eq_takeAll, bind_of_ok htake, finish, bind_of_ok hfirst, bind_of_ok hsecond]
  rfl

lemma told_of_ok {α : Type} {x : Told α} {r : Registry} {a : α} {notices : List Notice} (h : x r.notices = .ok a notices) :
    told x r = .ok a { r with notices } := by
  rw [told, h]

lemma told_of_error {α : Type} {x : Told α} {r : Registry} {f : Failure} {notices : List Notice}
    (h : x r.notices = .error f notices) : told x r = .error f { r with notices } := by
  rw [told, h]

lemma told_schemas {α : Type} (x : Told α) (r : Registry) :
    Yields (told x) r (fun _ r' => r'.schemas = r.schemas) fun _ r' => r'.schemas = r.schemas := by
  unfold Yields
  cases hrun : x r.notices with
  | ok a notices => rw [told_of_ok hrun]
  | error f notices => rw [told_of_error hrun]

/-- Emission changes nothing but what is told. -/
lemma emit_schemas (options : Options) (tree : Namespace (Schema Node)) (r : Registry) :
    Yields (emit options tree) r (fun _ r' => r'.schemas = r.schemas) fun _ r' => r'.schemas = r.schemas :=
  Yields.bind (Yields.of_get (Yields.bind ((told_schemas _ r).mono (fun _ _ h => Yields.of_pure h) fun _ _ h => h)))

lemma declareAll_schemas (options : Options) (r : Registry) : (final (declareAll options) r).schemas = r.schemas := by
  refine final_of_yields (P := fun r' : Registry => r'.schemas = r.schemas) (Yields.bind (Yields.bind (Yields.of_get ?_)))
  refine (told_schemas _ r).mono (fun tree r₁ h₁ => Yields.bind (Yields.of_modify ?_)) fun _ _ h => h
  exact (emit_schemas options tree _).mono (fun _ _ h₂ => h₂.trans h₁) fun _ _ h₂ => h₂.trans h₁

/-! ### The declarations -/

lemma outcome_emit (options : Options) (tree : Namespace (Schema Node)) (r : Registry) :
    outcome (emit options tree) r =
      (outcome (Emission.emit (emissionSetting options r tree)) r.notices).map (Item.render options.indent) := by
  have hget : (get : Action Registry) r = .ok r r := rfl
  rw [emit, outcome_bind_of_ok hget]
  cases hrun : Emission.emit (emissionSetting options r tree) r.notices with
  | ok items notices =>
    rw [outcome_bind_of_ok (told_of_ok hrun), outcome_of_ok hrun]
    rfl
  | error f notices =>
    rw [outcome_bind_of_error (told_of_error hrun), outcome_of_error hrun]
    rfl

section Declarations

variable {documents : List Json} {h : Plain documents} {r : Registry} (hr : Settled h r)
include hr

lemma isAnchored_emissionSetting (options : Options) {tree : Namespace (Schema Node)}
    (ht : tree.Every (· ∈ r.schemas.values)) : (emissionSetting options r tree).IsAnchored where
  normal l hl text s hs := by
    cases hl
    cases hderef : r.dereference text with
    | error f =>
      simp only [hderef] at hs
      cases hs
    | ok t =>
      simp only [hderef] at hs
      cases hs
      exact hr.isAnchored_of_dereference hderef
  tree := Namespace.every_map (f := fun s => s.read r.refs) (fun s hs => (hr.traced.schemas s hs).2) tree ht

lemma namespaces_eq : namespaces r = told (Placement.build r.schemas.values) r := by
  rw [← hr.filter_isDeclarable]
  rfl

lemma outcome_declareAll_of_error (options : Options) {f : Failure}
    (htree : Placement.namespaceOf r.schemas.values = .error f) : outcome (declareAll options) r = .error f := by
  have hbuild := Placement.outcome_build r.schemas.values r.notices
  cases hrun : Placement.build r.schemas.values r.notices with
  | error f' notices =>
    rw [htree, outcome_of_error hrun] at hbuild
    cases hbuild
    exact outcome_bind_of_error ((namespaces_eq hr).trans (told_of_error hrun))
  | ok tree notices =>
    rw [htree, outcome_of_ok hrun] at hbuild
    cases hbuild

/-- What is declared are bare schemas in their namespaces. -/
lemma outcome_declareAll_of_ok (options : Options) {tree : Namespace (Schema Node)}
    (htree : Placement.namespaceOf r.schemas.values = .ok tree) : outcome (declareAll options) r =
      (outcome (Emission.emit (emissionSetting options r tree).bare) []).map (Item.render options.indent) := by
  have hbuild := Placement.outcome_build r.schemas.values r.notices
  cases hrun : Placement.build r.schemas.values r.notices with
  | error f notices =>
    rw [htree, outcome_of_error hrun] at hbuild
    cases hbuild
  | ok tree' notices =>
    rw [htree, outcome_of_ok hrun] at hbuild
    cases hbuild
    have hevery : tree.Every (· ∈ r.schemas.values) := (Placement.build_every (fun s hs => hs) r.notices).good_of_ok hrun
    have htell : Action.tell (.namespacesBuilt tree.countLeaves) { r with notices } =
        .ok () { r with notices := .namespacesBuilt tree.countLeaves :: notices } := rfl
    -- emission begins with whatever has been told, which differs between orders; bare schemas make it irrelevant
    have hemit := (Emission.emit_bare (isAnchored_emissionSetting hr options hevery)
      (.namespacesBuilt tree.countLeaves :: notices) []).eq
    rw [declareAll, outcome_bind_of_ok ((namespaces_eq hr).trans (told_of_ok hrun)), outcome_bind_of_ok htell, outcome_emit,
      ← hemit]
    rfl

end Declarations

section Orders

variable {documents documents' : List Json} (hperm : documents.Perm documents') {h : Plain documents} {h' : Plain documents'}
  {r r' : Registry} (hr : Settled h r) (hr' : Settled h' r')
include hperm hr hr'

/-- **Emission works with the same**, as far as declarations show it. -/
theorem emissionSetting_perm (options : Options) {tree tree' : Namespace (Schema Node)}
    (htree : tree.map r.shown = tree'.map r'.shown) :
    (emissionSetting options r tree).bare = (emissionSetting options r' tree').bare := by
  have hmap : ∀ (r : Registry) (o : Except Failure (Schema Node)), (o.map (·.read r.refs)).map Schema.bare = o.map r.shown := by
    intro r o
    cases o <;> rfl
  have hlookup : (fun text => ((r.dereference text).map (·.read r.refs)).map Schema.bare) =
      fun text => ((r'.dereference text).map (·.read r'.refs)).map Schema.bare := by
    funext text
    rw [hmap, hmap, hr.shown_dereference, hr'.shown_dereference, Settled.get?_schemas_perm hperm hr hr']
  have hregistered : r.schemas.has = r'.schemas.has := by
    funext key
    rw [Bool.eq_iff_iff, Table.has_iff_mem_keys, Table.has_iff_mem_keys]
    exact Settled.mem_schemas_perm hperm hr hr'
  have hdepth : depthBound r = depthBound r' := congrArg (· + 1) (Settled.size_perm hperm hr hr')
  have htrees : (tree.map (·.read r.refs)).map Schema.bare = (tree'.map (·.read r'.refs)).map Schema.bare := by
    rw [Namespace.map_map, Namespace.map_map]
    exact htree
  simp only [emissionSetting, normalSetting, Emission.Setting.bare, Normal.Setting.bare, hlookup, hregistered, hdepth, htrees,
    Option.map_some]

lemma namespaceOf_shown (hnames : r.NamesDiffer) :
    (Placement.namespaceOf r.schemas.values).map (·.map r.shown) =
      (Placement.namespaceOf r'.schemas.values).map (·.map r'.shown) := by
  have hmap : ∀ r : Registry, (Placement.namespaceOf r.schemas.values).map (·.map r.shown) =
      Placement.namespaceOf (r.schemas.values.map r.shown) := fun r =>
    (Placement.namespaceOf_map (g := r.shown) (fun _ => rfl) _).symm
  rw [hmap, hmap]
  exact Placement.namespaceOf_perm (Settled.values_schemas_perm hperm hr hr') (hr.namesDiffer hnames)

/-- **What is declared is the same.** -/
theorem declareAll_perm (options : Options) (hnames : r.NamesDiffer) :
    outcome (declareAll options) r = outcome (declareAll options) r' := by
  have hshown := namespaceOf_shown hperm hr hr' hnames
  -- by `hshown` the namespaces fail in both orders or in none
  cases htree : Placement.namespaceOf r.schemas.values with
  | error f =>
    cases htree' : Placement.namespaceOf r'.schemas.values with
    | error f' =>
      rw [htree, htree'] at hshown
      cases hshown
      rw [outcome_declareAll_of_error hr options htree, outcome_declareAll_of_error hr' options htree']
    | ok tree' =>
      rw [htree, htree'] at hshown
      cases hshown
  | ok tree =>
    cases htree' : Placement.namespaceOf r'.schemas.values with
    | error f' =>
      rw [htree, htree'] at hshown
      cases hshown
    | ok tree' =>
      rw [htree, htree'] at hshown
      rw [outcome_declareAll_of_ok hr options htree, outcome_declareAll_of_ok hr' options htree',
        emissionSetting_perm hperm hr hr' options (Except.ok.inj hshown)]

end Orders

/-- **The order of documents does not matter.** Plain documents with homes of their own end alike in every order, with the
same text or with the same failure, as long as no two addresses that are registered in the end have the same names. -/
theorem generate_perm (options : Options) {documents documents' : List (Json × Option String)}
    (hperm : documents.Perm documents') (h : Plain (documents.map (·.1))) (hweb : ∀ e ∈ documents, homeOf e.1 ≠ "")
    (hnames : (final (generate options (documents.map loaded)) .empty).NamesDiffer) :
    outcome (generate options (documents'.map loaded)) .empty = outcome (generate options (documents.map loaded)) .empty := by
  have hperm' := hperm.map (·.1)
  obtain ⟨r, hr, hrun⟩ := generate_settles options h hweb
  obtain ⟨r', hr', hrun'⟩ := generate_settles options (h.perm hperm') fun e he => hweb e (hperm.mem_iff.2 he)
  have hfinal : final (generate options (documents.map loaded)) .empty = final (declareAll options) r := by
    unfold final
    rw [hrun]
  have hnames' : r.NamesDiffer := by
    unfold Registry.NamesDiffer at hnames ⊢
    rwa [hfinal, declareAll_schemas] at hnames
  have hdeclared := declareAll_perm hperm' hr hr' options hnames'
  unfold outcome at hdeclared ⊢
  rw [hrun, hrun', hdeclared]

/-- A document that refers to a part of another. -/
def refersAcross : Json :=
  .obj [("id", .str "http://h/a"),
    ("properties", .obj [("x", .obj [("$ref", .str "http://h/b#/definitions/s")])]),
    ("definitions", .obj [("t", .obj [("type", .str "string")])])]

/-- A document that refers back, and to the whole of itself. -/
def refersBack : Json :=
  .obj [("id", .str "http://h/b"),
    ("definitions", .obj [("s", .obj [("properties", .obj [("y", .obj [("$ref", .str "http://h/a#/definitions/t")]),
      ("z", .obj [("$ref", .str "#")])])])])]

lemma plain_refersAcross : Plain [refersAcross, refersBack] := by
  have hacross : homeOf refersAcross = "http://h/a" := by decide +kernel
  have hback : homeOf refersBack = "http://h/b" := by decide +kernel
  have hids : ([refersAcross, refersBack].all fun v => v.inner.all fun w => (w.declaredId (dialectOf v)).isNone) = true := by
    decide +kernel
  have htext : (refersAcross.parts.all fun w => ((w.get? "$ref").bind (·.str?)).all fun text =>
      text == "http://h/b#/definitions/s") = true := by
    decide +kernel
  have htexts : (refersBack.parts.all fun w => ((w.get? "$ref").bind (·.str?)).all fun text =>
      text == "http://h/a#/definitions/t" || text == "#") = true := by
    decide +kernel
  refine ⟨?_, ?_, ?_, ?_, ?_⟩
  · intro v hv
    rcases List.mem_pair.1 hv with rfl | rfl
    · rfl
    · rfl
  · intro v hv
    rcases List.mem_pair.1 hv with rfl | rfl
    · rw [hacross]
      exact Or.inr ⟨by decide +kernel, by decide +kernel, _, rfl, by decide +kernel⟩
    · rw [hback]
      exact Or.inr ⟨by decide +kernel, by decide +kernel, _, rfl, by decide +kernel⟩
  · rw [List.map_cons, List.map_cons, hacross, hback]
    decide +kernel
  · intro v hv w hw
    exact Option.isNone_iff_eq_none.1 (List.all_eq_true.1 (List.all_eq_true.1 hids v hv) w hw)
  · intro v hv w hw text ht
    rcases List.mem_pair.1 hv with rfl | rfl
    · have hmem := List.all_eq_true.1 htext w hw
      rw [ht] at hmem
      obtain rfl : text = "http://h/b#/definitions/s" := beq_iff_eq.1 hmem
      exact ⟨refersBack, List.mem_cons_of_mem _ List.mem_cons_self, ["definitions", "s"], _, rfl,
        Or.inr ⟨by rw [hback]; decide +kernel, by rw [hback]; decide +kernel⟩⟩
    · have hmem := List.all_eq_true.1 htexts w hw
      rw [ht] at hmem
      rcases Bool.or_eq_true_iff.1 hmem with htext | htext
      · obtain rfl : text = "http://h/a#/definitions/t" := beq_iff_eq.1 htext
        exact ⟨refersAcross, List.mem_cons_self, ["definitions", "t"], _, rfl,
          Or.inr ⟨by rw [hacross]; decide +kernel, by rw [hacross]; decide +kernel⟩⟩
      · obtain rfl : text = "#" := beq_iff_eq.1 htext
        exact ⟨refersBack, hv, [], _, rfl, Or.inl ⟨by decide +kernel, rfl⟩⟩

/-- What has been prepared stays registered. -/
lemma final_generate {options : Options} {documents : List (Node × Option String)} {tree : Namespace (Schema Node)}
    {r : Registry} (h : prepare options documents .empty = .ok tree r) :
    (final (generate options documents) .empty).schemas = r.schemas := by
  have hemit := final_of_yields (emit_schemas options tree r)
  unfold final at hemit ⊢
  rw [generate_eq, bind_of_ok h]
  exact hemit

theorem generate_perm_refersAcross :
    Plain [refersAcross, refersBack] ∧
      (∃ tree r, prepare ⟨none, "", .distinct⟩ ([(refersAcross, some "file:///a"), (refersBack, none)].map loaded) .empty =
          .ok tree r ∧ r.NamesDiffer ∧ "http://h/b#/definitions/s" ∈ r.schemas.keys) ∧
      outcome (generate ⟨none, "", .distinct⟩ ([(refersBack, none), (refersAcross, some "file:///a")].map loaded)) .empty =
        outcome (generate ⟨none, "", .distinct⟩ ([(refersAcross, some "file:///a"), (refersBack, none)].map loaded)) .empty := by
  have hrun : (ends (prepare ⟨none, "", .distinct⟩ ([(refersAcross, some "file:///a"), (refersBack, none)].map loaded)) .empty
      fun _ r => r.schemas.keys.contains "http://h/b#/definitions/s" && r.schemas.keys.all fun key =>
        r.schemas.keys.all fun key' => key == key' || (Address.names ⟨key⟩).toOption != (Address.names ⟨key'⟩).toOption)
        = true := by
    decide +kernel
  obtain ⟨tree, r, hprepare, hr⟩ := exists_of_ends hrun
  obtain ⟨hkey, hkeys⟩ := Bool.and_eq_true_iff.1 hr
  -- declarations are not computed here: addresses and names are settled before emission
  have hnames : r.NamesDiffer := by
    intro key hkey key' hkey' path hpath hpath'
    have hor := List.all_eq_true.1 (List.all_eq_true.1 hkeys key hkey) key' hkey'
    rw [hpath, hpath'] at hor
    simpa using hor
  refine ⟨plain_refersAcross, ⟨tree, r, hprepare, hnames, List.contains_iff_mem.1 hkey⟩, ?_⟩
  refine generate_perm _ (List.Perm.swap _ _ _) plain_refersAcross (fun e he => ?_) ?_
  · have hacross : homeOf refersAcross ≠ "" := by decide +kernel
    have hback : homeOf refersBack ≠ "" := by decide +kernel
    rcases List.mem_pair.1 he with rfl | rfl
    · exact hacross
    · exact hback
  · unfold Registry.NamesDiffer at hnames ⊢
    rwa [final_generate hprepare]

end Generator

end Typings
