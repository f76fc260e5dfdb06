import Typings.Proofs.Integrity

/-!
What a failed resolution names. In a round, only finding the target of a pending address changes what is known of the
addresses that were noted before (`Spares`), so the addresses that a round leaves over are exactly those that are pending
before and after it (`turn_yields`). The failure names these. If there are none, a document could not be fetched although
every target was found elsewhere; the failure then names all addresses with which the round began. Main statement:
`resolve_names_leftover`.
-/

namespace Typings

variable {α β : Type}

/-- A document is not recognised only for the number of a draft. -/
lemma Document.recognise_error {content : Node} {f : Failure} (h : recognise content = .error f) : f = .badNumeral := by
  have hdraft : ∀ schema, draft? schema = .error f → f = .badNumeral := by
    intro schema hs
    unfold draft? at hs
    split at hs
    · cases hs
    · split at hs <;> cases hs
      rfl
  unfold recognise at h
  dsimp only at h
  split at h
  · rcases bind_eq_error.1 h with h | ⟨draft, -, h⟩
    · exact hdraft _ h
    · split at h
      · cases h
      · split_ifs at h <;> cases h
  · rw [pure_bind] at h
    split_ifs at h <;> cases h

/-! ### References that stay as they are -/

/-- The references of a registry are in a later one as they were; others may have been noted. -/
structure Registry.Retains (r r' : Registry) : Prop where
  kept : ∀ key o, r.references.get? key = some o → r'.references.get? key = some o
  nodup : r.references.keys.Nodup → r'.references.keys.Nodup

namespace Registry.Retains

variable {r r₁ r' : Registry}

lemma of_eq (h : r'.references = r.references) : r.Retains r' := by
  constructor
  · intro key o hkey
    rwa [h]
  · intro hnodup
    rwa [h]

lemma trans (h : r.Retains r₁) (h' : r₁.Retains r') : r.Retains r' :=
  ⟨fun key o hkey => h'.kept key o (h.kept key o hkey), fun hnodup => h'.nodup (h.nodup hnodup)⟩

end Registry.Retains

/-- **An action that spares the references** there are, whether it ends well or fails; it fails only with `bad`. -/
def Spares (x : Action α) (bad : Failure → Prop) : Prop :=
  ∀ r, Yields x r (fun _ r' => r.Retains r') fun f r' => bad f ∧ r.Retains r'

namespace Spares

variable {x : Action α} {f : α → Action β} {bad : Failure → Prop}

lemma bind (hx : Spares x bad) (hf : ∀ a, Spares (f a) bad) : Spares (x >>= f) bad := by
  intro r
  refine Yields.bind ((hx r).mono (fun a r₁ h₁ => ?_) fun _ _ h => h)
  refine (hf a r₁).mono (fun _ r' h => h₁.trans h) ?_
  rintro g r' ⟨hg, h⟩
  exact ⟨hg, h₁.trans h⟩

lemma mono {bad' : Failure → Prop} (hx : Spares x bad) (h : ∀ f, bad f → bad' f) : Spares x bad' :=
  fun r => (hx r).mono (fun _ _ h => h) fun f _ hf => ⟨h f hf.1, hf.2⟩

lemma of_pure {a : α} : Spares (pure a) bad := fun _ => Yields.of_pure (.of_eq rfl)

lemma of_throw {g : Failure} (h : bad g) : Spares (throw g : Action α) bad := fun _ => Yields.of_throw ⟨h, .of_eq rfl⟩

lemma of_get : Spares get bad := fun _ => Yields.of_get (.of_eq rfl)

lemma of_modify {g : Registry → Registry} (h : ∀ r, (g r).references = r.references) : Spares (modify g) bad :=
  fun r => Yields.of_modify (.of_eq (h r))

lemma lift {e : Except Failure α} (h : ∀ g, e = .error g → bad g) : Spares (Action.lift e) bad := by
  cases he : e with
  | ok a => exact of_pure
  | error g => exact of_throw (h g he)

lemma tell (n : Notice) : Spares (Action.tell n) bad := of_modify fun _ => rfl

lemma addSchema (s : Schema Node) : Spares (Action.addSchema s) bad := by
  intro r
  refine (Action.addSchema_yields s r).mono ?_ fun _ _ h => h.elim
  rintro ⟨⟩ _ ⟨notices, rfl⟩
  exact .of_eq rfl

lemma addReference (a : Address) : Spares (Action.addReference a) bad := by
  intro r
  refine Yields.of_modify ?_
  split_ifs with hnoted
  · exact .of_eq rfl
  · refine ⟨fun key o hkey => ?_, fun hnodup => Table.nodup_keys_set hnodup _ _⟩
    have hne : a.text ≠ key := by
      rintro rfl
      exact hnoted (Table.has_iff.2 ⟨o, hkey⟩)
    exact (Table.get?_set_of_ne hne).trans hkey

lemma takeUp (found : List Discovery.Found) : Spares (Action.takeUp found) bad := by
  induction found with
  | nil => exact of_pure
  | cons f found ih =>
    cases f with
    | schema s refs => exact (addSchema s).bind fun _ => ih
    | reference a => exact (addReference a).bind fun _ => ih

lemma register (s : Schema Node) : Spares (Action.register s) fun f => f.isSchemaFailure = false := by
  refine (tell _).bind fun _ => (addSchema s).bind fun _ => of_get.bind fun r => (takeUp _).bind fun _ => ?_
  refine bind (of_modify fun _ => rfl) fun _ => ?_
  cases hf : (Discovery.walk s r.refs r.next).failure with
  | none => exact of_pure
  | some f =>
    refine of_throw ?_
    rcases (Discovery.walk_covers s r.refs r.next).2 f hf with rfl | rfl <;> rfl

/-! ### Fetching and looking for one target -/

lemma openDocument (document : Node) (url : Option String) :
    Spares (Action.openDocument document url) fun f => f.isSchemaFailure = false := by
  refine bind (fun r => Yields.of_modifyGet (.of_eq rfl)) fun content => (lift fun g hg => ?_).bind fun s => ?_
  · rcases bind_eq_error.1 hg with hg | ⟨recognised, -, hg⟩
    · rw [Document.recognise_error hg]
      rfl
    · cases hg
  · exact (tell _).bind fun _ => of_pure

lemma receive (url : String) (result : Except String Node) :
    Spares (Resolution.receive url result) fun f => f.isSchemaFailure = false := by
  cases result with
  | error words => exact of_pure
  | ok document =>
    refine (tell _).bind fun _ => (openDocument _ _).bind fun s => (register s).bind fun _ => ?_
    exact bind (of_modify fun _ => rfl) fun _ => of_pure

lemma receiveAll (results : List (String × Except String Node)) :
    Spares (Resolution.receiveAll results) fun f => f.isSchemaFailure = false := by
  induction results with
  | nil => exact of_pure
  | cons e results ih => exact (receive e.1 e.2).bind fun _ => ih.bind fun _ => of_pure

lemma fetchAll (fetcher : Fetcher) (pending : List String) :
    Spares (Resolution.fetchAll fetcher pending) fun f => f.isSchemaFailure = false := by
  refine of_get.bind fun r => ?_
  cases fetcher with
  | none => exact of_pure
  | some fetch => exact bind (of_modify fun _ => rfl) fun _ => receiveAll _

lemma target (key : Address) : Spares (Resolution.target key) fun _ => True := by
  refine of_get.bind fun r => ?_
  split
  · exact of_pure
  · refine (lift fun _ _ => trivial).bind fun e => ?_
    dsimp only
    split_ifs
    · exact of_pure
    · exact (lift fun _ _ => trivial).bind fun s => ((register s).mono fun _ _ => trivial).bind fun _ => of_pure

end Spares

/-! ### One round -/

namespace Resolution

/-- **One round**: the documents that the pending addresses need are fetched, and their targets are looked for. -/
def turn (fetcher : Fetcher) (round : ℕ) (pending : List String) : Action (List String × Leftover) := do
  Action.tell (.roundBegun (round + 1) pending.length)
  let unfetched ← fetchAll fetcher pending
  let left ← targets pending
  return (unfetched, left)

/-- A document cannot be fetched: there is no fetcher, or it brings words for what went wrong. -/
def IsMissing (fetcher : Fetcher) (url : String) : Prop :=
  ∀ fetch, fetcher = some fetch → ∃ words, (fetch url).result = .error words

/-- What looking for the targets of pending addresses makes of a registry. -/
structure Sought (keys : List String) (r : Registry) (left : Leftover) (r' : Registry) : Prop where
  nodup : r'.references.keys.Nodup
  kept : ∀ key ∉ keys, ∀ o, r.references.get? key = some o → r'.references.get? key = some o
  unsettled : left.keys = keys.filter (· ∈ r'.pending)
  found : ∀ key ∈ keys, key ∉ r'.pending → ∃ s, r'.references.get? key = some (some s)

/-- Looking for one target: it is found and the address settled, or the address stays pending. -/
lemma settle_yields {key : String} {r : Registry} (hr : r.references.keys.Nodup) (hkey : r.references.get? key = some none) :
    Yields (Recorded.settle key).act r
      (fun failed r₁ => r₁.references.keys.Nodup ∧
        (∀ other ≠ key, ∀ o, r.references.get? other = some o → r₁.references.get? other = some o) ∧
        match failed with
        | none => ∃ s, r₁.references.get? key = some (some s)
        | some _ => r₁.references.get? key = some none)
      fun f _ => f.isSchemaFailure = false := by
  have htarget := Spares.target (Address.ofText key) r
  unfold Yields
  rw [Recorded.settle_act]
  cases hrun : target (Address.ofText key) r with
  | ok s r₁ =>
    have hret := htarget.good_of_ok hrun
    refine ⟨Table.nodup_keys_set (hret.nodup hr) _ _, fun other hne o ho => ?_, s, Table.get?_set_self ..⟩
    exact (Table.get?_set_of_ne (Ne.symm hne)).trans (hret.kept other o ho)
  | error f r₁ =>
    obtain ⟨-, hret⟩ := htarget.bad_of_error hrun
    by_cases hf : f.isSchemaFailure = true
    · simp only [if_pos hf]
      exact ⟨hret.nodup hr, fun other _ o ho => hret.kept other o ho, hret.kept key none hkey⟩
    · simp only [if_neg hf]
      exact (Bool.not_eq_true _).mp hf

/-- **The addresses that are left over are those that stay pending.** -/
theorem targets_yields {keys : List String} (hkeys : keys.Nodup) {r : Registry} (hr : r.references.keys.Nodup)
    (hp : ∀ key ∈ keys, r.references.get? key = some none) :
    Yields (targets keys) r (fun left r' => Sought keys r left r') fun f _ => f.isSchemaFailure = false := by
  rw [← Recorded.targets_act]
  induction keys generalizing r with
  | nil => exact Yields.of_pure ⟨hr, fun _ _ _ h => h, rfl, fun _ h => absurd h List.not_mem_nil⟩
  | cons key keys ih =>
    obtain ⟨hnew, hkeys⟩ := List.nodup_cons.1 hkeys
    refine Yields.bind ((settle_yields hr (hp key List.mem_cons_self)).mono ?_ fun _ _ h => h)
    rintro failed r₁ ⟨hr₁, hkept, hfailed⟩
    -- each key is met once: the others leave its entry alone, as it leaves theirs
    have hp₁ : ∀ other ∈ keys, r₁.references.get? other = some none := by
      intro other hother
      have hne : other ≠ key := fun h => hnew (h ▸ hother)
      exact hkept other hne none (hp other (List.mem_cons_of_mem _ hother))
    refine Yields.bind ((ih hkeys hr₁ hp₁).mono (fun left r' hrest => Yields.of_pure ?_) fun _ _ h => h)
    have hall : ∀ other ∉ key :: keys, ∀ o, r.references.get? other = some o → r'.references.get? other = some o := by
      intro other hother o ho
      obtain ⟨hne, hnot⟩ := not_or.1 (List.mem_cons.not.1 hother)
      exact hrest.kept other hnot o (hkept other hne o ho)
    cases failed with
    | none =>
      obtain ⟨s, hs⟩ := hfailed
      have hs' := hrest.kept key hnew _ hs
      have hsettled : key ∉ r'.pending := by
        rw [Registry.mem_pending_iff hrest.nodup, hs']
        rintro ⟨⟩
      refine ⟨hrest.nodup, hall, ?_, fun other hother hnot => ?_⟩
      · rw [List.filter_cons_of_neg (by simpa using hsettled)]
        exact hrest.unsettled
      · rcases List.mem_cons.1 hother with rfl | hother
        · exact ⟨s, hs'⟩
        · exact hrest.found other hother hnot
    | some f =>
      have hopen : key ∈ r'.pending := (Registry.mem_pending_iff hrest.nodup).2 (hrest.kept key hnew _ hfailed)
      refine ⟨hrest.nodup, hall, ?_, fun other hother hnot => ?_⟩
      · rw [List.filter_cons_of_pos (by simpa using hopen), ← hrest.unsettled]
      · rcases List.mem_cons.1 hother with rfl | hother
        · exact absurd hopen hnot
        · exact hrest.found other hother hnot

lemma receiveAll_missing (results : List (String × Except String Node)) (r : Registry) :
    Yields (receiveAll results) r (fun words _ => words ≠ [] → ∃ e ∈ results, ∃ why, e.2 = .error why) fun _ _ => True := by
  induction results generalizing r with
  | nil => exact Yields.of_pure fun h => absurd rfl h
  | cons e results ih =>
    obtain ⟨url, result⟩ := e
    cases result with
    | error why => exact Yields.anything.mono (fun _ _ _ _ => ⟨_, List.mem_cons_self, why, rfl⟩) fun _ _ h => h
    | ok document =>
      have hnone : Yields (receive url (.ok document)) r (fun words _ => words = []) fun _ _ => True := by
        refine Yields.skip fun _ _ => Yields.skip fun _ _ => Yields.skip fun _ _ => ?_
        exact Yields.bind (Yields.of_modify (Yields.of_pure rfl))
      refine Yields.bind (hnone.mono ?_ fun _ _ h => h)
      rintro _ r₁ rfl
      refine Yields.bind ((ih r₁).mono (fun others _ h => Yields.of_pure fun hne => ?_) fun _ _ h => h)
      obtain ⟨e, he, hwhy⟩ := h hne
      exact ⟨e, List.mem_cons_of_mem _ he, hwhy⟩

/-- Where there are words for what went wrong, a document that is needed cannot be fetched. -/
lemma fetchAll_missing (fetcher : Fetcher) (pending : List String) (r : Registry) :
    Yields (fetchAll fetcher pending) r
      (fun words _ => words ≠ [] → ∃ url ∈ wanted r [] pending, IsMissing fetcher url) fun _ _ => True := by
  refine Yields.bind (Yields.of_get ?_)
  cases fetcher with
  | none =>
    refine Yields.of_pure fun hne => ?_
    obtain ⟨url, hurl⟩ := List.exists_mem_of_ne_nil _ (fun h => hne (List.map_eq_nil_iff.2 h))
    exact ⟨url, hurl, by rintro _ ⟨⟩⟩
  | some fetch =>
    refine Yields.bind (Yields.of_modify ((receiveAll_missing _ _).mono (fun words _ h hne => ?_) fun _ _ h => h))
    obtain ⟨e, he, why, hwhy⟩ := h hne
    obtain ⟨url, hurl, rfl⟩ := List.mem_map.1 he
    refine ⟨url, hurl, ?_⟩
    rintro _ ⟨⟩
    exact ⟨why, hwhy⟩

lemma wanted_notices (r : Registry) (notices : List Notice) (done keys : List String) :
    wanted { r with notices } done keys = wanted r done keys := by
  induction keys generalizing done with
  | nil => rfl
  | cons key keys ih => exact ih _

/-- **What a round shows.** -/
theorem turn_yields (fetcher : Fetcher) (round : ℕ) {r : Registry} (hr : r.references.keys.Nodup) :
    Yields (turn fetcher round r.pending) r
      (fun out r' => r'.references.keys.Nodup ∧ out.2.keys = r.pending.filter (· ∈ r'.pending) ∧
        (∀ key ∈ r.pending, key ∉ r'.pending → ∃ s, r'.references.get? key = some (some s)) ∧
        (out.1 ≠ [] → ∃ url ∈ wanted r [] r.pending, IsMissing fetcher url))
      fun f _ => f.isSchemaFailure = false := by
  have hpending : r.pending.Nodup := (List.filter_sublist.map _).nodup hr
  refine Yields.bind (Yields.of_modify (Yields.bind ?_))
  refine ((Spares.fetchAll fetcher r.pending _).and (fetchAll_missing fetcher r.pending _)).mono ?_ fun _ _ h => h.1.1
  rintro unfetched r₁ ⟨hret, hmissing⟩
  rw [wanted_notices] at hmissing
  have hp₁ : ∀ key ∈ r.pending, r₁.references.get? key = some none :=
    fun key hkey => hret.kept key none ((Registry.mem_pending_iff hr).1 hkey)
  refine Yields.bind ((targets_yields hpending (hret.nodup hr) hp₁).mono (fun left r' h => Yields.of_pure ?_) fun _ _ h => h)
  exact ⟨h.nodup, h.unsettled, h.found, hmissing⟩

/-! ### All rounds -/

/-- From one registry to another in rounds that fetch all they need and find every target; the rounds are counted. -/
inductive Completes (fetcher : Fetcher) : ℕ → Registry → ℕ → Registry → Prop
  | refl (round : ℕ) (r : Registry) : Completes fetcher round r round r
  | step {round last : ℕ} {r r₁ r' : Registry} {left : Leftover} (hp : r.pending ≠ [])
    (hrun : turn fetcher round r.pending r = .ok ([], left) r₁) (hleft : left.keys = [])
    (hrest : Completes fetcher (round + 1) r₁ last r') : Completes fetcher round r last r'

lemma rounds_succ (fetcher : Fetcher) (limit round resolved : ℕ) {r : Registry} (hp : r.pending ≠ []) :
    rounds fetcher (limit + 1) round resolved r = (turn fetcher round r.pending >>= fun out =>
      if out.1 = [] ∧ out.2.keys = [] then rounds fetcher limit (round + 1) (resolved + r.pending.length)
      else throw (.reference (", ".intercalate (if out.2.keys = [] then r.pending else out.2.keys))
        (.leftOver (out.1 ++ out.2.reasons)))) r := by
  rw [rounds]
  change (if r.pending = [] then _ else _ : Action ℕ) r = _
  rw [if_neg hp, turn]
  simp only [bind_assoc, pure_bind]

/-- Rounds fail for want of a target in one way: after rounds that complete, one leaves something over or cannot fetch. -/
lemma rounds_fail {fetcher : Fetcher} {limit round resolved : ℕ} {r r' : Registry} {named : String} {fault : ReferenceFault}
    (hr : r.references.keys.Nodup) (h : rounds fetcher limit round resolved r = .error (.reference named fault) r') :
    ∃ last start unfetched left, Completes fetcher round r last start ∧ start.references.keys.Nodup ∧ start.pending ≠ [] ∧
      turn fetcher last start.pending start = .ok (unfetched, left) r' ∧ ¬ (unfetched = [] ∧ left.keys = []) ∧
      named = ", ".intercalate (if left.keys = [] then start.pending else left.keys) ∧
      fault = .leftOver (unfetched ++ left.reasons) := by
  induction limit generalizing round resolved r with
  | zero =>
    by_cases hp : r.pending = []
    · exact ((rounds_of_pending_nil hp fetcher _ round resolved).bad_of_error h).elim
    · rw [rounds] at h
      change (if r.pending = [] then _ else _ : Action ℕ) r = _ at h
      rw [if_neg hp] at h
      cases h
  | succ limit ih =>
    by_cases hp : r.pending = []
    · exact ((rounds_of_pending_nil hp fetcher _ round resolved).bad_of_error h).elim
    · rw [rounds_succ fetcher limit round resolved hp] at h
      have hturn := turn_yields fetcher round hr
      cases hrun : turn fetcher round r.pending r with
      | error f r₁ =>
        rw [bind_of_error hrun] at h
        cases h
        cases hturn.bad_of_error hrun
      | ok out r₁ =>
        obtain ⟨unfetched, left⟩ := out
        rw [bind_of_ok hrun] at h
        dsimp only at h
        by_cases hdone : unfetched = [] ∧ left.keys = []
        · rw [if_pos hdone] at h
          obtain ⟨last, start, unfetched', left', hcompletes, hrest⟩ := ih (hturn.good_of_ok hrun).1 h
          obtain ⟨rfl, hleft⟩ := hdone
          exact ⟨last, start, unfetched', left', .step hp hrun hleft hcompletes, hrest⟩
        · rw [if_neg hdone] at h
          cases h
          exact ⟨round, r, unfetched, left, .refl _ _, hr, hp, hrun, hdone, rfl, rfl⟩

/-- **What a failed resolution names.** If resolution fails for want of a target, then in the round that failed every address
that was pending is pending still or has its target. If some are pending still, the failure names these and no others. If
none are, it names all addresses with which the round began, and a document that one of them needed cannot be fetched. -/
theorem resolve_names_leftover (fetcher : Fetcher) (r r' : Registry) (named : String) (fault : ReferenceFault)
    (hr : r.references.keys.Nodup) (h : resolve fetcher r = .error (.reference named fault) r') :
    ∃ last start unfetched left, Completes fetcher 0 r last start ∧ start.pending ≠ [] ∧
      turn fetcher last start.pending start = .ok (unfetched, left) r' ∧ fault = .leftOver (unfetched ++ left.reasons) ∧
      (∀ key ∈ start.pending, key ∉ r'.pending → ∃ s, r'.references.get? key = some (some s)) ∧
      ((∃ key ∈ start.pending, key ∈ r'.pending) →
        named = ", ".intercalate (start.pending.filter (· ∈ r'.pending))) ∧
      ((∀ key ∈ start.pending, key ∉ r'.pending) →
        named = ", ".intercalate start.pending ∧ ∃ url ∈ wanted start [] start.pending, IsMissing fetcher url) := by
  have hresolve : resolve fetcher r = rounds fetcher (roundLimit r) 0 0 r := bind_of_ok (x := get) rfl
  rw [hresolve] at h
  obtain ⟨last, start, unfetched, left, hcompletes, hstart, hp, hrun, hnot, rfl, hfault⟩ := rounds_fail hr h
  obtain ⟨-, hleft, hfound, hmissing⟩ := (turn_yields fetcher last hstart).good_of_ok hrun
  dsimp only at hleft hmissing
  refine ⟨last, start, unfetched, left, hcompletes, hp, hrun, hfault, hfound, ?_, fun hnone => ?_⟩
  · rintro ⟨key, hkey, hopen⟩
    have hne : left.keys ≠ [] := by
      rw [hleft]
      exact List.ne_nil_of_mem (List.mem_filter.2 ⟨hkey, decide_eq_true hopen⟩)
    rw [if_neg hne, hleft]
  · have hnil : left.keys = [] := by
      rw [hleft]
      exact List.filter_eq_nil_iff.2 fun key hkey hopen => hnone key hkey (of_decide_eq_true hopen)
    rw [if_pos hnil]
    exact ⟨rfl, hmissing fun hfetched => hnot ⟨hfetched, hnil⟩⟩

/-- What an outcome names as having no target. -/
def names? : Except Failure ℕ → Option String
  | .error (.reference named _) => some named
  | _ => none

lemma eq_error_of_names? {x : Action ℕ} {r : Registry} {named : String} (h : names? (outcome x r) = some named) :
    ∃ fault, x r = .error (.reference named fault) (final x r) := by
  unfold names? at h
  split at h
  · next text fault hrun =>
    cases h
    exact ⟨fault, eq_error_of_outcome hrun⟩
  · cases h

/-- A registry with a part of a document, and with references into the document. -/
def partKnown (keys : List String) : Registry :=
  { Registry.empty with
    schemas := [("http://h/d#/x", ⟨.draft07, .ofText "http://h/d#/x", Node.ofJson (.obj [("a", .obj [])]), none, [], false⟩)]
    references := keys.map fun key => (key, none) }

theorem resolve_names_leftover_partKnown :
    let r := partKnown ["http://h/d#/x/a", "http://h/d#/x/b"]
    let r' := final (resolve none) r
    r.references.keys.Nodup ∧ r'.pending = ["http://h/d#/x/b"] ∧
      ∃ fault last start, resolve none r = .error (.reference "http://h/d#/x/b" fault) r' ∧
        Completes none 0 r last start ∧
        (∀ key ∈ start.pending, key ∉ r'.pending → ∃ s, r'.references.get? key = some (some s)) ∧
        ((∃ key ∈ start.pending, key ∈ r'.pending) →
          "http://h/d#/x/b" = ", ".intercalate (start.pending.filter (· ∈ r'.pending))) := by
  intro r r'
  have hnodup : r.references.keys.Nodup := by decide
  have hnames : names? (outcome (resolve none) r) = some "http://h/d#/x/b" := by decide +kernel
  obtain ⟨fault, hrun⟩ := eq_error_of_names? hnames
  obtain ⟨last, start, -, -, hcompletes, -, -, -, hfound, hnamed, -⟩ := resolve_names_leftover none r r' _ fault hnodup hrun
  exact ⟨hnodup, by decide +kernel, fault, last, start, hrun, hcompletes, hfound, hnamed⟩

/-- **A failed resolution may leave nothing over**: the document cannot be fetched, but what is looked for lies in a part of it
that is known. The failure then names an address that has its target. -/
theorem resolve_fails_without_leftover :
    let r := partKnown ["http://h/d#/x/a"]
    let r' := final (resolve none) r
    (∃ fault, resolve none r = .error (.reference "http://h/d#/x/a" fault) r') ∧ r'.pending = [] ∧
      "http://h/d#/x/a" ∈ r.pending := by
  intro r r'
  have hnames : names? (outcome (resolve none) r) = some "http://h/d#/x/a" := by decide +kernel
  exact ⟨eq_error_of_names? hnames, by decide +kernel, by decide⟩

end Resolution

end Typings
