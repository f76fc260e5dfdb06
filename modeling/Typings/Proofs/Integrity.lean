import Typings.Proofs.Ledger
import Typings.Proofs.Synthesis

/-!
The integrity of a registry. Keys are addresses in their one form, a schema stands under its own address, and whatever is
stored has an address that is registered (`Registry.IsSound`). Each entry that uses of a registry make fits the registry in
which it is made (`Entry.Fits`), so that all of this holds at every moment, whatever fails. No entry takes a registered
address or the target of a reference away. Main statement: `registry_integrity`.
-/

namespace Typings

open Discovery (Found Trail walk)

variable {α : Type}

/-- **A sound registry.** -/
structure Registry.IsSound (r : Registry) : Prop where
  /-- Keys are addresses in their one form. -/
  keys : ∀ key, key ∈ r.schemas.keys ∨ key ∈ r.references.keys → Address.IsCanonical key
  /-- A schema stands under its own address. -/
  address : ∀ key s, r.schemas.get? key = some s → s.address.text = key
  /-- The address of what is stored is registered. -/
  stored : ∀ s, r.Stores s → r.schemas.has s.address.text = true
  /-- No address is noted twice. -/
  nodup : r.references.keys.Nodup

namespace Registry

lemma isSound_empty : Registry.empty.IsSound where
  keys _ h := by rcases h with h | h <;> cases h
  address _ _ h := by cases h
  stored _ h := by rcases h with h | h | h <;> cases h
  nodup := List.nodup_nil

lemma IsSound.bare {r : Registry} (h : r.IsSound) : r.bare.IsSound := ⟨h.keys, h.address, h.stored, h.nodup⟩

lemma IsSound.of_bare {r : Registry} (h : r.bare.IsSound) : r.IsSound := ⟨h.keys, h.address, h.stored, h.nodup⟩

/-- An address is pending where it is noted and has no target. -/
lemma mem_pending_iff {r : Registry} (h : r.references.keys.Nodup) {key : String} :
    key ∈ r.pending ↔ r.references.get? key = some none := by
  constructor
  · intro hkey
    obtain ⟨⟨k, o⟩, he, rfl⟩ := List.mem_map.1 hkey
    obtain ⟨hmem, hnone⟩ := List.mem_filter.1 he
    cases o with
    | none => exact Table.get?_of_mem h hmem
    | some s => cases hnone
  · intro hkey
    exact List.mem_map.2 ⟨(key, none), List.mem_filter.2 ⟨Table.mem_of_get? hkey, rfl⟩, rfl⟩

/-- A reference under an address in its one form, with a registered target if any, keeps a registry sound. -/
lemma IsSound.setReference {r : Registry} {key : String} {o : Option (Schema Node)} (h : r.IsSound)
    (hkey : Address.IsCanonical key) (ho : ∀ s, o = some s → r.schemas.has s.address.text = true) :
    { r with references := r.references.set key o }.IsSound := by
  refine ⟨fun other hother => ?_, h.address, fun s hs => ?_, Table.nodup_keys_set h.nodup _ _⟩
  · rcases hother with hother | hother
    · exact h.keys other (Or.inl hother)
    · rcases Table.mem_keys_set hother with rfl | hother
      · exact hkey
      · exact h.keys other (Or.inr hother)
  · rcases hs with hs | hs | hs
    · exact h.stored s (Or.inl hs)
    · rcases Table.mem_values_set hs with hs | hs
      · exact ho s hs.symm
      · exact h.stored s (Or.inr (Or.inl hs))
    · exact h.stored s (Or.inr (Or.inr hs))

end Registry

/-! ### Entries -/

namespace Entry

/-- What an entry asks of the registry in which it is made. -/
def Fits : Entry → Registry → Prop
  | put s, _ => Address.IsCanonical s.address.text
  | note a, _ => Address.IsCanonical a.text
  | ask _, _ => True
  | file _ s, r => r.schemas.has s.address.text = true
  | settle key s, r => Address.IsCanonical key ∧ r.schemas.has s.address.text = true

variable {r : Registry} {key : String}

lemma has_enter (e : Entry) (h : r.schemas.has key = true) : (e.enter r).schemas.has key = true := by
  cases e with
  | put s => exact Table.has_set_of_has h
  | note a =>
    simp only [enter]
    split_ifs <;> exact h
  | _ => exact h

/-- A reference that has its target keeps one. -/
lemma resolved_enter (e : Entry) (h : ∃ s, r.references.get? key = some (some s)) :
    ∃ s, (e.enter r).references.get? key = some (some s) := by
  obtain ⟨s, hs⟩ := h
  cases e with
  | note a =>
    by_cases hnoted : r.references.has a.text = true
    · exact ⟨s, by simp only [enter, if_pos hnoted, hs]⟩
    · have hne : a.text ≠ key := by
        rintro rfl
        exact hnoted (Table.has_iff.2 ⟨_, hs⟩)
      refine ⟨s, ?_⟩
      simp only [enter, if_neg hnoted]
      rw [Table.get?_set_of_ne hne, hs]
  | settle k t =>
    by_cases hk : k = key
    · subst hk
      exact ⟨t, Table.get?_set_self ..⟩
    · exact ⟨s, (Table.get?_set_of_ne hk).trans hs⟩
  | _ => exact ⟨s, hs⟩

/-- **An entry that fits keeps a registry sound.** -/
theorem Fits.isSound {e : Entry} (he : e.Fits r) (hr : r.IsSound) : (e.enter r).IsSound := by
  cases e with
  | put s =>
    refine ⟨fun key hkey => ?_, fun key t ht => ?_, fun t ht => ?_, hr.nodup⟩
    · rcases hkey with hkey | hkey
      · rcases Table.mem_keys_set hkey with rfl | hkey
        · exact he
        · exact hr.keys key (Or.inl hkey)
      · exact hr.keys key (Or.inr hkey)
    · change (r.schemas.set s.address.text s).get? key = some t at ht
      rw [Table.get?_set] at ht
      split_ifs at ht with hk
      · cases ht
        exact hk
      · exact hr.address key t ht
    · rcases ht with ht | ht
      · rcases Table.mem_values_set ht with rfl | ht
        · exact Table.has_set.2 (Or.inl rfl)
        · exact Table.has_set_of_has (hr.stored t (Or.inl ht))
      · exact Table.has_set_of_has (hr.stored t (Or.inr ht))
  | note a =>
    by_cases hnoted : r.references.has a.text = true
    · simp only [enter, if_pos hnoted]
      exact hr
    · simp only [enter, if_neg hnoted]
      exact hr.setReference he fun s hs => by cases hs
  | ask urls => exact ⟨hr.keys, hr.address, hr.stored, hr.nodup⟩
  | file url s =>
    refine ⟨hr.keys, hr.address, fun t ht => ?_, hr.nodup⟩
    rcases ht with ht | ht | ht
    · exact hr.stored t (Or.inl ht)
    · exact hr.stored t (Or.inr (Or.inl ht))
    · rcases Table.mem_values_set ht with rfl | ht
      · exact he
      · exact hr.stored t (Or.inr (Or.inr ht))
  | settle k s =>
    refine hr.setReference he.1 fun t ht => ?_
    cases ht
    exact he.2

end Entry

/-! ### Ledgers -/

section Replay

variable {key : String} {r : Registry} {es : List Entry}

lemma has_replay (h : r.schemas.has key = true) : (replay es r).schemas.has key = true := by
  induction es generalizing r with
  | nil => exact h
  | cons e es ih => exact ih (e.has_enter h)

lemma resolved_replay (h : ∃ s, r.references.get? key = some (some s)) :
    ∃ s, (replay es r).references.get? key = some (some s) := by
  induction es generalizing r with
  | nil => exact h
  | cons e es ih => exact ih (e.resolved_enter h)

lemma Along.isSound (h : Along Entry.Fits es r) (hr : r.IsSound) : (replay es r).IsSound := by
  induction es generalizing r with
  | nil => exact hr
  | cons e es ih => exact ih h.2 (h.1.isSound hr)

/-- The schema that a ledger puts last under a key. -/
def lastPut (key : String) : List Entry → Option (Schema Node)
  | [] => none
  | .put s :: es => (lastPut key es).or (if s.address.text = key then some s else none)
  | _ :: es => lastPut key es

/-- **The schema under a key is the one that was put there last.** -/
theorem get?_replay (key : String) (es : List Entry) (r : Registry) :
    (replay es r).schemas.get? key = (lastPut key es).or (r.schemas.get? key) := by
  induction es generalizing r with
  | nil => rfl
  | cons e es ih =>
    rw [replay_cons, ih]
    cases e with
    | put s =>
      have hset : ((Entry.put s).enter r).schemas.get? key =
          (if s.address.text = key then some s else none).or (r.schemas.get? key) := by
        simp only [Entry.enter, Table.get?_set]
        split_ifs <;> rfl
      rw [hset, ← Option.or_assoc]
      rfl
    | note a =>
      have hsame : ((Entry.note a).enter r).schemas = r.schemas := by
        simp only [Entry.enter]
        split_ifs <;> rfl
      rw [hsame]
      rfl
    | _ => rfl

end Replay

namespace Obeys

variable {x : Recorded α} {r : Registry} {good : α → Registry → Prop}

/-- What obeys leaves a sound registry, whether it ends well or fails. -/
lemma isSound (h : Obeys Entry.Fits x r good) (hr : r.IsSound) : (final x.act r).IsSound := by
  refine Registry.IsSound.of_bare ?_
  rw [x.explains]
  exact h.1.isSound hr.bare

lemma and_isSound (h : Obeys Entry.Fits x r good) (hr : r.IsSound) :
    Obeys Entry.Fits x r fun a r' => good a r' ∧ r'.IsSound := by
  refine ⟨h.1, Yields.of_outcome (fun a r' hx => ⟨h.2.good_of_ok hx, ?_⟩) fun _ _ _ => trivial⟩
  rw [← final_of_ok hx]
  exact h.isSound hr

end Obeys

/-! ### Walks report addresses in their one form -/

namespace Discovery

/-- The reported addresses are in their one form. -/
def Reported (found : List Found) : Prop := ∀ f ∈ found, ∀ r, (Entry.ofFound f).Fits r

lemma enter_reported (s : Schema Node) (visit : Visit) {t : Trail} (ht : Reported t.found) :
    Yields (enter s visit) t (fun _ t' => Reported t'.found) fun _ t' => Reported t'.found := by
  unfold enter
  split
  · exact Yields.of_pure ht
  · next id _ =>
    refine Yields.bind ?_
    cases ha : Address.within id visit.scope with
    | error f => exact Yields.of_throw ht
    | ok address =>
      refine Yields.of_pure (Yields.bind (Yields.of_get (Yields.bind (Yields.of_modify (Yields.of_pure ?_)))))
      intro f hf
      rcases List.mem_cons.1 hf with rfl | hf
      · exact fun _ => Address.isCanonical_within ha
      · exact ht f hf

lemma canonize_reported (node : Node) (scope : List String) {t : Trail} (ht : Reported t.found) :
    Yields (canonize node scope) t (fun _ t' => Reported t'.found) fun _ t' => Reported t'.found := by
  refine Yields.bind (Yields.of_get ?_)
  split
  · exact Yields.of_pure ht
  · next text _ =>
    refine Yields.bind ?_
    cases ha : Address.within text scope with
    | error f => exact Yields.of_throw ht
    | ok address =>
      refine Yields.of_pure (Yields.bind (Yields.of_modify (Yields.of_modify ?_)))
      intro f hf
      rcases List.mem_cons.1 hf with rfl | hf
      · exact fun _ => Address.isCanonical_within ha
      · exact ht f hf

theorem walk_reported (s : Schema Node) (refs : Refs) (next : ℕ) : Reported (walk s refs next).found := by
  have hupheld : Upheld s fun t => Reported t.found :=
    ⟨fun visit _ _ ht => enter_reported s visit ht, fun node scope _ ht => canonize_reported node scope ht⟩
  have hstart : Reported (Trail.found ⟨refs, []⟩) := fun _ h => absurd h List.not_mem_nil
  obtain ⟨t, ht, -, hfound⟩ := hupheld.walk hstart next
  intro f hf
  rw [hfound] at hf
  exact ht f (List.mem_reverse.1 hf)

end Discovery

lemma Document.isCanonical_toSchema {content : Node} {url : Option String} {s : Schema Node}
    (h : Document.toSchema content url = .ok s) : Address.IsCanonical s.address.text := by
  unfold Document.toSchema at h
  obtain ⟨recognised, -, h⟩ := bind_eq_ok.1 h
  cases h
  dsimp only
  split
  · exact Address.isCanonical_ofText _
  · exact Address.isCanonical_ofText _

lemma Schema.address_extract {refs : Refs} {s part : Schema Node} {pointer : String} {key : Address}
    (h : s.extract refs pointer (some key) = .ok part) : part.address = key := by
  unfold Schema.extract at h
  obtain ⟨tokens, -, h⟩ := bind_eq_ok.1 h
  obtain ⟨content, -, h⟩ := bind_eq_ok.1 h
  obtain ⟨address, ha, h⟩ := bind_eq_ok.1 h
  cases ha
  cases h
  rfl

/-! ### Actions -/

namespace Obeys

variable {r : Registry}

/-- What is registered goes in under its address. -/
lemma register {s : Schema Node} (hs : Address.IsCanonical s.address.text) :
    Obeys Entry.Fits (Recorded.register s) r fun _ r' => r'.schemas.has s.address.text = true := by
  refine ⟨⟨hs, along_of_forall (fun e he => ?_) _⟩, Yields.of_outcome (fun _ r' hrun => ?_) fun _ _ _ => trivial⟩
  · obtain ⟨f, hf, rfl⟩ := List.mem_map.1 he
    exact Discovery.walk_reported s r.refs r.next f hf
  · have hput : ((Entry.put s).enter r.bare).schemas.has s.address.text = true := Table.has_set.2 (Or.inl rfl)
    have hbare : r'.bare.schemas.has s.address.text = true := by
      rw [Recorded.explains_of_ok hrun, Recorded.register, replay_cons]
      exact has_replay hput
    exact hbare

lemma openDocument (document : Node) (url : Option String) :
    Obeys Entry.Fits (Recorded.openDocument document url) r fun s _ => Address.IsCanonical s.address.text := by
  refine ⟨trivial, Yields.bind (Yields.of_modifyGet (Yields.bind ?_))⟩
  cases h : Document.toSchema (document.shift r.next) url with
  | error f => exact Yields.of_throw trivial
  | ok s =>
    exact Yields.of_pure (Yields.bind (Yields.of_modify (Yields.of_pure (Document.isCanonical_toSchema h))))

lemma receive (url : String) (result : Except String Node) :
    Obeys Entry.Fits (Recorded.receive url result) r fun _ _ => True := by
  cases result with
  | error words => exact of_pure trivial
  | ok document =>
    refine bind (of_tell (bind ((openDocument _ _).mono fun s r₁ hs => bind ((register hs).mono fun _ r₂ hhas => ?_))))
    exact bind (of_enter hhas (of_pure trivial))

lemma receiveAll (results : List (String × Except String Node)) :
    Obeys Entry.Fits (Recorded.receiveAll results) r fun _ _ => True := by
  induction results generalizing r with
  | nil => exact of_pure trivial
  | cons e results ih =>
    exact bind ((receive e.1 e.2).mono fun _ _ _ => bind (ih.mono fun _ _ _ => of_pure trivial))

lemma fetchAll (fetcher : Fetcher) (pending : List String) :
    Obeys Entry.Fits (Recorded.fetchAll fetcher pending) r fun _ _ => True := by
  refine bind (of_get ?_)
  cases fetcher with
  | none => exact of_pure trivial
  | some fetch =>
    refine bind (x := Recorded.ask fetch _) ⟨⟨trivial, trivial⟩, Yields.of_modify ?_⟩
    exact receiveAll _

/-- The address of a target is registered, though the target may have been found under another one. -/
lemma target {key : Address} (hkey : Address.IsCanonical key.text) (hr : r.IsSound) :
    Obeys Entry.Fits (Recorded.target key) r fun s r' => r'.schemas.has s.address.text = true := by
  refine bind (of_get ?_)
  split
  · next s hs => exact of_pure (hr.stored s (Or.inl (Table.mem_values_of_get? hs)))
  · have hholder : Obeys Entry.Fits (Recorded.lift (Resolution.holder r key)) r
        fun e r' => r' = r ∧ r.schemas.has e.1.address.text = true := by
      refine of_lift fun e he => ⟨rfl, hr.stored e.1 ?_⟩
      exact (Resolution.mem_of_holder he).symm.imp_right Or.inr
    refine bind (hholder.mono ?_)
    rintro ⟨parent, pointer⟩ _ ⟨rfl, hparent⟩
    dsimp only
    by_cases hp : pointer = ""
    · rw [if_pos hp]
      exact of_pure hparent
    · rw [if_neg hp]
      refine bind (of_lift fun s hs => bind (Obeys.mono (register ?_) fun _ r' h => of_pure h))
      rw [Schema.address_extract hs]
      exact hkey

lemma settle {key : String} (hkey : Address.IsCanonical key) (hr : r.IsSound) :
    Obeys Entry.Fits (Recorded.settle key) r fun _ _ => True := by
  refine bind ((of_attempt (target (Address.isCanonical_ofText key) hr)).mono fun found r' h => ?_)
  cases found with
  | ok s => exact bind (of_enter ⟨hkey, h s rfl⟩ (of_pure trivial))
  | error f => exact of_pure trivial

lemma targets {keys : List String} (hkeys : ∀ key ∈ keys, Address.IsCanonical key) (hr : r.IsSound) :
    Obeys Entry.Fits (Recorded.targets keys) r fun _ _ => True := by
  induction keys generalizing r with
  | nil => exact of_pure trivial
  | cons key keys ih =>
    refine bind (((settle (hkeys key List.mem_cons_self) hr).and_isSound hr).mono fun _ r' h => ?_)
    exact bind ((ih (fun k hk => hkeys k (List.mem_cons_of_mem _ hk)) h.2).mono fun _ _ _ => of_pure trivial)

lemma turn (fetcher : Fetcher) (round : ℕ) {pending : List String} (hp : ∀ key ∈ pending, Address.IsCanonical key)
    (hr : r.IsSound) : Obeys Entry.Fits (Recorded.turn fetcher round pending) r fun _ _ => True := by
  have htold : Registry.IsSound { r with notices := .roundBegun (round + 1) pending.length :: r.notices } :=
    ⟨hr.keys, hr.address, hr.stored, hr.nodup⟩
  refine bind (of_tell (bind (((fetchAll fetcher pending).and_isSound htold).mono fun _ r' h => ?_)))
  exact bind ((targets hp h.2).mono fun _ _ _ => of_pure trivial)

/-- A round keeps the registry sound, and so do all rounds. -/
lemma rounds (fetcher : Fetcher) (limit round resolved : ℕ) (hr : r.IsSound) :
    Obeys Entry.Fits (Recorded.rounds fetcher limit round resolved) r fun _ _ => True := by
  induction limit generalizing round resolved r with
  | zero =>
    refine bind (of_get ?_)
    split_ifs
    · exact of_pure trivial
    · exact of_fail
  | succ limit ih =>
    refine bind (of_get ?_)
    dsimp only
    split_ifs
    · exact of_pure trivial
    · have hp : ∀ key ∈ r.pending, Address.IsCanonical key := by
        intro key hkey
        exact hr.keys key (Or.inr (Table.mem_keys_of_get? ((Registry.mem_pending_iff hr.nodup).1 hkey)))
      refine bind (((turn fetcher round hp hr).and_isSound hr).mono ?_)
      rintro ⟨unfetched, left⟩ r' ⟨-, hr'⟩
      dsimp only
      split_ifs
      · exact ih _ _ hr'
      · exact of_fail
      · exact of_fail

end Obeys

/-! ### Uses -/

namespace Use

/-- The addresses that a use is given are in their one form. -/
def IsProper : Use → Prop
  | register s | addSchema s => Address.IsCanonical s.address.text
  | addReference a => Address.IsCanonical a.text
  | resolve _ _ => True

lemma obeys {u : Use} (hu : u.IsProper) {r : Registry} (hr : r.IsSound) :
    Obeys Entry.Fits u.recorded r fun _ _ => True := by
  cases u with
  | register s => exact (Obeys.register hu).mono fun _ _ _ => trivial
  | addSchema s => exact ⟨⟨hu, trivial⟩, Yields.anything⟩
  | addReference a => exact Obeys.of_enter hu trivial
  | resolve fetcher limit =>
    exact Obeys.bind (Obeys.of_get (Obeys.bind ((Obeys.rounds _ _ _ _ hr).mono fun _ _ _ => Obeys.of_pure trivial)))

lemma isSound_left {u : Use} (hu : u.IsProper) {r : Registry} (hr : r.IsSound) : (u.left r).IsSound := by
  rw [left, ← recorded_act]
  exact (u.obeys hu hr).isSound hr

lemma isSound_leftAll {uses : List Use} (hu : ∀ u ∈ uses, u.IsProper) {r : Registry} (hr : r.IsSound) :
    (leftAll uses r).IsSound := by
  induction uses generalizing r with
  | nil => exact hr
  | cons u uses ih =>
    exact ih (fun v hv => hu v (List.mem_cons_of_mem _ hv)) (isSound_left (hu u List.mem_cons_self) hr)

end Use

/-- **The integrity of a registry** after any uses of it, of which any may have failed, and what any further uses leave of
it. Its keys are addresses in their one form; a schema stands under its own address; registered addresses stay registered;
a reference that has its target does not become pending again; the address of a target is registered; and a text that
means a registered address leads to the schema that was put there last. -/
theorem registry_integrity (earlier later : List Use) (hearlier : ∀ u ∈ earlier, u.IsProper)
    (hlater : ∀ u ∈ later, u.IsProper) :
    let r := Use.leftAll earlier .empty
    let r' := Use.leftAll later r
    (∀ key, key ∈ r.schemas.keys ∨ key ∈ r.references.keys → Address.IsCanonical key) ∧
    (∀ key s, r.schemas.get? key = some s → s.address.text = key) ∧
    (∀ key ∈ r.schemas.keys, key ∈ r'.schemas.keys) ∧
    (∀ key s, r.references.get? key = some (some s) → r.schemas.has s.address.text = true ∧ key ∉ r'.pending ∧
      ∃ s', r'.references.get? key = some (some s')) ∧
    ∀ text, (Address.ofText text).text ∈ r.schemas.keys →
      ∃ s, lastPut (Address.ofText text).text (Use.entriesAll earlier .empty) = some s ∧ r.dereference text = .ok s := by
  intro r r'
  have hr : r.IsSound := Use.isSound_leftAll hearlier Registry.isSound_empty
  have hr' : r'.IsSound := Use.isSound_leftAll hlater hr
  have hreplay : r'.bare = replay (Use.entriesAll later r) r.bare := Use.bare_leftAll later r
  refine ⟨hr.keys, hr.address, fun key hkey => ?_, fun key s hs => ⟨?_, ?_⟩, fun text htext => ?_⟩
  · have hhas : r'.bare.schemas.has key = true := by
      rw [hreplay]
      exact has_replay (Table.has_iff_mem_keys.2 hkey)
    exact Table.has_iff_mem_keys.1 hhas
  · exact hr.stored s (Or.inr (Or.inl (Table.mem_values_of_get? hs)))
  · have hresolved : ∃ s', r'.bare.references.get? key = some (some s') := by
      rw [hreplay]
      exact resolved_replay ⟨s, hs⟩
    obtain ⟨s', hs'⟩ := hresolved
    refine ⟨fun hpending => ?_, s', hs'⟩
    have hnone := (Registry.mem_pending_iff hr'.nodup).1 hpending
    cases hs'.symm.trans hnone
  · obtain ⟨s, hs⟩ := Table.has_iff.1 (Table.has_iff_mem_keys.2 htext)
    have hlast : r.bare.schemas.get? (Address.ofText text).text =
        lastPut (Address.ofText text).text (Use.entriesAll earlier .empty) := by
      rw [show r.bare = _ from Use.bare_leftAll earlier .empty, get?_replay]
      exact Option.or_none
    refine ⟨s, hlast.symm.trans hs, ?_⟩
    simp only [Registry.dereference, Registry.lookup?, hs, Option.some_or]

/-- A schema that refers to another document. -/
def farReference : Schema Node where
  dialect := .draft07
  address := .ofText "http://h/s"
  content := Node.ofJson (.obj [("items", .obj [("$ref", .str "http://h/d#/a")])])
  openapi := none
  ancestors := []
  operation := false

/-- The schema is registered, and resolution fails for want of a fetcher. -/
def failedUses : List Use := [.register farReference, .resolve none Resolution.roundLimit]

/-- Resolution with a fetcher that knows one document. -/
def secondAttempt : Use :=
  .resolve (some fun _ => ⟨[], .ok (Node.ofJson (.obj [("a", .obj [])]))⟩) Resolution.roundLimit

theorem registry_integrity_secondAttempt :
    let r := Use.leftAll failedUses .empty
    let r' := Use.leftAll [secondAttempt] r
    r.pending = ["http://h/d#/a"] ∧ r'.pending = [] ∧ "http://h/s#" ∈ r'.schemas.keys ∧
      ∃ s, lastPut "http://h/s#" (Use.entriesAll failedUses .empty) = some s ∧ r.dereference "http://h/s" = .ok s := by
  have hproper : ∀ u ∈ failedUses, u.IsProper := by
    intro u hu
    rcases List.mem_pair.1 hu with rfl | rfl
    · exact Address.isCanonical_ofText _
    · trivial
  have hproper' : ∀ u ∈ [secondAttempt], u.IsProper := by
    intro u hu
    obtain rfl := List.mem_singleton.1 hu
    trivial
  have hpending : (Use.leftAll failedUses .empty).pending = ["http://h/d#/a"] := by decide +kernel
  have hpending' : (Use.leftAll [secondAttempt] (Use.leftAll failedUses .empty)).pending = [] := by decide +kernel
  have hkeys : "http://h/s#" ∈ (Use.leftAll failedUses .empty).schemas.keys := by decide +kernel
  have htext : (Address.ofText "http://h/s").text = "http://h/s#" := by decide +kernel
  obtain ⟨-, -, hstay, -, hlast⟩ := registry_integrity failedUses [secondAttempt] hproper hproper'
  refine ⟨hpending, hpending', hstay _ hkeys, ?_⟩
  have h := hlast "http://h/s"
  rw [htext] at h
  exact h hkeys

end Typings
