import Typings.Proofs.Integrity
import Typings.Proofs.Spelling

/-!
Fetching documents. A round asks for a document once, and only if a pending address lies in it, neither the address nor the
document is registered, and it was not fetched before. A document that was received is filed, and what is filed stays; a
round in which something is not received is the last one of its resolution. So no document is asked for twice in one
resolution, and none that was received is asked for ever again. Main statement: `fetches_once`.
-/

namespace Typings

variable {α β : Type}

/-! ### What is asked for and what is filed -/

namespace Entry

/-- The documents that an entry asks for. -/
def urls : Entry → List String
  | ask urls => urls
  | _ => []

/-- The document that an entry files. -/
def filed? : Entry → Option String
  | file url _ => some url
  | _ => none

end Entry

/-- The documents that a ledger asks for, in order. -/
def asked (es : List Entry) : List String := es.flatMap Entry.urls

/-- The documents that a ledger files: they were fetched and registered. -/
def filed (es : List Entry) : List String := es.filterMap Entry.filed?

@[simp] lemma asked_cons (e : Entry) (es : List Entry) : asked (e :: es) = e.urls ++ asked es := rfl

lemma asked_append (es es' : List Entry) : asked (es ++ es') = asked es ++ asked es' := List.flatMap_append

lemma asked_replay (es : List Entry) (r : Registry) : (replay es r).asked = (asked es).reverse ++ r.asked := by
  induction es generalizing r with
  | nil => rfl
  | cons e es ih =>
    have henter : (e.enter r).asked = e.urls.reverse ++ r.asked := by
      cases e with
      | note a =>
        simp only [Entry.enter]
        split_ifs <;> rfl
      | _ => rfl
    rw [replay_cons, ih, henter, asked_cons, List.reverse_append, List.append_assoc]

section Documents

variable {r : Registry} {key : String}

lemma Entry.documents_enter (e : Entry) (h : r.documents.has key = true) : (e.enter r).documents.has key = true := by
  cases e with
  | file url s => exact Table.has_set_of_has h
  | note a =>
    simp only [enter]
    split_ifs <;> exact h
  | _ => exact h

lemma documents_replay {es : List Entry} (h : r.documents.has key = true) : (replay es r).documents.has key = true := by
  induction es generalizing r with
  | nil => exact h
  | cons e es ih => exact ih (e.documents_enter h)

/-- What a ledger files is among the documents afterwards. -/
lemma documents_of_filed {es : List Entry} {url : String} (h : url ∈ filed es) (r : Registry) :
    (replay es r).documents.has (Address.ofText url).text = true := by
  obtain ⟨e, he, hurl⟩ := List.mem_filterMap.1 h
  obtain ⟨front, back, rfl⟩ := List.append_of_mem he
  rw [replay_append, replay_cons]
  refine documents_replay ?_
  cases e with
  | file u s =>
    cases hurl
    exact Table.has_set.2 (Or.inl rfl)
  | _ => cases hurl

/-- What is among the documents stays there. -/
lemma Recorded.documents_kept {x : Recorded α} {r' : Registry} {a : α} (hx : x.act r = .ok a r')
    (h : r.documents.has key = true) : r'.documents.has key = true := by
  have hbare : r'.bare.documents.has key = true := by
    rw [explains_of_ok hx]
    exact documents_replay h
  exact hbare

end Documents

/-! ### Actions that ask for nothing -/

/-- A recorded action that asks for nothing. -/
def IsSilent (x : Recorded α) : Prop := ∀ r, ∀ e ∈ x.log r, e.urls = []

namespace IsSilent

variable {x : Recorded α} {f : α → Recorded β}

lemma bind (hx : IsSilent x) (hf : ∀ a, IsSilent (f a)) : IsSilent (x >>= f) := by
  intro r e he
  cases hrun : x.act r with
  | ok a r' =>
    rw [Recorded.log_bind_of_ok hrun] at he
    rcases List.mem_append.1 he with he | he
    · exact hx r e he
    · exact hf a r' e he
  | error g r' =>
    rw [Recorded.log_bind_of_error hrun] at he
    exact hx r e he

lemma of_log (h : ∀ r, x.log r = []) : IsSilent x := by
  intro r e he
  rw [h r] at he
  cases he

lemma of_pure {a : α} : IsSilent (pure a) := of_log fun _ => rfl

lemma of_enter {e : Entry} (h : e.urls = []) : IsSilent (Recorded.enter e) := by
  intro r e' he'
  rw [List.mem_singleton.1 he']
  exact h

lemma register (s : Schema Node) : IsSilent (Recorded.register s) := by
  intro r e he
  rcases List.mem_cons.1 he with rfl | he
  · rfl
  · obtain ⟨f, -, rfl⟩ := List.mem_map.1 he
    cases f <;> rfl

lemma receive (url : String) (result : Except String Node) : IsSilent (Recorded.receive url result) := by
  cases result with
  | error words => exact of_pure
  | ok document =>
    refine bind (of_log fun _ => rfl) fun _ => bind (of_log fun _ => rfl) fun s => bind (register s) fun _ => ?_
    exact bind (of_enter rfl) fun _ => of_pure

lemma receiveAll (results : List (String × Except String Node)) : IsSilent (Recorded.receiveAll results) := by
  induction results with
  | nil => exact of_pure
  | cons e results ih => exact bind (receive e.1 e.2) fun _ => bind ih fun _ => of_pure

lemma target (key : Address) : IsSilent (Recorded.target key) := by
  refine bind (of_log fun _ => rfl) fun r => ?_
  split
  · exact of_pure
  · refine bind (of_log fun _ => rfl) fun e => ?_
    dsimp only
    split_ifs
    · exact of_pure
    · exact bind (of_log fun _ => rfl) fun s => bind (register s) fun _ => of_pure

lemma targets (keys : List String) : IsSilent (Recorded.targets keys) := by
  induction keys with
  | nil => exact of_pure
  | cons key keys ih =>
    have hattempt : IsSilent (Recorded.attempt (Recorded.target (Address.ofText key))) := target (Address.ofText key)
    refine bind (bind hattempt fun found => ?_) fun _ => bind ih fun _ => of_pure
    cases found with
    | ok s => exact bind (of_enter rfl) fun _ => of_pure
    | error f => exact of_pure

end IsSilent

/-! ### One round -/

namespace Address

/-- The location of a document that can be fetched is a text for its address. -/
lemma ofText_location {a : Address} (h : a.isFetchable = true) : (ofText a.location).text = a.document := by
  have hhash := hash_not_mem_location a
  have hscheme : ∃ front rest, [':', '/', '/'] <:+: front ∧ '#' ∉ front ∧ a.text.toList = front ++ rest := by
    rcases Bool.or_eq_true_iff.1 h with h | h
    · obtain ⟨rest, hrest⟩ := List.isPrefixOf_iff_prefix.1 h
      exact ⟨"http://".toList, rest, ⟨"http".toList, [], by decide⟩, by decide, hrest.symm⟩
    · obtain ⟨rest, hrest⟩ := List.isPrefixOf_iff_prefix.1 h
      exact ⟨"https://".toList, rest, ⟨"https".toList, [], by decide⟩, by decide, hrest.symm⟩
  obtain ⟨front, rest, hmark, hfront, htext⟩ := hscheme
  have hlocation : [':', '/', '/'] <:+: a.location.toList ++ ['#'] := by
    have hall : ∀ c ∈ front, decide (c ≠ '#') = true := by
      intro c hc
      exact decide_eq_true fun e => hfront (e ▸ hc)
    simp only [location, htext, Url.cut, List.span_eq_takeWhile_dropWhile, List.takeWhile_append_of_pos hall,
      String.toList_ofList]
    exact (hmark.trans (List.prefix_append _ _).isInfix).trans (List.prefix_append _ _).isInfix
  have hrooted : rooted a.location.toList = a.location.toList ++ ['#'] := by
    have hcontains : a.location.toList.contains '#' = false := by simpa using hhash
    have hoccurs : occurs "://".toList (a.location.toList ++ ['#']) = true := occurs_iff.2 hlocation
    simp only [rooted, hcontains, Bool.false_eq_true, if_false, hoccurs, Bool.true_or, if_true]
  have hempty : Pointer.canonicalFragment [] = [] := by decide +kernel
  have hcanonical : canonical a.location.toList = a.location.toList ++ ['#'] := by
    simp only [canonical, hrooted, Url.cut_append hhash, hempty]
  rw [ofText, hcanonical, document]
  simp

end Address

namespace Resolution

lemma wanted_nodup {done : List String} (h : done.Nodup) (r : Registry) (keys : List String) :
    (wanted r done keys).Nodup := by
  induction keys generalizing done with
  | nil => exact h
  | cons key keys ih =>
    rw [wanted]
    refine ih ?_
    split_ifs with hnew
    · have hnot : (Address.ofText key).location ∉ done := by
        simpa using (Bool.and_eq_true_iff.1 hnew).2
      exact List.nodup_append.2 ⟨h, List.pairwise_singleton _ _, fun a ha b hb => by
        rw [List.mem_singleton.1 hb]
        exact fun e => hnot (e ▸ ha)⟩
    · exact h

lemma mem_wanted {r : Registry} {done keys : List String} {url : String} (h : url ∈ wanted r done keys) :
    url ∈ done ∨ ∃ key ∈ keys, needsFetch r key = true ∧ (Address.ofText key).location = url := by
  induction keys generalizing done with
  | nil => exact Or.inl h
  | cons key keys ih =>
    rw [wanted] at h
    rcases ih h with hdone | ⟨k, hk, hneeds⟩
    · split_ifs at hdone with hnew
      · rcases List.mem_append.1 hdone with hdone | hdone
        · exact Or.inl hdone
        · refine Or.inr ⟨key, List.mem_cons_self, (Bool.and_eq_true_iff.1 hnew).1, ?_⟩
          exact (List.mem_singleton.1 hdone).symm
      · exact Or.inl hdone
    · exact Or.inr ⟨k, List.mem_cons_of_mem _ hk, hneeds⟩

end Resolution

/-- An entry asks only for documents that pending addresses need. -/
def Entry.IsNeeded (e : Entry) (r : Registry) : Prop :=
  ∀ url ∈ e.urls, ∃ key ∈ r.pending, Resolution.needsFetch r key = true ∧ (Address.ofText key).location = url

/-- What is needed is not among the documents. -/
lemma Entry.IsNeeded.not_filed {e : Entry} {r : Registry} (h : e.IsNeeded r) {url : String} (hurl : url ∈ e.urls) :
    r.documents.has (Address.ofText url).text = false := by
  obtain ⟨key, -, hneeds, rfl⟩ := h url hurl
  simp only [Resolution.needsFetch, Bool.and_eq_true, Bool.not_eq_true'] at hneeds
  obtain ⟨⟨-, hdocument⟩, hfetchable⟩ := hneeds
  rw [Address.ofText_location hfetchable]
  exact hdocument

/-- The ledger of an action begins with `first`, and the rest of it asks for nothing. -/
def Opens (first : List Entry) (x : Recorded α) (r : Registry) : Prop :=
  ∃ rest, x.log r = first ++ rest ∧ ∀ e ∈ rest, e.urls = []

namespace Opens

variable {first : List Entry} {x : Recorded α} {f : α → Recorded β} {r r' : Registry} {a : α}

lemma of_silent (h : IsSilent x) : Opens [] x r := ⟨x.log r, rfl, h r⟩

/-- What begins so goes on so if nothing more is asked for. -/
lemma bind (hx : Opens first x r) (hf : ∀ a, IsSilent (f a)) : Opens first (x >>= f) r := by
  obtain ⟨rest, hlog, hrest⟩ := hx
  cases hrun : x.act r with
  | ok a r' =>
    refine ⟨rest ++ (f a).log r', ?_, fun e he => ?_⟩
    · rw [Recorded.log_bind_of_ok hrun, hlog, List.append_assoc]
    · rcases List.mem_append.1 he with he | he
      · exact hrest e he
      · exact hf a r' e he
  | error g r' =>
    refine ⟨rest, ?_, hrest⟩
    rw [Recorded.log_bind_of_error hrun, hlog]

/-- Before the first entry there may be steps without entries. -/
lemma after (hrun : x.act r = .ok a r') (hlog : x.log r = []) (h : Opens first (f a) r') : Opens first (x >>= f) r := by
  obtain ⟨rest, hf, hrest⟩ := h
  refine ⟨rest, ?_, hrest⟩
  rw [Recorded.log_bind_of_ok hrun, hlog, hf, List.nil_append]

/-- A round asks for what is wanted when it begins, if there is a fetcher. -/
lemma fetchAll (fetcher : Fetcher) (pending : List String) (r : Registry) :
    Opens (if fetcher.isSome then [.ask (Resolution.wanted r [] pending)] else []) (Recorded.fetchAll fetcher pending) r := by
  cases fetcher with
  | none => exact of_silent (IsSilent.bind (IsSilent.of_log fun _ => rfl) fun _ => IsSilent.of_pure)
  | some fetch =>
    have hask : Opens [.ask (Resolution.wanted r [] pending)] (Recorded.ask fetch (Resolution.wanted r [] pending)) r :=
      ⟨[], rfl, fun _ h => absurd h List.not_mem_nil⟩
    exact after (x := Recorded.get) rfl rfl (hask.bind fun _ => IsSilent.receiveAll _)

end Opens

namespace Recorded

/-- What is received without a word is filed. -/
lemma receive_filed (url : String) (result : Except String Node) (r : Registry) :
    Yields (receive url result).act r (fun words r' => words = [] → r'.documents.has (Address.ofText url).text = true)
      fun _ _ => True := by
  cases result with
  | error words => exact Yields.of_pure fun h => absurd h (List.cons_ne_nil _ _)
  | ok document =>
    refine Yields.bind (Yields.anything.mono (fun _ _ _ => ?_) fun _ _ h => h)
    refine Yields.bind (Yields.anything.mono (fun _ _ _ => ?_) fun _ _ h => h)
    refine Yields.bind (Yields.anything.mono (fun _ _ _ => ?_) fun _ _ h => h)
    exact Yields.bind (Yields.of_modify (Yields.of_pure fun _ => Table.has_set.2 (Or.inl rfl)))

lemma receiveAll_filed (results : List (String × Except String Node)) (r : Registry) :
    Yields (receiveAll results).act r
      (fun words r' => words = [] → ∀ e ∈ results, r'.documents.has (Address.ofText e.1).text = true) fun _ _ => True := by
  induction results generalizing r with
  | nil => exact Yields.of_pure fun _ _ h => absurd h List.not_mem_nil
  | cons e results ih =>
    refine Yields.bind ((receive_filed e.1 e.2 r).mono (fun first r₁ hfirst => ?_) fun _ _ h => h)
    refine Yields.bind (Yields.of_outcome (fun others r₂ hrun => Yields.of_pure fun hnil => ?_) fun _ _ _ => trivial)
    obtain ⟨rfl, rfl⟩ := List.append_eq_nil_iff.1 hnil
    intro e' he'
    rcases List.mem_cons.1 he' with rfl | he'
    · exact documents_kept hrun (hfirst rfl)
    · exact (ih r₁).good_of_ok hrun rfl e' he'

lemma fetchAll_filed (fetcher : Fetcher) (pending : List String) (r : Registry) :
    Yields (fetchAll fetcher pending).act r
      (fun words r' => words = [] →
        ∀ url ∈ Resolution.wanted r [] pending, r'.documents.has (Address.ofText url).text = true)
      fun _ _ => True := by
  refine Yields.bind (Yields.of_get ?_)
  cases fetcher with
  | none =>
    refine Yields.of_pure fun hnil url hurl => ?_
    rw [List.map_eq_nil_iff.1 hnil] at hurl
    cases hurl
  | some fetch =>
    refine Yields.bind (Yields.of_modify ((receiveAll_filed _ _).mono (fun words r' h hnil url hurl => ?_) fun _ _ h => h))
    exact h hnil (url, (fetch url).result) (List.mem_map_of_mem hurl)

end Recorded

/-! ### All rounds -/

/-- **A ledger that asks with thrift**: for nothing twice, for nothing that is among the documents, and only for what is
needed. -/
structure IsThrifty (es : List Entry) (r : Registry) : Prop where
  nodup : (asked es).Nodup
  fresh : ∀ url ∈ asked es, r.documents.has (Address.ofText url).text = false
  needed : Along Entry.IsNeeded es r

namespace IsThrifty

variable {es es' : List Entry} {r : Registry}

lemma of_urls_nil (h : ∀ e ∈ es, e.urls = []) : IsThrifty es r := by
  have hasked : asked es = [] := List.flatMap_eq_nil_iff.2 h
  refine ⟨hasked ▸ List.nodup_nil, fun url hurl => ?_, along_of_forall (fun e he r' url hurl => ?_) r⟩
  · rw [hasked] at hurl
    cases hurl
  · rw [h e he] at hurl
    cases hurl

lemma of_ask {urls : List String} (hurls : urls.Nodup) (h : (Entry.ask urls).IsNeeded r) : IsThrifty [.ask urls] r := by
  have hasked : asked [.ask urls] = urls := List.append_nil urls
  refine ⟨?_, fun url hurl => ?_, h, trivial⟩
  · rw [hasked]
    exact hurls
  · rw [hasked] at hurl
    exact h.not_filed hurl

/-- After all that was asked for is filed, one may go on asking. -/
lemma append (h : IsThrifty es r) (h' : IsThrifty es' (replay es r))
    (hfiled : asked es' ≠ [] → ∀ url ∈ asked es, (replay es r).documents.has (Address.ofText url).text = true) :
    IsThrifty (es ++ es') r := by
  refine ⟨?_, fun url hurl => ?_, along_append.2 ⟨h.needed, h'.needed⟩⟩
  · rw [asked_append]
    refine List.nodup_append.2 ⟨h.nodup, h'.nodup, fun url hurl url' hurl' => ?_⟩
    rintro rfl
    have hhas := hfiled (List.ne_nil_of_mem hurl') url hurl
    rw [h'.fresh url hurl'] at hhas
    cases hhas
  · rw [asked_append] at hurl
    rcases List.mem_append.1 hurl with hurl | hurl
    · exact h.fresh url hurl
    · -- what the later entries find missing was missing before
      by_contra hhas
      have hlater : (replay es r).documents.has (Address.ofText url).text = true :=
        documents_replay ((Bool.not_eq_false _).mp hhas)
      rw [h'.fresh url hurl] at hlater
      cases hlater

end IsThrifty

namespace Recorded

/-- What a round asks for, and what it files if it misses nothing. -/
lemma turn_thrifty (fetcher : Fetcher) (round : ℕ) (r : Registry) :
    IsThrifty ((turn fetcher round r.pending).log r) r.bare ∧
      Yields (turn fetcher round r.pending).act r
        (fun out r' => out.1 = [] →
          ∀ url ∈ asked ((turn fetcher round r.pending).log r), r'.documents.has (Address.ofText url).text = true)
        fun _ _ => True := by
  set told : Registry := { r with notices := .roundBegun (round + 1) r.pending.length :: r.notices } with htold
  set urls := Resolution.wanted told [] r.pending with hurls
  have htell : (tell (.roundBegun (round + 1) r.pending.length)).act r = .ok () told := rfl
  have hopens : Opens (if fetcher.isSome then [.ask urls] else []) (turn fetcher round r.pending) r := by
    refine Opens.after htell rfl ((Opens.fetchAll fetcher r.pending told).bind fun _ => ?_)
    exact IsSilent.bind (IsSilent.targets _) fun _ => IsSilent.of_pure
  have hfirst : IsThrifty (if fetcher.isSome then [.ask urls] else []) r.bare := by
    split_ifs
    · refine IsThrifty.of_ask (Resolution.wanted_nodup List.nodup_nil _ _) fun url hurl => ?_
      exact (Resolution.mem_wanted hurl).resolve_left List.not_mem_nil
    · exact IsThrifty.of_urls_nil fun _ h => absurd h List.not_mem_nil
  obtain ⟨rest, hlog, hrest⟩ := hopens
  have hasked : ∀ url ∈ asked ((turn fetcher round r.pending).log r), url ∈ urls := by
    intro url hurl
    rw [hlog, asked_append, show asked rest = [] from List.flatMap_eq_nil_iff.2 hrest, List.append_nil] at hurl
    split_ifs at hurl
    · simpa [Entry.urls, asked] using hurl
    · cases hurl
  refine ⟨?_, Yields.bind (Yields.of_ok htell (Yields.bind ?_))⟩
  · rw [hlog]
    refine hfirst.append (IsThrifty.of_urls_nil hrest) fun hne => ?_
    exact absurd (List.flatMap_eq_nil_iff.2 hrest) hne
  · refine (fetchAll_filed fetcher r.pending told).mono (fun unfetched r₁ h₁ => Yields.bind ?_) fun _ _ h => h
    refine Yields.of_outcome (fun left r₂ hrun => Yields.of_pure fun hnil url hurl => ?_) fun _ _ _ => trivial
    exact documents_kept hrun (h₁ hnil url (hasked url hurl))

/-- **Rounds ask with thrift.** -/
theorem rounds_thrifty (fetcher : Fetcher) (limit round resolved : ℕ) (r : Registry) :
    IsThrifty ((rounds fetcher limit round resolved).log r) r.bare := by
  induction limit generalizing round resolved r with
  | zero =>
    refine IsThrifty.of_urls_nil (IsSilent.bind (IsSilent.of_log fun _ => rfl) (fun r' => ?_) r)
    split_ifs
    · exact IsSilent.of_pure
    · exact IsSilent.of_log fun _ => rfl
  | succ limit ih =>
    rw [rounds, log_bind_of_ok (x := get) rfl]
    dsimp only
    change IsThrifty (Recorded.log _ r) _
    split_ifs with hp
    · exact IsThrifty.of_urls_nil (IsSilent.of_pure r)
    · obtain ⟨hturn, hfiled⟩ := turn_thrifty fetcher round r
      cases hrun : (turn fetcher round r.pending).act r with
      | error f r' =>
        rw [log_bind_of_error hrun]
        exact hturn
      | ok out r' =>
        obtain ⟨unfetched, left⟩ := out
        rw [log_bind_of_ok hrun]
        have hreplay := explains_of_ok hrun
        dsimp only
        split_ifs with hdone
        · -- all that the turn asked for is filed now, so that no later round needs it
          refine hturn.append (hreplay ▸ ih _ _ r') fun _ url hurl => ?_
          rw [← hreplay]
          exact hfiled.good_of_ok hrun hdone.1 url hurl
        · refine hturn.append (IsThrifty.of_urls_nil fun _ h => absurd h List.not_mem_nil) fun h => absurd rfl h
        · refine hturn.append (IsThrifty.of_urls_nil fun _ h => absurd h List.not_mem_nil) fun h => absurd rfl h

end Recorded

lemma Use.isThrifty_entries (u : Use) (r : Registry) : IsThrifty (u.entries r) r.bare := by
  cases u with
  | register s => exact IsThrifty.of_urls_nil (IsSilent.register s r)
  | addSchema s =>
    refine IsThrifty.of_urls_nil fun e he => ?_
    rw [List.mem_singleton.1 he]
    rfl
  | addReference a =>
    refine IsThrifty.of_urls_nil fun e he => ?_
    rw [List.mem_singleton.1 he]
    rfl
  | resolve fetcher limit =>
    have hlog : (Use.resolve fetcher limit).entries r = (Recorded.rounds fetcher (limit r) 0 0).log r := by
      unfold Use.entries Use.recorded
      rw [Recorded.log_bind_of_ok (x := Recorded.get) rfl]
      cases hrun : (Recorded.rounds fetcher (limit r) 0 0).act r with
      | ok n r' => exact (Recorded.log_bind_of_ok hrun).trans (List.append_nil _)
      | error f r' => exact Recorded.log_bind_of_error hrun
    rw [hlog]
    exact Recorded.rounds_thrifty fetcher (limit r) 0 0 r

/-- **Documents are fetched at most once.** After any uses of a registry, of which any may have failed, a further use asks
for no document twice, and for none that an earlier use has fetched and registered. Whenever it asks for documents, it does
so before anything else in the round, and each of them is the document of a pending address that can be fetched, where
neither the address nor the document is registered. -/
theorem fetches_once (earlier : List Use) (u : Use) :
    let r := Use.leftAll earlier .empty
    let now := u.entries r
    (u.left r).asked = (asked now).reverse ++ r.asked ∧
    (asked now).Nodup ∧
    (∀ url ∈ asked now, url ∉ filed (Use.entriesAll earlier .empty)) ∧
    ∀ front urls back, now = front ++ .ask urls :: back → ∀ url ∈ urls, ∃ key ∈ (replay front r.bare).pending,
      (Address.ofText key).isFetchable = true ∧ (Address.ofText key).location = url ∧
      (replay front r.bare).schemas.has key = false ∧
      (replay front r.bare).schemas.has (Address.ofText key).document = false := by
  intro r now
  have hthrifty : IsThrifty now r.bare := u.isThrifty_entries r
  refine ⟨?_, hthrifty.nodup, fun url hurl hfiled => ?_, fun front urls back hnow url hurl => ?_⟩
  · have hleft : (u.left r).bare.asked = _ := congrArg Registry.asked (u.bare_left r)
    exact hleft.trans (asked_replay _ _)
  · have hhas := documents_of_filed hfiled Registry.empty.bare
    rw [← Use.bare_leftAll, hthrifty.fresh url hurl] at hhas
    cases hhas
  · have hneeded : (Entry.ask urls).IsNeeded (replay front r.bare) := (hnow ▸ hthrifty.needed).at_entry
    obtain ⟨key, hkey, hneeds, hlocation⟩ := hneeded url hurl
    simp only [Resolution.needsFetch, Bool.and_eq_true, Bool.not_eq_true'] at hneeds
    exact ⟨key, hkey, hneeds.2, hlocation, hneeds.1.1.1, hneeds.1.1.2⟩

/-- Resolution with a fetcher that brings a document with an id of its own, so that it is registered elsewhere. -/
def resolveMoved : Use :=
  .resolve (some fun _ => ⟨[], .ok (Node.ofJson (.obj [("id", .str "http://h/e"), ("a", .obj [])]))⟩)
    Resolution.roundLimit

/-- A reference into the document is resolved, then there is another one. -/
def movedUses : List Use := [.register farReference, resolveMoved, .addReference (.ofText "http://h/d#/b")]

theorem fetches_once_movedUses :
    let r := Use.leftAll movedUses .empty
    r.asked = ["http://h/d"] ∧ r.pending = ["http://h/d#/b"] ∧ r.schemas.has "http://h/d#" = false ∧
      "http://h/d" ∉ asked (resolveMoved.entries r) := by
  have hasked : (Use.leftAll movedUses .empty).asked = ["http://h/d"] := by decide +kernel
  have hpending : (Use.leftAll movedUses .empty).pending = ["http://h/d#/b"] := by decide +kernel
  have hschemas : (Use.leftAll movedUses .empty).schemas.has "http://h/d#" = false := by decide +kernel
  have hfiled : filed (Use.entriesAll movedUses .empty) = ["http://h/d"] := by decide +kernel
  obtain ⟨-, -, honce, -⟩ := fetches_once movedUses resolveMoved
  refine ⟨hasked, hpending, hschemas, fun hmem => honce _ hmem ?_⟩
  rw [hfiled]
  exact List.mem_cons_self

end Typings
