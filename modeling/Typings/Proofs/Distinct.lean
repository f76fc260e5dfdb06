import Typings.Proofs.Operations
import Typings.Proofs.Parts

/-!
No schema of an operation takes the place of another. The parts that one operation is replaced by are told apart by their
tokens, and the places of operations by their first tokens, so all of them together have addresses of their own. Main
statements:

* `Operation.IsReplaced.nodup`: no part comes twice where short names tell the media types of each body and response apart;
* `Document.synthesized_nodup`: in a document whose operations have names of their own, no schema gets the address of another,
  of an operation or of a named schema.
-/

namespace Typings

/-! ### Parts of one operation -/

namespace Operation

lemma mediaSchemas_sublist (media : Table String Node) : ((mediaSchemas media).map (·.1)).Sublist media.keys := by
  unfold mediaSchemas
  induction media with
  | nil => exact List.Sublist.slnil
  | cons e media ih =>
    rw [List.filterMap_cons]
    split
    · exact ih.cons e.1
    · next e' he' =>
      have hkey : e'.1 = e.1 := by
        split at he'
        · split_ifs at he'
          cases he'
          rfl
        · cases he'
      rw [List.map_cons, hkey]
      exact ih.cons_cons e.1

lemma length_mediaNames_le (media : Table String Node) : (mediaNames media).length ≤ media.length := by
  have hlength := (mediaSchemas_sublist media).length_le
  rw [List.length_map, Table.keys, List.length_map] at hlength
  rwa [mediaNames, shortNames, List.length_map]

lemma mediaNames_nodup {media : Table String Node} (h : (media.keys.map mediaName).Nodup) : (mediaNames media).Nodup := by
  by_cases hone : media.length = 1
  · have hlength := length_mediaNames_le media
    rw [hone] at hlength
    rcases hnames : mediaNames media with _ | ⟨name, _ | ⟨name', names⟩⟩
    · exact List.nodup_nil
    · exact List.nodup_singleton name
    · rw [hnames] at hlength
      simp at hlength
  · have hnames : mediaNames media = ((mediaSchemas media).map (·.1)).map mediaName := by
      simp [mediaNames, shortNames, hone]
    rw [hnames]
    exact h.sublist ((mediaSchemas_sublist media).map mediaName)

lemma bodyParts_nodup {isOnly : Bool} {names : List String} (h : names.Nodup) (honly : isOnly = true → names.length ≤ 1) :
    (bodyParts isOnly names).Nodup := by
  cases isOnly with
  | true =>
    have hlength := honly rfl
    rcases names with _ | ⟨name, _ | ⟨name', names⟩⟩
    · exact List.nodup_nil
    · simp [bodyParts]
    · simp at hlength
  | false =>
    refine List.nodup_flatMap.2 ⟨fun name _ => by simp, h.imp fun {a b} hne => ?_⟩
    intro p hp hp'
    simp only [Bool.false_eq_true, if_false, List.mem_cons, List.not_mem_nil, or_false] at hp hp'
    rcases hp with rfl | rfl
    · simp [hne] at hp'
    · simp [hne] at hp'

lemma bodyPartsOf_nodup {media : Table String Node} (h : (media.keys.map mediaName).Nodup) : (bodyPartsOf media).Nodup := by
  refine bodyParts_nodup (mediaNames_nodup h) fun honly => ?_
  have hlength := length_mediaNames_le media
  rwa [of_decide_eq_true honly] at hlength

lemma responsesParts_nodup {responses : List (String × Table String Node)} (hstatus : (responses.map (·.1)).Nodup)
    (hmedia : ∀ e ∈ responses, (e.2.keys.map mediaName).Nodup) : (responsesParts responses).Nodup := by
  refine List.nodup_flatMap.2 ⟨fun e he => ?_, (List.pairwise_map.1 hstatus).imp fun {a b} hne => ?_⟩
  · exact (mediaNames_nodup (hmedia e he)).map fun _ _ hname => (Part.response.inj hname).1
  · intro p hp hp'
    obtain ⟨name, -, rfl⟩ := List.mem_map.1 hp
    obtain ⟨name', -, heq⟩ := List.mem_map.1 hp'
    exact hne (Part.response.inj heq).2.symm

/-- The parts about the request are bodies and requests. -/
lemma mem_requestParts {media : Table String Node} {plain : List Part} {p : Part}
    (hplain : plain = [] ∨ bodyPartsOf media = [] ∧ plain = [.request none]) (h : p ∈ bodyPartsOf media ++ plain) :
    (∃ name, p = .body name) ∨ ∃ name, p = .request name := by
  rcases List.mem_append.1 h with h | h
  · obtain ⟨name, -, h⟩ := List.mem_flatMap.1 h
    rcases List.mem_pair.1 h with rfl | rfl
    · exact Or.inl ⟨_, rfl⟩
    · exact Or.inr ⟨_, rfl⟩
  · rcases hplain with rfl | ⟨-, rfl⟩
    · cases h
    · exact Or.inr ⟨none, List.mem_singleton.1 h⟩

lemma mem_responsesParts {responses : List (String × Table String Node)} {p : Part} (h : p ∈ responsesParts responses) :
    ∃ e ∈ responses, ∃ name ∈ mediaNames e.2, p = .response name e.1 := by
  obtain ⟨e, he, h⟩ := List.mem_flatMap.1 h
  obtain ⟨name, hname, rfl⟩ := List.mem_map.1 h
  exact ⟨e, he, name, hname, rfl⟩

section Met

variable {operation : Schema Node} {responses : List (String × Node)} {r : Registry}

lemma map_responsesMet : (responsesMet operation responses r).map (·.1) = responses.map (·.1) := by
  induction responses generalizing r with
  | nil => rfl
  | cons e responses ih => rw [responsesMet, List.map_cons, List.map_cons, ih]

lemma mem_responsesMet {e : String × Table String Node} (h : e ∈ responsesMet operation responses r) :
    ∃ r' node, (e.1, node) ∈ responses ∧ e.2 = mediaOf r' node := by
  induction responses generalizing r with
  | nil => cases h
  | cons e' responses ih =>
    rcases List.mem_cons.1 h with rfl | h
    · exact ⟨r, e'.2, List.mem_cons_self, rfl⟩
    · obtain ⟨r', node, hmem, hmedia⟩ := ih h
      exact ⟨r', node, List.mem_cons_of_mem _ hmem, hmedia⟩

lemma mediaOf_of_not_isObject {node : Node} (h : node.isObject = false) : mediaOf r node = [] := by
  rcases node with ⟨m, a⟩ | ⟨m, xs⟩ | ⟨m, fs⟩
  · rfl
  · rfl
  · cases h

end Met

namespace IsReplaced

variable {operation : Schema Node} {r : Registry} {parts : List Part}

/-- **No part comes twice** where short names tell the media types of each body and response apart. -/
theorem nodup (h : IsReplaced operation r parts)
    (hmedia : ∀ media ∈ mediaMet operation r, (media.keys.map mediaName).Nodup)
    (hstatus : (responsesOf operation).keys.Nodup) : parts.Nodup := by
  obtain ⟨used, plain, hused, hplain, rfl⟩ := h
  have hgroups : (used.map Part.group).Nodup :=
    ((show locations.Nodup by decide).sublist hused).map fun _ _ h => Part.group.inj h
  have hbodies : (bodyPartsOf (bodyMedia operation (final (opening operation) r)) ++ plain).Nodup := by
    rcases hplain with rfl | ⟨hnil, rfl⟩
    · rw [List.append_nil]
      exact bodyPartsOf_nodup (hmedia _ List.mem_cons_self)
    · rw [hnil, List.nil_append]
      exact List.nodup_singleton _
  have hresponses : (responsesParts (responsesMet operation (responsesOf operation)
      (final (opening operation >>= requests operation) r))).Nodup :=
    responsesParts_nodup (map_responsesMet ▸ hstatus) fun e he =>
      hmedia _ (List.mem_cons_of_mem _ (List.mem_map_of_mem he))
  -- parts of different kinds are different
  refine List.nodup_append.2 ⟨List.nodup_append.2 ⟨hgroups, hbodies, ?_⟩, hresponses, ?_⟩
  · rintro p hp _ hp' rfl
    obtain ⟨location, -, rfl⟩ := List.mem_map.1 hp
    rcases mem_requestParts hplain hp' with ⟨name, heq⟩ | ⟨name, heq⟩
    · cases heq
    · cases heq
  · rintro p hp _ hp' rfl
    obtain ⟨e, -, name, -, rfl⟩ := mem_responsesParts hp'
    rcases List.mem_append.1 hp with hp | hp
    · obtain ⟨location, -, heq⟩ := List.mem_map.1 hp
      cases heq
    · rcases mem_requestParts hplain hp with ⟨name, heq⟩ | ⟨name, heq⟩
      · cases heq
      · cases heq

/-- The tokens of all parts can be told apart where no object stands under a status with a dollar sign. -/
theorem isPlain (h : IsReplaced operation r parts)
    (hstatus : ∀ e ∈ responsesOf operation, '$' ∈ e.1.toList → e.2.isObject = false) : ∀ p ∈ parts, p.IsPlain := by
  obtain ⟨used, plain, hused, hplain, rfl⟩ := h
  intro p hp
  rcases List.mem_append.1 hp with hp | hp
  · rcases List.mem_append.1 hp with hp | hp
    · obtain ⟨location, hlocation, rfl⟩ := List.mem_map.1 hp
      exact hused.subset hlocation
    · rcases mem_requestParts hplain hp with ⟨name, rfl⟩ | ⟨name, rfl⟩
      · exact trivial
      · exact trivial
  · obtain ⟨e, he, name, hname, rfl⟩ := mem_responsesParts hp
    obtain ⟨r', node, hmem, hmedia⟩ := mem_responsesMet he
    intro hdollar
    rw [hmedia, mediaOf_of_not_isObject (hstatus _ hmem hdollar)] at hname
    cases hname

end IsReplaced

end Operation

/-! ### Parts of all operations -/

namespace Document

open Address (IsGround locator)
open Discovery (walk rootScope)
open Operation (Part synthesize addressOf responsesOf mediaMet mediaName)

variable {document op : Node} {ids : List Assignment} {ground : String} {s : Schema Node}

/-- Statuses without a dollar sign, in all operations. -/
def HasPlainStatuses (document : Node) : Prop :=
  ∀ op ∈ operationNodes document, ∀ status ∈ (entries (member op "responses")).keys, '$' ∉ status.toList

/-- The object of the responses may get an id, which is no response. -/
lemma responsesOf_report (hdocument : IsRegular document) (hstatus : HasPlainStatuses document)
    (hop : op ∈ operationNodes document) (hids : ∀ a ∈ ids, a.key = "$id") (h : IsReport document ids ground op s) :
    (responsesOf s).keys.Nodup ∧ ∀ e ∈ responsesOf s, '$' ∈ e.1.toList → e.2.isObject = false := by
  have hstatus := hstatus op hop
  have hresponses : responsesOf s = (((member op "responses").map (assign ids)).map (·.fields)).getD [] := by
    rw [← h.responses]
    rfl
  rw [hresponses]
  cases hnode : member op "responses" with
  | none => exact ⟨List.nodup_nil, by rintro e ⟨⟩⟩
  | some node =>
    have hpart : node ∈ document.parts := Node.parts_trans (parts_of_operationNodes hop).1 (parts_of_member hnode)
    have hkeys := hdocument.keys node hpart
    rw [hnode, entries] at hstatus
    rcases node with ⟨m, a⟩ | ⟨m, xs⟩ | ⟨m, fs⟩
    · exact ⟨List.nodup_nil, by rintro e ⟨⟩⟩
    · exact ⟨List.nodup_nil, by rintro e ⟨⟩⟩
    · have hsame : Table.keys (assignFields ids fs) = Table.keys fs := by
        rw [assignFields_eq, Table.keys, List.map_map]
        rfl
      have hdollar : ∀ e ∈ assignFields ids fs, '$' ∉ e.1.toList := by
        intro e he
        exact hstatus e.1 (hsame ▸ List.mem_map_of_mem he)
      change (assignTo ids m (assignFields ids fs)).keys.Nodup ∧
        ∀ e ∈ assignTo ids m (assignFields ids fs), '$' ∈ e.1.toList → e.2.isObject = false
      rcases assignTo_cases hids m (assignFields ids fs) with heq | ⟨id, heq, -⟩
      · rw [heq]
        exact ⟨hsame ▸ hkeys, fun e he hmem => absurd hmem (hdollar e he)⟩
      · rw [heq]
        refine ⟨Table.nodup_keys_set (hsame ▸ hkeys) _ _, fun e he hmem => ?_⟩
        rcases Table.mem_set he with rfl | he
        · rfl
        · exact absurd hmem (hdollar e he)

/-- A run that replaces an operation; short names tell the media types of each body and response apart that it meets. -/
def Replaces (s : Schema Node) (made : List (Schema Node)) : Prop :=
  ∃ r r', synthesize s r = .ok made r' ∧ ∀ media ∈ mediaMet s r, (media.keys.map mediaName).Nodup

/-- The address of a part leads from the place of the operation on. -/
lemma addressOf_eq (hground : IsGround ground) {tokens : List String} (hs : s.address = ⟨locator ground tokens⟩) {p : Part}
    (hp : p.IsPlain) : addressOf s p = ⟨locator ground (tokens ++ p.tokens)⟩ := by
  have htext : s.address.text ++ "/" ++ p.name = locator ground (tokens ++ p.tokens) := by
    rw [hs, Address.locator_append, Part.fragment_tokens hp, String.append_assoc]
  rw [addressOf, htext, hground.ofText_locator]

/-- **The places of what an operation is replaced by**, all different. -/
lemma places_of_replaces (hdocument : IsRegular document) (hstatus : HasPlainStatuses document) (hground : IsGround ground)
    (hop : op ∈ operationNodes document) (hids : ∀ a ∈ ids, a.key = "$id") (h : IsReport document ids ground op s)
    {made : List (Schema Node)} (hmade : Replaces s made) : ∃ (tokens : List String) (tails : List (List String)),
      IsNamed document op tokens ∧ ([] :: tails).Nodup ∧ s.address = ⟨locator ground tokens⟩ ∧
      made.map (·.address) = tails.map fun tail => ⟨locator ground (tokens ++ tail)⟩ := by
  obtain ⟨r, r', hrun, hmedia⟩ := hmade
  obtain ⟨tokens, hnamed, haddress⟩ := h.address
  obtain ⟨hkeys, hplain⟩ := responsesOf_report hdocument hstatus hop hids h
  obtain ⟨-, -, parts, hparts, haddresses, -⟩ := Yields.good_of_ok (Operation.synthesize_parts s h.operation r) hrun
  have hplain := hparts.isPlain hplain
  refine ⟨tokens, parts.map Part.tokens, hnamed, List.nodup_cons.2 ⟨?_, ?_⟩, haddress, ?_⟩
  · intro hnil
    obtain ⟨p, -, hp⟩ := List.mem_map.1 hnil
    exact p.tokens_ne_nil hp
  · exact (hparts.nodup hmedia hkeys).map_on fun p hp q hq => Part.tokens_inj (hplain p hp) (hplain q hq)
  · rw [haddresses, List.map_map]
    exact List.map_congr_left fun p hp => addressOf_eq hground haddress (hplain p hp)

/-- What lies under one place does not lie under another. -/
lemma IsNamed.append_inj {op' : Node} {tokens tokens' tail tail' : List String} (h : IsNamed document op tokens)
    (h' : IsNamed document op' tokens') (heq : tokens ++ tail = tokens' ++ tail') : tokens = tokens' ∧ tail = tail' := by
  rcases h with ⟨id, -, rfl⟩ | ⟨name, node, -, -, rfl⟩
  · rcases h' with ⟨id', -, rfl⟩ | ⟨name, node, -, -, rfl⟩
    · simpa using heq
    · simp at heq
  · rcases h' with ⟨id', -, rfl⟩ | ⟨name', node', -, -, rfl⟩
    · simp at heq
    · simpa using heq

/-- What lies under the place of an operation is not the place of a named schema. -/
lemma IsNamed.append_ne {tokens tail : List String} (h : IsNamed document op tokens) (htail : tail ≠ []) (name : String) :
    tokens ++ tail ≠ ["components", "schemas", name] := by
  intro heq
  rcases h with ⟨id, -, rfl⟩ | ⟨name', node, -, -, rfl⟩
  · simp at heq
  · simp [htail] at heq

/-- Addresses under the place of one operation, all different. -/
def IsFamily (document : Node) (ground : String) (op : Node) (addresses : List Address) : Prop :=
  ∃ (tokens : List String) (tails : List (List String)), IsNamed document op tokens ∧ tails.Nodup ∧
    addresses = tails.map fun tail => ⟨locator ground (tokens ++ tail)⟩

lemma exists_of_forall₂ {α β : Type} {R : α → β → Prop} {xs : List α} {ys : List β} (h : List.Forall₂ R xs ys) {y : β}
    (hy : y ∈ ys) : ∃ x ∈ xs, R x y := by
  induction h with
  | nil => cases hy
  | @cons x y' xs ys hxy _ ih =>
    rcases List.mem_cons.1 hy with rfl | hy
    · exact ⟨x, List.mem_cons_self, hxy⟩
    · obtain ⟨x', hx', hxy'⟩ := ih hy
      exact ⟨x', List.mem_cons_of_mem _ hx', hxy'⟩

/-- **Families of different operations** have no address in common. -/
lemma families_nodup (hdocument : IsRegular document) {nodes : List Node} {families : List (List Address)}
    (hnodes : ∀ op ∈ nodes, op ∈ operationNodes document) (hdistinct : (nodes.map operationId?).Nodup)
    (h : List.Forall₂ (IsFamily document ground) nodes families) : families.flatten.Nodup := by
  induction h with
  | nil => exact List.nodup_nil
  | @cons op family nodes families hfamily hrest ih =>
    obtain ⟨hop, hnodes⟩ := List.forall_mem_cons.1 hnodes
    rw [List.map_cons, List.nodup_cons] at hdistinct
    obtain ⟨tokens, tails, hnamed, htails, rfl⟩ := hfamily
    refine List.nodup_append.2 ⟨htails.map fun _ _ heq => ?_, ih hnodes hdistinct.2, ?_⟩
    · exact List.append_cancel_left (Address.eq_of_locator heq)
    · rintro a ha _ ha' rfl
      obtain ⟨tail, -, rfl⟩ := List.mem_map.1 ha
      obtain ⟨family', hfamily', ha'⟩ := List.mem_flatten.1 ha'
      obtain ⟨op', hop', tokens', tails', hnamed', -, rfl⟩ := exists_of_forall₂ hrest hfamily'
      obtain ⟨tail', -, heq⟩ := List.mem_map.1 ha'
      obtain ⟨rfl, -⟩ := hnamed'.append_inj hnamed (Address.eq_of_locator heq)
      refine hdistinct.1 (List.mem_map.2 ⟨op', hop', ?_⟩)
      exact hnamed'.operationId_eq hdocument (hnodes op' hop') hop hnamed

/-- The addresses of operations and of what replaces them, operation by operation. -/
def familiesOf (operations : List (Schema Node)) (results : List (List (Schema Node))) : List (List Address) :=
  List.zipWith (fun s made => s.address :: made.map (·.address)) operations results

lemma familiesOf_perm {operations : List (Schema Node)} {results : List (List (Schema Node))}
    (h : operations.length = results.length) :
    (familiesOf operations results).flatten.Perm ((operations ++ results.flatten).map (·.address)) := by
  induction operations generalizing results with
  | nil =>
    obtain rfl := List.length_eq_zero_iff.1 h.symm
    exact List.Perm.refl _
  | cons s operations ih =>
    cases results with
    | nil => cases h
    | cons made results =>
      have hrest := ih (Nat.succ.inj h)
      simp only [familiesOf, List.zipWith_cons_cons, List.flatten_cons, List.cons_append, List.map_cons,
        List.map_append] at hrest ⊢
      refine List.Perm.cons _ ((hrest.append_left _).trans ?_)
      rw [← List.append_assoc, ← List.append_assoc]
      exact List.perm_append_comm.append_right _

/-- The families are those of operations of the document. -/
lemma isFamily_familiesOf (hdocument : IsRegular document) (hstatus : HasPlainStatuses document) (hground : IsGround ground)
    (hids : ∀ a ∈ ids, a.key = "$id") {nodes : List Node} {operations : List (Schema Node)}
    {results : List (List (Schema Node))} (hnodes : ∀ op ∈ nodes, op ∈ operationNodes document)
    (hreports : List.Forall₂ (IsReport document ids ground) nodes operations)
    (hruns : List.Forall₂ Replaces operations results) :
    List.Forall₂ (IsFamily document ground) nodes (familiesOf operations results) := by
  induction hreports generalizing results with
  | nil =>
    cases hruns
    exact .nil
  | cons hreport _ ih =>
    cases hruns with
    | cons hrun hruns =>
      obtain ⟨hop, hnodes⟩ := List.forall_mem_cons.1 hnodes
      obtain ⟨tokens, tails, hnamed, htails, haddress, hmade⟩ :=
        places_of_replaces hdocument hstatus hground hop hids hreport hrun
      refine .cons ⟨tokens, [] :: tails, hnamed, htails, ?_⟩ (ih hnodes hruns)
      dsimp only
      rw [haddress, hmade, List.map_cons, List.append_nil]

/-- **No schema of an operation takes the place of another.** Take a document of version 3 in which a mark stands for one
object and no object has a member twice; operations have names of their own and no ids, and statuses have no dollar sign.
The operations that a walk finds are replaced, whatever is registered then, as long as short names tell the media types of
each body and response apart. Then the addresses of operations and of the schemas that replace them are all different, and
none of these schemas has the address that a named schema is given. They are what is registered. -/
theorem synthesized_nodup {url : Option String} {results : List (List (Schema Node))} (hdocument : IsRegular document)
    (hnames : NamesOperations document) (hstatus : HasPlainStatuses document) (h : toSchema document url = .ok s)
    (hv : s.openapi = some .v3) (refs : Refs) (next : ℕ)
    (hruns : List.Forall₂ Replaces (walk s refs next).operations results) :
    (((walk s refs next).operations ++ results.flatten).map (·.address)).Nodup ∧
      (∀ t ∈ results.flatten, ∀ a ∈ schemaIds .draft07 ["components", "schemas"] (schemasOf document),
        Address.within a.id (rootScope s) ≠ .ok t.address) ∧
      ∀ op ∈ (walk s refs next).operations, ∀ r made r', synthesize op r = .ok made r' →
        r'.registered = r.registered ++ made.map (·.address.text) := by
  obtain ⟨ids, ground, hids, hground, hplace, nodes, hsub, hreports⟩ := operations_found hdocument hnames h hv refs next
  have hnodes : ∀ op ∈ nodes, op ∈ operationNodes document := fun op hop => hsub.subset hop
  refine ⟨?_, ?_, ?_⟩
  · have hfamilies := isFamily_familiesOf hdocument hstatus hground hids hnodes hreports hruns
    refine (familiesOf_perm hruns.length_eq).nodup_iff.1 ?_
    exact families_nodup hdocument hnodes (hnames.distinct.sublist (hsub.map operationId?)) hfamilies
  · intro t ht a ha hwithin
    obtain ⟨made, hmade, ht⟩ := List.mem_flatten.1 ht
    obtain ⟨op, hop, hrun⟩ := exists_of_forall₂ hruns hmade
    obtain ⟨node, hnode, hreport⟩ := exists_of_forall₂ hreports hop
    obtain ⟨tokens, tails, hnamed, htails, -, hmade⟩ :=
      places_of_replaces hdocument hstatus hground (hnodes node hnode) hids hreport hrun
    obtain ⟨tail, htail, haddress⟩ := List.mem_map.1 (hmade ▸ List.mem_map_of_mem ht)
    have hne : tail ≠ [] := fun h => (List.nodup_cons.1 htails).1 (h ▸ htail)
    obtain ⟨⟨name, schema⟩, -, rfl⟩ := List.mem_map.1 ha
    have hcomponent := hplace ["components", "schemas", name] t.address ⟨List.cons_ne_nil _ _, by simp⟩ hwithin
    exact hnamed.append_ne hne name (Address.eq_of_locator (haddress.trans hcomponent))
  · intro op hop r made r' hrun
    obtain ⟨node, -, hreport⟩ := exists_of_forall₂ hreports hop
    obtain ⟨ids', hids', parts, -, hmade⟩ := Yields.good_of_ok (Operation.synthesize_parts op hreport.operation r) hrun
    rw [hids', hmade.registered]

/-! ### An example -/

lemma isRegular_ofJson {v : Json} (h : ∀ x ∈ (Node.ofJson v).parts, x.fields.keys.Nodup) : IsRegular (Node.ofJson v) :=
  ⟨fun _ hx _ hy _ _ hmark => eq_of_mark hx hy hmark, h⟩

/-- Texts of some media types. -/
def texts (media : List String) : Json :=
  .obj [("content", .obj (media.map fun m => (m, .obj [("schema", .obj [("type", .str "string")])])))]

/-- A parameter in the query. -/
def filterParameter : Json := .obj [("name", .str "filter"), ("in", .str "query")]

/-- Two operations; one has the name that the address of the other's request ends in. -/
def orders : Node := Node.ofJson (.obj [
  ("openapi", .str "3.0.0"),
  ("paths", .obj [
    ("/orders", .obj [
      ("get", .obj [
        ("operationId", .str "order/request"),
        ("parameters", .arr [filterParameter]),
        ("responses", .obj [("200", texts ["application/json"])])]),
      ("post", .obj [
        ("operationId", .str "order"),
        ("parameters", .arr [filterParameter]),
        ("requestBody", texts ["application/json"]),
        ("responses", .obj [("200", texts ["application/json", "text/plain"]), ("default", texts ["text/plain"])])])])]),
  ("components", .obj [("schemas", .obj [("order", .obj [("type", .str "object")])])])])

/-- The schemas that replace an operation where nothing is registered. -/
def replacements (op : Schema Node) : List (Schema Node) := (outcome (synthesize op) .empty).toOption.getD []

theorem synthesized_nodup_orders : IsRegular orders ∧ NamesOperations orders ∧ HasPlainStatuses orders ∧
    ∃ s results, toSchema orders none = .ok s ∧ s.openapi = some .v3 ∧
      List.Forall₂ Replaces (walk s [] orders.bound).operations results ∧ results.map List.length = [3, 6] ∧
      (((walk s [] orders.bound).operations ++ results.flatten).map (·.address)).Nodup := by
  have hregular : IsRegular orders := isRegular_ofJson (by decide +kernel)
  have hnoId : ∀ op ∈ operationNodes orders, (member op "$id").all (·.isNull) = true := by decide +kernel
  have hnames : NamesOperations orders := by
    refine ⟨by decide +kernel, by decide +kernel, fun op hop v hv => ?_⟩
    have hnull := hnoId op hop
    rwa [hv] at hnull
  have hstatus : HasPlainStatuses orders := by
    unfold HasPlainStatuses
    decide +kernel
  have hopened : (toSchema orders none).toOption.any (fun s => s.openapi = some .v3 &&
      (walk s [] orders.bound).operations.all (fun op => ends (synthesize op) .empty fun _ _ =>
        (mediaMet op .empty).all fun media => (media.keys.map mediaName).Nodup) &&
      ((walk s [] orders.bound).operations.map replacements).map List.length = [3, 6]) = true := by
    decide +kernel
  obtain ⟨s, hs, hchecks⟩ := (Option.any_eq_true _ _).1 hopened
  simp only [Bool.and_eq_true, decide_eq_true_eq, List.all_eq_true] at hchecks
  obtain ⟨⟨hv, hends⟩, hlengths⟩ := hchecks
  have hs : toSchema orders none = .ok s := by
    cases h : toSchema orders none with
    | error e =>
      rw [h] at hs
      cases hs
    | ok s' =>
      rw [h] at hs
      cases hs
      rfl
  have hruns : List.Forall₂ Replaces (walk s [] orders.bound).operations
      ((walk s [] orders.bound).operations.map replacements) := by
    refine List.forall₂_map_right_iff.2 (List.forall₂_same.2 fun op hop => ?_)
    obtain ⟨made, r', hrun, hmedia⟩ := exists_of_ends (hends op hop)
    rw [replacements, outcome_of_ok hrun]
    exact ⟨.empty, r', hrun, by simpa using hmedia⟩
  exact ⟨hregular, hnames, hstatus, s, _, hs, hv, hruns, hlengths,
    (synthesized_nodup hregular hnames hstatus hs hv [] orders.bound hruns).1⟩

end Document

end Typings
