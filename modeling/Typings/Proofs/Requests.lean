import Typings.Proofs.Distinct
import Typings.Proofs.Marks

/-!
The requests of operations. A request is an object of references: one to the schema of each group of parameters, and one to a
body. Its content is made anew, with marks that nothing else has, so that its references are read once, when it is registered,
and then stay as they are. Main statements:

* `walk_request`: a walk through a request reads each of its references and writes nothing else;
* `addRequest_written`: the request that is registered, and that it is the same in any later registry that has left the texts
  at its marks alone.
-/

namespace Typings.Operation

open Discovery (Found Trail Visit children enter canonize run walk rootScope)

/-! ### The content of a request -/

/-- An object that is a reference. -/
def reference (mark : ℕ) (text : String) : Node := .obj mark [("$ref", .atom (mark + 1) (.str text))]

/-- Properties that are references, with marks from `n` on. -/
def references : ℕ → List (String × String) → Table String Node
  | _, [] => []
  | n, e :: rest => (e.1, reference n e.2) :: references (n + 2) rest

lemma labelFields_references (n : ℕ) (properties : List (String × String)) :
    Node.labelFields n (properties.map fun e => (e.1, .obj [("$ref", .str e.2)])) =
      (references n properties, n + 2 * properties.length) := by
  induction properties generalizing n with
  | nil => rfl
  | cons e properties ih =>
    rw [List.map_cons, Node.labelFields]
    have hlabel : Node.label n (.obj [("$ref", .str e.2)]) = (reference n e.2, n + 2) := rfl
    rw [hlabel]
    dsimp only
    rw [ih, List.length_cons, references]
    refine Prod.ext rfl ?_
    dsimp only
    omega

lemma read_labelStrings (refs : Refs) (n : ℕ) (names : List String) :
    Node.readItems refs (Node.labelItems n (names.map .str)).1 = names.map .str := by
  induction names generalizing n with
  | nil => rfl
  | cons name names ih =>
    rw [List.map_cons, Node.labelItems, Node.label]
    dsimp only
    rw [Node.readItems, ih]
    rfl

/-- The content of a request that is marked from `n` on. -/
lemma label_request (n : ℕ) (request : Request) : ∃ items,
    (Node.label n request.toJson).1 = .obj n [("type", .atom (n + 1) (.str "object")),
      ("properties", .obj (n + 2) (references (n + 3) request.properties)),
      ("required", .arr (n + 3 + 2 * request.properties.length) items)] ∧
    ∀ refs, Node.readItems refs items = request.required.map .str := by
  have hfields := labelFields_references (n + 3) request.properties
  refine ⟨(Node.labelItems (n + 3 + 2 * request.properties.length + 1) (request.required.map .str)).1, ?_,
    fun refs => read_labelStrings refs _ _⟩
  simp only [Request.toJson, Node.label, Node.labelFields]
  rw [hfields]

/-- References that have been read inside a scope, with marks from `n` on. -/
def AreRead (scope : List String) (refs : Refs) : ℕ → List (String × String) → Prop
  | _, [] => True
  | n, e :: rest => (∃ a, Address.within e.2 scope = .ok a ∧ refs.get? n = some a.text) ∧ AreRead scope refs (n + 2) rest

lemma AreRead.congr {scope : List String} {refs refs' : Refs} {n : ℕ} {properties : List (String × String)}
    (h : AreRead scope refs n properties) (hsame : ∀ m, n ≤ m → m < n + 2 * properties.length → refs'.get? m = refs.get? m) :
    AreRead scope refs' n properties := by
  induction properties generalizing n with
  | nil => trivial
  | cons e properties ih =>
    obtain ⟨⟨a, ha, htext⟩, hrest⟩ := h
    rw [List.length_cons] at hsame
    refine ⟨⟨a, ha, ?_⟩, ih hrest fun m hm hm' => hsame m (by omega) (by omega)⟩
    rw [hsame n le_rfl (by omega)]
    exact htext

/-- The value of references that have been read. -/
lemma AreRead.read {scope : List String} {refs : Refs} {n : ℕ} {properties : List (String × String)}
    (h : AreRead scope refs n properties) (m : ℕ) : ∃ addresses : List Address,
      List.Forall₂ (fun e a => Address.within e.2 scope = .ok a) properties addresses ∧
      Node.readFields refs m (references n properties) =
        List.zipWith (fun e a => (e.1, .obj [("$ref", .str a.text)])) properties addresses := by
  induction properties generalizing n with
  | nil => exact ⟨[], .nil, rfl⟩
  | cons e properties ih =>
    obtain ⟨⟨a, ha, htext⟩, hrest⟩ := h
    obtain ⟨addresses, hwithin, hread⟩ := ih hrest
    refine ⟨a :: addresses, .cons ha hwithin, ?_⟩
    have hone : (Node.current refs m e.1 (reference n e.2)).read refs = .obj [("$ref", .str a.text)] := by
      rcases Node.current_cases refs m e.1 (reference n e.2) with hsame | ⟨k, text, -, hatom, -⟩
      · rw [hsame, reference, Node.read, Node.readFields, Node.readFields, htext]
        rfl
      · cases hatom
    rw [Node.readFields_eq] at hread ⊢
    rw [references, List.map_cons, hread, List.zipWith_cons_cons, hone]

/-! ### Walks through a request -/

lemma children_reference (dialect : Dialect) (openapi : Option OpenApi) (mark : ℕ) (text : String) :
    children dialect openapi (reference mark text) = [] := by
  cases dialect <;> rcases openapi with _ | (_ | _) <;> rfl

lemma children_request (dialect : Dialect) (openapi : Option OpenApi) (n m : ℕ) (items : List Node)
    (properties : Table String Node) :
    children dialect openapi (.obj n [("type", .atom (n + 1) (.str "object")), ("properties", .obj (n + 2) properties),
      ("required", .arr m items)]) = properties.values := by
  cases dialect <;> rcases openapi with _ | (_ | _) <;> exact List.append_nil _

lemma canonize_reference {node : Node} {scope : List String} {t : Trail} {text : String}
    (h : node.reference? t.refs = some text) :
    Yields (canonize node scope) t
      (fun _ t' => ∃ a, Address.within text scope = .ok a ∧ t' = ⟨t.refs.set node.mark a.text, .reference a :: t.found⟩)
      fun _ _ => True := by
  refine Yields.bind (Yields.of_get ?_)
  rw [h]
  refine Yields.bind ?_
  cases ha : Address.within text scope with
  | error f => exact Yields.of_throw trivial
  | ok a => exact Yields.of_pure (Yields.bind (Yields.of_modify (Yields.of_modify ⟨a, rfl, rfl⟩)))

/-- **Visits to references** with new marks read each of them, and change nothing at other marks. -/
lemma run_references (s : Schema Node) (scope : List String) (n : ℕ) (properties : List (String × String)) (t : Trail)
    (ht : ∀ m, n ≤ m → t.refs.get? m = none) :
    Yields (run s ((references n properties).values.map (Visit.mk · scope false))) t
      (fun _ t' => (∀ m, m < n → t'.refs.get? m = t.refs.get? m) ∧ AreRead scope t'.refs n properties ∧
        ∀ s' refs', Found.schema s' refs' ∈ t'.found → Found.schema s' refs' ∈ t.found)
      fun _ _ => True := by
  induction properties generalizing n t with
  | nil =>
    rw [references, Table.values, List.map_nil, List.map_nil, run]
    exact Yields.of_pure ⟨fun _ _ => rfl, trivial, fun _ _ h => h⟩
  | cons e properties ih =>
    have hid : (reference n e.2).declaredId s.dialect = none := by cases s.dialect <;> rfl
    have henter : enter s ⟨reference n e.2, scope, false⟩ = pure scope := by
      unfold enter
      rw [hid]
    have href : (reference n e.2).reference? t.refs = some e.2 := by
      simp [Node.reference?, Node.get?, reference, Table.get?, Node.current, Node.str?, ht n le_rfl]
    have hobj : (reference n e.2).isObject = true := rfl
    rw [references, Table.values, List.map_cons, List.map_cons, run]
    dsimp only
    rw [if_pos hobj, henter, pure_bind]
    refine Yields.bind ((canonize_reference href).mono ?_ fun _ _ h => h)
    rintro ⟨⟩ _ ⟨a, ha, rfl⟩
    rw [children_reference, List.map_nil, List.nil_append]
    refine (ih (n + 2) _ fun m hm => ?_).mono ?_ fun _ _ h => h
    · exact (Table.get?_set_of_ne (show n ≠ m by omega)).trans (ht m (by omega))
    · rintro ⟨⟩ t' ⟨hframe, hread, hfound⟩
      refine ⟨fun m hm => ?_, ⟨⟨a, ha, ?_⟩, hread⟩, fun s' refs' hs' => ?_⟩
      · rw [hframe m (by omega)]
        exact Table.get?_set_of_ne (show n ≠ m by omega)
      · rw [hframe n (by omega)]
        exact Table.get?_set_self _ _ _
      · simpa using hfound s' refs' hs'

/-- **A walk through a request** with new marks that comes to its end. -/
lemma walk_request {w : Schema Node} {n m : ℕ} {items : List Node} {properties : List (String × String)}
    (hw : w.content = .obj n [("type", .atom (n + 1) (.str "object")),
      ("properties", .obj (n + 2) (references (n + 3) properties)), ("required", .arr m items)])
    {refs : Refs} (hrefs : ∀ m, n ≤ m → refs.get? m = none) {next : ℕ} (hend : (walk w refs next).failure = none) :
    (∀ m, m < n → (walk w refs next).refs.get? m = refs.get? m) ∧
      AreRead (rootScope w) (walk w refs next).refs (n + 3) properties ∧
      ∀ s' refs', Found.schema s' refs' ∉ (walk w refs next).found := by
  have hobj : w.content.isObject = true := by rw [hw]; rfl
  have hcanonize : canonize w.content (rootScope w) ⟨refs, []⟩ = .ok () ⟨refs, []⟩ := by rw [hw]; rfl
  have hcopies : (if w.openapi = some .v3 then Discovery.operationCopies refs next w.content else .ok ([], next)) =
      .ok ([], next) := by
    rw [hw]
    split_ifs <;> rfl
  have hchildren : children w.dialect w.openapi w.content = (references (n + 3) properties).values := by
    rw [hw]
    exact children_request _ _ _ _ _ _
  have hrun := run_references w (rootScope w) (n + 3) properties ⟨refs, []⟩ fun m hm => hrefs m (by omega)
  rw [← hchildren] at hrun
  unfold walk at hend ⊢
  simp only [hobj, Bool.not_true, Bool.false_eq_true, if_false, EStateM.run, hcanonize, hcopies, List.map_nil, List.nil_append]
    at hend ⊢
  split at hend
  · cases hend
  · next t' ht' =>
    obtain ⟨hframe, hread, hfound⟩ := hrun.good_of_ok ht'
    exact ⟨fun m hm => hframe m (by omega), hread, fun s' refs' hs' =>
      absurd (hfound s' refs' (List.mem_reverse.1 hs')) List.not_mem_nil⟩

/-- A registration that ends well has come to the end of its walk. -/
lemma register_ends (s : Schema Node) (r : Registry) :
    Yields (Action.register s) r (fun _ _ => (walk s r.refs r.next).failure = none) fun _ _ => True := by
  unfold Action.register
  refine Yields.bind (Yields.of_modify (Yields.bind ((Action.addSchema_yields s _).mono ?_ fun _ _ _ => trivial)))
  rintro ⟨⟩ _ ⟨notices, rfl⟩
  refine Yields.bind (Yields.of_get (Yields.skip fun _ r₂ => Yields.bind (Yields.of_modify ?_)))
  dsimp only
  split
  · exact Yields.of_throw trivial
  · next hend => exact Yields.of_pure hend

/-! ### Requests -/

/-- The schema of a part of an operation. -/
def partOf (s : Schema Node) (p : Part) (content : Node) : Schema Node :=
  { s with address := addressOf s p, content, ancestors := s.ancestors ++ [s.address], operation := false }

/-- An operation that lies in one document, as do the schemas around it. -/
def LiesIn (s : Schema Node) (home : String) : Prop :=
  Address.IsHome home ∧ ∀ text ∈ s.scope, ∃ tokens, text = Address.locator home tokens

/-- **What a reference of a request means**: the text that was put there is read inside the request. It means the address that
was put there if that is absolute, or if the operation lies in one document. -/
def IsMeant (s w : Schema Node) (own target : Address) : Prop :=
  Address.within own.text (rootScope w) = .ok target ∧ ((∃ home, LiesIn s home) ∨ Address.IsAbsolute own.text → target = own)

/-- **A request of an operation**, as it stands in a registry: an object of references, in order. -/
structure IsRequest (s : Schema Node) (r : Registry) (media : Option String) (properties : List (String × Address))
    (required : List String) (w : Schema Node) : Prop where
  address : w.address = addressOf s (.request media)
  content : ∃ targets, List.Forall₂ (fun e target => IsMeant s w e.2 target) properties targets ∧
    w.content.read r.refs = Request.toJson ⟨List.zipWith (fun e target => (e.1, target.text)) properties targets, required⟩

/-- Addresses of one document are read as they are. -/
lemma within_liesIn {s : Schema Node} {home : String} (h : LiesIn s home) {p q : Part} (hp : p.IsPlain) (hq : q.IsPlain)
    (content : Node) : Address.within (addressOf s p).text (rootScope (partOf s q content)) = .ok (addressOf s p) := by
  obtain ⟨hhome, hscope⟩ := h
  have hground : Address.IsGround home := ⟨hhome.hash, hhome.isRooted []⟩
  obtain ⟨tokens, htokens⟩ := hscope s.address.text (by simp [Schema.scope])
  have haddress : ∀ {p : Part}, p.IsPlain → addressOf s p = ⟨Address.locator home (tokens ++ p.tokens)⟩ :=
    fun hp => Document.addressOf_eq hground (congrArg Address.mk htokens) hp
  have hroot : Address.IsScope home (rootScope (partOf s q content)) := by
    intro text htext
    obtain ⟨hmem, hne⟩ := List.mem_filter.1 htext
    refine ⟨by simpa using hne, ?_⟩
    obtain ⟨a, ha, rfl⟩ := List.mem_map.1 hmem
    rcases List.mem_append.1 ha with ha | ha
    · exact hscope a.text (List.mem_map_of_mem ha)
    · rw [List.mem_singleton.1 ha]
      exact ⟨_, congrArg Address.text (haddress hq)⟩
  rw [haddress hp]
  rcases hhome with rfl | hweb
  · rw [Address.locator_empty]
    exact (Address.within_local (Or.inl rfl) hroot (Or.inl rfl) _).trans (by rw [Address.locator_empty])
  · exact Address.within_absolute (Or.inr hweb) hroot hweb _

lemma isMeant_of_within {s : Schema Node} {p q : Part} (hp : p.IsPlain) (hq : q.IsPlain) {content : Node} {target : Address}
    (h : Address.within (addressOf s p).text (rootScope (partOf s q content)) = .ok target) :
    IsMeant s (partOf s q content) (addressOf s p) target := by
  refine ⟨h, ?_⟩
  rintro (⟨home, hhome⟩ | habsolute)
  · exact (Except.ok.inj ((within_liesIn hhome hp hq content).symm.trans h)).symm
  · have htext := Address.within_isAbsolute (Address.isCanonical_ofText _) habsolute h
    exact congrArg Address.mk htext

/-- Noting an address changes no schema. -/
lemma addReference_keeps (address : Address) {r : Registry} (hr : r.IsFresh) (a : ℕ) :
    Yields (Action.addReference address) r (fun _ r' => r.Keeps a r') fun _ _ => True := by
  have hkept := KeepsFresh.addReference address r hr le_rfl
  refine ((Action.addReference_yields address r).and hkept).mono ?_ fun _ _ _ => trivial
  rintro ⟨⟩ _ ⟨⟨references, rfl, -, -, htargets⟩, hfresh, -⟩
  exact ⟨⟨le_rfl, fun _ _ _ => rfl⟩, hfresh, fun hbelow s' hs' => hbelow s' (hs'.imp_right (htargets s'))⟩

/-- A part whose content is below `a`. -/
lemma registerPart_keeps (s : Schema Node) {p : Part} {name : String} (hname : name = p.name) {content : Node} {a : ℕ}
    (hcontent : content.bound ≤ a) {r : Registry} (hr : r.IsFresh) (ha : a ≤ r.next) :
    Yields (registerPart s name content) r (fun part r' => part = partOf s p content ∧ r.Keeps a r') fun _ _ => True := by
  subst hname
  refine Yields.bind ((Action.register_entered (partOf s p content) r).mono ?_ fun _ _ _ => trivial)
  intro _ r₁ hentered
  have hkeeps := hentered.keeps hr hcontent ha
  refine Yields.bind ((addReference_keeps _ hkeeps.fresh a).mono ?_ fun _ _ h => h)
  exact fun _ r₂ hkeeps' => Yields.of_pure ⟨rfl, hkeeps.trans hkeeps'⟩

/-- Take the content of a request in and register it. -/
def addRequest (s : Schema Node) (name : String) (request : Request) : Action (Schema Node) := do
  let content ← Action.adopt (Node.ofJson request.toJson)
  registerPart s name content

/-- The texts of addresses. -/
def texts (properties : List (String × Address)) : List (String × String) := properties.map fun e => (e.1, e.2.text)

/-- Properties that refer to parts of an operation. -/
def ReferToParts (s : Schema Node) (properties : List (String × Address)) : Prop :=
  ∀ e ∈ properties, ∃ p : Part, p.IsPlain ∧ e.2 = addressOf s p

/-- References to parts of the operation that have been read. -/
lemma AreRead.isMeant {s : Schema Node} {q : Part} (hq : q.IsPlain) {content : Node} {refs : Refs} {n : ℕ}
    {properties : List (String × Address)} (hparts : ReferToParts s properties)
    (h : AreRead (rootScope (partOf s q content)) refs n (texts properties)) (m : ℕ) : ∃ targets,
      List.Forall₂ (fun e target => IsMeant s (partOf s q content) e.2 target) properties targets ∧
      Node.readFields refs m (references n (texts properties)) =
        (List.zipWith (fun e target => (e.1, target.text)) properties targets).map
          fun e => (e.1, .obj [("$ref", .str e.2)]) := by
  obtain ⟨targets, hwithin, hread⟩ := h.read m
  refine ⟨targets, ?_, ?_⟩
  · rw [texts, List.forall₂_map_left_iff] at hwithin
    refine ((List.forall₂_and_left properties targets).2 ⟨hparts, hwithin⟩).imp ?_
    rintro ⟨name, own⟩ target ⟨⟨p, hp, rfl⟩, htarget⟩
    exact isMeant_of_within hp hq htarget
  · rw [hread, texts, List.zipWith_map_left, List.map_zipWith]

section Written

variable {s w : Schema Node} {request : Request} {n : ℕ}

/-- The content of a request is taken in behind all marks in use. -/
lemma adopt_request (request : Request) (r : Registry) :
    Yields (Action.adopt (Node.ofJson request.toJson)) r
      (fun content r' => content = (Node.label r.next request.toJson).1 ∧ r' = { r with next := content.bound } ∧
        r.next + 3 + 2 * request.properties.length < content.bound)
      fun _ _ => True := by
  have hshift : (Node.ofJson request.toJson).shift r.next = (Node.label r.next request.toJson).1 := by
    rw [Node.ofJson, Node.shift_label, Nat.zero_add]
  have hnext : r.next + (Node.ofJson request.toJson).bound = (Node.label r.next request.toJson).1.bound := by
    rw [Node.ofJson, Node.bound_label, Node.bound_label, Nat.zero_add]
  obtain ⟨items, hcontent, -⟩ := label_request r.next request
  refine Yields.of_modifyGet ⟨hshift, ?_, ?_⟩
  · dsimp only
    rw [hshift, hnext]
  · dsimp only
    rw [hshift]
    have hmember : ("required", Node.arr (r.next + 3 + 2 * request.properties.length) items) ∈
        (Node.label r.next request.toJson).1.fields := by
      rw [hcontent]
      exact List.mem_cons_of_mem _ (List.mem_cons_of_mem _ List.mem_cons_self)
    exact (Node.mark_lt_bound (.arr _ items)).trans_le (Node.bound_le_of_mem_fields hmember)

/-- **A request is registered.** Its references are read, nothing is written at other marks, and it offers no media types. -/
lemma register_request (hw : w.content = (Node.label n request.toJson).1) {r : Registry} (hr : r.IsFresh)
    (hbound : w.content.bound ≤ r.next) (hnew : ∀ m, n ≤ m → r.refs.get? m = none) :
    Yields (Action.register w) r
      (fun _ r' => r'.IsFresh ∧ r.next ≤ r'.next ∧ (∀ m, m < n → r'.refs.get? m = r.refs.get? m) ∧
        AreRead (rootScope w) r'.refs (n + 3) request.properties ∧ ∀ a, r.OffersBelow a → r'.OffersBelow a)
      fun _ _ => True := by
  refine ((Action.register_entered w r).and (register_ends w r)).mono ?_ fun _ _ _ => trivial
  rintro ⟨⟩ r' ⟨hentered, hend⟩
  obtain ⟨items, hcontent, -⟩ := label_request n request
  rw [hcontent] at hw
  obtain ⟨hframe, hread, hfound⟩ := walk_request hw hnew hend
  rw [← hentered.refs] at hframe hread
  have hkept := hentered.keeps hr hbound le_rfl
  refine ⟨hkept.fresh, hkept.next, hframe, hread, fun a hbelow s' hs' x hx => ?_⟩
  rcases hs' with hs' | hs'
  · rcases hentered.schemas s' hs' with rfl | hs' | ⟨refs, hs'⟩
    · rw [hw] at hx
      cases hx
    · exact hbelow s' (Or.inl hs') x hx
    · exact absurd hs' (hfound s' refs)
  · exact hbelow s' (Or.inr (hentered.targets s' hs')) x hx

lemma isRequest_of_areRead {media : Option String} {properties : List (String × Address)} {required : List String}
    (hparts : ReferToParts s properties)
    (hw : w = partOf s (.request media) (Node.label n (Request.toJson ⟨texts properties, required⟩)).1) {r : Registry}
    (hread : AreRead (rootScope w) r.refs (n + 3) (texts properties)) : IsRequest s r media properties required w := by
  have hplain : (Part.request media).IsPlain := trivial
  obtain ⟨items, hcontent, hitems⟩ := label_request n ⟨texts properties, required⟩
  rw [hw] at hread
  obtain ⟨targets, hmeant, hfields⟩ := hread.isMeant hplain hparts (n + 2)
  refine ⟨by rw [hw]; rfl, targets, by rw [hw]; exact hmeant, ?_⟩
  rw [hw]
  show (Node.label n (Request.toJson ⟨texts properties, required⟩)).1.read r.refs = _
  have hcurrent : ∀ key x, key ≠ "$ref" → Node.current r.refs n key x = x := by
    intro key x hkey
    rcases Node.current_cases r.refs n key x with hsame | ⟨_, _, hkey', -⟩
    · exact hsame
    · exact absurd hkey' hkey
  rw [hcontent, Node.read, Node.readFields_eq]
  simp only [List.map_cons, List.map_nil, hcurrent _ _ (show "type" ≠ "$ref" by decide),
    hcurrent _ _ (show "properties" ≠ "$ref" by decide), hcurrent _ _ (show "required" ≠ "$ref" by decide), Node.read, hfields,
    hitems, Request.toJson]
  rfl

end Written

/-- **A request is made.** What it refers to stays as it is as long as texts at marks from `a` on are left alone. -/
lemma addRequest_written (s : Schema Node) {media : Option String} {name : String} (hname : name = (Part.request media).name)
    {properties : List (String × Address)} (hparts : ReferToParts s properties) (required : List String) {a : ℕ} {r : Registry}
    (hr : r.IsFresh) (ha : a ≤ r.next) :
    Yields (addRequest s name ⟨texts properties, required⟩) r
      (fun w r' => r.Keeps a r' ∧ ∀ r'', r'.Spares a r'' → IsRequest s r'' media properties required w) fun _ _ => True := by
  subst hname
  have hadopt := KeepsFresh.adopt (n := r.next) (Node.ofJson (Request.toJson ⟨texts properties, required⟩)) r hr le_rfl
  refine Yields.bind (((adopt_request _ r).and hadopt).mono ?_ fun _ _ _ => trivial)
  rintro content _ ⟨⟨hcontent, rfl, hmarks⟩, hr₁, hnext, -⟩
  have hnew : ∀ m, r.next ≤ m → r.refs.get? m = none := by
    intro m hm
    cases htext : r.refs.get? m with
    | none => rfl
    | some text => exact absurd (hr.refs m text htext) (Nat.not_lt.2 hm)
  have hregister := register_request (w := partOf s (.request media) content) hcontent hr₁ le_rfl hnew
  refine Yields.bind (hregister.mono ?_ fun _ _ h => h)
  rintro ⟨⟩ r₂ ⟨hr₂, hnext₂, hframe, hread, hbelow⟩
  have hkeeps : r.Keeps a r₂ := ⟨⟨hnext.trans hnext₂, fun m _ hm => hframe m hm⟩, hr₂, hbelow a⟩
  refine Yields.bind ((addReference_keeps _ hr₂ a).mono ?_ fun _ _ h => h)
  intro _ r₃ hkeeps'
  refine Yields.of_pure ⟨hkeeps.trans hkeeps', fun r₄ hspares => ?_⟩
  refine isRequest_of_areRead hparts (congrArg (partOf s (.request media)) hcontent) (hread.congr fun m hm hm' => ?_)
  exact (hkeeps'.toSpares.trans hspares).refs m (by omega) ((show m < content.bound by omega).trans_le hnext₂)

end Typings.Operation
