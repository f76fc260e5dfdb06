import Typings.Proofs.Ground
import Typings.Proofs.Upkeep

/-!
The schemas that operations are replaced by. Each is one of four kinds of parts of its operation (`Part`): the parameters of
a location, the body of a media type, the request with that body, a response of a media type and a status. Its address is
the address of the operation with the tokens of the part behind it. Main statements:

* `Part.tokens_inj`: tokens tell parts apart as long as statuses have no dollar sign;
* `synthesize_parts`: which parts the schemas of an operation are, and that nothing else is registered.
-/

namespace Typings

namespace Operation

/-! ### Parts of operations -/

/-- What the schemas that replace an operation are about. -/
inductive Part where
  /-- The parameters of a location. -/
  | group (location : String)
  /-- The request body of a media type. -/
  | body (media : String)
  /-- The request, for a media type if there are several. -/
  | request (media : Option String)
  /-- The response with a status, for a media type. -/
  | response (media status : String)

namespace Part

/-- The name of a part, as it stands in the address. -/
def name : Part → String
  | group location => location ++ "Parameter"
  | body media => Pointer.encodeToken media ++ "RequestBody"
  | request none => "request"
  | request (some media) => Pointer.encodeToken media ++ "Request"
  | response media status => "responses/" ++ Pointer.encodeToken media ++ "$" ++ Pointer.encodeToken status

/-- The tokens from the operation to a part. -/
def tokens : Part → List String
  | group location => [location ++ "Parameter"]
  | body media => [media ++ "RequestBody"]
  | request none => ["request"]
  | request (some media) => [media ++ "Request"]
  | response media status => ["responses", media ++ "$" ++ status]

/-- Parts that their tokens tell apart: a location is one of those that there are, and a status has no dollar sign. -/
def IsPlain : Part → Prop
  | group location => location ∈ locations
  | response _ status => '$' ∉ status.toList
  | _ => True

end Part

end Operation

namespace Pointer

lemma encodeToken_append (a b : String) : encodeToken (a ++ b) = encodeToken a ++ encodeToken b := by
  rw [← String.toList_inj, String.toList_append]
  simp [encodeToken, escapeChars, Text.Percent.encode_append]

lemma fragment_cons (t : String) (ts : List String) : fragment (t :: ts) = "/" ++ encodeToken t ++ fragment ts := by
  rw [← String.toList_inj]
  simp [toList_fragment, fragmentChars_cons, encodeToken]

end Pointer

namespace Operation.Part

lemma encodeToken_word : ∀ word ∈ locations ++ ["Parameter", "RequestBody", "request", "Request", "responses", "$"],
    Pointer.encodeToken word = word := by decide +kernel

/-- The name of a part is the pointer to it, without the first slash. -/
lemma fragment_tokens {p : Part} (h : p.IsPlain) : Pointer.fragment p.tokens = "/" ++ p.name := by
  have hnil : Pointer.fragment [] = "" := rfl
  cases p with
  | group location =>
    have hlocation : Pointer.encodeToken location = location := encodeToken_word _ (List.mem_append_left _ h)
    rw [tokens, name, Pointer.fragment_cons, Pointer.encodeToken_append, hlocation, encodeToken_word "Parameter" (by simp),
      hnil, String.append_empty]
  | body media =>
    rw [tokens, name, Pointer.fragment_cons, Pointer.encodeToken_append, encodeToken_word "RequestBody" (by simp), hnil,
      String.append_empty]
  | request media =>
    cases media with
    | none => rw [tokens, name, Pointer.fragment_cons, encodeToken_word "request" (by simp), hnil, String.append_empty]
    | some media =>
      rw [tokens, name, Pointer.fragment_cons, Pointer.encodeToken_append, encodeToken_word "Request" (by simp), hnil,
        String.append_empty]
  | response media status =>
    have hslash : "responses/" = "responses" ++ "/" := by decide
    rw [tokens, name, Pointer.fragment_cons, Pointer.fragment_cons, Pointer.encodeToken_append, Pointer.encodeToken_append,
      encodeToken_word "responses" (by simp), encodeToken_word "$" (by simp), hnil, String.append_empty, hslash]
    simp only [String.append_assoc]

lemma tokens_ne_nil (p : Part) : p.tokens ≠ [] := by
  rcases p with _ | _ | (_ | _) | _ <;> exact List.cons_ne_nil _ _

/-- The last character of the first token. -/
def ending : Part → Char
  | group _ => 'r'
  | body _ => 'y'
  | request _ => 't'
  | response _ _ => 's'

lemma ending_eq (p : Part) : p.tokens.head?.bind (·.toList.getLast?) = some p.ending := by
  have hword : ∀ (a : String) {word : String}, word.toList ≠ [] → (a ++ word).toList.getLast? = word.toList.getLast? := by
    intro a word h
    rw [String.toList_append, List.getLast?_append_of_ne_nil _ h]
  rcases p with location | media | (_ | media) | ⟨media, status⟩
  · exact (hword location (by decide)).trans (show "Parameter".toList.getLast? = some 'r' by decide)
  · exact (hword media (by decide)).trans (show "RequestBody".toList.getLast? = some 'y' by decide)
  · exact show "request".toList.getLast? = some 't' by decide
  · exact (hword media (by decide)).trans (show "Request".toList.getLast? = some 't' by decide)
  · exact show "responses".toList.getLast? = some 's' by decide

lemma append_word_inj {a b word : String} (h : a ++ word = b ++ word) : a = b := by
  have hlist := congrArg String.toList h
  rw [String.toList_append, String.toList_append] at hlist
  exact String.toList_inj.1 (List.append_cancel_right hlist)

/-- A request for a media type is not called like the only one. -/
lemma append_request_ne (media : String) : media ++ "Request" ≠ "request" := by
  intro h
  have hlist : media.toList ++ "Request".toList = "request".toList := by
    rw [← String.toList_append, h]
  have hlength := congrArg List.length hlist
  rw [List.length_append, show "Request".toList.length = "request".toList.length by decide, Nat.add_eq_right,
    List.length_eq_zero_iff] at hlength
  rw [hlength, List.nil_append] at hlist
  exact absurd hlist (by decide)

/-- The last dollar sign of a response is the one before its status. -/
lemma response_inj {media media' status status' : String} (hs : '$' ∉ status.toList) (hs' : '$' ∉ status'.toList)
    (h : media ++ "$" ++ status = media' ++ "$" ++ status') : media = media' ∧ status = status' := by
  have hreverse : ∀ m s : String, (m ++ "$" ++ s).toList.reverse = s.toList.reverse ++ '$' :: m.toList.reverse := by
    intro m s
    simp [String.toList_append]
  have hcut := congrArg (fun text : String => Url.cut '$' text.toList.reverse) h
  simp only [hreverse] at hcut
  rw [Url.cut_append (by simpa using hs), Url.cut_append (by simpa using hs')] at hcut
  obtain ⟨hstatus, hmedia⟩ := Prod.mk.inj hcut
  exact ⟨String.toList_inj.1 (List.reverse_inj.1 hmedia), String.toList_inj.1 (List.reverse_inj.1 hstatus)⟩

/-- **Tokens tell parts apart.** -/
theorem tokens_inj {p q : Part} (hp : p.IsPlain) (hq : q.IsPlain) (h : p.tokens = q.tokens) : p = q := by
  have hending : p.ending = q.ending := by
    have hp := ending_eq p
    rw [h, ending_eq q] at hp
    exact (Option.some.inj hp).symm
  cases p with
  | group location =>
    cases q with
    | group location' => rw [append_word_inj (List.cons.inj h).1]
    | _ => simp [ending] at hending
  | body media =>
    cases q with
    | body media' => rw [append_word_inj (List.cons.inj h).1]
    | _ => simp [ending] at hending
  | request media =>
    cases q with
    | request media' =>
      rcases media with _ | media <;> rcases media' with _ | media'
      · rfl
      · exact absurd (List.cons.inj h).1.symm (append_request_ne media')
      · exact absurd (List.cons.inj h).1 (append_request_ne media)
      · rw [append_word_inj (List.cons.inj h).1]
    | _ => simp [ending] at hending
  | response media status =>
    cases q with
    | response media' status' =>
      obtain ⟨rfl, rfl⟩ := response_inj hp hq (List.cons.inj (List.cons.inj h).2).1
      rfl
    | _ => simp [ending] at hending

end Operation.Part

/-! ### Registrations -/

/-- The id that a notice tells of as registered. -/
def Notice.registering? : Notice → Option String
  | registering id => some id
  | _ => none

/-- The ids that were registered, in order: a schema that comes in by itself counts, what is found inside it does not. -/
def Registry.registered (r : Registry) : List String := r.notices.reverse.filterMap Notice.registering?

/-- Nothing is registered. -/
def Discreet {α : Type} (x : Action α) : Prop := ∀ ids, Upholds (fun r => r.registered = ids) x fun _ => True

namespace Discreet

lemma tell {n : Notice} (hn : n.registering? = none) : Discreet (Action.tell n) := by
  intro ids r hr
  refine Yields.of_modify ⟨Eq.trans ?_ hr, trivial⟩
  simp [Registry.registered, hn]

lemma freshMark : Discreet Action.freshMark := fun _ _ hr => Yields.of_modifyGet ⟨hr, trivial⟩

lemma adopt (document : Node) : Discreet (Action.adopt document) := fun _ _ hr => Yields.of_modifyGet ⟨hr, trivial⟩

lemma addReference (a : Address) : Discreet (Action.addReference a) := by
  intro ids r hr
  refine Yields.of_modify ⟨?_, trivial⟩
  split_ifs
  · exact hr
  · exact hr

lemma addSchema (s : Schema Node) : Discreet (Action.addSchema s) := by
  intro ids
  have hput : ∀ key, Upholds (fun r => r.registered = ids)
      (modify fun r => { r with schemas := r.schemas.set key s }) fun _ => True :=
    fun _ _ hr => Yields.of_modify ⟨hr, trivial⟩
  refine Upholds.of_get.bind fun r _ => ?_
  dsimp only
  split
  · split_ifs
    · exact (tell rfl ids).bind fun _ _ => hput _
    · exact hput _
  · exact hput _

lemma takeUp (found : List Discovery.Found) : Discreet (Action.takeUp found) := by
  intro ids
  induction found with
  | nil => exact Upholds.of_pure trivial
  | cons f found ih =>
    cases f with
    | schema s refs => exact (addSchema s ids).bind fun _ _ => ih
    | reference a => exact (addReference a ids).bind fun _ _ => ih

end Discreet

/-- **A registration registers one id**, that of its schema. -/
lemma Action.register_registered (s : Schema Node) (r : Registry) :
    Yields (register s) r (fun _ r' => r'.registered = r.registered ++ [s.address.text]) fun _ _ => True := by
  have htold : Registry.registered { r with notices := .registering s.address.text :: r.notices } =
      r.registered ++ [s.address.text] := by
    simp [Registry.registered, Notice.registering?]
  refine Yields.bind (Yields.of_modify ?_)
  refine Yields.bind ((Discreet.addSchema s _ _ htold).mono ?_ fun _ _ _ => trivial)
  rintro ⟨⟩ r₁ ⟨h₁, -⟩
  refine Yields.bind (Yields.of_get (Yields.bind ((Discreet.takeUp _ _ _ h₁).mono ?_ fun _ _ _ => trivial)))
  rintro ⟨⟩ r₂ ⟨h₂, -⟩
  refine Yields.bind (Yields.of_modify ?_)
  split
  · exact Yields.of_throw trivial
  · exact Yields.of_pure h₂

/-! ### What synthesis makes -/

namespace Operation

/-- The address of a part of an operation. -/
def addressOf (operation : Schema Node) (p : Part) : Address := .ofText (operation.address.text ++ "/" ++ p.name)

/-- The short names of media types, empty for an only one. -/
def shortNames (isOnly : Bool) (media : List (String × Node)) : List String :=
  media.map fun e => if isOnly then "" else mediaName e.1

/-- The parts for request bodies. -/
def bodyParts (isOnly : Bool) (names : List String) : List Part :=
  names.flatMap fun name => [.body name, .request (if isOnly then none else some name)]

/-- The parts for a response. -/
def responseParts (status : String) (names : List String) : List Part := names.map fun name => .response name status

/-- The media types of a request body or a response. -/
def contentOf (body : Node) : Table String Node :=
  match body.fields.get? "content" with
  | some (.obj _ media) => media
  | _ => []

/-- The media types of what a node stands for in a registry. -/
def mediaOf (r : Registry) (node : Node) : Table String Node :=
  match resolved node r with
  | .ok body _ => contentOf body
  | .error _ _ => []

/-- The names of the media types that have a schema. -/
def mediaNames (media : Table String Node) : List String := shortNames (media.length = 1) (mediaSchemas media)

/-- The parts that the media types of a request body make. -/
def bodyPartsOf (media : Table String Node) : List Part := bodyParts (media.length = 1) (mediaNames media)

/-- An action that ends well registers ids, and its value and these have `P`. -/
def Gives {α : Type} (x : Action α) (r : Registry) (P : α → List String → Prop) : Prop :=
  Yields x r (fun a r' => ∃ ids, r'.registered = r.registered ++ ids ∧ P a ids) fun _ _ => True

namespace Gives

variable {α β : Type} {x : Action α} {f : α → Action β} {r : Registry} {P P' : α → List String → Prop}
  {Q : β → List String → Prop}

lemma of_pure {a : α} (h : P a []) : Gives (pure a) r P := Yields.of_pure ⟨[], (List.append_nil _).symm, h⟩

lemma mono (h : Gives x r P) (hP : ∀ a ids, P a ids → P' a ids) : Gives x r P' := by
  refine Yields.mono h ?_ fun _ _ h => h
  rintro a r' ⟨ids, hids, ha⟩
  exact ⟨ids, hids, hP a ids ha⟩

lemma bind_of_run (h : Gives x r P)
    (hf : ∀ a ids r', x r = .ok a r' → P a ids → Gives (f a) r' fun b ids' => Q b (ids ++ ids')) : Gives (x >>= f) r Q := by
  refine Yields.bind (Yields.of_outcome (fun a r' hrun => ?_) fun _ _ _ => trivial)
  obtain ⟨ids, hids, ha⟩ := Yields.good_of_ok h hrun
  refine Yields.mono (hf a ids r' hrun ha) ?_ fun _ _ h => h
  rintro b r'' ⟨ids', hids', hb⟩
  exact ⟨ids ++ ids', by rw [hids', hids, List.append_assoc], hb⟩

lemma bind (h : Gives x r P) (hf : ∀ a ids r', P a ids → Gives (f a) r' fun b ids' => Q b (ids ++ ids')) :
    Gives (x >>= f) r Q :=
  h.bind_of_run fun a ids r' _ => hf a ids r'

lemma after (hx : Discreet x) (hf : ∀ a r', Gives (f a) r' Q) : Gives (x >>= f) r Q := by
  have hgives : Gives x r fun _ ids => ids = [] := by
    refine Yields.mono (hx r.registered r rfl) ?_ fun _ _ _ => trivial
    rintro a r' ⟨hr', -⟩
    exact ⟨[], by rw [hr', List.append_nil], rfl⟩
  refine hgives.bind ?_
  rintro a _ r' rfl
  exact hf a r'

end Gives

section Made

variable (operation : Schema Node)

/-- Schemas that are the given parts of an operation, each of them registered. -/
structure Made (parts : List Part) (made : List (Schema Node)) (ids : List String) : Prop where
  addresses : made.map (·.address) = parts.map (addressOf operation)
  registered : ids = made.map (·.address.text)

variable {operation}

lemma Made.nil : Made operation [] [] [] := ⟨rfl, rfl⟩

lemma Made.append {parts parts' : List Part} {made made' : List (Schema Node)} {ids ids' : List String}
    (h : Made operation parts made ids) (h' : Made operation parts' made' ids') :
    Made operation (parts ++ parts') (made ++ made') (ids ++ ids') := by
  constructor
  · rw [List.map_append, h.addresses, h'.addresses, List.map_append]
  · rw [h.registered, h'.registered, List.map_append]

variable (operation)

lemma mediaSegment_eq (isOnly : Bool) (mediaType : String) :
    mediaSegment isOnly mediaType = Pointer.encodeToken (if isOnly then "" else mediaName mediaType) := by
  cases isOnly with
  | false => rfl
  | true => exact (show "" = Pointer.encodeToken "" by decide +kernel)

lemma name_body (isOnly : Bool) (mediaType : String) :
    mediaSegment isOnly mediaType ++ "RequestBody" = (Part.body (if isOnly then "" else mediaName mediaType)).name := by
  rw [mediaSegment_eq]
  rfl

lemma name_request (isOnly : Bool) (mediaType : String) :
    (if isOnly then "request" else mediaSegment isOnly mediaType ++ "Request") =
      (Part.request (if isOnly then none else some (if isOnly then "" else mediaName mediaType))).name := by
  cases isOnly with
  | true => rfl
  | false =>
    rw [mediaSegment_eq]
    rfl

lemma name_response (isOnly : Bool) (mediaType status : String) :
    "responses/" ++ mediaSegment isOnly mediaType ++ "$" ++ Pointer.encodeToken status =
      (Part.response (if isOnly then "" else mediaName mediaType) status).name := by
  rw [mediaSegment_eq]
  rfl

lemma resolved_discreet (node : Node) : Discreet (resolved node) := fun _ => Upheld.resolved node

lemma registerPart_gives (p : Part) (content : Node) {name : String} (hname : name = p.name) (r : Registry) :
    Gives (registerPart operation name content) r fun s ids => Made operation [p] [s] ids := by
  subst hname
  refine Gives.bind (P := fun _ ids => ids = [(addressOf operation p).text]) ?_ ?_
  · refine Yields.mono (Action.register_registered _ r) ?_ fun _ _ h => h
    exact fun _ r' h => ⟨_, h, rfl⟩
  · rintro ⟨⟩ _ r' rfl
    exact Gives.after (Discreet.addReference _) fun _ _ => Gives.of_pure ⟨rfl, rfl⟩

lemma addGroups_gives (all : List Node) (locations : List String) (draft : Draft) (r : Registry) :
    Gives (addGroups operation all locations draft) r fun draft' ids =>
      ∃ (used : List String) (made : List (Schema Node)), used.Sublist locations ∧ draft'.schemas = draft.schemas ++ made ∧ Made operation (used.map Part.group) made ids := by
  induction locations generalizing draft r with
  | nil =>
    rw [addGroups]
    exact Gives.of_pure ⟨[], [], List.Sublist.slnil, (List.append_nil _).symm, Made.nil⟩
  | cons location locations ih =>
    rw [addGroups]
    dsimp only
    split_ifs
    · refine (ih draft r).mono ?_
      rintro draft' ids ⟨used, made, hsub, hmade⟩
      exact ⟨used, made, hsub.cons location, hmade⟩
    · refine Gives.after (fun _ => Upheld.collect (Discreet.freshMark _) _ _ _) fun _ _ => ?_
      refine Gives.after Discreet.freshMark fun _ _ => Gives.after Discreet.freshMark fun _ _ =>
        Gives.after Discreet.freshMark fun _ _ => ?_
      refine (registerPart_gives operation (.group location) _ rfl _).bind fun s ids r' hs => (ih _ r').mono ?_
      rintro draft' ids' ⟨used, made, hsub, hschemas, hmade⟩
      refine ⟨location :: used, s :: made, hsub.cons_cons location, ?_, hs.append hmade⟩
      rw [hschemas, List.append_assoc]
      rfl

lemma addBodies_gives (isOnly isRequired : Bool) (request : Request) (media : List (String × Node)) (r : Registry) :
    Gives (addBodies operation isOnly isRequired request media) r
      (Made operation (bodyParts isOnly (shortNames isOnly media))) := by
  induction media generalizing r with
  | nil =>
    rw [addBodies]
    exact Gives.of_pure Made.nil
  | cons e media ih =>
    obtain ⟨mediaType, body⟩ := e
    rw [addBodies]
    refine (registerPart_gives operation _ body (name_body isOnly mediaType) r).bind fun bodySchema ids r₁ hb => ?_
    -- what is required does not show in the addresses
    have hrest : ∀ (variant : Request) (r : Registry), Gives (do
        let content ← Action.adopt (Node.ofJson variant.toJson)
        let requestSchema ← registerPart operation
          (if isOnly then "request" else mediaSegment isOnly mediaType ++ "Request") content
        let others ← addBodies operation isOnly isRequired request media
        return bodySchema :: requestSchema :: others) r fun made ids' =>
          Made operation (bodyParts isOnly (shortNames isOnly ((mediaType, body) :: media))) made (ids ++ ids') := by
      intro variant r
      refine Gives.after (Discreet.adopt _) fun content r₂ => ?_
      refine (registerPart_gives operation _ content (name_request isOnly mediaType) r₂).bind fun q ids' r₃ hq => ?_
      refine (ih r₃).bind fun others ids'' r₄ hothers => Gives.of_pure ?_
      rw [List.append_nil]
      exact hb.append (hq.append hothers)
    dsimp only
    split
    · rw [pure_bind]
      exact hrest _ r₁
    · refine Gives.after (fun _ => ?_) fun _ => hrest _
      exact (resolved_discreet body _).bind fun _ _ => Upholds.of_pure trivial

lemma addResponse_gives (status : String) (isOnly : Bool) (media : List (String × Node)) (r : Registry) :
    Gives (addResponse operation status isOnly media) r
      (Made operation (responseParts status (shortNames isOnly media))) := by
  induction media generalizing r with
  | nil =>
    rw [addResponse]
    exact Gives.of_pure Made.nil
  | cons e media ih =>
    obtain ⟨mediaType, schema⟩ := e
    rw [addResponse]
    refine (registerPart_gives operation _ schema (name_response isOnly mediaType status) r).bind fun s ids r₁ hs => ?_
    refine (ih r₁).bind fun others ids' r₂ hothers => Gives.of_pure ?_
    rw [List.append_nil]
    exact hs.append hothers

/-- What a node stands for is found without a change. -/
lemma resolved_yields (node : Node) (r : Registry) :
    Yields (resolved node) r (fun body r' => r' = r ∧ mediaOf r node = contentOf body) fun _ _ => True :=
  Yields.of_outcome (fun body r' h => ⟨(Call.resolved_same node r).good_of_ok h, by rw [mediaOf, h]⟩) fun _ _ _ => trivial

/-- The media types of the request body of an operation. -/
def bodyMedia (r : Registry) : Table String Node :=
  match operation.content.fields.get? "requestBody" with
  | some node => mediaOf r node
  | none => []

lemma requestBodies_gives (request : Request) (r : Registry) :
    Gives (requestBodies operation request) r (Made operation (bodyPartsOf (bodyMedia operation r))) := by
  unfold requestBodies bodyMedia
  cases operation.content.fields.get? "requestBody" with
  | none => exact Gives.of_pure Made.nil
  | some node =>
    refine Yields.bind ((resolved_yields node r).mono ?_ fun _ _ h => h)
    rintro body _ ⟨rfl, hmedia⟩
    simp only [hmedia, contentOf]
    rcases body.fields.get? "content" with _ | ⟨m, a⟩ | ⟨m, xs⟩ | ⟨m, media⟩
    · exact Gives.of_pure Made.nil
    · exact Gives.of_pure Made.nil
    · exact Gives.of_pure Made.nil
    · exact addBodies_gives operation _ _ request (mediaSchemas media) _

/-- The responses of an operation as synthesis comes to them, with their media types. -/
def responsesMet : List (String × Node) → Registry → List (String × Table String Node)
  | [], _ => []
  | e :: rest, r => (e.1, mediaOf r e.2) :: responsesMet rest (final (addResponses operation [e]) r)

/-- The parts of all responses. -/
def responsesParts (responses : List (String × Table String Node)) : List Part :=
  responses.flatMap fun e => responseParts e.1 (mediaNames e.2)

lemma addResponses_cons (e : String × Node) (rest : List (String × Node)) : addResponses operation (e :: rest) = (do
    let first ← addResponses operation [e]
    let others ← addResponses operation rest
    return first ++ others) := by
  obtain ⟨status, node⟩ := e
  simp only [addResponses, bind_assoc]
  refine congrArg _ (funext fun response => ?_)
  split
  · simp
  · simp

lemma addResponses_one (e : String × Node) (r : Registry) :
    Gives (addResponses operation [e]) r (Made operation (responseParts e.1 (mediaNames (mediaOf r e.2)))) := by
  obtain ⟨status, node⟩ := e
  rw [addResponses]
  refine Yields.bind ((resolved_yields node r).mono ?_ fun _ _ h => h)
  rintro body _ ⟨rfl, hmedia⟩
  simp only [addResponses, pure_bind, List.append_nil, bind_pure, hmedia, contentOf]
  rcases body.fields.get? "content" with _ | ⟨m, a⟩ | ⟨m, xs⟩ | ⟨m, media⟩
  · exact Gives.of_pure Made.nil
  · exact Gives.of_pure Made.nil
  · exact Gives.of_pure Made.nil
  · exact addResponse_gives operation status _ (mediaSchemas media) _

lemma addResponses_gives (responses : List (String × Node)) (r : Registry) :
    Gives (addResponses operation responses) r (Made operation (responsesParts (responsesMet operation responses r))) := by
  induction responses generalizing r with
  | nil =>
    rw [addResponses]
    exact Gives.of_pure Made.nil
  | cons e responses ih =>
    rw [addResponses_cons]
    refine (addResponses_one operation e r).bind_of_run fun first ids r₁ hrun hfirst => ?_
    refine (ih r₁).bind fun others ids' r₂ hothers => Gives.of_pure ?_
    -- the others are met in the registry that the first response leaves
    rw [List.append_nil, responsesMet, final_of_ok hrun]
    exact hfirst.append hothers

/-- The first step of synthesis: the parameters. -/
def opening : Action Draft := do
  Action.tell (.synthesizing operation.address.text)
  let all ← parameters operation.content
  addGroups operation all locations ⟨[], ⟨[], []⟩⟩

/-- The second step: the request bodies, or a request without one. -/
def requests (draft : Draft) : Action (List (Schema Node)) := do
  let bodies ← requestBodies operation draft.request
  let plain ← if bodies.isEmpty && !draft.request.properties.isEmpty then do
      let content ← Action.adopt (Node.ofJson draft.request.toJson)
      let r ← registerPart operation "request" content
      pure [r]
    else pure []
  return bodies ++ plain

/-- The responses that an operation names. -/
def responsesOf : Table String Node := ((operation.content.fields.get? "responses").map (·.fields)).getD []

lemma synthesize_eq (h : operation.operation = true) : synthesize operation = (do
    let draft ← opening operation
    let made ← requests operation draft
    let responses ← addResponses operation (responsesOf operation)
    return draft.schemas ++ made ++ responses) := by
  unfold synthesize opening requests
  simp only [h, Bool.not_true, Bool.false_eq_true, if_false, bind_assoc, responsesOf]
  refine bind_congr fun _ => bind_congr fun all => bind_congr fun draft => bind_congr fun bodies => ?_
  split_ifs
  · simp
  · simp

lemma opening_gives (r : Registry) : Gives (opening operation) r fun draft ids =>
    ∃ used : List String, used.Sublist locations ∧ Made operation (used.map Part.group) draft.schemas ids := by
  refine Gives.after (Discreet.tell rfl) fun _ _ => Gives.after (fun _ => Upheld.parameters _) fun all r' => ?_
  refine (addGroups_gives operation all locations _ r').mono ?_
  rintro draft ids ⟨used, made, hsub, hschemas, hmade⟩
  rw [List.nil_append] at hschemas
  exact ⟨used, hsub, hschemas ▸ hmade⟩

/-- There is a request without a body only where there are no bodies. -/
lemma requests_gives (draft : Draft) (r : Registry) :
    Gives (requests operation draft) r fun made ids => ∃ plain,
      (plain = [] ∨ bodyPartsOf (bodyMedia operation r) = [] ∧ plain = [.request none]) ∧
        Made operation (bodyPartsOf (bodyMedia operation r) ++ plain) made ids := by
  refine (requestBodies_gives operation draft.request r).bind fun bodies ids r' hbodies => ?_
  dsimp only
  split_ifs with hplain
  · have hnil : bodies = [] := by
      simp only [Bool.and_eq_true, List.isEmpty_iff] at hplain
      exact hplain.1
    have hparts : bodyPartsOf (bodyMedia operation r) = [] := by
      have haddresses := hbodies.addresses
      rw [hnil] at haddresses
      exact List.map_eq_nil_iff.1 haddresses.symm
    simp only [pure_bind]
    refine Gives.after (Discreet.adopt _) fun content r'' => ?_
    refine (registerPart_gives operation (.request none) content rfl r'').bind fun s ids' r₃ hs => Gives.of_pure ?_
    rw [List.append_nil]
    exact ⟨[.request none], Or.inr ⟨hparts, rfl⟩, hbodies.append hs⟩
  · rw [pure_bind]
    refine Gives.of_pure ⟨[], Or.inl rfl, ?_⟩
    rw [List.append_nil, List.append_nil, List.append_nil]
    exact hbodies

/-- The media types that synthesis meets: those of the request body, and those of each response. -/
def mediaMet (r : Registry) : List (Table String Node) :=
  bodyMedia operation (final (opening operation) r) ::
    (responsesMet operation (responsesOf operation) (final (opening operation >>= requests operation) r)).map (·.2)

/-- **The parts that an operation is replaced by**, from the registry that there is. -/
def IsReplaced (r : Registry) (parts : List Part) : Prop :=
  ∃ (used : List String) (plain : List Part), used.Sublist locations ∧
    (plain = [] ∨ bodyPartsOf (bodyMedia operation (final (opening operation) r)) = [] ∧ plain = [.request none]) ∧
    parts = used.map .group ++ (bodyPartsOf (bodyMedia operation (final (opening operation) r)) ++ plain) ++
      responsesParts (responsesMet operation (responsesOf operation) (final (opening operation >>= requests operation) r))

/-- **An operation is replaced by its parts**, and they are what is registered. -/
theorem synthesize_parts (h : operation.operation = true) (r : Registry) :
    Gives (synthesize operation) r fun made ids =>
      ∃ parts, IsReplaced operation r parts ∧ Made operation parts made ids := by
  rw [synthesize_eq operation h]
  refine (opening_gives operation r).bind_of_run ?_
  rintro draft ids r₁ hopening ⟨used, hused, hgroups⟩
  refine (requests_gives operation draft r₁).bind_of_run ?_
  rintro made ids' r₂ hrequests ⟨plain, hplain, hmade⟩
  refine (addResponses_gives operation (responsesOf operation) r₂).bind fun responses ids'' r₃ hresponses => ?_
  have hfinal₁ : final (opening operation) r = r₁ := final_of_ok hopening
  have hfinal₂ : final (opening operation >>= requests operation) r = r₂ := by
    rw [final_bind_of_ok hopening, final_of_ok hrequests]
  refine Gives.of_pure ⟨_, ⟨used, plain, hused, ?_, rfl⟩, ?_⟩
  · rw [hfinal₁]
    exact hplain
  · rw [hfinal₁, hfinal₂, List.append_nil, ← List.append_assoc ids]
    exact (hgroups.append hmade).append hresponses

end Made

end Operation

end Typings
