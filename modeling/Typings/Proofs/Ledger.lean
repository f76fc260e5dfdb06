import Typings.Proofs.Upkeep

/-!
The ledger of a registry. What lasts of the work on a registry are five kinds of changes (`Entry`): a schema is put under its
address, an address is noted as referenced, documents are asked for, a fetched document is filed, a reference gets its
target. A recorded action (`Recorded`) is an action together with the entries that it makes from each registry, and with the
proof that they explain the registry it leaves, also where it fails. Main statements:

* `Recorded.rounds_act`: the recorded rounds are the rounds of resolution;
* `Use.bare_leftAll`: after any uses of a registry, the ledger explains what is in it.
-/

namespace Typings

open Discovery (Found walk)

/-- A change of a registry that lasts. -/
inductive Entry where
  /-- A schema is put under its address. -/
  | put (s : Schema Node)
  /-- An address is noted as referenced. -/
  | note (a : Address)
  /-- Documents are asked for. -/
  | ask (urls : List String)
  /-- A fetched document is filed. -/
  | file (url : String) (s : Schema Node)
  /-- A reference gets its target. -/
  | settle (key : String) (s : Schema Node)

namespace Entry

/-- The registry with an entry made in it. -/
def enter : Entry → Registry → Registry
  | put s, r => { r with schemas := r.schemas.set s.address.text s }
  | note a, r => if r.references.has a.text then r else { r with references := r.references.set a.text none }
  | ask urls, r => { r with asked := urls.reverse ++ r.asked }
  | file url s, r => { r with documents := r.documents.set (Address.ofText url).text s }
  | settle key s, r => { r with references := r.references.set key (some s) }

/-- The entry for a report of a walk. -/
def ofFound : Found → Entry
  | .schema s _ => put s
  | .reference a => note a

end Entry

/-- The registry with the entries of a ledger made in it, in order. -/
def replay (es : List Entry) (r : Registry) : Registry := es.foldl (fun r e => e.enter r) r

/-- A registry without what no entry speaks of. -/
def Registry.bare (r : Registry) : Registry := { r with refs := [], next := 0, notices := [] }

@[simp] lemma replay_nil (r : Registry) : replay [] r = r := rfl

@[simp] lemma replay_cons (e : Entry) (es : List Entry) (r : Registry) : replay (e :: es) r = replay es (e.enter r) := rfl

lemma replay_append (es es' : List Entry) (r : Registry) : replay (es ++ es') r = replay es' (replay es r) :=
  List.foldl_append ..

lemma Entry.bare_enter (e : Entry) (r : Registry) : (e.enter r).bare = e.enter r.bare := by
  cases e with
  | note a =>
    by_cases h : r.references.has a.text = true
    · have hbare : r.bare.references.has a.text = true := h
      simp only [enter, if_pos h, if_pos hbare]
    · have hbare : ¬ r.bare.references.has a.text = true := h
      simp only [enter, if_neg h, if_neg hbare]
      rfl
  | _ => rfl

/-! ### Recorded actions -/

variable {α β : Type}

/-- **An action with its ledger**: the entries that it makes from each registry, which explain the registry it leaves. -/
structure Recorded (α : Type) where
  /-- The action. -/
  act : Action α
  /-- Its entries, in order. -/
  log : Registry → List Entry
  explains : ∀ r, (final act r).bare = replay (log r) r.bare

namespace Recorded

/-- An action without entries. -/
def quiet (x : Action α) (h : ∀ r, Yields x r (fun _ r' => r'.bare = r.bare) fun _ r' => r'.bare = r.bare) : Recorded α :=
  ⟨x, fun _ => [], fun r => final_of_yields (P := fun r' : Registry => r'.bare = r.bare) (h r)⟩

/-- One entry. -/
def enter (e : Entry) : Recorded Unit := ⟨modify e.enter, fun _ => [e], e.bare_enter⟩

/-- One recorded action after another: if the first fails, its entries are all. -/
def andThen (x : Recorded α) (f : α → Recorded β) : Recorded β where
  act := x.act >>= fun a => (f a).act
  log r := x.log r ++ match x.act r with
    | .ok a r' => (f a).log r'
    | .error _ _ => []
  explains r := by
    have hx := x.explains r
    cases h : x.act r with
    | ok a r' =>
      rw [final_of_ok h] at hx
      rw [final_bind_of_ok h, (f a).explains, hx, replay_append]
    | error e r' =>
      rw [final_of_error h] at hx
      rw [final_of_error (bind_of_error h), hx, List.append_nil]

instance : Monad Recorded where
  pure a := quiet (pure a) fun _ => Yields.of_pure rfl
  bind := andThen

@[simp] lemma act_bind (x : Recorded α) (f : α → Recorded β) : (x >>= f).act = x.act >>= fun a => (f a).act := rfl

lemma log_bind_of_ok {x : Recorded α} {f : α → Recorded β} {r r' : Registry} {a : α} (h : x.act r = .ok a r') :
    (x >>= f).log r = x.log r ++ (f a).log r' := by
  change x.log r ++ _ = _
  rw [h]

lemma log_bind_of_error {x : Recorded α} {f : α → Recorded β} {r r' : Registry} {e : Failure} (h : x.act r = .error e r') :
    (x >>= f).log r = x.log r := by
  change x.log r ++ _ = _
  rw [h, List.append_nil]

lemma explains_of_ok {x : Recorded α} {r r' : Registry} {a : α} (h : x.act r = .ok a r') :
    r'.bare = replay (x.log r) r.bare := by
  rw [← final_of_ok h]
  exact x.explains r

/-! ### The actions on a registry -/

/-- The registry as it is. -/
def get : Recorded Registry := quiet MonadState.get fun _ => Yields.of_get rfl

/-- A failure. -/
def fail (f : Failure) : Recorded α := quiet (throw f) fun _ => Yields.of_throw rfl

/-- Tell something. -/
def tell (n : Notice) : Recorded Unit := quiet (Action.tell n) fun _ => Yields.of_modify rfl

/-- The value of a computation that may fail. -/
def lift (e : Except Failure α) : Recorded α :=
  quiet (Action.lift e) fun r => by
    cases e with
    | ok a => exact Yields.of_pure rfl
    | error f => exact Yields.of_throw rfl

lemma openDocument_bare (document : Node) (url : Option String) (r : Registry) :
    Yields (Action.openDocument document url) r (fun _ r' => r'.bare = r.bare) fun _ r' => r'.bare = r.bare := by
  refine Yields.bind (Yields.of_modifyGet (Yields.bind ?_))
  cases Document.toSchema (document.shift r.next) url with
  | ok s => exact Yields.of_pure (Yields.bind (Yields.of_modify (Yields.of_pure rfl)))
  | error f => exact Yields.of_throw rfl

/-- Take a document in and recognise it. -/
def openDocument (document : Node) (url : Option String) : Recorded (Schema Node) :=
  quiet (Action.openDocument document url) (openDocument_bare document url)

/-- Put a schema under its address. -/
def addSchema (s : Schema Node) : Recorded Unit where
  act := Action.addSchema s
  log _ := [.put s]
  explains r := by
    obtain ⟨⟨⟩, r', hrun, notices, rfl⟩ := (Action.addSchema_yields s r).exists_ok
    rw [final_of_ok hrun]
    rfl

lemma takeUp_bare (found : List Found) (r : Registry) :
    Yields (Action.takeUp found) r (fun _ r' => r'.bare = replay (found.map .ofFound) r.bare) fun _ _ => False := by
  induction found generalizing r with
  | nil => exact Yields.of_pure rfl
  | cons f found ih =>
    cases f with
    | schema s refs =>
      refine Yields.bind ((Action.addSchema_yields s r).mono ?_ fun _ _ h => h)
      rintro ⟨⟩ _ ⟨notices, rfl⟩
      exact ih _
    | reference a =>
      refine Yields.bind (Yields.of_modify ((ih _).mono (fun _ r' h => ?_) fun _ _ h => h))
      rw [h]
      exact congrArg _ ((Entry.note a).bare_enter r)

/-- Register a schema and everything that a walk through it reports. -/
def register (s : Schema Node) : Recorded Unit where
  act := Action.register s
  log r := .put s :: (walk s r.refs r.next).found.map .ofFound
  explains r := by
    refine final_of_yields (P := fun r' : Registry => r'.bare = _) ?_
    refine Yields.bind (Yields.of_modify (Yields.bind ((Action.addSchema_yields s _).mono ?_ fun _ _ h => h.elim)))
    rintro ⟨⟩ _ ⟨notices, rfl⟩
    refine Yields.bind (Yields.of_get (Yields.bind ((takeUp_bare _ _).mono ?_ fun _ _ h => h.elim)))
    rintro ⟨⟩ r' h
    refine Yields.bind (Yields.of_modify ?_)
    dsimp only
    split
    · exact Yields.of_throw h
    · exact Yields.of_pure h

/-- An action whose failures about schemas are kept as values. -/
def attempt (x : Recorded α) : Recorded (Except Failure α) where
  act r := match x.act r with
    | .ok a r' => .ok (.ok a) r'
    | .error f r' => if f.isSchemaFailure then .ok (.error f) r' else .error f r'
  log := x.log
  explains r := by
    rw [← x.explains r]
    unfold final
    dsimp only
    cases x.act r with
    | ok a r' => rfl
    | error f r' => cases hf : f.isSchemaFailure <;> simp [hf]

/-! ### Resolution -/

/-- Take in what fetching a document brought. -/
def receive (url : String) : Except String Node → Recorded (List String)
  | .error words => pure ["Fail to fetch the $ref target document " ++ url ++ ": " ++ words]
  | .ok document => do
    tell (.fetched url)
    let schema ← openDocument document (some url)
    register schema
    enter (.file url schema)
    return []

/-- Take in several documents. -/
def receiveAll : List (String × Except String Node) → Recorded (List String)
  | [] => pure []
  | (url, result) :: rest => do
    let first ← receive url result
    let others ← receiveAll rest
    return first ++ others

/-- Ask for documents. -/
def ask (fetch : String → Fetched) (urls : List String) : Recorded Unit where
  act := modify fun r =>
    { r with
      asked := urls.reverse ++ r.asked
      notices := (urls.flatMap fun url => (fetch url).notices).reverse ++ r.notices }
  log _ := [.ask urls]
  explains _ := rfl

/-- Fetch the documents that pending addresses need. -/
def fetchAll (fetcher : Fetcher) (pending : List String) : Recorded (List String) := do
  let urls := Resolution.wanted (← get) [] pending
  match fetcher with
  | none => return urls.map fun url => url ++ "#: no document loader configured"
  | some fetch =>
    ask fetch urls
    receiveAll (urls.map fun url => (url, (fetch url).result))

/-- The target of an address. -/
def target (key : Address) : Recorded (Schema Node) := do
  let r ← get
  match r.schemas.get? key.text with
  | some s => return s
  | none =>
    let (parent, pointer) ← lift (Resolution.holder r key)
    if pointer = "" then return parent
    else
      let s ← lift (Schema.extract r.refs parent ("#" ++ pointer) (some key))
      register s
      return s

/-- Settle one pending address, or keep the failure. -/
def settle (key : String) : Recorded (Option Failure) := do
  match ← attempt (target (Address.ofText key)) with
  | .ok s =>
    enter (.settle key s)
    return none
  | .error f => return some f

/-- Look for the targets of the pending addresses. -/
def targets : List String → Recorded Resolution.Leftover
  | [] => pure ⟨[], []⟩
  | key :: rest => do
    let failed ← settle key
    let left ← targets rest
    return match failed with
      | none => left
      | some f => ⟨key :: left.keys, f.message :: left.reasons⟩

/-- One round. -/
def turn (fetcher : Fetcher) (round : ℕ) (pending : List String) : Recorded (List String × Resolution.Leftover) := do
  tell (.roundBegun (round + 1) pending.length)
  let unfetched ← fetchAll fetcher pending
  let left ← targets pending
  return (unfetched, left)

/-- Resolve in at most `limit` rounds. -/
def rounds (fetcher : Fetcher) : (limit round resolved : ℕ) → Recorded ℕ
  | 0, _, resolved => do if (← get).pending = [] then return resolved else fail .endless
  | limit + 1, round, resolved => do
    let pending := (← get).pending
    if pending = [] then return resolved
    else
      let (unfetched, left) ← turn fetcher round pending
      if unfetched = [] ∧ left.keys = [] then rounds fetcher limit (round + 1) (resolved + pending.length)
      else
        let named := if left.keys = [] then pending else left.keys
        fail (.reference (", ".intercalate named) (.leftOver (unfetched ++ left.reasons)))

lemma receive_act (url : String) (result : Except String Node) : (receive url result).act = Resolution.receive url result := by
  cases result <;> rfl

lemma receiveAll_act (results : List (String × Except String Node)) :
    (receiveAll results).act = Resolution.receiveAll results := by
  induction results with
  | nil => rfl
  | cons e results ih =>
    obtain ⟨url, result⟩ := e
    rw [receiveAll, Resolution.receiveAll, act_bind, receive_act]
    refine bind_congr fun first => ?_
    rw [act_bind, ih]
    rfl

lemma fetchAll_act (fetcher : Fetcher) (pending : List String) :
    (fetchAll fetcher pending).act = Resolution.fetchAll fetcher pending := by
  cases fetcher with
  | none => rfl
  | some fetch =>
    rw [fetchAll, Resolution.fetchAll, act_bind]
    refine bind_congr fun r => ?_
    rw [act_bind, receiveAll_act]
    rfl

lemma target_act (key : Address) : (target key).act = Resolution.target key := by
  rw [target, Resolution.target, act_bind]
  refine bind_congr fun r => ?_
  cases r.schemas.get? key.text with
  | some s => rfl
  | none =>
    dsimp only
    rw [act_bind]
    refine bind_congr fun e => ?_
    by_cases h : e.2 = ""
    · simp only [if_pos h]
      rfl
    · simp only [if_neg h]
      rfl

lemma settle_act (key : String) (r : Registry) :
    (settle key).act r = match Resolution.target (Address.ofText key) r with
      | .ok s r' => .ok none { r' with references := r'.references.set key (some s) }
      | .error f r' => if f.isSchemaFailure then .ok (some f) r' else .error f r' := by
  rw [← target_act]
  cases h : (target (Address.ofText key)).act r with
  | ok s r' =>
    have hattempt : (attempt (target (Address.ofText key))).act r = .ok (.ok s) r' := by simp [attempt, h]
    rw [settle, act_bind, bind_of_ok hattempt]
    rfl
  | error f r' =>
    by_cases hf : f.isSchemaFailure = true
    · have hattempt : (attempt (target (Address.ofText key))).act r = .ok (.error f) r' := by simp [attempt, h, hf]
      rw [settle, act_bind, bind_of_ok hattempt]
      simp only [if_pos hf]
      rfl
    · have hattempt : (attempt (target (Address.ofText key))).act r = .error f r' := by simp [attempt, h, hf]
      rw [settle, act_bind, bind_of_error hattempt]
      simp only [if_neg hf]

lemma targets_act (keys : List String) : (targets keys).act = Resolution.targets keys := by
  induction keys with
  | nil => rfl
  | cons key keys ih =>
    rw [targets, Resolution.targets, act_bind, funext (settle_act key)]
    refine bind_congr fun failed => ?_
    rw [act_bind, ih]
    rfl

lemma turn_act (fetcher : Fetcher) (round : ℕ) (pending : List String) :
    (turn fetcher round pending).act = (do
      Action.tell (.roundBegun (round + 1) pending.length)
      let unfetched ← Resolution.fetchAll fetcher pending
      let left ← Resolution.targets pending
      return (unfetched, left)) := by
  rw [turn, act_bind]
  refine bind_congr fun _ => ?_
  rw [act_bind, fetchAll_act]
  refine bind_congr fun unfetched => ?_
  rw [act_bind, targets_act]
  rfl

/-- **The recorded rounds are the rounds of resolution.** -/
theorem rounds_act (fetcher : Fetcher) (limit round resolved : ℕ) :
    (rounds fetcher limit round resolved).act = Resolution.rounds fetcher limit round resolved := by
  induction limit generalizing round resolved with
  | zero =>
    rw [rounds, Resolution.rounds, act_bind]
    refine bind_congr fun r => ?_
    split_ifs <;> rfl
  | succ limit ih =>
    rw [rounds, Resolution.rounds, act_bind]
    refine bind_congr fun r => ?_
    by_cases hp : r.pending = []
    · simp only [if_pos hp]
      rfl
    · simp only [if_neg hp, act_bind, turn_act, bind_assoc, pure_bind]
      refine bind_congr fun _ => bind_congr fun unfetched => bind_congr fun left => ?_
      by_cases h : unfetched = [] ∧ left.keys = []
      · simp only [if_pos h, ih]
      · simp only [if_neg h]
        rfl

end Recorded

/-! ### Conditions on entries -/

/-- Each entry of a ledger is made in a registry with which it has `P`. -/
def Along (P : Entry → Registry → Prop) : List Entry → Registry → Prop
  | [], _ => True
  | e :: es, r => P e r ∧ Along P es (e.enter r)

section Along

variable {P : Entry → Registry → Prop}

lemma along_append {es es' : List Entry} {r : Registry} :
    Along P (es ++ es') r ↔ Along P es r ∧ Along P es' (replay es r) := by
  induction es generalizing r with
  | nil => exact (and_iff_right trivial).symm
  | cons e es ih => exact (and_congr_right' ih).trans and_assoc.symm

lemma along_of_forall {es : List Entry} (h : ∀ e ∈ es, ∀ r, P e r) (r : Registry) : Along P es r := by
  induction es generalizing r with
  | nil => trivial
  | cons e es ih => exact ⟨h e List.mem_cons_self r, ih (fun e' he' => h e' (List.mem_cons_of_mem _ he')) _⟩

/-- The condition at an entry in the midst of a ledger. -/
lemma Along.at_entry {front back : List Entry} {e : Entry} {r : Registry} (h : Along P (front ++ e :: back) r) :
    P e (replay front r) := (along_append.1 h).2.1

end Along

/-- A recorded action whose entries have `P`; `good` is what it ends with if it ends well. -/
def Obeys (P : Entry → Registry → Prop) (x : Recorded α) (r : Registry) (good : α → Registry → Prop) : Prop :=
  Along P (x.log r) r.bare ∧ Yields x.act r good fun _ _ => True

namespace Obeys

variable {P : Entry → Registry → Prop} {x : Recorded α} {f : α → Recorded β} {r : Registry} {a : α}
  {good good' : α → Registry → Prop}

lemma mono (h : Obeys P x r good) (hg : ∀ a r', good a r' → good' a r') : Obeys P x r good' :=
  ⟨h.1, h.2.mono hg fun _ _ h => h⟩

/-- One recorded action, then what follows it. -/
lemma bind {good : β → Registry → Prop} (h : Obeys P x r fun a r' => Obeys P (f a) r' good) : Obeys P (x >>= f) r good := by
  refine ⟨?_, Yields.bind (h.2.mono (fun a r' ha => ha.2) fun _ _ h => h)⟩
  cases hx : x.act r with
  | ok a r' =>
    have hrest := (h.2.good_of_ok hx).1
    rw [Recorded.explains_of_ok hx] at hrest
    rw [Recorded.log_bind_of_ok hx]
    exact along_append.2 ⟨h.1, hrest⟩
  | error e r' =>
    rw [Recorded.log_bind_of_error hx]
    exact h.1

lemma of_pure (h : good a r) : Obeys P (pure a) r good := ⟨trivial, h⟩

lemma of_fail {e : Failure} : Obeys P (Recorded.fail e) r good := ⟨trivial, trivial⟩

lemma of_get {good : Registry → Registry → Prop} (h : good r r) : Obeys P Recorded.get r good := ⟨trivial, h⟩

lemma of_lift {e : Except Failure α} (h : ∀ a, e = .ok a → good a r) : Obeys P (Recorded.lift e) r good := by
  refine ⟨trivial, ?_⟩
  cases e with
  | ok a => exact Yields.of_pure (h a rfl)
  | error f => exact Yields.of_throw trivial

lemma of_tell {good : Unit → Registry → Prop} {n : Notice} (h : good () { r with notices := n :: r.notices }) :
    Obeys P (Recorded.tell n) r good := ⟨trivial, h⟩

lemma of_enter {good : Unit → Registry → Prop} {e : Entry} (he : P e r.bare) (h : good () (e.enter r)) :
    Obeys P (Recorded.enter e) r good := ⟨⟨he, trivial⟩, h⟩

lemma of_attempt (h : Obeys P x r good) : Obeys P (Recorded.attempt x) r fun e r' => ∀ a, e = .ok a → good a r' := by
  refine ⟨h.1, Yields.of_outcome (fun e r' hrun a ha => ?_) fun _ _ _ => trivial⟩
  subst ha
  simp only [Recorded.attempt] at hrun
  split at hrun
  · next b r₁ hx =>
    cases hrun
    exact h.2.good_of_ok hx
  · split_ifs at hrun
    cases hrun

end Obeys

/-! ### Uses of a registry -/

/-- How a registry may be used. Resolution is given up after so many rounds as `limit` says of the registry at hand. -/
inductive Use where
  /-- Register a schema and everything inside it. -/
  | register (s : Schema Node)
  /-- Put a schema under its address. -/
  | addSchema (s : Schema Node)
  /-- Note a referenced address. -/
  | addReference (a : Address)
  /-- Resolve all references. -/
  | resolve (fetcher : Fetcher) (limit : Registry → ℕ)

namespace Use

/-- What a use does. -/
def action : Use → Action Unit
  | register s => Action.register s
  | addSchema s => Action.addSchema s
  | addReference a => Action.addReference a
  | resolve fetcher limit => do let _ ← Resolution.rounds fetcher (limit (← get)) 0 0

/-- A use with its ledger. -/
def recorded : Use → Recorded Unit
  | register s => Recorded.register s
  | addSchema s => Recorded.addSchema s
  | addReference a => Recorded.enter (.note a)
  | resolve fetcher limit => do let _ ← Recorded.rounds fetcher (limit (← Recorded.get)) 0 0

lemma recorded_act (u : Use) : u.recorded.act = u.action := by
  cases u with
  | resolve fetcher limit =>
    rw [recorded, action, Recorded.act_bind]
    refine bind_congr fun r => ?_
    rw [Recorded.act_bind, Recorded.rounds_act]
    rfl
  | _ => rfl

/-- The registry that a use leaves, whether it ends well or fails. -/
def left (u : Use) (r : Registry) : Registry := final u.action r

/-- The entries that a use makes. -/
def entries (u : Use) (r : Registry) : List Entry := u.recorded.log r

/-- The registry that several uses leave. -/
def leftAll : List Use → Registry → Registry
  | [], r => r
  | u :: uses, r => leftAll uses (u.left r)

/-- The entries that several uses make. -/
def entriesAll : List Use → Registry → List Entry
  | [], _ => []
  | u :: uses, r => u.entries r ++ entriesAll uses (u.left r)

lemma bare_left (u : Use) (r : Registry) : (u.left r).bare = replay (u.entries r) r.bare := by
  rw [left, ← recorded_act]
  exact u.recorded.explains r

/-- **The ledger explains the registry**, whatever was done to it and whatever failed. -/
theorem bare_leftAll (uses : List Use) (r : Registry) : (leftAll uses r).bare = replay (entriesAll uses r) r.bare := by
  induction uses generalizing r with
  | nil => rfl
  | cons u uses ih => rw [leftAll, entriesAll, replay_append, ← bare_left, ih]

end Use

end Typings
