import Mathlib
import Typings.Proofs.Qualified
import Typings.Proofs.Writer

/-!
The outline of the text that is generated. The text is a row of passages (`Passage`): declarations, and the lines that open
and close namespaces. How deep a passage is indented and which word stands before a declaration is said by the path of the
node it belongs to (`Passage.text`), not by the state of the writer. Passages are well nested if each stands directly inside
the namespace that its path says (`Passage.follow`). Main statement: `Emission.emit_outline`.
-/

namespace Typings

/-! ### Passages -/

/-- A passage of the text. -/
inductive Passage where
  /-- The declaration at a path. -/
  | declaration (path : List String) (d : Declaration)
  /-- The line that opens the namespace at a path. -/
  | opening (path : List String)
  /-- The line that closes the namespace at a path. -/
  | closing (path : List String)

/-- What begins at a path. -/
inductive Heading where
  /-- A declaration. -/
  | declares (path : List String)
  /-- A namespace. -/
  | opens (path : List String)

/-- What begins at a node: a declaration if something is declared there, and behind it a namespace if there are nodes
inside. -/
def Heading.ofNode {α : Type} (path : List String) (node : Namespace α) : List Heading :=
  (if node.leaf.isSome then [.declares path] else []) ++ if node.children.isEmpty then [] else [.opens path]

namespace Passage

/-- How many namespaces are around what stands at a path. -/
def depth (path : List String) : Nat := path.length - 1

/-- The margin of what stands at a path: one step of indentation for each namespace around it. -/
def margin (indent : String) (path : List String) : String := String.join (List.replicate (depth path) indent)

/-- The name of what stands at a path. -/
def name (path : List String) : String := Name.typeName (path.getLastD "")

/-- The words before the type or the members of a declaration. -/
def header (path : List String) (word : String) : String :=
  (if path.length = 1 then "declare " else "export ") ++ word ++ name path

/-- The text of a passage. -/
def text (indent : String) : Passage → String
  | declaration path d =>
    Writer.written (Writer.comment d.comment) indent (depth path) false ++ (margin indent path ++ match d.body with
      | .typeAlias type => header path "type " ++ " = " ++ Writer.written (type.write true) indent (depth path) true
      | .interface members =>
        header path "interface " ++ " " ++ "\x7b" ++ "\n" ++
          Writer.written (TypeExpr.writeMembers members) indent path.length false ++ margin indent path ++ "\x7d" ++ "\n")
  | opening path =>
    margin indent path ++ (if path.length = 1 then "declare " else "") ++ "namespace " ++ name path ++ " \x7b" ++ "\n"
  | closing path => margin indent path ++ "\x7d" ++ "\n"

/-- The path of the innermost namespace behind a passage, if the passage may stand directly inside the one at `inside`. -/
def follow (inside : List String) : Passage → Option (List String)
  | declaration path _ => if path ≠ [] ∧ path.dropLast = inside then some inside else none
  | opening path => if path ≠ [] ∧ path.dropLast = inside then some path else none
  | closing path => if path ≠ [] ∧ path = inside then some path.dropLast else none

/-- What begins with a passage. -/
def heading? : Passage → Option Heading
  | declaration path _ => some (.declares path)
  | opening path => some (.opens path)
  | closing _ => none

/-- The declaration in a passage, with its path. -/
def declaration? : Passage → Option (List String × Declaration)
  | declaration path d => some (path, d)
  | opening _ | closing _ => none

lemma depth_add_one {path : List String} (hpath : path ≠ []) : depth path + 1 = path.length :=
  Nat.sub_add_cancel (List.length_pos_iff.2 hpath)

lemma depth_concat (outer : List String) (name : String) : depth (outer ++ [name]) = outer.length := by
  simp [depth]

end Passage

/-! ### Writing passages -/

namespace Writer

/-- The writer stands at the beginning of a line inside `depth` namespaces. -/
structure StandsAt (indent : String) (depth : Nat) (w : Writer) : Prop where
  indent : w.indent = indent
  level : w.level = depth
  lineStarted : w.lineStarted = false

variable {indent : String} {depth : Nat} {w : Writer}

lemma standsAt_new (indent : String) : StandsAt indent 0 (new indent) := ⟨rfl, rfl, rfl⟩

lemma StandsAt.margin (h : StandsAt indent depth w) : w.margin = String.join (List.replicate depth indent) := by
  rw [Writer.margin, h.level, h.indent, Int.toNat_natCast]

/-- What is written at the beginning of a line begins with the margin. -/
lemma StandsAt.text_put (h : StandsAt indent depth w) (s : String) :
    (w.put s).text = w.text ++ String.join (List.replicate depth indent) ++ s := by
  rw [Writer.text_put, text_begin, h.lineStarted, h.margin]
  rfl

lemma StandsAt.text_line (h : StandsAt indent depth w) (s : String) :
    (w.line s).text = w.text ++ String.join (List.replicate depth indent) ++ s ++ "\n" := by
  rw [Writer.text_line, h.text_put]

lemma StandsAt.comment (h : StandsAt indent depth w) (lines : List String) : StandsAt indent depth (w.comment lines) where
  indent := by rw [(Acts.comment lines).indent, h.indent]
  level := by rw [(Acts.comment lines).level, h.level]
  lineStarted := by
    unfold Writer.comment
    split_ifs
    · exact h.lineStarted
    · rfl

lemma StandsAt.writeMembers (members : List (Head × TypeExpr)) (h : StandsAt indent depth w) :
    StandsAt indent depth (TypeExpr.writeMembers members w) where
  indent := by rw [(TypeExpr.acts_writeMembers members).indent, h.indent]
  level := by rw [(TypeExpr.acts_writeMembers members).level, h.level]
  lineStarted := by
    induction members generalizing w with
    | nil => exact h.lineStarted
    | cons m members ih =>
      rw [TypeExpr.writeMembers]
      refine ih ⟨?_, ?_, TypeExpr.lineStarted_write _ _⟩
      · rw [(TypeExpr.acts_write true m.2).indent, (TypeExpr.acts_writeHead m.1).indent, h.indent]
      · rw [(TypeExpr.acts_write true m.2).level, (TypeExpr.acts_writeHead m.1).level, h.level]

lemma StandsAt.openInterface (h : StandsAt indent depth w) (name : String) :
    StandsAt indent (depth + 1) (w.openInterface name) where
  indent := by simp [Writer.openInterface, openBraces, deeper, h.indent]
  level := by simp [Writer.openInterface, openBraces, deeper, h.level]
  lineStarted := rfl

lemma StandsAt.higher (h : StandsAt indent (depth + 1) w) : StandsAt indent depth w.higher where
  indent := h.indent
  level := by simp [Writer.higher, h.level]
  lineStarted := h.lineStarted

lemma StandsAt.text_closeInterface (h : StandsAt indent (depth + 1) w) :
    w.closeInterface.text = w.text ++ String.join (List.replicate depth indent) ++ "\x7d" ++ "\n" := by
  show ((w.higher.put "\x7d").line "").text = _
  rw [text_put_line, h.higher.text_put, String.append_empty]
  rfl

/-- Outside of all namespaces stands what has a path of one segment. -/
lemma StandsAt.level_eq_zero_iff {path : List String} (hpath : path ≠ []) (h : StandsAt indent (Passage.depth path) w) :
    w.level = 0 ↔ path.length = 1 := by
  have hpos := List.length_pos_iff.2 hpath
  rw [h.level, Passage.depth]
  omega

lemma StandsAt.openNamespace (h : StandsAt indent depth w) (name : String) :
    StandsAt indent (depth + 1) (w.openNamespace name) where
  indent := by
    unfold Writer.openNamespace
    split_ifs <;> simp [deeper, h.indent]
  level := by
    unfold Writer.openNamespace
    split_ifs <;> simp [deeper, h.level]
  lineStarted := rfl

lemma StandsAt.text_openNamespace {path : List String} (hpath : path ≠ []) (h : StandsAt indent (Passage.depth path) w) :
    (w.openNamespace (Passage.name path)).text = w.text ++ Passage.text indent (.opening path) := by
  show ((((if w.level = 0 then w.put "declare " else w).put "namespace ").put _).line " \x7b").text = _
  simp only [text_put_line, text_put_put, h.level_eq_zero_iff hpath, Passage.text, Passage.margin]
  split_ifs with hone
  · simp only [text_put_put, h.text_put, String.append_assoc]
  · simp only [h.text_put, String.append_assoc, String.append_empty]

lemma StandsAt.closeNamespace (h : StandsAt indent (depth + 1) w) : StandsAt indent depth w.closeNamespace where
  indent := by simp [Writer.closeNamespace, h.higher.indent]
  level := by simp [Writer.closeNamespace, h.higher.level]
  lineStarted := rfl

lemma StandsAt.text_closeNamespace (h : StandsAt indent (depth + 1) w) :
    w.closeNamespace.text = w.text ++ (String.join (List.replicate depth indent) ++ "\x7d" ++ "\n") := by
  rw [Writer.closeNamespace, h.higher.text_line]
  simp only [String.append_assoc]
  rfl

end Writer

namespace Declaration

open Writer (StandsAt Acts)

lemma acts_write (d : Declaration) : Acts d.write := by
  unfold write
  cases d.body with
  | typeAlias type => exact (TypeExpr.acts_write true type).comp ((Acts.typeAlias d.name).comp (.comment d.comment))
  | interface members => exact ((TypeExpr.acts_writeMembers members).interface d.name).comp (.comment d.comment)

lemma lineStarted_write (d : Declaration) (w : Writer) : (d.write w).lineStarted = false := by
  unfold write
  cases d.body with
  | typeAlias type => exact TypeExpr.lineStarted_write type _
  | interface members => rfl

/-- A declaration is written as its passage says. -/
theorem text_write {indent : String} {path : List String} {w : Writer} {d : Declaration} (hpath : path ≠ [])
    (hname : d.name = Passage.name path) (h : StandsAt indent (Passage.depth path) w) :
    (d.write w).text = w.text ++ Passage.text indent (.declaration path d) := by
  obtain ⟨comment, name, body⟩ := d
  obtain rfl : name = Passage.name path := hname
  have hw := h.comment comment
  have hword : (w.comment comment).declarationWord = if path.length = 1 then "declare " else "export " := by
    simp only [Writer.declarationWord, hw.level_eq_zero_iff hpath]
  have hcomment := (Acts.comment comment).text w
  rw [h.indent, h.level, h.lineStarted] at hcomment
  cases body with
  | typeAlias type =>
    have hopen : ((w.comment comment).typeAlias (Passage.name path)).text =
        (w.comment comment).text ++ (Passage.margin indent path ++ (Passage.header path "type " ++ " = ")) := by
      simp only [Writer.typeAlias, Writer.text_put_put, hw.text_put, hword, Passage.header, Passage.margin,
        String.append_assoc]
    have hplace : ((w.comment comment).typeAlias (Passage.name path)).lineStarted = true := Writer.lineStarted_put _ _
    have htype := (TypeExpr.acts_write true type).text ((w.comment comment).typeAlias (Passage.name path))
    rw [(Acts.typeAlias _).indent, (Acts.typeAlias _).level, hplace, hw.indent, hw.level, hopen, hcomment] at htype
    simpa only [write, Passage.text, String.append_assoc] using htype
  | interface members =>
    have hopen : ((w.comment comment).openInterface (Passage.name path)).text = (w.comment comment).text ++
        (Passage.margin indent path ++ (Passage.header path "interface " ++ (" " ++ ("\x7b" ++ "\n")))) := by
      show ((((((w.comment comment).put _).put "interface ").put (Passage.name path)).put " ").line "\x7b").text = _
      simp only [Writer.text_put_line, Writer.text_put_put, hw.text_put, hword, Passage.header, Passage.margin,
        String.append_assoc]
    have hinside := hw.openInterface (Passage.name path)
    have hmembers := (TypeExpr.acts_writeMembers members).text ((w.comment comment).openInterface (Passage.name path))
    rw [hinside.indent, hinside.level, hinside.lineStarted, Passage.depth_add_one hpath, hopen, hcomment] at hmembers
    have hclose := (hinside.writeMembers members).text_closeInterface
    rw [hmembers] at hclose
    simpa only [write, Passage.text, Passage.margin, String.append_assoc] using hclose

end Declaration

/-! ### Outlines -/

lemma Item.writeAll_append (items others : List Item) (w : Writer) :
    writeAll (items ++ others) w = writeAll others (writeAll items w) := by
  induction items generalizing w with
  | nil => rfl
  | cons i items ih => rw [List.cons_append, writeAll, ih, writeAll]

/-- What begins at nodes. -/
def Heading.ofNodes {α : Type} (nodes : List (List String × Namespace α)) : List Heading :=
  nodes.flatMap fun node => ofNode node.1 node.2

/-- What is declared at nodes, with its paths. -/
def Namespace.leaves {α : Type} (nodes : List (List String × Namespace α)) : List (List String × α) :=
  nodes.filterMap fun node => node.2.leaf.map (node.1, ·)

section Walk

variable {α : Type} (path : List String) (leaf : Option α) (children : List (String × Namespace α))

lemma Heading.ofNodes_walkFrom : ofNodes (Namespace.walkFrom path (.node leaf children)) =
    (if leaf.isSome then [.declares path] else []) ++
      ((if children.isEmpty then [] else [.opens path]) ++ ofNodes (Namespace.walkChildren path children)) := by
  rw [Namespace.walkFrom, ofNodes, List.flatMap_cons, ofNode, List.append_assoc]
  rfl

lemma Namespace.leaves_walkFrom : leaves (walkFrom path (.node leaf children)) =
    (leaf.map (path, ·)).toList ++ leaves (walkChildren path children) := by
  rw [walkFrom, leaves, List.filterMap_cons]
  cases leaf <;> rfl

end Walk

namespace Emission

variable {env : Setting} {indent : String} {outer path : List String} {headings headings' : List Heading}
  {leaves leaves' : List (List String × Schema Json)} {items items' : List Item} {passages passages' : List Passage}

/-- A schema is declared at its path. -/
def IsDeclaredAs (env : Setting) (leaf : List String × Schema Json) (declared : List String × Declaration) : Prop :=
  declared.1 = leaf.1 ∧ ∃ notices notices', declare env leaf.1 leaf.2 notices = .ok declared.2 notices'

/-- **Passages are the outline of items**: inside the namespace at `outer` the items are written as the passages, which are
well nested there, begin what the headings say and declare the leaves, all in order. -/
structure IsOutline (env : Setting) (indent : String) (outer : List String) (headings : List Heading)
    (leaves : List (List String × Schema Json)) (items : List Item) (passages : List Passage) : Prop where
  stands : ∀ w, Writer.StandsAt indent outer.length w → Writer.StandsAt indent outer.length (Item.writeAll items w)
  text : ∀ w, Writer.StandsAt indent outer.length w →
    (Item.writeAll items w).text = w.text ++ String.join (passages.map (Passage.text indent))
  nested : passages.foldlM Passage.follow outer = some outer
  headings : passages.filterMap Passage.heading? = headings
  declared : List.Forall₂ (IsDeclaredAs env) leaves (passages.filterMap Passage.declaration?)

namespace IsOutline

lemma nil : IsOutline env indent outer [] [] [] [] where
  stands _ h := h
  text _ _ := String.append_empty.symm
  nested := rfl
  headings := rfl
  declared := .nil

lemma append (h : IsOutline env indent outer headings leaves items passages)
    (h' : IsOutline env indent outer headings' leaves' items' passages') :
    IsOutline env indent outer (headings ++ headings') (leaves ++ leaves') (items ++ items') (passages ++ passages') where
  stands w hw := by
    rw [Item.writeAll_append]
    exact h'.stands _ (h.stands w hw)
  text w hw := by
    rw [Item.writeAll_append, h'.text _ (h.stands w hw), h.text w hw, List.map_append, String.join_append,
      String.append_assoc]
  nested := by
    rw [List.foldlM_append, h.nested]
    exact h'.nested
  headings := by rw [List.filterMap_append, h.headings, h'.headings]
  declared := by
    rw [List.filterMap_append]
    exact List.rel_append h.declared h'.declared

/-- A declaration is a passage. -/
lemma declare {s : Schema Json} {d : Declaration} {notices notices' : List Notice} (name : String)
    (hd : Emission.declare env (outer ++ [name]) s notices = .ok d notices') :
    IsOutline env indent outer [.declares (outer ++ [name])] [(outer ++ [name], s)] [.declare d]
      [.declaration (outer ++ [name]) d] where
  stands w hw := ⟨(d.acts_write.indent w).trans hw.indent, (d.acts_write.level w).trans hw.level, d.lineStarted_write w⟩
  text w hw := by
    have hplace : Writer.StandsAt indent (Passage.depth (outer ++ [name])) w := by rwa [Passage.depth_concat]
    have hname := (declare_name env _ s notices).good_of_ok hd
    show (d.write w).text = _
    rw [Declaration.text_write (by simp) hname hplace]
    simp [String.join_cons]
  nested := by simp [Passage.follow]
  headings := rfl
  declared := .cons ⟨rfl, notices, notices', hd⟩ .nil

/-- Inside a namespace the items are written one level deeper. -/
lemma standsInside {name : String} (h : IsOutline env indent (outer ++ [name]) headings leaves items passages) {w : Writer}
    (hw : Writer.StandsAt indent outer.length w) :
    Writer.StandsAt indent (outer.length + 1) (Item.writeAll items (w.openNamespace (Passage.name (outer ++ [name])))) := by
  have hlength : (outer ++ [name]).length = outer.length + 1 := List.length_append
  have hinside := h.stands (w.openNamespace (Passage.name (outer ++ [name])))
  rw [hlength] at hinside
  exact hinside (hw.openNamespace _)

/-- A namespace is a passage that opens it, what is inside, and a passage that closes it. -/
lemma block (name : String) (h : IsOutline env indent (outer ++ [name]) headings leaves items passages) :
    IsOutline env indent outer (.opens (outer ++ [name]) :: headings) leaves
      [.block (Passage.name (outer ++ [name])) items]
      (.opening (outer ++ [name]) :: (passages ++ [.closing (outer ++ [name])])) where
  stands w hw := (h.standsInside hw).closeNamespace
  text w hw := by
    have hplace : Writer.StandsAt indent (Passage.depth (outer ++ [name])) w := by rwa [Passage.depth_concat]
    have hlength : (outer ++ [name]).length = outer.length + 1 := List.length_append
    have hinside := hw.openNamespace (Passage.name (outer ++ [name]))
    rw [← hlength] at hinside
    show ((Item.writeAll items (w.openNamespace _)).closeNamespace).text = _
    rw [(h.standsInside hw).text_closeNamespace, h.text _ hinside, hplace.text_openNamespace (by simp)]
    simp [String.join_append, String.join_cons, Passage.text, Passage.margin, Passage.depth_concat, String.append_assoc]
  nested := by
    have hopen : Passage.follow outer (.opening (outer ++ [name])) = some (outer ++ [name]) := by simp [Passage.follow]
    have hclose : Passage.follow (outer ++ [name]) (.closing (outer ++ [name])) = some outer := by simp [Passage.follow]
    rw [List.foldlM_cons, hopen]
    show (passages ++ [Passage.closing (outer ++ [name])]).foldlM Passage.follow (outer ++ [name]) = some outer
    rw [List.foldlM_append, h.nested]
    simpa using hclose
  headings := by simp [Passage.heading?, h.headings]
  declared := by
    rw [List.filterMap_cons_none rfl, List.filterMap_append, List.filterMap_cons_none rfl, List.filterMap_nil,
      List.append_nil]
    exact h.declared

end IsOutline

mutual

theorem itemsAt_outline (env : Setting) (indent : String) (path : List String) (name : String) (notices : List Notice) :
    ∀ t : Namespace (Schema Json), Yields (itemsAt env (path ++ [name]) t) notices
      (fun items _ => ∃ passages, IsOutline env indent path (Heading.ofNodes (t.walkFrom (path ++ [name])))
        (Namespace.leaves (t.walkFrom (path ++ [name]))) items passages) fun _ _ => True
  | .node leaf children => by
    -- what stands at the node itself, and behind it the namespace of what is inside
    have hrest : ∀ own passages notices, IsOutline env indent path (if leaf.isSome then [.declares (path ++ [name])] else [])
          (leaf.map (path ++ [name], ·)).toList own passages →
        Yields (if children.isEmpty then pure own else do
          let inner ← itemsOf env (path ++ [name]) children
          return own ++ [.block (Passage.name (path ++ [name])) inner]) notices
        (fun items _ => ∃ passages, IsOutline env indent path
          (Heading.ofNodes (Namespace.walkFrom (path ++ [name]) (.node leaf children)))
          (Namespace.leaves (Namespace.walkFrom (path ++ [name]) (.node leaf children))) items passages) fun _ _ => True := by
      intro own passages notices hown
      rw [Heading.ofNodes_walkFrom, Namespace.leaves_walkFrom]
      by_cases hempty : children.isEmpty = true
      · rw [if_pos hempty, if_pos hempty, List.isEmpty_iff.1 hempty]
        exact Yields.of_pure ⟨passages, by simpa [Heading.ofNodes, Namespace.leaves, Namespace.walkChildren] using hown⟩
      · rw [if_neg hempty, if_neg hempty]
        refine Yields.bind ((itemsOf_outline env indent (path ++ [name]) notices children).mono ?_ fun _ _ h => h)
        rintro inner _ ⟨passages', hinner⟩
        exact Yields.of_pure ⟨_, hown.append (hinner.block name)⟩
    rw [itemsAt.eq_def]
    dsimp only
    cases leaf with
    | none => exact Yields.bind (Yields.of_pure (hrest [] [] notices .nil))
    | some s =>
      refine Yields.bind (Yields.of_outcome (fun d notices' hd => ?_) fun _ _ _ => trivial)
      exact Yields.bind (Yields.of_pure (hrest _ _ notices' (.declare name hd)))

theorem itemsOf_outline (env : Setting) (indent : String) (path : List String) (notices : List Notice) :
    ∀ children : List (String × Namespace (Schema Json)), Yields (itemsOf env path children) notices
      (fun items _ => ∃ passages, IsOutline env indent path (Heading.ofNodes (Namespace.walkChildren path children))
        (Namespace.leaves (Namespace.walkChildren path children)) items passages) fun _ _ => True
  | [] => by
    rw [itemsOf]
    exact Yields.of_pure ⟨[], .nil⟩
  | (name, node) :: rest => by
    rw [itemsOf, Namespace.walkChildren, Heading.ofNodes, List.flatMap_append, Namespace.leaves, List.filterMap_append]
    refine Yields.bind ((itemsAt_outline env indent path name notices node).mono ?_ fun _ _ h => h)
    rintro first notices ⟨passages, hfirst⟩
    refine Yields.bind ((itemsOf_outline env indent path notices rest).mono ?_ fun _ _ h => h)
    rintro others _ ⟨passages', hothers⟩
    exact Yields.of_pure ⟨_, hfirst.append hothers⟩

end

/-- **The outline of generated text.** The text is a row of passages: the declarations of all leaves except the root, in the
order of the walk, and the lines that open and close the namespaces of the nodes with something inside. Each passage stands
in the namespaces of its path, indented once for each, and the level is 0 again at the end. A declaration comes before
the namespace of its node, and the words before it are said by the length of its path. -/
theorem emit_outline (env : Setting) (indent : String) {items : List Item} {notices notices' : List Notice}
    (h : emit env notices = .ok items notices') :
    ∃ passages : List Passage,
      Item.render indent items = String.join (passages.map (Passage.text indent)) ∧
      (Item.writeAll items (Writer.new indent)).level = 0 ∧
      passages.foldlM Passage.follow [] = some [] ∧
      passages.filterMap Passage.heading? = Heading.ofNodes env.tree.walk.tail ∧
      List.Forall₂ (IsDeclaredAs env) (Namespace.leaves env.tree.walk.tail) (passages.filterMap Passage.declaration?) ∧
      (env.tree.leaf = none → Namespace.leaves env.tree.walk.tail = Namespace.leaves env.tree.walk) := by
  obtain ⟨passages, ho⟩ := (itemsOf_outline env indent [] notices env.tree.children).good_of_ok h
  have htail : env.tree.walk.tail = Namespace.walkChildren [] env.tree.children := by
    cases env.tree with
    | node leaf children => rw [Namespace.walk, Namespace.walkFrom, List.tail_cons, Namespace.children]
  have hnew := Writer.standsAt_new indent
  rw [htail]
  refine ⟨passages, ?_, (ho.stands _ hnew).level, ho.nested, ho.headings, ho.declared, ?_⟩
  · rw [Item.render, ho.text _ hnew]
    exact String.empty_append
  · intro hleaf
    cases ht : env.tree with
    | node leaf children =>
      obtain rfl : leaf = none := by rw [← hleaf, ht, Namespace.leaf]
      rw [Namespace.walk, Namespace.walkFrom, Namespace.children]
      rfl

/-- A schema with a namespace of its own, and a namespace without a schema. -/
def layeredSetting : Setting :=
  let text : Json := .obj [("type", .str "string")]
  let record : Json := .obj [("title", .str "T"), ("type", .str "object"), ("properties", .obj [("x", text)])]
  let schema (address : String) (content : Json) : Schema Json := ⟨.draft07, ⟨address⟩, content, none, [], false⟩
  { normal := ⟨none, .distinct, 5⟩
    lookup := fun _ => .error .endless
    isRegistered := fun _ => false
    tree := .node none [
      ("a", .node (some (schema "/a#" text)) [("b", .node (some (schema "/a/b#" record)) [])]),
      ("c", .node none [("d", .node (some (schema "/c/d#" text)) [])])]
    depth := 5 }

/-- What is emitted in this setting. -/
def layeredItems : List Item :=
  [.declare ⟨[], "A", .typeAlias (.plain "string" [])⟩,
    .block "A" [.declare ⟨["T"], "B", .interface [(.property [] false "x" true, .plain "string" [])]⟩],
    .block "C" [.declare ⟨[], "D", .typeAlias (.plain "string" [])⟩]]

theorem emit_outline_layered :
    ∃ notices', emit layeredSetting [] = .ok layeredItems notices' ∧
      Item.render "  " layeredItems = "declare type A = string;\ndeclare namespace A \x7b\n  /**\n   * T\n   */\n" ++
        "  export interface B \x7b\n    x?: string;\n  \x7d\n\x7d\n" ++
        "declare namespace C \x7b\n  export type D = string;\n\x7d\n" ∧
      ∃ passages : List Passage,
        Item.render "  " layeredItems = String.join (passages.map (Passage.text "  ")) ∧
        passages.foldlM Passage.follow [] = some [] ∧
        passages.filterMap Passage.heading? =
          [.declares ["a"], .opens ["a"], .declares ["a", "b"], .opens ["c"], .declares ["c", "d"]] ∧
        (passages.filterMap Passage.declaration?).length = layeredSetting.tree.countLeaves := by
  have hemit : emit layeredSetting [] =
      .ok layeredItems [.declaring "/c/d#", .declaring "/a/b#", .declaring "/a#"] := by cbv
  obtain ⟨passages, hrender, -, hnested, hheadings, hdeclared, -⟩ := emit_outline layeredSetting "  " hemit
  refine ⟨_, hemit, by decide +kernel, passages, hrender, hnested, hheadings, ?_⟩
  rw [← hdeclared.length_eq]
  decide +kernel

end Emission

end Typings
