import Mathlib.Data.List.Basic
import TensorGraph.Graph.Drawing

/-!
Drawings lose nothing of what they show. Names are the only part of a drawing that can hold any
text; between quotation marks, with each mark inside escaped, a name ends where its writer ended
it. So every statement is read off the front of a drawing, whatever comes behind it.
-/

namespace TensorGraph

namespace Graph

open Text (doubleMark)

variable {g h : Graph} {n m : Node} {e e' : String × String} {direction text : String}
variable {xs ys : List Char}

/-! ### What is shown -/

/-- What a drawing shows of a node: its name, its kind, and what an operation computes. -/
def drawnNode (n : Node) : String × NodeKind × Option OperationKind :=
  (n.name, n.kind, if n.kind = .op then n.operation.map (·.kind) else none)

/-- The edges of a graph, each from an input of a node to the node. -/
def drawnEdges (g : Graph) : List (String × String) :=
  g.nodes.flatMap fun n => n.inputs.map fun p => (p, n.name)

/-- The name that a drawing shows. -/
def shownName (g : Graph) : Value := if g.name.isPresent then g.name else .text "G"

theorem drawnTitle_eq_ok_iff {title : String} :
    g.drawnTitle = .ok title ↔ g.shownName = .text title := by
  unfold drawnTitle shownName
  split
  · cases g.name <;> simp [Value.text?, orError]
  · simp

/-! ### Names between quotation marks -/

/-- A text with a backslash before each of its backslashes and quotation marks. -/
def escaped (cs : List Char) : List Char :=
  cs.flatMap fun c => if c = '\\' ∨ c = doubleMark then ['\\', c] else [c]

theorem toList_drawnText (s : String) : (drawnText s).toList = escaped s.toList := by
  rw [drawnText, String.toList_ofList]
  rfl

/-- What stands before the first quotation mark without a backslash, with the backslashes taken
off, and what stands behind that mark. -/
def readEscaped : List Char → Option (List Char × List Char)
  | '\x22' :: behind => some ([], behind)
  | '\\' :: c :: rest => (readEscaped rest).map fun (cs, behind) => (c :: cs, behind)
  | c :: rest => (readEscaped rest).map fun (cs, behind) => (c :: cs, behind)
  | [] => none

/-- An escaped text is read back up to the quotation mark that closes it. -/
theorem readEscaped_escaped (cs behind : List Char) :
    readEscaped (escaped cs ++ doubleMark :: behind) = some (cs, behind) := by
  induction cs with
  | nil => rfl
  | cons c cs ih =>
    rw [escaped, List.flatMap_cons, ← escaped]
    by_cases mark : c = '\\' ∨ c = doubleMark
    · rw [if_pos mark]
      simp only [List.cons_append, List.nil_append, readEscaped, ih, Option.map_some]
    · -- The equation of `readEscaped` for other characters asks that this is none of the two marks.
      obtain ⟨backslash, quotation⟩ := not_or.1 mark
      rw [if_neg mark, List.cons_append, List.nil_append, List.cons_append, readEscaped, ih,
        Option.map_some]
      · exact quotation
      · exact fun _ _ same _ => backslash same

theorem escaped_append_injective {s t : String}
    (same : escaped s.toList ++ doubleMark :: xs = escaped t.toList ++ doubleMark :: ys) :
    s = t ∧ xs = ys := by
  have read := congrArg readEscaped same
  simpa [readEscaped_escaped, String.toList_inj] using read

/-! ### Statements for nodes -/

/-- The kind of node, and of operation, that the first line of a label tells. -/
def ofLabelHead (head : String) : NodeKind × Option OperationKind :=
  if head = "INPUT" then (.input, none)
  else if head = "CONST" then (.const, none)
  else if head = "OUTPUT" then (.output, none)
  else (.op, if head = "OP" then none else OperationKind.parse? head)

theorem ofLabelHead_labelHead (n : Node) : ofLabelHead (labelHead n) = (drawnNode n).2 := by
  unfold labelHead drawnNode
  cases n.kind with
  | input | const | output => simp [ofLabelHead]
  | op =>
    cases n.operation with
    | none => simp [ofLabelHead]
    | some op =>
      obtain ⟨input, const, output, bare⟩ : op.kind.name ≠ "INPUT" ∧ op.kind.name ≠ "CONST" ∧
          op.kind.name ≠ "OUTPUT" ∧ op.kind.name ≠ "OP" := by simpa using op.kind.name_not_mem
      simp [ofLabelHead, input, const, output, bare, OperationKind.parse?_name]

theorem labelHead_eq_of_drawnNode_eq (same : drawnNode n = drawnNode m) :
    labelHead n = labelHead m := by
  obtain ⟨-, kind_eq, operation_eq⟩ : n.name = m.name ∧ n.kind = m.kind ∧ _ = _ := by
    simpa [drawnNode] using same
  unfold labelHead
  rw [kind_eq] at operation_eq ⊢
  cases kind : m.kind with
  | input | const | output => rfl
  | op =>
    rw [if_pos kind, if_pos kind] at operation_eq
    cases operation : n.operation <;> cases operation' : m.operation <;>
      simp_all

theorem backslash_not_mem_labelHead (n : Node) : '\\' ∉ (labelHead n).toList := by
  unfold labelHead
  split
  · decide
  · decide
  · decide
  · split
    · exact OperationKind.backslash_not_mem_name _
    · decide

/-- A text is read off up to a sign that it does not hold. -/
theorem append_cons_injective {c : Char} {cs ds : List Char} (free : c ∉ cs) (free' : c ∉ ds)
    (same : cs ++ c :: xs = ds ++ c :: ys) : cs = ds ∧ xs = ys := by
  induction cs generalizing ds with
  | nil =>
    cases ds with
    | nil => exact ⟨rfl, (List.cons.inj same).2⟩
    | cons d ds => exact absurd (List.mem_cons.2 (.inl (List.cons.inj same).1)) free'
  | cons b cs ih =>
    cases ds with
    | nil => exact absurd (List.mem_cons.2 (.inl (List.cons.inj same).1.symm)) free
    | cons d ds =>
      obtain ⟨rfl, rest⟩ := List.cons.inj same
      obtain ⟨rfl, behind⟩ :=
        ih (List.not_mem_of_not_mem_cons free) (List.not_mem_of_not_mem_cons free') rest
      exact ⟨rfl, behind⟩

theorem nodeStatement_eq (n : Node) :
    nodeStatement n = "  " ++ drawnName n.name ++ " [label=\x22" ++ labelHead n ++ "\\n" ++
      drawnText n.name ++ "\x22, shape=" ++ (nodeStyle n.kind).1 ++ ", color=" ++
        (nodeStyle n.kind).2 ++ "];" := rfl

/-- What closes the label of a node of a kind, up to the end of its line. -/
def labelEnd (kind : NodeKind) : List Char :=
  (", shape=" ++ (nodeStyle kind).1 ++ ", color=" ++ (nodeStyle kind).2 ++ "];\n").toList

/-- The statement for a node, as a line. -/
def nodeLine (n : Node) : List Char := (nodeStatement n).toList ++ ['\n']

theorem nodeLine_append (n : Node) (xs : List Char) :
    nodeLine n ++ xs = ' ' :: ' ' :: doubleMark :: (escaped n.name.toList ++ doubleMark ::
      (" [label=\x22".toList ++ ((labelHead n).toList ++ '\\' :: 'n' ::
        (escaped n.name.toList ++ doubleMark :: (labelEnd n.kind ++ xs))))) := by
  rw [nodeLine, nodeStatement_eq]
  simp [drawnName, toList_drawnText, labelEnd, doubleMark]

/-- The statement for a node is read off the front of a drawing. -/
theorem nodeLine_append_injective (same : nodeLine n ++ xs = nodeLine m ++ ys) :
    drawnNode n = drawnNode m ∧ xs = ys := by
  simp only [nodeLine_append, List.cons.injEq, true_and] at same
  obtain ⟨name_eq, same⟩ := escaped_append_injective same
  -- The first line of the label ends with the first backslash behind the name.
  obtain ⟨head_eq, same⟩ := append_cons_injective (backslash_not_mem_labelHead n)
    (backslash_not_mem_labelHead m) (List.append_cancel_left same)
  obtain ⟨-, same⟩ := escaped_append_injective (List.cons.inj same).2
  have shown_eq : (drawnNode n).2 = (drawnNode m).2 := by
    rw [← ofLabelHead_labelHead, ← ofLabelHead_labelHead, String.toList_injective head_eq]
  have kind_eq : n.kind = m.kind := congrArg Prod.fst shown_eq
  rw [kind_eq] at same
  exact ⟨Prod.ext name_eq shown_eq, List.append_cancel_left same⟩

theorem nodeLine_eq_of_drawnNode_eq (same : drawnNode n = drawnNode m) :
    nodeLine n = nodeLine m := by
  have name_eq : n.name = m.name := congrArg Prod.fst same
  have kind_eq : n.kind = m.kind := congrArg (·.2.1) same
  rw [nodeLine, nodeLine, nodeStatement_eq, nodeStatement_eq, name_eq, kind_eq,
    labelHead_eq_of_drawnNode_eq same]

/-! ### Statements for edges -/

/-- The statement for an edge, as a line. -/
def edgeLine (e : String × String) : List Char :=
  ("  " ++ drawnName e.1 ++ " -> " ++ drawnName e.2 ++ ";\n").toList

theorem edgeLine_append (e : String × String) (xs : List Char) :
    edgeLine e ++ xs = ' ' :: ' ' :: doubleMark :: (escaped e.1.toList ++ doubleMark ::
      (" -> \x22".toList ++ (escaped e.2.toList ++ doubleMark :: ';' :: '\n' :: xs))) := by
  simp [edgeLine, drawnName, toList_drawnText, doubleMark]

/-- The statement for an edge is read off the front of a drawing. -/
theorem edgeLine_append_injective (same : edgeLine e ++ xs = edgeLine e' ++ ys) :
    e = e' ∧ xs = ys := by
  simp only [edgeLine_append, List.cons.injEq, true_and] at same
  obtain ⟨source_eq, same⟩ := escaped_append_injective same
  obtain ⟨target_eq, same⟩ := escaped_append_injective (List.append_cancel_left same)
  exact ⟨Prod.ext source_eq target_eq, (List.cons.inj (List.cons.inj same).2).2⟩

/-- No statement for a node is one for an edge: what follows the first name tells them apart. -/
theorem nodeLine_append_ne_edgeLine_append : nodeLine n ++ xs ≠ edgeLine e ++ ys := by
  intro same
  simp only [nodeLine_append, edgeLine_append, List.cons.injEq, true_and] at same
  obtain ⟨-, same⟩ := escaped_append_injective same
  exact absurd (congrArg (·[1]?) same) (by simp)

/-! ### Whole drawings -/

section Lines

variable {α β : Type} {line : α → List Char} {shown : α → β} {as bs : List α}

/-- A list of lines is read off the front of a text, if each line is, and if what ends the list
begins with no line. -/
theorem map_eq_of_flatMap_append_eq
    (reads : ∀ {a b xs ys}, line a ++ xs = line b ++ ys → shown a = shown b ∧ xs = ys)
    (ends : ∀ {a zs}, line a ++ zs ≠ xs) (ends' : ∀ {a zs}, line a ++ zs ≠ ys)
    (same : as.flatMap line ++ xs = bs.flatMap line ++ ys) :
    as.map shown = bs.map shown ∧ xs = ys := by
  induction as generalizing bs with
  | nil =>
    cases bs with
    | nil => exact ⟨rfl, same⟩
    | cons b bs =>
      rw [List.flatMap_cons, List.append_assoc] at same
      exact absurd same.symm ends
  | cons a as ih =>
    cases bs with
    | nil =>
      rw [List.flatMap_cons, List.append_assoc] at same
      exact absurd same ends'
    | cons b bs =>
      simp only [List.flatMap_cons, List.append_assoc] at same
      obtain ⟨first, same⟩ := reads same
      obtain ⟨rest, behind⟩ := ih same
      exact ⟨by rw [List.map_cons, List.map_cons, first, rest], behind⟩

/-- The lines of a list tell no more than what is shown of each item. -/
theorem flatMap_eq_of_map_eq (determined : ∀ {a b}, shown a = shown b → line a = line b)
    (same : as.map shown = bs.map shown) : as.flatMap line = bs.flatMap line := by
  induction as generalizing bs with
  | nil => rw [List.map_eq_nil_iff.1 same.symm]
  | cons a as ih =>
    obtain ⟨b, rest, rfl, first, others⟩ := List.map_eq_cons_iff.1 same.symm
    rw [List.flatMap_cons, List.flatMap_cons, determined first.symm, ih others.symm]

end Lines

/-- The statements of a drawing and its closing brace. -/
def body (g : Graph) : List Char :=
  g.nodes.flatMap nodeLine ++ (g.drawnEdges.flatMap edgeLine ++ ['\x7d'])

theorem edgeLine_append_ne : edgeLine e ++ xs ≠ ['\x7d'] := by
  rw [edgeLine_append]
  exact fun same => absurd (List.cons.inj same).1 (by decide)

theorem nodeLine_append_ne (edges : List (String × String)) :
    nodeLine n ++ xs ≠ edges.flatMap edgeLine ++ ['\x7d'] := by
  cases edges with
  | nil =>
    rw [nodeLine_append]
    exact fun same => absurd (List.cons.inj same).1 (by decide)
  | cons e edges =>
    rw [List.flatMap_cons, List.append_assoc]
    exact nodeLine_append_ne_edgeLine_append

theorem body_eq_iff :
    g.body = h.body ↔
      g.nodes.map drawnNode = h.nodes.map drawnNode ∧ g.drawnEdges = h.drawnEdges := by
  constructor
  · intro same
    obtain ⟨nodes_eq, same⟩ := map_eq_of_flatMap_append_eq nodeLine_append_injective
      (nodeLine_append_ne _) (nodeLine_append_ne _) same
    have reads {e e' : String × String} {xs ys : List Char}
        (same : edgeLine e ++ xs = edgeLine e' ++ ys) : id e = id e' ∧ xs = ys :=
      edgeLine_append_injective same
    obtain ⟨edges_eq, -⟩ :=
      map_eq_of_flatMap_append_eq reads edgeLine_append_ne edgeLine_append_ne same
    exact ⟨nodes_eq, by simpa using edges_eq⟩
  · rintro ⟨nodes_eq, edges_eq⟩
    rw [body, body, flatMap_eq_of_map_eq nodeLine_eq_of_drawnNode_eq nodes_eq, edges_eq]

theorem toList_intercalate_concat (last : String) (front : List String) :
    (String.intercalate "\n" (front ++ [last])).toList =
      front.flatMap (fun line => line.toList ++ ['\n']) ++ last.toList := by
  induction front with
  | nil => simp
  | cons line front ih =>
    rw [List.cons_append, String.intercalate_cons_of_ne_nil (by simp)]
    simp [ih]

/-- A drawing with its title and direction, around given statements. -/
def sheet (title direction : String) (statements : List Char) : List Char :=
  ("digraph " ++ drawnName title ++ " \x7b\n  rankdir=" ++ direction ++
    ";\n  node [shape=box];\n").toList ++ statements

theorem sheet_eq (title direction : String) (statements : List Char) :
    sheet title direction statements =
      "digraph \x22".toList ++ (escaped title.toList ++ doubleMark :: (" \x7b\n  rankdir=".toList ++
        (direction.toList ++ (";\n  node [shape=box];\n".toList ++ statements)))) := by
  simp [sheet, drawnName, toList_drawnText, doubleMark]

theorem sheet_eq_iff {title title' : String} :
    sheet title direction xs = sheet title' direction ys ↔ title = title' ∧ xs = ys := by
  constructor
  · intro same
    rw [sheet_eq, sheet_eq] at same
    obtain ⟨title_eq, same⟩ := escaped_append_injective (List.append_cancel_left same)
    exact ⟨title_eq, by simpa using same⟩
  · rintro ⟨rfl, rfl⟩
    rfl

theorem flatMap_edgeStatements (g : Graph) :
    (g.nodes.flatMap edgeStatements).flatMap (fun line => line.toList ++ ['\n']) =
      g.drawnEdges.flatMap edgeLine := by
  simp only [drawnEdges, List.flatMap_assoc, edgeStatements, List.flatMap_map]
  refine List.flatMap_congr fun n _ => List.flatMap_congr fun p _ => ?_
  simp [edgeLine]

/-- The lines of a drawing make one sheet. -/
theorem toList_lines (g : Graph) (title direction : String) :
    (String.intercalate "\n" (["digraph " ++ drawnName title ++ " \x7b",
      "  rankdir=" ++ direction ++ ";", "  node [shape=box];"] ++
        g.nodes.map nodeStatement ++ g.nodes.flatMap edgeStatements ++ ["\x7d"])).toList =
      sheet title direction g.body := by
  have nodes_eq : (g.nodes.map nodeStatement).flatMap (fun line => line.toList ++ ['\n']) =
      g.nodes.flatMap nodeLine := List.flatMap_map ..
  simp only [toList_intercalate_concat, List.flatMap_append, nodes_eq, flatMap_edgeStatements]
  simp [sheet, body]

/-- A drawing is one sheet, and it is refused only for its direction or its title. -/
theorem drawing_eq_ok_iff :
    g.drawing direction = .ok text ↔ drawingDirections.contains direction = true ∧
      ∃ title, g.shownName = .text title ∧ text.toList = sheet title direction g.body := by
  unfold drawing
  by_cases valid : drawingDirections.contains direction = true
  · simp only [valid, Bool.not_true, Bool.false_eq_true, if_false, true_and]
    constructor
    · intro drawn
      obtain ⟨title, titled, drawn⟩ := bind_eq_ok_iff.1 drawn
      exact ⟨title, drawnTitle_eq_ok_iff.1 titled, by rw [← Except.ok.inj drawn, toList_lines]⟩
    · rintro ⟨title, titled, text_eq⟩
      rw [drawnTitle_eq_ok_iff.2 titled]
      exact congrArg Except.ok (String.toList_injective (by rw [text_eq, toList_lines]))
  · refine ⟨fun drawn => ?_, fun drawn => absurd drawn.1 valid⟩
    have invalid : drawingDirections.contains direction = false := by simpa using valid
    simp only [invalid, Bool.not_false, if_true, error_bind] at drawn
    cases drawn

theorem shownName_eq_text_iff {s title : String} (named : g.name = .text s) :
    g.shownName = .text title ↔ title = if s = "" then "G" else s := by
  rw [shownName, named]
  by_cases empty : s = "" <;> simp [Value.isPresent, empty, @eq_comm _ _ title]

/-- Drawings tell graphs apart by all that they show. Every graph with a text as its name is drawn
in each direction, and two drawings in one direction are the same exactly if the graphs have the
same name, where no name counts as `G`, the same nodes in the same order, each with its name, its
kind and what it computes, and the same edges in the same order. -/
theorem drawing_injective (valid : drawingDirections.contains direction = true) :
    (∀ s, g.name = .text s →
      (∃ text, g.drawing direction = .ok text) ∧
        g.shownName = .text (if s = "" then "G" else s)) ∧
    ∀ text, g.drawing direction = .ok text →
      (h.drawing direction = .ok text ↔
        h.shownName = g.shownName ∧ h.nodes.map drawnNode = g.nodes.map drawnNode ∧
          h.drawnEdges = g.drawnEdges) := by
  refine ⟨fun s named => ?_, fun text drawn => ?_⟩
  · have titled := (shownName_eq_text_iff named).2 rfl
    exact ⟨⟨String.ofList _, drawing_eq_ok_iff.2 ⟨valid, _, titled, String.toList_ofList⟩⟩, titled⟩
  · obtain ⟨-, title, titled, text_eq⟩ := drawing_eq_ok_iff.1 drawn
    rw [drawing_eq_ok_iff, ← body_eq_iff, titled]
    constructor
    · rintro ⟨-, title', titled', text_eq'⟩
      obtain ⟨rfl, body_eq⟩ := sheet_eq_iff.1 (text_eq'.symm.trans text_eq)
      exact ⟨titled', body_eq⟩
    · rintro ⟨titled', body_eq⟩
      exact ⟨valid, title, titled', by rw [text_eq, body_eq]⟩

/-- A node whose name holds the end of one statement and the beginning of another. -/
def crafted : List Node :=
  [{ name := "a\x22 [label=\x22INPUT\\na\x22, shape=ellipse, color=green];\n  \x22b",
     kind := .input }]

/-- The nodes for which the name of `crafted` could be taken. -/
def imitated : List Node := [{ name := "a", kind := .input }, { name := "b", kind := .input }]

theorem drawing_injective_crafted : ∃ g same other,
    crafted.foldlM add (empty (.text "")) = .ok g ∧
    crafted.foldlM add (empty (.text "G")) = .ok same ∧
    imitated.foldlM add (empty (.text "")) = .ok other ∧
    ∃ text, g.drawing "LR" = .ok text ∧ same.drawing "LR" = .ok text ∧
      other.drawing "LR" ≠ .ok text := by
  obtain ⟨g, made, name_eq, nodes_eq, edges_eq⟩ : ∃ g,
      crafted.foldlM add (empty (.text "")) = .ok g ∧ g.name = .text "" ∧ g.nodes = crafted ∧
        g.drawnEdges = [] := ⟨_, rfl, rfl, rfl, rfl⟩
  obtain ⟨same, made', name_eq', nodes_eq', edges_eq'⟩ : ∃ g,
      crafted.foldlM add (empty (.text "G")) = .ok g ∧ g.name = .text "G" ∧ g.nodes = crafted ∧
        g.drawnEdges = [] := ⟨_, rfl, rfl, rfl, rfl⟩
  obtain ⟨other, made'', nodes_eq''⟩ : ∃ g,
      imitated.foldlM add (empty (.text "")) = .ok g ∧ g.nodes = imitated := ⟨_, rfl, rfl⟩
  have valid : drawingDirections.contains "LR" = true := by decide
  obtain ⟨drawn, alike⟩ := drawing_injective (g := g) (h := same) valid
  obtain ⟨⟨text, text_eq⟩, titled⟩ := drawn "" name_eq
  have titled' := ((drawing_injective (g := same) (h := same) valid).1 "G" name_eq').2
  refine ⟨g, same, other, made, made', made'', text, text_eq, (alike text text_eq).2 ⟨?_, ?_, ?_⟩,
    ?_⟩
  · rw [titled, titled']
    rfl
  · rw [nodes_eq, nodes_eq']
  · rw [edges_eq, edges_eq']
  · intro drawn
    have shown_eq := (((drawing_injective (h := other) valid).2 text text_eq).1 drawn).2.1
    rw [nodes_eq, nodes_eq''] at shown_eq
    exact absurd (congrArg List.length shown_eq) (by decide)

end Graph

end TensorGraph
