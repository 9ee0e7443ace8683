import Emission.Proofs.Draft
import Emission.Proofs.Node
import Emission.Render.Module

/-!
# The lines of a module

The text of a module can be told from the module, line by line (`Module.lines`): each line has a depth,
which is the number of functions around it, and words, which are texts and variables as they stand in
the tree.

* A module is rendered as a node is (`Module.render_eq`), and what a node writes is found in the draft
  of its moves (`Node.output_render`, `Node.scraps`).
* For a module this is a matter of lines: an indentation at the depth of the line, its words, and a
  newline (`Module.scraps_node`).
* So the text is the text of the lines, with the labels that the variables have in the end, and the
  variables are numbered as they come up in the lines (`Module.text_lines`).
-/

namespace Emission

/-! ## 1. Lines -/

/-- A word of a line. -/
inductive Word where
  | text (s : String)
  /-- The label of a variable. -/
  | label (v : Var)
  deriving DecidableEq, Repr

/-- A line: how many functions are around it, and what stands in it. -/
structure Line where
  depth : Nat
  words : List Word
  deriving DecidableEq, Repr

def Word.var? : Word → Option Var
  | text _ => none
  | label v => some v

/-- The variables in a line, from left to right. -/
def Line.vars (l : Line) : List Var :=
  l.words.filterMap Word.var?

section

variable (config : Config) (label : Var → String)

def Word.spelt : Word → String
  | text s => s
  | .label v => label v

/-- The text of a line, where variables have their labels from `label`: its indentation, its words, and
    a newline where lines end. -/
def Line.text (l : Line) : String :=
  Text.copies config.indentUnit
      (min maxDepth (config.indentLevel + l.depth * config.indentStep)) ++
    String.join (l.words.map (Word.spelt label)) ++
    if config.newlines then "\n" else ""

end

mutual

/-- An expression, word by word. -/
def Expr.words : Expr → List Word
  | .var v => [.label v]
  | .int n => [.text (Text.decimal n)]
  | .call callee args =>
    callee.words ++ .text "(" :: [.text ","].intercalate (Expr.wordsEach args) ++ [.text ")"]

def Expr.wordsEach : List Expr → List (List Word)
  | [] => []
  | e :: es => e.words :: Expr.wordsEach es

end

mutual

/-- The lines of a statement inside `depth` functions. -/
def Stmt.lines (depth : Nat) : Stmt → List Line
  | .bind v value => [⟨depth, .text "let " :: .label v :: .text "=" :: value.words ++ [.text ";"]⟩]
  | .expr e => [⟨depth, e.words ++ [.text ";"]⟩]
  | .ret e => [⟨depth, .text "return " :: e.words ++ [.text ";"]⟩]
  | .func name params body =>
    ⟨depth, .text "function " :: .label name :: .text "(" ::
        [.text ","].intercalate (params.map fun v => [.label v]) ++ [.text ")\x7b"]⟩ ::
      Stmt.linesAll (depth + 1) body ++ [⟨depth, [.text "\x7d"]⟩]

/-- The lines of some statements. -/
def Stmt.linesAll (depth : Nat) : List Stmt → List Line
  | [] => []
  | s :: ss => s.lines depth ++ Stmt.linesAll depth ss

end

/-- The line of an import. -/
def Line.ofImport (name : String) : Line :=
  ⟨0, [.text "import ", .text name, .text ";"]⟩

/-- The lines of a module, where headers are written or are not. -/
def Module.lines (header : Bool) (m : Module) : List Line :=
  (if header then m.imports.map Line.ofImport else []) ++ Stmt.linesAll 0 m.body

/-! ## 2. Modules as nodes -/

mutual

def Expr.node : Expr → Node
  | .var v => .var v
  | .int n => .text (Text.decimal n)
  | .call callee args =>
    .list [callee.node, .text "(", .sep "," (Expr.nodes args), .text ")"]

def Expr.nodes : List Expr → List Node
  | [] => []
  | e :: es => e.node :: Expr.nodes es

end

mutual

def Stmt.node : Stmt → Node
  | .bind v value => .within .line (.list [.text "let ", .var v, .text "=", value.node, .text ";"])
  | .expr e => .within .line (.list [e.node, .text ";"])
  | .ret e => .within .line (.list [.text "return ", e.node, .text ";"])
  | .func name params body =>
    .list [.within .line (.list [.text "function ", .var name, .text "(",
        .sep "," (params.map .var), .text ")\x7b"]),
      .within .further (.list (Stmt.nodes body)), .within .line (.text "\x7d")]

def Stmt.nodes : List Stmt → List Node
  | [] => []
  | s :: ss => s.node :: Stmt.nodes ss

end

def Node.ofImport (name : String) : Node :=
  .within .line (.list [.text "import ", .text name, .text ";"])

/-- A module as a node, where headers are written or are not. -/
def Module.node (header : Bool) (m : Module) : Node :=
  .list [.list (if header then m.imports.map Node.ofImport else []), .list (Stmt.nodes m.body)]

/-- How a text is handed over makes no difference to the output. -/
theorem Emit.call_text_eq (how : Handover) (s : String) : Emit.call (.text how s) = Emit.emit s := by
  funext c
  rw [Emit.emit, Emit.call_apply, Emit.call_apply, Output.run_eq_push, Output.run_eq_push]
  rfl

theorem Emit.emitFixed_eq (s : String) : Emit.emitFixed s = Emit.emit s :=
  Emit.call_text_eq .fixed s

mutual

/-- **An expression is rendered as its node is.** -/
theorem Expr.render_eq : ∀ e : Expr, e.render = e.node.render
  | .var _ => rfl
  | .int n => Emit.call_text_eq .owned (Text.decimal n)
  | .call callee args => by
    rw [Expr.render, Expr.render_eq callee, Expr.renderings_eq args, Emit.emitFixed_eq,
      Emit.emitFixed_eq]
    simp only [Expr.node, Node.render, Node.renderings, Emit.inOrder, bind_pure_unit]
    rfl

theorem Expr.renderings_eq : ∀ es : List Expr, Expr.renderings es = Node.renderings (Expr.nodes es)
  | [] => rfl
  | e :: es => by
    rw [Expr.renderings, Expr.nodes, Node.renderings, Expr.render_eq e, Expr.renderings_eq es]

end

theorem Node.renderings_params (params : List Var) :
    Node.renderings (params.map .var) = params.map Emission.render := by
  rw [Node.renderings_eq_map, List.map_map]
  rfl

mutual

/-- **A statement is rendered as its node is.** -/
theorem Stmt.render_eq : ∀ s : Stmt, s.render = s.node.render
  | .bind _ e | .expr e | .ret e => by
    rw [Stmt.render, Expr.render_eq e]
    simp only [Stmt.node, Node.render, Node.renderings, Emit.inOrder, bind_pure_unit,
      Emit.emitFixed_eq]
    rfl
  | .func name params body => by
    rw [Stmt.render, Stmt.renderings_eq body]
    simp only [Stmt.node, Node.render, Node.renderings, Emit.inOrder, bind_pure_unit,
      Emit.emitFixed_eq, Node.renderings_params]
    rfl

theorem Stmt.renderings_eq : ∀ ss : List Stmt, Stmt.renderings ss = Node.renderings (Stmt.nodes ss)
  | [] => rfl
  | s :: ss => by
    rw [Stmt.renderings, Stmt.nodes, Node.renderings, Stmt.render_eq s, Stmt.renderings_eq ss]

end

theorem Stmt.renderings_eq_map (ss : List Stmt) : Stmt.renderings ss = ss.map render := by
  induction ss with
  | nil => rfl
  | cons s ss ih =>
    rw [Stmt.renderings, ih]
    rfl

theorem Module.importLine_eq (name : String) :
    Module.importLine name = (Node.ofImport name).render := by
  rw [Module.importLine]
  simp only [Node.ofImport, Node.render, Node.renderings, Emit.inOrder, bind_pure_unit,
    Emit.emitFixed_eq]
  rfl

/-- **A module is rendered as its node is**, in any state. -/
theorem Module.render_eq (m : Module) (c : Context) :
    (render m : Emit Unit) c = (m.node c.config.header).render c := by
  have himports : m.imports.map Module.importLine = Node.renderings (m.imports.map Node.ofImport) := by
    rw [Node.renderings_eq_map, List.map_map]
    exact List.map_congr_left fun name _ => Module.importLine_eq name
  have hbody : (render m.body : Emit Unit) = (Node.list (Stmt.nodes m.body)).render := by
    rw [Node.render, ← Stmt.renderings_eq, Stmt.renderings_eq_map]
    rfl
  have hmodule : (render m : Emit Unit) c = (do
      let r ← Emit.header (Emit.inOrder (m.imports.map Module.importLine)) c
      (render m.body : Emit Unit) r.2) := rfl
  rw [hmodule, hbody, Emit.header_apply, himports, Module.node]
  simp only [Node.render, Node.renderings, Emit.inOrder, bind_pure_unit]
  cases c.config.header with
  | true =>
    rw [if_pos rfl, if_pos rfl]
    change _ = (do let r ← Emit.inOrder (Node.renderings (m.imports.map Node.ofImport)) c; _)
    cases Emit.inOrder (Node.renderings (m.imports.map Node.ofImport)) c <;> rfl
  | false => rfl

/-! ## 3. What a node writes -/

/-- What the move puts into a draft. -/
def Placed.scrap? (p : Placed) : Option Scrap :=
  match p.move with
  | .write s => some (.text s)
  | .newline => some .newline
  | .indentation => some (.indentation p.around)
  | .label v => some (.label v)
  | .name _ | .splice _ | .further | .level _ | .leave | .setAside | .keep _ | .note _ _ => none

theorem Draft.output_foldl {ps : List Placed} (h : ∀ p ∈ ps, p.move.draws = true) (d : Draft) :
    (ps.foldl Draft.move d).output = d.output ++ ps.filterMap Placed.scrap? := by
  induction ps generalizing d with
  | nil => exact (List.append_nil _).symm
  | cons p ps ih =>
    obtain ⟨hp, hps⟩ := List.forall_mem_cons.mp h
    have hmove : (d.move p).output = d.output ++ p.scrap?.toList := by
      obtain ⟨around, mv⟩ := p
      cases mv with
      | write | newline | indentation | label => rfl
      | further | level | leave => exact (List.append_nil _).symm
      | name | splice | setAside | keep | note => cases hp
    rw [List.foldl_cons, ih hps, hmove, List.append_assoc, List.filterMap_cons]
    cases p.scrap? <;> rfl

/-- What a node writes, which stands in some scopes. -/
def Node.scraps (around : List Scope) (node : Node) : List Scrap :=
  (node.placed around).filterMap Placed.scrap?

/-- The variable whose label the scrap is. -/
def Scrap.var? : Scrap → Option Var
  | text _ | indentation _ | newline => none
  | label v => some v

theorem Node.draws_placed (around : List Scope) (node : Node) :
    ∀ p ∈ node.placed around, p.move.draws = true := by
  intro p hp
  refine Node.draws_moves node p.move ?_
  rw [← Node.map_move_placed around node]
  exact List.mem_map_of_mem hp

/-- **The labels that a node writes are those of its variables**, from left to right. -/
theorem Node.filterMap_var?_scraps (around : List Scope) (node : Node) :
    (node.scraps around).filterMap Scrap.var? = node.vars := by
  rw [Node.scraps, List.filterMap_filterMap, ← Node.filterMap_moves, ← Node.map_move_placed around,
    List.filterMap_map]
  refine List.filterMap_congr fun p hp => ?_
  have hdraws := Node.draws_placed around node p hp
  obtain ⟨_, mv⟩ := p
  cases mv with
  | write | newline | indentation | label | further | level | leave => rfl
  | name | splice | setAside | keep | note => cases hdraws

/-- **A node that is rendered is its scraps put into words**, with the numbers that there are in the
    end. -/
theorem Node.output_render {config : Config} {node : Node} {c : Context}
    (h : node.render ((Context.start config).report .entered) = .ok ((), c)) :
    c.output = Scrap.output config c.names.vars (node.scraps []) ∧
      c.names.vars = (config.naming.numbered node.vars).eraseDups := by
  have hrun : Machine.run ((node.placed []).map Placed.move) (.start config) =
      .ok ⟨c, .empty, [], []⟩ := by
    rw [Node.map_move_placed, Node.run_moves]
    change (node.render ((Context.start config).report .entered)).map _ = _
    rw [h]
    rfl
  have hconfig : ∀ p k, Machine.Reaches (node.placed []) (.start config) p k →
      k.context.config = config.inside p.around :=
    fun p k hreach => ((keeps_node [] node).during (c := config) rfl hreach).1
  have hdraws := Machine.draws_run (t := c.names) (Machine.draws_start config _) hconfig hrun
    (NameTable.Extends.refl _)
  have houtput := hdraws.output
  have hnames := hdraws.names
  have hvars : (node.placed []).filterMap (·.move.var?) = node.vars := by
    rw [← Node.filterMap_moves, ← Node.map_move_placed [], List.filterMap_map]
    rfl
  rw [Draft.output_foldl (Node.draws_placed [] node)] at houtput
  rw [Draft.lookedUp_foldl, hvars] at hnames
  exact ⟨houtput, hnames⟩

section

variable (around : List Scope)

@[simp] theorem Node.scraps_text (s : String) : (Node.text s).scraps around = [.text s] := rfl

@[simp] theorem Node.scraps_var (v : Var) : (Node.var v).scraps around = [.label v] := rfl

@[simp] theorem Node.scraps_list (nodes : List Node) :
    (Node.list nodes).scraps around = nodes.flatMap (Node.scraps around) := by
  rw [Node.scraps, Node.placed]
  induction nodes with
  | nil => rfl
  | cons node nodes ih =>
    rw [Node.placedEach, List.flatten_cons, List.filterMap_append, ih, List.flatMap_cons]
    rfl

@[simp] theorem Node.scraps_sep (separator : String) (nodes : List Node) :
    (Node.sep separator nodes).scraps around =
      [.text separator].intercalate (nodes.map (Node.scraps around)) := by
  have hbefore : ∀ nodes : List Node,
      ((Node.placedEach around nodes).flatMap fun ps => ⟨around, .write separator⟩ :: ps).filterMap
          Placed.scrap? =
        (nodes.map (Node.scraps around)).flatMap ([.text separator] ++ ·) := by
    intro nodes
    induction nodes with
    | nil => rfl
    | cons node nodes ih =>
      rw [Node.placedEach, List.flatMap_cons, List.filterMap_append, ih, List.map_cons,
        List.flatMap_cons]
      rfl
  cases nodes with
  | nil => rfl
  | cons node nodes =>
    rw [Node.scraps, Node.placed, Node.placedEach, Placed.separated, List.filterMap_append, hbefore,
      List.map_cons, intercalate_cons_eq_flatMap]
    rfl

/-- **A line is an indentation, what is in it, and a newline.** -/
@[simp] theorem Node.scraps_line (node : Node) :
    (Node.within .line node).scraps around =
      .indentation around :: node.scraps (around ++ [.line]) ++ [.newline] := by
  rw [Node.scraps, Node.placed, Scope.placed, List.filterMap_append, List.filterMap_append]
  rfl

@[simp] theorem Node.scraps_further (node : Node) :
    (Node.within .further node).scraps around = node.scraps (around ++ [.further]) := by
  rw [Node.scraps, Node.placed, Scope.placed, List.filterMap_append, List.filterMap_append]
  exact List.append_nil _

end

/-! ## 4. What a module writes -/

def Word.scrap : Word → Scrap
  | text s => .text s
  | label v => .label v

/-- What is written for a line, at its depth. -/
def Line.scraps (l : Line) : List Scrap :=
  .indentation (List.replicate l.depth .further) :: l.words.map Word.scrap ++ [.newline]

mutual

/-- **An expression writes its words**, wherever it stands. -/
theorem Expr.scraps_node (around : List Scope) : ∀ e : Expr,
    e.node.scraps around = e.words.map Word.scrap
  | .var _ | .int _ => rfl
  | .call callee args => by
    simp [Expr.node, Expr.words, Expr.scraps_node around callee, Expr.map_scraps_nodes around args,
      Word.scrap]

theorem Expr.map_scraps_nodes (around : List Scope) : ∀ es : List Expr,
    (Expr.nodes es).map (Node.scraps around) = (Expr.wordsEach es).map (List.map Word.scrap)
  | [] => rfl
  | e :: es => by
    rw [Expr.nodes, Expr.wordsEach, List.map_cons, List.map_cons, Expr.scraps_node around e,
      Expr.map_scraps_nodes around es]

end

theorem Node.scraps_comp_var (around : List Scope) :
    Node.scraps around ∘ Node.var = List.map Word.scrap ∘ fun v => [.label v] := rfl

mutual

/-- **A statement inside `depth` functions writes its lines.** -/
theorem Stmt.scraps_node (depth : Nat) : ∀ s : Stmt,
    s.node.scraps (List.replicate depth .further) = (s.lines depth).flatMap Line.scraps
  | .bind _ e | .expr e | .ret e => by
    simp [Stmt.node, Stmt.lines, Line.scraps, Expr.scraps_node, Word.scrap]
  | .func name params body => by
    -- the body stands in one more scope, and that is the innermost one
    have hbody := Stmt.flatMap_scraps_nodes (depth + 1) body
    rw [List.replicate_succ'] at hbody
    simp [Stmt.node, Stmt.lines, Line.scraps, Node.scraps_comp_var, hbody, Word.scrap]

theorem Stmt.flatMap_scraps_nodes (depth : Nat) : ∀ ss : List Stmt,
    (Stmt.nodes ss).flatMap (Node.scraps (List.replicate depth .further)) =
      (Stmt.linesAll depth ss).flatMap Line.scraps
  | [] => rfl
  | s :: ss => by
    rw [Stmt.nodes, Stmt.linesAll, List.flatMap_cons, List.flatMap_append, Stmt.scraps_node depth s,
      Stmt.flatMap_scraps_nodes depth ss]

end

/-- **A module writes its lines.** -/
theorem Module.scraps_node (header : Bool) (m : Module) :
    (m.node header).scraps [] = (m.lines header).flatMap Line.scraps := by
  have himports : ∀ names : List String, (names.map Node.ofImport).flatMap (Node.scraps []) =
      (names.map Line.ofImport).flatMap Line.scraps := by
    intro names
    rw [List.flatMap_map, List.flatMap_map]
    rfl
  have hbody : (Stmt.nodes m.body).flatMap (Node.scraps []) =
      (Stmt.linesAll 0 m.body).flatMap Line.scraps := Stmt.flatMap_scraps_nodes 0 m.body
  rw [Module.node, Node.scraps_list, List.flatMap_cons, List.flatMap_cons, List.flatMap_nil,
    List.append_nil, Node.scraps_list, Node.scraps_list, hbody, Module.lines, List.flatMap_append]
  cases header with
  | true => rw [if_pos rfl, if_pos rfl, himports]
  | false => rfl

/-! ## 5. The text of a module -/

section

variable {config : Config}

/-- **A line in words.** The steps inwards around it add up to its depth. -/
theorem Line.join_scraps (hlevel : config.indentLevel ≤ maxDepth) (vars : List Var) (l : Line) :
    String.join (l.scraps.map (Scrap.words config vars)) =
      l.text config fun v => config.naming.spelling v (vars.idxOf v) := by
  have hdepth : config.depthIn (List.replicate l.depth .further) =
      min maxDepth (config.indentLevel + l.depth * config.indentStep) := by
    have hstart : config.depthIn [] ≤ maxDepth := hlevel
    exact Config.depthIn_append_replicate hstart l.depth
  have hwords : (l.words.map Word.scrap).map (Scrap.words config vars) =
      l.words.map (Word.spelt fun v => config.naming.spelling v (vars.idxOf v)) := by
    rw [List.map_map]
    refine List.map_congr_left fun w _ => ?_
    cases w <;> rfl
  rw [Line.scraps, List.map_append, List.map_cons, hwords, String.join_append, String.join_cons,
    Scrap.words, hdepth, List.map_singleton, String.join_cons, String.join_nil, String.append_empty]
  rfl

theorem Line.join_flatMap_scraps (hlevel : config.indentLevel ≤ maxDepth) (vars : List Var)
    (ls : List Line) :
    String.join ((ls.flatMap Line.scraps).map (Scrap.words config vars)) =
      String.join (ls.map (Line.text config fun v => config.naming.spelling v (vars.idxOf v))) := by
  induction ls with
  | nil => rfl
  | cons l ls ih =>
    rw [List.flatMap_cons, List.map_append, String.join_append, ih, Line.join_scraps hlevel,
      List.map_cons, String.join_cons]

/-- The labels written for lines are those of their variables. -/
theorem Line.filterMap_scraps (ls : List Line) :
    (ls.flatMap Line.scraps).filterMap Scrap.var? = ls.flatMap Line.vars := by
  induction ls with
  | nil => rfl
  | cons l ls ih =>
    have hwords : (l.words.map Word.scrap).filterMap Scrap.var? = l.vars := by
      rw [List.filterMap_map]
      refine List.filterMap_congr fun w _ => ?_
      cases w <;> rfl
    rw [List.flatMap_cons, List.filterMap_append, ih, List.flatMap_cons, Line.scraps,
      List.filterMap_append, List.filterMap_cons_none rfl, hwords]
    exact congrArg (· ++ _) (List.append_nil _)

/-- Labels, with the origin beside them or alone, number whatever is not foreign. -/
theorem Naming.numbered_eq_filter {n : Naming} (hn : n = .compact ∨ n = .pretty) (vs : List Var) :
    n.numbered vs = vs.filter fun v => !v.isForeign := by
  refine List.filter_congr fun v _ => ?_
  rcases hn with rfl | rfl
  · cases v <;> rfl
  · cases v <;> rfl

/-- **The text of a module is that of its lines**: those of the imports first, where headers are written,
    and then those of the statements, in their order. Each line is indented by the depth at the start,
    which is a word as all depths are, and one step for each function around it, as far as depths go.
    Its words stand as they are in the tree, each variable by the label that it has in the end, when
    nothing more is numbered for it; and a newline comes after it where lines end. The variables are
    numbered, from 0 on, as they first come up in the lines, if the strategy numbers them; under the two
    presets that number variables these are all that are not foreign. -/
theorem Module.text_lines {m : Module} {o : Outcome Unit} (hlevel : config.indentLevel ≤ maxDepth)
    (h : Emit.run config (render m) = .ok o) :
    (∃ label : Var → String,
      (∀ v ∈ (m.lines config.header).flatMap Line.vars, ∀ log,
        config.naming.label v ⟨o.names, log⟩ = .ok (label v, ⟨o.names, log⟩)) ∧
      renderToString config m =
        .ok (String.join ((m.lines config.header).map (Line.text config label)))) ∧
    o.names.entries =
      (config.naming.numbered ((m.lines config.header).flatMap Line.vars)).eraseDups.zipIdx ∧
    (config.naming = .compact ∨ config.naming = .pretty →
      o.names.entries =
        (((m.lines config.header).flatMap Line.vars).filter
          fun v => !v.isForeign).eraseDups.zipIdx) := by
  have hstring : renderToString config m = .ok o.text := by
    rw [renderToString, h]
    rfl
  rw [Emit.run_apply, Module.render_eq] at h
  have hheader : ((Context.start config).report .entered).config.header = config.header := rfl
  rw [hheader] at h
  obtain ⟨⟨⟨⟩, c⟩, hrender, hfinish⟩ := bind_eq_ok_iff.mp h
  obtain ⟨o', hcontext, rfl⟩ := map_eq_ok_iff.mp hfinish
  obtain ⟨-, rfl⟩ := Context.of_finish_eq_ok hcontext
  obtain ⟨houtput, hnames⟩ := Node.output_render hrender
  rw [← Node.filterMap_var?_scraps [], Module.scraps_node, Line.filterMap_scraps] at hnames
  have hentries : c.names.entries =
      (config.naming.numbered ((m.lines config.header).flatMap Line.vars)).eraseDups.zipIdx := by
    rw [NameTable.entries_eq_zipIdx, hnames]
  refine ⟨⟨fun v => config.naming.spelling v (c.names.vars.idxOf v), fun v hv log => ?_, ?_⟩,
    hentries, fun hnaming => ?_⟩
  · refine Naming.label_of_mem fun hnum => ?_
    change v ∈ c.names.vars
    rw [Naming.numbers_eq_numbersOrigin] at hnum
    rw [hnames, List.mem_eraseDups]
    exact List.mem_filter.mpr ⟨hv, hnum⟩
  · rw [hstring, ← Line.join_flatMap_scraps hlevel, ← Module.scraps_node, ← Scrap.text_output]
    exact congrArg (fun o : Output => Except.ok o.text) houtput
  · rw [← Naming.numbered_eq_filter hnaming]
    exact hentries

end

/-- A function in a function, begun at depth 1 with steps of two. -/
theorem Module.text_lines_nested :
    let g := Var.internal "g"
    let y := Var.internal "y"
    let m : Module := ⟨["List"],
      [.func (.internal "f") [.internal "x", y]
          [.func g [] [.ret (.call (.var (.foreign "log")) [.var y, .int (-2)])],
            .bind (.internal "z") (.var (.external "List" "map"))],
        .expr (.var g)]⟩
    let config :=
      { Config.compact with indentLevel := 1, indentStep := 2, indentUnit := "-", newlines := true }
    ∃ o, Emit.run config (render m) = .ok o ∧
      (∃ label : Var → String,
        (∀ log, config.naming.label y ⟨o.names, log⟩ = .ok (label y, ⟨o.names, log⟩)) ∧
        renderToString config m =
          .ok (String.join ((m.lines true).map (Line.text config label)))) ∧
      renderToString config m =
        .ok ("-import List;\n-function _0(_1,_2)\x7b\n---function _3()\x7b\n" ++
          "-----return log(_2,-2);\n---\x7d\n---let _4=_5;\n-\x7d\n-_3;\n") ∧
      (m.lines true).map Line.depth = [0, 0, 1, 2, 1, 1, 0, 0] ∧
      o.names.entries =
        [(.internal "f", 0), (.internal "x", 1), (y, 2), (g, 3), (.internal "z", 4),
          (.external "List" "map", 5)] := by
  intro g y m config
  have hok : (Emit.run config (render m)).isOk = true := by decide +kernel
  obtain ⟨o, h⟩ := exists_of_isOk hok
  obtain ⟨⟨label, hlabel, htext⟩, -, hentries⟩ := Module.text_lines (by decide) h
  refine ⟨o, h, ⟨label, hlabel y (by decide), htext⟩, by decide +kernel, by decide, ?_⟩
  rw [hentries (.inl rfl)]
  decide

end Emission
