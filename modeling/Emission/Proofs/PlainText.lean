import Emission.Program.Exec
import Emission.Proofs.Spelling
import Mathlib.Logic.Function.Basic

/-!
# The plain reading of a program

A program can be read without any of the machinery of a run: the output is one string, writing is
putting strings together, and the configuration in force is handed down to the body of a scope
instead of being changed and put back. This file is that reading (`PlainText.run`); it never fails.

A run that does not fail agrees with it in everything but the number of pieces, which plain text does
not have: `Emission.Proofs.PlainText.Agreement`.
-/

namespace Emission

namespace PlainText

/-! ## 1. Pages, and what is written on them -/

/-- What there is in the middle of a reading: the text so far, and the variables that have a number,
    in the order of their numbers. -/
structure Page where
  text : String
  names : List Var

/-- The page with `s` written at its end. -/
def Page.write (s : String) (page : Page) : Page :=
  { page with text := page.text ++ s }

/-- The label of `v`, and the page on which `v` has its number. -/
def label (cfg : Config) (v : Var) (page : Page) : String × Page :=
  let names := if cfg.naming.numbers v then enlist page.names v else page.names
  (cfg.naming.spelling v (names.idxOf v), { page with names })

/-- Writes the label of `v`. -/
def writeVar (cfg : Config) (v : Var) (page : Page) : Page :=
  let (l, page) := label cfg v page
  page.write l

/-- The configuration inside a scope. -/
def inner (cfg : Config) : Scope → Config
  | .indent | .line => cfg
  | .further => { cfg with indentLevel := cfg.further }
  | .level n => { cfg with indentLevel := n }

/-- What a scope writes before its body. -/
def lead (cfg : Config) : Scope → String
  | .indent | .line => Text.copies cfg.indentUnit cfg.indentLevel
  | .further | .level _ => ""

/-- The newline, where lines end. -/
def ending (cfg : Config) : String :=
  if cfg.newlines then "\n" else ""

/-- What a scope writes after its body. -/
def close (cfg : Config) : Scope → String
  | .line => ending cfg
  | .indent | .further | .level _ => ""

mutual

/-- Writes a node. -/
def node (cfg : Config) : Node → Page → Page
  | .text s, page | .literal s, page => page.write s
  | .var v, page => writeVar cfg v page
  | .list ns, page => nodes cfg "" "" ns page
  | .absent, page => page
  | .present n, page | .boxed n, page | .ref n, page => node cfg n page
  | .within scope n, page =>
    (node (inner cfg scope) n (page.write (lead cfg scope))).write (close cfg scope)
  | .sep separator ns, page => nodes cfg "" separator ns page

/-- Writes nodes, with `first` before the first of them and `between` before each other. -/
def nodes (cfg : Config) (first between : String) : List Node → Page → Page
  | [], page => page
  | n :: ns, page => nodes cfg between between ns (node cfg n (page.write first))

end

/-! ## 2. Steps, and what is noted about them -/

/-- A reading of a program: the page, the texts kept by captures (nothing is kept under a name unless
    it was captured and not yet written), and the trace. -/
structure Reading where
  page : Page
  kept : String → String
  trace : List Entry

/-- A reading starts with nothing. -/
def Reading.start : Reading := ⟨⟨"", []⟩, fun _ => "", []⟩

/-- One more entry in the trace; plain text has no pieces to count. -/
def Reading.note (cfg : Config) (moment : Moment) (answer : Answer) (r : Reading) : Reading :=
  { r with
    trace := r.trace ++
      [⟨moment, r.page.text.utf8ByteSize, 0, cfg.indentLevel, r.page.names.length, answer⟩] }

/-- Changes the page. -/
def Reading.onPage (f : Page → Page) (r : Reading) : Reading :=
  { r with page := f r.page }

/-- Does an act, and gives its answer. -/
def act (cfg : Config) (r : Reading) : Act → Answer × Reading
  | .emit _ s => (.nothing, r.onPage (·.write s))
  | .newline => (.nothing, r.onPage (·.write (ending cfg)))
  | .var v => (.nothing, r.onPage (writeVar cfg v))
  | .name v => (.text (label cfg v r.page).1, { r with page := (label cfg v r.page).2 })
  | .get v => (.id? (r.page.names.idxOf? v), r)
  | .width => (.width cfg.indentWidth, r)
  | .config => (.config cfg, r)
  | .output => (.text r.page.text, r)
  | .splice key =>
    (.nothing, { r with
      page := r.page.write (r.kept key)
      kept := Function.update r.kept key "" })
  | .render n => (.nothing, r.onPage (node cfg n))
  | .sep items separator => (.nothing, r.onPage (nodes cfg "" separator items))

mutual

/-- Runs a step, and notes its answer. -/
def step (cfg : Config) : Step → Reading → Reading
  | .act a, r =>
    let (answer, r) := act cfg r a
    r.note cfg (.done a.deed) answer
  | .within scope body, r =>
    let r := r.onPage (·.write (lead cfg scope))
    let r := r.note (inner cfg scope) (.entered scope.deed) .nothing
    let r := steps (inner cfg scope) body r
    (r.onPage (·.write (close cfg scope))).note cfg (.done scope.deed) (.body r.trace.length)
  | .header body, r =>
    if cfg.header then
      let r := steps cfg body (r.note cfg (.entered .header) .nothing)
      r.note cfg (.done .header) (.header r.trace.length)
    else r.note cfg (.done .header) (.header none)
  | .capture key body, r =>
    let outer := r.page.text
    let r := { r with page.text := "" }
    let r := steps cfg body (r.note cfg (.entered .capture) .nothing)
    let captured := r.page.text
    let r := { r with page.text := outer, kept := Function.update r.kept key captured }
    r.note cfg (.done .capture) (.capture r.trace.length captured 0)

/-- Runs steps in order. -/
def steps (cfg : Config) : List Step → Reading → Reading
  | [], r => r
  | s :: ss, r => steps cfg ss (step cfg s r)

end

/-- The plain reading of a program. -/
def run (cfg : Config) (p : Program) : Reading :=
  steps cfg p .start

end PlainText

end Emission
