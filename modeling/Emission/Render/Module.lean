import Emission.Render
import Emission.Text.Decimal

/-!
# Modules

The trees of a small language with functions: expressions, statements and modules. Every statement
stands on a line of its own; the body of a function stands one step further in, between the line that
opens it and the line that closes it. The imports of a module stand before its statements, where
headers are written.
-/

namespace Emission

inductive Expr where
  | var (v : Var)
  | int (n : Int)
  | call (callee : Expr) (args : List Expr)
  deriving Repr

inductive Stmt where
  | bind (v : Var) (value : Expr)
  | expr (e : Expr)
  | ret (e : Expr)
  | func (name : Var) (params : List Var) (body : List Stmt)
  deriving Repr

structure Module where
  imports : List String
  body : List Stmt
  deriving Repr

open Emit (emit emitFixed emitOwned emitVar line further header inOrder separatedBy)

mutual

def Expr.render : Expr → Emit Unit
  | .var v => emitVar v
  | .int n => emitOwned (Text.decimal n)
  | .call callee args => do
    callee.render
    emitFixed "("
    separatedBy "," (Expr.renderings args)
    emitFixed ")"

def Expr.renderings : List Expr → List (Emit Unit)
  | [] => []
  | e :: es => e.render :: Expr.renderings es

end

instance : Render Expr := ⟨Expr.render⟩

mutual

def Stmt.render : Stmt → Emit Unit
  | .bind v value => line do
    emitFixed "let "
    emitVar v
    emitFixed "="
    value.render
    emitFixed ";"
  | .expr e => line do
    e.render
    emitFixed ";"
  | .ret e => line do
    emitFixed "return "
    e.render
    emitFixed ";"
  | .func name params body => do
    line do
      emitFixed "function "
      emitVar name
      emitFixed "("
      renderSep params ","
      emitFixed ")\x7b"
    further (inOrder (Stmt.renderings body))
    line (emitFixed "\x7d")

def Stmt.renderings : List Stmt → List (Emit Unit)
  | [] => []
  | s :: ss => s.render :: Stmt.renderings ss

end

instance : Render Stmt := ⟨Stmt.render⟩

/-- The line of an import. -/
def Module.importLine (name : String) : Emit Unit := line do
  emitFixed "import "
  emit name
  emitFixed ";"

instance : Render Module where
  render m := do
    let _ ← header (inOrder (m.imports.map Module.importLine))
    render m.body

end Emission
