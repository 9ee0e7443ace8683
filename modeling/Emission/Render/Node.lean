import Emission.Render

/-!
# Nodes

A node is a tree made of the things that can be rendered: texts, variables, lists, optional nodes,
nodes in a scope, and lists with a separator. A node can also stand behind a box or a reference; it
is rendered the same.
-/

namespace Emission

/-- A tree of things to render. -/
inductive Node where
  /-- A text that the node has for its own. -/
  | text (s : String)
  /-- A text that the node refers to. -/
  | literal (s : String)
  | var (v : Var)
  | list (nodes : List Node)
  /-- An optional node that is not there. -/
  | absent
  /-- An optional node that is there. -/
  | present (node : Node)
  | boxed (node : Node)
  | ref (node : Node)
  | within (scope : Scope) (node : Node)
  | sep (separator : String) (nodes : List Node)
  deriving Repr

mutual

/-- Writes the node. -/
def Node.render : Node → Emit Unit
  | .text s | .literal s => Emission.render s
  | .var v => Emission.render v
  | .list nodes => Emit.inOrder (Node.renderings nodes)
  | .absent => pure ()
  | .present node | .boxed node | .ref node => node.render
  | .within scope node => scope.run node.render
  | .sep separator nodes => Emit.separatedBy separator (Node.renderings nodes)

/-- The renderings of some nodes, one by one. -/
def Node.renderings : List Node → List (Emit Unit)
  | [] => []
  | node :: nodes => node.render :: Node.renderings nodes

end

instance : Render Node := ⟨Node.render⟩

theorem Node.renderings_eq_map (nodes : List Node) : Node.renderings nodes = nodes.map render := by
  induction nodes with
  | nil => rfl
  | cons node nodes ih => rw [Node.renderings, ih]; rfl

end Emission
