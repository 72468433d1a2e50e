import PostureAudit.Yaml.Tree

set_option autoImplicit false

/-! # Nodes

The node of a document is its tree with every alias replaced by the tree that it means. Two limits
keep it finite: how deep collections are nested, and how many aliases are followed, which depends
on what the tree weighs. A document that goes over one of them has no node, nor has one in which an
alias means a tree around itself. -/

namespace PostureAudit.Yaml

/-- A node of a document, with its tag if it has one. -/
inductive Node where
  | scalar (tag : Option Text) (style : ScalarStyle) (value : Text)
  | sequence (tag : Option Text) (items : List Node)
  | mapping (tag : Option Text) (entries : List (Node × Node))
  deriving Repr

namespace Tree

/-- How deep the collections of a node may be nested. -/
def maxDepth : Nat := 128

/-- How many aliases may be followed in a tree, those in the trees that aliases mean included. -/
def maxAliases (t : Tree) : Nat := 100 * t.weight

/-- The tree that stands at a place, which an alias takes from the `anchored` ones. The state is
    the number of aliases that may still be followed. -/
def follow (anchored : List (Nat × Tree)) : Tree → StateT Nat Option Tree
  | .alias number => fun left =>
    if left = 0 then none else (anchored.lookup number).map (·, left - 1)
  | t => pure t

/-- The node of a tree, in which collections are nested at most so many deep. -/
def expand (anchored : List (Nat × Tree)) : Nat → Tree → StateT Nat Option Node
  | 0, t => do
    match ← follow anchored t with
    | .scalar p style value => return .scalar p.tag style value
    | _ => failure
  | depth + 1, t => do
    match ← follow anchored t with
    | .alias _ => failure
    | .scalar p style value => return .scalar p.tag style value
    | .sequence p items => return .sequence p.tag (← items.mapM (expand anchored depth))
    | .mapping p entries =>
      return .mapping p.tag (← entries.mapM fun (key, value) => do
        return (← expand anchored depth key, ← expand anchored depth value))

def node? (t : Tree) : Option Node := (expand t.anchored maxDepth t).run' t.maxAliases

end Tree

/-- The node of a source, if the source is well-formed and holds one document at most. -/
def parse? (t : Text) : Option Node := ((tokens? t).bind Tree.ofTokens?).bind Tree.node?

end PostureAudit.Yaml
