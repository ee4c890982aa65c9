import ResourceQuery.Include

/-!
# Trees of included relations

Paths of relations that start alike are loaded together. A tree has one node for every path that
some entry asks for or leads through.

* `IncludeNode`: a relation, the refinement of its rows, and the relations behind it;
* `IncludeTree.insert`: a tree with one more path;
* `IncludeTree.ofPaths`: the tree of some entries, where the last refinement of a path counts.
-/

namespace ResourceQuery

/-- A relation to load, the refinement of its rows, and the relations to load behind it. -/
inductive IncludeNode
  | mk (name : String) (refinement : Option Refinement) (children : List IncludeNode)
deriving Inhabited

namespace IncludeNode

/-- The name of the relation, as it is requested. -/
def name : IncludeNode → String
  | mk name _ _ => name

/-- The refinement of the related rows. -/
def refinement : IncludeNode → Option Refinement
  | mk _ refinement _ => refinement

/-- The relations behind this one. -/
def children : IncludeNode → List IncludeNode
  | mk _ _ children => children

end IncludeNode

namespace IncludeTree

/-- The nodes with the one of a name changed; a name that is not there gets a node at the end. -/
def update (name : String) (change : Option Refinement × List IncludeNode →
    Option Refinement × List IncludeNode) : List IncludeNode → List IncludeNode
  | [] =>
    let (refinement, children) := change (none, [])
    [.mk name refinement children]
  | .mk other refinement children :: rest =>
    if other = name then
      let (refinement, children) := change (refinement, children)
      .mk other refinement children :: rest
    else .mk other refinement children :: update name change rest

/-- A tree with one more path. The refinement, if there is one, is for the last relation of the
path. -/
def insert (refinement : Option Refinement) : List String → List IncludeNode → List IncludeNode
  | [], nodes => nodes
  | [name], nodes =>
    update name (fun (old, children) => (refinement.or old, children)) nodes
  | name :: next :: rest, nodes =>
    update name (fun (old, children) => (old, insert refinement (next :: rest) children)) nodes

/-- The tree of some entries. -/
def ofPaths (paths : List IncludedPath) : List IncludeNode :=
  paths.foldl (fun nodes p => insert p.refinement p.relations nodes) []

end IncludeTree

end ResourceQuery
