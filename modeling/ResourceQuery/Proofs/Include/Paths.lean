import ResourceQuery.Include.Load
import ResourceQuery.Proofs.Include.Tree
import ResourceQuery.Proofs.Sort.Joins

/-!
# The paths of a tree of included relations

A tree has the path of every entry that it is made of, and compiling it looks up every relation of
these paths on the entity that the relations before it lead to.

* `IncludeTree.Covers`: the paths of a tree;
* `IncludeTree.covers_ofPaths`: the tree of some entries;
* `IncludeCompiler.loads?_eq_mapM`, `IncludeCompiler.load?_eq_ok`: the loads of a tree, node by
  node;
* `IncludeCompiler.exists_target?_of_loads?`: where the paths of a tree that compiles lead.
-/

namespace ResourceQuery

namespace IncludeTree

open Routed

/-- Whether a path of relations starts at the top of a tree. -/
def Covers : List String → List IncludeNode → Prop
  | [], _ => True
  | name :: rest, nodes => ∃ node ∈ nodes, node.name = name ∧ Covers rest node.children

theorem covers_ofItems {path : List String} {refinement : Option Refinement}
    {items : Routed (Option Refinement)} (h : (path, refinement) ∈ items) :
    Covers path (ofItems items) := by
  induction path generalizing items with
  | nil => trivial
  | cons name rest ih =>
    have hname : name ∈ (heads items).eraseDups :=
      List.mem_eraseDups.2 (mem_heads.2 ⟨rest, refinement, h⟩)
    rw [ofItems_eq]
    exact ⟨nodeOf items name, List.mem_map.2 ⟨name, hname, rfl⟩, rfl, ih (mem_behind.2 h)⟩

/-- The tree of some entries has all their paths. -/
theorem covers_ofPaths {paths : List IncludedPath} {p : IncludedPath} (hp : p ∈ paths) :
    Covers p.relations (ofPaths paths) := by
  rw [ofPaths_eq]
  exact covers_ofItems (List.mem_map.2 ⟨p, hp, rfl⟩)

end IncludeTree

namespace IncludeCompiler

variable {k : IncludeCompiler} {e : Entity} {name : String} {nodes : List IncludeNode}
  {load : RelationLoad} {loads : List RelationLoad}

theorem loads?_eq_mapM (k : IncludeCompiler) (e : Entity) (nodes : List IncludeNode) :
    k.loads? e nodes = nodes.mapM (k.load? e) := by
  induction nodes with
  | nil => rfl
  | cons node nodes ih =>
    rw [loads?, ih, List.mapM_cons]
    rfl

theorem load?_eq_ok {refinement : Option Refinement} {children : List IncludeNode} :
    k.load? e (.mk name refinement children) = .ok load ↔ ∃ r target criteria inner columns,
      k.schema.related? e (k.naming.toStorage name) = some (r, target) ∧
      k.criteria? target refinement = .ok criteria ∧ k.loads? target children = .ok inner ∧
      k.columns? r target children = .ok columns ∧
      load = .mk r e target criteria columns inner := by
  rw [load?]
  simp only [bind_eq_ok, Prod.exists, related?, Reach.related?_eq_ok]
  constructor
  · rintro ⟨r, target, hr, criteria, hcriteria, inner, hinner, columns, hcolumns, h⟩
    exact ⟨r, target, criteria, inner, columns, hr, hcriteria, hinner, hcolumns,
      (Except.ok.inj h).symm⟩
  · rintro ⟨r, target, criteria, inner, columns, hr, hcriteria, hinner, hcolumns, rfl⟩
    exact ⟨r, target, hr, criteria, hcriteria, inner, hinner, columns, hcolumns, rfl⟩

/-- Every path of a tree that compiles leads to an entity. -/
theorem exists_target?_of_loads? {path : List String} (h : k.loads? e nodes = .ok loads)
    (hpath : IncludeTree.Covers path nodes) :
    ∃ target, (SortCompiler.mk k.schema k.naming).target? e path = some target := by
  induction path generalizing e nodes loads with
  | nil => exact ⟨e, rfl⟩
  | cons name rest ih =>
    obtain ⟨⟨name, refinement, children⟩, hnode, rfl, hrest⟩ := hpath
    rw [loads?_eq_mapM] at h
    obtain ⟨load, -, hload⟩ := exists_mem_of_mapM_eq_ok h hnode
    obtain ⟨r, target, criteria, inner, columns, hr, -, hinner, -, -⟩ := load?_eq_ok.1 hload
    obtain ⟨last, hlast⟩ := ih hinner hrest
    exact ⟨last, (SortCompiler.target?_cons hr).trans hlast⟩

end IncludeCompiler

end ResourceQuery
