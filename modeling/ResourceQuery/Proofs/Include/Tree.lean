import Mathlib.Data.List.Induction
import ResourceQuery.Include.Tree
import ResourceQuery.Proofs.Routed

/-!
# The tree of included relations

The tree that is made entry by entry is the one that is made level by level: its nodes are the names
that paths start with, in the order of their first mention, and behind each of them stands the tree
of the entries behind it.

* `IncludeTree.ofItems_eq`: the tree, level by level;
* `IncludeTree.below`: the nodes behind a path of names;
* `IncludeTree.Follows`: what the nodes of a tree have to do with the entries;
* `IncludeTree.Reordered`: trees that differ in the order of their nodes alone;
* `IncludeTree.ofPaths_follows`: the tree of some entries.
-/

namespace ResourceQuery

/-- The path of an entry with its refinement. -/
def IncludedPath.routed (p : IncludedPath) : List String × Option Refinement :=
  (p.relations, p.refinement)

namespace IncludeTree

open Routed

variable {name : String} {names : List String} {nodes : List IncludeNode}
  {node node' : String → IncludeNode} {items items' : Routed (Option Refinement)}
  {change : Option Refinement × List IncludeNode → Option Refinement × List IncludeNode}

/-! ## One more path -/

/-- A node with its refinement and the nodes behind it changed. -/
def changed (change : Option Refinement × List IncludeNode → Option Refinement × List IncludeNode)
    (node : IncludeNode) : IncludeNode :=
  let (refinement, children) := change (node.refinement, node.children)
  .mk node.name refinement children

theorem update_cons (first : IncludeNode) :
    update name change (first :: nodes) =
      if first.name = name then changed change first :: nodes
      else first :: update name change nodes := by
  cases first
  rfl

/-- The one node of a name that is there is changed, and all others stay. -/
theorem update_map_of_mem (hnode : ∀ name, (node name).name = name) (hnames : names.Nodup)
    (hname : name ∈ names) (hchanged : node' name = changed change (node name))
    (hsame : ∀ other, other ≠ name → node' other = node other) :
    update name change (names.map node) = names.map node' := by
  induction names with
  | nil => cases hname
  | cons first names ih =>
    obtain ⟨hfirst, hnames⟩ := List.nodup_cons.1 hnames
    rw [List.map_cons, List.map_cons, update_cons, hnode]
    split
    · next heq =>
      subst heq
      have hrest : names.map node = names.map node' := by
        refine List.map_congr_left fun other hother => (hsame other ?_).symm
        rintro rfl
        exact hfirst hother
      rw [hchanged, hrest]
    · next hne =>
      rw [hsame first hne, ih hnames ((List.mem_cons.1 hname).resolve_left fun h => hne h.symm)]

/-- A name that is not there gets a node at the end. -/
theorem update_map_of_not_mem (hnode : ∀ name, (node name).name = name) (hname : name ∉ names) :
    update name change (names.map node) =
      names.map node ++ [changed change (.mk name none [])] := by
  induction names with
  | nil => rfl
  | cons first names ih =>
    rw [List.mem_cons, not_or] at hname
    rw [List.map_cons, update_cons, hnode, if_neg fun h => hname.1 h.symm, ih hname.2,
      List.cons_append]

theorem insert_cons (refinement : Option Refinement) (name : String) (rest : List String)
    (nodes : List IncludeNode) :
    insert refinement (name :: rest) nodes = update name (fun (old, children) =>
      (if rest = [] then refinement.or old else old, insert refinement rest children)) nodes := by
  cases rest <;> rfl

/-! ## The tree, level by level -/

/-- The tree of refinements at the ends of paths. -/
def ofItems (items : Routed (Option Refinement)) : List IncludeNode :=
  items.foldl (fun nodes x => insert x.2 x.1 nodes) []

theorem ofPaths_eq (paths : List IncludedPath) :
    ofPaths paths = ofItems (paths.map (·.routed)) := by
  rw [ofItems, List.foldl_map]
  rfl

theorem ofItems_concat (items : Routed (Option Refinement)) (x : List String × Option Refinement) :
    ofItems (items ++ [x]) = insert x.2 x.1 (ofItems items) := List.foldl_concat ..

/-- The node of a name. -/
def nodeOf (items : Routed (Option Refinement)) (name : String) : IncludeNode :=
  .mk name (given [name] items).getLast? (ofItems (behind name items))

/-- Another path leaves the node of a name as it is. -/
theorem nodeOf_concat_of_ne {x : List String × Option Refinement} (h : x.1.head? ≠ some name) :
    nodeOf (items ++ [x]) name = nodeOf items name := by
  have hpath : x.1 ≠ [name] := by
    rintro hx
    simp [hx] at h
  rw [nodeOf, nodeOf, given_concat_of_ne hpath, behind_concat_of_ne h]

/-- A path that starts with the name of a node changes the node. -/
theorem nodeOf_concat (rest : List String) (refinement : Option Refinement) :
    nodeOf (items ++ [(name :: rest, refinement)]) name =
      changed (fun (old, children) => (if rest = [] then refinement.or old else old,
        insert refinement rest children)) (nodeOf items name) := by
  rw [nodeOf, behind_concat, ofItems_concat]
  by_cases hrest : rest = []
  · subst hrest
    rw [given_concat]
    cases refinement <;> simp [changed, nodeOf, IncludeNode.refinement, IncludeNode.name,
      IncludeNode.children]
  · rw [given_concat_of_ne (by simpa using hrest)]
    simp [changed, nodeOf, IncludeNode.refinement, IncludeNode.name, IncludeNode.children, hrest]

/-- The node of a name that no path starts with. -/
theorem nodeOf_of_not_mem (h : name ∉ heads items) : nodeOf items name = .mk name none [] := by
  rw [nodeOf, ← given_behind, behind_eq_nil h]
  rfl

/-- **Level by level.** The nodes are the names that paths start with, in the order of their first
mention, each with the last refinement of the path that ends there and the tree of what is behind
it. -/
theorem ofItems_eq (items : Routed (Option Refinement)) :
    ofItems items = (heads items).eraseDups.map (nodeOf items) := by
  induction items using List.reverseRecOn with
  | nil => rfl
  | append_singleton items x ih =>
    obtain ⟨_ | ⟨name, rest⟩, refinement⟩ := x
    · rw [ofItems_concat, ih, heads_concat_here]
      exact List.map_congr_left fun name _ => (nodeOf_concat_of_ne (by simp)).symm
    · have hother : ∀ other, other ≠ name →
          nodeOf (items ++ [(name :: rest, refinement)]) other = nodeOf items other :=
        fun other hne => nodeOf_concat_of_ne (by simpa using hne.symm)
      rw [ofItems_concat, ih, insert_cons, heads_concat_behind, eraseDups_concat]
      by_cases hmem : name ∈ heads items
      · rw [if_pos hmem]
        exact update_map_of_mem (fun _ => rfl) (nodup_eraseDups _) (List.mem_eraseDups.2 hmem)
          (nodeOf_concat rest refinement) hother
      · have hname : name ∉ (heads items).eraseDups := fun h => hmem (List.mem_eraseDups.1 h)
        rw [if_neg hmem, update_map_of_not_mem (fun _ => rfl) hname, List.map_append,
          List.map_singleton, nodeOf_concat, nodeOf_of_not_mem hmem]
        refine congrArg (· ++ _) (List.map_congr_left fun other hmem' => (hother other ?_).symm)
        rintro rfl
        exact hname hmem'

/-! ## The nodes behind a path -/

/-- The nodes behind a path of names. -/
def below : List String → List IncludeNode → List IncludeNode
  | [], nodes => nodes
  | name :: rest, nodes =>
    (nodes.filter (·.name = name)).flatMap fun node => below rest node.children

theorem below_ofItems (path : List String) (items : Routed (Option Refinement)) :
    below path (ofItems items) = ofItems (behindAll path items) := by
  induction path generalizing items with
  | nil => rfl
  | cons name rest ih =>
    rw [below, behindAll, ofItems_eq items, filter_key_map (fun _ => rfl) (nodup_eraseDups _)]
    split
    · rw [List.flatMap_singleton]
      exact ih (behind name items)
    · next hname =>
      rw [behind_eq_nil fun h => hname (List.mem_eraseDups.2 h), behindAll_nil]
      rfl

/-- The refinements that some entries give for exactly a path, in their order. -/
def refinementsOf (path : List String) (paths : List IncludedPath) : List Refinement :=
  (paths.filter (·.relations = path)).filterMap (·.refinement)

/-- The names that stand behind a path in those of some entries, in their order. -/
def namesAfter (path : List String) (paths : List IncludedPath) : List String :=
  (paths.filter (path <+: ·.relations)).filterMap (·.relations[path.length]?)

/-- What the nodes of a tree have to do with the entries of an include parameter. -/
structure Follows (paths : List IncludedPath) (nodes : List IncludeNode) : Prop where
  /-- There is one node for a path that an entry asks for or leads through, and none for others. -/
  once (path : List String) (name : String) :
    ((below path nodes).filter (·.name = name)).length =
      if ∃ p ∈ paths, path ++ [name] <+: p.relations then 1 else 0
  /-- A node has the last refinement that is given for exactly its path. -/
  refinement (path : List String) : ∀ node ∈ below path nodes,
    node.refinement = (refinementsOf (path ++ [node.name]) paths).getLast?
  /-- The nodes behind a path are in the order of their first mention. -/
  order (path : List String) : (below path nodes).map (·.name) = (namesAfter path paths).eraseDups

theorem given_routed (path : List String) (paths : List IncludedPath) :
    given path (paths.map (·.routed)) = refinementsOf path paths := by
  rw [given, List.filter_map, List.filterMap_map]
  rfl

theorem heads_routed (path : List String) (paths : List IncludedPath) :
    heads (behindAll path (paths.map (·.routed))) = namesAfter path paths := by
  rw [heads_behindAll, List.filter_map, List.filterMap_map]
  rfl

theorem mem_namesAfter {path : List String} {paths : List IncludedPath} :
    name ∈ namesAfter path paths ↔ ∃ p ∈ paths, path ++ [name] <+: p.relations := by
  rw [← heads_routed, mem_heads_behindAll]
  simp [IncludedPath.routed]

theorem follows (paths : List IncludedPath) : Follows paths (ofPaths paths) where
  once path name := by
    rw [ofPaths_eq, below_ofItems, ofItems_eq, filter_key_map (fun _ => rfl) (nodup_eraseDups _),
      heads_routed]
    simp only [List.mem_eraseDups, mem_namesAfter]
    split <;> rfl
  refinement path node hnode := by
    rw [ofPaths_eq, below_ofItems, ofItems_eq, List.mem_map] at hnode
    obtain ⟨name, -, rfl⟩ := hnode
    rw [← given_routed, nodeOf, given_behindAll]
    rfl
  order path := by
    rw [ofPaths_eq, below_ofItems, ofItems_eq, List.map_map, heads_routed]
    exact List.map_id _

/-! ## The order of the entries -/

/-- Trees that differ in the order of the nodes at their levels alone. -/
inductive Reordered : List IncludeNode → List IncludeNode → Prop
  | nil : Reordered [] []
  | cons (name : String) (refinement : Option Refinement) {children children' nodes nodes' :
      List IncludeNode} (hchildren : Reordered children children')
    (hnodes : Reordered nodes nodes') :
    Reordered (.mk name refinement children :: nodes) (.mk name refinement children' :: nodes')
  | swap (a b : IncludeNode) (nodes : List IncludeNode) :
    Reordered (a :: b :: nodes) (b :: a :: nodes)
  | trans {nodes nodes' nodes'' : List IncludeNode} (h : Reordered nodes nodes')
      (h' : Reordered nodes' nodes'') : Reordered nodes nodes''

theorem Reordered.refl : ∀ nodes : List IncludeNode, Reordered nodes nodes
  | [] => .nil
  | .mk name refinement children :: rest => .cons name refinement (refl children) (refl rest)

theorem Reordered.of_perm {nodes nodes' : List IncludeNode} (h : nodes.Perm nodes') :
    Reordered nodes nodes' := by
  induction h with
  | nil => exact .nil
  | cons node _ ih =>
    obtain ⟨name, refinement, children⟩ := node
    exact .cons name refinement (.refl children) ih
  | swap a b nodes => exact .swap b a nodes
  | trans _ _ ih ih' => exact ih.trans ih'

/-- Whether no path is given two refinements. -/
def RefinedOnce (paths : List IncludedPath) : Prop :=
  paths.Pairwise fun p q => p.refinement.isSome → q.refinement.isSome → p.relations ≠ q.relations

instance (paths : List IncludedPath) : Decidable (RefinedOnce paths) :=
  inferInstanceAs (Decidable (List.Pairwise _ _))

theorem RefinedOnce.length_le {paths : List IncludedPath} (h : RefinedOnce paths)
    (path : List String) : (refinementsOf path paths).length ≤ 1 := by
  induction paths with
  | nil => simp [refinementsOf]
  | cons p rest ih =>
    obtain ⟨hp, hrest⟩ := List.pairwise_cons.1 h
    specialize ih hrest
    by_cases hpath : p.relations = path
    · cases hrefinement : p.refinement with
      | none => simpa [refinementsOf, hpath, hrefinement] using ih
      | some refinement =>
        -- the entries after a refined one have other paths, or no refinement
        have hnone : refinementsOf path rest = [] := by
          simp only [refinementsOf, List.filterMap_eq_nil_iff, List.mem_filter, and_imp]
          intro q hq hsame
          have := hp q hq (by simp [hrefinement])
          simpa [hpath, of_decide_eq_true hsame] using this
        simpa [refinementsOf, hpath, hrefinement] using congrArg List.length hnone
    · simpa [refinementsOf, hpath] using ih

theorem reordered_map {names : List String} (h : ∀ name ∈ names,
      (given [name] items).getLast? = (given [name] items').getLast? ∧
        Reordered (ofItems (behind name items)) (ofItems (behind name items'))) :
    Reordered (names.map (nodeOf items)) (names.map (nodeOf items')) := by
  induction names with
  | nil => exact .nil
  | cons name names ih =>
    rw [List.forall_mem_cons] at h
    rw [List.map_cons, List.map_cons, nodeOf, nodeOf, h.1.1]
    exact .cons _ _ h.1.2 (ih h.2)

theorem reordered_ofItems {n : Nat} (hn : ∀ x ∈ items, x.1.length ≤ n)
    (honce : ∀ path, (given path items).length ≤ 1) (h : items.Perm items') :
    Reordered (ofItems items) (ofItems items') := by
  induction n generalizing items items' with
  | zero =>
    have hn' : ∀ x ∈ items', x.1.length ≤ 0 := fun x hx => hn x (h.mem_iff.2 hx)
    rw [ofItems_eq items, ofItems_eq items', heads_eq_nil hn, heads_eq_nil hn']
    exact .nil
  | succ n ih =>
    rw [ofItems_eq items, ofItems_eq items']
    refine .trans (reordered_map fun name _ => ⟨?_, ?_⟩)
      (.of_perm ((eraseDups_perm (heads_perm h)).map (nodeOf items')))
    · rw [eq_of_perm_of_length_le_one (given_perm [name] h) (honce [name])]
    · refine ih (length_behind_le hn) (fun path => ?_) (behind_perm name h)
      rw [given_behind]
      exact honce (name :: path)

/-- **The tree of some entries** has one node for every path that an entry asks for or leads
through, with the last refinement that is given for exactly this path, and nodes side by side are in
the order of their first mention. When no path is given two refinements, the entries in any other
order make the same tree, but for the order of nodes side by side. -/
theorem ofPaths_follows (paths : List IncludedPath) :
    Follows paths (ofPaths paths) ∧ ∀ paths', paths.Perm paths' → RefinedOnce paths →
      Reordered (ofPaths paths) (ofPaths paths') := by
  refine ⟨follows paths, fun paths' hperm honce => ?_⟩
  obtain ⟨n, hn⟩ := exists_length_le (paths.map (·.routed))
  rw [ofPaths_eq, ofPaths_eq]
  refine reordered_ofItems hn (fun path => ?_) (hperm.map _)
  rw [given_routed]
  exact honce.length_le path

end IncludeTree

namespace Sample

open IncludeTree

/-- A refined path behind a refined one, and entries that lead through both of them. -/
def categoryEntries : List IncludedPath :=
  [⟨["children", "posts", "tags"], none⟩,
    ⟨["posts"], some ⟨.function "function", [.filterBy [("is_draft", .bool false)]]⟩⟩,
    ⟨["children"], some ⟨.function "function", [.compare "rank" .lt (.int 5)]⟩⟩,
    ⟨["children", "posts"], none⟩]

theorem tree_categoryEntries :
    RefinedOnce categoryEntries ∧ Follows categoryEntries (ofPaths categoryEntries) ∧
      Reordered (ofPaths categoryEntries) (ofPaths categoryEntries.reverse) := by
  have honce : RefinedOnce categoryEntries := by decide
  obtain ⟨hfollows, hreordered⟩ := ofPaths_follows categoryEntries
  exact ⟨honce, hfollows, hreordered _ (List.reverse_perm _).symm honce⟩

end Sample

end ResourceQuery
