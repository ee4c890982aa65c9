import ResourceQuery.Proofs.Include.Merged
import ResourceQuery.Proofs.Include.Paths

/-!
# The loads of included relations

Every node of a tree is a load of its own. Nodes are told apart by requested names and relations by
stored ones, so there is one load for a relation when the entries spell it in one way.

* `IncludeCompiler.names_of_loads`: the loaded relations of a tree;
* `IncludeCompiler.exists_loadsBehind`: the loads behind a path of relations are those of the
  entries behind it;
* `RelationLoad.EachOnce`: what loads have to do with entries by stored names;
* `IncludeCompiler.loads_each_once`: entries that are spelled in one way load each relation once.
-/

namespace ResourceQuery

theorem Schema.relationship_name {s : Schema} {e target : Entity} {name : String}
    {r : Relationship} (h : s.related? e name = some (r, target)) : r.name = name := by
  simp only [Schema.related?, Option.bind_eq_some_iff, Option.map_eq_some_iff,
    Prod.mk.injEq] at h
  obtain ⟨_, hr, _, -, rfl, -⟩ := h
  simpa using List.find?_some hr

/-- An entry by stored names. -/
def IncludedPath.stored (naming : Naming) (p : IncludedPath) : IncludedPath :=
  { p with relations := p.relations.map naming.toStorage }

namespace IncludeCompiler

open IncludeTree Routed RelationLoad

variable {k : IncludeCompiler} {e : Entity} {nodes : List IncludeNode} {loads : List RelationLoad}
  {load : RelationLoad} {name : String} {items : Routed (Option Refinement)}

/-! ## Node by node -/

/-- What the load of a name is made of. -/
theorem of_load?_nodeOf (h : k.load? e (nodeOf items name) = .ok load) :
    load.relationship.name = k.naming.toStorage name ∧
      k.criteria? load.target (given [name] items).getLast? = .ok load.criteria ∧
      k.loads? load.target (ofItems (behind name items)) = .ok load.children := by
  obtain ⟨r, target, criteria, inner, columns, hr, hcriteria, hinner, -, rfl⟩ := load?_eq_ok.1 h
  exact ⟨Schema.relationship_name hr, hcriteria, hinner⟩

/-- Every load is that of a name that paths start with. -/
theorem exists_of_mem_loads (h : k.loads? e (ofItems items) = .ok loads) (hload : load ∈ loads) :
    ∃ name ∈ heads items, k.load? e (nodeOf items name) = .ok load := by
  rw [loads?_eq_mapM, ofItems_eq] at h
  obtain ⟨node, hnode, hload⟩ := exists_of_mapM_eq_ok h hload
  obtain ⟨name, hname, rfl⟩ := List.mem_map.1 hnode
  exact ⟨name, List.mem_eraseDups.1 hname, hload⟩

/-- Every name that paths start with has its load. -/
theorem exists_load_of_mem_heads (h : k.loads? e (ofItems items) = .ok loads)
    (hname : name ∈ heads items) : ∃ load ∈ loads, k.load? e (nodeOf items name) = .ok load := by
  rw [loads?_eq_mapM, ofItems_eq] at h
  exact exists_mem_of_mapM_eq_ok h
    (List.mem_map.2 ⟨name, List.mem_eraseDups.2 hname, rfl⟩)

/-- The loaded relations are those of the names that paths start with, in their order. -/
theorem names_of_loads (h : k.loads? e (ofItems items) = .ok loads) :
    loads.map (·.relationship.name) = (heads items).eraseDups.map k.naming.toStorage := by
  have hname : ∀ node ∈ ofItems items, ∀ load, k.load? e node = .ok load →
      load.relationship.name = k.naming.toStorage node.name := by
    rintro ⟨name, refinement, children⟩ - load hload
    obtain ⟨r, target, criteria, inner, columns, hr, -, -, -, rfl⟩ := load?_eq_ok.1 hload
    exact Schema.relationship_name hr
  rw [loads?_eq_mapM] at h
  rw [map_eq_of_mapM_eq_ok h hname, ofItems_eq, List.map_map]
  rfl

theorem nodup_of_loads (h : k.loads? e (ofItems items) = .ok loads)
    (hspelled : OneSpelling k.naming.toStorage items) :
    (loads.map (·.relationship.name)).Nodup := by
  rw [names_of_loads h]
  refine (nodup_eraseDups _).map_on fun a ha b hb heq => ?_
  exact hspelled.eq (List.mem_eraseDups.1 hb) (List.mem_eraseDups.1 ha) heq

/-! ## Behind a path -/

/-- The loads behind a path are those of the entries behind it. -/
theorem exists_loadsBehind (path : List String) (h : k.loads? e (ofItems items) = .ok loads)
    (hspelled : OneSpelling k.naming.toStorage items) :
    ∃ target items', OneSpelling k.naming.toStorage items' ∧
      renamed k.naming.toStorage items' = behindAll path (renamed k.naming.toStorage items) ∧
      k.loads? target (ofItems items') = .ok (loadsBehind path loads) := by
  induction path generalizing e items loads with
  | nil => exact ⟨e, items, hspelled, rfl, h⟩
  | cons stored rest ih =>
    have hnames := names_of_loads h
    by_cases hstored : stored ∈ loads.map (·.relationship.name)
    · obtain ⟨load, hload, rfl⟩ := List.mem_map.1 hstored
      obtain ⟨name, hname, hnode⟩ := exists_of_mem_loads h hload
      obtain ⟨hrelationship, -, hchildren⟩ := of_load?_nodeOf hnode
      have hbehind := behind_renamed fun other hother => hspelled.eq hname hother
      rw [loadsBehind_cons_of_mem (nodup_of_loads h hspelled) hload, hrelationship, behindAll,
        hbehind]
      exact ih hchildren (hspelled.behind name)
    · -- no entry leads through this relation
      have hheads : stored ∉ heads (renamed k.naming.toStorage items) := by
        rw [heads_renamed]
        rw [hnames] at hstored
        simpa using hstored
      refine ⟨e, [], by simp [OneSpelling], ?_, ?_⟩
      · rw [behindAll, behind_eq_nil hheads, behindAll_nil]
        rfl
      · rw [loadsBehind_cons_of_not_mem hstored]
        rfl

end IncludeCompiler

/-- What loads have to do with entries by stored names. -/
structure RelationLoad.EachOnce (k : IncludeCompiler) (paths : List IncludedPath)
    (loads : List RelationLoad) : Prop where
  /-- A relation is loaded once behind each path. -/
  once (path : List String) : ((loadsBehind path loads).map (·.relationship.name)).Nodup
  /-- What is loaded is what an entry asks for or leads through. -/
  loaded (path : List String) (name : String) :
    name ∈ (loadsBehind path loads).map (·.relationship.name) ↔
      ∃ p ∈ paths, path ++ [name] <+: p.relations
  /-- A load has the conditions of the last refinement that is given for exactly its path. -/
  refinement (path : List String) : ∀ load ∈ loadsBehind path loads,
    k.criteria? load.target
      (IncludeTree.refinementsOf (path ++ [load.relationship.name]) paths).getLast? =
        .ok load.criteria

namespace IncludeCompiler

open IncludeTree Routed RelationLoad

variable {k : IncludeCompiler} {e : Entity} {loads : List RelationLoad}
  {items : Routed (Option Refinement)}

theorem routed_stored (naming : Naming) (paths : List IncludedPath) :
    (paths.map (·.stored naming)).map (·.routed) =
      renamed naming.toStorage (paths.map (·.routed)) := by
  rw [renamed, List.map_map, List.map_map]
  rfl

theorem eachOnce_of_oneSpelling {paths : List IncludedPath}
    (h : k.loads? e (ofPaths paths) = .ok loads)
    (hspelled : OneSpelling k.naming.toStorage (paths.map (·.routed))) :
    EachOnce k (paths.map (·.stored k.naming)) loads := by
  rw [ofPaths_eq] at h
  have hbehind (path : List String) := exists_loadsBehind path h hspelled
  refine ⟨fun path => ?_, fun path name => ?_, fun path load hload => ?_⟩
  · obtain ⟨target, items, hitems, -, hloads⟩ := hbehind path
    exact nodup_of_loads hloads hitems
  · obtain ⟨target, items, -, hrenamed, hloads⟩ := hbehind path
    rw [← mem_namesAfter, ← heads_routed, routed_stored, ← hrenamed, heads_renamed,
      names_of_loads hloads]
    simp
  · obtain ⟨target, items, hitems, hrenamed, hloads⟩ := hbehind path
    obtain ⟨name, hname, hnode⟩ := exists_of_mem_loads hloads hload
    obtain ⟨hrelationship, hcriteria, -⟩ := of_load?_nodeOf hnode
    have hgiven := given_renamed fun other hother => hitems.eq hname hother
    rw [← given_routed, routed_stored, ← given_behindAll, ← hrenamed, hrelationship, hgiven]
    exact hcriteria

/-- Entries that load no relation twice spell their relations in one way. -/
theorem oneSpelling_of_nodup {n : Nat} (hn : ∀ x ∈ items, x.1.length ≤ n)
    (h : k.loads? e (ofItems items) = .ok loads)
    (honce : ∀ path, ((loadsBehind path loads).map (·.relationship.name)).Nodup) :
    OneSpelling k.naming.toStorage items := by
  have hnodup : (loads.map (·.relationship.name)).Nodup := honce []
  induction n generalizing e items loads with
  | zero => refine .of_behind ?_ ?_ <;> simp [heads_eq_nil hn]
  | succ n ih =>
    refine .of_behind (fun name hname other hother heq => ?_) fun name hname => ?_
    · rw [names_of_loads h] at hnodup
      exact List.inj_on_of_nodup_map hnodup (List.mem_eraseDups.2 hother)
        (List.mem_eraseDups.2 hname) heq
    · obtain ⟨load, hload, hnode⟩ := exists_load_of_mem_heads h hname
      obtain ⟨-, -, hchildren⟩ := of_load?_nodeOf hnode
      have hinner : ∀ path,
          ((loadsBehind path load.children).map (·.relationship.name)).Nodup := by
        intro path
        rw [← loadsBehind_cons_of_mem hnodup hload]
        exact honce _
      exact ih (length_behind_le hn) hchildren hinner (hinner [])

/-- **One load for each relation.** The loads of entries have one load for a relation, at every
level, exactly when relations of the same stored names are spelled in one way wherever entries begin
with them. Then a relation is loaded at every place where an entry asks for it or leads through it,
with the conditions of the last refinement that is given for exactly its path, by stored names, and
the loads stay as they are when those of one relation are merged. -/
theorem loads_each_once {paths : List IncludedPath} (h : k.loads? e (ofPaths paths) = .ok loads) :
    (OneSpelling k.naming.toStorage (paths.map (·.routed)) →
      EachOnce k (paths.map (·.stored k.naming)) loads ∧ merged loads = loads) ∧
    ((∀ path, ((loadsBehind path loads).map (·.relationship.name)).Nodup) →
      OneSpelling k.naming.toStorage (paths.map (·.routed))) := by
  refine ⟨fun hspelled => ?_, fun honce => ?_⟩
  · have heach := eachOnce_of_oneSpelling h hspelled
    exact ⟨heach, merged_of_noneTwice heach.once⟩
  · obtain ⟨n, hn⟩ := exists_length_le (paths.map (·.routed))
    rw [ofPaths_eq] at h
    exact oneSpelling_of_nodup hn h honce

end IncludeCompiler

namespace Sample

open IncludeTree RelationLoad

/-- The compiler of included relations of the sample entities by names in camel case. -/
def snakeIncludes : IncludeCompiler := ⟨schema, .snake, []⟩

/-- The owners of toys and the toys of their pets, by capitals, and the pets that are narrowed. -/
def ownedEntries : List IncludedPath :=
  [⟨["petOwner", "Pets", "toy"], none⟩,
    ⟨["petOwner", "Pets"], some ⟨.function "function", [.compare "name" .eq (.text "Grover")]⟩⟩,
    ⟨["petOwner"], none⟩]

theorem loads_ownedEntries : ∃ loads, snakeIncludes.loads? pet (ofPaths ownedEntries) = .ok loads ∧
    EachOnce snakeIncludes (ownedEntries.map (·.stored .snake)) loads ∧ merged loads = loads := by
  obtain ⟨loads, h⟩ : ∃ loads, snakeIncludes.loads? pet (ofPaths ownedEntries) = .ok loads :=
    ⟨_, rfl⟩
  exact ⟨loads, h, (IncludeCompiler.loads_each_once h).1 (by decide +kernel)⟩

/-- The pets of a name, and the pets by another spelling. -/
def petEntries : List IncludedPath :=
  [⟨["pets"], some ⟨.function "function", [.compare "name" .eq (.text "Grover")]⟩⟩,
    ⟨["Pets"], none⟩]

/-- Two spellings of one relation are two loads of it, and the one that is left of them does not
have the conditions that are given for the relation. -/
theorem mixed_spelling_loses_refinement :
    (¬ ∀ paths loads, snakeIncludes.loads? person (ofPaths paths) = .ok loads →
      ∀ path, ((loadsBehind path loads).map (·.relationship.name)).Nodup) ∧
    ¬ ∀ paths loads, snakeIncludes.loads? person (ofPaths paths) = .ok loads →
      ∀ path, ∀ load ∈ loadsBehind path (merged loads),
        snakeIncludes.criteria? load.target (refinementsOf (path ++ [load.relationship.name])
          (paths.map (·.stored .snake))).getLast? = .ok load.criteria := by
  obtain ⟨loads, hloads, hnames, hmerged⟩ : ∃ loads,
      snakeIncludes.loads? person (ofPaths petEntries) = .ok loads ∧
        loads.map (·.relationship.name) = ["pets", "pets"] ∧
        (merged loads).map (fun load => (load.relationship.name, load.target,
          load.criteria.length)) = [("pets", pet, 0)] :=
    ⟨_, rfl, by decide +kernel, by decide +kernel⟩
  constructor <;> intro h
  · have hnodup : (loads.map (·.relationship.name)).Nodup := h petEntries loads hloads []
    rw [hnames] at hnodup
    exact absurd hnodup (by decide)
  · obtain ⟨load, hload⟩ : ∃ load, merged loads = [load] :=
      List.length_eq_one_iff.1 (by simpa using congrArg List.length hmerged)
    rw [hload, List.map_singleton, List.singleton_inj, Prod.mk.injEq, Prod.mk.injEq] at hmerged
    obtain ⟨hname, htarget, hnone⟩ := hmerged
    have hcriteria := h petEntries loads hloads [] load (hload ▸ List.mem_singleton_self load)
    rw [hname, htarget] at hcriteria
    have hlength := congrArg (Except.map List.length) hcriteria
    rw [Except.map, hnone] at hlength
    exact absurd hlength (by decide +kernel)

end Sample

end ResourceQuery
