import ResourceQuery.Proofs.Filter.Kept
import ResourceQuery.Proofs.Routed

/-!
# The tree of a filter

The conditions of a filter are a tree: a clause on a field is a leaf, and a relation that clauses
start with is a node with the conditions of the clauses behind it.

* `ConditionTree`: clauses by their places, and relations;
* `ConditionTree.nodesBehind`: the nodes behind a path of relations;
* `ConditionTree.Arranges`: what a tree has to do with the paths of some clauses;
* `ConditionTree.ofItems`: the tree of clauses at the ends of paths, level by level;
* `FilterCompiler.Builds`: whether a condition is that of a node;
* `FilterCompiler.isOpen_conditions?`: on fields and relations nothing holds or fails whatever the
  row is;
* `FilterCompiler.conditions?_tree`: the conditions of a filter are those of its tree.
-/

namespace ResourceQuery

/-! ## Trees -/

/-- The conditions of a filter: clauses, by their places in the filter, and relations with the
conditions behind them. -/
inductive ConditionTree
  | clause (place : Nat)
  | related (name : String) (inner : List ConditionTree)

namespace ConditionTree

open Routed

/-- What tells nodes side by side apart. -/
inductive Label
  | clause (place : Nat)
  | relation (name : String)
deriving DecidableEq, Repr

/-- The label of a node. -/
def label : ConditionTree → Label
  | clause place => .clause place
  | related name _ => .relation name

/-- The conditions behind a relation. -/
def inner : ConditionTree → List ConditionTree
  | clause _ => []
  | related _ inner => inner

/-- The nodes behind a path of relations. -/
def nodesBehind : List String → List ConditionTree → List ConditionTree
  | [], trees => trees
  | name :: rest, trees =>
    (trees.filter (·.label = .relation name)).flatMap fun tree => nodesBehind rest tree.inner

/-- The node that a clause contributes to, by what is left of its path. -/
def labelOf : List String × Nat → Label
  | ([], place) => .clause place
  | (name :: _, _) => .relation name

/-- The nodes that clauses contribute to, clause by clause. -/
def labels (items : Routed Nat) : List Label := items.map labelOf

/-- What a tree has to do with the paths of clauses in their places. -/
structure Arranges (paths : List (List String)) (trees : List ConditionTree) : Prop where
  /-- Nodes side by side are different. -/
  once (path : List String) : ((nodesBehind path trees).map label).Nodup
  /-- A clause stands at the end of its path and nowhere else. -/
  clause (path : List String) (place : Nat) :
    .clause place ∈ (nodesBehind path trees).map label ↔ paths[place]? = some path
  /-- There is a relation for every beginning of a path, and for nothing else. -/
  relation (path : List String) (name : String) :
    .relation name ∈ (nodesBehind path trees).map label ↔ ∃ p ∈ paths, path ++ [name] <+: p
  /-- Nodes side by side are in the order of the first clauses that contribute to them. -/
  order (path : List String) :
    (nodesBehind path trees).map label = (labels (behindAll path paths.zipIdx)).eraseDups

variable {items : Routed Nat} {place depth : Nat} {name : String}

@[simp] theorem labels_here (place : Nat) (items : Routed Nat) :
    labels (([], place) :: items) = .clause place :: labels items := rfl

@[simp] theorem labels_behind (name : String) (rest : List String) (place : Nat)
    (items : Routed Nat) :
    labels ((name :: rest, place) :: items) = .relation name :: labels items := rfl

theorem clause_mem_labels : .clause place ∈ labels items ↔ ([], place) ∈ items := by
  rw [labels, List.mem_map]
  constructor
  · rintro ⟨⟨_ | ⟨head, rest⟩, n⟩, hx, h⟩
    · cases h
      exact hx
    · cases h
  · exact fun h => ⟨_, h, rfl⟩

theorem relation_mem_labels : .relation name ∈ labels items ↔ name ∈ heads items := by
  rw [labels, List.mem_map, mem_heads]
  constructor
  · rintro ⟨⟨_ | ⟨head, rest⟩, n⟩, hx, h⟩
    · cases h
    · cases h
      exact ⟨rest, n, hx⟩
  · exact fun ⟨rest, n, h⟩ => ⟨_, h, rfl⟩

/-! ## The tree of some clauses -/

/-- A node, from the conditions behind relations. -/
def ofLabel (inner : String → List ConditionTree) : Label → ConditionTree
  | .clause place => clause place
  | .relation name => related name (inner name)

@[simp] theorem label_ofLabel (inner : String → List ConditionTree) (l : Label) :
    (ofLabel inner l).label = l := by
  cases l <;> rfl

/-- The tree of clauses at the ends of paths, to a depth. -/
def ofItems : Nat → Routed Nat → List ConditionTree
  | 0, _ => []
  | depth + 1, items =>
    (labels items).eraseDups.map (ofLabel fun name => ofItems depth (behind name items))

theorem eq_nil_of_length_lt_zero (h : ∀ x ∈ items, x.1.length < 0) : items = [] :=
  List.eq_nil_iff_forall_not_mem.2 fun x hx => Nat.not_lt_zero _ (h x hx)

/-- The nodes behind a path, in a tree that is deep enough. -/
theorem labels_nodesBehind (path : List String) (hdepth : ∀ x ∈ items, x.1.length < depth) :
    (nodesBehind path (ofItems depth items)).map label =
      (labels (behindAll path items)).eraseDups := by
  induction path generalizing depth items with
  | nil =>
    cases depth with
    | zero =>
      obtain rfl := eq_nil_of_length_lt_zero hdepth
      rfl
    | succ depth => simp [nodesBehind, ofItems, behindAll, Function.comp_def]
  | cons name rest ih =>
    cases depth with
    | zero =>
      obtain rfl := eq_nil_of_length_lt_zero hdepth
      rw [behindAll_nil]
      rfl
    | succ depth =>
      rw [nodesBehind, ofItems, behindAll, filter_key_map (label_ofLabel _) (nodup_eraseDups _)]
      split
      · rw [List.flatMap_singleton]
        refine ih fun x hx => ?_
        simpa using hdepth _ (mem_behind.1 hx)
      · next hname =>
        rw [behind_eq_nil fun h => hname (List.mem_eraseDups.2 (relation_mem_labels.2 h)),
          behindAll_nil]
        rfl

theorem arranges_ofItems {paths : List (List String)} (hdepth : ∀ p ∈ paths, p.length < depth) :
    Arranges paths (ofItems depth paths.zipIdx) := by
  have horder (path : List String) : (nodesBehind path (ofItems depth paths.zipIdx)).map label =
      (labels (behindAll path paths.zipIdx)).eraseDups :=
    labels_nodesBehind path fun x hx => hdepth _ (List.fst_mem_of_mem_zipIdx hx)
  refine ⟨fun path => ?_, fun path place => ?_, fun path name => ?_, horder⟩ <;> rw [horder]
  · exact nodup_eraseDups _
  · rw [List.mem_eraseDups, clause_mem_labels, mem_behindAll, List.append_nil,
      List.mem_zipIdx_iff_getElem?]
  · rw [List.mem_eraseDups, relation_mem_labels, mem_heads_behindAll]
    constructor
    · exact fun ⟨x, hx, hprefix⟩ => ⟨x.1, List.fst_mem_of_mem_zipIdx hx, hprefix⟩
    · rintro ⟨p, hp, hprefix⟩
      obtain ⟨place, hplace⟩ := List.mem_iff_getElem?.1 hp
      exact ⟨(p, place), List.mem_zipIdx_iff_getElem?.2 hplace, hprefix⟩

end ConditionTree

/-! ## The conditions of a tree -/

namespace FilterCompiler

open ConditionTree Routed

mutual

/-- Whether a condition is that of a node, on an entity that the relations of a path lead to: the
condition of the clause alone, or that there is a row behind the relation that all conditions behind
it hold of. -/
inductive Builds (k : FilterCompiler) (clauses : List FilterClause) :
    Reach → List String → ConditionTree → Predicate → Prop
  | clause {r : Reach} {path : List String} {place : Nat} {c : FilterClause} {p : Predicate}
    (hplace : clauses[place]? = some c) (hcondition : k.clause? r c = .ok p) (hflat : p.IsFlat) :
    Builds k clauses r path (.clause place) p
  | related {r : Reach} {path : List String} {name : String} {relationship : Relationship}
    {target : Entity} {inner : List ConditionTree} {criteria : List Predicate}
    (hname : k.schema.related? r.entity (k.naming.toStorage name) = some (relationship, target))
    (hinner : BuildsAll k clauses (relatedReach r.entity target (path ++ [name])) (path ++ [name])
      inner criteria) :
    Builds k clauses r path (.related name inner)
      (.related (relationship.hop r (relatedReach r.entity target (path ++ [name])) .base)
        (.allOf criteria))

/-- Whether conditions are those of nodes side by side, one by one. -/
inductive BuildsAll (k : FilterCompiler) (clauses : List FilterClause) :
    Reach → List String → List ConditionTree → List Predicate → Prop
  | nil {r : Reach} {path : List String} : BuildsAll k clauses r path [] []
  | cons {r : Reach} {path : List String} {tree : ConditionTree} {p : Predicate}
    {trees : List ConditionTree} {ps : List Predicate} (htree : Builds k clauses r path tree p)
    (htrees : BuildsAll k clauses r path trees ps) :
    BuildsAll k clauses r path (tree :: trees) (p :: ps)

end

variable {k : FilterCompiler} {clauses : List FilterClause} {items : Routed Nat}
  {entries : List FilterEntry} {r : Reach} {path : List String} {ps : List Predicate}

/-- Whether an entry is that of a clause in its place. -/
def IsAt (clauses : List FilterClause) (x : List String × Nat) (entry : FilterEntry) : Prop :=
  x.1 = entry.1 ∧ clauses[x.2]? = some entry.2

/-- Whether a label is that of a part of a filter. -/
inductive Labels (clauses : List FilterClause) : Label → Part → Prop
  | clause {place : Nat} {c : FilterClause} (hplace : clauses[place]? = some c) :
    Labels clauses (.clause place) (.field c)
  | relation (name : String) : Labels clauses (.relation name) (.relation name)

theorem behind_isAt (name : String) (h : List.Forall₂ (IsAt clauses) items entries) :
    List.Forall₂ (IsAt clauses) (behind name items) (Part.behind name entries) := by
  refine List.rel_filterMap (fun x entry hx => ?_) h
  obtain ⟨_ | ⟨head, rest⟩, place⟩ := x <;> obtain ⟨_, c⟩ := entry <;> obtain ⟨rfl, hplace⟩ := hx
  · exact .none
  · by_cases heq : head = name
    · simp only [if_pos heq]
      exact .some ⟨rfl, hplace⟩
    · simp only [if_neg heq]
      exact .none

/-- Whether a label has no place yet, when some relations have theirs. -/
def isUnseen (seen : List String) : Label → Bool
  | .clause _ => true
  | .relation name => name ∉ seen

/-- The parts of a filter are the nodes that its clauses contribute to, each of them once. -/
theorem ofEntries_labels (h : List.Forall₂ (IsAt clauses) items entries)
    (hplaces : (items.map (·.2)).Nodup) (seen : List String) :
    List.Forall₂ (Labels clauses) ((labels items).filter (isUnseen seen)).eraseDups
      (Part.ofEntries seen entries) := by
  induction h generalizing seen with
  | nil => exact .nil
  | @cons x entry items entries hx _ ih =>
    obtain ⟨hfirst, hrest⟩ := List.nodup_cons.1 hplaces
    obtain ⟨_ | ⟨name, rest⟩, place⟩ := x <;> obtain ⟨_, c⟩ := entry <;> obtain ⟨rfl, hc⟩ := hx
    · -- no other clause has this place
      have hother : ∀ l ∈ (labels items).filter (isUnseen seen), !l == .clause place := by
        intro l hl
        rw [Bool.not_eq_true', beq_eq_false_iff_ne]
        rintro rfl
        exact hfirst (List.mem_map.2 ⟨_, clause_mem_labels.1 (List.mem_of_mem_filter hl), rfl⟩)
      rw [labels_here, List.filter_cons_of_pos rfl, List.eraseDups_cons,
        List.filter_eq_self.2 hother]
      exact .cons (.clause hc) (ih hrest seen)
    · by_cases hseen : name ∈ seen
      · rw [labels_behind, List.filter_cons_of_neg (by simp [isUnseen, hseen]), Part.ofEntries,
          if_pos hseen]
        exact ih hrest seen
      · have hunseen : ((labels items).filter (isUnseen seen)).filter (!· == .relation name) =
            (labels items).filter (isUnseen (name :: seen)) := by
          rw [List.filter_filter]
          refine List.filter_congr fun l _ => ?_
          cases l <;> rw [Bool.eq_iff_iff] <;> simp [isUnseen]
        rw [labels_behind, List.filter_cons_of_pos (by simp [isUnseen, hseen]),
          List.eraseDups_cons, hunseen, Part.ofEntries, if_neg hseen]
        exact .cons (.relation name) (ih hrest (name :: seen))

theorem places_behind (name : String) (items : Routed Nat) :
    ((behind name items).map (·.2)).Sublist (items.map (·.2)) := by
  induction items with
  | nil => exact .slnil
  | cons x items ih =>
    obtain ⟨_ | ⟨head, rest⟩, place⟩ := x
    · exact ih.cons place
    · by_cases heq : head = name
      · simpa [behind, heq] using ih
      · simpa [behind, heq] using ih.cons place

theorem buildsAll_map {depth : Nat} {node : Label → ConditionTree} {ls : List Label}
    {parts : List Part} (hlabels : List.Forall₂ (Labels clauses) ls parts)
    (hparts : List.Forall₂ (fun part p => k.part? depth r path entries part = .ok p) parts ps)
    (hnode : ∀ l part p, Labels clauses l part → k.part? depth r path entries part = .ok p →
      Builds k clauses r path (node l) p) : BuildsAll k clauses r path (ls.map node) ps := by
  induction hlabels generalizing ps with
  | nil =>
    cases hparts
    exact .nil
  | cons hlabel _ ih =>
    cases hparts with
    | cons hpart hparts => exact .cons (hnode _ _ _ hlabel hpart) (ih hparts)

/-- The conditions of some clauses are those of their tree, node by node. -/
theorem buildsAll_ofItems {depth : Nat} (hentries : List.Forall₂ (IsAt clauses) items entries)
    (hplaces : (items.map (·.2)).Nodup) (h : k.conditions? depth r path entries = .ok ps) :
    BuildsAll k clauses r path (ofItems depth items) ps := by
  induction depth generalizing r path items entries ps with
  | zero =>
    cases h
    exact .nil
  | succ depth ih =>
    obtain ⟨-, hparts⟩ := conditions?_eq_ok.1 h
    have hlabels := ofEntries_labels hentries hplaces []
    have hnone : (labels items).filter (isUnseen []) = labels items :=
      List.filter_eq_self.2 fun l _ => by cases l <;> rfl
    rw [hnone] at hlabels
    refine buildsAll_map hlabels (mapM_eq_ok.1 hparts) fun l part p hlabel hpart => ?_
    cases hlabel with
    | clause hplace => exact .clause hplace hpart (combined_clause? hpart).isFlat
    | relation name =>
      obtain ⟨relationship, target, criteria, hname, hcriteria, rfl⟩ :=
        part?_relation_eq_ok.1 hpart
      exact .related hname (ih (behind_isAt name hentries)
        (hplaces.sublist (places_behind name items)) hcriteria)

theorem isAt_zipIdx (entries : List FilterEntry) :
    List.Forall₂ (IsAt (entries.map (·.2))) (entries.map (·.1)).zipIdx entries := by
  rw [List.forall₂_iff_get]
  refine ⟨by simp, fun i hi hi' => ?_⟩
  simpa [IsAt] using ⟨_, List.getElem?_eq_getElem hi'⟩

/-! ## Conditions that stay as they are -/

/-- Whether the path of a clause leads from an entity to a field or a relation. -/
def isMapped (k : FilterCompiler) (e : Entity) : List String → String → Bool
  | [], field =>
    (e.column? (k.naming.toStorage field)).isSome ||
      (k.schema.related? e (k.naming.toStorage field)).isSome
  | name :: rest, field =>
    (k.schema.related? e (k.naming.toStorage name)).any fun (_, target) =>
      k.isMapped target rest field

/-- Whether every clause has values and is on a field or a relation. -/
def AreMapped (k : FilterCompiler) (e : Entity) (entries : List FilterEntry) : Prop :=
  ∀ entry ∈ entries, entry.2.values ≠ [] ∧ k.isMapped e entry.1 entry.2.path.field = true

instance (e : Entity) (entries : List FilterEntry) : Decidable (k.AreMapped e entries) :=
  inferInstanceAs (Decidable (∀ _ ∈ _, _ ∧ _))

theorem AreMapped.behind {e target : Entity} {name : String} {relationship : Relationship}
    (h : k.AreMapped e entries)
    (hname : k.schema.related? e (k.naming.toStorage name) = some (relationship, target)) :
    k.AreMapped target (Part.behind name entries) := by
  intro entry hentry
  obtain ⟨hvalues, hmapped⟩ := h _ (Part.mem_behind.1 hentry)
  refine ⟨hvalues, ?_⟩
  rwa [isMapped, hname] at hmapped

theorem field?_ne_ofClass {field : String} (h : k.isMapped r.entity [] field = true)
    (a : ClassAttribute) : r.field? k.schema (k.naming.toStorage field) ≠ .ok (.ofClass a) := by
  intro hfield
  cases Reach.field?_eq_ok.1 hfield with
  | ofClass hcolumn hrelated _ => simp [isMapped, hcolumn, hrelated] at h

theorem conditions?_ne_nil {depth : Nat} (hdepth : Part.depth entries ≤ depth)
    (h : k.conditions? depth r path entries = .ok ps) (hentries : entries ≠ []) : ps ≠ [] := by
  cases depth with
  | zero => simp [Part.depth] at hdepth
  | succ depth =>
    exact ne_nil_of_mapM_eq_ok (conditions?_eq_ok.1 h).2 (Part.ofEntries_ne_nil hentries)

/-- The conditions of clauses on fields and relations hold or fail with the row. -/
theorem isOpen_conditions? {depth : Nat} (hdepth : Part.depth entries ≤ depth)
    (hmapped : k.AreMapped r.entity entries) (h : k.conditions? depth r path entries = .ok ps) :
    ∀ p ∈ ps, p.IsOpen := by
  induction depth generalizing r path entries ps with
  | zero => simp [Part.depth] at hdepth
  | succ depth ih =>
    rw [forall_of_mapM_eq_ok (conditions?_eq_ok.1 h).2, Part.forall_ofEntries]
    refine ⟨fun c hc p hp => ?_, fun name hname p hp => ?_⟩
    · obtain ⟨hvalues, hfield⟩ := hmapped _ (Part.mem_localClauses.1 hc)
      exact isOpen_clause? (field?_ne_ofClass hfield) hvalues hp
    · obtain ⟨relationship, target, criteria, hfound, hcriteria, rfl⟩ := part?_relation_eq_ok.1 hp
      have hbehind : Part.depth (Part.behind name entries) ≤ depth :=
        Nat.le_of_lt_succ (Nat.lt_of_lt_of_le (Part.depth_behind_lt hname) hdepth)
      exact Predicate.isOpen_allOf
        (conditions?_ne_nil hbehind hcriteria (Part.behind_ne_nil hname))
        (ih hbehind (by simpa using hmapped.behind hfound) hcriteria)

/-- **The tree of a filter.** The conditions of clauses are those of a tree: the condition of every
clause stands once in it, behind exactly the relations of its path; there is one relation for every
beginning of a path; and at every level the conditions are in the order of the first clauses that
contribute to them. The filter has the whole tree when its clauses are on fields and relations. A
clause on an attribute of a class holds or fails whatever the row is, and is not kept among others;
when it fails, neither are the others. -/
theorem conditions?_tree (h : k.conditions? (Part.depth entries) r path entries = .ok ps) :
    (∃ trees, BuildsAll k (entries.map (·.2)) r path trees ps ∧
      Arranges (entries.map (·.1)) trees) ∧
    (k.AreMapped r.entity entries → (Predicate.allOf ps).simplified = .allOf ps) := by
  refine ⟨⟨_, buildsAll_ofItems (isAt_zipIdx entries) ?_ h, arranges_ofItems ?_⟩,
    fun hmapped => Predicate.simplified_allOf (isOpen_conditions? le_rfl hmapped h)⟩
  · rw [List.zipIdx_map_snd]
    exact List.nodup_range'
  · intro p hp
    obtain ⟨entry, hentry, rfl⟩ := List.mem_map.1 hp
    exact Part.length_lt_depth hentry

end FilterCompiler

namespace Sample

open FilterCompiler

/-- Clauses on categories, on their children and those of these, and on posts, in turns. -/
def clausesInTurns : List FilterClause := [
  ⟨.eq, ⟨["children", "children"], "name"⟩, [.text "physics"]⟩,
  ⟨.like, ⟨[], "name"⟩, [.text "oo"]⟩,
  ⟨.gt, ⟨["children"], "rank"⟩, [.text "5"]⟩,
  ⟨.eq, ⟨["posts", "tags"], "label"⟩, [.text "hot"]⟩,
  ⟨.not, ⟨["children", "children"], "rank"⟩, [.null]⟩,
  ⟨.like, ⟨[], "name"⟩, [.text "oo"]⟩]

theorem tree_clausesInTurns : ∃ ps trees,
    filters.conditions? (Part.depth (entriesOf clausesInTurns)) category.reach []
      (entriesOf clausesInTurns) = .ok ps ∧
    BuildsAll filters ((entriesOf clausesInTurns).map (·.2)) category.reach [] trees ps ∧
    ConditionTree.Arranges ((entriesOf clausesInTurns).map (·.1)) trees ∧
    (Predicate.allOf ps).simplified = .allOf ps := by
  obtain ⟨ps, h⟩ : ∃ ps, filters.conditions? (Part.depth (entriesOf clausesInTurns)) category.reach
      [] (entriesOf clausesInTurns) = .ok ps := ⟨_, rfl⟩
  obtain ⟨⟨trees, hbuilds, harranges⟩, hkept⟩ := conditions?_tree h
  exact ⟨ps, trees, h, hbuilds, harranges, hkept (by decide)⟩

/-- A clause on a first name. -/
def namedElmo : FilterClause := ⟨.eq, ⟨[], "first_name"⟩, [.text "Elmo"]⟩

/-- A clause on the class of the rows, that none of them satisfies. -/
def ofOtherTable : FilterClause := ⟨.eq, ⟨[], "__tablename__"⟩, [.text "x"]⟩

/-- A filter on people does not have the condition on the first name that it asks for. -/
theorem tree_elmoOfOtherTable :
    filters.clause? person.reach namedElmo =
      .ok (.compare ⟨person.reach.source, "first_name", .text⟩ .eq (.text "Elmo")) ∧
    filters.filter? person [namedElmo, ofOtherTable] = .ok [.never] := ⟨rfl, rfl⟩

end Sample

end ResourceQuery
