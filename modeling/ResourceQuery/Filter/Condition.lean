import ResourceQuery.Filter
import ResourceQuery.Filter.Registry
import ResourceQuery.Coercion
import ResourceQuery.Naming

/-!
# Filters as conditions

The condition that the clauses of a filter make of the rows of an entity. Clauses that start with
the same relation are about one related row together.

* `Part`: a clause on a field, or the clauses behind one relation;
* `Part.ofEntries`: the parts of some clauses, in the order of the first clause of each;
* `FilterCompiler`: what is fixed while a filter is compiled;
* `FilterCompiler.conditions?`: the conditions of a filter;
* `FilterCompiler.criteria?`: the conditions of base criteria, each an equality.
-/

namespace ResourceQuery

/-- A clause and what is left of the path to its field. -/
abbrev FilterEntry := List String × FilterClause

/-- What a level of a filter is made of. -/
inductive Part
  /-- A clause on a field of the entity. -/
  | field (c : FilterClause)
  /-- The clauses behind a relation. -/
  | relation (name : String)
deriving Inhabited

namespace Part

/-- The parts of some clauses. A relation has the place of its first clause; `seen` are the
relations that have theirs already. -/
def ofEntries (seen : List String) : List FilterEntry → List Part
  | [] => []
  | ([], c) :: rest => field c :: ofEntries seen rest
  | (name :: _, _) :: rest =>
    if name ∈ seen then ofEntries seen rest else relation name :: ofEntries (name :: seen) rest

/-- The clauses behind a relation, without it. -/
def behind (name : String) (entries : List FilterEntry) : List FilterEntry :=
  entries.filterMap fun
    | ([], _) => none
    | (head :: rest, c) => if head = name then some (rest, c) else none

/-- The clauses on fields of the entity. -/
def localClauses (entries : List FilterEntry) : List FilterClause :=
  entries.filterMap fun
    | ([], c) => some c
    | _ => none

/-- More than the length of every path. -/
def depth (entries : List FilterEntry) : Nat :=
  entries.foldr (fun e n => max e.1.length n) 0 + 1

end Part

/-- What is fixed while a filter is compiled. -/
structure FilterCompiler where
  schema : Schema
  naming : Naming
  registry : FilterRegistry := .standard

namespace FilterCompiler

/-- The condition of a clause on a field. Values are coerced, but for `like`, which looks at
texts. -/
def clause? (k : FilterCompiler) (r : Reach) (c : FilterClause) : Except QueryError Predicate := do
  let field ← r.field? k.schema (k.naming.toStorage c.path.field)
  let values := if c.operator = .like then c.values else c.values.map (·.coerceTo field.type)
  k.registry.condition? c.operator field values

/-- How the related row of a filter is read: as the table itself, unless it is the table of the
owner. -/
def relatedReach (owner target : Entity) (path : List String) : Reach :=
  if target.name = owner.name then target.reachAs (.related path) else target.reach

/-- The conditions of some clauses on an entity that the relations of `path` lead to. All fields of
a level are looked up before its relations. -/
def conditions? (k : FilterCompiler) (depth : Nat) (r : Reach) (path : List String)
    (entries : List FilterEntry) : Except QueryError (List Predicate) :=
  match depth with
  | 0 => .ok []
  | depth + 1 => do
    let _ ← (Part.localClauses entries).mapM (k.clause? r)
    (Part.ofEntries [] entries).mapM fun
      | .field c => k.clause? r c
      | .relation name => do
        let (relationship, target) ← r.related? k.schema (k.naming.toStorage name)
        let path := path ++ [name]
        let inner := relatedReach r.entity target path
        let criteria ← k.conditions? depth inner path (Part.behind name entries)
        .ok (.related (relationship.hop r inner .base) (.allOf criteria))

/-- The conditions of a filter: one that holds of all clauses together, or none without clauses.
Parts that hold or fail whatever the row is are not kept among others. -/
def filter? (k : FilterCompiler) (e : Entity) (clauses : List FilterClause) :
    Except QueryError (List Predicate) :=
  if clauses.isEmpty then .ok []
  else do
    let entries := clauses.map fun c => (c.path.relations, c)
    let conditions ← k.conditions? (Part.depth entries) e.reach [] entries
    .ok [(Predicate.allOf conditions).simplified]

/-- The conditions of equalities by requested names. -/
def criteria? (k : FilterCompiler) (r : Reach) (entries : List (String × Value)) :
    Except QueryError (List Predicate) :=
  entries.mapM fun (name, v) => do
    let field ← r.field? k.schema (k.naming.toStorage name)
    field.equals? (v.coerceTo field.type)

end FilterCompiler

end ResourceQuery
