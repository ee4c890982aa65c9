import ResourceQuery.Value
import ResourceQuery.Schema
import ResourceQuery.Field

/-!
# Statements

What is asked of the store: which columns of which rows, under which conditions, in which order.

* `Source`: a table, or one more reading of it under a name of its own;
* `ColumnRef`: a column of a source;
* `Operand`, `Term`: what a condition or a selection is about, and what a row shows of it;
* `Predicate`: a condition on a row;
* `Hop`: a step from one source to a related one;
* `OrderKey`, `OrderTerm`: what rows are ordered by;
* `Statement`: a selection from an entity.

The sources a statement reads are not part of it: they follow from what it mentions
(`ResourceQuery.Statement.Scope`).
-/

namespace ResourceQuery

/-- Which reading of a table a source is. -/
inductive Instance
  /-- The table itself. -/
  | base
  /-- The table at the end of a path of joined relations. -/
  | joined (path : String)
  /-- The table between the last relation of a joined path and its owner. -/
  | joinedLink (path : String)
  /-- The table after some relations on the way to a sort key, counted from zero. -/
  | hop (sortKey depth : Nat)
  /-- The table between a relation on the way to a sort key and its owner. -/
  | hopLink (sortKey depth : Nat)
  /-- The table of the related rows that a filter asks for, when it is the table of the owner. -/
  | related (path : List String)
  /-- The table between a relation that stands for a column and its owner. -/
  | linked (relation : String)
deriving DecidableEq, Repr, Inhabited

/-- A reading of a table. -/
structure Source where
  table : String
  reading : Instance := .base
deriving DecidableEq, Repr, Inhabited

/-- A column of a source. -/
structure ColumnRef where
  source : Source
  name : String
  type : ColumnType
deriving DecidableEq, Repr, Inhabited

/-- A column of an entity, read from a source. -/
def Column.at_ (c : Column) (source : Source) : ColumnRef := ⟨source, c.name, c.type⟩

/-- Two columns with equal values. -/
structure Equality where
  left : ColumnRef
  right : ColumnRef
deriving DecidableEq, Repr, Inhabited

/-- The value that a class attribute is. -/
def ClassAttribute.value : ClassAttribute → Value
  | text s => .text s
  | object kind => .foreign kind
  | table => .foreign "Table"

/-- What a condition or a selection is about. -/
inductive Operand
  | column (c : ColumnRef)
  /-- Whether the rows of two entities are related. -/
  | linked (equalities : List Equality)
  /-- A class attribute, the same for all rows. -/
  | constant (a : ClassAttribute)
  /-- A text that is to name what rows are grouped by. -/
  | label (name : String)
deriving DecidableEq, Repr, Inhabited

/-- Whether an operand is a text that is to name what rows are grouped by. -/
def Operand.isLabel : Operand → Bool
  | label _ => true
  | _ => false

/-- What a row shows of a group of rows. -/
inductive Term
  | plain (x : Operand)
  | aggregate (function : AggregateFunction) (x : Operand)
  /-- How many rows there are. -/
  | countAll
deriving DecidableEq, Repr, Inhabited

/-- Whether a term is about a group of rows and not about one of them. -/
def Term.isAggregate : Term → Bool
  | plain _ => false
  | _ => true

/-- How a step leads to the rows of its target: by equal columns, or through a third source. -/
inductive Route
  | direct (on : List Equality)
  | through (link : Source) (near far : List Equality)
deriving DecidableEq, Repr, Inhabited

/-- A step to a related source. -/
structure Hop where
  target : Source
  route : Route
deriving DecidableEq, Repr, Inhabited

namespace Hop

/-- The sources that a step brings in. -/
def sources (h : Hop) : List Source :=
  match h.route with
  | .direct _ => [h.target]
  | .through link _ _ => [h.target, link]

/-- The equalities that hold between related rows. -/
def equalities (h : Hop) : List Equality :=
  match h.route with
  | .direct on => on
  | .through _ near far => near ++ far

end Hop

/-- A condition on a row. -/
inductive Predicate
  | always
  | never
  | isNull (x : ColumnRef)
  | notNull (x : ColumnRef)
  /-- A comparison with a value that is not null. -/
  | compare (x : ColumnRef) (comparison : Comparison) (value : Value)
  /-- The text of the operand holds a fragment. `cast` says that the operand is no text. -/
  | contains (x : Operand) (cast : Bool) (fragment : String)
  | both (p q : Predicate)
  | either (p q : Predicate)
  /-- There is a related row that a condition holds of. -/
  | related (hop : Hop) (criterion : Predicate)
deriving Inhabited

namespace Predicate

/-- The condition that all of some hold. -/
def allOf : List Predicate → Predicate
  | [] => always
  | [p] => p
  | p :: q :: rest => both p (allOf (q :: rest))

/-- The condition that one of some holds. -/
def anyOf : List Predicate → Predicate
  | [] => never
  | [p] => p
  | p :: q :: rest => either p (anyOf (q :: rest))

/-- The condition that is always what a truth value says. -/
def ofTruth (b : Bool) : Predicate := if b then always else never

/-- Whether a condition is the one that always holds. -/
def isAlways : Predicate → Bool
  | always => true
  | _ => false

/-- Whether a condition is the one that never holds. -/
def isNever : Predicate → Bool
  | never => true
  | _ => false

/-- Both of two conditions, without one that always holds. One that never holds stands for both. -/
def bothOf (p q : Predicate) : Predicate :=
  if p.isNever || q.isNever then never
  else if p.isAlways then q
  else if q.isAlways then p
  else both p q

/-- One of two conditions. Two that hold or fail whatever the row is are taken together. -/
def eitherOf (p q : Predicate) : Predicate :=
  if (p.isAlways || p.isNever) && (q.isAlways || q.isNever) then ofTruth (p.isAlways || q.isAlways)
  else either p q

/-- A condition without the parts that hold or fail whatever the row is. -/
def simplified : Predicate → Predicate
  | both p q => bothOf p.simplified q.simplified
  | either p q => eitherOf p.simplified q.simplified
  | related hop criterion => related hop criterion.simplified
  | p => p

/-- The conditions of several that are written: those that always hold are left out, and one that
never holds stands for all. -/
def written (ps : List Predicate) : List Predicate :=
  if ps.any isNever then [never]
  else if ps.all isAlways then ps.take 1
  else ps.filter (!·.isAlways)

end Predicate

/-- A step of a path that starts from another source. -/
structure Join where
  parent : Source
  hop : Hop
deriving DecidableEq, Repr, Inhabited

/-- What rows are ordered by. -/
inductive OrderKey
  | term (t : Term)
  /-- The least or the greatest value of an operand over all rows that some steps lead to from the
  row of `root` with the same key. -/
  | extreme (largest : Bool) (root : Source) (hops : List Hop) (x : Operand)
      (sameKey : List Equality)
deriving DecidableEq, Repr, Inhabited

/-- A key to order by, and whether large values come first. Null is less than every value. -/
structure OrderTerm where
  key : OrderKey
  descending : Bool
deriving DecidableEq, Repr, Inhabited

/-- A term under the name that it has in a row. -/
structure SelectedTerm where
  term : Term
  label : String
deriving DecidableEq, Repr, Inhabited

/-- What is selected: records of the entity with some of its columns, or rows of terms. -/
inductive Selection
  | records (columns : List Column)
  | rows (terms : List SelectedTerm)
deriving DecidableEq, Repr, Inhabited

/-- A selection from the table of an entity. -/
structure Statement where
  entity : Entity
  selection : Selection
  joins : List Join := []
  conditions : List Predicate := []
  group : List Operand := []
  order : List OrderTerm := []
  limit : Option Int := none
  offset : Option Int := none
deriving Inhabited

namespace Statement

/-- The source of the entity itself. -/
def root (s : Statement) : Source := ⟨s.entity.table, .base⟩

/-- All records of an entity. -/
def all (e : Entity) : Statement := { entity := e, selection := .records e.columns }

/-- A statement with more conditions. -/
def filtered (s : Statement) (conditions : List Predicate) : Statement :=
  { s with conditions := s.conditions ++ conditions }

end Statement

end ResourceQuery
