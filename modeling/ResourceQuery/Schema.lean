/-!
# Schemas

The entities that requests are about: their tables, fields and relations.

* `Column`: a field, the column that holds it, and the type of its values;
* `Link`: how the rows of two tables are related, by equal columns of their own or through a
  table between them;
* `Relationship`: a named link to another entity;
* `ClassAttribute`: what a name may stand for beside fields and relations;
* `Entity`, `Schema`: a table with its fields and relations, and all entities together;
* `Entity.column?`, `Schema.related?`: the field and the relation of a name.
-/

namespace ResourceQuery

/-- The types of columns. -/
inductive ColumnType
  | integer
  | text
  | float
  /-- Decimal numbers, of which so many digits after the point are read. -/
  | decimal (places : Nat)
  | boolean
  | dateTime
  | date
  | time
  | interval
  | binary
  /-- A type that says nothing about its values. -/
  | untyped
deriving DecidableEq, Repr, Inhabited

/-- A field of an entity and the column that holds it. -/
structure Column where
  /-- The name of the field. -/
  field : String
  /-- The name of the column in its table. -/
  name : String
  type : ColumnType
deriving DecidableEq, Repr, Inhabited

/-- Two columns with equal values in related rows. -/
structure ColumnPair where
  near : String
  far : String
deriving DecidableEq, Repr, Inhabited

/-- How the rows of a near and a far table are related. -/
inductive Link
  /-- Columns of the two tables are equal. `farFirst` says which side is written first. -/
  | direct (pairs : List ColumnPair) (farFirst : Bool)
  /-- Rows of a third table stand between them. The far columns of the pairs are columns of the
  third table. -/
  | through (table : String) (fromNear fromFar : List ColumnPair)
deriving DecidableEq, Repr, Inhabited

/-- A named link from an entity to another one. -/
structure Relationship where
  name : String
  /-- The name of the entity it leads to. -/
  target : String
  /-- Whether a record may have several related ones. -/
  toMany : Bool
  link : Link
  /-- The columns of the target that order the related records. -/
  order : List String := []
deriving DecidableEq, Repr, Inhabited

/-- An attribute of the class of an entity that is no field and no relation. -/
inductive ClassAttribute
  | text (s : String)
  /-- An object that is no part of statements, by the name of its kind. -/
  | object (kind : String)
  /-- The table of the entity, or what maps the entity to it. -/
  | table
deriving DecidableEq, Repr, Inhabited

/-- A table, its fields and its relations. -/
structure Entity where
  name : String
  table : String
  /-- The resource type that requests know the entity by, when it is its table. -/
  tableIsType : Bool := true
  columns : List Column
  /-- The fields that tell records apart. -/
  key : List String
  relationships : List Relationship := []
  /-- The attributes of the class that are neither. -/
  attributes : List (String × ClassAttribute) := []
deriving DecidableEq, Repr, Inhabited

namespace Entity

/-- The column of a field. -/
def column? (e : Entity) (field : String) : Option Column := e.columns.find? (·.field == field)

/-- The column of a name in the table. -/
def columnNamed? (e : Entity) (name : String) : Option Column := e.columns.find? (·.name == name)

/-- The relation of a name. -/
def relationship? (e : Entity) (name : String) : Option Relationship :=
  e.relationships.find? (·.name == name)

/-- The class attribute of a name. -/
def classAttribute? (e : Entity) (name : String) : Option ClassAttribute :=
  (e.attributes.find? (·.1 == name)).map (·.2)

/-- Whether a name is that of a relation. -/
def isRelationship (e : Entity) (name : String) : Bool := (e.relationship? name).isSome

/-- The columns of the key. -/
def keyColumns (e : Entity) : List Column := e.key.filterMap e.column?

/-- The resource type by which the fields of a request name the entity. -/
def resourceType (e : Entity) : String := if e.tableIsType then e.table else e.name

/-- The resource type by which the fields of a request name related records. -/
def relatedType (e : Entity) : String := if e.tableIsType then e.table else ""

/-- The fields of some columns of a table that are columns of the entity. -/
def fieldsOf (e : Entity) (columns : List (String × String)) : List String :=
  columns.filterMap fun (table, name) =>
    if table = e.table then (e.columnNamed? name).map (·.field) else none

end Entity

namespace Relationship

/-- The columns that the link reads on the side of the owner, by table. -/
def nearColumns (r : Relationship) (owner target : Entity) : List (String × String) :=
  match r.link with
  | .direct pairs _ => pairs.map fun p => (owner.table, p.near)
  | .through _ fromNear fromFar =>
    fromNear.map (fun p => (owner.table, p.near)) ++ fromFar.map fun p => (target.table, p.near)

/-- The columns that the link reads on the other side, by table. -/
def farColumns (r : Relationship) (target : Entity) : List (String × String) :=
  match r.link with
  | .direct pairs _ => pairs.map fun p => (target.table, p.far)
  | .through table fromNear fromFar =>
    fromNear.map (fun p => (table, p.far)) ++ fromFar.map fun p => (table, p.far)

end Relationship

/-- Columns with their tables, in the order of their names. -/
def qualifiedNames (columns : List (String × String)) : List String :=
  (columns.map fun (table, name) => table ++ "." ++ name).mergeSort (· ≤ ·)

/-- All entities. -/
structure Schema where
  entities : List Entity
deriving DecidableEq, Repr, Inhabited

namespace Schema

/-- The entity of a name. -/
def entity? (s : Schema) (name : String) : Option Entity := s.entities.find? (·.name == name)

/-- The relation of a name and the entity it leads to. -/
def related? (s : Schema) (e : Entity) (name : String) : Option (Relationship × Entity) :=
  (e.relationship? name).bind fun r => (s.entity? r.target).map fun target => (r, target)

end Schema

end ResourceQuery
