import ResourceQuery.Statement
import ResourceQuery.Error

/-!
# Names in an entity

What a stored name means for an entity that is read from a source.

* `Reach`: an entity and the source it is read from;
* `Reach.field?`: the column of a name, or what stands for a column: a relation or a class
  attribute;
* `Reach.related?`: the relation of a name and the entity it leads to;
* `Relationship.hop`: the step from a source to the related one.
-/

namespace ResourceQuery

/-- An entity and the source it is read from. -/
structure Reach where
  entity : Entity
  source : Source
deriving DecidableEq, Repr, Inhabited

/-- The table of an entity itself. -/
def Entity.reach (e : Entity) : Reach := ⟨e, ⟨e.table, .base⟩⟩

/-- Another reading of the table of an entity. -/
def Entity.reachAs (e : Entity) (reading : Instance) : Reach := ⟨e, ⟨e.table, reading⟩⟩

/-- The column of a name in an entity that is read from a source. -/
def Reach.columnNamed (r : Reach) (name : String) : ColumnRef :=
  ⟨r.source, name, ((r.entity.columnNamed? name).map (·.type)).getD .untyped⟩

namespace Relationship

/-- The equalities of a direct link between two readings. -/
def directEqualities (near far : Reach) (pairs : List ColumnPair) (farFirst : Bool) :
    List Equality :=
  pairs.map fun p =>
    if farFirst then ⟨far.columnNamed p.far, near.columnNamed p.near⟩
    else ⟨near.columnNamed p.near, far.columnNamed p.far⟩

/-- The equalities between a reading and the table that stands between. -/
def linkEqualities (side : Reach) (link : Source) (pairs : List ColumnPair) : List Equality :=
  pairs.map fun p =>
    let column := side.columnNamed p.near
    ⟨column, ⟨link, p.far, column.type⟩⟩

/-- The step from an owner to the related entity. -/
def hop (r : Relationship) (owner target : Reach) (linkReading : Instance) : Hop :=
  match r.link with
  | .direct pairs farFirst =>
    ⟨target.source, .direct (directEqualities owner target pairs farFirst)⟩
  | .through table fromNear fromFar =>
    let link : Source := ⟨table, linkReading⟩
    ⟨target.source,
      .through link (linkEqualities owner link fromNear) (linkEqualities target link fromFar)⟩

end Relationship

/-- What a name stands for where a column is expected. -/
inductive ResolvedField
  | column (c : ColumnRef)
  /-- A relation, and the equalities between related rows. -/
  | relation (r : Relationship) (equalities : List Equality)
  /-- An attribute of the class that is no field and no relation. -/
  | ofClass (a : ClassAttribute)
deriving Inhabited

namespace ResolvedField

/-- What is compared or shown. -/
def operand : ResolvedField → Operand
  | column c => .column c
  | relation _ equalities => .linked equalities
  | ofClass a => .constant a

/-- The type of the values; what is no column has none. -/
def type : ResolvedField → ColumnType
  | column c => c.type
  | relation .. | ofClass _ => .untyped

/-- What a function or a cast is applied to. -/
def argument? (f : ResolvedField) : Except QueryError Operand :=
  match f with
  | ofClass .table => .error .attributeOutsideStatements
  | f => .ok f.operand

/-- What a row shows under a label. A class attribute cannot have one. -/
def shown? (f : ResolvedField) : Except QueryError Operand :=
  match f with
  | ofClass _ => .error .attributeWithoutOperation
  | f => .ok f.operand

/-- What rows of an entity are grouped by: a text as a label, and a table as all its columns. -/
def groupOperands? (r : Reach) (f : ResolvedField) : Except QueryError (List Operand) :=
  match f with
  | ofClass (.text s) => .ok [.label s]
  | ofClass (.object _) => .error .attributeOutsideStatements
  | ofClass .table => .ok (r.entity.columns.map fun c => .column (c.at_ r.source))
  | f => .ok [f.operand]

end ResolvedField

namespace Reach

/-- The name of an entity in messages. The related rows of a filter have no name of their own. -/
def shown (r : Reach) : String :=
  match r.source.reading with
  | .base | .related _ => r.entity.name
  | _ => "aliased(" ++ r.entity.name ++ ")"

/-- The relation of a name and the entity it leads to. -/
def related? (schema : Schema) (r : Reach) (name : String) :
    Except QueryError (Relationship × Entity) :=
  match schema.related? r.entity name with
  | some found => .ok found
  | none => .error (.unknownRelation r.shown name)

/-- The class attribute of a name; every class has a name of its own. -/
def classAttribute? (r : Reach) (name : String) : Option ClassAttribute :=
  if name = "__name__" then some (.text r.shown) else r.entity.classAttribute? name

/-- The column of a name, or the relation or the class attribute of that name. -/
def field? (schema : Schema) (r : Reach) (name : String) : Except QueryError ResolvedField :=
  match r.entity.column? name with
  | some column => .ok (.column (column.at_ r.source))
  | none =>
    match schema.related? r.entity name with
    | some (relationship, target) =>
      .ok (.relation relationship
        (relationship.hop r target.reach (.linked relationship.name)).equalities)
    | none =>
      match r.classAttribute? name with
      | some a => .ok (.ofClass a)
      | none => .error (.unknownField r.shown name)

end Reach

end ResourceQuery
