import ResourceQuery.Resolution
import ResourceQuery.Naming
import ResourceQuery.Text.Separated

/-!
# Joined relation paths

Relation paths that a statement joins, each of them once.

* `JoinCache`: the readings of the paths joined so far, by their requested names;
* `JoinCache.path?`: the joins that a path still needs, and the reading at its end.

A path is joined relation by relation, each one from the reading of the path before it. Where a
relation is not known, the readings before it stay in the cache.
-/

namespace ResourceQuery

open Text

/-- The readings of the paths joined so far. -/
structure JoinCache where
  readings : List (String × Reach) := []
deriving Inhabited

namespace JoinCache

/-- The reading of a path. -/
def get? (c : JoinCache) (path : String) : Option Reach :=
  (c.readings.find? (·.1 == path)).map (·.2)

/-- Whether a path is joined. -/
def contains (c : JoinCache) (path : String) : Bool := (c.get? path).isSome

/-- How many paths are joined. -/
def size (c : JoinCache) : Nat := c.readings.length

/-- One more reading. -/
def add (c : JoinCache) (path : String) (r : Reach) : JoinCache := ⟨c.readings ++ [(path, r)]⟩

/-- The reading of one relation after a path. -/
def step? (schema : Schema) (naming : Naming) (current : Reach) (path name : String) :
    Except QueryError (Join × Reach) := do
  let (relationship, target) ← current.related? schema (naming.toStorage name)
  let reading := target.reachAs (.joined path)
  .ok (⟨current.source, relationship.hop current reading (.joinedLink path)⟩, reading)

/-- The joins that the relations `rest` still need after those in `done`, and the reading at their
end. -/
def from? (schema : Schema) (naming : Naming) (c : JoinCache) (current : Reach)
    (done rest : List String) : JoinCache × Except QueryError (List Join × Reach) :=
  match rest with
  | [] => (c, .ok ([], current))
  | name :: rest =>
    let done := done ++ [name]
    let path := joinWith '.' done
    match c.get? path with
    | some reading => from? schema naming c reading done rest
    | none =>
      match step? schema naming current path name with
      | .error e => (c, .error e)
      | .ok (join, reading) =>
        let (c, result) := from? schema naming (c.add path reading) reading done rest
        (c, result.map fun (joins, last) => (join :: joins, last))

/-- The joins that a path from an entity still needs, and the reading at its end. -/
def path? (schema : Schema) (naming : Naming) (e : Entity) (c : JoinCache)
    (relations : List String) : JoinCache × Except QueryError (List Join × Reach) :=
  from? schema naming c e.reach [] relations

end JoinCache

end ResourceQuery
