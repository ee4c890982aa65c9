import ResourceQuery.Error

/-!
# Field paths

A field, possibly reached through relations: `pets.toy.type` is the field `type` behind the
relations `pets` and `toy`.

* `FieldPath`: the relations and the field;
* `FieldPath.dotted`: the path as text;
* `segments?`: the segments between the dots, none of them empty;
* `FieldPath.read?`, `readRelations?`: a path to a field, and a path of relations alone.
-/

namespace ResourceQuery

open Text

/-- A field and the relations that lead to it. -/
structure FieldPath where
  relations : List String
  field : String
deriving DecidableEq, Repr, Inhabited

namespace FieldPath

/-- Whether no relation leads to the field. -/
def isLocal (p : FieldPath) : Bool := p.relations.isEmpty

/-- The relations as text; empty for a field without relations. -/
def relationKey (p : FieldPath) : String := joinWith '.' p.relations

/-- The path as text. -/
def dotted (p : FieldPath) : String := joinWith '.' (p.relations ++ [p.field])

/-- The last segment is the field, the others are relations. -/
def ofSegments : List String → FieldPath
  | [] => ⟨[], ""⟩
  | [field] => ⟨[], field⟩
  | relation :: rest =>
    let path := ofSegments rest
    ⟨relation :: path.relations, path.field⟩

end FieldPath

/-- The segments of a key between its dots. The key and every segment are not empty. -/
def segments? (key : String) (source : Option String) : Checked (List String) :=
  if key = "" then failAt source (.noName (quoted key))
  else
    let parts := splitAt '.' key
    if "" ∈ parts then failAt source (.emptySegment key) else .ok parts

/-- The segments of a key that may be any value. -/
def segmentsOf? (key : Value) (source : Option String) : Checked (List String) :=
  match key with
  | .text s => segments? s source
  | v => failAt source (.noName v.shown)

/-- A path to a field. -/
def FieldPath.read? (key : String) (source : Option String) : Checked FieldPath :=
  (segments? key source).map ofSegments

/-- A path to a field, from a key that may be any value. -/
def FieldPath.readValue? (key : Value) (source : Option String) : Checked FieldPath :=
  (segmentsOf? key source).map ofSegments

/-- A path of relations. -/
def readRelations? (key : Value) (source : Option String) : Checked (List String) :=
  segmentsOf? key source

end ResourceQuery
