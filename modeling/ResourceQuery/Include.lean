import ResourceQuery.Path

/-!
# Included relations

The include parameter: paths of relations to load with a record, each of them alone or with a
refinement of the related rows.

* `Refinement`: steps that narrow the rows of a relation;
* `IncludedPath`: a path of relations and its refinement;
* `IncludedPath.read?`: one entry of the parameter;
* `Include.read?`: the entries of the parameter, in its order.
-/

namespace ResourceQuery

open Text

/-- Steps that narrow the rows of a relation. -/
structure Refinement where
  form : Refinement.Form
  steps : List RefineStep
deriving Inhabited

/-- The refinement that a value is. -/
def Refinement.ofValue? : Value → Option Refinement
  | .refinement form steps => some ⟨form, steps⟩
  | _ => none

/-- The refinement that a value is; any other value is an error. -/
def Refinement.read? (v : Value) : Except QueryError Refinement :=
  match Refinement.ofValue? v with
  | some refinement => .ok refinement
  | none => .error (.notRelationRefinement v.kind)

/-- A path of relations to load, and the refinement of its last one. -/
structure IncludedPath where
  relations : List String
  refinement : Option Refinement
deriving Inhabited

namespace IncludedPath

/-- The path as text. -/
def dotted (p : IncludedPath) : String := joinWith '.' p.relations

/-- The path of an entry: a text, or a mapping from one path to its refinement. -/
def read? (source : String) : Value → Checked IncludedPath
  | .text s => (readRelations? (.text s) (some source)).map fun r => ⟨r, none⟩
  | .map [(key, value)] =>
    match Refinement.ofValue? value with
    | none => failAt (some (source ++ "." ++ key.plain)) (.notRefinement value.kind)
    | some refinement =>
      (readRelations? key (some source)).map fun r => ⟨r, some refinement⟩
  | .map entries => failAt (some source) (.notOneRelation entries.length)
  | v => failAt (some source) (.notRelation v.kind)

end IncludedPath

namespace Include

/-- The path of the entry at an index. -/
def entryPath (index : Nat) : String := "include." ++ toString index

/-- The paths of the entries from `index` on. -/
def readEntries? (index : Nat) : List Value → Checked (List IncludedPath)
  | [] => .ok []
  | entry :: rest => do
    let path ← IncludedPath.read? (entryPath index) entry
    let more ← readEntries? (index + 1) rest
    .ok (path :: more)

/-- The paths of the include parameter. -/
def read? (spec : Value) : Checked (List IncludedPath) :=
  if spec.isEmpty then .ok []
  else
    match spec with
    | .text s => readEntries? 0 ((splitAt ',' s).map .text)
    | spec =>
      match spec.elements? with
      | some entries => readEntries? 0 entries
      | none => failAt (some "include") (.notRelationList spec.kind)

end Include

end ResourceQuery
