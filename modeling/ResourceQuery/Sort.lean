import ResourceQuery.Path

/-!
# Sort keys

The sort parameter: field paths in order of precedence, a leading dash for a descending key.

* `SortKey`: a path and a direction;
* `SortKey.token`: the key as text;
* `SortKey.read?`: the key of one token;
* `SortKeys.read?`: the keys of the parameter, in its order.
-/

namespace ResourceQuery

open Text

/-- A path to sort by, and whether large values come first. -/
structure SortKey where
  path : FieldPath
  descending : Bool
deriving DecidableEq, Repr, Inhabited

namespace SortKey

/-- The key as text. -/
def token (k : SortKey) : String := (if k.descending then "-" else "") ++ k.path.dotted

/-- A leading dash, and the text without it. -/
def takeDash (text : String) : Bool × String :=
  match text.toList with
  | '-' :: rest => (true, String.ofList rest)
  | _ => (false, text)

/-- The key of a token. -/
def read? (source : String) (text : String) : Checked SortKey :=
  let (descending, name) := takeDash text
  (FieldPath.read? name (some source)).map fun path => ⟨path, descending⟩

/-- The key of an item, which is a text. -/
def readItem? (source : String) : Value → Checked SortKey
  | .text s => read? source s
  | v => failAt (some source) (.notFieldName v.kind)

end SortKey

namespace SortKeys

/-- The path of the item at an index. -/
def itemPath (index : Nat) : String := "sort." ++ toString index

/-- The keys of the items from `index` on. -/
def readItems? (index : Nat) : List Value → Checked (List SortKey)
  | [] => .ok []
  | item :: rest => do
    let key ← SortKey.readItem? (itemPath index) item
    let more ← readItems? (index + 1) rest
    .ok (key :: more)

/-- The keys of the sort parameter. -/
def read? (spec : Value) : Checked (List SortKey) :=
  if spec.isEmpty then .ok []
  else
    match spec with
    | .text s => readItems? 0 ((splitAt ',' s).map .text)
    | spec =>
      match spec.elements? with
      | some items => readItems? 0 items
      | none => failAt (some "sort") (.notFieldList spec.kind)

end SortKeys

end ResourceQuery
