import ResourceQuery.Page
import ResourceQuery.Text.Separated

/-!
# Parameters of a request

The outer shape of a request: six parameters and no others. What is inside a filter, a sort key, a
relation or a field name is read later.

* `Parameters`: the parameters in one form, whatever form they came in;
* `Parameters.parse`: the parameters of a request, or the first fault in it;
* `Parameters.toValue`: the parameters written back as a request.
-/

namespace ResourceQuery

open Text Input

/-- The parameters of a request. -/
structure Parameters where
  filter : List (String × Value) := []
  sort : List String := []
  fields : List (String × List String) := []
  includes : List Value := []
  group : List String := []
  page : Option PageRequest := none
deriving Inhabited

namespace Parameters

/-- The names of the parameters. -/
def names : List String := ["filter", "sort", "fields", "include", "group", "page"]

/-- A text with commas as a list of its pieces that are not empty; any other value as it is. -/
def splitText : Value → Value
  | .text s => .list ((splitNonempty ',' s).map .text)
  | v => v

/-- The entries of a filter. -/
def filterEntries : List (Value × Value) → Located (List (String × Value))
  | [] => .ok []
  | (key, v) :: rest => do
    let name ← readKey key
    let more ← filterEntries rest
    .ok ((name, v) :: more)

/-- The filter parameter: a mapping with texts as keys. -/
def readFilter : Value → Located (List (String × Value))
  | .null => .ok []
  | .map entries => (filterEntries entries).map ofEntries
  | _ => at_ [] (.error .notMapping)

/-- A list of texts, which may come as one text with commas. -/
def readNames : Value → Located (List String)
  | .null => .ok []
  | v => readTextList (splitText v)

/-- The include parameter: a list of any values. -/
def readIncludes : Value → Located (List Value)
  | .null => .ok []
  | v => at_ [] (readList (splitText v))

/-- The entries of the fields. -/
def fieldsEntries : List (Value × Value) → Located (List (String × List String))
  | [] => .ok []
  | (key, v) :: rest => do
    let type ← readKey key
    let names ← under (keyText key) (readTextList (splitText v))
    let more ← fieldsEntries rest
    .ok ((type, names) :: more)

/-- The fields parameter: lists of texts by resource type. -/
def readFields : Value → Located (List (String × List String))
  | .null => .ok []
  | .map entries => (fieldsEntries entries).map ofEntries
  | _ => at_ [] (.error .notMapping)

/-- The page parameter. -/
def readPage : Value → Located (Option PageRequest)
  | .null => .ok none
  | v => (PageRequest.read v).map some

/-- The first key that is no parameter is an error. -/
def checkKeys : List (Value × Value) → Located Unit
  | [] => .ok ()
  | (.text key, _) :: rest =>
    if key ∈ names then checkKeys rest else at_ [key] (.error .unknownKey)
  | (key, _) :: _ => at_ [keyText key] (.error .keyNotText)

/-- One parameter of a request; a missing one counts as null. -/
def readOne {α : Type} (read : Value → Located α) (name : String)
    (entries : List (Value × Value)) : Located α :=
  under name (read ((Value.lookup? (.text name) entries).getD .null))

/-- The parameters of the entries of a request. -/
def read (entries : List (Value × Value)) : Located Parameters := do
  let filter ← readOne readFilter "filter" entries
  let sort ← readOne readNames "sort" entries
  let fields ← readOne readFields "fields" entries
  let includes ← readOne readIncludes "include" entries
  let group ← readOne readNames "group" entries
  let page ← readOne readPage "page" entries
  checkKeys entries
  .ok ⟨filter, sort, fields, includes, group, page⟩

/-- The fault of a request as an error of a parameter, at its path. -/
def asParameterError (e : InputError) : ParameterError :=
  let path := joinWith '.' e.location
  ⟨.input e.fault, if path.isEmpty then none else some path⟩

/-- The parameters of a request; null has none. -/
def parse (raw : Value) : Checked Parameters :=
  match raw with
  | .null => .ok {}
  | .map entries => (read entries).mapError asParameterError
  | v => failAt none (.notParameters v.kind)

/-- The filter as a value. -/
def filterValue (p : Parameters) : Value := .ofFields p.filter

/-- A list of texts as a value. -/
def textsValue (texts : List String) : Value := .list (texts.map .text)

/-- The fields as a value. -/
def fieldsValue (p : Parameters) : Value :=
  .ofFields (p.fields.map fun (type, names) => (type, textsValue names))

/-- The parameters written back as a request. -/
def toValue (p : Parameters) : Value :=
  .ofFields [
    ("filter", p.filterValue),
    ("sort", textsValue p.sort),
    ("fields", p.fieldsValue),
    ("include", .list p.includes),
    ("group", textsValue p.group),
    ("page", (p.page.map PageRequest.toValue).getD .null)]

end Parameters

end ResourceQuery
