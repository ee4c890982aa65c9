import ResourceQuery.Value

/-!
# Value lists

A filter value in text form: values separated by commas, where a backslash keeps the comma after
it from separating.

* `ValueList.cut`: the parts between the separating commas, as they are written;
* `ValueList.unescape`: a part with the backslash before each of its commas removed;
* `ValueList.read`: the values of a text;
* `ValueList.write`: a list of values as one text;
* `ValueList.ofValue`: the values of a parameter, which may also come as a list.
-/

namespace ResourceQuery.ValueList

/-- A character in front of the first part. -/
def prepend (c : Char) : List (List Char) → List (List Char)
  | [] => [[c]]
  | part :: parts => (c :: part) :: parts

/-- The parts of a text between the commas that no backslash precedes. `escaped` says whether a
backslash stands right before the text. -/
def cut (escaped : Bool) : List Char → List (List Char)
  | [] => [[]]
  | c :: rest =>
    if c = ',' ∧ escaped = false then [] :: cut false rest
    else prepend c (cut (c == '\\') rest)

/-- A part without the backslash before each of its commas. -/
def unescape : List Char → List Char
  | [] => []
  | [c] => [c]
  | c :: d :: rest =>
    if c = '\\' ∧ d = ',' then ',' :: unescape rest else c :: unescape (d :: rest)

/-- The values of a text. -/
def read (text : String) : List String :=
  (cut false text.toList).map fun part => String.ofList (unescape part)

/-- A value with a backslash before each of its commas. -/
def escape : List Char → List Char
  | [] => []
  | c :: rest => if c = ',' then '\\' :: ',' :: escape rest else c :: escape rest

/-- A list of values as one text. -/
def write (values : List String) : String :=
  String.ofList (Text.joined ',' (values.map fun v => escape v.toList))

/-- The values of a parameter: those of its text, those of a list, or the one value it is. -/
def ofValue : Value → List Value
  | .text s => (read s).map .text
  | .list xs => xs
  | .tuple xs => xs
  | v => [v]

end ResourceQuery.ValueList
