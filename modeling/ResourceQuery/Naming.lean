import ResourceQuery.Text.Letter
import ResourceQuery.Text.Blank
import ResourceQuery.Text.Separated

/-!
# Naming policies

Fields have one name in requests and another in the store. A policy converts both ways.

* `Naming`: a policy, from the request's name to the stored one and back;
* `snakeCase`: words told apart by capitals, joined with underscores in lower case;
* `camelCase`: words joined with underscores, told apart by capitals instead;
* `Naming.identity`, `Naming.snake`, `Naming.prefixed`: the policies.
-/

namespace ResourceQuery

open Text

/-- How field names are converted. -/
structure Naming where
  /-- The stored name of a requested name. -/
  toStorage : String → String
  /-- The requested name of a stored name. -/
  toDomain : String → String

/-- A lower-case letter of ASCII. -/
def isLowerLetter (c : Char) : Bool := 'a' ≤ c && c ≤ 'z'

/-- An upper-case letter of ASCII. -/
def isUpperLetter (c : Char) : Bool := 'A' ≤ c && c ≤ 'Z'

/-- A digit of ASCII. -/
def isDigitLetter (c : Char) : Bool := '0' ≤ c && c ≤ '9'

/-- Whether a word ends between two characters, given what follows them: a capital after a small
letter or a digit begins a word, and so does the last capital of several before a small letter. -/
def breaksBetween (before after : Char) (rest : List Char) : Bool :=
  isUpperLetter after &&
    (isLowerLetter before || isDigitLetter before ||
      (isUpperLetter before && (rest.head?.map isLowerLetter).getD false))

/-- A text with an underscore at the end of every word but the last. -/
def separateWords : List Char → List Char
  | [] => []
  | [c] => [c]
  | c :: d :: rest =>
    if breaksBetween c d rest then c :: '_' :: separateWords (d :: rest)
    else c :: separateWords (d :: rest)

/-- Words told apart by capitals, joined with underscores in lower case. -/
def snakeCase (name : String) : String := String.ofList (lower (separateWords name.toList))

/-- A word with its first character in upper case. -/
def capitalized : List Char → List Char
  | [] => []
  | c :: rest => upperChar c ++ rest

/-- Whether a character is an underscore. -/
def isUnderscore (c : Char) : Bool := c = '_'

/-- Words with underscores between them joined by capitals instead. -/
def joinWords (chars : List Char) : List Char :=
  match pieces '_' chars with
  | [] => []
  | first :: others => first ++ others.flatMap capitalized

/-- Words joined with underscores told apart by capitals instead. Underscores at either end
stay. -/
def camelCase (name : String) : String :=
  let chars := name.toList
  let core := trim isUnderscore chars
  if core.isEmpty then name
  else
    String.ofList
      (chars.takeWhile isUnderscore ++ joinWords core ++
        (chars.reverse.takeWhile isUnderscore).reverse)

namespace Naming

/-- Every name is the same on both sides. -/
def identity : Naming := ⟨id, id⟩

/-- Capitals in requests, underscores in the store. -/
def snake : Naming := ⟨snakeCase, camelCase⟩

/-- A text without a word at its front, if it is there. -/
def dropFront (word text : String) : String :=
  if word.toList.isPrefixOf text.toList then String.ofList (text.toList.drop word.length) else text

/-- Every name has a word in front of it in requests and lacks it in the store. -/
def prefixed (word : String) : Naming := ⟨dropFront word, fun name => word ++ name⟩

end Naming

end ResourceQuery
