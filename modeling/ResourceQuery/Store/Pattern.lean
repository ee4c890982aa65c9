/-!
# Patterns

Patterns of text with wildcards, as a store matches them.

* `Pattern.Token`: any text, any character, or one character;
* `Pattern.tokens?`: the tokens of a pattern, where a mark takes the meaning of a wildcard away;
* `Pattern.visible`: what a store reads of a text;
* `Pattern.matchesText`: whether a text is of the form of some tokens. Letters of ASCII match in
  either case.
-/

namespace ResourceQuery.Pattern

/-- A part of a pattern. -/
inductive Token
  /-- Any text, also an empty one. -/
  | anything
  /-- Any single character. -/
  | anyChar
  | char (c : Char)
deriving DecidableEq, Repr

/-- The tokens of a pattern. A pattern that ends in a mark has none. -/
def tokens? (mark : Option Char) : List Char → Option (List Token)
  | [] => some []
  | [c] =>
    if some c = mark then none
    else if c = '%' then some [.anything]
    else if c = '_' then some [.anyChar]
    else some [.char c]
  | c :: d :: rest =>
    if some c = mark then (tokens? mark rest).map (.char d :: ·)
    else
      let token : Token := if c = '%' then .anything else if c = '_' then .anyChar else .char c
      (tokens? mark (d :: rest)).map (token :: ·)

/-- Whether two characters match: letters of ASCII do in either case. -/
def sameLetter (c d : Char) : Bool := c.toLower == d.toLower

/-- Whether a predicate holds of some end of a text, the text itself and the empty one included. -/
def someSuffix (p : List Char → Bool) : List Char → Bool
  | [] => p []
  | c :: rest => p (c :: rest) || someSuffix p rest

/-- Whether a text is of the form of some tokens. -/
def matchesText : List Token → List Char → Bool
  | [], text => text.isEmpty
  | .anything :: tokens, text => someSuffix (matchesText tokens) text
  | .anyChar :: tokens, text =>
    match text with
    | [] => false
    | _ :: rest => matchesText tokens rest
  | .char c :: tokens, text =>
    match text with
    | [] => false
    | d :: rest => sameLetter c d && matchesText tokens rest

/-- What a store reads of a text or a pattern: nothing from the first null character on. -/
def visible (text : List Char) : List Char := text.takeWhile (· ≠ '\x00')

/-- Whether a text is of the form of a pattern. -/
def holds (mark : Option Char) (pattern text : List Char) : Bool :=
  match tokens? mark (visible pattern) with
  | some tokens => matchesText tokens (visible text)
  | none => false

end ResourceQuery.Pattern
