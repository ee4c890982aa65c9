import ResourceQuery.Statement.Scope

/-!
# The text of a statement

A statement as the store reads it, with the values apart from the text.

* `Piece`: a part of the text: words, the place of a value, the name of a source, or a name of its
  own;
* `Rendered`, `render`: the text of some pieces and the values of its parameters;
* `Predicate.pieces`, `Statement.pieces`, `Statement.countPieces`: the pieces of conditions, of
  statements, and of the statement that counts the rows of another one;
* `Statement.text`, `Statement.countText`: the same, rendered;
* `Statement.rendered?`: what keeps a statement from being written.

A value never becomes part of the words: only its place does. Names end in numbers, which count the
names of one stem in the order in which they appear in the text.
-/

namespace ResourceQuery

/-- A part of a text. -/
inductive Piece
  | word (text : String)
  /-- The place of a value, under a name with a stem. -/
  | value (stem : String) (v : Value)
  /-- The name of a reading of a table, the same wherever it appears. -/
  | source (s : Source)
  /-- A name that appears once, and is made before the names after this place are. -/
  | reserve (stem : String)
  /-- The place of the name that was reserved last. -/
  | reserved
deriving Inhabited

/-- A text and the values of its parameters. -/
structure Rendered where
  sql : String
  params : List (String × Value)
deriving Inhabited

/-- The names given so far. -/
structure Names where
  counts : List (String × Nat) := []
  sources : List (Source × String) := []
  reserved : String := ""

namespace Names

/-- One more name of a stem. -/
def fresh (n : Names) (stem : String) : String × Names :=
  let count := ((n.counts.find? (·.1 == stem)).map (·.2)).getD 0 + 1
  (stem ++ "_" ++ toString count,
    { n with counts := (stem, count) :: n.counts.filter (·.1 != stem) })

/-- The name of a source. -/
def ofSource (n : Names) (s : Source) : String × Names :=
  match n.sources.find? (·.1 == s) with
  | some (_, name) => (name, n)
  | none =>
    let (name, n) := n.fresh s.table
    (name, { n with sources := (s, name) :: n.sources })

end Names

/-- The words of some pieces, and the values with their names. -/
def renderFrom (n : Names) : List Piece → List String × List (String × Value)
  | [] => ([], [])
  | .word text :: rest =>
    let (words, params) := renderFrom n rest
    (text :: words, params)
  | .value stem v :: rest =>
    let (name, n) := n.fresh stem
    let (words, params) := renderFrom n rest
    (":" :: name :: words, (name, v) :: params)
  | .source s :: rest =>
    let (name, n) := n.ofSource s
    let (words, params) := renderFrom n rest
    (name :: words, params)
  | .reserve stem :: rest =>
    let (name, n) := n.fresh stem
    renderFrom { n with reserved := name } rest
  | .reserved :: rest =>
    let (words, params) := renderFrom n rest
    (n.reserved :: words, params)

/-- The text of some pieces. -/
def render (pieces : List Piece) : Rendered :=
  let (words, params) := renderFrom {} pieces
  ⟨String.join words, params⟩

/-- Lists of pieces with a separator between them. -/
def separated (separator : String) : List (List Piece) → List Piece
  | [] => []
  | [last] => last
  | first :: second :: rest => first ++ .word separator :: separated separator (second :: rest)

/-- Pieces in parentheses. -/
def parenthesized (pieces : List Piece) : List Piece := .word "(" :: pieces ++ [.word ")"]

namespace Source

/-- The name of a source where its columns are mentioned. -/
def namePieces (s : Source) : List Piece :=
  match s.reading with
  | .base => [.word s.table]
  | _ => [.source s]

/-- A source where it is read. -/
def pieces (s : Source) : List Piece :=
  match s.reading with
  | .base => [.word s.table]
  | _ => [.word s.table, .word " AS ", .source s]

end Source

/-- A column. -/
def ColumnRef.pieces (c : ColumnRef) : List Piece :=
  c.source.namePieces ++ [.word ".", .word c.name]

/-- Two columns that are equal. -/
def Equality.pieces (e : Equality) : List Piece := e.left.pieces ++ .word " = " :: e.right.pieces

/-- Equalities that hold together. -/
def equalityPieces (equalities : List Equality) : List Piece :=
  separated " AND " (equalities.map (·.pieces))

namespace Operand

/-- An operand. `stem` is that of the name of a constant's value. -/
def piecesBy (stem : String) : Operand → List Piece
  | column c => c.pieces
  | linked equalities => equalityPieces equalities
  | constant a => [.value stem a.value]
  | label name => [.word name]

/-- An operand on its own. -/
def pieces (x : Operand) : List Piece := x.piecesBy "param"

/-- The stem of the names of values that are compared with an operand. -/
def stem : Operand → String
  | column c => c.name
  | _ => "param"

end Operand

/-- A term. -/
def Term.pieces : Term → List Piece
  | .plain x => x.pieces
  | .aggregate function x => .word function.name :: parenthesized (x.piecesBy function.name)
  | .countAll => [.word "count(*)"]

/-- A comparison as it is written. -/
def Comparison.symbol : Comparison → String
  | .eq => " = "
  | .ne => " != "
  | .lt => " < "
  | .le => " <= "
  | .gt => " > "
  | .ge => " >= "
  | .like => " LIKE "

/-- A value that a column is compared with: truth values are words. -/
def comparedPieces (stem : String) : Value → List Piece
  | .bool true => [.word "true"]
  | .bool false => [.word "false"]
  | v => [.value stem v]

/-- What the wildcards of a pattern are escaped with. -/
def escapeMark : Char := '/'

/-- A fragment as part of a pattern: marks and wildcards are escaped. -/
def escapedFragment (fragment : String) : String :=
  String.ofList (fragment.toList.flatMap fun c =>
    if c = escapeMark ∨ c = '%' ∨ c = '_' then [escapeMark, c] else [c])

/-- Where a condition stands, which decides about its parentheses. -/
inductive Place
  /-- It is the whole text. -/
  | alone
  /-- It is all that a statement asks for. -/
  | whole
  /-- It is one of several conditions that all hold. -/
  | amongAll
  /-- It is one of several conditions of which one holds. -/
  | amongAny
deriving DecidableEq, Repr

/-- A step read by an outer join. -/
def Hop.outerPieces (h : Hop) : List Piece :=
  match h.route with
  | .direct on =>
    .word " LEFT OUTER JOIN " :: h.target.pieces ++ .word " ON " :: equalityPieces on
  | .through link near far =>
    .word " LEFT OUTER JOIN (" :: link.pieces ++ .word " JOIN " :: h.target.pieces ++
      .word " ON " :: equalityPieces far ++ .word ") ON " :: equalityPieces near

/-- A step read by inner joins. -/
def Hop.innerPieces (h : Hop) : List Piece :=
  match h.route with
  | .direct on => .word " JOIN " :: h.target.pieces ++ .word " ON " :: equalityPieces on
  | .through link near far =>
    .word " JOIN " :: link.pieces ++ .word " ON " :: equalityPieces near ++
      .word " JOIN " :: h.target.pieces ++ .word " ON " :: equalityPieces far

/-- What is read, after the word for it; nothing when nothing is read. -/
def fromPieces (items : List (List Piece)) : List Piece :=
  if items.isEmpty then [] else .word " \nFROM " :: separated ", " items

/-- A condition, inside statements that read `outer`. -/
def Predicate.pieces (outer : List Source) (place : Place) : Predicate → List Piece
  | .always => [.word "true"]
  | .never => [.word "false"]
  | .isNull x => x.pieces ++ [.word " IS NULL"]
  | .notNull x => x.pieces ++ [.word " IS NOT NULL"]
  | .compare x comparison v =>
    let body := x.pieces ++ .word comparison.symbol :: comparedPieces x.name v
    if comparison = .like ∧ place ≠ .alone then parenthesized body else body
  | .contains x cast fragment =>
    let tested := if cast then .word "CAST(" :: x.pieces ++ [.word " AS VARCHAR)"] else x.pieces
    let stem := if cast then "param" else x.stem
    let body := tested ++ [.word " LIKE '%' || ", .value stem (.text (escapedFragment fragment)),
      .word " || '%' ESCAPE '/'"]
    if place = .alone then body else parenthesized body
  | .both p q => p.pieces outer .amongAll ++ .word " AND " :: q.pieces outer .amongAll
  | .either p q =>
    let body := p.pieces outer .amongAny ++ .word " OR " :: q.pieces outer .amongAny
    if place = .amongAll then parenthesized body else body
  | .related hop criterion =>
    let more := hop.unread outer criterion
    let inner := hop.sources ++ more ++ outer
    let body := .word "EXISTS (SELECT 1" ::
      fromPieces ((hop.sources ++ more).map (·.pieces)) ++ .word " \nWHERE " ::
        separated " AND " (hop.equalities.map (·.pieces)) ++ .word " AND " ::
          criterion.pieces inner .amongAll ++ [.word ")"]
    if place = .amongAll ∨ place = .amongAny then parenthesized body else body

/-- A chain of outer joins. -/
def Chain.outerPieces (c : Chain) : List Piece := c.root.pieces ++ c.hops.flatMap (·.outerPieces)

/-- A chain of inner joins. -/
def Chain.innerPieces (c : Chain) : List Piece := c.root.pieces ++ c.hops.flatMap (·.innerPieces)

/-- What rows are ordered by, in a statement that reads `outer`. -/
def OrderKey.pieces (outer : List Source) (key : OrderKey) : List Piece :=
  match key with
  | .term t => t.pieces
  | .extreme largest _ _ x sameKey =>
    let function := if largest then AggregateFunction.max else .min
    .word "(SELECT " :: .reserve function.name :: (Term.aggregate function x).pieces ++
      .word " AS " :: .reserved :: fromPieces ((key.chains outer).map (·.innerPieces)) ++
        .word " \nWHERE " :: equalityPieces sameKey ++ [.word ")"]

/-- A term to order by: null comes first when small values do, and last otherwise. -/
def OrderTerm.pieces (outer : List Source) (t : OrderTerm) : List Piece :=
  t.key.pieces outer ++ [.word (if t.descending then " DESC NULLS LAST" else " ASC NULLS FIRST")]

/-- A selection. -/
def Selection.pieces (root : Source) : Selection → List Piece
  | .records columns => separated ", " (columns.map fun c => (c.at_ root).pieces)
  | .rows terms =>
    separated ", " (terms.map fun t => t.term.pieces ++ [.word " AS ", .word t.label])

/-- Pieces after a word, when there are any. -/
def clause (word : String) (pieces : List Piece) : List Piece :=
  if pieces.isEmpty then [] else .word word :: pieces

/-- The limit and the offset of a statement. An offset of zero is not written. -/
def windowPieces (limit offset : Option Int) : List Piece :=
  let offset := offset.filter (· ≠ 0)
  match limit, offset with
  | none, none => []
  | some l, none => [.word "\n LIMIT ", .value "param" (.int l)]
  | none, some o => [.word "\n LIMIT -1 OFFSET ", .value "param" (.int o)]
  | some l, some o =>
    [.word "\n LIMIT ", .value "param" (.int l), .word " OFFSET ", .value "param" (.int o)]

namespace Statement

/-- The conditions of a statement. -/
def conditionPieces (s : Statement) : List Piece :=
  match Predicate.written s.conditions with
  | [] => []
  | [p] => p.pieces s.sources .whole
  | conditions => (Predicate.allOf conditions).pieces s.sources .amongAll

/-- A statement with some pieces as its selection, up to its groups. -/
def bodyPieces (s : Statement) (selected : List Piece) : List Piece :=
  .word "SELECT " :: selected ++ fromPieces (s.chains.map (·.outerPieces)) ++
    clause " \nWHERE " s.conditionPieces ++
      clause " GROUP BY " (separated ", " (s.group.map (·.pieces)))

/-- A whole statement. -/
def pieces (s : Statement) : List Piece :=
  s.bodyPieces (s.selection.pieces s.root) ++
    clause " ORDER BY " (separated ", " (s.order.map (·.pieces s.sources))) ++
      windowPieces s.limit s.offset

/-- The statement that counts the rows of another one, or its records by their keys. -/
def countPieces (s : Statement) : List Piece :=
  match s.selection with
  | .rows _ =>
    .word "SELECT count(*) AS count_1 \nFROM (" :: s.bodyPieces (s.selection.pieces s.root) ++
      [.word ") AS anon_1"]
  | .records _ =>
    let named := fun c : Column => (c.at_ s.root).pieces ++ [.word " AS ", .word c.name]
    let key := fun c : Column => [Piece.word "anon_2.", .word c.name, .word " AS ", .word c.name]
    .word "SELECT count(*) AS count_1 \nFROM (SELECT DISTINCT " ::
      separated ", " (s.entity.keyColumns.map key) ++ .word " \nFROM (" ::
        s.bodyPieces (separated ", " (s.entity.columns.map named)) ++
          [.word ") AS anon_2) AS anon_1"]

/-- A statement as text. -/
def text (s : Statement) : Rendered := render s.pieces

/-- A statement as text, unless rows are grouped by a label that names nothing. -/
def rendered? (s : Statement) : Except QueryError Rendered :=
  if s.group.any (·.isLabel) then .error (.store .unresolvedLabel) else .ok s.text

/-- The counting statement as text. -/
def countText (s : Statement) : Rendered := render s.countPieces

end Statement

/-- A condition as text. -/
def Predicate.text (p : Predicate) : Rendered := render (p.pieces [] .alone)

/-- A term as text. -/
def Term.text (t : Term) : Rendered := render t.pieces

end ResourceQuery
