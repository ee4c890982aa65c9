import ResourceQuery.Statement.Group

/-!
# The meaning of a statement

The answer of a store to a statement.

* `AnswerRow`: one row of an answer;
* `Statement.fault?`: what the store refuses about a statement;
* `Statement.resultFault?`: what it refuses about the rows of the answer;
* `Statement.run`: the rows of the answer, or what the store refuses;
* `Statement.count`: how many rows the counting statement counts.
-/

namespace ResourceQuery

namespace Statement

/-- What a limit and an offset leave of a list. A negative limit leaves everything. -/
def window {α : Type} (limit offset : Option Int) (xs : List α) : List α :=
  let rest := xs.drop ((offset.map Int.toNat).getD 0)
  match limit with
  | none => rest
  | some l => if l < 0 then rest else rest.take l.toNat

end Statement

/-- One row of an answer: the record of an entity, or the values of terms by their labels. -/
inductive AnswerRow
  | record (row : Option StoredRow)
  | values (entries : List (String × Value))
deriving Inhabited

/-- Labels with a number after each one that appeared before. -/
def numberedLabels (seen : List String) : List String → List String
  | [] => []
  | label :: rest =>
    let count := seen.count label
    let name := if count = 0 then label else label ++ "_" ++ toString count
    name :: numberedLabels (label :: seen) rest

namespace Statement

/-- What a group shows. -/
def answerRow (s : Statement) (g : FrameGroup) : AnswerRow :=
  match s.selection with
  | .records _ => .record (g.shown.row? s.root)
  | .rows terms =>
    .values ((numberedLabels [] (terms.map (·.label))).zip
      (terms.map fun t => (t.term.cell g).toValue t.term.type))

/-- The values that a statement compares with or is limited by, in the order of its text. -/
def values (pieces : List Piece) : List Value :=
  pieces.filterMap fun
    | .value _ v => some v
    | _ => none

/-- Whether an order needs nothing but the key of the entity, which is all that comes first in it:
records with different keys need no further comparison. Only a count of all rows is still asked
for. -/
def orderedByKey (s : Statement) (order : List OrderTerm) : Bool :=
  let first := order.take s.keyOperands.length
  (first.map plainKey? == s.keyOperands.map some) &&
    (first.all (·.descending) || first.all (!·.descending)) &&
    order.all fun o => o.key != .term .countAll

/-- What the store refuses about a statement with some order: a label that names nothing, a column
of a source that it does not read, an order by an aggregate of rows that are about no groups, or a
value that it cannot hold. -/
def fault? (s : Statement) (order : List OrderTerm) (pieces : List Piece) : Option StoreFault :=
  let keys := order.filterMap (·.key.term?)
  let needed := !s.readsOneRecord && !s.orderedByKey order
  if s.group.any (·.isLabel) then some .unresolvedLabel
  else if !(s.group.flatMap (·.sources) ++ keys.flatMap (·.sources)).all (· ∈ s.sources) then
    some .unknownColumn
  else if keys.any (·.isAggregate) && !s.isGrouped && needed then some .misplacedAggregate
  else (values pieces).findSome? (·.storeFault?)

/-- The rows of the answer. -/
def rows (db : Database) (s : Statement) : List AnswerRow :=
  (window s.limit s.offset (s.groups db)).map s.answerRow

/-- The groups that the store computes: those up to the last one of the window, unless all have to
be put in order first. -/
def computedGroups (db : Database) (s : Statement) : List FrameGroup :=
  if s.limit = some 0 then []
  else if !s.order.isEmpty && s.order.map plainKey? != s.group.map some then s.groups db
  else window (s.limit.map fun l => if l < 0 then l else l + (s.offset.getD 0).toNat) none
    (s.groups db)

/-- Whether every cell that a group shows is a value of the type of its term. -/
def isReadable (s : Statement) (g : FrameGroup) : Bool :=
  s.selectedTerms.all fun t => ((t.cell g).read? t.type).isSome

/-- What the store refuses about the rows of the answer: a sum that is too large for its integers,
or a cell that is no value of the type of its term. -/
def resultFault? (db : Database) (s : Statement) : Option StoreFault :=
  if (s.computedGroups db).any fun g => s.terms.any (·.overflows g) then some .integerOverflow
  else if (window s.limit s.offset (s.groups db)).all s.isReadable then none
  else some .unreadableCell

/-- What the store refuses. -/
def runFault? (db : Database) (s : Statement) : Option StoreFault :=
  (s.fault? s.order s.pieces).or (s.resultFault? db)

/-- The answer of the store. -/
def run (db : Database) (s : Statement) : Except StoreFault (List AnswerRow) :=
  match s.runFault? db with
  | some fault => .error fault
  | none => .ok (s.rows db)

/-- The key of a frame of the entity. -/
def keyCells (s : Statement) (f : Frame) : List Cell :=
  s.entity.keyColumns.map fun c => f.get (c.at_ s.root)

/-- How many rows a statement has without order and page: records with different keys, or rows. -/
def rowCount (db : Database) (s : Statement) : Nat :=
  match s.selection with
  | .records _ => ((s.frames db).map s.keyCells).eraseDups.length
  | .rows _ => ({ s with order := [] }.unorderedGroups (s.frames db)).length

/-- What the store refuses about the counting statement: what it refuses about the statement, or a
sum that a row shows and that is too large for its integers. -/
def countFault? (db : Database) (s : Statement) : Option StoreFault :=
  (s.fault? [] s.countPieces).or
    (if (s.groups db).any fun g => s.selectedTerms.any (·.overflows g) then some .integerOverflow
    else none)

/-- The answer of the store to the counting statement. -/
def count (db : Database) (s : Statement) : Except StoreFault Nat :=
  match s.countFault? db with
  | some fault => .error fault
  | none => .ok (s.rowCount db)

end Statement

end ResourceQuery
