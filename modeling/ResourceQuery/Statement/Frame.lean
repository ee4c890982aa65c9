import ResourceQuery.Statement.Text
import ResourceQuery.Store
import ResourceQuery.Store.Pattern

/-!
# Conditions on rows

What the conditions of a statement mean for the rows of a database.

* `Frame`: the rows that stand for the sources of a statement at one moment;
* `Predicate.truth`: a condition on a frame, in three-valued logic;
* `Hop.inner`, `Hop.outer`: the frames after a step to related rows;
* `Statement.frames`: the frames that satisfy the conditions of a statement.

A source that an outer join found no row for has no row in a frame: all its columns are null. A
condition keeps a frame only when it is true, not when it is unknown.
-/

namespace ResourceQuery

/-- The rows that stand for some sources, the innermost ones first. -/
abbrev Frame := List (Source × Option StoredRow)

namespace Frame

/-- The row of a source. -/
def row? (f : Frame) (s : Source) : Option StoredRow := (f.find? (·.1 == s)).bind (·.2)

/-- The cell of a column. -/
def get (f : Frame) (c : ColumnRef) : Cell := ((f.row? c.source).map (·.get c.name)).getD .null

/-- The sources of a frame. -/
def sources (f : Frame) : List Source := f.map (·.1)

end Frame

/-- Both of two truth values. -/
def andTruth : Option Bool → Option Bool → Option Bool
  | some false, _ => some false
  | _, some false => some false
  | some true, some true => some true
  | _, _ => none

/-- One of two truth values. -/
def orTruth : Option Bool → Option Bool → Option Bool
  | some true, _ => some true
  | _, some true => some true
  | some false, some false => some false
  | _, _ => none

/-- Whether two columns are equal. -/
def Equality.truth (f : Frame) (e : Equality) : Option Bool :=
  Cell.compare? .eq (f.get e.left) (f.get e.right)

/-- Whether some equalities hold together. -/
def equalitiesTruth (f : Frame) (equalities : List Equality) : Option Bool :=
  equalities.foldr (fun e t => andTruth (e.truth f) t) (some true)

/-- A truth value as a cell. -/
def Cell.ofTruth : Option Bool → Cell
  | none => .null
  | some b => .integer (if b then 1 else 0)

/-- The cell of an operand. -/
def Operand.cell (f : Frame) : Operand → Cell
  | column c => f.get c
  | linked equalities => .ofTruth (equalitiesTruth f equalities)
  | constant a => .ofValue a.value
  | label _ => .null

/-- Whether the text of a cell is of the form of a pattern; unknown for null. -/
def Cell.matchesPattern? (mark : Option Char) (pattern : String) (c : Cell) : Option Bool :=
  if c.isNull then none else some (Pattern.holds mark pattern.toList c.toText.toList)

/-- The pattern of the texts that hold a fragment. -/
def fragmentPattern (fragment : String) : String := "%" ++ escapedFragment fragment ++ "%"

/-- The frames with a row of every one of some sources in front. -/
def Database.extend (db : Database) : List Source → Frame → List Frame
  | [], f => [f]
  | s :: rest, f => (db.rows s.table).flatMap fun r => db.extend rest ((s, some r) :: f)

/-- A condition on a frame. -/
def Predicate.truth (db : Database) (f : Frame) : Predicate → Option Bool
  | .always => some true
  | .never => some false
  | .isNull x => some (f.get x).isNull
  | .notNull x => some !(f.get x).isNull
  | .compare x .like v =>
    let pattern := Cell.ofValue v
    if pattern.isNull then none else (f.get x).matchesPattern? none pattern.toText
  | .compare x comparison v =>
    Cell.compare? comparison (f.get x) ((Cell.ofValue v).forColumn x.type)
  | .contains x _ fragment =>
    (x.cell f).matchesPattern? (some escapeMark) (fragmentPattern fragment)
  | .both p q => andTruth (p.truth db f) (q.truth db f)
  | .either p q => orTruth (p.truth db f) (q.truth db f)
  | .related hop criterion =>
    let read := hop.sources ++ hop.unread f.sources criterion
    some ((db.extend read f).any fun g =>
      andTruth (equalitiesTruth g hop.equalities) (criterion.truth db g) == some true)

/-- Whether a condition leaves a single value to an operand. -/
def Predicate.fixes (x : Operand) : Predicate → Bool
  | .compare c .eq _ => x == .column c
  | .both p q => p.fixes x || q.fixes x
  | _ => false

/-- Whether a condition keeps a frame. -/
def Predicate.holds (db : Database) (f : Frame) (p : Predicate) : Bool := p.truth db f == some true

/-- The frames after a step: one for every related row. -/
def Hop.inner (db : Database) (h : Hop) (f : Frame) : List Frame :=
  (db.extend h.sources f).filter fun g => equalitiesTruth g h.equalities == some true

/-- The frames after an outer step: one without a row when there is no related row. -/
def Hop.outer (db : Database) (h : Hop) (f : Frame) : List Frame :=
  match h.inner db f with
  | [] => [h.sources.map (fun s => (s, none)) ++ f]
  | found => found

/-- The frames with the rows of a chain in front. -/
def Chain.frames (db : Database) (step : Hop → Frame → List Frame) (c : Chain) (f : Frame) :
    List Frame :=
  c.hops.foldl (fun frames h => frames.flatMap (step h)) (db.extend [c.root] f)

/-- The frames with the rows of some chains in front. -/
def chainFrames (db : Database) (step : Hop → Frame → List Frame) (chains : List Chain)
    (f : Frame) : List Frame :=
  chains.foldl (fun frames c => frames.flatMap (c.frames db step)) [f]

/-- The frames that satisfy the conditions of a statement. -/
def Statement.frames (db : Database) (s : Statement) : List Frame :=
  (chainFrames db (fun h => h.outer db) s.chains []).filter fun f =>
    s.conditions.all (·.holds db f)

end ResourceQuery
