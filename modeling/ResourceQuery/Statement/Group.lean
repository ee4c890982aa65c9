import ResourceQuery.Statement.Frame

/-!
# Groups of rows

What the rows of an answer are about: each shows one group of frames.

* `FrameGroup`: some frames, and the one of them whose columns are shown;
* `AggregateFunction.apply`, `AggregateFunction.overflows`: a function of the cells of a group, and
  whether the store has no answer to it;
* `Statement.groupingKeys`: what frames are ordered by before they fall into groups;
* `Statement.groups`: the groups of a statement, in the order that it asks for.

Without groups and functions of groups every frame is a group of its own. Groups with equal order
keys stay in the order in which they were formed.
-/

namespace ResourceQuery

/-- The frames that one row of an answer is about, and the one whose columns it shows. -/
structure FrameGroup where
  shown : Frame
  members : List Frame

/-- A number as a floating-point number. -/
def Cell.toFloat : Cell → Binary64
  | .integer i => .ofInt i
  | .real x => x
  | _ => .zero false

/-- A cell as a number to add up. Of a text that is no number the number at its front counts, and
always that of a byte string. -/
def Cell.summand : Cell → Cell
  | .text s => (Cell.numberOfText? s).getD (.real (Cell.numberAtFront s).toFloat)
  | .blob bs =>
    .real (Cell.numberAtFront (String.ofList (bs.map fun b => Char.ofNat b.toNat))).toFloat
  | c => c

/-- The sum of some cells as floating-point numbers, from the first one on. -/
def floatSum (cells : List Cell) : Binary64 :=
  cells.foldl (fun total c => total.add c.toFloat) (.zero false)

/-- The exact sum of some cells, if all are integers. -/
def integerSum? : List Cell → Option Int
  | [] => some 0
  | .integer i :: rest => (integerSum? rest).map (i + ·)
  | _ :: _ => none

/-- Whether adding up some numbers leaves the integers of the store before one comes that is no
integer. -/
def sumOverflows (total : Int) : List Cell → Bool
  | .integer i :: rest =>
    (total + i < Cell.leastInteger || Cell.greatestInteger < total + i) ||
      sumOverflows (total + i) rest
  | _ => false

/-- Whether a cell comes before another one as the least or greatest of several. -/
def Cell.beats (largest : Bool) (a b : Cell) : Bool :=
  Cell.order a b == (if largest then .gt else .lt)

/-- The least or greatest of some cells, the first one of equals; null when there are none. -/
def extremeCell (largest : Bool) (cells : List Cell) : Cell :=
  match cells with
  | [] => .null
  | c :: rest => rest.foldl (fun best c => if c.beats largest best then c else best) c

/-- A function of the cells of a group. Null does not count. -/
def AggregateFunction.apply (function : AggregateFunction) (cells : List Cell) : Cell :=
  let present := cells.filter (!·.isNull)
  match function with
  | .count => .integer present.length
  | .min => extremeCell false present
  | .max => extremeCell true present
  | .sum =>
    if present.isEmpty then .null
    else
      let numbers := present.map Cell.summand
      match integerSum? numbers with
      | some total => .integer total
      | none => .real (floatSum numbers)
  | .avg =>
    if present.isEmpty then .null
    else .real ((floatSum (present.map Cell.summand)).divide present.length)

/-- Whether the store refuses to apply a function to the cells of a group. -/
def AggregateFunction.overflows (function : AggregateFunction) (cells : List Cell) : Bool :=
  match function with
  | .sum => sumOverflows 0 ((cells.filter (!·.isNull)).map Cell.summand)
  | _ => false

/-- The cell of a term for a group. -/
def Term.cell (g : FrameGroup) : Term → Cell
  | plain x => x.cell g.shown
  | aggregate function x => function.apply (g.members.map x.cell)
  | countAll => .integer g.members.length

/-- Whether the store refuses to compute a term for a group. -/
def Term.overflows (g : FrameGroup) : Term → Bool
  | aggregate function x => function.overflows (g.members.map x.cell)
  | _ => false

/-- The type of the values of an operand. -/
def Operand.type : Operand → ColumnType
  | column c => c.type
  | linked _ => .boolean
  | constant (.text _) => .text
  | constant _ | label _ => .untyped

/-- The type of the values of a term. -/
def Term.type : Term → ColumnType
  | plain x => x.type
  | aggregate .count _ => .integer
  | aggregate .avg _ => .untyped
  | aggregate _ x => x.type
  | countAll => .integer

/-- The term of an order key, if it is one. -/
def OrderKey.term? : OrderKey → Option Term
  | term t => some t
  | extreme .. => none

namespace Statement

/-- The terms that a statement shows. -/
def selectedTerms (s : Statement) : List Term :=
  match s.selection with
  | .records _ => []
  | .rows terms => terms.map (·.term)

/-- The terms that a statement shows or orders by. -/
def terms (s : Statement) : List Term := s.selectedTerms ++ s.order.filterMap (·.key.term?)

/-- Whether the rows of the answer are about groups. -/
def isGrouped (s : Statement) : Bool := !s.group.isEmpty || s.selectedTerms.any (·.isAggregate)

/-- The last least or greatest value that a statement asks for. It decides which frame of a group
is shown. -/
def deciding? (s : Statement) : Option (Bool × Operand) :=
  s.terms.reverse.findSome? fun
    | .aggregate .min x => some (false, x)
    | .aggregate .max x => some (true, x)
    | _ => none

end Statement

/-- The frame of a group that holds the least or greatest value: the first one of equals, and the
last one without a value before any value. -/
def decidedFrame (largest : Bool) (x : Operand) (best : Option Cell) (shown : Frame) :
    List Frame → Frame
  | [] => shown
  | f :: rest =>
    let c := x.cell f
    match best with
    | none => decidedFrame largest x (if c.isNull then none else some c) f rest
    | some b =>
      if !c.isNull && c.beats largest b then decidedFrame largest x (some c) f rest
      else decidedFrame largest x best shown rest

/-- The frame that a group shows: the one that holds the deciding value, or else the first. -/
def shownFrame (deciding? : Option (Bool × Operand)) (members : List Frame) : Frame :=
  match members with
  | [] => []
  | f :: rest =>
    match deciding? with
    | none => f
    | some (largest, x) => decidedFrame largest x none f (f :: rest)

/-- The order of two lists of cells, key by key; `descending` turns the order of a key around. -/
def keysOrder : List (Bool × Cell × Cell) → Ordering
  | [] => .eq
  | (descending, a, b) :: rest =>
    let o := Cell.order a b
    (if descending then o.swap else o).then (keysOrder rest)

/-- Whether two frames have equal keys. -/
def sameCells (a b : List Cell) : Bool :=
  keysOrder ((a.zip b).map fun p => (false, p)) == .eq

/-- Elements in the order of their keys; those with equal keys stay in their order. -/
def sortByKeys {α : Type} (directions : List Bool) (key : α → List Cell) (xs : List α) : List α :=
  let keyed := xs.map fun x => (key x, x)
  let before := fun (a b : List Cell × α) => keysOrder (directions.zip (a.1.zip b.1)) != .gt
  (keyed.mergeSort before).map (·.2)

/-- The cell of an order key for a group: a term, or the extreme value over the related rows of
the frame that the group shows. -/
def OrderKey.cell (db : Database) (g : FrameGroup) (key : OrderKey) : Cell :=
  match key with
  | term t => t.cell g
  | extreme largest _ _ x sameKey =>
    let frames := chainFrames db (fun h => h.inner db) (key.chains g.shown.sources) g.shown
    let same := frames.filter fun f => equalitiesTruth f sameKey == some true
    (if largest then AggregateFunction.max else .min).apply (same.map x.cell)

namespace Statement

/-- The key of the entity, as operands. -/
def keyOperands (s : Statement) : List Operand :=
  s.entity.keyColumns.map fun c => .column (c.at_ s.root)

/-- Whether the conditions of a statement leave a single value to an operand. -/
def fixes (s : Statement) (x : Operand) : Bool := s.conditions.any (·.fixes x)

/-- Whether a statement reads a single record and nothing else. -/
def readsOneRecord (s : Statement) : Bool := s.keyOperands.all s.fixes && s.joins.isEmpty

/-- The operand of an order key that is a plain one. -/
def plainKey? (o : OrderTerm) : Option Operand :=
  match o.key with
  | .term (.plain x) => some x
  | _ => none

/-- Whether the rows of an answer are read in the order of the key from the last record on: when the
first key of the order is the first column of the entity's, descending, and not fixed to one
value. The order decides that only for records, or for groups that are formed by its keys. -/
def readsBackwards (s : Statement) : Bool :=
  match s.order, s.keyOperands with
  | o :: _, x :: _ =>
    o.descending && plainKey? o == some x && !s.fixes x &&
      (!s.isGrouped || s.order.map plainKey? == s.group.map some)
  | _, _ => false

/-- Whether frames stand in groups as they come, in the order of the key: groups are formed by the
whole key, or by the first columns of it and nothing else. -/
def groupsFollowKey (s : Statement) : Bool :=
  s.keyOperands.all (· ∈ s.group) || s.group == s.keyOperands.take s.group.length

/-- What frames are ordered by to form groups, and whether each key descends: always what the groups
are formed by. Columns of the key come first where groups follow it; otherwise the directions are
those of the order where it has as many keys. -/
def groupingKeys (s : Statement) : List (Bool × Operand) :=
  if s.groupsFollowKey then
    (s.keyOperands.filter (· ∈ s.group) ++ s.group).map fun x => (false, x)
  else if s.order.length = s.group.length then (s.order.map (·.descending)).zip s.group
  else s.group.map fun x => (false, x)

/-- The groups of the frames, before they are ordered. -/
def unorderedGroups (s : Statement) (frames : List Frame) : List FrameGroup :=
  let show_ := shownFrame s.deciding?
  if !s.isGrouped then frames.map fun f => ⟨f, [f]⟩
  else if s.group.isEmpty then [⟨show_ frames, frames⟩]
  else
    let keys := s.groupingKeys
    let ordered := sortByKeys (keys.map (·.1)) (fun f => keys.map (·.2.cell f)) frames
    (ordered.splitBy fun f g => sameCells (s.group.map (·.cell f)) (s.group.map (·.cell g))).map
      fun members => ⟨show_ members, members⟩

/-- The groups that the rows of the answer are about, in order. -/
def groups (db : Database) (s : Statement) : List FrameGroup :=
  sortByKeys (s.order.map (·.descending)) (fun g => s.order.map (·.key.cell db g))
    (s.unorderedGroups (if s.readsBackwards then (s.frames db).reverse else s.frames db))

end Statement

end ResourceQuery
