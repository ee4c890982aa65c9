import ResourceQuery.Page
import ResourceQuery.Value

/-!
# Collections

The records of one answer in their order, with the page they are of.

* `Collection`: records and their pagination;
* `Collection.get?`, `Collection.slice?`: records by position, where a negative position counts
  from the end;
* `Collection.text`: the collection inside a message.
-/

namespace ResourceQuery

/-- Records in order, with the page they are of. -/
structure Collection (α : Type) where
  records : List α
  pagination : Option Pagination
deriving Inhabited

namespace Collection

variable {α : Type}

/-- How many records there are. -/
def size (c : Collection α) : Nat := c.records.length

/-- The first record. -/
def first? (c : Collection α) : Option α := c.records.head?

/-- The record at a position; a negative position counts from the end. -/
def get? (c : Collection α) (position : Int) : Except QueryError α :=
  let index := if position < 0 then position + c.size else position
  if index < 0 then .error .indexOutOfRange
  else
    match c.records[index.toNat]? with
    | some record => .ok record
    | none => .error .indexOutOfRange

/-- A bound of a slice brought between two positions; a negative one counts from the end. -/
def clamp (size least greatest bound : Int) : Int :=
  if bound < 0 then max (bound + size) least else min bound greatest

/-- The positions of a slice, from `start` in steps up to `stop`, which is not reached. -/
def positions (start stop step : Int) : List Int :=
  let count := if 0 < step then (stop - start + step - 1) / step
    else (start - stop - step - 1) / (-step)
  (List.range count.toNat).map fun (i : Nat) => start + i * step

/-- The records of a slice. A missing bound is the end that the step comes from or goes to. -/
def slice? (c : Collection α) (start stop step : Option Int) : Except QueryError (List α) :=
  let step := step.getD 1
  let size : Int := c.size
  if step = 0 then .error .zeroStep
  else
    let (least, greatest) := if 0 < step then (0, size) else (-1, size - 1)
    let (first, last) := if 0 < step then (least, greatest) else (greatest, least)
    let start := (start.map (clamp size least greatest)).getD first
    let stop := (stop.map (clamp size least greatest)).getD last
    .ok ((positions start stop step).filterMap fun i => c.records[i.toNat]?)

/-- A pagination inside a message. -/
def paginationText (p : Pagination) : String :=
  let shown := fun i : Option Int => ((i.map Value.int).getD .null).shown
  "PaginationResult(limit=" ++ shown p.limit ++ ", offset=" ++ toString p.offset ++
    ", row_count=" ++ toString p.rowCount ++ ", page_count=" ++ shown p.pageCount ++ ")"

/-- The collection inside a message. -/
def text (c : Collection α) : String :=
  "JsonApiCollection(records=" ++ toString c.size ++ ", pagination=" ++
    ((c.pagination.map paginationText).getD "None") ++ ")"

end Collection

end ResourceQuery
