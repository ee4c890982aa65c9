import ResourceQuery.Store.Cell

/-!
# Stores

Tables of rows, each row with a cell for every column.

* `StoredRow`: the cells of a row by the names of their columns;
* `Database`: the rows of every table, in the order in which they are read.
-/

namespace ResourceQuery

/-- The cells of a row by the names of their columns. -/
structure StoredRow where
  cells : List (String × Cell)
deriving DecidableEq, Repr, Inhabited

namespace StoredRow

/-- The cell of a column; null where the row has none. -/
def get (r : StoredRow) (column : String) : Cell :=
  ((r.cells.find? (·.1 == column)).map (·.2)).getD .null

end StoredRow

/-- The rows of every table. -/
structure Database where
  rows : String → List StoredRow

end ResourceQuery
