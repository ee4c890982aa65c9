import ResourceQuery.Input
import ResourceQuery.Number.Binary64

/-!
# Pages

A page of a collection is a window on its records: how many to skip and how many to keep.

* `PageRequest`: what a request says about the page;
* `PageDefault`: the page of a request that says nothing;
* `PageWindow`, `PageWindow.resolve?`: the window of a request, field by field its own value or
  the default one;
* `Pagination`, `PageWindow.paginate?`: a window with the count of all records and of the pages.
-/

namespace ResourceQuery

open Input

/-- What a request says about its page. -/
structure PageRequest where
  limit : Option Int
  offset : Option Int
deriving DecidableEq, Repr, Inhabited

namespace PageRequest

/-- An optional bound of a page, which is no negative number. -/
def readBound (key : String) (entries : List (Value × Value)) : Located (Option Int) :=
  match Value.lookup? (.text key) entries with
  | none => .ok none
  | some .null => .ok none
  | some v => at_ [key] ((readAtLeast 0 v).map some)

/-- The first key that a page does not have is an error. -/
def checkKeys : List (Value × Value) → Located Unit
  | [] => .ok ()
  | (.text key, _) :: rest =>
    if key = "limit" ∨ key = "offset" then checkKeys rest
    else at_ [key] (.error .unknownKey)
  | (key, _) :: _ => at_ [keyText key] (.error .keyNotText)

/-- The page of a mapping. -/
def read (v : Value) : Located PageRequest :=
  match v with
  | .map entries => do
    let limit ← readBound "limit" entries
    let offset ← readBound "offset" entries
    checkKeys entries
    .ok ⟨limit, offset⟩
  | _ => at_ [] (.error (.notMappingOr "PageParams"))

/-- A page as a mapping. -/
def toValue (p : PageRequest) : Value :=
  let bound := fun b : Option Int => (b.map Value.int).getD .null
  .ofFields [("limit", bound p.limit), ("offset", bound p.offset)]

end PageRequest

/-- The page of a request that says nothing about it. -/
structure PageDefault where
  limit : Int
  offset : Int
deriving DecidableEq, Repr, Inhabited

/-- A window on the records of a collection. -/
structure PageWindow where
  /-- How many records to keep; all of them without a limit. -/
  limit : Option Int
  /-- How many records to skip. -/
  offset : Int
deriving DecidableEq, Repr, Inhabited

/-- A window, how many records there are, and how many pages they fill. -/
structure Pagination where
  limit : Option Int
  offset : Int
  rowCount : Int
  pageCount : Option Int
deriving DecidableEq, Repr, Inhabited

namespace PageWindow

/-- The window of a request. Without a request and without a default there is none. -/
def resolve? (default? : Option PageDefault) (request : Option PageRequest) : Option PageWindow :=
  let limit := (request.bind (·.limit)).or (default?.map (·.limit))
  let offset := (request.bind (·.offset)).or (default?.map (·.offset))
  if limit.isNone && offset.isNone then none else some ⟨limit, offset.getD 0⟩

end PageWindow

/-- The least integer that is not below a quotient with a positive denominator. -/
def ceiling (r : Int × Nat) : Int := -(-r.1 / r.2)

/-- How many pages of a positive size the rows fill: the quotient as a floating-point number,
rounded up. No count when the quotient is beyond every such number. -/
def pageCount? (rows : Int) (size : Nat) : Option Int :=
  (Binary64.ofRatio (rows < 0) rows.natAbs size).ratio?.map ceiling

/-- A window with the counts of rows and of pages; pages are counted for a positive limit only. -/
def PageWindow.paginate? (w : PageWindow) (rowCount : Int) : Except QueryError Pagination :=
  match w.limit with
  | none => .ok ⟨w.limit, w.offset, rowCount, none⟩
  | some limit =>
    if 0 < limit then
      match pageCount? rowCount limit.toNat with
      | some count => .ok ⟨w.limit, w.offset, rowCount, some count⟩
      | none => .error .quotientTooLarge
    else .ok ⟨w.limit, w.offset, rowCount, none⟩

end ResourceQuery
