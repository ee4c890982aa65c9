import ResourceQuery.Query

/-!
# Refinements of a statement

A last change of a compiled statement before it runs.

* `StatementRefinement`: a change of a statement, or a value that is none;
* `StatementRefinement.refined?`: the changed statement;
* `StatementStep`: a step of a change that is made of steps;
* `StatementRefinement.ofSteps`: the change that some steps make.

A limit and a selection replace those of the statement; conditions, groups and order keys are added
to its own.
-/

namespace ResourceQuery

/-- A last change of a statement, or a value that is none. -/
inductive StatementRefinement
  /-- A change may fail, and it may return nothing. -/
  | changes (form : Refinement.Form) (change : Statement → Except QueryError (Option Statement))
  /-- A value that is no refinement, by its kind. -/
  | other (kind : String)

namespace StatementRefinement

/-- A value as a refinement: one of related rows returns nothing. -/
def ofValue : Value → StatementRefinement
  | .refinement form _ => changes form fun _ => .ok none
  | v => other v.kind

/-- How a refinement is given; a value that is no refinement is an error. -/
def form? : StatementRefinement → Except QueryError Refinement.Form
  | changes form _ => .ok form
  | other kind => .error (.notStatementRefinement kind)

/-- A value that is no refinement is refused. -/
def check? : Option StatementRefinement → Except QueryError Unit
  | some (other kind) => .error (.notStatementRefinement kind)
  | _ => .ok ()

/-- What it means that a refinement returned nothing. -/
def nothingReturned : Refinement.Form → QueryError
  | .function _ => .refinedToNothing
  | .object _ => .notExecutable

/-- The statement that a refinement returns. -/
def refined? (s : Statement) : Option StatementRefinement → Except QueryError Statement
  | none => .ok s
  | some (other kind) => .error (.notStatementRefinement kind)
  | some (changes form change) => do
    match ← change s with
    | some s => .ok s
    | none => .error (nothingReturned form)

end StatementRefinement

/-- One step of a change of a statement. -/
inductive StatementStep
  | filter (field : String) (comparison : Comparison) (value : Value)
  | limit (count : Int)
  /-- Terms instead of the selection: a function or none, a field or a star, and a label. -/
  | select (terms : List (Option AggregateFunction × String × String))
  | groupBy (fields : List String)
  | orderBy (fields : List String)

namespace StatementStep

/-- A field of the entity of a statement. -/
def field? (schema : Schema) (s : Statement) (name : String) : Except QueryError ResolvedField :=
  (s.entity.reach.field? schema name).mapError fun _ => .noSuchField

/-- A term of a function and a field. -/
def term? (schema : Schema) (s : Statement) (function : Option AggregateFunction) (name : String) :
    Except QueryError Term :=
  match function with
  | none => do
    let field ← field? schema s name
    .ok (.plain (← field.shown?))
  | some function =>
    if name = "*" then .ok .countAll
    else do
      let field ← field? schema s name
      .ok (.aggregate function (← field.argument?))

/-- A statement after a step. -/
def change? (schema : Schema) (s : Statement) : StatementStep → Except QueryError Statement
  | filter name comparison v => do
    let condition ← (← field? schema s name).compare? comparison v
    .ok (s.filtered [condition])
  | limit count => .ok { s with limit := some count }
  | select terms => do
    let terms ← terms.mapM fun (function, name, label) => do
      .ok ⟨← term? schema s function name, label⟩
    .ok { s with selection := .rows terms }
  | groupBy names => do
    let fields ← names.mapM (field? schema s)
    let operands ← fields.mapM (·.groupOperands? s.entity.reach)
    .ok { s with group := s.group ++ operands.flatten }
  | orderBy names => do
    let keys ← names.mapM fun name => do
      let key ← SortCompiler.fieldKey? (← field? schema s name)
      .ok ⟨key, false⟩
    .ok { s with order := s.order ++ keys }

end StatementStep

/-- The change that some steps make, one after the other. -/
def StatementRefinement.ofSteps (schema : Schema) (form : Refinement.Form) (returnsNothing : Bool)
    (steps : List StatementStep) : StatementRefinement :=
  changes form fun s => do
    let s ← steps.foldlM (fun s step => step.change? schema s) s
    .ok (if returnsNothing then none else some s)

end ResourceQuery
