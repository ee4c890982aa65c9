import ResourceQuery.Value
import ResourceQuery.Filter.Operator

/-!
# Errors

What can be wrong with a request, as causes. The wording is in one place per kind of error.

* `InputFault`, `InputError`: a value that misses the shape asked for, and where it lies;
* `ParameterFault`, `ParameterError`: a request parameter that is not understood, and its path;
* `StoreFault`: what the store refuses when a statement runs;
* `QueryError`: everything that compiling or running a request can end with.
-/

namespace ResourceQuery

/-- How a value misses the shape asked for. -/
inductive InputFault
  | notMapping
  /-- Neither a mapping nor a ready object of the named kind. -/
  | notMappingOr (kind : String)
  | notList
  | notText
  /-- A byte string that is no text. -/
  | notUtf8
  | notInteger
  | unreadableInteger
  | oversizedInteger
  | fractional
  | notFinite
  | below (least : Nat)
  /-- A key that is not known. -/
  | unknownKey
  | keyNotText
  | missing
deriving DecidableEq, Repr, Inhabited

namespace InputFault

/-- What is said about a fault. -/
def message : InputFault → String
  | notMapping => "Input should be a valid dictionary"
  | notMappingOr kind => "Input should be a valid dictionary or instance of " ++ kind
  | notList => "Input should be a valid list"
  | notText => "Input should be a valid string"
  | notUtf8 => "Input should be a valid string, unable to parse raw data as a unicode string"
  | notInteger => "Input should be a valid integer"
  | unreadableInteger =>
    "Input should be a valid integer, unable to parse string as an integer"
  | oversizedInteger => "Unable to parse input string as an integer, exceeded maximum size"
  | fractional => "Input should be a valid integer, got a number with a fractional part"
  | notFinite => "Input should be a finite number"
  | below least => "Input should be greater than or equal to " ++ toString least
  | unknownKey => "Extra inputs are not permitted"
  | keyNotText => "Keys should be strings"
  | missing => "Field required"

/-- The code of a fault. -/
def code : InputFault → String
  | notMapping => "dict_type"
  | notMappingOr _ => "model_type"
  | notList => "list_type"
  | notText => "string_type"
  | notUtf8 => "string_unicode"
  | notInteger => "int_type"
  | unreadableInteger => "int_parsing"
  | oversizedInteger => "int_parsing_size"
  | fractional => "int_from_float"
  | notFinite => "finite_number"
  | below _ => "greater_than_equal"
  | unknownKey => "extra_forbidden"
  | keyNotText => "invalid_key"
  | missing => "missing"

end InputFault

/-- A fault and the keys and indices that lead to it. -/
structure InputError where
  location : List String
  fault : InputFault
deriving DecidableEq, Repr, Inhabited

/-- What is wrong with a request parameter. -/
inductive ParameterFault
  | input (fault : InputFault)
  | notParameters (kind : String)
  /-- A field name that is no text, or empty. -/
  | noName (shown : String)
  | emptySegment (key : String)
  | notFilter (kind : String)
  | operatorWithoutFields (key kind : String)
  | unknownOperator (key : String)
  | notScalar (kind : String)
  | noValues
  | clauseWithoutValues
  | severalValues (operator : FilterOperator) (count : Nat)
  | notFieldList (kind : String)
  | notFieldName (kind : String)
  | notRelationList (kind : String)
  | notOneRelation (count : Nat)
  | notRefinement (kind : String)
  | notRelation (kind : String)
  | notFieldMapping (kind : String)
  | notAggregate (name : String)
  | groupByAggregate (name : String)
deriving DecidableEq, Repr, Inhabited

namespace ParameterFault

open Text

/-- What is said about a fault. -/
def message : ParameterFault → String
  | input fault => fault.message
  | notParameters kind => "Expected a mapping of parameters, got " ++ kind
  | noName shown => "Expected a non-empty field name, got " ++ shown
  | emptySegment key => "Empty segment in field path " ++ quoted key
  | notFilter kind => "Expected a mapping, got " ++ kind
  | operatorWithoutFields key kind =>
    "Operator " ++ quoted key ++ " expects a mapping of field -> value, got " ++ kind
  | unknownOperator key =>
    "Unknown filter operator " ++ quoted key ++ "; expected one of " ++
      Value.listed FilterOperator.reservedNames
  | notScalar kind => "Expected a scalar filter value, got " ++ kind
  | noValues => "Empty value list"
  | clauseWithoutValues => "A filter clause needs at least one value"
  | severalValues operator count =>
    "Operator " ++ quoted operator.name ++ " takes a single value, got " ++ toString count
  | notFieldList kind => "Expected a list of field names, got " ++ kind
  | notFieldName kind => "Expected a field name, got " ++ kind
  | notRelationList kind => "Expected a list of relations, got " ++ kind
  | notOneRelation count =>
    "Expected a single relation -> refinement pair, got " ++ toString count ++ " keys"
  | notRefinement kind => "Expected a relation refinement, got " ++ kind
  | notRelation kind => "Expected a relation name or mapping, got " ++ kind
  | notFieldMapping kind => "Expected a mapping of type -> fields, got " ++ kind
  | notAggregate name => "Not an aggregate: " ++ quoted name
  | groupByAggregate name => "Cannot group by an aggregate: " ++ quoted name

/-- Whether the fault lies in the count of values an operator got, and not in a shape. -/
def isUnsupportedValue : ParameterFault → Bool
  | severalValues .. => true
  | _ => false

/-- The code of a fault for clients. -/
def code (f : ParameterFault) : String :=
  if f.isUnsupportedValue then "UNSUPPORTED_FILTER_VALUE" else "INVALID_PARAMETER"

end ParameterFault

/-- A fault and the path of the parameter it lies in. -/
structure ParameterError where
  fault : ParameterFault
  path : Option String
deriving DecidableEq, Repr, Inhabited

/-- What is said about an error: the path, unless it is missing or empty, and the fault. -/
def ParameterError.message (e : ParameterError) : String :=
  match e.path with
  | some path => if path.isEmpty then e.fault.message else path ++ ": " ++ e.fault.message
  | none => e.fault.message

/-- What a store refuses when a statement runs. -/
inductive StoreFault
  /-- A column of a table that the statement does not read. -/
  | unknownColumn
  /-- An order by an aggregate where the rows are about no groups. -/
  | misplacedAggregate
  /-- An integer that does not fit the store's. -/
  | integerTooLarge
  /-- A value of a kind that the store has no column for. -/
  | unsupportedValue
  /-- A value of a kind that the store has a column for, but no cell. -/
  | unboundValue
  /-- A sum of integers that leaves those of the store. -/
  | integerOverflow
  /-- A cell that is no value of the type of its column. -/
  | unreadableCell
  /-- A text that rows are grouped by, and that is no name of a column. -/
  | unresolvedLabel
deriving DecidableEq, Repr, Inhabited

/-- What compiling or running a request can end with. -/
inductive QueryError
  | parameter (e : ParameterError)
  /-- A registered configuration that is not understood, with every fault in it. -/
  | configuration (errors : List InputError)
  | unknownField (owner name : String)
  | unknownRelation (owner name : String)
  | unsupportedOperator (operator : FilterOperator)
  /-- A comparison by order with null or a truth value. -/
  | orderWithoutValue
  /-- A collection of related records compared with a value. -/
  | collectionCompared
  /-- A related record compared with a value that is no record. -/
  | relatedCompared
  /-- A related record told apart from a value that is no record. -/
  | relatedToldApart
  /-- A relation where only a column has the operation. -/
  | relationWithoutOperation
  /-- A class attribute where only a column has the operation. -/
  | attributeWithoutOperation
  /-- A class attribute compared by order with a value of another kind. -/
  | attributeWithoutOrder
  /-- A class attribute that cannot be part of a statement. -/
  | attributeOutsideStatements
  | notStatementRefinement (kind : String)
  | notRelationRefinement (kind : String)
  /-- A refinement function that returned no statement. -/
  | refinedToNothing
  /-- A refinement object that returned no statement, or one that options do not apply to. -/
  | notExecutable
  /-- A refinement step that names a field the entity does not have. -/
  | noSuchField
  /-- Resource types that are not all texts. -/
  | untypedResources
  /-- A mapping built from what is not a sequence of pairs. -/
  | notPairs
  /-- A mapping built from elements that are not pairs. -/
  | unevenPairs
  /-- A record that lacks the field asked for. -/
  | recordWithoutField
  /-- A record that is asked for a key and has none. -/
  | recordWithoutKeys
  /-- A row that lacks the key asked for. -/
  | keyMissing
  | indexOutOfRange
  | zeroStep
  /-- A quotient beyond every floating-point number. -/
  | quotientTooLarge
  /-- A configuration that is fixed. -/
  | frozen
  /-- A configuration that was stored unchecked and has no pages. -/
  | uncheckedConfiguration
  | store (fault : StoreFault)
deriving DecidableEq, Repr, Inhabited

/-- What is said about a configuration with some faults. -/
def configurationMessage (faults : Nat) : String :=
  "Invalid JSON:API configuration: " ++ toString faults ++
    (if faults = 1 then " validation error" else " validation errors") ++ " for JsonApiConfig"

/-- What is said about an error, where it says something. -/
def QueryError.message? : QueryError → Option String
  | parameter e => some e.message
  | configuration errors => some (configurationMessage errors.length)
  | unknownField owner name => some ("Model " ++ owner ++ " has no attribute " ++ name)
  | unknownRelation owner name => some ("Model " ++ owner ++ " has no relationship " ++ name)
  | unsupportedOperator operator =>
    some ("Unsupported filter operator for SQLAlchemy: FilterOperator." ++ operator.name.toUpper)
  | notStatementRefinement kind => some ("Expected a statement refinement, got " ++ kind)
  | notRelationRefinement kind => some ("Expected a relation refinement, got " ++ kind)
  | refinedToNothing =>
    some "Statement refinement returned None; return the refined statement"
  | _ => none

/-- A computation on a request parameter. -/
abbrev Checked (α : Type) := Except ParameterError α

/-- A fault at a path. -/
def failAt {α : Type} (path : Option String) (fault : ParameterFault) : Checked α :=
  .error ⟨fault, path⟩

/-- A parameter error is an error of the whole request. -/
def Checked.lift {α : Type} (c : Checked α) : Except QueryError α := c.mapError .parameter

end ResourceQuery
