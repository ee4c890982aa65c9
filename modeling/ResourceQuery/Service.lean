import ResourceQuery.Configuration
import ResourceQuery.Query.Fetch

/-!
# Services

One configuration and the queries that are made with it.

* `Service`: a configuration, a naming policy and the operators in use;
* `Service.register?`, `Service.make?`: a service from the value of its default page, and from that
  of its whole configuration;
* `Service.query?`: the query for the records of an entity.
-/

namespace ResourceQuery

/-- A configuration, a naming policy and the operators in use. A value that was stored unchecked is
no configuration. -/
structure Service where
  schema : Schema
  configuration : Option Configuration
  naming : Naming := .identity
  registry : FilterRegistry := .standard

namespace Service

/-- A service from the value of its default page. -/
def register? (schema : Schema) (pagination : Value) (naming : Naming)
    (registry : FilterRegistry) : Except QueryError Service := do
  let configuration ← Configuration.read [(.text "pagination", pagination)]
  .ok ⟨schema, some configuration, naming, registry⟩

/-- A service from the value of its configuration: nothing or a mapping is read, anything else is
stored as it is. -/
def make? (schema : Schema) (configuration : Value) (naming : Naming)
    (registry : FilterRegistry) : Except QueryError Service :=
  match configuration with
  | .null | .map _ => do
    let read ← Configuration.ofValue? configuration
    .ok ⟨schema, some read, naming, registry⟩
  | _ => .ok ⟨schema, none, naming, registry⟩

/-- The configuration, when it was read. -/
def configuration? (s : Service) : Except QueryError Configuration :=
  match s.configuration with
  | some c => .ok c
  | none => .error .uncheckedConfiguration

/-- A change of the configuration, which is fixed. -/
def setConfiguration? (_ : Service) : Except QueryError Unit := .error .frozen

/-- The query for the records of an entity. A naming policy of its own comes before that of the
service. -/
def query? (s : Service) (e : Entity) (naming : Option Naming) (type : String) :
    Except QueryError Query := do
  let c ← s.configuration?
  .ok ⟨s.schema, e, naming.getD s.naming, c.pagination, s.registry, type⟩

end Service

end ResourceQuery
