import ResourceQuery.Statement

/-!
# The sources of a statement

A statement reads the sources it mentions and no others: those of its joins, and those of the
columns that it selects or that its conditions compare. A condition on related rows is a statement
of its own: it reads the related source, and every source that it mentions and that no statement
around it reads.

* `Chain`: a source and the steps joined to it;
* `joinedChains`: the chains of joins in their order;
* `Statement.chains`: what a statement reads;
* `Hop.unread`: what a condition on related rows reads besides the related source;
* `OrderKey.chains`: what the key of an order reads on its own.
-/

namespace ResourceQuery

/-- A source and the steps joined to it, each of which starts from one of the sources before. -/
structure Chain where
  root : Source
  hops : List Hop
deriving DecidableEq, Repr, Inhabited

namespace Chain

/-- The sources of a chain. -/
def sources (c : Chain) : List Source := c.root :: c.hops.flatMap (·.sources)

end Chain

/-- The chains with one more join: it continues the first chain that has its parent, or begins a
chain of its own. -/
def addJoin (j : Join) : List Chain → List Chain
  | [] => [⟨j.parent, [j.hop]⟩]
  | c :: rest =>
    if j.parent ∈ c.sources then { c with hops := c.hops ++ [j.hop] } :: rest
    else c :: addJoin j rest

/-- The chains of joins, in the order of the joins. -/
def joinedChains (joins : List Join) : List Chain :=
  joins.foldl (fun chains j => addJoin j chains) []

namespace Equality

/-- The sources of the two columns. -/
def sources (e : Equality) : List Source := [e.left.source, e.right.source]

end Equality

/-- The sources that an operand mentions. -/
def Operand.sources : Operand → List Source
  | .column c => [c.source]
  | .linked equalities => equalities.flatMap (·.sources)
  | .constant _ | .label _ => []

/-- The sources that a term mentions. -/
def Term.sources : Term → List Source
  | .plain x => x.sources
  | .aggregate _ x => x.sources
  | .countAll => []

/-- The sources that a condition mentions outside the conditions on related rows in it. -/
def Predicate.sources : Predicate → List Source
  | .always | .never => []
  | .isNull x | .notNull x => [x.source]
  | .compare x _ _ => [x.source]
  | .contains x _ _ => x.sources
  | .both p q | .either p q => p.sources ++ q.sources
  | .related _ _ => []

/-- Some sources, each once and in order, without those that are read already. -/
def unreadOf (read mentioned : List Source) : List Source :=
  mentioned.eraseDups.filter (· ∉ read)

/-- The sources that a condition on related rows reads besides the related source, when the
statements around it read `outer`. -/
def Hop.unread (h : Hop) (outer : List Source) (criterion : Predicate) : List Source :=
  unreadOf (h.sources ++ outer) (h.equalities.flatMap (·.sources) ++ criterion.sources)

/-- The sources that a selection mentions. -/
def Selection.sources (root : Source) : Selection → List Source
  | .records columns => columns.map fun _ => root
  | .rows terms => terms.flatMap (·.term.sources)

/-- What is read when some joins, selected sources and conditions are given. -/
def chainsOf (joins : List Join) (mentioned : List Source) : List Chain :=
  let chains := joinedChains joins
  chains ++ (unreadOf (chains.flatMap (·.sources)) mentioned).map fun s => ⟨s, []⟩

namespace Statement

/-- What a statement reads, in order. -/
def chains (s : Statement) : List Chain :=
  chainsOf s.joins (s.selection.sources s.root ++ s.conditions.flatMap (·.sources))

/-- The sources that a statement reads. -/
def sources (s : Statement) : List Source := s.chains.flatMap (·.sources)

end Statement

/-- What the subquery of an order key reads: the steps from its root, and every source it mentions
that the statement around it does not read. -/
def OrderKey.chains (outer : List Source) : OrderKey → List Chain
  | .term _ => []
  | .extreme _ root hops x sameKey =>
    let chain : Chain := ⟨root, hops⟩
    chain :: (unreadOf (chain.sources ++ outer)
      (x.sources ++ sameKey.flatMap (·.sources))).map fun s => ⟨s, []⟩

end ResourceQuery
