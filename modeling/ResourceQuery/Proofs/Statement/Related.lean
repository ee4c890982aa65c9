import ResourceQuery.Resolution
import ResourceQuery.Statement.Frame
import ResourceQuery.Proofs.Statement.Truth
import ResourceQuery.Proofs.Store.CellOrder

/-!
# Related rows

The steps of a statement lead from the row of one source to rows of another. Here they are compared
with the rows that a relation leads to, which are said without sources and frames.

* `ColumnPair.joins`: two rows with equal values in a pair of columns;
* `Relationship.rowsFrom`: the rows that a relation leads to from a row;
* `Relationship.StepsApart`: a step whose sources are different ones;
* `map_row?_inner_hop`: such a step leads to the rows of the relation, in their order;
* `inner_hop_of_no_row`: where an outer join found no row, no step leads any further;
* `holds_related`: a condition on related rows is about the rows of the relation.
-/

namespace ResourceQuery

/-- Whether two rows have equal values in the columns of a pair. -/
def ColumnPair.joins (p : ColumnPair) (near far : StoredRow) : Bool :=
  Cell.compare? .eq (near.get p.near) (far.get p.far) == some true

/-- The rows that a relation leads to from a row `x`. A row that several rows of a table between
lead to is there as often. -/
def Relationship.rowsFrom (db : Database) (r : Relationship) (target : Entity) (x : StoredRow) :
    List StoredRow :=
  match r.link with
  | .direct pairs _ => (db.rows target.table).filter fun y => pairs.all (·.joins x y)
  | .through table fromNear fromFar =>
    (db.rows target.table).flatMap fun y =>
      ((db.rows table).filter fun l =>
        fromNear.all (·.joins x l) && fromFar.all (·.joins y l)).map fun _ => y

/-- Whether a link names columns on both sides. -/
def Link.IsLinked : Link → Prop
  | .direct pairs _ => pairs ≠ []
  | .through _ fromNear fromFar => fromNear ≠ [] ∧ fromFar ≠ []

instance : DecidablePred Link.IsLinked
  | .direct pairs _ => inferInstanceAs (Decidable (pairs ≠ []))
  | .through _ fromNear fromFar => inferInstanceAs (Decidable (fromNear ≠ [] ∧ fromFar ≠ []))

/-- The table between the two of a link, if there is one. -/
def Link.table? : Link → Option String
  | .direct .. => none
  | .through table _ _ => some table

/-- Whether the sources of a step are different ones. -/
def Relationship.StepsApart (r : Relationship) (near far : Source) (link : Instance) : Prop :=
  far ≠ near ∧ ∀ table ∈ r.link.table?,
    (⟨table, link⟩ : Source) ≠ near ∧ (⟨table, link⟩ : Source) ≠ far

/-! ## Frames -/

namespace Frame

@[simp] theorem sources_append (f g : Frame) : Frame.sources (f ++ g) = f.sources ++ g.sources :=
  List.map_append

@[simp] theorem sources_cons (p : Source × Option StoredRow) (f : Frame) :
    Frame.sources (p :: f) = p.1 :: f.sources := rfl

@[simp] theorem row?_cons_self (s : Source) (x : Option StoredRow) (f : Frame) :
    Frame.row? ((s, x) :: f) s = x := by
  simp [row?]

theorem row?_cons_of_ne {s t : Source} (h : t ≠ s) (x : Option StoredRow) (f : Frame) :
    Frame.row? ((t, x) :: f) s = f.row? s := by
  simp [row?, h]

theorem row?_append_of_not_mem {g : Frame} {s : Source} (h : s ∉ g.sources) (f : Frame) :
    Frame.row? (g ++ f) s = f.row? s := by
  induction g with
  | nil => rfl
  | cons p g ih =>
    obtain ⟨hp, hg⟩ : s ≠ p.1 ∧ s ∉ Frame.sources g := by simpa using h
    rw [List.cons_append, ← ih hg]
    exact row?_cons_of_ne (Ne.symm hp) p.2 _

theorem mem_sources_of_row? {f : Frame} {s : Source} {x : StoredRow} (h : f.row? s = some x) :
    s ∈ f.sources := by
  obtain ⟨p, hp, -⟩ := Option.bind_eq_some_iff.1 h
  have hs : p.1 = s := by simpa using List.find?_some hp
  exact hs ▸ List.mem_map_of_mem (List.mem_of_find?_eq_some hp)

theorem get_of_row? {f : Frame} {c : ColumnRef} {x : StoredRow} (h : f.row? c.source = some x) :
    f.get c = x.get c.name := by
  simp [get, h]

theorem get_of_no_row {f : Frame} {c : ColumnRef} (h : f.row? c.source = none) :
    f.get c = .null := by
  simp [get, h]

end Frame

theorem equalitiesTruth_eq_true_iff {f : Frame} {equalities : List Equality} :
    equalitiesTruth f equalities = some true ↔ ∀ e ∈ equalities, e.truth f = some true := by
  induction equalities with
  | nil => simp [equalitiesTruth]
  | cons e rest ih =>
    have h : equalitiesTruth f (e :: rest) = andTruth (e.truth f) (equalitiesTruth f rest) := rfl
    rw [h, andTruth_eq_true_iff, ih, List.forall_mem_cons]

theorem equalitiesTruth_append_eq_true_iff {f : Frame} {es es' : List Equality} :
    equalitiesTruth f (es ++ es') = some true ↔
      equalitiesTruth f es = some true ∧ equalitiesTruth f es' = some true := by
  simp only [equalitiesTruth_eq_true_iff, List.forall_mem_append]

/-- Equality of cells does not depend on which one comes first. -/
theorem Cell.compare?_eq_comm (a b : Cell) : Cell.compare? .eq a b = Cell.compare? .eq b a := by
  simp only [Cell.compare?, Cell.holdsFor, Cell.order_swap a b]
  cases a.isNull <;> cases b.isNull <;> cases Cell.order a b <;> rfl

theorem Cell.compare?_null_left (c : Comparison) (b : Cell) : Cell.compare? c .null b = none := rfl

theorem Cell.compare?_null_right (c : Comparison) (a : Cell) :
    Cell.compare? c a .null = none := by
  simp [Cell.compare?, Cell.isNull]

/-! ## The frames of a step -/

theorem extend_one (db : Database) (s : Source) (f : Frame) :
    db.extend [s] f = (db.rows s.table).map fun y => (s, some y) :: f := by
  simp only [Database.extend, List.map_eq_flatMap]

theorem extend_two (db : Database) (s t : Source) (f : Frame) :
    db.extend [s, t] f = (db.rows s.table).flatMap fun y =>
      (db.rows t.table).map fun l => (t, some l) :: (s, some y) :: f := by
  simp only [Database.extend, List.map_eq_flatMap]

/-- A frame with more rows in front keeps the rest. -/
theorem exists_of_mem_extend {db : Database} {ss : List Source} {f g : Frame}
    (h : g ∈ db.extend ss f) : ∃ p : Frame, g = p ++ f ∧ p.sources = ss.reverse := by
  induction ss generalizing f with
  | nil => exact ⟨[], by simpa [Database.extend] using h, rfl⟩
  | cons s ss ih =>
    obtain ⟨y, -, hy⟩ := List.mem_flatMap.1 h
    obtain ⟨p, rfl, hp⟩ := ih hy
    exact ⟨p ++ [(s, some y)], by simp, by rw [Frame.sources_append, hp, List.reverse_cons]; rfl⟩

namespace Relationship

variable {db : Database} {r : Relationship} {near far : Reach} {link : Instance} {f : Frame}

theorem directEqualities_eq_true_iff {pairs : List ColumnPair} {farFirst : Bool}
    {x y : StoredRow} (hx : f.row? near.source = some x) (hy : f.row? far.source = some y) :
    equalitiesTruth f (directEqualities near far pairs farFirst) = some true ↔
      pairs.all (·.joins x y) := by
  have hn : ∀ name, f.get (near.columnNamed name) = x.get name := fun _ => Frame.get_of_row? hx
  have hf : ∀ name, f.get (far.columnNamed name) = y.get name := fun _ => Frame.get_of_row? hy
  rw [equalitiesTruth_eq_true_iff]
  cases farFirst <;>
    simp [directEqualities, Equality.truth, hn, hf, ColumnPair.joins, Cell.compare?_eq_comm]

theorem linkEqualities_eq_true_iff {side : Reach} {s : Source} {pairs : List ColumnPair}
    {x l : StoredRow} (hx : f.row? side.source = some x) (hl : f.row? s = some l) :
    equalitiesTruth f (linkEqualities side s pairs) = some true ↔ pairs.all (·.joins x l) := by
  have hn : ∀ name, f.get (side.columnNamed name) = x.get name := fun _ => Frame.get_of_row? hx
  have hf : ∀ name type, f.get ⟨s, name, type⟩ = l.get name := fun _ _ => Frame.get_of_row? hl
  rw [equalitiesTruth_eq_true_iff]
  simp [linkEqualities, Equality.truth, hn, hf, ColumnPair.joins]

theorem sources_hop (r : Relationship) (near far : Reach) (link : Instance) :
    (r.hop near far link).sources = far.source ::
      (match r.link with
        | .direct .. => []
        | .through table _ _ => [⟨table, link⟩]) := by
  unfold hop Hop.sources
  cases r.link <;> rfl

/-- A step to different sources leads to the rows of the relation. -/
theorem map_row?_inner_hop (db : Database) {x : StoredRow} (hx : f.row? near.source = some x)
    (hfar : far.source.table = far.entity.table)
    (apart : r.StepsApart near.source far.source link) :
    ((r.hop near far link).inner db f).map (·.row? far.source) =
      (r.rowsFrom db far.entity x).map some := by
  obtain ⟨hne, hlink⟩ := apart
  unfold Hop.inner hop rowsFrom
  cases hr : r.link with
  | direct pairs farFirst =>
    have htruth : ∀ y : StoredRow,
        (equalitiesTruth ((far.source, some y) :: f) (directEqualities near far pairs farFirst) ==
          some true) = pairs.all (·.joins x y) := by
      intro y
      rw [Bool.eq_iff_iff, beq_iff_eq]
      exact directEqualities_eq_true_iff (by rw [Frame.row?_cons_of_ne hne, hx])
        (Frame.row?_cons_self ..)
    simp only [Hop.sources, Hop.equalities, extend_one, List.filter_map, Function.comp_def, htruth,
      List.map_map, Frame.row?_cons_self, hfar]
  | through table fromNear fromFar =>
    obtain ⟨hln, hlf⟩ := hlink table (by rw [hr]; rfl)
    have htruth : ∀ y l : StoredRow,
        (equalitiesTruth ((⟨table, link⟩, some l) :: (far.source, some y) :: f)
          (linkEqualities near ⟨table, link⟩ fromNear ++
            linkEqualities far ⟨table, link⟩ fromFar) == some true) =
          (fromNear.all (·.joins x l) && fromFar.all (·.joins y l)) := by
      intro y l
      rw [Bool.eq_iff_iff, beq_iff_eq, Bool.and_eq_true, equalitiesTruth_append_eq_true_iff]
      refine and_congr (linkEqualities_eq_true_iff ?_ (Frame.row?_cons_self ..))
        (linkEqualities_eq_true_iff ?_ (Frame.row?_cons_self ..))
      · rw [Frame.row?_cons_of_ne hln, Frame.row?_cons_of_ne hne, hx]
      · rw [Frame.row?_cons_of_ne hlf, Frame.row?_cons_self]
    simp only [Hop.sources, Hop.equalities, extend_two, List.filter_flatMap, List.map_flatMap,
      List.filter_map, Function.comp_def, htruth, List.map_map, hfar,
      Frame.row?_cons_of_ne hlf, Frame.row?_cons_self]

theorem StepsApart.near_not_mem (apart : r.StepsApart near.source far.source link) :
    near.source ∉ (r.hop near far link).sources := by
  obtain ⟨hne, hlink⟩ := apart
  rw [sources_hop]
  cases hr : r.link with
  | direct pairs farFirst => simpa using Ne.symm hne
  | through table fromNear fromFar =>
    simpa using ⟨Ne.symm hne, Ne.symm (hlink table (by rw [hr]; rfl)).1⟩

/-- Where an outer join found no row, a step does not lead any further. -/
theorem inner_hop_of_no_row (hx : f.row? near.source = none)
    (apart : r.StepsApart near.source far.source link) (hr : r.link.IsLinked) :
    (r.hop near far link).inner db f = [] := by
  rw [Hop.inner, List.filter_eq_nil_iff]
  intro g hg htruth
  rw [beq_iff_eq] at htruth
  obtain ⟨p, rfl, hp⟩ := exists_of_mem_extend hg
  have hnone : Frame.row? (p ++ f) near.source = none := by
    rw [Frame.row?_append_of_not_mem, hx]
    rw [hp, List.mem_reverse]
    exact apart.near_not_mem
  have hnull : ∀ name, Frame.get (p ++ f) (near.columnNamed name) = .null := fun _ =>
    Frame.get_of_no_row hnone
  unfold hop at htruth
  cases hl : r.link with
  | direct pairs farFirst =>
    simp only [hl, Link.IsLinked] at hr
    obtain ⟨pair, rest, rfl⟩ := List.exists_cons_of_ne_nil hr
    simp only [hl, Hop.equalities, equalitiesTruth_eq_true_iff] at htruth
    have := htruth _ (List.mem_cons_self ..)
    cases farFirst <;>
      simp [Equality.truth, hnull, Cell.compare?_null_left, Cell.compare?_null_right] at this
  | through table fromNear fromFar =>
    simp only [hl, Link.IsLinked] at hr
    obtain ⟨pair, rest, rfl⟩ := List.exists_cons_of_ne_nil hr.1
    simp only [hl, Hop.equalities, equalitiesTruth_eq_true_iff] at htruth
    have := htruth _ (List.mem_append_left _ (List.mem_cons_self ..))
    simp [Equality.truth, hnull, Cell.compare?_null_left] at this

/-! ## Conditions on related rows -/

theorem sources_equalities_hop {s : Source}
    (hs : s ∈ (r.hop near far link).equalities.flatMap (·.sources)) :
    s = near.source ∨ s ∈ (r.hop near far link).sources := by
  obtain ⟨e, he, hs⟩ := List.mem_flatMap.1 hs
  unfold hop Hop.equalities at he
  rw [sources_hop]
  cases hl : r.link with
  | direct pairs farFirst =>
    simp only [hl, directEqualities, List.mem_map] at he
    obtain ⟨p, -, rfl⟩ := he
    cases farFirst <;> simp_all [Equality.sources, Reach.columnNamed, or_comm]
  | through table fromNear fromFar =>
    simp only [hl, linkEqualities, List.mem_append, List.mem_map] at he
    rcases he with ⟨p, -, rfl⟩ | ⟨p, -, rfl⟩
    · have hs : s = near.source ∨ s = ⟨table, link⟩ := by
        simpa [Equality.sources, Reach.columnNamed] using hs
      simpa using hs.imp_right .inr
    · have hs : s = far.source ∨ s = ⟨table, link⟩ := by
        simpa [Equality.sources, Reach.columnNamed] using hs
      simpa using .inr hs

theorem unread_hop_eq_nil {outer : List Source} {criterion : Predicate}
    (hnear : near.source ∈ outer) (hsources : criterion.sources ⊆ [far.source]) :
    (r.hop near far link).unread outer criterion = [] := by
  rw [Hop.unread, unreadOf, List.filter_eq_nil_iff]
  intro s hs
  simp only [List.mem_eraseDups, List.mem_append, decide_not, Bool.not_eq_true',
    decide_eq_false_iff_not, not_not] at hs ⊢
  rcases hs with hs | hs
  · rcases sources_equalities_hop hs with rfl | hs
    · exact .inr hnear
    · exact .inl hs
  · have hfar : s = far.source := by simpa using hsources hs
    rw [sources_hop]
    exact .inl (hfar ▸ List.mem_cons_self ..)

/-- A condition on related rows that is about nothing but them holds when it holds of a row that
the relation leads to. -/
theorem holds_related {criterion : Predicate} {x : StoredRow} (sat : StoredRow → Bool)
    (hx : f.row? near.source = some x) (hfar : far.source.table = far.entity.table)
    (apart : r.StepsApart near.source far.source link)
    (hsources : criterion.sources ⊆ [far.source])
    (hsat : ∀ g y, Frame.row? g far.source = some y →
      (criterion.holds db g = true ↔ sat y = true)) :
    (Predicate.related (r.hop near far link) criterion).holds db f = true ↔
      ∃ y ∈ r.rowsFrom db far.entity x, sat y = true := by
  have hinner := map_row?_inner_hop db hx hfar apart
  have hholds : (Predicate.related (r.hop near far link) criterion).holds db f = true ↔
      ∃ g ∈ (r.hop near far link).inner db f, criterion.holds db g = true := by
    simp only [Predicate.holds_iff, Predicate.truth,
      unread_hop_eq_nil (Frame.mem_sources_of_row? hx) hsources, List.append_nil,
      Option.some.injEq, List.any_eq_true, beq_iff_eq, andTruth_eq_true_iff, Hop.inner,
      List.mem_filter, and_assoc]
  rw [hholds]
  constructor
  · rintro ⟨g, hg, hcriterion⟩
    have hrow := List.mem_map_of_mem (f := (·.row? far.source)) hg
    rw [hinner] at hrow
    obtain ⟨y, hy, hgy⟩ := List.mem_map.1 hrow
    exact ⟨y, hy, (hsat g y hgy.symm).1 hcriterion⟩
  · rintro ⟨y, hy, hysat⟩
    have hrow := List.mem_map_of_mem (f := some) hy
    rw [← hinner] at hrow
    obtain ⟨g, hg, hgy⟩ := List.mem_map.1 hrow
    exact ⟨g, hg, (hsat g y hgy).2 hysat⟩

end Relationship

end ResourceQuery
