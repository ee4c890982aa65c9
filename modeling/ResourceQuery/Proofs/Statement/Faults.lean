import ResourceQuery.Statement.Meaning

/-!
# What the store refuses

The store refuses a statement for the columns that it names and for the values that it holds.

* `Operand.constants`, `Term.constants`, `OrderKey.constants`, `Selection.constants`: the values
  that these write;
* `Statement.values_pieces`: the values of a statement are those of its parts and of its page;
* `Statement.fault?_eq_none`: what an accepted statement satisfies;
* `Statement.fault?_count`: the counting statement of an accepted statement is accepted;
* `Statement.fault?_window`: a page is accepted when its bounds are;
* `Statement.resultFault?_eq_none`: what an answer satisfies that is not refused;
* `Statement.runFault?_window`, `Statement.countFault?_eq_none`: a page is answered and counted when
  all rows are answered;
* `Statement.runFault?_of_isTotal`, `Statement.count_eq_rowCount`: without sums, and with values of
  kinds that every cell can be read as, rows are refused for their statement alone.
-/

namespace ResourceQuery

/-- The values that an operand writes. -/
def Operand.constants : Operand → List Value
  | .constant a => [a.value]
  | _ => []

/-- The values that a term writes. -/
def Term.constants : Term → List Value
  | .plain x | .aggregate _ x => x.constants
  | .countAll => []

/-- The values that an order key writes. -/
def OrderKey.constants : OrderKey → List Value
  | .term t => t.constants
  | .extreme _ _ _ x _ => x.constants

/-- The values that a selection writes. -/
def Selection.constants : Selection → List Value
  | .records _ => []
  | .rows terms => terms.flatMap (·.term.constants)

namespace Statement

/-! ## Values among pieces -/

@[simp] theorem values_nil : values [] = [] := rfl

@[simp] theorem values_word (text : String) (ps : List Piece) :
    values (.word text :: ps) = values ps := rfl

@[simp] theorem values_value (stem : String) (v : Value) (ps : List Piece) :
    values (.value stem v :: ps) = v :: values ps := rfl

@[simp] theorem values_source (s : Source) (ps : List Piece) :
    values (.source s :: ps) = values ps := rfl

@[simp] theorem values_append (ps qs : List Piece) : values (ps ++ qs) = values ps ++ values qs :=
  List.filterMap_append

theorem values_separated (separator : String) (items : List (List Piece)) :
    values (separated separator items) = items.flatMap values := by
  induction items with
  | nil => rfl
  | cons item items ih =>
    cases items with
    | nil => simp [separated]
    | cons next items =>
      rw [separated, values_append, values_word, ih, List.flatMap_cons]
      simp

@[simp] theorem values_clause (word : String) (ps : List Piece) :
    values (clause word ps) = values ps := by
  cases ps <;> rfl

@[simp] theorem values_columnPieces (c : ColumnRef) : values c.pieces = [] := by
  rcases c with ⟨⟨table, reading⟩, name, type⟩
  cases reading <;> rfl

theorem mem_values_bodyPieces {s : Statement} {selected : List Piece} {v : Value} :
    v ∈ values (s.bodyPieces selected) ↔ v ∈ values selected ∨ v ∈ values (s.bodyPieces []) := by
  simp [bodyPieces]

@[simp] theorem values_reserve (stem : String) (ps : List Piece) :
    values (.reserve stem :: ps) = values ps := rfl

@[simp] theorem values_reserved (ps : List Piece) : values (.reserved :: ps) = values ps := rfl

@[simp] theorem values_parenthesized (ps : List Piece) : values (parenthesized ps) = values ps := by
  simp [parenthesized]

@[simp] theorem values_sourcePieces (s : Source) : values s.pieces = [] := by
  rcases s with ⟨table, reading⟩
  cases reading <;> rfl

@[simp] theorem values_equalityPieces (es : List Equality) : values (equalityPieces es) = [] := by
  simp [equalityPieces, values_separated, Equality.pieces]

@[simp] theorem values_piecesBy (stem : String) (x : Operand) :
    values (x.piecesBy stem) = x.constants := by
  cases x <;> simp [Operand.piecesBy, Operand.constants]

@[simp] theorem values_operandPieces (x : Operand) : values x.pieces = x.constants :=
  values_piecesBy "param" x

@[simp] theorem values_termPieces (t : Term) : values t.pieces = t.constants := by
  cases t <;> simp [Term.pieces, Term.constants]

@[simp] theorem values_fromPieces (items : List (List Piece)) :
    values (fromPieces items) = items.flatMap values := by
  unfold fromPieces
  split
  · next h => simp [List.isEmpty_iff.1 h]
  · rw [values_word, values_separated]

@[simp] theorem values_outerPieces (c : Chain) : values c.outerPieces = [] := by
  have hhop : ∀ h : Hop, values h.outerPieces = [] := by
    intro h
    unfold Hop.outerPieces
    cases h.route <;> simp
  rw [Chain.outerPieces, values_append, values_sourcePieces, values, List.filterMap_flatMap]
  exact List.flatMap_eq_nil_iff.2 fun h _ => hhop h

@[simp] theorem values_innerPieces (c : Chain) : values c.innerPieces = [] := by
  have hhop : ∀ h : Hop, values h.innerPieces = [] := by
    intro h
    unfold Hop.innerPieces
    cases h.route <;> simp
  rw [Chain.innerPieces, values_append, values_sourcePieces, values, List.filterMap_flatMap]
  exact List.flatMap_eq_nil_iff.2 fun h _ => hhop h

@[simp] theorem values_orderPieces (outer : List Source) (t : OrderTerm) :
    values (t.pieces outer) = t.key.constants := by
  have hkey : values (t.key.pieces outer) = t.key.constants := by
    unfold OrderKey.pieces OrderKey.constants
    cases t.key <;> simp [Term.constants]
  simp [OrderTerm.pieces, hkey]

@[simp] theorem values_selectionPieces (root : Source) (selection : Selection) :
    values (selection.pieces root) = selection.constants := by
  cases selection <;>
    simp [Selection.pieces, Selection.constants, values_separated, Column.at_, List.flatMap_map]

/-- The values of a condition do not depend on where it stands. -/
theorem values_predicatePieces (p : Predicate) (outer outer' : List Source)
    (place place' : Place) : values (p.pieces outer place) = values (p.pieces outer' place') := by
  have hparentheses : ∀ (c : Prop) [Decidable c] (ps : List Piece),
      values (if c then parenthesized ps else ps) = values ps := by
    intro c _ ps
    split <;> simp
  have hparentheses' : ∀ (c : Prop) [Decidable c] (ps : List Piece),
      values (if c then ps else parenthesized ps) = values ps := by
    intro c _ ps
    split <;> simp
  induction p generalizing outer outer' place place' with
  | always => rfl
  | never => rfl
  | isNull x => rfl
  | notNull x => rfl
  | compare x comparison v => simp only [Predicate.pieces, hparentheses]
  | contains x cast fragment => simp only [Predicate.pieces, hparentheses']
  | both p q ihp ihq =>
    simp only [Predicate.pieces, values_append, values_word]
    rw [ihp outer outer' _ .amongAll, ihq outer outer' _ .amongAll]
  | either p q ihp ihq =>
    simp only [Predicate.pieces, hparentheses, values_append, values_word]
    rw [ihp outer outer' _ .amongAny, ihq outer outer' _ .amongAny]
  | related hop criterion ih =>
    have hread : ∀ ss : List Source, values (fromPieces (ss.map (·.pieces))) = [] := by
      intro ss
      simp
    simp only [Predicate.pieces, hparentheses, values_append, values_word, hread]
    rw [ih _ (hop.sources ++ hop.unread outer' criterion ++ outer') _ .amongAll]

/-- The values of a statement are those of its parts and of its page. -/
theorem values_pieces (s : Statement) :
    values s.pieces = s.selection.constants ++
      ((Predicate.written s.conditions).flatMap fun p => values (p.pieces [] .alone)) ++
        s.group.flatMap (·.constants) ++ s.order.flatMap (·.key.constants) ++
          values (windowPieces s.limit s.offset) := by
  have hallOf : ∀ ps : List Predicate, ∀ outer place,
      values ((Predicate.allOf ps).pieces outer place) =
        ps.flatMap fun p => values (p.pieces [] .alone) := by
    intro ps
    induction ps with
    | nil => intros; rfl
    | cons p ps ih =>
      intro outer place
      cases ps with
      | nil =>
        rw [List.flatMap_singleton]
        exact values_predicatePieces p ..
      | cons q ps =>
        rw [List.flatMap_cons, ← ih outer .amongAll, ← values_predicatePieces p outer [] .amongAll]
        simp only [Predicate.allOf, Predicate.pieces, values_append, values_word]
  have hconditions : values s.conditionPieces =
      (Predicate.written s.conditions).flatMap fun p => values (p.pieces [] .alone) := by
    unfold conditionPieces
    split
    · next h => simp [h]
    · next p h =>
      rw [h, List.flatMap_singleton]
      exact values_predicatePieces p ..
    · exact hallOf ..
  have hgroup : values (separated ", " (s.group.map (·.pieces))) =
      s.group.flatMap (·.constants) := by
    simp [values_separated, List.flatMap_map]
  have horder : values (separated ", " (s.order.map (·.pieces s.sources))) =
      s.order.flatMap (·.key.constants) := by
    simp [values_separated, List.flatMap_map]
  have hchains : values (fromPieces (s.chains.map (·.outerPieces))) = [] := by simp
  simp [pieces, bodyPieces, hconditions, hgroup, horder, hchains]

/-- The values of a page are its bounds. -/
theorem mem_values_windowPieces {limit offset : Option Int} {v : Value}
    (h : v ∈ values (windowPieces limit offset)) :
    (∃ l ∈ limit, v = .int l) ∨ ∃ o ∈ offset, v = .int o := by
  have hwritten : ∀ o ∈ offset.filter (· ≠ 0), o ∈ offset := fun o ho =>
    (Option.filter_eq_some_iff.1 ho).1
  unfold windowPieces at h
  dsimp only at h
  split at h
  · cases h
  · exact .inl ⟨_, rfl, List.mem_singleton.1 h⟩
  · next hsome => exact .inr ⟨_, hwritten _ hsome, List.mem_singleton.1 h⟩
  · next hsome =>
    rcases List.mem_cons.1 h with hv | hv
    · exact .inl ⟨_, rfl, hv⟩
    · exact .inr ⟨_, hwritten _ hsome, List.mem_singleton.1 hv⟩

/-! ## Accepted statements -/

variable {s : Statement}

theorem fault?_eq_none {order : List OrderTerm} {pieces : List Piece} :
    s.fault? order pieces = none ↔
      s.group.any (·.isLabel) = false ∧
      (∀ t ∈ s.group.flatMap (·.sources) ++
        (order.filterMap (·.key.term?)).flatMap (·.sources), t ∈ s.sources) ∧
      ((order.filterMap (·.key.term?)).any (·.isAggregate) && !s.isGrouped &&
        (!s.readsOneRecord && !s.orderedByKey order)) = false ∧
      ∀ v ∈ values pieces, v.storeFault? = none := by
  have hall : ∀ ts : List Source, (!ts.all (· ∈ s.sources)) = true ↔ ¬ ∀ t ∈ ts, t ∈ s.sources := by
    intro ts
    rw [Bool.not_eq_true', ← Bool.not_eq_true, List.all_eq_true]
    simp only [decide_eq_true_eq]
  unfold fault?
  simp only [hall]
  constructor
  · intro h
    split at h
    · cases h
    · next hlabel =>
      split at h
      · cases h
      · next hread =>
        split at h
        · cases h
        · next haggregates =>
          exact ⟨eq_false_of_ne_true hlabel, Decidable.of_not_not hread,
            eq_false_of_ne_true haggregates, List.findSome?_eq_none_iff.1 h⟩
  · rintro ⟨hlabel, hread, haggregates, hvalues⟩
    rw [if_neg (by rw [hlabel]; exact Bool.false_ne_true), if_neg fun h => h hread,
      if_neg (by simp only [haggregates, Bool.false_eq_true, not_false_eq_true])]
    exact List.findSome?_eq_none_iff.2 hvalues

/-- The counting statement names no column and holds no value that the statement does not. -/
theorem fault?_count (h : s.fault? s.order s.pieces = none) : s.fault? [] s.countPieces = none := by
  obtain ⟨hlabel, hread, -, hvalues⟩ := fault?_eq_none.1 h
  have hbody : ∀ v ∈ values (s.bodyPieces (s.selection.pieces s.root)), v.storeFault? = none := by
    intro v hv
    exact hvalues v (by simp [pieces, hv])
  refine fault?_eq_none.2 ⟨hlabel, fun t ht => hread t ?_, rfl, fun v hv => ?_⟩
  · simp only [List.filterMap_nil, List.flatMap_nil, List.append_nil] at ht
    exact List.mem_append_left _ ht
  · unfold countPieces at hv
    split at hv
    · exact hbody v (by simpa using hv)
    · refine hbody v (mem_values_bodyPieces.2 (.inr ?_))
      simp only [values_word, values_append, List.mem_append] at hv
      rw [mem_values_bodyPieces] at hv
      simpa [values_separated, List.flatMap_map] using hv

/-- A page is accepted when the statement and the bounds of the page are. -/
theorem fault?_window {limit offset : Option Int} (h : s.fault? s.order s.pieces = none)
    (hl : ∀ l ∈ limit, (Value.int l).storeFault? = none)
    (ho : ∀ o ∈ offset, (Value.int o).storeFault? = none) :
    { s with limit := limit, offset := offset }.fault? s.order
      { s with limit := limit, offset := offset }.pieces = none := by
  obtain ⟨hlabel, hread, haggregates, hvalues⟩ := fault?_eq_none.1 h
  refine fault?_eq_none.2 ⟨hlabel, hread, haggregates, fun v hv => ?_⟩
  rw [values_pieces, List.mem_append] at hv
  rcases hv with hpart | hbound
  · exact hvalues v (by rw [values_pieces]; exact List.mem_append_left _ hpart)
  · rcases mem_values_windowPieces hbound with ⟨l, hlimit, rfl⟩ | ⟨o, hoffset, rfl⟩
    · exact hl l hlimit
    · exact ho o hoffset

end Statement

/-! ## Accepted answers -/

/-- Whether every cell is a value of a type. -/
def ColumnType.isTotal : ColumnType → Bool
  | .integer | .text | .float | .boolean | .untyped => true
  | _ => false

theorem Cell.isSome_read? {type : ColumnType} (h : type.isTotal = true) (c : Cell) :
    (c.read? type).isSome := by
  cases c <;> cases type <;> first | rfl | cases h

/-- Whether a term is a sum. -/
def Term.isSum : Term → Bool
  | .aggregate .sum _ => true
  | _ => false

/-- Only sums leave the integers of the store. -/
theorem Term.overflows_eq_false {t : Term} (h : t.isSum = false) (g : FrameGroup) :
    t.overflows g = false := by
  cases t with
  | plain | countAll => rfl
  | aggregate function x => cases function <;> first | rfl | cases h

namespace Statement

variable {s : Statement} {db : Database}

/-- A window is a part of a list. -/
theorem mem_of_mem_window {α : Type} {limit offset : Option Int} {xs : List α} {x : α}
    (h : x ∈ window limit offset xs) : x ∈ xs := by
  unfold window at h
  dsimp only at h
  split at h
  · exact List.mem_of_mem_drop h
  · split at h
    · exact List.mem_of_mem_drop h
    · exact List.mem_of_mem_drop (List.mem_of_mem_take h)

theorem mem_groups_of_mem_computedGroups {g : FrameGroup} (h : g ∈ s.computedGroups db) :
    g ∈ s.groups db := by
  unfold computedGroups at h
  split at h
  · cases h
  · split at h
    · exact h
    · exact mem_of_mem_window h

/-- A window is a part of what comes up to its end. -/
theorem mem_window_upTo {α : Type} {limit : Int} {offset : Option Int} {xs : List α} {x : α}
    (h : x ∈ window (some limit) offset xs) :
    x ∈ window (some (if limit < 0 then limit else limit + (offset.getD 0).toNat)) none xs := by
  have hskip : (offset.map Int.toNat).getD 0 = (offset.getD 0).toNat := by
    cases offset <;> rfl
  simp only [window, hskip, Option.map_none, Option.getD_none, List.drop_zero] at h ⊢
  by_cases hneg : limit < 0
  · rw [if_pos hneg] at h
    rw [if_pos hneg, if_pos hneg]
    exact List.mem_of_mem_drop h
  · rw [if_neg hneg] at h
    rw [if_neg hneg, if_neg (by omega)]
    have htake : (xs.drop (offset.getD 0).toNat).take limit.toNat =
        (xs.take (limit + (offset.getD 0).toNat).toNat).drop (offset.getD 0).toNat := by
      rw [List.drop_take]
      congr 1
      omega
    rw [htake] at h
    exact List.mem_of_mem_drop h

/-- The groups of the window are computed. -/
theorem mem_computedGroups_of_mem_window {g : FrameGroup}
    (h : g ∈ window s.limit s.offset (s.groups db)) : g ∈ s.computedGroups db := by
  unfold computedGroups
  split
  · next hlimit =>
    rw [hlimit] at h
    simp [window] at h
  · split
    · exact mem_of_mem_window h
    · cases hlimit : s.limit with
      | none =>
        rw [hlimit] at h
        simpa [window] using mem_of_mem_window h
      | some limit => exact mem_window_upTo (hlimit ▸ h)

/-- Without a limit all groups are computed. -/
theorem computedGroups_of_limit_none (h : s.limit = none) :
    s.computedGroups db = s.groups db := by
  simp [computedGroups, h, window]

theorem any_overflows_eq_false {gs : List FrameGroup} {ts : List Term} :
    (gs.any fun g => ts.any (·.overflows g)) = false ↔
      ∀ g ∈ gs, ∀ t ∈ ts, t.overflows g = false := by
  simp only [List.any_eq_false, Bool.not_eq_true]

/-- What an answer satisfies that is not refused: no sum in a group that is computed leaves the
integers of the store, and every cell that is shown is a value of its type. -/
theorem resultFault?_eq_none :
    s.resultFault? db = none ↔
      (∀ g ∈ s.computedGroups db, ∀ t ∈ s.terms, t.overflows g = false) ∧
        ∀ g ∈ window s.limit s.offset (s.groups db), s.isReadable g = true := by
  rw [← any_overflows_eq_false, ← List.all_eq_true, resultFault?]
  cases (s.computedGroups db).any fun g => s.terms.any (·.overflows g) <;>
    cases (window s.limit s.offset (s.groups db)).all s.isReadable <;> simp

theorem runFault?_eq_none :
    s.runFault? db = none ↔ s.fault? s.order s.pieces = none ∧ s.resultFault? db = none :=
  Option.or_eq_none_iff

/-- A page is answered when all rows are, and the bounds of the page are accepted. -/
theorem runFault?_window {limit offset : Option Int} (hall : s.limit = none ∧ s.offset = none)
    (h : s.runFault? db = none) (hl : ∀ l ∈ limit, (Value.int l).storeFault? = none)
    (ho : ∀ o ∈ offset, (Value.int o).storeFault? = none) :
    { s with limit := limit, offset := offset }.runFault? db = none := by
  obtain ⟨hfault, hresult⟩ := runFault?_eq_none.1 h
  obtain ⟨hoverflow, hreadable⟩ := resultFault?_eq_none.1 hresult
  rw [computedGroups_of_limit_none hall.1] at hoverflow
  rw [hall.1, hall.2] at hreadable
  have hgroups : { s with limit := limit, offset := offset }.groups db = s.groups db := rfl
  refine runFault?_eq_none.2 ⟨fault?_window hfault hl ho, resultFault?_eq_none.2
    ⟨fun g hg => hoverflow g (hgroups ▸ mem_groups_of_mem_computedGroups hg), fun g hg => ?_⟩⟩
  exact hreadable g (mem_of_mem_window hg)

/-- Nothing is refused about the rows of an accepted statement that has no sums and shows what every
cell can be read as. -/
theorem runFault?_of_isTotal (hsums : ∀ t ∈ s.terms, t.isSum = false)
    (htypes : ∀ t ∈ s.selectedTerms, t.type.isTotal = true)
    (h : s.fault? s.order s.pieces = none) : s.runFault? db = none := by
  refine runFault?_eq_none.2 ⟨h, resultFault?_eq_none.2
    ⟨fun g _ t ht => Term.overflows_eq_false (hsums t ht) g, fun g _ => ?_⟩⟩
  exact List.all_eq_true.2 fun t ht => Cell.isSome_read? (htypes t ht) _

/-- And nothing about its count. -/
theorem count_eq_rowCount (hsums : ∀ t ∈ s.selectedTerms, t.isSum = false)
    (h : s.fault? [] s.countPieces = none) : s.count db = .ok (s.rowCount db) := by
  have hoverflow := any_overflows_eq_false.2 fun (g : FrameGroup) (_ : g ∈ s.groups db) t ht =>
    Term.overflows_eq_false (hsums t ht) g
  rw [count, countFault?, h, Option.none_or, hoverflow, if_neg Bool.false_ne_true]

/-- All rows are counted when they are answered. -/
theorem countFault?_eq_none (hlimit : s.limit = none) (h : s.runFault? db = none) :
    s.countFault? db = none := by
  obtain ⟨hfault, hresult⟩ := runFault?_eq_none.1 h
  obtain ⟨hoverflow, -⟩ := resultFault?_eq_none.1 hresult
  rw [computedGroups_of_limit_none hlimit] at hoverflow
  have hselected := any_overflows_eq_false.2 fun g hg t ht =>
    hoverflow g hg t (List.mem_append_left _ ht)
  rw [countFault?, fault?_count hfault, Option.none_or, hselected, if_neg Bool.false_ne_true]

end Statement

end ResourceQuery
