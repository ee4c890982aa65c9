import ResourceQuery.Proofs.Store.CellOrder

/-!
# What cells hold

Cells that a store takes for equal when it groups rows hold the same: numbers by their exact value,
texts and byte strings by their characters.

* `Cell.content`: what a cell holds;
* `Cell.order_eq_iff`: the order takes two cells for equal when they hold the same;
* `Cell.proper_ofValue`, `Cell.IsProper.forColumn`: the cells that rows are compared with;
* `Cell.order_eq_of_order_eq`: cells that are equal to such a cell are equal;
* `sameCells_iff`: so do lists of cells.
-/

namespace ResourceQuery

namespace Cell

/-- What a cell holds. -/
inductive Content
  | null
  | number (value : WithBot (WithTop ℚ))
  | text (s : String)
  | blob (bs : List UInt8)
deriving DecidableEq

/-- What a cell holds. -/
def content : Cell → Content
  | null => .null
  | integer i => .number (value (integer i))
  | real x => .number x.value
  | text s => .text s
  | blob bs => .blob bs

theorem content_of_number {a : Cell} (h : a.rank = 1) : a.content = .number a.value := by
  cases a <;> first | rfl | simp [rank] at h

theorem rank_eq_of_content_eq {a b : Cell} (h : a.content = b.content) : a.rank = b.rank := by
  cases a <;> cases b <;> first | rfl | cases h

theorem bytesOrder_eq_iff {a b : List UInt8} : bytesOrder a b = .eq ↔ a = b := by
  induction a generalizing b with
  | nil => cases b <;> simp [bytesOrder]
  | cons x xs ih =>
    cases b with
    | nil => simp [bytesOrder]
    | cons y ys =>
      rw [bytesOrder, Ordering.then_eq_eq, compare_eq_iff_eq, ih, List.cons.injEq,
        UInt8.toNat_inj]

theorem numberOrder_eq_iff {a b : Cell} (ha : a.rank = 1) (hb : b.rank = 1) (ha' : a.IsProper)
    (hb' : b.IsProper) : numberOrder a b = .eq ↔ a.value = b.value := by
  rw [le_antisymm_iff (a := a.value), ← numberOrder_le_iff ha hb ha' hb',
    ← numberOrder_le_iff hb ha hb' ha', numberOrder_swap a b]
  cases numberOrder a b <;> simp

/-- The order takes two cells for equal when they hold the same. -/
theorem order_eq_iff {a b : Cell} (ha : a.IsProper) (hb : b.IsProper) :
    order a b = .eq ↔ a.content = b.content := by
  by_cases h : a.rank = b.rank
  · by_cases n : a.rank = 1
    · have n' : b.rank = 1 := by omega
      rw [order_of_numbers n n', numberOrder_eq_iff n n' ha hb, content_of_number n,
        content_of_number n', Content.number.injEq]
    · rcases a with _ | i | x | s | bs <;> rcases b with _ | j | y | t | cs <;>
        simp [rank] at h n
      · exact ⟨fun _ => rfl, fun _ => rfl⟩
      · rw [content, content, Content.text.injEq]
        exact Std.LawfulEqOrd.compare_eq_iff_eq
      · rw [content, content, Content.blob.injEq]
        exact bytesOrder_eq_iff
  · rw [order_of_rank_ne h, compare_eq_iff_eq]
    exact ⟨fun e => absurd e h, fun e => absurd (rank_eq_of_content_eq e) h⟩

end Cell

theorem Binary64.ofRatio_ne_nan (negative : Bool) (num den : Nat) :
    ofRatio negative num den ≠ .nan := by
  unfold ofRatio
  dsimp only
  split_ifs <;> simp [zero]

theorem Binary64.ofDecimal_ne_nan (negative : Bool) (coefficient : Nat) (exponent : Int) :
    ofDecimal negative coefficient exponent ≠ .nan := by
  unfold ofDecimal
  dsimp only
  split_ifs
  · simp [zero]
  · simp
  · exact ofRatio_ne_nan _ _ _
  · exact ofRatio_ne_nan _ _ _

namespace Cell

/-! ## Cells of values -/

/-- The number at the front of a text is one that a store holds. -/
theorem number_of_takeNumber? {chars rest : List Char} {n : Cell}
    (h : takeNumber? chars = some (n, rest)) : n.rank = 1 ∧ n.IsProper := by
  unfold takeNumber? at h
  grind [IsProper, rank, Binary64.ofDecimal_ne_nan]

theorem number_of_numberOfText? {s : String} {n : Cell} (h : numberOfText? s = some n) :
    n.rank = 1 ∧ n.IsProper := by
  unfold numberOfText? at h
  split at h
  · next hn =>
    split at h <;> cases h
    exact number_of_takeNumber? hn
  · cases h

/-- No value becomes a number that is not a number. -/
theorem proper_ofValue (v : Value) : (ofValue v).IsProper := by
  have hfloat (x : Binary64) : (ofFloat x).IsProper := by cases x <;> simp [ofFloat, IsProper]
  cases v with
  | interval length =>
    rw [ofValue]
    cases DateTime.afterEpoch? length <;> simp [IsProper]
  | _ => first | exact hfloat _ | simp [ofValue, IsProper]

/-- Nor does a cell that is compared with a column. -/
theorem IsProper.forColumn {c : Cell} (h : c.IsProper) (type : ColumnType) :
    (c.forColumn type).IsProper := by
  cases c with
  | text s =>
    have hread : ((numberOfText? s).getD (text s)).IsProper := by
      cases hn : numberOfText? s with
      | none => exact h
      | some n => exact (number_of_numberOfText? hn).2
    cases type <;> first | exact h | exact hread
  | _ => cases type <;> first | exact h | simp [Cell.forColumn, IsProper]

/-- What is not a number is taken for equal to every number, and to nothing else. -/
theorem order_nan_eq_iff {c : Cell} : order (real .nan) c = .eq ↔ c.rank = 1 := by
  cases c with
  | real x => cases x <;> simp [order, rank, numberOrder, Binary64.order?]
  | _ => simp [order, rank, numberOrder, Binary64.orderWithInt?]

/-- Cells that are equal to the same cell of a store are equal. -/
theorem order_eq_of_order_eq {a b c : Cell} (hc : c.IsProper) (ha : order a c = .eq)
    (hb : order b c = .eq) : order a b = .eq := by
  have hrank {a : Cell} (h : order a c = .eq) : a.rank = c.rank := by
    by_contra hne
    rw [order_of_rank_ne hne, compare_eq_iff_eq] at h
    exact hne h
  by_cases ha' : a.IsProper
  · by_cases hb' : b.IsProper
    · rw [order_eq_iff ha' hc] at ha
      rw [order_eq_iff hb' hc] at hb
      exact (order_eq_iff ha' hb').2 (ha.trans hb.symm)
    · obtain rfl : b = real .nan := not_not.1 hb'
      rw [order_swap, order_nan_eq_iff.2 ((hrank ha).trans (hrank hb).symm)]
      rfl
  · obtain rfl : a = real .nan := not_not.1 ha'
    exact order_nan_eq_iff.2 ((hrank hb).trans (hrank ha).symm)

end Cell

/-- What some cells hold. -/
def contents (cells : List Cell) : List Cell.Content := cells.map (·.content)

theorem keysOrder_eq_iff {directions : List Bool} {a b : List Cell} (ha : AllProper a)
    (hb : AllProper b) (hlen : a.length = directions.length)
    (hlen' : b.length = directions.length) :
    keysOrder (directions.zip (a.zip b)) = .eq ↔ contents a = contents b := by
  induction directions generalizing a b with
  | nil =>
    rw [List.length_eq_zero_iff.1 hlen, List.length_eq_zero_iff.1 hlen']
    simp [keysOrder]
  | cons d ds ih =>
    obtain ⟨x, xs, rfl⟩ := List.exists_cons_of_length_eq_add_one hlen
    obtain ⟨y, ys, rfl⟩ := List.exists_cons_of_length_eq_add_one hlen'
    simp only [AllProper, List.mem_cons, forall_eq_or_imp] at ha hb
    have hdirection : (if d then (Cell.order x y).swap else Cell.order x y) = .eq ↔
        Cell.order x y = .eq := by
      cases d <;> simp
    rw [List.zip_cons_cons, List.zip_cons_cons, keysOrder, Ordering.then_eq_eq, hdirection,
      Cell.order_eq_iff ha.1 hb.1, ih ha.2 hb.2 (by simpa using hlen) (by simpa using hlen')]
    simp [contents]

theorem zip_replicate_left {α β : Type} (a : α) (bs : List β) :
    (List.replicate bs.length a).zip bs = bs.map fun b => (a, b) := by
  induction bs with
  | nil => rfl
  | cons b bs ih =>
    rw [List.length_cons, List.replicate_succ, List.zip_cons_cons, ih, List.map_cons]

theorem sameCells_iff {a b : List Cell} (ha : AllProper a) (hb : AllProper b)
    (hlen : a.length = b.length) : sameCells a b = true ↔ contents a = contents b := by
  rw [sameCells, ← zip_replicate_left, beq_iff_eq,
    keysOrder_eq_iff ha hb (by simp [hlen]) (by simp [hlen])]

theorem sameCells_self (cells : List Cell) : sameCells cells cells = true := by
  have hswap := keysOrder_swap (List.replicate (cells.zip cells).length false) cells cells
  rw [zip_replicate_left] at hswap
  rw [sameCells, beq_iff_eq]
  cases h : keysOrder ((cells.zip cells).map fun p => (false, p)) <;> simp [h] at hswap ⊢

end ResourceQuery
