import ResourceQuery.Proofs.Outcome
import ResourceQuery.Proofs.Statement.Frames

/-!
# Conditions on other sources

The readings of a table are told apart by names that mean nothing: a condition on sources that
stand for others of the same tables, one for one, says the same about the same rows.

* `Renames`: which sources stand for which others;
* `Frame.Renamed`, `Predicate.Renamed`: frames and conditions with others for their sources;
* `Predicate.Renamed.simplified`: such conditions are simplified alike;
* `rel_unreadOf`, `rel_extend`: what they read corresponds;
* `Predicate.Renamed.truth_eq`: such a condition has the same truth on such a frame.

The related rows inside a condition have sources of their own, so what stands for what is extended
on the way into it.
-/

namespace ResourceQuery

/-- Whether sources stand for others one for one, each for one of the same table. -/
structure Renames (R : Source → Source → Prop) : Prop where
  unique : Relator.BiUnique R
  table {s t : Source} (h : R s t) : s.table = t.table

/-! ## What mentions sources -/

section Renamed

variable (R : Source → Source → Prop)

/-- Whether two columns have one name and type, and sources of which one stands for the other. -/
structure ColumnRef.Renamed (x y : ColumnRef) : Prop where
  source : R x.source y.source
  name : x.name = y.name
  type : x.type = y.type

/-- Whether two equalities are about such columns. -/
structure Equality.Renamed (e e' : Equality) : Prop where
  left : e.left.Renamed R e'.left
  right : e.right.Renamed R e'.right

/-- Whether two operands are such columns, links by such equalities, or one that mentions no source
at all. -/
inductive Operand.Renamed : Operand → Operand → Prop
  | column {x y : ColumnRef} (h : x.Renamed R y) : Renamed (.column x) (.column y)
  | linked {es es' : List Equality} (h : List.Forall₂ (Equality.Renamed R) es es') :
    Renamed (.linked es) (.linked es')
  | constant (a : ClassAttribute) : Renamed (.constant a) (.constant a)

/-- Whether two steps bring in sources of which one stands for the other, by such equalities. -/
structure Hop.Renamed (h h' : Hop) : Prop where
  sources : List.Forall₂ R h.sources h'.sources
  equalities : List.Forall₂ (Equality.Renamed R) h.equalities h'.equalities

/-- Whether two frames have the same rows for sources of which one stands for the other. -/
def Frame.Renamed (f g : Frame) : Prop := List.Forall₂ (fun p q => R p.1 q.1 ∧ p.2 = q.2) f g

end Renamed

/-- Whether two conditions differ in their sources alone. Inside a condition on related rows more
sources may stand for others. -/
inductive Predicate.Renamed : (Source → Source → Prop) → Predicate → Predicate → Prop
  | always {R : Source → Source → Prop} : Renamed R .always .always
  | never {R : Source → Source → Prop} : Renamed R .never .never
  | isNull {R : Source → Source → Prop} {x y : ColumnRef} (h : x.Renamed R y) :
    Renamed R (.isNull x) (.isNull y)
  | notNull {R : Source → Source → Prop} {x y : ColumnRef} (h : x.Renamed R y) :
    Renamed R (.notNull x) (.notNull y)
  | compare {R : Source → Source → Prop} {x y : ColumnRef} (h : x.Renamed R y)
    (comparison : Comparison) (v : Value) :
    Renamed R (.compare x comparison v) (.compare y comparison v)
  | contains {R : Source → Source → Prop} {x y : Operand} (h : x.Renamed R y) (cast : Bool)
    (fragment : String) : Renamed R (.contains x cast fragment) (.contains y cast fragment)
  | both {R : Source → Source → Prop} {p q p' q' : Predicate} (hp : Renamed R p p')
    (hq : Renamed R q q') : Renamed R (.both p q) (.both p' q')
  | either {R : Source → Source → Prop} {p q p' q' : Predicate} (hp : Renamed R p p')
    (hq : Renamed R q q') : Renamed R (.either p q) (.either p' q')
  | related {R R' : Source → Source → Prop} {hop hop' : Hop} {p p' : Predicate} (hR' : Renames R')
    (hle : ∀ {s t}, R s t → R' s t) (hhop : hop.Renamed R' hop') (hp : Renamed R' p p') :
    Renamed R (.related hop p) (.related hop' p')

variable {R : Source → Source → Prop}

namespace Predicate.Renamed

theorem allOf {ps qs : List Predicate} (h : List.Forall₂ (Predicate.Renamed R) ps qs) :
    (Predicate.allOf ps).Renamed R (.allOf qs) := by
  induction h with
  | nil => exact .always
  | cons hpq hrest ih =>
    cases hrest with
    | nil => exact hpq
    | cons => exact .both hpq ih

theorem anyOf {ps qs : List Predicate} (h : List.Forall₂ (Predicate.Renamed R) ps qs) :
    (Predicate.anyOf ps).Renamed R (.anyOf qs) := by
  induction h with
  | nil => exact .never
  | cons hpq hrest ih =>
    cases hrest with
    | nil => exact hpq
    | cons => exact .either hpq ih

theorem ofTruth (b : Bool) : (Predicate.ofTruth b).Renamed R (.ofTruth b) := by
  cases b
  · exact .never
  · exact .always

theorem isAlways_eq {p q : Predicate} (h : p.Renamed R q) : p.isAlways = q.isAlways := by
  cases h <;> rfl

theorem isNever_eq {p q : Predicate} (h : p.Renamed R q) : p.isNever = q.isNever := by
  cases h <;> rfl

/-- Such conditions are simplified alike. -/
theorem simplified {p q : Predicate} (h : p.Renamed R q) : p.simplified.Renamed R q.simplified := by
  induction h with
  | both _ _ ihp ihq =>
    rw [Predicate.simplified, Predicate.simplified, bothOf, bothOf, ihp.isNever_eq, ihq.isNever_eq,
      ihp.isAlways_eq, ihq.isAlways_eq]
    split
    · exact .never
    · split
      · exact ihq
      · split
        · exact ihp
        · exact .both ihp ihq
  | either _ _ ihp ihq =>
    rw [Predicate.simplified, Predicate.simplified, eitherOf, eitherOf, ihp.isNever_eq,
      ihq.isNever_eq, ihp.isAlways_eq, ihq.isAlways_eq]
    split
    · exact ofTruth _
    · exact .either ihp ihq
  | related hR' hle hhop _ ih => exact .related hR' hle hhop ih
  | always => exact .always
  | never => exact .never
  | isNull h => exact .isNull h
  | notNull h => exact .notNull h
  | compare h comparison v => exact .compare h comparison v
  | contains h cast fragment => exact .contains h cast fragment

end Predicate.Renamed

/-! ## Sources -/

theorem rel_equalities_sources {es es' : List Equality}
    (h : List.Forall₂ (Equality.Renamed R) es es') :
    List.Forall₂ R (es.flatMap (·.sources)) (es'.flatMap (·.sources)) :=
  List.rel_flatMap h fun _ _ he => .cons he.left.source (.cons he.right.source .nil)

theorem Operand.Renamed.sources {x y : Operand} (h : x.Renamed R y) :
    List.Forall₂ R x.sources y.sources := by
  cases h with
  | column h => exact .cons h.source .nil
  | linked h => exact rel_equalities_sources h
  | constant a => exact .nil

theorem Predicate.Renamed.sources {p q : Predicate} (h : p.Renamed R q) :
    List.Forall₂ R p.sources q.sources := by
  induction h with
  | always | never | related => exact .nil
  | isNull h | notNull h | compare h => exact .cons h.source .nil
  | contains h => exact h.sources
  | both _ _ ihp ihq | either _ _ ihp ihq => exact List.rel_append ihp ihq

theorem rel_eraseDups (hR : Renames R) {ss ts : List Source} (h : List.Forall₂ R ss ts) :
    List.Forall₂ R ss.eraseDups ts.eraseDups := by
  generalize hn : ss.length = n
  induction n using Nat.strong_induction_on generalizing ss ts with
  | _ n ih =>
    cases h with
    | nil => exact .nil
    | @cons s t ss ts hst h =>
      rw [List.eraseDups_cons, List.eraseDups_cons]
      refine .cons hst (ih _ ?_ (List.rel_filter (fun a b hab => ?_) h) rfl)
      · have := List.length_filter_le (fun b => !b == s) ss
        simp only [List.length_cons] at hn
        omega
      · have hsame : a = s ↔ b = t := ⟨fun ha => hR.unique.2 (ha ▸ hab) hst,
          fun hb => hR.unique.1 (hb ▸ hab) hst⟩
        simp [hsame]

/-- What is mentioned and not yet read corresponds. -/
theorem rel_unreadOf (hR : Renames R) {read read' mentioned mentioned' : List Source}
    (hread : List.Forall₂ R read read') (hmentioned : List.Forall₂ R mentioned mentioned') :
    List.Forall₂ R (unreadOf read mentioned) (unreadOf read' mentioned') := by
  refine List.rel_filter (fun s t hst => ?_) (rel_eraseDups hR hmentioned)
  simp [List.rel_mem hR.unique hst hread]

/-! ## Frames -/

namespace Frame.Renamed

variable {f g : Frame}

theorem sources (h : f.Renamed R g) : List.Forall₂ R f.sources g.sources :=
  List.rel_map (fun _ _ hpq => hpq.1) h

theorem row?_eq (hR : Renames R) (h : f.Renamed R g) {s t : Source} (hst : R s t) :
    f.row? s = g.row? t := by
  induction h with
  | nil => rfl
  | @cons p q f g hpq _ ih =>
    obtain ⟨s', x⟩ := p
    obtain ⟨t', y⟩ := q
    obtain ⟨hfirst, hxy⟩ := hpq
    cases hxy
    by_cases hs : s' = s
    · subst hs
      obtain rfl := hR.unique.2 hfirst hst
      rw [Frame.row?_cons_self, Frame.row?_cons_self]
    · have ht : t' ≠ t := fun ht => hs (hR.unique.1 hfirst (ht ▸ hst))
      rw [Frame.row?_cons_of_ne hs, Frame.row?_cons_of_ne ht, ih]

theorem get_eq (hR : Renames R) (h : f.Renamed R g) {x y : ColumnRef} (hxy : x.Renamed R y) :
    f.get x = g.get y := by
  rw [Frame.get, Frame.get, h.row?_eq hR hxy.source, hxy.name]

theorem equalitiesTruth_eq (hR : Renames R) (h : f.Renamed R g) {es es' : List Equality}
    (hes : List.Forall₂ (Equality.Renamed R) es es') :
    equalitiesTruth f es = equalitiesTruth g es' := by
  induction hes with
  | nil => rfl
  | cons he _ ih =>
    refine congrArg₂ andTruth ?_ ih
    rw [Equality.truth, Equality.truth, h.get_eq hR he.left, h.get_eq hR he.right]

theorem cell_eq (hR : Renames R) (h : f.Renamed R g) {x y : Operand} (hxy : x.Renamed R y) :
    x.cell f = y.cell g := by
  cases hxy with
  | column hxy => exact h.get_eq hR hxy
  | linked hes => exact congrArg Cell.ofTruth (h.equalitiesTruth_eq hR hes)
  | constant a => rfl

/-- A frame in which every source stands for itself. -/
theorem refl (h : ∀ s ∈ f.sources, R s s) : f.Renamed R f :=
  List.forall₂_same.2 fun _ hp => ⟨h _ (List.mem_map_of_mem hp), rfl⟩

theorem imp {R' : Source → Source → Prop} (hle : ∀ {s t}, R s t → R' s t) (h : f.Renamed R g) :
    f.Renamed R' g :=
  List.Forall₂.imp (fun _ _ hpq => ⟨hle hpq.1, hpq.2⟩) h

end Frame.Renamed

/-- The frames with rows of more sources in front correspond. -/
theorem rel_extend (hR : Renames R) (db : Database) {ss ts : List Source}
    (hst : List.Forall₂ R ss ts) {f g : Frame} (h : f.Renamed R g) :
    List.Forall₂ (Frame.Renamed R) (db.extend ss f) (db.extend ts g) := by
  induction hst generalizing f g with
  | nil => exact .cons h .nil
  | @cons s t ss ts hst _ ih =>
    rw [Database.extend, Database.extend, hR.table hst]
    refine List.rel_flatMap (List.forall₂_same.2 fun x _ => rfl) fun x y hxy => ?_
    exact ih (.cons ⟨hst, congrArg some hxy⟩ h)

/-! ## Conditions -/

/-- **Names of sources mean nothing.** Conditions that differ in their sources alone have the same
truth on frames that do. -/
theorem Predicate.Renamed.truth_eq (db : Database) {p q : Predicate} (h : p.Renamed R q)
    (hR : Renames R) {f g : Frame} (hfg : f.Renamed R g) : p.truth db f = q.truth db g := by
  induction h generalizing f g with
  | always | never => rfl
  | isNull h | notNull h => simp only [truth, hfg.get_eq hR h]
  | compare h comparison v => cases comparison <;> simp only [truth, hfg.get_eq hR h, h.type]
  | contains h => simp only [truth, hfg.cell_eq hR h]
  | both _ _ ihp ihq | either _ _ ihp ihq => simp only [truth, ihp hR hfg, ihq hR hfg]
  | related hR' hle hhop hp ih =>
    replace hfg := hfg.imp hle
    have hunread := rel_unreadOf hR' (List.rel_append hhop.sources hfg.sources)
      (List.rel_append (rel_equalities_sources hhop.equalities) hp.sources)
    have hframes := rel_extend hR' db (List.rel_append hhop.sources hunread) hfg
    refine congrArg some (any_eq_of_forall₂ (hframes.imp fun a b hab => ?_))
    rw [hab.equalitiesTruth_eq hR' hhop.equalities, ih hR' hab]

end ResourceQuery
