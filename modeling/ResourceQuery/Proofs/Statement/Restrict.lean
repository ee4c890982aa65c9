import ResourceQuery.Proofs.Statement.Frames
import ResourceQuery.Proofs.Statement.Simplified

/-!
# Frames without some of their sources

A condition says the same about a frame without the sources that it never mentions.

* `Frame.restrict`: a frame without the sources that are not kept;
* `Predicate.MentionsOnly`: a condition that mentions nothing but kept sources, at any depth;
* `Predicate.truth_restrict`: such a condition has the same truth on the restricted frame.

The related rows inside a condition are read beside the sources of the frame, so what a condition
reads is compared along with what it says.
-/

namespace ResourceQuery

variable {keep : Source → Bool}

namespace Frame

/-- A frame without the sources that are not kept. -/
def restrict (keep : Source → Bool) (f : Frame) : Frame := f.filter fun p => keep p.1

theorem restrict_cons (p : Source × Option StoredRow) (f : Frame) :
    Frame.restrict keep (p :: f) = if keep p.1 then p :: f.restrict keep else f.restrict keep :=
  List.filter_cons

theorem restrict_append (f g : Frame) :
    Frame.restrict keep (f ++ g) = f.restrict keep ++ g.restrict keep :=
  List.filter_append ..

theorem restrict_eq_nil {f : Frame} (h : ∀ s ∈ f.sources, keep s = false) :
    f.restrict keep = [] := by
  rw [restrict, List.filter_eq_nil_iff]
  intro p hp
  simp [h p.1 (List.mem_map_of_mem hp)]

theorem row?_restrict {s : Source} (hs : keep s = true) (f : Frame) :
    (f.restrict keep).row? s = f.row? s := by
  induction f with
  | nil => rfl
  | cons p f ih =>
    rw [restrict_cons]
    by_cases hp : p.1 = s
    · rw [hp, if_pos hs, ← hp]
      exact (row?_cons_self ..).trans (row?_cons_self ..).symm
    · rw [show Frame.row? (p :: f) s = Frame.row? f s from row?_cons_of_ne hp p.2 f, ← ih]
      split
      · exact row?_cons_of_ne hp p.2 _
      · rfl

theorem get_restrict {c : ColumnRef} (hc : keep c.source = true) (f : Frame) :
    (f.restrict keep).get c = f.get c := by
  rw [get, get, row?_restrict hc]

theorem mem_sources_restrict {s : Source} (hs : keep s = true) {f : Frame} :
    s ∈ (f.restrict keep).sources ↔ s ∈ f.sources := by
  simp only [sources, restrict, List.mem_map, List.mem_filter]
  constructor
  · rintro ⟨p, ⟨hp, -⟩, rfl⟩
    exact ⟨p, hp, rfl⟩
  · rintro ⟨p, hp, rfl⟩
    exact ⟨p, ⟨hp, hs⟩, rfl⟩

end Frame

theorem equalitiesTruth_restrict {es : List Equality}
    (h : ∀ s ∈ es.flatMap (·.sources), keep s = true) (f : Frame) :
    equalitiesTruth (f.restrict keep) es = equalitiesTruth f es := by
  induction es with
  | nil => rfl
  | cons e es ih =>
    simp only [List.flatMap_cons, List.mem_append] at h
    have hleft := Frame.get_restrict (h e.left.source (.inl (by simp [Equality.sources]))) f
    have hright := Frame.get_restrict (h e.right.source (.inl (by simp [Equality.sources]))) f
    have he : e.truth (f.restrict keep) = e.truth f := by
      rw [Equality.truth, Equality.truth, hleft, hright]
    exact congrArg₂ andTruth he (ih fun s hs => h s (.inr hs))

theorem Operand.cell_restrict {x : Operand} (h : ∀ s ∈ x.sources, keep s = true) (f : Frame) :
    x.cell (f.restrict keep) = x.cell f := by
  cases x with
  | column c => exact Frame.get_restrict (h _ (by simp [sources])) f
  | linked es => exact congrArg Cell.ofTruth (equalitiesTruth_restrict h f)
  | constant a => rfl
  | label name => rfl

theorem extend_restrict (db : Database) {ss : List Source} (h : ∀ s ∈ ss, keep s = true)
    (f : Frame) : db.extend ss (f.restrict keep) = (db.extend ss f).map (·.restrict keep) := by
  induction ss generalizing f with
  | nil => rfl
  | cons s ss ih =>
    simp only [List.forall_mem_cons] at h
    simp only [Database.extend, List.map_flatMap, ← ih h.2, Frame.restrict_cons, h.1, if_true]

/-- What a condition on related rows reads besides them does not depend on sources that it does not
mention. -/
theorem unread_restrict {hop : Hop} {criterion : Predicate} {f : Frame}
    (hhop : ∀ s ∈ hop.equalities.flatMap (·.sources), keep s = true)
    (hcriterion : ∀ s ∈ criterion.sources, keep s = true) :
    hop.unread (f.restrict keep).sources criterion = hop.unread f.sources criterion := by
  refine List.filter_congr fun s hs => ?_
  have hkeep : keep s = true := by
    rw [List.mem_eraseDups, List.mem_append] at hs
    exact hs.elim (hhop s) (hcriterion s)
  simp [Frame.mem_sources_restrict hkeep]

namespace Predicate

/-- Whether a condition mentions kept sources only, also inside the conditions on related rows. -/
def MentionsOnly (keep : Source → Bool) : Predicate → Prop
  | .always | .never => True
  | .isNull x | .notNull x => keep x.source
  | .compare x _ _ => keep x.source
  | .contains x _ _ => ∀ s ∈ x.sources, keep s
  | .both p q | .either p q => p.MentionsOnly keep ∧ q.MentionsOnly keep
  | .related hop criterion => (∀ s ∈ hop.sources, keep s) ∧
      (∀ s ∈ hop.equalities.flatMap (·.sources), keep s) ∧ criterion.MentionsOnly keep

theorem MentionsOnly.sources {p : Predicate} (h : p.MentionsOnly keep) :
    ∀ s ∈ p.sources, keep s = true := by
  induction p with
  | always | never => simp [Predicate.sources]
  | isNull x | notNull x | compare x => simpa [Predicate.sources, MentionsOnly] using h
  | contains x => exact h
  | both p q hp hq | either p q hp hq =>
    simp only [Predicate.sources, List.mem_append]
    exact fun s hs => hs.elim (hp h.1 s) (hq h.2 s)
  | related => simp [Predicate.sources]

theorem mentionsOnly_ofTruth (b : Bool) : (ofTruth b).MentionsOnly keep := by
  cases b <;> trivial

theorem mentionsOnly_allOf {ps : List Predicate} :
    (allOf ps).MentionsOnly keep ↔ ∀ p ∈ ps, p.MentionsOnly keep := by
  induction ps with
  | nil => simp [allOf, MentionsOnly]
  | cons p rest ih =>
    cases rest with
    | nil => simp [allOf]
    | cons q rest => simpa [allOf, MentionsOnly] using fun _ => ih

theorem mentionsOnly_anyOf {ps : List Predicate} :
    (anyOf ps).MentionsOnly keep ↔ ∀ p ∈ ps, p.MentionsOnly keep := by
  induction ps with
  | nil => simp [anyOf, MentionsOnly]
  | cons p rest ih =>
    cases rest with
    | nil => simp [anyOf]
    | cons q rest => simpa [anyOf, MentionsOnly] using fun _ => ih

theorem MentionsOnly.simplified {p : Predicate} (h : p.MentionsOnly keep) :
    p.simplified.MentionsOnly keep := by
  induction p with
  | both p q hp hq =>
    rw [Predicate.simplified]
    rcases bothOf_cases p.simplified q.simplified with ⟨-, hb⟩ | ⟨-, hb⟩ | ⟨-, hb⟩ | hb <;> rw [hb]
    · trivial
    · exact hq h.2
    · exact hp h.1
    · exact ⟨hp h.1, hq h.2⟩
  | either p q hp hq =>
    rw [Predicate.simplified]
    rcases eitherOf_cases p.simplified q.simplified with ⟨a, b, -, -, he⟩ | he <;> rw [he]
    · exact mentionsOnly_ofTruth _
    · exact ⟨hp h.1, hq h.2⟩
  | related hop criterion ih => exact ⟨h.1, h.2.1, ih h.2.2⟩
  | _ => exact h

/-- A condition says the same about a frame without the sources that it does not mention. -/
theorem truth_restrict (db : Database) {p : Predicate} (h : p.MentionsOnly keep) (f : Frame) :
    p.truth db (f.restrict keep) = p.truth db f := by
  induction p generalizing f with
  | always | never => rfl
  | isNull x | notNull x => simp only [truth, Frame.get_restrict h]
  | compare x comparison v =>
    cases comparison <;> simp only [truth, Frame.get_restrict h]
  | contains x cast fragment => simp only [truth, Operand.cell_restrict h]
  | both p q hp hq | either p q hp hq => simp only [truth, hp h.1, hq h.2]
  | related hop criterion ih =>
    obtain ⟨hsources, hequalities, hcriterion⟩ := h
    have hread : ∀ s ∈ hop.sources ++ hop.unread f.sources criterion, keep s = true := by
      intro s hs
      rcases List.mem_append.1 hs with hs | hs
      · exact hsources s hs
      · rcases List.mem_append.1 (mem_unreadOf.1 hs).1 with hs | hs
        · exact hequalities s hs
        · exact hcriterion.sources s hs
    simp only [truth, unread_restrict hequalities hcriterion.sources, extend_restrict db hread,
      List.any_map, Function.comp_def, equalitiesTruth_restrict hequalities, ih hcriterion]

end Predicate

end ResourceQuery
