import ResourceQuery.Query
import ResourceQuery.Proofs.Outcome

/-!
# Names of fields

The names in the fields and the group of a request, after its parameters were parsed: lists of
texts, which are read when none of them is empty.

* `readNames?_texts`: a list of texts as names;
* `Fields.read?_fieldsValue`, `Group.read?_textsValue`: fields of resource types, and of a group.
-/

namespace ResourceQuery

/-- Names are read when none of them is empty. -/
theorem readNames?_texts {source : String} {index : Nat} {names out : List String} :
    readNames? source index (names.map .text) = .ok out ↔ "" ∉ names ∧ out = names := by
  induction names generalizing index out with
  | nil => simp [readNames?, eq_comm]
  | cons name rest ih =>
    rw [List.map_cons, readNames?]
    split
    · next hname => simp [hname, failAt]
    · next hname =>
      simp only [map_eq_ok, ih, List.mem_cons, not_or]
      constructor
      · rintro ⟨_, ⟨hrest, rfl⟩, rfl⟩
        exact ⟨⟨fun h => hname h.symm, hrest⟩, rfl⟩
      · rintro ⟨⟨-, hrest⟩, rfl⟩
        exact ⟨rest, ⟨hrest, rfl⟩, rfl⟩

theorem SelectedField.ofName_injective : Function.Injective SelectedField.ofName :=
  fun _ _ h => congrArg SelectedField.name h

namespace Fields

/-- Lists of names as fields. -/
def ofNames (fields : List (String × List String)) : List (String × List SelectedField) :=
  fields.map fun entry => (entry.1, entry.2.map SelectedField.ofName)

/-- The fields of a type are those of its first entry. -/
theorem ofType_ofNames {type : String} {names : List String}
    {before after : List (String × List String)} (h : ∀ entry ∈ before, entry.1 ≠ type) :
    ofType (ofNames (before ++ (type, names) :: after)) type =
      names.map SelectedField.ofName := by
  induction before with
  | nil => simp [ofNames, ofType]
  | cons entry before ih =>
    rw [List.forall_mem_cons] at h
    have hentry : (entry.1 == type) = false := beq_eq_false_iff_ne.2 h.1
    rw [← ih h.2, ofType, ofType, ofNames, List.cons_append, List.map_cons,
      List.find?_cons_of_neg (by simp [hentry])]
    rfl

theorem readEntries?_texts {fields : List (String × List String)}
    {out : List (Value × List SelectedField)} :
    readEntries? (fields.map fun entry => (.text entry.1, Parameters.textsValue entry.2)) =
        .ok out ↔
      (∀ entry ∈ fields, "" ∉ entry.2) ∧
        out = fields.map fun entry => (.text entry.1, entry.2.map SelectedField.ofName) := by
  induction fields generalizing out with
  | nil => simp [readEntries?, eq_comm]
  | cons entry rest ih =>
    have hnames {out : List String} :
        readNameList? ("fields." ++ (Value.text entry.1).plain) (Parameters.textsValue entry.2) =
          .ok out ↔ "" ∉ entry.2 ∧ out = entry.2 := readNames?_texts
    simp only [List.map_cons, readEntries?, bind_eq_ok, hnames, ih, List.forall_mem_cons]
    constructor
    · rintro ⟨_, ⟨hentry, rfl⟩, _, ⟨hrest, rfl⟩, h⟩
      exact ⟨⟨hentry, hrest⟩, (Except.ok.inj h).symm⟩
    · rintro ⟨⟨hentry, hrest⟩, rfl⟩
      exact ⟨_, ⟨hentry, rfl⟩, _, ⟨hrest, rfl⟩, rfl⟩

theorem typed?_texts (fields : List (String × List SelectedField)) :
    typed? (fields.map fun entry => (.text entry.1, entry.2)) = .ok fields := by
  induction fields with
  | nil => rfl
  | cons entry rest ih =>
    rw [List.map_cons, typed?, ih]
    rfl

/-- The fields of some types are read when no name is empty. -/
theorem read?_fieldsValue (p : Parameters) {ps : List (String × List SelectedField)} :
    read? p.fieldsValue = .ok ps ↔ (∀ entry ∈ p.fields, "" ∉ entry.2) ∧ ps = ofNames p.fields := by
  have hvalue : p.fieldsValue = .map (p.fields.map fun entry =>
      (.text entry.1, Parameters.textsValue entry.2)) := by
    rw [Parameters.fieldsValue, Value.ofFields, List.map_map]
    rfl
  have htyped : typed? (p.fields.map fun entry => (.text entry.1, entry.2.map .ofName)) =
      .ok (ofNames p.fields) := by
    have h := typed?_texts (ofNames p.fields)
    rw [ofNames, List.map_map] at h
    exact h
  rw [hvalue, read?]
  split
  · next hempty =>
    have hnil : p.fields = [] := by simpa [Value.isEmpty] using hempty
    simp [hnil, ofNames, eq_comm]
  · simp only [bind_eq_ok, mapError_eq_ok, Checked.lift, readEntries?_texts]
    constructor
    · rintro ⟨_, ⟨hfields, rfl⟩, h⟩
      rw [htyped] at h
      exact ⟨hfields, (Except.ok.inj h).symm⟩
    · rintro ⟨hfields, rfl⟩
      exact ⟨_, ⟨hfields, rfl⟩, htyped⟩

/-- The fields of a type are among those that were read. -/
theorem exists_of_mem_ofType {fields : List (String × List String)} {type : String}
    {f : SelectedField} (h : f ∈ ofType (ofNames fields) type) :
    ∃ entry ∈ fields, f.name ∈ entry.2 := by
  cases hfind : (ofNames fields).find? (·.1 == type) with
  | none => simp [ofType, hfind] at h
  | some found =>
    obtain ⟨entry, hentry, rfl⟩ := List.mem_map.1 (List.mem_of_find?_eq_some hfind)
    rw [ofType, hfind] at h
    obtain ⟨name, hname, rfl⟩ := List.mem_map.1 h
    exact ⟨entry, hentry, hname⟩

end Fields

/-- The fields of a group are read when no name is empty. -/
theorem Group.read?_textsValue {names : List String} {fields : List SelectedField} :
    Group.read? (Parameters.textsValue names) = .ok fields ↔
      "" ∉ names ∧ fields = names.map .ofName := by
  have hnames {out : List String} :
      readNameList? "group" (Parameters.textsValue names) = .ok out ↔ "" ∉ names ∧ out = names :=
    readNames?_texts
  rw [Group.read?]
  split
  · next hempty =>
    have hnil : names = [] := by simpa [Parameters.textsValue, Value.isEmpty] using hempty
    simp [hnil, eq_comm]
  · simp only [map_eq_ok, hnames]
    constructor
    · rintro ⟨_, ⟨h, rfl⟩, rfl⟩
      exact ⟨h, rfl⟩
    · rintro ⟨h, rfl⟩
      exact ⟨names, ⟨h, rfl⟩, rfl⟩

end ResourceQuery
