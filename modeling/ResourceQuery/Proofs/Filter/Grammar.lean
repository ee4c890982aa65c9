import ResourceQuery.Proofs.Filter.Reading
import ResourceQuery.Proofs.Sort.Path

/-!
# The grammar of filters

Which mappings are filters, what the clauses of a filter are, and what is reported of a mapping that
is none.

* `FilterItem`, `FilterItem.ofEntry`: a field with its values below an operator, and the items of an
  entry;
* `FilterItem.WellFormed`, `Filter.EntryWellFormed`: the items and entries of the grammar;
* `FilterClause.Says`: the clause that an item is;
* `FilterItem.Fault`, `Filter.EntryFault`: what is wrong with the others, the first fault of each;
* `Filter.grammar`: a mapping is read when all its entries belong to the grammar, and otherwise the
  fault of the first one that does not is reported.

Every loop of the reader stops at the first element that is refused, so the fault of a mapping is
that of an element of a list with nothing but accepted elements before it: `FirstFault`.
-/

namespace ResourceQuery

open Text

/-! ## Operators -/

namespace FilterOperator

theorem name_injective : Function.Injective name := by
  intro a b h
  cases a <;> cases b <;> first | rfl | exact absurd h (by decide)

theorem ofName?_name (operator : FilterOperator) : ofName? operator.name = some operator := by
  cases operator <;> rfl

theorem ofName?_eq_some {text : String} {operator : FilterOperator} :
    ofName? text = some operator ↔ text = operator.name := by
  constructor
  · intro h
    have hname := List.find?_some (p := fun o : FilterOperator => o.name == text) h
    exact (beq_iff_eq.1 hname).symm
  · rintro rfl
    exact operator.ofName?_name

/-- The keys that stand for an operator are the names of all operators but equality. -/
theorem reserved?_eq_some {text : String} {operator : FilterOperator} :
    reserved? text = some operator ↔ operator ≠ eq ∧ text = operator.name := by
  simp [reserved?, Option.filter_eq_some_iff, ofName?_eq_some, and_comm]

theorem reserved?_eq_none {text : String} :
    reserved? text = none ↔ ∀ operator, operator ≠ eq → text ≠ operator.name := by
  simp [Option.eq_none_iff_forall_ne_some, reserved?_eq_some]

/-- The path of the mapping that holds the items of an operator. -/
def source : FilterOperator → String
  | eq => "filter"
  | operator => "filter." ++ operator.name

theorem source_of_ne {operator : FilterOperator} (h : operator ≠ eq) :
    operator.source = "filter." ++ operator.name := by
  cases operator <;> first | rfl | exact absurd rfl h

end FilterOperator

/-! ## Items -/

/-- A field and its values, below an operator. -/
structure FilterItem where
  operator : FilterOperator
  key : Value
  raw : Value

namespace FilterItem

/-- The values of an item, before null is told from texts. -/
def tokens (item : FilterItem) : List Value := ValueList.ofValue item.raw

/-- The path of the errors of an item with a key. -/
def location (item : FilterItem) (key : String) : String := item.operator.source ++ "." ++ key

/-- Whether the key of an item is a path, with this text. -/
def HasPath (item : FilterItem) (key : String) : Prop := item.key = .text key ∧ IsPath key

/-- An item of the grammar: a path with at least one scalar value, and with only one for a
comparison by order. -/
structure WellFormed (item : FilterItem) : Prop where
  path : ∃ key, item.HasPath key
  notMap : item.raw.isMap = false
  tokens_ne_nil : item.tokens ≠ []
  scalars : ∀ token ∈ item.tokens, FilterClause.isScalar token = true
  single : item.operator.isOrdering = true → item.tokens.length = 1

/-- What is wrong with an item. Every fault is looked for after the ones before it. -/
inductive Fault (item : FilterItem) : ParameterError → Prop
  | noName (hkey : ∀ key, item.key = .text key → key = "") :
      Fault item ⟨.noName item.key.shown, some item.operator.source⟩
  | emptySegment {key : String} (hkey : item.key = .text key) (hne : key ≠ "")
      (hsegment : "" ∈ splitAt '.' key) :
      Fault item ⟨.emptySegment key, some item.operator.source⟩
  | unknownOperator {key : String} (hpath : item.HasPath key) (hmap : item.raw.isMap = true) :
      Fault item ⟨.unknownOperator key, some (item.location key)⟩
  | notScalar {key : String} {token : Value} {before after : List Value} (hpath : item.HasPath key)
      (hmap : item.raw.isMap = false) (htokens : item.tokens = before ++ token :: after)
      (hbefore : ∀ v ∈ before, FilterClause.isScalar v = true)
      (htoken : FilterClause.isScalar token = false) :
      Fault item ⟨.notScalar token.kind, some (item.location key)⟩
  | noValues {key : String} (hpath : item.HasPath key) (hmap : item.raw.isMap = false)
      (htokens : item.tokens = []) : Fault item ⟨.noValues, some (item.location key)⟩
  | severalValues {key : String} (hpath : item.HasPath key) (hmap : item.raw.isMap = false)
      (hscalars : ∀ token ∈ item.tokens, FilterClause.isScalar token = true)
      (hordering : item.operator.isOrdering = true) (hlength : 1 < item.tokens.length) :
      Fault item ⟨.severalValues item.operator item.tokens.length, some (item.location key)⟩

end FilterItem

namespace FilterClause

/-- Whether a value is what a token stands for: null for the text `null`, and otherwise itself. -/
def Interprets (token v : Value) : Prop :=
  token = .text nullText ∧ v = .null ∨ token ≠ .text nullText ∧ v = token

/-- Whether a clause is what an item says: the operator, the path and the values of the item. The
path is that of the segments between the dots. -/
structure Says (item : FilterItem) (c : FilterClause) : Prop where
  operator : c.operator = item.operator
  path : item.key = .text c.path.dotted
  segments : ∀ segment ∈ c.path.relations ++ [c.path.field], segment ≠ "" ∧ IsPlain segment
  values : List.Forall₂ Interprets item.tokens c.values

theorem interprets_interpret (token : Value) : Interprets token (interpret token) := by
  cases token with
  | text s => by_cases hs : s = nullText <;> simp [Interprets, interpret, hs]
  | _ => exact .inr ⟨nofun, rfl⟩

theorem Interprets.ne_nullText {token v : Value} (h : Interprets token v) :
    v ≠ .text nullText := by
  rcases h with ⟨-, rfl⟩ | ⟨hne, rfl⟩
  · exact nofun
  · exact hne

namespace Says

variable {item : FilterItem} {c : FilterClause}

theorem ne_nullText (h : Says item c) : ∀ v ∈ c.values, v ≠ .text nullText := by
  have hvalues := h.values
  generalize item.tokens = tokens, c.values = values at hvalues
  induction hvalues with
  | nil => simp
  | cons hv _ ih => exact List.forall_mem_cons.2 ⟨hv.ne_nullText, ih⟩

end Says

/-! ## Reading an item -/

variable {source : String} {vs : List Value} {e : ParameterError}

theorem checkScalars_eq_ok :
    checkScalars source vs = .ok () ↔ ∀ v ∈ vs, isScalar v = true := by
  induction vs with
  | nil => simp [checkScalars]
  | cons v rest ih => cases hv : isScalar v <;> simp [checkScalars, hv, ih, failAt]

theorem checkScalars_eq_error :
    checkScalars source vs = .error e ↔
      FirstFault (fun v => isScalar v = true)
        (fun v e => isScalar v = false ∧ e = ⟨.notScalar v.kind, some source⟩) vs e := by
  induction vs with
  | nil => simp [checkScalars, not_firstFault_nil]
  | cons v rest ih =>
    rw [firstFault_cons, ← ih, checkScalars]
    cases isScalar v <;> simp [failAt, eq_comm]

/-- The values of an item, when there is nothing wrong with its tokens. -/
theorem readValues?_eq_ok_iff {operator : FilterOperator} {raw : Value} {values : List Value} :
    readValues? operator source raw = .ok values ↔
      (∀ token ∈ ValueList.ofValue raw, isScalar token = true) ∧ ValueList.ofValue raw ≠ [] ∧
        (operator.isOrdering = true → (ValueList.ofValue raw).length = 1) ∧
          values = (ValueList.ofValue raw).map interpret := by
  unfold readValues?
  generalize ValueList.ofValue raw = tokens
  simp only [bind_eq_ok]
  constructor
  · rintro ⟨_, hscalars, h⟩
    refine ⟨checkScalars_eq_ok.1 hscalars, ?_⟩
    split at h
    · cases h
    · next hempty =>
      have hne : tokens ≠ [] := by simpa using hempty
      split at h
      · cases h
      · next hseveral =>
        have hpos := List.length_pos_iff.2 hne
        refine ⟨hne, fun hordering => ?_, (Except.ok.inj h).symm⟩
        have hle : ¬1 < tokens.length := by simpa [hordering] using hseveral
        omega
  · rintro ⟨hscalars, hne, hsingle, rfl⟩
    refine ⟨(), checkScalars_eq_ok.2 hscalars, ?_⟩
    rw [if_neg (by simpa using hne), if_neg]
    simp only [Bool.and_eq_true, decide_eq_true_eq, not_and, Nat.not_lt]
    exact fun hordering => Nat.le_of_eq (hsingle hordering)

/-- What is wrong with the values of an item: a token that is no scalar, or their number. -/
theorem readValues?_eq_error {operator : FilterOperator} {raw : Value} :
    readValues? operator source raw = .error e ↔
      FirstFault (fun v => isScalar v = true)
          (fun v e => isScalar v = false ∧ e = ⟨.notScalar v.kind, some source⟩)
          (ValueList.ofValue raw) e ∨
        ValueList.ofValue raw = [] ∧ e = ⟨.noValues, some source⟩ ∨
        (∀ token ∈ ValueList.ofValue raw, isScalar token = true) ∧ operator.isOrdering = true ∧
          1 < (ValueList.ofValue raw).length ∧
            e = ⟨.severalValues operator (ValueList.ofValue raw).length, some source⟩ := by
  unfold readValues?
  generalize ValueList.ofValue raw = tokens
  simp only [bind_eq_error, checkScalars_eq_error]
  refine or_congr_right ?_
  constructor
  · rintro ⟨_, hscalars, h⟩
    split at h
    · next hempty => exact .inl ⟨by simpa using hempty, by simpa [failAt, eq_comm] using h⟩
    · split at h
      · next hseveral =>
        simp only [Bool.and_eq_true, decide_eq_true_eq] at hseveral
        exact .inr ⟨checkScalars_eq_ok.1 hscalars, hseveral.1, hseveral.2,
          by simpa [failAt, eq_comm] using h⟩
      · cases h
  · rintro (⟨rfl, rfl⟩ | ⟨hscalars, hordering, hlength, rfl⟩)
    · exact ⟨(), rfl, rfl⟩
    · refine ⟨(), checkScalars_eq_ok.2 hscalars, ?_⟩
      have hne : tokens.isEmpty = false := by
        cases tokens with
        | nil => simp at hlength
        | cons _ _ => rfl
      rw [if_neg (by simp [hne]), if_pos (by simp [hordering, hlength])]
      rfl

end FilterClause

namespace FilterItem

open FilterClause

variable {item : FilterItem} {c : FilterClause} {e : ParameterError}

/-- The clause of an item. -/
def read? (item : FilterItem) : Checked FilterClause :=
  FilterClause.read? item.operator item.operator.source item.key item.raw

/-- An item with a path is a clause with the values of the item, unless these are a mapping. -/
theorem read?_of_path {key : String} (h : item.HasPath key) :
    item.read? =
      if item.raw.isMap then failAt (some (item.location key)) (.unknownOperator key)
      else (readValues? item.operator (item.location key) item.raw).map
        fun values => ⟨item.operator, .ofSegments (splitAt '.' key), values⟩ := by
  obtain ⟨hkey, hpath⟩ := h
  have hread : FieldPath.readValue? item.key (some item.operator.source) =
      .ok (.ofSegments (splitAt '.' key)) :=
    FieldPath.readValue?_eq_ok.2 ⟨key, hkey, hpath, rfl⟩
  rw [read?, FilterClause.read?, hread, hkey]
  rfl

theorem read?_of_no_path
    (h : FieldPath.readValue? item.key (some item.operator.source) = .error e) :
    item.read? = .error e := by
  rw [read?, FilterClause.read?, h]
  rfl

theorem read?_eq_ok : item.read? = .ok c ↔ ∃ key, item.HasPath key ∧ item.raw.isMap = false ∧
    readValues? item.operator (item.location key) item.raw = .ok c.values ∧
      c.operator = item.operator ∧ c.path = .ofSegments (splitAt '.' key) := by
  constructor
  · intro h
    obtain ⟨key, hpath⟩ : ∃ key, item.HasPath key := by
      cases hread : FieldPath.readValue? item.key (some item.operator.source) with
      | ok path =>
        obtain ⟨key, hkey, hpath, -⟩ := FieldPath.readValue?_eq_ok.1 hread
        exact ⟨key, hkey, hpath⟩
      | error e =>
        rw [read?_of_no_path hread] at h
        cases h
    rw [read?_of_path hpath] at h
    split at h
    · cases h
    · next hmap =>
      obtain ⟨values, hvalues, rfl⟩ := map_eq_ok.1 h
      exact ⟨key, hpath, by simpa using hmap, hvalues, rfl, rfl⟩
  · rintro ⟨key, hpath, hmap, hvalues, hoperator, hc⟩
    rw [read?_of_path hpath, if_neg (by simp [hmap]), hvalues, ← hoperator, ← hc]
    rfl

/-- The items that are read are those of the grammar. -/
theorem exists_read?_iff : (∃ c, item.read? = .ok c) ↔ item.WellFormed := by
  simp only [read?_eq_ok]
  constructor
  · rintro ⟨c, key, hpath, hmap, hvalues, -⟩
    obtain ⟨hscalars, hne, hsingle, -⟩ := readValues?_eq_ok_iff.1 hvalues
    exact ⟨⟨key, hpath⟩, hmap, hne, hscalars, hsingle⟩
  · rintro ⟨⟨key, hpath⟩, hmap, hne, hscalars, hsingle⟩
    exact ⟨⟨item.operator, .ofSegments (splitAt '.' key), item.tokens.map interpret⟩, key, hpath,
      hmap, readValues?_eq_ok_iff.2 ⟨hscalars, hne, hsingle, rfl⟩, rfl, rfl⟩

/-- The clause of an item is what it says. -/
theorem says_of_read? (h : item.read? = .ok c) : FilterClause.Says item c := by
  obtain ⟨key, ⟨hkey, hpath⟩, -, hvalues, hoperator, hc⟩ := read?_eq_ok.1 h
  obtain ⟨-, -, -, hvalues⟩ := readValues?_eq_ok_iff.1 hvalues
  refine ⟨hoperator, by rw [hc, FieldPath.dotted_ofSegments, hkey], ?_, ?_⟩
  · rw [hc, FieldPath.segments_ofSegments (splitAt_ne_nil _ _)]
    exact fun segment hsegment => ⟨fun hempty => hpath.segments (hempty ▸ hsegment),
      plain_of_splitAt hsegment⟩
  · rw [hvalues]
    exact List.forall₂_map_right_iff.2
      (List.forall₂_same.2 fun token _ => interprets_interpret token)

/-- The error of an item is its first fault. -/
theorem read?_eq_error : item.read? = .error e ↔ item.Fault e := by
  constructor
  · intro h
    cases hread : FieldPath.readValue? item.key (some item.operator.source) with
    | error e' =>
      obtain rfl := Except.error.inj ((read?_of_no_path hread).symm.trans h)
      rcases FieldPath.readValue?_eq_error.1 hread with
        ⟨hkey, rfl⟩ | ⟨key, hkey, hne, hsegment, rfl⟩
      · exact .noName hkey
      · exact .emptySegment hkey hne hsegment
    | ok path =>
      obtain ⟨key, hkey, hpath, -⟩ := FieldPath.readValue?_eq_ok.1 hread
      rw [read?_of_path ⟨hkey, hpath⟩] at h
      split at h
      · next hmap =>
        cases h
        exact .unknownOperator ⟨hkey, hpath⟩ hmap
      · next hmap =>
        rw [Bool.not_eq_true] at hmap
        rcases readValues?_eq_error.1 (map_eq_error.1 h) with
          ⟨before, token, after, htokens, hbefore, htoken, rfl⟩ | ⟨htokens, rfl⟩ |
          ⟨hscalars, hordering, hlength, rfl⟩
        · exact .notScalar ⟨hkey, hpath⟩ hmap htokens hbefore htoken
        · exact .noValues ⟨hkey, hpath⟩ hmap htokens
        · exact .severalValues ⟨hkey, hpath⟩ hmap hscalars hordering hlength
  · have values {key : String} (hpath : item.HasPath key) (hmap : item.raw.isMap = false)
        (h : readValues? item.operator (item.location key) item.raw = .error e) :
        item.read? = .error e := by
      rw [read?_of_path hpath, if_neg (by simp [hmap]), h]
      rfl
    intro h
    cases h with
    | noName hkey =>
      exact read?_of_no_path (FieldPath.readValue?_eq_error.2 (.inl ⟨hkey, rfl⟩))
    | emptySegment hkey hne hsegment =>
      exact read?_of_no_path
        (FieldPath.readValue?_eq_error.2 (.inr ⟨_, hkey, hne, hsegment, rfl⟩))
    | unknownOperator hpath hmap =>
      rw [read?_of_path hpath, if_pos hmap]
      rfl
    | notScalar hpath hmap htokens hbefore htoken =>
      exact values hpath hmap
        (readValues?_eq_error.2 (.inl ⟨_, _, _, htokens, hbefore, htoken, rfl⟩))
    | noValues hpath hmap htokens =>
      exact values hpath hmap (readValues?_eq_error.2 (.inr (.inl ⟨htokens, rfl⟩)))
    | severalValues hpath hmap hscalars hordering hlength =>
      exact values hpath hmap
        (readValues?_eq_error.2 (.inr (.inr ⟨hscalars, hordering, hlength, rfl⟩)))

end FilterItem

/-! ## Entries -/

/-- The items of an entry: those below its operator, or itself as an equality. -/
def FilterItem.ofEntry : Value × Value → List FilterItem
  | (.text name, .map items) =>
    match FilterOperator.reserved? name with
    | some operator => items.map fun item => ⟨operator, item.1, item.2⟩
    | none => [⟨.eq, .text name, .map items⟩]
  | (key, raw) => [⟨.eq, key, raw⟩]

namespace Filter

/-- Whether a key stands for no operator, and so for a field. -/
def IsField (key : Value) : Prop :=
  ∀ operator ≠ .eq, key ≠ .text (FilterOperator.name operator)

/-- An entry of the grammar: an operator has a mapping of items of the grammar, and any other entry
is an item of the grammar for equality. -/
structure EntryWellFormed (entry : Value × Value) : Prop where
  items : ∀ operator ≠ .eq, entry.1 = .text (FilterOperator.name operator) →
    ∃ items, entry.2 = .map items ∧
      ∀ item ∈ items, FilterItem.WellFormed ⟨operator, item.1, item.2⟩
  equality : IsField entry.1 → FilterItem.WellFormed ⟨.eq, entry.1, entry.2⟩

/-- What is wrong with an entry: an operator has no mapping, or the fault of the first item that is
not of the grammar. -/
inductive EntryFault (entry : Value × Value) : ParameterError → Prop
  | notMap {operator : FilterOperator} (hoperator : operator ≠ .eq)
      (hkey : entry.1 = .text operator.name) (hmap : entry.2.isMap = false) :
      EntryFault entry
        ⟨.operatorWithoutFields operator.name entry.2.kind, some operator.source⟩
  | items {operator : FilterOperator} {items : List (Value × Value)} {e : ParameterError}
      (hoperator : operator ≠ .eq) (hkey : entry.1 = .text operator.name)
      (hmap : entry.2 = .map items)
      (hitem : FirstFault (fun item => FilterItem.WellFormed ⟨operator, item.1, item.2⟩)
        (fun item => FilterItem.Fault ⟨operator, item.1, item.2⟩) items e) : EntryFault entry e
  | equality {e : ParameterError} (hkey : IsField entry.1)
      (hitem : FilterItem.Fault ⟨.eq, entry.1, entry.2⟩ e) : EntryFault entry e

/-! ## Reading an entry -/

variable {operator : FilterOperator} {key raw : Value} {items : List (Value × Value)}
  {clauses : List FilterClause} {e : ParameterError}

theorem readItems?_eq (operator : FilterOperator) (items : List (Value × Value)) :
    readItems? operator operator.source items =
      items.mapM fun item => FilterItem.read? ⟨operator, item.1, item.2⟩ := by
  induction items with
  | nil => rfl
  | cons item rest ih =>
    rw [readItems?, List.mapM_cons, ih]
    rfl

theorem readEntry?_items (hoperator : operator ≠ .eq) :
    readEntry? (.text operator.name) (.map items) =
      items.mapM fun item => FilterItem.read? ⟨operator, item.1, item.2⟩ := by
  rw [Filter.readEntry?, FilterOperator.reserved?_eq_some.2 ⟨hoperator, rfl⟩, ← readItems?_eq,
    FilterOperator.source_of_ne hoperator]

theorem readEntry?_notMap (hoperator : operator ≠ .eq) (hmap : raw.isMap = false) :
    readEntry? (.text operator.name) raw =
      .error ⟨.operatorWithoutFields operator.name raw.kind, some operator.source⟩ := by
  rw [Filter.readEntry?, FilterOperator.reserved?_eq_some.2 ⟨hoperator, rfl⟩,
    FilterOperator.source_of_ne hoperator]
  cases raw with
  | map _ => cases hmap
  | _ => rfl

theorem readEntry?_equality (hkey : IsField key) :
    readEntry? key raw = (FilterItem.read? ⟨.eq, key, raw⟩).map fun c => [c] := by
  cases key with
  | text name =>
    have hname : FilterOperator.reserved? name = none :=
      FilterOperator.reserved?_eq_none.2 fun operator hoperator h =>
        hkey operator hoperator (h ▸ rfl)
    rw [Filter.readEntry?, hname]
    rfl
  | _ => rfl

/-- An entry is below an operator, with a mapping or without one, or it is an equality. -/
theorem entry_cases (key raw : Value) :
    (∃ operator items, operator ≠ FilterOperator.eq ∧ key = .text operator.name ∧
      raw = .map items) ∨
    (∃ operator, operator ≠ FilterOperator.eq ∧ key = .text operator.name ∧ raw.isMap = false) ∨
    IsField key := by
  by_cases hkey : IsField key
  · exact .inr (.inr hkey)
  · unfold IsField at hkey
    push Not at hkey
    obtain ⟨operator, hoperator, rfl⟩ := hkey
    cases raw with
    | map items => exact .inl ⟨operator, items, hoperator, rfl, rfl⟩
    | _ => exact .inr (.inl ⟨operator, hoperator, rfl, rfl⟩)

theorem eq_of_text_name {operator operator' : FilterOperator}
    (h : Value.text operator.name = .text operator'.name) : operator = operator' :=
  FilterOperator.name_injective (Value.text.inj h)

/-- The entries that are read are those of the grammar. -/
theorem exists_readEntry?_iff :
    (∃ clauses, readEntry? key raw = .ok clauses) ↔ EntryWellFormed (key, raw) := by
  obtain ⟨operator, items, hoperator, rfl, rfl⟩ | ⟨operator, hoperator, rfl, hmap⟩ | hkey :=
    entry_cases key raw
  · rw [readEntry?_items hoperator, exists_mapM_eq_ok]
    simp only [FilterItem.exists_read?_iff]
    constructor
    · intro h
      refine ⟨fun operator' _ hkey => ⟨items, rfl, ?_⟩, fun hkey => absurd rfl (hkey _ hoperator)⟩
      rwa [← eq_of_text_name hkey]
    · intro h
      obtain ⟨items', hitems, h⟩ := h.items operator hoperator rfl
      rwa [Value.map.inj hitems]
  · rw [readEntry?_notMap hoperator hmap]
    refine ⟨nofun, fun h => ?_⟩
    obtain ⟨items, rfl, -⟩ := h.items operator hoperator rfl
    cases hmap
  · rw [readEntry?_equality hkey]
    simp only [map_eq_ok]
    constructor
    · rintro ⟨_, c, hc, -⟩
      exact ⟨fun operator hoperator h => absurd h (hkey operator hoperator),
        fun _ => FilterItem.exists_read?_iff.1 ⟨c, hc⟩⟩
    · intro h
      obtain ⟨c, hc⟩ := FilterItem.exists_read?_iff.2 (h.equality hkey)
      exact ⟨_, c, hc, rfl⟩

theorem ofEntry_items (hoperator : operator ≠ .eq) :
    FilterItem.ofEntry (.text operator.name, .map items) =
      items.map fun item => ⟨operator, item.1, item.2⟩ := by
  rw [FilterItem.ofEntry, FilterOperator.reserved?_eq_some.2 ⟨hoperator, rfl⟩]

theorem ofEntry_equality (hkey : IsField key) :
    FilterItem.ofEntry (key, raw) = [⟨.eq, key, raw⟩] := by
  unfold FilterItem.ofEntry
  split
  · next name items h =>
    obtain ⟨rfl, rfl⟩ := Prod.mk.inj h
    rw [FilterOperator.reserved?_eq_none.2 fun operator hoperator h =>
      hkey operator hoperator (h ▸ rfl)]
  · next h =>
    obtain ⟨rfl, rfl⟩ := Prod.mk.inj h
    rfl

/-- The clauses of an entry are what its items say. -/
theorem says_of_readEntry (h : readEntry? key raw = .ok clauses) :
    List.Forall₂ FilterClause.Says (FilterItem.ofEntry (key, raw)) clauses := by
  obtain ⟨operator, items, hoperator, rfl, rfl⟩ | ⟨operator, hoperator, rfl, hmap⟩ | hkey :=
    entry_cases key raw
  · rw [readEntry?_items hoperator, mapM_eq_ok] at h
    rw [ofEntry_items hoperator, List.forall₂_map_left_iff]
    exact h.imp fun item c hc => FilterItem.says_of_read? hc
  · rw [readEntry?_notMap hoperator hmap] at h
    cases h
  · rw [readEntry?_equality hkey] at h
    obtain ⟨c, hc, rfl⟩ := map_eq_ok.1 h
    rw [ofEntry_equality hkey]
    exact .cons (FilterItem.says_of_read? hc) .nil

/-- The error of an entry is its first fault. -/
theorem readEntry?_eq_error : readEntry? key raw = .error e ↔ EntryFault (key, raw) e := by
  obtain ⟨operator, items, hoperator, rfl, rfl⟩ | ⟨operator, hoperator, rfl, hmap⟩ | hkey :=
    entry_cases key raw
  · rw [readEntry?_items hoperator, mapM_eq_error,
      FirstFault.congr (fun _ => FilterItem.exists_read?_iff) fun _ => FilterItem.read?_eq_error]
    constructor
    · exact .items hoperator rfl rfl
    · intro h
      cases h with
      | notMap _ _ hmap => cases hmap
      | items _ hkey hmap hitem =>
        rw [eq_of_text_name hkey, Value.map.inj hmap]
        exact hitem
      | equality hkey _ => exact absurd rfl (hkey _ hoperator)
  · rw [readEntry?_notMap hoperator hmap]
    constructor
    · rintro ⟨⟩
      exact .notMap hoperator rfl hmap
    · intro h
      cases h with
      | notMap _ hkey _ => rw [eq_of_text_name hkey]
      | items _ _ hmap' _ =>
        obtain rfl := hmap'
        cases hmap
      | equality hkey _ => exact absurd rfl (hkey _ hoperator)
  · rw [readEntry?_equality hkey, map_eq_error, FilterItem.read?_eq_error]
    refine ⟨fun h => .equality hkey h, fun h => ?_⟩
    · cases h with
      | notMap hoperator hkey' _ => exact absurd hkey' (hkey _ hoperator)
      | items hoperator hkey' _ _ => exact absurd hkey' (hkey _ hoperator)
      | equality _ hitem => exact hitem

/-! ## Reading a filter -/

variable {entries : List (Value × Value)}

theorem readEntries?_eq (entries : List (Value × Value)) :
    readEntries? entries =
      (entries.mapM fun entry => readEntry? entry.1 entry.2).map List.flatten := by
  induction entries with
  | nil => rfl
  | cons entry rest ih =>
    rw [readEntries?, List.mapM_cons, ih]
    cases readEntry? entry.1 entry.2 with
    | error e => rfl
    | ok first => cases rest.mapM fun entry => readEntry? entry.1 entry.2 <;> rfl

theorem read?_map (entries : List (Value × Value)) :
    read? (.map entries) =
      (entries.mapM fun entry => readEntry? entry.1 entry.2).map List.flatten := by
  rw [← readEntries?_eq]
  cases entries with
  | nil => rfl
  | cons _ _ => rfl

theorem says_of_read? (h : read? (.map entries) = .ok clauses) :
    List.Forall₂ FilterClause.Says (entries.flatMap FilterItem.ofEntry) clauses := by
  rw [read?_map] at h
  obtain ⟨parts, hparts, rfl⟩ := map_eq_ok.1 h
  clear h
  rw [mapM_eq_ok] at hparts
  induction hparts with
  | nil => exact .nil
  | cons hfirst _ ih => exact List.rel_append (says_of_readEntry hfirst) ih

theorem ne_nullText_of_says {items : List FilterItem}
    (h : List.Forall₂ FilterClause.Says items clauses) :
    ∀ c ∈ clauses, ∀ v ∈ c.values, v ≠ .text FilterClause.nullText := by
  induction h with
  | nil => simp
  | cons hc _ ih => exact List.forall_mem_cons.2 ⟨hc.ne_nullText, ih⟩

/-- **The grammar of filters.** A mapping is read as a filter exactly when all its entries belong to
the grammar. Its clauses are then what the items of the entries say, in their order; no clause is
empty, and none has the text `null` for a value. Otherwise the error is the fault of the first entry
that does not belong to the grammar, and within that entry of the first item. -/
theorem grammar (entries : List (Value × Value)) :
    ((∃ clauses, read? (.map entries) = .ok clauses) ↔
      ∀ entry ∈ entries, EntryWellFormed entry) ∧
    (∀ clauses, read? (.map entries) = .ok clauses →
      List.Forall₂ FilterClause.Says (entries.flatMap FilterItem.ofEntry) clauses ∧
        ∀ c ∈ clauses, c.values ≠ [] ∧ ∀ v ∈ c.values, v ≠ .text FilterClause.nullText) ∧
    ∀ e, read? (.map entries) = .error e ↔ FirstFault EntryWellFormed EntryFault entries e := by
  refine ⟨?_, fun clauses h => ?_, fun e => ?_⟩
  · simp only [read?_map, map_eq_ok]
    rw [exists_comm]
    simp only [exists_and_left, exists_eq', and_true, exists_mapM_eq_ok, exists_readEntry?_iff]
  · have hmeant := says_of_read? h
    exact ⟨hmeant, fun c hc => ⟨values_ne_nil_of_read? h c hc, ne_nullText_of_says hmeant c hc⟩⟩
  · rw [read?_map, map_eq_error, mapM_eq_error]
    exact FirstFault.congr (fun _ => exists_readEntry?_iff) fun _ => readEntry?_eq_error

end Filter

namespace Sample

/-- A filter of posts with a title or none, in no category that is named, and with enough views. -/
def filterOfPosts : List (Value × Value) := [
  (.text "post_title", .text "on sale,null"),
  (.text "not", .map [(.text "category.name", .text "null"), (.text "is_draft", .bool true)]),
  (.text "gte", .map [(.text "view_count", .int 10)])]

/-- A filter with a bound that has two values, and with a field that has no name. -/
def filterOfTwoBounds : List (Value × Value) := [
  (.text "name", .text "physics"),
  (.text "lt", .map [(.text "rank", .text "1,2")]),
  (.text "", .int 3)]

theorem grammar_filterOfPosts :
    (∀ entry ∈ filterOfPosts, Filter.EntryWellFormed entry) ∧
      (∃ clauses, Filter.read? (.map filterOfPosts) = .ok clauses ∧
        List.Forall₂ FilterClause.Says (filterOfPosts.flatMap FilterItem.ofEntry) clauses ∧
        (clauses.map (·.values))[0]? = some [.text "on sale", .null]) ∧
      FirstFault Filter.EntryWellFormed Filter.EntryFault filterOfTwoBounds
        ⟨.severalValues .lt 2, some "filter.lt.rank"⟩ := by
  have hread : ∃ clauses, Filter.read? (.map filterOfPosts) = .ok clauses ∧
      (clauses.map (·.values))[0]? = some [.text "on sale", .null] := ⟨_, rfl, rfl⟩
  obtain ⟨clauses, hclauses, hvalues⟩ := hread
  obtain ⟨hiff, hmeant, -⟩ := Filter.grammar filterOfPosts
  obtain ⟨-, -, hfault⟩ := Filter.grammar filterOfTwoBounds
  exact ⟨hiff.1 ⟨clauses, hclauses⟩, ⟨clauses, hclauses, (hmeant clauses hclauses).1, hvalues⟩,
    (hfault _).1 rfl⟩

end Sample

end ResourceQuery
