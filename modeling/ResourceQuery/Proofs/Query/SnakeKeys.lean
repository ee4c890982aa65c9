import ResourceQuery.Proofs.Naming.Requested
import ResourceQuery.Proofs.Naming.Stored
import ResourceQuery.Proofs.Parameters.Names
import ResourceQuery.Proofs.Query.Names
import ResourceQuery.Proofs.Query.Pages
import ResourceQuery.Proofs.Query.RowKeys

/-!
# Keys with capitals

Where requests have names with capitals and the store has names with underscores, the records of an
answer have the stored names as keys, with capitals again. A key is a name that a request can use
for the same attribute when all its underscores come back, and it is the name that was asked for
when all capitals of this begin words.

* `numberedLabels`: a label appears among them as it is or with a number after it;
* `Query.domainKey_snake`: every key is renamed, functions included;
* `Query.exists_domainRow`: the keys of the records of a request for rows of values;
* `Entity.SameAttribute`: whether two names are of one attribute;
* `stored_names_return`, `requested_names_return`: the names that come back.
-/

namespace ResourceQuery

open Text

/-! ## Numbered labels -/

section Labels

variable {name label : String} {seen labels : List String}

theorem length_numberedLabels (seen labels : List String) :
    (numberedLabels seen labels).length = labels.length := by
  induction labels generalizing seen with
  | nil => rfl
  | cons label rest ih => rw [numberedLabels, List.length_cons, ih, List.length_cons]

/-- A label gets no number where it appears first. -/
theorem mem_numberedLabels (h : label ∈ labels) (hseen : label ∉ seen) :
    label ∈ numberedLabels seen labels := by
  induction labels generalizing seen with
  | nil => cases h
  | cons first rest ih =>
    rw [numberedLabels, List.mem_cons]
    by_cases hfirst : label = first
    · subst hfirst
      exact .inl (if_pos (List.count_eq_zero.2 hseen)).symm
    · exact .inr (ih ((List.mem_cons.1 h).resolve_left hfirst) (by simp [hfirst, hseen]))

theorem exists_of_mem_numberedLabels (h : name ∈ numberedLabels seen labels) :
    ∃ label ∈ labels, name = label ∨ ∃ count : ℕ, name = label ++ "_" ++ toString count := by
  induction labels generalizing seen with
  | nil => cases h
  | cons first rest ih =>
    rw [numberedLabels, List.mem_cons] at h
    rcases h with rfl | h
    · refine ⟨first, List.mem_cons_self .., ?_⟩
      split
      · exact .inl rfl
      · exact .inr ⟨_, rfl⟩
    · obtain ⟨label, hlabel, hname⟩ := ih h
      exact ⟨label, List.mem_cons_of_mem _ hlabel, hname⟩

end Labels

/-! ## Keys of records -/

/-- The keys of a record are those of the row, renamed. -/
theorem CompiledQuery.mem_keys_domainRow {c : CompiledQuery} {naming : Naming} {key : String}
    {entries : List (String × Value)} :
    key ∈ (c.domainRow naming entries).map (·.1) ↔
      ∃ label ∈ entries.map (·.1), c.domainKey naming label = key := by
  rw [domainRow, Input.mem_keys_ofEntries, List.map_map]
  simp

theorem AggregateFunction.camelCase_name (f : AggregateFunction) : camelCase f.name = f.name := by
  cases f <;> decide

theorem AggregateFunction.snakeCase_name (f : AggregateFunction) : snakeCase f.name = f.name := by
  cases f <;> decide

theorem isNameChar_of_all {name : String} (h : name.toList.all (IsNameChar ·)) :
    ∀ d ∈ name.toList, IsNameChar d := by
  simpa using h

theorem AggregateFunction.isNameChar_name (f : AggregateFunction) :
    ∀ d ∈ f.name.toList, IsNameChar d :=
  isNameChar_of_all (by cases f <;> decide)

namespace Query

variable {q : Query} {db : Database} {request : Request} {parameters : Parameters}
  {r : ReadRequest} {c : CompiledQuery} {a : Answer} {record : AnswerRecord} {name label : String}

/-- Only names of functions are exempt from renaming. -/
theorem exists_function_of_mem (hc : q.compile? request = .ok c) (h : label ∈ c.aggregateLabels) :
    ∃ f : AggregateFunction, label = f.name := by
  obtain ⟨_, r, s, loads, isRestricted, -, -, -, rfl⟩ := compile?_eq_ok.1 hc
  have hlabels : label ∈ FieldCompiler.aggregateLabels (q.fieldsOf request r) r.group := by
    unfold compiled at h
    dsimp only at h
    split at h
    · exact h
    · cases h
  obtain ⟨f, -, haggregate, rfl⟩ := mem_aggregateLabels.1 hlabels
  obtain ⟨⟨function, argument⟩, hf⟩ := Option.isSome_iff_exists.1 haggregate
  exact ⟨function, by rw [SelectedField.label, hf]⟩

/-- So every key is renamed, as far as names with capitals are concerned. -/
theorem domainKey_snake (hc : q.compile? request = .ok c) (hnaming : q.naming = .snake) :
    c.domainKey q.naming label = camelCase label := by
  rw [CompiledQuery.domainKey, hnaming]
  split
  · next h =>
    obtain ⟨f, rfl⟩ := exists_function_of_mem hc h
    exact f.camelCase_name.symm
  · rfl

/-- A record of a request for rows of values has the labels of the fields, numbered and renamed. -/
theorem exists_domainRow (hparse : Parameters.parse request.params = .ok parameters)
    (hread : parameters.readRequest? = .ok r)
    (hmode : isRowMode (q.fieldsOf request r) r.group = true)
    (h : q.fetch? db request none none = .ok a) (hrecord : record ∈ a.outcome.records) :
    ∃ c entries, q.compile? request = .ok c ∧ record = .values (c.domainRow q.naming entries) ∧
      entries.map (·.1) = numberedLabels []
        ((shownFields (q.fieldsOf request r) r.group).map q.fields.rowLabel) := by
  obtain ⟨c, pagination, rows, session, records, hc, -, hrows, hrecords, rfl⟩ := fetch?_eq_ok.1 h
  obtain ⟨s, loads, isRestricted, hstatement, hcompiled⟩ := exists_statement? hparse hread hc
  obtain ⟨limit, offset, hpaged⟩ := statement_compiled q request r s loads isRestricted
  obtain ⟨terms, hselection, hterms⟩ := rowTerms_statement? hmode hstatement
  have hselection' : c.statement.selection = .rows terms := by
    rw [hcompiled, hpaged]
    exact hselection
  have hlabels : terms.map (·.label) =
      (shownFields (q.fieldsOf request r) r.group).map q.fields.rowLabel :=
    map_eq_of_mapM_eq_ok hterms fun _ _ _ ht => FieldCompiler.label_selectedTerm? ht
  obtain ⟨-, hrun⟩ := Statement.store_rows_eq_ok.1 hrows
  obtain ⟨-, rfl⟩ := Statement.run_eq_ok.1 hrun
  obtain ⟨-, rfl⟩ := (CompiledQuery.materialize_rows hselection').1 hrecords
  have hmem : record ∈ (c.statement.rows db).map (c.valuesRecord q.naming) := by
    revert hrecord
    split
    · exact fun hrecord => List.mem_of_mem_head? (Option.mem_toList.1 hrecord)
    · exact id
  obtain ⟨row, hrow, rfl⟩ := List.mem_map.1 hmem
  obtain ⟨g, -, rfl⟩ := List.mem_map.1 hrow
  rw [Statement.answerRow, hselection']
  refine ⟨c, _, hc, rfl, ?_⟩
  rw [List.map_fst_zip (by rw [length_numberedLabels, List.length_map, List.length_map]), hlabels]

/-- No field of a request has an empty name. -/
theorem name_ne_empty (hread : parameters.readRequest? = .ok r) {f : SelectedField}
    (hf : f ∈ shownFields (q.fieldsOf request r) r.group) : f.name ≠ "" := by
  simp only [Parameters.readRequest?, bind_eq_ok, Fields.read?_fieldsValue, Checked.lift,
    mapError_eq_ok, Group.read?_textsValue] at hread
  obtain ⟨_, -, _, -, _, ⟨hfields, rfl⟩, _, ⟨hgroup, rfl⟩, _, -, h⟩ := hread
  cases h
  rw [shownFields] at hf
  split at hf
  · obtain ⟨name, hname, rfl⟩ := List.mem_map.1 hf
    exact fun h : name = "" => hgroup (h ▸ hname)
  · obtain ⟨entry, hentry, hname⟩ := Fields.exists_of_mem_ofType hf
    exact fun h => hfields entry hentry (h ▸ hname)

/-- The label of a field is what some name is stored as. -/
theorem exists_name_of_rowLabel (hnaming : q.naming = .snake)
    (hread : parameters.readRequest? = .ok r) {f : SelectedField}
    (hf : f ∈ shownFields (q.fieldsOf request r) r.group)
    (hchars : f.isAggregate = false → ∀ d ∈ f.name.toList, IsNameChar d) :
    ∃ name, name ≠ "" ∧ (∀ d ∈ name.toList, IsNameChar d) ∧
      q.fields.rowLabel f = snakeCase name := by
  rw [FieldCompiler.rowLabel]
  cases haggregate : f.isAggregate with
  | false =>
    have hstored : q.fields.naming.toStorage f.name = snakeCase f.name := by
      show q.naming.toStorage f.name = _
      rw [hnaming]
      rfl
    exact ⟨f.name, name_ne_empty hread hf, hchars haggregate, hstored⟩
  | true =>
    obtain ⟨⟨function, argument⟩, hfunction⟩ := Option.isSome_iff_exists.1 haggregate
    refine ⟨function.name, ?_, ?_, ?_⟩
    · cases function <;> decide
    · exact function.isNameChar_name
    · rw [if_pos rfl, SelectedField.label, hfunction]
      exact function.snakeCase_name.symm

/-- A key that comes from the label of a field, numbered or not, is a name that comes back. -/
theorem capitalsBegin_of_mem_numberedLabels {labels : List String}
    (hlabels : ∀ label ∈ labels, ∃ name, name ≠ "" ∧ (∀ d ∈ name.toList, IsNameChar d) ∧
      label = snakeCase name) (hlabel : label ∈ numberedLabels [] labels) :
    CapitalsBegin [] (camelCase label).toList := by
  obtain ⟨label, hmem, rfl | ⟨count, rfl⟩⟩ := exists_of_mem_numberedLabels hlabel
  · obtain ⟨name, -, hname, rfl⟩ := hlabels _ hmem
    exact capitalsBegin_camelCase hname
  · obtain ⟨name, hne, hname, rfl⟩ := hlabels _ hmem
    have hdigits : ∀ d ∈ Nat.toDigits 10 count, isDigitLetter d := fun d hd => by
      rw [isDigitLetter_eq]
      exact Nat.isDigit_of_mem_toDigits (by decide) (by decide) hd
    rw [Nat.toString_eq_ofList_toDigits, camelCase_numbered hne hname Nat.toDigits_ne_nil hdigits]
    refine capitalsBegin_camelCase fun d hd => ?_
    rw [String.toList_append, String.toList_ofList, List.mem_append] at hd
    exact hd.elim (hname d) fun hd => .inr (.inr (hdigits d hd))

/-- The records of a request have the key of a name that it asks for. Where all names that it asks
for are of letters and digits, they have the name itself when it comes back, and only then. -/
theorem name_mem_keys_iff (hnaming : q.naming = .snake)
    (hparse : Parameters.parse request.params = .ok parameters)
    (hread : parameters.readRequest? = .ok r)
    (hmode : isRowMode (q.fieldsOf request r) r.group = true)
    (hname : ∀ d ∈ name.toList, IsNameChar d)
    (hshown : ⟨name, none⟩ ∈ shownFields (q.fieldsOf request r) r.group)
    (h : q.fetch? db request none none = .ok a) (hrecord : record ∈ a.outcome.records) :
    ∃ entries, record = .values entries ∧ camelCase (snakeCase name) ∈ entries.map (·.1) ∧
      ((∀ f ∈ shownFields (q.fieldsOf request r) r.group, f.isAggregate = false →
          ∀ d ∈ f.name.toList, IsNameChar d) →
        (name ∈ entries.map (·.1) ↔ CapitalsBegin [] name.toList)) := by
  obtain ⟨c, entries, hc, rfl, hlabels⟩ := exists_domainRow hparse hread hmode h hrecord
  have hkey : camelCase (snakeCase name) ∈ (c.domainRow q.naming entries).map (·.1) := by
    refine CompiledQuery.mem_keys_domainRow.2 ⟨snakeCase name, ?_, domainKey_snake hc hnaming⟩
    have hlabel : q.fields.rowLabel ⟨name, none⟩ = snakeCase name := congrFun
      (congrArg Naming.toStorage hnaming) name
    rw [hlabels]
    exact mem_numberedLabels (List.mem_map.2 ⟨_, hshown, hlabel⟩) List.not_mem_nil
  refine ⟨_, rfl, hkey, fun hchars => ⟨fun hmem => ?_, fun hbegin => ?_⟩⟩
  · obtain ⟨label, hlabel, hrenamed⟩ := CompiledQuery.mem_keys_domainRow.1 hmem
    rw [domainKey_snake hc hnaming] at hrenamed
    rw [← hrenamed]
    refine capitalsBegin_of_mem_numberedLabels (fun label hlabel => ?_) (hlabels ▸ hlabel)
    obtain ⟨f, hf, rfl⟩ := List.mem_map.1 hlabel
    exact exists_name_of_rowLabel hnaming hread hf (hchars f hf)
  · rwa [(camelCase_snakeCase_iff hname).2 hbegin] at hkey

end Query

/-! ## Stored names -/

namespace Entity

variable {e : Entity} {a b : String}

/-- Whether two names are of one field or relation of an entity. -/
def SameAttribute (e : Entity) (a b : String) : Prop :=
  e.column? a = e.column? b ∧ e.relationship? a = e.relationship? b

theorem field_of_column? {column : Column} (h : e.column? a = some column) : column.field = a := by
  rw [column?] at h
  exact beq_iff_eq.1 (List.find?_some h :)

theorem name_of_relationship? {r : Relationship} (h : e.relationship? a = some r) : r.name = a := by
  rw [relationship?] at h
  exact beq_iff_eq.1 (List.find?_some h :)

theorem sameAttribute_iff (h : e.HasAttribute b) : e.SameAttribute a b ↔ a = b := by
  constructor
  · rintro ⟨hcolumn, hrelationship⟩
    rcases h with h | h
    · obtain ⟨column, hb⟩ := Option.isSome_iff_exists.1 h
      exact (field_of_column? (hcolumn.trans hb)).symm.trans (field_of_column? hb)
    · obtain ⟨r, hb⟩ := Option.isSome_iff_exists.1 h
      exact (name_of_relationship? (hrelationship.trans hb)).symm.trans (name_of_relationship? hb)
  · rintro rfl
    exact ⟨rfl, rfl⟩

end Entity

/-- **Stored names that come back.** A stored name is the same again when its underscores come back:
every word but the first begins with a letter, and unless it is the second one, the word before it
has two characters or a letter comes next. These are the attributes of an entity whose keys in the
records of a request are names of them. -/
theorem stored_names_return {words : List (List Char)} (hne : words ≠ [])
    (hwords : ∀ word ∈ words, IsWord word) (lead trail : ℕ) :
    (snakeCase (camelCase (storedName lead words trail)) = storedName lead words trail ↔
      GapsReturn words) ∧
    ∀ (q : Query) (request : Request) (c : CompiledQuery), q.naming = .snake →
      q.compile? request = .ok c → q.entity.HasAttribute (storedName lead words trail) →
        (q.entity.SameAttribute
          (q.naming.toStorage (c.domainKey q.naming (storedName lead words trail)))
          (storedName lead words trail) ↔ GapsReturn words) := by
  have hreturns := @snakeCase_camelCase_iff words lead trail hne hwords
  refine ⟨hreturns, fun q request c hnaming hc hattribute => ?_⟩
  rw [Entity.sameAttribute_iff hattribute, Query.domainKey_snake hc hnaming, hnaming]
  exact hreturns

namespace Sample

/-- The words of the name of a column. -/
def ownerWords : List (List Char) := ["pet".toList, "owner".toList, "id".toList]

theorem gapsReturn_ownerWords : GapsReturn ownerWords :=
  gapsReturn_cons_cons.2 ⟨⟨⟨'o', rfl, rfl⟩, .inl trivial⟩,
    List.isChain_cons_cons.2 ⟨⟨⟨'i', rfl, rfl⟩, .inr (.inl (by decide))⟩, .singleton _⟩⟩

/-- The words of a name that ends in a number. -/
def lineWords : List (List Char) := ["line".toList, "2".toList]

theorem not_gapsReturn_lineWords : ¬GapsReturn lineWords := fun h => by
  obtain ⟨⟨_, ⟨⟩, hletter⟩, -⟩ := h 0 _ _ rfl rfl
  exact absurd hletter (by decide)

/-- The key of the column is a name of it. A name that ends in a number does not come back. -/
theorem owner_returns : (∃ c, snakePets.compile? petsCounted = .ok c ∧
    pet.SameAttribute (snakeCase (c.domainKey .snake "pet_owner_id")) "pet_owner_id") ∧
      snakeCase (camelCase "_line_2") ≠ "_line_2" := by
  have howner : ∀ word ∈ ownerWords, IsWord word := by
    simp only [ownerWords, List.forall_mem_cons]
    exact ⟨isWord_of_all (by decide) (by decide), isWord_of_all (by decide) (by decide),
      isWord_of_all (by decide) (by decide), nofun⟩
  have hline : ∀ word ∈ lineWords, IsWord word := by
    simp only [lineWords, List.forall_mem_cons]
    exact ⟨isWord_of_all (by decide) (by decide), isWord_of_all (by decide) (by decide), nofun⟩
  obtain ⟨c, -, hc, -⟩ := exists_petsCounted
  obtain ⟨-, hsame⟩ := stored_names_return (List.cons_ne_nil _ _) howner 0 0
  obtain ⟨hiff, -⟩ := stored_names_return (List.cons_ne_nil _ _) hline 1 0
  exact ⟨⟨c, hc, (hsame snakePets petsCounted c rfl hc (by decide)).2 gapsReturn_ownerWords⟩,
    hiff.not.2 not_gapsReturn_lineWords⟩

end Sample

/-! ## Requested names -/

variable {name : String}

/-- **Requested names that come back.** A name of letters and digits is the same again when each of
its capitals begins a word after another one. These are the names that the records of a request for
rows of values have as keys when they are asked for, as far as the other names asked for are of
letters and digits too: the key of `a_b_c` is `aBC`, that of `aBC` is not. -/
theorem requested_names_return (h : ∀ d ∈ name.toList, IsNameChar d) :
    (camelCase (snakeCase name) = name ↔ CapitalsBegin [] name.toList) ∧
    (∀ (q : Query) (request : Request) (c : CompiledQuery), q.naming = .snake →
      q.compile? request = .ok c →
        (c.domainKey q.naming (q.naming.toStorage name) = name ↔ CapitalsBegin [] name.toList)) ∧
    ∀ (q : Query) (db : Database) (request : Request) (parameters : Parameters) (r : ReadRequest)
      (a : Answer), q.naming = .snake → Parameters.parse request.params = .ok parameters →
      parameters.readRequest? = .ok r → isRowMode (q.fieldsOf request r) r.group = true →
      ⟨name, none⟩ ∈ shownFields (q.fieldsOf request r) r.group →
      q.fetch? db request none none = .ok a → ∀ record ∈ a.outcome.records,
        ∃ entries, record = .values entries ∧ camelCase (snakeCase name) ∈ entries.map (·.1) ∧
          ((∀ f ∈ shownFields (q.fieldsOf request r) r.group, f.isAggregate = false →
              ∀ d ∈ f.name.toList, IsNameChar d) →
            (name ∈ entries.map (·.1) ↔ CapitalsBegin [] name.toList)) := by
  have hreturns := camelCase_snakeCase_iff h
  refine ⟨hreturns, fun q request c hnaming hc => ?_,
    fun q db request parameters r a hnaming hparse hread hmode hshown ha record hrecord =>
      Query.name_mem_keys_iff hnaming hparse hread hmode h hshown ha hrecord⟩
  rw [Query.domainKey_snake hc hnaming, hnaming]
  exact hreturns

namespace Sample

/-- The first name of some person twice, by two names, and how many people there are. -/
def firstNames : Request where
  params := .ofFields [("fields", .ofFields
    [("person", .list [.text "FirstName", .text "firstName", .text "count(id)"])])]

/-- What is asked for of these people. -/
def firstNamesFields : List SelectedField :=
  [⟨"FirstName", none⟩, ⟨"firstName", none⟩, ⟨"count(id)", some (.count, "id")⟩]

/-- What this compiles to. -/
def firstNamesQuery : CompiledQuery where
  statement := { entity := person, selection := .rows [
    ⟨.plain (.column ⟨person.reach.source, "first_name", .text⟩), "first_name"⟩,
    ⟨.plain (.column ⟨person.reach.source, "first_name", .text⟩), "first_name"⟩,
    ⟨.aggregate .count (.column ⟨person.reach.source, "id", .integer⟩), "count"⟩] }
  counted := none
  loads := []
  isRestricted := false
  window := none
  single := false
  rowMode := true
  aggregateLabels := ["count"]

/-- The record of these people. -/
def firstNamesRecord : AnswerRecord :=
  .values [("firstName", .text "Barney"), ("firstName1", .text "Barney"), ("count", .int 5)]

theorem exists_firstNames : ∃ a, snakePeople.fetch? database firstNames none none = .ok a ∧
    a.outcome.records = [firstNamesRecord] := by
  have hc : snakePeople.compile? firstNames = .ok firstNamesQuery := rfl
  obtain ⟨a, ha, houtcome⟩ := Query.exists_answer snakePeople database firstNames none hc rfl rfl
    rfl (by decide +kernel) (by decide)
  refine ⟨a, ha, ?_⟩
  rw [houtcome, CompiledQuery.shownRecords_rows rfl, Statement.rows,
    Statement.groups_of_order_nil _ rfl]
  rfl

theorem read_firstNames : ∃ parameters, Parameters.parse firstNames.params = .ok parameters ∧
    parameters.readRequest? = .ok ⟨[], [], [("person", firstNamesFields)], [], [], none⟩ :=
  ⟨_, rfl, rfl⟩

/-- The name with one capital is a key of the record, and the one that begins with a capital is
not. -/
theorem keys_firstNames : ∃ a entries,
    snakePeople.fetch? database firstNames none none = .ok a ∧
      a.outcome.records = [.values entries] ∧ "firstName" ∈ entries.map (·.1) ∧
        "FirstName" ∉ entries.map (·.1) := by
  obtain ⟨a, ha, hrecord⟩ := exists_firstNames
  obtain ⟨parameters, hparse, hread⟩ := read_firstNames
  have hchars : ∀ f ∈ firstNamesFields, f.isAggregate = false →
      ∀ d ∈ f.name.toList, IsNameChar d := by
    simp only [firstNamesFields, List.forall_mem_cons]
    exact ⟨fun _ => isNameChar_of_all (by decide), fun _ => isNameChar_of_all (by decide), nofun,
      nofun⟩
  have hname : ∀ d ∈ "FirstName".toList, IsNameChar d := isNameChar_of_all (by decide)
  obtain ⟨-, -, hkeys⟩ := requested_names_return hname
  obtain ⟨entries, hentries, hkey, hiff⟩ := hkeys snakePeople database firstNames parameters _ a
    rfl hparse hread rfl (List.mem_cons_self ..) ha firstNamesRecord
    (hrecord ▸ List.mem_cons_self ..)
  have hfront : ¬CapitalsBegin [] "FirstName".toList := fun h => by
    obtain ⟨_, ⟨⟩, -⟩ := h [] 'F' _ rfl (by decide)
  have hreturned : camelCase (snakeCase "FirstName") = "firstName" := by decide
  exact ⟨a, entries, ha, hentries ▸ hrecord, hreturned ▸ hkey, (hiff hchars).not.2 hfront⟩

end Sample

end ResourceQuery
