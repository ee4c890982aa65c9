import ResourceQuery.Proofs.Parameters.Reading

/-!
# The one form of parameters

The parameters of a request may come in many forms: a list of names as one text, a text as bytes, a
number as a text. They are read in one form, and written in it they are read as they are.

* `Parameters.Lists`, `Parameters.ListsTexts`: lists, which may be texts with commas;
* `Parameters.WrittenAs`: whether a request is a form of some parameters;
* `Parameters.parse_eq_ok`: the requests that are read as some parameters are the forms of them;
* `Parameters.IsNormal`: parameters that can be read;
* `Parameters.parse_toValue_iff`: these are the ones that are read as they are written;
* `Parameters.parse_again`: whatever is read is among them.
-/

namespace ResourceQuery

open Text Input

/-! ## Pages -/

namespace PageRequest

variable {key : String} {entries : List (Value × Value)} {v : Value} {page : PageRequest}

/-- Whether a value is a mapping of the bounds of a page and nothing else, each of them missing,
null or an integer that is not negative. -/
structure WrittenAs (page : PageRequest) (v : Value) : Prop where
  keys : v.HasKeys ["limit", "offset"]
  limit : Option.Rel Denotes (v.given? "limit") page.limit
  offset : Option.Rel Denotes (v.given? "offset") page.offset
  limit_nonneg : ∀ i ∈ page.limit, 0 ≤ i
  offset_nonneg : ∀ i ∈ page.offset, 0 ≤ i

/-- A bound that is read is what the mapping of the page gives. -/
theorem readBound_eq_ok {bound : Option ℤ} : readBound key entries = .ok bound ↔
    Option.Rel Denotes ((Value.map entries).given? key) bound ∧ ∀ i ∈ bound, 0 ≤ i := by
  have hmissing : Except.ok none = (.ok bound : Located (Option ℤ)) ↔
      Option.Rel Denotes none bound ∧ ∀ i ∈ bound, 0 ≤ i := by
    cases bound <;> simp
  unfold readBound
  split
  · next hnone => rwa [Value.given?, hnone]
  · next hnull => rwa [Value.given?, hnull]
  · next v hnull hv =>
    rw [Value.given?_map hnull hv, at_eq_ok, map_eq_ok]
    simp only [readAtLeast_eq_ok]
    constructor
    · rintro ⟨i, ⟨hi, hleast⟩, rfl⟩
      exact ⟨.some hi, by simpa using hleast⟩
    · rintro ⟨h, hnonneg⟩
      cases h with
      | some hi => exact ⟨_, ⟨hi, by simpa using hnonneg⟩, rfl⟩

theorem checkKeys_eq_ok : checkKeys entries = .ok () ↔
    ∀ e ∈ entries, ∃ name ∈ ["limit", "offset"], e.1 = .text name := by
  induction entries with
  | nil => simp [checkKeys]
  | cons e rest ih =>
    obtain ⟨key, v⟩ := e
    cases key with
    | text name =>
      rw [checkKeys, List.forall_mem_cons]
      split
      · next hname => simp [ih, hname]
      · next hname => simp [at_eq_ok, hname]
    | _ => simp [checkKeys, at_eq_ok]

theorem read_eq_ok : read v = .ok page ↔ page.WrittenAs v := by
  constructor
  · intro h
    unfold read at h
    split at h
    · simp only [bind_eq_ok, readBound_eq_ok] at h
      obtain ⟨limit, ⟨hlimit, hlimit'⟩, offset, ⟨hoffset, hoffset'⟩, ⟨⟩, hkeys, h⟩ := h
      cases h
      exact ⟨⟨_, rfl, checkKeys_eq_ok.1 hkeys⟩, hlimit, hoffset, hlimit', hoffset'⟩
    · cases h
  · rintro ⟨⟨entries, rfl, hkeys⟩, hlimit, hoffset, hlimit', hoffset'⟩
    simp only [read, bind_eq_ok]
    exact ⟨_, readBound_eq_ok.2 ⟨hlimit, hlimit'⟩, _, readBound_eq_ok.2 ⟨hoffset, hoffset'⟩, (),
      checkKeys_eq_ok.2 hkeys, rfl⟩

theorem given?_toValue_limit (page : PageRequest) :
    page.toValue.given? "limit" = page.limit.map .int := by
  obtain ⟨limit, offset⟩ := page
  cases limit <;> rfl

theorem given?_toValue_offset (page : PageRequest) :
    page.toValue.given? "offset" = page.offset.map .int := by
  obtain ⟨limit, offset⟩ := page
  cases offset <;> rfl

theorem rel_map_int (bound : Option ℤ) : Option.Rel Denotes (bound.map .int) bound := by
  cases bound with
  | none => exact .none
  | some i => exact .some (.int i)

theorem writtenAs_toValue (hlimit : ∀ i ∈ page.limit, 0 ≤ i) (hoffset : ∀ i ∈ page.offset, 0 ≤ i) :
    page.WrittenAs page.toValue where
  keys := ⟨_, rfl, by simp⟩
  limit := page.given?_toValue_limit ▸ rel_map_int page.limit
  offset := page.given?_toValue_offset ▸ rel_map_int page.offset
  limit_nonneg := hlimit
  offset_nonneg := hoffset

end PageRequest

namespace Parameters

/-! ## Lists -/

/-- Whether a value has some elements: those of a list, a tuple or a set, or the pieces of a text
between its commas, where empty ones are left out. -/
inductive Lists : Value → List Value → Prop
  | pieces (s : String) : Lists (.text s) ((splitNonempty ',' s).map .text)
  | elements {v : Value} {vs : List Value} (h : Holds v vs) : Lists v vs

/-- Whether a value has some texts as its elements. -/
def ListsTexts (v : Value) (texts : List String) : Prop :=
  ∃ vs, Lists v vs ∧ List.Forall₂ Spells vs texts

section Lists

variable {v : Value} {vs : List Value} {texts : List String}

theorem holds_splitText : Holds (splitText v) vs ↔ Lists v vs := by
  constructor
  · intro h
    cases v with
    | text s =>
      cases h
      exact .pieces s
    | _ => exact .elements h
  · rintro (s | h)
    · exact .list _
    · cases h <;> constructor

theorem readTextList_splitText : readTextList (splitText v) = .ok texts ↔ ListsTexts v texts := by
  simp only [readTextList_eq_ok, holds_splitText, ListsTexts]

theorem listsTexts_textsValue (texts : List String) : ListsTexts (textsValue texts) texts :=
  ⟨_, .elements (.list _), spells_texts texts⟩

/-- A text with commas has its pieces as elements. -/
theorem listsTexts_text (s : String) : ListsTexts (.text s) (splitNonempty ',' s) :=
  ⟨_, .pieces s, spells_texts _⟩

end Lists

/-! ## Entries -/

section Entries

variable {entries : List (Value × Value)}

theorem filterEntries_eq_ok {out : List (String × Value)} : filterEntries entries = .ok out ↔
    List.Forall₂ (fun e o => Spells e.1 o.1 ∧ e.2 = o.2) entries out := by
  induction entries generalizing out with
  | nil => simp [filterEntries, eq_comm]
  | cons e rest ih =>
    simp only [filterEntries, bind_eq_ok, readKey_eq_ok, ih, List.forall₂_cons_left_iff]
    constructor
    · rintro ⟨name, hname, more, hmore, h⟩
      exact ⟨_, more, ⟨hname, rfl⟩, hmore, (Except.ok.inj h).symm⟩
    · rintro ⟨o, more, ⟨hname, hv⟩, hmore, rfl⟩
      exact ⟨_, hname, more, hmore, by rw [hv]⟩

theorem fieldsEntries_eq_ok {out : List (String × List String)} :
    fieldsEntries entries = .ok out ↔
      List.Forall₂ (fun e o => Spells e.1 o.1 ∧ ListsTexts e.2 o.2) entries out := by
  induction entries generalizing out with
  | nil => simp [fieldsEntries, eq_comm]
  | cons e rest ih =>
    simp only [fieldsEntries, bind_eq_ok, readKey_eq_ok, under_eq_ok, readTextList_splitText, ih,
      List.forall₂_cons_left_iff]
    constructor
    · rintro ⟨type, htype, names, hnames, more, hmore, h⟩
      exact ⟨_, more, ⟨htype, hnames⟩, hmore, (Except.ok.inj h).symm⟩
    · rintro ⟨o, more, ⟨htype, hnames⟩, hmore, rfl⟩
      exact ⟨_, htype, _, hnames, more, hmore, rfl⟩

theorem checkKeys_eq_ok : checkKeys entries = .ok () ↔
    ∀ e ∈ entries, ∃ name ∈ names, e.1 = .text name := by
  induction entries with
  | nil => simp [checkKeys]
  | cons e rest ih =>
    obtain ⟨key, v⟩ := e
    cases key with
    | text name =>
      rw [checkKeys, List.forall_mem_cons]
      split
      · next hname => simp [ih, hname]
      · next hname => simp [at_eq_ok, hname]
    | _ => simp [checkKeys, at_eq_ok]

end Entries

/-! ## Parameters one by one -/

section Readers

variable {v : Value}

theorem readFilter_eq_ok (hv : v ≠ .null) {filter : List (String × Value)} :
    readFilter v = .ok filter ↔ Maps Eq v filter := by
  constructor
  · intro h
    cases v with
    | null => exact absurd rfl hv
    | map entries =>
      obtain ⟨out, hout, rfl⟩ := map_eq_ok.1 h
      exact .entries (filterEntries_eq_ok.1 hout)
    | _ => cases h
  · rintro ⟨h⟩
    exact map_eq_ok.2 ⟨_, filterEntries_eq_ok.2 h, rfl⟩

theorem readFields_eq_ok (hv : v ≠ .null) {fields : List (String × List String)} :
    readFields v = .ok fields ↔ Maps ListsTexts v fields := by
  constructor
  · intro h
    cases v with
    | null => exact absurd rfl hv
    | map entries =>
      obtain ⟨out, hout, rfl⟩ := map_eq_ok.1 h
      exact .entries (fieldsEntries_eq_ok.1 hout)
    | _ => cases h
  · rintro ⟨h⟩
    exact map_eq_ok.2 ⟨_, fieldsEntries_eq_ok.2 h, rfl⟩

theorem readNames_eq_ok (hv : v ≠ .null) {texts : List String} :
    readNames v = .ok texts ↔ ListsTexts v texts := by
  rw [readNames.eq_2 v hv, readTextList_splitText]

theorem readIncludes_eq_ok (hv : v ≠ .null) {vs : List Value} :
    readIncludes v = .ok vs ↔ Lists v vs := by
  rw [readIncludes.eq_2 v hv, at_eq_ok, readList_eq_ok, holds_splitText]

theorem readPage_eq_ok (hv : v ≠ .null) {page : Option PageRequest} :
    readPage v = .ok page ↔ ∃ request, page = some request ∧ request.WrittenAs v := by
  rw [readPage.eq_2 v hv, map_eq_ok]
  simp only [PageRequest.read_eq_ok]
  exact exists_congr fun request => and_comm.trans (and_congr_left' eq_comm)

/-- A parameter that is missing or null is what its reader makes of null. -/
theorem readOne_eq_ok {α : Type} {read : Value → Located α} {standsFor : Value → α → Prop}
    {missing a : α} {name : String} {entries : List (Value × Value)}
    (hread : ∀ v, v ≠ .null → ∀ a, read v = .ok a ↔ standsFor v a)
    (hnull : read .null = .ok missing) :
    readOne read name entries = .ok a ↔
      IfGiven standsFor missing ((Value.map entries).given? name) a := by
  have hmissing : read .null = .ok a ↔ IfGiven standsFor missing none a := by
    rw [hnull, Except.ok.injEq, ifGiven_none, eq_comm]
  rw [readOne, under_eq_ok]
  cases hv : Value.lookup? (.text name) entries with
  | none => rwa [Value.given?, hv]
  | some v =>
    by_cases hnull : v = .null
    · subst hnull
      rwa [Value.given?, hv]
    · rw [Value.given?_map hnull hv, Option.getD_some, hread v hnull, ifGiven_some]

end Readers

/-! ## Requests -/

/-- Whether a request is a form of some parameters: it is null, or a mapping of parameters and
nothing else, each of them missing, null or in one of its forms. -/
structure WrittenAs (p : Parameters) (raw : Value) : Prop where
  keys : raw = .null ∨ raw.HasKeys names
  filter : IfGiven (Maps Eq) [] (raw.given? "filter") p.filter
  sort : IfGiven ListsTexts [] (raw.given? "sort") p.sort
  fields : IfGiven (Maps ListsTexts) [] (raw.given? "fields") p.fields
  includes : IfGiven Lists [] (raw.given? "include") p.includes
  group : IfGiven ListsTexts [] (raw.given? "group") p.group
  page : IfGiven (fun v page => ∃ request, page = some request ∧ request.WrittenAs v) none
    (raw.given? "page") p.page

variable {raw : Value} {p : Parameters}

theorem read_eq_ok {entries : List (Value × Value)} :
    read entries = .ok p ↔ p.WrittenAs (.map entries) := by
  simp only [read, bind_eq_ok, readOne_eq_ok (fun _ hv _ => readFilter_eq_ok hv) rfl,
    readOne_eq_ok (fun _ hv _ => readNames_eq_ok hv) rfl,
    readOne_eq_ok (fun _ hv _ => readFields_eq_ok hv) rfl,
    readOne_eq_ok (fun _ hv _ => readIncludes_eq_ok hv) rfl,
    readOne_eq_ok (fun _ hv _ => readPage_eq_ok hv) rfl]
  constructor
  · rintro ⟨filter, hfilter, sort, hsort, fields, hfields, includes, hincludes, group, hgroup, page,
      hpage, ⟨⟩, hkeys, h⟩
    cases h
    exact ⟨.inr ⟨_, rfl, checkKeys_eq_ok.1 hkeys⟩, hfilter, hsort, hfields, hincludes, hgroup,
      hpage⟩
  · rintro ⟨hkeys, hfilter, hsort, hfields, hincludes, hgroup, hpage⟩
    obtain ⟨_, ⟨⟩, hkeys⟩ := hkeys.resolve_left nofun
    exact ⟨_, hfilter, _, hsort, _, hfields, _, hincludes, _, hgroup, _, hpage, (),
      checkKeys_eq_ok.2 hkeys, rfl⟩

/-- The requests that are read as some parameters are the forms of them. -/
theorem parse_eq_ok : parse raw = .ok p ↔ p.WrittenAs raw := by
  cases raw with
  | null =>
    constructor
    · intro h
      cases h
      exact ⟨.inl rfl, .missing, .missing, .missing, .missing, .missing, .missing⟩
    · obtain ⟨filter, sort, fields, includes, group, page⟩ := p
      rintro ⟨-, ⟨⟩, ⟨⟩, ⟨⟩, ⟨⟩, ⟨⟩, ⟨⟩⟩
      rfl
  | map entries => rw [parse, mapError_eq_ok, read_eq_ok]
  | _ =>
    constructor
    · intro h
      cases h
    · rintro ⟨hkeys | ⟨_, hkeys, -⟩, -⟩ <;> cases hkeys

/-! ## Parameters that can be read -/

/-- Whether the keys of a filter and the types of fields differ, and the bounds of a page are not
negative. -/
@[mk_iff] structure IsNormal (p : Parameters) : Prop where
  filter_nodup : (p.filter.map (·.1)).Nodup
  fields_nodup : (p.fields.map (·.1)).Nodup
  page_nonneg : ∀ page ∈ p.page, (∀ i ∈ page.limit, 0 ≤ i) ∧ ∀ i ∈ page.offset, 0 ≤ i

variable {raw : Value} {p : Parameters}

theorem WrittenAs.isNormal (h : p.WrittenAs raw) : p.IsNormal where
  filter_nodup := h.filter.nodup
  fields_nodup := h.fields.nodup
  page_nonneg page hpage := by
    have hpage' := h.page
    rw [Option.mem_def.1 hpage] at hpage'
    generalize raw.given? "page" = given at hpage'
    cases hpage' with
    | given hwritten =>
      obtain ⟨_, ⟨⟩, hwritten⟩ := hwritten
      exact ⟨hwritten.limit_nonneg, hwritten.offset_nonneg⟩

theorem IsNormal.writtenAs_toValue (h : p.IsNormal) : p.WrittenAs p.toValue where
  keys := .inr ⟨_, rfl, by simp [names]⟩
  filter := by
    have hfilter := @maps_ofFields _ Eq p.filter id h.filter_nodup fun _ _ => rfl
    simp only [id_eq, Prod.mk.eta, List.map_id'] at hfilter
    exact .given hfilter
  sort := .given (listsTexts_textsValue p.sort)
  fields := .given (maps_ofFields h.fields_nodup fun e _ => listsTexts_textsValue e.2)
  includes := .given (.elements (.list _))
  group := .given (listsTexts_textsValue p.group)
  page := by
    have hnonneg := h.page_nonneg
    have hgiven : p.toValue.given? "page" = p.page.map PageRequest.toValue := by
      cases hpage : p.page with
      | none => simp only [toValue, hpage]; rfl
      | some page => simp only [toValue, hpage]; rfl
    rw [hgiven]
    cases hpage : p.page with
    | none => exact .missing
    | some page =>
      obtain ⟨hlimit, hoffset⟩ := hnonneg page hpage
      exact .given ⟨page, rfl, PageRequest.writtenAs_toValue hlimit hoffset⟩

/-- What can be read is what is read as it is written. -/
theorem parse_toValue_iff : parse p.toValue = .ok p ↔ p.IsNormal := by
  rw [parse_eq_ok]
  exact ⟨WrittenAs.isNormal, IsNormal.writtenAs_toValue⟩

/-- **Parameters are read in one form.** A request that is read is a form of its parameters, and
every other form of them is read as they are. Written as a request, they are one of these forms:
they are read once more without a change. -/
theorem parse_again (h : parse raw = .ok p) :
    p.WrittenAs raw ∧ (∀ raw', p.WrittenAs raw' → parse raw' = .ok p) ∧ p.WrittenAs p.toValue ∧
      parse p.toValue = .ok p := by
  have hwritten := parse_eq_ok.1 h
  have hvalue := hwritten.isNormal.writtenAs_toValue
  exact ⟨hwritten, fun _ => parse_eq_ok.2, hvalue, parse_eq_ok.2 hvalue⟩

end Parameters

namespace Sample

/-- A request with names in one text, in a tuple, as bytes and in a set, a key that comes twice in
two forms, a parameter that is null, and bounds that are texts and truth values. -/
def oddForms : Value :=
  .ofFields [
    ("filter", .map [(.bytes [0x69, 0x64], .int 1), (.text "name", .text "a,b"),
      (.text "id", .list [.null])]),
    ("sort", .text ",-name,,id,"),
    ("fields", .map [(.bytes [0x70, 0x65, 0x74],
      .tuple [.bytes [0x69, 0x64], .text "a,b", .text ""])]),
    ("include", .set [.text "pet_owner"]),
    ("group", .null),
    ("page", .map [(.text "offset", .bool true), (.text "limit", .text " 1_0.0 ")])]

/-- The parameters that they are read as. -/
def oddFormsRead : Parameters where
  filter := [("id", .list [.null]), ("name", .text "a,b")]
  sort := ["-name", "id"]
  fields := [("pet", ["id", "a,b", ""])]
  includes := [.text "pet_owner"]
  page := some ⟨some 10, some 1⟩

/-- Read once more, the text among the fields is not cut at its comma, and the empty one stays. -/
theorem parse_oddForms : Parameters.parse oddForms = .ok oddFormsRead ∧
    Parameters.parse oddFormsRead.toValue = .ok oddFormsRead := by
  have hread : Parameters.parse oddForms = .ok oddFormsRead := rfl
  obtain ⟨-, -, -, hagain⟩ := Parameters.parse_again hread
  exact ⟨hread, hagain⟩

end Sample

end ResourceQuery
