import ResourceQuery.Proofs.Parameters.Names
import ResourceQuery.Proofs.Parameters.Normal
import ResourceQuery.Proofs.Sort.Path

/-!
# Names in one text

A list of names may be one text with commas. It is read as it is, or parsed with the other
parameters first, and what is read then is the list of its pieces that are not empty. Fields and
groups leave empty pieces out themselves, so that this makes no difference. Sort keys and relations
do not: an empty piece is a fault of theirs, unless there is an earlier one.

* `readPaths`: paths in pieces, read one after the other;
* `StopsAtEmpty`: pieces whose first fault is that one of them is empty;
* `readPaths_filter_iff`: when it makes no difference that empty pieces are left out;
* `Parameters.parse_sort`, `Parameters.parse_include`, `Parameters.parse_group`,
  `Parameters.parse_fields`: a text that is parsed;
* `Parameters.comma_text_read`: which texts are read alike in both ways.
-/

namespace ResourceQuery

open Text Input

/-! ## Paths in pieces -/

/-- The paths in some pieces, of which the first has an index. A piece may hold more than its path,
and its fault is at the place of its index. -/
def readPaths {α : Type} (path : String → String) (make : String → List String → α)
    (place : ℕ → String) (index : ℕ) : List String → Checked (List α)
  | [] => .ok []
  | piece :: rest => do
    let segments ← segments? (path piece) (some (place index))
    let more ← readPaths path make place (index + 1) rest
    .ok (make piece segments :: more)

/-- Whether the first of some pieces that holds no path is empty, and what comes after it. -/
def StopsAtEmpty (path : String → String) (pieces after : List String) : Prop :=
  ∃ before, pieces = before ++ "" :: after ∧ ∀ piece ∈ before, IsPath (path piece)

section Pieces

variable {α : Type} {path : String → String} {make : String → List String → α}
  {place : ℕ → String} {index : ℕ} {piece : String} {pieces after : List String}

theorem not_stopsAtEmpty_nil : ¬StopsAtEmpty path [] after := by
  rintro ⟨before, h, -⟩
  simp at h

theorem stopsAtEmpty_cons_empty (hpath : path "" = "") :
    StopsAtEmpty path ("" :: pieces) after ↔ after = pieces := by
  constructor
  · rintro ⟨before, h, hbefore⟩
    cases before with
    | nil => exact (List.cons.inj h).2.symm
    | cons first before =>
      obtain ⟨rfl, -⟩ := List.cons.inj h
      exact absurd hpath (hbefore _ (List.mem_cons_self ..)).ne_empty
  · rintro rfl
    exact ⟨[], rfl, by simp⟩

theorem stopsAtEmpty_cons (hpiece : piece ≠ "") :
    StopsAtEmpty path (piece :: pieces) after ↔
      IsPath (path piece) ∧ StopsAtEmpty path pieces after := by
  constructor
  · rintro ⟨before, h, hbefore⟩
    cases before with
    | nil => exact absurd (List.cons.inj h).1 hpiece
    | cons first before =>
      obtain ⟨rfl, rfl⟩ := List.cons.inj h
      rw [List.forall_mem_cons] at hbefore
      exact ⟨hbefore.1, before, rfl, hbefore.2⟩
  · rintro ⟨hfirst, before, rfl, hbefore⟩
    exact ⟨piece :: before, rfl, List.forall_mem_cons.2 ⟨hfirst, hbefore⟩⟩

/-- A fault is at the place of a piece. -/
theorem le_of_readPaths_eq_error {e : ParameterError}
    (h : readPaths path make place index pieces = .error e) :
    ∃ i, index ≤ i ∧ e.path = some (place i) := by
  induction pieces generalizing index with
  | nil => cases h
  | cons piece rest ih =>
    simp only [readPaths, bind_eq_error, segments?_eq_error] at h
    obtain (⟨-, rfl⟩ | ⟨-, -, rfl⟩) | ⟨_, -, h | ⟨_, -, h⟩⟩ := h
    · exact ⟨index, le_rfl, rfl⟩
    · exact ⟨index, le_rfl, rfl⟩
    · obtain ⟨i, hi, he⟩ := ih h
      exact ⟨i, by omega, he⟩
    · cases h

/-- The first piece is said to have no name when its path is empty. -/
theorem readPaths_eq_noName (hplace : Function.Injective place) :
    readPaths path make place index pieces = .error ⟨.noName (quoted ""), some (place index)⟩ ↔
      ∃ piece, pieces.head? = some piece ∧ path piece = "" := by
  cases pieces with
  | nil => simp [readPaths]
  | cons piece rest =>
    simp only [readPaths, bind_eq_error, segments?_eq_error, List.head?_cons, Option.some.injEq,
      exists_eq_left']
    constructor
    · rintro ((⟨hpiece, -⟩ | ⟨-, -, h⟩) | ⟨_, -, h | ⟨_, -, h⟩⟩)
      · exact hpiece
      · cases h
      · obtain ⟨i, hi, he⟩ := le_of_readPaths_eq_error h
        have hindex := hplace (Option.some.inj he)
        omega
      · cases h
    · intro hpiece
      exact .inl (.inl ⟨hpiece, by rw [hpiece]⟩)

/-- It makes no difference that empty pieces are left out when none of them is the first fault, or
the piece that is read in its place has the same fault. -/
theorem readPaths_filter_iff (hpath : path "" = "") (hplace : Function.Injective place) :
    readPaths path make place index pieces =
        readPaths path make place index (pieces.filter (· ≠ "")) ↔
      ∀ after, StopsAtEmpty path pieces after →
        ∃ next, after.find? (· ≠ "") = some next ∧ path next = "" := by
  induction pieces generalizing index with
  | nil => simp [not_stopsAtEmpty_nil]
  | cons piece rest ih =>
    by_cases hpiece : piece = ""
    · subst hpiece
      have hempty : readPaths path make place index ("" :: rest) =
          .error ⟨.noName (quoted ""), some (place index)⟩ :=
        (readPaths_eq_noName hplace).2 ⟨"", rfl, hpath⟩
      rw [List.filter_cons_of_neg (by simp), hempty, eq_comm, readPaths_eq_noName hplace,
        List.head?_filter]
      simp only [stopsAtEmpty_cons_empty hpath, forall_eq]
    · rw [List.filter_cons_of_pos (by simp [hpiece])]
      simp only [stopsAtEmpty_cons hpiece, and_imp, readPaths]
      cases hfirst : segments? (path piece) (some (place index)) with
      | error e =>
        have hnot : ¬IsPath (path piece) := fun h => by
          cases hfirst.symm.trans (segments?_eq_ok.2 ⟨h, rfl⟩)
        exact iff_of_true rfl fun _ h => absurd h hnot
      | ok segments =>
        simp only [(segments?_eq_ok.1 hfirst).1, forall_const]
        rw [← @ih (index + 1)]
        generalize readPaths path make place (index + 1) rest = x
        generalize readPaths path make place (index + 1) (rest.filter (· ≠ "")) = y
        cases x <;> cases y <;> simp [bind, Except.bind]

/-- Places of different indices differ. -/
theorem injective_place (name : String) :
    Function.Injective fun index : ℕ => name ++ toString index := by
  intro i j h
  have hread : Function.LeftInverse (Nat.ofDigitChars 10 · 0) (Nat.toDigits 10) := fun _ =>
    Nat.ofDigitChars_ten_toDigits
  have hindex : toString i = toString j := (String.append_right_inj name).1 h
  rw [Nat.toString_eq_ofList_toDigits, Nat.toString_eq_ofList_toDigits, String.ofList_inj] at hindex
  exact hread.injective hindex

end Pieces

/-! ## Sort keys and relations -/

namespace SortKeys

/-- The path of a sort key, after the dash of a descending one. -/
def pathOf (piece : String) : String := (SortKey.takeDash piece).2

theorem pathOf_empty : pathOf "" = "" :=
  rfl

theorem injective_itemPath : Function.Injective itemPath :=
  injective_place "sort."

theorem readItems?_texts (index : ℕ) (pieces : List String) :
    readItems? index (pieces.map .text) =
      readPaths pathOf (fun piece segments => ⟨.ofSegments segments, (SortKey.takeDash piece).1⟩)
        itemPath index pieces := by
  induction pieces generalizing index with
  | nil => rfl
  | cons piece rest ih =>
    rw [List.map_cons, readItems?, readPaths, ih]
    show ((segments? (pathOf piece) _).map _).map _ >>= _ = _
    cases segments? (pathOf piece) (some (itemPath index)) <;> rfl

theorem read?_text (s : String) :
    read? (.text s) = if s = "" then .ok [] else readItems? 0 ((splitAt ',' s).map .text) := by
  simp only [read?, Value.isEmpty, String.isEmpty_iff]

theorem read?_textsValue (pieces : List String) :
    read? (Parameters.textsValue pieces) = readItems? 0 (pieces.map .text) := by
  cases pieces <;> rfl

/-- Only the dash alone has no path and is not empty. -/
theorem pathOf_eq_empty {piece : String} (hpiece : piece ≠ "") :
    pathOf piece = "" ↔ piece = "-" := by
  unfold pathOf SortKey.takeDash
  split
  · next rest hrest =>
    rw [← @String.toList_inj piece, hrest, ← String.toList_inj]
    simp
  · next hdash =>
    simp only [hpiece, false_iff]
    rintro rfl
    exact hdash [] rfl

end SortKeys

namespace Include

theorem injective_entryPath : Function.Injective entryPath :=
  injective_place "include."

theorem readEntries?_texts (index : ℕ) (pieces : List String) :
    readEntries? index (pieces.map .text) =
      readPaths id (fun _ segments => ⟨segments, none⟩) entryPath index pieces := by
  induction pieces generalizing index with
  | nil => rfl
  | cons piece rest ih =>
    rw [List.map_cons, readEntries?, readPaths, ih]
    show (segments? (id piece) _).map _ >>= _ = _
    cases segments? (id piece) (some (entryPath index)) <;> rfl

theorem read?_text (s : String) :
    read? (.text s) = if s = "" then .ok [] else readEntries? 0 ((splitAt ',' s).map .text) := by
  simp only [read?, Value.isEmpty, String.isEmpty_iff]

theorem read?_list (entries : List Value) : read? (.list entries) = readEntries? 0 entries := by
  cases entries <;> rfl

end Include

/-! ## Fields and groups -/

theorem empty_not_mem_splitNonempty (s : String) : "" ∉ splitNonempty ',' s := by
  simp [splitNonempty]

theorem Group.read?_text (s : String) :
    Group.read? (.text s) = .ok ((splitNonempty ',' s).map .ofName) := by
  by_cases hs : s = ""
  · subst hs
    rfl
  · rw [Group.read?, if_neg (by simpa [Value.isEmpty] using hs)]
    rfl

theorem Fields.read?_text (type s : String) :
    Fields.read? (.ofFields [(type, .text s)]) = .ok (ofNames [(type, splitNonempty ',' s)]) :=
  rfl

/-! ## Parsed texts -/

namespace Parameters

variable (s type : String)

theorem parse_sort :
    parse (.ofFields [("sort", .text s)]) = .ok { sort := splitNonempty ',' s } :=
  parse_eq_ok.2 ⟨.inr ⟨_, rfl, by simp [names]⟩, .missing, .given (listsTexts_text s), .missing,
    .missing, .missing, .missing⟩

theorem parse_include :
    parse (.ofFields [("include", .text s)]) =
      .ok { includes := (splitNonempty ',' s).map .text } :=
  parse_eq_ok.2 ⟨.inr ⟨_, rfl, by simp [names]⟩, .missing, .missing, .missing, .given (.pieces s),
    .missing, .missing⟩

theorem parse_group :
    parse (.ofFields [("group", .text s)]) = .ok { group := splitNonempty ',' s } :=
  parse_eq_ok.2 ⟨.inr ⟨_, rfl, by simp [names]⟩, .missing, .missing, .missing, .missing,
    .given (listsTexts_text s), .missing⟩

theorem parse_fields :
    parse (.ofFields [("fields", .ofFields [(type, .text s)])]) =
      .ok { fields := [(type, splitNonempty ',' s)] } := by
  have hentry : Maps ListsTexts (.ofFields [(type, .text s)])
      (ofEntries [(type, splitNonempty ',' s)]) :=
    .entries (.cons ⟨.text type, listsTexts_text s⟩ .nil)
  exact parse_eq_ok.2 ⟨.inr ⟨_, rfl, by simp [names]⟩, .missing, .missing, .given hentry, .missing,
    .missing, .missing⟩

/-- Sort keys are read alike unless they stop at an empty piece with no dash alone after it. -/
theorem sort_parsed_iff :
    SortKeys.read? (.text s) =
        (parse (.ofFields [("sort", .text s)]) >>= fun p => SortKeys.read? (textsValue p.sort)) ↔
      s = "" ∨ ∀ after, StopsAtEmpty SortKeys.pathOf (splitAt ',' s) after →
        after.find? (· ≠ "") = some "-" := by
  rw [parse_sort]
  show _ = SortKeys.read? (textsValue (splitNonempty ',' s)) ↔ _
  rw [SortKeys.read?_text, SortKeys.read?_textsValue]
  by_cases hs : s = ""
  · subst hs
    exact iff_of_true rfl (.inl rfl)
  · rw [if_neg hs, or_iff_right hs, SortKeys.readItems?_texts, SortKeys.readItems?_texts,
      splitNonempty, readPaths_filter_iff SortKeys.pathOf_empty SortKeys.injective_itemPath]
    refine forall₂_congr fun after _ => ⟨?_, fun h => ⟨"-", h, rfl⟩⟩
    rintro ⟨next, hnext, hpath⟩
    have hne : next ≠ "" := by simpa using List.find?_some hnext
    rwa [(SortKeys.pathOf_eq_empty hne).1 hpath] at hnext

/-- Relations are read alike unless they stop at an empty piece. -/
theorem include_parsed_iff :
    Include.read? (.text s) =
        (parse (.ofFields [("include", .text s)]) >>= fun p => Include.read? (.list p.includes)) ↔
      s = "" ∨ ∀ after, ¬StopsAtEmpty id (splitAt ',' s) after := by
  rw [parse_include]
  show _ = Include.read? (.list ((splitNonempty ',' s).map .text)) ↔ _
  rw [Include.read?_text, Include.read?_list]
  by_cases hs : s = ""
  · subst hs
    exact iff_of_true rfl (.inl rfl)
  · rw [if_neg hs, or_iff_right hs, Include.readEntries?_texts, Include.readEntries?_texts,
      splitNonempty, readPaths_filter_iff (id_eq "") Include.injective_entryPath]
    refine forall₂_congr fun after _ => ⟨?_, False.elim⟩
    rintro ⟨next, hnext, hpath⟩
    exact absurd hpath (by simpa using List.find?_some hnext)

/-- **Names in one text.** The fields of a type and those of a group are read alike from a text as
it is and from what it is parsed as. So are sort keys, unless the first piece of the text that holds
no path is empty and the next one that is not empty is no dash alone, and relations, unless the
first piece that is no path is empty. -/
theorem comma_text_read :
    (Fields.read? (.ofFields [(type, .text s)]) =
      (parse (.ofFields [("fields", .ofFields [(type, .text s)])])).lift >>= fun p =>
        Fields.read? p.fieldsValue) ∧
    (Group.read? (.text s) =
      parse (.ofFields [("group", .text s)]) >>= fun p => Group.read? (textsValue p.group)) ∧
    (SortKeys.read? (.text s) =
        (parse (.ofFields [("sort", .text s)]) >>= fun p => SortKeys.read? (textsValue p.sort)) ↔
      s = "" ∨ ∀ after, StopsAtEmpty SortKeys.pathOf (splitAt ',' s) after →
        after.find? (· ≠ "") = some "-") ∧
    (Include.read? (.text s) =
        (parse (.ofFields [("include", .text s)]) >>= fun p => Include.read? (.list p.includes)) ↔
      s = "" ∨ ∀ after, ¬StopsAtEmpty id (splitAt ',' s) after) := by
  have hnames := empty_not_mem_splitNonempty s
  refine ⟨?_, ?_, sort_parsed_iff s, include_parsed_iff s⟩
  · rw [parse_fields, Fields.read?_text]
    exact ((Fields.read?_fieldsValue { fields := [(type, splitNonempty ',' s)] }).2
      ⟨by simpa using hnames, rfl⟩).symm
  · rw [parse_group, Group.read?_text]
    exact (Group.read?_textsValue.2 ⟨hnames, rfl⟩).symm

end Parameters

namespace Sample

/-- With a comma at the end, sort keys and relations are refused when the text is read as it is, and
read when it is parsed. -/
theorem trailing_comma_refused :
    SortKeys.read? (.text "name,") = .error ⟨.noName (quoted ""), some "sort.1"⟩ ∧
    (Parameters.parse (.ofFields [("sort", .text "name,")]) >>= fun p =>
      SortKeys.read? (Parameters.textsValue p.sort)) = .ok [⟨⟨[], "name"⟩, false⟩] ∧
    Include.read? (.text "pets,") = .error ⟨.noName (quoted ""), some "include.1"⟩ ∧
    (Parameters.parse (.ofFields [("include", .text "pets,")]) >>= fun p =>
      Include.read? (.list p.includes)) = .ok [⟨["pets"], none⟩] :=
  ⟨rfl, rfl, rfl, rfl⟩

end Sample

end ResourceQuery
