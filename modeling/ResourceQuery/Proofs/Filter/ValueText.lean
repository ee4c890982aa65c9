import ResourceQuery.Proofs.Filter.Grammar

/-!
# Value lists as texts

Which lists of values can be written as one text with commas, and what a text says about the values
that are read from it.

* `ValueList.exists_read_iff`: the lists that some text stands for, and the text that is written for
  each of them;
* `ValueList.IsSeparator`, `ValueList.IsEscape`: the commas of a text that separate, and the
  backslashes that keep a comma from that;
* `ValueList.joinWith_read`: the values of a text hold all of it but these backslashes.

A part is cut off while its commas are still escaped. So every lemma on `cut` is about a text after
some character, which is all that the cut knows of what stands before.
-/

namespace ResourceQuery

namespace ValueList

open Text

variable {c : Char} {text : List Char}

/-! ## Cutting -/

@[simp] theorem prepend_cons (c : Char) (part : List Char) (parts : List (List Char)) :
    prepend c (part :: parts) = (c :: part) :: parts := rfl

theorem exists_cut_eq_cons (escaped : Bool) (text : List Char) :
    ∃ part parts, cut escaped text = part :: parts := by
  cases text with
  | nil => exact ⟨[], [], rfl⟩
  | cons d rest =>
    rw [cut]
    split
    · exact ⟨[], _, rfl⟩
    · cases cut (d == '\\') rest with
      | nil => exact ⟨[d], [], rfl⟩
      | cons part parts => exact ⟨d :: part, parts, rfl⟩

theorem cut_comma (h : c ≠ '\\') (rest : List Char) :
    cut (c == '\\') (',' :: rest) = [] :: cut (',' == '\\') rest := by
  simp [cut, h]

theorem cut_cons {d : Char} (h : d = ',' → c = '\\') (rest : List Char) :
    cut (c == '\\') (d :: rest) = prepend d (cut (d == '\\') rest) := by
  rw [cut, if_neg]
  rintro ⟨hd, hc⟩
  simp [h hd] at hc

/-- After a backslash no comma separates, so the first part starts as the text does. -/
theorem exists_cut_backslash (text : List Char) :
    ∃ part parts, cut true text = part :: parts ∧ part.head? = text.head? := by
  cases text with
  | nil => exact ⟨[], [], rfl, rfl⟩
  | cons d rest =>
    obtain ⟨part, parts, h⟩ := exists_cut_eq_cons (d == '\\') rest
    exact ⟨d :: part, parts, by simp [cut, h], rfl⟩

/-! ## Escapes -/

/-- A backslash is dropped when a comma follows it, and every other character is kept. -/
theorem unescape_cons (c : Char) (rest : List Char) :
    unescape (c :: rest) =
      if c = '\\' ∧ rest.head? = some ',' then unescape rest else c :: unescape rest := by
  cases rest with
  | nil => simp [unescape]
  | cons d rest =>
    have hcomma : unescape (',' :: rest) = ',' :: unescape rest := by
      cases rest <;> simp [unescape]
    simp only [unescape, List.head?_cons, Option.some_inj]
    split
    · next h => rw [h.2, hcomma]
    · rfl

theorem getLast?_unescape (text : List Char) : (unescape text).getLast? = text.getLast? := by
  induction text with
  | nil => rfl
  | cons c rest ih =>
    rw [unescape_cons]
    split
    · next h =>
      obtain ⟨rest, rfl⟩ := List.head?_eq_some_iff.1 h.2
      rw [ih, List.getLast?_cons_cons]
    · rw [List.getLast?_cons, List.getLast?_cons, ih]

theorem head?_escape_ne (text : List Char) : (escape text).head? ≠ some ',' := by
  cases text with
  | nil => simp [escape]
  | cons c rest =>
    rw [escape]
    split
    · simp
    · next h => simpa using h

theorem unescape_escape (text : List Char) : unescape (escape text) = text := by
  induction text with
  | nil => rfl
  | cons c rest ih =>
    rw [escape]
    split
    · next h => simp [unescape_cons, ih, h]
    · rw [unescape_cons, if_neg fun h => head?_escape_ne rest h.2, ih]

/-! ## What a text holds -/

/-- Whether the comma at a place of a text separates: there is one, and no backslash right before
it. -/
def IsSeparator (text : List Char) (i : ℕ) : Prop :=
  text[i]? = some ',' ∧ ∀ j, i = j + 1 → text[j]? ≠ some '\\'

/-- Whether the character at a place of a text is a backslash right before a comma. -/
def IsEscape (text : List Char) (i : ℕ) : Prop :=
  text[i]? = some '\\' ∧ text[i + 1]? = some ','

instance (text : List Char) : DecidablePred (IsSeparator text)
  | 0 => decidable_of_iff (text[0]? = some ',') (by simp [IsSeparator])
  | i + 1 => decidable_of_iff (text[i + 1]? = some ',' ∧ text[i]? ≠ some '\\')
      (by simp [IsSeparator])

instance (text : List Char) : DecidablePred (IsEscape text) :=
  fun _ => instDecidableAnd

/-- The characters of a text at the places that are no escapes, in their order. -/
def withoutEscapes (text : List Char) : List Char :=
  ((List.range text.length).filter (¬IsEscape text ·)).filterMap (text[·]?)

theorem isSeparator_succ (c : Char) (text : List Char) (i : ℕ) :
    IsSeparator (c :: text) (i + 1) ↔ text[i]? = some ',' ∧ (c :: text)[i]? ≠ some '\\' := by
  simp [IsSeparator]

theorem length_prepend (c : Char) (escaped : Bool) (text : List Char) :
    (prepend c (cut escaped text)).length = (cut escaped text).length := by
  obtain ⟨part, parts, h⟩ := exists_cut_eq_cons escaped text
  rw [h]
  rfl

/-- After a character a text has one more part than commas that separate. -/
theorem length_cut (c : Char) (text : List Char) :
    (cut (c == '\\') text).length =
      (List.range text.length).countP (fun i => IsSeparator (c :: text) (i + 1)) + 1 := by
  induction text generalizing c with
  | nil => rfl
  | cons d rest ih =>
    have hshift (i : ℕ) :
        IsSeparator (c :: d :: rest) (i + 1 + 1) ↔ IsSeparator (d :: rest) (i + 1) := by
      rw [isSeparator_succ, isSeparator_succ]
      rfl
    have hfirst : IsSeparator (c :: d :: rest) (0 + 1) ↔ d = ',' ∧ c ≠ '\\' := by
      simp [isSeparator_succ]
    rw [List.length_cons, List.range_succ_eq_map, List.countP_cons, List.countP_map]
    simp only [Function.comp_def, Nat.succ_eq_add_one, hshift, hfirst]
    by_cases h : d = ',' → c = '\\'
    · rw [cut_cons h, length_prepend, ih d, if_neg (by simpa using h)]
    · obtain ⟨rfl, hc⟩ := Classical.not_imp.1 h
      rw [cut_comma hc, List.length_cons, ih ',', if_pos (by simpa using hc)]

theorem length_read (text : String) :
    (read text).length =
      (List.range text.toList.length).countP (IsSeparator text.toList ·) + 1 := by
  have hspace : ∀ i, IsSeparator (' ' :: text.toList) (i + 1) ↔ IsSeparator text.toList i := by
    intro i
    rw [isSeparator_succ]
    cases i <;> simp [IsSeparator]
  have hlength := length_cut ' ' text.toList
  simp only [hspace] at hlength
  rw [read, List.length_map]
  exact hlength

theorem withoutEscapes_cons (c : Char) (rest : List Char) :
    withoutEscapes (c :: rest) =
      if c = '\\' ∧ rest.head? = some ',' then withoutEscapes rest
      else c :: withoutEscapes rest := by
  have hshift : ∀ i, IsEscape (c :: rest) (i + 1) ↔ IsEscape rest i := fun _ => Iff.rfl
  have hfirst : IsEscape (c :: rest) 0 ↔ c = '\\' ∧ rest.head? = some ',' := by
    simp [IsEscape, List.head?_eq_getElem?]
  have hrest : (((List.range rest.length).map Nat.succ).filter (¬IsEscape (c :: rest) ·)).filterMap
      ((c :: rest)[·]?) = withoutEscapes rest := by
    rw [List.filter_map, List.filterMap_map]
    rfl
  rw [withoutEscapes, List.length_cons, List.range_succ_eq_map, List.filter_cons]
  simp only [hfirst, decide_not, Bool.not_eq_true', decide_eq_false_iff_not, ite_not]
  split
  · simpa using hrest
  · rw [List.filterMap_cons]
    simpa using hrest

theorem withoutEscapes_eq (text : List Char) : withoutEscapes text = unescape text := by
  induction text with
  | nil => rfl
  | cons c rest ih => rw [withoutEscapes_cons, unescape_cons, ih]

/-- Escapes that are dropped part by part are dropped in the whole text: a comma and the backslash
before it are never in different parts. -/
theorem joined_unescape_cut (c : Char) (text : List Char) :
    joined ',' ((cut (c == '\\') text).map unescape) = unescape text := by
  induction text generalizing c with
  | nil => rfl
  | cons d rest ih =>
    obtain ⟨part, parts, hcut⟩ := exists_cut_eq_cons (d == '\\') rest
    have hrest := ih d
    rw [hcut, List.map_cons] at hrest
    by_cases h : d = ',' → c = '\\'
    · have hhead : d = '\\' ∧ part.head? = some ',' ↔ d = '\\' ∧ rest.head? = some ',' := by
        refine and_congr_right ?_
        rintro rfl
        obtain ⟨part', parts', hcut', hhead⟩ := exists_cut_backslash rest
        obtain ⟨rfl, -⟩ := List.cons.inj (hcut.symm.trans hcut')
        rw [hhead]
      rw [cut_cons h, hcut, prepend_cons, List.map_cons, unescape_cons, unescape_cons]
      simp only [hhead]
      split
      · exact hrest
      · rw [joined_cons_cons, hrest]
    · obtain ⟨rfl, hc⟩ := Classical.not_imp.1 h
      rw [cut_comma hc, hcut, unescape_cons, if_neg (fun h => absurd h.1 (by decide)), ← hrest]
      rfl

/-- **A text loses nothing but its escapes.** The values of a text are one more than its commas that
separate, and with commas between them they are the text without the backslash right before each of
its commas that has one. -/
theorem joinWith_read (text : String) :
    (read text).length =
        (List.range text.toList.length).countP (IsSeparator text.toList ·) + 1 ∧
      joinWith ',' (read text) = String.ofList (withoutEscapes text.toList) := by
  refine ⟨length_read text, ?_⟩
  have hjoined := joined_unescape_cut ' ' text.toList
  rw [joinWith, read, List.map_map, withoutEscapes_eq, ← hjoined]
  congr 2
  refine List.map_congr_left fun part _ => ?_
  rw [Function.comp_apply, String.toList_ofList]

example : joinWith ',' (read "a\\,,b\\\\,\\c,") = "a,,b\\,\\c," := by decide

/-! ## Written values -/

/-- A written value is not cut inside. -/
theorem cut_escape_append {tail part : List Char} {parts : List (List Char)}
    (h : cut (text.getLast?.getD c == '\\') tail = part :: parts) :
    cut (c == '\\') (escape text ++ tail) = (escape text ++ part) :: parts := by
  induction text generalizing c with
  | nil => exact h
  | cons d text ih =>
    rw [List.getLast?_cons, Option.getD_some] at h
    rw [escape]
    split
    · next hd =>
      subst hd
      rw [List.cons_append, List.cons_append, cut_cons (fun h => absurd h (by decide)),
        cut_cons (fun _ => rfl), ih h]
      rfl
    · next hd =>
      rw [List.cons_append, cut_cons (fun h => absurd h hd), ih h]
      rfl

/-- Written values are cut where they were joined. -/
theorem cut_joined {values : List (List Char)} (hne : values ≠ [])
    (h : ∀ v ∈ values.dropLast, v.getLast? ≠ some '\\') :
    cut false (joined ',' (values.map escape)) = values.map escape := by
  induction values with
  | nil => exact absurd rfl hne
  | cons v values ih =>
    cases values with
    | nil =>
      have hend : cut (v.getLast?.getD ' ' == '\\') [] = [[]] := rfl
      simpa [joined] using cut_escape_append hend
    | cons w values =>
      rw [List.dropLast_cons_cons, List.forall_mem_cons] at h
      have hlast : v.getLast?.getD ' ' ≠ '\\' := by
        cases hv : v.getLast? with
        | none => decide
        | some last => simpa [hv] using h.1
      have hcut := cut_escape_append (cut_comma hlast (joined ',' ((w :: values).map escape)))
      rw [List.append_nil] at hcut
      rw [List.map_cons, List.map_cons, joined, ← List.map_cons]
      exact hcut.trans (congrArg _ (ih (List.cons_ne_nil w values) h.2))

theorem read_write {values : List String} (hne : values ≠ [])
    (h : ∀ v ∈ values.dropLast, v.toList.getLast? ≠ some '\\') : read (write values) = values := by
  have hparts : ∀ v ∈ (values.map String.toList).dropLast, v.getLast? ≠ some '\\' := by
    rw [← List.map_dropLast, List.forall_mem_map]
    exact h
  have hcut := cut_joined (List.map_eq_nil_iff.not.2 hne) hparts
  rw [List.map_map] at hcut
  rw [read, write, String.toList_ofList]
  change (cut false (joined ',' (values.map (escape ∘ String.toList)))).map _ = values
  rw [hcut, List.map_map]
  refine (List.map_congr_left fun v _ => ?_).trans (List.map_id values)
  simp [unescape_escape]

/-! ## Values that are read -/

theorem getLast?_ne_of_mem_prepend {parts : List (List Char)}
    (h : ∀ part ∈ (prepend c parts).dropLast, part.getLast? ≠ some '\\') :
    ∀ part ∈ parts.dropLast, part.getLast? ≠ some '\\' := by
  match parts, h with
  | [], _ => simp
  | [_], _ => simp
  | part :: next :: parts, h =>
    rw [prepend_cons, List.dropLast_cons_cons, List.forall_mem_cons] at h
    rw [List.dropLast_cons_cons, List.forall_mem_cons]
    refine ⟨?_, h.2⟩
    cases part with
    | nil => simp
    | cons d part =>
      rw [← List.getLast?_cons_cons (a := c)]
      exact h.1

/-- Only the last part can end with a backslash: a comma after one does not separate. -/
theorem getLast?_ne_of_mem_cut (c : Char) (text : List Char) :
    ∀ part ∈ (prepend c (cut (c == '\\') text)).dropLast, part.getLast? ≠ some '\\' := by
  induction text generalizing c with
  | nil => simp [cut]
  | cons d rest ih =>
    have hrest := ih d
    obtain ⟨part, parts, hcut⟩ := exists_cut_eq_cons (d == '\\') rest
    by_cases h : d = ',' → c = '\\'
    · rw [hcut, prepend_cons] at hrest
      rw [cut_cons h, hcut, prepend_cons, prepend_cons]
      cases parts with
      | nil => simp
      | cons next parts =>
        rw [List.dropLast_cons_cons, List.forall_mem_cons] at hrest ⊢
        exact ⟨by rw [List.getLast?_cons_cons]; exact hrest.1, hrest.2⟩
    · obtain ⟨rfl, hc⟩ := Classical.not_imp.1 h
      rw [cut_comma hc, prepend_cons, hcut, List.dropLast_cons_cons, List.forall_mem_cons, ← hcut]
      exact ⟨by simpa using hc, getLast?_ne_of_mem_prepend hrest⟩

theorem getLast?_ne_of_mem_read (text : String) :
    ∀ v ∈ (read text).dropLast, v.toList.getLast? ≠ some '\\' := by
  rw [read, ← List.map_dropLast, List.forall_mem_map]
  intro part hpart
  rw [String.toList_ofList, getLast?_unescape]
  exact getLast?_ne_of_mem_prepend (getLast?_ne_of_mem_cut ' ' text.toList) part hpart

/-! ## Texts and lists -/

/-- Values in another form with the same tokens make the same clause. -/
theorem read?_congr {raw raw' : Value} (hmap : raw.isMap = raw'.isMap)
    (htokens : ofValue raw = ofValue raw') (operator : FilterOperator) (source : String)
    (key : Value) :
    FilterClause.read? operator source key raw = FilterClause.read? operator source key raw' := by
  rw [FilterClause.read?, FilterClause.read?, hmap]
  simp only [FilterClause.readValues?, htokens]

/-- **The lists of values that are texts.** Some text stands for a list of texts exactly when no
element but the last ends with a backslash. Then the written list is such a text, and below every
key and every operator it makes the clause that the list makes. -/
theorem exists_read_iff {values : List String} (hne : values ≠ []) :
    ((∃ text, read text = values) ↔
      ∀ v ∈ values.dropLast, v.toList.getLast? ≠ some '\\') ∧
    ((∀ v ∈ values.dropLast, v.toList.getLast? ≠ some '\\') → read (write values) = values ∧
      ∀ operator source key,
        FilterClause.read? operator source key (.text (write values)) =
          FilterClause.read? operator source key (.list (values.map .text)) ∧
        ∀ path, FieldPath.readValue? key (some source) = .ok path →
          (operator.isOrdering = true → values.length = 1) →
          FilterClause.read? operator source key (.text (write values)) =
            .ok ⟨operator, path, values.map fun v => FilterClause.interpret (.text v)⟩) := by
  refine ⟨⟨?_, fun h => ⟨write values, read_write hne h⟩⟩, fun h => ?_⟩
  · rintro ⟨text, rfl⟩
    exact getLast?_ne_of_mem_read text
  · have hread := read_write hne h
    have hmap : (Value.text (write values)).isMap = (Value.list (values.map .text)).isMap := rfl
    have htokens : ofValue (.text (write values)) = values.map .text := by rw [ofValue, hread]
    refine ⟨hread, fun operator source key =>
      ⟨read?_congr hmap htokens operator source key, fun path hpath hsingle => ?_⟩⟩
    have hvalues : FilterClause.readValues? operator (source ++ "." ++ key.plain)
        (.text (write values)) = .ok ((values.map .text).map FilterClause.interpret) := by
      refine FilterClause.readValues?_eq_ok_iff.2 ?_
      rw [htokens]
      refine ⟨by simp [FilterClause.isScalar], by simpa using hne, ?_, rfl⟩
      rwa [List.length_map]
    rw [List.map_map] at hvalues
    rw [FilterClause.read?, hpath]
    exact bind_eq_ok.2 ⟨_, rfl, bind_eq_ok.2 ⟨_, hvalues, rfl⟩⟩

end ValueList

namespace Sample

/-- Labels with a comma, without a character, with a backslash before a comma, and with one at the
end. -/
def oddLabels : List String := ["10,5", "", "c:\\,d", "e\\"]

theorem read_oddLabels :
    (∀ v ∈ oddLabels.dropLast, v.toList.getLast? ≠ some '\\') ∧
      ValueList.write oddLabels = "10\\,5,,c:\\\\,d,e\\" ∧
      ValueList.read (ValueList.write oddLabels) = oddLabels ∧
      FilterClause.read? .not "filter.not" (.text "label") (.text (ValueList.write oddLabels)) =
        .ok ⟨.not, ⟨[], "label"⟩, oddLabels.map .text⟩ ∧
      ¬∃ text, ValueList.read text = ["e\\", "f"] := by
  have hends : ∀ v ∈ oddLabels.dropLast, v.toList.getLast? ≠ some '\\' := by decide
  obtain ⟨-, hwritten⟩ := ValueList.exists_read_iff (by decide : oddLabels ≠ [])
  obtain ⟨hread, hclause⟩ := hwritten hends
  obtain ⟨-, hclause⟩ := hclause .not "filter.not" (.text "label")
  refine ⟨hends, by decide, hread, hclause ⟨[], "label"⟩ rfl nofun, ?_⟩
  rw [(ValueList.exists_read_iff (List.cons_ne_nil "e\\" ["f"])).1]
  decide

end Sample

end ResourceQuery
