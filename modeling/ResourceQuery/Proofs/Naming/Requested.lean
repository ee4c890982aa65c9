import ResourceQuery.Proofs.Naming.Words

/-!
# Requested names that come back

A requested name is stored as its words with underscores between them, and comes back as these words
told apart by capitals. It comes back unchanged when each of its capitals begins a word after
another one; a capital at the front does not, nor one between capitals.

* `CapitalsBegin`: whether every capital begins a word, given what stands before;
* `recased`: what comes back after a character;
* `camelCase_snakeCase_ofList`: what comes back for a name;
* `capitalsBegin_camelCase`: every capital of this begins a word;
* `camelCase_snakeCase_iff`: the names that come back unchanged.
-/

namespace ResourceQuery

open Text

/-- Whether every capital of some characters begins a word, given the characters before them. -/
def CapitalsBegin (front chars : List Char) : Prop :=
  ∀ before c after, chars = before ++ c :: after → isUpperLetter c →
    ∃ b ∈ (front ++ before).getLast?, WordEnds b after

/-- The characters after another one, of which the capitals that begin no word are small. -/
def recased (before : Char) : List Char → List Char
  | [] => []
  | c :: rest => (if breaksBetween before c rest then c else c.toLower) :: recased c rest

section Recased

variable {front chars rest : List Char} {b c : Char}

theorem capitalsBegin_nil : CapitalsBegin front [] := by
  intro before c after h
  simp at h

theorem capitalsBegin_cons : CapitalsBegin front (c :: rest) ↔
    (isUpperLetter c → ∃ b ∈ front.getLast?, WordEnds b rest) ∧
      CapitalsBegin (front ++ [c]) rest := by
  constructor
  · intro h
    refine ⟨fun hupper => ?_, fun before d after heq hupper => ?_⟩
    · simpa using h [] c rest rfl hupper
    · simpa using h (c :: before) d after (congrArg _ heq) hupper
  · rintro ⟨hfirst, hothers⟩ before d after heq hupper
    cases before with
    | nil =>
      obtain ⟨rfl, rfl⟩ := List.cons.inj heq
      simpa using hfirst hupper
    | cons e before =>
      obtain ⟨rfl, rfl⟩ := List.cons.inj heq
      simpa using hothers before d after rfl hupper

/-- Nothing is changed when all capitals begin words. -/
theorem recased_eq_self_iff (hfront : front.getLast? = some b) :
    recased b chars = chars ↔ CapitalsBegin front chars := by
  induction chars generalizing b front with
  | nil => exact iff_of_true rfl capitalsBegin_nil
  | cons c rest ih =>
    have hc : (if breaksBetween b c rest then c else c.toLower) = c ↔
        (isUpperLetter c → WordEnds b rest) := by
      split
      · next hbreak => simp [(breaksBetween_iff.1 hbreak).2]
      · next hbreak =>
        rw [breaksBetween_iff, not_and] at hbreak
        rw [toLower_eq_self_iff]
        exact forall_congr' fun hupper => iff_of_false id (hbreak hupper)
    have hrest := @ih (front ++ [c]) c List.getLast?_concat
    rw [recased, List.cons.injEq, hc, capitalsBegin_cons, hfront, hrest]
    simp only [Option.mem_some_iff, exists_eq_left']

/-- A word ends where it did when the capitals that begin no word are small. -/
theorem wordEnds_recased (c : Char) (h : WordEnds b chars) : WordEnds b (recased c chars) := by
  refine h.imp_right (And.imp_right ?_)
  rintro ⟨d, hd, hlower⟩
  cases chars with
  | nil => cases hd
  | cons e rest =>
    obtain rfl := Option.some.inj hd
    refine ⟨e, congrArg some ?_, hlower⟩
    rw [toLower_of_not_upper (not_upper_of_lower hlower), ite_self]

/-- What is left of the capitals begins words. The character before may have become small too. -/
theorem capitalsBegin_recased (hb : IsNameChar b)
    (hfront : front.getLast? = some b ∨ front.getLast? = some b.toLower)
    (h : ∀ c ∈ chars, IsNameChar c) : CapitalsBegin front (recased b chars) := by
  induction chars generalizing b front with
  | nil => exact capitalsBegin_nil
  | cons c rest ih =>
    rw [List.forall_mem_cons] at h
    rw [recased, capitalsBegin_cons]
    refine ⟨fun hupper => ?_, ih h.1 ?_ h.2⟩
    · split at hupper
      · next hbreak =>
        have hends := wordEnds_recased c (breaksBetween_iff.1 hbreak).2
        rcases hfront with hfront | hfront
        · exact ⟨b, hfront, hends⟩
        · exact ⟨b.toLower, hfront, .inl hb.toLower⟩
      · exact absurd hupper h.1.toLower.not_upper
    · split
      · exact .inl List.getLast?_concat
      · exact .inr List.getLast?_concat

/-- The words of a name joined again: its first character is small, and so are the capitals that
begin no word. -/
theorem joinWords_separateWords (h : ∀ d ∈ c :: chars, IsNameChar d) :
    joinWords ((separateWords (c :: chars)).map Char.toLower) = c.toLower :: recased c chars := by
  induction chars generalizing c with
  | nil =>
    rw [List.forall_mem_singleton] at h
    exact joinWords_cons h.toLower.isNameChar.ne_underscore []
  | cons d rest ih =>
    rw [List.forall_mem_cons] at h
    have hd := (List.forall_mem_cons.1 h.2).1
    have hne : d.toLower ≠ '_' := hd.toLower.isNameChar.ne_underscore
    have hrest := ih h.2
    rw [separateWords_cons c, List.map_cons,
      joinWords_cons h.1.toLower.isNameChar.ne_underscore, wordGap, recased]
    split
    · next hbreak =>
      have hupper : isUpperLetter d := (breaksBetween_iff.1 hbreak).1
      rw [separateWords_cons d, List.map_cons, joinWords_cons hne] at hrest
      rw [separateWords_cons d, List.singleton_append, List.map_cons, List.map_cons,
        show Char.toLower '_' = '_' from rfl, joinWords_underscore hne, (List.cons.inj hrest).2,
        upperChar_eq hd.toLower.isNameChar.toNat_lt, Char.toUpper_toLower_eq_toUpper,
        toUpper_of_upper hupper, List.singleton_append]
    · rw [List.nil_append, hrest]

/-- Digits at the end change nothing before them. -/
theorem recased_append {digits : List Char} (hdigits : ∀ d ∈ digits, isDigitLetter d) :
    recased b (chars ++ digits) = recased b chars ++ digits := by
  have hnext : ∀ d ∈ digits.head?, ¬isLowerLetter d := fun d hd =>
    not_lower_of_digit (hdigits d (List.mem_of_mem_head? hd))
  induction chars generalizing b with
  | nil =>
    have hfront : [b].getLast? = some b := rfl
    refine (recased_eq_self_iff hfront).2 fun before d after h hupper => ?_
    rw [List.nil_append] at h
    have hsmall : IsSmall d := .inr (hdigits d (h ▸ List.mem_append_cons_self))
    exact absurd hupper hsmall.not_upper
  | cons c rest ih =>
    rw [List.cons_append, recased, recased, breaksBetween_append hnext, ih, List.cons_append]

end Recased

/-! ## Names -/

section Names

variable {c : Char} {chars : List Char} {name : String}

theorem not_underscore_of_mem_head? (h : IsNameChar c) :
    ∀ d ∈ ((separateWords (c :: chars)).map Char.toLower).head?, ¬isUnderscore d := by
  rw [separateWords_cons]
  rintro _ ⟨⟩
  exact h.toLower.isNameChar.not_underscore

/-- What comes back for a name. -/
theorem camelCase_snakeCase_ofList (h : ∀ d ∈ c :: chars, IsNameChar d) :
    camelCase (snakeCase (String.ofList (c :: chars))) =
      String.ofList (c.toLower :: recased c chars) := by
  have hlast : ∀ d ∈ ((separateWords (c :: chars)).map Char.toLower).getLast?,
      ¬isUnderscore d := by
    rw [List.getLast?_map, getLast?_separateWords]
    intro d hd
    obtain ⟨e, he, rfl⟩ := Option.mem_map.1 hd
    exact (h e (List.mem_of_mem_getLast? he)).toLower.isNameChar.not_underscore
  rw [snakeCase_ofList fun d hd => .inr (h d hd), camelCase_ofList (by simp [separateWords_cons])
    (not_underscore_of_mem_head? (h c (List.mem_cons_self ..))) hlast, joinWords_separateWords h]

/-- All capitals of what comes back begin words. -/
theorem capitalsBegin_camelCase (h : ∀ d ∈ name.toList, IsNameChar d) :
    CapitalsBegin [] (camelCase (snakeCase name)).toList := by
  obtain ⟨chars, rfl⟩ : ∃ chars, name = String.ofList chars := ⟨_, String.ofList_toList.symm⟩
  rw [String.toList_ofList] at h
  cases chars with
  | nil => exact capitalsBegin_nil
  | cons c chars =>
    have hc := List.forall_mem_cons.1 h
    rw [camelCase_snakeCase_ofList h, String.toList_ofList, capitalsBegin_cons]
    exact ⟨fun hupper => absurd hupper hc.1.toLower.not_upper,
      capitalsBegin_recased hc.1 (.inr rfl) hc.2⟩

/-- A name comes back unchanged when all its capitals begin words. -/
theorem camelCase_snakeCase_iff (h : ∀ d ∈ name.toList, IsNameChar d) :
    camelCase (snakeCase name) = name ↔ CapitalsBegin [] name.toList := by
  obtain ⟨chars, rfl⟩ : ∃ chars, name = String.ofList chars := ⟨_, String.ofList_toList.symm⟩
  rw [String.toList_ofList] at h ⊢
  cases chars with
  | nil => exact iff_of_true (by decide) capitalsBegin_nil
  | cons c chars =>
    have hfirst : c.toLower = c ↔
        (isUpperLetter c → ∃ b ∈ ([] : List Char).getLast?, WordEnds b chars) := by
      simp [toLower_eq_self_iff]
    have hrest : recased c chars = chars ↔ CapitalsBegin ([] ++ [c]) chars :=
      recased_eq_self_iff rfl
    rw [camelCase_snakeCase_ofList h, String.ofList_inj, List.cons.injEq, hfirst, hrest,
      capitalsBegin_cons]

/-- Digits after an underscore stay as they are. -/
theorem camelCase_append_digits {core digits : List Char} (hcore : core ≠ [])
    (hhead : ∀ d ∈ core.head?, ¬isUnderscore d) (hne : digits ≠ [])
    (hdigits : ∀ d ∈ digits, isDigitLetter d) :
    camelCase (String.ofList (core ++ '_' :: digits)) =
      String.ofList (joinWords core ++ digits) := by
  have hchars : ∀ d ∈ digits, IsNameChar d := fun d hd => .inr (.inr (hdigits d hd))
  have hlast : ∀ d ∈ (core ++ '_' :: digits).getLast?, ¬isUnderscore d := by
    rw [List.getLast?_append_of_ne_nil _ (List.cons_ne_nil _ _), List.getLast?_cons_of_ne_nil hne]
    exact fun d hd => (hchars d (List.mem_of_mem_getLast? hd)).not_underscore
  have hcapitalized : capitalized digits = digits := by
    cases digits with
    | nil => rfl
    | cons d rest =>
      have hd := hdigits d (List.mem_cons_self ..)
      rw [capitalized, upperChar_eq (hchars d (List.mem_cons_self ..)).toNat_lt,
        toUpper_of_not_lower (not_lower_of_digit hd), List.singleton_append]
  rw [camelCase_ofList (by simp) (by rwa [List.head?_append_of_ne_nil _ hcore]) hlast,
    joinWords_append, pieces_of_not_mem '_' digits fun h => (hchars _ h).ne_underscore rfl,
    List.flatMap_singleton, hcapitalized]

/-- A number after a stored name comes back as one after the name. -/
theorem camelCase_numbered (hname : name ≠ "") (h : ∀ d ∈ name.toList, IsNameChar d)
    {digits : List Char} (hne : digits ≠ []) (hdigits : ∀ d ∈ digits, isDigitLetter d) :
    camelCase (snakeCase name ++ "_" ++ String.ofList digits) =
      camelCase (snakeCase (name ++ String.ofList digits)) := by
  obtain ⟨chars, rfl⟩ : ∃ chars, name = String.ofList chars := ⟨_, String.ofList_toList.symm⟩
  rw [String.toList_ofList] at h
  cases chars with
  | nil => exact absurd rfl hname
  | cons c chars =>
    have hall : ∀ d ∈ c :: (chars ++ digits), IsNameChar d := by
      rw [← List.cons_append]
      exact fun d hd => (List.mem_append.1 hd).elim (h d) fun hd => .inr (.inr (hdigits d hd))
    have hstored : snakeCase (String.ofList (c :: chars)) ++ "_" ++ String.ofList digits =
        String.ofList ((separateWords (c :: chars)).map Char.toLower ++ '_' :: digits) := by
      rw [snakeCase_ofList fun d hd => .inr (h d hd), ← String.toList_inj]
      simp
    rw [hstored, camelCase_append_digits (by simp [separateWords_cons])
      (not_underscore_of_mem_head? (h c (List.mem_cons_self ..))) hne hdigits,
      joinWords_separateWords h, ← String.ofList_append, List.cons_append, List.cons_append,
      camelCase_snakeCase_ofList hall, recased_append hdigits]

end Names

end ResourceQuery
