import ResourceQuery.Proofs.Naming.Words

/-!
# Stored names that come back

A stored name has words with underscores between them. A request has it with capitals instead, and
reading this puts an underscore before each capital that begins a word. Two things get lost: a digit
has no capital, and no word is seen to end between two capitals unless a small letter comes next. By
induction on the words, an underscore comes back or not depending on the word before it and on the
two characters after it.

* `IsWord`, `storedName`: words, and the names made of them;
* `GapReturns`, `GapsReturn`: whether underscores between words come back;
* `separated_step`: one more word;
* `camelCase_storedName`, `snakeCase_padded`: underscores at the ends stay, in both directions;
* `snakeCase_camelCase_iff`: the names that come back unchanged.
-/

namespace ResourceQuery

open Text

/-- Whether some characters are a word of a stored name. -/
structure IsWord (word : List Char) : Prop where
  ne_nil : word ≠ []
  small : ∀ c ∈ word, IsSmall c

theorem isWord_of_all {word : List Char} (hne : word ≠ []) (h : word.all (IsSmall ·)) :
    IsWord word :=
  ⟨hne, by simpa using h⟩

/-- Words with an underscore between them, and any number of underscores at both ends. -/
def storedName (lead : ℕ) (words : List (List Char)) (trail : ℕ) : String :=
  String.ofList (List.replicate lead '_' ++ joined '_' words ++ List.replicate trail '_')

/-- Whether the underscore between two words comes back: the second one begins with a letter, and
the first one is the first of all, or has more than one character, or a letter comes next. -/
def GapReturns (isFirst : Prop) (before word : List Char) : Prop :=
  (∃ c ∈ word[0]?, isLowerLetter c) ∧
    (isFirst ∨ 2 ≤ before.length ∨ ∃ c ∈ word[1]?, isLowerLetter c)

/-- Whether all underscores between some words come back. -/
def GapsReturn (words : List (List Char)) : Prop :=
  ∀ k before word, words[k]? = some before → words[k + 1]? = some word →
    GapReturns (k = 0) before word

section Gaps

variable {before word : List Char} {words : List (List Char)}

theorem gapsReturn_singleton : GapsReturn [word] := by
  intro k before other _ h
  simp at h

theorem gapsReturn_cons_cons : GapsReturn (before :: word :: words) ↔
    GapReturns True before word ∧ (word :: words).IsChain (GapReturns False) := by
  rw [List.isChain_iff_getElem]
  constructor
  · intro h
    refine ⟨by simpa using h 0 before word rfl rfl, fun k hk => ?_⟩
    have hbefore : (word :: words)[k]? = some (word :: words)[k] := List.getElem?_eq_getElem _
    have hgap := h (k + 1) _ _ hbefore (List.getElem?_eq_getElem hk)
    rwa [eq_false (Nat.succ_ne_zero k)] at hgap
  · rintro ⟨hfirst, hothers⟩ k first second hk hk'
    cases k with
    | zero =>
      obtain rfl := Option.some.inj hk
      obtain rfl := Option.some.inj hk'
      simpa using hfirst
    | succ k =>
      obtain ⟨hlt, rfl⟩ := List.getElem?_eq_some_iff.1 hk'
      obtain ⟨hlt', rfl⟩ := List.getElem?_eq_some_iff.1 hk
      rw [eq_false (Nat.succ_ne_zero k)]
      exact hothers k (Nat.lt_of_succ_lt_succ hlt)

end Gaps

/-! ## Words with capitals -/

section Words

variable {front chars rest back word : List Char} {words : List (List Char)} {b c : Char}

theorem wordGap_of_not_upper (h : ∀ c ∈ chars.head?, ¬isUpperLetter c) : wordGap b chars = [] := by
  cases chars with
  | nil => rfl
  | cons c rest => exact if_neg fun hbreak => h c rfl (breaksBetween_iff.1 hbreak).1

/-- Nothing is put into a text that has capitals at its front only. -/
theorem separateWords_append (htail : ∀ c ∈ front.tail, ¬isUpperLetter c)
    (hlast : front.getLast? = some b) (chars : List Char) :
    separateWords (front ++ chars) = front ++ (wordGap b chars ++ separateWords chars) := by
  induction front with
  | nil => cases hlast
  | cons c rest ih =>
    cases rest with
    | nil =>
      obtain rfl := Option.some.inj hlast
      exact separateWords_cons c chars
    | cons d rest =>
      rw [List.getLast?_cons_cons] at hlast
      rw [List.tail_cons, List.forall_mem_cons] at htail
      have hgap : wordGap c (d :: rest ++ chars) = [] := wordGap_of_not_upper fun e he => by
        obtain rfl := Option.some.inj he
        exact htail.1
      rw [List.cons_append, separateWords_cons, hgap, List.nil_append, ih htail.2 hlast]
      rfl

theorem map_toLower (h : ∀ c ∈ chars, IsSmall c) : chars.map Char.toLower = chars :=
  (List.map_congr_left fun c hc => toLower_of_not_upper (h c hc).not_upper).trans (List.map_id' _)

/-- An underscore is put between two words when the first one ends before a capital. -/
theorem separated_cons_iff (htail : ∀ c ∈ front.tail, ¬isUpperLetter c)
    (hlast : front.getLast? = some b) (hc : IsSmall c) :
    (separateWords (front ++ c.toUpper :: rest)).map Char.toLower =
        front.map Char.toLower ++ '_' :: back ↔
      (isLowerLetter c ∧ WordEnds b rest) ∧
        (separateWords (c.toUpper :: rest)).map Char.toLower = back := by
  have hbreak : breaksBetween b c.toUpper rest ↔ isLowerLetter c ∧ WordEnds b rest := by
    rw [breaksBetween_iff, hc.upper_toUpper_iff]
  rw [separateWords_append htail hlast, List.map_append, List.append_right_inj, wordGap, ← hbreak]
  split
  · next hends =>
    rw [List.singleton_append, List.map_cons, List.cons.injEq]
    simp [hends]
  · next hends =>
    -- the next character is that of the word, and no underscore
    rw [List.nil_append, separateWords_cons, List.map_cons, hc.toLower_toUpper, List.cons.injEq]
    simp [hends, hc.isNameChar.ne_underscore]

theorem capitalized_cons (hc : IsSmall c) (rest : List Char) :
    capitalized (c :: rest) = c.toUpper :: rest := by
  rw [capitalized, upperChar_eq hc.isNameChar.toNat_lt, List.singleton_append]

/-- What follows a word does not begin with a small letter. -/
theorem not_lower_of_mem_head? (h : ∀ word ∈ words, IsWord word) :
    ∀ c ∈ (words.flatMap capitalized).head?, ¬isLowerLetter c := by
  cases words with
  | nil => exact nofun
  | cons word words =>
    obtain ⟨hne, hsmall⟩ := h word (List.mem_cons_self ..)
    cases word with
    | nil => exact absurd rfl hne
    | cons c word =>
      rw [List.flatMap_cons, capitalized_cons (hsmall c (List.mem_cons_self ..))]
      rintro _ ⟨⟩
      rw [isLowerLetter_eq, Char.isLower_toUpper_eq_false]
      exact Bool.false_ne_true

/-- One more word: its underscore is put before it, and then all others before theirs. -/
theorem separated_step (htail : ∀ c ∈ front.tail, ¬isUpperLetter c)
    (hlast : front.getLast? = some b) (hword : IsWord word)
    (hwords : ∀ word ∈ words, IsWord word) :
    (separateWords (front ++ (word :: words).flatMap capitalized)).map Char.toLower =
        front.map Char.toLower ++ (word :: words).flatMap ('_' :: ·) ↔
      ((∃ c ∈ word[0]?, isLowerLetter c) ∧
        (IsSmall b ∨ isUpperLetter b ∧ ∃ c ∈ word[1]?, isLowerLetter c)) ∧
      (separateWords (capitalized word ++ words.flatMap capitalized)).map Char.toLower =
        word ++ words.flatMap ('_' :: ·) := by
  obtain ⟨hne, hsmall⟩ := hword
  cases word with
  | nil => exact absurd rfl hne
  | cons c rest =>
    have hc := hsmall c (List.mem_cons_self ..)
    rw [List.flatMap_cons, List.flatMap_cons, capitalized_cons hc, List.cons_append,
      List.cons_append, separated_cons_iff htail hlast hc,
      wordEnds_append (not_lower_of_mem_head? hwords), WordEnds, List.head?_eq_getElem?]
    simp

theorem not_upper_of_mem_tail (hword : IsWord word) : ∀ c ∈ word.tail, ¬isUpperLetter c :=
  fun c hc => (hword.small c (List.mem_of_mem_tail hc)).not_upper

theorem not_upper_of_mem_tail_capitalized (hword : IsWord word) :
    ∀ c ∈ (capitalized word).tail, ¬isUpperLetter c := by
  cases word with
  | nil => exact absurd rfl hword.ne_nil
  | cons c rest =>
    have htail := not_upper_of_mem_tail hword
    rwa [capitalized_cons (hword.small c (List.mem_cons_self ..))]

theorem map_toLower_capitalized (hword : IsWord word) :
    (capitalized word).map Char.toLower = word := by
  obtain ⟨-, hsmall⟩ := hword
  cases word with
  | nil => rfl
  | cons c rest =>
    rw [List.forall_mem_cons] at hsmall
    rw [capitalized_cons hsmall.1, List.map_cons, hsmall.1.toLower_toUpper, map_toLower hsmall.2]

/-- A capitalized word ends in a small character, unless it is a capital alone. -/
theorem getLast?_capitalized (hword : IsWord word) (hletter : ∃ c ∈ word[0]?, isLowerLetter c) :
    ∃ b, (capitalized word).getLast? = some b ∧
      ∀ p : Prop, IsSmall b ∨ isUpperLetter b ∧ p ↔ 2 ≤ word.length ∨ p := by
  obtain ⟨hne, hsmall⟩ := hword
  cases word with
  | nil => exact absurd rfl hne
  | cons c rest =>
    rw [List.forall_mem_cons] at hsmall
    rw [capitalized_cons hsmall.1]
    cases rest with
    | nil =>
      obtain ⟨_, ⟨⟩, hlower⟩ := hletter
      have hupper : isUpperLetter c.toUpper := hsmall.1.upper_toUpper_iff.2 hlower
      have hnot : ¬IsSmall c.toUpper := fun h => h.not_upper hupper
      refine ⟨_, rfl, fun p => ?_⟩
      simp [hupper, hnot]
    | cons d rest =>
      refine ⟨_, List.getLast?_eq_some_getLast (List.cons_ne_nil _ _), fun p => ?_⟩
      have hlast := hsmall.2 _ (List.getLast_mem (List.cons_ne_nil d rest))
      exact iff_of_true (.inl hlast) (.inl (Nat.le_add_left 2 rest.length))

/-- Between words that are capitalized, all underscores come back. -/
theorem separated_capitalized_iff (hword : IsWord word) (hletter : ∃ c ∈ word[0]?, isLowerLetter c)
    (hwords : ∀ word ∈ words, IsWord word) :
    (separateWords (capitalized word ++ words.flatMap capitalized)).map Char.toLower =
        word ++ words.flatMap ('_' :: ·) ↔
      (word :: words).IsChain (GapReturns False) := by
  induction words generalizing word with
  | nil =>
    obtain ⟨b, hlast, -⟩ := getLast?_capitalized hword hletter
    refine iff_of_true ?_ (List.isChain_singleton word)
    rw [List.flatMap_nil, List.flatMap_nil,
      separateWords_append (not_upper_of_mem_tail_capitalized hword) hlast]
    simp [wordGap, separateWords, map_toLower_capitalized hword]
  | cons next words ih =>
    rw [List.forall_mem_cons] at hwords
    obtain ⟨b, hlast, hends⟩ := getLast?_capitalized hword hletter
    have hstep := separated_step (not_upper_of_mem_tail_capitalized hword) hlast hwords.1 hwords.2
    rw [map_toLower_capitalized hword] at hstep
    rw [hstep, List.isChain_cons_cons, GapReturns, hends, false_or]
    exact and_congr_right fun hgap => ih hwords.1 hgap.1 hwords.2

/-- Between words of which the first is not capitalized, all underscores come back. -/
theorem separated_iff (hword : IsWord word) (hwords : ∀ word ∈ words, IsWord word) :
    (separateWords (word ++ words.flatMap capitalized)).map Char.toLower =
        word ++ words.flatMap ('_' :: ·) ↔
      GapsReturn (word :: words) := by
  have htail := not_upper_of_mem_tail hword
  obtain ⟨b, hlast⟩ : ∃ b, word.getLast? = some b :=
    ⟨_, List.getLast?_eq_some_getLast hword.ne_nil⟩
  have hb : IsSmall b := hword.small b (List.mem_of_mem_getLast? hlast)
  cases words with
  | nil =>
    refine iff_of_true ?_ gapsReturn_singleton
    rw [List.flatMap_nil, List.flatMap_nil, separateWords_append htail hlast]
    simp [wordGap, separateWords, map_toLower hword.small]
  | cons next words =>
    rw [List.forall_mem_cons] at hwords
    have hstep := separated_step htail hlast hwords.1 hwords.2
    rw [map_toLower hword.small] at hstep
    rw [hstep, gapsReturn_cons_cons, GapReturns]
    simp only [hb, true_or, and_true]
    exact and_congr_right fun hletter => separated_capitalized_iff hwords.1 hletter hwords.2

theorem getLast?_joined (hne : words ≠ []) (hwords : ∀ word ∈ words, IsWord word) :
    ∀ c ∈ (joined '_' words).getLast?, IsSmall c := by
  induction words with
  | nil => exact absurd rfl hne
  | cons word rest ih =>
    rw [List.forall_mem_cons] at hwords
    cases rest with
    | nil => exact fun c hc => hwords.1.small c (List.mem_of_mem_getLast? hc)
    | cons next rest =>
      have hrest : joined '_' (next :: rest) ≠ [] := by
        rw [joined_cons]
        exact List.append_ne_nil_of_left_ne_nil (hwords.2 next (List.mem_cons_self ..)).ne_nil _
      have hlast := ih (List.cons_ne_nil _ _) hwords.2
      rwa [joined, List.getLast?_append_of_ne_nil _ (List.cons_ne_nil _ _),
        List.getLast?_cons_of_ne_nil hrest]

end Words

/-! ## Underscores at the ends -/

section Ends

variable {chars : List Char} {words : List (List Char)} {lead trail : ℕ} {b : Char}

theorem wordGap_underscore (chars : List Char) : wordGap '_' chars = [] := by
  cases chars with
  | nil => rfl
  | cons c rest =>
    refine if_neg fun hbreak => ?_
    obtain ⟨-, hsmall | ⟨hupper, -⟩⟩ := breaksBetween_iff.1 hbreak
    · exact absurd hsmall (by decide)
    · exact absurd hupper (by decide)

/-- Underscores are as good as the end of a text. -/
theorem wordGap_append_underscores (b : Char) (chars : List Char) (trail : ℕ) :
    wordGap b (chars ++ List.replicate trail '_') = wordGap b chars := by
  cases chars with
  | nil =>
    refine wordGap_of_not_upper fun c hc => ?_
    rw [List.eq_of_mem_replicate (List.mem_of_mem_head? hc)]
    decide
  | cons c rest =>
    have hnext : ∀ c ∈ (List.replicate trail '_').head?, ¬isLowerLetter c := fun c hc => by
      rw [List.eq_of_mem_replicate (List.mem_of_mem_head? hc)]
      decide
    rw [List.cons_append, wordGap, wordGap, breaksBetween_append hnext]

theorem separateWords_underscores (count : ℕ) (chars : List Char) :
    separateWords (List.replicate count '_' ++ chars) =
      List.replicate count '_' ++ separateWords chars := by
  induction count with
  | zero => rfl
  | succ count ih =>
    rw [List.replicate_succ, List.cons_append, separateWords_cons, wordGap_underscore, ih]
    rfl

theorem separateWords_append_underscores (chars : List Char) (trail : ℕ) :
    separateWords (chars ++ List.replicate trail '_') =
      separateWords chars ++ List.replicate trail '_' := by
  induction chars with
  | nil => simpa [separateWords] using separateWords_underscores trail []
  | cons c rest ih =>
    rw [List.cons_append, separateWords_cons, wordGap_append_underscores, ih, separateWords_cons,
      List.cons_append, List.append_assoc]

/-- What comes back for a stored name: the first word as it is, and the others capitalized. -/
theorem camelCase_storedName {first : List Char} (hfirst : IsWord first)
    (hwords : ∀ word ∈ words, IsWord word) :
    camelCase (storedName lead (first :: words) trail) =
      String.ofList (List.replicate lead '_' ++ (first ++ words.flatMap capitalized) ++
        List.replicate trail '_') := by
  have hall : ∀ word ∈ first :: words, IsWord word := List.forall_mem_cons.2 ⟨hfirst, hwords⟩
  have hfree : ∀ word ∈ first :: words, '_' ∉ word := fun word hword hmem =>
    ((hall word hword).small _ hmem).isNameChar.ne_underscore rfl
  have hends : ∀ c, IsSmall c → ¬isUnderscore c := fun c hc => hc.isNameChar.not_underscore
  have hunderscores : ∀ count, ∀ c ∈ List.replicate count '_', isUnderscore c := by
    intro count c hc
    simpa [isUnderscore] using List.eq_of_mem_replicate hc
  have hne : joined '_' (first :: words) ≠ [] := by
    rw [joined_cons]
    exact List.append_ne_nil_of_left_ne_nil hfirst.ne_nil _
  have hhead : ∀ c ∈ (joined '_' (first :: words)).head?, ¬isUnderscore c := by
    rw [joined_cons, List.head?_append_of_ne_nil _ hfirst.ne_nil]
    exact fun c hc => hends c (hfirst.small c (List.mem_of_mem_head? hc))
  rw [storedName, camelCase_padded hne (hunderscores lead) hhead
    (fun c hc => hends c (getLast?_joined (List.cons_ne_nil _ _) hall c hc)) (hunderscores trail),
    joinWords, pieces_joined '_' _ (List.cons_ne_nil _ _) hfree]

theorem isNameChar_of_mem_capitalized {word : List Char} (hword : IsWord word) {c : Char}
    (hc : c ∈ capitalized word) : IsNameChar c := by
  obtain ⟨hne, hsmall⟩ := hword
  cases word with
  | nil => exact absurd rfl hne
  | cons d rest =>
    rw [List.forall_mem_cons] at hsmall
    rw [capitalized_cons hsmall.1] at hc
    rcases List.mem_cons.1 hc with rfl | hc
    · exact hsmall.1.toUpper
    · exact (hsmall.2 c hc).isNameChar

/-- What a name with capitals is stored as. -/
theorem snakeCase_padded (h : ∀ c ∈ chars, IsNameChar c) :
    snakeCase (String.ofList (List.replicate lead '_' ++ chars ++ List.replicate trail '_')) =
      String.ofList (List.replicate lead '_' ++ (separateWords chars).map Char.toLower ++
        List.replicate trail '_') := by
  have hunderscores : ∀ count, (List.replicate count '_').map Char.toLower =
      List.replicate count '_' := fun count => List.map_replicate
  have hchars : ∀ c ∈ List.replicate lead '_' ++ chars ++ List.replicate trail '_',
      c = '_' ∨ IsNameChar c := by
    intro c hc
    rw [List.mem_append, List.mem_append] at hc
    obtain (hc | hc) | hc := hc
    · exact .inl (List.eq_of_mem_replicate hc)
    · exact .inr (h c hc)
    · exact .inl (List.eq_of_mem_replicate hc)
  rw [snakeCase_ofList hchars, List.append_assoc, separateWords_underscores,
    separateWords_append_underscores, List.map_append, List.map_append, hunderscores, hunderscores,
    ← List.append_assoc]

/-- A stored name comes back when all underscores between its words do. -/
theorem snakeCase_camelCase_iff (hne : words ≠ []) (hwords : ∀ word ∈ words, IsWord word) :
    snakeCase (camelCase (storedName lead words trail)) = storedName lead words trail ↔
      GapsReturn words := by
  cases words with
  | nil => exact absurd rfl hne
  | cons first words =>
    rw [List.forall_mem_cons] at hwords
    have hchars : ∀ c ∈ first ++ words.flatMap capitalized, IsNameChar c := by
      intro c hc
      rcases List.mem_append.1 hc with hc | hc
      · exact (hwords.1.small c hc).isNameChar
      · obtain ⟨word, hword, hc⟩ := List.mem_flatMap.1 hc
        exact isNameChar_of_mem_capitalized (hwords.2 word hword) hc
    rw [camelCase_storedName hwords.1 hwords.2, snakeCase_padded hchars, storedName,
      String.ofList_inj, List.append_left_inj, List.append_right_inj, joined_cons,
      separated_iff hwords.1 hwords.2]

end Ends

end ResourceQuery
