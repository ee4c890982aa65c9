import ResourceQuery.Proofs.Number.Digits

/-!
# Written dates and times

Days and times are read as they are written, and only those that exist are read.

* `Date.IsValid.length_chars`: the parts of a day have no more digits than they are written with;
* `Calendar.readDate?_text`, `Calendar.readTime?_text`: a day, and a time without a distance from
  universal time;
* `Calendar.readDateTime?_chars`: both, with any character between them;
* `Calendar.isValid_of_readDate?` and the like: what is read exists.
-/

namespace ResourceQuery

open Text

/-! ## Days -/

section Days

variable {d : Date}

theorem Date.month_le_of_daysInMonth {year month : ℕ} (h : 0 < daysInMonth year month) :
    month ≤ 12 := by
  unfold daysInMonth at h
  split at h <;> omega

theorem Date.daysInMonth_le (year month : ℕ) : daysInMonth year month ≤ 31 := by
  unfold daysInMonth
  split <;> first | omega | split <;> omega

namespace Date.IsValid

theorem year_lt (h : d.IsValid) : d.year < 10 ^ 4 := Nat.lt_succ_of_le h.2.1

theorem month_lt (h : d.IsValid) : d.month < 10 ^ 2 := by
  have := month_le_of_daysInMonth (lt_of_lt_of_le h.2.2.1 h.2.2.2)
  omega

theorem day_lt (h : d.IsValid) : d.day < 10 ^ 2 := by
  have := h.2.2.2.trans (daysInMonth_le ..)
  omega

theorem length_chars (h : d.IsValid) : d.chars.length = 10 := by
  simp only [Date.chars, List.length_append, List.length_cons, length_padded (by decide) h.year_lt,
    length_padded (by decide) h.month_lt, length_padded (by decide) h.day_lt]

end Date.IsValid

/-- A day is taken from the front of a text. -/
theorem Calendar.takeDate?_chars (h : d.IsValid) (length : ℕ) (rest : List Char) :
    takeDate? length (d.chars ++ rest) = some d := by
  have hyear := takeNumber?_padded (by decide) h.year_lt
    ('-' :: (padded 2 d.month ++ '-' :: (padded 2 d.day ++ rest)))
  have hmonth := takeNumber?_padded (by decide) h.month_lt ('-' :: (padded 2 d.day ++ rest))
  have hday := takeNumber?_padded (by decide) h.day_lt rest
  have hchars : d.chars ++ rest =
      padded 4 d.year ++ '-' :: (padded 2 d.month ++ '-' :: (padded 2 d.day ++ rest)) := by
    simp only [Date.chars, List.append_assoc, List.cons_append]
  obtain ⟨c, hc, hdigit⟩ := exists_head?_isDigit (padded_ne_nil 2 d.month)
    (fun _ => isDigit_of_mem_padded) ('-' :: (padded 2 d.day ++ rest))
  rw [hchars, takeDate?, hyear]
  generalize padded 2 d.month ++ '-' :: (padded 2 d.day ++ rest) = after at hmonth hc ⊢
  simp only [Option.bind_eq_bind, Option.bind_some, List.head?_cons, beq_self_eq_true, if_true,
    List.drop_succ_cons, List.drop_zero]
  split
  · exact absurd (Option.some.inj hc ▸ hdigit) (by decide)
  · simp only [hmonth, hday, takeDash?, Option.bind_some, if_true]

theorem Date.isDigit_or_eq_of_mem_chars {c : Char} (h : c ∈ d.chars) : c.isDigit ∨ c = '-' := by
  simp only [Date.chars, List.mem_append, List.mem_cons] at h
  obtain (h | h | h) | h | h := h
  · exact .inl (isDigit_of_mem_padded h)
  · exact .inr h
  · exact .inl (isDigit_of_mem_padded h)
  · exact .inr h
  · exact .inl (isDigit_of_mem_padded h)

/-- A text of ASCII has as many bytes as characters. -/
theorem utf8ByteSize_ofList_of_ascii {chars : List Char} (h : ∀ c ∈ chars, c.toNat < 0x80) :
    (String.ofList chars).utf8ByteSize = chars.length := by
  induction chars with
  | nil => rfl
  | cons c chars ih =>
    rw [List.forall_mem_cons] at h
    have hc : c.utf8Size = 1 := Char.utf8Size_eq_one_iff.2 (Nat.le_of_lt_succ h.1)
    rw [String.ofList_cons, String.utf8ByteSize_append, String.utf8ByteSize_singleton, hc, ih h.2,
      List.length_cons, Nat.add_comm]

/-- A day is read as it is written. -/
theorem Calendar.readDate?_text (h : d.IsValid) : readDate? d.text = some d := by
  have hascii : ∀ c ∈ d.chars, c.toNat < 0x80 := by
    intro c hc
    obtain hc | rfl := Date.isDigit_or_eq_of_mem_chars hc
    · have hhigh : c.toNat ≤ 57 := (Char.isDigit_iff_toNat.1 hc).2
      omega
    · decide
  have hsize : d.text.utf8ByteSize = 10 := by
    rw [Date.text, utf8ByteSize_ofList_of_ascii hascii, h.length_chars]
  have htake : takeDate? 10 d.text.toList = some d := by
    simpa [Date.text] using takeDate?_chars h 10 []
  rw [readDate?, hsize, if_pos (by decide), htake]
  exact Option.filter_eq_some_iff.2 ⟨rfl, decide_eq_true h⟩

theorem Calendar.isValid_of_readDate? {text : String} (h : readDate? text = some d) :
    d.IsValid := by
  unfold readDate? at h
  split at h
  · exact of_decide_eq_true (Option.filter_eq_some_iff.1 h).2
  · cases h

end Days

/-! ## Times -/

section Times

variable {t : TimeOfDay}

theorem TimeOfDay.isDigit_or_eq_of_mem_fractionText {c : Char} {microsecond : ℕ}
    (h : c ∈ fractionText microsecond) : c.isDigit ∨ c = '.' := by
  unfold fractionText at h
  split at h
  · cases h
  · obtain h | h := List.mem_cons.1 h
    · exact .inr h
    · exact .inl (isDigit_of_mem_padded h)

theorem TimeOfDay.isDigit_or_eq_of_mem_chars {c : Char} (hnaive : t.offset = none)
    (h : c ∈ t.chars) : c.isDigit ∨ c = ':' ∨ c = '.' := by
  simp only [chars, hnaive, Option.map_none, Option.getD_none, List.append_nil,
    List.mem_append, List.mem_cons] at h
  obtain ((h | h | h) | h | h) | h := h
  · exact .inl (isDigit_of_mem_padded h)
  · exact .inr (.inl h)
  · exact .inl (isDigit_of_mem_padded h)
  · exact .inr (.inl h)
  · exact .inl (isDigit_of_mem_padded h)
  · obtain h | h := isDigit_or_eq_of_mem_fractionText h
    · exact .inl h
    · exact .inr (.inr h)

namespace Calendar

/-- A part of a time with a colon and more after it. -/
theorem takeParts?_colon {n left : ℕ} (hn : n < 100) (read : List ℕ) {rest : List Char}
    (hrest : rest ≠ []) (end_ : List Char) :
    takeParts? true read (padded 2 n ++ ':' :: rest) end_ (left + 1) =
      takeParts? true (n :: read) rest end_ left := by
  obtain ⟨c, rest, rfl⟩ := List.exists_cons_of_ne_nil hrest
  rw [takeParts?, takeNumber?_padded (by decide) hn]
  simp

/-- The last part of a time, and its fraction. -/
theorem takeParts?_last {n microsecond left : ℕ} (hn : n < 100) (hmicro : microsecond < 1000000)
    {read : List ℕ} (hread : read ≠ []) :
    takeParts? true read (padded 2 n ++ TimeOfDay.fractionText microsecond) [] (left + 1) =
      some ((n :: read).reverse, microsecond, true) := by
  rw [takeParts?, takeNumber?_padded (by decide) hn]
  unfold TimeOfDay.fractionText
  split
  · next hzero =>
    rw [hzero]
    rfl
  · have hlength : (padded 6 microsecond).length = 6 := length_padded (by decide) hmicro
    have htake : takeFraction? (padded 6 microsecond) [] = some (microsecond, true) := by
      have hnumber : takeNumber? 6 (padded 6 microsecond ++ []) = some (microsecond, []) :=
        takeNumber?_padded (by decide) hmicro []
      rw [List.append_nil] at hnumber
      rw [takeFraction?, hlength]
      simp [hnumber, atEnd]
    obtain ⟨c, tail, hcons⟩ := List.exists_cons_of_ne_nil (padded_ne_nil 6 microsecond)
    rw [hcons] at htake ⊢
    simp [hread, htake]

/-- The text of a time without a distance from universal time is read as a clock. -/
theorem takeClock?_chars (h : t.IsValid) (hnaive : t.offset = none) :
    takeClock? t.chars [] = some (t, true) := by
  obtain ⟨hour, minute, second, microsecond, offset⟩ := t
  obtain rfl : offset = none := hnaive
  obtain ⟨hhour, hminute, hsecond, hmicro, -⟩ := h
  dsimp only at hhour hminute hsecond hmicro
  have hchars : (TimeOfDay.mk hour minute second microsecond none).chars = padded 2 hour ++
      ':' :: (padded 2 minute ++ ':' :: (padded 2 second ++
        TimeOfDay.fractionText microsecond)) := by
    simp [TimeOfDay.chars]
  rw [takeClock?, hchars, takeParts?_colon (by omega) _ (by simp), takeParts?_colon (by omega) _
    (by simp [padded_ne_nil]), takeParts?_last (by omega) hmicro (by simp)]
  rfl

/-- A time without a distance is taken from a text. -/
theorem takeTime?_chars (h : t.IsValid) (hnaive : t.offset = none) :
    takeTime? t.chars = some t := by
  have hclock : t.chars.takeWhile (fun c => c != '+' && c != '-' && c != 'Z') = t.chars := by
    rw [List.takeWhile_eq_self_iff]
    intro c hc
    obtain hc | rfl | rfl := TimeOfDay.isDigit_or_eq_of_mem_chars hnaive hc
    · have hne (mark : Char) (hmark : ¬mark.isDigit) : c ≠ mark := fun heq => hmark (heq ▸ hc)
      simp [hne '+' (by decide), hne '-' (by decide), hne 'Z' (by decide)]
    · decide
    · decide
  rw [takeTime?, hclock, List.drop_length, takeClock?_chars h hnaive]
  rfl

/-- A time without a distance is read as it is written. -/
theorem readTime?_text (h : t.IsValid) (hnaive : t.offset = none) : readTime? t.text = some t := by
  have hfirst : ∀ rest, t.chars ≠ 'T' :: rest := by
    intro rest heq
    obtain hc | hc | hc := TimeOfDay.isDigit_or_eq_of_mem_chars hnaive (heq ▸ List.mem_cons_self)
    all_goals revert hc; decide
  rw [readTime?, TimeOfDay.text, String.toList_ofList]
  split
  · next rest heq => exact absurd heq (hfirst rest)
  · exact Option.filter_eq_some_iff.2 ⟨takeTime?_chars h hnaive, decide_eq_true h⟩

theorem isValid_of_readTime? {text : String} (h : readTime? text = some t) : t.IsValid :=
  of_decide_eq_true (Option.filter_eq_some_iff.1 h).2

end Calendar

end Times

/-! ## Times on days -/

section DateTimes

variable {d : DateTime}

/-- Whether the day and the time exist. -/
def DateTime.IsValid (d : DateTime) : Prop := d.date.IsValid ∧ d.time.IsValid

instance (d : DateTime) : Decidable d.IsValid := inferInstanceAs (Decidable (_ ∧ _))

namespace Calendar

/-- A day with dashes is ten characters long. -/
theorem dateLength_chars {date : Date} (h : date.IsValid) (rest : List Char) :
    dateLength (date.chars ++ rest) = 10 := by
  have hyear : (padded 4 date.year).length = 4 := length_padded (by decide) h.year_lt
  have hlength : (date.chars ++ rest).length ≠ 7 := by
    rw [List.length_append, h.length_chars]
    omega
  obtain ⟨c, tail, hmonth⟩ := List.exists_cons_of_ne_nil (padded_ne_nil 2 date.month)
  have hc : c.isDigit := isDigit_of_mem_padded (hmonth ▸ List.mem_cons_self)
  have hchars : date.chars ++ rest =
      padded 4 date.year ++ '-' :: c :: (tail ++ '-' :: padded 2 date.day ++ rest) := by
    rw [Date.chars, hmonth]
    simp
  have hdash : (date.chars ++ rest)[4]? = some '-' := by
    rw [hchars, List.getElem?_append_right hyear.le, hyear]
    rfl
  have hnext : (date.chars ++ rest)[5]? = some c := by
    rw [hchars, List.getElem?_append_right (by omega), hyear]
    rfl
  have hweek : ¬some c = some 'W' := by
    rintro ⟨⟩
    contradiction
  rw [dateLength, if_neg hlength, if_pos hdash, hnext, if_neg hweek]

/-- A time without a distance on a day is read as it is written, with any character between the
two. -/
theorem readDateTime?_chars (h : d.IsValid) (hnaive : d.time.offset = none) (mark : Char) :
    readDateTime? (String.ofList (d.date.chars ++ mark :: d.time.chars)) = some d := by
  have hdrop : (d.date.chars ++ mark :: d.time.chars).drop 10 = mark :: d.time.chars :=
    List.drop_left' h.1.length_chars
  simp only [readDateTime?, String.toList_ofList, dateLength_chars h.1, takeDate?_chars h.1, hdrop,
    takeTime?_chars h.2 hnaive, Option.bind_eq_bind, Option.bind_some]
  exact if_pos h

theorem isValid_of_readDateTime? {text : String} (h : readDateTime? text = some d) :
    d.IsValid := by
  have hvalid : ∀ {date : Date} {time : TimeOfDay},
      (if date.IsValid ∧ time.IsValid then some (DateTime.mk date time) else none) = some d →
        d.IsValid := by
    intro date time hread
    split at hread
    · next hparts =>
      cases hread
      exact hparts
    · cases hread
  unfold readDateTime? at h
  obtain ⟨date, -, h⟩ := Option.bind_eq_some_iff.1 h
  dsimp only at h
  split at h
  · split at h
    · cases h
    · exact hvalid h
  · obtain ⟨time, -, h⟩ := Option.bind_eq_some_iff.1 h
    exact hvalid h

end Calendar

end DateTimes

end ResourceQuery
