import Pipework.Proofs.Decimal.Digits
import Pipework.Proofs.Except
import Pipework.Proofs.Time.Calendar
import Pipework.Time.Instant

/-!
# Points in time read back

The text of a point in time tells that point, to the nanosecond (`Instant.ofText_text`), in every
year that a clock can tell and in leap seconds too (`Instant.IsValid`).
-/

namespace Pipework.Time

/-! ## Numbers -/

lemma trimStart_cons {c : Char} (h : Text.isSpace c = false) (s : List Char) :
    Text.trimStart (c :: s) = c :: s := by
  simp [Text.trimStart, h]

lemma isSpace_of_isDigit {c : Char} (h : c.isDigit = true) : Text.isSpace c = false := by
  have hrange := Decimal.isDigit_iff.1 h
  simp only [Text.isSpace, Bool.or_eq_false_iff, Bool.and_eq_false_iff, decide_eq_false_iff_not,
    beq_eq_false_iff_ne]
  omega

lemma digitsValue_eq (ds : List Char) : digitsValue ds = Nat.ofDigitChars 10 ds 0 := by
  have hfold (n : Nat) : ds.foldl (fun n d => n * 10 + (d.toNat - '0'.toNat)) n =
      Nat.ofDigitChars 10 ds n := by
    induction ds generalizing n with
    | nil => simp
    | cons d ds ih => rw [List.foldl_cons, ih, Nat.ofDigitChars_cons, Nat.mul_comm]
  exact hfold 0

section

variable {width n : Nat}

lemma padded_eq (width n : Nat) :
    padded width n =
      List.replicate (width - (Nat.toDigits 10 n).length) '0' ++ Nat.toDigits 10 n := by
  simp [padded]

lemma isDigit_of_mem_padded {c : Char} (h : c ∈ padded width n) : c.isDigit = true := by
  rw [padded_eq, List.mem_append] at h
  rcases h with hzero | hdigit
  · rw [List.eq_of_mem_replicate hzero]
    decide
  · exact Decimal.isDigit_toDigits hdigit

/-- Zeros in front do not change a number. -/
lemma digitsValue_padded (width n : Nat) : digitsValue (padded width n) = n := by
  have hzeros (k : Nat) :
      Nat.ofDigitChars 10 (List.replicate k '0' ++ Nat.toDigits 10 n) 0 = n := by
    induction k with
    | zero => simp
    | succ k ih => rwa [List.replicate_succ, List.cons_append, Nat.ofDigitChars_cons]
  rw [digitsValue_eq, padded_eq]
  exact hzeros _

lemma length_padded (hwidth : 0 < width) (h : n < 10 ^ width) :
    (padded width n).length = width := by
  have hle := (Nat.length_toDigits_le_iff (by omega : 1 < 10) hwidth).2 h
  rw [padded_eq, List.length_append, List.length_replicate]
  omega

lemma exists_padded_eq_cons (width n : Nat) :
    ∃ c cs, padded width n = c :: cs ∧ c.isDigit = true := by
  have hne : padded width n ≠ [] := by simp [padded_eq, Nat.toDigits_ne_nil]
  obtain ⟨c, cs, hcons⟩ := List.exists_cons_of_ne_nil hne
  exact ⟨c, cs, hcons, isDigit_of_mem_padded (hcons ▸ List.mem_cons_self)⟩

/-- A number is read up to its width, or up to what is no digit. -/
lemma readNumber_padded {most : Nat} (hn : n < UInt64.size / 2) {rest : List Char}
    (hlength : (padded width n).length ≤ most)
    (hrest : (padded width n).length = most ∨ ∀ c ∈ rest.head?, c.isDigit = false) :
    readNumber most (padded width n ++ rest) = .ok (n, rest) := by
  obtain ⟨c, cs, hcons, -⟩ := exists_padded_eq_cons width n
  have hdigits : ((padded width n ++ rest).take most).takeWhile Char.isDigit = padded width n := by
    rw [List.take_append, List.take_of_length_le hlength,
      List.takeWhile_append_of_pos fun c hc => isDigit_of_mem_padded hc]
    suffices h : (rest.take (most - (padded width n).length)).takeWhile Char.isDigit = [] by
      rw [h, List.append_nil]
    rcases hrest with heq | hhead
    · simp [heq]
    · cases rest with
      | nil => simp
      | cons d rest =>
        have hd : d.isDigit = false := hhead d rfl
        cases most - (padded width n).length <;> simp [hd]
  simp only [readNumber, hdigits, digitsValue_padded, List.drop_left]
  simp [hcons, hn]

lemma trimStart_padded (width n : Nat) (rest : List Char) :
    Text.trimStart (padded width n ++ rest) = padded width n ++ rest := by
  obtain ⟨c, cs, hcons, hdigit⟩ := exists_padded_eq_cons width n
  rw [hcons, List.cons_append, trimStart_cons (isSpace_of_isDigit hdigit)]

lemma readPart_padded {least greatest : Nat} (hleast : least ≤ n) (hgreatest : n ≤ greatest)
    (hn : n < 100) (rest : List Char) :
    readPart least greatest (padded 2 n ++ rest) = .ok (n, rest) := by
  have hlength : (padded 2 n).length = 2 := length_padded (by omega) hn
  have hread : readNumber 2 (padded 2 n ++ rest) = .ok (n, rest) :=
    readNumber_padded (Nat.lt_trans hn (by decide)) hlength.le (.inl hlength)
  rw [readPart, trimStart_padded, hread]
  simp [hleast, hgreatest]

end

/-! ## Parts of a text -/

lemma readMark_cons {c : Char} (h : Text.isSpace c = false) (rest : List Char) :
    readMark c (c :: rest) = .ok rest := by
  simp [readMark, trimStart_cons h]

lemma isYear_bound {year : Int} (h : isYear year = true) :
    -yearBound ≤ year ∧ year < yearBound := by
  simp only [isYear, Bool.and_eq_true, decide_eq_true_eq] at h
  have hvalue : yearBound = 2147483648 := rfl
  omega

section

variable {year : Int} {n : Nat} {s rest : List Char}

/-- A sign is followed by as many digits as there are. -/
lemma readYear_signed (h : isYear year = true) (hread : readNumber s.length s = .ok (n, rest))
    {sign : Char} (hsign : sign = '-' ∧ -(n : Int) = year ∨ sign = '+' ∧ (n : Int) = year) :
    readYear (sign :: s) = .ok (year, rest) := by
  have hbound := isYear_bound h
  rcases hsign with ⟨rfl, hyear⟩ | ⟨rfl, hyear⟩ <;>
    · unfold readYear
      rw [trimStart_cons (by decide)]
      simp only [hread]
      rw [ok_bind]
      dsimp only
      rw [hyear]
      simp [hbound]

lemma readYear_digit (h : isYear year = true) {c : Char} (hdigit : c.isDigit = true)
    (hread : readNumber 4 (c :: s) = .ok (n, rest)) (hyear : (n : Int) = year) :
    readYear (c :: s) = .ok (year, rest) := by
  have hbound := isYear_bound h
  have hnot (d : Char) (hd : d.isDigit = false) : c ≠ d := by
    rintro rfl
    exact Bool.false_ne_true (hd.symm.trans hdigit)
  unfold readYear
  rw [trimStart_cons (isSpace_of_isDigit hdigit)]
  split
  · rename_i heq
    exact absurd (List.cons.inj heq).1 (hnot '-' (by decide))
  · rename_i heq
    exact absurd (List.cons.inj heq).1 (hnot '+' (by decide))
  · rw [hread, ok_bind]
    dsimp only
    rw [hyear]
    simp [hbound]

end

/-- The text of a year tells that year before the mark that ends it. -/
lemma readYear_yearText {year : Int} (h : isYear year = true) (rest : List Char) :
    readYear (yearText year ++ '-' :: rest) = .ok (year, '-' :: rest) := by
  have hsize : year.natAbs < UInt64.size / 2 := by
    simp only [isYear, Bool.and_eq_true, decide_eq_true_eq] at h
    have hvalue : UInt64.size / 2 = 9223372036854775808 := by decide
    omega
  have hread : readNumber (padded 4 year.natAbs ++ '-' :: rest).length
      (padded 4 year.natAbs ++ '-' :: rest) = .ok (year.natAbs, '-' :: rest) := by
    refine readNumber_padded hsize ?_ (.inr (by simp))
    rw [List.length_append]
    exact Nat.le_add_right _ _
  unfold yearText
  split
  · rename_i hshort
    simp only [Bool.and_eq_true, decide_eq_true_eq] at hshort
    have hlength : (padded 4 year.toNat).length = 4 := length_padded (by omega) (by omega)
    have hfour : readNumber 4 (padded 4 year.toNat ++ '-' :: rest) =
        .ok (year.toNat, '-' :: rest) :=
      readNumber_padded (by omega) hlength.le (.inl hlength)
    obtain ⟨c, cs, hcons, hdigit⟩ := exists_padded_eq_cons 4 year.toNat
    rw [hcons, List.cons_append] at hfour ⊢
    exact readYear_digit h hdigit hfour (Int.toNat_of_nonneg hshort.1)
  · split
    · exact readYear_signed h hread (.inl ⟨rfl, by omega⟩)
    · exact readYear_signed h hread (.inr ⟨rfl, by omega⟩)

/-- Digits of a fraction are read as nanoseconds. -/
lemma readFraction_padded {width n : Nat} (hwidth : 0 < width) (hle : width ≤ 9)
    (hn : n < 10 ^ width) :
    readFraction ('.' :: (padded width n ++ ['Z'])) = .ok (n * 10 ^ (9 - width), ['Z']) := by
  have hlength := length_padded hwidth hn
  have hsmall : n < UInt64.size / 2 := by
    have hpow : 10 ^ width ≤ 10 ^ 9 := Nat.pow_le_pow_right (by omega) hle
    have hsize : UInt64.size / 2 = 9223372036854775808 := by decide
    omega
  have hread : readNumber 9 (padded width n ++ ['Z']) = .ok (n, ['Z']) :=
    readNumber_padded hsmall (by omega) (.inr (by simp))
  rw [readFraction, hread]
  simp [hlength]

lemma readFraction_fractionText {nano : Nat} (h : nano < nanosPerSecond) :
    readFraction (fractionText nano ++ ['Z']) = .ok (nano, ['Z']) := by
  unfold nanosPerSecond at h
  unfold fractionText
  split
  · rename_i hzero
    simp [readFraction, hzero]
  · split
    · rw [List.cons_append, readFraction_padded (by omega) (by omega) (by omega)]
      have hnano : nano / 1000000 * 10 ^ (9 - 3) = nano := by omega
      rw [hnano]
    · split
      · rw [List.cons_append, readFraction_padded (by omega) (by omega) (by omega)]
        have hnano : nano / 1000 * 10 ^ (9 - 6) = nano := by omega
        rw [hnano]
      · rw [List.cons_append, readFraction_padded (by omega) (by omega) (by omega)]
        have hnano : nano * 10 ^ (9 - 9) = nano := by omega
        rw [hnano]

lemma readOffset_utc : readOffset (Text.trimStart ['Z']) = .ok (0, []) := rfl

/-! ## Points in time -/

lemma Date.bounds_of_isValid {d : Date} (h : d.isValid = true) :
    (1 ≤ d.month ∧ d.month ≤ 12) ∧ 1 ≤ d.day ∧ d.day ≤ 31 := by
  simp only [Date.isValid, Bool.and_eq_true, decide_eq_true_eq] at h
  have hdays : daysInMonth d.year d.month ≤ 31 := by
    unfold daysInMonth
    split <;> (try split) <;> omega
  omega

namespace Instant

/-- A point in time that a clock can tell: a leap second is the last of its minute. -/
structure IsValid (t : Instant) : Prop where
  year : isYear (Date.ofNumber (t.second / secondsPerDay)).year = true
  nano : t.nano < nanosPerSecond ∨ t.nano < 2 * nanosPerSecond ∧ t.second % 60 = 59

instance (t : Instant) : Decidable t.IsValid :=
  decidable_of_iff (isYear (Date.ofNumber (t.second / secondsPerDay)).year = true ∧
      (t.nano < nanosPerSecond ∨ t.nano < 2 * nanosPerSecond ∧ t.second % 60 = 59))
    ⟨fun h => ⟨h.1, h.2⟩, fun h => ⟨h.year, h.nano⟩⟩

section

variable {t : Instant} {clock : Nat}

/-- There is at most one second too many, at the end of a minute. -/
lemma IsValid.leap (h : t.IsValid) (hclock : (t.second % secondsPerDay).toNat = clock) :
    t.nano / nanosPerSecond = 0 ∨ t.nano / nanosPerSecond = 1 ∧ clock % 60 = 59 := by
  have hnano := h.nano
  unfold nanosPerSecond secondsPerDay at *
  omega

/-- A leap second is told as the sixtieth. -/
lemma IsValid.nano_eq (h : t.IsValid) (hclock : (t.second % secondsPerDay).toNat = clock) :
    (if clock % 60 + t.nano / nanosPerSecond = 60 then
      nanosPerSecond + t.nano % nanosPerSecond else t.nano % nanosPerSecond) = t.nano := by
  have hsplit := Nat.div_add_mod t.nano nanosPerSecond
  rcases h.leap hclock with hnone | ⟨hone, hend⟩
  · rw [if_neg (by omega)]
    rw [hnone] at hsplit
    omega
  · rw [if_pos (by omega)]
    rw [hone] at hsplit
    omega

/-- The seconds of a day are its hours, minutes and seconds, without a leap second. -/
lemma IsValid.second_eq (h : t.IsValid) (hclock : (t.second % secondsPerDay).toNat = clock)
    (days : Int) :
    days + (clock / 3600 * 3600 + clock / 60 % 60 * 60 +
      min (clock % 60 + t.nano / nanosPerSecond) 59 : Nat) = days + clock := by
  have hleap := h.leap hclock
  have hday : clock < 86400 := by
    unfold secondsPerDay at hclock
    omega
  omega

end

/-- The text of a point in time tells that point. -/
theorem ofText_text {t : Instant} (h : t.IsValid) : ofText t.text = .ok t := by
  have hyear := h.year
  have hvalid := Date.isValid_ofNumber (t.second / secondsPerDay)
  have hnumber := Date.number_ofNumber (t.second / secondsPerDay)
  have htext : t.text.toList = t.write true := String.toList_ofList
  generalize hdateIs : Date.ofNumber (t.second / secondsPerDay) = date at hyear hvalid hnumber
  generalize hclock : (t.second % secondsPerDay).toNat = clock
  have hsecond : t.second = date.number * secondsPerDay + clock ∧ clock < 86400 := by
    unfold secondsPerDay at *
    omega
  obtain ⟨hmonth, hday⟩ := Date.bounds_of_isValid hvalid
  have hleap := h.leap hclock
  have hnano := h.nano_eq hclock
  have hsame : date.number * secondsPerDay + (clock / 3600 * 3600 + clock / 60 % 60 * 60 +
      min (clock % 60 + t.nano / nanosPerSecond) 59 : Nat) - 0 = t.second := by
    rw [h.second_eq hclock, hsecond.1, Int.sub_zero]
  rw [ofText, htext, write, hdateIs, hclock]
  simp only [List.append_assoc, List.cons_append, if_true]
  rw [readYear_yearText hyear, ok_bind]
  dsimp only
  rw [readMark_cons (by decide), ok_bind, readPart_padded hmonth.1 hmonth.2 (by omega), ok_bind]
  dsimp only
  rw [readMark_cons (by decide), ok_bind, readPart_padded hday.1 hday.2 (by omega), ok_bind]
  dsimp only
  simp only [beq_self_eq_true, Bool.or_true, Bool.true_or, if_true, pure_eq_ok]
  rw [ok_bind, readPart_padded (Nat.zero_le _) (by omega) (by omega), ok_bind]
  dsimp only
  rw [readMark_cons (by decide), ok_bind, readPart_padded (Nat.zero_le _) (by omega) (by omega),
    ok_bind]
  dsimp only
  rw [readMark_cons (by decide), ok_bind, readPart_padded (Nat.zero_le _) (by omega) (by omega),
    ok_bind]
  dsimp only
  rw [readFraction_fractionText (Nat.mod_lt _ (by decide)), ok_bind]
  dsimp only
  rw [readOffset_utc, ok_bind]
  dsimp only
  simp only [hyear, hvalid, hsame, hnano, hdateIs]
  rfl

end Instant

/-! ## What texts can tell -/

lemma digitsValue_lt {ds : List Char} (h : ∀ d ∈ ds, d.isDigit = true) :
    digitsValue ds < 10 ^ ds.length := by
  have hfold (n : Nat) : Nat.ofDigitChars 10 ds n < (n + 1) * 10 ^ ds.length := by
    induction ds generalizing n with
    | nil => simp
    | cons d ds ih =>
      rw [List.forall_mem_cons] at h
      have hdigit := Decimal.isDigit_iff.1 h.1
      have hnext : 10 * n + (d.toNat - '0'.toNat) + 1 ≤ (n + 1) * 10 := by
        have hzero : '0'.toNat = 48 := rfl
        omega
      rw [Nat.ofDigitChars_cons, List.length_cons, Nat.pow_succ', ← Nat.mul_assoc]
      exact Nat.lt_of_lt_of_le (ih h.2 _) (Nat.mul_le_mul_right _ hnext)
  rw [digitsValue_eq]
  simpa using hfold 0

lemma exists_digits_of_readNumber {width n : Nat} {s rest : List Char}
    (h : readNumber width s = .ok (n, rest)) :
    ∃ ds, s = ds ++ rest ∧ ds.length ≤ width ∧ n < 10 ^ ds.length := by
  generalize hds : (s.take width).takeWhile Char.isDigit = ds
  have hprefix : ds <+: s :=
    hds ▸ (List.takeWhile_prefix _).trans (List.take_prefix width s)
  have hlength : ds.length ≤ width := by
    have hle := (hds ▸ List.takeWhile_prefix _ : ds <+: s.take width).length_le
    rw [List.length_take] at hle
    omega
  have hdigits : ∀ d ∈ ds, d.isDigit = true := List.all_eq_true.1 (hds ▸ List.all_takeWhile)
  simp only [readNumber, hds] at h
  split at h
  · cases h
  · split at h
    · cases h
    · split at h
      · cases h
        obtain ⟨behind, rfl⟩ := hprefix
        exact ⟨ds, by rw [List.drop_left], hlength, digitsValue_lt hdigits⟩
      · cases h

/-- Nine digits of a fraction are less than a second. -/
lemma lt_of_readFraction {s rest : List Char} {nano : Nat}
    (h : readFraction s = .ok (nano, rest)) : nano < nanosPerSecond := by
  unfold readFraction at h
  split at h
  case h_1 s =>
    obtain ⟨⟨n, after⟩, hread, h⟩ := bind_eq_ok.1 h
    cases h
    obtain ⟨ds, rfl, hlength, hlt⟩ := exists_digits_of_readNumber hread
    have hplaces : (ds ++ after).length - after.length = ds.length := by simp
    have hsplit : 10 ^ ds.length * 10 ^ (9 - ds.length) = nanosPerSecond := by
      rw [← Nat.pow_add, Nat.add_sub_cancel' hlength]
      rfl
    rw [hplaces, ← hsplit]
    exact Nat.mul_lt_mul_of_pos_right hlt (Nat.pow_pos (by decide))
  case h_2 =>
    cases h
    decide

/-- Offsets are whole minutes. -/
lemma emod_of_readOffset {s rest : List Char} {offset : Int}
    (h : readOffset s = .ok (offset, rest)) : offset % 60 = 0 := by
  unfold readOffset at h
  split at h
  · cases h
  · split at h
    · cases h
      rfl
    · split at h
      · cases h
        rfl
      · split at h
        case isTrue =>
          obtain ⟨⟨hours, after⟩, -, h⟩ := bind_eq_ok.1 h
          obtain ⟨⟨minutes, behind⟩, -, h⟩ := bind_eq_ok.1 h
          cases h
          omega
        case isFalse =>
          split at h
          case isTrue =>
            obtain ⟨⟨hours, after⟩, -, h⟩ := bind_eq_ok.1 h
            obtain ⟨⟨minutes, behind⟩, -, h⟩ := bind_eq_ok.1 h
            cases h
            omega
          case isFalse => cases h

namespace Instant

/-- A text tells a point in time that a clock can tell. -/
theorem isValid_of_ofText {text : String} {t : Instant} (h : ofText text = .ok t) : t.IsValid := by
  unfold ofText at h
  obtain ⟨⟨year, s₁⟩, -, h⟩ := bind_eq_ok.1 h
  obtain ⟨s₂, -, h⟩ := bind_eq_ok.1 h
  obtain ⟨⟨month, s₃⟩, -, h⟩ := bind_eq_ok.1 h
  obtain ⟨s₄, -, h⟩ := bind_eq_ok.1 h
  obtain ⟨⟨day, s₅⟩, -, h⟩ := bind_eq_ok.1 h
  dsimp only at h
  split at h
  · cases h
  split at h
  case isFalse => cases h
  obtain ⟨s₆, -, h⟩ := bind_eq_ok.1 h
  obtain ⟨⟨hour, s₇⟩, -, h⟩ := bind_eq_ok.1 h
  obtain ⟨s₈, -, h⟩ := bind_eq_ok.1 h
  obtain ⟨⟨minute, s₉⟩, -, h⟩ := bind_eq_ok.1 h
  obtain ⟨s₁₀, -, h⟩ := bind_eq_ok.1 h
  obtain ⟨⟨second, s₁₁⟩, hsecond, h⟩ := bind_eq_ok.1 h
  obtain ⟨⟨nano, s₁₂⟩, hnano, h⟩ := bind_eq_ok.1 h
  obtain ⟨⟨offset, s₁₃⟩, hoffset, h⟩ := bind_eq_ok.1 h
  dsimp only at h
  split at h
  · cases h
  split at h
  · cases h
  split at h
  case isFalse => cases h
  case isTrue hyear =>
    cases h
    refine ⟨hyear, ?_⟩
    have hsmall := lt_of_readFraction hnano
    have hminutes := emod_of_readOffset hoffset
    by_cases hleap : second = 60
    · refine .inr ⟨?_, ?_⟩
      · simp only [hleap, if_true]
        omega
      · simp only [hleap]
        unfold secondsPerDay
        omega
    · simp only [hleap, if_false]
      exact .inl hsmall

end Instant

end Pipework.Time
