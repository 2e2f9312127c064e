import Mathlib.Tactic.ByContra
import Mathlib.Tactic.IntervalCases
import Mathlib.Tactic.Lemma
import Pipework.Time.Calendar

/-!
# Days and their numbers

Every number is that of a day that exists (`Date.isValid_ofNumber`), and of no other
(`Date.number_ofNumber`).  The year of a day is found by a division that leaves out the days that
only some years have.  It is right because the count without those days grows with the day and is
right at the two ends of every year of an era, of which there are four hundred.
-/

namespace Pipework.Time.Date

/-! ## Years of an era -/

/-- The days of an era before a year of it. -/
def daysBefore (year : Nat) : Nat := 365 * year + year / 4 - year / 100

/-- The days of an era up to one of them, without those that only some years have. -/
def commonDays (day : Nat) : Nat := day - day / 1460 + day / 36524 - day / 146096

lemma commonDays_mono {a b : Nat} (h : a ≤ b) : commonDays a ≤ commonDays b := by
  unfold commonDays
  have hquarter : a - a / 1460 ≤ b - b / 1460 := by omega
  have hcentury : a / 36524 + b / 146096 ≤ b / 36524 + a / 146096 := by omega
  omega

/-- At both ends of a year the count tells that year. -/
lemma commonDays_ends : ∀ year < 400, 365 * year ≤ commonDays (daysBefore year) ∧
    (year < 399 → commonDays (daysBefore (year + 1) - 1) < 365 * (year + 1)) ∧
    commonDays 146096 < 365 * 400 := by
  decide +kernel

/-- A day lies in the year that the count tells, and is its last only where there is one more. -/
lemma daysBefore_le {day : Nat} (h : day < 146097) :
    commonDays day / 365 < 400 ∧ daysBefore (commonDays day / 365) ≤ day ∧
      day ≤ daysBefore (commonDays day / 365) + 365 ∧
      (day = daysBefore (commonDays day / 365) + 365 →
        isLeapYear (commonDays day / 365 + 1 : Nat) = true) := by
  have hend : commonDays 146096 < 365 * 400 := (commonDays_ends 0 (by omega)).2.2
  have hlast : commonDays day ≤ commonDays 146096 := commonDays_mono (by omega)
  have hyear : commonDays day / 365 < 400 := by omega
  generalize hy : commonDays day / 365 = year at hyear ⊢
  have hlow : daysBefore year ≤ day := by
    by_contra hlt
    obtain ⟨previous, rfl⟩ : ∃ previous, year = previous + 1 := by
      refine ⟨year - 1, ?_⟩
      rcases Nat.eq_zero_or_pos year with rfl | hpos
      · simp [daysBefore] at hlt
      · omega
    have hprevious := (commonDays_ends previous (by omega)).2.1 (by omega)
    have hmono : commonDays day ≤ commonDays (daysBefore (previous + 1) - 1) :=
      commonDays_mono (by omega)
    omega
  have hhigh : year < 399 → day < daysBefore (year + 1) := by
    intro hless
    by_contra hge
    have hnext := (commonDays_ends (year + 1) (by omega)).1
    have hmono : commonDays (daysBefore (year + 1)) ≤ commonDays day :=
      commonDays_mono (by omega)
    omega
  refine ⟨hyear, hlow, ?_, fun hday => ?_⟩
  · rcases Nat.lt_or_ge year 399 with hless | hge
    · have hbefore := hhigh hless
      unfold daysBefore at hbefore ⊢
      omega
    · obtain rfl : year = 399 := by omega
      unfold daysBefore
      omega
  · simp only [isLeapYear, Bool.and_eq_true, Bool.or_eq_true, beq_iff_eq, bne_iff_ne]
    rcases Nat.lt_or_ge year 399 with hless | hge
    · have hbefore := hhigh hless
      have hfour : year / 4 = (year + 1) / 4 ∨ (year + 1) % 4 = 0 := by omega
      have hcentury : year / 100 = (year + 1) / 100 ∨
          (year + 1) % 100 = 0 ∧ (year + 1) / 100 = year / 100 + 1 := by omega
      unfold daysBefore at hbefore hday
      omega
    · obtain rfl : year = 399 := by omega
      decide

/-! ## Months -/

/-- The month of a day of the year, counted from March. -/
def monthIndex (day : Nat) : Nat := (5 * day + 2) / 153

/-- A month by its place behind March. -/
def monthOf (index : Nat) : Nat := if index < 10 then index + 3 else index - 9

/-- A day of a year lies in one of twelve months, and is the 29th of the last only as the last day
of its year. -/
lemma day_of_month : ∀ day < 366, monthIndex day < 12 ∧ (153 * monthIndex day + 2) / 5 ≤ day ∧
    (monthIndex day = 11 → day - (153 * monthIndex day + 2) / 5 < 28 ∨ day = 365) ∧
    (monthIndex day ∈ [1, 3, 6, 8] → day - (153 * monthIndex day + 2) / 5 < 30) ∧
    day - (153 * monthIndex day + 2) / 5 < 31 := by
  decide +kernel

/-! ## Days of numbers -/

/-- A day by its era and its number there. -/
lemma ofNumber_eq (era : Int) {day : Nat} (h : day < 146097) :
    ofNumber (era * eraDays + day - epochDays) =
      { year := (commonDays day / 365 : Nat) + era * 400 +
          if monthOf (monthIndex (day - daysBefore (commonDays day / 365))) ≤ 2 then 1 else 0
        month := monthOf (monthIndex (day - daysBefore (commonDays day / 365)))
        day := day - daysBefore (commonDays day / 365) -
          (153 * monthIndex (day - daysBefore (commonDays day / 365)) + 2) / 5 + 1 } := by
  obtain ⟨-, hlow, hhigh, -⟩ := daysBefore_le h
  have hera : (era * eraDays + day - epochDays + epochDays) / eraDays = era := by
    unfold eraDays
    omega
  have hday : (era * eraDays + day - epochDays + epochDays) % eraDays = day := by
    unfold eraDays
    omega
  have hyear : ((day : Int) - day / 1460 + day / 36524 - day / 146096) / 365 =
      (commonDays day / 365 : Nat) := by
    unfold commonDays
    omega
  simp only [ofNumber, hera, hday, hyear]
  generalize commonDays day / 365 = year at hlow hhigh ⊢
  have hrest : (day : Int) - (365 * (year : Int) + year / 4 - year / 100) =
      (day - daysBefore year : Nat) := by
    unfold daysBefore at hlow ⊢
    omega
  have hlt : day - daysBefore year < 366 := by omega
  rw [hrest]
  generalize day - daysBefore year = rest at hlt ⊢
  have hindex : (5 * (rest : Int) + 2) / 153 = (monthIndex rest : Nat) := by
    unfold monthIndex
    omega
  have hmonth : (if ((monthIndex rest : Nat) : Int) < 10 then ((monthIndex rest : Nat) : Int) + 3
      else (monthIndex rest : Nat) - 9) = (monthOf (monthIndex rest) : Nat) := by
    unfold monthOf
    split <;> split <;> omega
  have hle := (day_of_month rest hlt).2.1
  rw [hindex, hmonth, Date.mk.injEq]
  refine ⟨?_, Int.toNat_natCast _, by omega⟩
  split <;> split <;> omega

lemma exists_era (n : Int) :
    ∃ (era : Int) (day : Nat), day < 146097 ∧ n = era * eraDays + day - epochDays := by
  refine ⟨(n + epochDays) / eraDays, ((n + epochDays) % eraDays).toNat, ?_, ?_⟩ <;>
    unfold eraDays <;> omega

/-- The number of a day by its era, its year there and its place in that year. -/
lemma number_eq (era : Int) {year rest index : Nat} (hyear : year < 400) (hindex : index < 12)
    (hle : (153 * index + 2) / 5 ≤ rest) :
    number
        { year := year + era * 400 + if monthOf index ≤ 2 then 1 else 0
          month := monthOf index
          day := rest - (153 * index + 2) / 5 + 1 } =
      era * eraDays + (daysBefore year + rest : Nat) - epochDays := by
  have hfirst : (if monthOf index ≤ 2 then
      (year : Int) + era * 400 + (if monthOf index ≤ 2 then 1 else 0) - 1
      else (year : Int) + era * 400 + (if monthOf index ≤ 2 then 1 else 0)) = year + era * 400 := by
    split <;> omega
  have hera : ((year : Int) + era * 400) / 400 = era := by omega
  have hrest : ((year : Int) + era * 400) % 400 = year := by omega
  have hback : (monthOf index + 9) % 12 = index := by
    unfold monthOf
    split <;> omega
  dsimp only [number]
  rw [hfirst, hera, hrest, hback]
  unfold daysBefore
  omega

/-- The day with a number has that number. -/
theorem number_ofNumber (n : Int) : (ofNumber n).number = n := by
  obtain ⟨era, day, h, rfl⟩ := exists_era n
  obtain ⟨hyear, hlow, hhigh, -⟩ := daysBefore_le h
  rw [ofNumber_eq era h]
  generalize commonDays day / 365 = year at hyear hlow hhigh ⊢
  obtain ⟨hindex, hle, -⟩ := day_of_month (day - daysBefore year) (by omega)
  rw [number_eq era hyear hindex hle, Nat.add_sub_cancel' hlow]

/-- The length of a year does not depend on its era. -/
lemma isLeapYear_add_era (year era : Int) : isLeapYear (year + era * 400) = isLeapYear year := by
  have hfour : (year + era * 400) % 4 = year % 4 := by omega
  have hcentury : (year + era * 400) % 100 = year % 100 := by omega
  have hera : (year + era * 400) % 400 = year % 400 := by omega
  rw [isLeapYear, hfour, hcentury, hera, isLeapYear]

/-- Every number is that of a day that exists. -/
theorem isValid_ofNumber (n : Int) : (ofNumber n).isValid = true := by
  obtain ⟨era, day, h, rfl⟩ := exists_era n
  obtain ⟨hyear, hlow, hhigh, hleap⟩ := daysBefore_le h
  rw [ofNumber_eq era h]
  generalize commonDays day / 365 = year at hyear hlow hhigh hleap ⊢
  have hlt : day - daysBefore year < 366 := by omega
  have hlast : day - daysBefore year = 365 → isLeapYear (year + era * 400 + 1) = true := by
    intro hday
    have hleap := hleap (by omega)
    rw [← isLeapYear_add_era _ era] at hleap
    rwa [show (year : Int) + era * 400 + 1 = (year + 1 : Nat) + era * 400 by omega]
  generalize day - daysBefore year = rest at hlt hlast ⊢
  obtain ⟨hmonth, hle, hshort, hthirty, hday⟩ := day_of_month rest hlt
  generalize monthIndex rest = index at hmonth hle hshort hthirty hday ⊢
  simp only [isValid, Bool.and_eq_true, decide_eq_true_eq]
  refine ⟨⟨⟨?_, ?_⟩, by omega⟩, ?_⟩
  · unfold monthOf
    split <;> omega
  · unfold monthOf
    split <;> omega
  · interval_cases index <;> simp [monthOf, daysInMonth] at hshort hthirty ⊢ <;> try omega
    split
    · omega
    · rename_i hcommon
      have hne : rest ≠ 365 := fun heq => hcommon (hlast heq)
      omega

end Pipework.Time.Date
