import Mathlib.Data.Int.ConditionallyCompleteOrder
import Mathlib.Order.ConditionallyCompleteLattice.Basic
import ZeroVpn.Db.Calendar

/-!
# Months

Months are numbered: month `k` is month `k % 12 + 1` of the year `k / 12`.
`monthStart k` is its first day, `monthOf t` the month of an instant.  The
boundary functions of `users.rs` are the starts of the month of an instant and
of the next one, and the months split the time line: `monthOf` is monotone and
every instant lies between the two boundaries of its month.
-/

namespace ZeroVpn
namespace Db

section YearOfEra

/-- The years of one century of an era, by the day `r` of the century `c`. -/
theorem yearOfCentury {c r y : Int} (hc : 0 ≤ c ∧ c ≤ 3) (hr : 0 ≤ r ∧ r < 36524)
    (hy : y = (r - (24 * c + r) / 1460) / 365) :
    0 ≤ y ∧ y ≤ 99 ∧ 365 * y + y / 4 ≤ r ∧
      r < 365 * (y + 1) + (y + 1) / 4 - (y + 1) / 100 := by
  have hrange : 0 ≤ y ∧ y ≤ 99 := by omega
  have hlow : 365 * y + y / 4 ≤ r := by omega
  refine ⟨hrange.1, hrange.2, hlow, ?_⟩
  rcases (by omega : y ≤ 98 ∨ y = 99) with hshort | hlast
  · have hhigh : r < 365 * (y + 1) + (y + 1) / 4 := by
      clear hlow
      omega
    have hcentury : (y + 1) / 100 = 0 := by omega
    rw [hcentury]
    omega
  · subst hlast
    omega

/-- The year of a day of an era, and the days before it and before the next. -/
theorem yearOfEra_spec {n y : Int} (hn : 0 ≤ n ∧ n < 146097)
    (hy : y = (n - n / 1460 + n / 36524 - n / 146096) / 365) :
    0 ≤ y ∧ y ≤ 399 ∧ 365 * y + y / 4 - y / 100 ≤ n ∧
      n < 365 * (y + 1) + (y + 1) / 4 - (y + 1) / 100 + (y + 1) / 400 := by
  by_cases hlast : n = 146096
  · subst hlast
    omega
  · -- the first days of a century, with its day and its year
    obtain ⟨c, hc⟩ : ∃ c, c = n / 36524 := ⟨_, rfl⟩
    have hcentury : 0 ≤ c ∧ c ≤ 3 := by omega
    have hday : 0 ≤ n - 36524 * c ∧ n - 36524 * c < 36524 := by omega
    have hyear : y - 100 * c =
        (n - 36524 * c - (24 * c + (n - 36524 * c)) / 1460) / 365 := by omega
    obtain ⟨hlow, hhigh, hstart, hend⟩ := yearOfCentury hcentury hday hyear
    clear hyear hy hc
    obtain ⟨z, rfl⟩ : ∃ z, y = 100 * c + z := ⟨y - 100 * c, by omega⟩
    have hz : 100 * c + z - 100 * c = z := by omega
    rw [hz] at hlow hhigh hstart hend
    have hquarter : (100 * c + z) / 4 = 25 * c + z / 4 := by omega
    have hhundred : (100 * c + z) / 100 = c := by omega
    refine ⟨by omega, by omega, by omega, ?_⟩
    rcases (by omega : z ≤ 98 ∨ z = 99) with hshort | hlast
    · have hquarter' : (100 * c + z + 1) / 4 = 25 * c + (z + 1) / 4 := by omega
      have hhundred' : (100 * c + z + 1) / 100 = c := by omega
      have hera : (100 * c + z + 1) / 400 = 0 := by omega
      rw [hquarter', hhundred', hera]
      omega
    · subst hlast
      omega

end YearOfEra

/-- The day number of 1 March of the year `y`. -/
def marchStart (y : Int) : Int := 365 * y + y / 4 - y / 100 + y / 400 - 719468

theorem marchStart_lt (y : Int) : marchStart y + 365 ≤ marchStart (y + 1) := by
  unfold marchStart
  omega

/-- The first day of a month. -/
theorem toDays_first (y m : Int) :
    Date.toDays ⟨y, m, 1⟩ =
      if m ≤ 2 then marchStart (y - 1) + (153 * (m + 9) + 2) / 5
      else marchStart y + (153 * (m - 3) + 2) / 5 := by
  unfold Date.toDays marchStart
  dsimp only
  by_cases hm : m ≤ 2
  · rw [if_pos hm, if_pos hm, if_neg (by omega)]
    omega
  · rw [if_neg hm, if_neg hm, if_pos (by omega)]
    omega

/-- The first day of the month `k`. -/
def monthStart (k : Int) : Int := Date.toDays ⟨k / 12, k % 12 + 1, 1⟩

theorem monthStart_lt (k : Int) : monthStart k < monthStart (k + 1) := by
  have hmarch := marchStart_lt (k / 12 - 1)
  have hsucc : k / 12 - 1 + 1 = k / 12 := by omega
  rw [hsucc] at hmarch
  unfold monthStart
  rw [toDays_first, toDays_first]
  rcases (by omega : (k % 12 = 11 ∧ (k + 1) / 12 = k / 12 + 1 ∧ (k + 1) % 12 = 0) ∨
      (k % 12 < 11 ∧ (k + 1) / 12 = k / 12 ∧ (k + 1) % 12 = k % 12 + 1)) with
    ⟨hmonth, hyear, hnext⟩ | ⟨hmonth, hyear, hnext⟩
  · rw [hmonth, hyear, hnext, if_neg (by omega), if_pos (by omega)]
    have hsame : k / 12 + 1 - 1 = k / 12 := by omega
    rw [hsame]
    omega
  · rw [hyear, hnext]
    split
    · split
      · omega
      · omega
    · rw [if_neg (by omega)]
      omega

theorem monthStart_strictMono : StrictMono monthStart := by
  refine strictMono_int_of_lt_succ ?_
  intro k
  exact monthStart_lt k

/-- The month of a date. -/
def Date.monthIndex (d : Date) : Int := 12 * d.year + d.month - 1

/-- The date of a day by its distance `r` from 1 March of the year `y`. -/
theorem ofDays_march (n : Int) :
    ∃ y r, n = marchStart y + r ∧ 0 ≤ r ∧ n < marchStart (y + 1) ∧
      (Date.ofDays n).month =
        (if (5 * r + 2) / 153 < 10 then (5 * r + 2) / 153 + 3 else (5 * r + 2) / 153 - 9) ∧
      (Date.ofDays n).year = y + if (Date.ofDays n).month ≤ 2 then 1 else 0 := by
  obtain ⟨era, hera⟩ : ∃ era, era = (n + 719468) / 146097 := ⟨_, rfl⟩
  obtain ⟨doe, hdoe⟩ : ∃ doe, doe = n + 719468 - era * 146097 := ⟨_, rfl⟩
  obtain ⟨yoe, hyoe⟩ : ∃ yoe, yoe = (doe - doe / 1460 + doe / 36524 - doe / 146096) / 365 :=
    ⟨_, rfl⟩
  obtain ⟨hlow, hhigh, hstart, hend⟩ :=
    yearOfEra_spec (by omega : 0 ≤ doe ∧ doe < 146097) hyoe
  -- the eras are 400 years of 146097 days
  have hquarter : (yoe + era * 400) / 4 = yoe / 4 + era * 100 := by omega
  have hhundred : (yoe + era * 400) / 100 = yoe / 100 + era * 4 := by omega
  have hfour : (yoe + era * 400) / 400 = era := by omega
  have hquarter' : (yoe + era * 400 + 1) / 4 = (yoe + 1) / 4 + era * 100 := by omega
  have hhundred' : (yoe + era * 400 + 1) / 100 = (yoe + 1) / 100 + era * 4 := by omega
  have hfour' : (yoe + era * 400 + 1) / 400 = (yoe + 1) / 400 + era := by omega
  refine ⟨yoe + era * 400, doe - (365 * yoe + yoe / 4 - yoe / 100), ?_, by omega, ?_, ?_, ?_⟩
  · unfold marchStart
    rw [hquarter, hhundred, hfour]
    omega
  · unfold marchStart
    rw [hquarter', hhundred', hfour']
    omega
  · subst hyoe hdoe hera
    rfl
  · subst hyoe hdoe hera
    rfl

/-- The first day of a month, by the months from March on. -/
theorem monthStart_index {y m : Int} (hm : 1 ≤ m ∧ m ≤ 12) :
    monthStart (12 * y + m - 1) = Date.toDays ⟨y, m, 1⟩ := by
  unfold monthStart
  rw [(by omega : (12 * y + m - 1) / 12 = y), (by omega : (12 * y + m - 1) % 12 + 1 = m)]

/-- A day lies in the month of its date. -/
theorem ofDays_spec (n : Int) :
    (1 ≤ (Date.ofDays n).month ∧ (Date.ofDays n).month ≤ 12) ∧
      monthStart (Date.ofDays n).monthIndex ≤ n ∧
      n < monthStart ((Date.ofDays n).monthIndex + 1) := by
  obtain ⟨y, r, hn, hr, hend, hmonth, hyear⟩ := ofDays_march n
  generalize Date.ofDays n = d at hmonth hyear ⊢
  have hyear' : marchStart (y + 1) ≤ marchStart y + 366 := by
    unfold marchStart
    omega
  obtain ⟨mp, hmp⟩ : ∃ mp, mp = (5 * r + 2) / 153 := ⟨_, rfl⟩
  rw [← hmp] at hmonth
  have hrange : 1 ≤ d.month ∧ d.month ≤ 12 := by
    split at hmonth
    · omega
    · omega
  refine ⟨hrange, ?_⟩
  obtain ⟨year, month, day⟩ := d
  dsimp only [Date.monthIndex] at hmonth hyear hrange ⊢
  rw [monthStart_index hrange, toDays_first]
  rcases (by omega : mp < 9 ∨ mp = 9 ∨ mp = 10 ∨ mp = 11) with hspring | hdec | hjan | hfeb
  · rw [if_pos (by omega)] at hmonth
    rw [if_neg (by omega)] at hyear
    rw [(by omega : 12 * year + month - 1 + 1 = 12 * year + (month + 1) - 1),
      monthStart_index (by omega), toDays_first, if_neg (by omega), if_neg (by omega),
      (by omega : year = y)]
    omega
  · rw [if_pos (by omega)] at hmonth
    rw [if_neg (by omega)] at hyear
    rw [(by omega : 12 * year + month - 1 + 1 = 12 * (year + 1) + 1 - 1),
      monthStart_index (by omega), toDays_first, if_neg (by omega), if_pos (by omega),
      (by omega : year + 1 - 1 = y), (by omega : year = y)]
    omega
  · rw [if_neg (by omega)] at hmonth
    rw [if_pos (by omega)] at hyear
    rw [(by omega : 12 * year + month - 1 + 1 = 12 * year + (month + 1) - 1),
      monthStart_index (by omega), toDays_first, if_pos (by omega), if_pos (by omega),
      (by omega : year - 1 = y)]
    omega
  · rw [if_neg (by omega)] at hmonth
    rw [if_pos (by omega)] at hyear
    rw [(by omega : 12 * year + month - 1 + 1 = 12 * year + (month + 1) - 1),
      monthStart_index (by omega), toDays_first, if_pos (by omega), if_neg (by omega),
      (by omega : year - 1 = y), (by omega : year = y + 1)]
    omega

section Instants

variable {t t' : Int}

/-- The month of an instant. -/
def monthOf (t : Int) : Int := (dateOf t).monthIndex

theorem firstOfMonth_eq (t : Int) : firstOfMonth t = monthStart (monthOf t) * nanosPerDay := by
  obtain ⟨hrange, _⟩ := ofDays_spec (t / nanosPerDay)
  change 1 ≤ (dateOf t).month ∧ (dateOf t).month ≤ 12 at hrange
  unfold firstOfMonth midnight monthOf Date.monthIndex
  rw [monthStart_index hrange]

theorem firstOfNextMonth_eq (t : Int) :
    firstOfNextMonth t = monthStart (monthOf t + 1) * nanosPerDay := by
  obtain ⟨hrange, _⟩ := ofDays_spec (t / nanosPerDay)
  change 1 ≤ (dateOf t).month ∧ (dateOf t).month ≤ 12 at hrange
  unfold firstOfNextMonth midnight monthOf Date.monthIndex
  split
  · rename_i hdec
    rw [(by omega : 12 * (dateOf t).year + (dateOf t).month - 1 + 1 =
      12 * ((dateOf t).year + 1) + 1 - 1), monthStart_index (by omega)]
  · rename_i hdec
    rw [(by omega : 12 * (dateOf t).year + (dateOf t).month - 1 + 1 =
      12 * (dateOf t).year + ((dateOf t).month + 1) - 1), monthStart_index (by omega)]

/-- An instant lies in the cycle of its month. -/
theorem firstOfMonth_le (t : Int) : firstOfMonth t ≤ t := by
  obtain ⟨_, hstart, _⟩ := ofDays_spec (t / nanosPerDay)
  rw [firstOfMonth_eq]
  unfold monthOf dateOf nanosPerDay at *
  omega

theorem lt_firstOfNextMonth (t : Int) : t < firstOfNextMonth t := by
  obtain ⟨_, _, hend⟩ := ofDays_spec (t / nanosPerDay)
  rw [firstOfNextMonth_eq]
  unfold monthOf dateOf nanosPerDay at *
  omega

/-- The months in the order of time. -/
theorem monthOf_lt_iff : monthOf t < monthOf t' ↔ firstOfNextMonth t ≤ t' := by
  have hpos : (0 : Int) < nanosPerDay := by decide
  constructor
  · intro hlt
    have hstart : monthStart (monthOf t + 1) ≤ monthStart (monthOf t') :=
      monthStart_strictMono.monotone (by omega)
    calc firstOfNextMonth t
        = monthStart (monthOf t + 1) * nanosPerDay := firstOfNextMonth_eq t
      _ ≤ monthStart (monthOf t') * nanosPerDay := Int.mul_le_mul_of_nonneg_right hstart hpos.le
      _ = firstOfMonth t' := (firstOfMonth_eq t').symm
      _ ≤ t' := firstOfMonth_le t'
  · intro hle
    by_contra hnot
    have hend : monthStart (monthOf t' + 1) ≤ monthStart (monthOf t + 1) :=
      monthStart_strictMono.monotone (by omega)
    have hlt : t' < firstOfNextMonth t := by
      calc t' < firstOfNextMonth t' := lt_firstOfNextMonth t'
        _ = monthStart (monthOf t' + 1) * nanosPerDay := firstOfNextMonth_eq t'
        _ ≤ monthStart (monthOf t + 1) * nanosPerDay :=
            Int.mul_le_mul_of_nonneg_right hend hpos.le
        _ = firstOfNextMonth t := (firstOfNextMonth_eq t).symm
    omega

theorem monthOf_mono (h : t ≤ t') : monthOf t ≤ monthOf t' := by
  by_contra hnot
  have hle := monthOf_lt_iff.mp (by omega : monthOf t' < monthOf t)
  have hlt := lt_firstOfNextMonth t'
  omega

/-- The cycle of an instant, `[first_of_month, first_of_next_month)`, is its
month. -/
theorem inCycle_iff :
    (firstOfMonth t ≤ t' ∧ t' < firstOfNextMonth t) ↔ monthOf t' = monthOf t := by
  constructor
  · rintro ⟨hstart, hend⟩
    have hnot := mt monthOf_lt_iff.mp (by omega : ¬firstOfNextMonth t ≤ t')
    have hle : monthOf t ≤ monthOf t' := by
      by_contra hlt
      have hnext : monthStart (monthOf t' + 1) ≤ monthStart (monthOf t) :=
        monthStart_strictMono.monotone (by omega)
      have hbound : firstOfNextMonth t' ≤ firstOfMonth t := by
        rw [firstOfNextMonth_eq, firstOfMonth_eq]
        exact Int.mul_le_mul_of_nonneg_right hnext (by decide)
      have hlater := lt_firstOfNextMonth t'
      omega
    omega
  · intro hsame
    rw [firstOfMonth_eq, firstOfNextMonth_eq, ← hsame, ← firstOfMonth_eq, ← firstOfNextMonth_eq]
    exact ⟨firstOfMonth_le t', lt_firstOfNextMonth t'⟩

end Instants

end Db
end ZeroVpn
