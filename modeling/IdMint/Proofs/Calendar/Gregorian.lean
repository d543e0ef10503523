import IdMint.Calendar.Date

/-!
# The calendar, day by day

What a date is and which day comes after it is said here as in any almanac: months have their
lengths, and February has one day more in a leap year. From 1970-01-01 every other date is reached
by going on or back one day at a time, and `Date.Counts` says how many days that takes.

`Date.toDays` and `Date.ofDays` do not go day by day, and they count years from March. Both are
shown to agree with the almanac (`Date.counts_iff`, `Date.counts_ofDays`). The key is that a day has
only one place in a March year, so that the place of the day of a date can only be the one that the
date itself names (`Date.ofDays_toDays`).
-/

namespace IdMint.Calendar

/-! ## The almanac -/

/-- Every fourth year is a leap year, but of the hundredth ones only every fourth. -/
def isLeap (year : Int) : Bool := year % 4 == 0 && (year % 100 != 0 || year % 400 == 0)

def monthLength (year : Int) : Nat → Nat
  | 2 => if isLeap year then 29 else 28
  | 4 | 6 | 9 | 11 => 30
  | _ => 31

namespace Date

/-- A date that there is. -/
structure Valid (d : Date) : Prop where
  month_pos : 1 ≤ d.month
  month_le : d.month ≤ 12
  day_pos : 1 ≤ d.day
  day_le : d.day ≤ monthLength d.year d.month

instance (d : Date) : Decidable d.Valid :=
  decidable_of_iff (1 ≤ d.month ∧ d.month ≤ 12 ∧ 1 ≤ d.day ∧ d.day ≤ monthLength d.year d.month)
    ⟨fun ⟨a, b, c, e⟩ => ⟨a, b, c, e⟩, fun ⟨a, b, c, e⟩ => ⟨a, b, c, e⟩⟩

/-- The day after a date. -/
def next (d : Date) : Date :=
  if d.day < monthLength d.year d.month then { d with day := d.day + 1 }
  else if d.month < 12 then { d with month := d.month + 1, day := 1 }
  else { year := d.year + 1, month := 1, day := 1 }

/-- A date is so many days after 1970-01-01. -/
inductive Counts : Date → Int → Prop
  | start : Counts { year := 1970, month := 1, day := 1 } 0
  | later {d : Date} {n : Int} : Counts d n → Counts d.next (n + 1)
  | earlier {d : Date} {n : Int} : d.Valid → Counts d.next (n + 1) → Counts d n

/-! ## March years -/

/-- The number of a month in a year that begins in March. -/
def marchMonth (month : Nat) : Nat := if month ≤ 2 then month + 9 else month - 3

/-- The year that began in March before a date, or on it. -/
def marchYear (d : Date) : Int := if d.month ≤ 2 then d.year - 1 else d.year

/-- The days from the first of March to a date. -/
def sinceMarch (d : Date) : Nat := daysBefore (marchMonth d.month) + d.day - 1

theorem toDays_eq {d : Date} (h : 1 ≤ d.day) :
    d.toDays = daysBeforeYear d.marchYear + d.sinceMarch - marchToEpoch := by
  simp only [toDays, marchYear, sinceMarch, marchMonth]
  omega

/-- The days of a March year, whose leap day is its last. -/
def marchLength (year : Int) : Nat := if isLeap (year + 1) then 366 else 365

theorem le_marchLength (year : Int) : 365 ≤ marchLength year ∧ marchLength year ≤ 366 := by
  rw [marchLength]
  split <;> decide

theorem daysBeforeYear_succ (year : Int) :
    daysBeforeYear (year + 1) = daysBeforeYear year + marchLength year := by
  simp only [marchLength, isLeap, daysBeforeYear, Bool.and_eq_true, Bool.or_eq_true, beq_iff_eq,
    bne_iff_ne]
  split <;> omega

theorem daysBeforeYear_mono {a b : Int} (h : a ≤ b) : daysBeforeYear a ≤ daysBeforeYear b := by
  simp only [daysBeforeYear]
  omega

/-- **A day has one place in one March year.** -/
theorem marchYear_unique {a b : Int} {m n : Nat} (hm : m < marchLength a) (hn : n < marchLength b)
    (h : daysBeforeYear a + m = daysBeforeYear b + n) : a = b ∧ m = n := by
  have ha := daysBeforeYear_succ a
  have hb := daysBeforeYear_succ b
  rcases Int.lt_trichotomy a b with hlt | rfl | hlt
  · have := daysBeforeYear_mono (show a + 1 ≤ b from hlt)
    omega
  · exact ⟨rfl, by omega⟩
  · have := daysBeforeYear_mono (show b + 1 ≤ a from hlt)
    omega

/-! ## Months of a March year -/

/-- The month that a day of a March year lies in is the last one that has begun. -/
theorem daysBefore_le_iff {month inYear : Nat} :
    daysBefore month ≤ inYear ↔ month ≤ (5 * inYear + 2) / 153 := by
  simp only [daysBefore]
  omega

/-- The lengths of the months are what lies between their beginnings, save for February, which is
the last month of a March year and ends with it. -/
theorem daysBefore_add_monthLength (year : Int) {month : Nat} (hpos : 1 ≤ month)
    (hle : month ≤ 12) (hne : month ≠ 2) :
    daysBefore (marchMonth month) + monthLength year month = daysBefore (marchMonth month + 1) := by
  have hmonth : month = 1 ∨ month = 3 ∨ month = 4 ∨ month = 5 ∨ month = 6 ∨ month = 7 ∨
      month = 8 ∨ month = 9 ∨ month = 10 ∨ month = 11 ∨ month = 12 := by omega
  rcases hmonth with rfl | rfl | rfl | rfl | rfl | rfl | rfl | rfl | rfl | rfl | rfl <;> rfl

theorem daysBefore_add_february (year : Int) :
    daysBefore (marchMonth 2) + monthLength year 2 = marchLength (year - 1) := by
  simp only [marchLength, monthLength, Int.sub_add_cancel]
  split <;> rfl

theorem monthLength_le (year : Int) (month : Nat) : monthLength year month ≤ 31 := by
  unfold monthLength
  split <;> try split
  all_goals decide

/-- No month goes on when the next one has begun. -/
theorem Valid.lt_daysBefore {d : Date} (h : d.Valid) :
    d.sinceMarch < daysBefore (marchMonth d.month + 1) := by
  have hpos := h.day_pos
  have hle := h.day_le
  by_cases hmonth : d.month = 2
  · have hfebruary := daysBefore_add_february d.year
    have hyear := le_marchLength (d.year - 1)
    have hend : daysBefore (marchMonth 2 + 1) = 367 := rfl
    rw [hmonth] at hle
    rw [sinceMarch, hmonth]
    omega
  · have hmonths := daysBefore_add_monthLength d.year h.month_pos h.month_le hmonth
    rw [sinceMarch]
    omega

theorem Valid.sinceMarch_lt {d : Date} (h : d.Valid) : d.sinceMarch < marchLength d.marchYear := by
  have hpos := h.day_pos
  have hle := h.day_le
  by_cases hmonth : d.month = 2
  · have hfebruary := daysBefore_add_february d.year
    rw [hmonth] at hle
    rw [sinceMarch, marchYear, if_pos (by omega), hmonth]
    omega
  · have hlt := h.lt_daysBefore
    have hmarch : marchMonth d.month + 1 ≤ 11 := by
      have := h.month_pos
      have := h.month_le
      rw [marchMonth]
      split <;> omega
    have hbefore : daysBefore (marchMonth d.month + 1) ≤ 337 := by
      simp only [daysBefore]
      omega
    have hyear := le_marchLength d.marchYear
    omega

/-- A date is named again from its place in its March year. -/
theorem Valid.ofYearDay {d : Date} (h : d.Valid) :
    Date.ofYearDay d.marchYear d.sinceMarch = d := by
  have hpos := h.day_pos
  have hlt := h.lt_daysBefore
  have hbefore : daysBefore (marchMonth d.month) ≤ d.sinceMarch := by
    rw [sinceMarch]
    omega
  have hindex : (5 * d.sinceMarch + 2) / 153 = marchMonth d.month := by
    have hge := daysBefore_le_iff.mp hbefore
    have hle := mt daysBefore_le_iff.mpr (Nat.not_le.mpr hlt)
    omega
  have hday : d.sinceMarch - daysBefore (marchMonth d.month) + 1 = d.day := by
    rw [sinceMarch]
    omega
  have hmonth := h.month_pos
  have hlast := h.month_le
  obtain ⟨year, month, day⟩ := d
  simp only [Date.ofYearDay, hindex, hday]
  simp only [marchMonth, marchYear] at hmonth hlast ⊢
  by_cases hm : month ≤ 2
  · simp only [if_pos hm]
    rw [if_neg (by omega), Int.sub_add_cancel, Nat.add_sub_cancel]
  · simp only [if_neg hm]
    rw [if_pos (by omega), Nat.sub_add_cancel (by omega)]

/-- Every place in a March year is that of a date. -/
theorem valid_ofYearDay {year : Int} {inYear : Nat} (h : inYear < marchLength year) :
    (Date.ofYearDay year inYear).Valid := by
  generalize hm : (5 * inYear + 2) / 153 = m
  have hbefore : daysBefore m ≤ inYear := daysBefore_le_iff.mpr (Nat.le_of_eq hm.symm)
  have hafter : inYear < daysBefore (m + 1) := by
    refine Nat.not_le.mp fun hle => ?_
    have := daysBefore_le_iff.mp hle
    omega
  have hyear := le_marchLength year
  have hlast : m ≤ 11 := by omega
  have hvalid (y : Int) (month : Nat) (hpos : 1 ≤ month) (hle : month ≤ 12) (hne : month ≠ 2)
      (hmarch : marchMonth month = m) :
      Valid { year := y, month, day := inYear - daysBefore m + 1 } := by
    have hmonths := daysBefore_add_monthLength y hpos hle hne
    rw [hmarch] at hmonths
    exact ⟨hpos, hle, Nat.le_add_left 1 _, by dsimp only; omega⟩
  simp only [Date.ofYearDay, hm]
  by_cases hten : m < 10
  · rw [if_pos hten]
    refine hvalid year (m + 3) (by omega) (by omega) (by omega) ?_
    rw [marchMonth, if_neg (by omega), Nat.add_sub_cancel]
  · rw [if_neg hten]
    obtain rfl | rfl : m = 10 ∨ m = 11 := by omega
    · exact hvalid (year + 1) 1 (by decide) (by decide) (by decide) rfl
    · have hfebruary := daysBefore_add_february (year + 1)
      rw [Int.add_sub_cancel] at hfebruary
      have hmarch : daysBefore (marchMonth 2) = daysBefore 11 := rfl
      refine ⟨Nat.le_add_left 1 1, Nat.le_add_left 2 10, Nat.le_add_left 1 _, ?_⟩
      show inYear - daysBefore 11 + 1 ≤ monthLength (year + 1) 2
      omega

/-! ## Both directions agree -/

/-- The name of a day is that of its place in its March year. -/
theorem exists_ofDays (days : Int) :
    ∃ year inYear, inYear < marchLength year ∧
      days = daysBeforeYear year + inYear - marchToEpoch ∧ ofDays days = ofYearDay year inYear := by
  simp only [ofDays]
  generalize hz : days + marchToEpoch = z
  generalize hn : (z % 146097).toNat = n
  generalize hc : min (n / 36524) 3 = c
  generalize hm : n - c * 36524 = m
  generalize hq : m / 1461 = q
  generalize hr : m - q * 1461 = r
  generalize hs : min (r / 365) 3 = s
  have inPeriod : n < 146097 := by omega
  have century : c ≤ 3 ∧ n = c * 36524 + m ∧ m ≤ 36524 ∧ (c < 3 → m < 36524) := by omega
  have quad : q ≤ 24 ∧ m = q * 1461 + r ∧ r < 1461 := by omega
  have single : s ≤ 3 ∧ s * 365 ≤ r ∧ (s < 3 → r < (s + 1) * 365) := by omega
  have hyear := daysBeforeYear_split (z / 146097) century.1 quad.1 single.1
  refine ⟨_, _, ?_, ?_, rfl⟩
  · have hlength := le_marchLength (400 * (z / 146097) + 100 * c + 4 * q + s)
    by_cases hlast : s = 3 ∧ r = 1460
    · -- The last day of four years. It is there in a leap year only, and this is one.
      have hleap : isLeap (400 * (z / 146097) + 100 * c + 4 * q + s + 1) = true := by
        simp only [isLeap, Bool.and_eq_true, Bool.or_eq_true, beq_iff_eq, bne_iff_ne]
        omega
      rw [marchLength, if_pos hleap]
      omega
    · omega
  · rw [hyear]
    omega

/-- Every day has a name, and it is that of a date. -/
theorem valid_ofDays (days : Int) : (ofDays days).Valid := by
  obtain ⟨year, inYear, hlt, -, h⟩ := exists_ofDays days
  rw [h]
  exact valid_ofYearDay hlt

/-- **A date is the name of the day that it names.** -/
theorem ofDays_toDays {d : Date} (h : d.Valid) : ofDays d.toDays = d := by
  obtain ⟨year, inYear, hlt, hdays, hname⟩ := exists_ofDays d.toDays
  have hplace := toDays_eq h.day_pos
  obtain ⟨rfl, rfl⟩ := marchYear_unique h.sinceMarch_lt hlt (by omega)
  rw [hname, h.ofYearDay]

theorem toDays_injective {d e : Date} (hd : d.Valid) (he : e.Valid) (h : d.toDays = e.toDays) :
    d = e := by
  rw [← ofDays_toDays hd, h, ofDays_toDays he]

/-! ## Years -/

theorem toDays_newYear (year : Int) :
    toDays { year, month := 1, day := 1 } = daysBeforeYear (year - 1) + 306 - marchToEpoch := by
  have hmarch : marchMonth 1 = 10 := rfl
  have hbefore : daysBefore 10 = 306 := rfl
  rw [toDays_eq (Nat.le_refl 1)]
  simp only [marchYear, sinceMarch, hmarch, hbefore]
  rw [if_pos (by decide)]
  rfl

/-- A date lies between the new years of its year and of the next. -/
theorem Valid.between_newYears {d : Date} (h : d.Valid) :
    toDays { year := d.year, month := 1, day := 1 } ≤ d.toDays ∧
      d.toDays < toDays { year := d.year + 1, month := 1, day := 1 } := by
  have hmonth := h.month_pos
  have hlast := h.month_le
  have hlength := h.sinceMarch_lt
  have hmonths := h.lt_daysBefore
  have hyear := daysBeforeYear_succ (d.year - 1)
  have hleap := le_marchLength (d.year - 1)
  rw [Int.sub_add_cancel] at hyear
  rw [toDays_newYear, toDays_newYear, Int.add_sub_cancel, toDays_eq h.day_pos]
  by_cases hm : d.month ≤ 2
  · have hbegun : 306 ≤ daysBefore (marchMonth d.month) := by
      rw [marchMonth, if_pos hm, daysBefore]
      omega
    rw [marchYear, if_pos hm] at hlength ⊢
    rw [sinceMarch] at hlength ⊢
    have hday := h.day_pos
    omega
  · have hend : daysBefore (marchMonth d.month + 1) ≤ 306 := by
      rw [marchMonth, if_neg hm, daysBefore]
      omega
    rw [marchYear, if_neg hm]
    omega

theorem toDays_newYear_mono {a b : Int} (h : a ≤ b) :
    toDays { year := a, month := 1, day := 1 } ≤ toDays { year := b, month := 1, day := 1 } := by
  have hmono := daysBeforeYear_mono (show a - 1 ≤ b - 1 by omega)
  rw [toDays_newYear, toDays_newYear]
  omega

/-- A date is in a year or a later one if it is not before the first day of the year. -/
theorem Valid.le_year_iff {d : Date} (h : d.Valid) (year : Int) :
    year ≤ d.year ↔ toDays { year, month := 1, day := 1 } ≤ d.toDays := by
  obtain ⟨hbegun, hend⟩ := h.between_newYears
  constructor
  · intro hle
    exact Int.le_trans (toDays_newYear_mono hle) hbegun
  · intro hle
    refine Int.not_lt.mp fun hlt => ?_
    have hmono := toDays_newYear_mono (show d.year + 1 ≤ year from hlt)
    omega

/-! ## From day to day -/

theorem monthLength_pos (year : Int) (month : Nat) : 1 ≤ monthLength year month := by
  unfold monthLength
  split <;> try split
  all_goals decide

theorem Valid.next {d : Date} (h : d.Valid) : d.next.Valid := by
  have hpos := h.month_pos
  unfold Date.next
  split
  · exact ⟨hpos, h.month_le, Nat.le_add_left 1 _, by assumption⟩
  · split
    · exact ⟨Nat.le_add_left 1 _, by assumption, Nat.le_refl 1, monthLength_pos _ _⟩
    · exact ⟨Nat.le_refl 1, Nat.le_add_left 1 11, Nat.le_refl 1, monthLength_pos _ _⟩

/-- The first of March follows on the end of February, where a March year ends. -/
theorem toDays_first_of_march {d : Date} (h : d.Valid) (hmonth : d.month = 2)
    (hlast : d.day = monthLength d.year d.month) :
    toDays { year := d.year, month := 3, day := 1 } = d.toDays + 1 := by
  have hyear := daysBeforeYear_succ (d.year - 1)
  have hfebruary := daysBefore_add_february d.year
  have hmarch : daysBefore (marchMonth 3) = 0 := rfl
  have hday := h.day_pos
  rw [Int.sub_add_cancel] at hyear
  rw [hmonth] at hlast
  rw [toDays_eq hday, toDays_eq (Nat.le_refl 1)]
  simp only [marchYear, sinceMarch, hmonth]
  rw [if_neg (by decide), if_pos (by decide)]
  omega

/-- The first day of any other month follows on the month before it within a March year. -/
theorem toDays_first_of_month {d : Date} {year : Int} {month : Nat} (h : d.Valid)
    (hne : d.month ≠ 2) (hlast : d.day = monthLength d.year d.month)
    (hyear : marchYear { year, month, day := 1 } = d.marchYear)
    (hmonth : marchMonth month = marchMonth d.month + 1) :
    toDays { year, month, day := 1 } = d.toDays + 1 := by
  have hmonths := daysBefore_add_monthLength d.year h.month_pos h.month_le hne
  have hday := h.day_pos
  rw [toDays_eq hday, toDays_eq (Nat.le_refl 1), hyear]
  simp only [sinceMarch, hmonth]
  omega

/-- **The day after a date is one more.** -/
theorem toDays_next {d : Date} (h : d.Valid) : d.next.toDays = d.toDays + 1 := by
  have hday := h.day_pos
  have hle := h.day_le
  have hpos := h.month_pos
  have hend := h.month_le
  unfold Date.next
  split
  · rw [toDays_eq hday, toDays_eq (Nat.le_add_left 1 _)]
    simp only [marchYear, sinceMarch]
    omega
  · have hlast : d.day = monthLength d.year d.month := by omega
    split
    · by_cases hfebruary : d.month = 2
      · rw [hfebruary]
        exact toDays_first_of_march h hfebruary hlast
      · refine toDays_first_of_month h hfebruary hlast ?_ ?_
        · simp only [marchYear]
          split <;> split <;> omega
        · simp only [marchMonth]
          split <;> split <;> omega
    · have hdecember : d.month = 12 := by omega
      refine toDays_first_of_month h (by omega) hlast ?_ ?_
      · rw [marchYear, marchYear, hdecember]
        exact Int.add_sub_cancel _ _
      · rw [hdecember]
        rfl

/-- The names of days follow each other. -/
theorem ofDays_succ (days : Int) : ofDays (days + 1) = (ofDays days).next := by
  have hvalid := valid_ofDays days
  refine toDays_injective (valid_ofDays _) hvalid.next ?_
  rw [toDays_next hvalid, toDays_ofDays, toDays_ofDays]

/-- **Every day is reached from 1970-01-01**, day by day. -/
theorem counts_ofDays (days : Int) : Counts (ofDays days) days := by
  have hforward (n : Nat) : Counts (ofDays n) n := by
    induction n with
    | zero => exact .start
    | succ n ih =>
      rw [Int.natCast_succ, ofDays_succ]
      exact .later ih
  have hback (n : Nat) : Counts (ofDays (-n)) (-n) := by
    induction n with
    | zero => exact .start
    | succ n ih =>
      refine .earlier (valid_ofDays _) ?_
      rw [← ofDays_succ, show -((n + 1 : Nat) : Int) + 1 = -(n : Int) by omega]
      exact ih
  rcases Int.le_total 0 days with hle | hle
  · rw [Int.eq_natAbs_of_nonneg hle]
    exact hforward _
  · rw [Int.eq_neg_natAbs_of_nonpos hle]
    exact hback _

/-- **What a date counts to by going day by day is what `Date.toDays` says.** -/
theorem counts_iff {d : Date} {days : Int} : Counts d days ↔ d.Valid ∧ d.toDays = days := by
  constructor
  · intro h
    induction h with
    | start => decide
    | later _ ih => exact ⟨ih.1.next, by rw [toDays_next ih.1, ih.2]⟩
    | earlier hvalid _ ih =>
      refine ⟨hvalid, ?_⟩
      have := toDays_next hvalid
      omega
  · rintro ⟨hvalid, rfl⟩
    have h := counts_ofDays d.toDays
    rwa [ofDays_toDays hvalid] at h

end Date
end IdMint.Calendar
