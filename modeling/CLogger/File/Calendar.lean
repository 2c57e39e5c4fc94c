import CLogger.Lib.Decimal
import CLogger.Record

/-!
# Archive timestamps

The UTC calendar behind the archive names of `logger_file.c`: `gmtime`, the proleptic Gregorian
date of a number of seconds, the `strftime` format `%Y%m%dT%H%M%S`, and the name
`<stem>.<stamp>.<microseconds>Z<ext>`. The main result is `archiveText_lt`: names of later
timestamps are greater in the byte order of strings.
-/

namespace CLogger

/-- A number of decimal digits. -/
def AllDigits (n : ℕ) (digits : CString) : Prop :=
  digits.length = n ∧ ∀ c ∈ digits, 48 ≤ c ∧ c ≤ 57

theorem AllDigits.not_mem {n : ℕ} {digits : CString} (h : AllDigits n digits) {c : UInt8}
    (hc : c < 48) : c ∉ digits := fun hmem => absurd (h.2 c hmem).1 (UInt8.not_le.mpr hc)

theorem allDigits_field (w n : ℕ) : AllDigits w (Decimal.field w n) :=
  ⟨Decimal.length_field w n, fun _ => Decimal.digit_of_mem_field⟩

theorem AllDigits.append {m n : ℕ} {x y : CString} (hx : AllDigits m x) (hy : AllDigits n y) :
    AllDigits (m + n) (x ++ y) := by
  refine ⟨by rw [List.length_append, hx.1, hy.1], fun c hc => ?_⟩
  exact (List.mem_append.mp hc).elim (hx.2 c) (hy.2 c)

/-- The fields of `struct tm` that the file backend reads. -/
structure Tm where
  /-- Years since 1900, `tm_year`. -/
  year : ℤ
  /-- Months since January, `tm_mon`. -/
  mon : ℕ
  /-- Day of the month from 1, `tm_mday`. -/
  mday : ℕ
  hour : ℕ
  min : ℕ
  sec : ℕ
  deriving DecidableEq, Repr

namespace Calendar

/-- Year and day of the year, from 0, of the day `n` days after 1 January of year 1. -/
def yearDay (n : ℤ) : ℤ × ℕ :=
  let r400 := (n % 146097).toNat
  let n100 := min 3 (r400 / 36524)
  let r100 := r400 - n100 * 36524
  let r4 := r100 % 1461
  let n1 := min 3 (r4 / 365)
  (400 * (n / 146097) + 100 * n100 + 4 * (r100 / 1461 : ℕ) + n1 + 1, r4 - n1 * 365)

/-- The leap years of the Gregorian calendar. -/
def isLeap (year : ℤ) : Bool := year % 4 = 0 ∧ (year % 100 ≠ 0 ∨ year % 400 = 0)

/-- The lengths of the months. -/
def monthLengths (leap : Bool) : List ℕ :=
  [31, if leap then 29 else 28, 31, 30, 31, 30, 31, 31, 30, 31, 30, 31]

/-- Month and day of the month, both from 0, of a day of the year. -/
def monthDay : List ℕ → ℕ → ℕ × ℕ
  | [], d => (0, d)
  | len :: lens, d =>
    if d < len then (0, d) else ((monthDay lens (d - len)).1 + 1, (monthDay lens (d - len)).2)

end Calendar

open Calendar

/-- `gmtime_r`: the proleptic Gregorian date, 1 January 1970 being day 719162 of the calendar. -/
def gmtime (sec : ℤ) : Tm :=
  let date := yearDay (sec / 86400 + 719162)
  let day := monthDay (monthLengths (isLeap date.1)) date.2
  let time := (sec % 86400).toNat
  { year := date.1 - 1900, mon := day.1, mday := day.2 + 1
    hour := time / 3600, min := time / 60 % 60, sec := time % 60 }

/-- `strftime` with the format `%Y%m%dT%H%M%S`. The minimal width of `%Y` is up to the C library:
1 in some of them, 4 in others. -/
def strftimeStamp (yearWidth : ℕ) (tm : Tm) : List UInt8 :=
  Decimal.atLeast yearWidth (tm.year + 1900).toNat ++
    (Decimal.field 2 (tm.mon + 1) ++ (Decimal.field 2 tm.mday ++ (84 ::
      (Decimal.field 2 tm.hour ++ (Decimal.field 2 tm.min ++ Decimal.field 2 tm.sec)))))

/-- The name that `archive_name` prints, `"%s.%s.%06ldZ%s"`. -/
def archiveText (stem ext stamp : CString) (nsec : ℤ) : CString :=
  stem ++ (46 :: (stamp ++ (46 :: (Decimal.atLeast 6 (nsec / 1000).toNat ++ (90 :: ext)))))

/-- The order of timestamps. -/
def Timespec.Before (t t' : Timespec) : Prop := t.sec < t'.sec ∨ t.sec = t'.sec ∧ t.nsec < t'.nsec

instance (t t' : Timespec) : Decidable (t.Before t') :=
  inferInstanceAs (Decidable (t.sec < t'.sec ∨ t.sec = t'.sec ∧ t.nsec < t'.nsec))

theorem Timespec.Before.trans {t t' t'' : Timespec} (h : t.Before t') (h' : t'.Before t'') :
    t.Before t'' := by
  unfold Timespec.Before at *
  omega

namespace Calendar

/-- The days before 1 January of a year. -/
def daysBefore (year : ℤ) : ℤ :=
  365 * (year - 1) + (year - 1) / 4 - (year - 1) / 100 + (year - 1) / 400

/-- A day in the cycles of 400, 100, 4 and 1 years that contain it. Only the last year of a cycle
of 4 has a day 365, and the last cycle of 4 years in a century has it in the fourth century only. -/
theorem exists_cycles (n : ℤ) : ∃ (a : ℤ) (b c d y : ℕ),
    n = 146097 * a + 36524 * b + 1461 * c + 365 * d + y ∧
    yearDay n = (400 * a + 100 * b + 4 * c + d + 1, y) ∧ b ≤ 3 ∧ c ≤ 24 ∧ d ≤ 3 ∧
    (y < 365 ∨ y = 365 ∧ d = 3 ∧ (c = 24 → b = 3)) := by
  refine ⟨n / 146097, _, _, _, _, ?_, rfl, min_le_left _ _, ?_, min_le_left _ _, ?_⟩
  all_goals
    have h400 : ((n % 146097).toNat : ℤ) = n % 146097 :=
      Int.toNat_of_nonneg (Int.emod_nonneg n (by decide))
    have hlt : (n % 146097).toNat < 146097 := by omega
    generalize (n % 146097).toNat = r at *
    have hb : min 3 (r / 36524) = 3 ∧ 109572 ≤ r ∨
        min 3 (r / 36524) < 3 ∧ min 3 (r / 36524) = r / 36524 := by omega
    generalize min 3 (r / 36524) = b at *
    have hr : r - b * 36524 < 36524 ∨ b = 3 ∧ r - b * 36524 = 36524 := by omega
    generalize hr100 : r - b * 36524 = r100 at *
    have hd : min 3 (r100 % 1461 / 365) = 3 ∧ 1095 ≤ r100 % 1461 ∨
        min 3 (r100 % 1461 / 365) < 3 ∧ min 3 (r100 % 1461 / 365) = r100 % 1461 / 365 := by omega
    generalize min 3 (r100 % 1461 / 365) = d at *
    omega

/-- The year starts where the earlier ones end, and the day of the year counts from there. -/
theorem daysBefore_yearDay (n : ℤ) :
    daysBefore (yearDay n).1 + (yearDay n).2 = n := by
  obtain ⟨a, b, c, d, y, hn, hday, hb, hc, hd, -⟩ := exists_cycles n
  have h4 : (400 * a + 100 * b + 4 * c + d : ℤ) / 4 = 100 * a + 25 * b + c := by omega
  have h100 : (400 * a + 100 * b + 4 * c + d : ℤ) / 100 = 4 * a + b := by omega
  have h400 : (400 * a + 100 * b + 4 * c + d : ℤ) / 400 = a := by omega
  simp only [hday, daysBefore, add_sub_cancel_right, h4, h100, h400]
  omega

theorem isLeap_iff (year : ℤ) :
    isLeap year = true ↔ year % 4 = 0 ∧ (year % 100 ≠ 0 ∨ year % 400 = 0) := by
  rw [isLeap, decide_eq_true_iff]

theorem yearDay_lt (n : ℤ) :
    (yearDay n).2 < 365 + if isLeap (yearDay n).1 then 1 else 0 := by
  obtain ⟨a, b, c, d, y, hn, hday, hb, hc, hd, hy⟩ := exists_cycles n
  rw [hday]
  split
  · omega
  · rename_i hleap
    rw [isLeap_iff] at hleap
    omega

theorem daysBefore_succ (year : ℤ) :
    daysBefore (year + 1) = daysBefore year + 365 + if isLeap year then 1 else 0 := by
  rw [daysBefore, daysBefore, add_sub_cancel_right]
  split
  · rename_i hleap
    rw [isLeap_iff] at hleap
    omega
  · rename_i hleap
    rw [isLeap_iff] at hleap
    omega

theorem daysBefore_mono {y y' : ℤ} (h : y ≤ y') : daysBefore y ≤ daysBefore y' := by
  unfold daysBefore
  omega

/-- Later days have a later date. -/
theorem yearDay_mono {n n' : ℤ} (h : n < n') : (yearDay n).1 < (yearDay n').1 ∨
    (yearDay n).1 = (yearDay n').1 ∧ (yearDay n).2 < (yearDay n').2 := by
  have hn := daysBefore_yearDay n
  have hn' := daysBefore_yearDay n'
  have hlt' := yearDay_lt n'
  have hsucc := daysBefore_succ (yearDay n').1
  rcases lt_trichotomy (yearDay n).1 (yearDay n').1 with hlt | heq | hgt
  · exact .inl hlt
  · rw [heq] at hn
    exact .inr ⟨heq, by omega⟩
  · -- the later day would be over before the year of the earlier one begins
    have hmono : daysBefore ((yearDay n').1 + 1) ≤ daysBefore (yearDay n).1 := daysBefore_mono hgt
    split at hsucc <;> simp_all <;> omega

/-- Later days of a year are in a later month or on a later day of the month. -/
theorem monthDay_mono (lens : List ℕ) {d d' : ℕ} (h : d < d') :
    (monthDay lens d).1 < (monthDay lens d').1 ∨
    (monthDay lens d).1 = (monthDay lens d').1 ∧ (monthDay lens d).2 < (monthDay lens d').2 := by
  induction lens generalizing d d' with
  | nil => exact .inr ⟨rfl, h⟩
  | cons len lens ih =>
    simp only [monthDay]
    by_cases hd : d < len
    · by_cases hd' : d' < len
      · rw [if_pos hd, if_pos hd']
        exact .inr ⟨rfl, h⟩
      · rw [if_pos hd, if_neg hd']
        exact .inl (Nat.succ_pos _)
    · rw [if_neg hd, if_neg (by omega : ¬ d' < len)]
      have hrest : d - len < d' - len := by omega
      rcases ih hrest with hlt | ⟨heq, hlt⟩
      · exact .inl (Nat.succ_lt_succ hlt)
      · exact .inr ⟨congrArg Nat.succ heq, hlt⟩

theorem monthDay_bound {lens : List ℕ} {d bound : ℕ} (hd : d < lens.sum)
    (hlens : ∀ len ∈ lens, len ≤ bound) :
    (monthDay lens d).1 < lens.length ∧ (monthDay lens d).2 < bound := by
  induction lens generalizing d with
  | nil => exact absurd hd (Nat.not_lt_zero d)
  | cons len lens ih =>
    simp only [monthDay]
    by_cases hlt : d < len
    · rw [if_pos hlt]
      exact ⟨Nat.succ_pos _, lt_of_lt_of_le hlt (hlens len List.mem_cons_self)⟩
    · rw [if_neg hlt]
      rw [List.sum_cons] at hd
      obtain ⟨hmon, hday⟩ :=
        ih (by omega : d - len < lens.sum) fun l hl => hlens l (List.mem_cons_of_mem len hl)
      exact ⟨Nat.succ_lt_succ hmon, hday⟩

theorem monthLengths_sum (leap : Bool) :
    (monthLengths leap).sum = 365 + if leap then 1 else 0 := by
  cases leap <;> rfl

theorem monthLengths_le (leap : Bool) : ∀ len ∈ monthLengths leap, len ≤ 31 := by
  cases leap <;> decide

end Calendar

section Stamp

variable {yearWidth : ℕ} {sec sec' : ℤ}

/-- The fields of a date, with the day of the year as an argument. -/
theorem gmtime_eq (sec : ℤ) : ∃ day, day = monthDay
      (monthLengths (isLeap (yearDay (sec / 86400 + 719162)).1))
      (yearDay (sec / 86400 + 719162)).2 ∧
    gmtime sec =
      { year := (yearDay (sec / 86400 + 719162)).1 - 1900, mon := day.1, mday := day.2 + 1
        hour := (sec % 86400).toNat / 3600, min := (sec % 86400).toNat / 60 % 60
        sec := (sec % 86400).toNat % 60 } := ⟨_, rfl, rfl⟩

/-- The two-digit fields of a date have two digits. -/
theorem gmtime_bounds (sec : ℤ) : (gmtime sec).mon < 12 ∧ (gmtime sec).mday ≤ 31 ∧
    (gmtime sec).hour < 24 ∧ (gmtime sec).min < 60 ∧ (gmtime sec).sec < 60 := by
  have hday := yearDay_lt (sec / 86400 + 719162)
  rw [← monthLengths_sum] at hday
  obtain ⟨hmon, hmday⟩ := monthDay_bound hday (monthLengths_le _)
  obtain ⟨day, heq, hfields⟩ := gmtime_eq sec
  rw [← heq] at hmon hmday
  rw [hfields]
  refine ⟨hmon, hmday, ?_, ?_, ?_⟩
  all_goals
    simp only
    omega

/-- Later days have a later year, or a later month or day of the month in the same year. -/
theorem gmtime_date_lt (h : sec / 86400 < sec' / 86400) :
    (gmtime sec).year < (gmtime sec').year ∨ (gmtime sec).year = (gmtime sec').year ∧
      ((gmtime sec).mon < (gmtime sec').mon ∨
        (gmtime sec).mon = (gmtime sec').mon ∧ (gmtime sec).mday < (gmtime sec').mday) := by
  obtain ⟨day, hday, hfields⟩ := gmtime_eq sec
  obtain ⟨day', hday', hfields'⟩ := gmtime_eq sec'
  rw [hfields, hfields']
  rcases yearDay_mono (add_lt_add_left h 719162) with hlt | ⟨heq, hlt⟩
  · exact .inl (sub_lt_sub_right hlt 1900)
  · rw [heq] at hday
    refine .inr ⟨congrArg (· - 1900) heq, ?_⟩
    have hmono := monthDay_mono (monthLengths (isLeap (yearDay (sec' / 86400 + 719162)).1)) hlt
    rw [← hday, ← hday'] at hmono
    exact hmono.imp_right fun hdays => ⟨hdays.1, Nat.add_lt_add_right hdays.2 1⟩

theorem gmtime_date_eq (h : sec / 86400 = sec' / 86400) :
    (gmtime sec).year = (gmtime sec').year ∧ (gmtime sec).mon = (gmtime sec').mon ∧
      (gmtime sec).mday = (gmtime sec').mday := by
  obtain ⟨day, hday, hfields⟩ := gmtime_eq sec
  obtain ⟨day', hday', hfields'⟩ := gmtime_eq sec'
  rw [h, ← hday'] at hday
  rw [hfields, hfields', h, hday]
  exact ⟨rfl, rfl, rfl⟩

/-- A stamp of 15 characters has a year of four digits. -/
theorem strftimeStamp_year {tm : Tm} (h : (strftimeStamp yearWidth tm).length = 15) :
    Decimal.atLeast yearWidth (tm.year + 1900).toNat =
      Decimal.field 4 (tm.year + 1900).toNat := by
  apply Decimal.atLeast_eq_field_of_length
  simp only [strftimeStamp, List.length_append, List.length_cons, Decimal.length_field] at h
  omega

/-- Stamps are ordered as the times they show. -/
theorem strftimeStamp_lt (hyear : 0 ≤ (gmtime sec).year + 1900)
    (hyear' : (gmtime sec').year + 1900 ≤ 9999)
    (hlen : (strftimeStamp yearWidth (gmtime sec)).length = 15)
    (hlen' : (strftimeStamp yearWidth (gmtime sec')).length = 15) (h : sec < sec') :
    strftimeStamp yearWidth (gmtime sec) < strftimeStamp yearWidth (gmtime sec') := by
  obtain ⟨hmon, hmday, hhour, hmin, hsec⟩ := gmtime_bounds sec'
  rw [strftimeStamp, strftimeStamp, strftimeStamp_year hlen, strftimeStamp_year hlen']
  -- the time of day decides between two times of one day
  have htime : sec / 86400 = sec' / 86400 →
      Decimal.field 2 (gmtime sec).hour ++ (Decimal.field 2 (gmtime sec).min ++
        Decimal.field 2 (gmtime sec).sec) <
      Decimal.field 2 (gmtime sec').hour ++ (Decimal.field 2 (gmtime sec').min ++
        Decimal.field 2 (gmtime sec').sec) := by
    intro hday
    apply Decimal.field_append_lt (by omega)
    by_cases hh : (gmtime sec).hour = (gmtime sec').hour
    · refine .inr ⟨hh, Decimal.field_append_lt (by omega) ?_⟩
      by_cases hm : (gmtime sec).min = (gmtime sec').min
      · refine .inr ⟨hm, Decimal.field_lt_field (by omega) ?_⟩
        simp only [gmtime] at hh hm ⊢
        omega
      · refine .inl ?_
        simp only [gmtime] at hh hm ⊢
        omega
    · refine .inl ?_
      simp only [gmtime] at hh ⊢
      omega
  apply Decimal.field_append_lt (by omega)
  rcases (Int.ediv_le_ediv (by decide : (0 : ℤ) < 86400) h.le).lt_or_eq with hday | hday
  · rcases gmtime_date_lt hday with hlt | ⟨heq, hdate⟩
    · exact .inl (by omega)
    · refine .inr ⟨by rw [heq], Decimal.field_append_lt (by omega) ?_⟩
      rcases hdate with hmlt | ⟨hmeq, hdlt⟩
      · exact .inl (Nat.add_lt_add_right hmlt 1)
      · exact .inr ⟨congrArg (· + 1) hmeq, Decimal.field_append_lt (by omega) (.inl hdlt)⟩
  · obtain ⟨hyears, hmons, hmdays⟩ := gmtime_date_eq hday
    rw [hyears, hmons, hmdays]
    refine .inr ⟨rfl, List.append_left_lt (List.append_left_lt ?_)⟩
    rw [List.cons_lt_cons_iff]
    exact .inr ⟨rfl, htime hday⟩

/-- A time that `archive_name` can print: a whole number of microseconds whose stamp has 15
characters. -/
structure Timespec.Printable (yearWidth : ℕ) (t : Timespec) : Prop where
  nsec_nonneg : 0 ≤ t.nsec
  nsec_lt : t.nsec < 1000000000
  nsec_micro : t.nsec % 1000 = 0
  year_nonneg : 0 ≤ (gmtime t.sec).year + 1900
  year_le : (gmtime t.sec).year + 1900 ≤ 9999
  stamp : (strftimeStamp yearWidth (gmtime t.sec)).length = 15

/-- Archive names of one active file are ordered as the times in them. -/
theorem archiveText_lt {stem ext : CString} {t t' : Timespec} (ht : t.Printable yearWidth)
    (ht' : t'.Printable yearWidth) (h : t.Before t') :
    archiveText stem ext (strftimeStamp yearWidth (gmtime t.sec)) t.nsec <
      archiveText stem ext (strftimeStamp yearWidth (gmtime t'.sec)) t'.nsec := by
  apply List.append_left_lt
  rw [List.cons_lt_cons_iff]
  refine .inr ⟨rfl, ?_⟩
  rcases h with hlt | ⟨heq, hlt⟩
  · apply Decimal.append_lt_append_of_lt
    · rw [ht.stamp, ht'.stamp]
    · exact strftimeStamp_lt ht.year_nonneg ht'.year_le ht.stamp ht'.stamp hlt
  · rw [heq]
    apply List.append_left_lt
    rw [List.cons_lt_cons_iff]
    refine .inr ⟨rfl, ?_⟩
    have hn := ht.nsec_nonneg
    have hm := ht.nsec_micro
    have hm' := ht'.nsec_micro
    have hlt' := ht'.nsec_lt
    rw [Decimal.atLeast_eq_field (by decide) (by omega),
      Decimal.atLeast_eq_field (by decide) (by omega)]
    exact Decimal.field_append_lt (by omega) (.inl (by omega))

theorem length_archiveText (stem ext : CString) {t : Timespec} (ht : t.Printable yearWidth) :
    (archiveText stem ext (strftimeStamp yearWidth (gmtime t.sec)) t.nsec).length =
      stem.length + 24 + ext.length := by
  have hlt := ht.nsec_lt
  have hmicro := ht.nsec_nonneg
  have hfield := Decimal.atLeast_eq_field (by decide : 0 < 6)
    (by omega : (t.nsec / 1000).toNat < 10 ^ 6)
  simp only [archiveText, List.length_append, List.length_cons, ht.stamp, hfield,
    Decimal.length_field]
  omega

end Stamp

end CLogger
