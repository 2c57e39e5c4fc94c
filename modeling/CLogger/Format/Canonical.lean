import CLogger.File.Calendar
import CLogger.Format.Model
import Mathlib.Tactic.IntervalCases

/-!
# The grammar of a strict timestamp

`canonical_time` is the gate between the texts of `strftime` and a strict line. It checks lengths,
delimiters and digits position by position, and then the ranges of the numbers it has read, with the
length of the month in its year.

Here the same language is described in two other ways: as strings made of digit texts between
delimiters (`TimeParts`), and as the strings a printer makes of a calendar time with an offset
(`CalendarTime`).

## Main results

* `canonicalTime_parts`: on a string of the right shape, the check is the check of its numbers;
* `canonical_time_grammar`: the language accepted, in both descriptions, and that reading and
  printing are inverse to each other on it.
-/

namespace CLogger

/-- The number of days of a month, from 1, in the Gregorian calendar. -/
def monthLength (year month : ℕ) : ℕ :=
  (Calendar.monthLengths (Calendar.isLeap year)).getD (month - 1) 0

/-- The fields of a date with its zone; `sign` is the byte before the offset. -/
structure TimeFields where
  year : ℕ
  month : ℕ
  day : ℕ
  hour : ℕ
  minute : ℕ
  second : ℕ
  sign : UInt8
  zoneHour : ℕ
  zoneMinute : ℕ
  deriving DecidableEq, Repr

/-- The fields are a time of the calendar with an offset. The second 60 is a leap second. -/
structure TimeFields.Valid (f : TimeFields) : Prop where
  year : 1 ≤ f.year ∧ f.year ≤ 9999
  month : 1 ≤ f.month ∧ f.month ≤ 12
  day : 1 ≤ f.day ∧ f.day ≤ monthLength f.year f.month
  hour : f.hour ≤ 23
  minute : f.minute ≤ 59
  second : f.second ≤ 60
  sign : f.sign = 43 ∨ f.sign = 45
  zoneHour : f.zoneHour ≤ 23
  zoneMinute : f.zoneMinute ≤ 59

/-- A time of the calendar with an offset. -/
def CalendarTime : Type := { f : TimeFields // f.Valid }

/-- The fields `canonical_time` reads from the two strings. -/
def timeFields (date zone : CString) : TimeFields where
  year := digitAt date 0 * 1000 + digitAt date 1 * 100 + digitAt date 2 * 10 + digitAt date 3
  month := twoDigits date 5
  day := twoDigits date 8
  hour := twoDigits date 11
  minute := twoDigits date 14
  second := twoDigits date 17
  sign := zone.getD 0 0
  zoneHour := twoDigits zone 1
  zoneMinute := twoDigits zone 3

/-- The texts between the delimiters of a date, and those of a zone. -/
structure TimeParts where
  year : CString
  month : CString
  day : CString
  hour : CString
  minute : CString
  second : CString
  sign : UInt8
  zoneHour : CString
  zoneMinute : CString

namespace TimeParts

/-- `YYYY-MM-DDTHH:MM:SS`. -/
def date (p : TimeParts) : CString :=
  p.year ++ 45 :: (p.month ++ 45 :: (p.day ++ 84 :: (p.hour ++ 58 :: (p.minute ++ 58 :: p.second))))

/-- `+HHMM` or `-HHMM`. -/
def zone (p : TimeParts) : CString := p.sign :: (p.zoneHour ++ p.zoneMinute)

/-- Every text has the digits of its field. -/
structure Digits (p : TimeParts) : Prop where
  year : AllDigits 4 p.year
  month : AllDigits 2 p.month
  day : AllDigits 2 p.day
  hour : AllDigits 2 p.hour
  minute : AllDigits 2 p.minute
  second : AllDigits 2 p.second
  zoneHour : AllDigits 2 p.zoneHour
  zoneMinute : AllDigits 2 p.zoneMinute

/-- The numbers the texts write. -/
def fields (p : TimeParts) : TimeFields where
  year := Decimal.value p.year
  month := Decimal.value p.month
  day := Decimal.value p.day
  hour := Decimal.value p.hour
  minute := Decimal.value p.minute
  second := Decimal.value p.second
  sign := p.sign
  zoneHour := Decimal.value p.zoneHour
  zoneMinute := Decimal.value p.zoneMinute

end TimeParts

namespace TimeFields

/-- The texts of fields, zero padded. -/
def parts (f : TimeFields) : TimeParts where
  year := Decimal.field 4 f.year
  month := Decimal.field 2 f.month
  day := Decimal.field 2 f.day
  hour := Decimal.field 2 f.hour
  minute := Decimal.field 2 f.minute
  second := Decimal.field 2 f.second
  sign := f.sign
  zoneHour := Decimal.field 2 f.zoneHour
  zoneMinute := Decimal.field 2 f.zoneMinute

/-- The printed date. -/
def date (f : TimeFields) : CString := f.parts.date

/-- The printed zone. -/
def zone (f : TimeFields) : CString := f.parts.zone

end TimeFields

section Shape

theorem isDigit_iff {c : UInt8} : isDigit c = true ↔ 48 ≤ c ∧ c ≤ 57 := by
  rw [isDigit, Bool.and_eq_true, decide_eq_true_eq, decide_eq_true_eq]

theorem allDigits_cons {n : ℕ} {c : UInt8} {s : CString} :
    AllDigits (n + 1) (c :: s) ↔ isDigit c = true ∧ AllDigits n s := by
  simp only [AllDigits, List.length_cons, Nat.add_right_cancel_iff, List.forall_mem_cons,
    isDigit_iff]
  tauto

theorem allDigits_nil : AllDigits 0 [] := ⟨rfl, by simp⟩

theorem AllDigits.two {s : CString} (h : AllDigits 2 s) :
    ∃ a b, s = [a, b] ∧ isDigit a = true ∧ isDigit b = true := by
  obtain ⟨a, b, rfl⟩ := List.length_eq_two.mp h.1
  rw [allDigits_cons, allDigits_cons] at h
  exact ⟨a, b, rfl, h.1, h.2.1⟩

theorem AllDigits.four {s : CString} (h : AllDigits 4 s) : ∃ a b c d, s = [a, b, c, d] ∧
    isDigit a = true ∧ isDigit b = true ∧ isDigit c = true ∧ isDigit d = true := by
  match s, h.1 with
  | [a, b, c, d], _ =>
    rw [allDigits_cons, allDigits_cons, allDigits_cons, allDigits_cons] at h
    exact ⟨a, b, c, d, rfl, h.1, h.2.1, h.2.2.1, h.2.2.2.1⟩

/-- The numbers read at the positions are those of the texts that stand there. -/
theorem TimeParts.Digits.timeFields_eq {p : TimeParts} (h : p.Digits) :
    timeFields p.date p.zone = p.fields := by
  obtain ⟨hyear, hmonth, hday, hhour, hminute, hsecond, hzh, hzm⟩ := h
  obtain ⟨year, month, day, hour, minute, second, sign, zoneHour, zoneMinute⟩ := p
  obtain ⟨a, b, c, d, rfl, -⟩ := hyear.four
  obtain ⟨_, _, rfl, -⟩ := hmonth.two
  obtain ⟨_, _, rfl, -⟩ := hday.two
  obtain ⟨_, _, rfl, -⟩ := hhour.two
  obtain ⟨_, _, rfl, -⟩ := hminute.two
  obtain ⟨_, _, rfl, -⟩ := hsecond.two
  obtain ⟨_, _, rfl, -⟩ := hzh.two
  obtain ⟨_, _, rfl, -⟩ := hzm.two
  simp only [timeFields, TimeParts.fields, TimeParts.date, TimeParts.zone, twoDigits, digitAt,
    Decimal.value, List.cons_append, List.nil_append, List.getD_cons_zero, List.getD_cons_succ,
    List.foldl_cons, List.foldl_nil]
  congr 1 <;> omega

/-- The leap years of `canonical_time` are those of the calendar. -/
theorem isLeap_natCast (year : ℕ) : Calendar.isLeap year =
    decide (year % 4 = 0 ∧ (year % 100 ≠ 0 ∨ year % 400 = 0)) := by
  rw [Calendar.isLeap, decide_eq_decide]
  omega

/-- The month lengths of `canonical_time` are those of the calendar. -/
theorem monthLength_eq {year month : ℕ} (hpos : 1 ≤ month) (hle : month ≤ 12) :
    monthLength year month = [31, 28, 31, 30, 31, 30, 31, 31, 30, 31, 30, 31].getD (month - 1) 0 +
      if month = 2 ∧ Calendar.isLeap year = true then 1 else 0 := by
  rw [monthLength]
  generalize Calendar.isLeap year = leap
  interval_cases month <;> cases leap <;> rfl

/-- The range checks of `canonical_time` are the validity of the fields. -/
theorem canonicalTime_ranges (f : TimeFields) (hyear : f.year ≤ 9999)
    (hsign : f.sign = 43 ∨ f.sign = 45) :
    (!(f.year == 0 || f.month == 0 || decide (12 < f.month) || f.day == 0 || decide (23 < f.hour) ||
        decide (59 < f.minute) || decide (60 < f.second) || decide (23 < f.zoneHour) ||
        decide (59 < f.zoneMinute)) &&
      decide (f.day ≤ [31, 28, 31, 30, 31, 30, 31, 31, 30, 31, 30, 31].getD (f.month - 1) 0 +
        if f.month = 2 ∧ Calendar.isLeap f.year = true then 1 else 0)) = true ↔ f.Valid := by
  simp only [Bool.and_eq_true, Bool.not_eq_true', Bool.or_eq_false_iff, beq_eq_false_iff_ne,
    decide_eq_false_iff_not, decide_eq_true_eq, not_lt]
  constructor
  · rintro ⟨⟨⟨⟨⟨⟨⟨⟨⟨hy, hm⟩, hm12⟩, hd⟩, hh⟩, hmi⟩, hs⟩, hzh⟩, hzm⟩, hday⟩
    refine ⟨⟨by omega, hyear⟩, ⟨by omega, hm12⟩, ⟨by omega, ?_⟩, hh, hmi, hs, hsign, hzh, hzm⟩
    rw [monthLength_eq (by omega) hm12]
    exact hday
  · rintro ⟨hy, hm, hd, hh, hmi, hs, -, hzh, hzm⟩
    refine ⟨⟨⟨⟨⟨⟨⟨⟨⟨by omega, by omega⟩, hm.2⟩, by omega⟩, hh⟩, hmi⟩, hs⟩, hzh⟩, hzm⟩, ?_⟩
    rw [← monthLength_eq hm.1 hm.2]
    exact hd.2

/-- Lengths, delimiters and digits, as `canonical_time` checks them position by position. -/
structure TimeShape (date zone : CString) : Prop where
  date_length : date.length = 19
  zone_length : zone.length = 5
  date_byte : ∀ i < 19, if dateDelimiter i ≠ 0 then date.getD i 0 = dateDelimiter i
    else isDigit (date.getD i 0) = true
  sign : zone.getD 0 0 = 43 ∨ zone.getD 0 0 = 45
  zone_digit : ∀ i < 4, isDigit (zone.getD (i + 1) 0) = true

/-- A date of the right shape has a year of four digits. -/
theorem TimeShape.year_le {date zone : CString} (h : TimeShape date zone) :
    (timeFields date zone).year ≤ 9999 := by
  have hdigit : ∀ i < 4, digitAt date i ≤ 9 := by
    intro i hi
    have hbyte := h.date_byte i (by omega)
    rw [if_neg (by interval_cases i <;> decide), isDigit_iff] at hbyte
    have hle : (date.getD i 0).toNat ≤ 57 := UInt8.le_iff_toNat_le.mp hbyte.2
    rw [digitAt]
    omega
  have h0 := hdigit 0 (by decide)
  have h1 := hdigit 1 (by decide)
  have h2 := hdigit 2 (by decide)
  have h3 := hdigit 3 (by decide)
  simp only [timeFields]
  omega

/-- `canonical_time` checks the shape, and then the numbers. -/
theorem canonicalTime_iff (cache : TimestampCache) :
    canonicalTime cache = true ↔ cache.valid = true ∧ TimeShape cache.date cache.zone ∧
      (timeFields cache.date cache.zone).Valid := by
  unfold canonicalTime
  dsimp only
  rw [Bool.and_assoc _ (!_) (decide _), Bool.and_eq_true, ← isLeap_natCast]
  constructor
  · rintro ⟨hshape, hranges⟩
    simp only [Bool.and_eq_true, Bool.or_eq_true, beq_iff_eq, List.all_eq_true, List.mem_range]
      at hshape
    obtain ⟨⟨⟨⟨⟨hvalid, hdate⟩, hzone⟩, hbytes⟩, hsign⟩, hdigits⟩ := hshape
    have hshape : TimeShape cache.date cache.zone := by
      refine ⟨hdate, hzone, fun i hi => ?_, hsign, hdigits⟩
      have hbyte := hbytes i hi
      split_ifs at hbyte ⊢ with hdelimiter
      · exact beq_iff_eq.mp hbyte
      · exact hbyte
    exact ⟨hvalid, hshape, (canonicalTime_ranges _ hshape.year_le hsign).mp hranges⟩
  · rintro ⟨hvalid, hshape, hfields⟩
    refine ⟨?_, (canonicalTime_ranges _ hshape.year_le hshape.sign).mpr hfields⟩
    simp only [Bool.and_eq_true, Bool.or_eq_true, beq_iff_eq, List.all_eq_true, List.mem_range]
    refine ⟨⟨⟨⟨⟨hvalid, hshape.date_length⟩, hshape.zone_length⟩, fun i hi => ?_⟩, hshape.sign⟩,
      hshape.zone_digit⟩
    have hbyte := hshape.date_byte i hi
    split_ifs at hbyte ⊢ with hdelimiter
    · exact beq_iff_eq.mpr hbyte
    · exact hbyte

/-- The shape is that of digit texts between delimiters. -/
theorem timeShape_iff {date zone : CString} : TimeShape date zone ↔
    ∃ p : TimeParts, p.Digits ∧ (p.sign = 43 ∨ p.sign = 45) ∧ date = p.date ∧ zone = p.zone := by
  constructor
  · rintro ⟨hdate, hzone, hbytes, hsign, hdigits⟩
    -- the shape fixes both lengths, so the bytes can be named
    match date, hdate, zone, hzone with
    | [y0, y1, y2, y3, s4, m5, m6, s7, d8, d9, s10, h11, h12, s13, i14, i15, s16, s17, s18], _,
        [z0, z1, z2, z3, z4], _ =>
      have hdigit : ∀ i < 19, dateDelimiter i = 0 → _ := fun i hi hnone => by
        simpa only [if_neg (not_not.mpr hnone)] using hbytes i hi
      have hdelimiter : ∀ i < 19, dateDelimiter i ≠ 0 → _ := fun i hi hsome => by
        simpa only [if_pos hsome] using hbytes i hi
      -- the five delimiters, at the places the table gives
      obtain rfl : s4 = 45 := hdelimiter 4 (by decide) (by decide)
      obtain rfl : s7 = 45 := hdelimiter 7 (by decide) (by decide)
      obtain rfl : s10 = 84 := hdelimiter 10 (by decide) (by decide)
      obtain rfl : s13 = 58 := hdelimiter 13 (by decide) (by decide)
      obtain rfl : s16 = 58 := hdelimiter 16 (by decide) (by decide)
      -- two digits at a time
      have htwo : ∀ {a b : UInt8}, isDigit a = true → isDigit b = true → AllDigits 2 [a, b] :=
        fun ha hb => allDigits_cons.mpr ⟨ha, allDigits_cons.mpr ⟨hb, allDigits_nil⟩⟩
      have hyear : AllDigits 4 [y0, y1, y2, y3] :=
        (htwo (hdigit 0 (by decide) rfl) (hdigit 1 (by decide) rfl)).append
          (htwo (hdigit 2 (by decide) rfl) (hdigit 3 (by decide) rfl))
      refine ⟨⟨[y0, y1, y2, y3], [m5, m6], [d8, d9], [h11, h12], [i14, i15], [s17, s18], z0,
        [z1, z2], [z3, z4]⟩, ?_, hsign, rfl, rfl⟩
      exact ⟨hyear, htwo (hdigit 5 (by decide) rfl) (hdigit 6 (by decide) rfl),
        htwo (hdigit 8 (by decide) rfl) (hdigit 9 (by decide) rfl),
        htwo (hdigit 11 (by decide) rfl) (hdigit 12 (by decide) rfl),
        htwo (hdigit 14 (by decide) rfl) (hdigit 15 (by decide) rfl),
        htwo (hdigit 17 (by decide) rfl) (hdigit 18 (by decide) rfl),
        htwo (hdigits 0 (by decide)) (hdigits 1 (by decide)),
        htwo (hdigits 2 (by decide)) (hdigits 3 (by decide))⟩
  -- the digits of the parts are the bytes, so each position can be checked
  · rintro ⟨p, hp, hsign, rfl, rfl⟩
    obtain ⟨hyear, hmonth, hday, hhour, hminute, hsecond, hzh, hzm⟩ := hp
    obtain ⟨year, month, day, hour, minute, second, sign, zoneHour, zoneMinute⟩ := p
    obtain ⟨_, _, _, _, rfl, _, _, _, _⟩ := hyear.four
    obtain ⟨_, _, rfl, _, _⟩ := hmonth.two
    obtain ⟨_, _, rfl, _, _⟩ := hday.two
    obtain ⟨_, _, rfl, _, _⟩ := hhour.two
    obtain ⟨_, _, rfl, _, _⟩ := hminute.two
    obtain ⟨_, _, rfl, _, _⟩ := hsecond.two
    obtain ⟨_, _, rfl, _, _⟩ := hzh.two
    obtain ⟨_, _, rfl, _, _⟩ := hzm.two
    refine ⟨rfl, rfl, fun i hi => ?_, hsign, fun i hi => ?_⟩
    · interval_cases i <;> simp [dateDelimiter, TimeParts.date, *]
    · interval_cases i <;> simp [TimeParts.zone, *]

end Shape

section Grammar

theorem TimeFields.parts_digits (f : TimeFields) : f.parts.Digits :=
  ⟨allDigits_field _ _, allDigits_field _ _, allDigits_field _ _, allDigits_field _ _,
    allDigits_field _ _, allDigits_field _ _, allDigits_field _ _, allDigits_field _ _⟩

theorem monthLength_le (year month : ℕ) : monthLength year month ≤ 31 := by
  rw [monthLength, List.getD_eq_getElem?_getD]
  cases h : (Calendar.monthLengths (Calendar.isLeap year))[month - 1]? with
  | none => simp
  | some len => exact Calendar.monthLengths_le _ len (List.mem_of_getElem? h)

/-- The texts of a time write its fields. -/
theorem TimeFields.Valid.fields_parts {f : TimeFields} (h : f.Valid) : f.parts.fields = f := by
  have hday := h.day.2.trans (monthLength_le f.year f.month)
  have hyear : f.year < 10 ^ 4 := lt_of_le_of_lt h.year.2 (by decide)
  have htwo : ∀ {n k : ℕ}, n ≤ k → k < 100 → Decimal.value (Decimal.field 2 n) = n :=
    fun hn hk => Decimal.value_field (lt_of_le_of_lt hn hk)
  simp only [TimeFields.parts, TimeParts.fields, Decimal.value_field hyear,
    htwo h.month.2 (by decide), htwo hday (by decide), htwo h.hour (by decide),
    htwo h.minute (by decide), htwo h.second (by decide), htwo h.zoneHour (by decide),
    htwo h.zoneMinute (by decide)]

/-- Digits are the texts of the fields they write. -/
theorem TimeParts.Digits.parts_fields {p : TimeParts} (h : p.Digits) : p.fields.parts = p := by
  have hfield : ∀ {n : ℕ} {s : CString}, AllDigits n s → Decimal.field n (Decimal.value s) = s := by
    rintro n s ⟨rfl, hdigits⟩
    exact Decimal.field_value hdigits
  simp only [TimeParts.fields, TimeFields.parts, hfield h.year, hfield h.month, hfield h.day,
    hfield h.hour, hfield h.minute, hfield h.second, hfield h.zoneHour, hfield h.zoneMinute]

/-- `canonical_time` accepts exactly its grammar. A valid cache is accepted when its strings are
digit texts between the delimiters that write a time of the calendar with an offset; that is, when
they are what the printer makes of one. On these strings reading and printing are inverse to each
other, so the fields that `canonical_time` reads determine the strings. -/
theorem canonical_time_grammar (cache : TimestampCache) :
    (canonicalTime cache = true ↔ cache.valid = true ∧ ∃ p : TimeParts, p.Digits ∧
      p.fields.Valid ∧ cache.date = p.date ∧ cache.zone = p.zone) ∧
    (canonicalTime cache = true ↔ cache.valid = true ∧ ∃ t : CalendarTime,
      cache.date = t.1.date ∧ cache.zone = t.1.zone) ∧
    (∀ t : CalendarTime, timeFields t.1.date t.1.zone = t.1) ∧
    (canonicalTime cache = true → (timeFields cache.date cache.zone).date = cache.date ∧
      (timeFields cache.date cache.zone).zone = cache.zone) ∧
    ∀ cache' : TimestampCache, canonicalTime cache = true → canonicalTime cache' = true →
      timeFields cache.date cache.zone = timeFields cache'.date cache'.zone →
      cache.date = cache'.date ∧ cache.zone = cache'.zone := by
  -- the test is the shape and the ranges
  have hparts : ∀ cache : TimestampCache, canonicalTime cache = true ↔ cache.valid = true ∧
      ∃ p : TimeParts, p.Digits ∧ p.fields.Valid ∧ cache.date = p.date ∧ cache.zone = p.zone := by
    intro cache
    rw [canonicalTime_iff, timeShape_iff]
    refine and_congr_right fun _ => ⟨?_, ?_⟩
    · rintro ⟨⟨p, hp, -, hdate, hzone⟩, hvalid⟩
      rw [hdate, hzone, hp.timeFields_eq] at hvalid
      exact ⟨p, hp, hvalid, hdate, hzone⟩
    · rintro ⟨p, hp, hvalid, hdate, hzone⟩
      refine ⟨⟨p, hp, hvalid.sign, hdate, hzone⟩, ?_⟩
      rw [hdate, hzone, hp.timeFields_eq]
      exact hvalid
  -- the fields read back from a printed time are that time
  have hread : ∀ t : CalendarTime, timeFields t.1.date t.1.zone = t.1 := fun t =>
    t.1.parts_digits.timeFields_eq.trans t.2.fields_parts
  have hprint : ∀ cache : TimestampCache, canonicalTime cache = true →
      (timeFields cache.date cache.zone).date = cache.date ∧
        (timeFields cache.date cache.zone).zone = cache.zone := by
    intro cache haccepted
    obtain ⟨-, p, hp, -, hdate, hzone⟩ := (hparts cache).mp haccepted
    rw [hdate, hzone, hp.timeFields_eq, TimeFields.date, TimeFields.zone, hp.parts_fields]
    exact ⟨rfl, rfl⟩
  refine ⟨hparts cache, ?_, hread, hprint cache, fun cache' h h' heq => ?_⟩
  -- the parts of an accepted time are those its fields print
  · rw [hparts cache]
    refine and_congr_right fun _ => ⟨?_, ?_⟩
    · rintro ⟨p, hp, hvalid, hdate, hzone⟩
      refine ⟨⟨p.fields, hvalid⟩, ?_, ?_⟩
      · rw [hdate, TimeFields.date, hp.parts_fields]
      · rw [hzone, TimeFields.zone, hp.parts_fields]
    · rintro ⟨t, hdate, hzone⟩
      refine ⟨t.1.parts, t.1.parts_digits, ?_, hdate, hzone⟩
      rw [t.2.fields_parts]
      exact t.2
  -- equal fields print equal texts
  · obtain ⟨hdate, hzone⟩ := hprint cache h
    obtain ⟨hdate', hzone'⟩ := hprint cache' h'
    exact ⟨hdate.symm.trans ((congrArg TimeFields.date heq).trans hdate'),
      hzone.symm.trans ((congrArg TimeFields.zone heq).trans hzone')⟩

example : canonicalTime ⟨0, true, ascii "2024-02-29T23:59:60", ascii "-2359"⟩ = true := by decide

example : canonicalTime ⟨0, true, ascii "1900-02-29T00:00:00", ascii "+0000"⟩ = false := by decide

end Grammar

end CLogger
