import CLogger.File.Daily
import Mathlib.Data.List.GetD

/-!
# The names of archives

`bind_path` derives the stem and the extension of a file from its base name, `archive_name` puts
the time between them, and `retention` deletes what `archive_matches` accepts. The pattern has dots
of its own, and so may the stem; that no name is an archive of two files comes down to the last dot
of the name, before which an archive has a `Z`.

* `bindPath`: which base names are accepted.
* `archiveMatches_iff`: the pattern.
* `name_eq_of_archiveMatches`: an archive belongs to one file.
* `retentionLog`: `retention` with what it has deleted.
-/

namespace CLogger

open TapeProgram

/-! ## Binding a path -/

/-- `LOGGER_PATH_MAX`. -/
def loggerPathMax : ℕ := 4096

/-- The text `".logger.lock"`. -/
def lockSuffix : CString := [46, 108, 111, 103, 103, 101, 114, 46, 108, 111, 99, 107]

/-- `reserved_basename`. -/
def reservedBasename (name : CString) : Bool :=
  lockSuffix.length ≤ name.length && name.drop (name.length - lockSuffix.length) = lockSuffix

/-- What the calls of `bind_path` answer. -/
structure BindReplies where
  /-- `logger_fork_open` of the directory. -/
  dir : Answer
  /-- `fpathconf` with `_PC_NAME_MAX`, and the error number it sets, `0` for none. -/
  nameMax : ℤ
  pathconfErrno : ℤ
  /-- `fstatat` of the base name. -/
  stat : Except ℤ Stat

/-- The end of `bind_path`, for a file that is managed. -/
def bindNames (f : FileBinding) (base : CString) (maximum : ℕ) : Except ℤ FileBinding :=
  if base.length + lockSuffix.length > maximum then .error (-enametoolong)
  else if f.internalRotation ∧ base.length + 24 > maximum then .error (-enametoolong)
  else .ok { f with
    name := base
    managed := true
    lockName := base ++ lockSuffix
    stem := (splitName base).1
    ext := (splitName base).2 }

/-- `bind_path`. The names in `f` are empty before. -/
def bindPath (f : FileBinding) (path : Option CString) (r : BindReplies) : Except ℤ FileBinding :=
  match path with
  | none => .error (-einval)
  | some path =>
    let base := afterLastSlash path
    if path = [] then .error (-einval)
    else if path.length ≥ loggerPathMax then .error (-enametoolong)
    else if base = [] ∨ base = [46] ∨ base = [46, 46] then .error (-einval)
    else if base.length > loggerFilenameMax then .error (-enametoolong)
    else if reservedBasename base then .error (-einval)
    else if !r.dir.ok then .error (-r.dir.errno)
    else if r.nameMax < 0 ∧ r.pathconfErrno ≠ 0 then .error (-r.pathconfErrno)
    else
      let maximum := if r.nameMax < 0 ∨ r.nameMax > loggerFilenameMax then loggerFilenameMax
        else r.nameMax.toNat
      if base.length > maximum then .error (-enametoolong)
      else
        match r.stat with
        | .error e => if e ≠ enoent then .error (-e) else bindNames f base maximum
        | .ok st =>
          if st.kind = .symlink then .error (-eloop)
          else if st.kind = .charDevice ∧ f.mode = .none then
            .ok { f with name := base, managed := false }
          else if regularSingleLink st ≠ 0 then .error (regularSingleLink st)
          else bindNames f base maximum

/-- A binding that `bind_path` makes in an internal rotation mode. -/
def RotatingBinding (b : FileBinding) : Prop :=
  b.internalRotation = true ∧ ∃ f path r, bindPath f path r = .ok b

/-- What `bind_path` promises of the names. -/
structure NamesBound (b : FileBinding) : Prop where
  names : (b.stem, b.ext) = splitName b.name
  room : b.name.length + 24 ≤ loggerFilenameMax

/-- A check that has been passed. -/
theorem of_ite_error {ε α : Type} {c : Prop} [Decidable c] {e : ε} {x : Except ε α} {a : α}
    (h : (if c then .error e else x) = .ok a) : ¬ c ∧ x = .ok a := by
  by_cases hc : c
  · rw [if_pos hc] at h
    exact nomatch h
  · rw [if_neg hc] at h
    exact ⟨hc, h⟩

theorem bindNames_bound {f b : FileBinding} {base : CString} {maximum : ℕ}
    (h : bindNames f base maximum = .ok b) (hb : b.internalRotation = true)
    (hmax : maximum ≤ loggerFilenameMax) : NamesBound b := by
  obtain ⟨-, h⟩ := of_ite_error h
  obtain ⟨hroom, h⟩ := of_ite_error h
  obtain rfl := Except.ok.inj h
  have hmode : f.internalRotation = true := hb
  rw [not_and, not_lt] at hroom
  exact ⟨rfl, (hroom hmode).trans hmax⟩

/-- A file that is rotated is managed, and the longest of its names fits. -/
theorem RotatingBinding.namesBound {b : FileBinding} (h : RotatingBinding b) : NamesBound b := by
  obtain ⟨hb, f, path, r, hbind⟩ := h
  cases path with
  | none => exact nomatch hbind
  | some path =>
    -- the path, the sizes and the names before the mode are checked first
    obtain ⟨-, hbind⟩ := of_ite_error hbind
    obtain ⟨-, hbind⟩ := of_ite_error hbind
    obtain ⟨-, hbind⟩ := of_ite_error hbind
    obtain ⟨-, hbind⟩ := of_ite_error hbind
    obtain ⟨-, hbind⟩ := of_ite_error hbind
    obtain ⟨-, hbind⟩ := of_ite_error hbind
    obtain ⟨-, hbind⟩ := of_ite_error hbind
    obtain ⟨-, hbind⟩ := of_ite_error hbind
    -- the room is the smaller of the two limits
    have hmax : (if r.nameMax < 0 ∨ r.nameMax > loggerFilenameMax then loggerFilenameMax
        else r.nameMax.toNat) ≤ loggerFilenameMax := by
      by_cases hlimit : r.nameMax < 0 ∨ r.nameMax > loggerFilenameMax
      · rw [if_pos hlimit]
      · rw [if_neg hlimit]
        omega
    -- a file that is not there yet is named without the checks of its kind
    cases hstat : r.stat with
    | error e =>
      rw [hstat] at hbind
      exact bindNames_bound (of_ite_error hbind).2 hb hmax
    | ok st =>
      rw [hstat] at hbind
      obtain ⟨-, hbind⟩ := of_ite_error hbind
      by_cases hdevice : st.kind = .charDevice ∧ f.mode = .none
      · -- a character device is not rotated
        rw [if_pos hdevice] at hbind
        obtain rfl := Except.ok.inj hbind
        have hmode : FileBinding.internalRotation f = true := hb
        rw [FileBinding.internalRotation, hdevice.2] at hmode
        exact absurd hmode (by decide)
      · rw [if_neg hdevice] at hbind
        exact bindNames_bound (of_ite_error hbind).2 hb hmax

/-! ## The last dot -/

/-- What comes after the last dot is known by the string. -/
theorem append_dot_inj {x y u v : CString} (hu : 46 ∉ u) (hv : 46 ∉ v)
    (h : x ++ 46 :: u = y ++ 46 :: v) : x = y ∧ u = v := by
  rcases List.append_eq_append_iff.mp h with ⟨z, rfl, hz⟩ | ⟨z, rfl, hz⟩
  · cases z with
    | nil => exact ⟨(List.append_nil x).symm, List.tail_eq_of_cons_eq hz⟩
    | cons c z =>
      have htail : u = z ++ 46 :: v := List.tail_eq_of_cons_eq hz
      exact absurd (htail ▸ List.mem_append_right z List.mem_cons_self) hu
  · cases z with
    | nil => exact ⟨List.append_nil y, (List.tail_eq_of_cons_eq hz).symm⟩
    | cons c z =>
      have htail : v = z ++ 46 :: u := List.tail_eq_of_cons_eq hz
      exact absurd (htail ▸ List.mem_append_right z List.mem_cons_self) hv

/-- `strrchr` finds the last one. -/
theorem strrchr_spec {s : CString} {c : UInt8} {i : ℕ} (h : strrchr s c = some i) :
    ∃ tail, s.drop i = c :: tail ∧ c ∉ tail := by
  unfold strrchr at h
  obtain ⟨k, hk, rfl⟩ := Option.map_eq_some_iff.mp h
  obtain ⟨hlt, hc, hfirst⟩ := List.findIdx?_eq_some_iff_getElem.mp hk
  have hdrop : s.drop (s.length - 1 - k) = (s.reverse.take (k + 1)).reverse := by
    rw [List.take_reverse, List.reverse_reverse, Nat.sub_sub, Nat.add_comm 1 k]
  refine ⟨(s.reverse.take k).reverse, ?_, fun hmem => ?_⟩
  · rw [hdrop, List.take_succ_eq_append_getElem hlt, List.reverse_append]
    simpa using hc
  · obtain ⟨j, hj, hjc⟩ := List.getElem_of_mem (List.mem_reverse.mp hmem)
    rw [List.length_take] at hj
    rw [List.getElem_take] at hjc
    exact hfirst j (by omega) (decide_eq_true hjc)

/-- The extension is empty or starts at its only dot. -/
theorem splitName_ext (base : CString) :
    (splitName base).2 = [] ∨ ∃ tail, (splitName base).2 = 46 :: tail ∧ 46 ∉ tail := by
  unfold splitName
  cases hdot : strrchr base 46 with
  | none => exact .inl rfl
  | some i =>
    cases i with
    | zero => exact .inl rfl
    | succ i => exact .inr (strrchr_spec hdot)

/-! ## The pattern -/

/-- The pattern of `archive_matches` before the extension: the stem, a dot, the date, `T`, the time
of day, a dot, the microseconds and `Z`. -/
def archiveFront (stem date time micros : CString) : CString :=
  stem ++ 46 :: (date ++ 84 :: (time ++ 46 :: (micros ++ [90])))

theorem stampChar_digit {i : ℕ} {c : UInt8} (h : stampChar i c = true) (h8 : i ≠ 8) (h15 : i ≠ 15)
    (h22 : i ≠ 22) : 48 ≤ c ∧ c ≤ 57 := by
  rw [stampChar, if_neg h8, if_neg h15, if_neg h22] at h
  exact of_decide_eq_true h

/-- A part of the stamp without its separators is made of digits. -/
theorem allDigits_of_stamp {p : CString} (hchars : ∀ i < 23, stampChar i (p.getD i 0) = true)
    {start n : ℕ} (hlen : start + n ≤ p.length) (hend : start + n ≤ 22)
    (hsep : ∀ i, start ≤ i → i < start + n → i ≠ 8 ∧ i ≠ 15) :
    AllDigits n ((p.drop start).take n) := by
  refine ⟨?_, fun c hc => ?_⟩
  · rw [List.length_take, List.length_drop]
    omega
  · obtain ⟨j, hj, rfl⟩ := List.getElem_of_mem hc
    rw [List.length_take, List.length_drop] at hj
    have hchar := hchars (start + j) (by omega)
    have hbound : start + j < p.length := by omega
    rw [List.getElem_take, List.getElem_drop]
    rw [List.getD_eq_getElem p 0 hbound] at hchar
    obtain ⟨h8, h15⟩ := hsep (start + j) (by omega) (by omega)
    exact stampChar_digit hchar h8 h15 (by omega)

/-- The separators and digits of the pattern are where `archive_matches` looks for them. -/
theorem stampChar_front {date time micros ext : CString} (hdate : AllDigits 8 date)
    (htime : AllDigits 6 time) (hmicros : AllDigits 6 micros) {i : ℕ} (hi : i < 23) :
    stampChar i ((date ++ 84 :: (time ++ 46 :: (micros ++ 90 :: ext))).getD i 0) = true := by
  have hdigit : ∀ {n j : ℕ} {digits : CString}, AllDigits n digits → j < n → i ≠ 8 → i ≠ 15 →
      i ≠ 22 → stampChar i (digits.getD j 0) = true := by
    intro n j digits hdigits hj h8 h15 h22
    rw [List.getD_eq_getElem digits 0 (by rw [hdigits.1]; exact hj)]
    rw [stampChar, if_neg h8, if_neg h15, if_neg h22]
    exact decide_eq_true (hdigits.2 _ (List.getElem_mem _))
  -- the date, before the separator at 8
  by_cases h8 : i < 8
  · rw [List.getD_append _ _ _ _ (by rw [hdate.1]; exact h8)]
    exact hdigit hdate h8 (by omega) (by omega) (by omega)
  rw [List.getD_append_right _ _ _ _ (by rw [hdate.1]; omega), hdate.1]
  by_cases h9 : i = 8
  · rw [h9]
    rfl
  obtain ⟨j, hj⟩ : ∃ j, i - 8 = j + 1 := ⟨i - 9, by omega⟩
  rw [hj, List.getD_cons_succ]
  -- the time of day, before the separator at 15
  by_cases h15 : i < 15
  · rw [List.getD_append _ _ _ _ (by rw [htime.1]; omega)]
    exact hdigit htime (by omega) h9 (by omega) (by omega)
  rw [List.getD_append_right _ _ _ _ (by rw [htime.1]; omega), htime.1]
  by_cases h16 : i = 15
  · obtain rfl : j = 6 := by omega
    rw [h16]
    rfl
  obtain ⟨k, hk⟩ : ∃ k, j - 6 = k + 1 := ⟨j - 7, by omega⟩
  rw [hk, List.getD_cons_succ]
  -- the microseconds, before the separator at 22
  by_cases h22 : i < 22
  · rw [List.getD_append _ _ _ _ (by rw [hmicros.1]; omega)]
    exact hdigit hmicros (by omega) h9 h16 (by omega)
  · rw [List.getD_append_right _ _ _ _ (by rw [hmicros.1]; omega), hmicros.1]
    obtain rfl : i = 22 := by omega
    obtain rfl : k = 6 := by omega
    rfl

theorem archiveFront_append (stem date time micros ext : CString) :
    archiveFront stem date time micros ++ ext =
      stem ++ 46 :: (date ++ 84 :: (time ++ 46 :: (micros ++ 90 :: ext))) := by
  simp [archiveFront]

theorem cons_of_getD {s : CString} {i : ℕ} {c : UInt8} (hi : i < s.length) (hc : s.getD i 0 = c) :
    s.drop i = c :: s.drop (i + 1) := by
  rw [List.getD_eq_getElem s 0 hi] at hc
  rw [List.drop_eq_getElem_cons hi, hc]

theorem take_append_drop_add (s : CString) (i n : ℕ) :
    (s.drop i).take n ++ s.drop (i + n) = s.drop i := by
  rw [← List.drop_drop, List.take_append_drop]

/-- The strings that `archive_matches` accepts. -/
theorem archiveMatches_iff (b : FileBinding) (name : CString) :
    b.archiveMatches name = true ↔ ∃ date time micros, AllDigits 8 date ∧ AllDigits 6 time ∧
      AllDigits 6 micros ∧ name = archiveFront b.stem date time micros ++ b.ext := by
  simp only [FileBinding.archiveMatches, Bool.and_eq_true, decide_eq_true_eq, List.all_eq_true,
    List.mem_range]
  constructor
  · rintro ⟨⟨⟨⟨hlen, hstem⟩, hdot⟩, hchars⟩, hext⟩
    have hname := cons_of_getD (c := 46) (by omega) hdot
    set p := name.drop (b.stem.length + 1) with hp
    have hplen : p.length = 23 + b.ext.length := by
      rw [hp, List.length_drop]
      omega
    -- the separators split what comes after the stem
    have h8 := cons_of_getD (by omega) (of_decide_eq_true (hchars 8 (by decide)))
    have h15 := cons_of_getD (by omega) (of_decide_eq_true (hchars 15 (by decide)))
    have h22 := cons_of_getD (by omega) (of_decide_eq_true (hchars 22 (by decide)))
    refine ⟨(p.drop 0).take 8, (p.drop 9).take 6, (p.drop 16).take 6, ?_, ?_, ?_, ?_⟩
    · exact allDigits_of_stamp hchars (by omega) (by decide) (by omega)
    · exact allDigits_of_stamp hchars (by omega) (by decide) (by omega)
    · exact allDigits_of_stamp hchars (by omega) (by decide) (by omega)
    · calc name = name.take b.stem.length ++ name.drop b.stem.length :=
            (List.take_append_drop _ _).symm
        _ = b.stem ++ 46 :: p := by rw [hstem, hname]
        _ = archiveFront b.stem _ _ _ ++ b.ext := by
          rw [archiveFront_append, ← hext, ← h22, take_append_drop_add, ← h15, take_append_drop_add,
            ← h8, take_append_drop_add, List.drop_zero]
  · rintro ⟨date, time, micros, hdate, htime, hmicros, rfl⟩
    -- the other way the parts are where the function looks for them
    rw [archiveFront_append]
    have hp : (b.stem ++ 46 :: (date ++ 84 :: (time ++ 46 :: (micros ++ 90 :: b.ext)))).drop
        (b.stem.length + 1) = date ++ 84 :: (time ++ 46 :: (micros ++ 90 :: b.ext)) := by
      rw [← List.drop_drop, List.drop_left]
      rfl
    rw [hp]
    refine ⟨⟨⟨⟨?_, List.take_left⟩, ?_⟩, fun i hi => stampChar_front hdate htime hmicros hi⟩, ?_⟩
    · simp only [List.length_append, List.length_cons, hdate.1, htime.1, hmicros.1]
      omega
    · rw [List.getD_append_right _ _ _ _ le_rfl, Nat.sub_self]
      rfl
    · have hsplit : date ++ 84 :: (time ++ 46 :: (micros ++ 90 :: b.ext)) =
          (date ++ 84 :: (time ++ 46 :: (micros ++ [90]))) ++ b.ext := by simp
      rw [hsplit, List.drop_left']
      simp only [List.length_append, List.length_cons, List.length_nil, hdate.1, htime.1, hmicros.1]

/-- The front of an archive name ends with its `Z`. -/
theorem archiveFront_eq_concat (stem date time micros : CString) :
    ∃ rest, archiveFront stem date time micros = rest ++ [90] :=
  ⟨stem ++ 46 :: (date ++ 84 :: (time ++ 46 :: micros)), by simp [archiveFront]⟩

theorem ne_of_last_ne {x y : CString} {c d : UInt8} (h : c ≠ d) : x ++ [c] ≠ y ++ [d] := by
  intro heq
  exact h (List.singleton_inj.mp (List.append_inj' heq rfl).2)

theorem length_archiveFront {stem date time micros : CString} (hdate : AllDigits 8 date)
    (htime : AllDigits 6 time) (hmicros : AllDigits 6 micros) :
    (archiveFront stem date time micros).length = stem.length + 24 := by
  simp only [archiveFront, List.length_append, List.length_cons, List.length_nil, hdate.1, htime.1,
    hmicros.1]

section Names

variable {b b' : FileBinding} {name : CString}

theorem NamesBound.append (hb : NamesBound b) : b.stem ++ b.ext = b.name := by
  have hsplit := splitName_append b.name
  rw [← hb.names] at hsplit
  exact hsplit

theorem NamesBound.ext (hb : NamesBound b) :
    b.ext = [] ∨ ∃ tail, b.ext = 46 :: tail ∧ 46 ∉ tail := by
  have hsplit := splitName_ext b.name
  rw [← hb.names] at hsplit
  exact hsplit

/-- An archive name is longer than the active one. -/
theorem NamesBound.not_matches_name (hb : NamesBound b) : b.archiveMatches b.name = false := by
  rw [Bool.eq_false_iff]
  intro hmatches
  obtain ⟨date, time, micros, hdate, htime, hmicros, hname⟩ :=
    (archiveMatches_iff b b.name).mp hmatches
  have hlen := congrArg List.length (hb.append.trans hname)
  rw [List.length_append, List.length_append, length_archiveFront hdate htime hmicros] at hlen
  omega

/-- Before the last dot of an archive stands a `Z`, or it is the dot before the microseconds; the
last dot of a lock file comes after `logger`. -/
theorem NamesBound.not_matches_lock (hb : NamesBound b) (hlock : lockSuffix <:+ name) :
    b.archiveMatches name = false := by
  rw [Bool.eq_false_iff]
  intro hmatches
  obtain ⟨date, time, micros, -, -, -, rfl⟩ := (archiveMatches_iff b name).mp hmatches
  obtain ⟨front, hfront⟩ := archiveFront_eq_concat b.stem date time micros
  obtain ⟨x, hx⟩ := hlock
  have hlast : x ++ lockSuffix = (x ++ [46, 108, 111, 103, 103, 101] ++ [114]) ++
      46 :: [108, 111, 99, 107] := by simp [lockSuffix]
  rw [hfront] at hx
  rcases hb.ext with hext | ⟨tail, hext, htail⟩
  · rw [hext, List.append_nil] at hx
    have hk : x ++ lockSuffix =
        (x ++ [46, 108, 111, 103, 103, 101, 114, 46, 108, 111, 99]) ++ [107] := by
      simp [lockSuffix]
    exact ne_of_last_ne (by decide) (hk.symm.trans hx)
  · rw [hext] at hx
    have hbefore := (append_dot_inj (by decide) htail (hlast.symm.trans hx)).1
    exact ne_of_last_ne (by decide) hbefore

/-- Where one file has no extension and the other has one, the last dot of a common archive would
come after a digit and after a `Z`. -/
theorem not_matches_of_ext (hext : b.ext = []) {tail : CString} (hext' : b'.ext = 46 :: tail)
    (htail : 46 ∉ tail) (hmatches : b.archiveMatches name = true) :
    b'.archiveMatches name = false := by
  rw [Bool.eq_false_iff]
  intro hmatches'
  obtain ⟨date, time, micros, hdate, htime, hmicros, hname⟩ :=
    (archiveMatches_iff b name).mp hmatches
  obtain ⟨date', time', micros', -, -, -, hname'⟩ := (archiveMatches_iff b' name).mp hmatches'
  obtain ⟨front, hfront⟩ := archiveFront_eq_concat b'.stem date' time' micros'
  have hnodot : 46 ∉ micros ++ [90] := by
    rw [List.mem_append, not_or]
    exact ⟨hmicros.not_mem (by decide), by decide⟩
  have hdots : (b.stem ++ 46 :: (date ++ 84 :: time)) ++ 46 :: (micros ++ [90]) =
      (front ++ [90]) ++ 46 :: tail := by
    rw [← hfront, ← hext', ← hname', hname, hext, List.append_nil]
    simp [archiveFront]
  have hbefore := (append_dot_inj hnodot htail hdots).1
  -- the time of day ends with a digit
  obtain ⟨start, c, hc⟩ : ∃ start c, time = start ++ [c] := by
    have hne : time ≠ [] := List.ne_nil_of_length_eq_add_one htime.1
    exact ⟨_, _, (List.dropLast_concat_getLast hne).symm⟩
  have hdigit := htime.2 c (hc ▸ List.mem_append_right start List.mem_cons_self)
  have hsplit : b.stem ++ 46 :: (date ++ 84 :: time) =
      (b.stem ++ 46 :: (date ++ 84 :: start)) ++ [c] := by rw [hc]; simp
  refine ne_of_last_ne (fun hz => ?_) (hsplit.symm.trans hbefore)
  rw [hz] at hdigit
  exact absurd hdigit.2 (by decide)

/-- An archive belongs to one file. -/
theorem name_eq_of_archiveMatches (hb : NamesBound b) (hb' : NamesBound b')
    (hmatches : b.archiveMatches name = true) (hmatches' : b'.archiveMatches name = true) :
    b.name = b'.name := by
  -- with the same extension the stems are what is left
  have hstem : b.ext = b'.ext → b.name = b'.name := by
    intro hext
    obtain ⟨date, time, micros, hdate, htime, hmicros, hname⟩ :=
      (archiveMatches_iff b name).mp hmatches
    obtain ⟨date', time', micros', hdate', htime', hmicros', hname'⟩ :=
      (archiveMatches_iff b' name).mp hmatches'
    have hfront : archiveFront b.stem date time micros =
        archiveFront b'.stem date' time' micros' := by
      have hsame : archiveFront b.stem date time micros ++ b.ext =
          archiveFront b'.stem date' time' micros' ++ b.ext := by rw [← hname, hname', hext]
      exact List.append_cancel_right hsame
    have hlen := congrArg List.length hfront
    rw [length_archiveFront hdate htime hmicros, length_archiveFront hdate' htime' hmicros'] at hlen
    have hstems : b.stem = b'.stem := (List.append_inj hfront (by omega)).1
    rw [← hb.append, ← hb'.append, hstems, hext]
  -- an archive of one extension cannot end in another one
  rcases hb.ext with hext | ⟨tail, hext, htail⟩
  · rcases hb'.ext with hext' | ⟨tail', hext', htail'⟩
    · exact hstem (hext.trans hext'.symm)
    · have hfalse := not_matches_of_ext hext hext' htail' hmatches
      exact absurd (hfalse.symm.trans hmatches') Bool.false_ne_true
  · rcases hb'.ext with hext' | ⟨tail', hext', htail'⟩
    · have hfalse := not_matches_of_ext hext' hext htail hmatches'
      exact absurd (hfalse.symm.trans hmatches) Bool.false_ne_true
    -- the extension begins at the last dot
    · obtain ⟨date, time, micros, -, -, -, hname⟩ := (archiveMatches_iff b name).mp hmatches
      obtain ⟨date', time', micros', -, -, -, hname'⟩ := (archiveMatches_iff b' name).mp hmatches'
      rw [hext] at hname
      rw [hext'] at hname'
      have htails := (append_dot_inj htail htail' (hname.symm.trans hname')).2
      exact hstem (by rw [hext, hext', htails])

end Names

/-! ## The name at a time -/

/-- A time that `archive_name` can print, to the microsecond: its stamp has 15 characters. -/
structure Timespec.Stampable (yearWidth : ℕ) (t : Timespec) : Prop extends t.InRange where
  stamp : (strftimeStamp yearWidth (gmtime t.sec)).length = 15

/-- The order of times in whole microseconds. -/
def Timespec.MicroBefore (t t' : Timespec) : Prop :=
  t.sec < t'.sec ∨ t.sec = t'.sec ∧ t.nsec / 1000 < t'.nsec / 1000

section Times

variable {libc : Libc} {b : FileBinding} {t t' : Timespec}

/-- The time in whole microseconds, which is all that a name shows. -/
def Timespec.micro (t : Timespec) : Timespec := { t with nsec := t.nsec - t.nsec % 1000 }

theorem nameAt_micro (b : FileBinding) (libc : Libc) (t : Timespec) :
    b.nameAt libc t.micro = b.nameAt libc t := by
  have hmicro : (t.nsec - t.nsec % 1000) / 1000 = t.nsec / 1000 := by omega
  unfold FileBinding.nameAt archiveText Timespec.micro
  rw [hmicro]

theorem Timespec.Stampable.printable (h : t.Stampable libc.yearWidth) :
    t.micro.Printable libc.yearWidth := by
  have hnonneg := h.nsec_nonneg
  have hlt := h.nsec_lt
  refine ⟨?_, ?_, ?_, h.year_nonneg, h.year_le, h.stamp⟩
  all_goals
    simp only [Timespec.micro]
    omega

/-- Names are ordered as the times in them. -/
theorem nameAt_lt (ht : t.Stampable libc.yearWidth) (ht' : t'.Stampable libc.yearWidth)
    (h : t.MicroBefore t') : b.nameAt libc t < b.nameAt libc t' := by
  rw [← nameAt_micro b libc t, ← nameAt_micro b libc t']
  refine archiveText_lt ht.printable ht'.printable ?_
  simp only [Timespec.MicroBefore, Timespec.Before, Timespec.micro] at h ⊢
  omega

/-- Times that differ to the microsecond have different names. -/
theorem nameAt_inj (ht : t.Stampable libc.yearWidth) (ht' : t'.Stampable libc.yearWidth)
    (h : b.nameAt libc t = b.nameAt libc t') :
    t.sec = t'.sec ∧ t.nsec / 1000 = t'.nsec / 1000 := by
  by_contra hne
  have horder : t.MicroBefore t' ∨ t'.MicroBefore t := by
    simp only [Timespec.MicroBefore]
    omega
  rcases horder with hlt | hlt
  · exact absurd (h ▸ nameAt_lt ht ht' hlt) (List.lt_irrefl _)
  · exact absurd (h ▸ nameAt_lt ht' ht hlt) (List.lt_irrefl _)

/-- The name at a time is an archive name of the file. -/
theorem archiveMatches_nameAt (ht : t.Stampable libc.yearWidth) :
    b.archiveMatches (b.nameAt libc t) = true := by
  have hnonneg := ht.nsec_nonneg
  have hlt := ht.nsec_lt
  have hmicros : Decimal.atLeast 6 (t.nsec / 1000).toNat = Decimal.field 6 (t.nsec / 1000).toNat :=
    Decimal.atLeast_eq_field (by decide) (by omega)
  rw [archiveMatches_iff]
  refine ⟨Decimal.field 4 ((gmtime t.sec).year + 1900).toNat ++
    (Decimal.field 2 ((gmtime t.sec).mon + 1) ++ Decimal.field 2 (gmtime t.sec).mday),
    Decimal.field 2 (gmtime t.sec).hour ++
      (Decimal.field 2 (gmtime t.sec).min ++ Decimal.field 2 (gmtime t.sec).sec),
    Decimal.field 6 (t.nsec / 1000).toNat, ?_, ?_, allDigits_field _ _, ?_⟩
  · exact (allDigits_field _ _).append ((allDigits_field _ _).append (allDigits_field _ _))
  · exact (allDigits_field _ _).append ((allDigits_field _ _).append (allDigits_field _ _))
  · rw [FileBinding.nameAt, strftimeStamp, strftimeStamp_year ht.stamp, archiveText, hmicros,
      archiveFront_append]
    simp only [List.append_assoc, List.cons_append]

theorem length_nameAt (hb : NamesBound b) (ht : t.Stampable libc.yearWidth) :
    (b.nameAt libc t).length = b.name.length + 24 := by
  rw [← nameAt_micro, FileBinding.nameAt]
  have hlen := length_archiveText b.stem b.ext ht.printable
  rw [hlen, ← hb.append, List.length_append]
  omega

variable {A : Answer → Prop} {w : FileWorld}

theorem timestampValid_ends (t : Timespec) :
    Ends A (timestampValid t) (fun valid w' => w' = w ∧ (valid = true → t.InRange) ∧
      (t.InRange → (∀ a, A a → a.ok = true) → valid = true)) w := by
  refine .ite (fun hnsec => .pure ⟨rfl, nofun, fun hrange => ?_⟩) fun hnsec => ?_
  · have hnonneg := hrange.nsec_nonneg
    have hlt := hrange.nsec_lt
    omega
  refine .bind (.bind (.ask fun a ha => .pure ?_))
  cases hok : a.ok with
  | false =>
    refine .pure ⟨rfl, nofun, fun _ hall => ?_⟩
    exact absurd (hok.symm.trans (hall a ha)) Bool.false_ne_true
  | true =>
    refine .pure ⟨rfl, fun hvalid => ?_, fun hrange _ => ?_⟩
    · have hyear : -1900 ≤ (gmtime t.sec).year ∧ (gmtime t.sec).year ≤ 8099 :=
        of_decide_eq_true hvalid
      exact ⟨by omega, by omega, by omega, by omega⟩
    · have hlow := hrange.year_nonneg
      have hhigh := hrange.year_le
      exact decide_eq_true ⟨by omega, by omega⟩

/-- `archive_name` returns the name at the time, and does so whenever the C library does its part:
it does not run out of room. -/
theorem archiveName_ends (hb : NamesBound w.file.binding) (t : Timespec) :
    Ends A (archiveName libc t) (fun r _ =>
      (∀ name, r = .ok name → t.Stampable libc.yearWidth ∧ name = w.file.binding.nameAt libc t) ∧
      (t.Stampable libc.yearWidth → (∀ a, A a → a.ok = true) →
        r = .ok (w.file.binding.nameAt libc t))) w := by
  refine ends_getFile (.bind ((timestampValid_ends t).mono ?_))
  rintro valid w₁ ⟨rfl, hvalid, hvalid'⟩
  -- a time that is out of range has no name
  refine .ite (fun hnot => .pure ⟨nofun, fun ht hall => ?_⟩) fun hv => ?_
  · rw [hvalid' ht.toInRange hall] at hnot
    exact absurd hnot (by decide)
  -- from here on the first half is decided by the stamp
  have hrange : t.InRange := hvalid (by simpa using hv)
  refine .bind (.bind (.ask fun a ha => .pure ?_))
  cases hok : a.ok with
  | false =>
    refine .pure ⟨nofun, fun _ hall => ?_⟩
    exact absurd (hok.symm.trans (hall a ha)) Bool.false_ne_true
  | true =>
    refine .bind (.ask fun a₁ ha₁ => ?_)
    refine .ite (fun hbad => .pure ⟨nofun, fun ht hall => ?_⟩) fun hstamp => ?_
    -- a stamp is refused because the call failed or because the year is too long
    · rcases hbad with hbad | hlen
      · rw [hall a₁ ha₁] at hbad
        exact absurd hbad (by decide)
      · exact absurd ht.stamp hlen
    have ht : t.Stampable libc.yearWidth := ⟨hrange, not_not.mp fun hlen => hstamp (.inr hlen)⟩
    refine .bind (.ask fun a₂ ha₂ => ?_)
    refine .ite (fun hbad => .pure ⟨nofun, fun _ hall => ?_⟩) fun _ => ?_
    · rw [hall a₂ ha₂] at hbad
      exact absurd hbad (by decide)
    -- the name is never too long
    refine .ite (fun hlong => .pure ⟨nofun, fun _ _ => ?_⟩) fun _ => .pure ⟨?_, fun _ _ => rfl⟩
    · -- the room that `bind_path` has checked
      have hlen := length_nameAt hb ht
      have hroom := hb.room
      have hlong' : loggerFilenameMax + 1 ≤ (w₁.file.binding.nameAt libc t).length := hlong
      omega
    · intro name hname
      exact ⟨ht, (Except.ok.inj hname).symm⟩

end Times

/-! ## Retention -/

/-- A name that `retention` has deleted, with the status it was judged by. -/
abbrev Deletion := CString × Stat

/-- The names deleted, in order. -/
def FileWorld.unlinked (w : FileWorld) : List CString :=
  w.trace.filterMap fun
    | .unlink name => some name
    | _ => none

theorem FileWorld.unlinked_note (w : FileWorld) (e : FileEvent) :
    (w.note e).unlinked = w.unlinked ++ [e].filterMap fun
      | .unlink name => some name
      | _ => none := List.filterMap_append

instance : Unsynced FileWorld.unlinked where
  metrics _ _ _ := rfl
  dirDirty _ _ := rfl
  fsync w ino := (w.unlinked_note (.fsync ino)).trans (List.append_nil _)
  fsyncDir w := (w.unlinked_note .fsyncDir).trans (List.append_nil _)

/-- `retentionStep` with the deletions so far. -/
def retentionStepLog (now : ℤ) (s : Bool × List Deletion) :
    FileProg ((Bool × List Deletion) ⊕ (ℤ × Bool) × List Deletion) := do
  let f ← getFile
  let a ← call
  match a.entry with
  | none => return .inr ((if a.ok then 0 else -a.errno, s.1), s.2)
  | some name =>
    if !f.binding.archiveMatches name then return .inl s
    else
      match ← fstatat name with
      | .error e => return .inr ((-e, s.1), s.2)
      | .ok st =>
        if st.kind ≠ .regular ∨ st.nlink ≠ 1 ∨ (st.dev = f.device ∧ st.ino = f.inode) then
          return .inl s
        else if now - st.mtime ≤ f.binding.retentionDays * 86400 then return .inl s
        else
          match ← unlinkat name with
          | .error e => return .inr ((-e, s.1), s.2)
          | .ok () =>
            countMetrics fun m => { m with retentionDeletions := m.retentionDeletions + 1 }
            return .inl (true, s.2 ++ [(name, st)])

/-- `retention` with the deletions. -/
def retentionLog (now : ℤ) : FileProg (ℤ × List Deletion) := do
  let f ← getFile
  if f.binding.retentionDays = 0 then return (0, [])
  else
    let dir ← call
    if !dir.ok then return (-dir.errno, [])
    else
      let scan ← call
      if !scan.ok then
        let _ ← call
        return (-scan.errno, [])
      else
        let ((rc, changed), log) ← Prog.iterate (retentionStepLog now) (false, [])
        let closed ← call
        let rc : ℤ := if !closed.ok ∧ rc = 0 then -closed.errno else rc
        if changed then
          setFile fun f => { f with dirDirty := true }
          let synced ← syncDirectory
          return (if rc = 0 then synced else rc, log)
        else return (rc, log)

/-- What `retention` may delete of a file at a time: an archive of this file that is a regular file
with one link, is not the active one, and is too old. -/
structure Deletable (f : LoggerFile) (now : ℤ) (deletion : Deletion) : Prop where
  archive : f.binding.archiveMatches deletion.1 = true
  regular : deletion.2.kind = .regular
  single : deletion.2.nlink = 1
  other : ¬ (deletion.2.dev = f.device ∧ deletion.2.ino = f.inode)
  old : f.binding.retentionDays * 86400 < now - deletion.2.mtime

section Retention

variable {w w' : FileWorld} {now : ℤ}

/-- Two programs that begin alike. -/
theorem matches_bind_refl {α β β' : Type} {R : β → β' → Prop} {m : FileProg α} {f : α → FileProg β}
    {f' : α → FileProg β'} (h : ∀ a, Matches Eq R (f a) (f' a)) :
    Matches Eq R (m >>= f) (m >>= f') := by
  refine Matches.bind (Matches.refl m) ?_
  rintro a _ rfl
  exact h a

/-- The log has no effect. -/
theorem retentionStep_matches (now : ℤ) (s : Bool × List Deletion) :
    Matches Eq (Sum.LiftRel (fun c s => c = s.1) fun r s => r = s.1)
      (retentionStep now s.1) (retentionStepLog now s) := by
  refine matches_bind_refl fun f => matches_bind_refl fun a => ?_
  cases a.entry with
  | none => exact Matches.pure (.inr rfl)
  | some name =>
    refine Matches.ite (fun _ => Matches.pure (.inl rfl)) fun _ => matches_bind_refl fun r => ?_
    cases r with
    | error e => exact Matches.pure (.inr rfl)
    | ok st =>
      refine Matches.ite (fun _ => Matches.pure (.inl rfl)) fun _ => ?_
      refine Matches.ite (fun _ => Matches.pure (.inl rfl)) fun _ => matches_bind_refl fun r => ?_
      cases r with
      | error e => exact Matches.pure (.inr rfl)
      | ok u => exact matches_bind_refl fun _ => Matches.pure (.inl rfl)

theorem retention_matches (now : ℤ) :
    Matches Eq (fun rc r => rc = r.1) (retention now) (retentionLog now) := by
  refine matches_bind_refl fun f => Matches.ite (fun _ => Matches.pure rfl) fun _ => ?_
  refine matches_bind_refl fun dir => Matches.ite (fun _ => Matches.pure rfl) fun _ => ?_
  refine matches_bind_refl fun scan => Matches.ite (fun _ => ?_) fun _ => ?_
  · exact matches_bind_refl fun _ => Matches.pure rfl
  have hstep : ∀ (changed : Bool) (s : Bool × List Deletion), changed = s.1 →
      Matches Eq (Sum.LiftRel (fun c s => c = s.1) fun r s => r = s.1)
        (retentionStep now changed) (retentionStepLog now s) := by
    rintro _ s rfl
    exact retentionStep_matches now s
  refine Matches.bind (Matches.iterate hstep rfl) ?_
  rintro _ ⟨⟨rc, changed⟩, log⟩ rfl
  refine matches_bind_refl fun closed => Matches.ite (fun _ => ?_) fun _ => Matches.pure rfl
  exact matches_bind_refl fun _ => matches_bind_refl fun _ => Matches.pure rfl

/-- What a scan has deleted so far, from a file and a world at its start. -/
structure Scanned (w : FileWorld) (now : ℤ) (log : List Deletion) (w' : FileWorld) : Prop where
  file : w'.file = w.file
  unlinked : w'.unlinked = w.unlinked ++ log.map Prod.fst
  deletable : ∀ deletion ∈ log, Deletable w.file now deletion

theorem retentionStepLog_scanned {s : Bool × List Deletion} (h : Scanned w now s.2 w') :
    wp (fun _ => True) (retentionStepLog now s) (fun r w'' =>
      r.elim (fun s' => Scanned w now s'.2 w'') fun r' => Scanned w now r'.2 w'') w' := by
  refine wp_getFile_bind (wp_bind (wp_ask trivial fun a => ?_))
  cases a.entry with
  | none => exact wp_pure h
  | some name =>
    refine wp_ite (fun _ => wp_pure h) fun hmatches => ?_
    refine wp_bind (wp_of_keeps (π := id) (fstatat_keeps name) (fun _ _ => trivial)
      (fun _ _ => trivial) ?_)
    intro r w₁ _ hw₁
    -- reading the metadata changes nothing
    obtain rfl : w' = w₁ := hw₁.symm
    cases r with
    | error e => exact wp_pure h
    | ok st =>
      refine wp_ite (fun _ => wp_pure h) fun hkind => wp_ite (fun _ => wp_pure h) fun hage => ?_
      refine wp_bind (wp_ask trivial fun a => ?_)
      unfold FileWorld.unlinkAnswer
      cases a.ok with
      | false => exact wp_pure h
      -- every test so far has been passed, so the entry is one that retention may delete
      | true =>
        cases (w'.disk.dir name).isSome with
        | false => exact wp_pure h
        | true =>
          rw [not_or, not_or, not_not, not_not, h.file] at hkind
          rw [h.file] at hmatches hage
          have hdeletable : Deletable w.file now (name, st) :=
            ⟨by simpa using hmatches, hkind.1, hkind.2.1, hkind.2.2, not_le.mp hage⟩
          refine wp_bind (wp_modify (wp_pure ⟨h.file, ?_, fun deletion hmem => ?_⟩))
          -- the deletion is entered in the trace and in the log
          · have hunlinked :
                FileWorld.unlinked (w'.note (.unlink name)) = w'.unlinked ++ [name] := by
              rw [FileWorld.unlinked_note]
              rfl
            exact hunlinked.trans (by rw [h.unlinked, List.map_append, List.append_assoc]; rfl)
          · rcases List.mem_append.mp hmem with hmem | hmem
            · exact h.deletable deletion hmem
            · rw [List.mem_singleton.mp hmem]
              exact hdeletable

/-- Everything that `retention` deletes may be deleted. -/
theorem retentionLog_spec (w : FileWorld) (now : ℤ) :
    wp (fun _ => True) (retentionLog now) (fun r w' =>
      w'.unlinked = w.unlinked ++ r.2.map Prod.fst ∧
        ∀ deletion ∈ r.2, Deletable w.file now deletion) w := by
  have hnone : ∀ rc : ℤ, w.unlinked = w.unlinked ++ (rc, ([] : List Deletion)).2.map Prod.fst ∧
      ∀ deletion ∈ (rc, ([] : List Deletion)).2, Deletable w.file now deletion :=
    fun _ => ⟨(List.append_nil _).symm, nofun⟩
  refine wp_getFile_bind (wp_ite (fun _ => wp_pure (hnone 0)) fun _ => ?_)
  refine wp_bind (wp_ask trivial fun dir => wp_ite (fun _ => wp_pure (hnone _)) fun _ => ?_)
  refine wp_bind (wp_ask trivial fun scan => wp_ite (fun _ => ?_) fun _ => ?_)
  · exact wp_bind (wp_ask trivial fun _ => wp_pure (hnone _))
  have hstart : Scanned w now [] w := ⟨rfl, (List.append_nil _).symm, nofun⟩
  have hloop := wp_iterate (R := fun (r : (ℤ × Bool) × List Deletion) w' => Scanned w now r.2 w')
    (fun s w' => Scanned w now s.2 w') (fun _ _ _ => trivial)
    (fun s w' h => retentionStepLog_scanned h) (b := (false, [])) hstart
  refine wp_bind (wp_mono hloop ?_)
  rintro ⟨⟨rc, changed⟩, log⟩ w₁ hscanned
  refine wp_bind (wp_ask trivial fun closed => wp_ite (fun _ => ?_) fun _ => ?_)
  · refine wp_bind (wp_modify (wp_bind (wp_of_keeps (π := FileWorld.unlinked) syncDirectory_keeps
      (fun _ _ => trivial) (fun _ _ => trivial) fun synced w₂ _ hw₂ => wp_pure ?_)))
    exact ⟨hw₂.trans hscanned.unlinked, hscanned.deletable⟩
  · exact wp_pure ⟨hscanned.unlinked, hscanned.deletable⟩

end Retention

/-! ## Main result -/

/-- The archives of a file: their names, and what `retention` may do to a directory. -/
structure ArchiveNamespace (libc : Libc) (b : FileBinding) : Prop where
  room : ∀ t : Timespec, t.Stampable libc.yearWidth → (b.nameAt libc t).length ≤ loggerFilenameMax
  /-- `archive_name` returns the name at the time, which fits whenever the C library prints it. -/
  name : ∀ t w tape r w' rest, w.file.binding = b →
    (archiveName libc t).run w tape = .done r w' rest →
    (∀ name, r = .ok name → name = b.nameAt libc t ∧ b.archiveMatches name = true) ∧
      (t.Stampable libc.yearWidth → (∀ a ∈ tape, a.ok = true) → r = .ok (b.nameAt libc t))
  pattern : ∀ name, b.archiveMatches name = true ↔ ∃ date time micros, AllDigits 8 date ∧
    AllDigits 6 time ∧ AllDigits 6 micros ∧ name = archiveFront b.stem date time micros ++ b.ext
  active : b.archiveMatches b.name = false
  lock : ∀ name, lockSuffix <:+ name → b.archiveMatches name = false
  disjoint : ∀ b', RotatingBinding b' → b'.name ≠ b.name → ∀ name,
    ¬ (b.archiveMatches name = true ∧ b'.archiveMatches name = true)
  ordered : ∀ t t' : Timespec, t.Stampable libc.yearWidth → t'.Stampable libc.yearWidth →
    t.MicroBefore t' → b.nameAt libc t < b.nameAt libc t'
  distinct : ∀ t t' : Timespec, t.Stampable libc.yearWidth → t'.Stampable libc.yearWidth →
    b.nameAt libc t = b.nameAt libc t' → t.sec = t'.sec ∧ t.nsec / 1000 = t'.nsec / 1000
  /-- On every directory listing `retention` deletes what may be deleted. -/
  retention : ∀ now w tape rc w' rest, w.file.binding = b →
    (retention now).run w tape = .done rc w' rest →
    ∃ log, (retentionLog now).run w tape = .done (rc, log) w' rest ∧
      w'.unlinked = w.unlinked ++ log.map Prod.fst ∧
      ∀ deletion ∈ log, Deletable w.file now deletion

/-- The archives of every file that `bind_path` accepts in an internal rotation mode have a
namespace of their own. -/
theorem archive_namespace (libc : Libc) (b : FileBinding) (hb : RotatingBinding b) :
    ArchiveNamespace libc b := by
  -- every part is about the names that `bind_path` has accepted
  have hnames := hb.namesBound
  constructor
  case room =>
    intro t ht
    rw [length_nameAt hnames ht]
    exact hnames.room
  case name =>
    rintro t w tape r w' rest rfl hrun
    have hok :=
      archiveName_ends (A := fun a => a ∈ tape) hnames t tape (fun _ h => h) r w' rest hrun
    refine ⟨fun name hname => ?_, hok.2⟩
    obtain ⟨ht, rfl⟩ := hok.1 name hname
    exact ⟨rfl, archiveMatches_nameAt ht⟩
  case pattern => exact archiveMatches_iff b
  case active => exact hnames.not_matches_name
  case lock => exact fun name => hnames.not_matches_lock
  case disjoint =>
    rintro b' hb' hne name ⟨hmatches, hmatches'⟩
    exact hne (name_eq_of_archiveMatches hb'.namesBound hnames hmatches' hmatches)
  case ordered => exact fun t t' => nameAt_lt
  case distinct => exact fun t t' => nameAt_inj
  case retention =>
    rintro now w tape rc w' rest rfl hrun
    -- the scan with a log does what the scan does
    have hlog := retention_matches now w w tape rfl
    rw [hrun] at hlog
    have hspec := (retentionLog_spec w now).run tape
    cases hlogged : (retentionLog now).run w tape with
    | waiting w'' =>
      rw [hlogged] at hlog
      exact False.elim hlog
    | done r w'' rest' =>
      rw [hlogged] at hlog hspec
      obtain ⟨rfl, rfl, rfl⟩ := hlog
      exact ⟨r.2, rfl, hspec.1, hspec.2⟩

/-- The file `a.l`, rotated by size. -/
def boundFile : FileBinding :=
  { name := [97, 46, 108], lockName := [97, 46, 108] ++ lockSuffix, stem := [97], ext := [46, 108]
    mode := .size, maxFileSize := 1, retentionDays := 7, managed := true, iovMax := 16 }

theorem archive_namespace_boundFile : ArchiveNamespace ⟨1, gmtime⟩ boundFile := by
  refine archive_namespace ⟨1, gmtime⟩ boundFile ⟨rfl, { boundFile with
    name := [], lockName := [], stem := [], ext := [], managed := false }, some [97, 46, 108],
    ⟨{}, -1, 0, .error enoent⟩, by rfl⟩

end CLogger
