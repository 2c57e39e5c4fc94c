import CLogger.Instance.Sections
import Mathlib.Data.Bool.Count

/-!
# Emissions

`logger_emit_status` and `emit_batch`: a record is offered to the outputs once, in a section of its
own or of its batch, and counted as emitted or as failed before it is counted as completed.

* `loggerEmitStatus_accounts`: a record that a caller emits.
* `emitBatch_accounts`: a batch of the worker.
-/

namespace CLogger.Instance

open Concurrent

variable {recent : Prop} {cfg : InstConfig} {start : Sinks} {s s' : Inst} {t : InstThread}
  {E C : List Emission} {k : ℕ} {before : Sinks} {F : Inst → Prop}

section Results

/-- A word that is read. -/
theorem load_accounts {α : Type} {P : Inst → Prop} {field : Inst → α} {R : α → Prop}
    (hstable : (accountLogic recent cfg start).Stable t P)
    (hP : ∀ s, P s → s.history.accounted t = 0)
    (hR : ∀ s, AccountInv recent cfg start s → P s → R (field s)) :
    (accountLogic recent cfg start).Triple t P (load field) fun a s => P s ∧ R a := by
  refine account_act (fun _ s _ hs => hP s hs)
    (fun _ s s' hsees hs => ⟨hstable s s' hsees hs.1, hs.2⟩) ?_
  intro s a b s' hs hPs hact _
  obtain ⟨rfl, rfl⟩ := Prod.mk.inj (Option.some.inj hact)
  exact ⟨(Mild.refl s).accounts hs, hPs, hR s hs hPs⟩

/-- What a formatting of a record may return. -/
def MayFormat (cfg : InstConfig) (strict : Bool) (m : LoggerMessage) (r : FormatResult) : Prop :=
  ∃ out answers cache, ErrnoNonneg answers ∧ r = formatOnce cfg strict m out answers cache

theorem MayFormat.ok {strict : Bool} {m : LoggerMessage} {r : FormatResult}
    (h : MayFormat cfg strict m r) : FormatOk r := by
  obtain ⟨out, answers, cache, herrno, rfl⟩ := h
  exact formatOnce_ok strict m out cache herrno

theorem MayFormat.formatted {strict : Bool} {m : LoggerMessage} {r : FormatResult}
    (h : MayFormat cfg strict m r) (hrc : r.rc = 0) : FormattedAs cfg strict m (lineOf r) := by
  obtain ⟨out, answers, cache, herrno, rfl⟩ := h
  exact ⟨out, answers, cache, herrno, hrc, rfl⟩

/-- A line that is not empty has been formatted. -/
theorem MayFormat.rc_of_length {strict : Bool} {m : LoggerMessage} {r : FormatResult}
    (h : MayFormat cfg strict m r) (hlength : r.length ≠ 0) : r.rc = 0 :=
  by_contra fun hrc => hlength (h.ok.empty hrc)

theorem MayFormat.errno_pos {strict : Bool} {m : LoggerMessage} {r : FormatResult}
    (h : MayFormat cfg strict m r) : 0 < formatErrno r := by
  unfold formatErrno
  split
  · exact show 0 < eilseq by decide
  · exact neg_pos.mpr (lt_of_le_of_ne h.ok.nonpos ‹_›)

theorem formatRecord_accounts {P : Inst → Prop}
    (hstable : (accountLogic recent cfg start).Stable t P)
    (hP : ∀ s, P s → s.history.accounted t = 0) (m : LoggerMessage) (strict : Bool) :
    (accountLogic recent cfg start).Triple t P (formatRecord cfg t m strict) fun r s =>
      P s ∧ MayFormat cfg strict m r := by
  refine account_act (fun _ s _ hs => hP s hs)
    (fun _ s s' hsees hs => ⟨hstable s s' hsees hs.1, hs.2⟩) ?_
  intro s a b s' hs hPs hact _
  obtain ⟨rfl, rfl⟩ := Prod.mk.inj (Option.some.inj hact)
  have hmild : ∀ caches, Mild s { s with caches } := fun _ => ⟨.of_ledger rfl rfl rfl rfl id, rfl⟩
  exact ⟨(hmild _).accounts hs, hstable s _ (hmild _).sees hPs, a.out, a.writes, s.caches t,
    a.writes_errno, rfl⟩

/-- The assertions with which code that is passed can be run. -/
theorem Framed.zero (_ : Framed recent cfg start t F) :
    ∀ s, Standing t 0 E C s ∧ F s → s.history.accounted t = 0 := fun _ hs => hs.1.accounted

/-- A record that reaches no output. -/
theorem refuseRecord_accounts (hF : Framed recent cfg start t F) {error : ℤ} (herror : 0 < error) :
    (accountLogic recent cfg start).Triple t (fun s => Settled t 0 E s ∧ F s)
      (refuseRecord t error) fun rc s => (Settled t 0 E s ∧ F s) ∧ rc ≠ 0 := by
  refine Logic.Triple.bind (noteIoError_accounts error hF.standing hF.zero) fun _ => ?_
  refine Logic.Triple.bind (Q := fun _ s => Settled t 1 E s ∧ F s) ?_ fun _ => ?_
  · exact (countFailed_accounts hF 1).pre fun s _ hs => ⟨hs.1.1, hs.1.2, fun _ => hs.2 herror⟩
  refine Logic.Triple.bind (completeSync_accounts hF) fun _ => Logic.triple_pure fun s _ hs => ?_
  exact ⟨hs, neg_ne_zero.mpr herror.ne'⟩

end Results

section Outputs

variable {lines : List (List UInt8)} {synchronised : Bool}
  {items : List (LoggerMessage × List UInt8)} {x y : ℤ} {zs : List ℤ} {w : Sinks}

/-- The outputs after standard error. -/
structure AfterStderr (cfg : InstConfig) (lines : List (List UInt8)) (before : Sinks) (x : ℤ)
    (w : Sinks) : Prop where
  stderr : StderrRan cfg lines before.stderr x w.stderr
  file : w.file = before.file
  syslog : w.syslog = before.syslog

/-- The outputs after the file. -/
structure AfterFile (cfg : InstConfig) (lines : List (List UInt8)) (synchronised : Bool)
    (before : Sinks) (x y : ℤ) (w : Sinks) : Prop where
  stderr : StderrRan cfg lines before.stderr x w.stderr
  file : FileRan cfg lines.flatten synchronised before.file y w.file
  syslog : w.syslog = before.syslog

/-- The outputs after the socket. -/
structure AfterSocket (cfg : InstConfig) (lines : List (List UInt8)) (synchronised : Bool)
    (items : List (LoggerMessage × List UInt8)) (before : Sinks) (x y : ℤ) (zs : List ℤ)
    (w : Sinks) : Prop where
  stderr : StderrRan cfg lines before.stderr x w.stderr
  file : FileRan cfg lines.flatten synchronised before.file y w.file
  syslog : SocketRan cfg items before.syslog zs w.syslog

theorem stderr_accounts (hF : Framed recent cfg start t F) (lines : List (List UInt8)) :
    (accountLogic recent cfg start).Triple t
      (fun s => Held cfg start t E before s ∧ F s ∧ s.sinks = before)
      (if cfg.outStderr then onStderr (loggerStderrWritevAll lines) else pure 0)
      fun x s => Held cfg start t E before s ∧ F s ∧ AfterStderr cfg lines before x s.sinks := by
  refine Logic.triple_ite (fun hout => ?_) fun hout => Logic.triple_pure fun s _ hs => ?_
  · refine onStderr_accounts (R := (· = before)) (Q := AfterStderr cfg lines before) hF _
      before.stderr (fun w hw => congrArg Sinks.stderr hw) fun w x y hw hreturns => ?_
    subst hw
    refine ⟨?_, rfl, rfl⟩
    rw [StderrRan, if_pos hout]
    exact hreturns
  · refine ⟨hs.1, hs.2.1, ?_, congrArg Sinks.file hs.2.2, congrArg Sinks.syslog hs.2.2⟩
    rw [StderrRan, if_neg hout]
    exact ⟨rfl, congrArg Sinks.stderr hs.2.2⟩

theorem file_accounts (hF : Framed recent cfg start t F) (hout : cfg.outFile) {op : FileOp}
    (hop : WritesBytes lines.flatten synchronised op) :
    (accountLogic recent cfg start).Triple t
      (fun s => Held cfg start t E before s ∧ F s ∧ AfterStderr cfg lines before x s.sinks)
      (onFile (op.exec cfg.libc))
      fun y s => Held cfg start t E before s ∧ F s ∧
        AfterFile cfg lines synchronised before x y s.sinks := by
  refine onFile_accounts (Q := fun y w => AfterFile cfg lines synchronised before x y w) hF _
    before.file (fun w hw => hw.file) fun w y f hw hreturns => ⟨hw.stderr, ?_, hw.syslog⟩
  rw [FileRan, if_pos hout]
  exact ⟨op, hop, hreturns⟩

theorem AfterStderr.noFile (h : AfterStderr cfg lines before x w) (hout : ¬ cfg.outFile) :
    AfterFile cfg lines synchronised before x 0 w := by
  refine ⟨h.stderr, ?_, h.syslog⟩
  rw [FileRan, if_neg hout]
  exact ⟨rfl, h.file⟩

theorem AfterFile.noSocket (h : AfterFile cfg lines synchronised before x y w)
    (hout : ¬ cfg.outSyslog) :
    AfterSocket cfg lines synchronised items before x y (items.map fun _ => 0) w := by
  refine ⟨h.stderr, h.file, ?_⟩
  rw [SocketRan, if_neg hout]
  exact ⟨rfl, h.syslog⟩

end Outputs

section Line

/-- What the outputs of one record have done, with their first error. -/
def LineRan (cfg : InstConfig) (m : LoggerMessage) (line : List UInt8) (forced : Bool)
    (before : Sinks) (rc : ℤ) (w : Sinks) : Prop :=
  ∃ x y z, AfterSocket cfg [line] (forced || needsSync cfg [m]) [(m, line)] before x y [z] w ∧
    rc = if x ≠ 0 then x else if y ≠ 0 then y else z

theorem emitLine_accounts (hF : Framed recent cfg start t F) (m : LoggerMessage) (line : List UInt8)
    (forced : Bool) :
    (accountLogic recent cfg start).Triple t
      (fun s => Held cfg start t E before s ∧ F s ∧ s.sinks = before) (emitLine cfg m line forced)
      fun rc s => Held cfg start t E before s ∧ F s ∧
        LineRan cfg m line forced before rc s.sinks := by
  unfold emitLine
  refine Logic.Triple.bind (stderr_accounts hF [line]) fun x => ?_
  -- the file is written to when it is selected, and its result is used only after a success before
  -- it
  refine Logic.Triple.bind (Q := fun rc s => Held cfg start t E before s ∧ F s ∧
    ∃ y, AfterFile cfg [line] (forced || needsSync cfg [m]) before x y s.sinks ∧
      rc = if x = 0 then y else x) ?_ fun rc => ?_
  · refine Logic.triple_ite (fun hout => ?_) fun hout => Logic.triple_pure fun s _ hs => ?_
    · refine Logic.Triple.bind (file_accounts hF hout ⟨?_, ?_, by rintro ⟨⟩, by rintro ⟨⟩⟩) fun y =>
        Logic.triple_pure fun s _ hs => ⟨hs.1, hs.2.1, y, hs.2.2, rfl⟩
      · exact (List.append_nil line).symm
      · simp only [FileOp.synchronises, needsSync, List.any_cons, List.any_nil, Bool.or_false]
    · refine ⟨hs.1, hs.2.1, 0, hs.2.2.noFile hout, ?_⟩
      split
      · assumption
      · rfl
  -- the result of the line is that of the first output that has failed
  have hfirst : ∀ y z : ℤ, (if z ≠ 0 ∧ (if x = 0 then y else x) = 0 then z
      else if x = 0 then y else x) = if x ≠ 0 then x else if y ≠ 0 then y else z := by
    intro y z
    split_ifs <;> omega
  refine Logic.triple_ite (fun hout => ?_) fun hout => Logic.triple_pure fun s _ hs => ?_
  -- the socket is the last of the three
  · refine Logic.Triple.bind (onSyslog_accounts (R := fun w => ∃ y, AfterFile cfg [line]
      (forced || needsSync cfg [m]) before x y w ∧ rc = if x = 0 then y else x) (Q :=
      fun z w => ∃ y, AfterSocket cfg [line]
      (forced || needsSync cfg [m]) [(m, line)] before x y [z] w ∧ rc = if x = 0 then y else x) hF
      (loggerSyslogWrite m.level (some line)) before.syslog (fun w hw => ?_)
      fun w z f hw hreturns => ?_) fun z => Logic.triple_pure fun s _ hs => ?_
    · obtain ⟨y, hafter, -⟩ := hw
      exact hafter.syslog
    · obtain ⟨y, hafter, hrc⟩ := hw
      refine ⟨y, ⟨hafter.stderr, hafter.file, ?_⟩, hrc⟩
      rw [SocketRan, if_pos hout]
      exact .cons hreturns .nil
    · obtain ⟨hheld, hFs, y, hafter, rfl⟩ := hs
      -- the results are those of the three outputs
      exact ⟨hheld, hFs, x, y, z, hafter, hfirst y z⟩
  · obtain ⟨hheld, hFs, y, hafter, rfl⟩ := hs
    -- a socket that is not selected counts as a success
    refine ⟨hheld, hFs, x, y, 0, hafter.noSocket hout, ?_⟩
    split_ifs <;> omega

/-- The first error of the outputs is an error number, and shows whether all of them are 0. -/
theorem firstError_cases {x y z : ℤ} (hx : x ≤ 0) (hy : y ≤ 0) (hz : z ≤ 0) :
    (if x ≠ 0 then x else if y ≠ 0 then y else z) ≤ 0 ∧
      ((if x ≠ 0 then x else if y ≠ 0 then y else z) = 0 ↔ x = 0 ∧ y = 0 ∧ z = 0) := by
  split_ifs <;> omega

theorem LineRan.emission {m : LoggerMessage} {line : List UInt8} {forced : Bool} {rc : ℤ}
    {w : Sinks} (h : LineRan cfg m line forced before rc w)
    (hformatted : FormattedAs cfg forced m line) (hok : SinksOk before) :
    rc ≤ 0 ∧ ∀ unlockRc ≤ 0, ∃ r, EmissionRan cfg
      { thread := t, records := [m], lines := [line], forced, before, after := w
        failed := [decide ((if rc = 0 then unlockRc else rc) < 0)] } r := by
  obtain ⟨x, y, z, hafter, hrc⟩ := h
  have hx := hafter.stderr.left.1
  have hy := (hafter.file.left hok.file).2.1
  have hz := (hafter.syslog.left hok.syslog).2.1 z List.mem_cons_self
  obtain ⟨hnonpos, hzero⟩ := firstError_cases hx hy hz
  rw [← hrc] at hnonpos hzero
  refine ⟨hnonpos, fun unlockRc hunlock => ⟨⟨x, y, [z], unlockRc⟩, ?_⟩⟩
  refine ⟨.cons hformatted .nil, .inr rfl, hafter.stderr, hafter.file, hafter.syslog, hunlock, ?_⟩
  simp only [List.map_cons, List.map_nil, List.cons.injEq, and_true, decide_eq_decide]
  split
  · rename_i hall
    obtain ⟨rfl, rfl, rfl⟩ := hzero.mp hall
    omega
  · rename_i hsome
    rw [hzero] at hsome
    omega

/-- The counting of the record that the emission is about. -/
theorem accountLine_accounts (hF : Framed recent cfg start t F) (ht : t ≠ .worker) {rc : ℤ}
    {e : Emission} (hthread : e.thread = t) (hfailed : e.failed = [decide (rc < 0)]) {since : ℕ}
    (hsince : ∀ s, F s → since ≤ s.history.counted.length) :
    (accountLogic recent cfg start).Triple t
      (fun s => Standing t 0 (E ++ [e]) (E.filter Emission.counts) s ∧ F s) (accountLine t rc e)
      fun _ s => (Settled t 1 (E ++ [e]) s ∧ F s) ∧ (rc = 0 → CountedSince since e s) := by
  -- the section of a caller counts when its one record has not failed
  have hcounts : (E ++ [e]).filter Emission.counts =
      E.filter Emission.counts ++ if rc < 0 then [] else [e] := by
    rw [List.filter_append]
    congr 1
    by_cases hrc : rc < 0
    · rw [if_pos hrc]
      refine List.filter_cons_of_neg ?_
      simp [Emission.counts, hthread, ht, hfailed, hrc]
    · rw [if_neg hrc]
      refine List.filter_cons_of_pos ?_
      simp [Emission.counts, hfailed, hrc]
  refine Logic.triple_ite (fun hrc => ?_) fun hrc => ?_
  -- a failed record notes its error before it is counted
  · rw [if_pos hrc, List.append_nil] at hcounts
    refine Logic.Triple.bind (noteIoError_accounts (-rc) hF.standing hF.zero) fun _ => ?_
    refine (countFailed_accounts (E := E ++ [e]) (C := (E ++ [e]).filter Emission.counts)
      hF 1).conseq (fun s _ hs => ?_) fun _ s _ hs => ?_
    · exact ⟨hcounts.symm ▸ hs.1.1, hs.1.2, fun _ => hs.2 (neg_pos.mpr hrc)⟩
    · exact ⟨hs, fun hzero => absurd hzero hrc.ne⟩
  -- a record that has been emitted leaves no error
  · rw [if_neg hrc] at hcounts
    rw [decide_eq_false hrc] at hfailed
    refine (countEmitted_accounts (k := 0) (e := some e) hF (.inr rfl) ?_ hcounts hsince ?_ ?_).post
      fun _ s _ hs => ⟨⟨hs.1.1, hs.1.2⟩, fun _ => hs.2 e List.mem_cons_self⟩
    · simp [hfailed]
    -- the only section counted here is this one
    · intro s _ _ e' he' b hb
      obtain rfl := List.mem_singleton.mp he'
      rw [hfailed] at hb
      exact List.mem_singleton.mp hb
    · exact fun hworker => absurd hworker ht

/-- The record has been counted as emitted, in an emission of its own. -/
def EmittedSince (since : ℕ) (m : LoggerMessage) (forced : Bool) (s : Inst) : Prop :=
  ∃ e, CountedSince since e s ∧ e.records = [m] ∧ e.forced = forced ∧ e.failed = [false]

theorem framed_emitted (p : Prop) (since : ℕ) (m : LoggerMessage) (forced : Bool) :
    Framed recent cfg start t fun s => p → EmittedSince since m forced s := by
  refine ⟨fun s s' hsees hs hp => ?_, fun s s' haside hs hp => ?_⟩
  · obtain ⟨e, he, hrest⟩ := hs hp
    exact ⟨e, he.mono hsees.1, hrest⟩
  · obtain ⟨e, he, hrest⟩ := hs hp
    exact ⟨e, he.mono haside.guar, hrest⟩

/-- A thread that has counted all its emissions, and knows `F`. -/
def AtRest (t : InstThread) (F : Inst → Prop) (s : Inst) : Prop := (∃ E, Settled t 0 E s) ∧ F s

/-- A caller emits a record: when it returns 0, the record is counted as emitted. -/
theorem loggerEmitStatus_accounts (hstart : SinksOk start) (hF : Framed recent cfg start t F)
    (ht : t ≠ .worker) {since : ℕ} (hsince : ∀ s, F s → since ≤ s.history.counted.length)
    (m : LoggerMessage) (forced : Bool) :
    (accountLogic recent cfg start).Triple t (AtRest t F) (loggerEmitStatus cfg t m forced)
      fun rc s => AtRest t F s ∧ (rc = 0 → EmittedSince since m forced s) := by
  -- what the thread has emitted so far is fixed for the rest of the proof
  have hexists : ∀ s, AtRest t F s → ∃ E, Settled t 0 E s ∧ F s :=
    fun s hs => ⟨hs.1.choose, hs.1.choose_spec, hs.2⟩
  refine (triple_exists (fun E => hF.standing) fun E => ?_).pre fun s _ hs => hexists s hs
  -- each refusal counts the record as failed and returns an error
  have hrefuse : ∀ {error : ℤ}, 0 < error → (accountLogic recent cfg start).Triple t
      (fun s => Settled t 0 E s ∧ F s) (refuseRecord t error) fun rc s =>
        AtRest t F s ∧ (rc = 0 → EmittedSince since m forced s) := fun herror =>
    (refuseRecord_accounts hF herror).post fun rc s _ hs =>
      ⟨⟨⟨E, hs.1.1⟩, hs.1.2⟩, fun hrc => absurd hrc hs.2⟩
  refine Logic.Triple.bind (formatRecord_accounts hF.standing hF.zero m forced) fun r => ?_
  refine Logic.triple_fact (fun s _ hs => hs.2) fun hformat => ?_
  refine Logic.Triple.pre ?_ fun s _ hs => hs.1
  refine Logic.triple_ite (fun hstrict => ?_) fun hstrict => ?_
  -- a forced record that could not be formatted is not counted: its caller hears of it
  · refine Logic.triple_pure fun s _ hs => ⟨⟨⟨E, hs.1⟩, hs.2⟩, fun hrc => absurd hrc hstrict.2⟩
  refine Logic.triple_ite (fun _ => hrefuse hformat.errno_pos) fun hempty => ?_
  -- from here on the line is the formatted record
  have hformatted : FormattedAs cfg forced m (lineOf r) := by
    refine hformat.formatted ?_
    cases forced with
    | true => exact by_contra fun hrc => hstrict ⟨rfl, hrc⟩
    | false => exact hformat.rc_of_length fun hzero => hempty ⟨by decide, hzero⟩
  -- an output that lost its lock is not used any more
  refine Logic.Triple.bind (load_accounts (R := fun a => 0 ≤ a) hF.standing hF.zero
    fun s hs _ => hs.synchronizationError) fun syncError => ?_
  refine Logic.triple_fact (fun s _ hs => hs.2) fun hnonneg => ?_
  refine Logic.Triple.pre ?_ fun s _ hs => hs.1
  refine Logic.triple_ite (fun hne => hrefuse (lt_of_le_of_ne hnonneg (Ne.symm hne))) fun _ => ?_
  refine Logic.Triple.bind (lockEmit_accounts hF) ?_
  rintro ⟨lockRc, before⟩
  refine Logic.triple_fact (fun s _ hs => hs.2.1) fun hlockRc => ?_
  refine Logic.triple_ite (fun hne => ?_) fun hlocked => ?_
  -- without the lock nothing may be written
  · exact (hrefuse (neg_pos.mpr (lt_of_le_of_ne hlockRc hne))).pre fun s _ hs => hs.1
  rw [not_not] at hlocked
  refine Logic.Triple.pre ?_ fun s _ hs => hs.2.2 hlocked
  refine Logic.triple_fact (fun s _ hs => hs.1.reached.ok hstart) fun hok => ?_
  -- inside the section
  refine Logic.Triple.bind (emitLine_accounts hF m (lineOf r) forced) fun rc => ?_
  refine Logic.Triple.bind (unlockEmit_accounts (R := LineRan cfg m (lineOf r) forced before rc) hF
    (fun unlockRc w hunlock hw => ⟨rfl, rfl, rfl, (hw.emission hformatted hok).2 unlockRc hunlock⟩)
    fun hworker => absurd hworker ht) ?_
  rintro ⟨unlockRc, e⟩
  refine Logic.triple_fact (fun s _ hs => hs.2) fun hemission => ?_
  obtain ⟨-, w, -, he⟩ := hemission
  let result := if rc = 0 then unlockRc else rc
  have hfailed : e.failed = [decide (result < 0)] := congrArg Emission.failed he
  refine Logic.Triple.pre ?_ fun s _ hs => hs.1
  refine Logic.Triple.bind ((passes_noteSynchronizationError unlockRc).standing hF) fun _ => ?_
  refine Logic.Triple.bind
    -- after the section the caller accounts for its record
    (accountLine_accounts hF ht (congrArg Emission.thread he) hfailed hsince) fun _ => ?_
  refine Logic.Triple.bind ((completeSync_accounts (E := E ++ [e])
    (C := (E ++ [e]).filter Emission.counts)
    (hF.and (framed_emitted (result = 0) since m forced))).pre fun s _ hs => ?_) fun _ =>
      Logic.triple_pure fun s _ hs => ⟨⟨⟨_, hs.1⟩, hs.2.1⟩, hs.2.2⟩
  refine ⟨hs.1.1, hs.1.2, fun hzero => ⟨e, hs.2 hzero, congrArg Emission.records he,
    congrArg Emission.forced he, ?_⟩⟩
  rw [hfailed, hzero]
  rfl

end Line

section Batch

/-- What the worker knows when it has made the emissions `E` and taken `batch`: nothing is missing
as long as nothing has failed. -/
structure Taken (recent : Prop) (E : List Emission) (batch : List LoggerMessage) (s : Inst) :
    Prop where
  idle : s.ring.pop = .idle
  order : (recordsOf E ++ batch).Sublist s.ring.popped
  all : recent → s.firstError = 0 → recordsOf E ++ batch = s.ring.popped
  behind : recent → s.completedPos ≤ s.ring.q.dequeuePos

variable {batch : List LoggerMessage} {lines : List (List UInt8)}

theorem framed_taken : Framed recent cfg start .worker (Taken recent E batch) where
  stable s s' hsees hs := by
    obtain ⟨hpopped, hpop, hpos, hcompleted⟩ := hsees.2.worker rfl
    refine ⟨hpop.trans hs.idle, hpopped ▸ hs.order, fun hr hz => ?_, fun hr => ?_⟩
    · rw [hpopped]
      exact hs.all hr (hsees.1.noError hz)
    · rw [hpos, hcompleted]
      exact hs.behind hr
  aside s s' haside hs := by
    have hring := haside.ring
    refine ⟨hring ▸ hs.idle, hring ▸ hs.order, fun hr hz => ?_, fun hr => ?_⟩
    · rw [hring]
      exact hs.all hr (haside.guar.noError hz)
    · rw [hring, haside.completedPos]
      exact hs.behind hr

theorem Taken.emitted {e : Emission} (h : Taken recent E e.records s) :
    Taken recent (E ++ [e]) [] s where
  idle := h.idle
  order := by
    rw [recordsOf_append, recordsOf_singleton, List.append_nil]
    exact h.order
  all hr hz := by
    rw [recordsOf_append, recordsOf_singleton, List.append_nil]
    exact h.all hr hz
  behind := h.behind

/-- A batch that reaches no output is missing, and an error has been noted. -/
theorem Taken.refused (h : Taken recent E batch s) (herror : 0 < s.firstError) :
    Taken recent E [] s where
  idle := h.idle
  order := (List.append_nil _).symm ▸ (List.sublist_append_left _ _).trans h.order
  all _ hz := absurd hz herror.ne'
  behind := h.behind

theorem formatBatch_accounts {P : Inst → Prop}
    (hstable : (accountLogic recent cfg start).Stable .worker P)
    (hP : ∀ s, P s → s.history.accounted .worker = 0) (batch : List LoggerMessage) :
    (accountLogic recent cfg start).Triple .worker P (formatBatch cfg batch) fun rs s =>
      P s ∧ List.Forall₂ (MayFormat cfg false) batch rs := by
  induction batch with
  | nil => exact Logic.triple_pure fun s _ hs => ⟨hs, .nil⟩
  | cons m ms ih =>
    refine Logic.Triple.bind (formatRecord_accounts hstable hP m false) fun r => ?_
    refine Logic.triple_fact (fun s _ hs => hs.2) fun hr => ?_
    refine Logic.Triple.bind (ih.pre fun s _ hs => hs.1) fun rs => ?_
    exact Logic.triple_pure fun s _ hs => ⟨hs.1, .cons hr hs.2⟩

/-- The datagrams of a batch: an error has been noted for each record that failed. -/
theorem emitSyslog_accounts {x : StderrWorld} {y : FileWorld} {z : SyslogWorld}
    (hF : Framed recent cfg start t F) (items : List (LoggerMessage × List UInt8))
    (hz : SyslogSane z) :
    (accountLogic recent cfg start).Triple t
      (fun s => Held cfg start t E before s ∧ F s ∧ s.sinks = ⟨y, x, z⟩) (emitSyslog items)
      fun failed s => Held cfg start t E before s ∧
        (F s ∧ (true ∈ failed → 0 < s.firstError)) ∧ ∃ zs, SyslogRan items z zs s.sinks.syslog ∧
          s.sinks.stderr = x ∧ s.sinks.file = y ∧ failed = zs.map fun rc => decide (rc ≠ 0) := by
  induction items generalizing F z with
  -- nothing is sent
  | nil =>
    refine Logic.triple_pure fun s _ hs =>
      ⟨hs.1, ⟨hs.2.1, fun h => absurd h List.not_mem_nil⟩, [], ?_⟩
    rw [hs.2.2]
    exact ⟨.nil, rfl, rfl, rfl⟩
  | cons item rest ih =>
    obtain ⟨m, line⟩ := item
    refine Logic.Triple.bind (onSyslog_accounts (R := (· = ⟨y, x, z⟩)) (Q := fun rc w =>
      TapeProgram.Returns (loggerSyslogWrite m.level (some line)) z rc w.syslog ∧
        w = ⟨y, x, w.syslog⟩)
      hF _ z (fun w hw => congrArg Sinks.syslog hw) fun w rc z' hw hreturns => ?_) fun rc => ?_
    · subst hw
      exact ⟨hreturns, rfl⟩
    -- what this datagram has left is where the rest starts from
    refine (triple_exists (P := fun z' s => Held cfg start t E before s ∧ F s ∧
      (TapeProgram.Returns (loggerSyslogWrite m.level (some line)) z rc z' ∧
        s.sinks = ⟨y, x, z'⟩)) (fun z' => hF.held fun w => _ ∧ w = ⟨y, x, z'⟩) fun z' => ?_).pre
      fun s _ hs => ⟨s.sinks.syslog, hs⟩
    refine Logic.triple_fact (fun s _ hs => hs.2.2.1) fun hreturns => ?_
    have hwritten := syslogWritten_of_returns hreturns hz
    refine Logic.Triple.bind ((noteFailure_accounts (R := (· = ⟨y, x, z'⟩)) hF rc).pre
      fun s _ hs => ⟨hs.1, hs.2.1, hs.2.2.2⟩) fun _ => ?_
    -- the errors of this datagram and of the rest are both kept
    refine Logic.Triple.bind (ih (hF.and (framed_error (rc < 0))) hwritten.sane) fun failed => ?_
    refine Logic.triple_pure fun s _ hs => ?_
    obtain ⟨hheld, ⟨⟨hFs, herror⟩, herrors⟩, zs, hran, hstderr, hfile, rfl⟩ := hs
    refine ⟨hheld, ⟨hFs, fun hmem => ?_⟩, rc :: zs, .cons hreturns hran, hstderr, hfile, rfl⟩
    -- the flag is of this datagram or of the rest
    rcases List.mem_cons.mp hmem with hhead | htail
    · exact herror (lt_of_le_of_ne hwritten.nonpos (of_decide_eq_true hhead.symm))
    · exact herrors htail

/-- What the outputs of a batch have done: whether a failure is one of the whole batch, and which
records failed on their own. -/
def BatchRan (cfg : InstConfig) (batch : List LoggerMessage) (lines : List (List UInt8))
    (before : Sinks) (r : Bool × List Bool) (w : Sinks) : Prop :=
  ∃ x y zs, AfterSocket cfg lines (needsSync cfg batch) (batch.zip lines) before x y zs w ∧
    (r.1 = true ↔ x < 0 ∨ y < 0) ∧ r.2 = zs.map fun rc => decide (rc ≠ 0)

/-- For each failure an error has been noted. -/
def BatchNoted (r : Bool × List Bool) (s : Inst) : Prop :=
  r.1 = true ∨ true ∈ r.2 → 0 < s.firstError

theorem emitLines_accounts (hF : Framed recent cfg start t F)
    (hlines : List.Forall₂ (FormattedAs cfg false) batch lines) (hok : SinksOk before) :
    (accountLogic recent cfg start).Triple t
      (fun s => Held cfg start t E before s ∧ F s ∧ s.sinks = before) (emitLines cfg batch lines)
      fun r s => Held cfg start t E before s ∧ (F s ∧ BatchNoted r s) ∧
        BatchRan cfg batch lines before r s.sinks := by
  unfold emitLines
  -- standard error, the file and the socket are tried one after another, whatever has failed before
  refine Logic.Triple.bind (stderr_accounts hF lines) fun x => ?_
  refine Logic.Triple.bind (noteFailure_accounts (R := AfterStderr cfg lines before x) hF x)
    fun _ => ?_
  have hF₁ : Framed recent cfg start t fun s => F s ∧ (x < 0 → 0 < s.firstError) :=
    hF.and (framed_error _)
  -- the file has its result in the second place
  refine Logic.Triple.bind (Q := fun y s => Held cfg start t E before s ∧
    (F s ∧ (x < 0 → 0 < s.firstError)) ∧
      AfterFile cfg lines (needsSync cfg batch) before x y s.sinks) ?_ fun y => ?_
  · refine Logic.triple_ite (fun hout => ?_) fun hout => Logic.triple_pure fun s _ hs => ?_
    · refine file_accounts hF₁ hout ⟨?_, rfl, by rintro ⟨⟩, by rintro ⟨⟩⟩
      simp only [FileOp.bytes, List.map_map]
      exact congrArg List.flatten (List.map_id _)
    · exact ⟨hs.1, hs.2.1, hs.2.2.noFile hout⟩
  refine Logic.Triple.bind (noteFailure_accounts
    (R := AfterFile cfg lines (needsSync cfg batch) before x y) hF₁ y) fun _ => ?_
  have hF₂ : Framed recent cfg start t fun s =>
      (F s ∧ (x < 0 → 0 < s.firstError)) ∧ (y < 0 → 0 < s.firstError) := hF₁.and (framed_error _)
  -- the socket has one result for each record
  refine Logic.Triple.bind (Q := fun failed s => Held cfg start t E before s ∧
    (((F s ∧ (x < 0 → 0 < s.firstError)) ∧ (y < 0 → 0 < s.firstError)) ∧
      (true ∈ failed → 0 < s.firstError)) ∧ ∃ zs,
        AfterSocket cfg lines (needsSync cfg batch) (batch.zip lines) before x y zs s.sinks ∧
          failed = zs.map fun rc => decide (rc ≠ 0)) ?_ fun failed => ?_
  · refine Logic.triple_ite (fun hout => ?_) fun hout => Logic.triple_pure fun s _ hs => ?_
    · -- the socket is as the section has found it
      refine (triple_exists (P := fun w s => Held cfg start t E before s ∧
        ((F s ∧ (x < 0 → 0 < s.firstError)) ∧ (y < 0 → 0 < s.firstError)) ∧
          (AfterFile cfg lines (needsSync cfg batch) before x y w ∧ s.sinks = w))
        (fun w => hF₂.held fun w' => _ ∧ w' = w) fun w => ?_).pre
        fun s _ hs => ⟨s.sinks, hs.1, hs.2.1, hs.2.2, rfl⟩
      refine Logic.triple_fact (fun s _ hs => hs.2.2.1) fun hafter => ?_
      have hsane : SyslogSane w.syslog := hafter.syslog.symm ▸ hok.syslog
      refine ((emitSyslog_accounts hF₂ (batch.zip lines) hsane).pre
        fun s _ hs => ⟨hs.1, hs.2.1, hs.2.2.2⟩).post fun failed s _ hs => ?_
      obtain ⟨hheld, hFs, zs, hran, hstderr, hfile, hfailed⟩ := hs
      refine ⟨hheld, hFs, zs, ⟨hstderr.symm ▸ hafter.stderr, hfile.symm ▸ hafter.file, ?_⟩, hfailed⟩
      rw [SocketRan, if_pos hout, ← hafter.syslog]
      exact hran
    -- without the socket no record has failed there
    · refine ⟨hs.1, ⟨hs.2.1, fun hmem => ?_⟩, _, hs.2.2.noSocket hout, ?_⟩
      · obtain ⟨m, -, hm⟩ := List.mem_map.mp hmem
        exact absurd hm (by decide)
      · have hlength : (batch.zip lines).length = batch.length := by
          rw [List.length_zip, ← hlines.length_eq, min_self]
        have hnone : batch.map (fun _ => false) = List.replicate batch.length false :=
          List.map_const'
        rw [List.map_map, hnone, ← hlength]
        exact List.map_const'.symm
  refine Logic.triple_pure fun s _ hs => ?_
  obtain ⟨hheld, ⟨⟨⟨hFs, hx⟩, hy⟩, hz⟩, zs, hafter, hfailed⟩ := hs
  refine ⟨hheld, ⟨hFs, ?_⟩, x, y, zs, hafter, decide_eq_true_iff, hfailed⟩
  -- an error that fails the whole batch is of the first two outputs
  rintro (hall | hmem)
  · exact (of_decide_eq_true hall).elim hx hy
  · exact hz hmem

/-- The failures of a batch, with the one of the unlock. -/
def batchFailed (batch : List LoggerMessage) (r : Bool × List Bool) (unlockRc : ℤ) : List Bool :=
  if r.1 ∨ unlockRc < 0 then batch.map fun _ => true else r.2

theorem BatchRan.emission {r : Bool × List Bool} {w : Sinks}
    (h : BatchRan cfg batch lines before r w)
    (hlines : List.Forall₂ (FormattedAs cfg false) batch lines) (hok : SinksOk before)
    {unlockRc : ℤ} (hunlock : unlockRc ≤ 0) :
    (batchFailed batch r unlockRc).length = batch.length ∧ ∃ r', EmissionRan cfg
      { thread := .worker, records := batch, lines, forced := false, before, after := w
        failed := batchFailed batch r unlockRc } r' := by
  obtain ⟨x, y, zs, hafter, hall, hfailed⟩ := h
  have hx := hafter.stderr.left.1
  have hy := (hafter.file.left hok.file).2.1
  have hlength : zs.length = batch.length := by
    rw [(hafter.syslog.left hok.syslog).2.2.1, List.length_zip, ← hlines.length_eq, min_self]
  -- a record has failed when any of the three has failed for it, or the unlock for all
  have hfailed' : batchFailed batch r unlockRc = zs.map fun rc =>
      decide (x ≠ 0 ∨ y ≠ 0 ∨ rc ≠ 0 ∨ unlockRc ≠ 0) := by
    unfold batchFailed
    split
    -- the whole batch has failed, and so has each of its records
    · rename_i hsome
      rw [hall] at hsome
      have htrue : ∀ rc : ℤ, decide (x ≠ 0 ∨ y ≠ 0 ∨ rc ≠ 0 ∨ unlockRc ≠ 0) = true := by
        intro rc
        rw [decide_eq_true_iff]
        omega
      simp only [htrue, List.map_const', hlength]
    -- otherwise a record has failed when its datagram has
    · rename_i hnone
      rw [hall] at hnone
      rw [hfailed]
      refine List.map_congr_left fun rc _ => ?_
      rw [decide_eq_decide]
      omega
  refine ⟨by rw [hfailed', List.length_map, hlength], ⟨x, y, zs, unlockRc⟩, ?_⟩
  exact ⟨hlines, .inl rfl, hafter.stderr, hafter.file, hafter.syslog, hunlock, hfailed'⟩

/-- The counting of a batch. -/
theorem accountBatch_accounts (hF : Framed recent cfg start .worker F) {failed : List Bool}
    {o : Option Emission}
    (hgood : failed.count false = (o.toList.map fun e => e.failed.count false).sum)
    (hcounts : E.filter Emission.counts = C ++ o.toList)
    (herror : ∀ s, F s → true ∈ failed → 0 < s.firstError)
    (hclean : ∀ e ∈ o.toList, true ∈ e.failed → true ∈ failed)
    (hworker : ∀ s, F s → recent → s.firstError = 0 → recordsOf (C ++ o.toList) <+: s.ring.popped) :
    (accountLogic recent cfg start).Triple .worker (fun s => Standing .worker 0 E C s ∧ F s)
      (accountBatch failed o) fun _ s => Settled .worker failed.length E s ∧ F s := by
  have hsum := List.count_true_add_count_false failed
  refine Logic.Triple.bind ((countFailed_accounts hF (failed.count true)).pre fun s _ hs =>
    ⟨hs.1, hs.2, fun hpos => herror s hs.2 (List.count_pos_iff.mp hpos)⟩) fun _ => ?_
  refine (countEmitted_accounts hF (.inl rfl) ?_ hcounts
    (fun s _ => s.history.counted.length.zero_le)
    ?_ fun _ => hworker).post fun _ s _ hs => ?_
  · rw [← hgood]
    omega
  · intro s hFs hz e he b hb
    cases b with
    | false => rfl
    | true => exact absurd hz (herror s hFs (hclean e he hb)).ne'
  · have htotal : failed.count true + (failed.length - failed.count true) =
      failed.length := by omega
    rw [htotal] at hs
    exact hs.1

theorem mayFormat_of_mem {rs : List FormatResult}
    (h : List.Forall₂ (MayFormat cfg false) batch rs) {r : FormatResult} (hr : r ∈ rs) :
    ∃ m, MayFormat cfg false m r := by
  induction h with
  | nil => exact absurd hr List.not_mem_nil
  | cons hfirst _ ih =>
    rcases List.mem_cons.mp hr with rfl | hr
    · exact ⟨_, hfirst⟩
    · exact ih hr

/-- A batch of lines that are not empty has been formatted. -/
theorem formatted_of_lengths {rs : List FormatResult}
    (h : List.Forall₂ (MayFormat cfg false) batch rs) (hlengths : ∀ r ∈ rs, r.length ≠ 0) :
    List.Forall₂ (FormattedAs cfg false) batch (rs.map lineOf) := by
  induction h with
  | nil => exact .nil
  | cons hfirst _ ih =>
    refine .cons (hfirst.formatted (hfirst.rc_of_length (hlengths _ List.mem_cons_self))) ?_
    exact ih fun r hr => hlengths r (List.mem_cons_of_mem _ hr)

/-- A batch of which no record reaches an output. -/
theorem refuseBatch_accounts :
    (accountLogic recent cfg start).Triple .worker
      (fun s => (Settled .worker 0 E s ∧ Taken recent E batch s) ∧ 0 < s.firstError)
      (accountBatch (batch.map fun _ => true) none)
      fun _ s => ∃ E', Settled .worker batch.length E' s ∧ Taken recent E' [] s := by
  have hF : Framed recent cfg start .worker fun s =>
      Taken recent E batch s ∧ (True → 0 < s.firstError) := framed_taken.and (framed_error True)
  refine ((accountBatch_accounts (E := E) (C := E.filter Emission.counts) (o := none) hF ?_ ?_ ?_ ?_
    ?_).pre fun s _ hs => ⟨hs.1.1, hs.1.2, fun _ => hs.2⟩).post fun _ s _ hs => ?_
  · refine List.count_eq_zero.mpr fun hmem => ?_
    obtain ⟨m, -, hm⟩ := List.mem_map.mp hmem
    exact absurd hm (by decide)
  · exact (List.append_nil _).symm
  · exact fun s hs _ => hs.2 trivial
  · exact fun e he => absurd he List.not_mem_nil
  · exact fun s hs _ hz => absurd hz (hs.2 trivial).ne'
  · rw [List.length_map] at hs
    exact ⟨E, hs.1, hs.2.1.refused (hs.2.2 trivial)⟩

theorem noteUnlock_accounts (hF : Framed recent cfg start t F) {unlockRc : ℤ}
    (hunlock : unlockRc ≤ 0) :
    (accountLogic recent cfg start).Triple t (fun s => Standing t 0 E C s ∧ F s)
      (noteUnlock unlockRc)
      fun _ s => Standing t 0 E C s ∧ F s ∧ (unlockRc ≠ 0 → 0 < s.firstError) := by
  refine Logic.triple_ite (fun hne => ?_) fun hzero => Logic.triple_pure fun s _ hs => ?_
  · have hpos : 0 < -unlockRc := neg_pos.mpr (lt_of_le_of_ne hunlock hne)
    refine Logic.Triple.bind (noteIoError_accounts _ hF.standing hF.zero) fun _ => ?_
    refine (((passes_noteSynchronizationError unlockRc).standing (E := E) (C := C)
      (hF.and (framed_error True))).pre fun s _ hs => ?_).post fun _ s _ hs => ?_
    · exact ⟨hs.1.1, hs.1.2, fun _ => hs.2 hpos⟩
    · exact ⟨hs.1, hs.2.1, fun _ => hs.2.2 trivial⟩
  · exact ⟨hs.1, hs.2, fun hne => absurd hne hzero⟩

theorem emitBatch_accounts (hstart : SinksOk start) (batch : List LoggerMessage) :
    (accountLogic recent cfg start).Triple .worker
      (fun s => Settled .worker 0 E s ∧ Taken recent E batch s) (emitBatch cfg batch)
      fun _ s => ∃ E', Settled .worker batch.length E' s ∧ Taken recent E' [] s := by
  -- the records that are popped but not yet emitted are this batch
  have hF : Framed recent cfg start .worker (Taken recent E batch) := framed_taken
  -- each exit notes its error before it counts the batch as failed
  have hnoted : ∀ {error : ℤ}, 0 < error → (accountLogic recent cfg start).Triple .worker
      (fun s => Settled .worker 0 E s ∧ Taken recent E batch s) (loggerNoteIoError error)
      fun _ s => (Settled .worker 0 E s ∧ Taken recent E batch s) ∧ 0 < s.firstError :=
    fun herror => (noteIoError_accounts _ hF.standing hF.zero).post
      fun _ s _ hs => ⟨hs.1, hs.2 herror⟩
  refine Logic.Triple.bind (formatBatch_accounts hF.standing hF.zero batch) fun results => ?_
  refine Logic.triple_fact (fun s _ hs => hs.2) fun hformat => ?_
  refine Logic.Triple.pre ?_ fun s _ hs => hs.1
  split
  -- a record that could not be formatted fails the batch
  · rename_i r hfind
    obtain ⟨m, hm⟩ := mayFormat_of_mem hformat (List.mem_of_find?_eq_some hfind)
    exact Logic.Triple.bind (hnoted hm.errno_pos) fun _ => refuseBatch_accounts
  rename_i hfind
  -- every record has its line
  have hlines : List.Forall₂ (FormattedAs cfg false) batch (results.map lineOf) := by
    refine formatted_of_lengths hformat fun r hr hzero => ?_
    exact List.find?_eq_none.mp hfind r hr (decide_eq_true hzero)
  refine Logic.Triple.bind (lockEmit_accounts hF) ?_
  rintro ⟨lockRc, before⟩
  refine Logic.triple_fact (fun s _ hs => hs.2.1) fun hlockRc => ?_
  refine Logic.triple_ite (fun hne => ?_) fun hlocked => ?_
  -- without the lock the batch is refused, with two errors noted
  · have herror : 0 < -lockRc := neg_pos.mpr (lt_of_le_of_ne hlockRc hne)
    refine Logic.Triple.bind ((hnoted herror).pre fun s _ hs => hs.1) fun _ => ?_
    refine Logic.Triple.bind (passes_noteLifecycleError _ _ (fun s s' hsees hs => ?_)
      fun s hs => hs.1.1.accounted) fun _ => refuseBatch_accounts
    exact ⟨hF.standing s s' hsees hs.1, hsees.1.error hs.2⟩
  rw [not_not] at hlocked
  refine Logic.Triple.pre ?_ fun s _ hs => hs.2.2 hlocked
  refine Logic.triple_fact (fun s _ hs => hs.1.reached.ok hstart) fun hok => ?_
  refine Logic.Triple.bind (emitLines_accounts hF hlines hok) ?_
  rintro ⟨all, failed⟩
  have hF₁ : Framed recent cfg start .worker fun s =>
      Taken recent E batch s ∧ BatchNoted (all, failed) s := hF.and (framed_error _)
  refine Logic.Triple.bind (unlockEmit_accounts
    (R := BatchRan cfg batch (results.map lineOf) before (all, failed)) hF₁
    (fun unlockRc w hunlock hw => ⟨rfl, rfl, rfl, (hw.emission hlines hok hunlock).2⟩)
    fun _ s hs _ _ => hs.1.order) ?_
  rintro ⟨unlockRc, e⟩
  refine Logic.triple_fact (fun s _ hs => hs.2) fun hemission => ?_
  obtain ⟨hunlock, w, hw, he⟩ := hemission
  have hrecords : e.records = batch := congrArg Emission.records he
  have hthread : e.thread = .worker := congrArg Emission.thread he
  have hfailed : e.failed = batchFailed batch (all, failed) unlockRc := congrArg Emission.failed he
  have hlength : e.failed.length = batch.length := by
    rw [hfailed]
    exact (hw.emission hlines hok hunlock).1
  refine Logic.Triple.pre ?_ fun s _ hs => hs.1
  have hF₂ : Framed recent cfg start .worker fun s => (Taken recent E batch s ∧
      BatchNoted (all, failed) s) ∧ (unlockRc ≠ 0 → 0 < s.firstError) := hF₁.and (framed_error _)
  -- the lock is given back before anything is counted
  refine Logic.Triple.bind (noteUnlock_accounts hF₁ hunlock) fun _ => ?_
  -- the worker's sections all count
  refine Logic.triple_fact (p := ∀ e' ∈ E, e'.thread = .worker) (fun s _ hs e' he' => ?_)
    fun hworker => ?_
  · have hmem : e' ∈ s.emittedBy .worker := hs.1.emitted.symm ▸ List.mem_append_left _ he'
    exact (mem_ofThread.mp hmem).2
  have hall := filter_counts_worker hworker
  -- the failed and the emitted records are counted together
  refine (accountBatch_accounts hF₂ (o := some e) ?_ ?_ ?_ (fun e' he' hbad => ?_) ?_).post
    fun _ s _ hs => ?_
  · simp
  · rw [List.filter_append, filter_counts_worker (List.forall_mem_singleton.mpr hthread)]
    rfl
  · -- the failures are those of the outputs, or all of them after a failed unlock
    rintro s ⟨⟨-, hnotes⟩, hunlockNote⟩ hmem
    rw [hfailed, batchFailed] at hmem
    split at hmem
    · rename_i hsome
      rcases hsome with hsome | hneg
      · exact hnotes (.inl hsome)
      · exact hunlockNote hneg.ne
    · exact hnotes (.inr hmem)
  · obtain rfl := List.mem_singleton.mp he'
    exact hbad
  -- without an error the records counted are the first ones that were popped
  · rintro s ⟨⟨htaken, -⟩, -⟩ hr hz
    rw [hall, recordsOf_append]
    show recordsOf E ++ recordsOf [e] <+: _
    rw [recordsOf_singleton, hrecords, htaken.all hr hz]
  · rw [hlength] at hs
    refine ⟨E ++ [e], hs.1, ?_⟩
    have htaken := hs.2.1.1
    rw [← hrecords] at htaken
    exact htaken.emitted

end Batch

end CLogger.Instance
