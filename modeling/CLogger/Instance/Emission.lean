import CLogger.File.Results
import CLogger.Format.Results
import CLogger.Instance.Model
import CLogger.Syslog.Results

/-!
# What an emission does

A section under `emit_mu` hands formatted lines to the outputs that are selected. `EmissionRan` says
what it has done to each of them, by what the programs of the outputs may return; `SinksReached` are
the states of the outputs after sections that were run one after another.

* `FormattedAs`: the line of a record.
* `StderrRan`, `FileRan`, `SocketRan`: what each output has done.
* `EmissionRan`, and `EmissionRan.accepted`: a record that is not counted as failed has reached
  every selected output with its whole line.
* `SinksReached`.
-/

namespace CLogger.Instance

open Concurrent TapeProgram

variable {cfg : InstConfig}

section Line

/-- The formatting of `formatRecord`. -/
def formatOnce (cfg : InstConfig) (strict : Bool) (m : LoggerMessage) (out : Buf)
    (answers : VsnprintfAnswers) (cache : TimestampCache) : FormatResult :=
  (if strict then loggerFormatLineChecked cfg.time else loggerFormatLine cfg.time)
    (some cfg.line) (some m) (some out) loggerLineMax answers cache

/-- `line` is what a formatting of the record that succeeded has left. -/
def FormattedAs (cfg : InstConfig) (strict : Bool) (m : LoggerMessage) (line : List UInt8) : Prop :=
  ∃ out answers cache, ErrnoNonneg answers ∧ (formatOnce cfg strict m out answers cache).rc = 0 ∧
    lineOf (formatOnce cfg strict m out answers cache) = line

theorem formatOnce_ok (strict : Bool) (m : LoggerMessage) (out : Buf) {answers : VsnprintfAnswers}
    (cache : TimestampCache) (herrno : ErrnoNonneg answers) :
    FormatOk (formatOnce cfg strict m out answers cache) := by
  cases strict with
  | false => exact loggerFormatLine_ok _ _ _ _ _ (by decide) herrno
  | true => exact loggerFormatLineChecked_ok _ _ _ _ _ (by decide) herrno

/-- A formatted line is not empty, and ends with its line feed. -/
theorem FormattedAs.ended {strict : Bool} {m : LoggerMessage} {line : List UInt8}
    (h : FormattedAs cfg strict m line) : ∃ text, line = text ++ [10] := by
  obtain ⟨out, answers, cache, herrno, hrc, rfl⟩ := h
  obtain ⟨buf, text, hout, hbytes⟩ := (formatOnce_ok strict m out cache herrno).ended hrc
  refine ⟨text, ?_⟩
  rw [lineOf, hout, Option.getD_some]
  exact hbytes

/-- The line of a strict caller is the whole line of the record, with a time in the canonical
form. -/
theorem FormattedAs.whole {m : LoggerMessage} {line : List UInt8}
    (h : FormattedAs cfg true m line) :
    ∃ time, canonicalTime time = true ∧
      line = fullLine cfg.line (time.date, time.zone) m ++ [10] := by
  obtain ⟨out, answers, cache, herrno, hrc, rfl⟩ := h
  obtain ⟨htime, buf, hout, hbytes⟩ := loggerFormatLineChecked_whole cfg.time cfg.line m out cache
    (by decide) herrno hrc
  refine ⟨_, htime, ?_⟩
  rw [lineOf, formatOnce, if_pos rfl, hout, Option.getD_some]
  exact hbytes

end Line

section Run

/-- Records at a level that has to be synchronised. -/
def needsSync (cfg : InstConfig) (records : List LoggerMessage) : Bool :=
  records.any fun m => cfg.flushLevel.toNat ≤ m.level.toNat

/-- The emission has to synchronise the file. -/
def Emission.synchronised (cfg : InstConfig) (e : Emission) : Bool :=
  e.forced || needsSync cfg e.records

/-- The call writes these bytes. -/
structure WritesBytes (bytes : List UInt8) (synchronised : Bool) (op : FileOp) : Prop where
  bytes : op.bytes = bytes
  synchronises : op.synchronises = synchronised
  sync : op ≠ .sync
  reopen : op ≠ .reopen

/-- The datagrams of records, one after another, with their results. -/
inductive SyslogRan : List (LoggerMessage × List UInt8) → SyslogWorld → List ℤ → SyslogWorld → Prop
  | nil {w : SyslogWorld} : SyslogRan [] w [] w
  | cons {m : LoggerMessage} {line : List UInt8} {rest : List (LoggerMessage × List UInt8)}
      {w w' w'' : SyslogWorld} {rc : ℤ} {rcs : List ℤ} :
      Returns (loggerSyslogWrite m.level (some line)) w rc w' → SyslogRan rest w' rcs w'' →
      SyslogRan ((m, line) :: rest) w (rc :: rcs) w''

/-- Standard error is offered lines, if it is selected. -/
def StderrRan (cfg : InstConfig) (lines : List (List UInt8)) (w : StderrWorld) (rc : ℤ)
    (w' : StderrWorld) : Prop :=
  if cfg.outStderr then Returns (loggerStderrWritevAll lines) w rc w' else rc = 0 ∧ w' = w

/-- The file is offered bytes. -/
def FileRan (cfg : InstConfig) (bytes : List UInt8) (synchronised : Bool) (w : FileWorld) (rc : ℤ)
    (w' : FileWorld) : Prop :=
  if cfg.outFile then
    ∃ op, WritesBytes bytes synchronised op ∧ Returns (op.exec cfg.libc) w rc w'
  else rc = 0 ∧ w' = w

/-- The socket is offered records. -/
def SocketRan (cfg : InstConfig) (items : List (LoggerMessage × List UInt8)) (w : SyslogWorld)
    (rcs : List ℤ) (w' : SyslogWorld) : Prop :=
  if cfg.outSyslog then SyslogRan items w rcs w' else rcs = items.map (fun _ => 0) ∧ w' = w

/-- The results of the calls of a section. -/
structure SectionResults where
  stderr : ℤ
  file : ℤ
  /-- One for each record. -/
  syslog : List ℤ
  unlock : ℤ

/-- What a section has done. -/
structure EmissionRan (cfg : InstConfig) (e : Emission) (r : SectionResults) : Prop where
  formatted : List.Forall₂ (FormattedAs cfg e.forced) e.records e.lines
  /-- Only the worker emits batches. -/
  single : e.thread = .worker ∨ e.records.length = 1
  stderr : StderrRan cfg e.lines e.before.stderr r.stderr e.after.stderr
  file : FileRan cfg e.lines.flatten (e.synchronised cfg) e.before.file r.file e.after.file
  syslog : SocketRan cfg (e.records.zip e.lines) e.before.syslog r.syslog e.after.syslog
  unlock : r.unlock ≤ 0
  /-- Which records are counted as failed. -/
  failed : e.failed = r.syslog.map fun rc =>
    decide (r.stderr ≠ 0 ∨ r.file ≠ 0 ∨ rc ≠ 0 ∨ r.unlock ≠ 0)

/-- The states of the outputs that sections with these emissions lead to. -/
inductive SinksReached (cfg : InstConfig) (start : Sinks) : List Emission → Sinks → Prop
  | start : SinksReached cfg start [] start
  | emit {es : List Emission} {e : Emission} {r : SectionResults} :
      SinksReached cfg start es e.before → EmissionRan cfg e r →
      SinksReached cfg start (es ++ [e]) e.after
  /-- `logger_reopen`, or the synchronisation of `logger_flush` and `dispose_body`. -/
  | file {es : List Emission} {w : Sinks} {op : FileOp} {rc : ℤ} {f : FileWorld} :
      SinksReached cfg start es w → op = .sync ∨ op = .reopen →
      Returns (op.exec cfg.libc) w.file rc f → SinksReached cfg start es { w with file := f }

/-- No error number that the outputs hold is negative, and the inodes in use are below `nextIno`. -/
structure SinksOk (w : Sinks) : Prop where
  file : FileOk w.file
  syslog : SyslogSane w.syslog

end Run

section Results

variable {start w : Sinks} {e : Emission} {es : List Emission} {r : SectionResults}

/-- What datagrams that were written one after another have left. -/
structure SyslogLeft (items : List (LoggerMessage × List UInt8)) (w : SyslogWorld) (rcs : List ℤ)
    (w' : SyslogWorld) : Prop where
  sane : SyslogSane w'
  identity : w'.syslog.identity = w.syslog.identity
  grown : w.trace <+: w'.trace
  results : rcs.length = items.length
  nonpos : ∀ rc ∈ rcs, rc ≤ 0
  /-- A record with result 0 has been taken in full. -/
  complete : ∀ (i : ℕ) (m : LoggerMessage) line, items[i]? = some (m, line) →
  rcs[i]? = some (0 : ℤ) → .send (w.syslog.packet m.level line) .full ∈ w'.trace.drop w.trace.length

theorem SyslogRan.left {items : List (LoggerMessage × List UInt8)} {w w' : SyslogWorld}
    {rcs : List ℤ} (h : SyslogRan items w rcs w') (hw : SyslogSane w) :
    SyslogLeft items w rcs w' := by
  induction h with
  | nil =>
    exact ⟨hw, rfl, List.prefix_rfl, rfl, fun _ hrc => absurd hrc List.not_mem_nil,
      fun _ _ _ hi => absurd hi (by rintro ⟨⟩)⟩
  | @cons m line rest w w₁ w₂ rc rcs hwrite _ ih =>
    have hfirst := syslogWritten_of_returns hwrite hw
    have hrest := ih hfirst.sane
    obtain ⟨es, htrace⟩ := hfirst.grown
    obtain ⟨es', htrace'⟩ := hrest.grown
    -- the events of the rest come after those of the first
    have hdrop : w₂.trace.drop w.trace.length = es ++ es' := by
      rw [← htrace', ← htrace, List.append_assoc, List.drop_left]
    refine ⟨hrest.sane, hrest.identity.trans hfirst.identity, hfirst.grown.trans hrest.grown,
      congrArg Nat.succ hrest.results, fun x hx => ?_, fun i m' line' hi hrc => ?_⟩
    · rcases List.mem_cons.mp hx with rfl | hx
      · exact hfirst.nonpos
      · exact hrest.nonpos x hx
    rw [hdrop]
    -- the first record is sent by the first call, and each other one by the rest
    cases i with
    | zero =>
      obtain ⟨rfl, rfl⟩ := Prod.mk.inj (Option.some.inj hi)
      have hsent := hfirst.complete (Option.some.inj hrc)
      rw [← htrace, List.drop_left] at hsent
      exact List.mem_append_left _ hsent
    | succ i =>
      have hsent := hrest.complete i m' line' hi hrc
      rw [← htrace', List.drop_left, packet_of_identity hfirst.identity] at hsent
      exact List.mem_append_right _ hsent

/-- An output that returned `rc` has taken `part`: a first part of the bytes, and all of them if it
returned 0. -/
def PartTaken (bytes : List UInt8) (rc : ℤ) (part : List UInt8) : Prop :=
  part <+: bytes ∧ (rc = 0 → part = bytes)

theorem StderrRan.left {lines : List (List UInt8)} {w w' : StderrWorld} {rc : ℤ}
    (h : StderrRan cfg lines w rc w') : rc ≤ 0 ∧ (cfg.outStderr →
      ∃ part, PartTaken lines.flatten rc part ∧ w'.stream = w.stream ++ part) := by
  unfold StderrRan at h
  split at h
  · have hwritten := h.spec (stderrWritevAll_spec lines w)
    refine ⟨hwritten.nonpos, fun _ => ?_⟩
    by_cases hzero : rc = 0
    · exact ⟨lines.flatten, ⟨List.prefix_rfl, fun _ => rfl⟩, hwritten.complete hzero⟩
    · obtain ⟨part, hpart, hstream⟩ := hwritten.writing
      exact ⟨part, ⟨hpart, fun h => absurd h hzero⟩, hstream⟩
  · rename_i hout
    exact ⟨h.1.le, fun hout' => absurd hout' hout⟩

theorem FileRan.left {bytes : List UInt8} {synchronised : Bool} {w w' : FileWorld} {rc : ℤ}
    (h : FileRan cfg bytes synchronised w rc w') (hw : FileOk w) : FileOk w' ∧ rc ≤ 0 ∧
      (cfg.outFile → ∃ part, PartTaken bytes rc part ∧ FileTaken w w' part) := by
  unfold FileRan at h
  split at h
  · obtain ⟨op, hop, hreturns⟩ := h
    have hresult := fileOp_exec_wrote hop.reopen hw hreturns
    obtain ⟨part, hpart, hall, htaken⟩ := hresult.taken
    rw [hop.bytes] at hpart hall
    exact ⟨htaken.ok, hresult.nonpos, fun _ => ⟨part, ⟨hpart, hall⟩, htaken⟩⟩
  · rename_i hout
    exact ⟨h.2 ▸ hw, h.1.le, fun hout' => absurd hout' hout⟩

theorem SocketRan.left {items : List (LoggerMessage × List UInt8)} {w w' : SyslogWorld}
    {rcs : List ℤ} (h : SocketRan cfg items w rcs w') (hw : SyslogSane w) :
    SyslogSane w' ∧ (∀ rc ∈ rcs, rc ≤ 0) ∧ rcs.length = items.length ∧
      (cfg.outSyslog → SyslogLeft items w rcs w') := by
  unfold SocketRan at h
  split at h
  · have hleft := h.left hw
    exact ⟨hleft.sane, hleft.nonpos, hleft.results, fun _ => hleft⟩
  · rename_i hout
    refine ⟨h.2 ▸ hw, fun rc hrc => ?_, ?_, fun hout' => absurd hout' hout⟩
    · rw [h.1] at hrc
      obtain ⟨m, -, rfl⟩ := List.mem_map.mp hrc
      exact le_rfl
    · rw [h.1, List.length_map]

/-- The results of a section: what has been done where they are 0. -/
structure EmissionLeft (cfg : InstConfig) (e : Emission) (r : SectionResults) : Prop where
  ok : SinksOk e.after
  length : r.syslog.length = e.records.length
  streamed : cfg.outStderr → ∃ part, PartTaken e.lines.flatten r.stderr part ∧
    e.after.stderr.stream = e.before.stderr.stream ++ part
  written : cfg.outFile → ∃ part, PartTaken e.lines.flatten r.file part ∧
    FileTaken e.before.file e.after.file part
  sent : cfg.outSyslog →
    SyslogLeft (e.records.zip e.lines) e.before.syslog r.syslog e.after.syslog

theorem EmissionRan.left (h : EmissionRan cfg e r) (hok : SinksOk e.before) :
    EmissionLeft cfg e r := by
  obtain ⟨hfileOk, -, hwritten⟩ := h.file.left hok.file
  obtain ⟨hsane, -, hlength, hsent⟩ := h.syslog.left hok.syslog
  refine ⟨⟨hfileOk, hsane⟩, ?_, h.stderr.left.2, hwritten, hsent⟩
  rw [hlength, List.length_zip, ← h.formatted.length_eq, min_self]

theorem SinksReached.ok (h : SinksReached cfg start es w) (hstart : SinksOk start) : SinksOk w := by
  induction h with
  | start => exact hstart
  | emit _ hran ih => exact (hran.left ih).ok
  | file _ hop hreturns ih =>
    refine ⟨?_, ih.syslog⟩
    rcases hop with rfl | rfl
    · obtain ⟨part, -, -, htaken⟩ := (fileOp_exec_wrote (by rintro ⟨⟩) ih.file hreturns).taken
      exact htaken.ok
    · exact (fileOp_exec_reopened ih.file hreturns).1

/-- Every emission has been run from outputs that earlier sections have led to. -/
theorem SinksReached.ran (h : SinksReached cfg start es w) (he : e ∈ es) :
    ∃ es' r, es' ++ [e] <+: es ∧ SinksReached cfg start es' e.before ∧ EmissionRan cfg e r := by
  induction h with
  | start => exact absurd he List.not_mem_nil
  | @emit es e' r hreached hran ih =>
    rcases List.mem_append.mp he with he | he
    · obtain ⟨es', r', hprefix, hbefore⟩ := ih he
      exact ⟨es', r', hprefix.trans (List.prefix_append _ _), hbefore⟩
    · obtain rfl := List.mem_singleton.mp he
      exact ⟨es, r, List.prefix_rfl, hreached, hran⟩
  | file _ _ _ ih => exact ih he

/-- What has come before an emission, and after it. -/
theorem SinksReached.split (h : SinksReached cfg start es w) (he : e ∈ es) :
    ∃ es' r rest, SinksReached cfg start es' e.before ∧ EmissionRan cfg e r ∧
      SinksReached cfg e.after rest w := by
  induction h with
  | start => exact absurd he List.not_mem_nil
  | @emit es e' r hreached hran ih =>
    rcases List.mem_append.mp he with he | he
    · obtain ⟨es', r', rest, hbefore, hran', hafter⟩ := ih he
      exact ⟨es', r', rest ++ [e'], hbefore, hran', .emit hafter hran⟩
    · obtain rfl := List.mem_singleton.mp he
      exact ⟨es, r, [], hreached, hran, .start⟩
  | file _ hop hreturns ih =>
    obtain ⟨es', r', rest, hbefore, hran, hafter⟩ := ih he
    exact ⟨es', r', rest, hbefore, hran, .file hafter hop hreturns⟩

/-- The record at place `i` of the emission has reached every selected output with its whole
line. -/
structure Accepted (cfg : InstConfig) (e : Emission) (i : ℕ) (m : LoggerMessage)
    (line : List UInt8) : Prop where
  atRecord : e.records[i]? = some m
  atLine : e.lines[i]? = some line
  formatted : FormattedAs cfg e.forced m line
  /-- Standard error has taken the lines of the emission, and so has one file. -/
  stderr : cfg.outStderr → e.after.stderr.stream = e.before.stderr.stream ++ e.lines.flatten
  file : cfg.outFile → FileWrote e.before.file e.after.file e.lines.flatten
  /-- The socket has taken the datagram of the record. -/
  syslog : cfg.outSyslog → .send (e.before.syslog.syslog.packet m.level line) .full ∈
    e.after.syslog.trace.drop e.before.syslog.trace.length

theorem EmissionRan.accepted (h : EmissionRan cfg e r) (hok : SinksOk e.before) {i : ℕ}
    (hi : e.failed[i]? = some false) : ∃ m line, Accepted cfg e i m line := by
  have hleft := h.left hok
  rw [h.failed, List.getElem?_map] at hi
  obtain ⟨rc, hrc, hgood⟩ := Option.map_eq_some_iff.mp hi
  rw [decide_eq_false_iff_not, not_or, not_or, not_or, not_not, not_not, not_not] at hgood
  obtain ⟨hstderr, hfile, rfl, -⟩ := hgood
  obtain ⟨hlt, -⟩ := List.getElem?_eq_some_iff.mp hrc
  rw [hleft.length] at hlt
  have hlt' : i < e.lines.length := h.formatted.length_eq ▸ hlt
  have hzip : (e.records.zip e.lines)[i]? = some (e.records[i], e.lines[i]) := by
    rw [List.getElem?_zip_eq_some]
    exact ⟨List.getElem?_eq_getElem hlt, List.getElem?_eq_getElem hlt'⟩
  refine ⟨e.records[i], e.lines[i], List.getElem?_eq_getElem hlt, List.getElem?_eq_getElem hlt',
    h.formatted.get hlt hlt', fun hout => ?_, fun hout => ?_,
    fun hout => (hleft.sent hout).complete i _ _ hzip hrc⟩
  · obtain ⟨part, hpart, hstream⟩ := hleft.streamed hout
    exact hpart.2 hstderr ▸ hstream
  · obtain ⟨part, hpart, htaken⟩ := hleft.written hout
    exact hpart.2 hfile ▸ htaken.toFileWrote

end Results

end CLogger.Instance
