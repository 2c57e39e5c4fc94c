import CLogger.Format.Model

/-!
# The queue does not change a line

A record that is formatted by its caller and a record that has gone through a queue slot and a batch
entry give the same line, except that the queue cuts labels that do not fit its arrays.

The line depends on the record through the expansions in `lineFields`, and on the timestamp cache
only through what the conversion of the second gives: a valid cache always holds the conversion of
its second (`TimestampCache.Agrees`). So the comparison of two lines is a comparison of
`lineFields`.

## Main results

* `formatLine_congr`: records with equal fields give equal lines, whatever the two threads have
  formatted before;
* `lineFields_unpack_pack`: the fields of a record taken from the queue;
* `queued_line_eq_direct_line`: the lines of the two paths.
-/

namespace CLogger

section Cache

variable {τ : Type} {lib : TimeLib τ}

/-- A valid cache holds the conversion of its second. -/
def TimestampCache.Agrees (lib : TimeLib τ) (cache : TimestampCache) : Prop :=
  cache.valid = true → lib.convert cache.sec = some (cache.date, cache.zone)

theorem TimestampCache.zero_agrees : TimestampCache.zero.Agrees lib := by
  intro hvalid
  cases hvalid

theorem TimestampCache.Agrees.refresh {cache : TimestampCache} (h : cache.Agrees lib) (sec : ℤ) :
    (cache.refresh lib sec).Agrees lib := by
  unfold TimestampCache.refresh
  split
  · split
    · intro hvalid
      cases hvalid
    · rename_i hconv
      exact fun _ => hconv
  · exact h

/-- After the refresh the cache shows the conversion of the second, whatever it held before. -/
theorem TimestampCache.Agrees.refresh_eq {cache : TimestampCache} (h : cache.Agrees lib)
    (sec : ℤ) : ∃ s, cache.refresh lib sec = ⟨s, (zero.refresh lib sec).valid,
      (zero.refresh lib sec).date, (zero.refresh lib sec).zone⟩ := by
  have hempty : (!zero.valid || zero.sec != sec) = true := rfl
  by_cases hhit : cache.valid = true ∧ cache.sec = sec
  · obtain ⟨hvalid, rfl⟩ := hhit
    have hzero : zero.refresh lib cache.sec = ⟨cache.sec, true, cache.date, cache.zone⟩ := by
      rw [TimestampCache.refresh, if_pos hempty, h hvalid]
    refine ⟨cache.sec, ?_⟩
    rw [hzero, TimestampCache.refresh, if_neg (by simp [hvalid]), ← hvalid]
  · have hmiss : (!cache.valid || cache.sec != sec) = true := by
      rw [Bool.or_eq_true, Bool.not_eq_true', bne_iff_ne, ← Bool.not_eq_true]
      exact not_and_or.mp hhit
    rw [TimestampCache.refresh, TimestampCache.refresh, if_pos hmiss, if_pos hempty]
    cases lib.convert sec with
    | none => exact ⟨cache.sec, rfl⟩
    | some time => exact ⟨sec, rfl⟩

/-- A formatting leaves the cache as it was or refreshes it. -/
theorem formatLine_cache (l : Option LineConfig) (m : Option LoggerMessage) (out : Option Buf)
    (cap : ℕ) (strict : Bool) (answers : VsnprintfAnswers) (cache : TimestampCache) :
    (formatLine lib l m out cap strict answers cache).cache = cache ∨
      ∃ sec, (formatLine lib l m out cap strict answers cache).cache = cache.refresh lib sec := by
  unfold formatLine
  split
  · exact .inl rfl
  · split
    · rename_i m
      dsimp only
      split
      · exact .inl rfl
      · split
        · exact .inl rfl
        · refine .inr ⟨m.ts.sec, ?_⟩
          split
          · rfl
          · split <;> rfl
    · exact .inl rfl

/-- One formatting operation keeps the agreement. -/
theorem FormatOp.run_agrees {cache : TimestampCache} (h : cache.Agrees lib) (op : FormatOp) :
    (op.run lib cache).Agrees lib := by
  cases op with
  | line l m out cap strict answers =>
    rcases formatLine_cache l m out cap strict answers cache with heq | ⟨sec, heq⟩
    · rw [FormatOp.run, heq]
      exact h
    · rw [FormatOp.run, heq]
      exact h.refresh sec
  | resetChild =>
    intro hvalid
    cases hvalid

/-- The cache of a thread agrees with the conversion at every moment. -/
theorem cacheAfter_agrees (ops : List FormatOp) : (cacheAfter lib ops).Agrees lib := by
  induction ops using List.reverseRecOn with
  | nil => exact TimestampCache.zero_agrees
  | append_singleton ops op ih =>
    rw [cacheAfter, List.foldl_append]
    exact FormatOp.run_agrees ih op

/-- What a caller of a formatting sees: the code, the array and the length. -/
def FormatResult.line (r : FormatResult) : ℤ × Option Buf × ℕ := (r.rc, r.out, r.length)

theorem FormatResult.line_emptied {r r' : FormatResult} (h : r.line = r'.line) (cap : ℕ) :
    (r.emptied cap).line = (r'.emptied cap).line := by
  obtain ⟨hrc, hout, hlength⟩ : r.rc = r'.rc ∧ r.out = r'.out ∧ r.length = r'.length := by
    simpa [FormatResult.line] using h
  unfold FormatResult.emptied
  rw [hrc]
  split
  · simp [FormatResult.line, hout, hlength]
  · exact h

/-- What a line can show of a cache. -/
def TimestampCache.shown (cache : TimestampCache) : Bool × CString × CString :=
  (cache.valid, cache.date, cache.zone)

/-- A line shows the refreshed cache and the fields of the record, and nothing else of the thread.
The caches are compared for the calls that get as far as the refresh. -/
theorem formatLine_line_congr {τ' : Type} {lib' : TimeLib τ'} {l : LineConfig}
    {m m' : LoggerMessage} (hts : m.ts = m'.ts)
    (hfields : ∀ time, lineFields l time m = lineFields l time m') (out : Option Buf) (cap : ℕ)
    (strict : Bool) (answers : VsnprintfAnswers) {cache cache' : TimestampCache}
    (h : 2 ≤ cap → out.isSome = true → (strict = true → 0 ≤ m.ts.nsec ∧ m.ts.nsec < 1000000000) →
      (cache.refresh lib m.ts.sec).shown = (cache'.refresh lib' m.ts.sec).shown) :
    (formatLine lib (some l) (some m) out cap strict answers cache).line =
      (formatLine lib' (some l) (some m') out cap strict answers cache').line := by
  unfold formatLine
  split
  · rfl
  -- without an array nothing is formatted
  · cases out with
    | none => rfl
    | some out =>
      dsimp only
      rw [← hts]
      split
      · rfl
      · split
        · rfl
        · rename_i hcap hone hnsec
          have hshown := h (by omega) rfl fun hstrict => by
            rw [hstrict] at hnsec
            simpa using hnsec
          -- The second the cache records is read by no field and by no check.
          generalize cache.refresh lib m.ts.sec = time at hshown
          generalize cache'.refresh lib' m.ts.sec = time' at hshown
          obtain ⟨sec, valid, date, zone⟩ := time
          obtain ⟨sec', valid', date', zone'⟩ := time'
          obtain ⟨rfl, rfl, rfl⟩ : valid = valid' ∧ date = date' ∧ zone = zone' := by
            simpa [TimestampCache.shown] using hshown
          have hcanonical : canonicalTime ⟨sec, valid, date, zone⟩ =
              canonicalTime ⟨sec', valid, date, zone⟩ := rfl
          have hline : lineFields l ⟨sec, valid, date, zone⟩ m =
              lineFields l ⟨sec', valid, date, zone⟩ m' := hfields _
          rw [hcanonical, hline]
          split
          · rfl
          · split <;> rfl

/-- Records of one time with the same fields give the same line, in any two threads. -/
theorem formatLine_congr {l : LineConfig} {m m' : LoggerMessage} (hts : m.ts = m'.ts)
    (hfields : ∀ time, lineFields l time m = lineFields l time m') (out : Option Buf) (cap : ℕ)
    (strict : Bool) (answers : VsnprintfAnswers) {cache cache' : TimestampCache}
    (h : cache.Agrees lib) (h' : cache'.Agrees lib) :
    (formatLine lib (some l) (some m) out cap strict answers cache).line =
      (formatLine lib (some l) (some m') out cap strict answers cache').line := by
  obtain ⟨s, hs⟩ := h.refresh_eq m.ts.sec
  obtain ⟨s', hs'⟩ := h'.refresh_eq m.ts.sec
  refine formatLine_line_congr hts hfields out cap strict answers fun _ _ _ => ?_
  rw [hs, hs']
  rfl

end Cache

section Strings

/-- The string in an array ends at a NUL, so the bytes behind it do not matter. -/
theorem cstr_congr_of_zero {b b' : Buf} {cap k : ℕ} (hk : k < cap) (h : ∀ i ≤ k, b i = b' i)
    (hend : b k = 0) : cstr b cap = cstr b' cap := by
  induction cap generalizing b b' k with
  | zero => omega
  | succ cap ih =>
    by_cases h0 : b 0 = 0
    · rw [cstr_of_zero h0, cstr_of_zero ((h 0 (by omega)).symm.trans h0)]
    · cases k with
      | zero => exact absurd hend h0
      | succ k =>
        have htail : cstr (fun i => b (i + 1)) cap = cstr (fun i => b' (i + 1)) cap :=
          ih (by omega) (fun i hi => h (i + 1) (by omega)) hend
        have hcons : ∀ b : Buf, b 0 ≠ 0 →
            cstr b (cap + 1) = b 0 :: cstr (fun i => b (i + 1)) cap := by
          intro b hb
          rw [cstr, cstr, strnlen, if_neg hb, List.range_succ_eq_map, List.map_cons, List.map_map]
          rfl
        have h0' : b' 0 ≠ 0 := by
          rw [← h 0 (by omega)]
          exact h0
        rw [hcons b h0, hcons b' h0', htail, h 0 (by omega)]

/-- An array holds the empty string when it starts with NUL. -/
theorem cstr_eq_nil_iff {b : Buf} {cap : ℕ} (hcap : 0 < cap) : cstr b cap = [] ↔ b 0 = 0 := by
  refine ⟨fun h => ?_, cstr_of_zero⟩
  obtain ⟨n, rfl⟩ : ∃ n, cap = n + 1 := ⟨cap - 1, by omega⟩
  by_contra h0
  have hlen := congrArg List.length h
  simp [cstr, strnlen, h0] at hlen

/-- The part after the last slash has none. -/
theorem slash_not_mem_afterLastSlash (s : CString) : 47 ∉ afterLastSlash s := by
  intro hmem
  have := List.mem_takeWhile_imp (List.mem_reverse.mp hmem)
  simp at this

theorem afterLastSlash_eq_self {s : CString} (h : 47 ∉ s) : afterLastSlash s = s := by
  have hall : s.reverse.takeWhile (· != 47) = s.reverse := by
    rw [List.takeWhile_eq_self_iff]
    intro c hc
    rw [bne_iff_ne]
    rintro rfl
    exact h (List.mem_reverse.mp hc)
  rw [afterLastSlash, hall, List.reverse_reverse]

/-- The label the queue keeps of a terminated string. -/
theorem sourceLabel_of_no_nul {s : CString} (h : 0 ∉ s) (cap : ℕ) :
    sourceLabel cap s = if s.length < cap then s else s.take (cap - 2) ++ [126] := by
  have hall : s.takeWhile (· != 0) = s := by
    rw [List.takeWhile_eq_self_iff]
    intro c hc
    rw [bne_iff_ne]
    rintro rfl
    exact h hc
  rw [sourceLabel, hall]

theorem no_nul_afterLastSlash {s : CString} (h : 0 ∉ s) : 0 ∉ afterLastSlash s := by
  intro hmem
  exact h (List.mem_reverse.mp (List.takeWhile_subset _ (List.mem_reverse.mp hmem)))

/-- Cutting a base name leaves a base name. -/
theorem slash_not_mem_sourceLabel {s : CString} (h : 47 ∉ s) (cap : ℕ) :
    47 ∉ sourceLabel cap s := by
  have hshown : 47 ∉ s.takeWhile (· != 0) := fun hmem => h (List.takeWhile_subset _ hmem)
  rw [sourceLabel]
  split
  · exact hshown
  · rw [List.mem_append, not_or]
    exact ⟨fun hmem => hshown (List.mem_of_mem_take hmem), by decide⟩

end Strings

section Transfer

/-- A message taken from the queue: `logger_queue_push` packs it, with its text in the slot or in
the spill block it has taken, and the consumer unpacks it. The slot held `old` before, the batch
entry `dst`. -/
def queueTransfer (spills : ℕ → Buf) (block : ℕ) (old : QueueRecord) (dst m : LoggerMessage) :
    LoggerMessage :=
  let len := loggerRecordTextLength m
  if loggerQueueInlineText < len then
    queueRecordUnpack (Function.update spills block (memcpy (spills block) m.text (len + 1)))
      (queueRecordPack old m len (some block)) dst
  else queueRecordUnpack spills (queueRecordPack old m len none) dst

variable (spills : ℕ → Buf) (block : ℕ) (old : QueueRecord) (dst : LoggerMessage)

/-- Both ways of storing the text are packings whose block, if any, holds the text. -/
theorem queueTransfer_eq (m : LoggerMessage) :
    ∃ (blocks : ℕ → Buf) (spill : Option ℕ),
      (∀ i, spill = some i → ∀ k ≤ loggerRecordTextLength m, blocks i k = m.text k) ∧
      queueTransfer spills block old dst m =
        queueRecordUnpack blocks (queueRecordPack old m (loggerRecordTextLength m) spill) dst := by
  unfold queueTransfer
  dsimp only
  split
  · refine ⟨_, _, ?_, rfl⟩
    rintro i hi k hk
    cases hi
    simp [memcpy, Nat.lt_succ_of_le hk]
  · refine ⟨spills, none, ?_, rfl⟩
    intro i hi
    cases hi

/-- An unpacked message points at its own label arrays. -/
theorem queueRecordUnpack_refs (r : QueueRecord) :
    (queueRecordUnpack spills r dst).module = .storage ∧
      (queueRecordUnpack spills r dst).file = .storage ∧
      (queueRecordUnpack spills r dst).func = .storage := ⟨rfl, rfl, rfl⟩

/-- The text of an unpacked message, up to and including its terminator. -/
theorem queueRecordUnpack_text (r : QueueRecord) {k : ℕ} (hk : k ≤ r.textLen) :
    (queueRecordUnpack spills r dst).text k = recordText spills r k := by
  have htext : (queueRecordUnpack spills r dst).text =
      memcpy dst.text (recordText spills r) (r.textLen + 1) := rfl
  rw [htext, memcpy, if_pos (by omega)]

variable {m : LoggerMessage}

/-- The content of a message taken from the queue. -/
theorem content_queueTransfer (hlen : loggerRecordTextLength m < loggerMessageMax) :
    (queueTransfer spills block old dst m).content = m.packedContent := by
  obtain ⟨blocks, spill, hblock, heq⟩ := queueTransfer_eq spills block old dst m
  rw [heq]
  exact content_unpack_pack blocks old m spill dst hlen hblock

/-- The text a reader finds in a message taken from the queue. -/
theorem text_queueTransfer (hlen : loggerRecordTextLength m < loggerMessageMax)
    (hend : m.text (loggerRecordTextLength m) = 0) :
    cstr (queueTransfer spills block old dst m).text loggerMessageMax =
      cstr m.text loggerMessageMax := by
  obtain ⟨blocks, spill, hblock, heq⟩ := queueTransfer_eq spills block old dst m
  have hstored : (queueRecordPack old m (loggerRecordTextLength m) spill).textLen =
      loggerRecordTextLength m := by
    rw [queueRecordPack_eq]
    exact Nat.mod_eq_of_lt (by simp only [loggerMessageMax] at hlen; omega)
  have htext : ∀ k ≤ loggerRecordTextLength m,
      (queueTransfer spills block old dst m).text k = m.text k := by
    intro k hk
    rw [heq, queueRecordUnpack_text _ _ _ (hk.trans_eq hstored.symm)]
    exact recordText_pack blocks old m _ spill hblock k hk
  exact cstr_congr_of_zero hlen htext ((htext _ le_rfl).trans hend)

end Transfer

section Fields

/-- A source pointer whose label does not fit in `cap` bytes points to the cut label instead: its
first `cap - 2` bytes and `~`. -/
def SourceRef.cut (cap : ℕ) (label : CString → CString) : SourceRef → SourceRef
  | .borrowed s =>
    if (label s).length < cap then .borrowed s else .borrowed ((label s).take (cap - 2) ++ [126])
  | ref => ref

theorem SourceRef.cut_borrowed (cap : ℕ) (label : CString → CString) (s : CString) :
    (SourceRef.borrowed s).cut cap label =
      .borrowed (if (label s).length < cap then s else (label s).take (cap - 2) ++ [126]) :=
  (apply_ite SourceRef.borrowed _ _ _).symm

/-- A message with its overlong labels cut. The label of a file is its base name. -/
def LoggerMessage.cutLabels (m : LoggerMessage) : LoggerMessage :=
  { m with
    module := m.module.cut 128 id
    file := m.file.cut 256 afterLastSlash
    func := m.func.cut 128 id }

/-- The labels of a call fit the arrays of the queue. -/
structure VlogCall.LabelsFit (c : VlogCall) : Prop where
  module : ∀ s, c.module = some s → s.bytes.length ≤ 127
  file : ∀ s, c.file = some s → (afterLastSlash s.bytes).length ≤ 255
  function : ∀ s, c.function = some s → s.bytes.length ≤ 127

/-- Records of one content have the same context fields. -/
theorem contextFields_congr {m m' : LoggerMessage} (hr : cstr m.requestId 64 = cstr m'.requestId 64)
    (hs : cstr m.sessionId 64 = cstr m'.sessionId 64)
    (ht : cstr m.traceId 64 = cstr m'.traceId 64) :
    contextFields m = contextFields m' := by
  have hempty : ∀ b : Buf, b 0 ≠ 0 ↔ cstr b 64 ≠ [] := fun b =>
    not_congr (cstr_eq_nil_iff (by decide)).symm
  simp only [contextFields, hempty, hr, hs, ht]

/-- A pointer of the caller to a name, cut, shows the label the queue keeps of it. -/
theorem deref_cut_ofCaller (s : Option TerminatedString) {cap : ℕ} {default : CString}
    (hdefault : 0 ∉ default) (hcap : default.length < cap) (storage storage' : Buf) :
    (((SourceRef.ofCaller s).cut cap id).deref storage cap).getD default =
      sourceLabel cap (((SourceRef.ofCaller s).deref storage' cap).getD default) := by
  cases s with
  | none => exact ((sourceLabel_of_no_nul hdefault cap).trans (if_pos hcap)).symm
  | some s =>
    have hlabel := sourceLabel_of_no_nul s.no_nul cap
    rw [SourceRef.ofCaller, SourceRef.cut_borrowed, SourceRef.deref, SourceRef.deref,
      Option.getD_some, Option.getD_some, hlabel]
    rfl

/-- A pointer of the caller to a path, cut, shows the base name the queue keeps of it. -/
theorem loggerBasename_cut_ofCaller (s : Option TerminatedString) (storage storage' : Buf) :
    loggerBasename (((SourceRef.ofCaller s).cut 256 afterLastSlash).deref storage 256) =
      sourceLabel 256
        ((((SourceRef.ofCaller s).deref storage' 256).map afterLastSlash).getD unknownText) := by
  cases s with
  | none => rfl
  | some s =>
    have hlabel := sourceLabel_of_no_nul (no_nul_afterLastSlash s.no_nul) 256
    have hslash := slash_not_mem_sourceLabel (slash_not_mem_afterLastSlash s.bytes) 256
    rw [SourceRef.ofCaller, SourceRef.cut_borrowed, SourceRef.deref, SourceRef.deref,
      Option.map_some, Option.getD_some, loggerBasename]
    rw [hlabel] at hslash ⊢
    split
    · rfl
    · rename_i hlong
      rw [if_neg hlong] at hslash
      exact afterLastSlash_eq_self hslash

/-- What two records have to share for their lines under a configuration to be the same. -/
structure SameShown (l : LineConfig) (m m' : LoggerMessage) : Prop where
  level : m.level = m'.level
  ts : m.ts = m'.ts
  pid : LoggerDetail.verbose.toNat ≤ l.detail.toNat → l.includePid = true → m.pid = m'.pid
  tid : LoggerDetail.verbose.toNat ≤ l.detail.toNat → l.includeTid = true → m.tid = m'.tid
  module : LoggerDetail.normal.toNat ≤ l.detail.toNat →
    (m.module.deref m.moduleStorage 128).getD appText =
      (m'.module.deref m'.moduleStorage 128).getD appText
  context : LoggerDetail.debug.toNat ≤ l.detail.toNat → contextFields m = contextFields m'
  file : LoggerDetail.debug.toNat ≤ l.detail.toNat → l.includeSource = true →
    loggerBasename (m.file.deref m.fileStorage 256) =
      loggerBasename (m'.file.deref m'.fileStorage 256)
  line : LoggerDetail.debug.toNat ≤ l.detail.toNat → l.includeSource = true → m.line = m'.line
  function : LoggerDetail.debug.toNat ≤ l.detail.toNat → l.includeSource = true →
    (m.func.deref m.functionStorage 128).getD unknownText =
      (m'.func.deref m'.functionStorage 128).getD unknownText
  text : cstr m.text loggerMessageMax = cstr m'.text loggerMessageMax

/-- What is not shown does not reach the line. -/
theorem SameShown.lineFields_eq {l : LineConfig} {m m' : LoggerMessage} (h : SameShown l m m')
    (time : TimestampCache) : lineFields l time m = lineFields l time m' := by
  unfold lineFields
  rw [h.level, h.ts, h.text]
  -- One field at a time: the condition that shows it is the one under which the records share it.
  congr 1
  congr 1
  · congr 1
    · congr 1
      refine if_ctx_congr Iff.rfl (fun hverbose => ?_) fun _ => rfl
      congr 1
      · exact if_ctx_congr Iff.rfl (fun hpid => by rw [h.pid hverbose hpid]) fun _ => rfl
      · exact if_ctx_congr Iff.rfl (fun htid => by rw [h.tid hverbose htid]) fun _ => rfl
    · exact if_ctx_congr Iff.rfl (fun hnormal => by rw [h.module hnormal]) fun _ => rfl
  · refine if_ctx_congr Iff.rfl (fun hdebug => ?_) fun _ => rfl
    rw [h.context hdebug]
    congr 1
    refine if_ctx_congr Iff.rfl (fun hsource => ?_) fun _ => rfl
    rw [h.file hdebug hsource, h.line hdebug hsource, h.function hdebug hsource]

end Fields

section Vlog

/-- The number of bytes `vlog_body` stores of its text. -/
def VlogCall.stored (c : VlogCall) : ℕ :=
  if c.formatted.length < loggerMessageMax then c.formatted.length else loggerMessageMax - 1

theorem VlogCall.stored_lt (c : VlogCall) : c.stored < loggerMessageMax := by
  unfold VlogCall.stored
  split
  · assumption
  · decide

variable (mask : CaptureMask) (c : VlogCall)

/-- The recorded length of a text is the number of bytes stored. -/
theorem vlogRecord_textLen : (vlogRecord mask c).textLen = c.stored := by
  have hlt : c.stored < 65536 := c.stored_lt.trans (by decide)
  exact Nat.mod_eq_of_lt hlt

/-- The text of a record is terminated at its recorded length. -/
theorem vlogRecord_text_stored : (vlogRecord mask c).text c.stored = 0 := by
  unfold vlogRecord VlogCall.stored
  dsimp only
  by_cases hshort : c.formatted.length < loggerMessageMax
  · have htake : c.formatted.take (loggerMessageMax - 1) = c.formatted :=
      List.take_of_length_le (by omega)
    rw [if_neg (by omega), if_pos hshort, vsnprintf, if_neg (by decide), htake]
    simp [Buf.overlay]
  · rw [if_pos (by omega), if_neg hshort, loggerTextMarkTruncated, if_pos (by decide)]
    rfl

/-- `logger_record_text_length` of a record is its recorded length. -/
theorem loggerRecordTextLength_vlogRecord :
    loggerRecordTextLength (vlogRecord mask c) = c.stored := by
  have hend := vlogRecord_text_stored mask c
  rw [loggerRecordTextLength, vlogRecord_textLen]
  refine if_pos ⟨?_, c.stored_lt, hend⟩
  by_cases hzero : c.stored = 0
  · rw [hzero] at hend
    exact .inr hend
  · exact .inl hzero

/-- The metadata `prepare_record_metadata` sets, field by field. -/
theorem prepareRecordMetadata_fields (m : LoggerMessage) :
    (prepareRecordMetadata mask c m).metadataMask = mask.record ∧
      (prepareRecordMetadata mask c m).module =
        (if mask.record.module then .ofCaller c.module else m.module) ∧
      (prepareRecordMetadata mask c m).file =
        (if mask.record.source then .ofCaller c.file else m.file) ∧
      (prepareRecordMetadata mask c m).func =
        (if mask.record.source then .ofCaller c.function else m.func) := by
  unfold prepareRecordMetadata captureContext
  dsimp only
  split_ifs <;> exact ⟨rfl, rfl, rfl, rfl⟩

/-- `prepare_record_metadata` leaves the level and the text. -/
theorem prepareRecordMetadata_kept (m : LoggerMessage) :
    (prepareRecordMetadata mask c m).level = m.level ∧
      (prepareRecordMetadata mask c m).text = m.text := by
  unfold prepareRecordMetadata captureContext
  dsimp only
  split_ifs <;> exact ⟨rfl, rfl⟩

/-- The numbers and the context `prepare_record_metadata` sets, field by field. -/
theorem prepareRecordMetadata_values (m : LoggerMessage) :
    (prepareRecordMetadata mask c m).pid = (if mask.pid then c.pid else m.pid) ∧
      (prepareRecordMetadata mask c m).tid = (if mask.tid then c.tid else m.tid) ∧
      (prepareRecordMetadata mask c m).line = (if mask.record.source then c.line else m.line) ∧
      contextFields (prepareRecordMetadata mask c m) =
        if mask.record.context then contextFields (captureContext c.context m)
        else contextFields m := by
  unfold prepareRecordMetadata captureContext
  dsimp only
  split_ifs <;> exact ⟨rfl, rfl, rfl, rfl⟩

/-- The metadata of a record, field by field. -/
theorem vlogRecord_metadata :
    (vlogRecord mask c).metadataMask = mask.record ∧
      (vlogRecord mask c).module = (if mask.record.module then .ofCaller c.module else .null) ∧
      (vlogRecord mask c).file = (if mask.record.source then .ofCaller c.file else .null) ∧
      (vlogRecord mask c).func = (if mask.record.source then .ofCaller c.function else .null) :=
  prepareRecordMetadata_fields mask c { LoggerMessage.zero with level := c.level }

variable (l : LineConfig)

/-- Labels that fit are not cut. -/
theorem cutLabels_of_fit (hfit : c.LabelsFit) :
    (vlogRecord mask c).cutLabels = vlogRecord mask c := by
  obtain ⟨-, hmodule, hfile, hfunc⟩ := vlogRecord_metadata mask c
  have hcut : ∀ (s : Option TerminatedString) (cap : ℕ) (label : CString → CString)
    (captured : Bool), (∀ t, s = some t → (label t.bytes).length < cap) →
      (if captured then SourceRef.ofCaller s else .null).cut cap label =
        if captured then SourceRef.ofCaller s else .null := by
    intro s cap label captured hlen
    cases captured with
    | false => rfl
    | true =>
      cases s with
      | none => rfl
      | some t => exact if_pos (hlen t rfl)
  have hm : (vlogRecord mask c).module.cut 128 id = (vlogRecord mask c).module := by
    rw [hmodule]
    exact hcut _ _ _ _ fun t ht => Nat.lt_succ_of_le (hfit.module t ht)
  have hf : (vlogRecord mask c).file.cut 256 afterLastSlash = (vlogRecord mask c).file := by
    rw [hfile]
    exact hcut _ _ _ _ fun t ht => Nat.lt_succ_of_le (hfit.file t ht)
  have hn : (vlogRecord mask c).func.cut 128 id = (vlogRecord mask c).func := by
    rw [hfunc]
    exact hcut _ _ _ _ fun t ht => Nat.lt_succ_of_le (hfit.function t ht)
  rw [LoggerMessage.cutLabels, hm, hf, hn]

/-- A source that the lines show is captured. -/
theorem captureMaskFromConfig_source {l : LineConfig}
    (hdebug : LoggerDetail.debug.toNat ≤ l.detail.toNat) (hinclude : l.includeSource = true) :
    (captureMaskFromConfig l).record.source = true := by
  simp [captureMaskFromConfig, hdebug, hinclude]

/-- A record taken from the queue shows what the record with its labels cut shows: each field that
the line prints under the configuration has been captured under it. -/
theorem sameShown_queueTransfer (spills : ℕ → Buf) (block : ℕ) (old : QueueRecord)
    (dst : LoggerMessage) :
    SameShown l (queueTransfer spills block old dst (vlogRecord (captureMaskFromConfig l) c))
      (vlogRecord (captureMaskFromConfig l) c).cutLabels := by
  -- the text and the captured values survive the queue; the labels may be cut
  obtain ⟨hmask, hmodule, hfile, hfunc⟩ := vlogRecord_metadata (captureMaskFromConfig l) c
  have hlen := loggerRecordTextLength_vlogRecord (captureMaskFromConfig l) c
  have hlt : loggerRecordTextLength (vlogRecord (captureMaskFromConfig l) c) < loggerMessageMax :=
    hlen.trans_lt c.stored_lt
  have hend : (vlogRecord (captureMaskFromConfig l) c).text
      (loggerRecordTextLength (vlogRecord (captureMaskFromConfig l) c)) = 0 := by
    rw [hlen]
    exact vlogRecord_text_stored _ c
  have hcontent := content_queueTransfer spills block old dst hlt
  have htext := text_queueTransfer spills block old dst hlt hend
  obtain ⟨blocks, spill, -, hunpack⟩ :=
    queueTransfer_eq spills block old dst (vlogRecord (captureMaskFromConfig l) c)
  have hrefs := queueRecordUnpack_refs blocks dst
    (queueRecordPack old (vlogRecord (captureMaskFromConfig l) c)
      (loggerRecordTextLength (vlogRecord (captureMaskFromConfig l) c)) spill)
  rw [← hunpack] at hrefs
  generalize vlogRecord (captureMaskFromConfig l) c = m at *
  generalize queueTransfer spills block old dst m = q at *
  simp only [LoggerMessage.content, LoggerMessage.packedContent, RecordContent.mk.injEq] at hcontent
  obtain ⟨hlevel, hts, hpid, htid, hline, hrequest, hsession, htrace, hm, hf, hn, -⟩ := hcontent
  refine ⟨hlevel, hts, fun _ _ => hpid, fun _ _ => htid, fun hnormal => ?_, fun hdebug => ?_,
    fun hdebug hinclude => ?_, fun _ _ => hline, fun hdebug hinclude => ?_, htext⟩
  -- each label is compared at the capacity of its storage
  · have hcaptured : (captureMaskFromConfig l).record.module = true := by
      simp [captureMaskFromConfig, hnormal]
    rw [hrefs.1, SourceRef.deref, Option.getD_some, hm, hmask, if_pos hcaptured,
      LoggerMessage.moduleText, LoggerMessage.cutLabels, hmodule, if_pos hcaptured]
    exact (deref_cut_ofCaller _ (by decide) (by decide) _ _).symm
  · have hcaptured : m.metadataMask.context = true := by
      rw [hmask]
      simp [captureMaskFromConfig, hdebug]
    rw [if_pos hcaptured] at hrequest hsession htrace
    exact contextFields_congr hrequest hsession htrace
  · have hcaptured := captureMaskFromConfig_source hdebug hinclude
    rw [hrefs.2.1, SourceRef.deref, hf, hmask, if_pos hcaptured, LoggerMessage.fileText,
      LoggerMessage.cutLabels, hfile, if_pos hcaptured,
      loggerBasename_cut_ofCaller c.file _ m.fileStorage]
    refine afterLastSlash_eq_self (slash_not_mem_sourceLabel ?_ 256)
    -- a file label has no slash left, so its base name is the label
    cases c.file with
    | none => exact show 47 ∉ unknownText by decide
    | some s => exact slash_not_mem_afterLastSlash s.bytes
  · have hcaptured := captureMaskFromConfig_source hdebug hinclude
    rw [hrefs.2.2, SourceRef.deref, Option.getD_some, hn, hmask, if_pos hcaptured,
      LoggerMessage.functionText, LoggerMessage.cutLabels, hfunc, if_pos hcaptured]
    exact (deref_cut_ofCaller _ (by decide) (by decide) _ _).symm

/-- The mask that captures every field. -/
def CaptureMask.full : CaptureMask := ⟨⟨true, true, true⟩, true, true⟩

/-- A record with only the captured fields shows what a record with all fields shows. -/
theorem sameShown_full :
    SameShown l (vlogRecord (captureMaskFromConfig l) c) (vlogRecord .full c) := by
  obtain ⟨-, hmodule, hfile, hfunc⟩ := vlogRecord_metadata (captureMaskFromConfig l) c
  obtain ⟨-, hmodule', hfile', hfunc'⟩ := vlogRecord_metadata .full c
  obtain ⟨hpid, htid, hline, hcontext⟩ := prepareRecordMetadata_values (captureMaskFromConfig l) c
    { LoggerMessage.zero with level := c.level }
  obtain ⟨hpid', htid', hline', hcontext'⟩ := prepareRecordMetadata_values .full c
    { LoggerMessage.zero with level := c.level }
  obtain ⟨hlevel, htext⟩ := prepareRecordMetadata_kept (captureMaskFromConfig l) c
    { LoggerMessage.zero with level := c.level }
  obtain ⟨hlevel', htext'⟩ := prepareRecordMetadata_kept .full c
    { LoggerMessage.zero with level := c.level }
  -- a field is shown only at a level that also captures it
  refine ⟨hlevel.trans hlevel'.symm, rfl, fun hverbose hinclude => ?_, fun hverbose hinclude => ?_,
    fun hnormal => ?_, fun hdebug => ?_, fun hdebug hinclude => ?_, fun hdebug hinclude => ?_,
    fun hdebug hinclude => ?_, ?_⟩
  · exact (hpid.trans (if_pos (by simp [captureMaskFromConfig, hverbose, hinclude]))).trans
      hpid'.symm
  · exact (htid.trans (if_pos (by simp [captureMaskFromConfig, hverbose, hinclude]))).trans
      htid'.symm
  · rw [hmodule, hmodule', if_pos (by simp [captureMaskFromConfig, hnormal])]
    cases c.module <;> rfl
  · exact (hcontext.trans (if_pos (by simp [captureMaskFromConfig, hdebug]))).trans hcontext'.symm
  · rw [hfile, hfile', if_pos (captureMaskFromConfig_source hdebug hinclude)]
    cases c.file <;> rfl
  · exact (hline.trans (if_pos (captureMaskFromConfig_source hdebug hinclude))).trans hline'.symm
  · rw [hfunc, hfunc', if_pos (captureMaskFromConfig_source hdebug hinclude)]
    cases c.function <;> rfl
  · simp only [vlogRecord, vlogMetadata, htext, htext']

/-- The asynchronous path prints what the synchronous path prints. The line of a record that went
through the queue, formatted by a worker that has run `before`, is the line of the record itself
with overlong labels cut, formatted by a caller that has run `before'`; when the labels fit, it is
the line of the record itself. The record holds every field its line shows: capturing more would
not change the line. -/
theorem queued_line_eq_direct_line {τ : Type} (lib : TimeLib τ) (l : LineConfig) (c : VlogCall)
    (spills : ℕ → Buf) (block : ℕ) (old : QueueRecord) (dst : LoggerMessage) (out : Option Buf)
    (cap : ℕ) (answers : VsnprintfAnswers) (before before' : List FormatOp) :
    let m := vlogRecord (captureMaskFromConfig l) c
    let queued := (loggerFormatLine lib (some l) (some (queueTransfer spills block old dst m)) out
      cap answers (cacheAfter lib before)).line
    let direct := fun m => (loggerFormatLine lib (some l) (some m) out cap answers
      (cacheAfter lib before')).line
    queued = direct m.cutLabels ∧ (c.LabelsFit → queued = direct m) ∧
      direct m = direct (vlogRecord .full c) := by
  intro m queued direct
  have hformat : ∀ {m m' : LoggerMessage} (ops ops' : List FormatOp), SameShown l m m' →
      (loggerFormatLine lib (some l) (some m) out cap answers (cacheAfter lib ops)).line =
        (loggerFormatLine lib (some l) (some m') out cap answers (cacheAfter lib ops')).line := by
    intro m m' ops ops' h
    refine FormatResult.line_emptied ?_ cap
    exact formatLine_congr h.ts h.lineFields_eq out cap false answers (cacheAfter_agrees ops)
      (cacheAfter_agrees ops')
  have hcut : queued = direct m.cutLabels :=
    hformat before before' (sameShown_queueTransfer c l spills block old dst)
  refine ⟨hcut, fun hfit => ?_, hformat before' before' (sameShown_full c l)⟩
  rw [hcut, show m.cutLabels = m from cutLabels_of_fit _ c hfit]

end Vlog

end CLogger
