import CLogger.File.Correctness
import CLogger.File.Segments
import CLogger.Instance.Acknowledgement

/-!
# The streams of an instance

What the sections under `emit_mu` write follows one another: standard error and the segments of the
file in their order are the lines of the sections, none of which is interleaved with another. A
section that failed may have left a first part of its lines. The records of the worker's sections
are in the order in which their positions were reserved.

* `SinksReached.streamed`, `SinksReached.stored`, and `output_streams`: whatever fails.
* `SinksReached.segmented`, and `output_integrity`: where no section has failed.
-/

namespace CLogger.Instance

open Concurrent TransitionSystem

variable {cfg : InstConfig} {level : LoggerLevel} {start sinks w : Sinks} {es : List Emission}
  {e : Emission} {S : System Inst InstReply InstLabel InstThread}

section Parts

/-- An output has taken `part` of the lines of a section: all of them if one of its records is not
counted as failed. -/
def Emission.Took (e : Emission) (part : List UInt8) : Prop :=
  part <+: e.lines.flatten ∧ (false ∈ e.failed → part = e.lines.flatten)

/-- A record that is not counted as failed has found every call of its section succeed. -/
theorem EmissionRan.good {r : SectionResults} (h : EmissionRan cfg e r) (hgood : false ∈ e.failed) :
    r.stderr = 0 ∧ r.file = 0 ∧ r.unlock = 0 := by
  rw [h.failed] at hgood
  obtain ⟨rc, -, hrc⟩ := List.mem_map.mp hgood
  rw [decide_eq_false_iff_not, not_or, not_or, not_or, not_not, not_not, not_not, not_not] at hrc
  exact ⟨hrc.1, hrc.2.1, hrc.2.2.2⟩

theorem PartTaken.took {rc : ℤ} {part : List UInt8} (h : PartTaken e.lines.flatten rc part)
    (hrc : false ∈ e.failed → rc = 0) : e.Took part := ⟨h.1, fun hgood => h.2 (hrc hgood)⟩

/-- One part more, for one section more. -/
theorem parts_snoc {R : Emission → List UInt8 → Prop} {parts : List (List UInt8)}
    {part : List UInt8}
    (h : List.Forall₂ R es parts) (hpart : R e part) :
    List.Forall₂ R (es ++ [e]) (parts ++ [part]) :=
  List.rel_append h (.cons hpart .nil)

/-- Sections of which none has failed are taken in full. -/
theorem parts_of_good {R : Emission → List UInt8 → Prop} {parts : List (List UInt8)}
    (h : List.Forall₂ R es parts) (hR : ∀ e part, R e part → e.Took part)
    (hgood : ∀ e ∈ es, false ∈ e.failed) : parts = es.map fun e => e.lines.flatten := by
  induction h with
  | nil => rfl
  | cons hpart _ ih =>
    rw [List.map_cons, (hR _ _ hpart).2 (hgood _ List.mem_cons_self),
      ih fun e he => hgood e (List.mem_cons_of_mem _ he)]

end Parts

section Reached

/-- Standard error is a sequence of parts, one for each section. -/
theorem SinksReached.streamed (h : SinksReached cfg start es w) (hstart : SinksOk start)
    (hout : cfg.outStderr) : ∃ parts, List.Forall₂ Emission.Took es parts ∧
      w.stderr.stream = start.stderr.stream ++ parts.flatten := by
  induction h with
  | start => exact ⟨[], .nil, (List.append_nil _).symm⟩
  | emit hreached hran ih =>
    obtain ⟨parts, htook, hstream⟩ := ih
    obtain ⟨part, hpart, hafter⟩ := (hran.left (hreached.ok hstart)).streamed hout
    refine ⟨parts ++ [part], parts_snoc htook (hpart.took fun hgood => (hran.good hgood).1), ?_⟩
    rw [hafter, hstream, List.append_assoc, List.flatten_append, List.flatten_singleton]
  | file _ _ _ ih => exact ih

/-- The file has taken a part of a section, in one segment. -/
def Emission.Stored (e : Emission) (part : List UInt8) : Prop :=
  e.Took part ∧ FileWrote e.before.file e.after.file part

/-- What the file has accepted is a sequence of parts, one for each section. -/
theorem SinksReached.stored (h : SinksReached cfg start es w) (hstart : SinksOk start)
    (hout : cfg.outFile) : ∃ parts, List.Forall₂ Emission.Stored es parts ∧
      w.file.history.accepted = start.file.history.accepted ++ parts.flatten := by
  induction h with
  | start => exact ⟨[], .nil, (List.append_nil _).symm⟩
  | emit hreached hran ih =>
    obtain ⟨parts, hstored, haccepted⟩ := ih
    obtain ⟨part, hpart, htaken⟩ := (hran.left (hreached.ok hstart)).written hout
    refine ⟨parts ++ [part], parts_snoc hstored
      ⟨hpart.took fun hgood => (hran.good hgood).2.1, htaken.toFileWrote⟩, ?_⟩
    rw [htaken.accepted, haccepted, List.append_assoc, List.flatten_append, List.flatten_singleton]
  | file hreached hop hreturns ih =>
    obtain ⟨parts, hstored, haccepted⟩ := ih
    refine ⟨parts, hstored, ?_⟩
    have hok := (hreached.ok hstart).file
    rw [← haccepted]
    rcases hop with rfl | rfl
    · obtain ⟨part, hpart, -, htaken⟩ := (fileOp_exec_wrote (by rintro ⟨⟩) hok hreturns).taken
      rw [htaken.accepted, List.prefix_nil.mp hpart, List.append_nil]
    · exact (fileOp_exec_reopened hok hreturns).2.2

/-- Every call of the backend keeps the stream of a file that rotates by itself. -/
theorem SinksReached.inv (h : SinksReached cfg start es w) (hopened : FileOpened start.file) :
    FileInv cfg.libc start.file.core w.file.core := by
  have hcall : ∀ {op : FileOp} {w w' : FileWorld} {rc : ℤ},
      FileInv cfg.libc start.file.core w.core → TapeProgram.Returns (op.exec cfg.libc) w rc w' →
        FileInv cfg.libc start.file.core w'.core := fun hinv hreturns =>
    hreturns.spec (fileOp_exec_spec hopened.retentionDays hopened.name_eq _ hinv)
  induction h with
  | start => exact hopened.inv
  | @emit es e r _ hran ih =>
    have hfile := hran.file
    unfold FileRan at hfile
    split at hfile
    · obtain ⟨op, -, hreturns⟩ := hfile
      exact hcall ih hreturns
    · rw [hfile.2]
      exact ih
  | file _ _ hreturns ih => exact hcall ih hreturns

end Reached

section Streams

variable {recent : Prop} {s : Inst}

/-- Every section offers the formatted lines of its records. -/
theorem AccountInv.formatted (hs : AccountInv recent cfg start s) (he : e ∈ s.history.emissions) :
    List.Forall₂ (FormattedAs cfg e.forced) e.records e.lines := by
  obtain ⟨es', r, -, -, hran⟩ := hs.ran he
  exact hran.formatted

/-- Each of its lines ends with a line feed. -/
theorem AccountInv.ended (hs : AccountInv recent cfg start s) (he : e ∈ s.history.emissions)
    {line : List UInt8} (hline : line ∈ e.lines) : ∃ text, line = text ++ [10] := by
  have hformatted := hs.formatted he
  obtain ⟨i, hi, rfl⟩ := List.getElem_of_mem hline
  exact (hformatted.get (hformatted.length_eq.symm ▸ hi) hi).ended

/-- The streams of an instance while nobody holds `emit_mu`. -/
structure OutputStreams (cfg : InstConfig) (start : Sinks) (s : Inst) : Prop where
  /-- Every section offers the formatted lines of its records, which end with a line feed. -/
  formatted : ∀ e ∈ s.history.emissions, List.Forall₂ (FormattedAs cfg e.forced) e.records e.lines
  ended : ∀ e ∈ s.history.emissions, ∀ line ∈ e.lines, ∃ text, line = text ++ [10]
  stderr : cfg.outStderr → ∃ parts, List.Forall₂ Emission.Took s.history.emissions parts ∧
    s.sinks.stderr.stream = start.stderr.stream ++ parts.flatten
  /-- The archives in the order of their names and the active file. -/
  file : cfg.outFile → FileOpened start.file →
    ∃ parts, List.Forall₂ Emission.Stored s.history.emissions parts ∧
      s.sinks.file.history.accepted = parts.flatten ∧
        StreamIntegrity cfg.libc start.file s.sinks.file
  /-- Where no section has failed, these are all lines. -/
  whole : (∀ e ∈ s.history.emissions, false ∈ e.failed) →
    (cfg.outStderr → s.sinks.stderr.stream =
      start.stderr.stream ++ (s.history.emissions.map fun e => e.lines.flatten).flatten) ∧
    (cfg.outFile → FileOpened start.file → s.sinks.file.history.accepted =
      (s.history.emissions.map fun e => e.lines.flatten).flatten)
  /-- The worker emits records in the order of their positions, each with what its producer has
  packed; the positions of one producer are in its call order. -/
  order : (recordsOf (s.emittedBy .worker)).Sublist s.ring.popped
  delivered : ∀ p m, s.ring.popped[p]? = some m → s.ring.Delivers p m
  program : s.ring.reserved.Pairwise fun a b => a.producer = b.producer → a.call < b.call

/-- Output integrity and order, in every run in which the positions that are used are recent, with
any number of producers and of threads that emit themselves, whatever the system calls answer. -/
theorem output_streams {P : Platform} {requested : ℕ} {l : QueueLayout}
    (hinit : loggerQueueInit P requested = some l) (hslot : loggerQueueInlineText ≤ P.slotSize)
    (wraps : Bool) (hcfg : cfg.geometry = l.geometry hinit wraps) (hstart : SinksOk sinks)
    (h : InstReachable cfg (fun s _ _ _ => Fresh cfg.geometry s.ring) level sinks S)
    (hfree : S.shared.owner .emit = none) : OutputStreams cfg sinks S.shared := by
  have hs : AccountInv True cfg sinks S.shared :=
    h.accounts_recent hinit hslot wraps hcfg hstart
  obtain ⟨w, hreached, hw⟩ := hs.sinks
  have hsinks := hw hfree
  have hstderr : cfg.outStderr →
      ∃ parts, List.Forall₂ Emission.Took S.shared.history.emissions parts ∧
        S.shared.sinks.stderr.stream = sinks.stderr.stream ++ parts.flatten := by
    rw [hsinks]
    exact hreached.streamed hstart
  have hfile : cfg.outFile → FileOpened sinks.file →
      ∃ parts, List.Forall₂ Emission.Stored S.shared.history.emissions parts ∧
        S.shared.sinks.file.history.accepted = parts.flatten := by
    intro hout hopened
    obtain ⟨parts, hstored, haccepted⟩ := hreached.stored hstart hout
    have hnone : sinks.file.history.accepted = [] := by rw [hopened.history]; rfl
    rw [hnone, List.nil_append, ← hsinks] at haccepted
    exact ⟨parts, hstored, haccepted⟩
  refine ⟨fun e he => hs.formatted he, fun e he line hline => hs.ended he hline, hstderr,
    fun hout hopened => ?_, fun hgood => ⟨fun hout => ?_, fun hout hopened => ?_⟩, hs.order,
    (hs.ring trivial).inv.pop.popped, (hs.ring trivial).inv.order.order⟩
  · obtain ⟨parts, hstored, haccepted⟩ := hfile hout hopened
    refine ⟨parts, hstored, haccepted, ?_⟩
    rw [hsinks]
    exact (hreached.inv hopened).streamIntegrity
  · obtain ⟨parts, htook, hstream⟩ := hstderr hout
    rw [hstream, parts_of_good htook (fun _ _ ht => ht) hgood]
  · obtain ⟨parts, hstored, haccepted⟩ := hfile hout hopened
    rw [haccepted, parts_of_good hstored (fun _ _ ht => ht.1) hgood]

theorem output_streams_flushed : ∃ S : System Inst InstReply InstLabel InstThread,
    S.shared.emittedRecords = 1 ∧ OutputStreams sampleConfig sampleSinks S.shared := by
  obtain ⟨S, hS⟩ := flushRun_flushed
  exact ⟨S, hS.emitted, output_streams loggerQueueInit_two (by decide) false rfl sampleSinks_ok
    hS.reached hS.unlocked⟩

end Streams

section Whole

/-- Without syslog a section fails as a whole or not at all. -/
theorem EmissionRan.unfailed {r : SectionResults} (h : EmissionRan cfg e r)
    (hsyslog : ¬ cfg.outSyslog) (hgood : false ∈ e.failed) :
    e.failed = List.replicate e.lines.length false := by
  obtain ⟨hstderr, hfile, hunlock⟩ := h.good hgood
  have hsocket := h.syslog
  rw [SocketRan, if_neg hsyslog] at hsocket
  have hfailed := h.failed
  rw [hsocket.1, hstderr, hfile, hunlock, List.map_map] at hfailed
  have hlength : (e.records.zip e.lines).length = e.lines.length := by
    rw [List.length_zip, h.formatted.length_eq, min_self]
  rw [hfailed, ← hlength]
  exact List.map_const'

/-- Such a section is counted when it has succeeded. -/
theorem EmissionRan.counts {r : SectionResults} (h : EmissionRan cfg e r)
    (hsyslog : ¬ cfg.outSyslog) (hgood : false ∈ e.failed) : e.counts = true := by
  rw [Emission.counts, Bool.or_eq_true, decide_eq_true_eq, decide_eq_true_eq]
  refine h.single.imp id fun hsingle => ?_
  rw [h.unfailed hsyslog hgood, ← h.formatted.length_eq, hsingle]
  rfl

/-- Where every thread has counted the first of its sections, the rest can be put after them. -/
theorem perm_counted_append {counted : List Emission}
    (h : ∀ t, ofThread t counted <+: ofThread t es) : ∃ rest, es.Perm (counted ++ rest) := by
  classical
  refine ⟨es.diff counted, (List.subperm_append_diff_self_of_count_le fun e _ => ?_).symm⟩
  have hthread : ∀ l : List Emission, (ofThread e.thread l).count e = l.count e :=
    fun l => List.count_filter (decide_eq_true rfl)
  rw [← hthread counted, ← hthread es]
  exact (h e.thread).sublist.count_le e

/-- The file is in segments, and every section has been written to one of them. -/
theorem SinksReached.segmented (h : SinksReached cfg start es w) (hstart : SinksOk start)
    (hout : cfg.outFile) {ino : ℕ} (hlinked : start.file.chain.Linked ino)
    (hgood : ∀ e ∈ es, false ∈ e.failed) : ∃ closed active,
      Segmented start.file w.file (es.map fun e => e.lines.flatten) closed active := by
  induction h with
  | start => exact ⟨[], _, .start hlinked hstart.file⟩
  | @emit es e r hreached hran ih =>
    obtain ⟨closed, active, hsegmented⟩ := ih fun e he => hgood e (List.mem_append_left _ he)
    have hfile := hran.file
    rw [FileRan, if_pos hout, (hran.good (hgood e (List.mem_append_right _
      (List.mem_singleton_self e)))).2.1] at hfile
    obtain ⟨op, hop, hreturns⟩ := hfile
    obtain ⟨closed', active', hsegmented'⟩ :=
      hsegmented.write hop.reopen (hreached.ok hstart).file hreturns
    rw [hop.bytes] at hsegmented'
    exact ⟨closed', active', by rw [List.map_append]; exact hsegmented'⟩
  | file hreached hop hreturns ih =>
    obtain ⟨closed, active, hsegmented⟩ := ih hgood
    exact ⟨closed, active, hsegmented.unturned hop (hreached.ok hstart).file hreturns⟩

/-- The streams of an instance in which no section has failed. -/
structure WholeStreams (cfg : InstConfig) (start : Sinks)
    (S : System Inst InstReply InstLabel InstThread) : Prop where
  /-- Every section writes the formatted lines of its records, which end with a line feed. -/
  formatted : ∀ e ∈ S.shared.history.emissions,
    List.Forall₂ (FormattedAs cfg e.forced) e.records e.lines
  ended : ∀ e ∈ S.shared.history.emissions, ∀ line ∈ e.lines, ∃ text, line = text ++ [10]
  /-- Standard error is the lines of the sections, one section after another. -/
  stderr : cfg.outStderr → S.shared.sinks.stderr.stream = start.stderr.stream ++
    (S.shared.history.emissions.map fun e => e.lines.flatten).flatten
  /-- So is the file, with the lines of one section in one segment. -/
  file : cfg.outFile → ∃ closed active, Segmented start.file S.shared.sinks.file
    (S.shared.history.emissions.map fun e => e.lines.flatten) closed active
  /-- There is one line for each record that is counted as emitted, and besides them the lines of at
  most one section for each thread that runs, which it is about to count. -/
  emitted : S.shared.emittedRecords = (S.shared.history.counted.map fun e => e.lines.length).sum
  counted : ∃ rest, S.shared.history.emissions.Perm (S.shared.history.counted ++ rest) ∧
    ∀ t, (ofThread t rest).length ≤ 1 ∧ ((S.code t).label = none → ofThread t rest = [])
  /-- The worker's records are in the order of their positions, each as its producer has packed it;
  the positions of one producer are in its call order. -/
  order : (recordsOf (S.shared.emittedBy .worker)).Sublist S.shared.ring.popped
  delivered : ∀ p m, S.shared.ring.popped[p]? = some m → S.shared.ring.Delivers p m
  program : S.shared.ring.reserved.Pairwise fun a b => a.producer = b.producer → a.call < b.call

/-- Output integrity and order from end to end, in every run of an instance with standard error or a
file as its outputs in which the positions that are used are recent and no section has failed. The
file may rotate in any mode and delete old segments; it has to be in use under its name. -/
theorem output_integrity {P : Platform} {requested : ℕ} {l : QueueLayout}
    (hinit : loggerQueueInit P requested = some l) (hslot : loggerQueueInlineText ≤ P.slotSize)
    (wraps : Bool) (hcfg : cfg.geometry = l.geometry hinit wraps) (hsyslog : ¬ cfg.outSyslog)
    (hstart : SinksOk sinks) (hlinked : cfg.outFile → ∃ ino, sinks.file.chain.Linked ino)
    (h : InstReachable cfg (fun s _ _ _ => Fresh cfg.geometry s.ring) level sinks S)
    (hgood : ∀ e ∈ S.shared.history.emissions, false ∈ e.failed)
    (hfree : S.shared.owner .emit = none) : WholeStreams cfg sinks S := by
  have hs : AccountInv True cfg sinks S.shared :=
    h.accounts_recent hinit hslot wraps hcfg hstart
  obtain ⟨-, -, hrested⟩ := h.accounts hstart
  obtain ⟨w, hreached, hw⟩ := hs.sinks
  have hsinks := hw hfree
  -- every entry of the history is an emission that some thread ran
  have hrun : ∀ e ∈ S.shared.history.emissions, ∃ r, EmissionRan cfg e r := by
    intro e he
    obtain ⟨es', r, -, -, hran⟩ := hreached.ran he
    exact ⟨r, hran⟩
  -- every section counts
  have hall : ∀ t, (S.shared.emittedBy t).filter Emission.counts = S.shared.emittedBy t := by
    refine fun t => List.filter_eq_self.mpr fun e he => ?_
    have hmem := (mem_ofThread.mp he).1
    obtain ⟨r, hran⟩ := hrun e hmem
    exact hran.counts hsyslog (hgood e hmem)
  -- the streams, the metric and the order of the records, one by one
  refine ⟨fun e he => hs.formatted he, fun e he line hline => hs.ended he hline, fun hout => ?_,
    fun hout => ?_, ?_, ?_, hs.order, (hs.ring trivial).inv.pop.popped,
    (hs.ring trivial).inv.order.order⟩
  · obtain ⟨parts, htook, hstream⟩ := hreached.streamed hstart hout
    rw [hsinks, hstream, parts_of_good htook (fun _ _ ht => ht) hgood]
  · obtain ⟨ino, hino⟩ := hlinked hout
    rw [hsinks]
    exact hreached.segmented hstart hout hino hgood
  · rw [hs.emitted]
    refine congrArg List.sum (List.map_congr_left fun e he => ?_)
    obtain ⟨r, hran⟩ := hrun e (hs.counted e he)
    rw [hran.unfailed hsyslog (hgood e (hs.counted e he)), List.count_replicate_self]
  -- what has been emitted but not counted is at most one section of each thread
  · have hpending : ∀ t, ∃ rest, S.shared.emittedBy t = S.shared.countedBy t ++ rest ∧
        rest.length ≤ 1 := by
      intro t
      rw [← hall t]
      exact hs.pending t
    have hprefix : ∀ t, ofThread t S.shared.history.counted <+:
        ofThread t S.shared.history.emissions :=
      fun t => ⟨(hpending t).choose, (hpending t).choose_spec.1.symm⟩
    obtain ⟨rest, hrest⟩ := perm_counted_append hprefix
    have hlength : ∀ t, (S.shared.emittedBy t).length =
        (S.shared.countedBy t).length + (ofThread t rest).length := by
      intro t
      have hthread := (hrest.filter fun e => e.thread = t).length_eq
      rw [List.filter_append, List.length_append] at hthread
      exact hthread
    refine ⟨rest, hrest, fun t => ⟨?_, fun hlabel => List.eq_nil_of_length_eq_zero ?_⟩⟩
    · obtain ⟨rest', hrest', hone⟩ := hpending t
      have hthread := hlength t
      rw [hrest', List.length_append] at hthread
      omega
    -- a thread outside its sections has nothing left to count
    · have hthread := hlength t
      have hsettled : S.shared.countedBy t = S.shared.emittedBy t := by
        cases t with
        | worker =>
          obtain ⟨E, hsettled⟩ := hrested .worker hlabel
          rw [hsettled.counted, ← hsettled.emitted, hall]
        | caller n =>
          obtain ⟨⟨E, hsettled⟩, -⟩ := hrested (.caller n) hlabel
          rw [hsettled.counted, ← hsettled.emitted, hall]
      rw [hsettled] at hthread
      omega

/-- A record is logged, another caller emits one itself, and then the worker emits the first. -/
def streamRun : List (Move InstReply InstThread InstCall) :=
  .call (.caller 0) (.vlog sampleCall) :: List.replicate 52 (.step (.caller 0) granted) ++
    .call (.caller 1) (.logSyncStatus sampleCall) ::
      List.replicate 88 (.step (.caller 1) granted) ++ List.replicate 140 (.step .worker granted)

/-- Both sections have rotated the file. -/
theorem output_integrity_rotated : ∃ S : System Inst InstReply InstLabel InstThread,
    S.shared.emittedRecords = 2 ∧ S.shared.sinks.file.archived = [0, 2] ∧
      WholeStreams sampleConfig sampleSinks S := by
  have hrun : (exec (sysNext (instApi sampleConfig)) (instStart sampleConfig .info sampleSinks)
      streamRun).map (fun S => (S.shared.emittedRecords,
        S.shared.history.emissions.map Emission.failed, S.shared.owner .emit,
        S.shared.sinks.file.archived)) =
          some (2, [[false], [false]], none, [0, 2]) := by decide +kernel
  obtain ⟨S, hexec, heq⟩ := Option.map_eq_some_iff.mp hrun
  obtain ⟨hemitted, heq⟩ := Prod.mk.inj heq
  obtain ⟨hfailed, heq⟩ := Prod.mk.inj heq
  obtain ⟨hfree, harchived⟩ := Prod.mk.inj heq
  refine ⟨S, hemitted, harchived, output_integrity loggerQueueInit_two (by decide) false rfl
    (by decide) sampleSinks_ok (fun _ => managedFile_managed.linked)
    (reachable_of_exec (fun m _ s s' => ?_) hexec) (fun e he => ?_) hfree⟩
  · cases m with
    | call t c => trivial
    | step t a => exact fun _ _ _ => trivial
  · have hmem : e.failed ∈ [[false], [false]] := hfailed ▸ List.mem_map_of_mem he
    have hone : e.failed = [false] := by simpa using hmem
    rw [hone]
    exact List.mem_singleton_self false

end Whole

end CLogger.Instance
