import CLogger.File.Durability
import CLogger.Instance.Acknowledgement

/-!
# Durability of what is acknowledged

A successful `fsync` covers what has been written to an inode before, and one of the directory
covers the changes of its entries. The ledger of the file backend is kept by the sections of an
instance, so that a record at the flush level, a synchronous record and a flush are acknowledged
only when all bytes are covered.

* `SinksReached.ledger`: the ledger of the file backend is kept.
* `acknowledged_durable`, `flush_durable`.
-/

namespace CLogger.Instance

open Concurrent TransitionSystem

variable {cfg : InstConfig} {level : LoggerLevel} {start sinks w : Sinks} {es : List Emission}
  {e : Emission} {S : System Inst InstReply InstLabel InstThread}

section Ledger

/-- A call of the backend keeps the ledger. -/
theorem fileOp_booked {op : FileOp} {w w' : FileWorld} {rc : ℤ} (hledger : LedgerInv w)
    (h : TapeProgram.Returns (op.exec cfg.libc) w rc w') : CallBooked op w rc w' :=
  h.spec (fileOp_exec_booked cfg.libc op hledger)

theorem FileRan.booked {bytes : List UInt8} {synchronised : Bool} {w w' : FileWorld} {rc : ℤ}
    (h : FileRan cfg bytes synchronised w rc w') (hledger : LedgerInv w) :
    LedgerInv w' ∧ w.trace <+: w'.trace ∧
      (cfg.outFile → rc = 0 → synchronised = true → FileCovered w') := by
  unfold FileRan at h
  split at h
  · obtain ⟨op, hop, hreturns⟩ := h
    have hbooked := fileOp_booked hledger hreturns
    refine ⟨hbooked.booked.inv, hbooked.booked.grown, fun _ hzero hsync => ?_⟩
    exact (hbooked.synced hzero (hop.synchronises.trans hsync)).covered hbooked.booked.inv
  · rename_i hout
    rw [h.2]
    exact ⟨hledger, List.prefix_rfl, fun hout' => absurd hout' hout⟩

/-- The sections keep the ledger, and it grows. -/
theorem SinksReached.ledger (h : SinksReached cfg start es w) (hledger : LedgerInv start.file) :
    LedgerInv w.file ∧ start.file.trace <+: w.file.trace := by
  induction h with
  | start => exact ⟨hledger, List.prefix_rfl⟩
  | emit _ hran ih =>
    obtain ⟨hafter, hgrown, -⟩ := hran.file.booked ih.1
    exact ⟨hafter, ih.2.trans hgrown⟩
  | file _ _ hreturns ih =>
    have hbooked := fileOp_booked ih.1 hreturns
    exact ⟨hbooked.booked.inv, ih.2.trans hbooked.booked.grown⟩

/-- A section that has to synchronise the file covers everything, if one of its records is not
counted as failed. -/
theorem EmissionRan.covered {r : SectionResults} (h : EmissionRan cfg e r)
    (hledger : LedgerInv e.before.file) (hout : cfg.outFile)
    (hsync : e.synchronised cfg = true) {i : ℕ}
    (hi : e.failed[i]? = some false) : FileCovered e.after.file := by
  rw [h.failed, List.getElem?_map] at hi
  obtain ⟨rc, -, hgood⟩ := Option.map_eq_some_iff.mp hi
  rw [decide_eq_false_iff_not, not_or, not_or, not_not, not_not] at hgood
  exact (h.file.booked hledger).2.2 hout hgood.2.1 hsync

end Ledger

section Durability

/-- A flush that returns 0 leaves everything covered that was written for the records it has waited
for. -/
theorem flush_durable {P : Platform} {requested : ℕ} {l : QueueLayout}
    (hinit : loggerQueueInit P requested = some l) (hslot : loggerQueueInlineText ≤ P.slotSize)
    (wraps : Bool) (hcfg : cfg.geometry = l.geometry hinit wraps) (hasync : cfg.asyncMode)
    (hout : cfg.outFile) (hstart : SinksOk sinks) (hfile : FileManaged sinks.file)
    (h : InstReachable cfg (fun s _ _ _ => Fresh cfg.geometry s.ring) level sinks S)
    {r : FlushReceipt} (hr : r ∈ S.shared.history.flushes) (hzero : r.rc = 0) :
    ∃ look, r.look = some look ∧ FileCovered look.after ∧
      ∀ e ∈ r.waited, e.after.file.trace <+: look.after.trace := by
  have hs : AccountInv True cfg sinks S.shared :=
    h.accounts_recent hinit hslot wraps hcfg hstart
  obtain ⟨look, hlook, -, hsynced⟩ := (hs.flushes r hr trivial hasync hzero).look
  obtain ⟨-, ⟨es, w, hreached, hw, hmem⟩, hreturns⟩ := hsynced hout
  have hledger : LedgerInv look.before := hw ▸ (hreached.ledger hfile.inv).1
  have hbooked := fileOp_booked hledger hreturns
  refine ⟨look, hlook, (hbooked.synced rfl rfl).covered hbooked.booked.inv, fun e he => ?_⟩
  obtain ⟨es', results, rest, hbefore, hran, hafter⟩ := hreached.split (hmem e he)
  have hsection := hran.file.booked (hbefore.ledger hfile.inv).1
  have hgrown := (hafter.ledger hsection.1).2
  rw [hw] at hgrown
  exact hgrown.trans hbooked.booked.grown

theorem flush_durable_flushed : ∃ S : System Inst InstReply InstLabel InstThread,
    ∃ r ∈ S.shared.history.flushes, r.waited.length = 1 ∧ ∃ look, r.look = some look ∧
      FileCovered look.after ∧ ∀ e ∈ r.waited, e.after.file.trace <+: look.after.trace := by
  obtain ⟨S, hS⟩ := flushRun_flushed
  obtain ⟨r, hr, hzero, -, hwaited⟩ := hS.receipt
  exact ⟨S, r, hr, hwaited, flush_durable loggerQueueInit_two (by decide) false rfl rfl rfl
    sampleSinks_ok managedFile_managed hS.reached hr hzero⟩

end Durability

end CLogger.Instance
