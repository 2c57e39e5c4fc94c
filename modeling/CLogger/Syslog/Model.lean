import CLogger.Lib.Decimal
import CLogger.Syscall

/-!
# The syslog sink

`logger_syslog.c`: one record is one datagram, sent at most once, over a connection that is renewed
no more often than the reconnect interval. The programs return 0 or a negated error number, which
the source reports as -1 with `errno`. What the sink does to its socket and which clock readings it
takes is kept as a trace of events, which no code reads.

* `loggerSyslogInit`, `loggerSyslogWrite`: the two calls.
* `monotonicMsValue`, `monotonicElapsed`: the millisecond arithmetic of `logger_time.h`, on words.
-/

namespace CLogger

open TapeProgram

/-- `logger_syslog_metrics_t`. -/
structure SyslogMetrics where
  submittedRecords : UInt64 := 0
  sentRecords : UInt64 := 0
  failedRecords : UInt64 := 0
  backpressureRecords : UInt64 := 0
  cooldownRecords : UInt64 := 0
  connectAttempts : UInt64 := 0
  connectFailures : UInt64 := 0
  reconnectSuccesses : UInt64 := 0
  sendAttempts : UInt64 := 0
  interruptedCalls : UInt64 := 0
  closeFailures : UInt64 := 0
  connected : Bool := false
  lastError : ℤ := 0
  lastCloseError : ℤ := 0
  deriving DecidableEq, Repr

/-- `struct logger_syslog`; an invalid descriptor is `none`. The process number is that of
`getpid`. -/
structure Syslog where
  fd : Option ℕ := none
  ident : CString := []
  path : CString := []
  facility : ℕ := 0
  reconnectIntervalMs : UInt32 := 0
  retryFromMs : UInt64 := 0
  retryClockPending : Bool := false
  connectionError : ℤ := 0
  pid : ℕ := 0
  metrics : SyslogMetrics := {}
  deriving DecidableEq, Repr

/-- `logger_syslog_config_t`; a null path is `none`. -/
structure SyslogConfig where
  path : Option CString
  facility : ℕ
  reconnectIntervalMs : UInt32
  /-- `logger_syslog_start_t` as the number that the caller passes. -/
  startup : ℕ
  deriving DecidableEq, Repr

/-- What became of one `send`. -/
inductive SendOutcome where
  | full | short | error (errno : ℤ)
  deriving DecidableEq, Repr

/-- What the sink does to the outside. -/
inductive SyslogEvent where
  /-- The result of `monotonic_ms`, if it has one. -/
  | reading (value : Option UInt64)
  /-- `connect_once` begins. -/
  | attempt
  | socket (fd : Option ℕ)
  | connect (fd : ℕ) (ok : Bool)
  | send (packet : List UInt8) (outcome : SendOutcome)
  /-- The association is found to be broken. -/
  | drop
  | close (fd : ℕ)
  deriving DecidableEq, Repr

/-- The sink, with what it has done so far. Every socket gets a descriptor of its own number. -/
structure SyslogWorld where
  syslog : Syslog := {}
  nextFd : ℕ := 0
  trace : List SyslogEvent := []

/-- Programs of the syslog sink. -/
abbrev SyslogProg (α : Type) := Prog SyslogWorld Answer α

/-- `SYSLOG_SEND_ATTEMPTS`. -/
def syslogSendAttempts : ℕ := 4

/-- `SYSLOG_PACKET_MAX`. -/
def syslogPacketMax : ℕ := 8192

/-- `priority`: the syslog severity of a level below `LOGGER_OFF`, which its callers have checked;
the table has no entry for the others. -/
def LoggerLevel.priority : LoggerLevel → ℕ
  | .trace => 7 | .debug => 7 | .info => 6 | .warn => 4 | .error => 3 | .fatal => 2
  | .off | .beyond _ => 0

/-- Add an event to the trace. -/
def SyslogWorld.log (w : SyslogWorld) (e : SyslogEvent) : SyslogWorld :=
  { w with trace := w.trace ++ [e] }

/-- A call that touches neither the socket nor the clock. -/
def syslogCall : SyslogProg Answer := Prog.ask fun w a => (a, w)

/-- Note an event. -/
def noteSyslog (e : SyslogEvent) : SyslogProg Unit := Prog.modify fun w => w.log e

/-- An assignment to fields of `struct logger_syslog`. -/
def setSyslog (g : Syslog → Syslog) : SyslogProg Unit :=
  Prog.modify fun w => { w with syslog := g w.syslog }

/-- An update of the metrics. -/
def countSyslog (g : SyslogMetrics → SyslogMetrics) : SyslogProg Unit :=
  setSyslog fun s => { s with metrics := g s.metrics }

/-- The current `struct logger_syslog`. -/
def getSyslog : SyslogProg Syslog := do
  let w ← Prog.get
  return w.syslog

section Clock

/-- What `monotonic_ms` makes of the answer of `clock_gettime`, in 64-bit arithmetic. -/
def monotonicMsValue (a : Answer) : Except ℤ UInt64 :=
  if !a.ok then .error a.errno
  else if a.time.sec < 0 ∨ a.time.nsec < 0 ∨ a.time.nsec ≥ 1000000000 then .error eio
  else
    let sub := UInt64.ofNat a.time.nsec.toNat / 1000000
    if UInt64.ofNat a.time.sec.toNat > (18446744073709551615 - sub) / 1000 then .error eoverflow
    else .ok (UInt64.ofNat a.time.sec.toNat * 1000 + sub)

/-- `monotonic_ms`. -/
def monotonicMs : SyslogProg (Except ℤ UInt64) := Prog.ask fun w a =>
  (monotonicMsValue a, w.log (.reading (monotonicMsValue a).toOption))

/-- `logger_monotonic_ms_before`. -/
def monotonicBefore (left right : UInt64) : Bool := left < right

/-- `logger_monotonic_ms_elapsed`. -/
def monotonicElapsed (now since : UInt64) (interval : UInt32) : Bool :=
  since ≤ now && interval.toUInt64 ≤ now - since

end Clock

/-- `backpressure`; `EWOULDBLOCK` is `EAGAIN`. -/
def backpressure (error : ℤ) : Bool := error = eagain ∨ error = enobufs ∨ error = enomem

/-- `endpoint_unavailable`. -/
def endpointUnavailable (error : ℤ) : Bool :=
  error = enoent ∨ error = econnrefused ∨ error = econnreset ∨ error = enotconn ∨
    error = eintr ∨ error = eagain

/-- `broken_association`. -/
def brokenAssociation (error : ℤ) : Bool :=
  error = econnrefused ∨ error = econnreset ∨ error = enotconn ∨ error = epipe ∨
    error = enoent ∨ error = edestaddrreq ∨ error = eio

section Descriptor

/-- `logger_fork_socket`. -/
def syslogSocket : SyslogProg (Except ℤ ℕ) := Prog.ask fun w a =>
  if !a.ok then (.error a.errno, w.log (.socket none))
  else (.ok w.nextFd, { w.log (.socket (some w.nextFd)) with nextFd := w.nextFd + 1 })

/-- `connect`. -/
def syslogConnect (fd : ℕ) : SyslogProg Answer := Prog.ask fun w a => (a, w.log (.connect fd a.ok))

/-- `logger_fd_close_status` on a valid owner, with its receipt. -/
def syslogCloseFd (fd : ℕ) : SyslogProg Unit := do
  let a ← Prog.ask fun w (a : Answer) => (a, w.log (.close fd))
  countSyslog fun m =>
    if a.ok then m else { m with closeFailures := m.closeFailures + 1, lastCloseError := a.errno }

/-- `logger_syslog_close`, which ignores what `logger_syslog_close_status` returns. -/
def loggerSyslogClose : SyslogProg Unit := do
  let s ← getSyslog
  match s.fd with
  | none => return ()
  | some fd =>
    setSyslog fun s => { s with fd := none, metrics := { s.metrics with connected := false } }
    syslogCloseFd fd

end Descriptor

/-- The error exit of `connect_once`. -/
def connectFailed (error : ℤ) (deferable : Bool) : SyslogProg (ℤ × Bool) := do
  setSyslog fun s => { s with
    connectionError := error
    metrics := { s.metrics with
      interruptedCalls := if error = eintr then s.metrics.interruptedCalls + 1
        else s.metrics.interruptedCalls
      connectFailures := s.metrics.connectFailures + 1
      lastError := error } }
  return (-error, deferable)

/-- `connect_once`: one socket and one `connect`; the result, and whether the failure is one that a
deferred start can wait for. -/
def connectOnce : SyslogProg (ℤ × Bool) := do
  noteSyslog .attempt
  countSyslog fun m => { m with connectAttempts := m.connectAttempts + 1 }
  match ← syslogSocket with
  | .error e => connectFailed e false
  | .ok fd =>
    let connect ← syslogConnect fd
    if !connect.ok then
      syslogCloseFd fd
      connectFailed connect.errno (endpointUnavailable connect.errno)
    else
      setSyslog fun s => { s with
        fd := some fd, connectionError := 0
        metrics := { s.metrics with
          connected := true
          reconnectSuccesses := if s.metrics.connectAttempts > 1
            then s.metrics.reconnectSuccesses + 1 else s.metrics.reconnectSuccesses } }
      return (0, false)

section Init

/-- `sizeof(s->path)`, that is `sizeof(sun_path)`. -/
def syslogPathSize : ℕ := 108

/-- `sizeof(s->ident)`. -/
def syslogIdentSize : ℕ := 128

/-- `"/dev/log"`. -/
def devLog : CString := [47, 100, 101, 118, 47, 108, 111, 103]

/-- `copy_path`; a relative path is put under the working directory. -/
def copyPath (path : Option CString) : SyslogProg ℤ := do
  let path := path.getD devLog
  if path.length = 0 then return -einval
  else if path.length ≥ syslogPathSize then return -enametoolong
  else if path.head? = some 47 then
    setSyslog fun s => { s with path := path }
    return 0
  else
    let a ← syslogCall
    if !a.ok then return (if a.errno = erange then -enametoolong else -a.errno)
    else
      let cwd := a.entry.getD []
      let slash := if cwd = [47] then [] else [47]
      if cwd.length + slash.length + path.length ≥ syslogPathSize then return -enametoolong
      else
        setSyslog fun s => { s with path := cwd ++ slash ++ path }
        return 0

/-- The bytes that may stand in an identifier. -/
def identByteOk (c : UInt8) : Bool := 33 ≤ c && c ≤ 126 && c ≠ 58 && c ≠ 91 && c ≠ 93

/-- `logger_syslog_init`; a null configuration is `none`. -/
def loggerSyslogInit (ident : Option CString) (config : Option SyslogConfig) : SyslogProg ℤ := do
  match config with
  | none => return -einval
  | some config =>
    setSyslog fun s => { pid := s.pid }
    if config.facility % 8 ≠ 0 ∨ config.facility > 23 * 8 ∨ config.startup > 1 ∨
        config.reconnectIntervalMs > 60000 then return -einval
    else
      setSyslog fun s => { s with
        facility := config.facility
        reconnectIntervalMs := if config.reconnectIntervalMs = 0 then 1000
          else config.reconnectIntervalMs }
      -- a null or empty identifier is "app"
      let ident := if ident.getD [] = [] then [97, 112, 112] else ident.getD []
      if ident.length ≥ syslogIdentSize then return -enametoolong
      else if !ident.all identByteOk then return -einval
      else
        setSyslog fun s => { s with ident := ident }
        let rc ← copyPath config.path
        if rc ≠ 0 then return rc
        else
          match ← monotonicMs with
          | .error e => return -e
          | .ok now =>
            setSyslog fun s => { s with retryFromMs := now }
            let connected ← connectOnce
            if connected.1 = 0 then return 0
            else if config.startup = 1 ∧ connected.2 then return 0
            else return connected.1

end Init

/-- `record_failure`. -/
def recordFailure (error : ℤ) : SyslogProg ℤ := do
  let error := if error = 0 then eio else error
  countSyslog fun m => { m with
    failedRecords := m.failedRecords + 1
    backpressureRecords :=
      if backpressure error then m.backpressureRecords + 1 else m.backpressureRecords
    lastError := error }
  return -error

/-- The `"<%u>%s[%ld]: "` in front of a record. -/
def Syslog.header (s : Syslog) (level : LoggerLevel) : List UInt8 :=
  60 :: (Decimal.atLeast 1 (s.facility ||| level.priority) ++ (62 :: (s.ident ++
    (91 :: (Decimal.atLeast 1 s.pid ++ [93, 58, 32])))))

/-- The line without its final newline. -/
def chomp (line : List UInt8) : List UInt8 :=
  if line.getLast? = some 10 then line.dropLast else line

/-- The datagram of a record. -/
def Syslog.packet (s : Syslog) (level : LoggerLevel) (line : List UInt8) : List UInt8 :=
  s.header level ++ chomp line

/-- What the datagrams of a sink depend on besides the record; a write does not change it. -/
def Syslog.identity (s : Syslog) : CString × ℕ × ℕ := (s.ident, s.facility, s.pid)

/-- `send`: the socket takes the whole datagram, or a part of it, or none. -/
def syslogSend (packet : List UInt8) : SyslogProg SendOutcome := Prog.ask fun w a =>
  let outcome : SendOutcome := if !a.ok then .error a.errno
    else if packet.length ≤ a.count then .full else .short
  (outcome, w.log (.send packet outcome))

/-- The send loop of `logger_syslog_write`; the error number, or 0 once the datagram is sent. -/
def sendAttempts (packet : List UInt8) : ℕ → SyslogProg ℤ
  | 0 => return eintr
  | n + 1 => do
    countSyslog fun m => { m with sendAttempts := m.sendAttempts + 1 }
    match ← syslogSend packet with
    | .full =>
      countSyslog fun m => { m with sentRecords := m.sentRecords + 1, lastError := 0 }
      return 0
    | .short => return eio
    | .error e =>
      let error := if e = 0 then eio else e
      if error ≠ eintr then return error
      else
        countSyslog fun m => { m with interruptedCalls := m.interruptedCalls + 1 }
        sendAttempts packet n

/-- The start of the cooldown after a connection was lost. -/
def startCooldown : SyslogProg Unit := do
  match ← monotonicMs with
  | .ok now => setSyslog fun s => { s with retryFromMs := now }
  | .error _ => setSyslog fun s => { s with retryClockPending := true }

/-- The end of `logger_syslog_write`: send, and drop a connection that is broken. -/
def sendRecord (packet : List UInt8) : SyslogProg ℤ := do
  let error ← sendAttempts packet syslogSendAttempts
  if error = 0 then return 0
  else if !brokenAssociation error then recordFailure error
  else
    noteSyslog .drop
    loggerSyslogClose
    setSyslog fun s => { s with connectionError := error }
    startCooldown
    recordFailure error

/-- The part of `logger_syslog_write` that renews a lost connection, then the send. -/
def reconnectAndSend (packet : List UInt8) : SyslogProg ℤ := do
  match ← monotonicMs with
  | .error e => recordFailure e
  | .ok now =>
    setSyslog fun s =>
      if s.retryClockPending ∨ monotonicBefore now s.retryFromMs then
        { s with retryFromMs := now, retryClockPending := false }
      else s
    let s ← getSyslog
    if !monotonicElapsed now s.retryFromMs s.reconnectIntervalMs then
      countSyslog fun m => { m with cooldownRecords := m.cooldownRecords + 1 }
      recordFailure (if s.connectionError = 0 then enotconn else s.connectionError)
    else
      setSyslog fun s => { s with retryFromMs := now }
      let connected ← connectOnce
      if connected.1 ≠ 0 then recordFailure (-connected.1) else sendRecord packet

/-- `logger_syslog_write`; a null line is `none`. -/
def loggerSyslogWrite (level : LoggerLevel) (line : Option (List UInt8)) : SyslogProg ℤ := do
  countSyslog fun m => { m with submittedRecords := m.submittedRecords + 1 }
  match line with
  | none => recordFailure einval
  | some line =>
    if LoggerLevel.off.toNat ≤ level.toNat then recordFailure einval
    else if line.length > syslogPacketMax then recordFailure emsgsize
    else
      let s ← getSyslog
      let a ← syslogCall
      if !a.ok then recordFailure (if a.errno = 0 then eilseq else a.errno)
      else if (s.header level).length ≥ syslogPacketMax then recordFailure eoverflow
      else if (chomp line).length > syslogPacketMax - (s.header level).length then
        recordFailure emsgsize
      else if s.fd.isNone then reconnectAndSend (s.packet level line)
      else sendRecord (s.packet level line)

/-! ## Sequences of calls -/

/-- A call of the owner of the sink. -/
inductive SyslogOp where
  | init (ident : Option CString) (config : Option SyslogConfig)
  | write (level : LoggerLevel) (line : Option (List UInt8))
  deriving DecidableEq, Repr

/-- What one call did. -/
structure SyslogReceipt where
  op : SyslogOp
  rc : ℤ
  /-- The datagram of the record, for a write. -/
  packet : List UInt8
  /-- The start of the cooldown before the call. -/
  retryFrom : UInt64
  events : List SyslogEvent

/-- One call. The storage passed to `logger_syslog_init` owns no descriptor, so a call of it on a
connected sink is not made. -/
def SyslogOp.exec (op : SyslogOp) : SyslogProg (Option SyslogReceipt) := do
  let w ← Prog.get
  match op with
  | .init ident config =>
    if w.syslog.fd.isSome then return none
    else
      let rc ← loggerSyslogInit ident config
      let w' ← Prog.get
      return some ⟨op, rc, [], w.syslog.retryFromMs, w'.trace.drop w.trace.length⟩
  | .write level line =>
    let rc ← loggerSyslogWrite level line
    let w' ← Prog.get
    return some ⟨op, rc, w.syslog.packet level (line.getD []), w.syslog.retryFromMs,
      w'.trace.drop w.trace.length⟩

/-- Any sequence of calls, with the receipts of those made. -/
def runSyslogOps : List SyslogOp → SyslogProg (List SyslogReceipt)
  | [] => return []
  | op :: ops => do
    let receipt ← op.exec
    let receipts ← runSyslogOps ops
    return receipt.toList ++ receipts

/-- A sink before its first call. -/
def syslogStart (pid : ℕ) : SyslogWorld := { syslog := { pid } }

end CLogger
