import Ivykis.Basic
import Ivykis.Kit.Lts

/-!
# Moving data between descriptors (`iv_fd_pump.c`)

A pump reads from one descriptor into a buffer and writes from the buffer to another descriptor.
The buffer is memory, or the inside of a pipe where `splice` is available. A pump has a buffer only
while there is something in it; buffers that are not in use are kept in a cache of the thread.
-/

namespace Ivykis

/-- `BUF_SIZE`. -/
def bufSize : ℕ := 4096

/-- `MAX_CACHED_BUFS`. -/
def maxCachedBufs : ℤ := 20

/-- `struct iv_fd_pump_buf`: memory of `BUF_SIZE` bytes, or a pipe and what is in it. The address is
a number that `malloc` does not give out twice. -/
structure PumpBuf where
  addr : ℕ
  buf  : ℕ → UInt8
  pipe : List UInt8

/-- What the kernel answers to a `read` or `splice` from the input. -/
inductive InAnswer where
  /-- There are these bytes; the call takes as many of them as it asks for. -/
  | data (b : UInt8) (bs : List UInt8)
  /-- The end of the file. -/
  | eof
  | eagain
  | eintr
  /-- Another error. -/
  | failed
  deriving DecidableEq, Repr

/-- What the kernel answers to a `write` or `splice` to the output. -/
inductive OutAnswer where
  /-- There is room for `n` bytes; the call transfers as many of them as it has. -/
  | room (n : ℕ)
  | eagain
  | eintr
  | failed
  deriving DecidableEq, Repr

/-- What the kernel answers during one call of `iv_fd_pump_pump`. -/
structure PumpAnswers where
  /-- `malloc`, and `pipe` if it is called, succeed. -/
  alloc    : Bool
  input    : List InAnswer
  /-- The value of `bytes` after `FIONREAD`. -/
  fionread : ℤ
  output   : List OutAnswer

/-- What a pump has done. -/
inductive PumpCall where
  /-- A `read` or `splice` from the input for `len` bytes, and the answer. -/
  | input (len : ℕ) (answer : InAnswer)
  /-- Bytes transferred to the output. -/
  | output (bytes : List UInt8)
  /-- `shutdown(ip->to_fd, SHUT_WR)`. -/
  | shutdown
  | setBands (pollin pollout : Bool)
  deriving DecidableEq, Repr

/-- `struct iv_fd_pump`, and what it has done since `iv_fd_pump_init`. -/
structure FdPump where
  /-- `flags & IV_FD_PUMP_FLAG_RELAY_EOF`. -/
  relayEof : Bool
  buf      : Option PumpBuf
  bytes    : ℕ
  full     : Bool
  sawFin   : ℕ
  log      : List PumpCall

/-- `struct iv_fd_pump_thr_info`, and the heap. -/
structure PumpThread where
  numBufs : ℤ
  bufs    : List PumpBuf
  /-- The number of buffers allocated. -/
  mallocs : ℕ
  /-- What has been freed, in order. -/
  freed   : List ℕ
  /-- What is in the memory that `malloc` returns. -/
  junk    : ℕ → ℕ → UInt8

/-! ### Buffers -/

/-- `buf_alloc`. -/
def bufAlloc (ti : PumpThread) (alloc : Bool) : Option PumpBuf × PumpThread :=
  if alloc then
    (some ⟨ti.mallocs, ti.junk ti.mallocs, []⟩, { ti with mallocs := ti.mallocs + 1 })
  else (none, ti)

/-- `__buf_free`. -/
def bufFree (ti : PumpThread) (b : PumpBuf) : Except Fault PumpThread :=
  if b.addr < ti.mallocs ∧ b.addr ∉ ti.freed then .ok { ti with freed := ti.freed ++ [b.addr] }
  else .error .invalidFree

/-- `buf_put`. -/
def bufPut (splice : Bool) (ti : PumpThread) (b : PumpBuf) (bytes : ℕ) : Except Fault PumpThread :=
  if splice ∧ bytes ≠ 0 then bufFree ti b
  else if ti.numBufs < maxCachedBufs then
    .ok { ti with numBufs := ti.numBufs + 1, bufs := b :: ti.bufs }
  else bufFree ti b

/-- `__buf_dequeue`. -/
def bufDequeue (ti : PumpThread) : Option (PumpBuf × PumpThread) :=
  match ti.bufs with
  | b :: bufs => some (b, { ti with numBufs := ti.numBufs - 1, bufs := bufs })
  | []        => none

/-- `buf_get`. -/
def bufGet (ti : PumpThread) (alloc : Bool) : Option PumpBuf × PumpThread :=
  match bufDequeue ti with
  | some (b, ti) => (some b, ti)
  | none         => bufAlloc ti alloc

/-- The `while` loop of `buf_purge`. -/
def bufPurgeLoop : ℕ → PumpThread → Except Fault PumpThread
  | 0, _      => .error .stuck
  | n + 1, ti =>
    match bufDequeue ti with
    | none         => .ok ti
    | some (b, ti) => do
      let ti ← bufFree ti b
      bufPurgeLoop n ti

/-- `buf_purge`. -/
def bufPurge (ti : PumpThread) : Except Fault PumpThread :=
  bufPurgeLoop (ti.bufs.length + 1) ti

/-- `iv_fd_pump_tls_init_thread`. -/
def ivFdPumpTlsInitThread (junk : ℕ → ℕ → UInt8) : PumpThread := ⟨0, [], 0, [], junk⟩

/-- `iv_fd_pump_tls_deinit_thread`. -/
def ivFdPumpTlsDeinitThread (ti : PumpThread) : Except Fault PumpThread := bufPurge ti

/-- `check_splice_available`, where the two allocations succeed or not, and `splice` between the
pipes fails with `EAGAIN` or not. The new value of `splice_available` is returned. -/
def checkSpliceAvailable (ti : PumpThread) (alloc₀ alloc₁ eagain : Bool) :
    Except Fault (Bool × PumpThread) :=
  match bufAlloc ti alloc₀ with
  | (none, ti)    => .ok (false, ti)
  | (some b₀, ti) =>
    match bufAlloc ti alloc₁ with
    | (none, ti) => do
      let ti ← bufFree ti b₀
      .ok (false, ti)
    | (some b₁, ti) =>
      if eagain then do
        let ti ← bufPut true ti b₁ 0
        let ti ← bufPut true ti b₀ 0
        .ok (true, ti)
      else do
        let ti ← bufFree ti b₀
        let ti ← bufFree ti b₁
        .ok (false, ti)

/-- `read` into `buf->u.buf + bytes`. -/
def PumpBuf.read (b : PumpBuf) (bytes : ℕ) (chunk : List UInt8) : PumpBuf :=
  { b with buf := fun j =>
      if bytes ≤ j ∧ j < bytes + chunk.length then chunk.getD (j - bytes) 0 else b.buf j }

/-- `memmove(buf->u.buf, buf->u.buf + n, bytes)`. -/
def PumpBuf.memmove (b : PumpBuf) (n bytes : ℕ) : PumpBuf :=
  { b with buf := fun j => if j < bytes then b.buf (j + n) else b.buf j }

/-! ### Pumps -/

/-- `iv_fd_pump_init`, when `splice_available` has been determined. -/
def ivFdPumpInit (relayEof : Bool) : FdPump :=
  ⟨relayEof, none, 0, false, 0, [.setBands true false]⟩

/-- The `do` loop of `iv_fd_pump_try_input`. -/
def inputLoop (len : ℕ) : List PumpCall → List InAnswer →
    Except Fault (InAnswer × List PumpCall)
  | _, []          => .error .stuck
  | log, .eintr :: as => inputLoop len (log ++ [.input len .eintr]) as
  | log, a :: _    => .ok (a, log ++ [.input len a])

/-- The `do` loop of `iv_fd_pump_try_output`. -/
def outputLoop : List OutAnswer → Except Fault OutAnswer
  | []           => .error .stuck
  | .eintr :: as => outputLoop as
  | a :: _       => .ok a

/-- The end of the file has been seen, and nothing is left to be written. -/
def FdPump.done (ip : FdPump) : FdPump :=
  { ip with sawFin := 2, log := ip.log ++ if ip.relayEof then [.shutdown] else [] }

/-- What `iv_fd_pump_try_input` does when the call has returned `0`. -/
def FdPump.gotEof (ip : FdPump) : FdPump :=
  if ip.bytes = 0 then { ip with sawFin := 1 }.done else { ip with sawFin := 1 }

/-- What `iv_fd_pump_try_input` does when the call has returned these bytes. -/
def FdPump.gotData (splice : Bool) (ip : FdPump) (b : PumpBuf) (chunk : List UInt8) : FdPump :=
  { ip with
    buf   := some (if splice then { b with pipe := b.pipe ++ chunk } else b.read ip.bytes chunk)
    bytes := ip.bytes + chunk.length
    full  := ip.full || (!splice && decide (ip.bytes + chunk.length = bufSize)) }

/-- The number of bytes that `iv_fd_pump_try_input` asks for. -/
def inputLen (splice : Bool) (ip : FdPump) : ℕ :=
  if splice then 1048576 else bufSize - ip.bytes

/-- `iv_fd_pump_try_input`, when the pump has the buffer `b`. -/
def tryInputInto (splice : Bool) (ip : FdPump) (b : PumpBuf) (ans : PumpAnswers) :
    Except Fault (ℤ × FdPump) := do
  let ip := { ip with buf := some b }
  let len := inputLen splice ip
  let (a, log) ← inputLoop len ip.log ans.input
  let ip := { ip with log := log }
  match a with
  | .data x xs =>
    let chunk := (x :: xs).take len
    .ok (0, if chunk = [] then ip.gotEof else ip.gotData splice b chunk)
  | .eof => .ok (0, ip.gotEof)
  | .eagain =>
    .ok (0, if splice ∧ ip.bytes ≠ 0 ∧ 0 < ans.fionread then { ip with full := true } else ip)
  | _ => .ok (-1, ip)

/-- `iv_fd_pump_try_input`. -/
def ivFdPumpTryInput (splice : Bool) (ti : PumpThread) (ip : FdPump) (ans : PumpAnswers) :
    Except Fault (ℤ × PumpThread × FdPump) :=
  match ip.buf with
  | some b => do
    let (ret, ip) ← tryInputInto splice ip b ans
    .ok (ret, ti, ip)
  | none =>
    match bufGet ti ans.alloc with
    | (none, ti) => .ok (-1, ti, ip)
    | (some b, ti) => do
      let (ret, ip) ← tryInputInto splice ip b ans
      .ok (ret, ti, ip)

/-- What is at the front of the buffer. -/
def PumpBuf.front (splice : Bool) (b : PumpBuf) (n : ℕ) : List UInt8 :=
  if splice then b.pipe.take n else (List.range n).map b.buf

/-- Bytes that have been transferred leave the buffer. -/
def FdPump.advance (splice : Bool) (ip : FdPump) (b : PumpBuf) (out : List UInt8) : FdPump :=
  { ip with
    full  := false
    bytes := ip.bytes - out.length
    buf   := some (if splice then { b with pipe := b.pipe.drop out.length }
      else b.memmove out.length (ip.bytes - out.length))
    log   := ip.log ++ [.output out] }

/-- What `iv_fd_pump_try_output` does when the call has transferred these bytes. -/
def FdPump.wrote (splice : Bool) (ip : FdPump) (b : PumpBuf) (out : List UInt8) : FdPump :=
  let ip := ip.advance splice b out
  if ip.bytes = 0 ∧ ip.sawFin = 1 then ip.done else ip

/-- `iv_fd_pump_try_output`. -/
def ivFdPumpTryOutput (splice : Bool) (ip : FdPump) (ans : PumpAnswers) :
    Except Fault (ℤ × FdPump) :=
  match ip.buf with
  | none => .error .invalidAccess
  | some b => do
    match ← outputLoop ans.output with
    | .room n =>
      let out := b.front splice (min n ip.bytes)
      .ok (if out = [] then (-1, ip) else (0, ip.wrote splice b out))
    | .eagain => .ok (0, ip)
    | _ => .ok (-1, ip)

/-- The `switch` at the end of `__iv_fd_pump_pump`. -/
def pumpBands (ip : FdPump) : Except Fault (ℤ × FdPump) :=
  match ip.sawFin with
  | 0 => .ok (1, { ip with log := ip.log ++ [.setBands (!ip.full) (decide (ip.bytes ≠ 0))] })
  | 1 => .ok (1, { ip with log := ip.log ++ [.setBands false true] })
  | 2 => .ok (0, { ip with log := ip.log ++ [.setBands false false] })
  | _ => .error (.fatal "iv_fd_pump_pump: saw_fin == %d")

/-- The first call in `__iv_fd_pump_pump`. -/
def pumpInput (splice : Bool) (ti : PumpThread) (ip : FdPump) (ans : PumpAnswers) :
    Except Fault (ℤ × PumpThread × FdPump) :=
  if ip.full = false ∧ ip.sawFin = 0 then ivFdPumpTryInput splice ti ip ans else .ok (0, ti, ip)

/-- The second call in `__iv_fd_pump_pump`. -/
def pumpOutput (splice : Bool) (ip : FdPump) (ans : PumpAnswers) : Except Fault (ℤ × FdPump) :=
  if ip.bytes ≠ 0 then ivFdPumpTryOutput splice ip ans else .ok (0, ip)

/-- `__iv_fd_pump_pump`. -/
def fdPumpPump (splice : Bool) (ti : PumpThread) (ip : FdPump) (ans : PumpAnswers) :
    Except Fault (ℤ × PumpThread × FdPump) := do
  let (ret, ti, ip) ← pumpInput splice ti ip ans
  if ret ≠ 0 then .ok (-1, ti, ip)
  else
    let (ret, ip) ← pumpOutput splice ip ans
    if ret ≠ 0 then .ok (-1, ti, ip)
    else
      let (ret, ip) ← pumpBands ip
      .ok (ret, ti, ip)

/-- The buffer of a pump goes to the cache, or is freed. -/
def releaseBuf (splice : Bool) (ti : PumpThread) (ip : FdPump) :
    Except Fault (PumpThread × FdPump) :=
  match ip.buf with
  | none   => .ok (ti, ip)
  | some b => do
    let ti ← bufPut splice ti b ip.bytes
    .ok (ti, { ip with buf := none })

/-- `iv_fd_pump_pump`. -/
def ivFdPumpPump (splice : Bool) (ti : PumpThread) (ip : FdPump) (ans : PumpAnswers) :
    Except Fault (ℤ × PumpThread × FdPump) := do
  let (ret, ti, ip) ← fdPumpPump splice ti ip ans
  if ret < 0 ∨ ip.bytes = 0 then
    let (ti, ip) ← releaseBuf splice ti ip
    .ok (ret, ti, ip)
  else .ok (ret, ti, ip)

/-- `iv_fd_pump_destroy`. -/
def ivFdPumpDestroy (splice : Bool) (ti : PumpThread) (ip : FdPump) :
    Except Fault (PumpThread × FdPump) :=
  releaseBuf splice ti
    (if ip.sawFin ≠ 2 then { ip with log := ip.log ++ [.setBands false false] } else ip)

/-! ### Runs -/

/-- The address of a `struct iv_fd_pump`. -/
abbrev PumpPtr := ℕ

/-- Where a pump is between its `iv_fd_pump_init` and its `iv_fd_pump_destroy`. -/
inductive PumpPhase where
  | unused
  | live
  /-- `iv_fd_pump_pump` has returned `-1`. -/
  | failed
  deriving DecidableEq, Repr

/-- A thread and its pumps. -/
structure PumpSystem where
  ti    : PumpThread
  pump  : PumpPtr → FdPump
  phase : PumpPtr → PumpPhase

/-- What the user does. -/
inductive PumpLabel where
  | init (i : PumpPtr) (relayEof : Bool)
  | pump (i : PumpPtr) (ans : PumpAnswers)
  | destroy (i : PumpPtr)

def PumpSystem.set (s : PumpSystem) (i : PumpPtr) (ti : PumpThread) (ip : FdPump)
    (phase : PumpPhase) : PumpSystem :=
  ⟨ti, Function.update s.pump i ip, Function.update s.phase i phase⟩

/-- A pump that has failed is only destroyed. -/
def pumpStep (splice : Bool) (s : PumpSystem) : PumpLabel → Option PumpSystem
  | .init i relayEof =>
    if s.phase i = .unused then some (s.set i s.ti (ivFdPumpInit relayEof) .live) else none
  | .pump i ans =>
    if s.phase i = .live then
      (ivFdPumpPump splice s.ti (s.pump i) ans).toOption.map fun (ret, ti, ip) =>
        s.set i ti ip (if ret < 0 then .failed else .live)
    else none
  | .destroy i =>
    if s.phase i = .unused then none
    else (ivFdPumpDestroy splice s.ti (s.pump i)).toOption.map fun (ti, ip) =>
      s.set i ti ip .unused

/-- A thread with any number of pumps, from the time that `splice_available` is determined. -/
def pumpLtsFrom (splice : Bool) (ti : PumpThread) : Kit.Lts PumpSystem PumpLabel where
  init := ⟨ti, fun _ => ⟨false, none, 0, false, 0, []⟩, fun _ => .unused⟩
  step := pumpStep splice

/-- A thread with any number of pumps. -/
def pumpLts (splice : Bool) (junk : ℕ → ℕ → UInt8) : Kit.Lts PumpSystem PumpLabel :=
  pumpLtsFrom splice (ivFdPumpTlsInitThread junk)

end Ivykis
