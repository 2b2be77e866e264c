import EmbassyNina.Driver.Hal

/-!
# Driver/Framing — the low-level framing of `driver.rs`

Two senders and three receivers, each one CS window: `sendCmd` streams a frame piece by piece,
`sendCmdMixed` packs it into a 256-byte buffer first; `recvCmdOneParam` and `recvCmdOneParam16`
read a reply of one parameter, `recvCmdInto` one of any number.
-/

namespace EmbassyNina

open Machinery

variable {E : Type}

/-- The code the framing functions repeat around their CS window: wait for the chip, select it, give
it time to raise ACK, run the body, deselect it whatever came of the body. -/
def selected {β : Type} (fail : Error E → β) (body : Prog (halSig E) β) : Prog (halSig E) β := do
  let .ok _ ← hal .ackWaitForLow | return fail .pin
  let .ok _ ← hal .csSetLow | return fail .pin
  let _ ← hal (.ackWaitForHighOr ackAfterCsMs)
  let res ← body
  let _ ← hal .csSetHigh
  return res

/-! ## Sending -/

/-- `while !total.is_multiple_of(4)`: at most three turns, and the test that ends them. -/
def padLoop : ℕ → ℕ → Nina E Unit
  | 0, _ => Nina.outOfFuel
  | n + 1, total =>
    if total % 4 = 0 then pure () else do
      Nina.write [dummy]
      padLoop n (total + 1)

def padTo4 (total : ℕ) : Nina E Unit := padLoop 4 total

/-- `for p in params`, returning the running total. -/
def writeParams : List (List UInt8) → ℕ → Nina E ℕ
  | [], total => pure total
  | p :: params, total => do
    Nina.write [UInt8.ofNat p.length]
    Nina.write p
    writeParams params (total + (1 + p.length))

/-- The `async` block of `send_cmd`. -/
def sendCmdBody (cmd : UInt8) (params : List (List UInt8)) : Nina E Unit := do
  Nina.write [startCmd, cmd &&& ~~~replyFlag, UInt8.ofNat params.length]
  let total ← writeParams params 3
  Nina.write [endCmd]
  padTo4 (total + 1)

/-- Send a command with short (8-bit length) parameters. -/
def sendCmd (cmd : UInt8) (params : List (List UInt8)) : Nina E Unit :=
  ExceptT.mk (selected .error (sendCmdBody cmd params).run)

theorem sendCmd_run (cmd : UInt8) (params : List (List UInt8)) :
    (sendCmd (E := E) cmd params).run = selected .error (sendCmdBody cmd params).run := rfl

def sendCmdNoParams (cmd : UInt8) : Nina E Unit := sendCmd cmd []

/-- `for p in params`, packing at `n` and returning the end. -/
def packParams : List Param → ℕ → BufM E ℕ
  | [], n => pure n
  | .short data :: params, n => do
    BufM.failIf (n + 1 + data.length > (← BufM.len)) .bufferTooSmall
    BufM.setIdx n (UInt8.ofNat data.length)
    BufM.copyFromSlice (n + 1) data
    packParams params (n + 1 + data.length)
  | .long data :: params, n => do
    BufM.failIf (n + 2 + data.length > (← BufM.len)) .bufferTooSmall
    BufM.copyFromSlice n (beBytes data.length)
    BufM.copyFromSlice (n + 2) data
    packParams params (n + 2 + data.length)

/-- `while !n.is_multiple_of(4)`, as in `padLoop`. -/
def packPadding : ℕ → ℕ → BufM E ℕ
  | 0, _ => BufM.outOfFuel
  | k + 1, n =>
    if n % 4 = 0 then pure n else do
      BufM.failIf (n ≥ (← BufM.len)) .bufferTooSmall
      BufM.setIdx n dummy
      packPadding k (n + 1)

/-- The part of `send_cmd_mixed` that fills `buf` and returns `n`.  Irreducible, so that no goal
about a sender is settled by filling the 256 bytes. -/
@[irreducible] def packMixed (cmd : UInt8) (params : List Param) : BufM E ℕ := do
  BufM.setIdx 0 startCmd
  BufM.setIdx 1 (cmd &&& ~~~replyFlag)
  BufM.setIdx 2 (UInt8.ofNat params.length)
  let n ← packParams params 3
  BufM.failIf (n + 1 > (← BufM.len)) .bufferTooSmall
  BufM.setIdx n endCmd
  packPadding 4 (n + 1)

/-- Send a command with mixed 8-bit / 16-bit-length parameters, as a single bus write. -/
def sendCmdMixed (cmd : UInt8) (params : List Param) : Nina E Unit := do
  let (n, buf) ← withBuf 256 (packMixed cmd params)
  ExceptT.mk (selected .error (do Nina.write (← Nina.sliceTo buf n) : Nina E Unit).run)

theorem sendCmdMixed_run (cmd : UInt8) (params : List Param) :
    (sendCmdMixed (E := E) cmd params).run = (withBuf 256 (packMixed cmd params)).run.bind
      (onOk fun nb => ExceptT.mk
        (selected .error (Nina.sliceTo nb.2 nb.1 >>= fun bytes => Nina.write bytes).run)) := by
  rw [sendCmdMixed, run_bind_eq]

/-! ## Receiving -/

/-- `for _ in 0..START_TIMEOUT_ITERS`, returning the last byte clocked in. -/
def huntStart : ℕ → UInt8 → BufM E UInt8
  | 0, byte => pure byte
  | n + 1, _ => do
    let byte ← BufM.transfer 1
    let byte := byte.headD 0
    if byte = startCmd then pure byte
    else do
      BufM.failIf (byte = errCmd) .nina
      huntStart n byte

/-- `for slot in out[i..].iter_mut().take(len)`: one transfer a slot. -/
def fillSlots : ℕ → ℕ → BufM E Unit
  | _, 0 => pure ()
  | i, len + 1 => do
    let b ← BufM.transfer 1
    BufM.setIdx i (b.headD 0)
    fillSlots (i + 1) len

/-- The trailing `END_CMD`. -/
def expectEnd : BufM E Unit := do
  let b ← BufM.transfer 1
  BufM.failIf (b.headD 0 ≠ endCmd) .framing

def recvCmdOneParamInner (cmd : UInt8) : BufM E ℕ := do
  let byte ← huntStart startTimeoutIters 0
  BufM.failIf (byte ≠ startCmd) .timeout
  let hdr ← BufM.transfer 3
  BufM.failIf (hdr.getD 0 0 ≠ cmd ||| replyFlag) .framing
  BufM.failIf (hdr.getD 1 0 ≠ 1) .framing
  let len := (hdr.getD 2 0).toNat
  BufM.failIf (len > (← BufM.len)) .bufferTooSmall
  fillSlots 0 len
  expectEnd
  return len

def recvCmdOneParam16Inner (cmd : UInt8) : BufM E ℕ := do
  let byte ← huntStart startTimeoutIters dummy
  BufM.failIf (byte ≠ startCmd) .timeout
  let hdr ← BufM.transfer 2
  BufM.failIf (hdr.getD 0 0 ≠ cmd ||| replyFlag) .framing
  BufM.failIf (hdr.getD 1 0 ≠ 1) .framing
  let lenBuf ← BufM.transfer 2
  let len := ofBeBytes (lenBuf.getD 0 0) (lenBuf.getD 1 0)
  BufM.failIf (len > (← BufM.len)) .bufferTooSmall
  fillSlots 0 len
  expectEnd
  return len

/-- `for _ in 0..num_params`, packing at `written` and returning the end. -/
def recvParams : ℕ → ℕ → BufM E ℕ
  | 0, written => pure written
  | k + 1, written => do
    let lenBuf ← BufM.transfer 1
    let len := (lenBuf.headD 0).toNat
    BufM.failIf (written + 1 + len > (← BufM.len)) .bufferTooSmall
    BufM.setIdx written (lenBuf.headD 0)
    fillSlots (written + 1) len
    recvParams k (written + 1 + len)

def recvCmdIntoInner (cmd : UInt8) : BufM E (UInt8 × ℕ) := do
  let byte ← huntStart startTimeoutIters dummy
  BufM.failIf (byte ≠ startCmd) .timeout
  let hdr ← BufM.transfer 2
  BufM.failIf (hdr.getD 0 0 ≠ cmd ||| replyFlag) .framing
  let numParams := hdr.getD 1 0
  let written ← recvParams numParams.toNat 0
  expectEnd
  return (numParams, written)

/-- A receiver's window: an error before it opens leaves the buffer as it was. -/
def received {α : Type} (inner : BufM E α) : BufM E α :=
  ExceptT.mk fun out => selected (fun e => (.error e, out)) (inner.run out)

theorem received_run {α : Type} (inner : BufM E α) (out : Buf) :
    (received inner).run out = selected (fun e => (.error e, out)) (inner.run out) := rfl

/-- Read a response of one parameter with an 8-bit length. -/
def recvCmdOneParam (cmd : UInt8) : BufM E ℕ := received (recvCmdOneParamInner cmd)

/-- Read a response of one parameter with a 16-bit big-endian length. -/
def recvCmdOneParam16 (cmd : UInt8) : BufM E ℕ := received (recvCmdOneParam16Inner cmd)

/-- Variable-param receive: packs each parameter as `[len, bytes...]`, and returns
`(num_params, total_bytes_written)`. -/
def recvCmdInto (cmd : UInt8) : BufM E (UInt8 × ℕ) := received (recvCmdIntoInner cmd)

end EmbassyNina
