import EmbassyNina.Machinery.Exec
import EmbassyNina.Wire.Proto

/-!
# Driver/Hal — what the driver asks of its hardware, its clock and its mutex

The driver's own state is only its peripherals, so a driver function is a program over the calls it
makes on them.  `Nina E α` is such a program that may fail with an `Error E`; `BufM E α` also holds
the `&mut [u8]` it was given, whose contents survive a failure.
-/

namespace EmbassyNina

open Machinery

/-- The calls on the peripherals (`embedded-hal`), the clock (`embassy-time`) and the chip mutex
(`embassy-sync`).  `ackWaitForHighOr` is the `select` of an ack wait and a timer, `busTransfer`
clocks the given bytes out in place. -/
inductive Hal
  | ackWaitForLow
  | ackWaitForHighOr (ms : ℕ)
  | csSetLow
  | csSetHigh
  | rstSetLow
  | rstSetHigh
  | bootSetLow
  | bootSetHigh
  | busWrite (bytes : List UInt8)
  | busTransfer (bytes : List UInt8)
  | timer (ms : ℕ)
  | now
  | lock
  | unlock
deriving DecidableEq, Repr

/-- The answers of a call.  A pin's error is discarded by the driver, so it carries nothing; a
transfer clocks in as many bytes as it clocks out. -/
def Hal.Ans (E : Type) : Hal → Type
  | .ackWaitForLow | .csSetLow | .csSetHigh => Except Unit Unit
  | .rstSetLow | .rstSetHigh | .bootSetLow | .bootSetHigh => Except Unit Unit
  | .busWrite _ => Except E Unit
  | .busTransfer bytes => Except E (Vector UInt8 bytes.length)
  | .now => ℕ
  | .ackWaitForHighOr _ | .timer _ | .lock | .unlock => Unit

/-- The call succeeds: no pin and no bus transfer fails. -/
def Hal.Works {E : Type} : (e : Hal) → e.Ans E → Prop
  | .ackWaitForLow, r | .csSetLow, r | .csSetHigh, r => r = .ok ()
  | .rstSetLow, r | .rstSetHigh, r | .bootSetLow, r | .bootSetHigh, r => r = .ok ()
  | .busWrite _, r => r = .ok ()
  | .busTransfer _, r => ∃ bytes, r = .ok bytes
  | _, _ => True

/-- A call's answer when all goes well and the chip has nothing to say. -/
def Hal.success {E : Type} : (e : Hal) → e.Ans E
  | .ackWaitForLow | .csSetLow | .csSetHigh => .ok ()
  | .rstSetLow | .rstSetHigh | .bootSetLow | .bootSetHigh => .ok ()
  | .busWrite _ => .ok ()
  | .busTransfer bytes => .ok (Vector.replicate bytes.length dummy)
  | .now => (0 : ℕ)
  | .ackWaitForHighOr _ | .timer _ | .lock | .unlock => ()

/-- The bytes a call clocks out, as one list for a bus call. -/
def Hal.clocked : Hal → List (List UInt8)
  | .busWrite bytes | .busTransfer bytes => [bytes]
  | _ => []

/-- The signature of the driver's calls, over an SPI error type. -/
def halSig (E : Type) : Sig := ⟨Hal, Hal.Ans E⟩

variable {E : Type}

/-- In the trace `tr` neither bus nor pins fail. -/
def Works (tr : List (Event (halSig E))) : Prop := ∀ ev ∈ tr, Hal.Works ev.eff ev.ans

/-- The environment in which all goes well and the chip says nothing. -/
def quietChip (E : Type) : Env (halSig E) Unit where
  answer _ e := (e.success, ())

theorem quietChip_works (s : Unit) (e : Hal) : Hal.Works e ((quietChip E).answer s e).1 := by
  cases e <;> first | rfl | trivial | exact ⟨_, rfl⟩

/-- An environment that never fails gives runs in which nothing does. -/
theorem works_trace {σ α : Type} {H : Env (halSig E) σ} (hH : ∀ s e, Hal.Works e (H.answer s e).1)
    (p : Prog (halSig E) α) (s : σ) : Works (H.trace p s) := by
  induction p generalizing s with
  | ret a => exact List.forall_mem_nil _
  | halt h => exact List.forall_mem_nil _
  | ask e k ih => exact List.forall_mem_cons.mpr ⟨hH s e, ih _ _⟩

/-- What the bus calls of a trace clock out, call by call. -/
def clockedOut (tr : List (Event (halSig E))) : List (List UInt8) :=
  tr.flatMap fun ev => ev.eff.clocked

/-- A driver function: it makes its calls, then returns a result or an error. -/
abbrev Nina (E : Type) := ExceptT (Error E) (Prog (halSig E))

/-- A driver function holding a caller's buffer. -/
abbrev BufM (E : Type) := ExceptT (Error E) (StateT Buf (Prog (halSig E)))

/-- One call. -/
def hal (e : Hal) : Prog (halSig E) (e.Ans E) := Prog.perform (S := halSig E) e

/-- An index or slice out of range. -/
def panicked {α : Type} : Prog (halSig E) α := .halt .panic

namespace Nina

/-- A pin call, its error mapped to `Error::Pin`. -/
def ofPin (p : Prog (halSig E) (Except Unit Unit)) : Nina E Unit :=
  ExceptT.mk (p.bind fun
    | .ok _ => .ret (.ok ())
    | .error _ => .ret (.error .pin))

/-- `bus.write(bytes).await.map_err(Error::Spi)?`. -/
def write (bytes : List UInt8) : Nina E Unit :=
  ExceptT.mk ((hal (.busWrite bytes)).bind fun r => .ret (r.mapError .spi))

/-- `Timer::after(Duration::from_millis(ms)).await`. -/
def timer (ms : ℕ) : Nina E Unit := ExceptT.lift (hal (.timer ms))

/-- `Instant::now()`, in milliseconds. -/
def now : Nina E ℕ := ExceptT.lift (hal .now)

/-- `if c { return Err(e) }`. -/
def failIf (c : Prop) [Decidable c] (e : Error E) : Nina E Unit := if c then throw e else pure ()

/-- `&buf[..n]` of a local buffer. -/
def sliceTo (buf : Buf) (n : ℕ) : Nina E (List UInt8) :=
  ExceptT.mk (if n ≤ buf.length then .ret (.ok (buf.take n)) else panicked)

/-- Runs `x` under the chip mutex; the guard is dropped on every way out of `x`. -/
def locked {α : Type} (x : Nina E α) : Nina E α :=
  ExceptT.mk ((hal .lock).bind fun _ => x.run.bind fun r => (hal .unlock).bind fun _ => .ret r)

/-- A loop cut off after its last unrolled turn. -/
def outOfFuel {α : Type} : Nina E α := ExceptT.mk (.halt .fuel)

end Nina

namespace BufM

/-- Runs on a buffer, handing back the buffer as it was left. -/
def run {α : Type} (x : BufM E α) (out : Buf) : Prog (halSig E) (Except (Error E) α × Buf) :=
  (ExceptT.run x).run out

/-- A driver function that leaves the buffer alone. -/
def lift {α : Type} (x : Nina E α) : BufM E α :=
  ExceptT.mk fun out => (ExceptT.run x).bind fun r => .ret (r, out)

/-- `bus.transfer_in_place` of `n` dummy bytes. -/
def transfer (n : ℕ) : BufM E (List UInt8) :=
  ExceptT.mk fun out => (hal (.busTransfer (List.replicate n dummy))).bind fun
    | .ok bytes => .ret (.ok bytes.toList, out)
    | .error e => .ret (.error (.spi e), out)

/-- `buf[i] = b`. -/
def setIdx (i : ℕ) (b : UInt8) : BufM E Unit :=
  ExceptT.mk fun out => if i < out.length then .ret (.ok (), out.set i b) else panicked

/-- `buf[i..i + data.len()].copy_from_slice(data)`. -/
def copyFromSlice (i : ℕ) (data : List UInt8) : BufM E Unit :=
  ExceptT.mk fun out =>
    if i + data.length ≤ out.length then
      .ret (.ok (), out.take i ++ data ++ out.drop (i + data.length))
    else panicked

/-- `buf.len()`. -/
def len : BufM E ℕ := ExceptT.mk fun out => .ret (.ok out.length, out)

/-- `buf[i]`. -/
def getIdx (i : ℕ) : BufM E UInt8 :=
  ExceptT.mk fun out => if i < out.length then .ret (.ok (out.getD i 0), out) else panicked

/-- `&buf[..n]`. -/
def sliceTo (n : ℕ) : BufM E (List UInt8) :=
  ExceptT.mk fun out => if n ≤ out.length then .ret (.ok (out.take n), out) else panicked

/-- `if c { return Err(e) }`. -/
def failIf (c : Prop) [Decidable c] (e : Error E) : BufM E Unit := lift (Nina.failIf c e)

/-- Runs `x` under the chip mutex, as `Nina.locked`. -/
def locked {α : Type} (x : BufM E α) : BufM E α :=
  ExceptT.mk fun out =>
    (hal .lock).bind fun _ => (x.run out).bind fun r => (hal .unlock).bind fun _ => .ret r

/-- A loop cut off after its last unrolled turn. -/
def outOfFuel {α : Type} : BufM E α := lift Nina.outOfFuel

end BufM

/-- `?` on a buffer: the second half runs on the buffer as the first left it. -/
def BufM.onOk {α β : Type} (f : α → BufM E β) :
    Except (Error E) α × Buf → Prog (halSig E) (Except (Error E) β × Buf)
  | (.ok a, out) => (f a).run out
  | (.error e, out) => .ret (.error e, out)

theorem BufM.run_bind {α β : Type} (x : BufM E α) (f : α → BufM E β) (out : Buf) :
    (x >>= f).run out = (x.run out).bind (BufM.onOk f) :=
  congrArg (Prog.bind (x.run out)) (funext fun (r, _) => by cases r <;> rfl)

@[simp] theorem BufM.run_pure {α : Type} (a : α) (out : Buf) :
    (pure a : BufM E α).run out = .ret (.ok a, out) := rfl

@[simp] theorem BufM.run_throw {α : Type} (e : Error E) (out : Buf) :
    (throw e : BufM E α).run out = .ret (.error e, out) := rfl

@[simp] theorem BufM.run_lift {α : Type} (x : Nina E α) (out : Buf) :
    (BufM.lift x).run out = (ExceptT.run x).bind fun r => .ret (r, out) := rfl

/-- Runs `x` on a zeroed local buffer of `n` bytes, which an error drops. -/
def withBuf {α : Type} (n : ℕ) (x : BufM E α) : Nina E (α × Buf) :=
  ExceptT.mk ((x.run (List.replicate n 0)).bind fun
    | (.ok a, buf) => .ret (.ok (a, buf))
    | (.error e, _) => .ret (.error e))

end EmbassyNina
