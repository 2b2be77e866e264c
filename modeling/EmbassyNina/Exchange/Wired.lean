import EmbassyNina.Driver.Sockets
import EmbassyNina.Exchange.Receivers
import EmbassyNina.Exchange.Senders

/-!
# Exchange/Wired — what runs on the wires to the chip alone

Most of the driver makes calls on its pins and its bus, and on timers, but neither takes the chip
mutex nor looks at the clock.  `Wired` says so of a program: it does the same to the chip with a
clock beside it or without, and under the mutex it is one section of a task.  A CS window is wired,
whatever is sent or received in it (`Wired.selected`), and so is what is made of windows and timers.
-/

namespace EmbassyNina

open Machinery Prog

variable {E α β : Type}

/-- Any call but those on the chip mutex and a look at the clock. -/
def Hal.Wired : Hal → Prop
  | .lock | .unlock | .now => False
  | _ => True

/-- `p` runs on the wires and timers alone: it neither takes the chip mutex nor looks at the
clock. -/
abbrev Wired (p : Prog (halSig E) α) : Prop :=
  p.Does (S := halSig E) Hal.Wired fun _ => True

namespace Wired

theorem of_writes {Q : α → Prop} {p : Prog (halSig E) α}
    (h : p.Does (S := halSig E) Hal.IsWrite Q) : Wired p :=
  (h.weaken fun e he => by cases e <;> first | exact he.elim | trivial).mono fun _ _ => trivial

theorem of_reads {Q : α → Prop} {p : Prog (halSig E) α}
    (h : p.Does (S := halSig E) Hal.IsDummyTransfer Q) : Wired p :=
  (h.weaken fun e he => by cases e <;> first | exact he.elim | trivial).mono fun _ _ => trivial

/-! ## Composing -/

theorem bind {p : Prog (halSig E) α} {f : α → Prog (halSig E) β} (hp : Wired p)
    (hf : ∀ a, Wired (f a)) : Wired (p.bind f) := Does.bind hp fun a _ => hf a

theorem bindN {x : Nina E α} {f : α → Nina E β} (hx : Wired x.run)
    (hf : ∀ a, Wired (f a).run) : Wired (x >>= f).run := by
  rw [run_bind_eq]
  exact hx.bind fun
    | .ok a => hf a
    | .error _ => trivial

theorem pureN (a : α) : Wired (pure a : Nina E α).run := trivial

theorem throwN (e : Error E) : Wired (throw e : Nina E α).run := trivial

theorem timerN (ms : ℕ) : Wired (Nina.timer (E := E) ms).run := ⟨trivial, fun _ => trivial⟩

theorem failIfN (c : Prop) [Decidable c] (e : Error E) : Wired (Nina.failIf c e).run := by
  unfold Nina.failIf
  split <;> trivial

theorem attemptN {x : Nina E α} (hx : Wired x.run) : Wired (attempt x).run :=
  hx.bind fun _ => trivial

theorem repeatN {body : Nina E (Option α)} {after : Nina E α} (hb : Wired body.run)
    (ha : Wired after.run) (n : ℕ) : Wired (repeatFor n body after).run := by
  induction n with
  | zero => exact ha
  | succ n ih => exact hb.bindN fun
      | some a => trivial
      | none => ih

theorem bindB {x : BufM E α} {f : α → BufM E β} {out : Buf} (hx : Wired (x.run out))
    (hf : ∀ a out, Wired ((f a).run out)) : Wired ((x >>= f).run out) := by
  rw [BufM.run_bind]
  exact hx.bind fun
    | (.ok a, out) => hf a out
    | (.error _, _) => trivial

theorem liftB {x : Nina E α} (hx : Wired x.run) (out : Buf) : Wired ((BufM.lift x).run out) :=
  hx.bind fun _ => trivial

theorem withBuf {x : BufM E α} (hx : ∀ out, Wired (x.run out)) (n : ℕ) :
    Wired (withBuf n x).run := (hx _).bind fun
  | (.ok _, _) => trivial
  | (.error _, _) => trivial

/-! ## The two halves of an exchange -/

theorem selected {fail : Error E → α} {body : Prog (halSig E) α} (hb : Wired body) :
    Wired (selected fail body) := by
  refine ⟨trivial, fun r => ?_⟩
  rcases r with _ | _
  · trivial
  refine ⟨trivial, fun r => ?_⟩
  rcases r with _ | _
  · trivial
  exact ⟨trivial, fun _ => hb.bind fun _ => ⟨trivial, fun _ => trivial⟩⟩

theorem sendCmd (cmd : UInt8) (params : List (List UInt8)) :
    Wired (sendCmd (E := E) cmd params).run := (of_writes (does_sendCmdBody cmd params)).selected

theorem sendCmdMixed (cmd : UInt8) (params : List Param) :
    Wired (sendCmdMixed (E := E) cmd params).run := by
  rw [sendCmdMixed_run_eq]
  split
  · exact (of_writes (does_write _)).selected
  · trivial

theorem received {inner : BufM E α} {Q : ℕ → α → Prop}
    (h : ∀ n, DoesB Hal.IsDummyTransfer n (Q n) inner) (out : Buf) :
    Wired ((received inner).run out) := by
  rw [received_run]
  exact (of_reads (h _ out rfl)).selected

theorem recvCmdOneParam (cmd : UInt8) (out : Buf) :
    Wired ((recvCmdOneParam (E := E) cmd).run out) :=
  received (fun _ => doesB_recvCmdOneParamInner cmd) out

theorem recvCmdOneParam16 (cmd : UInt8) (out : Buf) :
    Wired ((recvCmdOneParam16 (E := E) cmd).run out) :=
  received (fun _ => doesB_recvCmdOneParam16Inner cmd) out

theorem recvCmdInto (cmd : UInt8) (out : Buf) : Wired ((recvCmdInto (E := E) cmd).run out) :=
  received (fun _ => doesB_recvCmdIntoInner cmd) out

theorem recvOne (cmd : UInt8) (n : ℕ) :
    Wired (EmbassyNina.withBuf (E := E) n (EmbassyNina.recvCmdOneParam cmd)).run :=
  withBuf (recvCmdOneParam cmd) n

/-! ## Whole exchanges -/

theorem byteCommand (cmd : UInt8) (params : List (List UInt8)) :
    Wired (Nina.byteCommand (E := E) cmd params).run :=
  ((sendCmd cmd params).bindN fun _ => recvOne cmd 1).bindN fun _ => trivial

theorem ackedCommand (cmd : UInt8) (params : List (List UInt8)) :
    Wired (Nina.ackedCommand (E := E) cmd params).run :=
  (byteCommand cmd params).bindN fun _ => failIfN _ _

theorem count12 (n : ℕ) (buf : Buf) : Wired (Nina.count12 (E := E) n buf).run := by
  unfold Nina.count12
  split <;> trivial

theorem countCommand (cmd : UInt8) (params : List (List UInt8)) :
    Wired (Nina.countCommand (E := E) cmd params).run :=
  ((sendCmd cmd params).bindN fun _ => recvOne cmd 4).bindN fun _ => count12 _ _

theorem commandInto (cmd : UInt8) (params : List (List UInt8)) (n : ℕ) :
    Wired (do
      EmbassyNina.sendCmd (E := E) cmd params
      let _ ← EmbassyNina.withBuf n (EmbassyNina.recvCmdInto cmd)).run :=
  (sendCmd cmd params).bindN fun _ => (withBuf (recvCmdInto cmd) n).bindN fun _ => trivial

/-! ## Operations -/

theorem tcpOpenSocket : Wired (Nina.tcpOpenSocket (E := E)).run :=
  (byteCommand _ _).bindN fun _ => (failIfN _ _).bindN fun _ => trivial

theorem tcpState (sock : Socket) : Wired (Nina.tcpState (E := E) sock).run :=
  (byteCommand _ _).bindN fun _ => trivial

theorem tcpAccept (sock : Socket) : Wired (Nina.tcpAccept (E := E) sock).run :=
  (countCommand _ _).bindN fun _ => by split <;> trivial

theorem tcpClose (sock : Socket) : Wired (Nina.tcpClose (E := E) sock).run :=
  (byteCommand _ _).bindN fun _ => timerN 100

theorem awaitEstablished (n : ℕ) (sock : Socket) :
    Wired (NinaStack.awaitEstablished (E := E) n sock).run := by
  refine repeatN ((tcpState sock).bindN fun st => ?_) ?_ n
  · split
    · trivial
    · exact (timerN 250).bindN fun _ => trivial
  · exact (tcpClose sock).attemptN.bindN fun _ => trivial

theorem connectLocked (mode : UInt8) (ip : Ipv4) (port : UInt16) :
    Wired (NinaStack.connectLocked (E := E) mode ip port).run :=
  tcpOpenSocket.bindN fun sock => (commandInto _ _ 4).bindN fun _ => awaitEstablished 40 sock

theorem dnsLookup (hostname : List UInt8) : Wired (Nina.dnsLookup (E := E) hostname).run := by
  refine (byteCommand _ _).bindN fun ack => (failIfN _ _).bindN fun _ =>
    repeatN ((timerN 100).bindN fun _ => (sendCmd _ _).bindN fun _ =>
      (recvOne _ 4).attemptN.bindN fun r => ?_) (throwN _) 40
  split
  · split <;> trivial
  all_goals trivial

theorem connectHostnameLocked (mode : UInt8) (hostname : List UInt8) (port : UInt16) :
    Wired (NinaStack.connectHostnameLocked (E := E) mode hostname port).run :=
  (dnsLookup hostname).bindN fun _ => tcpOpenSocket.bindN fun sock =>
    (commandInto _ _ 4).bindN fun _ => awaitEstablished 80 sock

theorem offerChunk (sock : Socket) (chunk : List UInt8) (k written : ℕ) :
    Wired (Nina.offerChunk (E := E) sock chunk k written).run := by
  induction k generalizing written with
  | zero => trivial
  | succ k ih =>
    refine (sendCmdMixed _ _).bindN fun _ => (recvOne _ 4).bindN fun r =>
      (count12 _ _).bindN fun written => ?_
    split
    · trivial
    · exact ih written

theorem checkDataSent (sock : Socket) : Wired (Nina.checkDataSent (E := E) sock).run := by
  refine repeatN ((byteCommand _ _).bindN fun b => ?_) (throwN _) 20
  split
  · trivial
  · exact (timerN 50).bindN fun _ => trivial

theorem sendChunks (sock : Socket) (slices : List (List UInt8)) (total : ℕ) :
    Wired (Nina.sendChunks (E := E) sock slices total).run := by
  induction slices generalizing total with
  | nil => trivial
  | cons slice slices ih =>
    exact (offerChunk sock slice 5 0).bindN fun _ => (failIfN _ _).bindN fun _ =>
      (checkDataSent sock).bindN fun _ => ih _

theorem tcpSend (sock : Socket) (data : List UInt8) : Wired (Nina.tcpSend (E := E) sock data).run :=
  sendChunks sock _ 0

theorem tcpRecv (sock : Socket) (out : Buf) : Wired ((Nina.tcpRecv (E := E) sock).run out) :=
  bindB (x := BufM.len) trivial fun _ out => bindB (liftB (sendCmdMixed _ _) out) fun _ out =>
    recvCmdOneParam16 cmdGetDatabufTcp out

theorem readLocked (sock : Socket) (out : Buf) :
    Wired ((NinaSocket.readLocked (E := E) sock).run out) := by
  refine bindB (tcpRecv sock out) fun n out => ?_
  split
  · trivial
  · refine bindB (liftB (tcpState sock) out) fun st out => ?_
    split <;> trivial

end Wired

end EmbassyNina
