import EmbassyNina.Exchange.Bracket
import EmbassyNina.Exchange.Senders

/-!
# Exchange/Totality — every operation with bounded loops returns

No operation panics, since each is made of exchanges; and all its loops being bounded, but for the
reads and the wait for an association, it is never cut off.  So whatever pins, bus, chip and clock
answer, it returns (`Op.total`), and so does every sequence of such operations (`Op.returns`).
-/

namespace EmbassyNina

open Machinery Prog

variable {E : Type} {α β : Type}

/-- A program that never panics and is never cut off returns. -/
theorem ExchangesTo.total {Q : α → Prop} {p : Prog (halSig E) α} (hp : ExchangesTo Q p)
    (h : p.Fuelled) : p.Total := by
  have key : ∀ q : Prog (halSig E) α, q.Fuelled →
      (∀ tr w, Steps q tr (.halt w) → w ≠ .panic) → q.Total := by
    intro q hq hsteps
    induction q with
    | ret a => trivial
    | halt w =>
      cases w with
      | panic => exact absurd rfl (hsteps [] .panic (.refl _))
      | fuel => exact absurd rfl hq
    | ask e k ih =>
      exact fun r => ih r (hq r) fun tr w hw => hsteps (⟨e, r⟩ :: tr) w (.ask r hw)
  exact key p h fun tr w hw hpanic => hp.ne_panic hw (congrArg _ hpanic)

/-! ## Programs that are never cut off -/

/-- The function on a buffer is never cut off. -/
def FuelledB (x : BufM E α) : Prop := ∀ out, (x.run out).Fuelled

namespace Fuelled

theorem of_total {p : Prog (halSig E) α} (hp : p.Total) : p.Fuelled := by
  induction p with
  | ret a => trivial
  | halt w => exact hp.elim
  | ask e k ih => exact fun r => ih r (hp r)

theorem bindN {x : Nina E α} {f : α → Nina E β} (hx : x.run.Fuelled) (hf : ∀ a, (f a).run.Fuelled) :
    (x >>= f).run.Fuelled := by
  rw [run_bind_eq]
  exact hx.bind fun
    | .ok a => hf a
    | .error _ => trivial

theorem pureN (a : α) : (pure a : Nina E α).run.Fuelled := trivial

theorem throwN (e : Error E) : (throw e : Nina E α).run.Fuelled := trivial

theorem attemptN {x : Nina E α} (hx : x.run.Fuelled) : (attempt x).run.Fuelled :=
  hx.bind fun _ => trivial

theorem repeatN {body : Nina E (Option α)} {after : Nina E α} (hb : body.run.Fuelled)
    (ha : after.run.Fuelled) (n : ℕ) : (repeatFor n body after).run.Fuelled := by
  induction n with
  | zero => exact ha
  | succ n ih => exact bindN hb fun
      | some a => trivial
      | none => ih

theorem lockedN {x : Nina E α} (hx : x.run.Fuelled) : (Nina.locked x).run.Fuelled :=
  fun _ => hx.bind fun _ _ => trivial

theorem timerN (ms : ℕ) : (Nina.timer (E := E) ms).run.Fuelled := fun _ => trivial

theorem failIfN (c : Prop) [Decidable c] (e : Error E) : (Nina.failIf c e).run.Fuelled := by
  unfold Nina.failIf
  split <;> trivial

theorem dropN {x : Nina E α} (hx : x.run.Fuelled) : x.drop.Fuelled := hx.bind fun _ => trivial

theorem pinN {p : Prog (halSig E) (Except Unit Unit)} (hp : p.Fuelled) :
    (Nina.ofPin p).run.Fuelled := hp.bind fun
  | .ok _ => trivial
  | .error _ => trivial

theorem ofSelected {fail : Error E → β} {body : Prog (halSig E) β} (hb : body.Fuelled) :
    (selected fail body).Fuelled := fun
  | .error _ => trivial
  | .ok _ => fun
    | .error _ => trivial
    | .ok _ => fun _ => hb.bind fun _ _ => trivial

theorem ofWithBuf {x : BufM E α} (hx : FuelledB x) (n : ℕ) : (withBuf n x).run.Fuelled :=
  (hx _).bind fun
    | (.ok _, _) => trivial
    | (.error _, _) => trivial

end Fuelled

/-! ## Receivers -/

theorem fuelledB_bind {x : BufM E α} {f : α → BufM E β} (hx : FuelledB x)
    (hf : ∀ a, FuelledB (f a)) : FuelledB (x >>= f) := carried_fuelled.bind hx hf

theorem fuelledB_lift {x : Nina E α} (hx : x.run.Fuelled) : FuelledB (BufM.lift x) :=
  fun _ => hx.bind fun _ => trivial

theorem fuelledB_getIdx (i : ℕ) : FuelledB (BufM.getIdx (E := E) i) := fun out => by
  change (if i < out.length then _ else panicked : Prog (halSig E) _).Fuelled
  split
  · trivial
  · exact Halt.noConfusion

theorem fuelledB_sliceTo (i : ℕ) : FuelledB (BufM.sliceTo (E := E) i) := fun out => by
  change (if i ≤ out.length then _ else panicked : Prog (halSig E) _).Fuelled
  split
  · trivial
  · exact Halt.noConfusion

namespace Carried

variable {P : (α : Type) → BufM E α → Prop} (C : Carried P)

include C

theorem recvCmdOneParam16Inner (cmd : UInt8) : P _ (recvCmdOneParam16Inner cmd) :=
  C.opened (fun _ => C.bind (C.failIf _ _) fun _ => C.bind (C.transfer 2) fun _ => C.bind C.len
    fun _ => C.bind (C.failIf _ _) fun _ => C.bind (C.fillSlots _ _) fun _ => C.bind C.expectEnd
    fun _ => C.pure _) cmd dummy 2

theorem recvParams (k written : ℕ) : P _ (recvParams k written) := by
  induction k generalizing written with
  | zero => exact C.pure _
  | succ k ih =>
    exact C.bind (C.transfer 1) fun _ => C.bind C.len fun _ => C.bind (C.failIf _ _) fun _ =>
      C.bind (C.setIdx _ _) fun _ => C.bind (C.fillSlots _ _) fun _ => ih _

theorem recvCmdIntoInner (cmd : UInt8) : P _ (recvCmdIntoInner cmd) :=
  C.opened (fun _ => C.bind (C.recvParams _ _) fun _ => C.bind C.expectEnd fun _ => C.pure _)
    cmd dummy 2

end Carried

theorem fuelledB_received {x : BufM E α} (hx : FuelledB x) : FuelledB (received x) :=
  fun out => by
    rw [received_run]
    exact Fuelled.ofSelected (hx out)

theorem fuelledB_recvCmdOneParam (cmd : UInt8) : FuelledB (recvCmdOneParam (E := E) cmd) :=
  fuelledB_received (carried_fuelled.recvCmdOneParamInner cmd)

theorem fuelledB_recvCmdOneParam16 (cmd : UInt8) : FuelledB (recvCmdOneParam16 (E := E) cmd) :=
  fuelledB_received (carried_fuelled.recvCmdOneParam16Inner cmd)

theorem fuelledB_recvCmdInto (cmd : UInt8) : FuelledB (recvCmdInto (E := E) cmd) :=
  fuelledB_received (carried_fuelled.recvCmdIntoInner cmd)

namespace Fuelled

/-! ## The families -/

theorem ofSendCmd (cmd : UInt8) (params : List (List UInt8)) :
    (sendCmd (E := E) cmd params).run.Fuelled := of_total (total_sendCmd cmd params)

theorem ofSendCmdMixed (cmd : UInt8) (params : List Param) :
    (sendCmdMixed (E := E) cmd params).run.Fuelled := of_total (total_sendCmdMixed cmd params)

theorem recvOne (cmd : UInt8) (n : ℕ) : (withBuf (E := E) n (recvCmdOneParam cmd)).run.Fuelled :=
  ofWithBuf (fuelledB_recvCmdOneParam cmd) n

theorem recvInto (cmd : UInt8) (n : ℕ) : (withBuf (E := E) n (recvCmdInto cmd)).run.Fuelled :=
  ofWithBuf (fuelledB_recvCmdInto cmd) n

theorem ofCommand (cmd : UInt8) (params : List (List UInt8)) (n : ℕ) :
    (Nina.command (E := E) cmd params n).run.Fuelled :=
  bindN (ofSendCmd cmd params) fun _ => recvOne cmd n

theorem ofByteCommand (cmd : UInt8) (params : List (List UInt8)) :
    (Nina.byteCommand (E := E) cmd params).run.Fuelled :=
  bindN (ofCommand cmd params 1) fun _ => trivial

theorem ofAckedCommand (cmd : UInt8) (params : List (List UInt8)) :
    (Nina.ackedCommand (E := E) cmd params).run.Fuelled :=
  bindN (ofByteCommand cmd params) fun _ => failIfN _ _

theorem ofMacCommand (cmd : UInt8) (params : List (List UInt8)) :
    (Nina.macCommand (E := E) cmd params).run.Fuelled :=
  bindN (ofCommand cmd params 8) fun _ => bindN (failIfN _ _) fun _ => trivial

theorem ofCount12 (n : ℕ) (buf : Buf) : (Nina.count12 (E := E) n buf).run.Fuelled := by
  unfold Nina.count12
  split <;> trivial

theorem ofCountCommand (cmd : UInt8) (params : List (List UInt8)) :
    (Nina.countCommand (E := E) cmd params).run.Fuelled :=
  bindN (ofCommand cmd params 4) fun _ => ofCount12 _ _

end Fuelled

open Fuelled

/-! ## Operations -/

/-- The operations all of whose loops are bounded: all but those that wait for an association or for
bytes to read. -/
def Op.Bounded : Op → Prop
  | .connect .. | .waitForConnected .. | .tcpSocketRead .. | .socketRead .. => False
  | _ => True

namespace Nina

theorem fuelled_disconnect : (disconnect (E := E)).run.Fuelled :=
  bindN (ofByteCommand _ _) fun _ => trivial

theorem fuelled_init : (init (E := E)).run.Fuelled :=
  bindN (pinN fun _ => trivial) fun _ => bindN (pinN fun _ => trivial) fun _ =>
    bindN (pinN fun _ => trivial) fun _ => bindN (timerN _) fun _ =>
    bindN (pinN fun _ => trivial) fun _ => bindN (timerN _) fun _ =>
    bindN (pinN fun _ => trivial) fun _ =>
    repeatN (bindN (attemptN fuelled_disconnect) fun _ => bindN (timerN _) fun _ => pureN _)
      (pureN _) 3

theorem fuelledB_getFwVersion : FuelledB (getFwVersion (E := E)) :=
  fuelledB_bind (fuelledB_lift (ofSendCmd _ _)) fun _ =>
    fuelledB_bind (fuelledB_recvCmdOneParam _) fun _ => fuelledB_bind (fuelledB_sliceTo _)
      fun slice out => by split <;> trivial

theorem fuelledB_currentSsid : FuelledB (currentSsid (E := E)) :=
  fuelledB_bind (fuelledB_lift (ofSendCmd _ _)) fun _ =>
    fuelledB_bind (fuelledB_recvCmdOneParam _) fun _ => fuelledB_sliceTo _

theorem fuelledB_scanNetworks (settleMs : ℕ) : FuelledB (scanNetworks (E := E) settleMs) :=
  fuelledB_bind (fuelledB_lift (ofSendCmd _ _)) fun _ => fuelledB_bind (fuelledB_lift (recvOne _ 1))
    fun _ => fuelledB_bind (fuelledB_lift (timerN _)) fun _ =>
    fuelledB_bind (fuelledB_lift (ofSendCmd _ _)) fun _ => fuelledB_bind (fuelledB_recvCmdInto _)
    fun _ => fuelledB_bind (fuelledB_sliceTo _) fun _ _ => trivial

theorem fuelled_getTemperature : (getTemperature (E := E)).run.Fuelled :=
  bindN (ofCommand _ _ _) fun _ => bindN (failIfN _ _) fun _ => pureN _

theorem fuelled_getCurrentRssi : (getCurrentRssi (E := E)).run.Fuelled :=
  bindN (ofCommand _ _ _) fun _ => bindN (failIfN _ _) fun _ => pureN _

theorem fuelled_scanRssi (index : UInt8) : (scanRssi (E := E) index).run.Fuelled :=
  bindN (ofCommand _ _ _) fun _ => bindN (failIfN _ _) fun _ => pureN _

theorem fuelled_networkInfo (index : UInt8) : (networkInfo (E := E) index).run.Fuelled :=
  bindN (fuelled_scanRssi index) fun _ =>
    bindN (bindN (ofByteCommand _ _) fun _ => pureN _) fun _ =>
      bindN (ofByteCommand _ _) fun _ => bindN (ofMacCommand _ _) fun _ => pureN _

theorem fuelled_analogRead (pin : UInt8) : (analogRead (E := E) pin).run.Fuelled :=
  bindN (ofCommand _ _ _) fun (n, buf) => by
    dsimp only
    split <;> trivial

theorem fuelled_dnsLookup (hostname : List UInt8) : (dnsLookup (E := E) hostname).run.Fuelled := by
  refine bindN (ofByteCommand _ _) fun _ => bindN (failIfN _ _) fun _ => repeatN ?_ (throwN _) 40
  refine bindN (timerN _) fun _ => bindN (ofSendCmd _ _) fun _ =>
    bindN (attemptN (recvOne _ 4)) fun r => ?_
  split
  · split <;> trivial
  all_goals trivial

theorem fuelled_tcpOpenSocket : (tcpOpenSocket (E := E)).run.Fuelled :=
  bindN (ofByteCommand _ _) fun _ => bindN (failIfN _ _) fun _ => trivial

/-- A start, whatever it carries. -/
theorem fuelled_start (params : List (List UInt8)) :
    (do
      sendCmd (E := E) cmdStartClientTcp params
      let _ ← withBuf 4 (recvCmdInto cmdStartClientTcp)).run.Fuelled :=
  bindN (ofSendCmd _ _) fun _ => bindN (recvInto _ 4) fun _ => trivial

theorem fuelled_tcpState (sock : Socket) : (tcpState (E := E) sock).run.Fuelled :=
  bindN (ofByteCommand _ _) fun _ => trivial

theorem fuelled_tcpAccept (sock : Socket) : (tcpAccept (E := E) sock).run.Fuelled :=
  bindN (ofCountCommand _ _) fun _ => by split <;> trivial

theorem fuelled_checkDataSent (sock : Socket) : (checkDataSent (E := E) sock).run.Fuelled :=
  repeatN (bindN (ofByteCommand _ _) fun _ => by
    split
    · trivial
    · exact bindN (timerN _) fun _ => trivial) (throwN _) 20

theorem fuelled_offerChunk (sock : Socket) (chunk : List UInt8) (n written : ℕ) :
    (offerChunk (E := E) sock chunk n written).run.Fuelled := by
  induction n generalizing written with
  | zero => trivial
  | succ n ih =>
    exact bindN (ofSendCmdMixed _ _) fun _ => bindN (recvOne _ 4) fun _ =>
      bindN (ofCount12 _ _) fun written => by
        split
        · trivial
        · exact ih written

theorem fuelled_tcpSend (sock : Socket) (data : List UInt8) :
    (tcpSend (E := E) sock data).run.Fuelled := by
  unfold tcpSend
  generalize 0 = total
  induction chunks 64 data generalizing total with
  | nil => trivial
  | cons chunk rest ih =>
    exact bindN (fuelled_offerChunk sock chunk 5 0) fun _ => bindN (failIfN _ _) fun _ =>
      bindN (fuelled_checkDataSent sock) fun _ => ih _

theorem fuelledB_tcpRecv (sock : Socket) : FuelledB (tcpRecv (E := E) sock) :=
  fuelledB_bind (fun _ => trivial) fun _ => fuelledB_bind (fuelledB_lift (ofSendCmdMixed _ _))
    fun _ => fuelledB_recvCmdOneParam16 _

theorem fuelled_tcpClose (sock : Socket) : (tcpClose (E := E) sock).run.Fuelled :=
  bindN (ofByteCommand _ _) fun _ => timerN _

theorem fuelled_tcpConnect (addr : Ipv4) (port : UInt16) :
    (tcpConnect (E := E) addr port).run.Fuelled :=
  bindN fuelled_tcpOpenSocket fun sock => bindN (fuelled_start _) fun _ =>
    repeatN (bindN (fuelled_tcpState sock) fun s => by
      split
      · trivial
      all_goals exact bindN (timerN _) fun _ => trivial)
      (bindN (attemptN (fuelled_tcpClose sock)) fun _ => throwN _) 40

theorem fuelled_udpWrite (sock : Socket) (data : List UInt8) :
    (udpWrite (E := E) sock data).run.Fuelled :=
  bindN (ofSendCmdMixed _ _) fun _ => bindN (recvOne _ 1) fun _ => failIfN _ _

theorem fuelled_udpEndPacket (sock : Socket) : (udpEndPacket (E := E) sock).run.Fuelled :=
  bindN (timerN _) fun _ => ofAckedCommand _ _

theorem fuelled_udpSend (sock : Socket) (addr : Ipv4) (port : UInt16) (data : List UInt8) :
    (udpSend (E := E) sock addr port data).run.Fuelled :=
  bindN (fuelled_start _) fun _ => bindN (timerN _) fun _ => bindN (fuelled_udpWrite sock data)
    fun _ => fuelled_udpEndPacket sock

theorem fuelled_udpRemote (sock : Socket) : (udpRemote (E := E) sock).run.Fuelled := by
  refine bindN (ofSendCmd _ _) fun _ => bindN (ofWithBuf ?_ 16) fun _ => trivial
  refine fuelledB_bind (fuelledB_recvCmdInto _) fun _ => ?_
  exact fuelledB_bind (carried_fuelled.failIf _ _) fun _ => fuelledB_bind (fuelledB_getIdx _)
    fun _ => fuelledB_bind (carried_fuelled.failIf _ _) fun _ => fuelledB_bind (fuelledB_getIdx _)
    fun _ => fuelledB_bind (fuelledB_getIdx _) fun _ => fuelledB_bind (fuelledB_getIdx _)
    fun _ => fuelledB_bind (fuelledB_getIdx _) fun _ => fuelledB_bind (fuelledB_getIdx _)
    fun _ => fuelledB_bind (carried_fuelled.failIf _ _) fun _ => fuelledB_bind (fuelledB_getIdx _)
    fun _ => fuelledB_bind (fuelledB_getIdx _) fun _ _ => trivial

theorem fuelledB_takeV4 (written cur : ℕ) : FuelledB (takeV4 (E := E) written cur) :=
  fuelledB_bind (carried_fuelled.failIf _ _) fun _ => fuelledB_bind (fuelledB_getIdx _) fun _ =>
    fuelledB_bind (carried_fuelled.failIf _ _) fun _ => fuelledB_bind (fuelledB_getIdx _) fun _ =>
    fuelledB_bind (fuelledB_getIdx _) fun _ => fuelledB_bind (fuelledB_getIdx _) fun _ =>
    fuelledB_bind (fuelledB_getIdx _) fun _ _ => trivial

theorem fuelled_ipConfig : (ipConfig (E := E)).run.Fuelled := by
  refine bindN (ofSendCmd _ _) fun _ => bindN (ofWithBuf ?_ 32) fun _ => trivial
  exact fuelledB_bind (fuelledB_recvCmdInto _) fun _ =>
    fuelledB_bind (carried_fuelled.failIf _ _) fun _ => fuelledB_bind (fuelledB_takeV4 _ _) fun _ =>
    fuelledB_bind (fuelledB_takeV4 _ _) fun _ => fuelledB_bind (fuelledB_takeV4 _ _) fun _ _ =>
    trivial

end Nina

namespace NinaStack

theorem fuelled_awaitEstablished (n : ℕ) (sock : Socket) :
    (awaitEstablished (E := E) n sock).run.Fuelled :=
  repeatN (bindN (Nina.fuelled_tcpState sock) fun s => by
    split
    · trivial
    · exact bindN (timerN _) fun _ => trivial)
    (bindN (attemptN (Nina.fuelled_tcpClose sock)) fun _ => throwN _) n

theorem fuelled_connect (mode : UInt8) (remote : SocketAddr) :
    (connect (E := E) mode remote).run.Fuelled :=
  match remote with
  | .v4 _ _ => lockedN (bindN Nina.fuelled_tcpOpenSocket fun sock =>
      bindN (Nina.fuelled_start _) fun _ => fuelled_awaitEstablished 40 sock)
  | .v6 _ => trivial

theorem fuelled_connectHostname (mode : UInt8) (hostname : List UInt8) (port : UInt16) :
    (connectHostname (E := E) mode hostname port).run.Fuelled :=
  lockedN (bindN (Nina.fuelled_dnsLookup hostname) fun _ => bindN Nina.fuelled_tcpOpenSocket
    fun sock => bindN (Nina.fuelled_start _) fun _ => fuelled_awaitEstablished 80 sock)

theorem fuelled_getHostByName (host : List UInt8) (addrType : AddrType) :
    (getHostByName (E := E) host addrType).run.Fuelled := by
  cases addrType with
  | ipv6 => trivial
  | ipv4 | either => exact lockedN (Nina.fuelled_dnsLookup host)

end NinaStack

open Nina NinaStack

/-- **No operation but a wait is cut off.** -/
theorem Op.fuelled (fuel : ℕ) {op : Op} (h : op.Bounded) : (op.prog (E := E) fuel).Fuelled := by
  cases op with
  | connect | waitForConnected | tcpSocketRead | socketRead => exact h.elim
  | init => exact dropN fuelled_init
  | getFwVersion buf => exact (fuelledB_getFwVersion buf).bind fun _ => trivial
  | scanNetworks scratch settleMs =>
    exact (fuelledB_scanNetworks settleMs scratch).bind fun _ => trivial
  | connectWpa | scanChannel | getReasonCode => exact dropN (ofByteCommand _ _)
  | macAddr | getCurrentBssid | scanBssid => exact dropN (ofMacCommand _ _)
  | currentSsid buf => exact (fuelledB_currentSsid buf).bind fun _ => trivial
  | scanRssi index => exact dropN (fuelled_scanRssi index)
  | scanEnct | getCurrentEnct | digitalRead | tcpState | status =>
    exact dropN (bindN (ofByteCommand _ _) fun _ => pureN _)
  | networkInfo index => exact dropN (fuelled_networkInfo index)
  | tcpListen | setHostname | setNetConfig | setDnsConfig | setPowerSave | pinMode | digitalWrite
  | analogWrite | startApOpen | startApWpa | udpBind => exact dropN (ofAckedCommand _ _)
  | tcpAccept sock => exact dropN (fuelled_tcpAccept sock)
  | getTemperature => exact dropN fuelled_getTemperature
  | getCurrentRssi => exact dropN fuelled_getCurrentRssi
  | analogRead pin => exact dropN (fuelled_analogRead pin)
  | disconnect => exact dropN fuelled_disconnect
  | ping => exact dropN (bindN (ofCountCommand _ _) fun _ => bindN (failIfN _ _) fun _ => pureN _)
  | dnsLookup hostname => exact dropN (fuelled_dnsLookup hostname)
  | tcpOpenSocket => exact dropN fuelled_tcpOpenSocket
  | tcpStartClient | tcpStartClientHostname | udpBeginPacket => exact dropN (fuelled_start _)
  | tcpAvail => exact dropN (ofCountCommand _ _)
  | tcpSend sock data | tcpSocketWrite sock data => exact dropN (fuelled_tcpSend sock data)
  | checkDataSent sock => exact dropN (fuelled_checkDataSent sock)
  | tcpRecv sock out => exact (fuelledB_tcpRecv sock out).bind fun _ => trivial
  | udpSend sock addr port data => exact dropN (fuelled_udpSend sock addr port data)
  | udpWrite sock data => exact dropN (fuelled_udpWrite sock data)
  | udpEndPacket sock => exact dropN (fuelled_udpEndPacket sock)
  | udpRemote sock => exact dropN (fuelled_udpRemote sock)
  | tcpClose sock | tcpSocketClose sock => exact dropN (fuelled_tcpClose sock)
  | tcpConnect addr port => exact dropN (fuelled_tcpConnect addr port)
  | ip => exact dropN (bindN fuelled_ipConfig fun _ => pureN _)
  | ipConfig => exact dropN fuelled_ipConfig
  | stackConnect mode remote => exact dropN (fuelled_connect mode remote)
  | stackConnectHostname mode hostname port =>
    exact dropN (fuelled_connectHostname mode hostname port)
  | stackGetHostByName host addrType => exact dropN (fuelled_getHostByName host addrType)
  | socketWrite sock buf => exact dropN (lockedN (fuelled_tcpSend sock buf))

theorem Op.total (fuel : ℕ) {op : Op} (h : op.Bounded) : (op.prog (E := E) fuel).Total :=
  (op.exchanges fuel).total (op.fuelled fuel h)

/-- **Every sequence of operations that do not wait returns**, whatever pins, bus, chip and clock
answer: none of them panics or hangs. -/
theorem Op.returns (fuel : ℕ) {ops : List Op} (h : ∀ op ∈ ops, op.Bounded) :
    (Op.runAll (E := E) fuel ops).Total := by
  induction ops with
  | nil => trivial
  | cons op ops ih =>
    rw [List.forall_mem_cons] at h
    exact (op.total fuel h.1).bind fun _ => ih h.2

end EmbassyNina
