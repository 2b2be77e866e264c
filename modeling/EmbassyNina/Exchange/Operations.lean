import EmbassyNina.Exchange.Shape

/-!
# Exchange/Operations — the shape of each operation

One lemma per driver function, each assembled from the functions it calls, and `Op.exchanges` over
them all.
-/

namespace EmbassyNina

open Machinery

variable {E : Type}

namespace Exchanges

/-! ## The families -/

theorem recvOne (c : UInt8) (n : ℕ) : Awaits c (withBuf (E := E) n (recvCmdOneParam c)).run :=
  .withBuf .recvCmdOneParam

theorem recvInto (c : UInt8) (n : ℕ) : Awaits c (withBuf (E := E) n (recvCmdInto c)).run :=
  .withBuf .recvCmdInto

theorem ofCommand (c : UInt8) (params : List (List UInt8)) (n : ℕ) :
    Exchanges (Nina.command (E := E) c params n).run := sendThen params (recvOne c n)

theorem ofByteCommand (c : UInt8) (params : List (List UInt8)) :
    Exchanges (Nina.byteCommand (E := E) c params).run :=
  (ofCommand c params 1).bindN fun _ => .ret trivial

theorem ofAckedCommand (c : UInt8) (params : List (List UInt8)) :
    Exchanges (Nina.ackedCommand (E := E) c params).run :=
  (ofByteCommand c params).bindN fun _ => failIfN _ _

theorem ofMacCommand (c : UInt8) (params : List (List UInt8)) :
    Exchanges (Nina.macCommand (E := E) c params).run :=
  (ofCommand c params 8).bindN fun _ => (failIfN _ _).bindN fun _ => .ret trivial

theorem ofCount12 (n : ℕ) (buf : Buf) : Exchanges (Nina.count12 (E := E) n buf).run := by
  unfold Nina.count12
  split
  · exact .ret trivial
  · exact .ret trivial
  · exact .ret trivial

theorem ofCountCommand (c : UInt8) (params : List (List UInt8)) :
    Exchanges (Nina.countCommand (E := E) c params).run :=
  (ofCommand c params 4).bindN fun _ => ofCount12 _ _

end Exchanges

namespace Nina

open Exchanges

/-! ## Operations of `Nina` -/

theorem exchanges_disconnect : Exchanges (disconnect (E := E)).run :=
  (ofByteCommand _ _).bindN fun _ => .ret trivial

theorem exchanges_init : Exchanges (init (E := E)).run := by
  have hloop : Exchanges (repeatFor (m := Nina E) 3 (do
      let _ ← attempt disconnect
      timer 300
      return none) (pure ())).run :=
    repeatN ((attemptN exchanges_disconnect).bindN fun _ => (timerN _).bindN fun _ => .ret trivial)
      (.ret trivial) 3
  exact .reset rfl (.ret trivial) fun
    | .error _ => .ret trivial
    | .ok _ => .between trivial fun
      | .error _ => .ret trivial
      | .ok _ => .between trivial fun _ => .between trivial fun
        | .error _ => .ret trivial
        | .ok _ => .between trivial fun _ => .between trivial fun
          | .error _ => .ret trivial
          | .ok _ => hloop

theorem exchanges_status : Exchanges (status (E := E)).run :=
  (ofByteCommand _ _).bindN fun _ => .ret trivial

theorem exchanges_waitForConnected (fuel timeout : ℕ) :
    Exchanges (waitForConnected (E := E) fuel timeout).run :=
  nowN.bindN fun _ => repeatN (nowN.bindN fun _ => (failIfN _ _).bindN fun _ =>
    (attemptN exchanges_status).bindN fun r => by
      split
      · exact .ret trivial
      · exact (timerN _).bindN fun _ => .ret trivial) outOfFuelN fuel

theorem exchanges_connect (fuel : ℕ) (ssid psk : List UInt8) :
    Exchanges (connect (E := E) fuel ssid psk).run :=
  repeatN ((attemptN (ofByteCommand _ _)).bindN fun _ =>
    (attemptN (exchanges_waitForConnected fuel _)).bindN fun
      | .ok _ => .ret trivial
      | .error _ => (attemptN exchanges_disconnect).bindN fun _ =>
        (timerN _).bindN fun _ => .ret trivial) (throwN _) 5

theorem exchanges_getFwVersion (n : ℕ) :
    ExchangesB n (fun _ => True) (getFwVersion (E := E)) :=
  .sendThen _ (AwaitsB.recvCmdOneParam.bind fun _ hk => .of_quiet
    ((doesB_sliceTo hk).bind fun slice _ => by split <;> exact doesB_pure trivial))

theorem exchanges_currentSsid (n : ℕ) : ExchangesB n (fun _ => True) (currentSsid (E := E)) :=
  .sendThen _ (AwaitsB.recvCmdOneParam.bind fun _ hk => fun out hout =>
    .of_quiet ((doesB_sliceTo hk out hout).mono fun _ h => ⟨h.1, fun _ _ => trivial⟩))

theorem exchanges_getTemperature : Exchanges (getTemperature (E := E)).run :=
  (ofCommand _ _ _).bindN fun _ => (failIfN _ _).bindN fun _ => .ret trivial

theorem exchanges_getCurrentRssi : Exchanges (getCurrentRssi (E := E)).run :=
  (ofCommand _ _ _).bindN fun _ => (failIfN _ _).bindN fun _ => .ret trivial

theorem exchanges_getCurrentEnct : Exchanges (getCurrentEnct (E := E)).run :=
  (ofByteCommand _ _).bindN fun _ => .ret trivial

theorem exchanges_scanNetworks (settleMs n : ℕ) :
    ExchangesB n (fun _ => True) (scanNetworks (E := E) settleMs) := by
  refine .sendThen _ ((AwaitsB.lift (recvOne _ 1)).bind fun _ _ =>
    (ExchangesB.lift (timerN _)).bind fun _ _ => .sendThen _ ?_)
  exact AwaitsB.recvCmdInto.bind fun r hr => .of_quiet
    ((doesB_sliceTo hr).bind fun _ _ => doesB_pure trivial)

theorem exchanges_scanRssi (index : UInt8) : Exchanges (scanRssi (E := E) index).run :=
  (ofCommand _ _ _).bindN fun _ => (failIfN _ _).bindN fun _ => .ret trivial

theorem exchanges_scanEnct (index : UInt8) : Exchanges (scanEnct (E := E) index).run :=
  (ofByteCommand _ _).bindN fun _ => .ret trivial

theorem exchanges_networkInfo (index : UInt8) : Exchanges (networkInfo (E := E) index).run :=
  (exchanges_scanRssi index).bindN fun _ => (exchanges_scanEnct index).bindN fun _ =>
    (ofByteCommand _ _).bindN fun _ => (ofMacCommand _ _).bindN fun _ => .ret trivial

theorem exchanges_digitalRead (pin : UInt8) : Exchanges (digitalRead (E := E) pin).run :=
  (ofByteCommand _ _).bindN fun _ => .ret trivial

theorem exchanges_analogRead (pin : UInt8) : Exchanges (analogRead (E := E) pin).run :=
  (ofCommand _ _ _).bindN fun (n, buf) => by
    dsimp only
    split <;> exact .ret trivial

theorem exchanges_ping (addr : Ipv4) (ttl : UInt8) : Exchanges (ping (E := E) addr ttl).run :=
  (ofCountCommand _ _).bindN fun _ => (failIfN _ _).bindN fun _ => .ret trivial

theorem exchanges_dnsLookup (hostname : List UInt8) :
    Exchanges (dnsLookup (E := E) hostname).run := by
  refine (ofByteCommand _ _).bindN fun _ => (failIfN _ _).bindN fun _ => repeatN ?_ (throwN _) 40
  refine (timerN _).bindN fun _ => sendThen _ ((recvOne _ 4).attemptN.bindN fun r => ?_)
  split
  · split <;> exact .ret trivial
  all_goals exact .ret trivial

theorem exchanges_tcpOpenSocket : Exchanges (tcpOpenSocket (E := E)).run :=
  (ofByteCommand _ _).bindN fun _ => (failIfN _ _).bindN fun _ => .ret trivial

theorem exchanges_tcpStartClient (sock : Socket) (addr : Ipv4) (port : UInt16) (mode : UInt8) :
    Exchanges (tcpStartClient (E := E) sock addr port mode).run :=
  sendThen _ ((recvInto _ 4).bindN fun _ => .ret trivial)

theorem exchanges_tcpStartClientHostname (sock : Socket) (hostname : List UInt8) (addr : Ipv4)
    (port : UInt16) (mode : UInt8) :
    Exchanges (tcpStartClientHostname (E := E) sock hostname addr port mode).run :=
  sendThen _ ((recvInto _ 4).bindN fun _ => .ret trivial)

theorem exchanges_tcpState (sock : Socket) : Exchanges (tcpState (E := E) sock).run :=
  (ofByteCommand _ _).bindN fun _ => .ret trivial

theorem exchanges_tcpAccept (sock : Socket) : Exchanges (tcpAccept (E := E) sock).run :=
  (ofCountCommand _ _).bindN fun _ => by split <;> exact .ret trivial

theorem exchanges_checkDataSent (sock : Socket) : Exchanges (checkDataSent (E := E) sock).run :=
  repeatN ((ofByteCommand _ _).bindN fun _ => by
    split
    · exact .ret trivial
    · exact (timerN _).bindN fun _ => .ret trivial) (throwN _) 20

theorem exchanges_offerChunk (sock : Socket) (chunk : List UInt8) (n written : ℕ) :
    Exchanges (offerChunk (E := E) sock chunk n written).run := by
  induction n generalizing written with
  | zero => exact .ret trivial
  | succ n ih =>
    exact sendMixedThen _ ((recvOne _ 4).bindN fun _ => (ofCount12 _ _).bindN fun written => by
      split
      · exact .ret trivial
      · exact ih written)

theorem exchanges_sendChunks (sock : Socket) (cs : List (List UInt8)) (total : ℕ) :
    Exchanges (sendChunks (E := E) sock cs total).run := by
  induction cs generalizing total with
  | nil => exact .ret trivial
  | cons chunk rest ih =>
    exact (exchanges_offerChunk sock chunk 5 0).bindN fun _ => (failIfN _ _).bindN fun _ =>
      (exchanges_checkDataSent sock).bindN fun _ => ih _

theorem exchanges_tcpSend (sock : Socket) (data : List UInt8) :
    Exchanges (tcpSend (E := E) sock data).run := exchanges_sendChunks sock _ 0

theorem exchanges_tcpRecv (sock : Socket) (n : ℕ) : ExchangesB n (· ≤ n) (tcpRecv (E := E) sock) :=
  (ExchangesB.of_quiet doesB_len).bind fun _ _ => .sendMixedThen _ .recvCmdOneParam16

theorem exchanges_tcpClose (sock : Socket) : Exchanges (tcpClose (E := E) sock).run :=
  (ofByteCommand _ _).bindN fun _ => timerN _

theorem exchanges_tcpConnect (addr : Ipv4) (port : UInt16) :
    Exchanges (tcpConnect (E := E) addr port).run :=
  exchanges_tcpOpenSocket.bindN fun sock => (exchanges_tcpStartClient sock _ _ _).bindN fun _ =>
    repeatN ((exchanges_tcpState sock).bindN fun s => by
      split
      · exact .ret trivial
      all_goals exact (timerN _).bindN fun _ => .ret trivial)
      ((attemptN (exchanges_tcpClose sock)).bindN fun _ => throwN _) 40

theorem exchanges_udpWrite (sock : Socket) (data : List UInt8) :
    Exchanges (udpWrite (E := E) sock data).run :=
  sendMixedThen _ ((recvOne _ 1).bindN fun _ => failIfN _ _)

theorem exchanges_udpEndPacket (sock : Socket) : Exchanges (udpEndPacket (E := E) sock).run :=
  (timerN _).bindN fun _ => ofAckedCommand _ _

theorem exchanges_udpSend (sock : Socket) (addr : Ipv4) (port : UInt16) (data : List UInt8) :
    Exchanges (udpSend (E := E) sock addr port data).run :=
  (exchanges_tcpStartClient sock _ _ _).bindN fun _ => (timerN _).bindN fun _ =>
    (exchanges_udpWrite sock data).bindN fun _ => exchanges_udpEndPacket sock

theorem exchanges_udpRemote (sock : Socket) : Exchanges (udpRemote (E := E) sock).run :=
  sendThen _ ((Awaits.withBuf (Q := fun _ => True) (AwaitsB.recvCmdInto.bind fun _ _ => .of_quiet
    ((doesB_failIf _ _).bind fun _ _ => (doesB_getIdx (by decide)).bind fun _ _ =>
      (doesB_failIf _ _).bind fun _ _ => (doesB_getIdx (by decide)).bind fun _ _ =>
      (doesB_getIdx (by decide)).bind fun _ _ => (doesB_getIdx (by decide)).bind fun _ _ =>
      (doesB_getIdx (by decide)).bind fun _ _ => (doesB_getIdx (by decide)).bind fun _ _ =>
      (doesB_failIf _ _).bind fun _ _ => (doesB_getIdx (by decide)).bind fun _ _ =>
      (doesB_getIdx (by decide)).bind fun _ _ => doesB_pure trivial))).bindN fun _ => .ret trivial)

/-- The closure reads only what the reply filled. -/
theorem doesB_takeV4 {P : Hal → Prop} {n written : ℕ} (h : written ≤ n) (cur : ℕ) :
    DoesB P n (fun _ => True) (takeV4 (E := E) written cur) := by
  refine (doesB_failIf _ _).bind fun _ h1 => (doesB_getIdx (by omega)).bind fun len _ =>
    (doesB_failIf _ _).bind fun _ h2 => ?_
  rw [not_or] at h2
  exact (doesB_getIdx (by omega)).bind fun _ _ => (doesB_getIdx (by omega)).bind fun _ _ =>
    (doesB_getIdx (by omega)).bind fun _ _ => (doesB_getIdx (by omega)).bind fun _ _ =>
    doesB_pure trivial

theorem exchanges_ipConfig : Exchanges (ipConfig (E := E)).run :=
  sendThen _ ((Awaits.withBuf (Q := fun _ => True) (AwaitsB.recvCmdInto.bind fun _ hw => .of_quiet
    ((doesB_failIf _ _).bind fun _ _ => (doesB_takeV4 hw _).bind fun _ _ =>
      (doesB_takeV4 hw _).bind fun _ _ => (doesB_takeV4 hw _).bind fun _ _ =>
      doesB_pure trivial))).bindN fun _ => .ret trivial)

end Nina

open Exchanges Nina

/-! ## The facades -/

theorem NinaTcpSocket.exchanges_read (fuel : ℕ) (sock : Socket) (n : ℕ) :
    ExchangesB n (· ≤ n) (NinaTcpSocket.read (E := E) fuel sock) :=
  .repeatFor ((exchanges_tcpRecv sock n).bind fun k hk => by
    split
    · exact .pure fun _ h => Option.some.inj h ▸ hk
    · exact (ExchangesB.lift (exchanges_tcpState sock)).bind fun s _ => by
        split
        · exact .pure fun _ h => Option.some.inj h ▸ Nat.zero_le n
        · exact (ExchangesB.lift (timerN _)).bind fun _ _ => .pure fun _ h => by cases h)
    .outOfFuel fuel

theorem NinaStack.exchanges_awaitEstablished (n : ℕ) (sock : Socket) :
    Exchanges (NinaStack.awaitEstablished (E := E) n sock).run :=
  repeatN ((exchanges_tcpState sock).bindN fun s => by
    split
    · exact .ret trivial
    · exact (timerN _).bindN fun _ => .ret trivial)
    ((attemptN (exchanges_tcpClose sock)).bindN fun _ => throwN _) n

theorem NinaStack.exchanges_connect (mode : UInt8) (remote : SocketAddr) :
    Exchanges (NinaStack.connect (E := E) mode remote).run :=
  match remote with
  | .v4 _ _ => lockedN (exchanges_tcpOpenSocket.bindN fun sock =>
      (exchanges_tcpStartClient sock _ _ _).bindN fun _ => exchanges_awaitEstablished 40 sock)
  | .v6 _ => throwN _

theorem NinaStack.exchanges_connectHostname (mode : UInt8) (hostname : List UInt8)
    (port : UInt16) : Exchanges (NinaStack.connectHostname (E := E) mode hostname port).run :=
  lockedN ((exchanges_dnsLookup hostname).bindN fun _ => exchanges_tcpOpenSocket.bindN fun sock =>
    (exchanges_tcpStartClientHostname sock _ _ _ _).bindN fun _ =>
      exchanges_awaitEstablished 80 sock)

theorem NinaStack.exchanges_getHostByName (host : List UInt8) (addrType : AddrType) :
    Exchanges (NinaStack.getHostByName (E := E) host addrType).run := by
  cases addrType with
  | ipv6 => exact throwN _
  | ipv4 => exact lockedN (exchanges_dnsLookup host)
  | either => exact lockedN (exchanges_dnsLookup host)

theorem NinaSocket.exchanges_readLocked (sock : Socket) (n : ℕ) :
    ExchangesB n (fun o => ∀ k, o = some k → k ≤ n) (NinaSocket.readLocked (E := E) sock) :=
  (exchanges_tcpRecv sock n).bind fun k hk => by
    split
    · exact .pure fun _ h => Option.some.inj h ▸ hk
    · exact (ExchangesB.lift (exchanges_tcpState sock)).bind fun s _ => by
        split
        · exact .pure fun _ h => Option.some.inj h ▸ Nat.zero_le n
        · exact .pure fun _ h => by cases h

theorem NinaSocket.exchanges_read (fuel : ℕ) (sock : Socket) (n : ℕ) :
    ExchangesB n (· ≤ n) (NinaSocket.read (E := E) fuel sock) := by
  have hturn : ExchangesB n (fun o => ∀ k, o = some k → k ≤ n)
      (NinaSocket.readTurn (E := E) sock) := by
    refine (ExchangesB.locked (exchanges_readLocked sock n)).bind fun o ho => ?_
    cases o with
    | some k => exact .pure ho
    | none => exact (ExchangesB.lift (timerN _)).bind fun _ _ => .pure ho
  exact .repeatFor hturn .outOfFuel fuel

/-- **Every public operation is made of exchanges.** -/
theorem Op.exchanges (fuel : ℕ) (op : Op) : Exchanges (op.prog (E := E) fuel) := by
  cases op with
  | init => exact dropN exchanges_init
  | getFwVersion buf => exact (exchanges_getFwVersion _).drop
  | scanNetworks scratch settleMs => exact (exchanges_scanNetworks settleMs _).drop
  | connect ssid psk => exact dropN (exchanges_connect fuel ssid psk)
  | waitForConnected timeout => exact dropN (exchanges_waitForConnected fuel timeout)
  | connectWpa | scanChannel | getReasonCode => exact dropN (ofByteCommand _ _)
  | macAddr | getCurrentBssid | scanBssid => exact dropN (ofMacCommand _ _)
  | currentSsid buf => exact (exchanges_currentSsid _).drop
  | scanRssi index => exact dropN (exchanges_scanRssi index)
  | scanEnct index => exact dropN (exchanges_scanEnct index)
  | networkInfo index => exact dropN (exchanges_networkInfo index)
  | tcpListen | setHostname | setNetConfig | setDnsConfig | setPowerSave | pinMode | digitalWrite
  | analogWrite | startApOpen | startApWpa | udpBind => exact dropN (ofAckedCommand _ _)
  | tcpAccept sock => exact dropN (exchanges_tcpAccept sock)
  | getTemperature => exact dropN exchanges_getTemperature
  | getCurrentRssi => exact dropN exchanges_getCurrentRssi
  | getCurrentEnct => exact dropN exchanges_getCurrentEnct
  | digitalRead pin => exact dropN (exchanges_digitalRead pin)
  | analogRead pin => exact dropN (exchanges_analogRead pin)
  | disconnect => exact dropN exchanges_disconnect
  | ping addr ttl => exact dropN (exchanges_ping addr ttl)
  | dnsLookup hostname => exact dropN (exchanges_dnsLookup hostname)
  | tcpOpenSocket => exact dropN exchanges_tcpOpenSocket
  | tcpStartClient | udpBeginPacket => exact dropN (exchanges_tcpStartClient _ _ _ _)
  | tcpStartClientHostname => exact dropN (exchanges_tcpStartClientHostname _ _ _ _ _)
  | tcpState sock => exact dropN (exchanges_tcpState sock)
  | tcpAvail => exact dropN (ofCountCommand _ _)
  | tcpSend sock data => exact dropN (exchanges_tcpSend sock data)
  | checkDataSent sock => exact dropN (exchanges_checkDataSent sock)
  | tcpRecv sock out => exact (exchanges_tcpRecv sock _).drop
  | udpSend sock addr port data => exact dropN (exchanges_udpSend sock addr port data)
  | udpWrite sock data => exact dropN (exchanges_udpWrite sock data)
  | udpEndPacket sock => exact dropN (exchanges_udpEndPacket sock)
  | udpRemote sock => exact dropN (exchanges_udpRemote sock)
  | tcpClose sock | tcpSocketClose sock => exact dropN (exchanges_tcpClose sock)
  | tcpConnect addr port => exact dropN (exchanges_tcpConnect addr port)
  | status => exact dropN exchanges_status
  | ip => exact dropN (exchanges_ipConfig.bindN fun _ => .ret trivial)
  | ipConfig => exact dropN exchanges_ipConfig
  | tcpSocketRead sock buf => exact (NinaTcpSocket.exchanges_read fuel sock _).drop
  | tcpSocketWrite sock buf => exact dropN (exchanges_tcpSend sock buf)
  | stackConnect mode remote => exact dropN (NinaStack.exchanges_connect mode remote)
  | stackConnectHostname mode hostname port =>
    exact dropN (NinaStack.exchanges_connectHostname mode hostname port)
  | stackGetHostByName host addrType =>
    exact dropN (NinaStack.exchanges_getHostByName host addrType)
  | socketRead sock buf => exact (NinaSocket.exchanges_read fuel sock _).drop
  | socketWrite sock buf => exact dropN (lockedN (exchanges_tcpSend sock buf))

/-- …and so is every sequence of them. -/
theorem Op.exchanges_runAll (fuel : ℕ) (ops : List Op) :
    Exchanges (Op.runAll (E := E) fuel ops) := by
  induction ops with
  | nil => exact .ret trivial
  | cons op ops ih => exact (op.exchanges fuel).bind fun _ _ => ih

end EmbassyNina
