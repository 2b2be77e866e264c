import EmbassyNina.Remote.Calls

/-!
# Remote/Operations — the operations do what their clients do

One theorem for each operation that is more than one exchange, or that has an exchange of its own:
the operation and its client go through their steps together, and each exchange is a call.
-/

namespace EmbassyNina

open Machinery Prog

variable {C E F α β : Type}

namespace Command.Plain

variable {c : Command} {params : List (List UInt8)}

/-- A command whose strings are short is sent as it should be… -/
theorem of_strings (hparams : c.params = params.map .short) (hcode : c.replyCode = len8)
    (h : ∀ s ∈ c.strings, s.length < 256) : c.Plain params := ⟨hparams, fits_of_strings h, hcode⟩

/-- …and so is one without. -/
theorem bare (hparams : c.params = params.map .short) (hcode : c.replyCode = len8)
    (h : c.strings = []) : c.Plain params :=
  of_strings hparams hcode (by rw [h]; exact List.forall_mem_nil _)

end Command.Plain

/-- The front of a buffer, as it was filled. -/
theorem run_sliceTo (p unfilled : List UInt8) : (BufM.sliceTo (E := E) p.length).run
    (p ++ unfilled) = .ret (.ok p, p ++ unfilled) := by
  change (if p.length ≤ (p ++ unfilled).length then _ else _) = _
  rw [if_pos (by simp), List.take_left]

/-- A payload of up to 247 bytes can be packed. -/
theorem frameLength_insert (sock : Socket) (data : List UInt8) :
    frameLength [.long [sock.raw], .long data] ≤ 256 ↔ ¬ 247 < data.length := by
  rw [frameLength, length_encodeAll]
  simp [Param.data, len16]
  omega

/-- A turn of the read that borrows the chip, apart from the mutex. -/
theorem readTurn_eq (sock : Socket) : NinaTcpSocket.readTurn (E := E) sock = (do
    match ← NinaSocket.readLocked sock with
    | some n => return some n
    | none =>
      BufM.lift (Nina.timer 50)
      return none) := by
  unfold NinaTcpSocket.readTurn NinaSocket.readLocked
  rw [LawfulMonad.bind_assoc]
  refine bind_congr fun n => ?_
  by_cases hn : n > 0
  · rw [if_pos hn, if_pos hn, pure_bind]
  · rw [if_neg hn, if_neg hn, LawfulMonad.bind_assoc]
    refine bind_congr fun st => ?_
    rw [isClosed_eq]
    cases st.readsAsEof <;> rfl

namespace Chip.Implements

open Simulation

variable {K : Chip C} {fw : Firmware F} {view : C → F} {log₀ : List (Exchange C)}
  (hK : K.Implements fw view)
include hK

/-! ## Association -/

theorem status : K.Does (E := E) fw view log₀ Eq Nina.status Client.status :=
  map (hK.byteCommand (c := .getConnStatus) (.bare rfl rfl rfl)) fun _ _ h => congrArg _ h

theorem disconnect :
    K.Does (E := E) fw view log₀ (fun _ _ => True) Nina.disconnect (Client.byte .disconnect) :=
  post (hK.byteCommand (c := .disconnect) (.bare rfl rfl rfl)) fun _ _ _ => trivial

theorem init : K.Does (E := E) fw view log₀ Eq Nina.init Client.init := by
  have hpin : ∀ l : Link C, l.window = [] → l.deselect K = { l with reply := silence } :=
    fun l h => if_pos h
  refine pin (fun l h clock => ⟨l, rfl, h, rfl, rfl⟩) ?_
  refine pin (fun l h clock => ⟨l.deselect K, rfl, by rw [hpin l h]; exact h, by rw [hpin l h],
    by rw [hpin l h]⟩) ?_
  refine pin (fun l h clock => ⟨l, rfl, h, rfl, rfl⟩) ?_
  refine (timer resetLowMs).bind fun _ _ _ => ?_
  refine pin (fun l h clock => ⟨l, rfl, h, rfl, rfl⟩) ?_
  refine (timer resetBootMs).bind fun _ _ _ => ?_
  refine pin (fun l h clock => ⟨l, rfl, h, rfl, rfl⟩) ?_
  refine .repeatFor ?_ (.pure rfl) 3
  exact hK.disconnect.attempt.bind fun _ _ _ => pause 300

theorem awaitTurn (deadline : ℕ) : K.Does (E := E) fw view log₀ (Option.Rel Eq)
    (EmbassyNina.awaitTurn deadline) (Client.awaitTurn deadline) := by
  refine now.bind fun t t' ht => ?_
  subst ht
  refine failIf fun _ => ?_
  refine hK.status.attempt.bind fun r r' hr => ?_
  obtain rfl := exceptAlike_eq.mp hr
  cases r with
  | error e => exact pause 250
  | ok st =>
    cases st with
    | connected => exact .pure (.some rfl)
    | _ => exact pause 250

theorem waitForConnected (fuel timeout : ℕ) : K.Does (E := E) fw view log₀ Eq
    (Nina.waitForConnected fuel timeout) (Client.waitForConnected fuel timeout) := by
  rw [waitForConnected_eq]
  refine now.bind fun t t' ht => ?_
  subst ht
  exact .repeatFor (hK.awaitTurn _) outOfFuel fuel

variable {ssid psk : List UInt8}

theorem connectWpa (hssid : ssid.length < 256) (hpsk : psk.length < 256) :
    K.Does (E := E) fw view log₀ Eq (Nina.connectWpa ssid psk)
      (Client.byte (.setPassphrase ssid psk)) :=
  hK.byteCommand (c := .setPassphrase ssid psk)
    (.of_strings rfl rfl (by simp [Command.strings, hssid, hpsk]))

theorem connectTurn (fuel : ℕ) (hssid : ssid.length < 256) (hpsk : psk.length < 256) :
    K.Does (E := E) fw view log₀ (Option.Rel Eq) (EmbassyNina.connectTurn fuel ssid psk)
      (Client.connectTurn fuel ssid psk) := by
  refine (hK.connectWpa hssid hpsk).attempt.bind fun _ _ _ => ?_
  refine (hK.waitForConnected fuel 20000).attempt.bind fun r r' hr => ?_
  obtain rfl := exceptAlike_eq.mp hr
  cases r with
  | ok _ => exact .pure (.some rfl)
  | error e => exact hK.disconnect.attempt.bind fun _ _ _ => pause 2000

theorem connect (fuel : ℕ) (hssid : ssid.length < 256) (hpsk : psk.length < 256) :
    K.Does (E := E) fw view log₀ Eq (Nina.connect fuel ssid psk)
      (Client.connect fuel ssid psk) := by
  rw [connect_eq, Client.connect]
  exact RefinesE.repeatFor (hK.connectTurn fuel hssid hpsk) timeout _

/-! ## Names and numbers -/

theorem scanRssi (index : UInt8) :
    K.Does (E := E) fw view log₀ Eq (Nina.scanRssi index) (Client.scanRssi index) :=
  hK.four (c := .getIdxRssi index) (.bare rfl rfl rfl) fun p => Int.bmod (i32OfLe p) 256

theorem scanEnct (index : UInt8) : K.Does (E := E) fw view log₀
    (fun e b => e = EncType.fromU8 b) (Nina.scanEnct index) (Client.byte (.getIdxEnct index)) :=
  post (hK.byteCommand (c := .getIdxEnct index) (.bare rfl rfl rfl)) fun _ _ h => congrArg _ h

theorem scanChannel (index : UInt8) : K.Does (E := E) fw view log₀ Eq (Nina.scanChannel index)
    (Client.byte (.getIdxChannel index)) :=
  hK.byteCommand (c := .getIdxChannel index) (.bare rfl rfl rfl)

theorem scanBssid (index : UInt8) : K.Does (E := E) fw view log₀ Eq (Nina.scanBssid index)
    (Client.mac (.getIdxBssid index)) :=
  hK.macCommand (c := .getIdxBssid index) (.bare rfl rfl rfl)

theorem networkInfo (index : UInt8) :
    K.Does (E := E) fw view log₀ Eq (Nina.networkInfo index) (Client.networkInfo index) := by
  refine (hK.scanRssi index).bind fun rssi _ h => ?_
  subst h
  refine (hK.scanEnct index).bind fun enct b h => ?_
  subst h
  refine (hK.scanChannel index).bind fun channel _ h => ?_
  subst h
  exact map (hK.scanBssid index) fun bssid _ h => by rw [h]

theorem analogRead (pin : UInt8) :
    K.Does (E := E) fw view log₀ Eq (Nina.analogRead pin) (Client.analogRead pin) := by
  refine (hK.command (c := .getAnalogRead pin) (.bare rfl rfl rfl) 4).bind fun r p hr => ?_
  subst hr
  obtain _ | ⟨a, _ | ⟨b, _ | ⟨d, _ | ⟨e, _ | ⟨f, p⟩⟩⟩⟩⟩ := p
  · exact .throw Error.framing
  · exact .pure rfl
  · exact .pure rfl
  · exact .throw Error.framing
  · exact .pure rfl
  · exact .throw Error.framing

theorem ping (ip : Ipv4) (ttl : UInt8) :
    K.Does (E := E) fw view log₀ Eq (Nina.ping ip ttl) (Client.ping ip ttl) := by
  refine (hK.countCommand (c := .ping ip ttl) (.bare rfl rfl rfl)).bind fun rtt _ h => ?_
  subst h
  exact failIf fun _ => .pure rfl

theorem ipConfig : K.Does (E := E) fw view log₀ Eq Nina.ipConfig
    (Client.call .getIpaddr fun a => a.many 32 >>= ipConfigOf) := by
  rw [ipConfig_eq]
  exact hK.decoded (c := .getIpaddr) (.bare rfl rfl rfl) decodeIpConfig
    fun ps hcount hlen => run_decodeIpConfig hcount hlen

theorem udpRemote (sock : Socket) : K.Does (E := E) fw view log₀ Eq (Nina.udpRemote sock)
    (Client.call (.getRemoteData sock) fun a => a.many 16 >>= remoteOf) := by
  rw [udpRemote_eq]
  exact hK.decoded (c := .getRemoteData sock) (.bare rfl rfl rfl) (fun _ => decodeUdpRemote)
    fun ps _ hlen => run_decodeUdpRemote hlen

omit hK in
/-- What both make of the answer to a poll. -/
theorem onAnswer {r : Except (Error E) (ℕ × Buf)} {r' : Except (Error E) (List UInt8)}
    (h : ExceptAlike (fun r p => r = filled 4 p) r r') :
    K.Does fw view log₀ (Option.Rel Eq) (EmbassyNina.onAnswer r) (Client.onAnswer r') := by
  cases r with
  | ok r =>
    cases r' with
    | ok p =>
      obtain rfl : r = filled 4 p := h
      change K.Does fw view log₀ _ (EmbassyNina.onAnswer (.ok (p.length, _))) _
      by_cases hlen : p.length = 4
      · rw [hlen, Nat.sub_self, List.replicate_zero, List.append_nil]
        change K.Does fw view log₀ _ (if p ≠ [0, 0, 0, 0] then pure (some (ip4 p)) else pure none)
          (pure (if p.length = 4 ∧ p ≠ [0, 0, 0, 0] then some (ip4 p) else none))
        by_cases hp : p ≠ [0, 0, 0, 0]
        · rw [if_pos hp, if_pos ⟨hlen, hp⟩]
          exact .pure (.some rfl)
        · rw [if_neg hp, if_neg fun h => hp h.2]
          exact .pure .none
      · change (K.remote E fw view log₀).Refines _ (EmbassyNina.onAnswer _).run _
        rw [onAnswer_short hlen]
        change (K.remote E fw view log₀).Refines _ _
          (Prog.ret (Except.ok (if p.length = 4 ∧ p ≠ [0, 0, 0, 0] then some (ip4 p) else none)))
        rw [if_neg fun h => hlen h.1]
        exact RefinesE.pure .none
    | error e => exact h.elim
  | error e =>
    cases r' with
    | ok p => exact h.elim
    | error e' =>
      obtain rfl : e = e' := h
      cases e with
      | framing | nina => exact .pure .none
      | _ => exact .throw _

/-- A poll for the answer to a lookup. -/
theorem lookupTurn : K.Does (E := E) fw view log₀ (Option.Rel Eq) EmbassyNina.lookupTurn
    Client.lookupTurn := by
  refine (timer 100).bind fun _ _ _ => ?_
  have hask : K.Does (E := E) fw view log₀ _ _ _ := hK.attemptExchange (c := .getHostByName)
    (Command.fits_of_strings (List.forall_mem_nil _)) rfl
    (sends_sendCmd (.bare rfl rfl rfl : Command.getHostByName.Plain [])) 4
  have hturn := hask.bind fun r r' hr => onAnswer hr
  rwa [LawfulMonad.bind_assoc] at hturn

theorem dnsLookup {hostname : List UInt8} (h : hostname.length < 256) :
    K.Does (E := E) fw view log₀ Eq (Nina.dnsLookup hostname) (Client.dnsLookup hostname) := by
  have heq : Nina.dnsLookup (E := E) hostname =
      Nina.ackedCommand cmdReqHostByName [hostname] >>= fun _ =>
        repeatFor 40 EmbassyNina.lookupTurn (throw .timeout) := by
    rw [dnsLookup_eq, Nina.ackedCommand, LawfulMonad.bind_assoc]
  rw [heq, Client.dnsLookup]
  exact (hK.ackedCommand (c := .reqHostByName hostname) (.of_strings rfl rfl
    (by simp [Command.strings, h]))).bind fun _ _ _ => RefinesE.repeatFor hK.lookupTurn timeout _

/-! ## Sockets -/

theorem tcpOpenSocket :
    K.Does (E := E) fw view log₀ Eq Nina.tcpOpenSocket Client.tcpOpenSocket := by
  refine (hK.byteCommand (.bare rfl rfl rfl : Command.getSocket.Plain [])).bind fun b _ h => ?_
  subst h
  exact failIf fun _ => .pure rfl

theorem tcpStartClient (sock : Socket) (ip : Ipv4) (port : UInt16) (mode : UInt8) :
    K.Does (E := E) fw view log₀ Eq (Nina.tcpStartClient sock ip port mode)
      (Client.start (.startClientTcp ip port sock mode)) :=
  hK.start (c := .startClientTcp ip port sock mode) (.bare rfl rfl rfl)

theorem tcpStartClientHostname (sock : Socket) {hostname : List UInt8}
    (h : hostname.length < 256) (ip : Ipv4) (port : UInt16) (mode : UInt8) :
    K.Does (E := E) fw view log₀ Eq (Nina.tcpStartClientHostname sock hostname ip port mode)
      (Client.start (.startClientTcpHostname hostname ip port sock mode)) :=
  hK.start (c := .startClientTcpHostname hostname ip port sock mode)
    (.of_strings rfl rfl (by simp [Command.strings, h]))

theorem tcpState (sock : Socket) :
    K.Does (E := E) fw view log₀ Eq (Nina.tcpState sock) (Client.tcpState sock) :=
  map (hK.byteCommand (c := .getClientStateTcp sock) (.bare rfl rfl rfl)) fun _ _ h => congrArg _ h

theorem tcpAccept (listenSock : Socket) :
    K.Does (E := E) fw view log₀ Eq (Nina.tcpAccept listenSock) (Client.tcpAccept listenSock) := by
  refine (hK.countCommand (c := .acceptTcp listenSock) (.bare rfl rfl rfl)).bind fun raw _ h => ?_
  subst h
  by_cases hraw : raw = 0x00FF ∨ raw = 0xFFFF
  · rw [if_pos hraw, if_pos hraw]
    exact .pure rfl
  · rw [if_neg hraw, if_neg hraw]
    exact .pure rfl

theorem checkDataSent (sock : Socket) :
    K.Does (E := E) fw view log₀ Eq (Nina.checkDataSent sock) (Client.checkDataSent sock) := by
  rw [Nina.checkDataSent, Client.checkDataSent]
  refine RefinesE.repeatFor ?_ timeout _
  refine (hK.byteCommand (c := .dataSentTcp sock) (.bare rfl rfl rfl)).bind fun b _ h => ?_
  subst h
  by_cases hb : b ≠ 0
  · rw [if_pos hb, if_pos hb]
    exact .pure (.some rfl)
  · rw [if_neg hb, if_neg hb]
    exact pause 50

/-- An offer of a chunk that can be packed. -/
theorem offer (sock : Socket) {chunk : List UInt8} (h : chunk.length ≤ 64) :
    K.Does (E := E) fw view log₀ Eq (EmbassyNina.offer sock chunk)
      (Client.count (.sendDataTcp sock chunk)) := by
  have hstrings : ∀ s ∈ (Command.sendDataTcp sock chunk).strings, s.length < 256 := by
    simp only [Command.strings, List.mem_singleton, forall_eq]
    omega
  have hone : K.Does (E := E) fw view log₀ _ _ _ := hK.exchange (Command.fits_of_strings hstrings)
    rfl (sends_sendCmdMixed (frameLength_send sock h)) 4
  have hcount : K.Does (E := E) fw view log₀ Eq _ (Client.count (.sendDataTcp sock chunk)) :=
    hone.bind (f := fun r => Nina.count12 r.1 r.2) fun r p hr => by rw [hr]; exact number12 p
  rw [LawfulMonad.bind_assoc] at hcount
  exact hcount

theorem offerChunk (sock : Socket) {chunk : List UInt8} (h : chunk.length ≤ 64) (k written : ℕ) :
    K.Does (E := E) fw view log₀ Eq (Nina.offerChunk sock chunk k written)
      (Client.offerChunk sock chunk k written) := by
  induction k generalizing written with
  | zero => exact .pure rfl
  | succ k ih =>
    rw [offerChunk_succ, Client.offerChunk]
    refine (hK.offer sock h).bind fun v _ hv => ?_
    subst hv
    split
    · exact .pure rfl
    · exact ih v

theorem sendChunks (sock : Socket) {chunks : List (List UInt8)}
    (h : ∀ chunk ∈ chunks, chunk.length ≤ 64) (total : ℕ) :
    K.Does (E := E) fw view log₀ Eq (Nina.sendChunks sock chunks total)
      (Client.sendChunks sock chunks total) := by
  induction chunks generalizing total with
  | nil => exact .pure rfl
  | cons chunk rest ih =>
    obtain ⟨hchunk, hrest⟩ := List.forall_mem_cons.mp h
    refine (hK.offerChunk sock hchunk 5 0).bind fun v _ hv => ?_
    subst hv
    refine failIf fun _ => ?_
    exact (hK.checkDataSent sock).bind fun _ _ _ => ih hrest _

theorem tcpSend (sock : Socket) (data : List UInt8) :
    K.Does (E := E) fw view log₀ Eq (Nina.tcpSend sock data) (Client.tcpSend sock data) :=
  hK.sendChunks sock (fun _ h => length_of_mem_chunks h) 0

theorem tcpClose (sock : Socket) :
    K.Does (E := E) fw view log₀ Eq (Nina.tcpClose sock) (Client.tcpClose sock) :=
  (hK.byteCommand (c := .stopClientTcp sock) (.bare rfl rfl rfl)).bind fun _ _ _ => timer 100

/-- The polls that end a connect. -/
theorem awaitEstablished (n : ℕ) (sock : Socket) : K.Does (E := E) fw view log₀ Eq
    (NinaStack.awaitEstablished n sock) (Client.awaitEstablished n sock) := by
  refine RefinesE.repeatFor ?_ ((hK.tcpClose sock).attempt.bind fun _ _ _ => timeout) n
  refine (hK.tcpState sock).bind fun st _ h => ?_
  subst h
  by_cases hst : st = .established
  · rw [if_pos hst, if_pos hst]
    exact .pure (.some rfl)
  · rw [if_neg hst, if_neg hst]
    exact pause 250

theorem connectLocked (mode : UInt8) (ip : Ipv4) (port : UInt16) : K.Does (E := E) fw view log₀ Eq
    (NinaStack.connectLocked mode ip port) (Client.tcpConnect ip port mode) := by
  refine hK.tcpOpenSocket.bind fun sock _ h => ?_
  subst h
  exact (hK.tcpStartClient sock ip port mode).bind fun _ _ _ => hK.awaitEstablished 40 sock

theorem connectHostname (mode : UInt8) {hostname : List UInt8} (h : hostname.length < 256)
    (port : UInt16) : K.Does (E := E) fw view log₀ Eq
      (NinaStack.connectHostname mode hostname port)
      (Client.stackConnectHostname mode hostname port) := by
  refine locked ?_
  refine (hK.dnsLookup h).bind fun ip _ hip => ?_
  subst hip
  refine hK.tcpOpenSocket.bind fun sock _ hsock => ?_
  subst hsock
  exact (hK.tcpStartClientHostname sock h ip port mode).bind fun _ _ _ =>
    hK.awaitEstablished 80 sock

theorem stackConnect (mode : UInt8) (remote : SocketAddr) : K.Does (E := E) fw view log₀ Eq
    (NinaStack.connect mode remote) (Client.stackConnect mode remote) := by
  cases remote with
  | v4 ip port => exact locked (hK.connectLocked mode ip port)
  | v6 port => exact .throw Error.unsupported

theorem getHostByName {host : List UInt8} {addrType : AddrType}
    (h : addrType ≠ .ipv6 → host.length < 256) : K.Does (E := E) fw view log₀ Eq
      (NinaStack.getHostByName host addrType) (Client.getHostByName host addrType) := by
  cases addrType with
  | ipv6 => exact .throw Error.unsupported
  | ipv4 => exact locked (hK.dnsLookup (h (by simp)))
  | either => exact locked (hK.dnsLookup (h (by simp)))

/-! ## Datagrams -/

theorem udpWrite (sock : Socket) (data : List UInt8) :
    K.Does (E := E) fw view log₀ Eq (Nina.udpWrite sock data) (Client.udpWrite sock data) := by
  by_cases hlen : 247 < data.length
  · have hlong := (not_congr (frameLength_insert sock data)).mpr (not_not.mpr hlen)
    have hsend : (sendCmdMixed (E := E) cmdInsertDatabuf [.long [sock.raw], .long data]).run =
        .ret (.error .bufferTooSmall) := by rw [sendCmdMixed_run_eq, if_neg hlong]
    rw [Chip.Does, RefinesE, Nina.udpWrite, run_bind_eq, hsend, Client.udpWrite, Client.failIf,
      if_pos hlen]
    exact RefinesE.throw Error.bufferTooSmall
  · have hstrings : ∀ s ∈ (Command.insertDatabuf sock data).strings, s.length < 256 := by
      simp only [Command.strings, List.mem_singleton, forall_eq]
      omega
    have hone : K.Does (E := E) fw view log₀ _ _ _ :=
      hK.exchange (Command.fits_of_strings hstrings) rfl
        (sends_sendCmdMixed ((frameLength_insert sock data).mpr hlen)) 1
    have hbyte : K.Does (E := E) fw view log₀ (fun (r : ℕ × Buf) b => r.2.getD 0 0 = b) _
        (Client.byte (.insertDatabuf sock data)) :=
      pre hone fun r p hr => by rw [hr, getD_filled]
    have hack : K.Does (E := E) fw view log₀ Eq _ (Client.acked (.insertDatabuf sock data)) :=
      hbyte.bind (f := fun r => Nina.failIf (r.2.getD 0 0 ≠ 1) .nina) fun r b h => by
        subst h
        exact acked _
    rw [LawfulMonad.bind_assoc] at hack
    rw [Client.udpWrite, Client.failIf, if_neg hlen]
    exact hack

theorem udpEndPacket (sock : Socket) :
    K.Does (E := E) fw view log₀ Eq (Nina.udpEndPacket sock) (Client.udpEndPacket sock) :=
  (timer 10).bind fun _ _ _ => hK.ackedCommand (c := .sendUdpData sock) (.bare rfl rfl rfl)

theorem udpSend (sock : Socket) (ip : Ipv4) (port : UInt16) (data : List UInt8) :
    K.Does (E := E) fw view log₀ Eq (Nina.udpSend sock ip port data)
      (Client.udpSend sock ip port data) := by
  refine (hK.tcpStartClient sock ip port udpMode).bind fun _ _ _ => ?_
  refine (timer 20).bind fun _ _ _ => ?_
  exact (hK.udpWrite sock data).bind fun _ _ _ => hK.udpEndPacket sock

/-! ## Into the caller's buffer -/

variable {out : Buf}

theorem tcpRecv (sock : Socket) (out : Buf) : K.DoesAt (E := E) fw view log₀ out
    (fun n out' p => n = p.length ∧ out' = p ++ out.drop p.length) (Nina.tcpRecv sock)
      (Client.tcpRecv sock out.length) := by
  have hwant : (UInt16.ofNat (min out.length 65535)).toNat = min out.length 65535 :=
    UInt16.toNat_ofNat_of_lt' (by rw [UInt16.size]; omega)
  have hlen : frameLength (Command.getDatabufTcp sock (.ofNat (min out.length 65535))).params ≤
      256 := by
    rw [frameLength, length_encodeAll]
    simp [Command.params, Param.data, len16, leBytes]
  have hrecv : K.DoesAt (E := E) fw view log₀ out _ _ _ := hK.exchangeAt .recvCmdOneParam16
    (Command.fits_of_strings (List.forall_mem_nil _)) rfl (sends_sendCmdMixed hlen) out
  rw [Command.params, hwant] at hrecv
  exact hrecv

/-- The part of a turn of a read that asks the chip. -/
theorem readLocked (sock : Socket) (out : Buf) : K.DoesAt (E := E) fw view log₀ out
    (fun o out' o' => Option.Rel (fun n p => out'.take n = p) o o') (NinaSocket.readLocked sock)
      (Client.readTurn sock out.length) := by
  refine bindAt (hK.tcpRecv sock out) ?_
  rintro _ _ p ⟨rfl, rfl⟩ hlen
  by_cases hp : p = []
  · subst hp
    refine bindAt (liftAt (hK.tcpState sock) _) ?_
    rintro st _ _ ⟨rfl, rfl⟩ -
    rw [isClosed_eq]
    cases st.readsAsEof with
    | true => exact retAt (.some rfl)
    | false => exact retAt .none
  · have hpos : 0 < p.length := List.length_pos_iff.mpr hp
    rw [if_pos hpos, if_pos hp]
    exact retAt (.some List.take_left)

omit hK in
/-- What both sockets do between the turns of a read. -/
theorem again {x : BufM E (Option ℕ)} {y : Client E (Option (List UInt8))}
    (h : K.DoesAt fw view log₀ out
      (fun o out' o' => Option.Rel (fun n p => out'.take n = p) o o') x y) :
    K.DoesAt fw view log₀ out (fun o out' o' => Option.Rel (fun n p => out'.take n = p) o o') (do
      match ← x with
      | some n => return some n
      | none =>
        BufM.lift (Nina.timer 50)
        return none) (Client.again y) := by
  refine bindAt h fun o out' o' ho _ => ?_
  cases ho with
  | some hab => exact retAt (.some hab)
  | none => exact bindAt (liftAt (timer 50) _) fun _ _ _ _ _ => retAt .none

theorem tcpSocketRead (fuel : ℕ) (sock : Socket) (out : Buf) : K.DoesAt (E := E) fw view log₀ out
    (fun n out' p => out'.take n = p) (NinaTcpSocket.read fuel sock)
      (Client.tcpSocketRead fuel sock out.length) := by
  refine repeatAt (fun out' hlen => ?_) fuel
  rw [readTurn_eq, ← hlen]
  exact again (hK.readLocked sock out')

theorem socketRead (fuel : ℕ) (sock : Socket) (out : Buf) : K.DoesAt (E := E) fw view log₀ out
    (fun n out' p => out'.take n = p) (NinaSocket.read fuel sock)
      (Client.socketRead fuel sock out.length) := by
  refine repeatAt (fun out' hlen => ?_) fuel
  rw [← hlen]
  exact again (lockedAt (hK.readLocked sock out'))

omit hK in
/-- What has been received, as a slice of the caller's buffer. -/
theorem sliced {x : BufM E ℕ} {y : Client E (List UInt8)} (h : K.DoesAt fw view log₀ out
      (fun n out' p => n = p.length ∧ out' = p ++ out.drop p.length) x y) :
    K.DoesAt fw view log₀ out (fun bs _ p => bs = p) (x >>= BufM.sliceTo) y := by
  rw [← bind_pure y]
  refine bindAt h ?_
  rintro _ _ p ⟨rfl, rfl⟩ hlen
  rw [Chip.DoesAt, run_sliceTo]
  exact Refines.ret ⟨rfl, rfl⟩

theorem currentSsid (out : Buf) : K.DoesAt (E := E) fw view log₀ out
    (fun bs _ p => bs = p) Nina.currentSsid (Client.one .getCurrSsid out.length) := by
  have h : K.DoesAt (E := E) fw view log₀ out _ _ _ := sliced (hK.exchangeAt .recvCmdOneParam
    (Command.fits_of_strings (List.forall_mem_nil _)) rfl
    (sends_sendCmd (.bare rfl rfl rfl : Command.getCurrSsid.Plain [[dummy]])) out)
  rw [LawfulMonad.bind_assoc] at h
  exact h

omit hK in
/-- The version, up to its NUL. -/
theorem getFwVersion_eq : Nina.getFwVersion (E := E) =
    ((BufM.lift (sendCmdNoParams cmdGetFwVersion) >>= fun _ => recvCmdOneParam cmdGetFwVersion) >>=
      BufM.sliceTo) >>= fun bs => pure (bs.takeWhile (· ≠ 0)) := by
  rw [LawfulMonad.bind_assoc, LawfulMonad.bind_assoc]
  refine bind_congr fun _ => bind_congr fun n => bind_congr fun bs => ?_
  have hstrip := take_findIdx? (decide <| · = 0) bs
  simp only [← decide_not] at hstrip
  rw [← hstrip]
  cases bs.findIdx? (decide <| · = 0) <;> rfl

theorem getFwVersion (out : Buf) : K.DoesAt (E := E) fw view log₀ out
    (fun bs _ p => bs = p.takeWhile (· ≠ 0)) Nina.getFwVersion
      (Client.one .getFwVersion out.length) := by
  have h : K.DoesAt (E := E) fw view log₀ out _ _ _ := sliced (hK.exchangeAt .recvCmdOneParam
    (Command.fits_of_strings (List.forall_mem_nil _)) rfl
    (sends_sendCmd (.bare rfl rfl rfl : Command.getFwVersion.Plain [])) out)
  rw [getFwVersion_eq, ← bind_pure (Client.one .getFwVersion out.length)]
  refine bindAt h fun bs _ p hbs _ => ?_
  subst hbs
  exact retAt rfl

omit hK in
theorem scanNetworks_eq (settleMs : ℕ) : Nina.scanNetworks (E := E) settleMs = (do
    let _ ← BufM.lift (do
      sendCmdNoParams cmdStartScanNetworks
      withBuf 1 (recvCmdOneParam cmdStartScanNetworks))
    BufM.lift (Nina.timer settleMs)
    let r ← BufM.lift (sendCmdNoParams cmdScanNetworks) >>= fun _ => recvCmdInto cmdScanNetworks
    let buf ← BufM.sliceTo r.2
    return ⟨buf, r.1⟩) := by
  rw [BufM.lift_bind, LawfulMonad.bind_assoc]
  refine bind_congr fun _ => bind_congr fun _ => bind_congr fun _ => ?_
  rw [LawfulMonad.bind_assoc]

theorem scanNetworks (settleMs : ℕ) (out : Buf) : K.DoesAt (E := E) fw view log₀ out
    (fun scan _ ps => scan = ⟨encodeAll (ps.map .short), UInt8.ofNat ps.length⟩)
      (Nina.scanNetworks settleMs) (Client.scanNetworks out.length settleMs) := by
  rw [scanNetworks_eq]
  have hstart : K.Does (E := E) fw view log₀ _ _ _ := hK.exchange
    (Command.fits_of_strings (List.forall_mem_nil _)) rfl
    (sends_sendCmd (.bare rfl rfl rfl : Command.startScanNetworks.Plain [])) 1
  refine bindAt (liftAt hstart out) ?_
  rintro _ out₁ _ ⟨rfl, -⟩ -
  refine bindAt (liftAt (timer settleMs) out₁) ?_
  rintro _ out₂ _ ⟨rfl, -⟩ -
  rw [← bind_pure (Client.many .scanNetworks out₂.length)]
  have hscan : K.DoesAt (E := E) fw view log₀ out₂ _ _ _ := hK.manyAt
    (Command.fits_of_strings (List.forall_mem_nil _)) rfl
    (sends_sendCmd (.bare rfl rfl rfl : Command.scanNetworks.Plain [])) out₂
  refine bindAt hscan ?_
  rintro _ _ ps ⟨rfl, unfilled, rfl⟩ -
  have hslice : (BufM.sliceTo (E := E) (encodeAll (ps.map .short)).length).run
      (encodeAll (ps.map .short) ++ unfilled) =
        .ret (.ok (encodeAll (ps.map .short)), encodeAll (ps.map .short) ++ unfilled) :=
    run_sliceTo _ unfilled
  rw [Chip.DoesAt, BufM.run_bind, hslice]
  exact Refines.ret ⟨rfl, rfl⟩

end Chip.Implements

end EmbassyNina
