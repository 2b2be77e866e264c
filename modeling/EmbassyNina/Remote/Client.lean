import EmbassyNina.Driver.Operation
import EmbassyNina.Link.Structured
import EmbassyNina.Remote.Firmware

/-!
# Remote/Client — the operations as calls

`Op.remote` is what each public operation is for: which commands it has the firmware serve, and what
it makes of their answers.  There is no wire here, so no framing, no padding, no hunt for a start
byte, no chip select and no fault of bus or pins.

`Op.result` is the operation itself, as the driver runs it, its result kept as a `Value`.
-/

namespace EmbassyNina

open Machinery Prog

variable {E α β : Type}

/-- A program of calls that may fail. -/
abbrev Client (E : Type) := ExceptT (Error E) (Prog rpcSig)

namespace Client

def timer (ms : ℕ) : Client E Unit := ExceptT.lift (Prog.perform (S := rpcSig) (.timer ms))

def now : Client E ℕ := ExceptT.lift (Prog.perform (S := rpcSig) .now)

def failIf (c : Prop) [Decidable c] (e : Error E) : Client E Unit := if c then throw e else pure ()

def locked (x : Client E α) : Client E α :=
  ExceptT.mk (.ask (S := rpcSig) .lock fun _ => x.run.bind fun r =>
    .ask (S := rpcSig) .unlock fun _ => .ret r)

def outOfFuel : Client E α := ExceptT.mk (.halt .fuel)

/-! ## Calls -/

/-- One command, and what is made of its answer. -/
def call (c : Command) (f : Answer → Except (Error E) α) : Client E α :=
  ExceptT.mk (.ask (S := rpcSig) (.call c) fun a => .ret (f a))

/-- An answer of one parameter of at most `room` bytes. -/
def one (c : Command) (room : ℕ) : Client E (List UInt8) := call c (Answer.one room)

/-- An answer of any number of parameters that take at most `room` bytes. -/
def many (c : Command) (room : ℕ) : Client E (List (List UInt8)) := call c (Answer.many room)

/-- An answer of one byte; an empty one counts as zero. -/
def byte (c : Command) : Client E UInt8 := do
  let p ← one c 1
  return p.getD 0 0

/-- An answer that must be the byte one. -/
def acked (c : Command) : Client E Unit := do
  let b ← byte c
  failIf (b ≠ 1) .nina

/-- A MAC address, which comes back LSB-first. -/
def mac (c : Command) : Client E (List UInt8) := do
  let p ← one c 8
  failIf (p.length ≠ 6) .framing
  return p.reverse

/-- A number of one or two bytes. -/
def number12 : List UInt8 → Client E ℕ
  | [b] => pure b.toNat
  | [lo, hi] => pure (ofLeBytes lo hi)
  | _ => throw .framing

def count (c : Command) : Client E ℕ := do
  let p ← one c 4
  number12 p

/-- A value of four bytes. -/
def four (c : Command) (f : List UInt8 → α) : Client E α := do
  let p ← one c 4
  failIf (p.length ≠ 4) .framing
  return f p

/-! ## Association -/

def init : Client E Unit := do
  timer resetLowMs
  timer resetBootMs
  repeatFor 3 (do
    let _ ← attempt (byte .disconnect)
    timer 300
    return none) (pure ())

def status : Client E WlStatus := do
  let b ← byte .getConnStatus
  return WlStatus.fromU8 b

def awaitTurn (deadline : ℕ) : Client E (Option Unit) := do
  failIf (¬ (← now) < deadline) .timeout
  match ← attempt status with
  | .ok .connected => return some ()
  | _ =>
    timer 250
    return none

def waitForConnected (fuel timeout : ℕ) : Client E Unit := do
  let deadline := (← now) + timeout
  repeatFor fuel (awaitTurn deadline) outOfFuel

def connectTurn (fuel : ℕ) (ssid psk : List UInt8) : Client E (Option Unit) := do
  let _ ← attempt (byte (.setPassphrase ssid psk))
  match ← attempt (waitForConnected fuel 20000) with
  | .ok _ => return some ()
  | .error _ =>
    let _ ← attempt (byte .disconnect)
    timer 2000
    return none

def connect (fuel : ℕ) (ssid psk : List UInt8) : Client E Unit :=
  repeatFor 5 (connectTurn fuel ssid psk) (throw .timeout)

/-! ## Scanning -/

def scanNetworks (room settleMs : ℕ) : Client E (List (List UInt8)) := do
  let _ ← one .startScanNetworks 1
  timer settleMs
  many .scanNetworks room

def scanRssi (index : UInt8) : Client E Int :=
  four (.getIdxRssi index) fun p => Int.bmod (i32OfLe p) 256

def networkInfo (index : UInt8) : Client E Nina.NetworkInfo := do
  let rssi ← scanRssi index
  let enct ← byte (.getIdxEnct index)
  let channel ← byte (.getIdxChannel index)
  let bssid ← mac (.getIdxBssid index)
  return ⟨rssi, EncType.fromU8 enct, channel, bssid⟩

/-! ## Names and numbers -/

def analogRead (pin : UInt8) : Client E ℕ := do
  let p ← one (.getAnalogRead pin) 4
  match p with
  | [b] => return b.toNat
  | [lo, hi] => return ofLeBytes lo hi
  | [_, _, _, _] => return min (u32OfLe p) 65535
  | _ => throw .framing

def ping (ip : Ipv4) (ttl : UInt8) : Client E ℕ := do
  let rtt ← count (.ping ip ttl)
  failIf (rtt = 0xFFFF) .nina
  return rtt

/-- An answer with a real address, `none` with no answer yet. -/
def onAnswer : Except (Error E) (List UInt8) → Client E (Option Ipv4)
  | .ok p => return if p.length = 4 ∧ p ≠ [0, 0, 0, 0] then some (ip4 p) else none
  | .error .framing | .error .nina => return none
  | .error e => throw e

def lookupTurn : Client E (Option Ipv4) := do
  timer 100
  onAnswer (← attempt (one .getHostByName 4))

def dnsLookup (hostname : List UInt8) : Client E Ipv4 := do
  acked (.reqHostByName hostname)
  repeatFor 40 lookupTurn (throw .timeout)

/-! ## Sockets -/

def tcpOpenSocket : Client E Socket := do
  let b ← byte .getSocket
  failIf (b = 0xFF) .nina
  return ⟨b⟩

/-- A start, whose answer only has to be short. -/
def start (c : Command) : Client E Unit := call c fun a => (a.many 4).map fun _ => ()

def tcpState (sock : Socket) : Client E SockState := do
  let b ← byte (.getClientStateTcp sock)
  return SockState.fromU8 b

def tcpAccept (listenSock : Socket) : Client E (Option Socket) := do
  let raw ← count (.acceptTcp listenSock)
  return if raw = 0x00FF ∨ raw = 0xFFFF then none else some ⟨UInt8.ofNat raw⟩

def checkDataSent (sock : Socket) : Client E Unit :=
  repeatFor 20 (do
    let b ← byte (.dataSentTcp sock)
    if b ≠ 0 then return some () else
      timer 50
      return none) (throw .timeout)

def offerChunk (sock : Socket) (chunk : List UInt8) : ℕ → ℕ → Client E ℕ
  | 0, written => pure written
  | k + 1, _ => do
    let written ← count (.sendDataTcp sock chunk)
    if written > 0 then return written else offerChunk sock chunk k written

def sendChunks (sock : Socket) : List (List UInt8) → ℕ → Client E ℕ
  | [], total => pure total
  | chunk :: rest, total => do
    let written ← offerChunk sock chunk 5 0
    failIf (written = 0) .nina
    checkDataSent sock
    sendChunks sock rest (min (total + written) 65535)

def tcpSend (sock : Socket) (data : List UInt8) : Client E ℕ :=
  sendChunks sock (Nina.chunks 64 data) 0

/-- The bytes received, as many as a buffer of `room` bytes takes. -/
def tcpRecv (sock : Socket) (room : ℕ) : Client E (List UInt8) :=
  one (.getDatabufTcp sock (UInt16.ofNat (min room 65535))) room

def tcpClose (sock : Socket) : Client E Unit := do
  let _ ← byte (.stopClientTcp sock)
  timer 100

/-- Polls the state of a connect until it is established, and closes the socket if it never is. -/
def awaitEstablished (n : ℕ) (sock : Socket) : Client E Socket :=
  repeatFor n (do
    let st ← tcpState sock
    if st = .established then return some sock else
      timer 250
      return none) (do
    let _ ← attempt (tcpClose sock)
    throw .timeout)

def tcpConnect (ip : Ipv4) (port : UInt16) (mode : UInt8) : Client E Socket := do
  let sock ← tcpOpenSocket
  start (.startClientTcp ip port sock mode)
  awaitEstablished 40 sock

/-- One turn of a read; `none` goes round again. -/
def readTurn (sock : Socket) (room : ℕ) : Client E (Option (List UInt8)) := do
  let bytes ← tcpRecv sock room
  if bytes ≠ [] then return some bytes else
    let st ← tcpState sock
    return if st.readsAsEof then some [] else none

/-! ## Datagrams -/

/-- A payload that does not fit the send buffer is not sent at all. -/
def udpWrite (sock : Socket) (data : List UInt8) : Client E Unit := do
  failIf (247 < data.length) .bufferTooSmall
  acked (.insertDatabuf sock data)

def udpEndPacket (sock : Socket) : Client E Unit := do
  timer 10
  acked (.sendUdpData sock)

def udpSend (sock : Socket) (ip : Ipv4) (port : UInt16) (data : List UInt8) : Client E Unit := do
  start (.startClientTcp ip port sock udpMode)
  timer 20
  udpWrite sock data
  udpEndPacket sock

/-! ## The facades -/

/-- Waits between the turns of a read. -/
def again (turn : Client E (Option (List UInt8))) : Client E (Option (List UInt8)) := do
  match ← turn with
  | some bytes => return some bytes
  | none =>
    timer 50
    return none

def tcpSocketRead (fuel : ℕ) (sock : Socket) (room : ℕ) : Client E (List UInt8) :=
  repeatFor fuel (again (readTurn sock room)) outOfFuel

def socketRead (fuel : ℕ) (sock : Socket) (room : ℕ) : Client E (List UInt8) :=
  repeatFor fuel (again (locked (readTurn sock room))) outOfFuel

def stackConnect (mode : UInt8) : SocketAddr → Client E Socket
  | .v4 ip port => locked (tcpConnect ip port mode)
  | .v6 _ => throw .unsupported

def stackConnectHostname (mode : UInt8) (hostname : List UInt8) (port : UInt16) :
    Client E Socket :=
  locked do
    let ip ← dnsLookup hostname
    let sock ← tcpOpenSocket
    start (.startClientTcpHostname hostname ip port sock mode)
    awaitEstablished 80 sock

def getHostByName (host : List UInt8) : AddrType → Client E Ipv4
  | .ipv6 => throw .unsupported
  | _ => locked (dnsLookup host)

end Client

/-! ## Operations, with their results -/

/-- What an operation returns. -/
inductive Value
  | unit
  | byte (b : UInt8)
  | nat (n : ℕ)
  | int (i : Int)
  | flag (b : Bool)
  | bytes (bs : List UInt8)
  | ip (ip : Ipv4)
  | peer (ip : Ipv4) (port : ℕ)
  | config (c : Nina.IpConfig)
  | status (s : WlStatus)
  | enct (e : EncType)
  | state (s : SockState)
  | socket (s : Option Socket)
  | info (i : Nina.NetworkInfo)
  | scan (s : Nina.Scan)
deriving DecidableEq, Repr

/-- The outcome of an operation. -/
abbrev Result (E : Type) := Except (Error E) Value

def Nina.as (x : Nina E α) (f : α → Value) : Prog (halSig E) (Result E) :=
  x.run.bind fun r => .ret (r.map f)

/-- A result, and the caller's buffer as it was left. -/
def BufM.as (x : BufM E α) (out : Buf) (f : α → Buf → Value) : Prog (halSig E) (Result E) :=
  (x.run out).bind fun r => .ret (r.1.map fun a => f a r.2)

def Client.as (x : Client E α) (f : α → Value) : Prog rpcSig (Result E) :=
  x.run.bind fun r => .ret (r.map f)

/-- **An operation, its result kept**: bytes read into the caller's buffer are its front. -/
def Op.result (fuel : ℕ) : Op → Prog (halSig E) (Result E)
  | .init => Nina.init.as fun _ => .unit
  | .getFwVersion buf => Nina.getFwVersion.as buf fun bs _ => .bytes bs
  | .scanNetworks scratch settleMs => (Nina.scanNetworks settleMs).as scratch fun s _ => .scan s
  | .connect ssid psk => (Nina.connect fuel ssid psk).as fun _ => .unit
  | .waitForConnected timeout => (Nina.waitForConnected fuel timeout).as fun _ => .unit
  | .connectWpa ssid passphrase => (Nina.connectWpa ssid passphrase).as .byte
  | .macAddr => Nina.macAddr.as .bytes
  | .currentSsid buf => Nina.currentSsid.as buf fun bs _ => .bytes bs
  | .scanRssi index => (Nina.scanRssi index).as .int
  | .scanEnct index => (Nina.scanEnct index).as .enct
  | .networkInfo index => (Nina.networkInfo index).as .info
  | .scanChannel index => (Nina.scanChannel index).as .byte
  | .tcpListen sock port => (Nina.tcpListen sock port).as fun _ => .unit
  | .tcpAccept listenSock => (Nina.tcpAccept listenSock).as .socket
  | .setHostname name => (Nina.setHostname name).as fun _ => .unit
  | .setNetConfig addr gateway subnet => (Nina.setNetConfig addr gateway subnet).as fun _ => .unit
  | .setDnsConfig primary secondary => (Nina.setDnsConfig primary secondary).as fun _ => .unit
  | .setPowerSave enabled => (Nina.setPowerSave enabled).as fun _ => .unit
  | .getTemperature => Nina.getTemperature.as .nat
  | .getCurrentRssi => Nina.getCurrentRssi.as .int
  | .getCurrentBssid => Nina.getCurrentBssid.as .bytes
  | .getCurrentEnct => Nina.getCurrentEnct.as .enct
  | .scanBssid index => (Nina.scanBssid index).as .bytes
  | .getReasonCode => Nina.getReasonCode.as .byte
  | .pinMode pin mode => (Nina.pinMode pin mode).as fun _ => .unit
  | .digitalWrite pin value => (Nina.digitalWrite pin value).as fun _ => .unit
  | .analogWrite pin value => (Nina.analogWrite pin value).as fun _ => .unit
  | .digitalRead pin => (Nina.digitalRead pin).as .flag
  | .analogRead pin => (Nina.analogRead pin).as .nat
  | .startApOpen ssid channel => (Nina.startApOpen ssid channel).as fun _ => .unit
  | .startApWpa ssid passphrase channel =>
    (Nina.startApWpa ssid passphrase channel).as fun _ => .unit
  | .disconnect => Nina.disconnect.as fun _ => .unit
  | .ping addr ttl => (Nina.ping addr ttl).as .nat
  | .dnsLookup hostname => (Nina.dnsLookup hostname).as .ip
  | .tcpOpenSocket => Nina.tcpOpenSocket.as fun sock => .socket (some sock)
  | .tcpStartClient sock addr port mode =>
    (Nina.tcpStartClient sock addr port mode).as fun _ => .unit
  | .tcpStartClientHostname sock hostname addr port mode =>
    (Nina.tcpStartClientHostname sock hostname addr port mode).as fun _ => .unit
  | .tcpState sock => (Nina.tcpState sock).as .state
  | .tcpAvail sock => (Nina.tcpAvail sock).as .nat
  | .tcpSend sock data => (Nina.tcpSend sock data).as .nat
  | .checkDataSent sock => (Nina.checkDataSent sock).as fun _ => .unit
  | .tcpRecv sock out => (Nina.tcpRecv sock).as out fun n out => .bytes (out.take n)
  | .udpBind sock port => (Nina.udpBind sock port).as fun _ => .unit
  | .udpSend sock addr port data => (Nina.udpSend sock addr port data).as fun _ => .unit
  | .udpBeginPacket sock addr port => (Nina.udpBeginPacket sock addr port).as fun _ => .unit
  | .udpWrite sock data => (Nina.udpWrite sock data).as fun _ => .unit
  | .udpEndPacket sock => (Nina.udpEndPacket sock).as fun _ => .unit
  | .udpRemote sock => (Nina.udpRemote sock).as fun r => .peer r.1 r.2
  | .tcpClose sock => (Nina.tcpClose sock).as fun _ => .unit
  | .tcpConnect addr port => (Nina.tcpConnect addr port).as fun sock => .socket (some sock)
  | .status => Nina.status.as .status
  | .ip => Nina.ip.as .ip
  | .ipConfig => Nina.ipConfig.as .config
  | .tcpSocketClose sock => (NinaTcpSocket.close sock).as fun _ => .unit
  | .tcpSocketRead sock buf =>
    (NinaTcpSocket.read fuel sock).as buf fun n out => .bytes (out.take n)
  | .tcpSocketWrite sock buf => (NinaTcpSocket.write sock buf).as .nat
  | .stackConnect mode remote => (NinaStack.connect mode remote).as fun sock => .socket (some sock)
  | .stackConnectHostname mode hostname port =>
    (NinaStack.connectHostname mode hostname port).as fun sock => .socket (some sock)
  | .stackGetHostByName host addrType => (NinaStack.getHostByName host addrType).as .ip
  | .socketRead sock buf => (NinaSocket.read fuel sock).as buf fun n out => .bytes (out.take n)
  | .socketWrite sock buf => (NinaSocket.write sock buf).as .nat

open Client in
/-- **What an operation is for**: the commands it has served, and what it makes of the answers. -/
def Op.remote (fuel : ℕ) : Op → Prog rpcSig (Result E)
  | .init => Client.init.as fun _ => .unit
  | .getFwVersion buf => (one .getFwVersion buf.length).as fun p => .bytes (p.takeWhile (· ≠ 0))
  | .scanNetworks scratch settleMs =>
    (Client.scanNetworks scratch.length settleMs).as fun ps =>
      .scan ⟨encodeAll (ps.map .short), UInt8.ofNat ps.length⟩
  | .connect ssid psk => (Client.connect fuel ssid psk).as fun _ => .unit
  | .waitForConnected timeout => (Client.waitForConnected fuel timeout).as fun _ => .unit
  | .connectWpa ssid passphrase => (byte (.setPassphrase ssid passphrase)).as .byte
  | .macAddr => (mac .getMacAddr).as .bytes
  | .currentSsid buf => (one .getCurrSsid buf.length).as .bytes
  | .scanRssi index => (Client.scanRssi index).as .int
  | .scanEnct index => (byte (.getIdxEnct index)).as fun b => .enct (EncType.fromU8 b)
  | .networkInfo index => (Client.networkInfo index).as .info
  | .scanChannel index => (byte (.getIdxChannel index)).as .byte
  | .tcpListen sock port => (acked (.startServerTcp port sock tcpMode)).as fun _ => .unit
  | .tcpAccept listenSock => (Client.tcpAccept listenSock).as .socket
  | .setHostname name => (acked (.setHostname name)).as fun _ => .unit
  | .setNetConfig addr gateway subnet => (acked (.setNet addr gateway subnet)).as fun _ => .unit
  | .setDnsConfig primary secondary => (acked (.setDnsConfig primary secondary)).as fun _ => .unit
  | .setPowerSave enabled => (acked (.setPowerMode enabled)).as fun _ => .unit
  | .getTemperature => (four .getTemperature u32OfLe).as .nat
  | .getCurrentRssi => (four .getCurrRssi i32OfLe).as .int
  | .getCurrentBssid => (mac .getCurrBssid).as .bytes
  | .getCurrentEnct => (byte .getCurrEnct).as fun b => .enct (EncType.fromU8 b)
  | .scanBssid index => (mac (.getIdxBssid index)).as .bytes
  | .getReasonCode => (byte .getReasonCode).as .byte
  | .pinMode pin mode => (acked (.setPinMode pin mode)).as fun _ => .unit
  | .digitalWrite pin value => (acked (.setDigitalWrite pin (value ≠ 0))).as fun _ => .unit
  | .analogWrite pin value => (acked (.setAnalogWrite pin value)).as fun _ => .unit
  | .digitalRead pin => (byte (.getDigitalRead pin)).as fun b => .flag (b ≠ 0)
  | .analogRead pin => (Client.analogRead pin).as .nat
  | .startApOpen ssid channel => (acked (.setApNet ssid channel)).as fun _ => .unit
  | .startApWpa ssid passphrase channel =>
    (acked (.setApPassphrase ssid passphrase channel)).as fun _ => .unit
  | .disconnect => (byte .disconnect).as fun _ => .unit
  | .ping addr ttl => (Client.ping addr ttl).as .nat
  | .dnsLookup hostname => (Client.dnsLookup hostname).as .ip
  | .tcpOpenSocket => Client.tcpOpenSocket.as fun sock => .socket (some sock)
  | .tcpStartClient sock addr port mode =>
    (start (.startClientTcp addr port sock mode)).as fun _ => .unit
  | .tcpStartClientHostname sock hostname addr port mode =>
    (start (.startClientTcpHostname hostname addr port sock mode)).as fun _ => .unit
  | .tcpState sock => (Client.tcpState sock).as .state
  | .tcpAvail sock => (count (.availDataTcp sock)).as .nat
  | .tcpSend sock data | .tcpSocketWrite sock data => (Client.tcpSend sock data).as .nat
  | .checkDataSent sock => (Client.checkDataSent sock).as fun _ => .unit
  | .tcpRecv sock out => (Client.tcpRecv sock out.length).as .bytes
  | .udpBind sock port => (acked (.startServerTcp port sock udpMode)).as fun _ => .unit
  | .udpSend sock addr port data => (Client.udpSend sock addr port data).as fun _ => .unit
  | .udpBeginPacket sock addr port =>
    (start (.startClientTcp addr port sock udpMode)).as fun _ => .unit
  | .udpWrite sock data => (Client.udpWrite sock data).as fun _ => .unit
  | .udpEndPacket sock => (Client.udpEndPacket sock).as fun _ => .unit
  | .udpRemote sock => (call (.getRemoteData sock) fun a => a.many 16 >>= remoteOf).as
      fun r => .peer r.1 r.2
  | .tcpClose sock | .tcpSocketClose sock => (Client.tcpClose sock).as fun _ => .unit
  | .tcpConnect addr port =>
    (Client.tcpConnect addr port tcpMode).as fun sock => .socket (some sock)
  | .status => Client.status.as .status
  | .ip => (call .getIpaddr fun a => a.many 32 >>= ipConfigOf).as fun c => .ip c.ip
  | .ipConfig => (call .getIpaddr fun a => a.many 32 >>= ipConfigOf).as .config
  | .tcpSocketRead sock buf => (Client.tcpSocketRead fuel sock buf.length).as .bytes
  | .stackConnect mode remote =>
    (Client.stackConnect mode remote).as fun sock => .socket (some sock)
  | .stackConnectHostname mode hostname port =>
    (Client.stackConnectHostname mode hostname port).as fun sock => .socket (some sock)
  | .stackGetHostByName host addrType => (Client.getHostByName host addrType).as .ip
  | .socketRead sock buf => (Client.socketRead fuel sock buf.length).as .bytes
  | .socketWrite sock buf => (locked (Client.tcpSend sock buf)).as .nat

theorem Nina.as_drop (x : Nina E α) (f : α → Value) :
    (x.as f).bind (fun _ => .ret ()) = x.drop := by
  rw [Nina.as, bind_assoc]
  rfl

theorem BufM.as_drop (x : BufM E α) (out : Buf) (f : α → Buf → Value) :
    (x.as out f).bind (fun _ => .ret ()) = x.drop out := by
  rw [BufM.as, bind_assoc]
  rfl

/-- The results dropped, these are the operations. -/
theorem Op.prog_eq (fuel : ℕ) (op : Op) :
    op.prog (E := E) fuel = (op.result fuel).bind fun _ => .ret () := by
  cases op with
  | getFwVersion | scanNetworks | currentSsid | tcpRecv | tcpSocketRead | socketRead =>
    rw [result, BufM.as_drop, prog]
  | _ => exact (Nina.as_drop _ _).symm

end EmbassyNina
