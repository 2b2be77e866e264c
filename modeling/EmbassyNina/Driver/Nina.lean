import EmbassyNina.Driver.Framing

/-!
# Driver/Nina — the public operations of `driver.rs`

Each operation sends a request, receives the reply to it and decodes the reply; some do several such
exchanges.  The families the source repeats (`command` and its decodings) are stated once, and every
operation keeps its own name, opcode, parameters and bounds.

An unbounded loop takes the number `fuel` of turns to unroll, and says so when they are used up.
-/

namespace EmbassyNina

open Machinery

variable {E : Type}

/-- `[u8; 4]`. -/
abbrev Ipv4 := Vector UInt8 4

/-- The four bytes of a local buffer. -/
def ip4 (buf : Buf) : Ipv4 := #v[buf.getD 0 0, buf.getD 1 0, buf.getD 2 0, buf.getD 3 0]

theorem ip4_toList (v : Ipv4) : ip4 v.toList = v := by
  obtain ⟨⟨l⟩, hl⟩ := v
  obtain _ | ⟨a, _ | ⟨b, _ | ⟨c, _ | ⟨d, _ | ⟨e, l⟩⟩⟩⟩⟩ := l
  all_goals first | rfl | exact absurd hl (by simp)

theorem toList_ip4 {p : List UInt8} (h : p.length = 4) : (ip4 p).toList = p := by
  obtain _ | ⟨a, _ | ⟨b, _ | ⟨c, _ | ⟨d, _ | ⟨e, p⟩⟩⟩⟩⟩ := p
  all_goals first | rfl | exact absurd h (by simp)

/-- `u32::from_le_bytes` on the four bytes of a local buffer. -/
def u32OfLe (buf : Buf) : ℕ :=
  ofLeBytes (buf.getD 2 0) (buf.getD 3 0) * 65536 + ofLeBytes (buf.getD 0 0) (buf.getD 1 0)

/-- `i32::from_le_bytes`. -/
def i32OfLe (buf : Buf) : Int := Int.bmod (u32OfLe buf) (2 ^ 32)

namespace Nina

/-! ## Families of exchanges -/

/-- Short parameters out, one parameter of at most `n` bytes back. -/
def command (cmd : UInt8) (params : List (List UInt8)) (n : ℕ) : Nina E (ℕ × Buf) := do
  sendCmd cmd params
  withBuf n (recvCmdOneParam cmd)

/-- The first byte of a one-byte buffer, whatever the reply's length. -/
def byteCommand (cmd : UInt8) (params : List (List UInt8)) : Nina E UInt8 := do
  let (_, buf) ← command cmd params 1
  return buf.getD 0 0

/-- `if buf[0] != 1 { return Err(Error::Nina) }`. -/
def ackedCommand (cmd : UInt8) (params : List (List UInt8)) : Nina E Unit := do
  let b ← byteCommand cmd params
  failIf (b ≠ 1) .nina

/-- A MAC address, which comes back LSB-first. -/
def macCommand (cmd : UInt8) (params : List (List UInt8)) : Nina E (List UInt8) := do
  let (n, buf) ← command cmd params 8
  failIf (n ≠ 6) .framing
  return [buf.getD 5 0, buf.getD 4 0, buf.getD 3 0, buf.getD 2 0, buf.getD 1 0, buf.getD 0 0]

/-- `match n { 1 => .., 2 => .., _ => return Err(Error::Framing) }`. -/
def count12 (n : ℕ) (buf : Buf) : Nina E ℕ :=
  match n with
  | 1 => pure (buf.getD 0 0).toNat
  | 2 => pure (ofLeBytes (buf.getD 0 0) (buf.getD 1 0))
  | _ => throw .framing

/-- A count of one or two bytes. -/
def countCommand (cmd : UInt8) (params : List (List UInt8)) : Nina E ℕ := do
  let (n, buf) ← command cmd params 4
  count12 n buf

/-! ## Reset -/

/-- Tear down any current association. -/
def disconnect : Nina E Unit := do
  let _ ← byteCommand cmdDisconnect [[dummy]]

/-- Hardware reset, boot, and three disconnects whose results are dropped. -/
def init : Nina E Unit := do
  ofPin (hal .bootSetHigh)
  ofPin (hal .csSetHigh)
  ofPin (hal .rstSetLow)
  timer resetLowMs
  ofPin (hal .rstSetHigh)
  timer resetBootMs
  ofPin (hal .bootSetLow)
  repeatFor 3 (do
    let _ ← attempt disconnect
    timer 300
    return none) (pure ())

/-! ## Association -/

/-- Current Wi-Fi connection state. -/
def status : Nina E WlStatus := do
  let b ← byteCommand cmdGetConnStatus [[dummy]]
  return WlStatus.fromU8 b

/-- Connect to a WPA2-PSK network; returns the chip's ack byte. -/
def connectWpa (ssid passphrase : List UInt8) : Nina E UInt8 :=
  byteCommand cmdSetPassphrase [ssid, passphrase]

/-- Poll `status` until it reports `Connected` or the deadline passes. -/
def waitForConnected (fuel timeout : ℕ) : Nina E Unit := do
  let deadline := (← now) + timeout
  repeatFor fuel (do
    failIf (¬ (← now) < deadline) .timeout
    match ← attempt status with
    | .ok .connected => return some ()
    | _ =>
      timer 250
      return none) outOfFuel

/-- Up to five `connectWpa` attempts, each with a 20 s status wait and a 2 s settle. -/
def connect (fuel : ℕ) (ssid psk : List UInt8) : Nina E Unit :=
  repeatFor 5 (do
    let _ ← attempt (connectWpa ssid psk)
    match ← attempt (waitForConnected fuel 20000) with
    | .ok _ => return some ()
    | .error _ =>
      let _ ← attempt disconnect
      timer 2000
      return none) (throw .timeout)

def startApOpen (ssid : List UInt8) (channel : UInt8) : Nina E Unit :=
  ackedCommand cmdSetApNet [ssid, [channel]]

def startApWpa (ssid passphrase : List UInt8) (channel : UInt8) : Nina E Unit :=
  ackedCommand cmdSetApPassphrase [ssid, passphrase, [channel]]

/-! ## Chip information and configuration -/

/-- The firmware version, its trailing NUL stripped. -/
def getFwVersion : BufM E (List UInt8) := do
  BufM.lift (sendCmdNoParams cmdGetFwVersion)
  let n ← recvCmdOneParam cmdGetFwVersion
  let slice ← BufM.sliceTo n
  match slice.findIdx? (· = 0) with
  | some i => return slice.take i
  | none => return slice

def macAddr : Nina E (List UInt8) := macCommand cmdGetMacAddr [[dummy]]

def currentSsid : BufM E (List UInt8) := do
  BufM.lift (sendCmd cmdGetCurrSsid [[dummy]])
  let n ← recvCmdOneParam cmdGetCurrSsid
  BufM.sliceTo n

def setHostname (name : List UInt8) : Nina E Unit := ackedCommand cmdSetHostname [name]

def setNetConfig (ip gateway subnet : Ipv4) : Nina E Unit :=
  ackedCommand cmdSetNet [[3], ip.toList, gateway.toList, subnet.toList]

def setDnsConfig (primary secondary : Ipv4) : Nina E Unit :=
  ackedCommand cmdSetDnsConfig [[2], primary.toList, secondary.toList]

def setPowerSave (enabled : Bool) : Nina E Unit :=
  ackedCommand cmdSetPowerMode [[if enabled then 1 else 0]]

/-- The bits of the `f32` the chip reports. -/
def getTemperature : Nina E ℕ := do
  let (n, buf) ← command cmdGetTemperature [] 4
  failIf (n ≠ 4) .framing
  return u32OfLe buf

def getCurrentRssi : Nina E Int := do
  let (n, buf) ← command cmdGetCurrRssi [[dummy]] 4
  failIf (n ≠ 4) .framing
  return i32OfLe buf

def getCurrentBssid : Nina E (List UInt8) := macCommand cmdGetCurrBssid [[dummy]]

def getCurrentEnct : Nina E EncType := do
  let b ← byteCommand cmdGetCurrEnct [[dummy]]
  return EncType.fromU8 b

def getReasonCode : Nina E UInt8 := byteCommand cmdGetReasonCode [[dummy]]

/-! ## Scanning -/

/-- A completed scan: a scratch buffer holding `[len_0, ssid_0, len_1, ssid_1, ...]`. -/
structure Scan where
  buf : Buf
  n : UInt8
deriving DecidableEq, Repr

/-- Trigger a scan, let it settle, and pull the SSIDs into the caller's scratch buffer. -/
def scanNetworks (settleMs : ℕ) : BufM E Scan := do
  BufM.lift (sendCmdNoParams cmdStartScanNetworks)
  let _ ← BufM.lift (withBuf 1 (recvCmdOneParam cmdStartScanNetworks))
  BufM.lift (timer settleMs)
  BufM.lift (sendCmdNoParams cmdScanNetworks)
  let (n, written) ← recvCmdInto cmdScanNetworks
  let buf ← BufM.sliceTo written
  return ⟨buf, n⟩

/-- `v as i8` of the 32-bit value received. -/
def scanRssi (index : UInt8) : Nina E Int := do
  let (n, buf) ← command cmdGetIdxRssi [[index]] 4
  failIf (n ≠ 4) .framing
  return Int.bmod (i32OfLe buf) 256

def scanEnct (index : UInt8) : Nina E EncType := do
  let b ← byteCommand cmdGetIdxEnct [[index]]
  return EncType.fromU8 b

def scanChannel (index : UInt8) : Nina E UInt8 := byteCommand cmdGetIdxChannel [[index]]

def scanBssid (index : UInt8) : Nina E (List UInt8) := macCommand cmdGetIdxBssid [[index]]

structure NetworkInfo where
  rssi : Int
  enct : EncType
  channel : UInt8
  bssid : List UInt8
deriving DecidableEq, Repr

def networkInfo (index : UInt8) : Nina E NetworkInfo := do
  let rssi ← scanRssi index
  let enct ← scanEnct index
  let channel ← scanChannel index
  let bssid ← scanBssid index
  return ⟨rssi, enct, channel, bssid⟩

/-! ## GPIO -/

def pinMode (pin : UInt8) (mode : PinMode) : Nina E Unit :=
  ackedCommand cmdSetPinMode [[pin], [mode.toU8]]

def digitalWrite (pin value : UInt8) : Nina E Unit :=
  ackedCommand cmdSetDigitalWrite [[pin], [if value ≠ 0 then 1 else 0]]

def analogWrite (pin value : UInt8) : Nina E Unit :=
  ackedCommand cmdSetAnalogWrite [[pin], [value]]

def digitalRead (pin : UInt8) : Nina E Bool := do
  let b ← byteCommand cmdGetDigitalRead [[pin]]
  return b ≠ 0

def analogRead (pin : UInt8) : Nina E ℕ := do
  let (n, buf) ← command cmdGetAnalogRead [[pin]] 4
  match n with
  | 1 => return (buf.getD 0 0).toNat
  | 2 => return ofLeBytes (buf.getD 0 0) (buf.getD 1 0)
  | 4 => return min (u32OfLe buf) 65535
  | _ => throw .framing

/-! ## Ping and names -/

def ping (ip : Ipv4) (ttl : UInt8) : Nina E ℕ := do
  let rtt ← countCommand cmdPing [ip.toList, [ttl]]
  failIf (rtt = 0xFFFF) .nina
  return rtt

/-- Queue a lookup, then poll for its answer up to forty times. -/
def dnsLookup (hostname : List UInt8) : Nina E Ipv4 := do
  let ack ← byteCommand cmdReqHostByName [hostname]
  failIf (ack ≠ 1) .nina
  repeatFor 40 (do
    timer 100
    sendCmdNoParams cmdGetHostByName
    match ← attempt (withBuf 4 (recvCmdOneParam cmdGetHostByName)) with
    | .ok (4, ip) => if ip ≠ [0, 0, 0, 0] then return some (ip4 ip) else return none
    | .ok _ => return none
    | .error .framing | .error .nina => return none
    | .error e => throw e) (throw .timeout)

/-! ## TCP -/

/-- Reserve a socket handle; `0xFF` means there is none. -/
def tcpOpenSocket : Nina E Socket := do
  let b ← byteCommand cmdGetSocket []
  failIf (b = 0xFF) .nina
  return ⟨b⟩

/-- Start a connect attempt.  The reply's one or zero parameters are both accepted. -/
def tcpStartClient (sock : Socket) (ip : Ipv4) (port : UInt16) (mode : UInt8) : Nina E Unit := do
  sendCmd cmdStartClientTcp [ip.toList, beBytes port.toNat, [sock.raw], [mode]]
  let _ ← withBuf 4 (recvCmdInto cmdStartClientTcp)

/-- Start a connect attempt that carries a hostname for SNI. -/
def tcpStartClientHostname (sock : Socket) (hostname : List UInt8) (ip : Ipv4) (port : UInt16)
    (mode : UInt8) : Nina E Unit := do
  sendCmd cmdStartClientTcp [hostname, ip.toList, beBytes port.toNat, [sock.raw], [mode]]
  let _ ← withBuf 4 (recvCmdInto cmdStartClientTcp)

def tcpState (sock : Socket) : Nina E SockState := do
  let b ← byteCommand cmdGetClientStateTcp [[sock.raw]]
  return SockState.fromU8 b

def tcpAvail (sock : Socket) : Nina E ℕ := countCommand cmdAvailDataTcp [[sock.raw]]

def tcpListen (sock : Socket) (port : UInt16) : Nina E Unit :=
  ackedCommand cmdStartServerTcp [beBytes port.toNat, [sock.raw], [tcpMode]]

/-- Poll a listening socket; both sentinels mean that no client is pending. -/
def tcpAccept (listenSock : Socket) : Nina E (Option Socket) := do
  let raw ← countCommand cmdAvailDataTcp [[listenSock.raw], [0]]
  if raw = 0x00FF ∨ raw = 0xFFFF then return none else return some ⟨UInt8.ofNat raw⟩

/-- Poll until the chip reports the previous payload sent, up to twenty times. -/
def checkDataSent (sock : Socket) : Nina E Unit :=
  repeatFor 20 (do
    let b ← byteCommand cmdDataSentTcp [[sock.raw]]
    if b ≠ 0 then return some () else
      timer 50
      return none) (throw .timeout)

/-- `for _ in 0..5`: offer a chunk until an ack is positive, returning the last ack. -/
def offerChunk (sock : Socket) (chunk : List UInt8) : ℕ → ℕ → Nina E ℕ
  | 0, written => pure written
  | k + 1, _ => do
    sendCmdMixed cmdSendDataTcp [.long [sock.raw], .long chunk]
    let (n, buf) ← withBuf 4 (recvCmdOneParam cmdSendDataTcp)
    let written ← count12 n buf
    if written > 0 then return written else offerChunk sock chunk k written

/-- `data.chunks(n)`, unrolled for at most `k` chunks. -/
def chunksUpTo (n : ℕ) : ℕ → List UInt8 → List (List UInt8)
  | 0, _ => []
  | _ + 1, [] => []
  | k + 1, data => data.take n :: chunksUpTo n k (data.drop n)

/-- `data.chunks(n)`: slices of `n` bytes, the last one shorter. -/
def chunks (n : ℕ) (data : List UInt8) : List (List UInt8) := chunksUpTo n data.length data

/-- `for chunk in data.chunks(CHUNK)`, with the running `total`. -/
def sendChunks (sock : Socket) : List (List UInt8) → ℕ → Nina E ℕ
  | [], total => pure total
  | chunk :: rest, total => do
    let written ← offerChunk sock chunk 5 0
    failIf (written = 0) .nina
    checkDataSent sock
    sendChunks sock rest (min (total + written) 65535)

/-- Send `data` in chunks of 64 bytes. -/
def tcpSend (sock : Socket) (data : List UInt8) : Nina E ℕ := sendChunks sock (chunks 64 data) 0

/-- Pull up to `out.len()` bytes from the receive buffer into the caller's buffer. -/
def tcpRecv (sock : Socket) : BufM E ℕ := do
  let want := min (← BufM.len) 65535
  BufM.lift (sendCmdMixed cmdGetDatabufTcp [.long [sock.raw], .long (leBytes want)])
  recvCmdOneParam16 cmdGetDatabufTcp

def tcpClose (sock : Socket) : Nina E Unit := do
  let _ ← byteCommand cmdStopClientTcp [[sock.raw]]
  timer 100

/-- Open a socket, start the connect and poll its state up to forty times. -/
def tcpConnect (ip : Ipv4) (port : UInt16) : Nina E Socket := do
  let sock ← tcpOpenSocket
  tcpStartClient sock ip port tcpMode
  repeatFor 40 (do
    match ← tcpState sock with
    | .established => return some sock
    | .closed | .finWait1 | .finWait2 | .closing | .lastAck | .timeWait | .closeWait
    | _ =>
      timer 250
      return none) (do
    let _ ← attempt (tcpClose sock)
    throw .timeout)

/-! ## UDP -/

def udpBind (sock : Socket) (port : UInt16) : Nina E Unit :=
  ackedCommand cmdStartServerTcp [beBytes port.toNat, [sock.raw], [udpMode]]

def udpBeginPacket (sock : Socket) (ip : Ipv4) (port : UInt16) : Nina E Unit :=
  tcpStartClient sock ip port udpMode

def udpWrite (sock : Socket) (data : List UInt8) : Nina E Unit := do
  sendCmdMixed cmdInsertDatabuf [.long [sock.raw], .long data]
  let (_, buf) ← withBuf 1 (recvCmdOneParam cmdInsertDatabuf)
  failIf (buf.getD 0 0 ≠ 1) .nina

def udpEndPacket (sock : Socket) : Nina E Unit := do
  timer 10
  ackedCommand cmdSendUdpData [[sock.raw]]

def udpSend (sock : Socket) (ip : Ipv4) (port : UInt16) (data : List UInt8) : Nina E Unit := do
  udpBeginPacket sock ip port
  timer 20
  udpWrite sock data
  udpEndPacket sock

/-- Peer address and port of the most recent datagram. -/
def udpRemote (sock : Socket) : Nina E (Ipv4 × ℕ) := do
  sendCmd cmdGetRemoteData [[sock.raw]]
  let (r, _) ← withBuf 16 (do
    let (_, written) ← recvCmdInto cmdGetRemoteData
    BufM.failIf (written < 1 + 4 + 1 + 2) .framing
    BufM.failIf ((← BufM.getIdx 0) ≠ 4) .framing
    let ip : Ipv4 := #v[← BufM.getIdx 1, ← BufM.getIdx 2, ← BufM.getIdx 3, ← BufM.getIdx 4]
    BufM.failIf ((← BufM.getIdx 5) ≠ 2) .framing
    return (ip, ofBeBytes (← BufM.getIdx 6) (← BufM.getIdx 7)))
  return r

/-! ## IP configuration -/

structure IpConfig where
  ip : Ipv4
  subnet : Ipv4
  gateway : Ipv4
deriving DecidableEq, Repr

/-- The closure `take_v4`: one packed 4-byte value at the cursor, and the cursor past it. -/
def takeV4 (written cur : ℕ) : BufM E (Ipv4 × ℕ) := do
  BufM.failIf (cur + 1 > written) .framing
  let len := (← BufM.getIdx cur).toNat
  let cur := cur + 1
  BufM.failIf (len ≠ 4 ∨ cur + 4 > written) .framing
  let v : Ipv4 := #v[← BufM.getIdx cur, ← BufM.getIdx (cur + 1), ← BufM.getIdx (cur + 2),
    ← BufM.getIdx (cur + 3)]
  return (v, cur + 4)

/-- Address, subnet mask and gateway of the STA interface. -/
def ipConfig : Nina E IpConfig := do
  sendCmd cmdGetIpaddr [[dummy]]
  let (c, _) ← withBuf 32 (do
    let (nParams, written) ← recvCmdInto cmdGetIpaddr
    BufM.failIf (nParams < 3) .framing
    let (ip, cur) ← takeV4 written 0
    let (subnet, cur) ← takeV4 written cur
    let (gateway, _) ← takeV4 written cur
    return IpConfig.mk ip subnet gateway)
  return c

def ip : Nina E Ipv4 := do
  let c ← ipConfig
  return c.ip

end Nina

end EmbassyNina
