import EmbassyNina.Driver.Nina
import EmbassyNina.Wire.Frame

/-!
# Remote/Command — the requests of the driver as a language

`Command` lists what the driver asks of the firmware, each with the arguments it carries, and
`Command.request` is the frame that goes out for it.  `Command.ofRequest` reads a frame the way a
firmware does: the opcode tells how wide the lengths are and what the parameters mean.

`ofRequest_request` is the round trip: a command whose strings fit their length prefixes is told
from its frame, so no two commands share one (`request_injOn`).
-/

namespace EmbassyNina

open Machinery

/-- **What the driver asks of the firmware.** -/
inductive Command
  | setNet (ip gateway subnet : Ipv4)
  | setPassphrase (ssid passphrase : List UInt8)
  | setDnsConfig (primary secondary : Ipv4)
  | setHostname (name : List UInt8)
  | setPowerMode (saving : Bool)
  | setApNet (ssid : List UInt8) (channel : UInt8)
  | setApPassphrase (ssid passphrase : List UInt8) (channel : UInt8)
  | getTemperature
  | getReasonCode
  | getConnStatus
  | getIpaddr
  | getMacAddr
  | getCurrSsid
  | getCurrBssid
  | getCurrRssi
  | getCurrEnct
  | scanNetworks
  | startServerTcp (port : UInt16) (sock : Socket) (mode : UInt8)
  | dataSentTcp (sock : Socket)
  | availDataTcp (sock : Socket)
  | acceptTcp (listenSock : Socket)
  | startClientTcp (ip : Ipv4) (port : UInt16) (sock : Socket) (mode : UInt8)
  | startClientTcpHostname (hostname : List UInt8) (ip : Ipv4) (port : UInt16) (sock : Socket)
      (mode : UInt8)
  | stopClientTcp (sock : Socket)
  | getClientStateTcp (sock : Socket)
  | disconnect
  | getIdxRssi (index : UInt8)
  | getIdxEnct (index : UInt8)
  | getIdxBssid (index : UInt8)
  | getIdxChannel (index : UInt8)
  | reqHostByName (hostname : List UInt8)
  | getHostByName
  | startScanNetworks
  | getFwVersion
  | sendUdpData (sock : Socket)
  | getRemoteData (sock : Socket)
  | ping (ip : Ipv4) (ttl : UInt8)
  | getSocket
  | sendDataTcp (sock : Socket) (data : List UInt8)
  | getDatabufTcp (sock : Socket) (want : UInt16)
  | insertDatabuf (sock : Socket) (data : List UInt8)
  | setPinMode (pin : UInt8) (mode : PinMode)
  | setDigitalWrite (pin : UInt8) (high : Bool)
  | setAnalogWrite (pin value : UInt8)
  | getDigitalRead (pin : UInt8)
  | getAnalogRead (pin : UInt8)
deriving DecidableEq, Repr

namespace Command

def opcode : Command → UInt8
  | setNet .. => cmdSetNet
  | setPassphrase .. => cmdSetPassphrase
  | setDnsConfig .. => cmdSetDnsConfig
  | setHostname .. => cmdSetHostname
  | setPowerMode .. => cmdSetPowerMode
  | setApNet .. => cmdSetApNet
  | setApPassphrase .. => cmdSetApPassphrase
  | getTemperature => cmdGetTemperature
  | getReasonCode => cmdGetReasonCode
  | getConnStatus => cmdGetConnStatus
  | getIpaddr => cmdGetIpaddr
  | getMacAddr => cmdGetMacAddr
  | getCurrSsid => cmdGetCurrSsid
  | getCurrBssid => cmdGetCurrBssid
  | getCurrRssi => cmdGetCurrRssi
  | getCurrEnct => cmdGetCurrEnct
  | scanNetworks => cmdScanNetworks
  | startServerTcp .. => cmdStartServerTcp
  | dataSentTcp .. => cmdDataSentTcp
  | availDataTcp .. | acceptTcp .. => cmdAvailDataTcp
  | startClientTcp .. | startClientTcpHostname .. => cmdStartClientTcp
  | stopClientTcp .. => cmdStopClientTcp
  | getClientStateTcp .. => cmdGetClientStateTcp
  | disconnect => cmdDisconnect
  | getIdxRssi .. => cmdGetIdxRssi
  | getIdxEnct .. => cmdGetIdxEnct
  | getIdxBssid .. => cmdGetIdxBssid
  | getIdxChannel .. => cmdGetIdxChannel
  | reqHostByName .. => cmdReqHostByName
  | getHostByName => cmdGetHostByName
  | startScanNetworks => cmdStartScanNetworks
  | getFwVersion => cmdGetFwVersion
  | sendUdpData .. => cmdSendUdpData
  | getRemoteData .. => cmdGetRemoteData
  | ping .. => cmdPing
  | getSocket => cmdGetSocket
  | sendDataTcp .. => cmdSendDataTcp
  | getDatabufTcp .. => cmdGetDatabufTcp
  | insertDatabuf .. => cmdInsertDatabuf
  | setPinMode .. => cmdSetPinMode
  | setDigitalWrite .. => cmdSetDigitalWrite
  | setAnalogWrite .. => cmdSetAnalogWrite
  | getDigitalRead .. => cmdGetDigitalRead
  | getAnalogRead .. => cmdGetAnalogRead

def bit (b : Bool) : UInt8 := if b then 1 else 0

/-- The parameters of a command, as they stand in its frame. -/
def params : Command → List Param
  | setNet ip gateway subnet =>
    [.short [3], .short ip.toList, .short gateway.toList, .short subnet.toList]
  | setPassphrase ssid passphrase => [.short ssid, .short passphrase]
  | setDnsConfig primary secondary => [.short [2], .short primary.toList, .short secondary.toList]
  | setHostname name => [.short name]
  | setPowerMode saving => [.short [bit saving]]
  | setApNet ssid channel => [.short ssid, .short [channel]]
  | setApPassphrase ssid passphrase channel => [.short ssid, .short passphrase, .short [channel]]
  | getReasonCode | getConnStatus | getIpaddr | getMacAddr | getCurrSsid | getCurrBssid
  | getCurrRssi | getCurrEnct | disconnect => [.short [dummy]]
  | getTemperature | scanNetworks | getHostByName | startScanNetworks | getFwVersion | getSocket =>
    []
  | startServerTcp port sock mode => [.short (beBytes port.toNat), .short [sock.raw], .short [mode]]
  | dataSentTcp sock | availDataTcp sock | stopClientTcp sock | getClientStateTcp sock
  | sendUdpData sock | getRemoteData sock => [.short [sock.raw]]
  | acceptTcp listenSock => [.short [listenSock.raw], .short [0]]
  | startClientTcp ip port sock mode =>
    [.short ip.toList, .short (beBytes port.toNat), .short [sock.raw], .short [mode]]
  | startClientTcpHostname hostname ip port sock mode =>
    [.short hostname, .short ip.toList, .short (beBytes port.toNat), .short [sock.raw],
      .short [mode]]
  | getIdxRssi index | getIdxEnct index | getIdxBssid index | getIdxChannel index =>
    [.short [index]]
  | reqHostByName hostname => [.short hostname]
  | ping ip ttl => [.short ip.toList, .short [ttl]]
  | sendDataTcp sock data | insertDatabuf sock data => [.long [sock.raw], .long data]
  | getDatabufTcp sock want => [.long [sock.raw], .long (leBytes want.toNat)]
  | setPinMode pin mode => [.short [pin], .short [mode.toU8]]
  | setDigitalWrite pin high => [.short [pin], .short [bit high]]
  | setAnalogWrite pin value => [.short [pin], .short [value]]
  | getDigitalRead pin | getAnalogRead pin => [.short [pin]]

/-- The frame that goes out for a command. -/
def request (c : Command) : List UInt8 := frame c.opcode c.params

/-- The strings of a command fit the prefixes of their lengths. -/
def Fits (c : Command) : Prop := ∀ p ∈ c.params, p.data.length < p.code.bound

instance (c : Command) : Decidable c.Fits := inferInstanceAs (Decidable (∀ p ∈ c.params, _))

/-- What a command carries that may be of any length. -/
def strings : Command → List (List UInt8)
  | setPassphrase ssid passphrase | setApPassphrase ssid passphrase _ => [ssid, passphrase]
  | setHostname name => [name]
  | setApNet ssid _ => [ssid]
  | startClientTcpHostname hostname .. | reqHostByName hostname => [hostname]
  | sendDataTcp _ data | insertDatabuf _ data => [data]
  | _ => []

theorem fits_of_strings {c : Command} (h : ∀ s ∈ c.strings, s.length < 256) : c.Fits := by
  have hshort : ∀ p ∈ c.params, p.data.length < 256 := by
    cases c <;> simp_all [params, strings, Param.data, beBytes, leBytes]
  exact fun p hp => (hshort p hp).trans_le p.two_fifty_six_le_bound

/-- The lengths in a reply: the data that a socket has received is the only long parameter. -/
def replyCode : Command → LenCode UInt8
  | getDatabufTcp .. => len16
  | _ => len8

/-! ## Reading a command -/

def ofFour (p : List UInt8) : Option Ipv4 := if p.length = 4 then some (ip4 p) else none

def ofPort : List UInt8 → Option UInt16
  | [hi, lo] => some (UInt16.ofNat (ofBeBytes hi lo))
  | _ => none

def ofBit (b : UInt8) : Option Bool := [false, true].find? (bit · = b)

def ofPinMode (b : UInt8) : Option PinMode := [.input, .output, .inputPullup].find? (·.toU8 = b)

/-- A command of one byte. -/
def oneByte (f : UInt8 → Command) : List (List UInt8) → Option Command
  | [[b]] => some (f b)
  | _ => none

/-- A command about one socket. -/
def oneSocket (f : Socket → Command) : List (List UInt8) → Option Command := oneByte fun b => f ⟨b⟩

/-- A command without arguments, whose only parameter says nothing. -/
def bare (c : Command) : List (List UInt8) → Option Command := oneByte fun _ => c

/-- A command without parameters. -/
def empty (c : Command) : List (List UInt8) → Option Command
  | [] => some c
  | _ => none

/-- **What the parameters mean**, opcode by opcode. -/
def readers : List (UInt8 × (List (List UInt8) → Option Command)) :=
  [(cmdSetNet, fun
    | [_, ip, gateway, subnet] => return setNet (← ofFour ip) (← ofFour gateway) (← ofFour subnet)
    | _ => none),
  (cmdSetPassphrase, fun
    | [ssid, passphrase] => some (setPassphrase ssid passphrase)
    | _ => none),
  (cmdSetDnsConfig, fun
    | [_, primary, secondary] => return setDnsConfig (← ofFour primary) (← ofFour secondary)
    | _ => none),
  (cmdSetHostname, fun
    | [name] => some (setHostname name)
    | _ => none),
  (cmdSetPowerMode, fun
    | [[b]] => return setPowerMode (← ofBit b)
    | _ => none),
  (cmdSetApNet, fun
    | [ssid, [channel]] => some (setApNet ssid channel)
    | _ => none),
  (cmdSetApPassphrase, fun
    | [ssid, passphrase, [channel]] => some (setApPassphrase ssid passphrase channel)
    | _ => none),
  (cmdGetTemperature, empty getTemperature),
  (cmdGetReasonCode, bare getReasonCode),
  (cmdGetConnStatus, bare getConnStatus),
  (cmdGetIpaddr, bare getIpaddr),
  (cmdGetMacAddr, bare getMacAddr),
  (cmdGetCurrSsid, bare getCurrSsid),
  (cmdGetCurrBssid, bare getCurrBssid),
  (cmdGetCurrRssi, bare getCurrRssi),
  (cmdGetCurrEnct, bare getCurrEnct),
  (cmdScanNetworks, empty scanNetworks),
  (cmdStartServerTcp, fun
    | [port, [sock], [mode]] => return startServerTcp (← ofPort port) ⟨sock⟩ mode
    | _ => none),
  (cmdDataSentTcp, oneSocket dataSentTcp),
  (cmdAvailDataTcp, fun
    | [[sock]] => some (availDataTcp ⟨sock⟩)
    | [[sock], _] => some (acceptTcp ⟨sock⟩)
    | _ => none),
  (cmdStartClientTcp, fun
    | [ip, port, [sock], [mode]] =>
      return startClientTcp (← ofFour ip) (← ofPort port) ⟨sock⟩ mode
    | [hostname, ip, port, [sock], [mode]] =>
      return startClientTcpHostname hostname (← ofFour ip) (← ofPort port) ⟨sock⟩ mode
    | _ => none),
  (cmdStopClientTcp, oneSocket stopClientTcp),
  (cmdGetClientStateTcp, oneSocket getClientStateTcp),
  (cmdDisconnect, bare disconnect),
  (cmdGetIdxRssi, oneByte getIdxRssi),
  (cmdGetIdxEnct, oneByte getIdxEnct),
  (cmdGetIdxBssid, oneByte getIdxBssid),
  (cmdGetIdxChannel, oneByte getIdxChannel),
  (cmdReqHostByName, fun
    | [hostname] => some (reqHostByName hostname)
    | _ => none),
  (cmdGetHostByName, empty getHostByName),
  (cmdStartScanNetworks, empty startScanNetworks),
  (cmdGetFwVersion, empty getFwVersion),
  (cmdSendUdpData, oneSocket sendUdpData),
  (cmdGetRemoteData, oneSocket getRemoteData),
  (cmdPing, fun
    | [ip, [ttl]] => return ping (← ofFour ip) ttl
    | _ => none),
  (cmdGetSocket, empty getSocket),
  (cmdSendDataTcp, fun
    | [[sock], data] => some (sendDataTcp ⟨sock⟩ data)
    | _ => none),
  (cmdGetDatabufTcp, fun
    | [[sock], [lo, hi]] => some (getDatabufTcp ⟨sock⟩ (UInt16.ofNat (ofLeBytes lo hi)))
    | _ => none),
  (cmdInsertDatabuf, fun
    | [[sock], data] => some (insertDatabuf ⟨sock⟩ data)
    | _ => none),
  (cmdSetPinMode, fun
    | [[pin], [mode]] => return setPinMode pin (← ofPinMode mode)
    | _ => none),
  (cmdSetDigitalWrite, fun
    | [[pin], [value]] => return setDigitalWrite pin (← ofBit value)
    | _ => none),
  (cmdSetAnalogWrite, fun
    | [[pin], [value]] => some (setAnalogWrite pin value)
    | _ => none),
  (cmdGetDigitalRead, oneByte getDigitalRead),
  (cmdGetAnalogRead, oneByte getAnalogRead)]

/-- The three commands that carry data have lengths of 16 bits, the others of 8. -/
def widths (op : UInt8) (count : ℕ) : Option (List (LenCode UInt8)) :=
  if op = cmdSendDataTcp ∨ op = cmdGetDatabufTcp ∨ op = cmdInsertDatabuf then
    some (List.replicate count len16)
  else some (List.replicate count len8)

/-- **Reads a request**, as a firmware does. -/
def ofRequest (request : List UInt8) : Option Command := do
  let r ← readFrame (widths (EmbassyNina.opcode request)) request
  let reader ← readers.lookup r.op
  reader r.params

/-! ## Round trip -/

theorem opcode_lt (c : Command) : c.opcode < 0x80 := by
  cases c <;> (dsimp only [opcode]; decide)

theorem length_params_lt (c : Command) : c.params.length < 256 := by cases c <;> simp [params]

theorem widths_opcode (c : Command) :
    widths c.opcode c.params.length = some (c.params.map Param.code) := by cases c <;> rfl

@[simp] theorem ofFour_toList (ip : Ipv4) : ofFour ip.toList = some ip := by
  have hlen : ip.toList.length = 4 := ip.size_toArray
  rw [ofFour, if_pos hlen, ip4_toList]

@[simp] theorem ofPort_beBytes (port : UInt16) : ofPort (beBytes port.toNat) = some port := by
  rw [beBytes, ofPort, ofBeBytes_beBytes port.toNat_lt, UInt16.ofNat_toNat]

@[simp] theorem ofBit_bit (b : Bool) : ofBit (bit b) = some b := by cases b <;> rfl

@[simp] theorem ofPinMode_toU8 (mode : PinMode) : ofPinMode mode.toU8 = some mode := by
  cases mode <;> rfl

/-- The parameters of a command mean that command. -/
theorem reader_params (c : Command) :
    (readers.lookup c.opcode).bind (fun reader => reader (c.params.map Param.data)) = some c := by
  cases c with
  | setNet ip gateway subnet =>
    change (ofFour ip.toList >>= fun a => ofFour gateway.toList >>= fun b =>
      ofFour subnet.toList >>= fun c => some (setNet a b c)) = _
    simp
  | setDnsConfig primary secondary =>
    change (ofFour primary.toList >>= fun a => ofFour secondary.toList >>= fun b =>
      some (setDnsConfig a b)) = _
    simp
  | setPowerMode saving =>
    change (ofBit (bit saving) >>= fun a => some (setPowerMode a)) = _
    simp
  | startServerTcp port sock mode =>
    change (ofPort (beBytes port.toNat) >>= fun a => some (startServerTcp a sock mode)) = _
    simp
  | startClientTcp ip port sock mode =>
    change (ofFour ip.toList >>= fun a => ofPort (beBytes port.toNat) >>= fun b =>
      some (startClientTcp a b sock mode)) = _
    simp
  | startClientTcpHostname hostname ip port sock mode =>
    change (ofFour ip.toList >>= fun a => ofPort (beBytes port.toNat) >>= fun b =>
      some (startClientTcpHostname hostname a b sock mode)) = _
    simp
  | ping ip ttl =>
    change (ofFour ip.toList >>= fun a => some (ping a ttl)) = _
    simp
  | getDatabufTcp sock want =>
    change some (getDatabufTcp sock (UInt16.ofNat (ofBeBytes (UInt8.ofNat (want.toNat / 256))
      (UInt8.ofNat want.toNat)))) = _
    rw [ofBeBytes_beBytes want.toNat_lt, UInt16.ofNat_toNat]
  | setPinMode pin mode =>
    change (ofPinMode mode.toU8 >>= fun a => some (setPinMode pin a)) = _
    simp
  | setDigitalWrite pin high =>
    change (ofBit (bit high) >>= fun a => some (setDigitalWrite pin a)) = _
    simp
  | _ => rfl

/-- **Round trip.**  A command is told from its frame. -/
theorem ofRequest_request {c : Command} (h : c.Fits) : ofRequest c.request = some c := by
  have hop : c.opcode &&& ~~~replyFlag = c.opcode := and_not_replyFlag c.opcode_lt
  have hcodes : widths (EmbassyNina.opcode c.request) c.params.length =
      some (c.params.map Param.code) := by
    rw [request, opcode_frame, hop]
    exact c.widths_opcode
  have hread := readFrame_frame hcodes c.length_params_lt h c.opcode
  rw [ofRequest, Option.bind_eq_bind, show readFrame _ c.request = _ from hread, Option.bind_some,
    hop]
  exact c.reader_params

/-- **No two commands share a frame.** -/
theorem request_injOn : Set.InjOn request {c | c.Fits} := by
  intro c hc c' hc' heq
  have hread := ofRequest_request hc
  rw [heq, ofRequest_request hc'] at hread
  exact (Option.some.inj hread).symm

/-- The same letters make two frames, cut in two ways into a name and a passphrase. -/
theorem request_injOn_setPassphrase :
    (setPassphrase [97, 98] []).request ≠ (setPassphrase [97] [98]).request := by
  intro heq
  have hsame := request_injOn (by decide : (setPassphrase [97, 98] []).Fits)
    (by decide : (setPassphrase [97] [98]).Fits) heq
  exact absurd hsame (by decide)

end Command

end EmbassyNina
