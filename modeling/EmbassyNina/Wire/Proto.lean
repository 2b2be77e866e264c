import Mathlib.Data.FinEnum
import Mathlib.Tactic.Common

/-!
# Wire/Proto — protocol constants and the types that travel on the wire

`proto.rs` and `error.rs`: frame markers, opcodes, the parameter encodings, the enumerations
decoded from one-byte replies, and the driver's error type.
-/

namespace EmbassyNina

/-- A caller's buffer, or a scratch buffer on the driver's stack. -/
abbrev Buf := List UInt8

/-- A slice up to the first byte that ends it, or the whole of it. -/
theorem take_findIdx? (p : UInt8 → Bool) (l : List UInt8) :
    (match l.findIdx? p with
      | some i => l.take i
      | none => l) = l.takeWhile fun b => !p b := by
  induction l with
  | nil => rfl
  | cons b l ih =>
    rw [List.findIdx?_cons, List.takeWhile_cons]
    cases p b with
    | true => rfl
    | false =>
      rw [← ih]
      cases l.findIdx? p <;> rfl

/-! ## Frame markers -/

def startCmd : UInt8 := 0xE0
def endCmd : UInt8 := 0xEE
def errCmd : UInt8 := 0xEF
def replyFlag : UInt8 := 0x80
def dummy : UInt8 := 0xFF

/-- How many bytes a receiver clocks in looking for `startCmd`. -/
def startTimeoutIters : ℕ := 1000

/-- How long the host waits for ACK to go high once it has asserted CS. -/
def ackAfterCsMs : ℕ := 5

def resetLowMs : ℕ := 100
def resetBootMs : ℕ := 2500

/-! ## Opcodes -/

def cmdSetNet : UInt8 := 0x10
def cmdSetPassphrase : UInt8 := 0x11
def cmdSetDnsConfig : UInt8 := 0x15
def cmdSetHostname : UInt8 := 0x16
def cmdSetPowerMode : UInt8 := 0x17
def cmdSetApNet : UInt8 := 0x18
def cmdSetApPassphrase : UInt8 := 0x19
def cmdGetTemperature : UInt8 := 0x1B
def cmdGetReasonCode : UInt8 := 0x1F
def cmdGetConnStatus : UInt8 := 0x20
def cmdGetIpaddr : UInt8 := 0x21
def cmdGetMacAddr : UInt8 := 0x22
def cmdGetCurrSsid : UInt8 := 0x23
def cmdGetCurrBssid : UInt8 := 0x24
def cmdGetCurrRssi : UInt8 := 0x25
def cmdGetCurrEnct : UInt8 := 0x26
def cmdScanNetworks : UInt8 := 0x27
def cmdStartServerTcp : UInt8 := 0x28
def cmdDataSentTcp : UInt8 := 0x2A
def cmdAvailDataTcp : UInt8 := 0x2B
def cmdStartClientTcp : UInt8 := 0x2D
def cmdStopClientTcp : UInt8 := 0x2E
def cmdGetClientStateTcp : UInt8 := 0x2F
def cmdDisconnect : UInt8 := 0x30
def cmdGetIdxRssi : UInt8 := 0x32
def cmdGetIdxEnct : UInt8 := 0x33
def cmdReqHostByName : UInt8 := 0x34
def cmdGetHostByName : UInt8 := 0x35
def cmdStartScanNetworks : UInt8 := 0x36
def cmdGetFwVersion : UInt8 := 0x37
def cmdSendUdpData : UInt8 := 0x39
def cmdGetRemoteData : UInt8 := 0x3A
def cmdGetIdxBssid : UInt8 := 0x3C
def cmdGetIdxChannel : UInt8 := 0x3D
def cmdPing : UInt8 := 0x3E
def cmdGetSocket : UInt8 := 0x3F
def cmdSendDataTcp : UInt8 := 0x44
def cmdGetDatabufTcp : UInt8 := 0x45
def cmdInsertDatabuf : UInt8 := 0x46
def cmdSetPinMode : UInt8 := 0x50
def cmdSetDigitalWrite : UInt8 := 0x51
def cmdSetAnalogWrite : UInt8 := 0x52
def cmdGetDigitalRead : UInt8 := 0x53
def cmdGetAnalogRead : UInt8 := 0x54

/-! ## Transport modes -/

def tcpMode : UInt8 := 0
def udpMode : UInt8 := 1

/-! ## Enumerations -/

/-- Pin direction, as `mode as u8` sends it. -/
inductive PinMode
  | input
  | output
  | inputPullup
deriving DecidableEq, Repr

def PinMode.toU8 : PinMode → UInt8
  | .input => 0
  | .output => 1
  | .inputPullup => 2

/-- The pins of the module's own RGB LED, which are active-low. -/
def ledR : UInt8 := 27
def ledG : UInt8 := 25
def ledB : UInt8 := 26

/-- TCP socket state — lwip's `enum tcp_state`. -/
inductive SockState
  | closed
  | listen
  | synSent
  | synRcvd
  | established
  | finWait1
  | finWait2
  | closeWait
  | closing
  | lastAck
  | timeWait
  | unknown
deriving DecidableEq, Repr

def SockState.fromU8 (b : UInt8) : SockState :=
  match b with
  | 0 => .closed
  | 1 => .listen
  | 2 => .synSent
  | 3 => .synRcvd
  | 4 => .established
  | 5 => .finWait1
  | 6 => .finWait2
  | 7 => .closeWait
  | 8 => .closing
  | 9 => .lastAck
  | 10 => .timeWait
  | _ => .unknown

/-- The encryption type of a network. -/
inductive EncType
  | wep
  | tkip
  | ccmp
  | none
  | auto
  | other
deriving DecidableEq, Repr

def EncType.fromU8 (b : UInt8) : EncType :=
  match b with
  | 5 => .wep
  | 2 => .tkip
  | 4 => .ccmp
  | 7 => .none
  | 8 => .auto
  | _ => .other

/-- The Wi-Fi connection state. -/
inductive WlStatus
  | noShield
  | idle
  | noSsidAvail
  | scanCompleted
  | connected
  | connectFailed
  | connectionLost
  | disconnected
  | apListening
  | apConnected
  | apFailed
deriving DecidableEq, Repr

def WlStatus.fromU8 (b : UInt8) : WlStatus :=
  match b with
  | 0 => .idle
  | 1 => .noSsidAvail
  | 2 => .scanCompleted
  | 3 => .connected
  | 4 => .connectFailed
  | 5 => .connectionLost
  | 6 => .disconnected
  | 7 => .apListening
  | 8 => .apConnected
  | 9 => .apFailed
  | _ => .noShield

/-! ## Parameters -/

/-- One parameter as it appears on the wire: an 8-bit or a 16-bit big-endian length, then the
bytes. -/
inductive Param
  | short (data : List UInt8)
  | long (data : List UInt8)
deriving DecidableEq, Repr

/-- A chip-side socket slot. -/
structure Socket where
  raw : UInt8
deriving DecidableEq, Repr

/-! ## Errors -/

/-- Driver-level error, over the error type of the SPI bus. -/
inductive Error (E : Type)
  | spi (e : E)
  | pin
  | framing
  | nina
  | timeout
  | bufferTooSmall
  | unsupported
deriving DecidableEq, Repr

/-! ## Byte order -/

/-- `u16::to_be_bytes`, on a value below `2^16`. -/
def beBytes (v : ℕ) : List UInt8 := [UInt8.ofNat (v / 256), UInt8.ofNat v]

/-- `u16::to_le_bytes`, on a value below `2^16`. -/
def leBytes (v : ℕ) : List UInt8 := [UInt8.ofNat v, UInt8.ofNat (v / 256)]

/-- `u16::from_be_bytes`. -/
def ofBeBytes (hi lo : UInt8) : ℕ := hi.toNat * 256 + lo.toNat

/-- `u16::from_le_bytes`. -/
def ofLeBytes (lo hi : UInt8) : ℕ := hi.toNat * 256 + lo.toNat

end EmbassyNina
