import EmbassyNina.Driver.Nina

/-!
# Driver/Sockets — the socket facades of `tcp.rs` and `nal.rs`

`NinaTcpSocket` borrows the chip outright; `NinaStack` and `NinaSocket` share it behind a mutex,
which they hold for a whole connect or write and for one turn of a read.
-/

namespace EmbassyNina

open Machinery

variable {E : Type}

/-! ## `tcp.rs` -/

/-- The `matches!` of `NinaTcpSocket::read`. -/
def SockState.readsAsEof : SockState → Bool
  | .closed | .closeWait | .closing | .lastAck | .timeWait => true
  | _ => false

namespace NinaTcpSocket

def close (sock : Socket) : Nina E Unit := Nina.tcpClose sock

/-- One turn of the loop in `read`; `none` goes round again. -/
def readTurn (sock : Socket) : BufM E (Option ℕ) := do
  let n ← Nina.tcpRecv sock
  if n > 0 then return some n else
    let state ← BufM.lift (Nina.tcpState sock)
    if state.readsAsEof then return some 0 else
      BufM.lift (Nina.timer 50)
      return none

/-- Blocks until at least one byte is available or the peer closed. -/
def read (fuel : ℕ) (sock : Socket) : BufM E ℕ := repeatFor fuel (readTurn sock) BufM.outOfFuel

def write (sock : Socket) (buf : List UInt8) : Nina E ℕ := Nina.tcpSend sock buf

end NinaTcpSocket

/-! ## `nal.rs` -/

/-- `true` if `state` indicates the peer has closed (or we have). -/
def isClosed : SockState → Bool
  | .closed | .closeWait | .closing | .lastAck | .timeWait => true
  | _ => false

/-- `core::net::SocketAddr`; nothing is read of an IPv6 address but its port. -/
inductive SocketAddr
  | v4 (ip : Ipv4) (port : UInt16)
  | v6 (port : UInt16)
deriving DecidableEq, Repr

/-- `embedded_nal_async::AddrType`. -/
inductive AddrType
  | ipv4
  | ipv6
  | either
deriving DecidableEq, Repr

namespace NinaStack

/-- The polling loop that ends both connects, `n` polls long. -/
def awaitEstablished (n : ℕ) (sock : Socket) : Nina E Socket :=
  repeatFor n (do
    if (← Nina.tcpState sock) = .established then return some sock else
      Nina.timer 250
      return none) (do
    let _ ← attempt (Nina.tcpClose sock)
    throw .timeout)

/-- The part of `connect` that runs under the chip mutex. -/
def connectLocked (mode : UInt8) (ip : Ipv4) (port : UInt16) : Nina E Socket := do
  let sock ← Nina.tcpOpenSocket
  Nina.tcpStartClient sock ip port mode
  awaitEstablished 40 sock

/-- `TcpConnect::connect`, for a stack in transport mode `mode`. -/
def connect (mode : UInt8) (remote : SocketAddr) : Nina E Socket :=
  match remote with
  | .v4 ip port => Nina.locked (connectLocked mode ip port)
  | .v6 _ => throw .unsupported

/-- The part of `connect_hostname` that runs under the chip mutex. -/
def connectHostnameLocked (mode : UInt8) (hostname : List UInt8) (port : UInt16) :
    Nina E Socket := do
  let ip ← Nina.dnsLookup hostname
  let sock ← Nina.tcpOpenSocket
  Nina.tcpStartClientHostname sock hostname ip port mode
  awaitEstablished 80 sock

/-- Connect by hostname, which is resolved on the chip and sent along for SNI. -/
def connectHostname (mode : UInt8) (hostname : List UInt8) (port : UInt16) : Nina E Socket :=
  Nina.locked (connectHostnameLocked mode hostname port)

def getHostByName (host : List UInt8) (addrType : AddrType) : Nina E Ipv4 :=
  match addrType with
  | .ipv6 => throw .unsupported
  | _ => Nina.locked (Nina.dnsLookup host)

end NinaStack

namespace NinaSocket

/-- The part of a turn of `read` that runs under the chip mutex. -/
def readLocked (sock : Socket) : BufM E (Option ℕ) := do
  let n ← Nina.tcpRecv sock
  if n > 0 then return some n else
    let state ← BufM.lift (Nina.tcpState sock)
    if isClosed state then return some 0 else return none

/-- One turn of the loop in `read`; `none` goes round again. -/
def readTurn (sock : Socket) : BufM E (Option ℕ) := do
  match ← BufM.locked (readLocked sock) with
  | some n => return some n
  | none =>
    BufM.lift (Nina.timer 50)
    return none

/-- Blocks until data arrives or the peer closes, releasing the chip between turns. -/
def read (fuel : ℕ) (sock : Socket) : BufM E ℕ := repeatFor fuel (readTurn sock) BufM.outOfFuel

def write (sock : Socket) (buf : List UInt8) : Nina E ℕ := Nina.locked (Nina.tcpSend sock buf)

end NinaSocket

/-! ## Both socket types -/

/-- The two types that read and write. -/
inductive Facade
  | ninaTcpSocket
  | ninaSocket

def Facade.readTurn : Facade → Socket → BufM E (Option ℕ)
  | .ninaTcpSocket => NinaTcpSocket.readTurn
  | .ninaSocket => NinaSocket.readTurn

def Facade.read : Facade → ℕ → Socket → BufM E ℕ
  | .ninaTcpSocket => NinaTcpSocket.read
  | .ninaSocket => NinaSocket.read

def Facade.write : Facade → Socket → List UInt8 → Nina E ℕ
  | .ninaTcpSocket => NinaTcpSocket.write
  | .ninaSocket => NinaSocket.write

/-- `Write::write_all`, the trait's own loop over `write`, unrolled `fuel` times: a write of nothing
panics, and so does a count past the end. -/
def writeAll (write : List UInt8 → Nina E ℕ) : ℕ → List UInt8 → Nina E Unit
  | _, [] => pure ()
  | 0, _ :: _ => Nina.outOfFuel
  | fuel + 1, b :: buf => do
    let n ← write (b :: buf)
    if n = 0 ∨ (b :: buf).length < n then ExceptT.mk panicked else
      writeAll write fuel ((b :: buf).drop n)

theorem Facade.read_eq (f : Facade) (fuel : ℕ) (sock : Socket) :
    f.read (E := E) fuel sock = repeatFor fuel (f.readTurn sock) BufM.outOfFuel := by
  cases f <;> rfl

theorem isClosed_eq (st : SockState) : isClosed st = st.readsAsEof := by cases st <;> rfl

end EmbassyNina
