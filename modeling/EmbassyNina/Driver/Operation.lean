import EmbassyNina.Driver.Sockets

/-!
# Driver/Operation — every public operation, as one type

`Op` lists the public operations of `Nina`, `NinaTcpSocket`, `NinaStack` and `NinaSocket` with their
arguments, buffers included, and `Op.prog` is the program each one runs, its result dropped.  A
property of all operations and of all their sequences is then stated over `Op` and `List Op`.
-/

namespace EmbassyNina

open Machinery

variable {E : Type}

/-- A driver function, its result dropped. -/
def Nina.drop {α : Type} (x : Nina E α) : Prog (halSig E) Unit := x.run.bind fun _ => .ret ()

/-- A driver function on a caller's buffer, its result and the buffer dropped. -/
def BufM.drop {α : Type} (x : BufM E α) (out : Buf) : Prog (halSig E) Unit :=
  (x.run out).bind fun _ => .ret ()

/-- The public operations that make a call, with their arguments. -/
inductive Op
  | init
  | getFwVersion (buf : Buf)
  | scanNetworks (scratch : Buf) (settleMs : ℕ)
  | connect (ssid psk : List UInt8)
  | waitForConnected (timeout : ℕ)
  | connectWpa (ssid passphrase : List UInt8)
  | macAddr
  | currentSsid (buf : Buf)
  | scanRssi (index : UInt8)
  | scanEnct (index : UInt8)
  | networkInfo (index : UInt8)
  | scanChannel (index : UInt8)
  | tcpListen (sock : Socket) (port : UInt16)
  | tcpAccept (listenSock : Socket)
  | setHostname (name : List UInt8)
  | setNetConfig (ip gateway subnet : Ipv4)
  | setDnsConfig (primary secondary : Ipv4)
  | setPowerSave (enabled : Bool)
  | getTemperature
  | getCurrentRssi
  | getCurrentBssid
  | getCurrentEnct
  | scanBssid (index : UInt8)
  | getReasonCode
  | pinMode (pin : UInt8) (mode : PinMode)
  | digitalWrite (pin value : UInt8)
  | analogWrite (pin value : UInt8)
  | digitalRead (pin : UInt8)
  | analogRead (pin : UInt8)
  | startApOpen (ssid : List UInt8) (channel : UInt8)
  | startApWpa (ssid passphrase : List UInt8) (channel : UInt8)
  | disconnect
  | ping (ip : Ipv4) (ttl : UInt8)
  | dnsLookup (hostname : List UInt8)
  | tcpOpenSocket
  | tcpStartClient (sock : Socket) (ip : Ipv4) (port : UInt16) (mode : UInt8)
  | tcpStartClientHostname (sock : Socket) (hostname : List UInt8) (ip : Ipv4) (port : UInt16)
      (mode : UInt8)
  | tcpState (sock : Socket)
  | tcpAvail (sock : Socket)
  | tcpSend (sock : Socket) (data : List UInt8)
  | checkDataSent (sock : Socket)
  | tcpRecv (sock : Socket) (out : Buf)
  | udpBind (sock : Socket) (port : UInt16)
  | udpSend (sock : Socket) (ip : Ipv4) (port : UInt16) (data : List UInt8)
  | udpBeginPacket (sock : Socket) (ip : Ipv4) (port : UInt16)
  | udpWrite (sock : Socket) (data : List UInt8)
  | udpEndPacket (sock : Socket)
  | udpRemote (sock : Socket)
  | tcpClose (sock : Socket)
  | tcpConnect (ip : Ipv4) (port : UInt16)
  | status
  | ip
  | ipConfig
  | tcpSocketClose (sock : Socket)
  | tcpSocketRead (sock : Socket) (buf : Buf)
  | tcpSocketWrite (sock : Socket) (buf : List UInt8)
  | stackConnect (mode : UInt8) (remote : SocketAddr)
  | stackConnectHostname (mode : UInt8) (hostname : List UInt8) (port : UInt16)
  | stackGetHostByName (host : List UInt8) (addrType : AddrType)
  | socketRead (sock : Socket) (buf : Buf)
  | socketWrite (sock : Socket) (buf : List UInt8)

/-- The program an operation runs, its unbounded loops unrolled `fuel` times. -/
def Op.prog (fuel : ℕ) : Op → Prog (halSig E) Unit
  | .init => Nina.init.drop
  | .getFwVersion buf => Nina.getFwVersion.drop buf
  | .scanNetworks scratch settleMs => (Nina.scanNetworks settleMs).drop scratch
  | .connect ssid psk => (Nina.connect fuel ssid psk).drop
  | .waitForConnected timeout => (Nina.waitForConnected fuel timeout).drop
  | .connectWpa ssid passphrase => (Nina.connectWpa ssid passphrase).drop
  | .macAddr => Nina.macAddr.drop
  | .currentSsid buf => Nina.currentSsid.drop buf
  | .scanRssi index => (Nina.scanRssi index).drop
  | .scanEnct index => (Nina.scanEnct index).drop
  | .networkInfo index => (Nina.networkInfo index).drop
  | .scanChannel index => (Nina.scanChannel index).drop
  | .tcpListen sock port => (Nina.tcpListen sock port).drop
  | .tcpAccept listenSock => (Nina.tcpAccept listenSock).drop
  | .setHostname name => (Nina.setHostname name).drop
  | .setNetConfig addr gateway subnet => (Nina.setNetConfig addr gateway subnet).drop
  | .setDnsConfig primary secondary => (Nina.setDnsConfig primary secondary).drop
  | .setPowerSave enabled => (Nina.setPowerSave enabled).drop
  | .getTemperature => Nina.getTemperature.drop
  | .getCurrentRssi => Nina.getCurrentRssi.drop
  | .getCurrentBssid => Nina.getCurrentBssid.drop
  | .getCurrentEnct => Nina.getCurrentEnct.drop
  | .scanBssid index => (Nina.scanBssid index).drop
  | .getReasonCode => Nina.getReasonCode.drop
  | .pinMode pin mode => (Nina.pinMode pin mode).drop
  | .digitalWrite pin value => (Nina.digitalWrite pin value).drop
  | .analogWrite pin value => (Nina.analogWrite pin value).drop
  | .digitalRead pin => (Nina.digitalRead pin).drop
  | .analogRead pin => (Nina.analogRead pin).drop
  | .startApOpen ssid channel => (Nina.startApOpen ssid channel).drop
  | .startApWpa ssid passphrase channel => (Nina.startApWpa ssid passphrase channel).drop
  | .disconnect => Nina.disconnect.drop
  | .ping addr ttl => (Nina.ping addr ttl).drop
  | .dnsLookup hostname => (Nina.dnsLookup hostname).drop
  | .tcpOpenSocket => Nina.tcpOpenSocket.drop
  | .tcpStartClient sock addr port mode => (Nina.tcpStartClient sock addr port mode).drop
  | .tcpStartClientHostname sock hostname addr port mode =>
    (Nina.tcpStartClientHostname sock hostname addr port mode).drop
  | .tcpState sock => (Nina.tcpState sock).drop
  | .tcpAvail sock => (Nina.tcpAvail sock).drop
  | .tcpSend sock data => (Nina.tcpSend sock data).drop
  | .checkDataSent sock => (Nina.checkDataSent sock).drop
  | .tcpRecv sock out => (Nina.tcpRecv sock).drop out
  | .udpBind sock port => (Nina.udpBind sock port).drop
  | .udpSend sock addr port data => (Nina.udpSend sock addr port data).drop
  | .udpBeginPacket sock addr port => (Nina.udpBeginPacket sock addr port).drop
  | .udpWrite sock data => (Nina.udpWrite sock data).drop
  | .udpEndPacket sock => (Nina.udpEndPacket sock).drop
  | .udpRemote sock => (Nina.udpRemote sock).drop
  | .tcpClose sock => (Nina.tcpClose sock).drop
  | .tcpConnect addr port => (Nina.tcpConnect addr port).drop
  | .status => Nina.status.drop
  | .ip => Nina.ip.drop
  | .ipConfig => Nina.ipConfig.drop
  | .tcpSocketClose sock => (NinaTcpSocket.close sock).drop
  | .tcpSocketRead sock buf => (NinaTcpSocket.read fuel sock).drop buf
  | .tcpSocketWrite sock buf => (NinaTcpSocket.write sock buf).drop
  | .stackConnect mode remote => (NinaStack.connect mode remote).drop
  | .stackConnectHostname mode hostname port => (NinaStack.connectHostname mode hostname port).drop
  | .stackGetHostByName host addrType => (NinaStack.getHostByName host addrType).drop
  | .socketRead sock buf => (NinaSocket.read fuel sock).drop buf
  | .socketWrite sock buf => (NinaSocket.write sock buf).drop

/-- A sequence of operations, each started when the one before has returned. -/
def Op.runAll (fuel : ℕ) : List Op → Prog (halSig E) Unit
  | [] => .ret ()
  | op :: ops => (op.prog fuel).bind fun _ => runAll fuel ops

end EmbassyNina
