import EmbassyNina.Remote.Operations

/-!
# Remote/Faithful — the driver is a client of the firmware

On a chip that implements a firmware every operation does what its client does: it has the same
commands served, in the same order, and makes the same of their answers (`Op.faithful`).  So does
any sequence of operations, one after the other, from whatever state the line is in between two
windows (`Chip.Implements.results_eq`).
-/

namespace EmbassyNina

open Machinery Prog Chip.Implements Simulation

variable {C E F α β : Type} {K : Chip C} {fw : Firmware F} {view : C → F}
  {log₀ : List (Exchange C)}

/-! ## Operations -/

namespace Chip.Implements

variable {g : β → Value} {out : Buf}

theorem as {V : α → β → Prop} {x : Nina E α} {y : Client E β} {f : α → Value}
    (hx : K.Does fw view log₀ V x y) (h : ∀ a b, V a b → f a = g b) :
    (K.remote E fw view log₀).Refines Eq (x.as f) (y.as g) :=
  Refines.bind hx fun _ _ hr => Refines.ret (exceptAlike_eq.mp (hr.map h))

theorem same {x : Nina E β} {y : Client E β} (hx : K.Does fw view log₀ Eq x y) :
    (K.remote E fw view log₀).Refines Eq (x.as g) (y.as g) := as hx fun _ _ h => congrArg g h

theorem asAt {V : α → Buf → β → Prop} {x : BufM E α} {y : Client E β} {f : α → Buf → Value}
    (hx : K.DoesAt fw view log₀ out V x y) (h : ∀ a out' b, V a out' b → f a out' = g b) :
    (K.remote E fw view log₀).Refines Eq (x.as out f) (y.as g) :=
  Refines.bind hx fun r _ hr => Refines.ret (exceptAlike_eq.mp (hr.2.map fun a b => h a r.2 b))

end Chip.Implements

/-- What an operation sends in one piece, of any length. -/
def Op.strings : Op → List (List UInt8)
  | .connect ssid psk => [ssid, psk]
  | .connectWpa ssid passphrase | .startApWpa ssid passphrase _ => [ssid, passphrase]
  | .setHostname name => [name]
  | .startApOpen ssid _ => [ssid]
  | .dnsLookup hostname | .tcpStartClientHostname _ hostname .. => [hostname]
  | .stackConnectHostname _ hostname _ => [hostname]
  | .stackGetHostByName _ .ipv6 => []
  | .stackGetHostByName host _ => [host]
  | _ => []

/-- Its strings fit the byte of their lengths. -/
def Op.Fits (op : Op) : Prop := ∀ s ∈ op.strings, s.length < 256

instance (op : Op) : Decidable op.Fits := inferInstanceAs (Decidable (∀ s ∈ op.strings, _))

theorem Op.Fits.host {host : List UInt8} {addrType : AddrType}
    (h : (Op.stackGetHostByName host addrType).Fits) (h6 : addrType ≠ .ipv6) :
    host.length < 256 := by
  cases addrType with
  | ipv6 => exact absurd rfl h6
  | ipv4 | either => exact h host (List.mem_singleton_self host)

/-- **Every operation does what its client does.** -/
theorem Op.faithful (hK : K.Implements fw view) (fuel : ℕ) {op : Op} (h : op.Fits) :
    (K.remote E fw view log₀).Refines Eq (op.result fuel) (op.remote fuel) := by
  cases op with
  | init => exact same hK.init
  | getFwVersion buf =>
    rw [result, remote]
    refine asAt (hK.getFwVersion buf) ?_
    rintro _ _ _ rfl
    rfl
  | scanNetworks scratch settleMs =>
    rw [result, remote]
    refine asAt (hK.scanNetworks settleMs scratch) ?_
    rintro _ _ _ rfl
    rfl
  | connect ssid psk =>
    exact same (hK.connect fuel (h ssid (by simp [Op.strings])) (h psk (by simp [Op.strings])))
  | waitForConnected timeout => exact same (hK.waitForConnected fuel timeout)
  | connectWpa ssid passphrase =>
    exact same (hK.byteCommand (c := .setPassphrase ssid passphrase) (.of_strings rfl rfl h))
  | macAddr => exact same (hK.macCommand (c := .getMacAddr) (.bare rfl rfl rfl))
  | currentSsid buf =>
    rw [result, remote]
    refine asAt (hK.currentSsid buf) ?_
    rintro _ _ _ rfl
    rfl
  | scanRssi index => exact same (hK.scanRssi index)
  | scanEnct index =>
    refine as (hK.scanEnct index) ?_
    rintro _ _ rfl
    rfl
  | networkInfo index => exact same (hK.networkInfo index)
  | scanChannel index => exact same (hK.scanChannel index)
  | tcpListen sock port =>
    exact same (hK.ackedCommand (c := .startServerTcp port sock tcpMode) (.bare rfl rfl rfl))
  | tcpAccept listenSock => exact same (hK.tcpAccept listenSock)
  | setHostname name =>
    exact same (hK.ackedCommand (c := .setHostname name) (.of_strings rfl rfl h))
  | setNetConfig ip gateway subnet =>
    exact same (hK.ackedCommand (c := .setNet ip gateway subnet) (.bare rfl rfl rfl))
  | setDnsConfig primary secondary =>
    exact same (hK.ackedCommand (c := .setDnsConfig primary secondary) (.bare rfl rfl rfl))
  | setPowerSave enabled =>
    exact same (hK.ackedCommand (c := .setPowerMode enabled) (.bare rfl rfl rfl))
  | getTemperature => exact same (hK.four (c := .getTemperature) (.bare rfl rfl rfl) u32OfLe)
  | getCurrentRssi => exact same (hK.four (c := .getCurrRssi) (.bare rfl rfl rfl) i32OfLe)
  | getCurrentBssid => exact same (hK.macCommand (c := .getCurrBssid) (.bare rfl rfl rfl))
  | getCurrentEnct =>
    refine as (post (hK.byteCommand (c := .getCurrEnct) (.bare rfl rfl rfl))
      (W := fun e b => e = EncType.fromU8 b) fun _ _ h => congrArg _ h) ?_
    rintro _ _ rfl
    rfl
  | scanBssid index => exact same (hK.scanBssid index)
  | getReasonCode => exact same (hK.byteCommand (c := .getReasonCode) (.bare rfl rfl rfl))
  | pinMode pin mode =>
    exact same (hK.ackedCommand (c := .setPinMode pin mode) (.bare rfl rfl rfl))
  | digitalWrite pin value =>
    refine same (hK.ackedCommand (c := .setDigitalWrite pin (value ≠ 0)) (.bare ?_ rfl rfl))
    simp [Command.params, Command.bit]
  | analogWrite pin value =>
    exact same (hK.ackedCommand (c := .setAnalogWrite pin value) (.bare rfl rfl rfl))
  | digitalRead pin =>
    refine as (post (hK.byteCommand (c := .getDigitalRead pin) (.bare rfl rfl rfl))
      (W := fun v b => v = decide (b ≠ 0)) fun _ _ h => by rw [h]) ?_
    rintro _ _ rfl
    rfl
  | analogRead pin => exact same (hK.analogRead pin)
  | startApOpen ssid channel =>
    exact same (hK.ackedCommand (c := .setApNet ssid channel) (.of_strings rfl rfl h))
  | startApWpa ssid passphrase channel =>
    exact same (hK.ackedCommand (c := .setApPassphrase ssid passphrase channel)
      (.of_strings rfl rfl h))
  | disconnect => exact as hK.disconnect fun _ _ _ => rfl
  | ping ip ttl => exact same (hK.ping ip ttl)
  | dnsLookup hostname => exact same (hK.dnsLookup (h hostname (by simp [Op.strings])))
  | tcpOpenSocket => exact same hK.tcpOpenSocket
  | tcpStartClient sock ip port mode => exact same (hK.tcpStartClient sock ip port mode)
  | tcpStartClientHostname sock hostname ip port mode =>
    exact same (hK.tcpStartClientHostname sock (h hostname (by simp [Op.strings])) ip port mode)
  | tcpState sock => exact same (hK.tcpState sock)
  | tcpAvail sock => exact same (hK.countCommand (c := .availDataTcp sock) (.bare rfl rfl rfl))
  | tcpSend sock data => exact same (hK.tcpSend sock data)
  | checkDataSent sock => exact same (hK.checkDataSent sock)
  | tcpRecv sock out =>
    rw [result, remote]
    refine asAt (hK.tcpRecv sock out) ?_
    rintro _ _ p ⟨rfl, rfl⟩
    rw [List.take_left]
  | udpBind sock port =>
    exact same (hK.ackedCommand (c := .startServerTcp port sock udpMode) (.bare rfl rfl rfl))
  | udpSend sock ip port data => exact same (hK.udpSend sock ip port data)
  | udpBeginPacket sock ip port => exact same (hK.tcpStartClient sock ip port udpMode)
  | udpWrite sock data => exact same (hK.udpWrite sock data)
  | udpEndPacket sock => exact same (hK.udpEndPacket sock)
  | udpRemote sock => exact same (hK.udpRemote sock)
  | tcpClose sock => exact same (hK.tcpClose sock)
  | tcpConnect ip port =>
    rw [result, tcpConnect_eq]
    exact same (hK.connectLocked tcpMode ip port)
  | status => exact same hK.status
  | ip =>
    refine as (post hK.ipConfig (W := fun a c => a = c.ip) fun _ _ h => congrArg _ h) ?_
    rintro _ _ rfl
    rfl
  | ipConfig => exact same hK.ipConfig
  | tcpSocketClose sock => exact same (hK.tcpClose sock)
  | tcpSocketRead sock buf =>
    rw [result, remote]
    refine asAt (hK.tcpSocketRead fuel sock buf) ?_
    rintro _ _ _ rfl
    rfl
  | tcpSocketWrite sock buf => exact same (hK.tcpSend sock buf)
  | stackConnect mode remote => exact same (hK.stackConnect mode remote)
  | stackConnectHostname mode hostname port =>
    exact same (hK.connectHostname mode (h hostname (by simp [Op.strings])) port)
  | stackGetHostByName host addrType => exact same (hK.getHostByName h.host)
  | socketRead sock buf =>
    rw [result, remote]
    refine asAt (hK.socketRead fuel sock buf) ?_
    rintro _ _ _ rfl
    rfl
  | socketWrite sock buf => exact same (locked (hK.tcpSend sock buf))

/-- **The driver is a client of the firmware.**  Any operations, one after the other, return what
their clients return that call the firmware, whatever that firmware is: the exchanges on the line
are the commands it has served, each in its frame and with its answer in the reply, and line and
firmware are left in one state. -/
theorem driver_faithful (hK : K.Implements fw view) (fuel : ℕ) (ops : List Op)
    (h : ∀ op ∈ ops, op.Fits) {s : Link C × Stream' ℕ} (hwindow : s.1.window = []) :
    ∃ (o : Outcome (List (Result E))) (s' : Link C × Stream' ℕ) (d : Desk F)
        (log : List (Exchange C)),
      K.Ends (ops.mapM (Op.result fuel)) s o s' ∧
      fw.desk.exec (ops.mapM (Op.remote fuel)) ⟨view s.1.chip, [], s.2⟩ = (o, d) ∧
      view s'.1.chip = d.fw ∧ s'.2 = d.clock ∧ s'.1.log = s.1.log ++ log ∧
      List.Forall₂ (Exchange.Renders view) log d.served := by
  have hrefines : (K.remote E fw view s.1.log).Refines Eq (ops.mapM (Op.result fuel))
      (ops.mapM (Op.remote fuel)) :=
    (Refines.mapM fun op hop => Op.faithful hK fuel (h op hop)).mono fun rs rs' hrs => by
      rwa [List.forall₂_eq_eq_eq] at hrs
  obtain ⟨hout, hstate⟩ := hrefines s ⟨view s.1.chip, [], s.2⟩
    ⟨hwindow, rfl, rfl, [], (List.append_nil _).symm, .nil⟩
  obtain ⟨-, hchip, hclock, log, hlog, hall⟩ := hstate
  exact ⟨_, _, _, log, rfl, Prod.ext (Outcome.alike_eq.mp hout).symm rfl, hchip, hclock, hlog, hall⟩

/-! ## Chips made of firmware -/

/-- The reply that carries an answer to `c`. -/
def Answer.reply (c : Command) : Answer → Bytes
  | .params ps => (startCmd :: ([c.opcode ||| replyFlag, UInt8.ofNat ps.length] ++
      LenCode.fields (ps.map fun p => (c.replyCode, p)) ++ [endCmd]) : List UInt8) ++ₛ silence
  | .refused => [errCmd] ++ₛ silence
  | .mute => silence

/-- Its parameters can be counted, and fit the prefixes of their lengths. -/
def Answer.Fits (c : Command) : Answer → Prop
  | .params ps => ps.length < 256 ∧ ∀ p ∈ ps, p.length < c.replyCode.bound
  | .refused | .mute => True

theorem Answer.Fits.carried {c : Command} {a : Answer} (h : a.Fits c) :
    a.Carried c (a.reply c) := by
  cases a with
  | params ps => exact ⟨h.1, h.2, silence, [], by decide, List.forall_mem_nil _, rfl⟩
  | refused => exact ⟨[], silence, by decide, List.forall_mem_nil _, rfl⟩
  | mute =>
    have hjunk : ∀ n, Junk (silence.take n) := fun n => by
      induction n with
      | zero => exact List.forall_mem_nil _
      | succ n ih => exact List.forall_mem_cons.mpr ⟨by decide, ih⟩
    exact hjunk startTimeoutIters

/-- **The chip of a firmware**: it reads the frames of commands, and puts the answers in replies. -/
def Firmware.chip (fw : Firmware F) : Chip F where
  idle := fw.idle
  serve s request :=
    match Command.ofRequest request with
    | some c => ((fw.serve s c).1, (fw.serve s c).2.reply c)
    | none => (s, silence)

theorem Firmware.serve_chip (s : F) {c : Command} (hc : c.Fits) :
    fw.chip.serve s c.request = ((fw.serve s c).1, (fw.serve s c).2.reply c) := by
  change (match Command.ofRequest c.request with
    | some c => ((fw.serve s c).1, (fw.serve s c).2.reply c)
    | none => (s, silence)) = _
  rw [Command.ofRequest_request hc]

/-- **Every firmware is implemented** whose answers can be written. -/
theorem Firmware.implements_chip (h : ∀ s c, (fw.serve s c).2.Fits c) :
    fw.chip.Implements fw id where
  idle _ := rfl
  serve s c hc := by rw [fw.serve_chip s hc]; rfl
  reply s c hc := by
    rw [fw.serve_chip s hc]
    exact (h s c).carried

/-- A firmware that sends back on its socket what it has been sent, and resolves the hostname it
was asked for last: its first letter is the last byte of its address. -/
def echoFirmware : Firmware (List UInt8 × List UInt8) where
  idle := id
  serve st
    | .sendDataTcp _ data => ((st.1 ++ data, st.2), .params [[UInt8.ofNat data.length]])
    | .getDatabufTcp _ want => ((st.1.drop want.toNat, st.2), .params [st.1.take want.toNat])
    | .reqHostByName hostname => ((st.1, hostname), .params [[1]])
    | .getHostByName => (st, .params [[10, 0, 0, st.2.getD 0 0]])
    | .getSocket => (st, .params [[0]])
    | .getClientStateTcp _ => (st, .params [[4]])
    | _ => (st, .params [[1]])

theorem fits_echoFirmware (st : List UInt8 × List UInt8) (c : Command) :
    (echoFirmware.serve st c).2.Fits c := by
  have hfour : 4 < c.replyCode.bound := by
    unfold Command.replyCode
    split <;> decide
  have hone : 1 < c.replyCode.bound := (by decide : 1 < 4).trans hfour
  cases c with
  | getDatabufTcp sock want =>
    refine ⟨by simp, List.forall_mem_singleton.mpr ?_⟩
    rw [List.length_take]
    exact (min_le_left _ _).trans_lt want.toNat_lt
  | getHostByName => exact ⟨by simp, List.forall_mem_singleton.mpr hfour⟩
  | _ => exact ⟨by simp, List.forall_mem_singleton.mpr hone⟩

/-- What has been sent is received, through frames and replies. -/
theorem driver_faithful_echoFirmware :
    ∃ s', echoFirmware.chip.Ends (E := Unit)
      ([Op.tcpSend ⟨0⟩ [104, 105], .tcpRecv ⟨0⟩ (List.replicate 8 0)].mapM (Op.result 0))
      (⟨([], []), [], [], silence⟩, Stream'.const 0)
      (.done [.ok (.nat 2), .ok (.bytes [104, 105])]) s' := by
  obtain ⟨o, s', d, -, hends, hdesk, -⟩ := driver_faithful (E := Unit)
    (Firmware.implements_chip fits_echoFirmware) 0
    [.tcpSend ⟨0⟩ [104, 105], .tcpRecv ⟨0⟩ (List.replicate 8 0)] (by decide)
    (s := (⟨([], []), [], [], silence⟩, Stream'.const 0)) rfl
  obtain rfl : o = .done [.ok (.nat 2), .ok (.bytes [104, 105])] :=
    (congrArg Prod.fst hdesk).symm.trans rfl
  exact ⟨s', hends⟩

end EmbassyNina
