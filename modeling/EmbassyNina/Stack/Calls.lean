import EmbassyNina.Link.Connect
import EmbassyNina.Link.Delivery
import EmbassyNina.Link.EndOfStream
import EmbassyNina.Stack.Mutex

/-!
# Stack/Calls — the calls that share the chip

Tasks call on a `NinaStack` and on its sockets.  `Call.Spec` says what a section of a call comes to:
its log is an attempt for a connect, lookups for a lookup, and for a read or a write exchanges about
its own slot only.  `Call.guarded`: every call is made of such sections.
-/

namespace EmbassyNina

open Machinery Prog

variable {C E : Type} {K : Chip C}

/-! ## What a read or a write asks of the chip -/

/-- The requests of reads and writes on `sock`. -/
inductive Through (sock : Socket) : List UInt8 → Prop
  | send (chunk : List UInt8) : Through sock (sendFrame sock chunk)
  | sent : Through sock (frame cmdDataSentTcp [.short [sock.raw]])
  | recv (room : ℕ) : Through sock (recvFrame sock room)
  | state : Through sock (stateFrame sock)

/-- **The exchanges of a turn of a read**: a receive, and perhaps a state poll. -/
def TurnLog (sock : Socket) (log : List (Exchange C)) : Prop :=
  ∃ (recv : Exchange C) (room : ℕ), recv.request = recvFrame sock room ∧
    (log = [recv] ∨ ∃ state, log = [recv, state] ∧ state.request = stateFrame sock)

theorem TurnLog.through {sock : Socket} {log : List (Exchange C)} (h : TurnLog sock log) :
    ∀ ex ∈ log, Through sock ex.request := by
  obtain ⟨recv, room, hrecv, rfl | ⟨state, rfl, hstate⟩⟩ := h
  · exact List.forall_mem_singleton.mpr (hrecv ▸ .recv room)
  · exact List.forall_mem_cons.mpr
      ⟨hrecv ▸ .recv room, List.forall_mem_singleton.mpr (hstate ▸ .state)⟩

/-- The exchange brings `bytes` from the receive buffer of `sock`. -/
def Exchange.Brings (sock : Socket) (bytes : List UInt8) (ex : Exchange C) : Prop :=
  ∃ room, ex.request = recvFrame sock room ∧
    readOne len16 cmdGetDatabufTcp room ex.reply = some bytes

namespace Chip

theorem asks_tcpSend (sock : Socket) (data : List UInt8) :
    K.Asks (Through sock) (Nina.tcpSend (E := E) sock data) := fun s => by
  obtain ⟨r, s', log, hrun, hlog, hsend, -⟩ := runs_tcpSend (K := K) (E := E) sock data s
  refine ⟨r, s', log, hrun, hlog, fun ex hex => ?_⟩
  obtain ⟨slice, -, h⟩ | h := hsend.requests ex hex
  · rw [h]
    exact .send slice
  · rw [h]
    exact .sent

/-- **A turn of a read** is a receive and perhaps a state poll, and what it returns the receive has
brought. -/
theorem runs_readLocked (sock : Socket) (out : Buf) (s : Link C) :
    ∃ r out' s' log, K.Runs ((NinaSocket.readLocked (E := E) sock).run out) s (r, out') s' ∧
      s'.log = s.log ++ log ∧ TurnLog sock log ∧
      ∀ n, r = .ok (some n) → out'.take n ≠ [] → ∃ ex ∈ log, ex.Brings sock (out'.take n) := by
  obtain ⟨⟨r, out₁⟩, hrecv, hr⟩ := runs_tcpRecv (K := K) (E := E) sock out s
  have hlog₁ := Link.log_exchanged K s (recvFrame sock out.length)
  have hone : TurnLog sock [s.exchange K (recvFrame sock out.length)] :=
    ⟨_, out.length, rfl, .inl rfl⟩
  generalize s.exchanged K (recvFrame sock out.length) = s₁ at hrecv hlog₁
  cases r with
  | error e =>
    exact ⟨.error e, out₁, s₁, _, hrecv.errorB, hlog₁, hone, nofun⟩
  | ok n =>
    by_cases hn : n > 0
    · have hrun : K.Runs ((NinaSocket.readLocked (E := E) sock).run out) s
          (.ok (some n), out₁) s₁ := hrecv.okB (by rw [if_pos hn]; exact .ret _)
      refine ⟨_, out₁, s₁, _, hrun, hlog₁, hone, ?_⟩
      rintro _ ⟨⟩ -
      obtain ⟨data, hread, rfl, rfl⟩ := (hr n out₁).mp rfl
      rw [List.take_left]
      exact ⟨_, List.mem_singleton_self _, out.length, rfl, hread⟩
    · obtain ⟨r, hstate, -⟩ := runs_tcpState (K := K) (E := E) sock s₁
      have hlog₂ : (s₁.exchanged K (stateFrame sock)).log =
          s.log ++ [s.exchange K (recvFrame sock out.length), s₁.exchange K (stateFrame sock)] := by
        rw [Link.log_exchanged, hlog₁, List.append_assoc]
        rfl
      have hboth : TurnLog sock [s.exchange K (recvFrame sock out.length),
          s₁.exchange K (stateFrame sock)] := ⟨_, out.length, rfl, .inr ⟨_, rfl, rfl⟩⟩
      cases r with
      | error e =>
        have hrun : K.Runs ((NinaSocket.readLocked (E := E) sock).run out) s (.error e, out₁)
            (s₁.exchanged K (stateFrame sock)) :=
          hrecv.okB (by rw [if_neg hn]; exact (hstate.lift out₁).errorB)
        exact ⟨_, _, _, _, hrun, hlog₂, hboth, nofun⟩
      | ok st =>
        have hrun : K.Runs ((NinaSocket.readLocked (E := E) sock).run out) s
            (.ok (if isClosed st then some 0 else none), out₁)
            (s₁.exchanged K (stateFrame sock)) := by
          refine hrecv.okB ?_
          rw [if_neg hn]
          refine (hstate.lift out₁).okB ?_
          split <;> exact .ret _
        refine ⟨_, _, _, _, hrun, hlog₂, hboth, fun n hn hne => absurd ?_ hne⟩
        split at hn
        · obtain rfl := Option.some.inj (Except.ok.inj hn)
          rfl
        · exact absurd (Except.ok.inj hn) nofun

end Chip

/-! ## Calls -/

/-- What tasks call.  A read or a write is on the socket minted by the call numbered `conn`. -/
inductive Call
  | connect (mode : UInt8) (remote : SocketAddr)
  | connectHostname (mode : UInt8) (hostname : List UInt8) (port : UInt16)
  | getHostByName (host : List UInt8) (addrType : AddrType)
  | read (conn : ℕ) (sock : Socket) (fuel : ℕ) (buf : Buf)
  | write (conn : ℕ) (sock : Socket) (buf : List UInt8)

/-- What a call returns: a new socket, an address, the bytes read, or how many were written. -/
inductive Ret (E : Type)
  | socket (r : Except (Error E) Socket)
  | address (r : Except (Error E) Ipv4)
  | bytes (r : Except (Error E) (List UInt8))
  | count (r : Except (Error E) ℕ)

/-- The bytes a read has put into the buffer. -/
def Ret.ofRead (a : Except (Error E) ℕ × Buf) : Ret E := .bytes (a.1.map fun n => a.2.take n)

def Call.prog : Call → Prog (halSig E) (Ret E)
  | .connect mode remote => (NinaStack.connect mode remote).run.bind fun r => .ret (.socket r)
  | .connectHostname mode hostname port =>
    (NinaStack.connectHostname mode hostname port).run.bind fun r => .ret (.socket r)
  | .getHostByName host addrType =>
    (NinaStack.getHostByName host addrType).run.bind fun r => .ret (.address r)
  | .read _ sock fuel buf => ((NinaSocket.read fuel sock).run buf).bind fun a => .ret (.ofRead a)
  | .write _ sock buf => (NinaSocket.write sock buf).run.bind fun r => .ret (.count r)

/-- The socket a call is on, by the call that minted it. -/
def Call.on : Call → Option (ℕ × Socket)
  | .read conn sock _ _ | .write conn sock _ => some (conn, sock)
  | _ => none

/-- **What a section of the call comes to**: its log, and what the call still has to do. -/
def Call.Spec (call : Call) (log : List (Exchange C)) (p : Prog (halSig E) (Ret E)) : Prop :=
  match call with
  | .connect _ _ => ∃ r, p = .ret (.socket r) ∧ Attempt none log r
  | .connectHostname _ hostname _ =>
    ∃ r, p = .ret (.socket r) ∧ Attempt (some hostname) log r ∧ Resolved E hostname log
  | .getHostByName host _ => ∃ r, p = .ret (.address r) ∧ LookupLog host log r
  | .read _ sock _ _ => TurnLog sock log ∧ (∀ r, p ≠ .ret (.socket r)) ∧
    ∀ bytes, p = .ret (.bytes (.ok bytes)) → bytes ≠ [] → ∃ ex ∈ log, ex.Brings sock bytes
  | .write _ sock _ => (∃ r, p = .ret (.count r)) ∧ ∀ ex ∈ log, Through sock ex.request

/-- The request neither grants nor starts nor stops a slot. -/
def OffSlots (request : List UInt8) : Prop :=
  opcode request ≠ cmdGetSocket ∧ opcode request ≠ cmdStartClientTcp ∧
    opcode request ≠ cmdStopClientTcp

theorem offSlots_frame {op : UInt8} (params : List Param)
    (h : op &&& ~~~replyFlag ≠ cmdGetSocket ∧ op &&& ~~~replyFlag ≠ cmdStartClientTcp ∧
      op &&& ~~~replyFlag ≠ cmdStopClientTcp) : OffSlots (frame op params) := by
  rw [OffSlots, opcode_frame]
  exact h

theorem Through.offSlots {sock : Socket} {request : List UInt8} (h : Through sock request) :
    OffSlots request := by
  cases h with
  | send chunk => exact offSlots_frame _ (by decide)
  | sent => exact offSlots_frame _ (by decide)
  | recv room => exact offSlots_frame _ (by decide)
  | state => exact offSlots_frame _ (by decide)

theorem LookupLog.offSlots {hostname : List UInt8} {log : List (Exchange C)}
    {r : Except (Error E) Ipv4} (h : LookupLog hostname log r) :
    ∀ ex ∈ log, OffSlots ex.request := by
  intro ex hex
  rcases h.opcode ex hex with hop | hop
  · rw [OffSlots, hop]
    decide
  · rw [OffSlots, hop]
    decide

/-- The hostname that a call puts into its start. -/
def Call.hostname : Call → Option (List UInt8)
  | .connectHostname _ hostname _ => some hostname
  | _ => none

/-- **A section is a connect's attempt**, or stays off the slots and mints no socket. -/
theorem Call.Spec.attempt_or {call : Call} {log : List (Exchange C)} {p : Prog (halSig E) (Ret E)}
    (h : call.Spec log p) : (∃ r, p = .ret (.socket r) ∧ Attempt call.hostname log r) ∨
      (∀ ex ∈ log, OffSlots ex.request) ∧ ∀ r, p ≠ .ret (.socket r) := by
  cases call with
  | connect mode remote => exact .inl h
  | connectHostname mode hostname port =>
    obtain ⟨r, hp, hattempt, -⟩ := h
    exact .inl ⟨r, hp, hattempt⟩
  | getHostByName host addrType =>
    obtain ⟨r, rfl, hlookup⟩ := h
    exact .inr ⟨hlookup.offSlots, nofun⟩
  | read conn sock fuel buf =>
    exact .inr ⟨fun ex hex => (h.1.through ex hex).offSlots, h.2.1⟩
  | write conn sock buf =>
    obtain ⟨⟨r, rfl⟩, hall⟩ := h
    exact .inr ⟨fun ex hex => (hall ex hex).offSlots, nofun⟩

/-- The same of the line, from where the mutex was taken to where it is given back. -/
def Call.Leaves (call : Call) (s s' : Link C) (p : Prog (halSig E) (Ret E)) : Prop :=
  ∃ log, s'.log = s.log ++ log ∧ call.Spec log p

/-! ## Sections -/

/-- What a read does after a turn: it is over, or waits and goes round again. -/
def readNext (fuel : ℕ) (sock : Socket) :
    Except (Error E) (Option ℕ) × Buf → Prog (halSig E) (Ret E)
  | (.ok (some n), out) => .ret (.bytes (.ok (out.take n)))
  | (.ok none, out) => .ask (S := halSig E) (.timer 50) fun _ =>
    ((NinaSocket.read fuel sock).run out).bind fun a => .ret (.ofRead a)
  | (.error e, _) => .ret (.bytes (.error e))

theorem read_succ (fuel : ℕ) (sock : Socket) (out : Buf) :
    ((NinaSocket.read (E := E) (fuel + 1) sock).run out).bind (fun a => .ret (.ofRead a)) =
      ((BufM.locked (NinaSocket.readLocked sock)).run out).bind (readNext fuel sock) := by
  rw [NinaSocket.read, repeatFor, BufM.run_bind, Prog.bind_assoc, NinaSocket.readTurn,
    BufM.run_bind, Prog.bind_assoc]
  refine congrArg (Prog.bind _) (funext fun a => ?_)
  rcases a with ⟨e | _ | n, out⟩ <;> rfl

/-- A read mints no socket. -/
theorem readNext_ne_socket (fuel : ℕ) (sock : Socket) (a : Except (Error E) (Option ℕ) × Buf)
    (r : Except (Error E) Socket) : readNext fuel sock a ≠ .ret (.socket r) := by
  rcases a with ⟨e | _ | n, out⟩ <;> exact nofun

/-- A turn of a read, and the reads that follow it. -/
theorem guarded_read (conn : ℕ) (sock : Socket) (fuel fuel' : ℕ) (buf out : Buf) :
    Guarded (chipMutex E K) (Call.read conn sock fuel' buf).Leaves
      (((NinaSocket.read (E := E) fuel sock).run out).bind fun a => .ret (.ofRead a)) := by
  induction fuel generalizing out with
  | zero => exact .fuel
  | succ fuel ih =>
    rw [read_succ]
    refine guarded_section (Wired.readLocked sock out) (fun s => ?_) fun a ha => ?_
    · obtain ⟨r, out', s', log, hrun, hlog, hturn, hbytes⟩ :=
        Chip.runs_readLocked (K := K) (E := E) sock out s
      refine ⟨_, s', hrun, log, hlog, hturn, readNext_ne_socket fuel sock _, ?_⟩
      rcases r with e | _ | n
      · exact nofun
      · exact nofun
      · intro bytes hb
        obtain rfl := Except.ok.inj (Ret.bytes.inj (Prog.ret.inj hb))
        exact hbytes n rfl
    · rcases a with ⟨e | _ | n, out'⟩
      · exact absurd rfl (ha _)
      · exact .apart ⟨50, rfl⟩ fun _ => ih out'
      · exact absurd rfl (ha _)

/-- **Every call keeps to its sections**, or is over at once. -/
theorem Call.guarded (call : Call) (hnot : ∀ a, call.prog (E := E) ≠ .ret a) :
    Guarded (chipMutex E K) call.Leaves call.prog := by
  cases call with
  | connect mode remote =>
    cases remote with
    | v4 ip port =>
      refine guarded_section (Wired.connectLocked mode ip port) (fun s => ?_)
        fun r hr => absurd rfl (hr _)
      obtain ⟨r, s', log, hrun, hlog, h⟩ := Chip.runs_connectLocked (K := K) (E := E) mode ip port s
      exact ⟨r, s', hrun, log, hlog, r, rfl, h⟩
    | v6 port => exact absurd rfl (hnot _)
  | connectHostname mode hostname port =>
    refine guarded_section (Wired.connectHostnameLocked mode hostname port) (fun s => ?_)
      fun r hr => absurd rfl (hr _)
    obtain ⟨r, s', log, hrun, hlog, h⟩ :=
      Chip.runs_connectHostnameLocked (K := K) (E := E) mode hostname port s
    exact ⟨r, s', hrun, log, hlog, r, rfl, h⟩
  | getHostByName host addrType =>
    have hlookup : Guarded (chipMutex E K) (Call.getHostByName host addrType).Leaves
        ((Nina.locked (Nina.dnsLookup (E := E) host)).run.bind fun r => .ret (.address r)) := by
      refine guarded_section (Wired.dnsLookup host) (fun s => ?_) fun r hr => absurd rfl (hr _)
      obtain ⟨r, s', log, hrun, hlog, h⟩ := Chip.runs_dnsLookup (K := K) (E := E) host s
      exact ⟨r, s', hrun, log, hlog, r, rfl, h⟩
    cases addrType with
    | ipv4 => exact hlookup
    | ipv6 => exact absurd rfl (hnot _)
    | either => exact hlookup
  | read conn sock fuel buf => exact guarded_read conn sock fuel fuel buf buf
  | write conn sock buf =>
    refine guarded_section (Wired.tcpSend sock buf) (fun s => ?_) fun r hr => absurd rfl (hr _)
    obtain ⟨r, s', log, hrun, hlog, h⟩ := Chip.asks_tcpSend (K := K) (E := E) sock buf s
    exact ⟨r, s', hrun, log, hlog, ⟨r, rfl⟩, h⟩

end EmbassyNina
