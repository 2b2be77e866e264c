import EmbassyNina.Link.Lookup
import EmbassyNina.Driver.Sockets

/-!
# Link/Connect — the exchanges of a connect

The log of a connect, whichever of the three functions makes it, has one of the shapes of `Attempt`:
no slot is granted, or one is and the start is answered badly, or the start is answered well and
state polls follow (`Polls`) until one is `Established`, one is answered badly, or the slot is
stopped.  `runs_connect` says so for `Nina.tcpConnect` and both connects of `NinaStack`.
-/

namespace EmbassyNina

open Machinery

variable {C E : Type} {K : Chip C}

/-! ## Exchanges about slots -/

def openFrame : List UInt8 := frame cmdGetSocket []

/-- A start on the slot `sock`, whatever comes before the slot and the mode. -/
def startFrame (front : List (List UInt8)) (sock : Socket) (mode : UInt8) : List UInt8 :=
  frame cmdStartClientTcp ((front ++ [[sock.raw], [mode]]).map .short)

def stateFrame (sock : Socket) : List UInt8 := frame cmdGetClientStateTcp [.short [sock.raw]]

def stopFrame (sock : Socket) : List UInt8 := frame cmdStopClientTcp [.short [sock.raw]]

namespace Exchange

/-- The slot an exchange reserves: what `GET_SOCKET` answers, unless it answers that there is
none. -/
def granted (ex : Exchange C) : Option UInt8 :=
  if ex.request = openFrame then
    (readOne len8 cmdGetSocket 1 ex.reply).bind fun payload =>
      if payload.getD 0 0 = 0xFF then none else some (payload.getD 0 0)
  else none

/-- The slot an exchange releases. -/
def stopped (ex : Exchange C) : Option UInt8 :=
  if ex.request = stopFrame ⟨ex.request.getD 4 0⟩ then some (ex.request.getD 4 0) else none

/-- A start or a state poll got a reply its receiver accepts. -/
structure WellAnswered (ex : Exchange C) : Prop where
  start : opcode ex.request = cmdStartClientTcp → ManyFit cmdStartClientTcp 4 ex.reply
  state : opcode ex.request = cmdGetClientStateTcp →
    (readOne len8 cmdGetClientStateTcp 1 ex.reply).isSome

/-- The slots reserved, after one more exchange. -/
def hold (slots : List UInt8) (ex : Exchange C) : List UInt8 :=
  match ex.granted, ex.stopped with
  | some slot, _ => slot :: slots
  | none, some slot => slots.erase slot
  | none, none => slots

variable {ex : Exchange C} {sock : Socket}

theorem granted_eq_none (h : opcode ex.request ≠ cmdGetSocket) : ex.granted = none :=
  if_neg fun hr => h (by rw [hr]; rfl)

theorem stopped_eq_none (h : opcode ex.request ≠ cmdStopClientTcp) : ex.stopped = none :=
  if_neg fun hr => h (by rw [hr]; rfl)

theorem stopped_of_stopFrame (h : ex.request = stopFrame sock) : ex.stopped = some sock.raw := by
  have hslot : (stopFrame sock).getD 4 0 = sock.raw := rfl
  rw [stopped, h, hslot]
  exact if_pos rfl

theorem wellAnswered_of_ne (h₁ : opcode ex.request ≠ cmdStartClientTcp)
    (h₂ : opcode ex.request ≠ cmdGetClientStateTcp) : ex.WellAnswered :=
  ⟨fun h => absurd h h₁, fun h => absurd h h₂⟩

theorem hold_of_granted {slot : UInt8} (h : ex.granted = some slot) (slots : List UInt8) :
    hold slots ex = slot :: slots := by
  rw [hold, h]

theorem hold_eq_self (hg : ex.granted = none) (hs : ex.stopped = none) (slots : List UInt8) :
    hold slots ex = slots := by
  rw [hold, hg, hs]

theorem hold_of_stopFrame (h : ex.request = stopFrame sock) (slots : List UInt8) :
    hold slots ex = slots.erase sock.raw := by
  rw [hold, granted_eq_none (by rw [h, stopFrame, opcode_frame]; decide), stopped_of_stopFrame h]

end Exchange

/-- **The slots reserved and not released** in a log: each `GET_SOCKET` that yields a slot reserves
it once, each `STOP_CLIENT_TCP` releases it once. -/
def held (log : List (Exchange C)) : List UInt8 := log.foldl Exchange.hold []

theorem held_append (log log' : List (Exchange C)) :
    held (log ++ log') = log'.foldl Exchange.hold (held log) := List.foldl_append

/-! ## The operations on a slot -/

namespace Chip

/-- A reservation succeeds with the slot it is granted. -/
theorem runs_tcpOpenSocket (s : Link C) :
    ∃ r, K.Runs (Nina.tcpOpenSocket (E := E)).run s r (s.exchanged K openFrame) ∧
      ∀ sock, r = .ok sock ↔
        (s.exchange K openFrame).granted = some sock.raw := by
  obtain ⟨r, hrun, hr⟩ := runs_byteCommand (K := K) (E := E) cmdGetSocket [] s
  have hgranted : (s.exchange K openFrame).granted =
      (readOne len8 cmdGetSocket 1 (s.answered K openFrame)).bind fun payload =>
        if payload.getD 0 0 = 0xFF then none else some (payload.getD 0 0) := if_pos rfl
  rw [hgranted]
  cases hread : readOne len8 cmdGetSocket 1 (s.answered K openFrame) with
  | none =>
    cases r with
    | error e => exact ⟨.error e, hrun.error, fun sock => by simp⟩
    | ok b =>
      obtain ⟨payload, hpayload, -⟩ := (hr b).mp rfl
      exact absurd (hread.symm.trans hpayload) nofun
  | some payload =>
    obtain rfl := (hr _).mpr ⟨payload, hread, rfl⟩
    rw [Option.bind_some]
    by_cases hff : payload.getD 0 0 = 0xFF
    · refine ⟨.error .nina, hrun.ok (Runs.failIf_pos hff .nina).error, fun sock => ?_⟩
      rw [if_pos hff]
      simp
    · refine ⟨.ok ⟨payload.getD 0 0⟩, hrun.ok ((Runs.failIf_neg hff .nina).ok (.ret _)),
        fun sock => ?_⟩
      rw [if_neg hff]
      constructor
      · intro h
        obtain rfl := Except.ok.inj h
        rfl
      · intro h
        rw [Option.some.inj h]

/-- A start succeeds when its reply's parameters fit four bytes, with a hostname or without. -/
theorem runs_tcpStartClient (sock : Socket) (ip : Ipv4) (port : UInt16) (mode : UInt8)
    (s : Link C) :
    ∃ r, K.Runs (Nina.tcpStartClient (E := E) sock ip port mode).run s r
        (s.exchanged K (startFrame [ip.toList, beBytes port.toNat] sock mode)) ∧
      (r.isOk ↔ ManyFit cmdStartClientTcp 4
        (s.answered K (startFrame [ip.toList, beBytes port.toNat] sock mode))) :=
  runs_commandInto cmdStartClientTcp [ip.toList, beBytes port.toNat, [sock.raw], [mode]] 4 s

theorem runs_tcpStartClientHostname (sock : Socket) (hostname : List UInt8) (ip : Ipv4)
    (port : UInt16) (mode : UInt8) (s : Link C) :
    ∃ r, K.Runs (Nina.tcpStartClientHostname (E := E) sock hostname ip port mode).run s r
        (s.exchanged K (startFrame [hostname, ip.toList, beBytes port.toNat] sock mode)) ∧
      (r.isOk ↔ ManyFit cmdStartClientTcp 4
        (s.answered K (startFrame [hostname, ip.toList, beBytes port.toNat] sock mode))) :=
  runs_commandInto cmdStartClientTcp [hostname, ip.toList, beBytes port.toNat, [sock.raw], [mode]] 4
    s

theorem runs_tcpState (sock : Socket) (s : Link C) :
    ∃ r, K.Runs (Nina.tcpState (E := E) sock).run s r (s.exchanged K (stateFrame sock)) ∧
      ∀ st, r = .ok st ↔ ∃ payload,
        readOne len8 cmdGetClientStateTcp 1 (s.answered K (stateFrame sock)) = some payload ∧
        st = SockState.fromU8 (payload.getD 0 0) :=
  runs_mapByte cmdGetClientStateTcp [[sock.raw]] SockState.fromU8 s

theorem runs_tcpClose (sock : Socket) (s : Link C) :
    ∃ r, K.Runs (Nina.tcpClose (E := E) sock).run s r (s.exchanged K (stopFrame sock)) := by
  obtain ⟨r, hrun, -⟩ := runs_byteCommand (K := K) (E := E) cmdStopClientTcp [[sock.raw]] s
  cases r with
  | ok b => exact ⟨_, hrun.ok (.timer 100)⟩
  | error e => exact ⟨_, hrun.error⟩

end Chip

/-! ## The shape of a connect -/

/-- **The state polls of a connect on `sock`**, and what they come to: the slot, an error at a poll
that was answered badly, or an error after the slot was stopped. -/
inductive Polls (sock : Socket) : List (Exchange C) → Except (Error E) Socket → Prop
  | established {ex : Exchange C} (hreq : ex.request = stateFrame sock) (hok : ex.WellAnswered) :
    Polls sock [ex] (.ok sock)
  | again {ex : Exchange C} {log : List (Exchange C)} {r : Except (Error E) Socket}
      (hreq : ex.request = stateFrame sock) (hok : ex.WellAnswered) (h : Polls sock log r) :
    Polls sock (ex :: log) r
  | broken {ex : Exchange C} (e : Error E) (hreq : ex.request = stateFrame sock)
      (hbad : ¬ ex.WellAnswered) : Polls sock [ex] (.error e)
  | stopped {ex : Exchange C} (e : Error E) (hreq : ex.request = stopFrame sock) :
    Polls sock [ex] (.error e)

/-- An exchange of a connect before it has a slot: part of the lookup of its hostname, or a
`GET_SOCKET` that yields none. -/
def Exchange.Unslotted (ex : Exchange C) : Prop :=
  opcode ex.request = cmdReqHostByName ∨ opcode ex.request = cmdGetHostByName ∨
    ex.request = openFrame ∧ ex.granted = none

/-- A start on the slot `sock`, with the hostname if there is one. -/
def Exchange.StartOf (name : Option (List UInt8)) (sock : Socket) (ex : Exchange C) : Prop :=
  ∃ (ip : Ipv4) (port : UInt16) (mode : UInt8),
    ex.request = startFrame (name.toList ++ [ip.toList, beBytes port.toNat]) sock mode

/-- **The log of a connect**, by hostname or without. -/
inductive Attempt (name : Option (List UInt8)) :
    List (Exchange C) → Except (Error E) Socket → Prop
  | refused {pre : List (Exchange C)} (e : Error E) (hpre : ∀ ex ∈ pre, ex.Unslotted) :
    Attempt name pre (.error e)
  | unstarted {pre : List (Exchange C)} {g start : Exchange C} {sock : Socket} (e : Error E)
      (hpre : ∀ ex ∈ pre, ex.Unslotted) (hg : g.granted = some sock.raw)
      (hstart : start.StartOf name sock) (hbad : ¬ start.WellAnswered) :
    Attempt name (pre ++ [g, start]) (.error e)
  | started {pre log : List (Exchange C)} {g start : Exchange C} {sock : Socket}
      {r : Except (Error E) Socket} (hpre : ∀ ex ∈ pre, ex.Unslotted)
      (hg : g.granted = some sock.raw) (hstart : start.StartOf name sock)
      (hok : start.WellAnswered) (hpolls : Polls sock log r) :
    Attempt name (pre ++ [g, start] ++ log) r

theorem wellAnswered_state_iff {sock : Socket} {ex : Exchange C}
    (h : ex.request = stateFrame sock) :
    ex.WellAnswered ↔ (readOne len8 cmdGetClientStateTcp 1 ex.reply).isSome := by
  have hop : opcode ex.request = cmdGetClientStateTcp := by
    rw [h]
    rfl
  refine ⟨fun hok => hok.state hop, fun hok => ⟨fun hs => ?_, fun _ => hok⟩⟩
  rw [hop] at hs
  exact absurd hs (by decide)

theorem wellAnswered_start_iff {front : List (List UInt8)} {sock : Socket} {mode : UInt8}
    {ex : Exchange C} (h : ex.request = startFrame front sock mode) :
    ex.WellAnswered ↔ ManyFit cmdStartClientTcp 4 ex.reply := by
  have hop : opcode ex.request = cmdStartClientTcp := by
    rw [h]
    rfl
  refine ⟨fun hok => hok.start hop, fun hok => ⟨fun _ => hok, fun hs => ?_⟩⟩
  rw [hop] at hs
  exact absurd hs (by decide)

namespace Exchange

theorem Unslotted.granted {ex : Exchange C} (h : ex.Unslotted) : ex.granted = none := by
  rcases h with h | h | ⟨-, h⟩
  · exact granted_eq_none (by rw [h]; decide)
  · exact granted_eq_none (by rw [h]; decide)
  · exact h

theorem Unslotted.opcode {ex : Exchange C} (h : ex.Unslotted) :
    opcode ex.request ≠ cmdStopClientTcp ∧ opcode ex.request ≠ cmdStartClientTcp ∧
      opcode ex.request ≠ cmdGetClientStateTcp := by
  rcases h with h | h | ⟨h, -⟩ <;> rw [h] <;> decide

theorem Unslotted.stopped {ex : Exchange C} (h : ex.Unslotted) : ex.stopped = none :=
  stopped_eq_none h.opcode.1

theorem Unslotted.wellAnswered {ex : Exchange C} (h : ex.Unslotted) : ex.WellAnswered :=
  wellAnswered_of_ne h.opcode.2.1 h.opcode.2.2

theorem request_of_granted {ex : Exchange C} {slot : UInt8} (h : ex.granted = some slot) :
    ex.request = openFrame := by
  rw [granted] at h
  split at h
  · assumption
  · exact absurd h nofun

theorem opcode_of_granted {ex : Exchange C} {slot : UInt8} (h : ex.granted = some slot) :
    opcode ex.request = cmdGetSocket := by
  rw [request_of_granted h]
  rfl

end Exchange

theorem Attempt.prepend {name : Option (List UInt8)} {pre log : List (Exchange C)}
    {r : Except (Error E) Socket} (hpre : ∀ ex ∈ pre, ex.Unslotted) (h : Attempt name log r) :
    Attempt name (pre ++ log) r := by
  cases h with
  | refused e h => exact .refused e (List.forall_mem_append.mpr ⟨hpre, h⟩)
  | unstarted e h hg hstart hbad =>
    rw [← List.append_assoc]
    exact .unstarted e (List.forall_mem_append.mpr ⟨hpre, h⟩) hg hstart hbad
  | started h hg hstart hok hpolls =>
    rw [← List.append_assoc, ← List.append_assoc]
    exact .started (List.forall_mem_append.mpr ⟨hpre, h⟩) hg hstart hok hpolls

/-- Polls that end in a socket were state polls of its slot, at least one. -/
theorem Polls.ok_cases {sock sock' : Socket} {log : List (Exchange C)}
    {r : Except (Error E) Socket} (h : Polls sock log r) (hr : r = .ok sock') :
    sock' = sock ∧ log ≠ [] ∧ ∀ ex ∈ log, ex.request = stateFrame sock := by
  induction h with
  | established hreq hok =>
    exact ⟨(Except.ok.inj hr).symm, List.cons_ne_nil _ _, List.forall_mem_singleton.mpr hreq⟩
  | again hreq hok _ ih =>
    obtain ⟨hsock, -, hall⟩ := ih hr
    exact ⟨hsock, List.cons_ne_nil _ _, List.forall_mem_cons.mpr ⟨hreq, hall⟩⟩
  | broken e hreq hbad => exact absurd hr nofun
  | stopped e hreq => exact absurd hr nofun

/-- **A connect that succeeds** is granted its slot, starts on it and polls its state. -/
theorem Attempt.ok_cases {name : Option (List UInt8)} {log : List (Exchange C)} {sock : Socket}
    {r : Except (Error E) Socket} (h : Attempt name log r) (hr : r = .ok sock) :
    ∃ pre g start polls, log = pre ++ [g, start] ++ polls ∧ (∀ ex ∈ pre, ex.Unslotted) ∧
      g.granted = some sock.raw ∧ start.StartOf name sock ∧ polls ≠ [] ∧
      ∀ ex ∈ polls, ex.request = stateFrame sock := by
  cases h with
  | refused e hpre => exact absurd hr nofun
  | unstarted e hpre hg hstart hbad => exact absurd hr nofun
  | started hpre hg hstart hok hpolls =>
    obtain ⟨rfl, hne, hall⟩ := hpolls.ok_cases hr
    exact ⟨_, _, _, _, rfl, hpre, hg, hstart, hne, hall⟩

/-! ### Which of them start -/

theorem opcode_stateFrame_ne (sock : Socket) : opcode (stateFrame sock) ≠ cmdStartClientTcp := by
  rw [stateFrame, opcode_frame]
  decide

theorem opcode_stopFrame_ne (sock : Socket) : opcode (stopFrame sock) ≠ cmdStartClientTcp := by
  rw [stopFrame, opcode_frame]
  decide

theorem Polls.opcode_ne {sock : Socket} {log : List (Exchange C)} {r : Except (Error E) Socket}
    (h : Polls sock log r) : ∀ ex ∈ log, opcode ex.request ≠ cmdStartClientTcp := by
  induction h with
  | established hreq hok =>
    exact List.forall_mem_singleton.mpr (hreq ▸ opcode_stateFrame_ne sock)
  | again hreq hok _ ih => exact List.forall_mem_cons.mpr ⟨hreq ▸ opcode_stateFrame_ne sock, ih⟩
  | broken e hreq hbad => exact List.forall_mem_singleton.mpr (hreq ▸ opcode_stateFrame_ne sock)
  | stopped e hreq => exact List.forall_mem_singleton.mpr (hreq ▸ opcode_stopFrame_ne sock)

/-- The starts among `log` go from `front` to `mode`. -/
def StartsWith (front : List (List UInt8)) (mode : UInt8) (log : List (Exchange C)) : Prop :=
  ∀ ex ∈ log, opcode ex.request = cmdStartClientTcp →
    ∃ sock, ex.request = startFrame front sock mode

theorem startsWith_of_ne {log : List (Exchange C)}
    (h : ∀ ex ∈ log, opcode ex.request ≠ cmdStartClientTcp) (front : List (List UInt8))
    (mode : UInt8) : StartsWith front mode log := fun ex hex hop => absurd hop (h ex hex)

namespace Chip

/-- The polling loop makes such polls. -/
theorem runs_awaitEstablished (n : ℕ) (sock : Socket) (s : Link C) :
    ∃ r s' log, K.Runs (NinaStack.awaitEstablished (E := E) n sock).run s r s' ∧
      s'.log = s.log ++ log ∧ Polls sock log r := by
  rw [NinaStack.awaitEstablished]
  induction n generalizing s with
  | zero =>
    obtain ⟨r, hrun⟩ := runs_tcpClose (K := K) (E := E) sock s
    exact ⟨.error .timeout, _, _, hrun.attempt.ok (.ret _), Link.log_exchanged K s _,
      .stopped _ rfl⟩
  | succ n ih =>
    obtain ⟨r, hrun, hr⟩ := runs_tcpState (K := K) (E := E) sock s
    have hiff : (s.exchange K (stateFrame sock)).WellAnswered ↔
        (readOne len8 cmdGetClientStateTcp 1 (s.answered K (stateFrame sock))).isSome :=
      wellAnswered_state_iff rfl
    cases r with
    | error e =>
      refine ⟨.error e, _, _, hrun.error.error, Link.log_exchanged K s _,
        .broken e rfl fun hok => ?_⟩
      obtain ⟨payload, hread⟩ := Option.isSome_iff_exists.mp (hiff.mp hok)
      exact absurd ((hr _).mpr ⟨payload, hread, rfl⟩) nofun
    | ok st =>
      obtain ⟨payload, hread, -⟩ := (hr st).mp rfl
      have hok := hiff.mpr (Option.isSome_iff_exists.mpr ⟨payload, hread⟩)
      by_cases hst : st = .established
      · have hturn : ∀ f : SockState → Nina E (Option Socket), f st = pure (some sock) →
            K.Runs (Nina.tcpState sock >>= f).run s (.ok (some sock))
              (s.exchanged K (stateFrame sock)) := fun f hf => hrun.ok (by rw [hf]; exact .ret _)
        exact ⟨.ok sock, _, _, (hturn _ (if_pos hst)).ok (.ret _), Link.log_exchanged K s _,
          .established rfl hok⟩
      · obtain ⟨r, s', log, hrest, hlog, hpolls⟩ := ih (s.exchanged K (stateFrame sock))
        refine ⟨r, s', _ :: log, (hrun.ok (r := .ok none) ?_).ok hrest, ?_, .again rfl hok hpolls⟩
        · rw [if_neg hst]
          exact (Runs.timer 250).ok (.ret _)
        · rw [hlog, Link.log_exchanged, List.append_assoc, List.singleton_append]

/-- A slot, a start on it, and the polls. -/
theorem runs_slotted {start : Socket → Nina E Unit} (name : Option (List UInt8)) (ip : Ipv4)
    (port : UInt16) (mode : UInt8)
    (hstart : ∀ sock s, ∃ r, K.Runs (start sock).run s r (s.exchanged K
        (startFrame (name.toList ++ [ip.toList, beBytes port.toNat]) sock mode)) ∧
      (r.isOk ↔ ManyFit cmdStartClientTcp 4 (s.answered K
        (startFrame (name.toList ++ [ip.toList, beBytes port.toNat]) sock mode))))
    (n : ℕ) (s : Link C) :
    ∃ r s' log, K.Runs (do
        let sock ← Nina.tcpOpenSocket
        start sock
        NinaStack.awaitEstablished (E := E) n sock).run s r s' ∧
      s'.log = s.log ++ log ∧ Attempt name log r ∧
      StartsWith (name.toList ++ [ip.toList, beBytes port.toNat]) mode log := by
  generalize hfront : name.toList ++ [ip.toList, beBytes port.toNat] = front at hstart
  have hopened : opcode (s.exchange K openFrame).request ≠ cmdStartClientTcp := by
    change opcode openFrame ≠ cmdStartClientTcp
    decide
  obtain ⟨r, hopen, hr⟩ := runs_tcpOpenSocket (K := K) (E := E) s
  cases r with
  | error e =>
    refine ⟨.error e, _, _, hopen.error, Link.log_exchanged K s _, .refused e ?_,
      startsWith_of_ne (List.forall_mem_singleton.mpr hopened) _ _⟩
    refine List.forall_mem_singleton.mpr (.inr (.inr ⟨rfl, ?_⟩))
    rw [Option.eq_none_iff_forall_ne_some]
    exact fun slot hslot => absurd ((hr ⟨slot⟩).mpr hslot) nofun
  | ok sock =>
    have hg := (hr sock).mp rfl
    obtain ⟨r, hrun, hr⟩ := hstart sock (s.exchanged K openFrame)
    have hiff : ((s.exchanged K openFrame).exchange K (startFrame front sock mode)).WellAnswered ↔
        ManyFit cmdStartClientTcp 4
          ((s.exchanged K openFrame).answered K (startFrame front sock mode)) :=
      wellAnswered_start_iff rfl
    have hpair : StartsWith front mode [s.exchange K openFrame,
        (s.exchanged K openFrame).exchange K (startFrame front sock mode)] :=
      List.forall_mem_cons.mpr ⟨fun hop => absurd hop hopened,
        List.forall_mem_singleton.mpr fun _ => ⟨sock, rfl⟩⟩
    cases r with
    | error e =>
      refine ⟨.error e, _, _, hopen.ok hrun.error, ?_, @Attempt.unstarted C E name [] _ _ sock e
        (List.forall_mem_nil _) hg ⟨ip, port, mode, by rw [hfront]; rfl⟩
        fun hok => absurd (hr.mpr (hiff.mp hok)) nofun, hpair⟩
      rw [Link.log_exchanged, Link.log_exchanged, List.append_assoc]
      rfl
    | ok u =>
      obtain ⟨r, s', log, hrest, hlog, hpolls⟩ := runs_awaitEstablished (K := K) (E := E) n sock
        ((s.exchanged K openFrame).exchanged K (startFrame front sock mode))
      refine ⟨r, s', _, hopen.ok (hrun.ok hrest), ?_, @Attempt.started C E name [] _ _ _ sock _
        (List.forall_mem_nil _) hg ⟨ip, port, mode, by rw [hfront]; rfl⟩
        (hiff.mpr (hr.mp rfl)) hpolls,
        List.forall_mem_append.mpr ⟨hpair, startsWith_of_ne hpolls.opcode_ne _ _⟩⟩
      rw [hlog, Link.log_exchanged, Link.log_exchanged, List.append_assoc, List.append_assoc]
      rfl

end Chip

/-- The three functions that connect. -/
inductive Connect
  | tcpConnect (ip : Ipv4) (port : UInt16)
  | connect (mode : UInt8) (remote : SocketAddr)
  | connectHostname (mode : UInt8) (hostname : List UInt8) (port : UInt16)

def Connect.prog : Connect → Nina E Socket
  | .tcpConnect ip port => Nina.tcpConnect ip port
  | .connect mode remote => NinaStack.connect mode remote
  | .connectHostname mode hostname port => NinaStack.connectHostname mode hostname port

/-- The polling loop of `tcpConnect` is that of the other two. -/
theorem tcpConnect_eq (ip : Ipv4) (port : UInt16) :
    Nina.tcpConnect (E := E) ip port = NinaStack.connectLocked tcpMode ip port := by
  unfold Nina.tcpConnect NinaStack.connectLocked NinaStack.awaitEstablished
  refine bind_congr fun sock => bind_congr fun _ => ?_
  refine congrArg (repeatFor 40 · _) ?_
  exact bind_congr fun st => by cases st <;> rfl

/-- **The start of a connect by hostname goes to the address its lookup found**, if it found one. -/
def Resolved (E : Type) (hostname : List UInt8) (log : List (Exchange C)) : Prop :=
  ∃ (lookup rest : List (Exchange C)) (r : Except (Error E) Ipv4), log = lookup ++ rest ∧
    LookupLog hostname lookup r ∧ ∀ ex ∈ rest, opcode ex.request = cmdStartClientTcp →
      ∃ ip port sock mode, r = .ok ip ∧
        ex.request = startFrame [hostname, ip.toList, beBytes port] sock mode

/-- The hostname that goes out with the start. -/
def Connect.name : Connect → Option (List UInt8)
  | .connectHostname _ hostname _ => some hostname
  | _ => none

namespace Chip

theorem runs_connectLocked (mode : UInt8) (ip : Ipv4) (port : UInt16) (s : Link C) :
    ∃ r s' log, K.Runs (NinaStack.connectLocked (E := E) mode ip port).run s r s' ∧
      s'.log = s.log ++ log ∧ Attempt none log r := by
  obtain ⟨r, s', log, hrun, hlog, hattempt, -⟩ := runs_slotted (K := K) (E := E) none ip port mode
    (fun sock => runs_tcpStartClient sock ip port mode) 40 s
  exact ⟨r, s', log, hrun, hlog, hattempt⟩

theorem runs_connectHostnameLocked (mode : UInt8) (hostname : List UInt8) (port : UInt16)
    (s : Link C) :
    ∃ r s' log, K.Runs (NinaStack.connectHostnameLocked (E := E) mode hostname port).run s r s' ∧
      s'.log = s.log ++ log ∧ Attempt (some hostname) log r ∧ Resolved E hostname log := by
  obtain ⟨r, s', log, hdns, hlog, hlookup⟩ := runs_dnsLookup (K := K) (E := E) hostname s
  have hpre : ∀ ex ∈ log, ex.Unslotted := fun ex hex => (hlookup.opcode ex hex).imp_right .inl
  cases r with
  | error e =>
    exact ⟨.error e, s', log, hdns.error, hlog, .refused e hpre, log, [], .error e,
      (List.append_nil _).symm, hlookup, List.forall_mem_nil _⟩
  | ok ip =>
    obtain ⟨r, s'', log', hrun, hlog', hattempt, hstarts⟩ := runs_slotted (K := K) (E := E)
      (some hostname) ip port mode
      (fun sock => runs_tcpStartClientHostname sock hostname ip port mode) 80 s'
    refine ⟨r, s'', log ++ log', hdns.ok hrun, ?_, hattempt.prepend hpre, log, log', .ok ip, rfl,
      hlookup, fun ex hex hop => ?_⟩
    · rw [hlog', hlog, List.append_assoc]
    · obtain ⟨sock, hreq⟩ := hstarts ex hex hop
      exact ⟨ip, port.toNat, sock, mode, rfl, hreq⟩

/-- **Every connect leaves the log of an attempt.** -/
theorem runs_connect (call : Connect) (s : Link C) :
    ∃ r s' log, K.Runs (call.prog (E := E)).run s r s' ∧ s'.log = s.log ++ log ∧
      Attempt call.name log r := by
  cases call with
  | tcpConnect ip port =>
    rw [Connect.prog, tcpConnect_eq]
    exact runs_connectLocked tcpMode ip port s
  | connect mode remote =>
    cases remote with
    | v4 ip port =>
      obtain ⟨r, s', log, hrun, h⟩ := runs_connectLocked (K := K) (E := E) mode ip port s
      exact ⟨r, s', log, hrun.locked, h⟩
    | v6 port =>
      exact ⟨.error .unsupported, s, [], .ret _, (List.append_nil _).symm,
        .refused _ (List.forall_mem_nil _)⟩
  | connectHostname mode hostname port =>
    obtain ⟨r, s', log, hrun, hlog, h, -⟩ :=
      runs_connectHostnameLocked (K := K) (E := E) mode hostname port s
    exact ⟨r, s', log, hrun.locked, hlog, h⟩

end Chip

end EmbassyNina
