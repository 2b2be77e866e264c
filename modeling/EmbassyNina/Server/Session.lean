import EmbassyNina.Link.Connect
import EmbassyNina.Link.Logs
import EmbassyNina.Server.Serve

/-!
# Server/Session — the exchanges of the accept loop

A turn of the loop is idle, or it is a `Visit`: the poll that accepts a client, the drain of its
request, the lights if the request is taken, the response and the close.  `Session` strings turns
together by the state they leave, and `turns_session` says that these are the exchanges of the loop,
whatever the chip replies and the clock reads.
-/

namespace EmbassyNina

open Machinery Prog

variable {C E α : Type} {K : Chip C}

/-! ## Replies -/

/-- What is received, read off the reply. -/
theorem Says.readOne_eq {R : OneReceiver} {cmd : UInt8} {room : ℕ} {st : Bytes}
    {got : Except (Error E) (List UInt8)} (h : Says R.code cmd room st got) :
    readOne R.code cmd room st = got.toOption := by
  cases got with
  | ok p => exact readOne_eq_some.mpr h.of_ok
  | error e =>
    refine Option.eq_none_iff_forall_not_mem.mpr fun p hp => ?_
    exact absurd (h.ok_iff.mpr (readOne_eq_some.mp hp)) (by simp)

namespace Exchange

/-- The count in the reply to `AVAIL_DATA_TCP`. -/
def count (ex : Exchange C) : Option ℕ := (readOne len8 cmdAvailDataTcp 4 ex.reply).bind countOf

/-- The client that the reply to the poll of a listening socket names. -/
def client (ex : Exchange C) : Option Socket := ex.count.bind acceptOf

/-- The bytes that the reply to a receive brings, at most `room`. -/
def bytes (room : ℕ) (ex : Exchange C) : List UInt8 :=
  (readOne len16 cmdGetDatabufTcp room ex.reply).getD []

theorem length_bytes_le (room : ℕ) (ex : Exchange C) : (ex.bytes room).length ≤ room := by
  rw [bytes]
  cases h : readOne len16 cmdGetDatabufTcp room ex.reply with
  | none => exact Nat.zero_le _
  | some p => exact (readOne_eq_some.mp h).1

theorem count_of_says {ex : Exchange C} {got : Except (Error E) (List UInt8)}
    (h : Says len8 cmdAvailDataTcp 4 ex.reply got) : ex.count = got.toOption.bind countOf :=
  congrArg (Option.bind · countOf) (Says.readOne_eq (R := .recvCmdOneParam) h)

theorem bytes_of_says {ex : Exchange C} {room : ℕ} {got : Except (Error E) (List UInt8)}
    (h : Says len16 cmdGetDatabufTcp room ex.reply got) : ex.bytes room = got.toOption.getD [] :=
  congrArg (Option.getD · []) (Says.readOne_eq (R := .recvCmdOneParam16) h)

end Exchange

/-- A receive keeps the length of the buffer. -/
theorem doesB_tcpRecv (sock : Socket) (n : ℕ) :
    DoesB (E := E) (fun _ => True) n (· ≤ n) (Nina.tcpRecv sock) := by
  refine doesB_len.bind fun _ _ => DoesB.bind (Q := fun _ => True) (fun out hout => ?_) fun _ _ =>
    doesB_received (doesB_recvCmdOneParam16Inner _)
  refine Does.bind ((Wired.sendCmdMixed _ _).weaken fun _ _ => trivial) fun r _ => ?_
  exact ⟨hout, fun _ _ => trivial⟩

namespace Server

def availFrame (sock : Socket) : List UInt8 := frame cmdAvailDataTcp [.short [sock.raw]]

/-- The request that sets a pin's level. -/
def levelFrame (pin : UInt8) (high : Bool) : List UInt8 :=
  frame cmdSetDigitalWrite [.short [pin], .short [if high then 1 else 0]]

theorem opcode_frame_ne {cmd op : UInt8} (hne : cmd &&& ~~~replyFlag ≠ op) (params : List Param) :
    opcode (frame cmd params) ≠ op := hne

theorem frame_ne_stateFrame {cmd : UInt8} (hne : cmd &&& ~~~replyFlag ≠
    cmdGetClientStateTcp &&& ~~~replyFlag) (params : List Param) (sock : Socket) :
    frame cmd params ≠ stateFrame sock := fun h => hne (congrArg opcode h)

/-! ## One exchange -/

theorem logs_tcpAccept (listen : Socket) :
    K.Logs (fun r log => ∃ ex, log = [ex] ∧ ex.request = acceptFrame listen ∧
      ∀ client, r = .ok (some client) ↔ ex.client = some client)
      (Nina.tcpAccept (E := E) listen).run := by
  refine Chip.logs_of_exchange (.tcpAccept listen) (acceptFrame listen) fun s => ?_
  obtain ⟨got, hrun, hsays⟩ := Chip.runs_tcpAccept (K := K) (E := E) listen s
  refine ⟨_, hrun, _, rfl, rfl, fun client => ?_⟩
  have hcount : (s.exchange K (acceptFrame listen)).count = _ := Exchange.count_of_says hsays
  rw [Exchange.client, hcount]
  rcases got with e | p
  · exact iff_of_false nofun nofun
  · change (countOf p).elim _ _ = _ ↔ (countOf p).bind acceptOf = _
    cases countOf p with
    | none => exact iff_of_false nofun nofun
    | some raw => exact ⟨Except.ok.inj, congrArg Except.ok⟩

theorem logs_tcpAvail (sock : Socket) :
    K.Logs (fun r log => ∃ ex, log = [ex] ∧ ex.request = availFrame sock ∧
      orZero r = ex.count.getD 0) (Nina.tcpAvail (E := E) sock).run := by
  refine Chip.logs_of_exchange (.countCommand _ _) (availFrame sock) fun s => ?_
  obtain ⟨got, hrun, hsays⟩ := Chip.runs_countCommand_says (K := K) (E := E) cmdAvailDataTcp
    [[sock.raw]] s
  refine ⟨_, hrun, _, rfl, rfl, ?_⟩
  have hcount : (s.exchange K (availFrame sock)).count = _ := Exchange.count_of_says hsays
  rw [hcount]
  rcases got with e | p
  · rfl
  · change orZero ((countOf p).elim _ _) = (countOf p).getD 0
    cases countOf p <;> rfl

/-- **A receive into the rest of the buffer** appends what it brings. -/
theorem logs_recv (client : Socket) {got : List UInt8} {buf : Buf}
    (hgot : buf.take got.length = got) :
    K.Logs (fun r log => ∃ ex, log = [ex] ∧
        ex.request = recvFrame client (buf.length - got.length) ∧
        orZero r.1 = (ex.bytes (buf.length - got.length)).length ∧ r.2.length = buf.length ∧
        r.2.take (got ++ ex.bytes (buf.length - got.length)).length =
          got ++ ex.bytes (buf.length - got.length))
      (onTail (E := E) got.length (Nina.tcpRecv client) buf) := by
  have hle : got.length ≤ buf.length := by
    rw [← hgot, List.length_take]
    exact Nat.min_le_right _ _
  have hroom : (buf.drop got.length).length = buf.length - got.length := List.length_drop
  rw [onTail, if_pos hle, hgot]
  refine Chip.Logs.bind (P := fun (r : Except (Error E) ℕ × Buf) log => ∃ ex, log = [ex] ∧
    ex.request = recvFrame client (buf.length - got.length) ∧
    orZero r.1 = (ex.bytes (buf.length - got.length)).length ∧
    r.2.length = buf.length - got.length ∧ ex.bytes (buf.length - got.length) <+: r.2)
    (Chip.logs_of_exchange (.tcpRecv client _) (recvFrame client (buf.length - got.length))
      fun s => ?_) ?_
  · obtain ⟨r, out, hrun, hsays, hout⟩ := Chip.runs_tcpRecv_says (K := K) (E := E) client
      (buf.drop got.length) s
    have hlen : out.length = buf.length - got.length := by
      have hsteps := (K.bus E).steps_trace ((Nina.tcpRecv client).run (buf.drop got.length)) s
      rw [hrun] at hsteps
      exact (hsteps.does (doesB_tcpRecv client _ _ hroom)).1
    rw [hroom] at hrun hsays
    have hbytes : (s.exchange K (recvFrame client (buf.length - got.length))).bytes _ = _ :=
      Exchange.bytes_of_says hsays
    refine ⟨_, hrun, _, rfl, rfl, ?_, hlen, ?_⟩
    · rw [hbytes]
      cases r <;> rfl
    · rw [hbytes]
      cases r with
      | error e => exact List.nil_prefix
      | ok p => exact ⟨_, (hout p rfl).symm⟩
  · rintro ⟨r, out⟩ log ⟨ex, rfl, hreq, hr, hlen, rest, rfl⟩
    refine .ret ⟨ex, rfl, hreq, hr, ?_, ?_⟩
    · rw [List.length_append, hlen, Nat.add_sub_cancel' hle]
    · rw [← List.append_assoc, List.take_left]

/-! ## The drain -/

/-- **The exchanges of a drain** of `client` into a buffer of `size` bytes, `got` having been got so
far, and the request that it comes to.  It polls while there is room; a receive follows a poll that
announced bytes, and asks for no more than there is room for; and the first receive that brings
nothing or the end of a line ends it.  At any other point it may run out of time. -/
inductive Drains (size : ℕ) (client : Socket) : List UInt8 → List (Exchange C) → List UInt8 → Prop
  | stop {got : List UInt8} : Drains size client got [] got
  | wait {got req : List UInt8} {poll : Exchange C} {log : List (Exchange C)}
      (hroom : got.length < size) (hpoll : poll.request = availFrame client)
      (hnone : poll.count.getD 0 = 0) (hlog : Drains size client got log req) :
    Drains size client got (poll :: log) req
  | nothing {got : List UInt8} {poll recv : Exchange C} (hroom : got.length < size)
      (hpoll : poll.request = availFrame client) (hsome : 0 < poll.count.getD 0)
      (hrecv : recv.request = recvFrame client (size - got.length))
      (hbytes : recv.bytes (size - got.length) = []) : Drains size client got [poll, recv] got
  | line {got : List UInt8} {poll recv : Exchange C} (hroom : got.length < size)
      (hpoll : poll.request = availFrame client) (hsome : 0 < poll.count.getD 0)
      (hrecv : recv.request = recvFrame client (size - got.length))
      (hbytes : recv.bytes (size - got.length) ≠ [])
      (hline : [13, 10] <:+: got ++ recv.bytes (size - got.length)) :
    Drains size client got [poll, recv] (got ++ recv.bytes (size - got.length))
  | more {got req : List UInt8} {poll recv : Exchange C} {log : List (Exchange C)}
      (hroom : got.length < size) (hpoll : poll.request = availFrame client)
      (hsome : 0 < poll.count.getD 0) (hrecv : recv.request = recvFrame client (size - got.length))
      (hbytes : recv.bytes (size - got.length) ≠ [])
      (hline : ¬ [13, 10] <:+: got ++ recv.bytes (size - got.length))
      (hlog : Drains size client (got ++ recv.bytes (size - got.length)) log req) :
    Drains size client got (poll :: recv :: log) req

theorem Drains.requests {size : ℕ} {client : Socket} {got req : List UInt8}
    {log : List (Exchange C)} (h : Drains size client got log req) :
    ∀ ex ∈ log, ex.request = availFrame client ∨ ∃ room, ex.request = recvFrame client room := by
  induction h with
  | stop => exact List.forall_mem_nil _
  | wait _ hpoll _ _ ih => exact List.forall_mem_cons.mpr ⟨.inl hpoll, ih⟩
  | nothing _ hpoll _ hrecv _ | line _ hpoll _ hrecv _ _ =>
    exact List.forall_mem_cons.mpr ⟨.inl hpoll, List.forall_mem_singleton.mpr (.inr ⟨_, hrecv⟩)⟩
  | more _ hpoll _ hrecv _ _ _ ih =>
    exact List.forall_mem_cons.mpr ⟨.inl hpoll, List.forall_mem_cons.mpr ⟨.inr ⟨_, hrecv⟩, ih⟩⟩

/-- What a drain has got it keeps, and it never gets more than fits. -/
theorem Drains.length_le {size : ℕ} {client : Socket} {got req : List UInt8}
    {log : List (Exchange C)} (h : Drains size client got log req) (hgot : got.length ≤ size) :
    got <+: req ∧ req.length ≤ size := by
  have happend : ∀ (got : List UInt8) (recv : Exchange C), got.length ≤ size →
      (got ++ recv.bytes (size - got.length)).length ≤ size := fun got recv hgot => by
    have hle := recv.length_bytes_le (size - got.length)
    rw [List.length_append]
    omega
  induction h with
  | stop | nothing => exact ⟨List.prefix_rfl, hgot⟩
  | wait _ _ _ _ ih => exact ih hgot
  | line => exact ⟨List.prefix_append _ _, happend _ _ hgot⟩
  | more _ _ _ _ _ _ _ ih =>
    obtain ⟨hfront, hle⟩ := ih (happend _ _ hgot)
    exact ⟨(List.prefix_append _ _).trans hfront, hle⟩

/-- A drain comes to a request, and has it at the front of the buffer. -/
theorem logs_drain (client : Socket) (deadline fuel : ℕ) (got : List UInt8) {buf : Buf}
    (hgot : buf.take got.length = got) :
    K.Logs (fun r log => r.2.length = buf.length ∧ ∃ req, r.1 = req.length ∧
        r.2.take req.length = req ∧ Drains buf.length client got log req)
      (drain (E := E) client deadline fuel got.length buf) := by
  induction fuel generalizing got buf with
  | zero => exact .halt
  | succ fuel ih =>
    refine Chip.Logs.bind Chip.logs_now ?_
    rintro reading _ rfl
    by_cases hin : reading < deadline ∧ got.length < buf.length
    · rw [if_pos hin]
      refine Chip.Logs.bind (logs_tcpAvail client) ?_
      rintro avail _ ⟨poll, rfl, hpoll, havail⟩
      rw [havail]
      by_cases hsome : poll.count.getD 0 > 0
      · rw [if_pos hsome]
        refine Chip.Logs.bind (logs_recv client hgot) ?_
        rintro ⟨r, out⟩ _ ⟨recv, rfl, hrecv, hr, hlen, htake⟩
        dsimp only at hr hlen htake ⊢
        generalize hb : recv.bytes (buf.length - got.length) = bytes at hr htake
        rw [hr]
        by_cases hzero : bytes.length = 0
        · rw [if_pos hzero]
          obtain rfl := List.eq_nil_of_length_eq_zero hzero
          rw [List.append_nil] at htake
          exact .ret ⟨hlen, got, rfl, htake, .nothing hin.2 hpoll hsome hrecv hb⟩
        have hne : bytes ≠ [] := fun h => hzero (congrArg List.length h)
        rw [if_neg hzero, ← List.length_append, upTo, if_pos ?_]
        · change K.Logs _ (if [13, 10] <:+: out.take (got ++ bytes).length then _ else _)
          rw [htake]
          subst hb
          by_cases hline : [13, 10] <:+: got ++ recv.bytes (buf.length - got.length)
          · rw [if_pos hline]
            exact .ret ⟨hlen, _, rfl, htake, .line hin.2 hpoll hsome hrecv hne hline⟩
          · rw [if_neg hline]
            refine (ih _ htake).mono ?_
            rintro r' log ⟨hlen', req, hreq, htake', hlog⟩
            rw [hlen] at hlen' hlog
            exact ⟨hlen', req, hreq, htake', .more hin.2 hpoll hsome hrecv hne hline hlog⟩
        · rw [← htake, List.length_take]
          exact (Nat.min_le_right _ _)
      · rw [if_neg hsome]
        refine Chip.Logs.bind (Chip.logs_timer 5) ?_
        rintro _ _ rfl
        refine (ih _ hgot).mono ?_
        rintro r log ⟨hlen, req, hreq, htake, hlog⟩
        exact ⟨hlen, req, hreq, htake, .wait hin.2 hpoll (Nat.eq_zero_of_not_pos hsome) hlog⟩
    · rw [if_neg hin]
      exact .ret ⟨rfl, got, rfl, hgot, .stop⟩

/-! ## A visit -/

/-- An exchange of a command that answers by a byte. -/
theorem logs_ackedCommand (cmd : UInt8) (params : List (List UInt8)) :
    K.Logs (fun _ log => ∃ ex, log = [ex] ∧ ex.request = frame cmd (params.map .short))
      (Nina.ackedCommand (E := E) cmd params).run := by
  refine Chip.logs_of_exchange (.ackedCommand cmd params) (frame cmd (params.map .short))
    fun s => ?_
  obtain ⟨r, hrun, -⟩ := Chip.runs_byteCommand (K := K) (E := E) cmd params s
  rcases r with e | b
  · exact ⟨_, hrun.error, _, rfl, rfl⟩
  · by_cases hb : b ≠ 1
    · exact ⟨_, hrun.ok (.failIf_pos hb _), _, rfl, rfl⟩
    · exact ⟨_, hrun.ok (.failIf_neg hb _), _, rfl, rfl⟩

/-- The requests that make the LED show a state. -/
def lightFrames (state : LedState) : List (List UInt8) :=
  [levelFrame ledR !state.r, levelFrame ledG !state.g, levelFrame ledB !state.b]

theorem logs_light (state : LedState) :
    K.Logs (fun _ log => log.map Exchange.request = lightFrames state) (light (E := E) state) := by
  have hlevel : ∀ pin on, K.Logs
      (fun _ log => ∃ ex, log = [ex] ∧ ex.request = levelFrame pin on)
      (Nina.digitalWrite (E := E) pin on.toUInt8).run := fun pin on => by
    cases on <;> exact logs_ackedCommand _ _
  refine Chip.Logs.bind (hlevel ledR _) ?_
  rintro _ _ ⟨red, rfl, hred⟩
  refine Chip.Logs.bind (hlevel ledG _) ?_
  rintro _ _ ⟨green, rfl, hgreen⟩
  refine Chip.Logs.bind (hlevel ledB _) ?_
  rintro _ _ ⟨blue, rfl, hblue⟩
  exact .ret (by simp [lightFrames, hred, hgreen, hblue])

theorem logs_tcpSend (sock : Socket) (data : List UInt8) :
    K.Logs (fun _ log => ∃ all, SendLog sock (Nina.chunks 64 data) log all)
      (Nina.tcpSend (E := E) sock data).run :=
  Chip.logs_of_runs (.tcpSend sock data) fun s => by
    obtain ⟨r, s', log, hrun, hlog, hsend, -⟩ := Chip.runs_tcpSend (K := K) (E := E) sock data s
    exact ⟨r, s', log, hrun, hlog, _, hsend⟩

theorem logs_tcpClose (sock : Socket) :
    K.Logs (fun _ log => ∃ ex, log = [ex] ∧ ex.request = stopFrame sock)
      (Nina.tcpClose (E := E) sock).run :=
  Chip.logs_of_exchange (.tcpClose sock) (stopFrame sock) fun s => by
    obtain ⟨r, hrun⟩ := Chip.runs_tcpClose (K := K) (E := E) sock s
    exact ⟨r, hrun, _, rfl, rfl⟩

/-- **A client's visit**, from the poll that accepts it to the close. -/
structure Visit (C : Type) where
  client : Socket
  req : List UInt8
  before : LedState
  after : LedState
  poll : Exchange C
  reads : List (Exchange C)
  lights : List (Exchange C)
  sends : List (Exchange C)
  close : Exchange C

namespace Visit

/-- Its exchanges once it is accepted. -/
def rest (v : Visit C) : List (Exchange C) := v.reads ++ v.lights ++ v.sends ++ [v.close]

/-- What is made of the request. -/
def handled (v : Visit C) : Bool × LedState := handle (extractPath v.req) v.before

variable [Heapless]

/-- **How a client is served**: its request is drained, the LED is set if the request is taken, the
response to it is sent, and the socket is closed. -/
structure Serves (v : Visit C) : Prop where
  reads : Drains 256 v.client [] v.reads v.req
  after : v.after = v.handled.2
  lights : v.lights.map Exchange.request = if v.handled.1 then lightFrames v.after else []
  sends : ∃ all, SendLog v.client (Nina.chunks 64 (response v.handled.1 v.after).bytes) v.sends all
  close : v.close.request = stopFrame v.client

end Visit

variable [Heapless]

theorem logs_respond (client : Socket) (ok : Bool) (mem : Memory) :
    K.Logs (fun mem' log => mem' = mem ∧ ∃ sends close, log = sends ++ [close] ∧
        (∃ all, SendLog client (Nina.chunks 64 (response ok mem.state).bytes) sends all) ∧
        close.request = stopFrame client)
      (respond (E := E) client ok mem) := by
  refine Chip.Logs.bind (logs_tcpSend client _) ?_
  rintro _ sends hsends
  refine Chip.Logs.bind (Chip.logs_timer 20) ?_
  rintro _ _ rfl
  refine Chip.Logs.bind (logs_tcpClose client) ?_
  rintro _ _ ⟨close, rfl, hclose⟩
  exact .ret ⟨rfl, sends, close, rfl, hsends, hclose⟩

theorem logs_serve (fuel : ℕ) (client : Socket) {mem : Memory} (hmem : mem.reqBuf.length = 256)
    (poll : Exchange C) :
    K.Logs (fun mem' log => mem'.reqBuf.length = 256 ∧ ∃ v : Visit C, v.Serves ∧ v.rest = log ∧
        v.client = client ∧ v.poll = poll ∧ v.before = mem.state ∧ v.after = mem'.state)
      (serve (E := E) fuel client mem) := by
  refine Chip.Logs.bind (Chip.logs_timer 80) ?_
  rintro _ _ rfl
  refine Chip.Logs.bind Chip.logs_now ?_
  rintro start _ rfl
  refine Chip.Logs.bind (logs_drain client (start + 300) fuel [] rfl) ?_
  rintro ⟨total, out⟩ reads ⟨hlen, req, rfl, htake, hreads⟩
  dsimp only at hlen htake ⊢
  rw [upTo, if_pos ?_, htake]
  rotate_left
  · rw [← htake, List.length_take]
    exact Nat.min_le_right _ _
  rw [Prog.bind_eq, Prog.ret_bind]
  rw [hmem] at hlen hreads
  cases hok : (handle (extractPath req) mem.state).1 with
  | true =>
    have hlit : K.Logs (fun state log => state = (handle (extractPath req) mem.state).2 ∧
        log.map Exchange.request = lightFrames state) ((light (E := E)
          (handle (extractPath req) mem.state).2).bind fun _ => .ret (handle _ mem.state).2) :=
      Chip.Logs.bind (logs_light _) fun _ lights h => .ret ⟨rfl, by rwa [List.append_nil]⟩
    refine Chip.Logs.bind hlit ?_
    rintro _ lights ⟨rfl, hlights⟩
    refine (logs_respond client _ _).mono ?_
    rintro _ _ ⟨rfl, sends, close, rfl, hsends, hclose⟩
    refine ⟨hlen, ⟨client, req, mem.state, _, poll, reads, lights, sends, close⟩,
      ⟨hreads, rfl, ?_, ?_, hclose⟩, ?_, rfl, rfl, rfl, rfl⟩
    · rw [Visit.handled, hok]
      exact hlights
    · rw [Visit.handled, hok]
      exact hsends
    · simp [Visit.rest]
  | false =>
    refine (logs_respond client _ _).mono ?_
    rintro _ _ ⟨rfl, sends, close, rfl, hsends, hclose⟩
    refine ⟨hlen, ⟨client, req, mem.state, mem.state, poll, reads, [], sends, close⟩,
      ⟨hreads, (handle_refused hok).symm, ?_, ?_, hclose⟩, ?_, rfl, rfl, rfl, rfl⟩
    · rw [Visit.handled, hok]
      rfl
    · rw [Visit.handled, hok]
      exact hsends
    · simp [Visit.rest]

/-! ## The loop -/

/-- A turn of the loop: its poll finds no client, or the client it finds is served. -/
inductive Turn (C : Type)
  | idle (poll : Exchange C)
  | visit (v : Visit C)

namespace Turn

def log : Turn C → List (Exchange C)
  | .idle poll => [poll]
  | .visit v => v.poll :: v.rest

/-- A turn on the socket `listen`, from one state to another. -/
inductive Takes (listen : Socket) : LedState → Turn C → LedState → Prop
  | idle {s : LedState} {poll : Exchange C} (hpoll : poll.request = acceptFrame listen)
      (hnone : poll.client = none) : Takes listen s (.idle poll) s
  | visit {v : Visit C} (hpoll : v.poll.request = acceptFrame listen)
      (hclient : v.poll.client = some v.client) (hserves : v.Serves) :
    Takes listen v.before (.visit v) v.after

end Turn

/-- **A session** on the socket `listen`: turns, each from the state that the one before leaves. -/
def Session (listen : Socket) : LedState → List (Turn C) → LedState → Prop
  | s, [], s' => s' = s
  | s, t :: ts, s' => ∃ s₁, t.Takes listen s s₁ ∧ Session listen s₁ ts s'

theorem logs_turn (fuel : ℕ) (listen : Socket) {mem : Memory} (hmem : mem.reqBuf.length = 256) :
    K.Logs (fun mem' log => mem'.reqBuf.length = 256 ∧
        ∃ t : Turn C, t.log = log ∧ t.Takes listen mem.state mem'.state)
      (turn (E := E) fuel listen mem) := by
  refine Chip.Logs.bind (logs_tcpAccept listen) ?_
  rintro r _ ⟨poll, rfl, hpoll, hclient⟩
  have hidle : poll.client = none → K.Logs (fun (mem' : Memory) log => mem'.reqBuf.length = 256 ∧
      ∃ t : Turn C, t.log = [poll] ++ log ∧ t.Takes listen mem.state mem'.state)
      ((sleep (E := E) 50).bind fun _ => .ret mem) := fun hnone => by
    refine Chip.Logs.bind (Chip.logs_timer 50) ?_
    rintro _ _ rfl
    exact .ret ⟨hmem, .idle poll, rfl, .idle hpoll hnone⟩
  rcases r with e | _ | client
  · exact hidle (Option.eq_none_iff_forall_ne_some.mpr fun c hc =>
      absurd ((hclient c).mpr hc) nofun)
  · exact hidle (Option.eq_none_iff_forall_ne_some.mpr fun c hc =>
      absurd ((hclient c).mpr hc) (by simp))
  · refine (logs_serve fuel client hmem poll).mono ?_
    rintro mem' _ ⟨hmem', v, hserves, rfl, rfl, rfl, hbefore, hafter⟩
    refine ⟨hmem', .visit v, rfl, ?_⟩
    rw [← hbefore, ← hafter]
    exact .visit hpoll ((hclient v.client).mp rfl) hserves

/-- **The exchanges of the loop**, whatever the chip replies and the clock reads. -/
theorem logs_turns (fuel n : ℕ) (listen : Socket) {mem : Memory} (hmem : mem.reqBuf.length = 256) :
    K.Logs (fun mem' log => ∃ ts : List (Turn C), ts.length = n ∧ log = ts.flatMap Turn.log ∧
        Session listen mem.state ts mem'.state)
      (turns (E := E) fuel listen n mem) := by
  induction n generalizing mem with
  | zero => exact .ret ⟨[], rfl, rfl, rfl⟩
  | succ n ih =>
    refine Chip.Logs.bind (logs_turn fuel listen hmem) ?_
    rintro mem₁ _ ⟨hmem₁, t, rfl, ht⟩
    refine (ih hmem₁).mono ?_
    rintro mem' _ ⟨ts, rfl, rfl, hts⟩
    exact ⟨t :: ts, rfl, List.flatMap_cons.symm, _, ht, hts⟩

/-! ## What is never asked -/

/-- The requests of a visit between its poll and its close. -/
inductive Serving (client : Socket) : List UInt8 → Prop
  | avail : Serving client (availFrame client)
  | recv (room : ℕ) : Serving client (recvFrame client room)
  | level (pin : UInt8) (high : Bool) : Serving client (levelFrame pin high)
  | send (chunk : List UInt8) : Serving client (sendFrame client chunk)
  | sent : Serving client (sentFrame client)

theorem Visit.Serves.requests {v : Visit C} (h : v.Serves) :
    ∀ ex ∈ v.reads ++ v.lights ++ v.sends, Serving v.client ex.request := by
  obtain ⟨all, hsends⟩ := h.sends
  refine List.forall_mem_append.mpr ⟨List.forall_mem_append.mpr
    ⟨fun ex hex => ?_, fun ex hex => ?_⟩, fun ex hex => ?_⟩
  · rcases h.reads.requests ex hex with h | ⟨room, h⟩
    · exact h ▸ .avail
    · exact h ▸ .recv room
  · have hmem := h.lights ▸ List.mem_map_of_mem (f := Exchange.request) hex
    split at hmem
    · simp only [lightFrames, List.mem_cons, List.not_mem_nil, or_false] at hmem
      rcases hmem with h | h | h <;> exact h ▸ .level _ _
    · exact absurd hmem List.not_mem_nil
  · rcases hsends.requests ex hex with ⟨slice, -, h⟩ | h
    · exact h ▸ .send slice
    · exact h ▸ .sent

/-- **A visit closes its client once**, with its last exchange. -/
theorem Visit.Serves.filter_stop {v : Visit C} (h : v.Serves) :
    v.rest.filter (fun ex => opcode ex.request = cmdStopClientTcp) = [v.close] := by
  have hother : ∀ {request : List UInt8}, Serving v.client request →
      opcode request ≠ cmdStopClientTcp := fun hrequest => by
    cases hrequest <;> exact opcode_frame_ne (by decide) _
  have hfront : (v.reads ++ v.lights ++ v.sends).filter
      (fun ex => opcode ex.request = cmdStopClientTcp) = [] :=
    List.filter_eq_nil_iff.mpr fun ex hex => by simpa using hother (h.requests ex hex)
  have hstop : opcode v.close.request = cmdStopClientTcp := by
    rw [h.close]
    rfl
  rw [Visit.rest, List.filter_append, hfront, List.nil_append,
    List.filter_cons_of_pos (by simpa using hstop), List.filter_nil]

theorem Visit.Serves.ne_stateFrame {v : Visit C} (h : v.Serves) (sock : Socket) :
    ∀ ex ∈ v.rest, ex.request ≠ stateFrame sock := by
  refine List.forall_mem_append.mpr ⟨fun ex hex => ?_, List.forall_mem_singleton.mpr ?_⟩
  · have hrequest := h.requests ex hex
    generalize ex.request = request at hrequest ⊢
    cases hrequest <;> exact frame_ne_stateFrame (by decide) _ _
  · exact h.close ▸ frame_ne_stateFrame (by decide) _ _

/-- **No turn of a session asks for the state of a socket.** -/
theorem Session.ne_stateFrame {listen : Socket} {s s' : LedState} {ts : List (Turn C)}
    (h : Session listen s ts s') (sock : Socket) :
    ∀ ex ∈ ts.flatMap Turn.log, ex.request ≠ stateFrame sock := by
  have haccept : acceptFrame listen ≠ stateFrame sock := frame_ne_stateFrame (by decide) _ _
  induction ts generalizing s with
  | nil => exact List.forall_mem_nil _
  | cons t ts ih =>
    obtain ⟨s₁, ht, hts⟩ := h
    rw [List.flatMap_cons]
    refine List.forall_mem_append.mpr ⟨?_, ih hts⟩
    cases ht with
    | idle hpoll _ => exact List.forall_mem_singleton.mpr (hpoll ▸ haccept)
    | visit hpoll _ hserves =>
      exact List.forall_mem_cons.mpr ⟨hpoll ▸ haccept, hserves.ne_stateFrame sock⟩

end Server

end EmbassyNina
