import EmbassyNina.Machinery.Cost
import EmbassyNina.Stack.Progress
import Mathlib.Algebra.Order.Group.Nat
import Mathlib.Algebra.Order.Monoid.Prod

/-!
# Stack/Hold — how long a call keeps the chip to itself

While a call holds the chip mutex all others wait, so what it does in that time is what they wait
for: windows, and the timers in them and between them.  `Call.hold` bounds both, whatever the chip
answers: the lookup of a name and the polls of a connect go on for so long at most, a write is
bounded by its length, and a read gives the chip back after every turn.  So it does in every
interleaving of calls (`World.held_at_most`).
-/

namespace EmbassyNina

open Machinery Prog

variable {C E α β : Type}

/-- What a request takes: the number of windows that it opens, the wait for the chip included, and
the milliseconds on a timer.  The timer that ACK is raced against counts in full. -/
def Hal.toll : Hal → ℕ × ℕ
  | .ackWaitForLow => (1, 0)
  | .ackWaitForHighOr ms => (0, ms)
  | .timer ms => (0, ms)
  | _ => 0

/-- A driver function that takes so long at most. -/
abbrev TakesN (b : ℕ × ℕ) (x : Nina E α) : Prop := Costs (S := halSig E) Hal.toll b x.run

/-- A function on a buffer that does. -/
def TakesB (b : ℕ × ℕ) (x : BufM E α) : Prop := ∀ out, Costs (S := halSig E) Hal.toll b (x.run out)

/-! ## Windows -/

/-- A window in which no other is opened. -/
theorem costs_selected {fail : Error E → β} {body : Prog (halSig E) β} {Q : β → Prop}
    (hbody : body.Does (S := halSig E) (fun e => e.toll = 0) Q) :
    Costs (S := halSig E) Hal.toll (1, 5) (selected fail body) := by
  have hnone : (0 : ℕ × ℕ) ≤ (0, 5) := by decide
  refine Costs.ask (S := halSig E) (e := Hal.ackWaitForLow) (b := (0, 5)) fun r => ?_
  cases r with
  | error e => exact (Costs.ret _).mono hnone
  | ok u =>
    refine Costs.ask (S := halSig E) (e := Hal.csSetLow) (b := (0, 5)) fun r => ?_
    cases r with
    | error e => exact (Costs.ret _).mono hnone
    | ok u =>
      refine Costs.ask (S := halSig E) (e := Hal.ackWaitForHighOr 5) (b := 0) fun _ => ?_
      refine Costs.of_free (P := fun e => Hal.toll e = 0) (Q := fun _ => True) ?_ fun _ h => h
      exact hbody.bind fun _ _ => ⟨rfl, fun _ => trivial⟩

theorem Hal.toll_of_isWrite {e : Hal} (h : e.IsWrite) : e.toll = 0 := by
  cases e <;> first | rfl | exact h.elim

theorem Hal.toll_of_isDummyTransfer {e : Hal} (h : e.IsDummyTransfer) : e.toll = 0 := by
  cases e <;> first | rfl | exact h.elim

/-- A receiver opens one window. -/
theorem TakesB.received {x : BufM E α} {Q : Buf → Except (Error E) α × Buf → Prop}
    (hx : ∀ out, (x.run out).Does (S := halSig E) Hal.IsDummyTransfer (Q out)) :
    TakesB (1, 5) (received x) := by
  intro out
  rw [received_run]
  exact costs_selected ((hx out).weaken fun _ => Hal.toll_of_isDummyTransfer)

namespace TakesN

theorem mono {a b : ℕ × ℕ} {x : Nina E α} (hx : TakesN a x) (h : a ≤ b) : TakesN b x :=
  Costs.mono hx h

theorem bind {a b : ℕ × ℕ} {x : Nina E α} {f : α → Nina E β} (hx : TakesN a x)
    (hf : ∀ v, TakesN b (f v)) : TakesN (a + b) (x >>= f) := Costs.bindE hx hf

/-- What comes after is free. -/
theorem andThen {b : ℕ × ℕ} {x : Nina E α} {f : α → Nina E β} (hx : TakesN b x)
    (hf : ∀ v, TakesN 0 (f v)) : TakesN b (x >>= f) := by
  have hbind := bind hx hf
  rwa [add_zero] at hbind

/-- What comes before is free. -/
theorem freely {b : ℕ × ℕ} {x : Nina E α} {f : α → Nina E β} (hx : TakesN 0 x)
    (hf : ∀ v, TakesN b (f v)) : TakesN b (x >>= f) := by
  have hbind := bind hx hf
  rwa [zero_add] at hbind

theorem pure (v : α) : TakesN (E := E) 0 (Pure.pure v) := .ret _

theorem throw (e : Error E) : TakesN 0 (MonadExcept.throw e : Nina E α) := .ret _

theorem failIf (P : Prop) [Decidable P] (e : Error E) : TakesN 0 (Nina.failIf P e) := by
  unfold Nina.failIf
  split
  · exact throw e
  · exact pure ()

theorem timer (ms : ℕ) : TakesN (0, ms) (Nina.timer (E := E) ms) :=
  Costs.ask (S := halSig E) (e := Hal.timer ms) (b := 0) fun _ => .ret _

theorem sendCmd (cmd : UInt8) (params : List (List UInt8)) :
    TakesN (1, 5) (sendCmd (E := E) cmd params) :=
  costs_selected ((does_sendCmdBody cmd params).weaken fun _ => Hal.toll_of_isWrite)

theorem sendCmdMixed (cmd : UInt8) (params : List Param) :
    TakesN (1, 5) (sendCmdMixed (E := E) cmd params) := by
  rw [TakesN, sendCmdMixed_run_eq]
  split
  · exact costs_selected ((does_write _).weaken fun _ => Hal.toll_of_isWrite)
  · exact .ret _

theorem withBuf {b : ℕ × ℕ} {x : BufM E α} (hx : TakesB b x) (n : ℕ) :
    TakesN b (withBuf n x) :=
  Costs.bind_free (hx _) fun r => by rcases r with ⟨_ | _, _⟩ <;> exact .ret _

/-- What is handed over instead of failing. -/
theorem attempt {b : ℕ × ℕ} {x : Nina E α} (hx : TakesN b x) : TakesN b (attempt x) :=
  Costs.post hx Except.ok

theorem repeatFor {a b : ℕ × ℕ} {body : Nina E (Option α)} {after : Nina E α}
    (hbody : TakesN a body) (hafter : TakesN b after) (n : ℕ) :
    TakesN (n • a + b) (repeatFor n body after) := Costs.repeatFor hbody hafter n

theorem recvOne (cmd : UInt8) (n : ℕ) :
    TakesN (1, 5) (EmbassyNina.withBuf (E := E) n (recvCmdOneParam cmd)) :=
  withBuf (.received fun out => doesB_recvCmdOneParamInner cmd out rfl) n

theorem recvInto (cmd : UInt8) (n : ℕ) :
    TakesN (1, 5) (EmbassyNina.withBuf (E := E) n (recvCmdInto cmd)) :=
  withBuf (.received fun out => doesB_recvCmdIntoInner cmd out rfl) n

/-! ## Under the mutex -/

theorem byteCommand (cmd : UInt8) (params : List (List UInt8)) :
    TakesN (2, 10) (Nina.byteCommand (E := E) cmd params) :=
  ((sendCmd cmd params).bind fun _ => recvOne cmd 1).andThen fun _ => pure _

theorem tcpOpenSocket : TakesN (2, 10) (Nina.tcpOpenSocket (E := E)) :=
  (byteCommand _ _).andThen fun _ => (failIf _ _).andThen fun _ => pure _

/-- A start, whatever it carries. -/
theorem start (params : List (List UInt8)) :
    TakesN (2, 10) (do
      EmbassyNina.sendCmd (E := E) cmdStartClientTcp params
      let _ ← EmbassyNina.withBuf 4 (recvCmdInto cmdStartClientTcp)) :=
  (sendCmd _ _).bind fun _ => (recvInto _ 4).andThen fun _ => pure _

theorem tcpState (sock : Socket) : TakesN (2, 10) (Nina.tcpState (E := E) sock) :=
  (byteCommand _ _).andThen fun _ => pure _

theorem tcpClose (sock : Socket) : TakesN (2, 110) (Nina.tcpClose (E := E) sock) :=
  (byteCommand _ _).bind fun _ => timer 100

/-- The polls of a connect, and the close after the last. -/
theorem awaitEstablished (n : ℕ) (sock : Socket) :
    TakesN (n • (2, 260) + (2, 110)) (NinaStack.awaitEstablished (E := E) n sock) := by
  refine repeatFor ((tcpState sock).bind (b := (0, 250)) fun st => ?_) ?_ n
  · split
    · exact .ret _
    · exact (timer 250).andThen fun _ => pure _
  · exact (tcpClose sock).attempt.andThen fun _ => throw _

theorem connectLocked (mode : UInt8) (ip : Ipv4) (port : UInt16) :
    TakesN (86, 10530) (NinaStack.connectLocked (E := E) mode ip port) :=
  (tcpOpenSocket.bind fun sock => (start _).bind fun _ => awaitEstablished 40 sock).mono
    (by decide)

/-- A turn of a lookup. -/
theorem lookupTurn : TakesN (2, 110) (EmbassyNina.lookupTurn (E := E)) := by
  have hpoll := (sendCmd (E := E) cmdGetHostByName []).bind fun _ =>
    (recvOne cmdGetHostByName 4).attempt.andThen (f := onAnswer) fun r => by
      obtain ⟨o, ho, -⟩ := onAnswer_run r
      rw [TakesN, ho]
      exact .ret o
  exact ((timer 100).bind fun _ => hpoll).mono (by decide)

theorem dnsLookup (hostname : List UInt8) :
    TakesN (82, 4410) (Nina.dnsLookup (E := E) hostname) := by
  rw [dnsLookup_eq]
  refine ((byteCommand _ _).bind fun ack => (failIf _ _).bind fun _ =>
    repeatFor lookupTurn (throw .timeout) 40).mono (by decide)

theorem connectHostnameLocked (mode : UInt8) (hostname : List UInt8) (port : UInt16) :
    TakesN (248, 25340) (NinaStack.connectHostnameLocked (E := E) mode hostname port) :=
  ((dnsLookup hostname).bind fun _ => tcpOpenSocket.bind fun sock => (start _).bind fun _ =>
    awaitEstablished 80 sock).mono (by decide)

theorem count12 (n : ℕ) (buf : Buf) : TakesN 0 (Nina.count12 (E := E) n buf) := by
  unfold Nina.count12
  split <;> exact .ret _

theorem offerChunk (sock : Socket) (chunk : List UInt8) (n written : ℕ) :
    TakesN (n • (2, 10)) (Nina.offerChunk (E := E) sock chunk n written) := by
  induction n generalizing written with
  | zero => exact .ret _
  | succ n ih =>
    have hturn : TakesN ((1, 5) + ((1, 5) + n • (2, 10)))
        (Nina.offerChunk (E := E) sock chunk (n + 1) written) := by
      refine (sendCmdMixed _ _).bind fun _ => (recvOne _ 4).bind fun (m, buf) => ?_
      refine (count12 m buf).freely fun written => ?_
      split
      · exact .ret _
      · exact ih written
    have hsum : ((1, 5) + ((1, 5) + n • (2, 10)) : ℕ × ℕ) = (n + 1) • (2, 10) := by
      rw [← add_assoc, succ_nsmul']
      rfl
    rwa [hsum] at hturn

theorem checkDataSent (sock : Socket) :
    TakesN (40, 1200) (Nina.checkDataSent (E := E) sock) := by
  refine (repeatFor ((byteCommand _ _).bind (b := (0, 50)) fun b => ?_) (throw _) 20).mono
    (by decide)
  split
  · exact .ret _
  · exact (timer 50).andThen fun _ => pure _

/-- A slice is offered five times at most, and polled for twenty times. -/
theorem sendChunks (sock : Socket) (slices : List (List UInt8)) (total : ℕ) :
    TakesN (slices.length • (50, 1250)) (Nina.sendChunks (E := E) sock slices total) := by
  induction slices generalizing total with
  | nil => exact .ret _
  | cons slice slices ih =>
    have hslice : TakesN (5 • (2, 10) + ((40, 1200) + slices.length • (50, 1250)))
        (Nina.sendChunks (E := E) sock (slice :: slices) total) :=
      (offerChunk sock slice 5 0).bind fun _ => (failIf _ _).freely fun _ =>
        (checkDataSent sock).bind fun _ => ih _
    have hsum : (5 • (2, 10) + ((40, 1200) + slices.length • (50, 1250)) : ℕ × ℕ) =
        (slices.length + 1) • (50, 1250) := by
      have hone : (5 • (2, 10) + (40, 1200) : ℕ × ℕ) = (50, 1250) := by decide
      rw [← add_assoc, hone, ← succ_nsmul']
    rwa [hsum] at hslice

end TakesN

namespace TakesB

theorem bind {a b : ℕ × ℕ} {x : BufM E α} {f : α → BufM E β} (hx : TakesB a x)
    (hf : ∀ v, TakesB b (f v)) : TakesB (a + b) (x >>= f) := by
  intro out
  rw [BufM.run_bind]
  refine (hx out).bind fun r => ?_
  rcases r with ⟨e | v, out'⟩
  · exact .ret _
  · exact hf v out'

theorem lift {b : ℕ × ℕ} {x : Nina E α} (hx : TakesN b x) : TakesB b (BufM.lift x) :=
  fun out => Costs.post hx fun r => (r, out)

theorem tcpRecv (sock : Socket) : TakesB (2, 10) (Nina.tcpRecv (E := E) sock) := by
  have hlen : TakesB 0 (BufM.len (E := E)) := fun _ => .ret _
  have hrecv : TakesB (1, 5) (recvCmdOneParam16 (E := E) cmdGetDatabufTcp) :=
    .received fun out => doesB_recvCmdOneParam16Inner _ out rfl
  exact hlen.bind fun _ => (lift (.sendCmdMixed _ _)).bind fun _ => hrecv

/-- A turn of a read. -/
theorem readLocked (sock : Socket) : TakesB (4, 20) (NinaSocket.readLocked (E := E) sock) := by
  refine (tcpRecv sock).bind (b := (2, 10)) fun n => ?_
  split
  · exact fun _ => .ret _
  · refine (lift (.tcpState sock)).bind (b := 0) fun st => ?_
    split <;> exact fun _ => .ret _

end TakesB

/-! ## Calls -/

/-- **How long a call may hold the mutex**: the windows that it opens, and the milliseconds that it
waits on timers in them and between them. -/
def Call.hold : Call → ℕ × ℕ
  | .connect _ (.v4 ..) => (86, 10530)
  | .connect _ (.v6 _) => (0, 0)
  | .connectHostname .. => (248, 25340)
  | .getHostByName _ .ipv6 => (0, 0)
  | .getHostByName .. => (82, 4410)
  | .read .. => (4, 20)
  | .write _ _ buf => ((buf.length + 63) / 64) • (50, 1250)

/-- A call keeps its sections short. -/
abbrev Call.Keeps (b : ℕ × ℕ) (p : Prog (halSig E) β) : Prop :=
  Machinery.Keeps (S := halSig E) Hal.lock Hal.unlock Hal.toll b p

/-- A section, and what follows it. -/
theorem keeps_section {b : ℕ × ℕ} {q : Prog (halSig E) α} {g : α → Prog (halSig E) β}
    (hq : Wired q) (hcosts : Costs (S := halSig E) Hal.toll b q)
    (hg : ∀ v, Call.Keeps b (g v)) :
    Call.Keeps b
      (((hal .lock).bind fun _ => q.bind fun v => (hal .unlock).bind fun _ => .ret v).bind g) := by
  have hinside : q.Does (S := halSig E) (· ≠ Hal.unlock) fun _ => True := hq.weaken fun e he => by
    rintro rfl
    exact he
  have henter : Call.Keeps b (.ask (S := halSig E) Hal.lock fun _ =>
      q.bind fun v => .ask (S := halSig E) Hal.unlock fun _ => g v) :=
    Keeps.enter (S := halSig E) hcosts hinside hg
  have hbody : (q.bind fun v => (hal .unlock).bind fun _ => .ret v).bind g =
      q.bind fun v => .ask (S := halSig E) Hal.unlock fun _ => g v := Prog.bind_assoc _ _ _
  change Call.Keeps b (.ask (S := halSig E) Hal.lock fun _ =>
    (q.bind fun v => (hal .unlock).bind fun _ => .ret v).bind g)
  rwa [hbody]

theorem length_chunksUpTo {k : ℕ} {data : List UInt8} (h : data.length ≤ k) :
    (Nina.chunksUpTo 64 k data).length = (data.length + 63) / 64 := by
  induction k generalizing data with
  | zero =>
    obtain rfl := List.length_eq_zero_iff.mp (Nat.le_zero.mp h)
    rfl
  | succ k ih =>
    cases data with
    | nil => rfl
    | cons b data =>
      rw [List.length_cons] at h
      have hdrop : ((b :: data).drop 64).length = data.length - 63 := by
        rw [List.length_drop, List.length_cons]
        omega
      have hcons : Nina.chunksUpTo 64 (k + 1) (b :: data) =
          (b :: data).take 64 :: Nina.chunksUpTo 64 k ((b :: data).drop 64) := rfl
      rw [hcons, List.length_cons, ih (by omega), hdrop, List.length_cons]
      omega

/-- A write is cut into slices of 64 bytes. -/
theorem TakesN.tcpSend (sock : Socket) (data : List UInt8) :
    TakesN (((data.length + 63) / 64) • (50, 1250)) (Nina.tcpSend (E := E) sock data) := by
  rw [← length_chunksUpTo (Nat.le_refl data.length)]
  exact sendChunks sock _ 0

/-- A read takes turns, each of them a section. -/
theorem keeps_read (sock : Socket) (fuel : ℕ) (out : Buf) :
    Call.Keeps (4, 20) (((NinaSocket.read (E := E) fuel sock).run out).bind fun a =>
      .ret (Ret.ofRead a)) := by
  induction fuel generalizing out with
  | zero => exact .halt _
  | succ fuel ih =>
    rw [read_succ]
    refine keeps_section (Wired.readLocked sock out) (TakesB.readLocked sock out) fun a => ?_
    rcases a with ⟨e | _ | n, out'⟩
    · exact .ret _
    · have htimer : Hal.timer 50 ≠ Hal.lock := by simp
      exact .apart (S := halSig E) htimer fun _ => ih out'
    · exact .ret _

/-- **Every call keeps its sections as short as it says.** -/
theorem Call.keeps (call : Call) : Call.Keeps call.hold (call.prog (E := E)) := by
  cases call with
  | connect mode remote =>
    cases remote with
    | v4 ip port =>
      exact keeps_section (Wired.connectLocked mode ip port) (TakesN.connectLocked mode ip port)
        fun _ => .ret _
    | v6 port => exact .ret _
  | connectHostname mode hostname port =>
    exact keeps_section (Wired.connectHostnameLocked mode hostname port)
      (TakesN.connectHostnameLocked mode hostname port) fun _ => .ret _
  | getHostByName host addrType =>
    have hlookup : Call.Keeps (82, 4410)
        ((Nina.locked (Nina.dnsLookup (E := E) host)).run.bind fun r => .ret (Ret.address r)) :=
      keeps_section (Wired.dnsLookup host) (TakesN.dnsLookup host) fun _ => .ret _
    cases addrType with
    | ipv4 => exact hlookup
    | ipv6 => exact .ret _
    | either => exact hlookup
  | read conn sock fuel buf => exact keeps_read sock fuel buf
  | write conn sock buf =>
    exact keeps_section (Wired.tcpSend sock buf) (TakesN.tcpSend sock buf) fun _ => .ret _

/-! ## Interleavings -/

namespace World

variable {K : Chip C} {calls : ℕ → Call} {i : ℕ}

/-- What call `i` asks for in an action. -/
def asks (K : Chip C) (i : ℕ) (w : World E C) : Action → List (halSig E).Eff
  | .turn j => if j = i then w.pool.asks (chipMutex E K) i else []
  | _ => []

/-- What call `i` asks for from now on. -/
def requests (K : Chip C) (calls : ℕ → Call) (i : ℕ) :
    World E C → List Action → List (halSig E).Eff
  | _, [] => []
  | w, act :: acts => w.asks K i act ++ requests K calls i (w.next K calls act) acts

/-- What call `i` still has to do. -/
def rest (calls : ℕ → Call) (i : ℕ) (w : World E C) : Prog (halSig E) (Ret E) :=
  (w.pool.task i).getD (calls i).prog

/-- What an action asks for in the name of call `i`, a step of that call does. -/
theorem steps_next (w : World E C) (act : Action) :
    ∃ tr, Steps (w.rest calls i) tr ((w.next K calls act).rest calls i) ∧
      tr.map Event.eff = w.asks K i act := by
  have hsame : ∀ w' : World E C, w'.pool.task i = w.pool.task i →
      Steps (w.rest calls i) [] (w'.rest calls i) := fun w' h => by
    rw [rest, rest, h]
    exact .refl _
  cases act with
  | start j =>
    refine ⟨[], ?_, rfl⟩
    rw [next]
    split
    · rename_i hnew
      by_cases hj : i = j
      · subst hj
        rw [rest, rest, Pool.start_self, Option.isNone_iff_eq_none.mp hnew.1]
        exact .refl _
      · exact hsame _ (Pool.start_of_ne _ hj _)
    · exact .refl _
  | drop conn =>
    refine ⟨[], ?_, rfl⟩
    rw [next]
    split <;> exact hsame _ rfl
  | turn j =>
    have hpool : (w.next K calls (.turn j)).pool = w.pool.turn (chipMutex E K) j := pool_turn j
    by_cases hj : j = i
    · subst hj
      rw [asks, if_pos rfl]
      rcases htask : w.pool.task j with _ | p
      · have hstay : w.pool.turn (chipMutex E K) j = w.pool := by
          rw [Pool.turn, htask]
        refine ⟨[], hsame _ (by rw [hpool, hstay]), ?_⟩
        rw [Pool.asks, htask]
        rfl
      · obtain ⟨tr, q, hq, hsteps, htr⟩ := Pool.steps_turn (L := chipMutex E K) htask
        refine ⟨tr, ?_, htr⟩
        rw [rest, rest, hpool, hq, htask]
        exact hsteps
    · refine ⟨[], hsame _ ?_, by rw [asks, if_neg hj]; rfl⟩
      rw [hpool, Pool.turn_of_ne _ fun h => hj h.symm]

/-- **What a call asks for, a run of it alone may ask for.** -/
theorem steps_requests (w : World E C) (acts : List Action) :
    ∃ tr q, Steps (w.rest calls i) tr q ∧ tr.map Event.eff = requests K calls i w acts := by
  induction acts generalizing w with
  | nil => exact ⟨[], _, .refl _, rfl⟩
  | cons act acts ih =>
    obtain ⟨t₁, hstep, h₁⟩ : ∃ tr, Steps (w.rest calls i) tr ((w.next K calls act).rest calls i) ∧
        tr.map Event.eff = w.asks K i act := steps_next w act
    obtain ⟨t₂, q, hsteps, h₂⟩ := ih (w.next K calls act)
    refine ⟨t₁ ++ t₂, q, hstep.trans hsteps, ?_⟩
    rw [List.map_append, h₁, h₂]
    rfl

/-- **No call keeps the chip for long.**  In every interleaving, whatever the chip answers, a call
that holds the mutex opens so many windows at most, and waits for so long at most. -/
theorem held_at_most (K : Chip C) (calls : ℕ → Call) (c : C) (acts : List Action) (i : ℕ) :
    ∀ sec ∈ sections (S := halSig E) Hal.lock Hal.unlock (requests K calls i (init c) acts),
      spent (S := halSig E) Hal.toll sec ≤ (calls i).hold := by
  obtain ⟨tr, q, hsteps, htr⟩ : ∃ tr q, Steps (calls i).prog tr q ∧
      tr.map Event.eff = requests K calls i (init c : World E C) acts :=
    steps_requests (init c) acts
  rw [← htr]
  exact Call.keeps (calls i) tr q hsteps

/-- A connect by hostname opens ten windows under the mutex, and waits once between them, for its
lookup. -/
theorem held_at_most_lookupCalls :
    ∃ sec ∈ sections (S := halSig Unit) Hal.lock Hal.unlock
        (requests lookupChip lookupCalls 0 (init (Slots.fresh 9, none)) lookupActs),
      spent (S := halSig Unit) Hal.toll sec = (10, 150) ∧
        spent (S := halSig Unit) Hal.toll sec ≤ (248, 25340) := by
  obtain ⟨sec, hsec, hspent⟩ : ∃ sec ∈ sections (S := halSig Unit) Hal.lock Hal.unlock
        (requests lookupChip lookupCalls 0 (init (Slots.fresh 9, none)) lookupActs),
      spent (S := halSig Unit) Hal.toll sec = (10, 150) := by decide +kernel
  exact ⟨sec, hsec, hspent, held_at_most _ lookupCalls _ lookupActs 0 sec hsec⟩

end World

end EmbassyNina
