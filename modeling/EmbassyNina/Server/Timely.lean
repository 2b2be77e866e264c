import EmbassyNina.Exchange.Totality
import EmbassyNina.Link.Deadlines
import EmbassyNina.Server.Stream

/-!
# Server/Timely — every turn of the accept loop comes to an end

The drain of a request is bounded by the clock and by the buffer: a turn of it waits five
milliseconds or receives a byte at least, and there are 300 ms and 256 bytes.  So wherever time
passes the server never hangs in a turn, and no slice of its buffer is out of range, whatever pins,
bus and chip answer (`turns_timely`).
-/

namespace EmbassyNina

open Machinery Prog

variable {C E α : Type}

/-- The clock does not go back while a program runs. -/
theorem timely_of_does {P : Hal → Prop} {Q : α → Prop} {p : Prog (halSig E) α}
    (hp : p.Does (S := halSig E) P Q) (htotal : p.Total) (s : Elapsed) :
    (timepiece E).Returns (fun a s' => Q a ∧ s.time ≤ s'.time) p s := by
  induction p generalizing s with
  | ret a => exact ⟨hp, Nat.le_refl _⟩
  | halt w => exact htotal.elim
  | ask e k ih =>
    intro r s' hs'
    have hle : s.time ≤ s'.time := by
      cases e with
      | now =>
        obtain ⟨hle, rfl⟩ := of_now hs'
        exact hle
      | timer ms => exact Option.some.inj hs' ▸ Nat.le_add_right _ _
      | _ => exact Option.some.inj hs' ▸ Nat.le_refl _
    exact (ih r (hp.2 r) (htotal r) s').mono fun a s'' h => ⟨h.1, hle.trans h.2⟩

/-- An operation that returns, and what is known of its result. -/
theorem timely_of_total {p : Prog (halSig E) α} (htotal : p.Total) (s : Elapsed) :
    (timepiece E).Returns (fun _ s' => s.time ≤ s'.time) p s :=
  (timely_of_does htotal.does htotal s).mono fun _ _ h => h.2

namespace Server

theorem timely_sleep (ms : ℕ) (s : Elapsed) :
    (timepiece E).Returns (fun _ s' => s.time + ms ≤ s'.time) (sleep ms) s := fun _ _ hs' => by
  obtain rfl := Option.some.inj hs'
  exact Nat.le_refl _

theorem timely_now (s : Elapsed) :
    (timepiece E).Returns (fun (reading : ℕ) s' => s.time ≤ reading ∧ s' = ⟨reading, s.selects⟩)
      now s := fun _ _ hs' => of_now hs'

/-- A receive into the rest of the buffer gets no more than there is room for. -/
theorem timely_recv (client : Socket) {total : ℕ} {buf : Buf} (htotal : total ≤ buf.length)
    (s : Elapsed) :
    (timepiece E).Returns (fun r s' => s.time ≤ s'.time ∧ total + orZero r.1 ≤ buf.length ∧
        r.2.length = buf.length)
      (onTail total (Nina.tcpRecv client) buf) s := by
  have hroom : (buf.drop total).length = buf.length - total := List.length_drop
  have hrecv : ((Nina.tcpRecv (E := E) client).run (buf.drop total)).Total :=
    (Nina.exchanges_tcpRecv client _ _ hroom).total (Nina.fuelledB_tcpRecv client _)
  rw [onTail, if_pos htotal]
  refine (timely_of_does (doesB_tcpRecv client _ _ hroom) hrecv s).bind ?_
  rintro ⟨r, out⟩ s' ⟨⟨hlen, hr⟩, htime⟩
  refine ⟨htime, ?_, ?_⟩
  · cases r with
    | error e => exact htotal
    | ok n =>
      have hn : n ≤ buf.length - total := hr n rfl
      change total + n ≤ buf.length
      omega
  · rw [List.length_append, hlen, List.length_take_of_le htotal]
    omega

/-- **A drain** takes as many turns as there are bytes to get and waits of 5 ms to make. -/
theorem timely_drain (client : Socket) {deadline fuel total : ℕ} {buf : Buf}
    (htotal : total ≤ buf.length) {s : Elapsed}
    (hfuel : buf.length - total + (deadline - s.time + 4) / 5 < fuel) :
    (timepiece E).Returns (fun r _ => r.1 ≤ r.2.length ∧ r.2.length = buf.length)
      (drain client deadline fuel total buf) s := by
  induction fuel generalizing total buf s with
  | zero => exact absurd hfuel (Nat.not_lt_zero _)
  | succ fuel ih =>
    refine (timely_now s).bind ?_
    rintro reading _ ⟨hreading, rfl⟩
    by_cases hin : reading < deadline ∧ total < buf.length
    · rw [if_pos hin]
      have havail : (Nina.tcpAvail (E := E) client).run.Total :=
        (Exchanges.ofCountCommand _ _).total (Fuelled.ofCountCommand _ _)
      refine (timely_of_total havail _).bind fun avail s₁ hs₁ => ?_
      dsimp only at hs₁
      split
      · refine (timely_recv client htotal s₁).bind ?_
        rintro ⟨r, out⟩ s₂ ⟨hs₂, hle, hlen⟩
        dsimp only at hle hlen ⊢
        by_cases hzero : orZero r = 0
        · rw [if_pos hzero]
          exact ⟨hlen ▸ htotal, hlen⟩
        · rw [if_neg hzero, upTo, if_pos (hlen.symm ▸ hle)]
          change (timepiece E).Returns _ (if _ then _ else _) s₂
          split
          · exact ⟨hlen.symm ▸ hle, hlen⟩
          · rw [← hlen]
            exact ih (hlen.symm ▸ hle) (by omega)
      · refine (timely_sleep 5 s₁).bind fun _ s₂ hs₂ => ih htotal ?_
        omega
    · rw [if_neg hin]
      exact ⟨htotal, rfl⟩

theorem total_light (state : LedState) : (light (E := E) state).Total :=
  have hwrite : ∀ pin value, (Nina.digitalWrite (E := E) pin value).run.Total := fun _ _ =>
    (Exchanges.ofAckedCommand _ _).total (Fuelled.ofAckedCommand _ _)
  (hwrite _ _).bind fun _ => (hwrite _ _).bind fun _ => (hwrite _ _).bind fun _ => trivial

section Runs

variable [Heapless]

theorem timely_respond (client : Socket) (ok : Bool) (mem : Memory) (s : Elapsed) :
    (timepiece E).Returns (fun mem' _ => mem' = mem) (respond client ok mem) s := by
  have hsend := (Nina.exchanges_tcpSend (E := E) client (response ok mem.state).bytes).total
    (Nina.fuelled_tcpSend _ _)
  have hclose := (Nina.exchanges_tcpClose (E := E) client).total (Nina.fuelled_tcpClose _)
  exact (timely_of_total hsend s).bind fun _ s₁ _ => (timely_sleep 20 s₁).bind fun _ s₂ _ =>
    (timely_of_total hclose s₂).bind fun _ _ _ => rfl

/-- **A visit** comes to an end, its drain having as many turns as it can need. -/
theorem timely_serve {fuel : ℕ} (hfuel : 317 ≤ fuel) (client : Socket) {mem : Memory}
    (hmem : mem.reqBuf.length = 256) (s : Elapsed) :
    (timepiece E).Returns (fun mem' _ => mem'.reqBuf.length = 256) (serve fuel client mem) s := by
  refine (timely_sleep 80 s).bind fun _ s₁ _ => (timely_now s₁).bind ?_
  rintro start _ ⟨-, rfl⟩
  refine (timely_drain client (Nat.zero_le _) ?_).bind ?_
  · have hwait : start + 300 - start = 300 := Nat.add_sub_cancel_left _ _
    rw [hmem, hwait]
    omega
  rintro ⟨total, out⟩ s₂ ⟨hle, hlen⟩
  dsimp only at hle hlen ⊢
  have hrespond : ∀ ok state s, (timepiece E).Returns (fun mem' _ => mem'.reqBuf.length = 256)
      (respond client ok ⟨state, out⟩) s := fun ok state s =>
    (timely_respond client ok _ s).mono fun _ _ h => h ▸ hlen.trans hmem
  have hlit : ∀ state : LedState, ((light (E := E) state).bind fun _ => .ret state).Total :=
    fun state => (total_light state).bind fun _ => trivial
  rw [upTo, if_pos hle]
  change (timepiece E).Returns _ (if (handle _ _).1 = true then _ else _) s₂
  split
  · exact (timely_of_total (hlit _) s₂).bind fun _ s₃ _ => hrespond _ _ s₃
  · exact hrespond _ _ s₂

theorem timely_turn {fuel : ℕ} (hfuel : 317 ≤ fuel) (listen : Socket) {mem : Memory}
    (hmem : mem.reqBuf.length = 256) (s : Elapsed) :
    (timepiece E).Returns (fun mem' _ => mem'.reqBuf.length = 256) (turn fuel listen mem) s := by
  have haccept : (Nina.tcpAccept (E := E) listen).run.Total :=
    (Nina.exchanges_tcpAccept listen).total (Nina.fuelled_tcpAccept listen)
  have hidle : ∀ s, (timepiece E).Returns (fun mem' _ => mem'.reqBuf.length = 256)
      ((sleep (E := E) 50).bind fun _ => .ret mem) s := fun s =>
    (timely_sleep 50 s).bind fun _ _ _ => hmem
  refine (timely_of_total haccept s).bind fun r s₁ _ => ?_
  rcases r with e | _ | client
  · exact hidle s₁
  · exact hidle s₁
  · exact timely_serve hfuel client hmem s₁

theorem timely_turns {fuel : ℕ} (hfuel : 317 ≤ fuel) (listen : Socket) (n : ℕ) {mem : Memory}
    (hmem : mem.reqBuf.length = 256) (s : Elapsed) :
    (timepiece E).Returns (fun mem' _ => mem'.reqBuf.length = 256) (turns fuel listen n mem) s := by
  induction n generalizing mem s with
  | zero => exact hmem
  | succ n ih => exact (timely_turn hfuel listen hmem s).bind fun mem' s' hmem' => ih hmem' s'

/-- **No client keeps the server**, and no slice of its buffer is out of range.  Wherever time
passes, 317 turns are enough for the drain of any request, whatever pins, bus, chip and clients
answer: so many turns of the accept loop never panic and never hang.  (An ack that is not answered
at all is not a turn: the driver waits for it without a timeout.) -/
theorem turns_timely {fuel : ℕ} (hfuel : 317 ≤ fuel) (listen : Socket) (n : ℕ) (state : LedState)
    {tr : List (Event (halSig E))} {q : Prog (halSig E) Memory} {s s' : Elapsed}
    (h : Steps (turns fuel listen n { state }) tr q) (htime : (timepiece E).run s tr = some s') :
    (∀ w, q ≠ .halt w) ∧ ∀ mem, q = .ret mem → mem.reqBuf.length = 256 := by
  have hmem : ({ state } : Memory).reqBuf.length = 256 := List.length_replicate
  have hq := (timely_turns hfuel listen n hmem s).steps h htime
  refine ⟨hq.ne_halt, fun mem hmem => ?_⟩
  subst hmem
  exact hq

end Runs

/-- A chip beside a clock that timers alone move. -/
def ticking (E : Type) (K : Chip C) : Env (halSig E) (Link C × ℕ) where
  answer s
    | .now => (s.2, s)
    | .timer ms => ((), s.1, s.2 + ms)
    | e => (((K.bus E).answer s.1 e).1, ((K.bus E).answer s.1 e).2, s.2)

theorem timely_ticking (K : Chip C) (p : Prog (halSig E) α) (l : Link C) (s : Elapsed) :
    ∃ s', (timepiece E).run s ((ticking E K).trace p (l, s.time)) = some s' :=
  Watch.exists_run (R := fun t s => s.time = t.2) (fun t s h e => by
    obtain ⟨l, time⟩ := t
    obtain rfl : s.time = time := h
    cases e with
    | now => exact ⟨s, if_pos (Nat.le_refl _), rfl⟩
    | timer ms => exact ⟨⟨s.time + ms, s.selects⟩, rfl, rfl⟩
    | csSetLow => exact ⟨⟨s.time, s.selects + 1⟩, rfl, rfl⟩
    | _ => exact ⟨s, rfl, rfl⟩) p rfl

/-- The dripping chip, with a byte to be had at every other poll only. -/
def hesitantChip : Chip (Bool × List UInt8) where
  idle c := c
  serve c request :=
    if opcode request = cmdAvailDataTcp ∧ request.getD 2 0 = 1 then
      ((!c.1, c.2), oneParam len8 cmdAvailDataTcp [c.1.toUInt8])
    else
      let next := drippingChip.serve c.2 request
      ((c.1, next.1), next.2)

section Piecewise

attribute [local instance] HString.piecewise

/-- A client that keeps the server waiting for every byte, and to the deadline for the end of its
request, is served; and so is the next one, who has nothing to say. -/
theorem turns_timely_hesitantChip :
    ∃ mem : Memory, ((ticking Unit hesitantChip).exec (turns 317 ⟨0⟩ 2 {})
        (⟨(false, ascii "GET /b/1 HTTP/1.0\r\n"), [], [], silence⟩, 0)).1 = .done mem ∧
      mem.state = ⟨false, false, true⟩ ∧ mem.reqBuf.length = 256 := by
  have hstate : ((ticking Unit hesitantChip).exec (turns 317 ⟨0⟩ 2 {})
      (⟨(false, ascii "GET /b/1 HTTP/1.0\r\n"), [], [], silence⟩, 0)).1 = .done
        ⟨⟨false, false, true⟩, ascii "GET /b/1 HTTP/1.0\r\n" ++ List.replicate 237 0⟩ := by
    decide +kernel
  obtain ⟨s', hs'⟩ := timely_ticking hesitantChip (turns (E := Unit) 317 ⟨0⟩ 2 {})
    ⟨(false, ascii "GET /b/1 HTTP/1.0\r\n"), [], [], silence⟩ ⟨0, 0⟩
  have hsteps := (ticking Unit hesitantChip).steps_trace (turns (E := Unit) 317 ⟨0⟩ 2 {})
    (⟨(false, ascii "GET /b/1 HTTP/1.0\r\n"), [], [], silence⟩, 0)
  obtain ⟨-, hret⟩ := turns_timely (Nat.le_refl 317) ⟨0⟩ 2 {} hsteps hs'
  rw [hstate] at hret ⊢
  exact ⟨_, rfl, rfl, hret _ rfl⟩

end Piecewise

end Server

end EmbassyNina
