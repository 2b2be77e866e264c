import EmbassyNina.Exchange.Operations
import EmbassyNina.Exchange.Senders

/-!
# Exchange/Bracket — chip-select bracketing

The automaton `bracket` reads the CS and bus calls of a trace.  It accepts exactly the traces in
which every bus access is inside a window opened by a successful `set_low`, a window holds only
writes or only transfers of `0xFF`, nothing else happens in it, and it is left by one `set_high`
call.  All answers are possible: each write, transfer, wait and pin call may fail.

Every operation keeps it (`Op.bracketed`), because what its windows do is bus accesses of one kind
(`does_sendCmdBody`, `doesB_recvCmdOneParamInner`, …) and `selected` closes them all the same way.
-/

namespace EmbassyNina

open Machinery Prog

variable {E : Type} {α β : Type}

/-- What a window has been used for. -/
inductive WindowKind
  | request
  | reply
deriving DecidableEq, Repr

/-- Where CS stands: released, about to be raised by the reset sequence, or selecting the chip. -/
inductive CsPhase
  | high
  | booting
  | low (kind : Option WindowKind)
deriving DecidableEq, Repr

/-- No window is open. -/
def CsPhase.Released : CsPhase → Prop
  | .low _ => False
  | _ => True

/-- One event of the bracketing automaton.  A `set_high` call closes its window whether or not the
pin reports an error, as the driver takes it; outside a window only the reset sequence makes one. -/
def CsPhase.next : CsPhase → (e : Hal) → e.Ans E → Option CsPhase
  | .low kind, .ackWaitForHighOr _, _ => some (.low kind)
  | .low kind, .busWrite _, _ => if kind = some .reply then none else some (.low (some .request))
  | .low kind, .busTransfer bytes, _ =>
    if kind = some .request then none
    else if ∀ b ∈ bytes, b = dummy then some (.low (some .reply)) else none
  | .low _, .csSetHigh, _ => some .high
  | .low _, _, _ => none
  | _, .csSetLow, .ok _ => some (.low none)
  | s, .csSetLow, .error _ => some s
  | .booting, .csSetHigh, _ => some .high
  | .high, .csSetHigh, _ => none
  | _, .bootSetHigh, _ => some .booting
  | _, .busWrite _, _ | _, .busTransfer _, _ | _, .ackWaitForHighOr _, _ => none
  | s, _, _ => some s

/-- **The bracketing automaton**, against every answer. -/
def bracket (E : Type) : Monitor (halSig E) CsPhase where
  may _ _ := True
  next := CsPhase.next

/-! ## Windows -/

/-- A write keeps a window a request window… -/
theorem bracket_write (s : CsPhase) (e : Hal) (r : e.Ans E)
    (hs : ∃ kind, s = .low kind ∧ kind ≠ some .reply) (he : e.IsWrite) :
    ∃ s', s.next e r = some s' ∧ ∃ kind, s' = .low kind ∧ kind ≠ some .reply := by
  obtain ⟨kind, rfl, hkind⟩ := hs
  cases e with
  | busWrite bytes => exact ⟨_, if_neg hkind, _, rfl, by decide⟩
  | _ => exact he.elim

/-- …and a transfer a reply window. -/
theorem bracket_transfer (s : CsPhase) (e : Hal) (r : e.Ans E)
    (hs : ∃ kind, s = .low kind ∧ kind ≠ some .request) (he : e.IsDummyTransfer) :
    ∃ s', s.next e r = some s' ∧ ∃ kind, s' = .low kind ∧ kind ≠ some .request := by
  obtain ⟨kind, rfl, hkind⟩ := hs
  cases e with
  | busTransfer bytes => exact ⟨_, (if_neg hkind).trans (if_pos he), _, rfl, by decide⟩
  | _ => exact he.elim

/-- **A window is closed whatever its body came to**, and not opened when `set_low` fails. -/
theorem bracket_selected {Q : β → Prop} {fail : Error E → β} {body : Prog (halSig E) β}
    (hfail : ∀ e, Q (fail e))
    (hb : (bracket E).Safe (fun a s => Q a ∧ ∃ kind, s = .low kind) body (.low none))
    {s : CsPhase} (hs : s.Released) :
    (bracket E).Safe (fun a s => Q a ∧ s.Released) (selected fail body) s := by
  have hclose : (bracket E).Safe (fun a s => Q a ∧ s.Released)
      (body.bind fun res => (hal .csSetHigh).bind fun _ => .ret res) (.low none) := by
    refine Monitor.safe_bind.mpr (hb.mono ?_)
    rintro res _ ⟨hres, kind, rfl⟩ r _
    exact ⟨.high, rfl, hres, trivial⟩
  have hstay : ∀ r, s.next (E := E) .ackWaitForLow r = some s := fun r => by
    cases s <;> first | rfl | exact hs.elim
  have herr : ∀ u, s.next (E := E) .csSetLow (.error u) = some s := fun u => by
    cases s <;> first | rfl | exact hs.elim
  have hopen : ∀ u, s.next (E := E) .csSetLow (.ok u) = some (.low none) := fun u => by
    cases s <;> first | rfl | exact hs.elim
  intro r _
  refine ⟨s, hstay r, ?_⟩
  cases r with
  | error _ => exact ⟨hfail _, hs⟩
  | ok _ =>
    intro r _
    cases r with
    | error u => exact ⟨s, herr u, hfail _, hs⟩
    | ok u => exact ⟨.low none, hopen u, fun _ _ => ⟨_, rfl, hclose⟩⟩

theorem bracket_writes {Q : β → Prop} {p : Prog (halSig E) β}
    (hp : p.Does (S := halSig E) Hal.IsWrite Q) :
    (bracket E).Safe (fun a s => Q a ∧ ∃ kind, s = .low kind) p (.low none) :=
  (Monitor.safe_of_does (fun s e r hs he _ => bracket_write s e r hs he) hp
    ⟨none, rfl, by decide⟩).mono fun _ _ ⟨hQ, kind, hs, _⟩ => ⟨hQ, kind, hs⟩

theorem bracket_transfers {Q : β → Prop} {p : Prog (halSig E) β}
    (hp : p.Does (S := halSig E) Hal.IsDummyTransfer Q) :
    (bracket E).Safe (fun a s => Q a ∧ ∃ kind, s = .low kind) p (.low none) :=
  (Monitor.safe_of_does (fun s e r hs he _ => bracket_transfer s e r hs he) hp
    ⟨none, rfl, by decide⟩).mono fun _ _ ⟨hQ, kind, hs, _⟩ => ⟨hQ, kind, hs⟩

theorem bracket_sends {c : UInt8} {send : Prog (halSig E) (Except (Error E) Unit)}
    (hs : Sends c send) {s : CsPhase} (h : s.Released) :
    (bracket E).Safe (fun _ s => s.Released) send s := by
  have hwindow : ∀ {x : Nina E Unit}, DoesE (S := halSig E) Hal.IsWrite (fun _ => True) x →
      (bracket E).Safe (fun _ s => s.Released) (selected .error x.run) s := fun hx =>
    (bracket_selected (fun _ _ _ => trivial) (bracket_writes hx) h).mono fun _ _ hs => hs.2
  cases hs with
  | short params =>
    rw [sendCmd_run]
    exact hwindow (does_sendCmdBody c params)
  | mixed params =>
    rw [sendCmdMixed_run_eq]
    split
    · exact hwindow (does_write _)
    · exact h

/-- A receiver's window, whichever of the three it is. -/
theorem bracket_received {n : ℕ} {Q : α → Prop} {inner : BufM E α}
    (hi : DoesB Hal.IsDummyTransfer n Q inner) {out : Buf} (hout : out.length = n) {s : CsPhase}
    (h : s.Released) :
    (bracket E).Safe (fun r s => OnBuf n Q r ∧ s.Released) ((received inner).run out) s := by
  rw [received_run]
  exact bracket_selected (fun _ => onBuf_error hout) (bracket_transfers (hi out hout)) h

theorem bracket_receives {c : UInt8} {post : β → Prop} {recv : Prog (halSig E) β}
    (hr : Receives c post recv) {s : CsPhase} (h : s.Released) :
    (bracket E).Safe (fun b s => post b ∧ s.Released) recv s := by
  cases hr with
  | one out => exact bracket_received (doesB_recvCmdOneParamInner c) rfl h
  | one16 out => exact bracket_received (doesB_recvCmdOneParam16Inner c) rfl h
  | into out => exact bracket_received (doesB_recvCmdIntoInner c) rfl h

/-! ## Operations -/

/-- A call between exchanges leaves CS alone. -/
theorem CsPhase.next_between {s : CsPhase} (hs : s.Released) {e : Hal} (he : e.Between)
    (r : e.Ans E) : s.next e r = some s := by
  cases s with
  | low kind => exact hs.elim
  | _ => cases e <;> first | rfl | exact he.elim

/-- **A program made of exchanges keeps the bracketing.** -/
theorem bracket_exchanges {Q : α → Prop} {p : Prog (halSig E) α} (hp : ExchangesTo Q p)
    {s : CsPhase} (hs : s.Released) : (bracket E).Safe (fun _ s => s.Released) p s := by
  induction hp generalizing s with
  | ret _ => exact hs
  | fuel => exact rfl
  | between he _ ih => exact fun r _ => ⟨s, CsPhase.next_between hs he r, ih r hs⟩
  | reset hok _ _ iherr ihk =>
    intro r _
    refine ⟨.booting, by cases s <;> first | rfl | exact hs.elim, ?_⟩
    cases r with
    | error _ => exact iherr trivial
    | ok _ =>
      rw [hok]
      exact fun r _ => ⟨.high, rfl, ihk r trivial⟩
  | exchange hse hre hok _ _ iherr ihk =>
    refine Monitor.safe_bind.mpr ((bracket_sends hse hs).mono fun r s' hs' => ?_)
    cases r with
    | error e => exact iherr e hs'
    | ok _ =>
      rw [hok]
      exact Monitor.safe_bind.mpr ((bracket_receives hre hs').mono
        fun b s'' hs'' => ihk b hs''.1 hs''.2)

/-- …and never panics. -/
theorem ExchangesTo.ne_panic {Q : α → Prop} {p q : Prog (halSig E) α} (hp : ExchangesTo Q p)
    {tr : List (Event (halSig E))} (h : Steps p tr q) : q ≠ .halt .panic := by
  rintro rfl
  obtain ⟨s, -, hq⟩ := (bracket_exchanges hp (s := .high) trivial).steps h fun _ _ => trivial
  exact absurd (Monitor.safe_halt.mp hq) (by decide)

/-- **Chip-select bracketing survives every error.**  The trace of any run of operations, whatever
fails in it, is accepted by the automaton; no window is open when the operations are over; and none
of them panics. -/
theorem Op.bracketed (fuel : ℕ) (ops : List Op) {tr : List (Event (halSig E))}
    {q : Prog (halSig E) Unit} (h : Steps (Op.runAll fuel ops) tr q) :
    ∃ s, (bracket E).run .high tr = some s ∧ (∀ u, q = .ret u → s.Released) ∧
      q ≠ .halt .panic := by
  obtain ⟨s, hs, hq⟩ :=
    (bracket_exchanges (Op.exchanges_runAll fuel ops) (s := .high) trivial).steps h
      fun _ _ => trivial
  refine ⟨s, hs, ?_, (Op.exchanges_runAll fuel ops).ne_panic h⟩
  rintro u rfl
  exact hq

/-- A reset, a lookup and a read, by a chip that says nothing. -/
theorem Op.bracketed_quietChip :
    ∃ s, (bracket Unit).run .high ((quietChip Unit).trace
        (Op.runAll 3 [.init, .dnsLookup [0x61], .tcpSocketRead ⟨0⟩ [0, 0]]) ()) = some s := by
  obtain ⟨s, hs, -, -⟩ := Op.bracketed 3 [.init, .dnsLookup [0x61], .tcpSocketRead ⟨0⟩ [0, 0]]
    ((quietChip Unit).steps_trace _ ())
  exact ⟨s, hs⟩

end EmbassyNina
