import EmbassyNina.Link.Connect
import EmbassyNina.Link.Datagram
import EmbassyNina.Link.Integers
import EmbassyNina.Link.Logs
import EmbassyNina.Link.Lookup
import EmbassyNina.Link.Scanning
import EmbassyNina.Remote.Client

/-!
# Remote/Calls — an exchange on the line is a call of the firmware

`K.Does … V x y`: on a chip that implements a firmware, `x` does what the client `y` does, and `V`
relates their results.  `K.DoesAt … out V x y` is the same for a function that is handed the
caller's buffer `out`.

Timers, checks and the mutex are the same on both sides; an exchange is one call
(`Implements.command` and its kin), whatever the reply makes of it.
-/

namespace EmbassyNina

open Machinery Prog

variable {C E F α β γ δ : Type}

/-- `c` is sent with short parameters, and answered with short ones. -/
structure Command.Plain (c : Command) (params : List (List UInt8)) : Prop where
  params_eq : c.params = params.map .short
  fits : c.Fits
  code : c.replyCode = len8

theorem BufM.lift_bind (x : Nina E α) (f : α → Nina E β) :
    BufM.lift (x >>= f) = BufM.lift x >>= fun a => BufM.lift (f a) := by
  refine funext fun out => ?_
  change (BufM.lift (x >>= f)).run out = (BufM.lift x >>= fun a => BufM.lift (f a)).run out
  rw [BufM.run_bind, BufM.run_lift, BufM.run_lift, run_bind_eq, bind_assoc, bind_assoc]
  congr 1
  funext r
  cases r <;> rfl

namespace Chip

section

variable (K : Chip C) (fw : Firmware F) (view : C → F) (log₀ : List (Exchange C))

/-- `x` on the line does what `y` has the firmware do. -/
abbrev Does (V : α → β → Prop) (x : Nina E α) (y : Client E β) : Prop :=
  (K.remote E fw view log₀).RefinesE V x y

/-- The results of a function on a buffer and of a client: the buffer has kept its length. -/
def AlikeAt (out : Buf) (V : α → Buf → β → Prop) (r : Except (Error E) α × Buf)
    (r' : Except (Error E) β) : Prop :=
  r.2.length = out.length ∧ ExceptAlike (fun a b => V a r.2 b) r.1 r'

/-- The same on the caller's buffer `out`. -/
abbrev DoesAt (out : Buf) (V : α → Buf → β → Prop) (x : BufM E α) (y : Client E β) : Prop :=
  (K.remote E fw view log₀).Refines (AlikeAt out V) (x.run out) y.run

end

/-! ## Exchanges on the line -/

variable {K : Chip C} {s s' s'' : Link C × Stream' ℕ} {l : Link C} {clock : Stream' ℕ} {a : Answer}
  {c : Command} {params : List (List UInt8)}

namespace Ends

theorem withBuf {x : BufM E α} {n : ℕ} {r : Except (Error E) α} {buf : Buf}
    (hx : K.Ends (x.run (List.replicate n 0)) s (.done (r, buf)) s') :
    K.Ends (withBuf n x).run s (.done (r.map fun a => (a, buf))) s' :=
  hx.bind (by cases r <;> exact .ret _)

theorem okB {x : BufM E α} {f : α → BufM E β} {a : α} {out out' : Buf}
    {o : Outcome (Except (Error E) β × Buf)} (hx : K.Ends (x.run out) s (.done (.ok a, out')) s')
    (hf : K.Ends ((f a).run out') s' o s'') : K.Ends ((x >>= f).run out) s o s'' := by
  rw [BufM.run_bind]
  exact hx.bind hf

theorem errorB {x : BufM E α} {f : α → BufM E β} {e : Error E} {out out' : Buf}
    (hx : K.Ends (x.run out) s (.done (.error e, out')) s') :
    K.Ends ((x >>= f).run out) s (.done (.error e, out')) s' := by
  rw [BufM.run_bind]
  exact hx.bind (.ret _)

theorem lift {x : Nina E α} {r : Except (Error E) α} (hx : K.Ends x.run s (.done r) s')
    (out : Buf) : K.Ends ((BufM.lift x).run out) s (.done (r, out)) s' := hx.bind (.ret _)

end Ends

/-- `send` puts the frame of `c` on the line. -/
def Sends (E : Type) (K : Chip C) (c : Command) (send : Nina E Unit) : Prop :=
  ∀ l clock, K.Ends send.run (l, clock) (.done (.ok ())) (l.served K c.request, clock)

theorem sends_sendCmd (hc : c.Plain params) : K.Sends E c (sendCmd c.opcode params) := by
  intro l clock
  rw [Command.request, hc.params_eq]
  exact (runs_sendCmd c.opcode params l).ends (.sendCmd _ _) clock

theorem sends_sendCmdMixed (hlen : frameLength c.params ≤ 256) :
    K.Sends E c (sendCmdMixed c.opcode c.params) := fun l clock =>
  (runs_sendCmdMixed c.opcode hlen l).ends (.sendCmdMixed _ _) clock

/-- A receiver leaves the buffer as long as it was. -/
theorem length_of_reads {P : Hal → Prop} {Q : α → Prop} {inner : BufM E α} {out out' : Buf}
    {r : Except (Error E) α} {st st' : Bytes} (hinner : EmbassyNina.DoesB P out.length Q inner)
    (h : reads inner out st = (.done (r, out'), st')) : out'.length = out.length := by
  have hsteps := (reader E).steps_trace (inner.run out) st
  rw [show ((reader E).exec (inner.run out) st).1 = .done (r, out') from congrArg Prod.fst h]
    at hsteps
  exact (hsteps.does (hinner out rfl)).1

/-- A receiver of one parameter reads the answer into the caller's buffer… -/
theorem ends_one (R : OneReceiver) (hcode : c.replyCode = R.code)
    (ha : a.Carried c (l.answered K c.request)) (clock : Stream' ℕ) (out : Buf) :
    ∃ out', K.Ends ((R.prog (E := E) c.opcode).run out) (l.served K c.request, clock)
        (.done ((a.one out.length).map List.length, out')) (l.exchanged K c.request, clock) ∧
      out'.length = out.length ∧
      ∀ p, a.one (E := E) out.length = .ok p → out' = p ++ out.drop p.length := by
  have hsays := ha.says (E := E) out.length
  rw [hcode] at hsays
  obtain ⟨out', st', hread, hout⟩ := Says.reads (R := R) hsays rfl
  cases R with
  | recvCmdOneParam =>
    have hinner := doesB_recvCmdOneParamInner (E := E) c.opcode (n := out.length)
    rw [OneReceiver.prog, recvCmdOneParam, reads_received] at hread
    exact ⟨out', (runs_received (K := K) (s := l.served K c.request) hinner rfl hread).ends
      (.recvCmdOneParam _ _) clock, length_of_reads hinner hread, hout⟩
  | recvCmdOneParam16 =>
    have hinner := doesB_recvCmdOneParam16Inner (E := E) c.opcode (n := out.length)
    rw [OneReceiver.prog, recvCmdOneParam16, reads_received] at hread
    exact ⟨out', (runs_received (K := K) (s := l.served K c.request) hinner rfl hread).ends
      (.recvCmdOneParam16 _ _) clock, length_of_reads hinner hread, hout⟩

/-- …or into a local one. -/
theorem ends_withBuf_one (hcode : c.replyCode = len8)
    (ha : a.Carried c (l.answered K c.request)) (clock : Stream' ℕ) (n : ℕ) :
    K.Ends (withBuf n (recvCmdOneParam (E := E) c.opcode)).run (l.served K c.request, clock)
      (.done ((a.one n).map (filled n))) (l.exchanged K c.request, clock) := by
  obtain ⟨out', hrecv, -, hout⟩ := ends_one (E := E) .recvCmdOneParam hcode ha clock
    (List.replicate n 0)
  rw [List.length_replicate] at hrecv hout
  have hbuf := hrecv.withBuf
  cases hone : a.one (E := E) n with
  | error e =>
    rw [hone] at hbuf
    exact hbuf
  | ok p =>
    rw [hone, hout p hone, List.drop_replicate] at hbuf
    exact hbuf

/-- **The packing receiver** reads an answer of short parameters. -/
theorem ends_many (hcode : c.replyCode = len8) (ha : a.Carried c (l.answered K c.request))
    (clock : Stream' ℕ) (out : Buf) :
    ∃ out', K.Ends ((recvCmdInto (E := E) c.opcode).run out) (l.served K c.request, clock)
        (.done ((a.many out.length).map fun ps =>
          (UInt8.ofNat ps.length, (encodeAll (ps.map .short)).length), out'))
        (l.exchanged K c.request, clock) ∧
      out'.length = out.length ∧
      ∀ ps, a.many (E := E) out.length = .ok ps → ps.length < 256 ∧ (∀ p ∈ ps, p.length < 256) ∧
        ∃ unfilled, out' = encodeAll (ps.map .short) ++ unfilled := by
  obtain ⟨out', st', hread, hout⟩ := ha.reads (E := E) hcode out
  rw [recvCmdInto, reads_received] at hread
  have hinner := doesB_recvCmdIntoInner (E := E) c.opcode (n := out.length)
  refine ⟨out', (runs_received (K := K) (s := l.served K c.request) hinner rfl hread).ends
    (.recvCmdInto _ _) clock, length_of_reads hinner hread, fun ps hps => ?_⟩
  obtain ⟨rfl, -⟩ := Answer.many_eq_ok hps
  obtain ⟨hcount, hlen, -⟩ := ha
  rw [hcode] at hlen
  exact ⟨hcount, hlen, _, hout ps hps⟩

end Chip

namespace Chip.Implements

open Simulation

variable {K : Chip C} {fw : Firmware F} {view : C → F} {log₀ : List (Exchange C)}

/-! ## What is no exchange -/

section

variable {V : α → β → Prop} {x : Nina E α} {y : Client E β}

theorem timer (ms : ℕ) :
    K.Does (E := E) fw view log₀ Eq (Nina.timer ms) (Client.timer ms) := by
  refine Refines.ask (fun _ _ => True) (fun s t h => ⟨trivial, h⟩) fun _ _ _ => ?_
  exact Refines.ret rfl

theorem now : K.Does (E := E) fw view log₀ Eq Nina.now Client.now := by
  refine Refines.ask Eq (fun s t h => ?_) fun r r' hr => ?_
  · obtain ⟨hwindow, hchip, hclock, hlog⟩ := h
    exact ⟨congrArg Stream'.head hclock, hwindow, hchip, congrArg Stream'.tail hclock, hlog⟩
  · subst hr
    exact Refines.ret rfl

/-- A check that both make. -/
theorem failIf {c : Prop} [Decidable c] {e : Error E} (h : ¬ c → K.Does fw view log₀ V x y) :
    K.Does fw view log₀ V (Nina.failIf c e >>= fun _ => x) (Client.failIf c e >>= fun _ => y) := by
  rw [Nina.failIf, Client.failIf]
  split
  · exact .throw e
  · exact h ‹_›

/-- A pause at the end of a turn that goes round again. -/
theorem pause (ms : ℕ) : K.Does (E := E) fw view log₀ (Option.Rel V)
    (Nina.timer ms >>= fun _ => pure none) (Client.timer ms >>= fun _ => pure none) :=
  (timer ms).bind fun _ _ _ => .pure .none

theorem map {W : γ → δ → Prop} {f : α → γ} {g : β → δ} (hx : K.Does fw view log₀ V x y)
    (h : ∀ a b, V a b → W (f a) (g b)) :
    K.Does fw view log₀ W (x >>= fun a => pure (f a)) (y >>= fun b => pure (g b)) :=
  hx.bind fun a b hab => .pure (h a b hab)

/-- What the driver alone makes of a result. -/
theorem post {W : γ → β → Prop} {f : α → γ} (hx : K.Does fw view log₀ V x y)
    (h : ∀ a b, V a b → W (f a) b) : K.Does fw view log₀ W (x >>= fun a => pure (f a)) y := by
  rw [← bind_pure y]
  exact hx.bind fun a b hab => .pure (h a b hab)

/-- What the client alone makes of a result. -/
theorem pre {W : α → δ → Prop} {g : β → δ} (hx : K.Does fw view log₀ V x y)
    (h : ∀ a b, V a b → W a (g b)) : K.Does fw view log₀ W x (y >>= fun b => pure (g b)) := by
  rw [← bind_pure x]
  exact hx.bind fun a b hab => .pure (h a b hab)

theorem locked (hx : K.Does fw view log₀ V x y) :
    K.Does fw view log₀ V (Nina.locked x) (Client.locked y) := by
  refine Refines.ask (fun _ _ => True) (fun s t h => ⟨trivial, h⟩) fun _ _ _ => ?_
  refine Refines.bind (p := x.run) (f := fun r => (hal .unlock).bind fun _ => .ret r) hx
    fun r r' hr => ?_
  refine Refines.ask (fun _ _ => True) (fun s t h => ⟨trivial, h⟩) fun _ _ _ => ?_
  exact Refines.ret hr

/-- What comes after the last turn of a loop that gives up. -/
theorem timeout : K.Does (E := E) fw view log₀ V (throw .timeout) (throw .timeout) :=
  .throw Error.timeout

theorem outOfFuel : K.Does (E := E) fw view log₀ V Nina.outOfFuel Client.outOfFuel :=
  Refines.halt .fuel

theorem acked (b : UInt8) : K.Does (E := E) fw view log₀ Eq (Nina.failIf (b ≠ 1) .nina)
    (Client.failIf (b ≠ 1) .nina) := by
  rw [Nina.failIf, Client.failIf]
  split
  · exact .throw Error.nina
  · exact .pure rfl

theorem number12 (p : List UInt8) :
    K.Does (E := E) fw view log₀ Eq (Nina.count12 (filled 4 p).1 (filled 4 p).2)
      (Client.number12 p) := by
  obtain _ | ⟨a, _ | ⟨b, _ | ⟨d, p⟩⟩⟩ := p
  · exact .throw Error.framing
  · exact .pure rfl
  · exact .pure rfl
  · exact .throw Error.framing

/-- A pin call, which the firmware does not see. -/
theorem pin {p : Prog (halSig E) (Except Unit Unit)}
    (hp : ∀ l : Link C, l.window = [] → ∀ clock, ∃ l', K.Ends p (l, clock) (.done (.ok ()))
      (l', clock) ∧ l'.window = [] ∧ l'.chip = l.chip ∧ l'.log = l.log)
    (hx : K.Does fw view log₀ V x y) :
    K.Does fw view log₀ V (Nina.ofPin p >>= fun _ => x) y := by
  rintro ⟨l, clock⟩ d ⟨hwindow, hchip, hclock, hlog⟩
  obtain ⟨l', hrun, hwindow', hchip', hlog'⟩ := hp l hwindow clock
  have hpin : K.Ends (E := E) (Nina.ofPin p).run (l, clock) (.done (.ok ())) (l', clock) :=
    hrun.bind (.ret _)
  have hnext : Rendered view log₀ (l', clock) d :=
    ⟨hwindow', (congrArg view hchip').trans hchip, hclock, by rw [hlog']; exact hlog⟩
  obtain ⟨hout, halike⟩ := hx (l', clock) d hnext
  have hall : (K.clocked E).exec (Nina.ofPin p >>= fun _ => x).run (l, clock) =
      (K.clocked E).exec x.run (l', clock) := hpin.ok (o := _) rfl
  exact ⟨by rw [show (K.remote E fw view log₀).below = K.clocked E from rfl, hall]; exact hout,
    by rw [show (K.remote E fw view log₀).below = K.clocked E from rfl, hall]; exact halike⟩

end

/-! ## On the caller's buffer -/

section

variable {V : α → Buf → β → Prop} {W : γ → Buf → δ → Prop} {out : Buf}

theorem retAt {a : α} {b : β} (h : V a out b) :
    K.DoesAt (E := E) fw view log₀ out V (pure a) (pure b) := Refines.ret ⟨rfl, h⟩

/-- One after another, the second on the buffer as the first has left it. -/
theorem bindAt {x : BufM E α} {y : Client E β} {f : α → BufM E γ} {g : β → Client E δ}
    (hx : K.DoesAt fw view log₀ out V x y)
    (hf : ∀ a out' b, V a out' b → out'.length = out.length →
      K.DoesAt fw view log₀ out' W (f a) (g b)) :
    K.DoesAt fw view log₀ out W (x >>= f) (y >>= g) := by
  rw [Chip.DoesAt, BufM.run_bind, run_bind_eq]
  refine Refines.bind hx ?_
  rintro ⟨r, out'⟩ r' ⟨hlen, hr⟩
  cases r with
  | ok a =>
    cases r' with
    | ok b =>
      refine (hf a out' b hr hlen).mono fun r r' h => ⟨h.1.trans hlen, h.2⟩
    | error e => exact hr.elim
  | error e =>
    cases r' with
    | ok b => exact hr.elim
    | error e' => exact Refines.ret ⟨hlen, hr⟩

/-- What leaves the buffer alone. -/
theorem liftAt {V : α → β → Prop} {x : Nina E α} {y : Client E β} (hx : K.Does fw view log₀ V x y)
    (out : Buf) :
    K.DoesAt fw view log₀ out (fun a out' b => out' = out ∧ V a b) (BufM.lift x) y := by
  rw [Chip.DoesAt, BufM.run_lift, ← bind_ret y.run]
  refine Refines.bind hx fun r r' h => Refines.ret ⟨rfl, ?_⟩
  cases r <;> cases r' <;> first | exact h.elim | exact h | exact ⟨rfl, h⟩

/-- The mutex, held by a function that has the caller's buffer. -/
theorem lockedAt {x : BufM E α} {y : Client E β} (hx : K.DoesAt fw view log₀ out V x y) :
    K.DoesAt fw view log₀ out V (BufM.locked x) (Client.locked y) := by
  refine Refines.ask (fun _ _ => True) (fun s t h => ⟨trivial, h⟩) fun _ _ _ => ?_
  refine Refines.bind (p := x.run out) (f := fun r => (hal .unlock).bind fun _ => .ret r) hx
    fun r r' hr => ?_
  refine Refines.ask (fun _ _ => True) (fun s t h => ⟨trivial, h⟩) fun _ _ _ => ?_
  exact Refines.ret hr

theorem outOfFuelAt : K.DoesAt (E := E) fw view log₀ out V BufM.outOfFuel Client.outOfFuel :=
  Refines.halt .fuel

/-- Loops on a buffer, turn by turn. -/
theorem repeatAt {body : BufM E (Option α)} {body' : Client E (Option β)}
    (hbody : ∀ out' : Buf, out'.length = out.length → K.DoesAt fw view log₀ out'
      (fun o out'' o' => Option.Rel (fun a b => V a out'' b) o o') body body') (n : ℕ) :
    K.DoesAt fw view log₀ out V (repeatFor n body BufM.outOfFuel)
      (repeatFor n body' Client.outOfFuel) := by
  induction n generalizing out with
  | zero => exact outOfFuelAt
  | succ n ih =>
    refine bindAt (hbody out rfl) fun o out' o' h hlen => ?_
    cases h with
    | some hab => exact retAt hab
    | none => exact ih fun out'' h => hbody out'' (h.trans hlen)

end

/-! ## Exchanges -/

variable (hK : K.Implements fw view) {c : Command} {params : List (List UInt8)}
include hK

/-- **A request and its one-parameter reply** are a call. -/
theorem exchange {send : Nina E Unit} (hfits : c.Fits) (hcode : c.replyCode = len8)
    (hsend : K.Sends E c send) (n : ℕ) :
    K.Does fw view log₀ (fun r p => r = filled n p)
      (send >>= fun _ => withBuf n (recvCmdOneParam c.opcode)) (Client.one c n) := by
  refine hK.refines_call hfits fun l clock a ha => ?_
  refine ⟨_, (hsend l clock).ok (ends_withBuf_one hcode ha clock n), ?_⟩
  cases a.one (E := E) n with
  | ok p => exact rfl
  | error e => exact rfl

/-- The same with the reply's errors handed over. -/
theorem attemptExchange {send : Nina E Unit} (hfits : c.Fits) (hcode : c.replyCode = len8)
    (hsend : K.Sends E c send) (n : ℕ) :
    K.Does fw view log₀ (ExceptAlike fun r p => r = filled n p)
      (send >>= fun _ => attempt (withBuf n (recvCmdOneParam c.opcode)))
      (attempt (Client.one c n)) := by
  refine hK.refines_call (f := fun a => Except.ok (a.one n)) hfits fun l clock a ha => ?_
  refine ⟨_, (hsend l clock).ok (ends_withBuf_one hcode ha clock n).attempt, ?_⟩
  cases a.one (E := E) n with
  | ok p => exact rfl
  | error e => exact rfl

theorem command (hc : c.Plain params) (n : ℕ) :
    K.Does (E := E) fw view log₀ (fun r p => r = filled n p) (Nina.command c.opcode params n)
      (Client.one c n) := hK.exchange hc.fits hc.code (sends_sendCmd hc) n

theorem byteCommand (hc : c.Plain params) :
    K.Does (E := E) fw view log₀ Eq (Nina.byteCommand c.opcode params) (Client.byte c) :=
  map (hK.command hc 1) fun r p hr => by rw [hr, getD_filled]

theorem ackedCommand (hc : c.Plain params) :
    K.Does (E := E) fw view log₀ Eq (Nina.ackedCommand c.opcode params) (Client.acked c) := by
  refine (hK.byteCommand hc).bind fun b b' hb => ?_
  subst hb
  exact acked b

theorem macCommand (hc : c.Plain params) :
    K.Does (E := E) fw view log₀ Eq (Nina.macCommand c.opcode params) (Client.mac c) := by
  refine (hK.command hc 8).bind fun r p hr => ?_
  subst hr
  refine failIf fun hlen => ?_
  obtain _ | ⟨a₀, _ | ⟨a₁, _ | ⟨a₂, _ | ⟨a₃, _ | ⟨a₄, _ | ⟨a₅, _ | ⟨a₆, p⟩⟩⟩⟩⟩⟩⟩ := p
  all_goals first
    | exact .pure rfl
    | exact absurd (not_not.mp hlen) (by simp)

theorem countCommand (hc : c.Plain params) :
    K.Does (E := E) fw view log₀ Eq (Nina.countCommand c.opcode params) (Client.count c) := by
  refine (hK.command hc 4).bind fun r p hr => ?_
  subst hr
  exact number12 p

/-- A value of four bytes. -/
theorem four (hc : c.Plain params) (f : Buf → α) :
    K.Does (E := E) fw view log₀ Eq (do
      let (n, buf) ← Nina.command c.opcode params 4
      Nina.failIf (n ≠ 4) .framing
      return f buf) (Client.four c f) := by
  refine (hK.command hc 4).bind fun r p hr => ?_
  subst hr
  refine failIf fun hlen => ?_
  have hbuf : (filled 4 p).2 = p := by
    change p ++ List.replicate (4 - p.length) 0 = p
    rw [show p.length = 4 from not_not.mp hlen, Nat.sub_self, List.replicate_zero, List.append_nil]
  change K.Does fw view log₀ Eq (pure (f (filled 4 p).2)) _
  rw [hbuf]
  exact .pure rfl

/-- A start, whatever it is answered with that is short. -/
theorem start (hc : c.Plain params) :
    K.Does (E := E) fw view log₀ Eq (do
      sendCmd c.opcode params
      let _ ← withBuf 4 (recvCmdInto c.opcode)) (Client.start c) := by
  refine hK.refines_call hc.fits fun l clock a ha => ?_
  obtain ⟨out', hrecv, -, -⟩ := ends_many (E := E) hc.code ha clock (List.replicate 4 0)
  refine ⟨(a.many 4).map fun _ => (), (sends_sendCmd hc l clock).ok ?_, exceptAlike_eq.mpr rfl⟩
  rw [List.length_replicate] at hrecv
  cases hmany : a.many (E := E) 4 with
  | error e =>
    rw [hmany] at hrecv
    have hbuf := hrecv.withBuf
    exact hbuf.error
  | ok ps =>
    rw [hmany] at hrecv
    have hbuf := hrecv.withBuf
    exact hbuf.ok (.ret _)

/-- **A request whose packed answer is decoded.** -/
theorem decoded (hc : c.Plain params) {n : ℕ} (decode : UInt8 → ℕ → BufM E α)
    {of : List (List UInt8) → Except (Error E) α}
    (hdecode : ∀ ps : List (List UInt8), ps.length < 256 → (∀ p ∈ ps, p.length < 256) →
      ∀ unfilled, (decode (UInt8.ofNat ps.length) (encodeAll (ps.map .short)).length).run
        (encodeAll (ps.map .short) ++ unfilled) =
          .ret (of ps, encodeAll (ps.map .short) ++ unfilled)) :
    K.Does (E := E) fw view log₀ Eq (do
      sendCmd c.opcode params
      let (a, _) ← withBuf n (do
        let (nParams, written) ← recvCmdInto c.opcode
        decode nParams written)
      return a) (Client.call c fun a => a.many n >>= of) := by
  refine hK.refines_call hc.fits fun l clock a ha => ?_
  obtain ⟨out', hrecv, -, hout⟩ := ends_many (E := E) hc.code ha clock (List.replicate n 0)
  refine ⟨a.many n >>= of, (sends_sendCmd hc l clock).ok ?_, exceptAlike_eq.mpr rfl⟩
  rw [List.length_replicate] at hrecv hout
  cases hmany : a.many (E := E) n with
  | error e =>
    rw [hmany] at hrecv
    exact hrecv.errorB.withBuf.error
  | ok ps =>
    rw [hmany] at hrecv
    change K.Ends _ _ (.done (Except.ok (UInt8.ofNat ps.length, (encodeAll (ps.map .short)).length),
      out')) _ at hrecv
    obtain ⟨hcount, hlen, unfilled, rfl⟩ := hout ps hmany
    have hof : K.Ends ((decode (UInt8.ofNat ps.length) (encodeAll (ps.map .short)).length).run
        (encodeAll (ps.map .short) ++ unfilled)) (l.exchanged K c.request, clock)
        (.done (of ps, encodeAll (ps.map .short) ++ unfilled))
        (l.exchanged K c.request, clock) := by
      rw [hdecode ps hcount hlen]
      exact .ret _
    have hall := (hrecv.okB (f := fun r => decode r.1 r.2) hof).withBuf
    change K.Ends _ _ (.done (of ps)) _
    cases hr : of ps with
    | error e =>
      rw [hr] at hall
      exact hall.error
    | ok r =>
      rw [hr] at hall
      exact hall.ok (.ret _)

/-! ## Exchanges into the caller's buffer -/

/-- **A request, and its one parameter** at the front of the caller's buffer. -/
theorem exchangeAt (R : OneReceiver) {send : Nina E Unit} (hfits : c.Fits)
    (hcode : c.replyCode = R.code) (hsend : K.Sends E c send) (out : Buf) :
    K.DoesAt fw view log₀ out (fun n out' p => n = p.length ∧ out' = p ++ out.drop p.length)
      (BufM.lift send >>= fun _ => R.prog c.opcode) (Client.one c out.length) := by
  refine hK.refines_call hfits fun l clock a ha => ?_
  obtain ⟨out', hrecv, hlen, hout⟩ := ends_one (E := E) R hcode ha clock out
  refine ⟨_, ((hsend l clock).lift out).okB hrecv, hlen, ?_⟩
  cases hone : a.one (E := E) out.length with
  | ok p => exact ⟨rfl, hout p hone⟩
  | error e => exact rfl

/-- **A request, and its packed parameters** in the caller's buffer. -/
theorem manyAt {send : Nina E Unit} (hfits : c.Fits) (hcode : c.replyCode = len8)
    (hsend : K.Sends E c send) (out : Buf) :
    K.DoesAt fw view log₀ out (fun r out' ps =>
        r = (UInt8.ofNat ps.length, (encodeAll (ps.map .short)).length) ∧
          ∃ unfilled, out' = encodeAll (ps.map .short) ++ unfilled)
      (BufM.lift send >>= fun _ => recvCmdInto c.opcode) (Client.many c out.length) := by
  refine hK.refines_call hfits fun l clock a ha => ?_
  obtain ⟨out', hrecv, hlen, hout⟩ := ends_many (E := E) hcode ha clock out
  refine ⟨_, ((hsend l clock).lift out).okB hrecv, hlen, ?_⟩
  cases hmany : a.many (E := E) out.length with
  | ok ps => exact ⟨rfl, (hout ps hmany).2.2⟩
  | error e => exact rfl

end Chip.Implements

end EmbassyNina
