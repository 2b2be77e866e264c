import EmbassyNina.Driver.Operation
import EmbassyNina.Exchange.Receivers

/-!
# Exchange/Shape — every operation is made of exchanges

`ExchangesTo Q p`: the program `p` only makes calls that may stand between two CS windows, or sends
a request for some opcode and, when the send succeeds, at once receives for the same opcode; it
never panics, and returns only what satisfies `Q`.  Every public operation has this shape
(`Op.exchanges`), whatever it is answered, so a property of runs is proved once over the shape and
not once over sixty operations.
-/

namespace EmbassyNina

open Machinery Prog

variable {E : Type} {α β : Type}

/-- The calls an operation may make between its exchanges. -/
def Hal.Between : Hal → Prop
  | .timer _ | .now | .lock | .unlock => True
  | .rstSetLow | .rstSetHigh | .bootSetLow => True
  | _ => False

/-- A sender called for opcode `c`. -/
inductive Sends (c : UInt8) : Prog (halSig E) (Except (Error E) Unit) → Prop
  | short (params : List (List UInt8)) : Sends c (sendCmd c params).run
  | mixed (params : List Param) : Sends c (sendCmdMixed c params).run

/-- A receiver called for opcode `c`, and what its result satisfies. -/
inductive Receives (c : UInt8) : {β : Type} → (β → Prop) → Prog (halSig E) β → Prop
  | one (out : Buf) :
    Receives c (OnBuf out.length (· ≤ out.length)) ((recvCmdOneParam c).run out)
  | one16 (out : Buf) :
    Receives c (OnBuf out.length (· ≤ out.length)) ((recvCmdOneParam16 c).run out)
  | into (out : Buf) :
    Receives c (OnBuf out.length fun r => r.2 ≤ out.length) ((recvCmdInto c).run out)

/-- **Made of exchanges.**  `reset` is the one place outside a window where CS is driven: the reset
sequence raises it right after GPIO0. -/
inductive ExchangesTo {α : Type} (Q : α → Prop) : Prog (halSig E) α → Prop
  | ret {a : α} (ha : Q a) : ExchangesTo Q (.ret a)
  | fuel : ExchangesTo Q (.halt .fuel)
  | between {e : Hal} {k : e.Ans E → Prog (halSig E) α} (he : e.Between)
      (hk : ∀ r, ExchangesTo Q (k r)) : ExchangesTo Q (.ask (S := halSig E) e k)
  | reset {k : Except Unit Unit → Prog (halSig E) α} {k' : Except Unit Unit → Prog (halSig E) α}
      (hok : k (.ok ()) = .ask (S := halSig E) .csSetHigh k')
      (herr : ExchangesTo Q (k (.error ()))) (hk : ∀ r, ExchangesTo Q (k' r)) :
      ExchangesTo Q (.ask (S := halSig E) .bootSetHigh k)
  | exchange {β : Type} {c : UInt8} {post : β → Prop}
      {send : Prog (halSig E) (Except (Error E) Unit)} {recv : Prog (halSig E) β}
      {k : Except (Error E) Unit → Prog (halSig E) α} {k' : β → Prog (halSig E) α}
      (hs : Sends c send) (hr : Receives c post recv) (hok : k (.ok ()) = recv.bind k')
      (herr : ∀ e, ExchangesTo Q (k (.error e))) (hk : ∀ b, post b → ExchangesTo Q (k' b)) :
      ExchangesTo Q (send.bind k)

/-- Made of exchanges, whatever is returned. -/
abbrev Exchanges (p : Prog (halSig E) α) : Prop := ExchangesTo (fun _ => True) p

/-! ## Composing -/

variable {Q : α → Prop} {R : β → Prop}

theorem ExchangesTo.bind {p : Prog (halSig E) α} {f : α → Prog (halSig E) β}
    (hp : ExchangesTo Q p) (hf : ∀ a, Q a → ExchangesTo R (f a)) : ExchangesTo R (p.bind f) := by
  induction hp with
  | ret ha => exact hf _ ha
  | fuel => exact .fuel
  | between he _ ih => exact .between he ih
  | reset hok _ _ iherr ihk => exact .reset (by rw [hok]; rfl) iherr ihk
  | exchange hs hr hok _ _ iherr ihk =>
    rw [Prog.bind_assoc]
    exact .exchange hs hr (by rw [hok, Prog.bind_assoc]) iherr ihk

/-- A program that makes no call at all. -/
theorem ExchangesTo.of_quiet {p : Prog (halSig E) α}
    (hp : p.Does (S := halSig E) (fun _ => False) Q) : ExchangesTo Q p := by
  cases p with
  | ret a => exact .ret hp
  | halt h =>
    obtain rfl : h = .fuel := hp
    exact .fuel
  | ask e k => exact hp.1.elim

namespace Exchanges

/-! ## Programs that may fail -/

theorem pureN (a : α) : Exchanges (pure a : Nina E α).run := .ret trivial

theorem throwN (e : Error E) : Exchanges (throw e : Nina E α).run := .ret trivial

theorem bindN {x : Nina E α} {f : α → Nina E β} (hx : Exchanges x.run)
    (hf : ∀ a, Exchanges (f a).run) : Exchanges (x >>= f).run := by
  rw [run_bind_eq]
  exact hx.bind fun
    | .ok a, _ => hf a
    | .error e, _ => .ret trivial

theorem attemptN {x : Nina E α} (hx : Exchanges x.run) : Exchanges (attempt x).run :=
  hx.bind fun _ _ => .ret trivial

theorem repeatN {body : Nina E (Option α)} {after : Nina E α} (hb : Exchanges body.run)
    (ha : Exchanges after.run) (n : ℕ) : Exchanges (repeatFor n body after).run := by
  induction n with
  | zero => exact ha
  | succ n ih => exact bindN hb fun
      | some a => .ret trivial
      | none => ih

theorem lockedN {x : Nina E α} (hx : Exchanges x.run) : Exchanges (Nina.locked x).run :=
  .between trivial fun _ => hx.bind fun _ _ => .between trivial fun _ => .ret trivial

theorem timerN (ms : ℕ) : Exchanges (Nina.timer (E := E) ms).run :=
  .between trivial fun _ => .ret trivial

theorem nowN : Exchanges (Nina.now (E := E)).run := .between trivial fun _ => .ret trivial

theorem failIfN (c : Prop) [Decidable c] (e : Error E) : Exchanges (Nina.failIf c e).run := by
  unfold Nina.failIf
  split
  · exact throwN e
  · exact pureN ()

theorem outOfFuelN : Exchanges (Nina.outOfFuel : Nina E α).run := .fuel

theorem dropN {x : Nina E α} (hx : Exchanges x.run) : Exchanges x.drop :=
  hx.bind fun _ _ => .ret trivial

end Exchanges

/-! ## Functions on a caller's buffer -/

/-- The function `x` on a buffer of `n` bytes is made of exchanges, and its results satisfy `Q`. -/
def ExchangesB (n : ℕ) (Q : α → Prop) (x : BufM E α) : Prop :=
  ∀ out, out.length = n → ExchangesTo (OnBuf n Q) (x.run out)

namespace ExchangesB

variable {n : ℕ}

theorem bind {x : BufM E α} {f : α → BufM E β} (hx : ExchangesB n Q x)
    (hf : ∀ a, Q a → ExchangesB n R (f a)) : ExchangesB n R (x >>= f) := by
  intro out hout
  rw [BufM.run_bind]
  refine (hx out hout).bind ?_
  rintro ⟨r, out'⟩ ⟨hlen, hQ⟩
  cases r with
  | ok a => exact hf a (hQ a rfl) out' hlen
  | error e => exact .ret (onBuf_error hlen)

theorem of_quiet {x : BufM E α} (hx : DoesB (fun _ => False) n Q x) : ExchangesB n Q x :=
  fun out hout => .of_quiet (hx out hout)

theorem pure {a : α} (ha : Q a) : ExchangesB n Q (Pure.pure a : BufM E α) :=
  of_quiet (doesB_pure ha)

theorem lift {x : Nina E α} (hx : Exchanges x.run) : ExchangesB n (fun _ => True) (BufM.lift x) :=
  fun _ hout => hx.bind fun _ _ => .ret ⟨hout, fun _ _ => trivial⟩

theorem locked {x : BufM E α} (hx : ExchangesB n Q x) : ExchangesB n Q (BufM.locked x) :=
  fun out hout => .between trivial fun _ => (hx out hout).bind fun _ hr =>
    .between trivial fun _ => .ret hr

theorem repeatFor {body : BufM E (Option α)} {after : BufM E α}
    (hb : ExchangesB n (fun o => ∀ a, o = some a → Q a) body) (ha : ExchangesB n Q after) (k : ℕ) :
    ExchangesB n Q (Machinery.repeatFor k body after) := by
  induction k with
  | zero => exact ha
  | succ k ih => exact hb.bind fun
      | some a, h => pure (h a rfl)
      | none, _ => ih

theorem outOfFuel : ExchangesB n Q (BufM.outOfFuel (E := E)) := fun _ _ => .fuel

theorem drop {x : BufM E α} {buf : Buf} (hx : ExchangesB buf.length Q x) :
    Exchanges (x.drop buf) := (hx buf rfl).bind fun _ _ => .ret trivial

end ExchangesB

/-! ## Requests and their replies -/

/-- A program that begins by receiving for opcode `c`. -/
inductive AwaitsTo (c : UInt8) {α : Type} (Q : α → Prop) : Prog (halSig E) α → Prop
  | mk {β : Type} {post : β → Prop} {recv : Prog (halSig E) β} {k : β → Prog (halSig E) α}
      (hr : Receives c post recv) (hk : ∀ b, post b → ExchangesTo Q (k b)) :
      AwaitsTo c Q (recv.bind k)

/-- A program that begins by receiving for opcode `c`, whatever it returns. -/
abbrev Awaits (c : UInt8) (p : Prog (halSig E) α) : Prop := AwaitsTo c (fun _ => True) p

/-- A function on a buffer of `n` bytes that begins by receiving for opcode `c`. -/
def AwaitsB (c : UInt8) (n : ℕ) (Q : α → Prop) (x : BufM E α) : Prop :=
  ∀ out, out.length = n → AwaitsTo c (OnBuf n Q) (x.run out)

variable {c : UInt8} {n : ℕ}

theorem AwaitsTo.bind {p : Prog (halSig E) α} {f : α → Prog (halSig E) β} (hp : AwaitsTo c Q p)
    (hf : ∀ a, Q a → ExchangesTo R (f a)) : AwaitsTo c R (p.bind f) := by
  obtain ⟨hr, hk⟩ := hp
  rw [Prog.bind_assoc]
  exact .mk hr fun b hb => (hk b hb).bind hf

theorem AwaitsTo.of_receives {p : Prog (halSig E) α} (hp : Receives c Q p) : AwaitsTo c Q p := by
  rw [← Prog.bind_ret p]
  exact .mk hp fun b hb => .ret hb

namespace Awaits

theorem bindN {x : Nina E α} {f : α → Nina E β} (hx : Awaits c x.run)
    (hf : ∀ a, Exchanges (f a).run) : Awaits c (x >>= f).run := by
  rw [run_bind_eq]
  exact hx.bind fun
    | .ok a, _ => hf a
    | .error _, _ => .ret trivial

theorem attemptN {x : Nina E α} (hx : Awaits c x.run) : Awaits c (attempt x).run :=
  hx.bind fun _ _ => .ret trivial

theorem withBuf {x : BufM E α} (hx : AwaitsB c n Q x) : Awaits c (withBuf n x).run :=
  (hx _ List.length_replicate).bind fun
    | (.ok _, _), _ => .ret trivial
    | (.error _, _), _ => .ret trivial

end Awaits

namespace AwaitsB

theorem bind {x : BufM E α} {f : α → BufM E β} (hx : AwaitsB c n Q x)
    (hf : ∀ a, Q a → ExchangesB n R (f a)) : AwaitsB c n R (x >>= f) := by
  intro out hout
  rw [BufM.run_bind]
  refine (hx out hout).bind ?_
  rintro ⟨r, out'⟩ ⟨hlen, hQ⟩
  cases r with
  | ok a => exact hf a (hQ a rfl) out' hlen
  | error e => exact .ret (onBuf_error hlen)

theorem recvCmdOneParam : AwaitsB c n (· ≤ n) (recvCmdOneParam (E := E) c) := by
  rintro out rfl
  exact .of_receives (.one out)

theorem recvCmdOneParam16 : AwaitsB c n (· ≤ n) (recvCmdOneParam16 (E := E) c) := by
  rintro out rfl
  exact .of_receives (.one16 out)

theorem recvCmdInto : AwaitsB c n (fun r => r.2 ≤ n) (recvCmdInto (E := E) c) := by
  rintro out rfl
  exact .of_receives (.into out)

/-- A function that begins by receiving into a buffer of its own. -/
theorem lift {x : Nina E α} (hx : Awaits c x.run) : AwaitsB c n (fun _ => True) (BufM.lift x) :=
  fun _ hout => hx.bind fun _ _ => .ret ⟨hout, fun _ _ => trivial⟩

end AwaitsB

theorem Exchanges.sendThen (params : List (List UInt8)) {x : Nina E α} (hx : Awaits c x.run) :
    Exchanges (sendCmd c params >>= fun _ => x).run := by
  rw [run_bind_eq]
  generalize hp : x.run = p at hx
  obtain ⟨hr, hk⟩ := hx
  exact .exchange (.short params) hr hp (fun e => .ret trivial) hk

theorem Exchanges.sendMixedThen (params : List Param) {x : Nina E α} (hx : Awaits c x.run) :
    Exchanges (sendCmdMixed c params >>= fun _ => x).run := by
  rw [run_bind_eq]
  generalize hp : x.run = p at hx
  obtain ⟨hr, hk⟩ := hx
  exact .exchange (.mixed params) hr hp (fun e => .ret trivial) hk

theorem ExchangesB.sendThen (params : List (List UInt8)) {x : BufM E α} (hx : AwaitsB c n Q x) :
    ExchangesB n Q (BufM.lift (sendCmd c params) >>= fun _ => x) := by
  intro out hout
  rw [BufM.run_bind, BufM.run_lift, Prog.bind_assoc]
  have := hx out hout
  generalize hp : x.run out = p at this
  obtain ⟨hr, hk⟩ := this
  exact .exchange (.short params) hr hp (fun e => .ret (onBuf_error hout)) hk

theorem ExchangesB.sendMixedThen (params : List Param) {x : BufM E α} (hx : AwaitsB c n Q x) :
    ExchangesB n Q (BufM.lift (sendCmdMixed c params) >>= fun _ => x) := by
  intro out hout
  rw [BufM.run_bind, BufM.run_lift, Prog.bind_assoc]
  have := hx out hout
  generalize hp : x.run out = p at this
  obtain ⟨hr, hk⟩ := this
  exact .exchange (.mixed params) hr hp (fun e => .ret (onBuf_error hout)) hk

end EmbassyNina
