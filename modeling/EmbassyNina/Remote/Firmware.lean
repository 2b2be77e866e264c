import EmbassyNina.Link.Answer
import EmbassyNina.Link.Association
import EmbassyNina.Link.Structured
import EmbassyNina.Machinery.Refine
import EmbassyNina.Remote.Command

/-!
# Remote/Firmware — what a chip is for

A `Firmware` serves commands: it has no wire, no frames and no chip select.  A chip *implements* one
when the frame of a command makes it do what the firmware does and its reply carries the firmware's
answer; what else it may do, on bytes that are no command's, is left open.

A client of a firmware is a program that calls it (`rpcSig`).  `K.remote` sets the driver on the
line to a chip beside such a client: both leave the firmware in one state, and the requests on the
line are those of the commands called.
-/

namespace EmbassyNina

open Machinery Prog Stream'

/-- What a firmware answers: parameters, an error, or nothing in time. -/
inductive Answer
  | params (ps : List (List UInt8))
  | refused
  | mute
deriving DecidableEq, Repr

/-- A firmware with states `F`: what happens to it between two commands, and how it serves one. -/
structure Firmware (F : Type) where
  idle : F → F
  serve : F → Command → F × Answer

/-! ## Answers on the wire -/

/-- `st` holds the answer `a` to the command `c`. -/
def Answer.Carried (c : Command) (st : Bytes) : Answer → Prop
  | .params ps => ps.length < 256 ∧ (∀ p ∈ ps, p.length < c.replyCode.bound) ∧
      ∃ rest, Announced st ([c.opcode ||| replyFlag, UInt8.ofNat ps.length] ++
        LenCode.fields (ps.map fun p => (c.replyCode, p)) ++ [endCmd] ++ₛ rest)
  | .refused => Refused st
  | .mute => Silent st

/-- The one parameter of an answer, as a buffer of `room` bytes takes it. -/
def Answer.one {E : Type} (room : ℕ) : Answer → Except (Error E) (List UInt8)
  | .params [p] => if p.length ≤ room then .ok p else .error .bufferTooSmall
  | .params _ => .error .framing
  | .refused => .error .nina
  | .mute => .error .timeout

/-- The parameters of an answer, as a buffer of `room` bytes takes them, each behind a byte. -/
def Answer.many {E : Type} (room : ℕ) : Answer → Except (Error E) (List (List UInt8))
  | .params ps =>
    if (encodeAll (ps.map .short)).length ≤ room then .ok ps else .error .bufferTooSmall
  | .refused => .error .nina
  | .mute => .error .timeout

theorem Answer.many_eq_ok {E : Type} {a : Answer} {room : ℕ} {ps : List (List UInt8)}
    (h : a.many (E := E) room = .ok ps) :
    a = .params ps ∧ (encodeAll (ps.map .short)).length ≤ room := by
  cases a with
  | params ps' =>
    rw [Answer.many] at h
    split at h
    · obtain rfl := Except.ok.inj h
      exact ⟨rfl, ‹_›⟩
    · exact absurd h (by simp)
  | refused | mute => exact absurd h (by simp [Answer.many])

section Carried

variable {E : Type} {c : Command} {st : Bytes} {a : Answer}

/-- A reply that counts other than one parameter is none that a one-parameter receiver reads. -/
theorem misframed_of_count {L : LenCode UInt8} {cmd : UInt8} {rest : Bytes} (room : ℕ)
    (hann : Announced st rest) (hcount : rest.get 1 ≠ 1) : Misframed L cmd room st := by
  have hfound := hunt_eq_found_iff.mpr hann
  have hsame : ∀ {rest'}, Announced st rest' → rest' = rest := fun h =>
    Hunt.found.inj ((hunt_eq_found_iff.mpr h).symm.trans hfound)
  refine ⟨fun h => ?_, fun h => ?_, ?_, ?_⟩
  · obtain ⟨rest', hrefused⟩ := refused_iff.mp h
    exact absurd (hfound.symm.trans hrefused) (by simp)
  · obtain ⟨rest', hsilent⟩ := silent_iff.mp h
    exact absurd (hfound.symm.trans hsilent) (by simp)
  · rintro ⟨len, rest', -, -, h⟩
    exact hcount (congrArg (Stream'.get · 1) (hsame h)).symm
  · rintro payload rest' ⟨-, h⟩
    exact absurd (congrArg (Stream'.get · 1) (hsame h)).symm hcount

/-- **What a one-parameter receiver makes of an answer.** -/
theorem Answer.Carried.says (h : a.Carried c st) (room : ℕ) :
    Says (E := E) c.replyCode c.opcode room st (a.one room) := by
  cases a with
  | refused => exact .refused h
  | mute => exact .silent h
  | params ps =>
    obtain ⟨hcount, hlen, rest, hann⟩ := h
    by_cases hps : ps.length = 1
    · obtain ⟨p, rfl⟩ := List.length_eq_one_iff.mp hps
      have hone : OneParam c.replyCode c.opcode p st rest := by
        rw [List.map_singleton, LenCode.fields_cons, LenCode.fields_nil, List.append_nil] at hann
        exact ⟨hlen p List.mem_cons_self, hann⟩
      rw [Answer.one]
      split
      · exact .payload hone ‹_›
      · exact .tooLong (tooLong_of_oneParam hone (Nat.lt_of_not_le ‹_›))
    · have hno : UInt8.ofNat ps.length ≠ 1 := fun hone => hps (by
        rw [← toNat_ofNat_of_lt hcount, hone]
        rfl)
      have hframing : Answer.one (E := E) room (.params ps) = .error .framing := by
        obtain _ | ⟨p, _ | ⟨q, ps⟩⟩ := ps
        · rfl
        · exact absurd rfl hps
        · rfl
      rw [hframing]
      exact .misframed (misframed_of_count room hann hno)

/-- The parameters of a short answer are those of a reply. -/
theorem Answer.Carried.manyParams (hc : c.replyCode = len8) {ps : List (List UInt8)}
    (h : (Answer.params ps).Carried c st) : ∃ rest, ManyParams c.opcode ps st rest := by
  obtain ⟨hcount, hlen, rest, hann⟩ := h
  rw [hc] at hlen hann
  refine ⟨rest, hcount, hlen, ?_⟩
  rw [encodeAll_eq_fields, List.map_map]
  exact hann

/-- **What the packing receiver makes of an answer.** -/
theorem Answer.Carried.reads (hc : c.replyCode = len8) (h : a.Carried c st) (out : Buf) :
    ∃ out' st', reads (recvCmdInto (E := E) c.opcode) out st =
        (.done ((a.many out.length).map fun ps =>
          (UInt8.ofNat ps.length, (encodeAll (ps.map .short)).length), out'), st') ∧
      ∀ ps, a.many (E := E) out.length = .ok ps → out' = encodeAll (ps.map .short) ++
        out.drop (encodeAll (ps.map .short)).length := by
  simp only [recvCmdInto, reads_received]
  cases a with
  | refused =>
    obtain ⟨st', hread⟩ := recvCmdIntoInner_refused (E := E) c.opcode out h
    exact ⟨out, st', hread, by simp [Answer.many]⟩
  | mute =>
    obtain ⟨st', hread⟩ := recvCmdIntoInner_silent (E := E) c.opcode out h
    exact ⟨out, st', hread, by simp [Answer.many]⟩
  | params ps =>
    obtain ⟨rest, hmany⟩ := h.manyParams hc
    rw [Answer.many]
    split
    · have hread := (recvCmdIntoInner_ok_iff (E := E)).mpr ⟨ps, hmany, ‹_›, rfl, rfl⟩
      refine ⟨_, rest, hread, fun ps' hps => ?_⟩
      rw [Except.ok.inj hps]
    · obtain ⟨hcount, hlt, hann⟩ := hmany
      rw [append_append_stream, append_append_stream] at hann
      obtain ⟨earlier, rest', hover⟩ := exists_overflows hcount hlt hann (Nat.lt_of_not_le ‹_›)
      exact ⟨_, rest', recvCmdIntoInner_overflow hover, by simp⟩

end Carried

/-! ## Calling a firmware -/

/-- What a client of a firmware asks for. -/
inductive Rpc
  | call (c : Command)
  | timer (ms : ℕ)
  | now
  | lock
  | unlock
deriving DecidableEq, Repr

def Rpc.Ans : Rpc → Type
  | .call _ => Answer
  | .now => ℕ
  | .timer _ | .lock | .unlock => Unit

/-- The signature of a client's calls. -/
def rpcSig : Sig := ⟨Rpc, Rpc.Ans⟩

/-- A command that has been served: the firmware as it found it, and the answer. -/
structure Served (F : Type) where
  found : F
  command : Command
  answer : Answer
deriving DecidableEq, Repr

/-- A firmware at work beside a clock, and what it has served so far. -/
structure Desk (F : Type) where
  fw : F
  served : List (Served F)
  clock : Stream' ℕ

variable {C E F α β : Type}

/-- The firmware serves one command. -/
def Firmware.served (fw : Firmware F) (d : Desk F) (c : Command) : Served F :=
  ⟨fw.idle d.fw, c, (fw.serve (fw.idle d.fw) c).2⟩

/-- **A firmware as an environment.** -/
def Firmware.desk (fw : Firmware F) : Env rpcSig (Desk F) where
  answer d
    | .call c =>
      ((fw.served d c).answer,
      { d with fw := (fw.serve (fw.idle d.fw) c).1, served := d.served ++ [fw.served d c] })
    | .now => (d.clock.head, { d with clock := d.clock.tail })
    | .timer _ | .lock | .unlock => ((), d)

/-! ## Chips that implement a firmware -/

/-- **`K` implements `fw`**, its state showing the firmware's under `view`. -/
structure Chip.Implements (K : Chip C) (fw : Firmware F) (view : C → F) : Prop where
  idle : ∀ s, view (K.idle s) = fw.idle (view s)
  serve : ∀ s {c : Command}, c.Fits → view (K.serve s c.request).1 = (fw.serve (view s) c).1
  reply : ∀ s {c : Command}, c.Fits → (fw.serve (view s) c).2.Carried c (K.serve s c.request).2

/-- An exchange on the line is a command served. -/
structure Exchange.Renders (view : C → F) (ex : Exchange C) (s : Served F) : Prop where
  found : view ex.chip = s.found
  request : ex.request = s.command.request
  fits : s.command.Fits
  reply : s.answer.Carried s.command ex.reply

/-- The line, no window open, is where the firmware is: since `log₀` its exchanges have been the
commands served. -/
structure Rendered (view : C → F) (log₀ : List (Exchange C)) (s : Link C × Stream' ℕ)
    (d : Desk F) : Prop where
  window : s.1.window = []
  chip : view s.1.chip = d.fw
  clock : s.2 = d.clock
  log : ∃ log, s.1.log = log₀ ++ log ∧ List.Forall₂ (Exchange.Renders view) log d.served

/-- **The line to a chip beside the firmware it implements.** -/
def Chip.remote (E : Type) (K : Chip C) (fw : Firmware F) (view : C → F)
    (log₀ : List (Exchange C)) : Simulation (halSig E) rpcSig (Link C × Stream' ℕ) (Desk F) :=
  ⟨K.clocked E, fw.desk, Rendered view log₀⟩

namespace Chip.Implements

variable {K : Chip C} {fw : Firmware F} {view : C → F} {log₀ : List (Exchange C)}
  (hK : K.Implements fw view)
include hK

/-- **An exchange is a call.** -/
theorem rendered_call {l : Link C} {clock : Stream' ℕ} {d : Desk F} {c : Command} (hc : c.Fits)
    (h : Rendered view log₀ (l, clock) d) :
    (fw.served d c).answer.Carried c (l.answered K c.request) ∧
      Rendered view log₀ (l.exchanged K c.request, clock) (fw.desk.answer d (.call c)).2 := by
  have hfound : view (l.found K) = fw.idle d.fw := by rw [Link.found, hK.idle, h.chip]
  have hreply : (fw.served d c).answer.Carried c (l.answered K c.request) := by
    have hcarried := hK.reply (l.found K) hc
    rwa [hfound] at hcarried
  obtain ⟨log, hlog, hall⟩ := h.log
  refine ⟨hreply, rfl, ?_, h.clock, log ++ [l.exchange K c.request], ?_, ?_⟩
  · change view (K.serve (l.found K) c.request).1 = (fw.serve (fw.idle d.fw) c).1
    rw [hK.serve _ hc, hfound]
  · rw [Link.log_exchanged, hlog, List.append_assoc]
  · exact List.rel_append hall (.cons ⟨hfound, rfl, hc, hreply⟩ .nil)

/-- What exchanges the frame of a command on the line, and reads the answer, calls it. -/
theorem refines_call {V : α → β → Prop} {p : Prog (halSig E) α} {c : Command} (hc : c.Fits)
    {f : Answer → β}
    (h : ∀ l clock a, a.Carried c (l.answered K c.request) →
      ∃ r, K.Ends p (l, clock) (.done r) (l.exchanged K c.request, clock) ∧ V r (f a)) :
    (K.remote E fw view log₀).Refines V p (.ask (S := rpcSig) (.call c) fun a => .ret (f a)) := by
  rintro ⟨l, clock⟩ d hrendered
  obtain ⟨hcarried, hnext⟩ := hK.rendered_call hc hrendered
  obtain ⟨r, hrun, hr⟩ := h l clock _ hcarried
  have hends : (K.remote E fw view log₀).below.exec p (l, clock) =
      (.done r, l.exchanged K c.request, clock) := hrun
  rw [hends]
  exact ⟨hr, hnext⟩

end Chip.Implements

end EmbassyNina
