import EmbassyNina.Exchange.Wired
import EmbassyNina.Link.Chip
import Mathlib.Data.Stream.Init

/-!
# Link/Association — what a successful connect says of the network

`Nina::connect` drops the answer to `SET_PASSPHRASE` and goes by the status polls alone, so that it
succeeds on whatever association the chip has.  Its run is cut into `Trial`s here: it succeeds
just when a poll of its last attempt reports `Connected`, and the earlier ones have none
(`exec_connect`).

The polls are bounded by the clock, so the line to the chip gets one (`Chip.clocked`); what it reads
is left open, as the chip is.
-/

namespace EmbassyNina

open Machinery Prog

variable {C E α β : Type} {K : Chip C}

/-! ## The line beside a clock -/

namespace Chip

/-- **The line to a chip beside a clock**, whose readings are what they will. -/
def clocked (E : Type) (K : Chip C) : Env (halSig E) (Link C × Stream' ℕ) where
  answer s
    | .now => (s.2.head, s.1, s.2.tail)
    | e => (((K.bus E).answer s.1 e).1, ((K.bus E).answer s.1 e).2, s.2)

/-- `p`, run on the line `s` beside a clock, ends in `o` and leaves `s'`. -/
def Ends (K : Chip C) (p : Prog (halSig E) α) (s : Link C × Stream' ℕ) (o : Outcome α)
    (s' : Link C × Stream' ℕ) : Prop := (K.clocked E).exec p s = (o, s')

variable {s s' s'' : Link C × Stream' ℕ} {l l' : Link C}

/-- What does not look at the clock… -/
theorem exec_clocked {p : Prog (halSig E) α} (hp : Wired p) (l : Link C) (clock : Stream' ℕ) :
    (K.clocked E).exec p (l, clock) = (((K.bus E).exec p l).1, ((K.bus E).exec p l).2, clock) := by
  induction p generalizing l with
  | ret a => rfl
  | halt h => rfl
  | ask e k ih =>
    cases e with
    | now => exact hp.1.elim
    | _ => exact ih _ (hp.2 _) _

/-- …runs beside it as it does without. -/
theorem Runs.ends {p : Prog (halSig E) α} {a : α} (h : K.Runs p l a l') (hp : Wired p)
    (clock : Stream' ℕ) : K.Ends p (l, clock) (.done a) (l', clock) := by
  rw [Ends, exec_clocked hp, h]

theorem Ends.ret (a : α) : K.Ends (E := E) (.ret a) s (.done a) s := rfl

theorem Ends.bind {p : Prog (halSig E) α} {f : α → Prog (halSig E) β} {a : α} {o : Outcome β}
    (hp : K.Ends p s (.done a) s') (hf : K.Ends (f a) s' o s'') : K.Ends (p.bind f) s o s'' := by
  rw [Ends, Env.exec_bind, hp]
  exact hf

theorem Ends.stop {p : Prog (halSig E) α} {f : α → Prog (halSig E) β} {w : Halt}
    (hp : K.Ends p s (.stopped w) s') : K.Ends (p.bind f) s (.stopped w) s' := by
  rw [Ends, Env.exec_bind, hp]
  rfl

theorem Ends.ok {x : Nina E α} {f : α → Nina E β} {a : α} {o : Outcome (Except (Error E) β)}
    (hx : K.Ends x.run s (.done (.ok a)) s') (hf : K.Ends (f a).run s' o s'') :
    K.Ends (x >>= f).run s o s'' := by
  rw [run_bind_eq]
  exact hx.bind hf

theorem Ends.error {x : Nina E α} {f : α → Nina E β} {e : Error E}
    (hx : K.Ends x.run s (.done (.error e)) s') :
    K.Ends (x >>= f).run s (.done (.error e)) s' := by
  rw [run_bind_eq]
  exact hx.bind (.ret _)

theorem Ends.stopN {x : Nina E α} {f : α → Nina E β} {w : Halt}
    (hx : K.Ends x.run s (.stopped w) s') : K.Ends (x >>= f).run s (.stopped w) s' := by
  rw [run_bind_eq]
  exact hx.stop

theorem Ends.attempt {x : Nina E α} {r : Except (Error E) α} (hx : K.Ends x.run s (.done r) s') :
    K.Ends (Machinery.attempt x).run s (.done (.ok r)) s' := hx.bind (.ret _)

theorem Ends.failIf_pos {c : Prop} [Decidable c] (h : c) (e : Error E) :
    K.Ends (Nina.failIf c e).run s (.done (.error e)) s := by
  rw [Nina.failIf, if_pos h]
  exact .ret _

theorem Ends.failIf_neg {c : Prop} [Decidable c] (h : ¬ c) (e : Error E) :
    K.Ends (Nina.failIf c e).run s (.done (.ok ())) s := by
  rw [Nina.failIf, if_neg h]
  exact .ret _

theorem Ends.timer (ms : ℕ) : K.Ends (Nina.timer (E := E) ms).run s (.done (.ok ())) s := rfl

theorem Ends.now (l : Link C) (clock : Stream' ℕ) :
    K.Ends (Nina.now (E := E)).run (l, clock) (.done (.ok clock.head)) (l, clock.tail) := rfl

end Chip

/-! ## Requests and replies -/

def passphraseFrame (ssid psk : List UInt8) : List UInt8 :=
  frame cmdSetPassphrase [.short ssid, .short psk]

def statusFrame : List UInt8 := frame cmdGetConnStatus [.short [dummy]]

def disconnectFrame : List UInt8 := frame cmdDisconnect [.short [dummy]]

namespace Exchange

/-- The reply accepts the passphrase: it is well formed, and its byte is 1. -/
def Accepts (ex : Exchange C) : Prop := readOne len8 cmdSetPassphrase 1 ex.reply = some [1]

instance (ex : Exchange C) : Decidable ex.Accepts := inferInstanceAs (Decidable (_ = _))

/-- The state that the reply reports. -/
def status (ex : Exchange C) : Option WlStatus :=
  (readOne len8 cmdGetConnStatus 1 ex.reply).map fun payload => .fromU8 (payload.getD 0 0)

end Exchange

/-- A status poll is one exchange. -/
theorem Chip.ends_status (l : Link C) (clock : Stream' ℕ) :
    ∃ r, K.Ends (Nina.status (E := E)).run (l, clock) (.done r) (l.exchanged K statusFrame, clock) ∧
      (r = .ok .connected ↔ (l.exchange K statusFrame).status = some .connected) := by
  obtain ⟨r, hrun, hr⟩ := Chip.runs_mapByte (K := K) (E := E) cmdGetConnStatus [[dummy]]
    WlStatus.fromU8 l
  refine ⟨r, hrun.ends ((Wired.byteCommand _ _).bindN fun _ => trivial) clock, ?_⟩
  rw [hr, Exchange.status, Option.map_eq_some_iff]
  exact exists_congr fun payload => and_congr_right fun _ => eq_comm

/-! ## The status wait -/

/-- One turn of `waitForConnected`. -/
def awaitTurn (deadline : ℕ) : Nina E (Option Unit) := do
  Nina.failIf (¬ (← Nina.now) < deadline) .timeout
  match ← attempt Nina.status with
  | .ok .connected => return some ()
  | _ =>
    Nina.timer 250
    return none

theorem waitForConnected_eq (fuel timeout : ℕ) :
    Nina.waitForConnected (E := E) fuel timeout = (do
      let deadline := (← Nina.now) + timeout
      repeatFor fuel (awaitTurn deadline) Nina.outOfFuel) := rfl

/-- A turn in time is one poll… -/
theorem Chip.ends_awaitTurn {deadline : ℕ} (l : Link C) {clock : Stream' ℕ}
    (h : clock.head < deadline) :
    ∃ v, K.Ends (awaitTurn (E := E) deadline).run (l, clock) (.done (.ok v))
        (l.exchanged K statusFrame, clock.tail) ∧
      (v = some () ↔ (l.exchange K statusFrame).status = some .connected) := by
  obtain ⟨r, hstatus, hr⟩ := Chip.ends_status (K := K) (E := E) l clock.tail
  by_cases hc : r = .ok .connected
  · subst hc
    refine ⟨some (), ?_, iff_of_true rfl (hr.mp rfl)⟩
    exact (Ends.now l clock).ok
      ((Ends.failIf_neg (not_not.mpr h) _).ok (hstatus.attempt.ok (.ret _)))
  · refine ⟨none, ?_, iff_of_false nofun fun h => hc (hr.mpr h)⟩
    refine (Ends.now l clock).ok ((Ends.failIf_neg (not_not.mpr h) _).ok (hstatus.attempt.ok ?_))
    split
    · exact absurd rfl hc
    · exact (Ends.timer 250).ok (.ret _)

/-- …and a turn past the deadline is the last. -/
theorem Chip.ends_awaitTurn_late {deadline : ℕ} (l : Link C) {clock : Stream' ℕ}
    (h : ¬ clock.head < deadline) :
    K.Ends (awaitTurn (E := E) deadline).run (l, clock) (.done (.error .timeout))
      (l, clock.tail) := (Ends.now l clock).ok (Ends.failIf_pos h _).error

/-- How a status wait ends, and its polls: it succeeds just when one reports `Connected`. -/
def WaitLog (o : Outcome (Except (Error E) Unit)) (polls : List (Exchange C)) : Prop :=
  (∀ ex ∈ polls, ex.request = statusFrame) ∧
    ((o = .done (.ok ()) ∧ ∃ ex ∈ polls, ex.status = some .connected) ∨
      (o = .done (.error .timeout) ∨ o = .stopped .fuel) ∧
        ∀ ex ∈ polls, ex.status ≠ some .connected)

/-- A poll that reports `Connected` ends the wait… -/
theorem WaitLog.connected {ex : Exchange C} (hex : ex.request = statusFrame)
    (h : ex.status = some .connected) : WaitLog (E := E) (.done (.ok ())) [ex] :=
  ⟨List.forall_mem_singleton.mpr hex, .inl ⟨rfl, ex, List.mem_singleton_self ex, h⟩⟩

/-- …without one it times out, or goes on for longer than it is unrolled… -/
theorem WaitLog.nil {o : Outcome (Except (Error E) Unit)}
    (ho : o = .done (.error .timeout) ∨ o = .stopped .fuel) : WaitLog (C := C) o [] :=
  ⟨List.forall_mem_nil _, .inr ⟨ho, List.forall_mem_nil _⟩⟩

/-- …and any other poll leaves it to those that follow. -/
theorem WaitLog.cons {o : Outcome (Except (Error E) Unit)} {ex : Exchange C}
    {polls : List (Exchange C)} (hex : ex.request = statusFrame)
    (h : ex.status ≠ some .connected) (hpolls : WaitLog o polls) : WaitLog o (ex :: polls) := by
  refine ⟨List.forall_mem_cons.mpr ⟨hex, hpolls.1⟩, ?_⟩
  rcases hpolls.2 with ⟨ho, ex', hmem, hex'⟩ | ⟨ho, hnone⟩
  · exact .inl ⟨ho, ex', List.mem_cons_of_mem ex hmem, hex'⟩
  · exact .inr ⟨ho, List.forall_mem_cons.mpr ⟨h, hnone⟩⟩

theorem Chip.ends_awaitConnected (fuel deadline : ℕ) (l : Link C) (clock : Stream' ℕ) :
    ∃ o l' clock' polls,
      K.Ends (repeatFor fuel (awaitTurn (E := E) deadline) Nina.outOfFuel).run (l, clock) o
        (l', clock') ∧
      l'.log = l.log ++ polls ∧ WaitLog o polls := by
  induction fuel generalizing l clock with
  | zero => exact ⟨_, l, clock, [], rfl, (List.append_nil _).symm, .nil (.inr rfl)⟩
  | succ fuel ih =>
    by_cases hnow : clock.head < deadline
    · obtain ⟨v, hturn, hv⟩ := Chip.ends_awaitTurn (K := K) (E := E) l hnow
      rcases v with _ | ⟨⟩
      · obtain ⟨o, l', clock', polls, hrun, hlog, hpolls⟩ :=
          ih (l.exchanged K statusFrame) clock.tail
        refine ⟨o, l', clock', l.exchange K statusFrame :: polls, hturn.ok hrun, ?_,
          .cons rfl ?_ hpolls⟩
        · rw [hlog, Link.log_exchanged, List.append_assoc, List.singleton_append]
        · exact fun h => absurd (hv.mpr h) nofun
      · exact ⟨_, _, _, [l.exchange K statusFrame], hturn.ok (.ret _), rfl,
          .connected rfl (hv.mp rfl)⟩
    · exact ⟨_, l, clock.tail, [], (Chip.ends_awaitTurn_late l hnow).error,
        (List.append_nil _).symm, .nil (.inl rfl)⟩

/-- **A status wait** is its polls. -/
theorem Chip.ends_waitForConnected (fuel timeout : ℕ) (l : Link C) (clock : Stream' ℕ) :
    ∃ o l' clock' polls,
      K.Ends (Nina.waitForConnected (E := E) fuel timeout).run (l, clock) o (l', clock') ∧
      l'.log = l.log ++ polls ∧ WaitLog o polls := by
  obtain ⟨o, l', clock', polls, hrun, hlog, hpolls⟩ :=
    Chip.ends_awaitConnected (K := K) (E := E) fuel (clock.head + timeout) l clock.tail
  rw [waitForConnected_eq]
  exact ⟨o, l', clock', polls, (Ends.now l clock).ok hrun, hlog, hpolls⟩

/-! ## Attempts -/

/-- **One attempt**: the passphrase, the polls, and the disconnect if there was one. -/
structure Trial (C : Type) where
  asked : Exchange C
  polls : List (Exchange C)
  torn : List (Exchange C)

namespace Trial

/-- The exchanges of an attempt. -/
def log (a : Trial C) : List (Exchange C) := a.asked :: (a.polls ++ a.torn)

/-- What an attempt asks for. -/
structure For (ssid psk : List UInt8) (a : Trial C) : Prop where
  asked : a.asked.request = passphraseFrame ssid psk
  polls : ∀ ex ∈ a.polls, ex.request = statusFrame
  torn : ∀ ex ∈ a.torn, ex.request = disconnectFrame

/-- A poll of the attempt reports `Connected`. -/
def Connected (a : Trial C) : Prop := ∃ ex ∈ a.polls, ex.status = some .connected

end Trial

/-- One turn of `connect`. -/
def connectTurn (fuel : ℕ) (ssid psk : List UInt8) : Nina E (Option Unit) := do
  let _ ← attempt (Nina.connectWpa ssid psk)
  match ← attempt (Nina.waitForConnected fuel 20000) with
  | .ok _ => return some ()
  | .error _ =>
    let _ ← attempt Nina.disconnect
    Nina.timer 2000
    return none

theorem connect_eq (fuel : ℕ) (ssid psk : List UInt8) :
    Nina.connect (E := E) fuel ssid psk =
      repeatFor 5 (connectTurn fuel ssid psk) (throw .timeout) := rfl

/-- Errors or not, a passphrase is one exchange… -/
theorem Chip.ends_connectWpa (ssid psk : List UInt8) (l : Link C) (clock : Stream' ℕ) :
    ∃ r, K.Ends (Nina.connectWpa (E := E) ssid psk).run (l, clock) (.done r)
      (l.exchanged K (passphraseFrame ssid psk), clock) := by
  obtain ⟨r, hrun, -⟩ := Chip.runs_byteCommand (K := K) (E := E) cmdSetPassphrase [ssid, psk] l
  exact ⟨r, hrun.ends (.byteCommand _ _) clock⟩

/-- …and so is a disconnect. -/
theorem Chip.ends_disconnect (l : Link C) (clock : Stream' ℕ) :
    ∃ r, K.Ends (Nina.disconnect (E := E)).run (l, clock) (.done r)
      (l.exchanged K disconnectFrame, clock) := by
  obtain ⟨r, hrun, -⟩ := Chip.runs_mapByte (K := K) (E := E) cmdDisconnect [[dummy]]
    (fun _ => ()) l
  exact ⟨r, hrun.ends ((Wired.byteCommand _ _).bindN fun _ => trivial) clock⟩

/-- **A turn is one attempt**, and the last one just when a poll reports `Connected`. -/
theorem Chip.ends_connectTurn (fuel : ℕ) (ssid psk : List UInt8) (l : Link C)
    (clock : Stream' ℕ) :
    ∃ o l' clock' a, K.Ends (connectTurn (E := E) fuel ssid psk).run (l, clock) o (l', clock') ∧
      l'.log = l.log ++ Trial.log a ∧ a.For ssid psk ∧
      ((o = .done (.ok (some ())) ∧ a.Connected) ∨
        (o = .done (.ok none) ∨ o = .stopped .fuel) ∧ ¬ a.Connected) := by
  obtain ⟨r, hwpa⟩ := Chip.ends_connectWpa (K := K) (E := E) ssid psk l clock
  obtain ⟨o, l₁, clock₁, polls, hwait, hlog, hpolls, hends⟩ := Chip.ends_waitForConnected (K := K)
    (E := E) fuel 20000 (l.exchanged K (passphraseFrame ssid psk)) clock
  have hasked : l₁.log = l.log ++ l.exchange K (passphraseFrame ssid psk) :: polls := by
    rw [hlog, Link.log_exchanged, List.append_assoc, List.singleton_append]
  rcases hends with ⟨rfl, hconn⟩ | ⟨rfl | rfl, hnone⟩
  · refine ⟨_, l₁, clock₁, ⟨l.exchange K (passphraseFrame ssid psk), polls, []⟩,
      hwpa.attempt.ok (hwait.attempt.ok (.ret _)), ?_, ⟨rfl, hpolls, List.forall_mem_nil _⟩,
      .inl ⟨rfl, hconn⟩⟩
    rw [hasked, Trial.log, List.append_nil]
  · obtain ⟨r', hdisc⟩ := Chip.ends_disconnect (K := K) (E := E) l₁ clock₁
    refine ⟨_, _, clock₁, ⟨l.exchange K (passphraseFrame ssid psk), polls,
        [l₁.exchange K disconnectFrame]⟩,
      hwpa.attempt.ok (hwait.attempt.ok (hdisc.attempt.ok ((Ends.timer 2000).ok (.ret _)))), ?_,
      ⟨rfl, hpolls, List.forall_mem_singleton.mpr rfl⟩, .inr ⟨.inl rfl, ?_⟩⟩
    · rw [Link.log_exchanged, hasked, Trial.log, List.append_assoc, List.cons_append]
    · rintro ⟨ex, hex, hconn⟩
      exact hnone ex hex hconn
  · refine ⟨_, l₁, clock₁, ⟨l.exchange K (passphraseFrame ssid psk), polls, []⟩,
      hwpa.attempt.ok hwait.stop.stopN, ?_, ⟨rfl, hpolls, List.forall_mem_nil _⟩,
      .inr ⟨.inr rfl, ?_⟩⟩
    · rw [hasked, Trial.log, List.append_nil]
    · rintro ⟨ex, hex, hconn⟩
      exact hnone ex hex hconn

/-- How a connect ends, and its attempts: it succeeds just when the last one is `Connected`. -/
def ConnectLog (o : Outcome (Except (Error E) Unit)) (attempts : List (Trial C)) : Prop :=
  (o = .done (.ok ()) ∧ ∃ earlier last, attempts = earlier ++ [last] ∧ last.Connected ∧
      ∀ a ∈ earlier, ¬ a.Connected) ∨
    (o = .done (.error .timeout) ∨ o = .stopped .fuel) ∧ ∀ a ∈ attempts, ¬ a.Connected

/-- An attempt that does not come to be connected leaves it to those that follow. -/
theorem ConnectLog.cons {o : Outcome (Except (Error E) Unit)} {a : Trial C}
    {attempts : List (Trial C)} (ha : ¬ a.Connected) (h : ConnectLog o attempts) :
    ConnectLog o (a :: attempts) := by
  rcases h with ⟨ho, earlier, last, rfl, hlast, hearlier⟩ | ⟨ho, hnone⟩
  · exact .inl ⟨ho, a :: earlier, last, rfl, hlast, List.forall_mem_cons.mpr ⟨ha, hearlier⟩⟩
  · exact .inr ⟨ho, List.forall_mem_cons.mpr ⟨ha, hnone⟩⟩

/-- **A connect is its attempts**, whatever the chip replies and the clock reads. -/
theorem Chip.ends_connect (n fuel : ℕ) (ssid psk : List UInt8) (l : Link C) (clock : Stream' ℕ) :
    ∃ o s' attempts,
      K.Ends (repeatFor n (connectTurn (E := E) fuel ssid psk) (throw .timeout)).run (l, clock) o
        s' ∧
      s'.1.log = l.log ++ attempts.flatMap Trial.log ∧ (∀ a ∈ attempts, a.For ssid psk) ∧
      ConnectLog o attempts := by
  induction n generalizing l clock with
  | zero =>
    exact ⟨_, _, [], .ret _, (List.append_nil _).symm, List.forall_mem_nil _,
      .inr ⟨.inl rfl, List.forall_mem_nil _⟩⟩
  | succ n ih =>
    obtain ⟨o, l₁, clock₁, a, hturn, hlog, hfor, hends⟩ :=
      Chip.ends_connectTurn (K := K) (E := E) fuel ssid psk l clock
    rcases hends with ⟨rfl, hconn⟩ | ⟨rfl | rfl, hnone⟩
    · refine ⟨_, _, [a], hturn.ok (.ret _), ?_, List.forall_mem_singleton.mpr hfor,
        .inl ⟨rfl, [], a, rfl, hconn, List.forall_mem_nil _⟩⟩
      rw [hlog, List.flatMap_singleton]
    · obtain ⟨o, s', attempts, hrun, hlog', hfors, hconnect⟩ := ih l₁ clock₁
      refine ⟨o, s', a :: attempts, hturn.ok hrun, ?_, List.forall_mem_cons.mpr ⟨hfor, hfors⟩,
        hconnect.cons hnone⟩
      rw [hlog', hlog, List.append_assoc, List.flatMap_cons]
    · refine ⟨_, _, [a], hturn.stopN, ?_, List.forall_mem_singleton.mpr hfor,
        .inr ⟨.inr rfl, List.forall_mem_singleton.mpr hnone⟩⟩
      rw [hlog, List.flatMap_singleton]

/-! ## What a success says -/

/-- The passphrase of the last attempt was accepted, and a poll after it reported `Connected`. -/
def Associates (attempts : List (Trial C)) : Prop :=
  ∃ earlier last, attempts = earlier ++ [last] ∧ last.asked.Accepts ∧ last.Connected

/-- A chip that keeps its association, refuses every passphrase and forgets the network it is on
only when it is told to disconnect. -/
def staleChip : Chip (List UInt8) where
  idle net := net
  serve net request :=
    if opcode request = cmdSetPassphrase then (net, oneParam len8 cmdSetPassphrase [0xFF])
    else if opcode request = cmdDisconnect then ([], oneParam len8 cmdDisconnect [1])
    else (net, oneParam len8 (opcode request) [if net = [] then 0 else 3])

end EmbassyNina
