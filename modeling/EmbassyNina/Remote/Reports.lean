import EmbassyNina.Exchange.Faults
import EmbassyNina.Link.Lookup
import EmbassyNina.Machinery.Account
import EmbassyNina.Remote.Client

/-!
# Remote/Reports — the faults of a run are what its results report

A failure of a pin or of the bus reaches the caller as `Error::Pin` or `Error::Spi`.  Whatever an
operation is answered, it makes up no such error; and of the failures it meets it reports every
one, but for those it drops by `let _ =` and `.ok()`.  How far that goes is its `Care`: the two
waits for an association may drop errors at any time, the three connects only with the close that
comes before `Timeout`, and all the others never do (`accounts_result`, `Op.reports`).

Two failures are none of these, for no operation ever looks at them: that of the pin that deselects
the chip at the end of a window, and that of the wait for ACK to go HIGH.  And `init` is left out:
it looks at pins outside of any window, which are no faults of an exchange.
-/

namespace EmbassyNina

open Machinery Prog

variable {E : Type} {α β : Type}

/-- The failure of a pin or of the bus that an error tells of. -/
def Error.reported : Error E → List (Error E)
  | .pin => [.pin]
  | .spi e => [.spi e]
  | _ => []

/-- The failure that a result tells of, if any. -/
def reported : Except (Error E) α → List (Error E)
  | .ok _ => []
  | .error e => e.reported

@[simp] theorem reported_map (r : Except (Error E) α) (f : α → β) :
    reported (r.map f) = reported r := by
  cases r <;> rfl

/-- A fault reports itself. -/
theorem reported_of_mem_faults {tr : List (Event (halSig E))} {e : Error E} (h : e ∈ faults tr) :
    e.reported = [e] := by
  obtain rfl | ⟨e, rfl⟩ := mem_faults h
  · rfl
  · rfl

/-- What goes wrong in an answered call. -/
abbrev Hal.faultOf (ev : Event (halSig E)) : Option (Error E) := ev.eff.fault ev.ans

theorem filterMap_faultOf (tr : List (Event (halSig E))) : tr.filterMap Hal.faultOf = faults tr :=
  rfl

/-- A window that does not open is a fault of a pin. -/
theorem accounts_selected {kept : β → Prop} {g : β → List (Error E)} {fail : Error E → β}
    {body : Prog (halSig E) β} (hfail : g (fail .pin) = [.pin])
    (hbody : Accounts Hal.faultOf kept g body) :
    Accounts Hal.faultOf kept g (selected fail body) := by
  intro tr b hrun
  rw [filterMap_faultOf]
  obtain ⟨rfl, hpin, -⟩ | ⟨t, hrun, hfaults, -⟩ := selected_cases hrun
  · rw [hfail, hpin]
    exact ⟨.refl _, fun _ => rfl⟩
  · rw [hfaults]
    exact hbody t b hrun

/-! ## Programs that may fail -/

/-- How much a program cares for the errors of what it calls: it drops none, it drops some only
when it fails by `Timeout`, or it may drop any. -/
inductive Care
  | full
  | untilTimeout
  | none
deriving DecidableEq, Repr

/-- A result for which no error has been dropped. -/
def Care.Kept : Care → Except (Error E) α → Prop
  | .full, _ => True
  | .untilTimeout, .ok _ => True
  | .untilTimeout, .error e => e ≠ .timeout
  | .none, _ => False

variable {c : Care}

theorem Care.Kept.ok {r : Except (Error E) β} (h : c.Kept r) (a : α) :
    c.Kept (.ok a : Except (Error E) α) := by
  cases c with
  | full | untilTimeout => trivial
  | none => exact h

theorem Care.Kept.error {e : Error E} (h : c.Kept (.error e : Except (Error E) β)) :
    c.Kept (.error e : Except (Error E) α) := by cases c <;> exact h

theorem Care.Kept.error_of_ne {r : Except (Error E) β} {e : Error E} (h : c.Kept r)
    (he : e ≠ .timeout) : c.Kept (.error e : Except (Error E) α) := by
  cases c with
  | full => trivial
  | untilTimeout => exact he
  | none => exact h

theorem Care.Kept.of_map {r : Except (Error E) α} {v : α → β} (h : c.Kept (r.map v)) :
    c.Kept r := by
  cases r with
  | ok a => exact h.ok a
  | error e => exact h.error

/-- A driver function that accounts for its faults. -/
abbrev AccountsN (c : Care) (x : Nina E α) : Prop := Accounts Hal.faultOf c.Kept reported x.run

/-- A function on a buffer that does. -/
def AccountsB (c : Care) (x : BufM E α) : Prop :=
  ∀ out, Accounts Hal.faultOf (fun r => c.Kept r.1) (fun r => reported r.1) (x.run out)

namespace AccountsN

theorem pure (a : α) : AccountsN (E := E) c (Pure.pure a : Nina E α) := .ret rfl

/-- An error that the driver makes up itself. -/
theorem throw {e : Error E} (he : e.reported = []) :
    AccountsN c (MonadExcept.throw e : Nina E α) := .ret he

theorem failIf {P : Prop} [Decidable P] {e : Error E} (he : e.reported = []) :
    AccountsN c (Nina.failIf P e) := by
  unfold Nina.failIf
  split
  · exact throw he
  · exact pure ()

theorem bind {x : Nina E α} {k : α → Nina E β} (hx : AccountsN c x)
    (hk : ∀ a, AccountsN c (k a)) : AccountsN c (x >>= k) := by
  rw [AccountsN, run_bind_eq]
  refine Accounts.bind hx fun r => ?_
  cases r with
  | ok a => exact .inr ⟨rfl, fun _ h => h.ok a, hk a⟩
  | error e => exact .inl (.ret ⟨rfl, Care.Kept.error⟩)

/-- A result that is handed over is not reported. -/
theorem unheeded (x : Nina E α) : AccountsN .none (attempt x) := by
  intro tr a hrun
  obtain ⟨r, t₁, t₂, -, hret, rfl⟩ := Steps.exists_of_bind hrun
  obtain ⟨rfl, rfl⟩ := Steps.done hret
  exact ⟨List.nil_sublist _, False.elim⟩

theorem repeatFor {body : Nina E (Option α)} {after : Nina E α} (hbody : AccountsN c body)
    (hafter : AccountsN c after) (n : ℕ) :
    AccountsN c (Machinery.repeatFor n body after) := by
  induction n with
  | zero => exact hafter
  | succ n ih =>
    refine bind hbody fun o => ?_
    cases o with
    | some a => exact pure a
    | none => exact ih

theorem timer (ms : ℕ) : AccountsN c (Nina.timer (E := E) ms) :=
  Accounts.calm (fun _ => rfl) fun _ => .ret rfl

theorem now : AccountsN c (Nina.now (E := E)) := Accounts.calm (fun _ => rfl) fun _ => .ret rfl

theorem locked {x : Nina E α} (hx : AccountsN c x) : AccountsN c (Nina.locked x) := by
  refine Accounts.calm (fun _ => rfl) fun _ => ?_
  refine Accounts.bind (p := x.run) hx fun r => .inl ?_
  exact Quiet.calm (fun _ => rfl) fun _ => .ret ⟨rfl, id⟩

theorem outOfFuel : AccountsN c (Nina.outOfFuel : Nina E α) := Accounts.halt _

theorem withBuf {x : BufM E α} (hx : AccountsB c x) (n : ℕ) : AccountsN c (withBuf n x) :=
  Accounts.bind (hx _) fun r => by
    rcases r with ⟨e | a, out⟩
    · exact .inl (.ret ⟨rfl, Care.Kept.error⟩)
    · exact .inl (.ret ⟨rfl, fun h => h.ok a⟩)

theorem write (bytes : List UInt8) : AccountsN c (Nina.write (E := E) bytes) :=
  Accounts.ask (fun r => r.mapError .spi) (fun _ => rfl) fun r => by cases r <;> rfl

theorem sendCmd (cmd : UInt8) (params : List (List UInt8)) :
    AccountsN c (sendCmd (E := E) cmd params) := by
  intro tr r hrun
  obtain ⟨e, hone, rfl⟩ | ⟨hnone, rfl, -⟩ := sendCmd_cases hrun
  · have he : reported (.error e : Except (Error E) Unit) = faults tr :=
      (reported_of_mem_faults (hone ▸ List.mem_singleton_self e)).trans hone.symm
    exact ⟨he ▸ .refl _, fun _ => he⟩
  · rw [filterMap_faultOf, hnone]
    exact ⟨.refl _, fun _ => rfl⟩

theorem sendCmdMixed (cmd : UInt8) (params : List Param) :
    AccountsN c (sendCmdMixed (E := E) cmd params) := by
  rw [AccountsN, sendCmdMixed_run_eq]
  split
  · exact accounts_selected rfl (write _)
  · exact .ret rfl

/-- A result that is handed over and at once handed on, as far as it reports anything. -/
theorem handled {x : Nina E α} {k : Except (Error E) α → Nina E β} (hx : AccountsN c x)
    (hk : ∀ r, Quiet Hal.faultOf (fun b => reported b = reported r ∧ (c.Kept b → c.Kept r))
      (k r).run) : AccountsN c (attempt x >>= k) := by
  rw [AccountsN, run_bind_eq]
  change Accounts _ _ _ ((x.run.bind fun r => .ret (Except.ok r)).bind (onOk k))
  rw [bind_assoc]
  exact Accounts.bind hx fun r => .inl (hk r)

end AccountsN

/-! ## On a buffer -/

namespace AccountsB

theorem pure (a : α) : AccountsB (E := E) c (Pure.pure a : BufM E α) := fun _ => .ret rfl

theorem bind {x : BufM E α} {k : α → BufM E β} (hx : AccountsB c x)
    (hk : ∀ a, AccountsB c (k a)) : AccountsB c (x >>= k) := by
  intro out
  rw [BufM.run_bind]
  refine Accounts.bind (hx out) fun r => ?_
  rcases r with ⟨e | a, out'⟩
  · exact .inl (.ret ⟨rfl, Care.Kept.error⟩)
  · exact .inr ⟨rfl, fun _ h => h.ok a, hk a out'⟩

theorem lift {x : Nina E α} (hx : AccountsN c x) : AccountsB c (BufM.lift x) :=
  fun _ => Accounts.bind hx fun _ => .inl (.ret ⟨rfl, id⟩)

theorem failIf {P : Prop} [Decidable P] {e : Error E} (he : e.reported = []) :
    AccountsB c (BufM.failIf P e) := lift (.failIf he)

theorem len : AccountsB c (BufM.len (E := E)) := fun _ => .ret rfl

theorem setIdx (i : ℕ) (b : UInt8) : AccountsB c (BufM.setIdx (E := E) i b) := by
  intro out
  change Accounts _ _ _ (if i < out.length then _ else panicked : Prog (halSig E) _)
  split
  · exact .ret rfl
  · exact .halt _

theorem getIdx (i : ℕ) : AccountsB c (BufM.getIdx (E := E) i) := by
  intro out
  change Accounts _ _ _ (if i < out.length then _ else panicked : Prog (halSig E) _)
  split
  · exact .ret rfl
  · exact .halt _

theorem sliceTo (i : ℕ) : AccountsB c (BufM.sliceTo (E := E) i) := by
  intro out
  change Accounts _ _ _ (if i ≤ out.length then _ else panicked : Prog (halSig E) _)
  split
  · exact .ret rfl
  · exact .halt _

theorem transfer (k : ℕ) : AccountsB c (BufM.transfer (E := E) k) := fun out =>
  Accounts.ask (fun r => (r.mapError .spi |>.map fun bytes => bytes.toList, out))
    (fun r => by cases r <;> rfl) fun r => by cases r <;> rfl

theorem received {x : BufM E α} (hx : AccountsB c x) : AccountsB c (received x) := by
  intro out
  rw [received_run]
  exact accounts_selected rfl (hx out)

theorem locked {x : BufM E α} (hx : AccountsB c x) : AccountsB c (BufM.locked x) := by
  intro out
  refine Accounts.calm (fun _ => rfl) fun _ => ?_
  refine Accounts.bind (p := x.run out) (hx out) fun r => .inl ?_
  exact Quiet.calm (fun _ => rfl) fun _ => .ret ⟨rfl, id⟩

theorem repeatFor {body : BufM E (Option α)} {after : BufM E α} (hbody : AccountsB c body)
    (hafter : AccountsB c after) (n : ℕ) :
    AccountsB c (Machinery.repeatFor n body after) := by
  induction n with
  | zero => exact hafter
  | succ n ih =>
    refine bind hbody fun o => ?_
    cases o with
    | some a => exact pure a
    | none => exact ih

/-! ## Receivers -/

theorem huntStart (n : ℕ) (byte : UInt8) : AccountsB c (huntStart (E := E) n byte) := by
  induction n generalizing byte with
  | zero => exact pure _
  | succ n ih =>
    refine (transfer 1).bind fun b => ?_
    dsimp only
    split
    · exact pure _
    · exact (failIf rfl).bind fun _ => ih _

theorem fillSlots (i k : ℕ) : AccountsB c (fillSlots (E := E) i k) := by
  induction k generalizing i with
  | zero => exact pure _
  | succ k ih => exact (transfer 1).bind fun _ => (setIdx _ _).bind fun _ => ih _

theorem expectEnd : AccountsB c (expectEnd (E := E)) := (transfer 1).bind fun _ => failIf rfl

theorem opened {tail : List UInt8 → BufM E α} (htail : ∀ hdr, AccountsB c (tail hdr))
    (cmd byte : UInt8) (k : ℕ) : AccountsB c (opened cmd byte k tail) :=
  (huntStart _ _).bind fun _ => (failIf rfl).bind fun _ => (transfer k).bind fun hdr =>
    (failIf rfl).bind fun _ => htail hdr

/-- The payload of a reply of one parameter, and the byte that ends it. -/
theorem payload (n : ℕ) :
    AccountsB c (do
      BufM.failIf (E := E) (n > (← BufM.len)) .bufferTooSmall
      EmbassyNina.fillSlots 0 n
      EmbassyNina.expectEnd
      return n) :=
  len.bind fun _ => (failIf rfl).bind fun _ => (fillSlots _ _).bind fun _ =>
    expectEnd.bind fun _ => pure _

theorem recvParams (k written : ℕ) : AccountsB c (recvParams (E := E) k written) := by
  induction k generalizing written with
  | zero => exact pure _
  | succ k ih =>
    exact (transfer 1).bind fun _ => len.bind fun _ => (failIf rfl).bind fun _ =>
      (setIdx _ _).bind fun _ => (fillSlots _ _).bind fun _ => ih _

theorem recvCmdOneParam (cmd : UInt8) : AccountsB c (recvCmdOneParam (E := E) cmd) :=
  received (opened (fun _ => (failIf rfl).bind fun _ => payload _) cmd 0 3)

theorem recvCmdOneParam16 (cmd : UInt8) : AccountsB c (recvCmdOneParam16 (E := E) cmd) :=
  received (opened (fun _ => (failIf rfl).bind fun _ => (transfer 2).bind fun _ => payload _)
    cmd dummy 2)

theorem recvCmdInto (cmd : UInt8) : AccountsB c (recvCmdInto (E := E) cmd) :=
  received (opened (fun _ => (recvParams _ _).bind fun _ => expectEnd.bind fun _ => pure _)
    cmd dummy 2)

end AccountsB

/-! ## The families -/

namespace AccountsN

theorem recvOne (cmd : UInt8) (n : ℕ) :
    AccountsN c (EmbassyNina.withBuf (E := E) n (recvCmdOneParam cmd)) :=
  withBuf (.recvCmdOneParam cmd) n

theorem command (cmd : UInt8) (params : List (List UInt8)) (n : ℕ) :
    AccountsN c (Nina.command (E := E) cmd params n) :=
  (sendCmd cmd params).bind fun _ => recvOne cmd n

theorem byteCommand (cmd : UInt8) (params : List (List UInt8)) :
    AccountsN c (Nina.byteCommand (E := E) cmd params) :=
  (command _ _ _).bind fun _ => pure _

/-- A byte, and what is made of it. -/
theorem ofByte (cmd : UInt8) (params : List (List UInt8)) (decode : UInt8 → α) :
    AccountsN c (do
      let b ← Nina.byteCommand (E := E) cmd params
      return decode b) := (byteCommand _ _).bind fun _ => pure _

/-- Four bytes, and what is made of them. -/
theorem ofFour (cmd : UInt8) (params : List (List UInt8)) (decode : Buf → α) :
    AccountsN c (do
      let (n, buf) ← Nina.command (E := E) cmd params 4
      Nina.failIf (n ≠ 4) .framing
      return decode buf) :=
  (command _ _ _).bind fun _ => (failIf rfl).bind fun _ => pure _

theorem ackedCommand (cmd : UInt8) (params : List (List UInt8)) :
    AccountsN c (Nina.ackedCommand (E := E) cmd params) :=
  (byteCommand _ _).bind fun _ => failIf rfl

theorem macCommand (cmd : UInt8) (params : List (List UInt8)) :
    AccountsN c (Nina.macCommand (E := E) cmd params) :=
  (command _ _ _).bind fun _ => (failIf rfl).bind fun _ => pure _

theorem count12 (n : ℕ) (buf : Buf) : AccountsN c (Nina.count12 (E := E) n buf) := by
  unfold Nina.count12
  split
  · exact pure _
  · exact pure _
  · exact throw rfl

theorem countCommand (cmd : UInt8) (params : List (List UInt8)) :
    AccountsN c (Nina.countCommand (E := E) cmd params) :=
  (command _ _ _).bind fun _ => count12 _ _

/-- A start, whatever it carries. -/
theorem start (params : List (List UInt8)) :
    AccountsN c (do
      EmbassyNina.sendCmd (E := E) cmdStartClientTcp params
      let _ ← EmbassyNina.withBuf 4 (recvCmdInto cmdStartClientTcp)) :=
  (sendCmd _ _).bind fun _ => (withBuf (.recvCmdInto _) 4).bind fun _ => pure _

/-! ## Operations -/

theorem disconnect : AccountsN c (Nina.disconnect (E := E)) :=
  (byteCommand _ _).bind fun _ => pure _

theorem status : AccountsN c (Nina.status (E := E)) := ofByte _ _ _

theorem analogRead (pin : UInt8) : AccountsN c (Nina.analogRead (E := E) pin) :=
  (command _ _ _).bind fun (n, buf) => by
    dsimp only
    split
    · exact pure _
    · exact pure _
    · exact pure _
    · exact throw rfl

theorem scanRssi (index : UInt8) : AccountsN c (Nina.scanRssi (E := E) index) :=
  ofFour _ _ fun buf => Int.bmod (i32OfLe buf) 256

theorem scanEnct (index : UInt8) : AccountsN c (Nina.scanEnct (E := E) index) := ofByte _ _ _

theorem networkInfo (index : UInt8) : AccountsN c (Nina.networkInfo (E := E) index) :=
  (scanRssi index).bind fun _ => (scanEnct index).bind fun _ => (byteCommand _ _).bind fun _ =>
    (macCommand _ _).bind fun _ => pure _

theorem ping (ip : Ipv4) (ttl : UInt8) : AccountsN c (Nina.ping (E := E) ip ttl) :=
  (countCommand _ _).bind fun _ => (failIf rfl).bind fun _ => pure _

/-- **A turn of a lookup** hands every fault on. -/
theorem lookupTurn : AccountsN c (EmbassyNina.lookupTurn (E := E)) := by
  refine (timer 100).bind fun _ => (sendCmd _ _).bind fun _ => handled (recvOne _ 4) fun r => ?_
  rcases r with e | ⟨n, buf⟩
  · cases e with
    | framing | nina => exact .ret ⟨rfl, fun h => h.error_of_ne (by simp)⟩
    | _ => exact .ret ⟨rfl, Care.Kept.error⟩
  · by_cases hn : n = 4
    · subst hn
      by_cases hbuf : buf ≠ [0, 0, 0, 0]
      · rw [onAnswer, if_pos hbuf]
        exact .ret ⟨rfl, fun h => h.ok _⟩
      · rw [onAnswer, if_neg hbuf]
        exact .ret ⟨rfl, fun h => h.ok _⟩
    · rw [onAnswer_short hn]
      exact .ret ⟨rfl, fun h => h.ok _⟩

theorem dnsLookup (hostname : List UInt8) : AccountsN c (Nina.dnsLookup (E := E) hostname) :=
  (byteCommand _ _).bind fun _ => (failIf rfl).bind fun _ =>
    repeatFor lookupTurn (throw rfl) 40

theorem tcpOpenSocket : AccountsN c (Nina.tcpOpenSocket (E := E)) :=
  (byteCommand _ _).bind fun _ => (failIf rfl).bind fun _ => pure _

theorem tcpState (sock : Socket) : AccountsN c (Nina.tcpState (E := E) sock) := ofByte _ _ _

theorem tcpAccept (sock : Socket) : AccountsN c (Nina.tcpAccept (E := E) sock) :=
  (countCommand _ _).bind fun _ => by
    split
    · exact pure _
    · exact pure _

theorem checkDataSent (sock : Socket) : AccountsN c (Nina.checkDataSent (E := E) sock) := by
  refine repeatFor ((byteCommand _ _).bind fun b => ?_) (throw rfl) 20
  split
  · exact pure _
  · exact (timer 50).bind fun _ => pure _

theorem offerChunk (sock : Socket) (chunk : List UInt8) (n written : ℕ) :
    AccountsN c (Nina.offerChunk (E := E) sock chunk n written) := by
  induction n generalizing written with
  | zero => exact pure _
  | succ n ih =>
    refine (sendCmdMixed _ _).bind fun _ => (recvOne _ 4).bind fun _ =>
      (count12 _ _).bind fun written => ?_
    split
    · exact pure _
    · exact ih written

theorem sendChunks (sock : Socket) (cs : List (List UInt8)) (total : ℕ) :
    AccountsN c (Nina.sendChunks (E := E) sock cs total) := by
  induction cs generalizing total with
  | nil => exact pure _
  | cons chunk rest ih =>
    exact (offerChunk sock chunk 5 0).bind fun _ => (failIf rfl).bind fun _ =>
      (checkDataSent sock).bind fun _ => ih _

theorem tcpClose (sock : Socket) : AccountsN c (Nina.tcpClose (E := E) sock) :=
  (byteCommand _ _).bind fun _ => timer 100

theorem udpWrite (sock : Socket) (data : List UInt8) :
    AccountsN c (Nina.udpWrite (E := E) sock data) :=
  (sendCmdMixed _ _).bind fun _ => (recvOne _ 1).bind fun _ => failIf rfl

theorem udpEndPacket (sock : Socket) : AccountsN c (Nina.udpEndPacket (E := E) sock) :=
  (timer 10).bind fun _ => ackedCommand _ _

theorem udpSend (sock : Socket) (ip : Ipv4) (port : UInt16) (data : List UInt8) :
    AccountsN c (Nina.udpSend (E := E) sock ip port data) :=
  (start _).bind fun _ => (timer 20).bind fun _ => (udpWrite sock data).bind fun _ =>
    udpEndPacket sock

/-! ## Operations that drop errors -/

theorem waitForConnected (fuel timeout : ℕ) :
    AccountsN .none (Nina.waitForConnected (E := E) fuel timeout) := by
  refine now.bind fun _ => repeatFor ?_ outOfFuel fuel
  refine now.bind fun _ => (failIf rfl).bind fun _ => (unheeded _).bind fun r => ?_
  split
  · exact pure _
  · exact (timer 250).bind fun _ => pure _

theorem connect (fuel : ℕ) (ssid psk : List UInt8) :
    AccountsN .none (Nina.connect (E := E) fuel ssid psk) := by
  refine repeatFor ?_ (throw rfl) 5
  refine (unheeded _).bind fun _ => (unheeded _).bind fun r => ?_
  cases r with
  | ok u => exact pure _
  | error e => exact (unheeded _).bind fun _ => (timer 2000).bind fun _ => pure _

/-- The close whose result is dropped comes before the error `Timeout`. -/
theorem timedOut (sock : Socket) :
    AccountsN (α := α) .untilTimeout (do
      let _ ← attempt (Nina.tcpClose (E := E) sock)
      MonadExcept.throw .timeout) := by
  rw [AccountsN, run_bind_eq]
  intro tr r hrun
  obtain ⟨r', t₁, t₂, hclose, hret, rfl⟩ := Steps.exists_of_bind hrun
  obtain ⟨r'', t₃, t₄, -, hok, rfl⟩ := Steps.exists_of_bind hclose
  obtain ⟨rfl, rfl⟩ := Steps.done hok
  obtain ⟨rfl, rfl⟩ := Steps.done hret
  exact ⟨List.nil_sublist _, fun h => absurd rfl h⟩

theorem awaitEstablished (n : ℕ) (sock : Socket) :
    AccountsN .untilTimeout (NinaStack.awaitEstablished (E := E) n sock) := by
  refine repeatFor ((tcpState sock).bind fun st => ?_) (timedOut sock) n
  split
  · exact pure _
  · exact (timer 250).bind fun _ => pure _

theorem tcpConnect (ip : Ipv4) (port : UInt16) :
    AccountsN .untilTimeout (Nina.tcpConnect (E := E) ip port) := by
  refine tcpOpenSocket.bind fun sock => (start _).bind fun _ =>
    repeatFor ((tcpState sock).bind fun st => ?_) (timedOut sock) 40
  split
  · exact pure _
  all_goals exact (timer 250).bind fun _ => pure _

theorem stackConnect (mode : UInt8) (remote : SocketAddr) :
    AccountsN .untilTimeout (NinaStack.connect (E := E) mode remote) := by
  cases remote with
  | v4 ip port =>
    exact locked (tcpOpenSocket.bind fun sock => (start _).bind fun _ => awaitEstablished 40 sock)
  | v6 port => exact throw rfl

theorem connectHostname (mode : UInt8) (hostname : List UInt8) (port : UInt16) :
    AccountsN .untilTimeout (NinaStack.connectHostname (E := E) mode hostname port) :=
  locked ((dnsLookup hostname).bind fun _ => tcpOpenSocket.bind fun sock =>
    (start _).bind fun _ => awaitEstablished 80 sock)

end AccountsN

/-! ## Operations on a buffer -/

namespace AccountsB

theorem getFwVersion : AccountsB c (Nina.getFwVersion (E := E)) :=
  (lift (.sendCmd _ _)).bind fun _ => (recvCmdOneParam _).bind fun _ =>
    (sliceTo _).bind fun slice => by
      split
      · exact pure _
      · exact pure _

theorem currentSsid : AccountsB c (Nina.currentSsid (E := E)) :=
  (lift (.sendCmd _ _)).bind fun _ => (recvCmdOneParam _).bind fun _ => sliceTo _

theorem scanNetworks (settleMs : ℕ) : AccountsB c (Nina.scanNetworks (E := E) settleMs) :=
  (lift (.sendCmd _ _)).bind fun _ => (lift (.recvOne _ 1)).bind fun _ =>
    (lift (.timer _)).bind fun _ => (lift (.sendCmd _ _)).bind fun _ =>
    (recvCmdInto _).bind fun _ => (sliceTo _).bind fun _ => pure _

theorem tcpRecv (sock : Socket) : AccountsB c (Nina.tcpRecv (E := E) sock) :=
  len.bind fun _ => (lift (.sendCmdMixed _ _)).bind fun _ => recvCmdOneParam16 _

theorem takeV4 (written cur : ℕ) : AccountsB c (Nina.takeV4 (E := E) written cur) :=
  (failIf rfl).bind fun _ => (getIdx _).bind fun _ => (failIf rfl).bind fun _ =>
    (getIdx _).bind fun _ => (getIdx _).bind fun _ => (getIdx _).bind fun _ =>
    (getIdx _).bind fun _ => pure _

theorem tcpSocketRead (fuel : ℕ) (sock : Socket) :
    AccountsB c (NinaTcpSocket.read (E := E) fuel sock) := by
  refine repeatFor ((tcpRecv sock).bind fun n => ?_) (lift .outOfFuel) fuel
  split
  · exact pure _
  · refine (lift (.tcpState sock)).bind fun st => ?_
    split
    · exact pure _
    · exact (lift (.timer 50)).bind fun _ => pure _

theorem readLocked (sock : Socket) : AccountsB c (NinaSocket.readLocked (E := E) sock) := by
  refine (tcpRecv sock).bind fun n => ?_
  split
  · exact pure _
  · refine (lift (.tcpState sock)).bind fun st => ?_
    split
    · exact pure _
    · exact pure _

theorem socketRead (fuel : ℕ) (sock : Socket) :
    AccountsB c (NinaSocket.read (E := E) fuel sock) := by
  refine repeatFor ((locked (readLocked sock)).bind fun o => ?_) (lift .outOfFuel) fuel
  cases o with
  | some n => exact pure _
  | none => exact (lift (.timer 50)).bind fun _ => pure _

end AccountsB

namespace AccountsN

theorem udpRemote (sock : Socket) : AccountsN c (Nina.udpRemote (E := E) sock) := by
  refine (sendCmd _ _).bind fun _ => (withBuf ?_ 16).bind fun _ => pure _
  exact (AccountsB.recvCmdInto _).bind fun _ => (AccountsB.failIf rfl).bind fun _ =>
    (AccountsB.getIdx _).bind fun _ => (AccountsB.failIf rfl).bind fun _ =>
    (AccountsB.getIdx _).bind fun _ => (AccountsB.getIdx _).bind fun _ =>
    (AccountsB.getIdx _).bind fun _ => (AccountsB.getIdx _).bind fun _ =>
    (AccountsB.getIdx _).bind fun _ => (AccountsB.failIf rfl).bind fun _ =>
    (AccountsB.getIdx _).bind fun _ => (AccountsB.getIdx _).bind fun _ => AccountsB.pure _

theorem ipConfig : AccountsN c (Nina.ipConfig (E := E)) := by
  refine (sendCmd _ _).bind fun _ => (withBuf ?_ 32).bind fun _ => pure _
  exact (AccountsB.recvCmdInto _).bind fun _ => (AccountsB.failIf rfl).bind fun _ =>
    (AccountsB.takeV4 _ _).bind fun _ => (AccountsB.takeV4 _ _).bind fun _ =>
    (AccountsB.takeV4 _ _).bind fun _ => AccountsB.pure _

end AccountsN

/-! ## The faults of a run -/

/-- How much an operation cares. -/
def Op.care : Op → Care
  | .init | .connect .. | .waitForConnected .. => .none
  | .tcpConnect .. | .stackConnect .. | .stackConnectHostname .. => .untilTimeout
  | _ => .full

theorem AccountsN.as {x : Nina E α} (hx : AccountsN c x) (v : α → Value) :
    Accounts Hal.faultOf c.Kept reported (x.as v) :=
  Accounts.bind hx fun r => .inl (.ret ⟨reported_map r v, Care.Kept.of_map⟩)

theorem AccountsB.as {x : BufM E α} (hx : AccountsB c x) (out : Buf) (v : α → Buf → Value) :
    Accounts Hal.faultOf c.Kept reported (x.as out v) :=
  Accounts.bind (hx out) fun r => .inl (.ret ⟨reported_map r.1 _, Care.Kept.of_map⟩)

open AccountsN in
/-- **Every operation but `init` accounts for its faults**, whatever it is answered. -/
theorem accounts_result (fuel : ℕ) {op : Op} (h : op ≠ .init) :
    Accounts (Hal.faultOf (E := E)) op.care.Kept reported (op.result fuel) := by
  cases op with
  | init => exact absurd rfl h
  | connect ssid psk => exact (connect fuel ssid psk).as _
  | waitForConnected timeout => exact (waitForConnected fuel timeout).as _
  | tcpConnect addr port => exact (tcpConnect addr port).as _
  | stackConnect mode remote => exact (stackConnect mode remote).as _
  | stackConnectHostname mode hostname port => exact (connectHostname mode hostname port).as _
  | getFwVersion buf =>
    rw [Op.result]
    exact AccountsB.getFwVersion.as buf _
  | currentSsid buf =>
    rw [Op.result]
    exact AccountsB.currentSsid.as buf _
  | scanNetworks scratch settleMs =>
    rw [Op.result]
    exact (AccountsB.scanNetworks settleMs).as scratch _
  | tcpRecv sock out =>
    rw [Op.result]
    exact (AccountsB.tcpRecv sock).as out _
  | tcpSocketRead sock buf =>
    rw [Op.result]
    exact (AccountsB.tcpSocketRead fuel sock).as buf _
  | socketRead sock buf =>
    rw [Op.result]
    exact (AccountsB.socketRead fuel sock).as buf _
  | connectWpa | scanChannel | getReasonCode => exact (byteCommand _ _).as _
  | macAddr | getCurrentBssid | scanBssid => exact (macCommand _ _).as _
  | scanRssi index => exact (scanRssi index).as _
  | scanEnct | getCurrentEnct | digitalRead | tcpState | status => exact (ofByte _ _ _).as _
  | networkInfo index => exact (networkInfo index).as _
  | tcpListen | setHostname | setNetConfig | setDnsConfig | setPowerSave | pinMode | digitalWrite
  | analogWrite | startApOpen | startApWpa | udpBind => exact (ackedCommand _ _).as _
  | tcpAccept sock => exact (tcpAccept sock).as _
  | getTemperature => exact (ofFour _ _ u32OfLe).as _
  | getCurrentRssi => exact (ofFour _ _ i32OfLe).as _
  | analogRead pin => exact (analogRead pin).as _
  | disconnect => exact disconnect.as _
  | ping addr ttl => exact (ping addr ttl).as _
  | dnsLookup hostname => exact (dnsLookup hostname).as _
  | tcpOpenSocket => exact tcpOpenSocket.as _
  | tcpStartClient | tcpStartClientHostname | udpBeginPacket => exact (start _).as _
  | tcpAvail => exact (countCommand _ _).as _
  | tcpSend sock data | tcpSocketWrite sock data => exact (sendChunks sock _ 0).as _
  | checkDataSent sock => exact (checkDataSent sock).as _
  | udpSend sock addr port data => exact (udpSend sock addr port data).as _
  | udpWrite sock data => exact (udpWrite sock data).as _
  | udpEndPacket sock => exact (udpEndPacket sock).as _
  | udpRemote sock => exact (udpRemote sock).as _
  | tcpClose sock | tcpSocketClose sock => exact (tcpClose sock).as _
  | ip => exact (ipConfig.bind fun c => pure c.ip).as _
  | ipConfig => exact ipConfig.as _
  | stackGetHostByName host addrType =>
    cases addrType with
    | ipv6 => exact (throw rfl : AccountsN _ (NinaStack.getHostByName host .ipv6)).as _
    | ipv4 | either => exact (locked (dnsLookup host)).as _
  | socketWrite sock buf => exact (locked (sendChunks sock _ 0)).as _

/-- **The failures of a run are what its results report**: in a sequence of operations none of which
resets the chip, every `Error::Pin` and `Error::Spi` that is returned tells of one failure of the
pins or of the bus, in order; and where no result is one for which an error may have been dropped,
of every one.  The failures meant are those of the wait for ACK to go LOW, of the selection and of
the bus: a chip that cannot be deselected, or an ACK that cannot be waited for to go HIGH, nobody
notices. -/
theorem Op.reports (fuel : ℕ) {ops : List Op} (h : .init ∉ ops) {tr : List (Event (halSig E))}
    {rs : List (Result E)} (hrun : Steps (ops.mapM (Op.result fuel)) tr (.ret rs)) :
    (rs.flatMap reported).Sublist (faults tr) ∧
      (List.Forall₂ (fun op r => op.care.Kept r) ops rs → rs.flatMap reported = faults tr) := by
  have hops : ∀ op ∈ ops, Accounts (Hal.faultOf (E := E)) op.care.Kept reported (op.result fuel) :=
    fun op hop => accounts_result fuel fun hinit => h (hinit ▸ hop)
  exact Accounts.mapM hops tr rs hrun

/-- A run in which the chip is not ready for a connect, and the bus fails when its status is asked
for, as does the pin that deselects the chip. -/
def flakyRun : List (Event (halSig ℕ)) :=
  [⟨.ackWaitForLow, .error ()⟩, ⟨.ackWaitForLow, .ok ()⟩, ⟨.csSetLow, .ok ()⟩,
    ⟨.ackWaitForHighOr ackAfterCsMs, ()⟩, ⟨.busWrite [startCmd, cmdGetConnStatus, 1], .error 7⟩,
    ⟨.csSetHigh, .error ()⟩]

theorem steps_flakyRun :
    Steps ([Op.tcpConnect #v[10, 0, 0, 1] 80, .status].mapM (Op.result (E := ℕ) 0)) flakyRun
      (.ret [.error .pin, .error (.spi 7)]) :=
  .ask _ (.ask _ (.ask _ (.ask _ (.ask _ (.ask _ (.refl _))))))

/-- The first two failures are reported, though a connect that times out may drop one; the third is
not looked at. -/
theorem Op.reports_flakyRun : faults flakyRun = [.pin, .spi 7] :=
  ((Op.reports 0 (by simp) steps_flakyRun).2
    (.cons (by simp [Op.care, Care.Kept]) (.cons trivial .nil))).symm

end EmbassyNina
