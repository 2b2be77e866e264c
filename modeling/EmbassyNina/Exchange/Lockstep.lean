import EmbassyNina.Exchange.Bracket

/-!
# Exchange/Lockstep — requests and replies alternate

The automaton `lockstep` reads CS windows.  A request window leaves a reply owed for the opcode its
frame carries; only a reply window may follow, and in it the host may clock on past the reply's
opcode byte only if that byte is the request's opcode with `REPLY_FLAG` set.  Delays, the mutex and
the reset pins may be used only when nothing is owed.

The automaton takes pins not to fail, as the driver's error type does; a request cut short by the
bus is not a request, and owes nothing.
-/

namespace EmbassyNina

open Machinery Prog

variable {E : Type} {α β : Type}

/-- The opcode byte of a reply: the one after the first `startCmd`, once it has been clocked in. -/
def replyOpcode : List UInt8 → Option UInt8
  | [] => none
  | b :: rest => if b = startCmd then rest.head? else replyOpcode rest

/-- Where the exchange stands. -/
inductive Phase
  | idle
  | request (sent : List UInt8)
  | spoilt
  | owed (op : UInt8)
  | reply (op : UInt8) (got : List UInt8)
deriving DecidableEq, Repr

/-- The phase after a request window: a frame has been sent, for the opcode in its second byte. -/
def Phase.closeRequest : List UInt8 → Option Phase
  | b :: op :: _ => if b = startCmd then some (.owed op) else none
  | _ => none

/-- More of a reply may be clocked in as long as its opcode byte is the right one. -/
def MayClock (op : UInt8) (got : List UInt8) : Prop := ∀ b ∈ replyOpcode got, b = op ||| replyFlag

instance (op : UInt8) (got : List UInt8) : Decidable (MayClock op got) := by
  unfold MayClock
  infer_instance

/-- One event of the lockstep automaton. -/
def Phase.next : Phase → (e : Hal) → e.Ans E → Option Phase
  | .idle, .csSetLow, .ok _ => some (.request [])
  | .idle, .busWrite _, _ | .idle, .busTransfer _, _ | .idle, .ackWaitForHighOr _, _ => none
  | .idle, _, _ => some .idle
  | .request sent, .ackWaitForHighOr _, _ => some (.request sent)
  | .request sent, .busWrite bytes, .ok _ => some (.request (sent ++ bytes))
  | .request _, .busWrite _, .error _ => some .spoilt
  | .request sent, .csSetHigh, _ => Phase.closeRequest sent
  | .spoilt, .csSetHigh, _ => some .idle
  | .owed op, .ackWaitForLow, _ => some (.owed op)
  | .owed op, .csSetLow, .ok _ => some (.reply op [])
  | .reply op got, .ackWaitForHighOr _, _ => some (.reply op got)
  | .reply op got, .busTransfer _, r =>
    if MayClock op got then
      match r with
      | .ok bytes => some (.reply op (got ++ bytes.toList))
      | .error _ => some (.reply op got)
    else none
  | .reply _ _, .csSetHigh, _ => some .idle
  | _, _, _ => none

/-- The pin calls that can fail do not. -/
def Hal.PinsWork : (e : Hal) → e.Ans E → Prop
  | .ackWaitForLow, r | .csSetLow, r | .csSetHigh, r => r = .ok ()
  | .rstSetLow, r | .rstSetHigh, r | .bootSetLow, r | .bootSetHigh, r => r = .ok ()
  | _, _ => True

/-- **The lockstep automaton**, against every answer of the bus. -/
def lockstep (E : Type) : Monitor (halSig E) Phase where
  may := Hal.PinsWork
  next := Phase.next

/-! ## The opcode of a reply -/

theorem replyOpcode_append_start {got : List UInt8} (h : startCmd ∉ got) (rest : List UInt8) :
    replyOpcode (got ++ startCmd :: rest) = rest.head? := by
  induction got with
  | nil => simp [replyOpcode]
  | cons b got ih =>
    rw [List.mem_cons, not_or] at h
    obtain ⟨hb, hgot⟩ := h
    rw [List.cons_append, replyOpcode, if_neg (Ne.symm hb), ih hgot]

theorem replyOpcode_eq_none {got : List UInt8} (h : startCmd ∉ got) : replyOpcode got = none := by
  induction got with
  | nil => rfl
  | cons b got ih =>
    rw [List.mem_cons, not_or] at h
    obtain ⟨hb, hgot⟩ := h
    rw [replyOpcode, if_neg (Ne.symm hb), ih hgot]

/-- Once it is there, the opcode byte does not change. -/
theorem replyOpcode_append {got : List UInt8} {b : UInt8} (h : replyOpcode got = some b)
    (more : List UInt8) : replyOpcode (got ++ more) = some b := by
  induction got with
  | nil => exact absurd h (by simp [replyOpcode])
  | cons a got ih =>
    rw [replyOpcode] at h
    rw [List.cons_append, replyOpcode]
    split at h
    · rename_i ha
      rw [if_pos ha]
      cases got with
      | nil => exact absurd h (by simp)
      | cons c got => exact h
    · rename_i ha
      rw [if_neg ha]
      exact ih h

theorem mayClock_of_none {op : UInt8} {got : List UInt8} (h : replyOpcode got = none) :
    MayClock op got := by simp [MayClock, h]

theorem mayClock_of_some {op b : UInt8} {got : List UInt8} (h : replyOpcode got = some b)
    (hb : b = op ||| replyFlag) : MayClock op got := by simp [MayClock, h, hb]

/-! ## Request windows -/

/-- In a request window `x` adds to what was sent, or fails with the frame cut short. -/
def Streams (x : Nina E α) : Prop :=
  ∀ sent, (lockstep E).Safe (fun r s => match r with
    | .ok _ => ∃ more, s = .request (sent ++ more)
    | .error _ => s = .spoilt) x.run (.request sent)

theorem streams_pure (a : α) : Streams (pure a : Nina E α) :=
  fun sent => ⟨[], by rw [List.append_nil]⟩

theorem streams_write (bytes : List UInt8) : Streams (Nina.write (E := E) bytes) := by
  intro sent r _
  cases r with
  | ok _ => exact ⟨_, rfl, bytes, rfl⟩
  | error _ => exact ⟨_, rfl, rfl⟩

theorem Streams.bind {x : Nina E α} {f : α → Nina E β} (hx : Streams x) (hf : ∀ a, Streams (f a)) :
    Streams (x >>= f) := by
  intro sent
  refine Monitor.safe_run_bind.mpr ((hx sent).mono fun r s hs => ?_)
  cases r with
  | error e => exact hs
  | ok a =>
    obtain ⟨more, rfl⟩ := hs
    refine (hf a (sent ++ more)).mono fun r' s' hs' => ?_
    cases r' with
    | error e => exact hs'
    | ok b =>
      obtain ⟨more', rfl⟩ := hs'
      exact ⟨more ++ more', by rw [List.append_assoc]⟩

theorem streams_padLoop (n total : ℕ) : Streams (padLoop (E := E) n total) := by
  induction n generalizing total with
  | zero => exact fun _ => rfl
  | succ n ih =>
    unfold padLoop
    split
    · exact streams_pure ()
    · exact (streams_write _).bind fun _ => ih _

theorem streams_writeParams (params : List (List UInt8)) (total : ℕ) :
    Streams (writeParams (E := E) params total) := by
  induction params generalizing total with
  | nil => exact streams_pure _
  | cons p params ih =>
    exact (streams_write _).bind fun _ => (streams_write _).bind fun _ => ih _

/-- What a sender leaves behind: a reply owed for its opcode, or nothing. -/
def Sent (c : UInt8) (r : Except (Error E) Unit) (s : Phase) : Prop :=
  match r with
  | .ok _ => s = .owed (c &&& ~~~replyFlag)
  | .error _ => s = .idle

/-- A frame of opcode `c` is being written, or was cut short. -/
def Sending (c : UInt8) (r : Except (Error E) Unit) (s : Phase) : Prop :=
  match r with
  | .ok _ => ∃ more, s = .request (startCmd :: (c &&& ~~~replyFlag) :: more)
  | .error _ => s = .spoilt

theorem sending_sendCmdBody (c : UInt8) (params : List (List UInt8)) :
    (lockstep E).Safe (Sending c) (sendCmdBody c params).run (.request []) := by
  have htail : Streams (E := E) (do
      let total ← writeParams params 3
      Nina.write [endCmd]
      padTo4 (total + 1)) :=
    (streams_writeParams params 3).bind fun _ => (streams_write _).bind fun _ =>
      streams_padLoop 4 _
  refine Monitor.safe_run_bind.mpr fun r _ => ?_
  cases r with
  | error e => exact ⟨_, rfl, rfl⟩
  | ok _ =>
    refine ⟨_, rfl, (htail _).mono fun r s hs => ?_⟩
    cases r with
    | error e => exact hs
    | ok _ =>
      obtain ⟨more, rfl⟩ := hs
      exact ⟨_ :: more, rfl⟩

/-- **A request window leaves its reply owed**, unless the bus cut it short. -/
theorem lockstep_request {c : UInt8} {body : Prog (halSig E) (Except (Error E) Unit)}
    (hb : (lockstep E).Safe (Sending c) body (.request [])) :
    (lockstep E).Safe (Sent c) (selected .error body) .idle := by
  have hclose : (lockstep E).Safe (Sent c)
      (body.bind fun res => (hal .csSetHigh).bind fun _ => .ret res) (.request []) := by
    refine Monitor.safe_bind.mpr (hb.mono fun res s hs => ?_)
    cases res with
    | error e =>
      obtain rfl : s = .spoilt := hs
      exact fun r _ => ⟨_, rfl, rfl⟩
    | ok _ =>
      obtain ⟨more, rfl⟩ := hs
      exact fun r _ => ⟨_, rfl, rfl⟩
  intro r hr
  obtain rfl : r = .ok () := hr
  refine ⟨_, rfl, fun r hr => ?_⟩
  obtain rfl : r = .ok () := hr
  exact ⟨_, rfl, fun _ _ => ⟨_, rfl, hclose⟩⟩

theorem lockstep_sends {c : UInt8} {send : Prog (halSig E) (Except (Error E) Unit)}
    (hs : Sends c send) : (lockstep E).Safe (Sent c) send .idle := by
  cases hs with
  | short params =>
    rw [sendCmd_run]
    exact lockstep_request (sending_sendCmdBody c params)
  | mixed params =>
    rw [sendCmdMixed_run_eq]
    split
    · obtain ⟨more, hmore⟩ := frame_eq_cons c params
      refine lockstep_request fun r _ => ?_
      cases r with
      | error e => exact ⟨_, rfl, rfl⟩
      | ok _ => exact ⟨_, rfl, more, congrArg Phase.request hmore⟩
    · exact rfl

/-! ## Reply windows -/

/-- Some of the reply to `op` has been clocked in. -/
def InReply (op : UInt8) (s : Phase) : Prop := ∃ got, s = .reply op got

/-- The reply's opcode byte has been read, and is the right one: whatever more is transferred stays
in the window. -/
theorem lockstep_opened {op : UInt8} {Q : β → Prop} {p : Prog (halSig E) β}
    (hp : p.Does (S := halSig E) Hal.IsDummyTransfer Q) {got : List UInt8}
    (hgot : replyOpcode got = some (op ||| replyFlag)) :
    (lockstep E).Safe (fun a s => Q a ∧ InReply op s) p (.reply op got) := by
  have hstep : ∀ s e r, (∃ got, s = Phase.reply op got ∧
      replyOpcode got = some (op ||| replyFlag)) → Hal.IsDummyTransfer e → (lockstep E).may e r →
      ∃ s', (lockstep E).next s e r = some s' ∧ ∃ got, s' = Phase.reply op got ∧
        replyOpcode got = some (op ||| replyFlag) := by
    rintro s e r ⟨got, rfl, hgot⟩ he -
    cases e with
    | busTransfer bytes =>
      have hmay : MayClock op got := mayClock_of_some hgot rfl
      cases r with
      | ok v => exact ⟨_, if_pos hmay, _, rfl, replyOpcode_append hgot _⟩
      | error e => exact ⟨_, if_pos hmay, _, rfl, hgot⟩
    | _ => exact he.elim
  exact (Monitor.safe_of_does hstep hp ⟨got, rfl, hgot⟩).mono
    fun _ _ ⟨hQ, got, hs, _⟩ => ⟨hQ, got, hs⟩

/-- One transfer, of which nothing is known but that it is allowed. -/
theorem lockstep_transfer {op : UInt8} {got : List UInt8} (hmay : MayClock op got) (k : ℕ)
    (out : Buf) :
    (lockstep E).Safe (fun r s => r.2 = out ∧ match r.1 with
      | .ok bytes => bytes.length = k ∧ s = .reply op (got ++ bytes)
      | .error _ => InReply op s) ((BufM.transfer k).run out) (.reply op got) := by
  intro r _
  cases r with
  | ok v => exact ⟨_, if_pos hmay, rfl, by simp, rfl⟩
  | error e => exact ⟨_, if_pos hmay, rfl, _, rfl⟩

/-- What the hunt leaves: no `startCmd` yet, or one just clocked in. -/
def Hunted (op : UInt8) (out : Buf) (r : Except (Error E) UInt8 × Buf) (s : Phase) : Prop :=
  r.2 = out ∧ ∃ got, s = .reply op got ∧ ∀ b, r.1 = .ok b → b = startCmd →
    ∃ junk, startCmd ∉ junk ∧ got = junk ++ [startCmd]

theorem lockstep_huntStart (op : UInt8) (n : ℕ) {byte : UInt8} (hbyte : byte ≠ startCmd)
    (out : Buf) {got : List UInt8} (hgot : startCmd ∉ got) :
    (lockstep E).Safe (Hunted op out) ((huntStart n byte).run out) (.reply op got) := by
  induction n generalizing byte got with
  | zero => exact ⟨rfl, got, rfl, fun b hb hs => absurd (Except.ok.inj hb ▸ hs) hbyte⟩
  | succ n ih =>
    have hmay : MayClock op got := mayClock_of_none (replyOpcode_eq_none hgot)
    rw [huntStart, BufM.run_bind]
    refine Monitor.safe_bind.mpr ((lockstep_transfer hmay 1 out).mono ?_)
    rintro ⟨r, out'⟩ s ⟨rfl, hs⟩
    cases r with
    | error e =>
      obtain ⟨got', rfl⟩ := hs
      exact ⟨rfl, got', rfl, fun b hb => by cases hb⟩
    | ok bytes =>
      obtain ⟨hlen, rfl⟩ := hs
      obtain ⟨b, rfl⟩ := List.length_eq_one_iff.mp hlen
      change (lockstep E).Safe _ (BufM.run (if b = startCmd then pure b else do
        BufM.failIf (b = errCmd) .nina
        huntStart n b) _) _
      split
      · rename_i hb
        exact ⟨rfl, _, rfl, fun _ _ _ => ⟨got, hgot, hb ▸ rfl⟩⟩
      · rename_i hb
        have hgot' : startCmd ∉ got ++ [b] := by
          simp only [List.mem_append, List.mem_singleton, not_or]
          exact ⟨hgot, Ne.symm hb⟩
        rw [BufM.run_bind]
        by_cases herr : b = errCmd
        · rw [run_failIf_pos herr]
          exact ⟨rfl, _, rfl, fun _ h => by cases h⟩
        · rw [run_failIf_neg herr]
          exact ih hb hgot'

/-- **Every receiver reads the opcode byte before it clocks on**: the hunt, the header, the check on
its first byte, and then the rest. -/
theorem lockstep_opened_run {cmd op byte : UInt8} (hop : op ||| replyFlag = cmd ||| replyFlag)
    (hbyte : byte ≠ startCmd) {k n : ℕ} (hk : 0 < k) {Q : α → Prop}
    {tail : List UInt8 → BufM E α} (htail : ∀ hdr, DoesB Hal.IsDummyTransfer n Q (tail hdr))
    {out : Buf} (hout : out.length = n) :
    (lockstep E).Safe (fun r s => OnBuf n Q r ∧ InReply op s) ((opened cmd byte k tail).run out)
      (.reply op []) := by
  rw [opened, BufM.run_bind]
  refine Monitor.safe_bind.mpr ((lockstep_huntStart op _ hbyte out List.not_mem_nil).mono ?_)
  rintro ⟨r, out'⟩ s ⟨rfl, got, rfl, hfound⟩
  cases r with
  | error e => exact ⟨onBuf_error hout, got, rfl⟩
  | ok byte =>
    rw [BufM.onOk, BufM.run_bind]
    by_cases hstart : byte = startCmd
    · rw [run_failIf_neg (not_not.mpr hstart), Prog.ret_bind, BufM.onOk, BufM.run_bind]
      obtain ⟨junk, hjunk, rfl⟩ := hfound byte rfl hstart
      have hmay : MayClock op (junk ++ [startCmd]) :=
        mayClock_of_none (by rw [replyOpcode_append_start hjunk, List.head?_nil])
      refine Monitor.safe_bind.mpr ((lockstep_transfer hmay k _).mono ?_)
      rintro ⟨r, out''⟩ s ⟨rfl, hs⟩
      cases r with
      | error e => exact ⟨onBuf_error hout, hs⟩
      | ok hdr =>
        obtain ⟨hlen, rfl⟩ := hs
        rw [BufM.onOk, BufM.run_bind]
        by_cases hcmd : hdr.getD 0 0 = cmd ||| replyFlag
        · rw [run_failIf_neg (not_not.mpr hcmd), Prog.ret_bind, BufM.onOk]
          refine lockstep_opened (htail hdr _ hout) ?_
          obtain ⟨b, hdr, rfl⟩ := List.exists_cons_of_length_pos (hlen ▸ hk)
          rw [List.append_assoc, List.singleton_append, replyOpcode_append_start hjunk, hop, ← hcmd]
          rfl
        · rw [run_failIf_pos hcmd]
          exact ⟨onBuf_error hout, _, rfl⟩
    · rw [run_failIf_pos hstart]
      exact ⟨onBuf_error hout, got, rfl⟩

/-- **A reply window settles what is owed.** -/
theorem lockstep_received {op : UInt8} {n : ℕ} {Q : α → Prop} {inner : BufM E α} {out : Buf}
    (hi : (lockstep E).Safe (fun r s => OnBuf n Q r ∧ InReply op s) (inner.run out)
      (.reply op [])) :
    (lockstep E).Safe (fun r s => OnBuf n Q r ∧ s = .idle) ((received inner).run out)
      (.owed op) := by
  have hclose : (lockstep E).Safe (fun r s => OnBuf n Q r ∧ s = .idle)
      ((inner.run out).bind fun res => (hal .csSetHigh).bind fun _ => .ret res) (.reply op []) := by
    refine Monitor.safe_bind.mpr (hi.mono ?_)
    rintro res _ ⟨hres, got, rfl⟩ r _
    exact ⟨_, rfl, hres, rfl⟩
  rw [received_run]
  intro r hr
  obtain rfl : r = .ok () := hr
  refine ⟨_, rfl, fun r hr => ?_⟩
  obtain rfl : r = .ok () := hr
  exact ⟨_, rfl, fun _ _ => ⟨_, rfl, hclose⟩⟩

theorem lockstep_receives {c op : UInt8} (hop : op ||| replyFlag = c ||| replyFlag)
    {post : β → Prop} {recv : Prog (halSig E) β} (hr : Receives c post recv) :
    (lockstep E).Safe (fun b s => post b ∧ s = .idle) recv (.owed op) := by
  cases hr with
  | one out =>
    exact lockstep_received (lockstep_opened_run hop (by decide) (by decide) doesB_oneParamTail rfl)
  | one16 out =>
    exact lockstep_received
      (lockstep_opened_run hop (by decide) (by decide) doesB_oneParam16Tail rfl)
  | into out =>
    exact lockstep_received (lockstep_opened_run hop (by decide) (by decide) doesB_intoTail rfl)

/-! ## Operations -/

/-- A call between exchanges needs nothing owed. -/
theorem Phase.next_between {e : Hal} (he : e.Between) (r : e.Ans E) :
    Phase.next .idle e r = some .idle := by
  cases e <;> first | rfl | exact he.elim

/-- **A program made of exchanges keeps requests and replies in lockstep.** -/
theorem lockstep_exchanges {Q : α → Prop} {p : Prog (halSig E) α} (hp : ExchangesTo Q p) :
    (lockstep E).Safe (fun _ s => s = .idle) p .idle := by
  induction hp with
  | ret _ => exact rfl
  | fuel => exact rfl
  | between he _ ih => exact fun r _ => ⟨.idle, Phase.next_between he r, ih r⟩
  | reset hok _ _ iherr ihk =>
    intro r _
    refine ⟨.idle, rfl, ?_⟩
    cases r with
    | error _ => exact iherr
    | ok _ =>
      rw [hok]
      exact fun r _ => ⟨.idle, rfl, ihk r⟩
  | exchange hse hre hok _ _ iherr ihk =>
    refine Monitor.safe_bind.mpr ((lockstep_sends hse).mono fun r s hs => ?_)
    cases r with
    | error e =>
      obtain rfl : s = .idle := hs
      exact iherr e
    | ok _ =>
      obtain rfl : s = .owed _ := hs
      rw [hok]
      refine Monitor.safe_bind.mpr ((lockstep_receives (and_not_or_replyFlag _) hre).mono ?_)
      rintro b _ ⟨hb, rfl⟩
      exact ihk b hb

theorem Hal.pinsWork_of_works {e : Hal} {r : e.Ans E} (h : e.Works r) : e.PinsWork r := by
  cases e <;> first | exact h | trivial

theorem possible_of_works {tr : List (Event (halSig E))} (h : Works tr) :
    (lockstep E).Possible tr := fun ev hev => Hal.pinsWork_of_works (h ev hev)

/-- **Request and reply stay in lockstep over whole runs.**  When neither bus nor pins fail, any run
of operations alternates request and reply windows, each reply read for the opcode of the request
before it and clocked on only past that opcode; and nothing is owed when the operations are over. -/
theorem Op.lockstep (fuel : ℕ) (ops : List Op) {tr : List (Event (halSig E))}
    {q : Prog (halSig E) Unit} (h : Steps (Op.runAll fuel ops) tr q) (hw : Works tr) :
    ∃ s, (EmbassyNina.lockstep E).run .idle tr = some s ∧ (∀ u, q = .ret u → s = .idle) ∧
      q ≠ .halt .panic := by
  obtain ⟨s, hs, hq⟩ := (lockstep_exchanges (Op.exchanges_runAll fuel ops)).steps h
    (possible_of_works hw)
  refine ⟨s, hs, ?_, ?_⟩
  · rintro u rfl
    exact hq
  · rintro rfl
    exact absurd (Monitor.safe_halt.mp hq) (by decide)

/-- A reset, a lookup and a read, by a chip that says nothing. -/
theorem Op.lockstep_quietChip :
    ∃ s, (EmbassyNina.lockstep Unit).run .idle ((quietChip Unit).trace
        (Op.runAll 3 [.init, .dnsLookup [0x61], .tcpSocketRead ⟨0⟩ [0, 0]]) ()) = some s := by
  obtain ⟨s, hs, -, -⟩ := Op.lockstep 3 [.init, .dnsLookup [0x61], .tcpSocketRead ⟨0⟩ [0, 0]]
    ((quietChip Unit).steps_trace _ ()) (works_trace quietChip_works _ ())
  exact ⟨s, hs⟩

end EmbassyNina
