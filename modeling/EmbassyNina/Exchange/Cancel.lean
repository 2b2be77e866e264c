import EmbassyNina.Exchange.Lockstep

/-!
# Exchange/Cancel — dropping a call at an await point

Nothing in the driver cleans up after a call whose future is dropped, so what a drop leaves behind
is decided by the await point alone.  At a delay, at the mutex and in the ack wait that begins a
send, CS is HIGH and nothing is owed, and whatever operations come next are bracketed and in
lockstep.  Inside a window CS stays LOW, and in the ack wait that begins a receive the request
stays unanswered (`Op.dropped`).
-/

namespace EmbassyNina

open Machinery Prog

variable {E : Type} {α β : Type}

/-- The calls at which a future may be dropped. -/
def Hal.IsAwait : Hal → Prop
  | .ackWaitForLow | .ackWaitForHighOr _ | .busWrite _ | .busTransfer _ | .timer _ | .lock => True
  | _ => False

/-- The awaits of a CS window. -/
def Hal.InWindow : Hal → Prop
  | .ackWaitForHighOr _ | .busWrite _ | .busTransfer _ => True
  | _ => False

/-- The program is about to receive. -/
def AtReceive (q : Prog (halSig E) α) : Prop :=
  ∃ (β : Type) (c : UInt8) (post : β → Prop) (recv : Prog (halSig E) β)
    (k : β → Prog (halSig E) α), Receives c post recv ∧ q = recv.bind k

/-- **The driver is usable after the trace `tr`**: CS is HIGH, and every request that was sent has
had its reply window. -/
structure Usable (tr : List (Event (halSig E))) : Prop where
  released : ∃ s, (bracket E).run .high tr = some s ∧ s.Released
  settled : (lockstep E).run .idle tr = some .idle

/-! ## The ack wait is the first call of its window -/

/-- `p` waits for ack LOW only as its first call. -/
def WaitsFirst (p : Prog (halSig E) α) : Prop :=
  ∀ (tr : List (Event (halSig E))) (k : Except Unit Unit → Prog (halSig E) α),
    Steps p tr (.ask (S := halSig E) .ackWaitForLow k) → tr = []

/-- A program that never waits for ack LOW. -/
theorem not_steps_ackWait {p : Prog (halSig E) α} {Q : α → Prop}
    (hp : p.Does (S := halSig E) (· ≠ .ackWaitForLow) Q) {tr : List (Event (halSig E))}
    {k : Except Unit Unit → Prog (halSig E) α} :
    ¬ Steps p tr (.ask (S := halSig E) .ackWaitForLow k) := fun h => (h.does hp).1 rfl

theorem waitsFirst_selected {fail : Error E → β} {body : Prog (halSig E) β} {Q : β → Prop}
    (hb : body.Does (S := halSig E) (· ≠ .ackWaitForLow) Q) :
    WaitsFirst (selected fail body) := by
  obtain ⟨k₀, hsel, hrest⟩ : ∃ k₀ : Except Unit Unit → Prog (halSig E) β,
      selected fail body = .ask (S := halSig E) .ackWaitForLow k₀ ∧
        ∀ r, (k₀ r).Does (S := halSig E) (· ≠ .ackWaitForLow) (fun _ => True) :=
    ⟨_, rfl, fun
      | .error _ => trivial
      | .ok _ => ⟨nofun, fun
        | .error _ => trivial
        | .ok _ => ⟨nofun, fun _ => hb.bind fun _ _ => ⟨nofun, fun _ => trivial⟩⟩⟩⟩
  rw [hsel]
  intro tr k h
  cases h with
  | refl => rfl
  | ask r h => exact absurd h (not_steps_ackWait (hrest r))

theorem Hal.ne_ackWait_of_isWrite {e : Hal} (h : e.IsWrite) : e ≠ .ackWaitForLow := by
  rintro rfl
  exact h

theorem Hal.ne_ackWait_of_isDummyTransfer {e : Hal} (h : e.IsDummyTransfer) :
    e ≠ .ackWaitForLow := by
  rintro rfl
  exact h

theorem waitsFirst_sends {c : UInt8} {send : Prog (halSig E) (Except (Error E) Unit)}
    (hs : Sends c send) : WaitsFirst send := by
  cases hs with
  | short params =>
    exact waitsFirst_selected
      (Does.weaken (does_sendCmdBody c params) fun _ => Hal.ne_ackWait_of_isWrite)
  | mixed params =>
    rw [sendCmdMixed_run_eq]
    split
    · exact waitsFirst_selected (Does.weaken (does_write _) fun _ => Hal.ne_ackWait_of_isWrite)
    · exact fun _ _ h => (Steps.ret_iff.mp h).1

theorem waitsFirst_received {n : ℕ} {Q : α → Prop} {inner : BufM E α}
    (hi : DoesB Hal.IsDummyTransfer n Q inner) {out : Buf} (hout : out.length = n) :
    WaitsFirst ((received inner).run out) := by
  rw [received_run]
  exact waitsFirst_selected (Does.weaken (hi out hout) fun _ => Hal.ne_ackWait_of_isDummyTransfer)

theorem waitsFirst_receives {c : UInt8} {post : β → Prop} {recv : Prog (halSig E) β}
    (hr : Receives c post recv) : WaitsFirst recv := by
  cases hr with
  | one out => exact waitsFirst_received (doesB_recvCmdOneParamInner c) rfl
  | one16 out => exact waitsFirst_received (doesB_recvCmdOneParam16Inner c) rfl
  | into out => exact waitsFirst_received (doesB_recvCmdIntoInner c) rfl

/-! ## Where an operation waits -/

/-- A receiver's body begins with a transfer. -/
theorem opened_run_asks (cmd byte : UInt8) (k : ℕ) (tail : List UInt8 → BufM E α) (out : Buf) :
    ∃ bytes k', (opened cmd byte k tail).run out = .ask (S := halSig E) (.busTransfer bytes) k' :=
  ⟨_, _, rfl⟩

/-- A receive cannot start unless a reply is owed: its first transfer would be in a request
window. -/
theorem not_atReceive_of_idle {Q : α → Phase → Prop} {q : Prog (halSig E) α}
    (h : (lockstep E).Safe Q q .idle) : ¬ AtReceive q := by
  rintro ⟨β, c, post, recv, k, hr, rfl⟩
  obtain ⟨out, fail, inner, rfl, bytes, k', hinner⟩ :
      ∃ (out : Buf) (fail : Error E → β) (inner : Prog (halSig E) β),
        recv = selected fail inner ∧
          ∃ bytes k', inner = .ask (S := halSig E) (.busTransfer bytes) k' := by
    cases hr with
    | one out => exact ⟨out, _, _, received_run _ out, opened_run_asks c 0 3 oneParamTail out⟩
    | one16 out => 
      exact ⟨out, _, _, received_run _ out, opened_run_asks c dummy 2 oneParam16Tail out⟩
    | into out => exact ⟨out, _, _, received_run _ out, opened_run_asks c dummy 2 intoTail out⟩
  obtain ⟨_, h₁, h⟩ := h (.ok ()) rfl
  obtain rfl := Option.some.inj h₁
  obtain ⟨_, h₂, h⟩ := h (.ok ()) rfl
  obtain rfl := Option.some.inj h₂
  obtain ⟨_, h₃, h⟩ := h () trivial
  obtain rfl := Option.some.inj h₃
  rw [hinner] at h
  obtain ⟨_, h₄, -⟩ := h (Hal.success (.busTransfer bytes)) trivial
  exact absurd h₄ (by simp [lockstep, Phase.next])

/-- **An operation waiting for ack LOW** is about to send, with nothing owed, or to receive. -/
theorem idle_or_atReceive {Q : α → Prop} {p : Prog (halSig E) α} (hp : ExchangesTo Q p)
    {tr : List (Event (halSig E))} {k : Except Unit Unit → Prog (halSig E) α}
    (h : Steps p tr (.ask (S := halSig E) .ackWaitForLow k)) (hm : (lockstep E).Possible tr) :
    (lockstep E).run .idle tr = some .idle ∨ AtReceive (.ask (S := halSig E) .ackWaitForLow k) := by
  induction hp generalizing tr with
  | ret _ => exact absurd (Steps.ret_iff.mp h).2 nofun
  | fuel => exact absurd (Steps.halt_iff.mp h).2 nofun
  | between he _ ih =>
    cases h with
    | refl => exact he.elim
    | ask r h =>
      obtain ⟨-, hm⟩ := ((lockstep E).possible_cons).mp hm
      rw [Monitor.run]
      change ((Phase.next .idle _ r).bind _) = _ ∨ _
      rw [Phase.next_between he r]
      exact ih r h hm
  | reset hok _ _ iherr ihk =>
    cases h with
    | ask r h =>
      obtain ⟨hr, hm₁⟩ := ((lockstep E).possible_cons).mp hm
      obtain rfl : r = .ok () := hr
      rw [hok] at h
      cases h with
      | ask r' h =>
        obtain ⟨-, hm₂⟩ := ((lockstep E).possible_cons).mp hm₁
        have hrest := ihk r' h hm₂
        exact hrest
  | exchange hse hre hok _ _ iherr ihk =>
    rcases Steps.bind_cases h with ⟨p', hsend, hne, hp'⟩ | ⟨r, t₁, t₂, hsend, h, rfl⟩
    · obtain ⟨k', rfl⟩ := Steps.ask_of_bind hne hp'
      obtain rfl := waitsFirst_sends hse _ _ hsend
      exact .inl rfl
    · obtain ⟨hm₁, hm₂⟩ := ((lockstep E).possible_append).mp hm
      obtain ⟨s, hs, hsent⟩ := (lockstep_sends hse).steps hsend hm₁
      rw [Monitor.run_append, hs, Option.bind_some]
      cases r with
      | error e =>
        obtain rfl : s = .idle := hsent
        exact iherr e h hm₂
      | ok _ =>
        obtain rfl : s = .owed _ := hsent
        rw [hok] at h
        rcases Steps.bind_cases h with ⟨p', hrecv, hne, hp'⟩ | ⟨b, t₃, t₄, hrecv, h₄, rfl⟩
        · obtain ⟨k', rfl⟩ := Steps.ask_of_bind hne hp'
          obtain rfl := waitsFirst_receives hre _ _ hrecv
          rw [Steps.nil_iff.mp hrecv] at hp'
          exact .inr ⟨_, _, _, _, _, hre, hp'⟩
        · obtain ⟨hm₃, hm₄⟩ := ((lockstep E).possible_append).mp hm₂
          obtain ⟨s, hs, hb, rfl⟩ :=
            (lockstep_receives (and_not_or_replyFlag _) hre).steps hrecv hm₃
          rw [Monitor.run_append, hs, Option.bind_some]
          exact ihk b hb h₄ hm₄

/-! ## What a drop leaves behind -/

/-- In the trace `tr` no pin fails. -/
def PinsWork (tr : List (Event (halSig E))) : Prop := ∀ ev ∈ tr, Hal.PinsWork ev.eff ev.ans

/-- A delay, the mutex and `now` are used with nothing owed. -/
theorem Phase.idle_of_next_between {t t' : Phase} {e : Hal} {r : e.Ans E} (he : e.Between)
    (h : t.next e r = some t') : t = .idle := by
  cases t <;> cases e <;> first | rfl | exact (Option.some_ne_none _ h.symm).elim | exact he.elim

/-- An await outside a window finds CS released… -/
theorem CsPhase.released_of_next {s s' : CsPhase} {e : Hal} {r : e.Ans E} (he : e.IsAwait)
    (hw : ¬ e.InWindow) (h : s.next e r = some s') : s.Released := by
  cases s with
  | low kind =>
    cases e <;> first
      | exact (Option.some_ne_none _ h.symm).elim
      | exact he.elim
      | exact absurd trivial hw
  | _ => trivial

/-- …and an await of a window finds it asserted. -/
theorem CsPhase.low_of_next {s s' : CsPhase} {e : Hal} {r : e.Ans E} (hw : e.InWindow)
    (h : s.next e r = some s') : ∃ kind, s = .low kind := by
  cases s with
  | low kind => exact ⟨kind, rfl⟩
  | _ => cases e <;> first | exact (Option.some_ne_none _ h.symm).elim | exact hw.elim

/-- An ack wait with something owed is that of a receive. -/
theorem Phase.owed_of_next {t t' : Phase} {r : Except Unit Unit}
    (h : t.next (E := E) .ackWaitForLow r = some t') : t = .idle ∨ ∃ op, t = .owed op := by
  cases t with
  | idle => exact .inl rfl
  | owed op => exact .inr ⟨op, rfl⟩
  | _ => exact absurd h nofun

/-- A receive begins with the ack wait. -/
theorem eq_ackWait_of_atReceive {e : Hal} {k : e.Ans E → Prog (halSig E) α}
    (h : AtReceive (.ask (S := halSig E) e k)) : e = .ackWaitForLow := by
  obtain ⟨β, c, post, recv, k', hr, hk⟩ := h
  cases hr <;> exact (Prog.ask.inj hk).1

theorem Op.states (fuel : ℕ) (ops : List Op) {tr : List (Event (halSig E))} {e : Hal}
    {k : e.Ans E → Prog (halSig E) Unit}
    (h : Steps (Op.runAll fuel ops) tr (.ask (S := halSig E) e k)) (hm : PinsWork tr) :
    ∃ s t, (bracket E).run .high tr = some s ∧ (EmbassyNina.lockstep E).run .idle tr = some t ∧
      (∀ r : e.Ans E, ∃ s', s.next e r = some s') ∧
      (EmbassyNina.lockstep E).Safe (fun _ t => t = .idle) (.ask (S := halSig E) e k) t := by
  obtain ⟨s, hs, hsafe⟩ :=
    (bracket_exchanges (Op.exchanges_runAll fuel ops) (s := .high) trivial).steps h
      fun _ _ => trivial
  obtain ⟨t, ht, htsafe⟩ := (lockstep_exchanges (Op.exchanges_runAll fuel ops)).steps h hm
  refine ⟨s, t, hs, ht, fun r => ?_, htsafe⟩
  obtain ⟨s', hs', -⟩ := hsafe r trivial
  exact ⟨s', hs'⟩

/-- **What a drop leaves behind.**  With pins that do not fail, a future dropped at the await point
`e` leaves the driver usable exactly when `e` is no await of a window and not the ack wait that
begins a receive, and then any operations that come next are bracketed and in lockstep.  Dropped in
a window it leaves CS LOW, dropped before a receive it leaves a reply owed. -/
theorem Op.dropped (fuel : ℕ) (ops : List Op) {tr : List (Event (halSig E))} {e : Hal}
    {k : e.Ans E → Prog (halSig E) Unit}
    (h : Steps (Op.runAll fuel ops) tr (.ask (S := halSig E) e k)) (hm : PinsWork tr)
    (he : e.IsAwait) :
    (Usable tr ↔ ¬ e.InWindow ∧ ¬ AtReceive (.ask (S := halSig E) e k)) ∧
      (e.InWindow → ∃ kind, (bracket E).run .high tr = some (.low kind)) ∧
      (AtReceive (.ask (S := halSig E) e k) →
        ∃ op, (EmbassyNina.lockstep E).run .idle tr = some (.owed op)) ∧
      (Usable tr → ∀ (fuel' : ℕ) (ops' : List Op) (tr' : List (Event (halSig E)))
        (q : Prog (halSig E) Unit), Steps (Op.runAll fuel' ops') tr' q → PinsWork tr' →
        ∃ s t, (bracket E).run .high (tr ++ tr') = some s ∧
          (EmbassyNina.lockstep E).run .idle (tr ++ tr') = some t ∧
          ∀ u, q = .ret u → s.Released ∧ t = .idle) := by
  obtain ⟨s, t, hs, ht, hnext, hsafe⟩ := Op.states fuel ops h hm
  obtain ⟨s', hs'⟩ := hnext e.success
  have hlow : e.InWindow → ∃ kind, (bracket E).run .high tr = some (.low kind) := fun hw => by
    obtain ⟨kind, rfl⟩ := CsPhase.low_of_next hw hs'
    exact ⟨kind, hs⟩
  have howed : AtReceive (.ask (S := halSig E) e k) →
      ∃ op, (EmbassyNina.lockstep E).run .idle tr = some (.owed op) := fun hr => by
    obtain rfl := eq_ackWait_of_atReceive hr
    obtain ⟨t', ht', -⟩ := hsafe (.ok ()) rfl
    rcases Phase.owed_of_next ht' with rfl | ⟨op, rfl⟩
    · exact absurd hr (not_atReceive_of_idle hsafe)
    · exact ⟨op, ht⟩
  refine ⟨⟨fun hu => ⟨fun hw => ?_, fun hr => ?_⟩, fun ⟨hw, hr⟩ => ?_⟩, hlow, howed, ?_⟩
  · obtain ⟨kind, hkind⟩ := hlow hw
    obtain ⟨s, hs, hrel⟩ := hu.released
    obtain rfl := Option.some.inj (hkind.symm.trans hs)
    exact hrel
  · obtain ⟨op, hop⟩ := howed hr
    exact absurd (hop.symm.trans hu.settled) nofun
  · refine ⟨⟨s, hs, CsPhase.released_of_next he hw hs'⟩, ?_⟩
    by_cases hack : e = .ackWaitForLow
    · subst hack
      exact (idle_or_atReceive (Op.exchanges_runAll fuel ops) h hm).resolve_right hr
    · have hbetween : e.Between := by
        cases e <;> first
          | exact trivial
          | exact he.elim
          | exact absurd trivial hw
          | exact absurd rfl hack
      have hpins : Hal.PinsWork e (Hal.success (E := E) e) := by cases e <;> first | rfl | trivial
      obtain ⟨t', ht', -⟩ := hsafe e.success hpins
      rw [ht, Phase.idle_of_next_between hbetween ht']
  · rintro ⟨⟨s, hs, hrel⟩, ht⟩ fuel' ops' tr' q hsteps hm'
    obtain ⟨s', hs', hq⟩ :=
      (bracket_exchanges (Op.exchanges_runAll fuel' ops') hrel).steps hsteps fun _ _ => trivial
    obtain ⟨t', ht', hq'⟩ := (lockstep_exchanges (Op.exchanges_runAll fuel' ops')).steps hsteps hm'
    refine ⟨s', t', ?_, ?_, ?_⟩
    · rw [Monitor.run_append, hs, Option.bind_some, hs']
    · rw [Monitor.run_append, ht, Option.bind_some, ht']
    · rintro u rfl
      exact ⟨hq, hq'⟩

/-- `GET_SOCKET` up to the write of its header. -/
def openSocketWrite : List (Event (halSig Unit)) :=
  [⟨.ackWaitForLow, .ok ()⟩, ⟨.csSetLow, .ok ()⟩, ⟨.ackWaitForHighOr ackAfterCsMs, ()⟩]

theorem works_openSocketWrite : Works openSocketWrite :=
  List.forall_mem_cons.mpr ⟨rfl, List.forall_mem_cons.mpr ⟨rfl, List.forall_mem_cons.mpr
    ⟨trivial, List.forall_mem_nil _⟩⟩⟩

theorem steps_openSocketWrite :
    ∃ (bytes : List UInt8) (k : Except Unit Unit → Prog (halSig Unit) Unit),
    Steps (Op.runAll 1 [.tcpOpenSocket]) openSocketWrite
      (.ask (S := halSig Unit) (.busWrite bytes) k) :=
  ⟨_, _, .ask (S := halSig Unit) (e := .ackWaitForLow) (.ok ())
    (.ask (S := halSig Unit) (e := .csSetLow) (.ok ())
      (.ask (S := halSig Unit) (e := .ackWaitForHighOr ackAfterCsMs) () (.refl _)))⟩

/-- Dropped in its first write, a socket reservation leaves CS LOW. -/
theorem Op.dropped_openSocketWrite :
    ∃ kind, (bracket Unit).run .high openSocketWrite = some (.low kind) := by
  obtain ⟨bytes, k, h⟩ := steps_openSocketWrite
  have hm : PinsWork openSocketWrite := possible_of_works works_openSocketWrite
  exact (Op.dropped 1 [.tcpOpenSocket] h hm trivial).2.1 trivial

/-- **A drop can leave the driver unusable**: after that one CS is LOW, and the next operation's
`set_low` makes no edge. -/
theorem not_usable_openSocketWrite :
    (∃ (bytes : List UInt8) (k : Except Unit Unit → Prog (halSig Unit) Unit),
        Steps (Op.runAll 1 [.tcpOpenSocket]) openSocketWrite
          (.ask (S := halSig Unit) (.busWrite bytes) k)) ∧
      Works openSocketWrite ∧ (bracket Unit).run .high openSocketWrite = some (.low none) ∧
      ¬ Usable openSocketWrite ∧
      (bracket Unit).run .high
        (openSocketWrite ++ [⟨.ackWaitForLow, .ok ()⟩, ⟨.csSetLow, .ok ()⟩]) = none := by
  refine ⟨steps_openSocketWrite, works_openSocketWrite, rfl, ?_, rfl⟩
  rintro ⟨⟨s, hs, hrel⟩, -⟩
  obtain rfl : CsPhase.low none = s := Option.some.inj hs
  exact hrel

end EmbassyNina
