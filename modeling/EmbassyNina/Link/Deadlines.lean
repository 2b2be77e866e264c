import EmbassyNina.Exchange.Totality
import EmbassyNina.Link.Association
import EmbassyNina.Machinery.Watch

/-!
# Link/Deadlines — how long an association is waited for

`waitForConnected` and `connect` are bounded by the clock alone, so that they return only where
time passes.  `timepiece` says how it does: the clock never goes back, and a timer takes at least as
long as it was set for.  Then neither hangs, both fail with `Timeout` only, and not before the time
is up, and the chip is selected no more often than the polls that fit into it need
(`Nina.waitForConnected_timely`, `Nina.connect_timely`).
-/

namespace EmbassyNina

open Machinery Prog

variable {E α β : Type}

/-- A time that the clock has reached, and how often the chip has been selected so far. -/
structure Elapsed where
  time : ℕ
  selects : ℕ
deriving DecidableEq, Repr

/-- **How time passes**: the clock reads no less than the time it has reached, and a timer takes at
least as long as it was set for. -/
def timepiece (E : Type) : Watch (halSig E) Elapsed where
  next s
    | .now, (reading : ℕ) => if s.time ≤ reading then some ⟨reading, s.selects⟩ else none
    | .timer ms, _ => some ⟨s.time + ms, s.selects⟩
    | .csSetLow, _ => some ⟨s.time, s.selects + 1⟩
    | _, _ => some s

/-- The clock has not gone back since `s`, and at least that much has been waited. -/
def Elapsed.Within (s : Elapsed) (wait selects : ℕ) (s' : Elapsed) : Prop :=
  s.time + wait ≤ s'.time ∧ s'.selects ≤ s.selects + selects

theorem Elapsed.Within.trans {s s₁ s₂ : Elapsed} {a b c d wait selects : ℕ}
    (h₁ : s.Within a b s₁) (h₂ : s₁.Within c d s₂) (hwait : wait ≤ a + c)
    (hselects : b + d ≤ selects) : s.Within wait selects s₂ := by
  obtain ⟨ht₁, hs₁⟩ := h₁
  obtain ⟨ht₂, hs₂⟩ := h₂
  constructor <;> omega

/-! ## Exchanges -/

/-- A window selects the chip once at most. -/
theorem timely_selected {fail : Error E → β} {body : Prog (halSig E) β}
    (hb : ∀ s, (timepiece E).Returns (fun _ s' => s' = s) body s) (s : Elapsed) :
    (timepiece E).Returns (fun _ s' => s.Within 0 1 s') (selected fail body) s := by
  rintro r s' hs'
  obtain rfl := Option.some.inj hs'
  cases r with
  | error e => exact ⟨Nat.le_refl _, Nat.le_succ _⟩
  | ok _ =>
    rintro r s' hs'
    obtain rfl := Option.some.inj hs'
    cases r with
    | error e => exact ⟨Nat.le_refl _, Nat.le_refl _⟩
    | ok _ =>
      rintro r s' hs'
      obtain rfl := Option.some.inj hs'
      refine (hb _).bind fun a s' hs' => ?_
      subst hs'
      rintro r s' hs'
      obtain rfl := Option.some.inj hs'
      exact ⟨Nat.le_refl _, Nat.le_refl _⟩

theorem timely_writes {Q : α → Prop} {p : Prog (halSig E) α}
    (hp : p.Does (S := halSig E) Hal.IsWrite Q) (htotal : p.Total) (s : Elapsed) :
    (timepiece E).Returns (fun _ s' => s' = s) p s :=
  (Watch.returns_of_does (fun e he s r s' hs' => by
    cases e <;> first | exact he.elim | exact (Option.some.inj hs').symm) hp htotal s).mono
    fun _ _ h => h.2

theorem timely_transfers {Q : α → Prop} {p : Prog (halSig E) α}
    (hp : p.Does (S := halSig E) Hal.IsDummyTransfer Q) (htotal : p.Total) (s : Elapsed) :
    (timepiece E).Returns (fun _ s' => s' = s) p s :=
  (Watch.returns_of_does (fun e he s r s' hs' => by
    cases e <;> first | exact he.elim | exact (Option.some.inj hs').symm) hp htotal s).mono
    fun _ _ h => h.2

/-- **An exchange** selects the chip twice at most. -/
theorem timely_byteCommand (cmd : UInt8) (params : List (List UInt8)) (s : Elapsed) :
    (timepiece E).Returns (fun _ s' => s.Within 0 2 s')
      (Nina.byteCommand (E := E) cmd params).run s := by
  have hsend : ∀ s, (timepiece E).Returns (fun _ s' => s.Within 0 1 s')
      (sendCmd (E := E) cmd params).run s :=
    timely_selected (timely_writes (does_sendCmdBody cmd params) (total_sendCmdBody cmd params))
  have hrecv : ∀ s, (timepiece E).Returns (fun _ s' => s.Within 0 1 s')
      (withBuf (E := E) 1 (recvCmdOneParam cmd)).run s := fun s => by
    have hdoes := doesB_recvCmdOneParamInner (E := E) (n := 1) cmd (List.replicate 1 0) rfl
    have hinner := timely_transfers hdoes
      (hdoes.total (carried_fuelled.recvCmdOneParamInner cmd _))
    have hwindow : (timepiece E).Returns (fun _ s' => s.Within 0 1 s')
        ((recvCmdOneParam (E := E) cmd).run (List.replicate 1 0)) s := by
      rw [recvCmdOneParam, received_run]
      exact timely_selected hinner s
    refine hwindow.bind fun r s' hs' => ?_
    rcases r with ⟨_ | _, _⟩ <;> exact hs'
  have hcommand : (timepiece E).Returns (fun _ s' => s.Within 0 2 s')
      (Nina.command (E := E) cmd params 1).run s := by
    refine (hsend s).bindE (fun _ s₁ h₁ => ?_) fun _ s₁ h₁ => ⟨h₁.1, h₁.2.trans (by omega)⟩
    exact (hrecv s₁).mono fun _ s₂ h₂ => h₁.trans h₂ (Nat.le_refl _) (Nat.le_refl _)
  exact hcommand.bindE (fun _ _ h => h) fun _ _ h => h

theorem timely_status (s : Elapsed) :
    (timepiece E).Returns (fun _ s' => s.Within 0 2 s') (Nina.status (E := E)).run s :=
  (timely_byteCommand _ _ s).bindE (fun _ _ h => h) fun _ _ h => h

theorem timely_disconnect (s : Elapsed) :
    (timepiece E).Returns (fun _ s' => s.Within 0 2 s') (Nina.disconnect (E := E)).run s :=
  (timely_byteCommand _ _ s).bindE (fun _ _ h => h) fun _ _ h => h

theorem timely_timer (ms : ℕ) (s : Elapsed) :
    (timepiece E).Returns (fun r s' => r = .ok () ∧ s' = ⟨s.time + ms, s.selects⟩)
      (Nina.timer (E := E) ms).run s := fun _ _ hs' => ⟨rfl, (Option.some.inj hs').symm⟩

/-- A reading is no earlier than the time that the clock has reached. -/
theorem of_now {s s' : Elapsed} {reading : ℕ}
    (h : (timepiece E).next s .now reading = some s') :
    s.time ≤ reading ∧ s' = ⟨reading, s.selects⟩ := by
  change (if s.time ≤ reading then some (⟨reading, s.selects⟩ : Elapsed) else none) = some s' at h
  split at h
  · exact ⟨‹_›, (Option.some.inj h).symm⟩
  · exact absurd h (by simp)

theorem timely_now (s : Elapsed) :
    (timepiece E).Returns
      (fun r s' => ∃ reading, s.time ≤ reading ∧ r = .ok reading ∧ s' = ⟨reading, s.selects⟩)
      (Nina.now (E := E)).run s := fun reading _ hs' =>
  ⟨reading, (of_now hs').1, rfl, (of_now hs').2⟩

/-! ## The wait -/

/-- What comes of a turn: past the deadline it fails, before it it polls, and waits if it has to
poll again. -/
def Polled (deadline : ℕ) (s : Elapsed) (r : Except (Error E) (Option Unit)) (s' : Elapsed) :
    Prop :=
  ∃ reading, s.time ≤ reading ∧
    (deadline ≤ reading ∧ r = .error .timeout ∧ s' = ⟨reading, s.selects⟩ ∨
      reading < deadline ∧ s'.selects ≤ s.selects + 2 ∧
        (r = .ok (some ()) ∧ reading ≤ s'.time ∨ r = .ok none ∧ reading + 250 ≤ s'.time))

/-- The part of a turn after its reading of the clock. -/
theorem polled_of_reading {deadline reading : ℕ} {s : Elapsed} (hle : s.time ≤ reading)
    (hin : reading < deadline) :
    (timepiece E).Returns (Polled deadline s) (do
      match ← attempt Nina.status with
      | .ok .connected => return some ()
      | _ =>
        Nina.timer 250
        return none : Nina E (Option Unit)).run ⟨reading, s.selects⟩ := by
  refine (timely_status _).attempt.bindE (fun r s₂ h₂ => ?_) fun e s₂ h₂ => ?_
  · obtain ⟨r', hr', htime, hsel⟩ := h₂
    have hagain : (timepiece E).Returns (Polled deadline s) (do
        Nina.timer 250
        return none : Nina E (Option Unit)).run s₂ := by
      refine (timely_timer 250 s₂).bindE (fun _ s₃ h₃ => ?_) fun e s₃ h₃ => absurd h₃.1 (by simp)
      obtain ⟨-, rfl⟩ := h₃
      exact ⟨reading, hle, .inr ⟨hin, hsel, .inr ⟨rfl, Nat.add_le_add_right htime 250⟩⟩⟩
    rcases r with e | st
    · exact hagain
    · cases st with
      | connected => exact ⟨reading, hle, .inr ⟨hin, hsel, .inl ⟨rfl, htime⟩⟩⟩
      | _ => exact hagain
  · obtain ⟨r', hr', -⟩ := h₂
    exact absurd hr' (by simp)

theorem timely_awaitTurn (deadline : ℕ) (s : Elapsed) :
    (timepiece E).Returns (Polled deadline s) (awaitTurn (E := E) deadline).run s := by
  refine (timely_now s).bindE (fun reading s₁ h₁ => ?_) fun e s₁ h₁ => ?_
  · obtain ⟨reading, hle, hok, rfl⟩ := h₁
    obtain rfl := Except.ok.inj hok
    by_cases hin : reading < deadline
    · have hpass : Nina.failIf (E := E) (¬ reading < deadline) .timeout = pure () := by
        rw [Nina.failIf, if_neg (not_not_intro hin)]
      rw [hpass, pure_bind]
      exact polled_of_reading hle hin
    · have hfail : Nina.failIf (E := E) (¬ reading < deadline) .timeout = throw .timeout := by
        rw [Nina.failIf, if_pos hin]
      rw [hfail]
      exact ⟨reading, hle, .inl ⟨not_lt.mp hin, rfl, rfl⟩⟩
  · obtain ⟨_, _, hok, _⟩ := h₁
    exact absurd hok (by simp)

/-- **The loop** ends by the deadline, having polled once every 250 ms at most. -/
theorem timely_polls (deadline m : ℕ) (s : Elapsed) (h : deadline ≤ s.time + 250 * m) :
    (timepiece E).Returns (fun r s' => (r = .ok () ∨ r = .error .timeout ∧ deadline ≤ s'.time) ∧
        s.time ≤ s'.time ∧ s'.selects ≤ s.selects + 2 * ((deadline - s.time + 249) / 250))
      (repeatFor (m + 1) (awaitTurn (E := E) deadline) Nina.outOfFuel).run s := by
  induction m generalizing s with
  | zero =>
    refine (timely_awaitTurn deadline s).bindE (fun o s₁ h₁ => ?_) fun e s₁ h₁ => ?_
    · obtain ⟨reading, hle, ⟨-, hr, -⟩ | ⟨hlt, -⟩⟩ := h₁
      · exact absurd hr (by simp)
      · omega
    · obtain ⟨reading, hle, ⟨hup, hr, rfl⟩ | ⟨hlt, -⟩⟩ := h₁
      · obtain rfl := Except.error.inj hr
        exact ⟨.inr ⟨rfl, hup⟩, hle, Nat.le_add_right ..⟩
      · omega
  | succ m ih =>
    refine (timely_awaitTurn deadline s).bindE (fun o s₁ h₁ => ?_) fun e s₁ h₁ => ?_
    · obtain ⟨reading, hle, ⟨-, hr, -⟩ | ⟨hlt, hsel, ⟨hr, htime⟩ | ⟨hr, htime⟩⟩⟩ := h₁
      · exact absurd hr (by simp)
      · obtain rfl := Except.ok.inj hr
        exact ⟨.inl rfl, hle.trans htime, by omega⟩
      · obtain rfl := Except.ok.inj hr
        exact (ih s₁ (by omega)).mono fun r s₂ h₂ => ⟨h₂.1, by omega, by omega⟩
    · obtain ⟨reading, hle, ⟨hup, hr, rfl⟩ | ⟨hlt, -, ⟨hr, -⟩ | ⟨hr, -⟩⟩⟩ := h₁
      · obtain rfl := Except.error.inj hr
        exact ⟨.inr ⟨rfl, hup⟩, hle, Nat.le_add_right ..⟩
      · exact absurd hr (by simp)
      · exact absurd hr (by simp)

/-- What comes of waiting `wait` ms: success, or `Timeout` when they have passed, the chip having
been selected at most `selects` times. -/
def Waited (wait selects : ℕ) (s : Elapsed) (r : Except (Error E) Unit) (s' : Elapsed) : Prop :=
  r = .ok () ∧ s.Within 0 selects s' ∨ r = .error .timeout ∧ s.Within wait selects s'

theorem timely_waitForConnected {fuel timeout : ℕ} (hfuel : timeout ≤ 250 * fuel) (s : Elapsed) :
    (timepiece E).Returns (Waited timeout (2 * ((timeout + 249) / 250)) s)
      (Nina.waitForConnected (E := E) (fuel + 1) timeout).run s := by
  rw [waitForConnected_eq]
  refine (timely_now s).bindE (fun reading s₁ h₁ => ?_) fun e s₁ h₁ => ?_
  · obtain ⟨reading, hle, hok, rfl⟩ := h₁
    obtain rfl := Except.ok.inj hok
    refine (timely_polls (reading + timeout) fuel ⟨reading, s.selects⟩
      (Nat.add_le_add_left hfuel _)).mono fun r s₂ h₂ => ?_
    obtain ⟨hr, htime, hsel⟩ := h₂
    rw [Nat.add_sub_cancel_left] at hsel
    rcases hr with hr | ⟨hr, hup⟩
    · exact .inl ⟨hr, hle.trans htime, hsel⟩
    · exact .inr ⟨hr, (Nat.add_le_add_right hle _).trans hup, hsel⟩
  · obtain ⟨_, _, hok, _⟩ := h₁
    exact absurd hok (by simp)

/-! ## The attempts -/

/-- **An attempt** that fails has taken 22 s. -/
theorem timely_connectTurn {fuel : ℕ} (hfuel : 81 ≤ fuel) (ssid psk : List UInt8) (s : Elapsed) :
    (timepiece E).Returns (fun r s' => r = .ok (some ()) ∧ s.Within 0 164 s' ∨
        r = .ok none ∧ s.Within 22000 164 s')
      (connectTurn (E := E) fuel ssid psk).run s := by
  obtain ⟨fuel, rfl⟩ := Nat.exists_eq_add_of_le' (Nat.one_le_of_lt hfuel)
  refine (timely_byteCommand _ _ s).attempt.bindE (fun r s₁ h₁ => ?_) fun e s₁ ⟨_, h, _⟩ =>
    absurd h (by simp)
  obtain ⟨-, -, h₁⟩ := h₁
  refine (timely_waitForConnected (by omega) s₁).attempt.bindE (fun r s₂ h₂ => ?_)
    fun e s₂ ⟨_, h, _⟩ => absurd h (by simp)
  obtain ⟨r', hr', hwaited⟩ := h₂
  obtain rfl := Except.ok.inj hr'
  rcases hwaited with ⟨rfl, h₂⟩ | ⟨rfl, h₂⟩
  · exact .inl ⟨rfl, h₁.trans h₂ (Nat.zero_le _) (by decide)⟩
  · refine (timely_disconnect s₂).attempt.bindE (fun _ s₃ h₃ => ?_) fun e s₃ ⟨_, h, _⟩ =>
      absurd h (by simp)
    obtain ⟨-, -, h₃⟩ := h₃
    refine (timely_timer 2000 s₃).bindE (fun _ s₄ h₄ => ?_) fun e s₄ h₄ => absurd h₄.1 (by simp)
    obtain ⟨-, rfl⟩ := h₄
    have hsettle : s₃.Within 2000 0 ⟨s₃.time + 2000, s₃.selects⟩ := ⟨Nat.le_refl _, Nat.le_refl _⟩
    have hboth := h₁.trans h₂ (Nat.le_refl _) (Nat.le_refl _)
    have hthree := hboth.trans h₃ (Nat.le_refl _) (Nat.le_refl _)
    exact .inr ⟨rfl, hthree.trans hsettle (by decide) (by decide)⟩

theorem timely_connectTurns {fuel : ℕ} (hfuel : 81 ≤ fuel) (ssid psk : List UInt8) (n : ℕ)
    (s : Elapsed) :
    (timepiece E).Returns (Waited (22000 * n) (164 * n) s)
      (repeatFor n (connectTurn (E := E) fuel ssid psk) (throw .timeout)).run s := by
  induction n generalizing s with
  | zero => exact .inr ⟨rfl, Nat.le_refl _, Nat.le_refl _⟩
  | succ n ih =>
    refine (timely_connectTurn hfuel ssid psk s).bindE (fun o s₁ h₁ => ?_) fun e s₁ h₁ => ?_
    · rcases h₁ with ⟨hr, h₁⟩ | ⟨hr, h₁⟩
      · obtain rfl := Except.ok.inj hr
        exact .inl ⟨rfl, h₁.1, h₁.2.trans (by omega)⟩
      · obtain rfl := Except.ok.inj hr
        refine (ih s₁).mono fun r s₂ h₂ => ?_
        rcases h₂ with ⟨hr, h₂⟩ | ⟨hr, h₂⟩
        · exact .inl ⟨hr, h₁.trans h₂ (Nat.zero_le _) (by omega)⟩
        · exact .inr ⟨hr, h₁.trans h₂ (by omega) (by omega)⟩
    · obtain ⟨hr, -⟩ | ⟨hr, -⟩ := h₁
      · exact absurd hr (by simp)
      · exact absurd hr (by simp)

/-! ## Along every run -/

variable {tr : List (Event (halSig E))} {q : Prog (halSig E) (Except (Error E) Unit)}
  {s s' : Elapsed}

/-- **`waitForConnected` waits as long as it is told, and no longer than it needs.**  Wherever time
passes it is never cut off after `⌈timeout / 250⌉ + 1` turns and never panics; it returns success or
`Timeout`, the latter only when `timeout` ms have passed; and it polls at most `⌈timeout / 250⌉`
times, each poll selecting the chip twice at most. -/
theorem Nina.waitForConnected_timely {fuel timeout : ℕ} (hfuel : timeout ≤ 250 * fuel)
    (h : Steps (Nina.waitForConnected (E := E) (fuel + 1) timeout).run tr q)
    (htime : (timepiece E).run s tr = some s') :
    (∀ w, q ≠ .halt w) ∧ ∀ r, q = .ret r → Waited timeout (2 * ((timeout + 249) / 250)) s r s' := by
  have hq := (timely_waitForConnected hfuel s).steps h htime
  refine ⟨hq.ne_halt, fun r hr => ?_⟩
  subst hr
  exact hq

/-- The environment in which nothing fails, the chip says nothing, and time passes with the timers
alone. -/
def tickingChip (E : Type) : Env (halSig E) ℕ where
  answer t
    | .now => (t, t)
    | .timer ms => ((), t + ms)
    | e => (e.success, t)

/-- Time passes in it. -/
theorem timely_tickingChip (p : Prog (halSig E) α) (s : Elapsed) :
    ∃ s', (timepiece E).run s ((tickingChip E).trace p s.time) = some s' :=
  Watch.exists_run (R := fun t s => s.time = t) (fun t s h e => by
    subst h
    cases e with
    | now => exact ⟨s, if_pos (Nat.le_refl _), rfl⟩
    | timer ms => exact ⟨⟨s.time + ms, s.selects⟩, rfl, rfl⟩
    | csSetLow => exact ⟨⟨s.time, s.selects + 1⟩, rfl, rfl⟩
    | _ => exact ⟨s, rfl, rfl⟩) p rfl

/-- A wait of two seconds on a silent chip comes to an end. -/
theorem Nina.waitForConnected_timely_tickingChip :
    ∃ r s', ((tickingChip Unit).exec (Nina.waitForConnected 9 2000).run 0).1 = .done r ∧
      Waited 2000 16 ⟨0, 0⟩ r s' := by
  obtain ⟨s', hs'⟩ := timely_tickingChip (Nina.waitForConnected (E := Unit) 9 2000).run ⟨0, 0⟩
  have hsteps := (tickingChip Unit).steps_trace (Nina.waitForConnected (E := Unit) 9 2000).run 0
  have hfuel : 2000 ≤ 250 * 8 := by decide
  obtain ⟨hhalt, hret⟩ := Nina.waitForConnected_timely hfuel hsteps hs'
  generalize ((tickingChip Unit).exec (Nina.waitForConnected (E := Unit) 9 2000).run 0).1 = o at *
  cases o with
  | done r => exact ⟨r, s', rfl, hret r rfl⟩
  | stopped w => exact absurd rfl (hhalt w)

/-- **`connect` gives up after 110 s and no earlier.**  Wherever time passes it returns success or
`Timeout`, the latter only when five attempts of 22 s each have passed, and whatever the chip, the
bus or the pins do it selects the chip at most 820 times. -/
theorem Nina.connect_timely {fuel : ℕ} (hfuel : 81 ≤ fuel) (ssid psk : List UInt8)
    (h : Steps (Nina.connect (E := E) fuel ssid psk).run tr q)
    (htime : (timepiece E).run s tr = some s') :
    (∀ w, q ≠ .halt w) ∧ ∀ r, q = .ret r → Waited 110000 820 s r s' := by
  rw [connect_eq] at h
  have hq := (timely_connectTurns hfuel ssid psk 5 s).steps h htime
  refine ⟨hq.ne_halt, fun r hr => ?_⟩
  subst hr
  exact hq

/-- A connect on a silent chip gives up. -/
theorem Nina.connect_timely_tickingChip :
    ∃ r s', ((tickingChip Unit).exec (Nina.connect 81 [97] [98]).run 0).1 = .done r ∧
      Waited 110000 820 ⟨0, 0⟩ r s' := by
  obtain ⟨s', hs'⟩ := timely_tickingChip (Nina.connect (E := Unit) 81 [97] [98]).run ⟨0, 0⟩
  have hsteps := (tickingChip Unit).steps_trace (Nina.connect (E := Unit) 81 [97] [98]).run 0
  obtain ⟨hhalt, hret⟩ := Nina.connect_timely (Nat.le_refl 81) [97] [98] hsteps hs'
  generalize ((tickingChip Unit).exec (Nina.connect (E := Unit) 81 [97] [98]).run 0).1 = o at *
  cases o with
  | done r => exact ⟨r, s', rfl, hret r rfl⟩
  | stopped w => exact absurd rfl (hhalt w)

end EmbassyNina
