import EmbassyNina.Link.Answer
import EmbassyNina.Link.Lookup

/-!
# Link/Resolution — the first real answer of a lookup

The polls of a lookup are exchanges of its trace, and each brings something (`Exchanged`).  The loop
swallows two kinds of error and two kinds of payload, `NotReady`; anything else ends it.  `Resolves`
follows it turn by turn, whatever fails on the bus, and a lookup is read off it
(`dnsLookup_first_answer`).
-/

namespace EmbassyNina

open Machinery Prog

variable {E : Type}

/-- What a poll brings while the chip has no answer yet. -/
def NotReady : Except (Error E) (List UInt8) → Prop
  | .ok payload => payload.length < 4 ∨ payload = [0, 0, 0, 0]
  | .error e => e = .framing ∨ e = .nina

/-- **The polls of a lookup**, by what they bring: at most `n` of them, until one is an answer or
fails. -/
inductive Resolves : ℕ → List (Except (Error E) (List UInt8)) → Except (Error E) Ipv4 → Prop
  | spent : Resolves 0 [] (.error .timeout)
  | found {n : ℕ} {ip : Ipv4} (hip : ip.toList ≠ [0, 0, 0, 0]) :
    Resolves (n + 1) [.ok ip.toList] (.ok ip)
  | failed {n : ℕ} {e : Error E} (he : ¬ NotReady (.error e)) :
    Resolves (n + 1) [.error e] (.error e)
  | again {n : ℕ} {got : Except (Error E) (List UInt8)}
      {gots : List (Except (Error E) (List UInt8))} {r : Except (Error E) Ipv4}
      (hgot : NotReady got) (h : Resolves n gots r) : Resolves (n + 1) (got :: gots) r

/-! ## One turn -/

/-- What a turn makes of its poll. -/
theorem onAnswer_cases {got : Except (Error E) (List UInt8)}
    (hle : ∀ payload, got = .ok payload → payload.length ≤ 4) :
    (NotReady got ∧ (onAnswer (got.map (filled 4))).run = .ret (.ok none)) ∨
      (∃ ip : Ipv4, got = .ok ip.toList ∧ ip.toList ≠ [0, 0, 0, 0] ∧
        (onAnswer (got.map (filled 4))).run = .ret (.ok (some ip))) ∨
      ∃ e, got = .error e ∧ ¬ NotReady (.error e) ∧
        (onAnswer (got.map (filled 4))).run = .ret (.error e) := by
  cases got with
  | error e =>
    cases e with
    | framing => exact .inl ⟨.inl rfl, rfl⟩
    | nina => exact .inl ⟨.inr rfl, rfl⟩
    | _ => exact .inr (.inr ⟨_, rfl, by simp [NotReady], rfl⟩)
  | ok payload =>
    by_cases h4 : payload.length = 4
    · have hfilled : filled 4 payload = (4, payload) := by
        rw [filled, h4, Nat.sub_self, List.replicate_zero, List.append_nil]
      rw [Except.map, hfilled]
      by_cases hzero : payload = [0, 0, 0, 0]
      · exact .inl ⟨.inr hzero, congrArg ExceptT.run (if_neg (not_not.mpr hzero))⟩
      · refine .inr (.inl ⟨ip4 payload, ?_, ?_, congrArg ExceptT.run (if_pos hzero)⟩)
        · rw [toList_ip4 h4]
        · rwa [toList_ip4 h4]
    · have hlt : payload.length < 4 := Nat.lt_of_le_of_ne (hle payload rfl) h4
      exact .inl ⟨.inl hlt, onAnswer_short h4 _⟩

/-- A poll that did not go out failed by a pin or on the bus. -/
theorem not_notReady_of_send {cmd : UInt8} {params : List (List UInt8)}
    {tr : List (Event (halSig E))} {e : Error E}
    (h : Steps (sendCmd (E := E) cmd params).run tr (.ret (.error e))) :
    ¬ NotReady (.error e) := by
  obtain ⟨e', hone, he⟩ | ⟨-, hok, -⟩ := sendCmd_cases h
  · obtain rfl := Except.error.inj he
    obtain rfl | ⟨e', rfl⟩ := mem_faults (hone ▸ List.mem_singleton_self e)
    · simp [NotReady]
    · simp [NotReady]
  · exact absurd hok (by simp)

/-- **A turn is one poll**, and goes by what it brings. -/
theorem lookupTurn_cases {tr : List (Event (halSig E))} {o : Except (Error E) (Option Ipv4)}
    (h : Steps (lookupTurn (E := E)).run tr (.ret o)) :
    ∃ t got, tr = ⟨.timer 100, ()⟩ :: t ∧ Exchanged cmdGetHostByName [] 4 t got ∧
      ((NotReady got ∧ o = .ok none) ∨
        (∃ ip : Ipv4, got = .ok ip.toList ∧ ip.toList ≠ [0, 0, 0, 0] ∧ o = .ok (some ip)) ∨
        ∃ e, got = .error e ∧ ¬ NotReady (.error e) ∧ o = .error e) := by
  rw [lookupTurn, run_bind_eq] at h
  obtain ⟨u, t₀, t, htimer, hpoll, rfl⟩ := Steps.exists_of_bind h
  obtain _ | ⟨_, htimer⟩ := htimer
  obtain ⟨rfl, rfl⟩ := Steps.done htimer
  change Steps (sendCmd cmdGetHostByName [] >>= _ : Nina E _).run t _ at hpoll
  rw [run_bind_eq] at hpoll
  obtain ⟨sent, t₁, t₂, hsend, hreply, rfl⟩ := Steps.exists_of_bind hpoll
  cases sent with
  | error e =>
    obtain ⟨rfl, ho⟩ := Steps.done hreply
    have hex : Exchanged cmdGetHostByName [] 4 t₁ (.error e) := exchanged_error hsend
    exact ⟨_, .error e, rfl, by rwa [List.append_nil],
      .inr (.inr ⟨e, rfl, not_notReady_of_send hsend, ho⟩)⟩
  | ok u =>
    change Steps (attempt _ >>= _ : Nina E _).run t₂ _ at hreply
    rw [run_bind_eq] at hreply
    obtain ⟨res, t₃, t₄, hattempt, hanswer, rfl⟩ := Steps.exists_of_bind hreply
    obtain ⟨r, t₅, t₆, hrecv, hret, rfl⟩ := Steps.exists_of_bind hattempt
    obtain ⟨rfl, rfl⟩ := Steps.done hret
    obtain ⟨got, hex, rfl⟩ := exchanged_reply hsend hrecv
    change Steps (onAnswer (got.map (filled 4))).run t₄ _ at hanswer
    have hdone : ∀ o', (onAnswer (got.map (filled 4))).run = .ret o' → t₄ = [] ∧ o = o' := by
      intro o' hrun
      rw [hrun] at hanswer
      exact Steps.done hanswer
    have hle : ∀ payload, got = .ok payload → payload.length ≤ 4 := by
      rintro payload rfl
      exact hex.length_le
    have hcases := onAnswer_cases hle
    refine ⟨_, got, rfl, ?_, ?_⟩
    · obtain ⟨-, hrun⟩ | ⟨ip, -, -, hrun⟩ | ⟨e, -, -, hrun⟩ := hcases
      all_goals
        obtain ⟨rfl, -⟩ := hdone _ hrun
        rwa [List.append_nil, List.append_nil]
    · obtain ⟨hnot, hrun⟩ | ⟨ip, hgot, hip, hrun⟩ | ⟨e, hgot, he, hrun⟩ := hcases
      · exact .inl ⟨hnot, (hdone _ hrun).2⟩
      · exact .inr (.inl ⟨ip, hgot, hip, (hdone _ hrun).2⟩)
      · exact .inr (.inr ⟨e, hgot, he, (hdone _ hrun).2⟩)

/-! ## The whole loop -/

/-- **The polls of a lookup**, in its trace. -/
theorem resolves_of_steps {n : ℕ} {tr : List (Event (halSig E))} {r : Except (Error E) Ipv4}
    (h : Steps (repeatFor n (lookupTurn (E := E)) (throw .timeout)).run tr (.ret r)) :
    ∃ polls gots, tr = polls.flatMap (⟨.timer 100, ()⟩ :: ·) ∧
      List.Forall₂ (Exchanged cmdGetHostByName [] 4) polls gots ∧ Resolves n gots r := by
  induction n generalizing tr with
  | zero =>
    obtain ⟨rfl, rfl⟩ := Steps.done h
    exact ⟨[], [], rfl, .nil, .spent⟩
  | succ n ih =>
    rw [repeatFor, run_bind_eq] at h
    obtain ⟨o, t₁, t₂, hturn, hrest, rfl⟩ := Steps.exists_of_bind h
    obtain ⟨t, got, rfl, hex, hcases⟩ := lookupTurn_cases hturn
    obtain ⟨hnot, rfl⟩ | ⟨ip, rfl, hip, rfl⟩ | ⟨e, rfl, he, rfl⟩ := hcases
    · obtain ⟨polls, gots, rfl, hall, hresolves⟩ := ih hrest
      exact ⟨t :: polls, got :: gots, rfl, .cons hex hall, .again hnot hresolves⟩
    · obtain ⟨rfl, rfl⟩ := Steps.done hrest
      exact ⟨[t], _, rfl, .cons hex .nil, .found hip⟩
    · obtain ⟨rfl, rfl⟩ := Steps.done hrest
      exact ⟨[t], _, rfl, .cons hex .nil, .failed he⟩

/-- They come to their last one, past those that were not ready. -/
theorem Resolves.cases {n : ℕ} {gots : List (Except (Error E) (List UInt8))}
    {r : Except (Error E) Ipv4} (h : Resolves n gots r) :
    ∃ early, (∀ got ∈ early, NotReady got) ∧
      ((early.length = n ∧ gots = early ∧ r = .error .timeout) ∨
        (∃ ip : Ipv4, early.length < n ∧ gots = early ++ [.ok ip.toList] ∧
          ip.toList ≠ [0, 0, 0, 0] ∧ r = .ok ip) ∨
        ∃ e, early.length < n ∧ gots = early ++ [.error e] ∧
          ¬ NotReady (.error e) ∧ r = .error e) := by
  induction h with
  | spent => exact ⟨[], List.forall_mem_nil _, .inl ⟨rfl, rfl, rfl⟩⟩
  | @found n ip hip =>
    exact ⟨[], List.forall_mem_nil _, .inr (.inl ⟨ip, Nat.succ_pos n, rfl, hip, rfl⟩)⟩
  | @failed n e he =>
    exact ⟨[], List.forall_mem_nil _, .inr (.inr ⟨e, Nat.succ_pos n, rfl, he, rfl⟩)⟩
  | @again n got gots r hgot _ ih =>
    obtain ⟨early, hearly, hcases⟩ := ih
    refine ⟨got :: early, List.forall_mem_cons.mpr ⟨hgot, hearly⟩, ?_⟩
    obtain ⟨hlen, rfl, rfl⟩ | ⟨ip, hlen, rfl, hip, rfl⟩ | ⟨e, hlen, rfl, he, rfl⟩ := hcases
    · exact .inl ⟨congrArg (· + 1) hlen, rfl, rfl⟩
    · exact .inr (.inl ⟨ip, Nat.succ_lt_succ hlen, rfl, hip, rfl⟩)
    · exact .inr (.inr ⟨e, Nat.succ_lt_succ hlen, rfl, he, rfl⟩)

/-! ## It returns -/

theorem total_recvCmdOneParam (cmd : UInt8) (n : ℕ) :
    (withBuf n (recvCmdOneParam (E := E) cmd)).run.Total := by
  have hinner : ((recvCmdOneParamInner (E := E) cmd).run (List.replicate n 0)).Total :=
    (doesB_recvCmdOneParamInner cmd _ List.length_replicate).total
      (carried_fuelled.recvCmdOneParamInner cmd _)
  have hrecv : ((recvCmdOneParam (E := E) cmd).run (List.replicate n 0)).Total := by
    rw [recvCmdOneParam, received_run]
    exact total_selected hinner
  refine hrecv.bind ?_
  rintro ⟨e | a, out⟩
  · trivial
  · trivial

theorem total_failIf (c : Prop) [Decidable c] (e : Error E) : (Nina.failIf c e).run.Total := by
  unfold Nina.failIf
  split
  · trivial
  · trivial

theorem total_lookupTurn : (lookupTurn (E := E)).run.Total := by
  refine total_bindN (fun _ => trivial) fun _ => total_bindN (total_sendCmd _ _) fun _ =>
    total_bindN ((total_recvCmdOneParam _ _).bind fun _ => trivial) fun r => ?_
  obtain ⟨o, hrun, -⟩ := onAnswer_run r
  rw [hrun]
  trivial

theorem total_repeatFor {α : Type} {body : Nina E (Option α)} {after : Nina E α}
    (hbody : body.run.Total) (hafter : after.run.Total) (n : ℕ) :
    (repeatFor n body after).run.Total := by
  induction n with
  | zero => exact hafter
  | succ n ih =>
    refine total_bindN hbody fun o => ?_
    cases o with
    | some a => trivial
    | none => exact ih

theorem total_dnsLookup (hostname : List UInt8) : (Nina.dnsLookup (E := E) hostname).run.Total := by
  have hcommand : (Nina.command (E := E) cmdReqHostByName [hostname] 1).run.Total :=
    total_bindN (total_sendCmd _ _) fun _ => total_recvCmdOneParam _ _
  have htimeout : (throw .timeout : Nina E Ipv4).run.Total := trivial
  have hpolls := total_repeatFor total_lookupTurn htimeout 40
  rw [dnsLookup_eq]
  exact total_bindN (total_bindN hcommand fun _ => trivial) fun ack =>
    total_bindN (total_failIf _ _) fun _ => hpolls

/-! ## A lookup -/

/-- **The whole lookup**, in its trace: its request, and its polls unless that was refused. -/
theorem lookup_of_steps {hostname : List UInt8} {tr : List (Event (halSig E))}
    {r : Except (Error E) Ipv4} (h : Steps (Nina.dnsLookup (E := E) hostname).run tr (.ret r)) :
    ∃ t ack polls gots, tr = t ++ polls.flatMap (⟨.timer 100, ()⟩ :: ·) ∧
      Exchanged cmdReqHostByName [hostname] 1 t ack ∧
      List.Forall₂ (Exchanged cmdGetHostByName [] 4) polls gots ∧
      ((∃ e, ack = .error e ∧ gots = [] ∧ r = .error e) ∨
        (∃ payload, ack = .ok payload ∧ payload ≠ [1] ∧ gots = [] ∧ r = .error .nina) ∨
        ack = .ok [1] ∧ Resolves 40 gots r) := by
  rw [dnsLookup_eq, run_bind_eq] at h
  obtain ⟨b, t, t', hreq, hrest, rfl⟩ := Steps.exists_of_bind h
  rw [Nina.byteCommand, run_bind_eq] at hreq
  obtain ⟨r₁, t₁, t₂, hcommand, hbyte, rfl⟩ := Steps.exists_of_bind hreq
  obtain ⟨ack, hex, rfl⟩ := exists_exchanged hcommand
  cases ack with
  | error e =>
    obtain ⟨rfl, rfl⟩ := Steps.done hbyte
    obtain ⟨rfl, hr⟩ := Steps.done hrest
    refine ⟨t₁, .error e, [], [], ?_, hex, .nil, .inl ⟨e, rfl, rfl, hr⟩⟩
    rw [List.append_nil]
    rfl
  | ok payload =>
    obtain ⟨rfl, hb⟩ := Steps.done hbyte
    obtain rfl : b = .ok ((filled 1 payload).2.getD 0 0) := hb
    rw [getD_filled] at hrest
    have hone := getD_eq_one hex.length_le
    change Steps (Nina.failIf _ _ >>= _ : Nina E _).run t' _ at hrest
    rw [List.append_nil]
    by_cases hack : payload.getD 0 0 = 1
    · rw [Nina.failIf, if_neg (not_not.mpr hack)] at hrest
      obtain ⟨polls, gots, rfl, hall, hresolves⟩ := resolves_of_steps hrest
      exact ⟨t₁, _, polls, gots, rfl, hex, hall,
        .inr (.inr ⟨congrArg _ (hone.mp hack), hresolves⟩)⟩
    · rw [Nina.failIf, if_pos hack] at hrest
      obtain ⟨rfl, hr⟩ := Steps.done hrest
      exact ⟨t₁, _, [], [], rfl, hex, .nil,
        .inr (.inl ⟨payload, rfl, fun h => hack (hone.mpr h), rfl, hr⟩)⟩

/-- An address is an answer. -/
theorem not_notReady {ip : Ipv4} (hip : ip.toList ≠ [0, 0, 0, 0]) :
    ¬ NotReady (E := E) (.ok ip.toList) := by
  rintro (hlt | hzero)
  · exact absurd hlt (by rw [show ip.toList.length = 4 from ip.size_toArray]; decide)
  · exact hip hzero

/-- The first answer is what the polls come to. -/
theorem Resolves.ok_iff {n : ℕ} {gots : List (Except (Error E) (List UInt8))}
    {r : Except (Error E) Ipv4} (h : Resolves n gots r) (ip : Ipv4) :
    r = .ok ip ↔ ∃ early, early.length < n ∧ gots = early ++ [.ok ip.toList] ∧
      (∀ got ∈ early, NotReady got) ∧ ip.toList ≠ [0, 0, 0, 0] := by
  obtain ⟨early, hearly, hcases⟩ := h.cases
  obtain ⟨hlen, rfl, rfl⟩ | ⟨ip', hlen, rfl, hip, rfl⟩ | ⟨e, hlen, rfl, he, rfl⟩ := hcases
  · refine ⟨nofun, ?_⟩
    rintro ⟨early, -, rfl, -, hip⟩
    exact absurd (hearly _ (by simp)) (not_notReady hip)
  · constructor
    · rintro ⟨⟩
      exact ⟨early, hlen, rfl, hearly, hip⟩
    · rintro ⟨early', -, heq, -, -⟩
      have hlast := Except.ok.inj (List.append_singleton_inj.mp heq).2
      rw [← ip4_toList ip', hlast, ip4_toList]
  · refine ⟨nofun, ?_⟩
    rintro ⟨early', -, heq, -, -⟩
    exact absurd (List.append_singleton_inj.mp heq).2 nofun

/-- **A lookup returns the first real answer.**  Whatever is clocked in and whatever fails, it
returns an address exactly if its request was acknowledged and some poll, the fortieth at the
latest, brought that address after polls that all were not ready; an error of the request or of a
poll ends it, and forty polls that were not ready are a timeout. -/
theorem dnsLookup_first_answer (hostname : List UInt8) :
    (Nina.dnsLookup (E := E) hostname).run.Total ∧
    ∀ tr r, Steps (Nina.dnsLookup (E := E) hostname).run tr (.ret r) →
      ∃ t ack polls gots, tr = t ++ polls.flatMap (⟨.timer 100, ()⟩ :: ·) ∧
        Exchanged cmdReqHostByName [hostname] 1 t ack ∧
        List.Forall₂ (Exchanged cmdGetHostByName [] 4) polls gots ∧
        (∀ ip : Ipv4, r = .ok ip ↔ ack = .ok [1] ∧ ∃ early, early.length < 40 ∧
          gots = early ++ [.ok ip.toList] ∧ (∀ got ∈ early, NotReady got) ∧
          ip.toList ≠ [0, 0, 0, 0]) ∧
        ((∃ e, ack = .error e ∧ gots = [] ∧ r = .error e) ∨
          (∃ payload, ack = .ok payload ∧ payload ≠ [1] ∧ gots = [] ∧ r = .error .nina) ∨
          ack = .ok [1] ∧ ∃ early, (∀ got ∈ early, NotReady got) ∧
            ((early.length = 40 ∧ gots = early ∧ r = .error .timeout) ∨
              (∃ ip : Ipv4, early.length < 40 ∧ gots = early ++ [.ok ip.toList] ∧
                ip.toList ≠ [0, 0, 0, 0] ∧ r = .ok ip) ∨
              ∃ e, early.length < 40 ∧ gots = early ++ [.error e] ∧
                ¬ NotReady (.error e) ∧ r = .error e)) := by
  refine ⟨total_dnsLookup hostname, fun tr r h => ?_⟩
  obtain ⟨t, ack, polls, gots, htr, hreq, hpolls, hcases⟩ := lookup_of_steps h
  refine ⟨t, ack, polls, gots, htr, hreq, hpolls, ?_, ?_⟩
  · intro ip
    obtain ⟨e, rfl, rfl, rfl⟩ | ⟨payload, rfl, hne, rfl, rfl⟩ | ⟨rfl, hresolves⟩ := hcases
    · exact ⟨by simp, fun h => absurd h.1 (by simp)⟩
    · exact ⟨by simp, fun h => absurd (Except.ok.inj h.1) hne⟩
    · rw [hresolves.ok_iff ip]
      exact ⟨fun h => ⟨rfl, h⟩, fun h => h.2⟩
  · obtain herr | hnack | ⟨hack, hresolves⟩ := hcases
    · exact .inl herr
    · exact .inr (.inl hnack)
    · exact .inr (.inr ⟨hack, hresolves.cases⟩)

/-- A chip that knows an address from the second poll on. -/
def slowChip : Chip ℕ where
  idle c := c
  serve c request :=
    if opcode request = cmdReqHostByName then (0, oneParam len8 cmdReqHostByName [1])
    else (c + 1, oneParam len8 cmdGetHostByName (if c = 0 then [0, 0, 0, 0] else [10, 0, 0, 7]))

/-- Its address comes from the last of the polls. -/
theorem dnsLookup_first_answer_slowChip :
    ∃ tr t polls gots early, Steps (Nina.dnsLookup (E := Unit) [97]).run tr
        (.ret (.ok #v[10, 0, 0, 7])) ∧ tr = t ++ polls.flatMap (⟨.timer 100, ()⟩ :: ·) ∧
      List.Forall₂ (Exchanged cmdGetHostByName [] 4) polls gots ∧
      gots = early ++ [.ok [10, 0, 0, 7]] ∧ ∀ got ∈ early, NotReady got := by
  have hdone : ((slowChip.bus Unit).exec (Nina.dnsLookup [97]).run ⟨0, [], [], silence⟩).1 =
      .done (.ok #v[10, 0, 0, 7]) := by decide +kernel
  have hsteps := (slowChip.bus Unit).steps_trace (Nina.dnsLookup [97]).run ⟨0, [], [], silence⟩
  rw [hdone] at hsteps
  obtain ⟨-, hall⟩ := dnsLookup_first_answer (E := Unit) [97]
  obtain ⟨t, ack, polls, gots, htr, -, hpolls, hok, -⟩ := hall _ _ hsteps
  obtain ⟨-, early, -, hgots, hearly, -⟩ := (hok #v[10, 0, 0, 7]).mp rfl
  exact ⟨_, t, polls, gots, early, hsteps, htr, hpolls, hgots, hearly⟩

end EmbassyNina
