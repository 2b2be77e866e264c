import EmbassyNina.Link.Answer
import EmbassyNina.Link.EndOfStream

/-!
# Link/Turn — the loop of a read, turn by turn

A turn of a read is a receive and, if that brings nothing, a poll of the state; `ReadTurn` says what
comes of it for every pair of replies.  The loop has no bound of its own.  On an empty buffer a
receive never brings anything, so a read of nothing goes on for as long as the chip reports a state
that does not read as the end of the stream (`read_empty_returns_iff`).
-/

namespace EmbassyNina

open Machinery Prog

variable {C E : Type} {K : Chip C} {sock : Socket}

/-! ## One turn -/

namespace Chip

/-- A receive brings what the reply to it says. -/
theorem runs_tcpRecv_says (sock : Socket) (out : Buf) (s : Link C) :
    ∃ got out', K.Runs ((Nina.tcpRecv (E := E) sock).run out) s (got.map List.length, out')
        (s.exchanged K (recvFrame sock out.length)) ∧
      Says len16 cmdGetDatabufTcp out.length (s.answered K (recvFrame sock out.length)) got ∧
      ∀ p, got = .ok p → out' = p ++ out.drop p.length := by
  obtain ⟨got, hsays⟩ := Says.exists_says (E := E) len16 cmdGetDatabufTcp out.length
    (s.answered K (recvFrame sock out.length))
  obtain ⟨out', st', hread, hout⟩ := Says.reads (R := .recvCmdOneParam16) hsays rfl
  have hfits : frameLength [.long [sock.raw], .long (leBytes (min out.length 65535))] ≤ 256 := by
    rw [frameLength, length_encodeAll]
    simp [Param.data, len16, leBytes]
  have hrun := runs_received (K := K) (s := s.served K (recvFrame sock out.length))
    (doesB_recvCmdOneParam16Inner cmdGetDatabufTcp) rfl
    ((reads_received _ _ _).symm.trans hread)
  have hsend := (runs_sendCmdMixed (K := K) (E := E) cmdGetDatabufTcp hfits s).lift out
  exact ⟨got, out', Runs.okB (Runs.ret _) (hsend.okB hrun), hsays, hout⟩

/-- A state poll brings the state that the reply to it says, or that of a zero byte. -/
theorem runs_tcpState_says (sock : Socket) (s : Link C) :
    ∃ got, K.Runs (Nina.tcpState (E := E) sock).run s
        (got.map fun p : List UInt8 => SockState.fromU8 (p.getD 0 0))
        (s.exchanged K (stateFrame sock)) ∧
      Says len8 cmdGetClientStateTcp 1 (s.answered K (stateFrame sock)) got := by
  obtain ⟨got, hrun, hsays⟩ := runs_byteCommand_says (K := K) (E := E) cmdGetClientStateTcp
    [[sock.raw]] s
  refine ⟨got, ?_, hsays⟩
  cases got with
  | error e => exact hrun.error
  | ok p => exact hrun.ok (.ret _)

variable {s s₁ s₂ : Link C} {out out' : Buf}

/-- A turn fails with its receive… -/
theorem runs_readTurn_failed (f : Facade) {e : Error E}
    (hrecv : K.Runs ((Nina.tcpRecv (E := E) sock).run out) s (.error e, out') s₁) :
    K.Runs ((f.readTurn (E := E) sock).run out) s (.error e, out') s₁ := by
  cases f with
  | ninaTcpSocket => exact hrecv.errorB
  | ninaSocket =>
    have hlocked : K.Runs ((NinaSocket.readLocked (E := E) sock).run out) s (.error e, out') s₁ :=
      hrecv.errorB
    exact hlocked.lockedB.errorB

/-- …and with its poll. -/
theorem runs_readTurn_unpolled (f : Facade) {e : Error E}
    (hrecv : K.Runs ((Nina.tcpRecv (E := E) sock).run out) s (.ok 0, out') s₁)
    (hstate : K.Runs (Nina.tcpState (E := E) sock).run s₁ (.error e) s₂) :
    K.Runs ((f.readTurn (E := E) sock).run out) s (.error e, out') s₂ := by
  cases f with
  | ninaTcpSocket =>
    refine hrecv.okB ?_
    rw [if_neg (Nat.lt_irrefl 0)]
    exact (hstate.lift out').errorB
  | ninaSocket =>
    have hlocked : K.Runs ((NinaSocket.readLocked (E := E) sock).run out) s
        (.error e, out') s₂ := by
      refine hrecv.okB ?_
      rw [if_neg (Nat.lt_irrefl 0)]
      exact (hstate.lift out').errorB
    exact hlocked.lockedB.errorB

end Chip

/-- **What comes of a turn**: an error, some bytes, or what the state poll says. -/
inductive ReadTurn (K : Chip C) (sock : Socket) (room : ℕ) (s : Link C) :
    Except (Error E) (Option ℕ) → Link C → Prop
  | failed {e : Error E}
      (h : Says len16 cmdGetDatabufTcp room (s.answered K (recvFrame sock room)) (.error e)) :
    ReadTurn K sock room s (.error e) (s.exchanged K (recvFrame sock room))
  | data {p : List UInt8} (hpos : 0 < p.length)
      (h : Says (E := E) len16 cmdGetDatabufTcp room (s.answered K (recvFrame sock room)) (.ok p)) :
    ReadTurn K sock room s (.ok (some p.length)) (s.exchanged K (recvFrame sock room))
  | polled {got : Except (Error E) (List UInt8)}
      (h : Says (E := E) len16 cmdGetDatabufTcp room (s.answered K (recvFrame sock room)) (.ok []))
      (hstate : Says len8 cmdGetClientStateTcp 1
        ((s.exchanged K (recvFrame sock room)).answered K (stateFrame sock)) got) :
    ReadTurn K sock room s
      (got.map fun p => if (SockState.fromU8 (p.getD 0 0)).readsAsEof then some 0 else none)
      ((s.exchanged K (recvFrame sock room)).exchanged K (stateFrame sock))

/-- **One turn of the loop in `read`**, whatever the chip replies. -/
theorem Chip.runs_readTurn (f : Facade) (sock : Socket) (out : Buf) (s : Link C) :
    ∃ r out' s', K.Runs ((f.readTurn (E := E) sock).run out) s (r, out') s' ∧
      ReadTurn K sock out.length s r s' ∧ (r = .ok none → out' = out) := by
  obtain ⟨got, out', hrecv, hsays, hout⟩ := runs_tcpRecv_says (K := K) (E := E) sock out s
  rcases got with e | p
  · exact ⟨_, _, _, runs_readTurn_failed f hrecv, .failed hsays, by simp⟩
  rcases Nat.eq_zero_or_pos p.length with hzero | hpos
  · obtain rfl := List.eq_nil_of_length_eq_zero hzero
    obtain ⟨got, hstate, hsays'⟩ := runs_tcpState_says (K := K) (E := E) sock
      (s.exchanged K (recvFrame sock out.length))
    refine ⟨_, out', _, ?_, .polled hsays hsays', fun _ => hout [] rfl⟩
    cases got with
    | error e => exact runs_readTurn_unpolled f hrecv hstate
    | ok q => exact runs_readTurn_zero f hrecv hstate
  · exact ⟨_, _, _, runs_readTurn_pos f hpos hrecv, .data hpos hsays, by simp⟩

/-- A turn is at most two exchanges. -/
theorem ReadTurn.log {room : ℕ} {s s' : Link C} {r : Except (Error E) (Option ℕ)}
    (h : ReadTurn K sock room s r s') : ∃ log, s'.log = s.log ++ log ∧ log.length ≤ 2 := by
  cases h with
  | failed h => exact ⟨_, rfl, by simp⟩
  | data hpos h => exact ⟨_, rfl, by simp⟩
  | polled h hstate =>
    exact ⟨_, by rw [Link.log_exchanged, Link.log_exchanged, List.append_assoc], by simp⟩

/-- **A read that reports the end of the stream** has just polled the state, and the reply to the
poll, or the zero that stands for an empty one, reads as the end. -/
theorem exists_poll_of_eof {f : Facade} {fuel : ℕ} {out out' : Buf} {s s' : Link C}
    (h : K.Runs ((f.read (E := E) fuel sock).run out) s (.ok 0, out') s') :
    ∃ (s₁ : Link C) (p : List UInt8) (log : List (Exchange C)),
      s'.log = s.log ++ log ++ [s₁.exchange K (stateFrame sock)] ∧
      Says (E := E) len8 cmdGetClientStateTcp 1 (s₁.answered K (stateFrame sock)) (.ok p) ∧
      (SockState.fromU8 (p.getD 0 0)).readsAsEof = true := by
  rw [Facade.read_eq] at h
  induction fuel generalizing s out with
  | zero => exact absurd (Prod.mk.inj h).1 nofun
  | succ fuel ih =>
    obtain ⟨r, out₁, s₁, hturn, hcame, -⟩ := Chip.runs_readTurn (K := K) (E := E) f sock out s
    obtain ⟨log₁, hlog₁, -⟩ := hcame.log
    rcases r with e | _ | n
    · exact absurd (Chip.Runs.unique hturn.errorB h).1 (by simp)
    · obtain ⟨s₂, p, log, hlog, hsays, heof⟩ := ih (hturn.of_okB h)
      refine ⟨s₂, p, log₁ ++ log, ?_, hsays, heof⟩
      rw [hlog, hlog₁]
      simp only [List.append_assoc]
    · obtain ⟨hr, rfl⟩ := Chip.Runs.unique (.ret _) (hturn.of_okB h)
      obtain rfl : 0 = n := Except.ok.inj (Prod.mk.inj hr).1
      generalize hr : (Except.ok (some 0) : Except (Error E) (Option ℕ)) = r at hcame
      cases hcame with
      | failed hrecv => exact absurd hr (by simp)
      | data hpos hrecv =>
        obtain hn := Option.some.inj (Except.ok.inj hr)
        omega
      | polled hrecv hstate =>
        obtain ⟨p, rfl, hp⟩ := map_eq_ok.mp hr.symm
        refine ⟨_, p, [s.exchange K (recvFrame sock out.length)], rfl, hstate, ?_⟩
        by_contra hopen
        rw [if_neg hopen] at hp
        exact absurd hp (by simp)

/-! ## Reading nothing -/

/-- The line after a turn of a read of nothing. -/
def nothingRead (K : Chip C) (sock : Socket) (s : Link C) : Link C :=
  (s.exchanged K (recvFrame sock 0)).exchanged K (stateFrame sock)

/-- **A read of nothing goes on** after a receive that brings no bytes and a state poll that brings
one byte, of a state that does not read as the end of the stream. -/
def GoesOn (K : Chip C) (sock : Socket) (s : Link C) : Prop :=
  (∃ rest, OneParam len16 cmdGetDatabufTcp [] (s.answered K (recvFrame sock 0)) rest) ∧
    ∃ b rest, OneParam len8 cmdGetClientStateTcp [b]
      ((s.exchanged K (recvFrame sock 0)).answered K (stateFrame sock)) rest ∧
      (SockState.fromU8 b).readsAsEof = false

/-- **A turn of a read of nothing** goes on, or ends it with `Ok(0)` or an error. -/
theorem ReadTurn.nothing {s s' : Link C} {r : Except (Error E) (Option ℕ)}
    (h : ReadTurn K sock 0 s r s') :
    (GoesOn K sock s ∧ r = .ok none ∧ s' = nothingRead K sock s) ∨
      (¬ GoesOn K sock s ∧ (r = .ok (some 0) ∨ ∃ e, r = .error e)) := by
  cases h with
  | @failed e h =>
    refine .inr ⟨fun hgo => ?_, .inr ⟨e, rfl⟩⟩
    obtain ⟨rest, hone⟩ := hgo.1
    exact absurd (Says.unique (R := .recvCmdOneParam16) h (.payload hone (Nat.le_refl _)))
      (by simp)
  | @data p hpos h =>
    obtain ⟨hle, -⟩ := h.of_ok
    omega
  | @polled got h hstate =>
    obtain ⟨-, hempty⟩ := h.of_ok
    rcases got with e | p
    · refine .inr ⟨fun hgo => ?_, .inr ⟨e, rfl⟩⟩
      obtain ⟨-, b, rest, hone, -⟩ := hgo
      exact absurd (Says.unique (R := .recvCmdOneParam) hstate (.payload hone (Nat.le_refl _)))
        (by simp)
    obtain ⟨hle, rest, hone⟩ := hstate.of_ok
    cases heof : (SockState.fromU8 (p.getD 0 0)).readsAsEof with
    | true =>
      refine .inr ⟨fun hgo => ?_, .inl (congrArg Except.ok (if_pos heof))⟩
      obtain ⟨-, b, rest', hone', hopen⟩ := hgo
      have hp := Says.unique (R := .recvCmdOneParam) hstate (.payload hone' (Nat.le_refl _))
      obtain rfl := Except.ok.inj hp
      exact absurd (hopen.symm.trans heof) nofun
    | false =>
      have hopen : ¬ (SockState.fromU8 (p.getD 0 0)).readsAsEof = true := by
        rw [heof]
        exact Bool.false_ne_true
      refine .inl ⟨⟨hempty, ?_⟩, congrArg Except.ok (if_neg hopen), rfl⟩
      obtain _ | ⟨b, _ | ⟨b', p⟩⟩ := p
      · exact absurd heof (by decide)
      · exact ⟨b, rest, hone, heof⟩
      · exact absurd hle (by simp)

/-- A read of nothing returns within `n` turns, of at most two exchanges each, and as an empty
buffer wants it: with `Ok(0)`, or with an error. -/
def ReturnsWithin (E : Type) (K : Chip C) (f : Facade) (sock : Socket) (n : ℕ) (s : Link C) :
    Prop :=
  ∃ r out' s' log, K.Runs ((f.read (E := E) n sock).run []) s (r, out') s' ∧
    s'.log = s.log ++ log ∧ log.length ≤ 2 * n ∧ (r = .ok 0 ∨ ∃ e, r = .error e)

/-- A read of nothing that returns has come to a turn that does not go on… -/
theorem exists_ends_of_runs {f : Facade} {n : ℕ} {s s' : Link C}
    {r : Except (Error E) ℕ × Buf} (h : K.Runs ((f.read (E := E) n sock).run []) s r s') :
    ∃ i < n, ¬ GoesOn K sock ((nothingRead K sock)^[i] s) := by
  rw [Facade.read_eq] at h
  induction n generalizing s with
  | zero => exact absurd (Prod.mk.inj h).1 nofun
  | succ n ih =>
    obtain ⟨o, out₁, s₁, hturn, hturned, hout⟩ :=
      Chip.runs_readTurn (K := K) (E := E) f sock [] s
    obtain ⟨-, rfl, rfl⟩ | ⟨hends, -⟩ := hturned.nothing
    · obtain rfl := hout rfl
      obtain ⟨i, hi, hends⟩ := ih (hturn.of_okB h)
      exact ⟨i + 1, Nat.succ_lt_succ hi, hends⟩
    · exact ⟨0, Nat.succ_pos n, hends⟩

/-- …and one that comes to such a turn returns at it. -/
theorem returnsWithin_of_ends (f : Facade) {n i : ℕ} (hi : i < n) {s : Link C}
    (h : ¬ GoesOn K sock ((nothingRead K sock)^[i] s)) : ReturnsWithin E K f sock n s := by
  rw [ReturnsWithin, Facade.read_eq]
  induction n generalizing s i with
  | zero => exact absurd hi (Nat.not_lt_zero i)
  | succ n ih =>
    obtain ⟨o, out₁, s₁, hturn, hturned, hout⟩ :=
      Chip.runs_readTurn (K := K) (E := E) f sock [] s
    obtain ⟨log₁, hlog₁, hlen₁⟩ := hturned.log
    obtain ⟨hgo, rfl, rfl⟩ | ⟨-, rfl | ⟨e, rfl⟩⟩ := hturned.nothing
    · obtain rfl := hout rfl
      obtain _ | i := i
      · exact absurd hgo h
      obtain ⟨r, out', s', log, hrun, hlog, hlen, hr⟩ := ih (Nat.lt_of_succ_lt_succ hi) h
      refine ⟨r, out', s', log₁ ++ log, hturn.okB hrun, ?_, ?_, hr⟩
      · rw [hlog, hlog₁, List.append_assoc]
      · rw [List.length_append]
        omega
    · exact ⟨_, _, _, log₁, hturn.okB (.ret _), hlog₁, by omega, .inl rfl⟩
    · exact ⟨_, _, _, log₁, hturn.errorB, hlog₁, by omega, .inr ⟨e, rfl⟩⟩

/-- **A read of nothing returns exactly when some turn's replies end it**: within any number of
turns when one of them does, and never when the chip reports for ever a state that does not read as
the end of the stream. -/
theorem read_empty_returns_iff (K : Chip C) (f : Facade) (sock : Socket) (s : Link C) :
    (∀ n, ReturnsWithin E K f sock n s ↔
      ∃ i < n, ¬ GoesOn K sock ((nothingRead K sock)^[i] s)) ∧
    ((∃ n, ReturnsWithin E K f sock n s) ↔
      ∃ i, ¬ GoesOn K sock ((nothingRead K sock)^[i] s)) := by
  have hwithin : ∀ n, ReturnsWithin E K f sock n s ↔
      ∃ i < n, ¬ GoesOn K sock ((nothingRead K sock)^[i] s) := by
    refine fun n => ⟨?_, ?_⟩
    · rintro ⟨r, out', s', log, hrun, -⟩
      exact exists_ends_of_runs hrun
    · rintro ⟨i, hi, hends⟩
      exact returnsWithin_of_ends f hi hends
  refine ⟨hwithin, ?_, ?_⟩
  · rintro ⟨n, h⟩
    obtain ⟨i, -, hends⟩ := (hwithin n).mp h
    exact ⟨i, hends⟩
  · rintro ⟨i, hends⟩
    exact ⟨i + 1, (hwithin (i + 1)).mpr ⟨i, Nat.lt_succ_self i, hends⟩⟩

/-- A chip that has no bytes for a receive, and answers everything else with `p`. -/
def repeatingChip (p : List UInt8) : Chip Unit where
  idle c := c
  serve c request :=
    (c, if opcode request = cmdGetDatabufTcp then oneParam len16 cmdGetDatabufTcp []
      else oneParam len8 (opcode request) p)

theorem oneParam_repeatingChip {p request : List UInt8} (hp : p.length < 256)
    (h : opcode request ≠ cmdGetDatabufTcp) (s : Link Unit) :
    OneParam len8 (opcode request) p (s.answered (repeatingChip p) request) silence := by
  have hreply : s.answered (repeatingChip p) request = oneParam len8 (opcode request) p := if_neg h
  rw [hreply]
  exact oneParam_spec hp _

/-- A socket that stays established. -/
theorem goesOn_repeatingChip (s : Link Unit) : GoesOn (repeatingChip [4]) ⟨0⟩ s := by
  refine ⟨⟨silence, ?_⟩, 4, silence, ?_, by decide⟩
  · exact oneParam_spec (C := len16) (by decide) _
  · exact oneParam_repeatingChip (by decide) (by decide) _

theorem not_returnsWithin_repeatingChip (f : Facade) (n : ℕ) (s : Link Unit) :
    ¬ ReturnsWithin E (repeatingChip [4]) f ⟨0⟩ n s := by
  rintro ⟨r, out', s', log, hrun, -⟩
  obtain ⟨i, -, hends⟩ := exists_ends_of_runs hrun
  exact hends (goesOn_repeatingChip _)

/-- On it a read into an empty buffer never returns, on either socket type, however long it goes
on. -/
theorem read_empty_blocks_repeatingChip :
    (¬ ∃ n, ReturnsWithin Unit (repeatingChip [4]) .ninaTcpSocket ⟨0⟩ n ⟨(), [], [], silence⟩) ∧
      ¬ ∃ n, ReturnsWithin Unit (repeatingChip [4]) .ninaSocket ⟨0⟩ n ⟨(), [], [], silence⟩ := by
  refine ⟨?_, ?_⟩
  · rintro ⟨n, h⟩
    exact not_returnsWithin_repeatingChip _ n _ h
  · rintro ⟨n, h⟩
    exact not_returnsWithin_repeatingChip _ n _ h

end EmbassyNina
