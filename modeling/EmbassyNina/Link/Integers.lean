import EmbassyNina.Link.SendLog
import EmbassyNina.Link.Turn

/-!
# Link/Integers — wide integers in narrow results

`tcpAccept` receives a count of one or two bytes and returns a slot of one; `scanRssi` receives 32
bits and returns eight.  Both cut what they receive.  The results are exact as long as the value
fits, and a value that does not is never an error: a slot of 256 is slot 0, an RSSI of 200 is -56
(`wide_integers_iff`).
-/

namespace EmbassyNina

open Machinery Prog

variable {C E : Type} {K : Chip C}

/-! ## What is received -/

namespace Chip

/-- A count brings what the reply says. -/
theorem runs_countCommand_says (cmd : UInt8) (params : List (List UInt8)) (s : Link C) :
    ∃ got, K.Runs (Nina.countCommand (E := E) cmd params).run s
        (got.bind fun p => (countOf p).elim (.error .framing) .ok)
        (s.exchanged K (frame cmd (params.map .short))) ∧
      Says len8 cmd 4 (s.answered K (frame cmd (params.map .short))) got := by
  obtain ⟨got, hrun, hsays⟩ := runs_command_says (K := K) (E := E) cmd params 4 s
  refine ⟨got, ?_, hsays⟩
  cases got with
  | error e => exact hrun.error
  | ok p =>
    refine hrun.ok ?_
    rw [filled, run_count12]
    exact .ret _

end Chip

/-! ## Slots -/

def acceptFrame (sock : Socket) : List UInt8 :=
  frame cmdAvailDataTcp [.short [sock.raw], .short [0]]

/-- What `tcpAccept` makes of a count. -/
def acceptOf (raw : ℕ) : Option Socket :=
  if raw = 0x00FF ∨ raw = 0xFFFF then none else some ⟨UInt8.ofNat raw⟩

theorem Chip.runs_tcpAccept (listenSock : Socket) (s : Link C) :
    ∃ got : Except (Error E) (List UInt8), K.Runs (Nina.tcpAccept listenSock).run s
        (got.bind fun p => (countOf p).elim (.error .framing) fun raw => .ok (acceptOf raw))
        (s.exchanged K (acceptFrame listenSock)) ∧
      Says len8 cmdAvailDataTcp 4 (s.answered K (acceptFrame listenSock)) got := by
  obtain ⟨got, hrun, hsays⟩ := runs_countCommand_says (K := K) (E := E) cmdAvailDataTcp
    [[listenSock.raw], [0]] s
  refine ⟨got, ?_, hsays⟩
  rcases got with e | p
  · exact hrun.error
  rw [Except.bind] at hrun ⊢
  cases hcount : countOf p with
  | none =>
    rw [hcount] at hrun
    exact hrun.error
  | some raw =>
    rw [hcount] at hrun
    refine hrun.ok ?_
    by_cases hnone : raw = 0x00FF ∨ raw = 0xFFFF
    · rw [if_pos hnone, Option.elim, acceptOf, if_pos hnone]
      exact .ret _
    · rw [if_neg hnone, Option.elim, acceptOf, if_neg hnone]
      exact .ret _

/-- The count received is a slot number of more than a byte. -/
def WideCount (reply : Bytes) : Prop :=
  ∃ p rest raw, OneParam len8 cmdAvailDataTcp p reply rest ∧ countOf p = some raw ∧ 256 ≤ raw ∧
    raw ≠ 0xFFFF

/-- **A slot is the one the chip named**: the count received is its number and no sentinel, and a
number that is no slot's is an error. -/
def ExactSlot (reply : Bytes) (r : Except (Error E) (Option Socket)) : Prop :=
  (∀ sock, r = .ok (some sock) → ∃ p rest, OneParam len8 cmdAvailDataTcp p reply rest ∧
    countOf p = some sock.raw.toNat ∧ sock.raw.toNat ≠ 0x00FF ∧ sock.raw.toNat ≠ 0xFFFF) ∧
  ∀ p rest raw, OneParam len8 cmdAvailDataTcp p reply rest → countOf p = some raw → 256 ≤ raw →
    raw ≠ 0xFFFF → ∃ e, r = .error e

/-- A count has at most two bytes. -/
theorem length_of_countOf {p : List UInt8} {raw : ℕ} (h : countOf p = some raw) :
    p.length ≤ 4 := by
  obtain _ | ⟨lo, _ | ⟨hi, _ | ⟨b, p⟩⟩⟩ := p
  · exact absurd h nofun
  · exact Nat.le_of_ble_eq_true rfl
  · exact Nat.le_of_ble_eq_true rfl
  · exact absurd h nofun

theorem exactSlot_iff {reply : Bytes} {got : Except (Error E) (List UInt8)}
    (h : Says len8 cmdAvailDataTcp 4 reply got) :
    ExactSlot reply
        (got.bind fun p => (countOf p).elim (.error .framing) fun raw => .ok (acceptOf raw)) ↔
      ¬ WideCount reply := by
  constructor
  · rintro ⟨-, herror⟩ ⟨p, rest, raw, hone, hcount, hwide, hne⟩
    obtain rfl := Says.unique (R := .recvCmdOneParam) h (.payload hone (length_of_countOf hcount))
    obtain ⟨e, he⟩ := herror p rest raw hone hcount hwide hne
    rw [Except.bind, hcount] at he
    exact absurd he (by simp)
  · intro hnarrow
    refine ⟨fun sock hsock => ?_, fun p rest raw hone hcount hwide hne =>
      absurd ⟨p, rest, raw, hone, hcount, hwide, hne⟩ hnarrow⟩
    rcases got with e | p
    · exact absurd hsock nofun
    obtain ⟨-, rest, hone⟩ := h.of_ok
    rw [Except.bind] at hsock
    cases hcount : countOf p with
    | none =>
      rw [hcount] at hsock
      exact absurd hsock nofun
    | some raw =>
      rw [hcount] at hsock
      have haccept : acceptOf raw = some sock := Except.ok.inj hsock
      rw [acceptOf] at haccept
      split at haccept
      · exact absurd haccept nofun
      · rename_i hne
        obtain rfl := Option.some.inj haccept
        obtain ⟨hff, hffff⟩ := not_or.mp hne
        have hlt : raw < 256 := Nat.lt_of_not_le fun hwide =>
          hnarrow ⟨p, rest, raw, hone, hcount, hwide, hffff⟩
        have hraw : (UInt8.ofNat raw).toNat = raw := toNat_ofNat_of_lt hlt
        refine ⟨p, rest, hone, ?_⟩
        rw [hraw]
        exact ⟨hcount, hff, hffff⟩

/-! ## Signal strengths -/

def rssiFrame (index : UInt8) : List UInt8 := frame cmdGetIdxRssi [.short [index]]

/-- What `scanRssi` makes of a reply. -/
def rssiOf (p : List UInt8) : Except (Error E) Int :=
  if p.length = 4 then .ok (Int.bmod (i32OfLe p) 256) else .error .framing

theorem Chip.runs_scanRssi (index : UInt8) (s : Link C) :
    ∃ got : Except (Error E) (List UInt8), K.Runs (Nina.scanRssi index).run s
        (got.bind rssiOf) (s.exchanged K (rssiFrame index)) ∧
      Says len8 cmdGetIdxRssi 4 (s.answered K (rssiFrame index)) got := by
  obtain ⟨got, hrun, hsays⟩ := runs_command_says (K := K) (E := E) cmdGetIdxRssi [[index]] 4 s
  refine ⟨got, ?_, hsays⟩
  rcases got with e | p
  · exact hrun.error
  rw [Except.bind, rssiOf]
  by_cases hlen : p.length = 4
  · have hbuf : (filled 4 p).2 = p := by
      rw [filled, hlen, Nat.sub_self, List.replicate_zero, List.append_nil]
    rw [if_pos hlen, ← hbuf]
    exact hrun.ok ((Runs.failIf_neg (not_not.mpr hlen) _).ok (.ret _))
  · rw [if_neg hlen]
    exact hrun.ok (Runs.failIf_pos hlen _).error

/-- The 32-bit value received does not fit eight. -/
def WideRssi (reply : Bytes) : Prop :=
  ∃ p rest, OneParam len8 cmdGetIdxRssi p reply rest ∧ p.length = 4 ∧
    (i32OfLe p < -128 ∨ 127 < i32OfLe p)

/-- **A signal strength is the one the chip sent**, and one that does not fit is an error. -/
def ExactRssi (reply : Bytes) (r : Except (Error E) Int) : Prop :=
  (∀ v, r = .ok v → ∃ p rest, OneParam len8 cmdGetIdxRssi p reply rest ∧ p.length = 4 ∧
    i32OfLe p = v) ∧
  ∀ p rest, OneParam len8 cmdGetIdxRssi p reply rest → p.length = 4 →
    i32OfLe p < -128 ∨ 127 < i32OfLe p → ∃ e, r = .error e

theorem exactRssi_iff {reply : Bytes} {got : Except (Error E) (List UInt8)}
    (h : Says len8 cmdGetIdxRssi 4 reply got) :
    ExactRssi reply (got.bind rssiOf) ↔ ¬ WideRssi reply := by
  constructor
  · rintro ⟨-, herror⟩ ⟨p, rest, hone, hlen, hwide⟩
    obtain rfl := Says.unique (R := .recvCmdOneParam) h (.payload hone hlen.le)
    obtain ⟨e, he⟩ := herror p rest hone hlen hwide
    rw [Except.bind, rssiOf, if_pos hlen] at he
    exact absurd he (by simp)
  · intro hnarrow
    refine ⟨fun v hv => ?_, fun p rest hone hlen hwide =>
      absurd ⟨p, rest, hone, hlen, hwide⟩ hnarrow⟩
    rcases got with e | p
    · exact absurd hv nofun
    obtain ⟨-, rest, hone⟩ := h.of_ok
    rw [Except.bind, rssiOf] at hv
    split at hv
    · rename_i hlen
      have hfits : -128 ≤ i32OfLe p ∧ i32OfLe p ≤ 127 := by
        by_contra hout
        exact hnarrow ⟨p, rest, hone, hlen, by omega⟩
      refine ⟨p, rest, hone, hlen, ?_⟩
      rw [← Except.ok.inj hv, Int.bmod_eq_of_le (by omega) (by omega)]
    · exact absurd hv nofun

/-! ## Both -/

/-- **Wide integers are exact as long as they fit, and are never refused.**  `tcpAccept` returns the
slot the chip named, and `scanRssi` the strength it sent, exactly when the value received is no
number of more than a byte. -/
theorem wide_integers_iff (K : Chip C) (s : Link C) :
    (∀ listenSock, ∃ r, K.Runs (Nina.tcpAccept (E := E) listenSock).run s r
        (s.exchanged K (acceptFrame listenSock)) ∧
      (ExactSlot (s.answered K (acceptFrame listenSock)) r ↔
        ¬ WideCount (s.answered K (acceptFrame listenSock)))) ∧
    ∀ index, ∃ r, K.Runs (Nina.scanRssi (E := E) index).run s r
        (s.exchanged K (rssiFrame index)) ∧
      (ExactRssi (s.answered K (rssiFrame index)) r ↔
        ¬ WideRssi (s.answered K (rssiFrame index))) := by
  refine ⟨fun listenSock => ?_, fun index => ?_⟩
  · obtain ⟨got, hrun, hsays⟩ := Chip.runs_tcpAccept (K := K) (E := E) listenSock s
    exact ⟨_, hrun, exactSlot_iff hsays⟩
  · obtain ⟨got, hrun, hsays⟩ := Chip.runs_scanRssi (K := K) (E := E) index s
    exact ⟨_, hrun, exactRssi_iff hsays⟩

/-- A slot of 256 is taken for slot 0, and an RSSI of 200 for -56. -/
theorem wide_integers_wrapped :
    (∃ s', (repeatingChip [0x00, 0x01]).Runs (E := Unit) (Nina.tcpAccept ⟨3⟩).run
        ⟨(), [], [], silence⟩ (.ok (some ⟨0⟩)) s') ∧
      ¬ ExactSlot (E := Unit) ((⟨(), [], [], silence⟩ : Link Unit).answered
        (repeatingChip [0x00, 0x01]) (acceptFrame ⟨3⟩)) (.ok (some ⟨0⟩)) ∧
      (∃ s', (repeatingChip [200, 0, 0, 0]).Runs (E := Unit) (Nina.scanRssi 0).run
        ⟨(), [], [], silence⟩ (.ok (-56)) s') ∧
      ¬ ExactRssi (E := Unit) ((⟨(), [], [], silence⟩ : Link Unit).answered
        (repeatingChip [200, 0, 0, 0]) (rssiFrame 0)) (.ok (-56)) := by
  refine ⟨Chip.exists_runs ?_, fun h => ?_, Chip.exists_runs ?_, fun h => ?_⟩
  · decide +kernel
  · obtain ⟨e, he⟩ := h.2 [0x00, 0x01] silence 256
      (oneParam_repeatingChip (by decide) (by decide) _) rfl (by decide) (by decide)
    exact absurd he (by simp)
  · decide +kernel
  · obtain ⟨e, he⟩ := h.2 [200, 0, 0, 0] silence
      (oneParam_repeatingChip (by decide) (by decide) _) rfl (.inr (by decide +kernel))
    exact absurd he (by simp)

end EmbassyNina
