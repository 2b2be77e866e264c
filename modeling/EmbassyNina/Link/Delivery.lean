import EmbassyNina.Link.SendLog

/-!
# Link/Delivery — what `tcpSend` gets accepted

A chip is `Truthful` on a socket when each `SEND_DATA_TCP` frame makes it accept some prefix of the
payload and report how long.  A reply that is no ack leaves a chip `Honest` if it accepts nothing
then, and `Honest.accepted_eq` carries that along a log: what it has accepted is what its positive
acks say.  The retry loop takes any positive count for the whole chunk, and so the bytes accepted
are the data exactly when every frame was accepted whole or not at all (`tcpSend_delivers_iff`).
-/

namespace EmbassyNina

open Machinery

variable {C E : Type} {K : Chip C} {sock : Socket}

/-! ## Truthful chips -/

/-- **A truthful chip.**  A frame that offers a chunk to the socket makes the chip accept some
prefix of it, from nothing to the whole, and the reply is the length of that prefix in one byte or
two.  Nothing else is accepted. -/
structure Truthful (K : Chip C) (sock : Socket) (accepted : C → List UInt8) : Prop where
  idle : ∀ c, accepted (K.idle c) = accepted c
  other : ∀ c request, (∀ chunk, ¬ Offers sock chunk request) →
    accepted (K.serve c request).1 = accepted c
  offer : ∀ c chunk request, Offers sock chunk request → ∃ k ≤ chunk.length,
    accepted (K.serve c request).1 = accepted c ++ chunk.take k ∧
    ∃ bytes rest, (k < 256 ∧ bytes = [UInt8.ofNat k] ∨ k < 65536 ∧ bytes = leBytes k) ∧
      OneParam len8 cmdSendDataTcp bytes (K.serve c request).2 rest

/-- **An honest chip** accepts of a chunk what its reply acks, and nothing where that is no ack. -/
structure Honest (K : Chip C) (sock : Socket) (accepted : C → List UInt8) : Prop where
  idle : ∀ c, accepted (K.idle c) = accepted c
  other : ∀ c request, (∀ chunk, ¬ Offers sock chunk request) →
    accepted (K.serve c request).1 = accepted c
  offer : ∀ (ex : Exchange C) chunk, ex.reply = (K.serve ex.chip ex.request).2 →
    Offers sock chunk ex.request → ex.acked.getD 0 ≤ chunk.length ∧
      accepted (K.serve ex.chip ex.request).1 =
        accepted ex.chip ++ chunk.take (ex.acked.getD 0)

/-- In this exchange the chip accepted the chunk it was offered, whole or not at all. -/
def WholeOrNone (K : Chip C) (sock : Socket) (accepted : C → List UInt8) (ex : Exchange C) : Prop :=
  ∀ chunk, Offers sock chunk ex.request →
    accepted (K.serve ex.chip ex.request).1 = accepted ex.chip ∨
    accepted (K.serve ex.chip ex.request).1 = accepted ex.chip ++ chunk

theorem ofLeBytes_leBytes {k : ℕ} (h : k < 65536) :
    ofLeBytes (UInt8.ofNat k) (UInt8.ofNat (k / 256)) = k := by
  rw [ofLeBytes, UInt8.toNat_ofNat', UInt8.toNat_ofNat']
  omega

variable {accepted : C → List UInt8}

/-- An offer is acked by the length of what it makes the chip accept. -/
theorem Truthful.acked (hK : Truthful K sock accepted) {ex : Exchange C} {chunk : List UInt8}
    (hreply : ex.reply = (K.serve ex.chip ex.request).2) (h : Offers sock chunk ex.request) :
    ∃ k ≤ chunk.length, ex.acked = some k ∧
      accepted (K.serve ex.chip ex.request).1 = accepted ex.chip ++ chunk.take k := by
  obtain ⟨k, hk, hacc, bytes, rest, hbytes, hone⟩ := hK.offer ex.chip chunk ex.request h
  refine ⟨k, hk, Option.bind_eq_some_iff.mpr ⟨bytes, ?_, ?_⟩, hacc⟩
  · have hlen : bytes.length ≤ 4 := by
      obtain ⟨-, rfl⟩ | ⟨-, rfl⟩ := hbytes <;> simp [leBytes]
    rw [hreply]
    exact readOne_eq_some.mpr ⟨hlen, rest, hone⟩
  · obtain ⟨hlt, rfl⟩ | ⟨hlt, rfl⟩ := hbytes
    · exact congrArg some (toNat_ofNat_of_lt hlt)
    · exact congrArg some (ofLeBytes_leBytes hlt)

/-- A truthful chip is an honest one. -/
theorem Truthful.honest (hK : Truthful K sock accepted) : Honest K sock accepted where
  idle := hK.idle
  other := hK.other
  offer ex chunk hreply h := by
    obtain ⟨k, hk, hack, hacc⟩ := hK.acked hreply h
    rw [hack]
    exact ⟨hk, hacc⟩

/-- What an honest chip accepts in the exchanges of a log. -/
def delivered (sock : Socket) (log : List (Exchange C)) : List UInt8 :=
  (taken sock log).flatMap fun p => p.1.take p.2

theorem delivered_cons (ex : Exchange C) (log : List (Exchange C)) :
    delivered sock (ex :: log) = delivered sock [ex] ++ delivered sock log := by
  rw [delivered, ← List.singleton_append, taken_append, List.flatMap_append]
  rfl

namespace Honest

variable (hK : Honest K sock accepted) {ex : Exchange C} {c c' : C} {log : List (Exchange C)}
include hK

/-- One exchange adds what it takes… -/
theorem exchange (hreply : ex.reply = (K.serve ex.chip ex.request).2) :
    accepted (K.serve ex.chip ex.request).1 = accepted ex.chip ++ delivered sock [ex] := by
  by_cases h : ∃ chunk, Offers sock chunk ex.request
  · obtain ⟨chunk, h⟩ := h
    rw [(hK.offer ex chunk hreply h).2, delivered, taken, List.filterMap_cons,
      ex.taken_offer h]
    by_cases hpos : 0 < ex.acked.getD 0
    · rw [if_pos hpos]
      exact congrArg (accepted ex.chip ++ ·) (List.append_nil _).symm
    · rw [if_neg hpos, Nat.eq_zero_of_not_pos hpos]
      rfl
  · have hnot := not_exists.mp h
    rw [hK.other _ _ hnot, delivered, taken, List.filterMap_cons_none (ex.taken_other hnot)]
    exact (List.append_nil _).symm

/-- …and so does a log. -/
theorem accepted_eq (h : K.Follows c log c') : accepted c' = accepted c ++ delivered sock log := by
  induction log generalizing c with
  | nil =>
    obtain rfl : c' = c := h
    exact (List.append_nil _).symm
  | cons ex log ih =>
    obtain ⟨hchip, hreply, hrest⟩ := h
    rw [ih hrest, hK.exchange hreply, hchip, hK.idle, delivered_cons ex log, List.append_assoc]

/-- No ack of an honest chip exceeds its chunk… -/
theorem le_of_mem_taken (h : K.Follows c log c') : ∀ p ∈ taken sock log, p.2 ≤ p.1.length := by
  rintro p hp
  obtain ⟨ex, hex, htaken⟩ := List.mem_filterMap.mp hp
  by_cases hoffers : ∃ chunk, Offers sock chunk ex.request
  · obtain ⟨chunk, hoffers⟩ := hoffers
    rw [ex.taken_offer hoffers] at htaken
    split at htaken
    · obtain rfl := Option.some.inj htaken
      exact (hK.offer ex chunk (h.reply ex hex) hoffers).1
    · exact absurd htaken (by simp)
  · rw [ex.taken_other (not_exists.mp hoffers)] at htaken
    exact absurd htaken (by simp)

/-- …and so the acks of a log add up to what it delivers. -/
theorem length_delivered (h : K.Follows c log c') :
    (delivered sock log).length = ((taken sock log).map Prod.snd).sum := by
  rw [delivered, List.length_flatMap]
  refine congrArg List.sum (List.map_congr_left fun p hp => ?_)
  exact List.length_take_of_le (hK.le_of_mem_taken h p hp)

/-- A log in which nothing is taken delivers nothing, and conversely. -/
theorem delivered_eq_nil (h : K.Follows c log c') :
    delivered sock log = [] ↔ taken sock log = [] := by
  constructor
  · intro hnil
    have hlen := hK.length_delivered h
    have hle := length_le_sum_taken sock log
    rw [hnil, List.length_nil] at hlen
    exact List.eq_nil_of_length_eq_zero (by omega)
  · intro hnil
    rw [delivered, hnil, List.flatMap_nil]

end Honest

/-! ## Whole chunks -/

/-- An exchange is whole or none exactly when what it takes, it takes whole. -/
theorem Truthful.wholeOrNone_iff (hK : Truthful K sock accepted) {ex : Exchange C}
    (hreply : ex.reply = (K.serve ex.chip ex.request).2) :
    WholeOrNone K sock accepted ex ↔ ∀ p, ex.taken sock = some p → p.2 = p.1.length := by
  by_cases h : ∃ chunk, Offers sock chunk ex.request
  · obtain ⟨chunk, h⟩ := h
    obtain ⟨k, hk, hack, hacc⟩ := hK.acked hreply h
    have htake : (chunk.take k).length = k := List.length_take_of_le hk
    have htaken := ex.taken_acked h hack
    constructor
    · intro hwhole p hp
      rw [htaken] at hp
      split at hp
      · rename_i hpos
        obtain rfl := Option.some.inj hp
        obtain hnone | hall := hwhole chunk h
        · have hnil := List.append_right_eq_self.mp (hacc.symm.trans hnone)
          rw [hnil] at htake
          exact absurd htake.symm (Nat.pos_iff_ne_zero.mp hpos)
        · have hchunk := List.append_cancel_left (hacc.symm.trans hall)
          rw [hchunk] at htake
          exact htake.symm
      · exact absurd hp (by simp)
    · intro hall chunk' h'
      obtain rfl : chunk = chunk' := h'.unique h
      rcases Nat.eq_zero_or_pos k with rfl | hpos
      · exact .inl (hacc.trans (List.append_nil _))
      · rw [if_pos hpos] at htaken
        obtain rfl : k = chunk.length := hall _ htaken
        rw [List.take_length] at hacc
        exact .inr hacc
  · have hnot := not_exists.mp h
    rw [ex.taken_other hnot]
    exact ⟨fun _ p hp => absurd hp (by simp), fun _ chunk h => absurd h (hnot chunk)⟩

theorem length_flatMap_take_le (ps : List (List UInt8 × ℕ)) :
    (ps.flatMap fun p => p.1.take p.2).length ≤ (ps.map Prod.fst).flatten.length := by
  induction ps with
  | nil => exact Nat.le_refl 0
  | cons p ps ih =>
    have htake : (p.1.take p.2).length ≤ p.1.length := List.length_take_le' _ _
    rw [List.flatMap_cons, List.map_cons, List.flatten_cons, List.length_append, List.length_append]
    omega

/-- Fronts of strings make up the strings exactly when each is the whole of its string. -/
theorem flatMap_take_eq_iff {ps : List (List UInt8 × ℕ)} (h : ∀ p ∈ ps, p.2 ≤ p.1.length) :
    (ps.flatMap fun p => p.1.take p.2) = (ps.map Prod.fst).flatten ↔
      ∀ p ∈ ps, p.2 = p.1.length := by
  induction ps with
  | nil => simp
  | cons p ps ih =>
    obtain ⟨hp, hps⟩ := List.forall_mem_cons.mp h
    have hlen := length_flatMap_take_le ps
    have htake : (p.1.take p.2).length = p.2 := List.length_take_of_le hp
    rw [List.flatMap_cons, List.map_cons, List.flatten_cons, List.forall_mem_cons, ← ih hps]
    constructor
    · intro heq
      have hlens := congrArg List.length heq
      rw [List.length_append, List.length_append, htake] at hlens
      have hp' : p.2 = p.1.length := by omega
      rw [hp', List.take_length] at heq
      exact ⟨hp', List.append_cancel_left heq⟩
    · rintro ⟨hp', heq⟩
      rw [hp', List.take_length, heq]

/-- **A send that succeeds has lost no byte exactly when every frame was accepted whole or not at
all.**  It always returns. -/
theorem tcpSend_delivers_iff (hK : Truthful K sock accepted) (data : List UInt8) (s : Link C) :
    ∃ r s' log, K.Runs (Nina.tcpSend (E := E) sock data).run s r s' ∧ s'.log = s.log ++ log ∧
      ∀ n, r = .ok n → (accepted s'.chip = accepted s.chip ++ data ↔
        ∀ ex ∈ log, WholeOrNone K sock accepted ex) := by
  obtain ⟨r, s', log, hrun, hlog, hsend, -⟩ := Chip.runs_tcpSend (K := K) (E := E) sock data s
  have hfollows := hrun.follows hlog
  refine ⟨r, s', log, hrun, hlog, ?_⟩
  rintro n rfl
  have hall := (hsend.taken fun _ h => length_of_mem_chunks h).2 rfl
  rw [hK.honest.accepted_eq hfollows, List.append_cancel_left_eq, delivered, ← flatten_chunks data,
    ← hall, flatMap_take_eq_iff (hK.honest.le_of_mem_taken hfollows)]
  constructor
  · intro hwhole ex hex
    refine (hK.wholeOrNone_iff (hfollows.reply ex hex)).mpr fun p hp => ?_
    exact hwhole p (List.mem_filterMap.mpr ⟨ex, hex, hp⟩)
  · intro hwhole p hp
    obtain ⟨ex, hex, htaken⟩ := List.mem_filterMap.mp hp
    exact (hK.wholeOrNone_iff (hfollows.reply ex hex)).mp (hwhole ex hex) p htaken

/-- A chip that accepts at most `limit` bytes of a frame on slot 0, and reports every transmission
done.  Its state is what it has accepted. -/
def stingyChip (limit : ℕ) : Chip (List UInt8) where
  idle c := c
  serve c request :=
    match readFrame (asTold [len16, len16]) request with
    | some ⟨op, [[slot], chunk], _⟩ =>
      if op = cmdSendDataTcp ∧ slot = 0 then
        (c ++ chunk.take (min limit chunk.length),
          oneParam len8 cmdSendDataTcp (leBytes (min limit chunk.length)))
      else (c, oneParam len8 op [1])
    | _ => (c, oneParam len8 (opcode request) [1])

theorem serve_stingyChip {limit : ℕ} {c chunk request : List UInt8} (h : Offers ⟨0⟩ chunk request) :
    (stingyChip limit).serve c request = (c ++ chunk.take (min limit chunk.length),
      oneParam len8 cmdSendDataTcp (leBytes (min limit chunk.length))) := by
  obtain ⟨pad, hread⟩ := h
  simp [stingyChip, hread]

theorem truthful_stingyChip (limit : ℕ) : Truthful (stingyChip limit) ⟨0⟩ id where
  idle _ := rfl
  other c request hnot := by
    rw [stingyChip]
    dsimp only
    split
    · rename_i op slot chunk pad hread
      split
      · rename_i hop
        obtain ⟨rfl, rfl⟩ := hop
        exact absurd ⟨pad, hread⟩ (hnot chunk)
      · rfl
    · rfl
  offer c chunk request hoffers := by
    have hlt := hoffers.length_lt
    rw [serve_stingyChip hoffers]
    exact ⟨min limit chunk.length, Nat.min_le_right _ _, rfl, _, silence, .inr ⟨by omega, rfl⟩,
      oneParam_spec (by simp [leBytes, len8]) _⟩

/-- Unstinted, a chip gets all the data. -/
theorem tcpSend_delivers_unstinted :
    ∃ s', (stingyChip 65535).Runs (E := Unit) (Nina.tcpSend ⟨0⟩ [1, 2, 3]).run
      ⟨[], [], [], silence⟩ (.ok 3) s' ∧ s'.chip = [1, 2, 3] := by
  obtain ⟨r, s', log, hrun, -, hiff⟩ := tcpSend_delivers_iff (E := Unit)
    (truthful_stingyChip 65535) [1, 2, 3] ⟨[], [], [], silence⟩
  have hr : (((stingyChip 65535).bus Unit).exec (Nina.tcpSend ⟨0⟩ [1, 2, 3]).run
      ⟨[], [], [], silence⟩).1 = .done (.ok 3) := by decide +kernel
  obtain ⟨rfl, -⟩ := Chip.Runs.unique (Prod.ext hr rfl) hrun
  refine ⟨s', hrun, (hiff 3 rfl).mpr fun ex _ chunk hoffers => .inr ?_⟩
  have hlt := hoffers.length_lt
  rw [serve_stingyChip hoffers, Nat.min_eq_right (by omega), List.take_length]
  rfl

/-- A chip that takes a byte of each frame loses the second of two, and the send succeeds. -/
theorem tcpSend_loses_stingyChip :
    Truthful (stingyChip 1) ⟨0⟩ id ∧
      ∃ s', (stingyChip 1).Runs (E := Unit) (Nina.tcpSend ⟨0⟩ [1, 2]).run ⟨[], [], [], silence⟩
        (.ok 1) s' ∧ s'.chip ≠ [1, 2] := by
  have hr : (((stingyChip 1).bus Unit).exec (Nina.tcpSend ⟨0⟩ [1, 2]).run
      ⟨[], [], [], silence⟩).1 = .done (.ok 1) := by decide +kernel
  refine ⟨truthful_stingyChip 1, _, Prod.ext hr rfl, ?_⟩
  decide +kernel

end EmbassyNina
