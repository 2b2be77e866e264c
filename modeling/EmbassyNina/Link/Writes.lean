import EmbassyNina.Link.Delivery

/-!
# Link/Writes — what a write reports, and what the chip has taken

A write returns the sum of the positive acks in its log, cut off at the last `u16`.  Nothing ties
these acks to the slices that were offered, nothing is returned when a later slice fails, and the
sum saturates while the slices go on: each of the three has its exact condition here.

`Honest.accepted_eq` carries an honest chip along the log: it has accepted what was taken.
-/

namespace EmbassyNina

open Machinery

variable {C E : Type} {K : Chip C} {sock : Socket}

/-! ## The count -/

theorem chunks_ne_nil {data : List UInt8} (h : data ≠ []) : Nina.chunks 64 data ≠ [] := fun hnil =>
  h (by rw [← flatten_chunks data, hnil, List.flatten_nil])

/-- **What a write returns is in bounds exactly when the acks are**, or the buffer is as long as the
largest count there is, or the replies make the write fail. -/
theorem write_inBounds_iff (K : Chip C) (f : Facade) (sock : Socket) (buf : List UInt8)
    (s : Link C) :
    ∃ r s' log, K.Runs (f.write (E := E) sock buf).run s r s' ∧ s'.log = s.log ++ log ∧
      ((∀ n, r = .ok n → n ≤ buf.length ∧ (buf ≠ [] → 0 < n)) ↔
        65535 ≤ buf.length ∨ ((taken sock log).map Prod.snd).sum ≤ buf.length ∨
          SendLog sock (Nina.chunks 64 buf) log false) := by
  obtain ⟨r, s', log, hrun, hlog, hsend, hcount⟩ := Chip.runs_tcpSend (K := K) (E := E) sock buf s
  refine ⟨r, s', log, hrun.write f, hlog, ?_⟩
  rcases r with e | n
  · exact iff_of_true (fun _ h => absurd h (by simp)) (.inr (.inr hsend))
  obtain rfl := hcount n rfl
  have hpos : buf ≠ [] → 0 < ((taken sock log).map Prod.snd).sum := by
    intro hne
    have hall := (hsend.taken fun _ h => length_of_mem_chunks h).2 rfl
    have hle := length_le_sum_taken sock log
    have hchunks := List.length_pos_iff.mpr (chunks_ne_nil hne)
    rw [← hall, List.length_map] at hchunks
    omega
  constructor
  · intro h
    have hle := (h _ rfl).1
    omega
  · rintro h _ ⟨⟩
    have hle : 65535 ≤ buf.length ∨ ((taken sock log).map Prod.snd).sum ≤ buf.length :=
      h.imp_right fun h => h.resolve_right fun hfailed =>
        Bool.false_ne_true (hfailed.unique hsend)
    refine ⟨by omega, fun hne => ?_⟩
    have := hpos hne
    omega

/-- A chip that acks two bytes whatever it is offered. -/
def boastfulChip : Chip Unit where
  idle c := c
  serve _ request := ((), oneParam len8 (opcode request) [2])

/-- One byte is written, and two are reported. -/
theorem write_exceeds_boastfulChip :
    ∃ s', boastfulChip.Runs (E := Unit) (NinaTcpSocket.write ⟨0⟩ [0]).run ⟨(), [], [], silence⟩
      (.ok 2) s' ∧ ¬ 2 ≤ [(0 : UInt8)].length := by
  have hr : ((boastfulChip.bus Unit).exec (NinaTcpSocket.write ⟨0⟩ [0]).run
      ⟨(), [], [], silence⟩).1 = .done (.ok 2) := by decide +kernel
  exact ⟨_, Prod.ext hr rfl, by decide⟩

/-! ## A failed write -/

variable {accepted : C → List UInt8}

/-- The first slice was given up, and that was all. -/
def RefusedAtOnce (sock : Socket) (slices : List (List UInt8)) (log : List (Exchange C)) : Prop :=
  ∃ slice rest, slices = slice :: rest ∧ GivesUp (sendFrame sock slice) Exchange.acked 5 log

/-- A send that fails with nothing taken was refused at once. -/
theorem SendLog.refusedAtOnce_iff {slices : List (List UInt8)} {log : List (Exchange C)}
    (hsend : SendLog sock slices log false) (hslices : ∀ slice ∈ slices, slice.length ≤ 64) :
    EmbassyNina.taken sock log = [] ↔ RefusedAtOnce sock slices log := by
  constructor
  · intro hnil
    obtain _ | ⟨⟨offers, polls, v, b, rfl, hoffers, -⟩, -⟩ | hfailed := hsend
    · rw [taken_append, taken_append, hoffers.taken (hslices _ List.mem_cons_self)] at hnil
      exact absurd hnil (List.cons_ne_nil _ _)
    obtain hup | ⟨offers, polls, v, rfl, hoffers, -⟩ := hfailed
    · exact ⟨_, _, rfl, hup⟩
    · rw [taken_append, hoffers.taken (hslices _ List.mem_cons_self)] at hnil
      exact absurd hnil (List.cons_ne_nil _ _)
  · rintro ⟨slice, rest, rfl, hup⟩
    exact hup.taken (hslices slice List.mem_cons_self)

/-- **A write that fails has written nothing exactly when the replies get every slice through or
refuse the first**: once a slice is acked, a failure loses the count.  A write that succeeds returns
how much it has written, up to the last `u16`. -/
theorem write_error_iff (hK : Honest K sock accepted) (f : Facade) (buf : List UInt8)
    (s : Link C) :
    ∃ r s' log new, K.Runs (f.write (E := E) sock buf).run s r s' ∧ s'.log = s.log ++ log ∧
      accepted s'.chip = accepted s.chip ++ new ∧
      ((∀ e, r = .error e → new = []) ↔
        SendLog sock (Nina.chunks 64 buf) log true ∨
          RefusedAtOnce sock (Nina.chunks 64 buf) log) ∧
      ∀ n, r = .ok n → n = min new.length 65535 := by
  obtain ⟨r, s', log, hrun, hlog, hsend, hcount⟩ :=
    Chip.runs_tcpSend (K := K) (E := E) sock buf s
  have hfollows := hrun.follows hlog
  have hslices : ∀ slice ∈ Nina.chunks 64 buf, slice.length ≤ 64 := fun _ => length_of_mem_chunks
  refine ⟨r, s', log, delivered sock log, hrun.write f, hlog, hK.accepted_eq hfollows, ?_, ?_⟩
  · rcases r with e | n
    · rw [or_iff_right fun hsent => Bool.false_ne_true (hsend.unique hsent),
        ← hsend.refusedAtOnce_iff hslices, ← hK.delivered_eq_nil hfollows]
      exact ⟨fun h => h e rfl, fun hnil _ _ => hnil⟩
    · exact iff_of_true (fun _ h => absurd h (by simp)) (.inl hsend)
  · intro n hn
    rw [hK.length_delivered hfollows]
    exact hcount n hn

/-- A chip that takes every chunk offered on slot 0 whole, and answers all else by the byte `b`. -/
def takingChip (b : UInt8) : Chip (List UInt8) where
  idle c := c
  serve c request :=
    match offered ⟨0⟩ request with
    | some chunk => (c ++ chunk, oneParam len8 cmdSendDataTcp (leBytes chunk.length))
    | none => (c, oneParam len8 (opcode request) [b])

section TakingChip

variable {b : UInt8} {c chunk request : List UInt8}

theorem serve_takingChip (h : Offers ⟨0⟩ chunk request) :
    (takingChip b).serve c request =
      (c ++ chunk, oneParam len8 cmdSendDataTcp (leBytes chunk.length)) := by
  simp [takingChip, offered_eq_some.mpr h]

theorem serve_takingChip_other (h : ∀ chunk, ¬ Offers ⟨0⟩ chunk request) :
    (takingChip b).serve c request = (c, oneParam len8 (opcode request) [b]) := by
  have hnone : offered ⟨0⟩ request = none :=
    Option.eq_none_iff_forall_not_mem.mpr fun chunk hchunk => h chunk (offered_eq_some.mp hchunk)
  simp [takingChip, hnone]

theorem truthful_takingChip (b : UInt8) : Truthful (takingChip b) ⟨0⟩ id where
  idle _ := rfl
  other c request hnot := by
    rw [serve_takingChip_other hnot]
  offer c chunk request h := by
    rw [serve_takingChip h]
    exact ⟨chunk.length, Nat.le_refl _, by rw [List.take_length]; rfl, _, silence,
      .inr ⟨h.length_lt, rfl⟩, oneParam_spec (by simp [leBytes, len8]) _⟩

end TakingChip

/-- A chip that takes nothing refuses the first slice five times. -/
theorem write_error_stingyChip :
    ∃ s' : Link (List UInt8), (stingyChip 0).Runs (E := Unit) (NinaSocket.write ⟨0⟩ [7]).run
      ⟨[], [], [], silence⟩ (.error .nina) s' ∧
      (SendLog ⟨0⟩ [[7]] s'.log true ∨ RefusedAtOnce ⟨0⟩ [[7]] s'.log) := by
  obtain ⟨r, s', log, new, hrun, hlog, hacc, hiff, -⟩ := write_error_iff (E := Unit)
    (truthful_stingyChip 0).honest .ninaSocket [7] ⟨[], [], [], silence⟩
  have hr : (((stingyChip 0).bus Unit).exec (NinaSocket.write ⟨0⟩ [7]).run
      ⟨[], [], [], silence⟩).1 = .done (.error .nina) := by decide +kernel
  have hchip : (((stingyChip 0).bus Unit).exec (NinaSocket.write ⟨0⟩ [7]).run
      ⟨[], [], [], silence⟩).2.chip = [] := by decide +kernel
  obtain ⟨rfl, rfl⟩ := Chip.Runs.unique (Prod.ext hr rfl) hrun
  rw [List.nil_append] at hlog
  exact ⟨_, hrun, hlog ▸ hiff.mp fun _ _ => List.append_right_eq_self.mp (hacc.symm.trans hchip)⟩

/-- A byte is taken, its transmission is never reported, and the write fails. -/
theorem write_error_takingChip :
    Truthful (takingChip 0) ⟨0⟩ id ∧
      (∀ c chunk request, Offers ⟨0⟩ chunk request →
        ((takingChip 0).serve c request).1 = c ++ chunk) ∧
      ∃ s', (takingChip 0).Runs (E := Unit) (NinaTcpSocket.write ⟨0⟩ [7]).run
        ⟨[], [], [], silence⟩ (.error .timeout) s' ∧ s'.chip = [7] := by
  have hr : (((takingChip 0).bus Unit).exec (NinaTcpSocket.write ⟨0⟩ [7]).run
      ⟨[], [], [], silence⟩).1 = .done (.error .timeout) := by decide +kernel
  refine ⟨truthful_takingChip 0, fun c chunk request h => by rw [serve_takingChip h], _,
    Prod.ext hr rfl, ?_⟩
  decide +kernel

/-! ## Writing it all -/

/-- **An obliging chip** takes each chunk it is offered whole and says so, and then reports it sent
before it has been asked twenty times: `due` bounds the polls it still answers by zero. -/
structure Obliging (K : Chip C) (sock : Socket) (accepted : C → List UInt8) (due : C → ℕ) : Prop
    extends Truthful K sock accepted where
  whole : ∀ c chunk request, Offers sock chunk request →
    accepted (K.serve c request).1 = accepted c ++ chunk
  due_idle : ∀ c, due (K.idle c) ≤ due c
  due_offer : ∀ c chunk request, Offers sock chunk request → due (K.serve c request).1 < 20
  poll : ∀ c, ∃ b rest, OneParam len8 cmdDataSentTcp [b] (K.serve c (sentFrame sock)).2 rest ∧
    (b = 0 → due (K.serve c (sentFrame sock)).1 < due c)

namespace Obliging

variable {due : C → ℕ} (hK : Obliging K sock accepted due)
include hK

/-- What it takes, it takes whole. -/
theorem eq_of_mem_taken {c c' : C} {log : List (Exchange C)} (h : K.Follows c log c') :
    ∀ p ∈ taken sock log, p.2 = p.1.length := by
  rintro p hp
  obtain ⟨ex, hex, htaken⟩ := List.mem_filterMap.mp hp
  refine (hK.wholeOrNone_iff (h.reply ex hex)).mp (fun chunk hoffers => ?_) p htaken
  exact .inr (hK.whole ex.chip chunk ex.request hoffers)

/-- A poll is answered. -/
theorem sent_poll {ex : Exchange C} (hreply : ex.reply = (K.serve ex.chip ex.request).2)
    (h : ex.request = sentFrame sock) :
    ∃ v, ex.sent = some v ∧ (v = 0 → due (K.serve ex.chip ex.request).1 < due ex.chip) := by
  obtain ⟨b, rest, hone, hdue⟩ := hK.poll ex.chip
  refine ⟨b.toNat, Option.map_eq_some_iff.mpr ⟨[b], ?_, rfl⟩, fun hb => ?_⟩
  · rw [hreply, h]
    exact readOne_eq_some.mpr ⟨Nat.le_refl _, rest, hone⟩
  · rw [h]
    exact hdue (UInt8.toNat_inj.mp hb)

/-- Polls answered by zero use up what is due. -/
theorem due_zeros {c c' : C} {zeros : List (Exchange C)} (h : K.Follows c zeros c')
    (hzeros : ∀ ex ∈ zeros, ex.Asked (sentFrame sock) Exchange.sent (some 0)) :
    due c' + zeros.length ≤ due c := by
  induction zeros generalizing c with
  | nil =>
    obtain rfl : c' = c := h
    exact Nat.le_refl _
  | cons ex zeros ih =>
    obtain ⟨hchip, hreply, hrest⟩ := h
    obtain ⟨hex, hzeros⟩ := List.forall_mem_cons.mp hzeros
    obtain ⟨v, hv, hdue⟩ := hK.sent_poll hreply hex.1
    obtain rfl : v = 0 := Option.some.inj (hv.symm.trans hex.2)
    have hrest' := ih hrest hzeros
    have hlt := hdue rfl
    rw [hchip] at hlt hrest'
    have hidle := hK.due_idle c
    rw [List.length_cons]
    omega

/-- After the offers of a slice something is due, but less than the polls there are. -/
theorem due_offers {c c' : C} {offers : List (Exchange C)} {slice : List UInt8} {n v : ℕ}
    (hslice : slice.length ≤ 64) (h : K.Follows c offers c')
    (hoffers : GetsThrough (sendFrame sock slice) Exchange.acked n offers v) : due c' < 20 := by
  obtain ⟨zeros, last, rfl, -, -, hlast, -⟩ := hoffers
  obtain ⟨c₁, -, -, -, rfl⟩ := h.of_append
  exact hK.due_offer _ _ _ (offers_of_sendFrame hslice hlast.1)

theorem not_givesUp_offers {c c' : C} {log : List (Exchange C)} {slice : List UInt8}
    (hne : slice ≠ []) (hslice : slice.length ≤ 64) (h : K.Follows c log c') :
    ¬ GivesUp (sendFrame sock slice) Exchange.acked 5 log := by
  have hacked : ∀ ex ∈ log, ex.request = sendFrame sock slice → ex.acked = some slice.length := by
    intro ex hex hreq
    have hoffers := offers_of_sendFrame hslice hreq
    obtain ⟨k, hk, hack, hacc⟩ := hK.acked (h.reply ex hex) hoffers
    have htake := List.append_cancel_left (hacc.symm.trans (hK.whole _ _ _ hoffers))
    rw [hack, ← List.length_take_of_le hk, htake]
  have hpos : slice.length ≠ 0 := fun h0 => hne (List.eq_nil_of_length_eq_zero h0)
  rintro (⟨hfive, hzeros⟩ | ⟨zeros, last, rfl, -, -, hlast⟩)
  · obtain ⟨ex, hex⟩ := List.exists_mem_of_length_pos (hfive ▸ Nat.succ_pos 4 : 0 < log.length)
    obtain ⟨hreq, h0⟩ := hzeros ex hex
    exact hpos (Option.some.inj ((hacked ex hex hreq).symm.trans h0))
  · exact absurd ((hacked last (by simp) hlast.1).symm.trans hlast.2) (by simp)

theorem not_givesUp_polls {c c' : C} {log : List (Exchange C)} (hdue : due c < 20)
    (h : K.Follows c log c') : ¬ GivesUp (sentFrame sock) Exchange.sent 20 log := by
  rintro (⟨htwenty, hzeros⟩ | ⟨zeros, last, rfl, -, -, hlast⟩)
  · have := hK.due_zeros h hzeros
    omega
  · obtain ⟨v, hv, -⟩ := hK.sent_poll (h.reply last (by simp)) hlast.1
    exact absurd (hv.symm.trans hlast.2) (by simp)

/-- **No slice fails.** -/
theorem sendLog_ok {slices : List (List UInt8)} {log : List (Exchange C)} {ok : Bool} {c c' : C}
    (h : K.Follows c log c') (hsend : SendLog sock slices log ok)
    (hslices : ∀ slice ∈ slices, slice ≠ [] ∧ slice.length ≤ 64) : ok = true := by
  induction hsend generalizing c with
  | done => rfl
  | @sent slice slices log log' ok _ _ ih =>
    obtain ⟨c₁, -, h⟩ := h.of_append
    exact ih h (List.forall_mem_cons.mp hslices).2
  | @failed slice slices log hfailed =>
    obtain ⟨hne, hslice⟩ := hslices slice List.mem_cons_self
    obtain hup | ⟨offers, polls, v, rfl, hoffers, hup⟩ := hfailed
    · exact absurd hup (hK.not_givesUp_offers hne hslice h)
    · obtain ⟨c₁, h₁, h₂⟩ := h.of_append
      exact absurd hup (hK.not_givesUp_polls (hK.due_offers hslice h₁ hoffers) h₂)

/-- **A send to an obliging chip** delivers the data, and returns its length cut off at the last
`u16`. -/
theorem runs_tcpSend (data : List UInt8) (s : Link C) :
    ∃ s', K.Runs (Nina.tcpSend (E := E) sock data).run s (.ok (min data.length 65535)) s' ∧
      accepted s'.chip = accepted s.chip ++ data := by
  obtain ⟨r, s', log, hrun, hlog, hsend, hcount⟩ :=
    Chip.runs_tcpSend (K := K) (E := E) sock data s
  have hfollows := hrun.follows hlog
  have hok := hK.sendLog_ok hfollows hsend fun slice h =>
    ⟨ne_nil_of_mem_chunksUpTo (by decide) h, length_of_mem_chunks h⟩
  have hall := (hsend.taken fun _ h => length_of_mem_chunks h).2 hok
  have hwhole := hK.eq_of_mem_taken hfollows
  have hdelivered : delivered sock log = data := by
    rw [delivered, (flatMap_take_eq_iff fun p hp => (hwhole p hp).le).mpr hwhole, hall,
      flatten_chunks]
  have hsum : ((taken sock log).map Prod.snd).sum = data.length := by
    rw [← hK.honest.length_delivered hfollows, hdelivered]
  rcases r with e | n
  · exact absurd hok (by simp [Except.isOk, Except.toBool])
  · rw [hsum] at hcount
    obtain rfl := hcount n rfl
    exact ⟨s', hrun, by rw [hK.honest.accepted_eq hfollows, hdelivered]⟩

/-- **Writing it all** delivers the buffer, and then some more exactly when the first count fell
short of it. -/
theorem runs_writeAll (f : Facade) {fuel : ℕ} {buf : List UInt8} (hfuel : buf.length ≤ fuel)
    (s : Link C) :
    ∃ s' more, K.Runs (writeAll (f.write (E := E) sock) fuel buf).run s (.ok ()) s' ∧
      accepted s'.chip = accepted s.chip ++ (buf ++ more) ∧ (more = [] ↔ buf.length ≤ 65535) := by
  induction fuel generalizing buf s with
  | zero =>
    obtain rfl := List.eq_nil_of_length_eq_zero (Nat.le_zero.mp hfuel)
    exact ⟨s, [], .ret _, (List.append_nil _).symm, fun _ => Nat.zero_le _, fun _ => rfl⟩
  | succ fuel ih =>
    rcases buf with _ | ⟨b, buf⟩
    · exact ⟨s, [], .ret _, (List.append_nil _).symm, fun _ => Nat.zero_le _, fun _ => rfl⟩
    obtain ⟨s₁, hrun, hacc⟩ := hK.runs_tcpSend (E := E) (b :: buf) s
    have hlen : (b :: buf).length = buf.length + 1 := rfl
    have hrest : ((b :: buf).drop (min (b :: buf).length 65535)).length ≤ fuel := by
      rw [List.length_drop]
      omega
    obtain ⟨s₂, more, hrun', hacc', hmore⟩ := ih hrest s₁
    refine ⟨s₂, (b :: buf).drop (min (b :: buf).length 65535) ++ more, (hrun.write f).ok ?_, ?_, ?_⟩
    · rw [if_neg (by omega)]
      exact hrun'
    · rw [hacc', hacc, List.append_assoc]
    · rw [List.append_eq_nil_iff, List.drop_eq_nil_iff, hmore, List.length_drop]
      omega

end Obliging

/-- **A count that saturates makes a caller send bytes twice.**  On an obliging chip a write-all
loop delivers exactly its buffer, and a send returns the length of its data, precisely for lengths
that fit a `u16`. -/
theorem writeAll_exact_iff {due : C → ℕ} (hK : Obliging K sock accepted due) (f : Facade)
    (buf : List UInt8) (s : Link C) :
    (∃ s', K.Runs (writeAll (f.write (E := E) sock) buf.length buf).run s (.ok ()) s' ∧
      (accepted s'.chip = accepted s.chip ++ buf ↔ buf.length ≤ 65535)) ∧
    ∃ n s', K.Runs (Nina.tcpSend (E := E) sock buf).run s (.ok n) s' ∧
      (n = buf.length ↔ buf.length ≤ 65535) := by
  obtain ⟨s₁, more, hrun₁, hacc, hmore⟩ := hK.runs_writeAll (E := E) f (Nat.le_refl buf.length) s
  obtain ⟨s₂, hrun₂, -⟩ := hK.runs_tcpSend (E := E) buf s
  refine ⟨⟨s₁, hrun₁, ?_⟩, _, s₂, hrun₂, by omega⟩
  rw [hacc, List.append_cancel_left_eq, List.append_right_eq_self, hmore]

theorem obliging_takingChip : Obliging (takingChip 1) ⟨0⟩ id fun _ => 0 where
  toTruthful := truthful_takingChip 1
  whole c chunk request h := by rw [serve_takingChip h]; rfl
  due_idle _ := Nat.le_refl 0
  due_offer _ _ _ _ := by decide
  poll c := by
    rw [serve_takingChip_other not_offers_sentFrame]
    exact ⟨1, silence, oneParam_spec (by decide) _, by decide⟩

/-- Three bytes are written once. -/
theorem writeAll_exact_takingChip :
    ∃ s', (takingChip 1).Runs (E := Unit) (writeAll (NinaTcpSocket.write ⟨0⟩) 3 [1, 2, 3]).run
      ⟨[], [], [], silence⟩ (.ok ()) s' ∧ s'.chip = [1, 2, 3] := by
  obtain ⟨⟨s', hrun, hiff⟩, -⟩ := writeAll_exact_iff (E := Unit) obliging_takingChip .ninaTcpSocket
    [1, 2, 3] ⟨[], [], [], silence⟩
  exact ⟨s', hrun, hiff.mpr (by decide)⟩

/-- The last of 65536 bytes is written twice. -/
theorem writeAll_repeats_takingChip :
    ∃ s', (takingChip 1).Runs (E := Unit)
      (writeAll (NinaTcpSocket.write ⟨0⟩) 65536 (List.replicate 65536 7)).run
      ⟨[], [], [], silence⟩ (.ok ()) s' ∧ s'.chip ≠ List.replicate 65536 7 := by
  have hlen : (List.replicate 65536 (7 : UInt8)).length = 65536 := List.length_replicate
  obtain ⟨s', more, hrun, hacc, hmore⟩ := obliging_takingChip.runs_writeAll (E := Unit)
    .ninaTcpSocket hlen.le ⟨[], [], [], silence⟩
  refine ⟨s', hrun, fun hchip => ?_⟩
  have hnil : more = [] := List.append_right_eq_self.mp (hacc.symm.trans hchip)
  have hle := hmore.mp hnil
  rw [hlen] at hle
  exact absurd hle (by decide)

end EmbassyNina
