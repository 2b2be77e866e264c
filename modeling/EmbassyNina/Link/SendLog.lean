import EmbassyNina.Driver.Sockets
import EmbassyNina.Link.Chip

/-!
# Link/SendLog — the exchanges of a send

A send has two bounded loops for each of its slices, and both ask one request again and again until
the answer is positive: the offers of the slice, five at most, and the polls for the end of its
transmission, twenty at most.  `GetsThrough` and `GivesUp` say how such a loop can end, `SendLog`
strings them together, and `runs_tcpSend` says that these are the exchanges of a send, whatever the
chip replies.  What a send comes to is then read off its log.
-/

namespace EmbassyNina

open Machinery

variable {C E α : Type} {K : Chip C} {sock : Socket}

/-! ## Offers -/

/-- A count of one byte, or of two with the low byte first. -/
def countOf : List UInt8 → Option ℕ
  | [b] => some b.toNat
  | [lo, hi] => some (ofLeBytes lo hi)
  | _ => none

theorem run_count12 (payload : List UInt8) (n : ℕ) :
    (Nina.count12 (E := E) payload.length (payload ++ List.replicate n 0)).run =
      .ret ((countOf payload).elim (.error .framing) .ok) := by
  rcases payload with _ | ⟨a, _ | ⟨b, _ | ⟨c, payload⟩⟩⟩ <;> rfl

def sendFrame (sock : Socket) (chunk : List UInt8) : List UInt8 :=
  frame cmdSendDataTcp [.long [sock.raw], .long chunk]

/-- One turn of the retry loop, up to its test. -/
def offer (sock : Socket) (chunk : List UInt8) : Nina E ℕ := do
  sendCmdMixed cmdSendDataTcp [.long [sock.raw], .long chunk]
  let (n, buf) ← withBuf 4 (recvCmdOneParam cmdSendDataTcp)
  Nina.count12 n buf

theorem offerChunk_succ (sock : Socket) (chunk : List UInt8) (k written : ℕ) :
    Nina.offerChunk (E := E) sock chunk (k + 1) written = (do
      let written ← offer sock chunk
      if written > 0 then return written else Nina.offerChunk sock chunk k written) := by
  rw [offer, LawfulMonad.bind_assoc]
  exact bind_congr fun _ => by rw [LawfulMonad.bind_assoc]

theorem frameLength_send (sock : Socket) {chunk : List UInt8} (h : chunk.length ≤ 64) :
    frameLength [.long [sock.raw], .long chunk] ≤ 256 := by
  rw [frameLength, length_encodeAll]
  simp [Param.data, len16]
  omega

/-- An offer is one exchange, and returns the count in its reply. -/
theorem Chip.runs_offer (sock : Socket) {chunk : List UInt8} (h : chunk.length ≤ 64) (s : Link C) :
    ∃ r, K.Runs (offer (E := E) sock chunk).run s r (s.exchanged K (sendFrame sock chunk)) ∧
      ∀ v, r = .ok v ↔ ∃ payload,
        readOne len8 cmdSendDataTcp 4 (s.answered K (sendFrame sock chunk)) = some payload ∧
        countOf payload = some v := by
  obtain ⟨r, hrun, hr⟩ := runs_reply (K := K) (E := E) cmdSendDataTcp 4 s (sendFrame sock chunk)
  have hsend := runs_sendCmdMixed (K := K) (E := E) cmdSendDataTcp (frameLength_send sock h) s
  rcases r with e | ⟨k, buf⟩
  · refine ⟨.error e, hsend.ok hrun.error, fun v => ⟨nofun, ?_⟩⟩
    rintro ⟨payload, hread, -⟩
    exact absurd ((hr _ _).mpr ⟨payload, hread, rfl, rfl⟩) nofun
  · obtain ⟨payload, hread, rfl, rfl⟩ := (hr k buf).mp rfl
    have hcount : K.Runs (Nina.count12 (E := E) payload.length
        (payload ++ List.replicate (4 - payload.length) 0)).run
        (s.exchanged K (sendFrame sock chunk)) ((countOf payload).elim (.error .framing) .ok)
        (s.exchanged K (sendFrame sock chunk)) := by
      rw [run_count12]
      exact .ret _
    refine ⟨_, hsend.ok (hrun.ok hcount), fun v => ?_⟩
    rw [hread]
    cases hv : countOf payload with
    | none => simp [hv]
    | some v' => simp [hv]

/-- `request` offers `chunk` to the socket. -/
def Offers (sock : Socket) (chunk request : List UInt8) : Prop :=
  ∃ pad, readFrame (asTold [len16, len16]) request = some ⟨cmdSendDataTcp, [[sock.raw], chunk], pad⟩

theorem Offers.unique {chunk chunk' request : List UInt8} (h : Offers sock chunk request)
    (h' : Offers sock chunk' request) : chunk' = chunk := by
  obtain ⟨pad, hread⟩ := h
  obtain ⟨pad', hread'⟩ := h'
  have heq := Option.some.inj (hread'.symm.trans hread)
  simp only [Request.mk.injEq, List.cons.injEq] at heq
  exact heq.2.1.2.1

theorem Offers.opcode {chunk request : List UInt8} (h : Offers sock chunk request) :
    opcode request = cmdSendDataTcp := by
  obtain ⟨pad, hread⟩ := h
  exact (of_readFrame hread).1.symm

/-- A chunk that was read has a length of two bytes. -/
theorem Offers.length_lt {chunk request : List UInt8} (h : Offers sock chunk request) :
    chunk.length < 65536 := by
  obtain ⟨pad, hread⟩ := h
  obtain ⟨-, cs, hcs, -, hall⟩ := of_readFrame hread
  rw [asTold] at hcs
  split at hcs
  · obtain rfl := Option.some.inj hcs
    exact hall (len16, chunk) (by simp)
  · exact absurd hcs nofun

theorem offers_sendFrame (sock : Socket) {chunk : List UInt8} (h : chunk.length ≤ 64) :
    Offers sock chunk (sendFrame sock chunk) := by
  have hlt : chunk.length < 65536 := by omega
  exact ⟨_, readFrame_long (by simp) hlt cmdSendDataTcp⟩

/-! ## Asking until the answer is positive -/

/-- The exchange puts `request` and reads the answer `a`. -/
def Exchange.Asked (request : List UInt8) (answer : Exchange C → Option ℕ) (a : Option ℕ)
    (ex : Exchange C) : Prop := ex.request = request ∧ answer ex = a

section Loops

variable (request : List UInt8) (answer : Exchange C → Option ℕ) (n : ℕ) (log : List (Exchange C))

/-- Fewer than `n` answers of zero, and then the positive answer `v`. -/
def GetsThrough (v : ℕ) : Prop :=
  ∃ zeros last, log = zeros ++ [last] ∧ zeros.length < n ∧
    (∀ ex ∈ zeros, ex.Asked request answer (some 0)) ∧ last.Asked request answer (some v) ∧ 0 < v

/-- Either `n` answers of zero, or fewer and then one that cannot be read. -/
def GivesUp : Prop :=
  (log.length = n ∧ ∀ ex ∈ log, ex.Asked request answer (some 0)) ∨
    ∃ zeros last, log = zeros ++ [last] ∧ zeros.length < n ∧
      (∀ ex ∈ zeros, ex.Asked request answer (some 0)) ∧ last.Asked request answer none

/-- A turn of the loop goes round again at zero, returns at a positive answer, and fails
otherwise. -/
def Turned (f : ℕ → α) (a : Option ℕ) (r : Except (Error E) (Option α)) : Prop :=
  (a = some 0 ∧ r = .ok none) ∨ (∃ v, a = some v ∧ 0 < v ∧ r = .ok (some (f v))) ∨
    (a = none ∧ ∃ e, r = .error e)

end Loops

section Loops

variable {request : List UInt8} {answer : Exchange C → Option ℕ} {n v : ℕ}
  {log : List (Exchange C)} {ex : Exchange C}

theorem GetsThrough.cons (hex : ex.Asked request answer (some 0))
    (h : GetsThrough request answer n log v) :
    GetsThrough request answer (n + 1) (ex :: log) v := by
  obtain ⟨zeros, last, rfl, hlt, hzeros, hlast, hv⟩ := h
  exact ⟨ex :: zeros, last, rfl, Nat.succ_lt_succ hlt, List.forall_mem_cons.mpr ⟨hex, hzeros⟩,
    hlast, hv⟩

theorem GivesUp.cons (hex : ex.Asked request answer (some 0)) (h : GivesUp request answer n log) :
    GivesUp request answer (n + 1) (ex :: log) := by
  obtain ⟨rfl, hzeros⟩ | ⟨zeros, last, rfl, hlt, hzeros, hlast⟩ := h
  · exact .inl ⟨rfl, List.forall_mem_cons.mpr ⟨hex, hzeros⟩⟩
  · exact .inr ⟨ex :: zeros, last, rfl, Nat.succ_lt_succ hlt,
      List.forall_mem_cons.mpr ⟨hex, hzeros⟩, hlast⟩

theorem GetsThrough.pos (h : GetsThrough request answer n log v) : 0 < v := by
  obtain ⟨zeros, last, -, -, -, -, hv⟩ := h
  exact hv

/-- Such a loop puts one request only. -/
theorem GetsThrough.requests (h : GetsThrough request answer n log v) :
    ∀ ex ∈ log, ex.request = request := by
  obtain ⟨zeros, last, rfl, -, hzeros, hlast, -⟩ := h
  exact List.forall_mem_append.mpr
    ⟨fun ex hex => (hzeros ex hex).1, List.forall_mem_singleton.mpr hlast.1⟩

theorem GivesUp.requests (h : GivesUp request answer n log) : ∀ ex ∈ log, ex.request = request := by
  obtain ⟨-, hzeros⟩ | ⟨zeros, last, rfl, -, hzeros, hlast⟩ := h
  · exact fun ex hex => (hzeros ex hex).1
  · exact List.forall_mem_append.mpr
      ⟨fun ex hex => (hzeros ex hex).1, List.forall_mem_singleton.mpr hlast.1⟩

/-- It ends at its positive answer, wherever the exchanges go on from there… -/
theorem GetsThrough.eq_take (h : GetsThrough request answer n log v) (more : List (Exchange C)) :
    log = (log ++ more).take (((log ++ more).takeWhile (answer · = some 0)).length + 1) := by
  obtain ⟨zeros, last, rfl, -, hzeros, hlast, hv⟩ := h
  have hall : ∀ ex ∈ zeros, decide (answer ex = some 0) = true := fun ex hex =>
    decide_eq_true (hzeros ex hex).2
  have hne : answer last ≠ some 0 := by
    rw [hlast.2]
    exact fun h => Nat.ne_of_gt hv (Option.some.inj h)
  rw [List.append_assoc, List.takeWhile_append_of_pos hall, List.singleton_append,
    List.takeWhile_cons_of_neg (by simp [hne]), List.append_nil, List.take_length_add_append]
  rfl

/-- …so that it is told apart from what follows… -/
theorem GetsThrough.unique {log' more more' : List (Exchange C)} {v' : ℕ}
    (h : GetsThrough request answer n log v) (h' : GetsThrough request answer n log' v')
    (heq : log ++ more = log' ++ more') : log = log' := by
  rw [h.eq_take more, heq]
  exact (h'.eq_take more').symm

/-- …and a loop that gives up has not got through before. -/
theorem GivesUp.not_getsThrough (h : GivesUp request answer n log) {front more : List (Exchange C)}
    (heq : log = front ++ more) : ¬ GetsThrough request answer n front v := by
  rintro ⟨zeros, last, rfl, -, -, hlast, hv⟩
  have hmem : last ∈ log := by simp [heq]
  have hanswer : ∀ ex ∈ log, answer ex = some 0 ∨ answer ex = none := by
    obtain ⟨-, hzeros⟩ | ⟨zeros', last', rfl, -, hzeros, hlast'⟩ := h
    · exact fun ex hex => .inl (hzeros ex hex).2
    · exact List.forall_mem_append.mpr ⟨fun ex hex => .inl (hzeros ex hex).2,
        List.forall_mem_singleton.mpr (.inr hlast'.2)⟩
  have h0 := hanswer last hmem
  rw [hlast.2] at h0
  rcases h0 with h0 | h0
  · exact Nat.ne_of_gt hv (Option.some.inj h0)
  · exact absurd h0 (Option.some_ne_none v)

/-- **A bounded loop of such turns** gets through or gives up. -/
theorem Chip.runs_untilPositive {body : Nina E (Option α)} {after : Nina E α} {f : ℕ → α}
    {r₀ : Except (Error E) α}
    (hbody : ∀ s : Link C, ∃ r, K.Runs body.run s r (s.exchanged K request) ∧
      Turned f (answer (s.exchange K request)) r) (hafter : after.run = .ret r₀) (n : ℕ)
    (s : Link C) :
    ∃ r s' log, K.Runs (repeatFor n body after).run s r s' ∧ s'.log = s.log ++ log ∧
      ((∃ v, GetsThrough request answer n log v ∧ r = .ok (f v)) ∨
        (GivesUp request answer n log ∧ (r = r₀ ∨ ∃ e, r = .error e))) := by
  induction n generalizing s with
  | zero =>
    refine ⟨r₀, s, [], ?_, (List.append_nil _).symm, .inr ⟨.inl ⟨rfl, List.forall_mem_nil _⟩,
      .inl rfl⟩⟩
    rw [repeatFor, hafter]
    exact .ret _
  | succ n ih =>
    obtain ⟨r, hrun, ⟨ha, rfl⟩ | ⟨v, ha, hv, rfl⟩ | ⟨ha, e, rfl⟩⟩ := hbody s
    · obtain ⟨r, s', log, hrest, hlog, hend⟩ := ih (s.exchanged K request)
      refine ⟨r, s', s.exchange K request :: log, hrun.ok hrest, ?_, ?_⟩
      · rw [hlog, Link.log_exchanged, List.append_assoc, List.singleton_append]
      · obtain ⟨v, hthrough, hr⟩ | ⟨hup, hr⟩ := hend
        · exact .inl ⟨v, hthrough.cons ⟨rfl, ha⟩, hr⟩
        · exact .inr ⟨hup.cons ⟨rfl, ha⟩, hr⟩
    · exact ⟨.ok (f v), _, [s.exchange K request], hrun.ok (.ret _), rfl, .inl ⟨v, ⟨[], _, rfl,
        Nat.succ_pos n, List.forall_mem_nil _, ⟨rfl, ha⟩, hv⟩, rfl⟩⟩
    · exact ⟨.error e, _, [s.exchange K request], hrun.error, rfl, .inr ⟨.inr ⟨[], _, rfl,
        Nat.succ_pos n, List.forall_mem_nil _, ⟨rfl, ha⟩⟩, .inr ⟨e, rfl⟩⟩⟩

end Loops

/-! ## The two loops of a send -/

/-- The count in the reply to an offer. -/
def Exchange.acked (ex : Exchange C) : Option ℕ :=
  (readOne len8 cmdSendDataTcp 4 ex.reply).bind countOf

/-- The byte in the reply to a poll for the end of the transmission. -/
def Exchange.sent (ex : Exchange C) : Option ℕ :=
  (readOne len8 cmdDataSentTcp 1 ex.reply).map fun payload => (payload.getD 0 0).toNat

def sentFrame (sock : Socket) : List UInt8 := frame cmdDataSentTcp [.short [sock.raw]]

/-- The retry loop, as one that asks until the count is positive. -/
theorem offerChunk_eq (sock : Socket) (chunk : List UInt8) (n : ℕ) :
    Nina.offerChunk (E := E) sock chunk n 0 = repeatFor n (do
      let written ← offer sock chunk
      return if written > 0 then some written else none) (pure 0) := by
  induction n with
  | zero => rfl
  | succ n ih =>
    rw [offerChunk_succ, repeatFor, LawfulMonad.bind_assoc]
    refine bind_congr fun written => ?_
    rw [pure_bind]
    rcases Nat.eq_zero_or_pos written with rfl | hpos
    · exact ih
    · rw [if_pos hpos, if_pos hpos]

theorem Chip.runs_offerChunk (sock : Socket) {chunk : List UInt8} (h : chunk.length ≤ 64) (n : ℕ)
    (s : Link C) :
    ∃ r s' log, K.Runs (Nina.offerChunk (E := E) sock chunk n 0).run s r s' ∧
      s'.log = s.log ++ log ∧
      ((∃ v, GetsThrough (sendFrame sock chunk) Exchange.acked n log v ∧ r = .ok v) ∨
        (GivesUp (sendFrame sock chunk) Exchange.acked n log ∧
          (r = .ok 0 ∨ ∃ e, r = .error e))) := by
  rw [offerChunk_eq]
  refine runs_untilPositive (f := id) (fun s => ?_) rfl n s
  obtain ⟨r, hrun, hr⟩ := runs_offer (K := K) (E := E) sock h s
  rcases r with e | v
  · refine ⟨.error e, hrun.error, .inr (.inr ⟨?_, e, rfl⟩)⟩
    rw [Option.eq_none_iff_forall_not_mem]
    rintro v hv
    obtain ⟨payload, hread, hcount⟩ := Option.bind_eq_some_iff.mp hv
    exact absurd ((hr v).mpr ⟨payload, hread, hcount⟩) (by simp)
  · have hv : (s.exchange K (sendFrame sock chunk)).acked = some v :=
      Option.bind_eq_some_iff.mpr ((hr v).mp rfl)
    refine ⟨_, hrun.ok (.ret _), ?_⟩
    rcases Nat.eq_zero_or_pos v with rfl | hpos
    · exact .inl ⟨hv, rfl⟩
    · exact .inr (.inl ⟨v, hv, hpos, congrArg Except.ok (if_pos hpos)⟩)

theorem Chip.runs_checkDataSent (sock : Socket) (s : Link C) :
    ∃ r s' log, K.Runs (Nina.checkDataSent (E := E) sock).run s r s' ∧ s'.log = s.log ++ log ∧
      ((∃ v, GetsThrough (sentFrame sock) Exchange.sent 20 log v ∧ r = .ok ()) ∨
        (GivesUp (sentFrame sock) Exchange.sent 20 log ∧ ∃ e, r = .error e)) := by
  have hturn : ∀ s : Link C, ∃ r, K.Runs (do
        let b ← Nina.byteCommand (E := E) cmdDataSentTcp [[sock.raw]]
        if b ≠ 0 then return some () else
          Nina.timer 50
          return none).run s r (s.exchanged K (sentFrame sock)) ∧
      Turned (fun _ => ()) (s.exchange K (sentFrame sock)).sent r := by
    intro s
    obtain ⟨r, hrun, hr⟩ := runs_byteCommand (K := K) (E := E) cmdDataSentTcp [[sock.raw]] s
    rcases r with e | b
    · refine ⟨.error e, hrun.error, .inr (.inr ⟨?_, e, rfl⟩)⟩
      rw [Option.eq_none_iff_forall_not_mem]
      rintro v hv
      obtain ⟨payload, hread, -⟩ := Option.map_eq_some_iff.mp hv
      exact absurd ((hr _).mpr ⟨payload, hread, rfl⟩) (by simp)
    · obtain ⟨payload, hread, hb⟩ := (hr b).mp rfl
      have hv : (s.exchange K (sentFrame sock)).sent = some b.toNat := by
        rw [hb]
        exact Option.map_eq_some_iff.mpr ⟨payload, hread, rfl⟩
      by_cases hb0 : b = 0
      · refine ⟨.ok none, hrun.ok ?_, .inl ⟨by rw [hv, hb0]; rfl, rfl⟩⟩
        rw [if_neg (not_not.mpr hb0)]
        exact (Runs.timer 50).ok (.ret _)
      · have hpos : 0 < b.toNat := Nat.pos_iff_ne_zero.mpr fun h => hb0 (UInt8.toNat_inj.mp h)
        refine ⟨.ok (some ()), hrun.ok ?_, .inr (.inl ⟨b.toNat, hv, hpos, rfl⟩)⟩
        rw [if_pos hb0]
        exact .ret _
  have htimeout : (throw .timeout : Nina E Unit).run = .ret (.error .timeout) := rfl
  obtain ⟨r, s', log, hrun, hlog, ⟨v, h, hr⟩ | ⟨h, hr⟩⟩ := runs_untilPositive hturn htimeout 20 s
  · exact ⟨r, s', log, hrun, hlog, .inl ⟨v, h, hr⟩⟩
  · exact ⟨r, s', log, hrun, hlog, .inr ⟨h, hr.elim (fun hr => ⟨_, hr⟩) id⟩⟩

/-! ## What the chip takes -/

/-- The chunk `request` offers to the socket, if it does. -/
def offered (sock : Socket) (request : List UInt8) : Option (List UInt8) :=
  match readFrame (asTold [len16, len16]) request with
  | some ⟨op, [slot, chunk], _⟩ =>
    if op = cmdSendDataTcp ∧ slot = [sock.raw] then some chunk else none
  | _ => none

theorem offered_eq_some {chunk request : List UInt8} :
    offered sock request = some chunk ↔ Offers sock chunk request := by
  constructor
  · intro h
    rw [offered] at h
    split at h
    · rename_i op slot chunk' pad hread
      split at h
      · rename_i hop
        obtain ⟨rfl, rfl⟩ := hop
        obtain rfl := Option.some.inj h
        exact ⟨pad, hread⟩
      · exact absurd h (by simp)
    · exact absurd h (by simp)
  · rintro ⟨pad, hread⟩
    simp [offered, hread]

/-- The chunk and the count of an exchange that acks an offer positively. -/
def Exchange.taken (sock : Socket) (ex : Exchange C) : Option (List UInt8 × ℕ) :=
  (offered sock ex.request).bind fun chunk =>
    (ex.acked.filter fun n => 0 < n).map fun n => (chunk, n)

/-- The positive acks of a log, in order. -/
def taken (sock : Socket) (log : List (Exchange C)) : List (List UInt8 × ℕ) :=
  log.filterMap (Exchange.taken sock)

theorem taken_append (log log' : List (Exchange C)) :
    taken sock (log ++ log') = taken sock log ++ taken sock log' := List.filterMap_append

theorem taken_eq_nil {log : List (Exchange C)} :
    taken sock log = [] ↔ ∀ ex ∈ log, ex.taken sock = none := List.filterMap_eq_nil_iff

/-- Only positive counts are taken. -/
theorem taken_pos {log : List (Exchange C)} {p : List UInt8 × ℕ} (hp : p ∈ taken sock log) :
    0 < p.2 := by
  obtain ⟨ex, -, hex⟩ := List.mem_filterMap.mp hp
  obtain ⟨chunk, -, h⟩ := Option.bind_eq_some_iff.mp hex
  obtain ⟨n, hn, rfl⟩ := Option.map_eq_some_iff.mp h
  obtain ⟨-, hpos⟩ := Option.filter_eq_some_iff.mp hn
  exact of_decide_eq_true hpos

theorem length_le_sum_taken (sock : Socket) (log : List (Exchange C)) :
    (taken sock log).length ≤ ((taken sock log).map Prod.snd).sum := by
  have hpos : ∀ v ∈ (taken sock log).map Prod.snd, 1 ≤ v :=
    List.forall_mem_map.mpr fun _ => taken_pos
  have hle := List.length_le_sum_of_one_le _ hpos
  rwa [List.length_map] at hle

section Taken

variable {slice : List UInt8} {n v : ℕ} {log : List (Exchange C)} {ex : Exchange C}

/-- An offer is taken where its ack is positive. -/
theorem Exchange.taken_offer (h : Offers sock slice ex.request) :
    ex.taken sock = if 0 < ex.acked.getD 0 then some (slice, ex.acked.getD 0) else none := by
  rw [Exchange.taken, offered_eq_some.mpr h, Option.bind_some]
  rcases ex.acked with _ | n
  · rfl
  · rw [Option.filter_some, Option.getD_some]
    by_cases hpos : 0 < n <;> simp [hpos]

theorem Exchange.taken_acked {k : ℕ} (h : Offers sock slice ex.request) (hk : ex.acked = some k) :
    ex.taken sock = if 0 < k then some (slice, k) else none := by
  rw [ex.taken_offer h, hk, Option.getD_some]

theorem Exchange.taken_other (h : ∀ chunk, ¬ Offers sock chunk ex.request) :
    ex.taken sock = none := by
  have hoffered : offered sock ex.request = none := by
    rw [Option.eq_none_iff_forall_not_mem]
    exact fun chunk hchunk => h chunk (offered_eq_some.mp hchunk)
  rw [Exchange.taken, hoffered, Option.bind_none]

theorem not_offers_sentFrame (chunk : List UInt8) : ¬ Offers sock chunk (sentFrame sock) := by
  intro h
  have hop := h.opcode
  rw [sentFrame, opcode_frame] at hop
  exact absurd hop (by decide)

theorem offers_of_sendFrame (hslice : slice.length ≤ 64) (h : ex.request = sendFrame sock slice) :
    Offers sock slice ex.request := h ▸ offers_sendFrame sock hslice

theorem taken_zeros (hslice : slice.length ≤ 64)
    (h : ∀ ex ∈ log, ex.Asked (sendFrame sock slice) Exchange.acked (some 0)) :
    taken sock log = [] := by
  refine taken_eq_nil.mpr fun ex hex => ?_
  exact ex.taken_acked (offers_of_sendFrame hslice (h ex hex).1) (h ex hex).2

/-- A slice that gets through is taken once. -/
theorem GetsThrough.taken (hslice : slice.length ≤ 64)
    (h : GetsThrough (sendFrame sock slice) Exchange.acked n log v) :
    taken sock log = [(slice, v)] := by
  obtain ⟨zeros, last, rfl, -, hzeros, hlast, hv⟩ := h
  have hone : last.taken sock = some (slice, v) := by
    rw [last.taken_acked (offers_of_sendFrame hslice hlast.1) hlast.2, if_pos hv]
  rw [taken_append, taken_zeros hslice hzeros, List.nil_append, EmbassyNina.taken,
    List.filterMap_cons_some hone, List.filterMap_nil]

/-- One that is given up is not taken. -/
theorem GivesUp.taken (hslice : slice.length ≤ 64)
    (h : GivesUp (sendFrame sock slice) Exchange.acked n log) : taken sock log = [] := by
  obtain ⟨-, hzeros⟩ | ⟨zeros, last, rfl, -, hzeros, hlast⟩ := h
  · exact taken_zeros hslice hzeros
  · have hnone : last.taken sock = none := by
      rw [Exchange.taken, offered_eq_some.mpr (offers_of_sendFrame hslice hlast.1), hlast.2]
      rfl
    rw [taken_append, taken_zeros hslice hzeros, List.nil_append]
    exact taken_eq_nil.mpr (List.forall_mem_singleton.mpr hnone)

/-- A poll takes nothing. -/
theorem taken_polls (h : ∀ ex ∈ log, ex.request = sentFrame sock) :
    EmbassyNina.taken sock log = [] := taken_eq_nil.mpr fun ex hex =>
    ex.taken_other (h ex hex ▸ not_offers_sentFrame)

end Taken

/-! ## The log of a send -/

/-- The exchanges of a slice that gets through: positively acked, then reported sent. -/
def SliceSent (sock : Socket) (slice : List UInt8) (log : List (Exchange C)) : Prop :=
  ∃ offers polls v b, log = offers ++ polls ∧
    GetsThrough (sendFrame sock slice) Exchange.acked 5 offers v ∧
    GetsThrough (sentFrame sock) Exchange.sent 20 polls b

/-- The exchanges of a slice at which a send fails. -/
def SliceFailed (sock : Socket) (slice : List UInt8) (log : List (Exchange C)) : Prop :=
  GivesUp (sendFrame sock slice) Exchange.acked 5 log ∨
    ∃ offers polls v, log = offers ++ polls ∧
      GetsThrough (sendFrame sock slice) Exchange.acked 5 offers v ∧
      GivesUp (sentFrame sock) Exchange.sent 20 polls

/-- **The exchanges of a send of some slices**: they get through one after the other, to the last or
up to the one at which the send fails. -/
inductive SendLog (sock : Socket) : List (List UInt8) → List (Exchange C) → Bool → Prop
  | done : SendLog sock [] [] true
  | sent {slice : List UInt8} {slices : List (List UInt8)} {log log' : List (Exchange C)}
      {ok : Bool} (h : SliceSent sock slice log) (rest : SendLog sock slices log' ok) :
    SendLog sock (slice :: slices) (log ++ log') ok
  | failed {slice : List UInt8} {slices : List (List UInt8)} {log : List (Exchange C)}
      (h : SliceFailed sock slice log) : SendLog sock (slice :: slices) log false

/-- **A send leaves such a log**, and returns the sum of its acks, cut off at the last `u16`. -/
theorem Chip.runs_sendChunks (sock : Socket) {slices : List (List UInt8)}
    (hslices : ∀ slice ∈ slices, slice.length ≤ 64) {total : ℕ} (htotal : total ≤ 65535)
    (s : Link C) :
    ∃ r s' log, K.Runs (Nina.sendChunks (E := E) sock slices total).run s r s' ∧
      s'.log = s.log ++ log ∧ SendLog sock slices log r.isOk ∧
      ∀ n, r = .ok n → n = min (total + ((taken sock log).map Prod.snd).sum) 65535 := by
  induction slices generalizing total s with
  | nil =>
    refine ⟨.ok total, s, [], .ret _, (List.append_nil _).symm, .done, fun n hn => ?_⟩
    obtain rfl := Except.ok.inj hn
    exact (Nat.min_eq_left htotal).symm
  | cons slice slices ih =>
    obtain ⟨hslice, hslices⟩ := List.forall_mem_cons.mp hslices
    obtain ⟨r₁, s₁, offers, hrun₁, hlog₁, ⟨v, hthrough, rfl⟩ | ⟨hup, hr⟩⟩ :=
      runs_offerChunk (K := K) (E := E) sock hslice 5 s
    · have hpass := Runs.failIf_neg (K := K) (s := s₁) (Nat.pos_iff_ne_zero.mp hthrough.pos)
        (.nina : Error E)
      obtain ⟨r₂, s₂, polls, hrun₂, hlog₂, ⟨b, hpolls, rfl⟩ | ⟨hup, e, rfl⟩⟩ :=
        runs_checkDataSent (K := K) (E := E) sock s₁
      · obtain ⟨r₃, s₃, log, hrun₃, hlog₃, hsend, hcount⟩ :=
          ih hslices (Nat.min_le_right (total + v) 65535) s₂
        refine ⟨r₃, s₃, offers ++ polls ++ log, hrun₁.ok (hpass.ok (hrun₂.ok hrun₃)), ?_,
          .sent ⟨offers, polls, v, b, rfl, hthrough, hpolls⟩ hsend, fun n hn => ?_⟩
        · rw [hlog₃, hlog₂, hlog₁]
          simp only [List.append_assoc]
        · rw [hcount n hn, taken_append, taken_append, hthrough.taken hslice,
            taken_polls hpolls.requests]
          simp only [List.append_nil, List.map_append, List.map_cons, List.map_nil,
            List.sum_append, List.sum_singleton]
          omega
      · refine ⟨.error e, s₂, offers ++ polls, hrun₁.ok (hpass.ok hrun₂.error), ?_,
          .failed (.inr ⟨offers, polls, v, rfl, hthrough, hup⟩), by simp⟩
        rw [hlog₂, hlog₁, List.append_assoc]
    · obtain ⟨e, hfail⟩ : ∃ e, K.Runs (Nina.sendChunks (E := E) sock (slice :: slices) total).run s
          (.error e) s₁ := by
        obtain rfl | ⟨e, rfl⟩ := hr
        · exact ⟨.nina, hrun₁.ok (Runs.failIf_pos rfl _).error⟩
        · exact ⟨e, hrun₁.error⟩
      exact ⟨.error e, s₁, offers, hfail, hlog₁, .failed (.inl hup), by simp⟩

/-- A slice that got through is told apart from what follows… -/
theorem SliceSent.unique {slice : List UInt8} {log log' more more' : List (Exchange C)}
    (h : SliceSent sock slice log) (h' : SliceSent sock slice log')
    (heq : log ++ more = log' ++ more') : log = log' := by
  obtain ⟨offers, polls, v, b, rfl, hoffers, hpolls⟩ := h
  obtain ⟨offers', polls', v', b', rfl, hoffers', hpolls'⟩ := h'
  rw [List.append_assoc, List.append_assoc] at heq
  obtain rfl := hoffers.unique hoffers' heq
  obtain rfl := hpolls.unique hpolls' (List.append_cancel_left heq)
  rfl

/-- …and one that failed has not got through before. -/
theorem SliceFailed.not_sliceSent {slice : List UInt8} {log front more : List (Exchange C)}
    (h : SliceFailed sock slice log) (heq : log = front ++ more) :
    ¬ SliceSent sock slice front := by
  rintro ⟨offers, polls, v, b, rfl, hoffers, hpolls⟩
  rw [List.append_assoc] at heq
  obtain hup | ⟨offers', polls', v', rfl, hoffers', hup⟩ := h
  · exact hup.not_getsThrough heq hoffers
  · obtain rfl := hoffers'.unique hoffers heq
    exact hup.not_getsThrough (List.append_cancel_left heq) hpolls

theorem sendLog_nil_iff {log : List (Exchange C)} {ok : Bool} :
    SendLog sock [] log ok ↔ log = [] ∧ ok = true := by
  constructor
  · rintro ⟨⟩
    exact ⟨rfl, rfl⟩
  · rintro ⟨rfl, rfl⟩
    exact .done

theorem sendLog_cons_iff {slice : List UInt8} {slices : List (List UInt8)}
    {log : List (Exchange C)} {ok : Bool} :
    SendLog sock (slice :: slices) log ok ↔
      (∃ front rest, log = front ++ rest ∧ SliceSent sock slice front ∧
        SendLog sock slices rest ok) ∨ (SliceFailed sock slice log ∧ ok = false) := by
  constructor
  · rintro (_ | ⟨h, hrest⟩ | h)
    · exact .inl ⟨_, _, rfl, h, hrest⟩
    · exact .inr ⟨h, rfl⟩
  · rintro (⟨front, rest, rfl, h, hrest⟩ | ⟨h, rfl⟩)
    · exact .sent h hrest
    · exact .failed h

/-- **The replies decide** whether all slices get through. -/
theorem SendLog.unique {slices : List (List UInt8)} {log : List (Exchange C)} {ok ok' : Bool}
    (h : SendLog sock slices log ok) (h' : SendLog sock slices log ok') : ok = ok' := by
  induction slices generalizing log with
  | nil => exact (sendLog_nil_iff.mp h).2.trans (sendLog_nil_iff.mp h').2.symm
  | cons slice slices ih =>
    rcases sendLog_cons_iff.mp h with ⟨front, rest, rfl, hsent, hrest⟩ | ⟨hfailed, rfl⟩ <;>
      rcases sendLog_cons_iff.mp h' with ⟨front', rest', heq, hsent', hrest'⟩ | ⟨hfailed', rfl⟩
    · obtain rfl := hsent.unique hsent' heq
      obtain rfl := List.append_cancel_left heq
      exact ih hrest hrest'
    · exact absurd hsent (hfailed'.not_sliceSent rfl)
    · exact absurd hsent' (hfailed.not_sliceSent heq)
    · rfl

/-- All of them are offers of the slices and polls. -/
theorem SendLog.requests {slices : List (List UInt8)} {log : List (Exchange C)} {ok : Bool}
    (h : SendLog sock slices log ok) :
    ∀ ex ∈ log, (∃ slice ∈ slices, ex.request = sendFrame sock slice) ∨
      ex.request = sentFrame sock := by
  induction h with
  | done => exact List.forall_mem_nil _
  | @sent slice slices log log' ok hsent _ ih =>
    obtain ⟨offers, polls, v, b, rfl, hoffers, hpolls⟩ := hsent
    refine List.forall_mem_append.mpr ⟨List.forall_mem_append.mpr ⟨fun ex hex => ?_,
      fun ex hex => .inr (hpolls.requests ex hex)⟩, fun ex hex => ?_⟩
    · exact .inl ⟨slice, List.mem_cons_self, hoffers.requests ex hex⟩
    · exact (ih ex hex).imp_left fun ⟨slice', hmem, h⟩ => ⟨slice', List.mem_cons_of_mem _ hmem, h⟩
  | @failed slice slices log hfailed =>
    obtain hup | ⟨offers, polls, v, rfl, hoffers, hup⟩ := hfailed
    · exact fun ex hex => .inl ⟨slice, List.mem_cons_self, hup.requests ex hex⟩
    · exact List.forall_mem_append.mpr
        ⟨fun ex hex => .inl ⟨slice, List.mem_cons_self, hoffers.requests ex hex⟩,
          fun ex hex => .inr (hup.requests ex hex)⟩

/-- **A slice is taken at most once**, and those taken are the first of them. -/
theorem SendLog.taken {slices : List (List UInt8)} {log : List (Exchange C)} {ok : Bool}
    (h : SendLog sock slices log ok) (hslices : ∀ slice ∈ slices, slice.length ≤ 64) :
    (taken sock log).map Prod.fst <+: slices ∧
      (ok = true → (EmbassyNina.taken sock log).map Prod.fst = slices) := by
  induction h with
  | done => exact ⟨List.nil_prefix, fun _ => rfl⟩
  | @sent slice slices log log' ok hsent _ ih =>
    obtain ⟨hslice, hslices⟩ := List.forall_mem_cons.mp hslices
    obtain ⟨offers, polls, v, b, rfl, hoffers, hpolls⟩ := hsent
    obtain ⟨hfront, hall⟩ := ih hslices
    rw [taken_append, taken_append, hoffers.taken hslice, taken_polls hpolls.requests]
    refine ⟨List.cons_prefix_cons.mpr ⟨rfl, hfront⟩, fun hok => ?_⟩
    exact congrArg (slice :: ·) (hall hok)
  | @failed slice slices log hfailed =>
    obtain ⟨hslice, hslices⟩ := List.forall_mem_cons.mp hslices
    obtain hup | ⟨offers, polls, v, rfl, hoffers, hup⟩ := hfailed
    · rw [hup.taken hslice]
      exact ⟨List.nil_prefix, by simp⟩
    · rw [taken_append, hoffers.taken hslice, taken_polls hup.requests]
      exact ⟨List.cons_prefix_cons.mpr ⟨rfl, List.nil_prefix⟩, by simp⟩

/-! ## Sending -/

theorem flatten_chunksUpTo {n : ℕ} (hn : 0 < n) {k : ℕ} {data : List UInt8} (h : data.length ≤ k) :
    (Nina.chunksUpTo n k data).flatten = data := by
  induction k generalizing data with
  | zero =>
    rw [List.eq_nil_of_length_eq_zero (Nat.le_zero.mp h)]
    rfl
  | succ k ih =>
    cases data with
    | nil => rfl
    | cons b data =>
      have hdrop : ((b :: data).drop n).length ≤ k := by
        rw [List.length_drop]
        omega
      rw [Nina.chunksUpTo, List.flatten_cons, ih hdrop, List.take_append_drop]
      exact nofun

theorem length_of_mem_chunksUpTo {n k : ℕ} {data chunk : List UInt8}
    (h : chunk ∈ Nina.chunksUpTo n k data) : chunk.length ≤ n := by
  induction k generalizing data with
  | zero => exact absurd h List.not_mem_nil
  | succ k ih =>
    cases data with
    | nil => exact absurd h List.not_mem_nil
    | cons b data =>
      rcases List.mem_cons.mp h with rfl | h
      · exact List.length_take_le _ _
      · exact ih h

section Slices

variable {n k : ℕ} {data slice : List UInt8}

theorem ne_nil_of_mem_chunksUpTo (hn : 0 < n) (h : slice ∈ Nina.chunksUpTo n k data) :
    slice ≠ [] := by
  induction k generalizing data with
  | zero => exact absurd h List.not_mem_nil
  | succ k ih =>
    rcases data with _ | ⟨b, data⟩
    · exact absurd h List.not_mem_nil
    obtain rfl | h := List.mem_cons.mp h
    · obtain ⟨m, rfl⟩ := Nat.exists_eq_add_of_lt hn
      rw [Nat.zero_add, List.take_succ_cons]
      exact List.cons_ne_nil _ _
    · exact ih h

/-- Every slice but the last is full. -/
theorem length_of_mem_dropLast_chunksUpTo (h : slice ∈ (Nina.chunksUpTo n k data).dropLast) :
    slice.length = n := by
  induction k generalizing data with
  | zero => exact absurd h List.not_mem_nil
  | succ k ih =>
    rcases data with _ | ⟨b, data⟩
    · exact absurd h List.not_mem_nil
    have hcons : Nina.chunksUpTo n (k + 1) (b :: data) =
        (b :: data).take n :: Nina.chunksUpTo n k ((b :: data).drop n) := rfl
    rw [hcons] at h
    by_cases hlast : Nina.chunksUpTo n k ((b :: data).drop n) = []
    · rw [hlast] at h
      exact absurd h List.not_mem_nil
    rw [List.dropLast_cons_of_ne_nil hlast] at h
    obtain rfl | h := List.mem_cons.mp h
    · refine List.length_take_of_le (Nat.le_of_not_lt fun hlt => hlast ?_)
      rw [List.drop_eq_nil_of_le (Nat.le_of_lt hlt)]
      cases k <;> rfl
    · exact ih h

end Slices

theorem length_of_mem_chunks {data slice : List UInt8} (h : slice ∈ Nina.chunks 64 data) :
    slice.length ≤ 64 := length_of_mem_chunksUpTo h

theorem flatten_chunks (data : List UInt8) : (Nina.chunks 64 data).flatten = data :=
  flatten_chunksUpTo (by decide) (Nat.le_refl _)

theorem Chip.runs_tcpSend (sock : Socket) (data : List UInt8) (s : Link C) :
    ∃ r s' log, K.Runs (Nina.tcpSend (E := E) sock data).run s r s' ∧ s'.log = s.log ++ log ∧
      SendLog sock (Nina.chunks 64 data) log r.isOk ∧
      ∀ n, r = .ok n → n = min ((taken sock log).map Prod.snd).sum 65535 := by
  obtain ⟨r, s', log, hrun, hlog, hsend, hcount⟩ := runs_sendChunks (K := K) (E := E) sock
    (fun _ h => length_of_mem_chunks h) (Nat.zero_le 65535) s
  rw [Nat.zero_add] at hcount
  exact ⟨r, s', log, hrun, hlog, hsend, hcount⟩

/-- **The retry discipline of a send.**  Its exchanges are a `SendLog` of the 64-byte slices of the
data, to the last of them exactly if it succeeds; every offer goes out whole; and the slices that
are positively acked are, one ack each, the first of the slices. -/
theorem tcpSend_retries (K : Chip C) (sock : Socket) (data : List UInt8) (s : Link C) :
    ∃ r s' log, K.Runs (Nina.tcpSend (E := E) sock data).run s r s' ∧ s'.log = s.log ++ log ∧
      (∀ ok, SendLog sock (Nina.chunks 64 data) log ok ↔ r.isOk = ok) ∧
      (Nina.chunks 64 data).flatten = data ∧
      (∀ slice ∈ Nina.chunks 64 data, slice ≠ [] ∧ slice.length ≤ 64) ∧
      (∀ slice ∈ (Nina.chunks 64 data).dropLast, slice.length = 64) ∧
      (∀ slice ∈ Nina.chunks 64 data, Offers sock slice (sendFrame sock slice) ∧ ∀ s : Link C,
        K.Runs (sendCmdMixed (E := E) cmdSendDataTcp [.long [sock.raw], .long slice]).run s (.ok ())
          (s.served K (sendFrame sock slice))) ∧
      (taken sock log).map Prod.fst <+: Nina.chunks 64 data := by
  obtain ⟨r, s', log, hrun, hlog, hsend, -⟩ := Chip.runs_tcpSend (K := K) (E := E) sock data s
  refine ⟨r, s', log, hrun, hlog, fun ok => ⟨hsend.unique, fun hok => hok ▸ hsend⟩,
    flatten_chunks data, fun slice h => ?_, fun slice h => ?_, fun slice h => ?_,
    (hsend.taken fun _ h => length_of_mem_chunks h).1⟩
  · exact ⟨ne_nil_of_mem_chunksUpTo (by decide) h, length_of_mem_chunks h⟩
  · exact length_of_mem_dropLast_chunksUpTo h
  · have hlen := length_of_mem_chunks h
    exact ⟨offers_sendFrame sock hlen, Chip.runs_sendCmdMixed _ (frameLength_send sock hlen)⟩

/-- A write of either socket type is a send. -/
theorem Chip.Runs.write {data : List UInt8} {s s' : Link C} {r : Except (Error E) ℕ}
    (h : K.Runs (Nina.tcpSend sock data).run s r s') (f : Facade) :
    K.Runs (f.write sock data).run s r s' := by
  rcases f with _ | _
  · exact h
  · exact h.locked

end EmbassyNina
