import EmbassyNina.Exchange.Receivers
import EmbassyNina.Exchange.Packing
import EmbassyNina.Wire.Reply

/-!
# Link/Reader — the receivers as parsers of a stream

`reads x out st` is what the buffer function `x` makes of the stream `st` when the bus works: its
result, its buffer and the rest of the stream.  The receivers' bodies are followed once each, by
their loops and checks, and then read off: a one-parameter receiver succeeds exactly on the layout
`OneParam`, within its buffer (`reads_recvCmdOneParamInner`), and so do the other two.
-/

namespace EmbassyNina

open Machinery Prog Stream'

variable {E : Type} {α β : Type}

/-- The environment that clocks bytes in from a stream; everything else works and changes
nothing. -/
def reader (E : Type) : Env (halSig E) Bytes where
  answer st
    | .busTransfer bytes => (.ok ⟨(st.take bytes.length).toArray, by simp⟩, st.drop bytes.length)
    | e => (e.success, st)

/-- What `x` makes of a stream. -/
def reads (x : BufM E α) (out : Buf) (st : Bytes) :
    Outcome (Except (Error E) α × Buf) × Bytes := (reader E).exec (x.run out) st

/-- `?` on what was read. -/
def andRead (f : α → BufM E β) :
    Outcome (Except (Error E) α × Buf) × Bytes → Outcome (Except (Error E) β × Buf) × Bytes
  | (.done (.ok a, out), st) => reads (f a) out st
  | (.done (.error e, out), st) => (.done (.error e, out), st)
  | (.stopped h, st) => (.stopped h, st)

theorem reads_bind (x : BufM E α) (f : α → BufM E β) (out : Buf) (st : Bytes) :
    reads (x >>= f) out st = andRead f (reads x out st) := by
  rw [reads, BufM.run_bind, Env.exec_bind, ← reads]
  rcases reads x out st with ⟨⟨⟨e⟩ | a, out'⟩ | h, st'⟩ <;> rfl

@[simp] theorem andRead_ok (f : α → BufM E β) (a : α) (out : Buf) (st : Bytes) :
    andRead f (.done (.ok a, out), st) = reads (f a) out st := rfl

@[simp] theorem andRead_error (f : α → BufM E β) (e : Error E) (out : Buf) (st : Bytes) :
    andRead f (.done (.error e, out), st) = (.done (.error e, out), st) := rfl

/-! ## The primitives -/

variable {out : Buf} {st : Bytes}

@[simp] theorem reads_pure (a : α) :
    reads (pure a : BufM E α) out st = (.done (.ok a, out), st) := rfl

@[simp] theorem reads_len :
    reads (BufM.len (E := E)) out st = (.done (.ok out.length, out), st) := rfl

@[simp] theorem reads_transfer (k : ℕ) :
    reads (BufM.transfer (E := E) k) out st = (.done (.ok (st.take k), out), st.drop k) := by
  have hk : (List.replicate k dummy).length = k := List.length_replicate
  change (Outcome.done (Except.ok (st.take (List.replicate k dummy).length), out),
    st.drop (List.replicate k dummy).length) = _
  rw [hk]

theorem reads_failIf_pos {c : Prop} [Decidable c] (h : c) (e : Error E) :
    reads (BufM.failIf c e) out st = (.done (.error e, out), st) := by
  rw [reads, run_failIf_pos h]
  rfl

theorem reads_failIf_neg {c : Prop} [Decidable c] (h : ¬ c) (e : Error E) :
    reads (BufM.failIf c e) out st = (.done (.ok (), out), st) := by
  rw [reads, run_failIf_neg h]
  rfl

theorem reads_setIdx (done rest : List UInt8) (b : UInt8) (h : 1 ≤ rest.length) :
    reads (BufM.setIdx (E := E) done.length b) (done ++ rest) st =
      (.done (.ok (), (done ++ [b]) ++ rest.drop 1), st) := by
  rw [reads, run_setIdx done rest b h]
  rfl

/-! ## The loops -/

/-- One transfer a slot, into the slots from the fill point on. -/
theorem reads_fillSlots (k : ℕ) (done rest : List UInt8) (st : Bytes) (h : k ≤ rest.length) :
    reads (fillSlots (E := E) done.length k) (done ++ rest) st =
      (.done (.ok (), (done ++ st.take k) ++ rest.drop k), st.drop k) := by
  induction k generalizing done rest st with
  | zero => rw [fillSlots, reads_pure, take_zero, List.append_nil, List.drop_zero]; rfl
  | succ k ih =>
    have hlen : done.length + 1 = (done ++ [st.head]).length := by simp
    have hrest : k ≤ (rest.drop 1).length := by
      rw [List.length_drop]
      omega
    have hbyte : (st.take 1).headD 0 = st.head := rfl
    rw [fillSlots, reads_bind, reads_transfer, andRead_ok, hbyte, reads_bind,
      reads_setIdx _ _ _ (by omega), andRead_ok, hlen, ih _ _ _ hrest, take_succ, List.drop_drop,
      Nat.add_comm 1 k, List.append_assoc done, List.singleton_append, drop_drop,
      Nat.add_comm 1 k, tail_eq_drop]

theorem reads_expectEnd :
    reads (expectEnd (E := E)) out st =
      (.done (if st.head = endCmd then .ok () else .error .framing, out), st.tail) := by
  rw [expectEnd, reads_bind, reads_transfer, andRead_ok]
  have hbyte : (st.take 1).headD 0 = st.head := rfl
  by_cases h : st.head = endCmd
  · rw [hbyte, reads_failIf_neg (not_not.mpr h), if_pos h]
    rfl
  · rw [hbyte, reads_failIf_pos h, if_neg h]
    rfl

/-- The hunt ends as the layout has it. -/
theorem reads_huntStart (out : Buf) (st : Bytes) (n : ℕ) {byte : UInt8} (hbyte : byte ≠ startCmd) :
    match hunt n st with
    | .found rest => reads (huntStart (E := E) n byte) out st = (.done (.ok startCmd, out), rest)
    | .refused rest => reads (huntStart (E := E) n byte) out st = (.done (.error .nina, out), rest)
    | .silent rest => ∃ b, b ≠ startCmd ∧
        reads (huntStart (E := E) n byte) out st = (.done (.ok b, out), rest) := by
  induction n generalizing byte st with
  | zero => exact ⟨byte, hbyte, rfl⟩
  | succ n ih =>
    have hstep : reads (huntStart (E := E) (n + 1) byte) out st =
        reads (if st.head = startCmd then pure st.head else do
          BufM.failIf (st.head = errCmd) .nina
          huntStart n st.head : BufM E UInt8) out st.tail := by
      rw [huntStart, reads_bind, reads_transfer, andRead_ok]
      rfl
    rw [hstep, hunt]
    by_cases hs : st.head = startCmd
    · rw [if_pos hs, if_pos hs, hs]
      rfl
    · rw [if_neg hs, if_neg hs, reads_bind]
      by_cases he : st.head = errCmd
      · rw [if_pos he, reads_failIf_pos he]
        rfl
      · rw [if_neg he, reads_failIf_neg he, andRead_ok]
        exact ih _ hs

/-! ## The header -/

theorem startCmd_ne_zero : (0 : UInt8) ≠ startCmd := by decide

theorem dummy_ne_startCmd : dummy ≠ startCmd := by decide

/-- **Every receiver** hunts, reads its header, and goes on only past its own opcode. -/
theorem reads_opened (out : Buf) (st : Bytes) (cmd : UInt8) {byte : UInt8}
    (hbyte : byte ≠ startCmd) (k : ℕ) (tail : List UInt8 → BufM E α) :
    reads (opened cmd byte (k + 1) tail) out st =
      match hunt startTimeoutIters st with
      | .found rest =>
        if rest.head = cmd ||| replyFlag then
          reads (tail (rest.take (k + 1))) out (rest.drop (k + 1))
        else (.done (.error .framing, out), rest.drop (k + 1))
      | .refused rest => (.done (.error .nina, out), rest)
      | .silent rest => (.done (.error .timeout, out), rest) := by
  have hhunt := reads_huntStart (E := E) out st startTimeoutIters hbyte
  rw [opened, reads_bind]
  generalize hunt startTimeoutIters st = h at hhunt
  cases h with
  | found rest =>
    dsimp only at hhunt ⊢
    have hfirst : (rest.take (k + 1)).getD 0 0 = rest.head := rfl
    rw [hhunt, andRead_ok, reads_bind, reads_failIf_neg (not_not.mpr rfl), andRead_ok, reads_bind,
      reads_transfer, andRead_ok, reads_bind, hfirst]
    by_cases hc : rest.head = cmd ||| replyFlag
    · rw [reads_failIf_neg (not_not.mpr hc), andRead_ok, if_pos hc]
    · rw [reads_failIf_pos hc, andRead_error, if_neg hc]
  | refused rest => rw [hhunt, andRead_error]
  | silent rest =>
    obtain ⟨b, hb, hread⟩ := hhunt
    rw [hread, andRead_ok, reads_bind, reads_failIf_pos hb, andRead_error]

/-! ## One parameter -/

/-- The part of a one-parameter reply past its length. -/
def readPayload (len : ℕ) (out : Buf) (st : Bytes) :
    Outcome (Except (Error E) ℕ × Buf) × Bytes :=
  if len ≤ out.length then
    (.done (if (st.drop len).head = endCmd then .ok len else .error .framing,
      st.take len ++ out.drop len), st.drop (len + 1))
  else (.done (.error .bufferTooSmall, out), st)

theorem reads_payload (len : ℕ) :
    reads (do
      BufM.failIf (len > (← BufM.len)) .bufferTooSmall
      fillSlots 0 len
      expectEnd
      return len : BufM E ℕ) out st = readPayload len out st := by
  rw [reads_bind, reads_len, andRead_ok, reads_bind, readPayload]
  by_cases h : len ≤ out.length
  · have hfill := reads_fillSlots (E := E) len [] out st h
    rw [reads_failIf_neg (Nat.not_lt.mpr h), andRead_ok, if_pos h, reads_bind]
    refine (congrArg (andRead _) hfill).trans ?_
    rw [andRead_ok, reads_bind, reads_expectEnd, tail_drop']
    by_cases he : (st.drop len).head = endCmd
    · rw [if_pos he, if_pos he]
      rfl
    · rw [if_neg he, if_neg he]
      rfl
  · rw [reads_failIf_pos (Nat.lt_of_not_le h), if_neg h]
    rfl

theorem reads_oneParamTail (hdr : List UInt8) :
    reads (oneParamTail (E := E) hdr) out st =
      if hdr.getD 1 0 = 1 then readPayload (hdr.getD 2 0).toNat out st
      else (.done (.error .framing, out), st) := by
  rw [oneParamTail, reads_bind]
  by_cases h : hdr.getD 1 0 = 1
  · rw [reads_failIf_neg (not_not.mpr h), if_pos h]
    exact reads_payload _
  · rw [reads_failIf_pos h, if_neg h]
    rfl

theorem reads_oneParam16Tail (hdr : List UInt8) :
    reads (oneParam16Tail (E := E) hdr) out st =
      if hdr.getD 1 0 = 1 then readPayload (ofBeBytes (st.get 0) (st.get 1)) out (st.drop 2)
      else (.done (.error .framing, out), st) := by
  rw [oneParam16Tail, reads_bind]
  by_cases h : hdr.getD 1 0 = 1
  · rw [reads_failIf_neg (not_not.mpr h), if_pos h, andRead_ok, reads_bind, reads_transfer,
      andRead_ok]
    exact reads_payload _
  · rw [reads_failIf_pos h, if_neg h]
    rfl

theorem readPayload_ok_iff {len n : ℕ} {out' : Buf} {st' : Bytes} :
    readPayload (E := E) len out st = (.done (.ok n, out'), st') ↔
      n = len ∧ len ≤ out.length ∧ ∃ payload, payload.length = len ∧
        st = payload ++ [endCmd] ++ₛ st' ∧ out' = payload ++ out.drop len := by
  rw [readPayload]
  constructor
  · intro h
    split at h
    · rename_i hlen
      split at h
      · rename_i he
        obtain ⟨h₁, rfl⟩ := Prod.mk.inj h
        obtain ⟨h₂, rfl⟩ := Prod.mk.inj (Outcome.done.inj h₁)
        refine ⟨(Except.ok.inj h₂).symm, hlen, st.take len, length_take _ _, ?_, rfl⟩
        rw [append_append_stream, ← he, ← tail_drop', append_stream_head_tail, append_take_drop]
      · obtain ⟨h₁, -⟩ := Prod.mk.inj h
        exact absurd (Prod.mk.inj (Outcome.done.inj h₁)).1 nofun
    · obtain ⟨h₁, -⟩ := Prod.mk.inj h
      exact absurd (Prod.mk.inj (Outcome.done.inj h₁)).1 nofun
  · rintro ⟨rfl, hlen, payload, rfl, rfl, rfl⟩
    rw [if_pos hlen, append_append_stream, take_append_self, ← tail_drop', drop_append_stream]
    rfl

/-- **`x` reads a reply of one parameter to `cmd`**, its length under the code `C`. -/
def ReadsOne (C : LenCode UInt8) (cmd : UInt8) (x : BufM E ℕ) : Prop :=
  ∀ out st, match hunt startTimeoutIters st with
    | .found rest =>
      if rest.head = cmd ||| replyFlag ∧ rest.get 1 = 1 then
        reads x out st =
          readPayload (C.dec ((rest.drop 2).take C.width)) out (rest.drop (2 + C.width))
      else ∃ st', reads x out st = (.done (.error .framing, out), st')
    | .refused rest => reads x out st = (.done (.error .nina, out), rest)
    | .silent rest => reads x out st = (.done (.error .timeout, out), rest)

theorem readsOne_recvCmdOneParamInner (cmd : UInt8) :
    ReadsOne len8 cmd (recvCmdOneParamInner (E := E) cmd) := by
  intro out st
  have hread := reads_opened (E := E) out st cmd startCmd_ne_zero 2
    oneParamTail
  rw [← recvCmdOneParamInner_eq] at hread
  generalize hunt startTimeoutIters st = h at hread
  cases h with
  | refused rest => exact hread
  | silent rest => exact hread
  | found rest =>
    dsimp only at hread ⊢
    by_cases hc : rest.head = cmd ||| replyFlag
    · have hone : (rest.take 3).getD 1 0 = rest.get 1 := rfl
      rw [if_pos hc, reads_oneParamTail, hone] at hread
      by_cases h1 : rest.get 1 = 1
      · rw [if_pos h1] at hread
        rw [if_pos ⟨hc, h1⟩]
        exact hread
      · rw [if_neg h1] at hread
        rw [if_neg fun h => h1 h.2]
        exact ⟨_, hread⟩
    · rw [if_neg hc] at hread
      rw [if_neg fun h => hc h.1]
      exact ⟨_, hread⟩

theorem readsOne_recvCmdOneParam16Inner (cmd : UInt8) :
    ReadsOne len16 cmd (recvCmdOneParam16Inner (E := E) cmd) := by
  intro out st
  have hread := reads_opened (E := E) out st cmd dummy_ne_startCmd 1
    oneParam16Tail
  rw [← recvCmdOneParam16Inner_eq] at hread
  generalize hunt startTimeoutIters st = h at hread
  cases h with
  | refused rest => exact hread
  | silent rest => exact hread
  | found rest =>
    dsimp only at hread ⊢
    by_cases hc : rest.head = cmd ||| replyFlag
    · have hone : (rest.take 2).getD 1 0 = rest.get 1 := rfl
      rw [if_pos hc, reads_oneParam16Tail, hone] at hread
      by_cases h1 : rest.get 1 = 1
      · rw [if_pos h1, drop_drop] at hread
        rw [if_pos ⟨hc, h1⟩]
        exact hread
      · rw [if_neg h1] at hread
        rw [if_neg fun h => h1 h.2]
        exact ⟨_, hread⟩
    · rw [if_neg hc] at hread
      rw [if_neg fun h => hc h.1]
      exact ⟨_, hread⟩

/-- **A one-parameter receiver succeeds exactly on the layout of its reply**, within its buffer. -/
theorem ReadsOne.ok_iff {C : LenCode UInt8} {cmd : UInt8} {x : BufM E ℕ} (hx : ReadsOne C cmd x)
    {n : ℕ} {out out' : Buf} {st st' : Bytes} :
    reads x out st = (.done (.ok n, out'), st') ↔
      ∃ payload, OneParam C cmd payload st st' ∧ payload.length ≤ out.length ∧
        n = payload.length ∧ out' = payload ++ out.drop payload.length := by
  have hread := hx out st
  constructor
  · intro h
    generalize hh : hunt startTimeoutIters st = w at hread
    cases w with
    | refused rest => exact absurd (h.symm.trans hread) nofun
    | silent rest => exact absurd (h.symm.trans hread) nofun
    | found rest =>
      dsimp only at hread
      split at hread
      · rename_i hhdr
        rw [h] at hread
        obtain ⟨hn, hle, payload, hlen, hbody, rfl⟩ := readPayload_ok_iff.mp hread.symm
        have hbound : payload.length < C.bound := hlen ▸ C.dec_lt _ (length_take _ _)
        have hrest := (header_iff (C := C) hbound).mpr ⟨hhdr, hlen.symm, hbody⟩
        refine ⟨payload, ⟨hbound, ?_⟩, hlen ▸ hle, hlen ▸ hn, by rw [hlen]⟩
        rw [field_stream, ← hrest]
        exact hunt_eq_found_iff.mp hh
      · obtain ⟨st'', hst⟩ := hread
        exact absurd (h.symm.trans hst) nofun
  · rintro ⟨payload, ⟨hbound, hann⟩, hle, rfl, rfl⟩
    rw [field_stream] at hann
    obtain ⟨hhdr, hdec, hbody⟩ := (header_iff (C := C) hbound).mp rfl
    rw [hunt_eq_found_iff.mpr hann] at hread
    dsimp only at hread
    rw [if_pos hhdr, hdec, hbody] at hread
    rw [hread]
    exact readPayload_ok_iff.mpr ⟨rfl, hle, payload, rfl, rfl, rfl⟩

/-- It always has a result. -/
theorem ReadsOne.done {C : LenCode UInt8} {cmd : UInt8} {x : BufM E ℕ} (hx : ReadsOne C cmd x)
    (out : Buf) (st : Bytes) : ∃ r st', reads x out st = (.done r, st') := by
  have hread := hx out st
  generalize hunt startTimeoutIters st = w at hread
  cases w with
  | refused rest => exact ⟨_, _, hread⟩
  | silent rest => exact ⟨_, _, hread⟩
  | found rest =>
    dsimp only at hread
    split at hread
    · rw [readPayload] at hread
      split at hread
      · exact ⟨_, _, hread⟩
      · exact ⟨_, _, hread⟩
    · obtain ⟨st', hst⟩ := hread
      exact ⟨_, _, hst⟩

/-! ## Many parameters -/

/-- Any stream begins with `k` parameters, whatever was meant by it. -/
theorem exists_params (k : ℕ) (st : Bytes) :
    ∃ params : List (List UInt8), params.length = k ∧ (∀ p ∈ params, p.length < 256) ∧
      ∃ rest, st = encodeAll (params.map .short) ++ₛ rest := by
  induction k generalizing st with
  | zero => exact ⟨[], rfl, List.forall_mem_nil _, st, rfl⟩
  | succ k ih =>
    obtain ⟨params, hlen, hall, rest, hrest⟩ := ih (st.tail.drop st.head.toNat)
    have hp : (st.tail.take st.head.toNat).length = st.head.toNat := length_take _ _
    refine ⟨st.tail.take st.head.toNat :: params, by rw [List.length_cons, hlen],
      List.forall_mem_cons.mpr ⟨by rw [hp]; exact UInt8.toNat_lt _, hall⟩, rest, ?_⟩
    rw [List.map_cons, encodeAll_cons, encode_short, hp, UInt8.ofNat_toNat, append_append_stream,
      ← hrest, cons_append_stream, append_take_drop]
    exact (Stream'.eta st).symm

/-- One turn of the loop: a parameter goes where it fits, and otherwise ends the reply. -/
theorem reads_recvParams_succ (k : ℕ) {p : List UInt8} (hp : p.length < 256)
    (done room : List UInt8) (rest : Bytes) :
    reads (recvParams (E := E) (k + 1) done.length) (done ++ room)
        ((Param.short p).encode ++ₛ rest) =
      if (Param.short p).encode.length ≤ room.length then
        reads (recvParams k (done ++ (Param.short p).encode).length)
          (done ++ (Param.short p).encode ++ room.drop (Param.short p).encode.length) rest
      else (.done (.error .bufferTooSmall, done ++ room), p ++ₛ rest) := by
  have hlen : (UInt8.ofNat p.length).toNat = p.length := toNat_ofNat_of_lt hp
  have hbyte : ((UInt8.ofNat p.length :: (p ++ₛ rest)).take 1).headD 0 = UInt8.ofNat p.length := rfl
  have htail : (UInt8.ofNat p.length :: (p ++ₛ rest)).drop 1 = p ++ₛ rest := rfl
  have hroom : (done ++ room).length = done.length + room.length := List.length_append
  rw [encode_short, cons_append_stream, List.length_cons, recvParams, reads_bind, reads_transfer,
    andRead_ok, hbyte, htail, hlen, reads_bind, reads_len, andRead_ok, reads_bind, hroom]
  by_cases hfit : p.length + 1 ≤ room.length
  · have hset : done.length + 1 = (done ++ [UInt8.ofNat p.length]).length := by simp
    have hfill : p.length ≤ (room.drop 1).length := by
      rw [List.length_drop]
      omega
    have hend : done.length + 1 + p.length = (done ++ UInt8.ofNat p.length :: p).length := by
      rw [List.length_append, List.length_cons]
      omega
    rw [if_pos hfit, reads_failIf_neg (by omega), andRead_ok, reads_bind,
      reads_setIdx _ _ _ (by omega), andRead_ok, reads_bind, hset, reads_fillSlots _ _ _ _ hfill,
      andRead_ok, take_append_self, drop_append_stream, ← hset, hend, List.drop_drop,
      List.append_assoc done, List.singleton_append, Nat.add_comm 1]
  · rw [if_neg hfit, reads_failIf_pos (by omega), andRead_error]

/-- **The parameters of a reply are packed as they came**, as long as they fit. -/
theorem reads_recvParams_fit {params : List (List UInt8)} (hlt : ∀ p ∈ params, p.length < 256)
    (k : ℕ) (done room : List UInt8) (rest : Bytes)
    (hfit : (encodeAll (params.map .short)).length ≤ room.length) :
    reads (recvParams (E := E) (params.length + k) done.length) (done ++ room)
        (encodeAll (params.map .short) ++ₛ rest) =
      reads (recvParams k (done ++ encodeAll (params.map .short)).length)
        (done ++ encodeAll (params.map .short) ++
          room.drop (encodeAll (params.map .short)).length) rest := by
  induction params generalizing done room with
  | nil => simp
  | cons p params ih =>
    obtain ⟨hp, hps⟩ := List.forall_mem_cons.mp hlt
    rw [List.map_cons, encodeAll_cons, List.length_append] at hfit
    have hroom : (encodeAll (params.map .short)).length ≤
        (room.drop (Param.short p).encode.length).length := by
      rw [List.length_drop]
      omega
    rw [List.map_cons, encodeAll_cons, List.length_cons, Nat.succ_add, append_append_stream,
      reads_recvParams_succ _ hp, if_pos (by omega), ih hps _ _ hroom, List.append_assoc done,
      @List.length_append _ (Param.short p).encode, List.drop_drop]

/-- Where parameters do not fit, there is a first that does not. -/
theorem exists_overflow {params : List (List UInt8)} {room : ℕ}
    (h : room < (encodeAll (params.map .short)).length) :
    ∃ (earlier : List (List UInt8)) (p : List UInt8) (later : List (List UInt8)),
      params = earlier ++ p :: later ∧ (encodeAll (earlier.map .short)).length ≤ room ∧
      room < (encodeAll (earlier.map .short)).length + 1 + p.length := by
  induction params generalizing room with
  | nil => exact absurd h (Nat.not_lt_zero _)
  | cons p params ih =>
    rw [List.map_cons, encodeAll_cons, List.length_append, encode_short, List.length_cons] at h
    by_cases hp : room < 1 + p.length
    · exact ⟨[], p, params, rfl, Nat.zero_le _, by simpa using hp⟩
    · have hrest : room - (p.length + 1) < (encodeAll (params.map .short)).length := by omega
      obtain ⟨earlier, q, later, rfl, hle, hlt⟩ := ih hrest
      refine ⟨p :: earlier, q, later, rfl, ?_, ?_⟩
      all_goals
        rw [List.map_cons, encodeAll_cons, List.length_append, encode_short, List.length_cons]
        omega

/-! ## The packing receiver -/

section Into

variable {cmd count : UInt8} {params : List (List UInt8)} {rest : Bytes}

theorem recvCmdIntoInner_refused (cmd : UInt8) (out : Buf) (h : Refused st) :
    ∃ st', reads (recvCmdIntoInner (E := E) cmd) out st = (.done (.error .nina, out), st') := by
  obtain ⟨rest, hh⟩ := refused_iff.mp h
  have hread := reads_opened (E := E) out st cmd dummy_ne_startCmd 1 intoTail
  rw [hh] at hread
  exact ⟨rest, hread⟩

theorem recvCmdIntoInner_silent (cmd : UInt8) (out : Buf) (h : Silent st) :
    ∃ st', reads (recvCmdIntoInner (E := E) cmd) out st = (.done (.error .timeout, out), st') := by
  obtain ⟨rest, hh⟩ := silent_iff.mp h
  have hread := reads_opened (E := E) out st cmd dummy_ne_startCmd 1 intoTail
  rw [hh] at hread
  exact ⟨rest, hread⟩

theorem recvCmdIntoInner_stray (out : Buf) (hann : Announced st rest)
    (hcmd : rest.head ≠ cmd ||| replyFlag) :
    ∃ st', reads (recvCmdIntoInner (E := E) cmd) out st = (.done (.error .framing, out), st') := by
  have hread := reads_opened (E := E) out st cmd dummy_ne_startCmd 1 intoTail
  rw [hunt_eq_found_iff.mpr hann] at hread
  exact ⟨_, hread.trans (if_neg hcmd)⟩

/-- Where a packing receiver's header is its own, the rest of the stream decides. -/
theorem recvCmdIntoInner_opened (hann : Announced st ([cmd ||| replyFlag, count] ++ₛ rest)) :
    reads (recvCmdIntoInner (E := E) cmd) out st =
      andRead (fun written => do
        expectEnd
        return (count, written)) (reads (recvParams count.toNat 0) out rest) := by
  have hread := reads_opened (E := E) out st cmd dummy_ne_startCmd 1 intoTail
  rw [hunt_eq_found_iff.mpr hann] at hread
  rw [recvCmdIntoInner_eq, hread]
  exact (if_pos rfl).trans (reads_bind _ _ _ _)

/-- **Parameters that fit** are all packed, and the receiver then wants `endCmd`. -/
theorem recvCmdIntoInner_fit (hcount : count.toNat = params.length)
    (hlt : ∀ p ∈ params, p.length < 256)
    (hann : Announced st
      ([cmd ||| replyFlag, count] ++ₛ (encodeAll (params.map .short) ++ₛ rest)))
    (hfit : (encodeAll (params.map .short)).length ≤ out.length) :
    reads (recvCmdIntoInner (E := E) cmd) out st =
      (.done (if rest.head = endCmd then .ok (count, (encodeAll (params.map .short)).length)
          else .error .framing,
        encodeAll (params.map .short) ++ out.drop (encodeAll (params.map .short)).length),
        rest.tail) := by
  have hparams := reads_recvParams_fit (E := E) hlt 0 [] out rest hfit
  rw [List.nil_append, List.nil_append, List.length_nil, Nat.add_zero, ← hcount, recvParams,
    reads_pure] at hparams
  rw [recvCmdIntoInner_opened hann, hparams, andRead_ok, reads_bind, reads_expectEnd]
  by_cases hend : rest.head = endCmd
  · rw [if_pos hend, if_pos hend]
    rfl
  · rw [if_neg hend, if_neg hend]
    rfl

/-- **The first parameter that does not fit** ends the reply: what came before it is packed, and of
it only the length has been read. -/
theorem recvCmdIntoInner_overflow (h : Overflows cmd out.length params st rest) :
    reads (recvCmdIntoInner (E := E) cmd) out st =
      (.done (.error .bufferTooSmall,
        encodeAll (params.map .short) ++ out.drop (encodeAll (params.map .short)).length),
        rest) := by
  obtain ⟨count, len, hcount, hlt, hfit, hover, hann⟩ := h
  obtain ⟨k, hk⟩ := Nat.exists_eq_add_of_lt hcount
  have hparams := reads_recvParams_fit (E := E) hlt (k + 1) [] out (len :: rest) hfit
  have hbyte : (rest.take len.toNat).length = len.toNat := length_take _ _
  have hlen : (rest.take len.toNat).length < 256 := by
    rw [hbyte]
    exact len.toNat_lt
  have hrest : len :: rest =
      (Param.short (rest.take len.toNat)).encode ++ₛ rest.drop len.toNat := by
    rw [encode_short, hbyte, UInt8.ofNat_toNat, cons_append_stream, append_take_drop]
  rw [append_append_stream, append_append_stream] at hann
  rw [List.nil_append, List.nil_append, List.length_nil, ← Nat.add_assoc, ← hk, hrest,
    reads_recvParams_succ _ hlen, if_neg, append_take_drop] at hparams
  · rw [recvCmdIntoInner_opened hann]
    refine (congrArg (fun st => andRead _ (reads _ out (_ ++ₛ st))) hrest).trans ?_
    rw [hparams, andRead_error]
  · rw [List.length_drop, encode_short, List.length_cons, hbyte]
    omega

/-- Where the parameters of a reply do not fit, there is a first that does not. -/
theorem exists_overflows (hcount : params.length < 256) (hlt : ∀ p ∈ params, p.length < 256)
    (hann : Announced st ([cmd ||| replyFlag, UInt8.ofNat params.length] ++ₛ
      (encodeAll (params.map .short) ++ₛ rest))) {room : ℕ}
    (hover : room < (encodeAll (params.map .short)).length) :
    ∃ earlier rest', Overflows cmd room earlier st rest' := by
  obtain ⟨earlier, p, later, rfl, hle, hlt'⟩ := exists_overflow hover
  obtain ⟨hearlier, hp⟩ := List.forall_mem_append.mp hlt
  have hplt : p.length < 256 := hp p List.mem_cons_self
  refine ⟨earlier, p ++ₛ (encodeAll (later.map .short) ++ₛ rest),
    UInt8.ofNat (earlier ++ p :: later).length, UInt8.ofNat p.length, ?_, hearlier, hle, ?_, ?_⟩
  · rw [toNat_ofNat_of_lt hcount, List.length_append, List.length_cons]
    omega
  · rw [toNat_ofNat_of_lt hplt]
    exact hlt'
  · rw [append_append_stream, append_append_stream]
    rw [List.map_append, List.map_cons, encodeAll, List.flatMap_append, List.flatMap_cons,
      encode_short, append_append_stream, append_append_stream, cons_append_stream] at hann
    exact hann

/-- **Every stream** is refused, is silent, is announced for another opcode, or carries some count
of parameters. -/
theorem reply_cases (cmd : UInt8) (st : Bytes) :
    Refused st ∨ Silent st ∨ (∃ rest, Announced st rest ∧ rest.head ≠ cmd ||| replyFlag) ∨
      ∃ (params : List (List UInt8)) (rest : Bytes), params.length < 256 ∧
        (∀ p ∈ params, p.length < 256) ∧
        Announced st ([cmd ||| replyFlag, UInt8.ofNat params.length] ++ₛ
          (encodeAll (params.map .short) ++ₛ rest)) := by
  cases hh : hunt startTimeoutIters st with
  | refused rest => exact .inl (refused_iff.mpr ⟨rest, hh⟩)
  | silent rest => exact .inr (.inl (silent_iff.mpr ⟨rest, hh⟩))
  | found rest =>
    have hann := hunt_eq_found_iff.mp hh
    by_cases hc : rest.head = cmd ||| replyFlag
    · obtain ⟨params, hcount, hlt, rest', hrest⟩ := exists_params (rest.get 1).toNat (rest.drop 2)
      refine .inr (.inr (.inr ⟨params, rest', hcount ▸ UInt8.toNat_lt _, hlt, ?_⟩))
      have htwo : rest.take 2 = [cmd ||| replyFlag, UInt8.ofNat params.length] := by
        rw [hcount, UInt8.ofNat_toNat, ← hc]
        rfl
      rw [← htwo, ← hrest, append_take_drop]
      exact hann
    · exact .inr (.inr (.inl ⟨rest, hann, hc⟩))

end Into

/-- **The packing receiver succeeds exactly on the layout of its reply**, within its buffer. -/
theorem recvCmdIntoInner_ok_iff {cmd : UInt8} {r : UInt8 × ℕ} {out' : Buf} {st' : Bytes} :
    reads (recvCmdIntoInner (E := E) cmd) out st = (.done (.ok r, out'), st') ↔
      ∃ params, ManyParams cmd params st st' ∧
        (encodeAll (params.map .short)).length ≤ out.length ∧
        r = (UInt8.ofNat params.length, (encodeAll (params.map .short)).length) ∧
        out' = encodeAll (params.map .short) ++
          out.drop (encodeAll (params.map .short)).length := by
  constructor
  · intro h
    obtain href | hsil | ⟨rest, hann, hc⟩ | ⟨params, rest, hcount, hlt, hann⟩ := reply_cases cmd st
    · obtain ⟨st'', hread⟩ := recvCmdIntoInner_refused (E := E) cmd out href
      exact absurd (h.symm.trans hread) (by simp)
    · obtain ⟨st'', hread⟩ := recvCmdIntoInner_silent (E := E) cmd out hsil
      exact absurd (h.symm.trans hread) (by simp)
    · obtain ⟨st'', hread⟩ := recvCmdIntoInner_stray (E := E) out hann hc
      exact absurd (h.symm.trans hread) (by simp)
    have hn : (UInt8.ofNat params.length).toNat = params.length := toNat_ofNat_of_lt hcount
    by_cases hfit : (encodeAll (params.map .short)).length ≤ out.length
    · rw [recvCmdIntoInner_fit hn hlt hann hfit] at h
      obtain ⟨h₁, rfl⟩ := Prod.mk.inj h
      obtain ⟨h₂, rfl⟩ := Prod.mk.inj (Outcome.done.inj h₁)
      split at h₂
      · rename_i hend
        refine ⟨params, ⟨hcount, hlt, ?_⟩, hfit, (Except.ok.inj h₂).symm, rfl⟩
        rw [append_append_stream, append_append_stream, ← hend, append_stream_head_tail]
        exact hann
      · exact absurd h₂ (by simp)
    · obtain ⟨earlier, rest', hover⟩ := exists_overflows hcount hlt hann (Nat.lt_of_not_le hfit)
      exact absurd (h.symm.trans (recvCmdIntoInner_overflow hover)) (by simp)
  · rintro ⟨params, ⟨hcount, hlt, hann⟩, hfit, rfl, rfl⟩
    have hn : (UInt8.ofNat params.length).toNat = params.length := toNat_ofNat_of_lt hcount
    rw [append_append_stream, append_append_stream] at hann
    rw [recvCmdIntoInner_fit hn hlt hann hfit]
    rfl

/-- It always has a result. -/
theorem recvCmdIntoInner_done (cmd : UInt8) (out : Buf) (st : Bytes) :
    ∃ r st', reads (recvCmdIntoInner (E := E) cmd) out st = (.done r, st') := by
  obtain href | hsil | ⟨rest, hann, hc⟩ | ⟨params, rest, hcount, hlt, hann⟩ := reply_cases cmd st
  · exact ⟨_, recvCmdIntoInner_refused cmd out href⟩
  · exact ⟨_, recvCmdIntoInner_silent cmd out hsil⟩
  · exact ⟨_, recvCmdIntoInner_stray out hann hc⟩
  by_cases hfit : (encodeAll (params.map .short)).length ≤ out.length
  · exact ⟨_, _, recvCmdIntoInner_fit (toNat_ofNat_of_lt hcount) hlt hann hfit⟩
  · obtain ⟨earlier, rest', hover⟩ := exists_overflows hcount hlt hann (Nat.lt_of_not_le hfit)
    exact ⟨_, _, recvCmdIntoInner_overflow hover⟩

end EmbassyNina
