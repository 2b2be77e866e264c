import EmbassyNina.Driver.Framing
import EmbassyNina.Wire.Frame

/-!
# Exchange/Packing — `sendCmdMixed` fills its buffer

`sendCmdMixed` fills its 256-byte buffer by index.  Read in append form, with the buffer split at
the fill point, each check covers the stores that follow it (`run_packParam`) and the padding check
never fires (`run_packPadding`), so packing asks for nothing, never panics, and yields
`frame cmd params` or `BufferTooSmall` (`sendCmdMixed_run_eq`).
-/

namespace EmbassyNina

open Machinery Prog

variable {E : Type}

/-! ## A buffer split at its fill point -/

section Filling

variable (done rest : List UInt8)

theorem run_len : (BufM.len (E := E)).run (done ++ rest) =
    .ret (.ok (done.length + rest.length), done ++ rest) := by
  rw [← List.length_append]
  rfl

theorem run_setIdx (b : UInt8) (h : 1 ≤ rest.length) :
    (BufM.setIdx (E := E) done.length b).run (done ++ rest) =
      .ret (.ok (), (done ++ [b]) ++ rest.drop 1) := by
  obtain ⟨x, rest, rfl⟩ := List.exists_cons_of_length_pos h
  have hlt : done.length < (done ++ x :: rest).length := by simp
  have hset : (done ++ x :: rest).set done.length b = (done ++ [b]) ++ rest := by simp
  change (if done.length < (done ++ x :: rest).length then _ else panicked) = _
  rw [if_pos hlt, hset]
  rfl

theorem run_copyFromSlice (data : List UInt8) (h : data.length ≤ rest.length) :
    (BufM.copyFromSlice (E := E) done.length data).run (done ++ rest) =
      .ret (.ok (), (done ++ data) ++ rest.drop data.length) := by
  have hle : done.length + data.length ≤ (done ++ rest).length := by simpa using h
  change (if done.length + data.length ≤ (done ++ rest).length then _ else panicked) = _
  rw [if_pos hle, List.take_left, ← List.drop_drop, List.drop_left]

theorem run_failIf_neg {c : Prop} [Decidable c] (h : ¬ c) (e : Error E) (out : Buf) :
    (BufM.failIf c e).run out = .ret (.ok (), out) := by
  rw [BufM.failIf, Nina.failIf, if_neg h]
  rfl

theorem run_failIf_pos {c : Prop} [Decidable c] (h : c) (e : Error E) (out : Buf) :
    (BufM.failIf c e).run out = .ret (.error e, out) := by
  rw [BufM.failIf, Nina.failIf, if_pos h]
  rfl

end Filling

/-- The packing of one parameter, at the fill point. -/
def packParam (p : Param) (n : ℕ) : BufM E Unit :=
  match p with
  | .short data => do
    BufM.setIdx n (UInt8.ofNat data.length)
    BufM.copyFromSlice (n + 1) data
  | .long data => do
    BufM.copyFromSlice n (beBytes data.length)
    BufM.copyFromSlice (n + 2) data

/-- The loop over the parameters, the same check for both kinds. -/
theorem packParams_cons (p : Param) (params : List Param) (n : ℕ) :
    packParams (E := E) (p :: params) n = (do
      BufM.failIf (n + p.code.width + p.data.length > (← BufM.len)) .bufferTooSmall
      packParam p n
      packParams params (n + p.code.width + p.data.length)) := by
  cases p with
  | short data => simp only [packParams, packParam, LawfulMonad.bind_assoc]; rfl
  | long data => simp only [packParams, packParam, LawfulMonad.bind_assoc]; rfl

/-- The check on a parameter covers the stores that follow it. -/
theorem run_packParam (p : Param) (done rest : List UInt8)
    (h : p.encode.length ≤ rest.length) :
    (packParam (E := E) p done.length).run (done ++ rest) =
      .ret (.ok (), (done ++ p.encode) ++ rest.drop p.encode.length) := by
  cases p with
  | short data =>
    rw [encode_short, List.length_cons] at h
    have hlen : done.length + 1 = (done ++ [UInt8.ofNat data.length]).length := by simp
    rw [packParam, BufM.run_bind, run_setIdx _ _ _ (by omega), ret_bind, BufM.onOk, hlen,
      run_copyFromSlice _ _ _ (by rw [List.length_drop]; omega), encode_short, List.length_cons,
      List.drop_drop, Nat.add_comm 1, List.append_assoc done, List.singleton_append]
  | long data =>
    rw [encode_long, List.length_append] at h
    have hbe : (beBytes data.length).length = 2 := rfl
    have hlen : done.length + 2 = (done ++ beBytes data.length).length := by simp [hbe]
    rw [packParam, BufM.run_bind, run_copyFromSlice _ _ _ (by omega), ret_bind, BufM.onOk, hlen,
      run_copyFromSlice _ _ _ (by rw [List.length_drop]; omega), encode_long, List.length_append,
      List.drop_drop, List.append_assoc done]

/-- **Packing parameters** appends their encodings, or is refused when they do not fit. -/
theorem run_packParams (params : List Param) (done rest : List UInt8) :
    if (encodeAll params).length ≤ rest.length then
      (packParams (E := E) params done.length).run (done ++ rest) =
        .ret (.ok (done ++ encodeAll params).length,
          (done ++ encodeAll params) ++ rest.drop (encodeAll params).length)
    else ∃ out, (packParams (E := E) params done.length).run (done ++ rest) =
      .ret (.error .bufferTooSmall, out) := by
  induction params generalizing done rest with
  | nil => simp [packParams]
  | cons p params ih =>
    have henc : p.encode.length = p.code.width + p.data.length := p.length_encode
    have hbind : ∀ out, (packParams (E := E) (p :: params) done.length).run out = _ := fun out => by
      rw [packParams_cons, BufM.run_bind]
    rw [encodeAll_cons, List.length_append, hbind, run_len, ret_bind, BufM.onOk, BufM.run_bind]
    by_cases hp : p.encode.length ≤ rest.length
    · have hlen : done.length + p.code.width + p.data.length = (done ++ p.encode).length := by
        rw [List.length_append]
        omega
      have hfit : ¬ done.length + p.code.width + p.data.length > done.length + rest.length := by
        omega
      rw [run_failIf_neg hfit, ret_bind, BufM.onOk, BufM.run_bind, run_packParam p _ _ hp, ret_bind,
        BufM.onOk, hlen]
      have := ih (done ++ p.encode) (rest.drop p.encode.length)
      rw [List.length_drop] at this
      by_cases hall : p.encode.length + (encodeAll params).length ≤ rest.length
      · rw [if_pos (by omega), List.append_assoc done p.encode (encodeAll params),
          List.drop_drop] at this
        rw [if_pos hall, this]
      · rw [if_neg (by omega)] at this
        rw [if_neg hall]
        exact this
    · have hfit : done.length + p.code.width + p.data.length > done.length + rest.length := by
        omega
      rw [if_neg (by omega), run_failIf_pos hfit]
      exact ⟨_, rfl⟩

/-- The padding check never fires in a buffer whose size is a multiple of four. -/
theorem run_packPadding (k : ℕ) (done rest : List UInt8) (hk : padCount done.length < k)
    (h4 : 4 ∣ (done ++ rest).length) :
    (packPadding (E := E) k done.length).run (done ++ rest) =
      .ret (.ok (done ++ padding done.length).length,
        (done ++ padding done.length) ++ rest.drop (padCount done.length)) := by
  induction k generalizing done rest with
  | zero => exact absurd hk (Nat.not_lt_zero _)
  | succ k ih =>
    rw [packPadding]
    by_cases h : done.length % 4 = 0
    · rw [if_pos h, padding_eq_nil h, padCount_eq_zero h, List.append_nil, List.drop_zero]
      rfl
    · rw [List.length_append] at h4
      have hlen : done.length + 1 = (done ++ [dummy]).length := by simp
      have hrest : 1 ≤ rest.length := by omega
      have hcount := padCount_succ h
      have hdvd : 4 ∣ ((done ++ [dummy]) ++ rest.drop 1).length := by
        rw [List.length_append, List.length_drop, ← hlen]
        omega
      rw [if_neg h, BufM.run_bind, run_len, ret_bind, BufM.onOk, BufM.run_bind,
        run_failIf_neg (by omega), ret_bind, BufM.onOk, BufM.run_bind, run_setIdx _ _ _ hrest,
        ret_bind, BufM.onOk, hlen, ih _ _ (by rw [← hlen]; omega) hdvd, padding_succ h, hcount,
        ← hlen, List.drop_drop, Nat.add_comm 1, List.append_assoc done, List.singleton_append]

/-! ## Packing a whole frame -/

/-- The end of the packing, past the parameters. -/
def packTail (n : ℕ) : BufM E ℕ := do
  BufM.failIf (n + 1 > (← BufM.len)) .bufferTooSmall
  BufM.setIdx n endCmd
  packPadding 4 (n + 1)

/-- The three header stores are in range. -/
theorem run_packMixed_header (cmd : UInt8) (params : List Param) {buf : Buf}
    (h : 3 ≤ buf.length) :
    (packMixed (E := E) cmd params).run buf =
      ((packParams params 3).run
        ([startCmd, cmd &&& ~~~replyFlag, UInt8.ofNat params.length] ++ buf.drop 3)).bind
        (BufM.onOk packTail) := by
  have h0 := run_setIdx (E := E) [] buf startCmd (by omega)
  have h1 := run_setIdx (E := E) [startCmd] (buf.drop 1) (cmd &&& ~~~replyFlag)
    (by rw [List.length_drop]; omega)
  have h2 := run_setIdx (E := E) [startCmd, cmd &&& ~~~replyFlag] ((buf.drop 1).drop 1)
    (UInt8.ofNat params.length) (by rw [List.length_drop, List.length_drop]; omega)
  unfold packMixed
  rw [BufM.run_bind]
  refine (congrArg (Prog.bind · _) h0).trans ?_
  rw [ret_bind, BufM.onOk, BufM.run_bind]
  refine (congrArg (Prog.bind · _) h1).trans ?_
  rw [ret_bind, BufM.onOk, BufM.run_bind]
  refine (congrArg (Prog.bind · _) h2).trans ?_
  rw [ret_bind, BufM.onOk, BufM.run_bind, List.drop_drop, List.drop_drop]
  rfl

theorem run_packTail (done rest : List UInt8) (h : 1 ≤ rest.length)
    (h4 : 4 ∣ (done ++ rest).length) :
    ∃ rest', (packTail (E := E) done.length).run (done ++ rest) =
      .ret (.ok (done ++ [endCmd] ++ padding (done.length + 1)).length,
        done ++ [endCmd] ++ padding (done.length + 1) ++ rest') := by
  have hlen : done.length + 1 = (done ++ [endCmd]).length := by simp
  have hdvd : 4 ∣ ((done ++ [endCmd]) ++ rest.drop 1).length := by
    rw [List.length_append] at h4
    rw [List.length_append, List.length_drop, ← hlen]
    omega
  have hpad := run_packPadding (E := E) 4 (done ++ [endCmd]) (rest.drop 1)
    (Nat.lt_succ_of_le (padCount_le _)) hdvd
  refine ⟨(rest.drop 1).drop (padCount (done ++ [endCmd]).length), ?_⟩
  rw [packTail, BufM.run_bind, run_len, ret_bind, BufM.onOk, BufM.run_bind,
    run_failIf_neg (by omega), ret_bind, BufM.onOk, BufM.run_bind, run_setIdx _ _ _ h, ret_bind,
    BufM.onOk, hlen]
  exact hpad

/-- **Packing yields the frame, or is refused**, exactly by the frame's length. -/
theorem run_packMixed (cmd : UInt8) (params : List Param) (buf : Buf) (h : 4 ≤ buf.length)
    (h4 : 4 ∣ buf.length) :
    if frameLength params ≤ buf.length then
      ∃ rest, (packMixed (E := E) cmd params).run buf =
        .ret (.ok (frame cmd params).length, frame cmd params ++ rest)
    else ∃ out, (packMixed (E := E) cmd params).run buf = .ret (.error .bufferTooSmall, out) := by
  let header := [startCmd, cmd &&& ~~~replyFlag, UInt8.ofNat params.length]
  have hheader : header.length = 3 := rfl
  have hrest : (buf.drop 3).length = buf.length - 3 := List.length_drop
  have hparams := run_packParams (E := E) params header (buf.drop 3)
  rw [run_packMixed_header cmd params (by omega)]
  split at hparams
  · rename_i hall
    have hdone : (header ++ encodeAll params).length = 3 + (encodeAll params).length := by
      rw [List.length_append, hheader]
    rw [hheader] at hparams
    rw [hparams, ret_bind, BufM.onOk]
    have hleft : ((buf.drop 3).drop (encodeAll params).length).length =
        buf.length - 3 - (encodeAll params).length := by rw [List.length_drop, hrest]
    by_cases hfit : frameLength params ≤ buf.length
    · rw [if_pos hfit]
      rw [frameLength] at hfit
      have htail := run_packTail (E := E) (header ++ encodeAll params)
        ((buf.drop 3).drop (encodeAll params).length) (by omega)
        (by rw [List.length_append, hdone, hleft]; omega)
      have hn : (header ++ encodeAll params).length + 1 = frameLength params := by
        rw [hdone, frameLength]
        omega
      rw [hn] at htail
      exact htail
    · rw [if_neg hfit]
      rw [frameLength] at hfit
      refine ⟨header ++ encodeAll params ++ (buf.drop 3).drop (encodeAll params).length, ?_⟩
      rw [packTail, BufM.run_bind, run_len, ret_bind, BufM.onOk, BufM.run_bind,
        run_failIf_pos (by omega)]
      rfl
  · rename_i hall
    have hfit : ¬ frameLength params ≤ buf.length := by
      rw [frameLength]
      omega
    obtain ⟨out, hout⟩ := hparams
    rw [hheader] at hout
    rw [if_neg hfit, hout]
    exact ⟨out, rfl⟩

/-! ## The mixed sender -/

/-- **`sendCmdMixed` is refused before its first call, or writes its frame in one piece.** -/
theorem sendCmdMixed_run_eq (cmd : UInt8) (params : List Param) :
    (sendCmdMixed (E := E) cmd params).run =
      if frameLength params ≤ 256 then selected .error (Nina.write (frame cmd params)).run
      else .ret (.error .bufferTooSmall) := by
  have hbuf : (List.replicate 256 (0 : UInt8)).length = 256 := List.length_replicate
  have hpack := run_packMixed (E := E) cmd params (List.replicate 256 0)
    (by rw [hbuf]; omega) (by rw [hbuf]; omega)
  rw [hbuf] at hpack
  rw [sendCmdMixed_run]
  split at hpack
  · rename_i hfit
    obtain ⟨rest, hrun⟩ := hpack
    have hbufRun : (withBuf (E := E) 256 (packMixed cmd params)).run =
        .ret (.ok ((frame cmd params).length, frame cmd params ++ rest)) := by
      change ((packMixed cmd params).run (List.replicate 256 0)).bind _ = _
      rw [hrun]
      rfl
    have hslice : (Nina.sliceTo (E := E) (frame cmd params ++ rest) (frame cmd params).length >>=
        fun bytes => Nina.write bytes).run = (Nina.write (frame cmd params)).run := by
      have hle : (frame cmd params).length ≤ (frame cmd params ++ rest).length :=
        (List.prefix_append _ _).length_le
      rw [run_bind_eq, Nina.sliceTo, ExceptT.run_mk, if_pos hle, ret_bind, onOk, List.take_left]
    rw [if_pos hfit, hbufRun, ret_bind, onOk, hslice]
    rfl
  · rename_i hfit
    obtain ⟨out, hrun⟩ := hpack
    have hbufRun : (withBuf (E := E) 256 (packMixed cmd params)).run =
        .ret (.error .bufferTooSmall) := by
      change ((packMixed cmd params).run (List.replicate 256 0)).bind _ = _
      rw [hrun]
      rfl
    rw [if_neg hfit, hbufRun, ret_bind, onOk]

end EmbassyNina
