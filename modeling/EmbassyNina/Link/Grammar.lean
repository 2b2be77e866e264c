import EmbassyNina.Link.Reader

/-!
# Link/Grammar — the receivers accept exactly their grammar

Each receiver is followed from what the stream holds to what it returns, one lemma per kind of
stream.  Every stream is of one of these kinds, and so a receiver's result tells which: success is
the layout of a reply, `Nina` is `errCmd` before any `startCmd`, `Timeout` is neither in time,
`BufferTooSmall` is a reply of the right header that does not fit, and the rest is `Framing`.

The two one-parameter receivers share the proof through `ReadsOne`; on a reply of one parameter the
packing receiver does what they do, on a buffer longer by the byte of the length.
-/

namespace EmbassyNina

open Machinery Prog Stream'

variable {E : Type} {α : Type} {out : Buf} {st : Bytes}

/-- Opening the window changes nothing about what is read. -/
theorem reads_received (inner : BufM E α) (out : Buf) (st : Bytes) :
    reads (received inner) out st = reads inner out st := by
  have hwindow : reads (received inner) out st =
      Outcome.andThen (fun r st => (.done r, st)) (reads inner out st) := by
    rw [reads, received_run]
    exact (reader E).exec_bind (inner.run out)
      (fun res => (hal .csSetHigh).bind fun _ => .ret res) st
  rw [hwindow]
  rcases reads inner out st with ⟨r | h, st'⟩ <;> rfl

/-- One stream is read in one way. -/
theorem reads_inj {x : BufM E α} {r r' : Except (Error E) α} {out₁ out₂ : Buf} {st₁ st₂ : Bytes}
    (h : reads x out st = (.done (r, out₁), st₁)) (h' : reads x out st = (.done (r', out₂), st₂)) :
    r = r' ∧ out₁ = out₂ ∧ st₁ = st₂ := by
  obtain ⟨hdone, hst⟩ := Prod.mk.inj (h.symm.trans h')
  obtain ⟨hr, hout⟩ := Prod.mk.inj (Outcome.done.inj hdone)
  exact ⟨hr, hout, hst⟩

/-- What a result tells of the stream, where `small` is what a reply that does not fit leaves. -/
def Tells (st : Bytes) (small : Prop) (r : Except (Error E) α) : Prop :=
  (r = .error .nina ∧ Refused st) ∨ (r = .error .timeout ∧ Silent st) ∨ r = .error .framing ∨
    (r = .error .bufferTooSmall ∧ small) ∨ ∃ a, r = .ok a

namespace Tells

variable {small : Prop}

theorem refused (h : Tells (E := E) (α := α) st small (.error .nina)) : Refused st := by
  simpa [Tells] using h

theorem silent (h : Tells (E := E) (α := α) st small (.error .timeout)) : Silent st := by
  simpa [Tells] using h

theorem small_of (h : Tells (E := E) (α := α) st small (.error .bufferTooSmall)) : small := by
  simpa [Tells] using h

/-- There are four errors. -/
theorem error_cases {e : Error E} (h : Tells (α := α) st small (.error e)) :
    e = .nina ∨ e = .timeout ∨ e = .bufferTooSmall ∨ e = .framing := by
  obtain ⟨h, -⟩ | ⟨h, -⟩ | h | ⟨h, -⟩ | ⟨a, h⟩ := h
  · exact .inl (Except.error.inj h)
  · exact .inr (.inl (Except.error.inj h))
  · exact .inr (.inr (.inr (Except.error.inj h)))
  · exact .inr (.inr (.inl (Except.error.inj h)))
  · exact absurd h (by simp)

end Tells

/-! ## One parameter -/

/-- The two receivers of one parameter. -/
inductive OneReceiver
  | recvCmdOneParam
  | recvCmdOneParam16
deriving DecidableEq, Repr

namespace OneReceiver

/-- How the length of the parameter is written. -/
def code : OneReceiver → LenCode UInt8
  | .recvCmdOneParam => len8
  | .recvCmdOneParam16 => len16

def prog (cmd : UInt8) : OneReceiver → BufM E ℕ
  | .recvCmdOneParam => EmbassyNina.recvCmdOneParam cmd
  | .recvCmdOneParam16 => EmbassyNina.recvCmdOneParam16 cmd

end OneReceiver

/-- `st` holds the header of a reply to `cmd` of one parameter of more than `room` bytes. -/
def TooLong (C : LenCode UInt8) (cmd : UInt8) (room : ℕ) (st : Bytes) : Prop :=
  ∃ len rest, room < len ∧ len < C.bound ∧
    Announced st ([cmd ||| replyFlag, 1] ++ C.enc len ++ₛ rest)

namespace ReadsOne

variable {C : LenCode UInt8} {cmd : UInt8} {x : BufM E ℕ} (hx : ReadsOne C cmd x)
include hx

theorem of_refused (out : Buf) (h : Refused st) :
    ∃ st', reads x out st = (.done (.error .nina, out), st') := by
  obtain ⟨rest, hh⟩ := refused_iff.mp h
  have hread := hx out st
  rw [hh] at hread
  exact ⟨rest, hread⟩

theorem of_silent (out : Buf) (h : Silent st) :
    ∃ st', reads x out st = (.done (.error .timeout, out), st') := by
  obtain ⟨rest, hh⟩ := silent_iff.mp h
  have hread := hx out st
  rw [hh] at hread
  exact ⟨rest, hread⟩

/-- A reply to another command, or of another count. -/
theorem of_stray (out : Buf) {rest : Bytes} (hann : Announced st rest)
    (hhdr : ¬ (rest.head = cmd ||| replyFlag ∧ rest.get 1 = 1)) :
    ∃ st', reads x out st = (.done (.error .framing, out), st') := by
  have hread := hx out st
  rw [hunt_eq_found_iff.mpr hann] at hread
  dsimp only at hread
  rw [if_neg hhdr] at hread
  exact hread

/-- Past its own header the length decides. -/
theorem of_header (out : Buf) {len : ℕ} {body : Bytes} (hlen : len < C.bound)
    (hann : Announced st ([cmd ||| replyFlag, 1] ++ C.enc len ++ₛ body)) :
    reads x out st = readPayload len out body := by
  obtain ⟨hhdr, hdec, hbody⟩ := (header_iff hlen).mp rfl
  have hread := hx out st
  rw [hunt_eq_found_iff.mpr hann] at hread
  dsimp only at hread
  rw [if_pos hhdr, hdec, hbody] at hread
  exact hread

omit hx in
/-- **Every stream** is refused, is silent, is announced for something else, or carries a length. -/
theorem stream_cases (C : LenCode UInt8) (cmd : UInt8) (st : Bytes) :
    Refused st ∨ Silent st ∨
      (∃ rest, Announced st rest ∧ ¬ (rest.head = cmd ||| replyFlag ∧ rest.get 1 = 1)) ∨
      ∃ len body, len < C.bound ∧ Announced st ([cmd ||| replyFlag, 1] ++ C.enc len ++ₛ body) := by
  cases hh : hunt startTimeoutIters st with
  | refused rest => exact .inl (refused_iff.mpr ⟨rest, hh⟩)
  | silent rest => exact .inr (.inl (silent_iff.mpr ⟨rest, hh⟩))
  | found rest =>
    have hann := hunt_eq_found_iff.mp hh
    by_cases hhdr : rest.head = cmd ||| replyFlag ∧ rest.get 1 = 1
    · have hlen : C.dec ((rest.drop 2).take C.width) < C.bound := C.dec_lt _ (length_take _ _)
      refine .inr (.inr (.inr ⟨_, rest.drop (2 + C.width), hlen, ?_⟩))
      rw [← (header_iff hlen).mpr ⟨hhdr, rfl, rfl⟩]
      exact hann
    · exact .inr (.inr (.inl ⟨rest, hann, hhdr⟩))

theorem of_tooLong (h : TooLong C cmd out.length st) :
    ∃ st', reads x out st = (.done (.error .bufferTooSmall, out), st') := by
  obtain ⟨len, rest, hroom, hlen, hann⟩ := h
  exact ⟨rest, (hx.of_header out hlen hann).trans (if_neg (Nat.not_le.mpr hroom))⟩

/-- **A result tells what the stream held.** -/
theorem tells {r : Except (Error E) ℕ} {out' : Buf} {st' : Bytes}
    (hread : reads x out st = (.done (r, out'), st')) :
    Tells st (out' = out ∧ TooLong C cmd out.length st) r := by
  obtain h | h | ⟨rest, hann, hhdr⟩ | ⟨len, body, hlen, hann⟩ := stream_cases C cmd st
  · obtain ⟨st'', hread'⟩ := hx.of_refused out h
    exact .inl ⟨(reads_inj hread hread').1, h⟩
  · obtain ⟨st'', hread'⟩ := hx.of_silent out h
    exact .inr (.inl ⟨(reads_inj hread hread').1, h⟩)
  · obtain ⟨st'', hread'⟩ := hx.of_stray out hann hhdr
    exact .inr (.inr (.inl (reads_inj hread hread').1))
  by_cases hroom : len ≤ out.length
  · have hread' := hx.of_header out hlen hann
    rw [readPayload, if_pos hroom] at hread'
    obtain ⟨rfl, -, -⟩ := reads_inj hread hread'
    by_cases hend : (body.drop len).head = endCmd
    · exact .inr (.inr (.inr (.inr ⟨len, if_pos hend⟩)))
    · exact .inr (.inr (.inl (if_neg hend)))
  · have hlong : TooLong C cmd out.length st := ⟨len, body, Nat.lt_of_not_le hroom, hlen, hann⟩
    obtain ⟨st'', hread'⟩ := hx.of_tooLong hlong
    obtain ⟨hr, hout, -⟩ := reads_inj hread hread'
    exact .inr (.inr (.inr (.inl ⟨hr, hout, hlong⟩)))

end ReadsOne

theorem OneReceiver.readsOne (R : OneReceiver) (cmd : UInt8) :
    ReadsOne R.code cmd (R.prog (E := E) cmd) := by
  intro out st
  rcases R with _ | _
  · have hread := readsOne_recvCmdOneParamInner (E := E) cmd out st
    rw [← reads_received] at hread
    exact hread
  · have hread := readsOne_recvCmdOneParam16Inner (E := E) cmd out st
    rw [← reads_received] at hread
    exact hread

/-- **The single-parameter receivers accept exactly their grammar.**  Whatever the stream, they
return; they succeed where it begins with a reply of one parameter that fits, and then the payload
is at the front of the buffer, the rest of the buffer is as it was, and the reply is all that has
been consumed; and each error has its own kind of stream. -/
theorem OneReceiver.accepts (R : OneReceiver) (cmd : UInt8) (out : Buf) (st : Bytes) :
    ∃ r out' st', reads (R.prog (E := E) cmd) out st = (.done (r, out'), st') ∧
      (∀ n, r = .ok n ↔ ∃ payload rest, OneParam R.code cmd payload st rest ∧
        payload.length = n ∧ n ≤ out.length) ∧
      (∀ n, r = .ok n → ∃ payload, OneParam R.code cmd payload st st' ∧ payload.length = n ∧
        out' = payload ++ out.drop n) ∧
      (r = .error .nina ↔ Refused st) ∧
      (r = .error .timeout ↔ Silent st) ∧
      (r = .error .bufferTooSmall ↔ TooLong R.code cmd out.length st) ∧
      (r = .error .bufferTooSmall → out' = out) ∧
      ∀ e, r = .error e → e = .nina ∨ e = .timeout ∨ e = .bufferTooSmall ∨ e = .framing := by
  have hx := R.readsOne (E := E) cmd
  obtain ⟨⟨r, out'⟩, st', hread⟩ := hx.done out st
  have htells := hx.tells hread
  have hlong : r = .error .bufferTooSmall → out' = out ∧ TooLong R.code cmd out.length st := by
    rintro rfl
    exact htells.small_of
  refine ⟨r, out', st', hread, fun n => ⟨?_, ?_⟩, ?_, ⟨?_, ?_⟩, ⟨?_, ?_⟩, ⟨?_, ?_⟩, ?_, ?_⟩
  · rintro rfl
    obtain ⟨payload, hone, hle, rfl, -⟩ := hx.ok_iff.mp hread
    exact ⟨payload, st', hone, rfl, hle⟩
  · rintro ⟨payload, rest, hone, rfl, hle⟩
    exact (reads_inj hread (hx.ok_iff.mpr ⟨payload, hone, hle, rfl, rfl⟩)).1
  · rintro n rfl
    obtain ⟨payload, hone, hle, rfl, hout⟩ := hx.ok_iff.mp hread
    exact ⟨payload, hone, rfl, hout⟩
  · rintro rfl
    exact htells.refused
  · intro h
    obtain ⟨st'', hread'⟩ := hx.of_refused out h
    exact (reads_inj hread hread').1
  · rintro rfl
    exact htells.silent
  · intro h
    obtain ⟨st'', hread'⟩ := hx.of_silent out h
    exact (reads_inj hread hread').1
  · exact fun h => (hlong h).2
  · intro h
    obtain ⟨st'', hread'⟩ := hx.of_tooLong h
    exact (reads_inj hread hread').1
  · exact fun h => (hlong h).1
  · rintro e rfl
    exact htells.error_cases

/-! ## Many parameters -/

section Into

variable {cmd : UInt8}

/-- A packed list is as long as its parameters and their lengths. -/
theorem length_packed (params : List (List UInt8)) :
    (encodeAll (params.map .short)).length = (params.map fun p => 1 + p.length).sum := by
  rw [length_encodeAll, List.map_map]
  rfl

/-- **Packed parameters are read back**: no two lists pack alike. -/
theorem encodeAll_short_inj {params params' : List (List UInt8)}
    (hlt : ∀ p ∈ params, p.length < 256) (hlt' : ∀ p ∈ params', p.length < 256)
    (h : encodeAll (params'.map .short) = encodeAll (params.map .short)) : params' = params := by
  induction params generalizing params' with
  | nil =>
    rcases params' with _ | ⟨p', params'⟩
    · rfl
    · exact absurd h (List.cons_ne_nil _ _)
  | cons p params ih =>
    rcases params' with _ | ⟨p', params'⟩
    · exact absurd h.symm (List.cons_ne_nil _ _)
    obtain ⟨hp, hps⟩ := List.forall_mem_cons.mp hlt
    obtain ⟨hp', hps'⟩ := List.forall_mem_cons.mp hlt'
    rw [List.map_cons, List.map_cons, encodeAll_cons, encodeAll_cons, encode_short, encode_short,
      List.cons_append, List.cons_append] at h
    obtain ⟨hlen, hrest⟩ := List.cons.inj h
    have hlen' : p'.length = p.length := by
      rw [← toNat_ofNat_of_lt hp', hlen, toNat_ofNat_of_lt hp]
    obtain ⟨rfl, htail⟩ := List.append_inj hrest hlen'
    rw [ih hps hps' htail]

/-- A stream is laid out as one list of parameters at most. -/
theorem ManyParams.unique {cmd : UInt8} {params params' : List (List UInt8)}
    {st rest rest' : Bytes} (h : ManyParams cmd params st rest)
    (h' : ManyParams cmd params' st rest') : params' = params := by
  obtain ⟨room, hroom, hroom'⟩ : ∃ room : Buf,
      (encodeAll (params.map .short)).length ≤ room.length ∧
        (encodeAll (params'.map .short)).length ≤ room.length :=
    ⟨encodeAll (params.map .short) ++ encodeAll (params'.map .short), by simp, by simp⟩
  have hread := (recvCmdIntoInner_ok_iff (E := Unit)).mpr ⟨params, h, hroom, rfl, rfl⟩
  have hread' := (recvCmdIntoInner_ok_iff (E := Unit)).mpr ⟨params', h', hroom', rfl, rfl⟩
  obtain ⟨hr, hout, -⟩ := reads_inj hread' hread
  have hlen := (Prod.mk.inj (Except.ok.inj hr)).2
  exact encodeAll_short_inj h.2.1 h'.2.1 (List.append_inj hout hlen).1

/-- **A result tells what the stream held.** -/
theorem recvCmdIntoInner_tells {r : Except (Error E) (UInt8 × ℕ)} {out' : Buf} {st' : Bytes}
    (hread : reads (recvCmdIntoInner cmd) out st = (.done (r, out'), st')) :
    Tells st (∃ earlier rest, Overflows cmd out.length earlier st rest) r := by
  obtain h | h | ⟨rest, hann, hc⟩ | ⟨params, rest, hcount, hlt, hann⟩ := reply_cases cmd st
  · obtain ⟨st'', hread'⟩ := recvCmdIntoInner_refused (E := E) cmd out h
    exact .inl ⟨(reads_inj hread hread').1, h⟩
  · obtain ⟨st'', hread'⟩ := recvCmdIntoInner_silent (E := E) cmd out h
    exact .inr (.inl ⟨(reads_inj hread hread').1, h⟩)
  · obtain ⟨st'', hread'⟩ := recvCmdIntoInner_stray (E := E) out hann hc
    exact .inr (.inr (.inl (reads_inj hread hread').1))
  by_cases hfit : (encodeAll (params.map .short)).length ≤ out.length
  · have hread' := recvCmdIntoInner_fit (E := E) (toNat_ofNat_of_lt hcount) hlt hann hfit
    obtain ⟨rfl, -, -⟩ := reads_inj hread hread'
    by_cases hend : rest.head = endCmd
    · exact .inr (.inr (.inr (.inr ⟨_, if_pos hend⟩)))
    · exact .inr (.inr (.inl (if_neg hend)))
  · obtain ⟨earlier, rest', hover⟩ := exists_overflows hcount hlt hann (Nat.lt_of_not_le hfit)
    exact .inr (.inr (.inr (.inl ⟨(reads_inj hread (recvCmdIntoInner_overflow hover)).1, earlier,
      rest', hover⟩)))

theorem encodeAll_single (p : List UInt8) :
    encodeAll ([p].map .short) = len8.enc p.length ++ p := by
  rw [List.map_cons, List.map_nil, encodeAll_cons, encodeAll_nil, List.append_nil]
  rfl

theorem length_single (p : List UInt8) : (encodeAll ([p].map .short)).length = p.length + 1 := by
  rw [encodeAll_single, List.length_append, len8.length_enc]
  exact Nat.add_comm 1 _

/-- One parameter comes behind the header that the other receivers read. -/
theorem announced_single {p : List UInt8} {rest : Bytes}
    (h : Announced st ([cmd ||| replyFlag, UInt8.ofNat [p].length] ++ₛ
      (encodeAll ([p].map .short) ++ₛ rest))) :
    Announced st ([cmd ||| replyFlag, 1] ++ len8.enc p.length ++ₛ (p ++ₛ rest)) := by
  rw [append_append_stream, ← append_append_stream (len8.enc _), ← encodeAll_single]
  exact h

/-- **On one parameter** the two receivers agree, the packing one on a buffer longer by the byte of
the length… -/
theorem recvCmdInto_single {x : BufM E ℕ} (hx : ReadsOne len8 cmd x) {one : Buf}
    (hroom : one.length + 1 = out.length) {p : List UInt8} {rest : Bytes} (hp : p.length < 256)
    (hann : Announced st ([cmd ||| replyFlag, UInt8.ofNat [p].length] ++ₛ
      (encodeAll ([p].map .short) ++ₛ rest))) :
    ∃ r one' st₁ out' st₂, reads x one st = (.done (r, one'), st₁) ∧
      reads (recvCmdIntoInner (E := E) cmd) out st =
        (.done (r.map fun len => (1, len + 1), out'), st₂) ∧
      ∀ len, r = .ok len → (out'.take (len + 1)).drop 1 = one'.take len := by
  have h₁ := hx.of_header one hp (announced_single hann)
  have hlt : ∀ q ∈ [p], q.length < 256 := List.forall_mem_singleton.mpr hp
  have hcount : [p].length < 256 := by simp
  by_cases hfit : (encodeAll ([p].map .short)).length ≤ out.length
  · have h₂ := recvCmdIntoInner_fit (E := E) (toNat_ofNat_of_lt hcount) hlt hann hfit
    rw [length_single] at hfit
    rw [readPayload, if_pos (by omega), take_append_self, drop_append_stream] at h₁
    rw [length_single] at h₂
    have hmap : (if rest.head = endCmd then .ok (UInt8.ofNat [p].length, p.length + 1)
        else .error .framing : Except (Error E) (UInt8 × ℕ)) =
        (if rest.head = endCmd then .ok p.length else .error .framing : Except (Error E) ℕ).map
          fun len => (1, len + 1) := by
      split
      · rfl
      · rfl
    rw [hmap] at h₂
    refine ⟨_, _, _, _, _, h₁, h₂, fun len hlen => ?_⟩
    split at hlen
    · obtain rfl := Except.ok.inj hlen
      rw [List.take_left, List.take_left' (length_single p), encodeAll_single]
      exact List.drop_left' (len8.length_enc _)
    · exact absurd hlen (by simp)
  · obtain ⟨earlier, rest', hover⟩ := exists_overflows hcount hlt hann (Nat.lt_of_not_le hfit)
    rw [length_single] at hfit
    rw [readPayload, if_neg (by omega)] at h₁
    exact ⟨.error .bufferTooSmall, _, _, _, _, h₁, recvCmdIntoInner_overflow hover, by simp⟩

/-- …and so on a reply that counts one. -/
theorem recvCmdInto_one {one : Buf} (hroom : one.length + 1 = out.length)
    (hone : ∀ rest, Announced st ((cmd ||| replyFlag) :: rest) → rest.head = 1) :
    ∃ r one' st₁ out' st₂, reads (recvCmdOneParam (E := E) cmd) one st = (.done (r, one'), st₁) ∧
      reads (recvCmdInto (E := E) cmd) out st =
        (.done (r.map fun len => (1, len + 1), out'), st₂) ∧
      ∀ len, r = .ok len → (out'.take (len + 1)).drop 1 = one'.take len := by
  have hx : ReadsOne len8 cmd (recvCmdOneParam (E := E) cmd) :=
    OneReceiver.recvCmdOneParam.readsOne cmd
  simp only [recvCmdInto, reads_received]
  obtain h | h | ⟨rest, hann, hc⟩ | ⟨params, rest, hcount, hlt, hann⟩ := reply_cases cmd st
  · obtain ⟨st₁, h₁⟩ := hx.of_refused one h
    obtain ⟨st₂, h₂⟩ := recvCmdIntoInner_refused (E := E) cmd out h
    exact ⟨_, _, _, _, _, h₁, h₂, by simp⟩
  · obtain ⟨st₁, h₁⟩ := hx.of_silent one h
    obtain ⟨st₂, h₂⟩ := recvCmdIntoInner_silent (E := E) cmd out h
    exact ⟨_, _, _, _, _, h₁, h₂, by simp⟩
  · obtain ⟨st₁, h₁⟩ := hx.of_stray one hann fun h => hc h.1
    obtain ⟨st₂, h₂⟩ := recvCmdIntoInner_stray (E := E) out hann hc
    exact ⟨_, _, _, _, _, h₁, h₂, by simp⟩
  have hcount1 : UInt8.ofNat params.length = 1 := hone _ hann
  obtain ⟨p, rfl⟩ : ∃ p, params = [p] := by
    rw [← List.length_eq_one_iff, ← toNat_ofNat_of_lt hcount, hcount1]
    rfl
  exact recvCmdInto_single hx hroom (hlt p List.mem_cons_self) hann

/-- **The packing receiver packs exactly the reply's parameters.**  Whatever the stream, it returns;
it succeeds where the stream begins with a reply whose packed parameters fit, and they can be read
back; and it reports a small buffer at the first parameter that does not fit, with the ones before
it packed. -/
theorem recvCmdInto_accepts (cmd : UInt8) (scratch : Buf) (st : Bytes) :
    ∃ r out' st', reads (recvCmdInto (E := E) cmd) scratch st = (.done (r, out'), st') ∧
      (∀ n written, r = .ok (n, written) ↔ ∃ params rest, ManyParams cmd params st rest ∧
        params.length = n.toNat ∧ (params.map fun p => 1 + p.length).sum = written ∧
        written ≤ scratch.length) ∧
      (∀ n written, r = .ok (n, written) → out'.drop written = scratch.drop written ∧
        ∃ params, ManyParams cmd params st st' ∧ params.length = n.toNat ∧
          out'.take written = encodeAll (params.map .short) ∧
          ∀ params', (∀ p ∈ params', p.length < 256) →
            encodeAll (params'.map .short) = out'.take written → params' = params) ∧
      (r = .error .bufferTooSmall ↔ ∃ earlier rest, Overflows cmd scratch.length earlier st rest) ∧
      (∀ earlier rest, Overflows cmd scratch.length earlier st rest → st' = rest ∧
        out' = encodeAll (earlier.map .short) ++
          scratch.drop (encodeAll (earlier.map .short)).length) ∧
      (r = .error .nina ↔ Refused st) ∧
      (r = .error .timeout ↔ Silent st) ∧
      (∀ e, r = .error e → e = .nina ∨ e = .timeout ∨ e = .bufferTooSmall ∨ e = .framing) ∧
      (∀ one : Buf, one.length + 1 = scratch.length →
        (∀ rest, Announced st ((cmd ||| replyFlag) :: rest) → rest.head = 1) →
        ∃ r₁ one' st₁, reads (recvCmdOneParam (E := E) cmd) one st = (.done (r₁, one'), st₁) ∧
          r = r₁.map (fun len => (1, len + 1)) ∧
          ∀ len, r₁ = .ok len → (out'.take (len + 1)).drop 1 = one'.take len) ∧
      ∀ tr q, Steps ((recvCmdInto (E := E) cmd).run scratch) tr q → q ≠ .halt .panic := by
  have hin : reads (recvCmdInto (E := E) cmd) scratch st =
      reads (recvCmdIntoInner cmd) scratch st := reads_received _ _ _
  obtain ⟨⟨r, out'⟩, st', hread⟩ := recvCmdIntoInner_done (E := E) cmd scratch st
  have htells := recvCmdIntoInner_tells hread
  have hover : ∀ earlier rest, Overflows cmd scratch.length earlier st rest →
      r = .error .bufferTooSmall ∧ out' = encodeAll (earlier.map .short) ++
        scratch.drop (encodeAll (earlier.map .short)).length ∧ st' = rest :=
    fun _ _ h => reads_inj hread (recvCmdIntoInner_overflow h)
  refine ⟨r, out', st', hin.trans hread, fun n written => ⟨?_, ?_⟩, ?_, ⟨?_, ?_⟩, ?_, ⟨?_, ?_⟩,
    ⟨?_, ?_⟩, ?_, ?_, ?_⟩
  · rintro rfl
    obtain ⟨params, hmany, hfit, hr, -⟩ := recvCmdIntoInner_ok_iff.mp hread
    obtain ⟨rfl, rfl⟩ := Prod.mk.inj hr
    exact ⟨params, st', hmany, (toNat_ofNat_of_lt hmany.1).symm, (length_packed params).symm, hfit⟩
  · rintro ⟨params, rest, hmany, hn, rfl, hfit⟩
    rw [← length_packed] at hfit ⊢
    have hread' := (recvCmdIntoInner_ok_iff (E := E)).mpr ⟨params, hmany, hfit, rfl, rfl⟩
    rw [(reads_inj hread hread').1, hn, UInt8.ofNat_toNat]
  · rintro n written rfl
    obtain ⟨params, hmany, hfit, hr, rfl⟩ := recvCmdIntoInner_ok_iff.mp hread
    obtain ⟨rfl, rfl⟩ := Prod.mk.inj hr
    rw [List.take_left, List.drop_left]
    exact ⟨rfl, params, hmany, (toNat_ofNat_of_lt hmany.1).symm, rfl,
      fun params' hlt' h => encodeAll_short_inj hmany.2.1 hlt' h⟩
  · rintro rfl
    exact htells.small_of
  · rintro ⟨earlier, rest, h⟩
    exact (hover earlier rest h).1
  · exact fun earlier rest h => ⟨(hover earlier rest h).2.2, (hover earlier rest h).2.1⟩
  · rintro rfl
    exact htells.refused
  · intro h
    obtain ⟨st'', hread'⟩ := recvCmdIntoInner_refused (E := E) cmd scratch h
    exact (reads_inj hread hread').1
  · rintro rfl
    exact htells.silent
  · intro h
    obtain ⟨st'', hread'⟩ := recvCmdIntoInner_silent (E := E) cmd scratch h
    exact (reads_inj hread hread').1
  · rintro e rfl
    exact htells.error_cases
  · intro one hroom hone
    obtain ⟨r₁, one', st₁, out'', st₂, h₁, h₂, hpayload⟩ := recvCmdInto_one (E := E) hroom hone
    obtain ⟨rfl, rfl, -⟩ := reads_inj (hin.trans hread) h₂
    exact ⟨r₁, one', st₁, h₁, rfl, hpayload⟩
  · rintro tr q hsteps rfl
    have hdoes := doesB_received (doesB_recvCmdIntoInner (E := E) (n := scratch.length) cmd)
    exact (by decide : Halt.panic ≠ Halt.fuel) (hsteps.does (hdoes scratch rfl))

end Into

end EmbassyNina
