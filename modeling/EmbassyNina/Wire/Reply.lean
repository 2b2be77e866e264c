import EmbassyNina.Wire.Frame
import Mathlib.Data.Stream.Init

/-!
# Wire/Reply — the layout of a reply

What the chip clocks back is an endless stream of bytes.  A reply in it is announced by `startCmd`,
after fewer than a thousand bytes that are neither `startCmd` nor `errCmd`; then come the opcode
with `replyFlag` set, a count, that many parameters and `endCmd`.

`hunt` looks for the announcement the way the receivers do, and `hunt_eq_found` says that it finds
it exactly where the layout has it.
-/

namespace EmbassyNina

open Machinery Stream'

/-- What the chip clocks back. -/
abbrev Bytes := Stream' UInt8

theorem take_append_self (l : List UInt8) (st : Bytes) : (l ++ₛ st).take l.length = l :=
  append_left_injective _ _ ((l ++ₛ st).drop l.length) st (append_take_drop _ _) (length_take _ _)

/-! ## The announcement -/

/-- How a hunt for `startCmd` ends, and what is left of the stream. -/
inductive Hunt
  | found (rest : Bytes)
  | refused (rest : Bytes)
  | silent (rest : Bytes)

/-- Looks at up to `n` bytes. -/
def hunt : ℕ → Bytes → Hunt
  | 0, st => .silent st
  | n + 1, st =>
    if st.head = startCmd then .found st.tail
    else if st.head = errCmd then .refused st.tail
    else hunt n st.tail

/-- Neither `startCmd` nor `errCmd`. -/
def Junk (l : List UInt8) : Prop := ∀ b ∈ l, b ≠ startCmd ∧ b ≠ errCmd

/-- Junk is passed over. -/
theorem hunt_append {junk : List UInt8} (hjunk : Junk junk) (n : ℕ) (st : Bytes) :
    hunt (junk.length + n) (junk ++ₛ st) = hunt n st := by
  induction junk with
  | nil => rw [List.length_nil, Nat.zero_add, nil_append_stream]
  | cons b junk ih =>
    obtain ⟨⟨hs, he⟩, hjunk⟩ := List.forall_mem_cons.mp hjunk
    rw [List.length_cons, Nat.succ_add, cons_append_stream, hunt, head_cons, tail_cons, if_neg hs,
      if_neg he, ih hjunk]

/-- **What ends a hunt** is the first byte that is no junk, or the end of its patience. -/
theorem hunt_cases (n : ℕ) (st : Bytes) :
    (∃ junk b rest, junk.length < n ∧ Junk junk ∧ (b = startCmd ∨ b = errCmd) ∧
      st = junk ++ₛ (b :: rest)) ∨ Junk (st.take n) := by
  induction n generalizing st with
  | zero => exact .inr (List.forall_mem_nil _)
  | succ n ih =>
    have heta : st = [] ++ₛ (st.head :: st.tail) := (Stream'.eta st).symm
    by_cases hb : st.head = startCmd ∨ st.head = errCmd
    · exact .inl ⟨[], st.head, st.tail, Nat.succ_pos n, List.forall_mem_nil _, hb, heta⟩
    obtain ⟨hs, he⟩ := not_or.mp hb
    obtain ⟨junk, b, rest, hlen, hjunk, hend, htail⟩ | hjunk := ih st.tail
    · refine .inl ⟨st.head :: junk, b, rest, Nat.succ_lt_succ hlen,
        List.forall_mem_cons.mpr ⟨⟨hs, he⟩, hjunk⟩, hend, ?_⟩
      rw [cons_append_stream, ← htail]
      exact heta
    · exact .inr (List.forall_mem_cons.mpr ⟨⟨hs, he⟩, hjunk⟩)

section Ends

variable {n : ℕ} {junk : List UInt8} {st rest : Bytes}

theorem hunt_startCmd (hlen : junk.length < n) (hjunk : Junk junk) (rest : Bytes) :
    hunt n (junk ++ₛ (startCmd :: rest)) = .found rest := by
  obtain ⟨k, rfl⟩ := Nat.exists_eq_add_of_lt hlen
  rw [Nat.add_assoc, hunt_append hjunk]
  exact if_pos rfl

theorem hunt_errCmd (hlen : junk.length < n) (hjunk : Junk junk) (rest : Bytes) :
    hunt n (junk ++ₛ (errCmd :: rest)) = .refused rest := by
  obtain ⟨k, rfl⟩ := Nat.exists_eq_add_of_lt hlen
  rw [Nat.add_assoc, hunt_append hjunk]
  exact (if_neg (by decide : errCmd ≠ startCmd)).trans (if_pos rfl)

theorem hunt_junk (hjunk : Junk (st.take n)) : hunt n st = .silent (st.drop n) := by
  have happ := hunt_append hjunk 0 (st.drop n)
  rw [append_take_drop, length_take] at happ
  exact happ

/-- **The hunt finds `startCmd`** exactly where only junk comes before it. -/
theorem hunt_eq_found :
    hunt n st = .found rest ↔
      ∃ junk, junk.length < n ∧ Junk junk ∧ st = junk ++ₛ (startCmd :: rest) := by
  constructor
  · intro h
    obtain ⟨junk, b, rest', hlen, hjunk, rfl | rfl, rfl⟩ | hjunk := hunt_cases n st
    · rw [hunt_startCmd hlen hjunk] at h
      obtain rfl := Hunt.found.inj h
      exact ⟨junk, hlen, hjunk, rfl⟩
    · rw [hunt_errCmd hlen hjunk] at h
      exact absurd h (by simp)
    · rw [hunt_junk hjunk] at h
      exact absurd h (by simp)
  · rintro ⟨junk, hlen, hjunk, rfl⟩
    exact hunt_startCmd hlen hjunk rest

/-- **It is refused** exactly where `errCmd` comes before any `startCmd`. -/
theorem hunt_eq_refused :
    hunt n st = .refused rest ↔
      ∃ junk, junk.length < n ∧ Junk junk ∧ st = junk ++ₛ (errCmd :: rest) := by
  constructor
  · intro h
    obtain ⟨junk, b, rest', hlen, hjunk, rfl | rfl, rfl⟩ | hjunk := hunt_cases n st
    · rw [hunt_startCmd hlen hjunk] at h
      exact absurd h (by simp)
    · rw [hunt_errCmd hlen hjunk] at h
      obtain rfl := Hunt.refused.inj h
      exact ⟨junk, hlen, hjunk, rfl⟩
    · rw [hunt_junk hjunk] at h
      exact absurd h (by simp)
  · rintro ⟨junk, hlen, hjunk, rfl⟩
    exact hunt_errCmd hlen hjunk rest

/-- **It gives up** exactly where neither comes in time. -/
theorem hunt_eq_silent : hunt n st = .silent rest ↔ Junk (st.take n) ∧ rest = st.drop n := by
  constructor
  · intro h
    obtain ⟨junk, b, rest', hlen, hjunk, rfl | rfl, rfl⟩ | hjunk := hunt_cases n st
    · rw [hunt_startCmd hlen hjunk] at h
      exact absurd h (by simp)
    · rw [hunt_errCmd hlen hjunk] at h
      exact absurd h (by simp)
    · rw [hunt_junk hjunk] at h
      exact ⟨hjunk, (Hunt.silent.inj h).symm⟩
  · rintro ⟨hjunk, rfl⟩
    exact hunt_junk hjunk

end Ends

/-- `rest` is announced in `st`. -/
def Announced (st rest : Bytes) : Prop :=
  ∃ junk, junk.length < startTimeoutIters ∧ Junk junk ∧ st = junk ++ₛ (startCmd :: rest)

theorem hunt_eq_found_iff {st rest : Bytes} :
    hunt startTimeoutIters st = .found rest ↔ Announced st rest := hunt_eq_found

/-- The chip answers `st` with an error: `errCmd` comes before any `startCmd`. -/
def Refused (st : Bytes) : Prop :=
  ∃ junk rest, junk.length < startTimeoutIters ∧ Junk junk ∧ st = junk ++ₛ (errCmd :: rest)

/-- Nothing is announced in `st` in time. -/
def Silent (st : Bytes) : Prop := Junk (st.take startTimeoutIters)

theorem refused_iff {st : Bytes} :
    Refused st ↔ ∃ rest, hunt startTimeoutIters st = .refused rest := by
  simp only [Refused, hunt_eq_refused]
  exact exists_comm

theorem silent_iff {st : Bytes} :
    Silent st ↔ ∃ rest, hunt startTimeoutIters st = .silent rest := by
  simp only [Silent, hunt_eq_silent, exists_and_left, exists_eq, and_true]

/-! ## Replies -/

/-- `st` holds a reply to `cmd` of the one parameter `payload`, its length under the code `C`. -/
def OneParam (C : LenCode UInt8) (cmd : UInt8) (payload : List UInt8) (st rest : Bytes) : Prop :=
  payload.length < C.bound ∧
    Announced st ([cmd ||| replyFlag, 1] ++ C.field payload ++ [endCmd] ++ₛ rest)

/-- `st` holds a reply to `cmd` of the parameters `params`, each behind its 8-bit length. -/
def ManyParams (cmd : UInt8) (params : List (List UInt8)) (st rest : Bytes) : Prop :=
  params.length < 256 ∧ (∀ p ∈ params, p.length < 256) ∧
    Announced st ([cmd ||| replyFlag, UInt8.ofNat params.length] ++ encodeAll (params.map .short) ++
      [endCmd] ++ₛ rest)

/-- `st` holds a reply to `cmd` whose parameters `earlier` fit in `room` bytes, each behind its
length, and the one after them does not; `rest` begins with that one's bytes. -/
def Overflows (cmd : UInt8) (room : ℕ) (earlier : List (List UInt8)) (st rest : Bytes) : Prop :=
  ∃ count len : UInt8, earlier.length < count.toNat ∧ (∀ p ∈ earlier, p.length < 256) ∧
    (encodeAll (earlier.map .short)).length ≤ room ∧
    room < (encodeAll (earlier.map .short)).length + 1 + len.toNat ∧
    Announced st
      ([cmd ||| replyFlag, count] ++ encodeAll (earlier.map .short) ++ [len] ++ₛ rest)

/-- What is clocked in when there is no reply. -/
def silence : Bytes := Stream'.const dummy

/-- A reply of one parameter, with nothing before or after it. -/
def oneParam (C : LenCode UInt8) (cmd : UInt8) (payload : List UInt8) : Bytes :=
  startCmd :: ([cmd ||| replyFlag, 1] ++ C.field payload ++ [endCmd] ++ₛ silence)

theorem oneParam_spec {C : LenCode UInt8} {payload : List UInt8} (h : payload.length < C.bound)
    (cmd : UInt8) : OneParam C cmd payload (oneParam C cmd payload) silence :=
  ⟨h, [], by decide, List.forall_mem_nil _, rfl⟩

/-- A reply of several parameters, likewise. -/
def manyParams (cmd : UInt8) (params : List (List UInt8)) : Bytes :=
  (startCmd :: ([cmd ||| replyFlag, UInt8.ofNat params.length] ++ encodeAll (params.map .short) ++
    [endCmd]) : List UInt8) ++ₛ silence

theorem manyParams_spec {params : List (List UInt8)} (hcount : params.length < 256)
    (hlt : ∀ p ∈ params, p.length < 256) (cmd : UInt8) :
    ManyParams cmd params (manyParams cmd params) silence :=
  ⟨hcount, hlt, [], by decide, List.forall_mem_nil _, rfl⟩

/-! ## Reading a reply back -/

/-- The header of a reply, read off a stream. -/
theorem header_iff {C : LenCode UInt8} {cmd : UInt8} {len : ℕ} (hlen : len < C.bound)
    {rest body : Bytes} :
    rest = [cmd ||| replyFlag, 1] ++ C.enc len ++ₛ body ↔
      (rest.head = cmd ||| replyFlag ∧ rest.get 1 = 1) ∧
        C.dec ((rest.drop 2).take C.width) = len ∧ rest.drop (2 + C.width) = body := by
  constructor
  · rintro rfl
    have hdrop : ([cmd ||| replyFlag, 1] ++ C.enc len ++ₛ body).drop 2 = C.enc len ++ₛ body := rfl
    have hw : C.width = (C.enc len).length := (C.length_enc len).symm
    refine ⟨⟨rfl, rfl⟩, ?_, ?_⟩
    · rw [hdrop, hw, take_append_self, C.dec_enc _ hlen]
    · rw [← drop_drop, hdrop, hw, drop_append_stream]
  · rintro ⟨⟨h0, h1⟩, hdec, rfl⟩
    have henc := C.enc_dec ((rest.drop 2).take C.width) (length_take _ _)
    have htake : rest.take 2 = [cmd ||| replyFlag, 1] := by rw [← h0, ← h1]; rfl
    rw [← hdec, henc, append_append_stream, ← drop_drop, append_take_drop, ← htake,
      append_take_drop]

theorem field_stream (C : LenCode UInt8) (hdr payload : List UInt8) (st : Bytes) :
    hdr ++ C.field payload ++ [endCmd] ++ₛ st =
      hdr ++ C.enc payload.length ++ₛ (payload ++ [endCmd] ++ₛ st) := by
  simp only [LenCode.field, append_append_stream]

/-- Reads a reply to `cmd` of one parameter of at most `room` bytes. -/
def readOne (C : LenCode UInt8) (cmd : UInt8) (room : ℕ) (st : Bytes) : Option (List UInt8) :=
  match hunt startTimeoutIters st with
  | .found rest =>
    let len := C.dec ((rest.drop 2).take C.width)
    let body := rest.drop (2 + C.width)
    if (rest.head = cmd ||| replyFlag ∧ rest.get 1 = 1) ∧ len ≤ room ∧ (body.drop len).head = endCmd
    then some (body.take len) else none
  | _ => none

/-- **What is read is the layout of a reply.** -/
theorem readOne_eq_some {C : LenCode UInt8} {cmd : UInt8} {room : ℕ} {st : Bytes}
    {payload : List UInt8} :
    readOne C cmd room st = some payload ↔
      payload.length ≤ room ∧ ∃ rest, OneParam C cmd payload st rest := by
  constructor
  · intro h
    rw [readOne] at h
    split at h
    · rename_i rest hh
      dsimp only at h
      split at h
      · rename_i hok
        obtain ⟨hhdr, hle, hend⟩ := hok
        obtain rfl := Option.some.inj h
        have hlen : ((rest.drop (2 + C.width)).take (C.dec ((rest.drop 2).take C.width))).length =
            C.dec ((rest.drop 2).take C.width) := length_take _ _
        have hbound : ((rest.drop (2 + C.width)).take (C.dec ((rest.drop 2).take C.width))).length <
            C.bound := by
          rw [hlen]
          exact C.dec_lt _ (length_take _ _)
        have hrest := (header_iff hbound).mpr ⟨hhdr, hlen.symm, rfl⟩
        refine ⟨by rw [hlen]; exact hle,
          ((rest.drop (2 + C.width)).drop (C.dec ((rest.drop 2).take C.width))).tail, hbound, ?_⟩
        rw [field_stream, append_append_stream _ [endCmd], ← hend, append_stream_head_tail,
          append_take_drop, ← hrest]
        exact hunt_eq_found_iff.mp hh
      · exact absurd h nofun
    · exact absurd h nofun
  · rintro ⟨hle, rest, hbound, hann⟩
    rw [field_stream] at hann
    obtain ⟨hhdr, hdec, hbody⟩ := (header_iff (C := C) hbound).mp rfl
    rw [readOne, hunt_eq_found_iff.mpr hann]
    dsimp only
    have hend : ((payload ++ [endCmd] ++ₛ rest).drop payload.length).head = endCmd := by
      rw [append_append_stream, drop_append_stream]
      rfl
    rw [hdec, hbody, if_pos ⟨hhdr, hle, hend⟩, append_append_stream, take_append_self]

end EmbassyNina
