import EmbassyNina.Machinery.Prefixed
import EmbassyNina.Wire.Proto
import Mathlib.Algebra.GroupWithZero.Nat

/-!
# Wire/Frame — the layout of a request

`frame cmd params` is the request the protocol documents: `startCmd`, opcode, count, the parameters
each behind its length, `endCmd`, and `0xFF` up to a multiple of four.  `readFrame` reads such a
request back, told how wide the length of each parameter is.

`readFrame_frame` is the round trip.  It needs the count and every length to fit their prefixes, as
they do in a frame of at most 256 bytes (`exactFrame_frame`); `fits_of_readFrame_short` says that
nothing less will do.
-/

namespace EmbassyNina

open Machinery

/-! ## The opcode byte -/

theorem and_not_replyFlag {cmd : UInt8} (h : cmd < 0x80) : cmd &&& ~~~replyFlag = cmd := by
  have key : ∀ b : BitVec 8, UInt8.ofBitVec b < 0x80 →
      UInt8.ofBitVec b &&& ~~~replyFlag = UInt8.ofBitVec b := by decide +kernel
  exact key cmd.toBitVec h

/-- The opcode a reply must carry, read off the request. -/
theorem and_not_or_replyFlag (cmd : UInt8) :
    cmd &&& ~~~replyFlag ||| replyFlag = cmd ||| replyFlag := by
  have key : ∀ b : BitVec 8, UInt8.ofBitVec b &&& ~~~replyFlag ||| replyFlag =
      UInt8.ofBitVec b ||| replyFlag := by decide +kernel
  exact key cmd.toBitVec

/-! ## Length prefixes -/

theorem toNat_ofNat_of_lt {n : ℕ} (h : n < 256) : (UInt8.ofNat n).toNat = n := by
  rw [UInt8.toNat_ofNat']
  exact Nat.mod_eq_of_lt h

theorem ofBeBytes_beBytes {n : ℕ} (h : n < 65536) :
    ofBeBytes (UInt8.ofNat (n / 256)) (UInt8.ofNat n) = n := by
  rw [ofBeBytes, UInt8.toNat_ofNat', UInt8.toNat_ofNat']
  omega

theorem beBytes_ofBeBytes (hi lo : UInt8) : beBytes (ofBeBytes hi lo) = [hi, lo] := by
  have hlo : lo.toNat < 256 := lo.toNat_lt
  have hhi : hi.toNat < 256 := hi.toNat_lt
  have h1 : UInt8.ofNat (ofBeBytes hi lo / 256) = hi := by
    rw [← UInt8.toNat_inj, UInt8.toNat_ofNat', ofBeBytes]
    omega
  have h2 : UInt8.ofNat (ofBeBytes hi lo) = lo := by
    rw [← UInt8.toNat_inj, UInt8.toNat_ofNat', ofBeBytes]
    omega
  rw [beBytes, h1, h2]

/-- An 8-bit length. -/
def len8 : LenCode UInt8 where
  bound := 256
  width := 1
  enc n := [UInt8.ofNat n]
  dec w := (w.getD 0 0).toNat
  length_enc _ := rfl
  dec_enc _ h := toNat_ofNat_of_lt h
  dec_lt _ _ := UInt8.toNat_lt _
  enc_dec w hw := by
    obtain ⟨b, rfl⟩ := List.length_eq_one_iff.mp hw
    exact congrArg (· :: []) (UInt8.ofNat_toNat)

/-- A 16-bit big-endian length. -/
def len16 : LenCode UInt8 where
  bound := 65536
  width := 2
  enc := beBytes
  dec w := ofBeBytes (w.getD 0 0) (w.getD 1 0)
  length_enc _ := rfl
  dec_enc _ h := ofBeBytes_beBytes h
  dec_lt w _ := by
    have hhi := (w.getD 0 0).toNat_lt
    have hlo := (w.getD 1 0).toNat_lt
    rw [ofBeBytes]
    omega
  enc_dec w hw := by
    obtain ⟨hi, lo, rfl⟩ := List.length_eq_two.mp hw
    exact beBytes_ofBeBytes hi lo

/-- How the length of a parameter is written. -/
def Param.code : Param → LenCode UInt8
  | .short _ => len8
  | .long _ => len16

def Param.data : Param → List UInt8
  | .short data | .long data => data

/-- A parameter behind its length. -/
def Param.encode (p : Param) : List UInt8 := p.code.field p.data

@[simp] theorem Param.code_short (data : List UInt8) : (Param.short data).code = len8 := rfl

@[simp] theorem Param.code_long (data : List UInt8) : (Param.long data).code = len16 := rfl

theorem encode_short (data : List UInt8) :
    (Param.short data).encode = UInt8.ofNat data.length :: data := rfl

theorem encode_long (data : List UInt8) :
    (Param.long data).encode = beBytes data.length ++ data := rfl

@[simp] theorem Param.length_encode (p : Param) :
    p.encode.length = p.code.width + p.data.length := p.code.length_field p.data

/-- The parameters of a request, one after the other. -/
def encodeAll (params : List Param) : List UInt8 := params.flatMap Param.encode

@[simp] theorem encodeAll_nil : encodeAll [] = [] := rfl

@[simp] theorem encodeAll_cons (p : Param) (params : List Param) :
    encodeAll (p :: params) = p.encode ++ encodeAll params := rfl

/-- Sum over the parameters of prefix width plus length. -/
theorem length_encodeAll (params : List Param) :
    (encodeAll params).length = (params.map fun p => p.code.width + p.data.length).sum := by
  rw [encodeAll, List.length_flatMap]
  simp only [Param.length_encode]

theorem encodeAll_eq_fields (params : List Param) :
    encodeAll params = LenCode.fields (params.map fun p => (p.code, p.data)) := by
  induction params with
  | nil => rfl
  | cons p params ih => rw [encodeAll_cons, ih, List.map_cons, LenCode.fields_cons, Param.encode]

/-! ## Frames -/

/-- How many bytes bring `n` to a multiple of four. -/
def padCount (n : ℕ) : ℕ := (4 - n % 4) % 4

theorem padCount_le (n : ℕ) : padCount n ≤ 3 := by
  rw [padCount]
  omega

theorem four_dvd_add_padCount (n : ℕ) : 4 ∣ n + padCount n := by
  rw [padCount]
  omega

theorem padCount_eq_zero {n : ℕ} (h : n % 4 = 0) : padCount n = 0 := by
  rw [padCount, h]

theorem padCount_succ {n : ℕ} (h : n % 4 ≠ 0) : padCount n = padCount (n + 1) + 1 := by
  rw [padCount, padCount]
  omega

/-- The bytes after `endCmd` of a request of `n` bytes. -/
def padding (n : ℕ) : List UInt8 := List.replicate (padCount n) dummy

theorem padding_eq_nil {n : ℕ} (h : n % 4 = 0) : padding n = [] := by
  rw [padding, padCount_eq_zero h, List.replicate_zero]

theorem padding_succ {n : ℕ} (h : n % 4 ≠ 0) : padding n = dummy :: padding (n + 1) := by
  rw [padding, padCount_succ h, List.replicate_succ, padding]

/-- The length of a request before its padding. -/
def frameLength (params : List Param) : ℕ := 4 + (encodeAll params).length

/-- **The documented layout of a request.** -/
def frame (cmd : UInt8) (params : List Param) : List UInt8 :=
  [startCmd, cmd &&& ~~~replyFlag, UInt8.ofNat params.length] ++ encodeAll params ++ [endCmd] ++
    padding (frameLength params)

theorem length_frame (cmd : UInt8) (params : List Param) :
    (frame cmd params).length = frameLength params + padCount (frameLength params) := by
  simp only [frame, frameLength, padding, List.length_append, List.length_cons, List.length_nil,
    List.length_replicate]
  omega

theorem four_dvd_length_frame (cmd : UInt8) (params : List Param) :
    4 ∣ (frame cmd params).length := by
  rw [length_frame]
  exact four_dvd_add_padCount _

/-- A request starts with `startCmd` and its opcode. -/
theorem frame_eq_cons (cmd : UInt8) (params : List Param) :
    ∃ more, frame cmd params = startCmd :: (cmd &&& ~~~replyFlag) :: more := ⟨_, rfl⟩

/-- The opcode byte of a request. -/
def opcode (request : List UInt8) : UInt8 := request.getD 1 0

theorem opcode_frame (cmd : UInt8) (params : List Param) :
    opcode (frame cmd params) = cmd &&& ~~~replyFlag := rfl

/-! ## Reading a request back -/

/-- A request as read: what is left of it after `endCmd` is its padding. -/
structure Request where
  op : UInt8
  params : List (List UInt8)
  pad : List UInt8
deriving DecidableEq, Repr

/-- Reads a request, given the codes of the lengths of a request of each count. -/
def readFrame (codes : ℕ → Option (List (LenCode UInt8))) : List UInt8 → Option Request
  | start :: op :: count :: bytes => do
    let codes ← if start = startCmd then codes count.toNat else none
    let (params, rest) ← LenCode.takeAll codes bytes
    match rest with
    | [] => none
    | e :: pad => if e = endCmd then some ⟨op, params, pad⟩ else none
  | _ => none

/-- Every length is 8 bits wide. -/
def allShort (count : ℕ) : Option (List (LenCode UInt8)) := some (List.replicate count len8)

/-- The lengths are as told, and there must be that many. -/
def asTold (codes : List (LenCode UInt8)) (count : ℕ) : Option (List (LenCode UInt8)) :=
  if count = codes.length then some codes else none

/-- **Round trip.**  A request whose count and lengths fit their prefixes is read back. -/
theorem readFrame_frame {codes : ℕ → Option (List (LenCode UInt8))} {params : List Param}
    (hcodes : codes params.length = some (params.map Param.code)) (hcount : params.length < 256)
    (hlen : ∀ p ∈ params, p.data.length < p.code.bound) (cmd : UInt8) :
    readFrame codes (frame cmd params) =
      some ⟨cmd &&& ~~~replyFlag, params.map Param.data, padding (frameLength params)⟩ := by
  have hfields : LenCode.takeAll (params.map Param.code)
      (encodeAll params ++ endCmd :: padding (frameLength params)) =
      some (params.map Param.data, endCmd :: padding (frameLength params)) := by
    have hfit : ∀ p ∈ params.map fun p => (p.code, p.data), p.2.length < p.1.bound := by
      simpa using hlen
    have h := LenCode.takeAll_fields hfit (endCmd :: padding (frameLength params))
    rwa [← encodeAll_eq_fields, List.map_map, List.map_map] at h
  have hbytes : encodeAll params ++ [endCmd] ++ padding (frameLength params) =
      encodeAll params ++ endCmd :: padding (frameLength params) := by
    rw [List.append_assoc, List.singleton_append]
  simp only [frame, List.cons_append, List.nil_append, readFrame, if_pos, hbytes,
    toNat_ofNat_of_lt hcount, hcodes, hfields, Option.bind_eq_bind, Option.bind_some]

/-- The case of two parameters behind 16-bit lengths. -/
theorem readFrame_long {a b : List UInt8} (ha : a.length < 65536) (hb : b.length < 65536)
    (cmd : UInt8) :
    readFrame (asTold [len16, len16]) (frame cmd [.long a, .long b]) =
      some ⟨cmd &&& ~~~replyFlag, [a, b], padding (frameLength [.long a, .long b])⟩ := by
  have hfit : ∀ p ∈ [Param.long a, Param.long b], p.data.length < p.code.bound :=
    List.forall_mem_cons.mpr ⟨ha, List.forall_mem_singleton.mpr hb⟩
  exact readFrame_frame rfl (by simp) hfit cmd

/-- What is read has the opcode and the count of the request, and lengths its codes can write. -/
theorem of_readFrame {codes : ℕ → Option (List (LenCode UInt8))} {request : List UInt8}
    {r : Request} (h : readFrame codes request = some r) :
    r.op = opcode request ∧ ∃ cs, codes (request.getD 2 0).toNat = some cs ∧
      r.params.length = cs.length ∧ ∀ p ∈ cs.zip r.params, p.2.length < p.1.bound := by
  rw [readFrame.eq_def] at h
  split at h
  · rename_i start op count bytes
    split at h
    · obtain ⟨cs, hcs, h⟩ := Option.bind_eq_some_iff.mp h
      obtain ⟨⟨ps, rest⟩, hps, h⟩ := Option.bind_eq_some_iff.mp h
      obtain ⟨hlen, hall, -⟩ := LenCode.takeAll_eq_some hps
      cases rest with
      | nil => exact absurd h nofun
      | cons e pad =>
        dsimp only at h
        split at h
        · obtain rfl := Option.some.inj h
          exact ⟨rfl, cs, hcs, hlen, hall⟩
        · exact absurd h nofun
    · exact absurd h nofun
  · exact absurd h nofun

/-- Short parameters are read back when their count and lengths fit a byte… -/
theorem readFrame_short {params : List (List UInt8)} (hcount : params.length < 256)
    (hlen : ∀ p ∈ params, p.length < 256) (cmd : UInt8) :
    readFrame allShort (frame cmd (params.map .short)) =
      some ⟨cmd &&& ~~~replyFlag, params, padding (frameLength (params.map .short))⟩ := by
  have hcodes : allShort (params.map Param.short).length =
      some ((params.map Param.short).map Param.code) := by
    simp [allShort, List.map_const', Function.comp_def]
  have hfit : ∀ p ∈ params.map Param.short, p.data.length < p.code.bound := by
    rw [List.forall_mem_map]
    exact hlen
  have hdata : (params.map Param.short).map Param.data = params := by
    simp [Function.comp_def, Param.data]
  have h := readFrame_frame hcodes (by rwa [List.length_map]) hfit cmd
  rwa [hdata] at h

/-- …and **only then**: a count or a length that was cut to a byte is never read back. -/
theorem fits_of_readFrame_short {cmd op : UInt8} {params : List (List UInt8)} {pad : List UInt8}
    (h : readFrame allShort (frame cmd (params.map .short)) = some ⟨op, params, pad⟩) :
    params.length < 256 ∧ ∀ p ∈ params, p.length < 256 := by
  obtain ⟨-, cs, hcs, hlen, hall⟩ := of_readFrame h
  obtain rfl := Option.some.inj hcs
  rw [List.length_replicate] at hlen
  dsimp only at hall hlen
  have hcount : params.length < 256 := hlen ▸ UInt8.toNat_lt _
  refine ⟨hcount, fun p hp => ?_⟩
  rw [← hlen] at hall
  obtain ⟨i, hi, rfl⟩ := List.mem_iff_getElem.mp hp
  have hz : ((List.replicate params.length len8).zip params).length = params.length := by simp
  have := hall _ (List.getElem_mem (hz ▸ hi))
  rwa [List.getElem_zip, List.getElem_replicate] at this

/-! ## Frames that fit a buffer -/

theorem Param.length_lt_encode (p : Param) : p.data.length < p.encode.length := by
  rw [length_encode]
  cases p with
  | short data => exact Nat.lt_add_of_pos_left Nat.one_pos
  | long data => exact Nat.lt_add_of_pos_left Nat.two_pos

/-- Every parameter takes at least the byte of its length… -/
theorem length_le_encodeAll (params : List Param) : params.length ≤ (encodeAll params).length := by
  induction params with
  | nil => exact Nat.le_refl 0
  | cons p params ih =>
    have := p.length_lt_encode
    rw [List.length_cons, encodeAll_cons, List.length_append]
    omega

/-- …and its own bytes. -/
theorem length_lt_encodeAll {p : Param} {params : List Param} (hp : p ∈ params) :
    p.data.length < (encodeAll params).length := by
  induction params with
  | nil => exact absurd hp (List.not_mem_nil)
  | cons q params ih =>
    rw [encodeAll_cons, List.length_append]
    rcases List.mem_cons.mp hp with rfl | hp
    · have := p.length_lt_encode
      omega
    · have := ih hp
      omega

theorem Param.two_fifty_six_le_bound (p : Param) : 256 ≤ p.code.bound := by
  cases p with
  | short data => exact Nat.le_refl _
  | long data => exact (by decide : 256 ≤ 65536)

/-- `bytes` says exactly `cmd` and `params`, in at most 256 bytes. -/
structure ExactFrame (cmd : UInt8) (params : List Param) (bytes : List UInt8) : Prop where
  length_le : bytes.length ≤ 256
  aligned : 4 ∣ bytes.length
  count_lt : params.length < 256
  length_lt : ∀ p ∈ params, p.data.length < p.code.bound
  decodes : ∃ pad, readFrame (asTold (params.map Param.code)) bytes =
    some ⟨cmd, params.map Param.data, pad⟩ ∧ pad.length ≤ 3 ∧ ∀ b ∈ pad, b = dummy

/-- **A frame that fits 256 bytes is exact**: its few short parameters lose nothing to the casts. -/
theorem exactFrame_frame {cmd : UInt8} (hcmd : cmd < 0x80) {params : List Param}
    (h : frameLength params ≤ 256) : ExactFrame cmd params (frame cmd params) := by
  have hall : (encodeAll params).length ≤ 252 := by
    rw [frameLength] at h
    omega
  have hcount : params.length < 256 := by
    have := length_le_encodeAll params
    omega
  have hlen : ∀ p ∈ params, p.data.length < p.code.bound := fun p hp => by
    have := length_lt_encodeAll hp
    have := p.two_fifty_six_le_bound
    omega
  have hcodes : asTold (params.map Param.code) params.length = some (params.map Param.code) :=
    if_pos (List.length_map _).symm
  have hread := readFrame_frame hcodes hcount hlen cmd
  rw [and_not_replyFlag hcmd] at hread
  have hpad := padCount_le (frameLength params)
  refine ⟨?_, four_dvd_length_frame cmd params, hcount, hlen, _, hread, ?_, ?_⟩
  · have := four_dvd_add_padCount (frameLength params)
    rw [length_frame]
    omega
  · rw [padding, List.length_replicate]
    exact hpad
  · exact fun b hb => List.eq_of_mem_replicate hb

end EmbassyNina
