import EmbassyNina.Driver.Framing

/-!
# Exchange/Receivers — what the receivers do in their windows

A receiver's body makes no call but transfers of `0xFF`, keeps its buffer's length, stores only in
range and returns a length the buffer holds, whatever is clocked in.  `DoesB P n Q x` says this of a
function on a buffer of `n` bytes, and is carried along `>>=` with what each check has established.
-/

namespace EmbassyNina

open Machinery Prog

variable {E : Type} {α β : Type}

/-- A result on a buffer of `n` bytes, a success satisfying `Q`. -/
def OnBuf (n : ℕ) (Q : α → Prop) (r : Except (Error E) α × Buf) : Prop :=
  r.2.length = n ∧ ∀ a, r.1 = .ok a → Q a

theorem onBuf_ok {n : ℕ} {Q : α → Prop} {a : α} {out : Buf} (hlen : out.length = n) (ha : Q a) :
    OnBuf (E := E) n Q (.ok a, out) := ⟨hlen, fun _ h => Except.ok.inj h ▸ ha⟩

theorem onBuf_error {n : ℕ} {Q : α → Prop} {e : Error E} {out : Buf} (hlen : out.length = n) :
    OnBuf n Q (.error e, out) := ⟨hlen, fun _ h => by cases h⟩

/-- **`x` on a buffer of `n` bytes**: its calls satisfy `P`, it never panics, it keeps the buffer's
length, and its result satisfies `Q`. -/
def DoesB (P : Hal → Prop) (n : ℕ) (Q : α → Prop) (x : BufM E α) : Prop :=
  ∀ out, out.length = n → (x.run out).Does (S := halSig E) P (OnBuf n Q)

variable {P : Hal → Prop} {n : ℕ} {Q : α → Prop} {R : β → Prop}

theorem DoesB.bind {x : BufM E α} {f : α → BufM E β} (hx : DoesB P n Q x)
    (hf : ∀ a, Q a → DoesB P n R (f a)) : DoesB P n R (x >>= f) := by
  intro out hout
  rw [BufM.run_bind]
  refine (hx out hout).bind ?_
  rintro ⟨r, out'⟩ ⟨hlen, hQ⟩
  cases r with
  | ok a => exact hf a (hQ a rfl) out' hlen
  | error e => exact onBuf_error hlen

theorem doesB_pure {a : α} (ha : Q a) : DoesB P n Q (pure a : BufM E α) :=
  fun _ hout => onBuf_ok hout ha

theorem doesB_failIf (c : Prop) [Decidable c] (e : Error E) :
    DoesB P n (fun _ => ¬ c) (BufM.failIf c e) := by
  intro out hout
  unfold BufM.failIf Nina.failIf
  split
  · exact onBuf_error hout
  · rename_i hc
    exact onBuf_ok hout hc

theorem doesB_len : DoesB P n (· = n) (BufM.len (E := E)) := fun _ hout => onBuf_ok hout hout

theorem doesB_setIdx {i : ℕ} (hi : i < n) (b : UInt8) :
    DoesB P n (fun _ => True) (BufM.setIdx (E := E) i b) := by
  intro out hout
  change (if i < out.length then _ else panicked : Prog (halSig E) _).Does _ _
  rw [if_pos (hout ▸ hi)]
  exact onBuf_ok (by rw [List.length_set, hout]) trivial

theorem doesB_getIdx {i : ℕ} (hi : i < n) :
    DoesB P n (fun _ => True) (BufM.getIdx (E := E) i) := by
  intro out hout
  change (if i < out.length then _ else panicked : Prog (halSig E) _).Does _ _
  rw [if_pos (hout ▸ hi)]
  exact onBuf_ok hout trivial

theorem doesB_sliceTo {i : ℕ} (hi : i ≤ n) :
    DoesB P n (fun s => s.length = i) (BufM.sliceTo (E := E) i) := by
  intro out hout
  have hle : i ≤ out.length := hout ▸ hi
  change (if i ≤ out.length then _ else panicked : Prog (halSig E) _).Does _ _
  rw [if_pos hle]
  exact onBuf_ok hout (List.length_take_of_le hle)

/-! ## The bodies of the receivers -/

/-- A transfer that clocks out nothing but `0xFF`. -/
def Hal.IsDummyTransfer : Hal → Prop
  | .busTransfer bytes => ∀ b ∈ bytes, b = dummy
  | _ => False

theorem doesB_transfer (k : ℕ) :
    DoesB Hal.IsDummyTransfer n (fun _ => True) (BufM.transfer (E := E) k) :=
  fun _ hout => ⟨fun _ hb => List.eq_of_mem_replicate hb, fun
    | .ok _ => onBuf_ok hout trivial
    | .error _ => onBuf_error hout⟩

theorem doesB_huntStart (k : ℕ) (byte : UInt8) :
    DoesB Hal.IsDummyTransfer n (fun _ => True) (huntStart (E := E) k byte) := by
  induction k generalizing byte with
  | zero => exact doesB_pure trivial
  | succ k ih =>
    refine (doesB_transfer 1).bind fun b _ => ?_
    dsimp only
    split
    · exact doesB_pure trivial
    · exact (doesB_failIf _ _).bind fun _ _ => ih _

theorem doesB_fillSlots (i k : ℕ) (h : i + k ≤ n) :
    DoesB Hal.IsDummyTransfer n (fun _ => True) (fillSlots (E := E) i k) := by
  induction k generalizing i with
  | zero => exact doesB_pure trivial
  | succ k ih =>
    exact (doesB_transfer 1).bind fun _ _ => (doesB_setIdx (by omega) _).bind fun _ _ =>
      ih _ (by omega)

theorem doesB_expectEnd : DoesB Hal.IsDummyTransfer n (fun _ => True) (expectEnd (E := E)) :=
  (doesB_transfer 1).bind fun _ _ => fun out hout =>
    (doesB_failIf _ _ out hout).mono fun _ h => ⟨h.1, fun _ _ => trivial⟩

theorem doesB_recvParams (k written : ℕ) (h : written ≤ n) :
    DoesB Hal.IsDummyTransfer n (· ≤ n) (recvParams (E := E) k written) := by
  induction k generalizing written with
  | zero => exact doesB_pure h
  | succ k ih =>
    refine (doesB_transfer 1).bind fun lenBuf _ => doesB_len.bind fun len hlen =>
      (doesB_failIf _ _).bind fun _ hfit => ?_
    rw [hlen] at hfit
    exact (doesB_setIdx (by omega) _).bind fun _ _ => (doesB_fillSlots _ _ (by omega)).bind
      fun _ _ => ih _ (by omega)

/-! ## The header, and what follows it -/

/-- What the three receivers have in common: the hunt, a header of `k` bytes, and the check on its
first one. -/
def opened (cmd byte : UInt8) (k : ℕ) (tail : List UInt8 → BufM E α) : BufM E α := do
  let byte ← huntStart startTimeoutIters byte
  BufM.failIf (byte ≠ startCmd) .timeout
  let hdr ← BufM.transfer k
  BufM.failIf (hdr.getD 0 0 ≠ cmd ||| replyFlag) .framing
  tail hdr

/-- The rest of `recvCmdOneParamInner`, past the check on the opcode. -/
def oneParamTail (hdr : List UInt8) : BufM E ℕ := do
  BufM.failIf (hdr.getD 1 0 ≠ 1) .framing
  let len := (hdr.getD 2 0).toNat
  BufM.failIf (len > (← BufM.len)) .bufferTooSmall
  fillSlots 0 len
  expectEnd
  return len

/-- The rest of `recvCmdOneParam16Inner`. -/
def oneParam16Tail (hdr : List UInt8) : BufM E ℕ := do
  BufM.failIf (hdr.getD 1 0 ≠ 1) .framing
  let lenBuf ← BufM.transfer 2
  let len := ofBeBytes (lenBuf.getD 0 0) (lenBuf.getD 1 0)
  BufM.failIf (len > (← BufM.len)) .bufferTooSmall
  fillSlots 0 len
  expectEnd
  return len

/-- The rest of `recvCmdIntoInner`. -/
def intoTail (hdr : List UInt8) : BufM E (UInt8 × ℕ) := do
  let numParams := hdr.getD 1 0
  let written ← recvParams numParams.toNat 0
  expectEnd
  return (numParams, written)

theorem recvCmdOneParamInner_eq (cmd : UInt8) :
    recvCmdOneParamInner (E := E) cmd = opened cmd 0 3 oneParamTail := rfl

theorem recvCmdOneParam16Inner_eq (cmd : UInt8) :
    recvCmdOneParam16Inner (E := E) cmd = opened cmd dummy 2 oneParam16Tail := rfl

theorem recvCmdIntoInner_eq (cmd : UInt8) :
    recvCmdIntoInner (E := E) cmd = opened cmd dummy 2 intoTail := rfl

theorem doesB_opened {tail : List UInt8 → BufM E α}
    (htail : ∀ hdr, DoesB Hal.IsDummyTransfer n Q (tail hdr)) (cmd byte : UInt8) (k : ℕ) :
    DoesB Hal.IsDummyTransfer n Q (opened cmd byte k tail) :=
  (doesB_huntStart _ _).bind fun _ _ => (doesB_failIf _ _).bind fun _ _ =>
    (doesB_transfer k).bind fun hdr _ => (doesB_failIf _ _).bind fun _ _ => htail hdr

theorem doesB_oneParamTail (hdr : List UInt8) :
    DoesB Hal.IsDummyTransfer n (· ≤ n) (oneParamTail (E := E) hdr) := by
  refine (doesB_failIf _ _).bind fun _ _ => doesB_len.bind fun len hlen =>
    (doesB_failIf _ _).bind fun _ hfit => ?_
  rw [hlen] at hfit
  exact (doesB_fillSlots _ _ (by omega)).bind fun _ _ => doesB_expectEnd.bind fun _ _ =>
    doesB_pure (by omega)

theorem doesB_oneParam16Tail (hdr : List UInt8) :
    DoesB Hal.IsDummyTransfer n (· ≤ n) (oneParam16Tail (E := E) hdr) := by
  refine (doesB_failIf _ _).bind fun _ _ => (doesB_transfer 2).bind fun lenBuf _ =>
    doesB_len.bind fun len hlen => (doesB_failIf _ _).bind fun _ hfit => ?_
  rw [hlen] at hfit
  exact (doesB_fillSlots _ _ (by omega)).bind fun _ _ => doesB_expectEnd.bind fun _ _ =>
    doesB_pure (by omega)

theorem doesB_intoTail (hdr : List UInt8) :
    DoesB Hal.IsDummyTransfer n (fun r => r.2 ≤ n) (intoTail (E := E) hdr) :=
  (doesB_recvParams _ _ (Nat.zero_le n)).bind fun _ hw => doesB_expectEnd.bind fun _ _ =>
    doesB_pure hw

theorem doesB_recvCmdOneParamInner (cmd : UInt8) :
    DoesB Hal.IsDummyTransfer n (· ≤ n) (recvCmdOneParamInner (E := E) cmd) :=
  doesB_opened doesB_oneParamTail cmd 0 3

theorem doesB_recvCmdOneParam16Inner (cmd : UInt8) :
    DoesB Hal.IsDummyTransfer n (· ≤ n) (recvCmdOneParam16Inner (E := E) cmd) :=
  doesB_opened doesB_oneParam16Tail cmd dummy 2

theorem doesB_recvCmdIntoInner (cmd : UInt8) :
    DoesB Hal.IsDummyTransfer n (fun r => r.2 ≤ n) (recvCmdIntoInner (E := E) cmd) :=
  doesB_opened doesB_intoTail cmd dummy 2

/-- A window keeps what its body keeps. -/
theorem doesB_received {inner : BufM E α} (h : DoesB Hal.IsDummyTransfer n Q inner) :
    DoesB (fun _ => True) n Q (received inner) := fun out hout =>
  ⟨trivial, fun
    | .error _ => onBuf_error hout
    | .ok _ => ⟨trivial, fun
      | .error _ => onBuf_error hout
      | .ok _ => ⟨trivial, fun _ => ((h out hout).weaken fun _ _ => trivial).bind
          fun _ hr => ⟨trivial, fun _ => hr⟩⟩⟩⟩

/-! ## What is carried along the receivers -/

/-- A property of functions on a buffer that every step of a receiver has and `>>=` carries
along. -/
structure Carried (P : (α : Type) → BufM E α → Prop) : Prop where
  pure {α : Type} (a : α) : P α (Pure.pure a)
  bind {α β : Type} {x : BufM E α} {f : α → BufM E β} (hx : P α x) (hf : ∀ a, P β (f a)) :
    P β (x >>= f)
  failIf (c : Prop) [Decidable c] (e : Error E) : P Unit (BufM.failIf c e)
  len : P ℕ BufM.len
  setIdx (i : ℕ) (b : UInt8) : P Unit (BufM.setIdx i b)
  transfer (k : ℕ) : P (List UInt8) (BufM.transfer k)

namespace Carried

variable {P : (α : Type) → BufM E α → Prop} (C : Carried P)

include C

theorem huntStart (n : ℕ) (byte : UInt8) : P _ (huntStart n byte) := by
  induction n generalizing byte with
  | zero => exact C.pure _
  | succ n ih =>
    refine C.bind (C.transfer 1) fun b => ?_
    dsimp only
    split
    · exact C.pure _
    · exact C.bind (C.failIf _ _) fun _ => ih _

theorem fillSlots (i k : ℕ) : P _ (fillSlots i k) := by
  induction k generalizing i with
  | zero => exact C.pure _
  | succ k ih => exact C.bind (C.transfer 1) fun _ => C.bind (C.setIdx _ _) fun _ => ih _

theorem expectEnd : P _ (expectEnd (E := E)) := C.bind (C.transfer 1) fun _ => C.failIf _ _

theorem opened {tail : List UInt8 → BufM E α} (htail : ∀ hdr, P _ (tail hdr)) (cmd byte : UInt8)
    (k : ℕ) : P _ (opened cmd byte k tail) :=
  C.bind (C.huntStart _ _) fun _ => C.bind (C.failIf _ _) fun _ => C.bind (C.transfer k) fun hdr =>
    C.bind (C.failIf _ _) fun _ => htail hdr

theorem recvCmdOneParamInner (cmd : UInt8) : P _ (recvCmdOneParamInner cmd) :=
  C.opened (fun _ => C.bind (C.failIf _ _) fun _ => C.bind C.len fun _ =>
    C.bind (C.failIf _ _) fun _ => C.bind (C.fillSlots _ _) fun _ => C.bind C.expectEnd fun _ =>
      C.pure _) cmd 0 3

end Carried

/-- No receiver is cut off. -/
theorem carried_fuelled : Carried fun α (x : BufM E α) => ∀ out, (x.run out).Fuelled where
  pure _ _ := trivial
  bind {α β x f} hx hf out := by
    rw [BufM.run_bind]
    refine (hx out).bind fun r => ?_
    rcases r with ⟨e | a, out'⟩
    · trivial
    · exact hf a out'
  failIf c _ e out := by
    unfold BufM.failIf Nina.failIf
    split
    · trivial
    · trivial
  len _ := trivial
  setIdx i b out := by
    change (if i < out.length then _ else panicked : Prog (halSig E) _).Fuelled
    split
    · trivial
    · exact Halt.noConfusion
  transfer k _ := fun
    | .ok _ => trivial
    | .error _ => trivial

end EmbassyNina
