import EmbassyNina.Link.Turn

/-!
# Link/OneByte — answers of one byte

Nine operations turn a one-byte reply into a value: `ByteOp`, each with its opcode, its parameters
and its decoding.  All of them look at the first byte of a zeroed buffer and none at the length of
the reply.  So what one of them returns was sent by the chip, unless the reply's parameter is empty,
and then it is the decoding of a zero that nobody sent (`one_byte_answers_iff`): slot 0, `Idle`,
`Closed`.  A read takes such a `Closed` for the end of the stream.
-/

namespace EmbassyNina

open Machinery Prog

variable {C E : Type} {K : Chip C}

/-- The operations that turn a one-byte reply into a value. -/
inductive ByteOp
  | tcpOpenSocket
  | status
  | tcpState (sock : Socket)
  | connectWpa (ssid passphrase : List UInt8)
  | scanChannel (index : UInt8)
  | scanEnct (index : UInt8)
  | getCurrentEnct
  | digitalRead (pin : UInt8)
  | getReasonCode

namespace ByteOp

/-- What it returns. -/
def Val : ByteOp → Type
  | tcpOpenSocket => Socket
  | status => WlStatus
  | tcpState _ => SockState
  | scanEnct _ | getCurrentEnct => EncType
  | digitalRead _ => Bool
  | connectWpa _ _ | scanChannel _ | getReasonCode => UInt8

def prog : (op : ByteOp) → Nina E op.Val
  | tcpOpenSocket => Nina.tcpOpenSocket
  | status => Nina.status
  | tcpState sock => Nina.tcpState sock
  | connectWpa ssid passphrase => Nina.connectWpa ssid passphrase
  | scanChannel index => Nina.scanChannel index
  | scanEnct index => Nina.scanEnct index
  | getCurrentEnct => Nina.getCurrentEnct
  | digitalRead pin => Nina.digitalRead pin
  | getReasonCode => Nina.getReasonCode

def cmd : ByteOp → UInt8
  | tcpOpenSocket => cmdGetSocket
  | status => cmdGetConnStatus
  | tcpState _ => cmdGetClientStateTcp
  | connectWpa _ _ => cmdSetPassphrase
  | scanChannel _ => cmdGetIdxChannel
  | scanEnct _ => cmdGetIdxEnct
  | getCurrentEnct => cmdGetCurrEnct
  | digitalRead _ => cmdGetDigitalRead
  | getReasonCode => cmdGetReasonCode

def params : ByteOp → List (List UInt8)
  | tcpOpenSocket => []
  | tcpState sock => [[sock.raw]]
  | connectWpa ssid passphrase => [ssid, passphrase]
  | scanChannel index | scanEnct index => [[index]]
  | digitalRead pin => [[pin]]
  | status | getCurrentEnct | getReasonCode => [[dummy]]

def request (op : ByteOp) : List UInt8 := frame op.cmd (op.params.map .short)

/-- The value that a byte says, or the error it stands for. -/
def decode : (op : ByteOp) → UInt8 → Except (Error E) op.Val
  | tcpOpenSocket, b => if b = 0xFF then .error .nina else .ok ⟨b⟩
  | status, b => .ok (WlStatus.fromU8 b)
  | tcpState _, b => .ok (SockState.fromU8 b)
  | scanEnct _, b | getCurrentEnct, b => .ok (EncType.fromU8 b)
  | digitalRead _, b => .ok (decide (b ≠ 0))
  | connectWpa _ _, b | scanChannel _, b | getReasonCode, b => .ok b

/-- **Each of them decodes the first byte of the reply**, or a zero. -/
theorem runs (op : ByteOp) (s : Link C) :
    ∃ got : Except (Error E) (List UInt8), K.Runs op.prog.run s
        (got.bind fun p => op.decode (p.getD 0 0)) (s.exchanged K op.request) ∧
      Says len8 op.cmd 1 (s.answered K op.request) got := by
  obtain ⟨got, hrun, hsays⟩ := Chip.runs_byteCommand_says (K := K) (E := E) op.cmd op.params s
  refine ⟨got, ?_, hsays⟩
  cases got with
  | error e =>
    cases op with
    | connectWpa | scanChannel | getReasonCode => exact hrun
    | _ => exact hrun.error
  | ok p =>
    cases op with
    | connectWpa | scanChannel | getReasonCode => exact hrun
    | tcpOpenSocket =>
      by_cases hff : p.getD 0 0 = 0xFF
      · have hdecode : decode (E := E) tcpOpenSocket (p.getD 0 0) = .error .nina := if_pos hff
        change K.Runs _ s (decode tcpOpenSocket (p.getD 0 0)) _
        rw [hdecode]
        exact hrun.ok (Chip.Runs.failIf_pos hff _).error
      · have hdecode : decode (E := E) tcpOpenSocket (p.getD 0 0) = .ok ⟨p.getD 0 0⟩ := if_neg hff
        change K.Runs _ s (decode tcpOpenSocket (p.getD 0 0)) _
        rw [hdecode]
        exact hrun.ok ((Chip.Runs.failIf_neg hff _).ok (.ret _))
    | _ => exact hrun.ok (.ret _)

/-- **Nothing is invented**: a value is the decoding of the one byte that the reply carries, and a
parameter of any other length is an error. -/
def Faithful (op : ByteOp) (reply : Bytes) (r : Except (Error E) op.Val) : Prop :=
  (∀ v, r = .ok v → ∃ b rest, OneParam len8 op.cmd [b] reply rest ∧ op.decode (E := E) b = .ok v) ∧
    ∀ p rest, OneParam len8 op.cmd p reply rest → p.length ≠ 1 → ∃ e, r = .error e

/-- A zero is never an error. -/
theorem exists_decode_zero (op : ByteOp) : ∃ v, op.decode (E := E) 0 = .ok v := by
  cases op with
  | tcpOpenSocket => exact ⟨(⟨0⟩ : Socket), rfl⟩
  | _ => exact ⟨_, rfl⟩

/-- What a reply says, decoded, is faithful to it unless its parameter is empty. -/
theorem faithful_iff (op : ByteOp) {reply : Bytes} {got : Except (Error E) (List UInt8)}
    (h : Says len8 op.cmd 1 reply got) :
    op.Faithful reply (got.bind fun p => op.decode (p.getD 0 0)) ↔
      ¬ ∃ rest, OneParam len8 op.cmd [] reply rest := by
  constructor
  · rintro ⟨-, herror⟩ ⟨rest, hempty⟩
    obtain rfl := Says.unique (R := .recvCmdOneParam) h (.payload hempty (by simp))
    obtain ⟨e, he⟩ := herror [] rest hempty (by simp)
    obtain ⟨v, hv⟩ := op.exists_decode_zero (E := E)
    exact absurd (hv.symm.trans he) (by simp)
  · intro hfull
    refine ⟨fun v hv => ?_, fun p rest hone hlen => ?_⟩
    · rcases got with e | p
      · exact absurd hv nofun
      obtain ⟨hle, rest, hone⟩ := h.of_ok
      obtain _ | ⟨b, _ | ⟨b', p⟩⟩ := p
      · exact absurd ⟨rest, hone⟩ hfull
      · exact ⟨b, rest, hone, hv⟩
      · exact absurd hle (by simp)
    · rcases Nat.lt_or_gt_of_ne hlen with hlt | hgt
      · obtain rfl := List.eq_nil_of_length_eq_zero (Nat.lt_one_iff.mp hlt)
        exact absurd ⟨rest, hone⟩ hfull
      · obtain rfl := Says.unique (R := .recvCmdOneParam) h
          (.tooLong (tooLong_of_oneParam hone hgt))
        exact ⟨_, rfl⟩

end ByteOp

/-- **One-byte answers are never invented exactly where no reply has an empty parameter.**  Each of
the nine operations is faithful to a reply exactly when the reply's parameter is not empty; and a
read that reports the end of the stream has been sent a state that reads so exactly when the reply
to its last poll is not empty. -/
theorem one_byte_answers_iff (K : Chip C) (s : Link C) :
    (∀ op : ByteOp, ∃ r, K.Runs (op.prog (E := E)).run s r (s.exchanged K op.request) ∧
      (op.Faithful (s.answered K op.request) r ↔
        ¬ ∃ rest, OneParam len8 op.cmd [] (s.answered K op.request) rest)) ∧
    ∀ (f : Facade) (fuel : ℕ) (sock : Socket) (out out' : Buf) (s' : Link C),
      K.Runs ((f.read (E := E) fuel sock).run out) s (.ok 0, out') s' →
      ∃ log ex, s'.log = s.log ++ log ++ [ex] ∧ ex.request = stateFrame sock ∧
        ((∃ b rest, OneParam len8 cmdGetClientStateTcp [b] ex.reply rest ∧
            (SockState.fromU8 b).readsAsEof = true) ↔
          ¬ ∃ rest, OneParam len8 cmdGetClientStateTcp [] ex.reply rest) := by
  refine ⟨fun op => ?_, fun f fuel sock out out' s' h => ?_⟩
  · obtain ⟨got, hrun, hsays⟩ := op.runs (K := K) (E := E) s
    exact ⟨_, hrun, op.faithful_iff hsays⟩
  obtain ⟨s₁, p, log, hlog, hsays, heof⟩ := exists_poll_of_eof h
  refine ⟨log, _, hlog, rfl, ?_⟩
  constructor
  · rintro ⟨b, rest, hone, -⟩ ⟨rest', hempty⟩
    have hb := Says.unique (R := .recvCmdOneParam) hsays (.payload hone (Nat.le_refl _))
    have hnil := Says.unique (R := .recvCmdOneParam) hsays (.payload hempty (by simp))
    exact absurd (hb.trans hnil.symm) (by simp)
  · intro hfull
    obtain ⟨hle, rest, hone⟩ := hsays.of_ok
    obtain _ | ⟨b, _ | ⟨b', p⟩⟩ := p
    · exact absurd ⟨rest, hone⟩ hfull
    · exact ⟨b, rest, hone, heof⟩
    · exact absurd hle (by simp)

/-- On a chip that answers with the state `Closed` a read ends on the state that it was sent. -/
theorem one_byte_answers_repeatingChip :
    ∃ s', (repeatingChip [0]).Runs (E := Unit) ((NinaTcpSocket.read 1 ⟨0⟩).run [7])
        ⟨(), [], [], silence⟩ (.ok 0, [7]) s' ∧
      ∃ log ex, s'.log = log ++ [ex] ∧
        ((∃ b rest, OneParam len8 cmdGetClientStateTcp [b] ex.reply rest ∧
            (SockState.fromU8 b).readsAsEof = true) ↔
          ¬ ∃ rest, OneParam len8 cmdGetClientStateTcp [] ex.reply rest) := by
  have hr : (((repeatingChip [0]).bus Unit).exec ((NinaTcpSocket.read 1 ⟨0⟩).run [7])
      ⟨(), [], [], silence⟩).1 = .done (.ok 0, [7]) := by decide +kernel
  obtain ⟨s', hrun⟩ := Chip.exists_runs hr
  obtain ⟨log, ex, hlog, -, hiff⟩ := (one_byte_answers_iff (E := Unit) (repeatingChip [0])
    ⟨(), [], [], silence⟩).2 .ninaTcpSocket 1 ⟨0⟩ [7] [7] s' hrun
  exact ⟨s', hrun, log, ex, hlog, hiff⟩

/-- An empty parameter is taken for slot 0, and for the end of the stream. -/
theorem one_byte_invented_repeatingChip :
    (∃ s', (repeatingChip []).Runs (E := Unit) Nina.tcpOpenSocket.run ⟨(), [], [], silence⟩
        (.ok ⟨0⟩) s') ∧
      (∃ s', (repeatingChip []).Runs (E := Unit) ((NinaTcpSocket.read 1 ⟨0⟩).run [7])
        ⟨(), [], [], silence⟩ (.ok 0, [7]) s') ∧
      ¬ ByteOp.tcpOpenSocket.Faithful (E := Unit)
        ((⟨(), [], [], silence⟩ : Link Unit).answered (repeatingChip []) openFrame) (.ok ⟨0⟩) := by
  refine ⟨Chip.exists_runs ?_, Chip.exists_runs ?_, fun h => ?_⟩
  · decide +kernel
  · decide +kernel
  · obtain ⟨e, he⟩ := h.2 [] silence (oneParam_repeatingChip (by decide) (by decide) _) (by decide)
    exact absurd he (by simp)

end EmbassyNina
