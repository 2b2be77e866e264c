import EmbassyNina.Exchange.Faults
import EmbassyNina.Link.Chip
import EmbassyNina.Link.Grammar

/-!
# Link/Answer — what one exchange brings

`Says` sorts a stream by what a one-parameter receiver makes of it: a payload, or one of four
errors.  Read off a chip, an exchange brings what the chip's reply says (`runs_command_says`).  Read
off a trace, where bus and pins may fail too, it brings its first fault, or else what every stream
that begins with the bytes heard says (`Brings`).
-/

namespace EmbassyNina

open Machinery Prog Stream'

variable {C E : Type} {α β : Type}

/-! ## What a stream says -/

/-- `st` is announced, but holds no reply to `cmd` that a receiver with `room` bytes can read. -/
def Misframed (L : LenCode UInt8) (cmd : UInt8) (room : ℕ) (st : Bytes) : Prop :=
  ¬ Refused st ∧ ¬ Silent st ∧ ¬ TooLong L cmd room st ∧
    ∀ payload rest, OneParam L cmd payload st rest → room < payload.length

/-- **What `st` says** to a receiver of one parameter of at most `room` bytes. -/
inductive Says (L : LenCode UInt8) (cmd : UInt8) (room : ℕ) (st : Bytes) :
    Except (Error E) (List UInt8) → Prop
  | payload {payload : List UInt8} {rest : Bytes} (h : OneParam L cmd payload st rest)
      (hle : payload.length ≤ room) : Says L cmd room st (.ok payload)
  | refused (h : Refused st) : Says L cmd room st (.error .nina)
  | silent (h : Silent st) : Says L cmd room st (.error .timeout)
  | tooLong (h : TooLong L cmd room st) : Says L cmd room st (.error .bufferTooSmall)
  | misframed (h : Misframed L cmd room st) : Says L cmd room st (.error .framing)

/-- A parameter that does not fit makes a reply too long. -/
theorem tooLong_of_oneParam {L : LenCode UInt8} {cmd : UInt8} {room : ℕ} {st rest : Bytes}
    {payload : List UInt8} (h : OneParam L cmd payload st rest) (hlong : room < payload.length) :
    TooLong L cmd room st := by
  obtain ⟨hbound, hann⟩ := h
  rw [field_stream] at hann
  exact ⟨_, _, hlong, hbound, hann⟩

namespace Says

variable {R : OneReceiver} {cmd : UInt8} {room : ℕ} {st : Bytes}
  {got got' : Except (Error E) (List UInt8)}

/-- **A receiver returns what the stream says**, and has the payload at the front of its buffer. -/
theorem reads (h : Says R.code cmd room st got) {out : Buf} (hout : out.length = room) :
    ∃ out' st', reads (R.prog cmd) out st = (.done (got.map List.length, out'), st') ∧
      ∀ payload, got = .ok payload → out' = payload ++ out.drop payload.length := by
  have hx := R.readsOne (E := E) cmd
  subst hout
  cases h with
  | @payload payload rest h hle =>
    refine ⟨_, rest, hx.ok_iff.mpr ⟨payload, h, hle, rfl, rfl⟩, fun p hp => ?_⟩
    rw [Except.ok.inj hp]
  | refused h =>
    obtain ⟨st', hread⟩ := hx.of_refused out h
    exact ⟨out, st', hread, by simp⟩
  | silent h =>
    obtain ⟨st', hread⟩ := hx.of_silent out h
    exact ⟨out, st', hread, by simp⟩
  | tooLong h =>
    obtain ⟨st', hread⟩ := hx.of_tooLong h
    exact ⟨out, st', hread, by simp⟩
  | misframed h =>
    obtain ⟨⟨r, out'⟩, st', hread⟩ := hx.done out st
    obtain ⟨-, href⟩ | ⟨-, hsil⟩ | rfl | ⟨-, -, hlong⟩ | ⟨n, rfl⟩ := hx.tells hread
    · exact absurd href h.1
    · exact absurd hsil h.2.1
    · exact ⟨out', st', hread, by simp⟩
    · exact absurd hlong h.2.2.1
    · obtain ⟨payload, hone, hle, -, -⟩ := hx.ok_iff.mp hread
      exact absurd hle (Nat.not_le.mpr (h.2.2.2 payload st' hone))

/-- Two streams that a receiver reads alike say the same. -/
theorem unique_of_reads {st' : Bytes} (h : Says R.code cmd room st got)
    (h' : Says R.code cmd room st' got') {out : Buf} (hout : out.length = room)
    (heq : (EmbassyNina.reads (E := E) (R.prog cmd) out st).1 =
      (EmbassyNina.reads (R.prog cmd) out st').1) : got' = got := by
  obtain ⟨out₁, st₁, hread, hpayload⟩ := h.reads hout
  obtain ⟨out₂, st₂, hread', hpayload'⟩ := h'.reads hout
  rw [hread, hread'] at heq
  obtain ⟨hgot, rfl⟩ := Prod.mk.inj (Outcome.done.inj heq)
  cases got with
  | error e =>
    cases got' with
    | error e' => exact (congrArg _ (Except.error.inj hgot)).symm
    | ok p' => exact absurd hgot (by simp [Except.map])
  | ok p =>
    cases got' with
    | error e' => exact absurd hgot (by simp [Except.map])
    | ok p' =>
      have hlen : p.length = p'.length := Except.ok.inj hgot
      have hbuf := (hpayload p rfl).symm.trans (hpayload' p' rfl)
      rw [(List.append_inj hbuf hlen).1]

/-- One stream says one thing. -/
theorem unique (h : Says R.code cmd room st got) (h' : Says R.code cmd room st got') :
    got' = got :=
  h.unique_of_reads h' (List.length_replicate (a := (0 : UInt8))) rfl

/-- Every stream says something. -/
theorem exists_says (L : LenCode UInt8) (cmd : UInt8) (room : ℕ) (st : Bytes) :
    ∃ got : Except (Error E) (List UInt8), Says L cmd room st got := by
  by_cases href : Refused st
  · exact ⟨_, .refused href⟩
  by_cases hsil : Silent st
  · exact ⟨_, .silent hsil⟩
  by_cases hlong : TooLong L cmd room st
  · exact ⟨_, .tooLong hlong⟩
  by_cases hone : ∃ payload rest, OneParam L cmd payload st rest ∧ payload.length ≤ room
  · obtain ⟨payload, rest, h, hle⟩ := hone
    exact ⟨_, .payload h hle⟩
  · exact ⟨_, .misframed ⟨href, hsil, hlong, fun payload rest h =>
      Nat.lt_of_not_le fun hle => hone ⟨payload, rest, h, hle⟩⟩⟩

/-- A payload is the parameter of a reply. -/
theorem of_ok {L : LenCode UInt8} {payload : List UInt8}
    (h : Says (E := E) L cmd room st (.ok payload)) :
    payload.length ≤ room ∧ ∃ rest, OneParam L cmd payload st rest := by
  obtain ⟨hone, hle⟩ := h
  exact ⟨hle, _, hone⟩

theorem ok_iff (h : Says R.code cmd room st got) {payload : List UInt8} :
    got = .ok payload ↔ payload.length ≤ room ∧ ∃ rest, OneParam R.code cmd payload st rest := by
  constructor
  · rintro rfl
    exact h.of_ok
  · rintro ⟨hle, rest, hone⟩
    exact (Says.payload hone hle).unique h

end Says

/-- What is left in a zeroed buffer of `n` bytes by a payload, and its length. -/
def filled (n : ℕ) (payload : List UInt8) : ℕ × Buf :=
  (payload.length, payload ++ List.replicate (n - payload.length) 0)

theorem getD_filled (payload : List UInt8) :
    (filled 1 payload).2.getD 0 0 = payload.getD 0 0 := by
  rcases payload with _ | ⟨b, payload⟩
  · rfl
  · rfl

/-- The byte that is checked against one is the payload. -/
theorem getD_eq_one {payload : List UInt8} (hle : payload.length ≤ 1) :
    payload.getD 0 0 = 1 ↔ payload = [1] := by
  obtain _ | ⟨b, _ | ⟨b', payload⟩⟩ := payload
  · decide
  · simp
  · exact absurd hle (by simp)

/-! ## On the line with a chip -/

namespace Chip

variable {K : Chip C}

/-- **The reply to a request is what is received.** -/
theorem runs_reply_says (cmd : UInt8) (n : ℕ) (s : Link C) (request : List UInt8) :
    ∃ got, K.Runs (withBuf n (recvCmdOneParam (E := E) cmd)).run (s.served K request)
        (got.map (filled n)) (s.exchanged K request) ∧
      Says len8 cmd n (s.answered K request) got := by
  obtain ⟨got, hsays⟩ := Says.exists_says (E := E) len8 cmd n (s.answered K request)
  have hout : (List.replicate n (0 : UInt8)).length = n := List.length_replicate
  obtain ⟨out', st', hread, hpayload⟩ := Says.reads (R := .recvCmdOneParam) hsays hout
  have hrun := (runs_received (K := K) (s := s.served K request)
    (doesB_recvCmdOneParamInner cmd) hout ((reads_received _ _ _).symm.trans hread)).withBuf
  refine ⟨got, ?_, hsays⟩
  cases got with
  | error e => exact hrun
  | ok p =>
    obtain rfl := hpayload p rfl
    rw [List.drop_replicate] at hrun
    exact hrun

/-- **One exchange** brings what the reply says. -/
theorem runs_command_says (cmd : UInt8) (params : List (List UInt8)) (n : ℕ) (s : Link C) :
    ∃ got, K.Runs (Nina.command (E := E) cmd params n).run s (got.map (filled n))
        (s.exchanged K (frame cmd (params.map .short))) ∧
      Says len8 cmd n (s.answered K (frame cmd (params.map .short))) got := by
  obtain ⟨got, hrun, hsays⟩ := runs_reply_says (K := K) (E := E) cmd n s
    (frame cmd (params.map .short))
  exact ⟨got, (runs_sendCmd cmd params s).ok hrun, hsays⟩

/-- Its first byte, or zero. -/
theorem runs_byteCommand_says (cmd : UInt8) (params : List (List UInt8)) (s : Link C) :
    ∃ got, K.Runs (Nina.byteCommand (E := E) cmd params).run s
        (got.map fun p : List UInt8 => p.getD 0 0)
        (s.exchanged K (frame cmd (params.map .short))) ∧
      Says len8 cmd 1 (s.answered K (frame cmd (params.map .short))) got := by
  obtain ⟨got, hrun, hsays⟩ := runs_command_says (K := K) (E := E) cmd params 1 s
  refine ⟨got, ?_, hsays⟩
  cases got with
  | error e => exact hrun.error
  | ok p =>
    change K.Runs _ s (Except.ok (p.getD 0 0)) _
    rw [← getD_filled p]
    exact hrun.ok (.ret _)

end Chip

/-! ## In a trace -/

/-- **What a trace brings**: its first fault, or what the bytes heard say, whatever comes next. -/
def Brings (cmd : UInt8) (room : ℕ) (tr : List (Event (halSig E)))
    (got : Except (Error E) (List UInt8)) : Prop :=
  (∃ e, faults tr = [e] ∧ got = .error e) ∨
    faults tr = [] ∧ ∀ st, Says len8 cmd room (heard tr ++ₛ st) got

/-- A transfer reads what it has heard. -/
theorem reader_answer {bytes : List UInt8} (now : Vector UInt8 bytes.length) (st : Bytes) :
    (reader E).answer (now.toList ++ₛ st) (.busTransfer bytes) = (.ok now, st) := by
  have hlen : now.toList.length = bytes.length := now.size_toArray
  have htake : (now.toList ++ₛ st).take bytes.length = now.toList :=
    (congrArg (Stream'.take · _) hlen.symm).trans (take_append_self now.toList st)
  have hdrop : (now.toList ++ₛ st).drop bytes.length = st :=
    (congrArg (Stream'.drop · _) hlen.symm).trans (drop_append_stream now.toList st)
  refine Prod.ext (congrArg Except.ok (Vector.toArray_inj.mp ?_)) hdrop
  exact congrArg List.toArray htake

/-- **The bytes heard are the bytes read.** -/
theorem exec_reader_of_steps {Q : α → Prop} {p : Prog (halSig E) α} {tr : List (Event (halSig E))}
    {a : α} (h : Steps p tr (.ret a)) (hp : p.Does (S := halSig E) Hal.IsDummyTransfer Q)
    (hnone : faults tr = []) (st : Bytes) :
    (reader E).exec p (heard tr ++ₛ st) = (.done a, st) := by
  induction p generalizing tr with
  | ret b =>
    obtain ⟨rfl, hret⟩ := Steps.done h
    rw [hret]
    rfl
  | halt w => exact absurd (Steps.halt_iff.mp h).2 nofun
  | ask e k ih =>
    obtain _ | ⟨r, h⟩ := h
    cases e with
    | busTransfer bytes =>
      obtain ⟨hr, hrest⟩ := List.forall_mem_cons.mp (List.filterMap_eq_nil_iff.mp hnone)
      cases r with
      | error e => exact absurd hr nofun
      | ok now =>
        have hheard : ∀ t, heard (⟨.busTransfer bytes, .ok now⟩ :: t : List (Event (halSig E))) =
            now.toList ++ heard t := fun _ => List.flatMap_cons
        rw [hheard, append_append_stream]
        refine (Env.exec_ask _ _ _ _).trans ?_
        rw [reader_answer]
        exact ih _ h (hp.2 _) (List.filterMap_eq_nil_iff.mpr hrest)
    | _ => exact hp.1.elim

/-- **A receiver that meets no fault** returns what the bytes it heard say. -/
theorem says_of_steps {cmd : UInt8} {n : ℕ} {tr : List (Event (halSig E))}
    {res : Except (Error E) ℕ} {out : Buf}
    (h : Steps ((recvCmdOneParamInner (E := E) cmd).run (List.replicate n 0)) tr
      (.ret (res, out))) (hnone : faults tr = []) :
    ∃ got, (∀ st, Says len8 cmd n (heard tr ++ₛ st) got) ∧ res = got.map List.length ∧
      ∀ payload, got = .ok payload → out = payload ++ List.replicate (n - payload.length) 0 := by
  have hout : (List.replicate n (0 : UInt8)).length = n := List.length_replicate
  have hread : ∀ st, reads (recvCmdOneParam (E := E) cmd) (List.replicate n 0)
      (heard tr ++ₛ st) = (.done (res, out), st) := fun st => (reads_received _ _ _).trans
    (exec_reader_of_steps h (doesB_recvCmdOneParamInner cmd _ hout) hnone st)
  obtain ⟨got, hsays⟩ := Says.exists_says (E := E) len8 cmd n (heard tr ++ₛ silence)
  obtain ⟨out', st', hread', hpayload⟩ := Says.reads (R := .recvCmdOneParam) hsays hout
  obtain ⟨rfl, rfl⟩ := Prod.mk.inj
    (Outcome.done.inj (Prod.mk.inj ((hread silence).symm.trans hread')).1)
  refine ⟨got, fun st => ?_, rfl, fun payload hgot => ?_⟩
  · obtain ⟨got', hsays'⟩ := Says.exists_says (E := E) len8 cmd n (heard tr ++ₛ st)
    have hsame : (reads (recvCmdOneParam (E := E) cmd) (List.replicate n 0)
        (heard tr ++ₛ silence)).1 = (reads (recvCmdOneParam cmd) (List.replicate n 0)
        (heard tr ++ₛ st)).1 := by rw [hread, hread]
    rwa [Says.unique_of_reads (R := .recvCmdOneParam) hsays hsays' hout hsame] at hsays'
  · rw [hpayload payload hgot, List.drop_replicate]

/-- The reply, in a trace. -/
theorem brings_of_steps {cmd : UInt8} {n : ℕ} {tr : List (Event (halSig E))}
    {r : Except (Error E) (ℕ × Buf)}
    (h : Steps (withBuf n (recvCmdOneParam (E := E) cmd)).run tr (.ret r)) :
    ∃ got, Brings cmd n tr got ∧ r = got.map (filled n) := by
  obtain ⟨⟨res, out⟩, t, t', hrecv, hret, rfl⟩ := Steps.exists_of_bind h
  have hfail : ∀ e, res = .error e → faults t = [e] →
      ∃ got, Brings cmd n (t ++ t') got ∧ r = got.map (filled n) := by
    rintro e rfl hone
    obtain ⟨rfl, rfl⟩ := Steps.done hret
    exact ⟨.error e, .inl ⟨e, by rw [List.append_nil]; exact hone, rfl⟩, rfl⟩
  rw [recvCmdOneParam, received_run] at hrecv
  obtain ⟨hres, hpin, -⟩ | ⟨t₀, hbody, hfaults, hheard, -⟩ := selected_cases hrecv
  · exact hfail .pin (Prod.mk.inj hres).1 hpin
  obtain hnone | ⟨e, hone, he⟩ := surfacesB_recvCmdOneParamInner cmd _ _ _ hbody
  · obtain ⟨got, hall, rfl, hpayload⟩ := says_of_steps hbody hnone
    have hbrings : Brings cmd n t got := .inr ⟨hfaults.trans hnone, by rw [hheard]; exact hall⟩
    cases got with
    | error e =>
      obtain ⟨rfl, hr⟩ := Steps.done hret
      exact ⟨.error e, by rwa [List.append_nil], hr⟩
    | ok p =>
      obtain ⟨rfl, hr⟩ := Steps.done hret
      refine ⟨.ok p, by rwa [List.append_nil], hr.trans ?_⟩
      rw [hpayload p rfl]
      rfl
  · exact hfail e he (hfaults.trans hone)

/-- **A whole exchange**: the trace of a request and its reply, and what it brings. -/
structure Exchanged (cmd : UInt8) (params : List (List UInt8)) (room : ℕ)
    (tr : List (Event (halSig E))) (got : Except (Error E) (List UInt8)) : Prop where
  steps : Steps (Nina.command (E := E) cmd params room).run tr (.ret (got.map (filled room)))
  brings : Brings cmd room tr got

section Exchanged

variable {cmd : UInt8} {params : List (List UInt8)} {room : ℕ} {t₁ t₂ : List (Event (halSig E))}

/-- A request that failed is all of its exchange… -/
theorem exchanged_error {e : Error E}
    (h : Steps (sendCmd (E := E) cmd params).run t₁ (.ret (.error e))) :
    Exchanged cmd params room t₁ (.error e) := by
  refine ⟨?_, .inl ⟨e, ?_, rfl⟩⟩
  · rw [Nina.command, run_bind_eq, ← List.append_nil t₁]
    exact h.bind (.refl _)
  · obtain ⟨e', hone, he⟩ | ⟨-, hok, -⟩ := sendCmd_cases h
    · rw [Except.error.inj he]
      exact hone
    · exact absurd hok (by simp)

/-- …and one that went out is followed by its reply. -/
theorem exchanged_reply {r : Except (Error E) (ℕ × Buf)}
    (h₁ : Steps (sendCmd (E := E) cmd params).run t₁ (.ret (.ok ())))
    (h₂ : Steps (withBuf room (recvCmdOneParam (E := E) cmd)).run t₂ (.ret r)) :
    ∃ got, Exchanged cmd params room (t₁ ++ t₂) got ∧ r = got.map (filled room) := by
  obtain ⟨got, hbrings, rfl⟩ := brings_of_steps h₂
  refine ⟨got, ⟨?_, ?_⟩, rfl⟩
  · rw [Nina.command, run_bind_eq]
    exact h₁.bind h₂
  · obtain ⟨e', -, he⟩ | ⟨hnone, -, hheard⟩ := sendCmd_cases h₁
    · exact absurd he (by simp)
    rwa [Brings, faults_append, heard_append, hnone, hheard, List.nil_append, List.nil_append]

/-- **Every exchange that is over brings something**, and that is its result. -/
theorem exists_exchanged {tr : List (Event (halSig E))} {r : Except (Error E) (ℕ × Buf)}
    (h : Steps (Nina.command (E := E) cmd params room).run tr (.ret r)) :
    ∃ got, Exchanged cmd params room tr got ∧ r = got.map (filled room) := by
  rw [Nina.command, run_bind_eq] at h
  obtain ⟨r₁, t₁, t₂, h₁, h₂, rfl⟩ := Steps.exists_of_bind h
  cases r₁ with
  | error e =>
    obtain ⟨rfl, hr⟩ := Steps.done h₂
    rw [List.append_nil]
    exact ⟨.error e, exchanged_error h₁, hr⟩
  | ok u => exact exchanged_reply h₁ h₂

/-- What is brought has room. -/
theorem Exchanged.length_le {tr : List (Event (halSig E))} {payload : List UInt8}
    (h : Exchanged (E := E) cmd params room tr (.ok payload)) : payload.length ≤ room := by
  obtain ⟨e, -, he⟩ | ⟨-, hsays⟩ := h.brings
  · exact absurd he (by simp)
  · have hsilence := hsays silence
    exact hsilence.of_ok.1

end Exchanged

end EmbassyNina
