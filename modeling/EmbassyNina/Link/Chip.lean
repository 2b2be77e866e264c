import EmbassyNina.Link.Reader
import EmbassyNina.Exchange.Senders
import EmbassyNina.Driver.Nina

/-!
# Link/Chip — the driver on the line with a chip

A `Chip` is whatever is at the far end of the bus: it serves a request by a reply, and between two
exchanges its peers do to it what they will.  `Chip.bus` joins it to the host: what is clocked out
in a window is one request, and the next window reads the reply to it.

`K.Runs p s a s'` says that `p`, run on the line `s`, returns `a` and leaves `s'`.  Whatever the
windows do byte by byte, an exchange takes `s` to `s.exchanged K request` (`runs_command`), and a
multi-exchange operation is read off its exchanges.
-/

namespace EmbassyNina

open Machinery Prog

/-- A chip with states `C`: what happens to it between two exchanges, and how it serves one. -/
structure Chip (C : Type) where
  idle : C → C
  serve : C → List UInt8 → C × Bytes

/-- One exchange: the chip as the request found it, the request, and the reply. -/
structure Exchange (C : Type) where
  chip : C
  request : List UInt8
  reply : Bytes

/-- The line to a chip: its state, the exchanges so far, what has been clocked out in the window
that is open, and what is left of the reply. -/
structure Link (C : Type) where
  chip : C
  log : List (Exchange C)
  window : List UInt8
  reply : Bytes

variable {C E α β : Type} (K : Chip C)

namespace Link

/-- The chip as the next request finds it. -/
def found (s : Link C) : C := K.idle s.chip

/-- The reply to a request. -/
def answered (s : Link C) (request : List UInt8) : Bytes := (K.serve (s.found K) request).2

/-- The exchange a request makes. -/
def exchange (s : Link C) (request : List UInt8) : Exchange C :=
  ⟨s.found K, request, s.answered K request⟩

/-- The line once a request is over: the reply is there to be read. -/
def served (s : Link C) (request : List UInt8) : Link C where
  chip := (K.serve (s.found K) request).1
  log := s.log ++ [s.exchange K request]
  window := []
  reply := s.answered K request

/-- The line after a whole exchange. -/
def exchanged (s : Link C) (request : List UInt8) : Link C :=
  { s.served K request with reply := silence }

/-- CS goes high: what was clocked out is a request; after a reply window there is nothing. -/
def deselect (s : Link C) : Link C :=
  if s.window = [] then { s with reply := silence } else s.served K s.window

@[simp] theorem log_exchanged (s : Link C) (request : List UInt8) :
    (s.exchanged K request).log = s.log ++ [s.exchange K request] := rfl

@[simp] theorem chip_exchanged (s : Link C) (request : List UInt8) :
    (s.exchanged K request).chip = (K.serve (s.found K) request).1 := rfl

end Link

namespace Chip

/-- **The line as an environment**: neither bus nor pins fail. -/
def bus (E : Type) (K : Chip C) : Env (halSig E) (Link C) where
  answer s
    | .csSetLow => (.ok (), { s with window := [] })
    | .csSetHigh => (.ok (), s.deselect K)
    | .busWrite bytes => (.ok (), { s with window := s.window ++ bytes })
    | .busTransfer bytes =>
      (.ok ⟨(s.reply.take bytes.length).toArray, by simp⟩,
      { s with reply := s.reply.drop bytes.length })
    | e => (e.success, s)

theorem bus_works (s : Link C) (e : Hal) : Hal.Works e ((K.bus E).answer s e).1 := by
  cases e <;> first | rfl | trivial | exact ⟨_, rfl⟩

/-- `p`, run on the line `s`, returns `a` and leaves `s'`. -/
def Runs (p : Prog (halSig E) α) (s : Link C) (a : α) (s' : Link C) : Prop :=
  (K.bus E).exec p s = (.done a, s')

variable {K} {s s' s'' : Link C}

/-! ## Composing runs -/

theorem Runs.ret (a : α) : K.Runs (E := E) (.ret a) s a s := rfl

/-- A program that has been run to its end leaves some line. -/
theorem exists_runs {p : Prog (halSig E) α} {a : α} (h : ((K.bus E).exec p s).1 = .done a) :
    ∃ s', K.Runs p s a s' := ⟨_, Prod.ext h rfl⟩

/-- The line decides what comes of a program. -/
theorem Runs.unique {p : Prog (halSig E) α} {a a' : α} (h : K.Runs p s a s')
    (h' : K.Runs p s a' s'') : a' = a ∧ s'' = s' := by
  obtain ⟨ha, hs⟩ := Prod.mk.inj (h'.symm.trans h)
  exact ⟨Outcome.done.inj ha, hs⟩

theorem Runs.bind {p : Prog (halSig E) α} {f : α → Prog (halSig E) β} {a : α} {b : β}
    (hp : K.Runs p s a s') (hf : K.Runs (f a) s' b s'') : K.Runs (p.bind f) s b s'' := by
  rw [Runs, Env.exec_bind, hp]
  exact hf

theorem Runs.of_bind {p : Prog (halSig E) α} {f : α → Prog (halSig E) β} {a : α} {b : β}
    (hp : K.Runs p s a s') (h : K.Runs (p.bind f) s b s'') : K.Runs (f a) s' b s'' := by
  rw [Runs, Env.exec_bind, hp] at h
  exact h

/-- A composition that returns has run both its halves. -/
theorem Runs.exists_of_bind {p : Prog (halSig E) α} {f : α → Prog (halSig E) β} {b : β}
    (h : K.Runs (p.bind f) s b s'') : ∃ a s', K.Runs p s a s' ∧ K.Runs (f a) s' b s'' := by
  rw [Runs, Env.exec_bind] at h
  cases hp : (K.bus E).exec p s with
  | mk o s' =>
    rw [hp] at h
    cases o with
    | done a => exact ⟨a, s', hp, h⟩
    | stopped w => exact absurd (Prod.mk.inj h).1 nofun

/-- `?` goes on after a success… -/
theorem Runs.ok {x : Nina E α} {f : α → Nina E β} {a : α} {r : Except (Error E) β}
    (hx : K.Runs x.run s (.ok a) s') (hf : K.Runs (f a).run s' r s'') :
    K.Runs (x >>= f).run s r s'' := by
  rw [run_bind_eq]
  exact hx.bind hf

/-- …and stops at an error. -/
theorem Runs.error {x : Nina E α} {f : α → Nina E β} {e : Error E}
    (hx : K.Runs x.run s (.error e) s') : K.Runs (x >>= f).run s (.error e) s' := by
  rw [run_bind_eq]
  exact hx.bind (.ret _)

theorem Runs.attempt {x : Nina E α} {r : Except (Error E) α} (hx : K.Runs x.run s r s') :
    K.Runs (Machinery.attempt x).run s (.ok r) s' := hx.bind (.ret _)

theorem Runs.failIf_pos {c : Prop} [Decidable c] (h : c) (e : Error E) :
    K.Runs (Nina.failIf c e).run s (.error e) s := by
  rw [Nina.failIf, if_pos h]
  exact .ret _

theorem Runs.failIf_neg {c : Prop} [Decidable c] (h : ¬ c) (e : Error E) :
    K.Runs (Nina.failIf c e).run s (.ok ()) s := by
  rw [Nina.failIf, if_neg h]
  exact .ret _

theorem Runs.timer (ms : ℕ) : K.Runs (Nina.timer (E := E) ms).run s (.ok ()) s := rfl

/-- On a line of its own a task never waits for the mutex. -/
theorem Runs.locked {x : Nina E α} {r : Except (Error E) α} (hx : K.Runs x.run s r s') :
    K.Runs (Nina.locked x).run s r s' :=
  Runs.bind (p := x.run) (f := fun r => (hal .unlock).bind fun _ => .ret r) hx rfl

theorem Runs.withBuf {x : BufM E α} {n : ℕ} {r : Except (Error E) α} {buf : Buf}
    (hx : K.Runs (x.run (List.replicate n 0)) s (r, buf) s') :
    K.Runs (withBuf n x).run s (r.map fun a => (a, buf)) s' :=
  hx.bind (by cases r <;> exact .ret _)

theorem Runs.okB {x : BufM E α} {f : α → BufM E β} {a : α} {out out' : Buf}
    {r : Except (Error E) β × Buf} (hx : K.Runs (x.run out) s (.ok a, out') s')
    (hf : K.Runs ((f a).run out') s' r s'') : K.Runs ((x >>= f).run out) s r s'' := by
  rw [BufM.run_bind]
  exact hx.bind hf

/-- The second half of a run. -/
theorem Runs.of_okB {x : BufM E α} {f : α → BufM E β} {a : α} {out out' : Buf}
    {r : Except (Error E) β × Buf} (hx : K.Runs (x.run out) s (.ok a, out') s')
    (h : K.Runs ((x >>= f).run out) s r s'') : K.Runs ((f a).run out') s' r s'' := by
  rw [BufM.run_bind] at h
  exact Runs.of_bind (f := BufM.onOk f) hx h

theorem Runs.errorB {x : BufM E α} {f : α → BufM E β} {e : Error E} {out out' : Buf}
    (hx : K.Runs (x.run out) s (.error e, out') s') :
    K.Runs ((x >>= f).run out) s (.error e, out') s' := by
  rw [BufM.run_bind]
  exact hx.bind (.ret _)

theorem Runs.lift {x : Nina E α} {r : Except (Error E) α} (hx : K.Runs x.run s r s') (out : Buf) :
    K.Runs ((BufM.lift x).run out) s (r, out) s' := by
  rw [BufM.run_lift]
  exact hx.bind (.ret _)

/-! ## What a run does to the chip -/

/-- The exchanges `log` lead the chip from one state to another. -/
def Follows (K : Chip C) : C → List (Exchange C) → C → Prop
  | c, [], c' => c' = c
  | c, ex :: log, c' => ex.chip = K.idle c ∧ ex.reply = (K.serve ex.chip ex.request).2 ∧
    Follows K (K.serve ex.chip ex.request).1 log c'

theorem Follows.append {c c' c'' : C} {log log' : List (Exchange C)} (h : K.Follows c log c')
    (h' : K.Follows c' log' c'') : K.Follows c (log ++ log') c'' := by
  induction log generalizing c with
  | nil =>
    obtain rfl : c' = c := h
    exact h'
  | cons ex log ih => exact ⟨h.1, h.2.1, ih h.2.2⟩

theorem Follows.of_append {c c'' : C} {log log' : List (Exchange C)}
    (h : K.Follows c (log ++ log') c'') : ∃ c', K.Follows c log c' ∧ K.Follows c' log' c'' := by
  induction log generalizing c with
  | nil => exact ⟨c, rfl, h⟩
  | cons ex log ih =>
    obtain ⟨c', h₁, h₂⟩ := ih h.2.2
    exact ⟨c', ⟨h.1, h.2.1, h₁⟩, h₂⟩

theorem Follows.middle {c c' : C} {before log after : List (Exchange C)}
    (h : K.Follows c (before ++ log ++ after) c') : ∃ c₁ c₂, K.Follows c₁ log c₂ := by
  obtain ⟨c₂, h, -⟩ := h.of_append
  obtain ⟨c₁, -, h⟩ := h.of_append
  exact ⟨c₁, c₂, h⟩

/-- Each is served by the chip that its request found. -/
theorem Follows.reply {c c' : C} {log : List (Exchange C)} (h : K.Follows c log c') :
    ∀ ex ∈ log, ex.reply = (K.serve ex.chip ex.request).2 := by
  induction log generalizing c with
  | nil => exact List.forall_mem_nil _
  | cons ex log ih => exact List.forall_mem_cons.mpr ⟨h.2.1, ih h.2.2⟩

/-- One call extends the log by the exchanges it completes… -/
theorem bus_follows (s : Link C) (e : Hal) :
    ∃ log, ((K.bus E).answer s e).2.log = s.log ++ log ∧
      K.Follows s.chip log ((K.bus E).answer s e).2.chip := by
  cases e with
  | csSetHigh =>
    change ∃ log, (s.deselect K).log = s.log ++ log ∧ K.Follows s.chip log (s.deselect K).chip
    rw [Link.deselect]
    split
    · exact ⟨[], (List.append_nil _).symm, rfl⟩
    · exact ⟨[_], rfl, rfl, rfl, rfl⟩
  | _ => exact ⟨[], (List.append_nil _).symm, rfl⟩

/-- …and so does a run. -/
theorem exec_follows (p : Prog (halSig E) α) (s : Link C) :
    ∃ log, ((K.bus E).exec p s).2.log = s.log ++ log ∧
      K.Follows s.chip log ((K.bus E).exec p s).2.chip := by
  induction p generalizing s with
  | ret a => exact ⟨[], (List.append_nil _).symm, rfl⟩
  | halt h => exact ⟨[], (List.append_nil _).symm, rfl⟩
  | ask e k ih =>
    obtain ⟨log, hlog, hfollows⟩ := bus_follows (K := K) (E := E) s e
    obtain ⟨log', hlog', hfollows'⟩ := ih _ ((K.bus E).answer s e).2
    exact ⟨log ++ log', by rw [← List.append_assoc, ← hlog]; exact hlog', hfollows.append hfollows'⟩

theorem Runs.follows {p : Prog (halSig E) α} {a : α} {log : List (Exchange C)}
    (h : K.Runs p s a s') (hlog : s'.log = s.log ++ log) : K.Follows s.chip log s'.chip := by
  obtain ⟨log', hlog', hfollows⟩ := exec_follows (K := K) p s
  rw [h] at hlog' hfollows
  obtain rfl := List.append_cancel_left (hlog.symm.trans hlog')
  exact hfollows

/-! ## Windows -/

/-- A window on the line: CS clears it, and what its body leaves is a request or the end of a
reply. -/
theorem runs_selected {fail : Error E → β} {body : Prog (halSig E) β} {b : β}
    (hb : K.Runs body { s with window := [] } b s') :
    K.Runs (selected fail body) s b (s'.deselect K) :=
  Runs.bind (p := body) (f := fun res => (hal .csSetHigh).bind fun _ => .ret res) hb rfl

/-- What a program that only writes leaves in the window. -/
theorem exec_writes {Q : α → Prop} {p : Prog (halSig E) α}
    (hp : p.Does (S := halSig E) Hal.IsWrite Q) (s : Link C) :
    ((K.bus E).exec p s).2 =
      { s with window := s.window ++ (clockedOut ((K.bus E).trace p s)).flatten } := by
  induction p generalizing s with
  | ret a => simp [Env.trace, clockedOut]
  | halt h => simp [Env.trace, clockedOut]
  | ask e k ih =>
    cases e with
    | busWrite bytes =>
      refine (ih _ (hp.2 _) _).trans ?_
      simp [Env.trace, clockedOut, bus, Hal.clocked]
    | _ => exact hp.1.elim

/-- What a sender's body leaves in the window is what it puts on the bus. -/
theorem runs_puts {ws : List (List UInt8)} {x : Nina E Unit} (hx : Puts ws () x)
    (hw : DoesE (S := halSig E) Hal.IsWrite (fun _ => True) x) (htotal : x.run.Total) (s : Link C) :
    K.Runs x.run s (.ok ()) { s with window := s.window ++ ws.flatten } := by
  obtain ⟨r, hr⟩ := (K.bus E).exec_done htotal s
  have hsteps := (K.bus E).steps_trace x.run s
  rw [hr] at hsteps
  obtain ⟨rfl, hws⟩ := hx.of_steps hsteps (works_trace (bus_works K) x.run s)
  exact Prod.ext hr (by rw [exec_writes hw s, hws])

/-- **A frame is one request.** -/
theorem runs_request {ws : List (List UInt8)} {x : Nina E Unit} (hx : Puts ws () x)
    (hw : DoesE (S := halSig E) Hal.IsWrite (fun _ => True) x) (htotal : x.run.Total) {cmd : UInt8}
    {params : List Param} (hws : ws.flatten = frame cmd params) (s : Link C) :
    K.Runs (selected .error x.run) s (.ok ()) (s.served K (frame cmd params)) := by
  have hne : frame cmd params ≠ [] := by
    obtain ⟨more, hmore⟩ := frame_eq_cons cmd params
    rw [hmore]
    exact List.cons_ne_nil _ _
  have h := runs_puts (K := K) hx hw htotal { s with window := [] }
  rw [List.nil_append, hws] at h
  have hselected : K.Runs (selected .error x.run) s (.ok ()) _ := runs_selected h
  rwa [Link.deselect, if_neg hne] at hselected

theorem runs_sendCmd (cmd : UInt8) (params : List (List UInt8)) (s : Link C) :
    K.Runs (sendCmd (E := E) cmd params).run s (.ok ())
      (s.served K (frame cmd (params.map .short))) :=
  runs_request (puts_sendCmdBody cmd params) (does_sendCmdBody cmd params)
    (total_sendCmdBody cmd params) (flatten_streamed cmd params) s

theorem runs_sendCmdMixed (cmd : UInt8) {params : List Param} (h : frameLength params ≤ 256)
    (s : Link C) :
    K.Runs (sendCmdMixed (E := E) cmd params).run s (.ok ()) (s.served K (frame cmd params)) := by
  rw [sendCmdMixed_run_eq, if_pos h]
  exact runs_request (puts_write _) (does_write _) (total_write _) (List.append_nil _) s

/-- A program that only clocks bytes in reads the reply. -/
theorem exec_reads {Q : α → Prop} {p : Prog (halSig E) α}
    (hp : p.Does (S := halSig E) Hal.IsDummyTransfer Q) (s : Link C) :
    (K.bus E).exec p s = (((reader E).exec p s.reply).1,
      { s with reply := ((reader E).exec p s.reply).2 }) := by
  induction p generalizing s with
  | ret a => rfl
  | halt h => rfl
  | ask e k ih =>
    cases e with
    | busTransfer bytes => exact ih _ (hp.2 _) _
    | _ => exact hp.1.elim

/-- **A receiver reads the reply** and leaves the line silent. -/
theorem runs_received {n : ℕ} {Q : α → Prop} {inner : BufM E α} {out : Buf}
    (hinner : DoesB Hal.IsDummyTransfer n Q inner) (hout : out.length = n)
    {r : Except (Error E) α × Buf} {st : Bytes} (hr : reads inner out s.reply = (.done r, st)) :
    K.Runs ((received inner).run out) s r { s with window := [], reply := silence } := by
  have hrun : K.Runs (inner.run out) { s with window := [] } r
      { s with window := [], reply := st } := by
    rw [Runs, exec_reads (hinner out hout), ← reads, hr]
  rw [received_run]
  exact runs_selected hrun

/-! ## Exchanges -/

end Chip

theorem map_eq_ok {ε α β : Type} {r : Except ε α} {f : α → β} {b : β} :
    r.map f = .ok b ↔ ∃ a, r = .ok a ∧ f a = b := by
  cases r <;> simp [Except.map]

/-- `st` holds a reply to `cmd` whose packed parameters take at most `room` bytes. -/
def ManyFit (cmd : UInt8) (room : ℕ) (st : Bytes) : Prop :=
  ∃ params rest, ManyParams cmd params st rest ∧ (encodeAll (params.map .short)).length ≤ room

namespace Chip

variable {K}

/-- **A one-parameter receiver** on the line. -/
theorem runs_recvOne {L : LenCode UInt8} {cmd : UInt8} {n : ℕ} {inner : BufM E ℕ}
    (hinner : DoesB Hal.IsDummyTransfer n (· ≤ n) inner) (hread : ReadsOne L cmd inner) {out : Buf}
    (hout : out.length = n) (s : Link C) :
    ∃ r, K.Runs ((received inner).run out) s r { s with window := [], reply := silence } ∧
      ∀ k out', r = (.ok k, out') ↔ ∃ payload, readOne L cmd n s.reply = some payload ∧
        k = payload.length ∧ out' = payload ++ out.drop payload.length := by
  obtain ⟨r, st, hr⟩ := hread.done out s.reply
  refine ⟨r, runs_received hinner hout hr, fun k out' => ?_⟩
  constructor
  · rintro rfl
    obtain ⟨payload, hone, hle, rfl, rfl⟩ := hread.ok_iff.mp hr
    exact ⟨payload, readOne_eq_some.mpr ⟨hout ▸ hle, st, hone⟩, rfl, rfl⟩
  · rintro ⟨payload, hpayload, rfl, rfl⟩
    obtain ⟨hle, rest, hone⟩ := readOne_eq_some.mp hpayload
    have hok := hread.ok_iff.mpr ⟨payload, hone, hout.symm ▸ hle, rfl, rfl⟩
    exact Outcome.done.inj (Prod.mk.inj (hr.symm.trans hok)).1

/-- The reply to a request, read into a buffer of `n` bytes. -/
theorem runs_reply (cmd : UInt8) (n : ℕ) (s : Link C) (request : List UInt8) :
    ∃ r, K.Runs (withBuf n (recvCmdOneParam (E := E) cmd)).run (s.served K request) r
        (s.exchanged K request) ∧
      ∀ k buf, r = .ok (k, buf) ↔ ∃ payload,
        readOne len8 cmd n (s.answered K request) = some payload ∧
        k = payload.length ∧ buf = payload ++ List.replicate (n - payload.length) 0 := by
  obtain ⟨⟨r, out⟩, hrun, hr⟩ := runs_recvOne (K := K) (doesB_recvCmdOneParamInner cmd)
    (readsOne_recvCmdOneParamInner (E := E) cmd) (List.length_replicate (n := n) (a := 0))
    (s.served K request)
  refine ⟨r.map fun a => (a, out), hrun.withBuf, fun k buf => ?_⟩
  have hmap : (r.map fun a => (a, out)) = .ok (k, buf) ↔ (r, out) = (.ok k, buf) := by
    cases r <;> simp [Except.map]
  simp only [hmap, hr, List.drop_replicate]
  rfl

/-- **One exchange**: short parameters out, one parameter of at most `n` bytes back. -/
theorem runs_command (cmd : UInt8) (params : List (List UInt8)) (n : ℕ) (s : Link C) :
    ∃ r, K.Runs (Nina.command (E := E) cmd params n).run s r
        (s.exchanged K (frame cmd (params.map .short))) ∧
      ∀ k buf, r = .ok (k, buf) ↔ ∃ payload,
        readOne len8 cmd n (s.answered K (frame cmd (params.map .short))) = some payload ∧
        k = payload.length ∧ buf = payload ++ List.replicate (n - payload.length) 0 := by
  obtain ⟨r, hrun, hr⟩ := runs_reply (K := K) (E := E) cmd n s (frame cmd (params.map .short))
  exact ⟨r, (runs_sendCmd cmd params s).ok hrun, hr⟩

/-- The first byte of the reply, if it fits a one-byte buffer. -/
theorem runs_byteCommand (cmd : UInt8) (params : List (List UInt8)) (s : Link C) :
    ∃ r, K.Runs (Nina.byteCommand (E := E) cmd params).run s r
        (s.exchanged K (frame cmd (params.map .short))) ∧
      ∀ b, r = .ok b ↔ ∃ payload,
        readOne len8 cmd 1 (s.answered K (frame cmd (params.map .short))) = some payload ∧
        b = payload.getD 0 0 := by
  obtain ⟨r, hrun, hr⟩ := runs_command (K := K) (E := E) cmd params 1 s
  have hhead : ∀ payload : List UInt8,
      (payload ++ List.replicate (1 - payload.length) 0).getD 0 0 = payload.getD 0 0 := by
    rintro (_ | ⟨b, payload⟩) <;> rfl
  refine ⟨r.map fun a => a.2.getD 0 0, ?_, fun b => ?_⟩
  · cases r with
    | ok a => exact hrun.ok (.ret _)
    | error e => exact hrun.error
  · constructor
    · intro h
      obtain ⟨⟨k, buf⟩, rfl, rfl⟩ := map_eq_ok.mp h
      obtain ⟨payload, hread, rfl, rfl⟩ := (hr k buf).mp rfl
      exact ⟨payload, hread, hhead payload⟩
    · rintro ⟨payload, hread, rfl⟩
      rw [(hr _ _).mpr ⟨payload, hread, rfl, rfl⟩, ← hhead payload]
      rfl

/-- One byte, decoded. -/
theorem runs_mapByte (cmd : UInt8) (params : List (List UInt8)) (f : UInt8 → α) (s : Link C) :
    ∃ r, K.Runs (Nina.byteCommand (E := E) cmd params >>= fun b => pure (f b)).run s r
        (s.exchanged K (frame cmd (params.map .short))) ∧
      ∀ a, r = .ok a ↔ ∃ payload,
        readOne len8 cmd 1 (s.answered K (frame cmd (params.map .short))) = some payload ∧
        a = f (payload.getD 0 0) := by
  obtain ⟨r, hrun, hr⟩ := runs_byteCommand (K := K) (E := E) cmd params s
  refine ⟨r.map f, ?_, fun a => ?_⟩
  · cases r with
    | ok b => exact hrun.ok (.ret _)
    | error e => exact hrun.error
  · constructor
    · intro h
      obtain ⟨b, rfl, rfl⟩ := map_eq_ok.mp h
      obtain ⟨payload, hread, rfl⟩ := (hr b).mp rfl
      exact ⟨payload, hread, rfl⟩
    · rintro ⟨payload, hread, rfl⟩
      exact congrArg (Except.map f) ((hr _).mpr ⟨payload, hread, rfl⟩)

/-- **One exchange**: short parameters out, packed parameters of at most `n` bytes back. -/
theorem runs_commandInto (cmd : UInt8) (params : List (List UInt8)) (n : ℕ) (s : Link C) :
    ∃ r, K.Runs (do
        sendCmd (E := E) cmd params
        let _ ← withBuf n (recvCmdInto cmd)).run s r
        (s.exchanged K (frame cmd (params.map .short))) ∧
      (r.isOk ↔ ManyFit cmd n (s.answered K (frame cmd (params.map .short)))) := by
  have hout : (List.replicate n (0 : UInt8)).length = n := List.length_replicate
  obtain ⟨⟨r, out⟩, st, hr⟩ := recvCmdIntoInner_done (E := E) cmd (List.replicate n 0)
    (s.answered K (frame cmd (params.map .short)))
  have hrun := (runs_received (K := K) (s := s.served K (frame cmd (params.map .short)))
    (doesB_recvCmdIntoInner cmd) hout hr).withBuf
  cases r with
  | error e =>
    refine ⟨.error e, (runs_sendCmd cmd params s).ok hrun.error, nofun, ?_⟩
    rintro ⟨params', rest, hmany, hle⟩
    have hok := (recvCmdIntoInner_ok_iff (E := E)).mpr ⟨params', hmany, hout.symm ▸ hle, rfl, rfl⟩
    exact absurd (hr.symm.trans hok) nofun
  | ok a =>
    obtain ⟨params', hmany, hle, -, -⟩ := recvCmdIntoInner_ok_iff.mp hr
    exact ⟨.ok (), (runs_sendCmd cmd params s).ok (hrun.ok (.ret _)),
      fun _ => ⟨params', st, hmany, hout ▸ hle⟩, fun _ => rfl⟩

/-! ## What an operation asks of the chip -/

/-- **`x` always returns, and all it asks of the chip satisfies `P`.** -/
def Asks (K : Chip C) (P : List UInt8 → Prop) (x : Nina E α) : Prop :=
  ∀ s, ∃ r s' log, K.Runs x.run s r s' ∧ s'.log = s.log ++ log ∧ ∀ ex ∈ log, P ex.request

end Chip

end EmbassyNina
