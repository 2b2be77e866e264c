import EmbassyNina.Link.Connect

/-!
# Link/EndOfStream — what a reader has been given when it is told that the stream has ended

An `Inbox` says what the chip holds for a socket, what its peer has yet to send and whether it has
closed; between two exchanges the peer does as it likes.  Whatever it does, a reader is given a
prefix of the stream, and it has been given all of it at the first `Ok(0)` exactly when no state
poll found the peer closed with bytes still in the buffer (`readToEnd_whole_iff`): the receive and
the poll are two exchanges, and nobody looks at the buffer again after the poll.
-/

namespace EmbassyNina

open Machinery

variable {C E : Type} {K : Chip C} {sock : Socket}

/-! ## Receiving -/

def recvFrame (sock : Socket) (room : ℕ) : List UInt8 :=
  frame cmdGetDatabufTcp [.long [sock.raw], .long (leBytes (min room 65535))]

/-- A receive is one exchange, which fills the buffer with what it brings. -/
theorem Chip.runs_tcpRecv (sock : Socket) (out : Buf) (s : Link C) :
    ∃ r, K.Runs ((Nina.tcpRecv (E := E) sock).run out) s r
        (s.exchanged K (recvFrame sock out.length)) ∧
      ∀ n out', r = (.ok n, out') ↔ ∃ data,
        readOne len16 cmdGetDatabufTcp out.length (s.answered K (recvFrame sock out.length)) =
          some data ∧ n = data.length ∧ out' = data ++ out.drop data.length := by
  have hfits : frameLength [.long [sock.raw], .long (leBytes (min out.length 65535))] ≤ 256 := by
    rw [frameLength, length_encodeAll]
    simp [Param.data, len16, leBytes]
  obtain ⟨r, hrun, hr⟩ := runs_recvOne (K := K) (doesB_recvCmdOneParam16Inner cmdGetDatabufTcp)
    (readsOne_recvCmdOneParam16Inner (E := E) cmdGetDatabufTcp) (rfl : out.length = out.length)
    (s.served K (recvFrame sock out.length))
  have hsend := (runs_sendCmdMixed (K := K) (E := E) cmdGetDatabufTcp hfits s).lift out
  exact ⟨r, Runs.okB (Runs.ret _) (hsend.okB hrun), hr⟩

/-! ## Turns -/

namespace Chip

variable {s s₁ s₂ : Link C} {out out' : Buf}

theorem Runs.lockedB {α : Type} {x : BufM E α} {r : Except (Error E) α × Buf}
    (hx : K.Runs (x.run out) s r s₁) : K.Runs ((BufM.locked x).run out) s r s₁ :=
  Runs.bind (p := x.run out) (f := fun r => (hal .unlock).bind fun _ => .ret r) hx rfl

/-- A turn that receives something returns it… -/
theorem runs_readTurn_pos (f : Facade) {n : ℕ} (hn : 0 < n)
    (hrecv : K.Runs ((Nina.tcpRecv (E := E) sock).run out) s (.ok n, out') s₁) :
    K.Runs ((f.readTurn (E := E) sock).run out) s (.ok (some n), out') s₁ := by
  cases f with
  | ninaTcpSocket => exact hrecv.okB (by rw [if_pos hn]; exact .ret _)
  | ninaSocket =>
    have hlocked : K.Runs ((NinaSocket.readLocked (E := E) sock).run out) s
        (.ok (some n), out') s₁ :=
      hrecv.okB (by rw [if_pos hn]; exact .ret _)
    exact hlocked.lockedB.okB (.ret _)

/-- …and one that does not goes by the state it polls. -/
theorem runs_readTurn_zero (f : Facade) {st : SockState}
    (hrecv : K.Runs ((Nina.tcpRecv (E := E) sock).run out) s (.ok 0, out') s₁)
    (hstate : K.Runs (Nina.tcpState (E := E) sock).run s₁ (.ok st) s₂) :
    K.Runs ((f.readTurn (E := E) sock).run out) s
      (.ok (if st.readsAsEof then some 0 else none), out') s₂ := by
  cases f with
  | ninaTcpSocket =>
    refine hrecv.okB ?_
    rw [if_neg (Nat.lt_irrefl 0)]
    refine (hstate.lift out').okB ?_
    split
    · exact .ret _
    · exact ((Runs.timer 50).lift out').okB (.ret _)
  | ninaSocket =>
    have hlocked : K.Runs ((NinaSocket.readLocked (E := E) sock).run out) s
        (.ok (if st.readsAsEof then some 0 else none), out') s₂ := by
      refine hrecv.okB ?_
      rw [if_neg (Nat.lt_irrefl 0)]
      refine (hstate.lift out').okB ?_
      rw [isClosed_eq]
      split
      · exact .ret _
      · exact .ret _
    cases hst : st.readsAsEof with
    | true =>
      rw [hst] at hlocked
      exact hlocked.lockedB.okB (.ret _)
    | false =>
      rw [hst] at hlocked
      exact hlocked.lockedB.okB (((Runs.timer 50).lift out').okB (.ret _))

end Chip

/-! ## A peer and its stream -/

/-- What the chip holds for a socket, what the peer has yet to send, and whether it has closed. -/
structure Inbox (C : Type) where
  buffered : C → List UInt8
  toCome : C → List UInt8
  closed : C → Prop

/-- `request` asks for up to `want` bytes of the socket. -/
def Wants (sock : Socket) (want : ℕ) (request : List UInt8) : Prop :=
  ∃ pad, readFrame (asTold [len16, len16]) request =
    some ⟨cmdGetDatabufTcp, [[sock.raw], leBytes want], pad⟩

theorem wants_recvFrame (sock : Socket) (room : ℕ) :
    Wants sock (min room 65535) (recvFrame sock room) :=
  ⟨_, readFrame_long (by simp) (by simp [leBytes]) cmdGetDatabufTcp⟩

namespace Inbox

/-- The rest of the stream: what the reader has not been given. -/
def rest (I : Inbox C) (c : C) : List UInt8 := I.buffered c ++ I.toCome c

/-- **The chip serves the inbox**: between exchanges bytes may arrive, in order, and none after the
close; a receive pops at most as many as it wants; a state poll tells whether the peer has closed,
as the driver reads states. -/
structure Served (I : Inbox C) (K : Chip C) (sock : Socket) : Prop where
  arrive : ∀ c, ∃ arrived, I.buffered (K.idle c) = I.buffered c ++ arrived ∧
    I.toCome c = arrived ++ I.toCome (K.idle c)
  last : ∀ c, I.closed c → I.toCome c = []
  pop : ∀ c want request, Wants sock want request → ∃ data st, data.length ≤ want ∧
    I.buffered c = data ++ I.buffered (K.serve c request).1 ∧
    I.toCome (K.serve c request).1 = I.toCome c ∧
    OneParam len16 cmdGetDatabufTcp data (K.serve c request).2 st
  poll : ∀ c, I.buffered (K.serve c (stateFrame sock)).1 = I.buffered c ∧
    I.toCome (K.serve c (stateFrame sock)).1 = I.toCome c ∧
    ∃ b st, OneParam len8 cmdGetClientStateTcp [b] (K.serve c (stateFrame sock)).2 st ∧
      ((SockState.fromU8 b).readsAsEof ↔ I.closed c)

/-- If this exchange polled the state and found the peer closed, it found the buffer empty. -/
def Drained (I : Inbox C) (sock : Socket) (ex : Exchange C) : Prop :=
  ex.request = stateFrame sock → I.closed ex.chip → I.buffered ex.chip = []

variable {I : Inbox C}

theorem Served.rest_found (hK : I.Served K sock) (s : Link C) :
    I.rest (s.found K) = I.rest s.chip := by
  obtain ⟨arrived, hbuf, hcome⟩ := hK.arrive s.chip
  rw [rest, rest, Link.found, hbuf, hcome, List.append_assoc]

theorem drained_recv (s : Link C) (room : ℕ) :
    I.Drained sock (s.exchange K (recvFrame sock room)) := fun h =>
  have hne : cmdGetDatabufTcp &&& ~~~replyFlag ≠ cmdGetClientStateTcp &&& ~~~replyFlag := by decide
  absurd (congrArg opcode h) hne

/-- What comes of one turn: bytes off the front of the rest, the end of the stream, or nothing. -/
inductive Turn (I : Inbox C) (sock : Socket) (c c' : C) (log : List (Exchange C)) :
    Option ℕ → Buf → Prop
  | data {bytes : List UInt8} {out' : Buf} (hne : 0 < bytes.length)
      (hout : out'.take bytes.length = bytes) (hrest : I.rest c = bytes ++ I.rest c')
      (hlog : ∀ ex ∈ log, I.Drained sock ex) : Turn I sock c c' log (some bytes.length) out'
  | eof {out' : Buf} (hrest : I.rest c' = I.rest c)
      (hlog : (∀ ex ∈ log, I.Drained sock ex) ↔ I.rest c = []) : Turn I sock c c' log (some 0) out'
  | again {out' : Buf} (hrest : I.rest c' = I.rest c) (hlog : ∀ ex ∈ log, I.Drained sock ex) :
    Turn I sock c c' log none out'

/-- **One turn of the loop in `read`.** -/
theorem Served.runs_readTurn (hK : I.Served K sock) (f : Facade) (out : Buf) (s : Link C) :
    ∃ o out' s' log, K.Runs ((f.readTurn (E := E) sock).run out) s (.ok o, out') s' ∧
      s'.log = s.log ++ log ∧ I.Turn sock s.chip s'.chip log o out' := by
  obtain ⟨r, hrecv, hr⟩ := Chip.runs_tcpRecv (K := K) (E := E) sock out s
  obtain ⟨bytes, st, hlen, hbuf, hcome, hreply⟩ :=
    hK.pop (s.found K) _ _ (wants_recvFrame sock out.length)
  have hfits : bytes.length ≤ out.length := by omega
  obtain rfl := (hr _ _).mpr ⟨bytes, readOne_eq_some.mpr ⟨hfits, st, hreply⟩, rfl, rfl⟩
  have hrest : I.rest s.chip =
      bytes ++ I.rest (s.exchanged K (recvFrame sock out.length)).chip := by
    rw [← hK.rest_found s, rest, rest, Link.chip_exchanged, hbuf, hcome, List.append_assoc]
  rcases Nat.eq_zero_or_pos bytes.length with hzero | hpos
  · obtain rfl := List.eq_nil_of_length_eq_zero hzero
    have hdrained : I.Drained sock (s.exchange K (recvFrame sock out.length)) := drained_recv s _
    generalize hs₁ : s.exchanged K (recvFrame sock out.length) = s₁ at hrecv hrest
    have hlog₁ : s₁.log = s.log ++ [s.exchange K (recvFrame sock out.length)] := by
      rw [← hs₁, Link.log_exchanged]
    obtain ⟨r, hstate, hst⟩ := Chip.runs_tcpState (K := K) (E := E) sock s₁
    obtain ⟨hbuf₂, hcome₂, b, st₂, hreply₂, hclosed⟩ := hK.poll (s₁.found K)
    obtain rfl := (hst _).mpr ⟨[b], readOne_eq_some.mpr ⟨Nat.le_refl _, st₂, hreply₂⟩, rfl⟩
    have hrun := Chip.runs_readTurn_zero f hrecv hstate
    have hlog₂ : (s₁.exchanged K (stateFrame sock)).log =
        s.log ++ [s.exchange K (recvFrame sock out.length), s₁.exchange K (stateFrame sock)] := by
      rw [Link.log_exchanged, hlog₁, List.append_assoc]
      rfl
    have hrest₁ : I.rest (s₁.found K) = I.rest s.chip := (hK.rest_found s₁).trans hrest.symm
    have hrest₂ : I.rest (s₁.exchanged K (stateFrame sock)).chip = I.rest s.chip := by
      rw [← hrest₁, rest, rest, Link.chip_exchanged, hbuf₂, hcome₂]
    have hbyte : [b].getD 0 0 = b := rfl
    rw [hbyte] at hrun
    by_cases hc : I.closed (s₁.found K)
    · rw [if_pos (hclosed.mpr hc)] at hrun
      have hbuffered : I.rest s.chip = I.buffered (s₁.found K) := by
        rw [← hrest₁, rest, hK.last _ hc, List.append_nil]
      refine ⟨_, _, _, _, hrun, hlog₂, .eof hrest₂ ?_⟩
      rw [List.forall_mem_cons, List.forall_mem_singleton, hbuffered]
      exact ⟨fun h => h.2 rfl hc, fun h => ⟨hdrained, fun _ _ => h⟩⟩
    · rw [if_neg fun h => hc (hclosed.mp h)] at hrun
      refine ⟨_, _, _, _, hrun, hlog₂, .again hrest₂ ?_⟩
      exact List.forall_mem_cons.mpr ⟨hdrained,
        List.forall_mem_singleton.mpr fun _ h => absurd h hc⟩
  · exact ⟨_, _, _, _, Chip.runs_readTurn_pos f hpos hrecv, Link.log_exchanged K s _,
      .data hpos (List.take_left) hrest (List.forall_mem_singleton.mpr (drained_recv s _))⟩

/-- A turn that came to nothing changes nothing for the turns after it. -/
theorem Turn.after {c c₁ c' : C} {log₁ log : List (Exchange C)} {o : Option ℕ} {out' : Buf}
    (h : I.Turn sock c₁ c' log o out') (hsame : I.rest c₁ = I.rest c)
    (hdrained : ∀ ex ∈ log₁, I.Drained sock ex) : I.Turn sock c c' (log₁ ++ log) o out' := by
  cases h with
  | data hne hout hrest hlog =>
    exact .data hne hout (hsame ▸ hrest) (List.forall_mem_append.mpr ⟨hdrained, hlog⟩)
  | eof hrest hlog =>
    refine .eof (hsame ▸ hrest) ?_
    rw [List.forall_mem_append, hlog, hsame]
    exact and_iff_right hdrained
  | again hrest hlog =>
    exact .again (hsame ▸ hrest) (List.forall_mem_append.mpr ⟨hdrained, hlog⟩)

/-- **A read that returns** ends with a turn that gave it something or the end of the stream. -/
theorem Served.runs_read (hK : I.Served K sock) (f : Facade) (fuel : ℕ) (out : Buf) (s : Link C)
    {r : Except (Error E) ℕ × Buf} {s' : Link C}
    (h : K.Runs ((f.read (E := E) fuel sock).run out) s r s') :
    ∃ n out' log, r = (.ok n, out') ∧ s'.log = s.log ++ log ∧
      I.Turn sock s.chip s'.chip log (some n) out' := by
  rw [Facade.read_eq] at h
  induction fuel generalizing out s with
  | zero => exact absurd (Prod.mk.inj h).1 nofun
  | succ fuel ih =>
    obtain ⟨o, out₁, s₁, log₁, hturn, hlog₁, hend⟩ := hK.runs_readTurn (E := E) f out s
    have hrest := hturn.of_okB h
    cases o with
    | some n =>
      obtain ⟨rfl, rfl⟩ := Chip.Runs.unique (.ret _) hrest
      exact ⟨n, out₁, log₁, rfl, hlog₁, hend⟩
    | none =>
      obtain ⟨n, out', log, rfl, hlog, hend'⟩ := ih out₁ s₁ hrest
      refine ⟨n, out', log₁ ++ log, rfl, by rw [hlog, hlog₁, List.append_assoc], ?_⟩
      cases hend with
      | again hsame hdrained => exact hend'.after hsame hdrained

end Inbox

/-! ## Reading to the end -/

/-- A caller that reads into one buffer after the other until it is told that the stream has ended:
what it is given, and whether it is told so. -/
def readToEnd (read : BufM E ℕ) :
    List Buf → Prog (halSig E) (Except (Error E) (List (List UInt8) × Bool))
  | [] => .ret (.ok ([], false))
  | out :: outs => (read.run out).bind fun
    | (.error e, _) => .ret (.error e)
    | (.ok 0, _) => .ret (.ok ([], true))
    | (.ok n, out') => (readToEnd read outs).bind fun r =>
      .ret (r.map fun got => (out'.take n :: got.1, got.2))

/-- **What a reader is given is a prefix of the stream, and at the first `Ok(0)` it is the whole
stream exactly when every state poll that found the peer closed found the buffer empty.** -/
theorem readToEnd_whole_iff {I : Inbox C} (hK : I.Served K sock) (f : Facade) (fuel : ℕ)
    (outs : List Buf) (s s' : Link C) {r : Except (Error E) (List (List UInt8) × Bool)}
    (h : K.Runs (readToEnd (f.read (E := E) fuel sock) outs) s r s') :
    ∃ got eof log, r = .ok (got, eof) ∧ s'.log = s.log ++ log ∧ got.flatten <+: I.rest s.chip ∧
      (eof = true → (got.flatten = I.rest s.chip ↔ ∀ ex ∈ log, I.Drained sock ex)) := by
  induction outs generalizing s r with
  | nil =>
    obtain ⟨rfl, rfl⟩ := Chip.Runs.unique (.ret _) h
    exact ⟨[], false, [], rfl, (List.append_nil _).symm, List.nil_prefix, nofun⟩
  | cons out outs ih =>
    obtain ⟨a, s₁, hread, hrest⟩ := h.exists_of_bind
    obtain ⟨n, out', log₁, rfl, hlog₁, hturn⟩ := hK.runs_read f fuel out s hread
    cases hturn with
    | eof hsame hdrained =>
      obtain ⟨rfl, rfl⟩ := Chip.Runs.unique (.ret _) hrest
      refine ⟨[], true, log₁, rfl, hlog₁, List.nil_prefix, fun _ => ?_⟩
      rw [hdrained]
      exact eq_comm
    | @data bytes _ hne hout hfront hdrained =>
      obtain ⟨k, hk⟩ := Nat.exists_eq_add_of_lt hne
      rw [Nat.zero_add] at hk
      rw [hk] at hrest hout
      obtain ⟨r₂, s₂, hrest, hret⟩ := hrest.exists_of_bind
      obtain ⟨rfl, rfl⟩ := Chip.Runs.unique (.ret _) hret
      obtain ⟨got, eof, log, rfl, hlog, hprefix, hiff⟩ := ih s₁ hrest
      refine ⟨out'.take (k + 1) :: got, eof, log₁ ++ log, rfl, ?_, ?_, fun heof => ?_⟩
      · rw [hlog, hlog₁, List.append_assoc]
      · rw [List.flatten_cons, hout, hfront]
        exact List.prefix_append_right_inj bytes |>.mpr hprefix
      · rw [List.flatten_cons, hout, hfront, List.append_cancel_left_eq, hiff heof,
          List.forall_mem_append]
        exact (and_iff_right hdrained).symm

/-! ## A scripted peer -/

/-- What the peer sends before each of the next exchanges, the last time with its close, and what
the chip holds. -/
structure Script where
  arrivals : List (List UInt8)
  buffered : List UInt8

/-- A chip whose peer plays a script on slot 0. -/
def scriptedPeer : Chip Script where
  idle c :=
    match c.arrivals with
    | [] => c
    | bytes :: arrivals => ⟨arrivals, c.buffered ++ bytes⟩
  serve c request :=
    match readFrame (asTold [len16, len16]) request with
    | some ⟨op, [[slot], [lo, hi]], _⟩ =>
      if op = cmdGetDatabufTcp ∧ slot = 0 then
        (⟨c.arrivals, c.buffered.drop (ofLeBytes lo hi)⟩,
          oneParam len16 cmdGetDatabufTcp (c.buffered.take (ofLeBytes lo hi)))
      else (c, silence)
    | _ => (c, oneParam len8 cmdGetClientStateTcp [if c.arrivals = [] then 7 else 4])

def scriptInbox : Inbox Script :=
  ⟨Script.buffered, fun c => c.arrivals.flatten, fun c => c.arrivals = []⟩

theorem served_scriptedPeer : scriptInbox.Served scriptedPeer ⟨0⟩ where
  arrive := by
    rintro ⟨_ | ⟨bytes, arrivals⟩, buffered⟩
    · exact ⟨[], (List.append_nil _).symm, rfl⟩
    · exact ⟨bytes, rfl, rfl⟩
  last := by
    rintro ⟨arrivals, buffered⟩ rfl
    rfl
  pop := by
    rintro c want request ⟨pad, hread⟩
    have hserve : scriptedPeer.serve c request =
        (⟨c.arrivals, c.buffered.drop (ofLeBytes (UInt8.ofNat want) (UInt8.ofNat (want / 256)))⟩,
          oneParam len16 cmdGetDatabufTcp
            (c.buffered.take (ofLeBytes (UInt8.ofNat want) (UInt8.ofNat (want / 256))))) := by
      simp [scriptedPeer, hread, leBytes]
    have hwant : ofLeBytes (UInt8.ofNat want) (UInt8.ofNat (want / 256)) = want % 65536 := by
      rw [ofLeBytes, UInt8.toNat_ofNat', UInt8.toNat_ofNat']
      omega
    rw [hserve, hwant]
    have hle : (c.buffered.take (want % 65536)).length ≤ want % 65536 := List.length_take_le _ _
    refine ⟨c.buffered.take (want % 65536), silence, by omega, ?_, rfl, oneParam_spec ?_ _⟩
    · exact (List.take_append_drop _ _).symm
    · exact Nat.lt_of_le_of_lt hle (Nat.mod_lt _ (by decide))
  poll c := by
    have hread : readFrame (asTold [len16, len16]) (stateFrame ⟨0⟩) = none := by decide +kernel
    have hserve : scriptedPeer.serve c (stateFrame ⟨0⟩) =
        (c, oneParam len8 cmdGetClientStateTcp [if c.arrivals = [] then 7 else 4]) := by
      simp [scriptedPeer, hread]
    rw [hserve]
    refine ⟨rfl, rfl, _, silence, oneParam_spec (by simp [len8]) _, ?_⟩
    by_cases h : c.arrivals = []
    · rw [if_pos h]
      exact ⟨fun _ => h, fun _ => rfl⟩
    · rw [if_neg h]
      exact ⟨fun hst => absurd hst (by decide), fun hc => absurd hc h⟩

/-- Bytes that arrive before the receive are all read, and no poll finds any left. -/
theorem readToEnd_whole_scriptedPeer :
    ∃ s', scriptedPeer.Runs (E := Unit) (readToEnd (Facade.ninaSocket.read 1 ⟨0⟩) [[0], [0], [0]])
        ⟨⟨[[7, 8]], []⟩, [], [], silence⟩ (.ok ([[7], [8]], true)) s' ∧
      ∀ ex ∈ s'.log, scriptInbox.Drained ⟨0⟩ ex := by
  have hr : ((scriptedPeer.bus Unit).exec
      (readToEnd (Facade.ninaSocket.read 1 ⟨0⟩) [[0], [0], [0]])
      ⟨⟨[[7, 8]], []⟩, [], [], silence⟩).1 = .done (.ok ([[7], [8]], true)) := by decide +kernel
  refine ⟨_, Prod.ext hr rfl, ?_⟩
  obtain ⟨got, eof, log, hgot, hlog, -, hiff⟩ := readToEnd_whole_iff (E := Unit)
    served_scriptedPeer .ninaSocket 1 [[0], [0], [0]] ⟨⟨[[7, 8]], []⟩, [], [], silence⟩ _
    (Prod.ext hr rfl)
  obtain ⟨rfl, rfl⟩ := Prod.mk.inj (Except.ok.inj hgot)
  rw [hlog]
  exact (hiff rfl).mp rfl

/-- A byte that arrives with the close, after the receive and before the poll, is lost to either
socket type. -/
theorem readToEnd_loses_scriptedPeer :
    scriptInbox.Served scriptedPeer ⟨0⟩ ∧ scriptInbox.rest ⟨[[], [7]], []⟩ = [7] ∧
      (∃ s', scriptedPeer.Runs (E := Unit) (readToEnd (NinaTcpSocket.read 1 ⟨0⟩) [[0]])
        ⟨⟨[[], [7]], []⟩, [], [], silence⟩ (.ok ([], true)) s') ∧
      ∃ s', scriptedPeer.Runs (E := Unit) (readToEnd (NinaSocket.read 1 ⟨0⟩) [[0]])
        ⟨⟨[[], [7]], []⟩, [], [], silence⟩ (.ok ([], true)) s' := by
  refine ⟨served_scriptedPeer, rfl, ⟨_, Prod.ext ?_ rfl⟩, _, Prod.ext ?_ rfl⟩
  · decide +kernel
  · decide +kernel

end EmbassyNina
