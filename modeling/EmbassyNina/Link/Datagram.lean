import EmbassyNina.Link.Answer
import EmbassyNina.Link.Connect

/-!
# Link/Datagram — the datagram that a send commits

`udpSend` makes three exchanges: it starts a datagram, inserts the payload and commits it.  The acks
of the last two are checked; the start is good with any reply of few parameters, also with none,
which is how the chip refuses it.  On a chip that `Posts`, the send then completes whatever datagram
was pending before (`udpSend_commits_iff`).
-/

namespace EmbassyNina

open Machinery Prog

variable {C E : Type} {K : Chip C} {sock : Socket}

/-! ## A chip that keeps datagrams -/

/-- A datagram, or one that is being built: it has no destination before the first start. -/
structure Datagram where
  dest : Option (Ipv4 × UInt16)
  payload : List UInt8
deriving DecidableEq

/-- Appending completes a datagram to the given one just if it was an empty one to the same
destination. -/
theorem Datagram.completed_iff {d : Datagram} {dest : Option (Ipv4 × UInt16)}
    {data : List UInt8} :
    (⟨d.dest, d.payload ++ data⟩ : Datagram) = ⟨dest, data⟩ ↔ d = ⟨dest, []⟩ := by
  obtain ⟨d, payload⟩ := d
  simp

/-- `request` starts a datagram to `dest`. -/
def Begins (sock : Socket) (dest : Ipv4 × UInt16) (request : List UInt8) : Prop :=
  ∃ pad, readFrame allShort request =
    some ⟨cmdStartClientTcp, [dest.1.toList, beBytes dest.2.toNat, [sock.raw], [udpMode]], pad⟩

/-- `request` inserts `data`. -/
def Inserts (sock : Socket) (data request : List UInt8) : Prop :=
  ∃ pad, readFrame (asTold [len16, len16]) request =
    some ⟨cmdInsertDatabuf, [[sock.raw], data], pad⟩

/-- `request` commits the datagram. -/
def Commits (sock : Socket) (request : List UInt8) : Prop :=
  ∃ pad, readFrame allShort request = some ⟨cmdSendUdpData, [[sock.raw]], pad⟩

/-- `reply` acks the request `cmd`. -/
def Acks (cmd : UInt8) (reply : Bytes) : Prop := ∃ rest, OneParam len8 cmd [1] reply rest

/-- `reply` refuses it: by `errCmd`, or by a parameter that is no ack. -/
def Declines (cmd : UInt8) (reply : Bytes) : Prop :=
  Refused reply ∨ ∃ payload rest, OneParam len8 cmd payload reply rest ∧ payload ≠ [1]

/-- An ack is no refusal. -/
theorem Acks.not_declines {cmd : UInt8} {reply : Bytes} (h : Acks cmd reply) :
    ¬ Declines cmd reply := by
  obtain ⟨rest, hone⟩ := h
  rintro (href | ⟨payload, rest', hone', hne⟩)
  · have hack : Says (E := Unit) len8 cmd 1 reply (.ok [1]) := .payload hone (Nat.le_refl 1)
    exact absurd (Says.unique (R := .recvCmdOneParam) hack (.refused href)) nofun
  · have hack : Says (E := Unit) len8 cmd (payload.length + 1) reply (.ok [1]) :=
      .payload hone (Nat.le_add_left 1 _)
    have heq := Says.unique (R := .recvCmdOneParam) hack (.payload hone' (Nat.le_add_right _ 1))
    exact hne (Except.ok.inj heq)

/-- **A chip that posts datagrams**, truthfully.  A start that is answered by a parameter drops the
pending datagram for an empty one; one that is answered by none changes nothing.  An insert that is
acked appends; a commit that is acked transmits what is pending, and one that is declined transmits
nothing. -/
structure Posts (K : Chip C) (sock : Socket) (pending : C → Datagram) (sent : C → List Datagram) :
    Prop where
  idle : ∀ c, pending (K.idle c) = pending c ∧ sent (K.idle c) = sent c
  begin_sent : ∀ c dest request, Begins sock dest request → sent (K.serve c request).1 = sent c
  begin_pending : ∀ c dest request params rest, Begins sock dest request →
    ManyParams cmdStartClientTcp params (K.serve c request).2 rest →
    pending (K.serve c request).1 = if params = [] then pending c else ⟨some dest, []⟩
  insert_sent : ∀ c data request, Inserts sock data request → sent (K.serve c request).1 = sent c
  insert_pending : ∀ c data request, Inserts sock data request →
    Acks cmdInsertDatabuf (K.serve c request).2 →
    pending (K.serve c request).1 = ⟨(pending c).dest, (pending c).payload ++ data⟩
  commit_acked : ∀ c request, Commits sock request → Acks cmdSendUdpData (K.serve c request).2 →
    sent (K.serve c request).1 = sent c ++ [pending c]
  commit_declined : ∀ c request, Commits sock request →
    Declines cmdSendUdpData (K.serve c request).2 → sent (K.serve c request).1 = sent c

/-! ## The requests of a send -/

def beginFrame (sock : Socket) (dest : Ipv4 × UInt16) : List UInt8 :=
  startFrame [dest.1.toList, beBytes dest.2.toNat] sock udpMode

def insertFrame (sock : Socket) (data : List UInt8) : List UInt8 :=
  frame cmdInsertDatabuf [.long [sock.raw], .long data]

def commitFrame (sock : Socket) : List UInt8 := frame cmdSendUdpData [.short [sock.raw]]

theorem begins_beginFrame (sock : Socket) (dest : Ipv4 × UInt16) :
    Begins sock dest (beginFrame sock dest) := by
  have hlen : dest.1.toList.length = 4 := dest.1.size_toArray
  refine ⟨_, readFrame_short (by simp) ?_ cmdStartClientTcp⟩
  simp [hlen, beBytes]

theorem inserts_insertFrame (sock : Socket) {data : List UInt8} (h : data.length < 65536) :
    Inserts sock data (insertFrame sock data) :=
  ⟨_, readFrame_long (by simp) h cmdInsertDatabuf⟩

theorem commits_commitFrame (sock : Socket) : Commits sock (commitFrame sock) := by
  have hcount : [[sock.raw]].length < 256 := by simp
  have hlen : ∀ p ∈ [[sock.raw]], p.length < 256 := by simp
  exact ⟨_, readFrame_short hcount hlen cmdSendUdpData⟩

/-! ## The exchanges -/

/-- What an ack that is checked comes to. -/
def ackOf : Except (Error E) (List UInt8) → Except (Error E) Unit
  | .ok payload => if payload = [1] then .ok () else .error .nina
  | .error e => .error e

namespace Chip

theorem runs_failIf_ack {payload : List UInt8} (hle : payload.length ≤ 1) (s : Link C) :
    K.Runs (Nina.failIf (E := E) (payload.getD 0 0 ≠ 1) .nina).run s (ackOf (.ok payload)) s := by
  have hone := getD_eq_one hle
  rw [ackOf]
  by_cases h : payload = [1]
  · rw [if_pos h]
    exact .failIf_neg (not_not.mpr (hone.mpr h)) _
  · have hne : payload.getD 0 0 ≠ 1 := fun h' => h (hone.mp h')
    rw [if_neg h]
    exact .failIf_pos hne _

/-- **Past its request**, an exchange whose ack is checked. -/
theorem runs_ack_says (cmd : UInt8) (s : Link C) (request : List UInt8) :
    ∃ got, K.Runs (do
        let (_, buf) ← withBuf 1 (recvCmdOneParam (E := E) cmd)
        Nina.failIf (buf.getD 0 0 ≠ 1) .nina).run (s.served K request) (ackOf got)
        (s.exchanged K request) ∧
      Says len8 cmd 1 (s.answered K request) got := by
  obtain ⟨got, hrun, hsays⟩ := runs_reply_says (K := K) (E := E) cmd 1 s request
  refine ⟨got, ?_, hsays⟩
  cases got with
  | error e => exact hrun.error
  | ok payload =>
    have hle := hsays.of_ok.1
    refine hrun.ok ?_
    change K.Runs (Nina.failIf ((filled 1 payload).2.getD 0 0 ≠ 1) .nina).run _ _ _
    rw [getD_filled]
    exact runs_failIf_ack hle _

/-- **An insert** is one exchange, if its frame can be packed. -/
theorem runs_udpWrite_says (sock : Socket) (data : List UInt8) (s : Link C) :
    if frameLength [.long [sock.raw], .long data] ≤ 256 then
      ∃ got, K.Runs (Nina.udpWrite (E := E) sock data).run s (ackOf got)
          (s.exchanged K (insertFrame sock data)) ∧
        Says len8 cmdInsertDatabuf 1 (s.answered K (insertFrame sock data)) got
    else K.Runs (Nina.udpWrite (E := E) sock data).run s (.error .bufferTooSmall) s := by
  split
  · rename_i hfits
    obtain ⟨got, hrun, hsays⟩ := runs_ack_says (K := K) (E := E) cmdInsertDatabuf s
      (insertFrame sock data)
    exact ⟨got, (runs_sendCmdMixed cmdInsertDatabuf hfits s).ok hrun, hsays⟩
  · rename_i hlong
    have hsend : K.Runs (sendCmdMixed (E := E) cmdInsertDatabuf
        [.long [sock.raw], .long data]).run s (.error .bufferTooSmall) s := by
      rw [sendCmdMixed_run_eq, if_neg hlong]
      exact .ret _
    exact hsend.error

/-- **A commit** is one exchange. -/
theorem runs_udpEndPacket_says (sock : Socket) (s : Link C) :
    ∃ got, K.Runs (Nina.udpEndPacket (E := E) sock).run s (ackOf got)
        (s.exchanged K (commitFrame sock)) ∧
      Says len8 cmdSendUdpData 1 (s.answered K (commitFrame sock)) got := by
  obtain ⟨got, hrun, hsays⟩ := runs_byteCommand_says (K := K) (E := E) cmdSendUdpData
    [[sock.raw]] s
  refine ⟨got, (Runs.timer 10).ok ?_, hsays⟩
  cases got with
  | error e => exact hrun.error
  | ok payload =>
    have hle := hsays.of_ok.1
    exact hrun.ok (runs_failIf_ack hle _)

/-- The line once a send has started its datagram. -/
def begun (K : Chip C) (sock : Socket) (dest : Ipv4 × UInt16) (s : Link C) : Link C :=
  s.exchanged K (beginFrame sock dest)

/-- The line once it has inserted its payload. -/
def inserted (K : Chip C) (sock : Socket) (dest : Ipv4 × UInt16) (data : List UInt8) (s : Link C) :
    Link C := (begun K sock dest s).exchanged K (insertFrame sock data)

/-- The reply to the start, the insert and the commit of a send. -/
def begunBy (K : Chip C) (sock : Socket) (dest : Ipv4 × UInt16) (s : Link C) : Bytes :=
  s.answered K (beginFrame sock dest)

def insertedBy (K : Chip C) (sock : Socket) (dest : Ipv4 × UInt16) (data : List UInt8)
    (s : Link C) : Bytes := (begun K sock dest s).answered K (insertFrame sock data)

def committedBy (K : Chip C) (sock : Socket) (dest : Ipv4 × UInt16) (data : List UInt8)
    (s : Link C) : Bytes := (inserted K sock dest data s).answered K (commitFrame sock)

/-- A checked ack. -/
theorem ackOf_eq_ok {got : Except (Error E) (List UInt8)} : ackOf got = .ok () ↔ got = .ok [1] := by
  cases got with
  | error e => simp [ackOf]
  | ok payload =>
    rw [ackOf, Except.ok.injEq]
    by_cases h : payload = [1]
    · simp [h]
    · simp [h]

theorem acks_iff {cmd : UInt8} {st : Bytes} {got : Except (Error E) (List UInt8)}
    (h : Says len8 cmd 1 st got) : ackOf got = .ok () ↔ Acks cmd st := by
  rw [ackOf_eq_ok, Says.ok_iff (R := .recvCmdOneParam) h]
  exact and_iff_right (Nat.le_refl 1)

/-- **A send** goes as far as its replies let it. -/
theorem runs_udpSend (sock : Socket) (ip : Ipv4) (port : UInt16) (data : List UInt8) (s : Link C) :
    ∃ r s', K.Runs (Nina.udpSend (E := E) sock ip port data).run s r s' ∧
      ((s' = begun K sock (ip, port) s ∧ (∃ e, r = .error e) ∧
          ¬ ManyFit cmdStartClientTcp 4 (begunBy K sock (ip, port) s)) ∨
        (s' = begun K sock (ip, port) s ∧ (∃ e, r = .error e) ∧
          256 < frameLength [.long [sock.raw], .long data]) ∨
        (s' = inserted K sock (ip, port) data s ∧ (∃ e, r = .error e) ∧
          frameLength [.long [sock.raw], .long data] ≤ 256 ∧
          ¬ Acks cmdInsertDatabuf (insertedBy K sock (ip, port) data s)) ∨
        (s' = (inserted K sock (ip, port) data s).exchanged K (commitFrame sock) ∧
          ManyFit cmdStartClientTcp 4 (begunBy K sock (ip, port) s) ∧
          frameLength [.long [sock.raw], .long data] ≤ 256 ∧
          Acks cmdInsertDatabuf (insertedBy K sock (ip, port) data s) ∧
          ∃ got, r = ackOf got ∧
            Says len8 cmdSendUdpData 1 (committedBy K sock (ip, port) data s) got)) := by
  obtain ⟨r₁, hbegin, hfit⟩ := runs_tcpStartClient (K := K) (E := E) sock ip port udpMode s
  cases r₁ with
  | error e =>
    refine ⟨.error e, _, hbegin.error, .inl ⟨rfl, ⟨e, rfl⟩, fun h => ?_⟩⟩
    exact absurd (hfit.mpr h) nofun
  | ok u =>
    have hmany := hfit.mp rfl
    have hwrite := runs_udpWrite_says (K := K) (E := E) sock data (begun K sock (ip, port) s)
    by_cases hlen : frameLength [.long [sock.raw], .long data] ≤ 256
    · rw [if_pos hlen] at hwrite
      obtain ⟨got, hwrite, hsays⟩ := hwrite
      cases hgot : ackOf got with
      | error e =>
        rw [hgot] at hwrite
        refine ⟨.error e, _, hbegin.ok ((Runs.timer 20).ok hwrite.error),
          .inr (.inr (.inl ⟨rfl, ⟨e, rfl⟩, hlen, fun h => ?_⟩))⟩
        exact absurd (hgot.symm.trans ((acks_iff hsays).mpr h)) nofun
      | ok u =>
        rw [hgot] at hwrite
        obtain ⟨got', hend, hsays'⟩ := runs_udpEndPacket_says (K := K) (E := E) sock
          (inserted K sock (ip, port) data s)
        exact ⟨_, _, hbegin.ok ((Runs.timer 20).ok (hwrite.ok hend)),
          .inr (.inr (.inr ⟨rfl, hmany, hlen, (acks_iff hsays).mp hgot, got', rfl, hsays'⟩))⟩
    · rw [if_neg hlen] at hwrite
      exact ⟨_, _, hbegin.ok ((Runs.timer 20).ok hwrite.error),
        .inr (.inl ⟨rfl, ⟨_, rfl⟩, Nat.lt_of_not_le hlen⟩)⟩

end Chip

/-! ## What is posted -/

/-- A payload that fits a frame fits its prefix. -/
theorem length_lt_of_fits {a data : List UInt8} (h : frameLength [.long a, .long data] ≤ 256) :
    data.length < 65536 := by
  rw [frameLength, length_encodeAll] at h
  simp [Param.data, len16] at h
  omega

namespace Posts

variable {pending : C → Datagram} {sent : C → List Datagram} {dest : Ipv4 × UInt16}
  {data : List UInt8} {s : Link C} (hK : Posts K sock pending sent)

include hK

/-- A start transmits nothing… -/
theorem sent_begun : sent (K.begun sock dest s).chip = sent s.chip :=
  (hK.begin_sent _ dest _ (begins_beginFrame sock dest)).trans (hK.idle s.chip).2

/-- …and answered by a parameter it leaves an empty datagram to its destination. -/
theorem pending_begun {params : List (List UInt8)} {rest : Bytes}
    (h : ManyParams cmdStartClientTcp params (K.begunBy sock dest s) rest) :
    pending (K.begun sock dest s).chip =
      if params = [] then pending s.chip else ⟨some dest, []⟩ := by
  rw [← (hK.idle s.chip).1]
  exact hK.begin_pending _ dest _ params rest (begins_beginFrame sock dest) h

/-- An insert transmits nothing… -/
theorem sent_inserted (hfits : frameLength [.long [sock.raw], .long data] ≤ 256) :
    sent (K.inserted sock dest data s).chip = sent s.chip :=
  (hK.insert_sent _ data _ (inserts_insertFrame sock (length_lt_of_fits hfits))).trans
    ((hK.idle _).2.trans hK.sent_begun)

/-- …and appends when it is acked. -/
theorem pending_inserted (hfits : frameLength [.long [sock.raw], .long data] ≤ 256)
    (hack : Acks cmdInsertDatabuf (K.insertedBy sock dest data s)) :
    pending (K.inserted sock dest data s).chip =
      ⟨(pending (K.begun sock dest s).chip).dest,
        (pending (K.begun sock dest s).chip).payload ++ data⟩ := by
  rw [← (hK.idle (K.begun sock dest s).chip).1]
  exact hK.insert_pending _ data _ (inserts_insertFrame sock (length_lt_of_fits hfits)) hack

/-- A commit that is acked transmits what is pending… -/
theorem sent_committed (hack : Acks cmdSendUdpData (s.answered K (commitFrame sock))) :
    sent (s.exchanged K (commitFrame sock)).chip = sent s.chip ++ [pending s.chip] := by
  rw [← (hK.idle s.chip).1, ← (hK.idle s.chip).2]
  exact hK.commit_acked _ _ (commits_commitFrame sock) hack

/-- …and one that fails as refused transmits nothing. -/
theorem sent_declined {got : Except (Error E) (List UInt8)}
    (h : Says len8 cmdSendUdpData 1 (s.answered K (commitFrame sock)) got)
    (hnina : ackOf got = .error .nina) :
    sent (s.exchanged K (commitFrame sock)).chip = sent s.chip := by
  refine (hK.commit_declined _ _ (commits_commitFrame sock) ?_).trans (hK.idle s.chip).2
  cases h with
  | @payload payload rest hone hle =>
    refine .inr ⟨payload, rest, hone, ?_⟩
    rintro rfl
    exact absurd hnina nofun
  | refused href => exact .inl href
  | _ => exact absurd hnina nofun

end Posts

/-- **The start is refused and nobody notices**: it is answered by no parameter, over another
datagram than an empty one to the same destination, and the rest is acked. -/
def Misdirected (K : Chip C) (sock : Socket) (pending : C → Datagram) (dest : Ipv4 × UInt16)
    (data : List UInt8) (s : Link C) : Prop :=
  (∃ rest, ManyParams cmdStartClientTcp [] (K.begunBy sock dest s) rest) ∧
    pending s.chip ≠ ⟨some dest, []⟩ ∧ frameLength [.long [sock.raw], .long data] ≤ 256 ∧
    Acks cmdInsertDatabuf (K.insertedBy sock dest data s) ∧
    Acks cmdSendUdpData (K.committedBy sock dest data s)

/-- **What a send is to do**: `Ok` means that the datagram to `dest` was transmitted, and nothing
else; an error of a refused step, or before the commit, that nothing was. -/
structure Committed (sent : C → List Datagram) (dest : Ipv4 × UInt16) (data : List UInt8)
    (s s' : Link C) (r : Except (Error E) Unit) : Prop where
  ok : r = .ok () → sent s'.chip = sent s.chip ++ [⟨some dest, data⟩]
  error : ∀ e, r = .error e → e = .nina ∨ s'.log.length < s.log.length + 3 →
    sent s'.chip = sent s.chip

theorem committed_ok {sent : C → List Datagram} {dest : Ipv4 × UInt16} {data : List UInt8}
    {s s' : Link C} : Committed (E := E) sent dest data s s' (.ok ()) ↔
      sent s'.chip = sent s.chip ++ [⟨some dest, data⟩] :=
  ⟨fun h => h.ok rfl, fun h => ⟨fun _ => h, nofun⟩⟩

/-- **A send commits its datagram exactly unless its start is refused and nobody notices.**  On a
chip that posts datagrams, whatever is pending there and whatever it replies, a send does what it is
to do if and only if it is not `Misdirected`. -/
theorem udpSend_commits_iff {pending : C → Datagram} {sent : C → List Datagram}
    (hK : Posts K sock pending sent) (ip : Ipv4) (port : UInt16) (data : List UInt8) (s : Link C) :
    ∃ r s', K.Runs (Nina.udpSend (E := E) sock ip port data).run s r s' ∧
      (Committed sent (ip, port) data s s' r ↔ ¬ Misdirected K sock pending (ip, port) data s) := by
  obtain ⟨r, s', hrun, hcases⟩ := Chip.runs_udpSend (K := K) (E := E) sock ip port data s
  refine ⟨r, s', hrun, ?_⟩
  obtain ⟨rfl, ⟨e, rfl⟩, hmany⟩ | ⟨rfl, ⟨e, rfl⟩, hlong⟩ | ⟨rfl, ⟨e, rfl⟩, hfits, hack⟩ |
    ⟨rfl, ⟨params, rest, hmany, hle⟩, hfits, hack, got, rfl, hsays⟩ := hcases
  · refine iff_of_true ⟨nofun, fun _ _ _ => hK.sent_begun⟩ fun h => hmany ?_
    obtain ⟨rest, hnone⟩ := h.1
    exact ⟨[], rest, hnone, by decide⟩
  · refine iff_of_true ⟨nofun, fun _ _ _ => hK.sent_begun⟩ fun h => ?_
    exact absurd h.2.2.1 (Nat.not_le.mpr hlong)
  · exact iff_of_true ⟨nofun, fun _ _ _ => hK.sent_inserted hfits⟩ fun h => hack h.2.2.2.1
  have hack' := Chip.acks_iff hsays
  have hsent : sent (K.inserted sock (ip, port) data s).chip = sent s.chip := hK.sent_inserted hfits
  cases hgot : ackOf got with
  | error e =>
    refine iff_of_true ⟨nofun, ?_⟩ fun h => ?_
    · rintro e' he (rfl | hlog)
      · exact (hK.sent_declined hsays (hgot.trans he)).trans hsent
      · exact absurd hlog (by simp [Chip.inserted, Chip.begun])
    · exact absurd (hgot.symm.trans (hack'.mpr h.2.2.2.2)) nofun
  | ok u =>
    have hcommit := hack'.mp hgot
    rw [committed_ok, hK.sent_committed hcommit, hsent, hK.pending_inserted hfits hack,
      List.append_cancel_left_eq, List.cons.injEq, eq_self, and_true, Datagram.completed_iff,
      hK.pending_begun hmany]
    by_cases hnone : params = []
    · subst hnone
      rw [if_pos rfl]
      exact ⟨fun h hbad => hbad.2.1 h, fun h => not_not.mp fun hne =>
        h ⟨⟨rest, hmany⟩, hne, hfits, hack, hcommit⟩⟩
    · rw [if_neg hnone]
      refine iff_of_true rfl fun h => hnone ?_
      obtain ⟨rest', hnone'⟩ := h.1
      exact hnone'.unique hmany

/-- The empty datagram that a start asks for. -/
def startOf (request : List UInt8) : Datagram :=
  ⟨(readFrame allShort request).map fun r => (ip4 (r.params.getD 0 []),
    UInt16.ofNat (ofBeBytes ((r.params.getD 1 []).getD 0 0) ((r.params.getD 1 []).getD 1 0))), []⟩

theorem startOf_eq {dest : Ipv4 × UInt16} {request : List UInt8} (h : Begins sock dest request) :
    startOf request = ⟨some dest, []⟩ := by
  obtain ⟨pad, hread⟩ := h
  have hport : ofBeBytes ((beBytes dest.2.toNat).getD 0 0) ((beBytes dest.2.toNat).getD 1 0) =
      dest.2.toNat := ofBeBytes_beBytes dest.2.toNat_lt
  rw [startOf, hread, Option.map_some]
  simp only [List.getD_cons_zero, List.getD_cons_succ]
  rw [hport, ip4_toList, UInt16.ofNat_toNat]

/-- A reply without parameters. -/
def noParams (cmd : UInt8) : Bytes :=
  ([startCmd, cmd ||| replyFlag, 0, endCmd] : List UInt8) ++ₛ silence

theorem manyParams_noParams (cmd : UInt8) : ManyParams cmd [] (noParams cmd) silence :=
  ⟨by decide, List.forall_mem_nil _, [], by decide, List.forall_mem_nil _, rfl⟩

theorem manyParams_oneParam (cmd : UInt8) :
    ManyParams cmd [[1]] (oneParam len8 cmd [1]) silence :=
  ⟨by decide, by decide, [], by decide, List.forall_mem_nil _, rfl⟩

/-- A chip with one datagram, which accepts a start or refuses it.  It acks everything else. -/
def mailChip (starts : Bool) : Chip (Datagram × List Datagram) where
  idle c := c
  serve c request :=
    if opcode request = cmdStartClientTcp then
      if starts then ((startOf request, c.2), oneParam len8 cmdStartClientTcp [1])
      else (c, noParams cmdStartClientTcp)
    else if opcode request = cmdInsertDatabuf then
      ((⟨c.1.dest, c.1.payload ++ (((readFrame (asTold [len16, len16]) request).map
        fun r => r.params.getD 1 []).getD [])⟩, c.2), oneParam len8 cmdInsertDatabuf [1])
    else ((c.1, c.2 ++ [c.1]), oneParam len8 cmdSendUdpData [1])

section MailChip

variable {starts : Bool} {c : Datagram × List Datagram} {request : List UInt8}

theorem serve_begin {dest : Ipv4 × UInt16} (h : Begins sock dest request) :
    (mailChip starts).serve c request =
      if starts then ((⟨some dest, []⟩, c.2), oneParam len8 cmdStartClientTcp [1])
      else (c, noParams cmdStartClientTcp) := by
  obtain ⟨pad, hread⟩ := h
  have hop : cmdStartClientTcp = opcode request := (of_readFrame hread).1
  rw [mailChip, ← startOf_eq ⟨pad, hread⟩]
  exact if_pos hop.symm

theorem serve_insert {data : List UInt8} (h : Inserts sock data request) :
    (mailChip starts).serve c request =
      ((⟨c.1.dest, c.1.payload ++ data⟩, c.2), oneParam len8 cmdInsertDatabuf [1]) := by
  obtain ⟨pad, hread⟩ := h
  have hop : cmdInsertDatabuf = opcode request := (of_readFrame hread).1
  have hne : ¬ opcode request = cmdStartClientTcp := by rw [← hop]; decide
  rw [mailChip]
  dsimp only
  rw [if_neg hne, if_pos hop.symm, hread]
  rfl

theorem serve_commit (h : Commits sock request) :
    (mailChip starts).serve c request =
      ((c.1, c.2 ++ [c.1]), oneParam len8 cmdSendUdpData [1]) := by
  obtain ⟨pad, hread⟩ := h
  have hop : cmdSendUdpData = opcode request := (of_readFrame hread).1
  have hne : ¬ opcode request = cmdStartClientTcp := by rw [← hop]; decide
  have hne' : ¬ opcode request = cmdInsertDatabuf := by rw [← hop]; decide
  rw [mailChip]
  exact (if_neg hne).trans (if_neg hne')

end MailChip

theorem posts_mailChip (starts : Bool) (sock : Socket) :
    Posts (mailChip starts) sock Prod.fst Prod.snd where
  idle _ := ⟨rfl, rfl⟩
  begin_sent c dest request h := by
    rw [serve_begin h]
    cases starts
    · rfl
    · rfl
  begin_pending c dest request params rest h hmany := by
    rw [serve_begin h] at hmany ⊢
    cases starts
    · obtain rfl := (manyParams_noParams _).unique hmany
      rfl
    · obtain rfl := (manyParams_oneParam _).unique hmany
      rfl
  insert_sent c data request h := by rw [serve_insert h]
  insert_pending c data request h _ := by rw [serve_insert h]
  commit_acked c request h _ := by rw [serve_commit h]
  commit_declined c request h hdeclines := by
    rw [serve_commit h] at hdeclines
    exact absurd hdeclines (Acks.not_declines ⟨silence, oneParam_spec (by decide) _⟩)

/-- A start that is accepted drops what was pending. -/
theorem udpSend_commits_mailChip :
    ∃ s', (mailChip true).Runs (E := Unit) (Nina.udpSend ⟨0⟩ #v[10, 0, 0, 7] 53 [3]).run
        ⟨(⟨some (#v[10, 0, 0, 9], 7), [1, 2]⟩, []), [], [], silence⟩ (.ok ()) s' ∧
      s'.chip.2 = [⟨some (#v[10, 0, 0, 7], 53), [3]⟩] := by
  obtain ⟨r, s', hrun, hiff⟩ := udpSend_commits_iff (E := Unit) (posts_mailChip true ⟨0⟩)
    #v[10, 0, 0, 7] 53 [3] ⟨(⟨some (#v[10, 0, 0, 9], 7), [1, 2]⟩, []), [], [], silence⟩
  have hr : (((mailChip true).bus Unit).exec (Nina.udpSend ⟨0⟩ #v[10, 0, 0, 7] 53 [3]).run
      ⟨(⟨some (#v[10, 0, 0, 9], 7), [1, 2]⟩, []), [], [], silence⟩).1 = .done (.ok ()) := by
    decide +kernel
  obtain ⟨rfl, -⟩ := Chip.Runs.unique (Prod.ext hr rfl) hrun
  refine ⟨s', hrun, (hiff.mpr fun hbad => ?_).ok rfl⟩
  obtain ⟨rest, hnone⟩ := hbad.1
  exact absurd ((manyParams_oneParam _).unique hnone) nofun

/-- **The payload goes to where the last datagram was to go**, with what was inserted there. -/
theorem udpSend_misdirected_mailChip :
    Posts (mailChip false) ⟨0⟩ Prod.fst Prod.snd ∧
      ∃ s', (mailChip false).Runs (E := Unit) (Nina.udpSend ⟨0⟩ #v[10, 0, 0, 7] 53 [3]).run
          ⟨(⟨some (#v[10, 0, 0, 9], 7), [1, 2]⟩, []), [], [], silence⟩ (.ok ()) s' ∧
        s'.chip.2 = [⟨some (#v[10, 0, 0, 9], 7), [1, 2, 3]⟩] ∧
        ¬ Committed (E := Unit) Prod.snd (#v[10, 0, 0, 7], 53) [3]
          ⟨(⟨some (#v[10, 0, 0, 9], 7), [1, 2]⟩, []), [], [], silence⟩ s' (.ok ()) := by
  have hr : (((mailChip false).bus Unit).exec (Nina.udpSend ⟨0⟩ #v[10, 0, 0, 7] 53 [3]).run
      ⟨(⟨some (#v[10, 0, 0, 9], 7), [1, 2]⟩, []), [], [], silence⟩).1 = .done (.ok ()) := by
    decide +kernel
  have hsent : (((mailChip false).bus Unit).exec (Nina.udpSend ⟨0⟩ #v[10, 0, 0, 7] 53 [3]).run
      ⟨(⟨some (#v[10, 0, 0, 9], 7), [1, 2]⟩, []), [], [], silence⟩).2.chip.2 =
      [⟨some (#v[10, 0, 0, 9], 7), [1, 2, 3]⟩] := by decide +kernel
  refine ⟨posts_mailChip false ⟨0⟩, _, Prod.ext hr rfl, hsent, fun h => ?_⟩
  have hposted := h.ok rfl
  rw [hsent] at hposted
  exact absurd hposted (by decide)

end EmbassyNina
