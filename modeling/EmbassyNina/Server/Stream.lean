import EmbassyNina.Server.Boot

/-!
# Server/Stream — what the server answers is decided by the client

A client sends a stream, and the chip hands it over in pieces of its own.  The drain puts the pieces
together again (`Drains.stream_eq`), and ends no earlier than the line unless it runs out of time or
bytes.  So once a line has ended the answer is that to the whole stream, however the stream was cut
(`main_answers`).
-/

namespace EmbassyNina

open Machinery Prog

variable {C E : Type} {K : Chip C}

namespace Server

/-- **The chip holds the stream of a client**, sent or still to come: a receive takes off its front
what it brings, and neither a poll nor the time between exchanges changes it. -/
structure Holds (stream : C → List UInt8) (K : Chip C) (client : Socket) : Prop where
  idle : ∀ c, stream (K.idle c) = stream c
  avail : ∀ c, stream (K.serve c (availFrame client)).1 = stream c
  recv : ∀ c room, 0 < room →
    stream c =
      (readOne len16 cmdGetDatabufTcp room (K.serve c (recvFrame client room)).2).getD [] ++
        stream (K.serve c (recvFrame client room)).1

variable {stream : C → List UInt8} {client : Socket}

theorem Holds.poll (hK : Holds stream K client) {c c' : C} {ex : Exchange C}
    {log : List (Exchange C)} (h : K.Follows c (ex :: log) c')
    (hpoll : ex.request = availFrame client) :
    ∃ c₁, stream c₁ = stream c ∧ K.Follows c₁ log c' := by
  obtain ⟨hchip, -, hrest⟩ := h
  exact ⟨_, by rw [hpoll, hK.avail, hchip, hK.idle], hrest⟩

theorem Holds.take (hK : Holds stream K client) {c c' : C} {ex : Exchange C}
    {log : List (Exchange C)} {room : ℕ} (h : K.Follows c (ex :: log) c') (hroom : 0 < room)
    (hrecv : ex.request = recvFrame client room) :
    ∃ c₁, stream c = ex.bytes room ++ stream c₁ ∧ K.Follows c₁ log c' := by
  obtain ⟨hchip, hreply, hrest⟩ := h
  refine ⟨_, ?_, hrest⟩
  rw [Exchange.bytes, hreply, hrecv, ← hK.recv _ _ hroom, hchip, hK.idle]

/-- **A drain puts the pieces together.** -/
theorem Drains.stream_eq (hK : Holds stream K client) {size : ℕ} {got req : List UInt8}
    {log : List (Exchange C)} (h : Drains size client got log req) {c c' : C}
    (hfollows : K.Follows c log c') : got ++ stream c = req ++ stream c' := by
  induction h generalizing c with
  | stop =>
    obtain rfl : c' = c := hfollows
    rfl
  | wait _ hpoll _ _ ih =>
    obtain ⟨c₁, hsame, hrest⟩ := hK.poll hfollows hpoll
    rw [← hsame, ih hrest]
  | @nothing got poll recv hroom hpoll _ hrecv hbytes =>
    obtain ⟨c₁, hsame, hrest⟩ := hK.poll hfollows hpoll
    obtain ⟨c₂, htake, hend⟩ := hK.take hrest (Nat.sub_pos_of_lt hroom) hrecv
    obtain rfl : c' = c₂ := hend
    rw [← hsame, htake, hbytes, List.nil_append]
  | @line got poll recv hroom hpoll _ hrecv _ _ =>
    obtain ⟨c₁, hsame, hrest⟩ := hK.poll hfollows hpoll
    obtain ⟨c₂, htake, hend⟩ := hK.take hrest (Nat.sub_pos_of_lt hroom) hrecv
    obtain rfl : c' = c₂ := hend
    rw [← hsame, htake, List.append_assoc]
  | @more got req poll recv log hroom hpoll _ hrecv _ _ _ ih =>
    obtain ⟨c₁, hsame, hrest⟩ := hK.poll hfollows hpoll
    obtain ⟨c₂, htake, hend⟩ := hK.take hrest (Nat.sub_pos_of_lt hroom) hrecv
    rw [← hsame, htake, ← List.append_assoc, ih hend]

/-- The chip once a client is accepted. -/
def Visit.accepted (K : Chip C) (v : Visit C) : C := (K.serve v.poll.chip v.poll.request).1

section Runs

variable [Heapless]

/-- **What a client is answered**: the request is a part of its stream from the front, 256 bytes at
most, and once its line has ended the answer is that to the whole stream. -/
theorem Visit.Serves.answers {v : Visit C} (hv : v.Serves) (hK : Holds stream K v.client) {c : C}
    (h : K.Follows (v.accepted K) v.rest c) :
    v.req <+: stream (v.accepted K) ∧ v.req.length ≤ 256 ∧
      (13 ∈ v.req → v.handled = handle (extractPath (stream (v.accepted K))) v.before) := by
  rw [Visit.rest, List.append_assoc, List.append_assoc] at h
  obtain ⟨c₁, hreads, -⟩ := h.of_append
  have hstream := hv.reads.stream_eq hK hreads
  rw [List.nil_append] at hstream
  refine ⟨⟨_, hstream.symm⟩, (hv.reads.length_le (Nat.zero_le _)).2, fun hline => ?_⟩
  rw [hstream, extractPath_append hline, Visit.handled]

/-- A session leads the chip through each of its visits. -/
theorem Session.follows {listen : Socket} {s s' : LedState} {ts : List (Turn C)}
    (hsession : Session listen s ts s') {c c' : C} (h : K.Follows c (ts.flatMap Turn.log) c')
    {v : Visit C} (hv : .visit v ∈ ts) : ∃ c, K.Follows (v.accepted K) v.rest c := by
  obtain ⟨before, after, rfl⟩ := List.append_of_mem hv
  rw [List.flatMap_append, List.flatMap_cons] at h
  obtain ⟨c₁, -, h⟩ := h.of_append
  obtain ⟨c₂, h, -⟩ := h.of_append
  exact ⟨c₂, h.2.2⟩

/-- **The server answers what the client asks**, not how it comes.  In a run of it, on any chip that
holds the streams of its clients, the request of every visit is a part of the client's stream from
the front; if a carriage return is among it, the answer is that to the whole stream, wherever the
chip has cut it. -/
theorem main_answers {stream : Socket → C → List UInt8}
    (hK : ∀ client, Holds (stream client) K client)
    {fuel n : ℕ} {s s' : Link C × Stream' ℕ} {mem : Memory} (hs : s.1.window = [])
    (h : K.Ends (main (E := E) fuel n) s (.done (some mem)) s') :
    ∃ (b : Boot C) (listen : Socket) (ts : List (Turn C)), ts.length = n ∧
      s'.1.log = s.1.log ++ (b.log ++ ts.flatMap Turn.log) ∧ Session listen {} ts mem.state ∧
      ∀ v, .visit v ∈ ts →
        v.req <+: stream v.client (v.accepted K) ∧ v.req.length ≤ 256 ∧
        (13 ∈ v.req →
          v.handled = handle (extractPath (stream v.client (v.accepted K))) v.before) := by
  obtain ⟨b, listen, ts, hn, hlog, -, hsession⟩ := exists_session hs h
  obtain ⟨c, -, hturns⟩ := (h.follows hlog).of_append
  refine ⟨b, listen, ts, hn, hlog, hsession, fun v hv => ?_⟩
  obtain ⟨c', hfollows⟩ := hsession.follows hturns hv
  exact (hsession.serves hv).answers (hK v.client) hfollows

end Runs

/-- The chip with a client on slot 1, whose stream it hands over a byte at a time. -/
def drippingChip : Chip (List UInt8) where
  idle c := c
  serve c request :=
    if opcode request = cmdGetDatabufTcp then
      (c.tail, oneParam len16 cmdGetDatabufTcp (c.take 1))
    else (c, (requestChip.serve () request).2)

theorem holds_drippingChip (client : Socket) : Holds id drippingChip client where
  idle _ := rfl
  avail _ := rfl
  recv c room hroom := by
    have hread : readOne len16 cmdGetDatabufTcp room (oneParam len16 cmdGetDatabufTcp (c.take 1)) =
        some (c.take 1) := by
      have hle : (c.take 1).length ≤ 1 := List.length_take_le 1 c
      have hbound : (c.take 1).length < len16.bound := hle.trans_lt (by decide)
      exact readOne_eq_some.mpr ⟨hle.trans hroom, silence, oneParam_spec hbound _⟩
    change c = (readOne len16 cmdGetDatabufTcp room
      (oneParam len16 cmdGetDatabufTcp (c.take 1))).getD [] ++ c.tail
    rw [hread]
    cases c <;> rfl

section Piecewise

attribute [local instance] HString.piecewise

/-- A request that comes a byte at a time is answered as if it came at once. -/
theorem main_answers_drippingChip : ∃ s',
    drippingChip.Ends (E := Unit) (main 100 1)
      (⟨ascii "GET /b/1 HTTP/1.0\r\n\r\n", [], [], silence⟩, Stream'.const 0)
      (.done (some ⟨⟨false, false, true⟩,
        ascii "GET /b/1 HTTP/1.0\r\n" ++ List.replicate 237 0⟩)) s' ∧
    ∃ ts : List (Turn (List UInt8)), ts.length = 1 ∧ ∀ v, .visit v ∈ ts → 13 ∈ v.req →
      v.handled = handle (extractPath (v.accepted drippingChip)) v.before := by
  have hr : ((drippingChip.clocked Unit).exec (main 100 1)
      (⟨ascii "GET /b/1 HTTP/1.0\r\n\r\n", [], [], silence⟩, Stream'.const 0)).1 =
      .done (some ⟨⟨false, false, true⟩,
        ascii "GET /b/1 HTTP/1.0\r\n" ++ List.replicate 237 0⟩) := by
    decide +kernel
  obtain ⟨s', hends⟩ := Chip.exists_ends hr
  obtain ⟨-, -, ts, hn, -, -, hvisits⟩ :=
    main_answers (E := Unit) holds_drippingChip rfl hends
  exact ⟨s', hends, ts, hn, fun v hv => (hvisits v hv).2.2⟩

end Piecewise

end Server

end EmbassyNina
