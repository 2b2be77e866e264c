import EmbassyNina.Stack.History

/-!
# Stack/Slots — which connection a socket reaches

A socket is a bare slot number, and a chip hands a slot out again once its connection is gone.  A
`SlotTable` says which connection a slot holds, with what the driver's comments state of the chip:
`GET_SOCKET` yields a free slot, and only `START_CLIENT_TCP` puts a connection into the slot it
names.

The driver starts a slot only right after it was granted it (`StartsGranted`), so a slot keeps the
connection a socket was minted with until `GET_SOCKET` grants it again, and after that never holds
it again (`SlotTable.conn_of_follows`): `NinaSocket.own_connection_iff`.
-/

namespace EmbassyNina

open Machinery Prog

variable {C E : Type} {K : Chip C} {calls : ℕ → Call}

/-! ## Starts -/

/-- The slot a `START_CLIENT_TCP` names, as it is read: the parameter before the last. -/
def startedSlot (request : List UInt8) : Option UInt8 :=
  match readFrame allShort request with
  | some ⟨op, params, _⟩ =>
    if op = cmdStartClientTcp then
      match params.reverse with
      | _ :: [slot] :: _ => some slot
      | _ => none
    else none
  | none => none

theorem startedSlot_eq_none {request : List UInt8} (h : opcode request ≠ cmdStartClientTcp) :
    startedSlot request = none := by
  rw [startedSlot]
  split
  · rename_i op params pad hread
    rw [if_neg fun hop => h ((of_readFrame hread).1.symm.trans hop)]
  · rfl

/-- A start that fits is read as a start on its slot. -/
theorem startedSlot_startFrame {front : List (List UInt8)} (hcount : front.length + 2 < 256)
    (hfit : ∀ p ∈ front, p.length < 256) (sock : Socket) (mode : UInt8) :
    startedSlot (startFrame front sock mode) = some sock.raw := by
  have hfit' : ∀ p ∈ front ++ [[sock.raw], [mode]], p.length < 256 :=
    List.forall_mem_append.mpr ⟨hfit, by simp⟩
  have hread := readFrame_short (by simpa using hcount) hfit' cmdStartClientTcp
  have hrev : (front ++ [[sock.raw], [mode]]).reverse = [mode] :: [sock.raw] :: front.reverse := by
    simp
  rw [startedSlot, startFrame, hread]
  dsimp only
  rw [hrev]
  rfl

/-- **Every start is on the slot that the exchange before it was granted**, `last` being what was
granted just before the first. -/
def StartsGranted : Option UInt8 → List (Exchange C) → Prop
  | _, [] => True
  | last, ex :: log =>
    (∀ slot, startedSlot ex.request = some slot → last = some slot) ∧ StartsGranted ex.granted log

/-- What was granted at the end of a log. -/
def lastGranted : Option UInt8 → List (Exchange C) → Option UInt8
  | last, [] => last
  | _, ex :: log => lastGranted ex.granted log

theorem startsGranted_append {last : Option UInt8} {log log' : List (Exchange C)} :
    StartsGranted last (log ++ log') ↔
      StartsGranted last log ∧ StartsGranted (lastGranted last log) log' := by
  induction log generalizing last with
  | nil => exact (true_and _).symm.to_iff
  | cons ex log ih =>
    rw [List.cons_append, StartsGranted, StartsGranted, ih, and_assoc]
    rfl

theorem lastGranted_concat (last : Option UInt8) (log : List (Exchange C)) (ex : Exchange C) :
    lastGranted last (log ++ [ex]) = ex.granted := by
  induction log generalizing last with
  | nil => rfl
  | cons ex' log ih => exact ih _

/-- A log without a start. -/
theorem startsGranted_of_ne {log : List (Exchange C)}
    (h : ∀ ex ∈ log, opcode ex.request ≠ cmdStartClientTcp) (last : Option UInt8) :
    StartsGranted last log := by
  induction log generalizing last with
  | nil => trivial
  | cons ex log ih =>
    obtain ⟨hex, hlog⟩ := List.forall_mem_cons.mp h
    refine ⟨fun slot hslot => ?_, ih hlog _⟩
    rw [startedSlot_eq_none hex] at hslot
    exact absurd hslot nofun

/-- The hostname, if there is one, has a length that fits its byte. -/
def NameFits (name : Option (List UInt8)) : Prop := ∀ hostname ∈ name, hostname.length < 256

theorem Exchange.StartOf.startedSlot {name : Option (List UInt8)} {sock : Socket} {ex : Exchange C}
    (h : ex.StartOf name sock) (hname : NameFits name) :
    startedSlot ex.request = some sock.raw := by
  obtain ⟨ip, port, mode, hreq⟩ := h
  rw [hreq]
  refine startedSlot_startFrame ?_ ?_ sock mode
  · cases name <;> simp
  · refine List.forall_mem_append.mpr ⟨fun p hp => hname p (Option.mem_toList.mp hp), ?_⟩
    simp [beBytes]

/-- The start of a connect is on the slot just granted. -/
theorem startsGranted_pair {name : Option (List UInt8)} {g start : Exchange C} {sock : Socket}
    (hname : NameFits name) (hg : g.granted = some sock.raw) (hstart : start.StartOf name sock)
    (last : Option UInt8) : StartsGranted last [g, start] := by
  have hop : opcode g.request ≠ cmdStartClientTcp := by
    rw [Exchange.opcode_of_granted hg]
    decide
  refine ⟨fun slot hslot => ?_, fun slot hslot => ?_, trivial⟩
  · rw [startedSlot_eq_none hop] at hslot
    exact absurd hslot nofun
  · rw [hg, ← hslot, hstart.startedSlot hname]

theorem Attempt.startsGranted {name : Option (List UInt8)} {log : List (Exchange C)}
    {r : Except (Error E) Socket} (h : Attempt name log r) (hname : NameFits name)
    (last : Option UInt8) : StartsGranted last log := by
  have hpres : ∀ {pre : List (Exchange C)}, (∀ ex ∈ pre, ex.Unslotted) → StartsGranted last pre :=
    fun hpre => startsGranted_of_ne (fun ex hex => (hpre ex hex).opcode.2.1) last
  cases h with
  | refused e hpre => exact hpres hpre
  | unstarted e hpre hg hstart hbad =>
    exact startsGranted_append.mpr ⟨hpres hpre, startsGranted_pair hname hg hstart _⟩
  | started hpre hg hstart hok hpolls =>
    exact startsGranted_append.mpr ⟨startsGranted_append.mpr
      ⟨hpres hpre, startsGranted_pair hname hg hstart _⟩, startsGranted_of_ne hpolls.opcode_ne _⟩

/-- The hostname of a call has a length that fits its byte. -/
def Call.NameFits : Call → Prop
  | .connectHostname _ hostname _ => hostname.length < 256
  | _ => True

theorem Call.NameFits.hostname {call : Call} (h : call.NameFits) :
    EmbassyNina.NameFits call.hostname := by
  cases call with
  | connectHostname mode hostname port =>
    rintro _ ⟨⟩
    exact h
  | _ => exact nofun

/-- **In every section a start is on the slot just granted.** -/
theorem Call.Spec.startsGranted {call : Call} {log : List (Exchange C)}
    {p : Prog (halSig E) (Ret E)} (h : call.Spec log p) (hname : call.NameFits)
    (last : Option UInt8) : StartsGranted last log := by
  rcases h.attempt_or with ⟨r, -, hattempt⟩ | ⟨hoff, -⟩
  · exact hattempt.startsGranted hname.hostname last
  · exact startsGranted_of_ne (fun ex hex => (hoff ex hex).2.1) last

theorem Blocks.startsGranted {made : List (ℕ × Exchange C)} (h : Blocks E calls made)
    (hnames : ∀ i, (calls i).NameFits) : StartsGranted none (made.map Prod.snd) := by
  induction h with
  | nil => trivial
  | @block _ i _ _ _ hspec ih =>
    rw [List.map_append, map_snd_tagged]
    exact startsGranted_append.mpr ⟨ih, hspec.startsGranted (hnames i) _⟩

/-! ## Slot tables -/

/-- **What a slot holds.**  Connections are numbered as they are started; `GET_SOCKET` yields a slot
that holds none; only a start puts one into a slot, a new one into the slot it names.  Peers may
close at any time, and any request may empty slots. -/
structure SlotTable (K : Chip C) where
  conn : C → UInt8 → Option ℕ
  started : C → ℕ
  conn_lt : ∀ c slot id, conn c slot = some id → id < started c
  idle_conn : ∀ c slot id, conn (K.idle c) slot = some id → conn c slot = some id
  idle_started : ∀ c, started c ≤ started (K.idle c)
  granted_free : ∀ c slot,
    Exchange.granted ⟨c, openFrame, (K.serve c openFrame).2⟩ = some slot → conn c slot = none
  serve_conn : ∀ c request slot id, conn (K.serve c request).1 slot = some id →
    conn c slot = some id ∨ startedSlot request = some slot ∧ started c ≤ id
  serve_started : ∀ c request, started c ≤ started (K.serve c request).1

/-- The rest of what the comments state: a start occupies its slot, a stop frees it, and a state
poll frees the slots whose connection is down. -/
structure SlotTable.Documented (T : SlotTable K) (up : C → ℕ → Prop) : Prop where
  start : ∀ c request slot, startedSlot request = some slot →
    ∃ id, T.conn (K.serve c request).1 slot = some id
  stop : ∀ c sock, T.conn (K.serve c (stopFrame sock)).1 sock.raw = none
  poll : ∀ c sock slot id, T.conn c slot = some id →
    (T.conn (K.serve c (stateFrame sock)).1 slot = some id ↔ up c id)

namespace SlotTable

variable (T : SlotTable K)

/-- A grant finds its slot free, and leaves it so. -/
theorem free_of_granted {g : Exchange C} {slot : UInt8}
    (hreply : g.reply = (K.serve g.chip g.request).2) (hg : g.granted = some slot) :
    T.conn g.chip slot = none ∧ T.conn (K.serve g.chip g.request).1 slot = none := by
  have hfree : T.conn g.chip slot = none := by
    rcases g with ⟨chip, request, reply⟩
    obtain rfl := Exchange.request_of_granted hg
    dsimp only at hreply
    subst hreply
    exact T.granted_free chip slot hg
  refine ⟨hfree, Option.eq_none_iff_forall_ne_some.mpr fun id hid => ?_⟩
  rcases T.serve_conn _ _ _ _ hid with hold | ⟨hstart, -⟩
  · exact absurd (hfree.symm.trans hold) nofun
  · rw [startedSlot_eq_none (by rw [Exchange.opcode_of_granted hg]; decide)] at hstart
    exact absurd hstart nofun

/-- **What a slot holds in the end** it held before, if it was not granted meanwhile, or else is
newer. -/
theorem conn_of_follows {slot : UInt8} {c c' : C} {log : List (Exchange C)} {last : Option UInt8}
    (hfollows : K.Follows c log c') (hstarts : StartsGranted last log)
    (hlast : last = some slot → T.conn c slot = none) {id : ℕ} (hid : T.conn c' slot = some id) :
    (last = some slot ∨ ∃ g ∈ log, g.granted = some slot) ∧ T.started c ≤ id ∨
      (∀ g ∈ log, g.granted ≠ some slot) ∧ T.conn c slot = some id := by
  induction log generalizing c last with
  | nil =>
    obtain rfl : c' = c := hfollows
    exact .inr ⟨List.forall_mem_nil _, hid⟩
  | cons ex log ih =>
    obtain ⟨hchip, hreply, hfollows⟩ := hfollows
    have hmono : T.started c ≤ T.started ex.chip := by
      rw [hchip]
      exact T.idle_started c
    rcases ih hfollows hstarts.2 fun hg => (T.free_of_granted hreply hg).2 with
      ⟨hgranted, hle⟩ | ⟨hnot, hconn⟩
    · refine .inl ⟨.inr ?_, Nat.le_trans hmono (Nat.le_trans (T.serve_started _ _) hle)⟩
      rcases hgranted with hg | ⟨g, hmem, hg⟩
      · exact ⟨ex, List.mem_cons_self, hg⟩
      · exact ⟨g, List.mem_cons_of_mem _ hmem, hg⟩
    · rcases T.serve_conn _ _ _ _ hconn with hold | ⟨hstart, hle⟩
      · refine .inr ⟨List.forall_mem_cons.mpr ⟨fun hg => ?_, hnot⟩, ?_⟩
        · exact absurd ((T.free_of_granted hreply hg).1.symm.trans hold) nofun
        · rw [hchip] at hold
          exact T.idle_conn c slot id hold
      · exact .inl ⟨.inl (hstarts.1 slot hstart), Nat.le_trans hmono hle⟩

end SlotTable

/-! ## Sockets and their connections -/

/-- The slot of the socket was granted again after the mint, in a log that goes on from it. -/
def Minted.Regranted (m : Minted C) (log : List (Exchange C)) : Prop :=
  ∃ g ∈ log.drop m.line.log.length, g.granted = some m.sock.raw

open World in
/-- **A read or a write reaches the connection its socket was minted with exactly until
`GET_SOCKET` grants the slot again.**  Each of its exchanges is about its own slot, and if that slot
holds a connection, it is the one of the mint just if the slot was not granted since.  What a read
returns, one of its exchanges has brought. -/
theorem NinaSocket.own_connection_iff (T : SlotTable K) (hnames : ∀ i, (calls i).NameFits) (c : C)
    (acts : List Action) {i conn : ℕ} {sock : Socket} (hon : (calls i).on = some (conn, sock)) :
    (∀ pre ex, pre ++ [(i, ex)] <+: (run K calls c acts : World E C).made →
      Through sock ex.request ∧ ∃ m ∈ (run K calls c acts : World E C).minted,
        m.call = conn ∧ m.sock = sock ∧ m.line.log <+: pre.map Prod.snd ∧
        ∀ id, T.conn ex.chip sock.raw = some id →
          (T.conn m.line.chip sock.raw = some id ↔ ¬ m.Regranted (pre.map Prod.snd))) ∧
    ∀ bytes, (run K calls c acts : World E C).pool.task i = some (.ret (.bytes (.ok bytes))) →
      bytes ≠ [] →
        ∃ ex, (i, ex) ∈ (run K calls c acts : World E C).made ∧ ex.Brings sock bytes := by
  obtain ⟨hordered, hinv, hsockets⟩ := World.invariant (E := E) K calls c acts
  generalize (run K calls c acts : World E C) = w at *
  refine ⟨fun pre ex hpre => ?_, hsockets.brought i conn sock hon⟩
  obtain ⟨more, hblocks⟩ := hinv.blocks hordered
  obtain ⟨m, hm, hcall, rfl, hprior⟩ := hsockets.later i conn sock hon pre ex hpre
  refine ⟨hblocks.through hon (List.mem_append_left _ (hpre.subset (by simp))), m, hm, hcall, rfl,
    hprior, fun id hid => ?_⟩
  -- what happened on the line from the mint to the exchange
  obtain ⟨since, hsince⟩ := hprior
  obtain ⟨rest, hrest⟩ := hpre
  have hlog : w.link.log = m.line.log ++ (since ++ ex :: rest.map Prod.snd) := by
    rw [← hinv.log, ← hrest, ← List.append_assoc, hsince]
    simp
  obtain ⟨all, hall, hfollows⟩ := hsockets.since m hm
  obtain rfl := List.append_cancel_left (hall.symm.trans hlog)
  obtain ⟨c₁, hfollows, hchip, -⟩ := hfollows.of_append
  have hstarts : StartsGranted none since := by
    obtain ⟨log, x, hx, hstate⟩ := hsockets.polled m hm
    have hlast : lastGranted none m.line.log = none := by
      rw [hx, lastGranted_concat]
      exact Exchange.granted_eq_none (by rw [hstate, stateFrame, opcode_frame]; decide)
    have hall := hblocks.startsGranted hnames
    rw [List.map_append, hinv.log, hlog, startsGranted_append, startsGranted_append, hlast,
      startsGranted_append] at hall
    exact hall.1.2.1
  have hdrop : (pre.map Prod.snd).drop m.line.log.length = since := by
    rw [← hsince, List.drop_left]
  rw [Minted.Regranted, hdrop]
  have hnone : (none : Option UInt8) ≠ some m.sock.raw := (Option.some_ne_none _).symm
  rcases T.conn_of_follows hfollows hstarts (absurd · hnone)
    (T.idle_conn c₁ _ _ (hchip ▸ hid)) with ⟨hgranted, hle⟩ | ⟨hnot, hconn⟩
  · refine ⟨fun hmint => ?_, fun hno => ?_⟩
    · have := T.conn_lt _ _ _ hmint
      omega
    · rcases hgranted with hlast | hgranted
      · exact absurd hlast hnone
      · exact absurd hgranted hno
  · refine ⟨fun _ hregranted => ?_, fun _ => hconn⟩
    obtain ⟨g, hg, hslot⟩ := hregranted
    exact hnot g hg hslot

/-! ## A slot that is handed out again -/

/-- What slots hold, how many connections have been started, and after how many exchanges the peer
of the first one closes. -/
structure Slots where
  conn : UInt8 → Option ℕ
  started : ℕ
  left : ℕ
  conn_lt : ∀ slot id, conn slot = some id → id < started

namespace Slots

def up (c : Slots) (id : ℕ) : Prop := id ≠ 0 ∨ 0 < c.left

instance (c : Slots) (id : ℕ) : Decidable (c.up id) := inferInstanceAs (Decidable (_ ∨ _))

/-- Before anything is started. -/
def fresh (left : ℕ) : Slots := ⟨fun _ => none, 0, left, nofun⟩

def start (c : Slots) (slot : UInt8) : Slots where
  conn := Function.update c.conn slot (some c.started)
  started := c.started + 1
  left := c.left
  conn_lt slot' id h := by
    rw [Function.update_apply] at h
    split at h
    · obtain rfl := Option.some.inj h
      exact Nat.lt_succ_self _
    · exact Nat.lt_succ_of_lt (c.conn_lt slot' id h)

theorem start_self (c : Slots) (slot : UInt8) : (c.start slot).conn slot = some c.started :=
  Function.update_self ..

theorem start_of_ne (c : Slots) {slot slot' : UInt8} (h : slot' ≠ slot) :
    (c.start slot).conn slot' = c.conn slot' := Function.update_of_ne h ..

/-- Only what `keep` allows stays in its slot. -/
def free (c : Slots) (keep : UInt8 → ℕ → Bool) : Slots where
  conn slot := (c.conn slot).filter (keep slot)
  started := c.started
  left := c.left
  conn_lt slot id h := c.conn_lt slot id (Option.filter_eq_some_iff.mp h).1

end Slots

/-- A chip that hands out slot 0 whenever it is free, takes every byte and has none to give. -/
def reusingChip : Chip Slots where
  idle c := { c with left := c.left - 1 }
  serve c request :=
    match startedSlot request with
    | some slot => (c.start slot, oneParam len8 cmdStartClientTcp [1])
    | none =>
      if opcode request = cmdGetSocket then
        (c, oneParam len8 cmdGetSocket [if (c.conn 0).isNone then 0 else 0xFF])
      else if opcode request = cmdStopClientTcp then
        (c.free fun slot _ => slot ≠ request.getD 4 0, oneParam len8 cmdStopClientTcp [1])
      else if opcode request = cmdGetClientStateTcp then
        (c.free fun _ id => c.up id, oneParam len8 cmdGetClientStateTcp
          [if ((c.conn (request.getD 4 0)).filter fun id => c.up id).isSome then 4 else 0])
      else (c, if opcode request = cmdGetDatabufTcp then oneParam len16 cmdGetDatabufTcp []
        else oneParam len8 (opcode request) [1])

theorem serve_reusingChip_start {c : Slots} {request : List UInt8} {slot : UInt8}
    (h : startedSlot request = some slot) : (reusingChip.serve c request).1 = c.start slot := by
  simp only [reusingChip, h]

/-- Any other request at most frees slots. -/
theorem serve_reusingChip_other {c : Slots} {request : List UInt8}
    (h : startedSlot request = none) : (reusingChip.serve c request).1 =
      if opcode request = cmdStopClientTcp then c.free fun slot _ => slot ≠ request.getD 4 0
      else if opcode request = cmdGetClientStateTcp then c.free fun _ id => c.up id else c := by
  simp only [reusingChip, h]
  split
  · rename_i hop
    rw [hop]
    rfl
  · split
    · rfl
    · split <;> rfl

def reusingTable : SlotTable reusingChip where
  conn := Slots.conn
  started := Slots.started
  conn_lt := Slots.conn_lt
  idle_conn _ _ _ h := h
  idle_started _ := Nat.le_refl _
  granted_free c slot h := by
    have hstart : startedSlot openFrame = none := startedSlot_eq_none (by decide)
    have hreply : (reusingChip.serve c openFrame).2 =
        oneParam len8 cmdGetSocket [if (c.conn 0).isNone then 0 else 0xFF] := by
      simp only [reusingChip, hstart]
      rfl
    have hread : readOne len8 cmdGetSocket 1
        (oneParam len8 cmdGetSocket [if (c.conn 0).isNone then 0 else 0xFF]) =
        some [if (c.conn 0).isNone then 0 else 0xFF] :=
      readOne_eq_some.mpr ⟨Nat.le_refl 1, silence, oneParam_spec (by simp [len8]) _⟩
    rw [hreply, Exchange.granted, if_pos rfl, hread, Option.bind_some] at h
    rcases hconn : c.conn 0 with _ | id
    · rw [hconn] at h
      obtain rfl : slot = 0 := (Option.some.inj h).symm
      exact hconn
    · rw [hconn] at h
      exact absurd h nofun
  serve_conn c request slot id h := by
    rcases hstart : startedSlot request with _ | slot'
    · rw [serve_reusingChip_other hstart] at h
      refine .inl ?_
      split at h
      · exact (Option.filter_eq_some_iff.mp h).1
      · split at h
        · exact (Option.filter_eq_some_iff.mp h).1
        · exact h
    · rw [serve_reusingChip_start hstart] at h
      by_cases hslot : slot = slot'
      · subst hslot
        obtain rfl := Option.some.inj ((c.start_self slot).symm.trans h)
        exact .inr ⟨rfl, Nat.le_refl _⟩
      · exact .inl ((c.start_of_ne hslot).symm.trans h)
  serve_started c request := by
    rcases hstart : startedSlot request with _ | slot'
    · rw [serve_reusingChip_other hstart]
      split
      · exact Nat.le_refl _
      · split <;> exact Nat.le_refl _
    · rw [serve_reusingChip_start hstart]
      exact Nat.le_succ _

theorem documented_reusingTable : reusingTable.Documented Slots.up where
  start c request slot h := by
    refine ⟨c.started, ?_⟩
    change (reusingChip.serve c request).1.conn slot = _
    rw [serve_reusingChip_start h]
    exact c.start_self slot
  stop c sock := by
    have hop : opcode (stopFrame sock) = cmdStopClientTcp := rfl
    change (reusingChip.serve c (stopFrame sock)).1.conn sock.raw = none
    rw [serve_reusingChip_other (startedSlot_eq_none (opcode_stopFrame_ne sock)), if_pos hop]
    exact Option.filter_eq_none_iff.mpr fun id _ h => of_decide_eq_true h rfl
  poll c sock slot id h := by
    have hop : opcode (stateFrame sock) = cmdGetClientStateTcp := rfl
    change c.conn slot = some id at h
    change (reusingChip.serve c (stateFrame sock)).1.conn slot = some id ↔ _
    rw [serve_reusingChip_other (startedSlot_eq_none (opcode_stateFrame_ne sock)),
      if_neg (by rw [hop]; decide), if_pos hop]
    change (c.conn slot).filter _ = some id ↔ _
    rw [h, Option.filter_eq_some_iff]
    exact ⟨fun hup => of_decide_eq_true hup.2, fun hup => ⟨rfl, decide_eq_true hup⟩⟩

/-- A connect, a read, another connect, and a write on the first socket. -/
def staleCalls : ℕ → Call
  | 0 => .connect tcpMode (.v4 #v[10, 0, 0, 1] 80)
  | 1 => .read 0 ⟨0⟩ 1 [0]
  | 2 => .connect tcpMode (.v4 #v[10, 0, 0, 2] 80)
  | _ => .write 0 ⟨0⟩ [1]

/-- Each call is run to its end before the next one starts. -/
def inTurn (calls : List ℕ) : List Action :=
  calls.flatMap fun i => .start i :: List.replicate 80 (.turn i)

/-- A connect, and a write on its socket. -/
def ownWorld : World Unit Slots :=
  World.run reusingChip staleCalls (Slots.fresh 9) (inTurn [0, 3])

/-- While its slot is its own, a socket's writes reach the connection it was minted with. -/
theorem NinaSocket.own_connection_ownWorld :
    ∃ pre ex, pre ++ [(3, ex)] <+: ownWorld.made ∧ ex.chip.conn 0 = some 0 ∧
      ∃ m ∈ ownWorld.minted, m.line.chip.conn 0 = some 0 ∧ ¬ m.Regranted (pre.map Prod.snd) := by
  have hnames : ∀ i, (staleCalls i).NameFits := by
    rintro (_ | _ | _ | i) <;> trivial
  obtain ⟨⟨i, ex⟩, hmem, rfl, hconn⟩ :
      ∃ x ∈ ownWorld.made, x.1 = 3 ∧ x.2.chip.conn 0 = some 0 := by decide +kernel
  have hmint : ∀ m ∈ ownWorld.minted, m.line.chip.conn 0 = some 0 := by decide +kernel
  obtain ⟨pre, rest, hsplit⟩ := List.append_of_mem hmem
  have hpre : pre ++ [(3, ex)] <+: ownWorld.made :=
    ⟨rest, (List.append_cons pre _ rest).symm.trans hsplit.symm⟩
  obtain ⟨-, m, hm, -, -, -, hiff⟩ := (NinaSocket.own_connection_iff (E := Unit) reusingTable hnames
    (Slots.fresh 9) (inTurn [0, 3]) (i := 3) rfl).1 pre ex hpre
  exact ⟨pre, ex, hpre, hconn, m, hm, hmint m hm, (hiff 0 hconn).mp (hmint m hm)⟩

/-- The peer of the first connection closes, a read on it polls the state and finds the end of the
stream, a second connect is granted its slot, and a write is made on the first socket. -/
def staleWorld : World Unit Slots :=
  World.run reusingChip staleCalls (Slots.fresh 4) (inTurn [0, 1, 2, 3])

/-- **Once its slot is handed out again, a socket's writes go into another's connection.** -/
theorem NinaSocket.bleeds_staleWorld : reusingTable.Documented Slots.up ∧
    (∃ m ∈ staleWorld.minted, m.call = 0 ∧ m.sock = ⟨0⟩ ∧
      reusingTable.conn m.line.chip 0 = some 0) ∧
    ∃ x ∈ staleWorld.made, x.1 = 3 ∧ x.2.request = sendFrame ⟨0⟩ [1] ∧
      reusingTable.conn x.2.chip 0 = some 1 := by
  refine ⟨documented_reusingTable, ?_, ?_⟩
  · decide +kernel
  · decide +kernel

end EmbassyNina
