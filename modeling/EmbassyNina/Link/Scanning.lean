import EmbassyNina.Driver.Scan
import EmbassyNina.Link.Chip
import EmbassyNina.Link.Grammar

/-!
# Link/Scanning — scan results come out as they came in

The driver packs the SSIDs of a reply by their count, and the iterator unpacks them by what is left
of the buffer.  `ScanIter.Holds` keeps the two in step: an iterator that holds a list of SSIDs
yields its head and then holds its tail, and one that holds none yields nothing any more.
-/

namespace EmbassyNina

open Machinery Prog

/-! ## The iterator -/

/-- What stands between two offsets. -/
theorem slice_append (before mid after : Buf) :
    slice (before ++ mid ++ after) before.length (before.length + mid.length) = .ok mid := by
  have hrange : before.length ≤ before.length + mid.length ∧
      before.length + mid.length ≤ (before ++ mid ++ after).length := by
    rw [List.length_append, List.length_append]
    omega
  rw [slice, if_pos hrange, ← List.length_append, List.take_left, List.drop_left]

namespace ScanIter

/-- `it` is to yield `ssids`. -/
structure Holds (it : ScanIter) (ssids : List (List UInt8)) : Prop where
  buf : it.buf = encodeAll (ssids.map .short)
  rem : it.rem.toNat = ssids.length
  short : ∀ p ∈ ssids, p.length < 256

/-- An iterator that holds nothing stays as it is… -/
theorem next_nil {it : ScanIter} (h : it.Holds []) : it.next = .ok (none, it) :=
  if_pos (.inr (List.isEmpty_iff.mpr h.buf))

/-- …and one that holds an SSID slices it off. -/
theorem next_cons {it : ScanIter} {p : List UInt8} {ssids : List (List UInt8)}
    (h : it.Holds (p :: ssids)) : ∃ it', it.next = .ok (some p, it') ∧ it'.Holds ssids := by
  obtain ⟨buf, rem⟩ := it
  obtain ⟨rfl, hrem, hshort⟩ := h
  obtain ⟨hp, hssids⟩ := List.forall_mem_cons.mp hshort
  have hone : 1 ≤ rem.toNat := by
    rw [hrem, List.length_cons]
    omega
  have hlen : (UInt8.ofNat p.length).toNat = p.length := toNat_ofNat_of_lt hp
  have hbuf : encodeAll ((p :: ssids).map .short) =
      [UInt8.ofNat p.length] ++ p ++ encodeAll (ssids.map .short) := by
    rw [List.map_cons, encodeAll_cons, encode_short]
    rfl
  have hfit : ¬ 1 + p.length >
      ([UInt8.ofNat p.length] ++ p ++ encodeAll (ssids.map .short)).length := by
    rw [List.length_append, List.length_append, List.length_singleton]
    omega
  have hssid := slice_append [UInt8.ofNat p.length] p (encodeAll (ssids.map .short))
  have hrest := slice_append ([UInt8.ofNat p.length] ++ p) (encodeAll (ssids.map .short)) []
  rw [List.append_nil, List.length_append, List.length_singleton] at hrest
  rw [List.length_singleton] at hssid
  refine ⟨⟨encodeAll (ssids.map .short), rem - 1⟩, ?_, rfl, ?_, hssids⟩
  · have hcond : ¬ (rem = 0 ∨ (encodeAll ((p :: ssids).map .short)).isEmpty) := by
      rintro (rfl | h)
      · exact absurd hone (by decide)
      · exact absurd (List.isEmpty_iff.mp h) (List.cons_ne_nil _ _)
    rw [next, if_neg hcond, hbuf]
    change (if 1 + (UInt8.ofNat p.length).toNat > _ then _ else _) = _
    rw [hlen, if_neg hfit, hssid, List.length_append, List.length_append, List.length_singleton,
      hrest]
    rfl
  · have hle : 1 ≤ rem := UInt8.le_iff_toNat_le.mpr hone
    rw [UInt8.toNat_sub_of_le _ _ hle, hrem]
    rfl

theorem nexts_succ {it it' : ScanIter} {item : Option (List UInt8)}
    (h : it.next = .ok (item, it')) (k : ℕ) : it.nexts (k + 1) = (it'.nexts k).map (item :: ·) := by
  rw [nexts, h]
  change (it'.nexts k).bind (fun items => .ok (item :: items)) = _
  cases it'.nexts k <;> rfl

/-- **The calls of `next`** yield what the iterator holds, in order, and then nothing. -/
theorem nexts_eq {it : ScanIter} {ssids : List (List UInt8)} (h : it.Holds ssids) (k : ℕ) :
    it.nexts k = .ok ((List.range k).map (ssids[·]?)) := by
  induction k generalizing it ssids with
  | zero => rfl
  | succ k ih =>
    rw [List.range_succ_eq_map, List.map_cons, List.map_map]
    rcases ssids with _ | ⟨p, ssids⟩
    · rw [nexts_succ (next_nil h), ih h]
      rfl
    · obtain ⟨it', hnext, h'⟩ := next_cons h
      rw [nexts_succ hnext, ih h']
      rfl

end ScanIter

/-! ## The scan -/

variable {C E : Type} {K : Chip C}

theorem Chip.Runs.sliceTo (front back : Buf) (s : Link C) :
    K.Runs ((BufM.sliceTo (E := E) front.length).run (front ++ back)) s
      (.ok front, front ++ back) s := by
  have hle : front.length ≤ (front ++ back).length := by
    rw [List.length_append]
    omega
  change K.Runs (if front.length ≤ (front ++ back).length then _ else panicked) s _ s
  rw [if_pos hle, List.take_left]
  exact .ret _

/-- **What a scan packs** is what the reply to its second request carries. -/
theorem Chip.runs_scanNetworks (settleMs : ℕ) (scratch : Buf) (s : Link C) :
    ∃ r out' s', K.Runs ((Nina.scanNetworks (E := E) settleMs).run scratch) s (r, out') s' ∧
      ∀ scan, r = .ok scan → ∃ ssids rest started results,
        s'.log = s.log ++ [started, results] ∧
        started.request = frame cmdStartScanNetworks [] ∧
        results.request = frame cmdScanNetworks [] ∧
        ManyParams cmdScanNetworks ssids results.reply rest ∧
        scan = ⟨encodeAll (ssids.map .short), UInt8.ofNat ssids.length⟩ := by
  obtain ⟨ack, hack, -⟩ := runs_reply (K := K) (E := E) cmdStartScanNetworks 1 s
    (frame cmdStartScanNetworks [])
  rcases ack with e | ack
  · refine ⟨.error e, scratch, _, Runs.okB ((runs_sendCmd _ _ _).lift _) (hack.lift _).errorB, ?_⟩
    simp
  obtain ⟨⟨r, out'⟩, st, hread⟩ := recvCmdIntoInner_done (E := E) cmdScanNetworks scratch
    ((s.exchanged K (frame cmdStartScanNetworks [])).answered K (frame cmdScanNetworks []))
  have hrecv := runs_received (K := K)
    (s := (s.exchanged K (frame cmdStartScanNetworks [])).served K (frame cmdScanNetworks []))
    (doesB_recvCmdIntoInner cmdScanNetworks) rfl hread
  -- all that is left once the second request is out
  have hrun : ∀ {r s'}, K.Runs ((recvCmdInto (E := E) cmdScanNetworks >>= fun nw =>
      BufM.sliceTo nw.2 >>= fun buf => pure (⟨buf, nw.1⟩ : Nina.Scan)).run scratch)
      ((s.exchanged K (frame cmdStartScanNetworks [])).served K (frame cmdScanNetworks [])) r s' →
      K.Runs ((Nina.scanNetworks (E := E) settleMs).run scratch) s r s' := fun h =>
    Runs.okB ((runs_sendCmd _ _ _).lift _) (Runs.okB (hack.lift _)
      (Runs.okB ((Runs.timer settleMs).lift _) (Runs.okB ((runs_sendCmd _ _ _).lift _) h)))
  rcases r with e | ⟨n, written⟩
  · exact ⟨.error e, out', _, hrun hrecv.errorB, by simp⟩
  obtain ⟨ssids, hmany, hfit, hr, rfl⟩ := recvCmdIntoInner_ok_iff.mp hread
  obtain ⟨rfl, rfl⟩ := Prod.mk.inj hr
  refine ⟨_, _, _, hrun (hrecv.okB ((Runs.sliceTo _ _ _).okB (.ret _))), ?_⟩
  rintro scan h
  obtain rfl := Except.ok.inj h
  exact ⟨ssids, st, _, _, List.append_assoc _ [_] [_], rfl, rfl, hmany, rfl⟩

/-- **Scan results come out as they came in.**  A scan that succeeds has read one list of SSIDs from
the reply to `SCAN_NETWORKS`; calling `next` on its iterator any number of times never slices out of
range and yields these SSIDs in order and then nothing, and the scan's length is their number. -/
theorem scanNetworks_yields (K : Chip C) (settleMs : ℕ) (scratch : Buf) (s : Link C) :
    ∃ r out' s', K.Runs ((Nina.scanNetworks (E := E) settleMs).run scratch) s (r, out') s' ∧
      ∀ scan, r = .ok scan → ∃ ssids rest started results,
        s'.log = s.log ++ [started, results] ∧
        results.request = frame cmdScanNetworks [] ∧
        ManyParams cmdScanNetworks ssids results.reply rest ∧
        (∀ ssids' rest', ManyParams cmdScanNetworks ssids' results.reply rest' → ssids' = ssids) ∧
        (∀ k, scan.iter.nexts k = .ok ((List.range k).map (ssids[·]?))) ∧
        scan.len = ssids.length ∧
        (scan.isEmpty ↔
          ∀ k items, scan.iter.nexts k = .ok items → ∀ item ∈ items, item = none) := by
  obtain ⟨r, out', s', hrun, hscan⟩ := Chip.runs_scanNetworks (K := K) (E := E) settleMs scratch s
  refine ⟨r, out', s', hrun, fun scan hr => ?_⟩
  obtain ⟨ssids, rest, started, results, hlog, -, hreq, hmany, rfl⟩ := hscan scan hr
  have hn : (UInt8.ofNat ssids.length).toNat = ssids.length := toNat_ofNat_of_lt hmany.1
  have hholds : (Nina.Scan.iter ⟨encodeAll (ssids.map .short), UInt8.ofNat ssids.length⟩).Holds
      ssids := ⟨rfl, hn, hmany.2.1⟩
  have hnexts := ScanIter.nexts_eq hholds
  refine ⟨ssids, rest, started, results, hlog, hreq, hmany, fun _ _ h' => hmany.unique h', hnexts,
    hn, ?_⟩
  rw [Nina.Scan.isEmpty, decide_eq_true_iff]
  constructor
  · intro h0 k items hitems item hitem
    obtain rfl : ssids = [] :=
      List.length_eq_zero_iff.mp (hn.symm.trans (congrArg UInt8.toNat h0))
    rw [hnexts] at hitems
    obtain rfl := Except.ok.inj hitems
    obtain ⟨i, -, rfl⟩ := List.mem_map.mp hitem
    rfl
  · intro hall
    have h0 := hall 1 _ (hnexts 1) _ List.mem_cons_self
    obtain rfl : ssids = [] := List.eq_nil_of_length_eq_zero
      (Nat.eq_zero_of_le_zero (List.getElem?_eq_none_iff.mp h0))
    rfl

/-- A chip that has found the networks `ssids`. -/
def scanChip (ssids : List (List UInt8)) : Chip Unit where
  idle c := c
  serve c request := (c,
    if opcode request = cmdStartScanNetworks then oneParam len8 cmdStartScanNetworks [1]
    else manyParams cmdScanNetworks ssids)

/-- Two networks without a name and two of one name, and names made of the bytes that frame a
reply. -/
theorem scanNetworks_yields_scanChip :
    ∃ scan out' s', (scanChip [[], [startCmd], [startCmd], [], [endCmd, errCmd]]).Runs (E := Unit)
        ((Nina.scanNetworks 2000).run (List.replicate 16 0)) ⟨(), [], [], silence⟩
        (.ok scan, out') s' ∧
      scan.iter.nexts 7 = .ok [some [], some [startCmd], some [startCmd], some [],
        some [endCmd, errCmd], none, none] ∧ scan.len = 5 := by
  obtain ⟨r, out', s', hrun, hyields⟩ := scanNetworks_yields (E := Unit)
    (scanChip [[], [startCmd], [startCmd], [], [endCmd, errCmd]]) 2000 (List.replicate 16 0)
    ⟨(), [], [], silence⟩
  have hdone : (((scanChip [[], [startCmd], [startCmd], [], [endCmd, errCmd]]).bus Unit).exec
      ((Nina.scanNetworks 2000).run (List.replicate 16 0)) ⟨(), [], [], silence⟩).1 =
        .done (.ok ⟨[0, 1, 224, 1, 224, 0, 2, 238, 239], 5⟩,
          [0, 1, 224, 1, 224, 0, 2, 238, 239, 0, 0, 0, 0, 0, 0, 0]) := by
    decide +kernel
  have hr := Outcome.done.inj ((congrArg Prod.fst hrun).symm.trans hdone)
  obtain ⟨rfl, rfl⟩ := Prod.mk.inj hr
  obtain ⟨ssids, rest, started, results, hlog, hreq, -, huniq, hnexts, hlen, -⟩ := hyields _ rfl
  have hfollows : Chip.Follows _ () [started, results] _ := hrun.follows hlog
  have hreply := hfollows.reply results (by simp)
  rw [hreq] at hreply
  have hmany : ManyParams cmdScanNetworks [[], [startCmd], [startCmd], [], [endCmd, errCmd]]
      results.reply silence := hreply ▸ manyParams_spec (by decide) (by decide) _
  obtain rfl := huniq _ _ hmany
  exact ⟨_, _, s', hrun, hnexts 7, hlen⟩

end EmbassyNina
