import EmbassyNina.Exchange.Bracket
import EmbassyNina.Link.Chip
import EmbassyNina.Link.Grammar
import Mathlib.Data.List.GetD

/-!
# Link/Structured — replies of several parameters, and the values in them

`ipConfig` walks the packed parameters with a cursor; `udpRemote` reads them at fixed offsets and
counts bytes, not parameters.  Either way a value is read off exactly the lists of parameters that
have the documented shape (`run_decodeIpConfig`, `run_decodeUdpRemote`), whatever lies in the
scratch buffer behind them, and also if nothing does.
-/

namespace EmbassyNina

open Machinery Prog

variable {C E : Type} {α : Type} {K : Chip C}

/-! ## Looking at a packed buffer -/

theorem run_getIdx {i : ℕ} {out : Buf} (h : i < out.length) :
    (BufM.getIdx (E := E) i).run out = .ret (.ok (out.getD i 0), out) := if_pos h

/-- A step that only looks. -/
theorem run_bind_ret {β : Type} {x : BufM E α} {f : α → BufM E β} {a : α} {out : Buf}
    (hx : x.run out = .ret (.ok a, out)) : (x >>= f).run out = (f a).run out := by
  rw [BufM.run_bind, hx]
  rfl

theorem run_bind_error {β : Type} {x : BufM E α} {f : α → BufM E β} {e : Error E} {out : Buf}
    (hx : x.run out = .ret (.error e, out)) : (x >>= f).run out = .ret (.error e, out) := by
  rw [BufM.run_bind, hx]
  rfl

/-- **The closure `take_v4`** takes a parameter of four bytes at the cursor, and no other. -/
theorem run_takeV4 {p : List UInt8} (hp : p.length < 256) (done rest : Buf) {written : ℕ}
    (hw : done.length + (1 + p.length) ≤ written) :
    (Nina.takeV4 (E := E) written done.length).run
        (done ++ ((Param.short p).encode ++ rest)) =
      .ret (if p.length = 4 then .ok (ip4 p, done.length + 5) else .error .framing,
        done ++ ((Param.short p).encode ++ rest)) := by
  have hlt : done.length < (done ++ ((Param.short p).encode ++ rest)).length := by
    rw [encode_short, List.length_append, List.cons_append, List.length_cons]
    omega
  have hlen : ((done ++ ((Param.short p).encode ++ rest)).getD done.length 0).toNat = p.length := by
    rw [List.getD_append_right _ _ _ _ (Nat.le_refl _), Nat.sub_self, encode_short]
    exact toNat_ofNat_of_lt hp
  rw [Nina.takeV4, run_bind_ret (run_failIf_neg (by omega) _ _), run_bind_ret (run_getIdx hlt),
    hlen]
  by_cases h4 : p.length = 4
  · have hat : ∀ i < 4, done.length + 1 + i < (done ++ ((Param.short p).encode ++ rest)).length ∧
        (done ++ ((Param.short p).encode ++ rest)).getD (done.length + 1 + i) 0 = p.getD i 0 := by
      intro i hi
      have hlong : done.length ≤ done.length + 1 + i := by omega
      have hi' : i < p.length := by omega
      refine ⟨?_, ?_⟩
      · rw [encode_short, List.length_append, List.length_append, List.length_cons]
        omega
      · rw [List.getD_append_right _ _ _ _ hlong, encode_short, List.cons_append,
          show done.length + 1 + i - done.length = i + 1 by omega, List.getD_cons_succ,
          List.getD_append _ _ _ _ hi']
    rw [run_bind_ret (run_failIf_neg (by omega) _ _), if_pos h4,
      run_bind_ret (run_getIdx (hat 0 (by decide)).1),
      run_bind_ret (run_getIdx (hat 1 (by decide)).1),
      run_bind_ret (run_getIdx (hat 2 (by decide)).1),
      run_bind_ret (run_getIdx (hat 3 (by decide)).1), BufM.run_pure]
    rw [ip4, ← (hat 0 (by decide)).2, ← (hat 1 (by decide)).2, ← (hat 2 (by decide)).2,
      ← (hat 3 (by decide)).2]
  · rw [run_bind_error (run_failIf_pos (.inl h4) _ _), if_neg h4]

theorem length_append_short (done : Buf) (p : List UInt8) :
    (done ++ (Param.short p).encode).length = done.length + (1 + p.length) := by
  rw [encode_short, List.length_append, List.length_cons, Nat.add_comm p.length]

/-- The walk goes on past a parameter of four bytes, and ends at any other. -/
theorem run_takeV4_bind {p : List UInt8} (hp : p.length < 256) (done rest : Buf) {written : ℕ}
    (hw : done.length + (1 + p.length) ≤ written) (f : Ipv4 × ℕ → BufM E α) :
    (Nina.takeV4 written done.length >>= f).run (done ++ ((Param.short p).encode ++ rest)) =
      if p.length = 4 then
        (f (ip4 p, (done ++ (Param.short p).encode).length)).run
          ((done ++ (Param.short p).encode) ++ rest)
      else .ret (.error .framing, done ++ ((Param.short p).encode ++ rest)) := by
  have hrun := run_takeV4 (E := E) hp done rest hw
  by_cases h4 : p.length = 4
  · have hcur : done.length + 5 = (done ++ (Param.short p).encode).length := by
      rw [length_append_short, h4]
    rw [if_pos h4] at hrun ⊢
    rw [run_bind_ret hrun, hcur, List.append_assoc]
  · rw [if_neg h4] at hrun ⊢
    exact run_bind_error hrun

/-! ## What is decoded -/

/-- The part of `ipConfig` that follows its receive. -/
def decodeIpConfig (nParams : UInt8) (written : ℕ) : BufM E Nina.IpConfig := do
  BufM.failIf (nParams < 3) .framing
  let (ip, cur) ← Nina.takeV4 written 0
  let (subnet, cur) ← Nina.takeV4 written cur
  let (gateway, _) ← Nina.takeV4 written cur
  return ⟨ip, subnet, gateway⟩

theorem ipConfig_eq : Nina.ipConfig (E := E) = (do
    sendCmd cmdGetIpaddr [[dummy]]
    let (c, _) ← withBuf 32 (do
      let (nParams, written) ← recvCmdInto cmdGetIpaddr
      decodeIpConfig nParams written)
    return c) := rfl

/-- The configuration in a reply of these parameters. -/
def ipConfigOf : List (List UInt8) → Except (Error E) Nina.IpConfig
  | ip :: subnet :: gateway :: _ =>
    if ip.length = 4 ∧ subnet.length = 4 ∧ gateway.length = 4 then
      .ok ⟨ip4 ip, ip4 subnet, ip4 gateway⟩
    else .error .framing
  | _ => .error .framing

theorem ipConfigOf_eq_ok {params : List (List UInt8)} {c : Nina.IpConfig} :
    ipConfigOf (E := E) params = .ok c ↔
      ∃ more, params = c.ip.toList :: c.subnet.toList :: c.gateway.toList :: more := by
  constructor
  · intro h
    obtain _ | ⟨ip, _ | ⟨subnet, _ | ⟨gateway, more⟩⟩⟩ := params
    · exact absurd h nofun
    · exact absurd h nofun
    · exact absurd h nofun
    rw [ipConfigOf] at h
    split at h
    · rename_i hlen
      obtain rfl := Except.ok.inj h
      rw [toList_ip4 hlen.1, toList_ip4 hlen.2.1, toList_ip4 hlen.2.2]
      exact ⟨more, rfl⟩
    · exact absurd h nofun
  · rintro ⟨more, rfl⟩
    rw [ipConfigOf, if_pos ⟨c.ip.size_toArray, c.subnet.size_toArray, c.gateway.size_toArray⟩,
      ip4_toList, ip4_toList, ip4_toList]

theorem run_decodeIpConfig_few (nParams : UInt8) (h : nParams < 3) (written : ℕ) (out : Buf) :
    (decodeIpConfig (E := E) nParams written).run out = .ret (.error .framing, out) := by
  rw [decodeIpConfig, run_bind_error (run_failIf_pos h _ _)]

theorem length_three (ip subnet gateway : List UInt8) (more : List (List UInt8)) :
    (encodeAll ((ip :: subnet :: gateway :: more).map .short)).length =
      (1 + ip.length) + ((1 + subnet.length) + ((1 + gateway.length) +
        (encodeAll (more.map .short)).length)) := by
  simp only [List.map_cons, encodeAll_cons, List.length_append, encode_short, List.length_cons]
  omega

/-- **`ipConfig` decodes the parameters** that the reply filled the scratch buffer with, whatever
lies behind them. -/
theorem run_decodeIpConfig {params : List (List UInt8)} (hcount : params.length < 256)
    (hlt : ∀ p ∈ params, p.length < 256) (unfilled : Buf) :
    (decodeIpConfig (E := E) (UInt8.ofNat params.length)
        (encodeAll (params.map .short)).length).run (encodeAll (params.map .short) ++ unfilled) =
      .ret (ipConfigOf params, encodeAll (params.map .short) ++ unfilled) := by
  obtain _ | ⟨ip, _ | ⟨subnet, _ | ⟨gateway, more⟩⟩⟩ := params
  · exact run_decodeIpConfig_few 0 (by decide) _ _
  · exact run_decodeIpConfig_few 1 (by decide) _ _
  · exact run_decodeIpConfig_few 2 (by decide) _ _
  have hmany : ¬ UInt8.ofNat (ip :: subnet :: gateway :: more).length < 3 := by
    rw [UInt8.lt_iff_toNat_lt, toNat_ofNat_of_lt hcount]
    exact Nat.not_lt.mpr (Nat.le_add_left 3 more.length)
  obtain ⟨hip, hlt⟩ := List.forall_mem_cons.mp hlt
  obtain ⟨hsubnet, hlt⟩ := List.forall_mem_cons.mp hlt
  obtain ⟨hgateway, -⟩ := List.forall_mem_cons.mp hlt
  have hwritten := length_three ip subnet gateway more
  have hbuf : encodeAll ((ip :: subnet :: gateway :: more).map .short) ++ unfilled =
      [] ++ ((Param.short ip).encode ++ ((Param.short subnet).encode ++
        ((Param.short gateway).encode ++ (encodeAll (more.map .short) ++ unfilled)))) := by
    simp only [List.map_cons, encodeAll_cons, List.append_assoc, List.nil_append]
  rw [decodeIpConfig, run_bind_ret (run_failIf_neg hmany _ _), hbuf, ipConfigOf]
  refine (run_takeV4_bind hip [] _ (by rw [hwritten, List.length_nil]; omega) _).trans ?_
  by_cases h1 : ip.length = 4
  · rw [if_pos h1]
    refine (run_takeV4_bind hsubnet _ _
      (by rw [hwritten, length_append_short, List.length_nil]; omega) _).trans ?_
    by_cases h2 : subnet.length = 4
    · rw [if_pos h2]
      refine (run_takeV4_bind hgateway _ _
        (by rw [hwritten, length_append_short, length_append_short, List.length_nil]; omega)
        _).trans ?_
      by_cases h3 : gateway.length = 4
      · rw [if_pos h3, if_pos ⟨h1, h2, h3⟩]
        simp only [List.append_assoc]
        rfl
      · rw [if_neg h3, if_neg fun h => h3 h.2.2]
        simp only [List.append_assoc]
    · rw [if_neg h2, if_neg fun h => h2 h.2.1]
      simp only [List.append_assoc]
  · rw [if_neg h1, if_neg fun h => h1 h.1]

/-- The part of `udpRemote` that follows its receive. -/
def decodeUdpRemote (written : ℕ) : BufM E (Ipv4 × ℕ) := do
  BufM.failIf (written < 1 + 4 + 1 + 2) .framing
  BufM.failIf ((← BufM.getIdx 0) ≠ 4) .framing
  let ip := ip4 [← BufM.getIdx 1, ← BufM.getIdx 2, ← BufM.getIdx 3, ← BufM.getIdx 4]
  BufM.failIf ((← BufM.getIdx 5) ≠ 2) .framing
  return (ip, ofBeBytes (← BufM.getIdx 6) (← BufM.getIdx 7))

theorem udpRemote_eq (sock : Socket) : Nina.udpRemote (E := E) sock = (do
    sendCmd cmdGetRemoteData [[sock.raw]]
    let (r, _) ← withBuf 16 (do
      let (_, written) ← recvCmdInto cmdGetRemoteData
      decodeUdpRemote written)
    return r) := rfl

/-- The peer in a reply of these parameters. -/
def remoteOf : List (List UInt8) → Except (Error E) (Ipv4 × ℕ)
  | ip :: port :: _ =>
    if ip.length = 4 ∧ port.length = 2 then
      .ok (ip4 ip, ofBeBytes (port.getD 0 0) (port.getD 1 0))
    else .error .framing
  | _ => .error .framing

theorem remoteOf_eq_ok {params : List (List UInt8)} {ip : Ipv4} {port : ℕ} :
    remoteOf (E := E) params = .ok (ip, port) ↔
      port < 65536 ∧ ∃ more, params = ip.toList :: beBytes port :: more := by
  constructor
  · intro h
    obtain _ | ⟨p, _ | ⟨q, more⟩⟩ := params
    · exact absurd h nofun
    · exact absurd h nofun
    rw [remoteOf] at h
    split at h
    · rename_i hlen
      obtain ⟨rfl, rfl⟩ := Prod.mk.inj (Except.ok.inj h)
      obtain ⟨hi, lo, rfl⟩ := List.length_eq_two.mp hlen.2
      have hhi := hi.toNat_lt
      have hlo := lo.toNat_lt
      have hport : beBytes (ofBeBytes ([hi, lo].getD 0 0) ([hi, lo].getD 1 0)) = [hi, lo] :=
        beBytes_ofBeBytes hi lo
      rw [toList_ip4 hlen.1, hport]
      refine ⟨?_, more, rfl⟩
      change hi.toNat * 256 + lo.toNat < 65536
      omega
    · exact absurd h nofun
  · rintro ⟨hport, more, rfl⟩
    rw [remoteOf, if_pos ⟨ip.size_toArray, rfl⟩, ip4_toList]
    exact congrArg (fun port => Except.ok (ip, port)) (ofBeBytes_beBytes hport)

/-- Eight bytes are enough to look at. -/
theorem run_decodeUdpRemote_long {written : ℕ} {out : Buf} (hw : 8 ≤ written)
    (hout : 8 ≤ out.length) :
    (decodeUdpRemote (E := E) written).run out =
      .ret (if out.getD 0 0 = 4 ∧ out.getD 5 0 = 2 then
          .ok (#v[out.getD 1 0, out.getD 2 0, out.getD 3 0, out.getD 4 0],
            ofBeBytes (out.getD 6 0) (out.getD 7 0))
        else .error .framing, out) := by
  have hat : ∀ i < 8, (BufM.getIdx (E := E) i).run out = .ret (.ok (out.getD i 0), out) :=
    fun i hi => run_getIdx (Nat.lt_of_lt_of_le hi hout)
  rw [decodeUdpRemote, run_bind_ret (run_failIf_neg (by omega) _ _),
    run_bind_ret (hat 0 (by decide))]
  by_cases h4 : out.getD 0 0 = 4
  · rw [run_bind_ret (run_failIf_neg (not_not.mpr h4) _ _), run_bind_ret (hat 1 (by decide)),
      run_bind_ret (hat 2 (by decide)), run_bind_ret (hat 3 (by decide)),
      run_bind_ret (hat 4 (by decide)), run_bind_ret (hat 5 (by decide))]
    by_cases h2 : out.getD 5 0 = 2
    · rw [run_bind_ret (run_failIf_neg (not_not.mpr h2) _ _), run_bind_ret (hat 6 (by decide)),
        run_bind_ret (hat 7 (by decide)), if_pos ⟨h4, h2⟩]
      rfl
    · rw [run_bind_error (run_failIf_pos h2 _ _), if_neg fun h => h2 h.2]
  · rw [run_bind_error (run_failIf_pos h4 _ _), if_neg fun h => h4 h.1]

/-- **`udpRemote` decodes the parameters** that the reply filled the scratch buffer with: counting
bytes is enough. -/
theorem run_decodeUdpRemote {params : List (List UInt8)} (hlt : ∀ p ∈ params, p.length < 256)
    (unfilled : Buf) :
    (decodeUdpRemote (E := E) (encodeAll (params.map .short)).length).run
        (encodeAll (params.map .short) ++ unfilled) =
      .ret (remoteOf params, encodeAll (params.map .short) ++ unfilled) := by
  have hbyte : ∀ {n k : ℕ}, n < 256 → k < 256 → (UInt8.ofNat n = UInt8.ofNat k ↔ n = k) :=
    fun hn hk => ⟨fun h => by rw [← toNat_ofNat_of_lt hn, h, toNat_ofNat_of_lt hk],
      fun h => by rw [h]⟩
  by_cases h8 : (encodeAll (params.map .short)).length < 8
  · rw [decodeUdpRemote, run_bind_error (run_failIf_pos h8 _ _)]
    obtain _ | ⟨p, _ | ⟨q, more⟩⟩ := params
    · rfl
    · rfl
    · rw [remoteOf, if_neg]
      rintro ⟨hp, hq⟩
      simp only [List.map_cons, encodeAll_cons, List.length_append, encode_short,
        List.length_cons] at h8
      omega
  rw [run_decodeUdpRemote_long (Nat.le_of_not_lt h8) (by rw [List.length_append]; omega)]
  obtain _ | ⟨p, more⟩ := params
  · exact absurd (by decide) h8
  obtain ⟨hp, hmore⟩ := List.forall_mem_cons.mp hlt
  have hfirst : (encodeAll ((p :: more).map .short) ++ unfilled).getD 0 0 =
      UInt8.ofNat p.length := rfl
  by_cases h4 : p.length = 4
  · obtain ⟨a, b, c, d, rfl⟩ := List.length_eq_four.mp h4
    obtain _ | ⟨q, more⟩ := more
    · exact absurd (by decide : 5 < 8) h8
    obtain ⟨hq, -⟩ := List.forall_mem_cons.mp hmore
    have hsecond : (encodeAll (([a, b, c, d] :: q :: more).map .short) ++ unfilled).getD 5 0 =
        UInt8.ofNat q.length := rfl
    by_cases h2 : q.length = 2
    · obtain ⟨hi, lo, rfl⟩ := List.length_eq_two.mp h2
      rfl
    · have hno : UInt8.ofNat q.length ≠ 2 := fun h => h2 ((hbyte (k := 2) hq (by decide)).mp h)
      rw [hsecond, if_neg fun h => hno h.2, remoteOf, if_neg fun h => h2 h.2]
  · have hno : UInt8.ofNat p.length ≠ 4 := fun h => h4 ((hbyte (k := 4) hp (by decide)).mp h)
    rw [hfirst, if_neg fun h => hno h.1]
    obtain _ | ⟨q, more⟩ := more
    · rfl
    · rw [remoteOf, if_neg fun h => h4 h.1]

/-! ## The exchanges -/

/-- **One exchange**, decoded: short parameters out, packed parameters of at most `n` bytes back. -/
theorem Chip.runs_decoded {cmd : UInt8} {params : List (List UInt8)} {n : ℕ}
    {of : List (List UInt8) → Except (Error E) α} (decode : UInt8 → ℕ → BufM E α)
    (hdecode : ∀ ps : List (List UInt8), ps.length < 256 → (∀ p ∈ ps, p.length < 256) →
      ∀ unfilled, (decode (UInt8.ofNat ps.length) (encodeAll (ps.map .short)).length).run
        (encodeAll (ps.map .short) ++ unfilled) =
          .ret (of ps, encodeAll (ps.map .short) ++ unfilled)) (s : Link C) :
    ∃ r, K.Runs (do
        sendCmd cmd params
        let (a, _) ← withBuf n (do
          let (nParams, written) ← recvCmdInto cmd
          decode nParams written)
        return a : Nina E α).run s r (s.exchanged K (frame cmd (params.map .short))) ∧
      ∀ a, r = .ok a ↔ ∃ ps rest,
        ManyParams cmd ps (s.answered K (frame cmd (params.map .short))) rest ∧
        (encodeAll (ps.map .short)).length ≤ n ∧ of ps = .ok a := by
  have hout : (List.replicate n (0 : UInt8)).length = n := List.length_replicate
  obtain ⟨⟨r, out⟩, st, hr⟩ := recvCmdIntoInner_done (E := E) cmd (List.replicate n 0)
    (s.answered K (frame cmd (params.map .short)))
  have hrun := runs_received (K := K) (s := s.served K (frame cmd (params.map .short)))
    (doesB_recvCmdIntoInner cmd) hout hr
  cases r with
  | error e =>
    refine ⟨.error e, (runs_sendCmd cmd params s).ok (hrun.errorB.withBuf.error), fun a => ?_⟩
    refine ⟨nofun, ?_⟩
    rintro ⟨ps, rest, hmany, hle, -⟩
    have hok := (recvCmdIntoInner_ok_iff (E := E)).mpr ⟨ps, hmany, hout.symm ▸ hle, rfl, rfl⟩
    exact absurd (hr.symm.trans hok) nofun
  | ok nw =>
    obtain ⟨ps, hmany, hle, rfl, rfl⟩ := recvCmdIntoInner_ok_iff.mp hr
    have hret := hdecode ps hmany.1 hmany.2.1
      ((List.replicate n 0).drop (encodeAll (ps.map .short)).length)
    have hbody := (hrun.okB (f := fun (nParams, written) => decode nParams written)
      (by rw [hret]; exact .ret _)).withBuf
    refine ⟨of ps, ?_, fun a => ⟨fun h => ⟨ps, st, hmany, hle.trans hout.le, h⟩, ?_⟩⟩
    · cases hof : of ps with
      | error e =>
        rw [hof] at hbody
        exact (runs_sendCmd cmd params s).ok hbody.error
      | ok a =>
        rw [hof] at hbody
        exact (runs_sendCmd cmd params s).ok (hbody.ok (.ret _))
    · rintro ⟨ps', rest, hmany', -, h⟩
      rwa [hmany.unique hmany'] at h

def ipFrame : List UInt8 := frame cmdGetIpaddr [.short [dummy]]

def remoteFrame (sock : Socket) : List UInt8 := frame cmdGetRemoteData [.short [sock.raw]]

theorem Chip.runs_ipConfig (s : Link C) :
    ∃ r, K.Runs (Nina.ipConfig (E := E)).run s r (s.exchanged K ipFrame) ∧
      ∀ c, r = .ok c ↔ ∃ params rest, ManyParams cmdGetIpaddr params (s.answered K ipFrame) rest ∧
        (encodeAll (params.map .short)).length ≤ 32 ∧ ipConfigOf (E := E) params = .ok c := by
  rw [ipConfig_eq]
  exact runs_decoded decodeIpConfig (fun _ hcount hlt => run_decodeIpConfig hcount hlt) s

theorem Chip.runs_udpRemote (sock : Socket) (s : Link C) :
    ∃ r, K.Runs (Nina.udpRemote (E := E) sock).run s r (s.exchanged K (remoteFrame sock)) ∧
      ∀ a, r = .ok a ↔ ∃ params rest,
        ManyParams cmdGetRemoteData params (s.answered K (remoteFrame sock)) rest ∧
        (encodeAll (params.map .short)).length ≤ 16 ∧ remoteOf (E := E) params = .ok a := by
  rw [udpRemote_eq]
  exact runs_decoded (fun _ => decodeUdpRemote) (fun _ _ hlt => run_decodeUdpRemote hlt) s

/-- **Structured replies are read exactly when they have the documented shape.**  Whatever the
stream, `ipConfig` returns the first three parameters of the reply if they are of four bytes each,
and `udpRemote` the first two if they are of four and two bytes, as long as all of them fit the
scratch buffer; otherwise they fail.  Neither panics, whatever fails on the bus, and what they
decode does not depend on what lies behind the bytes that the reply filled, or on there being
anything. -/
theorem structured_replies (K : Chip C) (s : Link C) (sock : Socket) :
    (∃ r, K.Runs (Nina.ipConfig (E := E)).run s r (s.exchanged K ipFrame) ∧
      ∀ c, r = .ok c ↔ ∃ params rest, ManyParams cmdGetIpaddr params (s.answered K ipFrame) rest ∧
        (encodeAll (params.map .short)).length ≤ 32 ∧
        ∃ more, params = c.ip.toList :: c.subnet.toList :: c.gateway.toList :: more) ∧
    (∃ r, K.Runs (Nina.udpRemote (E := E) sock).run s r (s.exchanged K (remoteFrame sock)) ∧
      ∀ ip port, r = .ok (ip, port) ↔ ∃ params rest,
        ManyParams cmdGetRemoteData params (s.answered K (remoteFrame sock)) rest ∧
        (encodeAll (params.map .short)).length ≤ 16 ∧
        port < 65536 ∧ ∃ more, params = ip.toList :: beBytes port :: more) ∧
    (∀ tr q, Steps (Nina.ipConfig (E := E)).run tr q → q ≠ .halt .panic) ∧
    (∀ tr q, Steps (Nina.udpRemote (E := E) sock).run tr q → q ≠ .halt .panic) ∧
    ∀ params : List (List UInt8), params.length < 256 → (∀ p ∈ params, p.length < 256) →
      (∃ r, ∀ unfilled, (decodeIpConfig (E := E) (UInt8.ofNat params.length)
          (encodeAll (params.map .short)).length).run (encodeAll (params.map .short) ++ unfilled) =
        .ret (r, encodeAll (params.map .short) ++ unfilled)) ∧
      ∃ r, ∀ unfilled, (decodeUdpRemote (E := E) (encodeAll (params.map .short)).length).run
          (encodeAll (params.map .short) ++ unfilled) =
        .ret (r, encodeAll (params.map .short) ++ unfilled) := by
  refine ⟨?_, ?_, fun tr q h => ?_, fun tr q h => ?_, fun params hcount hlt => ⟨?_, ?_⟩⟩
  · obtain ⟨r, hrun, hr⟩ := Chip.runs_ipConfig (K := K) (E := E) s
    exact ⟨r, hrun, fun c => by simp only [hr, ipConfigOf_eq_ok]⟩
  · obtain ⟨r, hrun, hr⟩ := Chip.runs_udpRemote (K := K) (E := E) sock s
    exact ⟨r, hrun, fun ip port => by simp only [hr, remoteOf_eq_ok]⟩
  · exact Nina.exchanges_ipConfig.ne_panic h
  · exact (Nina.exchanges_udpRemote sock).ne_panic h
  · exact ⟨_, run_decodeIpConfig hcount hlt⟩
  · exact ⟨_, run_decodeUdpRemote hlt⟩

/-- A chip that answers everything with the parameters `params`. -/
def paramsChip (params : List (List UInt8)) : Chip Unit where
  idle c := c
  serve c request := (c, manyParams (opcode request) params)

/-- An address, its mask and its gateway, and a parameter that nobody looks at. -/
theorem structured_replies_paramsChip :
    (∃ s', (paramsChip [[10, 0, 0, 7], [255, 255, 255, 0], [10, 0, 0, 1], [9]]).Runs (E := Unit)
        Nina.ipConfig.run ⟨(), [], [], silence⟩
        (.ok ⟨#v[10, 0, 0, 7], #v[255, 255, 255, 0], #v[10, 0, 0, 1]⟩) s') ∧
      ∃ r, ∀ unfilled, (decodeUdpRemote (E := Unit) (encodeAll [.short [1], .short [2]]).length).run
          (encodeAll [.short [1], .short [2]] ++ unfilled) =
        .ret (r, encodeAll [.short [1], .short [2]] ++ unfilled) := by
  obtain ⟨⟨r, hrun, hr⟩, -, -, -, hfilled⟩ := structured_replies (E := Unit)
    (paramsChip [[10, 0, 0, 7], [255, 255, 255, 0], [10, 0, 0, 1], [9]]) ⟨(), [], [], silence⟩ ⟨0⟩
  have hmany : ManyParams (opcode ipFrame) [[10, 0, 0, 7], [255, 255, 255, 0], [10, 0, 0, 1], [9]]
      (manyParams (opcode ipFrame) _) silence := manyParams_spec (by decide) (by decide) _
  rw [(hr ⟨#v[10, 0, 0, 7], #v[255, 255, 255, 0], #v[10, 0, 0, 1]⟩).mpr
    ⟨_, silence, hmany, by decide, _, rfl⟩] at hrun
  exact ⟨⟨_, hrun⟩, (hfilled [[1], [2]] (by decide) (by decide)).2⟩

end EmbassyNina
