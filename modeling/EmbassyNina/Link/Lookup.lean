import EmbassyNina.Link.Chip

/-!
# Link/Lookup — the exchanges of a lookup, and the chip's one resolver

A lookup is one `REQ_HOST_BY_NAME` and polls for its answer; the address it returns is that of its
last poll (`LookupLog`, `runs_dnsLookup`).  Neither request nor poll says whose it is: a `Resolver`
is a chip that answers the polls by the latest request.  Whatever happened before, a lookup whose
exchanges follow one another gets an address of its own hostname (`Resolver.of_lookup`).
-/

namespace EmbassyNina

open Machinery

variable {C E : Type} {K : Chip C}

def lookupFrame (hostname : List UInt8) : List UInt8 := frame cmdReqHostByName [.short hostname]

def answerFrame : List UInt8 := frame cmdGetHostByName []

/-- The address a poll brings: the reply's one parameter, if it has four bytes, not all zero. -/
def Exchange.address (ex : Exchange C) : Option Ipv4 :=
  (readOne len8 cmdGetHostByName 4 ex.reply).bind fun payload =>
    if payload.length = 4 ∧ payload ≠ [0, 0, 0, 0] then some (ip4 payload) else none

/-! ## The log of a lookup -/

/-- The polls of a lookup, and what they come to: the address of the last one, or an error. -/
inductive Answers : List (Exchange C) → Except (Error E) Ipv4 → Prop
  | none (e : Error E) : Answers [] (.error e)
  | failed {ex : Exchange C} (e : Error E) (hreq : ex.request = answerFrame) :
    Answers [ex] (.error e)
  | found {ex : Exchange C} {ip : Ipv4} (hreq : ex.request = answerFrame)
      (hip : ex.address = some ip) : Answers [ex] (.ok ip)
  | again {ex : Exchange C} {log : List (Exchange C)} {r : Except (Error E) Ipv4}
      (hreq : ex.request = answerFrame) (h : Answers log r) : Answers (ex :: log) r

/-- **The log of a lookup** of `hostname`: the request, and the polls. -/
def LookupLog (hostname : List UInt8) (log : List (Exchange C)) (r : Except (Error E) Ipv4) :
    Prop :=
  ∃ req polls, log = req :: polls ∧ req.request = lookupFrame hostname ∧ Answers polls r

/-- What a turn of `dnsLookup` makes of its reply. -/
def onAnswer : Except (Error E) (ℕ × Buf) → Nina E (Option Ipv4)
  | .ok (4, ip) => if ip ≠ [0, 0, 0, 0] then return some (ip4 ip) else return none
  | .ok _ => return none
  | .error .framing | .error .nina => return none
  | .error e => throw e

/-- One turn of the polling loop of `dnsLookup`. -/
def lookupTurn : Nina E (Option Ipv4) := do
  Nina.timer 100
  sendCmdNoParams cmdGetHostByName
  onAnswer (← attempt (withBuf 4 (recvCmdOneParam cmdGetHostByName)))

theorem dnsLookup_eq (hostname : List UInt8) :
    Nina.dnsLookup (E := E) hostname = (do
      let ack ← Nina.byteCommand cmdReqHostByName [hostname]
      Nina.failIf (ack ≠ 1) .nina
      repeatFor 40 lookupTurn (throw .timeout)) := rfl

theorem onAnswer_short {k : ℕ} (hk : k ≠ 4) (buf : Buf) :
    (onAnswer (E := E) (.ok (k, buf))).run = .ret (.ok none) := by
  unfold onAnswer
  split
  · rename_i heq
    exact absurd (Prod.mk.inj (Except.ok.inj heq)).1 hk
  all_goals first | rfl | contradiction

/-- It makes no call, and takes an address of four bytes that are not all zero. -/
theorem onAnswer_run (r : Except (Error E) (ℕ × Buf)) :
    ∃ o, (onAnswer r).run = .ret o ∧
      ∀ ip, o = .ok (some ip) → ∃ buf, r = .ok (4, buf) ∧ buf ≠ [0, 0, 0, 0] ∧ ip = ip4 buf := by
  rcases r with e | ⟨k, buf⟩
  · cases e <;> exact ⟨_, rfl, nofun⟩
  · by_cases hk : k = 4
    · subst hk
      by_cases hbuf : buf ≠ [0, 0, 0, 0]
      · refine ⟨.ok (some (ip4 buf)), congrArg ExceptT.run (if_pos hbuf), ?_⟩
        rintro ip ⟨⟩
        exact ⟨buf, rfl, hbuf, rfl⟩
      · exact ⟨.ok none, congrArg ExceptT.run (if_neg hbuf), nofun⟩
    · exact ⟨.ok none, onAnswer_short hk buf, nofun⟩

namespace Chip

/-- A turn is one poll, and what it finds is the address in the reply. -/
theorem runs_lookupTurn (s : Link C) :
    ∃ o, K.Runs (lookupTurn (E := E)).run s o (s.exchanged K answerFrame) ∧
      ∀ ip, o = .ok (some ip) → (s.exchange K answerFrame).address = some ip := by
  obtain ⟨r, hreply, hr⟩ := runs_reply (K := K) (E := E) cmdGetHostByName 4 s answerFrame
  have hsend : K.Runs (sendCmdNoParams (E := E) cmdGetHostByName).run s (.ok ())
      (s.served K answerFrame) := runs_sendCmd cmdGetHostByName [] s
  obtain ⟨o, ho, hip⟩ := onAnswer_run r
  refine ⟨o, (Runs.timer 100).ok (hsend.ok (hreply.attempt.ok ?_)), fun ip h => ?_⟩
  · rw [ho]
    exact .ret o
  · obtain ⟨buf, rfl, hbuf, rfl⟩ := hip ip h
    obtain ⟨payload, hread, hlen, rfl⟩ := (hr 4 buf).mp rfl
    rw [← hlen, Nat.sub_self, List.replicate_zero, List.append_nil] at hbuf ⊢
    refine Option.bind_eq_some_iff.mpr ⟨payload, hread, if_pos ⟨hlen.symm, hbuf⟩⟩

/-- The polling loop makes such polls. -/
theorem runs_lookupTurns (n : ℕ) (s : Link C) :
    ∃ r s' log, K.Runs (repeatFor n (lookupTurn (E := E)) (throw .timeout)).run s r s' ∧
      s'.log = s.log ++ log ∧ Answers log r := by
  induction n generalizing s with
  | zero => exact ⟨_, s, [], .ret _, (List.append_nil _).symm, .none .timeout⟩
  | succ n ih =>
    obtain ⟨o, hturn, hip⟩ := runs_lookupTurn (K := K) (E := E) s
    have hlog := Link.log_exchanged K s answerFrame
    rcases o with e | _ | ip
    · exact ⟨_, _, _, hturn.error, hlog, .failed e rfl⟩
    · obtain ⟨r, s', log, hrest, hlog', hanswers⟩ := ih (s.exchanged K answerFrame)
      refine ⟨r, s', s.exchange K answerFrame :: log, hturn.ok hrest, ?_, .again rfl hanswers⟩
      rw [hlog', hlog, List.append_assoc, List.singleton_append]
    · exact ⟨.ok ip, _, _, hturn.ok (.ret _), hlog, .found rfl (hip ip rfl)⟩

/-- **A lookup is its request and its polls.** -/
theorem runs_dnsLookup (hostname : List UInt8) (s : Link C) :
    ∃ r s' log, K.Runs (Nina.dnsLookup (E := E) hostname).run s r s' ∧ s'.log = s.log ++ log ∧
      LookupLog hostname log r := by
  obtain ⟨r, hreq, -⟩ := runs_byteCommand (K := K) (E := E) cmdReqHostByName [hostname] s
  have hlog := Link.log_exchanged K s (lookupFrame hostname)
  rw [dnsLookup_eq]
  rcases r with e | ack
  · exact ⟨.error e, _, _, hreq.error, hlog, _, [], rfl, rfl, .none e⟩
  · by_cases hack : ack = 1
    · obtain ⟨r, s', log, hrun, hlog', hanswers⟩ :=
        runs_lookupTurns (K := K) (E := E) 40 (s.exchanged K (lookupFrame hostname))
      refine ⟨r, s', s.exchange K (lookupFrame hostname) :: log,
        hreq.ok ((Runs.failIf_neg (not_not.mpr hack) _).ok hrun), ?_, _, log, rfl, rfl, hanswers⟩
      rw [hlog', hlog, List.append_assoc, List.singleton_append]
    · exact ⟨.error .nina, _, _, hreq.ok (Runs.failIf_pos hack _).error, hlog, _, [], rfl, rfl,
        .none .nina⟩

end Chip

theorem Answers.request {log : List (Exchange C)} {r : Except (Error E) Ipv4}
    (h : Answers log r) : ∀ ex ∈ log, ex.request = answerFrame := by
  induction h with
  | none e => exact List.forall_mem_nil _
  | failed e hreq => exact List.forall_mem_singleton.mpr hreq
  | found hreq hip => exact List.forall_mem_singleton.mpr hreq
  | again hreq _ ih => exact List.forall_mem_cons.mpr ⟨hreq, ih⟩

/-- The exchanges of a lookup are its request and its polls. -/
theorem LookupLog.opcode {hostname : List UInt8} {log : List (Exchange C)}
    {r : Except (Error E) Ipv4} (h : LookupLog hostname log r) :
    ∀ ex ∈ log, opcode ex.request = cmdReqHostByName ∨ opcode ex.request = cmdGetHostByName := by
  obtain ⟨req, polls, rfl, hreq, hanswers⟩ := h
  refine List.forall_mem_cons.mpr ⟨.inl ?_, fun ex hex => .inr ?_⟩
  · rw [hreq]
    rfl
  · rw [hanswers.request ex hex]
    rfl

/-! ## The resolver -/

/-- **One resolver for all.**  The chip answers a poll by an address of what was asked for last, or
by none; `asked` is that request, and `Of` says whose addresses are whose. -/
structure Resolver (K : Chip C) where
  asked : C → Option (List UInt8)
  Of : List UInt8 → Ipv4 → Prop
  idle : ∀ c, asked (K.idle c) = asked c
  request : ∀ c request, opcode request = cmdReqHostByName →
    asked (K.serve c request).1 = some request
  other : ∀ c request, opcode request ≠ cmdReqHostByName →
    asked (K.serve c request).1 = asked c
  answer : ∀ c ip, Exchange.address ⟨c, answerFrame, (K.serve c answerFrame).2⟩ = some ip →
    ∃ request, asked c = some request ∧ Of request ip

namespace Resolver

variable (R : Resolver K) {c c' : C} {log : List (Exchange C)}

/-- Polls that follow one another find an address of what was asked for before them. -/
theorem of_answers {request : List UInt8} {ip : Ipv4} {r : Except (Error E) Ipv4}
    (hfollows : K.Follows c log c') (hanswers : Answers log r) (hr : r = .ok ip)
    (hasked : R.asked c = some request) : R.Of request ip := by
  induction hanswers generalizing c with
  | none e => exact absurd hr nofun
  | failed e hreq => exact absurd hr nofun
  | @found ex ip' hreq hip =>
    obtain rfl := Except.ok.inj hr
    obtain ⟨hchip, hreply, -⟩ := hfollows
    rcases ex with ⟨chip, request', reply⟩
    obtain rfl : request' = answerFrame := hreq
    obtain rfl : reply = (K.serve chip answerFrame).2 := hreply
    change chip = K.idle c at hchip
    obtain ⟨request'', hasked', hof⟩ := R.answer chip ip' hip
    rw [hchip, R.idle, hasked] at hasked'
    rwa [Option.some.inj hasked']
  | @again ex log r hreq _ ih =>
    obtain ⟨hchip, -, hfollows⟩ := hfollows
    refine ih hfollows hr ?_
    rw [R.other _ _ (by rw [hreq]; decide), hchip, R.idle, hasked]

/-- **A lookup that is not interrupted gets an address of its own hostname.** -/
theorem of_lookup {hostname : List UInt8} {ip : Ipv4} (hfollows : K.Follows c log c')
    (h : LookupLog (E := E) hostname log (.ok ip)) : R.Of (lookupFrame hostname) ip := by
  obtain ⟨req, polls, rfl, hreq, hanswers⟩ := h
  obtain ⟨-, -, hfollows⟩ := hfollows
  refine R.of_answers hfollows hanswers rfl ?_
  rw [R.request _ _ (by rw [hreq]; rfl), hreq]

end Resolver

end EmbassyNina
