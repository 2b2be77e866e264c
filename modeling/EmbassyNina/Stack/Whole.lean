import EmbassyNina.Stack.Slots

/-!
# Stack/Whole — what the mutex keeps together

Every call but a read takes the mutex once, so that its exchanges follow one another, whatever the
other calls do (`World.Undivided`); a read takes it turn by turn, and so keeps each state poll with
its receive.  This is what the chip's shared state needs: its one resolver answers a lookup by the
lookup's own hostname, and a slot that was free when it was granted is still free when the connect
starts on it (`NinaStack.undivided`).
-/

namespace EmbassyNina

open Machinery Prog

variable {C E : Type} {K : Chip C} {calls : ℕ → Call}

/-! ## Sections -/

/-- A call that takes the mutex once. -/
def Call.Single : Call → Prop
  | .read .. => False
  | _ => True

/-- Such a call is over with its section. -/
theorem Call.Spec.ret_of_single {call : Call} {log : List (Exchange C)}
    {p : Prog (halSig E) (Ret E)} (h : call.Spec log p) (hsingle : call.Single) :
    ∃ a, p = .ret a := by
  cases call with
  | connect mode remote =>
    obtain ⟨r, hp, -⟩ := h
    exact ⟨_, hp⟩
  | connectHostname mode hostname port =>
    obtain ⟨r, hp, -⟩ := h
    exact ⟨_, hp⟩
  | getHostByName host addrType =>
    obtain ⟨r, hp, -⟩ := h
    exact ⟨_, hp⟩
  | read conn sock fuel buf => exact hsingle.elim
  | write conn sock buf =>
    obtain ⟨⟨r, hp⟩, -⟩ := h
    exact ⟨_, hp⟩

/-- **Every exchange is part of a section**, and the exchanges right before it are those that the
section made first. -/
theorem Blocks.exists_section {made : List (ℕ × Exchange C)} (h : Blocks E calls made)
    {pre : List (ℕ × Exchange C)} {i : ℕ} {ex : Exchange C} (hpre : pre ++ [(i, ex)] <+: made) :
    ∃ (before : List (ℕ × Exchange C)) (done log : List (Exchange C))
      (p : Prog (halSig E) (Ret E)), (calls i).Spec log p ∧ done ++ [ex] <+: log ∧
        pre = before ++ done.map (i, ·) := by
  induction h with
  | nil => exact absurd (List.prefix_nil.mp hpre) (by simp)
  | @block made j log p _ hspec ih =>
    rcases concat_prefix_append_cases hpre with hold | ⟨t, rfl, all, hall⟩
    · exact ih hold
    · rw [List.append_assoc] at hall
      obtain ⟨done, more, rfl, rfl, hmore⟩ := List.map_eq_append_iff.mp hall.symm
      obtain ⟨ex', more, rfl, hex, -⟩ := List.map_eq_cons_iff.mp hmore
      obtain ⟨rfl, rfl⟩ := Prod.mk.inj hex
      exact ⟨made, done, _, p, hspec, ⟨more, by simp⟩, rfl⟩

namespace World

/-! ## Calls that take the mutex once -/

/-- The exchanges of call `i` follow one another. -/
def Together (made : List (ℕ × Exchange C)) (i : ℕ) : Prop :=
  ∃ (before : List (ℕ × Exchange C)) (log : List (Exchange C)) (after : List (ℕ × Exchange C)),
    made = before ++ log.map (i, ·) ++ after ∧ (∀ x ∈ before, x.1 ≠ i) ∧ ∀ x ∈ after, x.1 ≠ i

/-- **What is known of the calls that take the mutex once.** -/
structure Whole (calls : ℕ → Call) (w : World E C) : Prop where
  together : ∀ i, (calls i).Single → Together w.made i
  finished : ∀ i, (calls i).Single → (∀ s₀, w.pool.holder ≠ some (i, s₀)) →
    ∀ ex, (i, ex) ∈ w.made → ∃ a, w.pool.task i = some (.ret a)
  held : ∀ i s₀, w.pool.holder = some (i, s₀) → (calls i).Single →
    ∃ (old : List (ℕ × Exchange C)) (done : List (Exchange C)),
      w.made = old ++ done.map (i, ·) ∧ ∀ x ∈ old, x.1 ≠ i

/-- A call that has returned did so before its first section, or at the end of one. -/
def Returned (calls : ℕ → Call) (w : World E C) : Prop :=
  ∀ i a, w.pool.task i = some (.ret a) → (calls i).prog = .ret a ∨
    ∃ (before : List (ℕ × Exchange C)) (log : List (Exchange C)) (after : List (ℕ × Exchange C)),
      w.made = before ++ log.map (i, ·) ++ after ∧ (calls i).Spec log (.ret a)

theorem whole_init (c : C) : (init c : World E C).Whole calls where
  together _ _ := ⟨[], [], [], rfl, List.forall_mem_nil _, List.forall_mem_nil _⟩
  finished _ _ _ _ h := absurd h List.not_mem_nil
  held := nofun

variable {w w' : World E C} {i : ℕ} {p : Prog (halSig E) (Ret E)}

theorem Together.append {made : List (ℕ × Exchange C)} {j : ℕ} (h : Together made j) (hne : j ≠ i)
    (log : List (Exchange C)) : Together (made ++ log.map (i, ·)) j := by
  obtain ⟨before, own, after, rfl, hbefore, hafter⟩ := h
  refine ⟨before, own, after ++ log.map (i, ·), List.append_assoc .., hbefore,
    List.forall_mem_append.mpr ⟨hafter, fun x hx => ?_⟩⟩
  obtain ⟨ex, -, rfl⟩ := List.mem_map.mp hx
  exact hne.symm

/-- A call with exchanges and without the mutex is over, so one that goes on has none. -/
theorem Whole.not_mem (h : w.Whole calls) (hsingle : (calls i).Single)
    (htask : ∀ a, w.pool.task i ≠ some (.ret a)) (hnot : ∀ s₀, w.pool.holder ≠ some (i, s₀)) :
    ∀ x ∈ w.made, x.1 ≠ i := by
  rintro ⟨j, ex⟩ hx rfl
  obtain ⟨a, ha⟩ := h.finished j hsingle hnot ex hx
  exact htask a ha

/-- What is known of the calls that are over stays so when another call moves. -/
theorem Whole.finished_start (h : w.Whole calls) (htask : ∀ a, w.pool.task i ≠ some (.ret a))
    {j : ℕ} (hsingle : (calls j).Single) (hnot : ∀ s₀, w.pool.holder ≠ some (j, s₀))
    {ex : Exchange C} (hex : (j, ex) ∈ w.made) :
    ∃ a, (w.pool.start i p).task j = some (.ret a) := by
  obtain ⟨a, ha⟩ := h.finished j hsingle hnot ex hex
  have hne : j ≠ i := by
    rintro rfl
    exact htask a ha
  exact ⟨a, (Pool.start_of_ne _ hne _).trans ha⟩

theorem Whole.next_exchange (h : w.Whole calls) {s₀ line : Link C} {log : List (Exchange C)}
    (hheld : w.pool.holder = some (i, s₀)) : Whole calls { w with
      pool := { w.pool.start i p with env := line }
      made := w.made ++ log.map (i, ·) } := by
  have hown : (calls i).Single → ∃ (old : List (ℕ × Exchange C)) (done : List (Exchange C)),
      w.made ++ log.map (i, ·) = old ++ done.map (i, ·) ∧ ∀ x ∈ old, x.1 ≠ i := by
    intro hsingle
    obtain ⟨old, done, hmade, hold⟩ := h.held i s₀ hheld hsingle
    exact ⟨old, done ++ log, by rw [hmade, List.append_assoc, List.map_append], hold⟩
  refine ⟨fun j hsingle => ?_, fun j hsingle hnot ex hex => ?_, fun j s₁ hj hsingle => ?_⟩
  · by_cases hji : j = i
    · subst hji
      obtain ⟨old, done, hmade, hold⟩ := hown hsingle
      exact ⟨old, done, [], by rw [List.append_nil]; exact hmade, hold, List.forall_mem_nil _⟩
    · exact (h.together j hsingle).append hji log
  · have hji : j ≠ i := by
      rintro rfl
      exact hnot s₀ hheld
    rcases List.mem_append.mp hex with hex | hex
    · obtain ⟨a, ha⟩ := h.finished j hsingle hnot ex hex
      exact ⟨a, (Pool.start_of_ne _ hji _).trans ha⟩
    · obtain ⟨ex', -, heq⟩ := List.mem_map.mp hex
      exact absurd (Prod.mk.inj heq).1.symm hji
  · obtain ⟨rfl, -⟩ := Prod.mk.inj (Option.some.inj (hheld.symm.trans hj))
    exact hown hsingle

theorem Whole.next (h : w.Whole calls) (hn : Next K calls w w') : w'.Whole calls := by
  rcases hn with _ | ⟨hnew, -⟩ | ⟨⟨e, k, htask⟩, hp, hholder⟩ | ⟨htask, hp, hheld, hlog, -⟩ |
    ⟨-, hheld, log, -, hspec⟩ | _
  · exact h
  · exact ⟨h.together, fun j hsingle hnot ex hex => h.finished_start
      (fun a ha => absurd (hnew.symm.trans ha) nofun) hsingle hnot hex, h.held⟩
  · have hret : ∀ a, w.pool.task _ ≠ some (.ret a) := fun a ha => absurd (htask.symm.trans ha) nofun
    rcases hholder with rfl | ⟨hfree, rfl⟩
    · exact ⟨h.together, fun j hsingle hnot ex hex =>
        h.finished_start hret hsingle hnot hex, h.held⟩
    · have hnone : ∀ j s₀, w.pool.holder ≠ some (j, s₀) := fun j s₀ hs =>
        absurd (hfree.symm.trans hs) nofun
      refine ⟨h.together, fun j hsingle _ ex hex => h.finished_start hret hsingle (hnone j) hex, ?_⟩
      rintro j s₀ ⟨⟩ hsingle
      exact ⟨w.made, [], (List.append_nil _).symm, h.not_mem hsingle hret (hnone _)⟩
  · exact h.next_exchange hheld
  · rename_i i p s₀
    refine ⟨h.together, fun j hsingle _ ex hex => ?_, nofun⟩
    by_cases hji : j = i
    · subst hji
      obtain ⟨a, rfl⟩ := hspec.ret_of_single hsingle
      exact ⟨a, w.pool.start_self j _⟩
    · have hnot : ∀ s₁, w.pool.holder ≠ some (j, s₁) := fun s₁ hs =>
        hji (Prod.mk.inj (Option.some.inj (hs.symm.trans hheld))).1
      obtain ⟨a, ha⟩ := h.finished j hsingle hnot ex hex
      exact ⟨a, (Pool.start_of_ne _ hji _).trans ha⟩
  · exact ⟨h.together, h.finished, h.held⟩

/-! ## What a call returns -/

theorem Returned.start (h : w.Returned calls) {made : List (ℕ × Exchange C)}
    {more : List (ℕ × Exchange C)} (hmade : made = w.made ++ more)
    (hp : ∀ a, p = .ret a → (calls i).prog = .ret a ∨
      ∃ before log after, made = before ++ log.map (i, ·) ++ after ∧ (calls i).Spec log (.ret a))
    (j : ℕ) (a : Ret E) (ha : (w.pool.start i p).task j = some (.ret a)) :
    (calls j).prog = .ret a ∨
      ∃ before log after, made = before ++ log.map (j, ·) ++ after ∧
        (calls j).Spec log (.ret a) := by
  by_cases hji : j = i
  · subst hji
    rw [Pool.start_self] at ha
    exact hp a (Option.some.inj ha)
  · rw [Pool.start_of_ne _ hji] at ha
    refine (h j a ha).imp_right ?_
    rintro ⟨before, log, after, hold, hspec⟩
    exact ⟨before, log, after ++ more, by rw [hmade, hold, List.append_assoc], hspec⟩

theorem Returned.next (h : w.Returned calls) (hw : w.Inv calls) (hn : Next K calls w w') :
    w'.Returned calls := by
  rcases hn with _ | ⟨hnew, -⟩ | ⟨-, hp, -⟩ | ⟨-, hp, hheld, hlog, -⟩ |
    ⟨-, hheld, log, hlog, hspec⟩ | _
  · exact h
  · exact h.start (List.append_nil _).symm fun a ha => .inl ha
  · exact h.start (List.append_nil _).symm fun a ha => absurd ha (hp a)
  · exact h.start rfl fun a ha => absurd ha (hp a)
  · obtain ⟨old, -, -, hmade⟩ := hw.section_eq hheld hlog
    refine h.start (List.append_nil _).symm fun a ha => .inr ⟨old, log, [], ?_, ha ▸ hspec⟩
    rw [List.append_nil, hmade]
  · exact h

/-- The exchanges lead from the first state of the chip to the one it is in. -/
def Traced (K : Chip C) (c : C) (w : World E C) : Prop := K.Follows c w.link.log w.link.chip

theorem Traced.next {c : C} (h : w.Traced K c) (hn : Next K calls w w') : w'.Traced K c := by
  rcases hn with _ | _ | _ | ⟨-, -, -, hlog, hfollows⟩ | _ | _
  · exact h
  · exact h
  · exact h
  · rename_i line log
    change K.Follows c line.log line.chip
    rw [hlog]
    exact h.append hfollows
  · exact h
  · exact h

/-- **What the mutex keeps together**, after every run. -/
theorem whole (K : Chip C) (calls : ℕ → Call) (c : C) (acts : List Action) :
    (run K calls c acts : World E C).Ordered K calls ∧ (run K calls c acts : World E C).Inv calls ∧
      (run K calls c acts : World E C).Whole calls ∧
      (run K calls c acts : World E C).Returned calls ∧
      (run K calls c acts : World E C).Traced K c :=
  run_induction (P := fun w => w.Inv calls ∧ w.Whole calls ∧ w.Returned calls ∧ w.Traced K c)
    ⟨inv_init c, whole_init c, nofun, rfl⟩
    (fun _ _ _ hn h => ⟨h.1.next hn, h.2.1.next hn, h.2.2.1.next h.1 hn, h.2.2.2.next hn⟩) acts

/-- What is not in the first part of a list is in the rest… -/
theorem append_cons_left {α β : Type} {f : α → β} {b : β} {u v before after : List α} {x : α}
    (hu : ∀ y ∈ u, f y ≠ b) (hx : f x = b) (h : u ++ v = before ++ x :: after) :
    ∃ t, before = u ++ t ∧ v = t ++ x :: after := by
  rcases List.append_eq_append_iff.mp h with ⟨t, hbefore, hv⟩ | ⟨_ | ⟨y, t⟩, hu', hcons⟩
  · exact ⟨t, hbefore, hv⟩
  · rw [List.append_nil] at hu'
    exact ⟨[], by rw [List.append_nil]; exact hu'.symm, hcons.symm⟩
  · obtain ⟨rfl, -⟩ := List.cons.inj hcons
    exact absurd hx (hu x (by simp [hu']))

/-- …and what is not in the last part before it. -/
theorem append_cons_right {α β : Type} {f : α → β} {b : β} {u v before after : List α} {x : α}
    (hv : ∀ y ∈ v, f y ≠ b) (hx : f x = b) (h : u ++ v = before ++ x :: after) :
    ∃ t, after = t ++ v ∧ u = before ++ x :: t := by
  rcases List.append_eq_append_iff.mp h with ⟨t, hbefore, hv'⟩ | ⟨_ | ⟨y, t⟩, hu, hcons⟩
  · exact absurd hx (hv x (by simp [hv']))
  · rw [List.nil_append] at hcons
    exact absurd hx (hv x (hcons ▸ List.mem_cons_self))
  · obtain ⟨rfl, rfl⟩ := List.cons.inj hcons
    exact ⟨t, rfl, hu⟩

/-- No exchange of another call stands between two of call `i`. -/
def Undivided (w : World E C) (i : ℕ) : Prop :=
  ∀ before a mid b after, w.made = before ++ (i, a) :: (mid ++ (i, b) :: after) →
    ∀ x ∈ mid, x.1 = i

theorem undivided_of_together {made : List (ℕ × Exchange C)} (h : Together made i)
    {before mid after : List (ℕ × Exchange C)} {a b : Exchange C}
    (hmade : made = before ++ (i, a) :: (mid ++ (i, b) :: after)) : ∀ x ∈ mid, x.1 = i := by
  obtain ⟨first, log, last, heq, hfirst, hlast⟩ := h
  rw [heq, List.append_assoc] at hmade
  obtain ⟨t, -, ht⟩ := append_cons_left hfirst rfl hmade
  rw [← List.cons_append, ← List.append_assoc] at ht
  obtain ⟨t', -, ht'⟩ := append_cons_right hlast rfl ht
  intro x hx
  have hmem : x ∈ log.map (i, ·) := by
    rw [ht']
    simp [hx]
  obtain ⟨ex, -, rfl⟩ := List.mem_map.mp hmem
  rfl

end World

/-! ## What a section keeps together -/

/-- Within a turn of a read a state poll comes right after its receive. -/
theorem TurnLog.recv_of_state {sock : Socket} {log done : List (Exchange C)} {ex : Exchange C}
    (h : TurnLog sock log) (hdone : done ++ [ex] <+: log) (hex : ex.request = stateFrame sock) :
    ∃ recv room, done = [recv] ∧ recv.request = recvFrame sock room := by
  obtain ⟨recv, room, hrecv, hlog⟩ := h
  have hne : ex ≠ recv := by
    rintro rfl
    have hop := congrArg opcode (hrecv.symm.trans hex)
    rw [recvFrame, stateFrame, opcode_frame, opcode_frame] at hop
    exact absurd hop (by decide)
  rcases hlog with rfl | ⟨state, rfl, -⟩
  · exact absurd (List.mem_singleton.mp (mem_of_concat hdone)) hne
  · have hsplit : done ++ [ex] <+: [recv] ++ [state] := hdone
    rcases concat_prefix_append_cases hsplit with hold | ⟨t, rfl, ht⟩
    · exact absurd (List.mem_singleton.mp (mem_of_concat hold)) hne
    · have hlen := ht.length_le
      obtain rfl : t = [] := List.eq_nil_of_length_eq_zero (by simpa using hlen)
      exact ⟨recv, room, rfl, hrecv⟩

/-- Within a connect a start comes right after the grant of its slot. -/
theorem Attempt.granted_of_start {name : Option (List UInt8)} {log done : List (Exchange C)}
    {r : Except (Error E) Socket} {ex : Exchange C} (h : Attempt name log r)
    (hdone : done ++ [ex] <+: log) (hex : opcode ex.request = cmdStartClientTcp) :
    ∃ pre g sock, done = pre ++ [g] ∧ g.granted = some sock.raw ∧ ex.StartOf name sock := by
  have hpre : ∀ {pre : List (Exchange C)}, (∀ x ∈ pre, x.Unslotted) → ¬ done ++ [ex] <+: pre :=
    fun hall hpre => (hall ex (mem_of_concat hpre)).opcode.2.1 hex
  have hpair : ∀ {pre : List (Exchange C)} {g start : Exchange C} {sock : Socket},
      (∀ x ∈ pre, x.Unslotted) → g.granted = some sock.raw → start.StartOf name sock →
      done ++ [ex] <+: pre ++ [g, start] →
      ∃ pre g sock, done = pre ++ [g] ∧ g.granted = some sock.raw ∧ ex.StartOf name sock := by
    intro pre g start sock hall hg hstart hdone
    have hsplit : done ++ [ex] <+: pre ++ ([g] ++ [start]) := hdone
    rcases concat_prefix_append_cases hsplit with hold | ⟨t, rfl, ht⟩
    · exact absurd hold (hpre hall)
    rcases concat_prefix_append_cases ht with hold | ⟨t', rfl, ht'⟩
    · obtain rfl := List.mem_singleton.mp (mem_of_concat hold)
      rw [Exchange.opcode_of_granted hg] at hex
      exact absurd hex (by decide)
    · have hlen := ht'.length_le
      obtain rfl : t' = [] := List.eq_nil_of_length_eq_zero (by simpa using hlen)
      obtain rfl := List.mem_singleton.mp (mem_of_concat ht')
      exact ⟨pre, g, sock, by rw [List.append_nil], hg, hstart⟩
  cases h with
  | refused e hall => exact absurd hdone (hpre hall)
  | unstarted e hall hg hstart hbad => exact hpair hall hg hstart hdone
  | started hall hg hstart hok hpolls =>
    rcases concat_prefix_append_cases hdone with hold | ⟨t, rfl, ht⟩
    · exact hpair hall hg hstart hold
    · exact absurd hex (hpolls.opcode_ne ex (mem_of_concat ht))

/-- **In every section a start comes right after the grant of its slot.** -/
theorem Call.Spec.granted_of_start {call : Call} {log done : List (Exchange C)}
    {p : Prog (halSig E) (Ret E)} {ex : Exchange C} (h : call.Spec log p)
    (hdone : done ++ [ex] <+: log) (hex : opcode ex.request = cmdStartClientTcp) :
    ∃ pre g sock, done = pre ++ [g] ∧ g.granted = some sock.raw ∧
      ex.StartOf call.hostname sock := by
  rcases h.attempt_or with ⟨r, -, hattempt⟩ | ⟨hoff, -⟩
  · exact hattempt.granted_of_start hdone hex
  · exact absurd hex (hoff ex (mem_of_concat hdone)).2.1

/-- A slot that was free when it was granted is free when the next exchange finds it. -/
theorem SlotTable.free_after_grant (T : SlotTable K) {c c' : C} {g ex : Exchange C}
    {log : List (Exchange C)} {slot : UInt8} (hfollows : K.Follows c (g :: ex :: log) c')
    (hg : g.granted = some slot) : T.conn ex.chip slot = none := by
  obtain ⟨-, hreply, hchip, -⟩ := hfollows
  refine Option.eq_none_iff_forall_ne_some.mpr fun id hid => ?_
  rw [hchip] at hid
  exact absurd ((T.free_of_granted hreply hg).2.symm.trans (T.idle_conn _ _ _ hid)) nofun

/-- The start of a connect by hostname goes to an address that the chip has for the hostname. -/
theorem Resolved.of_start (R : Resolver K) {hostname : List UInt8} {log done : List (Exchange C)}
    {ex : Exchange C} (h : Resolved E hostname log) (hdone : done ++ [ex] <+: log)
    (hex : opcode ex.request = cmdStartClientTcp) {c c' : C} (hfollows : K.Follows c done c') :
    ∃ ip port sock mode, ex.request = startFrame [hostname, ip.toList, beBytes port] sock mode ∧
      R.Of (lookupFrame hostname) ip := by
  obtain ⟨lookup, rest, r, rfl, hlookup, hstarts⟩ := h
  rcases concat_prefix_append_cases hdone with hold | ⟨t, rfl, ht⟩
  · rcases hlookup.opcode ex (mem_of_concat hold) with hop | hop <;>
      exact absurd (hop.symm.trans hex) (by decide)
  · obtain ⟨ip, port, sock, mode, rfl, hreq⟩ := hstarts ex (mem_of_concat ht) hex
    obtain ⟨c₁, hfollows, -⟩ := hfollows.of_append
    exact ⟨ip, port, sock, mode, hreq, R.of_lookup hfollows hlookup⟩

/-! ## Every interleaving -/

/-- `K`, and a resolver that answers the latest request by `resolve`. -/
def Chip.resolving (K : Chip C) (resolve : List UInt8 → Ipv4) : Chip (C × Option (List UInt8)) where
  idle c := (K.idle c.1, c.2)
  serve c request :=
    if opcode request = cmdReqHostByName then
      ((c.1, some request), oneParam len8 cmdReqHostByName [1])
    else if opcode request = cmdGetHostByName then
      (c, oneParam len8 cmdGetHostByName (c.2.elim [] fun request => (resolve request).toList))
    else (((K.serve c.1 request).1, c.2), (K.serve c.1 request).2)

/-- The slots are those of `K`. -/
def SlotTable.resolving (T : SlotTable K) (resolve : List UInt8 → Ipv4) :
    SlotTable (K.resolving resolve) where
  conn c := T.conn c.1
  started c := T.started c.1
  conn_lt c := T.conn_lt c.1
  idle_conn c := T.idle_conn c.1
  idle_started c := T.idle_started c.1
  granted_free c slot h := T.granted_free c.1 slot h
  serve_conn c request slot id h := by
    rw [Chip.resolving] at h
    dsimp only at h
    split at h
    · exact .inl h
    · split at h
      · exact .inl h
      · exact T.serve_conn c.1 request slot id h
  serve_started c request := by
    rw [Chip.resolving]
    dsimp only
    split
    · exact Nat.le_refl _
    · split
      · exact Nat.le_refl _
      · exact T.serve_started c.1 request

def Resolver.resolving (K : Chip C) (resolve : List UInt8 → Ipv4) :
    Resolver (K.resolving resolve) where
  asked c := c.2
  Of request ip := resolve request = ip
  idle c := rfl
  request c request h := by
    rw [Chip.resolving]
    dsimp only
    rw [if_pos h]
  other c request h := by
    rw [Chip.resolving]
    dsimp only
    rw [if_neg h]
    split <;> rfl
  answer c ip h := by
    have hop : opcode answerFrame = cmdGetHostByName := rfl
    have hreply : ((K.resolving resolve).serve c answerFrame).2 = oneParam len8 cmdGetHostByName
        (c.2.elim [] fun request => (resolve request).toList) := by
      rw [Chip.resolving]
      dsimp only
      rw [if_neg (by rw [hop]; decide), if_pos hop]
    rw [Exchange.address, hreply] at h
    rcases hasked : c.2 with _ | request
    · rw [hasked, Option.elim_none, readOne_eq_some.mpr
        ⟨Nat.zero_le 4, silence, oneParam_spec (by decide) _⟩] at h
      exact absurd h nofun
    · have hlen : (resolve request).toList.length = 4 := (resolve request).length_toList
      rw [hasked, Option.elim_some, readOne_eq_some.mpr
        ⟨hlen.le, silence, oneParam_spec (by rw [hlen]; decide) _⟩, Option.bind_some] at h
      split at h
      · rw [ip4_toList] at h
        exact ⟨request, rfl, Option.some.inj h⟩
      · exact absurd h nofun

/-- A connect by hostname, and a lookup of another one. -/
def lookupCalls : ℕ → Call
  | 0 => .connectHostname tcpMode [97] 80
  | _ => .getHostByName [98] .ipv4

/-- The two calls take turns, request by request. -/
def lookupActs : List Action :=
  .start 0 :: .start 1 :: (List.replicate 150 [Action.turn 0, Action.turn 1]).flatten

/-- Hostnames differ in their first letter, and so do their addresses. -/
def lookupChip : Chip (Slots × Option (List UInt8)) :=
  reusingChip.resolving fun request => #v[10, 0, 0, request.getD 4 0]

/-- The world once both have returned. -/
def lookupWorld : World Unit (Slots × Option (List UInt8)) :=
  World.run lookupChip lookupCalls (Slots.fresh 9, none) lookupActs

/-- The world in the middle of the connect, which the lookup waits for. -/
def connectingWorld : World Unit (Slots × Option (List UInt8)) :=
  World.run lookupChip lookupCalls (Slots.fresh 9, none) (lookupActs.take 26)

/-- Call 2 connects while call 0 does, and waits for the mutex; the peer of call 0 closes before it
gets there. -/
def overlapActs : List Action :=
  [.start 0, .start 2, .turn 0, .turn 2] ++ List.replicate 80 (.turn 0) ++ inTurn [1] ++
    List.replicate 80 (.turn 2)

/-- The world after the first `n` of these. -/
def overlapWorld (n : ℕ) : World Unit Slots :=
  World.run reusingChip staleCalls (Slots.fresh 4) (overlapActs.take n)

end EmbassyNina
