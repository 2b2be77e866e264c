import EmbassyNina.Stack.World

/-!
# Stack/History — what has happened on the chip

Whatever the interleaving, the exchanges that have been made are whole sections of calls, one after
the other, and the beginning of the section of the call that holds the mutex (`World.blocks`).  The
sockets that were minted are found in this history by the line as it was then, and a read or a write
makes its exchanges after the mint of its socket (`Sockets`).
-/

namespace EmbassyNina

open Machinery Prog

variable {C E : Type} {K : Chip C} {calls : ℕ → Call}

/-! ## Sections, one after the other -/

/-- **Whole sections, one after the other.** -/
inductive Blocks (E : Type) (calls : ℕ → Call) : List (ℕ × Exchange C) → Prop
  | nil : Blocks E calls []
  | block {made : List (ℕ × Exchange C)} {i : ℕ} {log : List (Exchange C)}
      {p : Prog (halSig E) (Ret E)} (h : Blocks E calls made) (hspec : (calls i).Spec log p) :
    Blocks E calls (made ++ log.map (i, ·))

@[simp] theorem map_snd_tagged (i : ℕ) (log : List (Exchange C)) :
    (log.map (i, ·)).map Prod.snd = log := by
  rw [List.map_map]
  exact List.map_id log

/-- A prefix of an append is one of its first half, or has it whole. -/
theorem prefix_append_cases {α : Type} {l a b : List α} (h : l <+: a ++ b) :
    l <+: a ∨ ∃ t, l = a ++ t ∧ t <+: b := by
  rcases List.prefix_or_prefix_of_prefix h (List.prefix_append a b) with hl | ⟨t, rfl⟩
  · exact .inl hl
  · exact .inr ⟨t, rfl, (List.prefix_append_right_inj a).mp h⟩

/-- The end of a prefix of an append is in its first half, or in its second. -/
theorem concat_prefix_append_cases {α : Type} {l a b : List α} {x : α}
    (h : l ++ [x] <+: a ++ b) :
    l ++ [x] <+: a ∨ ∃ t, l = a ++ t ∧ t ++ [x] <+: b := by
  rcases prefix_append_cases h with hl | ⟨t, ht, htb⟩
  · exact .inl hl
  · rcases List.eq_nil_or_concat t with rfl | ⟨t, y, rfl⟩
    · rw [List.append_nil] at ht
      exact .inl (ht ▸ List.prefix_refl _)
    · rw [List.concat_eq_append] at ht htb
      rw [← List.append_assoc] at ht
      obtain ⟨rfl, hx⟩ := List.append_inj' ht rfl
      exact .inr ⟨t, rfl, List.singleton_inj.mp hx ▸ htb⟩

theorem mem_of_concat {α : Type} {l a : List α} {x : α} (h : l ++ [x] <+: a) : x ∈ a :=
  h.subset (by simp)

namespace World

/-- What is known of the exchanges made. -/
structure Inv (calls : ℕ → Call) (w : World E C) : Prop where
  log : w.made.map Prod.snd = w.link.log
  free : w.pool.holder = none → Blocks E calls w.made
  held : ∀ i s₀, w.pool.holder = some (i, s₀) →
    ∃ (old : List (ℕ × Exchange C)) (done : List (Exchange C)), Blocks E calls old ∧
      old.map Prod.snd = s₀.log ∧ w.made = old ++ done.map (i, ·)

theorem inv_init (c : C) : (init c : World E C).Inv calls :=
  ⟨rfl, fun _ => .nil, nofun⟩

/-- What the holder has made in its section is what the line has seen of it. -/
theorem Inv.section_eq {w : World E C} (hw : w.Inv calls) {i : ℕ} {s₀ : Link C}
    (hheld : w.pool.holder = some (i, s₀)) {log : List (Exchange C)}
    (hlog : w.link.log = s₀.log ++ log) :
    ∃ old, Blocks E calls old ∧ old.map Prod.snd = s₀.log ∧ w.made = old ++ log.map (i, ·) := by
  obtain ⟨old, done, hblocks, hold, hmade⟩ := hw.held i s₀ hheld
  have hall := hw.log
  rw [hmade, List.map_append, hold, map_snd_tagged, hlog] at hall
  obtain rfl := List.append_cancel_left hall
  exact ⟨old, hblocks, hold, hmade⟩

theorem Inv.next {w w' : World E C} (hw : w.Inv calls) (h : Next K calls w w') : w'.Inv calls := by
  rcases h with _ | _ | ⟨htask, hp, hholder⟩ | ⟨htask, hp, hheld, hlog, hfollows⟩ |
    ⟨htask, hheld, log, hlog, hspec⟩ | _
  · exact hw
  · exact ⟨hw.log, hw.free, hw.held⟩
  · rcases hholder with rfl | ⟨hfree, rfl⟩
    · exact ⟨hw.log, hw.free, hw.held⟩
    · refine ⟨hw.log, nofun, ?_⟩
      rintro i s₀ ⟨⟩
      exact ⟨w.made, [], hw.free hfree, hw.log, (List.append_nil _).symm⟩
  · rename_i i p s₀ line log
    refine ⟨?_, fun hfree => absurd (hheld.symm.trans hfree) nofun, fun j s₁ hj => ?_⟩
    · rw [List.map_append, map_snd_tagged, hw.log]
      exact hlog.symm
    · obtain ⟨rfl, rfl⟩ := Prod.mk.inj (Option.some.inj (hheld.symm.trans hj))
      obtain ⟨old, done, hblocks, hold, hmade⟩ := hw.held i s₀ hheld
      refine ⟨old, done ++ log, hblocks, hold, ?_⟩
      change w.made ++ _ = _
      rw [hmade, List.append_assoc, List.map_append]
  · refine ⟨hw.log, fun _ => ?_, nofun⟩
    obtain ⟨old, hblocks, -, hmade⟩ := hw.section_eq hheld hlog
    change Blocks E calls w.made
    rw [hmade]
    exact .block hblocks hspec
  · exact ⟨hw.log, hw.free, hw.held⟩

/-- **The exchanges of a run are whole sections and the beginning of one more.** -/
theorem Inv.blocks {w : World E C} (hw : w.Inv calls) (hordered : w.Ordered K calls) :
    ∃ more, Blocks E calls (w.made ++ more) := by
  rcases hholder : w.pool.holder with _ | ⟨i, s₀⟩
  · exact ⟨[], by rw [List.append_nil]; exact hw.free hholder⟩
  · obtain ⟨p, -, hhold⟩ := hordered.holding i s₀ hholder
    obtain ⟨old, done, hblocks, hold, hmade⟩ := hw.held i s₀ hholder
    obtain ⟨β, q, b, s', p', hexec, full, hfull, hspec⟩ := hhold.ends
    obtain ⟨rest, hrest, -⟩ := Chip.exec_follows (K := K) q w.link
    have hlog : s₀.log ++ done = w.link.log := by
      rw [← hw.log, hmade, List.map_append, hold, map_snd_tagged]
    rw [hexec, hfull, ← hlog, List.append_assoc] at hrest
    obtain rfl := List.append_cancel_left hrest
    refine ⟨rest.map (i, ·), ?_⟩
    rw [hmade, List.append_assoc, ← List.map_append]
    exact .block hblocks hspec

end World

/-! ## Sockets -/

/-- A call is over before its first section only with an error. -/
theorem Call.ret_of_prog {call : Call} {a : Ret E} (h : call.prog = .ret a) :
    ∃ e, a = .socket (.error e) ∨ a = .address (.error e) := by
  rcases call with ⟨mode, ip | port⟩ | _ | ⟨host, _ | _ | _⟩ | ⟨conn, sock, _ | fuel, buf⟩ | _
  · exact absurd h nofun
  · exact ⟨_, .inl (Prog.ret.inj h).symm⟩
  · exact absurd h nofun
  · exact absurd h nofun
  · exact ⟨_, .inr (Prog.ret.inj h).symm⟩
  · exact absurd h nofun
  · exact absurd h nofun
  · exact absurd h nofun
  · exact absurd h nofun

theorem Call.Spec.attempt {call : Call} {log : List (Exchange C)} {r : Except (Error E) Socket}
    (h : call.Spec log (.ret (.socket r))) : Attempt call.hostname log r := by
  rcases h.attempt_or with ⟨r', hr, hattempt⟩ | ⟨-, hnot⟩
  · obtain rfl := Ret.socket.inj (Prog.ret.inj hr)
    exact hattempt
  · exact absurd rfl (hnot r)

/-- What a read returns, its section has brought. -/
theorem Call.Spec.brings {call : Call} {conn : ℕ} {sock : Socket}
    (hon : call.on = some (conn, sock)) {log : List (Exchange C)} {bytes : List UInt8}
    (h : call.Spec (E := E) log (.ret (.bytes (.ok bytes)))) (hne : bytes ≠ []) :
    ∃ ex ∈ log, ex.Brings sock bytes := by
  cases call with
  | connect mode remote => exact absurd hon nofun
  | connectHostname mode hostname port => exact absurd hon nofun
  | getHostByName host addrType => exact absurd hon nofun
  | read conn' sock' fuel buf =>
    obtain ⟨rfl, rfl⟩ := Prod.mk.inj (Option.some.inj hon)
    exact h.2.2 bytes rfl hne
  | write conn' sock' buf => exact absurd (Prog.ret.inj h.1.choose_spec) nofun

/-- The exchanges of a read or a write are about its slot. -/
theorem Call.Spec.through {call : Call} {conn : ℕ} {sock : Socket}
    (hon : call.on = some (conn, sock)) {log : List (Exchange C)} {p : Prog (halSig E) (Ret E)}
    (h : call.Spec log p) : ∀ ex ∈ log, Through sock ex.request := by
  cases call with
  | connect mode remote => exact absurd hon nofun
  | connectHostname mode hostname port => exact absurd hon nofun
  | getHostByName host addrType => exact absurd hon nofun
  | read conn' sock' fuel buf =>
    obtain ⟨rfl, rfl⟩ := Prod.mk.inj (Option.some.inj hon)
    exact h.1.through
  | write conn' sock' buf =>
    obtain ⟨rfl, rfl⟩ := Prod.mk.inj (Option.some.inj hon)
    exact h.2

theorem Blocks.through {made : List (ℕ × Exchange C)} (h : Blocks E calls made) {i conn : ℕ}
    {sock : Socket} (hon : (calls i).on = some (conn, sock)) {ex : Exchange C}
    (hex : (i, ex) ∈ made) : Through sock ex.request := by
  induction h with
  | nil => exact absurd hex List.not_mem_nil
  | block _ hspec ih =>
    rcases List.mem_append.mp hex with hex | hex
    · exact ih hex
    · obtain ⟨ex', hex', heq⟩ := List.mem_map.mp hex
      obtain ⟨rfl, rfl⟩ := Prod.mk.inj heq
      exact hspec.through hon ex' hex'

namespace World

/-- **What is known of the sockets.**  Each was returned by its call, once, right after a state
poll; since then the line has gone on; and the calls on it come later. -/
structure Sockets (K : Chip C) (calls : ℕ → Call) (w : World E C) : Prop where
  returned : ∀ m ∈ w.minted, w.pool.task m.call = some (.ret (.socket (.ok m.sock)))
  nodup : (w.minted.map Minted.call).Nodup
  polled : ∀ m ∈ w.minted, ∃ log ex, m.line.log = log ++ [ex] ∧ ex.request = stateFrame m.sock
  since : ∀ m ∈ w.minted, ∃ since, w.link.log = m.line.log ++ since ∧
    K.Follows m.line.chip since w.link.chip
  opened : ∀ i conn sock, (calls i).on = some (conn, sock) → w.pool.task i ≠ none →
    ∃ m ∈ w.minted, m.call = conn ∧ m.sock = sock
  later : ∀ i conn sock, (calls i).on = some (conn, sock) → ∀ pre ex, pre ++ [(i, ex)] <+: w.made →
    ∃ m ∈ w.minted, m.call = conn ∧ m.sock = sock ∧ m.line.log <+: pre.map Prod.snd
  brought : ∀ i conn sock, (calls i).on = some (conn, sock) → ∀ bytes,
    w.pool.task i = some (.ret (.bytes (.ok bytes))) → bytes ≠ [] →
    ∃ ex, (i, ex) ∈ w.made ∧ ex.Brings sock bytes

theorem sockets_init (c : C) : (init c : World E C).Sockets K calls where
  returned := nofun
  nodup := List.nodup_nil
  polled := nofun
  since := nofun
  opened _ _ _ _ h := absurd rfl h
  later _ _ _ _ pre ex h := absurd (List.prefix_nil.mp h) (by simp)
  brought := nofun

variable {w w' : World E C} {i : ℕ} {p : Prog (halSig E) (Ret E)}

/-- A call that moves has minted no socket yet. -/
theorem Sockets.returned_start (hs : w.Sockets K calls)
    (htask : ∀ a, w.pool.task i ≠ some (.ret a)) :
    ∀ m ∈ w.minted, (w.pool.start i p).task m.call = some (.ret (.socket (.ok m.sock))) := by
  intro m hm
  have hret := hs.returned m hm
  have hne : m.call ≠ i := by
    rintro rfl
    exact htask _ hret
  rw [Pool.start_of_ne _ hne, hret]

theorem Sockets.opened_start (hs : w.Sockets K calls)
    (hi : ∀ conn sock, (calls i).on = some (conn, sock) →
      ∃ m ∈ w.minted, m.call = conn ∧ m.sock = sock) :
    ∀ j conn sock, (calls j).on = some (conn, sock) → (w.pool.start i p).task j ≠ none →
      ∃ m ∈ w.minted, m.call = conn ∧ m.sock = sock := by
  intro j conn sock hon hj
  by_cases hji : j = i
  · subst hji
    exact hi conn sock hon
  · rw [Pool.start_of_ne _ hji] at hj
    exact hs.opened j conn sock hon hj

theorem Sockets.brought_start (hs : w.Sockets K calls) {made : List (ℕ × Exchange C)}
    (hmade : ∀ x ∈ w.made, x ∈ made)
    (hi : ∀ conn sock, (calls i).on = some (conn, sock) → ∀ bytes, p = .ret (.bytes (.ok bytes)) →
      bytes ≠ [] → ∃ ex, (i, ex) ∈ made ∧ ex.Brings sock bytes) :
    ∀ j conn sock, (calls j).on = some (conn, sock) → ∀ bytes,
      (w.pool.start i p).task j = some (.ret (.bytes (.ok bytes))) → bytes ≠ [] →
      ∃ ex, (j, ex) ∈ made ∧ ex.Brings sock bytes := by
  intro j conn sock hon bytes hj hne
  by_cases hji : j = i
  · subst hji
    rw [Pool.start_self] at hj
    exact hi conn sock hon bytes (Option.some.inj hj) hne
  · rw [Pool.start_of_ne _ hji] at hj
    obtain ⟨ex, hex, hbrings⟩ := hs.brought j conn sock hon bytes hj hne
    exact ⟨ex, hmade _ hex, hbrings⟩

theorem mem_mints {line : Link C} {m : Minted C} (hm : m ∈ mints i line p) :
    p = .ret (.socket (.ok m.sock)) ∧ m.call = i ∧ m.line = line := by
  rcases p with ⟨⟨e | sock⟩ | _ | _ | _⟩ | _ | _
  · exact absurd hm List.not_mem_nil
  · obtain rfl := List.mem_singleton.mp hm
    exact ⟨rfl, rfl, rfl⟩
  all_goals exact absurd hm List.not_mem_nil

theorem Sockets.next_leave (hs : w.Sockets K calls) (hw : w.Inv calls) {s₀ : Link C}
    (htask : ∀ a, w.pool.task i ≠ some (.ret a)) (hheld : w.pool.holder = some (i, s₀))
    (hsome : w.pool.task i ≠ none) (hleaves : (calls i).Leaves s₀ w.link p) :
    Sockets K calls { w with
      pool := { w.pool.start i p with holder := none }
      minted := w.minted ++ mints i w.link p } := by
  obtain ⟨log, hlog, hspec⟩ := hleaves
  have hold : ∀ {P : Minted C → Prop}, (∃ m ∈ w.minted, P m) →
      ∃ m ∈ w.minted ++ mints i w.link p, P m :=
    fun ⟨m, hm, hP⟩ => ⟨m, List.mem_append_left _ hm, hP⟩
  refine ⟨List.forall_mem_append.mpr ⟨hs.returned_start htask, fun m hm => ?_⟩, ?_,
    List.forall_mem_append.mpr ⟨hs.polled, fun m hm => ?_⟩,
    List.forall_mem_append.mpr ⟨hs.since, fun m hm => ?_⟩, ?_, ?_, ?_⟩
  · obtain ⟨hp, hcall, -⟩ := mem_mints hm
    rw [hcall, hp]
    exact w.pool.start_self i _
  · rw [List.map_append, List.nodup_append]
    refine ⟨hs.nodup, ?_, ?_⟩
    · rcases p with ⟨⟨e | sock⟩ | _ | _ | _⟩ | _ | _ <;> simp [mints]
    · intro a ha b hb
      obtain ⟨m, hm, rfl⟩ := List.mem_map.mp ha
      obtain ⟨m', hm', rfl⟩ := List.mem_map.mp hb
      rw [(mem_mints hm').2.1]
      rintro rfl
      exact htask _ (hs.returned m hm)
  · obtain ⟨rfl, -, hline⟩ := mem_mints hm
    have hattempt := hspec.attempt
    obtain ⟨pre, g, start, polls, rfl, -, -, -, hne, hall⟩ := hattempt.ok_cases rfl
    refine ⟨s₀.log ++ (pre ++ [g, start] ++ polls.dropLast), polls.getLast hne, ?_,
      hall _ (List.getLast_mem hne)⟩
    rw [hline, hlog, List.append_assoc s₀.log, List.append_assoc (pre ++ [g, start]) polls.dropLast,
      List.dropLast_append_getLast hne]
  · obtain ⟨-, -, hline⟩ := mem_mints hm
    rw [hline]
    exact ⟨[], (List.append_nil _).symm, rfl⟩
  · exact fun j conn sock hon hj => hold (hs.opened_start
      (fun conn sock hon => hs.opened i conn sock hon hsome) j conn sock hon hj)
  · exact fun j conn sock hon pre ex hpre => hold (hs.later j conn sock hon pre ex hpre)
  · refine hs.brought_start (fun _ h => h) fun conn sock hon bytes hp hne => ?_
    subst hp
    obtain ⟨ex, hex, hbrings⟩ := hspec.brings hon hne
    obtain ⟨old, -, -, hmade⟩ := hw.section_eq hheld hlog
    rw [hmade]
    exact ⟨ex, List.mem_append_right _ (List.mem_map.mpr ⟨ex, hex, rfl⟩), hbrings⟩

theorem Sockets.next_exchange (hs : w.Sockets K calls) (hw : w.Inv calls) {line : Link C}
    {log : List (Exchange C)} (htask : ∀ a, w.pool.task i ≠ some (.ret a))
    (hsome : w.pool.task i ≠ none) (hp : ∀ a, p ≠ .ret a) (hlog : line.log = w.link.log ++ log)
    (hfollows : K.Follows w.link.chip log line.chip) :
    Sockets K calls { w with
      pool := { w.pool.start i p with env := line }
      made := w.made ++ log.map (i, ·) } := by
  refine ⟨hs.returned_start htask, hs.nodup, hs.polled, fun m hm => ?_,
    hs.opened_start fun conn sock hon => hs.opened i conn sock hon hsome, ?_,
    hs.brought_start (fun _ h => List.mem_append_left _ h) fun _ _ _ _ h => absurd h (hp _)⟩
  · obtain ⟨since, hsince, hfollows'⟩ := hs.since m hm
    refine ⟨since ++ log, ?_, hfollows'.append hfollows⟩
    change line.log = _
    rw [hlog, hsince, List.append_assoc]
  · intro j conn sock hon pre ex hpre
    rcases concat_prefix_append_cases hpre with hold | ⟨t, rfl, htlog⟩
    · exact hs.later j conn sock hon pre ex hold
    · -- the new exchanges are all made by the call that moves
      obtain ⟨ex', -, heq⟩ := List.mem_map.mp (mem_of_concat htlog)
      obtain ⟨rfl, -⟩ := Prod.mk.inj heq
      obtain ⟨m, hm, hcall, hsock⟩ := hs.opened i conn sock hon hsome
      obtain ⟨since, hsince, -⟩ := hs.since m hm
      refine ⟨m, hm, hcall, hsock, ?_⟩
      rw [List.map_append, hw.log, hsince, List.append_assoc]
      exact List.prefix_append _ _

theorem Sockets.next (hs : w.Sockets K calls) (hw : w.Inv calls) (h : Next K calls w w') :
    w'.Sockets K calls := by
  rcases h with _ | ⟨hnew, hready⟩ | ⟨htask, hp, -⟩ | ⟨htask, hp, hheld, hlog, hfollows⟩ |
    ⟨htask, hheld, hleaves⟩ | _
  · exact hs
  · rename_i i
    refine ⟨hs.returned_start fun a ha => absurd (hnew.symm.trans ha) nofun, hs.nodup, hs.polled,
      hs.since, hs.opened_start fun conn sock hon => ?_, hs.later,
      hs.brought_start (fun _ h => h) fun conn sock hon bytes hp hne => ?_⟩
    · rw [Ready, hon] at hready
      exact hready.1
    · obtain ⟨e, he | he⟩ := Call.ret_of_prog hp
      · exact absurd he nofun
      · exact absurd he nofun
  · obtain ⟨e, k, htask⟩ := htask
    have hret : ∀ a, w.pool.task _ ≠ some (.ret a) := fun a ha => absurd (htask.symm.trans ha) nofun
    have hsome : w.pool.task _ ≠ none := fun ha => absurd (htask.symm.trans ha) nofun
    exact ⟨hs.returned_start hret, hs.nodup, hs.polled, hs.since,
      hs.opened_start fun conn sock hon => hs.opened _ conn sock hon hsome, hs.later,
      hs.brought_start (fun _ h => h) fun _ _ _ _ h => absurd h (hp _)⟩
  · obtain ⟨e, k, htask⟩ := htask
    exact hs.next_exchange hw (fun a ha => absurd (htask.symm.trans ha) nofun)
      (fun ha => absurd (htask.symm.trans ha) nofun) hp hlog hfollows
  · obtain ⟨e, k, htask⟩ := htask
    exact hs.next_leave hw (fun a ha => absurd (htask.symm.trans ha) nofun) hheld
      (fun ha => absurd (htask.symm.trans ha) nofun) hleaves
  · exact ⟨hs.returned, hs.nodup, hs.polled, hs.since, hs.opened, hs.later, hs.brought⟩

/-- **What holds after every run.** -/
theorem invariant (K : Chip C) (calls : ℕ → Call) (c : C) (acts : List Action) :
    (run K calls c acts : World E C).Ordered K calls ∧ (run K calls c acts : World E C).Inv calls ∧
      (run K calls c acts : World E C).Sockets K calls :=
  run_induction (P := fun w => w.Inv calls ∧ w.Sockets K calls) ⟨inv_init c, sockets_init c⟩
    (fun _ _ _ hn h => ⟨h.1.next hn, h.2.next h.1 hn⟩) acts

end World

end EmbassyNina
