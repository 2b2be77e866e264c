import EmbassyNina.Link.Connect

/-!
# Link/Release — what a failed connect leaves reserved

Read off the shape of its log (`Attempt`), a failed connect gives back the slot it was granted
exactly when its start and every state poll were answered well (`Connect.releases_iff`): the two
errors that `?` lets through leave the slot reserved, the timeout does not.
-/

namespace EmbassyNina

open Machinery

variable {C E : Type} {K : Chip C}

/-! ## What a failed connect leaves reserved -/

/-- **What `log` reserves, it releases**: a stop follows every slot that is granted, and no more
slots are held after it than before. -/
structure Releases (before log : List (Exchange C)) : Prop where
  stopped : ∀ g ∈ log, ∀ slot, g.granted = some slot →
    ∃ ex, [g, ex].Sublist log ∧ ex.stopped = some slot
  held : (held (before ++ log)).length = (held before).length

theorem foldl_hold_eq_self {log : List (Exchange C)}
    (h : ∀ ex ∈ log, ex.granted = none ∧ ex.stopped = none) (slots : List UInt8) :
    log.foldl Exchange.hold slots = slots := by
  induction log with
  | nil => rfl
  | cons ex log ih =>
    obtain ⟨hex, hlog⟩ := List.forall_mem_cons.mp h
    rw [List.foldl_cons, Exchange.hold_eq_self hex.1 hex.2, ih hlog]

theorem Exchange.of_stateFrame {sock : Socket} {ex : Exchange C}
    (h : ex.request = stateFrame sock) :
    ex.granted = none ∧ ex.stopped = none := by
  have hop : opcode ex.request = cmdGetClientStateTcp := by
    rw [h]
    rfl
  exact ⟨granted_eq_none (by rw [hop]; decide), stopped_eq_none (by rw [hop]; decide)⟩

theorem Exchange.of_stopFrame {sock : Socket} {ex : Exchange C} (h : ex.request = stopFrame sock) :
    ex.granted = none ∧ ex.stopped = some sock.raw ∧ ex.WellAnswered := by
  have hop : opcode ex.request = cmdStopClientTcp := by
    rw [h]
    rfl
  exact ⟨granted_eq_none (by rw [hop]; decide), stopped_of_stopFrame h,
    wellAnswered_of_ne (by rw [hop]; decide) (by rw [hop]; decide)⟩

/-- The polls reserve nothing. -/
theorem Polls.granted {sock : Socket} {log : List (Exchange C)} {r : Except (Error E) Socket}
    (h : Polls sock log r) : ∀ ex ∈ log, ex.granted = none := by
  induction h with
  | established hreq hok => exact List.forall_mem_singleton.mpr (Exchange.of_stateFrame hreq).1
  | again hreq hok _ ih => exact List.forall_mem_cons.mpr ⟨(Exchange.of_stateFrame hreq).1, ih⟩
  | broken e hreq hbad => exact List.forall_mem_singleton.mpr (Exchange.of_stateFrame hreq).1
  | stopped e hreq => exact List.forall_mem_singleton.mpr (Exchange.of_stopFrame hreq).1

/-- Polls that end in an error were all answered well and ended by a stop, or not and by none. -/
theorem Polls.error_cases {sock : Socket} {log : List (Exchange C)} {r : Except (Error E) Socket}
    (h : Polls sock log r) {e : Error E} (hr : r = .error e) :
    ((∀ ex ∈ log, ex.WellAnswered) ∧ (∃ ex ∈ log, ex.stopped = some sock.raw) ∧
        ∀ slots, log.foldl Exchange.hold (sock.raw :: slots) = slots) ∨
      (¬ ∀ ex ∈ log, ex.WellAnswered) ∧ ∀ ex ∈ log, ex.stopped = none := by
  induction h with
  | established hreq hok => exact absurd hr nofun
  | again hreq hok _ ih =>
    obtain ⟨hg, hs⟩ := Exchange.of_stateFrame hreq
    rcases ih hr with ⟨hall, ⟨ex, hex, hstop⟩, hfold⟩ | ⟨hbad, hnone⟩
    · refine .inl ⟨List.forall_mem_cons.mpr ⟨hok, hall⟩, ⟨ex, List.mem_cons_of_mem _ hex, hstop⟩,
        fun slots => ?_⟩
      rw [List.foldl_cons, Exchange.hold_eq_self hg hs, hfold]
    · exact .inr ⟨fun hall => hbad (List.forall_mem_cons.mp hall).2,
        List.forall_mem_cons.mpr ⟨hs, hnone⟩⟩
  | broken e' hreq hbad =>
    exact .inr ⟨fun hall => hbad (List.forall_mem_singleton.mp hall),
      List.forall_mem_singleton.mpr (Exchange.of_stateFrame hreq).2⟩
  | stopped e' hreq =>
    obtain ⟨-, hs, hok⟩ := Exchange.of_stopFrame hreq
    refine .inl ⟨List.forall_mem_singleton.mpr hok, ⟨_, List.mem_singleton_self _, hs⟩,
      fun slots => ?_⟩
    rw [List.foldl_cons, List.foldl_nil, Exchange.hold_of_stopFrame hreq, List.erase_cons_head]

theorem Exchange.of_startFrame {front : List (List UInt8)} {sock : Socket} {mode : UInt8}
    {ex : Exchange C} (h : ex.request = startFrame front sock mode) :
    ex.granted = none ∧ ex.stopped = none := by
  have hop : opcode ex.request = cmdStartClientTcp := by
    rw [h]
    rfl
  exact ⟨granted_eq_none (by rw [hop]; decide), stopped_eq_none (by rw [hop]; decide)⟩

theorem Exchange.of_granted {slot : UInt8} {ex : Exchange C} (h : ex.granted = some slot) :
    ex.stopped = none ∧ ex.WellAnswered := by
  have hop : opcode ex.request = cmdGetSocket := by
    rw [request_of_granted h]
    rfl
  exact ⟨stopped_eq_none (by rw [hop]; decide),
    wellAnswered_of_ne (by rw [hop]; decide) (by rw [hop]; decide)⟩

/-- Without a stop, a slot that was granted stays. -/
theorem not_releases {before log : List (Exchange C)} {g : Exchange C} {slot : UInt8}
    (hmem : g ∈ log) (hg : g.granted = some slot) (hs : ∀ ex ∈ log, ex.stopped = none) :
    ¬ Releases before log := by
  intro h
  obtain ⟨ex, hsub, hstop⟩ := h.stopped g hmem slot hg
  have hex : ex ∈ log := hsub.subset (List.mem_cons_of_mem _ (List.mem_singleton_self _))
  exact absurd ((hs ex hex).symm.trans hstop) nofun

/-- **A failed attempt releases what it reserved exactly when its start and its polls were answered
well.** -/
theorem Attempt.released_iff {name : Option (List UInt8)} {before log : List (Exchange C)}
    {r : Except (Error E) Socket} (h : Attempt name log r) {e : Error E} (hr : r = .error e) :
    Releases before log ↔ ∀ ex ∈ log, ex.WellAnswered := by
  cases h with
  | refused e' hpre =>
    have hquiet : ∀ ex ∈ log, ex.granted = none ∧ ex.stopped = none := fun ex hex =>
      ⟨(hpre ex hex).granted, (hpre ex hex).stopped⟩
    refine ⟨fun _ ex hex => (hpre ex hex).wellAnswered, fun _ => ⟨fun g hg slot hslot => ?_, ?_⟩⟩
    · exact absurd ((hquiet g hg).1.symm.trans hslot) nofun
    · rw [held_append, foldl_hold_eq_self hquiet]
  | @unstarted pre g start sock e' hpre hg hstart hbad =>
    obtain ⟨ip, port, mode, hstart⟩ := hstart
    have hstops : ∀ ex ∈ pre ++ [g, start], ex.stopped = none :=
      List.forall_mem_append.mpr ⟨fun ex hex => (hpre ex hex).stopped,
        List.forall_mem_cons.mpr ⟨(Exchange.of_granted hg).1,
          List.forall_mem_singleton.mpr (Exchange.of_startFrame hstart).2⟩⟩
    have hnot : ¬ Releases before (pre ++ [g, start]) :=
      not_releases (List.mem_append_right pre List.mem_cons_self) hg hstops
    exact ⟨fun h => absurd h hnot, fun h => absurd (h start (by simp)) hbad⟩
  | @started pre polls g start sock r hpre hg hstart hok hpolls =>
    obtain ⟨ip, port, mode, hstart⟩ := hstart
    obtain ⟨hgs, hgok⟩ := Exchange.of_granted hg
    obtain ⟨hsg, hss⟩ := Exchange.of_startFrame hstart
    have hmem : g ∈ pre ++ [g, start] ++ polls := by simp
    rcases hpolls.error_cases hr with ⟨hall, ⟨ex, hex, hstop⟩, hfold⟩ | ⟨hbad, hnone⟩
    · refine ⟨fun _ => ?_, fun _ => ⟨fun g' hg' slot hslot => ?_, ?_⟩⟩
      · exact List.forall_mem_append.mpr ⟨List.forall_mem_append.mpr
          ⟨fun ex hex => (hpre ex hex).wellAnswered, List.forall_mem_cons.mpr
            ⟨hgok, List.forall_mem_singleton.mpr hok⟩⟩, hall⟩
      · have hg'g : g' = g := by
          rcases List.mem_append.mp hg' with hg' | hg'
          · rcases List.mem_append.mp hg' with hg' | hg'
            · exact absurd ((hpre g' hg').granted.symm.trans hslot) nofun
            · rcases List.mem_cons.mp hg' with rfl | hg'
              · rfl
              · obtain rfl := List.mem_singleton.mp hg'
                exact absurd (hsg.symm.trans hslot) nofun
          · exact absurd ((hpolls.granted g' hg').symm.trans hslot) nofun
        obtain rfl := hg'g
        obtain rfl := Option.some.inj (hg.symm.trans hslot)
        have hsub : [g', ex].Sublist (g' :: start :: polls) :=
          (List.singleton_sublist.mpr (List.mem_cons_of_mem _ hex)).cons_cons g'
        rw [List.append_assoc]
        exact ⟨ex, hsub.trans (List.sublist_append_right pre _), hstop⟩
      · rw [held_append, List.foldl_append, List.foldl_append,
          foldl_hold_eq_self fun ex hex => ⟨(hpre ex hex).granted, (hpre ex hex).stopped⟩,
          List.foldl_cons, List.foldl_cons, List.foldl_nil, Exchange.hold_of_granted hg,
          Exchange.hold_eq_self hsg hss, hfold]
    · have hstops : ∀ ex ∈ pre ++ [g, start] ++ polls, ex.stopped = none :=
        List.forall_mem_append.mpr ⟨List.forall_mem_append.mpr
          ⟨fun ex hex => (hpre ex hex).stopped, List.forall_mem_cons.mpr
            ⟨hgs, List.forall_mem_singleton.mpr hss⟩⟩, hnone⟩
      exact ⟨fun h => absurd h (not_releases hmem hg hstops),
        fun h => absurd (List.forall_mem_append.mp h).2 hbad⟩

/-- **A failed connect gives its slot back exactly when the start and every state poll were answered
well.**  It always returns, whatever the chip replies. -/
theorem Connect.releases_iff (call : Connect) (K : Chip C) (s : Link C) :
    ∃ r s' log, K.Runs (call.prog (E := E)).run s r s' ∧ s'.log = s.log ++ log ∧
      ∀ e, r = .error e → (Releases s.log log ↔ ∀ ex ∈ log, ex.WellAnswered) := by
  obtain ⟨r, s', log, hrun, hlog, hattempt⟩ := Chip.runs_connect (K := K) call s
  exact ⟨r, s', log, hrun, hlog, fun e he => hattempt.released_iff he⟩

/-- A chip that has slot 0 to give, and answers everything else with an error frame. -/
def refusingChip : Chip Unit where
  idle c := c
  serve c request :=
    (c, if opcode request = cmdGetSocket then oneParam len8 cmdGetSocket [0]
      else Stream'.const errCmd)

/-- A start that is refused leaves the slot reserved. -/
theorem Connect.leaks_refusingChip :
    ∃ s', refusingChip.Runs (E := Unit) (Connect.tcpConnect #v[10, 0, 0, 1] 80).prog.run
        ⟨(), [], [], silence⟩ (.error .nina) s' ∧ ¬ Releases [] s'.log := by
  have hr : ((refusingChip.bus Unit).exec (Connect.tcpConnect #v[10, 0, 0, 1] 80).prog.run
      ⟨(), [], [], silence⟩).1 = .done (.error .nina) := by decide +kernel
  refine ⟨_, Prod.ext hr rfl, fun h => absurd h.held ?_⟩
  decide +kernel

end EmbassyNina
