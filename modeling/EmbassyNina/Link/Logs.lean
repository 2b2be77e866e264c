import EmbassyNina.Link.Association
import EmbassyNina.Link.Integers

/-!
# Link/Logs — what a program logs on a line beside a clock

`K.Logs P p`: wherever `p` returns, whatever line and clock it was run on, it has added to the log
of the line, and `P` holds of its result and of what it added.  Programs compose as their logs do
(`Logs.bind`), and one that does not look at the clock logs what it logs without one
(`logs_of_runs`).
-/

namespace EmbassyNina

open Machinery Prog

variable {C E α β : Type} {K : Chip C}

namespace Chip

variable {s s' s'' : Link C × Stream' ℕ}

theorem exists_ends {p : Prog (halSig E) α} {o : Outcome α}
    (h : ((K.clocked E).exec p s).1 = o) : ∃ s', K.Ends p s o s' := ⟨_, Prod.ext h rfl⟩

/-- A composition that returns has run both its halves. -/
theorem Ends.exists_of_bind {p : Prog (halSig E) α} {f : α → Prog (halSig E) β} {b : β}
    (h : K.Ends (p.bind f) s (.done b) s'') :
    ∃ a s', K.Ends p s (.done a) s' ∧ K.Ends (f a) s' (.done b) s'' := by
  rw [Ends, Env.exec_bind] at h
  cases hp : (K.clocked E).exec p s with
  | mk o s' =>
    rw [hp] at h
    cases o with
    | done a => exact ⟨a, s', hp, h⟩
    | stopped w => exact absurd (Prod.mk.inj h).1 (by simp)

/-- A run beside a clock leads the chip along its log. -/
theorem exec_clocked_follows (p : Prog (halSig E) α) (s : Link C × Stream' ℕ) :
    ∃ log, ((K.clocked E).exec p s).2.1.log = s.1.log ++ log ∧
      K.Follows s.1.chip log ((K.clocked E).exec p s).2.1.chip := by
  induction p generalizing s with
  | ret a => exact ⟨[], (List.append_nil _).symm, rfl⟩
  | halt h => exact ⟨[], (List.append_nil _).symm, rfl⟩
  | ask e k ih =>
    obtain ⟨log, hlog, hfollows⟩ : ∃ log, ((K.clocked E).answer s e).2.1.log = s.1.log ++ log ∧
        K.Follows s.1.chip log ((K.clocked E).answer s e).2.1.chip := by
      cases e with
      | now => exact ⟨[], (List.append_nil _).symm, rfl⟩
      | _ => exact bus_follows (K := K) (E := E) s.1 _
    obtain ⟨log', hlog', hfollows'⟩ := ih _ ((K.clocked E).answer s e).2
    exact ⟨log ++ log', by rw [← List.append_assoc, ← hlog]; exact hlog', hfollows.append hfollows'⟩

theorem Ends.follows {p : Prog (halSig E) α} {o : Outcome α} {log : List (Exchange C)}
    (h : K.Ends p s o s') (hlog : s'.1.log = s.1.log ++ log) :
    K.Follows s.1.chip log s'.1.chip := by
  obtain ⟨log', hlog', hfollows⟩ := exec_clocked_follows (K := K) p s
  rw [h] at hlog' hfollows
  obtain rfl := List.append_cancel_left (hlog.symm.trans hlog')
  exact hfollows

/-- **`p` logs what is in `P`**, wherever it returns. -/
def Logs (K : Chip C) (P : α → List (Exchange C) → Prop) (p : Prog (halSig E) α) : Prop :=
  ∀ s a s', K.Ends p s (.done a) s' → ∃ log, s'.1.log = s.1.log ++ log ∧ P a log

variable {P P' : α → List (Exchange C) → Prop} {Q : β → List (Exchange C) → Prop}

namespace Logs

theorem mono {p : Prog (halSig E) α} (hp : K.Logs P p) (h : ∀ a log, P a log → P' a log) :
    K.Logs P' p := fun s a s' hs => by
  obtain ⟨log, hlog, ha⟩ := hp s a s' hs
  exact ⟨log, hlog, h a log ha⟩

theorem ret {a : α} (h : P a []) : K.Logs (E := E) P (.ret a) := by
  rintro s a s' hs
  obtain ⟨rfl, rfl⟩ : a = _ ∧ s' = s := ⟨(Outcome.done.inj (Prod.mk.inj hs).1).symm,
    (Prod.mk.inj hs).2.symm⟩
  exact ⟨[], (List.append_nil _).symm, h⟩

theorem halt {w : Halt} : K.Logs (E := E) P (.halt w) := fun _ _ _ hs =>
  absurd (Prod.mk.inj hs).1 (by simp)

/-- **One program after another**: their logs, one after the other. -/
theorem bind {p : Prog (halSig E) α} {f : α → Prog (halSig E) β} (hp : K.Logs P p)
    (hf : ∀ a log, P a log → K.Logs (fun b log' => Q b (log ++ log')) (f a)) :
    K.Logs Q (p.bind f) := by
  intro s b s'' hs
  obtain ⟨a, s', hfirst, hsecond⟩ := hs.exists_of_bind
  obtain ⟨log, hlog, ha⟩ := hp s a s' hfirst
  obtain ⟨log', hlog', hb⟩ := hf a log ha s' b s'' hsecond
  exact ⟨log ++ log', by rw [hlog', hlog, List.append_assoc], hb⟩

end Logs

/-- What does not look at the clock logs the same beside one. -/
theorem logs_of_runs {p : Prog (halSig E) α} (hp : Wired p)
    (h : ∀ s, ∃ a s' log, K.Runs p s a s' ∧ s'.log = s.log ++ log ∧ P a log) : K.Logs P p := by
  rintro ⟨l, clock⟩ a s' hs
  obtain ⟨a', l', log, hrun, hlog, ha⟩ := h l
  obtain ⟨hdone, rfl⟩ := Prod.mk.inj ((exec_clocked hp l clock).symm.trans hs)
  rw [hrun] at hdone ⊢
  obtain rfl := Outcome.done.inj hdone
  exact ⟨log, hlog, ha⟩

/-- An exchange, its result told by its reply. -/
theorem logs_of_exchange {p : Prog (halSig E) α} (hp : Wired p) (request : List UInt8)
    (h : ∀ s, ∃ a, K.Runs p s a (s.exchanged K request) ∧ P a [s.exchange K request]) :
    K.Logs P p :=
  logs_of_runs hp fun s => by
    obtain ⟨a, hrun, ha⟩ := h s
    exact ⟨a, _, _, hrun, Link.log_exchanged K s request, ha⟩

/-- A timer logs nothing… -/
theorem logs_timer (ms : ℕ) : K.Logs (E := E) (fun _ log => log = []) (hal (.timer ms)) := by
  rintro s a s' hs
  obtain rfl : s' = s := (Prod.mk.inj hs).2.symm
  exact ⟨[], (List.append_nil _).symm, rfl⟩

/-- …and neither does a look at the clock. -/
theorem logs_now : K.Logs (E := E) (fun _ log => log = []) (hal .now) := by
  rintro s a s' hs
  obtain rfl : s' = (s.1, s.2.tail) := (Prod.mk.inj hs).2.symm
  exact ⟨[], (List.append_nil _).symm, rfl⟩

end Chip

end EmbassyNina
