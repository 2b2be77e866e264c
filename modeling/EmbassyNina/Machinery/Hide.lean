import EmbassyNina.Machinery.Exec

/-!
# Machinery/Hide — a program as seen by one who hears only some of its calls

A call that has one possible answer can be made in silence: `Silence` picks such calls, `hide` takes
them out of a program, and `audible` out of a trace.  What is left of the program leaves exactly the
audible traces (`steps_hide`, `exists_of_steps_hide`), so programs that differ in their silent calls
alone are told apart by no one who hears the others: `heardAs_of_hide_eq` has it from an equation.
-/

namespace Machinery

open Prog

/-- A choice of calls, with the one answer each can get. -/
structure Silence (S : Sig) where
  answer : (e : S.Eff) → Option (S.Ans e)
  only : ∀ {e : S.Eff} {r₀ : S.Ans e}, answer e = some r₀ → ∀ r, r = r₀

namespace Silence

variable {S : Sig} {α β : Type} (M : Silence S)

/-- The program without its silent calls. -/
def hide : Prog S α → Prog S α
  | .ret a => .ret a
  | .halt h => .halt h
  | .ask e k =>
    match M.answer e with
    | some r => hide (k r)
    | none => .ask e fun r => hide (k r)

/-- The trace without its silent calls. -/
def audible (tr : List (Event S)) : List (Event S) :=
  tr.filter fun ev => (M.answer ev.eff).isNone

@[simp] theorem hide_ret (a : α) : M.hide (.ret a) = .ret a := rfl

@[simp] theorem hide_halt (h : Halt) : M.hide (.halt h : Prog S α) = .halt h := rfl

variable {M} {e : S.Eff} {k : S.Ans e → Prog S α} {p q : Prog S α} {tr : List (Event S)}

theorem hide_silent {r : S.Ans e} (h : M.answer e = some r) : M.hide (.ask e k) = M.hide (k r) := by
  rw [hide, h]

theorem hide_heard (h : M.answer e = none) :
    M.hide (.ask e k) = .ask e fun r => M.hide (k r) := by
  rw [hide, h]

theorem hide_bind (p : Prog S α) (f : α → Prog S β) :
    M.hide (p.bind f) = (M.hide p).bind fun a => M.hide (f a) := by
  induction p with
  | ret a => rfl
  | halt h => rfl
  | ask e k ih =>
    cases he : M.answer e with
    | some r => rw [ask_bind, hide_silent he, hide_silent he, ih]
    | none =>
      rw [ask_bind, hide_heard he, hide_heard he, ask_bind]
      exact congrArg _ (funext ih)

/-- A program that makes no silent call is left as it is. -/
theorem hide_of_does {Q : α → Prop} (hp : p.Does (fun e => M.answer e = none) Q) :
    M.hide p = p := by
  induction p with
  | ret a => rfl
  | halt h => rfl
  | ask e k ih =>
    rw [hide_heard hp.1]
    exact congrArg _ (funext fun r => ih r (hp.2 r))

/-! ## Runs -/

theorem audible_silent {r r₀ : S.Ans e} (h : M.answer e = some r₀) :
    M.audible (⟨e, r⟩ :: tr) = M.audible tr := List.filter_cons_of_neg (by rw [h]; exact nofun)

theorem audible_heard {r : S.Ans e} (h : M.answer e = none) :
    M.audible (⟨e, r⟩ :: tr) = ⟨e, r⟩ :: M.audible tr := List.filter_cons_of_pos (by rw [h]; rfl)

theorem audible_append (t₁ t₂ : List (Event S)) :
    M.audible (t₁ ++ t₂) = M.audible t₁ ++ M.audible t₂ := List.filter_append ..

/-- **A run is heard as one of what is left**… -/
theorem steps_hide (h : Steps p tr q) : Steps (M.hide p) (M.audible tr) (M.hide q) := by
  induction h with
  | refl p => exact .refl _
  | @ask e k r tr q _ ih =>
    cases he : M.answer e with
    | some r₀ =>
      obtain rfl := M.only he r
      rw [hide_silent he, audible_silent he]
      exact ih
    | none =>
      rw [hide_heard he, audible_heard he]
      exact .ask r ih

/-- …and each of these is heard of a run: the silent calls are answered as they come. -/
theorem exists_of_steps_hide {q' : Prog S α} (h : Steps (M.hide p) tr q') :
    ∃ tr' q, Steps p tr' q ∧ M.audible tr' = tr ∧ M.hide q = q' := by
  induction p generalizing tr with
  | ret a =>
    obtain ⟨rfl, rfl⟩ := Steps.ret_iff.mp h
    exact ⟨[], .ret a, .refl _, rfl, rfl⟩
  | halt w =>
    obtain ⟨rfl, rfl⟩ := Steps.halt_iff.mp h
    exact ⟨[], .halt w, .refl _, rfl, rfl⟩
  | ask e k ih =>
    cases he : M.answer e with
    | some r =>
      rw [hide_silent he] at h
      obtain ⟨tr', q, hrun, rfl, hq⟩ := ih r h
      exact ⟨⟨e, r⟩ :: tr', q, .ask r hrun, audible_silent he, hq⟩
    | none =>
      rw [hide_heard he] at h
      cases h with
      | refl => exact ⟨[], .ask e k, .refl _, rfl, hide_heard he⟩
      | ask r h =>
        obtain ⟨tr', q, hrun, rfl, hq⟩ := ih r h
        exact ⟨⟨e, r⟩ :: tr', q, .ask r hrun, audible_heard he, hq⟩

/-- What sounds as if it were over ends in silence. -/
theorem exists_of_hide_eq {o : Outcome α} (h : M.hide p = o.prog) :
    ∃ tr, Steps p tr o.prog ∧ M.audible tr = [] := by
  induction p with
  | ret a => exact ⟨[], h ▸ .refl _, rfl⟩
  | halt w => exact ⟨[], h ▸ .refl _, rfl⟩
  | ask e k ih =>
    cases he : M.answer e with
    | some r =>
      rw [hide_silent he] at h
      obtain ⟨tr, hrun, htr⟩ := ih r h
      exact ⟨⟨e, r⟩ :: tr, .ask r hrun, (audible_silent he).trans htr⟩
    | none =>
      rw [hide_heard he] at h
      cases o <;> exact absurd h nofun

/-- What is heard of runs is what is left of the program… -/
theorem exists_runs_iff : (∃ tr' p', Steps p tr' p' ∧ M.audible tr' = tr) ↔
    ∃ q, Steps (M.hide p) tr q := by
  constructor
  · rintro ⟨tr', p', hrun, rfl⟩
    exact ⟨_, M.steps_hide hrun⟩
  · rintro ⟨q, h⟩
    obtain ⟨tr', p', hrun, htr, -⟩ := exists_of_steps_hide h
    exact ⟨tr', p', hrun, htr⟩

/-- …and what is heard of whole runs is what is left of the program. -/
theorem exists_ends_iff {o : Outcome α} :
    (∃ tr', Steps p tr' o.prog ∧ M.audible tr' = tr) ↔ Steps (M.hide p) tr o.prog := by
  constructor
  · rintro ⟨tr', hrun, rfl⟩
    have h := M.steps_hide hrun
    cases o <;> exact h
  · intro h
    obtain ⟨t₁, q, hrun, rfl, hq⟩ := exists_of_steps_hide h
    obtain ⟨t₂, hrun', htr⟩ := exists_of_hide_eq hq
    exact ⟨t₁ ++ t₂, hrun.trans hrun', by rw [audible_append, htr, List.append_nil]⟩

/-! ## Programs heard as one -/

/-- **`p` and `q` are heard as one**: what is heard of a run of the one is heard of a run of the
other, and with the same outcome once it is over. -/
structure HeardAs (M : Silence S) (p q : Prog S α) : Prop where
  runs : ∀ tr, (∃ tr' p', Steps p tr' p' ∧ M.audible tr' = tr) ↔
    ∃ tr' q', Steps q tr' q' ∧ M.audible tr' = tr
  ends : ∀ tr (o : Outcome α), (∃ tr', Steps p tr' o.prog ∧ M.audible tr' = tr) ↔
    ∃ tr', Steps q tr' o.prog ∧ M.audible tr' = tr

theorem heardAs_of_hide_eq (h : M.hide p = M.hide q) : M.HeardAs p q where
  runs tr := by rw [exists_runs_iff, exists_runs_iff, h]
  ends tr o := by rw [exists_ends_iff, exists_ends_iff, h]

end Silence

end Machinery
