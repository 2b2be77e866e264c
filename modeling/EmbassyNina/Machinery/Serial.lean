import Mathlib.Data.List.Induction
import Mathlib.Data.List.Perm.Subperm
import Mathlib.Tactic.Push

/-!
# Machinery/Serial — from any interleaving to a serial one

A system takes actions in any order, and in some of its states somebody holds a lock.  A run is
serial when nobody but the holder acts while the lock is held.  If what the others do in that time
either changes nothing or might as well have been done before the holder went on (`Movers.back`),
it can be moved in front of the whole section, so that every run ends where a serial one does
(`Movers.exists_serial`).
-/

namespace Machinery

variable {W A ι : Type} {step : W → A → W} {holder : W → Option ι} {own : ι → A}

/-- **A serial run**: while somebody holds the lock, every action is the holder's own. -/
def Serial (step : W → A → W) (holder : W → Option ι) (own : ι → A) (w : W) (acts : List A) :
    Prop :=
  ∀ before act, before ++ [act] <+: acts →
    ∀ i, holder (before.foldl step w) = some i → act = own i

theorem serial_nil (w : W) : Serial step holder own w [] := fun _ _ h =>
  absurd (List.prefix_nil.mp h) (List.append_ne_nil_of_right_ne_nil _ (List.cons_ne_nil _ _))

theorem serial_concat {w : W} {acts : List A} {act : A} :
    Serial step holder own w (acts ++ [act]) ↔
      Serial step holder own w acts ∧ ∀ i, holder (acts.foldl step w) = some i → act = own i := by
  constructor
  · exact fun h => ⟨fun before a hpre => h before a (hpre.trans (List.prefix_append ..)),
      fun i => h acts act List.prefix_rfl i⟩
  · rintro ⟨hacts, hlast⟩ before a hpre
    rcases List.prefix_concat_iff.mp hpre with heq | hpre
    · obtain ⟨rfl, hsing⟩ := List.append_inj' heq rfl
      obtain rfl := List.singleton_inj.mp hsing
      exact hlast
    · exact hacts before a hpre

/-- **A system whose sections can be moved together**, from the states that satisfy `Good`. -/
structure Movers (step : W → A → W) (holder : W → Option ι) (own : ι → A) (Good : W → Prop) :
    Prop where
  good : ∀ {w} a, Good w → Good (step w a)
  enter : ∀ {w a i}, Good w → holder w = none → holder (step w a) = some i → a = own i
  leave : ∀ {w i j}, Good w → holder w = some i → holder (step w (own i)) = some j → j = i
  stay : ∀ {w a i}, Good w → holder w = some i → a ≠ own i → holder (step w a) = some i
  back : ∀ {w a i}, Good w → holder (step w (own i)) = some i → a ≠ own i →
      step (step w (own i)) a = step w (own i) ∨
        step (step w (own i)) a = step (step w a) (own i) ∧ holder (step w a) = holder w

namespace Movers

variable {Good : W → Prop} (M : Movers step holder own Good) {w : W}

include M

theorem good_foldl (hw : Good w) (acts : List A) : Good (acts.foldl step w) := by
  induction acts generalizing w with
  | nil => exact hw
  | cons a acts ih => exact ih (M.good a hw)

/-- **What another does during a section** changes nothing, or can be done before the section. -/
theorem exists_earlier (hw : Good w) (hfree : holder w = none) {acts : List A} {act : A} {i : ι}
    (hserial : Serial step holder own w acts) (hheld : holder (acts.foldl step w) = some i)
    (hact : act ≠ own i) :
    ∃ acts', acts'.Subperm (act :: acts) ∧ Serial step holder own w acts' ∧
      acts'.foldl step w = step (acts.foldl step w) act := by
  induction acts using List.reverseRecOn with
  | nil => exact absurd (hfree.symm.trans hheld) nofun
  | append_singleton acts b ih =>
    obtain ⟨hacts, hlast⟩ := serial_concat.mp hserial
    have hgood := M.good_foldl hw acts
    rw [List.foldl_concat] at hheld ⊢
    -- the last action is the holder's own, who had the lock already or found it free
    have hholder : ∀ j, holder (acts.foldl step w) = some j → j = i := fun j hj => by
      obtain rfl := hlast j hj
      exact (M.leave hgood hj hheld).symm
    obtain rfl : b = own i := by
      rcases hj : holder (acts.foldl step w) with _ | j
      · exact M.enter hgood hj hheld
      · rw [hlast j hj, hholder j hj]
    rcases M.back hgood hheld hact with hsame | ⟨hswap, hkeep⟩
    · refine ⟨acts ++ [own i], (List.sublist_cons_self ..).subperm, hserial, ?_⟩
      rw [hsame, List.foldl_concat]
    · rw [hswap]
      rcases hj : holder (acts.foldl step w) with _ | j
      · refine ⟨acts ++ [act] ++ [own i], ?_, ?_, ?_⟩
        · refine List.Perm.subperm ?_
          rw [List.append_assoc]
          exact List.perm_middle
        · refine serial_concat.mpr ⟨serial_concat.mpr ⟨hacts, fun j h => ?_⟩, fun j h => ?_⟩
          · exact absurd (hj.symm.trans h) nofun
          · rw [List.foldl_concat, hkeep, hj] at h
            exact absurd h nofun
        · rw [List.foldl_concat, List.foldl_concat]
      · obtain rfl := hholder j hj
        obtain ⟨acts', hsub, hserial', heq⟩ := ih hacts hj
        refine ⟨acts' ++ [own j], ?_, ?_, ?_⟩
        · exact hsub.append (List.Subperm.refl [own j])
        · refine serial_concat.mpr ⟨hserial', fun k h => ?_⟩
          rw [heq, hkeep, hj] at h
          exact congrArg own (Option.some.inj h)
        · rw [List.foldl_concat, heq]

/-- **Every run ends where a serial one does**, of the same actions less those that changed
nothing. -/
theorem exists_serial (hw : Good w) (hfree : holder w = none) (acts : List A) :
    ∃ acts', acts'.Subperm acts ∧ Serial step holder own w acts' ∧
      acts'.foldl step w = acts.foldl step w := by
  induction acts using List.reverseRecOn with
  | nil => exact ⟨[], List.Subperm.refl _, serial_nil w, rfl⟩
  | append_singleton acts act ih =>
    obtain ⟨acts', hsub, hserial, heq⟩ := ih
    rw [List.foldl_concat, ← heq]
    by_cases hown : ∀ i, holder (acts'.foldl step w) = some i → act = own i
    · exact ⟨acts' ++ [act], hsub.append (List.Subperm.refl [act]),
        serial_concat.mpr ⟨hserial, hown⟩, List.foldl_concat ..⟩
    · push Not at hown
      obtain ⟨i, hheld, hact⟩ := hown
      obtain ⟨acts'', hsub', hserial', heq'⟩ := M.exists_earlier hw hfree hserial hheld hact
      refine ⟨acts'', hsub'.trans ?_, hserial', heq'⟩
      exact ((List.subperm_cons act).mpr hsub).trans
        (List.perm_append_singleton act acts).symm.subperm

end Movers

end Machinery
