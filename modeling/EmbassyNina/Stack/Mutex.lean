import EmbassyNina.Exchange.Wired
import EmbassyNina.Link.Chip
import EmbassyNina.Machinery.Pool

/-!
# Stack/Mutex — the chip mutex

Exchanges and timers are all that `nal.rs` makes under the chip mutex.  What leaves the mutex itself
alone (`Wired`) is one section of a task: `guarded_section`.
-/

namespace EmbassyNina

open Machinery Prog

variable {C E α β : Type} {K : Chip C}

/-- `embassy-sync`'s mutex: a task without it only waits, for a timer or for the mutex. -/
def chipMutex (E : Type) (K : Chip C) : Lock (K.bus E) where
  acquire := Hal.lock
  release := Hal.unlock
  apart e := ∃ ms, e = Hal.timer ms
  acquire_ne_release := nofun
  not_apart_acquire := nofun
  not_apart_release := nofun
  still := by
    rintro s e (⟨ms, rfl⟩ | rfl | rfl) <;> rfl

/-- A section, and what follows it. -/
theorem guarded_section {R : Link C → Link C → Prog (halSig E) β → Prop} {q : Prog (halSig E) α}
    {g : α → Prog (halSig E) β} (hq : Wired q)
    (hrun : ∀ s, ∃ a s', K.Runs q s a s' ∧ R s s' (g a))
    (hg : ∀ a, (∀ b, g a ≠ .ret b) → Guarded (chipMutex E K) R (g a)) :
    Guarded (chipMutex E K) R (((hal .lock).bind fun _ =>
      q.bind fun a => (hal .unlock).bind fun _ => .ret a).bind g) := by
  refine @Guarded.enter _ _ _ _ (chipMutex E K) R _ q g _ (fun _ => ?_) ?_ hrun hg
  · change (q.bind fun a => (hal .unlock).bind fun _ => .ret a).bind g = _
    exact Prog.bind_assoc _ _ _
  · refine hq.weaken fun e he => ⟨?_, ?_⟩
    · rintro rfl
      exact he
    · rintro rfl
      exact he

end EmbassyNina
