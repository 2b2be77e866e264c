import EmbassyNina.Exchange.Receivers
import EmbassyNina.Exchange.Senders

/-!
# Exchange/Faults — the first fault of an exchange is its error

A fault is a failed call that the driver looks at: the wait for ACK, CS going low, a write, a
transfer.  CS going high is never looked at.  A program `Surfaces` its faults when a run of it that
is over has met none, or one, and that one is its error.  Senders and receivers do (`Surfaces.bind`
carries it along `?`), and so an `Ok` tells that every byte has gone out.
-/

namespace EmbassyNina

open Machinery Prog

variable {E : Type} {α β : Type}

/-- The error by which a failed call surfaces. -/
def Hal.fault : (e : Hal) → e.Ans E → Option (Error E)
  | .ackWaitForLow, .error _ | .csSetLow, .error _ => some .pin
  | .busWrite _, .error e | .busTransfer _, .error e => some (.spi e)
  | _, _ => none

/-- The faults of a trace, in order. -/
def faults (tr : List (Event (halSig E))) : List (Error E) :=
  tr.filterMap fun ev => ev.eff.fault ev.ans

/-- A fault is one of the pins or of the bus. -/
theorem mem_faults {tr : List (Event (halSig E))} {err : Error E} (h : err ∈ faults tr) :
    err = .pin ∨ ∃ e, err = .spi e := by
  obtain ⟨⟨e, r⟩, -, hfault⟩ := List.mem_filterMap.mp h
  cases e <;> rcases r with r | r <;> first
    | exact .inl (Option.some.inj hfault).symm
    | exact .inr ⟨r, (Option.some.inj hfault).symm⟩
    | exact absurd hfault nofun

/-- What a call clocks in. -/
def Hal.clockedIn : (e : Hal) → e.Ans E → List UInt8
  | .busTransfer _, .ok bytes => bytes.toList
  | _, _ => []

/-- The bytes that the transfers of a trace clock in. -/
def heard (tr : List (Event (halSig E))) : List UInt8 :=
  tr.flatMap fun ev => ev.eff.clockedIn ev.ans

section Append

variable (t₁ t₂ : List (Event (halSig E)))

theorem faults_append : faults (t₁ ++ t₂) = faults t₁ ++ faults t₂ := List.filterMap_append

theorem heard_append : heard (t₁ ++ t₂) = heard t₁ ++ heard t₂ := List.flatMap_append

theorem clockedOut_append : clockedOut (t₁ ++ t₂) = clockedOut t₁ ++ clockedOut t₂ :=
  List.flatMap_append

end Append

/-! ## Windows -/

/-- **A window that is over** failed before it opened, or its body ran in it. -/
theorem selected_cases {fail : Error E → β} {body : Prog (halSig E) β}
    {tr : List (Event (halSig E))} {b : β} (h : Steps (selected fail body) tr (.ret b)) :
    (b = fail .pin ∧ faults tr = [.pin] ∧ heard tr = [] ∧ clockedOut tr = []) ∨
      ∃ t, Steps body t (.ret b) ∧ faults tr = faults t ∧ heard tr = heard t ∧
        clockedOut tr = clockedOut t := by
  obtain _ | ⟨rack, hack⟩ := h
  obtain e | u := rack
  · obtain ⟨rfl, hret⟩ := Steps.done hack
    exact .inl ⟨hret, rfl, rfl, rfl⟩
  obtain _ | ⟨rlow, hlow⟩ := hack
  obtain e | u := rlow
  · obtain ⟨rfl, hret⟩ := Steps.done hlow
    exact .inl ⟨hret, rfl, rfl, rfl⟩
  obtain _ | ⟨rhigh, hopen⟩ := hlow
  obtain ⟨b', t, t', hbody, hclose, rfl⟩ := Steps.exists_of_bind (p := body)
    (f := fun res => (hal .csSetHigh).bind fun _ => .ret res) hopen
  obtain _ | ⟨r, hret⟩ := hclose
  obtain ⟨rfl, rfl⟩ := Steps.done hret
  refine .inr ⟨t, hbody, ?_, ?_, ?_⟩
  · exact (faults_append t _).trans (List.append_nil _)
  · exact (heard_append t _).trans (List.append_nil _)
  · exact (clockedOut_append t _).trans (List.append_nil _)

/-! ## Surfacing -/

/-- **The first fault of `p` is its error**, where `Fails a e` says that the result `a` is the error
`e`. -/
def Surfaces (Fails : α → Error E → Prop) (p : Prog (halSig E) α) : Prop :=
  ∀ tr a, Steps p tr (.ret a) → faults tr = [] ∨ ∃ e, faults tr = [e] ∧ Fails a e

variable {Fails : α → Error E → Prop} {Fails' : β → Error E → Prop}

theorem surfaces_ret (a : α) : Surfaces Fails (.ret a) := by
  intro tr b h
  obtain ⟨rfl, -⟩ := Steps.done h
  exact .inl rfl

theorem surfaces_halt (w : Halt) : Surfaces Fails (.halt w) := fun _ _ h =>
  absurd (Steps.halt_iff.mp h).2 nofun

/-- A failed first half returns at once. -/
theorem Surfaces.bind {p : Prog (halSig E) α} {f : α → Prog (halSig E) β} (hp : Surfaces Fails p)
    (hf : ∀ a, Surfaces Fails' (f a))
    (hstop : ∀ a e, Fails a e → ∃ b, f a = .ret b ∧ Fails' b e) : Surfaces Fails' (p.bind f) := by
  intro tr b h
  obtain ⟨a, t₁, t₂, h₁, h₂, rfl⟩ := Steps.exists_of_bind h
  rw [faults_append]
  obtain hnone | ⟨e, hone, hfails⟩ := hp t₁ a h₁
  · rw [hnone, List.nil_append]
    exact hf a t₂ b h₂
  · obtain ⟨b', hret, hfails'⟩ := hstop a e hfails
    rw [hret] at h₂
    obtain ⟨rfl, rfl⟩ := Steps.done h₂
    exact .inr ⟨e, by rw [hone]; rfl, hfails'⟩

/-- A call and what is made of its answer. -/
theorem surfaces_ask {e : Hal} {k : e.Ans E → Prog (halSig E) α} (g : e.Ans E → α)
    (hk : ∀ r, k r = .ret (g r)) (hfails : ∀ r err, e.fault r = some err → Fails (g r) err) :
    Surfaces Fails (.ask (S := halSig E) e k) := by
  intro tr a h
  obtain rfl : k = fun r => .ret (g r) := funext hk
  obtain _ | ⟨r, h⟩ := h
  obtain ⟨rfl, rfl⟩ := Steps.done h
  cases hr : e.fault r with
  | none => exact .inl (by simp [faults, hr])
  | some err => exact .inr ⟨err, by simp [faults, hr], hfails r err hr⟩

theorem surfaces_selected {fail : Error E → β} {body : Prog (halSig E) β}
    (hfail : Fails' (fail .pin) .pin) (hbody : Surfaces Fails' body) :
    Surfaces Fails' (selected fail body) := by
  intro tr b h
  obtain ⟨rfl, hpin, -⟩ | ⟨t, hrun, hfaults, -⟩ := selected_cases h
  · exact .inr ⟨.pin, hpin, hfail⟩
  · rw [hfaults]
    exact hbody t b hrun

/-! ## Programs that may fail -/

/-- A driver function that surfaces its faults. -/
abbrev SurfacesN (x : Nina E α) : Prop := Surfaces (fun r e => r = .error e) x.run

/-- A function on a buffer that does. -/
def SurfacesB (x : BufM E α) : Prop := ∀ out, Surfaces (fun r e => r.1 = .error e) (x.run out)

theorem SurfacesN.bind {x : Nina E α} {f : α → Nina E β} (hx : SurfacesN x)
    (hf : ∀ a, SurfacesN (f a)) : SurfacesN (x >>= f) := by
  rw [SurfacesN, run_bind_eq]
  refine Surfaces.bind hx (fun r => ?_) fun r e he => ⟨.error e, by rw [he]; rfl, rfl⟩
  cases r with
  | ok a => exact hf a
  | error e => exact surfaces_ret _

theorem surfaces_write (bytes : List UInt8) : SurfacesN (Nina.write (E := E) bytes) :=
  surfaces_ask (fun r => r.mapError .spi) (fun _ => rfl) fun r err h => by
    cases r with
    | ok u => exact absurd h nofun
    | error e => exact congrArg Except.error (Option.some.inj h)

theorem surfaces_padLoop (n total : ℕ) : SurfacesN (padLoop (E := E) n total) := by
  induction n generalizing total with
  | zero => exact surfaces_halt _
  | succ n ih =>
    rw [padLoop]
    split
    · exact surfaces_ret _
    · exact (surfaces_write _).bind fun _ => ih _

theorem surfaces_writeParams (params : List (List UInt8)) (total : ℕ) :
    SurfacesN (writeParams (E := E) params total) := by
  induction params generalizing total with
  | nil => exact surfaces_ret _
  | cons p params ih =>
    exact (surfaces_write _).bind fun _ => (surfaces_write _).bind fun _ => ih _

theorem surfaces_sendCmdBody (cmd : UInt8) (params : List (List UInt8)) :
    SurfacesN (sendCmdBody (E := E) cmd params) :=
  (surfaces_write _).bind fun _ => (surfaces_writeParams _ _).bind fun _ =>
    (surfaces_write _).bind fun _ => surfaces_padLoop _ _

theorem surfaces_sendCmd (cmd : UInt8) (params : List (List UInt8)) :
    SurfacesN (sendCmd (E := E) cmd params) := surfaces_selected rfl (surfaces_sendCmdBody _ _)

/-! ## Senders that work -/

/-- Without a fault, whatever is written has gone out. -/
theorem works_of_faults {Q : α → Prop} {p q : Prog (halSig E) α} {tr : List (Event (halSig E))}
    (h : Steps p tr q) (hp : p.Does (S := halSig E) Hal.IsWrite Q) (hnone : faults tr = []) :
    Works tr := by
  induction h with
  | refl p => exact List.forall_mem_nil _
  | @ask e k r tr q _ ih =>
    cases e with
    | busWrite bytes =>
      obtain ⟨hr, hrest⟩ := List.forall_mem_cons.mp (List.filterMap_eq_nil_iff.mp hnone)
      refine List.forall_mem_cons.mpr ⟨?_, ih (hp.2 r) (List.filterMap_eq_nil_iff.mpr hrest)⟩
      cases r with
      | ok u => rfl
      | error e => exact absurd hr nofun
    | _ => exact hp.1.elim

/-- A write clocks nothing in. -/
theorem heard_of_writes {Q : α → Prop} {p q : Prog (halSig E) α} {tr : List (Event (halSig E))}
    (h : Steps p tr q) (hp : p.Does (S := halSig E) Hal.IsWrite Q) : heard tr = [] := by
  induction h with
  | refl p => rfl
  | @ask e k r tr q _ ih =>
    cases e with
    | busWrite bytes => exact ih (hp.2 r)
    | _ => exact hp.1.elim

/-- **A sender fails by its first fault** and hears nothing. -/
theorem sendCmd_cases {cmd : UInt8} {params : List (List UInt8)} {tr : List (Event (halSig E))}
    {r : Except (Error E) Unit} (h : Steps (sendCmd (E := E) cmd params).run tr (.ret r)) :
    (∃ e, faults tr = [e] ∧ r = .error e) ∨ faults tr = [] ∧ r = .ok () ∧ heard tr = [] := by
  obtain hnone | hone := surfaces_sendCmd cmd params tr r h
  · obtain ⟨-, hpin, -⟩ | ⟨t, hbody, hfaults, hheard, -⟩ := selected_cases h
    · exact absurd (hnone.symm.trans hpin) nofun
    · have hw := does_sendCmdBody (E := E) cmd params
      refine .inr ⟨hnone, ?_, hheard.trans (heard_of_writes hbody hw)⟩
      exact ((puts_sendCmdBody cmd params).of_steps hbody
        (works_of_faults hbody hw (hfaults.symm.trans hnone))).1
  · exact .inl hone

/-! ## Receivers -/

theorem carried_surfacesB : Carried fun α (x : BufM E α) => SurfacesB x where
  pure _ _ := surfaces_ret _
  bind {α β x f} hx hf out := by
    rw [BufM.run_bind]
    refine Surfaces.bind (hx out) (fun r => ?_) fun r e he => ⟨(.error e, r.2), ?_, rfl⟩
    · rcases r with ⟨e | a, out'⟩
      · exact surfaces_ret _
      · exact hf a out'
    · rcases r with ⟨r, out'⟩
      obtain rfl : r = .error e := he
      rfl
  failIf c _ e out := by
    unfold BufM.failIf Nina.failIf
    split
    · exact surfaces_ret _
    · exact surfaces_ret _
  len _ := surfaces_ret _
  setIdx i b out := by
    change Surfaces _ (if i < out.length then _ else panicked : Prog (halSig E) _)
    split
    · exact surfaces_ret _
    · exact surfaces_halt _
  transfer k out := surfaces_ask (fun r => (r.mapError .spi |>.map fun bytes => bytes.toList, out))
    (fun r => by cases r <;> rfl) fun r err h => by
      cases r with
      | ok bytes => exact absurd h nofun
      | error e => exact congrArg Except.error (Option.some.inj h)

theorem surfacesB_recvCmdOneParamInner (cmd : UInt8) :
    SurfacesB (recvCmdOneParamInner (E := E) cmd) := carried_surfacesB.recvCmdOneParamInner cmd

end EmbassyNina
