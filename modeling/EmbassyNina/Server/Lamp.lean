import EmbassyNina.Server.Boot

/-!
# Server/Lamp — the LED shows what the responses say

On a chip that sets its pins as it is told, the levels of the LED's pins are those that the requests
so far have set (`Lamp.follows`).  So they are those of the server's state whenever it sends a
response (`main_shows`).
-/

namespace EmbassyNina

open Machinery Prog

variable {C E : Type} {K : Chip C}

namespace Server

/-! ## Pins -/

/-- The pin that a request sets, and its level. -/
def setOf (request : List UInt8) : Option (UInt8 × Bool) :=
  if request = levelFrame (request.getD 4 0) (request.getD 6 0 = 1) then
    some (request.getD 4 0, request.getD 6 0 = 1)
  else none

theorem setOf_levelFrame (pin : UInt8) (high : Bool) :
    setOf (levelFrame pin high) = some (pin, high) := by
  have hpin : (levelFrame pin high).getD 4 0 = pin := rfl
  have hhigh : ((levelFrame pin high).getD 6 0 = 1 : Bool) = high := by cases high <;> rfl
  rw [setOf, hpin, hhigh, if_pos rfl]

theorem setOf_frame {cmd : UInt8}
    (hne : cmd &&& ~~~replyFlag ≠ cmdSetDigitalWrite &&& ~~~replyFlag) (params : List Param) :
    setOf (frame cmd params) = none := by
  rw [setOf, if_neg]
  intro h
  exact hne (congrArg opcode h)

/-- The levels once a request is served. -/
def lit (levels : UInt8 → Bool) (request : List UInt8) : UInt8 → Bool :=
  match setOf request with
  | some (pin, high) => Function.update levels pin high
  | none => levels

theorem lit_levelFrame (levels : UInt8 → Bool) (pin : UInt8) (high : Bool) :
    lit levels (levelFrame pin high) = Function.update levels pin high := by
  rw [lit, setOf_levelFrame]

/-- Requests that set no pin leave the levels alone. -/
theorem foldl_lit_of_none {requests : List (List UInt8)} (h : ∀ r ∈ requests, setOf r = none)
    (levels : UInt8 → Bool) : requests.foldl lit levels = levels := by
  induction requests with
  | nil => rfl
  | cons r requests ih =>
    obtain ⟨hr, hrest⟩ := List.forall_mem_cons.mp h
    rw [List.foldl_cons, lit, hr]
    exact ih hrest

/-- **A chip with pins**: a request sets the pin that it names, and nothing else does. -/
structure Lamp (K : Chip C) (level : C → UInt8 → Bool) : Prop where
  idle : ∀ c, level (K.idle c) = level c
  serve : ∀ c request, level (K.serve c request).1 = lit (level c) request

theorem Lamp.follows {level : C → UInt8 → Bool} (hK : Lamp K level) {c c' : C}
    {log : List (Exchange C)} (h : K.Follows c log c') :
    level c' = (log.map Exchange.request).foldl lit (level c) := by
  induction log generalizing c with
  | nil => exact congrArg level h
  | cons ex log ih =>
    obtain ⟨hchip, -, hrest⟩ := h
    rw [ih hrest, hK.serve, hchip, hK.idle]
    rfl

/-- The LED shows a state: its pins are active-low. -/
def Shows (levels : UInt8 → Bool) (s : LedState) : Prop :=
  levels ledR = !s.r ∧ levels ledG = !s.g ∧ levels ledB = !s.b

theorem shows_lightFrames (levels : UInt8 → Bool) (s : LedState) :
    Shows ((lightFrames s).foldl lit levels) s := by
  have hpins : ledR ≠ ledG ∧ ledR ≠ ledB ∧ ledG ≠ ledB := by decide
  simp [Shows, lightFrames, lit_levelFrame, hpins]

/-! ## Visits -/

theorem Drains.setOf_eq {size : ℕ} {client : Socket} {got req : List UInt8}
    {log : List (Exchange C)} (h : Drains size client got log req) :
    ∀ ex ∈ log, setOf ex.request = none := fun ex hex => by
  rcases h.requests ex hex with h | ⟨room, h⟩
  · exact h ▸ setOf_frame (by decide) _
  · exact h ▸ setOf_frame (by decide) _

theorem setOf_eq_of_sendLog {client : Socket} {slices : List (List UInt8)} {log : List (Exchange C)}
    {all : Bool} (h : SendLog client slices log all) : ∀ ex ∈ log, setOf ex.request = none :=
  fun ex hex => by
    rcases h.requests ex hex with ⟨slice, -, h⟩ | h
    · exact h ▸ setOf_frame (by decide) _
    · exact h ▸ setOf_frame (by decide) _

/-- What sets no pin leaves the LED as it is. -/
theorem Lamp.shows_of_none {level : C → UInt8 → Bool} (hK : Lamp K level) {c c' : C}
    {log : List (Exchange C)} (h : K.Follows c log c') (hnone : ∀ ex ∈ log, setOf ex.request = none)
    {s : LedState} (hs : Shows (level c) s) : Shows (level c') s := by
  rw [hK.follows h, foldl_lit_of_none (List.forall_mem_map.mpr hnone)]
  exact hs

/-- …and each of these exchanges finds the chip showing the state. -/
theorem Lamp.shows_during {level : C → UInt8 → Bool} (hK : Lamp K level) {c c' : C}
    {log : List (Exchange C)} (h : K.Follows c log c') (hnone : ∀ ex ∈ log, setOf ex.request = none)
    {s : LedState} (hs : Shows (level c) s) : ∀ ex ∈ log, Shows (level ex.chip) s := by
  intro ex hex
  obtain ⟨before, after, rfl⟩ := List.append_of_mem hex
  obtain ⟨c₁, hbefore, hchip, -, -⟩ := h.of_append
  rw [hchip, hK.idle]
  exact hK.shows_of_none hbefore (fun ex hex => hnone ex (List.mem_append_left _ hex)) hs

/-- **A visit** leaves the LED showing its state, from its response on. -/
theorem Visit.Serves.shows [Heapless] {level : C → UInt8 → Bool} (hK : Lamp K level) {v : Visit C}
    (hv : v.Serves) {c c' : C} (h : K.Follows c v.rest c') (hs : Shows (level c) v.before) :
    (∀ ex ∈ v.sends ++ [v.close], Shows (level ex.chip) v.after) ∧ Shows (level c') v.after := by
  rw [Visit.rest, List.append_assoc] at h
  obtain ⟨c₂, hset, hsends⟩ := h.of_append
  obtain ⟨c₁, hreads, hlights⟩ := hset.of_append
  have hlit : Shows (level c₂) v.after := by
    have hs₁ := hK.shows_of_none hreads hv.reads.setOf_eq hs
    rw [hK.follows hlights, hv.lights]
    split
    · exact shows_lightFrames _ _
    · rename_i hrefused
      rw [hv.after, Visit.handled, handle_refused (Bool.eq_false_of_not_eq_true hrefused)]
      exact hs₁
  have hnone : ∀ ex ∈ v.sends ++ [v.close], setOf ex.request = none := by
    obtain ⟨all, hall⟩ := hv.sends
    exact List.forall_mem_append.mpr ⟨setOf_eq_of_sendLog hall,
      List.forall_mem_singleton.mpr (hv.close ▸ setOf_frame (by decide) _)⟩
  exact ⟨hK.shows_during hsends hnone hlit, hK.shows_of_none hsends hnone hlit⟩

/-- **A session** shows the state at every response. -/
theorem Session.shows [Heapless] {level : C → UInt8 → Bool} (hK : Lamp K level) {listen : Socket}
    {s s' : LedState} {ts : List (Turn C)} (hsession : Session listen s ts s') {c c' : C}
    (h : K.Follows c (ts.flatMap Turn.log) c') (hs : Shows (level c) s) :
    (∀ v, .visit v ∈ ts → ∀ ex ∈ v.sends ++ [v.close], Shows (level ex.chip) v.after) ∧
      Shows (level c') s' := by
  have haccept : setOf (acceptFrame listen) = none := setOf_frame (by decide) _
  induction ts generalizing s c with
  | nil =>
    obtain rfl := hsession
    obtain rfl : c' = c := h
    exact ⟨fun _ hv => absurd hv List.not_mem_nil, hs⟩
  | cons t ts ih =>
    obtain ⟨s₁, ht, hts⟩ := hsession
    rw [List.flatMap_cons] at h
    obtain ⟨c₁, hturn, hrest⟩ := h.of_append
    cases ht with
    | idle hpoll _ =>
      have hnone : ∀ ex ∈ Turn.log (.idle _), setOf ex.request = none :=
        List.forall_mem_singleton.mpr (hpoll ▸ haccept)
      obtain ⟨hvisits, hlast⟩ := ih hts hrest (hK.shows_of_none hturn hnone hs)
      exact ⟨fun v hv => hvisits v (List.mem_of_ne_of_mem (by simp) hv), hlast⟩
    | @visit v hpoll _ hserves =>
      have hturn' : K.Follows c ([v.poll] ++ v.rest) c₁ := hturn
      obtain ⟨c₀, hfirst, hvisit⟩ := hturn'.of_append
      have hs₀ := hK.shows_of_none hfirst (List.forall_mem_singleton.mpr (hpoll ▸ haccept)) hs
      obtain ⟨hshown, hafter⟩ := hserves.shows hK hvisit hs₀
      obtain ⟨hvisits, hlast⟩ := ih hts hrest hafter
      refine ⟨fun v' hv' => ?_, hlast⟩
      rcases List.mem_cons.mp hv' with heq | hmem
      · obtain rfl := Turn.visit.inj heq
        exact hshown
      · exact hvisits v' hmem

/-! ## Boot -/

theorem foldl_lit_configFrames (levels : UInt8 → Bool) :
    Shows ((configFrames [ledR, ledG, ledB]).foldl lit levels) {} := by
  have hmode : ∀ (levels : UInt8 → Bool) pin mode, lit levels (modeFrame pin mode) = levels :=
    fun levels pin mode => by
      have hnone : setOf (modeFrame pin mode) = none := setOf_frame (by decide) _
      rw [lit, hnone]
  have hpins : ledR ≠ ledG ∧ ledR ≠ ledB ∧ ledG ≠ ledB := by decide
  simp [Shows, configFrames, hmode, lit_levelFrame, hpins]

theorem Trial.setOf_eq {ssid psk : List UInt8} {a : Trial C} (h : a.For ssid psk) :
    ∀ ex ∈ a.log, setOf ex.request = none :=
  List.forall_mem_cons.mpr ⟨h.asked ▸ setOf_frame (by decide) _, List.forall_mem_append.mpr
    ⟨fun ex hex => h.polls ex hex ▸ setOf_frame (by decide) _,
      fun ex hex => h.torn ex hex ▸ setOf_frame (by decide) _⟩⟩

/-- A boot leaves the LED dark. -/
theorem Boot.Listens.shows {level : C → UInt8 → Bool} (hK : Lamp K level) {b : Boot C}
    {listen : Socket} (hb : b.Listens listen) {c c' : C} (h : K.Follows c b.log c') :
    Shows (level c') {} := by
  rw [Boot.log, List.append_assoc] at h
  obtain ⟨c₁, hconfig, hrest⟩ := h.of_append
  obtain ⟨c₀, -, hconfig⟩ := hconfig.of_append
  have hdark : Shows (level c₁) {} := by
    rw [hK.follows hconfig, hb.configs]
    exact foldl_lit_configFrames _
  refine hK.shows_of_none hrest (List.forall_mem_append.mpr ⟨fun ex hex => ?_, ?_⟩) hdark
  · obtain ⟨a, ha, hmem⟩ := List.mem_flatMap.mp hex
    exact Trial.setOf_eq (hb.attempts a ha) ex hmem
  · exact List.forall_mem_cons.mpr ⟨hb.opened ▸ setOf_frame (by decide) _,
      List.forall_mem_singleton.mpr (hb.listened ▸ setOf_frame (by decide) _)⟩

/-- **The LED shows what the responses say.**  In a run of the server, on any chip that sets its
pins as it is told and whatever else it replies, the LED shows the state that a response reports
from when it is sent until the client is closed, and in the end the state that the server has. -/
theorem main_shows [Heapless] {level : C → UInt8 → Bool} (hK : Lamp K level) {fuel n : ℕ}
    {s s' : Link C × Stream' ℕ} {mem : Memory} (hs : s.1.window = [])
    (h : K.Ends (main (E := E) fuel n) s (.done (some mem)) s') :
    ∃ (b : Boot C) (listen : Socket) (ts : List (Turn C)), ts.length = n ∧
      s'.1.log = s.1.log ++ (b.log ++ ts.flatMap Turn.log) ∧ Session listen {} ts mem.state ∧
      (∀ v, .visit v ∈ ts → ∀ ex ∈ v.sends ++ [v.close], Shows (level ex.chip) v.after) ∧
      Shows (level s'.1.chip) mem.state := by
  obtain ⟨b, listen, ts, hn, hlog, hboot, hsession⟩ := exists_session hs h
  obtain ⟨c, hbooted, hturns⟩ := (h.follows hlog).of_append
  obtain ⟨hvisits, hlast⟩ := hsession.shows hK hturns (hboot.shows hK hbooted)
  exact ⟨b, listen, ts, hn, hlog, hsession, hvisits, hlast⟩

/-- The chip with a client that asks for red, and with pins. -/
def lampChip : Chip (UInt8 → Bool) where
  idle c := c
  serve c request := (lit c request, (requestChip.serve () request).2)

section Piecewise

attribute [local instance] HString.piecewise

/-- Its LED comes to show red. -/
theorem main_shows_lampChip : ∃ s',
    lampChip.Ends (E := Unit) (main 100 1) (⟨fun _ => false, [], [], silence⟩, Stream'.const 0)
      (.done (some ⟨⟨true, false, false⟩, ascii "GET /r/1\r\n" ++ List.replicate 246 0⟩)) s' ∧
    Shows s'.1.chip ⟨true, false, false⟩ := by
  have hr : ((lampChip.clocked Unit).exec (main 100 1)
      (⟨fun _ => false, [], [], silence⟩, Stream'.const 0)).1 =
      .done (some ⟨⟨true, false, false⟩, ascii "GET /r/1\r\n" ++ List.replicate 246 0⟩) := by
    decide +kernel
  obtain ⟨s', hends⟩ := Chip.exists_ends hr
  have hlamp : Lamp lampChip id := ⟨fun _ => rfl, fun _ _ => rfl⟩
  obtain ⟨-, -, -, -, -, -, -, hlast⟩ := main_shows (E := Unit) hlamp rfl hends
  exact ⟨s', hends, hlast⟩

end Piecewise

end Server

end EmbassyNina
