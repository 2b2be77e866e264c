import EmbassyNina.Server.Session

/-!
# Server/Boot — the exchanges of the example server, from its reset

`main` resets the chip, configures the LED, associates, opens a socket and listens on it before it
comes to its accept loop.  `Boot` is what it exchanges until then, and `main_session` says that a
whole run is a boot and a session.
-/

namespace EmbassyNina

open Machinery Prog

variable {C E α : Type} {K : Chip C}

/-! ## Reset -/

theorem Chip.runs_disconnect (s : Link C) :
    ∃ r, K.Runs (Nina.disconnect (E := E)).run s r (s.exchanged K disconnectFrame) := by
  obtain ⟨r, hrun, -⟩ := Chip.runs_mapByte (K := K) (E := E) cmdDisconnect [[dummy]]
    (fun _ => ()) s
  exact ⟨r, hrun⟩

/-- A turn of the loop of `init`. -/
def resetTurn : Nina E (Option Unit) := do
  let _ ← attempt Nina.disconnect
  Nina.timer 300
  return none

theorem init_eq : Nina.init (E := E) = (do
    Nina.ofPin (hal .bootSetHigh)
    Nina.ofPin (hal .csSetHigh)
    Nina.ofPin (hal .rstSetLow)
    Nina.timer resetLowMs
    Nina.ofPin (hal .rstSetHigh)
    Nina.timer resetBootMs
    Nina.ofPin (hal .bootSetLow)
    repeatFor 3 resetTurn (pure ())) := rfl

theorem Chip.runs_resetTurns (n : ℕ) (s : Link C) :
    ∃ s' log, K.Runs (repeatFor n (resetTurn (E := E)) (pure ())).run s (.ok ()) s' ∧
      s'.log = s.log ++ log ∧ log.map Exchange.request = List.replicate n disconnectFrame := by
  induction n generalizing s with
  | zero => exact ⟨s, [], .ret _, (List.append_nil _).symm, rfl⟩
  | succ n ih =>
    obtain ⟨r, hrun⟩ := Chip.runs_disconnect (K := K) (E := E) s
    obtain ⟨s', log, hrest, hlog, hreq⟩ := ih (s.exchanged K disconnectFrame)
    have hturn : K.Runs (resetTurn (E := E)).run s (.ok none) (s.exchanged K disconnectFrame) :=
      hrun.attempt.ok ((Runs.timer 300).ok (.ret _))
    refine ⟨s', s.exchange K disconnectFrame :: log, hturn.ok hrest, ?_, ?_⟩
    · rw [hlog, Link.log_exchanged, List.append_assoc, List.singleton_append]
    · rw [List.map_cons, hreq, List.replicate_succ]
      rfl

/-- **A reset** is three disconnects, when no window is open. -/
theorem Chip.runs_init {s : Link C} (hs : s.window = []) :
    ∃ s' log, K.Runs (Nina.init (E := E)).run s (.ok ()) s' ∧ s'.log = s.log ++ log ∧
      log.map Exchange.request = List.replicate 3 disconnectFrame := by
  obtain ⟨s', log, hrun, hlog, hreq⟩ := Chip.runs_resetTurns (K := K) (E := E) 3 (s.deselect K)
  rw [init_eq]
  refine ⟨s', log, ?_, ?_, hreq⟩
  · have hboot : K.Runs (Nina.ofPin (E := E) (hal .bootSetHigh)).run s (.ok ()) s := rfl
    have hcs : K.Runs (Nina.ofPin (E := E) (hal .csSetHigh)).run s (.ok ()) (s.deselect K) := rfl
    generalize s.deselect K = s₁ at hrun hcs
    have hlow : K.Runs (Nina.ofPin (E := E) (hal .rstSetLow)).run s₁ (.ok ()) s₁ := rfl
    have hhigh : K.Runs (Nina.ofPin (E := E) (hal .rstSetHigh)).run s₁ (.ok ()) s₁ := rfl
    have hrelease : K.Runs (Nina.ofPin (E := E) (hal .bootSetLow)).run s₁ (.ok ()) s₁ := rfl
    exact hboot.ok (hcs.ok (hlow.ok ((Runs.timer _).ok (hhigh.ok ((Runs.timer _).ok
      (hrelease.ok hrun))))))
  · rw [hlog, Link.deselect, if_pos hs]

theorem Wired.init : Wired (Nina.init (E := E)).run := by
  have hpin : ∀ e : Prog (halSig E) (Except Unit Unit), Wired e → Wired (Nina.ofPin e).run :=
    fun e he => bind he fun r => by cases r <;> trivial
  have hturn : Wired (resetTurn (E := E)).run :=
    (attemptN ((byteCommand _ _).bindN fun _ => pureN _)).bindN fun _ => (timerN 300).bindN
      fun _ => pureN _
  have hcall : ∀ e : Hal, e.Wired → Wired (hal (E := E) e) := fun e he =>
    ⟨he, fun _ => trivial⟩
  rw [init_eq]
  exact bindN (hpin _ (hcall _ trivial)) fun _ => bindN (hpin _ (hcall _ trivial)) fun _ =>
    bindN (hpin _ (hcall _ trivial)) fun _ => (timerN _).bindN fun _ =>
    bindN (hpin _ (hcall _ trivial)) fun _ => (timerN _).bindN fun _ =>
    bindN (hpin _ (hcall _ trivial)) fun _ => repeatN hturn (pureN _) 3

/-! ## The way to the loop -/

namespace Server

def modeFrame (pin : UInt8) (mode : PinMode) : List UInt8 :=
  frame cmdSetPinMode [.short [pin], .short [mode.toU8]]

def listenFrame (sock : Socket) (port : UInt16) : List UInt8 :=
  frame cmdStartServerTcp [.short (beBytes port.toNat), .short [sock.raw], .short [tcpMode]]

/-- The requests that make pins dark outputs. -/
def configFrames (pins : List UInt8) : List (List UInt8) :=
  pins.flatMap fun pin => [modeFrame pin .output, levelFrame pin true]

theorem logs_configure (pins : List UInt8) :
    K.Logs (fun _ log => log.map Exchange.request = configFrames pins)
      (configure (E := E) pins) := by
  induction pins with
  | nil => exact .ret rfl
  | cons pin pins ih =>
    refine Chip.Logs.bind (logs_ackedCommand _ _) ?_
    rintro _ _ ⟨mode, rfl, hmode⟩
    refine Chip.Logs.bind (logs_ackedCommand _ _) ?_
    rintro _ _ ⟨level, rfl, hlevel⟩
    refine ih.mono fun _ log hlog => ?_
    rw [List.map_append, List.map_append, List.map_singleton, List.map_singleton, hlog, hmode,
      hlevel]
    rfl

theorem logs_connect (fuel : ℕ) (ssid psk : List UInt8) :
    K.Logs (fun r log => ∃ attempts, log = attempts.flatMap Trial.log ∧
        (∀ a ∈ attempts, a.For ssid psk) ∧ ConnectLog (.done r) attempts)
      (Nina.connect (E := E) fuel ssid psk).run := by
  rintro ⟨l, clock⟩ r s' h
  obtain ⟨o, s₁, attempts, hrun, hlog, hfor, hconnect⟩ :=
    Chip.ends_connect (K := K) (E := E) 5 fuel ssid psk l clock
  rw [connect_eq] at h
  obtain ⟨rfl, rfl⟩ := Prod.mk.inj (hrun.symm.trans h)
  exact ⟨_, hlog, attempts, rfl, hfor, hconnect⟩

theorem logs_tcpOpenSocket :
    K.Logs (fun r log => ∃ ex, log = [ex] ∧ ex.request = openFrame ∧
        ∀ sock, r = .ok sock ↔ ex.granted = some sock.raw)
      (Nina.tcpOpenSocket (E := E)).run :=
  Chip.logs_of_exchange .tcpOpenSocket openFrame fun s => by
    obtain ⟨r, hrun, hr⟩ := Chip.runs_tcpOpenSocket (K := K) (E := E) s
    exact ⟨r, hrun, _, rfl, rfl, hr⟩

/-- **The exchanges up to the accept loop**. -/
structure Boot (C : Type) where
  resets : List (Exchange C)
  configs : List (Exchange C)
  attempts : List (Trial C)
  opened : Exchange C
  listened : Exchange C

namespace Boot

def log (b : Boot C) : List (Exchange C) :=
  b.resets ++ b.configs ++ b.attempts.flatMap Trial.log ++ [b.opened, b.listened]

/-- **How the server comes to listen**: it resets the chip, makes the LED dark, associates within
five attempts, and listens on the socket that the chip grants. -/
structure Listens (b : Boot C) (listen : Socket) : Prop where
  resets : b.resets.map Exchange.request = List.replicate 3 disconnectFrame
  configs : b.configs.map Exchange.request = configFrames [ledR, ledG, ledB]
  attempts : ∀ a ∈ b.attempts, a.For ssid psk
  connected : ∃ earlier last, b.attempts = earlier ++ [last] ∧ last.Connected
  opened : b.opened.request = openFrame
  granted : b.opened.granted = some listen.raw
  listened : b.listened.request = listenFrame listen port

end Boot

theorem Boot.Listens.ne_stateFrame {b : Boot C} {listen : Socket} (h : b.Listens listen)
    (sock : Socket) : ∀ ex ∈ b.log, ex.request ≠ stateFrame sock := by
  have hne : ∀ requests : List (List UInt8), (∀ r ∈ requests, r ≠ stateFrame sock) →
      ∀ log : List (Exchange C), log.map Exchange.request = requests →
        ∀ ex ∈ log, ex.request ≠ stateFrame sock := fun requests hr log hlog ex hex =>
    hr _ (hlog ▸ List.mem_map_of_mem hex)
  refine List.forall_mem_append.mpr ⟨List.forall_mem_append.mpr ⟨List.forall_mem_append.mpr
    ⟨?_, ?_⟩, fun ex hex => ?_⟩, List.forall_mem_cons.mpr ⟨?_, List.forall_mem_singleton.mpr ?_⟩⟩
  · refine hne _ (fun r hr => ?_) _ h.resets
    exact List.eq_of_mem_replicate hr ▸ frame_ne_stateFrame (by decide) _ _
  · refine hne _ (fun r hr => ?_) _ h.configs
    obtain ⟨pin, -, hr⟩ := List.mem_flatMap.mp hr
    simp only [List.mem_cons, List.not_mem_nil, or_false] at hr
    rcases hr with rfl | rfl <;> exact frame_ne_stateFrame (by decide) _ _
  · obtain ⟨a, ha, hmem⟩ := List.mem_flatMap.mp hex
    obtain ⟨hasked, hpolls, htorn⟩ := h.attempts a ha
    rcases List.mem_cons.mp hmem with rfl | hmem
    · exact hasked ▸ frame_ne_stateFrame (by decide) _ _
    · rcases List.mem_append.mp hmem with hmem | hmem
      · exact hpolls ex hmem ▸ frame_ne_stateFrame (by decide) _ _
      · exact htorn ex hmem ▸ frame_ne_stateFrame (by decide) _ _
  · exact h.opened ▸ frame_ne_stateFrame (by decide) _ _
  · exact h.listened ▸ frame_ne_stateFrame (by decide) _ _

section Runs

variable [Heapless]

/-- What follows the reset. -/
theorem logs_afterInit (fuel n : ℕ) {resets : List (Exchange C)}
    (hresets : resets.map Exchange.request = List.replicate 3 disconnectFrame) :
    K.Logs (fun (r : Option Memory) log => ∀ mem, r = some mem →
        ∃ (b : Boot C) (listen : Socket) (ts : List (Turn C)), ts.length = n ∧
          resets ++ log = b.log ++ ts.flatMap Turn.log ∧ b.Listens listen ∧
          Session listen {} ts mem.state)
      (do
        configure (E := E) [ledR, ledG, ledB]
        let .ok _ ← (Nina.connect fuel ssid psk).run | return none
        let .ok listen ← Nina.tcpOpenSocket.run | return none
        let .ok _ ← (Nina.tcpListen listen port).run | return none
        let mem ← turns fuel listen n {}
        return some mem) := by
  refine Chip.Logs.bind (logs_configure _) ?_
  intro _ configs hconfigs
  refine Chip.Logs.bind (logs_connect fuel ssid psk) ?_
  rintro (e | _) _ ⟨attempts, rfl, hfor, hconnect⟩
  · exact .ret nofun
  refine Chip.Logs.bind logs_tcpOpenSocket ?_
  rintro (e | listen) _ ⟨opened, rfl, hopened, hgranted⟩
  · exact .ret nofun
  refine Chip.Logs.bind (logs_ackedCommand _ _) ?_
  rintro (e | _) _ ⟨listened, rfl, hlistened⟩
  · exact .ret nofun
  refine Chip.Logs.bind (logs_turns fuel n listen (List.length_replicate ..)) ?_
  rintro mem _ ⟨ts, hn, rfl, hsession⟩
  refine .ret ?_
  rintro _ ⟨⟩
  refine ⟨⟨resets, configs, attempts, opened, listened⟩, listen, ts, hn, by simp [Boot.log],
    ⟨hresets, hconfigs, hfor, ?_, hopened, (hgranted listen).mp rfl, hlistened⟩, hsession⟩
  obtain ⟨-, earlier, last, hattempts, hlast, -⟩ | ⟨ho, -⟩ := hconnect
  · exact ⟨earlier, last, hattempts, hlast⟩
  · exact absurd ho (by simp)

/-- **A run of the server is a boot and a session**, whatever the chip replies and the clock
reads. -/
theorem exists_session {fuel n : ℕ} {s s' : Link C × Stream' ℕ} {mem : Memory}
    (hs : s.1.window = []) (h : K.Ends (main (E := E) fuel n) s (.done (some mem)) s') :
    ∃ (b : Boot C) (listen : Socket) (ts : List (Turn C)), ts.length = n ∧
      s'.1.log = s.1.log ++ (b.log ++ ts.flatMap Turn.log) ∧ b.Listens listen ∧
      Session listen {} ts mem.state := by
  obtain ⟨l, clock⟩ := s
  obtain ⟨l₁, resets, hinit, hlog, hresets⟩ := Chip.runs_init (K := K) (E := E) hs
  have hinit' : K.Ends (Nina.init (E := E)).run (l, clock) (.done (.ok ())) (l₁, clock) := by
    rw [Chip.Ends, Chip.exec_clocked .init, hinit]
  obtain ⟨r, s₁, hinit₁, hrest⟩ := h.exists_of_bind
  obtain ⟨hr, rfl⟩ := Prod.mk.inj (hinit'.symm.trans hinit₁)
  obtain rfl := Outcome.done.inj hr
  obtain ⟨log, hlog', hafter⟩ := logs_afterInit fuel n hresets _ _ _ hrest
  obtain ⟨b, listen, ts, hn, hlogs, hboot, hsession⟩ := hafter mem rfl
  refine ⟨b, listen, ts, hn, ?_, hboot, hsession⟩
  rw [hlog', hlog, List.append_assoc, hlogs]

/-! ## Whole runs -/

/-- Every visit of a session is one of a client that was served. -/
theorem Session.serves {listen : Socket} {s s' : LedState} {ts : List (Turn C)}
    (h : Session listen s ts s') {v : Visit C} (hv : .visit v ∈ ts) : v.Serves := by
  induction ts generalizing s with
  | nil => exact absurd hv List.not_mem_nil
  | cons t ts ih =>
    obtain ⟨s₁, ht, hts⟩ := h
    rcases List.mem_cons.mp hv with rfl | hmem
    · cases ht with
      | visit _ _ hserves => exact hserves
    · exact ih hts hmem

/-- **The run of a server**, whatever the chip replies and the clock reads: it boots, and then each
of its turns is idle or serves one client whole.  It never asks for the state of a socket, which
would poison a slot that was just accepted, and it closes every client that it accepts, once. -/
theorem main_session {fuel n : ℕ} {s s' : Link C × Stream' ℕ} {mem : Memory}
    (hs : s.1.window = []) (h : K.Ends (main (E := E) fuel n) s (.done (some mem)) s') :
    ∃ (b : Boot C) (listen : Socket) (ts : List (Turn C)), ts.length = n ∧
      s'.1.log = s.1.log ++ (b.log ++ ts.flatMap Turn.log) ∧ b.Listens listen ∧
      Session listen {} ts mem.state ∧
      (∀ sock, ∀ ex ∈ b.log ++ ts.flatMap Turn.log, ex.request ≠ stateFrame sock) ∧
      ∀ v, .visit v ∈ ts →
        v.rest.filter (fun ex => opcode ex.request = cmdStopClientTcp) = [v.close] := by
  obtain ⟨b, listen, ts, hn, hlog, hboot, hsession⟩ := exists_session hs h
  exact ⟨b, listen, ts, hn, hlog, hboot, hsession,
    fun sock => List.forall_mem_append.mpr ⟨hboot.ne_stateFrame sock, hsession.ne_stateFrame sock⟩,
    fun v hv => (hsession.serves hv).filter_stop⟩

end Runs

/-- A chip with a client on slot 1 that asks for red, and whose pins are left out. -/
def requestChip : Chip Unit where
  idle c := c
  serve c request :=
    let op := opcode request
    (c, if op = cmdGetConnStatus then oneParam len8 op [3]
      else if op = cmdGetSocket then oneParam len8 op [0]
      else if op = cmdAvailDataTcp then oneParam len8 op (if request.getD 2 0 = 2 then [1] else [9])
      else if op = cmdGetDatabufTcp then oneParam len16 op (ascii "GET /r/1\r\n")
      else if op = cmdSendDataTcp then oneParam len8 op [64]
      else oneParam len8 op [1])

section Piecewise

attribute [local instance] HString.piecewise

/-- One turn of the server on it. -/
theorem main_session_requestChip : ∃ s',
    requestChip.Ends (E := Unit) (main 100 1) (⟨(), [], [], silence⟩, Stream'.const 0)
      (.done (some ⟨⟨true, false, false⟩, ascii "GET /r/1\r\n" ++ List.replicate 246 0⟩)) s' ∧
    ∃ (b : Boot Unit) (listen : Socket) (ts : List (Turn Unit)),
      s'.1.log = b.log ++ ts.flatMap Turn.log ∧ Session listen {} ts ⟨true, false, false⟩ := by
  have hr : ((requestChip.clocked Unit).exec (main 100 1)
      (⟨(), [], [], silence⟩, Stream'.const 0)).1 =
      .done (some ⟨⟨true, false, false⟩, ascii "GET /r/1\r\n" ++ List.replicate 246 0⟩) := by
    decide +kernel
  obtain ⟨s', hends⟩ := Chip.exists_ends hr
  obtain ⟨b, listen, ts, -, hlog, -, hsession, -⟩ := main_session (E := Unit) rfl hends
  exact ⟨s', hends, b, listen, ts, hlog, hsession⟩

end Piecewise

end Server

end EmbassyNina
