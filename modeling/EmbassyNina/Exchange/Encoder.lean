import EmbassyNina.Exchange.Faults

/-!
# Exchange/Encoder — the two senders are one encoder

What `sendCmd` streams piece by piece is what `sendCmdMixed` packs into its buffer, for every list
of short parameters that fits it.  And whatever the parameters, an `Ok` of `sendCmd` means that the
whole frame has gone out: its length is a multiple of four, `endCmd` comes straight after the last
parameter, and after it come at most three bytes of padding (`sendCmd_one_encoder`).
-/

namespace EmbassyNina

open Machinery Prog

variable {E : Type}

/-- **An `Ok` means that everything has been written.** -/
theorem clockedOut_of_ok {ws : List (List UInt8)} {x : Nina E Unit} (hx : Puts ws () x)
    (hw : DoesE (S := halSig E) Hal.IsWrite (fun _ => True) x) (hsurf : SurfacesN x)
    {tr : List (Event (halSig E))} (h : Steps (selected .error x.run) tr (.ret (.ok ()))) :
    clockedOut tr = ws := by
  obtain ⟨hpin, -⟩ | ⟨t, hbody, -, -, hout⟩ := selected_cases h
  · exact absurd hpin (by simp)
  obtain hnone | ⟨e, -, he⟩ := hsurf t _ hbody
  · rw [hout]
    exact (hx.of_steps hbody (works_of_faults hbody hw hnone)).2
  · exact absurd he (by simp)

theorem clockedOut_sendCmd {cmd : UInt8} {params : List (List UInt8)}
    {tr : List (Event (halSig E))}
    (h : Steps (sendCmd (E := E) cmd params).run tr (.ret (.ok ()))) :
    clockedOut tr = streamed cmd params :=
  clockedOut_of_ok (puts_sendCmdBody _ _) (does_sendCmdBody _ _) (surfaces_sendCmdBody _ _) h

theorem clockedOut_sendCmdMixed {cmd : UInt8} {params : List Param}
    {tr : List (Event (halSig E))}
    (h : Steps (sendCmdMixed (E := E) cmd params).run tr (.ret (.ok ()))) :
    clockedOut tr = [frame cmd params] := by
  rw [sendCmdMixed_run_eq] at h
  split at h
  · exact clockedOut_of_ok (puts_write _) (does_write _) (surfaces_write _) h
  · exact absurd (Steps.done h).2 (by simp)

/-- The layout of a frame of short parameters, byte by byte. -/
theorem frame_short (cmd : UInt8) (params : List (List UInt8)) :
    frame cmd (params.map .short) =
      [startCmd, cmd &&& ~~~replyFlag, UInt8.ofNat params.length] ++
        params.flatMap (fun p => UInt8.ofNat p.length :: p) ++ [endCmd] ++
        List.replicate (padCount (frameLength (params.map .short))) dummy := by
  have hparams : encodeAll (params.map .short) =
      params.flatMap fun p => UInt8.ofNat p.length :: p := List.flatMap_map _ _ _
  rw [frame, List.length_map, hparams, padding]

/-- **The two senders are one encoder, and every frame is 4-aligned.**  Both return, whatever they
are answered.  On short parameters whose frame fits 256 bytes, both succeed where nothing fails, and
what one streams is the other's one write.  Whatever the parameters, a streamed frame that was sent
is whole, and at most three bytes of padding bring it to a multiple of four. -/
theorem sendCmd_one_encoder (cmd : UInt8) (params : List (List UInt8)) :
    ((sendCmd (E := E) cmd params).run.Total ∧
      (sendCmdMixed (E := E) cmd (params.map .short)).run.Total) ∧
    ((frame cmd (params.map .short)).length ≤ 256 →
      (∀ tr r, Steps (sendCmd (E := E) cmd params).run tr (.ret r) → Works tr → r = .ok ()) ∧
      (∀ tr r, Steps (sendCmdMixed (E := E) cmd (params.map .short)).run tr (.ret r) → Works tr →
        r = .ok ()) ∧
      ∀ tr tr', Steps (sendCmd (E := E) cmd params).run tr (.ret (.ok ())) →
        Steps (sendCmdMixed (E := E) cmd (params.map .short)).run tr' (.ret (.ok ())) →
        clockedOut tr' = [(clockedOut tr).flatten]) ∧
    ∀ tr, Steps (sendCmd (E := E) cmd params).run tr (.ret (.ok ())) →
      4 ∣ (clockedOut tr).flatten.length ∧
      ∃ k ≤ 3, (clockedOut tr).flatten =
        [startCmd, cmd &&& ~~~replyFlag, UInt8.ofNat params.length] ++
          params.flatMap (fun p => UInt8.ofNat p.length :: p) ++ [endCmd] ++
          List.replicate k dummy := by
  refine ⟨⟨total_sendCmd cmd params, total_sendCmdMixed cmd _⟩,
    fun hfits => ⟨fun tr r h hw => ?_, fun tr r h hw => ?_, fun tr tr' h h' => ?_⟩, fun tr h => ?_⟩
  · exact ((puts_selected (puts_sendCmdBody cmd params)).of_steps h hw).1
  · rw [length_frame] at hfits
    rw [sendCmdMixed_run_eq, if_pos (by omega)] at h
    exact ((puts_selected (puts_write _)).of_steps h hw).1
  · rw [clockedOut_sendCmd h, clockedOut_sendCmdMixed h', flatten_streamed]
  · rw [clockedOut_sendCmd h, flatten_streamed]
    exact ⟨four_dvd_length_frame _ _, _, padCount_le _, frame_short _ _⟩

/-- A poll of the connection state goes out the same way through both, in eight bytes. -/
theorem sendCmd_one_encoder_status :
    ∃ tr tr', Steps (sendCmd (E := Unit) cmdGetConnStatus [[dummy]]).run tr (.ret (.ok ())) ∧
      Steps (sendCmdMixed (E := Unit) cmdGetConnStatus [.short [dummy]]).run tr' (.ret (.ok ())) ∧
      (clockedOut tr).flatten = [startCmd, cmdGetConnStatus, 1, 1, dummy, endCmd, dummy, dummy] ∧
      clockedOut tr' = [(clockedOut tr).flatten] ∧ 4 ∣ (clockedOut tr).flatten.length := by
  obtain ⟨⟨htotal, htotal'⟩, hsame, halign⟩ :=
    sendCmd_one_encoder (E := Unit) cmdGetConnStatus [[dummy]]
  obtain ⟨hok, hok', hwrites⟩ := hsame (by decide)
  obtain ⟨r, hsteps⟩ := (quietChip Unit).exists_run htotal ()
  obtain ⟨r', hsteps'⟩ := (quietChip Unit).exists_run htotal' ()
  obtain rfl := hok _ r hsteps (works_trace quietChip_works _ ())
  obtain rfl := hok' _ r' hsteps' (works_trace quietChip_works _ ())
  exact ⟨_, _, hsteps, hsteps', rfl, hwrites _ _ hsteps hsteps', (halign _ hsteps).1⟩

end EmbassyNina
