import EmbassyNina.Exchange.Packing
import EmbassyNina.Machinery.Monitor

/-!
# Exchange/Senders — what the two senders put on the bus

Both senders clock out `frame` of their parameters: `sendCmdMixed` as one write, and only when it
fits 256 bytes; `sendCmd` piece by piece, whatever its parameters' number and lengths
(`flatten_streamed`).  So the mixed sender is an exact encoder (`sendCmdMixed_exact`), and the short
one is exact as long as the count and the lengths fit a byte (`sendCmd_decodable_iff`).
-/

namespace EmbassyNina

open Machinery Prog

variable {E : Type} {α : Type}

/-! ## What a request window does -/

def Hal.IsWrite : Hal → Prop
  | .busWrite _ => True
  | _ => False

theorem does_write (bytes : List UInt8) :
    DoesE (S := halSig E) Hal.IsWrite (fun _ => True) (Nina.write (E := E) bytes) :=
  ⟨trivial, fun _ _ _ => trivial⟩

theorem does_padLoop (n total : ℕ) :
    DoesE (S := halSig E) Hal.IsWrite (fun _ => True) (padLoop (E := E) n total) := by
  induction n generalizing total with
  | zero => exact rfl
  | succ n ih =>
    unfold padLoop
    split
    · exact fun _ _ => trivial
    · exact (does_write _).bind fun _ _ => ih _

theorem does_writeParams (params : List (List UInt8)) (total : ℕ) :
    DoesE (S := halSig E) Hal.IsWrite (fun _ => True) (writeParams (E := E) params total) := by
  induction params generalizing total with
  | nil => exact fun _ _ => trivial
  | cons p params ih => exact (does_write _).bind fun _ _ => (does_write _).bind fun _ _ => ih _

theorem does_sendCmdBody (cmd : UInt8) (params : List (List UInt8)) :
    DoesE (S := halSig E) Hal.IsWrite (fun _ => True) (sendCmdBody (E := E) cmd params) :=
  (does_write _).bind fun _ _ => (does_writeParams _ _).bind fun _ _ =>
    (does_write _).bind fun _ _ => does_padLoop _ _

/-! ## What is written -/

/-- The automaton that collects what the bus calls clock out, when nothing fails. -/
def tally (E : Type) : Monitor (halSig E) (List (List UInt8)) where
  may := Hal.Works
  next s e _ := some (s ++ e.clocked)

theorem tally_run (tr : List (Event (halSig E))) (s : List (List UInt8)) :
    (tally E).run s tr = some (s ++ clockedOut tr) := by
  induction tr generalizing s with
  | nil => rw [clockedOut, List.flatMap_nil, List.append_nil]; rfl
  | cons ev tr ih =>
    rw [clockedOut, List.flatMap_cons, ← List.append_assoc]
    exact ih _

/-- `x` succeeds with `a` and clocks out `ws`, when nothing fails. -/
def Puts (ws : List (List UInt8)) (a : α) (x : Nina E α) : Prop :=
  ∀ s, (tally E).Safe (fun r s' => r = .ok a ∧ s' = s ++ ws) x.run s

theorem puts_pure (a : α) : Puts [] a (pure a : Nina E α) :=
  fun s => ⟨rfl, (List.append_nil s).symm⟩

theorem puts_write (bytes : List UInt8) : Puts [bytes] () (Nina.write (E := E) bytes) := by
  rintro s r hr
  obtain rfl : r = .ok () := hr
  exact ⟨_, rfl, rfl, rfl⟩

theorem Puts.bind {β : Type} {ws ws' : List (List UInt8)} {a : α} {b : β} {x : Nina E α}
    {f : α → Nina E β} (hx : Puts ws a x) (hf : Puts ws' b (f a)) :
    Puts (ws ++ ws') b (x >>= f) := by
  intro s
  refine Monitor.safe_run_bind.mpr ((hx s).mono ?_)
  rintro r s' ⟨rfl, rfl⟩
  rw [← List.append_assoc]
  exact hf _

/-- The padding loop ends within its unrolled turns. -/
theorem puts_padLoop (n total : ℕ) (h : padCount total < n) :
    Puts ((padding total).map fun b => [b]) () (padLoop (E := E) n total) := by
  induction n generalizing total with
  | zero => exact absurd h (Nat.not_lt_zero _)
  | succ n ih =>
    rw [padLoop]
    by_cases h4 : total % 4 = 0
    · rw [if_pos h4, padding_eq_nil h4]
      exact puts_pure ()
    · rw [if_neg h4, padding_succ h4]
      have hcount := padCount_succ h4
      exact (puts_write [dummy]).bind (ih _ (by omega))

/-- The writes of the parameters of a streamed frame. -/
def paramWrites (params : List (List UInt8)) : List (List UInt8) :=
  params.flatMap fun p => [[UInt8.ofNat p.length], p]

theorem flatten_paramWrites (params : List (List UInt8)) :
    (paramWrites params).flatten = encodeAll (params.map .short) := by
  induction params with
  | nil => rfl
  | cons p params ih =>
    rw [List.map_cons, encodeAll_cons, encode_short, ← ih]
    rfl

theorem puts_writeParams (params : List (List UInt8)) (total : ℕ) :
    Puts (paramWrites params) (total + (encodeAll (params.map .short)).length)
      (writeParams (E := E) params total) := by
  induction params generalizing total with
  | nil => exact puts_pure total
  | cons p params ih =>
    have htotal : total + (encodeAll ((p :: params).map .short)).length =
        total + (1 + p.length) + (encodeAll (params.map .short)).length := by
      rw [List.map_cons, encodeAll_cons, encode_short, List.length_append, List.length_cons]
      omega
    rw [htotal]
    exact (puts_write [UInt8.ofNat p.length]).bind ((puts_write p).bind (ih _))

/-- The writes of a streamed frame. -/
def streamed (cmd : UInt8) (params : List (List UInt8)) : List (List UInt8) :=
  [startCmd, cmd &&& ~~~replyFlag, UInt8.ofNat params.length] :: (paramWrites params ++
    ([endCmd] :: (padding (frameLength (params.map .short))).map fun b => [b]))

/-- Streamed or in one piece, it is the same frame. -/
theorem flatten_streamed (cmd : UInt8) (params : List (List UInt8)) :
    (streamed cmd params).flatten = frame cmd (params.map .short) := by
  have hpad : ∀ bytes : List UInt8, (bytes.map fun b => [b]).flatten = bytes := fun bytes => by
    rw [← List.flatMap_def, List.flatMap_singleton']
  rw [streamed, List.flatten_cons, List.flatten_append, flatten_paramWrites, List.flatten_cons,
    hpad, frame, List.length_map]
  simp only [List.append_assoc]

theorem puts_sendCmdBody (cmd : UInt8) (params : List (List UInt8)) :
    Puts (streamed cmd params) () (sendCmdBody (E := E) cmd params) := by
  have htotal : 3 + (encodeAll (params.map .short)).length + 1 =
      frameLength (params.map .short) := by
    rw [frameLength]
    omega
  have hpad := puts_padLoop (E := E) 4 (3 + (encodeAll (params.map .short)).length + 1)
    (Nat.lt_succ_of_le (padCount_le _))
  rw [htotal] at hpad
  exact (puts_write _).bind ((puts_writeParams params 3).bind ((puts_write _).bind
    (by rw [padTo4, htotal]; exact hpad)))

/-- A window clocks out what its body does. -/
theorem puts_selected {ws : List (List UInt8)} {x : Nina E Unit} (hx : Puts ws () x) :
    Puts ws () (ExceptT.mk (selected .error x.run)) := by
  intro s
  have hnil : some (s ++ []) = some s := congrArg some (List.append_nil s)
  have hclose : (tally E).Safe (fun r s' => r = .ok () ∧ s' = s ++ ws)
      (x.run.bind fun res => (hal .csSetHigh).bind fun _ => .ret res) s := by
    refine Monitor.safe_bind.mpr ((hx s).mono ?_)
    rintro _ _ ⟨rfl, rfl⟩ r _
    exact ⟨_, rfl, rfl, List.append_nil _⟩
  intro r hr
  obtain rfl : r = .ok () := hr
  refine ⟨s, hnil, fun r hr => ?_⟩
  obtain rfl : r = .ok () := hr
  exact ⟨s, hnil, fun _ _ => ⟨s, hnil, hclose⟩⟩

/-- What a run that is over has clocked out. -/
theorem Puts.of_steps {ws : List (List UInt8)} {a : α} {x : Nina E α} (hx : Puts ws a x)
    {tr : List (Event (halSig E))} {r : Except (Error E) α} (h : Steps x.run tr (.ret r))
    (hw : Works tr) : r = .ok a ∧ clockedOut tr = ws := by
  obtain ⟨s, hs, rfl, rfl⟩ := (hx []).steps h hw
  rw [tally_run] at hs
  exact ⟨rfl, Option.some.inj hs⟩

/-! ## Exactness -/

theorem total_write (bytes : List UInt8) : (Nina.write (E := E) bytes).run.Total := fun _ => trivial

theorem total_bindN {β : Type} {x : Nina E α} {f : α → Nina E β} (hx : x.run.Total)
    (hf : ∀ a, (f a).run.Total) : (x >>= f).run.Total := by
  rw [run_bind_eq]
  exact hx.bind fun
    | .ok a => hf a
    | .error _ => trivial

theorem total_padLoop (n total : ℕ) (h : padCount total < n) :
    (padLoop (E := E) n total).run.Total := by
  induction n generalizing total with
  | zero => exact absurd h (Nat.not_lt_zero _)
  | succ n ih =>
    rw [padLoop]
    by_cases h4 : total % 4 = 0
    · rw [if_pos h4]
      trivial
    · rw [if_neg h4]
      have hcount := padCount_succ h4
      exact total_bindN (total_write _) fun _ => ih _ (by omega)

theorem total_writeParams (params : List (List UInt8)) (total : ℕ) :
    (writeParams (E := E) params total).run.Total := by
  induction params generalizing total with
  | nil => trivial
  | cons p params ih =>
    exact total_bindN (total_write _) fun _ => total_bindN (total_write _) fun _ => ih _

theorem total_selected {β : Type} {fail : Error E → β} {body : Prog (halSig E) β}
    (hb : body.Total) : (selected fail body).Total := fun
  | .error _ => trivial
  | .ok _ => fun
    | .error _ => trivial
    | .ok _ => fun _ => hb.bind fun _ _ => trivial

theorem total_sendCmdBody (cmd : UInt8) (params : List (List UInt8)) :
    (sendCmdBody (E := E) cmd params).run.Total :=
  total_bindN (total_write _) fun _ => total_bindN (total_writeParams _ _) fun _ =>
    total_bindN (total_write _) fun _ => total_padLoop _ _ (Nat.lt_succ_of_le (padCount_le _))

theorem total_sendCmd (cmd : UInt8) (params : List (List UInt8)) :
    (sendCmd (E := E) cmd params).run.Total := total_selected (total_sendCmdBody cmd params)

/-- What a streamed frame's documented layout promises: nothing was clocked out, or it reads back
as the opcode and the parameters, and all the rest is padding. -/
def Decodable (cmd : UInt8) (params : List (List UInt8)) (r : Except (Error E) Unit)
    (tr : List (Event (halSig E))) : Prop :=
  (∃ e, r = .error e ∧ (clockedOut tr).flatten = []) ∨
    ∃ pad, readFrame allShort (clockedOut tr).flatten = some ⟨cmd, params, pad⟩ ∧
      ∀ b ∈ pad, b = dummy

/-- The frame that goes out is read back exactly when nothing in it was cut to a byte. -/
theorem decodable_streamed {cmd : UInt8} (hcmd : cmd < 0x80) {params : List (List UInt8)}
    {tr : List (Event (halSig E))} (htr : clockedOut tr = streamed cmd params) :
    Decodable cmd params (.ok ()) tr ↔ params.length < 256 ∧ ∀ p ∈ params, p.length < 256 := by
  rw [Decodable, htr, flatten_streamed]
  constructor
  · rintro (⟨e, he, -⟩ | ⟨pad, hpad, -⟩)
    · exact absurd he (by simp)
    · exact fits_of_readFrame_short hpad
  · rintro ⟨hcount, hlen⟩
    have hread := readFrame_short hcount hlen cmd
    rw [and_not_replyFlag hcmd] at hread
    exact .inr ⟨_, hread, fun b hb => List.eq_of_mem_replicate hb⟩

/-- **`sendCmd`'s frame can be decoded exactly when its count and its lengths fit a byte.** -/
theorem sendCmd_decodable_iff {cmd : UInt8} (hcmd : cmd < 0x80) (params : List (List UInt8)) :
    (sendCmd (E := E) cmd params).run.Total ∧
      ∀ tr r, Steps (sendCmd (E := E) cmd params).run tr (.ret r) → Works tr →
        (Decodable cmd params r tr ↔ params.length < 256 ∧ ∀ p ∈ params, p.length < 256) := by
  refine ⟨total_sendCmd cmd params, fun tr r h hw => ?_⟩
  obtain ⟨rfl, htr⟩ := (puts_selected (puts_sendCmdBody cmd params)).of_steps h hw
  exact decodable_streamed hcmd htr

/-- A run of `sendCmd` in which nothing fails. -/
theorem exists_sendCmd_run (cmd : UInt8) (params : List (List UInt8)) :
    ∃ tr, Steps (sendCmd (E := Unit) cmd params).run tr (.ret (.ok ())) ∧ Works tr ∧
      clockedOut tr = streamed cmd params := by
  obtain ⟨r, hsteps⟩ := (quietChip Unit).exists_run (total_sendCmd cmd params) ()
  have hworks := works_trace quietChip_works (sendCmd (E := Unit) cmd params).run ()
  obtain ⟨rfl, htr⟩ := (puts_selected (puts_sendCmdBody cmd params)).of_steps hsteps hworks
  exact ⟨_, hsteps, hworks, htr⟩

/-- A disconnect request reads back. -/
theorem sendCmd_decodable_disconnect :
    ∃ tr, Steps (sendCmd (E := Unit) cmdDisconnect [[dummy]]).run tr (.ret (.ok ())) ∧ Works tr ∧
      Decodable cmdDisconnect [[dummy]] (.ok ()) tr := by
  obtain ⟨tr, hsteps, hworks, -⟩ := exists_sendCmd_run cmdDisconnect [[dummy]]
  exact ⟨tr, hsteps, hworks,
    ((sendCmd_decodable_iff (by decide) [[dummy]]).2 _ _ hsteps hworks).mpr (by decide)⟩

/-- A lookup of a name of 256 bytes goes out, its length cut to zero. -/
theorem sendCmd_long_hostname_not_decodable :
    ∃ tr, Steps (sendCmd (E := Unit) cmdReqHostByName [List.replicate 256 0x61]).run tr
        (.ret (.ok ())) ∧ Works tr ∧
      ¬ Decodable cmdReqHostByName [List.replicate 256 0x61] (.ok ()) tr := by
  obtain ⟨tr, hsteps, hworks, htr⟩ := exists_sendCmd_run cmdReqHostByName [List.replicate 256 0x61]
  refine ⟨tr, hsteps, hworks, fun hdec => ?_⟩
  obtain ⟨-, hlen⟩ := (decodable_streamed (by decide) htr).mp hdec
  have := hlen _ (List.mem_singleton_self _)
  rw [List.length_replicate] at this
  exact absurd this (by decide)

/-- Once it is packed, a frame is not refused for its size. -/
theorem does_selected_write (bytes : List UInt8) :
    (selected .error (Nina.write (E := E) bytes).run).Does (fun _ => True)
      (· ≠ .error .bufferTooSmall) := by
  have hpin : (Except.error Error.pin : Except (Error E) Unit) ≠ .error .bufferTooSmall := by simp
  have hspi : ∀ e : E, (Except.error (Error.spi e) : Except _ Unit) ≠ .error .bufferTooSmall := by
    simp
  have hok : (Except.ok () : Except (Error E) Unit) ≠ .error .bufferTooSmall := by simp
  exact ⟨trivial, fun
    | .error _ => hpin
    | .ok _ => ⟨trivial, fun
      | .error _ => hpin
      | .ok _ => ⟨trivial, fun _ => ⟨trivial, fun
        | .error e => ⟨trivial, fun _ => hspi e⟩
        | .ok _ => ⟨trivial, fun _ => hok⟩⟩⟩⟩⟩

theorem total_sendCmdMixed (cmd : UInt8) (params : List Param) :
    (sendCmdMixed (E := E) cmd params).run.Total := by
  rw [sendCmdMixed_run_eq]
  split
  · exact total_selected (total_write _)
  · trivial

/-- **`sendCmdMixed` is an exact encoder that never panics.**  A frame of more than 256 bytes is
refused before the first call; any other goes out as one write, which says exactly the opcode and
the parameters. -/
theorem sendCmdMixed_exact {cmd : UInt8} (hcmd : cmd < 0x80) (params : List Param) :
    (sendCmdMixed (E := E) cmd params).run.Total ∧
      (256 < 4 + (params.map fun p => p.code.width + p.data.length).sum →
        (sendCmdMixed (E := E) cmd params).run = .ret (.error .bufferTooSmall)) ∧
      (4 + (params.map fun p => p.code.width + p.data.length).sum ≤ 256 →
        ∃ bytes, ExactFrame cmd params bytes ∧
          ∀ tr r, Steps (sendCmdMixed (E := E) cmd params).run tr (.ret r) →
            r ≠ .error .bufferTooSmall ∧ (Works tr → r = .ok () ∧ clockedOut tr = [bytes])) := by
  rw [← length_encodeAll, ← frameLength, sendCmdMixed_run_eq]
  refine ⟨sendCmdMixed_run_eq (E := E) cmd params ▸ total_sendCmdMixed cmd params,
    fun h => if_neg (by omega), fun h => ⟨frame cmd params, exactFrame_frame hcmd h, ?_⟩⟩
  rw [if_pos h]
  refine fun tr r hsteps => ⟨?_, fun hw => ?_⟩
  · exact hsteps.does (does_selected_write _)
  · exact (puts_selected (puts_write _)).of_steps hsteps hw

/-- A chunk too long for the buffer is refused; a chunk of four bytes goes out exactly. -/
theorem sendCmdMixed_exact_sendData :
    (sendCmdMixed (E := Unit) cmdSendDataTcp [.long [0], .long (List.replicate 248 0)]).run =
        .ret (.error .bufferTooSmall) ∧
      ∃ bytes, ExactFrame cmdSendDataTcp [.long [0], .long [1, 2, 3, 4]] bytes ∧
        ∀ tr r, Steps (sendCmdMixed (E := Unit) cmdSendDataTcp [.long [0], .long [1, 2, 3, 4]]).run
            tr (.ret r) →
          r ≠ .error .bufferTooSmall ∧ (Works tr → r = .ok () ∧ clockedOut tr = [bytes]) :=
  ⟨(sendCmdMixed_exact (by decide) [.long [0], .long (List.replicate 248 0)]).2.1
      (by decide +kernel),
    (sendCmdMixed_exact (by decide) [.long [0], .long [1, 2, 3, 4]]).2.2 (by decide +kernel)⟩

end EmbassyNina
