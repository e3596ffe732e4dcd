import SerialBridge.Device

/-! # Writing to a device

Whatever a device does, the bytes it takes are the front of what is written, in order, and
they are all of it when the write succeeds (`writeAll_sound`).  All that a write changes in
a device is that a part of its script is used up (`writeAll_fst`).

A device whose write calls take a byte at least and never fail takes everything, however it
parts it (`writeAll_of_accepting`).
-/

namespace SerialBridge

/-- Write calls take a byte at least and never fail, and neither does flushing. -/
structure Faults.Accepting (f : Faults) : Prop where
  script_takes : ∀ step ∈ f.script, ∃ most, step = .take (most + 1)
  writeError_none : f.writeError = none
  flushError_none : f.flushError = none
  maxWrite_ne_zero : f.maxWrite ≠ some 0

namespace Device

/-- What came of writing some bytes fits them: a front of them was taken, and without an
error all of them. -/
structure Written.Sound (w : Written) (bytes : Bytes) : Prop where
  accepted_front : w.accepted <+: bytes
  accepted_eq : w.error = none → w.accepted = bytes

theorem Written.sound_error (bytes : Bytes) (e : IoError) : (⟨[], some e⟩ : Written).Sound bytes :=
  ⟨List.nil_prefix, fun h => nomatch h⟩

/-- The device with another script. -/
def withScript (d : Device) (script : List WriteStep) : Device :=
  { d with faults := { d.faults with script } }

/-- A write call uses up one step of the script. -/
theorem nextWrite_fst (d : Device) : d.nextWrite.1 = d.withScript d.faults.script.tail := by
  unfold nextWrite
  cases hs : d.faults.script with
  | nil =>
    have hd : d = d.withScript [] := by rw [withScript, ← hs]
    dsimp only
    split <;> exact hd
  | cons step rest =>
    dsimp only
    cases step <;> rfl

theorem writeLoop_fst (n : Nat) (d : Device) (bytes : Bytes) :
    ∃ script, script <:+ d.faults.script ∧ (writeLoop n d bytes).1 = d.withScript script := by
  induction n generalizing d bytes with
  | zero =>
    refine ⟨d.faults.script, List.suffix_rfl, ?_⟩
    cases bytes <;> rfl
  | succ n ih =>
    cases bytes with
    | nil => exact ⟨d.faults.script, List.suffix_rfl, rfl⟩
    | cons b bytes =>
      have hfst := d.nextWrite_fst
      have used := List.tail_suffix d.faults.script
      have again : ∀ rest, ∃ script, script <:+ d.faults.script ∧
          (writeLoop n d.nextWrite.1 rest).1 = d.withScript script := by
        intro rest
        obtain ⟨script, hscript, heq⟩ := ih d.nextWrite.1 rest
        rw [hfst] at hscript heq
        exact ⟨script, hscript.trans used, by rw [hfst, heq]; rfl⟩
      have here : ∃ script, script <:+ d.faults.script ∧ d.nextWrite.1 = d.withScript script :=
        ⟨_, used, hfst⟩
      rw [writeLoop]
      split
      · rename_i d' e hnext
        rw [hnext] at here again
        split
        · exact again _
        · exact here
      · rename_i d' hnext
        rw [hnext] at here
        exact here
      · rename_i d' hnext
        rw [hnext] at here
        exact here
      · rename_i d' most _ hnext
        rw [hnext] at again
        exact again _

/-- A write leaves a device as it was but for the used part of its script. -/
theorem writeAll_fst (d : Device) (bytes : Bytes) :
    ∃ script, script <:+ d.faults.script ∧ (d.writeAll bytes).1 = d.withScript script := by
  have h := writeLoop_fst (d.faults.script.length + bytes.length) d bytes
  rw [writeAll]
  rcases hloop : writeLoop (d.faults.script.length + bytes.length) d bytes with ⟨d', w⟩
  rw [hloop] at h
  dsimp only
  split <;> exact h

theorem writeLoop_sound (n : Nat) (d : Device) (bytes : Bytes) :
    (writeLoop n d bytes).2.Sound bytes := by
  induction n generalizing d bytes with
  | zero =>
    cases bytes with
    | nil => exact ⟨List.nil_prefix, fun _ => rfl⟩
    | cons b bytes => exact Written.sound_error _ _
  | succ n ih =>
    cases bytes with
    | nil => exact ⟨List.nil_prefix, fun _ => rfl⟩
    | cons b bytes =>
      rw [writeLoop]
      split
      · split
        · exact ih _ _
        · exact Written.sound_error _ _
      · exact ⟨List.prefix_rfl, fun _ => rfl⟩
      · exact Written.sound_error _ _
      · rename_i d' most _ _
        have hrest := ih d' ((b :: bytes).drop most)
        rcases hloop : writeLoop n d' ((b :: bytes).drop most) with ⟨d'', w⟩
        rw [hloop] at hrest
        constructor
        · have h := (List.prefix_append_right_inj ((b :: bytes).take most)).mpr
            hrest.accepted_front
          rwa [List.take_append_drop] at h
        · intro hnone
          change (b :: bytes).take most ++ w.accepted = b :: bytes
          rw [hrest.accepted_eq hnone, List.take_append_drop]

/-- **What a device takes is a front of what is written**, and all of it when the write
succeeds. -/
theorem writeAll_sound (d : Device) (bytes : Bytes) : (d.writeAll bytes).2.Sound bytes := by
  have h := writeLoop_sound (d.faults.script.length + bytes.length) d bytes
  rw [writeAll]
  rcases hloop : writeLoop (d.faults.script.length + bytes.length) d bytes with ⟨d', w⟩
  rw [hloop] at h
  dsimp only
  split
  · exact h
  · rename_i hnone
    exact ⟨h.accepted_front, fun _ => h.accepted_eq hnone⟩

/-! ## Devices that accept everything -/

theorem accepting_withScript {d : Device} (h : d.faults.Accepting) {script : List WriteStep}
    (hs : script <:+ d.faults.script) : (d.withScript script).faults.Accepting where
  script_takes := fun step hstep => h.script_takes step (hs.subset hstep)
  writeError_none := h.writeError_none
  flushError_none := h.flushError_none
  maxWrite_ne_zero := h.maxWrite_ne_zero

/-- A write call of an accepting device takes everything, or a byte at least. -/
theorem nextWrite_snd_of_accepting {d : Device} (h : d.faults.Accepting) :
    d.nextWrite.2 = .ok none ∨ ∃ most, d.nextWrite.2 = .ok (some (most + 1)) := by
  unfold nextWrite
  cases hs : d.faults.script with
  | nil =>
    simp only [h.writeError_none]
    cases hm : d.faults.maxWrite with
    | none => exact .inl rfl
    | some most =>
      cases most with
      | zero => exact absurd hm h.maxWrite_ne_zero
      | succ most => exact .inr ⟨most, rfl⟩
  | cons step rest =>
    obtain ⟨most, rfl⟩ := h.script_takes step (hs ▸ List.mem_cons_self)
    exact .inr ⟨most, rfl⟩

/-- The round of the loop in which a write call takes some bytes. -/
theorem writeLoop_take {d d' : Device} {most : Nat} (h : d.nextWrite = (d', .ok (some (most + 1))))
    (n : Nat) (b : UInt8) (bytes : Bytes) :
    (writeLoop (n + 1) d (b :: bytes)).2 =
      let w := (writeLoop n d' ((b :: bytes).drop (most + 1))).2
      { w with accepted := (b :: bytes).take (most + 1) ++ w.accepted } := by
  rw [writeLoop, h]
  rfl

/-- Each round takes a byte, so as many rounds as there are bytes are enough. -/
theorem writeLoop_of_accepting {n : Nat} {d : Device} {bytes : Bytes} (h : d.faults.Accepting)
    (hn : bytes.length ≤ n) : (writeLoop n d bytes).2 = ⟨bytes, none⟩ := by
  induction n generalizing d bytes with
  | zero =>
    cases bytes with
    | nil => rfl
    | cons b bytes => exact absurd hn (Nat.not_succ_le_zero _)
  | succ n ih =>
    cases bytes with
    | nil => rfl
    | cons b bytes =>
      rcases hnext : d.nextWrite with ⟨d', r⟩
      -- a call uses up a part of the script at most, so the device goes on accepting
      have hd' : d'.faults.Accepting := by
        have h' := accepting_withScript h (List.tail_suffix _)
        rwa [← d.nextWrite_fst, hnext] at h'
      rcases nextWrite_snd_of_accepting h with hr | ⟨most, hr⟩ <;> rw [hnext] at hr <;> subst hr
      · rw [writeLoop, hnext]
      · have hlen : ((b :: bytes).drop (most + 1)).length ≤ n := by
          rw [List.length_drop]
          simp only [List.length_cons] at hn ⊢
          omega
        rw [writeLoop_take hnext, ih hd' hlen]
        dsimp only
        rw [List.take_append_drop]

/-- **An accepting device takes all that is written**, in whatever parts. -/
theorem writeAll_of_accepting {d : Device} (h : d.faults.Accepting) (bytes : Bytes) :
    (d.writeAll bytes).2 = ⟨bytes, none⟩ := by
  have hall := writeLoop_of_accepting h (Nat.le_add_left bytes.length d.faults.script.length)
  obtain ⟨script, -, hfst⟩ := writeLoop_fst (d.faults.script.length + bytes.length) d bytes
  rw [writeAll]
  rcases hloop : writeLoop (d.faults.script.length + bytes.length) d bytes with ⟨d', w⟩
  rw [hloop] at hall hfst
  dsimp only at hall hfst ⊢
  rw [hall, hfst]
  have hflush : (d.withScript script).faults.flushError = none := h.flushError_none
  dsimp only
  rw [hflush]

theorem accepting_writeAll {d : Device} (h : d.faults.Accepting) (bytes : Bytes) :
    (d.writeAll bytes).1.faults.Accepting := by
  obtain ⟨script, hscript, hfst⟩ := d.writeAll_fst bytes
  exact hfst ▸ accepting_withScript h hscript

end Device

end SerialBridge
