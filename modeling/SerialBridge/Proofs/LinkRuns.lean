import SerialBridge.Proofs.LinkSteps

/-! # Runs of a link

Everything that happens to a link is a sequence of single steps (`Link.Step`): those of its
users, in whatever order they get their turns, and those of its surroundings, which plug
devices in and out and decide how they behave.  Closing a link is one step, and opening it
again after a pause is two.

Three facts hold after every step (`Sound`): the open handle is the current one, what a
device took of a frame is a front of it, and it went to the device behind the handle that
the frame was written through.  Handles are never taken back and never opened again
(`portOf_run`, `openAt_run`).
-/

namespace SerialBridge

/-! ## The surroundings -/

namespace Bench

/-- What the surroundings of a link do. -/
inductive Change where
  /-- A new device is plugged in at a path. -/
  | plug (path : String) (faults : Faults)
  /-- Whatever is at a path is unplugged. -/
  | unplug (path : String)
  /-- The device of a path is put into the machine. -/
  | attach (path : String)
  /-- Whatever is at a path is taken out of the machine. -/
  | detach (path : String)
  /-- A device starts to behave in another way. -/
  | configure (device : Nat) (faults : Faults)
  /-- A device is given more input. -/
  | feed (device : Nat) (bytes : Bytes)
  deriving DecidableEq, Repr

/-- The surroundings after they have done something. -/
def change (b : Bench) : Change → Bench
  | .plug path faults => b.plug path faults
  | .unplug path => b.unplug path
  | .attach path => b.attach path
  | .detach path => b.detach path
  | .configure device faults => b.modify device fun d => { d with faults }
  | .feed device bytes => b.feed device bytes

theorem faultsOf_plug {b : Bench} {d : Nat} {faults : Faults} (h : b.faultsOf d = some faults)
    (path : String) (f : Faults) : (b.plug path f).faultsOf d = some faults := by
  obtain ⟨dev, hdev, rfl⟩ := Option.map_eq_some_iff.mp h
  have hlt : d < b.devices.length := (List.getElem?_eq_some_iff.mp hdev).1
  rw [faultsOf, plug, List.getElem?_append_left hlt, hdev, Option.map_some]

/-- A device behaves as before unless just this is changed. -/
theorem faultsOf_change {b : Bench} {d : Nat} {faults : Faults} (h : b.faultsOf d = some faults)
    (c : Change) :
    (b.change c).faultsOf d = match c with
      | .configure device f => if device = d then some f else some faults
      | _ => some faults := by
  cases c with
  | plug path f => exact faultsOf_plug h path f
  | unplug path => exact h
  | attach path =>
    change (b.attach path).faultsOf d = some faults
    rw [attach]
    split
    · exact h
    · exact faultsOf_plug h path {}
  | detach path => exact h
  | configure device f =>
    change (b.modify device _).faultsOf d = if device = d then some f else some faults
    split
    · rename_i heq
      subst heq
      obtain ⟨dev, hdev, -⟩ := Option.map_eq_some_iff.mp h
      exact faultsOf_modify_self hdev _
    · rename_i hne
      rw [faultsOf_modify_of_ne hne, h]
  | feed device bytes =>
    change (b.modify device _).faultsOf d = some faults
    exact (faultsOf_modify (by intros; rfl) d).trans h

end Bench

namespace Link

/-! ## Steps -/

/-- What can happen to a link at once. -/
inductive Step where
  /-- The surroundings do something. -/
  | surround (change : Bench.Change)
  /-- The link is dropped: by closing it, or before the pause of a reconnect. -/
  | clear
  /-- A link is opened in place of the one there is, if any: by opening it, or after the
  pause of a reconnect. -/
  | openPort (candidates : List String) (baudRate : UInt32)
  /-- A frame is written through a handle. -/
  | writeOn (author : Author) (handle : Nat) (frame : Frame)
  /-- Input is taken through a handle, at a time. -/
  | readLines (now handle : Nat)
  /-- Lines are added to the totals. -/
  | countLines (n : Nat)
  deriving DecidableEq, Repr

/-- The link after a step. -/
def step (l : Link) : Step → Link
  | .surround change => { l with bench := l.bench.change change }
  | .clear => l.clear
  | .openPort candidates baudRate => (l.openPort candidates baudRate).1
  | .writeOn author handle frame => (l.writeOn author handle frame).1
  | .readLines now handle => (l.readLines now handle).1
  | .countLines n => l.countLines n

/-- The link after some steps. -/
def run (l : Link) (steps : List Step) : Link :=
  steps.foldl step l

@[simp] theorem run_nil (l : Link) : l.run [] = l := rfl

@[simp] theorem run_cons (l : Link) (s : Step) (steps : List Step) :
    l.run (s :: steps) = (l.step s).run steps := rfl

theorem run_append (l : Link) (first later : List Step) :
    l.run (first ++ later) = (l.run first).run later :=
  List.foldl_append

/-! ## Handles stay what they are -/

theorem portOf_openPort {l : Link} {h : Nat} {port : String × Nat} (hp : l.portOf h = some port)
    (candidates : List String) (baudRate : UInt32) :
    (l.openPort candidates baudRate).1.portOf h = some port := by
  rw [← portOf_clear] at hp
  rw [openPort]
  rcases l.clear.openFirst_cases candidates baudRate with
    ⟨attempts, lastPath, e, heq⟩ | ⟨attempts, device, e, heq⟩ | ⟨attempts, path, device, heq⟩
  · rw [heq]
    exact hp
  · rw [heq]
    exact hp
  · rw [heq]
    exact portOf_withHandle hp path device

/-- **A handle stays on its port.** -/
theorem portOf_step {l : Link} {h : Nat} {port : String × Nat} (hp : l.portOf h = some port)
    (s : Step) : (l.step s).portOf h = some port := by
  cases s with
  | surround | countLines => exact hp
  | clear => exact (l.portOf_clear h).trans hp
  | openPort candidates baudRate => exact portOf_openPort hp candidates baudRate
  | writeOn author k frame =>
    rcases l.writeOn_cases author k frame with ⟨heq, -⟩ | ⟨_, _, -, -, -, heq, -⟩
    · rw [step, heq]
      exact hp
    · rw [step, heq]
      exact hp
  | readLines now k => exact (l.portOf_readLines now k h).trans hp

theorem portOf_run {l : Link} {h : Nat} {port : String × Nat} (hp : l.portOf h = some port)
    (steps : List Step) : (l.run steps).portOf h = some port := by
  induction steps generalizing l with
  | nil => exact hp
  | cons s steps ih => exact ih (portOf_step hp s)

/-- Opening a link leaves none of the handles open that there were before, the current one
apart from which none was. -/
theorem openAt_openPort {l : Link} {h : Nat} {port : String × Nat} (hp : l.portOf h = some port)
    (candidates : List String) (baudRate : UInt32) :
    (l.openPort candidates baudRate).1.openAt h = l.clear.openAt h := by
  rw [← portOf_clear] at hp
  rw [openPort]
  rcases l.clear.openFirst_cases candidates baudRate with
    ⟨attempts, lastPath, e, heq⟩ | ⟨attempts, device, e, heq⟩ | ⟨attempts, path, device, heq⟩
  · rw [heq]
    rfl
  · rw [heq]
    rfl
  · obtain ⟨handle, hh, -⟩ := exists_handle_of_portOf hp
    have hlt : h < l.clear.handles.length := (List.getElem?_eq_some_iff.mp hh).1
    rw [heq, openAt_withHandle]
    have hne : (h == l.clear.handles.length) = false := beq_false_of_ne (Nat.ne_of_lt hlt)
    simp only [hne, Bool.or_false]
    rfl

/-- **A closed handle stays closed.** -/
theorem openAt_step {l : Link} {h : Nat} {port : String × Nat} (hp : l.portOf h = some port)
    (hc : l.openAt h = false) (s : Step) : (l.step s).openAt h = false := by
  cases s with
  | surround | countLines => exact hc
  | clear => rw [step, openAt_clear, hc, Bool.false_and]
  | openPort candidates baudRate =>
    rw [step, openAt_openPort hp, openAt_clear, hc, Bool.false_and]
  | writeOn author k frame =>
    rcases l.writeOn_cases author k frame with ⟨heq, -⟩ | ⟨_, _, -, -, -, heq, -⟩
    · rw [step, heq]
      exact hc
    · rw [step, heq]
      exact hc
  | readLines now k => exact (l.openAt_readLines now k h).trans hc

theorem openAt_run {l : Link} {h : Nat} {port : String × Nat} (hp : l.portOf h = some port)
    (hc : l.openAt h = false) (steps : List Step) : (l.run steps).openAt h = false := by
  induction steps generalizing l with
  | nil => exact hc
  | cons s steps ih => exact ih (portOf_step hp s) (openAt_step hp hc s)

/-! ## What is recorded of writes -/

/-- A write through a handle is recorded, unless it fails because the handle is closed, and
the record has an error exactly when the write fails. -/
theorem transmissions_writeOn (l : Link) (author : Author) (h : Nat) (frame : Frame) :
    ((∃ e, (l.writeOn author h frame).2 = .error e) ∧
      (l.writeOn author h frame).1.transmissions = l.transmissions) ∨
    ∃ t, t.author = author ∧ t.handle = h ∧ t.frame = frame ∧
      (l.writeOn author h frame).1.transmissions = t :: l.transmissions ∧
      ((l.writeOn author h frame).2 = .ok () ↔ t.error = none) := by
  rcases l.writeOn_cases author h frame with
    ⟨heq, -⟩ | ⟨handle, device, -, -, -, hlink, hresult⟩
  · rw [heq]
    exact .inl ⟨⟨_, rfl⟩, rfl⟩
  · refine .inr ⟨_, rfl, rfl, rfl, congrArg transmissions hlink, ?_⟩
    rw [hresult]
    dsimp only
    cases (device.writeAll frame.encode).2.error with
    | none => exact iff_of_true rfl rfl
    | some e => exact iff_of_false (fun h => nomatch h) (Option.some_ne_none e)

theorem transmissions_openPort (l : Link) (candidates : List String) (baudRate : UInt32) :
    (l.openPort candidates baudRate).1.transmissions = l.transmissions := by
  rw [openPort, ← l.clear_transmissions]
  rcases l.clear.openFirst_cases candidates baudRate with
    ⟨_, _, _, heq⟩ | ⟨_, _, _, heq⟩ | ⟨_, _, _, heq⟩ <;> rw [heq]
  rfl

/-- Only writes are recorded, each with its frame and on behalf of its author. -/
theorem transmissions_step (l : Link) (s : Step) :
    (l.step s).transmissions = l.transmissions ∨
      ∃ author h frame t, s = .writeOn author h frame ∧ t.author = author ∧ t.frame = frame ∧
        (l.step s).transmissions = t :: l.transmissions := by
  cases s with
  | surround | countLines => exact .inl rfl
  | clear => exact .inl l.clear_transmissions
  | openPort candidates baudRate => exact .inl (l.transmissions_openPort candidates baudRate)
  | writeOn author h frame =>
    rcases l.transmissions_writeOn author h frame with ⟨-, heq⟩ | ⟨t, hauthor, -, hframe, heq, -⟩
    · exact .inl heq
    · exact .inr ⟨author, h, frame, t, rfl, hauthor, hframe, heq⟩
  | readLines now h =>
    obtain ⟨bench, handles, heq, -, -⟩ := l.readLines_cases now h
    refine .inl ?_
    rw [step, heq]

/-! ## The invariant -/

/-- What holds of a link after every step. -/
structure Sound (l : Link) : Prop where
  openAt_iff : ∀ h, l.openAt h = true ↔ l.current = some h
  accepted_sound : ∀ t ∈ l.transmissions,
    (⟨t.accepted, t.error⟩ : Device.Written).Sound t.frame.encode
  portOf_transmission : ∀ t ∈ l.transmissions, ∃ path, l.portOf t.handle = some (path, t.device)

/-- A link that was never opened. -/
theorem sound_new (bench : Bench) : Sound { bench } where
  openAt_iff := fun h => by simp [openAt, handle?]
  accepted_sound := fun _ ht => nomatch ht
  portOf_transmission := fun _ ht => nomatch ht

/-- The invariant passes to a link with the same handles and transmissions. -/
theorem Sound.congr {l l' : Link} (hl : Sound l) (hcurrent : l'.current = l.current)
    (hopen : ∀ h, l'.openAt h = l.openAt h) (hport : ∀ h, l'.portOf h = l.portOf h)
    (htransmissions : l'.transmissions = l.transmissions) : Sound l' where
  openAt_iff := fun h => by rw [hopen, hcurrent, hl.openAt_iff]
  accepted_sound := by rw [htransmissions]; exact hl.accepted_sound
  portOf_transmission := by
    rw [htransmissions]
    intro t ht
    rw [hport]
    exact hl.portOf_transmission t ht

theorem openAt_clear_of_sound {l : Link} (hl : Sound l) (h : Nat) : l.clear.openAt h = false := by
  rw [openAt_clear]
  cases ho : l.openAt h with
  | false => rfl
  | true => rw [(hl.openAt_iff h).mp ho, Bool.true_and, bne_self_eq_false]

theorem sound_clear {l : Link} (hl : Sound l) : Sound l.clear where
  openAt_iff := fun h => by
    rw [openAt_clear_of_sound hl, clear_current]
    exact iff_of_false Bool.false_ne_true (Option.some_ne_none h).symm
  accepted_sound := by rw [clear_transmissions]; exact hl.accepted_sound
  portOf_transmission := by
    rw [clear_transmissions]
    intro t ht
    rw [portOf_clear]
    exact hl.portOf_transmission t ht

theorem sound_withHandle {l : Link} (hl : Sound l) (hcurrent : l.current = none) (path : String)
    (device : Nat) : Sound (l.withHandle path device) where
  openAt_iff := fun h => by
    have hclosed : l.openAt h = false := by
      cases ho : l.openAt h with
      | false => rfl
      | true => rw [hl.openAt_iff, hcurrent] at ho; cases ho
    rw [openAt_withHandle, hclosed, Bool.false_or, beq_iff_eq]
    exact ⟨fun he => congrArg some he.symm, fun he => (Option.some.inj he).symm⟩
  accepted_sound := hl.accepted_sound
  portOf_transmission := fun t ht => by
    obtain ⟨p, hp⟩ := hl.portOf_transmission t ht
    exact ⟨p, portOf_withHandle hp path device⟩

theorem sound_openPort {l : Link} (hl : Sound l) (candidates : List String) (baudRate : UInt32) :
    Sound (l.openPort candidates baudRate).1 := by
  have hclear := sound_clear hl
  have hcurrent := l.clear_current
  rw [openPort]
  rcases l.clear.openFirst_cases candidates baudRate with
    ⟨attempts, lastPath, e, heq⟩ | ⟨attempts, device, e, heq⟩ | ⟨attempts, path, device, heq⟩
  · rw [heq]
    exact hclear.congr rfl (fun _ => rfl) (fun _ => rfl) rfl
  · rw [heq]
    exact hclear.congr rfl (fun _ => rfl) (fun _ => rfl) rfl
  · rw [heq]
    have hopened := sound_withHandle (l := { l.clear with
        attempts, bench := l.clear.bench.modify device Device.clearInput })
      (hclear.congr rfl (fun _ => rfl) (fun _ => rfl) rfl) hcurrent path device
    exact hopened

theorem sound_withTransmission {l : Link} (hl : Sound l) {t : Transmission} {path : String}
    (hport : l.portOf t.handle = some (path, t.device))
    (hsound : (⟨t.accepted, t.error⟩ : Device.Written).Sound t.frame.encode) (device : Device) :
    Sound (l.withTransmission t device) where
  openAt_iff := hl.openAt_iff
  accepted_sound := fun t' ht' => by
    rcases List.mem_cons.mp ht' with rfl | hold
    · exact hsound
    · exact hl.accepted_sound t' hold
  portOf_transmission := fun t' ht' => by
    rcases List.mem_cons.mp ht' with rfl | hold
    · exact ⟨path, hport⟩
    · exact hl.portOf_transmission t' hold

theorem sound_step {l : Link} (hl : Sound l) (s : Step) : Sound (l.step s) := by
  cases s with
  | surround | countLines => exact hl.congr rfl (fun _ => rfl) (fun _ => rfl) rfl
  | clear => exact sound_clear hl
  | openPort candidates baudRate => exact sound_openPort hl candidates baudRate
  | writeOn author h frame =>
    rcases l.writeOn_cases author h frame with ⟨heq, -⟩ | ⟨handle, device, hh, -, -, heq, -⟩
    · rw [step, heq]
      exact hl
    · rw [step, heq]
      exact sound_withTransmission hl (portOf_of_handle hh) (device.writeAll_sound _) _
  | readLines now h =>
    have hother : (l.readLines now h).1.current = l.current ∧
        (l.readLines now h).1.transmissions = l.transmissions := by
      obtain ⟨bench, handles, heq, -, -⟩ := l.readLines_cases now h
      rw [heq]
      exact ⟨rfl, rfl⟩
    exact hl.congr hother.1 (l.openAt_readLines now h) (l.portOf_readLines now h) hother.2

theorem sound_run {l : Link} (hl : Sound l) (steps : List Step) : Sound (l.run steps) := by
  induction steps generalizing l with
  | nil => exact hl
  | cons s steps ih => exact ih (sound_step hl s)

end Link

end SerialBridge
