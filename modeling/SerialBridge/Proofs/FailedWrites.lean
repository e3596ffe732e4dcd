import SerialBridge.Proofs.Wire

/-! # What a failed write leaves behind

A write succeeds exactly when its handle is open, the device takes every byte of the frame and
flushing goes well.  When it fails, the device has a front of the frame and nothing else has
changed: the link, the handles, what is told of them and the totals are as they were, and the
device has only used up a part of its script.

Interrupted calls cannot be noticed.  A device whose calls are interrupted finitely often does
with the interruptions what it does without them (`calm_writeLoop`), one round later for each.
The bound on the rounds leaves room for that, and plays no role (`writeLoop_snd_eq`).

The result is `failed_write_leaves_link`.
-/

namespace SerialBridge

/-! ## Interrupted calls -/

/-- Whether the step is an interrupted call. -/
def WriteStep.isInterrupt : WriteStep → Bool
  | .take _ => false
  | .fail e => e.kind = .interrupted

/-- Calls are interrupted finitely often: they are not once the script is used up. -/
def Faults.Relenting (f : Faults) : Prop :=
  ∀ e, f.writeError = some e → e.kind ≠ .interrupted

namespace Device

/-- The device without the interruptions of its script. -/
def calm (d : Device) : Device :=
  d.withScript (d.faults.script.filter fun step => !step.isInterrupt)

/-- A call is interrupted by the script, and comes to nothing; or it is not interrupted, and it
does what it would do without the interruptions. -/
theorem calm_nextWrite {d d' : Device} {r : Except IoError (Option Nat)}
    (hd : d.faults.Relenting) (hnext : d.nextWrite = (d', r)) :
    (∃ e, r = .error e ∧ e.kind = .interrupted ∧
      d'.faults.script.length + 1 = d.faults.script.length ∧ d'.calm = d.calm) ∨
    (∀ e, r = .error e → e.kind ≠ .interrupted) ∧ d.calm.nextWrite = (d'.calm, r) := by
  cases hs : d.faults.script with
  | nil =>
    have hcalm : d.calm = d := by
      rw [calm, hs, List.filter_nil, withScript, ← hs]
    have hsame : d' = d := by
      have hfst := d.nextWrite_fst
      rw [hnext, hs, List.tail_nil, withScript, ← hs] at hfst
      exact hfst
    refine .inr ⟨fun e he => ?_, by rw [hsame, hcalm, hnext, hsame]⟩
    rw [he, nextWrite, hs] at hnext
    cases herror : d.faults.writeError with
    | none => simp [herror] at hnext
    | some e' =>
      simp only [herror, Prod.mk.injEq, Except.error.injEq] at hnext
      exact hnext.2 ▸ hd e' herror
  | cons step rest =>
    have hkept : step.isInterrupt = false → d.calm.faults.script =
        step :: rest.filter fun step => !step.isInterrupt := by
      intro hstep
      change d.faults.script.filter _ = _
      rw [hs, List.filter_cons_of_pos (by rw [hstep, Bool.not_false])]
    rw [nextWrite, hs] at hnext
    cases step with
    | take most =>
      cases hnext
      refine .inr ⟨fun e he => ?_, ?_⟩
      · cases he
      · rw [nextWrite, hkept rfl]
        rfl
    | fail e =>
      cases hnext
      by_cases he : e.kind = .interrupted
      · have hstep : (WriteStep.fail e).isInterrupt = true := decide_eq_true he
        refine .inl ⟨e, rfl, he, rfl, ?_⟩
        rw [calm, calm, hs, List.filter_cons_of_neg (by rw [hstep]; decide)]
        rfl
      · refine .inr ⟨fun e' heq => ?_, ?_⟩
        · cases heq
          exact he
        · rw [nextWrite, hkept (decide_eq_false he)]
          rfl

/-- **Interruptions cannot be noticed.**  With rounds enough, a device with them and the one
without them come to the same. -/
theorem calm_writeLoop {n m : Nat} {d : Device} {bytes : Bytes} (hd : d.faults.Relenting)
    (hn : d.faults.script.length + bytes.length ≤ n)
    (hm : d.calm.faults.script.length + bytes.length ≤ m) :
    writeLoop m d.calm bytes = ((writeLoop n d bytes).1.calm, (writeLoop n d bytes).2) := by
  induction n generalizing m d bytes with
  | zero =>
    have hnil : bytes = [] := List.length_eq_zero_iff.mp (by omega)
    subst hnil
    cases m <;> rfl
  | succ n ih =>
    cases bytes with
    | nil => cases m <;> rfl
    | cons b bytes =>
      obtain ⟨m, rfl⟩ : ∃ k, m = k + 1 := Nat.exists_eq_add_one.mpr (by
        rw [List.length_cons] at hm
        omega)
      rcases hnext : d.nextWrite with ⟨d', r⟩
      have hused : d' = d.withScript d.faults.script.tail := by rw [← nextWrite_fst, hnext]
      have hd' : d'.faults.Relenting := hused ▸ hd
      have hscript : d'.faults.script.length ≤ d.faults.script.length := by
        rw [hused]
        exact (List.tail_suffix _).length_le
      rcases calm_nextWrite hd hnext with ⟨e, rfl, he, hless, hsame⟩ | ⟨hnone, hcalm⟩
      -- the interrupted call is a round more, of the device with interruptions only
      · have hround : writeLoop (n + 1) d (b :: bytes) = writeLoop n d' (b :: bytes) := by
          rw [writeLoop, hnext]
          exact if_pos he
        rw [hround, ← hsame]
        exact ih hd' (by omega) (hsame ▸ hm)
      · have hcalmScript : d'.calm.faults.script.length ≤ d.calm.faults.script.length := by
          have hfst : d'.calm = d.calm.withScript d.calm.faults.script.tail := by
            rw [← nextWrite_fst, hcalm]
          rw [hfst]
          exact (List.tail_suffix _).length_le
        rw [writeLoop, writeLoop, hnext, hcalm]
        rcases r with e | _ | _ | most
        · simp only [if_neg (hnone e rfl)]
        · rfl
        · rfl
        · have hleft : ((b :: bytes).drop (most + 1)).length ≤ bytes.length := by
            rw [List.length_drop, List.length_cons]
            omega
          rw [List.length_cons] at hn hm
          have hagain : writeLoop m d'.calm ((b :: bytes).drop (most + 1)) = _ :=
            ih hd' (by omega) (by omega)
          simp only [hagain]

/-- As long as there are rounds enough it does not matter how many. -/
theorem writeLoop_snd_eq {n n' : Nat} {d : Device} {bytes : Bytes} (hd : d.faults.Relenting)
    (hn : d.faults.script.length + bytes.length ≤ n)
    (hn' : d.faults.script.length + bytes.length ≤ n') :
    (writeLoop n d bytes).2 = (writeLoop n' d bytes).2 := by
  have h := calm_writeLoop hd hn (Nat.le_refl _)
  have h' := calm_writeLoop hd hn' (Nat.le_refl _)
  rw [h] at h'
  exact (Prod.mk.inj h').2

theorem calm_writeAll {d : Device} (hd : d.faults.Relenting) (bytes : Bytes) :
    d.calm.writeAll bytes = ((d.writeAll bytes).1.calm, (d.writeAll bytes).2) := by
  rw [writeAll, writeAll, calm_writeLoop hd (Nat.le_refl _) (Nat.le_refl _)]
  rcases writeLoop (d.faults.script.length + bytes.length) d bytes with ⟨d', accepted, error⟩
  cases error <;> rfl

/-! ## When a device has taken a frame -/

/-- Rounds end without an error exactly when every byte is taken. -/
theorem writeLoop_error_eq_none_iff (n : Nat) (d : Device) (bytes : Bytes) :
    (writeLoop n d bytes).2.error = none ↔ (writeLoop n d bytes).2.accepted = bytes := by
  refine ⟨(writeLoop_sound n d bytes).accepted_eq, ?_⟩
  have failed : ∀ {e : IoError} {b : UInt8} {bytes : Bytes},
      (⟨[], some e⟩ : Written).accepted = b :: bytes → (⟨[], some e⟩ : Written).error = none :=
    fun h => nomatch h
  induction n generalizing d bytes with
  | zero =>
    cases bytes with
    | nil => exact fun _ => rfl
    | cons b bytes => exact failed
  | succ n ih =>
    cases bytes with
    | nil => exact fun _ => rfl
    | cons b bytes =>
      rw [writeLoop]
      split
      · split
        · exact ih _ _
        · exact failed
      · exact fun _ => rfl
      · exact failed
      · rename_i d' most _ _
        intro h
        have hrest := h.trans (List.take_append_drop most (b :: bytes)).symm
        exact ih d' ((b :: bytes).drop most) (List.append_cancel_left hrest)

/-- A write succeeds exactly when every byte is taken and flushing goes well. -/
theorem writeAll_error_eq_none_iff (d : Device) (bytes : Bytes) :
    (d.writeAll bytes).2.error = none ↔
      (d.writeAll bytes).2.accepted = bytes ∧ d.faults.flushError = none := by
  have hiff := writeLoop_error_eq_none_iff (d.faults.script.length + bytes.length) d bytes
  obtain ⟨script, -, hfst⟩ := writeLoop_fst (d.faults.script.length + bytes.length) d bytes
  rw [writeAll]
  rcases hloop : writeLoop (d.faults.script.length + bytes.length) d bytes with
    ⟨d', accepted, error⟩
  rw [hloop] at hiff hfst
  cases error with
  | some e =>
    exact iff_of_false (Option.some_ne_none e) fun h => Option.some_ne_none e (hiff.mpr h.1)
  | none =>
    have hused : d' = d.withScript script := hfst
    have hflush : d'.faults.flushError = d.faults.flushError := by rw [hused]; rfl
    change d'.faults.flushError = none ↔ accepted = bytes ∧ _
    rw [hflush]
    exact ⟨fun h => ⟨hiff.mp rfl, h⟩, And.right⟩

end Device

namespace Link

/-! ## Writing to the link, or through a handle -/

/-- How a frame is written. -/
inductive Way where
  /-- To the current link. -/
  | current
  /-- Through a handle, current or not. -/
  | pinned (author : Author) (handle : Nat)
  deriving DecidableEq, Repr

/-- The handle a write goes through, if there is one. -/
def handleBy? (l : Link) : Way → Option Nat
  | .current => l.current
  | .pinned _ h => some h

/-- Writes a frame one way or the other. -/
def writeBy (l : Link) (way : Way) (frame : Frame) : Link × Except LinkError Unit :=
  match way with
  | .current => l.write frame
  | .pinned author h => l.writeOn author h frame

/-- The device a write is meant for, if there is one. -/
def deviceBy? (l : Link) (way : Way) : Option Nat :=
  (l.handleBy? way).bind fun h => (l.portOf h).map Prod.snd

theorem writeBy_eq (l : Link) (way : Way) (frame : Frame) :
    l.writeBy way frame = (l, .error .closed) ∨
      ∃ author h, l.handleBy? way = some h ∧ l.writeBy way frame = l.writeOn author h frame := by
  cases way with
  | pinned author h => exact .inr ⟨author, h, rfl, rfl⟩
  | current =>
    cases hc : l.current with
    | none => exact .inl (by rw [writeBy, write, hc])
    | some h => exact .inr ⟨.line, h, hc, by rw [writeBy, write, hc]⟩

/-- A write goes to the device behind an open handle, and this comes of it. -/
structure Given (l : Link) (way : Way) (t : Transmission) (device : Device) : Prop where
  handle_eq : l.handleBy? way = some t.handle
  isOpen : l.openAt t.handle = true
  port_eq : ∃ path, l.portOf t.handle = some (path, t.device)
  device_eq : l.bench.devices[t.device]? = some device
  written : (⟨t.accepted, t.error⟩ : Device.Written) = (device.writeAll t.frame.encode).2
  link_eq : (l.writeBy way t.frame).1 = l.withTransmission t (device.writeAll t.frame.encode).1
  result_eq : (l.writeBy way t.frame).2 =
    match t.error with
    | some e => .error (.ofIo e)
    | none => .ok ()

/-- A write is refused and changes nothing, or it is given to a device. -/
theorem writeBy_cases (l : Link) (way : Way) (frame : Frame) :
    l.writeBy way frame = (l, .error .closed) ∨
      ∃ t device, t.frame = frame ∧ l.Given way t device := by
  rcases l.writeBy_eq way frame with heq | ⟨author, h, hway, heq⟩
  · exact .inl heq
  rcases l.writeOn_cases author h frame with
    ⟨hrefused, -⟩ | ⟨handle, device, hh, hopen, hdevice, hlink, hresult⟩
  · exact .inl (heq.trans hrefused)
  · refine .inr ⟨⟨h, handle.device, author, frame, (device.writeAll frame.encode).2.accepted,
      (device.writeAll frame.encode).2.error⟩, device, rfl, ?_⟩
    constructor
    case handle_eq => exact hway
    case isOpen => exact (openAt_of_handle hh).trans hopen
    case port_eq => exact ⟨handle.path, portOf_of_handle hh⟩
    case device_eq => exact hdevice
    case written => rfl
    case link_eq => exact (congrArg Prod.fst heq).trans hlink
    case result_eq => exact (congrArg Prod.snd heq).trans hresult

section Given

variable {l : Link} {way : Way} {t : Transmission} {device : Device}

theorem Given.target (h : l.Given way t device) : l.deviceBy? way = some t.device := by
  obtain ⟨path, hport⟩ := h.port_eq
  rw [deviceBy?, h.handle_eq, Option.bind_some, hport, Option.map_some]

theorem Given.accepted_front (h : l.Given way t device) : t.accepted <+: t.frame.encode := by
  have hsound := device.writeAll_sound t.frame.encode
  rw [← h.written] at hsound
  exact hsound.accepted_front

theorem Given.ok_iff (h : l.Given way t device) :
    (l.writeBy way t.frame).2 = .ok () ↔
      t.accepted = t.frame.encode ∧ device.faults.flushError = none := by
  have hnone := device.writeAll_error_eq_none_iff t.frame.encode
  rw [← h.written] at hnone
  rw [← hnone, h.result_eq]
  dsimp only
  cases t.error with
  | none => exact iff_of_true rfl rfl
  | some e => exact iff_of_false nofun nofun

theorem Given.error_eq (h : l.Given way t device) {e : LinkError}
    (hfailed : (l.writeBy way t.frame).2 = .error e) : ∃ io, t.error = some io ∧ e = .ofIo io := by
  rw [h.result_eq] at hfailed
  cases herror : t.error with
  | none =>
    rw [herror] at hfailed
    cases hfailed
  | some io =>
    rw [herror] at hfailed
    exact ⟨io, rfl, (Except.error.inj hfailed).symm⟩

theorem Given.receivedBy_eq (h : l.Given way t device) (d : Nat) :
    (l.writeBy way t.frame).1.receivedBy d =
      if l.deviceBy? way = some d then l.receivedBy d ++ t.accepted else l.receivedBy d := by
  rw [h.link_eq, h.target]
  by_cases hd : t.device = d
  · rw [if_pos (congrArg some hd), ← hd, receivedBy_withTransmission]
  · rw [if_neg fun he => hd (Option.some.inj he), receivedBy_withTransmission_of_ne hd]

end Given

/-! ## Without the interruptions of a device -/

/-- The link with a device that is not interrupted. -/
def calm (l : Link) (d : Nat) : Link :=
  { l with bench := l.bench.modify d Device.calm }

theorem calm_writeOn {l : Link} {d : Nat}
    (hd : ∀ faults, l.bench.faultsOf d = some faults → faults.Relenting) (author : Author) (h : Nat)
    (frame : Frame) :
    (l.calm d).writeOn author h frame =
      ((l.writeOn author h frame).1.calm d, (l.writeOn author h frame).2) := by
  have hhandle : (l.calm d).handle? h = l.handle? h := rfl
  rw [writeOn, writeOn, hhandle]
  cases l.handle? h with
  | none => rfl
  | some handle =>
    dsimp only
    cases handle.isOpen with
    | false => rfl
    | true =>
      have hdevices : (l.calm d).bench.devices[handle.device]? =
          (l.bench.devices[handle.device]?).map fun device =>
            if d = handle.device then device.calm else device :=
        List.getElem?_modify Device.calm d l.bench.devices handle.device
      rw [hdevices]
      cases hdevice : l.bench.devices[handle.device]? with
      | none => rfl
      | some device =>
        dsimp only [Option.map_some]
        by_cases hk : d = handle.device
        · have hfaults : l.bench.faultsOf d = some device.faults := by
            rw [Bench.faultsOf, hk, hdevice, Option.map_some]
          rw [if_pos hk, Device.calm_writeAll (hd _ hfaults)]
          rcases device.writeAll frame.encode with ⟨device', written⟩
          have hbench : (l.bench.modify d Device.calm).modify d (fun _ => device'.calm) =
              (l.bench.modify d fun _ => device').modify d Device.calm := by
            simp only [Bench.modify, List.modify_modify_eq]
            rfl
          dsimp only [calm]
          rw [← hk, hbench]
          cases written.error <;> rfl
        · rw [if_neg hk]
          rcases device.writeAll frame.encode with ⟨device', written⟩
          have hbench : (l.bench.modify d Device.calm).modify handle.device (fun _ => device') =
              (l.bench.modify handle.device fun _ => device').modify d Device.calm := by
            simp only [Bench.modify, List.modify_modify_ne _ _ _ hk]
          dsimp only [calm]
          rw [hbench]
          cases written.error <;> rfl

theorem calm_writeBy {l : Link} {d : Nat}
    (hd : ∀ faults, l.bench.faultsOf d = some faults → faults.Relenting) (way : Way)
    (frame : Frame) :
    (l.calm d).writeBy way frame =
      ((l.writeBy way frame).1.calm d, (l.writeBy way frame).2) := by
  cases way with
  | pinned author h => exact calm_writeOn hd author h frame
  | current =>
    have hcurrent : (l.calm d).current = l.current := rfl
    rw [writeBy, writeBy, write, write, hcurrent]
    cases l.current with
    | none => rfl
    | some h => exact calm_writeOn hd .line h frame

/-! ## What is left -/

/-- After a write meant for a device, if for any, everything is as before: the device itself but
for a part of its script that it used up, all other devices, the handles and which of them is
current, what is told of the link, and the totals. -/
structure Unharmed (l l' : Link) (device? : Option Nat) : Prop where
  own : ∀ d : Nat, ∃ script,
    l'.bench.devices[d]? = (l.bench.devices[d]?).map fun device => device.withScript script
  others : ∀ d : Nat, device? ≠ some d → l'.bench.devices[d]? = l.bench.devices[d]?
  current : l'.current = l.current
  handles : l'.handles = l.handles
  status : l'.status = l.status
  lastPath : l'.lastPath = l.lastPath
  counters : l'.counters = l.counters

theorem unharmed_self (l : Link) (device? : Option Nat) : Unharmed l l device? where
  own := fun d => by
    cases hd : l.bench.devices[d]? with
    | none => exact ⟨[], rfl⟩
    | some device => exact ⟨device.faults.script, rfl⟩
  others := fun _ _ => rfl
  current := rfl
  handles := rfl
  status := rfl
  lastPath := rfl
  counters := rfl

theorem unharmed_withTransmission {l : Link} {t : Transmission} {device : Device}
    (hdevice : l.bench.devices[t.device]? = some device) (bytes : Bytes) {e : IoError}
    (herror : t.error = some e) :
    Unharmed l (l.withTransmission t (device.writeAll bytes).1) (some t.device) where
  own := fun d => by
    change ∃ script, (l.bench.devices.modify t.device fun _ => (device.writeAll bytes).1)[d]? = _
    rw [List.getElem?_modify]
    by_cases hd : t.device = d
    · obtain ⟨script, -, hscript⟩ := device.writeAll_fst bytes
      refine ⟨script, ?_⟩
      rw [← hd, hdevice, hscript]
      simp
    · obtain ⟨script, hscript⟩ := (unharmed_self l none).own d
      refine ⟨script, ?_⟩
      simp only [if_neg hd, ← hscript, id_map']
  others := fun d hd => List.getElem?_modify_ne _ _ fun he => hd (congrArg some he)
  current := rfl
  handles := rfl
  status := rfl
  lastPath := rfl
  counters := by rw [withTransmission, herror]; rfl

/-- A write succeeds exactly if its handle is open and its device takes all of the frame. -/
theorem writeBy_eq_ok_iff (l : Link) (way : Way) (frame : Frame) :
    (l.writeBy way frame).2 = .ok () ↔ ∃ h path d faults, l.handleBy? way = some h ∧
      l.openAt h = true ∧ l.portOf h = some (path, d) ∧
      (l.writeBy way frame).1.receivedBy d = l.receivedBy d ++ frame.encode ∧
      l.bench.faultsOf d = some faults ∧ faults.flushError = none := by
  rcases l.writeBy_cases way frame with heq | ⟨t, device, rfl, hgiven⟩
  · rw [heq]
    refine iff_of_false nofun ?_
    rintro ⟨-, -, d, -, -, -, -, htaken, -⟩
    exact frame.encode_ne_nil (List.self_eq_append_right.mp htaken)
  have hfaults : l.bench.faultsOf t.device = some device.faults := by
    rw [Bench.faultsOf, hgiven.device_eq, Option.map_some]
  obtain ⟨path, hport⟩ := hgiven.port_eq
  rw [hgiven.ok_iff]
  constructor
  · rintro ⟨haccepted, hflush⟩
    refine ⟨t.handle, path, t.device, device.faults, hgiven.handle_eq, hgiven.isOpen, hport, ?_,
      hfaults, hflush⟩
    rw [hgiven.receivedBy_eq, if_pos hgiven.target, haccepted]
  · rintro ⟨h, path', d, faults, hway, -, hport', htaken, hfaults', hflush⟩
    have hh : h = t.handle := Option.some.inj (hway.symm.trans hgiven.handle_eq)
    subst hh
    have hd : d = t.device := (Prod.mk.inj (Option.some.inj (hport'.symm.trans hport))).2
    subst hd
    rw [hgiven.receivedBy_eq, if_pos hgiven.target] at htaken
    have hsame : faults = device.faults := Option.some.inj (hfaults'.symm.trans hfaults)
    exact ⟨List.append_cancel_left htaken, hsame ▸ hflush⟩

/-- A write that fails leaves a front of the frame on the device, and all else as it was. -/
theorem unharmed_of_failed {l : Link} {way : Way} {frame : Frame} {e : LinkError}
    (hfailed : (l.writeBy way frame).2 = .error e) :
    Unharmed l (l.writeBy way frame).1 (l.deviceBy? way) ∧
      ∃ front, front <+: frame.encode ∧ (e = .closed → front = []) ∧
        ∀ d, (l.writeBy way frame).1.receivedBy d =
          if l.deviceBy? way = some d then l.receivedBy d ++ front else l.receivedBy d := by
  rcases l.writeBy_cases way frame with heq | ⟨t, device, rfl, hgiven⟩
  · rw [heq]
    exact ⟨l.unharmed_self _, [], List.nil_prefix, fun _ => rfl, fun d => by simp⟩
  obtain ⟨io, herror, he⟩ := hgiven.error_eq hfailed
  refine ⟨?_, t.accepted, hgiven.accepted_front, ?_, hgiven.receivedBy_eq⟩
  · rw [hgiven.target, hgiven.link_eq]
    exact unharmed_withTransmission hgiven.device_eq _ herror
  -- a device has no error that says the link is closed
  · intro hclosed
    rw [hclosed] at he
    cases he

/-- **When a write succeeds, and what a failed one leaves.**  A write to the current link or
through a handle succeeds exactly if the handle is open, its device takes every byte of the frame
in order, and flushing goes well.  If it fails, the device has taken a front of the frame, nothing
of it if the handle was closed, and everything else is as it was.  Without the interruptions of
any one device it comes to the same, as long as they are finitely many. -/
theorem failed_write_leaves_link (l : Link) (way : Way) (frame : Frame) :
    let l' := (l.writeBy way frame).1
    let result := (l.writeBy way frame).2
    (result = .ok () ↔ ∃ h path d faults, l.handleBy? way = some h ∧ l.openAt h = true ∧
      l.portOf h = some (path, d) ∧ l'.receivedBy d = l.receivedBy d ++ frame.encode ∧
      l.bench.faultsOf d = some faults ∧ faults.flushError = none) ∧
    (∀ e, result = .error e → Unharmed l l' (l.deviceBy? way) ∧
      ∃ front, front <+: frame.encode ∧ (e = .closed → front = []) ∧
        ∀ d, l'.receivedBy d =
          if l.deviceBy? way = some d then l.receivedBy d ++ front else l.receivedBy d) ∧
    ∀ d, (∀ faults, l.bench.faultsOf d = some faults → faults.Relenting) →
      ((l.calm d).writeBy way frame).2 = result ∧
        ∀ k, ((l.calm d).writeBy way frame).1.receivedBy k = l'.receivedBy k := by
  intro l' result
  refine ⟨l.writeBy_eq_ok_iff way frame, fun e hfailed => unharmed_of_failed hfailed, ?_⟩
  intro d hd
  rw [calm_writeBy hd]
  exact ⟨rfl, fun _ => rfl⟩

/-- Interrupted, a call takes two bytes; interrupted again, the next one fails. -/
def interruptedScript : List WriteStep :=
  [.fail (.system 4), .take 2, .fail (.system 4), .fail (.system 5)]

/-- A device that follows the script. -/
def interruptedBench : Bench :=
  { devices := [{ path := "p", faults := { script := interruptedScript } }]
    plugged := [("p", 0)] }

/-- Half a line is taken, with the interruptions or without them, and the write fails. -/
theorem failed_write_leaves_link_interrupted :
    let l := ({ bench := interruptedBench } : Link).run [.openPort ["p"] 0]
    let frame := Frame.message "abc"
    let failed := LinkError.io "Input/output error (os error 5)"
    (l.writeBy .current frame).2 = .error failed ∧
      Unharmed l (l.writeBy .current frame).1 (some 0) ∧
      ((l.calm 0).writeBy .current frame).2 = .error failed ∧
      ((l.calm 0).writeBy .current frame).1.receivedBy 0 = [0x61, 0x62] := by
  intro l frame failed
  obtain ⟨-, hleft, hcalm⟩ := failed_write_leaves_link l .current frame
  have hfailed : (l.writeBy .current frame).2 = .error failed := rfl
  have hrelenting : ∀ faults, l.bench.faultsOf 0 = some faults → faults.Relenting := by
    intro faults hfaults
    cases hfaults
    exact nofun
  obtain ⟨hresult, htaken⟩ := hcalm 0 hrelenting
  refine ⟨hfailed, (hleft failed hfailed).1, hresult.trans hfailed, ?_⟩
  rw [htaken]
  decide

end Link

end SerialBridge
