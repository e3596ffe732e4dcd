import SerialBridge.Proofs.Actions
import SerialBridge.Proofs.Assembly

/-! # Looking for input

The reader looks for input again and again, and anything else may happen between two looks.

A look that hands over no unfinished line for want of input does one thing only, whatever it
comes to (`poll_eq`): it takes some bytes off the front of what waits behind the current
handle, perhaps none, puts them behind what is held back there, publishes the reports among
the lines this completes, and counts the lines.  Nothing else touches what is held back
(`lines_step`), and new handles hold nothing.
-/

namespace SerialBridge

/-! ## Taking input off a device -/

namespace Bench

/-- Input of the device of a number. -/
def inputOf (b : Bench) (device : Nat) : Bytes :=
  ((b.devices[device]?).map (·.input)).getD []

theorem modify_self {b : Bench} {d : Nat} {device : Device} (h : b.devices[d]? = some device) :
    (b.modify d fun _ => device) = b := by
  have hdevices : b.devices.modify d (fun _ => device) = b.devices := by
    refine List.ext_getElem? fun k => ?_
    rw [List.getElem?_modify]
    by_cases hk : d = k
    · subst hk
      simp [h]
    · simp [hk]
  rw [modify, hdevices]

end Bench

namespace Link

/-- The link after so many bytes were taken off the front of what waits in a device. -/
def withoutInput (l : Link) (device n : Nat) : Link :=
  { l with bench := l.bench.modify device fun d => { d with input := d.input.drop n } }

/-- Input that waits behind the handle of a number. -/
def inputAt (l : Link) (h : Nat) : Bytes :=
  ((l.handle? h).map fun handle => l.bench.inputOf handle.device).getD []

/-- The bytes that asking for input gives. -/
def inputTaken (l : Link) (h : Nat) : Bytes :=
  match (l.takeInput h).2 with
  | .ok (some bytes) => bytes
  | .ok none | .error _ => []

/-- Asking for input fails, finds none, or takes some bytes off the front of what waits,
perhaps none of them. -/
theorem takeInput_cases (l : Link) (h : Nat) :
    (∃ e, l.takeInput h = (l, .error e)) ∨ l.takeInput h = (l, .ok none) ∨
    ∃ handle n, l.handle? h = some handle ∧ l.takeInput h =
      (l.withoutInput handle.device n, .ok (some ((l.inputAt h).take n))) := by
  rw [takeInput]
  split
  · exact .inl ⟨_, rfl⟩
  · rename_i handle hfilter
    have hh : l.handle? h = some handle := (Option.filter_eq_some_iff.mp hfilter).1
    split
    · exact .inl ⟨_, rfl⟩
    · rename_i device hdevice
      have hinput : l.inputAt h = device.input := by simp [inputAt, Bench.inputOf, hh, hdevice]
      have same : { l with bench := l.bench.modify handle.device fun _ => device } = l := by
        rw [Bench.modify_self hdevice]
      have shorter : ∀ n, { l with bench := l.bench.modify handle.device fun _ =>
          { device with input := device.input.drop n } } = l.withoutInput handle.device n := by
        intro n
        have hdevices : l.bench.devices.modify handle.device
              (fun _ => { device with input := device.input.drop n }) =
            l.bench.devices.modify handle.device fun d => { d with input := d.input.drop n } := by
          refine List.ext_getElem? fun k => ?_
          simp only [List.getElem?_modify]
          by_cases hk : handle.device = k
          · subst hk
            simp [hdevice]
          · simp [hk]
        rw [withoutInput, Bench.modify, Bench.modify, hdevices]
      split
      · exact .inl ⟨_, rfl⟩
      · exact .inr (.inl rfl)
      · rename_i waiting _ _
        rw [Device.read]
        cases hread : device.faults.readError with
        | some e =>
          dsimp only
          rw [same]
          by_cases htimed : e.kind = .timedOut
          · refine .inr (.inr ⟨handle, 0, hh, ?_⟩)
            have hnone : l.withoutInput handle.device 0 = l := (shorter 0).symm.trans same
            rw [if_pos htimed, hnone, List.take_zero]
          · rw [if_neg htimed]
            exact .inl ⟨e, rfl⟩
        | none =>
          dsimp only
          rw [shorter, hinput]
          exact .inr (.inr ⟨handle, _, hh, rfl⟩)

/-! ## What is held back -/

theorem setLines_lines {l : Link} {h : Nat} {handle : Handle} (hh : l.handle? h = some handle) :
    l.setLines h (l.lines h) = l := by
  have hlines : l.lines h = handle.lines := by simp [lines, hh]
  have hhandles : l.handles.modify h (fun handle' => { handle' with lines := handle.lines }) =
      l.handles := by
    refine List.ext_getElem? fun k => ?_
    rw [List.getElem?_modify]
    by_cases hk : h = k
    · subst hk
      have hk : l.handles[h]? = some handle := hh
      simp [hk]
    · simp [hk]
  rw [setLines, hlines, hhandles]

theorem lines_setLines {l : Link} {h : Nat} {handle : Handle} (hh : l.handle? h = some handle)
    (lines : LineBuffer) (k : Nat) :
    (l.setLines h lines).lines k = if k = h then lines else l.lines k := by
  have hh : l.handles[h]? = some handle := hh
  simp only [Link.lines, setLines, handle?, List.getElem?_modify]
  by_cases hk : h = k
  · subst hk
    simp [hh]
  · simp [hk, Ne.symm hk]

theorem lines_withHandle (l : Link) (path : String) (device k : Nat) :
    (l.withHandle path device).lines k = l.lines k := by
  simp only [lines, handle?, withHandle]
  rcases Nat.lt_trichotomy k l.handles.length with hlt | rfl | hgt
  · rw [List.getElem?_append_left hlt]
  · simp [LineBuffer.empty]
  · have hnew : (l.handles ++ [({ path, device } : Handle)])[k]? = none :=
      List.getElem?_eq_none (by simp; omega)
    rw [hnew, List.getElem?_eq_none (Nat.le_of_lt hgt)]

theorem lines_clear (l : Link) (k : Nat) : l.clear.lines k = l.lines k := by
  cases hc : l.current with
  | none => rw [clear_of_none hc]
  | some h =>
    rw [clear_of_some hc]
    simp only [lines, handle?, List.getElem?_modify]
    by_cases hk : h = k
    · subst hk
      cases l.handles[h]? <;> simp
    · simp [hk]

/-- The step leaves the reader's side of the link alone. -/
def Step.ReadsNothing : Step → Prop
  | .readLines .. | .countLines _ => False
  | _ => True

/-- **Nothing but reading touches what is held back**, and new handles hold nothing. -/
theorem lines_step (l : Link) {s : Step} (hs : s.ReadsNothing) (k : Nat) :
    (l.step s).lines k = l.lines k := by
  cases s with
  | readLines | countLines => exact hs.elim
  | surround => rfl
  | clear => exact l.lines_clear k
  | openPort candidates baudRate =>
    rw [step, openPort, ← l.lines_clear k]
    rcases l.clear.openFirst_cases candidates baudRate with
      ⟨_, _, _, heq⟩ | ⟨_, _, _, heq⟩ | ⟨_, _, _, heq⟩ <;> rw [heq]
    · rfl
    · rfl
    · exact lines_withHandle _ _ _ k
  | writeOn author h frame =>
    rcases l.writeOn_cases author h frame with ⟨heq, -⟩ | ⟨_, _, -, -, -, heq, -⟩ <;>
      rw [step, heq]
    rfl

theorem linesRead_step (l : Link) {s : Step} (hs : s.ReadsNothing) :
    (l.step s).counters.linesRead = l.counters.linesRead := by
  cases s with
  | readLines | countLines => exact hs.elim
  | surround => rfl
  | clear => exact congrArg Counters.linesRead l.clear_counters
  | openPort candidates baudRate =>
    rw [step, openPort, ← l.clear_counters]
    rcases l.clear.openFirst_cases candidates baudRate with
      ⟨_, _, _, heq⟩ | ⟨_, _, _, heq⟩ | ⟨_, _, _, heq⟩ <;> rw [heq]
    rfl
  | writeOn author h frame =>
    rcases l.writeOn_cases author h frame with ⟨heq, -⟩ | ⟨_, _, -, -, -, heq, -⟩ <;>
      rw [step, heq]
    rw [withTransmission]
    dsimp only
    split <;> rfl

/-- The current handle is the one that was made last. -/
def Latest (l : Link) : Prop :=
  ∀ h, l.current = some h → h + 1 = l.handles.length

/-- A step makes one handle at most, and only that one becomes current. -/
theorem latest_step {l : Link} (hl : l.Latest) (s : Step) :
    (l.step s).Latest ∧ l.handles.length ≤ (l.step s).handles.length := by
  have hclear : l.clear.handles.length = l.handles.length := by
    cases hc : l.current with
    | none => rw [clear_of_none hc]
    | some h => simp [clear_of_some hc]
  have hdropped : l.clear.Latest := by
    intro h hh
    rw [clear_current] at hh
    cases hh
  cases s with
  | surround | countLines => exact ⟨hl, Nat.le_refl _⟩
  | clear => exact ⟨hdropped, Nat.le_of_eq hclear.symm⟩
  | openPort candidates baudRate =>
    rw [step, openPort, ← hclear]
    rcases l.clear.openFirst_cases candidates baudRate with
      ⟨_, _, _, heq⟩ | ⟨_, _, _, heq⟩ | ⟨_, _, _, heq⟩ <;> rw [heq]
    · exact ⟨hdropped, Nat.le_refl _⟩
    · exact ⟨hdropped, Nat.le_refl _⟩
    · refine ⟨fun h hh => ?_, by simp [withHandle]⟩
      cases hh
      simp [withHandle]
  | writeOn author k frame =>
    rcases l.writeOn_cases author k frame with ⟨heq, -⟩ | ⟨_, _, -, -, -, heq, -⟩ <;>
      rw [step, heq] <;> exact ⟨hl, Nat.le_refl _⟩
  | readLines now k =>
    obtain ⟨bench, handles, heq, -, hhandles⟩ := l.readLines_cases now k
    have hlen : handles.length = l.handles.length := by
      rcases hhandles with rfl | ⟨lines, rfl⟩ <;> simp
    rw [step, heq]
    refine ⟨fun h hh => ?_, Nat.le_of_eq hlen.symm⟩
    rw [hl h hh]
    exact hlen.symm

theorem inputAt_withoutInput {l : Link} {h : Nat} {handle : Handle}
    (hh : l.handle? h = some handle) (n : Nat) :
    (l.withoutInput handle.device n).inputAt h = (l.inputAt h).drop n := by
  have hh' : (l.withoutInput handle.device n).handle? h = some handle := hh
  rw [inputAt, inputAt, hh, hh']
  simp only [Option.map_some, Option.getD_some, Bench.inputOf, withoutInput, Bench.modify,
    List.getElem?_modify_eq]
  cases l.bench.devices[handle.device]? with
  | none => exact List.drop_nil.symm
  | some device => rfl

theorem inputAt_setLines (l : Link) (h k : Nat) (lines : LineBuffer) :
    (l.setLines h lines).inputAt k = l.inputAt k := by
  simp only [inputAt, handle?, setLines, List.getElem?_modify]
  by_cases hk : h = k
  · subst hk
    cases l.handles[h]? <;> simp
  · simp [hk]

theorem countLines_zero (l : Link) : l.countLines 0 = l := by
  have hzero : l.counters.linesRead + UInt64.ofNat 0 = l.counters.linesRead := by simp
  rw [countLines, hzero]

end Link

/-- A read of nothing changes nothing where less than a piece is held back. -/
theorem Assembly.read_nil {s : Assembly} (hnot : lineFeed ∉ s.pending)
    (hlt : s.pending.length < LineBuffer.maxLength) : s.read [] = s := by
  rw [read_stretch hnot List.not_mem_nil, List.append_nil, LineBuffer.heldBack_of_lt hlt,
    LineBuffer.div_of_lt hlt]
  simp [LineBuffer.pieces]

namespace Bridge

/-! ## One look -/

/-- The envelope of a report. -/
def report (text : String) : Envelope :=
  .broadcast (.log text)

/-- Whether a look at a time hands over an unfinished line because the device is quiet. -/
def flushes (b : Bridge) (now : Nat) : Bool :=
  match b.link.current with
  | none => false
  | some h =>
    match (b.link.takeInput h).2 with
    | .ok none => ((b.link.lines h).flushIdle now LineBuffer.maxIdle).2.isSome
    | .ok (some _) | .error _ => false

theorem waiting_of_current {b : Bridge} {h : Nat} (hcurrent : b.link.current = some h) :
    b.waiting = b.link.inputAt h := by
  rw [waiting, Link.currentHandle?, hcurrent, Option.bind_some, Link.inputAt]
  cases b.link.handle? h with
  | none => rfl
  | some handle => rfl

theorem deliver_eq (b : Bridge) (lines : List Bytes) :
    b.deliver lines = { b with
      link := b.link.countLines lines.length
      published := ((lines.filterMap Inbound.report?).map report).reverse ++ b.published } := by
  have told : ∀ (texts : List String) (b : Bridge), texts.foldl announce b =
      { b with published := (texts.map report).reverse ++ b.published } := by
    intro texts
    induction texts with
    | nil => intro b; rfl
    | cons text texts ih =>
      intro b
      rw [List.foldl_cons, ih]
      simp [announce, publish, report]
  rw [deliver, told]

/-- A look whose read fails comes to nothing. -/
theorem poll_of_error {b : Bridge} {now h : Nat} {e : IoError}
    (hcurrent : b.link.current = some h)
    (hread : b.link.readLines now h = (b.link, .error e)) : (b.poll now).1 = b := by
  rw [poll, takeLines, hcurrent]
  dsimp only
  rw [hread]

/-- A look delivers the lines that its read gives. -/
theorem poll_of_lines {b : Bridge} {now h : Nat} {link : Link} {lines : List Bytes}
    (hcurrent : b.link.current = some h)
    (hread : b.link.readLines now h = (link, .ok lines)) :
    (b.poll now).1 = { b with link }.deliver lines := by
  rw [poll, takeLines, hcurrent]
  dsimp only
  rw [hread]
  cases lines with
  | nil => simp [deliver_eq, Link.countLines_zero]
  | cons line lines => rfl

/-- What it is to take some bytes off what waits behind a handle and deliver the lines they
complete. -/
def Took (b : Bridge) (h : Nat) (bytes : Bytes) (b' : Bridge) : Prop :=
  let s := ({ pending := (b.link.lines h).pending } : Assembly).read bytes
  b.waiting = bytes ++ b'.waiting ∧ ∃ bench lines, lines.pending = s.pending ∧
    b' = { b with
      link := ({ b.link with bench }.setLines h lines).countLines s.handed.length
      published := ((s.handed.filterMap Inbound.report?).map report).reverse ++ b.published }

/-- A look that leaves everything as it was has taken nothing. -/
theorem took_nothing {b : Bridge} {h : Nat} {handle : Handle}
    (hh : b.link.handle? h = some handle) (hnot : lineFeed ∉ (b.link.lines h).pending)
    (hlt : (b.link.lines h).pending.length < LineBuffer.maxLength) : b.Took h [] b := by
  have hnothing := @Assembly.read_nil { pending := (b.link.lines h).pending } hnot hlt
  have hsame : (b.link.setLines h (b.link.lines h)).countLines 0 = b.link := by
    rw [Link.setLines_lines hh, Link.countLines_zero]
  refine ⟨(List.nil_append _).symm, b.link.bench, b.link.lines h, ?_⟩
  rw [hnothing]
  refine ⟨rfl, ?_⟩
  change b = { b with link := (b.link.setLines h (b.link.lines h)).countLines 0 }
  rw [hsame]

/-- A look that gets some bytes takes them off the front and delivers what they complete. -/
theorem took_input {b : Bridge} {now h n : Nat} {handle : Handle}
    (hcurrent : b.link.current = some h) (hh : b.link.handle? h = some handle)
    (htake : b.link.takeInput h =
      (b.link.withoutInput handle.device n, .ok (some ((b.link.inputAt h).take n)))) :
    b.Took h ((b.link.inputAt h).take n) (b.poll now).1 := by
  obtain ⟨bytes, hbytes⟩ : ∃ bytes, bytes = (b.link.inputAt h).take n := ⟨_, rfl⟩
  have hpush := (b.link.lines h).push_eq now bytes
  have hread : b.link.readLines now h =
      ((b.link.withoutInput handle.device n).setLines h ((b.link.lines h).push now bytes).1,
        .ok ((b.link.lines h).push now bytes).2) := by
    rw [Link.readLines, htake, ← hbytes]
    rfl
  have hpoll := (poll_of_lines hcurrent hread).trans (deliver_eq _ _)
  have hcurrent' : (b.poll now).1.link.current = some h := by
    rw [hpoll]
    exact hcurrent
  rw [← hbytes]
  refine ⟨?_, (b.link.withoutInput handle.device n).bench,
    ((b.link.lines h).push now bytes).1, ?_, ?_⟩
  · rw [waiting_of_current hcurrent, waiting_of_current hcurrent', hpoll]
    change _ = bytes ++ ((b.link.withoutInput handle.device n).setLines h _).inputAt h
    rw [Link.inputAt_setLines, Link.inputAt_withoutInput hh, hbytes, List.take_append_drop]
  · rw [hpush]
    rfl
  · rw [hpoll, hpush]
    rfl

/-- **What a look does.**  Unless it hands over an unfinished line for want of input, it takes
the bytes that asking gives off the front of what waits, puts them behind what is held back,
publishes the reports among what this completes, and counts the lines. -/
theorem poll_eq {b : Bridge} {now h : Nat} {handle : Handle}
    (hcurrent : b.link.current = some h) (hh : b.link.handle? h = some handle)
    (hnot : lineFeed ∉ (b.link.lines h).pending)
    (hlt : (b.link.lines h).pending.length < LineBuffer.maxLength)
    (hflush : b.flushes now = false) : b.Took h (b.link.inputTaken h) (b.poll now).1 := by
  rcases b.link.takeInput_cases h with ⟨e, htake⟩ | htake | ⟨handle', n, hh', htake⟩ <;>
    rw [Link.inputTaken, htake]
  · have hread : b.link.readLines now h = (b.link, .error e) := by rw [Link.readLines, htake]
    rw [poll_of_error hcurrent hread]
    exact took_nothing hh hnot hlt
  · have hnone : (b.link.lines h).flushIdle now LineBuffer.maxIdle = (b.link.lines h, none) := by
      rw [flushes, hcurrent] at hflush
      simp only [htake] at hflush
      rw [LineBuffer.flushIdle] at hflush ⊢
      split
      · rename_i hidle
        rw [if_pos hidle] at hflush
        cases hflush
      · rfl
    have hread : b.link.readLines now h = (b.link, .ok []) := by
      rw [Link.readLines, htake]
      dsimp only
      rw [hnone, Link.setLines_lines hh]
      rfl
    have hsame : (b.poll now).1 = b := by
      rw [poll_of_lines hcurrent hread, deliver_eq]
      simp [Link.countLines_zero]
    rw [hsame]
    exact took_nothing hh hnot hlt
  · rw [hh] at hh'
    cases hh'
    exact took_input hcurrent hh htake

end Bridge

end SerialBridge
