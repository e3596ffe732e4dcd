import Mathlib.Algebra.BigOperators.Group.Finset.Piecewise
import Mathlib.Algebra.GroupWithZero.Nat
import SerialBridge.Proofs.Actions
import SerialBridge.Proofs.Wire

/-! # Totals of what was written

A link counts the frames it wrote and their bytes, modulo `2^64`.  The counts are compared
with two things that know nothing of them: what the writes returned, one after another
(`Link.writes`), and what the devices took (`Link.received`).

A write that succeeds has its device take just the frame, and it is counted once.  A write
that fails is not counted, whatever its device took before it failed.  No other step writes,
counts, or takes a count back, opening and closing the link included; so the counts agree
with the writes after every run (`totals_are_of_writes`), and with what the devices took as
far as no write failed.
-/

namespace SerialBridge

namespace Link

/-! ## What the devices took -/

/-- How many bytes all devices there ever were took. -/
def received (l : Link) : Nat :=
  ∑ d ∈ Finset.range l.bench.devices.length, (l.receivedBy d).length

/-- Every device that took bytes is on the bench. -/
def Known (l : Link) : Prop :=
  ∀ t ∈ l.transmissions, t.device < l.bench.devices.length

/-- Each transmission went to one of the devices. -/
theorem sum_length_sentBy {n : Nat} {ts : List Transmission} (hts : ∀ t ∈ ts, t.device < n) :
    ∑ d ∈ Finset.range n, (sentBy (ts.filter (·.device == d))).length = (sentBy ts).length := by
  induction ts with
  | nil => simp [sentBy]
  | cons t ts ih =>
    obtain ⟨ht, hrest⟩ := List.forall_mem_cons.mp hts
    have hone : ∀ d, (sentBy ((t :: ts).filter (·.device == d))).length =
        (sentBy (ts.filter (·.device == d))).length +
          if t.device = d then t.accepted.length else 0 := by
      intro d
      by_cases hd : t.device = d
      · rw [List.filter_cons_of_pos (by simpa using hd), sentBy_cons, List.length_append, if_pos hd]
      · rw [List.filter_cons_of_neg (by simpa using hd), if_neg hd, Nat.add_zero]
    simp only [hone, Finset.sum_add_distrib, ih hrest]
    rw [Finset.sum_ite_eq, if_pos (Finset.mem_range.mpr ht), sentBy_cons, List.length_append]

theorem received_eq {l : Link} (hl : l.Known) : l.received = (sentBy l.transmissions).length :=
  sum_length_sentBy hl

theorem lt_length_iff {b : Bench} {d : Nat} :
    d < b.devices.length ↔ ∃ faults, b.faultsOf d = some faults := by
  constructor
  · intro hlt
    exact ⟨_, by rw [Bench.faultsOf, List.getElem?_eq_getElem hlt, Option.map_some]⟩
  · rintro ⟨faults, hfaults⟩
    obtain ⟨device, hdevice, -⟩ := Option.map_eq_some_iff.mp hfaults
    exact (List.getElem?_eq_some_iff.mp hdevice).1

/-- Devices are never taken away. -/
theorem length_devices_change (b : Bench) (c : Bench.Change) :
    b.devices.length ≤ (b.change c).devices.length := by
  cases c with
  | plug path faults => simp [Bench.change, Bench.plug]
  | unplug path => exact Nat.le_refl _
  | attach path =>
    rw [Bench.change, Bench.attach]
    split
    · exact Nat.le_refl _
    · simp [Bench.plug]
  | detach path => exact Nat.le_refl _
  | configure device faults => simp [Bench.change, Bench.modify]
  | feed device bytes => simp [Bench.change, Bench.feed, Bench.modify]

theorem length_devices_step (l : Link) (s : Step) :
    l.bench.devices.length ≤ (l.step s).bench.devices.length := by
  cases s with
  | surround change => exact length_devices_change l.bench change
  | countLines => exact Nat.le_refl _
  | clear => rw [step, clear_bench]
  | openPort candidates baudRate =>
    rw [step, openPort, ← l.clear_bench]
    rcases l.clear.openFirst_cases candidates baudRate with
      ⟨_, _, _, heq⟩ | ⟨_, _, _, heq⟩ | ⟨_, _, _, heq⟩ <;> rw [heq] <;>
      simp [withHandle, Bench.modify]
  | writeOn author h frame =>
    rcases l.writeOn_cases author h frame with ⟨heq, -⟩ | ⟨_, _, -, -, -, heq, -⟩ <;>
      rw [step, heq]
    simp [withTransmission, Bench.modify]
  | readLines now h =>
    obtain ⟨bench, handles, heq, hfaults, -⟩ := l.readLines_cases now h
    have hkept : ∀ d, d < l.bench.devices.length → d < bench.devices.length := by
      intro d hd
      rw [lt_length_iff] at hd ⊢
      rwa [hfaults]
    rw [step, heq]
    exact Nat.le_of_not_lt fun hlt => Nat.lt_irrefl _ (hkept _ hlt)

theorem counters_openPort (l : Link) (candidates : List String) (baudRate : UInt32) :
    (l.openPort candidates baudRate).1.counters = l.counters := by
  rw [openPort, ← l.clear_counters]
  rcases l.clear.openFirst_cases candidates baudRate with
    ⟨_, _, _, heq⟩ | ⟨_, _, _, heq⟩ | ⟨_, _, _, heq⟩ <;> rw [heq]
  rfl

/-! ## Writes -/

/-- A write and what came of it. -/
structure Write where
  /-- The frame. -/
  frame : Frame
  /-- What the write returned. -/
  result : Except LinkError Unit
  /-- How many more bytes the devices have taken after it. -/
  taken : Nat

/-- The write that a step is, if it is one. -/
def write? (l : Link) (s : Step) : Option Write :=
  match s with
  | .writeOn author h frame =>
    some ⟨frame, (l.writeOn author h frame).2, (l.step s).received - l.received⟩
  | _ => none

/-- The writes among some steps, one after another. -/
def writes (l : Link) : List Step → List Write
  | [] => []
  | s :: steps => (l.write? s).toList ++ (l.step s).writes steps

/-- The writes that succeeded. -/
def succeeded (ws : List Write) : List Write :=
  ws.filter (·.result.isOk)

/-- The writes that failed. -/
def failed (ws : List Write) : List Write :=
  ws.filter (!·.result.isOk)

/-- The length of all the frames, encoded. -/
def framedBytes (ws : List Write) : Nat :=
  (ws.map (·.frame.encode.length)).sum

/-- What the devices took, write by write. -/
def takenBytes (ws : List Write) : Nat :=
  (ws.map (·.taken)).sum

theorem framedBytes_concat (ws : List Write) (w : Write) :
    framedBytes (ws ++ [w]) = framedBytes ws + w.frame.encode.length := by
  rw [framedBytes, List.map_append, List.sum_append, List.map_singleton, List.sum_singleton,
    framedBytes]

theorem takenBytes_concat (ws : List Write) (w : Write) :
    takenBytes (ws ++ [w]) = takenBytes ws + w.taken := by
  rw [takenBytes, List.map_append, List.sum_append, List.map_singleton, List.sum_singleton,
    takenBytes]

/-- The totals of a link agree with the writes there were. -/
structure Balanced (l : Link) (ws : List Write) : Prop where
  framesWritten_eq : l.counters.framesWritten = UInt64.ofNat (succeeded ws).length
  bytesWritten_eq : l.counters.bytesWritten = UInt64.ofNat (framedBytes (succeeded ws))
  taken_eq : ∀ w ∈ succeeded ws, w.taken = w.frame.encode.length
  received_eq : l.received = framedBytes (succeeded ws) + takenBytes (failed ws)

theorem Balanced.congr {l l' : Link} {ws : List Write} (hl : l.Balanced ws)
    (hframes : l'.counters.framesWritten = l.counters.framesWritten)
    (hbytes : l'.counters.bytesWritten = l.counters.bytesWritten)
    (hreceived : l'.received = l.received) : l'.Balanced ws where
  framesWritten_eq := hframes.trans hl.framesWritten_eq
  bytesWritten_eq := hbytes.trans hl.bytesWritten_eq
  taken_eq := hl.taken_eq
  received_eq := hreceived.trans hl.received_eq

/-- A write that succeeds, with the frame taken and counted. -/
theorem Balanced.ok {l l' : Link} {ws : List Write} (hl : l.Balanced ws) {frame : Frame}
    (hcounters : l'.counters = countFrame l.counters frame)
    (hreceived : l'.received = l.received + frame.encode.length) :
    l'.Balanced (ws ++ [⟨frame, .ok (), frame.encode.length⟩]) := by
  obtain ⟨w, hw⟩ : ∃ w : Write, w = ⟨frame, .ok (), frame.encode.length⟩ := ⟨_, rfl⟩
  have hframe : w.frame = frame := by rw [hw]
  have hsucceeded : succeeded (ws ++ [w]) = succeeded ws ++ [w] := by
    rw [succeeded, List.filter_append, hw]
    rfl
  have hfailed : failed (ws ++ [w]) = failed ws := by
    rw [failed, List.filter_append, hw]
    exact List.append_nil _
  rw [← hw]
  constructor
  · rw [hsucceeded, List.length_append, List.length_singleton, UInt64.ofNat_add,
      ← hl.framesWritten_eq, hcounters]
    rfl
  · rw [hsucceeded, framedBytes_concat, UInt64.ofNat_add, ← hl.bytesWritten_eq, hcounters, hframe]
    rfl
  · rw [hsucceeded, List.forall_mem_append]
    exact ⟨hl.taken_eq, List.forall_mem_singleton.mpr (by rw [hw])⟩
  · rw [hsucceeded, hfailed, framedBytes_concat, hreceived, hl.received_eq, hframe]
    omega

/-- A write that fails, with no frame counted. -/
theorem Balanced.error {l l' : Link} {ws : List Write} (hl : l.Balanced ws) (frame : Frame)
    (e : LinkError) (hcounters : l'.counters = l.counters) (hle : l.received ≤ l'.received) :
    l'.Balanced (ws ++ [⟨frame, .error e, l'.received - l.received⟩]) := by
  obtain ⟨w, hw⟩ : ∃ w : Write, w = ⟨frame, .error e, l'.received - l.received⟩ := ⟨_, rfl⟩
  have htaken : w.taken = l'.received - l.received := by rw [hw]
  have hsucceeded : succeeded (ws ++ [w]) = succeeded ws := by
    rw [succeeded, List.filter_append, hw]
    exact List.append_nil _
  have hfailed : failed (ws ++ [w]) = failed ws ++ [w] := by
    rw [failed, List.filter_append, hw]
    rfl
  have hreceived := hl.received_eq
  rw [← hw]
  refine ⟨?_, ?_, ?_, ?_⟩ <;> rw [hsucceeded]
  · rw [hcounters]
    exact hl.framesWritten_eq
  · rw [hcounters]
    exact hl.bytesWritten_eq
  · exact hl.taken_eq
  · rw [hfailed, takenBytes_concat, htaken]
    omega

/-- A step that is no write neither counts nor transmits anything. -/
theorem step_of_no_write {l : Link} {s : Step} (hs : l.write? s = none) :
    (l.step s).counters.framesWritten = l.counters.framesWritten ∧
      (l.step s).counters.bytesWritten = l.counters.bytesWritten ∧
      (l.step s).transmissions = l.transmissions := by
  cases s with
  | writeOn author h frame => cases hs
  | surround | countLines => exact ⟨rfl, rfl, rfl⟩
  | clear =>
    have hcounters := l.clear_counters
    exact ⟨congrArg _ hcounters, congrArg _ hcounters, l.clear_transmissions⟩
  | openPort candidates baudRate =>
    have hcounters := l.counters_openPort candidates baudRate
    exact ⟨congrArg _ hcounters, congrArg _ hcounters, l.transmissions_openPort candidates baudRate⟩
  | readLines now h =>
    obtain ⟨bench, handles, heq, -, -⟩ := l.readLines_cases now h
    rw [step, heq]
    exact ⟨rfl, rfl, rfl⟩

/-- A write that fails is not counted.  One that succeeds is, and its device took just the
frame. -/
theorem writeOn_counts {l : Link} (hl : l.Known) (author : Author) (h : Nat) (frame : Frame) :
    let l' := (l.writeOn author h frame).1
    let result := (l.writeOn author h frame).2
    l'.Known ∧ l.received ≤ l'.received ∧
      ((result = .ok () ∧ l'.counters = countFrame l.counters frame ∧
          l'.received = l.received + frame.encode.length) ∨
        ∃ e, result = .error e ∧ l'.counters = l.counters) := by
  intro l' result
  rcases l.writeOn_cases author h frame with
    ⟨heq, -⟩ | ⟨handle, device, -, -, hdevice, hlink, hresult⟩
  · have hl' : l' = l := congrArg Prod.fst heq
    have hresult : result = .error .closed := congrArg Prod.snd heq
    rw [hl']
    exact ⟨hl, Nat.le_refl _, .inr ⟨_, hresult, rfl⟩⟩
  · obtain ⟨written, hwritten⟩ : ∃ written, written = (device.writeAll frame.encode).2 := ⟨_, rfl⟩
    rw [← hwritten] at hlink hresult
    have hsound : written.Sound frame.encode := hwritten ▸ device.writeAll_sound frame.encode
    have hl' : l' = _ := hlink
    have hlength : l'.bench.devices.length = l.bench.devices.length := by
      rw [hl']
      simp [withTransmission, Bench.modify]
    have htransmissions : l'.transmissions =
        ⟨h, handle.device, author, frame, written.accepted, written.error⟩ :: l.transmissions := by
      rw [hl']
      rfl
    have hknown : l'.Known := by
      intro t ht
      rw [htransmissions] at ht
      rw [hlength]
      rcases List.mem_cons.mp ht with rfl | hold
      · exact (List.getElem?_eq_some_iff.mp hdevice).1
      · exact hl t hold
    have hreceived : l'.received = l.received + written.accepted.length := by
      rw [received_eq hknown, htransmissions, sentBy_cons, List.length_append, received_eq hl]
    refine ⟨hknown, hreceived ▸ Nat.le_add_right _ _, ?_⟩
    cases herror : written.error with
    | none =>
      refine .inl ⟨?_, ?_, ?_⟩
      · change (l.writeOn author h frame).2 = .ok ()
        rw [hresult, herror]
      · rw [hl', withTransmission]
        dsimp only
        rw [if_pos herror]
      · rw [hreceived, hsound.accepted_eq herror]
    | some e =>
      refine .inr ⟨.ofIo e, ?_, ?_⟩
      · change (l.writeOn author h frame).2 = .error (.ofIo e)
        rw [hresult, herror]
      · rw [hl', withTransmission]
        dsimp only
        rw [if_neg (by rw [herror]; exact Option.some_ne_none e)]

theorem known_step {l : Link} (hl : l.Known) (s : Step) : (l.step s).Known := by
  cases hs : l.write? s with
  | none =>
    intro t ht
    rw [(step_of_no_write hs).2.2] at ht
    exact Nat.lt_of_lt_of_le (hl t ht) (l.length_devices_step s)
  | some w =>
    cases s with
    | writeOn author h frame => exact (writeOn_counts hl author h frame).1
    | surround | clear | openPort | readLines | countLines => cases hs

theorem balanced_step {l : Link} (hl : l.Known) {ws : List Write} (hbalanced : l.Balanced ws)
    (s : Step) : (l.step s).Balanced (ws ++ (l.write? s).toList) := by
  have hknown := known_step hl s
  cases hs : l.write? s with
  | none =>
    obtain ⟨hframes, hbytes, htransmissions⟩ := step_of_no_write hs
    rw [Option.toList_none, List.append_nil]
    refine hbalanced.congr hframes hbytes ?_
    rw [received_eq hknown, htransmissions, received_eq hl]
  | some w =>
    cases s with
    | surround | clear | openPort | readLines | countLines => cases hs
    | writeOn author h frame =>
      obtain ⟨-, hle, hcounts⟩ := writeOn_counts hl author h frame
      cases hs
      rw [Option.toList_some]
      rcases hcounts with ⟨hok, hcounters, hreceived⟩ | ⟨e, herror, hcounters⟩
      · have htaken : (l.step (.writeOn author h frame)).received - l.received =
            frame.encode.length := by
          rw [step, hreceived, Nat.add_sub_cancel_left]
        rw [htaken, hok]
        exact hbalanced.ok hcounters hreceived
      · rw [herror]
        exact hbalanced.error frame e hcounters hle

theorem balanced_run {l : Link} (hl : l.Known) {ws : List Write} (hbalanced : l.Balanced ws)
    (steps : List Step) : (l.run steps).Balanced (ws ++ l.writes steps) := by
  induction steps generalizing l ws with
  | nil =>
    rw [writes, List.append_nil]
    exact hbalanced
  | cons s steps ih =>
    rw [run_cons, writes, ← List.append_assoc]
    exact ih (known_step hl s) (balanced_step hl hbalanced s)

theorem known_new (bench : Bench) : Known { bench } :=
  fun _ ht => nomatch ht

theorem balanced_new (bench : Bench) : Balanced { bench } [] where
  framesWritten_eq := rfl
  bytesWritten_eq := rfl
  taken_eq := fun _ hw => nomatch hw
  received_eq := received_eq (known_new bench)

end Link

namespace Bridge

open Link (succeeded failed framedBytes takenBytes)

/-- **The totals are those of the writes that succeeded.**  After every run the frames counted
are the writes that returned without an error, and the bytes counted are those of just their
frames, both modulo `2^64`, whatever was opened and closed in between and through whatever
handles was written.  Such a write has the devices take its frame; all else that the devices
took, they took of writes that then failed. -/
theorem totals_are_of_writes (settings : Settings) (bench : Bench) (actions : List Action) :
    let b := new settings bench
    let l := (b.run actions).link
    let ws := b.link.writes (b.linkSteps actions)
    l = b.link.run (b.linkSteps actions) ∧
      l.counters.framesWritten = UInt64.ofNat (succeeded ws).length ∧
      l.counters.bytesWritten = UInt64.ofNat (framedBytes (succeeded ws)) ∧
      (∀ w ∈ succeeded ws, w.taken = w.frame.encode.length) ∧
      l.received = framedBytes (succeeded ws) + takenBytes (failed ws) := by
  intro b l ws
  have hrun : l = b.link.run (b.linkSteps actions) := b.link_run actions
  have hbalanced : l.Balanced ws := by
    rw [hrun]
    exact Link.balanced_run (Link.known_new bench) (Link.balanced_new bench) (b.linkSteps actions)
  exact ⟨hrun, hbalanced.framesWritten_eq, hbalanced.bytesWritten_eq, hbalanced.taken_eq,
    hbalanced.received_eq⟩

end Bridge

end SerialBridge
