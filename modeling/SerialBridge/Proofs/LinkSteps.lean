import SerialBridge.Link
import SerialBridge.Proofs.Writing

/-! # What each operation does to a link

Three views of a link say what later statements need of it: whether a handle is open
(`openAt`), the port behind a handle (`portOf`), and how a device behaves
(`Bench.faultsOf`).  This module goes through the operations once.  For each it says what
the operation can come to (`openFirst_cases`, `writeOn_cases`, `readLines_cases`), and what
that does to the views; nothing after it looks into an operation again.
-/

namespace SerialBridge

namespace Bench

/-- How the device of a number behaves. -/
def faultsOf (b : Bench) (device : Nat) : Option Faults :=
  (b.devices[device]?).map (·.faults)

theorem faultsOf_modify {b : Bench} {k : Nat} {f : Device → Device}
    (hf : ∀ dev, b.devices[k]? = some dev → (f dev).faults = dev.faults) (d : Nat) :
    (b.modify k f).faultsOf d = b.faultsOf d := by
  simp only [faultsOf, modify, List.getElem?_modify]
  by_cases hk : k = d
  · subst hk
    cases hd : b.devices[k]? with
    | none => rfl
    | some dev => simpa using hf dev hd
  · simp [hk]

theorem faultsOf_modify_of_ne {b : Bench} {k d : Nat} (h : k ≠ d) (f : Device → Device) :
    (b.modify k f).faultsOf d = b.faultsOf d := by
  simp only [faultsOf, modify, List.getElem?_modify_ne f b.devices h]

theorem faultsOf_modify_self {b : Bench} {d : Nat} {dev : Device} (h : b.devices[d]? = some dev)
    (f : Device → Device) : (b.modify d f).faultsOf d = some (f dev).faults := by
  simp [faultsOf, modify, h]

end Bench

theorem Device.read_faults (d : Device) (most : Nat) : (d.read most).1.faults = d.faults := by
  rw [read]
  split <;> rfl

namespace Link

/-- Whether the handle of a number is open. -/
def openAt (l : Link) (h : Nat) : Bool :=
  (l.handle? h).any (·.isOpen)

/-- The path and the device behind the handle of a number. -/
def portOf (l : Link) (h : Nat) : Option (String × Nat) :=
  (l.handle? h).map fun handle => (handle.path, handle.device)

theorem openAt_of_handle {l : Link} {h : Nat} {handle : Handle} (hh : l.handle? h = some handle) :
    l.openAt h = handle.isOpen := by
  rw [openAt, hh, Option.any_some]

theorem portOf_of_handle {l : Link} {h : Nat} {handle : Handle} (hh : l.handle? h = some handle) :
    l.portOf h = some (handle.path, handle.device) := by
  rw [portOf, hh, Option.map_some]

theorem exists_handle_of_openAt {l : Link} {h : Nat} (ho : l.openAt h = true) :
    ∃ handle, l.handle? h = some handle ∧ handle.isOpen = true := by
  cases hh : l.handle? h with
  | none => rw [openAt, hh] at ho; cases ho
  | some handle => exact ⟨handle, rfl, by rwa [openAt_of_handle hh] at ho⟩

theorem exists_handle_of_portOf {l : Link} {h : Nat} {port : String × Nat}
    (hp : l.portOf h = some port) :
    ∃ handle, l.handle? h = some handle ∧ (handle.path, handle.device) = port :=
  Option.map_eq_some_iff.mp hp

/-! ## Dropping the link -/

theorem clear_of_none {l : Link} (h : l.current = none) : l.clear = l := by
  rw [clear, h]

theorem clear_of_some {l : Link} {k : Nat} (h : l.current = some k) :
    l.clear = { l with
      current := none
      handles := l.handles.modify k fun handle => { handle with isOpen := false } } := by
  rw [clear, h]

/-- Dropping the link changes its handles and nothing else. -/
theorem clear_eq (l : Link) : l.clear = { l with current := none, handles := l.clear.handles } := by
  cases h : l.current with
  | none => rw [clear_of_none h, ← h]
  | some k => rw [clear_of_some h]

theorem clear_current (l : Link) : l.clear.current = none := by
  rw [clear_eq]

theorem clear_bench (l : Link) : l.clear.bench = l.bench := by
  rw [clear_eq]

theorem clear_lastPath (l : Link) : l.clear.lastPath = l.lastPath := by
  rw [clear_eq]

theorem clear_counters (l : Link) : l.clear.counters = l.counters := by
  rw [clear_eq]

theorem clear_attempts (l : Link) : l.clear.attempts = l.attempts := by
  rw [clear_eq]

theorem clear_transmissions (l : Link) : l.clear.transmissions = l.transmissions := by
  rw [clear_eq]

/-- Dropping the link closes the current handle and no other. -/
theorem openAt_clear (l : Link) (h : Nat) :
    l.clear.openAt h = (l.openAt h && l.current != some h) := by
  cases hc : l.current with
  | none => simp [clear_of_none hc]
  | some k =>
    rw [clear_of_some hc]
    simp only [openAt, handle?, List.getElem?_modify]
    by_cases hk : k = h
    · subst hk
      cases l.handles[k]? <;> simp
    · simp [hk]

theorem portOf_clear (l : Link) (h : Nat) : l.clear.portOf h = l.portOf h := by
  cases hc : l.current with
  | none => rw [clear_of_none hc]
  | some k =>
    rw [clear_of_some hc]
    simp only [portOf, handle?, List.getElem?_modify]
    by_cases hk : k = h
    · subst hk
      cases l.handles[k]? <;> simp
    · simp [hk]

/-! ## Opening a link -/

/-- The link with one more handle, which is the current one. -/
def withHandle (l : Link) (path : String) (device : Nat) : Link :=
  { l with
    handles := l.handles ++ [{ path, device }]
    current := some l.handles.length
    lastPath := some path }

/-- An attempt to open a link finds no port, or finds one that gives no channel for
reading, or makes a new handle current.  A device that was found has its input dropped. -/
theorem openFirst_cases (l : Link) (candidates : List String) (baudRate : UInt32) :
    (∃ attempts lastPath e, l.openFirst candidates baudRate =
      ({ l with attempts, lastPath }, .error e)) ∨
    (∃ attempts device e, l.openFirst candidates baudRate =
      ({ l with attempts, bench := l.bench.modify device Device.clearInput }, .error e)) ∨
    (∃ attempts path device, l.openFirst candidates baudRate =
      ({ l with attempts, bench := l.bench.modify device Device.clearInput }.withHandle path device,
        .ok path)) := by
  rw [openFirst]
  rcases l.bench.probe candidates baudRate with ⟨attempts, found⟩
  cases found with
  | error e => exact .inl ⟨_, _, e, rfl⟩
  | ok hit =>
    obtain ⟨path, device⟩ := hit
    dsimp only
    rw [install]
    dsimp only
    split
    · exact .inr (.inl ⟨_, _, _, rfl⟩)
    · exact .inr (.inr ⟨_, _, _, rfl⟩)

theorem openAt_withHandle (l : Link) (path : String) (device h : Nat) :
    (l.withHandle path device).openAt h = (l.openAt h || h == l.handles.length) := by
  rcases Nat.lt_trichotomy h l.handles.length with hlt | rfl | hgt
  · simp [openAt, handle?, withHandle, List.getElem?_append_left hlt, Nat.ne_of_lt hlt]
  · simp [openAt, handle?, withHandle]
  · have hold : l.handles[h]? = none := List.getElem?_eq_none (Nat.le_of_lt hgt)
    have hnew : (l.withHandle path device).handles[h]? = none :=
      List.getElem?_eq_none (by simp [withHandle]; omega)
    simp [openAt, handle?, hold, hnew, Nat.ne_of_gt hgt]

theorem portOf_withHandle {l : Link} {h : Nat} {port : String × Nat} (hp : l.portOf h = some port)
    (path : String) (device : Nat) : (l.withHandle path device).portOf h = some port := by
  obtain ⟨handle, hh, rfl⟩ := exists_handle_of_portOf hp
  have hlt : h < l.handles.length := (List.getElem?_eq_some_iff.mp hh).1
  apply portOf_of_handle
  rw [handle?, withHandle, List.getElem?_append_left hlt]
  exact hh

/-! ## Writing -/

/-- The link after a device took what it took of a frame. -/
def withTransmission (l : Link) (t : Transmission) (device : Device) : Link :=
  { l with
    bench := l.bench.modify t.device fun _ => device
    transmissions := t :: l.transmissions
    counters := if t.error = none then countFrame l.counters t.frame else l.counters }

/-- A write through a handle is refused and changes nothing, or the handle is open and its
device is given the frame; then the result says whether the device took all of it. -/
theorem writeOn_cases (l : Link) (author : Author) (h : Nat) (frame : Frame) :
    (l.writeOn author h frame = (l, .error .closed) ∧
      ∀ path device, l.openAt h = true → l.portOf h = some (path, device) →
        l.bench.devices[device]? = none) ∨
    ∃ handle device, l.handle? h = some handle ∧ handle.isOpen = true ∧
      l.bench.devices[handle.device]? = some device ∧
      let written := (device.writeAll frame.encode).2
      let t : Transmission := ⟨h, handle.device, author, frame, written.accepted, written.error⟩
      (l.writeOn author h frame).1 = l.withTransmission t (device.writeAll frame.encode).1 ∧
        (l.writeOn author h frame).2 =
          match written.error with
          | some e => .error (.ofIo e)
          | none => .ok () := by
  rw [writeOn]
  cases hh : l.handle? h with
  | none =>
    refine .inl ⟨rfl, fun path device ho _ => ?_⟩
    rw [openAt, hh] at ho
    cases ho
  | some handle =>
    dsimp only
    cases ho : handle.isOpen with
    | false =>
      refine .inl ⟨rfl, fun path device hopen _ => ?_⟩
      rw [openAt_of_handle hh, ho] at hopen
      cases hopen
    | true =>
      rw [Bool.not_true, if_neg Bool.false_ne_true]
      cases hd : l.bench.devices[handle.device]? with
      | none =>
        refine .inl ⟨rfl, fun path device _ hp => ?_⟩
        rw [portOf_of_handle hh] at hp
        cases hp
        exact hd
      | some device =>
        refine .inr ⟨handle, device, rfl, ho, hd, ?_⟩
        dsimp only
        rcases device.writeAll frame.encode with ⟨device', accepted, error⟩
        cases error <;> exact ⟨rfl, rfl⟩

/-! ## Reading -/

/-- A read through a handle changes no more than how its device goes on and which line of
it is unfinished. -/
theorem readLines_cases (l : Link) (now h : Nat) :
    ∃ bench handles, (l.readLines now h).1 = { l with bench, handles } ∧
      (∀ d, bench.faultsOf d = l.bench.faultsOf d) ∧
      (handles = l.handles ∨
        ∃ lines, handles = l.handles.modify h fun handle => { handle with lines }) := by
  have taken : ∃ bench, (l.takeInput h).1 = { l with bench } ∧
      ∀ d, bench.faultsOf d = l.bench.faultsOf d := by
    rw [takeInput]
    split
    · exact ⟨l.bench, rfl, fun _ => rfl⟩
    · rename_i handle _
      split
      · exact ⟨l.bench, rfl, fun _ => rfl⟩
      · rename_i device hd
        split
        · exact ⟨l.bench, rfl, fun _ => rfl⟩
        · exact ⟨l.bench, rfl, fun _ => rfl⟩
        · rename_i waiting _ _
          have hf := device.read_faults (min waiting readSize)
          rcases hread : device.read (min waiting readSize) with ⟨device', result⟩
          rw [hread] at hf
          refine ⟨l.bench.modify handle.device fun _ => device', ?_, ?_⟩
          · cases result <;> rfl
          · refine Bench.faultsOf_modify fun dev hdev => ?_
            rw [hd] at hdev
            cases hdev
            exact hf
  obtain ⟨bench, htaken, hf⟩ := taken
  rw [readLines]
  rcases hr : l.takeInput h with ⟨l', result⟩
  rw [hr] at htaken
  subst htaken
  cases result with
  | error e => exact ⟨bench, l.handles, rfl, hf, .inl rfl⟩
  | ok bytes =>
    cases bytes with
    | none => exact ⟨bench, _, rfl, hf, .inr ⟨_, rfl⟩⟩
    | some bytes => exact ⟨bench, _, rfl, hf, .inr ⟨_, rfl⟩⟩

theorem openAt_readLines (l : Link) (now h k : Nat) :
    (l.readLines now h).1.openAt k = l.openAt k := by
  obtain ⟨bench, handles, heq, -, hhandles⟩ := l.readLines_cases now h
  rw [heq]
  rcases hhandles with rfl | ⟨lines, rfl⟩
  · rfl
  · simp only [openAt, handle?, List.getElem?_modify]
    by_cases hk : h = k
    · subst hk
      cases l.handles[h]? <;> simp
    · simp [hk]

theorem portOf_readLines (l : Link) (now h k : Nat) :
    (l.readLines now h).1.portOf k = l.portOf k := by
  obtain ⟨bench, handles, heq, -, hhandles⟩ := l.readLines_cases now h
  rw [heq]
  rcases hhandles with rfl | ⟨lines, rfl⟩
  · rfl
  · simp only [portOf, handle?, List.getElem?_modify]
    by_cases hk : h = k
    · subst hk
      cases l.handles[h]? <;> simp
    · simp [hk]

end Link

end SerialBridge
