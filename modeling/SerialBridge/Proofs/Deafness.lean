import SerialBridge.Proofs.Looks

/-! # What reading leaves behind

Reading leaves three things behind: what waits in the devices has been taken, unfinished lines are
held back, and lines have been counted.  A *deaf* link is one without all of them (`Link.deaf`).
Reading cannot be noticed in a deaf link (`deaf_readLines`), and everything else comes to the same
whether the link is deaf or not: each operation goes well or fails just as it would on the deaf
link, and leads from the deaf link to the deaf link.

What a bridge publishes goes on top of what was published before, and is not decided by it either.
So for bridges both things are left out at once: `Bridge.deafAfter` makes the link deaf and has
other envelopes published first.  Every function of a bridge that does not read commutes with it.
-/

namespace SerialBridge

/-- To change one entry and forget something of all entries, one can forget first. -/
theorem map_modify {α β : Type} {m : α → β} {f : α → α} {g : β → β} {l : List α} {k : Nat}
    (h : ∀ x, l[k]? = some x → m (f x) = g (m x)) :
    (l.modify k f).map m = (l.map m).modify k g := by
  refine List.ext_getElem? fun i => ?_
  simp only [List.getElem?_map, List.getElem?_modify]
  by_cases hk : k = i
  · subst hk
    cases hx : l[k]? with
    | none => rfl
    | some x => simpa using h x hx
  · simp [hk]

/-! ## Devices -/

/-- The device with nothing to say. -/
def Device.deaf (d : Device) : Device :=
  { d with input := [] }

/-- Devices with nothing to say. -/
def Bench.deaf (b : Bench) : Bench :=
  { b with devices := b.devices.map Device.deaf }

namespace Device

theorem faults_deaf (d : Device) : d.deaf.faults = d.faults := rfl

theorem deaf_nextWrite (d : Device) : d.deaf.nextWrite = (d.nextWrite.1.deaf, d.nextWrite.2) := by
  rw [nextWrite, nextWrite, faults_deaf]
  cases d.faults.script with
  | nil => cases d.faults.writeError <;> rfl
  | cons step rest => cases step <;> rfl

theorem deaf_writeLoop (n : Nat) (d : Device) (bytes : Bytes) :
    writeLoop n d.deaf bytes = ((writeLoop n d bytes).1.deaf, (writeLoop n d bytes).2) := by
  induction n generalizing d bytes with
  | zero => cases bytes <;> rfl
  | succ n ih =>
    cases bytes with
    | nil => rfl
    | cons x bytes =>
      rw [writeLoop, writeLoop, deaf_nextWrite]
      rcases d.nextWrite with ⟨d', e | most⟩
      · by_cases hinterrupted : e.kind = .interrupted
        · simp only [if_pos hinterrupted, ih]
        · simp only [if_neg hinterrupted]
      · rcases most with _ | _ | most
        · rfl
        · rfl
        · simp only [ih]

theorem deaf_writeAll (d : Device) (bytes : Bytes) :
    d.deaf.writeAll bytes = ((d.writeAll bytes).1.deaf, (d.writeAll bytes).2) := by
  rw [writeAll, writeAll, faults_deaf, deaf_writeLoop]
  rcases writeLoop (d.faults.script.length + bytes.length) d bytes with ⟨d', accepted, error⟩
  cases error <;> rfl

theorem deaf_clearInput (d : Device) : d.clearInput.deaf = d.deaf.clearInput := by
  rw [clearInput, clearInput, faults_deaf]
  split <;> rfl

end Device

namespace Bench

theorem deaf_deaf (b : Bench) : b.deaf.deaf = b.deaf := by
  simp [deaf, Device.deaf]

theorem deaf_modify {b : Bench} {k : Nat} {f g : Device → Device}
    (h : ∀ d, b.devices[k]? = some d → (f d).deaf = g d.deaf) :
    (b.modify k f).deaf = b.deaf.modify k g := by
  rw [modify, deaf, map_modify h]
  rfl

/-- What happens to the input of a device cannot be told. -/
theorem deaf_modify_of_input {b : Bench} {k : Nat} {f : Device → Device}
    (h : ∀ d, (f d).deaf = d.deaf) : (b.modify k f).deaf = b.deaf := by
  have hsame : (b.modify k f).deaf = b.deaf.modify k id := deaf_modify fun d _ => h d
  rw [hsame, modify, List.modify_id]

theorem deaf_plug (b : Bench) (path : String) (faults : Faults) :
    (b.plug path faults).deaf = b.deaf.plug path faults := by
  simp [plug, deaf, Device.deaf]

theorem deviceOf?_deaf (b : Bench) (path : String) : b.deaf.deviceOf? path = b.deviceOf? path := by
  simp only [deviceOf?, deaf, ← List.map_reverse, List.findIdx?_map, List.length_map]
  rfl

theorem deaf_attach (b : Bench) (path : String) : (b.attach path).deaf = b.deaf.attach path := by
  rw [attach, attach, deviceOf?_deaf]
  cases b.deviceOf? path with
  | none =>
    dsimp only
    rw [← deaf_plug]
    rfl
  | some device => rfl

/-- What the surroundings do comes to the same for a deaf link, except that they can give it
input. -/
theorem deaf_change (b : Bench) (c : Change) : (b.change c).deaf = (b.deaf.change c).deaf := by
  cases c with
  | plug path faults => rw [change, change, deaf_plug, deaf_plug, deaf_deaf]
  | unplug path => exact (b.unplug path).deaf_deaf.symm
  | attach path => rw [change, change, deaf_attach, deaf_attach, deaf_deaf]
  | detach path => exact (b.detach path).deaf_deaf.symm
  | configure device faults =>
    have same : ∀ b : Bench, (b.modify device fun d => { d with faults }).deaf =
        b.deaf.modify device fun d => { d with faults } :=
      fun b => deaf_modify fun _ _ => rfl
    rw [change, change, same, same, deaf_deaf]
  | feed device bytes =>
    have nothing : ∀ b : Bench, (b.feed device bytes).deaf = b.deaf :=
      fun b => deaf_modify_of_input fun _ => rfl
    rw [change, change, nothing, nothing, deaf_deaf]

theorem tryPaths_deaf (b : Bench) (baudRate : UInt32) (paths : List String) :
    b.deaf.tryPaths baudRate paths = b.tryPaths baudRate paths := by
  induction paths with
  | nil => rfl
  | cons path paths ih =>
    rw [tryPaths, tryPaths, ih]
    rfl

theorem probe_deaf (b : Bench) (candidates : List String) (baudRate : UInt32) :
    b.deaf.probe candidates baudRate = b.probe candidates baudRate := by
  rw [probe, probe, tryPaths_deaf]
  rfl

end Bench

/-! ## Links -/

/-- The handle with nothing held back. -/
def Handle.deaf (h : Handle) : Handle :=
  { h with lines := .empty }

/-- The totals with nothing read. -/
def Counters.deaf (c : Counters) : Counters :=
  { c with linesRead := 0 }

/-- The link with nothing read and nothing to read. -/
def Link.deaf (l : Link) : Link :=
  { l with
    bench := l.bench.deaf
    handles := l.handles.map Handle.deaf
    counters := l.counters.deaf }

namespace Link

@[simp] theorem deaf_deaf (l : Link) : l.deaf.deaf = l.deaf := by
  simp [deaf, Bench.deaf, Device.deaf, Handle.deaf, Counters.deaf]

theorem handle?_deaf (l : Link) (h : Nat) : l.deaf.handle? h = (l.handle? h).map Handle.deaf :=
  List.getElem?_map

theorem devices_deaf (l : Link) (d : Nat) :
    l.deaf.bench.devices[d]? = (l.bench.devices[d]?).map Device.deaf :=
  List.getElem?_map

theorem status_deaf (l : Link) : l.deaf.status = l.status := by
  have hpath : l.deaf.currentHandle? = l.currentHandle?.map Handle.deaf := by
    change l.current.bind l.deaf.handle? = _
    rw [currentHandle?]
    cases l.current with
    | none => rfl
    | some h => exact l.handle?_deaf h
  rw [status, status, hpath]
  cases l.currentHandle? <;> rfl

theorem deaf_clear (l : Link) : l.clear.deaf = l.deaf.clear := by
  cases hc : l.current with
  | none =>
    have hdeaf : l.deaf.current = none := hc
    rw [clear_of_none hc, clear_of_none hdeaf]
  | some h =>
    have hdeaf : l.deaf.current = some h := hc
    have hhandles : (l.handles.modify h fun handle => { handle with isOpen := false }).map
        Handle.deaf = l.deaf.handles.modify h fun handle => { handle with isOpen := false } :=
      map_modify fun _ _ => rfl
    rw [clear_of_some hc, clear_of_some hdeaf, ← hhandles]
    rfl

theorem deaf_withHandle (l : Link) (path : String) (device : Nat) :
    (l.withHandle path device).deaf = l.deaf.withHandle path device := by
  simp [withHandle, deaf, Handle.deaf, LineBuffer.empty]

theorem install_eq (l : Link) (path : String) (device : Nat) :
    l.install path device =
      let l := { l with bench := l.bench.modify device Device.clearInput }
      match (l.bench.devices[device]?).bind (·.faults.cloneError) with
      | some e => (l, .error (.ofIo e))
      | none => (l.withHandle path device, .ok path) := rfl

theorem deaf_install (l : Link) (path : String) (device : Nat) :
    l.deaf.install path device = ((l.install path device).1.deaf, (l.install path device).2) := by
  obtain ⟨cleared, hcleared⟩ : ∃ cleared : Link,
      cleared = { l with bench := l.bench.modify device Device.clearInput } := ⟨_, rfl⟩
  have hdeaf : { l.deaf with bench := l.deaf.bench.modify device Device.clearInput } =
      cleared.deaf := by
    have hbench : (l.bench.modify device Device.clearInput).deaf =
        l.deaf.bench.modify device Device.clearInput :=
      Bench.deaf_modify fun d _ => d.deaf_clearInput
    rw [hcleared, ← hbench]
    rfl
  have hclone : (cleared.deaf.bench.devices[device]?).bind (·.faults.cloneError) =
      (cleared.bench.devices[device]?).bind (·.faults.cloneError) := by
    rw [devices_deaf, Option.bind_map]
    rfl
  rw [install_eq, install_eq, hdeaf, ← hcleared]
  dsimp only
  rw [hclone]
  split
  · rfl
  · rw [deaf_withHandle]

theorem deaf_openFirst (l : Link) (candidates : List String) (baudRate : UInt32) :
    l.deaf.openFirst candidates baudRate =
      ((l.openFirst candidates baudRate).1.deaf, (l.openFirst candidates baudRate).2) := by
  have hprobe : l.deaf.bench.probe candidates baudRate = l.bench.probe candidates baudRate :=
    l.bench.probe_deaf candidates baudRate
  rw [openFirst, openFirst, hprobe]
  rcases l.bench.probe candidates baudRate with ⟨attempts, e | ⟨path, device⟩⟩
  · rfl
  · exact deaf_install { l with attempts := attempts.reverse ++ l.attempts } path device

theorem deaf_openPort (l : Link) (candidates : List String) (baudRate : UInt32) :
    l.deaf.openPort candidates baudRate =
      ((l.openPort candidates baudRate).1.deaf, (l.openPort candidates baudRate).2) := by
  rw [openPort, openPort, ← deaf_clear, deaf_openFirst]

theorem deaf_reconnect (l : Link) (candidates : List String) (baudRate : UInt32) :
    l.deaf.reconnect candidates baudRate =
      ((l.reconnect candidates baudRate).1.deaf, (l.reconnect candidates baudRate).2) := by
  rw [reconnect, reconnect, ← deaf_clear, deaf_openPort]

theorem deaf_writeOn (l : Link) (author : Author) (h : Nat) (frame : Frame) :
    l.deaf.writeOn author h frame =
      ((l.writeOn author h frame).1.deaf, (l.writeOn author h frame).2) := by
  rw [writeOn, writeOn, handle?_deaf]
  cases l.handle? h with
  | none => rfl
  | some handle =>
    dsimp only [Option.map_some, Handle.deaf]
    cases handle.isOpen with
    | false => rfl
    | true =>
      rw [devices_deaf]
      cases l.bench.devices[handle.device]? with
      | none => rfl
      | some device =>
        dsimp only [Option.map_some]
        rw [Device.deaf_writeAll]
        rcases device.writeAll frame.encode with ⟨device', written⟩
        have hbench : (l.bench.modify handle.device fun _ => device').deaf =
            l.deaf.bench.modify handle.device fun _ => device'.deaf :=
          Bench.deaf_modify fun _ _ => rfl
        dsimp only
        rw [← hbench]
        cases written.error <;> rfl

theorem deaf_write (l : Link) (frame : Frame) :
    l.deaf.write frame = ((l.write frame).1.deaf, (l.write frame).2) := by
  have hcurrent : l.deaf.current = l.current := rfl
  rw [write, write, hcurrent]
  cases l.current with
  | none => rfl
  | some h => exact l.deaf_writeOn .line h frame

/-! ## Reading cannot be noticed -/

theorem deaf_withoutInput (l : Link) (device n : Nat) :
    (l.withoutInput device n).deaf = l.deaf := by
  have hbench : (l.bench.modify device fun d => { d with input := d.input.drop n }).deaf =
      l.bench.deaf := Bench.deaf_modify_of_input fun _ => rfl
  rw [withoutInput, deaf, hbench]
  rfl

theorem deaf_takeInput (l : Link) (h : Nat) : (l.takeInput h).1.deaf = l.deaf := by
  rcases l.takeInput_cases h with ⟨e, heq⟩ | heq | ⟨handle, n, -, heq⟩ <;> rw [heq]
  exact l.deaf_withoutInput handle.device n

theorem deaf_setLines (l : Link) (h : Nat) (lines : LineBuffer) :
    (l.setLines h lines).deaf = l.deaf := by
  have hhandles : (l.handles.modify h fun handle => { handle with lines }).map Handle.deaf =
      (l.handles.map Handle.deaf).modify h id := map_modify fun _ _ => rfl
  rw [setLines, deaf, hhandles, List.modify_id]
  rfl

/-- **A read leaves nothing behind in a deaf link.** -/
theorem deaf_readLines (l : Link) (now h : Nat) : (l.readLines now h).1.deaf = l.deaf := by
  have htaken := l.deaf_takeInput h
  rw [readLines]
  revert htaken
  rcases l.takeInput h with ⟨l', e | bytes⟩ <;> intro htaken
  · exact htaken
  · cases bytes with
    | none => exact (l'.deaf_setLines h _).trans htaken
    | some bytes => exact (l'.deaf_setLines h _).trans htaken

/-- Every step of a link leads from the deaf link to the deaf link. -/
theorem deaf_step (l : Link) (s : Step) : (l.step s).deaf = (l.deaf.step s).deaf := by
  cases s with
  | surround change =>
    calc (l.step (.surround change)).deaf
      _ = { l.deaf with bench := (l.bench.change change).deaf } := rfl
      _ = { l.deaf.deaf with bench := (l.deaf.bench.change change).deaf } := by
        rw [Bench.deaf_change, deaf_deaf]
        rfl
  | clear => rw [step, step, ← deaf_clear, deaf_deaf]
  | openPort candidates baudRate => rw [step, step, deaf_openPort, deaf_deaf]
  | writeOn author h frame => rw [step, step, deaf_writeOn, deaf_deaf]
  | readLines now h => rw [step, step, deaf_readLines, deaf_readLines, deaf_deaf]
  | countLines n => exact (l.deaf_deaf).symm

end Link

/-! ## Bridges -/

namespace Bridge

/-- The bridge with a deaf link, and with other envelopes published before. -/
def deafAfter (b : Bridge) (earlier : List Envelope) : Bridge :=
  { b with link := b.link.deaf, published := b.published ++ earlier }

variable (b : Bridge) (earlier : List Envelope)

theorem settings_deafAfter : (b.deafAfter earlier).settings = b.settings := rfl

theorem engine_deafAfter : (b.deafAfter earlier).engine = b.engine := rfl

theorem current_deafAfter : (b.deafAfter earlier).link.current = b.link.current := rfl

theorem deafAfter_endUpload (u : Upload) (outcome : Outcome) :
    (b.endUpload u outcome).deafAfter earlier = (b.deafAfter earlier).endUpload u outcome := by
  rw [endUpload, endUpload]
  split <;> rfl

theorem deafAfter_stepUpload (u : Upload) (h : Nat) :
    (b.stepUpload u h).deafAfter earlier = (b.deafAfter earlier).stepUpload u h := by
  rw [stepUpload, stepUpload]
  split
  · exact b.deafAfter_endUpload earlier u _
  · cases u.pending with
    | nil => exact b.deafAfter_endUpload earlier u _
    | cons frame rest =>
      have hwrite : (b.deafAfter earlier).link.writeOn (.upload u.id) h frame =
          ((b.link.writeOn (.upload u.id) h frame).1.deaf,
            (b.link.writeOn (.upload u.id) h frame).2) := b.link.deaf_writeOn _ h frame
      dsimp only
      rw [hwrite]
      rcases b.link.writeOn (.upload u.id) h frame with ⟨link, reason | ⟨⟩⟩
      · exact deafAfter_endUpload { b with link } earlier u _
      · dsimp only
        split
        · rw [deafAfter_endUpload]
          rfl
        · rfl

theorem running?_deafAfter : (b.deafAfter earlier).running? = b.running? := rfl

theorem deafAfter_proceed : b.proceed.deafAfter earlier = (b.deafAfter earlier).proceed := by
  rw [proceed, proceed, running?_deafAfter]
  cases b.running? with
  | none => rfl
  | some running =>
    obtain ⟨u, h, due⟩ := running
    dsimp only
    split
    · rw [if_pos ‹_›]
      exact b.deafAfter_stepUpload earlier u h
    · rw [if_neg ‹_›]

theorem deafAfter_workFor (n time : Nat) :
    (workFor n time b).deafAfter earlier = workFor n time (b.deafAfter earlier) := by
  induction n generalizing b with
  | zero => rfl
  | succ n ih =>
    rw [workFor, workFor, running?_deafAfter]
    cases b.running? with
    | none => rfl
    | some running =>
      obtain ⟨u, h, due⟩ := running
      dsimp only
      split
      · rw [ih, deafAfter_stepUpload]
        rfl
      · rfl

theorem deafAfter_settle : b.settle.deafAfter earlier = (b.deafAfter earlier).settle :=
  b.deafAfter_workFor earlier _ _

theorem deafAfter_advance (ms : Nat) :
    (b.advance ms).deafAfter earlier = (b.deafAfter earlier).advance ms := by
  have hwork : (b.work (b.clock + ms)).deafAfter earlier =
      (b.deafAfter earlier).work (b.clock + ms) := b.deafAfter_workFor earlier _ _
  rw [advance, advance]
  change _ = { (b.deafAfter earlier).work (b.clock + ms) with clock := b.clock + ms }
  rw [← hwork]
  rfl

theorem deafAfter_tell (client : ClientId) (texts : List String) :
    (texts.foldl (·.tell client) b).deafAfter earlier =
      texts.foldl (·.tell client) (b.deafAfter earlier) := by
  induction texts generalizing b with
  | nil => rfl
  | cons text texts ih => exact ih (b.tell client text)

theorem deafAfter_launch (id : Nat) :
    (b.launch id).deafAfter earlier = (b.deafAfter earlier).launch id := by
  rw [launch, launch, engine_deafAfter]
  cases b.engine.active.filter fun u => u.id == id && u.stage == .claimed with
  | none => rfl
  | some u =>
    dsimp only
    rw [← deafAfter_tell]
    -- what was told before does not matter any more
    generalize (startTexts b.engine.settings u.plan).foldl (·.tell u.client) b = told
    rw [current_deafAfter]
    cases told.link.current with
    | none => exact told.deafAfter_endUpload earlier u _
    | some h => rfl

theorem deafAfter_start (id : Nat) :
    (b.start id).deafAfter earlier = (b.deafAfter earlier).start id := by
  rw [start, start, deafAfter_settle, deafAfter_launch]

theorem deafAfter_begin (client : ClientId) (payload : Bytes) (announced : Bool) :
    (b.deafAfter earlier).begin client payload announced =
      ((b.begin client payload announced).1.deafAfter earlier,
        (b.begin client payload announced).2) := rfl

theorem deafAfter_cancel :
    (b.deafAfter earlier).cancel = (b.cancel.1.deafAfter earlier, b.cancel.2) := by
  rw [cancel, cancel, engine_deafAfter]
  dsimp only
  rw [deafAfter_settle]
  rfl

theorem deafAfter_stop (id : Nat) :
    (b.stop id).deafAfter earlier = (b.deafAfter earlier).stop id :=
  deafAfter_settle _ earlier

/-! ## Requests -/

theorem deafAfter_connect (client : ClientId) :
    (b.connect client).deafAfter earlier = (b.deafAfter earlier).connect client := by
  have hstatus : (b.deafAfter earlier).link.status = b.link.status := b.link.status_deaf
  rw [connect, connect, hstatus]
  rfl

theorem deafAfter_sendLine (client : ClientId) (data : String) :
    (b.sendLine client data).deafAfter earlier = (b.deafAfter earlier).sendLine client data := by
  have hwrite : (b.deafAfter earlier).link.write (.ofInput data) =
      ((b.link.write (.ofInput data)).1.deaf, (b.link.write (.ofInput data)).2) :=
    b.link.deaf_write _
  rw [sendLine, sendLine, hwrite]
  split
  · rfl
  · rcases b.link.write (.ofInput data) with ⟨link, e | ⟨⟩⟩
    · cases e <;> rfl
    · rfl

theorem deafAfter_sendText (client : ClientId) (filename : Option String) (data : String) :
    (b.sendText client filename data).deafAfter earlier =
      (b.deafAfter earlier).sendText client filename data := by
  rw [sendText, sendText, deafAfter_begin]
  split
  · rfl
  · rcases b.begin client (Utf8.encode data) true with ⟨b', e | u⟩
    · cases e <;> rfl
    · cases u with
      | none => rfl
      | some u => exact deafAfter_start _ earlier u.id

theorem deafAfter_stopUpload (client : ClientId) :
    (b.stopUpload client).deafAfter earlier = (b.deafAfter earlier).stopUpload client := by
  rw [stopUpload, stopUpload, engine_deafAfter]
  rcases b.engine.cancel with ⟨engine, _ | _⟩
  · rfl
  · exact deafAfter_settle _ earlier

theorem deafAfter_reopen : b.reopen.deafAfter earlier = (b.deafAfter earlier).reopen := by
  have hreconnect :
      (b.deafAfter earlier).link.reconnect b.settings.candidates b.settings.baudRate =
        ((b.link.reconnect b.settings.candidates b.settings.baudRate).1.deaf,
          (b.link.reconnect b.settings.candidates b.settings.baudRate).2) :=
    b.link.deaf_reconnect _ _
  rw [reopen, reopen, settings_deafAfter, hreconnect]
  rcases b.link.reconnect b.settings.candidates b.settings.baudRate with ⟨link, result⟩
  dsimp only
  rw [link.status_deaf]
  rfl

theorem deafAfter_dispatch (client : ClientId) (request : Request) :
    (b.dispatch client request).deafAfter earlier =
      (b.deafAfter earlier).dispatch client request := by
  cases request with
  | sendCommand data => exact b.deafAfter_sendLine earlier client data
  | sendBulk filename data => exact b.deafAfter_sendText earlier client filename data
  | stopTransfer => exact b.deafAfter_stopUpload earlier client
  | reconnect => exact b.deafAfter_reopen earlier

/-! ## What is published stays published -/

/-- A function that goes by nothing that was published takes nothing of it back. -/
theorem published_of_deafAfter {f : Bridge → Bridge}
    (h : ∀ b earlier, (f b).deafAfter earlier = f (b.deafAfter earlier)) :
    ∃ new, (f b).published = new ++ b.published := by
  -- started with nothing published, the function says by itself what it adds
  have hstate := h { b with published := [] } b.published
  have hsame : deafAfter { b with published := [] } b.published = b.deafAfter [] := by
    rw [deafAfter, deafAfter, List.nil_append, List.append_nil]
  rw [hsame, ← h, deafAfter, deafAfter, List.append_nil] at hstate
  exact ⟨_, (congrArg published hstate).symm⟩

theorem published_act (a : Action) : ∃ new, (b.act a).published = new ++ b.published := by
  cases a with
  | link | begin | stop | drop | pass => exact ⟨[], rfl⟩
  | publish e => exact ⟨[e], rfl⟩
  | launch id => exact b.published_of_deafAfter fun b earlier => b.deafAfter_launch earlier id
  | proceed => exact b.published_of_deafAfter fun b earlier => b.deafAfter_proceed earlier

end Bridge

end SerialBridge
