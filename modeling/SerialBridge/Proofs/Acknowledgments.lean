import SerialBridge.Proofs.FailedWrites
import SerialBridge.Proofs.Remarks
import SerialBridge.Proofs.Standing
import SerialBridge.Proofs.Stopping

/-! # How requests are acknowledged

Three kinds of requests are dealt with and acknowledged at once.  What clients are told of them is
what happened.

* A line is shown to everyone exactly if the device of the current link took its whole frame and
  flushed it (`Link.Took`), and then it is in the totals.  Otherwise its sender alone is told, and
  the totals are as they were (`lineAnswered`).
* Everyone is told how a reopening went, and how the link stands after it, which is the same
  (`reopeningAnswered`).
* Whoever asks an upload to stop is told that it was asked, if there is one.  If it runs, it ends
  thereupon, and tells so to its own client, whoever that is (`stopAnswered`).

None of this depends on how the state came about, nor on what the device does
(`requests_are_acknowledged`).
-/

namespace SerialBridge

namespace Link

/-! ## Frames taken -/

/-- Between two states, the device of the current link took the whole of a frame and flushed it. -/
def Took (before after : Link) (frame : Frame) : Prop :=
  ∃ h path d faults, before.current = some h ∧ before.openAt h = true ∧
    before.portOf h = some (path, d) ∧
    after.receivedBy d = before.receivedBy d ++ frame.encode ∧
    before.bench.faultsOf d = some faults ∧ faults.flushError = none

theorem write_eq_ok_iff (l : Link) (frame : Frame) :
    (l.write frame).2 = .ok () ↔ Took l (l.write frame).1 frame :=
  l.writeBy_eq_ok_iff .current frame

theorem counters_of_write_ok {l : Link} {frame : Frame} (hok : (l.write frame).2 = .ok ()) :
    (l.write frame).1.counters = countFrame l.counters frame := by
  rcases l.writeBy_cases .current frame with heq | ⟨t, device, rfl, hgiven⟩
  · rw [← writeBy, heq] at hok
    cases hok
  · have hnone : t.error = none := by
      have hresult := hgiven.result_eq
      cases herror : t.error with
      | none => rfl
      | some e =>
        rw [herror, writeBy, hok] at hresult
        cases hresult
    have hlink : (l.write t.frame).1 = _ := hgiven.link_eq
    rw [hlink, withTransmission, if_pos hnone]

end Link

namespace Bridge

/-! ## Lines -/

/-- The words in which a line is refused. -/
def refusalText : LinkError → String
  | .closed => "Error: Serial port not open"
  | e => "Error sending command: " ++ e.message

/-- What is published of a line once it is known what came of it. -/
def lineEnvelope (client : ClientId) (data : String) : Except LinkError Unit → Envelope
  | .ok () => .broadcast (.log ("> " ++ data))
  | .error e => .reply client (.log (refusalText e))

/-- Sending a line is writing its frame, and publishing what came of it. -/
theorem sendLine_eq (b : Bridge) (client : ClientId) {data : String} (hdata : data ≠ "") :
    b.sendLine client data =
      { b with link := (b.link.write (.ofInput data)).1 }.publish
        (lineEnvelope client data (b.link.write (.ofInput data)).2) := by
  have hempty : ¬ data.isEmpty = true := fun h => hdata (String.isEmpty_iff.mp h)
  rw [sendLine, if_neg hempty]
  rcases b.link.write (.ofInput data) with ⟨link, e | ⟨⟩⟩
  · cases e <;> rfl
  · rfl

theorem toldSince_sendLine (b : Bridge) (client : ClientId) {data : String} (hdata : data ≠ "") :
    b.toldSince (b.sendLine client data) =
      [lineEnvelope client data (b.link.write (.ofInput data)).2] := by
  rw [sendLine_eq b client hdata]
  exact toldSince_foldl_publish rfl [_]

/-- How a line of a client was answered. -/
structure LineAnswered (before after : Bridge) (client : ClientId) (data : String) : Prop where
  /-- It is shown to everyone exactly if the device took it. -/
  shown_iff : before.toldSince after = [.broadcast (.log ("> " ++ data))] ↔
    Link.Took before.link after.link (.ofInput data)
  /-- If it is shown, it is counted. -/
  counted : Link.Took before.link after.link (.ofInput data) →
    after.link.counters = Link.countFrame before.link.counters (.ofInput data)
  /-- Otherwise its sender is told that it is refused, and it is not counted. -/
  refused : ¬ Link.Took before.link after.link (.ofInput data) →
    (∃ e, (before.link.write (.ofInput data)).2 = .error e ∧
      before.toldSince after = [.reply client (.log (refusalText e))]) ∧
    after.link.counters = before.link.counters

theorem lineAnswered (b : Bridge) (client : ClientId) {data : String} (hdata : data ≠ "") :
    LineAnswered b (b.sendLine client data) client data := by
  have htold := b.toldSince_sendLine client hdata
  have hlink : (b.sendLine client data).link = (b.link.write (.ofInput data)).1 := by
    rw [sendLine_eq b client hdata]
    rfl
  have htook := b.link.write_eq_ok_iff (.ofInput data)
  rw [← hlink] at htook
  constructor
  case shown_iff =>
    rw [← htook, htold]
    cases hresult : (b.link.write (.ofInput data)).2 with
    | ok => exact iff_of_true rfl rfl
    | error e => exact iff_of_false nofun nofun
  case counted =>
    intro hyes
    rw [hlink]
    exact Link.counters_of_write_ok (htook.mpr hyes)
  case refused =>
    intro hnot
    cases hresult : (b.link.write (.ofInput data)).2 with
    | ok => exact absurd (htook.mp hresult) hnot
    | error e =>
      have hfailed : (b.link.writeBy .current (.ofInput data)).2 = .error e := hresult
      refine ⟨⟨e, rfl, ?_⟩, ?_⟩
      · rw [htold, hresult, lineEnvelope]
      · rw [hlink]
        exact (Link.unharmed_of_failed hfailed).1.counters

/-! ## Reopening -/

/-- The words that say how a reopening went. -/
def reopeningText : Except LinkError String → String
  | .ok path => "Reconnected to " ++ path
  | .error e => "Failed to connect: " ++ e.message

/-- Reopening is opening the link anew, and publishing how that went and how the link stands. -/
theorem reopen_eq (b : Bridge) :
    let reopened := b.link.reconnect b.settings.candidates b.settings.baudRate
    b.reopen = [.broadcast (.log (reopeningText reopened.2)),
      .broadcast (.link reopened.1.status)].foldl publish { b with link := reopened.1 } := by
  rw [reopen]
  rcases b.link.reconnect b.settings.candidates b.settings.baudRate with ⟨link, e | path⟩ <;> rfl

/-- How a reopening was answered. -/
structure ReopeningAnswered (before after : Bridge) (result : Except LinkError String) :
    Prop where
  /-- Everyone is told how it went, and how the link stands after it. -/
  told_eq : before.toldSince after =
    [.broadcast (.log (reopeningText result)), .broadcast (.link after.link.status)]
  /-- It went as the link stands. -/
  result_ok_iff : ∀ path, result = .ok path ↔ after.link.status = .opened path
  /-- What is told says the same. -/
  says_opened_iff : ∀ path,
    reopeningText result = "Reconnected to " ++ path ↔ after.link.status = .opened path

theorem reopeningText_eq_iff (result : Except LinkError String) (path : String) :
    reopeningText result = "Reconnected to " ++ path ↔ result = .ok path := by
  cases result with
  | ok opened =>
    rw [Except.ok.injEq]
    exact String.append_right_inj _
  | error e =>
    refine iff_of_false (fun hsame => ?_) nofun
    -- the two differ in their first character
    have hfailed : "Failed to connect: ".toList.head? = some 'F' := by decide
    have hreopened : "Reconnected to ".toList.head? = some 'R' := by decide
    change "Failed to connect: " ++ e.message = "Reconnected to " ++ path at hsame
    have hfirst := congrArg (fun s : String => s.toList.head?) hsame
    simp only [String.toList_append, List.head?_append, hfailed, hreopened,
      Option.some_or] at hfirst
    exact absurd (Option.some_inj.mp hfirst) (by decide)

theorem reopeningAnswered (b : Bridge) :
    ReopeningAnswered b b.reopen
      (b.link.reconnect b.settings.candidates b.settings.baudRate).2 := by
  have hlink : b.reopen.link =
    (b.link.reconnect b.settings.candidates b.settings.baudRate).1 := rfl
  have hiff := b.link.clear.openPort_eq_ok_iff b.settings.candidates b.settings.baudRate
  rw [← Link.reconnect, ← hlink] at hiff
  refine ⟨?_, hiff, fun path => (reopeningText_eq_iff _ path).trans (hiff path)⟩
  rw [hlink, reopen_eq]
  exact toldSince_foldl_publish rfl _

/-! ## Asking an upload to stop -/

/-- What an upload that is asked to stop says at once: that it was stopped, if it runs and speaks
to its client at all. -/
def farewell (u : Upload) : List Envelope :=
  match u.stage with
  | .claimed => []
  | .running .. =>
    if u.announced then
      [(Remark.stopped u.framesSent u.plan.frames.length).envelope u.client]
    else []

/-- Asks the upload that holds the engine to stop, and tells a client so. -/
def askToStop (b : Bridge) (u : Upload) (client : ClientId) : Bridge :=
  (b.act (.stop u.id)).tell client "Stopping transmission..."

/-- How a request to stop was answered. -/
structure StopAnswered (before after : Bridge) (client : ClientId) : Prop where
  /-- Without an upload, nothing is told and nothing happens. -/
  idle : before.engine.active = none → after = before
  /-- Otherwise the client is told that the upload is asked.  What follows the upload does, and it
  speaks for itself. -/
  live : ∀ u, before.engine.active = some u →
    before.toldSince (before.askToStop u client) =
        [.reply client (.log "Stopping transmission...")] ∧
      after = (before.askToStop u client).settle ∧
      (before.askToStop u client).toldSince after = farewell u

/-- What an upload that was asked to stop says when it gets its turn. -/
theorem toldSince_settle_askToStop {b : Bridge} {u : Upload} (hactive : b.engine.active = some u)
    (client : ClientId) :
    (b.askToStop u client).toldSince (b.askToStop u client).settle = farewell u := by
  have hasked : (b.askToStop u client).engine.active = some { u with stopped := true } := by
    change (b.engine.active.map _) = _
    rw [hactive, Option.map_some, if_pos rfl]
  cases hstage : u.stage with
  | claimed =>
    rw [settle_of_not_started hasked hstage, farewell, hstage]
    exact toldSince_foldl_publish rfl []
  | running h due =>
    rw [settle_eq_endUpload hasked hstage rfl, farewell, hstage, endUpload]
    cases u.announced with
    | false => exact toldSince_foldl_publish rfl []
    | true => exact toldSince_foldl_publish rfl [_]

theorem stopAnswered (b : Bridge) (client : ClientId) :
    StopAnswered b (b.stopUpload client) client := by
  constructor
  case idle =>
    intro hnone
    rw [stopUpload, Engine.cancel, hnone]
  case live =>
    intro u hactive
    have hsettle : b.stopUpload client = (b.askToStop u client).settle := by
      rw [stopUpload, Engine.cancel, hactive]
      rfl
    refine ⟨toldSince_foldl_publish rfl [_], hsettle, ?_⟩
    rw [hsettle, toldSince_settle_askToStop hactive]

/-! ## Requests -/

/-- **Acknowledgments are true**, in every state and whatever the device does: a line is shown to
everyone exactly if it went out, and its sender is told if it did not; what is told of a reopening
is how the link stands; and who asks an upload to stop is told so, and nobody else. -/
theorem requests_are_acknowledged (b : Bridge) (client : ClientId) :
    (∀ data, data ≠ "" →
      LineAnswered b (b.dispatch client (.sendCommand data)) client data) ∧
    ReopeningAnswered b (b.dispatch client .reconnect)
      (b.link.reconnect b.settings.candidates b.settings.baudRate).2 ∧
    StopAnswered b (b.dispatch client .stopTransfer) client :=
  ⟨fun _ hdata => b.lineAnswered client hdata, b.reopeningAnswered, b.stopAnswered client⟩

/-- A line of which the device takes a part is refused, and the next one is shown. -/
theorem torn_line_is_refused :
    let b : Bridge := { link := ({ bench := Link.tornBench } : Link).run [.openPort ["p"] 0] }
    let torn := b.dispatch ⟨7⟩ (.sendCommand "abc")
    let whole := torn.dispatch ⟨7⟩ (.sendCommand "abc")
    "abc" ≠ "" ∧
      b.toldSince torn = [.reply ⟨7⟩ (.log
        "Error sending command: Serial I/O error: Input/output error (os error 5)")] ∧
      torn.link.counters = b.link.counters ∧
      torn.toldSince whole = [.broadcast (.log "> abc")] ∧
      Link.Took torn.link whole.link (.ofInput "abc") ∧
      whole.link.counters = { framesWritten := 1, bytesWritten := 4 } := by
  intro b torn whole
  have hdata : "abc" ≠ "" := by decide
  have hrefused := (requests_are_acknowledged b ⟨7⟩).1 "abc" hdata
  have hshown := (requests_are_acknowledged torn ⟨7⟩).1 "abc" hdata
  have htorn : b.toldSince torn ≠ [.broadcast (.log "> abc")] := by decide
  have htold : torn.toldSince whole = [.broadcast (.log "> abc")] := by decide
  have htook := hshown.shown_iff.mp htold
  exact ⟨hdata, by decide, (hrefused.refused fun h => htorn (hrefused.shown_iff.mpr h)).2, htold,
    htook, (hshown.counted htook).trans (by decide)⟩

end Bridge

end SerialBridge
