import SerialBridge.Proofs.Framing
import SerialBridge.Proofs.LinkRuns

/-! # Lines on the wire

A frame that was written goes out in one piece, behind everything that went out through its
handle before (`sentThrough_writeOn`).  It is a line of its own there only if what went
before it ends with a line feed.  That can fail: a device may take a part of a frame and
then fail, which leaves the link open and half a line on the wire, and the next frame
continues it.

Nothing else can spoil a line.  A frame has one line feed, its last byte; so what was sent
ends with a line feed, or is nothing, exactly when the last write that moved any byte moved
a whole frame (`atLineStart_iff`).
-/

namespace SerialBridge

/-- What is received next begins a line: nothing was received, or a line feed last. -/
def AtLineStart (received : Bytes) : Prop :=
  received = [] ∨ received.getLast? = some lineFeed

instance (received : Bytes) : Decidable (AtLineStart received) :=
  inferInstanceAs (Decidable (_ ∨ _))

/-- Whether the device took any byte of the frame. -/
def Transmission.moved (t : Transmission) : Bool :=
  !t.accepted.isEmpty

namespace Link

/-- What was sent by some transmissions, which are given most recent first. -/
def sentBy (ts : List Transmission) : Bytes :=
  ts.reverse.flatMap (·.accepted)

/-- What the device behind a handle took of the frames written through the handle. -/
def sentThrough (l : Link) (h : Nat) : Bytes :=
  sentBy (l.transmissions.filter (·.handle == h))

/-- What the device of a number took, through whatever handles. -/
def receivedBy (l : Link) (device : Nat) : Bytes :=
  sentBy (l.transmissions.filter (·.device == device))

/-- The last transmission through a handle of which the device took a byte. -/
def lastTaken? (l : Link) (h : Nat) : Option Transmission :=
  (l.transmissions.filter (·.handle == h)).find? Transmission.moved

theorem sentBy_cons (t : Transmission) (ts : List Transmission) :
    sentBy (t :: ts) = sentBy ts ++ t.accepted := by
  rw [sentBy, List.reverse_cons, List.flatMap_append, List.flatMap_singleton, sentBy]

/-- Transmissions that took nothing leave the wire as it was, and the last of the others
decides where it stands. -/
theorem atLineStart_sentBy_iff {ts : List Transmission}
    (hts : ∀ t ∈ ts, t.accepted <+: t.frame.encode) :
    AtLineStart (sentBy ts) ↔
      ∀ t, ts.find? Transmission.moved = some t → t.accepted = t.frame.encode := by
  induction ts with
  | nil => exact iff_of_true (.inl rfl) fun _ h => nomatch h
  | cons t ts ih =>
    have hrest := ih fun t' ht' => hts t' (List.mem_cons_of_mem t ht')
    rw [sentBy_cons]
    by_cases hnil : t.accepted = []
    -- the last transmission moved nothing: the ones before it decide
    · rw [hnil, List.append_nil, hrest, List.find?_cons_of_neg (by simp [Transmission.moved, hnil])]
    · have hend : (sentBy ts ++ t.accepted).getLast? = t.accepted.getLast? := by
        rw [List.getLast?_append, List.getLast?_eq_some_getLast hnil, Option.some_or]
      rw [List.find?_cons_of_pos (by simp [Transmission.moved, hnil]), AtLineStart, hend]
      constructor
      · rintro (hempty | hlast) t' ht'
        · exact absurd (List.append_eq_nil_iff.mp hempty).2 hnil
        · cases ht'
          exact Frame.eq_encode_of_prefix (hts t List.mem_cons_self) hlast
      · intro h
        rw [h t rfl]
        exact .inr t.frame.getLast?_encode

/-- The wire of a handle stands at the start of a line exactly when the last write through
the handle that moved any byte moved a whole frame. -/
theorem atLineStart_iff {l : Link} (hl : Sound l) (h : Nat) :
    AtLineStart (l.sentThrough h) ↔
      ∀ t, l.lastTaken? h = some t → t.accepted = t.frame.encode :=
  atLineStart_sentBy_iff fun t ht => (hl.accepted_sound t (List.mem_filter.mp ht).1).accepted_front

/-- A transmission adds what was taken to the wire of its handle. -/
theorem sentThrough_withTransmission (l : Link) (t : Transmission) (device : Device) :
    (l.withTransmission t device).sentThrough t.handle = l.sentThrough t.handle ++ t.accepted := by
  change sentBy ((t :: l.transmissions).filter (·.handle == t.handle)) = _
  rw [List.filter_cons_of_pos (by simp), sentBy_cons, sentThrough]

theorem sentThrough_withTransmission_of_ne {l : Link} {t : Transmission} {h : Nat}
    (hne : t.handle ≠ h) (device : Device) :
    (l.withTransmission t device).sentThrough h = l.sentThrough h := by
  change sentBy ((t :: l.transmissions).filter (·.handle == h)) = _
  rw [List.filter_cons_of_neg (by simpa using hne), sentThrough]

theorem receivedBy_withTransmission (l : Link) (t : Transmission) (device : Device) :
    (l.withTransmission t device).receivedBy t.device = l.receivedBy t.device ++ t.accepted := by
  change sentBy ((t :: l.transmissions).filter (·.device == t.device)) = _
  rw [List.filter_cons_of_pos (by simp), sentBy_cons, receivedBy]

theorem receivedBy_withTransmission_of_ne {l : Link} {t : Transmission} {d : Nat}
    (hne : t.device ≠ d) (device : Device) :
    (l.withTransmission t device).receivedBy d = l.receivedBy d := by
  change sentBy ((t :: l.transmissions).filter (·.device == d)) = _
  rw [List.filter_cons_of_neg (by simpa using hne), receivedBy]

/-- A frame whose write succeeds goes out whole and in one piece. -/
theorem sentThrough_writeOn {l : Link} {author : Author} {h : Nat} {frame : Frame}
    (hok : (l.writeOn author h frame).2 = .ok ()) :
    (l.writeOn author h frame).1.sentThrough h = l.sentThrough h ++ frame.encode := by
  rcases l.writeOn_cases author h frame with ⟨heq, -⟩ | ⟨handle, device, -, -, -, hlink, hresult⟩
  · rw [heq] at hok
    cases hok
  · have hnone : (device.writeAll frame.encode).2.error = none := by
      rw [hresult] at hok
      split at hok
      · cases hok
      · assumption
    have hsent := l.sentThrough_withTransmission
      ⟨h, handle.device, author, frame, (device.writeAll frame.encode).2.accepted,
        (device.writeAll frame.encode).2.error⟩ (device.writeAll frame.encode).1
    rw [hlink, hsent, (device.writeAll_sound frame.encode).accepted_eq hnone]

/-- **When a written frame is a line of its own.**  In every run, a frame whose write
succeeds goes out in one piece, and it begins a line exactly when the last write before it
that moved any byte through the handle moved a whole frame. -/
theorem frame_begins_line_iff (bench : Bench) (steps : List Step) (author : Author) (h : Nat)
    (frame : Frame) :
    let l := ({ bench } : Link).run steps
    (l.writeOn author h frame).2 = .ok () →
      (l.writeOn author h frame).1.sentThrough h = l.sentThrough h ++ frame.encode ∧
        (AtLineStart (l.sentThrough h) ↔
          ∀ t, l.lastTaken? h = some t → t.accepted = t.frame.encode) := by
  intro l hok
  exact ⟨sentThrough_writeOn hok, atLineStart_iff (sound_run (sound_new bench) steps) h⟩

/-- A device takes two bytes of a line and then fails. -/
def tornBench : Bench :=
  { devices := [{ path := "p", faults := { script := [.take 2, .fail (.system 5)] } }]
    plugged := [("p", 0)] }

/-- The port is opened, and the line is written. -/
def tornSteps : List Step :=
  [.openPort ["p"] 0, .writeOn .line 0 (.message "abc")]

/-- The next line succeeds, and continues the half line. -/
theorem frame_begins_line_torn :
    let l := ({ bench := tornBench } : Link).run tornSteps
    (l.writeOn .line 0 (.message "d")).2 = .ok () ∧
      (l.writeOn .line 0 (.message "d")).1.sentThrough 0 = [0x61, 0x62, 0x64, lineFeed] :=
  ⟨rfl, (frame_begins_line_iff tornBench tornSteps .line 0 (.message "d") rfl).1⟩

/-- Frames do not always keep a line of their own. -/
theorem frame_continues_half_line :
    ¬ ∀ (bench : Bench) (steps : List Step) (author : Author) (h : Nat) (frame : Frame),
      let l := ({ bench } : Link).run steps
      (l.writeOn author h frame).2 = .ok () → AtLineStart (l.sentThrough h) := by
  intro hkept
  exact absurd (hkept tornBench tornSteps .line 0 (.message "d") rfl) (by decide)

end Link

end SerialBridge
