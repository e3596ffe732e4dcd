import Mathlib.Algebra.GroupWithZero.Nat
import SerialBridge.Program
import SerialBridge.Proofs.Acknowledgments
import SerialBridge.Proofs.Pieces
import SerialBridge.Proofs.Tags

/-! # Typed texts on the wire

What is typed at the console passes through several hands before it is on the wire.  The console
drops the line breaks at its end and looks whether it is an action or a document; if it is neither,
what is left is requested to be sent; the frame for it has its tag split off, if it is a command,
and gets it back; and its breaks are dropped once more.

For a text that is plain, all this comes to nothing: whatever else is in it, the device gets the
bytes of the text and a line feed (`Frame.encode_ofInput`).  As long as the device takes what it is
given, lines that are typed one after another are on the wire one after another (`Bridge.Sent`,
`typed_lines_reach_wire`).
-/

namespace SerialBridge

/-! ## Plain texts -/

/-- The bytes of a text have the byte of a seven-bit character only if the text has the
character. -/
theorem Utf8.notMem_encode {a : Char} (ha : a.toNat < 128) {text : String}
    (h : a ∉ text.toList) : UInt8.ofNat a.toNat ∉ encode text := by
  intro hmem
  obtain ⟨c, hc, hbyte⟩ := List.mem_flatMap.mp hmem
  exact h ((mem_encodeChar_iff ha).mp hbyte ▸ hc)

namespace ConsoleInput

/-- What is left of a typed line without the breaks at its end. -/
def textOf (line : String) : String :=
  String.ofList (Text.dropEnd isBreak line.toList)

/-- The text has no line break in it. -/
def Unbroken (text : String) : Prop :=
  ∀ c ∈ text.toList, isBreak c = false

/-- The text is not blank, and no document, no action, and no more than one line. -/
def Plain (text : String) : Prop :=
  Text.isBlankText text = false ∧ text.toList.head? ≠ some '\x7b' ∧
    text.toList.head? ≠ some '/' ∧ Unbroken text

instance (text : String) : Decidable (Unbroken text) :=
  List.decidableBAll (fun c => isBreak c = false) text.toList

instance (text : String) : Decidable (Plain text) :=
  inferInstanceAs (Decidable (_ ∧ _))

theorem Plain.ne_empty {text : String} (h : Plain text) : text ≠ "" := by
  rintro rfl
  exact absurd h.1 (by decide)

/-- **A plain text is to be sent as it stands.** -/
theorem parse_of_plain {line : String} (h : Plain (textOf line)) :
    parse line = .ok (some (.request (.sendCommand (textOf line)))) := by
  obtain ⟨hblank, hdocument, haction, -⟩ := h
  rw [textOf, String.toList_ofList] at hdocument haction
  rw [textOf] at hblank ⊢
  rw [parse]
  dsimp only
  rw [hblank, if_neg Bool.false_ne_true]
  split
  · rename_i rest hchars
    rw [hchars] at hdocument
    exact absurd rfl hdocument
  · rename_i rest hchars
    rw [hchars] at haction
    exact absurd rfl haction
  · rfl

end ConsoleInput

namespace Frame

theorem firstLine_encode {text : String} (h : ConsoleInput.Unbroken text) :
    firstLine (Utf8.encode text) = Utf8.encode text := by
  have hlf : lineFeed ∉ Utf8.encode text :=
    Utf8.notMem_encode (a := '\n') (by decide) fun hmem => absurd (h _ hmem) (by decide)
  have hcr : carriageReturn ∉ Utf8.encode text :=
    Utf8.notMem_encode (a := '\r') (by decide) fun hmem => absurd (h _ hmem) (by decide)
  have htake : (Utf8.encode text).takeWhile (· != lineFeed) = Utf8.encode text :=
    List.takeWhile_eq_self_iff.mpr fun b hb => bne_iff_ne.mpr fun he => hlf (he ▸ hb)
  rw [firstLine, htake]
  exact List.filter_eq_self.mpr fun b hb => bne_iff_ne.mpr fun he => hcr (he ▸ hb)

/-- **A text of one line is that line on the wire**, also if it is a command. -/
theorem encode_ofInput {text : String} (h : ConsoleInput.Unbroken text) :
    (ofInput text).encode = Utf8.encode text ++ [lineFeed] := by
  rcases ofInput_cases text with ⟨rest, hrest, heq⟩ | ⟨-, heq⟩
  · have hunbroken : ConsoleInput.Unbroken (String.ofList rest) := by
      intro c hc
      rw [String.toList_ofList] at hc
      exact h c (hrest ▸ List.mem_append_right _ hc)
    have hsplit : Utf8.encode text = Utf8.encode commandTag ++ Utf8.encode (.ofList rest) := by
      rw [Utf8.encode, ← hrest, List.flatMap_append, Utf8.encode, Utf8.encode,
        String.toList_ofList]
    rw [heq, encode, line, firstLine_encode hunbroken, hsplit]
  · rw [heq, encode, line, firstLine_encode h]

end Frame

/-! ## Devices that take what they are given -/

/-- A device that takes everything but for interruptions takes everything. -/
theorem Device.writeAll_of_calm {d : Device} (hd : d.calm.faults.Accepting) (bytes : Bytes) :
    (d.writeAll bytes).2 = ⟨bytes, none⟩ ∧ (d.writeAll bytes).1.calm.faults.Accepting := by
  have hrelenting : d.faults.Relenting := fun e he =>
    absurd (he.symm.trans hd.writeError_none) (Option.some_ne_none e)
  have hwritten := writeAll_of_accepting hd bytes
  have hstays := accepting_writeAll hd bytes
  rw [calm_writeAll hrelenting] at hwritten hstays
  exact ⟨hwritten, hstays⟩

namespace Link

/-- The current link is open, and its device takes everything, maybe after interruptions. -/
structure Takes (l : Link) (d : Nat) : Prop where
  isOpen : ∃ h path, l.current = some h ∧ l.openAt h = true ∧ l.portOf h = some (path, d)
  calm : ∃ device, l.bench.devices[d]? = some device ∧ device.calm.faults.Accepting

/-- A frame was written to a device and nowhere else. -/
structure Wrote (before after : Link) (d : Nat) (frame : Frame) : Prop where
  received : after.receivedBy d = before.receivedBy d ++ frame.encode
  others : ∀ k, k ≠ d → after.receivedBy k = before.receivedBy k
  counters_eq : after.counters = countFrame before.counters frame

/-- **A frame for a device that takes everything** goes out, and the device goes on taking. -/
theorem write_of_takes {l : Link} {d : Nat} (hl : Takes l d) (frame : Frame) :
    (l.write frame).2 = .ok () ∧ Wrote l (l.write frame).1 d frame ∧
      Takes (l.write frame).1 d := by
  obtain ⟨h, path, hcurrent, hopen, hport⟩ := hl.isOpen
  obtain ⟨device, hdevice, hcalm⟩ := hl.calm
  obtain ⟨hwritten, hstays⟩ := Device.writeAll_of_calm hcalm frame.encode
  have hwrite : l.write frame = l.writeOn .line h frame := by rw [write, hcurrent]
  rw [hwrite]
  rcases l.writeOn_cases .line h frame with
    ⟨-, hnone⟩ | ⟨handle, device', hh, -, hdevice', hlink, hresult⟩
  · rw [hnone path d hopen hport] at hdevice
    cases hdevice
  rw [portOf_of_handle hh] at hport
  obtain ⟨rfl, rfl⟩ := Prod.mk.inj (Option.some_inj.mp hport)
  obtain rfl : device' = device := Option.some_inj.mp (hdevice'.symm.trans hdevice)
  rw [hwritten] at hlink hresult
  dsimp only at hlink hresult
  rw [hlink, hresult]
  refine ⟨rfl, ⟨?_, ?_, ?_⟩, ⟨h, handle.path, hcurrent, hopen, portOf_of_handle hh⟩, _, ?_, hstays⟩
  · exact l.receivedBy_withTransmission _ _
  · exact fun k hk => receivedBy_withTransmission_of_ne (Ne.symm hk) _
  · rw [withTransmission, if_pos rfl]
  · simp [withTransmission, Bench.modify, hdevice]

end Link

namespace Bridge

/-! ## Lines one after another -/

/-- Sends some texts for a client, in order. -/
def sendAll (b : Bridge) (client : ClientId) (texts : List String) : Bridge :=
  texts.foldl (fun b text => b.dispatch client (.sendCommand text)) b

theorem sendAll_cons (b : Bridge) (client : ClientId) (text : String) (texts : List String) :
    b.sendAll client (text :: texts) =
      (b.dispatch client (.sendCommand text)).sendAll client texts :=
  rfl

/-- Some texts were sent to a device: it has their lines, everyone was shown them, and they are
counted.  Nothing else was received, published or counted. -/
structure Sent (before after : Bridge) (d : Nat) (texts : List String) : Prop where
  received : after.link.receivedBy d =
    before.link.receivedBy d ++ texts.flatMap fun text => Utf8.encode text ++ [lineFeed]
  others : ∀ k, k ≠ d → after.link.receivedBy k = before.link.receivedBy k
  published_eq : after.published =
    (texts.map fun text => .broadcast (.log ("> " ++ text))).reverse ++ before.published
  counters_eq : after.link.counters =
    { before.link.counters with
      framesWritten := before.link.counters.framesWritten + UInt64.ofNat texts.length
      bytesWritten := before.link.counters.bytesWritten +
        UInt64.ofNat ((texts.map String.utf8ByteSize).sum + texts.length) }

theorem sent_nil (b : Bridge) (d : Nat) : Sent b b d [] where
  received := (List.append_nil _).symm
  others := fun _ _ => rfl
  published_eq := rfl
  counters_eq := by simp

theorem Sent.trans {b b' b'' : Bridge} {d : Nat} {first later : List String}
    (h : Sent b b' d first) (h' : Sent b' b'' d later) : Sent b b'' d (first ++ later) where
  received := by rw [h'.received, h.received, List.flatMap_append, List.append_assoc]
  others := fun k hk => (h'.others k hk).trans (h.others k hk)
  published_eq := by
    rw [h'.published_eq, h.published_eq, List.map_append, List.reverse_append, List.append_assoc]
  counters_eq := by
    rw [h'.counters_eq, h.counters_eq, List.length_append, List.map_append, List.sum_append,
      Nat.add_add_add_comm]
    simp only [UInt64.ofNat_add, UInt64.add_assoc]

/-- Sending a text sends just that text, and the device goes on taking. -/
theorem sent_sendCommand {b : Bridge} {d : Nat} (hb : b.link.Takes d) (client : ClientId)
    {text : String} (htext : ConsoleInput.Plain text) :
    Sent b (b.dispatch client (.sendCommand text)) d [text] ∧
      (b.dispatch client (.sendCommand text)).link.Takes d := by
  obtain ⟨hok, hwrote, htakes⟩ := Link.write_of_takes hb (.ofInput text)
  have hline := Frame.encode_ofInput htext.2.2.2
  have hsent : b.dispatch client (.sendCommand text) =
      { b with link := (b.link.write (.ofInput text)).1 }.announce ("> " ++ text) := by
    change b.sendLine client text = _
    rw [sendLine_eq b client htext.ne_empty, hok]
    rfl
  rw [hsent]
  refine ⟨⟨?_, hwrote.others, rfl, ?_⟩, htakes⟩
  · rw [List.flatMap_singleton, ← hline]
    exact hwrote.received
  · refine hwrote.counters_eq.trans ?_
    rw [Link.countFrame, hline, List.length_append, Utf8.length_encode, List.map_singleton,
      List.sum_singleton]
    rfl

/-- **Texts that are sent in order arrive in order.** -/
theorem sent_sendAll {b : Bridge} {d : Nat} (hb : b.link.Takes d) (client : ClientId)
    {texts : List String} (htexts : ∀ text ∈ texts, ConsoleInput.Plain text) :
    Sent b (b.sendAll client texts) d texts := by
  induction texts generalizing b with
  | nil => exact b.sent_nil d
  | cons text texts ih =>
    rw [List.forall_mem_cons] at htexts
    obtain ⟨hsent, htakes⟩ := sent_sendCommand hb client htexts.1
    rw [sendAll_cons]
    exact hsent.trans (ih htakes htexts.2)

end Bridge

namespace Program

/-! ## At the console -/

/-- Takes some typed lines, in order. -/
def typeAll (read : FileReader) (p : Program) (lines : List String) : Program :=
  lines.foldl (fun p line => (p.typeLine read (Utf8.encode line)).1) p

theorem typeAll_cons (read : FileReader) (p : Program) (line : String) (lines : List String) :
    p.typeAll read (line :: lines) =
      (p.typeLine read (Utf8.encode line)).1.typeAll read lines :=
  rfl

/-- A plain line that is typed is requested to be sent for the console. -/
theorem typeLine_of_plain (read : FileReader) (b : Bridge) (console : ClientId) {line : String}
    (hline : ConsoleInput.Plain (ConsoleInput.textOf line)) :
    (typeLine read { bridge := b, console } (Utf8.encode line)).1 =
      { bridge := b.dispatch console (.sendCommand (ConsoleInput.textOf line)), console } := by
  have hrunning : ¬ ({ bridge := b, console } : Program).exit.isSome = true := Bool.false_ne_true
  rw [typeLine, if_neg hrunning, Utf8.decode?_encode]
  dsimp only
  rw [ConsoleInput.parse_of_plain hline]
  rfl

theorem typeAll_of_plain (read : FileReader) (b : Bridge) (console : ClientId)
    {lines : List String} (hlines : ∀ line ∈ lines, ConsoleInput.Plain (ConsoleInput.textOf line)) :
    typeAll read { bridge := b, console } lines =
      { bridge := b.sendAll console (lines.map ConsoleInput.textOf), console } := by
  induction lines generalizing b with
  | nil => rfl
  | cons line lines ih =>
    rw [List.forall_mem_cons] at hlines
    rw [typeAll_cons, typeLine_of_plain read b console hlines.1, ih _ hlines.2, List.map_cons,
      Bridge.sendAll_cons]

/-- **Typed lines reach the wire as they are.**  Each line is requested to be sent, without the
breaks at its end and with everything else.  The device gets these texts in order, each with a line
feed behind it; they are shown to everyone and counted, and nothing else is; and typing them at the
console comes to the same. -/
theorem typed_lines_reach_wire (read : FileReader) (b : Bridge) (client : ClientId) (d : Nat)
    (lines : List String) (hlines : ∀ line ∈ lines, ConsoleInput.Plain (ConsoleInput.textOf line))
    (hlink : b.link.Takes d) :
    let texts := lines.map ConsoleInput.textOf
    (∀ line ∈ lines, ConsoleInput.parse line =
      .ok (some (.request (.sendCommand (ConsoleInput.textOf line))))) ∧
    b.Sent (b.sendAll client texts) d texts ∧
    (typeAll read { bridge := b, console := client } lines).bridge = b.sendAll client texts := by
  intro texts
  refine ⟨fun line hline => ConsoleInput.parse_of_plain (hlines line hline), ?_, ?_⟩
  · refine Bridge.sent_sendAll hlink client fun text htext => ?_
    obtain ⟨line, hline, rfl⟩ := List.mem_map.mp htext
    exact hlines line hline
  · rw [typeAll_of_plain read b client hlines]

/-- A device takes two bytes at a time, and is interrupted. -/
def slowBench : Bench where
  devices := [{ path := "p", faults := { script := [.take 2, .fail (.system 4), .take 1] } }]
  plugged := [("p", 0)]

/-- A tag in the middle of a line, a tag and nothing else, and a break at the end. -/
theorem typed_lines_reach_slow_device :
    let b : Bridge := { link := ({ bench := slowBench } : Link).run [.openPort ["p"] 0] }
    let lines := [" x CMD: ", "CMD:", "é\r\n"]
    let p := typeAll (fun _ => .error (.system 2)) { bridge := b, console := ⟨7⟩ } lines
    (∀ line ∈ lines, ConsoleInput.Plain (ConsoleInput.textOf line)) ∧ b.link.Takes 0 ∧
      p.bridge.link.receivedBy 0 = Utf8.encode " x CMD: \nCMD:\né\n" ∧
      b.toldSince p.bridge = [.broadcast (.log ">  x CMD: "), .broadcast (.log "> CMD:"),
        .broadcast (.log "> é")] ∧
      p.bridge.link.counters = { framesWritten := 3, bytesWritten := 17 } := by
  intro b lines p
  have hlines : ∀ line ∈ lines, ConsoleInput.Plain (ConsoleInput.textOf line) := by decide
  have hscript : ∀ step ∈ [WriteStep.take 2, .take 1], ∃ most, step = .take (most + 1) :=
    List.forall_mem_cons.mpr ⟨⟨1, rfl⟩, List.forall_mem_singleton.mpr ⟨0, rfl⟩⟩
  have hlink : b.link.Takes 0 :=
    ⟨⟨0, "p", rfl, rfl, rfl⟩, _, rfl, ⟨hscript, rfl, rfl, nofun⟩⟩
  obtain ⟨-, hsent, hbridge⟩ := typed_lines_reach_wire (fun _ => .error (.system 2)) b ⟨7⟩ 0 lines
    hlines hlink
  have hp : p.bridge = _ := hbridge
  rw [hp]
  refine ⟨hlines, hlink, ?_, ?_, ?_⟩
  · rw [hsent.received]
    decide
  · rw [Bridge.toldSince_of_published hsent.published_eq]
    decide
  · rw [hsent.counters_eq]
    decide

end Program

end SerialBridge
