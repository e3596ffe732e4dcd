import SerialBridge.Frame
import SerialBridge.Proofs.Escaping
import SerialBridge.Text.Lines

/-! # Frames as lines

A frame is one line: its encoding ends with the only line feed in it.  So the lines of
several frames written one after another are the frames again, and a device that drops
the tags of an upload's lines and unescapes what is left reads the bodies back
(`payloadOf_encodings`).

The bodies have to be free of carriage returns, which are not sent, and of the three
bytes of the placeholder (`unescape_escape`).
-/

namespace SerialBridge

/-! ## Encodings -/

theorem Utf8.length_encode (text : String) : (Utf8.encode text).length = text.utf8ByteSize := by
  rw [← String.size_toByteArray, ← String.utf8Encode_toList, List.utf8Encode,
    List.size_toByteArray, Utf8.encode]

namespace Frame

/-- The payload a frame carries. -/
def body : Frame → Bytes
  | .command text | .message text => Utf8.encode text
  | .chunk body | .blob body => body

/-- The frame belongs to an upload. -/
def OfUpload : Frame → Prop
  | .command _ | .message _ => False
  | .chunk _ | .blob _ => True

theorem length_body (f : Frame) : f.body.length = f.payloadLength := by
  cases f with
  | command text | message text => exact Utf8.length_encode text
  | chunk body | blob body => rfl

theorem lineFeed_notMem_firstLine (bytes : Bytes) : lineFeed ∉ firstLine bytes := by
  intro h
  have hne := List.all_eq_true.mp List.all_takeWhile lineFeed (List.mem_filter.mp h).1
  exact absurd hne (by decide)

theorem carriageReturn_notMem_firstLine (bytes : Bytes) : carriageReturn ∉ firstLine bytes := by
  intro h
  exact absurd (List.mem_filter.mp h).2 (by decide)

/-- A byte that is in no tag, and that neither a line as typed nor an escaped body keeps, is in no
frame's line. -/
theorem notMem_line {x : UInt8}
    (htags : x ∉ Utf8.encode commandTag ++ Utf8.encode chunkTag ++ Utf8.encode blobTag)
    (hfirst : ∀ bytes, x ∉ firstLine bytes) (hescape : ∀ body, x ∉ escape body) (f : Frame) :
    x ∉ f.line := by
  simp only [List.mem_append, not_or] at htags
  obtain ⟨⟨hcommand, hchunk⟩, hblob⟩ := htags
  have tagged : ∀ {tag rest : Bytes}, x ∉ tag → x ∉ rest → x ∉ tag ++ rest :=
    fun htag hrest h => (List.mem_append.mp h).elim htag hrest
  cases f with
  | command text => exact tagged hcommand (hfirst _)
  | message text => exact hfirst _
  | chunk body => exact tagged hchunk (hescape _)
  | blob body => exact tagged hblob (hescape _)

/-- A frame has no line feed before its terminator. -/
theorem lineFeed_notMem_line (f : Frame) : lineFeed ∉ f.line :=
  notMem_line (by decide) lineFeed_notMem_firstLine lineFeed_notMem_escape f

theorem carriageReturn_notMem_line (f : Frame) : carriageReturn ∉ f.line :=
  notMem_line (by decide) carriageReturn_notMem_firstLine carriageReturn_notMem_escape f

theorem encode_ne_nil (f : Frame) : f.encode ≠ [] :=
  List.concat_ne_nil _ _

theorem getLast?_encode (f : Frame) : f.encode.getLast? = some lineFeed :=
  List.getLast?_concat

/-- What ends with a line feed and is the front of an encoding is all of it. -/
theorem eq_encode_of_prefix {f : Frame} {p : Bytes} (hp : p <+: f.encode)
    (hlast : p.getLast? = some lineFeed) : p = f.encode := by
  rcases List.prefix_concat_iff.mp hp with h | h
  · exact h
  · exact absurd (h.subset (List.mem_of_getLast? hlast)) f.lineFeed_notMem_line

end Frame

/-! ## Reading lines back -/

/-- Cutting at a mark takes off the part before it. -/
theorem splitAt_append_mark [BEq α] [LawfulBEq α] {mark : α} {part : List α} (h : mark ∉ part)
    (rest : List α) :
    Text.splitAt mark (part ++ mark :: rest) = part :: Text.splitAt mark rest := by
  induction part with
  | nil => simp [Text.splitAt]
  | cons x part ih =>
    obtain ⟨hx, hpart⟩ := List.ne_and_not_mem_of_not_mem_cons h
    have hmark : ¬ (x == mark) = true := fun he => hx (beq_iff_eq.mp he).symm
    simp only [List.cons_append, Text.splitAt, if_neg hmark, ih hpart]

/-- The lines of what was received, each without its terminator. -/
def linesOf (received : Bytes) : List Bytes :=
  (Text.splitAt lineFeed received).dropLast

/-- A line without the tag of an upload's frame. -/
def untag (line : Bytes) : Bytes :=
  match (Utf8.encode Frame.chunkTag).isPrefixOf? line with
  | some body => body
  | none => ((Utf8.encode Frame.blobTag).isPrefixOf? line).getD line

/-- The payload a device puts together from what it received of an upload: the body of
each line in turn, its line feeds read back. -/
def payloadOf (received : Bytes) : Bytes :=
  (linesOf received).flatMap fun line => unescape (untag line)

theorem splitAt_ne_nil (mark : UInt8) (bytes : Bytes) : Text.splitAt mark bytes ≠ [] := by
  cases bytes with
  | nil => exact List.cons_ne_nil _ _
  | cons b rest =>
    rw [Text.splitAt]
    split
    · exact List.cons_ne_nil _ _
    · split <;> exact List.cons_ne_nil _ _

/-- The lines of frames written one after another are the frames. -/
theorem linesOf_encodings (frames : List Frame) :
    linesOf (frames.flatMap Frame.encode) = frames.map Frame.line := by
  induction frames with
  | nil => rfl
  | cons f frames ih =>
    rw [linesOf, List.flatMap_cons, Frame.encode, List.append_assoc, List.singleton_append,
      splitAt_append_mark f.lineFeed_notMem_line, List.dropLast_cons_of_ne_nil (splitAt_ne_nil _ _),
      List.map_cons]
    exact congrArg (f.line :: ·) ih

theorem untag_line {f : Frame} (h : f.OfUpload) : untag f.line = escape f.body := by
  cases f with
  | command text | message text => exact h.elim
  | chunk body | blob body => rfl

/-- **A device reads the bodies back** from the lines of an upload's frames. -/
theorem payloadOf_encodings {frames : List Frame} (hof : ∀ f ∈ frames, f.OfUpload)
    (hcr : ∀ f ∈ frames, carriageReturn ∉ f.body)
    (hmark : ∀ f ∈ frames, ¬ placeholder <:+: f.body) :
    payloadOf (frames.flatMap Frame.encode) = frames.flatMap Frame.body := by
  have back : ∀ f ∈ frames, unescape (untag f.line) = f.body := by
    intro f hf
    rw [untag_line (hof f hf), unescape_escape (hcr f hf) (hmark f hf)]
  rw [payloadOf, linesOf_encodings, List.flatMap_map, List.flatMap_def, List.flatMap_def,
    List.map_congr_left back]

end SerialBridge
