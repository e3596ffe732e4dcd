import Mathlib.Data.List.Basic
import Mathlib.Data.List.TakeWhile
import SerialBridge.Proofs.Characters
import SerialBridge.Proofs.Delivery
import SerialBridge.Proofs.Sessions

/-! # Telling frames apart

A device knows what a line is for by its tag: `CMD:` stands before a command, `FILE:` and
`FILEB:` before the body of an upload, and a line without a tag is a message.  The frames of
an upload always have their tags, and a typed line that begins with `CMD:` is a command.
Everything else that is typed goes out as a message, with its carriage returns left out.  So
a message has a tag on the wire exactly when the typed text has it once its carriage returns
are gone, and is not a command (`Poses`): a text may begin with the tag of an upload as it is,
and a tag may come about where it was broken by carriage returns when it was looked for.

These are the only messages that are not told apart (`tellsApart_iff`).  The tags are seven-bit
characters, and no byte of another character looks like one, so what holds of the characters
of a text holds of its bytes (`prefix_flatMap_iff`).

On the wire, a frame with the tag of an upload comes from the upload that holds the engine, or
it is a typed text that poses (`Labelled`).  If a device takes every frame whole, its lines
are those of the frames (`linesOf_receivedBy`); if it does not, a tag may come about from
parts of two lines (`torn_line_has_tag`).
-/

namespace SerialBridge

/-! ## Tags of typed texts -/

namespace Frame

/-- The tags that stand before a line on the wire. -/
def tags : List String := [commandTag, chunkTag, blobTag]

/-- The line has the tag of an upload's frame. -/
def IsUploadLine (line : Bytes) : Prop :=
  Utf8.encode chunkTag <+: line ∨ Utf8.encode blobTag <+: line

instance (line : Bytes) : Decidable (IsUploadLine line) :=
  inferInstanceAs (Decidable (_ ∨ _))

/-- The frame is a command. -/
def IsCommand : Frame → Prop
  | .command _ => True
  | .message _ | .chunk _ | .blob _ => False

/-- A text that is no command begins with a tag once its carriage returns are gone. -/
def Poses (tag text : String) : Prop :=
  tag.toList <+: text.toList.filter (· != '\r') ∧ ¬ commandTag.toList <+: text.toList

instance (tag text : String) : Decidable (Poses tag text) :=
  inferInstanceAs (Decidable (_ ∧ _))

/-- The line that a typed text becomes shows what the text was taken for. -/
structure TellsApart (text : String) : Prop where
  not_upload : ¬ IsUploadLine (ofInput text).line
  command_iff : Utf8.encode commandTag <+: (ofInput text).line ↔ (ofInput text).IsCommand

/-- Nothing that stands in the first line of some bytes is lost when they are cut. -/
theorem prefix_firstLine_iff {p bytes : Bytes} (hlf : lineFeed ∉ p) :
    p <+: firstLine bytes ↔ p <+: bytes.filter (· != carriageReturn) := by
  -- a carriage return does not end the line, so the two can be left out in either order
  have hsame : firstLine bytes =
      (bytes.filter (· != carriageReturn)).takeWhile (· != lineFeed) := by
    rw [List.takeWhile_filter, firstLine]
    congr 2
    funext b
    by_cases hb : b = carriageReturn
    · rw [hb]
      rfl
    · have hkept : (b != carriageReturn) = true := bne_iff_ne.mpr hb
      rw [hkept, Bool.not_true, Bool.false_or]
  rw [hsame]
  constructor
  · exact fun h => h.trans (List.takeWhile_prefix _)
  · rintro ⟨rest, hrest⟩
    rw [← hrest, List.takeWhile_append_of_pos]
    · exact List.prefix_append _ _
    · exact fun b hb => bne_iff_ne.mpr fun he => hlf (he ▸ hb)

theorem ofInput_cases (text : String) :
    (∃ rest, commandTag.toList ++ rest = text.toList ∧
      ofInput text = .command (String.ofList rest)) ∨
    (¬ commandTag.toList <+: text.toList ∧ ofInput text = .message text) := by
  rw [ofInput]
  cases hprefix : commandTag.toList.isPrefixOf? text.toList with
  | some rest => exact .inl ⟨rest, List.isPrefixOf?_eq_some_iff_append_eq.mp hprefix, rfl⟩
  | none =>
    refine .inr ⟨?_, rfl⟩
    rintro ⟨rest, hrest⟩
    rw [List.isPrefixOf?_eq_some_iff_append_eq.mpr hrest] at hprefix
    cases hprefix

/-- A typed text is a command exactly if it begins with the tag as it is. -/
theorem isCommand_ofInput_iff (text : String) :
    (ofInput text).IsCommand ↔ commandTag.toList <+: text.toList := by
  rcases ofInput_cases text with ⟨rest, hrest, heq⟩ | ⟨hnot, heq⟩ <;> rw [heq]
  · exact iff_of_true trivial ⟨rest, hrest⟩
  · exact iff_of_false id hnot

/-- A line with the tag of a command has no other tag. -/
theorem tag_prefix_command_iff {tag : String} (htag : tag ∈ tags) (rest : Bytes) :
    Utf8.encode tag <+: Utf8.encode commandTag ++ rest ↔ tag = commandTag := by
  simp only [tags, List.mem_cons, List.not_mem_nil, or_false] at htag
  have hfirst : ∀ b p, b ≠ 0x43 → ¬ b :: p <+: Utf8.encode commandTag ++ rest :=
    fun b p hb h => hb (List.cons_prefix_cons.mp h).1
  rcases htag with rfl | rfl | rfl
  · exact iff_of_true (List.prefix_append _ _) rfl
  · exact iff_of_false (hfirst 0x46 _ (by decide)) (by decide)
  · exact iff_of_false (hfirst 0x46 _ (by decide)) (by decide)

/-- **The tag on the line of a typed text**: a text that poses has it, and a command its
own. -/
theorem tag_prefix_line_iff {tag : String} (htag : tag ∈ tags) (text : String) :
    Utf8.encode tag <+: (ofInput text).line ↔
      Poses tag text ∨ (tag = commandTag ∧ (ofInput text).IsCommand) := by
  rcases ofInput_cases text with ⟨rest, hrest, heq⟩ | ⟨hnot, heq⟩ <;> rw [heq]
  · have hcommand : commandTag.toList <+: text.toList := ⟨rest, hrest⟩
    rw [line, tag_prefix_command_iff htag]
    exact ⟨fun h => .inr ⟨h, trivial⟩, fun h => h.elim (fun h => absurd hcommand h.2) And.left⟩
  · have hlf : ∀ tag ∈ tags, lineFeed ∉ Utf8.encode tag := by decide
    have hseven : ∀ tag ∈ tags, ∀ c ∈ tag.toList, c.toNat < 128 := by
      simp [tags, commandTag, chunkTag, blobTag]
    rw [line, prefix_firstLine_iff (hlf tag htag), Utf8.encode, Utf8.encode, Utf8.filter_flatMap,
      Utf8.prefix_flatMap_iff (hseven tag htag)]
    exact ⟨fun h => .inl ⟨h, hnot⟩, fun h => h.elim And.left fun h => h.2.elim⟩

theorem isUploadLine_ofInput_iff (text : String) :
    IsUploadLine (ofInput text).line ↔ Poses chunkTag text ∨ Poses blobTag text := by
  have other : ∀ tag ∈ tags, tag ≠ commandTag →
      (Utf8.encode tag <+: (ofInput text).line ↔ Poses tag text) := by
    intro tag htag hne
    rw [tag_prefix_line_iff htag]
    exact or_iff_left fun h => hne h.1
  exact or_congr (other chunkTag (by decide) (by decide)) (other blobTag (by decide) (by decide))

/-- **Which typed texts are told apart**: those that do not pose. -/
theorem tellsApart_iff (text : String) : TellsApart text ↔ ∀ tag ∈ tags, ¬ Poses tag text := by
  have hcommand := tag_prefix_line_iff (List.mem_cons_self : commandTag ∈ tags) text
  have hposes : (∀ tag ∈ tags, ¬ Poses tag text) ↔
      ¬ Poses commandTag text ∧ ¬ (Poses chunkTag text ∨ Poses blobTag text) := by
    rw [tags, List.forall_mem_cons, List.forall_mem_cons, List.forall_mem_singleton, not_or]
  rw [hposes]
  constructor
  · intro h
    refine ⟨fun hp => ?_, fun hp => h.not_upload ((isUploadLine_ofInput_iff text).mpr hp)⟩
    have htaken := h.command_iff.mp (hcommand.mpr (.inl hp))
    exact hp.2 ((isCommand_ofInput_iff text).mp htaken)
  · rintro ⟨hnone, hupload⟩
    refine ⟨fun hline => hupload ((isUploadLine_ofInput_iff text).mp hline), ?_⟩
    rw [hcommand]
    exact ⟨fun h => h.elim (fun hp => absurd hp hnone) And.right, fun h => .inr ⟨rfl, h⟩⟩

example : ¬ TellsApart "FI\rLEB:x" :=
  fun h => absurd ((tellsApart_iff _).mp h blobTag (by decide)) (by decide)

theorem isUploadLine_of_ofUpload {f : Frame} (hf : f.OfUpload) : IsUploadLine f.line := by
  cases f with
  | command | message => exact hf.elim
  | chunk body => exact .inl (List.prefix_append _ _)
  | blob body => exact .inr (List.prefix_append _ _)

end Frame

/-! ## Lines of a device -/

/-- The frame was written for a client, from a text that poses as a line of an upload. -/
def Transmission.PosesAsUpload (t : Transmission) : Prop :=
  t.author = .line ∧ ∃ text, t.frame = .ofInput text ∧
    (Frame.Poses Frame.chunkTag text ∨ Frame.Poses Frame.blobTag text)

/-- The frame is one that its author writes. -/
inductive Transmission.Fits (t : Transmission) : Prop where
  | upload (id : Nat) (hauthor : t.author = .upload id) (hof : t.frame.OfUpload)
  | line (text : String) (hauthor : t.author = .line) (hframe : t.frame = .ofInput text)

namespace Transmission

theorem not_upload_of_line {t : Transmission} (h : t.author = .line) :
    ¬ ∃ id, t.author = .upload id := by
  rintro ⟨id, hid⟩
  rw [h] at hid
  cases hid

/-- A frame of an upload has its tag, and a typed one has it if its text poses. -/
theorem Fits.isUploadLine_iff {t : Transmission} (ht : t.Fits) :
    Frame.IsUploadLine t.frame.line ↔ (∃ id, t.author = .upload id) ∨ t.PosesAsUpload := by
  cases ht with
  | upload id hauthor hof =>
    exact iff_of_true (Frame.isUploadLine_of_ofUpload hof) (.inl ⟨id, hauthor⟩)
  | line text hauthor hframe =>
    rw [or_iff_right (not_upload_of_line hauthor)]
    constructor
    · intro htagged
      rw [hframe, Frame.isUploadLine_ofInput_iff] at htagged
      exact ⟨hauthor, text, hframe, htagged⟩
    · rintro ⟨-, text', hframe', hposes⟩
      rw [hframe', Frame.isUploadLine_ofInput_iff]
      exact hposes

end Transmission

namespace Link

/-- The frames of which a device took any byte, in order. -/
def takenBy (l : Link) (device : Nat) : List Transmission :=
  ((l.transmissions.filter (·.device == device)).filter Transmission.moved).reverse

theorem mem_of_mem_takenBy {l : Link} {device : Nat} {t : Transmission}
    (ht : t ∈ l.takenBy device) : t ∈ l.transmissions :=
  (List.mem_filter.mp (List.mem_filter.mp (List.mem_reverse.mp ht)).1).1

/-- A device took every frame whole, of which it took any byte. -/
def Untorn (l : Link) (device : Nat) : Prop :=
  ∀ t ∈ l.takenBy device, t.accepted = t.frame.encode

instance (l : Link) (device : Nat) : Decidable (l.Untorn device) :=
  inferInstanceAs (Decidable (∀ t ∈ _, _))

theorem sentBy_filter_moved (ts : List Transmission) :
    sentBy (ts.filter Transmission.moved) = sentBy ts := by
  induction ts with
  | nil => rfl
  | cons t ts ih =>
    rw [sentBy_cons, List.filter_cons]
    by_cases hnil : t.accepted = []
    · have hunmoved : ¬ t.moved = true := by simp [Transmission.moved, hnil]
      rw [if_neg hunmoved, ih, hnil, List.append_nil]
    · have hmoved : t.moved = true := by simp [Transmission.moved, hnil]
      rw [if_pos hmoved, sentBy_cons, ih]

/-- The lines of a device that took every frame whole are the lines of the frames. -/
theorem linesOf_receivedBy {l : Link} {device : Nat} (h : l.Untorn device) :
    linesOf (l.receivedBy device) = (l.takenBy device).map (·.frame.line) := by
  have hreceived : l.receivedBy device = (l.takenBy device).flatMap (·.accepted) := by
    rw [receivedBy, ← sentBy_filter_moved]
    rfl
  have hwhole : (l.takenBy device).flatMap (·.accepted) =
      ((l.takenBy device).map (·.frame)).flatMap Frame.encode := by
    rw [List.flatMap_map, List.flatMap_def, List.flatMap_def, List.map_congr_left h]
  rw [hreceived, hwhole, linesOf_encodings, List.map_map]
  rfl

end Link

namespace Bridge

/-! ## Where the tags come from -/

/-- What the action writes for a client is the frame of a typed text. -/
def Action.Typed : Action → Prop
  | .link (.writeOn _ _ frame) _ => ∃ text, frame = .ofInput text
  | _ => True

theorem typed_of_serves {kind : RequestKind} (hkind : kind ≠ .sendCommand) {a : Action}
    (ha : a.Serves kind) : a.Typed := by
  cases a with
  | link step others =>
    cases step with
    | writeOn => exact absurd ha hkind
    | surround | clear | openPort | readLines | countLines => trivial
  | publish | begin | launch | proceed | stop | drop | pass => trivial

/-- **Clients write typed texts only**, whatever they ask for. -/
theorem reaches_dispatch_typed (b : Bridge) (client : ClientId) (request : Request) :
    Reaches Action.Typed b (b.dispatch client request) := by
  cases request with
  | sendCommand data => exact b.reaches_sendLine client (fun _ => ⟨data, rfl⟩) fun _ => trivial
  | sendBulk | stopTransfer | reconnect =>
    refine (b.reaches_dispatch client _).mono fun _ ha => typed_of_serves ?_ ha
    exact fun h => nomatch h

/-- The upload that holds the engine has only frames of uploads left, and what was written
fits its author. -/
structure Labelled (b : Bridge) : Prop where
  pending : ∀ u, b.engine.active = some u → ∀ f ∈ u.pending, f.OfUpload
  written : ∀ t ∈ b.link.transmissions, t.Fits

theorem labelled_new (settings : Settings) (bench : Bench) : Labelled (new settings bench) where
  pending := fun _ hu => nomatch hu
  written := fun _ ht => nomatch ht

theorem pending_act {b : Bridge} (hb : Labelled b) {a : Action} {v : Upload}
    (hv : (b.act a).engine.active = some v) : ∀ f ∈ v.pending, f.OfUpload := by
  cases onward_act hv with
  | same hactive => exact hb.pending v hactive
  | begun client payload announced hnew =>
    rw [hnew]
    exact fun f hf => Plan.ofUpload_of_mem_build payload b.engine.settings hf
  | launched u h hactive _ hlaunched =>
    rw [hlaunched]
    exact hb.pending u hactive
  | sent u frame rest h due next hactive _ hpending hsent =>
    rw [hsent]
    exact fun f hf => hb.pending u hactive f (hpending ▸ List.mem_cons_of_mem _ hf)
  | stopped u hactive hstopped =>
    rw [hstopped]
    exact hb.pending u hactive

/-- What an action writes fits its author. -/
theorem Labelled.fits_of_source {b : Bridge} (hb : Labelled b) {a : Action} (ha : a.Typed)
    {t : Transmission} (hsource : Source b a t) : t.Fits := by
  cases hsource with
  | line h others haction hauthor =>
    rw [haction] at ha
    obtain ⟨text, hframe⟩ := ha
    exact .line text hauthor hframe
  | upload u rest _ hactive hpending hauthor =>
    have hfirst : t.frame ∈ u.pending := by
      rw [hpending]
      exact List.mem_cons_self
    exact .upload u.id hauthor (hb.pending u hactive t.frame hfirst)

theorem labelled_act {b : Bridge} (hb : Labelled b) {a : Action} (ha : a.Typed) :
    Labelled (b.act a) where
  pending := fun _ hv => pending_act hb hv
  written := by
    rcases b.written_act a with hsame | ⟨t, hmore, hsource⟩
    · rw [hsame]
      exact hb.written
    · rw [hmore, List.forall_mem_cons]
      exact ⟨hb.fits_of_source ha hsource, hb.written⟩

theorem labelled_of_reaches {b b' : Bridge} (hb : Labelled b) (h : Reaches Action.Typed b b') :
    Labelled b' := by
  obtain ⟨actions, hactions, rfl⟩ := h
  exact run_preserves (P := Labelled) (Q := Action.Typed) (fun _ _ ha hb => labelled_act hb ha) hb
    hactions

/-- What a client's line comes to on the wire. -/
theorem transmissions_sendLine (b : Bridge) (client : ClientId) (data : String) :
    (b.sendLine client data).link.transmissions = b.link.transmissions ∨
      ∃ t, t.author = .line ∧ t.frame = .ofInput data ∧
        (b.sendLine client data).link.transmissions = t :: b.link.transmissions := by
  have written : (b.link.write (.ofInput data)).1.transmissions = b.link.transmissions ∨
      ∃ t, t.author = .line ∧ t.frame = .ofInput data ∧
        (b.link.write (.ofInput data)).1.transmissions = t :: b.link.transmissions := by
    rw [Link.write]
    cases b.link.current with
    | none => exact .inl rfl
    | some h =>
      rcases b.link.transmissions_writeOn .line h (.ofInput data) with
        ⟨-, hsame⟩ | ⟨t, hauthor, -, hframe, hmore, -⟩
      · exact .inl hsame
      · exact .inr ⟨t, hauthor, hframe, hmore⟩
  rw [sendLine]
  split
  · exact .inl rfl
  · split <;> rename_i hresult <;> rw [hresult] at written <;> exact written

/-- The frames of clients and those of uploads are told apart, as far as no text poses. -/
structure ToldApart (b : Bridge) : Prop where
  /-- What a client sends goes out as the frame for it, or not at all. -/
  sent : ∀ client text,
    let b' := b.dispatch client (.sendCommand text)
    b'.link.transmissions = b.link.transmissions ∨
      ∃ t, t.author = .line ∧ t.frame = .ofInput text ∧
        b'.link.transmissions = t :: b.link.transmissions
  /-- The frames with the tag of an upload are those of uploads and of texts that pose. -/
  tagged_iff : ∀ t ∈ b.link.transmissions,
    Frame.IsUploadLine t.frame.line ↔ (∃ id, t.author = .upload id) ∨ t.PosesAsUpload
  /-- The lines of a device that took every frame whole are those of the frames. -/
  lines_eq : ∀ device, b.link.Untorn device →
    linesOf (b.link.receivedBy device) = (b.link.takenBy device).map (·.frame.line)
  /-- Only uploads have such lines on a device exactly if no text poses there. -/
  uploads_only_iff : ∀ device,
    (∀ t ∈ b.link.takenBy device, Frame.IsUploadLine t.frame.line → ∃ id, t.author = .upload id) ↔
      ∀ t ∈ b.link.takenBy device, ¬ t.PosesAsUpload
  /-- While an upload holds the engine, such a line that is added is its own or poses. -/
  added_iff : ∀ u, b.engine.active = some u → ∀ a : Action, a.Typed → ∀ t,
    (b.act a).link.transmissions = t :: b.link.transmissions →
      (Frame.IsUploadLine t.frame.line ↔ t.author = .upload u.id ∨ t.PosesAsUpload)

theorem Labelled.toldApart {b : Bridge} (hb : Labelled b) : ToldApart b where
  sent := fun client text => b.transmissions_sendLine client text
  tagged_iff := fun t ht => (hb.written t ht).isUploadLine_iff
  lines_eq := fun _ h => Link.linesOf_receivedBy h
  uploads_only_iff := by
    intro device
    refine forall_congr' fun t => forall_congr' fun ht => ?_
    rw [(hb.written t (Link.mem_of_mem_takenBy ht)).isUploadLine_iff]
    constructor
    · intro honly hposes
      exact Transmission.not_upload_of_line hposes.1 (honly (.inr hposes))
    · rintro hnot (hupload | hposes)
      · exact hupload
      · exact absurd hposes hnot
  added_iff := by
    intro u hactive a ha t hadded
    rcases b.written_act a with hsame | ⟨t', hmore, hsource⟩
    · rw [hsame] at hadded
      exact absurd hadded.symm (List.cons_ne_self _ _)
    · rw [hmore] at hadded
      obtain ⟨rfl, -⟩ := List.cons.inj hadded
      -- an upload that writes is the one that holds the engine
      have howner : (∃ id, t'.author = .upload id) ↔ t'.author = .upload u.id := by
        refine ⟨fun hid => ?_, fun h => ⟨_, h⟩⟩
        cases hsource with
        | line _ _ _ hauthor => exact absurd hid (Transmission.not_upload_of_line hauthor)
        | upload v _ _ hv _ hauthor =>
          rw [hactive] at hv
          cases hv
          exact hauthor
      rw [(hb.fits_of_source ha hsource).isUploadLine_iff, howner]

/-- **Which frames are told apart on the wire.**  The line of a typed text shows whether the
text was taken for a command, and has no tag of an upload, exactly if the text does not pose.
In every state that is reached while clients type texts, the frames that have the tag of an
upload are those of uploads and those of texts that pose, and while an upload holds the engine
nothing else adds one.  A device that took every frame whole has just the lines of the
frames. -/
theorem frames_told_apart_iff (settings : Settings) (bench : Bench) (b : Bridge)
    (hb : Reaches Action.Typed (new settings bench) b) :
    (∀ text, Frame.TellsApart text ↔ ∀ tag ∈ Frame.tags, ¬ Frame.Poses tag text) ∧
      ToldApart b :=
  ⟨Frame.tellsApart_iff, (labelled_of_reaches (labelled_new settings bench) hb).toldApart⟩

/-- A client types a line among the chunks of another client's upload. -/
def interposed (text : String) : Bridge :=
  (((new pacedSettings {}).run opening).dispatch ⟨0⟩ (.sendBulk none "abcde")).dispatch ⟨1⟩
    (.sendCommand text)

theorem reaches_interposed (text : String) :
    Reaches Action.Typed (new pacedSettings {}) (interposed text) := by
  have hopened : Reaches Action.Typed (new pacedSettings {})
      ((new pacedSettings {}).run opening) := by
    refine ⟨opening, ?_, rfl⟩
    rw [opening, List.forall_mem_cons, List.forall_mem_singleton]
    exact ⟨trivial, trivial⟩
  exact (hopened.trans (reaches_dispatch_typed _ _ _)).trans (reaches_dispatch_typed _ _ _)

/-- The device takes the line for a second chunk. -/
theorem frames_told_apart_iff_interposed :
    let b := interposed "FILE:x"
    Reaches Action.Typed (new pacedSettings {}) b ∧ b.engine.isActive = true ∧
      linesOf (b.link.receivedBy 0) = [Utf8.encode "FILE:abc", Utf8.encode "FILE:x"] ∧
      ¬ ∀ t ∈ b.link.takenBy 0, Frame.IsUploadLine t.frame.line → ∃ id, t.author = .upload id := by
  intro b
  have hreach := reaches_interposed "FILE:x"
  obtain ⟨-, htold⟩ := frames_told_apart_iff pacedSettings {} b hreach
  refine ⟨hreach, by decide, ?_, ?_⟩
  · rw [htold.lines_eq 0 (by decide)]
    decide
  · rw [htold.uploads_only_iff 0]
    intro hnone
    have htaken : (⟨0, 0, .line, .ofInput "FILE:x", Utf8.encode "FILE:x\n", none⟩ : Transmission) ∈
        b.link.takenBy 0 := by decide
    exact hnone _ htaken ⟨rfl, "FILE:x", rfl, .inl (by decide)⟩

/-- Frames have to be taken whole: half of one text and another text, neither of which poses,
make a line of an upload. -/
theorem torn_line_has_tag :
    let b := (new {} Link.tornBench).run
      [.link (.openPort ["p"] 0) trivial, .link (.writeOn .line 0 (.ofInput "FI!")) trivial,
        .link (.writeOn .line 0 (.ofInput "LE:x")) trivial]
    (∀ text ∈ ["FI!", "LE:x"], Frame.TellsApart text) ∧
      (b.link.takenBy 0).map (·.frame) = [.ofInput "FI!", .ofInput "LE:x"] ∧
      linesOf (b.link.receivedBy 0) = [Utf8.encode "FILE:x"] := by
  intro b
  refine ⟨fun text htext => ?_, by decide, by decide⟩
  rw [Frame.tellsApart_iff]
  revert text
  decide

/-- A message is taken for a command if its tag is broken by a carriage return, so not every
text is told apart. -/
theorem broken_tag_is_mended :
    let text := "C\rMD:x"
    Frame.ofInput text = .message text ∧ (Frame.ofInput text).encode = Utf8.encode "CMD:x\n" ∧
      ¬ ∀ typed, Frame.TellsApart typed := by
  intro text
  refine ⟨by decide, by decide, fun h => ?_⟩
  have hcommand := (h text).command_iff.mp (by decide)
  rw [Frame.isCommand_ofInput_iff] at hcommand
  exact absurd hcommand (by decide)

end Bridge

end SerialBridge
