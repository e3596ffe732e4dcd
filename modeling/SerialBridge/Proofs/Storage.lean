import SerialBridge.Settings.Document
import SerialBridge.Proofs.Decoding
import SerialBridge.Proofs.Pieces

/-! # Stored settings

A stored document is an object of sections, and a section an object of fields.  It can be edited:
fields and whole sections can be left out and the rest put in any order (`Edited`).  The settings
that are read back have the written values in the fields that were kept and the documented
defaults in all others (`keeping`).

Nothing in a section is ever missed and the changes its fields make commute, so what is taken
depends on which fields are there and on nothing else (`takes_selected`).  This holds of the
sections within the whole document as it does of the fields within a section.

The result is `stored_settings_read_back`.
-/

namespace SerialBridge

open Json

/-! ## Edited documents -/

/-- What is kept of a document: some sections, and in each section some fields. -/
structure Selection where
  /-- The sections that are kept. -/
  sections : String → Bool
  /-- The fields that are kept, if their section is. -/
  fields : String → String → Bool

namespace Selection

/-- Everything is kept. -/
def all : Selection where
  sections _ := true
  fields _ _ := true

/-- What is left of a section. -/
def inside (kept : Selection) (label name : String) : Bool :=
  kept.sections label && kept.fields label name

end Selection

namespace Json

/-- The object with the fields that are kept, in any order. -/
def Selected (kept : String → Bool) (doc other : Json) : Prop :=
  ∃ fields chosen, doc = .object fields ∧ other = .object chosen ∧
    chosen.Perm (fields.filter fun f => kept f.1)

/-- The document with the sections that are kept, in any order, and in each of them the fields
that are kept, in any order; `part` is what is left of a section. -/
def Edited (kept : Selection) (doc other : Json) : Prop :=
  ∃ (sections : List (String × Json)) (part : String → Json), doc = .object sections ∧
    (∀ f ∈ sections, Selected (kept.fields f.1) f.2 (part f.1)) ∧
    Selected kept.sections (.object (sections.map fun f => (f.1, part f.1))) other

theorem Selected.all {kept : String → Bool} (h : ∀ name, kept name = true)
    (fields : List (String × Json)) : Selected kept (.object fields) (.object fields) :=
  ⟨fields, fields, rfl, rfl, .of_eq (List.filter_eq_self.mpr fun f _ => h f.1).symm⟩

theorem Selected.plain {kept : String → Bool} {doc other : Json} {levels : Nat}
    (h : Selected kept doc other) (hdoc : Plain (levels + 1) doc) : Plain (levels + 1) other := by
  obtain ⟨fields, chosen, rfl, rfl, hperm⟩ := h
  refine plain_object.mpr fun field hfield => plain_object.mp hdoc field ?_
  exact List.mem_of_mem_filter (hperm.mem_iff.mp hfield)

theorem Edited.plain {kept : Selection} {doc other : Json} {levels : Nat}
    (h : Edited kept doc other) (hdoc : Plain (levels + 2) doc) : Plain (levels + 2) other := by
  obtain ⟨sections, part, rfl, hparts, hselected⟩ := h
  refine hselected.plain (plain_object.mpr fun field hfield => ?_)
  obtain ⟨f, hf, rfl⟩ := List.mem_map.mp hfield
  exact (hparts f hf).plain (plain_object.mp hdoc f hf)

/-- **What is taken of a document depends on the fields that are kept**, if none is missed. -/
theorem Record.Fits.takes_selected {r : Record α} {entries : List (Entry α)} (h : r.Fits entries)
    (hallowed : ∀ f ∈ r.fields, f.absence ≠ .refused) {kept : String → Bool} {doc : Json}
    (hdoc : Selected kept (.object (entries.map Entry.field)) doc) :
    r.decoder.Takes doc (Entry.apply (entries.filter fun e => kept e.name) r.start) := by
  obtain ⟨fields, chosen, heq, rfl, hperm⟩ := hdoc
  cases heq
  rw [List.filter_map] at hperm
  exact (h.filter hallowed kept).takes hperm

end Json

/-! ## Sections -/

namespace LinkSettings

/-- The link section with the defaults in all fields but those that are kept. -/
def keeping (kept : String → Bool) (s : LinkSettings) : LinkSettings where
  candidates :=
    if kept "candidates" then s.candidates
    else ["/dev/ttyACM0", "/dev/ttyACM1", "/dev/ttyACM2"]
  baudRate := if kept "baud_rate" then s.baudRate else 115200
  settleMs := if kept "settle_ms" then s.settleMs else 500

/-- The fields of the link section. -/
def entries (s : LinkSettings) : List (Entry LinkSettings) :=
  [.of "candidates" (.array (s.candidates.map .string)) (fun v s => { s with candidates := v })
    s.candidates,
   .of "baud_rate" (.nat s.baudRate.toNat) (fun v s => { s with baudRate := v }) s.baudRate,
   .of "settle_ms" (.nat s.settleMs.toNat) (fun v s => { s with settleMs := v }) s.settleMs]

theorem takes_candidates (paths : List String) :
    (Decoder.list .string).Takes (.array (paths.map .string)) paths :=
  Decoder.takes_list (List.forall₂_map_left_iff.mpr
    (List.forall₂_same.mpr fun path _ => Decoder.takes_string path))

theorem fits_entries (s : LinkSettings) : record.Fits s.entries where
  known := List.forall_mem_cons.mpr ⟨Record.knows_of (takes_candidates s.candidates) rfl,
    List.forall_mem_cons.mpr ⟨Record.knows_of (Decoder.takes_uint32 s.baudRate) rfl,
      List.forall_mem_singleton.mpr (Record.knows_of (Decoder.takes_uint64 s.settleMs) rfl)⟩⟩
  distinct := by simp [entries, Entry.of]
  complete := by simp [record, Field.of]
  commute a ha b hb x := by
    simp only [entries, List.mem_cons, List.not_mem_nil, or_false] at ha hb
    rcases ha with rfl | rfl | rfl <;> rcases hb with rfl | rfl | rfl <;> rfl

/-- **The kept fields of the section are taken, and the defaults for all others.** -/
theorem takes_selected {s : LinkSettings} {kept : String → Bool} {doc : Json}
    (h : Selected kept s.toJson doc) : decoder.Takes doc (s.keeping kept) := by
  have htakes := s.fits_entries.takes_selected (by simp [record, Field.of]) h
  have hvalue :
      Entry.apply (s.entries.filter fun e => kept e.name) record.start = s.keeping kept := by
    cases hcandidates : kept "candidates" <;> cases hbaud : kept "baud_rate" <;>
      cases hsettle : kept "settle_ms" <;>
      simp [entries, keeping, Entry.of, Entry.apply, record, hcandidates, hbaud, hsettle]
  rwa [hvalue] at htakes

theorem plain_toJson (s : LinkSettings) (levels : Nat) : Plain (levels + 2) s.toJson := by
  have hbaud := s.baudRate.toNat_lt
  have hsettle := s.settleMs.toNat_lt
  refine plain_object.mpr ?_
  simp [Plain, nat, IsWord]
  omega

end LinkSettings

namespace TransferSettings

/-- The upload section with the defaults in all fields but those that are kept. -/
def keeping (kept : String → Bool) (s : TransferSettings) : TransferSettings where
  mode := if kept "mode" then s.mode else .singleShot
  blobCeiling := if kept "blob_ceiling" then s.blobCeiling else 8000
  chunkSize := if kept "chunk_size" then s.chunkSize else 100
  frameDelayMs := if kept "frame_delay_ms" then s.frameDelayMs else 1500

/-- The fields of the upload section. -/
def entries (s : TransferSettings) : List (Entry TransferSettings) :=
  [.of "mode" (.string s.mode.name) (fun v s => { s with mode := v }) s.mode,
   .of "blob_ceiling" (.nat s.blobCeiling.toNat) (fun v s => { s with blobCeiling := v })
    s.blobCeiling,
   .of "chunk_size" (.nat s.chunkSize.toNat) (fun v s => { s with chunkSize := v }) s.chunkSize,
   .of "frame_delay_ms" (.nat s.frameDelayMs.toNat) (fun v s => { s with frameDelayMs := v })
    s.frameDelayMs]

theorem takes_mode (mode : Mode) : Mode.decoder.Takes (.string mode.name) mode :=
  Decoder.takes_choice (by cases mode <;> rfl)

theorem fits_entries (s : TransferSettings) : record.Fits s.entries where
  known := List.forall_mem_cons.mpr ⟨Record.knows_of (takes_mode s.mode) rfl,
    List.forall_mem_cons.mpr ⟨Record.knows_of (Decoder.takes_size s.blobCeiling) rfl,
      List.forall_mem_cons.mpr ⟨Record.knows_of (Decoder.takes_size s.chunkSize) rfl,
        List.forall_mem_singleton.mpr (Record.knows_of (Decoder.takes_uint64 s.frameDelayMs) rfl)⟩⟩⟩
  distinct := by simp [entries, Entry.of]
  complete := by simp [record, Field.of]
  commute a ha b hb x := by
    simp only [entries, List.mem_cons, List.not_mem_nil, or_false] at ha hb
    rcases ha with rfl | rfl | rfl | rfl <;> rcases hb with rfl | rfl | rfl | rfl <;> rfl

/-- **The kept fields of the section are taken, and the defaults for all others.** -/
theorem takes_selected {s : TransferSettings} {kept : String → Bool} {doc : Json}
    (h : Selected kept s.toJson doc) : decoder.Takes doc (s.keeping kept) := by
  have htakes := s.fits_entries.takes_selected (by simp [record, Field.of]) h
  have hvalue :
      Entry.apply (s.entries.filter fun e => kept e.name) record.start = s.keeping kept := by
    cases hmode : kept "mode" <;> cases hceiling : kept "blob_ceiling" <;>
      cases hsize : kept "chunk_size" <;> cases hdelay : kept "frame_delay_ms" <;>
      simp [entries, keeping, Entry.of, Entry.apply, record, hmode, hceiling, hsize, hdelay]
  rwa [hvalue] at htakes

theorem plain_toJson (s : TransferSettings) (levels : Nat) : Plain (levels + 1) s.toJson := by
  have hceiling := s.blobCeiling.toNat_lt
  have hsize := s.chunkSize.toNat_lt
  have hdelay := s.frameDelayMs.toNat_lt
  refine plain_object.mpr ?_
  simp [Plain, nat, IsWord]
  omega

end TransferSettings

namespace ReaderSettings

/-- The reader section with the defaults in all fields but those that are kept. -/
def keeping (kept : String → Bool) (s : ReaderSettings) : ReaderSettings where
  idlePollMs := if kept "idle_poll_ms" then s.idlePollMs else 100
  inputPollMs := if kept "input_poll_ms" then s.inputPollMs else 10
  errorBackoffMs := if kept "error_backoff_ms" then s.errorBackoffMs else 1000

/-- The fields of the reader section. -/
def entries (s : ReaderSettings) : List (Entry ReaderSettings) :=
  [.of "idle_poll_ms" (.nat s.idlePollMs.toNat) (fun v s => { s with idlePollMs := v })
    s.idlePollMs,
   .of "input_poll_ms" (.nat s.inputPollMs.toNat) (fun v s => { s with inputPollMs := v })
    s.inputPollMs,
   .of "error_backoff_ms" (.nat s.errorBackoffMs.toNat) (fun v s => { s with errorBackoffMs := v })
    s.errorBackoffMs]

theorem fits_entries (s : ReaderSettings) : record.Fits s.entries where
  known := List.forall_mem_cons.mpr ⟨Record.knows_of (Decoder.takes_uint64 s.idlePollMs) rfl,
    List.forall_mem_cons.mpr ⟨Record.knows_of (Decoder.takes_uint64 s.inputPollMs) rfl,
      List.forall_mem_singleton.mpr (Record.knows_of (Decoder.takes_uint64 s.errorBackoffMs) rfl)⟩⟩
  distinct := by simp [entries, Entry.of]
  complete := by simp [record, Field.of]
  commute a ha b hb x := by
    simp only [entries, List.mem_cons, List.not_mem_nil, or_false] at ha hb
    rcases ha with rfl | rfl | rfl <;> rcases hb with rfl | rfl | rfl <;> rfl

/-- **The kept fields of the section are taken, and the defaults for all others.** -/
theorem takes_selected {s : ReaderSettings} {kept : String → Bool} {doc : Json}
    (h : Selected kept s.toJson doc) : decoder.Takes doc (s.keeping kept) := by
  have htakes := s.fits_entries.takes_selected (by simp [record, Field.of]) h
  have hvalue :
      Entry.apply (s.entries.filter fun e => kept e.name) record.start = s.keeping kept := by
    cases hidle : kept "idle_poll_ms" <;> cases hinput : kept "input_poll_ms" <;>
      cases hbackoff : kept "error_backoff_ms" <;>
      simp [entries, keeping, Entry.of, Entry.apply, record, hidle, hinput, hbackoff]
  rwa [hvalue] at htakes

theorem plain_toJson (s : ReaderSettings) (levels : Nat) : Plain (levels + 1) s.toJson := by
  have hidle := s.idlePollMs.toNat_lt
  have hinput := s.inputPollMs.toNat_lt
  have hbackoff := s.errorBackoffMs.toNat_lt
  refine plain_object.mpr ?_
  simp [Plain, nat, IsWord]
  omega

end ReaderSettings

/-! ## The whole document -/

namespace Settings

/-- The settings with the defaults in all fields but those that are kept, in the sections that
are kept. -/
def keeping (kept : Selection) (s : Settings) : Settings where
  link := s.link.keeping (kept.inside "link")
  transfer := s.transfer.keeping (kept.inside "transfer")
  reader := s.reader.keeping (kept.inside "reader")

theorem keeping_all (s : Settings) : s.keeping .all = s := rfl

/-- The sections of a document that is read as the settings. -/
def entries (s : Settings) (part : String → Json) : List (Entry Settings) :=
  [.of "link" (part "link") (fun v s => { s with link := v }) s.link,
   .of "transfer" (part "transfer") (fun v s => { s with transfer := v }) s.transfer,
   .of "reader" (part "reader") (fun v s => { s with reader := v }) s.reader]

theorem fits_entries {s : Settings} {part : String → Json}
    (hlink : LinkSettings.decoder.Takes (part "link") s.link)
    (htransfer : TransferSettings.decoder.Takes (part "transfer") s.transfer)
    (hreader : ReaderSettings.decoder.Takes (part "reader") s.reader) :
    record.Fits (s.entries part) where
  known := List.forall_mem_cons.mpr ⟨Record.knows_of hlink rfl,
    List.forall_mem_cons.mpr ⟨Record.knows_of htransfer rfl,
      List.forall_mem_singleton.mpr (Record.knows_of hreader rfl)⟩⟩
  distinct := by simp [entries, Entry.of]
  complete := by simp [record, Field.of]
  commute a ha b hb x := by
    simp only [entries, List.mem_cons, List.not_mem_nil, or_false] at ha hb
    rcases ha with rfl | rfl | rfl <;> rcases hb with rfl | rfl | rfl <;> rfl

/-- **The kept fields of the kept sections are taken, and the defaults for all others.** -/
theorem takes_edited {s : Settings} {kept : Selection} {doc : Json} (h : Edited kept s.toJson doc) :
    decoder.Takes doc (s.keeping kept) := by
  obtain ⟨sections, part, heq, hparts, hselected⟩ := h
  cases heq
  obtain ⟨hlink, hothers⟩ := List.forall_mem_cons.mp hparts
  obtain ⟨htransfer, hlast⟩ := List.forall_mem_cons.mp hothers
  have hreader := List.forall_mem_singleton.mp hlast
  -- every section is read as it is left, whether or not it is kept
  let left : Settings :=
    { link := s.link.keeping (kept.fields "link")
      transfer := s.transfer.keeping (kept.fields "transfer")
      reader := s.reader.keeping (kept.fields "reader") }
  have hfits : record.Fits (left.entries part) :=
    fits_entries (LinkSettings.takes_selected hlink) (TransferSettings.takes_selected htransfer)
      (ReaderSettings.takes_selected hreader)
  have htakes := hfits.takes_selected (by simp [record, Field.of]) hselected
  have hvalue : Entry.apply ((left.entries part).filter fun e => kept.sections e.name)
      record.start = s.keeping kept := by
    cases hlink : kept.sections "link" <;> cases htransfer : kept.sections "transfer" <;>
      cases hreader : kept.sections "reader" <;>
      simp [entries, keeping, Selection.inside, Entry.of, Entry.apply, record, left, hlink,
        htransfer, hreader, LinkSettings.keeping, TransferSettings.keeping, ReaderSettings.keeping]
  rwa [hvalue] at htakes

theorem plain_toJson (s : Settings) : Plain maxLevels s.toJson := by
  refine plain_object.mpr ?_
  simp [s.link.plain_toJson, s.transfer.plain_toJson, s.reader.plain_toJson]

/-- A document of the settings is loaded from any text of it. -/
theorem load_encode {s : Settings} {doc : Json} (h : decoder.Takes doc s) {text : String}
    (htext : doc.IsText text) : load (Utf8.encode text) = .ok s := by
  simp only [load, Utf8.decode?_encode, h.parse htext]

theorem edited_all (s : Settings) : Edited .all s.toJson s.toJson := by
  refine ⟨[("link", s.link.toJson), ("transfer", s.transfer.toJson), ("reader", s.reader.toJson)],
    fun name =>
      if name = "link" then s.link.toJson
      else if name = "transfer" then s.transfer.toJson
      else s.reader.toJson,
    rfl, ?_, Selected.all (fun _ => rfl) _⟩
  exact List.forall_mem_cons.mpr ⟨Selected.all (fun _ => rfl) _,
    List.forall_mem_cons.mpr ⟨Selected.all (fun _ => rfl) _,
      List.forall_mem_singleton.mpr (Selected.all (fun _ => rfl) _)⟩⟩

end Settings

/-- **Stored settings are read back**, whatever their values; and if fields or whole sections are
left out of the document and the rest is put in any order, the settings that are read back have
the documented defaults in what was left out and are otherwise the same. -/
theorem stored_settings_read_back (s : Settings) :
    Settings.load (Utf8.encode s.store) = .ok s ∧
    ∀ (kept : Selection) (doc : Json), Json.Edited kept s.toJson doc →
      ∀ text, doc.IsText text → Settings.load (Utf8.encode text) = .ok (s.keeping kept) := by
  have hall := Settings.takes_edited s.edited_all
  rw [Settings.keeping_all] at hall
  constructor
  · exact Settings.load_encode hall (isText_pretty s.plain_toJson)
  · intro kept doc hedited text htext
    exact Settings.load_encode (Settings.takes_edited hedited) htext

/-- Settings without their upload section and their baud rate, all else turned round. -/
theorem stored_settings_read_back_turned_round :
    Settings.load (Utf8.encode (Json.object
        [("reader", .object
          [("error_backoff_ms", .nat 0), ("idle_poll_ms", .nat 100),
            ("input_poll_ms", .nat 18446744073709551615)]),
         ("link", .object
          [("settle_ms", .nat 7), ("candidates", .array [.string "\"\\"])])]).compact) =
      .ok
        { link := { candidates := ["\"\\"], baudRate := 115200, settleMs := 7 }
          transfer :=
            { mode := .singleShot, blobCeiling := 8000, chunkSize := 100, frameDelayMs := 1500 }
          reader :=
            { idlePollMs := 100, inputPollMs := 18446744073709551615, errorBackoffMs := 0 } } := by
  let s : Settings :=
    { link := { candidates := ["\"\\"], baudRate := 9600, settleMs := 7 }
      transfer := { mode := .auto, blobCeiling := 0, chunkSize := 0, frameDelayMs := 0 }
      reader := { idlePollMs := 100, inputPollMs := 18446744073709551615, errorBackoffMs := 0 } }
  let kept : Selection :=
    { sections := fun label => label != "transfer"
      fields := fun _ name => name != "baud_rate" }
  let link : Json :=
    .object [("settle_ms", .nat 7), ("candidates", .array [.string "\"\\"])]
  let reader : Json :=
    .object [("error_backoff_ms", .nat 0), ("idle_poll_ms", .nat 100),
      ("input_poll_ms", .nat 18446744073709551615)]
  have hlink : Json.Selected (kept.fields "link") s.link.toJson link :=
    ⟨_, _, rfl, rfl, List.Perm.swap _ _ _⟩
  have htransfer : Json.Selected (kept.fields "transfer") s.transfer.toJson s.transfer.toJson :=
    ⟨_, _, rfl, rfl, .rfl⟩
  have hreader : Json.Selected (kept.fields "reader") s.reader.toJson reader :=
    ⟨_, _, rfl, rfl, (List.perm_append_singleton _ _).symm⟩
  have hedited : Json.Edited kept s.toJson (.object [("reader", reader), ("link", link)]) :=
    ⟨_, fun name =>
      if name = "link" then link else if name = "transfer" then s.transfer.toJson else reader,
      rfl,
      List.forall_mem_cons.mpr ⟨hlink, List.forall_mem_cons.mpr
        ⟨htransfer, List.forall_mem_singleton.mpr hreader⟩⟩,
      _, _, rfl, rfl, List.Perm.swap _ _ _⟩
  exact (stored_settings_read_back s).2 kept _ hedited _
    (isText_compact (hedited.plain s.plain_toJson))

end SerialBridge
