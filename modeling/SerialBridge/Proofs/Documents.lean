import SerialBridge.Console.Input
import SerialBridge.Event
import SerialBridge.Proofs.Alternatives

/-! # Documents of requests and events

A request can be written in several ways: with its fields in any order, by the second name of
its kind, and without a file name that is `null`.  `Rewording` holds all documents that come out
of the written one by such changes, one after another.  Each of them has one field for the kind,
with one of the two names, and beside it what the request carries, in some order
(`Rewording.worded`); and all of these are taken as the request (`Worded.takes`).

The console passes such a document on unchanged: it begins with a brace, so it is no plain text,
and it ends with one, so nothing is dropped at its end (`ConsoleInput.parse_object`).

An event is read back from its document with the fields of every object in it in any order
(`Reordered`): the order of the outer two decides whether the content is read as it stands, and
the order in a link status where its tag is found.

The result is `documents_read_back`.
-/

namespace SerialBridge

open Json

/-! ## Other ways to write a request -/

namespace Request

/-- The names of kinds that have a second one, each with that one. -/
def secondNames : List (String × String) :=
  [("send_bulk", "send_bulk_text"), ("stop_transfer", "stop_file_transfer"),
   ("reconnect", "reconnect_serial")]

/-- The documents that a request document can be changed into. -/
inductive Rewording (doc : Json) : Json → Prop
  | same : Rewording doc doc
  /-- The fields are put in another order. -/
  | reordered {fields others : List (String × Json)} :
      Rewording doc (.object fields) → others.Perm fields → Rewording doc (.object others)
  /-- The kind is called by its second name. -/
  | renamed {front back : List (String × Json)} {name second : String} :
      Rewording doc (.object (front ++ ("event", .string name) :: back)) →
      (name, second) ∈ secondNames →
      Rewording doc (.object (front ++ ("event", .string second) :: back))
  /-- A missing file name is left out. -/
  | shortened {front back : List (String × Json)} :
      Rewording doc (.object (front ++ ("filename", .null) :: back)) →
      Rewording doc (.object (front ++ back))

/-- What a document of a request has beside the kind: the written fields, or those without a
missing file name. -/
inductive Carries : Request → List (String × Json) → Prop
  | line (data : String) : Carries (.sendCommand data) [("data", .string data)]
  | upload (filename : Option String) (data : String) :
      Carries (.sendBulk filename data)
        [("filename", .optionalString filename), ("data", .string data)]
  | unnamed (data : String) : Carries (.sendBulk none data) [("data", .string data)]
  | stop : Carries .stopTransfer []
  | reopen : Carries .reconnect []

variable {r : Request} {fields carried : List (String × Json)}

theorem Carries.tag_not_mem (h : Carries r carried) : "event" ∉ carried.map Prod.fst := by
  cases h <;> simp

theorem Carries.plain (h : Carries r carried) (levels : Nat) :
    ∀ field ∈ carried, Plain levels field.2 := by
  cases h with
  | upload filename data => cases filename <;> simp [optionalString, Plain]
  | _ => simp [Plain]

/-- Without a file name that is `null`, a document has what such a document may have. -/
theorem Carries.shortened (h : Carries r carried) {others : List (String × Json)}
    (hcarried : carried.Perm (("filename", .null) :: others)) :
    ∃ left, Carries r left ∧ others.Perm left := by
  have hmem : ("filename", Json.null) ∈ carried := hcarried.mem_iff.mpr List.mem_cons_self
  cases h with
  | upload filename data =>
    cases filename with
    | some filename => simp [optionalString] at hmem
    | none => exact ⟨_, .unnamed data, hcarried.cons_inv.symm⟩
  | _ => simp at hmem

end Request

/-- The names of a kind of request, the written one first. -/
def RequestKind.names : RequestKind → List String
  | .sendCommand => ["send_command"]
  | .sendBulk => ["send_bulk", "send_bulk_text"]
  | .stopTransfer => ["stop_transfer", "stop_file_transfer"]
  | .reconnect => ["reconnect", "reconnect_serial"]

theorem RequestKind.second_mem_names {kind : RequestKind} {name second : String}
    (hname : name ∈ kind.names) (hsecond : (name, second) ∈ Request.secondNames) :
    second ∈ kind.names := by
  simp only [Request.secondNames, List.mem_cons, Prod.mk.injEq, List.not_mem_nil, or_false]
    at hsecond
  rcases hsecond with ⟨rfl, rfl⟩ | ⟨rfl, rfl⟩ | ⟨rfl, rfl⟩ <;>
    cases kind <;> revert hname <;> decide

namespace Request

variable {r : Request} {fields carried : List (String × Json)}

/-- The fields are those of a request document: a name of the kind and what the request
carries. -/
def Worded (r : Request) (fields : List (String × Json)) : Prop :=
  ∃ name carried, name ∈ r.kind.names ∧ Carries r carried ∧
    fields.Perm (("event", .string name) :: carried)

theorem worded_toJson (r : Request) : ∃ fields, r.toJson = .object fields ∧ r.Worded fields := by
  cases r with
  | sendCommand data =>
    exact ⟨_, rfl, "send_command", _, List.mem_cons_self, .line data, .rfl⟩
  | sendBulk filename data =>
    exact ⟨_, rfl, "send_bulk", _, List.mem_cons_self, .upload filename data, .rfl⟩
  | stopTransfer => exact ⟨_, rfl, "stop_transfer", _, List.mem_cons_self, .stop, .rfl⟩
  | reconnect => exact ⟨_, rfl, "reconnect", _, List.mem_cons_self, .reopen, .rfl⟩

/-- The kind can be called by another of its names. -/
theorem Worded.rename {front back : List (String × Json)} {name second : String}
    (h : r.Worded (front ++ ("event", .string name) :: back))
    (hsecond : (name, second) ∈ secondNames) :
    r.Worded (front ++ ("event", .string second) :: back) := by
  obtain ⟨written, carried, hwritten, hcarried, hperm⟩ := h
  have hmem : ("event", Json.string name) ∈ ("event", Json.string written) :: carried :=
    hperm.mem_iff.mp (List.mem_append_right _ List.mem_cons_self)
  -- what is carried has no field of that name, so the name is that of the kind
  have hname : name = written := by
    rcases List.mem_cons.mp hmem with heq | hother
    · simpa using heq
    · exact absurd (List.mem_map_of_mem (f := Prod.fst) hother) hcarried.tag_not_mem
  subst hname
  have hothers : (front ++ back).Perm carried := (List.perm_middle.symm.trans hperm).cons_inv
  exact ⟨second, carried, RequestKind.second_mem_names hwritten hsecond, hcarried,
    List.perm_middle.trans (hothers.cons _)⟩

/-- A missing file name can be left out. -/
theorem Worded.shorten {front back : List (String × Json)}
    (h : r.Worded (front ++ ("filename", .null) :: back)) : r.Worded (front ++ back) := by
  obtain ⟨name, carried, hname, hcarried, hperm⟩ := h
  have hmem : ("filename", Json.null) ∈ carried := by
    have := hperm.mem_iff.mp (List.mem_append_right front List.mem_cons_self)
    simpa using this
  obtain ⟨before, after, rfl⟩ := List.append_of_mem hmem
  obtain ⟨left, hleft, hothers⟩ := hcarried.shortened List.perm_middle
  have hall : (("filename", Json.null) :: (front ++ back)).Perm
      (("filename", .null) :: ("event", .string name) :: (before ++ after)) :=
    List.perm_middle.symm.trans (hperm.trans
      ((List.perm_middle.cons _).trans (List.Perm.swap _ _ _)))
  exact ⟨name, left, hname, hleft, hall.cons_inv.trans (hothers.cons _)⟩

/-- **Every rewording of a request document is a document of that request.** -/
theorem Rewording.worded {doc : Json} (h : Rewording r.toJson doc) :
    ∃ fields, doc = .object fields ∧ r.Worded fields := by
  induction h with
  | same => exact worded_toJson r
  | reordered _ hperm ih =>
    obtain ⟨fields, heq, name, carried, hname, hcarried, hfields⟩ := ih
    cases heq
    exact ⟨_, rfl, name, carried, hname, hcarried, hperm.trans hfields⟩
  | renamed _ hsecond ih =>
    obtain ⟨fields, heq, hworded⟩ := ih
    cases heq
    exact ⟨_, rfl, hworded.rename hsecond⟩
  | shortened _ ih =>
    obtain ⟨fields, heq, hworded⟩ := ih
    cases heq
    exact ⟨_, rfl, hworded.shorten⟩

/-! ## Reading a request -/

/-- The alternative that a request is. -/
def variant : Request → Variant Request
  | .sendCommand _ => variants.get ⟨0, by decide⟩
  | .sendBulk .. => variants.get ⟨1, by decide⟩
  | .stopTransfer => variants.get ⟨2, by decide⟩
  | .reconnect => variants.get ⟨3, by decide⟩

theorem lookup_names {name : String} (h : name ∈ r.kind.names) :
    (Variant.options variants).lookup name = some r.variant := by
  cases r <;> simp only [kind, RequestKind.names, List.mem_cons, List.not_mem_nil, or_false] at h
  · subst h
    rfl
  all_goals rcases h with rfl | rfl <;> rfl

/-- The entry of the text of an upload. -/
def dataEntry (data : String) : Entry Request :=
  .of "data" (.string data) (fun d r => match r with
    | .sendBulk f _ => .sendBulk f d
    | r => r) data

/-- The entry of the file name of an upload. -/
def filenameEntry (filename : Option String) : Entry Request :=
  .of "filename" (.optionalString filename) (fun f r => match r with
    | .sendBulk _ d => .sendBulk f d
    | r => r) filename

theorem fits_line (data : String) :
    (variant (.sendCommand data)).Fits
      [.of "data" (.string data) (fun d _ => .sendCommand d) data] (.sendCommand data) := by
  refine ⟨_, rfl, Record.fits_singleton (Record.knows_of (Decoder.takes_string data) rfl) ?_, rfl⟩
  exact List.forall_mem_singleton.mpr fun _ => rfl

theorem fits_upload (filename : Option String) (data : String) :
    (variant (.sendBulk filename data)).Fits [filenameEntry filename, dataEntry data]
      (.sendBulk filename data) := by
  refine ⟨_, rfl, ?_, rfl⟩
  exact
    { known := List.forall_mem_cons.mpr
        ⟨Record.knows_of (Decoder.takes_optionalString filename) rfl,
          List.forall_mem_singleton.mpr (Record.knows_of (Decoder.takes_string data) rfl)⟩
      distinct := by simp [filenameEntry, dataEntry, Entry.of]
      complete := by simp [Field.of, filenameEntry, dataEntry, Entry.of]
      commute := by
        intro a ha b hb x
        simp only [List.mem_cons, List.not_mem_nil, or_false] at ha hb
        rcases ha with rfl | rfl <;> rcases hb with rfl | rfl <;> cases x <;> rfl }

/-- Without a file name there is none. -/
theorem fits_unnamed (data : String) :
    (variant (.sendBulk none data)).Fits [dataEntry data] (.sendBulk none data) := by
  obtain ⟨record, hbody, hfits, -⟩ := fits_upload none data
  cases hbody
  refine ⟨_, rfl, hfits.sublist (List.sublist_cons_self _ _) ?_, rfl⟩
  simp [Field.of, dataEntry, Entry.of]

/-- What a request carries is taken in any order. -/
theorem Carries.ofFields (h : Carries r carried) (hfields : fields.Perm carried) :
    r.variant.ofFields fields = .ok r := by
  cases h with
  | line data => exact (fits_line data).ofFields hfields
  | upload filename data => exact (fits_upload filename data).ofFields hfields
  | unnamed data => exact (fits_unnamed data).ofFields hfields
  | stop => rfl
  | reopen => rfl

/-- **Every document of a request is taken as that request.** -/
theorem Worded.takes (h : r.Worded fields) : decoder.Takes (.object fields) r := by
  obtain ⟨name, carried, hname, hcarried, hfields⟩ := h
  exact Decoder.takes_taggedInside (lookup_names hname) hcarried.tag_not_mem
    (fun _ hperm => hcarried.ofFields hperm) _ hfields

theorem Worded.plain (h : r.Worded fields) : Plain maxLevels (.object fields) := by
  obtain ⟨name, carried, -, hcarried, hfields⟩ := h
  refine Plain.perm (plain_object.mpr (List.forall_mem_cons.mpr ⟨?_, hcarried.plain _⟩)) hfields
  simp [Plain]

end Request

theorem dropEnd_concat {p : Char → Bool} {c : Char} (hc : p c = false) (cs : List Char) :
    Text.dropEnd p (cs ++ [c]) = cs ++ [c] := by
  simp [Text.dropEnd, hc]

/-- **The console passes the text of an object on as it stands.** -/
theorem ConsoleInput.parse_object {fields : List (String × Json)} {r : Request}
    (h : Request.decoder.parse (Json.object fields).compact = .ok r) :
    parse (Json.object fields).compact = .ok (some (.request r)) := by
  obtain ⟨inner, hchars⟩ :
      ∃ inner, (Json.object fields).compact.toList = '\x7b' :: inner ++ ['\x7d'] :=
    ⟨joinParts [','] (compactFields fields), by simp [compact, compactChars]⟩
  have hkept : Text.dropEnd isBreak (Json.object fields).compact.toList =
      (Json.object fields).compact.toList := by
    rw [hchars, dropEnd_concat (by decide)]
  have hblank : Text.isBlankText (Json.object fields).compact = false := by
    rw [Text.isBlankText, hchars]
    simp [show Text.isBlank '\x7b' = false by decide]
  rw [parse]
  simp only [hkept, String.ofList_toList, hblank, Bool.false_eq_true, if_false]
  rw [hchars]
  simp only [List.cons_append, h]

theorem Request.Rewording.parse {r : Request} {doc : Json} (h : Rewording r.toJson doc) :
    ConsoleInput.parse doc.compact = .ok (some (.request r)) := by
  obtain ⟨fields, rfl, hworded⟩ := h.worded
  exact ConsoleInput.parse_object (hworded.takes.parse (isText_compact hworded.plain))

/-! ## Events -/

mutual
/-- The same document but for the order of fields, in any object of it. -/
inductive Json.Reordered : Json → Json → Prop
  | same (doc : Json) : Reordered doc doc
  | object {fields changed others : List (String × Json)} :
      ReorderedFields fields changed → others.Perm changed →
      Reordered (.object fields) (.object others)

/-- The same fields in the same order, but for the order of fields in their values. -/
inductive Json.ReorderedFields : List (String × Json) → List (String × Json) → Prop
  | nil : ReorderedFields [] []
  | cons {name : String} {doc other : Json} {fields others : List (String × Json)} :
      Reordered doc other → ReorderedFields fields others →
      ReorderedFields ((name, doc) :: fields) ((name, other) :: others)
end

namespace Json

theorem ReorderedFields.same (fields : List (String × Json)) : ReorderedFields fields fields := by
  induction fields with
  | nil => exact .nil
  | cons field fields ih => exact .cons (.same field.2) ih

mutual
theorem Reordered.plain {doc other : Json} {levels : Nat} (h : Reordered doc other)
    (hdoc : Plain levels doc) : Plain levels other :=
  match levels, h with
  | _, .same _ => hdoc
  | 0, .object .. => by simp only [Plain] at hdoc
  | _ + 1, .object hfields hperm =>
    Plain.perm (plain_object.mpr (hfields.plain (plain_object.mp hdoc))) hperm

theorem ReorderedFields.plain {fields others : List (String × Json)} {levels : Nat}
    (h : ReorderedFields fields others) (hfields : ∀ field ∈ fields, Plain levels field.2) :
    ∀ field ∈ others, Plain levels field.2 :=
  match h with
  | .nil => hfields
  | .cons hdoc hmore =>
    have hparts := List.forall_mem_cons.mp hfields
    List.forall_mem_cons.mpr ⟨hdoc.plain hparts.1, hmore.plain hparts.2⟩
end

theorem Reordered.exists_perm {fields : List (String × Json)} {doc : Json}
    (h : Reordered (.object fields) doc) :
    ∃ changed others, ReorderedFields fields changed ∧ others.Perm changed ∧
      doc = .object others := by
  cases h with
  | same => exact ⟨fields, fields, .same fields, .rfl, rfl⟩
  | object hfields hperm => exact ⟨_, _, hfields, hperm, rfl⟩

theorem Reordered.string_eq {s : String} {doc : Json} (h : Reordered (.string s) doc) :
    doc = .string s := by
  cases h
  rfl

theorem Reordered.optionalString_eq {s : Option String} {doc : Json}
    (h : Reordered (optionalString s) doc) : doc = optionalString s := by
  cases s <;> cases h <;> rfl

/-- A document of two fields, both changed. -/
theorem Reordered.pair {name name' : String} {first second doc : Json}
    (h : Reordered (.object [(name, first), (name', second)]) doc) :
    ∃ first' second' fields, Reordered first first' ∧ Reordered second second' ∧
      doc = .object fields ∧ fields.Perm [(name, first'), (name', second')] := by
  obtain ⟨changed, fields, hchanged, hperm, rfl⟩ := h.exists_perm
  obtain _ | ⟨hfirst, hmore⟩ := hchanged
  obtain _ | ⟨hsecond, hnone⟩ := hmore
  cases hnone
  exact ⟨_, _, fields, hfirst, hsecond, rfl, hperm⟩

end Json

namespace LinkStatus

theorem fits_opened (path : String) :
    (variants.get ⟨0, by decide⟩).Fits [.of "path" (.string path) (fun p _ => .opened p) path]
      (.opened path) := by
  refine ⟨_, rfl, Record.fits_singleton (Record.knows_of (Decoder.takes_string path) rfl) ?_, rfl⟩
  exact List.forall_mem_singleton.mpr fun _ => rfl

theorem fits_closed (path : Option String) :
    (variants.get ⟨1, by decide⟩).Fits
      [.of "path" (.optionalString path) (fun p _ => .closed p) path] (.closed path) := by
  refine ⟨_, rfl,
    Record.fits_singleton (Record.knows_of (Decoder.takes_optionalString path) rfl) ?_, rfl⟩
  exact List.forall_mem_singleton.mpr fun _ => rfl

/-- **Every document of a link status is taken as that status.** -/
theorem takes_reordered {status : LinkStatus} {doc : Json} (h : Reordered status.toJson doc) :
    decoder.Takes doc status := by
  cases status with
  | opened path =>
    obtain ⟨state, content, fields, hstate, hcontent, rfl, hperm⟩ := h.pair
    rw [hstate.string_eq, hcontent.string_eq] at hperm
    exact Decoder.takes_taggedInside rfl (by simp [Entry.field, Entry.of])
      (fun _ h => (fits_opened path).ofFields h) _ hperm
  | closed path =>
    obtain ⟨state, content, fields, hstate, hcontent, rfl, hperm⟩ := h.pair
    rw [hstate.string_eq, hcontent.optionalString_eq] at hperm
    exact Decoder.takes_taggedInside rfl (by simp [Entry.field, Entry.of])
      (fun _ h => (fits_closed path).ofFields h) _ hperm

theorem plain_toJson (status : LinkStatus) (levels : Nat) : Plain (levels + 1) status.toJson := by
  rcases status with path | (_ | path) <;> simp [toJson, optionalString, Plain]

end LinkStatus

namespace Event

/-- **Every document of an event is taken as that event.** -/
theorem takes_reordered {event : Event} {doc : Json} (h : Reordered event.toJson doc) :
    decoder.Takes doc event := by
  cases event with
  | log text =>
    obtain ⟨kind, content, fields, hkind, hcontent, rfl, hperm⟩ := h.pair
    rw [hkind.string_eq, hcontent.string_eq] at hperm
    exact Decoder.takes_taggedBeside (by decide) rfl ((Decoder.takes_string text).map _) _ hperm
  | link status =>
    obtain ⟨kind, content, fields, hkind, hcontent, rfl, hperm⟩ := h.pair
    rw [hkind.string_eq] at hperm
    exact Decoder.takes_taggedBeside (by decide) rfl
      ((LinkStatus.takes_reordered hcontent).map _) _ hperm

theorem plain_toJson (event : Event) : Plain maxLevels event.toJson := by
  cases event with
  | log text => exact plain_object.mpr (by simp [Plain])
  | link status => exact plain_object.mpr (by simp [Plain, LinkStatus.plain_toJson])

theorem parse_reordered {event : Event} {doc : Json} (h : Reordered event.toJson doc) :
    decoder.parse doc.compact = .ok event :=
  (takes_reordered h).parse (isText_compact (h.plain (plain_toJson event)))

end Event

/-- **Requests and events are read back from their documents.**  The console takes the compact
text of a request as that request, also with its fields in another order, its kind by the
second name, or a missing file name left out; and an event is read back from its compact text,
also with the fields of any object in it in another order. -/
theorem documents_read_back :
    (∀ (r : Request) (doc : Json), Request.Rewording r.toJson doc →
      ConsoleInput.parse doc.compact = .ok (some (.request r))) ∧
    ∀ (event : Event) (doc : Json), Json.Reordered event.toJson doc →
      Event.decoder.parse doc.compact = .ok event :=
  ⟨fun _ _ h => h.parse, fun _ _ h => Event.parse_reordered h⟩

/-- An upload without a file name, its text before its kind and the kind by the second name; and
a closed link, all its fields turned round. -/
theorem documents_read_back_turned_round :
    Request.Rewording (Request.sendBulk none "\"\n").toJson
        (.object [("data", .string "\"\n"), ("event", .string "send_bulk_text")]) ∧
    ConsoleInput.parse
        (Json.object [("data", .string "\"\n"), ("event", .string "send_bulk_text")]).compact =
      .ok (some (.request (.sendBulk none "\"\n"))) ∧
    Json.Reordered (Event.link (.closed none)).toJson
        (.object [("data", .object [("path", .null), ("state", .string "closed")]),
          ("event", .string "link_status")]) ∧
    Event.decoder.parse
        (Json.object [("data", .object [("path", .null), ("state", .string "closed")]),
          ("event", .string "link_status")]).compact =
      .ok (.link (.closed none)) := by
  have hshort : Request.Rewording (Request.sendBulk none "\"\n").toJson
      (.object [("event", .string "send_bulk"), ("data", .string "\"\n")]) :=
    @Request.Rewording.shortened _ [_] _ .same
  have hrenamed : Request.Rewording (Request.sendBulk none "\"\n").toJson
      (.object [("event", .string "send_bulk_text"), ("data", .string "\"\n")]) :=
    @Request.Rewording.renamed _ [] _ _ _ hshort List.mem_cons_self
  have hrequest : Request.Rewording (Request.sendBulk none "\"\n").toJson
      (.object [("data", .string "\"\n"), ("event", .string "send_bulk_text")]) :=
    .reordered hrenamed (List.Perm.swap _ _ _)
  have hstatus : Json.Reordered (LinkStatus.closed none).toJson
      (.object [("path", .null), ("state", .string "closed")]) :=
    .object (.same _) (List.Perm.swap _ _ _)
  have hevent : Json.Reordered (Event.link (.closed none)).toJson
      (.object [("data", .object [("path", .null), ("state", .string "closed")]),
        ("event", .string "link_status")]) :=
    .object (.cons (.same _) (.cons hstatus .nil)) (List.Perm.swap _ _ _)
  exact ⟨hrequest, documents_read_back.1 _ _ hrequest, hevent,
    documents_read_back.2 (.link (.closed none)) _ hevent⟩

end SerialBridge
