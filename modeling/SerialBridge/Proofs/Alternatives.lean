import Mathlib.Data.List.Permutation
import SerialBridge.Json.Tagged
import SerialBridge.Proofs.Decoding

/-! # Documents of tagged alternatives

A document of a tagged alternative is taken as the alternative its tag names, wherever the tag
stands.

With the tag inside, the other fields are kept as documents until the tag is known.  The reader
of a text splits the fields as they are split in memory (`readTagged_of_splitTag`), and the split
takes the tag out of the place where it stands (`splitTag_eq`).  What is left are the fields of
the alternative in the order they had, which is why the alternative must take them in any order
(`takes_taggedInside`).

With the tag beside, an object has two fields that count, in either order.  If the tag comes first
the content is read as it stands, and otherwise it is kept as a document; a decoder that takes a
document takes it both ways (`takes_taggedBeside`).
-/

namespace SerialBridge.Json

/-! ## The tag inside -/

/-- The alternative has fields, and these entries make it the value in any order. -/
def Variant.Fits (v : Variant α) (entries : List (Entry α)) (x : α) : Prop :=
  ∃ r, v.body = .inr r ∧ r.Fits entries ∧ Entry.apply entries r.start = x

theorem Variant.Fits.ofFields {v : Variant α} {entries : List (Entry α)} {x : α}
    (h : v.Fits entries x) {fields : List (String × Json)}
    (hfields : fields.Perm (entries.map Entry.field)) : v.ofFields fields = .ok x := by
  obtain ⟨r, hbody, hfits, rfl⟩ := h
  rw [Variant.ofFields, hbody]
  exact hfits.takeFields hfields

namespace Decoder

section Inside

variable {tag name : String} {variants : List (Variant α)} {v : Variant α}

theorem splitTag_cons_tag (doc : Json) (fields : List (String × Json)) :
    splitTag tag variants none ((tag, doc) :: fields) =
      (tagOfJson variants doc >>= fun v => splitTag tag variants (some v) fields) := by
  simp [splitTag]

theorem splitTag_cons_tag_again (doc : Json) (fields : List (String × Json)) :
    splitTag tag variants (some v) ((tag, doc) :: fields) = .error (.duplicateField tag) := by
  simp [splitTag]

theorem splitTag_cons_other {label : String} (h : label ≠ tag) (found : Option (Variant α))
    (doc : Json) (fields : List (String × Json)) :
    splitTag tag variants found ((label, doc) :: fields) =
      (splitTag tag variants found fields >>=
        fun (v, others) => .ok (v, (label, doc) :: others)) := by
  cases found <;> simp [splitTag, h]

theorem splitTag_found {fields : List (String × Json)} (h : tag ∉ fields.map Prod.fst) :
    splitTag tag variants (some v) fields = .ok (v, fields) := by
  induction fields with
  | nil => rfl
  | cons field fields ih =>
    rw [List.map_cons, List.mem_cons, not_or] at h
    rw [splitTag_cons_other (Ne.symm h.1), ih h.2, ok_bind]

/-- **The tag is found wherever it stands**, and the other fields keep their order. -/
theorem splitTag_eq (hname : (Variant.options variants).lookup name = some v)
    {front back : List (String × Json)} (hfront : tag ∉ front.map Prod.fst)
    (hback : tag ∉ back.map Prod.fst) :
    splitTag tag variants none (front ++ (tag, .string name) :: back) = .ok (v, front ++ back) := by
  induction front with
  | nil =>
    rw [List.nil_append, splitTag_cons_tag, tagOfJson, choose_ok hname, ok_bind,
      splitTag_found hback]
    rfl
  | cons field front ih =>
    rw [List.map_cons, List.mem_cons, not_or] at hfront
    rw [List.cons_append, splitTag_cons_other (Ne.symm hfront.1), ih hfront.2, ok_bind]
    rfl

/-- The fields of a text are split as they are in memory, behind fields that were read before. -/
theorem readTagged_of_splitTag {levels : Nat} {first : Bool} {fields : List (String × Json)}
    {cs : List Char} (htext : Series (FieldText (Spelled levels)) first fields cs)
    {found : Option (Variant α)} {others : List (String × Json)}
    (hsplit : splitTag tag variants found fields = .ok (v, others))
    (htag : ∀ field ∈ fields, field.1 = tag → ∃ s, field.2 = .string s)
    {n : Nat} (hn : fields.length < n) (before : List (String × Json)) (rest : List Char) :
    ∃ gap, Blanks gap ∧ readTagged tag variants levels n first found before (cs ++ '\x7d' :: rest) =
      .ok ((v, before.reverse ++ others), gap ++ '\x7d' :: rest) := by
  induction fields generalizing first cs found others n before with
  | nil =>
    obtain ⟨n, rfl⟩ := Nat.exists_eq_succ_of_ne_zero (Nat.ne_of_gt hn)
    refine ⟨cs, htext.blanks, ?_⟩
    cases found with
    | none => cases hsplit
    | some v =>
      cases hsplit
      simp only [readTagged, nextField_end htext.blanks, ok_bind, List.append_nil]
  | cons field fields ih =>
    obtain ⟨n, rfl⟩ := Nat.exists_eq_succ_of_ne_zero (Nat.ne_of_gt (Nat.zero_lt_of_lt hn))
    have hless := Nat.lt_of_succ_lt_succ hn
    obtain ⟨hstring, hstrings⟩ := List.forall_mem_cons.mp htag
    obtain ⟨label, doc⟩ := field
    obtain ⟨named, colon, value, more, hnext, hlabel, hcolon, hmore, hread⟩ :=
      nextField_series htext rest
    simp only [readTagged, hnext, hlabel, ok_bind]
    by_cases hlabelled : label = tag
    · subst hlabelled
      rw [if_pos (beq_self_eq_true label)]
      cases found with
      | some v =>
        rw [splitTag_cons_tag_again] at hsplit
        cases hsplit
      | none =>
        obtain ⟨s, rfl⟩ := hstring rfl
        rw [splitTag_cons_tag, tagOfJson] at hsplit
        cases hchoose : choose (Variant.options variants) s with
        | error e =>
          rw [hchoose] at hsplit
          cases hsplit
        | ok w =>
          rw [hchoose, ok_bind] at hsplit
          have htake := takes_checkedString hchoose "variant identifier"
          obtain ⟨last, hlast, hothers⟩ := ih hmore hsplit hstrings hless before
          refine ⟨last, hlast, ?_⟩
          simp only [hcolon, identifier, hread _ _ _ (htake.read levels), hothers, ok_bind]
    · rw [if_neg (by simpa using hlabelled)]
      rw [splitTag_cons_other hlabelled] at hsplit
      cases hremain : splitTag tag variants found fields with
      | error e =>
        rw [hremain] at hsplit
        cases hsplit
      | ok split =>
        rw [hremain, ok_bind] at hsplit
        obtain ⟨w, remaining⟩ := split
        cases hsplit
        obtain ⟨last, hlast, hothers⟩ := ih hmore hremain hstrings hless ((label, doc) :: before)
        refine ⟨last, hlast, ?_⟩
        simp only [hcolon, hread _ _ _ (readValue_spelled levels doc), hothers, ok_bind]
        simp

/-- **An alternative with its tag inside is taken**, whatever the order of the fields and of the
tag among them, if it takes its own fields in any order. -/
theorem takes_taggedInside (hname : (Variant.options variants).lookup name = some v)
    {others : List (String × Json)} (htag : tag ∉ others.map Prod.fst) {x : α}
    (hbody : ∀ fields : List (String × Json), fields.Perm others → v.ofFields fields = .ok x)
    (wanted : String) {fields : List (String × Json)}
    (hfields : fields.Perm ((tag, .string name) :: others)) :
    (taggedInside wanted tag variants).Takes (.object fields) x := by
  obtain ⟨front, back, rfl⟩ := List.append_of_mem (hfields.mem_iff.mpr List.mem_cons_self)
  have hothers : (front ++ back).Perm others := (List.perm_middle.symm.trans hfields).cons_inv
  have hnot : tag ∉ (front ++ back).map Prod.fst := fun h => htag ((hothers.map _).mem_iff.mp h)
  rw [List.map_append, List.mem_append, not_or] at hnot
  have hsplit := splitTag_eq hname hnot.1 hnot.2
  have hstring : ∀ field ∈ front ++ (tag, .string name) :: back, field.1 = tag →
      ∃ s, field.2 = .string s := by
    intro field hfield hlabel
    rcases List.mem_cons.mp (List.perm_middle.mem_iff.mp hfield) with rfl | hother
    · exact ⟨name, rfl⟩
    · have hmem := List.mem_map_of_mem (f := Prod.fst) (hothers.mem_iff.mp hother)
      rw [hlabel] at hmem
      exact absurd hmem htag
  refine ⟨fun levels gap cs rest hgap hcs hrest => ?_, ?_⟩
  · simp only [taggedInside, hcs.skipSpace_eq hgap]
    obtain ⟨n, inner, rfl, hinner, rfl⟩ := hcs.exists_fields
    obtain ⟨last, hlast, hread⟩ :=
      readTagged_of_splitTag hinner hsplit hstring (hinner.fields_lt rest) [] rest
    rw [bracket_append]
    simp only [hread, closeObject_gap hlast, ok_bind, List.reverse_nil, List.nil_append,
      hbody _ hothers]
  · simp only [taggedInside, hsplit, ok_bind, hbody _ hothers]

end Inside

/-! ## The tag beside -/

section Beside

variable {tag content : String}

/-- The name of a field that counts. -/
def Part.name (tag content : String) : Part → String
  | .tag => tag
  | .content => content

variable {levels : Nat} {first : Bool} {cs : List Char}

theorem nextPart_end (h : Blanks cs) (n : Nat) (rest : List Char) :
    nextPart tag content (n + 1) first (cs ++ '\x7d' :: rest) =
      .ok (none, cs ++ '\x7d' :: rest) := by
  rw [nextPart, nextField_end h, ok_bind]

/-- The step to a field that counts. -/
theorem nextPart_series (hne : tag ≠ content) (part : Part) {doc : Json}
    {fields : List (String × Json)}
    (h : Series (FieldText (Spelled levels)) first ((part.name tag content, doc) :: fields) cs)
    (n : Nat) (rest : List Char) :
    ∃ colon value more,
      nextPart tag content (n + 1) first (cs ++ '\x7d' :: rest) = .ok (some part, colon) ∧
      readColon colon = .ok value ∧
      Series (FieldText (Spelled levels)) false fields more ∧
      ∀ (β : Type) (reader : Reader β) (x : β), Reads reader (Spelled levels doc) x →
        reader value = .ok (x, more ++ '\x7d' :: rest) := by
  obtain ⟨named, colon, value, more, hnext, hlabel, hcolon, hmore, hread⟩ := nextField_series h rest
  refine ⟨colon, value, more, ?_, hcolon, hmore, hread⟩
  rw [nextPart, hnext, ok_bind]
  simp only [hlabel, ok_bind]
  cases part with
  | tag => simp [Part.name]
  | content => simp [Part.name, Ne.symm hne]

theorem noFurther_end (h : Blanks cs) (n : Nat) (x : α) (rest : List Char) :
    noFurther tag content (n + 1) x (cs ++ '\x7d' :: rest) = .ok (x, cs ++ '\x7d' :: rest) := by
  rw [noFurther, nextPart_end h, ok_bind]

variable {name : String} {options : List (String × Decoder α)} {d : Decoder α} {doc : Json} {x : α}

/-- The tag comes first: the content is read as it stands. -/
theorem readBeside_tag_first (hne : tag ≠ content) (hname : options.lookup name = some d)
    (hd : d.Takes doc x)
    (h : Series (FieldText (Spelled levels)) true [(tag, .string name), (content, doc)] cs)
    (rest : List Char) :
    ∃ gap, Blanks gap ∧
      readBeside tag content options levels (cs ++ '\x7d' :: rest) =
        .ok (x, gap ++ '\x7d' :: rest) := by
  obtain ⟨colon, value, more, hnext, hcolon, hmore, hread⟩ :=
    nextPart_series hne .tag h (cs ++ '\x7d' :: rest).length rest
  obtain ⟨colon', value', last, hnext', hcolon', hlast, hread'⟩ :=
    nextPart_series hne .content hmore (cs ++ '\x7d' :: rest).length rest
  refine ⟨last, hlast.blanks, ?_⟩
  simp only [readBeside, hnext, hcolon, hread _ _ _ ((takes_choice hname).read levels), hnext',
    hcolon', hread' _ _ _ (hd.read levels), noFurther_end hlast.blanks, ok_bind]

/-- The content comes first: it is kept as a document until the tag is known. -/
theorem readBeside_content_first (hne : tag ≠ content) (hname : options.lookup name = some d)
    (hd : d.Takes doc x)
    (h : Series (FieldText (Spelled levels)) true [(content, doc), (tag, .string name)] cs)
    (rest : List Char) :
    ∃ gap, Blanks gap ∧
      readBeside tag content options levels (cs ++ '\x7d' :: rest) =
        .ok (x, gap ++ '\x7d' :: rest) := by
  obtain ⟨colon, value, more, hnext, hcolon, hmore, hread⟩ :=
    nextPart_series hne .content h (cs ++ '\x7d' :: rest).length rest
  obtain ⟨colon', value', last, hnext', hcolon', hlast, hread'⟩ :=
    nextPart_series hne .tag hmore (cs ++ '\x7d' :: rest).length rest
  refine ⟨last, hlast.blanks, ?_⟩
  simp only [readBeside, hnext, hcolon, hread _ _ _ (readValue_spelled levels doc), hnext',
    hcolon', hread' _ _ _ ((takes_choice hname).read levels), hd.ofJson, noFurther_end hlast.blanks,
    ok_bind]

/-- **An alternative with its tag beside its content is taken**, whichever of the two comes
first. -/
theorem takes_taggedBeside (hne : tag ≠ content) (hname : options.lookup name = some d)
    (hd : d.Takes doc x) (wanted : String) {fields : List (String × Json)}
    (hfields : fields.Perm [(tag, .string name), (content, doc)]) :
    (taggedBeside wanted tag content options).Takes (.object fields) x := by
  have horder := List.perm_pair.mp hfields
  refine ⟨fun levels gap cs rest hgap hcs hrest => ?_, ?_⟩
  · simp only [taggedBeside, hcs.skipSpace_eq hgap]
    obtain ⟨n, inner, rfl, hinner, rfl⟩ := hcs.exists_fields
    obtain ⟨last, hlast, hread⟩ : ∃ gap, Blanks gap ∧
        readBeside tag content options n (inner ++ '\x7d' :: rest) =
          .ok (x, gap ++ '\x7d' :: rest) := by
      rcases horder with rfl | rfl
      · exact readBeside_tag_first hne hname hd hinner rest
      · exact readBeside_content_first hne hname hd hinner rest
    rw [bracket_append]
    simp only [hread, closeObject_gap hlast, ok_bind]
  · have hchoice := (takes_choice hname).ofJson
    have hlookup : fields.lookup tag = some (.string name) ∧ fields.lookup content = some doc := by
      rcases horder with rfl | rfl
      · simp [List.lookup_cons, beq_eq_false_iff_ne.mpr (Ne.symm hne)]
      · simp [List.lookup_cons, beq_eq_false_iff_ne.mpr hne]
    simp only [taggedBeside, hlookup.1, hlookup.2, hchoice, ok_bind, hd.ofJson]

end Beside

end Decoder

end SerialBridge.Json
