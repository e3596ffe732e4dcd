import Mathlib.Data.List.Nodup
import Mathlib.Data.List.Perm.Basic
import SerialBridge.Json.Decoder
import SerialBridge.Proofs.Spelling

/-! # Documents that a decoder takes

A decoder takes a document as a value if it reads every text of the document as that value and
makes the same value of the document in memory (`Decoder.Takes`).  Each kind of decoder takes
what it was made for: strings, numbers of so many bits, lists, choices.

A record is taken field by field.  Each field of the document is an *entry*, which says what its
value does to the record (`Entry`).  A record goes on accepting entries as long as it knows them,
none comes twice and none that it would miss is left out (`Record.Accepts`); this is kept from
one field to the next, so the text is read to its end and the object in memory is taken to its
end (`Accepts.readFields`, `Accepts.takeFields`).

The order of the fields is then of no account where the changes commute (`Fits.takes`): fields in
another order are the entries in another order, and commuting changes come to the same in any
order.
-/

namespace SerialBridge.Json

/-- The decoder reads every text of the document, and the document in memory, as the value. -/
structure Decoder.Takes (d : Decoder α) (doc : Json) (x : α) : Prop where
  read : ∀ levels, Reads (d.read levels) (Spelled levels doc) x
  ofJson : d.ofJson doc = .ok x

namespace Decoder

theorem skipSpace_of_blanks {gap : List Char} (h : Blanks gap) : skipSpace gap = [] := by
  have := skipSpace_gap h []
  rwa [List.append_nil] at this

/-- **A whole text of the document is read as the value.** -/
theorem Takes.parse {d : Decoder α} {doc : Json} {x : α} (h : d.Takes doc x) {text : String}
    (htext : doc.IsText text) : d.parse text = .ok x := by
  obtain ⟨before, cs, after, hbefore, hcs, hafter, heq⟩ := htext
  have hends := endsValue_gap hafter endsValue_nil
  rw [List.append_nil] at hends
  rw [Decoder.parse, heq, h.read maxLevels before cs after hbefore hcs hends, ok_bind]
  simp only [skipSpace_of_blanks hafter, List.isEmpty_nil, if_true]

/-! ## Simple values -/

theorem Takes.map {d : Decoder α} {doc : Json} {x : α} (h : d.Takes doc x) (f : α → β) :
    (d.map f).Takes doc (f x) where
  read levels gap cs rest hgap hcs hrest := by
    simp only [Decoder.map, h.read levels gap cs rest hgap hcs hrest, ok_bind]
  ofJson := by
    simp only [Decoder.map, h.ofJson]
    rfl

theorem takes_checkedString {check : String → Except Error α} {s : String} {x : α}
    (h : check s = .ok x) (wanted : String) : (checkedString wanted check).Takes (.string s) x where
  read levels gap cs rest hgap hcs hrest := by
    simp only [checkedString, hcs.skipSpace_eq hgap]
    simp only [Spelled] at hcs
    subst hcs
    simp only [writeString_append, readString_writeString, ok_bind, h]
  ofJson := h

theorem takes_string (s : String) : string.Takes (.string s) s :=
  takes_checkedString rfl "a string"

theorem takes_optional_null (d : Decoder α) : (optional d).Takes .null none where
  read levels gap cs rest hgap hcs hrest := by
    simp only [optional, hcs.skipSpace_eq hgap]
    simp only [Spelled] at hcs
    subst hcs
    rfl
  ofJson := rfl

theorem takes_optional_string {d : Decoder α} {s : String} {x : α} (h : d.Takes (.string s) x) :
    (optional d).Takes (.string s) (some x) where
  read levels gap cs rest hgap hcs hrest := by
    have hread := h.read levels [] cs rest blanks_nil hcs hrest
    simp only [optional, hcs.skipSpace_eq hgap]
    simp only [Spelled] at hcs
    subst hcs
    rw [List.nil_append] at hread
    simp only [writeString_append] at hread ⊢
    -- a quote does not begin `null`
    show (d.read levels _ >>= fun p => .ok (some p.1, p.2)) = _
    rw [hread, ok_bind]
  ofJson := by
    simp only [optional, h.ofJson]
    rfl

theorem takes_optionalString (s : Option String) :
    (optional string).Takes (optionalString s) s := by
  cases s with
  | none => exact takes_optional_null string
  | some s => exact takes_optional_string (takes_string s)

/-- Natural numbers below a limit of at most 64 bits. -/
theorem takes_natural {limit n : Nat} (hn : n < limit) (wanted : String) :
    (natural limit wanted).Takes (.nat n) n where
  read levels gap cs rest hgap hcs hrest := by
    simp only [natural, hcs.skipSpace_eq hgap]
    simp only [nat, Spelled] at hcs
    obtain ⟨hword, rfl⟩ := hcs
    have hread := readNumber_toString hword hrest
    have hcheck : checkNatural limit wanted (.integer n) = .ok n := by
      simp [checkNatural, hn]
    obtain ⟨c, more, hcs, hc⟩ := exists_toString_eq n
    rw [hcs, List.cons_append] at hread ⊢
    simp only [hc, if_true, hread, hcheck, ok_bind]
  ofJson := by
    simp [natural, nat, checkNatural, hn]

theorem takes_uint32 (v : UInt32) : uint32.Takes (.nat v.toNat) v := by
  have h := (takes_natural v.toNat_lt "u32").map UInt32.ofNat
  rwa [UInt32.ofNat_toNat] at h

theorem takes_uint64 (v : UInt64) : uint64.Takes (.nat v.toNat) v := by
  have h := (takes_natural v.toNat_lt "u64").map UInt64.ofNat
  rwa [UInt64.ofNat_toNat] at h

theorem takes_size (v : UInt64) : size.Takes (.nat v.toNat) v := by
  have h := (takes_natural v.toNat_lt "usize").map UInt64.ofNat
  rwa [UInt64.ofNat_toNat] at h

theorem mapM_of_forall₂ {f : α → Except Error β} {xs : List α} {ys : List β}
    (h : List.Forall₂ (fun x y => f x = .ok y) xs ys) : xs.mapM f = .ok ys := by
  induction h with
  | nil => rfl
  | cons hx _ ih => 
    rw [List.mapM_cons, hx, ok_bind, ih]
    rfl

theorem takes_list {d : Decoder α} {docs : List Json} {xs : List α}
    (h : List.Forall₂ d.Takes docs xs) : (list d).Takes (.array docs) xs where
  read levels gap cs rest hgap hcs hrest := by
    simp only [list, hcs.skipSpace_eq hgap]
    obtain ⟨n, inner, rfl, hinner, rfl⟩ := hcs.exists_items
    obtain ⟨last, hlast, hread⟩ := readItems_series (h.imp fun doc x hx => hx.read n) hinner
      (hinner.items_lt rest) rest
    rw [bracket_append]
    simp only [hread, closeList_gap hlast, ok_bind]
  ofJson := mapM_of_forall₂ (h.imp fun doc x hx => hx.ofJson)

theorem choose_ok {options : List (String × α)} {name : String} {x : α}
    (h : options.lookup name = some x) : choose options name = .ok x := by
  rw [choose, h]

/-- A bare name is read as the alternative of that name. -/
theorem takes_choice {options : List (String × α)} {name : String} {x : α}
    (h : options.lookup name = some x) : (choice options).Takes (.string name) x where
  read levels gap cs rest hgap hcs hrest := by
    have hread := (takes_checkedString (choose_ok h) "variant identifier").read levels [] cs rest
      blanks_nil hcs hrest
    simp only [choice, alternative, hcs.skipSpace_eq hgap]
    simp only [Spelled] at hcs
    subst hcs
    rw [List.nil_append] at hread
    simp only [writeString_append] at hread ⊢
    simp only [identifier, hread, ok_bind]
  ofJson := by
    simp only [choice, alternative, choose_ok h, ok_bind]

end Decoder

/-! ## Records -/

/-- A field of an object, and what its value does to the record it is read into. -/
structure Entry (α : Type) where
  /-- The name in the document. -/
  name : String
  /-- The value in the document. -/
  doc : Json
  /-- What the value does to the record. -/
  change : α → α

namespace Entry

/-- The entry of a field whose value is stored by a function. -/
def of (name : String) (doc : Json) (set : β → α → α) (x : β) : Entry α :=
  ⟨name, doc, set x⟩

/-- The entry as a field of the object. -/
def field (e : Entry α) : String × Json :=
  (e.name, e.doc)

/-- The record after some entries. -/
def apply (entries : List (Entry α)) (x : α) : α :=
  entries.foldl (fun x e => e.change x) x

end Entry

namespace Record

variable {r : Record α} {seen : List String} {entries : List (Entry α)}

/-- The record has a field of the entry's name, which takes its document as its change. -/
def Knows (r : Record α) (e : Entry α) : Prop :=
  ∃ f, r.fields.find? (·.name == e.name) = some f ∧ f.change.Takes e.doc e.change

theorem knows_of {d : Decoder β} {doc : Json} {x : β} (hd : d.Takes doc x) {name : String}
    {set : β → α → α} {absence : Absence}
    (hfind : r.fields.find? (·.name == name) = some (.of name d set absence)) :
    r.Knows (.of name doc set x) :=
  ⟨_, hfind, hd.map set⟩

/-- Behind fields of the names `seen`, the record takes these entries and then the end of the
object: it knows each of them, none comes twice, and none that would be missed is left out. -/
structure Accepts (r : Record α) (seen : List String) (entries : List (Entry α)) : Prop where
  known : ∀ e ∈ entries, r.Knows e
  fresh : (entries.map Entry.name ++ seen).Nodup
  complete : ∀ f ∈ r.fields, f.absence = .refused → f.name ∈ entries.map Entry.name ++ seen

theorem checkPresent_ok {fields : List (Field α)}
    (h : ∀ f ∈ fields, f.absence = .refused → f.name ∈ seen) :
    checkPresent seen fields = .ok () := by
  induction fields with
  | nil => rfl
  | cons f fields ih =>
    obtain ⟨hf, hfields⟩ := List.forall_mem_cons.mp h
    rw [checkPresent, if_neg, ih hfields]
    rintro ⟨habsence, hmissing⟩
    simp [hf habsence] at hmissing

theorem Accepts.checkPresent (h : r.Accepts seen []) : checkPresent seen r.fields = .ok () :=
  checkPresent_ok h.complete

/-- What is accepted behind an entry, once it is taken. -/
theorem Accepts.next {e : Entry α} (h : r.Accepts seen (e :: entries)) :
    r.Accepts (e.name :: seen) entries where
  known e' he' := h.known e' (List.mem_cons_of_mem e he')
  fresh := List.nodup_middle.mpr h.fresh
  complete f hf habsence := List.perm_middle.mem_iff.mpr (h.complete f hf habsence)

theorem Accepts.not_seen {e : Entry α} (h : r.Accepts seen (e :: entries)) :
    seen.contains e.name = false := by
  have hfresh : e.name ∉ entries.map Entry.name ++ seen := (List.nodup_cons.mp h.fresh).1
  simpa using fun hseen => hfresh (List.mem_append_right _ hseen)

theorem Accepts.perm {others : List (Entry α)} (h : r.Accepts seen entries)
    (hperm : others.Perm entries) : r.Accepts seen others where
  known e he := h.known e (hperm.mem_iff.mp he)
  fresh := ((hperm.map Entry.name).append_right seen).nodup_iff.mpr h.fresh
  complete f hf habsence :=
    ((hperm.map Entry.name).append_right seen).mem_iff.mpr (h.complete f hf habsence)

/-- **Accepted fields are taken out of an object in memory**, one change after another. -/
theorem Accepts.takeFields (h : r.Accepts seen entries) (x : α) :
    r.takeFields seen x (entries.map Entry.field) = .ok (Entry.apply entries x) := by
  induction entries generalizing seen x with
  | nil =>
    rw [List.map_nil, Record.takeFields, h.checkPresent, ok_bind]
    rfl
  | cons e entries ih =>
    obtain ⟨f, hfind, htakes⟩ := h.known e List.mem_cons_self
    rw [List.map_cons, Entry.field, Record.takeFields]
    simp only [hfind, h.not_seen, Bool.false_eq_true, if_false, htakes.ofJson, ok_bind]
    exact ih h.next (e.change x)

/-- **Accepted fields are read off a text**, one change after another, up to the end of the
object. -/
theorem Accepts.readFields (h : r.Accepts seen entries) {levels : Nat} {first : Bool}
    {cs : List Char}
    (htext : Series (FieldText (Spelled levels)) first (entries.map Entry.field) cs) {n : Nat}
    (hn : entries.length < n) (x : α) (rest : List Char) :
    ∃ gap, Blanks gap ∧ r.readFields levels n first seen x (cs ++ '\x7d' :: rest) =
      .ok (Entry.apply entries x, gap ++ '\x7d' :: rest) := by
  induction entries generalizing seen first cs n x with
  | nil =>
    obtain ⟨n, rfl⟩ := Nat.exists_eq_succ_of_ne_zero (Nat.ne_of_gt hn)
    refine ⟨cs, htext.blanks, ?_⟩
    rw [Record.readFields, nextField_end htext.blanks, ok_bind, h.checkPresent]
    rfl
  | cons e entries ih =>
    obtain ⟨n, rfl⟩ := Nat.exists_eq_succ_of_ne_zero (Nat.ne_of_gt (Nat.zero_lt_of_lt hn))
    obtain ⟨f, hfind, htakes⟩ := h.known e List.mem_cons_self
    obtain ⟨named, colon, value, more, hnext, hname, hcolon, hmore, hread⟩ :=
      nextField_series htext rest
    obtain ⟨last, hlast, hothers⟩ := ih h.next hmore (Nat.lt_of_succ_lt_succ hn) (e.change x)
    refine ⟨last, hlast, ?_⟩
    rw [Record.readFields, hnext, ok_bind]
    simp only [hname, hfind, h.not_seen, hcolon, hread _ _ _ (htakes.read levels), hothers, ok_bind,
      Bool.false_eq_true, if_false]
    rfl

/-- The record can be read from these entries in any order. -/
structure Fits (r : Record α) (entries : List (Entry α)) : Prop where
  known : ∀ e ∈ entries, r.Knows e
  distinct : (entries.map Entry.name).Nodup
  complete : ∀ f ∈ r.fields, f.absence = .refused → f.name ∈ entries.map Entry.name
  commute : ∀ a ∈ entries, ∀ b ∈ entries, ∀ x, b.change (a.change x) = a.change (b.change x)

theorem Fits.accepts (h : r.Fits entries) : r.Accepts [] entries where
  known := h.known
  fresh := (List.append_nil (entries.map Entry.name)).symm ▸ h.distinct
  complete := (List.append_nil (entries.map Entry.name)).symm ▸ h.complete

/-- Entries that would not be missed can be left out. -/
theorem Fits.sublist (h : r.Fits entries) {others : List (Entry α)}
    (hothers : others.Sublist entries)
    (hcomplete : ∀ f ∈ r.fields, f.absence = .refused → f.name ∈ others.map Entry.name) :
    r.Fits others where
  known e he := h.known e (hothers.subset he)
  distinct := h.distinct.sublist (hothers.map Entry.name)
  complete := hcomplete
  commute a ha b hb := h.commute a (hothers.subset ha) b (hothers.subset hb)

theorem fits_singleton {e : Entry α} (hknown : r.Knows e)
    (hcomplete : ∀ f ∈ r.fields, f.absence = .refused → f.name = e.name) : r.Fits [e] where
  known := List.forall_mem_singleton.mpr hknown
  distinct := List.nodup_singleton e.name
  complete f hf habsence := List.mem_singleton.mpr (hcomplete f hf habsence)
  commute a ha b hb x := by rw [List.mem_singleton.mp ha, List.mem_singleton.mp hb]

/-- Fields that are those of some entries in another order are those of the entries in another
order. -/
theorem exists_entries {fields : List (String × Json)} (h : fields.Perm (entries.map Entry.field)) :
    ∃ others : List (Entry α), others.Perm entries ∧ fields = others.map Entry.field := by
  have hpair : List.Forall₂ (fun f e => f = Entry.field e) (entries.map Entry.field) entries :=
    List.forall₂_map_left_iff.mpr (List.forall₂_same.mpr fun _ _ => rfl)
  obtain ⟨others, hothers, hperm⟩ := List.perm_comp_forall₂ h hpair
  rw [← List.forall₂_map_right_iff, List.forall₂_eq_eq_eq] at hothers
  exact ⟨others, hperm, hothers⟩

theorem Fits.apply_eq (h : r.Fits entries) {others : List (Entry α)} (hperm : others.Perm entries)
    (x : α) : Entry.apply others x = Entry.apply entries x :=
  hperm.foldl_eq' (fun a ha b hb x => h.commute a (hperm.mem_iff.mp ha) b (hperm.mem_iff.mp hb) x) x

/-- **An object of the entries is taken out of memory**, whatever the order of its fields. -/
theorem Fits.takeFields (h : r.Fits entries) {fields : List (String × Json)}
    (hfields : fields.Perm (entries.map Entry.field)) :
    r.takeFields [] r.start fields = .ok (Entry.apply entries r.start) := by
  obtain ⟨others, hperm, rfl⟩ := exists_entries hfields
  rw [(h.accepts.perm hperm).takeFields, h.apply_eq hperm]

/-- **An object of the entries is taken as the record they make**, whatever the order of its
fields. -/
theorem Fits.takes (h : r.Fits entries) {fields : List (String × Json)}
    (hfields : fields.Perm (entries.map Entry.field)) :
    r.decoder.Takes (.object fields) (Entry.apply entries r.start) where
  read levels gap cs rest hgap hcs hrest := by
    simp only [decoder, hcs.skipSpace_eq hgap]
    obtain ⟨n, inner, rfl, hinner, rfl⟩ := hcs.exists_fields
    have hlen := hinner.fields_lt rest
    obtain ⟨others, hperm, rfl⟩ := exists_entries hfields
    rw [List.length_map] at hlen
    obtain ⟨last, hlast, hread⟩ := (h.accepts.perm hperm).readFields hinner hlen r.start rest
    rw [bracket_append]
    simp only [hread, closeObject_gap hlast, ok_bind, h.apply_eq hperm]
  ofJson := h.takeFields hfields

/-- The entries that are left of a record none of whose fields is missed. -/
theorem Fits.filter (h : r.Fits entries) (hallowed : ∀ f ∈ r.fields, f.absence ≠ .refused)
    (kept : String → Bool) : r.Fits (entries.filter fun e => kept e.name) :=
  h.sublist List.filter_sublist fun f hf habsence => absurd habsence (hallowed f hf)

end Record

end SerialBridge.Json
