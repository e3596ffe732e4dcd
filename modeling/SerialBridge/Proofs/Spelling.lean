import Mathlib.Data.List.Forall2
import SerialBridge.Proofs.Literals

/-! # Texts of a document

A document has many texts: blanks may stand anywhere between its parts.  `Spelled` describes
them all, and says of a number only that it is an integer of 64 bits, as no other is ever
written.  The fields of an object are spelled in their own order; a document with its fields
in another order is another document.

The reader takes one step to each item of a list and to each field of an object, past the
separator and the blanks before it; these steps are the same in every reader of lists and
records (`nextItem_item`, `nextField_series`).  So every text that spells a document is read as
that document (`readValue_spelled`), by induction on the levels of nesting and, inside a bracket,
on the series of its parts.

The compact form and the indented form of a document are two of its texts (`isText_compact`,
`isText_pretty`).
-/

namespace SerialBridge.Json

/-! ## Texts of a document -/

/-- What stands before an item or a field: a comma, unless it is the first. -/
def separator (first : Bool) : List Char :=
  if first then [] else [',']

/-- The text of some items, each spelled by a text of its own, with commas between them and
blanks around them. -/
inductive Series (text : α → List Char → Prop) : Bool → List α → List Char → Prop
  | nil {first : Bool} {gap : List Char} : Blanks gap → Series text first [] gap
  | cons {first : Bool} {x : α} {xs : List α} {gap gap' cs more : List Char} :
      Blanks gap → Blanks gap' → text x cs → Series text false xs more →
      Series text first (x :: xs) (gap ++ (separator first ++ (gap' ++ (cs ++ more))))

/-- With no item left there are only blanks. -/
theorem Series.blanks {text : α → List Char → Prop} {first : Bool} {cs : List Char}
    (h : Series text first [] cs) : Blanks cs := by
  cases h with
  | nil hgap => exact hgap

/-- The text of a field: its name, a colon and its value. -/
inductive FieldText (text : Json → List Char → Prop) : String × Json → List Char → Prop
  | mk {name : String} {doc : Json} {gap gap' cs : List Char} :
      Blanks gap → Blanks gap' → text doc cs →
      FieldText text (name, doc) (writeString name ++ (gap ++ ':' :: (gap' ++ cs)))

/-- The texts that spell a document of so many levels at most, blanks anywhere between its
parts.  Only numbers that are integers are spelled, as no other is ever written. -/
def Spelled : Nat → Json → List Char → Prop
  | _, .null, cs => cs = ['n', 'u', 'l', 'l']
  | _, .bool true, cs => cs = ['t', 'r', 'u', 'e']
  | _, .bool false, cs => cs = ['f', 'a', 'l', 's', 'e']
  | _, .number (.integer n), cs => IsWord n ∧ cs = (toString n).toList
  | _, .number (.real _), _ => False
  | _, .string s, cs => cs = writeString s
  | 0, .array _, _ => False
  | 0, .object _, _ => False
  | n + 1, .array items, cs =>
    ∃ inner, Series (Spelled n) true items inner ∧ cs = '[' :: (inner ++ [']'])
  | n + 1, .object fields, cs =>
    ∃ inner, Series (FieldText (Spelled n)) true fields inner ∧ cs = '\x7b' :: (inner ++ ['\x7d'])

theorem Spelled.exists_items {levels : Nat} {items : List Json} {cs : List Char}
    (h : Spelled levels (.array items) cs) :
    ∃ n inner, levels = n + 1 ∧ Series (Spelled n) true items inner ∧
      cs = '[' :: (inner ++ [']']) := by
  cases levels with
  | zero => simp only [Spelled] at h
  | succ n =>
    simp only [Spelled] at h
    obtain ⟨inner, hinner, rfl⟩ := h
    exact ⟨n, inner, rfl, hinner, rfl⟩

theorem Spelled.exists_fields {levels : Nat} {fields : List (String × Json)} {cs : List Char}
    (h : Spelled levels (.object fields) cs) :
    ∃ n inner, levels = n + 1 ∧ Series (FieldText (Spelled n)) true fields inner ∧
      cs = '\x7b' :: (inner ++ ['\x7d']) := by
  cases levels with
  | zero => simp only [Spelled] at h
  | succ n =>
    simp only [Spelled] at h
    obtain ⟨inner, hinner, rfl⟩ := h
    exact ⟨n, inner, rfl, hinner, rfl⟩

/-- The characters that a text of the document begins with. -/
def Opens : Json → Char → Prop
  | .null, c => c = 'n'
  | .bool true, c => c = 't'
  | .bool false, c => c = 'f'
  | .number _, c => startsNumber c = true
  | .string _, c => c = '"'
  | .array _, c => c = '['
  | .object _, c => c = '\x7b'

theorem ne_of_startsNumber {c : Char} (h : startsNumber c = true) (x : Char)
    (hx : startsNumber x = false) : c ≠ x := by
  rintro rfl
  exact absurd (hx.symm.trans h) (by decide)

theorem Opens.not_blank {doc : Json} {c : Char} (h : Opens doc c) :
    isSpace c = false ∧ c ≠ ',' ∧ c ≠ ']' ∧ c ≠ '\x7d' := by
  cases doc with
  | bool b => cases b <;> subst h <;> decide
  | number n =>
    have hne := ne_of_startsNumber h
    refine ⟨?_, hne _ (by decide), hne _ (by decide), hne _ (by decide)⟩
    simp [isSpace, hne ' ' (by decide), hne '\n' (by decide), hne '\t' (by decide),
      hne '\r' (by decide)]
  | null | string s | array items | object fields =>
    subst h
    decide

theorem Spelled.exists_cons {n : Nat} {doc : Json} {cs : List Char} (h : Spelled n doc cs) :
    ∃ c rest, cs = c :: rest ∧ Opens doc c := by
  cases doc with
  | null =>
    simp only [Spelled] at h
    exact ⟨_, _, h, rfl⟩
  | bool b =>
    cases b <;> simp only [Spelled] at h <;> exact ⟨_, _, h, rfl⟩
  | number m =>
    cases m with
    | integer m =>
      simp only [Spelled] at h
      obtain ⟨c, rest, hcs, hc⟩ := exists_toString_eq m
      exact ⟨c, rest, h.2.trans hcs, hc⟩
    | real bits =>
      simp only [Spelled] at h
  | string s =>
    simp only [Spelled] at h
    exact ⟨_, _, h, rfl⟩
  | array items =>
    obtain ⟨n, inner, -, -, rfl⟩ := h.exists_items
    exact ⟨_, _, rfl, rfl⟩
  | object fields =>
    obtain ⟨n, inner, -, -, rfl⟩ := h.exists_fields
    exact ⟨_, _, rfl, rfl⟩

/-- Blanks end where the text of a document begins. -/
theorem Spelled.skipSpace_eq {n : Nat} {doc : Json} {cs gap : List Char} (h : Spelled n doc cs)
    (hgap : Blanks gap) (rest : List Char) : skipSpace (gap ++ (cs ++ rest)) = cs ++ rest := by
  obtain ⟨c, more, rfl, hc⟩ := h.exists_cons
  exact skipSpace_gap_cons hgap hc.not_blank.1 _

/-- Behind an item or a field stands a comma or the end of the bracket. -/
theorem Series.endsValue {text : α → List Char → Prop} {xs : List α} {cs : List Char}
    (h : Series text false xs cs) {closing : Char} (hclosing : closing = ']' ∨ closing = '\x7d')
    (rest : List Char) : EndsValue (cs ++ closing :: rest) := by
  cases h with
  | nil hgap =>
    refine endsValue_gap hgap fun c hc => ?_
    cases hc
    exact .inr (.inr hclosing)
  | cons hgap =>
    rw [List.append_assoc]
    refine endsValue_gap hgap fun c hc => ?_
    cases hc
    exact .inr (.inl rfl)

/-- As many characters as items at least. -/
theorem Series.length_le {text : α → List Char → Prop} (hne : ∀ x cs, text x cs → cs ≠ [])
    {first : Bool} {xs : List α} {cs : List Char} (h : Series text first xs cs) :
    xs.length ≤ cs.length := by
  induction h with
  | nil => exact Nat.zero_le _
  | cons _ _ hx _ ih =>
    have := List.length_pos_iff.mpr (hne _ _ hx)
    simp only [List.length_cons, List.length_append]
    omega

theorem Series.items_lt {levels : Nat} {docs : List Json} {cs : List Char}
    (h : Series (Spelled levels) true docs cs) (rest : List Char) :
    docs.length < (cs ++ ']' :: rest).length + 1 := by
  have := h.length_le fun doc text htext => by
    obtain ⟨c, more, rfl, -⟩ := htext.exists_cons
    exact List.cons_ne_nil c more
  rw [List.length_append]
  omega

theorem Series.fields_lt {levels : Nat} {fields : List (String × Json)} {cs : List Char}
    (h : Series (FieldText (Spelled levels)) true fields cs) (rest : List Char) :
    fields.length < (cs ++ '\x7d' :: rest).length + 1 := by
  have := h.length_le fun field text htext => by
    cases htext
    exact List.cons_ne_nil _ _
  rw [List.length_append]
  omega

/-! ## Steps inside brackets -/

/-- A reader reads every text of some kind as a value, whatever blanks stand before it and
whatever ends it. -/
def Reads (reader : Reader α) (text : List Char → Prop) (x : α) : Prop :=
  ∀ gap cs rest, Blanks gap → text cs → EndsValue rest →
    reader (gap ++ (cs ++ rest)) = .ok (x, rest)

theorem nextItem_end {gap : List Char} (h : Blanks gap) (first : Bool) (rest : List Char) :
    nextItem first (gap ++ ']' :: rest) = .ok none := by
  rw [nextItem, skipSpace_gap_cons h (by decide)]
  rfl

theorem nextItem_item {gap gap' cs rest : List Char} {n : Nat} {doc : Json} (hgap : Blanks gap)
    (hgap' : Blanks gap') (h : Spelled n doc cs) (first : Bool) :
    nextItem first (gap ++ (separator first ++ (gap' ++ (cs ++ rest)))) =
      .ok (some (cs ++ rest)) := by
  obtain ⟨c, more, rfl, hc⟩ := h.exists_cons
  obtain ⟨-, hcomma, hend, -⟩ := hc.not_blank
  have hskip := h.skipSpace_eq hgap' rest
  cases first with
  | true =>
    rw [nextItem, skipSpace_gap hgap]
    rw [separator, if_pos rfl, List.nil_append, hskip]
    simp [hend, hcomma]
  | false =>
    rw [nextItem, skipSpace_gap hgap]
    rw [separator, if_neg (by decide), List.singleton_append, skipSpace_cons (by decide)]
    simp only [Bool.false_eq_true, if_false, hskip]
    simp [hend]

theorem nextField_end {gap : List Char} (h : Blanks gap) (first : Bool) (rest : List Char) :
    nextField first (gap ++ '\x7d' :: rest) = .ok none := by
  rw [nextField, skipSpace_gap_cons h (by decide)]
  rfl

theorem nextField_name {gap gap' : List Char} (hgap : Blanks gap) (hgap' : Blanks gap')
    (first : Bool) (named : List Char) :
    nextField first (gap ++ (separator first ++ (gap' ++ '"' :: named))) = .ok (some named) := by
  rw [nextField, skipSpace_gap hgap]
  cases first with
  | true =>
    rw [separator, if_pos rfl, List.nil_append, skipSpace_gap_cons hgap' (by decide)]
    rfl
  | false =>
    rw [separator, if_neg (by decide), List.singleton_append, skipSpace_cons (by decide)]
    simp [skipSpace_gap_cons hgap' (show isSpace '"' = false by decide)]

theorem readColon_gap {gap : List Char} (h : Blanks gap) (value : List Char) :
    readColon (gap ++ ':' :: value) = .ok value := by
  rw [readColon, skipSpace_gap_cons h (by decide)]
  rfl

/-- **The step to the next field of an object**: past the separator, the name and the colon stands
the value, and behind it the text of the fields that are left. -/
theorem nextField_series {n : Nat} {first : Bool} {name : String} {doc : Json}
    {fields : List (String × Json)} {cs : List Char}
    (h : Series (FieldText (Spelled n)) first ((name, doc) :: fields) cs) (rest : List Char) :
    ∃ named colon value more,
      nextField first (cs ++ '\x7d' :: rest) = .ok (some named) ∧
      readString named = .ok (name, colon) ∧
      readColon colon = .ok value ∧
      Series (FieldText (Spelled n)) false fields more ∧
      ∀ (β : Type) (reader : Reader β) (x : β), Reads reader (Spelled n doc) x →
        reader value = .ok (x, more ++ '\x7d' :: rest) := by
  cases h with
  | @cons _ _ _ gap gap' field more hgap hgap' hfield hmore =>
    cases hfield with
    | @mk _ _ before space text hbefore hspace htext =>
      have hends := hmore.endsValue (.inr rfl) rest
      have hquote : gap ++ (separator first ++
            (gap' ++ (writeString name ++ (before ++ ':' :: (space ++ text)) ++ more))) ++
            '\x7d' :: rest =
          gap ++ (separator first ++ (gap' ++ '"' :: (name.toList.flatMap writeChar ++
            '"' :: (before ++ ':' :: (space ++ (text ++ (more ++ '\x7d' :: rest))))))) := by
        simp [writeString]
      rw [hquote]
      exact ⟨_, _, _, more, nextField_name hgap hgap' first _, readString_writeString name _,
        readColon_gap hbefore _, hmore,
        fun _ _ _ hread => hread space text _ hspace htext hends⟩

theorem bracket_append (opening closing : Char) (inner rest : List Char) :
    opening :: (inner ++ [closing]) ++ rest = opening :: (inner ++ closing :: rest) := by
  simp

theorem closeList_gap {gap : List Char} (h : Blanks gap) (rest : List Char) :
    closeList (gap ++ ']' :: rest) = .ok rest := by
  rw [closeList, skipSpace_gap_cons h (by decide)]
  rfl

theorem closeObject_gap {gap : List Char} (h : Blanks gap) (rest : List Char) :
    closeObject (gap ++ '\x7d' :: rest) = .ok rest := by
  rw [closeObject, skipSpace_gap_cons h (by decide)]
  rfl

/-! ## Reading documents -/

theorem ok_bind (x : α) (f : α → Except Error β) : (Except.ok x >>= f) = f x := rfl

/-- Items are read one after another, each by the reader of items. -/
theorem readItems_series {item : Reader α} {levels : Nat} {docs : List Json} {xs : List α}
    (hitems : List.Forall₂ (fun doc x => Reads item (Spelled levels doc) x) docs xs) {first : Bool}
    {cs : List Char} (h : Series (Spelled levels) first docs cs) {n : Nat} (hn : docs.length < n)
    (rest : List Char) :
    ∃ gap, Blanks gap ∧
      readItems item n first (cs ++ ']' :: rest) = .ok (xs, gap ++ ']' :: rest) := by
  induction h generalizing xs n with
  | @nil first gap hgap =>
    cases hitems
    obtain ⟨n, rfl⟩ := Nat.exists_eq_succ_of_ne_zero (Nat.ne_of_gt hn)
    exact ⟨gap, hgap, by rw [readItems, nextItem_end hgap, ok_bind]⟩
  | @cons first doc docs gap gap' cs more hgap hgap' hdoc hdocs ih =>
    obtain ⟨x, xs, hitem, hothers, rfl⟩ := List.forall₂_cons_left_iff.mp hitems
    obtain ⟨n, rfl⟩ := Nat.exists_eq_succ_of_ne_zero (Nat.ne_of_gt (Nat.zero_lt_of_lt hn))
    obtain ⟨last, hlast, hmore⟩ := ih hothers (Nat.lt_of_succ_lt_succ hn)
    have hread :=
      hitem [] cs (more ++ ']' :: rest) blanks_nil hdoc (hdocs.endsValue (.inl rfl) rest)
    rw [List.nil_append] at hread
    refine ⟨last, hlast, ?_⟩
    simp only [List.append_assoc]
    rw [readItems, nextItem_item hgap hgap' hdoc, ok_bind]
    simp only [hread, hmore, ok_bind]

/-- Fields are read one after another, each value by the reader of values. -/
theorem readFields_series {value : Reader Json} {levels : Nat} {fields : List (String × Json)}
    (hvalue : ∀ doc, Reads value (Spelled levels doc) doc) {first : Bool} {cs : List Char}
    (h : Series (FieldText (Spelled levels)) first fields cs) {n : Nat} (hn : fields.length < n)
    (rest : List Char) :
    ∃ gap, Blanks gap ∧
      readFields value n first (cs ++ '\x7d' :: rest) = .ok (fields, gap ++ '\x7d' :: rest) := by
  induction fields generalizing first cs n with
  | nil =>
    obtain ⟨n, rfl⟩ := Nat.exists_eq_succ_of_ne_zero (Nat.ne_of_gt hn)
    exact ⟨cs, h.blanks, by rw [readFields, nextField_end h.blanks, ok_bind]⟩
  | cons field fields ih =>
    obtain ⟨n, rfl⟩ := Nat.exists_eq_succ_of_ne_zero (Nat.ne_of_gt (Nat.zero_lt_of_lt hn))
    obtain ⟨named, colon, text, more, hnext, hname, hcolon, hmore, hread⟩ := nextField_series h rest
    obtain ⟨last, hlast, hothers⟩ := ih hmore (Nat.lt_of_succ_lt_succ hn)
    refine ⟨last, hlast, ?_⟩
    rw [readFields, hnext, ok_bind]
    simp only [hname, hcolon, hread _ _ _ (hvalue field.2), hothers, ok_bind]

/-- **Every text that spells a document is read as that document.** -/
theorem readValue_spelled (levels : Nat) (doc : Json) :
    Reads (readValue levels) (Spelled levels doc) doc := by
  induction levels using Nat.strongRecOn generalizing doc with
  | ind levels ih =>
    intro gap cs rest hgap h hrest
    rw [readValue, h.skipSpace_eq hgap rest]
    cases doc with
    | null =>
      simp only [Spelled] at h
      subst h
      rfl
    | bool b =>
      cases b <;> simp only [Spelled] at h <;> subst h <;> rfl
    | string s =>
      simp only [Spelled] at h
      subst h
      simp only [writeString_append, readString_writeString, ok_bind]
    | number m =>
      cases m with
      | real bits => simp only [Spelled] at h
      | integer n =>
        simp only [Spelled] at h
        obtain ⟨hword, rfl⟩ := h
        have hread := readNumber_toString hword hrest
        obtain ⟨c, more, hcs, hc⟩ := exists_toString_eq n
        rw [hcs, List.cons_append] at hread ⊢
        have hne := ne_of_startsNumber hc
        simp [hne 'n' (by decide), hne 't' (by decide), hne 'f' (by decide), hne '"' (by decide),
          hne '[' (by decide), hne '\x7b' (by decide), hc, hread, ok_bind]
    | array items =>
      obtain ⟨n, inner, rfl, hinner, rfl⟩ := h.exists_items
      have hitems := List.forall₂_same.mpr fun doc (_ : doc ∈ items) =>
        ih n (Nat.lt_succ_self n) doc
      obtain ⟨last, hlast, hread⟩ := readItems_series hitems hinner (hinner.items_lt rest) rest
      rw [bracket_append]
      simp only [hread, closeList_gap hlast, ok_bind]
    | object fields =>
      obtain ⟨n, inner, rfl, hinner, rfl⟩ := h.exists_fields
      obtain ⟨last, hlast, hread⟩ :=
        readFields_series (ih n (Nat.lt_succ_self n)) hinner (hinner.fields_lt rest) rest
      rw [bracket_append]
      simp only [hread, closeObject_gap hlast, ok_bind]

/-! ## Writing documents -/

/-- Documents of so many levels at most whose numbers are all integers of 64 bits. -/
def Plain : Nat → Json → Prop
  | _, .null => True
  | _, .bool _ => True
  | _, .number (.integer n) => IsWord n
  | _, .number (.real _) => False
  | _, .string _ => True
  | 0, .array _ => False
  | 0, .object _ => False
  | n + 1, .array items => ∀ doc ∈ items, Plain n doc
  | n + 1, .object fields => ∀ field ∈ fields, Plain n field.2

theorem plain_object {levels : Nat} {fields : List (String × Json)} :
    Plain (levels + 1) (.object fields) ↔ ∀ field ∈ fields, Plain levels field.2 := by
  simp only [Plain]

theorem Plain.perm {levels : Nat} {fields others : List (String × Json)}
    (h : Plain (levels + 1) (.object fields)) (hothers : others.Perm fields) :
    Plain (levels + 1) (.object others) :=
  plain_object.mpr fun field hfield => plain_object.mp h field (hothers.mem_iff.mp hfield)

theorem compactItems_eq_map (items : List Json) : compactItems items = items.map compactChars := by
  induction items with
  | nil => rfl
  | cons doc items ih => rw [compactItems, ih, List.map_cons]

theorem compactFields_eq_map (fields : List (String × Json)) :
    compactFields fields = fields.map fun f => writeString f.1 ++ ':' :: compactChars f.2 := by
  induction fields with
  | nil => rfl
  | cons field fields ih => rw [compactFields, ih, List.map_cons]

theorem prettyItems_eq_map (depth : Nat) (items : List Json) :
    prettyItems depth items = items.map (prettyChars depth) := by
  induction items with
  | nil => rfl
  | cons doc items ih => rw [prettyItems, ih, List.map_cons]

theorem prettyFields_eq_map (depth : Nat) (fields : List (String × Json)) :
    prettyFields depth fields =
      fields.map fun f => writeString f.1 ++ ':' :: ' ' :: prettyChars depth f.2 := by
  induction fields with
  | nil => rfl
  | cons field fields ih => rw [prettyFields, ih, List.map_cons]

theorem blanks_newLine (depth : Nat) : Blanks (newLine depth) := by
  intro c hc
  rcases List.mem_cons.mp hc with rfl | hc
  · rfl
  · rw [List.eq_of_mem_replicate hc]
    rfl

/-- Texts joined by commas, with blanks around them, are the text of the items they spell. -/
theorem series_joinParts {text : α → List Char → Prop} {write : α → List Char} {xs : List α}
    (hwrite : ∀ x ∈ xs, text x (write x)) {gap last : List Char} (hgap : Blanks gap)
    (hlast : Blanks last) (hne : xs ≠ []) {first : Bool} {lead lead' : List Char}
    (hlead : Blanks lead) (hlead' : Blanks lead') :
    Series text first xs
      (lead ++
        (separator first ++ (lead' ++ (joinParts (',' :: gap) (xs.map write) ++ last)))) := by
  induction xs generalizing first lead lead' with
  | nil => exact absurd rfl hne
  | cons x xs ih =>
    obtain ⟨hx, hxs⟩ := List.forall_mem_cons.mp hwrite
    cases xs with
    | nil => exact .cons hlead hlead' hx (.nil hlast)
    | cons y ys =>
      have hmore := @ih hxs (List.cons_ne_nil y ys) false [] gap blanks_nil hgap
      have hjoin : joinParts (',' :: gap) ((x :: y :: ys).map write) ++ last =
          write x ++ ([] ++ (separator false ++
            (gap ++ (joinParts (',' :: gap) ((y :: ys).map write) ++ last)))) := by
        simp [joinParts, separator]
      rw [hjoin]
      exact .cons hlead hlead' hx hmore

theorem series_written {text : α → List Char → Prop} {write : α → List Char} {xs : List α}
    (hwrite : ∀ x ∈ xs, text x (write x)) {lead gap last : List Char} (hlead : Blanks lead)
    (hgap : Blanks gap) (hlast : Blanks last) :
    Series text true xs (lead ++ (joinParts (',' :: gap) (xs.map write) ++ last)) := by
  by_cases hne : xs = []
  · subst hne
    refine .nil fun c hc => ?_
    rcases List.mem_append.mp hc with hc | hc
    · exact hlead c hc
    · exact hlast c hc
  · exact series_joinParts hwrite hgap hlast hne hlead blanks_nil

/-- Parts inside brackets, with commas between them and blanks around them. -/
def InBrackets (opening closing : Char) (parts : List (List Char)) (cs : List Char) : Prop :=
  ∃ lead gap last, Blanks lead ∧ Blanks gap ∧ Blanks last ∧
    cs = opening :: (lead ++ (joinParts (',' :: gap) parts ++ last) ++ [closing])

theorem inBrackets_bracketed (opening closing : Char) (depth : Nat) (parts : List (List Char)) :
    InBrackets opening closing parts (bracketed opening closing depth parts) := by
  cases parts with
  | nil => exact ⟨[], [], [], blanks_nil, blanks_nil, blanks_nil, rfl⟩
  | cons part parts =>
    refine ⟨_, _, _, blanks_newLine (depth + 1), blanks_newLine (depth + 1), blanks_newLine depth,
      ?_⟩
    simp [bracketed]

/-- A way to write documents at any depth, which only the blanks in brackets are left to. -/
structure Layout (write : Nat → Json → List Char) : Prop where
  null : ∀ depth, write depth .null = ['n', 'u', 'l', 'l']
  bool : ∀ depth b, write depth (.bool b) =
    if b then ['t', 'r', 'u', 'e'] else ['f', 'a', 'l', 's', 'e']
  integer : ∀ depth n, write depth (.number (.integer n)) = (toString n).toList
  string : ∀ depth s, write depth (.string s) = writeString s
  array : ∀ depth items,
    InBrackets '[' ']' (items.map (write (depth + 1))) (write depth (.array items))
  object : ∀ depth fields, ∃ space, Blanks space ∧
    InBrackets '\x7b' '\x7d'
      (fields.map fun f => writeString f.1 ++ ([] ++ ':' :: (space ++ write (depth + 1) f.2)))
      (write depth (.object fields))

theorem layout_compactChars : Layout fun _ => compactChars where
  null _ := by simp [compactChars]
  bool _ b := by cases b <;> simp [compactChars]
  integer _ n := by simp [compactChars, Number.text]
  string _ s := by simp [compactChars]
  array _ items := by
    refine ⟨[], [], [], blanks_nil, blanks_nil, blanks_nil, ?_⟩
    simp [compactChars, compactItems_eq_map]
  object _ fields := by
    refine ⟨[], blanks_nil, [], [], [], blanks_nil, blanks_nil, blanks_nil, ?_⟩
    simp [compactChars, compactFields_eq_map]

theorem layout_prettyChars : Layout prettyChars where
  null _ := by simp [prettyChars]
  bool _ b := by cases b <;> simp [prettyChars]
  integer _ n := by simp [prettyChars, Number.text]
  string _ s := by simp [prettyChars]
  array depth items := by
    rw [prettyChars, prettyItems_eq_map]
    exact inBrackets_bracketed _ _ _ _
  object depth fields := by
    refine ⟨[' '], List.forall_mem_singleton.mpr (by decide), ?_⟩
    rw [prettyChars, prettyFields_eq_map]
    exact inBrackets_bracketed _ _ _ _

/-- **What is written spells the document**, however deep it stands. -/
theorem Layout.spelled {write : Nat → Json → List Char} (hlayout : Layout write) {levels : Nat}
    {doc : Json} (h : Plain levels doc) (depth : Nat) : Spelled levels doc (write depth doc) := by
  induction levels using Nat.strongRecOn generalizing doc depth with
  | ind levels ih =>
    cases doc with
    | null =>
      simp only [Spelled]
      exact hlayout.null depth
    | bool b =>
      cases b <;> simp only [Spelled] <;> exact hlayout.bool depth _
    | number m =>
      cases m with
      | integer n =>
        simp only [Spelled, Plain] at h ⊢
        exact ⟨h, hlayout.integer depth n⟩
      | real bits => simp only [Plain] at h
    | string s =>
      simp only [Spelled]
      exact hlayout.string depth s
    | array items =>
      cases levels with
      | zero => simp only [Plain] at h
      | succ n =>
        simp only [Spelled, Plain] at h ⊢
        obtain ⟨lead, gap, last, hlead, hgap, hlast, htext⟩ := hlayout.array depth items
        have hitems : ∀ doc ∈ items, Spelled n doc (write (depth + 1) doc) :=
          fun doc hdoc => ih n (Nat.lt_succ_self n) (h doc hdoc) (depth + 1)
        exact ⟨_, series_written hitems hlead hgap hlast, htext⟩
    | object fields =>
      cases levels with
      | zero => simp only [Plain] at h
      | succ n =>
        simp only [Spelled, Plain] at h ⊢
        obtain ⟨space, hspace, lead, gap, last, hlead, hgap, hlast, htext⟩ :=
          hlayout.object depth fields
        have hfields : ∀ f ∈ fields, FieldText (Spelled n) f
            (writeString f.1 ++ ([] ++ ':' :: (space ++ write (depth + 1) f.2))) :=
          fun f hf => .mk blanks_nil hspace (ih n (Nat.lt_succ_self n) (h f hf) (depth + 1))
        exact ⟨_, series_written hfields hlead hgap hlast, htext⟩

/-! ## Whole texts -/

/-- The text is the document, with any blanks around it and between its parts. -/
def IsText (doc : Json) (text : String) : Prop :=
  ∃ before cs after, Blanks before ∧ Spelled maxLevels doc cs ∧ Blanks after ∧
    text.toList = before ++ (cs ++ after)

theorem isText_compact {doc : Json} (h : Plain maxLevels doc) : doc.IsText doc.compact :=
  ⟨[], _, [], blanks_nil, layout_compactChars.spelled h 0, blanks_nil, by simp [compact]⟩

theorem isText_pretty {doc : Json} (h : Plain maxLevels doc) : doc.IsText doc.pretty :=
  ⟨[], _, [], blanks_nil, layout_prettyChars.spelled h 0, blanks_nil, by simp [pretty]⟩

end SerialBridge.Json
