import Mathlib.Data.List.Nodup
import Mathlib.Data.Prod.Lex
import Mathlib.Data.String.Basic
import SerialBridge.Port
import SerialBridge.Proofs.Assembly

/-! # Discovery of ports

Discovery merges two sources by name, and what it has merged it sorts by the key of the names.
Both steps are described apart from how they go on.

The merged ports are known by what each name finds among them, and that is what it finds first in
the sources (`find?_merge`).  Lists in which every name finds the same are merged to the same
ports, up to their order (`merge_perm`), so it plays no role in which order `/dev` is listed, nor in
which order ports are reported while no two reports give one name.

Keys are compared by class, then by number, then by the end of the name (`Key.le_iff`).  Numbers
collide, since `1`, `01` and `+1` are the same and everything that is no number of 64 bits comes to
the last one (`hasKey_key`).  What makes up for it is the end of the name: names directly under
`/dev` differ in it (`key_inj`).  Sorted by distinct keys, the ports come in one order only, however
they came (`sortBy_eq_of_perm`).
-/

namespace SerialBridge.Port

/-! ## Merging by name -/

/-- The ports of a list, the first of each name. -/
def merge (ports : List PortInfo) : List PortInfo :=
  ports.foldl addNew []

/-- What a name finds is a port of the list and of that name. -/
theorem mem_and_name_of_find? {ports : List PortInfo} {name : String} {p : PortInfo}
    (h : ports.find? (·.name == name) = some p) : p ∈ ports ∧ p.name = name := by
  exact ⟨List.mem_of_find?_eq_some h, by simpa using List.find?_some h⟩

theorem find?_addNew (ports : List PortInfo) (p : PortInfo) (name : String) :
    (addNew ports p).find? (·.name == name) = (ports ++ [p]).find? (·.name == name) := by
  unfold addNew
  by_cases hthere : ports.any (·.name == p.name) = true
  · rw [if_pos hthere, List.find?_append]
    by_cases hname : p.name = name
    · obtain ⟨q, hq, hqp⟩ := List.any_eq_true.mp hthere
      have hfound : (ports.find? (·.name == name)).isSome = true := by
        rw [List.find?_isSome]
        exact ⟨q, hq, by rwa [← hname]⟩
      rw [Option.or_of_isSome hfound]
    · have hnone : [p].find? (·.name == name) = none := by simpa using hname
      rw [hnone, Option.or_none]
  · rw [if_neg hthere]

theorem find?_foldl_addNew (ports start : List PortInfo) (name : String) :
    (ports.foldl addNew start).find? (·.name == name) =
      (start ++ ports).find? (·.name == name) := by
  induction ports generalizing start with
  | nil => rw [List.foldl_nil, List.append_nil]
  | cons p ports ih =>
    rw [List.foldl_cons, ih, List.find?_append, find?_addNew, ← List.find?_append,
      List.append_assoc, List.singleton_append]

/-- What a name finds among the merged ports it finds first among all. -/
theorem find?_merge (ports : List PortInfo) (name : String) :
    (merge ports).find? (·.name == name) = ports.find? (·.name == name) :=
  find?_foldl_addNew ports [] name

theorem nodup_addNew {ports : List PortInfo} (h : (ports.map (·.name)).Nodup) (p : PortInfo) :
    ((addNew ports p).map (·.name)).Nodup := by
  unfold addNew
  by_cases hthere : ports.any (·.name == p.name) = true
  · rwa [if_pos hthere]
  · rw [if_neg hthere, List.map_append, List.map_singleton, List.nodup_append]
    refine ⟨h, List.nodup_singleton _, ?_⟩
    intro a ha b hb hab
    apply hthere
    obtain ⟨q, hq, rfl⟩ := List.mem_map.mp ha
    rw [List.any_eq_true]
    exact ⟨q, hq, beq_iff_eq.mpr (hab.trans (List.mem_singleton.mp hb))⟩

/-- Merged ports have distinct names. -/
theorem nodup_merge (ports : List PortInfo) : ((merge ports).map (·.name)).Nodup := by
  unfold merge
  suffices h : ∀ start : List PortInfo, (start.map (·.name)).Nodup →
      ((ports.foldl addNew start).map (·.name)).Nodup from h [] List.nodup_nil
  induction ports with
  | nil => exact fun start h => h
  | cons p ports ih => exact fun start h => ih _ (nodup_addNew h p)

/-- The merged ports are those that are the first of their name. -/
theorem mem_merge_iff {ports : List PortInfo} {p : PortInfo} :
    p ∈ merge ports ↔ ports.find? (·.name == p.name) = some p := by
  rw [← find?_merge]
  constructor
  · intro hp
    cases hq : (merge ports).find? (·.name == p.name) with
    | none => exact absurd (beq_self_eq_true p.name) (List.find?_eq_none.mp hq p hp)
    | some q =>
      obtain ⟨hmem, hname⟩ := mem_and_name_of_find? hq
      rw [List.inj_on_of_nodup_map (nodup_merge ports) hmem hp hname]
  · exact List.mem_of_find?_eq_some

theorem mem_of_mem_merge {ports : List PortInfo} {p : PortInfo} (h : p ∈ merge ports) :
    p ∈ ports :=
  List.mem_of_find?_eq_some (mem_merge_iff.mp h)

theorem mem_names_merge {ports : List PortInfo} {name : String} :
    name ∈ (merge ports).map (·.name) ↔ name ∈ ports.map (·.name) := by
  rw [List.mem_map, List.mem_map]
  constructor
  · rintro ⟨p, hp, rfl⟩
    exact ⟨p, mem_of_mem_merge hp, rfl⟩
  · rintro ⟨p, hp, rfl⟩
    have hfound : ((merge ports).find? (·.name == p.name)).isSome = true := by
      rw [find?_merge, List.find?_isSome]
      exact ⟨p, hp, beq_self_eq_true _⟩
    obtain ⟨q, hq⟩ := Option.isSome_iff_exists.mp hfound
    exact ⟨q, mem_and_name_of_find? hq⟩

/-- Lists in which every name finds the same are merged to the same ports. -/
theorem merge_perm {xs ys : List PortInfo}
    (h : ∀ name, xs.find? (·.name == name) = ys.find? (·.name == name)) :
    (merge xs).Perm (merge ys) := by
  rw [List.perm_ext_iff_of_nodup (nodup_merge xs).of_map (nodup_merge ys).of_map]
  intro p
  rw [mem_merge_iff, mem_merge_iff, h]

/-- In which order ports stand plays no role while a name belongs to one of them only. -/
theorem find?_congr {xs ys : List PortInfo} (hmem : ∀ p, p ∈ xs ↔ p ∈ ys)
    (hone : ∀ p ∈ xs, ∀ q ∈ xs, p.name = q.name → p = q) (name : String) :
    xs.find? (·.name == name) = ys.find? (·.name == name) := by
  cases hx : xs.find? (·.name == name) with
  | none =>
    symm
    rw [List.find?_eq_none] at hx ⊢
    exact fun p hp => hx p ((hmem p).mpr hp)
  | some p =>
    obtain ⟨hp, hname⟩ := mem_and_name_of_find? hx
    cases hy : ys.find? (·.name == name) with
    | none =>
      exact absurd (beq_iff_eq.mpr hname) (List.find?_eq_none.mp hy p ((hmem p).mp hp))
    | some q =>
      obtain ⟨hq, hqname⟩ := mem_and_name_of_find? hy
      rw [hone p hp q ((hmem q).mpr hq) (hname.trans hqname.symm)]

/-! ## Keys -/

/-- The place of a key: by class, then by number, then by name. -/
def Key.place (k : Key) : ℕ ×ₗ ℕ ×ₗ String :=
  toLex (k.rank, toLex (k.number, k.base))

theorem Key.place_inj {a b : Key} (h : a.place = b.place) : a = b := by
  have hrank : a.rank = b.rank := congrArg (fun x => (ofLex x).1) h
  have hnumber : a.number = b.number := congrArg (fun x => (ofLex (ofLex x).2).1) h
  have hbase : a.base = b.base := congrArg (fun x => (ofLex (ofLex x).2).2) h
  cases a
  cases b
  simp_all

theorem Key.le_iff (a b : Key) : a.le b = true ↔ a.place ≤ b.place := by
  unfold Key.le Key.place
  rw [Prod.Lex.toLex_le_toLex, Prod.Lex.toLex_le_toLex]
  by_cases hrank : a.rank = b.rank
  · rw [if_neg (not_not.mpr hrank)]
    by_cases hnumber : a.number = b.number
    · have hbase : (!decide (b.base < a.base)) = true ↔ a.base ≤ b.base := by
        rw [Bool.not_eq_true', decide_eq_false_iff_not, not_lt]
      rw [if_neg (not_not.mpr hnumber), hbase]
      simp only [hrank, hnumber, lt_irrefl, true_and, false_or]
    · rw [if_pos hnumber, decide_eq_true_iff]
      simp only [hrank, hnumber, lt_irrefl, true_and, false_or, false_and, or_false]
  · rw [if_pos hrank, decide_eq_true_iff]
    simp only [hrank, false_and, or_false]

theorem base_key (name : String) : (key name).base = baseName name := by
  simp only [key]
  split
  · rfl
  · split <;> rfl

/-- Characters spell a number: digits, one plus sign before them allowed. -/
def Spells (s : List Char) (n : Nat) : Prop :=
  ∃ digits, (s = digits ∨ s = '+' :: digits) ∧ digits ≠ [] ∧ (∀ c ∈ digits, c.isDigit = true) ∧
    n = Nat.ofDigitChars 10 digits 0

theorem isDigit_iff (c : Char) : c.isDigit = true ↔ ¬ (c < '0' || '9' < c) = true := by
  have hsplit : c.isDigit = true ↔ '0' ≤ c ∧ c ≤ '9' := by
    rw [Char.isDigit, Bool.and_eq_true, decide_eq_true_iff, decide_eq_true_iff]
    rfl
  rw [hsplit, Bool.or_eq_true, decide_eq_true_iff, decide_eq_true_iff, not_or, not_lt, not_lt]

theorem foldl_digits (digits : List Char) :
    digits.foldl (fun n c => n * 10 + (c.toNat - '0'.toNat)) 0 =
      Nat.ofDigitChars 10 digits 0 := by
  unfold Nat.ofDigitChars
  congr 1
  funext n c
  rw [Nat.mul_comm]

/-- The characters without a plus sign before them. -/
def unsigned : List Char → List Char
  | '+' :: rest => rest
  | s => s

theorem unsigned_of_digits {s : List Char} (h : ∀ c ∈ s, c.isDigit = true) : unsigned s = s := by
  unfold unsigned
  split
  · next rest => exact absurd (h '+' List.mem_cons_self) (by decide)
  · rfl

theorem spells_iff {s : List Char} {n : Nat} :
    Spells s n ↔ unsigned s ≠ [] ∧ (∀ c ∈ unsigned s, c.isDigit = true) ∧
      n = Nat.ofDigitChars 10 (unsigned s) 0 := by
  constructor
  · rintro ⟨digits, rfl | rfl, hne, hdigits, hn⟩
    · rw [unsigned_of_digits hdigits]
      exact ⟨hne, hdigits, hn⟩
    · exact ⟨hne, hdigits, hn⟩
  · intro h
    refine ⟨unsigned s, ?_, h⟩
    unfold unsigned
    split
    · exact .inr rfl
    · exact .inl rfl

theorem number?_eq (s : List Char) :
    number? s =
      if (unsigned s).isEmpty ∨ (unsigned s).any fun c => c < '0' || '9' < c then none
      else if Nat.ofDigitChars 10 (unsigned s) 0 < UInt64.size then
        some (Nat.ofDigitChars 10 (unsigned s) 0)
      else none := by
  rw [← foldl_digits]
  rfl

/-- A number is read exactly if it is spelled and fits 64 bits. -/
theorem number?_eq_some_iff {s : List Char} {n : Nat} :
    number? s = some n ↔ Spells s n ∧ n < 2 ^ 64 := by
  have hgood : ¬ ((unsigned s).isEmpty = true ∨
        ((unsigned s).any fun c => c < '0' || '9' < c) = true) ↔
      unsigned s ≠ [] ∧ ∀ c ∈ unsigned s, c.isDigit = true := by
    simp only [not_or, List.isEmpty_iff, List.any_eq_true, isDigit_iff, not_exists, not_and, ne_eq]
  rw [number?_eq, spells_iff, ← and_assoc, ← hgood]
  constructor
  · intro h
    split at h
    · cases h
    · next hread =>
      split at h
      · next hfits =>
        cases h
        exact ⟨⟨hread, rfl⟩, hfits⟩
      · cases h
  · rintro ⟨⟨hread, rfl⟩, hfits⟩
    rw [if_neg hread]
    exact if_pos hfits

/-- The names that are ordered by a number, with the class of each. -/
def numberedNames : List (String × Nat) :=
  [("ttyACM", 0), ("ttyUSB", 1)]

/-- The key that belongs to the end of a name. -/
inductive HasKey (base : String) : Key → Prop where
  /-- A numbered name with a number that fits 64 bits. -/
  | numbered {tag : String} {rank : Nat} {rest : List Char} {n : Nat} :
      (tag, rank) ∈ numberedNames → base.toList = tag.toList ++ rest → Spells rest n →
      n < 2 ^ 64 → HasKey base ⟨rank, n, base⟩
  /-- A numbered name with no such number, as if it had the last one. -/
  | unnumbered {tag : String} {rank : Nat} {rest : List Char} :
      (tag, rank) ∈ numberedNames → base.toList = tag.toList ++ rest →
      (∀ n, Spells rest n → 2 ^ 64 ≤ n) → HasKey base ⟨rank, 2 ^ 64 - 1, base⟩
  /-- Any other name. -/
  | other : (∀ tag rank, (tag, rank) ∈ numberedNames → ¬ tag.toList <+: base.toList) →
      HasKey base ⟨2, 0, base⟩

/-- A numbered name has the number behind its tag, or else the last one. -/
theorem hasKey_of_tag {base tag : String} {rank : Nat} {rest : List Char}
    (htag : (tag, rank) ∈ numberedNames) (hbase : base.toList = tag.toList ++ rest) :
    HasKey base ⟨rank, (number? rest).getD lastNumber, base⟩ := by
  cases hn : number? rest with
  | some n =>
    obtain ⟨hspells, hfits⟩ := number?_eq_some_iff.mp hn
    exact .numbered htag hbase hspells hfits
  | none =>
    refine .unnumbered htag hbase fun n hspells => ?_
    by_contra hlt
    have hread : number? rest = some n := number?_eq_some_iff.mpr ⟨hspells, by omega⟩
    rw [hn] at hread
    cases hread

/-- **What the key of a name is.**  It is told by the end of the name: a class, a number, and that
end itself. -/
theorem hasKey_key (name : String) : HasKey (baseName name) (key name) := by
  simp only [key]
  split
  · next rest hrest =>
    exact hasKey_of_tag (by decide) (List.isPrefixOf?_eq_some_iff_append_eq.mp hrest).symm
  · next hacm =>
    split
    · next rest hrest =>
      exact hasKey_of_tag (by decide) (List.isPrefixOf?_eq_some_iff_append_eq.mp hrest).symm
    · next husb =>
      refine .other fun tag rank htag => ?_
      rintro ⟨rest, hrest⟩
      have hfound := List.isPrefixOf?_eq_some_iff_append_eq.mpr hrest
      rcases List.mem_cons.mp htag with htag | htag
      · cases htag
        rw [hacm] at hfound
        cases hfound
      · cases List.mem_singleton.mp htag
        rw [husb] at hfound
        cases hfound

/-! ## Sorting by key -/

theorem sortBy_perm {α : Type} (name : α → String) (xs : List α) : (sortBy name xs).Perm xs :=
  List.mergeSort_perm xs _

theorem pairwise_sortBy {α : Type} (name : α → String) (xs : List α) :
    (sortBy name xs).Pairwise fun x y => (key (name x)).place ≤ (key (name y)).place := by
  have hsorted : (sortBy name xs).Pairwise fun x y => (key (name x)).le (key (name y)) = true := by
    apply List.pairwise_mergeSort
    · intro x y z hxy hyz
      rw [Key.le_iff] at hxy hyz ⊢
      exact hxy.trans hyz
    · intro x y
      rw [Bool.or_eq_true, Key.le_iff, Key.le_iff]
      exact le_total _ _
  exact hsorted.imp fun h => (Key.le_iff _ _).mp h

/-- Values whose keys are distinct are sorted to one list, in whichever order they come. -/
theorem sortBy_eq_of_perm {α : Type} {name : α → String} {xs ys : List α} (h : xs.Perm ys)
    (hkeys : ∀ x ∈ xs, ∀ y ∈ xs, key (name x) = key (name y) → x = y) :
    sortBy name xs = sortBy name ys := by
  have hx := sortBy_perm name xs
  have hy := sortBy_perm name ys
  apply List.Perm.eq_of_pairwise _ (pairwise_sortBy name xs) (pairwise_sortBy name ys)
    (hx.trans (h.trans hy.symm))
  intro x y hxs hys hxy hyx
  have hplace := le_antisymm hxy hyx
  exact hkeys x (hx.mem_iff.mp hxs) y ((hy.trans h.symm).mem_iff.mp hys) (Key.place_inj hplace)

/-! ## Names directly under `/dev` -/

/-- The name of a port directly under `/dev`. -/
def InDev (name : String) : Prop :=
  ∃ base : String, '/' ∉ base.toList ∧ name = "/dev/" ++ base

theorem baseName_inDev {base : String} (h : '/' ∉ base.toList) :
    baseName ("/dev/" ++ base) = base := by
  have hparts : Text.splitAt '/' ("/dev/" ++ base).toList = [[], "dev".toList, base.toList] := by
    have hname : ("/dev/" ++ base).toList = [] ++ '/' :: ("dev".toList ++ '/' :: base.toList) := by
      rw [String.toList_append]
      rfl
    rw [hname, splitAt_append_mark (by decide), splitAt_append_mark (by decide),
      splitAt_of_notMem h]
  rw [baseName, hparts]
  exact String.ofList_toList

/-- Names directly under `/dev` have distinct keys, since they end differently. -/
theorem key_inj {a b : String} (ha : InDev a) (hb : InDev b) (h : key a = key b) : a = b := by
  obtain ⟨x, hx, rfl⟩ := ha
  obtain ⟨y, hy, rfl⟩ := hb
  have hbase : baseName ("/dev/" ++ x) = baseName ("/dev/" ++ y) := by
    rw [← base_key, ← base_key, h]
  rw [baseName_inDev hx, baseName_inDev hy] at hbase
  rw [hbase]

/-! ## What is discovered -/

/-- The machine with some entries in `/dev` and with the ports that are reported, each with what
it hangs on. -/
def machineOf (entries : List String) (reports : List (String × PortKind)) : Machine :=
  { entries, reported := reports.map fun r => .ofReport r.1 r.2 }

/-- The serial devices among the entries of `/dev`. -/
def fromEntries (entries : List String) : List PortInfo :=
  (entries.filter isSerialEntry).map fun e => { name := "/dev/" ++ e }

/-- The ports of a machine, merged but not sorted. -/
def merged (m : Machine) : List PortInfo :=
  merge (m.reported ++ fromEntries m.entries)

theorem name_ofReport (name : String) (kind : PortKind) :
    (PortInfo.ofReport name kind).name = name := by
  cases kind <;> rfl

theorem isSerialEntry_iff (entry : String) :
    isSerialEntry entry = true ↔
      "ttyACM".toList <+: entry.toList ∨ "ttyUSB".toList <+: entry.toList := by
  rw [isSerialEntry, Bool.or_eq_true, List.isPrefixOf_iff_prefix, List.isPrefixOf_iff_prefix]

theorem mem_fromEntries {entries : List String} {p : PortInfo} :
    p ∈ fromEntries entries ↔
      ∃ e ∈ entries, ("ttyACM".toList <+: e.toList ∨ "ttyUSB".toList <+: e.toList) ∧
        { name := "/dev/" ++ e } = p := by
  simp only [fromEntries, List.mem_map, List.mem_filter, isSerialEntry_iff, and_assoc]

theorem find?_reported (reports : List (String × PortKind)) (name : String) :
    (reports.map fun r => PortInfo.ofReport r.1 r.2).find? (·.name == name) =
      (reports.find? (·.1 == name)).map fun r => .ofReport r.1 r.2 := by
  rw [List.find?_map]
  simp only [Function.comp_def, name_ofReport]

/-- A name looks among the reports first, and then in `/dev`. -/
theorem find?_sources (entries : List String) (reports : List (String × PortKind))
    (name : String) :
    ((machineOf entries reports).reported ++ fromEntries (machineOf entries reports).entries).find?
        (·.name == name) =
      ((reports.find? (·.1 == name)).map fun r => PortInfo.ofReport r.1 r.2).or
        ((fromEntries entries).find? (·.name == name)) := by
  rw [List.find?_append, ← find?_reported]
  rfl

/-- A port of the machine has what was reported first of its name, or only its name. -/
theorem eq_of_mem_merged {entries : List String} {reports : List (String × PortKind)}
    {p : PortInfo} (h : p ∈ merged (machineOf entries reports)) :
    p = ((reports.find? (·.1 == p.name)).map fun r => .ofReport r.1 r.2).getD
      { name := p.name } := by
  have hfirst := mem_merge_iff.mp h
  rw [find?_sources] at hfirst
  cases hr : reports.find? (·.1 == p.name) with
  | some r =>
    rw [hr] at hfirst
    exact (Option.some.inj hfirst).symm
  | none =>
    rw [hr] at hfirst
    obtain ⟨e, -, -, he⟩ := mem_fromEntries.mp (List.mem_of_find?_eq_some hfirst)
    rw [← he]
    rfl

theorem mem_names_merged {entries : List String} {reports : List (String × PortKind)}
    {name : String} :
    name ∈ (merged (machineOf entries reports)).map (·.name) ↔
      name ∈ reports.map (·.1) ∨
        ∃ e ∈ entries, ("ttyACM".toList <+: e.toList ∨ "ttyUSB".toList <+: e.toList) ∧
          "/dev/" ++ e = name := by
  have hreported : (reports.map fun r => PortInfo.ofReport r.1 r.2).map (·.name) =
      reports.map (·.1) := by
    rw [List.map_map]
    exact List.map_congr_left fun r _ => name_ofReport r.1 r.2
  have hentries : name ∈ (fromEntries entries).map (·.name) ↔
      ∃ e ∈ entries, ("ttyACM".toList <+: e.toList ∨ "ttyUSB".toList <+: e.toList) ∧
        "/dev/" ++ e = name := by
    rw [List.mem_map]
    constructor
    · rintro ⟨p, hp, rfl⟩
      obtain ⟨e, he, htag, rfl⟩ := mem_fromEntries.mp hp
      exact ⟨e, he, htag, rfl⟩
    · rintro ⟨e, he, htag, rfl⟩
      exact ⟨_, mem_fromEntries.mpr ⟨e, he, htag, rfl⟩, rfl⟩
  rw [merged, mem_names_merge, List.map_append, List.mem_append, ← hreported, ← hentries]
  exact Iff.rfl

section Orders

variable {entries : List String} {reports : List (String × PortKind)}

/-- In which order `/dev` is listed plays no role for what is merged. -/
theorem merged_perm_of_entries {entries' : List String} (h : ∀ e, e ∈ entries' ↔ e ∈ entries) :
    (merged (machineOf entries' reports)).Perm (merged (machineOf entries reports)) := by
  apply merge_perm
  intro name
  have hfind : (fromEntries entries').find? (·.name == name) =
      (fromEntries entries).find? (·.name == name) := by
    apply find?_congr
    · intro p
      simp only [mem_fromEntries, h]
    · intro p hp q hq hname
      obtain ⟨e, -, -, rfl⟩ := mem_fromEntries.mp hp
      obtain ⟨f, -, -, rfl⟩ := mem_fromEntries.mp hq
      have hef : "/dev/" ++ e = "/dev/" ++ f := hname
      rw [hef]
  rw [find?_sources, find?_sources, hfind]

/-- In which order ports are reported plays no role either, while no name is reported twice. -/
theorem merged_perm_of_reports {reports' : List (String × PortKind)} (h : reports'.Perm reports)
    (hnodup : (reports.map (·.1)).Nodup) :
    (merged (machineOf entries reports')).Perm (merged (machineOf entries reports)) := by
  apply merge_perm
  intro name
  have hfind : (reports'.map fun r => PortInfo.ofReport r.1 r.2).find? (·.name == name) =
      (reports.map fun r => PortInfo.ofReport r.1 r.2).find? (·.name == name) := by
    apply find?_congr
    · exact fun p => (h.map _).mem_iff
    · intro p hp q hq hname
      obtain ⟨r, hr, rfl⟩ := List.mem_map.mp hp
      obtain ⟨s, hs, rfl⟩ := List.mem_map.mp hq
      rw [name_ofReport, name_ofReport] at hname
      rw [List.inj_on_of_nodup_map hnodup (h.mem_iff.mp hr) (h.mem_iff.mp hs) hname]
  rw [find?_sources, find?_sources, ← find?_reported, ← find?_reported, hfind]

/-- All ports of a machine are directly under `/dev` if the reported ones are. -/
theorem inDev_of_mem_merged (hentries : ∀ e ∈ entries, '/' ∉ e.toList)
    (hreports : ∀ r ∈ reports, InDev r.1) {p : PortInfo}
    (h : p ∈ merged (machineOf entries reports)) : InDev p.name := by
  rcases mem_names_merged.mp (List.mem_map_of_mem h) with hr | ⟨e, he, -, hname⟩
  · obtain ⟨r, hr, hname⟩ := List.mem_map.mp hr
    rw [← hname]
    exact hreports r hr
  · exact ⟨e, hentries e he, hname.symm⟩

/-- The ports of such a machine differ in their keys. -/
theorem eq_of_key_eq (hentries : ∀ e ∈ entries, '/' ∉ e.toList)
    (hreports : ∀ r ∈ reports, InDev r.1) :
    ∀ p ∈ merged (machineOf entries reports), ∀ q ∈ merged (machineOf entries reports),
      key p.name = key q.name → p = q := by
  intro p hp q hq hkey
  have hname : p.name = q.name :=
    key_inj (inDev_of_mem_merged hentries hreports hp) (inDev_of_mem_merged hentries hreports hq)
      hkey
  exact List.inj_on_of_nodup_map (nodup_merge _) hp hq hname

end Orders

/-- What a list of ports has to be for some entries of `/dev` and some reports. -/
structure Listed (entries : List String) (reports : List (String × PortKind))
    (found : List PortInfo) : Prop where
  /-- Every name stands there once. -/
  nodup : (found.map (·.name)).Nodup
  /-- The names are the reported ones and those of the serial devices among the entries. -/
  names : ∀ name, name ∈ found.map (·.name) ↔
    name ∈ reports.map (·.1) ∨
      ∃ e ∈ entries, ("ttyACM".toList <+: e.toList ∨ "ttyUSB".toList <+: e.toList) ∧
        "/dev/" ++ e = name
  /-- A reported name comes with what is reported of it first, any other with nothing. -/
  known : ∀ p ∈ found, p =
    ((reports.find? (·.1 == p.name)).map fun r => .ofReport r.1 r.2).getD { name := p.name }
  /-- Every name is directly under `/dev`, and its key is the one that belongs to its end. -/
  keyed : ∀ p ∈ found, ∃ base : String, '/' ∉ base.toList ∧ p.name = "/dev/" ++ base ∧
    HasKey base (key p.name)
  /-- The keys rise from each port to the next. -/
  rising : found.Pairwise fun p q => (key p.name).place < (key q.name).place

/-- **Discovery lists every port once, and in one order only.**  Let the ports that are reported be
directly under `/dev`.  Then the list is as it has to be (`Listed`), and it is the same however the
merged ports are enumerated, in whichever order `/dev` lists its entries, and, while no name is
reported twice, in whichever order the ports are reported. -/
theorem discovery_is_orderly (entries : List String) (reports : List (String × PortKind))
    (hentries : ∀ e ∈ entries, '/' ∉ e.toList) (hreports : ∀ r ∈ reports, InDev r.1) :
    let found := discover (machineOf entries reports)
    Listed entries reports found ∧
    (∀ values, values.Perm (merged (machineOf entries reports)) →
      sortBy PortInfo.name values = found) ∧
    (∀ entries', (∀ e, e ∈ entries' ↔ e ∈ entries) →
      discover (machineOf entries' reports) = found) ∧
    (∀ reports', reports'.Perm reports → (reports.map (·.1)).Nodup →
      discover (machineOf entries reports') = found) := by
  intro found
  have hperm : found.Perm (merged (machineOf entries reports)) := sortBy_perm _ _
  have hkeys := eq_of_key_eq hentries hreports
  have hsame : ∀ values, values.Perm (merged (machineOf entries reports)) →
      sortBy PortInfo.name values = found :=
    fun values h => (sortBy_eq_of_perm h.symm hkeys).symm
  have hnodup : (found.map (·.name)).Nodup :=
    (hperm.map _).nodup_iff.mpr (nodup_merge _)
  refine ⟨⟨hnodup, ?_, ?_, ?_, ?_⟩, hsame, ?_, ?_⟩
  · intro name
    rw [(hperm.map _).mem_iff]
    exact mem_names_merged
  · exact fun p hp => eq_of_mem_merged (hperm.mem_iff.mp hp)
  · intro p hp
    obtain ⟨base, hbase, hname⟩ :=
      inDev_of_mem_merged hentries hreports (hperm.mem_iff.mp hp)
    refine ⟨base, hbase, hname, ?_⟩
    have hkey := hasKey_key p.name
    rwa [hname, baseName_inDev hbase, ← hname] at hkey
  · -- Keys that do not fall rise, since two ports of one key would be of one name.
    have hne : found.Pairwise fun p q => p.name ≠ q.name := List.pairwise_map.mp hnodup
    have hle := pairwise_sortBy PortInfo.name (merged (machineOf entries reports))
    refine (hne.and hle).imp_of_mem ?_
    rintro p q hp hq ⟨hname, hplace⟩
    refine lt_of_le_of_ne hplace fun heq => hname ?_
    rw [hkeys p (hperm.mem_iff.mp hp) q (hperm.mem_iff.mp hq) (Key.place_inj heq)]
  · exact fun entries' h => hsame _ (merged_perm_of_entries h)
  · exact fun reports' h hdistinct => hsame _ (merged_perm_of_reports h hdistinct)

/-- Two names with one number, a number too large, and a device that is both reported and in
`/dev`: the list is the same with the entries and the reports turned round. -/
theorem discovery_is_orderly_colliding :
    let entries := ["ttyUSB+1", "ttyACM01", "null", "ttyACM18446744073709551616", "ttyACM1"]
    let reports := [("/dev/ttyACM1", .usb 0x2341 0x43 (some "Uno")), ("/dev/ttyS0", .other)]
    let found := [{ name := "/dev/ttyACM01" },
      { name := "/dev/ttyACM1", vid := some 0x2341, pid := some 0x43, product := some "Uno" },
      { name := "/dev/ttyACM18446744073709551616" }, { name := "/dev/ttyUSB+1" },
      { name := "/dev/ttyS0" }]
    Listed entries reports found ∧ discover (machineOf entries reports) = found ∧
      discover (machineOf entries.reverse reports) = found ∧
      discover (machineOf entries reports.reverse) = found := by
  intro entries reports found
  obtain ⟨hlisted, hvalues, hentries, hreports⟩ :=
    discovery_is_orderly entries reports (by decide) (by
      intro r hr
      rcases List.mem_cons.mp hr with rfl | hr
      · exact ⟨"ttyACM1", by decide, rfl⟩
      · cases List.mem_singleton.mp hr
        exact ⟨"ttyS0", by decide, rfl⟩)
  have hsorted : sortBy PortInfo.name found = found :=
    List.mergeSort_of_pairwise (by decide +kernel)
  have hfound : discover (machineOf entries reports) = found := by
    rw [← hvalues found (by decide +kernel), hsorted]
  rw [hfound] at hlisted hentries hreports
  exact ⟨hlisted, hfound, hentries _ fun e => List.mem_reverse,
    hreports _ (List.reverse_perm _) (by decide)⟩

end SerialBridge.Port
