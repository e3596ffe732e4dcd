import SerialBridge.Frame.Escape

/-! # What escaping keeps

An escaped body holds no line feed and no carriage return, and it is read back without the
carriage returns it had.  Nothing else is lost unless the body holds the bytes of the
placeholder itself, which are read as a line feed.  They may stand in the body or arise once
the carriage returns between them are gone; so the question is asked of what is left of the
body without these (`sent`).

A placeholder written for a line feed never changes how the bytes around it are read: it
begins with a byte it does not contain again.  So reading an escaped body finds the
placeholders of the body itself where they were, and one more for each line feed
(`unescape_escape_eq`).  The other way round, a line without breaks is always written back as
it was read, since the placeholders are the only bytes that reading changes
(`escape_unescape`).
-/

namespace SerialBridge

/-! ## Escaping -/

theorem escape_cons (b : UInt8) (body : Bytes) :
    escape (b :: body) = escapeByte b ++ escape body := rfl

theorem escapeByte_lineFeed : escapeByte lineFeed = placeholder := rfl

theorem escapeByte_of_ne {b : UInt8} (hlf : b ≠ lineFeed) (hcr : b ≠ carriageReturn) :
    escapeByte b = [b] := by
  simp only [escapeByte, if_neg hlf, if_neg hcr]

theorem length_escapeByte (b : UInt8) :
    (escapeByte b).length = if b = lineFeed then 3 else if b = carriageReturn then 0 else 1 := by
  unfold escapeByte
  split
  · rfl
  · split <;> rfl

/-- The predicted length is the length. -/
theorem length_escape (body : Bytes) : (escape body).length = escapedLength body := by
  induction body with
  | nil => rfl
  | cons b body ih =>
    rw [escape_cons, List.length_append, ih, length_escapeByte]
    rfl

/-- Without carriage returns, escaping makes no body shorter. -/
theorem length_le_escapedLength {body : Bytes} (hcr : carriageReturn ∉ body) :
    body.length ≤ escapedLength body := by
  induction body with
  | nil => exact Nat.le_refl _
  | cons b body ih =>
    obtain ⟨hb, hbody⟩ := List.ne_and_not_mem_of_not_mem_cons hcr
    have hbyte : 1 ≤ (escapeByte b).length := by
      rw [length_escapeByte]
      split
      · decide
      · exact Nat.le_of_eq (if_neg hb.symm).symm
    rw [← length_escape, escape_cons, List.length_append, length_escape, List.length_cons]
    have := ih hbody
    omega

/-- No byte of an escaped body breaks a line. -/
theorem ne_break_of_mem_escape {body : Bytes} {x : UInt8} (h : x ∈ escape body) :
    x ≠ lineFeed ∧ x ≠ carriageReturn := by
  obtain ⟨b, -, hx⟩ := List.mem_flatMap.mp h
  by_cases hlf : b = lineFeed
  · rw [hlf, escapeByte_lineFeed] at hx
    simp only [placeholder, List.mem_cons, List.not_mem_nil, or_false] at hx
    rcases hx with rfl | rfl | rfl <;> decide
  · by_cases hcr : b = carriageReturn
    · rw [escapeByte, if_neg hlf, if_pos hcr] at hx
      cases hx
    · rw [escapeByte_of_ne hlf hcr, List.mem_singleton] at hx
      exact hx ▸ ⟨hlf, hcr⟩

theorem lineFeed_notMem_escape (body : Bytes) : lineFeed ∉ escape body :=
  fun h => (ne_break_of_mem_escape h).1 rfl

theorem carriageReturn_notMem_escape (body : Bytes) : carriageReturn ∉ escape body :=
  fun h => (ne_break_of_mem_escape h).2 rfl

/-- Bytes without the placeholder's first one that stand at the front of an escaped
body stand at the front of the body. -/
theorem prefix_of_prefix_escape {p body : Bytes} (hp : (0xEE : UInt8) ∉ p)
    (hcr : carriageReturn ∉ body) (h : p <+: escape body) : p <+: body := by
  induction p generalizing body with
  | nil => exact List.nil_prefix
  | cons x p ih =>
    cases body with
    | nil => exact h
    | cons b body =>
      obtain ⟨hb, hbody⟩ := List.ne_and_not_mem_of_not_mem_cons hcr
      obtain ⟨hx, hp'⟩ := List.ne_and_not_mem_of_not_mem_cons hp
      by_cases hlf : b = lineFeed
      -- the placeholder would begin with the byte that `p` does not have
      · rw [escape_cons, hlf, escapeByte_lineFeed] at h
        exact absurd (List.cons_prefix_cons.mp h).1.symm hx
      · rw [escape_cons, escapeByte_of_ne hlf hb.symm] at h
        obtain ⟨rfl, htail⟩ := List.cons_prefix_cons.mp h
        exact List.cons_prefix_cons.mpr ⟨rfl, ih hp' hbody htail⟩

/-! ## Reading back -/

theorem unescape_placeholder (rest : Bytes) :
    unescape (placeholder ++ rest) = lineFeed :: unescape rest := rfl

theorem unescape_cons {b : UInt8} {rest : Bytes} (h : ¬ placeholder <+: b :: rest) :
    unescape (b :: rest) = b :: unescape rest := by
  rw [unescape]
  rintro more rfl rfl
  exact h ⟨more, rfl⟩

/-- Escaping writes a placeholder behind bytes that cannot be the front of one, so a byte that
begins no placeholder begins none in the escaped body. -/
theorem not_prefix_escape {b : UInt8} {body : Bytes} (hcr : carriageReturn ∉ body)
    (h : ¬ placeholder <+: b :: body) : ¬ placeholder <+: b :: escape body := by
  intro hp
  obtain ⟨hb, htail⟩ := List.cons_prefix_cons.mp hp
  have hback := prefix_of_prefix_escape (by decide) hcr htail
  exact h (List.cons_prefix_cons.mpr ⟨hb, hback⟩)

/-- Where reading takes one byte, no placeholder begins. -/
theorem not_prefix_of_match {b : UInt8} {rest : Bytes}
    (h : ∀ more, b = 0xEE → rest = 0x80 :: 0x80 :: more → False) : ¬ placeholder <+: b :: rest := by
  rintro ⟨more, hmore⟩
  injection hmore with hb hrest
  exact h more hb.symm hrest.symm

/-- An escaped body reads back as the body itself would, placeholders and all. -/
theorem unescape_escape_eq {body : Bytes} (hcr : carriageReturn ∉ body) :
    unescape (escape body) = unescape body := by
  fun_induction unescape body with
  | case1 rest ih =>
    have hrest : carriageReturn ∉ rest := by
      intro h
      apply hcr
      simp [h]
    show unescape (placeholder ++ escape rest) = _
    rw [unescape_placeholder, ih hrest]
  | case2 b rest hmatch ih =>
    obtain ⟨hb, hrest⟩ := List.ne_and_not_mem_of_not_mem_cons hcr
    by_cases hlf : b = lineFeed
    · rw [hlf, escape_cons, escapeByte_lineFeed, unescape_placeholder, ih hrest]
    · have hfirst := not_prefix_escape hrest (not_prefix_of_match hmatch)
      rw [escape_cons, escapeByte_of_ne hlf hb.symm, List.singleton_append, unescape_cons hfirst,
        ih hrest]
  | case3 => rfl

/-- Reading changes nothing exactly where there is no placeholder. -/
theorem unescape_eq_self_iff (body : Bytes) : unescape body = body ↔ ¬ placeholder <:+: body := by
  fun_induction unescape body with
  | case1 rest ih =>
    refine iff_of_false (fun h => ?_) fun h => h ?_
    -- a line feed would stand where the placeholder begins
    · injection h with hfirst
      exact absurd hfirst (by decide)
    · exact (List.prefix_append placeholder rest).isInfix
  | case2 b rest hmatch ih =>
    rw [List.cons.injEq, List.infix_cons_iff, not_or]
    simp [ih, not_prefix_of_match hmatch]
  | case3 => exact iff_of_true rfl (by decide)

/-- **A body reads back as it was** if it holds no carriage return and no placeholder. -/
theorem unescape_escape {body : Bytes} (hcr : carriageReturn ∉ body)
    (hmark : ¬ placeholder <:+: body) : unescape (escape body) = body := by
  rw [unescape_escape_eq hcr]
  exact (unescape_eq_self_iff body).mpr hmark

/-- **What is read from a line without breaks is written as that line.** -/
theorem escape_unescape {line : Bytes} (hlf : lineFeed ∉ line) (hcr : carriageReturn ∉ line) :
    escape (unescape line) = line := by
  fun_induction unescape line with
  | case1 rest ih =>
    have hrest : lineFeed ∉ rest ∧ carriageReturn ∉ rest := by
      simp only [List.mem_cons, not_or] at hlf hcr
      exact ⟨hlf.2.2.2, hcr.2.2.2⟩
    rw [escape_cons, escapeByte_lineFeed, ih hrest.1 hrest.2]
    rfl
  | case2 b rest _ ih =>
    obtain ⟨hb, hrest⟩ := List.ne_and_not_mem_of_not_mem_cons hlf
    obtain ⟨hb', hrest'⟩ := List.ne_and_not_mem_of_not_mem_cons hcr
    rw [escape_cons, escapeByte_of_ne hb.symm hb'.symm, ih hrest hrest', List.singleton_append]
  | case3 => rfl

/-! ## What is sent -/

/-- What is sent of a body: all but its carriage returns. -/
def sent (body : Bytes) : Bytes :=
  body.filter (· != carriageReturn)

theorem carriageReturn_notMem_sent (body : Bytes) : carriageReturn ∉ sent body := by
  simp [sent]

theorem escape_sent (body : Bytes) : escape (sent body) = escape body := by
  induction body with
  | nil => rfl
  | cons b body ih =>
    by_cases hcr : b = carriageReturn
    · subst hcr
      simpa [sent, escape_cons, escapeByte, lineFeed, carriageReturn] using ih
    · rw [sent, List.filter_cons_of_pos (by simpa using hcr), escape_cons, escape_cons]
      exact congrArg (escapeByte b ++ ·) ih

/-- **What escaping and reading back keep.**  A body reads back as what is sent of it would,
which is what is sent of it unless that holds a placeholder; its escaped form has no breaks
and the predicted length; and a line without breaks is the escaped form of what it reads as. -/
theorem escape_keeps (body line : Bytes) :
    unescape (escape body) = unescape (sent body) ∧
      (unescape (escape body) = sent body ↔ ¬ placeholder <:+: sent body) ∧
      (lineFeed ∉ line → carriageReturn ∉ line → escape (unescape line) = line) ∧
      lineFeed ∉ escape body ∧ carriageReturn ∉ escape body ∧
      (escape body).length = escapedLength body := by
  have hback : unescape (escape body) = unescape (sent body) := by
    rw [← escape_sent, unescape_escape_eq (carriageReturn_notMem_sent body)]
  refine ⟨hback, ?_, escape_unescape, lineFeed_notMem_escape body,
    carriageReturn_notMem_escape body, length_escape body⟩
  rw [hback]
  exact unescape_eq_self_iff (sent body)

/-- A carriage return parts a placeholder and is not sent, so the body reads back as a line
feed; and the line of a half placeholder and a whole one is written back as it was. -/
theorem escape_keeps_parted_placeholder :
    unescape (escape [0xEE, carriageReturn, 0x80, 0x80]) = [lineFeed] ∧
      ¬ unescape (escape [0xEE, carriageReturn, 0x80, 0x80]) =
        sent [0xEE, carriageReturn, 0x80, 0x80] ∧
      escape (unescape [0xEE, 0x80, 0xEE, 0x80, 0x80]) = [0xEE, 0x80, 0xEE, 0x80, 0x80] := by
  obtain ⟨hback, hiff, hline, -⟩ :=
    escape_keeps [0xEE, carriageReturn, 0x80, 0x80] [0xEE, 0x80, 0xEE, 0x80, 0x80]
  refine ⟨hback, fun h => hiff.mp h ?_, hline (by decide) (by decide)⟩
  exact ⟨[], [], rfl⟩

end SerialBridge
