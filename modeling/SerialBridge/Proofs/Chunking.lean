import SerialBridge.Plan.Chunks

/-! # Chunks make up the payload

Cutting a payload into lines, cutting pieces of full size off a line and packing what is
left only ever move a boundary.  Each of the three keeps the bytes and their order, so
the chunks of a payload, one after another, are the payload.

Whether a payload is cut at all depends on the bound alone (`chunks?_eq_some_iff`): the
buffer is made before the payload is looked at.
-/

namespace SerialBridge

theorem flatten_inclusiveLines (payload : Bytes) : (inclusiveLines payload).flatten = payload := by
  induction payload with
  | nil => rfl
  | cons b rest ih =>
    rw [inclusiveLines]
    split
    · rw [List.flatten_cons, ih, List.singleton_append]
    · split
      · rename_i hnil
        rw [← ih, hnil, List.flatten_singleton, List.flatten_nil]
      · rename_i line lines hcons
        rw [← ih, hcons, List.flatten_cons, List.flatten_cons, List.cons_append]

theorem flatten_cutFull (size n : Nat) (bytes : Bytes) :
    (cutFull size n bytes).1.flatten ++ (cutFull size n bytes).2 = bytes := by
  induction n generalizing bytes with
  | zero => rfl
  | succ n ih =>
    rw [cutFull]
    split
    · rfl
    · rw [List.flatten_cons, List.append_assoc, ih, List.take_append_drop]

/-- What fits into a chunk is not cut. -/
theorem cutFull_of_length_le {size : Nat} {bytes : Bytes} (h : bytes.length ≤ size) (n : Nat) :
    cutFull size n bytes = ([], bytes) := by
  cases n with
  | zero => rfl
  | succ n => rw [cutFull, List.drop_of_length_le h, List.isEmpty_nil, if_pos rfl]

/-- A line that does not fit beside the chunk under way closes it, and one that does is
not cut; so the chunk under way goes out before the line either way. -/
theorem flatten_packLines (size : Nat) (current : Bytes) (lines : List Bytes) :
    (packLines size current lines).flatten = current ++ lines.flatten := by
  induction lines generalizing current with
  | nil =>
    rw [packLines, List.flatten_nil, List.append_nil]
    split
    · rename_i hempty
      rw [List.isEmpty_iff.mp hempty, List.flatten_nil]
    · exact List.flatten_singleton
  | cons line lines ih =>
    have hline := flatten_cutFull size line.length line
    rw [packLines, List.flatten_append, List.flatten_append, ih, List.flatten_cons]
    split
    -- the chunk under way is closed, and the line starts a new one
    · rw [List.flatten_singleton, List.nil_append, List.append_assoc,
        ← List.append_assoc _ _ lines.flatten, hline]
    -- the line joins the chunk under way, which is empty or leaves room for all of it
    · rename_i hroom
      rw [List.flatten_nil, List.nil_append, List.append_assoc current]
      by_cases hnil : current = []
      · rw [hnil, List.nil_append, List.nil_append, ← List.append_assoc, hline]
      · have hfits : line.length ≤ size := by
          simp only [List.isEmpty_eq_false_iff.mpr hnil, Bool.not_false, Bool.true_and,
            decide_eq_true_eq] at hroom
          omega
        rw [cutFull_of_length_le hfits, List.flatten_nil, List.nil_append]

/-- **The chunks of a payload make it up.** -/
theorem flatten_chunks (payload : Bytes) (size : Nat) :
    (chunks payload size).flatten = payload := by
  rw [chunks, flatten_packLines, List.nil_append, flatten_inclusiveLines]

/-- A payload is cut exactly if a buffer can be made for the bound. -/
theorem chunks?_eq_some_iff {payload : Bytes} {size : Nat} {parts : List Bytes} :
    chunks? payload size = some parts ↔ size ≤ maxBuffer ∧ chunks payload size = parts := by
  have hone : 1 ≤ maxBuffer := by decide
  unfold chunks?
  by_cases hsize : size ≤ maxBuffer
  · rw [if_pos (Nat.max_le.mpr ⟨hsize, hone⟩), Option.some_inj, and_iff_right hsize]
  · rw [if_neg fun hmax => hsize (Nat.max_le.mp hmax).1]
    exact iff_of_false (Option.some_ne_none _).symm fun h => hsize h.1

end SerialBridge
