import SerialBridge.Proofs.Cuts

/-! # Frames show where they end

A frame is one line: it ends with a line feed and holds no other, whatever text or bytes it
carries, and it holds no carriage return.  Lines written one after another come apart in one way
only (`inclusiveLines_flatten`), so whoever cuts the wire behind every line feed has the frames
again, in order.  The result is `frames_delimit_themselves`.
-/

namespace SerialBridge

/-- The bytes are one line: they end with a line feed and hold no other. -/
def OneLine (bytes : Bytes) : Prop :=
  ∃ line, bytes = line ++ [lineFeed] ∧ lineFeed ∉ line

/-- Lines written one after another are the lines of what was written. -/
theorem inclusiveLines_flatten {parts : List Bytes} (h : ∀ p ∈ parts, OneLine p) :
    inclusiveLines parts.flatten = parts := by
  induction parts with
  | nil => rfl
  | cons p parts ih =>
    obtain ⟨⟨line, rfl, hline⟩, hparts⟩ := List.forall_mem_cons.mp h
    rw [List.flatten_cons, List.append_assoc, List.singleton_append, inclusiveLines_line hline,
      ih hparts]

namespace Frame

theorem oneLine_encode (f : Frame) : OneLine f.encode :=
  ⟨f.line, rfl, f.lineFeed_notMem_line⟩

theorem carriageReturn_notMem_encode (f : Frame) : carriageReturn ∉ f.encode := by
  intro h
  rcases List.mem_append.mp h with hline | hend
  · exact f.carriageReturn_notMem_line hline
  · exact absurd (List.mem_singleton.mp hend) (by decide)

/-- A blob is as long as predicted. -/
theorem length_encode_blob (body : Bytes) : (blob body).encode.length = blobLength body := by
  rw [encode, line, List.length_append, List.length_append, Utf8.length_encode, length_escape,
    blobLength, List.length_singleton]

/-- **Frames show where they end.**  A frame of any kind is one line without carriage returns.
So frames written one after another are cut apart again behind every line feed, and there is no
other way to cut what was written into lines; and a blob is as long as predicted. -/
theorem frames_delimit_themselves (frames : List Frame) :
    (∀ f : Frame, OneLine f.encode ∧ carriageReturn ∉ f.encode) ∧
      inclusiveLines (frames.flatMap encode) = frames.map encode ∧
      (∀ parts, (∀ p ∈ parts, OneLine p) → parts.flatten = frames.flatMap encode →
        parts = frames.map encode) ∧
      ∀ body, (blob body).encode.length = blobLength body := by
  have hcut : inclusiveLines (frames.flatMap encode) = frames.map encode := by
    rw [List.flatMap_def]
    refine inclusiveLines_flatten fun p hp => ?_
    obtain ⟨f, -, rfl⟩ := List.mem_map.mp hp
    exact f.oneLine_encode
  refine ⟨fun f => ⟨f.oneLine_encode, f.carriageReturn_notMem_encode⟩, hcut, ?_,
    length_encode_blob⟩
  intro parts hparts hwire
  rw [← hcut, ← hwire, inclusiveLines_flatten hparts]

/-- A message of two lines and a blob of two, both with carriage returns. -/
theorem frames_delimit_themselves_typed :
    [Utf8.encode "a\n", Utf8.encode "FILEB:b\uE000\n"] =
      [message "a\r\nx", blob (Utf8.encode "b\r\n")].map encode := by
  obtain ⟨-, -, honly, -⟩ :=
    frames_delimit_themselves [message "a\r\nx", blob (Utf8.encode "b\r\n")]
  refine honly _ ?_ (by decide)
  rw [List.forall_mem_cons, List.forall_mem_singleton]
  exact ⟨⟨Utf8.encode "a", by decide, by decide⟩,
    ⟨Utf8.encode "FILEB:b\uE000", by decide, by decide⟩⟩

end Frame

end SerialBridge
