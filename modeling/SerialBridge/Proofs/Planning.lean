import SerialBridge.Plan
import SerialBridge.Proofs.Chunking
import SerialBridge.Proofs.Framing

/-! # What a plan carries

A plan of chunks carries the whole payload, and a plan of one blob the front of it up to
the ceiling (`body_build`).

The automatic mode takes a blob when its *encoding* fits under the ceiling, but the blob is
cut where the *payload* passes it.  The two measures part over carriage returns, which an
encoding leaves out: a payload whose encoding fits can be longer than the ceiling, and then
its end is cut off.  That is the only case in which the automatic mode loses anything
(`auto_keeps_payload_iff`).
-/

namespace SerialBridge

namespace Plan

/-- The payload that all frames carry together. -/
def body (p : Plan) : Bytes :=
  p.frames.flatMap Frame.body

theorem length_flatMap_body (frames : List Frame) :
    (frames.flatMap Frame.body).length = bytesOf frames := by
  induction frames with
  | nil => rfl
  | cons f frames ih =>
    rw [List.flatMap_cons, List.length_append, ih, f.length_body]
    rfl

theorem length_body (p : Plan) : p.body.length = p.payloadLength :=
  length_flatMap_body p.frames

variable (payload : Bytes) (settings : TransferSettings)

theorem build_singleShot (h : choose payload settings = .singleShot) :
    build payload settings =
      { strategy := .singleShot
        frames := [.blob (payload.take settings.blobCeiling.toNat)]
        truncatedFrom :=
          if settings.blobCeiling.toNat < payload.length then some payload.length else none } := by
  rw [build, h]

theorem build_paced (h : choose payload settings = .paced) :
    build payload settings =
      { strategy := .paced
        frames := (chunks payload settings.chunkSize.toNat).map .chunk
        truncatedFrom := none } := by
  rw [build, h]

theorem strategy_build : (build payload settings).strategy = choose payload settings := by
  cases h : choose payload settings with
  | singleShot => rw [build_singleShot _ _ h]
  | paced => rw [build_paced _ _ h]

/-- A plan is made exactly if it is one blob or a buffer can be made for a chunk. -/
theorem build?_eq_some_iff {plan : Plan} :
    build? payload settings = some plan ↔
      (choose payload settings = .singleShot ∨ settings.chunkSize.toNat ≤ maxBuffer) ∧
        build payload settings = plan := by
  unfold build?
  cases h : choose payload settings with
  | singleShot => simp only [Option.some_inj, true_or, true_and]
  | paced =>
    simp only [build_paced _ _ h, Option.map_eq_some_iff, chunks?_eq_some_iff, reduceCtorEq,
      false_or]
    constructor
    · rintro ⟨parts, ⟨hroom, rfl⟩, hplan⟩
      exact ⟨hroom, hplan⟩
    · rintro ⟨hroom, hplan⟩
      exact ⟨_, ⟨hroom, rfl⟩, hplan⟩

/-- A plan of chunks carries the payload, a plan of one blob as much of it as the ceiling
allows. -/
theorem body_build :
    (build payload settings).body =
      match choose payload settings with
      | .singleShot => payload.take settings.blobCeiling.toNat
      | .paced => payload := by
  cases h : choose payload settings with
  | singleShot =>
    rw [build_singleShot _ _ h, body, List.flatMap_singleton]
    rfl
  | paced =>
    have hbody : ∀ c : Bytes, (Frame.chunk c).body = c := fun _ => rfl
    rw [build_paced _ _ h, body, List.flatMap_map]
    simp only [hbody, List.flatMap_id', flatten_chunks]

/-- The plan says how long the payload was exactly when it was cut. -/
theorem truncatedFrom_build :
    (build payload settings).truncatedFrom =
      if choose payload settings = .singleShot ∧ settings.blobCeiling.toNat < payload.length then
        some payload.length else none := by
  cases h : choose payload settings with
  | singleShot => simp only [build_singleShot _ _ h, true_and]
  | paced => simp only [build_paced _ _ h, reduceCtorEq, false_and, if_false]

/-- Every frame of a plan belongs to an upload. -/
theorem ofUpload_of_mem_build {f : Frame} (hf : f ∈ (build payload settings).frames) :
    f.OfUpload := by
  cases h : choose payload settings with
  | singleShot =>
    rw [build_singleShot _ _ h] at hf
    rw [List.mem_singleton.mp hf]
    trivial
  | paced =>
    rw [build_paced _ _ h] at hf
    obtain ⟨c, -, rfl⟩ := List.mem_map.mp hf
    trivial

/-- What a plan carries is a front of the payload. -/
theorem body_build_front : (build payload settings).body <+: payload := by
  rw [body_build]
  cases choose payload settings with
  | singleShot => exact List.take_prefix _ _
  | paced => exact List.prefix_rfl

/-- A payload is never cut into no frames at all. -/
theorem frames_build_ne_nil (h : payload ≠ []) : (build payload settings).frames ≠ [] := by
  intro hnil
  have hbody := body_build payload settings
  rw [body, hnil, List.flatMap_nil] at hbody
  cases hs : choose payload settings with
  | singleShot =>
    rw [build_singleShot _ _ hs] at hnil
    cases hnil
  | paced =>
    rw [hs] at hbody
    exact h hbody.symm

/-- A device that receives the frames of a plan puts together what the plan carries, if
nothing in the payload is lost or misread in an escaped body. -/
theorem payloadOf_build (hcr : carriageReturn ∉ payload) (hmark : ¬ placeholder <:+: payload) :
    payloadOf ((build payload settings).frames.flatMap Frame.encode) =
      (build payload settings).body := by
  have inside : ∀ f ∈ (build payload settings).frames, f.body <:+: payload := by
    intro f hf
    have hbody : f.body <:+: (build payload settings).body :=
      List.infix_of_mem_flatten (List.mem_map.mpr ⟨f, hf, rfl⟩)
    exact hbody.trans (body_build_front payload settings).isInfix
  refine payloadOf_encodings (fun f hf => ofUpload_of_mem_build payload settings hf) ?_ ?_
  · exact fun f hf hmem => hcr ((inside f hf).subset hmem)
  · exact fun f hf hwithin => hmark (hwithin.trans (inside f hf))

/-- In the automatic mode a blob is taken exactly when its encoding fits. -/
theorem choose_auto (h : settings.mode = .auto) :
    choose payload settings = .singleShot ↔
      Frame.blobLength payload ≤ settings.blobCeiling.toNat := by
  have hchoose : choose payload settings =
      if Frame.blobLength payload ≤ settings.blobCeiling.toNat then .singleShot else .paced := by
    rw [choose, h]
  rw [hchoose]
  split
  · rename_i hfits
    exact iff_of_true rfl hfits
  · rename_i hlong
    exact iff_of_false (fun hs => nomatch hs) hlong

/-- A payload without carriage returns is only ever cut in the single-shot mode. -/
theorem body_build_of_mode_ne (hcr : carriageReturn ∉ payload) (h : settings.mode ≠ .singleShot) :
    (build payload settings).body = payload := by
  rw [body_build]
  cases hmode : settings.mode with
  | singleShot => exact absurd hmode h
  | paced => simp only [choose, hmode]
  | auto =>
    cases hs : choose payload settings with
    | paced => rfl
    | singleShot =>
      have hfits := (choose_auto payload settings hmode).mp hs
      have hlength := length_le_escapedLength hcr
      rw [Frame.blobLength] at hfits
      exact List.take_of_length_le (by omega)

/-- In the single-shot mode the plan carries the payload up to the ceiling. -/
theorem body_build_singleShot (h : settings.mode = .singleShot) :
    (build payload settings).body = payload.take settings.blobCeiling.toNat := by
  rw [body_build]
  simp only [choose, h]

/-- A plan carries a payload without carriage returns whole, except in the single-shot mode,
where it carries the front of it up to the ceiling. -/
theorem body_build_eq (hcr : carriageReturn ∉ payload) :
    (build payload settings).body =
      if settings.mode = .singleShot then payload.take settings.blobCeiling.toNat else payload := by
  split
  · rename_i h
    exact body_build_singleShot payload settings h
  · rename_i h
    exact body_build_of_mode_ne payload settings hcr h

/-- **The automatic mode loses nothing** unless the encoding of a payload fits under the
ceiling while the payload itself is longer, and then it does cut the payload: its plan
says so, the bodies are not the payload, and their lengths do not add up to its own. -/
theorem auto_keeps_payload_iff (payload : Bytes) (settings : TransferSettings)
    (h : settings.mode = .auto) :
    let plan := Plan.build payload settings
    let ceiling := settings.blobCeiling.toNat
    let cut := Frame.blobLength payload ≤ ceiling ∧ ceiling < payload.length
    (plan.truncatedFrom = none ↔ ¬ cut) ∧
      (plan.body = payload ↔ ¬ cut) ∧
      (plan.payloadLength = payload.length ↔ ¬ cut) := by
  intro plan ceiling cut
  have hcut : (choose payload settings = .singleShot ∧ ceiling < payload.length) ↔ cut :=
    and_congr_left' (choose_auto payload settings h)
  by_cases hc : cut
  -- the lengths tell that bytes are missing, so the bodies are not the payload either
  · obtain ⟨hs, hlong⟩ := hcut.mpr hc
    have htruncated : plan.truncatedFrom = some payload.length := by
      rw [truncatedFrom_build, if_pos ⟨hs, hlong⟩]
    have hbody : plan.body = payload.take ceiling := by rw [body_build, hs]
    have hlength : plan.payloadLength ≠ payload.length := by
      rw [← length_body, hbody, List.length_take]
      omega
    have hne : plan.body ≠ payload := fun he => hlength (by rw [← length_body, he])
    simp only [htruncated, hne, hlength, hc, not_true_eq_false, reduceCtorEq]
    exact ⟨trivial, trivial, trivial⟩
  · have htruncated : plan.truncatedFrom = none := by
      rw [truncatedFrom_build, if_neg (hc ∘ hcut.mp)]
    have hbody : plan.body = payload := by
      rw [body_build]
      cases hs : choose payload settings with
      | paced => rfl
      | singleShot => exact List.take_of_length_le (Nat.not_lt.mp fun hlt => hc (hcut.mp ⟨hs, hlt⟩))
    have hlength : plan.payloadLength = payload.length := by rw [← length_body, hbody]
    exact ⟨iff_of_true htruncated hc, iff_of_true hbody hc, iff_of_true hlength hc⟩

/-- Two lines under a ceiling that their encoding just reaches are kept. -/
theorem auto_keeps_two_lines :
    let settings : TransferSettings := { mode := .auto, blobCeiling := 15 }
    let payload : Bytes := [0x61, carriageReturn, lineFeed, 0x62, lineFeed]
    settings.mode = .auto ∧ (build payload settings).body = payload :=
  ⟨rfl, (auto_keeps_payload_iff [0x61, carriageReturn, lineFeed, 0x62, lineFeed]
    { mode := .auto, blobCeiling := 15 } rfl).2.1.mpr (by decide)⟩

/-- A letter after eight carriage returns is lost under a ceiling of eight: the encoding of
the payload has eight bytes and fits, the payload has nine and is cut. -/
theorem auto_loses_letter :
    ¬ ∀ (payload : Bytes) (settings : TransferSettings), settings.mode = .auto →
      (build payload settings).truncatedFrom = none ∧ (build payload settings).body = payload := by
  intro h
  have hkept := h (List.replicate 8 carriageReturn ++ [0x61])
    { mode := .auto, blobCeiling := 8 } rfl
  exact absurd hkept.1 (by decide)

end Plan

end SerialBridge
