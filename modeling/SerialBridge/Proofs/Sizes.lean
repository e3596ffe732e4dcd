import Mathlib.Data.List.TakeDrop
import SerialBridge.Proofs.Delimiting
import SerialBridge.Proofs.Planning
import SerialBridge.Transfer

/-! # How long the frames of a plan are

A body is measured twice: by its own bytes, and by those it takes on the wire.  Escaping adds
two bytes for each line feed and takes one away for each carriage return
(`escapedLength_add_count`), and a blob has seven bytes more, for its tag and its terminator.

The automatic mode measures on the wire.  What it sends as one blob fits under the ceiling, also
where the payload is cut, because the front of a body is never longer on the wire than all of it.
The single-shot mode measures the payload, so its frame can pass the ceiling, by the tag and the
line feeds; `single_shot_fits_iff` says when it does, and that it takes three times the ceiling and
seven bytes at most.

What a plan carries is a front of the payload in every mode, and its length is what callers are
told to expect of the upload (`AddsUp`).  Every plan that is made adds up, but not every plan can
be made: a paced one needs a buffer for its chunks (`made_plans_add_up`).
-/

namespace SerialBridge

/-! ## Escaped bodies -/

theorem escapedLength_cons (b : UInt8) (body : Bytes) :
    escapedLength (b :: body) =
      (if b = lineFeed then 3 else if b = carriageReturn then 0 else 1) + escapedLength body := rfl

/-- Escaping adds two bytes for each line feed and takes one for each carriage return. -/
theorem escapedLength_add_count (body : Bytes) :
    escapedLength body + body.count carriageReturn = body.length + 2 * body.count lineFeed := by
  induction body with
  | nil => rfl
  | cons b body ih =>
    rw [escapedLength_cons, List.length_cons]
    by_cases hlf : b = lineFeed
    · have hcr : lineFeed ≠ carriageReturn := by decide
      rw [if_pos hlf, hlf, List.count_cons_self, List.count_cons_of_ne hcr]
      omega
    · rw [if_neg hlf, List.count_cons_of_ne hlf]
      by_cases hcr : b = carriageReturn
      · rw [if_pos hcr, hcr, List.count_cons_self]
        omega
      · rw [if_neg hcr, List.count_cons_of_ne hcr]
        omega

theorem escapedLength_le (body : Bytes) : escapedLength body ≤ 3 * body.length := by
  have hsum := escapedLength_add_count body
  have hcount : body.count lineFeed ≤ body.length := List.count_le_length
  omega

/-- The front of a body is no longer on the wire than all of it. -/
theorem escapedLength_le_of_prefix {front body : Bytes} (h : front <+: body) :
    escapedLength front ≤ escapedLength body := by
  obtain ⟨rest, rfl⟩ := h
  rw [← length_escape, ← length_escape, escape_append, List.length_append]
  exact Nat.le_add_right _ _

theorem Frame.blobLength_eq (body : Bytes) : blobLength body = 7 + escapedLength body := by
  have htag : blobTag.utf8ByteSize = 6 := by decide
  rw [blobLength, htag]
  omega

/-- What is told of a new upload are the totals of its plan. -/
theorem Engine.progress_begin {e : Engine} (hfree : e.active = none) (client : ClientId)
    {payload : Bytes} (hpayload : payload ≠ []) (announced : Bool) :
    (e.begin client payload announced).1.progress? =
      some { client
             strategy := (Plan.build payload e.settings).strategy
             totalBytes := (Plan.build payload e.settings).payloadLength
             totalFrames := (Plan.build payload e.settings).frames.length
             bytesSent := 0
             framesSent := 0 } := by
  have hnonempty : ¬ payload.isEmpty = true := by rwa [List.isEmpty_iff]
  rw [begin, if_neg hnonempty, hfree]
  rfl

/-- A free engine is claimed with the plan that is made, and how much it carries is told. -/
theorem Engine.begin?_of_build? {e : Engine} (hfree : e.active = none) (client : ClientId)
    {payload : Bytes} (hpayload : payload ≠ []) (announced : Bool) {plan : Plan}
    (hplan : Plan.build? payload e.settings = some plan) :
    ∃ e' u, e.begin? client payload announced = some (e', .ok (some u)) ∧ u.plan = plan ∧
      e'.progress?.map (·.totalBytes) = some plan.payloadLength := by
  obtain ⟨-, rfl⟩ := (Plan.build?_eq_some_iff payload e.settings).mp hplan
  have hnonempty : ¬ payload.isEmpty = true := by rwa [List.isEmpty_iff]
  have hstarts : ¬ (payload.isEmpty || e.isActive) = true := by
    rw [Bool.or_eq_true, isActive, hfree]
    exact fun h => h.elim hnonempty Bool.false_ne_true
  have hmade : e.begin? client payload announced = some (e.begin client payload announced) := by
    rw [begin?, if_neg hstarts, hplan, Option.map_some]
  have hprogress := progress_begin hfree client hpayload announced
  rw [begin, if_neg hnonempty, hfree] at hmade hprogress
  exact ⟨_, _, hmade, rfl, by rw [hprogress, Option.map_some]⟩

namespace Plan

variable (payload : Bytes) (settings : TransferSettings)

/-! ## Plans of one blob -/

theorem frames_of_singleShot (h : (build payload settings).strategy = .singleShot) :
    (build payload settings).frames = [.blob (payload.take settings.blobCeiling.toNat)] := by
  rw [strategy_build] at h
  rw [build_singleShot payload settings h]

/-- What is sent as one blob in the automatic mode fits under the ceiling, cut or not. -/
theorem fits_of_auto (hauto : settings.mode = .auto)
    (hs : (build payload settings).strategy = .singleShot) :
    Frame.blobLength (payload.take settings.blobCeiling.toNat) ≤ settings.blobCeiling.toNat := by
  rw [strategy_build, choose_auto payload settings hauto, Frame.blobLength_eq] at hs
  rw [Frame.blobLength_eq]
  have hfront := escapedLength_le_of_prefix (List.take_prefix settings.blobCeiling.toNat payload)
  omega

/-- **When a single frame fits under the ceiling.**  In the automatic mode it always does.
Otherwise it does exactly if its seven bytes of tag and terminator, and two more for each line
feed, are made up for by what the body falls short of the ceiling and by its carriage returns.
It never takes more than three times the ceiling and those seven bytes. -/
theorem single_shot_fits_iff (payload : Bytes) (settings : TransferSettings)
    (h : (build payload settings).strategy = .singleShot) :
    let ceiling := settings.blobCeiling.toNat
    let sent := payload.take ceiling
    ∃ frame, (build payload settings).frames = [frame] ∧
      (frame.encode.length ≤ ceiling ↔
        settings.mode = .auto ∨
          7 + sent.length + 2 * sent.count lineFeed ≤ ceiling + sent.count carriageReturn) ∧
      frame.encode.length ≤ 7 + 3 * ceiling := by
  intro ceiling sent
  have hlength : (Frame.blob sent).encode.length = 7 + escapedLength sent := by
    rw [Frame.length_encode_blob, Frame.blobLength_eq]
  have hsum := escapedLength_add_count sent
  refine ⟨.blob sent, frames_of_singleShot payload settings h, ?_, ?_⟩
  · constructor
    · intro hfits
      right
      omega
    · rintro (hauto | hmade)
      · rw [Frame.length_encode_blob]
        exact fits_of_auto payload settings hauto h
      · omega
  · have hsent : sent.length ≤ ceiling := List.length_take_le _ _
    have hescaped := escapedLength_le sent
    omega

/-- Two lines with a line feed and two carriage returns: their frame takes thirteen bytes and fits
under a ceiling of fourteen. -/
theorem single_shot_fits_two_lines :
    let settings : TransferSettings := { blobCeiling := 14 }
    let payload : Bytes :=
      [0x61, 0x62, carriageReturn, lineFeed, 0x63, carriageReturn]
    (build payload settings).strategy = .singleShot ∧
      ∃ frame, (build payload settings).frames = [frame] ∧ frame.encode.length ≤ 14 := by
  intro settings payload
  obtain ⟨frame, hframes, hiff, -⟩ := single_shot_fits_iff payload settings rfl
  exact ⟨rfl, frame, hframes, hiff.mpr (.inr (by decide))⟩

/-- Two lines of five bytes under a ceiling of ten: their frame takes fourteen. -/
theorem single_shot_passes_ceiling :
    ¬ ∀ (payload : Bytes) (settings : TransferSettings), 7 ≤ settings.blobCeiling.toNat →
      (build payload settings).strategy = .singleShot →
      ∀ frame ∈ (build payload settings).frames,
        frame.encode.length ≤ settings.blobCeiling.toNat := by
  intro h
  have hfits := h [0x61, 0x62, lineFeed, 0x63, 0x64] { blobCeiling := 10 } (by decide) rfl
    (.blob [0x61, 0x62, lineFeed, 0x63, 0x64]) (by decide)
  exact absurd hfits (by decide)

/-! ## What plans add up to -/

/-- A plan carries the whole payload unless it is one blob and the payload passes the ceiling. -/
theorem body_build_eq_iff :
    (build payload settings).body = payload ↔
      ¬ (choose payload settings = .singleShot ∧ settings.blobCeiling.toNat < payload.length) := by
  rw [body_build]
  cases choose payload settings with
  | singleShot =>
    show payload.take settings.blobCeiling.toNat = payload ↔ _
    rw [List.take_eq_self_iff, eq_self, true_and, Nat.not_lt]
  | paced => exact iff_of_true rfl fun hcut => absurd hcut.1 (by decide)

/-- The plan says how long the payload was exactly when bytes were cut off it. -/
theorem truncatedFrom_build_eq :
    (build payload settings).truncatedFrom =
      if (build payload settings).body = payload then none else some payload.length := by
  rw [truncatedFrom_build]
  by_cases hcut : choose payload settings = .singleShot ∧
      settings.blobCeiling.toNat < payload.length
  · rw [if_pos hcut, if_neg fun hbody => (body_build_eq_iff payload settings).mp hbody hcut]
  · rw [if_neg hcut, if_pos ((body_build_eq_iff payload settings).mpr hcut)]

/-- A plan for a payload is what the settings ask for, and it adds up. -/
structure AddsUp (payload : Bytes) (settings : TransferSettings) (plan : Plan) : Prop where
  /-- The automatic mode sends one blob exactly if that of the whole payload fits under the
  ceiling, and then the frame that is planned fits as well. -/
  auto : settings.mode = .auto →
    (plan.strategy = .singleShot ↔
      (Frame.blob payload).encode.length ≤ settings.blobCeiling.toNat) ∧
    (plan.strategy = .singleShot →
      ∃ frame, plan.frames = [frame] ∧ frame.encode.length ≤ settings.blobCeiling.toNat)
  /-- The single-shot mode plans one blob of the first bytes of the payload, as many as the
  ceiling allows, and tells the length of the payload exactly if bytes were cut. -/
  singleShot : settings.mode = .singleShot →
    plan.strategy = .singleShot ∧
    plan.frames = [.blob (payload.take (min payload.length settings.blobCeiling.toNat))] ∧
    plan.truncatedFrom = if plan.body = payload then none else some payload.length
  /-- The paced mode cuts nothing off. -/
  paced : settings.mode = .paced →
    plan.strategy = .paced ∧ plan.body = payload ∧ plan.truncatedFrom = none
  /-- The frames together carry a front of the payload. -/
  front : plan.body <+: payload
  /-- Its length is the sum over the frames. -/
  length : plan.body.length = plan.payloadLength
  /-- A free engine is claimed with this plan, and what is told of the upload is that length. -/
  total : ∀ (e : Engine) (client : ClientId) (announced : Bool),
    e.settings = settings → e.active = none → payload ≠ [] →
    ∃ e' u, e.begin? client payload announced = some (e', .ok (some u)) ∧ u.plan = plan ∧
      e'.progress?.map (·.totalBytes) = some plan.payloadLength

theorem addsUp_of_build? {plan : Plan} (hmade : build? payload settings = some plan) :
    AddsUp payload settings plan := by
  obtain ⟨-, rfl⟩ := (build?_eq_some_iff payload settings).mp hmade
  have hstrategy := strategy_build payload settings
  constructor
  case auto =>
    intro hauto
    constructor
    · rw [hstrategy, choose_auto payload settings hauto, Frame.length_encode_blob]
    · intro hs
      refine ⟨_, frames_of_singleShot payload settings hs, ?_⟩
      rw [Frame.length_encode_blob]
      exact fits_of_auto payload settings hauto hs
  case singleShot =>
    intro hmode
    have hs : (build payload settings).strategy = .singleShot := by
      rw [hstrategy, choose, hmode]
    have hfirst : payload.take (min payload.length settings.blobCeiling.toNat) =
        payload.take settings.blobCeiling.toNat := by
      rw [List.take_eq_take_iff]
      omega
    refine ⟨hs, ?_, truncatedFrom_build_eq payload settings⟩
    rw [hfirst]
    exact frames_of_singleShot payload settings hs
  case paced =>
    intro hmode
    have hs : (build payload settings).strategy = .paced := by
      rw [hstrategy, choose, hmode]
    have hbody : (build payload settings).body = payload := by
      rw [body_build_eq_iff, ← hstrategy, hs]
      exact fun hcut => absurd hcut.1 (by decide)
    refine ⟨hs, hbody, ?_⟩
    rw [truncatedFrom_build_eq payload settings, if_pos hbody]
  case front => exact body_build_front payload settings
  case length => exact length_body _
  case total =>
    intro e client announced hsettings hfree hpayload
    apply Engine.begin?_of_build? hfree client hpayload announced
    rw [hsettings]
    exact hmade

/-- What the settings choose to send as one blob. -/
theorem choose_eq_singleShot_iff :
    choose payload settings = .singleShot ↔
      settings.mode = .singleShot ∨
        settings.mode = .auto ∧
          (Frame.blob payload).encode.length ≤ settings.blobCeiling.toNat := by
  rw [Frame.length_encode_blob]
  cases hmode : settings.mode with
  | auto => simp only [choose_auto payload settings hmode, reduceCtorEq, false_or, true_and]
  | singleShot => simp only [choose, hmode, true_or]
  | paced => simp only [choose, hmode, reduceCtorEq, false_or, false_and]

/-- **When a plan is made, and what it adds up to.**  A plan of one blob is always made, and a
paced one exactly if a buffer can be made for a chunk, whatever the payload.  A plan that is made is
what the settings ask for, and its frames carry a front of the payload whose length is the total
that an upload is begun with. -/
theorem made_plans_add_up (payload : Bytes) (settings : TransferSettings) :
    ((∃ plan, build? payload settings = some plan) ↔
      settings.mode = .singleShot ∨
        settings.mode = .auto ∧
          (Frame.blob payload).encode.length ≤ settings.blobCeiling.toNat ∨
        settings.chunkSize.toNat ≤ maxBuffer) ∧
    ∀ plan, build? payload settings = some plan → AddsUp payload settings plan := by
  constructor
  · rw [← or_assoc, ← choose_eq_singleShot_iff]
    constructor
    · rintro ⟨plan, hplan⟩
      exact ((build?_eq_some_iff payload settings).mp hplan).1
    · intro hroom
      exact ⟨_, (build?_eq_some_iff payload settings).mpr ⟨hroom, rfl⟩⟩
  · intro plan hplan
    exact addsUp_of_build? payload settings hplan

/-- A payload of nine bytes whose blob just fits under a ceiling of eight: the plan is that blob,
but one byte short, and so is the total that callers are told. -/
theorem made_plans_add_up_at_ceiling :
    let settings : TransferSettings := { mode := .auto, blobCeiling := 8 }
    let payload : Bytes := List.replicate 8 carriageReturn ++ [0x61]
    ∃ plan e u, build? payload settings = some plan ∧ plan.strategy = .singleShot ∧
      ({ settings } : Engine).begin? ⟨0⟩ payload true = some (e, .ok (some u)) ∧
      e.progress?.map (·.totalBytes) = some plan.payloadLength ∧ plan.payloadLength = 8 := by
  intro settings payload
  obtain ⟨hmade, hadds⟩ := made_plans_add_up payload settings
  have hfits : (Frame.blob payload).encode.length ≤ settings.blobCeiling.toNat := by decide
  obtain ⟨plan, hplan⟩ := hmade.mpr (.inr (.inl ⟨rfl, hfits⟩))
  have hplanned := hadds plan hplan
  obtain ⟨e, u, hbegin, -, htotal⟩ := hplanned.total { settings } ⟨0⟩ true rfl rfl (by decide)
  refine ⟨plan, e, u, hplan, (hplanned.auto rfl).1.mpr hfits, hbegin, htotal, ?_⟩
  obtain ⟨-, rfl⟩ := (build?_eq_some_iff payload settings).mp hplan
  decide

/-- A single letter that is to go out in chunks as long as a word can count has no plan. -/
theorem letter_without_plan :
    ¬ ∀ (payload : Bytes) (settings : TransferSettings),
      ∃ plan, build? payload settings = some plan ∧ AddsUp payload settings plan := by
  intro h
  obtain ⟨plan, hplan, -⟩ := h [0x61] { mode := .paced, chunkSize := 18446744073709551615 }
  obtain ⟨hchoose | hroom, -⟩ := (build?_eq_some_iff _ _).mp hplan
  · cases hchoose
  · exact absurd hroom (by decide)

end Plan

end SerialBridge
