import SerialBridge.Proofs.Openings

/-! # The port that a closed link goes by

Of a closed link clients are told the last port that was open or, before any was, one that was
tried.  Which port that has to be is said here of the openings tried so far (`trials`), each with
the surroundings it was tried in, its candidates and its result.

Only two things change the path that a link keeps.  An opening that succeeds leaves the path that
it opened, in place of any other; an opening for which nothing opens leaves its first candidate, if
no path is there already.  An opening that meets a mute port leaves things as they are
(`lastPath_openPort`), and so does whatever else happens (`lastPath_step`), so the path can be read
off the openings alone (`lastPath_run`).

So the path that a closed link goes by, if there is one, is always the right one (`Recalls`): that
of the latest opening that succeeded or, if none did, the first candidate of an earlier one.  And
there is one exactly if some opening succeeded, or some opening with candidates met no mute port
(`closed_names_port_iff`).
-/

namespace SerialBridge

/-- An opening that was tried. -/
structure Trial where
  /-- The surroundings it was tried in. -/
  bench : Bench
  /-- Its candidates. -/
  candidates : List String
  /-- What came of it. -/
  result : Except LinkError String

namespace Trial

/-- The path that was opened, if the opening succeeded. -/
def opened? (t : Trial) : Option String :=
  t.result.toOption

/-- The first path that opens. -/
def found? (t : Trial) : Option String :=
  (t.bench.pathsFor t.candidates).find? t.bench.opens

/-- The first candidate, if nothing opens. -/
def missed? (t : Trial) : Option String :=
  if t.found?.isSome then none else t.candidates.head?

/-- The first path that opens is mute. -/
def MetMute (t : Trial) : Prop :=
  ∃ path e, t.found? = some path ∧ t.bench.muteAt? path = some e

theorem opened?_eq_some_iff {t : Trial} {path : String} :
    t.opened? = some path ↔ t.result = .ok path := by
  unfold opened?
  cases t.result with
  | ok opened => rw [Except.toOption, Option.some_inj, Except.ok.injEq]
  | error e => exact iff_of_false nofun nofun

theorem missed?_of_found {t : Trial} {path : String} (h : t.found? = some path) :
    t.missed? = none := by
  unfold missed?
  rw [h, Option.isSome_some, if_pos rfl]

theorem missed?_of_none {t : Trial} (h : t.found? = none) : t.missed? = t.candidates.head? := by
  unfold missed?
  rw [h, Option.isSome_none, if_neg Bool.false_ne_true]

/-- What is missed is the first candidate, and nothing opens. -/
theorem of_missed? {t : Trial} {path : String} (h : t.missed? = some path) :
    t.candidates.head? = some path ∧ ¬ t.MetMute := by
  cases hfound : t.found? with
  | none =>
    rw [missed?_of_none hfound] at h
    refine ⟨h, ?_⟩
    rintro ⟨mute, e, hmute, -⟩
    rw [hfound] at hmute
    cases hmute
  | some found =>
    rw [missed?_of_found hfound] at h
    cases h

end Trial

/-! ## What openings leave behind -/

/-- The path that openings leave behind, of which the most recent comes first: that of the latest
that succeeded or, if none did, the first one missed. -/
def pathLeft (past : List Trial) : Option String :=
  (past.findSome? Trial.opened?).or (past.reverse.findSome? Trial.missed?)

/-- The path is one that a closed link should go by after some openings: that of the latest that
succeeded or, if none did, the first candidate of one of them. -/
def Recalls (past : List Trial) (path : String) : Prop :=
  past.findSome? Trial.opened? = some path ∨
    past.findSome? Trial.opened? = none ∧ ∃ t ∈ past, t.candidates.head? = some path

theorem pathLeft_cons (t : Trial) (past : List Trial) :
    pathLeft (t :: past) = t.opened?.or ((pathLeft past).or t.missed?) := by
  unfold pathLeft
  rw [List.findSome?_cons, List.reverse_cons, List.findSome?_append, List.findSome?_singleton]
  cases t.opened? with
  | none => rw [Option.none_or, Option.or_assoc]
  | some path => rfl

theorem recalls_of_pathLeft {past : List Trial} {path : String} (h : pathLeft past = some path) :
    Recalls past path := by
  unfold pathLeft at h
  cases hopened : past.findSome? Trial.opened? with
  | some opened =>
    rw [hopened, Option.some_or] at h
    exact .inl (hopened.trans h)
  | none =>
    rw [hopened, Option.none_or] at h
    obtain ⟨t, ht, hmissed⟩ := List.exists_of_findSome?_eq_some h
    exact .inr ⟨hopened, t, List.mem_reverse.mp ht, (Trial.of_missed? hmissed).1⟩

/-- Openings leave a path behind exactly if one of them succeeded or missed something. -/
theorem exists_pathLeft_iff {past : List Trial} :
    (∃ path, pathLeft past = some path) ↔
      ∃ t ∈ past, ∃ path, t.opened? = some path ∨ t.missed? = some path := by
  constructor
  · rintro ⟨path, hpath⟩
    rcases Option.or_eq_some_iff.mp hpath with hopened | ⟨-, hmissed⟩
    · obtain ⟨t, ht, hopened⟩ := List.exists_of_findSome?_eq_some hopened
      exact ⟨t, ht, path, .inl hopened⟩
    · obtain ⟨t, ht, hmissed⟩ := List.exists_of_findSome?_eq_some hmissed
      exact ⟨t, List.mem_reverse.mp ht, path, .inr hmissed⟩
  · rintro ⟨t, ht, path, hleft⟩
    apply Option.ne_none_iff_exists'.mp
    intro hnone
    obtain ⟨hopened, hmissed⟩ := Option.or_eq_none_iff.mp hnone
    rcases hleft with hleft | hleft
    · rw [List.findSome?_eq_none_iff.mp hopened t ht] at hleft
      cases hleft
    · rw [List.findSome?_eq_none_iff.mp hmissed t (List.mem_reverse.mpr ht)] at hleft
      cases hleft

namespace Link

/-! ## One opening -/

/-- An opening that is tried. -/
def trial (l : Link) (candidates : List String) (baudRate : UInt32) : Trial where
  bench := l.bench
  candidates := candidates
  result := (l.openPort candidates baudRate).2

/-- If nothing opens, the first candidate is kept unless a path is there already. -/
theorem openFirst_of_none {l : Link} {candidates : List String}
    (hnone : (l.bench.pathsFor candidates).find? l.bench.opens = none) (baudRate : UInt32) :
    l.openFirst candidates baudRate =
      ({ l.tried candidates baudRate with lastPath := l.lastPath <|> candidates.head? },
        .error (.portUnavailable (l.bench.pathsFor candidates))) := by
  rw [openFirst, Bench.probe, Bench.tryPaths_eq, hnone]
  rfl

/-- If something opens, the path that is kept stays unless it is opened. -/
theorem Yields.lastPath_of_found {l : Link} {candidates : List String} {baudRate : UInt32}
    {r : Link × Except LinkError String} (h : l.Yields candidates baudRate r) {path : String}
    (hfound : (l.bench.pathsFor candidates).find? l.bench.opens = some path) :
    r.1.lastPath = r.2.toOption.or l.lastPath := by
  cases h with
  | unavailable lastPath hnone =>
    rw [hnone] at hfound
    cases hfound
  | mute | installed => rfl

/-- **What an opening leaves**: the path that it opened; if it failed, the path that was there; if
there was none, what it missed. -/
theorem lastPath_openPort (l : Link) (candidates : List String) (baudRate : UInt32) :
    (l.openPort candidates baudRate).1.lastPath =
      (l.trial candidates baudRate).opened?.or
        (l.lastPath.or (l.trial candidates baudRate).missed?) := by
  -- what is open is dropped first, which changes neither the surroundings nor the path
  have hfirst : (l.trial candidates baudRate).found? =
      (l.clear.bench.pathsFor candidates).find? l.clear.bench.opens := by
    rw [clear_bench]
    rfl
  cases hfound : (l.trial candidates baudRate).found? with
  | none =>
    have heq := openFirst_of_none (hfirst.symm.trans hfound) baudRate
    have hopened : (l.trial candidates baudRate).opened? = none :=
      congrArg (fun r => r.2.toOption) heq
    rw [hopened, Trial.missed?_of_none hfound, Option.none_or, openPort, heq]
    dsimp only
    rw [clear_lastPath]
    exact Option.orElse_eq_or
  | some path =>
    have hlast := (l.yields_openPort candidates baudRate).lastPath_of_found
      (hfirst.symm.trans hfound)
    rw [clear_lastPath] at hlast
    rw [Trial.missed?_of_found hfound, Option.or_none]
    exact hlast

/-- An opening with candidates that meets no mute port succeeds or misses the first of them. -/
theorem exists_left_of_not_mute {l : Link} {candidates : List String} {baudRate : UInt32}
    (hne : candidates ≠ []) (hnot : ¬ (l.trial candidates baudRate).MetMute) :
    ∃ path, (l.trial candidates baudRate).opened? = some path ∨
      (l.trial candidates baudRate).missed? = some path := by
  cases hfound : (l.trial candidates baudRate).found? with
  | none =>
    refine ⟨candidates.head hne, .inr ?_⟩
    rw [Trial.missed?_of_none hfound]
    exact List.head?_eq_some_head hne
  | some path =>
    have hworks : l.bench.works path = true := by
      cases hworks : l.bench.works path with
      | true => rfl
      | false =>
        obtain ⟨e, he⟩ := Bench.exists_mute_of_opens (List.find?_some hfound) hworks
        exact absurd ⟨path, e, hfound, he⟩ hnot
    refine ⟨path, .inl (Trial.opened?_eq_some_iff.mpr ?_)⟩
    apply ((l.yields_openPort candidates baudRate).eq_ok_iff path).mpr
    rw [clear_bench]
    exact ⟨hfound, hworks⟩

/-! ## Runs -/

/-- The opening that a step tries, if it is one. -/
def trial? (l : Link) : Step → Option Trial
  | .openPort candidates baudRate => some (l.trial candidates baudRate)
  | .surround _ | .clear | .writeOn .. | .readLines .. | .countLines _ => none

/-- The openings that are tried in the course of some steps, most recent first. -/
def trials (l : Link) : List Step → List Trial
  | [] => []
  | s :: steps => (l.step s).trials steps ++ (l.trial? s).toList

theorem exists_of_mem_trials {l : Link} {steps : List Step} {t : Trial} (ht : t ∈ l.trials steps) :
    ∃ (l' : Link) (candidates : List String) (baudRate : UInt32),
      t = l'.trial candidates baudRate := by
  induction steps generalizing l with
  | nil => cases ht
  | cons s steps ih =>
    rcases List.mem_append.mp ht with hlater | hnow
    · exact ih hlater
    · cases s with
      | openPort candidates baudRate =>
        exact ⟨l, candidates, baudRate, List.mem_singleton.mp hnow⟩
      | surround | clear | writeOn | readLines | countLines => cases hnow

/-- Nothing but an opening changes the path that is kept. -/
theorem lastPath_step (l : Link) (s : Step) :
    (l.step s).lastPath = match l.trial? s with
      | some t => t.opened?.or (l.lastPath.or t.missed?)
      | none => l.lastPath := by
  cases s with
  | surround | countLines => rfl
  | clear => exact l.clear_lastPath
  | openPort candidates baudRate => exact l.lastPath_openPort candidates baudRate
  | writeOn author h frame =>
    rcases l.writeOn_cases author h frame with ⟨heq, -⟩ | ⟨_, _, -, -, -, heq, -⟩
    · rw [step, heq]
      rfl
    · rw [step, heq]
      rfl
  | readLines now h =>
    obtain ⟨bench, handles, heq, -, -⟩ := l.readLines_cases now h
    rw [step, heq]
    rfl

/-- **A link keeps the path that its openings leave behind**: if it is so before some steps, it is so
after them. -/
theorem lastPath_run {l : Link} {past : List Trial} (h : l.lastPath = pathLeft past)
    (steps : List Step) : (l.run steps).lastPath = pathLeft (l.trials steps ++ past) := by
  induction steps generalizing l past with
  | nil => exact h
  | cons s steps ih =>
    -- an opening of the first step is older than those of the later ones, so it stands behind them
    have hstep : (l.step s).lastPath = pathLeft ((l.trial? s).toList ++ past) := by
      rw [lastPath_step]
      cases l.trial? s with
      | none => exact h
      | some t =>
        dsimp only
        rw [h]
        exact (pathLeft_cons t past).symm
    rw [run_cons, trials, List.append_assoc]
    exact ih hstep

/-! ## What a closed link goes by -/

theorem eq_lastPath_of_closed {l : Link} {path? : Option String}
    (h : l.status = .closed path?) : path? = l.lastPath := by
  unfold status at h
  cases hcurrent : l.currentHandle? with
  | none =>
    rw [hcurrent] at h
    exact (LinkStatus.closed.inj h).symm
  | some handle =>
    rw [hcurrent] at h
    cases h

/-- **When a closed link goes by a port.**  However links were opened, closed and reconnected and
whatever happened in between, a closed link goes by the path of the latest opening that succeeded
or, if none did, by the first candidate of the first opening for which nothing opened.  So a path
that it goes by is the right one, and it goes by one exactly if some opening succeeded or some
opening with candidates met no mute port. -/
theorem closed_names_port_iff (bench : Bench) (steps : List Step) (path? : Option String)
    (hclosed : (({ bench } : Link).run steps).status = .closed path?) :
    let past := ({ bench } : Link).trials steps
    path? = pathLeft past ∧ (∀ path, path? = some path → Recalls past path) ∧
      ((∃ path, path? = some path) ↔
        ∃ t ∈ past, (∃ path, t.result = .ok path) ∨ t.candidates ≠ [] ∧ ¬ t.MetMute) := by
  intro past
  have hleft : path? = pathLeft past := by
    have hnew : ({ bench } : Link).lastPath = pathLeft [] := rfl
    have hrun := lastPath_run hnew steps
    rw [List.append_nil] at hrun
    exact (eq_lastPath_of_closed hclosed).trans hrun
  refine ⟨hleft, ?_, ?_⟩
  · intro path hpath
    exact recalls_of_pathLeft (hleft.symm.trans hpath)
  · rw [hleft, exists_pathLeft_iff]
    constructor
    · rintro ⟨t, ht, path, hopened | hmissed⟩
      · exact ⟨t, ht, .inl ⟨path, Trial.opened?_eq_some_iff.mp hopened⟩⟩
      · obtain ⟨hhead, hmute⟩ := Trial.of_missed? hmissed
        refine ⟨t, ht, .inr ⟨?_, hmute⟩⟩
        intro hnil
        rw [hnil] at hhead
        cases hhead
    · rintro ⟨t, ht, ⟨path, hok⟩ | ⟨hne, hmute⟩⟩
      · exact ⟨t, ht, path, .inl (Trial.opened?_eq_some_iff.mpr hok)⟩
      · obtain ⟨l', candidates, baudRate, rfl⟩ := exists_of_mem_trials ht
        exact ⟨_, ht, exists_left_of_not_mute hne hmute⟩

/-- A mute port is tried, then two that are not there, and the link goes by the first of those.
Once another one was open it goes by that, also when that one is gone and a reconnect fails without
it, and when the mute port is tried again. -/
theorem closed_names_port_after_failures :
    let tried : List Step := [.openPort ["b"] 9600, .openPort ["a", "d"] 9600]
    let opened : List Step := tried ++
      [.openPort ["a", "c"] 9600, .clear, .surround (.unplug "c"), .openPort ["a", "c"] 9600,
        .openPort ["b", "a"] 9600]
    (({ bench := muteBench } : Link).run tried).status = .closed (some "a") ∧
      Recalls (({ bench := muteBench } : Link).trials tried) "a" ∧
      (({ bench := muteBench } : Link).run opened).status = .closed (some "c") ∧
      Recalls (({ bench := muteBench } : Link).trials opened) "c" := by
  intro tried opened
  have hclosed : (({ bench := muteBench } : Link).run tried).status = .closed (some "a") := rfl
  have hclosed' : (({ bench := muteBench } : Link).run opened).status = .closed (some "c") := rfl
  obtain ⟨-, hright, -⟩ := closed_names_port_iff muteBench tried (some "a") hclosed
  obtain ⟨-, hright', -⟩ := closed_names_port_iff muteBench opened (some "c") hclosed'
  exact ⟨hclosed, hright "a" rfl, hclosed', hright' "c" rfl⟩

/-- A mute port was tried, and the link goes by no name: that something was tried is not enough. -/
theorem mute_port_leaves_no_name :
    ¬ ∀ (bench : Bench) (steps : List Step) (path? : Option String),
      (∃ t ∈ ({ bench } : Link).trials steps, t.candidates ≠ []) →
      (({ bench } : Link).run steps).status = .closed path? →
      ∃ path, path? = some path ∧ Recalls (({ bench } : Link).trials steps) path := by
  intro hnamed
  have htried : ∃ t ∈ ({ bench := muteBench } : Link).trials [.openPort ["b"] 115200],
      t.candidates ≠ [] := ⟨_, List.mem_singleton_self _, List.cons_ne_nil "b" []⟩
  have hclosed : (({ bench := muteBench } : Link).run [.openPort ["b"] 115200]).status =
      .closed none := rfl
  obtain ⟨path, hpath, -⟩ := hnamed muteBench [.openPort ["b"] 115200] none htried hclosed
  cases hpath

end Link

end SerialBridge
