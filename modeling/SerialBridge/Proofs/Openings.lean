import SerialBridge.Proofs.LinkRuns

/-! # Opening a link

The candidates for a link are tried in order up to the first that opens, and none after it
(`tryPaths_eq`).  Its device becomes the link, unless no channel for reading can be had of it.
So an opening comes to one of three things: no candidate opens, the first that opens is mute, or it
is installed (`Yields`).

A candidate works if it opens and is not mute.  A mute one ends the search as well as one that
works, and the opening fails with it, whatever stands behind it.  So an opening finds the first
candidate that works exactly if none before it opens (`finds_first_working_iff`).
-/

namespace SerialBridge

namespace Bench

/-- Whether the path has a device, so that it opens. -/
def opens (b : Bench) (path : String) : Bool :=
  (b.deviceAt? path).isSome

/-- Why no channel for reading can be had at a path, if it opens and none can. -/
def muteAt? (b : Bench) (path : String) : Option IoError :=
  (b.deviceAt? path).bind fun device => (b.faultsOf device).bind (·.cloneError)

/-- Whether the path opens and a channel for reading can be had there. -/
def works (b : Bench) (path : String) : Bool :=
  b.opens path && (b.muteAt? path).isNone

/-- The attempts to open some paths in order, up to the first that opens. -/
def attemptsOn (b : Bench) (baudRate : UInt32) (paths : List String) : List Attempt :=
  (paths.takeWhile (!b.opens ·)).map (⟨·, baudRate, false⟩) ++
    ((paths.find? b.opens).map (⟨·, baudRate, true⟩)).toList

theorem opens_of_deviceAt {b : Bench} {path : String} {device : Nat}
    (h : b.deviceAt? path = some device) : b.opens path = true := by
  rw [opens, h, Option.isSome_some]

theorem exists_deviceAt_of_opens {b : Bench} {path : String} (h : b.opens path = true) :
    ∃ device, b.deviceAt? path = some device :=
  Option.isSome_iff_exists.mp h

/-- A path that is mute does not work. -/
theorem works_of_mute {b : Bench} {path : String} {e : IoError} (h : b.muteAt? path = some e) :
    b.works path = false := by
  rw [works, h, Option.isNone_some, Bool.and_false]

/-- A path that opens and does not work is mute. -/
theorem exists_mute_of_opens {b : Bench} {path : String} (hopens : b.opens path = true)
    (hnot : b.works path = false) : ∃ e, b.muteAt? path = some e := by
  rw [works, hopens, Bool.true_and, Option.isNone_eq_false_iff] at hnot
  exact Option.isSome_iff_exists.mp hnot

theorem find?_opens_eq_none_iff {b : Bench} {paths : List String} :
    paths.find? b.opens = none ↔ ∀ path ∈ paths, b.opens path = false := by
  simp only [List.find?_eq_none, Bool.not_eq_true]

/-- **The search ends with the first path that opens.** -/
theorem tryPaths_eq (b : Bench) (baudRate : UInt32) (paths : List String) :
    b.tryPaths baudRate paths =
      (b.attemptsOn baudRate paths,
        (paths.find? b.opens).bind fun path => (b.deviceAt? path).map (path, ·)) := by
  induction paths with
  | nil => rfl
  | cons path paths ih =>
    rw [tryPaths, attemptsOn]
    cases hdevice : b.deviceAt? path with
    | some device => simp [opens_of_deviceAt hdevice, hdevice]
    | none =>
      have hnot : b.opens path = false := by rw [opens, hdevice, Option.isSome_none]
      simp [ih, hnot, attemptsOn]

end Bench

namespace Link

/-! ## What an opening comes to -/

/-- The link after candidates were tried. -/
def tried (l : Link) (candidates : List String) (baudRate : UInt32) : Link :=
  { l with
    attempts := (l.bench.attemptsOn baudRate (l.bench.pathsFor candidates)).reverse ++ l.attempts }

/-- The link after the stale input of a device was dropped. -/
def withClearedInput (l : Link) (device : Nat) : Link :=
  { l with bench := l.bench.modify device Device.clearInput }

/-- What an opening comes to with no link open: the link after it, and the result. -/
inductive Yields (l : Link) (candidates : List String) (baudRate : UInt32) :
    Link × Except LinkError String → Prop where
  /-- No candidate opens. -/
  | unavailable (lastPath : Option String)
    (hnone : (l.bench.pathsFor candidates).find? l.bench.opens = none) :
    Yields l candidates baudRate
      ({ l.tried candidates baudRate with lastPath },
        .error (.portUnavailable (l.bench.pathsFor candidates)))
  /-- The first that opens is mute. -/
  | mute (path : String) (device : Nat) (e : IoError)
    (hfirst : (l.bench.pathsFor candidates).find? l.bench.opens = some path)
    (hmute : l.bench.muteAt? path = some e) :
    Yields l candidates baudRate
      ((l.tried candidates baudRate).withClearedInput device, .error (.ofIo e))
  /-- The first that opens is installed. -/
  | installed (path : String) (device : Nat)
    (hfirst : (l.bench.pathsFor candidates).find? l.bench.opens = some path)
    (hworks : l.bench.works path = true) (hdevice : l.bench.deviceAt? path = some device) :
    Yields l candidates baudRate
      (((l.tried candidates baudRate).withClearedInput device).withHandle path device, .ok path)

/-- A device is installed unless it is mute. -/
theorem install_eq_faults (l : Link) (path : String) (device : Nat) :
    l.install path device =
      match (l.bench.faultsOf device).bind (·.cloneError) with
      | some e => (l.withClearedInput device, .error (.ofIo e))
      | none => ((l.withClearedInput device).withHandle path device, .ok path) := by
  have hkept : ((l.withClearedInput device).bench.devices[device]?).bind (·.faults.cloneError) =
      (l.bench.faultsOf device).bind (·.cloneError) := by
    have hfaults : (l.withClearedInput device).bench.faultsOf device = l.bench.faultsOf device := by
      refine Bench.faultsOf_modify (fun dev _ => ?_) device
      rw [Device.clearInput]
      split <;> rfl
    rw [← hfaults, Bench.faultsOf, Option.bind_map]
    rfl
  rw [← hkept]
  rfl

/-- **What an opening comes to.** -/
theorem yields_openFirst (l : Link) (candidates : List String) (baudRate : UInt32) :
    l.Yields candidates baudRate (l.openFirst candidates baudRate) := by
  rw [openFirst, Bench.probe, Bench.tryPaths_eq]
  dsimp only
  cases hfirst : (l.bench.pathsFor candidates).find? l.bench.opens with
  | none => exact .unavailable _ hfirst
  | some path =>
    obtain ⟨device, hdevice⟩ := Bench.exists_deviceAt_of_opens (List.find?_some hfirst)
    have hmute : l.bench.muteAt? path = (l.bench.faultsOf device).bind (·.cloneError) := by
      rw [Bench.muteAt?, hdevice, Option.bind_some]
    rw [Option.bind_some, hdevice, Option.map_some]
    dsimp only
    rw [install_eq_faults]
    change l.Yields candidates baudRate
      (match (l.bench.faultsOf device).bind (·.cloneError) with
        | some e => ((l.tried candidates baudRate).withClearedInput device, .error (.ofIo e))
        | none => (((l.tried candidates baudRate).withClearedInput device).withHandle path device,
          .ok path))
    rw [← hmute]
    cases he : l.bench.muteAt? path with
    | some e => exact .mute path device e hfirst he
    | none =>
      refine .installed path device hfirst ?_ hdevice
      rw [Bench.works, he, Bench.opens_of_deviceAt hdevice]
      rfl

section Yields

variable {l : Link} {candidates : List String} {baudRate : UInt32}
  {r : Link × Except LinkError String}

/-- It succeeds with the first candidate that opens, if that one works. -/
theorem Yields.eq_ok_iff (h : l.Yields candidates baudRate r) (path : String) :
    r.2 = .ok path ↔
      (l.bench.pathsFor candidates).find? l.bench.opens = some path ∧
        l.bench.works path = true := by
  cases h with
  | unavailable lastPath hnone =>
    rw [hnone]
    exact iff_of_false nofun nofun
  | mute first device e hfirst hmute =>
    refine iff_of_false nofun ?_
    rintro ⟨hsame, hworks⟩
    obtain rfl : first = path := Option.some_inj.mp (hfirst.symm.trans hsame)
    exact Bool.false_ne_true ((Bench.works_of_mute hmute).symm.trans hworks)
  | installed first device hfirst hworks hdevice =>
    rw [hfirst, Option.some_inj]
    constructor
    · intro hok
      obtain rfl : first = path := Except.ok.inj hok
      exact ⟨rfl, hworks⟩
    · rintro ⟨rfl, -⟩
      rfl

/-- It fails for want of a port exactly if no candidate opens. -/
theorem Yields.eq_unavailable_iff (h : l.Yields candidates baudRate r) (named : List String) :
    r.2 = .error (.portUnavailable named) ↔
      named = l.bench.pathsFor candidates ∧
        ∀ path ∈ l.bench.pathsFor candidates, l.bench.opens path = false := by
  rw [← Bench.find?_opens_eq_none_iff]
  cases h with
  | unavailable lastPath hnone =>
    rw [hnone]
    constructor
    · intro herror
      cases herror
      exact ⟨rfl, rfl⟩
    · rintro ⟨rfl, -⟩
      rfl
  | mute first device e hfirst hmute =>
    rw [hfirst]
    exact iff_of_false nofun fun h => nomatch h.2
  | installed first device hfirst hworks hdevice =>
    rw [hfirst]
    exact iff_of_false nofun fun h => nomatch h.2

/-- It fails with the first candidate that opens, if that one is mute. -/
theorem Yields.of_mute (h : l.Yields candidates baudRate r) {path : String} {e : IoError}
    (hfirst : (l.bench.pathsFor candidates).find? l.bench.opens = some path)
    (hmute : l.bench.muteAt? path = some e) : r.2 = .error (.ofIo e) := by
  cases h with
  | unavailable lastPath hnone =>
    rw [hnone] at hfirst
    cases hfirst
  | mute path' device e' hfirst' hmute' =>
    obtain rfl : path' = path := Option.some_inj.mp (hfirst'.symm.trans hfirst)
    rw [hmute] at hmute'
    cases hmute'
    rfl
  | installed path' device hfirst' hworks hdevice =>
    obtain rfl : path' = path := Option.some_inj.mp (hfirst'.symm.trans hfirst)
    exact absurd ((Bench.works_of_mute hmute).symm.trans hworks) Bool.false_ne_true

theorem Yields.attempts_eq (h : l.Yields candidates baudRate r) :
    r.1.attempts = (l.bench.attemptsOn baudRate (l.bench.pathsFor candidates)).reverse ++
      l.attempts := by
  cases h <;> rfl

/-- If it fails, no link is open. -/
theorem Yields.current_of_error (h : l.Yields candidates baudRate r) (hcurrent : l.current = none)
    {e : LinkError} (herror : r.2 = .error e) : r.1.current = none := by
  cases h with
  | unavailable | mute => exact hcurrent
  | installed => cases herror

end Yields

/-- A path is the link: a handle on its device that was not there before is open and current. -/
def Installed (before after : Link) (path : String) : Prop :=
  ∃ h device, before.bench.deviceAt? path = some device ∧ before.portOf h = none ∧
    after.current = some h ∧ after.openAt h = true ∧ after.portOf h = some (path, device)

theorem handle?_withHandle (l : Link) (path : String) (device : Nat) :
    (l.withHandle path device).handle? l.handles.length = some { path, device } := by
  simp [handle?, withHandle]

/-- If an opening succeeds, its path is the link. -/
theorem Yields.installed_of_ok {l : Link} {candidates : List String} {baudRate : UInt32}
    {r : Link × Except LinkError String} (h : l.Yields candidates baudRate r) {path : String}
    (hok : r.2 = .ok path) : Installed l r.1 path := by
  cases h with
  | unavailable | mute => cases hok
  | installed path' device hfirst hworks hdevice =>
    obtain rfl : path' = path := Except.ok.inj hok
    have hhandle := ((l.tried candidates baudRate).withClearedInput device).handle?_withHandle
      path' device
    refine ⟨l.handles.length, device, hdevice, ?_, rfl, openAt_of_handle hhandle,
      portOf_of_handle hhandle⟩
    rw [portOf, handle?, List.getElem?_eq_none (Nat.le_refl _), Option.map_none]

/-! ## Opening in place of another link, or anew -/

/-- How a link is opened. -/
inductive Opening where
  /-- In place of the one that is open, if any. -/
  | replacing
  /-- Anew: the one that is open is dropped, and other things happen before a link is opened. -/
  | reconnecting (pause : List Step)
  deriving DecidableEq, Repr

/-- The link as it is when its candidates are about to be tried. -/
def readied (l : Link) : Opening → Link
  | .replacing => l
  | .reconnecting pause => l.clear.run pause

/-- Opens a link one way or the other. -/
def openBy (l : Link) (opening : Opening) (candidates : List String) (baudRate : UInt32) :
    Link × Except LinkError String :=
  (l.readied opening).openPort candidates baudRate

/-- Nothing else need happen between the two halves of a reconnect. -/
theorem reconnect_eq (l : Link) (candidates : List String) (baudRate : UInt32) :
    l.reconnect candidates baudRate = l.openBy (.reconnecting []) candidates baudRate :=
  rfl

/-- Whether a link is open makes no difference for what an opening comes to. -/
theorem yields_openPort (l : Link) (candidates : List String) (baudRate : UInt32) :
    l.clear.Yields candidates baudRate (l.openPort candidates baudRate) :=
  l.clear.yields_openFirst candidates baudRate

theorem installed_of_openPort {l : Link} {candidates : List String} {baudRate : UInt32}
    {path : String} (hok : (l.openPort candidates baudRate).2 = .ok path) :
    Installed l (l.openPort candidates baudRate).1 path := by
  obtain ⟨h, device, hdevice, hnew, hinstalled⟩ :=
    (l.yields_openPort candidates baudRate).installed_of_ok hok
  rw [clear_bench] at hdevice
  rw [portOf_clear] at hnew
  exact ⟨h, device, hdevice, hnew, hinstalled⟩

theorem current_of_openPort_error {l : Link} {candidates : List String} {baudRate : UInt32}
    {e : LinkError} (herror : (l.openPort candidates baudRate).2 = .error e) :
    (l.openPort candidates baudRate).1.current = none :=
  (l.yields_openPort candidates baudRate).current_of_error l.clear_current herror

/-! ## Finding a candidate that works -/

/-- **When an opening finds the first candidate that works**: exactly if none before it opens.
Then that candidate is the link.  Otherwise the first that opens is mute, and the opening fails
with it. -/
theorem finds_first_working_iff (l : Link) (opening : Opening) (baudRate : UInt32)
    (candidates front : List String) (path : String) (rest : List String)
    (hcandidates : (l.readied opening).bench.pathsFor candidates = front ++ path :: rest)
    (hfront : ∀ c ∈ front, (l.readied opening).bench.works c = false)
    (hworks : (l.readied opening).bench.works path = true) :
    let now := l.readied opening
    let l' := (l.openBy opening candidates baudRate).1
    let result := (l.openBy opening candidates baudRate).2
    ((result = .ok path ∧ Installed now l' path) ↔ ∀ c ∈ front, now.bench.opens c = false) ∧
      ∀ c, front.find? now.bench.opens = some c →
        ∃ e, now.bench.muteAt? c = some e ∧ result = .error (.ofIo e) ∧ l'.current = none := by
  intro now l' result
  have hyields := now.yields_openPort candidates baudRate
  have hfirst : (now.clear.bench.pathsFor candidates).find? now.clear.bench.opens =
      (front.find? now.bench.opens).or (some path) := by
    have hopens : now.bench.opens path = true := (Bool.and_eq_true_iff.mp hworks).1
    rw [clear_bench, hcandidates, List.find?_append, List.find?_cons_of_pos hopens]
  have fails : ∀ c, front.find? now.bench.opens = some c →
      ∃ e, now.bench.muteAt? c = some e ∧ result = .error (.ofIo e) ∧ l'.current = none := by
    intro c hc
    obtain ⟨e, he⟩ := Bench.exists_mute_of_opens (List.find?_some hc)
      (hfront c (List.mem_of_find?_eq_some hc))
    have herror : result = .error (.ofIo e) :=
      hyields.of_mute (by rw [hfirst, hc, Option.some_or]) (by rw [clear_bench, he])
    exact ⟨e, he, herror, current_of_openPort_error herror⟩
  refine ⟨?_, fails⟩
  rw [← Bench.find?_opens_eq_none_iff]
  constructor
  · rintro ⟨hok, -⟩
    cases hc : front.find? now.bench.opens with
    | none => rfl
    | some c =>
      obtain ⟨e, -, herror, -⟩ := fails c hc
      rw [hok] at herror
      cases herror
  · intro hc
    have hok : result = .ok path := by
      refine (hyields.eq_ok_iff path).mpr ⟨?_, ?_⟩
      · rw [hfirst, hc, Option.none_or]
      · rw [clear_bench, hworks]
    exact ⟨hok, installed_of_openPort hok⟩

/-- A mute port and one that works. -/
def muteBench : Bench where
  devices :=
    [{ path := "b", faults := { cloneError := some (.failed (.other "Other") "no clone") } },
      { path := "c" }]
  plugged := [("b", 0), ("c", 1)]

/-- A port that does not open is passed over, also when a link is opened anew and someone else has
opened another one in the pause. -/
theorem finds_first_working_anew :
    let l := ({ bench := muteBench } : Link).run [.openPort ["c"] 9600]
    let opening := Opening.reconnecting [.openPort ["c"] 9600]
    let now := l.readied opening
    now.current = some 1 ∧ (∀ c ∈ ["a"], now.bench.works c = false) ∧
      (l.openBy opening ["a", "c", "b"] 9600).2 = .ok "c" ∧
      Installed now (l.openBy opening ["a", "c", "b"] 9600).1 "c" := by
  intro l opening now
  have hfront : ∀ c ∈ ["a"], now.bench.works c = false := by decide
  obtain ⟨hfinds, -⟩ := finds_first_working_iff l opening 9600 ["a", "c", "b"] ["a"] "c" ["b"] rfl
    hfront (by decide)
  obtain ⟨hok, hinstalled⟩ := hfinds.mpr (by decide)
  exact ⟨rfl, hfront, hok, hinstalled⟩

/-- A mute port hides the ports behind it that work, so a link is not always opened when it could
be. -/
theorem mute_port_hides_working_one :
    ¬ ∀ (l : Link) (opening : Opening) (candidates : List String) (baudRate : UInt32)
        (path : String),
      ((l.readied opening).bench.pathsFor candidates).find? (l.readied opening).bench.works =
        some path →
      (l.openBy opening candidates baudRate).2 = .ok path := by
  intro hfound
  have hopened := hfound { bench := muteBench } .replacing ["a", "b", "c"] 115200 "c" (by decide)
  have hfailed : (({ bench := muteBench } : Link).openPort ["a", "b", "c"] 115200).2 =
      .error (.io "no clone") := rfl
  exact absurd (hopened.symm.trans hfailed) nofun

end Link

end SerialBridge
