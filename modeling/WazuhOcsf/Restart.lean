import WazuhOcsf.Main.History
import WazuhOcsf.Positions

/-!
# The first start and the next one

A first start seeks to the end of the alerts file.  If the process dies before its first
flush, the next start resumes there, provided the early save was made; it is made only
for an offset above 0.  On a file that is empty or missing nothing is saved, the next start
takes itself for the first one, and skips what was written in between:
`first_position_kept_iff` and `first_position_lost`.
-/

namespace WazuhOcsf

open Transition

variable {ext : Externals}

namespace AlertsPath

variable {path path' : AlertsPath}

/-- The file at the path only grows until it is renamed. -/
theorem currentSize_le_of_write {op : Write} (h : path.write op = some path')
    (hrename : op ≠ .rename) : path.currentSize ≤ path'.currentSize := by
  cases op with
  | append bytes =>
      obtain ⟨hlinked, h⟩ := Option.ite_none_right_eq_some.mp h
      cases h
      simp [currentSize, current, hlinked]
  | rename => exact absurd rfl hrename
  | create inode =>
      obtain ⟨⟨hlinked, -⟩, h⟩ := Option.ite_none_right_eq_some.mp h
      cases h
      simp [currentSize, current, hlinked]

end AlertsPath

/-- The log writer appends, after creating the file if there is none, and the process that
runs does not end or persist what it flushes. -/
def Undisturbed : History.Action → Prop
  | .write .rename | .truncate _ | .launch _ _ | .save true | .crash => False
  | _ => True

instance : DecidablePred Undisturbed
  | .write .rename | .truncate _ | .launch _ _ | .save true | .crash => .isFalse id
  | .write (.append _) | .write (.create _) | .lookSize | .lookInode | .enter _ _ | .run _
  | .receive _ | .save false => .isTrue trivial

theorem currentSize_le_of_step {h h' : History} {a : History.Action} (hstep : h.step ext a = some h')
    (hundisturbed : Undisturbed a) : h.path.currentSize ≤ h'.path.currentSize := by
  cases History.moves_of_step ext hstep with
  | write hwrite =>
      refine AlertsPath.currentSize_le_of_write hwrite ?_
      rintro rfl
      exact hundisturbed
  | truncate hlinked => exact hundisturbed.elim
  | _ => exact le_rfl

/-! ## From the launch to the start position -/

/-- What a start on this state file and a file of at least `low` bytes knows. -/
def Starting (stateFile : Option String) (cfg : AppConfig) (low : ℕ) (h : History) : Prop :=
  low ≤ h.path.currentSize ∧ ∃ mode stage, h.process = some ⟨mode, cfg, stage⟩ ∧
    match stage with
    | .loaded saved => h.stateFile = stateFile ∧ saved = StateStore.load stateFile
    | .sized saved fileSize =>
        h.stateFile = stateFile ∧ saved = StateStore.load stateFile ∧ low ≤ fileSize ∧
          fileSize ≤ h.path.currentSize
    | .resolved saved fileSize start =>
        h.stateFile = stateFile ∧ saved = StateStore.load stateFile ∧ low ≤ fileSize ∧
          fileSize ≤ h.path.currentSize ∧ start.Fits ∧
          ∃ inode, start = resolveStart cfg.seekToEndOnFirstRun saved fileSize inode
    | .running _ _ _ => True

theorem starting_launch {h h' : History} {mode : InputMode} {cfg : AppConfig}
    (hstep : h.step ext (.launch mode cfg) = some h') :
    Starting h.stateFile cfg h.path.currentSize h' := by
  cases History.moves_of_step ext hstep with
  | launch hprocess => exact ⟨le_rfl, mode, _, rfl, rfl, rfl⟩

theorem Starting.step {stateFile : Option String} {cfg : AppConfig} {low : ℕ} {h h' : History}
    {a : History.Action} (hstarting : Starting stateFile cfg low h) (hundisturbed : Undisturbed a)
    (hstep : h.step ext a = some h') : Starting stateFile cfg low h' := by
  have hsize := currentSize_le_of_step hstep hundisturbed
  obtain ⟨hlow, mode, stage, hprocess, hstage⟩ := hstarting
  refine ⟨hlow.trans hsize, ?_⟩
  cases History.moves_of_step ext hstep with
  | write hwrite =>
      refine ⟨mode, stage, hprocess, ?_⟩
      cases stage with
      | loaded saved => exact hstage
      | sized saved fileSize =>
          obtain ⟨hfile, hsaved, hle, hcurrent⟩ := hstage
          exact ⟨hfile, hsaved, hle, hcurrent.trans hsize⟩
      | resolved saved fileSize start =>
          obtain ⟨hfile, hsaved, hle, hcurrent, hstart⟩ := hstage
          exact ⟨hfile, hsaved, hle, hcurrent.trans hsize, hstart⟩
      | running start reader loop => trivial
  | truncate hlinked => exact hundisturbed.elim
  | launch hprocess' => exact hundisturbed.elim
  | lookSize hprocess' =>
      cases hprocess.symm.trans hprocess'
      obtain ⟨hfile, hsaved⟩ := hstage
      exact ⟨_, _, rfl, hfile, hsaved, hlow, le_rfl⟩
  | lookInode hprocess' hstart hfits =>
      cases hprocess.symm.trans hprocess'
      obtain ⟨hfile, hsaved, hle, hcurrent⟩ := hstage
      exact ⟨_, _, rfl, hfile, hsaved, hle, hcurrent, hfits, _, hstart⟩
  | enter hprocess' hearly | enterSaving hprocess' hfirst hpos | run hprocess' hruns hs
  | saveFailed hprocess' hloop =>
      cases hprocess.symm.trans hprocess'
      exact ⟨_, _, rfl, trivial⟩
  | receiveBlank => exact ⟨mode, stage, hprocess, hstage⟩
  | receive hprocess' ha hloop =>
      cases hprocess.symm.trans hprocess'
      exact ⟨_, _, rfl, trivial⟩
  | save hprocess' hfits hloop => exact hundisturbed.elim
  | crash => exact hundisturbed.elim

/-- What undisturbed steps preserve holds after any number of them. -/
theorem invariant_of_exec {I : History → Prop} {h h' : History} {actions : List History.Action}
    (hexec : exec (History.step ext) h actions = some h') (hundisturbed : ∀ a ∈ actions, Undisturbed a)
    (hstart : I h)
    (hstep : ∀ h a h', I h → Undisturbed a → h.step ext a = some h' → I h') : I h' :=
  (runWhere_of_exec hexec (everyStep_of_forall (fun a ha _ => hundisturbed a ha) h)).invariant
    (C := fun _ => Undisturbed) hstart hstep

theorem starting_of_exec {h h' : History} {mode : InputMode} {cfg : AppConfig}
    {actions : List History.Action}
    (hexec : exec (History.step ext) h (.launch mode cfg :: actions) = some h')
    (hundisturbed : ∀ a ∈ actions, Undisturbed a) :
    Starting h.stateFile cfg h.path.currentSize h' := by
  obtain ⟨next, hlaunch, hrest⟩ := Option.bind_eq_some_iff.mp hexec
  exact invariant_of_exec hrest hundisturbed (starting_launch hlaunch) fun _ _ _ hstarting ha hstep =>
    hstarting.step ha hstep

/-! ## From the start position to the crash -/

/-- The process is running. -/
def History.IsRunning (h : History) : Prop :=
  ∃ mode cfg start reader loop, h.process = some ⟨mode, cfg, .running start reader loop⟩

/-- A running process does not start again, and its state file stays. -/
theorem isRunning_of_exec {h h' : History} {actions : List History.Action}
    (hexec : exec (History.step ext) h actions = some h') (hundisturbed : ∀ a ∈ actions, Undisturbed a)
    (hrunning : h.IsRunning) :
    h'.stateFile = h.stateFile ∧ ∀ ok mappings, .enter ok mappings ∉ actions := by
  induction actions generalizing h with
  | nil =>
      cases hexec
      exact ⟨rfl, fun _ _ hmem => nomatch hmem⟩
  | cons a rest ih =>
      obtain ⟨next, hstep, hrest⟩ := Option.bind_eq_some_iff.mp hexec
      rw [List.forall_mem_cons] at hundisturbed
      obtain ⟨mode, cfg, start, reader, loop, hprocess⟩ := hrunning
      have hnext : next.IsRunning ∧ next.stateFile = h.stateFile ∧
          ∀ ok mappings, .enter ok mappings ≠ a := by
        cases History.moves_of_step ext hstep with
        | write hwrite => exact ⟨⟨_, _, _, _, _, hprocess⟩, rfl, fun _ _ heq => nomatch heq⟩
        | truncate hlinked => exact hundisturbed.1.elim
        | launch hprocess' => exact hundisturbed.1.elim
        | lookSize hprocess' | lookInode hprocess' hstart hfits | enter hprocess' hearly
        | enterSaving hprocess' hfirst hpos => cases hprocess.symm.trans hprocess'
        | run hprocess' hruns hs | saveFailed hprocess' hloop | receive hprocess' ha hloop =>
            exact ⟨⟨_, _, _, _, _, rfl⟩, rfl, fun _ _ heq => nomatch heq⟩
        | receiveBlank => exact ⟨⟨_, _, _, _, _, hprocess⟩, rfl, fun _ _ heq => nomatch heq⟩
        | save hprocess' hfits hloop => exact hundisturbed.1.elim
        | crash => exact hundisturbed.1.elim
      obtain ⟨hrunning, hfile, hother⟩ := hnext
      obtain ⟨hfile', hnone⟩ := ih hrest hundisturbed.2 hrunning
      refine ⟨hfile'.trans hfile, fun ok mappings hmem => ?_⟩
      rcases List.mem_cons.mp hmem with heq | hmem
      · exact hother ok mappings heq
      · exact hnone ok mappings hmem

/-- A first start leaves its position in the state file if it has one above 0 and gets as
far as to save it. -/
theorem stateFile_of_firstRun {h h' : History} {mode : InputMode} {cfg : AppConfig}
    {saved start : TailState} {fileSize : ℕ} {actions : List History.Action}
    (hexec : exec (History.step ext) h actions = some h') (hundisturbed : ∀ a ∈ actions, Undisturbed a)
    (hprocess : h.process = some ⟨mode, cfg, .resolved saved fileSize start⟩)
    (hfirst : saved.IsFirstRun) :
    (0 < start.offset ∧ (∃ mappings, .enter true mappings ∈ actions) ∧
        h'.stateFile = some (StateStore.render start)) ∨
      (¬ (0 < start.offset ∧ ∃ mappings, .enter true mappings ∈ actions) ∧
        h'.stateFile = h.stateFile) := by
  induction actions generalizing h with
  | nil =>
      cases hexec
      refine .inr ⟨?_, rfl⟩
      rintro ⟨-, mappings, hmem⟩
      exact nomatch hmem
  | cons a rest ih =>
      obtain ⟨next, hstep, hrest⟩ := Option.bind_eq_some_iff.mp hexec
      rw [List.forall_mem_cons] at hundisturbed
      cases History.moves_of_step ext hstep with
      | write hwrite =>
          have hlater := ih hrest hundisturbed.2 hprocess
          simpa only [List.mem_cons, reduceCtorEq, false_or] using hlater
      | truncate hlinked => exact hundisturbed.1.elim
      | launch hprocess' => exact hundisturbed.1.elim
      | lookSize hprocess' | lookInode hprocess' hstart hfits | run hprocess' hruns hs
      | saveFailed hprocess' hloop => cases hprocess.symm.trans hprocess'
      | receive hprocess' ha hloop => cases hprocess.symm.trans hprocess'
      | receiveBlank =>
          have hlater := ih hrest hundisturbed.2 hprocess
          simpa only [List.mem_cons, reduceCtorEq, false_or] using hlater
      | save hprocess' hfits hloop => exact hundisturbed.1.elim
      | crash => exact hundisturbed.1.elim
      | @enter _ _ _ _ _ ok mappings hprocess' hearly =>
          cases hprocess.symm.trans hprocess'
          obtain ⟨hfile, hnone⟩ := isRunning_of_exec hrest hundisturbed.2 ⟨_, _, _, _, _, rfl⟩
          refine .inr ⟨?_, hfile⟩
          rintro ⟨hpos, mappings', hmem⟩
          rcases List.mem_cons.mp hmem with heq | hmem
          · cases heq
            exact hearly ⟨hfirst, hpos, rfl⟩
          · exact hnone _ _ hmem
      | @enterSaving _ _ _ _ _ mappings hprocess' hfirst hpos =>
          cases hprocess.symm.trans hprocess'
          obtain ⟨hfile, -⟩ := isRunning_of_exec hrest hundisturbed.2 ⟨_, _, _, _, _, rfl⟩
          exact .inl ⟨hpos, ⟨mappings, List.mem_cons_self⟩, hfile⟩

/-! ## The next start -/

/-- Until the next launch only the log writer acts. -/
theorem stopped_of_exec {h h' : History} {actions : List History.Action}
    (hexec : exec (History.step ext) h actions = some h') (hundisturbed : ∀ a ∈ actions, Undisturbed a)
    (hprocess : h.process = none) :
    h'.stateFile = h.stateFile ∧ h.path.currentSize ≤ h'.path.currentSize := by
  have hstopped := invariant_of_exec
    (I := fun next => next.process = none ∧ next.stateFile = h.stateFile ∧
      h.path.currentSize ≤ next.path.currentSize)
    hexec hundisturbed ⟨hprocess, rfl, le_rfl⟩ ?_
  · exact hstopped.2
  · rintro next a next' ⟨hnone, hfile, hsize⟩ ha hstep
    have hsize' := hsize.trans (currentSize_le_of_step hstep ha)
    cases History.moves_of_step ext hstep with
    | write hwrite => exact ⟨hnone, hfile, hsize'⟩
    | truncate hlinked => exact ha.elim
    | launch hprocess' => exact ha.elim
    | receiveBlank => exact ⟨hnone, hfile, hsize⟩
    | save hprocess' hfits hloop => exact ha.elim
    | crash => exact ha.elim
    | lookSize hprocess' | lookInode hprocess' hstart hfits | enter hprocess' hearly
    | enterSaving hprocess' hfirst hpos | run hprocess' hruns hs | saveFailed hprocess' hloop =>
        exact nomatch hnone.symm.trans hprocess'
    | receive hprocess' ha hloop => exact nomatch hnone.symm.trans hprocess'

/-- The size a process has found and the position it has resolved to. -/
def History.resolved (h : History) : Option (ℕ × TailState) :=
  match h.process with
  | some ⟨_, _, .resolved _ fileSize start⟩ => some (fileSize, start)
  | _ => none

/-- A start position comes from the state file and the size found. -/
theorem Starting.resolved {stateFile : Option String} {cfg : AppConfig} {low size : ℕ} {h : History}
    {start : TailState} (hstarting : Starting stateFile cfg low h)
    (hresolved : h.resolved = some (size, start)) :
    (∃ mode, h.process = some ⟨mode, cfg, .resolved (StateStore.load stateFile) size start⟩) ∧
      h.stateFile = stateFile ∧ low ≤ size ∧ size ≤ h.path.currentSize ∧ start.Fits ∧
      ∃ inode, start =
        resolveStart cfg.seekToEndOnFirstRun (StateStore.load stateFile) size inode := by
  obtain ⟨-, mode, stage, hprocess, hstage⟩ := hstarting
  cases stage with
  | resolved saved fileSize start' =>
      obtain ⟨hfile, rfl, hlow, hcurrent, hfits, hstart⟩ := hstage
      simp only [History.resolved, hprocess, Option.some.injEq, Prod.mk.injEq] at hresolved
      obtain ⟨rfl, rfl⟩ := hresolved
      exact ⟨⟨mode, hprocess⟩, hfile, hlow, hcurrent, hfits, hstart⟩
  | loaded saved => simp [History.resolved, hprocess] at hresolved
  | sized saved fileSize => simp [History.resolved, hprocess] at hresolved
  | running start reader loop => simp [History.resolved, hprocess] at hresolved

/-- What the crash leaves: the state file as the first run left it, and a file that has not
shrunk. -/
theorem crashed_of_exec {h h' : History} {mode : InputMode} {cfg : AppConfig}
    {saved start : TailState} {fileSize : ℕ} {actions : List History.Action}
    (hexec : exec (History.step ext) h (actions ++ [.crash]) = some h')
    (hundisturbed : ∀ a ∈ actions, Undisturbed a)
    (hprocess : h.process = some ⟨mode, cfg, .resolved saved fileSize start⟩)
    (hfirst : saved.IsFirstRun) :
    h'.process = none ∧ h.path.currentSize ≤ h'.path.currentSize ∧
      ((0 < start.offset ∧ (∃ mappings, .enter true mappings ∈ actions) ∧
          h'.stateFile = some (StateStore.render start)) ∨
        (¬ (0 < start.offset ∧ ∃ mappings, .enter true mappings ∈ actions) ∧
          h'.stateFile = h.stateFile)) := by
  rw [exec_append] at hexec
  obtain ⟨before, hbefore, hcrash⟩ := Option.bind_eq_some_iff.mp hexec
  obtain ⟨after, hstep, hrest⟩ := Option.bind_eq_some_iff.mp hcrash
  cases hrest
  have hsize : h.path.currentSize ≤ before.path.currentSize :=
    invariant_of_exec (I := fun next => h.path.currentSize ≤ next.path.currentSize) hbefore
      hundisturbed le_rfl fun _ _ _ hle ha hnext => hle.trans (currentSize_le_of_step hnext ha)
  have hleft := stateFile_of_firstRun hbefore hundisturbed hprocess hfirst
  cases History.moves_of_step ext hstep with
  | crash => exact ⟨rfl, hsize, hleft⟩

/-- A first start in file mode, on a file that found `size` bytes, and a crash before the
first flush; the log writer goes on, and the next start finds `size'` bytes.  It resumes at
or before the first position exactly if the early save was made, or nothing was written. -/
theorem first_position_kept_iff {path : AlertsPath} {cfg cfg' : AppConfig}
    {looking running stopped again : List History.Action} {first crashed waiting second : History}
    {size size' : ℕ} {start start' : TailState}
    (hseek : cfg.seekToEndOnFirstRun) (hseek' : cfg'.seekToEndOnFirstRun)
    (hundisturbed : ∀ a ∈ looking ++ running ++ stopped ++ again, Undisturbed a)
    (hlooking : exec (History.step ext) (.initial path none) (.launch .file cfg :: looking) =
      some first)
    (hfirst : first.resolved = some (size, start))
    (hrunning : exec (History.step ext) first (running ++ [.crash]) = some crashed)
    (hstopped : exec (History.step ext) crashed stopped = some waiting)
    (hagain : exec (History.step ext) waiting (.launch .file cfg' :: again) = some second)
    (hsecond : second.resolved = some (size', start')) :
    start'.offset ≤ start.offset ↔
      (0 < size ∧ ∃ mappings, .enter true mappings ∈ running) ∨ size' = size := by
  simp only [List.forall_mem_append] at hundisturbed
  obtain ⟨⟨⟨hlooking', hrunning'⟩, hstopped'⟩, hagain'⟩ := hundisturbed
  obtain ⟨⟨_, hprocess⟩, hnothing, -, hcurrent, hfits, inode, hstart⟩ :=
    (starting_of_exec hlooking hlooking').resolved hfirst
  obtain ⟨-, -, hlow, -, -, inode', hstart'⟩ :=
    (starting_of_exec hagain hagain').resolved hsecond
  have hisFirst : (StateStore.load none).IsFirstRun := ⟨rfl, rfl⟩
  have hoffset : start.offset = size := by
    rw [hstart, hseek]
    exact resolveStart_firstRun hisFirst _ _
  obtain ⟨hnone, hgrown, hleft⟩ := crashed_of_exec hrunning hrunning' hprocess hisFirst
  obtain ⟨hkept, hgrown'⟩ := stopped_of_exec hstopped hstopped' hnone
  rw [hoffset] at hleft
  rcases hleft with ⟨hpos, hentered, hfile⟩ | ⟨hunsaved, hfile⟩
  · -- the next start loads the first position
    have hloaded : StateStore.load waiting.stateFile = start := by
      rw [hkept, hfile, StateStore.load_render hfits]
    have hlater : ¬ start.IsFirstRun := fun hagain => absurd hagain.1 (by omega)
    have hle : start'.offset ≤ start.offset := by
      rw [hstart', hloaded]
      exact resolveStart_le hlater _ _ _
    exact ⟨fun _ => .inl ⟨hpos, hentered⟩, fun _ => hle⟩
  · -- the next start takes itself for the first
    have hoffset' : start'.offset = size' := by
      rw [hstart', hseek', hkept, hfile, hnothing]
      exact resolveStart_firstRun hisFirst _ _
    rw [hoffset, hoffset', or_iff_right hunsaved]
    omega

/-- Seeks to the end on a first run. -/
def seekingConfig : AppConfig := { sampleConfig with seekToEndOnFirstRun := true }

/-- The first start, the crash, the log writer, the next start. -/
def looking : List History.Action := [.launch .file seekingConfig, .lookSize, .lookInode]

/-- The process gets into its loop and is killed. -/
def enterAndCrash : List History.Action := [.enter true default, .crash]

/-- The log writer appends one alert. -/
def oneMoreAlert : List History.Action := [.write (.append (sampleLine ++ "\n").toUTF8.data.toList)]

/-- A replayed scenario has its stages. -/
theorem exists_stages {h : History} {first middle last more : List History.Action}
    {result : ℕ × TailState}
    (hexec : (exec (History.step ext) h (first ++ (middle ++ (last ++ more)))).bind
      History.resolved = some result) :
    ∃ h₁ h₂ h₃ h₄, exec (History.step ext) h first = some h₁ ∧
      exec (History.step ext) h₁ middle = some h₂ ∧ exec (History.step ext) h₂ last = some h₃ ∧
      exec (History.step ext) h₃ more = some h₄ ∧ h₄.resolved = some result := by
  obtain ⟨h₄, hall, hresolved⟩ := Option.bind_eq_some_iff.mp hexec
  rw [exec_append] at hall
  obtain ⟨h₁, hfirst, hall⟩ := Option.bind_eq_some_iff.mp hall
  rw [exec_append] at hall
  obtain ⟨h₂, hmiddle, hall⟩ := Option.bind_eq_some_iff.mp hall
  rw [exec_append] at hall
  obtain ⟨h₃, hlast, hmore⟩ := Option.bind_eq_some_iff.mp hall
  exact ⟨h₁, h₂, h₃, h₄, hfirst, hmiddle, hlast, hmore, hresolved⟩

/-- A file of one alert: the early save is made before the process is killed. -/
theorem first_position_kept_iff_alert : ∃ first crashed waiting second start start',
    exec (History.step sampleExternals) (.initial samplePath none) looking = some first ∧
      exec (History.step sampleExternals) first enterAndCrash = some crashed ∧
      exec (History.step sampleExternals) crashed oneMoreAlert = some waiting ∧
      exec (History.step sampleExternals) waiting looking = some second ∧
      first.resolved = some (3, start) ∧ second.resolved = some (6, start') ∧
      start'.offset ≤ start.offset := by
  have hsecond : (exec (History.step sampleExternals) (.initial samplePath none)
      (looking ++ (enterAndCrash ++ (oneMoreAlert ++ looking)))).bind History.resolved =
      some (6, ⟨1, 3⟩) := by
    decide +kernel
  have hfirst : (exec (History.step sampleExternals) (.initial samplePath none) looking).bind
      History.resolved = some (3, ⟨1, 3⟩) := by
    decide +kernel
  obtain ⟨first, crashed, waiting, second, hlooking, hcrashed, hwaiting, hagain, hsecond⟩ :=
    exists_stages hsecond
  rw [hlooking, Option.bind_some] at hfirst
  have hundisturbed : ∀ a ∈ [.lookSize, .lookInode] ++ [.enter true default] ++ oneMoreAlert ++
      [.lookSize, .lookInode], Undisturbed a := by decide
  have hkilled : exec (History.step sampleExternals) first ([.enter true default] ++ [.crash]) =
      some crashed := hcrashed
  refine ⟨first, crashed, waiting, second, _, _, hlooking, hcrashed, hwaiting, hagain, hfirst,
    hsecond, ?_⟩
  exact (first_position_kept_iff rfl rfl hundisturbed hlooking hfirst hkilled hwaiting hagain
    hsecond).mpr (.inl ⟨by decide, default, List.mem_singleton_self _⟩)

/-- No alert yet. -/
def emptyPath : AlertsPath where
  older := []
  newest := ⟨1, []⟩
  linked := true

/-- The same on an empty file: nothing is saved, and the next start seeks past the alert. -/
theorem first_position_lost : ∃ first crashed waiting second start start',
    exec (History.step sampleExternals) (.initial emptyPath none) looking = some first ∧
      exec (History.step sampleExternals) first enterAndCrash = some crashed ∧
      exec (History.step sampleExternals) crashed oneMoreAlert = some waiting ∧
      exec (History.step sampleExternals) waiting looking = some second ∧
      first.resolved = some (0, start) ∧ second.resolved = some (3, start') ∧
      ¬ start'.offset ≤ start.offset := by
  have hsecond : (exec (History.step sampleExternals) (.initial emptyPath none)
      (looking ++ (enterAndCrash ++ (oneMoreAlert ++ looking)))).bind History.resolved =
      some (3, ⟨1, 3⟩) := by
    decide +kernel
  have hfirst : (exec (History.step sampleExternals) (.initial emptyPath none) looking).bind
      History.resolved = some (0, ⟨1, 0⟩) := by
    decide +kernel
  obtain ⟨first, crashed, waiting, second, hlooking, hcrashed, hwaiting, hagain, hsecond⟩ :=
    exists_stages hsecond
  rw [hlooking, Option.bind_some] at hfirst
  exact ⟨first, crashed, waiting, second, _, _, hlooking, hcrashed, hwaiting, hagain, hfirst,
    hsecond, by decide⟩

end WazuhOcsf
