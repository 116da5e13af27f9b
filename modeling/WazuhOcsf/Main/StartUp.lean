import WazuhOcsf.Main.History

/-!
# Start-up

`main` from the environment variables to the first iteration of its loop: `from_env`, the
sanity checks, the start position, the channel and the flush timer.  The checks only warn,
and they say that a zero still works; but the channel and the timer are tokio's, which
panics when a channel has no room or a timer no period, and the checks themselves multiply
the batch size.  Whether a product that does not fit stops `main` depends on the build: the
release profile does not ask for overflow checks, so that it wraps around there.
`startUp_defined_iff` says for which settings `main` gets to its loop.
-/

namespace WazuhOcsf

open RustString

/-! ## The environment -/

/-- The environment variables that are UTF-8, those of a `.env` file included. -/
abbrev Env := String → Option String

namespace Env

variable (vars : Env)

/-- `env::var(name).unwrap_or_else(|_| fallback.into())`. -/
def getOr (name fallback : String) : String := (vars name).getD fallback

/-- A switch that is on unless it says otherwise. -/
def enabled (name : String) : Bool :=
  match vars name with
  | some v => toAsciiLowercase (trim v) ∉ ["0", "false", "no"]
  | none => true

/-- A number; the default also when the variable is no number of `width` bits. -/
def parse (width : ℕ) (name : String) (default : ℕ) : ℕ :=
  match vars name with
  | none => default
  | some s => ((parseUInt width (trim s)).map BitVec.toNat).getD default

/-- `parse_env_usize`. -/
def parseEnvUsize (name : String) (default : ℕ) : ℕ := vars.parse 64 name default

/-- `parse_env_u64`. -/
def parseEnvU64 (name : String) (default : ℕ) : ℕ := vars.parse 64 name default

/-- A number that is read holds of `P` when the default does and every number does that the
variable can be read as. -/
theorem parse_iff {P : ℕ → Prop} {width default : ℕ} (hdefault : P default) (name : String) :
    P (vars.parse width name default) ↔
      ∀ s n, vars name = some s → parseUInt width (trim s) = some n → P n.toNat := by
  unfold parse
  cases hname : vars name with
  | none => exact iff_of_true hdefault (by simp)
  | some s =>
      dsimp only
      cases hparse : parseUInt width (trim s) with
      | none =>
          refine iff_of_true hdefault ?_
          rintro s' n ⟨⟩ hn
          simp [hparse] at hn
      | some n =>
          rw [Option.map_some, Option.getD_some]
          constructor
          · rintro hn s' n' ⟨⟩ hn'
            rwa [Option.some.inj (hparse.symm.trans hn')] at hn
          · intro h
            exact h s n rfl hparse

end Env

/-- `BATCH_SIZE` when it is not set. -/
def defaultBatchSize : ℕ := 5000

/-- `FLUSH_INTERVAL_SECS` when it is not set. -/
def defaultFlushIntervalSecs : ℕ := 5

/-- `CHANNEL_CAP` when it is not set. -/
def defaultChannelCap : ℕ := 50000

/-- `AppConfig` with the settings that only `main` and the tasks it starts read. -/
structure Settings extends AppConfig where
  clickhouseUrl : String
  clickhouseUser : String
  clickhousePassword : String
  alertsFile : String
  mappingsFile : String
  stateFile : String
  flushIntervalSecs : ℕ
  inputMode : InputMode
  zeromqUri : String
  unmappedFieldsFile : String

/-- `AppConfig::from_env`. -/
def Settings.fromEnv (vars : Env) : Settings where
  clickhouseUrl := vars.getOr "CLICKHOUSE_URL" "http://localhost:8123"
  clickhouseDb := vars.getOr "CLICKHOUSE_DATABASE" "wazuh_ocsf"
  clickhouseUser := vars.getOr "CLICKHOUSE_USER" "default"
  clickhousePassword := vars.getOr "CLICKHOUSE_PASSWORD" ""
  alertsFile := vars.getOr "ALERTS_FILE" "/var/ossec/logs/alerts/alerts.json"
  mappingsFile := vars.getOr "FIELD_MAPPINGS_FILE" "config/field_mappings.toml"
  stateFile := vars.getOr "STATE_FILE" "state/alerts.pos"
  specialLocations :=
    ((split ',' (vars.getOr "SPECIAL_LOCATIONS" "")).map trim).filter (· ≠ "")
  dataTtlDays := (vars "DATA_TTL_DAYS").bind fun s =>
    if trim s = "" then none else parseUInt 32 (trim s)
  seekToEndOnFirstRun := vars.enabled "SEEK_TO_END_ON_FIRST_RUN"
  batchSize := vars.parseEnvUsize "BATCH_SIZE" defaultBatchSize
  flushIntervalSecs := vars.parseEnvU64 "FLUSH_INTERVAL_SECS" defaultFlushIntervalSecs
  channelCap := vars.parseEnvUsize "CHANNEL_CAP" defaultChannelCap
  inputMode :=
    if toAsciiLowercase (trim (vars.getOr "INPUT_MODE" "")) ∈ ["zeromq", "zmq", "0mq"] then .zeroMq
    else .file
  zeromqUri := vars.getOr "ZEROMQ_URI" "tcp://localhost:11111"
  unmappedFieldsFile := vars.getOr "UNMAPPED_FIELDS_FILE" "state/unmapped_fields.json"
  storeRawData := vars.enabled "STORE_RAW_DATA"

/-! ## The sanity checks -/

/-- What stops `main`: an arithmetic overflow, or a panic of tokio. -/
inductive Abort
  | overflow
  | channelCapacity
  | intervalPeriod
  deriving DecidableEq

theorem bind_eq_ok_iff {α β : Type} {x : Except Abort α} {f : α → Except Abort β} {b : β} :
    x >>= f = .ok b ↔ ∃ a, x = .ok a ∧ f a = .ok b := by
  cases x with
  | error abort => simp [bind, Except.bind]
  | ok a => simp [bind, Except.bind]

/-- A product of `usize` values.  Where it does not fit, a build with overflow checks stops
and one without them wraps around. -/
def mulUsize (overflowChecks : Bool) (a b : ℕ) : Except Abort ℕ :=
  if overflowChecks ∧ 2 ^ 64 ≤ a * b then .error .overflow else .ok (a * b % 2 ^ 64)

theorem mulUsize_of_lt {overflowChecks : Bool} {a b : ℕ} (h : a * b < 2 ^ 64) :
    mulUsize overflowChecks a b = .ok (a * b) := by
  rw [mulUsize, if_neg fun hstops => Nat.not_lt.mpr hstops.2 h, Nat.mod_eq_of_lt h]

theorem mulUsize_of_le {a b : ℕ} (h : 2 ^ 64 ≤ a * b) : mulUsize true a b = .error .overflow :=
  if_pos ⟨rfl, h⟩

@[simp] theorem mulUsize_false (a b : ℕ) : mulUsize false a b = .ok (a * b % 2 ^ 64) :=
  if_neg fun hstops => Bool.false_ne_true hstops.1

/-- The sanity checks, and the warnings they print.  `warnEnabled` says whether the log
filter lets warnings through; the arguments of one that it holds back are not evaluated. -/
def sanityChecks (overflowChecks warnEnabled : Bool) (cfg : Settings) :
    Except Abort (List String) := do
  let batch := if cfg.batchSize = 0 then
    ["BATCH_SIZE=0 — every row will be flushed individually (very slow). " ++
      "Set BATCH_SIZE to at least 100."] else []
  let interval := if cfg.flushIntervalSecs = 0 then
    ["FLUSH_INTERVAL_SECS=0 — the timer will fire as fast as the tokio scheduler allows. " ++
      "Set to at least 1."] else []
  let twice ← mulUsize overflowChecks cfg.batchSize 2
  if warnEnabled then
    if cfg.channelCap < twice then
      let minimum ← mulUsize overflowChecks cfg.batchSize 10
      return batch ++ interval ++
        ["CHANNEL_CAP (" ++ cfg.channelCap.repr ++ ") < BATCH_SIZE (" ++ cfg.batchSize.repr ++
          ") × 2 — the reader will be forced to pause during every ClickHouse flush. " ++
          "Recommended minimum: " ++ minimum.repr]
    return batch ++ interval
  return []

/-- A build without overflow checks goes through the sanity checks. -/
theorem sanityChecks_false_isOk (warnEnabled : Bool) (cfg : Settings) :
    ∃ warnings, sanityChecks false warnEnabled cfg = .ok warnings := by
  unfold sanityChecks
  simp only [mulUsize_false]
  cases warnEnabled with
  | false => exact ⟨_, rfl⟩
  | true =>
      by_cases hcap : cfg.channelCap < cfg.batchSize * 2 % 2 ^ 64
      · exact ⟨_, if_pos hcap⟩
      · exact ⟨_, if_neg hcap⟩

/-- One with them goes through unless a product overflows that is computed. -/
theorem sanityChecks_true_isOk_iff {warnEnabled : Bool} {cfg : Settings} :
    (∃ warnings, sanityChecks true warnEnabled cfg = .ok warnings) ↔ cfg.batchSize * 2 < 2 ^ 64 ∧
      (warnEnabled → cfg.channelCap < cfg.batchSize * 2 → cfg.batchSize * 10 < 2 ^ 64) := by
  unfold sanityChecks
  rcases Nat.lt_or_ge (cfg.batchSize * 2) (2 ^ 64) with htwice | htwice
  · rw [mulUsize_of_lt htwice]
    cases warnEnabled with
    | false => exact iff_of_true ⟨_, rfl⟩ ⟨htwice, by simp⟩
    | true =>
        by_cases hcap : cfg.channelCap < cfg.batchSize * 2
        · rcases Nat.lt_or_ge (cfg.batchSize * 10) (2 ^ 64) with htenfold | htenfold
          · rw [mulUsize_of_lt htenfold]
            refine iff_of_true ⟨_, if_pos hcap⟩ ⟨htwice, fun _ _ => htenfold⟩
          · rw [mulUsize_of_le htenfold]
            refine iff_of_false ?_ fun h => absurd (h.2 rfl hcap) (Nat.not_lt.mpr htenfold)
            rintro ⟨warnings, hok⟩
            cases (if_pos hcap).symm.trans hok
        · exact iff_of_true ⟨_, if_neg hcap⟩ ⟨htwice, fun _ h => absurd h hcap⟩
  · rw [mulUsize_of_le htwice]
    refine iff_of_false ?_ fun h => absurd h.1 (Nat.not_lt.mpr htwice)
    rintro ⟨warnings, ⟨⟩⟩

/-! ## The channel and the timer -/

/-- The most a semaphore holds, and so a channel. -/
def maxPermits : ℕ := (2 ^ 64 - 1) >>> 3

/-- The parts of tokio that `main` hands its settings to, as documented. -/
structure Tokio where
  /-- `mpsc::channel` panics. -/
  channelPanics : ℕ → Bool
  /-- `time::interval` panics. -/
  intervalPanics : ℕ → Bool
  channelPanics_iff (capacity : ℕ) :
    channelPanics capacity ↔ capacity = 0 ∨ maxPermits < capacity
  intervalPanics_iff (period : ℕ) : intervalPanics period ↔ period = 0

instance : Inhabited Tokio where
  default :=
    { channelPanics := fun capacity => capacity = 0 ∨ maxPermits < capacity
      intervalPanics := fun period => period = 0
      channelPanics_iff := fun _ => decide_eq_true_iff
      intervalPanics_iff := fun _ => decide_eq_true_iff }

namespace Tokio

variable (tokio : Tokio)

/-- `mpsc::channel`. -/
def channel (capacity : ℕ) : Except Abort Unit :=
  if tokio.channelPanics capacity then .error .channelCapacity else .ok ()

/-- `tokio::time::interval`. -/
def interval (period : ℕ) : Except Abort Unit :=
  if tokio.intervalPanics period then .error .intervalPeriod else .ok ()

theorem channel_eq_ok_iff {capacity : ℕ} :
    tokio.channel capacity = .ok () ↔ 0 < capacity ∧ capacity ≤ maxPermits := by
  rw [channel, ite_eq_right_iff, tokio.channelPanics_iff]
  simp [Nat.pos_iff_ne_zero]

theorem interval_eq_ok_iff {period : ℕ} : tokio.interval period = .ok () ↔ 0 < period := by
  rw [interval, ite_eq_right_iff, tokio.intervalPanics_iff]
  simp [Nat.pos_iff_ne_zero]

end Tokio

/-- What `main` brings to its loop. -/
structure Started where
  cfg : Settings
  warnings : List String
  start : TailState
  loop : LoopState

/-- `main` up to the first iteration of its loop, given what the state file, the two
look-ups of the alerts file and the mapping file gave. -/
def startUp (tokio : Tokio) (overflowChecks warnEnabled : Bool) (vars : Env) (saved : TailState)
    (fileSize currentInode : ℕ) (mappings : CustomMappings) : Except Abort Started := do
  let cfg := Settings.fromEnv vars
  let warnings ← sanityChecks overflowChecks warnEnabled cfg
  let start := resolveStart cfg.seekToEndOnFirstRun saved fileSize currentInode
  tokio.channel cfg.channelCap
  tokio.interval cfg.flushIntervalSecs
  return ⟨cfg, warnings, start, .initial mappings start.offset⟩

section

variable {tokio : Tokio} {overflowChecks warnEnabled : Bool} {vars : Env} {saved : TailState}
  {fileSize currentInode : ℕ} {mappings : CustomMappings}

/-- What a start-up goes through, and what comes out of it. -/
theorem startUp_eq_ok_iff {started : Started} :
    startUp tokio overflowChecks warnEnabled vars saved fileSize currentInode mappings =
        .ok started ↔
      started.cfg = .fromEnv vars ∧
      sanityChecks overflowChecks warnEnabled started.cfg = .ok started.warnings ∧
      tokio.channel started.cfg.channelCap = .ok () ∧
      tokio.interval started.cfg.flushIntervalSecs = .ok () ∧
      started.start =
        resolveStart started.cfg.seekToEndOnFirstRun saved fileSize currentInode ∧
      started.loop = .initial mappings started.start.offset := by
  unfold startUp
  simp only [bind_eq_ok_iff]
  constructor
  · rintro ⟨warnings, hchecks, ⟨⟩, hchannel, ⟨⟩, hinterval, ⟨⟩⟩
    exact ⟨rfl, hchecks, hchannel, hinterval, rfl, rfl⟩
  · obtain ⟨cfg, warnings, start, loop⟩ := started
    rintro ⟨rfl, hchecks, hchannel, hinterval, hstart, hloop⟩
    dsimp only at hstart hloop
    subst hloop hstart
    exact ⟨warnings, hchecks, (), hchannel, (), hinterval, rfl⟩

theorem startUp_isOk_iff :
    (∃ started, startUp tokio overflowChecks warnEnabled vars saved fileSize currentInode
        mappings = .ok started) ↔
      (∃ warnings, sanityChecks overflowChecks warnEnabled (.fromEnv vars) = .ok warnings) ∧
        (0 < (Settings.fromEnv vars).channelCap ∧
          (Settings.fromEnv vars).channelCap ≤ maxPermits) ∧
        0 < (Settings.fromEnv vars).flushIntervalSecs := by
  simp only [startUp_eq_ok_iff, Tokio.channel_eq_ok_iff, Tokio.interval_eq_ok_iff]
  constructor
  · rintro ⟨⟨cfg, warnings, start, loop⟩, rfl, hchecks, hchannel, hinterval, -⟩
    exact ⟨⟨warnings, hchecks⟩, hchannel, hinterval⟩
  · rintro ⟨⟨warnings, hchecks⟩, hchannel, hinterval⟩
    let start := resolveStart (Settings.fromEnv vars).seekToEndOnFirstRun saved fileSize
      currentInode
    exact ⟨⟨.fromEnv vars, warnings, start, .initial mappings start.offset⟩, rfl, hchecks,
      hchannel, hinterval, rfl, rfl⟩

/-! ## Settings that start -/

/-- A number that is zero, however it is spelled. -/
def IsZero (s : String) : Prop := ∃ n, 0 < n ∧
  ((trim s).toList = List.replicate n '0' ∨ (trim s).toList = '+' :: List.replicate n '0')

/-- What the steps of `main` from the checks to the loop need of their arguments. -/
structure Settings.Defined (cfg : Settings) : Prop where
  twice : cfg.batchSize * 2 < 2 ^ 64
  tenfold : cfg.batchSize * 10 < 2 ^ 64
  capacity : 1 ≤ cfg.channelCap
  period : cfg.flushIntervalSecs ≠ 0

/-- Neither of the two numbers that tokio gets is given as zero, and a batch size that is
given as a number may be multiplied by `factor`. -/
structure Env.InRange (factor : ℕ) (vars : Env) : Prop where
  channelCap : ∀ s, vars "CHANNEL_CAP" = some s → ¬ IsZero s
  flushIntervalSecs : ∀ s, vars "FLUSH_INTERVAL_SECS" = some s → ¬ IsZero s
  batchSize : ∀ s n, vars "BATCH_SIZE" = some s → parseUInt 64 (trim s) = some n →
    n.toNat * factor < 2 ^ 64

/-- No channel is asked for that is larger than tokio makes one. -/
def Env.ChannelFits (vars : Env) : Prop :=
  ∀ s n, vars "CHANNEL_CAP" = some s → parseUInt 64 (trim s) = some n → n.toNat ≤ maxPermits

/-- A number is positive unless it is given as zero. -/
theorem pos_parse_iff (vars : Env) (name : String) {default : ℕ} (hdefault : 0 < default) :
    0 < vars.parse 64 name default ↔ ∀ s, vars name = some s → ¬ IsZero s := by
  rw [vars.parse_iff hdefault name]
  refine forall_congr' fun s => ?_
  rw [IsZero, ← @parseUInt_eq_zero_iff 64]
  constructor
  · intro h hname hzero
    exact absurd (h 0 hname hzero) (by decide)
  · intro h n hname hn
    apply Nat.pos_of_ne_zero
    intro hzero
    obtain rfl : n = 0 := BitVec.eq_of_toNat_eq hzero
    exact h hname hn

theorem inRange_iff {factor : ℕ} (hdefault : defaultBatchSize * factor < 2 ^ 64) :
    vars.InRange factor ↔ 0 < (Settings.fromEnv vars).channelCap ∧
      0 < (Settings.fromEnv vars).flushIntervalSecs ∧
      (Settings.fromEnv vars).batchSize * factor < 2 ^ 64 := by
  have hcap := pos_parse_iff vars "CHANNEL_CAP" (by decide : 0 < defaultChannelCap)
  have hflush := pos_parse_iff vars "FLUSH_INTERVAL_SECS" (by decide : 0 < defaultFlushIntervalSecs)
  have hbatch : (Settings.fromEnv vars).batchSize * factor < 2 ^ 64 ↔ ∀ s n,
      vars "BATCH_SIZE" = some s → parseUInt 64 (trim s) = some n → n.toNat * factor < 2 ^ 64 :=
    vars.parse_iff (P := fun b => b * factor < 2 ^ 64) hdefault "BATCH_SIZE"
  constructor
  · intro h
    exact ⟨hcap.mpr h.channelCap, hflush.mpr h.flushIntervalSecs, hbatch.mpr h.batchSize⟩
  · rintro ⟨hc, hf, hb⟩
    exact ⟨hcap.mp hc, hflush.mp hf, hbatch.mp hb⟩

theorem channelFits_iff :
    vars.ChannelFits ↔ (Settings.fromEnv vars).channelCap ≤ maxPermits :=
  (vars.parse_iff (P := (· ≤ maxPermits)) (by decide) "CHANNEL_CAP").symm

theorem defined_iff : (Settings.fromEnv vars).Defined ↔ vars.InRange 10 := by
  rw [inRange_iff (by decide)]
  constructor
  · intro h
    exact ⟨h.capacity, Nat.pos_of_ne_zero h.period, h.tenfold⟩
  · rintro ⟨hcap, hflush, hbatch⟩
    exact ⟨by omega, hbatch, hcap, by omega⟩

/-- The largest factor by which the checks multiply the batch size so that an overflow stops
them: none without overflow checks, and the larger one only for a warning that is printed. -/
def checkedFactor (overflowChecks warnEnabled : Bool) : ℕ :=
  if overflowChecks then if warnEnabled then 10 else 2 else 0

theorem startUp_isOk_iff_inRange :
    (∃ started, startUp tokio overflowChecks warnEnabled vars saved fileSize currentInode
        mappings = .ok started) ↔
      vars.InRange (checkedFactor overflowChecks warnEnabled) ∧ vars.ChannelFits := by
  rw [startUp_isOk_iff, channelFits_iff,
    inRange_iff (by cases overflowChecks <;> cases warnEnabled <;> decide)]
  have hpermits : maxPermits = 2 ^ 61 - 1 := rfl
  cases overflowChecks with
  | false =>
      have hchecks := sanityChecks_false_isOk warnEnabled (.fromEnv vars)
      simp only [hchecks, checkedFactor, Bool.false_eq_true, if_false, true_and]
      omega
  | true =>
      rw [sanityChecks_true_isOk_iff]
      cases warnEnabled with
      | false =>
          simp only [checkedFactor, Bool.false_eq_true, false_implies, and_true, if_false, if_true]
          omega
      | true =>
          -- a batch whose double fits into a channel may be taken ten times as well
          simp only [checkedFactor, true_implies, if_true]
          omega

/-- The defaults start. -/
theorem startUp_of_unset (hbatch : vars "BATCH_SIZE" = none)
    (hflush : vars "FLUSH_INTERVAL_SECS" = none) (hcap : vars "CHANNEL_CAP" = none) :
    ∃ started, startUp tokio overflowChecks warnEnabled vars saved fileSize currentInode mappings =
      .ok started := by
  rw [startUp_isOk_iff_inRange]
  refine ⟨⟨?_, ?_, ?_⟩, ?_⟩
  · simp [hcap]
  · simp [hflush]
  · simp [hbatch]
  · simp [Env.ChannelFits, hcap]

/-- The steps of `main` are defined unless a number is given as zero that may not be zero,
or a batch size too large to be multiplied.  Then, if tokio makes a channel that large,
`main` reaches its loop; a build without overflow checks reaches it whatever the batch size. -/
theorem startUp_defined_iff (tokio : Tokio) (overflowChecks warnEnabled : Bool) (vars : Env)
    (saved : TailState) (fileSize currentInode : ℕ) (mappings : CustomMappings) :
    ((Settings.fromEnv vars).Defined ↔ vars.InRange 10) ∧
      ((∃ started, startUp tokio overflowChecks warnEnabled vars saved fileSize currentInode
          mappings = .ok started) ↔
        vars.InRange (checkedFactor overflowChecks warnEnabled) ∧ vars.ChannelFits) :=
  ⟨defined_iff, startUp_isOk_iff_inRange⟩

/-- One variable is set. -/
def Env.only (name value : String) : Env := fun other => if other = name then some value else none

/-- Three settings the checks let pass, two of them with no more than a warning that says
what a zero would do.  A batch size whose double overflows is fatal to a build with overflow
checks only; the other takes the double for zero and prints no warning. -/
theorem startUp_aborts :
    (∀ overflowChecks, ¬ (Settings.fromEnv (.only "FLUSH_INTERVAL_SECS" "0")).Defined ∧
      sanityChecks overflowChecks true (.fromEnv (.only "FLUSH_INTERVAL_SECS" "0")) =
        .ok ["FLUSH_INTERVAL_SECS=0 — the timer will fire as fast as the tokio scheduler " ++
          "allows. Set to at least 1."] ∧
      startUp default overflowChecks true (.only "FLUSH_INTERVAL_SECS" "0") default 0 0 default =
        .error .intervalPeriod) ∧
    (∀ overflowChecks, ¬ (Settings.fromEnv (.only "CHANNEL_CAP" "0")).Defined ∧
      startUp default overflowChecks true (.only "CHANNEL_CAP" "0") default 0 0 default =
        .error .channelCapacity) ∧
    (¬ (Settings.fromEnv (.only "BATCH_SIZE" "9223372036854775808")).Defined ∧
      startUp default true true (.only "BATCH_SIZE" "9223372036854775808") default 0 0 default =
        .error .overflow ∧
      sanityChecks false true (.fromEnv (.only "BATCH_SIZE" "9223372036854775808")) = .ok [] ∧
      ∃ started, startUp default false true (.only "BATCH_SIZE" "9223372036854775808") default 0 0
        default = .ok started) := by
  refine ⟨fun overflowChecks => ⟨fun h => h.period rfl, ?_, ?_⟩,
    fun overflowChecks => ⟨fun h => absurd h.capacity (by decide), ?_⟩,
    fun h => absurd h.twice (by decide), rfl, by decide, ⟨_, rfl⟩⟩
  · cases overflowChecks <;> decide
  · cases overflowChecks <;> rfl
  · cases overflowChecks <;> rfl

/-! ## The process that has started -/

/-- A start-up that reaches the loop is the start of a process: the same start position,
the same loop. -/
theorem enter_of_startUp (ext : Externals) {h : History} {started : Started} (ok : Bool)
    (hstarted : startUp tokio overflowChecks warnEnabled vars (StateStore.load h.stateFile)
      h.path.currentSize h.path.currentInode mappings = .ok started)
    (hprocess : h.process = none) (hsize : h.path.currentSize < 2 ^ 64)
    (hfits : started.start.Fits) :
    ∃ h', Transition.exec (History.step ext) h
        [.launch started.cfg.inputMode started.cfg.toAppConfig, .lookSize, .lookInode,
          .enter ok mappings] = some h' ∧
      h'.process = some ⟨started.cfg.inputMode, started.cfg.toAppConfig,
        .running started.start started.cfg.inputMode.reader started.loop⟩ := by
  obtain ⟨-, -, -, -, hstart, hloop⟩ := startUp_eq_ok_iff.mp hstarted
  rw [hstart] at hfits
  rw [hloop, hstart]
  simp only [Transition.exec, History.step, hprocess, hsize, hfits, if_true, Option.bind_some]
  refine ⟨_, rfl, ?_⟩
  split
  · rfl
  · rfl

end

end WazuhOcsf
