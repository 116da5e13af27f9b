import Mathlib.Data.Prod.Lex
import WazuhOcsf.Backlog
import WazuhOcsf.Main.History

/-!
# Progress of the state file

Over a whole history of starts on one state file, in both input modes: the persisted
offset of a file is at no time followed by a smaller one of the same file.  It is when
something goes back to byte 0 of a file whose position is persisted: a ZeroMQ run, whose
offsets are all 0, a reader that reopens a file it has read from, or a start that takes
the file for truncated; and when the offset of one file is saved as that of the next.
`persisted_never_back` is about the histories without such a step, `persisted_back` a
ZeroMQ run after a file run.
-/

namespace WazuhOcsf

open Transition Trace DbState

variable {ext : Externals} {cfg : AppConfig} {start : TailState}

/-! ## The position that stands -/

/-- The last persisted state, unless its file was truncated afterwards. -/
def standing (log : List Record) : Option TailState :=
  log.foldl (fun last record =>
    match record with
    | .persisted state => some state
    | .truncated inode => last.filter (·.inode ≠ inode)) none

@[simp] theorem standing_persisted (log : List Record) (state : TailState) :
    standing (log ++ [.persisted state]) = some state := by
  simp [standing]

@[simp] theorem standing_truncated (log : List Record) (inode : ℕ) :
    standing (log ++ [.truncated inode]) = (standing log).filter (·.inode ≠ inode) := by
  simp [standing]

/-- A persisted state stands as long as other files are truncated. -/
theorem standing_of_between {before between : List Record} {state : TailState}
    (hbetween : ∀ r ∈ between, ∃ inode, r = .truncated inode ∧ inode ≠ state.inode) :
    standing (before ++ [.persisted state] ++ between) = some state := by
  induction between using List.reverseRecOn with
  | nil => simp
  | append_singleton between r ih =>
      rw [List.forall_mem_append] at hbetween
      obtain ⟨inode, rfl, hne⟩ := hbetween.2 r (List.mem_singleton_self r)
      rw [← List.append_assoc, standing_truncated, ih hbetween.1, Option.filter_some,
        if_pos (by simpa using hne.symm)]

/-- Below which nothing may be saved for the file at the path, 0 if anything may. -/
def floor (path : AlertsPath) (log : List Record) : ℕ :=
  match standing log with
  | some state => if path.current.map AlertsFile.inode = some state.inode then state.offset else 0
  | none => 0

theorem floor_eq {path : AlertsPath} {log : List Record} {state : TailState}
    (hstanding : standing log = some state)
    (hcurrent : path.current.map AlertsFile.inode = some state.inode) :
    floor path log = state.offset := by
  simp only [floor, hstanding, if_pos hcurrent]

theorem floor_persisted_le (path : AlertsPath) (log : List Record) (state : TailState) :
    floor path (log ++ [.persisted state]) ≤ state.offset := by
  simp only [floor, standing_persisted]
  split_ifs
  · exact le_rfl
  · exact Nat.zero_le _

theorem floor_of_not_linked {path : AlertsPath} (hlinked : ¬ path.linked) (log : List Record) :
    floor path log = 0 := by
  rw [floor, path.current_of_not_linked hlinked]
  split <;> rfl

theorem floor_pos {path : AlertsPath} {log : List Record} (h : 0 < floor path log) :
    ∃ state, standing log = some state ∧ path.current.map AlertsFile.inode = some state.inode ∧
      floor path log = state.offset := by
  cases hstanding : standing log with
  | none => simp [floor, hstanding] at h
  | some state =>
      by_cases hcurrent : path.current.map AlertsFile.inode = some state.inode
      · exact ⟨state, rfl, hcurrent, floor_eq hstanding hcurrent⟩
      · simp only [floor, hstanding, if_neg hcurrent, Nat.lt_irrefl] at h

/-- The inode of the standing state is that of a file, or none. -/
def Known (path : AlertsPath) (inode : ℕ) : Prop :=
  inode = 0 ∨ inode ∈ path.files.map AlertsFile.inode

theorem known_currentInode (path : AlertsPath) : Known path path.currentInode := by
  by_cases hlinked : path.linked
  · refine .inr ?_
    simp [AlertsPath.currentInode, path.current_of_linked hlinked, AlertsPath.files]
  · exact .inl (by simp [AlertsPath.currentInode, path.current_of_not_linked hlinked])

theorem Known.write {path path' : AlertsPath} {op : Write} {inode : ℕ} (h : Known path inode)
    (hwrite : path.write op = some path') : Known path' inode := by
  refine h.imp_right fun hmem => ?_
  have hext := AlertsPath.extends_of_write hwrite
  obtain ⟨file, hfile, hinode⟩ := List.mem_map.mp hmem
  obtain ⟨k, hk⟩ := List.mem_iff_getElem?.mp hfile
  have hlt := (List.getElem?_eq_some_iff.mp hk).1
  have hkeep := hext.inode (k := k) (by rw [AlertsPath.length_files] at hlt; omega)
  rw [hk, Option.map_some, hinode, ← List.getElem?_map] at hkeep
  exact List.mem_of_getElem? hkeep

/-- A step of the writer lowers the floor, and if it leaves one the file is the same. -/
theorem floor_write {path path' : AlertsPath} {op : Write} {log : List Record}
    (hknown : ∀ state, standing log = some state → Known path state.inode)
    (hwrite : path.write op = some path') :
    floor path' log ≤ floor path log ∧
      (0 < floor path' log → path'.older.length = path.older.length) := by
  cases op with
  | append bytes =>
      obtain ⟨hlinked, hwrite⟩ := Option.ite_none_right_eq_some.mp hwrite
      cases hwrite
      exact ⟨by simp [floor, AlertsPath.current, hlinked], fun _ => rfl⟩
  | rename =>
      obtain ⟨-, hwrite⟩ := Option.ite_none_right_eq_some.mp hwrite
      cases hwrite
      rw [floor_of_not_linked (by simp)]
      exact ⟨Nat.zero_le _, fun _ => rfl⟩
  | create inode =>
      obtain ⟨⟨-, hne, hfresh⟩, hwrite⟩ := Option.ite_none_right_eq_some.mp hwrite
      cases hwrite
      have hzero : floor ⟨path.files, ⟨inode, []⟩, true⟩ log = 0 := by
        by_contra hpos
        obtain ⟨state, hstanding, hcurrent, -⟩ := floor_pos (Nat.pos_of_ne_zero hpos)
        obtain rfl : inode = state.inode := by simpa [AlertsPath.current] using hcurrent
        exact (hknown state hstanding).elim hne hfresh
      exact ⟨hzero ▸ Nat.zero_le _, fun hpos => absurd hpos (by omega)⟩

/-! ## A running process -/

/-- Where in the generations a line ends. -/
def Message.position (m : Message) : ℕ ×ₗ ℕ := toLex (m.source, m.offset)

/-- Where a tailer stands, generation first. -/
def FileTailer.position (t : FileTailer) : ℕ ×ₗ ℕ := toLex (t.file, t.offset)

theorem position_le {t t' : FileTailer} (hfile : t.file = t'.file) (hoffset : t'.offset ≤ t.offset) :
    t'.position ≤ t.position :=
  Prod.Lex.toLex_le_toLex.mpr (.inr ⟨hfile.symm, hoffset⟩)

/-- The lines the loop has taken and not saved, and those in the channel. -/
def LoopState.inFlight (loop : LoopState) : List Message := takenSince loop.log ++ loop.channel

/-- Those, and the one in `send`. -/
def unsavedLines (reader : Reader) (loop : LoopState) : List Message :=
  loop.inFlight ++ reader.message.toList

/-- Nothing that can still be saved for the newest file is below the floor. -/
structure Onward (newest floor : ℕ) (reader : Reader) (loop : LoopState) : Prop where
  offset : floor ≤ loop.currentOffset
  source : ∀ m ∈ unsavedLines reader loop, m.source ≤ newest
  sorted : (unsavedLines reader loop).Pairwise fun m m' => m.position ≤ m'.position
  floored : 0 < floor → ∀ m ∈ loop.channel ++ reader.message.toList,
    toLex (newest, floor) ≤ m.position
  file : ∀ t, reader.tailer = some t → t.file ≤ newest
  above : ∀ t, reader.tailer = some t → 0 < floor → toLex (newest, floor) ≤ t.position
  past : ∀ t, reader.tailer = some t → ∀ m ∈ unsavedLines reader loop, m.position ≤ t.position
  starting : reader.tailer = none → reader ≠ .stopped → sentMessages loop.log = []

/-- The reader is about to open the file at the path from byte 0. -/
def Reader.Reopens (path : AlertsPath) : Reader → Prop
  | opening .startRotated _ | opening (.rotation _) _ => path.linked
  | _ => False

instance (path : AlertsPath) : (reader : Reader) → Decidable (reader.Reopens path)
  | .opening .startRotated _ | .opening (.rotation _) _ =>
      inferInstanceAs (Decidable (path.linked = true))
  | .opening .start _ | .metadata _ | .reading _ | .sending _ _ | .checking _ | .stopped =>
      .isFalse id

/-- What was taken since the save is the end of all that was taken. -/
theorem takenSince_suffix (log : List Event) : takenSince log <:+ receivedMessages log :=
  List.IsSuffix.filterMap _ (List.rtakeWhile_suffix _ _)

/-- A step that neither sends nor persists leaves the unsaved lines in place. -/
theorem inFlight_of_step {loop loop' : LoopState} {a : Action}
    (hstep : step ext cfg loop a = some loop') (hsend : ∀ m, a ≠ .send m)
    (hsave : ∀ inode, a ≠ .save inode true) :
    loop'.inFlight = loop.inFlight ∧ (∀ m ∈ loop'.channel, m ∈ loop.channel) ∧
      (loop'.currentOffset = loop.currentOffset ∨
        ∃ m ∈ loop.channel, loop'.currentOffset = m.offset) := by
  cases moves_of_step ext cfg hstep with
  | send m hopen hroom => exact absurd rfl (hsend m)
  | recv env m rest hpc hchannel =>
      refine ⟨?_, ?_, .inr ⟨m, by simp [hchannel], by simp⟩⟩
      · simp only [LoopState.inFlight, LoopState.log, bufferRow_db, log_record, bufferRow_channel]
        rw [hchannel, takenSince_received, List.append_assoc, List.singleton_append]
        rfl
      · intro m' hm'
        rw [bufferRow_channel] at hm'
        exact hchannel ▸ List.mem_cons_of_mem m hm'
  | flush env final hpc =>
      refine ⟨?_, fun m hm => hm, .inl rfl⟩
      exact congrArg (· ++ loop.channel) (takenSince_of_flush hstep)
  | save inode ok final hpc =>
      cases ok with
      | true => exact absurd rfl (hsave inode)
      | false =>
          refine ⟨?_, fun m hm => hm, .inl rfl⟩
          have htaken := (BacklogInv.sinceSave_quiet
            (e := .saved ⟨inode, loop.currentOffset⟩ false) rfl rfl rfl loop.log).1
          exact congrArg (· ++ loop.channel) htaken
  | _ => exact ⟨rfl, fun m hm => hm, .inl rfl⟩

namespace Onward

variable {newest floor : ℕ} {reader : Reader} {loop : LoopState}

theorem initial (newest : ℕ) (mappings : CustomMappings) {startOffset : ℕ}
    (h : floor ≤ startOffset) :
    Onward newest floor (.metadata .start) (.initial mappings startOffset) where
  offset := h
  source _ hm := absurd hm List.not_mem_nil
  sorted := .nil
  floored _ _ hm := absurd hm List.not_mem_nil
  file _ ht := nomatch ht
  above _ ht := nomatch ht
  past _ ht := nomatch ht
  starting _ _ := rfl

/-- The writer or a truncation lowers the floor. -/
theorem mono {newest' floor' : ℕ} (h : Onward newest floor reader loop) (hnewest : newest ≤ newest')
    (hfloor : floor' ≤ floor) (hsame : 0 < floor' → newest' = newest) :
    Onward newest' floor' reader loop := by
  have hlower (hpos : 0 < floor') : toLex (newest', floor') ≤ toLex (newest, floor) := by
    rw [hsame hpos, Prod.Lex.toLex_le_toLex]
    exact .inr ⟨rfl, hfloor⟩
  constructor
  case offset => exact hfloor.trans h.offset
  case source => exact fun m hm => (h.source m hm).trans hnewest
  case sorted => exact h.sorted
  case floored => exact fun hpos m hm => (hlower hpos).trans (h.floored (hpos.trans_le hfloor) m hm)
  case file => exact fun t ht => (h.file t ht).trans hnewest
  case above => exact fun t ht hpos => (hlower hpos).trans (h.above t ht (hpos.trans_le hfloor))
  case past => exact h.past
  case starting => exact h.starting

/-- The reader has the same file open, or none, and nothing to send. -/
theorem withReader (h : Onward newest floor reader loop) {reader' : Reader}
    (hmessage : reader'.message = none)
    (htailer : ∀ t, reader'.tailer = some t →
      ∃ t', reader.tailer = some t' ∧ t.file = t'.file ∧ t'.offset ≤ t.offset)
    (hstarting : reader'.tailer = none → reader' ≠ .stopped → sentMessages loop.log = []) :
    Onward newest floor reader' loop := by
  have hfewer : ∀ m ∈ unsavedLines reader' loop, m ∈ unsavedLines reader loop := by
    intro m hm
    rw [unsavedLines, hmessage, Option.toList_none, List.append_nil] at hm
    exact List.mem_append_left _ hm
  constructor
  case offset => exact h.offset
  case source => exact fun m hm => h.source m (hfewer m hm)
  case sorted =>
    rw [unsavedLines, hmessage, Option.toList_none, List.append_nil]
    exact (List.pairwise_append.mp h.sorted).1
  case floored =>
    intro hpos m hm
    rw [hmessage, Option.toList_none, List.append_nil] at hm
    exact h.floored hpos m (List.mem_append_left _ hm)
  case file =>
    intro t ht
    obtain ⟨t', ht', hfile, -⟩ := htailer t ht
    exact hfile.trans_le (h.file t' ht')
  case above =>
    intro t ht hfloor
    obtain ⟨t', ht', hfile, hoffset⟩ := htailer t ht
    exact (h.above t' ht' hfloor).trans (position_le hfile hoffset)
  case past =>
    intro t ht m hm
    obtain ⟨t', ht', hfile, hoffset⟩ := htailer t ht
    exact (h.past t' ht' m (hfewer m hm)).trans (position_le hfile hoffset)
  case starting => exact hstarting

/-- The newest file is opened, of which nothing is unsaved. -/
theorem opened (h : Onward newest floor reader loop) {t : FileTailer} (hfile : t.file = newest)
    (hoffset : floor ≤ t.offset) (hnone : ∀ m ∈ loop.inFlight, m.source ≠ newest) :
    Onward newest floor (.reading t) loop := by
  have hunsaved : unsavedLines (.reading t) loop = loop.inFlight := List.append_nil _
  have hfewer : ∀ m ∈ loop.inFlight, m ∈ unsavedLines reader loop :=
    fun m hm => List.mem_append_left _ hm
  constructor
  case offset => exact h.offset
  case source => exact fun m hm => h.source m (hfewer m (hunsaved ▸ hm))
  case sorted => exact hunsaved ▸ (List.pairwise_append.mp h.sorted).1
  case floored =>
    intro hpos m hm
    have hchannel : m ∈ loop.channel := by simpa [Reader.message] using hm
    exact h.floored hpos m (List.mem_append_left _ hchannel)
  case file =>
    rintro _ ⟨⟩
    exact hfile.le
  case above =>
    rintro _ ⟨⟩ -
    exact Prod.Lex.toLex_le_toLex.mpr (.inr ⟨hfile.symm, hoffset⟩)
  case past =>
    rintro _ ⟨⟩ m hm
    rw [hunsaved] at hm
    have hlt : m.source < t.file :=
      hfile ▸ lt_of_le_of_ne (h.source m (hfewer m hm)) (hnone m hm)
    exact Prod.Lex.toLex_le_toLex.mpr (.inl hlt)
  case starting => exact fun hnotailer => by cases hnotailer

/-- A line is read. -/
theorem line {t : FileTailer} (h : Onward newest floor (.reading t) loop) (n : ℕ) (text : String) :
    Onward newest floor (.sending (t.advance n) text) loop := by
  have hunsaved : unsavedLines (.reading t) loop = loop.inFlight := List.append_nil _
  have hforward : t.position ≤ (t.advance n).position :=
    position_le rfl (Nat.le_add_right t.offset n)
  have hpast : ∀ m ∈ loop.inFlight, m.position ≤ (t.advance n).position := fun m hm =>
    (h.past t rfl m (hunsaved ▸ hm)).trans hforward
  constructor
  case offset => exact h.offset
  case source =>
    refine List.forall_mem_append.mpr ⟨fun m hm => h.source m (hunsaved ▸ hm), fun m hm => ?_⟩
    obtain rfl := List.mem_singleton.mp hm
    exact h.file t rfl
  case sorted =>
    refine List.pairwise_append.mpr ⟨hunsaved ▸ h.sorted, List.pairwise_singleton _ _, ?_⟩
    intro m hm m' hm'
    obtain rfl := List.mem_singleton.mp hm'
    exact hpast m hm
  case floored =>
    intro hpos
    refine List.forall_mem_append.mpr
      ⟨fun m hm => h.floored hpos m (List.mem_append_left _ hm), fun m hm => ?_⟩
    obtain rfl := List.mem_singleton.mp hm
    exact (h.above t rfl hpos).trans hforward
  case file =>
    rintro _ ⟨⟩
    exact h.file t rfl
  case above =>
    rintro _ ⟨⟩ hpos
    exact (h.above t rfl hpos).trans hforward
  case past =>
    rintro _ ⟨⟩
    refine List.forall_mem_append.mpr ⟨hpast, fun m hm => ?_⟩
    obtain rfl := List.mem_singleton.mp hm
    exact le_rfl
  case starting => exact fun hnotailer => by cases hnotailer

theorem next {path : AlertsPath} (h : Onward path.older.length floor reader loop)
    (hstart : sentMessages loop.log = [] → loop.inFlight = [] ∧ loop.currentOffset = start.offset)
    (hreopens : reader.Reopens path →
      floor = 0 ∧ ∀ m ∈ loop.inFlight, m.source ≠ path.older.length) :
    Onward path.older.length floor (reader.next start path) loop := by
  cases reader with
  | metadata why =>
      refine h.withReader rfl (fun t ht => ⟨t, ?_, rfl, le_rfl⟩) fun hnone _ => h.starting ?_ (by simp)
      · cases why <;> exact ht
      · cases why <;> first | rfl | cases hnone
  | opening why inode =>
      by_cases hlinked : path.linked
      · cases why with
        | start =>
            have hsent : sentMessages loop.log = [] := h.starting rfl (by simp)
            simp only [Reader.next, path.current_of_linked hlinked]
            split_ifs
            · exact h.withReader rfl (fun _ ht => by cases ht) fun _ _ => hsent
            · obtain ⟨hempty, hoffset⟩ := hstart hsent
              refine h.opened rfl (hoffset ▸ h.offset) fun m hm => ?_
              rw [hempty] at hm
              exact absurd hm List.not_mem_nil
        | startRotated | rotation old =>
            obtain ⟨hfloor, hnone⟩ := hreopens hlinked
            simp only [Reader.next, path.current_of_linked hlinked]
            exact h.opened rfl hfloor.le hnone
      · cases why with
        | start =>
            simp only [Reader.next, path.current_of_not_linked hlinked]
            exact h.withReader rfl (fun _ ht => by cases ht) fun _ _ => h.starting rfl (by simp)
        | startRotated =>
            simp only [Reader.next, path.current_of_not_linked hlinked]
            exact h.withReader rfl (fun _ ht => by cases ht) fun _ hne => absurd rfl hne
        | rotation old =>
            simp only [Reader.next, path.current_of_not_linked hlinked]
            exact h.withReader rfl (fun t ht => ⟨t, ht, rfl, le_rfl⟩) fun hnone => by cases hnone
  | reading t =>
      have hnext := Reader.readsTo_next start path t
      generalize (Reader.reading t).next start path = reader at hnext
      cases hnext with
      | eof hchunk =>
          exact h.withReader rfl (fun t ht => ⟨t, ht, rfl, le_rfl⟩) fun hnone => by cases hnone
      | invalid hchunk hdecode =>
          exact h.withReader rfl (fun _ ht => ⟨t, rfl, by cases ht; exact ⟨rfl, le_rfl⟩⟩)
            fun hnone => by cases hnone
      | unfinished text hchunk hdecode hends =>
          exact h.withReader rfl (fun _ ht => ⟨t, rfl, by cases ht; exact ⟨rfl, le_rfl⟩⟩)
            fun hnone => by cases hnone
      | blank text hdecode hends hblank =>
          refine h.withReader rfl (fun _ ht => ⟨t, rfl, ?_⟩) fun hnone => by cases hnone
          cases ht
          exact ⟨rfl, Nat.le_add_right _ _⟩
      | line text hdecode hends hblank => exact h.line _ text
  | sending t line => exact h
  | checking t =>
      have hsame : ∀ reader' : Reader, reader'.message = none → reader'.tailer = some t →
          Onward path.older.length floor reader' loop := fun reader' hmessage htailer =>
        h.withReader hmessage (fun _ ht => ⟨t, rfl, by rw [htailer] at ht; cases ht; exact ⟨rfl, le_rfl⟩⟩)
          fun hnone => by cases htailer.symm.trans hnone
      by_cases hlinked : path.linked
      · simp only [Reader.next, path.current_of_linked hlinked]
        split_ifs
        · exact hsame _ rfl rfl
        · exact hsame _ rfl rfl
      · simp only [Reader.next, path.current_of_not_linked hlinked]
        exact hsame _ rfl rfl
  | stopped => exact h

/-- A line in the channel is not below the floor. -/
theorem floor_le (h : Onward newest floor reader loop) {m : Message} (hm : m ∈ loop.channel) :
    floor ≤ m.offset := by
  rcases Nat.eq_zero_or_pos floor with rfl | hpos
  · exact Nat.zero_le _
  · have hsource : m.source ≤ newest :=
      h.source m (List.mem_append_left _ (List.mem_append_right _ hm))
    have hle := Prod.Lex.toLex_le_toLex.mp (h.floored hpos m (List.mem_append_left _ hm))
    simp only at hle
    omega

/-- The loop takes a line, or none. -/
theorem onLoop (h : Onward newest floor reader loop) {a : Action} {loop' : LoopState}
    (hstep : step ext cfg loop a = some loop') (hsend : ∀ m, a ≠ .send m)
    (hsave : ∀ inode, a ≠ .save inode true) : Onward newest floor reader loop' := by
  obtain ⟨hflight, hchannel, hoffset⟩ := inFlight_of_step hstep hsend hsave
  have hunsaved : unsavedLines reader loop' = unsavedLines reader loop :=
    congrArg (· ++ reader.message.toList) hflight
  constructor
  case offset =>
    rcases hoffset with hsame | ⟨m, hm, hnew⟩
    · exact hsame ▸ h.offset
    · exact hnew ▸ h.floor_le hm
  case source => exact hunsaved ▸ h.source
  case sorted => exact hunsaved ▸ h.sorted
  case floored =>
    intro hpos
    refine List.forall_mem_append.mpr ⟨fun m hm => ?_, fun m hm => ?_⟩
    · exact h.floored hpos m (List.mem_append_left _ (hchannel m hm))
    · exact h.floored hpos m (List.mem_append_right _ hm)
  case file => exact h.file
  case above => exact h.above
  case past => exact hunsaved ▸ h.past
  case starting =>
    rw [sentMessages_of_step hstep hsend]
    exact h.starting

/-- The line in `send` enters the channel. -/
theorem deliver (h : Onward newest floor reader loop) {m : Message} {loop' : LoopState}
    (hmessage : reader.message = some m) (hstep : step ext cfg loop (.send m) = some loop') :
    Onward newest floor reader.sent loop' := by
  cases reader with
  | sending t line =>
      have hm : m = ⟨t.offset, line, t.file⟩ := (Option.some.inj hmessage).symm
      cases moves_of_step ext cfg hstep with
      | send _ hopen hroom =>
          have htaken := (BacklogInv.sinceSave_quiet (e := .sent m) rfl rfl rfl loop.log).1
          have hunsaved : unsavedLines (.reading t) { loop with
              channel := loop.channel ++ [m]
              db := loop.db.record [.sent m] } = unsavedLines (.sending t line) loop := by
            show takenSince (loop.log ++ [.sent m]) ++ (loop.channel ++ [m]) ++ [] =
              takenSince loop.log ++ loop.channel ++ [⟨t.offset, line, t.file⟩]
            rw [htaken, hm, List.append_nil, List.append_assoc]
          constructor
          case offset => exact h.offset
          case source => exact hunsaved ▸ h.source
          case sorted => exact hunsaved ▸ h.sorted
          case floored => simpa [Reader.sent, Reader.message, hm] using h.floored
          case file => exact h.file
          case above => exact h.above
          case past => exact hunsaved ▸ h.past
          case starting => exact fun hnone => by cases hnone
  | _ => simp [Reader.message] at hmessage

/-- The position is persisted; what is still unsaved must not be below it. -/
theorem saved (h : Onward newest floor reader loop) {floor' : ℕ} {loop' : LoopState}
    (hstep : ∃ inode, step ext cfg loop (.save inode true) = some loop')
    (hfloor : floor' ≤ loop.currentOffset)
    (hfloored : 0 < floor' → ∀ m ∈ loop.channel ++ reader.message.toList,
      toLex (newest, floor') ≤ m.position)
    (habove : 0 < floor' → ∀ t, reader.tailer = some t → toLex (newest, floor') ≤ t.position) :
    Onward newest floor' reader loop' := by
  obtain ⟨inode, hstep⟩ := hstep
  have hsent : sentMessages loop'.log = sentMessages loop.log :=
    sentMessages_of_step hstep fun _ heq => by cases heq
  cases moves_of_step ext cfg hstep with
  | save _ _ final hpc =>
      have hunsaved : unsavedLines reader { loop with
          db := loop.db.record [.saved ⟨inode, loop.currentOffset⟩ true]
          pc := if final then .exited else .selecting } =
          loop.channel ++ reader.message.toList := by
        show takenSince (loop.log ++ [.saved ⟨inode, loop.currentOffset⟩ true]) ++ loop.channel ++
          reader.message.toList = _
        rw [takenSince, sinceSave_save]
        rfl
      have hfewer : unsavedLines reader loop =
          takenSince loop.log ++ (loop.channel ++ reader.message.toList) :=
        List.append_assoc _ _ _
      have hmem : ∀ m ∈ loop.channel ++ reader.message.toList, m ∈ unsavedLines reader loop :=
        fun m hm => hfewer ▸ List.mem_append_right _ hm
      constructor
      case offset => exact hfloor
      case source => exact fun m hm => h.source m (hmem m (hunsaved ▸ hm))
      case sorted => exact hunsaved ▸ (List.pairwise_append.mp (hfewer ▸ h.sorted)).2.1
      case floored => exact hfloored
      case file => exact h.file
      case above => exact fun t ht hpos => habove hpos t ht
      case past => exact fun t ht m hm => h.past t ht m (hmem m (hunsaved ▸ hm))
      case starting => exact hsent ▸ h.starting

/-- After a save of a line of the newest file: the lines behind it are further on. -/
theorem savedLine (h : Onward newest floor reader loop) {loop' : LoopState}
    (hstep : ∃ inode, step ext cfg loop (.save inode true) = some loop') {m : Message}
    (hm : m ∈ takenSince loop.log) (hsource : m.source = newest)
    (hoffset : loop.currentOffset = m.offset) :
    Onward newest loop.currentOffset reader loop' := by
  have hposition : toLex (newest, loop.currentOffset) = m.position := by
    rw [hoffset, ← hsource]
    rfl
  have hsplit : unsavedLines reader loop =
      takenSince loop.log ++ (loop.channel ++ reader.message.toList) := List.append_assoc _ _ _
  refine h.saved hstep le_rfl (fun _ m' hm' => ?_) fun _ t ht => ?_
  · rw [hposition]
    exact (List.pairwise_append.mp (hsplit ▸ h.sorted)).2.2 m hm m' hm'
  · rw [hposition]
    exact h.past t ht m (hsplit ▸ List.mem_append_left _ hm)

end Onward

/-! ## Why there is something to save -/

/-- A flush other than the last one follows a line taken since the last save. -/
structure Owing (loop : LoopState) : Prop where
  pending : 0 < loop.pending → takenSince loop.log ≠ []
  flushing : loop.pc = .flushing false ∨ loop.pc = .saving false → takenSince loop.log ≠ []
  saving : (∃ final, loop.pc = .saving final) → loop.pending = 0

theorem owing_initial (mappings : CustomMappings) (startOffset : ℕ) :
    Owing (.initial mappings startOffset) where
  pending h := absurd h (Nat.lt_irrefl 0)
  flushing h := by simp [LoopState.initial] at h
  saving _ := rfl

namespace Owing

variable {loop loop' : LoopState}

theorem recv (s : LoopState) (hpc : s.pc = .selecting) (r : Reception) (rest : List Message) :
    Owing (bufferRow cfg
      { s with
        channel := rest
        currentOffset := r.message.offset
        db := s.db.record [.received r] } r.row) := by
  have htaken : takenSince (bufferRow cfg
      { s with
        channel := rest
        currentOffset := r.message.offset
        db := s.db.record [.received r] } r.row).log ≠ [] := by
    rw [log_bufferRow_received s r rest, takenSince_received]
    simp
  refine ⟨fun _ => htaken, fun _ => htaken, ?_⟩
  rintro ⟨final, hsaving⟩
  refine absurd hsaving (bufferRow_not_saving _ r.row ?_ final)
  exact hpc

theorem step {a : Action} (h : Owing loop) (hstep : WazuhOcsf.step ext cfg loop a = some loop') :
    Owing loop' := by
  cases moves_of_step ext cfg hstep with
  | send m hopen hroom =>
      have htaken := (BacklogInv.sinceSave_quiet (e := .sent m) rfl rfl rfl loop.log).1
      exact ⟨fun hpos => htaken ▸ h.pending hpos, fun hpc => htaken ▸ h.flushing hpc, h.saving⟩
  | recv env m rest hpc hchannel => exact recv loop hpc (receive ext cfg env loop m) rest
  | recvClosed env hpc hchannel hclosed => exact ⟨h.pending, by simp, by simp⟩
  | tickFlush hpc hpending => exact ⟨h.pending, fun _ => h.pending hpending, by simp⟩
  | flush env final hpc =>
      have htaken := takenSince_of_flush hstep
      have hpending : ((((loop.db.registerColumns env loop.mappings).flushAll env
          (env.columnOrder.arrange (loop.db.registerColumns env loop.mappings).knownCustomCols)
          loop.batches).1).entries.map fun bucket => bucket.2.length).sum = 0 := by
        rw [entries_flushAll]
        rfl
      refine ⟨fun hpos => absurd hpos (by rw [LoopState.pending, hpending]; exact Nat.lt_irrefl 0),
        fun hafter => ?_, fun _ => hpending⟩
      have hfinal : final = false := by simpa using hafter
      exact htaken ▸ h.flushing (.inl (hfinal ▸ hpc))
  | save inode ok final hpc =>
      have hempty := h.saving ⟨final, hpc⟩
      refine ⟨fun hpos => absurd hempty hpos.ne', fun hafter => ?_, fun _ => hempty⟩
      cases final <;> simp at hafter
  | _ => exact ⟨h.pending, h.flushing, h.saving⟩

end Owing

/-- The offset of the loop is that of the last line taken. -/
theorem exists_taken {startOffset : ℕ} {loop : LoopState} (h : LoopInv ext cfg startOffset loop)
    (htaken : takenSince loop.log ≠ []) :
    ∃ m ∈ takenSince loop.log, (receivedMessages loop.log).getLast? = some m ∧
      loop.currentOffset = m.offset := by
  obtain ⟨before, hbefore⟩ := takenSince_suffix loop.log
  have hlast : (receivedMessages loop.log).getLast? =
      some ((takenSince loop.log).getLast htaken) := by
    rw [← hbefore, List.getLast?_append_of_ne_nil _ htaken, List.getLast?_eq_some_getLast htaken]
  refine ⟨_, List.getLast_mem htaken, hlast, ?_⟩
  rw [h.offset, hlast]
  rfl

/-- Before anything was sent there is nothing to save but the start position. -/
theorem inFlight_of_nothing_sent {startOffset : ℕ} {loop : LoopState}
    (h : LoopInv ext cfg startOffset loop) (hsent : sentMessages loop.log = []) :
    loop.inFlight = [] ∧ loop.currentOffset = startOffset := by
  have hchannel := h.channel
  rw [hsent, List.append_eq_nil_iff] at hchannel
  have htaken := takenSince_suffix loop.log
  rw [hchannel.1, List.suffix_nil] at htaken
  constructor
  · rw [LoopState.inFlight, htaken, hchannel.2, List.append_nil]
  · rw [h.offset, hchannel.1]
    rfl

/-! ## Histories -/

/-- A persisted state is not behind the one that stands. -/
def Advances (before : List Record) : Record → Prop
  | .persisted state => ∀ earlier, standing before = some earlier →
      earlier.inode = state.inode → state.inode ≠ 0 → earlier.offset ≤ state.offset
  | .truncated _ => True

/-- The file is found to be as long as the position, so `main` does not start at 0. -/
def Stage.FindsPosition (floor : ℕ) : Stage → Prop
  | sized saved fileSize => 0 < floor → saved.offset ≤ fileSize
  | _ => True

instance (floor : ℕ) : DecidablePred (Stage.FindsPosition floor)
  | .sized saved fileSize => inferInstanceAs (Decidable (0 < floor → saved.offset ≤ fileSize))
  | .loaded _ | .resolved _ _ _ | .running _ _ _ => .isTrue trivial

/-- The reader opens a file from byte 0 only when no position of it stands and no line of it
is unsaved. -/
def Stage.ReopensUnread (path : AlertsPath) (floor : ℕ) : Stage → Prop
  | running _ reader loop => reader.Reopens path →
      floor = 0 ∧ ∀ m ∈ loop.inFlight, m.source ≠ path.older.length
  | _ => True

instance (path : AlertsPath) (floor : ℕ) : DecidablePred (Stage.ReopensUnread path floor)
  | .running _ reader loop => inferInstanceAs (Decidable (reader.Reopens path →
      floor = 0 ∧ ∀ m ∈ loop.inFlight, m.source ≠ path.older.length))
  | .loaded _ | .sized _ _ | .resolved _ _ _ => .isTrue trivial

/-- In file mode a save that is not the last one is about a line of the file at the path; a
ZeroMQ run that has taken a line saves over no position. -/
def Process.SavesPosition (path : AlertsPath) (floor : ℕ) : Process → Prop
  | ⟨.file, _, .running _ _ loop⟩ => loop.pc = .saving false → path.linked →
      ∀ m ∈ (receivedMessages loop.log).getLast?, m.source = path.older.length
  | ⟨.zeroMq, _, .running _ _ loop⟩ => receivedMessages loop.log ≠ [] → floor = 0
  | _ => True

instance (path : AlertsPath) (floor : ℕ) : DecidablePred (Process.SavesPosition path floor)
  | ⟨.file, _, .running _ _ loop⟩ =>
      inferInstanceAs (Decidable (loop.pc = .saving false → path.linked →
        ∀ m ∈ (receivedMessages loop.log).getLast?, m.source = path.older.length))
  | ⟨.zeroMq, _, .running _ _ loop⟩ =>
      inferInstanceAs (Decidable (receivedMessages loop.log ≠ [] → floor = 0))
  | ⟨.file, _, .loaded _⟩ | ⟨.file, _, .sized _ _⟩ | ⟨.file, _, .resolved _ _ _⟩
  | ⟨.zeroMq, _, .loaded _⟩ | ⟨.zeroMq, _, .sized _ _⟩ | ⟨.zeroMq, _, .resolved _ _ _⟩ =>
      .isTrue trivial

/-- Nothing goes back to byte 0 of a file whose position stands. -/
def KeepsPosition (h : History) : History.Action → Prop
  | .lookInode => ∀ p ∈ h.process, p.stage.FindsPosition (floor h.path h.log)
  | .run .read => ∀ p ∈ h.process, p.stage.ReopensUnread h.path (floor h.path h.log)
  | .save true => ∀ p ∈ h.process, p.SavesPosition h.path (floor h.path h.log)
  | _ => True

instance (h : History) : DecidablePred (KeepsPosition h)
  | .lookInode =>
      inferInstanceAs (Decidable (∀ p ∈ h.process, p.stage.FindsPosition (floor h.path h.log)))
  | .run .read => inferInstanceAs
      (Decidable (∀ p ∈ h.process, p.stage.ReopensUnread h.path (floor h.path h.log)))
  | .save true =>
      inferInstanceAs (Decidable (∀ p ∈ h.process, p.SavesPosition h.path (floor h.path h.log)))
  | .run (.write _) | .run .deliver | .run (.reload _) | .run (.recv _) | .run .tick
  | .run .shutdown | .run (.flush _) | .run (.save _) | .save false | .write _ | .truncate _
  | .launch _ _ | .lookSize | .enter _ _ | .receive _ | .crash => .isTrue trivial

/-- What the state file holds is the state that stands. -/
structure StoredInv (h : History) : Prop where
  known : ∀ state, standing h.log = some state → Known h.path state.inode
  stored : ∀ state, standing h.log = some state →
    h.stateFile = some (StateStore.render state) ∧ state.Fits

theorem StoredInv.load {h : History} (hstored : StoredInv h) {state : TailState}
    (hstanding : standing h.log = some state) : StateStore.load h.stateFile = state := by
  obtain ⟨hfile, hfits⟩ := hstored.stored state hstanding
  rw [hfile, StateStore.load_render hfits]

/-- What a running process keeps: it never falls behind what was persisted before it. -/
structure RunningInv (ext : Externals) (path : AlertsPath) (log : List Record) (mode : InputMode)
    (cfg : AppConfig) (start : TailState) (reader : Reader) (loop : LoopState) : Prop where
  loopInv : LoopInv ext cfg start.offset loop
  owing : Owing loop
  file : mode = .file → loop.pc ≠ .exited → Onward path.older.length (floor path log) reader loop
  zeroMq : mode = .zeroMq → receivedMessages loop.log = [] → floor path log ≤ loop.currentOffset

/-- What a process knows of the state that stands. -/
def ProcessInv (ext : Externals) (h : History) : Process → Prop
  | ⟨_, _, .loaded saved⟩ | ⟨_, _, .sized saved _⟩ => saved = StateStore.load h.stateFile
  | ⟨_, _, .resolved saved _ start⟩ =>
      saved = StateStore.load h.stateFile ∧ floor h.path h.log ≤ start.offset ∧
        Known h.path start.inode ∧ start.Fits
  | ⟨mode, cfg, .running start reader loop⟩ =>
      RunningInv ext h.path h.log mode cfg start reader loop

/-- What a history keeps: the state file is what was persisted last, and that never goes back. -/
structure HistoryInv (ext : Externals) (h : History) : Prop where
  stored : StoredInv h
  advances : Guarded Advances h.log
  process : ∀ p, h.process = some p → ProcessInv ext h p

theorem historyInv_initial (path : AlertsPath) (stateFile : Option String) :
    HistoryInv ext (.initial path stateFile) where
  stored := by constructor <;> exact fun _ hstanding => nomatch hstanding
  advances := guarded_nil
  process _ hp := nomatch hp

/-! ### The file system -/

namespace RunningInv

variable {path path' : AlertsPath} {log log' : List Record} {mode : InputMode} {reader : Reader}
  {loop : LoopState}

theorem mono (h : RunningInv ext path log mode cfg start reader loop)
    (hnewest : path.older.length ≤ path'.older.length) (hfloor : floor path' log' ≤ floor path log)
    (hsame : 0 < floor path' log' → path'.older.length = path.older.length) :
    RunningInv ext path' log' mode cfg start reader loop where
  loopInv := h.loopInv
  owing := h.owing
  file hmode hpc := (h.file hmode hpc).mono hnewest hfloor hsame
  zeroMq hmode hreceived := hfloor.trans (h.zeroMq hmode hreceived)

end RunningInv

theorem ProcessInv.mono {h h' : History} {p : Process} (hp : ProcessInv ext h p)
    (hfile : h'.stateFile = h.stateFile) (hnewest : h.path.older.length ≤ h'.path.older.length)
    (hfloor : floor h'.path h'.log ≤ floor h.path h.log)
    (hsame : 0 < floor h'.path h'.log → h'.path.older.length = h.path.older.length)
    (hknown : ∀ inode, Known h.path inode → Known h'.path inode) : ProcessInv ext h' p := by
  obtain ⟨mode, cfg, stage⟩ := p
  cases stage with
  | loaded saved | sized saved fileSize => exact hp.trans (congrArg _ hfile.symm)
  | resolved saved fileSize start =>
      obtain ⟨hsaved, hstart, hinode, hfits⟩ := hp
      exact ⟨hsaved.trans (congrArg _ hfile.symm), hfloor.trans hstart, hknown _ hinode, hfits⟩
  | running start reader loop => exact RunningInv.mono hp hnewest hfloor hsame

theorem floor_truncate (path : AlertsPath) (log : List Record) (size : ℕ) :
    floor (path.truncate size) (log ++ [.truncated path.newest.inode]) = 0 := by
  by_contra hpos
  obtain ⟨state, hstanding, hcurrent, -⟩ := floor_pos (Nat.pos_of_ne_zero hpos)
  rw [standing_truncated, Option.filter_eq_some_iff] at hstanding
  have hne : state.inode ≠ path.newest.inode := by simpa using hstanding.2
  refine hne ?_
  by_cases hlinked : path.linked
  · have heq : path.newest.inode = state.inode := by
      simpa [AlertsPath.current, AlertsPath.truncate, hlinked] using hcurrent
    exact heq.symm
  · simp [AlertsPath.current, AlertsPath.truncate, hlinked] at hcurrent

theorem Known.truncate {path : AlertsPath} {inode : ℕ} (h : Known path inode) (size : ℕ) :
    Known (path.truncate size) inode := by
  simpa [Known, AlertsPath.files, AlertsPath.truncate] using h

namespace HistoryInv

variable {h h' : History}

theorem write (hinv : HistoryInv ext h) {op : Write} {path : AlertsPath}
    (hwrite : h.path.write op = some path) : HistoryInv ext { h with path := path } := by
  obtain ⟨hfloor, hsame⟩ := floor_write hinv.stored.known hwrite
  have hext := AlertsPath.extends_of_write hwrite
  constructor
  case stored =>
    exact ⟨fun state hstanding => (hinv.stored.known state hstanding).write hwrite, hinv.stored.stored⟩
  case advances => exact hinv.advances
  case process =>
    exact fun p hp => (hinv.process p hp).mono rfl hext.length_le hfloor hsame fun _ hknown =>
      hknown.write hwrite

theorem truncate (hinv : HistoryInv ext h) (size : ℕ) :
    HistoryInv ext { h with
      path := h.path.truncate size
      log := h.log ++ [.truncated h.path.newest.inode] } := by
  have hfloor := floor_truncate h.path h.log size
  have hstill : ∀ state, standing (h.log ++ [.truncated h.path.newest.inode]) = some state →
      standing h.log = some state := by
    intro state hstanding
    rw [standing_truncated, Option.filter_eq_some_iff] at hstanding
    exact hstanding.1
  constructor
  case stored =>
    exact ⟨fun state hstanding => (hinv.stored.known state (hstill state hstanding)).truncate size,
      fun state hstanding => hinv.stored.stored state (hstill state hstanding)⟩
  case advances => exact guarded_concat.mpr ⟨hinv.advances, trivial⟩
  case process =>
    exact fun p hp => (hinv.process p hp).mono rfl le_rfl (hfloor ▸ Nat.zero_le _)
      (fun hpos => absurd hpos (hfloor ▸ Nat.lt_irrefl 0)) fun _ hknown => hknown.truncate size

/-- The process alone goes on. -/
theorem withProcess (hinv : HistoryInv ext h) {process : Option Process}
    (hprocess : ∀ p, process = some p → ProcessInv ext h p) :
    HistoryInv ext { h with process := process } where
  stored := ⟨hinv.stored.known, hinv.stored.stored⟩
  advances := hinv.advances
  process p hp := by
    have hp' := hprocess p hp
    exact hp'.mono rfl le_rfl le_rfl (fun _ => rfl) fun _ hknown => hknown

/-! ### The start -/

/-- A start does not resolve to less than the standing position. -/
theorem floor_le_resolveStart (hinv : HistoryInv ext h) {saved : TailState} {fileSize : ℕ}
    (hsaved : saved = StateStore.load h.stateFile) (seek : Bool)
    (hkeeps : 0 < floor h.path h.log → saved.offset ≤ fileSize) :
    floor h.path h.log ≤ (resolveStart seek saved fileSize h.path.currentInode).offset := by
  rcases Nat.eq_zero_or_pos (floor h.path h.log) with hzero | hpos
  · exact hzero ▸ Nat.zero_le _
  · obtain ⟨state, hstanding, -, hfloor⟩ := floor_pos hpos
    have hoffset : saved.offset = floor h.path h.log := by
      rw [hsaved, hinv.stored.load hstanding, hfloor]
    have hlater : ¬ saved.IsFirstRun := fun hfirst => by
      have hzero := hfirst.1
      omega
    rw [resolveStart_resume hlater (hkeeps hpos), hoffset]

theorem lookInode (hinv : HistoryInv ext h) {mode : InputMode} {saved start : TailState}
    {fileSize : ℕ} (hprocess : h.process = some ⟨mode, cfg, .sized saved fileSize⟩)
    (hstart : start = resolveStart cfg.seekToEndOnFirstRun saved fileSize h.path.currentInode)
    (hfits : start.Fits) (hkeeps : KeepsPosition h .lookInode) :
    HistoryInv ext { h with process := some ⟨mode, cfg, .resolved saved fileSize start⟩ } := by
  have hsaved : saved = StateStore.load h.stateFile := hinv.process _ hprocess
  have hlong : 0 < floor h.path h.log → saved.offset ≤ fileSize := hkeeps _ hprocess
  refine hinv.withProcess fun p hp => ?_
  cases hp
  refine ⟨hsaved, ?_, ?_, hfits⟩
  · rw [hstart]
    exact hinv.floor_le_resolveStart hsaved _ hlong
  · rw [hstart]
    exact known_currentInode h.path

theorem runningInv_initial {path : AlertsPath} {log : List Record} (mode : InputMode)
    (mappings : CustomMappings) (hfloor : floor path log ≤ start.offset) :
    RunningInv ext path log mode cfg start mode.reader (.initial mappings start.offset) where
  loopInv := loopInv_initial mappings start.offset
  owing := owing_initial mappings start.offset
  file hmode _ := by
    subst hmode
    exact .initial path.older.length mappings hfloor
  zeroMq _ _ := hfloor

theorem enter (hinv : HistoryInv ext h) {mode : InputMode} {saved start : TailState} {fileSize : ℕ}
    (hprocess : h.process = some ⟨mode, cfg, .resolved saved fileSize start⟩)
    (mappings : CustomMappings) : HistoryInv ext { h with
      process := some ⟨mode, cfg, .running start mode.reader (.initial mappings start.offset)⟩ } := by
  obtain ⟨-, hfloor, -, -⟩ := hinv.process _ hprocess
  refine hinv.withProcess fun p hp => ?_
  cases hp
  exact runningInv_initial mode mappings hfloor

/-- A state is persisted. -/
theorem persist (hinv : HistoryInv ext h) {state : TailState} {p : Process}
    (hknown : Known h.path state.inode) (hfits : state.Fits)
    (hadvances : Advances h.log (.persisted state))
    (hprocess : ProcessInv ext
      { h with stateFile := some (StateStore.render state), log := h.log ++ [.persisted state] } p) :
    HistoryInv ext { h with
      stateFile := some (StateStore.render state)
      process := some p
      log := h.log ++ [.persisted state] } := by
  have hlast : ∀ later, standing (h.log ++ [.persisted state]) = some later → later = state :=
    fun later hlater => (Option.some.inj ((standing_persisted _ _).symm.trans hlater)).symm
  constructor
  case stored =>
    refine ⟨fun later hlater => ?_, fun later hlater => ?_⟩
    · exact hlast later hlater ▸ hknown
    · rw [hlast later hlater]
      exact ⟨rfl, hfits⟩
  case advances => exact guarded_concat.mpr ⟨hinv.advances, hadvances⟩
  case process =>
    rintro _ ⟨⟩
    exact hprocess.mono rfl le_rfl le_rfl (fun _ => rfl) fun _ hknown => hknown

theorem enterSaving (hinv : HistoryInv ext h) {mode : InputMode} {saved start : TailState}
    {fileSize : ℕ} (hprocess : h.process = some ⟨mode, cfg, .resolved saved fileSize start⟩)
    (mappings : CustomMappings) (hfirst : saved.IsFirstRun) : HistoryInv ext { h with
      stateFile := some (StateStore.render start)
      process := some ⟨mode, cfg, .running start mode.reader (.initial mappings start.offset)⟩
      log := h.log ++ [.persisted start] } := by
  obtain ⟨hsaved, hfloor, hknown, hfits⟩ := hinv.process _ hprocess
  refine hinv.persist hknown hfits (fun earlier hearlier _ _ => ?_) ?_
  · -- a first start has found no position, so the one that stands is 0
    rw [hsaved, hinv.stored.load hearlier] at hfirst
    exact hfirst.1 ▸ Nat.zero_le _
  · exact runningInv_initial mode mappings (floor_persisted_le _ _ _)

end HistoryInv

/-! ### A running process -/

/-- A loop that has ended does not begin again. -/
theorem exited_of_step {loop loop' : LoopState} {a : Action}
    (hstep : step ext cfg loop a = some loop') (hpc : loop.pc = .exited) : loop'.pc = .exited := by
  cases moves_of_step ext cfg hstep with
  | recv env m rest hselecting hchannel => exact nomatch hpc.symm.trans hselecting
  | recvClosed env hselecting hchannel hclosed => exact nomatch hpc.symm.trans hselecting
  | tickFlush hselecting hpending => exact nomatch hpc.symm.trans hselecting
  | flush env final hflushing => exact nomatch hpc.symm.trans hflushing
  | save inode ok final hsaving => exact nomatch hpc.symm.trans hsaving
  | _ => exact hpc

namespace RunningInv

variable {path : AlertsPath} {log : List Record} {mode : InputMode} {reader : Reader}
  {loop loop' : LoopState}

/-- As long as nothing was received the offset is the one of the start. -/
theorem floor_le_of_step (h : RunningInv ext path log mode cfg start reader loop) {a : Action}
    (hstep : step ext cfg loop a = some loop') (hmode : mode = .zeroMq)
    (hreceived : receivedMessages loop'.log = []) : floor path log ≤ loop'.currentOffset := by
  have hbefore : receivedMessages loop.log = [] := by
    have hpre := (log_prefix_of_step hstep).filterMap Event.receivedMessage
    exact List.prefix_nil.mp (hreceived ▸ hpre)
  have hsame : loop'.currentOffset = loop.currentOffset := by
    rw [(h.loopInv.step hstep).offset, h.loopInv.offset, hreceived, hbefore]
  exact hsame ▸ h.zeroMq hmode hbefore

/-- A step of the loop that neither sends nor persists. -/
theorem onLoop (h : RunningInv ext path log mode cfg start reader loop) {a : Action}
    (hstep : step ext cfg loop a = some loop') (hsend : ∀ m, a ≠ .send m)
    (hsave : ∀ inode, a ≠ .save inode true) :
    RunningInv ext path log mode cfg start reader loop' where
  loopInv := h.loopInv.step hstep
  owing := h.owing.step hstep
  file hmode hpc :=
    (h.file hmode fun hexited => hpc (exited_of_step hstep hexited)).onLoop hstep hsend hsave
  zeroMq hmode hreceived := h.floor_le_of_step hstep hmode hreceived

/-- Another reader in file mode. -/
theorem withReader (h : RunningInv ext path log .file cfg start reader loop) {reader' : Reader}
    (hreader : Onward path.older.length (floor path log) reader loop →
      Onward path.older.length (floor path log) reader' loop) :
    RunningInv ext path log .file cfg start reader' loop where
  loopInv := h.loopInv
  owing := h.owing
  file hmode hpc := hreader (h.file hmode hpc)
  zeroMq hmode := nomatch hmode

theorem next (h : RunningInv ext path log .file cfg start reader loop)
    (hreopens : reader.Reopens path →
      floor path log = 0 ∧ ∀ m ∈ loop.inFlight, m.source ≠ path.older.length) :
    RunningInv ext path log .file cfg start (reader.next start path) loop :=
  h.withReader fun honward =>
    honward.next (fun hsent => inFlight_of_nothing_sent h.loopInv hsent) hreopens

theorem stopped (h : RunningInv ext path log .file cfg start reader loop) :
    RunningInv ext path log .file cfg start .stopped loop :=
  h.withReader fun honward =>
    honward.withReader rfl (fun _ ht => nomatch ht) fun _ hne => absurd rfl hne

theorem deliver (h : RunningInv ext path log .file cfg start reader loop) {m : Message}
    (hmessage : reader.message = some m) (hstep : step ext cfg loop (.send m) = some loop') :
    RunningInv ext path log .file cfg start reader.sent loop' where
  loopInv := h.loopInv.step hstep
  owing := h.owing.step hstep
  file hmode hpc :=
    (h.file hmode fun hexited => hpc (exited_of_step hstep hexited)).deliver hmessage hstep
  zeroMq hmode := nomatch hmode

/-- What a running process does besides saving. -/
theorem run (h : RunningInv ext path log mode cfg start reader loop) {a : System.Action}
    {s : System} (hruns : History.Runs mode a)
    (hstep : System.step ext cfg start ⟨path, reader, loop⟩ a = some s)
    (hreopens : a = .read → reader.Reopens path →
      floor path log = 0 ∧ ∀ m ∈ loop.inFlight, m.source ≠ path.older.length) :
    RunningInv ext path log mode cfg start s.reader s.loop := by
  cases System.moves_of_step ext cfg start hstep with
  | write hwrite => cases hruns
  | save hloop => cases hruns
  | loop ha hloop =>
      refine h.onLoop hloop (fun m heq => ?_) fun inode heq => ?_
      · cases ha <;> cases heq
      · cases ha <;> cases heq
  | read =>
      cases mode with
      | zeroMq => cases hruns
      | file => exact h.next (hreopens rfl)
  | readLast hloop =>
      cases mode with
      | zeroMq => cases hruns
      | file =>
          exact (h.next (hreopens rfl)).onLoop hloop (fun _ heq => nomatch heq)
            fun _ heq => nomatch heq
  | deliver hmessage hloop =>
      cases mode with
      | zeroMq => cases hruns
      | file => exact h.deliver hmessage hloop
  | deliverClosed hloop =>
      cases mode with
      | zeroMq => cases hruns
      | file => exact h.stopped.onLoop hloop (fun _ heq => nomatch heq) fun _ heq => nomatch heq

/-- The subscriber sends a line or ends. -/
theorem receive (h : RunningInv ext path log .zeroMq cfg start reader loop) {a : Action}
    (hstep : step ext cfg loop a = some loop') :
    RunningInv ext path log .zeroMq cfg start reader loop' where
  loopInv := h.loopInv.step hstep
  owing := h.owing.step hstep
  file hmode := nomatch hmode
  zeroMq hmode hreceived := h.floor_le_of_step hstep hmode hreceived

/-! ### A save -/

/-- The offset of the loop is not behind the position that stands. -/
theorem floor_le_currentOffset (h : RunningInv ext path log mode cfg start reader loop)
    (hpc : loop.pc ≠ .exited)
    (hzeroMq : mode = .zeroMq → receivedMessages loop.log ≠ [] → floor path log = 0) :
    floor path log ≤ loop.currentOffset := by
  cases mode with
  | file => exact (h.file rfl hpc).offset
  | zeroMq =>
      by_cases hreceived : receivedMessages loop.log = []
      · exact h.zeroMq rfl hreceived
      · exact hzeroMq rfl hreceived ▸ Nat.zero_le _

theorem save (h : RunningInv ext path log mode cfg start reader loop)
    (hstep : step ext cfg loop (.save path.currentInode true) = some loop')
    (hsource : mode = .file → loop.pc = .saving false → path.linked →
      ∀ m ∈ (receivedMessages loop.log).getLast?, m.source = path.older.length) :
    RunningInv ext path (log ++ [.persisted ⟨path.currentInode, loop.currentOffset⟩]) mode cfg
      start reader loop' := by
  have hoffset : loop'.currentOffset = loop.currentOffset := by
    cases moves_of_step ext cfg hstep with
    | save _ _ final hpc => rfl
  constructor
  case loopInv => exact h.loopInv.step hstep
  case owing => exact h.owing.step hstep
  case zeroMq => exact fun _ _ => hoffset ▸ floor_persisted_le _ _ _
  case file =>
    intro hmode hpc
    have hsaving : loop.pc = .saving false := by
      cases moves_of_step ext cfg hstep with
      | save _ _ final hsaving =>
          cases final with
          | false => exact hsaving
          | true => simp at hpc
    have honward := h.file hmode (by rw [hsaving]; simp)
    by_cases hlinked : path.linked
    · obtain ⟨m, hm, hlast, hcurrent⟩ := exists_taken h.loopInv (h.owing.flushing (.inr hsaving))
      have hfloor : floor path (log ++ [.persisted ⟨path.currentInode, loop.currentOffset⟩]) =
          loop.currentOffset := by
        refine floor_eq (standing_persisted _ _) ?_
        simp [AlertsPath.currentInode, path.current_of_linked hlinked]
      rw [hfloor]
      exact honward.savedLine ⟨_, hstep⟩ hm (hsource hmode hsaving hlinked m hlast) hcurrent
    · rw [floor_of_not_linked hlinked]
      exact honward.saved ⟨_, hstep⟩ (Nat.zero_le _) (fun hpos => absurd hpos (Nat.lt_irrefl 0))
        fun hpos => absurd hpos (Nat.lt_irrefl 0)

end RunningInv

namespace HistoryInv

variable {h h' : History}

theorem save (hinv : HistoryInv ext h) {mode : InputMode} {reader : Reader} {loop loop' : LoopState}
    (hprocess : h.process = some ⟨mode, cfg, .running start reader loop⟩)
    (hfits : TailState.Fits ⟨h.path.currentInode, loop.currentOffset⟩)
    (hstep : WazuhOcsf.step ext cfg loop (.save h.path.currentInode true) = some loop')
    (hkeeps : KeepsPosition h (.save true)) : HistoryInv ext { h with
      stateFile := some (StateStore.render ⟨h.path.currentInode, loop.currentOffset⟩)
      process := some ⟨mode, cfg, .running start reader loop'⟩
      log := h.log ++ [.persisted ⟨h.path.currentInode, loop.currentOffset⟩] } := by
  have hrunning : RunningInv ext h.path h.log mode cfg start reader loop := hinv.process _ hprocess
  have hfile : mode = .file → loop.pc = .saving false → h.path.linked →
      ∀ m ∈ (receivedMessages loop.log).getLast?, m.source = h.path.older.length := by
    rintro rfl
    exact hkeeps _ hprocess
  have hzeroMq : mode = .zeroMq → receivedMessages loop.log ≠ [] → floor h.path h.log = 0 := by
    rintro rfl
    exact hkeeps _ hprocess
  have hpc : loop.pc ≠ .exited := by
    obtain ⟨final, hsaving⟩ := (log_of_save hstep).1
    simp [hsaving]
  refine hinv.persist (known_currentInode _) hfits (fun earlier hearlier hinode hne => ?_)
    (hrunning.save hstep hfile)
  -- the path names the file of the standing state, which is then the floor
  have hcurrent : h.path.current.map AlertsFile.inode = some earlier.inode := by
    by_cases hlinked : h.path.linked
    · rw [hinode]
      simp [AlertsPath.currentInode, h.path.current_of_linked hlinked]
    · exact absurd (by simp [AlertsPath.currentInode, h.path.current_of_not_linked hlinked]) hne
  rw [← floor_eq hearlier hcurrent]
  exact hrunning.floor_le_currentOffset hpc hzeroMq

theorem step {a : History.Action} (hinv : HistoryInv ext h) (hkeeps : KeepsPosition h a)
    (hstep : h.step ext a = some h') : HistoryInv ext h' := by
  cases History.moves_of_step ext hstep with
  | write hwrite => exact hinv.write hwrite
  | truncate hlinked => exact hinv.truncate _
  | launch hprocess =>
      refine hinv.withProcess fun p hp => ?_
      cases hp
      rfl
  | lookSize hprocess =>
      have hsaved := hinv.process _ hprocess
      refine hinv.withProcess fun p hp => ?_
      cases hp
      exact hsaved
  | lookInode hprocess hstart hfits => exact hinv.lookInode hprocess hstart hfits hkeeps
  | enter hprocess hearly => exact hinv.enter hprocess _
  | enterSaving hprocess hfirst hpos => exact hinv.enterSaving hprocess _ hfirst
  | run hprocess hruns hs =>
      refine hinv.withProcess fun p hp => ?_
      cases hp
      refine RunningInv.run (hinv.process _ hprocess) hruns hs ?_
      rintro rfl
      exact hkeeps _ hprocess
  | receiveBlank => exact hinv
  | receive hprocess ha hloop =>
      refine hinv.withProcess fun p hp => ?_
      cases hp
      exact RunningInv.receive (hinv.process _ hprocess) hloop
  | saveFailed hprocess hloop =>
      refine hinv.withProcess fun p hp => ?_
      cases hp
      exact RunningInv.onLoop (hinv.process _ hprocess) hloop (fun _ heq => nomatch heq)
        fun _ heq => nomatch heq
  | save hprocess hfits hloop => exact hinv.save hprocess hfits hloop hkeeps
  | crash => exact hinv.withProcess fun _ hp => nomatch hp

end HistoryInv

/-- Two persisted states one after the other, with the same inode and no truncation of
that file in between: the second offset is not smaller. -/
def NeverBack (log : List Record) : Prop :=
  ∀ before earlier between later after,
    log = before ++ [.persisted earlier] ++ between ++ [.persisted later] ++ after →
    (∀ r ∈ between, ∃ inode, r = .truncated inode ∧ inode ≠ earlier.inode) →
    earlier.inode = later.inode → later.inode ≠ 0 → earlier.offset ≤ later.offset

theorem neverBack_of_guarded {log : List Record} (h : Guarded Advances log) : NeverBack log := by
  intro before earlier between later after hlog hbetween hinode hne
  have hadvances : Advances (before ++ [.persisted earlier] ++ between) (.persisted later) :=
    h _ _ after (by simpa using hlog)
  exact hadvances earlier (standing_of_between hbetween) hinode hne

/-- In every history whose steps keep the position, persisted progress does not go
backwards. -/
theorem persisted_never_back {path : AlertsPath} {stateFile : Option String} {h : History}
    (run : RunWhere (History.step ext) KeepsPosition (.initial path stateFile) h) :
    NeverBack h.log := by
  have hinv : HistoryInv ext h :=
    run.invariant (historyInv_initial path stateFile) fun _ _ _ hinv hkeeps hstep =>
      hinv.step hkeeps hstep
  exact neverBack_of_guarded hinv.advances

/-- A run in file mode up to its first save. -/
def fileRun : List History.Action :=
  [.launch .file sampleConfig, .lookSize, .lookInode, .enter true default,
   .run .read, .run .read, .run .read, .run .deliver, .run (.recv default), .run .tick,
   .run (.flush default), .save true]

/-- A ZeroMQ run up to its first save. -/
def zeroMqRun : List History.Action :=
  [.launch .zeroMq sampleConfig, .lookSize, .lookInode, .enter true default,
   .receive [sampleLine.toUTF8.data.toList], .run (.recv default), .run .tick,
   .run (.flush default), .save true]

theorem persisted_never_back_restart : ∃ h,
    RunWhere (History.step sampleExternals) KeepsPosition (.initial samplePath none) h ∧
      h.log = [.persisted ⟨1, 3⟩, .persisted ⟨1, 6⟩] ∧ NeverBack h.log := by
  set actions := fileRun ++
    [.crash, .write (.append (sampleLine ++ "\n").toUTF8.data.toList)] ++ fileRun with hactions
  have hlog : (exec (History.step sampleExternals) (.initial samplePath none) actions).map
      History.log = some [.persisted ⟨1, 3⟩, .persisted ⟨1, 6⟩] := by
    decide +kernel
  obtain ⟨h, hexec, hlog⟩ := Option.map_eq_some_iff.mp hlog
  have run : RunWhere (History.step sampleExternals) KeepsPosition (.initial samplePath none) h :=
    runWhere_of_exec hexec (by decide +kernel)
  exact ⟨h, run, hlog, persisted_never_back run⟩

/-- The ZeroMQ run saves offset 0 over the position of the file run. -/
theorem persisted_back : ∃ h,
    Reachable (History.step sampleExternals) (.initial samplePath none) h ∧ ¬ NeverBack h.log := by
  have hlog : (exec (History.step sampleExternals) (.initial samplePath none)
      (fileRun ++ [.crash] ++ zeroMqRun)).map History.log =
      some [.persisted ⟨1, 3⟩, .persisted ⟨1, 0⟩] := by
    decide +kernel
  obtain ⟨h, hexec, hlog⟩ := Option.map_eq_some_iff.mp hlog
  refine ⟨h, reachable_of_exec hexec, fun hnever => ?_⟩
  have hle := hnever [] ⟨1, 3⟩ [] ⟨1, 0⟩ [] hlog (fun r hr => nomatch hr) rfl (by decide)
  exact absurd hle (by decide)

end WazuhOcsf
