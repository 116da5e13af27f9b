import WazuhOcsf.Delivery
import WazuhOcsf.Input.Drain
import WazuhOcsf.Main.System

/-!
# Saved positions

`do_flush` saves the offset of the last received line together with the inode the
path has at that moment.  The two belong to one file as long as the path still names
the file the line was read from, `saved_pair_names_position`; after a rotation in
between, the offset of the old file is saved under the inode of the new one,
`saved_pair_mixed`.
-/

namespace WazuhOcsf

open Lines RustString Transition Trace DbState

variable {ext : Externals} {cfg : AppConfig}

/-! ## Lines in files -/

/-- A line with this text ends at the offset. -/
def EndsAt (bytes : List UInt8) (offset : ℕ) (text : String) : Prop :=
  ∃ before chunk, before ++ chunk <+: bytes ∧ (before ++ chunk).length = offset ∧
    readUntil isNewline chunk = chunk ∧ endsRecord isNewline chunk ∧ decodeLine chunk = some text

theorem EndsAt.mono {bytes bytes' : List UInt8} {offset : ℕ} {text : String}
    (h : EndsAt bytes offset text) (hpre : bytes <+: bytes') : EndsAt bytes' offset text := by
  obtain ⟨before, chunk, hbytes, hrest⟩ := h
  exact ⟨before, chunk, hbytes.trans hpre, hrest⟩

/-- A line just read ends where the tailer stands. -/
theorem endsAt_advance {t : FileTailer} {bytes : List UInt8} {text : String}
    (hcounted : t.pos = t.offset) (hends : endsRecord isNewline (t.chunk bytes))
    (hdecode : decodeLine (t.chunk bytes) = some text) :
    EndsAt bytes (t.advance (t.chunk bytes).length).offset text := by
  have hinside := FileTailer.pos_le_of_endsRecord hends
  refine ⟨bytes.take t.pos, t.chunk bytes, ?_, ?_, ?_, hends, hdecode⟩
  · rw [← t.take_chunk, ← List.take_add]
    exact List.take_prefix _ _
  · rw [List.length_append, List.length_take, Nat.min_eq_left hinside, t.advance_offset, hcounted]
  · exact readUntil_readUntil _

/-! ## The reader -/

namespace Reader

/-- The file the reader has open. -/
def tailer : Reader → Option FileTailer
  | metadata (.rotation t) | opening (.rotation t) _ => some t
  | reading t | sending t _ | checking t => some t
  | _ => none

/-- The counted offset is where the reader stands, and a line about to be sent ends
there. -/
structure Exact (path : AlertsPath) (reader : Reader) : Prop where
  counted : ∀ t, reader.tailer = some t → t.pos = t.offset
  ends : ∀ m, reader.message = some m → EndsAt (path.bytes m.source) m.offset m.line

theorem exact_of_no_message {path : AlertsPath} {reader : Reader}
    (hcounted : ∀ t, reader.tailer = some t → t.pos = t.offset) (hmessage : reader.message = none) :
    Exact path reader :=
  ⟨hcounted, fun m hm => absurd (hmessage.symm.trans hm) (Option.some_ne_none m).symm⟩

theorem Exact.opened {start : TailState} {path : AlertsPath} {why : Opening} {inode : ℕ}
    (h : Exact path (.opening why inode)) :
    Exact path ((Reader.opening why inode).next start path) := by
  by_cases hlinked : path.linked
  · cases why with
    | start =>
        simp only [next, path.current_of_linked hlinked]
        split_ifs
        · exact exact_of_no_message (by simp [tailer]) rfl
        · exact exact_of_no_message (by simp [tailer]) rfl
    | startRotated | rotation old =>
        simp only [next, path.current_of_linked hlinked]
        exact exact_of_no_message (by simp [tailer]) rfl
  · cases why with
    | start | startRotated =>
        simp only [next, path.current_of_not_linked hlinked]
        exact exact_of_no_message (by simp [tailer]) rfl
    | rotation old =>
        simp only [next, path.current_of_not_linked hlinked]
        exact exact_of_no_message h.counted rfl

/-- What the next step reads, if it reads, is UTF-8. -/
def ReadsText (path : AlertsPath) : Reader → Prop
  | reading t => decodeLine (t.chunk (path.bytes t.file)) ≠ none
  | _ => True

instance (path : AlertsPath) : (reader : Reader) → Decidable (ReadsText path reader)
  | reading t => inferInstanceAs (Decidable (decodeLine (t.chunk (path.bytes t.file)) ≠ none))
  | metadata _ | opening _ _ | sending _ _ | checking _ | stopped => .isTrue trivial

/-- A step keeps the count as long as what it reads is text. -/
theorem Exact.next (start : TailState) {path : AlertsPath} {reader : Reader}
    (h : Exact path reader) (htext : ReadsText path reader) :
    Exact path (reader.next start path) := by
  cases reader with
  | metadata why =>
      exact exact_of_no_message (fun t ht => h.counted t (by cases why <;> exact ht)) rfl
  | opening why inode => exact h.opened
  | reading t =>
      have hcounted := h.counted t rfl
      have hnext := readsTo_next start path t
      generalize (Reader.reading t).next start path = reader at hnext
      cases hnext with
      | eof hchunk => exact exact_of_no_message h.counted rfl
      | invalid hchunk hdecode => exact absurd hdecode htext
      | unfinished text hchunk hdecode hends => exact exact_of_no_message (by simp [tailer]) rfl
      | blank text hdecode hends hblank =>
          exact exact_of_no_message (by simp [tailer, hcounted]) rfl
      | line text hdecode hends hblank =>
          refine ⟨by simp [tailer, hcounted], fun m hm => ?_⟩
          obtain rfl := Option.some.inj hm
          exact endsAt_advance hcounted hends hdecode
  | sending t line => exact h
  | checking t =>
      have hcounted : ∀ t', some t = some t' → t'.pos = t'.offset := h.counted
      by_cases hlinked : path.linked
      · simp only [Reader.next, path.current_of_linked hlinked]
        split_ifs
        · exact exact_of_no_message hcounted rfl
        · exact exact_of_no_message hcounted rfl
      · simp only [Reader.next, path.current_of_not_linked hlinked]
        exact exact_of_no_message hcounted rfl
  | stopped => exact h

theorem Exact.sent {path : AlertsPath} {reader : Reader} (h : Exact path reader) :
    Exact path reader.sent := by
  cases reader with
  | sending t line => exact exact_of_no_message h.counted rfl
  | _ => exact h

theorem Exact.of_extends {path path' : AlertsPath} {reader : Reader} (h : Exact path reader)
    (hext : path.Extends path') : Exact path' reader :=
  ⟨h.counted, fun m hm => (h.ends m hm).mono (hext.bytes_isPrefix m.source)⟩

end Reader

/-! ## Saved pairs -/

/-- The last received line was read from the file with the saved inode, and it ends
at the saved offset of that file. -/
def SavedPair (path : AlertsPath) (before : List Event) : Event → Prop
  | .saved state _ => ∀ m, (receivedMessages before).getLast? = some m →
      path.files[m.source]?.map AlertsFile.inode = some state.inode ∧
        EndsAt (path.bytes m.source) state.offset m.line
  | _ => True

theorem SavedPair.of_extends {path path' : AlertsPath} {before : List Event} {e : Event}
    (h : SavedPair path before e) (hext : path.Extends path') : SavedPair path' before e := by
  cases e with
  | saved state ok =>
      intro m hm
      obtain ⟨hinode, hends⟩ := h m hm
      have hfile : m.source ≤ path.older.length := by
        obtain ⟨file, hfile, -⟩ := Option.map_eq_some_iff.mp hinode
        have hlt := (List.getElem?_eq_some_iff.mp hfile).1
        rw [path.length_files] at hlt
        omega
      exact ⟨(hext.inode hfile).trans hinode, hends.mono (hext.bytes_isPrefix m.source)⟩
  | _ => trivial

theorem savedPair_of_not_saved (path : AlertsPath) {e : Event} (he : e.savedState = none)
    (before : List Event) : SavedPair path before e := by
  cases e <;> simp_all [SavedPair, Event.savedState]

/-! ## Runs -/

/-- What is read is UTF-8, and when a position is saved the path names the file of the
last received line. -/
def PathKept (s : System) : System.Action → Prop
  | .read => s.reader.ReadsText s.path
  | .save _ => ∀ m ∈ (receivedMessages s.loop.log).getLast?,
      s.path.linked ∧ m.source = s.path.older.length
  | _ => True

instance (s : System) : (a : System.Action) → Decidable (PathKept s a)
  | .read => inferInstanceAs (Decidable (s.reader.ReadsText s.path))
  | .save _ => inferInstanceAs (Decidable (∀ m ∈ (receivedMessages s.loop.log).getLast?,
      s.path.linked ∧ m.source = s.path.older.length))
  | .write _ | .deliver | .reload _ | .recv _ | .tick | .shutdown | .flush _ => .isTrue trivial

/-- What a run keeps of positions: a line ends where its message says, and a saved pair names the
end of a line. -/
structure PositionInv (ext : Externals) (cfg : AppConfig) (start : TailState) (s : System) :
    Prop where
  loop : LoopInv ext cfg start.offset s.loop
  reader : s.reader.Exact s.path
  sent : ∀ m ∈ sentMessages s.loop.log, EndsAt (s.path.bytes m.source) m.offset m.line
  saved : Guarded (SavedPair s.path) s.loop.log

variable {start : TailState}

theorem positionInv_initial (path : AlertsPath) (mappings : CustomMappings) :
    PositionInv ext cfg start (.initial path start mappings) where
  loop := loopInv_initial mappings start.offset
  reader := Reader.exact_of_no_message (by simp [System.initial, Reader.tailer]) rfl
  sent m hm := absurd hm List.not_mem_nil
  saved := guarded_nil

namespace PositionInv

variable {s s' : System}

theorem write (h : PositionInv ext cfg start s) {path' : AlertsPath}
    (hext : s.path.Extends path') : PositionInv ext cfg start { s with path := path' } where
  loop := h.loop
  reader := h.reader.of_extends hext
  sent m hm := (h.sent m hm).mono (hext.bytes_isPrefix m.source)
  saved := h.saved.mono fun _ _ hpair => hpair.of_extends hext

theorem withReader (h : PositionInv ext cfg start s) {reader : Reader}
    (hreader : reader.Exact s.path) : PositionInv ext cfg start { s with reader := reader } :=
  ⟨h.loop, hreader, h.sent, h.saved⟩

/-- A step of the loop that sends nothing wrong and saves nothing. -/
theorem onLoop (h : PositionInv ext cfg start s) {a : Action} {loop : LoopState}
    (hloop : WazuhOcsf.step ext cfg s.loop a = some loop)
    (hsend : ∀ m, a = .send m → EndsAt (s.path.bytes m.source) m.offset m.line)
    (hsave : ∀ inode ok, a ≠ .save inode ok) :
    PositionInv ext cfg start { s with loop := loop } where
  loop := h.loop.step hloop
  reader := h.reader
  sent := by
    intro m hm
    by_cases hsent : ∃ m', a = .send m'
    · obtain ⟨m', rfl⟩ := hsent
      rw [sentMessages_of_send hloop] at hm
      rcases List.mem_append.mp hm with hm | hm
      · exact h.sent m hm
      · exact List.mem_singleton.mp hm ▸ hsend m' rfl
    · rw [sentMessages_of_step hloop fun m' heq => hsent ⟨m', heq⟩] at hm
      exact h.sent m hm
  saved := guarded_of_step hloop (fun e he => savedPair_of_not_saved _ he) h.saved hsave

theorem save (h : PositionInv ext cfg start s) {ok : Bool} {loop : LoopState}
    (hkept : PathKept s (.save ok)) (hloop : WazuhOcsf.step ext cfg s.loop
      (.save ((s.path.current.map AlertsFile.inode).getD 0) ok) = some loop) :
    PositionInv ext cfg start { s with loop := loop } where
  loop := h.loop.step hloop
  reader := h.reader
  sent := by
    rw [sentMessages_of_step hloop fun _ heq => nomatch heq]
    exact h.sent
  saved := by
    rw [(log_of_save hloop).2]
    refine guarded_concat.mpr ⟨h.saved, fun m hm => ?_⟩
    obtain ⟨hlinked, hsource⟩ := hkept m hm
    have hoffset : s.loop.currentOffset = m.offset := by
      rw [h.loop.offset, hm]
      rfl
    have hsent : m ∈ sentMessages s.loop.log := by
      rw [← h.loop.channel]
      exact List.mem_append_left _ (List.mem_of_getLast? hm)
    refine ⟨?_, hoffset ▸ h.sent m hsent⟩
    rw [hsource, AlertsPath.getElem?_files_newest, s.path.current_of_linked hlinked]
    rfl

theorem step {a : System.Action} (h : PositionInv ext cfg start s) (hkept : PathKept s a)
    (hstep : s.step ext cfg start a = some s') : PositionInv ext cfg start s' := by
  cases System.moves_of_step ext cfg start hstep with
  | write hwrite => exact h.write (AlertsPath.extends_of_write hwrite)
  | read => exact h.withReader (h.reader.next start hkept)
  | readLast hloop =>
      exact (h.withReader (h.reader.next start hkept)).onLoop hloop (fun m heq => nomatch heq)
        fun _ _ heq => nomatch heq
  | deliver hmessage hloop =>
      refine (h.withReader h.reader.sent).onLoop hloop (fun m heq => ?_) fun _ _ heq => nomatch heq
      cases heq
      exact h.reader.ends _ hmessage
  | deliverClosed hloop =>
      have hstopped : Reader.stopped.Exact s.path :=
        Reader.exact_of_no_message (by simp [Reader.tailer]) rfl
      exact (h.withReader hstopped).onLoop hloop (fun m heq => nomatch heq)
        fun _ _ heq => nomatch heq
  | loop ha hloop =>
      refine h.onLoop hloop (fun m heq => ?_) fun inode ok heq => ?_
      · cases ha <;> cases heq
      · cases ha <;> cases heq
  | save hloop => exact h.save hkept hloop

end PositionInv

/-- In every run that keeps to this, a saved state names the position of the last
received line. -/
theorem saved_pair_names_position {path : AlertsPath} {mappings : CustomMappings} {s : System}
    (run : RunWhere (System.step ext cfg start) PathKept (.initial path start mappings) s) :
    Guarded (SavedPair s.path) s.loop.log := by
  have h : PositionInv ext cfg start s :=
    run.invariant (positionInv_initial path mappings) fun _ _ _ h hkept hstep => h.step hkept hstep
  exact h.saved

/-- One alert. -/
def samplePath : AlertsPath where
  older := []
  newest := ⟨1, (sampleLine ++ "\n").toUTF8.data.toList⟩
  linked := true

/-- The alert is read and received. -/
def sampleReceive : List System.Action := [.read, .read, .read, .deliver, .recv default]

theorem saved_pair_names_position_line : ∃ s,
    RunWhere (System.step sampleExternals sampleConfig ⟨1, 0⟩) PathKept
        (.initial samplePath ⟨1, 0⟩ default) s ∧
      savedStates s.loop.log = [⟨1, 3⟩] ∧ Guarded (SavedPair s.path) s.loop.log := by
  have hsaved : (exec (System.step sampleExternals sampleConfig ⟨1, 0⟩)
      (.initial samplePath ⟨1, 0⟩ default)
      (sampleReceive ++ [.tick, .flush default, .save true])).map
      (fun s => savedStates s.loop.log) = some [⟨1, 3⟩] := by
    decide +kernel
  obtain ⟨s, hexec, hsaved⟩ := Option.map_eq_some_iff.mp hsaved
  have run : RunWhere (System.step sampleExternals sampleConfig ⟨1, 0⟩) PathKept
      (.initial samplePath ⟨1, 0⟩ default) s :=
    runWhere_of_exec hexec (by decide +kernel)
  exact ⟨s, run, hsaved, saved_pair_names_position run⟩

/-- The file is rotated between the line and the flush: offset 3 of the old file is
saved under the inode of the new one. -/
theorem saved_pair_mixed : ∃ s before,
    Reachable (System.step sampleExternals sampleConfig ⟨1, 0⟩)
        (.initial samplePath ⟨1, 0⟩ default) s ∧
      s.loop.log = before ++ [.saved ⟨2, 3⟩ true] ∧
      (receivedMessages before).getLast? = some ⟨3, sampleLine, 0⟩ ∧
      s.path.files[0]?.map AlertsFile.inode = some 1 := by
  have hend : (exec (System.step sampleExternals sampleConfig ⟨1, 0⟩)
      (.initial samplePath ⟨1, 0⟩ default) (sampleReceive ++
        [.write .rename, .write (.create 2), .tick, .flush default])).map
      (fun s => (s.loop.pc, s.loop.currentOffset, s.path.current.map AlertsFile.inode,
        (receivedMessages s.loop.log).getLast?, s.path.files[0]?.map AlertsFile.inode)) =
      some (.saving false, 3, some 2, some ⟨3, sampleLine, 0⟩, some 1) := by
    decide +kernel
  obtain ⟨s, hexec, hend⟩ := Option.map_eq_some_iff.mp hend
  simp only [Prod.mk.injEq] at hend
  obtain ⟨hpc, hoffset, hinode, hreceived, hfirst⟩ := hend
  set saved : LoopState := { s.loop with
    db := s.loop.db.record [.saved ⟨2, 3⟩ true]
    pc := .selecting } with hsaved
  have hstep : System.step sampleExternals sampleConfig ⟨1, 0⟩ s (.save true) =
      some { s with loop := saved } := by
    simp [System.step, System.onLoop, step, hpc, hoffset, hinode, hsaved]
  exact ⟨{ s with loop := saved }, s.loop.log, .snoc (reachable_of_exec hexec) trivial hstep, rfl,
    hreceived, hfirst⟩

end WazuhOcsf
