import WazuhOcsf.Commit
import WazuhOcsf.Positions

/-!
# From the bytes of the file to the rows in ClickHouse

What the process makes of a file that is only appended to, reader and main loop together.
`LinesTo` says which lines end before a position; the reader keeps it for the position it
stands at (`OnFile`) and the messages carry it through the channel, so the lines received so
far are those of the bytes before the current offset.  With a database that accepts what it
is given, the rows in ClickHouse and in the buffers are the rows of these lines, each once
and in order: `rows_are_file_lines`.
-/

namespace WazuhOcsf

open Lines RustString Transition Trace DbState

variable {ext : Externals} {cfg : AppConfig} {start : TailState}

/-! ## The bytes between two positions -/

section

variable {α : Type*} (l : List α) {a b c : ℕ}

/-- The symbols from position `a` on, before position `b`. -/
def between (l : List α) (a b : ℕ) : List α := (l.take b).drop a

@[simp] theorem between_self (a : ℕ) : between l a a = [] :=
  List.drop_eq_nil_of_le (List.length_take_le a l)

theorem between_append (hb : b ≤ l.length) (more : List α) :
    between (l ++ more) a b = between l a b := by
  rw [between, between, List.take_append_of_le_length hb]

theorem between_add (hab : a ≤ b) (hb : b ≤ l.length) (n : ℕ) :
    between l a (b + n) = between l a b ++ (l.drop b).take n := by
  rw [between, between, List.take_add, List.drop_append_of_le_length]
  rw [List.length_take]
  omega

theorem between_trans (hab : a ≤ b) (hbc : b ≤ c) (hb : b ≤ l.length) :
    between l a b ++ between l b c = between l a c := by
  obtain ⟨n, rfl⟩ := Nat.exists_eq_add_of_le hbc
  rw [between_add l hab hb, between_add l le_rfl hb, between_self, List.nil_append]

end

/-! ## Lines before a position -/

/-- The bytes between two positions are whole lines, and these are their texts. -/
structure LinesTo (bytes : List UInt8) (first offset : ℕ) (lines : List (Option String)) :
    Prop where
  reached : first ≤ offset
  size : offset ≤ bytes.length
  whole : Terminated isNewline (between bytes first offset)
  texts : textLines (between bytes first offset) = lines

namespace LinesTo

variable {bytes : List UInt8} {first offset : ℕ} {lines : List (Option String)}

theorem none (h : first ≤ bytes.length) : LinesTo bytes first first [] where
  reached := le_rfl
  size := h
  whole := by rw [between_self]; exact terminated_nil
  texts := by rw [between_self]; rfl

theorem append (h : LinesTo bytes first offset lines) (more : List UInt8) :
    LinesTo (bytes ++ more) first offset lines where
  reached := h.reached
  size := h.size.trans (List.prefix_append bytes more).length_le
  whole := by rw [between_append bytes h.size]; exact h.whole
  texts := by rw [between_append bytes h.size]; exact h.texts

theorem trans {last : ℕ} {later : List (Option String)} (h : LinesTo bytes first offset lines)
    (h' : LinesTo bytes offset last later) : LinesTo bytes first last (lines ++ later) := by
  have hsplit := between_trans bytes h.reached h'.reached h.size
  exact ⟨h.reached.trans h'.reached, h'.size, hsplit ▸ h.whole.append h'.whole,
    by rw [← hsplit, textLines_append h.whole, h.texts, h'.texts]⟩

/-- One line more: it is read from where the lines before it end. -/
theorem chunk (h : LinesTo bytes first offset lines) {t : FileTailer} (hpos : t.pos = offset)
    (hends : endsRecord isNewline (t.chunk bytes)) {text : String}
    (hdecode : decodeLine (t.chunk bytes) = some text) :
    LinesTo bytes first (offset + (t.chunk bytes).length)
      (lines ++ if trim text = "" then [] else [some text]) := by
  have hchunk : between bytes offset (offset + (t.chunk bytes).length) = t.chunk bytes := by
    rw [between_add bytes le_rfl h.size, between_self, List.nil_append, ← hpos, t.take_chunk]
  refine h.trans ⟨Nat.le_add_right _ _, ?_, ?_, ?_⟩
  · rw [← hpos]
    exact FileTailer.advance_le (FileTailer.pos_le_of_endsRecord hends)
  · rw [hchunk]
    exact .of_endsRecord hends
  · rw [hchunk]
    exact textLines_chunk hends hdecode

end LinesTo

/-- The texts of messages. -/
def texts (messages : List Message) : List (Option String) := messages.map fun m => some m.line

/-- A message says where its line ends, and what lies before it are the lines of the messages
before. -/
def EndsHere (bytes : List UInt8) (first : ℕ) (before : List Message) (m : Message) : Prop :=
  LinesTo bytes first m.offset (texts (before ++ [m]))

/-! ## The reader -/

namespace Reader

/-- The tailer has the newest file open and stands where it counts. -/
structure Follows (path : AlertsPath) (t : FileTailer) : Prop where
  file : t.file = path.older.length
  counted : t.pos = t.offset
  inode : t.inode = path.newest.inode

/-- Where the reader of a file that is only appended to is, and the lines it has sent. -/
inductive OnFile (path : AlertsPath) (first : ℕ) (lines : List (Option String)) : Reader → Prop
  | metadata (hnone : lines = []) : OnFile path first lines (.metadata .start)
  | opening {inode : ℕ} (hnone : lines = []) (hinode : inode = path.newest.inode) :
      OnFile path first lines (.opening .start inode)
  | reading {t : FileTailer} (h : Follows path t)
      (hlines : LinesTo path.newest.bytes first t.offset lines) :
      OnFile path first lines (.reading t)
  | checking {t : FileTailer} (h : Follows path t)
      (hlines : LinesTo path.newest.bytes first t.offset lines) :
      OnFile path first lines (.checking t)
  | sending {t : FileTailer} {line : String} (h : Follows path t)
      (hlines : LinesTo path.newest.bytes first t.offset (lines ++ [some line])) :
      OnFile path first lines (.sending t line)
  | stopped : OnFile path first lines .stopped

namespace OnFile

variable {path : AlertsPath} {lines : List (Option String)} {reader : Reader}

/-- One `next_line` on the open file. -/
theorem next_reading {first : ℕ} {t : FileTailer} (h : Follows path t)
    (hlines : LinesTo path.newest.bytes first t.offset lines)
    (htext : decodeLine (t.chunk (path.bytes t.file)) ≠ none) :
    OnFile path first lines ((Reader.reading t).next start path) := by
  have hbytes : path.bytes t.file = path.newest.bytes := by rw [h.file, path.bytes_newest]
  have hnext := readsTo_next start path t
  generalize (Reader.reading t).next start path = reader at hnext
  have hadvance : Follows path (t.advance (t.chunk (path.bytes t.file)).length) :=
    ⟨h.file, by simp [h.counted], h.inode⟩
  cases hnext with
  | eof hchunk => exact .checking h hlines
  | invalid hchunk hdecode => exact absurd hdecode htext
  | unfinished text hchunk hdecode hends =>
      -- the tailer goes back to where the line begins
      exact .checking ⟨h.file, rfl, h.inode⟩ hlines
  | blank text hdecode hends hblank =>
      rw [hbytes] at hdecode hends
      have hmore := hlines.chunk h.counted hends hdecode
      rw [if_pos hblank, List.append_nil] at hmore
      exact .reading hadvance (by rw [t.advance_offset, hbytes]; exact hmore)
  | line text hdecode hends hblank =>
      rw [hbytes] at hdecode hends
      have hmore := hlines.chunk h.counted hends hdecode
      rw [if_neg hblank] at hmore
      exact .sending hadvance (by rw [t.advance_offset, hbytes]; exact hmore)

theorem next (h : OnFile path start.offset lines reader) (hlinked : path.linked)
    (hinode : start.inode = path.newest.inode) (hsize : start.offset ≤ path.newest.bytes.length)
    (htext : reader.ReadsText path) :
    OnFile path start.offset lines (reader.next start path) := by
  have hcurrent := path.current_of_linked hlinked
  cases h with
  | metadata hnone =>
      refine .opening hnone ?_
      rw [hcurrent]
      rfl
  | opening hnone hopened =>
      -- the file is the one of the saved state, so it is not read from its start
      have hsame : ¬ (start.inode ≠ 0 ∧ path.newest.inode ≠ start.inode) :=
        fun hne => hne.2 hinode.symm
      subst hnone hopened
      simp only [Reader.next, hcurrent, if_neg hsame]
      exact .reading ⟨rfl, rfl, rfl⟩ (.none hsize)
  | reading h hlines => exact next_reading h hlines htext
  | @checking t h hlines =>
      have hkept : ¬ (path.newest.inode ≠ t.inode ∨ path.newest.bytes.length < t.offset) := by
        rw [not_or, not_not, Nat.not_lt]
        exact ⟨h.inode.symm, hlines.size⟩
      simp only [Reader.next, hcurrent, if_neg hkept]
      exact .reading h hlines
  | sending h hlines => exact .sending h hlines
  | stopped => exact .stopped

/-- A delivered line is the next one of the file, and ends where the message says. -/
theorem sent {first : ℕ} (h : OnFile path first lines reader) {m : Message}
    (hmessage : reader.message = some m) :
    OnFile path first (lines ++ [some m.line]) reader.sent ∧
      LinesTo path.newest.bytes first m.offset (lines ++ [some m.line]) := by
  cases h with
  | sending h hlines =>
      obtain rfl := Option.some.inj hmessage
      exact ⟨.reading h hlines, hlines⟩
  | _ => cases hmessage

theorem append {first : ℕ} (h : OnFile path first lines reader) (more : List UInt8) :
    OnFile { path with newest := { path.newest with bytes := path.newest.bytes ++ more } }
      first lines reader := by
  have hfollows {t : FileTailer} (h : Follows path t) : Follows
      { path with newest := { path.newest with bytes := path.newest.bytes ++ more } } t :=
    ⟨h.file, h.counted, h.inode⟩
  cases h with
  | metadata hnone => exact .metadata hnone
  | opening hnone hinode => exact .opening hnone hinode
  | reading h hlines => exact .reading (hfollows h) (hlines.append more)
  | checking h hlines => exact .checking (hfollows h) (hlines.append more)
  | sending h hlines => exact .sending (hfollows h) (hlines.append more)
  | stopped => exact .stopped

end OnFile

end Reader

/-! ## Runs -/

/-- The file is only appended to, and what is read of it is UTF-8. -/
def Readable (s : System) : System.Action → Prop
  | .write (.append _) => True
  | .write _ => False
  | .read => s.reader.ReadsText s.path
  | _ => True

instance (s : System) : (a : System.Action) → Decidable (Readable s a)
  | .write (.append _) => .isTrue trivial
  | .write .rename | .write (.create _) => .isFalse id
  | .read => inferInstanceAs (Decidable (s.reader.ReadsText s.path))
  | .deliver | .reload _ | .recv _ | .tick | .shutdown | .flush _ | .save _ => .isTrue trivial

/-- The messages sent are the lines of the file, and each says where its line ends. -/
structure IngestInv (ext : Externals) (cfg : AppConfig) (start : TailState) (s : System) :
    Prop where
  loop : LoopInv ext cfg start.offset s.loop
  linked : s.path.linked
  inode : start.inode = s.path.newest.inode
  size : start.offset ≤ s.path.newest.bytes.length
  reader : s.reader.OnFile s.path start.offset (texts (sentMessages s.loop.log))
  sent : Guarded (EndsHere s.path.newest.bytes start.offset) (sentMessages s.loop.log)

theorem ingestInv_initial {path : AlertsPath} (mappings : CustomMappings) (hlinked : path.linked)
    (hinode : start.inode = path.newest.inode) (hsize : start.offset ≤ path.newest.bytes.length) :
    IngestInv ext cfg start (.initial path start mappings) where
  loop := loopInv_initial mappings start.offset
  linked := hlinked
  inode := hinode
  size := hsize
  reader := .metadata rfl
  sent := guarded_nil

namespace IngestInv

variable {s s' : System}

/-- A step of the loop that does not send. -/
theorem onLoop (h : IngestInv ext cfg start s) {a : Action} {loop : LoopState}
    (hloop : WazuhOcsf.step ext cfg s.loop a = some loop) (hsend : ∀ m, a ≠ .send m) :
    IngestInv ext cfg start { s with loop := loop } := by
  have hsent := sentMessages_of_step hloop hsend
  constructor
  case loop => exact h.loop.step hloop
  case linked => exact h.linked
  case inode => exact h.inode
  case size => exact h.size
  case reader => exact hsent ▸ h.reader
  case sent => exact hsent ▸ h.sent

theorem withReader (h : IngestInv ext cfg start s) {reader : Reader}
    (hreader : reader.OnFile s.path start.offset (texts (sentMessages s.loop.log))) :
    IngestInv ext cfg start { s with reader := reader } :=
  ⟨h.loop, h.linked, h.inode, h.size, hreader, h.sent⟩

theorem deliver (h : IngestInv ext cfg start s) {m : Message} {loop : LoopState}
    (hmessage : s.reader.message = some m)
    (hloop : WazuhOcsf.step ext cfg s.loop (.send m) = some loop) :
    IngestInv ext cfg start { s with reader := s.reader.sent, loop := loop } := by
  obtain ⟨hreader, hends⟩ := h.reader.sent hmessage
  have hsent := sentMessages_of_send hloop
  have htexts : texts (sentMessages loop.log) =
      texts (sentMessages s.loop.log) ++ [some m.line] := by
    rw [hsent, texts, List.map_append]
    rfl
  constructor
  case loop => exact h.loop.step hloop
  case linked => exact h.linked
  case inode => exact h.inode
  case size => exact h.size
  case reader => exact htexts ▸ hreader
  case sent =>
    rw [hsent]
    refine guarded_concat.mpr ⟨h.sent, ?_⟩
    rw [EndsHere, ← hsent, htexts]
    exact hends

theorem append (h : IngestInv ext cfg start s) (more : List UInt8) :
    IngestInv ext cfg start { s with path :=
      { s.path with newest := { s.path.newest with bytes := s.path.newest.bytes ++ more } } } where
  loop := h.loop
  linked := h.linked
  inode := h.inode
  size := h.size.trans (List.prefix_append _ more).length_le
  reader := h.reader.append more
  sent := h.sent.mono fun _ _ hends => hends.append more

theorem step {a : System.Action} (h : IngestInv ext cfg start s) (hreadable : Readable s a)
    (hstep : s.step ext cfg start a = some s') : IngestInv ext cfg start s' := by
  cases System.moves_of_step ext cfg start hstep with
  | @write op path hwrite =>
      cases op with
      | append bytes =>
          obtain ⟨-, hwrite⟩ := Option.ite_none_right_eq_some.mp hwrite
          cases hwrite
          exact h.append bytes
      | rename => exact hreadable.elim
      | create inode => exact hreadable.elim
  | read => exact h.withReader (h.reader.next h.linked h.inode h.size hreadable)
  | readLast hloop =>
      exact (h.withReader (h.reader.next h.linked h.inode h.size hreadable)).onLoop hloop
        fun _ heq => nomatch heq
  | deliver hmessage hloop => exact h.deliver hmessage hloop
  | deliverClosed hloop => exact (h.withReader .stopped).onLoop hloop fun _ heq => nomatch heq
  | loop ha hloop => exact h.onLoop hloop fun m heq => by cases ha <;> cases heq
  | save hloop => exact h.onLoop hloop fun _ heq => nomatch heq

/-- The lines received so far are those before the current offset. -/
theorem received (h : IngestInv ext cfg start s) :
    LinesTo s.path.newest.bytes start.offset s.loop.currentOffset
      (texts (receivedMessages s.loop.log)) := by
  have hchannel := h.loop.channel
  rw [h.loop.offset]
  rcases List.eq_nil_or_concat (receivedMessages s.loop.log) with hnil | ⟨before, m, hconcat⟩
  · rw [hnil]
    exact .none h.size
  · -- the last line received says where it ends
    rw [List.concat_eq_append] at hconcat
    rw [hconcat, List.getLast?_concat]
    rw [hconcat, List.append_assoc, List.singleton_append] at hchannel
    exact h.sent before m s.loop.channel hchannel.symm

end IngestInv

/-! ## Rows -/

theorem routed_eq (table : String) (log : List Event) :
    routed table log = (receptions log).filterMap fun r => r.rowFor table := by
  rw [routed, receptions, List.filterMap_filterMap]
  refine List.filterMap_congr fun e _ => ?_
  cases e <;> rfl

theorem receivedMessages_eq (log : List Event) :
    receivedMessages log = (receptions log).map Reception.message := by
  rw [receivedMessages, receptions, List.map_filterMap]
  refine List.filterMap_congr fun e _ => ?_
  cases e <;> rfl

/-- The file is only appended to, what is read of it is UTF-8, and the database accepts what
it is given. -/
def Faithful (s : System) (a : System.Action) : Prop := Readable s a ∧ Committing s a

/-- The line was received, and its row is what `transform` makes of it under the configuration
and the mapping table in force then. -/
def IsRowOf (ext : Externals) (line : Option String) (r : Reception) : Prop :=
  line = some r.message.line ∧ r.Sound ext

theorem rowsOf_of_sound {received : List Reception} (h : ∀ r ∈ received, r.Sound ext) :
    List.Forall₂ (IsRowOf ext) (texts (received.map Reception.message)) received := by
  rw [texts, List.map_map, List.forall₂_map_left_iff, List.forall₂_same]
  exact fun r hr => ⟨rfl, h r hr⟩

/-- The rows of the lines received so far. -/
theorem LoopInv.rowsOf {startOffset : ℕ} {s : LoopState} (h : LoopInv ext cfg startOffset s) :
    List.Forall₂ (IsRowOf ext) (texts (receivedMessages s.log)) (receptions s.log) := by
  rw [receivedMessages_eq]
  exact rowsOf_of_sound fun r hr => (h.transformed r hr).2

/-- At every moment, the lines of the file between the start position and the current offset
have been transformed, one after the other and each once, and ClickHouse and the buffers
together hold exactly their rows, table by table and in the order of the file.  When the
process exits nothing is left in a buffer, and the saved position is the end of these
lines. -/
theorem rows_are_file_lines {path : AlertsPath} {mappings : CustomMappings} {s : System}
    (hlinked : path.linked) (hinode : start.inode = path.newest.inode)
    (hsize : start.offset ≤ path.newest.bytes.length)
    (run : RunWhere (System.step ext cfg start) Faithful (.initial path start mappings) s) :
    List.Forall₂ (IsRowOf ext)
        (textLines (between s.path.newest.bytes start.offset s.loop.currentOffset))
        (receptions s.loop.log) ∧
      (∀ r ∈ receptions s.loop.log, r.cfg = cfg) ∧
      (∀ table, accepted table s.loop.log ++ s.loop.batches.rows table =
        (receptions s.loop.log).filterMap fun r => r.rowFor table) ∧
      (s.loop.pc = .exited → (∀ table, s.loop.batches.rows table = []) ∧
        (savedStates s.loop.log).getLast?.map TailState.offset = some s.loop.currentOffset) := by
  have hingest : IngestInv ext cfg start s :=
    run.invariant (ingestInv_initial mappings hlinked hinode hsize)
      fun _ _ _ h hfaithful hstep => h.step hfaithful.1 hstep
  have hcommit : CommitInv ext cfg start s :=
    run.invariant (commitInv_initial path mappings)
      fun _ _ _ h hfaithful hstep => h.step hfaithful.2 hstep
  refine ⟨?_, fun r hr => (hingest.loop.transformed r hr).1, fun table => ?_, fun hexit => ?_⟩
  · rw [hingest.received.texts]
    exact hingest.loop.rowsOf
  · rw [hcommit.delivered table, routed_eq]
  · exact ⟨hingest.loop.flushed (.inr hexit), hingest.loop.saved hexit⟩

/-- The alert is read, received and flushed. -/
def sampleIngest : List System.Action := sampleFlush default ++ [.save true]

theorem sampleIngest_faithful :
    EveryStep (System.step sampleExternals sampleConfig ⟨1, 0⟩) Faithful
      (.initial samplePath ⟨1, 0⟩ default) sampleIngest := by
  refine EveryStep.and (by decide +kernel) (everyStep_of_forall ?_ _)
  simp only [sampleIngest, sampleFlush, sampleReceive, List.cons_append, List.nil_append,
    List.forall_mem_cons]
  exact ⟨fun _ => trivial, fun _ => trivial, fun _ => trivial, fun _ => trivial, fun _ => trivial,
    fun _ => trivial, fun _ _ _ => ⟨.inr rfl, rfl⟩, fun _ => trivial,
    List.forall_mem_nil _⟩

theorem rows_are_file_lines_sample : ∃ s,
    RunWhere (System.step sampleExternals sampleConfig ⟨1, 0⟩) Faithful
        (.initial samplePath ⟨1, 0⟩ default) s ∧
      s.loop.currentOffset = 3 ∧
      List.Forall₂ (IsRowOf sampleExternals) [some sampleLine] (receptions s.loop.log) ∧
      accepted sampleTable s.loop.log ++ s.loop.batches.rows sampleTable =
        (receptions s.loop.log).filterMap fun r => r.rowFor sampleTable := by
  have hend : (exec (System.step sampleExternals sampleConfig ⟨1, 0⟩)
      (.initial samplePath ⟨1, 0⟩ default) sampleIngest).map (fun s => (s.loop.currentOffset,
        textLines (between s.path.newest.bytes 0 s.loop.currentOffset))) =
      some (3, [some sampleLine]) := by
    decide +kernel
  obtain ⟨s, hexec, hend⟩ := Option.map_eq_some_iff.mp hend
  obtain ⟨hoffset, hlines⟩ := Prod.mk.inj hend
  have run := runWhere_of_exec hexec sampleIngest_faithful
  obtain ⟨hrows, -, htables, -⟩ := rows_are_file_lines rfl rfl (Nat.zero_le _) run
  exact ⟨s, run, hoffset, hlines ▸ hrows, htables sampleTable⟩

end WazuhOcsf
