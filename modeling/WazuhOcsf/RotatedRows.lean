import WazuhOcsf.Ingest
import WazuhOcsf.Rotation

/-!
# Rows across rotations

`Rotation.lean` is about the reader with a receiver that takes every line.  The process has the
same invariant, also when it starts in the middle of the generations: each message says up to
which position the lines go that were sent with it (`OnGenerations`).  So the lines the main
loop received come first among those of all generations, and with a database that accepts what
it is given their rows are in ClickHouse and in the buffers: `rows_across_rotations`.
-/

namespace WazuhOcsf

open Lines RustString Transition Trace DbState

variable {ext : Externals} {cfg : AppConfig} {start : TailState}

/-! ## The process as a watch -/

/-- The file is not open yet. -/
def Reader.starts : Reader → Bool
  | .metadata .start | .opening .start _ => true
  | _ => false

namespace System

/-- The reader and what it has sent. -/
def watch (s : System) : Watch := ⟨s.path, s.reader, sentMessages s.loop.log⟩

/-- The writer appends whole lines of text and does not rename before the reader has opened
the file, and the reader opens cleanly. -/
def Rotates (s : System) : System.Action → Prop
  | .write .rename => s.reader.starts = false
  | .write op => KeepsUp s.watch (.write op)
  | .read => CleanOpen s.path s.reader
  | _ => True

instance (s : System) : (a : System.Action) → Decidable (s.Rotates a)
  | .write .rename => inferInstanceAs (Decidable (s.reader.starts = false))
  | .write (.append bytes) => inferInstanceAs (Decidable (KeepsUp s.watch (.write (.append bytes))))
  | .write (.create inode) => inferInstanceAs (Decidable (KeepsUp s.watch (.write (.create inode))))
  | .read => inferInstanceAs (Decidable (CleanOpen s.path s.reader))
  | .deliver | .reload _ | .recv _ | .tick | .shutdown | .flush _ | .save _ => .isTrue trivial

/-- The database accepts what it is given. -/
def Accepts (s : System) (a : System.Action) : Prop :=
  ∀ env, a = .flush env → AllAccepted env s.loop.db s.loop.batches

/-- Both. -/
def KeepsRotating (s : System) (a : System.Action) : Prop := s.Rotates a ∧ s.Accepts a

theorem Rotates.keepsUp {s : System} {op : Write} (h : s.Rotates (.write op)) :
    KeepsUp s.watch (.write op) := by
  cases op with
  | rename => trivial
  | append bytes => exact h
  | create inode => exact h

end System

/-! ## Positions in the generations -/

/-- The bytes of all generations before a position in one of them. -/
def AlertsPath.upTo (path : AlertsPath) (file offset : ℕ) : List UInt8 :=
  ((path.files.take file).map AlertsFile.bytes).flatten ++ (path.bytes file).take offset

/-- The bytes from `first` on, before a position in one of the generations, are whole lines, and
these are their texts. -/
structure LinesUpTo (first : ℕ) (path : AlertsPath) (file offset : ℕ)
    (lines : List (Option String)) : Prop where
  inside : file ≤ path.older.length
  size : offset ≤ (path.bytes file).length
  after : first ≤ (path.upTo file offset).length
  whole : Terminated isNewline ((path.upTo file offset).drop first)
  texts : textLines ((path.upTo file offset).drop first) = lines

namespace LinesUpTo

variable {first file offset : ℕ} {path path' : AlertsPath} {lines : List (Option String)}

/-- Before the first line. -/
theorem none (hnew : path.older = []) (hsize : first ≤ path.newest.bytes.length) :
    LinesUpTo first path path.older.length first [] := by
  have hbytes : path.bytes path.older.length = path.newest.bytes := path.bytes_newest
  have hupTo : path.upTo path.older.length first = path.newest.bytes.take first := by
    rw [AlertsPath.upTo, hbytes, hnew]
    rfl
  have hlength := List.length_take_of_le hsize
  have hnil : (path.upTo path.older.length first).drop first = [] := by
    rw [hupTo]
    exact List.drop_eq_nil_of_le hlength.le
  exact ⟨le_rfl, hbytes ▸ hsize, by rw [hupTo, hlength], hnil ▸ terminated_nil, by rw [hnil]; rfl⟩

theorem of_extends (h : LinesUpTo first path file offset lines) (hext : path.Extends path') :
    LinesUpTo first path' file offset lines := by
  have hupTo : path'.upTo file offset = path.upTo file offset :=
    FileTailer.passed_of_extends (t := ⟨file, offset, offset, 0⟩) hext h.inside h.size
  exact ⟨h.inside.trans hext.length_le, h.size.trans (hext.bytes_isPrefix file).length_le,
    hupTo ▸ h.after, hupTo ▸ h.whole, hupTo ▸ h.texts⟩

/-- The lines before a position come first among all. -/
theorem isPrefix (h : LinesUpTo first path file offset lines) :
    lines <+: textLines (path.written first) := by
  have hsplit := FileTailer.passed_append_unread (t := ⟨file, offset, offset, 0⟩) h.inside
  have hpassed : FileTailer.passed ⟨file, offset, offset, 0⟩ path = path.upTo file offset := rfl
  rw [hpassed] at hsplit
  rw [AlertsPath.written, ← hsplit, List.drop_append_of_le_length h.after,
    textLines_append h.whole, h.texts]
  exact List.prefix_append _ _

/-- A tailer that is opened there. -/
theorem tails (h : LinesUpTo first path path.older.length offset lines) :
    Tails first path ⟨path.older.length, offset, offset, path.newest.inode⟩ := by
  refine ⟨le_rfl, rfl, h.size, h.after, h.whole, .inr ?_, fun hzero => ?_⟩
  · rw [← path.length_files, List.take_length]
    exact List.mem_map_of_mem (List.mem_append_right _ (List.mem_singleton_self _))
  · have hnewest := path.getElem?_files_newest
    rw [show path.older.length = 0 from hzero] at hnewest
    rw [hnewest]
    rfl

end LinesUpTo

/-- Where a tailer stands. -/
theorem Tails.linesUpTo {first : ℕ} {path : AlertsPath} {t : FileTailer} (h : Tails first path t) :
    LinesUpTo first path t.file t.offset (textLines ((t.passed path).drop first)) := by
  have hupTo : path.upTo t.file t.offset = t.passed path := by
    rw [← h.counted]
    rfl
  exact ⟨h.file, h.counted ▸ h.size, hupTo ▸ h.after, hupTo ▸ h.whole, by rw [hupTo]⟩

/-! ## The invariant -/

/-- Where the reader of a process is, when the lines `earlier` come before its start position and
it has sent the lines `sent`. -/
inductive Reader.OnGenerations (first : ℕ) (earlier : List (Option String)) (start : TailState)
    (path : AlertsPath) (sent : List (Option String)) : Reader → Prop
  | starts {reader : Reader}
      (hreader : reader = .metadata .start ∨ reader = .opening .start start.inode)
      (hlinked : path.linked) (hinode : start.inode = path.newest.inode)
      (hlines : LinesUpTo first path path.older.length start.offset earlier) (hnone : sent = []) :
      OnGenerations first earlier start path sent reader
  | opened {reader : Reader} (h : ReaderInv first path (earlier ++ sent) reader) :
      OnGenerations first earlier start path sent reader
  | stopped : OnGenerations first earlier start path sent .stopped

/-- The process goes through the generations: it started behind the lines `earlier`, and each
message says where its line ends. -/
structure OnGenerations (first : ℕ) (earlier : List (Option String)) (start : TailState)
    (s : System) : Prop where
  path : PathInv first s.path
  started : ∃ file, s.path.files[file]?.map AlertsFile.inode = some start.inode ∧
    LinesUpTo first s.path file start.offset earlier
  reader : s.reader.OnGenerations first earlier start s.path (texts (sentMessages s.loop.log))
  sent : Guarded (fun before m =>
    LinesUpTo first s.path m.source m.offset (earlier ++ texts (before ++ [m])))
    (sentMessages s.loop.log)

namespace Reader.OnGenerations

variable {first : ℕ} {earlier sent : List (Option String)} {path path' : AlertsPath}
  {reader : Reader}

/-- The reader moves on by itself. -/
theorem next (h : reader.OnGenerations first earlier start path sent) (hpath : PathInv first path)
    (hclean : CleanOpen path reader) :
    (reader.next start path).OnGenerations first earlier start path sent := by
  cases h with
  | starts hreader hlinked hinode hlines hnone =>
      have hcurrent := path.current_of_linked hlinked
      rcases hreader with rfl | rfl
      · refine .starts (.inr ?_) hlinked hinode hlines hnone
        rw [Reader.next, hcurrent, Option.map_some, Option.getD_some, hinode]
      · have hopened : (Reader.opening .start start.inode).next start path =
            .reading ⟨path.older.length, start.offset, start.offset, start.inode⟩ := by
          simp [Reader.next, hcurrent]
        rw [hopened, hinode]
        refine .opened (.reading hlines.tails ?_)
        rw [hnone, List.append_nil]
        exact hlines.texts.symm
  | opened h => exact .opened (h.next start hpath hclean)
  | stopped => exact .stopped

/-- The reader hands a line over. -/
theorem deliver (h : reader.OnGenerations first earlier start path sent) {m : Message}
    (hmessage : reader.message = some m) :
    reader.sent.OnGenerations first earlier start path (sent ++ [some m.line]) ∧
      LinesUpTo first path m.source m.offset (earlier ++ (sent ++ [some m.line])) := by
  cases h with
  | starts hreader => rcases hreader with rfl | rfl <;> cases hmessage
  | opened h =>
      cases h with
      | sending htails hlines =>
          obtain rfl := Option.some.inj hmessage
          rw [List.append_assoc] at hlines
          exact ⟨.opened (.reading htails hlines), hlines ▸ htails.linesUpTo⟩
      | _ => cases hmessage
  | stopped => cases hmessage

theorem write (h : reader.OnGenerations first earlier start path sent) {op : Write}
    (hrename : op = .rename → reader.starts = false) (hwrite : path.write op = some path') :
    reader.OnGenerations first earlier start path' sent := by
  have hext := AlertsPath.extends_of_write hwrite
  cases h with
  | starts hreader hlinked hinode hlines hnone =>
      cases op with
      | append bytes =>
          obtain ⟨-, hwrite⟩ := Option.ite_none_right_eq_some.mp hwrite
          obtain rfl := Option.some.inj hwrite
          exact .starts hreader hlinked hinode (hlines.of_extends hext) hnone
      | rename => rcases hreader with rfl | rfl <;> cases hrename rfl
      | create inode =>
          -- the path names a file still
          obtain ⟨⟨hfree, -⟩, -⟩ := Option.ite_none_right_eq_some.mp hwrite
          exact absurd hlinked (by simp [hfree])
  | opened h => exact .opened (h.of_extends hext)
  | stopped => exact .stopped

end Reader.OnGenerations

theorem pathInv_single {path : AlertsPath} {first : ℕ} (hnew : path.older = [])
    (hsize : first ≤ path.newest.bytes.length)
    (hwhole : Terminated isNewline (path.newest.bytes.drop first))
    (hvalid : none ∉ textLines (path.newest.bytes.drop first)) : PathInv first path := by
  have hfiles : path.files = [path.newest] := by rw [AlertsPath.files, hnew, List.nil_append]
  have hfirst : path.bytes 0 = path.newest.bytes := by simp [AlertsPath.bytes, hfiles]
  have hwritten : path.written first = path.newest.bytes.drop first := by
    simp [AlertsPath.written, hfiles]
  refine ⟨?_, ?_, fun k hk => ?_, ?_, ?_, fun hne => absurd hnew hne⟩
  · rw [hfirst]
    exact hsize
  · rw [hfirst]
    exact hwhole
  · have hnone : path.files[k]? = none := List.getElem?_eq_none (by rw [hfiles]; exact hk)
    rw [AlertsPath.bytes, hnone]
    exact terminated_nil
  · rw [hwritten]
    exact hvalid
  · rw [hnew]
    exact List.not_mem_nil

namespace OnGenerations

variable {first : ℕ} {earlier : List (Option String)} {s s' : System}

theorem initial {path : AlertsPath} (hlinked : path.linked)
    (hinode : start.inode = path.newest.inode) (hpath : PathInv first path)
    (hlines : LinesUpTo first path path.older.length start.offset earlier)
    (mappings : CustomMappings) :
    OnGenerations first earlier start (.initial path start mappings) where
  path := hpath
  started := by
    refine ⟨path.older.length, ?_, hlines⟩
    rw [System.initial, path.getElem?_files_newest, hinode]
    rfl
  reader := .starts (.inl rfl) hlinked hinode hlines rfl
  sent := guarded_nil

theorem write (h : OnGenerations first earlier start s) {op : Write} {path : AlertsPath}
    (hrotates : s.Rotates (.write op)) (hwrite : s.path.write op = some path) :
    OnGenerations first earlier start { s with path := path } := by
  have hext := AlertsPath.extends_of_write hwrite
  refine ⟨h.path.write hrotates.keepsUp hwrite, ?_, h.reader.write ?_ hwrite,
    h.sent.mono fun _ _ hlines => hlines.of_extends hext⟩
  · obtain ⟨file, hfile, hlines⟩ := h.started
    exact ⟨file, (hext.inode hlines.inside).trans hfile, hlines.of_extends hext⟩
  · rintro rfl
    exact hrotates

/-- The reader moves on by itself. -/
theorem read (h : OnGenerations first earlier start s) (hclean : CleanOpen s.path s.reader) :
    OnGenerations first earlier start { s with reader := s.reader.next start s.path } :=
  ⟨h.path, h.started, h.reader.next h.path hclean, h.sent⟩

theorem deliver (h : OnGenerations first earlier start s) {m : Message} {loop : LoopState}
    (hmessage : s.reader.message = some m)
    (hloop : step ext cfg s.loop (.send m) = some loop) :
    OnGenerations first earlier start { s with reader := s.reader.sent, loop := loop } := by
  obtain ⟨hreader, hlines⟩ := h.reader.deliver hmessage
  have hsent := sentMessages_of_send hloop
  have htexts : texts (sentMessages loop.log) =
      texts (sentMessages s.loop.log) ++ [some m.line] := by
    rw [hsent, texts, List.map_append]
    rfl
  refine ⟨h.path, h.started, htexts.symm ▸ hreader, ?_⟩
  dsimp only
  rw [hsent]
  refine guarded_concat.mpr ⟨h.sent, ?_⟩
  rw [← hsent, htexts]
  exact hlines

/-- The reader finds the channel closed. -/
theorem stop (h : OnGenerations first earlier start s) :
    OnGenerations first earlier start { s with reader := .stopped } :=
  ⟨h.path, h.started, .stopped, h.sent⟩

/-- A step of the loop that does not send. -/
theorem onLoop (h : OnGenerations first earlier start s) {a : Action} {loop : LoopState}
    (hloop : WazuhOcsf.step ext cfg s.loop a = some loop) (hsend : ∀ m, a ≠ .send m) :
    OnGenerations first earlier start { s with loop := loop } := by
  have hsent := sentMessages_of_step hloop hsend
  exact ⟨h.path, h.started, hsent.symm ▸ h.reader, hsent.symm ▸ h.sent⟩

theorem step {a : System.Action} (h : OnGenerations first earlier start s)
    (hrotates : s.Rotates a) (hstep : s.step ext cfg start a = some s') :
    OnGenerations first earlier start s' := by
  cases System.moves_of_step ext cfg start hstep with
  | write hwrite => exact h.write hrotates hwrite
  | read => exact h.read hrotates
  | readLast hloop => exact (h.read hrotates).onLoop hloop fun _ heq => nomatch heq
  | deliver hmessage hloop => exact h.deliver hmessage hloop
  | deliverClosed hloop => exact h.stop.onLoop hloop fun _ heq => nomatch heq
  | loop ha hloop => exact h.onLoop hloop fun m heq => by cases ha <;> cases heq
  | save hloop => exact h.onLoop hloop fun _ heq => nomatch heq

/-- The last of some of the messages says where the lines up to it end. -/
theorem linesUpTo (h : OnGenerations first earlier start s) {messages : List Message}
    (hpre : messages <+: sentMessages s.loop.log) : ∃ file,
      LinesUpTo first s.path file ((messages.getLast?.map Message.offset).getD start.offset)
        (earlier ++ texts messages) ∧
      s.path.files[file]?.map AlertsFile.inode =
        (messages.getLast?.elim (some start.inode) fun m =>
          s.path.files[m.source]?.map AlertsFile.inode) := by
  rcases List.eq_nil_or_concat messages with rfl | ⟨before, m, rfl⟩
  · obtain ⟨file, hfile, hlines⟩ := h.started
    exact ⟨file, by simpa [texts] using hlines, hfile⟩
  · rw [List.concat_eq_append] at hpre ⊢
    have hlast := (guarded_concat.mp (h.sent.of_prefix hpre)).2
    exact ⟨m.source, by simpa using hlast, by simp⟩

/-- The lines sent come first among those of all generations. -/
theorem texts_isPrefix (h : OnGenerations first earlier start s) :
    earlier ++ texts (sentMessages s.loop.log) <+: textLines (s.path.written first) := by
  obtain ⟨file, hlines, -⟩ := h.linesUpTo (List.prefix_refl _)
  exact hlines.isPrefix

/-- With the file open the reader has the invariant of the watch. -/
theorem tailInv (h : OnGenerations first [] start s) (hopen : s.reader.tailer.isSome) :
    TailInv first s.watch := by
  obtain ⟨path, reader, loop⟩ := s
  refine ⟨h.path, ?_⟩
  cases h.reader with
  | starts hreader => rcases hreader with rfl | rfl <;> cases hopen
  | opened h => exact h
  | stopped => cases hopen

end OnGenerations

/-! ## Rows -/

/-- What a run over rotations keeps: reader and loop, the rows delivered, and the generations. -/
structure RotatedInv (ext : Externals) (cfg : AppConfig) (first : ℕ)
    (earlier : List (Option String)) (start : TailState) (s : System) : Prop where
  loop : LoopInv ext cfg start.offset s.loop
  delivered : Delivered s.loop
  files : OnGenerations first earlier start s

theorem RotatedInv.step {first : ℕ} {earlier : List (Option String)} {s s' : System}
    {a : System.Action} (h : RotatedInv ext cfg first earlier start s)
    (hkeeps : s.KeepsRotating a) (hstep : s.step ext cfg start a = some s') :
    RotatedInv ext cfg first earlier start s' := by
  have hfiles := h.files.step hkeeps.1 hstep
  have hquiet {a' : Action} {loop : LoopState}
      (hloop : WazuhOcsf.step ext cfg s.loop a' = some loop) (hflush : ∀ env, a' ≠ .flush env) :
      LoopInv ext cfg start.offset loop ∧ Delivered loop :=
    ⟨h.loop.step hloop, h.delivered.step hloop fun env heq => absurd heq (hflush env)⟩
  have hloop : LoopInv ext cfg start.offset s'.loop ∧ Delivered s'.loop := by
    cases System.moves_of_step ext cfg start hstep with
    | write hwrite => exact ⟨h.loop, h.delivered⟩
    | read => exact ⟨h.loop, h.delivered⟩
    | readLast hloop | deliverClosed hloop => exact hquiet hloop fun _ heq => nomatch heq
    | deliver hmessage hloop => exact hquiet hloop fun _ heq => nomatch heq
    | save hloop => exact hquiet hloop fun _ heq => nomatch heq
    | loop ha hloop =>
        refine ⟨h.loop.step hloop, h.delivered.step hloop fun env heq => ?_⟩
        cases ha <;> cases heq
        exact hkeeps.2 env rfl
  exact ⟨hloop.1, hloop.2, hfiles⟩

theorem rotatedInv_of_run {path : AlertsPath} {mappings : CustomMappings} {s : System}
    (hlinked : path.linked) (hnew : path.older = []) (hinode : start.inode = path.newest.inode)
    (hsize : start.offset ≤ path.newest.bytes.length)
    (hwhole : Terminated isNewline (path.newest.bytes.drop start.offset))
    (hvalid : none ∉ textLines (path.newest.bytes.drop start.offset))
    (run : RunWhere (System.step ext cfg start) System.KeepsRotating
      (.initial path start mappings) s) : RotatedInv ext cfg start.offset [] start s := by
  refine run.invariant ⟨loopInv_initial mappings start.offset,
    delivered_initial mappings start.offset, ?_⟩ fun _ _ _ h hkeeps hstep => h.step hkeeps hstep
  exact .initial hlinked hinode (pathInv_single hnew hsize hwhole hvalid) (.none hnew hsize)
    mappings

/-- In every run in which the writer appends whole lines and rotates the file as often as it
likes, the reader opens cleanly and the database accepts what it is given: the lines received
so far come first among the lines of all generations, in order, and ClickHouse and the buffers
together hold exactly their rows, each made under the mapping table in force when its line was
received.  The lines that are still to come the reader sends by itself, and on exit every line
it has sent is in ClickHouse. -/
theorem rows_across_rotations {path : AlertsPath} {mappings : CustomMappings} {s : System}
    (hlinked : path.linked) (hnew : path.older = []) (hinode : start.inode = path.newest.inode)
    (hsize : start.offset ≤ path.newest.bytes.length)
    (hwhole : Terminated isNewline (path.newest.bytes.drop start.offset))
    (hvalid : none ∉ textLines (path.newest.bytes.drop start.offset))
    (run : RunWhere (System.step ext cfg start) System.KeepsRotating
      (.initial path start mappings) s) :
    texts (receivedMessages s.loop.log) <+: textLines (s.path.written start.offset) ∧
      List.Forall₂ (IsRowOf ext) (texts (receivedMessages s.loop.log)) (receptions s.loop.log) ∧
      (∀ r ∈ receptions s.loop.log, r.cfg = cfg) ∧
      (∀ table, accepted table s.loop.log ++ s.loop.batches.rows table =
        (receptions s.loop.log).filterMap fun r => r.rowFor table) ∧
      (s.reader.tailer.isSome → s.path.linked → Completes start start.offset s.watch) ∧
      (s.loop.pc = .exited → (∀ table, s.loop.batches.rows table = []) ∧
        texts (receivedMessages s.loop.log) = texts (sentMessages s.loop.log)) := by
  have h := rotatedInv_of_run hlinked hnew hinode hsize hwhole hvalid run
  have hchannel := h.loop.channel
  refine ⟨?_, h.loop.rowsOf, fun r hr => (h.loop.transformed r hr).1, fun table => ?_,
    fun hopen hlinked => ?_, fun hexit => ⟨h.loop.flushed (.inr hexit), ?_⟩⟩
  · refine List.IsPrefix.trans ?_ h.files.texts_isPrefix
    rw [← hchannel, texts, texts, List.map_append]
    exact List.prefix_append _ _
  · rw [h.delivered table, routed_eq]
  · exact completes (h.files.tailInv hopen) hlinked
  · rw [← hchannel, (h.loop.drained (.inr (.inr hexit))).1, List.append_nil]

/-- The alert is received; the file is rotated, and the same alert is written to the next. -/
def rotatedRun : List System.Action :=
  [.read, .read, .read, .deliver, .recv default, .read, .write .rename, .write (.create 2),
   .write (.append (lineBytes sampleLine)), .read, .read, .read, .read, .deliver,
   .recv default, .flush default]

theorem rotatedRun_keepsRotating :
    EveryStep (System.step sampleExternals sampleConfig ⟨1, 0⟩) System.KeepsRotating
      (.initial samplePath ⟨1, 0⟩ default) rotatedRun := by
  refine EveryStep.and (by decide +kernel) (everyStep_of_forall ?_ _)
  intro a ha s env heq
  subst heq
  obtain rfl : env = default := by simpa [rotatedRun] using ha
  exact fun _ _ => ⟨.inr rfl, rfl⟩

theorem rows_across_rotations_two : ∃ s,
    RunWhere (System.step sampleExternals sampleConfig ⟨1, 0⟩) System.KeepsRotating
        (.initial samplePath ⟨1, 0⟩ default) s ∧
      s.path.older.length = 1 ∧
      List.Forall₂ (IsRowOf sampleExternals) [some sampleLine, some sampleLine]
        (receptions s.loop.log) ∧
      accepted sampleTable s.loop.log ++ s.loop.batches.rows sampleTable =
        (receptions s.loop.log).filterMap fun r => r.rowFor sampleTable := by
  have hend : (exec (System.step sampleExternals sampleConfig ⟨1, 0⟩)
      (.initial samplePath ⟨1, 0⟩ default) rotatedRun).map (fun s => (s.path.older.length,
        texts (receivedMessages s.loop.log))) = some (1, [some sampleLine, some sampleLine]) := by
    decide +kernel
  obtain ⟨s, hexec, hend⟩ := Option.map_eq_some_iff.mp hend
  obtain ⟨hrotated, hreceived⟩ := Prod.mk.inj hend
  have run := runWhere_of_exec hexec rotatedRun_keepsRotating
  obtain ⟨-, hrows, -, htables, -⟩ :=
    rows_across_rotations rfl rfl rfl (Nat.zero_le _) (by decide +kernel) (by decide +kernel) run
  exact ⟨s, run, hrotated, hreceived ▸ hrows, htables sampleTable⟩

end WazuhOcsf
