import WazuhOcsf.Positions

/-!
# Committed offsets

While the file is not rotated the reader counts forward, so the offset `do_flush`
saves is past every line received before: `Reader.Forward` is the invariant.  Whether
the rows of these lines are in ClickHouse is another matter, since a refused insert
drops them and does not hold the offset back.  `saved_offset_committed` is about the
runs in which nothing is refused, `saved_offset_uncommitted` is a run with one
refused insert.
-/

namespace WazuhOcsf

open Lines Transition Trace DbState

variable {ext : Externals} {cfg : AppConfig} {start : TailState}

/-! ## The reader on one file -/

/-- A tailer of the newest file, past everything that was sent. -/
structure TailsPast (path : AlertsPath) (sent : List Message) (t : FileTailer) : Prop where
  file : t.file = path.older.length
  inode : t.inode = path.newest.inode
  counted : t.offset ≤ t.pos
  past : ∀ m ∈ sent, m.offset ≤ t.offset
  size : sent ≠ [] → t.offset ≤ path.newest.bytes.length

namespace TailsPast

variable {path path' : AlertsPath} {sent : List Message} {t : FileTailer}

/-- Just opened, before anything was sent. -/
theorem opened (path : AlertsPath) (offset : ℕ) {inode : ℕ} (hinode : inode = path.newest.inode) :
    TailsPast path [] ⟨path.older.length, offset, offset, inode⟩ where
  file := rfl
  inode := hinode
  counted := le_rfl
  past _ hm := absurd hm List.not_mem_nil
  size hne := absurd rfl hne

/-- Past a line the tailer stands inside the file. -/
theorem advance_offset_le (h : TailsPast path sent t)
    (hends : endsRecord isNewline (t.chunk (path.bytes t.file))) :
    (t.advance (t.chunk (path.bytes t.file)).length).offset ≤ path.newest.bytes.length := by
  have hinside := t.advance_le (FileTailer.pos_le_of_endsRecord hends)
  have hcounted := h.counted
  rw [h.file, path.bytes_newest] at hinside ⊢
  rw [t.advance_offset]
  omega

theorem advance (h : TailsPast path sent t)
    (hends : endsRecord isNewline (t.chunk (path.bytes t.file))) :
    TailsPast path sent (t.advance (t.chunk (path.bytes t.file)).length) where
  file := h.file
  inode := h.inode
  counted := Nat.add_le_add_right h.counted _
  past m hm := (h.past m hm).trans (Nat.le_add_right _ _)
  size _ := h.advance_offset_le hends

end TailsPast

namespace Reader

/-- Where the reader of a file that is not rotated is, and that it goes back to the
start only while it has sent nothing. -/
inductive Forward (path : AlertsPath) (sent : List Message) : Reader → Prop
  | metadata {why : Opening} (hsent : sent = [])
      (hold : ∀ t, why = .rotation t → TailsPast path sent t) : Forward path sent (.metadata why)
  | opening {why : Opening} {inode : ℕ} (hsent : sent = [])
      (hold : ∀ t, why = .rotation t → TailsPast path sent t)
      (hinode : path.linked → inode = path.newest.inode) : Forward path sent (.opening why inode)
  | reading {t : FileTailer} (h : TailsPast path sent t) : Forward path sent (.reading t)
  | sending {t : FileTailer} {line : String} (h : TailsPast path sent t)
      (hsize : t.offset ≤ path.newest.bytes.length) : Forward path sent (.sending t line)
  | checking {t : FileTailer} (h : TailsPast path sent t) : Forward path sent (.checking t)
  | stopped : Forward path sent .stopped

namespace Forward

variable {path path' : AlertsPath} {sent : List Message} {reader : Reader}

theorem opened {why : Opening} {inode : ℕ} (h : Forward path sent (.opening why inode)) :
    Forward path sent ((Reader.opening why inode).next start path) := by
  cases h with
  | opening hsent hold hinode =>
      subst hsent
      by_cases hlinked : path.linked
      · have hfresh (offset : ℕ) := TailsPast.opened path offset (hinode hlinked)
        cases why with
        | start =>
            simp only [Reader.next, path.current_of_linked hlinked]
            split_ifs
            · exact .metadata rfl (by simp)
            · exact .reading (hfresh _)
        | startRotated | rotation old =>
            simp only [Reader.next, path.current_of_linked hlinked]
            exact .reading (hfresh 0)
      · cases why with
        | start =>
            simp only [Reader.next, path.current_of_not_linked hlinked]
            exact .metadata rfl (by simp)
        | startRotated =>
            simp only [Reader.next, path.current_of_not_linked hlinked]
            exact .stopped
        | rotation old =>
            simp only [Reader.next, path.current_of_not_linked hlinked]
            exact .reading (hold old rfl)

theorem next (h : Forward path sent reader) : Forward path sent (reader.next start path) := by
  cases h with
  | metadata hsent hold =>
      refine .opening hsent hold fun hlinked => ?_
      rw [path.current_of_linked hlinked]
      rfl
  | opening hsent hold hinode => exact opened (.opening hsent hold hinode)
  | @reading t h =>
      have hnext := readsTo_next start path t
      generalize (Reader.reading t).next start path = reader at hnext
      cases hnext with
      | eof hchunk => exact .checking h
      | invalid hchunk hdecode =>
          exact .reading ⟨h.file, h.inode, Nat.le_add_right_of_le h.counted, h.past, h.size⟩
      | unfinished text hchunk hdecode hends =>
          exact .checking ⟨h.file, h.inode, le_rfl, h.past, h.size⟩
      | blank text hdecode hends hblank => exact .reading (h.advance hends)
      | line text hdecode hends hblank =>
          exact .sending (h.advance hends) (h.advance_offset_le hends)
  | sending h hsize => exact .sending h hsize
  | @checking t h =>
      by_cases hlinked : path.linked
      · simp only [Reader.next, path.current_of_linked hlinked]
        split_ifs with hchanged
        · -- the inode is the same, and what was sent lies inside the file
          have hshort : path.newest.bytes.length < t.offset :=
            hchanged.resolve_left fun hne => hne h.inode.symm
          have hsent : sent = [] := by
            by_contra hne
            exact absurd (h.size hne) (Nat.not_le.mpr hshort)
          refine .metadata hsent fun t' heq => ?_
          cases heq
          exact h
        · exact .reading h
      · simp only [Reader.next, path.current_of_not_linked hlinked]
        exact .reading h
  | stopped => exact .stopped

/-- A delivered line ends where the tailer stands. -/
theorem sent_message (h : Forward path sent reader) {m : Message}
    (hmessage : reader.message = some m) :
    Forward path (sent ++ [m]) reader.sent ∧ ∀ m' ∈ sent, m'.offset ≤ m.offset := by
  cases h with
  | @sending t line h hsize =>
      obtain rfl := Option.some.inj hmessage
      refine ⟨.reading ⟨h.file, h.inode, h.counted, fun m' hm' => ?_, fun _ => hsize⟩, h.past⟩
      rcases List.mem_append.mp hm' with hm' | hm'
      · exact h.past m' hm'
      · exact (List.mem_singleton.mp hm') ▸ le_rfl
  | _ => simp [message] at hmessage

theorem append (h : Forward path sent reader) (bytes : List UInt8) :
    Forward { path with newest := { path.newest with bytes := path.newest.bytes ++ bytes } }
      sent reader := by
  have hgrown : path.newest.bytes.length ≤ (path.newest.bytes ++ bytes).length :=
    (List.prefix_append _ _).length_le
  have htails {t : FileTailer} (h : TailsPast path sent t) :
      TailsPast { path with newest := { path.newest with bytes := path.newest.bytes ++ bytes } }
        sent t :=
    ⟨h.file, h.inode, h.counted, h.past, fun hne => (h.size hne).trans hgrown⟩
  cases h with
  | metadata hsent hold => exact .metadata hsent fun t heq => htails (hold t heq)
  | opening hsent hold hinode => exact .opening hsent (fun t heq => htails (hold t heq)) hinode
  | reading h => exact .reading (htails h)
  | sending h hsize => exact .sending (htails h) (hsize.trans hgrown)
  | checking h => exact .checking (htails h)
  | stopped => exact .stopped

end Forward

end Reader

/-! ## Runs -/

/-- Nothing but appends happens to the file. -/
def Appending : System.Action → Prop
  | .write (.append _) => True
  | .write _ => False
  | _ => True

/-- The last of the messages received has the largest offset. -/
theorem offset_le_of_isPrefix {received sent : List Message} (hpre : received <+: sent)
    (hsorted : sent.Pairwise fun m m' => m.offset ≤ m'.offset) {m : Message}
    (hm : m ∈ received) (startOffset : ℕ) :
    m.offset ≤ (received.getLast?.map Message.offset).getD startOffset := by
  have hsorted' := hsorted.sublist hpre.sublist
  rcases List.eq_nil_or_concat received with rfl | ⟨before, last, rfl⟩
  · exact absurd hm List.not_mem_nil
  · rw [List.concat_eq_append] at hm hsorted' ⊢
    rw [List.getLast?_concat, Option.map_some, Option.getD_some]
    rcases List.mem_append.mp hm with hm | hm
    · exact (List.pairwise_append.mp hsorted').2.2 m hm last (List.mem_singleton_self last)
    · exact (List.mem_singleton.mp hm) ▸ le_rfl

/-- The reader of a file that is not rotated counts forward, and so do the lines in the
channel. -/
structure ForwardInv (ext : Externals) (cfg : AppConfig) (start : TailState) (s : System) :
    Prop where
  loop : LoopInv ext cfg start.offset s.loop
  reader : s.reader.Forward s.path (sentMessages s.loop.log)
  sorted : (sentMessages s.loop.log).Pairwise fun m m' => m.offset ≤ m'.offset

theorem forwardInv_initial (path : AlertsPath) (mappings : CustomMappings) :
    ForwardInv ext cfg start (.initial path start mappings) where
  loop := loopInv_initial mappings start.offset
  reader := .metadata rfl (by simp)
  sorted := .nil

namespace ForwardInv

variable {s s' : System}

/-- A step of the loop that does not send. -/
theorem onLoop (h : ForwardInv ext cfg start s) {a : Action} {loop : LoopState}
    (hloop : WazuhOcsf.step ext cfg s.loop a = some loop) (hsend : ∀ m, a ≠ .send m) :
    ForwardInv ext cfg start { s with loop := loop } := by
  have hsent := sentMessages_of_step hloop hsend
  constructor
  case loop => exact h.loop.step hloop
  case reader => exact hsent ▸ h.reader
  case sorted => exact hsent ▸ h.sorted

theorem withReader (h : ForwardInv ext cfg start s) {reader : Reader}
    (hreader : reader.Forward s.path (sentMessages s.loop.log)) :
    ForwardInv ext cfg start { s with reader := reader } :=
  ⟨h.loop, hreader, h.sorted⟩

theorem deliver (h : ForwardInv ext cfg start s) {m : Message} {loop : LoopState}
    (hmessage : s.reader.message = some m)
    (hloop : WazuhOcsf.step ext cfg s.loop (.send m) = some loop) :
    ForwardInv ext cfg start { s with reader := s.reader.sent, loop := loop } := by
  obtain ⟨hreader, hlargest⟩ := h.reader.sent_message hmessage
  have hsent := sentMessages_of_send hloop
  constructor
  case loop => exact h.loop.step hloop
  case reader => exact hsent ▸ hreader
  case sorted =>
    rw [hsent]
    refine List.pairwise_append.mpr ⟨h.sorted, List.pairwise_singleton _ _, fun m₁ hm₁ m₂ hm₂ => ?_⟩
    exact List.mem_singleton.mp hm₂ ▸ hlargest m₁ hm₁

theorem step {a : System.Action} (h : ForwardInv ext cfg start s) (happending : Appending a)
    (hstep : s.step ext cfg start a = some s') : ForwardInv ext cfg start s' := by
  cases System.moves_of_step ext cfg start hstep with
  | @write op path hwrite =>
      cases op with
      | append bytes =>
          obtain ⟨-, hwrite⟩ := Option.ite_none_right_eq_some.mp hwrite
          cases hwrite
          exact ⟨h.loop, h.reader.append bytes, h.sorted⟩
      | rename => exact happending.elim
      | create inode => exact happending.elim
  | read => exact h.withReader h.reader.next
  | readLast hloop => exact (h.withReader h.reader.next).onLoop hloop fun _ heq => nomatch heq
  | deliver hmessage hloop => exact h.deliver hmessage hloop
  | deliverClosed hloop => exact (h.withReader .stopped).onLoop hloop fun _ heq => nomatch heq
  | loop ha hloop => exact h.onLoop hloop fun m heq => by cases ha <;> cases heq
  | save hloop => exact h.onLoop hloop fun _ heq => nomatch heq

/-- Every line received so far ends at the offset of the loop or before. -/
theorem offset_le (h : ForwardInv ext cfg start s) {m : Message}
    (hm : m ∈ receivedMessages s.loop.log) : m.offset ≤ s.loop.currentOffset := by
  rw [h.loop.offset]
  exact offset_le_of_isPrefix ⟨s.loop.channel, h.loop.channel⟩ h.sorted hm start.offset

end ForwardInv

/-- The file is not rotated, and the database accepts what it is given. -/
def Committing (s : System) : System.Action → Prop
  | .write (.append _) => True
  | .write _ => False
  | .flush env => AllAccepted env s.loop.db s.loop.batches
  | _ => True

theorem Committing.appending {s : System} {a : System.Action} (h : Committing s a) :
    Appending a := by
  cases a with
  | write op => cases op <;> exact h
  | _ => trivial

/-- What a saved offset promises: every row of a line received before is in
ClickHouse, and the line ends at or before the offset. -/
def SavedGuard (before : List Event) : Event → Prop
  | .saved state _ =>
      (∀ table, accepted table before = routed table before) ∧
        ∀ m ∈ receivedMessages before, m.offset ≤ state.offset
  | _ => True

theorem savedGuard_of_not_saved {e : Event} (he : e.savedState = none) (before : List Event) :
    SavedGuard before e := by
  cases e <;> simp_all [SavedGuard, Event.savedState]

/-- What a run keeps in which the database accepts what it is given: a saved position lies behind
rows that are all in ClickHouse. -/
structure CommitInv (ext : Externals) (cfg : AppConfig) (start : TailState) (s : System) :
    Prop where
  loop : LoopInv ext cfg start.offset s.loop
  delivered : Delivered s.loop
  reader : s.reader.Forward s.path (sentMessages s.loop.log)
  sorted : (sentMessages s.loop.log).Pairwise fun m m' => m.offset ≤ m'.offset
  committed : Guarded SavedGuard s.loop.log

theorem commitInv_initial (path : AlertsPath) (mappings : CustomMappings) :
    CommitInv ext cfg start (.initial path start mappings) where
  __ := forwardInv_initial path mappings
  delivered := delivered_initial mappings start.offset
  committed := guarded_nil

namespace CommitInv

variable {s s' : System}

theorem forward (h : CommitInv ext cfg start s) : ForwardInv ext cfg start s :=
  ⟨h.loop, h.reader, h.sorted⟩

/-- A step of the loop that does not save. -/
theorem onLoop (h : CommitInv ext cfg start s) {a : Action} {loop : LoopState}
    (hloop : WazuhOcsf.step ext cfg s.loop a = some loop)
    (haccepted : ∀ env, a = .flush env → AllAccepted env s.loop.db s.loop.batches)
    (hsave : ∀ inode ok, a ≠ .save inode ok) : Delivered loop ∧ Guarded SavedGuard loop.log :=
  ⟨h.delivered.step hloop haccepted,
    guarded_of_step hloop (fun _ he => savedGuard_of_not_saved he) h.committed hsave⟩

/-- A state is saved when the buffers are empty, so what was routed was accepted. -/
theorem savedGuard (h : CommitInv ext cfg start s) {final : Bool}
    (hpc : s.loop.pc = .saving final) (inode : ℕ) (ok : Bool) :
    SavedGuard s.loop.log (.saved ⟨inode, s.loop.currentOffset⟩ ok) := by
  refine ⟨fun table => ?_, fun m hm => h.forward.offset_le hm⟩
  rw [← h.delivered table, h.loop.flushed (.inl ⟨final, hpc⟩) table, List.append_nil]

theorem save (h : CommitInv ext cfg start s) {inode : ℕ} {ok : Bool} {loop : LoopState}
    (hloop : WazuhOcsf.step ext cfg s.loop (.save inode ok) = some loop) :
    Delivered loop ∧ Guarded SavedGuard loop.log := by
  obtain ⟨⟨final, hpc⟩, hlog⟩ := log_of_save hloop
  constructor
  · exact h.delivered.step hloop fun _ heq => nomatch heq
  · rw [hlog]
    exact guarded_concat.mpr ⟨h.committed, h.savedGuard hpc inode ok⟩

theorem step {a : System.Action} (h : CommitInv ext cfg start s) (hcommitting : Committing s a)
    (hstep : s.step ext cfg start a = some s') : CommitInv ext cfg start s' := by
  have hforward := h.forward.step hcommitting.appending hstep
  have hrows : Delivered s'.loop ∧ Guarded SavedGuard s'.loop.log := by
    cases System.moves_of_step ext cfg start hstep with
    | write hwrite => exact ⟨h.delivered, h.committed⟩
    | read => exact ⟨h.delivered, h.committed⟩
    | readLast hloop | deliverClosed hloop =>
        exact h.onLoop hloop (fun _ heq => nomatch heq) fun _ _ heq => nomatch heq
    | deliver hmessage hloop =>
        exact h.onLoop hloop (fun _ heq => nomatch heq) fun _ _ heq => nomatch heq
    | loop ha hloop =>
        refine h.onLoop hloop (fun env heq => ?_) fun inode ok heq => ?_
        · cases ha <;> cases heq
          exact hcommitting
        · cases ha <;> cases heq
    | save hloop => exact h.save hloop
  exact ⟨hforward.loop, hrows.1, hforward.reader, hforward.sorted, hrows.2⟩

end CommitInv

/-- In every run on a file that is not rotated in which the database accepts what it
is given, a saved offset is past the received lines and all their rows are in
ClickHouse.  The end of a line is the offset it is received with; for UTF-8 text that is
where the line ends in the file (`IngestInv`). -/
theorem saved_offset_committed {path : AlertsPath} {mappings : CustomMappings} {s : System}
    (run : RunWhere (System.step ext cfg start) Committing (.initial path start mappings) s) :
    Guarded SavedGuard s.loop.log := by
  have h : CommitInv ext cfg start s :=
    run.invariant (commitInv_initial path mappings) fun _ _ _ h hcommitting hstep =>
      h.step hcommitting hstep
  exact h.committed

/-- The alert is received, and the timer fires. -/
def sampleFlush (env : FlushEnv) : List System.Action := sampleReceive ++ [.tick, .flush env]

theorem saved_offset_committed_line : ∃ s,
    RunWhere (System.step sampleExternals sampleConfig ⟨1, 0⟩) Committing
        (.initial samplePath ⟨1, 0⟩ default) s ∧
      savedStates s.loop.log = [⟨1, 3⟩] ∧ (routed sampleTable s.loop.log).length = 1 ∧
      Guarded SavedGuard s.loop.log := by
  have hend : (exec (System.step sampleExternals sampleConfig ⟨1, 0⟩)
      (.initial samplePath ⟨1, 0⟩ default) (sampleFlush default ++ [.save true])).map
      (fun s => (savedStates s.loop.log, (routed sampleTable s.loop.log).length)) =
      some ([⟨1, 3⟩], 1) := by
    decide +kernel
  obtain ⟨s, hexec, hend⟩ := Option.map_eq_some_iff.mp hend
  simp only [Prod.mk.injEq] at hend
  have hcommitting : ∀ a ∈ sampleFlush default ++ [.save true], ∀ s, Committing s a := by
    simp only [sampleFlush, sampleReceive, List.cons_append, List.nil_append, List.forall_mem_cons]
    exact ⟨fun _ => trivial, fun _ => trivial, fun _ => trivial, fun _ => trivial, fun _ => trivial,
      fun _ => trivial, fun _ _ _ => ⟨.inr rfl, rfl⟩, fun _ => trivial, fun _ hmem => nomatch hmem⟩
  have run := runWhere_of_exec hexec (everyStep_of_forall hcommitting _)
  exact ⟨s, run, hend.1, hend.2, saved_offset_committed run⟩

/-- ClickHouse refuses the row of the alert, and the offset behind it is saved all
the same. -/
theorem saved_offset_uncommitted : ∃ s before,
    Reachable (System.step sampleExternals sampleConfig ⟨1, 0⟩)
        (.initial samplePath ⟨1, 0⟩ default) s ∧
      s.path = samplePath ∧ s.loop.log = before ++ [.saved ⟨1, 3⟩ true] ∧
      routed sampleTable before ≠ [] ∧ accepted sampleTable before = [] := by
  set env : FlushEnv := { (default : FlushEnv) with insertOk := fun _ => false } with henv
  have hend : (exec (System.step sampleExternals sampleConfig ⟨1, 0⟩)
      (.initial samplePath ⟨1, 0⟩ default) (sampleFlush env)).map
      (fun s => (s.path, s.loop.pc, s.loop.currentOffset, (routed sampleTable s.loop.log).length,
        (accepted sampleTable s.loop.log).length)) =
      some (samplePath, .saving false, 3, 1, 0) := by
    decide +kernel
  obtain ⟨s, hexec, hend⟩ := Option.map_eq_some_iff.mp hend
  simp only [Prod.mk.injEq] at hend
  obtain ⟨hpath, hpc, hoffset, hrouted, haccepted⟩ := hend
  set saved : LoopState := { s.loop with
    db := s.loop.db.record [.saved ⟨1, 3⟩ true]
    pc := .selecting } with hsaved
  have hinode : s.path.current.map AlertsFile.inode = some 1 := by
    rw [hpath]
    rfl
  have hstep : System.step sampleExternals sampleConfig ⟨1, 0⟩ s (.save true) =
      some { s with loop := saved } := by
    simp [System.step, System.onLoop, step, hpc, hoffset, hinode, hsaved]
  refine ⟨{ s with loop := saved }, s.loop.log, .snoc (reachable_of_exec hexec) trivial hstep,
    hpath, rfl, ?_, ?_⟩
  · exact List.ne_nil_of_length_pos (by omega)
  · exact List.length_eq_zero_iff.mp haccepted

end WazuhOcsf
