import Mathlib.Data.List.Forall2
import WazuhOcsf.Input.Drain
import WazuhOcsf.Library.Runs
import WazuhOcsf.Library.Utf8

/-!
# What `next_line` returns

One tailer and a file that grows between its calls.  As long as every chunk the tailer
reads is text, it returns the lines of the file one after the other, each once and
whole, and stands where it counts: `TailingInv`, which `TailingInv.call` carries over a
call.  Text that is cut anywhere between two characters is read that way
(`tailing_exact`).  A chunk that is no text is consumed and not counted, and from then
on the tailer does not stand where it counts (`failed_read_consistent`,
`failed_read_inconsistent`).
-/

namespace WazuhOcsf

open Lines RustString Transition Utf8

/-! ## The text of a line -/

/-- The line is the text, any number of carriage returns and the newline. -/
def IsLine (segment : List UInt8) (text : String) : Prop :=
  (∃ n, segment = encode text.toList ++ (List.replicate n 13 ++ [10])) ∧
    text.toList.getLast? ≠ some '\r'

/-- A finished line that is text is the newline after text without one. -/
theorem exists_body {segment : List UInt8} {raw : String}
    (hread : readUntil isNewline segment = segment) (hends : endsRecord isNewline segment)
    (hdecode : String.fromUTF8? ⟨segment.toArray⟩ = some raw) :
    ∃ body, raw.toList = body ++ ['\n'] ∧ '\n' ∉ body ∧ segment = encode body ++ [10] := by
  have hbytes := eq_encode_of_fromUTF8 hdecode
  rcases List.eq_nil_or_concat raw.toList with hnil | ⟨body, c, hraw⟩
  · rw [hnil, encode_nil] at hbytes
    simp [hbytes, endsRecord] at hends
  · rw [List.concat_eq_append] at hraw
    have hsegment : segment = encode body ++ String.utf8EncodeChar c := by
      rw [hbytes, hraw, encode_append, encode_cons, encode_nil, List.append_nil]
    have hlast : 10 ∈ String.utf8EncodeChar c := by
      obtain ⟨b, hb, hnewline⟩ := Option.any_eq_true _ _ |>.mp hends
      have hb10 : b = 10 := of_decide_eq_true hnewline
      rw [hsegment, List.getLast?_append_of_ne_nil _ String.utf8EncodeChar_ne_nil] at hb
      exact hb10 ▸ List.mem_of_getLast? hb
    have hchar : String.utf8EncodeChar c = [10] := utf8EncodeChar_eq_singleton hlast (by decide)
    have hc : [c] = ['\n'] := encode_injective (by
      rw [encode_cons, encode_cons, hchar]
      decide)
    obtain rfl := List.singleton_inj.mp hc
    rw [hchar] at hsegment
    refine ⟨body, hraw, fun hmem => ?_, hsegment⟩
    have hnewline : (10 : UInt8) ∈ encode body :=
      List.mem_flatMap.mpr ⟨'\n', hmem, by decide⟩
    exact Bool.false_ne_true
      (eq_false_of_mem_readUntil (hsegment ▸ hread) hnewline).symm

/-- What is returned for a finished line. -/
theorem isLine_of_decodeLine {segment : List UInt8} {text : String}
    (hread : readUntil isNewline segment = segment) (hends : endsRecord isNewline segment)
    (hdecode : decodeLine segment = some text) : IsLine segment text := by
  obtain ⟨raw, hraw, rfl⟩ := Option.map_eq_some_iff.mp hdecode
  obtain ⟨body, hbody, hnewline, hsegment⟩ := exists_body hread hends hraw
  have htrim : trimEndMatches '\n' raw = .ofList body := by
    have hself : body.rdropWhile (· == '\n') = body := by
      refine List.rdropWhile_eq_self_iff.mpr fun hne heq => hnewline ?_
      exact beq_iff_eq.mp heq ▸ List.getLast_mem hne
    rw [trimEndMatches, hbody, List.rdropWhile_concat_pos _ _ _ (by simp), hself]
  have htext : (trimEndMatches '\r' (trimEndMatches '\n' raw)).toList =
      body.rdropWhile (· == '\r') := by
    rw [htrim, trimEndMatches, String.toList_ofList, String.toList_ofList]
  have hreturns : body.rtakeWhile (· == '\r') =
      List.replicate (body.rtakeWhile (· == '\r')).length '\r' := by
    refine List.eq_replicate_length.mpr fun c hc => ?_
    have hreturn := List.mem_rtakeWhile_imp hc
    exact beq_iff_eq.mp hreturn
  refine ⟨⟨(body.rtakeWhile (· == '\r')).length, ?_⟩, ?_⟩
  · rw [htext, ← List.append_assoc, ← encode_replicate_ascii (c := '\r') (by decide), ← hreturns,
      ← encode_append, List.rdropWhile_append_rtakeWhile]
    exact hsegment
  · rw [htext]
    intro hlast
    have hne : body.rdropWhile (· == '\r') ≠ [] := by
      rintro hnil
      simp [hnil] at hlast
    refine List.rdropWhile_last_not _ _ hne ?_
    rw [List.getLast?_eq_getLast_of_ne_nil hne, Option.some.injEq] at hlast
    simp [hlast]

theorem decodeLine_ne_none_iff {chunk : List UInt8} : decodeLine chunk ≠ none ↔ Valid chunk := by
  rw [valid_iff, decodeLine, ne_eq, Option.map_eq_none_iff, ← ne_eq, Option.ne_none_iff_isSome]

/-- Text may be cut after a line. -/
theorem valid_of_terminated {first second : List UInt8} (h : Valid (first ++ second))
    (hterminated : Terminated isNewline first) : Valid first ∧ Valid second := by
  cases hlast : first.getLast? with
  | none =>
      rw [List.getLast?_eq_none_iff] at hlast
      subst hlast
      exact ⟨⟨[], rfl⟩, h⟩
  | some b =>
      have hnewline : b = 10 := of_decide_eq_true (hterminated b hlast)
      exact h.of_append hlast (hnewline ▸ by decide)

/-! ## Appends and calls -/

/-- A tailer, its file, and the lines its calls returned with the offset after each. -/
structure Tailing where
  bytes : List UInt8
  tailer : FileTailer
  returned : List (String × ℕ)
  deriving DecidableEq

namespace Tailing

/-- One append of the log writer, or one call of `next_line`. -/
inductive Action
  | append (chunk : List UInt8)
  | nextLine

/-- Just opened at an offset. -/
def opened (bytes : List UInt8) (start : ℕ) : Tailing where
  bytes := bytes
  tailer := ⟨0, start, start, 0⟩
  returned := []

/-- Both are always possible. -/
def step (s : Tailing) : Action → Option Tailing
  | .append chunk => some { s with bytes := s.bytes ++ chunk }
  | .nextLine =>
      some (match s.tailer.nextLine s.bytes with
        | (t, .line text) => { s with tailer := t, returned := s.returned ++ [(text, t.offset)] }
        | (t, .eof) | (t, .error) => { s with tailer := t })

/-- The finished lines of the file from an offset on. -/
def segments (s : Tailing) (start : ℕ) : List (List UInt8) :=
  completeLines isNewline (s.bytes.drop start)

/-- What the next call reads. -/
def chunk (s : Tailing) : List UInt8 := s.tailer.chunk s.bytes

end Tailing

/-- The calls returned the first lines from `start` on, each once and whole and with the
offset at its end, and the tailer stands behind the last of them, where it counts. -/
structure ReturnsLines (start : ℕ) (s : Tailing) : Prop where
  counted : s.tailer.pos = s.tailer.offset
  offset : s.tailer.offset = start + ((s.segments start).take s.returned.length).flatten.length
  texts : List.Forall₂ IsLine ((s.segments start).take s.returned.length)
    (s.returned.map Prod.fst)
  ends : s.returned.map Prod.snd = (List.range s.returned.length).map fun i =>
    start + ((s.segments start).take (i + 1)).flatten.length

namespace ReturnsLines

variable {start : ℕ} {s : Tailing}

theorem opened (bytes : List UInt8) (start : ℕ) : ReturnsLines start (.opened bytes start) where
  counted := rfl
  offset := rfl
  texts := .nil
  ends := rfl

theorem length_le (h : ReturnsLines start s) : s.returned.length ≤ (s.segments start).length := by
  have hlength := h.texts.length_eq
  rw [List.length_take, List.length_map] at hlength
  omega

/-- What is left to read. -/
theorem drop_pos (h : ReturnsLines start s) : s.bytes.drop s.tailer.pos =
    (s.bytes.drop start).drop ((s.segments start).take s.returned.length).flatten.length := by
  rw [List.drop_drop, h.counted, h.offset]

theorem completeLines_unread (h : ReturnsLines start s) :
    completeLines isNewline (s.bytes.drop s.tailer.pos) =
      (s.segments start).drop s.returned.length := by
  rw [h.drop_pos]
  exact completeLines_drop _ _

/-- What was returned stays right when the file grows. -/
theorem append (h : ReturnsLines start s) (chunk : List UInt8) :
    ReturnsLines start { s with bytes := s.bytes ++ chunk } := by
  have hgrown : s.segments start <+:
      Tailing.segments { s with bytes := s.bytes ++ chunk } start := by
    obtain ⟨more, hmore⟩ : s.bytes.drop start <+: (s.bytes ++ chunk).drop start :=
      (List.prefix_append _ _).drop _
    rw [Tailing.segments, Tailing.segments, ← hmore]
    exact completeLines_isPrefix _ _
  have htake : ∀ n ≤ s.returned.length,
      (Tailing.segments { s with bytes := s.bytes ++ chunk } start).take n =
        (s.segments start).take n := by
    intro n hn
    obtain ⟨more, hmore⟩ := hgrown
    rw [← hmore, List.take_append_of_le_length (hn.trans h.length_le)]
  constructor
  case counted => exact h.counted
  case offset => rw [htake _ le_rfl]; exact h.offset
  case texts => rw [htake _ le_rfl]; exact h.texts
  case ends =>
    rw [h.ends]
    refine List.map_congr_left fun i hi => ?_
    rw [htake _ (List.mem_range.mp hi)]

/-- A call that reads text returns the next line, or nothing when there is none. -/
theorem nextLine_eq (h : ReturnsLines start s) (htext : Valid s.chunk) :
    (∃ segment text, (s.segments start)[s.returned.length]? = some segment ∧
      IsLine segment text ∧
      s.tailer.nextLine s.bytes = (s.tailer.advance segment.length, .line text)) ∨
    ((s.segments start).length = s.returned.length ∧
      s.tailer.nextLine s.bytes = (s.tailer, .eof)) := by
  have hunread := h.completeLines_unread
  obtain ⟨text, hdecode⟩ := Option.ne_none_iff_exists'.mp (decodeLine_ne_none_iff.mpr htext)
  rw [Tailing.chunk] at hdecode
  by_cases hends : endsRecord isNewline (s.tailer.chunk s.bytes)
  · rw [FileTailer.chunk] at hends
    rw [completeLines_of_endsRecord hends] at hunread
    refine .inl ⟨s.tailer.chunk s.bytes, text, ?_, ?_, ?_⟩
    · rw [← List.head?_drop, ← hunread]
      rfl
    · exact isLine_of_decodeLine (readUntil_readUntil _) hends hdecode
    · have hne : s.tailer.chunk s.bytes ≠ [] := by
        intro hnil
        rw [← FileTailer.chunk, hnil] at hends
        simp [endsRecord] at hends
      rw [← FileTailer.chunk] at hends
      simp [FileTailer.nextLine, hne, hdecode, hends]
  · rw [(completeLines_of_not_endsRecord hends).1] at hunread
    refine .inr ⟨le_antisymm (List.drop_eq_nil_iff.mp hunread.symm) h.length_le, ?_⟩
    by_cases hnil : s.tailer.chunk s.bytes = []
    · simp [FileTailer.nextLine, hnil]
    · -- the unfinished line is given back
      have hback : ({ s.tailer with pos := s.tailer.offset } : FileTailer) = s.tailer := by
        rw [← h.counted]
      simp [FileTailer.nextLine, hnil, hdecode, hends, hback]

theorem nextLine (h : ReturnsLines start s) (htext : Valid s.chunk) {s' : Tailing}
    (hstep : s.step .nextLine = some s') : ReturnsLines start s' := by
  obtain ⟨segment, text, hsegment, hline, hnext⟩ | ⟨-, hnext⟩ := h.nextLine_eq htext
  · simp only [Tailing.step, hnext, Option.some.injEq] at hstep
    subst hstep
    have htake : (s.segments start).take (s.returned.length + 1) =
        (s.segments start).take s.returned.length ++ [segment] := by
      rw [List.take_add_one, hsegment]
      rfl
    have hend : (s.tailer.advance segment.length).offset =
        start + ((s.segments start).take (s.returned.length + 1)).flatten.length := by
      rw [htake, FileTailer.advance_offset, h.offset]
      simp [Nat.add_assoc]
    constructor
    case counted => simp [h.counted]
    case offset =>
      rw [List.length_append]
      exact hend
    case texts =>
      rw [List.length_append, List.map_append]
      show List.Forall₂ IsLine ((s.segments start).take (s.returned.length + 1)) _
      rw [htake]
      exact List.rel_append h.texts (.cons hline .nil)
    case ends =>
      rw [List.map_append, List.length_append, h.ends, List.length_singleton, List.range_succ,
        List.map_append]
      exact congrArg _ (congrArg (fun end_ => [end_]) hend)
  · simp only [Tailing.step, hnext, Option.some.injEq] at hstep
    exact hstep ▸ h

/-- From text the tailer reads text. -/
theorem valid_chunk (h : ReturnsLines start s) (htext : Valid (s.bytes.drop start)) :
    Valid s.chunk := by
  obtain ⟨hpre, hterminated⟩ := flatten_take_completeLines (p := isNewline)
    (s.bytes.drop start) s.returned.length
  have hunread : Valid (s.bytes.drop s.tailer.pos) := by
    rw [← List.prefix_iff_eq_append.mp hpre] at htext
    rw [h.drop_pos]
    exact (valid_of_terminated htext hterminated).2
  rw [Tailing.chunk, FileTailer.chunk]
  by_cases hends : endsRecord isNewline (readUntil isNewline (s.bytes.drop s.tailer.pos))
  · rw [← readUntil_append_drop (p := isNewline) (s.bytes.drop s.tailer.pos)] at hunread
    exact (valid_of_terminated hunread (.of_endsRecord hends)).1
  · rw [(completeLines_of_not_endsRecord hends).2]
    exact hunread

end ReturnsLines

/-! ## Text in chunks -/

/-- What follows the start offset ends between two characters after every append. -/
def TextArrives (start : ℕ) (s : Tailing) : Tailing.Action → Prop
  | .append chunk => Valid ((s.bytes ++ chunk).drop start)
  | .nextLine => True

instance (start : ℕ) (s : Tailing) : (a : Tailing.Action) → Decidable (TextArrives start s a)
  | .append chunk => inferInstanceAs (Decidable (Valid ((s.bytes ++ chunk).drop start)))
  | .nextLine => .isTrue trivial

/-- From text that arrives in any chunks, `next_line` returns the lines after the start
offset in order, each once and whole; between lines it returns nothing and stays where
it is. -/
theorem tailing_exact {bytes : List UInt8} {start : ℕ} (htext : Valid (bytes.drop start))
    {s : Tailing} (run : RunWhere Tailing.step (TextArrives start) (.opened bytes start) s) :
    ReturnsLines start s ∧
    ((∃ segment text, (s.segments start)[s.returned.length]? = some segment ∧
        IsLine segment text ∧
        s.tailer.nextLine s.bytes = (s.tailer.advance segment.length, .line text)) ∨
      ((s.segments start).length = s.returned.length ∧
        s.tailer.nextLine s.bytes = (s.tailer, .eof))) := by
  obtain ⟨h, hvalid⟩ : ReturnsLines start s ∧ Valid (s.bytes.drop start) := by
    refine run.invariant (I := fun s => ReturnsLines start s ∧ Valid (s.bytes.drop start))
      ⟨.opened bytes start, htext⟩ fun s a s' ⟨h, hvalid⟩ harrives hstep => ?_
    cases a with
    | append chunk =>
        obtain rfl := Option.some.inj hstep
        exact ⟨h.append chunk, harrives⟩
    | nextLine =>
        refine ⟨h.nextLine (h.valid_chunk hvalid) hstep, ?_⟩
        have hbytes : s'.bytes = s.bytes := by
          obtain rfl := Option.some.inj hstep
          split <;> rfl
        exact hbytes ▸ hvalid
  exact ⟨h, h.nextLine_eq (h.valid_chunk hvalid)⟩

/-- A line, and an unfinished one that is finished later. -/
def sampleCalls : List Tailing.Action :=
  [.nextLine, .nextLine, .append "c\n".toUTF8.data.toList, .nextLine]

theorem tailing_exact_two : ∃ s,
    RunWhere Tailing.step (TextArrives 0) (.opened "a\r\nb".toUTF8.data.toList 0) s ∧
      s.returned = [("a", 3), ("bc", 6)] ∧ ReturnsLines 0 s := by
  have hend : (exec Tailing.step (.opened "a\r\nb".toUTF8.data.toList 0) sampleCalls).map
      Tailing.returned = some [("a", 3), ("bc", 6)] := by
    decide +kernel
  obtain ⟨s, hexec, hreturned⟩ := Option.map_eq_some_iff.mp hend
  have run : RunWhere Tailing.step (TextArrives 0) (.opened "a\r\nb".toUTF8.data.toList 0) s :=
    runWhere_of_exec hexec (by decide +kernel)
  exact ⟨s, run, hreturned, (tailing_exact (by decide +kernel) run).1⟩

/-! ## A failed read -/

/-- What a call reads is text. -/
def ReadsUtf8 (s : Tailing) : Tailing.Action → Prop
  | .append _ => True
  | .nextLine => Valid s.chunk

instance (s : Tailing) : (a : Tailing.Action) → Decidable (ReadsUtf8 s a)
  | .append _ => .isTrue trivial
  | .nextLine => inferInstanceAs (Decidable (Valid s.chunk))

/-- After a call on a counted position the tailer stands where it counts exactly if the
call read text. -/
theorem nextLine_counted_iff {s : Tailing} (hcounted : s.tailer.pos = s.tailer.offset) :
    (s.tailer.nextLine s.bytes).1.pos = (s.tailer.nextLine s.bytes).1.offset ↔ Valid s.chunk := by
  rw [← decodeLine_ne_none_iff, FileTailer.nextLine, Tailing.chunk]
  by_cases hnil : s.tailer.chunk s.bytes = []
  · have hempty : decodeLine [] ≠ none := decodeLine_ne_none_iff.mpr ⟨[], rfl⟩
    simp [hnil, hcounted, hempty]
  · cases hdecode : decodeLine (s.tailer.chunk s.bytes) with
    | none => simp [hnil, hcounted]
    | some text =>
        by_cases hends : endsRecord isNewline (s.tailer.chunk s.bytes) <;>
          simp [hnil, hends, hcounted]

/-- In every run whose calls read text, whatever the bytes around it, the lines are
returned with their true ends and the tailer stands where it counts; the first call that
reads anything else puts it somewhere else. -/
theorem failed_read_consistent {bytes : List UInt8} {start : ℕ} {s : Tailing}
    (run : RunWhere Tailing.step ReadsUtf8 (.opened bytes start) s) :
    ReturnsLines start s ∧
      ((s.tailer.nextLine s.bytes).1.pos = (s.tailer.nextLine s.bytes).1.offset ↔
        Valid s.chunk) := by
  have h : ReturnsLines start s := by
    refine run.invariant (.opened bytes start) fun s a s' h hreads hstep => ?_
    cases a with
    | append chunk =>
        obtain rfl := Option.some.inj hstep
        exact h.append chunk
    | nextLine => exact h.nextLine hreads hstep
  exact ⟨h, nextLine_counted_iff h.counted⟩

theorem failed_read_consistent_line : ∃ s,
    RunWhere Tailing.step ReadsUtf8 (.opened "a\n".toUTF8.data.toList 0) s ∧
      s.returned = [("a", 2)] ∧ ReturnsLines 0 s := by
  have hend : (exec Tailing.step (.opened "a\n".toUTF8.data.toList 0) [.nextLine]).map
      Tailing.returned = some [("a", 2)] := by
    decide +kernel
  obtain ⟨s, hexec, hreturned⟩ := Option.map_eq_some_iff.mp hend
  have run : RunWhere Tailing.step ReadsUtf8 (.opened "a\n".toUTF8.data.toList 0) s :=
    runWhere_of_exec hexec (by decide +kernel)
  exact ⟨s, run, hreturned, (failed_read_consistent run).1⟩

/-- A byte that is no text, and later the rest of its line. -/
def brokenLine : List Tailing.Action :=
  [.append [120, 255], .nextLine, .append "rest\n".toUTF8.data.toList, .nextLine]

/-- The rest of the broken line is returned as a line, and its offset is two bytes short:
the file has one line, which ends at byte 7. -/
theorem failed_read_inconsistent : ∃ s,
    Reachable Tailing.step (.opened [] 0) s ∧ s.returned = [("rest", 5)] ∧
      (s.segments 0).map List.length = [7] ∧ s.tailer.pos = 7 ∧ s.tailer.offset = 5 := by
  have hend : (exec Tailing.step (.opened [] 0) brokenLine).map
      (fun s => (s.returned, (s.segments 0).map List.length, s.tailer.pos, s.tailer.offset)) =
      some ([("rest", 5)], [7], 7, 5) := by
    decide +kernel
  obtain ⟨s, hexec, hend⟩ := Option.map_eq_some_iff.mp hend
  simp only [Prod.mk.injEq] at hend
  exact ⟨s, reachable_of_exec hexec, hend⟩

end WazuhOcsf
