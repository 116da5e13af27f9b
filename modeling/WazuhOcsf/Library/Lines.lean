import Mathlib.Data.List.Infix

/-!
# Reading delimited records

A stream of symbols, some of which end a record.  `readUntil` is one call of a
buffered reader: everything up to and including the next delimiter, or all there is.
`completeLines` are the records a stream holds so far, delimiters included; an
unfinished last record is not one of them.
-/

namespace Lines

variable {α : Type*} (p : α → Bool)

/-- Up to and including the first delimiter. -/
def readUntil : List α → List α
  | [] => []
  | a :: rest => if p a then [a] else a :: readUntil rest

/-- The chunk ends with a delimiter. -/
def endsRecord (chunk : List α) : Bool := chunk.getLast?.any p

/-- The finished records. -/
def completeLines : List α → List (List α)
  | [] => []
  | a :: rest =>
      if p a then [a] :: completeLines rest
      else match completeLines rest with
        | [] => []
        | line :: lines => (a :: line) :: lines

/-- Nothing is left after the last record. -/
def Terminated (l : List α) : Prop := ∀ a ∈ l.getLast?, p a

instance (l : List α) : Decidable (Terminated p l) :=
  inferInstanceAs (Decidable (∀ a ∈ l.getLast?, p a))

variable {p}

/-! ## Streams of whole records -/

theorem terminated_nil : Terminated p [] := by simp [Terminated]

theorem Terminated.of_append {l m : List α} (h : Terminated p (l ++ m)) : Terminated p m := by
  intro a ha
  refine h a ?_
  rw [Option.mem_def] at ha ⊢
  simp [List.getLast?_append, ha]

theorem Terminated.drop {l : List α} (h : Terminated p l) (n : ℕ) : Terminated p (l.drop n) := by
  rw [← List.take_append_drop n l] at h
  exact h.of_append

theorem Terminated.append {l m : List α} (hl : Terminated p l) (hm : Terminated p m) :
    Terminated p (l ++ m) := by
  intro a ha
  rw [List.getLast?_append, Option.mem_def] at ha
  cases hlast : m.getLast? with
  | none => exact hl a (by simpa [hlast] using ha)
  | some b => exact hm a (by simpa [hlast] using ha)

theorem Terminated.tail {a : α} {rest : List α} (h : Terminated p (a :: rest)) :
    Terminated p rest :=
  Terminated.of_append (l := [a]) h

theorem terminated_flatten {ls : List (List α)} (h : ∀ l ∈ ls, Terminated p l) :
    Terminated p ls.flatten := by
  induction ls with
  | nil => exact terminated_nil
  | cons l rest ih =>
      rw [List.forall_mem_cons] at h
      exact h.1.append (ih h.2)

theorem Terminated.of_endsRecord {chunk : List α} (h : endsRecord p chunk) :
    Terminated p chunk := by
  intro a ha
  rw [Option.mem_def] at ha
  simpa [endsRecord, ha] using h

/-! ## Records of a stream -/

theorem completeLines_eq_nil_iff {l : List α} :
    completeLines p l = [] ↔ ∀ a ∈ l, p a = false := by
  induction l with
  | nil => simp [completeLines]
  | cons a rest ih =>
      cases ha : p a with
      | true => simp [completeLines, ha]
      | false =>
          rw [List.forall_mem_cons, ← ih]
          cases hrest : completeLines p rest <;> simp [completeLines, ha, hrest]

theorem completeLines_ne_nil {l : List α} (h : Terminated p l) (hne : l ≠ []) :
    completeLines p l ≠ [] := by
  intro hnil
  have hlast := h _ (List.getLast?_eq_getLast_of_ne_nil hne)
  rw [completeLines_eq_nil_iff.mp hnil _ (List.getLast_mem hne)] at hlast
  exact Bool.false_ne_true hlast

/-- The records of whole records and more. -/
theorem completeLines_append {l : List α} (h : Terminated p l) (m : List α) :
    completeLines p (l ++ m) = completeLines p l ++ completeLines p m := by
  induction l with
  | nil => rfl
  | cons a rest ih =>
      have hrest := ih h.tail
      cases ha : p a with
      | true => simp [completeLines, ha, hrest]
      | false =>
          have hne : rest ≠ [] := by
            rintro rfl
            simp [Terminated, ha] at h
          obtain ⟨line, lines, hlines⟩ := List.exists_cons_of_ne_nil
            (completeLines_ne_nil h.tail hne)
          rw [hlines] at hrest
          simp [completeLines, ha, hrest, hlines]

/-! ## Reading one record -/

theorem readUntil_isPrefix (l : List α) : readUntil p l <+: l := by
  induction l with
  | nil => exact List.prefix_rfl
  | cons a rest ih =>
      cases ha : p a with
      | true => simp [readUntil, ha]
      | false => simpa [readUntil, ha] using ih

theorem readUntil_append_drop (l : List α) :
    readUntil p l ++ l.drop (readUntil p l).length = l :=
  List.prefix_iff_eq_append.mp (readUntil_isPrefix l)

@[simp] theorem readUntil_readUntil (l : List α) : readUntil p (readUntil p l) = readUntil p l := by
  induction l with
  | nil => rfl
  | cons a rest ih =>
      cases ha : p a with
      | true => simp [readUntil, ha]
      | false => simp [readUntil, ha, ih]

theorem length_readUntil_le (l : List α) : (readUntil p l).length ≤ l.length :=
  (readUntil_isPrefix l).length_le

/-- A chunk has its delimiter at the end. -/
theorem eq_false_of_mem_readUntil {l : List α} {a b : α} (h : readUntil p (l ++ [a]) = l ++ [a])
    (hb : b ∈ l) : p b = false := by
  induction l with
  | nil => exact absurd hb List.not_mem_nil
  | cons c rest ih =>
      cases hc : p c with
      | true => simp [readUntil, hc] at h
      | false =>
          rcases List.mem_cons.mp hb with rfl | hb
          · exact hc
          · exact ih (by simpa [readUntil, hc] using h) hb

/-- A chunk that ends a record is the first one. -/
theorem completeLines_of_endsRecord {l : List α} (h : endsRecord p (readUntil p l)) :
    completeLines p l =
      readUntil p l :: completeLines p (l.drop (readUntil p l).length) := by
  induction l with
  | nil => simp [readUntil, endsRecord] at h
  | cons a rest ih =>
      cases ha : p a with
      | true => simp [readUntil, completeLines, ha]
      | false =>
          have hne : readUntil p rest ≠ [] := by
            intro hnil
            simp [readUntil, endsRecord, ha, hnil] at h
          have hends : endsRecord p (readUntil p rest) := by
            simpa [readUntil, endsRecord, ha, List.getLast?_cons_of_ne_nil hne] using h
          simp [readUntil, completeLines, ha, ih hends]

/-- A chunk that ends a record is one record. -/
theorem completeLines_readUntil {l : List α} (h : endsRecord p (readUntil p l)) :
    completeLines p (readUntil p l) = [readUntil p l] := by
  have hsplit := completeLines_append (.of_endsRecord h) (l.drop (readUntil p l).length)
  rw [readUntil_append_drop, completeLines_of_endsRecord h, ← List.singleton_append] at hsplit
  exact (List.append_cancel_right hsplit).symm

/-- A chunk that ends no record is all there is, and there is no record in it. -/
theorem completeLines_of_not_endsRecord {l : List α} (h : ¬ endsRecord p (readUntil p l)) :
    completeLines p l = [] ∧ readUntil p l = l := by
  induction l with
  | nil => exact ⟨rfl, rfl⟩
  | cons a rest ih =>
      cases ha : p a with
      | true => simp [readUntil, endsRecord, ha] at h
      | false =>
          have hends : ¬ endsRecord p (readUntil p rest) := by
            intro hends
            have hne : readUntil p rest ≠ [] := by
              intro hnil
              simp [hnil, endsRecord] at hends
            exact h (by simpa [readUntil, endsRecord, ha, List.getLast?_cons_of_ne_nil hne] using hends)
          obtain ⟨hlines, hall⟩ := ih hends
          exact ⟨by simp [completeLines, ha, hlines], by simp [readUntil, ha, hall]⟩

/-- Records stay records when the stream goes on. -/
theorem completeLines_isPrefix (l m : List α) : completeLines p l <+: completeLines p (l ++ m) := by
  by_cases hends : endsRecord p (readUntil p l)
  case neg =>
    rw [(completeLines_of_not_endsRecord hends).1]
    exact List.nil_prefix
  case pos =>
    have hshorter : l.length - (readUntil p l).length < l.length := by
      have hne : readUntil p l ≠ [] := by
        intro hnil
        simp [hnil, endsRecord] at hends
      have hpos := List.length_pos_of_ne_nil hne
      have hle := length_readUntil_le (p := p) l
      omega
    have hsplit := completeLines_append (.of_endsRecord hends) (l.drop (readUntil p l).length ++ m)
    rw [← List.append_assoc, readUntil_append_drop, completeLines_readUntil hends] at hsplit
    rw [hsplit, completeLines_of_endsRecord hends, ← List.singleton_append]
    exact (List.prefix_append_right_inj _).mpr (completeLines_isPrefix _ m)
termination_by l.length

/-- After the first `n` records come the others. -/
theorem completeLines_drop (l : List α) (n : ℕ) :
    completeLines p (l.drop ((completeLines p l).take n).flatten.length) =
      (completeLines p l).drop n := by
  induction n generalizing l with
  | zero => rfl
  | succ n ih =>
      by_cases hends : endsRecord p (readUntil p l)
      · rw [completeLines_of_endsRecord hends, List.take_succ_cons, List.flatten_cons,
          List.length_append, ← List.drop_drop, ih, List.drop_succ_cons]
      · simp [(completeLines_of_not_endsRecord hends).1]

/-- The first records are whole records at the front of the stream. -/
theorem flatten_take_completeLines (l : List α) (n : ℕ) :
    ((completeLines p l).take n).flatten <+: l ∧
      Terminated p ((completeLines p l).take n).flatten := by
  induction n generalizing l with
  | zero => exact ⟨List.nil_prefix, terminated_nil⟩
  | succ n ih =>
      by_cases hends : endsRecord p (readUntil p l)
      · obtain ⟨hpre, hterminated⟩ := ih (l.drop (readUntil p l).length)
        rw [completeLines_of_endsRecord hends, List.take_succ_cons, List.flatten_cons]
        refine ⟨?_, (Terminated.of_endsRecord hends).append hterminated⟩
        conv_rhs => rw [← readUntil_append_drop (p := p) l]
        exact (List.prefix_append_right_inj _).mpr hpre
      · simp [(completeLines_of_not_endsRecord hends).1, terminated_nil]

/-- Of whole records, a chunk is a record. -/
theorem Terminated.endsRecord_readUntil {l : List α} (h : Terminated p l) (hne : l ≠ []) :
    endsRecord p (readUntil p l) := by
  by_contra hends
  exact completeLines_ne_nil h hne (completeLines_of_not_endsRecord hends).1

end Lines
