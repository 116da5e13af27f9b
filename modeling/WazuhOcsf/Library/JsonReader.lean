import WazuhOcsf.Library.JsonAddress
import WazuhOcsf.Library.RustString

/-!
# Reading the compact writer back

The compact text of a value determines it (`Value.toJson_injective`): a string ends at
its first unescaped quote, a number where its characters do, and a container at the
bracket that follows its last item, so a value can be cut off whatever text it starts.
-/

namespace Json

open RustString (isDigit_of_mem_repr repr_injective repr_ne_empty)

/-- The value of a lower-case hexadecimal digit. -/
def hexValue (c : Char) : ℕ := if c.isDigit then c.toNat - 48 else c.toNat - 87

/-- One character of a string body, escapes resolved. -/
def readChar : List Char → Option (Char × List Char)
  | '\\' :: 'n' :: rest => some ('\n', rest)
  | '\\' :: 'r' :: rest => some ('\r', rest)
  | '\\' :: 't' :: rest => some ('\t', rest)
  | '\\' :: 'b' :: rest => some (.ofNat 0x08, rest)
  | '\\' :: 'f' :: rest => some (.ofNat 0x0C, rest)
  | '\\' :: 'u' :: '0' :: '0' :: high :: low :: rest =>
      some (.ofNat (hexValue high * 16 + hexValue low), rest)
  | '\\' :: c :: rest => some (c, rest)
  | c :: rest => some (c, rest)
  | [] => none

theorem readChar_control (n : ℕ) (hn : n < 0x20) (rest : List Char) :
    readChar (['\\', 'u', '0', '0', hexDigit (n / 16), hexDigit (n % 16)] ++ rest) =
      some (.ofNat n, rest) := by
  have hvalue : ∀ n < 0x20,
      hexValue (hexDigit (n / 16)) * 16 + hexValue (hexDigit (n % 16)) = n := by
    decide
  simp only [List.cons_append, List.nil_append, readChar, hvalue n hn]

theorem readChar_escapeChar (c : Char) (rest : List Char) :
    readChar (escapeChar c ++ rest) = some (c, rest) := by
  unfold escapeChar
  split_ifs with hquote hslash hnewline hreturn htab hback hfeed hcontrol
  · rw [hquote]; rfl
  · rw [hslash]; rfl
  · rw [hnewline]; rfl
  · rw [hreturn]; rfl
  · rw [htab]; rfl
  · rw [← Char.ofNat_toNat c, hback]; rfl
  · rw [← Char.ofNat_toNat c, hfeed]; rfl
  · rw [readChar_control _ hcontrol, Char.ofNat_toNat]
  · simp [readChar, hslash]

theorem escapeChar_ne_quote (c : Char) (rest tail : List Char) :
    escapeChar c ++ rest ≠ '"' :: tail := by
  intro h
  have hread := readChar_escapeChar c rest
  rw [h] at hread
  obtain ⟨rfl, -⟩ : '"' = c ∧ tail = rest := by simpa [readChar] using hread
  exact absurd h (by simp [escapeChar])

/-- A string body ends at its first unescaped quote. -/
theorem body_injective {s t rest tail : List Char}
    (h : s.flatMap escapeChar ++ '"' :: rest = t.flatMap escapeChar ++ '"' :: tail) :
    s = t ∧ rest = tail := by
  induction s generalizing t with
  | nil =>
      cases t with
      | nil => simpa using h
      | cons c t =>
          rw [List.flatMap_cons, List.append_assoc] at h
          exact absurd h.symm (escapeChar_ne_quote c _ _)
  | cons c s ih =>
      rw [List.flatMap_cons, List.append_assoc] at h
      cases t with
      | nil => exact absurd h (escapeChar_ne_quote c _ _)
      | cons d t =>
          rw [List.flatMap_cons, List.append_assoc] at h
          have hread := congrArg readChar h
          rw [readChar_escapeChar, readChar_escapeChar, Option.some.injEq, Prod.mk.injEq] at hread
          obtain ⟨rfl, hrest⟩ := hread
          obtain ⟨rfl, rfl⟩ := ih hrest
          exact ⟨rfl, rfl⟩

theorem quote_injective {s t : String} {rest tail : List Char}
    (h : quote s ++ rest = quote t ++ tail) : s = t ∧ rest = tail := by
  simp only [quote, List.cons_append, List.append_assoc, List.cons.injEq, true_and,
    List.nil_append] at h
  obtain ⟨hchars, hrest⟩ := body_injective h
  exact ⟨String.toList_injective hchars, hrest⟩

/-! ## Numbers -/

/-- A character of a printed number. -/
def IsNumberChar (c : Char) : Prop := c.isDigit ∨ c = '-' ∨ c = '+' ∨ c = '.' ∨ c = 'e'

instance : DecidablePred IsNumberChar := fun c => by unfold IsNumberChar; infer_instance

namespace Number

theorem isNumberChar_of_mem {n : Number} {c : Char} (hc : c ∈ n.toString.toList) :
    IsNumberChar c := by
  cases n with
  | posInt n => exact .inl (isDigit_of_mem_repr hc)
  | negInt n =>
      rw [toString, String.toList_append, List.mem_append] at hc
      rcases hc with hsign | hdigit
      · exact .inr (.inl (List.mem_singleton.mp hsign))
      · exact .inl (isDigit_of_mem_repr hdigit)
  | float text => exact text.property.1 c hc

theorem toString_ne_empty (n : Number) : n.toString.toList ≠ [] := by
  cases n with
  | posInt n => exact repr_ne_empty n.toNat
  | negInt n => simp [toString]
  | float text =>
      intro hempty
      have hmark := text.property.2
      rw [toString] at hempty
      simp [hempty] at hmark

/-- A minus sign starts a negative integer, and a point or an exponent is in no
integer. -/
theorem toString_injective {m n : Number} (h : m.toString = n.toString) : m = n := by
  have hsigned (k : ℕ) (l : Fin (2 ^ 63)) : (k.repr : String) ≠ "-" ++ (l.val + 1).repr := by
    intro heq
    have hsign : '-' ∈ k.repr.toList := by rw [heq, String.toList_append]; simp
    exact absurd (isDigit_of_mem_repr hsign) (by decide)
  have hmark (n : Number) (text : { text : String // IsFloatText text }) :
      n.toString = text.val → n = .float text := by
    intro heq
    have hchar : ∃ c ∈ n.toString.toList, c = '.' ∨ c = 'e' := by
      rw [heq]
      exact text.property.2.elim (fun hmem => ⟨_, hmem, .inl rfl⟩) fun hmem => ⟨_, hmem, .inr rfl⟩
    obtain ⟨c, hmem, hc⟩ := hchar
    have hdigit : ¬ c.isDigit ∧ c ≠ '-' := by rcases hc with rfl | rfl <;> decide
    cases n with
    | posInt n => exact absurd (isDigit_of_mem_repr hmem) hdigit.1
    | negInt n =>
        rw [toString, String.toList_append, List.mem_append] at hmem
        rcases hmem with hsign | hrepr
        · exact absurd (List.mem_singleton.mp hsign) hdigit.2
        · exact absurd (isDigit_of_mem_repr hrepr) hdigit.1
    | float other => rw [Subtype.ext heq]
  cases m with
  | posInt m =>
      cases n with
      | posInt n => rw [BitVec.eq_of_toNat_eq (repr_injective h)]
      | negInt n => exact absurd h (hsigned _ n)
      | float text => exact hmark _ text h
  | negInt m =>
      cases n with
      | posInt n => exact absurd h.symm (hsigned _ m)
      | negInt n =>
          have hrepr := repr_injective (String.append_right_inj _ |>.mp h)
          rw [Fin.ext (Nat.succ_injective hrepr)]
      | float text => exact hmark _ text h
  | float text => exact (hmark _ text h.symm).symm

end Number

/-! ## Every value -/

/-- What may follow a value: the end, a comma or a closing bracket. -/
def Delimited (rest : List Char) : Prop := ∀ c ∈ rest.head?, c = ',' ∨ c = ']' ∨ c = '}'

/-- What kind of value starts with a character. -/
def kindOf (c : Char) : ℕ :=
  if c = 'n' then 0
  else if c = 't' ∨ c = 'f' then 1
  else if c = '"' then 3
  else if c = '[' then 4
  else if c = '{' then 5
  else 2

/-- The kind of a value, as its text shows it. -/
def Value.kind : Value → ℕ
  | .null => 0
  | .bool _ => 1
  | .number _ => 2
  | .string _ => 3
  | .array _ => 4
  | .object _ => 5

theorem kindOf_of_isNumberChar {c : Char} (hc : IsNumberChar c) : kindOf c = 2 := by
  have hne (d : Char) (hd : ¬ IsNumberChar d) : c ≠ d := fun heq => hd (heq ▸ hc)
  simp [kindOf, hne 'n' (by decide), hne 't' (by decide), hne 'f' (by decide), hne '"' (by decide),
    hne '[' (by decide), hne '{' (by decide)]

theorem Value.exists_write_eq_cons (v : Value) :
    ∃ c rest, v.write = c :: rest ∧ kindOf c = v.kind ∧ c ≠ ']' := by
  cases v with
  | null => exact ⟨_, _, rfl, rfl, by decide⟩
  | bool b => cases b <;> exact ⟨_, _, rfl, rfl, by decide⟩
  | string s => exact ⟨_, _, rfl, rfl, by decide⟩
  | array elements => exact ⟨_, _, rfl, rfl, by decide⟩
  | object entries => exact ⟨_, _, rfl, rfl, by decide⟩
  | number n =>
      obtain ⟨c, rest, htext⟩ := List.exists_cons_of_ne_nil n.toString_ne_empty
      have hc : IsNumberChar c := Number.isNumberChar_of_mem (htext ▸ List.mem_cons_self)
      refine ⟨c, rest, htext, kindOf_of_isNumberChar hc, ?_⟩
      rintro rfl
      exact absurd hc (by decide)

/-- A printed number ends where its characters do. -/
theorem number_injective {m n : Number} {rest tail : List Char} (hrest : Delimited rest)
    (htail : Delimited tail) (h : m.toString.toList ++ rest = n.toString.toList ++ tail) :
    m = n ∧ rest = tail := by
  have hstop {after : List Char} (hafter : Delimited after) :
      after.takeWhile (fun c => decide (IsNumberChar c)) = [] := by
    cases after with
    | nil => rfl
    | cons c after =>
        refine List.takeWhile_cons_of_neg ?_
        rcases hafter c rfl with rfl | rfl | rfl <;> decide
  have htext (n : Number) {after : List Char} (hafter : Delimited after) :
      (n.toString.toList ++ after).takeWhile (fun c => decide (IsNumberChar c)) =
        n.toString.toList := by
    rw [List.takeWhile_append_of_pos fun c hc => decide_eq_true (Number.isNumberChar_of_mem hc),
      hstop hafter, List.append_nil]
  have hsame : m.toString.toList = n.toString.toList := by
    rw [← htext m hrest, h, htext n htail]
  refine ⟨Number.toString_injective (String.toList_injective hsame), ?_⟩
  rw [hsame] at h
  exact List.append_cancel_left h

theorem commaSeparated_cons {α : Type*} (item : α → List Char) (x : α) (xs : List α)
    (rest : List Char) :
    commaSeparated ((x :: xs).map item) ++ rest =
      item x ++ (if xs = [] then rest else ',' :: (commaSeparated (xs.map item) ++ rest)) := by
  cases xs <;> simp [commaSeparated]

/-- Items that can be cut off a text, and do not start like the end of the list, can be
cut off one by one. -/
theorem commaSeparated_injective {α : Type*} {item : α → List Char} {close : Char}
    (hclose : close = ']' ∨ close = '}') (hstarts : ∀ x rest tail, item x ++ rest ≠ close :: tail)
    {a b : List α}
    (hcut : ∀ x ∈ a, ∀ y rest tail, Delimited rest → Delimited tail →
      item x ++ rest = item y ++ tail → x = y ∧ rest = tail)
    {rest tail : List Char}
    (h : commaSeparated (a.map item) ++ close :: rest =
      commaSeparated (b.map item) ++ close :: tail) : a = b ∧ rest = tail := by
  have hdelimited (xs : List α) (after : List Char) :
      Delimited (if xs = [] then close :: after
        else ',' :: (commaSeparated (xs.map item) ++ close :: after)) := by
    split
    · rintro c ⟨⟩
      exact .inr hclose
    · rintro c ⟨⟩
      exact .inl rfl
  have hcomma : close ≠ ',' := by rcases hclose with rfl | rfl <;> decide
  induction a generalizing b with
  | nil =>
      cases b with
      | nil => simpa [commaSeparated] using h
      | cons y ys =>
          rw [commaSeparated_cons] at h
          exact absurd h.symm (hstarts y _ _)
  | cons x xs ih =>
      cases b with
      | nil =>
          rw [commaSeparated_cons] at h
          exact absurd h (hstarts x _ _)
      | cons y ys =>
          rw [commaSeparated_cons, commaSeparated_cons] at h
          rw [List.forall_mem_cons] at hcut
          obtain ⟨rfl, hafter⟩ := hcut.1 y _ _ (hdelimited xs rest) (hdelimited ys tail) h
          -- either both lists end here or neither does
          split_ifs at hafter with hxs hys hys
          · exact ⟨by rw [hxs, hys], (List.cons.inj hafter).2⟩
          · exact absurd (List.cons.inj hafter).1 hcomma
          · exact absurd (List.cons.inj hafter).1.symm hcomma
          · obtain ⟨rfl, hrest⟩ := ih hcut.2 (List.cons.inj hafter).2
            exact ⟨rfl, hrest⟩

theorem writeElements_eq_map (elements : List Value) :
    writeElements elements = elements.map Value.write := by
  induction elements with
  | nil => rfl
  | cons v rest ih => rw [writeElements, ih, List.map_cons]

/-- The text of one entry. -/
def writeEntry (entry : String × Value) : List Char := quote entry.1 ++ ':' :: entry.2.write

theorem writeEntries_eq_map (entries : Map) : writeEntries entries = entries.map writeEntry := by
  induction entries with
  | nil => rfl
  | cons entry rest ih => rw [writeEntries, ih, List.map_cons, writeEntry]

theorem writeEntry_ne_close (entry : String × Value) (rest tail : List Char) :
    writeEntry entry ++ rest ≠ '}' :: tail := by
  simp [writeEntry, quote]

theorem Value.write_ne_close (v : Value) (rest tail : List Char) :
    v.write ++ rest ≠ ']' :: tail := by
  obtain ⟨c, text, htext, -, hc⟩ := v.exists_write_eq_cons
  rw [htext]
  exact fun heq => hc (List.cons.inj heq).1

theorem Value.kind_eq {v w : Value} {rest tail : List Char}
    (h : v.write ++ rest = w.write ++ tail) : v.kind = w.kind := by
  obtain ⟨c, text, htext, hkind, -⟩ := v.exists_write_eq_cons
  obtain ⟨d, other, hother, hkind', -⟩ := w.exists_write_eq_cons
  rw [htext, hother] at h
  rw [← hkind, ← hkind', (List.cons.inj h).1]

/-- A value can be cut off a text it starts. -/
theorem Value.write_injective (v : Value) {w : Value} {rest tail : List Char}
    (hrest : Delimited rest) (htail : Delimited tail) (h : v.write ++ rest = w.write ++ tail) :
    v = w ∧ rest = tail := by
  have hkind := Value.kind_eq h
  induction v using Value.induct generalizing w rest tail with
  | null =>
      cases w with
      | null => exact ⟨rfl, List.append_cancel_left h⟩
      | _ => cases hkind
  | bool b =>
      cases w with
      | bool c =>
          cases b <;> cases c
          · exact ⟨rfl, List.append_cancel_left h⟩
          · exact absurd (List.cons.inj h).1 (by decide)
          · exact absurd (List.cons.inj h).1 (by decide)
          · exact ⟨rfl, List.append_cancel_left h⟩
      | _ => cases hkind
  | number m =>
      cases w with
      | number n =>
          obtain ⟨rfl, hafter⟩ := number_injective hrest htail h
          exact ⟨rfl, hafter⟩
      | _ => cases hkind
  | string s =>
      cases w with
      | string t =>
          obtain ⟨rfl, hafter⟩ := quote_injective h
          exact ⟨rfl, hafter⟩
      | _ => cases hkind
  | array elements ih =>
      cases w with
      | array others =>
          simp only [Value.write, writeElements_eq_map, List.cons_append, List.append_assoc] at h
          obtain ⟨rfl, hafter⟩ := commaSeparated_injective (.inl rfl) Value.write_ne_close
            (fun v hv w rest tail hrest htail h => ih v hv hrest htail h (Value.kind_eq h))
            (List.cons.inj h).2
          exact ⟨rfl, hafter⟩
      | _ => cases hkind
  | object entries ih =>
      cases w with
      | object others =>
          simp only [Value.write, writeEntries_eq_map, List.cons_append, List.append_assoc] at h
          have hcut : ∀ entry ∈ entries, ∀ other rest tail, Delimited rest → Delimited tail →
              writeEntry entry ++ rest = writeEntry other ++ tail → entry = other ∧ rest = tail := by
            intro entry hentry other rest tail hrest htail h
            rw [writeEntry, writeEntry, List.append_assoc, List.append_assoc] at h
            obtain ⟨hkey, h⟩ := quote_injective h
            obtain ⟨hvalue, hafter⟩ := ih entry hentry hrest htail (List.cons.inj h).2
              (Value.kind_eq (List.cons.inj h).2)
            exact ⟨Prod.ext hkey hvalue, hafter⟩
          obtain ⟨rfl, hafter⟩ := commaSeparated_injective (.inr rfl) writeEntry_ne_close hcut
            (List.cons.inj h).2
          exact ⟨rfl, hafter⟩
      | _ => cases hkind

/-- The text of a value determines it. -/
theorem Value.toJson_injective {v w : Value} (h : v.toJson = w.toJson) : v = w := by
  have hend : Delimited [] := fun c hc => nomatch hc
  refine (Value.write_injective v hend hend ?_).1
  rw [String.ofList_injective h]

end Json
