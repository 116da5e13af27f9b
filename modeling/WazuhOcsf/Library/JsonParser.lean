import WazuhOcsf.Library.JsonReader

/-!
# A reader for compact JSON

`Value.read` reads a compact text: it takes the value that starts the text off it, inside
out, and accepts the text if nothing is left.  What the writer prints, it reads:
`read_toJson`.  An amount of fuel bounds the nesting; the length of the text is enough.
-/

namespace Json

open RustString (isDigit_of_mem_repr decimalValue decimalValue_repr repr_ne_empty)

/-- A value, or whatever is read, and the text behind it. -/
abbrev Reader (α : Type*) := List Char → Option (α × List Char)

/-! ## Readers -/

/-- A word that stands for a value. -/
def readWord {α : Type*} (word : List Char) (a : α) : Reader α := fun text =>
  if word <+: text then some (a, text.drop word.length) else none

/-- A string body, up to its closing quote. -/
def readBody : ℕ → Reader (List Char)
  | 0, _ => none
  | fuel + 1, text =>
      if text.head? = some '"' then some ([], text.tail)
      else (readChar text).bind fun c => (readBody fuel c.2).map fun body => (c.1 :: body.1, body.2)

/-- A string with its quotes. -/
def readString : Reader String
  | '"' :: text => (readBody (text.length + 1) text).map fun body => (.ofList body.1, body.2)
  | _ => none

instance : DecidablePred IsFloatText := fun text => inferInstanceAs (Decidable
  ((∀ c ∈ text.toList, c.isDigit ∨ c = '-' ∨ c = '+' ∨ c = '.' ∨ c = 'e') ∧
    ('.' ∈ text.toList ∨ 'e' ∈ text.toList)))

/-- The number whose text is the token. -/
def numberOf (token : List Char) : Option Number :=
  if token.all Char.isDigit then
    if h : decimalValue token < 2 ^ 64 then some (.posInt (.ofNatLT _ h)) else none
  else if token.head? = some '-' ∧ token.tail.all Char.isDigit then
    if h : decimalValue token.tail - 1 < 2 ^ 63 then some (.negInt ⟨_, h⟩) else none
  else if h : IsFloatText (.ofList token) then some (.float ⟨_, h⟩)
  else none

/-- The characters up to the first that is in no number. -/
def readNumber : Reader Number := fun text =>
  let token := text.takeWhile fun c => decide (IsNumberChar c)
  (numberOf token).map fun n => (n, text.drop token.length)

/-- Items with commas between them, up to the closing bracket. -/
def readItems {α : Type*} (item : Reader α) (close : Char) : ℕ → Reader (List α)
  | 0, _ => none
  | fuel + 1, text => (item text).bind fun first =>
      match first.2 with
      | ',' :: rest => (readItems item close fuel rest).map fun more => (first.1 :: more.1, more.2)
      | c :: rest => if c = close then some ([first.1], rest) else none
      | [] => none

/-- A list of items, its opening bracket off. -/
def readList {α : Type*} (item : Reader α) (close : Char) : Reader (List α) := fun text =>
  if text.head? = some close then some ([], text.tail) else readItems item close text.length text

/-- A key and its value. -/
def readEntry {α : Type*} (value : Reader α) : Reader (String × α) := fun text =>
  (readString text).bind fun key =>
    match key.2 with
    | ':' :: rest => (value rest).map fun v => ((key.1, v.1), v.2)
    | _ => none

/-- A value; its first character says of which kind. -/
def readValue : ℕ → Reader Value
  | 0, _ => none
  | _ + 1, [] => none
  | fuel + 1, c :: text =>
      match kindOf c with
      | 0 => readWord "null".toList .null (c :: text)
      | 1 => (readWord "true".toList (.bool true) (c :: text)).or
          (readWord "false".toList (.bool false) (c :: text))
      | 3 => (readString (c :: text)).map fun s => (.string s.1, s.2)
      | 4 => (readList (readValue fuel) ']' text).map fun vs => (.array vs.1, vs.2)
      | 5 => (readList (readEntry (readValue fuel)) '}' text).map fun entries =>
          (.object entries.1, entries.2)
      | _ => (readNumber (c :: text)).map fun n => (.number n.1, n.2)

/-- The value of a text. -/
def Value.read (text : String) : Option Value :=
  match readValue (text.toList.length + 1) text.toList with
  | some (v, []) => some v
  | _ => none

/-! ## Reading what is written -/

/-- The reader takes the written form off any text it starts. -/
def Reads {α : Type*} (reader : Reader α) (write : α → List Char) (a : α) : Prop :=
  ∀ rest, Delimited rest → reader (write a ++ rest) = some (a, rest)

theorem readWord_append {α : Type*} (word : List Char) (a : α) (rest : List Char) :
    readWord word a (word ++ rest) = some (a, rest) := by
  rw [readWord, if_pos (List.prefix_append word rest), List.drop_left]

theorem readBody_escaped {s rest : List Char} {fuel : ℕ} (hfuel : s.length < fuel) :
    readBody fuel (s.flatMap escapeChar ++ '"' :: rest) = some (s, rest) := by
  induction s generalizing fuel with
  | nil =>
      obtain ⟨fuel, rfl⟩ := Nat.exists_eq_add_of_le' hfuel
      rfl
  | cons c s ih =>
      obtain ⟨fuel, rfl⟩ := Nat.exists_eq_add_of_le' (Nat.lt_of_le_of_lt (Nat.zero_le _) hfuel)
      rw [List.flatMap_cons, List.append_assoc, readBody, if_neg, readChar_escapeChar,
        Option.bind_some, ih (by simpa using hfuel), Option.map_some]
      intro hhead
      obtain ⟨tail, htail⟩ := List.head?_eq_some_iff.mp hhead
      exact escapeChar_ne_quote c _ tail htail

theorem length_le_flatMap_escapeChar (s : List Char) :
    s.length ≤ (s.flatMap escapeChar).length := by
  induction s with
  | nil => exact Nat.le_refl _
  | cons c s ih =>
      have hpos : 0 < (escapeChar c).length := by
        refine List.length_pos_iff.mpr fun hnil => ?_
        have hread := readChar_escapeChar c []
        rw [hnil] at hread
        cases hread
      rw [List.flatMap_cons, List.length_append, List.length_cons]
      omega

theorem readString_quote (s : String) (rest : List Char) :
    readString (quote s ++ rest) = some (s, rest) := by
  have hlength := length_le_flatMap_escapeChar s.toList
  have htext : quote s ++ rest = '"' :: (s.toList.flatMap escapeChar ++ '"' :: rest) := by
    simp [quote]
  rw [htext, readString, readBody_escaped, Option.map_some, String.ofList_toList]
  rw [List.length_append]
  omega

theorem all_isDigit_repr (n : ℕ) : n.repr.toList.all Char.isDigit :=
  List.all_eq_true.mpr fun _ => isDigit_of_mem_repr

theorem numberOf_float (text : { text : String // IsFloatText text }) :
    numberOf text.val.toList = some (.float text) := by
  -- a point or an exponent is no digit, and is not behind the sign of an integer either
  obtain ⟨c, hc, hmark⟩ : ∃ c ∈ text.val.toList, c.isDigit = false ∧ c ≠ '-' :=
    text.property.2.elim (fun hmem => ⟨_, hmem, by decide⟩) fun hmem => ⟨_, hmem, by decide⟩
  have hdigits : ¬ text.val.toList.all Char.isDigit := fun hall => by
    simp [List.all_eq_true.mp hall c hc] at hmark
  have hsigned : ¬ (text.val.toList.head? = some '-' ∧ text.val.toList.tail.all Char.isDigit) := by
    rintro ⟨hhead, hall⟩
    rw [← List.cons_head?_tail hhead, List.mem_cons] at hc
    rcases hc with rfl | hc
    · exact hmark.2 rfl
    · simp [List.all_eq_true.mp hall c hc] at hmark
  have htext : IsFloatText (.ofList text.val.toList) := by
    rw [String.ofList_toList]
    exact text.property
  rw [numberOf, if_neg hdigits, if_neg hsigned, dif_pos htext, Option.some_inj, Number.float.injEq]
  exact Subtype.ext String.ofList_toList

theorem numberOf_toString (n : Number) : numberOf n.toString.toList = some n := by
  cases n with
  | posInt n =>
      have hvalue := decimalValue_repr n.toNat
      rw [Number.toString, numberOf, if_pos (all_isDigit_repr _),
        dif_pos (hvalue.symm ▸ n.isLt), Option.some_inj, Number.posInt.injEq]
      exact BitVec.eq_of_toNat_eq (by rw [BitVec.toNat_ofNatLT, hvalue])
  | negInt n =>
      have htext : (Number.negInt n).toString.toList = '-' :: (n.val + 1).repr.toList := by
        rw [Number.toString, String.toList_append]
        rfl
      have hvalue : decimalValue (n.val + 1).repr.toList - 1 = n.val := by
        rw [decimalValue_repr, Nat.add_sub_cancel]
      rw [htext, numberOf, if_neg (by simp), if_pos ⟨rfl, all_isDigit_repr _⟩]
      simp only [List.tail_cons, hvalue, n.isLt, dite_true]
  | float text => exact numberOf_float text

theorem reads_number (n : Number) : Reads readNumber (fun n => n.toString.toList) n := by
  intro rest hrest
  have hall : ∀ c ∈ n.toString.toList, decide (IsNumberChar c) = true := fun c hc =>
    decide_eq_true (Number.isNumberChar_of_mem hc)
  have hstop : rest.takeWhile (fun c => decide (IsNumberChar c)) = [] := by
    cases rest with
    | nil => rfl
    | cons c rest =>
        refine List.takeWhile_cons_of_neg ?_
        rcases hrest c rfl with rfl | rfl | rfl <;> decide
  have htoken : (n.toString.toList ++ rest).takeWhile (fun c => decide (IsNumberChar c)) =
      n.toString.toList := by
    rw [List.takeWhile_append_of_pos hall, hstop, List.append_nil]
  simp only [readNumber, htoken, numberOf_toString, Option.map_some, List.drop_left]

/-- A list of items is read back item by item. -/
theorem readItems_commaSeparated {α : Type*} {reader : Reader α} {write : α → List Char}
    {close : Char} (hclose : close = ']' ∨ close = '}') {items : List α} (hne : items ≠ [])
    (hreads : ∀ a ∈ items, Reads reader write a) {fuel : ℕ} (hfuel : items.length ≤ fuel)
    (rest : List Char) :
    readItems reader close fuel (commaSeparated (items.map write) ++ close :: rest) =
      some (items, rest) := by
  induction items generalizing fuel with
  | nil => exact absurd rfl hne
  | cons a items ih =>
      rw [List.forall_mem_cons] at hreads
      obtain ⟨fuel, rfl⟩ := Nat.exists_eq_add_of_le' (Nat.lt_of_lt_of_le (Nat.succ_pos _) hfuel)
      rw [commaSeparated_cons, readItems]
      split_ifs with hlast
      · subst hlast
        have hend : Delimited (close :: rest) := fun c hc => by
          obtain rfl := Option.some.inj hc
          exact .inr hclose
        rw [hreads.1 _ hend, Option.bind_some]
        rcases hclose with rfl | rfl <;> rfl
      · have hcomma : Delimited (',' :: (commaSeparated (items.map write) ++ close :: rest)) :=
          fun c hc => .inl (Option.some.inj hc).symm
        have hmore := ih hlast hreads.2 (Nat.le_of_succ_le_succ hfuel)
        rw [hreads.1 _ hcomma, Option.bind_some]
        show (readItems reader close fuel _).map _ = _
        rw [hmore, Option.map_some]

/-- There is a comma between any two items. -/
theorem length_le_commaSeparated (items : List (List Char)) :
    items.length ≤ (commaSeparated items).length + 1 := by
  induction items with
  | nil => exact Nat.zero_le _
  | cons item rest ih =>
      cases rest with
      | nil => exact Nat.le_add_left _ _
      | cons next rest =>
          simp only [commaSeparated, List.length_append, List.length_cons] at ih ⊢
          omega

/-- So is the list with its closing bracket, which no item starts with. -/
theorem readList_commaSeparated {α : Type*} {reader : Reader α} {write : α → List Char}
    {close : Char} (hclose : close = ']' ∨ close = '}') {items : List α}
    (hstarts : ∀ a rest tail, write a ++ rest ≠ close :: tail)
    (hreads : ∀ a ∈ items, Reads reader write a) (rest : List Char) :
    readList reader close (commaSeparated (items.map write) ++ close :: rest) =
      some (items, rest) := by
  cases items with
  | nil => simp [readList, commaSeparated]
  | cons a items =>
      have hhead :
          (commaSeparated ((a :: items).map write) ++ close :: rest).head? ≠ some close := by
        intro hhead
        obtain ⟨tail, htail⟩ := List.head?_eq_some_iff.mp hhead
        rw [commaSeparated_cons] at htail
        exact hstarts a _ tail htail
      rw [readList, if_neg hhead]
      refine readItems_commaSeparated hclose (List.cons_ne_nil a items) hreads ?_ rest
      have hlength := length_le_commaSeparated ((a :: items).map write)
      rw [List.length_map] at hlength
      rw [List.length_append, List.length_cons (a := close)]
      omega

theorem reads_entry {reader : Reader Value} {entry : String × Value}
    (h : Reads reader Value.write entry.2) : Reads (readEntry reader) writeEntry entry := by
  intro rest hrest
  rw [writeEntry, List.append_assoc, readEntry, readString_quote, Option.bind_some]
  show (reader (entry.2.write ++ rest)).map _ = _
  rw [h rest hrest, Option.map_some]

/-- What is inside a container is shorter. -/
theorem length_le_of_mem {items : List (List Char)} {item : List Char} (h : item ∈ items) :
    item.length ≤ (commaSeparated items).length := by
  induction items with
  | nil => exact absurd h List.not_mem_nil
  | cons first rest ih =>
      cases rest with
      | nil => exact (List.mem_singleton.mp h) ▸ le_rfl
      | cons next rest =>
          simp only [commaSeparated, List.length_append, List.length_cons]
          rcases List.mem_cons.mp h with rfl | hrest
          · exact Nat.le_add_right _ _
          · have hle := ih hrest
            omega

/-- A value is read as one of its kind. -/
theorem readValue_write (v : Value) (fuel : ℕ) (rest : List Char) :
    readValue (fuel + 1) (v.write ++ rest) =
      match v.kind with
      | 0 => readWord "null".toList .null (v.write ++ rest)
      | 1 => (readWord "true".toList (.bool true) (v.write ++ rest)).or
          (readWord "false".toList (.bool false) (v.write ++ rest))
      | 3 => (readString (v.write ++ rest)).map fun s => (.string s.1, s.2)
      | 4 => (readList (readValue fuel) ']' (v.write ++ rest).tail).map fun vs => (.array vs.1, vs.2)
      | 5 => (readList (readEntry (readValue fuel)) '}' (v.write ++ rest).tail).map fun entries =>
          (.object entries.1, entries.2)
      | _ => (readNumber (v.write ++ rest)).map fun n => (.number n.1, n.2) := by
  obtain ⟨c, text, htext, hkind, -⟩ := v.exists_write_eq_cons
  rw [htext, List.cons_append, readValue, hkind, List.tail_cons]

theorem reads_value (v : Value) {fuel : ℕ} (hfuel : v.write.length < fuel) :
    Reads (readValue fuel) Value.write v := by
  intro rest hrest
  induction v using Value.induct generalizing fuel rest with
  | null =>
      obtain ⟨fuel, rfl⟩ := Nat.exists_eq_add_of_le' (Nat.zero_lt_of_lt hfuel)
      rw [readValue_write]
      exact readWord_append "null".toList Value.null rest
  | bool b =>
      obtain ⟨fuel, rfl⟩ := Nat.exists_eq_add_of_le' (Nat.zero_lt_of_lt hfuel)
      rw [readValue_write]
      cases b with
      | true =>
          have hword := readWord_append "true".toList (Value.bool true) rest
          exact (congrArg (fun read => Option.or read _) hword).trans rfl
      | false =>
          have hother : readWord "true".toList (Value.bool true) ("false".toList ++ rest) = none :=
            if_neg (by simp)
          have hword := readWord_append "false".toList (Value.bool false) rest
          exact (congrArg₂ Option.or hother hword).trans rfl
  | number n =>
      obtain ⟨fuel, rfl⟩ := Nat.exists_eq_add_of_le' (Nat.zero_lt_of_lt hfuel)
      rw [readValue_write]
      exact congrArg (Option.map _) (reads_number n rest hrest)
  | string s =>
      obtain ⟨fuel, rfl⟩ := Nat.exists_eq_add_of_le' (Nat.zero_lt_of_lt hfuel)
      rw [readValue_write]
      exact congrArg (Option.map _) (readString_quote s rest)
  | array elements ih =>
      obtain ⟨fuel, rfl⟩ := Nat.exists_eq_add_of_le' (Nat.zero_lt_of_lt hfuel)
      have htext : ((Value.array elements).write ++ rest).tail =
          commaSeparated (elements.map Value.write) ++ ']' :: rest := by
        simp [Value.write, writeElements_eq_map]
      have hshort : ∀ v ∈ elements, v.write.length < fuel := by
        intro v hv
        have hle := length_le_of_mem (List.mem_map_of_mem (f := Value.write) hv)
        simp only [Value.write, writeElements_eq_map, List.length_cons, List.length_append] at hfuel
        omega
      have hlist := readList_commaSeparated (.inl rfl) Value.write_ne_close
        (fun v hv after => ih v hv (hshort v hv) after) rest
      rw [readValue_write, htext]
      exact congrArg (Option.map _) hlist
  | object entries ih =>
      obtain ⟨fuel, rfl⟩ := Nat.exists_eq_add_of_le' (Nat.zero_lt_of_lt hfuel)
      have htext : ((Value.object entries).write ++ rest).tail =
          commaSeparated (entries.map writeEntry) ++ '}' :: rest := by
        simp [Value.write, writeEntries_eq_map]
      have hshort : ∀ entry ∈ entries, entry.2.write.length < fuel := by
        intro entry hentry
        have hle := length_le_of_mem (List.mem_map_of_mem (f := writeEntry) hentry)
        simp only [Value.write, writeEntries_eq_map, writeEntry, List.length_cons,
          List.length_append] at hfuel hle
        omega
      have hentries : ∀ entry ∈ entries, Reads (readEntry (readValue fuel)) writeEntry entry :=
        fun entry hentry => reads_entry fun after => ih entry hentry (hshort entry hentry) after
      have hlist := readList_commaSeparated (.inr rfl) writeEntry_ne_close hentries rest
      rw [readValue_write, htext]
      exact congrArg (Option.map _) hlist

/-- The reader reads what the writer writes. -/
theorem Value.read_toJson (v : Value) : Value.read v.toJson = some v := by
  have hread := reads_value v (Nat.lt_succ_self _) [] fun c hc => nomatch hc
  rw [List.append_nil] at hread
  rw [Value.read, Value.toJson, String.toList_ofList, hread]

end Json
