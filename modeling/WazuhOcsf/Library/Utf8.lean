import Mathlib.Data.List.Basic

/-!
# UTF-8 as lists of bytes

`encode` writes characters as bytes, `Valid` bytes are the ones it writes.  The bytes
of a character are all below 128 or all from 128 on, so valid bytes may be cut after
any byte below 128 (`Valid.of_append`): a text splits into lines without looking at
its characters.
-/

namespace Utf8

/-- The UTF-8 encoding of a text. -/
def encode (chars : List Char) : List UInt8 := chars.flatMap String.utf8EncodeChar

/-- The bytes encode some characters. -/
def Valid (bytes : List UInt8) : Prop := ∃ chars, bytes = encode chars

@[simp] theorem encode_nil : encode [] = [] := rfl

@[simp] theorem encode_append (first second : List Char) :
    encode (first ++ second) = encode first ++ encode second :=
  List.flatMap_append

theorem encode_cons (c : Char) (rest : List Char) :
    encode (c :: rest) = String.utf8EncodeChar c ++ encode rest :=
  List.flatMap_cons

theorem encode_replicate_ascii {c : Char} {b : UInt8} (hc : String.utf8EncodeChar c = [b])
    (n : ℕ) : encode (List.replicate n c) = List.replicate n b := by
  induction n with
  | zero => rfl
  | succ n ih => rw [List.replicate_succ, encode_cons, hc, ih, List.replicate_succ]; rfl

theorem mk_toArray (bytes : List UInt8) : (⟨bytes.toArray⟩ : ByteArray) = bytes.toByteArray :=
  ByteArray.ext (by simp)

/-- Decoding gives the encoded characters back. -/
theorem fromUTF8_encode (chars : List Char) :
    String.fromUTF8? ⟨(encode chars).toArray⟩ = some (.ofList chars) := by
  have hbytes : (⟨(encode chars).toArray⟩ : ByteArray) = chars.utf8Encode := mk_toArray _
  rw [hbytes, String.fromUTF8?, dif_pos ByteArray.isValidUTF8_utf8Encode]
  rfl

/-- What decodes is an encoding. -/
theorem eq_encode_of_fromUTF8 {bytes : List UInt8} {text : String}
    (h : String.fromUTF8? ⟨bytes.toArray⟩ = some text) : bytes = encode text.toList := by
  rw [String.fromUTF8?] at h
  split_ifs at h with hvalid
  obtain ⟨chars, hchars⟩ := hvalid
  have hbytes : bytes = encode chars := by
    rw [mk_toArray] at hchars
    exact List.toByteArray_inj.mp hchars
  subst hbytes
  have hdecode := fromUTF8_encode chars
  rw [String.fromUTF8?, dif_pos ⟨chars, hchars⟩, h, Option.some.injEq] at hdecode
  rw [hdecode, String.toList_ofList]

theorem encode_injective {first second : List Char} (h : encode first = encode second) :
    first = second := by
  have hdecode := fromUTF8_encode first
  rw [h, fromUTF8_encode second, Option.some.injEq] at hdecode
  exact (String.ofList_injective hdecode).symm

theorem valid_iff {bytes : List UInt8} :
    Valid bytes ↔ (String.fromUTF8? ⟨bytes.toArray⟩).isSome := by
  constructor
  · rintro ⟨chars, rfl⟩
    simp [fromUTF8_encode]
  · intro h
    obtain ⟨text, htext⟩ := Option.isSome_iff_exists.mp h
    exact ⟨text.toList, eq_encode_of_fromUTF8 htext⟩

instance (bytes : List UInt8) : Decidable (Valid bytes) := decidable_of_iff _ valid_iff.symm

/-! ## Cutting -/

/-- A byte below 128 is a character of its own. -/
theorem utf8EncodeChar_eq_singleton {c : Char} {b : UInt8} (hb : b ∈ String.utf8EncodeChar c)
    (hascii : b < 128) : String.utf8EncodeChar c = [b] := by
  have hhigh : ∀ (x y : UInt8), 128 ≤ y → ¬ (x ||| y) < 128 := by
    intro x y hy hlt
    rw [UInt8.le_iff_toNat_le] at hy
    rw [UInt8.lt_iff_toNat_lt, UInt8.toNat_or] at hlt
    have hor : y.toNat ≤ x.toNat ||| y.toNat := Nat.right_le_or
    omega
  rcases c.utf8Size_eq with hsize | hsize | hsize | hsize
  · rw [String.utf8EncodeChar_eq_singleton hsize] at hb ⊢
    rw [List.mem_singleton.mp hb]
  · rw [String.utf8EncodeChar_eq_cons_cons hsize] at hb
    simp only [List.mem_cons, List.not_mem_nil, or_false] at hb
    rcases hb with rfl | rfl <;> exact absurd hascii (hhigh _ _ (by decide))
  · rw [String.utf8EncodeChar_eq_cons_cons_cons hsize] at hb
    simp only [List.mem_cons, List.not_mem_nil, or_false] at hb
    rcases hb with rfl | rfl | rfl <;> exact absurd hascii (hhigh _ _ (by decide))
  · rw [String.utf8EncodeChar_eq_cons_cons_cons_cons hsize] at hb
    simp only [List.mem_cons, List.not_mem_nil, or_false] at hb
    rcases hb with rfl | rfl | rfl | rfl <;> exact absurd hascii (hhigh _ _ (by decide))

/-- Valid bytes may be cut after a byte below 128. -/
theorem Valid.of_append {first second : List UInt8} (h : Valid (first ++ second)) {b : UInt8}
    (hlast : first.getLast? = some b) (hascii : b < 128) : Valid first ∧ Valid second := by
  obtain ⟨chars, hchars⟩ := h
  induction chars generalizing first with
  | nil =>
      have hnil : first = [] := List.append_eq_nil_iff.mp hchars |>.1
      simp [hnil] at hlast
  | cons c rest ih =>
      rw [encode_cons] at hchars
      rcases List.append_eq_append_iff.mp hchars with ⟨more, hchar, hsecond⟩ | ⟨more, hfirst, hrest⟩
      · -- the cut is inside the character, so it is the one byte
        have hmem : b ∈ String.utf8EncodeChar c :=
          hchar ▸ List.mem_append_left _ (List.mem_of_getLast? hlast)
        have hsingle := utf8EncodeChar_eq_singleton hmem hascii
        have hmore : more = [] := by
          rw [hsingle] at hchar
          cases first with
          | nil => simp at hlast
          | cons a tail => exact (List.append_eq_nil_iff.mp (List.cons.inj hchar).2.symm).2
        subst hmore
        rw [List.append_nil] at hchar
        exact ⟨⟨[c], by simp [encode, hchar]⟩, rest, by simpa using hsecond⟩
      · cases hcase : more.getLast? with
        | none =>
            rw [List.getLast?_eq_none_iff] at hcase
            subst hcase
            rw [List.append_nil] at hfirst
            exact ⟨⟨[c], by simp [encode, hfirst]⟩, rest, by simpa using hrest.symm⟩
        | some b' =>
            have hb' : b' = b := by simpa [hfirst, hcase] using hlast
            obtain ⟨⟨before, hbefore⟩, hvalid⟩ := ih (hb' ▸ hcase) hrest.symm
            exact ⟨⟨c :: before, by rw [encode_cons, hfirst, hbefore]⟩, hvalid⟩

end Utf8
