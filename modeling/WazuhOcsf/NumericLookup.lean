import WazuhOcsf.Util.Lookup

/-!
# Numbers and their digits

Some decoders emit a count as a JSON number, others as the string of its digits.  A byte
counter reads both forms alike.  A port does so up to 65535: beyond, the number is clamped
to 65535 and the string is refused, so that the two forms differ and 65535 is returned
although the document does not hold it.  `encodingBlind_iff` says for a document and a
search when this shows: an integer above 65535 is met before a port in range, and that
port is not 65535 itself.
-/

namespace WazuhOcsf

open Json Json.Value RustString

/-! ## The two forms of an integer -/

/-- The value is `n`, as a number or as the string of its digits. -/
def Encodes (n : BitVec 64) (w : Value) : Prop :=
  w = .number (.posInt n) ∨ w = .string (Nat.repr n.toNat)

/-- One integer of the document is put in the other form. -/
def Recoded (v v' : Value) : Prop :=
  ∃ address leaf w n, v.locate address = some leaf ∧ Encodes n leaf ∧ Encodes n w ∧
    v' = replace w address v

theorem Encodes.isScalar {n : BitVec 64} {w : Value} (h : Encodes n w) : w.IsScalar := by
  rcases h with rfl | rfl
  · exact isScalar_number _
  · exact isScalar_string _

theorem counterOf_of_encodes {n : BitVec 64} {w : Value} (h : Encodes n w) :
    counterOf w = some n := by
  rcases h with rfl | rfl
  · rfl
  · rw [counterOf, trim_repr, parseUInt_repr n.isLt, BitVec.ofNatLT_toNat]

theorem portOf_number (n : BitVec 64) :
    portOf (.number (.posInt n)) = some (.ofNat 16 (min n.toNat 65535)) := rfl

/-- A value has at most one integer. -/
theorem Encodes.eq {n m : BitVec 64} {w : Value} (h : Encodes n w) (h' : Encodes m w) : n = m :=
  Option.some.inj ((counterOf_of_encodes h).symm.trans (counterOf_of_encodes h'))

/-- The port a value stands for when it is in range, as a number or as a string. -/
def portWithin : Value → Option (BitVec 16)
  | .number n => n.asU64.bind fun v =>
      if v.toNat ≤ 65535 then some (.ofNat 16 v.toNat) else none
  | .string s => parseUInt 16 (trim s)
  | _ => none

/-- The port that a number out of range is clamped to. -/
def clamped : Value → Option (BitVec 16)
  | .number n => n.asU64.bind fun v => if v.toNat ≤ 65535 then none else some 65535
  | _ => none

theorem portOf_eq (w : Value) : portOf w = (clamped w).or (portWithin w) := by
  cases w with
  | number number =>
      rw [portOf, clamped, portWithin]
      cases number.asU64 with
      | none => rfl
      | some n =>
          rw [Option.map_some, Option.bind_some, Option.bind_some]
          split
          · next hn => rw [Nat.min_eq_left hn, Option.none_or]
          · next hn =>
              rw [Nat.min_eq_right (by omega), Option.some_or]
              rfl
  | _ => rfl

theorem portWithin_outline (w : Value) : portWithin w.outline = portWithin w := by
  cases w <;> rfl

theorem clamped_outline (w : Value) : clamped w.outline = clamped w := by cases w <;> rfl

/-- In range the two forms are the same port, out of range neither is one. -/
theorem portWithin_of_encodes {n : BitVec 64} {w : Value} (h : Encodes n w) :
    portWithin w = if n.toNat ≤ 65535 then some (.ofNat 16 n.toNat) else none := by
  rcases h with rfl | rfl
  · rfl
  · rw [portWithin, trim_repr]
    split
    · next hn =>
        rw [parseUInt_repr (Nat.lt_succ_of_le hn), BitVec.ofNatLT_eq_ofNat]
    · next hn =>
        rw [parseUInt_of_isDigit (repr_ne_empty _) fun _ => isDigit_of_mem_repr, decimalValue_repr]
        exact dif_neg fun hlt => hn (Nat.le_of_lt_succ hlt)

theorem exists_of_clamped {w : Value} {port : BitVec 16} (h : clamped w = some port) :
    port = 65535 ∧ ∃ n : BitVec 64, w = .number (.posInt n) ∧ 65535 < n.toNat := by
  cases w with
  | number number =>
      cases number with
      | posInt n =>
          by_cases hn : n.toNat ≤ 65535
          · cases (if_pos hn).symm.trans h
          · exact ⟨(Option.some.inj ((if_neg hn).symm.trans h)).symm, n, rfl, Nat.lt_of_not_le hn⟩
      | negInt n => cases h
      | float text => cases h
  | _ => cases h

theorem clamped_number {n : BitVec 64} (h : 65535 < n.toNat) :
    clamped (.number (.posInt n)) = some 65535 := if_neg (Nat.not_le.mpr h)

/-! ## Documents -/

/-- The document holds the port, as a number or as a string. -/
def HoldsPort (v : Value) (port : BitVec 16) : Prop :=
  ∃ address leaf, v.locate address = some leaf ∧
    ((∃ n : BitVec 64, leaf = .number (.posInt n) ∧ n.toNat = port.toNat) ∨
      ∃ s, leaf = .string s ∧ parseUInt 16 (trim s) = some port)

/-- Any number of integers of the document are put in the other form, one after the other. -/
def Reencoded : Value → Value → Prop := Relation.ReflTransGen Recoded

/-- The searches along `paths` do not depend on the form of the document's integers, and a
port that is returned is one of the document. -/
structure EncodingBlind (v : Value) (paths : List String) : Prop where
  recoded : ∀ v', Reencoded v v' →
    firstPort v' paths = firstPort v paths ∧ firstU64 v' paths = firstU64 v paths
  holds : firstPort v paths ≠ 0 → HoldsPort v (firstPort v paths)

/-- The port in range that a path resolves to, not zero. -/
def within (v : Value) (path : String) : Option (BitVec 16) :=
  ((found v path).bind portWithin).filter (0 < ·)

/-- The paths before the first one that resolves to a port in range. -/
def beforePort (v : Value) (paths : List String) : List String :=
  paths.takeWhile fun path => (within v path).isNone

/-- A path resolves to an integer above 65535, in either form. -/
def Large (v : Value) (path : String) : Prop :=
  ∃ n : BitVec 64, 65535 < n.toNat ∧ ∃ w, found v path = some w ∧ Encodes n w

/-- No integer above 65535 comes before the first port in range, unless that port is 65535
itself. -/
def PortSafe (v : Value) (paths : List String) : Prop :=
  ∀ path ∈ beforePort v paths, Large v path → paths.findSome? (within v) = some 65535

variable {v v' : Value} {paths : List String}

/-- A resolver that makes the same of both forms where it looks sees no difference. -/
theorem bind_found_replace {leaf w : Value} {n : BitVec 64} {address : Address} {path : String}
    (hlocate : v.locate address = some leaf) (hleaf : Encodes n leaf) (hw : Encodes n w)
    {β : Type} {f : Value → Option β} (hf : ∀ w : Value, f w.outline = f w)
    (hsame : found v path = some leaf → f w = f leaf) :
    (found (replace w address v) path).bind f = (found v path).bind f := by
  rw [found_eq_locate, found_eq_locate,
    place_congr (isSome_locate_replace hleaf.isScalar hw.isScalar hlocate)]
  refine bind_locate_replace hf hleaf.isScalar hw.isScalar hlocate fun heq => hsame ?_
  rw [found_eq_locate, heq, hlocate]

/-- A counter does not depend on the form of an integer. -/
theorem firstU64_of_recoded (h : Recoded v v') (paths : List String) :
    firstU64 v' paths = firstU64 v paths := by
  obtain ⟨address, leaf, w, n, hlocate, hleaf, hw, rfl⟩ := h
  refine firstU64_congr fun path _ =>
    bind_found_replace hlocate hleaf hw counterOf_outline fun _ => ?_
  rw [counterOf_of_encodes hleaf, counterOf_of_encodes hw]

theorem firstU64_of_reencoded (h : Reencoded v v') (paths : List String) :
    firstU64 v' paths = firstU64 v paths := by
  induction h with
  | refl => rfl
  | tail _ hrecoded ih => rw [firstU64_of_recoded hrecoded, ih]

/-! ## Ports in range -/

/-- A port in range does not depend on the form of an integer. -/
theorem within_of_reencoded (h : Reencoded v v') : within v' = within v := by
  induction h with
  | refl => rfl
  | tail _ hrecoded ih =>
      rw [← ih]
      obtain ⟨address, leaf, w, n, hlocate, hleaf, hw, rfl⟩ := hrecoded
      funext path
      rw [within, within, bind_found_replace hlocate hleaf hw portWithin_outline fun _ => ?_]
      rw [portWithin_of_encodes hleaf, portWithin_of_encodes hw]

/-- Nor does it depend on it which integer a path resolves to. -/
theorem encodes_of_recoded (h : Recoded v v') {path : String} {n : BitVec 64}
    (hfound : ∃ w, found v' path = some w ∧ Encodes n w) :
    ∃ w, found v path = some w ∧ Encodes n w := by
  classical
  obtain ⟨address, leaf, w, m, hlocate, hleaf, hw, rfl⟩ := h
  have hsame (x : Value) (hx : Encodes m x) : Encodes n x ↔ n = m :=
    ⟨fun hn => hn.eq hx, fun heq => heq ▸ hx⟩
  have hequal : (found (replace w address v) path).bind
      (fun x => if Encodes n x then some () else none) =
      (found v path).bind fun x => if Encodes n x then some () else none :=
    bind_found_replace hlocate hleaf hw (fun x => by cases x <;> simp [Encodes, outline])
      fun _ => by rw [if_congr ((hsame w hw).trans (hsame leaf hleaf).symm) rfl rfl]
  obtain ⟨x, hx, hn⟩ := hfound
  rw [hx, Option.bind_some, if_pos hn] at hequal
  obtain ⟨y, hy, hbranch⟩ := Option.bind_eq_some_iff.mp hequal.symm
  refine ⟨y, hy, ?_⟩
  by_contra hnot
  cases (if_neg hnot).symm.trans hbranch

theorem large_of_reencoded (h : Reencoded v v') {path : String} (hlarge : Large v' path) :
    Large v path := by
  induction h with
  | refl => exact hlarge
  | tail _ hrecoded ih =>
      obtain ⟨n, hn, hfound⟩ := hlarge
      exact ih ⟨n, hn, encodes_of_recoded hrecoded hfound⟩

theorem PortSafe.reencoded (hsafe : PortSafe v paths) (h : Reencoded v v') : PortSafe v' paths := by
  intro path hpath hlarge
  rw [beforePort, within_of_reencoded h] at hpath
  rw [within_of_reencoded h]
  exact hsafe path hpath (large_of_reencoded h hlarge)

theorem large_of_clamped {path : String} {port : BitVec 16}
    (h : (found v path).bind clamped = some port) : Large v path := by
  obtain ⟨w, hfound, hw⟩ := Option.bind_eq_some_iff.mp h
  obtain ⟨-, n, rfl, hn⟩ := exists_of_clamped hw
  exact ⟨n, hn, _, hfound, .inl rfl⟩

/-! ## The search for a port -/

/-- What one path contributes: a number that is clamped, else a port in range. -/
theorem firstPort_cons_within (path : String) (rest : List String) :
    firstPort v (path :: rest) =
      (((found v path).bind clamped).or (within v path)).getD (firstPort v rest) := by
  rw [firstPort_cons, within]
  cases found v path with
  | none => rfl
  | some w =>
      rw [Option.bind_some, Option.bind_some, Option.bind_some, portOf_eq]
      cases hclamped : clamped w with
      | none => rfl
      | some port =>
          obtain ⟨rfl, -⟩ := exists_of_clamped hclamped
          rfl

theorem firstPort_cons_of_within {path : String} {rest : List String} {port : BitVec 16}
    (h : within v path = some port) : firstPort v (path :: rest) = port := by
  rw [firstPort_cons_within, h]
  cases hclamped : (found v path).bind clamped with
  | none => rfl
  | some port' =>
      -- what is clamped is not in range
      obtain ⟨w, hfound, hw⟩ := Option.bind_eq_some_iff.mp hclamped
      obtain ⟨-, n, rfl, hn⟩ := exists_of_clamped hw
      rw [within, hfound, Option.bind_some, portWithin_of_encodes (.inl rfl),
        if_neg (Nat.not_le.mpr hn)] at h
      cases h

/-- A search that meets a number above 65535 before a port in range returns 65535. -/
theorem firstPort_of_clamped {path : String} (hpath : path ∈ beforePort v paths)
    (hclamped : (found v path).bind clamped ≠ none) : firstPort v paths = 65535 := by
  induction paths with
  | nil => cases hpath
  | cons first rest ih =>
      cases hwithin : within v first with
      | some port => simp [beforePort, hwithin] at hpath
      | none =>
          rw [firstPort_cons_within, hwithin, Option.or_none]
          cases hfirst : (found v first).bind clamped with
          | some port =>
              obtain ⟨w, -, hw⟩ := Option.bind_eq_some_iff.mp hfirst
              exact (exists_of_clamped hw).1
          | none =>
              rw [Option.getD_none]
              refine ih ?_
              rw [beforePort, List.takeWhile_cons_of_pos (by rw [hwithin]; rfl),
                List.mem_cons] at hpath
              rcases hpath with rfl | hpath
              · exact absurd hfirst hclamped
              · exact hpath

/-- A search that meets none returns the first port in range. -/
theorem firstPort_of_unclamped
    (h : ∀ path ∈ beforePort v paths, (found v path).bind clamped = none) :
    firstPort v paths = (paths.findSome? (within v)).getD 0 := by
  induction paths with
  | nil => rfl
  | cons first rest ih =>
      rw [List.findSome?_cons]
      cases hwithin : within v first with
      | some port => exact firstPort_cons_of_within hwithin
      | none =>
          rw [beforePort, List.takeWhile_cons_of_pos (by rw [hwithin]; rfl),
            List.forall_mem_cons] at h
          rw [firstPort_cons_within, hwithin, h.1]
          exact ih h.2

/-- Every integer that the searches meet can be put as its digits. -/
theorem exists_reencoded_unclamped (v : Value) (paths : List String) :
    ∃ v', Reencoded v v' ∧ ∀ path ∈ paths, (found v' path).bind clamped = none := by
  induction paths with
  | nil => exact ⟨v, .refl, fun path hpath => by cases hpath⟩
  | cons path rest ih =>
      obtain ⟨v', hreencoded, hrest⟩ := ih
      cases hclamped : (found v' path).bind clamped with
      | none => exact ⟨v', hreencoded, List.forall_mem_cons.mpr ⟨hclamped, hrest⟩⟩
      | some port =>
          obtain ⟨leaf, hfound, hleaf⟩ := Option.bind_eq_some_iff.mp hclamped
          obtain ⟨-, n, rfl, -⟩ := exists_of_clamped hleaf
          have hlocate : v'.locate (place v' path) = some (.number (.posInt n)) := by
            rw [← found_eq_locate, hfound]
          have hdigits : Encodes n (.string (Nat.repr n.toNat)) := .inr rfl
          refine ⟨_, hreencoded.tail ⟨_, _, _, n, hlocate, .inl rfl, hdigits, rfl⟩, ?_⟩
          refine List.forall_mem_cons.mpr ⟨?_, fun later hlater => ?_⟩
          · rw [found_eq_locate, place_congr (isSome_locate_replace (isScalar_number _)
              (isScalar_string _) hlocate), locate_replace (hlocate ▸ rfl)]
            rfl
          · rw [bind_found_replace hlocate (.inl rfl) hdigits clamped_outline fun hsame => ?_]
            · exact hrest later hlater
            · -- a path resolved at the same place would have been clamped before
              have hnone := hrest later hlater
              rw [hsame, Option.bind_some, hleaf] at hnone
              cases hnone

/-- An integer above 65535 that is met can be put as a number. -/
theorem exists_reencoded_clamped {path : String} (h : Large v path) :
    ∃ v', Reencoded v v' ∧ (found v' path).bind clamped ≠ none := by
  obtain ⟨n, hn, w, hfound, hw⟩ := h
  have hlocate : v.locate (place v path) = some w := by rw [← found_eq_locate, hfound]
  refine ⟨_, .single ⟨_, w, .number (.posInt n), n, hlocate, hw, .inl rfl, rfl⟩, ?_⟩
  rw [found_eq_locate, place_congr (isSome_locate_replace hw.isScalar (isScalar_number _) hlocate),
    locate_replace (hlocate ▸ rfl), Option.bind_some, clamped_number hn]
  exact Option.some_ne_none _

/-! ## When the form does not matter -/

/-- A safe search returns the first port in range. -/
theorem PortSafe.firstPort_eq (h : PortSafe v paths) :
    firstPort v paths = (paths.findSome? (within v)).getD 0 := by
  by_cases hclamped : ∃ path ∈ beforePort v paths, (found v path).bind clamped ≠ none
  · obtain ⟨path, hpath, hne⟩ := hclamped
    obtain ⟨port, hport⟩ := Option.ne_none_iff_exists'.mp hne
    rw [firstPort_of_clamped hpath hne, h path hpath (large_of_clamped hport)]
    rfl
  · push Not at hclamped
    exact firstPort_of_unclamped hclamped

theorem PortSafe.holdsPort (h : PortSafe v paths) (hne : firstPort v paths ≠ 0) :
    HoldsPort v (firstPort v paths) := by
  rw [h.firstPort_eq] at hne ⊢
  cases hsome : paths.findSome? (within v) with
  | none =>
      rw [hsome] at hne
      exact absurd rfl hne
  | some port =>
      rw [Option.getD_some]
      obtain ⟨path, -, hwithin⟩ := List.exists_of_findSome?_eq_some hsome
      obtain ⟨w, hfound, hw⟩ := Option.bind_eq_some_iff.mp (Option.filter_eq_some_iff.mp hwithin).1
      refine ⟨place v path, w, by rw [← found_eq_locate, hfound], ?_⟩
      cases w with
      | number number =>
          cases number with
          | posInt n =>
              refine .inl ⟨n, rfl, ?_⟩
              rw [portWithin_of_encodes (.inl rfl)] at hw
              split at hw
              · next hn =>
                  rw [← Option.some.inj hw, BitVec.toNat_ofNat, Nat.mod_eq_of_lt (by omega)]
              · cases hw
          | negInt n => cases hw
          | float text => cases hw
      | string s => exact .inr ⟨s, rfl, hw⟩
      | _ => cases hw

/-- A search that is blind to the form returns 65535, as it does for the number, and the
first port in range, as it does for the digits. -/
theorem EncodingBlind.portSafe (h : EncodingBlind v paths) : PortSafe v paths := by
  intro path hpath hlarge
  obtain ⟨number, hnumber, hclamped⟩ := exists_reencoded_clamped hlarge
  obtain ⟨digits, hdigits, hunclamped⟩ := exists_reencoded_unclamped v paths
  have hleft : firstPort v paths = 65535 := by
    rw [← (h.recoded _ hnumber).1]
    refine firstPort_of_clamped ?_ hclamped
    rwa [beforePort, within_of_reencoded hnumber]
  have hright : firstPort v paths = (paths.findSome? (within v)).getD 0 := by
    rw [← (h.recoded _ hdigits).1, ← within_of_reencoded hdigits]
    refine firstPort_of_unclamped fun later hlater => ?_
    exact hunclamped later ((List.takeWhile_prefix _).subset hlater)
  rw [hleft] at hright
  cases hsome : paths.findSome? (within v) with
  | none =>
      rw [hsome] at hright
      exact absurd hright (by decide)
  | some port =>
      rw [hsome, Option.getD_some] at hright
      rw [hright]

/-- The form of an integer never matters to a counter, and it matters to a port exactly if
the search meets an integer above 65535 before a port in range other than 65535. -/
theorem encodingBlind_iff (v : Value) (paths : List String) :
    (∀ v', Reencoded v v' → firstU64 v' paths = firstU64 v paths) ∧
      (EncodingBlind v paths ↔ PortSafe v paths) := by
  refine ⟨fun v' h => firstU64_of_reencoded h paths, fun h => h.portSafe,
    fun h => ⟨fun v' hreencoded => ⟨?_, firstU64_of_reencoded hreencoded paths⟩, h.holdsPort⟩⟩
  rw [(h.reencoded hreencoded).firstPort_eq, h.firstPort_eq, within_of_reencoded hreencoded]

/-- A port in range hides the integers behind it. -/
example : PortSafe (.object [("a", .number (.posInt 80)), ("b", .number (.posInt 70000))])
    ["a", "b"] := by
  rintro path ⟨⟩

/-- A source port out of range, as a number. -/
def largePort : Value := .object [("srcport", .number (.posInt 70000))]

theorem largePort_locate {address : Address} {w : Value} (h : largePort.locate address = some w) :
    w = largePort ∨ w = .number (.posInt 70000) := by
  cases address with
  | nil => exact .inl (Option.some.inj h).symm
  | cons step rest =>
      obtain ⟨below, hchild, hrest⟩ := Option.bind_eq_some_iff.mp h
      cases step with
      | key k =>
          have hentry := mem_of_get hchild
          rw [List.mem_singleton, Prod.mk.injEq] at hentry
          rw [hentry.2] at hrest
          cases rest with
          | nil => exact .inr (Option.some.inj hrest).symm
          | cons step rest => rw [locate_cons, isScalar_number] at hrest; cases hrest
      | index i => cases hchild

/-- The number 70000 is found as port 65535, which the document does not hold; its digits
are no port. -/
theorem firstPort_ne_recoded : ∃ v', Recoded largePort v' ∧
    firstPort largePort ["srcport"] = 65535 ∧ firstPort v' ["srcport"] = 0 ∧
    ¬ HoldsPort largePort (firstPort largePort ["srcport"]) := by
  refine ⟨.object [("srcport", .string "70000")],
    ⟨[.key "srcport"], _, .string "70000", 70000, rfl, .inl rfl, .inr rfl, rfl⟩,
    by decide, by decide, ?_⟩
  rintro ⟨address, leaf, hlocate, ⟨n, rfl, hn⟩ | ⟨s, rfl, hs⟩⟩
  · rcases largePort_locate hlocate with heq | heq
    · cases heq
    · cases heq
      exact absurd hn (by decide)
  · rcases largePort_locate hlocate with heq | heq <;> cases heq

end WazuhOcsf
