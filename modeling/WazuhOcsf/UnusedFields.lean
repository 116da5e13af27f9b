import WazuhOcsf.Reads
import WazuhOcsf.UnmappedReport

/-!
# Reported fields are unused

A path is reported as unmapped so that somebody maps it; what lies there should have had
no part in the record.  Whether it had is read off the offers of the alert (`Used`): the
string counts in a column if what comes before it is empty, in an extension key if what
comes after it is, and in the severity if no later label has the last word.  The record is
the same for every other string at a reported place exactly when it counts nowhere
(`reported_field_unused_iff`).  The native blocks read places that `KNOWN_PATHS` does not
list, and such a place can be reported and used (`reported_field_used`).
-/

namespace WazuhOcsf

open Json Json.Value RustString

/-- The alert with another string at an address of its `data`. -/
def replaceData (address : Address) (t : String) (obj : Map) : Map :=
  obj.map fun entry =>
    if entry.1 = "data" then ("data", replace (.string t) address entry.2) else entry

/-- The record without the copies of the alert. -/
def withoutCopies (rec : OcsfRecord) : OcsfRecord := { rec with eventData := "", rawData := "" }

theorem withoutCopies_severity (rec : OcsfRecord) :
    ((withoutCopies rec).severityId, (withoutCopies rec).severity) =
      (rec.severityId, rec.severity) := rfl

/-! ## Strings that count -/

/-- The first source that offers anything hands on the string at the address. -/
inductive Decides (data : Value) (address : Address) : List Source → Prop
  | here {source : Source} {rest : List Source} (h : source.Copies data address) :
      Decides data address (source :: rest)
  | later {source : Source} {rest : List Source} (hempty : source.eval data = "")
      (h : Decides data address rest) : Decides data address (source :: rest)

/-- The first mapping entry with a number for the column is mapped to the address. -/
inductive NumDecides (data : Value) (address : Address) (c : NumCol) :
    List (String × String) → Prop
  | here {entry : String × String} {rest : List (String × String)}
      (htarget : Target.of entry.2 = .num c) (h : (Source.mapped entry.1).Copies data address) :
      NumDecides data address c (entry :: rest)
  | later {entry : String × String} {rest : List (String × String)}
      (hnone : numOffer data c entry = none) (h : NumDecides data address c rest) :
      NumDecides data address c (entry :: rest)

/-- With its id an entry of `office365.Actor` is the first to offer a user, and without it
the next offer is another one. -/
inductive TypeDecides (data : Value) (i : ℕ) (id : String) : List Source → Prop
  | here {rest : List Source} (hid : id ≠ "")
      (hnext : firstOf ((rest.filter (· ≠ .actor i)).map (Source.eval data)) ≠ id) :
      TypeDecides data i id (.actor i :: rest)
  | later {source : Source} {rest : List Source} (hne : source ≠ .actor i)
      (hempty : source.eval data = "") (h : TypeDecides data i id rest) :
      TypeDecides data i id (source :: rest)

/-- The label is in its table and sets the severity, whatever it was. -/
def Settles (data : Value) (r : Rating × List String) : Prop :=
  r.1 ≠ .docker ∧ (r.1.table (strUnder (fieldsOf data) r.2)).isSome

/-- The label at the address has the last word on the severity; one of Docker only counts
below High. -/
inductive RatingDecides (data : Value) (address : Address) :
    List (Rating × List String) → BitVec 8 × String → Prop
  | here {r : Rating × List String} {rest : List (Rating × List String)}
      {severity : BitVec 8 × String} (haddress : r.2.map .key = address)
      (hsettles : ∀ later ∈ rest, ¬ Settles data later)
      (hdocker : r.1 = .docker → severity.1 < 4) :
      RatingDecides data address (r :: rest) severity
  | later {r : Rating × List String} {rest : List (Rating × List String)}
      {severity : BitVec 8 × String}
      (h : RatingDecides data address rest (r.1.apply (strUnder (fieldsOf data) r.2) severity)) :
      RatingDecides data address (r :: rest) severity

/-- The string at the address counts in the record of the alert. -/
inductive Used (env : TransformEnv) (custom : CustomMappings) (obj : Map) (address : Address) :
    Prop
  | column (c : StrCol) (h : Decides (dataOf obj) address (strSources env custom obj c))
  | extension (key : String)
      (h : Decides (dataOf obj) address (extensionSources env custom obj key))
  | number (c : NumCol) (hfind : NumCol.find (dataOf obj) c = 0)
      (hprocess : c = .processId →
        (parseUInt 32 (jpath (dataOf obj) "win.system.processID")).getD 0 = 0)
      (h : NumDecides (dataOf obj) address c (env.order.arrange custom.fieldMap.entries))
  /-- The type of an actor decides whether its id is the user. -/
  | actorType (i : ℕ) (haddress : actorAddress i "Type" = address)
      (h : TypeDecides (dataOf obj) i ((actorStr (dataOf obj) i "ID").getD "")
        (strSources env custom obj .actorUser))
  | severity (hscanner : Severity.ofScanner (scannerLabel obj) = none)
      (h : RatingDecides (dataOf obj) address (ratings (programOf obj))
        (mapSeverity (ruleLevel obj)))

/-! ## Offers with another string -/

section

variable {address : Address} {v v' : Value} {t : String}

/-- The lists are about a document in which no mapped path is the address as a key. -/
def Clear (address : Address) (l : List Source) : Prop :=
  ∀ source ∈ l, ∀ field, source = .mapped field → [.key field] ≠ address

theorem firstOf_of_decides (h : Varies address v v') (ht : v'.locate address = some (.string t))
    (hne : t ≠ "") {l : List Source} (hclear : Clear address l)
    (hactor : ∀ source ∈ l, ∀ i, source = .actor i → actorAddress i "Type" ≠ address)
    (hdecides : Decides v address l) : firstOf (l.map (Source.eval v')) = t := by
  induction l with
  | nil => cases hdecides
  | cons source rest ih =>
      rw [Clear, List.forall_mem_cons] at hclear
      rw [List.forall_mem_cons] at hactor
      rw [List.map_cons, firstOf_cons]
      by_cases hcopies : source.Copies v address
      · rw [eval_of_copies h ht hcopies hclear.1, orElse, if_neg hne]
      · cases hdecides with
        | here hhead => exact absurd hhead hcopies
        | later hempty hrest =>
            rw [eval_of_not_copies h hcopies hclear.1 hactor.1, hempty, empty_orElse,
              ih hclear.2 hactor.2 hrest]

theorem firstOf_of_not_decides (h : Varies address v v') {l : List Source}
    (hclear : Clear address l)
    (hactor : ∀ source ∈ l, ∀ i, source = .actor i → actorAddress i "Type" ≠ address)
    (hdecides : ¬ Decides v address l) :
    firstOf (l.map (Source.eval v')) = firstOf (l.map (Source.eval v)) := by
  induction l with
  | nil => rfl
  | cons source rest ih =>
      rw [Clear, List.forall_mem_cons] at hclear
      rw [List.forall_mem_cons] at hactor
      have hcopies : ¬ source.Copies v address := fun hcopies => hdecides (.here hcopies)
      rw [List.map_cons, List.map_cons, firstOf_cons, firstOf_cons,
        eval_of_not_copies h hcopies hclear.1 hactor.1]
      by_cases hempty : source.eval v = ""
      · rw [ih hclear.2 hactor.2 fun hrest => hdecides (.later hempty hrest)]
      · rw [orElse, orElse, if_neg hempty, if_neg hempty]

/-- A mapping entry away from the address offers the same number. -/
theorem numOffer_eq (h : Varies address v v') {c : NumCol} {entry : String × String}
    (hclear : [.key entry.1] ≠ address)
    (hcopies : ¬ (Target.of entry.2 = .num c ∧ (Source.mapped entry.1).Copies v address)) :
    numOffer v' c entry = numOffer v c entry := by
  by_cases htarget : Target.of entry.2 = .num c
  · have heval : (Source.mapped entry.1).eval v' = (Source.mapped entry.1).eval v :=
      eval_of_not_copies h (fun hcopy => hcopies ⟨htarget, hcopy⟩)
        (fun field heq => Source.mapped.inj heq ▸ hclear) (by simp)
    have hvalue : getDataField v' entry.1 = getDataField v entry.1 := heval
    rw [numOffer, numOffer, numValue, hvalue, numValue]
  · simp [numOffer, htarget]

theorem findSome?_of_numDecides (h : Varies address v v')
    (ht : v'.locate address = some (.string t)) {c : NumCol} {n : BitVec c.width}
    (hparse : parseUInt c.width t = some n) (hn : n ≠ 0) {entries : List (String × String)}
    (hclear : ∀ entry ∈ entries, [.key entry.1] ≠ address)
    (hdecides : NumDecides v address c entries) : entries.findSome? (numOffer v' c) = some n := by
  induction entries with
  | nil => cases hdecides
  | cons entry rest ih =>
      rw [List.forall_mem_cons] at hclear
      rw [List.findSome?_cons]
      by_cases hhead : Target.of entry.2 = .num c ∧ (Source.mapped entry.1).Copies v address
      · have heval : (Source.mapped entry.1).eval v' = t :=
          eval_of_copies h ht hhead.2 fun field heq => Source.mapped.inj heq ▸ hclear.1
        have hvalue : numValue v' c entry.1 = n := by
          have hfield : getDataField v' entry.1 = t := heval
          rw [numValue, hfield, hparse, Option.getD_some]
        rw [numOffer, hvalue, if_pos ⟨hhead.1, hn⟩]
      · cases hdecides with
        | here htarget hcopies => exact absurd ⟨htarget, hcopies⟩ hhead
        | later hnone hrest =>
            rw [numOffer_eq h hclear.1 hhead, hnone]
            exact ih hclear.2 hrest

theorem findSome?_of_not_numDecides (h : Varies address v v') {c : NumCol}
    {entries : List (String × String)} (hclear : ∀ entry ∈ entries, [.key entry.1] ≠ address)
    (hdecides : ¬ NumDecides v address c entries) :
    entries.findSome? (numOffer v' c) = entries.findSome? (numOffer v c) := by
  induction entries with
  | nil => rfl
  | cons entry rest ih =>
      rw [List.forall_mem_cons] at hclear
      rw [List.findSome?_cons, List.findSome?_cons,
        numOffer_eq h hclear.1 fun hhead => hdecides (.here hhead.1 hhead.2)]
      cases hoffer : numOffer v c entry with
      | some n => rfl
      | none => exact ih hclear.2 fun hrest => hdecides (.later hoffer hrest)

/-! ## Severities with another label -/

/-- A Docker level is never read after one of these. -/
def RatingsOrdered (l : List (Rating × List String)) : Prop :=
  l.Pairwise fun a b => a.2 ≠ b.2 ∧ (a.1 = .docker ∨ a.1 = .msGraph → b.1 ≠ .docker)

theorem rated_cons (v : Value) (severity : BitVec 8 × String) (r : Rating × List String)
    (rest : List (Rating × List String)) :
    rated v severity (r :: rest) =
      rated v (r.1.apply (strUnder (fieldsOf v) r.2) severity) rest := rfl

theorem apply_of_none {rating : Rating} {label : String} (h : rating.table label = none)
    (severity : BitVec 8 × String) : rating.apply label severity = severity := by
  rw [Rating.apply, h]

theorem apply_of_some {rating : Rating} (hdocker : rating ≠ .docker) {label : String}
    {rated : BitVec 8 × String} (h : rating.table label = some rated)
    (severity : BitVec 8 × String) : rating.apply label severity = rated := by
  rw [Rating.apply, h]
  exact if_neg fun hboth => hdocker hboth.1

theorem rated_congr (h : Varies address v v') {l : List (Rating × List String)}
    (hkeys : ∀ r ∈ l, r.2.map .key ≠ address) (severity : BitVec 8 × String) :
    rated v' severity l = rated v severity l := by
  induction l generalizing severity with
  | nil => rfl
  | cons r rest ih =>
      rw [List.forall_mem_cons] at hkeys
      rw [rated_cons, rated_cons, strUnder_eq h hkeys.1, ih hkeys.2]

/-- After a label that settles the severity it does not matter what it was. -/
theorem rated_of_settles {l : List (Rating × List String)} (hsettles : ∃ r ∈ l, Settles v r)
    (first second : BitVec 8 × String) : rated v first l = rated v second l := by
  induction l generalizing first second with
  | nil => obtain ⟨_, hmem, -⟩ := hsettles; cases hmem
  | cons r rest ih =>
      rw [rated_cons, rated_cons]
      by_cases hr : Settles v r
      · obtain ⟨severity, hsome⟩ := Option.isSome_iff_exists.mp hr.2
        rw [apply_of_some hr.1 hsome, apply_of_some hr.1 hsome]
      · obtain ⟨later, hmem, hlater⟩ := hsettles
        rcases List.mem_cons.mp hmem with rfl | hrest
        · exact absurd hlater hr
        · exact ih ⟨later, hrest, hlater⟩ _ _

theorem ofDocker_le (level : String) : (Severity.ofDocker level).1 ≤ 4 := by
  unfold Severity.ofDocker
  split <;> decide

/-- A Docker level raises the severity to High at most. -/
theorem docker_apply (label : String) (severity : BitVec 8 × String) :
    Rating.docker.apply label severity = severity ∨
      severity.1 < 4 ∧ (Rating.docker.apply label severity).1 ≤ 4 := by
  have hle := ofDocker_le label
  by_cases hlabel : label = ""
  · exact .inl (apply_of_none (by simp [Rating.table, hlabel]) severity)
  · have hraise : Rating.docker.apply label severity =
        if ¬ severity.1 < (Severity.ofDocker label).1 then severity
        else Severity.ofDocker label := by
      simp [Rating.apply, Rating.table, hlabel]
    rw [hraise]
    by_cases hlt : severity.1 < (Severity.ofDocker label).1
    · rw [if_neg (not_not_intro hlt)]
      exact .inr ⟨by bv_omega, hle⟩
    · exact .inl (if_pos hlt)

/-- A label that does not settle the severity keeps it, or is Docker's. -/
theorem apply_of_not_settles {r : Rating × List String} (h : ¬ Settles v r)
    (severity : BitVec 8 × String) :
    r.1.apply (strUnder (fieldsOf v) r.2) severity = severity ∨
      r.1 = .docker ∧ severity.1 < 4 ∧
        (r.1.apply (strUnder (fieldsOf v) r.2) severity).1 ≤ 4 := by
  by_cases hdocker : r.1 = .docker
  · rw [hdocker]
    exact (docker_apply _ severity).imp_right fun hraised => ⟨rfl, hraised⟩
  · have hnone : r.1.table (strUnder (fieldsOf v) r.2) = none :=
      Option.not_isSome_iff_eq_none.mp fun hsome => h ⟨hdocker, hsome⟩
    exact .inl (apply_of_none hnone severity)

section

variable {l : List (Rating × List String)} (hsettles : ∀ r ∈ l, ¬ Settles v r)
  {severity : BitVec 8 × String}

include hsettles

/-- Unsettled, a severity is kept: from High on whatever follows, and by all tables but
Docker's. -/
theorem rated_of_not_settles (hkept : (∀ r ∈ l, r.1 ≠ .docker) ∨ ¬ severity.1 < 4) :
    rated v severity l = severity := by
  induction l with
  | nil => rfl
  | cons r rest ih =>
      rw [List.forall_mem_cons] at hsettles
      have happly : r.1.apply (strUnder (fieldsOf v) r.2) severity = severity := by
        refine (apply_of_not_settles hsettles.1 severity).resolve_right fun hraised => ?_
        rcases hkept with hnone | hhigh
        · exact hnone r List.mem_cons_self hraised.1
        · exact hhigh hraised.2.1
      rw [rated_cons, happly]
      exact ih hsettles.2 (hkept.imp_left fun hnone => (List.forall_mem_cons.mp hnone).2)

/-- Unsettled, a severity below Critical stays below. -/
theorem rated_le_of_not_settles (hle : severity.1 ≤ 4) : (rated v severity l).1 ≤ 4 := by
  induction l generalizing severity with
  | nil => exact hle
  | cons r rest ih =>
      rw [List.forall_mem_cons] at hsettles
      rw [rated_cons]
      refine ih hsettles.2 ?_
      rcases apply_of_not_settles hsettles.1 severity with hkept | hraised
      · rwa [hkept]
      · exact hraised.2.2

end

/-- Another label at a place that does not decide leaves the severity. -/
theorem rated_of_not_decides (h : Varies address v v') {s : String}
    (hs : v.locate address = some (.string s)) (ht : v'.locate address = some (.string t))
    {l : List (Rating × List String)} (hordered : RatingsOrdered l) (hkeys : ∀ r ∈ l, r.2 ≠ [])
    {severity : BitVec 8 × String}
    (hdecides : ¬ RatingDecides v address l severity) :
    rated v' severity l = rated v severity l := by
  induction l generalizing severity with
  | nil => rfl
  | cons r rest ih =>
      rw [RatingsOrdered, List.pairwise_cons] at hordered
      rw [List.forall_mem_cons] at hkeys
      rw [rated_cons, rated_cons]
      by_cases hr : r.2.map .key = address
      · have hlabel : strUnder (fieldsOf v) r.2 = s := by
          rw [strUnder_eq_locate v hkeys.1, hr, hs]
          rfl
        have hlabel' : strUnder (fieldsOf v') r.2 = t := by
          rw [strUnder_eq_locate v' hkeys.1, hr, ht]
          rfl
        have hrest : ∀ later ∈ rest, later.2.map .key ≠ address := fun later hlater heq =>
          (hordered.1 later hlater).1
            (List.map_injective_iff.mpr (fun _ _ => Step.key.inj) (hr.trans heq.symm))
        rw [rated_congr h hrest, hlabel, hlabel']
        by_cases hsettles : ∃ later ∈ rest, Settles v later
        · exact rated_of_settles hsettles _ _
        · obtain ⟨hdocker, hhigh⟩ : r.1 = .docker ∧ ¬ severity.1 < 4 := by
            by_contra hmoves
            exact hdecides (.here hr (fun later hlater hsettled => hsettles ⟨later, hlater, hsettled⟩)
              fun hdocker => by_contra fun hhigh => hmoves ⟨hdocker, hhigh⟩)
          have hkept (label : String) : r.1.apply label severity = severity := by
            rw [hdocker]
            exact (docker_apply label severity).resolve_right fun hraised => hhigh hraised.1
          rw [hkept, hkept]
      · rw [strUnder_eq h hr]
        exact ih hordered.2 hkeys.2 fun hrest => hdecides (.later hrest)

/-- Where two labels are told apart, one of them changes a severity. -/
theorem exists_ne_of_ne {α : Type*} {f : String → α} {t u : String} (ht : t ≠ "") (hu : u ≠ "")
    (hne : f t ≠ f u) (x : α) : ∃ t, t ≠ "" ∧ f t ≠ x := by
  by_cases hx : f t = x
  · exact ⟨u, hu, fun heq => hne (hx.trans heq.symm)⟩
  · exact ⟨t, ht, hx⟩

/-- Two labels that every unsettled rest tells apart: a critical one, and one below. -/
theorem exists_rated_ne {rating : Rating} {critical low : String}
    (hcritical : rating.table critical = some Severity.critical)
    (hlow : ∃ severity, rating.table low = some severity ∧ severity.1 ≤ 4)
    (hcritical_ne : critical ≠ "") (hlow_ne : low ≠ "") (hdocker : rating ≠ .docker)
    {rest : List (Rating × List String)} (hsettles : ∀ later ∈ rest, ¬ Settles v later)
    (before : BitVec 8 × String) (x : BitVec 8 × String) :
    ∃ t, t ≠ "" ∧ rated v (rating.apply t before) rest ≠ x := by
  obtain ⟨severity, hseverity, hle⟩ := hlow
  refine exists_ne_of_ne (f := fun t => rated v (rating.apply t before) rest) hcritical_ne hlow_ne
    (fun heq => ?_) x
  rw [apply_of_some hdocker hcritical, apply_of_some hdocker hseverity,
    rated_of_not_settles hsettles (.inr (by decide))] at heq
  have hbelow := rated_le_of_not_settles hsettles hle
  rw [← heq] at hbelow
  exact absurd hbelow (by decide)

theorem guardDuty_nine : Rating.guardDuty.table "9" = some Severity.critical := by
  decide +kernel

theorem guardDuty_zero : Rating.guardDuty.table "0" = some Severity.informational := by
  decide +kernel

theorem not_ratingDecides {l : List (Rating × List String)}
    (hkeys : ∀ r ∈ l, r.2.map .key ≠ address) (severity : BitVec 8 × String) :
    ¬ RatingDecides v address l severity := by
  intro hdecides
  induction hdecides with
  | here haddress => exact hkeys _ List.mem_cons_self haddress
  | later _ ih => exact ih fun r hr => hkeys r (List.mem_cons_of_mem _ hr)

/-- Where a label decides, another one changes the severity. -/
theorem exists_rated_ne_of_decides {s : String} {document : String → Value}
    (hvaries : ∀ t, Varies address v (document t))
    (hdocument : ∀ t, (document t).locate address = some (.string t))
    (hs : v.locate address = some (.string s)) {l : List (Rating × List String)}
    (hordered : RatingsOrdered l) (hkeys : ∀ r ∈ l, r.2 ≠ []) {severity : BitVec 8 × String}
    (hdecides : RatingDecides v address l severity) :
    ∃ t, t ≠ "" ∧ rated (document t) severity l ≠ rated v severity l := by
  induction l generalizing severity with
  | nil => cases hdecides
  | cons r rest ih =>
      rw [RatingsOrdered, List.pairwise_cons] at hordered
      rw [List.forall_mem_cons] at hkeys
      by_cases hr : r.2.map .key = address
      · have hlabel : strUnder (fieldsOf v) r.2 = s := by
          rw [strUnder_eq_locate v hkeys.1, hr, hs]
          rfl
        have hlabel' (t : String) : strUnder (fieldsOf (document t)) r.2 = t := by
          rw [strUnder_eq_locate _ hkeys.1, hr, hdocument]
          rfl
        have hrest : ∀ later ∈ rest, later.2.map .key ≠ address := fun later hlater heq =>
          (hordered.1 later hlater).1
            (List.map_injective_iff.mpr (fun _ _ => Step.key.inj) (hr.trans heq.symm))
        have hrated (t : String) : rated (document t) severity (r :: rest) =
            rated v (r.1.apply t severity) rest := by
          rw [rated_cons, rated_congr (hvaries t) hrest, hlabel']
        simp only [hrated]
        obtain ⟨hsettles, hdocker⟩ : (∀ later ∈ rest, ¬ Settles v later) ∧
            (r.1 = .docker → severity.1 < 4) := by
          cases hdecides with
          | here _ hsettles hdocker => exact ⟨hsettles, hdocker⟩
          | later hlater => exact absurd hlater (not_ratingDecides hrest _)
        have hnone : r.1 = .docker ∨ r.1 = .msGraph → ∀ later ∈ rest, later.1 ≠ .docker :=
          fun hrating later hlater => (hordered.1 later hlater).2 hrating
        rw [rated_cons, hlabel]
        obtain ⟨rating, keys⟩ := r
        cases rating with
        | guardDuty =>
            exact exists_rated_ne guardDuty_nine ⟨_, guardDuty_zero, by decide⟩ (by decide) (by decide)
              (by decide) hsettles severity _
        | scanner =>
            exact exists_rated_ne (show Rating.scanner.table "critical" = _ from rfl)
              ⟨_, show Rating.scanner.table "low" = _ from rfl, by decide⟩ (by decide) (by decide)
              (by decide) hsettles severity _
        | securityHub =>
            exact exists_rated_ne (show Rating.securityHub.table "critical" = _ from rfl)
              ⟨_, show Rating.securityHub.table "low" = _ from rfl, by decide⟩ (by decide) (by decide)
              (by decide) hsettles severity _
        | gcp =>
            exact exists_rated_ne (show Rating.gcp.table "CRITICAL" = _ from rfl)
              ⟨_, show Rating.gcp.table "NOTICE" = _ from rfl, by decide⟩ (by decide) (by decide)
              (by decide) hsettles severity _
        | msGraph =>
            have hkept (before : BitVec 8 × String) : rated v before rest = before :=
              rated_of_not_settles hsettles (.inl (hnone (.inr rfl)))
            simp only [hkept]
            refine exists_ne_of_ne (f := fun t => Rating.msGraph.apply t severity)
              (t := "high") (u := "low") (by decide) (by decide) (fun heq => ?_) _
            rw [apply_of_some (by decide) (show Rating.msGraph.table "high" = _ from rfl),
              apply_of_some (by decide) (show Rating.msGraph.table "low" = _ from rfl)] at heq
            exact absurd heq (by decide)
        | docker =>
            have hkept (before : BitVec 8 × String) : rated v before rest = before :=
              rated_of_not_settles hsettles (.inl (hnone (.inl rfl)))
            simp only [hkept]
            have hbelow : severity.1 < 4 := hdocker rfl
            refine exists_ne_of_ne (f := fun t => Rating.docker.apply t severity)
              (t := "error") (u := "info") (by decide) (by decide) (fun heq => ?_) _
            have herror : Rating.docker.apply "error" severity = Severity.high :=
              if_neg fun hboth => hboth.2 hbelow
            have hinfo : (Rating.docker.apply "info" severity).1 < 4 := by
              have hraise : Rating.docker.apply "info" severity =
                  if Rating.docker = .docker ∧ ¬ severity.1 < 1 then severity
                  else Severity.informational := rfl
              rw [hraise]
              split
              · exact hbelow
              · decide
            rw [← heq, herror] at hinfo
            exact absurd hinfo (by decide)
      · have hrest : RatingDecides v address rest
            (r.1.apply (strUnder (fieldsOf v) r.2) severity) := by
          cases hdecides with
          | here haddress => exact absurd haddress hr
          | later hlater => exact hlater
        obtain ⟨t, hne, hchanged⟩ := ih hordered.2 hkeys.2 hrest
        refine ⟨t, hne, ?_⟩
        rwa [rated_cons, rated_cons, strUnder_eq (hvaries t) hr]

end

/-! ## The severity of an alert -/

/-- The ratings of an alert: that of its AWS source, if any, then GCP, Docker and MS
Graph. -/
theorem ratings_programOf (obj : Map) : ratings (programOf obj) =
    ratings (awsSourceProgram (dataOf obj)) ++ [(.gcp, ["gcp", "severity"]),
      (.docker, ["docker", "level"]), (.msGraph, ["ms-graph", "severity"])] := by
  have hvulnerability : ratings (vulnerabilityProgram (dataOf obj)) = [] := by
    unfold vulnerabilityProgram
    dsimp only
    split <;> rfl
  simp [programOf, program, modulesProgram, hvulnerability, windowsProgram, sectionsProgram,
    complianceProgram, contextProgram, awsCommonProgram, awsIdentityProgram, office365Program,
    gcpProgram, dockerProgram, msGraphProgram, ratings]

theorem ratings_awsSource (data : Value) :
    ratings (awsSourceProgram data) = [] ∨
      ratings (awsSourceProgram data) =
        [awsFindingRating data (strUnder (fieldsOf data) ["aws", "source"])] ∨
      ratings (awsSourceProgram data) = [(.securityHub, ["aws", "Severity", "Label"])] := by
  unfold awsSourceProgram
  dsimp only
  split_ifs <;> simp [awsFindingProgram, awsS3Program, ratings]

theorem awsFindingRating_cases (data : Value) (source : String) :
    awsFindingRating data source = (.guardDuty, ["aws", "severity"]) ∨
      awsFindingRating data source = (.scanner, ["aws", "severity", "description"]) ∨
      awsFindingRating data source = (.scanner, ["aws", "severity"]) := by
  unfold awsFindingRating
  split_ifs <;> simp

/-- The ratings of an alert read different labels, Docker's before that of MS Graph. -/
theorem ratingsOrdered_programOf (obj : Map) :
    RatingsOrdered (ratings (programOf obj)) ∧ ∀ r ∈ ratings (programOf obj), r.2 ≠ [] := by
  rw [ratings_programOf, RatingsOrdered]
  rcases ratings_awsSource (dataOf obj) with haws | haws | haws <;> rw [haws]
  · simp
  · rcases awsFindingRating_cases (dataOf obj) (strUnder (fieldsOf (dataOf obj)) ["aws", "source"])
      with hrating | hrating | hrating <;> simp [hrating]
  · simp

/-! ## The alert with another string -/

section

variable {address : Address} {t : String} {obj : Map}

theorem get_replaceData (key : String) :
    Map.get (replaceData address t obj) key =
      if key = "data" then (Map.get obj key).map (replace (.string t) address)
      else Map.get obj key :=
  lookup_map_replace (.string t) address obj "data" key

theorem dataOf_replaceData {s : String} (hstring : (dataOf obj).locate address = some (.string s)) :
    dataOf (replaceData address t obj) = replace (.string t) address (dataOf obj) := by
  rw [dataOf, get_replaceData, if_pos rfl, dataOf]
  cases hdata : Map.get obj "data" with
  | some data => rfl
  | none =>
      rw [dataOf, hdata] at hstring
      cases address with
      | nil => cases hstring
      | cons step rest => cases step <;> cases hstring

theorem filter_replaceData :
    (replaceData address t obj).filter (fun entry => !decide (entry.1 ∈ knownKeys)) =
      obj.filter fun entry => !decide (entry.1 ∈ knownKeys) := by
  induction obj with
  | nil => rfl
  | cons entry rest ih =>
      have hdata : "data" ∈ knownKeys := by decide
      rw [replaceData, List.map_cons, ← replaceData]
      by_cases hentry : entry.1 = "data"
      · rw [if_pos hentry, List.filter_cons_of_neg (by simp [hdata]),
          List.filter_cons_of_neg (by simp [hentry, hdata]), ih]
      · rw [if_neg hentry, List.filter_cons, List.filter_cons, ih]

/-- Only `data` is replaced. -/
theorem getSection_replaceData {key : String} (hkey : key ≠ "data") :
    getSection (replaceData address t obj) key = getSection obj key := by
  rw [getSection, get_replaceData, if_neg hkey, getSection]

theorem getStr_replaceData {key : String} (hkey : key ≠ "data") :
    getStr (replaceData address t obj) key = getStr obj key := by
  rw [getStr, get_replaceData, if_neg hkey, getStr]

/-- The class is made of other sections of the alert. -/
theorem classOf_replaceData : classOf (replaceData address t obj) = classOf obj := by
  simp [classOf, ruleGroups, getSection_replaceData, getStr_replaceData]

end

section

variable {env : TransformEnv} {custom : CustomMappings} {obj : Map} {address : Address} {s : String}
  (hstring : (dataOf obj).locate address = some (.string s))

include hstring

theorem varies_replaceData (t : String) :
    Varies address (dataOf obj) (dataOf (replaceData address t obj)) := by
  rw [dataOf_replaceData hstring]
  exact varies_replace hstring t

theorem locate_replaceData (t : String) :
    (dataOf (replaceData address t obj)).locate address = some (.string t) := by
  rw [dataOf_replaceData hstring, locate_replace (by rw [hstring]; rfl)]

variable (hreportable : Reportable custom (pathOf address))

include hreportable

theorem programOf_replaceData (t : String) :
    programOf (replaceData address t obj) = programOf obj := by
  rw [programOf, getSection_replaceData (by decide), getSection_replaceData (by decide),
    program_eq (varies_replaceData hstring t) hreportable, programOf]

theorem find_replaceData (t : String) :
    Columns.find (dataOf (replaceData address t obj)) = Columns.find (dataOf obj) :=
  find_eq (varies_replaceData hstring t) fun _ hpath => spares_of_known hreportable hpath

theorem nativeSources_replaceData (t : String) (c : StrCol) :
    nativeSources (replaceData address t obj) c = nativeSources obj c := by
  have hfound (c : StrCol) : firstStr (dataOf (replaceData address t obj)) c.paths =
      firstStr (dataOf obj) c.paths :=
    congrFun (congrArg Columns.str (find_replaceData hstring hreportable t)) c
  have hprotocol : firstStr (dataOf (replaceData address t obj)) FieldPaths.protocol =
      firstStr (dataOf obj) FieldPaths.protocol := hfound .networkProtocol
  have hkeys : ["aws", "source"].map .key ≠ address := fun heq =>
    hreportable.1 (heq ▸ programKeys_known ["aws", "source"] (by decide))
  have hsource :
      getStr (getSection (fieldsOf (dataOf (replaceData address t obj))) "aws") "source" =
      getStr (getSection (fieldsOf (dataOf obj)) "aws") "source" :=
    strUnder_eq (varies_replaceData hstring t) hkeys
  rw [nativeSources, nativeSources, programOf_replaceData hstring hreportable, hfound, protocolOf,
    hprotocol, hsource, protocolOf]

theorem strSources_replaceData (t : String) (c : StrCol) :
    strSources env custom (replaceData address t obj) c = strSources env custom obj c := by
  rw [strSources, nativeSources_replaceData hstring hreportable, strSources]

theorem extensionSources_replaceData (t : String) (key : String) :
    extensionSources env custom (replaceData address t obj) key =
      extensionSources env custom obj key := by
  rw [extensionSources, programOf_replaceData hstring hreportable, extensionSources]

/-- Numbers, title and finding of the native blocks are the same. -/
theorem sameRest_replaceData (t : String) :
    SameRest (nativeDraft (replaceData address t obj)) (nativeDraft obj) := by
  rw [nativeDraft_eq_runAll, nativeDraft_eq_runAll, programOf_replaceData hstring hreportable]
  exact sameRest_runAll _
    ⟨congrArg Columns.num (find_replaceData hstring hreportable t), rfl, rfl, rfl, rfl⟩

end

/-! ## The places of the record -/

/-- At the type of an actor nothing is handed on. -/
theorem not_copies_of_type {data : Value} {i : ℕ} (source : Source) :
    ¬ source.Copies data (actorAddress i "Type") := by
  have hkeys (keys : List String) : keys.map Step.key ≠ actorAddress i "Type" := by
    intro heq
    have hindex : Step.index i ∈ keys.map Step.key := by
      rw [heq]
      simp [actorAddress]
    obtain ⟨key, -, hkey⟩ := List.mem_map.mp hindex
    cases hkey
  cases source with
  | text _ => exact id
  | «at» keys => exact fun hcopies => hkeys keys hcopies.2
  | path p => exact hkeys _
  | actor j => simp [Source.Copies, actorAddress]
  | mapped field => exact fun hcopies => hkeys _ hcopies.1

theorem not_decides_of_type {data : Value} {i : ℕ} (l : List Source) :
    ¬ Decides data (actorAddress i "Type") l := by
  intro hdecides
  induction hdecides with
  | here hcopies => exact not_copies_of_type _ hcopies
  | later _ _ ih => exact ih

/-- The first offer, when the entry of `office365.Actor` offers `id`. -/
def firstWith (data : Value) (i : ℕ) (id : String) (l : List Source) : String :=
  firstOf (l.map fun source => if source = .actor i then id else source.eval data)

theorem firstWith_empty (data : Value) (i : ℕ) (l : List Source) :
    firstWith data i "" l =
      firstOf ((l.filter (· ≠ .actor i)).map (Source.eval data)) := by
  induction l with
  | nil => rfl
  | cons source rest ih =>
      rw [firstWith, List.map_cons, firstOf_cons, ← firstWith, ih]
      by_cases hsource : source = .actor i
      · simp [hsource]
      · simp [hsource, firstOf_cons]

/-- The type decides exactly when the id makes a difference. -/
theorem firstWith_ne_iff {data : Value} {i : ℕ} {id : String} {l : List Source} :
    firstWith data i id l ≠ firstWith data i "" l ↔ TypeDecides data i id l := by
  induction l with
  | nil => exact ⟨fun h => absurd rfl h, nofun⟩
  | cons source rest ih =>
      have hcons (id : String) : firstWith data i id (source :: rest) =
          orElse (if source = .actor i then id else source.eval data) (firstWith data i id rest) := rfl
      rw [hcons, hcons]
      by_cases hsource : source = .actor i
      · subst hsource
        rw [if_pos rfl, if_pos rfl, empty_orElse, firstWith_empty]
        by_cases hid : id = ""
        · subst hid
          rw [empty_orElse, firstWith_empty]
          refine ⟨fun h => absurd rfl h, fun h => ?_⟩
          cases h with
          | here hid => exact absurd rfl hid
          | later hne => exact absurd rfl hne
        · rw [orElse, if_neg hid]
          refine ⟨fun h => .here hid h.symm, fun h => ?_⟩
          cases h with
          | here _ hnext => exact hnext.symm
          | later hne => exact absurd rfl hne
      · rw [if_neg hsource, if_neg hsource]
        by_cases hempty : source.eval data = ""
        · rw [hempty, empty_orElse, empty_orElse, ih]
          refine ⟨.later hsource hempty, fun h => ?_⟩
          cases h with
          | here => exact absurd rfl hsource
          | later _ _ h => exact h
        · rw [orElse, orElse, if_neg hempty, if_neg hempty]
          refine ⟨fun h => absurd rfl h, fun h => ?_⟩
          cases h with
          | here => exact absurd rfl hsource
          | later _ hnone => exact absurd hnone hempty

section

variable {env : TransformEnv} {custom : CustomMappings} {obj : Map} {address : Address} {s : String}

theorem clear_strSources (hreportable : Reportable custom (pathOf address)) (c : StrCol) :
    Clear address (strSources env custom obj c) :=
  fun _ hmem field heq => key_ne_of_mapped hreportable ((mem_strSources hmem).1 field heq)

theorem clear_extensionSources (hreportable : Reportable custom (pathOf address)) (key : String) :
    Clear address (extensionSources env custom obj key) :=
  fun _ hmem field heq => key_ne_of_mapped hreportable ((mem_extensionSources hmem).1 field heq)

variable (hstring : (dataOf obj).locate address = some (.string s))
  (hreportable : Reportable custom (pathOf address))

include hstring hreportable

/-- With another type of an actor the user is one of two. -/
theorem actorUser_replaceData {i : ℕ} (haddress : actorAddress i "Type" = address) (t : String) :
    (mappedColumns env custom (replaceData address t obj)).1.str .actorUser =
      firstWith (dataOf obj) i (if t = "5" then (actorStr (dataOf obj) i "ID").getD "" else "")
        (strSources env custom obj .actorUser) := by
  have hvaries := varies_replaceData hstring t
  have hid : actorStr (dataOf (replaceData address t obj)) i "ID" =
      actorStr (dataOf obj) i "ID" := by
    rw [actorStr, strAt_eq hvaries (by simp [← haddress, actorAddress]), actorStr]
  have htype : actorStr (dataOf (replaceData address t obj)) i "Type" = some t := by
    rw [actorStr, haddress, locate_replaceData hstring]
    rfl
  rw [mappedColumns_str_eq_firstOf, strSources_replaceData hstring hreportable, firstWith]
  refine congrArg firstOf (List.map_congr_left fun source hmem => ?_)
  split
  · next hsource =>
      rw [hsource, eval_actor, htype, hid]
      simp
  · next hsource =>
      refine eval_of_not_copies hvaries (haddress ▸ not_copies_of_type source)
        (clear_strSources hreportable _ source hmem) fun j heq htypes => hsource ?_
      have hindex : j = i := by simpa [actorAddress] using htypes.trans haddress.symm
      rw [heq, hindex]

omit hreportable in
/-- The user with the type as it is. -/
theorem actorUser_eq_firstWith {i : ℕ} (haddress : actorAddress i "Type" = address) :
    (mappedColumns env custom obj).1.str .actorUser =
      firstWith (dataOf obj) i (if s = "5" then (actorStr (dataOf obj) i "ID").getD "" else "")
        (strSources env custom obj .actorUser) := by
  have htype : actorStr (dataOf obj) i "Type" = some s := by
    rw [actorStr, haddress, hstring]
    rfl
  rw [mappedColumns_str_eq_firstOf, firstWith]
  refine congrArg firstOf (List.map_congr_left fun source _ => ?_)
  split
  · next hsource =>
      rw [hsource, eval_actor, htype]
      simp
  · rfl

/-- A string that does not count leaves the string columns. -/
theorem str_of_not_used (hunused : ¬ Used env custom obj address) (t : String) (c : StrCol) :
    (mappedColumns env custom (replaceData address t obj)).1.str c =
      (mappedColumns env custom obj).1.str c := by
  by_cases htype : c = .actorUser ∧ ∃ i, actorAddress i "Type" = address
  · obtain ⟨rfl, i, haddress⟩ := htype
    have hsame : firstWith (dataOf obj) i ((actorStr (dataOf obj) i "ID").getD "")
        (strSources env custom obj .actorUser) =
          firstWith (dataOf obj) i "" (strSources env custom obj .actorUser) :=
      by_contra fun hne => hunused (.actorType i haddress (firstWith_ne_iff.mp hne))
    rw [actorUser_replaceData hstring hreportable haddress,
      actorUser_eq_firstWith hstring haddress]
    split_ifs <;> simp [hsame]
  · rw [mappedColumns_str_eq_firstOf, mappedColumns_str_eq_firstOf,
      strSources_replaceData hstring hreportable]
    refine firstOf_of_not_decides (varies_replaceData hstring t) (clear_strSources hreportable c)
      (fun source hmem i heq haddress => htype ⟨(mem_strSources hmem).2 i heq, i, haddress⟩)
      fun hdecides => hunused (.column c hdecides)

theorem extension_of_not_used (hunused : ¬ Used env custom obj address) (t key : String) :
    (mappedColumns env custom (replaceData address t obj)).2[key]? =
      (mappedColumns env custom obj).2[key]? := by
  rw [mappedColumns_extension_eq_stored, mappedColumns_extension_eq_stored,
    extensionSources_replaceData hstring hreportable]
  exact congrArg stored (firstOf_of_not_decides (varies_replaceData hstring t)
    (clear_extensionSources hreportable key)
    (fun source hmem i heq => absurd heq ((mem_extensionSources hmem).2 i))
    fun hdecides => hunused (.extension key hdecides))

theorem scannerLabel_replaceData (t : String) :
    scannerLabel (replaceData address t obj) = scannerLabel obj := by
  have hjpath : ∀ path ∈ programPaths,
      jpath (dataOf (replaceData address t obj)) path = jpath (dataOf obj) path := fun path hpath =>
    jpath_eq (varies_replaceData hstring t)
      (spares_of_known hreportable (programPaths_known path hpath)).2
  rw [scannerLabel, classOf_replaceData, hjpath _ (by simp [programPaths]),
    hjpath _ (by simp [programPaths]), scannerLabel]

theorem finalSeverity_replaceData (t : String) : finalSeverity (replaceData address t obj) =
    (Severity.ofScanner (scannerLabel obj)).getD (rated (dataOf (replaceData address t obj))
      (mapSeverity (ruleLevel obj)) (ratings (programOf obj))) := by
  have hlevel : ruleLevel (replaceData address t obj) = ruleLevel obj := by
    rw [ruleLevel, getSection_replaceData (by decide), ruleLevel]
  rw [finalSeverity_eq_rated, scannerLabel_replaceData hstring hreportable, hlevel,
    programOf_replaceData hstring hreportable]

theorem severity_of_not_used (hunused : ¬ Used env custom obj address) (t : String) :
    finalSeverity (replaceData address t obj) = finalSeverity obj := by
  rw [finalSeverity_replaceData hstring hreportable, finalSeverity_eq_rated]
  cases hscanner : Severity.ofScanner (scannerLabel obj) with
  | some severity => rw [Option.getD_some, Option.getD_some]
  | none =>
      obtain ⟨hordered, hkeys⟩ := ratingsOrdered_programOf obj
      have hdecides : ¬ RatingDecides (dataOf obj) address (ratings (programOf obj))
          (mapSeverity (ruleLevel obj)) := fun hdecides => hunused (.severity hscanner hdecides)
      rw [Option.getD_none, Option.getD_none]
      exact rated_of_not_decides (varies_replaceData hstring t) hstring (locate_replaceData hstring t)
        hordered hkeys hdecides

theorem num_of_not_used (hunused : ¬ Used env custom obj address) (t : String) (c : NumCol) :
    (mappedColumns env custom (replaceData address t obj)).1.num c =
      (mappedColumns env custom obj).1.num c := by
  have hnative : (nativeDraft (replaceData address t obj)).cols.num c =
      (nativeDraft obj).cols.num c :=
    congrFun (sameRest_replaceData hstring hreportable t).num c
  rw [mappedColumns, mappedColumns, overlay_num, overlay_num, hnative]
  refine ite_congr rfl (fun hzero => ?_) fun _ => rfl
  obtain ⟨hfind, hprocess⟩ := (native_num_eq_zero_iff obj c).mp hzero
  rw [findSome?_of_not_numDecides (varies_replaceData hstring t)
    (fun entry hentry => key_ne_of_mapped hreportable
      (List.mem_map_of_mem (env.order.mem_arrange.mp hentry)))
    fun hdecides => hunused (.number c hfind hprocess hdecides)]

/-- A string that does not count leaves the record. -/
theorem buildRecord_of_not_used {ext : Externals} {raw raw' : String}
    (hunused : ¬ Used env custom obj address) (t : String) :
    withoutCopies (buildRecord ext env custom raw' (replaceData address t obj)) =
      withoutCopies (buildRecord ext env custom raw obj) := by
  have hrest := sameRest_replaceData hstring hreportable t
  have hcols : (mappedColumns env custom (replaceData address t obj)).1 =
      (mappedColumns env custom obj).1 :=
    Columns.ext (funext (str_of_not_used hstring hreportable hunused t))
      (funext (num_of_not_used hstring hreportable hunused t))
  have hextensions : (mappedColumns env custom (replaceData address t obj)).2 =
      (mappedColumns env custom obj).2 :=
    Std.ExtTreeMap.ext_getElem? (extension_of_not_used hstring hreportable hunused t)
  have hseverity := severity_of_not_used hstring hreportable hunused t
  simp [withoutCopies, buildRecord, hrest.title, hrest.finding, hcols, hextensions, hseverity,
    finalColumns, finalActivity, timeOf, ruleGroups, ruleLevel, classOf_replaceData,
    getSection_replaceData, getStr_replaceData, get_replaceData, filter_replaceData]

omit hstring hreportable in
/-- What tells two strings apart in the record changes it for one of them. -/
theorem exists_buildRecord_ne_of_ne {α : Type*} {ext : Externals} {raw : String}
    {line : String → String} (observe : OcsfRecord → α)
    (hobserve : ∀ rec, observe (withoutCopies rec) = observe rec) {t u : String} (ht : t ≠ "")
    (hu : u ≠ "")
    (hne : observe (buildRecord ext env custom (line t) (replaceData address t obj)) ≠
      observe (buildRecord ext env custom (line u) (replaceData address u obj))) :
    ∃ t, t ≠ "" ∧ withoutCopies (buildRecord ext env custom (line t) (replaceData address t obj)) ≠
      withoutCopies (buildRecord ext env custom raw obj) := by
  obtain ⟨t, hempty, hchanged⟩ := exists_ne_of_ne
    (f := fun t => observe (buildRecord ext env custom (line t) (replaceData address t obj))) ht hu
    hne (observe (buildRecord ext env custom raw obj))
  refine ⟨t, hempty, fun heq => hchanged ?_⟩
  rw [← hobserve, heq, hobserve]

section

variable {ext : Externals} {raw : String} {line : String → String}

/-- A string that decides a column is in it. -/
theorem exists_ne_of_column {c : StrCol}
    (hdecides : Decides (dataOf obj) address (strSources env custom obj c)) :
    ∃ t, t ≠ "" ∧ withoutCopies (buildRecord ext env custom (line t) (replaceData address t obj)) ≠
      withoutCopies (buildRecord ext env custom raw obj) := by
  have hactor : ∀ i, actorAddress i "Type" ≠ address := fun i heq =>
    not_decides_of_type _ (heq ▸ hdecides)
  have hstr (t : String) (hne : t ≠ "") : (buildRecord ext env custom (line t)
      (replaceData address t obj)).columns.str c = t := by
    have hmapped : (mappedColumns env custom (replaceData address t obj)).1.str c = t := by
      rw [mappedColumns_str_eq_firstOf, strSources_replaceData hstring hreportable]
      exact firstOf_of_decides (varies_replaceData hstring t) (locate_replaceData hstring t) hne
        (clear_strSources hreportable c) (fun _ _ i _ => hactor i) hdecides
    rw [buildRecord_columns, finalColumns_str_of_mapped _ _ _ (by rw [hmapped]; exact hne), hmapped]
  refine exists_buildRecord_ne_of_ne (fun rec => rec.columns.str c) (fun _ => rfl)
    (show "a" ≠ "" by decide) (show "b" ≠ "" by decide) ?_
  rw [hstr _ (by decide), hstr _ (by decide)]
  decide

/-- A string that decides an extension key is stored under it. -/
theorem exists_ne_of_extension {key : String}
    (hdecides : Decides (dataOf obj) address (extensionSources env custom obj key)) :
    ∃ t, t ≠ "" ∧ withoutCopies (buildRecord ext env custom (line t) (replaceData address t obj)) ≠
      withoutCopies (buildRecord ext env custom raw obj) := by
  have hstored (t : String) (hne : t ≠ "") :
      (mappedColumns env custom (replaceData address t obj)).2[key]? = some t := by
    rw [mappedColumns_extension_eq_stored, extensionSources_replaceData hstring hreportable,
      firstOf_of_decides (varies_replaceData hstring t) (locate_replaceData hstring t) hne
        (clear_extensionSources hreportable key)
        (fun _ hmem i heq => absurd heq ((mem_extensionSources hmem).2 i)) hdecides,
      stored, if_neg hne]
  refine exists_buildRecord_ne_of_ne (fun rec => rec.extensions) (fun _ => rfl)
    (show "a" ≠ "" by decide) (show "b" ≠ "" by decide) fun heq => ?_
  rw [buildRecord_extensions, buildRecord_extensions] at heq
  have hentry := hstored "a" (by decide)
  rw [extensionsJson_injective heq, hstored "b" (by decide)] at hentry
  exact absurd hentry (by decide)

/-- Where a mapping entry fills a number column, every number lands in it. -/
theorem exists_ne_of_number {c : NumCol} (hfind : NumCol.find (dataOf obj) c = 0)
    (hprocess : c = .processId →
      (parseUInt 32 (jpath (dataOf obj) "win.system.processID")).getD 0 = 0)
    (hdecides : NumDecides (dataOf obj) address c (env.order.arrange custom.fieldMap.entries)) :
    ∃ t, t ≠ "" ∧ withoutCopies (buildRecord ext env custom (line t) (replaceData address t obj)) ≠
      withoutCopies (buildRecord ext env custom raw obj) := by
  have hclear : ∀ entry ∈ env.order.arrange custom.fieldMap.entries, [.key entry.1] ≠ address :=
    fun entry hentry => key_ne_of_mapped hreportable
      (List.mem_map_of_mem (env.order.mem_arrange.mp hentry))
  have hnum (t : String) {n : BitVec c.width} (hparse : parseUInt c.width t = some n)
      (hn : n ≠ 0) : (buildRecord ext env custom (line t)
        (replaceData address t obj)).columns.num c = n := by
    have hnative : (nativeDraft (replaceData address t obj)).cols.num c = 0 :=
      (congrFun (sameRest_replaceData hstring hreportable t).num c).trans
        ((native_num_eq_zero_iff obj c).mpr ⟨hfind, hprocess⟩)
    rw [buildRecord_columns, finalColumns_num, mappedColumns, overlay_num, if_pos hnative,
      findSome?_of_numDecides (varies_replaceData hstring t) (locate_replaceData hstring t) hparse hn
        hclear hdecides, Option.getD_some]
  obtain ⟨one, two, hone, htwo, hone_ne, htwo_ne, hne⟩ : ∃ one two : BitVec c.width,
      parseUInt c.width "1" = some one ∧ parseUInt c.width "2" = some two ∧
        one ≠ 0 ∧ two ≠ 0 ∧ one ≠ two := by
    cases c <;> exact ⟨1, 2, by decide, by decide, by decide, by decide, by decide⟩
  refine exists_buildRecord_ne_of_ne (fun rec => rec.columns.num c) (fun _ => rfl)
    (show "1" ≠ "" by decide) (show "2" ≠ "" by decide) ?_
  rw [hnum _ hone hone_ne, hnum _ htwo htwo_ne]
  exact hne

theorem exists_ne_of_actorType {i : ℕ} (haddress : actorAddress i "Type" = address)
    (hdecides : TypeDecides (dataOf obj) i ((actorStr (dataOf obj) i "ID").getD "")
      (strSources env custom obj .actorUser)) :
    ∃ t, t ≠ "" ∧ withoutCopies (buildRecord ext env custom (line t) (replaceData address t obj)) ≠
      withoutCopies (buildRecord ext env custom raw obj) := by
  have hstr (t : String) : (buildRecord ext env custom (line t)
      (replaceData address t obj)).columns.str .actorUser =
        firstWith (dataOf obj) i (if t = "5" then (actorStr (dataOf obj) i "ID").getD "" else "")
          (strSources env custom obj .actorUser) := by
    rw [buildRecord_columns, finalColumns_str _ _ _ (by decide),
      actorUser_replaceData hstring hreportable haddress]
  refine exists_buildRecord_ne_of_ne (fun rec => rec.columns.str .actorUser) (fun _ => rfl)
    (show "5" ≠ "" by decide) (show "6" ≠ "" by decide) ?_
  rw [hstr, hstr, if_pos rfl, if_neg (by decide)]
  exact firstWith_ne_iff.mpr hdecides

theorem exists_ne_of_severity (hscanner : Severity.ofScanner (scannerLabel obj) = none)
    (hdecides : RatingDecides (dataOf obj) address (ratings (programOf obj))
      (mapSeverity (ruleLevel obj))) :
    ∃ t, t ≠ "" ∧ withoutCopies (buildRecord ext env custom (line t) (replaceData address t obj)) ≠
      withoutCopies (buildRecord ext env custom raw obj) := by
  obtain ⟨hordered, hkeys⟩ := ratingsOrdered_programOf obj
  obtain ⟨t, hne, hchanged⟩ := exists_rated_ne_of_decides (varies_replaceData hstring)
    (locate_replaceData hstring) hstring hordered hkeys hdecides
  refine ⟨t, hne, fun heq => hchanged ?_⟩
  have hseverity : finalSeverity (replaceData address t obj) = finalSeverity obj := by
    rw [← buildRecord_severity ext env custom (line t), ← withoutCopies_severity, heq,
      withoutCopies_severity, buildRecord_severity]
  rwa [finalSeverity_replaceData hstring hreportable, finalSeverity_eq_rated, hscanner,
    Option.getD_none, Option.getD_none] at hseverity

/-- A string that counts does not leave the record for every other string. -/
theorem exists_buildRecord_ne (hused : Used env custom obj address) :
    ∃ t, t ≠ "" ∧ withoutCopies (buildRecord ext env custom (line t) (replaceData address t obj)) ≠
      withoutCopies (buildRecord ext env custom raw obj) := by
  cases hused with
  | column c h => exact exists_ne_of_column hstring hreportable h
  | extension key h => exact exists_ne_of_extension hstring hreportable h
  | number c hfind hprocess h => exact exists_ne_of_number hstring hreportable hfind hprocess h
  | actorType i haddress h => exact exists_ne_of_actorType hstring hreportable haddress h
  | severity hscanner h => exact exists_ne_of_severity hstring hreportable hscanner h

end

end

/-- Every other string at a reported place leaves the record, but for the two copies of
the alert, exactly when the string counts nowhere. -/
theorem reported_field_unused_iff {ext : Externals} {env : TransformEnv} {raw db : String}
    {specialLocs : List String} {custom : CustomMappings} {obj : Map} {address : Address}
    {s : String} {line : String → String} (hline : alertOf ext raw = some obj)
    (hlines : ∀ t, alertOf ext (line t) = some (replaceData address t obj))
    (hstring : (dataOf obj).locate address = some (.string s))
    (hrecorded : pathOf address ∈ (trackUnmappedFields (dataOf obj) custom .empty).keys) :
    (∀ t, t ≠ "" →
      (transform ext env (line t) db specialLocs custom).map (Prod.map id withoutCopies) =
        (transform ext env raw db specialLocs custom).map (Prod.map id withoutCopies)) ↔
      ¬ Used env custom obj address := by
  have hreportable : Reportable custom (pathOf address) :=
    ((mem_keys_trackUnmappedFields.mp hrecorded).resolve_left List.not_mem_nil).2
  have htable (t : String) : tableOf db specialLocs (replaceData address t obj) =
      tableOf db specialLocs obj := by
    simp [tableOf, getSection_replaceData, getStr_replaceData]
  have hsame (t : String) :
      (transform ext env (line t) db specialLocs custom).map (Prod.map id withoutCopies) =
        (transform ext env raw db specialLocs custom).map (Prod.map id withoutCopies) ↔
      withoutCopies (buildRecord ext env custom (line t) (replaceData address t obj)) =
        withoutCopies (buildRecord ext env custom raw obj) := by
    simp [transform_eq_map_alertOf, hline, hlines, htable]
  simp only [hsame]
  constructor
  · intro hall hused
    obtain ⟨t, hne, hchanged⟩ : ∃ t, t ≠ "" ∧
        withoutCopies (buildRecord ext env custom (line t) (replaceData address t obj)) ≠
          withoutCopies (buildRecord ext env custom raw obj) :=
      exists_buildRecord_ne hstring hreportable hused
    exact hchanged (hall t hne)
  · exact fun hunused t _ => buildRecord_of_not_used hstring hreportable hunused t

/-! ## Strings that are not read -/

/-- The statement moves or rates the string at the address. -/
def Assignment.Reads (data : Value) (address : Address) : Assignment → Prop
  | .fill _ source => source.Copies data address
  | .put _ source => source.Copies data address
  | .rate _ keys => keys.map .key = address
  | _ => False

theorem exists_copies_of_decides {data : Value} {address : Address} {l : List Source}
    (h : Decides data address l) : ∃ source ∈ l, source.Copies data address := by
  induction h with
  | here hcopies => exact ⟨_, List.mem_cons_self, hcopies⟩
  | later _ _ ih =>
      obtain ⟨source, hmem, hcopies⟩ := ih
      exact ⟨source, List.mem_cons_of_mem _ hmem, hcopies⟩

theorem exists_entry_of_numDecides {data : Value} {address : Address} {c : NumCol}
    {entries : List (String × String)} (h : NumDecides data address c entries) :
    ∃ entry ∈ entries, dotted entry.1 = address := by
  induction h with
  | here _ hcopies => exact ⟨_, List.mem_cons_self, hcopies.1⟩
  | later _ _ ih =>
      obtain ⟨entry, hmem, haddress⟩ := ih
      exact ⟨entry, List.mem_cons_of_mem _ hmem, haddress⟩

section

variable {env : TransformEnv} {custom : CustomMappings} {obj : Map} {address : Address} {s : String}

/-- What no statement reads and no mapped field splits into counts nowhere. -/
theorem not_used_of_unread (hprogram : ∀ a ∈ programOf obj, ¬ a.Reads (dataOf obj) address)
    (hmapped : ∀ field ∈ custom.fieldMap.keys, dotted field ≠ address)
    (hactor : ∀ i, actorAddress i "Type" ≠ address) : ¬ Used env custom obj address := by
  rintro (⟨c, hdecides⟩ | ⟨key, hdecides⟩ | ⟨c, -, -, hdecides⟩ | ⟨i, haddress, -⟩ | ⟨-, hdecides⟩)
  · obtain ⟨source, hmem, hcopies⟩ := exists_copies_of_decides hdecides
    rcases List.mem_append.mp hmem with hnative | hmap
    · rw [nativeSources] at hnative
      split at hnative
      · rw [List.mem_singleton.mp hnative] at hcopies
        exact hcopies
      · rcases List.mem_cons.mp hnative with rfl | hoffer
        · exact hcopies
        · exact hprogram _ (mem_offers.mp hoffer) hcopies
    · obtain ⟨entry, hentry, -, rfl⟩ := mem_mappedSources.mp hmap
      exact hmapped entry.1 (List.mem_map_of_mem (env.order.mem_arrange.mp hentry)) hcopies.1
  · obtain ⟨source, hmem, hcopies⟩ := exists_copies_of_decides hdecides
    rcases List.mem_append.mp hmem with hmap | hput
    · obtain ⟨entry, hentry, -, rfl⟩ := mem_mappedSources.mp (List.mem_reverse.mp hmap)
      exact hmapped entry.1 (List.mem_map_of_mem (env.order.mem_arrange.mp hentry)) hcopies.1
    · exact hprogram _ (mem_puts.mp (List.mem_reverse.mp hput)) hcopies
  · obtain ⟨entry, hmem, haddress⟩ := exists_entry_of_numDecides hdecides
    exact hmapped entry.1 (List.mem_map_of_mem (env.order.mem_arrange.mp hmem)) haddress
  · exact hactor i haddress
  · refine not_ratingDecides (fun r hr haddress => ?_) _ hdecides
    exact hprogram _ (mem_ratings.mp hr) haddress

end

instance {data : Value} {address : Address} : DecidablePred (Assignment.Reads data address)
  | .fill _ source => inferInstanceAs (Decidable (source.Copies data address))
  | .put _ source => inferInstanceAs (Decidable (source.Copies data address))
  | .rate _ keys => inferInstanceAs (Decidable (keys.map .key = address))
  | .processId _ | .title _ | .finding .. | .protocol => inferInstanceAs (Decidable False)

/-- A CloudTrail event with a field of the S3 access log. -/
def trailAlert : Map :=
  [("data", .object [("aws", .object [("bytes_sent", .string "512"),
    ("eventName", .string "GetObject"), ("source", .string "cloudtrail")])])]

/-- Where the S3 access log counts bytes. -/
def trailAddress : Address := ["aws", "bytes_sent"].map .key

theorem trail_not_read :
    ∀ a ∈ programOf trailAlert, ¬ a.Reads (dataOf trailAlert) trailAddress := by
  decide +kernel

theorem trail_recorded :
    pathOf trailAddress ∈ (trackUnmappedFields (dataOf trailAlert) default .empty).keys := by
  refine mem_keys_trackUnmappedFields.mpr (.inr ⟨?_, ?_⟩) <;> decide +kernel

theorem trail_not_used : ¬ Used default default trailAlert trailAddress := by
  refine not_used_of_unread trail_not_read (fun _ hfield => ?_) fun i => ?_
  · cases hfield
  · simp [trailAddress, actorAddress]

/-- The access log is not looked at in a CloudTrail event. -/
theorem reported_field_unused_trail :
    (∀ t, t ≠ "" → (transform .reading default
        (Value.object (replaceData trailAddress t trailAlert)).toJson "wazuh" [] default).map
          (Prod.map id withoutCopies) =
        (transform .reading default (Value.object trailAlert).toJson "wazuh" [] default).map
          (Prod.map id withoutCopies)) ∧
      (transform .reading default (Value.object trailAlert).toJson "wazuh" [] default).isSome := by
  refine ⟨(reported_field_unused_iff (alertOf_toJson trailAlert)
    (fun t => alertOf_toJson _) rfl trail_recorded).mpr trail_not_used, ?_⟩
  rw [transform_eq_map_alertOf, alertOf_toJson]
  rfl

/-- Where MS Graph has its title. -/
def graphAddress : Address := ["ms-graph", "title"].map .key

/-- An alert of MS Graph with a title. -/
def graphAlert : Map := [("data", .object [("ms-graph", .object [("title", .string "phishing")])])]

/-- The text of an alert of MS Graph with a title. -/
def graphLine (title : String) : String :=
  "\x7b\"data\":\x7b\"ms-graph\":\x7b\"title\":\"" ++ title ++ "\"\x7d\x7d\x7d"

/-- Without a mapping table the rule name is the one of the native blocks. -/
theorem transform_ruleName {ext : Externals} {raw : String} {obj : Map}
    (hline : alertOf ext raw = some obj) :
    (transform ext default raw "wazuh" [] default).map (fun result => result.2.columns.str .ruleName)
      = some ((nativeDraft obj).cols.str .ruleName) := by
  have hmapped : mappedColumns default default obj = ((nativeDraft obj).cols, _) :=
    mappedColumns_of_empty default default obj
  rw [transform_eq_map_alertOf, hline, Option.map_some, Option.map_some, buildRecord_columns,
    finalColumns_str _ _ _ (by decide), hmapped]

/-- The title of an MS Graph alert is reported as unmapped, and it is the rule name of
the record. -/
theorem reported_field_used : ∃ ext,
    alertOf ext (graphLine "phishing") = some graphAlert ∧
      alertOf ext (graphLine "malware") = some (replaceData graphAddress "malware" graphAlert) ∧
      (dataOf graphAlert).locate graphAddress = some (.string "phishing") ∧
      pathOf graphAddress ∈ (trackUnmappedFields (dataOf graphAlert) default .empty).keys ∧
      (transform ext default (graphLine "malware") "wazuh" [] default).map
          (fun result => result.2.columns.str .ruleName) = some "malware" ∧
      (transform ext default (graphLine "phishing") "wazuh" [] default).map
          (fun result => result.2.columns.str .ruleName) = some "phishing" := by
  obtain ⟨hline, hline'⟩ := alertOf_knowingBoth (graphLine "phishing") (graphLine "malware")
    graphAlert (replaceData graphAddress "malware" graphAlert) (by decide +kernel)
    (by decide +kernel) (by decide +kernel)
  refine ⟨_, hline, hline', rfl, ?_, ?_, ?_⟩
  · refine mem_keys_trackUnmappedFields.mpr (.inr ⟨?_, ?_⟩) <;> decide +kernel
  · rw [transform_ruleName hline']
    decide +kernel
  · rw [transform_ruleName hline]
    decide +kernel

end WazuhOcsf
