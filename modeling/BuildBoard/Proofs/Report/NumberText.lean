import BuildBoard.Proofs.Document.Differ
import BuildBoard.Proofs.Report.Alike

/-!
# Numbers written as text

Some producers write a counter or a time as a number, others as the text of its decimal digits. At
every place where a document is read for a number both give the same report, over the whole range
of 64-bit integers but its lower end: the sign is read apart from the digits, and the digits of the
least integer are no 64-bit integer by themselves. Its text is read as if there were no number.

Results:
1. `leadingInt?_decimalText`: the integer that the text of an integer begins with.
2. `ofDocument_of_numericPlace`: at a place where a number is read, documents may differ in
   everything but that number.
3. `number_as_text`: which integers may be written as text.
-/

namespace BuildBoard

/-! ## The text of an integer -/

open LeadingInt (Sign Signed ne_sign_of_isDigit leadingInt?_of_signed)

theorem isDigit_of_mem_decimalDigits {n : Nat} {c : Char} (h : c ∈ decimalDigits n) :
    c.isDigit = true :=
  Nat.isDigit_of_mem_toDigits (by decide) (by decide) h

theorem isBlank_of_isDigit {c : Char} (h : c.isDigit = true) : isBlank c = false := by
  have hrange : 48 ≤ c.toNat ∧ c.toNat ≤ 57 := by
    simpa [Char.isDigit, UInt32.le_iff_toNat_le] using h
  simp [isBlank]
  omega

theorem digitsValue_decimalDigits (n : Nat) : digitsValue (decimalDigits n) = n :=
  Nat.ofDigitChars_toDigits (by decide) (by decide)

theorem leadingMagnitude?_decimalDigits (n : Nat) :
    leadingMagnitude? (decimalDigits n) = if n < Nat.pow 2 63 then some n else none := by
  have hne : decimalDigits n ≠ [] := Nat.toDigits_ne_nil
  have hread : leadingMagnitude? (decimalDigits n ++ []) = _ :=
    leadingMagnitude?_append (fun _ hc => isDigit_of_mem_decimalDigits hc) nofun
  rwa [List.append_nil, if_neg hne, digitsValue_decimalDigits] at hread

/-- A text of digits begins with no blank and no sign. -/
theorem decimalDigits_eq_cons (n : Nat) :
    ∃ c cs, decimalDigits n = c :: cs ∧ isBlank c = false ∧ c ≠ '-' ∧ c ≠ '+' := by
  cases hdigits : decimalDigits n with
  | nil => exact absurd hdigits Nat.toDigits_ne_nil
  | cons c cs =>
    have hc : c.isDigit = true :=
      isDigit_of_mem_decimalDigits (n := n) (by rw [hdigits]; exact List.mem_cons_self)
    exact ⟨c, cs, rfl, isBlank_of_isDigit hc, ne_sign_of_isDigit hc⟩

theorem signed_decimalText (n : Int) : Signed ((decimalText n).toList.dropWhile isBlank)
    (if n < 0 then .minus else .absent) (decimalDigits n.natAbs) := by
  rw [decimalText, String.toList_ofList]
  split
  · rw [List.dropWhile_cons_of_neg (by decide)]
    exact ⟨rfl, fun habsent => by cases habsent⟩
  · obtain ⟨c, cs, hdigits, hblank, hminus, hplus⟩ := decimalDigits_eq_cons n.natAbs
    rw [hdigits, List.dropWhile_cons_of_neg (by rw [hblank]; decide)]
    refine ⟨rfl, fun _ d hd => ?_⟩
    obtain rfl : c = d := Option.some.inj hd
    exact ⟨hminus, hplus⟩

/-- The sign is read first, so the magnitude alone has to be a 64-bit integer. -/
theorem leadingInt?_decimalText (n : Int) :
    leadingInt? (decimalText n) = if n.natAbs < Nat.pow 2 63 then some n else none := by
  have hsign : (if n < 0 then Sign.minus else .absent).factor * (n.natAbs : Int) = n := by
    split <;> simp only [Sign.factor] <;> omega
  rw [leadingInt?_of_signed (signed_decimalText n), leadingMagnitude?_decimalDigits]
  by_cases hmagnitude : n.natAbs < Nat.pow 2 63
  · rw [if_pos hmagnitude, if_pos hmagnitude]
    exact congrArg some hsign
  · rw [if_neg hmagnitude, if_neg hmagnitude]
    rfl

/-! ## Where numbers are read -/

open Document (Step DifferAt LeadsTo AlikeBut alikeBut_lookup)

/-- The places of a document where a number is read: the counters and times of a build with its jobs
and packages, and the counters of the builds that a history or an overview lists. The workers of an
older producer are jobs. -/
inductive NumericPlace : List Step → Prop where
  | stats {name : String} {s : Step} (hs : LeadsTo Stats.fieldNames name s) :
      NumericPlace [.field "stats", s]
  | snap {name : String} {s : Step} (hs : LeadsTo Snap.fieldNames name s) :
      NumericPlace [.field "snap", s]
  | skipped (pkgname : String) : NumericPlace [.field "skipped", .field pkgname]
  | job (i : Nat) {s : Step} (hs : LeadsTo Job.fieldNames "started" s) :
      NumericPlace [.field "jobs", .element i, s]
  | worker (i : Nat) {s : Step} (hs : LeadsTo Job.fieldNames "started" s) :
      NumericPlace [.field "status", .element i, s]
  | package (c : Category) (i : Nat) {s : Step} (hs : LeadsTo (Entry.fieldNames c) "elapsed" s) :
      NumericPlace [.field "ports", .field c.name, .element i, s]
  | build {key name : String} {s t : Step} (hkey : key ≠ HistoryReport.latestKey)
      (hs : LeadsTo BuildSummary.fieldNames "stats" s) (ht : LeadsTo Stats.fieldNames name t) :
      NumericPlace [.field "builds", .field key, s, t]
  | latest (master : String) {name : String} {l s t : Step} (hl : LeadsTo ["latest"] "latest" l)
      (hs : LeadsTo BuildSummary.fieldNames "stats" s) (ht : LeadsTo Stats.fieldNames name t) :
      NumericPlace [.field "masternames", .field master, l, s, t]

/-! ## Values that stand for one number -/

variable {v v' d d' : Document} {name : String} {step s : Step} {place : List Step}

/-- Documents that differ inside are both there. -/
theorem optional_congr {α : Type} {decode : Document → Option α}
    (h : DifferAt v v' (step :: place) d d') (hdecode : decode d = decode d') :
    Document.optional decode (some d) = Document.optional decode (some d') := by
  cases h with
  | field => exact hdecode
  | element => exact hdecode

section
variable (hv : v.asCount? = v'.asCount?)
include hv

theorem count?_of_differAt (h : DifferAt v v' [] d d') :
    Document.count? (some d) = Document.count? (some d') := by
  cases h with
  | here => exact hv

theorem stats_ofFields_congr {field changed : String → Option Document}
    (h : AlikeBut (DifferAt v v' []) name field changed) :
    Stats.ofFields field = Stats.ofFields changed := by
  have hcount (other : String) : Document.count? (field other) = Document.count? (changed other) :=
    h.congr_any (fun _ _ => count?_of_differAt hv) other
  simp only [Stats.ofFields, Document.count, hcount]

theorem stats_decode?_congr (hs : LeadsTo Stats.fieldNames name s) (h : DifferAt v v' [s] d d') :
    Stats.decode? d = Stats.decode? d' :=
  h.record hs fun _ _ => stats_ofFields_congr hv

theorem snap_decode?_congr (hs : LeadsTo Snap.fieldNames name s) (h : DifferAt v v' [s] d d') :
    Snap.decode? d = Snap.decode? d' :=
  h.record hs fun _ _ hfields => by
    rw [stats_ofFields_congr hv hfields,
      hfields.congr_any (fun _ _ => count?_of_differAt hv) "now"]

theorem job_decode?_congr (hs : LeadsTo Job.fieldNames "started" s) (h : DifferAt v v' [s] d d') :
    Job.decode? d = Job.decode? d' :=
  h.record hs fun _ _ hfields => by
    simp only [Job.ofFields, hfields.congr (fun _ _ => count?_of_differAt hv),
      hfields.elsewhere "id" (by decide), hfields.elsewhere "status" (by decide),
      hfields.elsewhere "pkgname" (by decide), hfields.elsewhere "origin" (by decide),
      hfields.elsewhere "flavor" (by decide)]

theorem entry_decode?_congr {c : Category} (hs : LeadsTo (Entry.fieldNames c) "elapsed" s)
    (h : DifferAt v v' [s] d d') : Entry.decode? c d = Entry.decode? c d' :=
  h.record hs fun field changed hfields => by
    have helapsed : Document.count? (field "elapsed") = Document.count? (changed "elapsed") :=
      hfields.congr fun _ _ => count?_of_differAt hv
    have hpackage : Entry.packageOf field = Entry.packageOf changed := by
      simp only [Entry.packageOf, hfields.elsewhere "pkgname" (by decide),
        hfields.elsewhere "origin" (by decide), hfields.elsewhere "flavor" (by decide)]
    unfold Entry.ofFields
    rw [hpackage, helapsed, hfields.elsewhere "phase" (by decide),
      hfields.elsewhere "errortype" (by decide), hfields.elsewhere "depends" (by decide),
      hfields.elsewhere "reason" (by decide), hfields.elsewhere "pkgname" (by decide),
      hfields.elsewhere "status" (by decide)]

theorem summary_decode?_congr {t : Step} (hs : LeadsTo BuildSummary.fieldNames "stats" s)
    (ht : LeadsTo Stats.fieldNames name t) (h : DifferAt v v' [s, t] d d') :
    BuildSummary.decode? d = BuildSummary.decode? d' :=
  h.record hs fun field changed hfields => by
    have hstats : Document.optional Stats.decode? (field "stats") =
        Document.optional Stats.decode? (changed "stats") :=
      hfields.congr fun _ _ hinner => optional_congr hinner (stats_decode?_congr hv ht hinner)
    simp only [BuildSummary.ofFields, hstats, hfields.elsewhere "mastername" (by decide),
      hfields.elsewhere "buildname" (by decide), hfields.elsewhere "jailname" (by decide),
      hfields.elsewhere "setname" (by decide), hfields.elsewhere "ptname" (by decide),
      hfields.elsewhere "status" (by decide), hfields.elsewhere "elapsed" (by decide)]

/-- The entries of all categories, where an array of one of them differs. -/
theorem entries_congr {c : Category} {i : Nat} (hs : LeadsTo (Entry.fieldNames c) "elapsed" s)
    (before after : List (String × Document)) (h : DifferAt v v' [.element i, s] d d')
    (other : Category) :
    Packages.entries (before ++ (c.name, d) :: after) other =
      Packages.entries (before ++ (c.name, d') :: after) other := by
  have hlists := alikeBut_lookup c.name before after h
  by_cases hother : other.name = c.name
  · obtain rfl : other = c := by simpa using congrArg Category.ofName? hother
    refine hlists.congr (f := fun array =>
      (array.map (Document.rows (Entry.decode? other))).getD []) fun _ _ hinner => ?_
    exact hinner.rows fun _ _ => entry_decode?_congr hv hs
  · rw [Packages.entries, hlists.elsewhere other.name hother, Packages.entries]

theorem buildOf_congr {key : String} {t : Step} (hs : LeadsTo BuildSummary.fieldNames "stats" s)
    (ht : LeadsTo Stats.fieldNames name t) (h : DifferAt v v' [s, t] d d') :
    HistoryReport.buildOf (key, d) = HistoryReport.buildOf (key, d') := by
  have hsummary := summary_decode?_congr hv hs ht h
  cases h with
  | field => simp only [HistoryReport.buildOf, hsummary]
  | element => rfl

theorem masterOf_congr {master : String} {l t : Step} (hl : LeadsTo ["latest"] "latest" l)
    (hs : LeadsTo BuildSummary.fieldNames "stats" s) (ht : LeadsTo Stats.fieldNames name t)
    (h : DifferAt v v' [l, s, t] d d') :
    OverviewReport.masterOf (master, d) = OverviewReport.masterOf (master, d') :=
  h.record hl fun field changed hfields => by
    have hlatest : Document.optional BuildSummary.decode? (field "latest") =
        Document.optional BuildSummary.decode? (changed "latest") :=
      hfields.congr fun _ _ hinner => optional_congr hinner (summary_decode?_congr hv hs ht hinner)
    rw [hlatest]

end

/-! ## Documents that differ where a number is read -/

namespace Report

/-- Documents that differ inside a field have one outcome if that field is read alike. -/
theorem ofDocument_of_differAt (h : DifferAt v v' (.field name :: place) d d')
    (hread : ∀ e e', DifferAt v v' place e e' → ReadsAlike name (some e) (some e')) :
    ofDocument d = ofDocument d' := by
  cases h with
  | field before after hinner =>
    have hfields := alikeBut_lookup name before after hinner
    refine ofDocument_of_readsAlike fun other => ?_
    by_cases hother : other = name
    · subst hother
      rcases hfields.there with heq | ⟨e, e', he, he', hdiffer⟩
      · rw [heq]
        exact readsAlike_refl other _
      · rw [he, he']
        exact hread e e' hdiffer
    · rw [hfields.elsewhere other hother]
      exact readsAlike_refl other _

/-- At a place where a number is read only that number matters. -/
theorem ofDocument_of_numericPlace (hv : v.asCount? = v'.asCount?) (hplace : NumericPlace place)
    (h : DifferAt v v' place d d') : ofDocument d = ofDocument d' := by
  cases hplace with
  | stats hs =>
    exact ofDocument_of_differAt h fun e e' hinner =>
      optional_congr hinner (stats_decode?_congr hv hs hinner)
  | snap hs =>
    exact ofDocument_of_differAt h fun e e' hinner =>
      optional_congr hinner (snap_decode?_congr hv hs hinner)
  | skipped pkgname =>
    refine ofDocument_of_differAt h fun e e' hinner => ?_
    cases hinner with
    | field before after hvalue =>
      have hcount := congrArg (Option.getD · 0) (count?_of_differAt hv hvalue)
      refine ⟨?_, nofun⟩
      simp only [Document.counts?, List.map_append, List.map_cons, Document.count, hcount]
  | job i hs =>
    refine ofDocument_of_differAt h fun e e' hinner => ?_
    have hrows := hinner.rows fun _ _ => job_decode?_congr hv hs
    cases hinner with
    | element before after hvalue => exact congrArg some hrows
  | worker i hs =>
    refine ofDocument_of_differAt h fun e e' hinner => ?_
    have hrows := hinner.rows fun _ _ => job_decode?_congr hv hs
    cases hinner with
    | element before after hvalue => exact congrArg (some ∘ BuildStatus.workers) hrows
  | package c i hs =>
    refine ofDocument_of_differAt h fun e e' hinner => ?_
    cases hinner with
    | field before after hrows =>
      refine ⟨?_, packages_decode?_congr ?_ (entries_congr hv hs before after hrows)⟩
      · simp only [firstUnknown?, Document.fieldsOf, List.map_append, List.map_cons]
      · simp only [List.all_append, List.all_cons]
  | build hkey hs ht =>
    refine ofDocument_of_differAt h fun e e' hinner => ?_
    cases hinner with
    | field before after hbuild =>
      have hlatest := (alikeBut_lookup _ before after hbuild).elsewhere _ (Ne.symm hkey)
      refine ⟨rfl, congrArg (Option.bind · HistoryReport.latestOf) hlatest, ?_⟩
      simp only [Document.fieldsOf, List.filterMap_append, List.filterMap_cons,
        buildOf_congr hv hs ht hbuild]
  | latest master hl hs ht =>
    refine ofDocument_of_differAt h fun e e' hinner => ?_
    cases hinner with
    | field before after hmaster =>
      refine ⟨rfl, ?_⟩
      simp only [Document.fieldsOf, List.filterMap_append, List.filterMap_cons,
        masterOf_congr hv hl hs ht hmaster]

end Report

/-! ## Which integers may be written as text -/

open Report

theorem asCount?_decimalText_iff {n : Int} (hmin : int64Min ≤ n) (hmax : n ≤ int64Max) :
    (Document.text (decimalText n)).asCount? = (Document.int n).asCount? ↔ n ≠ int64Min := by
  have hword : (Document.int n).asCount? = some n := congrArg some (if_pos hmax)
  have hpow : Nat.pow 2 63 = 9223372036854775808 := by decide
  rw [hword, Document.asCount?, leadingInt?_decimalText, hpow]
  unfold int64Min int64Max at *
  split
  · exact iff_of_true rfl (by omega)
  · exact iff_of_false nofun (by omega)

/-- An integer may be written as text wherever one is read, unless it is the least one: its text is
read as no number at all. -/
theorem number_as_text {n : Int} (hmin : int64Min ≤ n) (hmax : n ≤ int64Max) {place : List Step}
    (hplace : NumericPlace place) (d d' : Document) :
    (n ≠ int64Min → DifferAt (.int n) (.text (decimalText n)) place d d' →
      ofDocument d = ofDocument d') ∧
    (n = int64Min → DifferAt .null (.text (decimalText n)) place d d' →
      ofDocument d = ofDocument d') ∧
    ((Document.text (decimalText n)).asCount? = (Document.int n).asCount? ↔ n ≠ int64Min) := by
  have hiff := asCount?_decimalText_iff hmin hmax
  refine ⟨fun hne hdiffer => ?_, fun hleast hdiffer => ?_, hiff⟩
  · exact ofDocument_of_numericPlace (hiff.mpr hne).symm hplace hdiffer
  · have hnone : Document.null.asCount? = (Document.text (decimalText n)).asCount? := by
      rw [hleast, Document.asCount?, leadingInt?_decimalText]
      decide
    exact ofDocument_of_numericPlace hnone hplace hdiffer

/-- A build document with this value for its queued packages. -/
def queuedDocument (value : Document) : Document :=
  .object [("buildname", .text "b"), ("stats", .object [("queued", value)])]

theorem differAt_queuedDocument (v v' : Document) :
    DifferAt v v' [.field "stats", .field "queued"] (queuedDocument v) (queuedDocument v') :=
  .field [("buildname", .text "b")] [] (.field [] [] .here)

/-- Twelve packages too few, and as many too few as a word can say. -/
theorem queued_as_text :
    ofDocument (queuedDocument (.int (-12))) = ofDocument (queuedDocument (.text "-12")) ∧
      (∃ r, ofDocument (queuedDocument (.text "-12")) = .ok (.build r) ∧
        r.stats.map Stats.queued = some (-12)) ∧
      ofDocument (queuedDocument .null) =
        ofDocument (queuedDocument (.text "-9223372036854775808")) := by
  have hplace : NumericPlace [.field "stats", .field "queued"] :=
    .stats (.named (by decide))
  refine ⟨?_, ⟨_, rfl, by decide +kernel⟩, ?_⟩
  · exact (number_as_text (n := -12) (by decide) (by decide) hplace _ _).1 (by decide)
      (differAt_queuedDocument (.int (-12)) (.text "-12"))
  · exact (number_as_text (n := int64Min) (by decide) (by decide) hplace _ _).2.1 rfl
      (differAt_queuedDocument .null (.text "-9223372036854775808"))

/-- The least integer, written as a number and as text. -/
theorem least_integer_as_text :
    let place : List Step := [.field "stats", .field "queued"]
    let text := decimalText int64Min
    NumericPlace place ∧ text = "-9223372036854775808" ∧
      DifferAt (.int int64Min) (.text text) place
        (queuedDocument (.int int64Min)) (queuedDocument (.text text)) ∧
      ofDocument (queuedDocument (.int int64Min)) ≠ ofDocument (queuedDocument (.text text)) := by
  refine ⟨.stats (.named (by decide)), by decide +kernel,
    differAt_queuedDocument _ _, fun heq => ?_⟩
  obtain ⟨r, hr, hqueued⟩ : ∃ r, ofDocument (queuedDocument (.int int64Min)) = .ok (.build r) ∧
      r.stats.map Stats.queued = some int64Min := ⟨_, rfl, by decide +kernel⟩
  obtain ⟨r', hr', hqueued'⟩ : ∃ r',
      ofDocument (queuedDocument (.text (decimalText int64Min))) = .ok (.build r') ∧
      r'.stats.map Stats.queued = some 0 := ⟨_, rfl, by decide +kernel⟩
  rw [hr, hr'] at heq
  obtain rfl : r = r' := by simpa using heq
  exact absurd (hqueued.symm.trans hqueued') (by decide)

end BuildBoard
