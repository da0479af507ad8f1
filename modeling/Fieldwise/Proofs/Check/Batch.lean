import Fieldwise.Check.Batch
import Fieldwise.Proofs.Validation.Walk
import Mathlib.Data.List.Forall2

/-!
# Templates of a manifest are checked one by one

Each template of a manifest has an outcome of its own, which is told here by rules that know nothing
of the other templates and nothing of the loop that goes through them.

* `ManifestEntry.HasText`, `ManifestEntry.Fails`, `ManifestEntry.Yields` : the text of a template,
  what stands in the way of its check, and what a check of it alone comes to.
* `ManifestEntry.check_eq_error_iff`, `ManifestEntry.yields_iff` : the check follows these rules.
* `checkEntries_true_error_iff`, `checkEntries_true_of_ok` : where a loop ends early, and what it
  gives if it does not.
* `Manifest.check_isolated` : the report of a manifest, whether errors end the run or not.
-/

set_option autoImplicit false

namespace Fieldwise

/-! ## One template -/

namespace ManifestEntry

section Rules

variable (c : Catalog) (suggest : Suggester) (read : TextReader) (directory : String)
  (entry : ManifestEntry)

/-- The text of a template stands in the manifest or in a file beside it, but not in both. -/
inductive HasText : String → Prop
  | inline {text : String} (htemplate : entry.template = some text) (hfile : entry.file = none) :
    HasText text
  | file {path text : String} (htemplate : entry.template = none) (hfile : entry.file = some path)
    (hread : read (Path.join directory path) = .ok text) : HasText text

/-- What stands in the way of checking a template: it cannot be read, or not be parsed or built. -/
inductive Fails : CheckError → Prop
  | unclear (hsources : entry.template.isSome = entry.file.isSome) :
    Fails (.unclearSource entry.name)
  | unreadable {path : String} {fault : FileFault} (htemplate : entry.template = none)
    (hfile : entry.file = some path) (hread : read (Path.join directory path) = .error fault) :
    Fails (.file fault)
  | refused {text : String} {e : TemplateError} (htext : entry.HasText read directory text)
    (hbuild : CallTree.ofSource text = .error e) : Fails (.template e)

/-- What a check of a template alone comes to. -/
inductive Yields : Outcome → Prop
  | valid {text : String} {t : CallTree} (htext : entry.HasText read directory text)
    (hbuild : CallTree.ofSource text = .ok t)
    (hfits : c.mismatches suggest [] entry.type t = []) : Yields .valid
  | invalid {text : String} {t : CallTree} (htext : entry.HasText read directory text)
    (hbuild : CallTree.ofSource text = .ok t)
    (hdiffers : c.mismatches suggest [] entry.type t ≠ []) :
    Yields (.invalid (c.mismatches suggest [] entry.type t))
  | failed {e : CheckError} (h : entry.Fails read directory e) : Yields (.failed e.message)

end Rules

variable {c : Catalog} {suggest : Suggester} {read : TextReader} {directory : String}
  {entry : ManifestEntry}

theorem source_eq_ok_iff {text : String} :
    entry.source read directory = .ok text ↔ entry.HasText read directory text := by
  obtain ⟨name, type, template, file⟩ := entry
  constructor
  · intro h
    cases template with
    | none =>
      cases file with
      | none => cases h
      | some path =>
        rw [source, origin?] at h
        cases hread : read (Path.join directory path) with
        | error fault => simp [hread, Except.mapError] at h
        | ok text' =>
          simp only [hread, Except.mapError, Except.ok.injEq] at h
          exact .file rfl rfl (h ▸ hread)
    | some text' =>
      cases file with
      | none =>
        cases h
        exact .inline rfl rfl
      | some path => cases h
  · rintro (⟨rfl, rfl⟩ | ⟨rfl, rfl, hread⟩)
    · rfl
    · simp [source, origin?, hread, Except.mapError]

/-- A template without a text fails. -/
theorem fails_of_source {e : CheckError} (h : entry.source read directory = .error e) :
    entry.Fails read directory e := by
  obtain ⟨name, type, template, file⟩ := entry
  cases template with
  | none =>
    cases file with
    | none =>
      cases h
      exact .unclear rfl
    | some path =>
      rw [source, origin?] at h
      cases hread : read (Path.join directory path) with
      | error fault =>
        simp only [hread, Except.mapError, Except.error.injEq] at h
        exact h ▸ .unreadable rfl rfl hread
      | ok text => simp [hread, Except.mapError] at h
  | some text =>
    cases file with
    | none => cases h
    | some path =>
      cases h
      exact .unclear rfl

/-- **A check breaks off with an error exactly if the template fails with it.** -/
theorem check_eq_error_iff {e : CheckError} :
    entry.check c suggest read directory = .error e ↔ entry.Fails read directory e := by
  constructor
  · intro h
    rw [check] at h
    split at h
    · next hsource =>
      cases h
      exact fails_of_source hsource
    · next text hsource =>
      rw [Catalog.checkTemplate] at h
      split at h
      · next hbuild =>
        cases h
        exact .refused (source_eq_ok_iff.mp hsource) hbuild
      · cases h
  · intro h
    cases h with
    | unclear hsources =>
      obtain ⟨name, type, _ | template, _ | file⟩ := entry
      · rfl
      · cases hsources
      · cases hsources
      · rfl
    | unreadable htemplate hfile hread =>
      simp [check, source, origin?, htemplate, hfile, hread, Except.mapError]
    | refused htext hbuild =>
      simp [check, source_eq_ok_iff.mpr htext, Catalog.checkTemplate, hbuild, Except.mapError]

/-- A check that does not break off gives the verdict on the tree of the text. -/
theorem exists_text_of_check {v : Verdict} (h : entry.check c suggest read directory = .ok v) :
    ∃ text t, entry.HasText read directory text ∧ CallTree.ofSource text = .ok t ∧
      v = c.validate suggest t entry.type := by
  rw [check] at h
  split at h
  · cases h
  next text hsource =>
  rw [Catalog.checkTemplate] at h
  split at h
  · cases h
  next t hbuild =>
  cases h
  exact ⟨text, t, source_eq_ok_iff.mp hsource, hbuild, rfl⟩

theorem check_of_text {text : String} {t : CallTree} (htext : entry.HasText read directory text)
    (hbuild : CallTree.ofSource text = .ok t) :
    entry.check c suggest read directory = .ok (c.validate suggest t entry.type) := by
  simp [check, source_eq_ok_iff.mpr htext, Catalog.checkTemplate, hbuild, Except.mapError]

/-- **What a template yields is the outcome of its check**, and nothing else. -/
theorem yields_iff {outcome : Outcome} :
    entry.Yields c suggest read directory outcome ↔
      outcome = .ofCheck (entry.check c suggest read directory) := by
  constructor
  · intro h
    cases h with
    | valid htext hbuild hfits =>
      rw [check_of_text htext hbuild, Outcome.ofCheck, Outcome.ofVerdict, Verdict.isValid,
        Catalog.mismatches_validate, hfits]
      rfl
    | invalid htext hbuild hdiffers =>
      rw [check_of_text htext hbuild, Outcome.ofCheck, Outcome.ofVerdict, Verdict.isValid,
        Catalog.mismatches_validate, if_neg (by simpa using hdiffers)]
    | failed h =>
      rw [check_eq_error_iff.mpr h]
      rfl
  · rintro rfl
    cases hcheck : entry.check c suggest read directory with
    | error e => exact .failed (check_eq_error_iff.mp hcheck)
    | ok v =>
      obtain ⟨text, t, htext, hbuild, rfl⟩ := exists_text_of_check hcheck
      rw [Outcome.ofCheck, Outcome.ofVerdict, Verdict.isValid, Catalog.mismatches_validate]
      by_cases hfits : c.mismatches suggest [] entry.type t = []
      · rw [if_pos (by simpa using hfits)]
        exact .valid htext hbuild hfits
      · rw [if_neg (by simpa using hfits)]
        exact .invalid htext hbuild hfits

end ManifestEntry

/-! ## One after another -/

section Loop

variable {check : ManifestEntry → Except CheckError Verdict}

/-- Behind a template that does not fail the loop goes on. -/
theorem checkEntries_cons_ok {entry : ManifestEntry} {v : Verdict} (h : check entry = .ok v)
    (failFast : Bool) (rest : List ManifestEntry) :
    checkEntries check failFast (entry :: rest) =
      (checkEntries check failFast rest).map (entry.report (.ofVerdict v) :: ·) := by
  simp only [checkEntries, h, Outcome.ofCheck]

/-- **The loop ends early exactly at the first template that fails.** -/
theorem checkEntries_true_error_iff {e : CheckError} {entries : List ManifestEntry} :
    checkEntries check true entries = .error e ↔
      ∃ before entry after, entries = before ++ entry :: after ∧
        (∀ earlier ∈ before, ∀ e', check earlier ≠ .error e') ∧ check entry = .error e := by
  induction entries with
  | nil => simp [checkEntries]
  | cons entry rest ih =>
    simp only [List.cons_eq_append_iff]
    cases hcheck : check entry with
    | error e' =>
      simp only [checkEntries, hcheck, Except.error.injEq]
      constructor
      · rintro rfl
        exact ⟨[], entry, rest, .inl ⟨rfl, rfl⟩, List.forall_mem_nil _, hcheck⟩
      · rintro ⟨before, failing, after, ⟨rfl, hentries⟩ | ⟨before, rfl, -⟩, hbefore, hfails⟩
        · cases hentries
          exact Except.error.inj (hcheck.symm.trans hfails)
        · exact absurd hcheck (hbefore entry List.mem_cons_self e')
    | ok v =>
      have hrest : checkEntries check true (entry :: rest) = .error e ↔
          checkEntries check true rest = .error e := by
        rw [checkEntries_cons_ok hcheck]
        cases checkEntries check true rest <;> simp [Except.map]
      rw [hrest, ih]
      constructor
      · rintro ⟨before, failing, after, rfl, hbefore, hfails⟩
        refine ⟨entry :: before, failing, after, .inr ⟨before, rfl, rfl⟩, ?_, hfails⟩
        exact List.forall_mem_cons.mpr ⟨fun e' => by simp [hcheck], hbefore⟩
      · rintro ⟨before, failing, after, ⟨-, hentries⟩ | ⟨before, rfl, rfl⟩, hbefore, hfails⟩
        · cases hentries
          cases hcheck.symm.trans hfails
        · exact ⟨before, failing, after, rfl, (List.forall_mem_cons.mp hbefore).2, hfails⟩

/-- A loop that does not end early is the one that never does. -/
theorem checkEntries_true_of_ok : ∀ {entries : List ManifestEntry} {reports : List TemplateReport},
    checkEntries check true entries = .ok reports → checkEntries check false entries = .ok reports
  | [], _, h => h
  | entry :: rest, _, h => by
    cases hcheck : check entry with
    | error e =>
      simp only [checkEntries, hcheck, reduceCtorEq] at h
    | ok v =>
      rw [checkEntries_cons_ok hcheck] at h ⊢
      cases hrest : checkEntries check true rest with
      | error e =>
        rw [hrest] at h
        cases h
      | ok reports =>
        rw [hrest] at h
        rw [checkEntries_true_of_ok hrest, h]

end Loop

/-! ## Counting -/

namespace BatchReport

/-- Every outcome is counted once. -/
theorem valid_add_invalid_add_failed (report : BatchReport) :
    report.valid + report.invalid + report.failed = report.total := by
  obtain ⟨templates⟩ := report
  simp only [valid, invalid, failed, total, count]
  induction templates with
  | nil => rfl
  | cons template rest ih =>
    cases houtcome : template.outcome <;> simp [houtcome] <;> omega

theorem isSuccess_iff (report : BatchReport) :
    report.isSuccess = true ↔ ∀ template ∈ report.templates, template.outcome = .valid := by
  rw [isSuccess, decide_eq_true_iff, valid, count, total, List.countP_eq_length]
  refine forall₂_congr fun template _ => ?_
  cases template.outcome <;> simp

end BatchReport

/-! ## The whole manifest -/

/-- **The templates of a manifest are checked one by one.** Each has one outcome of its own. Unless
errors end the run, the report holds these outcomes in the order of the manifest, so that of two
manifests in a row it holds those of the first and then those of the second. If errors end the run,
it ends with that of the first template that fails, and is the same run if none does. In every
report each outcome is counted once. -/
theorem Manifest.check_isolated (c : Catalog) (read : TextReader) (suggestions : Bool)
    (directory : String) :
    let yields (entry : ManifestEntry) (outcome : Outcome) : Prop :=
      entry.Yields c (.ofChoice suggestions) read directory outcome
    let run (failFast : Bool) (entries : List ManifestEntry) : Except CheckError BatchReport :=
      Manifest.check ⟨entries, directory⟩ c ⟨failFast, suggestions⟩ read
    (∀ entry, ∃! outcome, yields entry outcome) ∧
    (∀ entries, ∃ report, run false entries = .ok report ∧
      List.Forall₂ (fun entry template => template.name = entry.name ∧
        template.type = entry.type ∧ yields entry template.outcome) entries report.templates) ∧
    (∀ front back, ∃ a b, run false front = .ok a ∧ run false back = .ok b ∧
      run false (front ++ back) = .ok ⟨a.templates ++ b.templates⟩) ∧
    (∀ entries e, run true entries = .error e ↔
      ∃ before entry after, entries = before ++ entry :: after ∧
        (∀ earlier ∈ before, ∀ e', ¬ earlier.Fails read directory e') ∧
        entry.Fails read directory e) ∧
    (∀ entries, (∃ e, run true entries = .error e) ∨ run true entries = run false entries) ∧
    ∀ report : BatchReport, report.valid + report.invalid + report.failed = report.total ∧
      (report.isSuccess = true ↔ ∀ template ∈ report.templates, template.outcome = .valid) := by
  intro yields run
  let alone (entry : ManifestEntry) : Except CheckError Verdict :=
    entry.check c (.ofChoice suggestions) read directory
  have hrun : ∀ failFast entries,
      run failFast entries = (checkEntries alone failFast entries).map .mk := fun _ _ => rfl
  have hreport : ∀ entries, run false entries =
      .ok ⟨entries.map fun entry => entry.report (.ofCheck (alone entry))⟩ := by
    intro entries
    rw [hrun, checkEntries_false]
    rfl
  refine ⟨fun entry => ⟨_, ManifestEntry.yields_iff.mpr rfl, fun _ => ManifestEntry.yields_iff.mp⟩,
    fun entries => ?_, fun front back => ?_, fun entries e => ?_, fun entries => ?_,
    fun report => ⟨report.valid_add_invalid_add_failed, report.isSuccess_iff⟩⟩
  · refine ⟨_, hreport entries, ?_⟩
    rw [List.forall₂_map_right_iff, List.forall₂_same]
    exact fun entry _ => ⟨rfl, rfl, ManifestEntry.yields_iff.mpr rfl⟩
  · refine ⟨_, _, hreport front, hreport back, ?_⟩
    rw [hreport, List.map_append]
  · have herror : run true entries = .error e ↔ checkEntries alone true entries = .error e := by
      rw [hrun]
      cases checkEntries alone true entries <;> simp [Except.map]
    rw [herror, checkEntries_true_error_iff]
    simp only [ne_eq, alone, ManifestEntry.check_eq_error_iff]
  · rw [hrun, hrun]
    cases hloop : checkEntries alone true entries with
    | error e => exact .inl ⟨e, rfl⟩
    | ok reports => exact .inr (by rw [checkEntries_true_of_ok hloop])

end Fieldwise
