import Fieldwise.Check.Manifest
import Fieldwise.Check.Report
import Fieldwise.Check.Template

/-!
# Checking a manifest

`Manifest.check` checks every template of a manifest against its type. A template that cannot be
checked is reported and does not stop the others, unless the first such template is to end the
run. Files are read through a function of their paths.
-/

set_option autoImplicit false

namespace Fieldwise

/-- How a manifest is checked. -/
structure CheckOptions where
  /-- The first template that cannot be checked ends the run. -/
  failFast : Bool
  /-- Missing fields are answered with a similar name. -/
  suggestions : Bool
  deriving DecidableEq, Repr

/-- The texts of files by their paths. -/
abbrev TextReader := String → Except FileFault String

namespace ManifestEntry

/-- The text of a template. -/
def source (read : TextReader) (directory : String) (entry : ManifestEntry) :
    Except CheckError String :=
  match entry.origin? with
  | some (.inline text) => .ok text
  | some (.file path) => (read (Path.join directory path)).mapError .file
  | none => .error (.unclearSource entry.name)

/-- Checks one template of a manifest. -/
def check (c : Catalog) (suggest : Suggester) (read : TextReader) (directory : String)
    (entry : ManifestEntry) : Except CheckError Verdict :=
  match entry.source read directory with
  | .error e => .error e
  | .ok text => (c.checkTemplate suggest text entry.type).mapError .template

/-- The outcome of a check. -/
def report (entry : ManifestEntry) (outcome : Outcome) : TemplateReport :=
  ⟨entry.name, entry.type, outcome⟩

end ManifestEntry

/-- The outcome of a check that may not be stopped. -/
def Outcome.ofCheck : Except CheckError Verdict → Outcome
  | .ok v => ofVerdict v
  | .error e => failed e.message

/-- The reports for several templates, or the first error if errors end the run. -/
def checkEntries (check : ManifestEntry → Except CheckError Verdict) (failFast : Bool) :
    List ManifestEntry → Except CheckError (List TemplateReport)
  | [] => .ok []
  | entry :: rest =>
    match check entry, failFast with
    | .error e, true => .error e
    | result, _ =>
      (checkEntries check failFast rest).map (entry.report (.ofCheck result) :: ·)

/-- Unless errors end the run there is one report for each template, which depends on that template
only. -/
theorem checkEntries_false (check : ManifestEntry → Except CheckError Verdict)
    (entries : List ManifestEntry) :
    checkEntries check false entries =
      .ok (entries.map fun entry => entry.report (.ofCheck (check entry))) := by
  induction entries with
  | nil => rfl
  | cons entry rest ih => simp [checkEntries, ih, Except.map]

namespace Manifest

/-- Checks every template of a manifest. -/
def check (manifest : Manifest) (c : Catalog) (options : CheckOptions) (read : TextReader) :
    Except CheckError BatchReport :=
  let suggest := Suggester.ofChoice options.suggestions
  (checkEntries (ManifestEntry.check c suggest read manifest.directory) options.failFast
    manifest.entries).map .mk

/-- Reads the files that a manifest names. -/
def readTexts {m : Type → Type} [Monad m] (files : FileAccess m) (manifest : Manifest) :
    m TextReader := do
  let texts ← manifest.paths.mapM fun path => do return (path, ← files.readText path)
  return fun path => (texts.lookup path).getD (.error .missing)

end Manifest

end Fieldwise
