import TecoQuant.DomainSnapshot

/-! Validation issues and the report of a validation. -/

namespace TecoQuant.Ingestion

open Domain

inductive ValidationSeverity where
  | error
  | warning
  deriving DecidableEq, Repr

def ValidationSeverity.value : ValidationSeverity → String
  | .error => "ERROR"
  | .warning => "WARNING"

structure ValidationIssue where
  code : String
  severity : ValidationSeverity
  path : String
  message : String
  observed : Option Json
  expected : Option Json

structure ValidationReport where
  issues : List ValidationIssue
  snapshotId : Option String
  snapshotHash : Option String

namespace ValidationReport

/-- `report.errors`. -/
def errors (report : ValidationReport) : List ValidationIssue :=
  report.issues.filter fun issue => decide (issue.severity = .error)

/-- `report.warnings`. -/
def warnings (report : ValidationReport) : List ValidationIssue :=
  report.issues.filter fun issue => decide (issue.severity = .warning)

/-- `report.accepted`: no issue is an error. -/
def Accepted (report : ValidationReport) : Prop :=
  ∀ issue ∈ report.issues, issue.severity ≠ .error

instance (report : ValidationReport) : Decidable report.Accepted :=
  inferInstanceAs (Decidable (∀ issue ∈ report.issues, issue.severity ≠ .error))

/-- `report.has_code(code)`. -/
def HasCode (report : ValidationReport) (code : String) : Prop :=
  ∃ issue ∈ report.issues, issue.code = code

instance (report : ValidationReport) (code : String) : Decidable (report.HasCode code) :=
  inferInstanceAs (Decidable (∃ issue ∈ report.issues, issue.code = code))

end ValidationReport
end TecoQuant.Ingestion
