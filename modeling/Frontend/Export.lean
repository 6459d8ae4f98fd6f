import Frontend.Span

/-! Exports: declarations to be emitted under a symbol. -/

namespace Frontend

inductive ExportStatus where
  | inProgress | complete | failed | failedRetryable
  deriving DecidableEq, Inhabited

structure Export where
  id : ExportId
  symbol : String
  src : Span
  owner : DeclId
  exported : DeclId
  status : ExportStatus
  deriving Inhabited

end Frontend
