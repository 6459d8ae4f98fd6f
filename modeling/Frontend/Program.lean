import Frontend.Backend
import Frontend.Diagnostic
import Frontend.SourceUnit

/-! A program under analysis: its units, declarations, exports and recorded failures. The numbers of these, and the
generations, are taken to stay below 2 ^ 32. -/

-- Sums start from the zero of the core library, whatever is imported beside it.
attribute [local instance (high)] Zero.ofOfNat0

namespace Frontend

structure Options where
  branchQuota : Nat := 1000
  callDepth : Nat := 64
  emitHeaders : Bool := false
  arenaLimit : Option Nat := none
  deriving DecidableEq, Inhabited

structure FileFailure where
  diagnostic : Diagnostic
  retryable : Bool
  deriving Inhabited

structure Report where
  generation : Nat := 0
  outdated : List DeclId := []
  analyzed : List DeclId := []
  deleted : List DeclId := []
  deriving DecidableEq, Inhabited

structure Program where
  options : Options := {}
  backend : Backend := .silent
  decls : Dict DeclId Decl := {}
  nextDecl : DeclId := 0
  declTable : Dict NameHash DeclId := {}
  units : Dict FileId SourceUnit := {}
  nextFile : FileId := 0
  failedDecls : Dict DeclId Diagnostic := {}
  failedFiles : Dict FileId FileFailure := {}
  failedExports : Dict ExportId Diagnostic := {}
  exports : Dict ExportId Export := {}
  nextExport : ExportId := 0
  /-- Exports by the declaration that asked for them. -/
  exportOwners : Dict DeclId (List ExportId) := {}
  /-- Exports by the declaration they emit. -/
  declExports : Dict DeclId (List ExportId) := {}
  symbolExports : Dict String ExportId := {}
  deletionSet : List DeclId := []
  generation : Nat := 0
  report : Report := {}
  nextRevision : Nat := 0

namespace Program

def decl? (p : Program) (d : DeclId) : Option Decl := p.decls.get? d

def modifyDecl (p : Program) (d : DeclId) (f : Decl → Decl) : Program :=
  { p with decls := p.decls.modify d f }

def modifyUnit (p : Program) (file : FileId) (f : SourceUnit → SourceUnit) : Program :=
  { p with units := p.units.modify file f }

def func? (p : Program) (d : DeclId) : Option Function := (p.decl? d).bind Decl.func?

def lookup? (p : Program) (file : FileId) (name : String) : Option DeclId :=
  (p.units.get? file).bind fun u => p.declTable.get? (u.namespaceHash.child name)

def lookupPath? (p : Program) (path name : String) : Option DeclId :=
  (p.units.entries.find? (fun e => e.2.path == path)).bind fun e => p.lookup? e.1 name

def symbolExport? (p : Program) (symbol : String) : Option Export :=
  (p.symbolExports.get? symbol).bind p.exports.get?

def exportsOf (p : Program) (d : DeclId) : List Export :=
  ((p.declExports.get? d).getD []).filterMap p.exports.get?

def diagnostics (p : Program) : List Diagnostic :=
  (p.failedFiles.values.map (·.diagnostic) ++ p.failedDecls.values ++ p.failedExports.values).mergeSort
    Diagnostic.le

def potentialDecls (p : Program) : Nat :=
  p.decls.size + (p.units.values.map SourceUnit.itemCount).sum

def freshArena (p : Program) : Typed.Arena := { limit := p.options.arenaLimit }

end Program

end Frontend
