import Frontend.Program

/-! The export tables. An export is kept once and listed by owner, by declaration and by symbol. -/

namespace Frontend.Program

def enlist (lists : Dict DeclId (List ExportId)) (d : DeclId) (e : ExportId) : Dict DeclId (List ExportId) :=
  lists.insert d ((lists.get? d).getD [] ++ [e])

def unlist (lists : Dict DeclId (List ExportId)) (d : DeclId) (e : ExportId) : Dict DeclId (List ExportId) :=
  match lists.get? d with
  | none => lists
  | some es =>
    match es.filter (· ≠ e) with
    | [] => lists.erase d
    | kept => lists.insert d kept

def removeExport (p : Program) (id : ExportId) : Program :=
  match p.exports.get? id with
  | none => p
  | some e =>
    { p with
      exports := p.exports.erase id
      exportOwners := unlist p.exportOwners e.owner id
      declExports := unlist p.declExports e.exported id
      symbolExports := if p.symbolExports.get? e.symbol = some id then p.symbolExports.erase e.symbol
        else p.symbolExports
      failedExports := p.failedExports.erase id }

def removeOwnedExports (p : Program) (d : DeclId) : Program :=
  ((p.exportOwners.get? d).getD []).foldl removeExport p

def removeExportsOf (p : Program) (d : DeclId) : Program :=
  ((p.declExports.get? d).getD []).foldl removeExport p

def addExport (p : Program) (symbol : String) (src : Span) (owner exported : DeclId) : Program :=
  let id := p.nextExport
  { p with
    nextExport := id + 1
    exports := p.exports.insert id ⟨id, symbol, src, owner, exported, .inProgress⟩
    exportOwners := enlist p.exportOwners owner id
    declExports := enlist p.declExports exported id }

def setExportStatus (p : Program) (id : ExportId) (status : ExportStatus) : Program :=
  { p with exports := p.exports.modify id ({ · with status }) }

end Frontend.Program
