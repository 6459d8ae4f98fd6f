import Frontend.Engine

/-! Reconciling a unit with its declarations: new items are registered, changed ones are marked outdated, moved
ones get a new line, and those that are gone are deleted. -/

namespace Frontend

/-- What a repeated name does to the digest of its declaration, so that the next update looks at it again. -/
def redefinitionMask : UInt64 := 0x9e3779b97f4a7c15

namespace Program

def addUnit (p : Program) (path : String) (content : UnitContent) : Program :=
  { p with
    nextFile := p.nextFile + 1
    units := p.units.insert p.nextFile (.ofContent path content) }

def addSource (p : Program) (path text : String) : Program := p.addUnit path (.source (.memory text) none)

def addPath (p : Program) (path : String) : Program := p.addUnit path (.source (.path path none) none)

def reserve (p : Program) (decls : List Untyped.Decl) : Program :=
  { p with nextRevision := p.nextRevision + decls.length }

def addLowered (p : Program) (path : String) (decls : List Untyped.Decl) : Program :=
  (p.addUnit path (.lowered decls p.nextRevision)).reserve decls

def touch (p : Program) (file : FileId) : Program := p.modifyUnit file ({ · with dirty := true })

def setOrigin (p : Program) (file : FileId) (f : Origin → Origin) : Program :=
  p.modifyUnit file fun u =>
    match u.content with
    | .source origin loaded => { u with content := .source (f origin) loaded, dirty := true }
    | .lowered .. => { u with dirty := true }

def setSource (p : Program) (file : FileId) (text : String) : Program := p.setOrigin file fun _ => .memory text

/-- The file of a unit is written or removed. Files are read only when their units are looked at, so a change counts
from when the unit is marked for that. -/
def setFile (p : Program) (file : FileId) (text : Option String) : Program := p.setOrigin file (.write text)

def setLowered (p : Program) (file : FileId) (decls : List Untyped.Decl) : Program :=
  (p.modifyUnit file fun u =>
    { u with content := .lowered decls p.nextRevision, dirty := true }).reserve decls

def removeUnit (p : Program) (file : FileId) : Program :=
  p.modifyUnit file ({ · with removed := true, dirty := true })

def register (p : Program) (file : FileId) (ns : NameHash) (item : ItemSummary) : Program :=
  let id := p.nextDecl
  let nameHash := ns.child item.name
  let decl : Decl := {
    id, name := item.name, nameHash, file, index := item.index, src := item.src, line := item.line,
    contents := item.hash, generation := p.generation, isRoot := item.isRoot }
  { p with
      nextDecl := id + 1
      decls := p.decls.insert id decl
      declTable := p.declTable.insert nameHash id
      units := p.units.modify file fun u => { u with decls := u.decls.insert id } }

/-- The declaration of a name in a unit, registered now if the unit declares it. -/
def resolve (p : Program) (file : FileId) (name : String) : Option DeclId × Program :=
  match p.units.get? file with
  | none => (none, p)
  | some u =>
    match p.declTable.get? (u.namespaceHash.child name) with
    | some d => (some d, p)
    | none =>
      match (u.items?.getD []).find? (fun item => item.name == name) with
      | none => (none, p)
      | some item => (some p.nextDecl, p.register file u.namespaceHash item)

def loadContent (file : FileId) : UnitContent → Except FileFailure UnitContent
  | .source (.path path none) _ => .error ⟨⟨file, {}, .missingFile path⟩, true⟩
  | .source (.path path (some text)) _ => parsed (.path path (some text)) text
  | .source (.memory text) _ => parsed (.memory text) text
  | .lowered decls firstRevision => .ok (.lowered decls firstRevision)
where
  parsed (origin : Origin) (text : String) : Except FileFailure UnitContent :=
    match Parse.file text with
    | .ok items => .ok (.source origin (some ⟨text, items⟩))
    | .error (e :: _) => .error ⟨⟨file, e.span, .parse e⟩, false⟩
    | .error [] => .error ⟨⟨file, {}, .stated "parse error"⟩, false⟩

def load (p : Program) (file : FileId) (u : SourceUnit) : Except FileFailure Program :=
  (loadContent file u.content).map fun content => p.modifyUnit file ({ · with content })

end Program

namespace Engine

def refresh (e : Engine) (d : DeclId) (decl : Decl) (item : ItemSummary) : Engine :=
  let moved := e.modifyProgram (·.modifyDecl d ({ · with
    index := item.index, src := item.src, isRoot := item.isRoot, line := item.line, contents := item.hash }))
  if decl.contents ≠ item.hash then
    if decl.state = .unreferenced then if item.isRoot then moved.push (.analyze d) else moved
    else moved.markOutdated d
  else if decl.line ≠ item.line && decl.state = .complete then moved.push (.updateLine d)
  else moved

/-- A further item of a name that is taken: the declaration fails and its digest is spoilt. -/
def repeatedItem (e : Engine) (file : FileId) (d : DeclId) (item : ItemSummary) : Engine :=
  e.modifyProgram fun p =>
    (p.modifyDecl d ({ · with
      index := item.index, src := item.src, contents := ⟨item.hash.bits ^^^ redefinitionMask⟩ })).fail
      (.declaration (.file file) d) item.src (.redefinition item.name)

def reconcileItem (file : FileId) (ns : NameHash) (st : Engine × List DeclId) (item : ItemSummary) :
    Engine × List DeclId :=
  let (e, untaken) := st
  match e.program.declTable.get? (ns.child item.name) with
  | none =>
    let d := e.program.nextDecl
    let e := e.modifyProgram (·.register file ns item)
    (if item.isRoot then e.push (.analyze d) else e, untaken)
  | some d =>
    match e.program.decl? d with
    | none => (e, untaken)
    | some decl =>
      if d ∈ untaken then (e.refresh d decl item, untaken.filter (· ≠ d))
      else (e.repeatedItem file d item, untaken)

def reconcile (e : Engine) (file : FileId) : Engine :=
  match e.program.units.get? file with
  | none => e
  | some u =>
    let e := e.modifyProgram fun p =>
      { p.modifyUnit file ({ · with dirty := false }) with failedFiles := p.failedFiles.erase file }
    match (if u.removed then .ok e.program else e.program.load file u) with
    | .error failure =>
      e.modifyProgram fun p => { p with failedFiles := p.failedFiles.insert file failure }
    | .ok p =>
      let e := { e with program := p }
      match (p.units.get? file).bind SourceUnit.items? with
      | none => e
      | some items =>
        let (e, gone) := items.foldl (reconcileItem file u.namespaceHash) (e, u.decls.elems)
        gone.foldl deleteDecl e

end Engine

end Frontend
