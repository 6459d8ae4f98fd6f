import Frontend.Update

/-! A workspace: texts under paths, with those that changed since the last update, and the program made of them. -/

namespace Frontend

structure SourceEntry where
  file : FileId
  hash : ContentHash

structure Workspace where
  program : Program := {}
  sources : Dict String SourceEntry := {}
  pending : OrdSet String := {}

inductive WorkspaceError where
  | duplicateFile (path : String)
  | fileNotFound (path : String)
  | noSources
  | interrupted (i : Interrupt)
  | analysis (diagnostics : List Diagnostic)

def WorkspaceError.message : WorkspaceError → String
  | duplicateFile path => "source unit already registered: " ++ path
  | fileNotFound path => "source unit not found: " ++ path
  | noSources => "no source units registered"
  | interrupted i => i.message
  | analysis ds => "analysis failed with " ++ toString ds.length ++ " error(s)"

namespace Workspace

def ofOptions (options : Options) (backend : Backend) : Workspace := { program := { options, backend } }

def add (w : Workspace) (path text : String) : Except WorkspaceError (FileId × Workspace) :=
  if w.sources.contains path then .error (.duplicateFile path)
  else
    let file := w.program.nextFile
    .ok (file,
      { program := w.program.addSource path text
        sources := w.sources.insert path ⟨file, .of (utf8 text)⟩
        pending := w.pending.insert path })

def edit (w : Workspace) (path text : String) : Except WorkspaceError (Bool × Workspace) :=
  match w.sources.get? path with
  | none => .error (.fileNotFound path)
  | some entry =>
    let hash := ContentHash.of (utf8 text)
    if hash = entry.hash then .ok (false, w)
    else
      .ok (true,
        { program := w.program.setSource entry.file text
          sources := w.sources.insert path { entry with hash }
          pending := w.pending.insert path })

def remove (w : Workspace) (path : String) : Except WorkspaceError Workspace :=
  match w.sources.get? path with
  | none => .error (.fileNotFound path)
  | some entry =>
    .ok { program := w.program.removeUnit entry.file
          sources := w.sources.erase path
          pending := w.pending.insert path }

def file? (w : Workspace) (path : String) : Option FileId := (w.sources.get? path).map (·.file)

def lookup? (w : Workspace) (path name : String) : Option DeclId :=
  (w.file? path).bind fun file => w.program.lookup? file name

def update (w : Workspace) : Except WorkspaceError Report × Workspace :=
  if w.sources.entries.isEmpty && w.pending.isEmpty then (.error .noSources, w)
  else
    match w.program.update with
    | (.ok report, program) => (.ok report, { w with program, pending := {} })
    | (.error .analysisFail, program) => (.error (.analysis program.diagnostics), { w with program })
    | (.error i, program) => (.error (.interrupted i), { w with program })

/-- An update that any recorded failure makes an error. -/
def check (w : Workspace) : Except WorkspaceError Report × Workspace :=
  match w.update with
  | (.error e, w) => (.error e, w)
  | (.ok report, w) =>
    if w.program.diagnostics.isEmpty then (.ok report, w) else (.error (.analysis w.program.diagnostics), w)

def render (w : Workspace) (d : Diagnostic) : String :=
  let u := w.program.units.get? d.file
  let (line, column) := ((u.bind SourceUnit.text?).map d.span.lineCol).getD (1, 1)
  let path := (u.map SourceUnit.path).getD d.file.label
  path ++ ":" ++ toString line ++ ":" ++ toString column ++ ": error: " ++ d.message

def diagnostics (w : Workspace) : List String := w.program.diagnostics.map w.render

end Workspace

end Frontend
