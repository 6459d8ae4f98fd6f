import Frontend.Ast.Parse
import Frontend.Dict
import Frontend.Digest
import Frontend.Untyped.Text

/-! Source units: texts or lists of lowered declarations, and the items found in them. -/

namespace Frontend

inductive Origin where
  | memory (text : String)
  /-- A file, with the text that is read from it when the unit is looked at; none if there is no such file. -/
  | path (path : String) (text : Option String)
  deriving Inhabited

namespace Origin

def text? : Origin → Option String
  | memory text => some text
  | path _ text => text

def write (text : Option String) : Origin → Origin
  | memory kept => memory kept
  | path p _ => path p text

end Origin

structure Loaded where
  text : String
  items : List Item
  deriving Inhabited

inductive UnitContent where
  | source (origin : Origin) (loaded : Option Loaded)
  | lowered (decls : List Untyped.Decl) (firstRevision : Nat)
  deriving Inhabited

structure SourceUnit where
  path : String
  namespaceHash : NameHash
  decls : OrdSet DeclId := {}
  content : UnitContent
  dirty : Bool := true
  removed : Bool := false

structure ItemSummary where
  index : Nat
  name : String
  src : Span
  hash : ContentHash
  line : Nat
  isRoot : Bool

namespace ItemSummary

def ofItem (text : String) (index : Nat) (name : String) (it : Item) : ItemSummary where
  index := index
  name := name
  src := it.span
  hash := .of (it.span.bytes text)
  line := (it.span.lineCol text).1 - 1
  isRoot := it.isExported || it.isComptime

def ofDecl (index : Nat) (d : Untyped.Decl) : ItemSummary where
  index := index
  name := d.name
  src := d.src
  hash := .of (utf8 d.text)
  line := 0
  isRoot := d.isExported || d.isComptime

end ItemSummary

def UnitContent.items? : UnitContent → Option (List ItemSummary)
  | source _ none => none
  | source _ (some l) => some ((declared 0 0 l.items).map fun (i, name, it) => .ofItem l.text i name it)
  | lowered ds _ => some (ds.zipIdx.map fun (d, i) => .ofDecl i d)

namespace SourceUnit

def ofContent (path : String) (content : UnitContent) : SourceUnit where
  path := path
  namespaceHash := .root path
  content := content

def isLowered (u : SourceUnit) : Bool :=
  match u.content with
  | .lowered .. => true
  | .source .. => false

def loaded? (u : SourceUnit) : Option Loaded :=
  match u.content with
  | .source _ loaded => loaded
  | .lowered .. => none

def text? (u : SourceUnit) : Option String := (u.loaded?).map (·.text)

def items? (u : SourceUnit) : Option (List ItemSummary) := if u.removed then some [] else u.content.items?

def itemCount (u : SourceUnit) : Nat :=
  match u.content with
  | .source _ none => 0
  | .source _ (some l) => l.items.length
  | .lowered ds _ => ds.length

end SourceUnit

end Frontend
