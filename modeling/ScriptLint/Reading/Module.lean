import ScriptLint.Reading.Class
import ScriptLint.Reading.Declaration

/-! # Imports and exports

The declarations that tie a module to others. An import declares names; an export marks names and
may use no exported name twice.
-/

namespace ScriptLint.Reading

/-- Check the place and the edition of an import or export. -/
def moduleItem (word feature : String) : Reading Unit := do
  let position := (← token).position
  if !(← tracker).atTopLevel then report "E053" position [word]
  requireEdition feature .es2015 position

def isString (t : Token) : Bool :=
  match t.lexeme with
  | .string _ => true
  | _ => false

/-- The string that names another module. -/
def moduleName : Reading Unit := do
  let t ← token
  if isString t then advance
  else if t.isEnd then earlyEnd
  else reportInstead "(string)" t

/-- The word `from` with the name of another module, and the end of the declaration. -/
def fromModule : Reading Unit := do
  expectWord "from"
  moduleName
  semicolon

/-- What names something inside the braces of an import or export: a word or a string. Gives nothing
for other tokens, which are reported. -/
def moduleWord? : Reading (Option Token) := do
  let t ← token
  if t.isPropertyName || isString t then pure (some t)
  else
    reportNoName t
    pure none

/-! ## Imports -/

/-- A name that an import declares. -/
def importBinding : Reading Unit := do
  let bound? ← bindingName
  declareAll .imported bound?.toList

/-- An item inside the braces of an import. -/
def importItem (_ : Unit) : Reading (Round Unit Unit) := do
  match ← moduleWord? with
  | none => pure (.done ())
  | some _ =>
    if (← peek).isName "as" then
      advance
      advance
    importBinding
    pure (.again ())

/-- What an import declares. -/
def importClause : Reading Unit := do
  if (← token).isIdentifier then
    importBinding
    let _ ← acceptPunctuator ","
  if ← acceptPunctuator "*" then
    expectWord "as"
    importBinding
  else if ← acceptPunctuator "\x7b" then
    commaList "\x7d" () importItem noTrailingCheck
    expectPunctuator "\x7d"

def importDeclaration : Reading Unit := do
  moduleItem "Import" "import"
  advance
  if isString (← token) then
    advance
    semicolon
  else
    importClause
    fromModule

/-! ## Exports -/

/-- Enter an exported name, and report a repetition. -/
def addExport (name : String) (position : Position) : Reading Unit := do
  let s ← get
  if s.exports.contains name then report "E069" position [name]
  else modify fun s => { s with exports := name :: s.exports }

/-- Mark a variable as exported. -/
def exportVariable (name : String) : Reading Unit := track (·.markExported name)

/-- An item inside the braces of an export. -/
structure ExportItem where
  variableName : String
  position : Position
  exportedName : String
deriving Repr, DecidableEq, Inhabited

/-- Read an item inside the braces of an export. -/
def exportItem (items : List ExportItem) :
    Reading (Round (List ExportItem) (List ExportItem)) := do
  match ← moduleWord? with
  | none => pure (.done items)
  | some t =>
    advance
    let exportedName ←
      if ← atWord "as" then do
        advance
        let exported ← token
        advance
        pure exported.display
      else pure t.display
    pure (.again (items ++ [{ variableName := t.display, position := t.position, exportedName }]))

/-- An export of names in braces, of the variables here or of the names of another module. -/
def exportNames : Reading Unit := do
  advance
  let items ← commaList "\x7d" [] exportItem noTrailingCheck
  expectPunctuator "\x7d"
  let passedOn ← atWord "from"
  if passedOn then
    advance
    moduleName
  items.forM fun item => do
    if !passedOn then
      exportVariable item.variableName
      let _ ← addReference item.variableName item.position .read
    addExport item.exportedName item.position
  semicolon

/-- An export of all names of another module, which may be given a name together. -/
def exportAll : Reading Unit := do
  advance
  if ← atWord "as" then
    advance
    let t ← token
    advance
    addExport t.name t.position
  fromModule

/-- Whether an asynchronous function begins here. -/
def atAsyncFunction : Reading Bool := do
  if ← atWord "async" then return (← peek).isKeyword "function" else pure false

/-- The default export of a module. -/
def exportDefault (self : Productions) (position : Position) : Reading Unit := do
  advance
  let name? ←
    if ← atKeyword "function" then functionDeclaration self false true
    else if ← atAsyncFunction then functionDeclaration self true true
    else if ← atKeyword "class" then readClass self true true
    else do
      let _ ← self.element
      semicolon
      pure none
  name?.toList.forM exportVariable
  addExport "default" position

/-- Variables that are declared and exported. Gives their names. -/
def exportedVariables (self : Productions) (kind : Scope.BindingKind) : Reading (List String) := do
  let ds ← declarations self kind false
  semicolon
  pure (ds.names.map (·.name))

/-- A declaration that is exported. Gives the names that it declares. -/
def exportedDeclaration (self : Productions) : Reading (List String) := do
  let t ← token
  if t.isKeyword "var" then exportedVariables self .varName
  else if t.isKeyword "const" then exportedVariables self .constName
  else if t.isName "let" then exportedVariables self .letName
  else if t.isKeyword "function" then return (← functionDeclaration self false false).toList
  else if ← atAsyncFunction then return (← functionDeclaration self true false).toList
  else if t.isKeyword "class" then return (← readClass self true false).toList
  else
    reportUnexpected t.display t.position
    pure []

def exportDeclaration (self : Productions) : Reading Unit := do
  let position := (← token).position
  moduleItem "Export" "export"
  advance
  let t ← token
  if t.isKeyword "default" then exportDefault self position
  else if t.isPunctuator "*" then exportAll
  else if t.isPunctuator "\x7b" then exportNames
  else
    let names ← exportedDeclaration self
    names.forM fun name => do
      exportVariable name
      addExport name position

end ScriptLint.Reading
