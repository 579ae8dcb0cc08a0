import TextAdventure.Adventure.Validation
import TextAdventure.Artifact.Basic
import TextAdventure.Text.Quoted

/-!
# Compiling

An adventure is compiled in two steps. First everything is checked: the compiler's version, the
references, and that no text holds a byte that could start a tag. Then the missing identifiers are
handed out, and every object becomes a record in which it and all it names go by identifier.
Nothing is changed unless all checks pass.
-/

namespace TextAdventure

/-- Why an adventure cannot be compiled. -/
inductive CompileError where
  /-- The adventure does not support the compiler's version. -/
  | versionMismatch (compiler : Version) (supported : VersionRange)
  /-- A reference is faulty. -/
  | reference (error : ReferenceError)
  /-- An object of the author's own kind has no rendering. -/
  | unknownKind (name : String) (handle : Handle)
  /-- A text holds a byte that starts a tag. -/
  | reservedPayload (text : String) (byte : UInt8)
  /-- There are not enough identifiers left. -/
  | idsExhausted

/-- The whole message. -/
def CompileError.message : CompileError → String
  | .versionMismatch compiler supported =>
    "ACLang version " ++ compiler.print ++ " does not match " ++ supported.print
  | .reference error => error.message
  | .unknownKind name handle =>
    "unknown game object of kind \"" ++ name ++ "\" at " ++ handle.label
  | .reservedPayload text byte =>
    "payload " ++ Text.quote text ++ " contains reserved byte 0x"
      ++ String.ofList (Hex.upperPair byte)
  | .idsExhausted => IdSupply.exhaustedMessage

/-- What a compiler is set to. -/
structure CompilerConfig where
  /-- The version of the compiler. -/
  version : Version := ⟨0, 1, 0⟩
  /-- The runtimes that can load its artifacts. -/
  runtimes : VersionRange := .atLeast ⟨0, 1, 0⟩

/-! ## Texts that enter an artifact -/

/-- Checks that a text holds no byte that starts a tag. -/
def checkPayload (text : String) : Except CompileError Unit :=
  match (Utf8.ofString text).find? isLead with
  | some byte => .error (.reservedPayload text byte)
  | none => .ok ()

/-- The texts of a description block. -/
def Descriptions.payloads (d : Descriptions) : List String :=
  [d.firstEntry, d.usual] ++ d.whenPickedUp.values
    ++ d.custom.entries.flatMap fun (key, text) => [key, text]

/-- The texts in the fields of a kind. -/
def Kind.payloads : Kind → List String
  | .room r => r.title :: r.descriptions.payloads
  | .item name => [name]
  | .descriptions d => d.payloads
  | .argument a => [a.name]
  | .code c => c.arguments
  | .verb v => [v.name]
  | .custom _ => []

/-- The texts of properties: each name, then the texts of its value. -/
def Properties.payloads (properties : Properties) : List String :=
  properties.entries.flatMap fun (name, value) => name :: value.texts

/-- Checks that an object can be written: its texts hold no reserved byte, and it has fields or a
rendering. -/
def GameObject.checkPayloads (h : Handle) (o : GameObject) : Except CompileError Unit := do
  o.properties.payloads.forM checkPayload
  match o.rendering, o.kind with
  | some text, _ => checkPayload text
  | none, .custom name => .error (.unknownKind name h)
  | none, kind => kind.payloads.forM checkPayload

namespace Adventure

/-- Checks that all texts of an adventure can be written. -/
def checkPayloads (a : Adventure) : Except CompileError Unit := do
  checkPayload a.name
  checkPayload a.startingText
  a.properties.payloads.forM checkPayload
  a.handled.forM fun (h, o) => o.checkPayloads h

/-! ## Records -/

/-- The identifier of an object that is named by `source`. -/
def resolve (a : Adventure) (source : Option Handle) (target : Handle) :
    Except CompileError ObjectId :=
  match a.idOf? target with
  | some id => .ok id
  | none => .error (.reference ⟨source, .unresolved target⟩)

/-- The identifiers of objects, in decimal. -/
def resolveAll (a : Adventure) (source : Handle) (targets : List Handle) :
    Except CompileError (List String) :=
  targets.mapM fun target => (a.resolve (some source) target).map ObjectId.print

mutual

/-- The value of a property as a text. -/
def propertyText (a : Adventure) (source : Handle) : PropertyValue → Except CompileError String
  | .text value => .ok value
  | .integer value => .ok (Numeral.printInt value.toInt)
  | .float value => .ok value.print
  | .boolean true => .ok "true"
  | .boolean false => .ok "false"
  | .list items => do
    let texts ← propertyTexts a source items
    return "[" ++ ", ".intercalate texts ++ "]"
  | .object target => (a.resolve (some source) target).map ObjectId.print

/-- The values of a list as texts. -/
def propertyTexts (a : Adventure) (source : Handle) :
    List PropertyValue → Except CompileError (List String)
  | [] => .ok []
  | item :: items => do
    let text ← propertyText a source item
    let texts ← propertyTexts a source items
    return text :: texts

end

/-- A field that holds a text. -/
def textField (tag : Tag) (text : String) : Field := ⟨tag, Utf8.ofString text⟩

/-- A field that holds a list of texts. -/
def listField (tag : Tag) (texts : List String) : Field := ⟨tag, listPayload texts⟩

/-- A field that holds a mapping. -/
def pairsField (tag : Tag) (entries : List (String × String)) : Field :=
  ⟨tag, pairsPayload entries⟩

/-- The fields of a description block. -/
def descriptionsFields (a : Adventure) (source : Handle) (d : Descriptions) :
    Except CompileError (List Field) := do
  let pickedUp ← d.whenPickedUp.entries.mapM fun (item, text) =>
    (a.resolve (some source) item).map fun id => (id.print, text)
  return [textField .firstEntry d.firstEntry, textField .usual d.usual,
    pairsField .pickedUp pickedUp, pairsField .custom d.custom.entries]

/-- The entries of a mapping from directions to objects. -/
def exitEntries (a : Adventure) (source : Handle) (exits : SortedMap Direction Handle) :
    Except CompileError (List (String × String)) :=
  exits.entries.mapM fun (direction, target) =>
    (a.resolve (some source) target).map fun id =>
      (Numeral.print direction.code.toNat, id.print)

/-- The texts with their positions in decimal. -/
def numbered (texts : List String) : List (String × String) :=
  texts.zipIdx.map fun (text, i) => (Numeral.print i, text)

/-- The fields of a room. Its own description block goes by the room's identifier. -/
def roomFields (a : Adventure) (source : Handle) (id : ObjectId) (r : Room) :
    Except CompileError (List Field) := do
  let descriptions ← a.descriptionsFields source r.descriptions
  let exits ← a.exitEntries source r.exits
  let exitDescriptions ← a.exitEntries source r.exitDescriptions
  let items ← a.resolveAll source r.items
  return [textField .roomName r.title, textField .description id.print] ++ descriptions
    ++ [pairsField .exits exits, pairsField .exitDescriptions exitDescriptions,
      pairsField .roomItems (numbered items)]

/-- The kind and the fields that an object is written with. -/
def kindBody (a : Adventure) (source : Handle) (id : ObjectId) : Kind → Except CompileError Body
  | .room r => do
    return .typed .room (← a.roomFields source id r)
  | .argument argument =>
    .ok (.typed .argument
      [⟨.argumentType, [argumentTypeMark, argument.type.code]⟩,
        textField .argumentName argument.name])
  | .code c => do
    let children ← a.resolveAll source c.children
    return .typed .code
      [⟨.codeKeyword, [keywordMark, c.keyword.code]⟩, listField .codeArguments c.arguments,
        listField .codeChildren children]
  | .item name => .ok (.typed .item [textField .itemName name])
  | .verb v => do
    let arguments ← a.resolveAll source v.arguments
    let body ← a.resolveAll source v.body
    return .typed .verb
      [textField .verbName v.name, listField .verbArguments arguments, listField .verbBody body]
  | .descriptions d => do
    return .typed .descriptions (← a.descriptionsFields source d)
  | .custom name => .error (.unknownKind name source)

/-- The record of an object. A rendering takes the place of the fields. -/
def record (a : Adventure) (h : Handle) (o : GameObject) : Except CompileError Record := do
  let id ← a.resolve none h
  let body ← match o.rendering with
    | some text => .ok (.rendered text)
    | none => a.kindBody h id o.kind
  let properties ← o.properties.entries.mapM fun (name, value) =>
    (a.propertyText h value).map fun text => (name, text)
  return { id, body, properties }

/-- The bytes of the record of an object. Everything that it names must have an identifier. -/
def encode (a : Adventure) (h : Handle) : Except CompileError (List UInt8) :=
  match a.object? h with
  | none => .error (.reference ⟨none, .unregistered h⟩)
  | some o => (a.record h o).map Record.bytes

/-! ## The whole -/

/-- The artifact of an adventure whose objects all have identifiers. -/
def artifact (a : Adventure) (config : CompilerConfig) : Except CompileError Artifact := do
  let start ← match a.start with
    | some start => a.resolve none start
    | none => .error (.reference ⟨none, .noStart⟩)
  let records ← a.handled.mapM fun (h, o) => a.record h o
  return {
    compilerVersion := config.version
    runtimes := config.runtimes
    startingRoom := start
    name := a.name
    startingText := a.startingText
    records }

/-- Everything that is checked before identifiers are handed out. -/
def checks (a : Adventure) (config : CompilerConfig) : Except CompileError Unit := do
  if a.supported.accepts config.version then
    a.validate.mapError .reference
    a.checkPayloads
  else
    .error (.versionMismatch config.version a.supported)

end Adventure

/-- What an attempt to compile leaves behind: the bytes or the reason for refusal, the adventure and
the supply as they are afterwards. -/
structure Compilation where
  result : Except CompileError (List UInt8)
  adventure : Adventure
  supply : IdSupply

/-- Compiles an adventure, with identifiers from a supply. -/
def compile (config : CompilerConfig) (a : Adventure) (supply : IdSupply) : Compilation :=
  match a.checks config with
  | .error e => ⟨.error e, a, supply⟩
  | .ok () =>
    match a.assignIds supply with
    | none => ⟨.error .idsExhausted, a, supply⟩
    | some (_, assigned, rest) =>
      ⟨(assigned.artifact config).map Artifact.bytes, assigned, rest⟩

end TextAdventure
