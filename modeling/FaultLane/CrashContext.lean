import FaultLane.RustText
import FaultLane.JsonValue

set_option autoImplicit false

/-!
# Crash contexts

The normalized data taken from a parsed `FGenericCrashContext` document. Parsing XML
is the work of `roxmltree`; the tree it returns is the input here.
-/
namespace FaultLane.CrashContext
open RustText

inductive CrashType where
  | crash
  | assert
  | ensure
  | unknown
  deriving DecidableEq, Repr

def CrashType.classify (errorType : String) : CrashType :=
  if errorType = "Crash" then .crash
  else if errorType = "Assert" then .assert
  else if errorType = "Ensure" then .ensure
  else .unknown

def CrashType.text : CrashType → String
  | .crash => "crash"
  | .assert => "assert"
  | .ensure => "ensure"
  | .unknown => "unknown"

structure NormalizedValue where
  original : String
  normalized : String
  deriving DecidableEq, Repr

def isPathSeparator (c : Char) : Bool := c == '/' || c == '\\'

/-- A `.dll` or `.exe` ending is dropped, the first of the two that is there. -/
def stripModuleExtension (leaf : List Char) : List Char :=
  ((stripSuffix ".dll".toList leaf).orElse fun _ => stripSuffix ".exe".toList leaf).getD leaf

def NormalizedValue.module (value : List Char) : NormalizedValue :=
  let fileName := toAsciiLowercase ((rsplit isPathSeparator value).headD value)
  ⟨String.ofList value, String.ofList (stripModuleExtension fileName)⟩

def NormalizedValue.platform (value : String) : NormalizedValue :=
  let identifier := String.ofList (toAsciiLowercase (trim value.toList))
  if identifier = "win64" ∨ identifier = "windows" ∨ identifier = "windowsnoeditor" then
    ⟨value, "windows"⟩
  else ⟨value, identifier⟩

inductive XmlNode where
  | element (name : String) (children : List XmlNode)
  | text (text : String)
  | comment (text : String)
  deriving Repr

structure XmlDocument where
  rootName : String
  rootChildren : List XmlNode
  /-- The row and column at which the root element begins. -/
  rootPosition : Nat × Nat

namespace XmlNode

def isElement : XmlNode → Bool
  | .element _ _ => true
  | _ => false

def name : XmlNode → String
  | .element name _ => name
  | _ => ""

def children : XmlNode → List XmlNode
  | .element _ children => children
  | _ => []

/-- The text of an element is its first child, when that child is text. -/
def value : XmlNode → Option String
  | .element _ (.text t :: _) => some t
  | _ => none

/-- The fields of a section. -/
def fields (node : XmlNode) : List XmlNode := node.children.filter isElement

def field (name : String) (node : XmlNode) : Option XmlNode :=
  node.fields.find? (·.name == name)

end XmlNode

inductive XmlErrorKind where
  | dtdDetected
  | nodesLimitReached
  | other
  deriving DecidableEq, Repr

structure XmlError where
  kind : XmlErrorKind
  position : Nat × Nat
  deriving DecidableEq, Repr

/-- `roxmltree` with DTDs off, given the node limit and the text. -/
abbrev XmlParser := Nat → String → Except XmlError XmlDocument

inductive ParseErrorKind where
  | invalidXml
  | dtdForbidden
  | nodeLimitExceeded
  | unexpectedRoot
  deriving DecidableEq, Repr

structure ParseError where
  kind : ParseErrorKind
  line : Nat
  column : Nat
  deriving DecidableEq, Repr

def ParseError.fromXml (error : XmlError) : ParseError :=
  let kind := match error.kind with
    | .dtdDetected => ParseErrorKind.dtdForbidden
    | .nodesLimitReached => .nodeLimitExceeded
    | .other => .invalidXml
  ⟨kind, error.position.1, error.position.2⟩

def crashContextRoot : String := "FGenericCrashContext"

def parseCrashContext (xmlParser : XmlParser) (nodeLimit : Nat) (xml : String) :
    Except ParseError XmlDocument :=
  match xmlParser nodeLimit xml with
  | .error error => .error (.fromXml error)
  | .ok document =>
    if document.rootName = crashContextRoot then .ok document
    else .error ⟨.unexpectedRoot, document.rootPosition.1, document.rootPosition.2⟩

structure CrashContextProperty where
  name : String
  value : String
  deriving DecidableEq, Repr

structure CrashContextThread where
  callStack : Option String
  crashMarker : Option String
  registers : Option String
  threadId : Option String
  threadName : Option String
  deriving DecidableEq, Repr

abbrev UnknownFields := SortedMap String (SortedMap String (List String))

structure CrashContextData where
  parserVersion : Nat
  crashGuid : Option String
  crashType : CrashType
  errorMessage : Option String
  buildVersion : Option String
  engineVersion : Option String
  platform : Option NormalizedValue
  architecture : Option String
  buildConfiguration : Option String
  commandLine : Option String
  modules : List NormalizedValue
  threads : List CrashContextThread
  systemMetadata : List CrashContextProperty
  userComment : Option String
  gameData : List CrashContextProperty
  unknownFields : UnknownFields

def crashContextParserVersion : Nat := 1

inductive ClassificationConfidence where
  | high
  | medium
  | low
  deriving DecidableEq, Repr

def ClassificationConfidence.text : ClassificationConfidence → String
  | .high => "high"
  | .medium => "medium"
  | .low => "low"

inductive CrashSignalKind where
  | gpuCrash
  | outOfMemory
  deriving DecidableEq, Repr

def CrashSignalKind.text : CrashSignalKind → String
  | .gpuCrash => "gpu_crash"
  | .outOfMemory => "out_of_memory"

structure CrashSignal where
  kind : CrashSignalKind
  confidence : ClassificationConfidence
  evidence : List String

structure CrashClassification where
  crashType : CrashType
  confidence : ClassificationConfidence
  evidence : List String
  signals : List CrashSignal

section Extraction

def sections (document : XmlDocument) : List XmlNode :=
  document.rootChildren.filter XmlNode.isElement

def findSection (name : String) (document : XmlDocument) : Option XmlNode :=
  (sections document).find? (·.name == name)

def fieldText (parent : Option XmlNode) (name : String) : Option String :=
  (parent.bind (XmlNode.field name)).bind XmlNode.value

def fieldValue (parent : Option XmlNode) (name : String) : Option String :=
  (parent.bind (XmlNode.field name)).map (fun field => field.value.getD "")

def firstFieldValue (parent : Option XmlNode) (names : List String) : Option String :=
  names.findSome? (fieldValue parent)

def normalizedArchitecture (value : String) : String :=
  let lowered := String.ofList (toAsciiLowercase (trim value.toList))
  if lowered = "x64" ∨ lowered = "amd64" ∨ lowered = "x86_64" then "x86_64"
  else if lowered = "x86" ∨ lowered = "i386" ∨ lowered = "i686" then "x86"
  else if lowered = "aarch64" ∨ lowered = "arm64" then "arm64"
  else String.ofList (trim value.toList)

def property (field : XmlNode) : CrashContextProperty := ⟨field.name, field.value.getD ""⟩

def sectionProperties (parent : Option XmlNode) : List CrashContextProperty :=
  match parent with
  | none => []
  | some parent => parent.fields.map property

def isKnownField (sectionName fieldName : String) : Bool :=
  if sectionName = "GameData" ∨ sectionName = "PlatformProperties" then true
  else if sectionName = "RuntimeProperties" then
    ["CrashGUID", "CrashType", "ErrorMessage", "BuildVersion", "EngineVersion", "PlatformName",
      "Architecture", "PlatformArchitecture", "BuildConfiguration", "CommandLine", "Modules",
      "Threads", "UserDescription", "UserComment"].contains fieldName ||
      "Misc.".toList.isPrefixOf fieldName.toList ||
      "MemoryStats.".toList.isPrefixOf fieldName.toList
  else false

def addUnknownField (parent : XmlNode) (unknown : UnknownFields) (field : XmlNode) :
    UnknownFields :=
  if isKnownField parent.name field.name then unknown
  else
    SortedMap.alter parent.name (fun fields =>
      SortedMap.alter field.name (fun values => values.getD [] ++ [field.value.getD ""])
        (fields.getD [])) unknown

def extractUnknownFields (document : XmlDocument) : UnknownFields :=
  (sections document).foldl
    (fun unknown parent => parent.fields.foldl (addUnknownField parent) unknown) []

def childValue (node : XmlNode) (name : String) : Option String :=
  (node.field name).map (fun child => child.value.getD "")

def extractThreads (runtime : Option XmlNode) : List CrashContextThread :=
  match runtime.bind (XmlNode.field "Threads") with
  | none => []
  | some threads =>
    (threads.fields.filter (·.name == "Thread")).map fun node =>
      { callStack := childValue node "CallStack"
        crashMarker := childValue node "IsCrashed"
        registers := childValue node "Registers"
        threadId := childValue node "ThreadID"
        threadName := childValue node "ThreadName" }

def extractModules (moduleText : Option String) : List NormalizedValue :=
  match moduleText with
  | none => []
  | some text =>
    (((lines text.toList).map trim).filter (fun line => !line.isEmpty)).map
      NormalizedValue.module

def runtimeMetadata (runtime : Option XmlNode) : List CrashContextProperty :=
  match runtime with
  | none => []
  | some runtime =>
    (runtime.fields.filter fun field =>
      "Misc.".toList.isPrefixOf field.name.toList ||
        "MemoryStats.".toList.isPrefixOf field.name.toList).map property

def extract (document : XmlDocument) (includeCommandLine : Bool) : CrashContextData :=
  let runtime := findSection "RuntimeProperties" document
  let platformProperties := findSection "PlatformProperties" document
  { parserVersion := crashContextParserVersion
    crashGuid := fieldValue runtime "CrashGUID"
    crashType := match fieldText runtime "CrashType" with
      | none => .unknown
      | some text => CrashType.classify text
    errorMessage := fieldValue runtime "ErrorMessage"
    buildVersion := fieldValue runtime "BuildVersion"
    engineVersion := fieldValue runtime "EngineVersion"
    platform := (fieldValue runtime "PlatformName").map NormalizedValue.platform
    architecture :=
      ((firstFieldValue runtime ["Architecture", "PlatformArchitecture"]).orElse
        fun _ => fieldValue platformProperties "HostArchitecture").map normalizedArchitecture
    buildConfiguration := fieldValue runtime "BuildConfiguration"
    commandLine := if includeCommandLine then fieldValue runtime "CommandLine" else none
    modules := extractModules (fieldValue runtime "Modules")
    threads := extractThreads runtime
    systemMetadata := sectionProperties platformProperties ++ runtimeMetadata runtime
    userComment := firstFieldValue runtime ["UserDescription", "UserComment"]
    gameData := sectionProperties (findSection "GameData" document)
    unknownFields := extractUnknownFields document }

end Extraction

section Serialization
open Json

def NormalizedValue.toJson (v : NormalizedValue) : Json :=
  ofFields [("original", .string v.original), ("normalized", .string v.normalized)]

def CrashContextProperty.toJson (p : CrashContextProperty) : Json :=
  ofFields [("name", .string p.name), ("value", .string p.value)]

def CrashContextThread.toJson (t : CrashContextThread) : Json :=
  ofFields
    [("call_stack", ofOptionalString t.callStack), ("crash_marker", ofOptionalString t.crashMarker),
      ("registers", ofOptionalString t.registers), ("thread_id", ofOptionalString t.threadId),
      ("thread_name", ofOptionalString t.threadName)]

def unknownFieldsToJson (unknown : UnknownFields) : Json :=
  ofFields (unknown.map fun entry =>
    (entry.1, ofFields (entry.2.map fun field =>
      (field.1, Json.array (field.2.map Json.string)))))

/-- The command line is the one member left out when it is absent. -/
def CrashContextData.fields (c : CrashContextData) : List (String × Json) :=
  [("parser_version", ofNat c.parserVersion), ("crash_guid", ofOptionalString c.crashGuid),
    ("crash_type", .string c.crashType.text), ("error_message", ofOptionalString c.errorMessage),
    ("build_version", ofOptionalString c.buildVersion),
    ("engine_version", ofOptionalString c.engineVersion),
    ("platform", ofOption NormalizedValue.toJson c.platform),
    ("architecture", ofOptionalString c.architecture),
    ("build_configuration", ofOptionalString c.buildConfiguration)] ++
    (optionalField "command_line" (c.commandLine.map Json.string) ++
    [("modules", .array (c.modules.map NormalizedValue.toJson)),
      ("threads", .array (c.threads.map CrashContextThread.toJson)),
      ("system_metadata", .array (c.systemMetadata.map CrashContextProperty.toJson)),
      ("user_comment", ofOptionalString c.userComment),
      ("game_data", .array (c.gameData.map CrashContextProperty.toJson)),
      ("unknown_fields", unknownFieldsToJson c.unknownFields)])

def CrashContextData.toJson (c : CrashContextData) : Json := ofFields c.fields

def CrashSignal.toJson (s : CrashSignal) : Json :=
  ofFields [("kind", .string s.kind.text), ("confidence", .string s.confidence.text),
    ("evidence", .array (s.evidence.map Json.string))]

def CrashClassification.toJson (c : CrashClassification) : Json :=
  ofFields [("crash_type", .string c.crashType.text),
    ("confidence", .string c.confidence.text), ("evidence", .array (c.evidence.map Json.string)),
    ("signals", .array (c.signals.map CrashSignal.toJson))]

end Serialization

end FaultLane.CrashContext
