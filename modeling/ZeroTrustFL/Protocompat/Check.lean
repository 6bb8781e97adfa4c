import Mathlib
import ZeroTrustFL.Lib.OrdMap
import ZeroTrustFL.Lib.Text

/-!
# The protobuf compatibility check

`internal/protocompat/check.go`: a proposed descriptor set is compared with the published one.  A
field of a descriptor stands for what its getter returns, so an absent value is its default.
-/

namespace ZeroTrustFL

/-! ## Descriptors -/

inductive FieldType where
  | double | float | int64 | uint64 | int32 | fixed64 | fixed32 | bool | string | group
  | message | bytes
  | uint32 | enum | sfixed32 | sfixed64 | sint32 | sint64
deriving DecidableEq

inductive FieldLabel where
  | optional | required | repeated
deriving DecidableEq

structure FieldDescriptor where
  name : String
  number : ℤ
  label : FieldLabel
  type : FieldType
  typeName : String
  oneofIndex : Option ℤ
  proto3Optional : Bool
deriving DecidableEq

structure EnumValueDescriptor where
  name : String
  number : ℤ
deriving DecidableEq

structure EnumDescriptor where
  name : String
  value : List EnumValueDescriptor
deriving DecidableEq

structure MethodDescriptor where
  name : String
  inputType : String
  outputType : String
  clientStreaming : Bool
  serverStreaming : Bool
deriving DecidableEq

structure ServiceDescriptor where
  name : String
  method : List MethodDescriptor
deriving DecidableEq

/-- The numbers from `start` up to `stop`, without `stop`. -/
structure ReservedRange where
  start : ℤ
  stop : ℤ
deriving DecidableEq

structure MessageDescriptor where
  name : String
  field : List FieldDescriptor
  nestedType : List MessageDescriptor
  enumType : List EnumDescriptor
  oneofDecl : List String
  mapEntry : Bool
  reservedRange : List ReservedRange
  reservedName : List String

structure FileDescriptor where
  name : String
  package : String
  syntaxName : String
  messageType : List MessageDescriptor
  enumType : List EnumDescriptor
  service : List ServiceDescriptor

/-- The files of a descriptor set; a file can be missing. -/
abbrev DescriptorSet := List (Option FileDescriptor)

/-! ## Indexing -/

def packagePrefix (pkg : String) : String := if pkg = "" then "" else "." ++ pkg

def qualified (scope name : String) : String :=
  if scope = "" then "." ++ name else scope ++ "." ++ name

structure SymbolIndex where
  messages : OrdMap String MessageDescriptor
  enums : OrdMap String EnumDescriptor
  services : OrdMap String ServiceDescriptor

mutual

def indexMessage (index : SymbolIndex) (scope : String) : MessageDescriptor → SymbolIndex
  | ⟨name, field, nestedType, enumType, oneofDecl, mapEntry, reservedRange, reservedName⟩ =>
    let message := ⟨name, field, nestedType, enumType, oneofDecl, mapEntry, reservedRange,
      reservedName⟩
    let name := qualified scope name
    let index := { index with messages := index.messages.insert name message }
    let index := indexMessages index name nestedType
    { index with
      enums := enumType.foldl (fun enums enum => enums.insert (qualified name enum.name) enum)
        index.enums }

/-- The loop over the messages of a scope. -/
def indexMessages (index : SymbolIndex) (scope : String) : List MessageDescriptor → SymbolIndex
  | [] => index
  | message :: messages => indexMessages (indexMessage index scope message) scope messages

end

def buildSymbolIndex (file : FileDescriptor) : SymbolIndex :=
  let scope := packagePrefix file.package
  let index := indexMessages ⟨∅, ∅, ∅⟩ scope file.messageType
  { index with
    enums := file.enumType.foldl (fun enums enum => enums.insert (qualified scope enum.name) enum)
      index.enums
    services := file.service.foldl (fun services service =>
      services.insert (qualified scope service.name) service) index.services }

/-- One round of the loop of `indexFiles`. -/
def indexFile (files : OrdMap String FileDescriptor) (file : Option FileDescriptor) :
    Except String (OrdMap String FileDescriptor) :=
  match file with
  | none => .error "descriptor set contains a file without a name"
  | some file =>
    if trimSpace file.name = "" then .error "descriptor set contains a file without a name"
    else if files.get? file.name ≠ none then
      .error ("descriptor set contains duplicate file " ++ quote file.name)
    else .ok (files.insert file.name file)

def indexFiles (set : DescriptorSet) : Except String (OrdMap String FileDescriptor) :=
  set.foldlM indexFile ∅

/-! ## Comparing -/

/-- What a check reports. -/
def report (condition : Bool) (problem : String) : List String :=
  if condition then [problem] else []

/-- The loop over a baseline map: what was removed, and what the comparison of the rest reports. -/
def compareEntries {ν : Type} (removed : String → String) (compare : String → ν → ν → List String)
    (baseline current : OrdMap String ν) : List String :=
  baseline.entries.flatMap fun entry =>
    match current.get? entry.1 with
    | none => [removed entry.1]
    | some value => compare entry.1 entry.2 value

def fieldOneofName (message : MessageDescriptor) (field : FieldDescriptor) : String :=
  match field.oneofIndex with
  | none => ""
  | some index =>
    if index < 0 ∨ message.oneofDecl.length ≤ index then "<invalid>"
    else message.oneofDecl.getD index.toNat ""

def compareField (name : String) (baseline current : MessageDescriptor)
    (currentFields : OrdMap ℤ FieldDescriptor) (field : FieldDescriptor) : List String :=
  match currentFields.get? field.number with
  | none => [s!"message {name} removed or renumbered field {field.number} ({field.name})"]
  | some currentField =>
    let fieldName := s!"message {name} field {field.number}"
    let baselineOneof := fieldOneofName baseline field
    let currentOneof := fieldOneofName current currentField
    report (field.name ≠ currentField.name)
        (fieldName ++ " changed name from " ++ quote field.name ++ " to " ++
          quote currentField.name) ++
      report (field.type ≠ currentField.type ∨ field.typeName ≠ currentField.typeName)
        (fieldName ++ s!" ({field.name}) changed type") ++
      report (field.label ≠ currentField.label)
        (fieldName ++ s!" ({field.name}) changed cardinality") ++
      report (baselineOneof ≠ currentOneof)
        (fieldName ++ s!" ({field.name}) changed oneof membership from " ++
          quote baselineOneof ++ " to " ++ quote currentOneof) ++
      report (field.proto3Optional ≠ currentField.proto3Optional)
        (fieldName ++ s!" ({field.name}) changed proto3 optional presence")

def compareMessage (name : String) (baseline current : MessageDescriptor) : List String :=
  let currentFields := OrdMap.ofList (current.field.map fun field => (field.number, field))
  report (baseline.mapEntry ≠ current.mapEntry) s!"message {name} changed map-entry semantics" ++
    (baseline.oneofDecl.flatMap fun oneof =>
      report (oneof ∉ current.oneofDecl)
        (s!"message {name} removed or renamed oneof " ++ quote oneof)) ++
    baseline.field.flatMap (compareField name baseline current currentFields)

def compareEnumValue (name : String) (currentValues : OrdMap String EnumValueDescriptor)
    (value : EnumValueDescriptor) : List String :=
  match currentValues.get? value.name with
  | none => [s!"enum {name} removed or renamed value {value.name}={value.number}"]
  | some currentValue =>
    report (value.number ≠ currentValue.number)
      s!"enum {name} value {value.name} changed number from {value.number} to {currentValue.number}"

def compareEnum (name : String) (baseline current : EnumDescriptor) : List String :=
  baseline.value.flatMap (compareEnumValue name
    (OrdMap.ofList (current.value.map fun value => (value.name, value))))

def compareMethod (name : String) (currentMethods : OrdMap String MethodDescriptor)
    (method : MethodDescriptor) : List String :=
  match currentMethods.get? method.name with
  | none => [s!"service {name} removed or renamed RPC {method.name}"]
  | some currentMethod =>
    let methodName := s!"service {name} RPC {method.name}"
    report (method.inputType ≠ currentMethod.inputType ∨
      method.outputType ≠ currentMethod.outputType)
        (methodName ++ " changed request or response type") ++
      report (method.clientStreaming ≠ currentMethod.clientStreaming ∨
          method.serverStreaming ≠ currentMethod.serverStreaming)
          (methodName ++ " changed streaming mode")

def compareService (name : String) (baseline current : ServiceDescriptor) : List String :=
  baseline.method.flatMap (compareMethod name
    (OrdMap.ofList (current.method.map fun method => (method.name, method))))

def compareFileSymbols (baseline current : FileDescriptor) : List String :=
  let baselineSymbols := buildSymbolIndex baseline
  let currentSymbols := buildSymbolIndex current
  compareEntries (fun name => s!"message {name} was removed or renamed") compareMessage
      baselineSymbols.messages currentSymbols.messages ++
    compareEntries (fun name => s!"enum {name} was removed or renamed") compareEnum
      baselineSymbols.enums currentSymbols.enums ++
    compareEntries (fun name => s!"service {name} was removed or renamed") compareService
      baselineSymbols.services currentSymbols.services

/-- One round of the loop of `Check`, for a file of that name in both sets. -/
def compareFile (fileName : String) (baseline current : FileDescriptor) : List String :=
  report (baseline.package ≠ current.package)
      (s!"file {fileName} changed package from " ++ quote baseline.package ++ " to " ++
        quote current.package) ++
    report (baseline.syntaxName ≠ current.syntaxName)
      (s!"file {fileName} changed syntax from " ++ quote baseline.syntaxName ++ " to " ++
        quote current.syntaxName) ++
    compareFileSymbols baseline current

/-- `Check`: the append-only policy. -/
def checkDescriptors (baseline current : Option DescriptorSet) : Except String Unit :=
  match baseline, current with
  | some baseline, some current =>
    match indexFiles baseline with
    | .error e => .error ("index baseline protobuf descriptors: " ++ e)
    | .ok baselineFiles =>
      match indexFiles current with
      | .error e => .error ("index current protobuf descriptors: " ++ e)
      | .ok currentFiles =>
        let problems := compareEntries (fun fileName => s!"file {fileName} was removed or renamed")
          compareFile baselineFiles currentFiles
        if problems.length = 0 then .ok ()
        else .error ("protobuf compatibility check failed:\n- " ++
          "\n- ".intercalate (problems.mergeSort fun a b => decide (a ≤ b)))
  | _, _ => .error "baseline and current protobuf descriptor sets are required"

end ZeroTrustFL
