import Mathlib
import ZeroTrustFL.Lib.CheckedFold
import ZeroTrustFL.Protocompat.Check

/-!
# Compatibility is a preorder

The check accepts a pair of descriptor sets when every file, message, enum and service of the first
has one of the same name in the second that is compatible with it.  On well-formed sets the relation
is reflexive; it is transitive without further assumptions.
-/

namespace ZeroTrustFL

/-! ## What each comparison accepts -/

@[simp] theorem report_eq_nil {condition : Bool} {problem : String} :
    report condition problem = [] ↔ condition = false := by
  cases condition <;> simp [report]

theorem compareEntries_eq_nil_iff {ν : Type} {removed : String → String}
    {compare : String → ν → ν → List String} {baseline current : OrdMap String ν} :
    compareEntries removed compare baseline current = [] ↔
      OrdMap.Extends (fun name v w => compare name v w = []) baseline current := by
  simp only [compareEntries, List.flatMap_eq_nil_iff, OrdMap.Extends, Prod.forall]
  refine forall₂_congr fun name v => ?_
  rw [← OrdMap.get?_eq_some_iff]
  refine imp_congr_right fun _ => ?_
  rcases current.get? name with _ | w
  · simp
  · simp

section Lookup

variable {κ ν : Type} [LinearOrder κ]

/-- Every element of the first list has a related one under its key in the second; of several
elements under one key the last counts. -/
def ContinuesBy (key : ν → κ) (r : ν → ν → Prop) (xs ys : List ν) : Prop :=
  ∀ x ∈ xs, ∃ y, (OrdMap.ofList (ys.map fun y => (key y, y))).get? (key x) = some y ∧ r x y

variable {key : ν → κ}

theorem of_get?_ofList {ys : List ν} {k : κ} {y : ν}
    (h : (OrdMap.ofList (ys.map fun y => (key y, y))).get? k = some y) : y ∈ ys ∧ key y = k := by
  rw [OrdMap.ofList, List.foldl_map] at h
  rcases OrdMap.of_get?_foldl_insert (fun _ => False) key id ys ∅ (by simpa using h) with
    ⟨x, hx, hkey, rfl⟩ | hempty
  · exact ⟨hx, hkey⟩
  · cases hempty

theorem ContinuesBy.refl {r : ν → ν → Prop} {xs : List ν} (hkeys : (xs.map key).Nodup)
    (hr : ∀ x ∈ xs, r x x) : ContinuesBy key r xs xs := by
  intro x hx
  have hdistinct : ((xs.map fun x => (key x, x)).map Prod.fst).Nodup := by
    rw [List.map_map]
    exact hkeys
  exact ⟨x, (OrdMap.get?_ofList_eq_some_iff hdistinct).2 (List.mem_map_of_mem hx), hr x hx⟩

theorem ContinuesBy.trans {r₁ r₂ r₃ : ν → ν → Prop} {xs ys zs : List ν}
    (hr : ∀ x y z, r₁ x y → r₂ y z → r₃ x z) (h₁ : ContinuesBy key r₁ xs ys)
    (h₂ : ContinuesBy key r₂ ys zs) : ContinuesBy key r₃ xs zs := by
  intro x hx
  obtain ⟨y, hy, hxy⟩ := h₁ x hx
  obtain ⟨hmem, hkey⟩ := of_get?_ofList hy
  obtain ⟨z, hz, hyz⟩ := h₂ y hmem
  exact ⟨z, hkey ▸ hz, hr x y z hxy hyz⟩

theorem ContinuesBy.mem {r : ν → ν → Prop} {xs ys : List ν} (h : ContinuesBy key r xs ys) {x : ν}
    (hx : x ∈ xs) : ∃ y ∈ ys, key y = key x ∧ r x y := by
  obtain ⟨y, hy, hxy⟩ := h x hx
  obtain ⟨hmem, hkey⟩ := of_get?_ofList hy
  exact ⟨y, hmem, hkey, hxy⟩

end Lookup

/-- The second field continues the first. -/
structure FieldDescriptor.Continues (baseline current : MessageDescriptor) (f g : FieldDescriptor) :
    Prop where
  name : f.name = g.name
  type : f.type = g.type
  typeName : f.typeName = g.typeName
  label : f.label = g.label
  oneofName : fieldOneofName baseline f = fieldOneofName current g
  presence : f.proto3Optional = g.proto3Optional

/-- The second message continues the first. -/
structure MessageDescriptor.Continues (baseline current : MessageDescriptor) : Prop where
  mapEntry : baseline.mapEntry = current.mapEntry
  oneofs : ∀ oneof ∈ baseline.oneofDecl, oneof ∈ current.oneofDecl
  fields : ContinuesBy FieldDescriptor.number (FieldDescriptor.Continues baseline current)
    baseline.field current.field

/-- The second enum continues the first. -/
def EnumDescriptor.Continues (baseline current : EnumDescriptor) : Prop :=
  ContinuesBy EnumValueDescriptor.name (fun v w => v.number = w.number) baseline.value current.value

/-- The second method continues the first. -/
structure MethodDescriptor.Continues (f g : MethodDescriptor) : Prop where
  inputType : f.inputType = g.inputType
  outputType : f.outputType = g.outputType
  clientStreaming : f.clientStreaming = g.clientStreaming
  serverStreaming : f.serverStreaming = g.serverStreaming

/-- The second service continues the first. -/
def ServiceDescriptor.Continues (baseline current : ServiceDescriptor) : Prop :=
  ContinuesBy MethodDescriptor.name MethodDescriptor.Continues baseline.method current.method

theorem compareField_eq_nil_iff {name : String} {baseline current : MessageDescriptor}
    {currentFields : OrdMap ℤ FieldDescriptor} {f : FieldDescriptor} :
    compareField name baseline current currentFields f = [] ↔
      ∃ g, currentFields.get? f.number = some g ∧
      FieldDescriptor.Continues baseline current f g := by
  unfold compareField
  rcases currentFields.get? f.number with _ | g
  · simp
  simp only [List.append_eq_nil_iff, report_eq_nil, decide_eq_false_iff_not, not_not, not_or,
    Option.some.injEq, exists_eq_left']
  constructor
  · rintro ⟨⟨⟨⟨hname, htype, htypeName⟩, hlabel⟩, honeof⟩, hpresence⟩
    exact ⟨hname, htype, htypeName, hlabel, honeof, hpresence⟩
  · rintro ⟨hname, htype, htypeName, hlabel, honeof, hpresence⟩
    exact ⟨⟨⟨⟨hname, htype, htypeName⟩, hlabel⟩, honeof⟩, hpresence⟩

theorem compareMessage_eq_nil_iff {name : String} {baseline current : MessageDescriptor} :
    compareMessage name baseline current = [] ↔ baseline.Continues current := by
  simp only [compareMessage, List.append_eq_nil_iff, report_eq_nil, List.flatMap_eq_nil_iff,
    compareField_eq_nil_iff, decide_eq_false_iff_not, not_not]
  constructor
  · rintro ⟨⟨hmap, honeofs⟩, hfields⟩
    exact ⟨hmap, honeofs, hfields⟩
  · rintro ⟨hmap, honeofs, hfields⟩
    exact ⟨⟨hmap, honeofs⟩, hfields⟩

theorem compareEnumValue_eq_nil_iff {name : String}
    {currentValues : OrdMap String EnumValueDescriptor} {v : EnumValueDescriptor} :
    compareEnumValue name currentValues v = [] ↔
      ∃ w, currentValues.get? v.name = some w ∧ v.number = w.number := by
  unfold compareEnumValue
  rcases currentValues.get? v.name with _ | w
  · simp
  · simp

theorem compareEnum_eq_nil_iff {name : String} {baseline current : EnumDescriptor} :
    compareEnum name baseline current = [] ↔ baseline.Continues current := by
  simp only [compareEnum, List.flatMap_eq_nil_iff, compareEnumValue_eq_nil_iff]
  rfl

theorem compareMethod_eq_nil_iff {name : String} {currentMethods : OrdMap String MethodDescriptor}
    {f : MethodDescriptor} :
    compareMethod name currentMethods f = [] ↔ ∃ g, currentMethods.get? f.name = some g ∧
      f.Continues g := by
  unfold compareMethod
  rcases currentMethods.get? f.name with _ | g
  · simp
  simp only [List.append_eq_nil_iff, report_eq_nil, decide_eq_false_iff_not, not_or, not_not,
    Option.some.injEq, exists_eq_left']
  constructor
  · rintro ⟨⟨hinput, houtput⟩, hclient, hserver⟩
    exact ⟨hinput, houtput, hclient, hserver⟩
  · rintro ⟨hinput, houtput, hclient, hserver⟩
    exact ⟨⟨hinput, houtput⟩, hclient, hserver⟩

theorem compareService_eq_nil_iff {name : String} {baseline current : ServiceDescriptor} :
    compareService name baseline current = [] ↔ baseline.Continues current := by
  simp only [compareService, List.flatMap_eq_nil_iff, compareMethod_eq_nil_iff]
  rfl

/-- The symbols of the second file continue those of the first. -/
structure FileDescriptor.Continues (baseline current : FileDescriptor) : Prop where
  package : baseline.package = current.package
  syntaxName : baseline.syntaxName = current.syntaxName
  messages : OrdMap.Extends (fun _ => MessageDescriptor.Continues)
    (buildSymbolIndex baseline).messages (buildSymbolIndex current).messages
  enums : OrdMap.Extends (fun _ => EnumDescriptor.Continues) (buildSymbolIndex baseline).enums
    (buildSymbolIndex current).enums
  services : OrdMap.Extends (fun _ => ServiceDescriptor.Continues)
    (buildSymbolIndex baseline).services (buildSymbolIndex current).services

theorem compareFile_eq_nil_iff {name : String} {baseline current : FileDescriptor} :
    compareFile name baseline current = [] ↔ baseline.Continues current := by
  simp only [compareFile, compareFileSymbols, List.append_eq_nil_iff, report_eq_nil,
    decide_eq_false_iff_not, not_not, compareEntries_eq_nil_iff, compareMessage_eq_nil_iff,
    compareEnum_eq_nil_iff, compareService_eq_nil_iff]
  constructor
  · rintro ⟨⟨hpackage, hsyntax⟩, ⟨hmessages, henums⟩, hservices⟩
    exact ⟨hpackage, hsyntax, hmessages, henums, hservices⟩
  · rintro ⟨hpackage, hsyntax, hmessages, henums, hservices⟩
    exact ⟨⟨hpackage, hsyntax⟩, ⟨hmessages, henums⟩, hservices⟩

/-- What the check accepts. -/
theorem checkDescriptors_ok_iff {baseline current : DescriptorSet} :
    checkDescriptors (some baseline) (some current) = .ok () ↔
      ∃ baselineFiles currentFiles, indexFiles baseline = .ok baselineFiles ∧
        indexFiles current = .ok currentFiles ∧
        OrdMap.Extends (fun _ => FileDescriptor.Continues) baselineFiles currentFiles := by
  simp only [checkDescriptors]
  rcases ha : indexFiles baseline with e | baselineFiles
  · simp
  rcases hb : indexFiles current with e | currentFiles
  · simp
  simp only
  split_ifs with h
  · rw [List.length_eq_zero_iff, compareEntries_eq_nil_iff] at h
    simp only [compareFile_eq_nil_iff] at h
    simp [h]
  · rw [List.length_eq_zero_iff, compareEntries_eq_nil_iff] at h
    simp only [compareFile_eq_nil_iff] at h
    simp [h]

/-! ## The preorder -/

theorem FieldDescriptor.Continues.trans {m₁ m₂ m₃ : MessageDescriptor} (f g h : FieldDescriptor)
    (h₁ : Continues m₁ m₂ f g) (h₂ : Continues m₂ m₃ g h) : Continues m₁ m₃ f h :=
  ⟨h₁.name.trans h₂.name, h₁.type.trans h₂.type, h₁.typeName.trans h₂.typeName,
    h₁.label.trans h₂.label, h₁.oneofName.trans h₂.oneofName, h₁.presence.trans h₂.presence⟩

theorem MessageDescriptor.Continues.trans {m₁ m₂ m₃ : MessageDescriptor} (h₁ : m₁.Continues m₂)
    (h₂ : m₂.Continues m₃) : m₁.Continues m₃ :=
  ⟨h₁.mapEntry.trans h₂.mapEntry, fun oneof h => h₂.oneofs oneof (h₁.oneofs oneof h),
    h₁.fields.trans FieldDescriptor.Continues.trans h₂.fields⟩

theorem EnumDescriptor.Continues.trans {e₁ e₂ e₃ : EnumDescriptor} (h₁ : e₁.Continues e₂)
    (h₂ : e₂.Continues e₃) : e₁.Continues e₃ := by
  have hnumbers (u v w : EnumValueDescriptor) : u.number = v.number → v.number = w.number →
      u.number = w.number :=
    Eq.trans
  exact ContinuesBy.trans hnumbers h₁ h₂

theorem ServiceDescriptor.Continues.trans {s₁ s₂ s₃ : ServiceDescriptor} (h₁ : s₁.Continues s₂)
    (h₂ : s₂.Continues s₃) : s₁.Continues s₃ :=
  ContinuesBy.trans (fun _ _ _ h₁ h₂ =>
    ⟨h₁.inputType.trans h₂.inputType, h₁.outputType.trans h₂.outputType,
    h₁.clientStreaming.trans h₂.clientStreaming, h₁.serverStreaming.trans h₂.serverStreaming⟩) h₁ h₂

theorem FileDescriptor.Continues.trans {f₁ f₂ f₃ : FileDescriptor} (h₁ : f₁.Continues f₂)
    (h₂ : f₂.Continues f₃) : f₁.Continues f₃ :=
  ⟨h₁.package.trans h₂.package, h₁.syntaxName.trans h₂.syntaxName,
    h₁.messages.trans (fun _ _ _ _ => MessageDescriptor.Continues.trans) h₂.messages,
    h₁.enums.trans (fun _ _ _ _ => EnumDescriptor.Continues.trans) h₂.enums,
    h₁.services.trans (fun _ _ _ _ => ServiceDescriptor.Continues.trans) h₂.services⟩

/-! ## The symbols of a file -/

mutual

/-- A message and the messages nested in it, with their qualified names. -/
def MessageDescriptor.declared (scope : String) :
    MessageDescriptor → List (String × MessageDescriptor)
  | ⟨name, field, nestedType, enumType, oneofDecl, mapEntry, reservedRange, reservedName⟩ =>
    (qualified scope name,
        ⟨name, field, nestedType, enumType, oneofDecl, mapEntry, reservedRange, reservedName⟩) ::
      declaredMessages (qualified scope name) nestedType

def declaredMessages (scope : String) : List MessageDescriptor → List (String × MessageDescriptor)
  | [] => []
  | message :: messages => message.declared scope ++ declaredMessages scope messages

end

mutual

/-- The enums of a message and of the messages nested in it, with their qualified names. -/
def MessageDescriptor.declaredEnums (scope : String) :
    MessageDescriptor → List (String × EnumDescriptor)
  | ⟨name, _, nestedType, enumType, _, _, _, _⟩ =>
    declaredMessageEnums (qualified scope name) nestedType ++
      enumType.map fun enum => (qualified (qualified scope name) enum.name, enum)

def declaredMessageEnums (scope : String) : List MessageDescriptor → List (String × EnumDescriptor)
  | [] => []
  | message :: messages => message.declaredEnums scope ++ declaredMessageEnums scope messages

end

namespace FileDescriptor

/-- The messages of a file at any depth, with their qualified names. -/
def messages (file : FileDescriptor) : List (String × MessageDescriptor) :=
  declaredMessages (packagePrefix file.package) file.messageType

/-- The enums of a file at any depth, with their qualified names. -/
def enums (file : FileDescriptor) : List (String × EnumDescriptor) :=
  declaredMessageEnums (packagePrefix file.package) file.messageType ++
    file.enumType.map fun enum => (qualified (packagePrefix file.package) enum.name, enum)

/-- The services of a file, with their qualified names. -/
def services (file : FileDescriptor) : List (String × ServiceDescriptor) :=
  file.service.map fun service => (qualified (packagePrefix file.package) service.name, service)

end FileDescriptor

/-- The map with the entries of a list inserted one after the other. -/
def insertAll {ν : Type} (m : OrdMap String ν) (entries : List (String × ν)) : OrdMap String ν :=
  entries.foldl (fun m e => m.insert e.1 e.2) m

theorem insertAll_append {ν : Type} (m : OrdMap String ν) (xs ys : List (String × ν)) :
    insertAll m (xs ++ ys) = insertAll (insertAll m xs) ys := List.foldl_append

theorem foldl_insert_map {ν : Type} (name : ν → String) (xs : List ν) (m : OrdMap String ν) :
    xs.foldl (fun m x => m.insert (name x) x) m = insertAll m (xs.map fun x => (name x, x)) := by
  rw [insertAll, List.foldl_map]

mutual

theorem indexMessage_eq (index : SymbolIndex) (scope : String) : ∀ message : MessageDescriptor,
    indexMessage index scope message =
      { index with
        messages := insertAll index.messages (message.declared scope)
        enums := insertAll index.enums (message.declaredEnums scope) }
  | ⟨name, field, nestedType, enumType, oneofDecl, mapEntry, reservedRange, reservedName⟩ => by
    rw [indexMessage, indexMessages_eq _ _ nestedType, MessageDescriptor.declared,
      MessageDescriptor.declaredEnums, insertAll_append, ← foldl_insert_map]
    rfl

theorem indexMessages_eq (index : SymbolIndex) (scope : String) :
    ∀ messages : List MessageDescriptor,
    indexMessages index scope messages =
      { index with
        messages := insertAll index.messages (declaredMessages scope messages)
        enums := insertAll index.enums (declaredMessageEnums scope messages) }
  | [] => rfl
  | message :: messages => by
    rw [indexMessages, indexMessages_eq _ _ messages, indexMessage_eq _ _ message, declaredMessages,
      declaredMessageEnums, insertAll_append, insertAll_append]

end

/-- The index maps the qualified names of a file's symbols to them. -/
theorem buildSymbolIndex_eq (file : FileDescriptor) :
    buildSymbolIndex file = ⟨.ofList file.messages, .ofList file.enums, .ofList file.services⟩ := by
  simp only [buildSymbolIndex, indexMessages_eq, foldl_insert_map, ← insertAll_append]
  rfl

/-! ## Well-formed descriptors -/

structure MessageDescriptor.WellFormed (message : MessageDescriptor) : Prop where
  numbers : (message.field.map FieldDescriptor.number).Nodup
  oneofs : message.oneofDecl.Nodup
  indices : ∀ f ∈ message.field, ∀ i ∈ f.oneofIndex, 0 ≤ i ∧ i < message.oneofDecl.length

instance (message : MessageDescriptor) : Decidable message.WellFormed :=
  decidable_of_iff ((message.field.map FieldDescriptor.number).Nodup ∧ message.oneofDecl.Nodup ∧
      ∀ f ∈ message.field, ∀ i ∈ f.oneofIndex, 0 ≤ i ∧ i < message.oneofDecl.length)
    ⟨fun h => ⟨h.1, h.2.1, h.2.2⟩, fun h => ⟨h.numbers, h.oneofs, h.indices⟩⟩

structure FileDescriptor.WellFormed (file : FileDescriptor) : Prop where
  messageNames : (file.messages.map Prod.fst).Nodup
  enumNames : (file.enums.map Prod.fst).Nodup
  serviceNames : (file.services.map Prod.fst).Nodup
  messages : ∀ entry ∈ file.messages, entry.2.WellFormed
  enumValues : ∀ entry ∈ file.enums, (entry.2.value.map EnumValueDescriptor.name).Nodup
  methods : ∀ entry ∈ file.services, (entry.2.method.map MethodDescriptor.name).Nodup

instance (file : FileDescriptor) : Decidable file.WellFormed :=
  decidable_of_iff (((file.messages.map Prod.fst).Nodup ∧ (file.enums.map Prod.fst).Nodup ∧
      (file.services.map Prod.fst).Nodup) ∧ (∀ entry ∈ file.messages, entry.2.WellFormed) ∧
      (∀ entry ∈ file.enums, (entry.2.value.map EnumValueDescriptor.name).Nodup) ∧
      ∀ entry ∈ file.services, (entry.2.method.map MethodDescriptor.name).Nodup)
    ⟨fun h => ⟨h.1.1, h.1.2.1, h.1.2.2, h.2.1, h.2.2.1, h.2.2.2⟩,
      fun h => ⟨⟨h.messageNames, h.enumNames, h.serviceNames⟩, h.messages, h.enumValues, h.methods⟩⟩

structure DescriptorSet.WellFormed (set : DescriptorSet) : Prop where
  named : ∀ file ∈ set, ∃ f ∈ file, trimSpace f.name ≠ ""
  fileNames : (set.map (Option.map FileDescriptor.name)).Nodup
  files : ∀ file ∈ set, ∀ f ∈ file, f.WellFormed

instance (set : DescriptorSet) : Decidable set.WellFormed :=
  decidable_of_iff ((∀ file ∈ set, ∃ f ∈ file, trimSpace f.name ≠ "") ∧
      (set.map (Option.map FileDescriptor.name)).Nodup ∧ ∀ file ∈ set, ∀ f ∈ file, f.WellFormed)
    ⟨fun h => ⟨h.1, h.2.1, h.2.2⟩, fun h => ⟨h.named, h.fileNames, h.files⟩⟩

variable {files : OrdMap String FileDescriptor} {set : DescriptorSet} {f : FieldDescriptor}

theorem indexFile_ok_iff {next : OrdMap String FileDescriptor} {file : Option FileDescriptor} :
    indexFile files file = .ok next ↔
      ∃ f, file = some f ∧ trimSpace f.name ≠ "" ∧ files.get? f.name = none ∧
      next = files.insert f.name f := by
  rcases file with _ | f
  · simp [indexFile]
  simp only [indexFile]
  split_ifs with hblank hduplicate
  · simp [hblank]
  · simp [hduplicate]
  · rw [not_not] at hduplicate
    constructor
    · intro h
      exact ⟨f, rfl, hblank, hduplicate, (Except.ok.inj h).symm⟩
    · rintro ⟨g, hg, -, -, rfl⟩
      rw [Option.some.inj hg]

/-- The index of a set maps the names of its files to them. -/
theorem get?_indexFiles (h : indexFiles set = .ok files) (name : String) (f : FileDescriptor) :
    files.get? name = some f ↔ some f ∈ set ∧ f.name = name := by
  revert name f
  refine foldlM_induction (P := fun xs (m : OrdMap String FileDescriptor) =>
    ∀ name f, m.get? name = some f ↔ some f ∈ xs ∧ f.name = name) (by simp) ?_ h
  intro xs x m t hm hx name f
  obtain ⟨g, rfl, -, hfree, rfl⟩ := indexFile_ok_iff.1 hx
  rw [OrdMap.get?_insert, List.mem_append, List.mem_singleton, Option.some.injEq]
  split_ifs with hname
  · subst hname
    constructor
    · intro heq
      cases heq
      exact ⟨.inr rfl, rfl⟩
    · rintro ⟨hmem | rfl, hname⟩
      · rw [(hm g.name f).2 ⟨hmem, hname⟩] at hfree
        cases hfree
      · rfl
  · rw [hm]
    constructor
    · exact fun hf => ⟨.inl hf.1, hf.2⟩
    · rintro ⟨hmem | rfl, hf⟩
      · exact ⟨hmem, hf⟩
      · exact absurd hf.symm hname

/-- A set that can be indexed has files of distinct names that are not blank. -/
theorem of_indexFiles (h : indexFiles set = .ok files) :
    (∀ file ∈ set, ∃ f ∈ file, trimSpace f.name ≠ "") ∧
      (set.map (Option.map FileDescriptor.name)).Nodup := by
  induction set using List.reverseRecOn generalizing files with
  | nil => exact ⟨fun _ hfile => (by cases hfile), List.nodup_nil⟩
  | append_singleton set file ih =>
    obtain ⟨files₀, hfiles₀, hfile⟩ := foldlM_concat_ok.1 h
    obtain ⟨f, rfl, hblank, hfree, -⟩ := indexFile_ok_iff.1 hfile
    obtain ⟨hnamed, hnames⟩ := ih hfiles₀
    constructor
    · intro file hmem
      rcases List.mem_append.1 hmem with hold | hnew
      · exact hnamed file hold
      · exact List.mem_singleton.1 hnew ▸ ⟨f, rfl, hblank⟩
    · rw [List.map_append, List.map_singleton]
      refine List.Nodup.append hnames (List.nodup_singleton _) (List.disjoint_singleton.2 ?_)
      intro hmem
      obtain ⟨g, hg, hname⟩ := List.mem_map.1 hmem
      obtain ⟨g', rfl, hname'⟩ := Option.map_eq_some_iff.1 hname
      cases hfree.symm.trans ((get?_indexFiles hfiles₀ _ _).2 ⟨hg, hname'⟩)

/-- A well-formed set can be indexed. -/
theorem exists_indexFiles (hnamed : ∀ file ∈ set, ∃ f ∈ file, trimSpace f.name ≠ "")
    (hnames : (set.map (Option.map FileDescriptor.name)).Nodup) :
    ∃ files, indexFiles set = .ok files := by
  induction set using List.reverseRecOn with
  | nil => exact ⟨∅, rfl⟩
  | append_singleton set file ih =>
    rw [List.map_append, List.nodup_append] at hnames
    obtain ⟨files, hfiles⟩ := ih (fun x hx => hnamed x (List.mem_append_left _ hx)) hnames.1
    obtain ⟨f, rfl, hblank⟩ := hnamed file (by simp)
    have hfree : files.get? f.name = none := by
      refine Option.eq_none_iff_forall_ne_some.2 fun g hg => ?_
      obtain ⟨hmem, hname⟩ := (get?_indexFiles hfiles _ _).1 hg
      exact hnames.2.2 (some g.name)
        (List.mem_map_of_mem (f := Option.map FileDescriptor.name) hmem)
        (some f.name) (by simp) (congrArg some hname)
    exact ⟨files.insert f.name f,
      foldlM_concat_ok.2 ⟨files, hfiles, indexFile_ok_iff.2 ⟨f, rfl, hblank, hfree, rfl⟩⟩⟩

/-! ## The theorem -/

theorem FileDescriptor.WellFormed.continues_self {file : FileDescriptor} (h : file.WellFormed) :
    file.Continues file := by
  have hindex := buildSymbolIndex_eq file
  refine ⟨rfl, rfl, .refl fun name message hget => ?_, .refl fun name enum hget => ?_,
    .refl fun name service hget => ?_⟩
  · rw [hindex, OrdMap.get?_ofList_eq_some_iff h.messageNames] at hget
    exact ⟨rfl, fun _ honeof => honeof, .refl (h.messages _ hget).numbers fun _ _ =>
      ⟨rfl, rfl, rfl, rfl, rfl, rfl⟩⟩
  · rw [hindex, OrdMap.get?_ofList_eq_some_iff h.enumNames] at hget
    exact .refl (h.enumValues _ hget) fun _ _ => rfl
  · rw [hindex, OrdMap.get?_ofList_eq_some_iff h.serviceNames] at hget
    exact .refl (h.methods _ hget) fun _ _ => ⟨rfl, rfl, rfl, rfl⟩

/-- The oneof that a field belongs to. -/
def oneofOf (message : MessageDescriptor) (field : FieldDescriptor) : Option String :=
  field.oneofIndex.bind fun i => message.oneofDecl[i.toNat]?

/-- Every message, enum and service of the first file is in the second, with every field, value and
RPC as it was; a field is in the oneof of the same name when oneofs have names. -/
structure FileDescriptor.Preserved (baseline current : FileDescriptor) : Prop where
  fields : ∀ q m, (q, m) ∈ baseline.messages → ∃ m', (q, m') ∈ current.messages ∧
    ∀ f ∈ m.field, ∃ g ∈ m'.field, g.number = f.number ∧ g.name = f.name ∧ g.type = f.type ∧
      g.typeName = f.typeName ∧ g.label = f.label ∧ g.proto3Optional = f.proto3Optional ∧
      fieldOneofName m' g = fieldOneofName m f ∧
      ("" ∉ m.oneofDecl → "" ∉ m'.oneofDecl → oneofOf m' g = oneofOf m f)
  values : ∀ q e, (q, e) ∈ baseline.enums → ∃ e', (q, e') ∈ current.enums ∧
    ∀ v ∈ e.value, ∃ w ∈ e'.value, w.name = v.name ∧ w.number = v.number
  methods : ∀ q s, (q, s) ∈ baseline.services → ∃ s', (q, s') ∈ current.services ∧
    ∀ f ∈ s.method, ∃ g ∈ s'.method, g.name = f.name ∧ g.inputType = f.inputType ∧
      g.outputType = f.outputType ∧ g.clientStreaming = f.clientStreaming ∧
      g.serverStreaming = f.serverStreaming

theorem fieldOneofName_eq {message : MessageDescriptor} (h : message.WellFormed)
    (hf : f ∈ message.field) : fieldOneofName message f = (oneofOf message f).getD "" := by
  unfold fieldOneofName oneofOf
  rcases hi : f.oneofIndex with _ | i
  · rfl
  have hrange := h.indices f hf i hi
  have hlt : i.toNat < message.oneofDecl.length := by omega
  simp only [Option.bind_some,
    if_neg (show ¬ (i < 0 ∨ (message.oneofDecl.length : ℤ) ≤ i) by omega),
    List.getD_eq_getElem?_getD]

theorem oneofOf_mem {message : MessageDescriptor} {name : String}
    (h : oneofOf message f = some name) : name ∈ message.oneofDecl := by
  obtain ⟨i, -, hi⟩ := Option.bind_eq_some_iff.1 h
  exact List.mem_of_getElem? hi

/-- Without nameless oneofs, the name tells the oneof. -/
theorem oneofOf_eq {m m' : MessageDescriptor} (hm : m.WellFormed) (hm' : m'.WellFormed)
    {g : FieldDescriptor} (hf : f ∈ m.field) (hg : g ∈ m'.field)
    (h : fieldOneofName m' g = fieldOneofName m f) (hnamed : "" ∉ m.oneofDecl)
    (hnamed' : "" ∉ m'.oneofDecl) : oneofOf m' g = oneofOf m f := by
  rw [fieldOneofName_eq hm hf, fieldOneofName_eq hm' hg] at h
  rcases ho : oneofOf m f with _ | x <;> rcases ho' : oneofOf m' g with _ | y <;>
    simp only [ho, ho', Option.getD_some, Option.getD_none] at h
  · rfl
  · exact absurd (h ▸ oneofOf_mem ho') hnamed'
  · exact absurd (h ▸ oneofOf_mem ho) hnamed
  · rw [h]

theorem FileDescriptor.Continues.preserved {a b : FileDescriptor} (ha : a.WellFormed)
    (hb : b.WellFormed) (h : a.Continues b) : a.Preserved b := by
  have hia := buildSymbolIndex_eq a
  have hib := buildSymbolIndex_eq b
  refine ⟨fun q m hm => ?_, fun q e he => ?_, fun q s hs => ?_⟩
  · obtain ⟨m', hm', hcontinues⟩ := h.messages q m (by
      rw [hia]; exact (OrdMap.get?_ofList_eq_some_iff ha.messageNames).2 hm)
    rw [hib, OrdMap.get?_ofList_eq_some_iff hb.messageNames] at hm'
    refine ⟨m', hm', fun f hf => ?_⟩
    obtain ⟨g, hg, hnumber, hfield⟩ := hcontinues.fields.mem hf
    exact ⟨g, hg, hnumber, hfield.name.symm, hfield.type.symm, hfield.typeName.symm,
      hfield.label.symm, hfield.presence.symm, hfield.oneofName.symm,
      oneofOf_eq (ha.messages _ hm) (hb.messages _ hm') hf hg hfield.oneofName.symm⟩
  · obtain ⟨e', he', hcontinues⟩ := h.enums q e (by
      rw [hia]; exact (OrdMap.get?_ofList_eq_some_iff ha.enumNames).2 he)
    rw [hib, OrdMap.get?_ofList_eq_some_iff hb.enumNames] at he'
    refine ⟨e', he', fun v hv => ?_⟩
    obtain ⟨w, hw, hname, hnumber⟩ := ContinuesBy.mem hcontinues hv
    exact ⟨w, hw, hname, hnumber.symm⟩
  · obtain ⟨s', hs', hcontinues⟩ := h.services q s (by
      rw [hia]; exact (OrdMap.get?_ofList_eq_some_iff ha.serviceNames).2 hs)
    rw [hib, OrdMap.get?_ofList_eq_some_iff hb.serviceNames] at hs'
    refine ⟨s', hs', fun f hf => ?_⟩
    obtain ⟨g, hg, hname, hmethod⟩ := ContinuesBy.mem hcontinues hf
    exact ⟨g, hg, hname, hmethod.inputType.symm, hmethod.outputType.symm,
      hmethod.clientStreaming.symm, hmethod.serverStreaming.symm⟩

/-- Compatibility is a preorder on well-formed descriptor sets, and a compatible set preserves every
file of the baseline with its symbols. -/
theorem checkDescriptors_preorder (a b c : DescriptorSet) (ha : a.WellFormed) (hb : b.WellFormed) :
    checkDescriptors (some a) (some a) = .ok () ∧
      (checkDescriptors (some a) (some b) = .ok () → checkDescriptors (some b) (some c) = .ok () →
        checkDescriptors (some a) (some c) = .ok ()) ∧
      (checkDescriptors (some a) (some b) = .ok () →
        ∀ f, some f ∈ a → ∃ g, some g ∈ b ∧ g.name = f.name ∧ g.package = f.package ∧
          g.syntaxName = f.syntaxName ∧ f.Preserved g) := by
  obtain ⟨files, hfiles⟩ := exists_indexFiles ha.named ha.fileNames
  refine ⟨?_, fun hab hbc => ?_, fun hab f hf => ?_⟩
  · refine checkDescriptors_ok_iff.2 ⟨files, files, hfiles, hfiles, .refl fun name f hget => ?_⟩
    exact (ha.files (some f) ((get?_indexFiles hfiles name f).1 hget).1 f rfl).continues_self
  · obtain ⟨fa, fb, hfa, hfb, hextends⟩ := checkDescriptors_ok_iff.1 hab
    obtain ⟨fb', fc, hfb', hfc, hextends'⟩ := checkDescriptors_ok_iff.1 hbc
    rw [hfb, Except.ok.injEq] at hfb'
    subst hfb'
    exact checkDescriptors_ok_iff.2 ⟨fa, fc, hfa, hfc,
      hextends.trans (fun _ _ _ _ => FileDescriptor.Continues.trans) hextends'⟩
  · obtain ⟨fa, fb, hfa, hfb, hextends⟩ := checkDescriptors_ok_iff.1 hab
    obtain ⟨g, hg, hcontinues⟩ := hextends f.name f ((get?_indexFiles hfa _ _).2 ⟨hf, rfl⟩)
    obtain ⟨hmem, hname⟩ := (get?_indexFiles hfb _ _).1 hg
    exact ⟨g, hmem, hname, hcontinues.package.symm, hcontinues.syntaxName.symm,
      hcontinues.preserved (ha.files _ hf f rfl) (hb.files _ hmem g rfl)⟩

def stringField (name : String) (number : ℤ) : FieldDescriptor :=
  ⟨name, number, .optional, .string, "", none, false⟩

/-- A message without oneofs, enums and reserved numbers. -/
def sampleMessage (name : String) (field : List FieldDescriptor)
    (nestedType : List MessageDescriptor) : MessageDescriptor :=
  ⟨name, field, nestedType, [], [], false, [], []⟩

/-- A file with a message and one nested in it, and with an enum. -/
def nestedFile (outer inner : List FieldDescriptor) (values : List EnumValueDescriptor) :
    FileDescriptor where
  name := "fl_service.proto"
  package := "zerotrust.fl.v1"
  syntaxName := "proto3"
  messageType := [sampleMessage "Outer" outer [sampleMessage "Inner" inner []]]
  enumType := [⟨"Kind", values⟩]
  service := []

/-- Three versions: the second adds a field to the nested message, the third one to the outer
message and an enum value. -/
def nestedVersions : DescriptorSet × DescriptorSet × DescriptorSet :=
  ([some (nestedFile [stringField "id" 1] [stringField "x" 1] [⟨"A", 0⟩])],
    [some (nestedFile [stringField "id" 1] [stringField "x" 1, stringField "y" 2] [⟨"A", 0⟩])],
    [some (nestedFile [stringField "id" 1, stringField "label" 2]
      [stringField "x" 1, stringField "y" 2] [⟨"A", 0⟩, ⟨"B", 1⟩])])

theorem checkDescriptors_preorder_nestedVersions :
    checkDescriptors (some nestedVersions.1) (some nestedVersions.1) = .ok () ∧
      checkDescriptors (some nestedVersions.1) (some nestedVersions.2.2) = .ok () ∧
      ∀ f, some f ∈ nestedVersions.1 → ∃ g, some g ∈ nestedVersions.2.1 ∧ f.Preserved g := by
  have hfirst : nestedVersions.1.WellFormed := by decide +kernel
  have hsecond : nestedVersions.2.1.WellFormed := by decide +kernel
  have hadded : checkDescriptors (some nestedVersions.1) (some nestedVersions.2.1) = .ok () := by
    decide +kernel
  have hlater : checkDescriptors (some nestedVersions.2.1) (some nestedVersions.2.2) = .ok () := by
    decide +kernel
  obtain ⟨hrefl, htrans, hpreserved⟩ :=
    checkDescriptors_preorder _ _ nestedVersions.2.2 hfirst hsecond
  refine ⟨hrefl, htrans hadded hlater, fun f hf => ?_⟩
  obtain ⟨g, hg, -, -, -, hkept⟩ := hpreserved hadded f hf
  exact ⟨g, hg, hkept⟩

/-- A set with one message, which has one oneof and one field. -/
def sampleDescriptors (oneof : String) (oneofIndex : Option ℤ) : DescriptorSet :=
  [some {
    name := "fl_service.proto"
    package := "zerotrust.fl.v1"
    syntaxName := "proto3"
    messageType := [{
      name := "Sample"
      field := [⟨"id", 1, .optional, .string, "", oneofIndex, false⟩]
      nestedType := []
      enumType := []
      oneofDecl := [oneof]
      mapEntry := false
      reservedRange := []
      reservedName := [] }]
    enumType := []
    service := [] }]

/-- The oneofs of the fields of a set. -/
def oneofsOf (set : DescriptorSet) : List (Option (List (List (Option String)))) :=
  set.map (Option.map fun file => file.messages.map fun entry =>
    entry.2.field.map (oneofOf entry.2))

/-- A field that leaves a oneof with the empty name is accepted. -/
theorem field_leaves_nameless_oneof :
    (sampleDescriptors "" (some 0)).WellFormed ∧ (sampleDescriptors "" none).WellFormed ∧
      checkDescriptors (some (sampleDescriptors "" (some 0)))
      (some (sampleDescriptors "" none)) = .ok () ∧
      oneofsOf (sampleDescriptors "" (some 0)) = [some [[some ""]]] ∧
      oneofsOf (sampleDescriptors "" none) = [some [[none]]] := by
  decide +kernel

end ZeroTrustFL
