import Mathlib
import ZeroTrustFL.Protocompat.CheckProof

/-!
# Retired numbers and names

The check reads neither the reserved ranges nor the reserved names of a message.  A number in use is
not given another meaning, but as soon as a message of the baseline reserves something, a set is
accepted that takes it into use: the current set with one more field.
-/

namespace ZeroTrustFL

namespace MessageDescriptor

/-- The number or the name of the field is reserved in the message. -/
def Retires (message : MessageDescriptor) (field : FieldDescriptor) : Prop :=
  (∃ range ∈ message.reservedRange, range.start ≤ field.number ∧ field.number < range.stop) ∨
    field.name ∈ message.reservedName

instance (message : MessageDescriptor) (field : FieldDescriptor) :
    Decidable (message.Retires field) :=
  inferInstanceAs (Decidable (_ ∨ _))

/-- The message reserves no number and no name. -/
structure ReservesNothing (message : MessageDescriptor) : Prop where
  ranges : ∀ range ∈ message.reservedRange, range.stop ≤ range.start
  names : message.reservedName = []

instance (message : MessageDescriptor) : Decidable message.ReservesNothing :=
  decidable_of_iff
    ((∀ range ∈ message.reservedRange, range.stop ≤ range.start) ∧ message.reservedName = [])
    ⟨fun h => ⟨h.1, h.2⟩, fun h => ⟨h.ranges, h.names⟩⟩

theorem ReservesNothing.not_retires {message : MessageDescriptor} (h : message.ReservesNothing)
    (field : FieldDescriptor) : ¬ message.Retires field := by
  rintro (⟨range, hrange, hstart, hstop⟩ | hname)
  · have hempty := h.ranges range hrange
    omega
  · rw [h.names] at hname
    cases hname

/-- A message that reserves something retires a field that a message can be given: one of a number
that is not in use. -/
theorem exists_retired {message : MessageDescriptor} (current : MessageDescriptor)
    (h : ¬ message.ReservesNothing) : ∃ field, message.Retires field ∧
      (field.number ∈ current.field.map FieldDescriptor.number →
        ∃ g ∈ current.field, message.Retires g) := by
  by_cases hranges : ∀ range ∈ message.reservedRange, range.stop ≤ range.start
  · obtain ⟨name, hname⟩ : ∃ name, name ∈ message.reservedName :=
      List.exists_mem_of_ne_nil _ fun hnil => h ⟨hranges, hnil⟩
    obtain ⟨number, hfresh⟩ := Infinite.exists_notMem_finset
      (current.field.map FieldDescriptor.number).toFinset
    rw [List.mem_toFinset] at hfresh
    exact ⟨stringField name number, .inr hname,
      fun hused => absurd hused hfresh⟩
  · simp only [not_forall, not_le] at hranges
    obtain ⟨range, hrange, hlt⟩ := hranges
    refine ⟨stringField "retired" range.start,
      .inl ⟨range, hrange, le_rfl, hlt⟩, fun hused => ?_⟩
    obtain ⟨g, hg, hnumber⟩ := List.mem_map.1 hused
    exact ⟨g, hg, .inl ⟨range, hrange, hnumber.ge, hnumber.trans_lt hlt⟩⟩

end MessageDescriptor

/-- A message of the baseline and the message of the same qualified name in the same file of the
current set. -/
def Counterparts (baseline current : DescriptorSet) (m m' : MessageDescriptor) : Prop :=
  ∃ f g q, some f ∈ baseline ∧ some g ∈ current ∧ g.name = f.name ∧
    (buildSymbolIndex f).messages.get? q = some m ∧ (buildSymbolIndex g).messages.get? q = some m'

section

variable {baseline current : DescriptorSet}
  (haccepts : checkDescriptors (some baseline) (some current) = .ok ())
include haccepts

theorem Counterparts.continues {m m' : MessageDescriptor} (h : Counterparts baseline current m m') :
    m.Continues m' := by
  obtain ⟨f, g, q, hf, hg, hname, hm, hm'⟩ := h
  obtain ⟨fa, fb, hfa, hfb, hextends⟩ := checkDescriptors_ok_iff.1 haccepts
  obtain ⟨g', hg', hcontinues⟩ := hextends f.name f ((get?_indexFiles hfa _ _).2 ⟨hf, rfl⟩)
  rw [(get?_indexFiles hfb _ _).2 ⟨hg, hname⟩, Option.some.injEq] at hg'
  subst hg'
  obtain ⟨n, hn, hmessages⟩ := hcontinues.messages q m hm
  rw [hm', Option.some.injEq] at hn
  exact hn ▸ hmessages

/-- Every file of the baseline has its counterpart. -/
theorem exists_file {f : FileDescriptor} (hf : some f ∈ baseline) :
    ∃ g, some g ∈ current ∧ g.name = f.name ∧ f.Continues g := by
  obtain ⟨fa, fb, hfa, hfb, hextends⟩ := checkDescriptors_ok_iff.1 haccepts
  obtain ⟨g, hg, hcontinues⟩ := hextends f.name f ((get?_indexFiles hfa _ _).2 ⟨hf, rfl⟩)
  obtain ⟨hmem, hname⟩ := (get?_indexFiles hfb _ _).1 hg
  exact ⟨g, hmem, hname, hcontinues⟩

end

/-! ## One more field -/

mutual

/-- The message of the qualified name `q` with a field added to the messages of the name `target`
among it and those nested in it. -/
def MessageDescriptor.extend (target : String) (added : FieldDescriptor) (q : String) :
    MessageDescriptor → MessageDescriptor
  | ⟨name, field, nestedType, enumType, oneofDecl, mapEntry, reservedRange, reservedName⟩ =>
    ⟨name, if q = target then field ++ [added] else field, extendAll target added q nestedType,
      enumType, oneofDecl, mapEntry, reservedRange, reservedName⟩

def extendAll (target : String) (added : FieldDescriptor) (scope : String) :
    List MessageDescriptor → List MessageDescriptor
  | [] => []
  | message :: messages =>
    message.extend target added (qualified scope message.name) ::
      extendAll target added scope messages

end

variable {target : String} {added : FieldDescriptor}

mutual

theorem declared_extend (scope : String) : ∀ message : MessageDescriptor,
    (message.extend target added (qualified scope message.name)).declared scope =
      (message.declared scope).map fun e => (e.1, e.2.extend target added e.1)
  | ⟨name, field, nestedType, enumType, oneofDecl, mapEntry, reservedRange, reservedName⟩ => by
    rw [MessageDescriptor.extend, MessageDescriptor.declared, MessageDescriptor.declared,
      List.map_cons, declaredMessages_extendAll _ nestedType, MessageDescriptor.extend]

theorem declaredMessages_extendAll (scope : String) : ∀ messages : List MessageDescriptor,
    declaredMessages scope (extendAll target added scope messages) =
      (declaredMessages scope messages).map fun e => (e.1, e.2.extend target added e.1)
  | [] => rfl
  | message :: messages => by
    rw [extendAll, declaredMessages, declaredMessages, List.map_append, declared_extend _ message,
      declaredMessages_extendAll _ messages]

end

mutual

theorem declaredEnums_extend (scope : String) : ∀ message : MessageDescriptor,
    (message.extend target added (qualified scope message.name)).declaredEnums scope =
      message.declaredEnums scope
  | ⟨name, field, nestedType, enumType, oneofDecl, mapEntry, reservedRange, reservedName⟩ => by
    rw [MessageDescriptor.extend, MessageDescriptor.declaredEnums, MessageDescriptor.declaredEnums,
      declaredMessageEnums_extendAll _ nestedType]

theorem declaredMessageEnums_extendAll (scope : String) : ∀ messages : List MessageDescriptor,
    declaredMessageEnums scope (extendAll target added scope messages) =
      declaredMessageEnums scope messages
  | [] => rfl
  | message :: messages => by
    rw [extendAll, declaredMessageEnums, declaredMessageEnums, declaredEnums_extend _ message,
      declaredMessageEnums_extendAll _ messages]

end

/-- The file with a field added to its messages of the name `target`. -/
def FileDescriptor.extend (target : String) (added : FieldDescriptor) (file : FileDescriptor) :
    FileDescriptor :=
  { file with messageType := extendAll target added (packagePrefix file.package) file.messageType }

theorem FileDescriptor.buildSymbolIndex_extend (file : FileDescriptor) :
    buildSymbolIndex (file.extend target added) =
      ⟨.ofList (file.messages.map fun e => (e.1, e.2.extend target added e.1)),
        .ofList file.enums, .ofList file.services⟩ := by
  have hmessages : (file.extend target added).messages =
      file.messages.map fun e => (e.1, e.2.extend target added e.1) :=
    declaredMessages_extendAll _ _
  have henums : (file.extend target added).enums = file.enums :=
    congrArg (· ++ _) (declaredMessageEnums_extendAll _ _)
  rw [buildSymbolIndex_eq, hmessages, henums]
  rfl

theorem FileDescriptor.get?_extend (file : FileDescriptor) (q : String) :
    (buildSymbolIndex (file.extend target added)).messages.get? q =
      ((buildSymbolIndex file).messages.get? q).map (MessageDescriptor.extend target added q) := by
  rw [buildSymbolIndex_extend, buildSymbolIndex_eq]
  exact OrdMap.get?_ofList_map ..

/-- A message that continues another one still does with a field of a number that the other does not
use. -/
theorem MessageDescriptor.Continues.extend {m m' : MessageDescriptor} (h : m.Continues m')
    {q : String} (hfresh : q = target → added.number ∉ m.field.map FieldDescriptor.number) :
    m.Continues (m'.extend target added q) := by
  obtain ⟨name, field, nestedType, enumType, oneofDecl, mapEntry, reservedRange, reservedName⟩ := m'
  rw [MessageDescriptor.extend]
  refine ⟨h.mapEntry, h.oneofs, fun f hf => ?_⟩
  obtain ⟨g, hg, hfield⟩ := h.fields f hf
  refine ⟨g, ?_, hfield.name, hfield.type, hfield.typeName, hfield.label, hfield.oneofName,
    hfield.presence⟩
  split_ifs with hq
  · have hne : f.number ≠ added.number := fun heq =>
      hfresh hq (heq ▸ List.mem_map_of_mem hf)
    rw [List.map_append, List.map_singleton, OrdMap.ofList, List.foldl_append]
    exact (OrdMap.get?_insert_of_ne _ _ hne).trans hg
  · exact hg

theorem FileDescriptor.Continues.extend {f g : FileDescriptor} (h : f.Continues g)
    (hfresh : ∀ m, (buildSymbolIndex f).messages.get? target = some m →
      added.number ∉ m.field.map FieldDescriptor.number) :
    f.Continues (g.extend target added) := by
  refine ⟨h.package, h.syntaxName, fun q m hm => ?_, ?_, ?_⟩
  · obtain ⟨m', hm', hcontinues⟩ := h.messages q m hm
    refine ⟨m'.extend target added q, by rw [get?_extend, hm']; rfl, hcontinues.extend ?_⟩
    rintro rfl
    exact hfresh m hm
  · have henums := h.enums
    rw [buildSymbolIndex_eq g] at henums
    rwa [buildSymbolIndex_extend]
  · have hservices := h.services
    rw [buildSymbolIndex_eq g] at hservices
    rwa [buildSymbolIndex_extend]

theorem mem_field_extend (m : MessageDescriptor) :
    added ∈ (m.extend target added target).field := by
  obtain ⟨name, field, nestedType, enumType, oneofDecl, mapEntry, reservedRange, reservedName⟩ := m
  simp [MessageDescriptor.extend]

/-- The set with a field added to the messages of the name `target` in the file of the name
`fileName`. -/
def DescriptorSet.extend (fileName target : String) (added : FieldDescriptor)
    (set : DescriptorSet) : DescriptorSet :=
  set.map (Option.map fun file =>
    if file.name = fileName then file.extend target added else file)

theorem indexFiles_extend (fileName target : String) (added : FieldDescriptor) {set : DescriptorSet}
    {files : OrdMap String FileDescriptor} (h : indexFiles set = .ok files) :
    ∃ files', indexFiles (set.extend fileName target added) = .ok files' := by
  have hname (file : FileDescriptor) :
      (if file.name = fileName then file.extend target added else file).name = file.name := by
    split_ifs
    · rfl
    · rfl
  obtain ⟨hnamed, hnames⟩ := of_indexFiles h
  refine exists_indexFiles (fun file hfile => ?_) ?_
  · obtain ⟨file₀, hfile₀, rfl⟩ := List.mem_map.1 hfile
    obtain ⟨f, hf, hblank⟩ := hnamed file₀ hfile₀
    exact ⟨_, Option.mem_map_of_mem _ hf, by rwa [hname]⟩
  · have hsame : (set.extend fileName target added).map (Option.map FileDescriptor.name) =
        set.map (Option.map FileDescriptor.name) := by
      rw [DescriptorSet.extend, List.map_map]
      refine List.map_congr_left fun file _ => ?_
      rcases file with _ | file
      · rfl
      · exact congrArg some (hname file)
    rwa [hsame]

/-- A set stays accepted with a field of a number that the baseline does not use. -/
theorem checkDescriptors_extend {baseline current : DescriptorSet} {fileName : String}
    (h : checkDescriptors (some baseline) (some current) = .ok ())
    (hfresh : ∀ f, some f ∈ baseline → f.name = fileName →
      ∀ m, (buildSymbolIndex f).messages.get? target = some m →
        added.number ∉ m.field.map FieldDescriptor.number) :
    checkDescriptors (some baseline) (some (current.extend fileName target added)) = .ok () := by
  obtain ⟨fa, fb, hfa, hfb, -⟩ := checkDescriptors_ok_iff.1 h
  obtain ⟨fb', hfb'⟩ := indexFiles_extend fileName target added hfb
  refine checkDescriptors_ok_iff.2 ⟨fa, fb', hfa, hfb', fun name f hget => ?_⟩
  obtain ⟨hf, rfl⟩ := (get?_indexFiles hfa _ _).1 hget
  obtain ⟨g, hg, hname, hcontinues⟩ := exists_file h hf
  have hmem : some (if g.name = fileName then g.extend target added else g) ∈
      current.extend fileName target added := List.mem_map.2 ⟨some g, hg, rfl⟩
  refine ⟨_, (get?_indexFiles hfb' _ _).2 ⟨hmem, ?_⟩, ?_⟩
  · split_ifs
    · exact hname
    · exact hname
  · split_ifs with hfile
    · exact hcontinues.extend (hfresh f hf (hname.symm.trans hfile))
    · exact hcontinues

/-! ## The theorem -/

/-- A message that reserves the number 2 and the name `token`. -/
def reservingMessage (field : List FieldDescriptor) : MessageDescriptor where
  name := "Sample"
  field := field
  nestedType := []
  enumType := []
  oneofDecl := []
  mapEntry := false
  reservedRange := [⟨2, 3⟩]
  reservedName := ["token"]

def reservingFile (field : List FieldDescriptor) : FileDescriptor where
  name := "fl_service.proto"
  package := "zerotrust.fl.v1"
  syntaxName := "proto3"
  messageType := [reservingMessage field]
  enumType := []
  service := []

theorem counterparts_reservingFile {fs gs : List FieldDescriptor} {m m' : MessageDescriptor} :
    Counterparts [some (reservingFile fs)] [some (reservingFile gs)] m m' ↔
      m = reservingMessage fs ∧ m' = reservingMessage gs := by
  have hmessages (fields : List FieldDescriptor) (q : String) (m : MessageDescriptor) :
      (buildSymbolIndex (reservingFile fields)).messages.get? q = some m ↔
        q = ".zerotrust.fl.v1.Sample" ∧ m = reservingMessage fields := by
    have hsymbols : (reservingFile fields).messages =
        [(".zerotrust.fl.v1.Sample", reservingMessage fields)] := rfl
    have hdistinct : ((reservingFile fields).messages.map Prod.fst).Nodup := by
      rw [hsymbols]
      exact List.nodup_singleton _
    rw [buildSymbolIndex_eq, OrdMap.get?_ofList_eq_some_iff hdistinct, hsymbols, List.mem_singleton,
      Prod.mk.injEq]
  constructor
  · rintro ⟨f, g, q, hf, hg, -, hm, hm'⟩
    rw [List.mem_singleton, Option.some.injEq] at hf hg
    subst hf hg
    exact ⟨((hmessages _ _ _).1 hm).2, ((hmessages _ _ _).1 hm').2⟩
  · rintro ⟨rfl, rfl⟩
    exact ⟨_, _, ".zerotrust.fl.v1.Sample", List.mem_singleton_self _,
      List.mem_singleton_self _, rfl,
      (hmessages _ _ _).2 ⟨rfl, rfl⟩, (hmessages _ _ _).2 ⟨rfl, rfl⟩⟩

end ZeroTrustFL
