import Mathlib

/-!
# Files that survive crashes

A directory with write-back caching.  Changes of the directory are durable once the directory has
been synced, the content of a file once the file has been synced.  A crash keeps any of the changes
since the last sync of the directory, and leaves anything in a file that has not been synced; a
directory that is not yet durable in its parent can be lost.

`Holds name P` is the invariant by which a name is protected: whatever a crash keeps, the name
refers to what `P` allows.
-/

namespace ZeroTrustFL

/-- What a name of a directory refers to. -/
inductive Node where
  | file (inode : ℕ)
  | symlink
  | other
deriving DecidableEq

/-- A change of a directory, which a crash keeps or undoes as a whole. -/
inductive DirChange (ν : Type) where
  | put (name : ν) (node : Node)
  | drop (name : ν)
  | move (source target : ν) (node : Node)

/-- The content of a file, and whether it is durable. -/
structure Inode (β : Type) where
  content : β
  synced : Bool

/-- A directory and the files in it; `anchored` directories are durable in their parent. -/
structure FileSystem (ν β : Type) where
  present : Bool
  anchored : Bool
  durable : ν → Option Node
  changes : List (DirChange ν)
  inodes : ℕ → Inode β
  next : ℕ

/-- What one finds under a name. -/
inductive Found (β : Type) where
  | missing
  | symlink
  | irregular
  | regular (content : β)
deriving DecidableEq

/-- What a crash keeps: the directory if it has the choice, changes of the directory by their place,
and what is left in files that were not synced. -/
structure CrashChoice (β : Type) where
  directory : Bool
  keeps : ℕ → Bool
  left : ℕ → β

variable {ν β : Type} [DecidableEq ν]

namespace DirChange

def apply (entries : ν → Option Node) : DirChange ν → ν → Option Node
  | put name node => Function.update entries name (some node)
  | drop name => Function.update entries name none
  | move source target node =>
    Function.update (Function.update entries source none) target (some node)

/-- What the change makes of a name, if it touches it. -/
def effect (name : ν) : DirChange ν → Option (Option Node)
  | put name' node => if name = name' then some (some node) else none
  | drop name' => if name = name' then some none else none
  | move source target node =>
    if name = target then some (some node) else if name = source then some none else none

theorem apply_eq (entries : ν → Option Node) (c : DirChange ν) (name : ν) :
    c.apply entries name = (c.effect name).getD (entries name) := by
  rcases c with ⟨name', node⟩ | name' | ⟨source, target, node⟩ <;>
    simp only [apply, effect, Function.update_apply]
  · split_ifs <;> rfl
  · split_ifs <;> rfl
  · split_ifs <;> rfl

end DirChange

namespace FileSystem

variable (fs : FileSystem ν β)

/-- The directory as processes see it. -/
def entries : ν → Option Node := fs.changes.foldl DirChange.apply fs.durable

/-- What one finds at a node. -/
def read : Option Node → Found β
  | none => .missing
  | some (.file inode) => .regular (fs.inodes inode).content
  | some .symlink => .symlink
  | some .other => .irregular

def found (name : ν) : Found β := if fs.present then fs.read (fs.entries name) else .missing

/-! ## Operations -/

/-- A directory that is not there is made, without a sync of its parent. -/
def makeDirectory : FileSystem ν β :=
  if fs.present then fs
  else { fs with present := true, anchored := false, durable := fun _ => none, changes := [] }

/-- A new file. -/
def create (name : ν) (content : β) : FileSystem ν β :=
  { fs with
    changes := fs.changes ++ [.put name (.file fs.next)]
    inodes := Function.update fs.inodes fs.next ⟨content, false⟩
    next := fs.next + 1 }

/-- A file gets a content: a write leaves it to be synced, and a sync leaves it as it is. -/
def write (inode : ℕ) (content : Inode β) : FileSystem ν β :=
  { fs with inodes := Function.update fs.inodes inode content }

def sync (inode : ℕ) : FileSystem ν β := fs.write inode ⟨(fs.inodes inode).content, true⟩

def rename (source target : ν) : FileSystem ν β :=
  match fs.entries source with
  | none => fs
  | some node => { fs with changes := fs.changes ++ [.move source target node] }

def remove (name : ν) : FileSystem ν β := { fs with changes := fs.changes ++ [.drop name] }

def syncDirectory : FileSystem ν β := { fs with durable := fs.entries, changes := [] }

/-- The changes that a crash keeps, from the place of the first one. -/
def kept (keeps : ℕ → Bool) (place : ℕ) : List (DirChange ν) → List (DirChange ν)
  | [] => []
  | c :: changes => if keeps place then c :: kept keeps (place + 1) changes
    else kept keeps (place + 1) changes

def crash (choice : CrashChoice β) : FileSystem ν β :=
  let survives := fs.present && (fs.anchored || choice.directory)
  { present := survives
    anchored := survives
    durable := (kept choice.keeps 0 fs.changes).foldl DirChange.apply fs.durable
    changes := []
    inodes := fun i => ⟨if (fs.inodes i).synced then (fs.inodes i).content else choice.left i, true⟩
    next := fs.next }

/-! ## Protected names -/

variable {fs}

/-- The nodes to which a name can refer after a crash. -/
def Node? (fs : FileSystem ν β) (name : ν) (node : Option Node) : Prop :=
  node = fs.durable name ∨ ∃ c ∈ fs.changes, c.effect name = some node

theorem foldl_apply_mem (name : ν) (changes : List (DirChange ν)) (entries : ν → Option Node) :
    changes.foldl DirChange.apply entries name = entries name ∨
      ∃ c ∈ changes, c.effect name = some (changes.foldl DirChange.apply entries name) := by
  induction changes generalizing entries with
  | nil => exact .inl rfl
  | cons c changes ih =>
    rw [List.foldl_cons]
    rcases ih (c.apply entries) with hsame | ⟨d, hd, heffect⟩
    · rw [hsame, DirChange.apply_eq]
      rcases hc : c.effect name with _ | node
      · exact .inl rfl
      · exact .inr ⟨c, List.mem_cons_self, hc⟩
    · exact .inr ⟨d, List.mem_cons_of_mem c hd, heffect⟩

omit [DecidableEq ν] in
theorem kept_sublist (keeps : ℕ → Bool) (changes : List (DirChange ν)) (place : ℕ) :
    (kept keeps place changes).Sublist changes := by
  induction changes generalizing place with
  | nil => exact List.Sublist.refl _
  | cons c changes ih =>
    simp only [kept]
    split_ifs
    · exact (ih _).cons_cons c
    · exact (ih _).cons c

theorem node?_entries (name : ν) : fs.Node? name (fs.entries name) :=
  foldl_apply_mem name fs.changes fs.durable

theorem node?_crash (choice : CrashChoice β) (name : ν) :
    fs.Node? name ((fs.crash choice).durable name) := by
  rcases foldl_apply_mem name (kept choice.keeps 0 fs.changes) fs.durable with
    hsame | ⟨c, hc, heffect⟩
  · exact .inl hsame
  · exact .inr ⟨c, (kept_sublist _ _ _).subset hc, heffect⟩

variable (fs) in
/-- The files to which a name can refer have been made. -/
def Bounded (name : ν) : Prop := ∀ i, fs.Node? name (some (.file i)) → i < fs.next

variable (fs) in
/-- The directory is durable, and whatever of its changes a crash keeps, the name refers to a
durable content that `P` allows. -/
structure Holds (name : ν) (P : Found β → Prop) : Prop where
  present : fs.present = true
  anchored : fs.anchored = true
  allowed : ∀ node, fs.Node? name node → P (fs.read node)
  synced : ∀ i, fs.Node? name (some (.file i)) → (fs.inodes i).synced = true
  bounded : fs.Bounded name

variable {name : ν} {P Q : Found β → Prop}

theorem Holds.mono (h : fs.Holds name P) (hPQ : ∀ v, P v → Q v) : fs.Holds name Q :=
  { h with allowed := fun node hnode => hPQ _ (h.allowed node hnode) }

variable {changes : List (DirChange ν)} {node : Option Node} {inode : ℕ}

/-- What a crash leaves at a synced node. -/
theorem read_crash (h : ∀ i, node = some (.file i) → (fs.inodes i).synced = true)
    (choice : CrashChoice β) : (fs.crash choice).read node = fs.read node := by
  rcases node with _ | i | _ | _
  · rfl
  · simp only [read, crash, h i rfl, if_true]
  · rfl
  · rfl

/-- After a crash the name refers to an allowed content, and to nothing else after the next
crash. -/
theorem Holds.crash (h : fs.Holds name P) (choice : CrashChoice β) :
    P ((fs.crash choice).found name) ∧
      (fs.crash choice).Holds name (· = (fs.crash choice).found name) := by
  have hpresent : (fs.crash choice).present = true := by
    simp only [FileSystem.crash, h.present, h.anchored, Bool.true_or, Bool.and_self]
  have hfound : (fs.crash choice).found name = (fs.crash choice).read
      ((fs.crash choice).durable name) := by
    rw [FileSystem.found, if_pos hpresent]
    rfl
  have hnode {node : Option Node} (hnode : (fs.crash choice).Node? name node) :
      node = (fs.crash choice).durable name := by
    rcases hnode with hnode | ⟨c, hc, -⟩
    · exact hnode
    · cases hc
  have hsame : fs.Node? name ((fs.crash choice).durable name) := node?_crash choice name
  refine ⟨?_, hpresent, hpresent, fun node hn => ?_, fun i _ => rfl, fun i hi => ?_⟩
  · rw [hfound, read_crash fun i hi => h.synced i (hi ▸ hsame)]
    exact h.allowed _ hsame
  · rw [hnode hn, hfound]
  · rw [← hnode hi] at hsame
    exact h.bounded i hsame

/-! ## What keeps a name protected -/

omit [DecidableEq ν] in
theorem read_update {next : ℕ} {content : Inode β} (h : node ≠ some (.file inode)) :
    ({ fs with
        changes := changes
        inodes := Function.update fs.inodes inode content
        next := next } : FileSystem ν β).read node = fs.read node := by
  rcases node with _ | i | _ | _
  · rfl
  · have hne : i ≠ inode := by
      rintro rfl
      exact h rfl
    simp only [read, Function.update_of_ne hne]
  · rfl
  · rfl

/-- The file system after changes of other names and of one file. -/
def update (fs : FileSystem ν β) (changes : List (DirChange ν)) (inode : ℕ) (content : Inode β)
    (next : ℕ) : FileSystem ν β :=
  { fs with
    changes := fs.changes ++ changes
    inodes := Function.update fs.inodes inode content
    next := next }

theorem node?_update (hchanges : ∀ c ∈ changes, c.effect name = none) {next : ℕ} {content : Inode β}
    (h : (fs.update changes inode content next).Node? name node) : fs.Node? name node := by
  rcases h with hdurable | ⟨c, hc, heffect⟩
  · exact .inl hdurable
  · rcases List.mem_append.1 hc with hc | hc
    · exact .inr ⟨c, hc, heffect⟩
    · cases (hchanges c hc).symm.trans heffect

theorem entries_append (hchanges : ∀ c ∈ changes, c.effect name = none) (entries : ν →
    Option Node) : changes.foldl DirChange.apply entries name = entries name := by
  rcases foldl_apply_mem name changes entries with hsame | ⟨c, hc, heffect⟩
  · exact hsame
  · cases (hchanges c hc).symm.trans heffect

/-- A name refers to what it did, and is protected as it was. -/
structure Keeps (fs fs' : FileSystem ν β) (name : ν) : Prop where
  bounded : fs'.Bounded name
  found : fs'.found name = fs.found name
  holds : ∀ {P}, fs.Holds name P → fs'.Holds name P

theorem Bounded.keeps (h : fs.Bounded name) : Keeps fs fs name := ⟨h, rfl, id⟩

/-- A name keeps what it refers to when a file changes to which it cannot refer. -/
theorem Bounded.update (h : fs.Bounded name) (hchanges : ∀ c ∈ changes, c.effect name = none)
    {next : ℕ} (hinode : ¬ fs.Node? name (some (.file inode))) (content : Inode β)
    (hnext : fs.next ≤ next) : Keeps fs (fs.update changes inode content next) name := by
  have hbounded : (fs.update changes inode content next).Bounded name := fun i hi =>
    (h i (node?_update hchanges hi)).trans_le hnext
  refine ⟨hbounded, ?_, fun hP => ⟨hP.present, hP.anchored, fun node hnode => ?_, fun i hi => ?_,
    hbounded⟩⟩
  · have hentries : (fs.update changes inode content next).entries name = fs.entries name := by
      rw [entries, FileSystem.update, List.foldl_append, entries_append hchanges]
      rfl
    rw [FileSystem.found, FileSystem.found, hentries, FileSystem.update, read_update]
    exact fun heq => hinode (heq ▸ node?_entries name)
  · have hold := node?_update hchanges hnode
    rw [FileSystem.update, read_update fun heq => hinode (heq ▸ hold)]
    exact hP.allowed node hold
  · have hold := node?_update hchanges hi
    have hne : i ≠ inode := by
      rintro rfl
      exact hinode hold
    simp only [FileSystem.update, Function.update_of_ne hne]
    exact hP.synced i hold

theorem Bounded.makeDirectory (h : fs.Bounded name) :
    Keeps fs fs.makeDirectory name ∧ fs.makeDirectory.present = true := by
  rcases hpresent : fs.present with _ | _
  · rw [FileSystem.makeDirectory, if_neg (by rw [hpresent]; decide)]
    refine ⟨⟨fun i hi => ?_, ?_, fun hP => ?_⟩, rfl⟩
    · rcases hi with hi | ⟨c, hc, -⟩
      · cases hi
      · cases hc
    · simp only [FileSystem.found, hpresent, Bool.false_eq_true, if_false, if_true, entries,
        List.foldl_nil, read]
    · cases hpresent.symm.trans hP.present
  · rw [FileSystem.makeDirectory, if_pos hpresent]
    exact ⟨h.keeps, hpresent⟩

variable (fs) in
/-- A file under another name, to which the protected name cannot refer. -/
structure Scratch (name scratch : ν) (inode : ℕ) : Prop where
  present : fs.present = true
  entry : fs.entries scratch = some (.file inode)
  apart : ¬ fs.Node? name (some (.file inode))
  bound : inode < fs.next

variable {scratch : ν} {inode : ℕ}

theorem Bounded.fresh (h : fs.Bounded name) : ¬ fs.Node? name (some (.file fs.next)) := fun hnode =>
  (h _ hnode).false

theorem Bounded.create (h : fs.Bounded name) (hpresent : fs.present = true) (hne : name ≠ scratch)
    (content : β) :
    Keeps fs (fs.create scratch content) name ∧
      (fs.create scratch content).Scratch name scratch fs.next := by
  have hchanges : ∀ c ∈ [DirChange.put scratch (.file fs.next)], c.effect name = none := by
    intro c hc
    cases List.mem_singleton.1 hc
    simp only [DirChange.effect, if_neg hne]
  refine ⟨h.update hchanges h.fresh ⟨content, false⟩ (Nat.le_succ _), hpresent, ?_,
    fun hnode => h.fresh (node?_update hchanges hnode), Nat.lt_succ_self _⟩
  simp only [FileSystem.create, entries, List.foldl_append, List.foldl_cons, List.foldl_nil,
    DirChange.apply, Function.update_self]

theorem Bounded.write (h : fs.Bounded name) (hscratch : fs.Scratch name scratch inode)
    (content : Inode β) :
    Keeps fs (fs.write inode content) name ∧
      (fs.write inode content).Scratch name scratch inode := by
  have hwrite : fs.write inode content = fs.update [] inode content fs.next := by
    rw [FileSystem.update, List.append_nil]
    rfl
  rw [hwrite]
  have hnone : ∀ c ∈ ([] : List (DirChange ν)), c.effect name = none := fun c hc => (by cases hc)
  exact ⟨h.update hnone hscratch.apart content le_rfl, hscratch.present,
    by simpa only [FileSystem.update, entries, List.append_nil] using hscratch.entry,
    fun hnode => hscratch.apart (node?_update hnone hnode), hscratch.bound⟩

theorem Bounded.remove (h : fs.Bounded name) (hne : name ≠ scratch) :
    Keeps fs (fs.remove scratch) name := by
  have hremove : fs.remove scratch = fs.update [.drop scratch] fs.next
      (fs.inodes fs.next) fs.next := by
    rw [FileSystem.update, Function.update_eq_self]
    rfl
  rw [hremove]
  refine h.update (fun c hc => ?_) h.fresh _ le_rfl
  cases List.mem_singleton.1 hc
  simp only [DirChange.effect, if_neg hne]

/-- A file is moved to the name, which then refers to its content, and if the file is synced to that
or to what it did before. -/
theorem Scratch.rename (hscratch : fs.Scratch name scratch inode) (h : fs.Bounded name) :
    (fs.rename scratch name).Bounded name ∧
      (fs.rename scratch name).found name = .regular (fs.inodes inode).content ∧
      ((fs.inodes inode).synced = true → ∀ {P}, fs.Holds name P →
        (fs.rename scratch name).Holds name (fun v => P v ∨
          v = .regular (fs.inodes inode).content)) := by
  have hrename : fs.rename scratch name =
      { fs with changes := fs.changes ++ [.move scratch name (.file inode)] } := by
    simp only [FileSystem.rename, hscratch.entry]
  have hnode {node : Option Node} (hn : (fs.rename scratch name).Node? name node) :
      fs.Node? name node ∨ node = some (.file inode) := by
    rw [hrename] at hn
    rcases hn with hdurable | ⟨c, hc, heffect⟩
    · exact .inl (.inl hdurable)
    · rcases List.mem_append.1 hc with hc | hc
      · exact .inl (.inr ⟨c, hc, heffect⟩)
      · cases List.mem_singleton.1 hc
        simp only [DirChange.effect, if_true, Option.some.injEq] at heffect
        exact .inr heffect.symm
  have hbounded : (fs.rename scratch name).Bounded name := by
    intro i hi
    rw [hrename]
    rcases hnode hi with hold | heq
    · exact h i hold
    · cases heq
      exact hscratch.bound
  refine ⟨hbounded, ?_, fun hsynced P hP => ⟨?_, ?_, fun node hn => ?_, fun i hi => ?_, hbounded⟩⟩
  · simp only [hrename, FileSystem.found, hscratch.present, if_true, entries, List.foldl_append,
      List.foldl_cons, List.foldl_nil, DirChange.apply, Function.update_self, read]
  · rw [hrename]
    exact hP.present
  · rw [hrename]
    exact hP.anchored
  · rw [hrename]
    rcases hnode hn with hold | rfl
    · exact .inl (hP.allowed node hold)
    · exact .inr rfl
  · rw [hrename]
    rcases hnode hi with hold | heq
    · exact hP.synced i hold
    · cases heq
      exact hsynced

/-- Once the directory is synced, a crash leaves what is found. -/
theorem Bounded.syncDirectory (h : fs.Bounded name) : fs.syncDirectory.Bounded name ∧
    ∀ {P}, fs.Holds name P → fs.syncDirectory.Holds name (· = fs.found name) := by
  have hnode {node : Option Node} (hn : fs.syncDirectory.Node? name node) :
      node = fs.entries name := by
    rcases hn with hdurable | ⟨c, hc, -⟩
    · exact hdurable
    · cases hc
  have hentry {i : ℕ} (hi : fs.syncDirectory.Node? name (some (.file i))) :
      fs.Node? name (some (.file i)) :=
    hnode hi ▸ node?_entries name
  refine ⟨fun i hi => h i (hentry hi), fun hP => ⟨hP.present, hP.anchored, fun node hn => ?_,
    fun i hi => hP.synced i (hentry hi), fun i hi => h i (hentry hi)⟩⟩
  rw [hnode hn, FileSystem.found, if_pos hP.present]
  rfl

theorem found_syncDirectory (name : ν) : fs.syncDirectory.found name = fs.found name := rfl

end FileSystem

end ZeroTrustFL
