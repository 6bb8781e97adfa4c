import Mathlib
import ZeroTrustFL.Lib.Run
import ZeroTrustFL.Lib.Filesystem
import ZeroTrustFL.Coordinator.StateStoreProof

/-!
# The system calls of a commit

`FileStateStore.Commit` of `pkg/coordinator/state_store.go` call by call: each system call can fail,
and a crash can come between any two of them.  Whatever fails and whenever crashes come, the path
refers to the state of the last commit that reported success or to one of a later commit, as a
whole; and a commit that is not cut off is the atomic commit of the file store.
-/

namespace ZeroTrustFL

/-- The content of a file: its size, and the state that it decodes to if it does. -/
abbrev FileContent := ℕ × Option DiskState

/-- What the path of a store refers to. -/
def FileStateStore.ofFound : Found FileContent → FileStateStore
  | .missing => .missing
  | .symlink => .symlink
  | .irregular => .irregular
  | .regular content => .regular content.1 content.2

/-- How a system call ends: the error if it fails, the random part of a new name, and what a failed
write leaves. -/
structure SystemAnswer where
  fault : Option String
  suffix : String
  left : FileContent

/-- The next system call of a commit; `temp` is the temporary file. -/
inductive CommitTask where
  | locked (data : FileContent)
  | inspecting (data : FileContent)
  | makingDirectory (data : FileContent)
  | creating (data : FileContent)
  | settingMode (data : FileContent) (temp : String) (inode : ℕ)
  | writing (data : FileContent) (temp : String) (inode : ℕ)
  | syncing (data : FileContent) (temp : String) (inode : ℕ)
  | closing (data : FileContent) (temp : String) (inode : ℕ)
  | checking (data : FileContent) (temp : String) (inode : ℕ)
  | replacing (data : FileContent) (temp : String) (inode : ℕ)
  | openingDirectory (data : FileContent)
  | syncingDirectory (data : FileContent)
  | cleaning (temp : String) (message : String)

/-- The pattern of temporary files. -/
def tempPrefix : String := ".coordinator-state-"

/-- What a commit writes, if the state passes the checks that come first. -/
def commitData (encodedSize : DiskState → ℕ) (snapshot : StateSnapshot) :
    Except Fault FileContent :=
  match validateStateSnapshot snapshot with
  | .error e => .error (e.wrap "validate coordinator state before commit: ")
  | .ok () =>
    let encoded : DiskState := ⟨coordinatorStateSchemaVersion, snapshot.canonical⟩
    if maxCoordinatorStateBytes < encodedSize encoded then
      .error (.error s!"coordinator state exceeds {maxCoordinatorStateBytes} bytes")
    else .ok (encodedSize encoded, some encoded)

namespace CommitTask

/-- One system call of a commit to `path`: the answer of the commit or the next call. -/
def next (windows : Bool) (path : String) (fs : FileSystem String FileContent)
    (answer : SystemAnswer) :
    CommitTask → (Except String Unit ⊕ CommitTask) × FileSystem String FileContent
  | locked data =>
    match answer.fault with
    | some e => (.inl (.error e), fs)
    | none => (.inr (inspecting data), fs)
  | inspecting data =>
    match answer.fault with
    | some e => (.inl (.error ("inspect coordinator state file: " ++ e)), fs)
    | none =>
      match fs.found path with
      | .symlink => (.inl (.error "coordinator state file must not be a symbolic link"), fs)
      | .irregular => (.inl (.error "coordinator state path must be a regular file"), fs)
      | _ => (.inr (makingDirectory data), fs)
  | makingDirectory data =>
    match answer.fault with
    | some e => (.inl (.error ("create coordinator state directory: " ++ e)), fs)
    | none => (.inr (creating data), fs.makeDirectory)
  | creating data =>
    match answer.fault with
    | some e => (.inl (.error ("create temporary coordinator state file: " ++ e)), fs)
    | none =>
      -- `os.CreateTemp` does not open a file that is there
      if (fs.entries (tempPrefix ++ answer.suffix)).isSome then
        (.inl (.error "create temporary coordinator state file: file exists"), fs)
      else
        (.inr (settingMode data (tempPrefix ++ answer.suffix) fs.next),
          fs.create (tempPrefix ++ answer.suffix) (0, none))
  | settingMode data temp inode =>
    match answer.fault with
    | some e => (.inr (cleaning temp ("set coordinator state file permissions: " ++ e)), fs)
    | none => (.inr (writing data temp inode), fs)
  | writing data temp inode =>
    match answer.fault with
    | some e => (.inr (cleaning temp ("write coordinator state: " ++ e)),
        fs.write inode ⟨answer.left, false⟩)
    | none => (.inr (syncing data temp inode), fs.write inode ⟨data, false⟩)
  | syncing data temp inode =>
    match answer.fault with
    | some e => (.inr (cleaning temp ("sync coordinator state: " ++ e)), fs)
    | none => (.inr (closing data temp inode), fs.sync inode)
  | closing data temp inode =>
    match answer.fault with
    | some e => (.inr (cleaning temp ("close coordinator state: " ++ e)), fs)
    | none => (.inr (checking data temp inode), fs)
  | checking data temp inode =>
    match answer.fault with
    | some e => (.inr (cleaning temp e), fs)
    | none => (.inr (replacing data temp inode), fs)
  | replacing data temp _ =>
    match answer.fault with
    | some e => (.inr (cleaning temp ("atomically replace coordinator state: " ++ e)), fs)
    | none => (.inr (openingDirectory data), fs.rename temp path)
  | openingDirectory data =>
    if windows then (.inl (.ok ()), fs)
    else
      match answer.fault with
      | some e => (.inl (.error ("open coordinator state directory for sync: " ++ e)), fs)
      | none => (.inr (syncingDirectory data), fs)
  | syncingDirectory _ =>
    match answer.fault with
    | some e => (.inl (.error ("sync coordinator state directory: " ++ e)), fs)
    | none => (.inl (.ok ()), fs.syncDirectory)
  | cleaning temp message =>
    match answer.fault with
    | some _ => (.inl (.error message), fs)
    | none => (.inl (.error message), fs.remove temp)

/-! ## What holds between system calls -/

/-- The content that the commit writes, while it is known. -/
def data? : CommitTask → Option FileContent
  | locked data | inspecting data | makingDirectory data | creating data => some data
  | settingMode data _ _ | writing data _ _ | syncing data _ _ => some data
  | closing data _ _ | checking data _ _ => some data
  | replacing data _ _ | openingDirectory data | syncingDirectory data => some data
  | cleaning _ _ => none

/-- The most system calls that a commit still makes. -/
def rank : CommitTask → ℕ
  | locked _ => 12
  | inspecting _ => 11
  | makingDirectory _ => 10
  | creating _ => 9
  | settingMode _ _ _ => 8
  | writing _ _ _ => 7
  | syncing _ _ _ => 6
  | closing _ _ _ => 5
  | checking _ _ _ => 4
  | replacing _ _ _ => 3
  | openingDirectory _ => 2
  | syncingDirectory _ => 1
  | cleaning _ _ => 1

/-- The directory is there once it is made.  The temporary file of the task is apart from the path;
it holds the content once it is written, and durably once it is synced. -/
def Fits (path : String) (fs : FileSystem String FileContent) : CommitTask → Prop
  | creating _ => fs.present = true
  | settingMode _ temp inode | writing _ temp inode => path ≠ temp ∧ fs.Scratch path temp inode
  | syncing data temp inode =>
    path ≠ temp ∧ fs.Scratch path temp inode ∧ (fs.inodes inode).content = data
  | closing data temp inode | checking data temp inode | replacing data temp inode =>
    path ≠ temp ∧ fs.Scratch path temp inode ∧ fs.inodes inode = ⟨data, true⟩
  | openingDirectory data | syncingDirectory data => fs.found path = .regular data
  | cleaning temp _ => path ≠ temp
  | _ => True

/-- What a crash can leave at the path, the current one last: a replacement adds to it, and a sync
of the directory settles it. -/
def settle (answer : SystemAnswer) (possible : List (Found FileContent)) (task : CommitTask) :
    List (Found FileContent) :=
  match answer.fault, task with
  | none, replacing data _ _ => possible ++ [.regular data]
  | none, syncingDirectory data => [.regular data]
  | _, _ => possible

variable {windows : Bool} {path : String} {fs fs' : FileSystem String FileContent}
  {answer : SystemAnswer}
  {task : CommitTask} {r : Except String Unit ⊕ CommitTask} {possible : List (Found FileContent)}

/-- What a crash can leave is known, and the last of it is what is found now. -/
structure Known (path : String) (fs : FileSystem String FileContent)
    (possible : List (Found FileContent)) : Prop where
  holds : fs.Holds path (· ∈ possible)
  last : possible.getLast? = some (fs.found path)

/-- The task goes on to one that fits, for the same content and with fewer calls to make.  A commit
reports success for a content that is at the path, once the directory is synced where that is
done. -/
def GoesOn (windows : Bool) (path : String) (answer : SystemAnswer)
    (fs : FileSystem String FileContent) (task : CommitTask) :
    Except String Unit ⊕ CommitTask → Prop
  | .inl (.error _) => True
  | .inl (.ok ()) => ∃ data, task.data? = some data ∧ fs.found path = .regular data ∧
      (windows = false → task = syncingDirectory data ∧ answer.fault = none)
  | .inr task' => task'.Fits path fs ∧ (task'.data? = none ∨ task'.data? = task.data?) ∧
      task'.rank < task.rank

/-- What a system call of a commit does. -/
structure Stepped (windows : Bool) (path : String) (answer : SystemAnswer)
    (fs fs' : FileSystem String FileContent) (task : CommitTask)
    (r : Except String Unit ⊕ CommitTask) : Prop where
  bounded : fs'.Bounded path
  found : fs'.found path = fs.found path ∨ ∃ data, task.data? = some data ∧
    fs'.found path = .regular data
  known : ∀ {possible}, Known path fs possible → Known path fs' (task.settle answer possible)
  goesOn : GoesOn windows path answer fs' task r

theorem Stepped.of_keeps (h : FileSystem.Keeps fs fs' path)
    (hsettle : ∀ possible, task.settle answer possible = possible)
    (hgoesOn : GoesOn windows path answer fs' task r) :
    Stepped windows path answer fs fs' task r where
  bounded := h.bounded
  found := .inl h.found
  known hknown := by
    rw [hsettle]
    exact ⟨h.holds hknown.holds, h.found ▸ hknown.last⟩
  goesOn := hgoesOn

theorem tempPrefix_ne (hpath : ¬ tempPrefix.toList <+: path.toList) (suffix : String) :
    path ≠ tempPrefix ++ suffix := by
  rintro rfl
  exact hpath (by rw [String.toList_append]; exact List.prefix_append _ _)

theorem stepped_replacing {data : FileContent} {temp : String} {inode : ℕ} (h : fs.Bounded path)
    (hfits : (replacing data temp inode).Fits path fs) (hfault : answer.fault = none) :
    Stepped windows path answer fs (fs.rename temp path) (replacing data temp inode)
      (.inr (openingDirectory data)) := by
  obtain ⟨-, hscratch, hinode⟩ := hfits
  obtain ⟨hbounded, hfound, hholds⟩ := hscratch.rename h
  rw [hinode] at hfound hholds
  refine ⟨hbounded, .inr ⟨data, rfl, hfound⟩, fun hknown => ?_, hfound, .inr rfl,
    by simp only [rank, Nat.reduceLT]⟩
  simp only [settle, hfault]
  refine ⟨(hholds rfl hknown.holds).mono fun v hv => by simpa using hv, ?_⟩
  rw [List.getLast?_append, List.getLast?_singleton, Option.some_or, hfound]

theorem stepped_syncingDirectory {data : FileContent} (h : fs.Bounded path)
    (hfound : fs.found path = .regular data) (hfault : answer.fault = none) :
    Stepped windows path answer fs fs.syncDirectory (syncingDirectory data) (.inl (.ok ())) := by
  refine ⟨h.syncDirectory.1, .inl rfl, fun hknown => ?_, data, rfl, hfound, fun _ => ⟨rfl, hfault⟩⟩
  simp only [settle, hfault]
  refine ⟨(h.syncDirectory.2 hknown.holds).mono fun v hv => ?_, ?_⟩
  · rw [hv, hfound]
    exact List.mem_singleton_self _
  · rw [List.getLast?_singleton, FileSystem.found_syncDirectory, hfound]

/-- What `next` can do: it leaves what is at the path but for the replacement, and settles it with
the sync of the directory. -/
theorem next_stepped (hpath : ¬ tempPrefix.toList <+: path.toList) (h : fs.Bounded path)
    (hfits : task.Fits path fs) (ran : next windows path fs answer task = (r, fs')) :
    Stepped windows path answer fs fs' task r := by
  rcases task with data | data | data | data | ⟨data, temp, inode⟩ | ⟨data, temp, inode⟩ |
    ⟨data, temp, inode⟩ | ⟨data, temp, inode⟩ | ⟨data, temp, inode⟩ | ⟨data, temp,
      inode⟩ | data | data | ⟨temp, message⟩ <;>
    rcases hfault : answer.fault with _ | e <;> simp only [next, hfault] at ran
  case inspecting.none =>
    split at ran <;> cases ran
    · exact .of_keeps h.keeps (fun _ => by simp only [settle, hfault]) trivial
    · exact .of_keeps h.keeps (fun _ => by simp only [settle, hfault]) trivial
    · exact .of_keeps h.keeps (fun _ => by simp only [settle, hfault])
        ⟨trivial, .inr rfl, by simp only [rank, Nat.reduceLT]⟩
  case makingDirectory.none =>
    cases ran
    obtain ⟨hkeeps, hpresent⟩ := h.makeDirectory
    exact .of_keeps hkeeps (fun _ => by simp only [settle, hfault])
      ⟨hpresent, .inr rfl, by simp only [rank, Nat.reduceLT]⟩
  case creating.none =>
    split_ifs at ran <;> cases ran
    · exact .of_keeps h.keeps (fun _ => by simp only [settle, hfault]) trivial
    · have hne := tempPrefix_ne hpath answer.suffix
      obtain ⟨hkeeps, hscratch⟩ := h.create hfits hne (0, none)
      exact .of_keeps hkeeps (fun _ => by simp only [settle, hfault])
        ⟨⟨hne, hscratch⟩, .inr rfl, by simp only [rank, Nat.reduceLT]⟩
  case writing.none =>
    cases ran
    obtain ⟨hkeeps, hscratch⟩ := h.write hfits.2 ⟨data, false⟩
    exact .of_keeps hkeeps (fun _ => by simp only [settle, hfault])
      ⟨⟨hfits.1, hscratch, by simp only [FileSystem.write, Function.update_self]⟩, .inr rfl,
        by simp only [rank, Nat.reduceLT]⟩
  case writing.some =>
    cases ran
    exact .of_keeps (h.write hfits.2 ⟨answer.left, false⟩).1
      (fun _ => by simp only [settle, hfault])
      ⟨hfits.1, .inl rfl, by simp only [rank, Nat.reduceLT]⟩
  case syncing.none =>
    cases ran
    obtain ⟨hne, hscratch, hcontent⟩ := hfits
    obtain ⟨hkeeps, hscratch'⟩ := h.write hscratch ⟨(fs.inodes inode).content, true⟩
    exact .of_keeps hkeeps (fun _ => by simp only [settle, hfault])
      ⟨⟨hne, hscratch',
        by simp only [FileSystem.sync, FileSystem.write, Function.update_self, hcontent]⟩,
        .inr rfl, by simp only [rank, Nat.reduceLT]⟩
  case replacing.none =>
    cases ran
    exact stepped_replacing h hfits hfault
  case openingDirectory.none =>
    split_ifs at ran with hwindows <;> cases ran
    · exact .of_keeps h.keeps (fun _ => by simp only [settle, hfault])
        ⟨data, rfl, hfits, fun hos => by cases hwindows.symm.trans hos⟩
    · exact .of_keeps h.keeps (fun _ => by simp only [settle, hfault])
        ⟨hfits, .inr rfl, by simp only [rank, Nat.reduceLT]⟩
  case openingDirectory.some =>
    split_ifs at ran with hwindows <;> cases ran
    · exact .of_keeps h.keeps (fun _ => by simp only [settle, hfault])
        ⟨data, rfl, hfits, fun hos => by cases hwindows.symm.trans hos⟩
    · exact .of_keeps h.keeps (fun _ => by simp only [settle, hfault]) trivial
  case syncingDirectory.none =>
    cases ran
    exact stepped_syncingDirectory h hfits hfault
  case cleaning.none =>
    cases ran
    exact .of_keeps (h.remove hfits) (fun _ => by simp only [settle, hfault]) trivial
  -- the calls that leave the directory as it is
  all_goals
    cases ran
    refine .of_keeps h.keeps (fun _ => by simp only [settle, hfault]) ?_
  case locked.none => exact ⟨trivial, .inr rfl, by simp only [rank, Nat.reduceLT]⟩
  case settingMode.none | closing.none | checking.none =>
    exact ⟨hfits, .inr rfl, by simp only [rank, Nat.reduceLT]⟩
  case settingMode.some | syncing.some | closing.some | checking.some | replacing.some =>
    exact ⟨hfits.1, .inl rfl, by simp only [rank, Nat.reduceLT]⟩
  all_goals trivial

end CommitTask

/-! ## Whole runs -/

/-- What happens to a store: a commit is called for, its next system call ends, or the machine
crashes. -/
inductive StoreEvent where
  | commit (snapshot : StateSnapshot)
  | run (answer : SystemAnswer)
  | crash (choice : CrashChoice FileContent)

/-- The file system, the commit in progress, and what a crash can leave at the path. -/
structure FileRun where
  fs : FileSystem String FileContent
  task : Option CommitTask
  possible : List (Found FileContent)

namespace FileRun

def step (encodedSize : DiskState → ℕ) (windows : Bool) (path : String) (s : FileRun) :
    StoreEvent → Option (Except Fault Unit) × FileRun
  | .commit snapshot =>
    match s.task with
    | some _ => (none, s)
    | none =>
      match commitData encodedSize snapshot with
      | .error e => (some (.error e), s)
      | .ok data => (none, { s with task := some (.locked data) })
  | .run answer =>
    match s.task with
    | none => (none, s)
    | some task =>
      match task.next windows path s.fs answer with
      | (.inl result, fs) =>
        (some (result.mapError .error), ⟨fs, none, task.settle answer s.possible⟩)
      | (.inr task', fs) => (none, ⟨fs, some task', task.settle answer s.possible⟩)
  | .crash choice => (none, ⟨s.fs.crash choice, none, [(s.fs.crash choice).found path]⟩)

/-- The content is the one of a commit that was called for. -/
def Called (encodedSize : DiskState → ℕ) (events : List StoreEvent) (data : FileContent) : Prop :=
  ∃ snapshot, .commit snapshot ∈ events ∧ commitData encodedSize snapshot = .ok data

variable {encodedSize : DiskState → ℕ} {windows : Bool} {path : String} {start : Found FileContent}
  {events : List StoreEvent} {s : FileRun}

/-- What holds along a run. -/
structure Consistent (encodedSize : DiskState → ℕ) (path : String) (start : Found FileContent)
    (events : List StoreEvent) (s : FileRun) : Prop where
  known : CommitTask.Known path s.fs s.possible
  fits : ∀ task, s.task = some task → task.Fits path s.fs
  called : ∀ task data, s.task = some task → task.data? = some data → Called encodedSize events data
  origin : ∀ v ∈ s.possible, v = start ∨ ∃ data, v = .regular data ∧ Called encodedSize events data

theorem Called.append {data : FileContent} (h : Called encodedSize events data)
    (event : StoreEvent) : Called encodedSize (events ++ [event]) data := by
  obtain ⟨snapshot, hmem, hdata⟩ := h
  exact ⟨snapshot, List.mem_append_left _ hmem, hdata⟩

theorem Consistent.append (h : s.Consistent encodedSize path start events) (event : StoreEvent) :
    s.Consistent encodedSize path start (events ++ [event]) where
  known := h.known
  fits := h.fits
  called task data htask hdata := (h.called task data htask hdata).append event
  origin v hv := by
    rcases h.origin v hv with hstart | ⟨data, hdata, hcalled⟩
    · exact .inl hstart
    · exact .inr ⟨data, hdata, hcalled.append event⟩

/-- What can be left after a system call was possible before or is the content of the commit. -/
theorem mem_settle {task : CommitTask} {answer : SystemAnswer} {possible : List (Found FileContent)}
    {v : Found FileContent} (h : v ∈ task.settle answer possible) :
    v ∈ possible ∨ ∃ data, v = .regular data ∧ task.data? = some data := by
  simp only [CommitTask.settle] at h
  split at h
  · rcases List.mem_append.1 h with h | h
    · exact .inl h
    · exact .inr ⟨_, List.mem_singleton.1 h, rfl⟩
  · exact .inr ⟨_, List.mem_singleton.1 h, rfl⟩
  · exact .inl h

theorem Consistent.step (hpath : ¬ tempPrefix.toList <+: path.toList)
    (h : s.Consistent encodedSize path start events) (event : StoreEvent) :
    (s.step encodedSize windows path event).2.Consistent encodedSize path start
      (events ++ [event]) := by
  rcases event with snapshot | answer | choice
  · rcases htask : s.task with _ | task
    · rcases hdata : commitData encodedSize snapshot with e | data
      · simp only [FileRun.step, htask, hdata]
        exact h.append _
      · simp only [FileRun.step, htask, hdata]
        refine ⟨h.known, fun task heq => ?_, fun task data' heq hdata' => ?_, (h.append _).origin⟩
        · cases heq
          trivial
        · cases heq
          cases hdata'
          exact ⟨snapshot, List.mem_append_right _ (List.mem_singleton_self _), hdata⟩
    · simp only [FileRun.step, htask]
      exact h.append _
  · rcases htask : s.task with _ | task
    · simp only [FileRun.step, htask]
      exact h.append _
    · rcases ran : task.next windows path s.fs answer with ⟨r, fs'⟩
      have hstepped := CommitTask.next_stepped hpath h.known.holds.bounded (h.fits task htask) ran
      have hknown := hstepped.known h.known
      have horigin : ∀ v ∈ task.settle answer s.possible,
          v = start ∨ ∃ data, v = .regular data ∧
          Called encodedSize (events ++ [.run answer]) data := by
        intro v hv
        rcases mem_settle hv with hv | ⟨data, rfl, hdata⟩
        · exact (h.append _).origin v hv
        · exact .inr ⟨data, rfl, (h.called task data htask hdata).append _⟩
      rcases r with result | task' <;> simp only [FileRun.step, htask, ran]
      · exact ⟨hknown, fun task heq => (by cases heq), fun task data heq => (by cases heq), horigin⟩
      · obtain ⟨hfits, hdata, -⟩ := hstepped.goesOn
        refine ⟨hknown, fun task heq => ?_, fun task₂ data heq hdata' => ?_, horigin⟩
        · cases heq
          exact hfits
        · cases heq
          rcases hdata with hnone | hsame
          · cases hnone.symm.trans hdata'
          · exact (h.called task data htask (hsame.symm.trans hdata')).append _
  · obtain ⟨hfound, hholds⟩ := h.known.holds.crash choice
    refine ⟨⟨hholds.mono fun v hv => ?_, rfl⟩, fun task heq => (by cases heq), fun task data heq =>
      (by cases heq), fun v hv => ?_⟩
    · exact hv ▸ List.mem_singleton_self _
    · rw [List.mem_singleton.1 hv]
      exact (h.append _).origin _ hfound

theorem consistent_final (hpath : ¬ tempPrefix.toList <+: path.toList)
    {fs : FileSystem String FileContent} (hstart : fs.Holds path (· = fs.found path))
    (events : List StoreEvent) :
    (final (step encodedSize windows path) ⟨fs, none, [fs.found path]⟩ events).Consistent
      encodedSize path (fs.found path) events := by
  refine final_induction (P := fun events (s : FileRun) => s.Consistent encodedSize path
    (fs.found path) events) ?_ (fun events event h => h.step hpath event) events
  refine ⟨⟨hstart.mono fun v hv => ?_, rfl⟩, fun task heq => (by cases heq), fun task data heq =>
    (by cases heq), fun v hv => .inl (List.mem_singleton.1 hv)⟩
  exact hv ▸ List.mem_singleton_self _

/-- A file store whose directory is durable, through any commits, failing system calls and crashes:
a crash leaves at the path, as a whole, what was there at the start or the state of a commit, and
nothing that a later successful commit or an earlier crash has ruled out.  When a commit reports
success, only its state is left. -/
theorem file_store_crash_consistent (encodedSize : DiskState → ℕ) (windows : Bool) (path : String)
    (hpath : ¬ tempPrefix.toList <+: path.toList) (fs : FileSystem String FileContent)
    (hstart : fs.Holds path (· = fs.found path)) (events : List StoreEvent) :
    let s := final (step encodedSize windows path) ⟨fs, none, [fs.found path]⟩ events
    (∀ choice, (s.fs.crash choice).found path ∈ s.possible) ∧
    s.possible.getLast? = some (s.fs.found path) ∧
      (∀ v ∈ s.possible, v = fs.found path ∨ ∃ data, v = .regular data ∧
        Called encodedSize events data) ∧
      ∀ answer, (s.step encodedSize windows path (.run answer)).1 = some (.ok ()) →
        windows = false →
        ∃ data, Called encodedSize events data ∧ s.task = some (.syncingDirectory data) ∧
          ∀ choice, ((s.step encodedSize windows path (.run answer)).2.fs.crash choice).found path =
          .regular data := by
  intro s
  have hs : s.Consistent encodedSize path (fs.found path) events :=
    consistent_final hpath hstart events
  refine ⟨fun choice => (hs.known.holds.crash choice).1, hs.known.last, hs.origin,
    fun answer hok hwindows => ?_⟩
  rcases htask : s.task with _ | task
  · simp only [FileRun.step, htask, reduceCtorEq] at hok
  rcases ran : task.next windows path s.fs answer with ⟨(e | ⟨⟨⟩⟩) | task', fs'⟩
  · simp only [FileRun.step, htask, ran, Except.mapError, Option.some.injEq, reduceCtorEq] at hok
  · have hstepped := CommitTask.next_stepped hpath hs.known.holds.bounded (hs.fits _ htask) ran
    obtain ⟨data, hdata, -, hsynced⟩ := hstepped.goesOn
    obtain ⟨rfl, hfault⟩ := hsynced hwindows
    refine ⟨data, hs.called _ data htask rfl, rfl, fun choice => ?_⟩
    have hknown := hstepped.known hs.known
    simp only [CommitTask.settle, hfault] at hknown
    simp only [FileRun.step, htask, ran]
    exact List.mem_singleton.1 (hknown.holds.crash choice).1
  · simp only [FileRun.step, htask, ran, reduceCtorEq] at hok

end FileRun

/-- A directory without entries. -/
def emptyDirectory : FileSystem String FileContent :=
  ⟨true, true, fun _ => none, [], fun _ => ⟨(0, none), true⟩, 0⟩

theorem holds_emptyDirectory : emptyDirectory.Holds "state.json"
    (· = emptyDirectory.found "state.json") := by
  have hnode {node : Option Node} (h : emptyDirectory.Node? "state.json" node) : node = none := by
    rcases h with rfl | ⟨c, hc, -⟩
    · rfl
    · cases hc
  refine ⟨rfl, rfl, fun node h => ?_, fun i h => ?_, fun i h => ?_⟩
  · rw [hnode h]
    rfl
  · cases hnode h
  · cases hnode h

/-- System calls that succeed. -/
def SystemAnswer.success : SystemAnswer := ⟨none, "1", (0, none)⟩

/-- A commit that ends, and one that is cut off before the directory is synced. -/
def cutOffEvents : List StoreEvent :=
  List.flatten
    [[.commit (sampleSnapshot 0)], List.replicate 12 (.run .success), [.commit (sampleSnapshot 1)],
      List.replicate 10 (.run .success)]

def cutOffRun : FileRun :=
  final (FileRun.step (fun _ => 100) false "state.json")
    ⟨emptyDirectory, none, [emptyDirectory.found "state.json"]⟩ cutOffEvents

theorem crash_consistent_cutOffRun :
    cutOffRun.possible = [.regular (100, some ⟨3, (sampleSnapshot 0).canonical⟩),
        .regular (100, some ⟨3, (sampleSnapshot 1).canonical⟩)] ∧
      ∀ choice, (cutOffRun.fs.crash choice).found "state.json" ∈ cutOffRun.possible := by
  have hpath : ¬ tempPrefix.toList <+: "state.json".toList := by decide
  exact ⟨by decide +kernel,
    (FileRun.file_store_crash_consistent
      (fun _ => 100) false "state.json" hpath emptyDirectory holds_emptyDirectory cutOffEvents).1⟩

/-! ## A commit that is not cut off -/

namespace CommitTask

/-- The system calls of a commit until it is answered. -/
def calls (windows : Bool) (path : String) :
    List SystemAnswer → FileSystem String FileContent → CommitTask →
      Option (Except String Unit × FileSystem String FileContent)
  | [], _, _ => none
  | answer :: answers, fs, task =>
    match task.next windows path fs answer with
    | (.inl result, fs) => some (result, fs)
    | (.inr task, fs) => calls windows path answers fs task

theorem rank_pos (task : CommitTask) : 0 < task.rank := by
  cases task <;> simp only [rank, Nat.reduceLT, Nat.lt_add_one]

/-- The system calls of a commit end, and leave the path or replace what it refers to; after a
success it is replaced. -/
theorem calls_end (hpath : ¬ tempPrefix.toList <+: path.toList) {data : FileContent}
    {v : Found FileContent} (answers : List SystemAnswer) (h : fs.Bounded path)
    (hfits : task.Fits path fs) (hdata : ∀ data', task.data? = some data' → data' = data)
    (hfound : fs.found path = v ∨ fs.found path = .regular data)
    (hrank : task.rank ≤ answers.length) :
    ∃ result fs', calls windows path answers fs task = some (result, fs') ∧
      (fs'.found path = .regular data ∨ fs'.found path = v ∧ result ≠ .ok ()) := by
  induction answers generalizing fs task with
  | nil =>
    have hpos := rank_pos task
    rw [List.length_nil] at hrank
    omega
  | cons answer answers ih =>
    rcases ran : next windows path fs answer task with ⟨r, fs'⟩
    have hstepped := next_stepped hpath h hfits ran
    have hfound' : fs'.found path = v ∨ fs'.found path = .regular data := by
      rcases hstepped.found with hsame | ⟨data', hdata', hnew⟩
      · rwa [hsame]
      · exact .inr (hdata data' hdata' ▸ hnew)
    rcases r with (e | ⟨⟨⟩⟩) | task'
    · refine ⟨.error e, fs', by simp only [calls, ran], ?_⟩
      rcases hfound' with hsame | hnew
      · exact .inr ⟨hsame, by simp⟩
      · exact .inl hnew
    · -- success is reported only after the replacement
      obtain ⟨data', hdata', hnew, -⟩ := hstepped.goesOn
      exact ⟨.ok (), fs', by simp only [calls, ran], .inl (hdata data' hdata' ▸ hnew)⟩
    · obtain ⟨hfits', hdata', hrank'⟩ := hstepped.goesOn
      rw [List.length_cons] at hrank
      have hsame : ∀ data₂, task'.data? = some data₂ → data₂ = data := by
        intro data₂ hdata₂
        rcases hdata' with hnone | hsame
        · cases hnone.symm.trans hdata₂
        · exact hdata data₂ (hsame.symm.trans hdata₂)
      obtain ⟨result, fs'', hcalls, hend⟩ := ih hstepped.bounded hfits' hsame hfound' (by omega)
      exact ⟨result, fs'', by simp only [calls, ran, hcalls], hend⟩

end CommitTask

theorem commitData_ok {encodedSize : DiskState → ℕ} {snapshot : StateSnapshot} {data : FileContent}
    (h : commitData encodedSize snapshot = .ok data) : validateStateSnapshot snapshot = .ok () ∧
      encodedSize ⟨coordinatorStateSchemaVersion, snapshot.canonical⟩ ≤ maxCoordinatorStateBytes ∧
      FileStateStore.ofFound (.regular data) = FileStateStore.write encodedSize snapshot := by
  rcases hvalid : validateStateSnapshot snapshot with e | ⟨⟨⟩⟩ <;>
    simp only [commitData, hvalid, reduceCtorEq] at h
  split_ifs at h with hsize
  cases h
  exact ⟨rfl, not_lt.1 hsize, rfl⟩

theorem FileStateStore.commit_eq {encodedSize : DiskState → ℕ} {snapshot : StateSnapshot}
    {file : FileStateStore} (hvalid : validateStateSnapshot snapshot = .ok ())
    (hsize : encodedSize ⟨coordinatorStateSchemaVersion, snapshot.canonical⟩ ≤
      maxCoordinatorStateBytes)
    (hfile : file ≠ symlink ∧ file ≠ irregular) :
    file.commit encodedSize snapshot .success = (.ok (), write encodedSize snapshot) ∧
      ∀ applied message, file.commit encodedSize snapshot (.failure applied message) =
        (.error (.error message), if applied then write encodedSize snapshot else file) := by
  rcases file with _ | _ | _ | ⟨size, content⟩
  · simp only [commit, hvalid, if_neg (not_lt.2 hsize), implies_true, and_self]
  · exact absurd rfl hfile.1
  · exact absurd rfl hfile.2
  · simp only [commit, hvalid, if_neg (not_lt.2 hsize), implies_true, and_self]

/-- Twelve system calls are a commit of the file store, whichever of them fail: it is applied as a
whole or not at all, and applied if it reports success.  The directory need not be there. -/
theorem commit_of_system_calls (encodedSize : DiskState → ℕ) (windows : Bool) (path : String)
    (hpath : ¬ tempPrefix.toList <+: path.toList) (fs : FileSystem String FileContent)
    (hfs : fs.Bounded path) (hfile : fs.found path ≠ .symlink ∧ fs.found path ≠ .irregular)
    (snapshot : StateSnapshot) (data : FileContent)
    (hdata : commitData encodedSize snapshot = .ok data) (answers : List SystemAnswer)
    (hanswers : 12 ≤ answers.length) :
    ∃ result fs' outcome, CommitTask.calls windows path answers fs (.locked data) =
      some (result, fs') ∧
      (FileStateStore.ofFound (fs.found path)).commit encodedSize snapshot outcome =
        (result.mapError .error, FileStateStore.ofFound (fs'.found path)) := by
  obtain ⟨result, fs', hcalls, hend⟩ : ∃ result fs',
      CommitTask.calls windows path answers fs (.locked data) = some (result, fs') ∧
        (fs'.found path = .regular data ∨ fs'.found path = fs.found path ∧ result ≠ .ok ()) :=
    CommitTask.calls_end hpath answers hfs trivial (fun data' h => (Option.some.inj h).symm)
      (.inl rfl) hanswers
  obtain ⟨hvalid, hsize, hwrite⟩ := commitData_ok hdata
  have hwritable : FileStateStore.ofFound (fs.found path) ≠ .symlink ∧
      FileStateStore.ofFound (fs.found path) ≠ .irregular := by
    rcases hfound : fs.found path with _ | _ | _ | content
    · simp [FileStateStore.ofFound]
    · exact absurd hfound hfile.1
    · exact absurd hfound hfile.2
    · simp [FileStateStore.ofFound]
  obtain ⟨hsuccess, hfailure⟩ := FileStateStore.commit_eq hvalid hsize hwritable
  rcases result with e | ⟨⟨⟩⟩
  · rcases hend with hnew | ⟨hsame, -⟩
    · exact ⟨_, fs', .failure true e, hcalls, by rw [hfailure, hnew, hwrite]; rfl⟩
    · exact ⟨_, fs', .failure false e, hcalls, by rw [hfailure, hsame]; rfl⟩
  · rcases hend with hnew | ⟨-, hne⟩
    · exact ⟨_, fs', .success, hcalls, by rw [hsuccess, hnew, hwrite]; rfl⟩
    · exact absurd rfl hne

/-- The ninth call, the check before the replacement, fails. -/
def failingAnswers : List SystemAnswer :=
  List.replicate 8 .success ++ [⟨some "context canceled", "", (0, none)⟩] ++
    List.replicate 3 .success

/-- The directory is not there yet. -/
def noDirectory : FileSystem String FileContent :=
  { emptyDirectory with present := false, anchored := false }

theorem commit_of_failingAnswers : ∃ result fs' outcome,
    CommitTask.calls false "state.json" failingAnswers noDirectory
        (.locked (100, some ⟨3, (sampleSnapshot 0).canonical⟩)) = some (result, fs') ∧
      FileStateStore.missing.commit (fun _ => 100) (sampleSnapshot 0) outcome =
        (result.mapError .error, FileStateStore.ofFound (fs'.found "state.json")) := by
  have hpath : ¬ tempPrefix.toList <+: "state.json".toList := by decide
  have hdata : commitData (fun _ => 100) (sampleSnapshot 0) =
      .ok (100, some ⟨3, (sampleSnapshot 0).canonical⟩) := by
    decide +kernel
  exact commit_of_system_calls
    (fun _ => 100) false "state.json" hpath noDirectory holds_emptyDirectory.bounded
    ⟨by decide, by decide⟩ (sampleSnapshot 0) _ hdata failingAnswers (by decide)

end ZeroTrustFL
