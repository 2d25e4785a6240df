import Runex.Lib.Text

/-!
# Files and the calls that change them

A disk, the system calls of a program that reads and rewrites files, and a schedule of faults: any
call may fail, and a write that fails may have written some of its bytes. Paths have their links
resolved.

## Main definitions

- `FileSystem.Node`, `FileSystem.Disk` — what a path leads to, and all of it
- `FileSystem.FileM` — programs that make system calls, with errors `ε`
- `FileSystem.exec` — run a program under a schedule of faults

## Main results

- `FileSystem.Keeps` — a program that leaves one path as it is, with its rules
-/

namespace FileSystem

-- ════════════════════════════════════════════════════════════════════════
-- Disks
-- ════════════════════════════════════════════════════════════════════════

/-- The components of an absolute path. -/
abbrev Path := List Text

/-- What a path leads to. -/
inductive Node where
  | absent
  | regular (bytes : ByteArray)
  | directory
  /-- A pipe or a device. -/
  | special

structure Disk where
  node : Path → Node
  /-- The number of system calls made. -/
  calls : ℕ := 0

/-- The disk with another node at `path`. -/
def Disk.set (disk : Disk) (path : Path) (node : Node) : Disk :=
  { disk with node := fun other => if other = path then node else disk.node other }

/-- The disk after one more call. -/
def Disk.tick (disk : Disk) : Disk := { disk with calls := disk.calls + 1 }

@[simp] theorem Disk.node_tick (disk : Disk) : disk.tick.node = disk.node := rfl

@[simp] theorem Disk.node_set_self (disk : Disk) (path : Path) (node : Node) :
    (disk.set path node).node path = node := if_pos rfl

@[simp] theorem Disk.node_set_of_ne {disk : Disk} {path other : Path} (h : other ≠ path)
    (node : Node) : (disk.set path node).node other = disk.node other := if_neg h

/-- A failing call. -/
structure Fault where
  message : Text
  /-- The bytes a failing write has written. -/
  written : ℕ := 0

/-- Which calls fail, by number. -/
abbrev Faults := ℕ → Option Fault

/-- No call fails by itself. -/
def noFaults : Faults := fun _ => none

-- ════════════════════════════════════════════════════════════════════════
-- Programs
-- ════════════════════════════════════════════════════════════════════════

/-- Programs that make system calls. -/
abbrev FileM (ε : Type) := ReaderT Faults (ExceptT ε (StateM Disk))

section Programs

variable {ε α β : Type}

/-- Run a program: its result, and the disk afterwards, also after an error. -/
def exec (program : FileM ε α) (faults : Faults) (disk : Disk) : Except ε α × Disk :=
  program faults disk

@[simp] theorem exec_pure (a : α) (faults : Faults) (disk : Disk) :
    exec (pure a : FileM ε α) faults disk = (.ok a, disk) := rfl

@[simp] theorem exec_throw (e : ε) (faults : Faults) (disk : Disk) :
    exec (throw e : FileM ε α) faults disk = (.error e, disk) := rfl

theorem exec_bind (program : FileM ε α) (next : α → FileM ε β) (faults : Faults) (disk : Disk) :
    exec (program >>= next) faults disk =
      match exec program faults disk with
      | (.ok a, disk) => exec (next a) faults disk
      | (.error e, disk) => (.error e, disk) := by
  change (match exec program faults disk with
    | (a, disk) => ExceptT.bindCont (fun a => next a faults) a disk) = _
  rcases exec program faults disk with ⟨_ | _, _⟩ <;> rfl

theorem exec_tryCatch (program : FileM ε α) (handler : ε → FileM ε α) (faults : Faults)
    (disk : Disk) :
    exec (tryCatch program handler) faults disk =
      match exec program faults disk with
      | (.ok a, disk) => (.ok a, disk)
      | (.error e, disk) => exec (handler e) faults disk := by
  change (match exec program faults disk with
    | (result, disk) => (match result with
      | Except.ok a => (pure (Except.ok a) : StateM Disk (Except ε α))
      | Except.error e => handler e faults) disk) = _
  rcases exec program faults disk with ⟨_ | _, _⟩ <;> rfl

theorem exec_bind_eq_ok {program : FileM ε α} {next : α → FileM ε β} {faults : Faults}
    {disk disk' : Disk} {b : β} (h : exec (program >>= next) faults disk = (.ok b, disk')) :
    ∃ a between, exec program faults disk = (.ok a, between) ∧
      exec (next a) faults between = (.ok b, disk') := by
  rw [exec_bind] at h
  rcases hfirst : exec program faults disk with ⟨e | a, between⟩
  · simp [hfirst] at h
  · exact ⟨a, between, rfl, by simpa [hfirst] using h⟩

theorem exec_bind_eq_error {program : FileM ε α} {next : α → FileM ε β} {faults : Faults}
    {disk disk' : Disk} {e : ε} (h : exec (program >>= next) faults disk = (.error e, disk')) :
    exec program faults disk = (.error e, disk') ∨
      ∃ a between, exec program faults disk = (.ok a, between) ∧
        exec (next a) faults between = (.error e, disk') := by
  rw [exec_bind] at h
  rcases hfirst : exec program faults disk with ⟨e' | a, between⟩
  · exact Or.inl (by simpa [hfirst] using h)
  · exact Or.inr ⟨a, between, rfl, by simpa [hfirst] using h⟩

theorem exec_bind_of_ok {program : FileM ε α} {next : α → FileM ε β} {faults : Faults}
    {disk between : Disk} {a : α} (h : exec program faults disk = (.ok a, between)) :
    exec (program >>= next) faults disk = exec (next a) faults between := by
  rw [exec_bind, h]

/-- Run a program for what it does, not for its result: `let _ = …`. -/
def ignoring (program : FileM ε α) : FileM ε Unit :=
  tryCatch (do let _ ← program) fun _ => pure ()

end Programs

-- ════════════════════════════════════════════════════════════════════════
-- System calls
-- ════════════════════════════════════════════════════════════════════════

/-- The bytes of a text. -/
def encode (s : Text) : ByteArray := (String.ofList s).toByteArray

/-- The text of some bytes, when they are UTF-8. -/
def decode (bytes : ByteArray) : Option Text := bytes.utf8Decode?.map Array.toList

theorem decode_eq_some {bytes : ByteArray} {s : Text} : decode bytes = some s ↔ bytes = encode s := by
  constructor
  · intro h
    obtain ⟨chars, hchars, rfl⟩ := Option.map_eq_some_iff.mp h
    have hget := ByteArray.utf8Encode_get_utf8Decode? (b := bytes) (h := by simp [hchars])
    simpa [hchars, encode] using hget.symm
  · rintro rfl
    simp [decode, encode, List.utf8Decode?_utf8Encode]

theorem encode_inj {s t : Text} : encode s = encode t ↔ s = t := by
  refine ⟨fun h => ?_, congrArg encode⟩
  have hs : decode (encode s) = some s := decode_eq_some.mpr rfl
  have ht : decode (encode t) = some t := decode_eq_some.mpr rfl
  rw [h, ht] at hs
  exact (Option.some.inj hs).symm

theorem encode_append (s t : Text) : encode (s ++ t) = encode s ++ encode t := by
  simp [encode]

theorem size_encode (s : Text) : (encode s).size = Text.byteLen s := by
  induction s with
  | nil => rfl
  | cons c s ih =>
    rw [← List.singleton_append, encode_append, ByteArray.size_append, ih, encode,
      String.toByteArray_ofList, List.utf8Encode_singleton]
    simp

section Calls

variable {ε α : Type} (io : Text → ε)

/-- One call. `io` makes an error of the program from that of the system. -/
def systemCall (act : Disk → Except Text α × Disk) (onFault : Fault → Disk → Disk) : FileM ε α :=
  fun faults disk =>
    match faults disk.calls with
    | some fault => (.error (io fault.message), onFault fault disk.tick)
    | none => ((act disk.tick).1.mapError io, (act disk.tick).2)

/-- A call that changes nothing. -/
def query (answer : Disk → Except Text α) : FileM ε α :=
  systemCall io (fun disk => (answer disk, disk)) fun _ disk => disk

def notFound : Text := "No such file or directory".toList

def canonicalize (path : Path) : FileM ε Path :=
  query io fun disk =>
    match disk.node path with
    | .absent => .error notFound
    | _ => .ok path

def openRead (path : Path) : FileM ε Unit :=
  query io fun disk =>
    match disk.node path with
    | .absent => .error notFound
    | _ => .ok ()

structure Metadata where
  isFile : Bool
  len : ℕ

def metadata (path : Path) : FileM ε Metadata :=
  query io fun disk =>
    match disk.node path with
    | .absent => .error notFound
    | .regular bytes => .ok ⟨true, bytes.size⟩
    | _ => .ok ⟨false, 0⟩

def readToString (path : Path) : FileM ε Text :=
  query io fun disk =>
    match disk.node path with
    | .regular bytes =>
      match decode bytes with
      | some s => .ok s
      | none => .error "stream did not contain valid UTF-8".toList
    | .absent => .error notFound
    | _ => .error "Is not a file".toList

def removeFile (path : Path) : FileM ε Unit :=
  systemCall io (fun disk =>
    match disk.node path with
    | .absent => (.error notFound, disk)
    | .directory => (.error "Is a directory".toList, disk)
    | _ => (.ok (), disk.set path .absent)) fun _ disk => disk

/-- Create a file that does not exist yet. -/
def createNew (path : Path) : FileM ε Unit :=
  systemCall io (fun disk =>
    match disk.node path with
    | .absent => (.ok (), disk.set path (.regular ByteArray.empty))
    | _ => (.error "File exists".toList, disk)) fun _ disk => disk

/-- Open for appending, and create what does not exist. -/
def openAppend (path : Path) : FileM ε Unit :=
  systemCall io (fun disk =>
    match disk.node path with
    | .absent => (.ok (), disk.set path (.regular ByteArray.empty))
    | .directory => (.error "Is a directory".toList, disk)
    | _ => (.ok (), disk)) fun _ disk => disk

/-- Bytes written at the end of a file. -/
def Disk.append (disk : Disk) (path : Path) (bytes : ByteArray) : Disk :=
  match disk.node path with
  | .regular old => disk.set path (.regular (old ++ bytes))
  | _ => disk

/-- Write all bytes to a file that was just created or opened for appending. -/
def writeAll (path : Path) (bytes : ByteArray) : FileM ε Unit :=
  systemCall io (fun disk => (.ok (), disk.append path bytes)) fun fault disk =>
    disk.append path (bytes.extract 0 fault.written)

def syncAll : FileM ε Unit := query io fun _ => .ok ()

/-- Move a file over another path, in one step. -/
def rename (source target : Path) : FileM ε Unit :=
  systemCall io (fun disk =>
    match disk.node source, disk.node target with
    | .absent, _ => (.error notFound, disk)
    | _, .directory => (.error "Is a directory".toList, disk)
    | node, _ => (.ok (), (disk.set source .absent).set target node)) fun _ disk => disk

end Calls

-- ════════════════════════════════════════════════════════════════════════
-- What a program leaves as it is
-- ════════════════════════════════════════════════════════════════════════

/-- Whatever fails, the path leads to what it led to. -/
def Keeps {ε α : Type} (path : Path) (program : FileM ε α) : Prop :=
  ∀ faults disk, (exec program faults disk).2.node path = disk.node path

/-- The path leads to what it led to, unless the program returns. -/
def KeepsOnError {ε α : Type} (path : Path) (program : FileM ε α) : Prop :=
  ∀ faults disk e disk', exec program faults disk = (.error e, disk') →
    disk'.node path = disk.node path

/-- Some run of the program returns this value. -/
def Returns {ε α : Type} (program : FileM ε α) (a : α) : Prop :=
  ∃ faults disk disk', exec program faults disk = (.ok a, disk')

section Rules

variable {ε α β : Type} {io : Text → ε} {path other : Path}

theorem exec_systemCall (act : Disk → Except Text α × Disk) (onFault : Fault → Disk → Disk)
    (faults : Faults) (disk : Disk) :
    exec (systemCall io act onFault) faults disk =
      match faults disk.calls with
      | some fault => (.error (io fault.message), onFault fault disk.tick)
      | none => ((act disk.tick).1.mapError io, (act disk.tick).2) := rfl

/-- A call that returns did what it is for. -/
theorem exec_systemCall_eq_ok {act : Disk → Except Text α × Disk} {onFault : Fault → Disk → Disk}
    {faults : Faults} {disk disk' : Disk} {a : α}
    (h : exec (systemCall io act onFault) faults disk = (.ok a, disk')) :
    act disk.tick = (.ok a, disk') := by
  rw [exec_systemCall] at h
  split at h
  · simp at h
  · rcases hact : act disk.tick with ⟨e | b, after⟩ <;> simp_all [Except.mapError]

/-- The error of a call is one of the system. -/
theorem exec_systemCall_error {act : Disk → Except Text α × Disk} {onFault : Fault → Disk → Disk}
    {faults : Faults} {disk disk' : Disk} {e : ε}
    (h : exec (systemCall io act onFault) faults disk = (.error e, disk')) :
    ∃ message, e = io message := by
  rw [exec_systemCall] at h
  split at h
  · exact ⟨_, (Except.error.inj (Prod.mk.inj h).1).symm⟩
  · rcases hact : act disk.tick with ⟨message | b, after⟩
    · simp only [hact, Except.mapError, Prod.mk.injEq, Except.error.injEq] at h
      exact ⟨message, h.1.symm⟩
    · simp [hact, Except.mapError] at h

theorem exec_query_eq_ok {answer : Disk → Except Text α} {faults : Faults} {disk disk' : Disk}
    {a : α} (h : exec (query io answer) faults disk = (.ok a, disk')) :
    answer disk.tick = .ok a ∧ disk' = disk.tick := by
  have hact := exec_systemCall_eq_ok h
  simp only [Prod.mk.injEq] at hact
  exact ⟨hact.1, hact.2.symm⟩

theorem exec_query_noFaults (answer : Disk → Except Text α) (disk : Disk) :
    exec (query io answer) noFaults disk = ((answer disk.tick).mapError io, disk.tick) := rfl

-- Reading a regular file without faults.

section Regular

variable {disk : Disk} {bytes : ByteArray} (hnode : disk.node path = .regular bytes)

include hnode

theorem canonicalize_noFaults :
    exec (canonicalize io path) noFaults disk = (.ok path, disk.tick) := by
  rw [canonicalize, exec_query_noFaults, Disk.node_tick, hnode]
  rfl

theorem openRead_noFaults : exec (openRead io path) noFaults disk = (.ok (), disk.tick) := by
  rw [openRead, exec_query_noFaults, Disk.node_tick, hnode]
  rfl

theorem metadata_noFaults :
    exec (metadata io path) noFaults disk = (.ok ⟨true, bytes.size⟩, disk.tick) := by
  rw [metadata, exec_query_noFaults, Disk.node_tick, hnode]
  rfl

theorem readToString_noFaults {s : Text} (hdecode : decode bytes = some s) :
    exec (readToString io path) noFaults disk = (.ok s, disk.tick) := by
  simp only [readToString, exec_query_noFaults, Disk.node_tick, hnode, hdecode]
  rfl

end Regular

-- What each call did when it returns.

theorem canonicalize_eq_ok {faults : Faults} {disk disk' : Disk} {resolved : Path}
    (h : exec (canonicalize io path) faults disk = (.ok resolved, disk')) :
    resolved = path ∧ disk' = disk.tick := by
  obtain ⟨hanswer, hdisk⟩ := exec_query_eq_ok h
  split at hanswer
  · simp at hanswer
  · exact ⟨(Except.ok.inj hanswer).symm, hdisk⟩

theorem openRead_eq_ok {faults : Faults} {disk disk' : Disk}
    (h : exec (openRead io path) faults disk = (.ok (), disk')) : disk' = disk.tick :=
  (exec_query_eq_ok h).2

theorem metadata_eq_ok {faults : Faults} {disk disk' : Disk} {info : Metadata}
    (h : exec (metadata io path) faults disk = (.ok info, disk')) :
    disk' = disk.tick ∧
      (info.isFile = true → ∃ bytes, disk.node path = .regular bytes ∧ info.len = bytes.size) := by
  obtain ⟨hanswer, hdisk⟩ := exec_query_eq_ok h
  refine ⟨hdisk, fun hfile => ?_⟩
  rw [Disk.node_tick] at hanswer
  split at hanswer <;> simp only [Except.ok.injEq, reduceCtorEq] at hanswer <;> subst hanswer
  · exact ⟨_, by assumption, rfl⟩
  · simp at hfile

theorem readToString_eq_ok {faults : Faults} {disk disk' : Disk} {s : Text}
    (h : exec (readToString io path) faults disk = (.ok s, disk')) :
    disk.node path = .regular (encode s) ∧ disk' = disk.tick := by
  obtain ⟨hanswer, hdisk⟩ := exec_query_eq_ok h
  rw [Disk.node_tick] at hanswer
  split at hanswer
  · next bytes hnode =>
    split at hanswer
    · next t hdecode =>
      obtain rfl := Except.ok.inj hanswer
      exact ⟨hnode.trans (congrArg Node.regular (decode_eq_some.mp hdecode)), hdisk⟩
    · simp at hanswer
  · simp at hanswer
  · simp at hanswer

theorem createNew_eq_ok {faults : Faults} {disk disk' : Disk}
    (h : exec (createNew io path) faults disk = (.ok (), disk')) :
    disk' = disk.tick.set path (.regular ByteArray.empty) := by
  have hact := exec_systemCall_eq_ok h
  split at hact <;> simp only [Prod.mk.injEq, reduceCtorEq, false_and, true_and] at hact
  exact hact.symm

theorem openAppend_eq_ok {faults : Faults} {disk disk' : Disk} {bytes : ByteArray}
    (hnode : disk.node path = .regular bytes)
    (h : exec (openAppend io path) faults disk = (.ok (), disk')) : disk' = disk.tick := by
  have hact := exec_systemCall_eq_ok h
  simp only [Disk.node_tick, hnode, Prod.mk.injEq, true_and] at hact
  exact hact.symm

/-- A call that does not fail opens a regular file, or makes one. -/
theorem exists_exec_openAppend {faults : Faults} {disk : Disk} {bytes : ByteArray}
    (hnode : disk.node path = .regular bytes ∨ disk.node path = .absent)
    (hfault : faults disk.calls = none) :
    ∃ disk', exec (openAppend io path) faults disk = (.ok (), disk') ∧
      disk'.calls = disk.calls + 1 := by
  rw [openAppend, exec_systemCall, hfault, Disk.node_tick]
  rcases hnode with hnode | hnode
  · rw [hnode]
    exact ⟨disk.tick, rfl, rfl⟩
  · rw [hnode]
    exact ⟨disk.tick.set path (.regular ByteArray.empty), rfl, rfl⟩

theorem exec_writeAll {faults : Faults} {disk : Disk} (bytes : ByteArray)
    (hfault : faults disk.calls = none) :
    exec (writeAll io path bytes) faults disk = (.ok (), disk.tick.append path bytes) := by
  rw [writeAll, exec_systemCall, hfault]
  rfl

theorem writeAll_eq_ok {faults : Faults} {disk disk' : Disk} {bytes : ByteArray}
    (h : exec (writeAll io path bytes) faults disk = (.ok (), disk')) :
    disk' = disk.tick.append path bytes := by
  have hact := exec_systemCall_eq_ok h
  simp only [Prod.mk.injEq, true_and] at hact
  exact hact.symm

theorem syncAll_eq_ok {faults : Faults} {disk disk' : Disk}
    (h : exec (syncAll io) faults disk = (.ok (), disk')) : disk' = disk.tick :=
  (exec_query_eq_ok h).2

theorem rename_eq_ok {faults : Faults} {disk disk' : Disk}
    (h : exec (rename io other path) faults disk = (.ok (), disk')) :
    disk'.node path = disk.node other := by
  have hact := exec_systemCall_eq_ok h
  split at hact <;> simp only [Prod.mk.injEq, reduceCtorEq, false_and, true_and] at hact
  rw [← hact]
  simp

/-- A rename that fails moved nothing. -/
theorem exec_rename_error {faults : Faults} {disk disk' : Disk} {e : ε}
    (h : exec (rename io other path) faults disk = (.error e, disk')) : disk'.node = disk.node := by
  unfold rename at h
  rw [exec_systemCall] at h
  split at h
  · exact (congrArg Disk.node (Prod.mk.inj h).2).symm
  · split at h <;> simp only [Except.mapError, Prod.mk.injEq, reduceCtorEq, false_and] at h
    · exact (congrArg Disk.node h.2).symm
    · exact (congrArg Disk.node h.2).symm

theorem keeps_pure (a : α) : Keeps path (pure a : FileM ε α) := fun _ _ => rfl

theorem keeps_throw (e : ε) : Keeps path (throw e : FileM ε α) := fun _ _ => rfl

theorem Keeps.bind {program : FileM ε α} {next : α → FileM ε β} (h : Keeps path program)
    (hnext : ∀ a, Keeps path (next a)) : Keeps path (program >>= next) := by
  intro faults disk
  have hfirst := h faults disk
  rw [exec_bind]
  rcases hrun : exec program faults disk with ⟨e | a, between⟩ <;> rw [hrun] at hfirst
  · exact hfirst
  · exact (hnext a faults between).trans hfirst

theorem Keeps.ite {c : Prop} [Decidable c] {first second : FileM ε α} (h : Keeps path first)
    (h' : Keeps path second) : Keeps path (if c then first else second) := by
  split
  · exact h
  · exact h'

theorem Keeps.tryCatch {program : FileM ε α} {handler : ε → FileM ε α} (h : Keeps path program)
    (hhandler : ∀ e, Keeps path (handler e)) : Keeps path (tryCatch program handler) := by
  intro faults disk
  have hfirst := h faults disk
  rw [exec_tryCatch]
  rcases hrun : exec program faults disk with ⟨e | a, between⟩ <;> rw [hrun] at hfirst
  · exact (hhandler e faults between).trans hfirst
  · exact hfirst

theorem Keeps.ignoring {program : FileM ε α} (h : Keeps path program) :
    Keeps path (ignoring program) :=
  (h.bind fun _ => keeps_pure ()).tryCatch fun _ => keeps_pure ()

theorem Keeps.onError {program : FileM ε α} (h : Keeps path program) :
    KeepsOnError path program := fun faults disk e disk' hrun => by
  have hkeeps := h faults disk
  rwa [hrun] at hkeeps

theorem Keeps.bindOnError {program : FileM ε α} {next : α → FileM ε β} (h : Keeps path program)
    (hnext : ∀ a, Returns program a → KeepsOnError path (next a)) :
    KeepsOnError path (program >>= next) := by
  intro faults disk e disk' hrun
  rcases exec_bind_eq_error hrun with hfirst | ⟨a, between, hfirst, hrest⟩
  · exact h.onError faults disk e disk' hfirst
  · have hkeeps := h faults disk
    rw [hfirst] at hkeeps
    exact (hnext a ⟨faults, disk, between, hfirst⟩ faults between e disk' hrest).trans hkeeps

theorem KeepsOnError.bindPure {program : FileM ε α} (h : KeepsOnError path program) (b : β) :
    KeepsOnError path (program >>= fun _ => pure b) := by
  intro faults disk e disk' hrun
  rcases exec_bind_eq_error hrun with hfirst | ⟨a, between, -, hrest⟩
  · exact h faults disk e disk' hfirst
  · simp at hrest

theorem keeps_systemCall {act : Disk → Except Text α × Disk} {onFault : Fault → Disk → Disk}
    (hact : ∀ disk, (act disk).2.node path = disk.node path)
    (hfault : ∀ fault disk, (onFault fault disk).node path = disk.node path) :
    Keeps path (systemCall io act onFault) := by
  intro faults disk
  rw [exec_systemCall]
  split
  · exact hfault _ disk.tick
  · exact hact disk.tick

theorem keeps_query (answer : Disk → Except Text α) : Keeps path (query io answer) :=
  keeps_systemCall (fun _ => rfl) fun _ _ => rfl

theorem Disk.node_append_self {disk : Disk} {old : ByteArray} (h : disk.node path = .regular old)
    (bytes : ByteArray) : (disk.append path bytes).node path = .regular (old ++ bytes) := by
  simp [Disk.append, h]

theorem Disk.node_append_of_ne {disk : Disk} (h : path ≠ other) (bytes : ByteArray) :
    (disk.append other bytes).node path = disk.node path := by
  unfold Disk.append
  split <;> simp [h]

theorem keeps_removeFile (h : path ≠ other) : Keeps path (removeFile io other) := by
  refine keeps_systemCall (fun disk => ?_) fun _ _ => rfl
  split <;> simp [h]

theorem keeps_createNew (h : path ≠ other) : Keeps path (createNew io other) := by
  refine keeps_systemCall (fun disk => ?_) fun _ _ => rfl
  split <;> simp [h]

theorem keeps_writeAll (h : path ≠ other) (bytes : ByteArray) :
    Keeps path (writeAll io other bytes) :=
  keeps_systemCall (fun _ => Disk.node_append_of_ne h bytes) fun _ _ => Disk.node_append_of_ne h _

/-- A rename that fails moved nothing, and neither does a handler that cleans up elsewhere. -/
theorem keepsOnError_rename {source : Path} {handler : ε → FileM ε Unit}
    (hhandler : ∀ e, Keeps path (handler e)) :
    KeepsOnError path (tryCatch (rename io source path) handler) := by
  intro faults disk e disk' hrun
  rw [exec_tryCatch] at hrun
  rcases hrename : exec (rename io source path) faults disk with ⟨e' | a, between⟩ <;>
    rw [hrename] at hrun
  · have hkeeps := hhandler e' faults between
    change exec (handler e') faults between = _ at hrun
    rw [hrun] at hkeeps
    exact hkeeps.trans (congrFun (exec_rename_error hrename) path)
  · simp at hrun

end Rules

end FileSystem
