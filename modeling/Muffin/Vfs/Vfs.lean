-- SUMMARY: The virtual file system of `kernel_vfs`: the mount table, `find_mount` over string-level parents, `Vfs::open` and the path it hands a file system, the two file systems the kernel mounts (`DevFs` and the ext2 root), and `sys_open`.
import Muffin.Vfs.Path
import Muffin.Abi.Errno

/-!
# The mount table and `open`

`Vfs` maps mount points to file systems. `open(p)` looks `p` up as a mount
point, then each string-level parent of `p`, then the root; it strips the
mount point found from `p` and hands the rest to that file system's `open`
as an absolute path without checking that it is one.

The kernel mounts its ext2 root at `/` and `DevFs` at `/dev`. `DevFs::open`
resolves the components in a tree of nodes and expects a regular file; the
ext2 root resolves them through directory entries and stops with `todo!` at
`..` and below a file that is not a directory.
-/

namespace Muffin.KernelVfs

open Rust Str Abi

/-- `OpenError`. -/
inductive OpenError where
  | notFound
  deriving DecidableEq, Repr

/-- `MountError`. -/
inductive MountError where
  | alreadyMounted
  deriving DecidableEq, Repr

/-- `Vfs`: the `BTreeMap` from mount points to file systems, as its entries. -/
structure Vfs (F : Type) where
  fileSystems : List (Path × F)

namespace Vfs

variable {F : Type}

/-- `file_systems.get(p)`. -/
def get (vfs : Vfs F) (p : Path) : Option F := (vfs.fileSystems.find? (·.1 == p)).map (·.2)

/-- `Vfs::mount`. -/
def mount (vfs : Vfs F) (mountPoint : Path) (fs : F) : Except MountError (Vfs F) :=
  if (vfs.get mountPoint).isSome then .error .alreadyMounted
  else .ok ⟨vfs.fileSystems ++ [(mountPoint, fs)]⟩

/-- The loop of `find_mount` over the parents of `current`. Each parent of an absolute path is
    a shorter prefix of it, so `fuel` of the path's length is enough. -/
def findMountLoop (vfs : Vfs F) : Nat → Path → Except Panic (Option (Path × F))
  | 0, _ => pure ((vfs.get ROOT).map fun fs => (ROOT, fs))
  | fuel + 1, current => do
    match ← Path.parent current with
    | none => return (vfs.get ROOT).map fun fs => (ROOT, fs)
    | some parent =>
      match vfs.get parent with
      | some fs => return some (parent, fs)
      | none => findMountLoop vfs fuel parent

/-- `Vfs::find_mount`: the path itself, then its parents, then the root. -/
def findMount (vfs : Vfs F) (path : Path) : Except Panic (Option (Path × F)) :=
  match vfs.get path with
  | some fs => pure (some (path, fs))
  | none => findMountLoop vfs path.length path

/-- The first half of `Vfs::open`: the file system and the path it is handed. -/
def resolve (vfs : Vfs F) (path : Path) : Except Panic (Option (F × Path)) := do
  let some (mountPath, fs) ← findMount vfs path | return none
  if mountPath = ROOT then
    return some (fs, path)
  match Path.stripPrefix path mountPath with
  | some relative => return some (fs, relative)
  | none => throw ⟨"called `Option::unwrap()` on a `None` value"⟩

/-- `Vfs::open`, for file systems whose `open` is `openFs`. -/
def «open» {H : Type} (openFs : F → Path → Except Panic (Except OpenError H)) (vfs : Vfs F)
    (path : Path) : Except Panic (Except OpenError H) := do
  let some (fs, relative) ← resolve vfs path | return .error .notFound
  openFs fs relative

end Vfs

-- ---------------------------------------------------------------------------
-- DevFs
-- ---------------------------------------------------------------------------

/-- A `DevNode`: a named directory or a named device file. -/
inductive DevNode where
  | directory (name : Path) (children : List DevNode)
  | file (name : Path) (device : Nat)

/-- `DevNode::name`. -/
def DevNode.name : DevNode → Path
  | .directory name _ => name
  | .file name _ => name

/-- `ResolveError`. -/
inductive ResolveError where
  | parentNotDirectory
  | parentNotFound
  deriving DecidableEq, Repr

/-- One round of `resolve_node`'s loop: the child of a directory named `component`. -/
def DevNode.step (node : DevNode) (component : Path) : Except ResolveError DevNode :=
  match node with
  | .directory _ children =>
    match children.find? (·.name == component) with
    | some child => .ok child
    | none => .error .parentNotFound
  | .file _ _ => .error .parentNotDirectory

/-- `DevFs::resolve_node`. -/
def DevNode.resolve (root : DevNode) (path : Path) : Except Panic (Except ResolveError DevNode) :=
  (Path.filenames path).map fun components => components.foldlM DevNode.step root

/-- `DevFs::open`: the device of the regular file at `path`, and the message of its `expect`
    when the node is a directory. -/
def DevNode.«open» (root : DevNode) (path : Path) : Except Panic (Except OpenError Nat) := do
  match ← root.resolve path with
  | .error _ => return .error .notFound
  | .ok (.file _ device) => return .ok device
  | .ok (.directory _ _) =>
    throw ⟨"should be regular file, opening directories is not yet supported"⟩

-- ---------------------------------------------------------------------------
-- The ext2 root
-- ---------------------------------------------------------------------------

/-- The type of an ext2 inode, as far as `open` distinguishes it. -/
inductive InodeKind where
  | regularFile
  | directory
  | other
  deriving DecidableEq, Repr

/-- The directory tree of an ext2 image: the kind of each inode and the entries of each
    directory, by inode number. -/
structure Ext2Tree where
  kind : Nat → InodeKind
  entries : Nat → List (Path × Nat)

/-- `ROOT_DIR_INODE_ADDRESS`. -/
def ROOT_INODE : Nat := 2

/-- One round of `find_inode_from`'s loop: `none` once an entry is missing. -/
def Ext2Tree.step (tree : Ext2Tree) (current : Option Nat) (component : Path) :
    Except Panic (Option Nat) :=
  match current with
  | none => pure none
  | some inode =>
    if component = ['/'] then throw ⟨"not yet implemented: absolute path"⟩
    else if component = ['.'] then pure (some inode)
    else if component = ['.', '.'] then throw ⟨"not yet implemented: parent dir"⟩
    else if tree.kind inode ≠ .directory then throw ⟨"not yet implemented: symlink support"⟩
    else pure ((tree.entries inode).find? (·.1 == component) |>.map (·.2))

/-- `VirtualExt2Fs::open`: the inode at `path`, which must be a regular file or a directory. -/
def Ext2Tree.«open» (tree : Ext2Tree) (path : Path) : Except Panic (Except OpenError Nat) := do
  let components ← Path.filenames path
  match ← components.foldlM tree.step (some ROOT_INODE) with
  | none => return .error .notFound
  | some inode =>
    if tree.kind inode = .other then throw ⟨"called `Option::unwrap()` on a `None` value"⟩
    return .ok inode

/-- The file systems the kernel mounts. -/
inductive KernelFs where
  | ext2 (tree : Ext2Tree)
  | dev (root : DevNode)

/-- `FileSystem::open` of a kernel file system. -/
def KernelFs.«open» : KernelFs → Path → Except Panic (Except OpenError Nat)
  | .ext2 tree => tree.open
  | .dev root => root.open

/-- The mount table after boot: the ext2 root at `/` and `DevFs` at `/dev`. -/
def kernelVfs (tree : Ext2Tree) (devices : DevNode) : Vfs KernelFs :=
  ⟨[(['/', 'd', 'e', 'v'], .dev devices), (ROOT, .ext2 tree)]⟩

-- ---------------------------------------------------------------------------
-- sys_open
-- ---------------------------------------------------------------------------

/-- `PATH_MAX`. -/
def PATH_MAX : Nat := 4096

/-- `OwnedPath::push`: join with exactly one added separator. -/
def Path.push (p other : Path) : Path :=
  if p.getLast? ≠ some SEPARATOR then p ++ SEPARATOR :: other
  else if other.isEmpty then p ++ [SEPARATOR]
  else p ++ other

/-- The file descriptor `open` picks: one past each taken number met in order from 0. -/
def nextFd (fds : List Nat) : Nat := fds.foldl (fun acc fd => if acc = fd then acc + 1 else acc) 0

/-- `sys_open` in the kernel, from the decoded path on: the file descriptor number and the
    node it now refers to. `fds` are the taken numbers in order. -/
def sysOpen (vfs : Vfs KernelFs) (cwd : Path) (fds : List Nat) (path : Path) :
    Except Panic (Except Errno (Nat × Nat)) := do
  if PATH_MAX < byteLen path then
    return .error ENAMETOOLONG
  let path := if Path.isAbsolute path then path else cwd.push path
  match ← Vfs.open KernelFs.open vfs path with
  | .error _ => return .error ENOENT
  | .ok node => return .ok (nextFd fds, node)

-- ---------------------------------------------------------------------------
-- What `open` hands a file system
-- ---------------------------------------------------------------------------

theorem stripPrefix_self (p : Path) : Path.stripPrefix p p = some [] := by
  simp [Path.stripPrefix, Str.stripPrefix]

/-- Resolving a mount point other than `/` hands its file system the empty path: `strip_prefix`
    leaves nothing. -/
theorem resolve_mountPoint {F : Type} (vfs : Vfs F) {m : Path} {fs : F} (hroot : m ≠ ROOT)
    (hm : vfs.get m = some fs) : vfs.resolve m = .ok (some (fs, [])) := by
  unfold Vfs.resolve Vfs.findMount
  rw [hm]
  simp only [pure, bind, Except.bind, Except.pure, hroot, if_false, stripPrefix_self]

/-- `open` of a mount point other than `/` calls its file system's `open` on the empty path,
    which the unchecked `AbsolutePath` does not start with `/`. -/
theorem open_mountPoint_empty {F H : Type} (openFs : F → Path → Except Panic (Except OpenError H))
    (vfs : Vfs F) {m : Path} {fs : F} (hroot : m ≠ ROOT) (hm : vfs.get m = some fs) :
    vfs.open openFs m = openFs fs [] := by
  unfold Vfs.open
  rw [resolve_mountPoint vfs hroot hm]
  rfl

/-- After boot, `open("/dev")` hands `DevFs` the path `""`. -/
theorem kernelVfs_open_dev :
    ['/', 'd', 'e', 'v'] ≠ ROOT ∧
      (kernelVfs ⟨fun _ => .directory, fun _ => []⟩ (.directory [] [])).get ['/', 'd', 'e', 'v'] =
        some (.dev (.directory [] [])) ∧
      (kernelVfs ⟨fun _ => .directory, fun _ => []⟩ (.directory [] [])).open KernelFs.open
        ['/', 'd', 'e', 'v'] = KernelFs.open (.dev (.directory [] [])) [] :=
  ⟨by decide, rfl, open_mountPoint_empty KernelFs.open _ (by decide) rfl⟩

-- ---------------------------------------------------------------------------
-- A name that ends in a multi-byte character
-- ---------------------------------------------------------------------------

/-- `find_mount` of a path that is no mount point and ends in a multi-byte character panics in
    the first `parent`. -/
theorem findMount_multibyte {F : Type} (vfs : Vfs F) {s : Path} {c : Char} (hc : c ≠ SEPARATOR)
    (hsize : 1 < c.utf8Size) (hget : vfs.get (s ++ [c]) = none) :
    vfs.findMount (s ++ [c]) = .error ⟨NOT_A_CHAR_BOUNDARY⟩ := by
  obtain ⟨n, hn⟩ : ∃ n, (s ++ [c]).length = n + 1 := ⟨s.length, by simp⟩
  unfold Vfs.findMount
  rw [hget]
  simp only [hn, Vfs.findMountLoop, Path.parent_multibyte hc hsize]
  rfl

/-- `open` of an absolute path that ends in a multi-byte character and is no mount point panics
    the kernel, whatever the mount table and the file systems. -/
theorem sysOpen_multibyte_panics (vfs : Vfs KernelFs) (cwd : Path) (fds : List Nat) {s : Path}
    {c : Char} (hc : c ≠ SEPARATOR) (hsize : 1 < c.utf8Size)
    (hlen : byteLen (SEPARATOR :: s ++ [c]) ≤ PATH_MAX) (hget : vfs.get (SEPARATOR :: s ++ [c]) = none) :
    sysOpen vfs cwd fds (SEPARATOR :: s ++ [c]) = .error ⟨NOT_A_CHAR_BOUNDARY⟩ := by
  have habs : Path.isAbsolute (SEPARATOR :: s ++ [c]) = true := by simp [Path.isAbsolute]
  have hfind := @findMount_multibyte _ vfs (SEPARATOR :: s) c hc hsize hget
  unfold sysOpen
  simp only [if_neg (Nat.not_lt.2 hlen), habs, if_true]
  simp only [Vfs.open, Vfs.resolve, hfind]
  rfl

/-- `open("/é")` after boot. -/
theorem open_e_acute_panics :
    'é' ≠ SEPARATOR ∧ 1 < 'é'.utf8Size ∧ byteLen [SEPARATOR, 'é'] ≤ PATH_MAX ∧
      sysOpen (kernelVfs ⟨fun _ => .directory, fun _ => []⟩ (.directory [] [])) ROOT [0, 1, 2]
        [SEPARATOR, 'é'] = .error ⟨NOT_A_CHAR_BOUNDARY⟩ :=
  ⟨by decide, by decide, by decide,
    @sysOpen_multibyte_panics _ ROOT [0, 1, 2] [] 'é' (by decide) (by decide) (by decide) rfl⟩

end Muffin.KernelVfs
