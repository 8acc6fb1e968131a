import CatOs.Net.Tcp.Conn
import Mathlib.Data.Fin.Tuple.Basic

/-! The descriptor table: descriptors as pointers into storage that has one place per number. -/

namespace CatOs.Vfs

def vfsMaxFd : Nat := 32

def fatOpenMax : Nat := 8

abbrev Path := List Char

def nodes : List Path :=
  ["/dev/null".toList, "/dev/console".toList, "/dev/kbd".toList, "/dev/zero".toList,
    "/dev/urandom".toList]

def mountPoint : Path := "/mnt/fat/".toList

inductive Inode where
  | node (i : Nat)
  | blk (i : Nat)
  | fattpl
  deriving DecidableEq, Repr

inductive FileKind where
  | vfs
  | socket
  deriving DecidableEq, Repr

inductive Private where
  | null
  | fatfh (slot : Fin fatOpenMax)
  | sock (address : Nat)
  deriving DecidableEq, Repr

structure File where
  inode : Option Inode
  pos : Word
  flags : Word
  kind : FileKind
  priv : Private
  deriving DecidableEq, Repr

structure FatFh (δ : Type) where
  used : Bool
  de : δ

/--
The descriptor table, the storage it points into, and the handles of the volume.

Directory entries are left abstract, since the table only copies them.
-/
structure Table (δ : Type) where
  fds : Fin vfsMaxFd → Option (Fin vfsMaxFd)
  fs : Fin vfsMaxFd → File
  fatfh : Fin fatOpenMax → FatFh δ

structure Volume (δ : Type) where
  blks : List Path
  mounted : Bool
  lookup : Path → Option δ

variable {δ : Type}

def fdIndex (fd : Int) : Option (Fin vfsMaxFd) :=
  if h : 0 ≤ fd ∧ fd < vfsMaxFd then some ⟨fd.toNat, (Int.toNat_lt h.1).mpr h.2⟩ else none

@[irreducible] def lowestFree (t : Table δ) : Option (Fin vfsMaxFd) :=
  Fin.find? fun fd => (t.fds fd).isNone

@[irreducible] def freeFatfh (t : Table δ) : Option (Fin fatOpenMax) :=
  Fin.find? fun slot => !(t.fatfh slot).used

def Table.install (t : Table δ) (fd : Fin vfsMaxFd) (file : File) : Table δ :=
  { t with
    fs := Function.update t.fs fd file
    fds := Function.update t.fds fd (some fd) }

@[simp] theorem Table.install_fds (t : Table δ) (fd : Fin vfsMaxFd) (file : File) :
    (t.install fd file).fds = Function.update t.fds fd (some fd) := rfl

def vfsFdAlloc (t : Table δ) (kind : FileKind) (fl : Word) (ino : Option Inode)
    (priv : Private) : Table δ × Int :=
  match lowestFree t with
  | some fd => (t.install fd { inode := ino, pos := 0, flags := fl, kind := kind, priv := priv }, fd)
  | none => (t, -1)

def Table.setUsed (t : Table δ) (slot : Fin fatOpenMax) (used : Bool) : Table δ :=
  { t with fatfh := Function.update t.fatfh slot { t.fatfh slot with used := used } }

def Table.fillFatfh (t : Table δ) (slot : Fin fatOpenMax) (de : δ) : Table δ :=
  { t with fatfh := Function.update t.fatfh slot { used := true, de := de } }

def belowMount (p : Path) : Option Path :=
  if mountPoint.isPrefixOf p then some (p.drop mountPoint.length) else none

def openFat (volume : Volume δ) (t : Table δ) (rest : Path) (fl : Word) : Table δ × Int :=
  match freeFatfh t, volume.lookup rest with
  | some slot, some de =>
    let (opened, fd) := vfsFdAlloc (t.fillFatfh slot de) .vfs fl (some .fattpl) (.fatfh slot)
    -- Without a free descriptor the handle is given back.
    if fd ≥ 0 then (opened, fd) else (opened.setUsed slot false, -1)
  | _, _ => (t, -1)

def vfsOpen (volume : Volume δ) (t : Table δ) (p : Path) (fl : Word) : Table δ × Int :=
  match nodes.findIdx? (· = p) with
  | some i => vfsFdAlloc t .vfs fl (some (.node i)) .null
  | none =>
    match volume.blks.findIdx? (· = p) with
    | some i => vfsFdAlloc t .vfs fl (some (.blk i)) .null
    | none =>
      if volume.mounted then
        match belowMount p with
        | some rest => openFat volume t rest fl
        | none => (t, -1)
      else (t, -1)

def closeHook (t : Table δ) (file : File) : Table δ :=
  match file.inode, file.priv with
  | some .fattpl, .fatfh slot => t.setUsed slot false
  | _, _ => t

def Table.clear (t : Table δ) (fd : Fin vfsMaxFd) : Table δ :=
  { t with fds := Function.update t.fds fd none }

@[simp] theorem Table.clear_fds (t : Table δ) (fd : Fin vfsMaxFd) :
    (t.clear fd).fds = Function.update t.fds fd none := rfl

def vfsClose (t : Table δ) (fd : Int) : Table δ × Int :=
  match fdIndex fd with
  | none => (t, -9)
  | some i =>
    match t.fds i with
    | none => (t, -9)
    | some k =>
      if (t.fs k).kind ≠ .vfs then (t, -9)
      else ((closeHook t (t.fs k)).clear i, 0)

def vfsSocketInstall (t : Table δ) (sock : Nat) : Table δ × Int :=
  let (installed, fd) := vfsFdAlloc t .socket 2 none (.sock sock)
  (installed, if fd < 0 then -24 else fd)

def vfsSocketGet (t : Table δ) (fd : Int) : Nat :=
  match (fdIndex fd).bind t.fds with
  | some k =>
    match (t.fs k).kind, (t.fs k).priv with
    | .socket, .sock address => address
    | _, _ => 0
  | none => 0

def vfsSocketClose (t : Table δ) (fd : Int) : Table δ × Int :=
  if vfsSocketGet t fd = 0 then (t, -9)
  else
    match fdIndex fd with
    | some i => (t.clear i, 0)
    | none => (t, -9)

def dropForDup (t : Table δ) (new : Fin vfsMaxFd) : Table δ :=
  match t.fds new with
  | none => t
  | some k => (if (t.fs k).kind = .vfs then closeHook t (t.fs k) else t).clear new

def vfsDup2 (t : Table δ) (oldfd newfd : Int) : Table δ × Int :=
  match fdIndex oldfd with
  | none => (t, -9)
  | some old =>
    match t.fds old, fdIndex newfd with
    | some k, some new =>
      if oldfd = newfd then (t, newfd)
      else
        let dropped := dropForDup t new
        ({ dropped with fds := Function.update dropped.fds new (some k) }, newfd)
    | _, _ => (t, -9)

inductive VfsOp where
  | open (p : Path) (fl : Word)
  | close (fd : Int)
  | dup2 (oldfd newfd : Int)
  | socketInstall (sock : Nat)
  | socketClose (fd : Int)
  deriving DecidableEq, Repr

def vfsCall (volume : Volume δ) (op : VfsOp) (t : Table δ) : Table δ × Int :=
  match op with
  | .open p fl => vfsOpen volume t p fl
  | .close fd => vfsClose t fd
  | .dup2 oldfd newfd => vfsDup2 t oldfd newfd
  | .socketInstall sock => vfsSocketInstall t sock
  | .socketClose fd => vfsSocketClose t fd

end CatOs.Vfs
