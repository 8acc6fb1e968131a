import CatOs.Lib.Buffer
import CatOs.Lib.Word

/-! The read-only file system: mounting, the cached allocation table, directories and files. -/

namespace CatOs.Fat16

abbrev Sector := Buffer UInt8

abbrev Disk := Word → Option Sector

def sectorSize : Nat := 512

def attrLfn : UInt8 := 0x0F

def attrVolume : BitVec 8 := 0x08

def attrDir : BitVec 8 := 0x10

def fatEofMin : Nat := 0xFFF8

def fatBad : Nat := 0xFFF7

def le16 (bytes : Buffer UInt8) (start : Nat) : Nat :=
  (bytes start).toNat + 256 * (bytes (start + 1)).toNat

def le32 (bytes : Buffer UInt8) (start : Nat) : Nat :=
  le16 bytes start + 65536 * le16 bytes (start + 2)

structure Fat16Mnt where
  /-- The first sector of the volume. -/
  base : Word
  /-- Sectors of a cluster. -/
  spc : Nat
  fatsz : Nat
  rootents : Nat
  totsec : Nat
  fatLba : Nat
  rootLba : Nat
  dataLba : Nat
  nclusters : Nat
  spc_pos : 0 < spc
  fat_le : fatLba + fatsz ≤ rootLba
  root_le : rootLba + (rootents * 32 + 511) / 512 ≤ dataLba
  data_lt : dataLba < totsec
  nclusters_eq : nclusters = (totsec - dataLba) / spc
  nclusters_lt : nclusters < 65525
  deriving DecidableEq

structure Fat16Dirent where
  name : List UInt8
  attr : BitVec 8
  size : Nat
  cluster : Nat
  deriving DecidableEq, Repr

def Fat16Dirent.isDir (d : Fat16Dirent) : Bool := hasFlag d.attr attrDir

section Access

inductive Access where
  /-- The entry of a cluster in the allocation table. -/
  | fat (clu : Nat)
  /-- An entry of the root directory. -/
  | root (idx : Nat)
  /-- A sector of a cluster. -/
  | data (clu sidx : Nat)
  deriving DecidableEq, Repr

def Access.lba (m : Fat16Mnt) : Access → Nat
  | .fat clu => m.fatLba + clu * 2 / sectorSize
  | .root idx => m.rootLba + idx / 16
  | .data clu sidx => m.dataLba + (clu - 2) * m.spc + sidx

end Access

section Cache

def fcSlots : Nat := 64

structure FcEnt where
  sec : Nat
  tick : Word
  valid : Bool
  data : Sector

structure FatCache where
  fcache : Buffer FcEnt
  ftick : Word
  reads : List Access

def coldCache : FatCache :=
  { fcache := fun _ => { sec := 0, tick := 0, valid := false, data := fun _ => 0 }
    ftick := 0, reads := [] }

def FatCache.note (fc : FatCache) (a : Access) : FatCache := { fc with reads := fc.reads ++ [a] }

inductive CacheSlot where
  | hit (i : Nat)
  | victim (i : Nat)
  deriving DecidableEq, Repr

def searchCache (fcache : Buffer FcEnt) (rel : Nat) : Nat → Nat → Word → Option Nat → CacheSlot
  | 0, _, _, victim => .victim (victim.getD 0)
  | left + 1, i, oldest, victim =>
    let c := fcache i
    if c.valid ∧ c.sec = rel then .hit i
    -- An empty slot is taken at once.
    else if !c.valid then .victim i
    else if c.tick < oldest then searchCache fcache rel left (i + 1) c.tick (some i)
    else searchCache fcache rel left (i + 1) oldest victim

variable (disk : Disk) (m : Fat16Mnt)

def Fat16Mnt.sector (lba : Nat) : Option Sector := disk (m.base + BitVec.ofNat 32 lba)

def fatSector (rel : Nat) (fc : FatCache) : FatCache × Option Sector :=
  match searchCache fc.fcache rel fcSlots 0 0xFFFFFFFF none with
  | .hit i =>
    ({ fc with
        fcache := Function.update fc.fcache i { fc.fcache i with tick := fc.ftick + 1 }
        ftick := fc.ftick + 1 }, some (fc.fcache i).data)
  | .victim i =>
    match m.sector disk (m.fatLba + rel) with
    | none => (fc, none)
    | some sector =>
      ({ fc with
          fcache := Function.update fc.fcache i
            { sec := rel, tick := fc.ftick + 1, valid := true, data := sector }
          ftick := fc.ftick + 1 }, some sector)

def outOfRange (clu : Nat) : Bool := clu < 2 ∨ clu = fatBad ∨ clu ≥ fatEofMin

def fatNext (clu : Nat) (fc : FatCache) : FatCache × Nat :=
  if outOfRange clu then (fc, fatEofMin)
  else
    match fatSector disk m (clu * 2 / sectorSize) (fc.note (.fat clu)) with
    | (fc, some sector) => (fc, le16 sector (clu * 2 % sectorSize))
    | (fc, none) => (fc, fatEofMin)

def skipClusters : Nat → Nat → FatCache → FatCache × Option Nat
  | 0, c, fc => (fc, some c)
  | s + 1, c, fc =>
    let (fc, c) := fatNext disk m c fc
    if c < 2 ∨ c ≥ fatEofMin then (fc, none) else skipClusters s c fc

end Cache

section Mount

def rootReadable (disk : Disk) (m : Fat16Mnt) : Nat → Nat → Bool
  | 0, _ => true
  | left + 1, i =>
    match m.sector disk ((Access.root i).lba m) with
    | none => false
    | some sector => if sector (i % 16 * 32) = 0 then true else rootReadable disk m left (i + 1)

def bpbVolume (partLba : Word) (bs : Sector) : Option Fat16Mnt :=
  let bps := le16 bs 11
  let spc := (bs 13).toNat
  let reserved := le16 bs 14
  let nfats := (bs 16).toNat
  let rootents := le16 bs 17
  let totsec := if le16 bs 19 ≠ 0 then le16 bs 19 else le32 bs 32
  let fatsz := le16 bs 22
  let rootLba := reserved + nfats * fatsz
  let dataLba := rootLba + (rootents * 32 + 511) / 512
  let nclusters := (totsec - dataLba) / spc
  if bs 510 ≠ 0x55 ∨ bs 511 ≠ 0xAA then none
  else if bps ≠ 512 then none
  else if shape : spc = 0 ∨ spc > 128 ∨ spc &&& (spc - 1) ≠ 0 then none
  else if fats : reserved < 1 ∨ nfats < 1 ∨ nfats > 4 ∨ fatsz = 0 then none
  else if rootents = 0 then none
  else if totsec = 0 then none
  else if small : totsec ≤ dataLba then none
  else if range : nclusters < 1 ∨ nclusters ≥ 65525 then none
  else some
    { base := partLba, spc := spc, fatsz := fatsz, rootents := rootents, totsec := totsec
      fatLba := reserved, rootLba := rootLba, dataLba := dataLba, nclusters := nclusters
      spc_pos := Nat.pos_of_ne_zero fun zero => shape (.inl zero)
      fat_le := Nat.add_le_add_left (Nat.le_mul_of_pos_left _
        (Nat.not_lt.mp fun none => fats (.inr (.inl none)))) _
      root_le := Nat.le_refl _, data_lt := Nat.not_le.mp small, nclusters_eq := rfl
      nclusters_lt := Nat.not_le.mp fun many => range (.inr many) }

def fat16Mount (disk : Disk) (partLba : Word) : Option (Fat16Mnt × FatCache) :=
  match disk partLba with
  | none => none
  | some bs =>
    match bpbVolume partLba bs with
    | none => none
    | some m => if rootReadable disk m m.rootents 0 then some (m, coldCache) else none

end Mount

section Directory

inductive Dir where
  | root
  | sub (dclu : Nat)
  deriving DecidableEq, Repr

inductive DirRaw where
  | failed
  | past
  | entry (raw : Buffer UInt8)

variable (disk : Disk) (m : Fat16Mnt)

def rdSec (a : Access) (fc : FatCache) : FatCache × Option Sector :=
  (fc.note a, m.sector disk (a.lba m))

def readEntry (a : Access) (off : Nat) (fc : FatCache) : FatCache × DirRaw :=
  match rdSec disk m a fc with
  | (fc, none) => (fc, .failed)
  | (fc, some sector) => (fc, .entry fun i => sector (off + i))

def dirRaw (dir : Dir) (idx : Nat) (fc : FatCache) : FatCache × DirRaw :=
  match dir with
  | .root =>
    if idx ≥ m.rootents then (fc, .past) else readEntry disk m (.root idx) (idx % 16 * 32) fc
  | .sub dclu =>
    let per := m.spc * 16
    if dclu < 2 then (fc, .past)
    else
      match skipClusters disk m (idx / per) dclu fc with
      | (fc, none) => (fc, .past)
      | (fc, some c) =>
        readEntry disk m (.data c (idx % per * 32 / sectorSize)) (idx % per * 32 % sectorSize) fc

def fmt83 (r : Buffer UInt8) : List UInt8 :=
  (r.read 0 8).takeWhile (· ≠ 0x20) ++
    if r 8 ≠ 0x20 then 0x2E :: (r.read 8 3).takeWhile (· ≠ 0x20) else []

def up (c : UInt8) : UInt8 := if 0x61 ≤ c ∧ c ≤ 0x7A then c - 32 else c

def cstr (bytes : List UInt8) : List UInt8 := bytes.takeWhile (· ≠ 0)

def nameq (a b : List UInt8) : Bool := (cstr a).map up = (cstr b).map up

def deFill (r : Buffer UInt8) : Fat16Dirent × Bool :=
  ({ name := fmt83 r, attr := (r 11).toBitVec, size := le32 r 28, cluster := le16 r 26 },
    r 0 ≠ 0xE5 ∧ r 11 ≠ attrLfn)

def visible (r : Buffer UInt8) : Option Fat16Dirent :=
  let (d, kept) := deFill r
  if kept ∧ !hasFlag d.attr attrVolume then some d else none

def rootEnumFrom (want : Nat) : Nat → Nat → Nat → FatCache → FatCache × Except Int Fat16Dirent
  | 0, _, _, fc => (fc, .error (-2))
  | left + 1, i, hit, fc =>
    match dirRaw disk m .root i fc with
    | (fc, .failed) => (fc, .error (-1))
    | (fc, .past) => (fc, .error (-2))
    | (fc, .entry r) =>
      if r 0 = 0 then (fc, .error (-2))
      else
        match visible r with
        | none => rootEnumFrom want left (i + 1) hit fc
        | some d =>
          if d.isDir then rootEnumFrom want left (i + 1) hit fc
          else if hit = want then (fc, .ok d)
          else rootEnumFrom want left (i + 1) (hit + 1) fc

def fat16RootEnum (idx : Int) (fc : FatCache) : FatCache × Except Int Fat16Dirent :=
  if idx < 0 then (fc, .error (-1)) else rootEnumFrom disk m idx.toNat m.rootents 0 0 fc

inductive Scan where
  | failed
  | missing
  | hit (d : Fat16Dirent)
  deriving DecidableEq, Repr

def lookAt (seg : List UInt8) : DirRaw → Option Scan
  | .failed => some .failed
  | .past => some .missing
  | .entry r =>
    if r 0 = 0 then some .missing
    else
      match visible r with
      | none => none
      | some d => if nameq seg d.name then some (.hit d) else none

def scanDir (dir : Dir) (seg : List UInt8) : Nat → Word → FatCache → FatCache × Option Scan
  | 0, _, fc => (fc, none)
  | fuel + 1, i, fc =>
    match dirRaw disk m dir i.toNat fc with
    | (fc, raw) =>
      match lookAt seg raw with
      | some found => (fc, some found)
      | none => scanDir dir seg fuel (i + 1) fc

def slash : UInt8 := 0x2F

def dropSlashes (p : List UInt8) : List UInt8 := p.dropWhile (· = slash)

def nextSeg (p : List UInt8) : List UInt8 := (dropSlashes p).takeWhile (· ≠ slash)

def afterSeg (p : List UInt8) : List UInt8 := (dropSlashes p).dropWhile (· ≠ slash)

inductive Turn where
  | done (result : Except Int Fat16Dirent)
  | down (dclu : Nat)
  deriving DecidableEq

def turnAt (d : Fat16Dirent) (rest : List UInt8) : Turn :=
  if dropSlashes rest ≠ [] then
    if d.isDir then .down d.cluster else .done (.error (-3))
  -- A file may not be followed by a separator.
  else if rest ≠ [] ∧ !d.isDir then .done (.error (-3))
  else .done (.ok d)

/--
Resolve a path from a directory on, with at most a number of positions looked at in each one.

Every name takes a byte of the path at least, so that none is left when the bound is zero.
-/
def lookupFrom (fuel : Nat) :
    Nat → Dir → List UInt8 → FatCache → FatCache × Option (Except Int Fat16Dirent)
  | 0, _, _, fc => (fc, some (.error (-2)))
  | n + 1, dir, p, fc =>
    if dropSlashes p = [] then (fc, some (.error (-2)))
    else if (nextSeg p).length > 12 then (fc, some (.error (-4)))
    else
      match scanDir disk m dir (nextSeg p) fuel 0 fc with
      | (fc, none) => (fc, none)
      | (fc, some .failed) => (fc, some (.error (-1)))
      | (fc, some .missing) => (fc, some (.error (-2)))
      | (fc, some (.hit d)) =>
        match turnAt d (afterSeg p) with
        | .done result => (fc, some result)
        | .down dclu => lookupFrom fuel n (.sub dclu) (dropSlashes (afterSeg p)) fc

def fat16Lookup (fuel : Nat) (path : List UInt8) (fc : FatCache) :
    FatCache × Option (Except Int Fat16Dirent) :=
  lookupFrom disk m fuel (cstr path).length .root (cstr path) fc

end Directory

section Read

variable (disk : Disk) (m : Fat16Mnt)

def Fat16Mnt.cbytes : Nat := m.spc * sectorSize

structure ReadState where
  out : List UInt8
  rem : Nat
  pin : Nat

def ReadState.part (st : ReadState) : Nat :=
  if sectorSize - st.pin % sectorSize > st.rem then st.rem else sectorSize - st.pin % sectorSize

def ReadState.take (st : ReadState) (sector : Sector) : ReadState :=
  -- A whole sector goes straight to its place, and a part of one through a buffer.
  { out := st.out ++ sector.read (st.pin % sectorSize) st.part
    rem := st.rem - st.part
    pin := if st.pin + st.part ≥ m.cbytes then 0 else st.pin + st.part }

def readCluster (c : Nat) : Nat → ReadState → FatCache → FatCache × ReadState × Bool
  | 0, st, fc => (fc, st, true)
  | fuel + 1, st, fc =>
    if st.rem ≠ 0 ∧ st.pin < m.cbytes then
      match rdSec disk m (.data c (st.pin / sectorSize)) fc with
      | (fc, none) => (fc, st, false)
      | (fc, some sector) => readCluster c fuel (st.take m sector) fc
    else (fc, st, true)

def asInt (len : Nat) : Int := (BitVec.ofNat 32 len).toInt

structure ReadResult where
  out : List UInt8
  ret : Int
  deriving DecidableEq

def readChain (len : Nat) : Nat → Nat → ReadState → FatCache → FatCache × Option ReadResult
  | 0, _, _, fc => (fc, none)
  | fuel + 1, c, st, fc =>
    if st.rem = 0 then (fc, some { out := st.out, ret := asInt len })
    else if outOfRange c then
      (fc, some { out := st.out, ret := if st.rem < len then -1 else asInt (len - st.rem) })
    else
      match readCluster disk m c st.rem st fc with
      | (fc, st, false) => (fc, some { out := st.out, ret := -1 })
      | (fc, st, true) =>
        let (fc, c) := fatNext disk m c fc
        readChain len fuel c { st with pin := 0 } fc

def fat16ReadFile (de : Fat16Dirent) (off len : Nat) (fc : FatCache) :
    FatCache × Option ReadResult :=
  if de.isDir then (fc, some { out := [], ret := -1 })
  else if off ≥ de.size ∨ len = 0 then (fc, some { out := [], ret := 0 })
  else
    let len := if len > de.size - off then de.size - off else len
    match skipClusters disk m (off / m.cbytes) de.cluster fc with
    | (fc, none) => (fc, some { out := [], ret := -1 })
    | (fc, some c) =>
      readChain disk m len (len + 1) c { out := [], rem := len, pin := off % m.cbytes } fc

end Read

end CatOs.Fat16
