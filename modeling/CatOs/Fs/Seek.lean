import CatOs.Fs.FatCache
import CatOs.Fs.Vfs

/-! The position of a descriptor on a file of the volume: seeking, reading, and the size. -/

namespace CatOs.Vfs

open Fat16

def Inode.isChr : Inode → Bool
  | .node _ => true
  | _ => false

def Inode.size (_ : Inode) : Word := 0

inductive Whence where
  | set
  | cur
  | eof
  deriving DecidableEq, Repr

def vfsFstat (t : Table Fat16Dirent) (fd : Int) : Option Nat :=
  match (fdIndex fd).bind t.fds with
  | none => none
  | some k =>
    match (t.fs k).kind, (t.fs k).inode, (t.fs k).priv with
    | .vfs, some ino, .fatfh slot =>
      some (if ino.size = 0 then (t.fatfh slot).de.size else ino.size.toNat)
    | .vfs, some ino, _ => some ino.size.toNat
    | _, _, _ => some 0

def Table.setPos (t : Table Fat16Dirent) (k : Fin vfsMaxFd) (pos : Word) : Table Fat16Dirent :=
  { t with fs := Function.update t.fs k { t.fs k with pos := pos } }

def vfsLseek (t : Table Fat16Dirent) (fd : Int) (offset : Word) (whence : Whence) :
    Table Fat16Dirent × Int :=
  match (fdIndex fd).bind t.fds with
  | none => (t, -9)
  | some k =>
    if (t.fs k).kind = .socket then (t, -29)
    else
      match (t.fs k).inode with
      | none => (t, -9)
      | some ino =>
        if ino.isChr then (t, -29)
        else
          let newpos :=
            match whence with
            | .set => offset
            | .cur => (t.fs k).pos + offset
            | .eof => ino.size + offset
          -- A position counted from the end is not checked.
          if whence ≠ .eof ∧ newpos.toInt < 0 then (t, -22)
          else (t.setPos k newpos, newpos.toInt)

section Files

variable (disk : Disk) (m : Fat16Mnt)

def fatRead (t : Table Fat16Dirent) (k : Fin vfsMaxFd) (n : Nat) (fc : FatCache) :
    Table Fat16Dirent × FatCache × Option ReadResult :=
  match (t.fs k).priv with
  | .fatfh slot =>
    let (fc, result) := fat16ReadFile disk m (t.fatfh slot).de (t.fs k).pos.toNat n fc
    match result with
    | some r =>
      if r.ret > 0 then (t.setPos k ((t.fs k).pos + BitVec.ofInt 32 r.ret), fc, result)
      else (t, fc, result)
    | none => (t, fc, none)
  | _ => (t, fc, some { out := [], ret := -9 })

inductive FileOp where
  | lseek (offset : Word) (whence : Whence)
  | read (n : Nat)
  deriving DecidableEq, Repr

def fileStep (fd : Int) (k : Fin vfsMaxFd) (op : FileOp) (st : Table Fat16Dirent × FatCache) :
    Table Fat16Dirent × FatCache :=
  match op with
  | .lseek offset whence => ((vfsLseek st.1 fd offset whence).1, st.2)
  | .read n => ((fatRead disk m st.1 k n st.2).1, (fatRead disk m st.1 k n st.2).2.1)

def Whence.base (pos size : Nat) : Whence → Nat
  | .set => 0
  | .cur => pos
  | .eof => size

/--
A call does what the files of the standard do.

A seek goes to the position it names if there is such a position, and fails otherwise with the
position as it was. A read of at least a byte is one at the position, and returns nothing exactly
at the end.
-/
def Standard (fd : Int) (k : Fin vfsMaxFd) (op : FileOp) (st : Table Fat16Dirent × FatCache) :
    Prop :=
  ∀ slot, (st.1.fs k).priv = .fatfh slot →
    let de := (st.1.fatfh slot).de
    let pos := (st.1.fs k).pos.toNat
    match op with
    | .lseek offset whence =>
      let after := vfsLseek st.1 fd offset whence
      let target : Int := whence.base pos de.size + offset.toInt
      if 0 ≤ target ∧ target < 2147483648 then
        after.2 = target ∧ ((after.1.fs k).pos.toNat : Int) = target
      else after.2 < 0 ∧ (after.1.fs k).pos.toNat = pos
    | .read n =>
      let result := (fatRead disk m st.1 k n st.2).2.2
      result = (fat16ReadFile disk m de pos n st.2).2 ∧
        (0 < n → ∃ r, result = some r ∧ (r.ret = 0 ↔ de.size ≤ pos))

/--
A call that does not meet what the code gets wrong.

The end is the one of an empty file, and is not gone back from. A read finds a cluster of the file
where it starts.
-/
def Meets (k : Fin vfsMaxFd) (op : FileOp) (st : Table Fat16Dirent × FatCache) : Prop :=
  ∀ slot, (st.1.fs k).priv = .fatfh slot →
    let de := (st.1.fatfh slot).de
    let pos := (st.1.fs k).pos.toNat
    match op with
    | .lseek offset whence => whence = .eof → de.size = 0 ∧ 0 ≤ offset.toInt
    | .read n => 0 < n → pos < de.size →
        ∀ c, (skipClusters disk m (pos / m.cbytes) de.cluster st.2).2 = some c → ¬outOfRange c

structure OnFile (fd : Int) (k : Fin vfsMaxFd) (slot : Fin fatOpenMax)
    (st : Table Fat16Dirent × FatCache) : Prop where
  refers : (fdIndex fd).bind st.1.fds = some k
  kind : (st.1.fs k).kind = .vfs
  inode : (st.1.fs k).inode = some .fattpl
  priv : (st.1.fs k).priv = .fatfh slot
  file : (st.1.fatfh slot).de.isDir = false
  small : (st.1.fatfh slot).de.size < 2147483648
  pos : (st.1.fs k).pos.toNat < 2147483648

end Files

section Laws

variable {disk : Disk} {m : Fat16Mnt}

theorem readCluster_rem (c fuel : Nat) {rd last : ReadState} {fc after : FatCache}
    (enough : rd.rem ≤ fuel) (inside : rd.pin < m.cbytes)
    (done : readCluster disk m c fuel rd fc = (after, last, true)) : last.rem = 0 := by
  -- Every sector contributes a byte, and behind the last one the position starts again.
  induction fuel generalizing rd fc with
  | zero =>
    cases done
    omega
  | succ fuel ih =>
    by_cases none : rd.rem = 0
    · simp only [readCluster, none, ne_eq, not_true_eq_false, false_and, if_false] at done
      cases done
      exact none
    · simp only [readCluster, ne_eq, none, not_false_eq_true, inside, and_self, if_true] at done
      cases read : (rdSec disk m (.data c (rd.pin / sectorSize)) fc).2 with
      | none =>
        rw [← Prod.eta (rdSec disk m _ fc), read] at done
        cases done
      | some sector =>
        rw [← Prod.eta (rdSec disk m _ fc), read] at done
        refine ih ?_ ?_ done
        · have room := Nat.mod_lt rd.pin (by decide : 0 < sectorSize)
          simp only [ReadState.take, ReadState.part]
          split <;> omega
        · simp only [ReadState.take]
          split <;> omega

theorem fat16ReadFile_zero {de : Fat16Dirent} (file : de.isDir = false)
    (small : de.size < 2147483648) {pos n : Nat} (some_ : 0 < n) (before : pos < de.size)
    (fc : FatCache) :
    ∃ r, (fat16ReadFile disk m de pos n fc).2 = some r ∧ (r.ret = 0 ↔
      ∃ c, (skipClusters disk m (pos / m.cbytes) de.cluster fc).2 = some c ∧ outOfRange c) ∧
      r.ret ≤ de.size - pos := by
  obtain ⟨len, positive, short, length⟩ : ∃ len, 0 < len ∧ len ≤ de.size - pos ∧
      len = if n > de.size - pos then de.size - pos else n :=
    ⟨_, by split <;> omega, by split <;> omega, rfl⟩
  have value : asInt len = len := by
    simp only [asInt, BitVec.toInt_eq_toNat_cond, BitVec.toNat_ofNat]
    omega
  have start : ¬(pos ≥ de.size ∨ n = 0) := by omega
  have size : 0 < m.cbytes := Nat.mul_pos m.spc_pos (by decide)
  simp only [fat16ReadFile, file, Bool.false_eq_true, if_false, if_neg start, ← length]
  generalize skipClusters disk m (pos / m.cbytes) de.cluster fc = skipped
  obtain ⟨after, found⟩ := skipped
  cases found with
  | none => exact ⟨_, rfl, by simp, by dsimp only; omega⟩
  | some c =>
    have todo : ¬len = 0 := by omega
    simp only [readChain, todo, if_false, Option.some.injEq, exists_eq_left']
    by_cases out : outOfRange c = true
    · simp only [out, if_true]
      exact ⟨_, rfl, by simp [asInt], by simp [asInt]; omega⟩
    · simp only [out, Bool.false_eq_true, if_false]
      generalize read : readCluster disk m c len _ after = result
      obtain ⟨after', last, ok⟩ := result
      cases ok with
      | false => exact ⟨_, rfl, by simp, by dsimp only; omega⟩
      | true =>
        have rem := readCluster_rem c len (Nat.le_refl len) (Nat.mod_lt _ size) read
        obtain ⟨more, rfl⟩ := Nat.exists_eq_succ_of_ne_zero todo
        simp only [readChain, rem, if_true]
        exact ⟨_, rfl, by simp only [value, iff_false]; omega, by simp only [value]; omega⟩

theorem fat16ReadFile_le {de : Fat16Dirent} (file : de.isDir = false)
    (small : de.size < 2147483648) {pos n : Nat} {fc : FatCache} {r : ReadResult}
    (result : (fat16ReadFile disk m de pos n fc).2 = some r) (some_ : r.ret > 0) :
    r.ret ≤ de.size - pos := by
  by_cases start : pos ≥ de.size ∨ n = 0
  · simp only [fat16ReadFile, file, Bool.false_eq_true, if_false, if_pos start] at result
    cases result
    exact absurd some_ (by decide)
  · obtain ⟨r', same, -, room⟩ := @fat16ReadFile_zero disk m de file small pos n (by omega)
      (by omega) fc
    cases result.symm.trans same
    exact room

variable {fd : Int} {k : Fin vfsMaxFd} {slot : Fin fatOpenMax} {st : Table Fat16Dirent × FatCache}

theorem fs_setPos (t : Table Fat16Dirent) (pos : Word) :
    (t.setPos k pos).fs k = { t.fs k with pos := pos } :=
  Function.update_self ..

theorem OnFile.setPos (on : OnFile fd k slot st) {pos : Word} (low : pos.toNat < 2147483648)
    (fc : FatCache) : OnFile fd k slot (st.1.setPos k pos, fc) :=
  { refers := on.refers, kind := by rw [fs_setPos]; exact on.kind
    inode := by rw [fs_setPos]; exact on.inode, priv := by rw [fs_setPos]; exact on.priv
    file := on.file, small := on.small, pos := by rw [fs_setPos]; exact low }

theorem OnFile.lseek_eq (on : OnFile fd k slot st) (offset : Word) (whence : Whence) :
    let newpos := (if whence = .cur then (st.1.fs k).pos else 0) + offset
    vfsLseek st.1 fd offset whence =
      if whence ≠ .eof ∧ newpos.toInt < 0 then (st.1, -22)
      else (st.1.setPos k newpos, newpos.toInt) := by
  simp only [vfsLseek, on.refers, on.kind, on.inode, Inode.isChr, Inode.size]
  cases whence <;> simp

theorem OnFile.fatRead_result (on : OnFile fd k slot st) (n : Nat) :
    (fatRead disk m st.1 k n st.2).2.2 =
      (fat16ReadFile disk m (st.1.fatfh slot).de (st.1.fs k).pos.toNat n st.2).2 := by
  simp only [fatRead, on.priv]
  split
  · split
    · simp [*]
    · simp [*]
  · simp [*]

theorem OnFile.standard_iff (on : OnFile fd k slot st) (op : FileOp) :
    Standard disk m fd k op st ↔ Meets disk m k op st := by
  have low := on.pos
  have small := on.small
  simp only [Standard, Meets, on.priv, Private.fatfh.injEq, forall_eq']
  cases op with
  | lseek offset whence =>
    dsimp only
    rw [on.lseek_eq]
    have signed : ∀ w : Word, w.toInt = if w.toNat < 2147483648 then (w.toNat : Int)
        else w.toNat - 4294967296 := by
      intro w
      rw [BitVec.toInt_eq_toNat_cond]
      split <;> split <;> omega
    have sum := BitVec.toNat_add (st.1.fs k).pos offset
    have bound := offset.isLt
    have moved := fun pos => congrArg File.pos (@fs_setPos k st.1 pos)
    cases whence <;> simp only [signed, Whence.base] <;> grind
  | read n =>
    dsimp only
    rw [on.fatRead_result]
    by_cases none : n = 0
    · simp [none]
    by_cases before : (st.1.fs k).pos.toNat < (st.1.fatfh slot).de.size
    · obtain ⟨r, result, zero, -⟩ := @fat16ReadFile_zero disk m _ on.file small _ n
        (Nat.pos_of_ne_zero none) before st.2
      simp only [result, Option.some.injEq, exists_eq_left', zero]
      grind
    · have past : (fat16ReadFile disk m (st.1.fatfh slot).de (st.1.fs k).pos.toNat n st.2).2 =
          some { out := [], ret := 0 } := by
        simp only [fat16ReadFile, on.file, Bool.false_eq_true, if_false]
        rw [if_pos (.inl (Nat.not_lt.mp before))]
      simp [past, before, Nat.not_lt.mp before]

theorem OnFile.fileStep (on : OnFile fd k slot st) {op : FileOp} (meets : Meets disk m k op st) :
    OnFile fd k slot (fileStep disk m fd k op st) := by
  have meets := meets slot on.priv
  have low := on.pos
  cases op with
  | lseek offset whence =>
    have bound := offset.isLt
    rw [Vfs.fileStep, on.lseek_eq]
    generalize next : (if whence = .cur then (st.1.fs k).pos else 0) + offset = newpos
    split
    · exact on
    · rename_i kept
      refine on.setPos ?_ _
      cases whence <;> simp only [BitVec.toInt_eq_toNat_cond] at * <;> grind
  | read n =>
    simp only [Vfs.fileStep, fatRead, on.priv]
    split
    · rename_i r result
      split
      · rename_i some_
        refine on.setPos ?_ _
        have sum := BitVec.toNat_add (st.1.fs k).pos (BitVec.ofInt 32 r.ret)
        have room := fat16ReadFile_le on.file on.small result some_
        have small := on.small
        have back : (BitVec.ofInt 32 r.ret).toNat = r.ret.toNat := by
          rw [BitVec.toNat_ofInt]
          omega
        omega
      · exact { on with }
    · exact { on with }

/--
Every call of a run does what the standard asks exactly if none meets what the code gets wrong.

Those are the seeks from the end of a file that is not empty or back from the end, and the reads
that find no cluster of the file where they start.
-/
theorem file_calls_standard_iff (disk : Disk) (m : Fat16Mnt) {fd : Int} {k : Fin vfsMaxFd}
    {slot : Fin fatOpenMax} {st : Table Fat16Dirent × FatCache} (on : OnFile fd k slot st)
    (ops : List FileOp) :
    vfsFstat st.1 fd = some (st.1.fatfh slot).de.size ∧
      (AllAllowed (fileStep disk m fd k) (Standard disk m fd k) ops st ↔
        AllAllowed (fileStep disk m fd k) (Meets disk m k) ops st) := by
  constructor
  · simp [vfsFstat, on.refers, on.kind, on.inode, on.priv, Inode.size]
  -- The calls before the first one that goes wrong keep the position in range.
  induction ops generalizing st with
  | nil => rfl
  | cons op rest ih =>
    simp only [AllAllowed]
    rw [on.standard_iff op]
    exact and_congr_right fun meets => ih (on.fileStep meets)

def fd3 : Fin vfsMaxFd := ⟨3, by decide⟩

def firstSlot : Fin fatOpenMax := ⟨0, by decide⟩

def tenBytes : Table Fat16Dirent × FatCache :=
  ({ fds := fun i => if i = fd3 then some fd3 else none
     fs := fun _ =>
       { inode := some .fattpl, pos := 0, flags := 0, kind := .vfs, priv := .fatfh firstSlot }
     fatfh := fun _ =>
       { used := true, de := { name := [0x41], attr := 0, size := 10, cluster := 2 } } },
    coldCache)

theorem file_calls_standard_iff_ten :
    vfsFstat tenBytes.1 3 = some 10 ∧
      (AllAllowed (fileStep (fun _ => none) tinyMnt 3 fd3) (Standard (fun _ => none) tinyMnt 3 fd3)
          [.lseek 4 .set, .read 2] tenBytes ↔
        AllAllowed (fileStep (fun _ => none) tinyMnt 3 fd3) (Meets (fun _ => none) tinyMnt fd3)
          [.lseek 4 .set, .read 2] tenBytes) :=
  @file_calls_standard_iff (fun _ => none) tinyMnt 3 fd3 firstSlot tenBytes
    { refers := by decide, kind := rfl, inode := rfl, priv := rfl, file := by decide
      small := by decide, pos := by decide } _

/-- A seek to the end of a file goes to its start, and one before the end to no position at all. -/
theorem seek_from_end_misses :
    vfsFstat tenBytes.1 3 = some 10 ∧ (vfsLseek tenBytes.1 3 0 .eof).2 = 0 ∧
      (vfsLseek tenBytes.1 3 (-4) .eof).2 = -4 ∧
      ((vfsLseek tenBytes.1 3 (-4) .eof).1.fs fd3).pos = 0xFFFFFFFC := by
  decide +kernel

end Laws

end CatOs.Vfs
