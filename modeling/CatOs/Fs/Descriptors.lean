import CatOs.Fs.Vfs
import CatOs.Lib.Run

/-! Descriptors as names of open file descriptions, and when the table keeps to that. -/

namespace CatOs.Vfs

open Function

inductive Target (δ : Type) where
  | device
  | entry (de : δ)
  | sock (address : Nat)
  deriving DecidableEq, Repr

structure Description (δ : Type) where
  inode : Option Inode
  pos : Word
  flags : Word
  kind : FileKind
  target : Target δ
  deriving DecidableEq, Repr

structure Posix (δ : Type) where
  table : Fin vfsMaxFd → Option Nat
  files : Nat → Description δ
  next : Nat

variable {δ : Type}

def deviceFile (ino : Inode) (fl : Word) : Description δ :=
  { inode := some ino, pos := 0, flags := fl, kind := .vfs, target := .device }

def entryFile (de : δ) (fl : Word) : Description δ :=
  { inode := some .fattpl, pos := 0, flags := fl, kind := .vfs, target := .entry de }

def sockFile (sock : Nat) : Description δ :=
  { inode := none, pos := 0, flags := 2, kind := .socket, target := .sock sock }

def resolve (volume : Volume δ) (p : Path) (fl : Word) : Option (Description δ) :=
  match nodes.findIdx? (· = p) with
  | some i => some (deviceFile (.node i) fl)
  | none =>
    match volume.blks.findIdx? (· = p) with
    | some i => some (deviceFile (.blk i) fl)
    | none =>
      if volume.mounted then
        ((belowMount p).bind volume.lookup).map fun de => entryFile de fl
      else none

def Posix.install (posix : Posix δ) (fd : Fin vfsMaxFd) (file : Description δ) : Posix δ where
  table := update posix.table fd (some posix.next)
  files := update posix.files posix.next file
  next := posix.next + 1

@[simp] theorem Posix.install_table (posix : Posix δ) (fd : Fin vfsMaxFd) (file : Description δ) :
    (posix.install fd file).table = update posix.table fd (some posix.next) := rfl

@[simp] theorem Posix.install_files (posix : Posix δ) (fd : Fin vfsMaxFd) (file : Description δ) :
    (posix.install fd file).files = update posix.files posix.next file := rfl

def Posix.installAt (posix : Posix δ) (fd : Option (Fin vfsMaxFd))
    (file : Option (Description δ)) : Posix δ :=
  match fd, file with
  | some fd, some file => posix.install fd file
  | _, _ => posix

def Posix.setTable (posix : Posix δ) (fd : Fin vfsMaxFd) (entry : Option Nat) : Posix δ :=
  { posix with table := update posix.table fd entry }

@[simp] theorem Posix.setTable_table (posix : Posix δ) (fd : Fin vfsMaxFd) (entry : Option Nat) :
    (posix.setTable fd entry).table = update posix.table fd entry := rfl

def posixCall (volume : Volume δ) (op : VfsOp) (result : Int) (posix : Posix δ) : Posix δ :=
  match op with
  | .open p fl => posix.installAt (fdIndex result) (resolve volume p fl)
  | .socketInstall sock => posix.installAt (fdIndex result) (some (sockFile sock))
  | .close fd | .socketClose fd =>
    match fdIndex fd with
    | some i => if result = 0 then posix.setTable i none else posix
    | none => posix
  | .dup2 oldfd newfd =>
    match fdIndex oldfd, fdIndex newfd with
    | some old, some new => if 0 ≤ result then posix.setTable new (posix.table old) else posix
    | _, _ => posix

def privTarget (fatfh : Fin fatOpenMax → FatFh δ) : Private → Target δ
  | .null => .device
  | .fatfh slot => .entry (fatfh slot).de
  | .sock address => .sock address

def describe (fatfh : Fin fatOpenMax → FatFh δ) (file : File) : Description δ where
  inode := file.inode
  pos := file.pos
  flags := file.flags
  kind := file.kind
  target := privTarget fatfh file.priv

def described (t : Table δ) (fd : Fin vfsMaxFd) : Option (Description δ) :=
  (t.fds fd).map fun k => describe t.fatfh (t.fs k)

structure File.WellFormed (file : File) : Prop where
  hook : ∀ slot, file.priv = .fatfh slot → file.inode = some .fattpl ∧ file.kind = .vfs
  handle : file.inode = some .fattpl → ∃ slot, file.priv = .fatfh slot
  socket : file.kind = .socket → ∃ address, file.priv = .sock address

structure Refines (t : Table δ) (posix : Posix δ) : Prop where
  open_iff : ∀ fd, t.fds fd = none ↔ posix.table fd = none
  shows : ∀ {fd k id}, t.fds fd = some k → posix.table fd = some id →
    describe t.fatfh (t.fs k) = posix.files id
  shares : ∀ {fd k id fd' k' id'}, t.fds fd = some k → posix.table fd = some id →
    t.fds fd' = some k' → posix.table fd' = some id' → (k = k' ↔ id = id')
  older : ∀ {fd id}, posix.table fd = some id → id < posix.next
  slots : ∀ slot, (t.fatfh slot).used = true ↔
    ∃ fd k, t.fds fd = some k ∧ (t.fs k).priv = .fatfh slot
  single : ∀ {fd k fd' k' slot}, t.fds fd = some k → t.fds fd' = some k' →
    (t.fs k).priv = .fatfh slot → (t.fs k').priv = .fatfh slot → k = k'
  formed : ∀ {fd k}, t.fds fd = some k → (t.fs k).WellFormed

def Unshared (t : Table δ) (fd : Fin vfsMaxFd) : Prop :=
  ∀ k slot, t.fds fd = some k → (t.fs k).priv = .fatfh slot → ∀ other, other ≠ fd →
    t.fds other ≠ some k

/--
The calls under which the table keeps to the abstract one.

A new descriptor does not get a number whose storage another descriptor still points at.
The last descriptor of a file of the volume is the only one of it that is closed or replaced.
-/
def VfsAllowed (volume : Volume δ) (op : VfsOp) (t : Table δ) : Prop :=
  match op with
  | .open _ _ | .socketInstall _ =>
    ∀ fd, fdIndex (vfsCall volume op t).2 = some fd → ∀ other, t.fds other ≠ some fd
  | .close fd => ∀ i, fdIndex fd = some i → Unshared t i
  | .dup2 oldfd newfd => oldfd ≠ newfd → 0 ≤ (vfsCall volume op t).2 →
      ∀ i, fdIndex newfd = some i → Unshared t i
  | .socketClose _ => True

variable {t : Table δ} {posix : Posix δ}

theorem Refines.entry (refines : Refines t posix) {fd : Fin vfsMaxFd} {k : Fin vfsMaxFd}
    (found : t.fds fd = some k) : ∃ id, posix.table fd = some id := by
  cases entry : posix.table fd with
  | some id => exact ⟨id, rfl⟩
  | none => rw [(refines.open_iff fd).mpr entry] at found; cases found

theorem describe_congr {file : File} {fatfh fatfh' : Fin fatOpenMax → FatFh δ}
    (same : ∀ slot, file.priv = .fatfh slot → fatfh slot = fatfh' slot) :
    describe fatfh file = describe fatfh' file := by
  cases priv : file.priv with
  | null | sock address => simp [describe, privTarget, priv]
  | fatfh slot => simp [describe, privTarget, priv, same slot priv]

theorem install_cases {fd other k : Fin vfsMaxFd} {file : File} {d : Description δ} {id : Nat}
    (found : (t.install fd file).fds other = some k)
    (entry : (posix.install fd d).table other = some id) :
    (other = fd ∧ k = fd ∧ id = posix.next) ∨
      (other ≠ fd ∧ t.fds other = some k ∧ posix.table other = some id) := by
  rcases update_some_cases found with ⟨same, here⟩ | ⟨apart, before⟩ <;>
    rcases update_some_cases entry with ⟨same', new⟩ | ⟨apart', old⟩
  · exact .inl ⟨same, here, new⟩
  · exact absurd same apart'
  · exact absurd same' apart
  · exact .inr ⟨apart, before, old⟩

theorem Refines.install (refines : Refines t posix) {fd : Fin vfsMaxFd} {file : File}
    {fatfh : Fin fatOpenMax → FatFh δ} (free : t.fds fd = none)
    (unused : ∀ other, t.fds other ≠ some fd) (formed : file.WellFormed)
    (kept : ∀ slot, (t.fatfh slot).used = true → fatfh slot = t.fatfh slot)
    (taken : ∀ slot, (fatfh slot).used = true ↔
      (t.fatfh slot).used = true ∨ file.priv = .fatfh slot)
    (fresh : ∀ slot, file.priv = .fatfh slot → (t.fatfh slot).used = false) :
    Refines ({ t with fatfh := fatfh }.install fd file)
      (posix.install fd (describe fatfh file)) := by
  let mid : Table δ := { t with fatfh := fatfh }
  -- Storage that a descriptor points at is not the new one, and reads as it did.
  have old : ∀ {other k}, t.fds other = some k → (mid.install fd file).fs k = t.fs k := by
    intro other k found
    refine update_of_ne (fun same => ?_) _ _
    exact unused other (same ▸ found)
  have new : (mid.install fd file).fs fd = file := update_self _ _ _
  -- A handle that an open descriptor names is in use, so it is not the one just filled.
  have inUse : ∀ {other k slot}, t.fds other = some k → (t.fs k).priv = .fatfh slot →
      (t.fatfh slot).used = true :=
    fun found names => (refines.slots _).mpr ⟨_, _, found, names⟩
  refine ⟨?_, ?_, ?_, ?_, ?_, ?_, ?_⟩
  · intro other
    by_cases same : other = fd
    · subst same
      simp
    · simpa [update_of_ne same] using
        refines.open_iff other
  · intro other k id found entry
    rcases install_cases found entry with ⟨-, rfl, rfl⟩ | ⟨-, before, old'⟩
    · rw [new, Posix.install_files, update_self]
      rfl
    · rw [old before, Posix.install_files, update_of_ne (refines.older old').ne,
        ← refines.shows before old']
      exact describe_congr fun slot names => kept slot (inUse before names)
  · intro one k id two k' id' found entry found' entry'
    rcases install_cases found entry with ⟨-, rfl, rfl⟩ | ⟨-, before, names⟩ <;>
      rcases install_cases found' entry' with ⟨-, rfl, rfl⟩ | ⟨-, before', names'⟩
    · exact ⟨fun _ => rfl, fun _ => rfl⟩
    · exact ⟨fun same => absurd (same ▸ before') (unused two),
        fun same => absurd same (refines.older names').ne'⟩
    · exact ⟨fun same => absurd (same ▸ before) (unused one),
        fun same => absurd same (refines.older names).ne⟩
    · exact refines.shares before names before' names'
  · intro other id entry
    obtain ⟨_, rfl⟩ | ⟨_, entry⟩ := update_some_cases entry
    · exact Nat.lt_succ_self _
    · exact Nat.lt_succ_of_lt (refines.older entry)
  · intro slot
    change (fatfh slot).used = true ↔ _
    rw [taken, refines.slots]
    constructor
    · rintro (⟨other, k, found, names⟩ | names)
      · have apart : other ≠ fd := by
          rintro rfl
          rw [free] at found
          cases found
        refine ⟨other, k, ?_, ?_⟩
        · rw [Table.install_fds, update_of_ne apart]
          exact found
        · rw [old found]
          exact names
      · refine ⟨fd, fd, update_self _ _ _, ?_⟩
        rw [new]
        exact names
    · rintro ⟨other, k, found, names⟩
      rcases update_some_cases found with ⟨rfl, rfl⟩ | ⟨apart, before⟩
      · rw [new] at names
        exact .inr names
      · rw [old before] at names
        exact .inl ⟨other, k, before, names⟩
  · intro one k two k' slot found found' names names'
    rcases update_some_cases found with ⟨rfl, rfl⟩ | ⟨apart, before⟩ <;>
      rcases update_some_cases found' with ⟨rfl, rfl⟩ | ⟨apart', before'⟩
    · rfl
    · rw [new] at names
      rw [old before'] at names'
      exact absurd (inUse before' names') (by rw [fresh slot names]; exact Bool.false_ne_true)
    · rw [new] at names'
      rw [old before] at names
      exact absurd (inUse before names) (by rw [fresh slot names']; exact Bool.false_ne_true)
    · rw [old before] at names
      rw [old before'] at names'
      exact refines.single before before' names names'
  · intro other k found
    rcases update_some_cases found with ⟨rfl, rfl⟩ | ⟨apart, before⟩
    · rw [new]
      exact formed
    · rw [old before]
      exact refines.formed before

/-- Giving up a descriptor, with the hook of its file, leaves every other descriptor alone. -/
theorem Refines.drop (refines : Refines t posix) {fd k : Fin vfsMaxFd}
    (found : t.fds fd = some k) (unshared : Unshared t fd) :
    Refines ((closeHook t (t.fs k)).clear fd) (posix.setTable fd none) := by
  -- The hook only frees the handle of a file that no other descriptor refers to.
  have hook : closeHook t (t.fs k) = { t with fatfh := (closeHook t (t.fs k)).fatfh } := by
    unfold closeHook
    split <;> rfl
  have freed : ∀ slot, (closeHook t (t.fs k)).fatfh slot =
      if (t.fs k).priv = .fatfh slot then { t.fatfh slot with used := false } else t.fatfh slot := by
    intro slot
    have formed := refines.formed found
    cases priv : (t.fs k).priv with
    | null | sock address => simp [closeHook, priv]
    | fatfh owner =>
      have inode := (formed.hook owner priv).1
      simp only [closeHook, inode, priv, Table.setUsed, Private.fatfh.injEq, update_apply]
      by_cases same : slot = owner
      · simp [same]
      · simp [same, Ne.symm same]
  generalize (closeHook t (t.fs k)).fatfh = fatfh at hook freed
  rw [hook]
  -- The description of an open file does not depend on whether its handle is marked.
  have sameDe : ∀ slot, (fatfh slot).de = (t.fatfh slot).de := by
    intro slot
    rw [freed]
    split <;> rfl
  have same : ∀ file, describe fatfh file = describe t.fatfh file := by
    intro file
    cases priv : file.priv <;> simp [describe, privTarget, priv, sameDe]
  refine ⟨?_, ?_, ?_, ?_, ?_, ?_, ?_⟩
  · intro other
    by_cases same : other = fd
    · subst same
      simp
    · simpa [update_of_ne same] using refines.open_iff other
  · intro other k' id found' entry
    exact (same _).trans
      (refines.shows (update_none_cases found').2 (update_none_cases entry).2)
  · intro one k' id two k'' id' found' entry found'' entry'
    exact refines.shares (update_none_cases found').2 (update_none_cases entry).2
      (update_none_cases found'').2 (update_none_cases entry').2
  · intro other id entry
    exact refines.older (update_none_cases entry).2
  · intro slot
    change (fatfh slot).used = true ↔ _
    rw [freed]
    by_cases owned : (t.fs k).priv = .fatfh slot
    · -- The freed handle was named by the given-up descriptor alone.
      rw [if_pos owned]
      refine ⟨fun used => absurd used Bool.false_ne_true, ?_⟩
      rintro ⟨other, k', found', names⟩
      obtain ⟨apart, before⟩ := update_none_cases found'
      have shared : k' = k := refines.single before found names owned
      exact absurd (shared ▸ before) (unshared k slot found owned other apart)
    · rw [if_neg owned, refines.slots]
      constructor
      · rintro ⟨other, k', found', names⟩
        have apart : other ≠ fd := by
          rintro rfl
          cases found.symm.trans found'
          exact owned names
        refine ⟨other, k', ?_, names⟩
        rw [Table.clear_fds, update_of_ne apart]
        exact found'
      · rintro ⟨other, k', found', names⟩
        exact ⟨other, k', (update_none_cases found').2, names⟩
  · intro one k' two k'' slot found' found'' names names'
    exact refines.single (update_none_cases found').2 (update_none_cases found'').2 names names'
  · intro other k' found'
    exact refines.formed (update_none_cases found').2

/-- A free descriptor that comes to point where another one does shares its description. -/
theorem Refines.alias (refines : Refines t posix) {old new k : Fin vfsMaxFd}
    (found : t.fds old = some k) (free : t.fds new = none) :
    Refines { t with fds := update t.fds new (some k) }
      (posix.setTable new (posix.table old)) := by
  obtain ⟨id, entry⟩ := refines.entry found
  rw [entry]
  -- Whatever the new table says of a descriptor, the old one said of it or of the duplicate.
  have origin : ∀ {fd k' id'}, update t.fds new (some k) fd = some k' →
      (posix.setTable new (some id)).table fd = some id' →
      ∃ fd', t.fds fd' = some k' ∧ posix.table fd' = some id' := by
    intro fd k' id' found' entry'
    rcases update_some_cases found' with ⟨same, rfl⟩ | ⟨apart, before⟩ <;>
      rcases update_some_cases entry' with ⟨same', rfl⟩ | ⟨apart', before'⟩
    · exact ⟨old, found, entry⟩
    · exact absurd same apart'
    · exact absurd same' apart
    · exact ⟨fd, before, before'⟩
  have source : ∀ {fd k'}, update t.fds new (some k) fd = some k' →
      ∃ fd', t.fds fd' = some k' := by
    intro fd k' found'
    rcases update_some_cases found' with ⟨-, rfl⟩ | ⟨-, before⟩
    · exact ⟨old, found⟩
    · exact ⟨fd, before⟩
  refine ⟨?_, ?_, ?_, ?_, ?_, ?_, ?_⟩
  · intro fd
    by_cases same : fd = new
    · subst same
      simp
    · simpa [update_of_ne same] using refines.open_iff fd
  · intro fd k' id' found' entry'
    obtain ⟨fd', found', entry'⟩ := origin found' entry'
    exact refines.shows found' entry'
  · intro one k' id' two k'' id'' found' entry' found'' entry''
    obtain ⟨one', found', entry'⟩ := origin found' entry'
    obtain ⟨two', found'', entry''⟩ := origin found'' entry''
    exact refines.shares found' entry' found'' entry''
  · intro fd id' entry'
    rcases update_some_cases entry' with ⟨-, rfl⟩ | ⟨-, before⟩
    · exact refines.older entry
    · exact refines.older before
  · intro slot
    refine (refines.slots slot).trans ⟨?_, ?_⟩
    · rintro ⟨fd, k', found', names⟩
      have apart : fd ≠ new := by
        rintro rfl
        rw [free] at found'
        cases found'
      exact ⟨fd, k', (update_of_ne apart _ _).trans found', names⟩
    · rintro ⟨fd, k', found', names⟩
      obtain ⟨fd', found'⟩ := source found'
      exact ⟨fd', k', found', names⟩
  · intro one k' two k'' slot found' found'' names names'
    obtain ⟨one', found'⟩ := source found'
    obtain ⟨two', found''⟩ := source found''
    exact refines.single found' found'' names names'
  · intro fd k' found'
    obtain ⟨fd', found'⟩ := source found'
    exact refines.formed found'

theorem Refines.scribble (refines : Refines t posix) {slot : Fin fatOpenMax} (de : δ)
    (unused : (t.fatfh slot).used = false) :
    Refines { t with fatfh := update t.fatfh slot { used := false, de := de } } posix := by
  have marks : ∀ other, (update t.fatfh slot { used := false, de := de } other).used =
      (t.fatfh other).used := by
    intro other
    by_cases same : other = slot
    · rw [same, update_self, unused]
    · rw [update_of_ne same]
  refine ⟨refines.open_iff, fun found entry => ?_, refines.shares, refines.older,
    fun other => ?_, refines.single, refines.formed⟩
  · rw [← refines.shows found entry]
    apply describe_congr
    intro other names
    apply update_of_ne
    rintro rfl
    -- A handle that an open file names is in use.
    have used := (refines.slots other).mpr ⟨_, _, found, names⟩
    rw [unused] at used
    cases used
  · simp only [marks]
    exact refines.slots other

theorem fdIndex_coe (fd : Fin vfsMaxFd) : fdIndex ((fd : Nat) : Int) = some fd := by
  have below : ((fd : Nat) : Int) < vfsMaxFd := Int.ofNat_lt.mpr fd.isLt
  rw [fdIndex, dif_pos ⟨Int.natCast_nonneg _, below⟩]
  rfl

theorem lowestFree_spec {fd : Fin vfsMaxFd} (lowest : lowestFree t = some fd) :
    t.fds fd = none ∧ ∀ other, other < fd → t.fds other ≠ none := by
  unfold lowestFree at lowest
  obtain ⟨free, lower⟩ := Fin.find?_eq_some_iff.mp lowest
  refine ⟨Option.isNone_iff_eq_none.mp free, fun other below closed => ?_⟩
  have open_ := lower other below
  rw [closed] at open_
  cases open_

theorem lowestFree_fillFatfh (t : Table δ) (slot : Fin fatOpenMax) (de : δ) :
    lowestFree (t.fillFatfh slot de) = lowestFree t := by
  unfold lowestFree
  rfl

theorem freeFatfh_spec {slot : Fin fatOpenMax} (first : freeFatfh t = some slot) :
    (t.fatfh slot).used = false := by
  unfold freeFatfh at first
  simpa using (Fin.find?_eq_some_iff.mp first).1

theorem Refines.fdAlloc (refines : Refines t posix) {kind : FileKind} {fl : Word}
    {ino : Option Inode} {priv : Private}
    (formed : (File.mk ino 0 fl kind priv).WellFormed) (plain : ∀ slot, priv ≠ .fatfh slot)
    (unused : ∀ fd, fdIndex (vfsFdAlloc t kind fl ino priv).2 = some fd →
      ∀ other, t.fds other ≠ some fd) :
    Refines (vfsFdAlloc t kind fl ino priv).1
      (posix.installAt (fdIndex (vfsFdAlloc t kind fl ino priv).2)
        (some (describe t.fatfh ⟨ino, 0, fl, kind, priv⟩))) := by
  unfold vfsFdAlloc at unused ⊢
  cases lowest : lowestFree t with
  | none => exact refines
  | some fd =>
    simp only [lowest, fdIndex_coe] at unused ⊢
    exact refines.install (lowestFree_spec lowest).1 (unused fd rfl) formed (fun _ _ => rfl)
      (fun slot => ⟨.inl, fun either => either.resolve_right (plain slot)⟩)
      (fun slot names => absurd names (plain slot))

theorem device_wellFormed {ino : Inode} {fl : Word} (device : ino ≠ .fattpl) :
    (File.mk (some ino) 0 fl .vfs .null).WellFormed where
  hook := fun _ names => by cases names
  handle := fun same => absurd (Option.some.inj same) device
  socket := fun same => by cases same

theorem fillFatfh_apply (t : Table δ) (slot other : Fin fatOpenMax) (de : δ) :
    (t.fillFatfh slot de).fatfh other =
      if other = slot then { used := true, de := de } else t.fatfh other := by
  simp only [Table.fillFatfh, update_apply]

theorem Refines.installFat (refines : Refines t posix) {fd : Fin vfsMaxFd}
    {slot : Fin fatOpenMax} {de : δ} {fl : Word} (free : (t.fatfh slot).used = false)
    (closed : t.fds fd = none) (unused : ∀ other, t.fds other ≠ some fd) :
    Refines ((t.fillFatfh slot de).install fd ⟨some .fattpl, 0, fl, .vfs, .fatfh slot⟩)
      (posix.install fd (entryFile de fl)) := by
  have entry : entryFile de fl = describe (t.fillFatfh slot de).fatfh
      ⟨some .fattpl, 0, fl, .vfs, .fatfh slot⟩ := by
    simp [entryFile, describe, privTarget, fillFatfh_apply]
  rw [entry]
  refine refines.install closed unused ?_ ?_ ?_ ?_
  · exact ⟨fun _ _ => ⟨rfl, rfl⟩, fun _ => ⟨slot, rfl⟩, fun same => by cases same⟩
  · intro other used
    refine (fillFatfh_apply t slot other de).trans (if_neg ?_)
    rintro rfl
    rw [free] at used
    cases used
  · intro other
    change ((t.fillFatfh slot de).fatfh other).used = true ↔ _
    rw [fillFatfh_apply]
    by_cases same : other = slot
    · simp [same]
    · simp [same, Ne.symm same]
  · rintro other ⟨⟩
    exact free

theorem openFat_cases (volume : Volume δ) (t : Table δ) (rest : Path) (fl : Word) :
    openFat volume t rest fl = (t, -1) ∨ ∃ slot de, (t.fatfh slot).used = false ∧
      volume.lookup rest = some de ∧
      (openFat volume t rest fl = ({ t with
          fatfh := update t.fatfh slot { used := false, de := de } }, -1) ∨
        ∃ fd : Fin vfsMaxFd, lowestFree t = some fd ∧ openFat volume t rest fl =
          ((t.fillFatfh slot de).install fd ⟨some .fattpl, 0, fl, .vfs, .fatfh slot⟩,
            ((fd : Nat) : Int))) := by
  cases handle : freeFatfh t with
  | none => exact .inl (by simp [openFat, handle])
  | some slot =>
    cases target : volume.lookup rest with
    | none => exact .inl (by simp [openFat, handle, target])
    | some de =>
      refine .inr ⟨slot, de, freeFatfh_spec handle, rfl, ?_⟩
      cases lowest : lowestFree t with
      | none =>
        -- Without a free descriptor the handle goes back to the unused ones.
        left
        simp only [openFat, handle, target, vfsFdAlloc, lowestFree_fillFatfh, lowest]
        simp [Table.fillFatfh, Table.setUsed]
      | some fd =>
        exact .inr ⟨fd, rfl,
          by simp [openFat, handle, target, vfsFdAlloc, lowestFree_fillFatfh, lowest]⟩

theorem Refines.openFat (refines : Refines t posix) (volume : Volume δ) (rest : Path) (fl : Word)
    (unused : ∀ fd, fdIndex (openFat volume t rest fl).2 = some fd →
      ∀ other, t.fds other ≠ some fd) :
    Refines (openFat volume t rest fl).1
      (posix.installAt (fdIndex (openFat volume t rest fl).2)
        ((volume.lookup rest).map (entryFile · fl))) := by
  rcases openFat_cases volume t rest fl with failed | ⟨slot, de, free, target, failed | opened⟩
  · rw [failed]
    exact refines
  · rw [failed]
    exact refines.scribble de free
  · obtain ⟨fd, lowest, opened⟩ := opened
    rw [opened, fdIndex_coe] at unused
    rw [opened, target, fdIndex_coe]
    exact refines.installFat free (lowestFree_spec lowest).1 (unused fd rfl)

theorem vfsOpen_cases (volume : Volume δ) (t : Table δ) (p : Path) (fl : Word) :
    (∃ ino, ino ≠ .fattpl ∧ resolve volume p fl = some (deviceFile ino fl) ∧
        vfsOpen volume t p fl = vfsFdAlloc t .vfs fl (some ino) .null) ∨
      (∃ rest, resolve volume p fl = (volume.lookup rest).map (entryFile · fl) ∧
        vfsOpen volume t p fl = openFat volume t rest fl) ∨
      vfsOpen volume t p fl = (t, -1) := by
  -- The same three places are searched in the same order.
  unfold resolve vfsOpen
  cases node : nodes.findIdx? (· = p) with
  | some i => exact .inl ⟨.node i, (by intro same; cases same), rfl, rfl⟩
  | none =>
    cases blk : volume.blks.findIdx? (· = p) with
    | some i => exact .inl ⟨.blk i, (by intro same; cases same), rfl, rfl⟩
    | none =>
      by_cases mounted : volume.mounted = true
      · cases below : belowMount p with
        | some rest => exact .inr (.inl ⟨rest, by simp [mounted], by simp [mounted]⟩)
        | none => exact .inr (.inr (by simp [mounted]))
      · exact .inr (.inr (by simp [mounted]))

theorem Refines.open (refines : Refines t posix) (volume : Volume δ) (p : Path) (fl : Word)
    (may : VfsAllowed volume (.open p fl) t) :
    Refines (vfsOpen volume t p fl).1
      (posixCall volume (.open p fl) (vfsOpen volume t p fl).2 posix) := by
  have unused : ∀ fd, fdIndex (vfsOpen volume t p fl).2 = some fd →
      ∀ other, t.fds other ≠ some fd := may
  simp only [posixCall]
  rcases vfsOpen_cases volume t p fl with ⟨ino, device, named, opened⟩ | ⟨rest, named, opened⟩ | failed
  · rw [opened] at unused ⊢
    rw [named]
    exact refines.fdAlloc (device_wellFormed device) (fun _ same => by cases same) unused
  · rw [opened] at unused ⊢
    rw [named]
    exact refines.openFat volume rest fl unused
  · rw [failed]
    exact refines

theorem Refines.socketInstall (refines : Refines t posix) (volume : Volume δ) (sock : Nat)
    (may : VfsAllowed volume (.socketInstall sock) t) :
    Refines (vfsSocketInstall t sock).1
      (posixCall volume (.socketInstall sock) (vfsSocketInstall t sock).2 posix) := by
  -- The error code of a full table is no descriptor, whichever negative number it is.
  have result : fdIndex (vfsSocketInstall t sock).2 =
      fdIndex (vfsFdAlloc t .socket 2 none (.sock sock)).2 := by
    unfold vfsSocketInstall
    cases lowest : lowestFree t with
    | none =>
      simp only [vfsFdAlloc, lowest]
      decide
    | some fd =>
      simp only [vfsFdAlloc, lowest]
      rw [if_neg (Int.not_lt.mpr (Int.natCast_nonneg _))]
  have unused : ∀ fd, fdIndex (vfsSocketInstall t sock).2 = some fd →
      ∀ other, t.fds other ≠ some fd := may
  simp only [posixCall]
  rw [result] at unused ⊢
  refine refines.fdAlloc ?_ (fun _ same => by cases same) unused
  exact ⟨fun _ names => (by cases names), fun same => (by cases same), fun _ => ⟨sock, rfl⟩⟩

theorem posixCall_close_failed (volume : Volume δ) (fd : Int) :
    posixCall volume (.close fd) (-9) posix = posix := by
  simp only [posixCall]
  cases fdIndex fd <;> rfl

theorem Refines.close (refines : Refines t posix) (volume : Volume δ) (fd : Int)
    (may : VfsAllowed volume (.close fd) t) :
    Refines (vfsClose t fd).1 (posixCall volume (.close fd) (vfsClose t fd).2 posix) := by
  have failed : vfsClose t fd = (t, -9) →
      Refines (vfsClose t fd).1 (posixCall volume (.close fd) (vfsClose t fd).2 posix) := by
    intro same
    rw [same, posixCall_close_failed]
    exact refines
  cases index : fdIndex fd with
  | none => exact failed (by simp [vfsClose, index])
  | some i =>
    cases found : t.fds i with
    | none => exact failed (by simp [vfsClose, index, found])
    | some k =>
      by_cases kind : (t.fs k).kind = .vfs
      · have closed : vfsClose t fd = ((closeHook t (t.fs k)).clear i, 0) := by
          simp [vfsClose, index, found, kind]
        rw [closed]
        simp only [posixCall, index, if_true]
        exact refines.drop found (may i index)
      · exact failed (by simp [vfsClose, index, found, kind])

theorem closeHook_socket {file : File} (formed : file.WellFormed) (kind : file.kind = .socket) :
    closeHook t file = t := by
  obtain ⟨address, priv⟩ := formed.socket kind
  simp [closeHook, priv]

theorem Refines.socketClose (refines : Refines t posix) (volume : Volume δ) (fd : Int) :
    Refines (vfsSocketClose t fd).1
      (posixCall volume (.socketClose fd) (vfsSocketClose t fd).2 posix) := by
  unfold vfsSocketClose
  simp only [posixCall]
  by_cases none_ : vfsSocketGet t fd = 0
  · simp only [none_, if_true]
    cases fdIndex fd <;> exact refines
  simp only [none_, if_false]
  cases index : fdIndex fd with
  | none => exact refines
  | some i =>
    cases found : t.fds i with
    | none => exact absurd (by simp [vfsSocketGet, index, found]) none_
    | some k =>
      have kind : (t.fs k).kind = .socket := by
        cases kind : (t.fs k).kind with
        | socket => rfl
        | vfs => exact absurd (by simp [vfsSocketGet, index, found, kind]) none_
      have formed := refines.formed found
      have dropped := refines.drop found fun k' slot found' names => by
        cases found.symm.trans found'
        obtain ⟨address, priv⟩ := formed.socket kind
        cases priv.symm.trans names
      rw [closeHook_socket formed kind] at dropped
      exact dropped

theorem Refines.dropForDup (refines : Refines t posix) {new : Fin vfsMaxFd}
    (unshared : Unshared t new) :
    Refines (dropForDup t new) (posix.setTable new none) ∧ (dropForDup t new).fds new = none ∧
      ∀ other, other ≠ new → (dropForDup t new).fds other = t.fds other := by
  unfold CatOs.Vfs.dropForDup
  cases found : t.fds new with
  | none =>
    have entry := (refines.open_iff new).mp found
    have same : posix.setTable new none = posix := by
      simp only [Posix.setTable, ← entry, update_eq_self]
    rw [same]
    exact ⟨refines, found, fun _ _ => rfl⟩
  | some k =>
    have hooked : (if (t.fs k).kind = .vfs then closeHook t (t.fs k) else t) =
        closeHook t (t.fs k) := by
      cases kind : (t.fs k).kind with
      | vfs => rfl
      | socket => exact (closeHook_socket (refines.formed found) kind).symm
    have table : (closeHook t (t.fs k)).fds = t.fds := by
      unfold closeHook
      split <;> rfl
    simp only [hooked]
    refine ⟨refines.drop found unshared, ?_, fun other apart => ?_⟩
    · rw [Table.clear_fds, update_self]
    · rw [Table.clear_fds, update_of_ne apart, table]

theorem fdIndex_injective {a b : Int} {i : Fin vfsMaxFd} (left : fdIndex a = some i)
    (right : fdIndex b = some i) : a = b := by
  unfold fdIndex at left right
  split at left
  · split at right
    · have same := congrArg Fin.val ((Option.some.inj left).trans (Option.some.inj right).symm)
      simp only at same
      omega
    · cases right
  · cases left

theorem nonneg_of_fdIndex {a : Int} {i : Fin vfsMaxFd} (index : fdIndex a = some i) : 0 ≤ a := by
  unfold fdIndex at index
  split at index
  · rename_i bounds
    exact bounds.1
  · cases index

/-- Duplicating a descriptor makes the new one name what the old one names. -/
theorem Refines.dup2 (refines : Refines t posix) (volume : Volume δ) (oldfd newfd : Int)
    (may : VfsAllowed volume (.dup2 oldfd newfd) t) :
    Refines (vfsDup2 t oldfd newfd).1
      (posixCall volume (.dup2 oldfd newfd) (vfsDup2 t oldfd newfd).2 posix) := by
  have failed : vfsDup2 t oldfd newfd = (t, -9) →
      Refines (vfsDup2 t oldfd newfd).1
        (posixCall volume (.dup2 oldfd newfd) (vfsDup2 t oldfd newfd).2 posix) := by
    intro same
    have untouched : posixCall volume (.dup2 oldfd newfd) (-9) posix = posix := by
      simp only [posixCall]
      cases fdIndex oldfd <;> cases fdIndex newfd <;> rfl
    rw [same, untouched]
    exact refines
  cases oldIndex : fdIndex oldfd with
  | none => exact failed (by simp [vfsDup2, oldIndex])
  | some old =>
  cases found : t.fds old with
  | none => exact failed (by simp [vfsDup2, oldIndex, found])
  | some k =>
  cases newIndex : fdIndex newfd with
  | none => exact failed (by simp [vfsDup2, oldIndex, found, newIndex])
  | some new =>
  have nonneg := nonneg_of_fdIndex newIndex
  by_cases same : oldfd = newfd
  · -- A descriptor that is duplicated onto itself stays as it is.
    subst same
    cases oldIndex.symm.trans newIndex
    have result : vfsDup2 t oldfd oldfd = (t, oldfd) := by simp [vfsDup2, oldIndex, found]
    have unchanged : posix.setTable old (posix.table old) = posix := by
      simp only [Posix.setTable, update_eq_self]
    rw [result]
    simp only [posixCall, oldIndex, if_pos nonneg, unchanged]
    exact refines
  · have result : vfsDup2 t oldfd newfd = ({ CatOs.Vfs.dropForDup t new with
        fds := update (CatOs.Vfs.dropForDup t new).fds new (some k) }, newfd) := by
      simp [vfsDup2, oldIndex, found, newIndex, same]
    have apart : old ≠ new := by
      rintro rfl
      exact same (fdIndex_injective oldIndex newIndex)
    have unshared : Unshared t new := by
      refine may same ?_ new newIndex
      change 0 ≤ (vfsDup2 t oldfd newfd).2
      rw [result]
      exact nonneg
    obtain ⟨dropped, closed, kept⟩ := refines.dropForDup unshared
    have aliased := dropped.alias ((kept old apart).trans found) closed
    have entry : (posix.setTable new none).table old = posix.table old := by
      rw [Posix.setTable_table, update_of_ne apart]
    have merged : (posix.setTable new none).setTable new (posix.table old) =
        posix.setTable new (posix.table old) := by
      simp only [Posix.setTable, update_idem]
    rw [entry, merged] at aliased
    rw [result]
    simp only [posixCall, oldIndex, newIndex, if_pos nonneg]
    exact aliased

structure VfsSystem (δ : Type) where
  table : Table δ
  posix : Posix δ

def vfsStep (volume : Volume δ) (op : VfsOp) (sys : VfsSystem δ) : VfsSystem δ where
  table := (vfsCall volume op sys.table).1
  posix := posixCall volume op (vfsCall volume op sys.table).2 sys.posix

def vfsEmpty (fs : Fin vfsMaxFd → File) (de : Fin fatOpenMax → δ) (files : Nat → Description δ) :
    VfsSystem δ where
  table := { fds := fun _ => none, fs := fs, fatfh := fun slot => { used := false, de := de slot } }
  posix := { table := fun _ => none, files := files, next := 0 }

theorem refines_empty (fs : Fin vfsMaxFd → File) (de : Fin fatOpenMax → δ)
    (files : Nat → Description δ) :
    Refines (vfsEmpty fs de files).table (vfsEmpty fs de files).posix where
  open_iff := fun _ => ⟨fun _ => rfl, fun _ => rfl⟩
  shows := fun found => by cases found
  shares := fun found => by cases found
  older := fun entry => by cases entry
  slots := fun slot => ⟨fun used => (by cases used), fun ⟨_, _, found, _⟩ => (by cases found)⟩
  single := fun found => by cases found
  formed := fun found => by cases found

theorem Refines.step (refines : Refines t posix) (volume : Volume δ) (op : VfsOp)
    (may : VfsAllowed volume op t) :
    Refines (vfsCall volume op t).1 (posixCall volume op (vfsCall volume op t).2 posix) := by
  cases op with
  | «open» p fl => exact refines.open volume p fl may
  | close fd => exact refines.close volume fd may
  | dup2 oldfd newfd => exact refines.dup2 volume oldfd newfd may
  | socketInstall sock => exact refines.socketInstall volume sock may
  | socketClose fd => exact refines.socketClose volume fd

theorem Refines.described (refines : Refines t posix) (fd : Fin vfsMaxFd) :
    described t fd = (posix.table fd).map posix.files := by
  unfold CatOs.Vfs.described
  cases found : t.fds fd with
  | none =>
    rw [(refines.open_iff fd).mp found]
    rfl
  | some k =>
    obtain ⟨id, entry⟩ := refines.entry found
    rw [entry, Option.map_some, Option.map_some, refines.shows found entry]

theorem vfsFdAlloc_lowest {kind : FileKind} {fl : Word} {ino : Option Inode} {priv : Private}
    {fd : Fin vfsMaxFd} (result : fdIndex (vfsFdAlloc t kind fl ino priv).2 = some fd) :
    lowestFree t = some fd := by
  unfold vfsFdAlloc at result
  cases lowest : lowestFree t with
  | none =>
    rw [lowest] at result
    cases result
  | some first =>
    simp only [lowest, fdIndex_coe] at result
    exact result

theorem vfsOpen_lowest (volume : Volume δ) (t : Table δ) (p : Path) (fl : Word)
    {fd : Fin vfsMaxFd} (result : fdIndex (vfsOpen volume t p fl).2 = some fd) :
    lowestFree t = some fd := by
  rcases vfsOpen_cases volume t p fl with ⟨ino, -, -, opened⟩ | ⟨rest, -, opened⟩ | failed
  · rw [opened] at result
    exact vfsFdAlloc_lowest result
  · rw [opened] at result
    rcases openFat_cases volume t rest fl with failed | ⟨slot, de, -, -, failed | taken⟩
    · rw [failed] at result
      cases result
    · rw [failed] at result
      cases result
    · obtain ⟨lowest, first, opened⟩ := taken
      rw [opened, fdIndex_coe] at result
      exact first.trans result
  · rw [failed] at result
    cases result

def oneFile : Volume Nat where
  blks := []
  mounted := true
  lookup := fun p => if p = ['A'] then some 7 else none

def vfsBoot : VfsSystem Nat :=
  vfsEmpty (fun _ => ⟨none, 0, 0, .vfs, .null⟩) (fun _ => 0) (fun _ => deviceFile (.node 0) 0)

def fifthFd : Fin vfsMaxFd := ⟨5, by decide⟩

def dupFile : List VfsOp := [.open "/mnt/fat/A".toList 0, .dup2 0 5]

def reuseStorage : List VfsOp :=
  [.open "/dev/null".toList 0, .dup2 0 5, .close 0, .open "/dev/zero".toList 0]

def closeShared : List VfsOp := dupFile ++ [.close 0]

end CatOs.Vfs
