import CatOs.Lib.Buffer
import CatOs.Lib.Word

/-! The disk: commands of at most 255 sectors with one retry, and the partitions on it. -/

namespace CatOs.Ide

abbrev sectorSize : Nat := 512

structure AtaRegs where
  drive : BitVec 8
  count : BitVec 8
  low : BitVec 8
  mid : BitVec 8
  high : BitVec 8
  command : BitVec 8
  deriving DecidableEq, Repr

def AtaRegs.lba (regs : AtaRegs) : Nat :=
  (regs.drive &&& 15).toNat * 0x1000000 + regs.high.toNat * 0x10000 + regs.mid.toNat * 0x100 +
    regs.low.toNat

def AtaRegs.sectors (regs : AtaRegs) : List Nat := List.range' regs.lba regs.count.toNat

def ataRegs (l : Word) (n : Nat) (wr : Bool) : AtaRegs where
  drive := 0xE0 ||| ((l >>> 24) &&& 15).setWidth 8
  count := BitVec.ofNat 8 n
  low := l.setWidth 8
  mid := (l >>> 8).setWidth 8
  high := (l >>> 16).setWidth 8
  command := if wr then 0x30 else 0x20

abbrev Status := Nat → Nat → Nat → BitVec 8

structure Issued where
  regs : AtaRegs
  moved : Nat
  deriving DecidableEq, Repr

structure IdeState where
  disk : Nat → Buffer UInt8
  mem : Buffer UInt8
  issued : List Issued

def waiting (st : BitVec 8) : Bool :=
  (hasFlag st 0x80 || !hasFlag st 0x08) && !hasFlag st 0x01

def poll (reads : Nat → BitVec 8) : Nat → Nat → BitVec 8
  | 0, i => reads i
  | spins + 1, i => if waiting (reads i) then poll reads spins (i + 1) else reads i

def pollSpins : Nat := 8000000

def ready (status : Status) (cmd s : Nat) : Bool :=
  let st := poll (status cmd s) pollSpins 0
  hasFlag st 0x08 && !hasFlag st 0x01

def moveSector (wr : Bool) (lba b : Nat) (st : IdeState) : IdeState :=
  if wr then { st with disk := Function.update st.disk lba fun k => st.mem (b + k) }
  else { st with mem := st.mem.write b ((st.disk lba).read 0 sectorSize) }

section Transfer

variable (status : Status) (wr : Bool)

def transfer (cmd lba : Nat) : Nat → Nat → Nat → IdeState → IdeState × Nat × Int
  | 0, s, _, st => (st, s, 0)
  | left + 1, s, b, st =>
    if ready status cmd s then
      transfer cmd lba left (s + 1) (b + sectorSize) (moveSector wr (lba + s) b st)
    else (st, s, -1)

def attempt (l : Word) (n b : Nat) (st : IdeState) : IdeState × Nat × Int :=
  let (st, s, rc) := transfer status wr st.issued.length (ataRegs l n wr).lba n 0 b st
  ({ st with issued := st.issued ++ [{ regs := ataRegs l n wr, moved := s }] }, s, rc)

def rw (l : Word) (n b : Nat) (st : IdeState) : IdeState × Int :=
  let (st, s, rc) := attempt status wr l n b st
  if rc = 0 then (st, rc)
  else
    let (st, _, rc) := attempt status wr l n (b + s * sectorSize) st
    (st, rc)

def dskLoop : Nat → Word → Nat → Nat → IdeState → IdeState × Int
  | 0, _, _, _, st => (st, 0)
  | fuel + 1, l, n, b, st =>
    if n = 0 then (st, 0)
    else
      let c := if n > 255 then 255 else n
      let (st, rc) := rw status wr l c b st
      if rc ≠ 0 then (st, rc)
      else dskLoop fuel (l + BitVec.ofNat 32 c) (n - c) (b + c * sectorSize) st

def dskIo (l n : Word) (b : Nat) (st : IdeState) : IdeState × Int :=
  dskLoop status wr n.toNat l n.toNat b st

structure IdePart where
  lba0 : Word
  lbaCnt : Word
  deriving DecidableEq, Repr

def partIo (part : IdePart) (l n : Word) (b : Nat) (st : IdeState) : IdeState × Int :=
  if l ≥ part.lbaCnt ∨ n > part.lbaCnt - l then (st, -1)
  else dskIo status wr (part.lba0 + l) n b st

end Transfer

def le32 (bytes : Buffer UInt8) (start : Nat) : Word :=
  (bytes start).toBitVec.setWidth 32 ||| (bytes (start + 1)).toBitVec.setWidth 32 <<< 8 |||
    (bytes (start + 2)).toBitVec.setWidth 32 <<< 16 ||| (bytes (start + 3)).toBitVec.setWidth 32 <<< 24

def mbrScan (sectors : Word) (mbr : Buffer UInt8) (i : Fin 4) : Option IdePart :=
  let e := 446 + 16 * i.val
  let lba := le32 mbr (e + 8)
  let cnt := le32 mbr (e + 12)
  if mbr 510 ≠ 0x55 ∨ mbr 511 ≠ 0xAA then none
  else if mbr (e + 4) = 0 ∨ cnt = 0 then none
  else if lba > sectors ∨ cnt > sectors - lba then none
  else some { lba0 := lba, lbaCnt := cnt }

section Effects

def moved (status : Status) (cmd : Nat) : Nat → Nat → Nat
  | 0, _ => 0
  | left + 1, s => if ready status cmd s then moved status cmd left (s + 1) + 1 else 0

def moveSectors (wr : Bool) : Nat → Nat → Nat → IdeState → IdeState
  | 0, _, _, st => st
  | m + 1, lba, b, st => moveSectors wr m (lba + 1) (b + sectorSize) (moveSector wr lba b st)

def IdeState.log (st : IdeState) (l : Word) (n : Nat) (wr : Bool) (m : Nat) : IdeState :=
  { st with issued := st.issued ++ [{ regs := ataRegs l n wr, moved := m }] }

def loaded (disk : Nat → Buffer UInt8) (lba b m : Nat) (mem : Buffer UInt8) : Buffer UInt8 :=
  fun i => if b ≤ i ∧ i < b + m * sectorSize then
    disk (lba + (i - b) / sectorSize) ((i - b) % sectorSize) else mem i

variable {status : Status} {wr : Bool} {l : Word}

theorem ataRegs_lba (l : Word) (n : Nat) (wr : Bool) :
    (ataRegs l n wr).lba = l.toNat % 0x10000000 := by
  -- The four registers hold the digits of the address to the base 256, the last one cut to 16.
  have top : ((0xE0 ||| ((l >>> 24) &&& 15).setWidth 8 : BitVec 8) &&& 15).toNat =
      l.toNat / 0x1000000 % 16 := by
    have cut : ∀ k, k &&& 15 = k % 2 ^ 4 := fun k => Nat.and_two_pow_sub_one_eq_mod k 4
    simp only [BitVec.toNat_and, BitVec.toNat_or, BitVec.toNat_setWidth, BitVec.toNat_ushiftRight,
      Nat.shiftRight_eq_div_pow]
    refine (cut _).trans (Nat.or_mod_two_pow.trans ?_)
    simp [cut]
  simp only [AtaRegs.lba, ataRegs, top, BitVec.toNat_setWidth, BitVec.toNat_ushiftRight,
    Nat.shiftRight_eq_div_pow]
  omega

theorem moved_le (status : Status) (cmd left s : Nat) : moved status cmd left s ≤ left := by
  induction left generalizing s with
  | zero => exact Nat.le_refl 0
  | succ left ih =>
    have next := ih (s + 1)
    simp only [moved]
    split <;> omega

theorem transfer_eq (cmd lba left s b : Nat) (st : IdeState) :
    transfer status wr cmd lba left s b st =
      (moveSectors wr (moved status cmd left s) (lba + s) b st, s + moved status cmd left s,
        if moved status cmd left s = left then 0 else -1) := by
  induction left generalizing s b st with
  | zero => rfl
  | succ left ih =>
    simp only [transfer, moved]
    split
    · rw [ih]
      simp [moveSectors, Nat.add_assoc, Nat.add_comm 1]
    · simp [moveSectors]

@[simp] theorem issued_moveSectors (m lba b : Nat) (st : IdeState) :
    (moveSectors wr m lba b st).issued = st.issued := by
  induction m generalizing lba b st with
  | zero => rfl
  | succ m ih =>
    rw [moveSectors, ih, moveSector]
    split <;> rfl

theorem rw_eq (n b : Nat) (st : IdeState) :
    let lba := l.toNat % 0x10000000
    let m := moved status st.issued.length n 0
    let again := moved status (st.issued.length + 1) n 0
    let first := (moveSectors wr m lba b st).log l n wr m
    rw status wr l n b st = if m = n then (first, 0) else
      ((moveSectors wr again lba (b + m * sectorSize) first).log l n wr again,
        if again = n then 0 else -1) := by
  intro lba m again first
  have shape : ∀ b (next : IdeState), attempt status wr l n b next =
      ((moveSectors wr (moved status next.issued.length n 0) lba b next).log l n wr
        (moved status next.issued.length n 0), moved status next.issued.length n 0,
        if moved status next.issued.length n 0 = n then 0 else -1) := by
    intro b next
    simp [attempt, transfer_eq, ataRegs_lba, IdeState.log, lba]
  have length : first.issued.length = st.issued.length + 1 := by
    simp [first, IdeState.log]
  simp only [rw, shape]
  by_cases all : moved status st.issued.length n 0 = n
  · simp [all, first, m]
  · simp only [if_neg all, m]
    rw [if_neg (by decide)]
    simp only [← length, again, first, m]

end Effects

section Commands

variable {status : Status} {wr : Bool}

def Issued.Within (first count : Nat) (cmd : Issued) : Prop :=
  ∀ s ∈ cmd.regs.sectors, first ≤ s ∧ s < first + count

def Issued.Succeeded (cmd : Issued) : Prop := cmd.moved = cmd.regs.count.toNat

def Issued.BrokenOff (cmd : Issued) : Prop := 0 < cmd.moved ∧ cmd.moved < cmd.regs.count.toNat

theorem sectors_ataRegs {l : Word} {n : Nat} (fits : l.toNat < 0x10000000) (few : n ≤ 255) :
    (ataRegs l n wr).sectors = List.range' l.toNat n := by
  have count : (ataRegs l n wr).count.toNat = n := by
    simp only [ataRegs, BitVec.toNat_ofNat]
    omega
  rw [AtaRegs.sectors, ataRegs_lba, count, Nat.mod_eq_of_lt fits]

inductive Chunk (wr : Bool) (l : Word) (c b : Nat) (st : IdeState) : IdeState → Prop
  | whole : Chunk wr l c b st ((moveSectors wr c l.toNat b st).log l c wr c)
  | retried (m : Nat) (short : m < c) : Chunk wr l c b st
      ((moveSectors wr c l.toNat (b + m * sectorSize)
        ((moveSectors wr m l.toNat b st).log l c wr m)).log l c wr c)

theorem rw_cases (status : Status) (wr : Bool) {l : Word} (fits : l.toNat < 0x10000000) (c b : Nat) (st : IdeState) :
    (∃ next, rw status wr l c b st = (next, 0) ∧ Chunk wr l c b st next) ∨
      ∃ next m again, rw status wr l c b st = (next, -1) ∧ m < c ∧ again < c ∧
        next.issued = st.issued ++ [{ regs := ataRegs l c wr, moved := m },
          { regs := ataRegs l c wr, moved := again }] := by
  have short := moved_le status st.issued.length c 0
  have short' := moved_le status (st.issued.length + 1) c 0
  rw [rw_eq, Nat.mod_eq_of_lt fits]
  generalize moved status st.issued.length c 0 = m at *
  generalize moved status (st.issued.length + 1) c 0 = again at *
  by_cases all : m = c
  · rw [if_pos all, all]
    exact .inl ⟨_, rfl, .whole⟩
  rw [if_neg all]
  by_cases second : again = c
  · rw [if_pos second, second]
    exact .inl ⟨_, rfl, .retried m (by omega)⟩
  · rw [if_neg second]
    exact .inr ⟨_, m, again, rfl, by omega, by omega, by simp [IdeState.log]⟩

/-- The commands of a request stay inside of it, and cover it in order if they all succeed. -/
theorem dskLoop_issued (fuel : Nat) {l : Word} {n b : Nat} (st : IdeState)
    (fits : l.toNat + n ≤ 0x10000000) (enough : n ≤ fuel) :
    ∃ cmds, (dskLoop status wr fuel l n b st).1.issued = st.issued ++ cmds ∧
      (∀ cmd ∈ cmds, cmd.Within l.toNat n) ∧
      ((∀ cmd ∈ cmds, cmd.Succeeded) →
        cmds.flatMap (·.regs.sectors) = List.range' l.toNat n) := by
  -- The induction is on the bound of the chunks; each one has a command of its own, or two.
  induction fuel generalizing l n b st with
  | zero =>
    obtain rfl : n = 0 := by omega
    exact ⟨[], by simp [dskLoop]⟩
  | succ fuel ih =>
    by_cases none : n = 0
    · exact ⟨[], by simp [dskLoop, none]⟩
    obtain ⟨c, chunk⟩ : ∃ c, c = if n > 255 then 255 else n := ⟨_, rfl⟩
    have bounds : 0 < c ∧ c ≤ n ∧ c ≤ 255 := by split at chunk <;> omega
    have covers : (ataRegs l c wr).sectors = List.range' l.toNat c :=
      sectors_ataRegs (by omega) bounds.2.2
    have count : (ataRegs l c wr).count.toNat = c := by
      simpa [AtaRegs.sectors] using congrArg List.length covers
    have inside : ∀ m, Issued.Within l.toNat n { regs := ataRegs l c wr, moved := m } := by
      intro m s member
      rw [covers, List.mem_range'_1] at member
      omega
    simp only [dskLoop, if_neg none, ← chunk]
    rcases @rw_cases status wr l (by omega) c b st with
      ⟨next, result, chunk⟩ | ⟨next, m, again, result, short, -, issued⟩
    · -- The rest of the request has its commands, after the ones of this chunk.
      have later : (l + BitVec.ofNat 32 c).toNat = l.toNat + c := by
        simp only [BitVec.toNat_add, BitVec.toNat_ofNat]
        omega
      obtain ⟨cmds, issued, within, covered⟩ := @ih (l + BitVec.ofNat 32 c) (n - c)
        (b + c * sectorSize) next (by omega) (by omega)
      rw [later] at within covered
      have rest : ∀ cmd ∈ cmds, cmd.Within l.toNat n := by
        intro cmd member s addressed
        have := within cmd member s addressed
        omega
      simp only [result, ne_eq, not_true_eq_false, if_false, issued]
      cases chunk with
      | whole =>
        refine ⟨{ regs := ataRegs l c wr, moved := c } :: cmds, by simp [IdeState.log], ?_, ?_⟩
        · simpa [inside] using rest
        · intro all
          simp only [List.mem_cons, forall_eq_or_imp] at all
          rw [List.flatMap_cons, covered all.2, covers, List.range'_append_1]
          congr 1
          omega
      | retried m short =>
        refine ⟨{ regs := ataRegs l c wr, moved := m } :: { regs := ataRegs l c wr, moved := c } ::
          cmds, by simp [IdeState.log], by simpa [inside] using rest, ?_⟩
        intro all
        have first := all _ (List.mem_cons_self ..)
        simp only [Issued.Succeeded, count] at first
        omega
    · simp only [result, ne_eq, reduceCtorEq, not_false_eq_true, if_true, issued]
      refine ⟨_, rfl, by simp [inside], fun all => ?_⟩
      have first := all _ (List.mem_cons_self ..)
      simp only [Issued.Succeeded, count] at first
      omega

/--
Requests to a registered partition stay inside of it.

A request that is not turned down addresses nothing but sectors of the partition, which lies on
the disk, and if all its commands succeed, these are the sectors asked for, each once and in order.
-/
theorem partition_contained (sectors : Word) (small : sectors.toNat ≤ 0x10000000)
    (mbr : Buffer UInt8) (i : Fin 4) (part : IdePart) (registered : mbrScan sectors mbr i = some part)
    (l n : Word) (b : Nat) (status : Status) (wr : Bool) (st : IdeState) :
    partIo status wr part l n b st = (st, -1) ∨
      part.lba0.toNat + part.lbaCnt.toNat ≤ sectors.toNat ∧
      ∃ cmds, (partIo status wr part l n b st).1.issued = st.issued ++ cmds ∧
        (∀ cmd ∈ cmds, cmd.Within part.lba0.toNat part.lbaCnt.toNat) ∧
        ((∀ cmd ∈ cmds, cmd.Succeeded) →
          cmds.flatMap (·.regs.sectors) = List.range' (part.lba0.toNat + l.toNat) n.toNat) := by
  have inside : part.lba0.toNat + part.lbaCnt.toNat ≤ sectors.toNat := by
    simp only [mbrScan] at registered
    split at registered
    · cases registered
    split at registered
    · cases registered
    split at registered
    · cases registered
    · rename_i fits
      cases registered
      simp only [gt_iff_lt, not_or, BitVec.not_lt, BitVec.le_def] at fits
      have difference := BitVec.toNat_sub_of_le fits.1
      dsimp only
      omega
  by_cases refused : l ≥ part.lbaCnt ∨ n > part.lbaCnt - l
  · exact .inl (if_pos refused)
  refine .inr ⟨inside, ?_⟩
  rw [partIo, if_neg refused]
  simp only [ge_iff_le, gt_iff_lt, not_or, BitVec.not_le, BitVec.not_lt] at refused
  have difference := BitVec.toNat_sub_of_le (BitVec.le_of_lt refused.1)
  have request : l.toNat + n.toNat ≤ part.lbaCnt.toNat := by
    have below := refused.1
    have room := refused.2
    rw [BitVec.lt_def] at below
    rw [BitVec.le_def] at room
    omega
  have start : (part.lba0 + l).toNat = part.lba0.toNat + l.toNat := by
    rw [BitVec.toNat_add]
    omega
  obtain ⟨cmds, issued, within, covered⟩ := @dskLoop_issued status wr n.toNat (part.lba0 + l)
    n.toNat b st (by omega) (Nat.le_refl _)
  rw [start] at within covered
  refine ⟨cmds, issued, fun cmd member s addressed => ?_, covered⟩
  have := within cmd member s addressed
  omega

def oneEntry : Buffer UInt8 :=
  fun k => if k = 450 then 6 else if k = 454 then 1 else if k = 458 then 4 else
    if k = 510 then 0x55 else if k = 511 then 0xAA else 0

theorem partition_contained_one :
    mbrScan 8 oneEntry 0 = some { lba0 := 1, lbaCnt := 4 } ∧
      let st : IdeState := { disk := fun _ _ => 0, mem := fun _ => 0, issued := [] }
      let after := partIo (fun _ _ _ => 0x58) true { lba0 := 1, lbaCnt := 4 } 1 3 0 st
      after = (st, -1) ∨ 1 + 4 ≤ 8 ∧ ∃ cmds, after.1.issued = [] ++ cmds ∧
        (∀ cmd ∈ cmds, cmd.Within 1 4) ∧ ((∀ cmd ∈ cmds, cmd.Succeeded) →
          cmds.flatMap (·.regs.sectors) = List.range' (1 + 1) 3) :=
  ⟨by decide, partition_contained 8 (by decide) oneEntry 0 _ (by decide) 1 3 0 _ true _⟩

end Commands

section Reads

variable {status : Status}

theorem moveSector_read (lba b : Nat) (st : IdeState) :
    moveSector false lba b st = { st with mem := loaded st.disk lba b 1 st.mem } := by
  simp only [moveSector, Bool.false_eq_true, if_false]
  congr 1
  funext i
  simp only [Buffer.write, loaded, Buffer.getElem?_read]
  grind

theorem loaded_loaded (disk : Nat → Buffer UInt8) (lba b m more : Nat) (mem : Buffer UInt8) :
    loaded disk (lba + m) (b + m * sectorSize) more (loaded disk lba b m mem) =
      loaded disk lba b (m + more) mem := by
  funext i
  simp only [loaded]
  grind

theorem loaded_zero (disk : Nat → Buffer UInt8) (lba b : Nat) (mem : Buffer UInt8) :
    loaded disk lba b 0 mem = mem := by
  funext i
  rw [loaded, if_neg (by omega)]

theorem moveSectors_read (m lba b : Nat) (st : IdeState) :
    moveSectors false m lba b st = { st with mem := loaded st.disk lba b m st.mem } := by
  induction m generalizing lba b st with
  | zero => rw [moveSectors, loaded_zero]
  | succ m ih =>
    have first := loaded_loaded st.disk lba b 1 m st.mem
    rw [Nat.one_mul, Nat.add_comm 1 m] at first
    rw [moveSectors, ih, moveSector_read, ← first]

theorem dskLoop_control (fuel : Nat) (l : Word) (n b : Nat) {st other : IdeState}
    (same : st.issued = other.issued) :
    (dskLoop status false fuel l n b st).2 = (dskLoop status false fuel l n b other).2 ∧
      (dskLoop status false fuel l n b st).1.issued =
        (dskLoop status false fuel l n b other).1.issued := by
  -- Whether a sector is ready depends on the number of the command alone.
  induction fuel generalizing l n b st other with
  | zero => exact ⟨rfl, same⟩
  | succ fuel ih =>
    simp only [dskLoop, rw_eq, same]
    split
    · exact ⟨rfl, same⟩
    generalize (if n > 255 then 255 else n) = c
    split
    · exact ih _ _ _ (by simp [IdeState.log, same])
    · split
      · exact ih _ _ _ (by simp [IdeState.log, same])
      · exact ⟨rfl, by simp [IdeState.log, same]⟩

def numbered : Nat → Buffer UInt8 := fun lba _ => UInt8.ofNat lba

/--
What a request that succeeds has read.

The sectors arrive if no command broke off, and on a disk with numbered sectors only then.
-/
theorem dskLoop_read (fuel : Nat) {l : Word} {n b : Nat} (st : IdeState)
    (fits : l.toNat + n ≤ 0x10000000) (enough : n ≤ fuel) {last : IdeState}
    (returned : dskLoop status false fuel l n b st = (last, 0)) :
    ∃ cmds, last.issued = st.issued ++ cmds ∧ (∀ i < b, last.mem i = st.mem i) ∧
      ((∀ cmd ∈ cmds, ¬cmd.BrokenOff) → last.mem = loaded st.disk l.toNat b n st.mem) ∧
      (st.disk = numbered → last.mem = loaded st.disk l.toNat b n st.mem →
        ∀ cmd ∈ cmds, ¬cmd.BrokenOff) := by
  induction fuel generalizing l n b st with
  | zero =>
    obtain rfl : n = 0 := by omega
    cases returned
    exact ⟨[], by simp [loaded_zero]⟩
  | succ fuel ih =>
    by_cases none : n = 0
    · simp only [dskLoop, if_pos none] at returned
      cases returned
      exact ⟨[], by simp [none, loaded_zero]⟩
    obtain ⟨c, chunk⟩ : ∃ c, c = if n > 255 then 255 else n := ⟨_, rfl⟩
    have bounds : 0 < c ∧ c ≤ n ∧ c ≤ 255 := by split at chunk <;> omega
    have count : (ataRegs l c false).count.toNat = c := by
      simp only [ataRegs, BitVec.toNat_ofNat]
      omega
    simp only [dskLoop, if_neg none, ← chunk] at returned
    rcases @rw_cases status false l (by omega) c b st with
      ⟨next, result, chunk⟩ | ⟨next, m, again, result, -⟩
    swap
    · simp [result] at returned
    simp only [result, ne_eq, not_true_eq_false, if_false] at returned
    have later : (l + BitVec.ofNat 32 c).toNat = l.toNat + c := by
      simp only [BitVec.toNat_add, BitVec.toNat_ofNat]
      omega
    obtain ⟨cmds, issued, frame, right, only⟩ := ih next (by omega) (by omega) returned
    have run := loaded_loaded st.disk l.toNat b c (n - c) st.mem
    rw [Nat.add_sub_cancel' bounds.2.1] at run
    rw [later] at right only
    cases chunk with
    | whole =>
      simp only [moveSectors_read, IdeState.log] at issued frame right only
      rw [run] at right only
      refine ⟨{ regs := ataRegs l c false, moved := c } :: cmds, by simp [issued], ?_, ?_, ?_⟩
      · intro i before
        rw [frame i (by omega), loaded, if_neg (by omega)]
      · intro whole
        exact right fun cmd member => whole cmd (List.mem_cons_of_mem _ member)
      · intro disk same
        simpa [Issued.BrokenOff, count] using only disk same
    | retried m short =>
      simp only [moveSectors_read, IdeState.log] at issued frame right only
      refine ⟨{ regs := ataRegs l c false, moved := m } :: { regs := ataRegs l c false, moved := c } ::
        cmds, by simp [issued], ?_, ?_, ?_⟩
      · intro i before
        rw [frame i (by omega), loaded, if_neg (by omega), loaded, if_neg (by omega)]
      · intro whole
        simp only [List.mem_cons, forall_eq_or_imp, Issued.BrokenOff, count] at whole
        obtain rfl : m = 0 := by omega
        rw [right whole.2.2, Nat.zero_mul, Nat.add_zero, loaded_zero, run]
      · intro disk same
        -- The retry has put the first sector where the one that was missing belongs.
        have room : m * sectorSize < c * sectorSize :=
          Nat.mul_lt_mul_of_pos_right short (by decide)
        have wide := Nat.mul_le_mul_right sectorSize bounds.2.1
        have here := congrFun same (b + m * sectorSize)
        rw [frame _ (by omega), loaded, if_pos (by omega), loaded, if_pos (by omega)] at here
        simp only [disk, numbered, Nat.sub_self, Nat.zero_div, Nat.add_sub_cancel_left,
          Nat.mul_div_cancel m (by decide : 0 < sectorSize)] at here
        have digits := congrArg UInt8.toNat here
        simp only [UInt8.toNat_ofNat'] at digits
        obtain rfl : m = 0 := by omega
        rw [Nat.zero_mul, Nat.add_zero, loaded_zero, run] at only
        simpa [Issued.BrokenOff, count] using only disk same

def ReadCorrect (status : Status) (l n : Word) (b : Nat) (st : IdeState) : Prop :=
  (dskIo status false l n b st).2 = 0 →
    (dskIo status false l n b st).1.mem = loaded st.disk l.toNat b n.toNat st.mem

end Reads

end CatOs.Ide
