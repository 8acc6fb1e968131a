import CatOs.Fs.FatCache
import Mathlib.Data.List.TakeWhile

/-! The files of the root directory: counting them, numbering them and finding them by name. -/

namespace CatOs.Fat16

def rootRaw (disk : Disk) (m : Fat16Mnt) (i : Nat) : Option (Buffer UInt8) :=
  (m.sector disk ((Access.root i).lba m)).map fun sector k => sector (i % 16 * 32 + k)

def censusFrom (disk : Disk) (m : Fat16Mnt) : Nat → Nat → Nat → Option Nat
  | 0, _, nfiles => some nfiles
  | left + 1, i, nfiles =>
    match rootRaw disk m i with
    | none => none
    | some r =>
      if r 0 = 0 then some nfiles
      else if r 0 = 0xE5 then censusFrom disk m left (i + 1) nfiles
      else if r 11 = attrLfn then censusFrom disk m left (i + 1) nfiles
      else if hasFlag (r 11).toBitVec attrVolume then censusFrom disk m left (i + 1) nfiles
      else if hasFlag (r 11).toBitVec attrDir then censusFrom disk m left (i + 1) nfiles
      else censusFrom disk m left (i + 1) (nfiles + 1)

def fat16FileCount (disk : Disk) (m : Fat16Mnt) : Option Nat := censusFrom disk m m.rootents 0 0

def rootFrom (disk : Disk) (m : Fat16Mnt) : Nat → Nat → List (Nat × Buffer UInt8)
  | 0, _ => []
  | left + 1, i =>
    match rootRaw disk m i with
    | none => []
    | some r => if r 0 = 0 then [] else (i, r) :: rootFrom disk m left (i + 1)

def isFile (r : Buffer UInt8) : Bool := (visible r).any fun d => !d.isDir

def rootEntries (disk : Disk) (m : Fat16Mnt) : List (Nat × Buffer UInt8) :=
  rootFrom disk m m.rootents 0

def rootFiles (disk : Disk) (m : Fat16Mnt) : List (Nat × Buffer UInt8) :=
  (rootEntries disk m).filter fun e => isFile e.2

def dirent (r : Buffer UInt8) : Fat16Dirent := (deFill r).1

def isNamed (seg : List UInt8) (r : Buffer UInt8) : Bool :=
  (visible r).any fun d => nameq seg d.name

section Root

variable {disk : Disk} {m : Fat16Mnt}

theorem rootReadable_succ {left i : Nat} (readable : rootReadable disk m (left + 1) i = true) :
    ∃ r, rootRaw disk m i = some r ∧
      (r 0 = 0 ∨ r 0 ≠ 0 ∧ rootReadable disk m left (i + 1) = true) := by
  simp only [rootReadable] at readable
  split at readable
  · cases readable
  rename_i sector reads
  refine ⟨fun k => sector (i % 16 * 32 + k), by rw [rootRaw, reads]; rfl, ?_⟩
  split at readable
  · exact .inl ‹_›
  · exact .inr ⟨‹_›, readable⟩

theorem censusFrom_eq : ∀ {left i nfiles : Nat}, rootReadable disk m left i = true →
    censusFrom disk m left i nfiles =
      some (nfiles + ((rootFrom disk m left i).filter fun e => isFile e.2).length) := by
  intro left
  induction left with
  | zero =>
    intro i nfiles _
    rfl
  | succ left ih =>
    intro i nfiles readable
    obtain ⟨r, reads, ended | ⟨live, later⟩⟩ := rootReadable_succ readable
    · simp [censusFrom, rootFrom, reads, ended]
    · have file : isFile r = (r 0 ≠ 0xE5 ∧ r 11 ≠ attrLfn ∧ !hasFlag (r 11).toBitVec attrVolume ∧
          !hasFlag (r 11).toBitVec attrDir : Bool) := by
        simp only [isFile, visible, deFill, Fat16Dirent.isDir]
        grind
      simp only [censusFrom, rootFrom, reads, live, if_false, List.filter_cons, file]
      rw [ih later, ih later]
      grind

theorem dirRaw_root {i : Nat} {r : Buffer UInt8} (reads : rootRaw disk m i = some r)
    (within : i < m.rootents) (fc : FatCache) :
    ∃ fc', dirRaw disk m .root i fc = (fc', .entry r) := by
  obtain ⟨sector, found, rfl⟩ := Option.map_eq_some_iff.mp reads
  refine ⟨fc.note (.root i), ?_⟩
  simp only [dirRaw, Nat.not_le.mpr within, if_false, readEntry, rdSec, found]

theorem visible_eq (r : Buffer UInt8) : visible r = none ∨ visible r = some (dirent r) := by
  simp only [visible, dirent]
  split
  · exact .inr rfl
  · exact .inl rfl

theorem rootEnumFrom_eq {want : Nat} : ∀ {left i hit : Nat} (fc : FatCache),
    rootReadable disk m left i = true → i + left = m.rootents → hit ≤ want →
    (rootEnumFrom disk m want left i hit fc).2 =
      match ((rootFrom disk m left i).filter fun e => isFile e.2)[want - hit]? with
      | some e => .ok (dirent e.2)
      | none => .error (-2) := by
  intro left
  induction left with
  | zero =>
    intro i hit fc _ _ _
    rfl
  | succ left ih =>
    intro i hit fc readable bound small
    obtain ⟨r, reads, state⟩ := rootReadable_succ readable
    obtain ⟨fc', raw⟩ := dirRaw_root reads (by omega) fc
    simp only [rootEnumFrom, rootFrom, raw, reads]
    rcases state with ended | ⟨live, later⟩
    · simp [ended]
    · rcases visible_eq r with hidden | shown
      · simp only [live, if_false, hidden, List.filter_cons, isFile, Option.any_none,
          Bool.false_eq_true]
        exact ih fc' later (by omega) small
      · simp only [live, if_false, shown, List.filter_cons, isFile, Option.any_some]
        by_cases dir : (dirent r).isDir = true
        · simp only [dir, if_true, Bool.not_true, Bool.false_eq_true, if_false]
          exact ih fc' later (by omega) small
        · by_cases here : hit = want
          · simp [dir, here]
          · have next : want - hit = want - (hit + 1) + 1 := by omega
            simp only [dir, here, if_false, Bool.not_false, if_true, next, List.getElem?_cons_succ,
              Bool.false_eq_true]
            exact ih fc' later (by omega) (by omega)

theorem rootFrom_sorted : ∀ {left i : Nat},
    ((rootFrom disk m left i).map Prod.fst).Pairwise (· < ·) ∧
      ∀ e ∈ rootFrom disk m left i, i ≤ e.1 ∧ e.1 < i + left ∧ rootRaw disk m e.1 = some e.2 := by
  intro left
  induction left with
  | zero => simp [rootFrom]
  | succ left ih =>
    intro i
    obtain ⟨sorted, placed⟩ := @ih (i + 1)
    simp only [rootFrom]
    split
    · simp
    split
    · simp
    · rw [List.map_cons, List.pairwise_cons]
      refine ⟨⟨?_, sorted⟩, ?_⟩ <;> grind

/-- The search of the root directory ends at the first entry of the name. -/
theorem scanDir_root {seg : List UInt8} {e : Nat × Buffer UInt8} (few : m.rootents < 65536) :
    ∀ {left fuel : Nat} {i : Word} (fc : FatCache), rootReadable disk m left i.toNat = true →
    i.toNat + left = m.rootents → e.1 < i.toNat + fuel →
    ((rootFrom disk m left i.toNat).find? fun e => isNamed seg e.2) = some e →
    (scanDir disk m .root seg fuel i fc).2 = some (.hit (dirent e.2)) := by
  intro left
  induction left with
  | zero =>
    intro fuel i fc _ _ _ found
    cases found
  | succ left ih =>
    intro fuel i fc readable bound enough found
    obtain ⟨after, -, -⟩ := rootFrom_sorted.2 e (List.mem_of_find?_eq_some found)
    obtain ⟨r, reads, state⟩ := rootReadable_succ readable
    obtain ⟨fc', raw⟩ := dirRaw_root reads (by omega) fc
    rcases state with ended | ⟨live, later⟩
    · simp [rootFrom, reads, ended] at found
    cases fuel with
    | zero => omega
    | succ fuel =>
      have next : (i + 1).toNat = i.toNat + 1 := by
        rw [BitVec.toNat_add]
        exact Nat.mod_eq_of_lt (by simp; omega)
      rw [← next] at later
      simp only [rootFrom, reads, live, if_false, List.find?_cons, isNamed] at found
      simp only [scanDir, raw, lookAt, live, if_false]
      have continues := @ih fuel (i + 1) fc' later (by omega) (by omega)
      rw [next] at continues
      rcases visible_eq r with hidden | shown
      · simp only [hidden, Option.any_none] at found ⊢
        exact continues found
      · simp only [shown, Option.any_some] at found ⊢
        by_cases named : nameq seg (dirent r).name = true
        · simp only [named, if_true, Option.some.injEq] at found ⊢
          rw [← found]
        · simp only [named, if_false, Bool.false_eq_true] at found ⊢
          exact continues found

theorem bpbVolume_rootents {part : Word} {bs : Sector} (described : bpbVolume part bs = some m) :
    m.rootents < 65536 := by
  have small : le16 bs 17 < 65536 := by
    have low := (bs 17).toNat_lt
    have high := (bs (17 + 1)).toNat_lt
    simp only [le16]
    omega
  -- Each of the checks refuses the volume.
  simp only [bpbVolume, Option.ite_none_left_eq_some, Option.dite_none_left_eq_some] at described
  obtain ⟨-, -, _, _, -, -, _, _, found⟩ := described
  cases found
  exact small

theorem fat16Mount_readable {part : Word} {start : FatCache}
    (mounted : fat16Mount disk part = some (m, start)) :
    rootReadable disk m m.rootents 0 = true ∧ m.rootents < 65536 := by
  simp only [fat16Mount] at mounted
  split at mounted
  · cases mounted
  split at mounted
  · cases mounted
  rename_i described
  split at mounted
  · rename_i readable
    cases mounted
    exact ⟨readable, bpbVolume_rootents described⟩
  · cases mounted

theorem length_fmt83 (r : Buffer UInt8) : (fmt83 r).length ≤ 12 := by
  have name := List.Sublist.length_le (List.takeWhile_sublist (· ≠ 0x20) (l := r.read 0 8))
  have extension := List.Sublist.length_le (List.takeWhile_sublist (· ≠ 0x20) (l := r.read 8 3))
  rw [Buffer.length_read] at name extension
  rw [fmt83, List.length_append]
  split
  · rw [List.length_cons]
    omega
  · simp only [List.length_nil]
    omega

theorem up_eq_slash {c : UInt8} : up c = slash ↔ c = slash := by
  unfold up slash
  grind

theorem cstr_cstr (bytes : List UInt8) : cstr (cstr bytes) = cstr bytes :=
  List.takeWhile_idem

theorem single_seg {p : List UInt8} (filled : p ≠ []) (plain : slash ∉ p) :
    dropSlashes p = p ∧ nextSeg p = p ∧ afterSeg p = [] := by
  have kept : dropSlashes p = p := by
    cases p with
    | nil => rfl
    | cons c rest =>
      have other : c ≠ slash := fun same => plain (by simp [same])
      simp [dropSlashes, other]
  have all : p.dropWhile (· ≠ slash) = [] := by
    rw [List.dropWhile_eq_nil_iff]
    intro c member
    have other : c ≠ slash := fun same => plain (same ▸ member)
    simpa using other
  refine ⟨kept, ?_, by rw [afterSeg, kept, all]⟩
  rw [nextSeg, kept, List.takeWhile_eq_self_iff]
  exact List.dropWhile_eq_nil_iff.mp all

theorem nameq_plain {path name : List UInt8} (same : nameq path name = true)
    (filled : cstr name ≠ []) (plain : slash ∉ cstr name) :
    cstr path ≠ [] ∧ slash ∉ cstr path ∧ (cstr path).length = (cstr name).length := by
  have same : (cstr path).map up = (cstr name).map up := of_decide_eq_true same
  have length : (cstr path).length = (cstr name).length := by simpa using congrArg List.length same
  refine ⟨?_, ?_, length⟩
  · intro empty
    rw [empty] at length
    exact filled (List.length_eq_zero_iff.mp length.symm)
  · intro member
    have upper := List.mem_map_of_mem (f := up) member
    rw [same] at upper
    obtain ⟨c, inside, equal⟩ := List.mem_map.mp upper
    exact plain (up_eq_slash.mp (equal.trans (up_eq_slash.mpr rfl)) ▸ inside)

/-- The first entry of a name is found by any spelling of the name. -/
theorem fat16Lookup_root {part : Word} {start : FatCache}
    (mounted : fat16Mount disk part = some (m, start)) (fc : FatCache) {f : Nat × Buffer UInt8}
    (member : f ∈ rootFiles disk m) (filled : cstr (dirent f.2).name ≠ [])
    (plain : slash ∉ cstr (dirent f.2).name)
    (first : ∀ e ∈ rootEntries disk m, e.1 < f.1 → isNamed (dirent f.2).name e.2 = false)
    {path : List UInt8} (same : nameq path (dirent f.2).name = true) {fuel : Nat}
    (enough : f.1 < fuel) :
    (fat16Lookup disk m fuel path fc).2 = some (.ok (dirent f.2)) := by
  obtain ⟨readable, few⟩ := fat16Mount_readable mounted
  obtain ⟨sorted, placed⟩ := @rootFrom_sorted disk m m.rootents 0
  obtain ⟨started, single, length⟩ := nameq_plain same filled plain
  obtain ⟨kept, seg, rest⟩ := single_seg started single
  have short : (cstr path).length ≤ 12 :=
    length ▸ (List.takeWhile_sublist _).length_le.trans (length_fmt83 f.2)
  -- Every spelling stops the search at the same entries.
  have spelling : isNamed (cstr path) = isNamed (dirent f.2).name := by
    have same : (cstr path).map up = (cstr (dirent f.2).name).map up := of_decide_eq_true same
    funext r
    simp only [isNamed, nameq, cstr_cstr, same]
  have file : isFile f.2 = true := (List.mem_filter.mp member).2
  have named : isNamed (dirent f.2).name f.2 = true := by
    rcases visible_eq f.2 with hidden | shown
    · simp [isFile, hidden] at file
    · simp [isNamed, shown, nameq]
  have found : ((rootEntries disk m).find? fun e => isNamed (cstr path) e.2) = some f := by
    rw [spelling]
    cases search : (rootEntries disk m).find? fun e => isNamed (dirent f.2).name e.2 with
    | none =>
      have absent := List.find?_eq_none.mp search f (List.mem_of_mem_filter member)
      exact absurd named absent
    | some e =>
      obtain ⟨stops, before, behind, parts, passed⟩ := List.find?_eq_some_iff_append.mp search
      have inside := List.mem_of_mem_filter member
      rw [parts, List.mem_append, List.mem_cons] at inside
      rcases inside with earlier | rfl | later
      · have := passed f earlier
        simp [named] at this
      · rfl
      · -- An entry that comes before the file stands at an earlier position.
        have less : e.1 < f.1 := by
          have order : ((before ++ e :: behind).map Prod.fst).Pairwise (· < ·) := parts ▸ sorted
          rw [List.map_append, List.map_cons, List.pairwise_append, List.pairwise_cons] at order
          exact order.2.1.1 f.1 (List.mem_map_of_mem later)
        have := first e (List.mem_of_find?_eq_some search) less
        rw [stops] at this
        cases this
  have scanned := @scanDir_root disk m (cstr path) f few _ fuel 0 fc readable (Nat.zero_add _)
    (by simpa using enough) found
  obtain ⟨n, size⟩ := Nat.exists_eq_succ_of_ne_zero (List.length_pos_iff.mpr started).ne'
  generalize scans : scanDir disk m .root (cstr path) fuel 0 fc = scan at scanned
  obtain ⟨fc', found⟩ := scan
  subst scanned
  rw [size] at short
  simp only [fat16Lookup, size, lookupFrom, kept, started, if_false, seg, gt_iff_lt,
    Nat.not_lt.mpr short, scans, rest]
  rfl

end Root

def fileDisk : Disk := fun lba =>
  let root (i : Nat) : UInt8 := if i = 0 then 0x41 else if i < 11 then 0x20 else 0
  some (tinyMedium (fun _ => 0) root (fun _ _ => 0) lba)

end CatOs.Fat16
