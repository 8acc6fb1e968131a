import CatOs.Net.Tcp.Output
import Mathlib.Data.List.Nodup

/-! Reading the options of a segment: where the walk looks, and which blocks it leaves behind. -/

namespace CatOs.Tcp

def sackReads (c : TcpConn) (body : List UInt8) (start : Nat) : List Nat :=
  (forRange (body.length / 8) (fun i (state : TcpConn × List Nat) =>
    if state.1.sackN < 2 then
      (addSackBlock state.1 (be32 (body.drop (i * 8))) (be32 (body.drop (i * 8 + 4))),
        state.2 ++ List.range' (start + i * 8) 8)
    else state) (resetSack c, [])).2

def optionReads (c : TcpConn) (kind : UInt8) (body : List UInt8) (syn : Bool) (start : Nat) :
    List Nat :=
  if kind = 3 ∧ body.length = 1 ∧ syn then [start]
  else if kind = 2 ∧ body.length = 2 ∧ syn then [start, start + 1]
  else if kind = 5 ∧ !syn ∧ c.sackOk ∧ body.length ≥ 8 ∧ body.length % 8 = 0 then
    sackReads c body start
  else []

def optsReadsFrom : Nat → TcpConn → List UInt8 → Bool → Nat → List Nat
  | 0, _, _, _, _ => []
  | _ + 1, _, [], _, _ => []
  | fuel + 1, c, kind :: rest, syn, start =>
    start ::
      if kind = 0 then []
      else if kind = 1 then optsReadsFrom fuel c rest syn (start + 1)
      else
        match rest with
        -- A single byte is left, and the length is not read.
        | [] => []
        | olen :: _ =>
          (start + 1) ::
            if olen.toNat < 2 ∨ olen.toNat > rest.length + 1 then []
            else
              let body := (rest.drop 1).take (olen.toNat - 2)
              optionReads c kind body syn (start + 2) ++
                optsReadsFrom fuel (applyOption c kind body syn) (rest.drop (olen.toNat - 1)) syn
                  (start + olen.toNat)

def optsReads (c : TcpConn) (opt : List UInt8) (syn : Bool) : List Nat :=
  optsReadsFrom opt.length c opt syn 0

def bodyReports (body : List UInt8) : List (Word × Word) :=
  (List.range (body.length / 8)).map fun i =>
    (be32 (body.drop (i * 8)), be32 (body.drop (i * 8 + 4)))

def sackReportsFrom : Nat → Bool → List UInt8 → List (Word × Word) → List (Word × Word)
  | 0, _, _, reports => reports
  | _ + 1, _, [], reports => reports
  | fuel + 1, sackOk, kind :: rest, reports =>
    if kind = 0 then reports
    else if kind = 1 then sackReportsFrom fuel sackOk rest reports
    else
      match rest with
      | [] => reports
      | olen :: _ =>
        if olen.toNat < 2 ∨ olen.toNat > rest.length + 1 then reports
        else
          let body := (rest.drop 1).take (olen.toNat - 2)
          sackReportsFrom fuel sackOk (rest.drop (olen.toNat - 1))
            (if kind = 5 ∧ sackOk ∧ body.length ≥ 8 ∧ body.length % 8 = 0 then bodyReports body
              else reports)

def sackReports (c : TcpConn) (opt : List UInt8) (syn : Bool) : List (Word × Word) :=
  if syn then [] else sackReportsFrom opt.length c.sackOk opt []

def clipReport (una nxt : Word) (report : Word × Word) : Option (Word × Word) :=
  if tcpSeqBefore report.1 report.2 && !tcpSeqAfter report.2 nxt && !tcpSeqBefore report.2 una then
    some (if tcpSeqBefore report.1 una then una else report.1, report.2)
  else none

def keptReports (una nxt : Word) (reports : List (Word × Word)) : List (Word × Word) :=
  (reports.filterMap (clipReport una nxt)).eraseDups.take 2

def storedBlocks (c : TcpConn) : List (Word × Word) :=
  (List.range c.sackN).map fun i => (c.sackLeft i, c.sackRight i)

def UsableBlock (una nxt : Word) (block : Word × Word) : Prop :=
  (block.1 - una).toNat < (block.2 - una).toNat ∧ (block.2 - una).toNat ≤ (nxt - una).toNat

instance (una nxt : Word) (block : Word × Word) : Decidable (UsableBlock una nxt block) :=
  inferInstanceAs (Decidable (_ ∧ _))

section Walk

variable {c : TcpConn}

theorem sackReads_lt (body : List UInt8) (start : Nat) :
    ∀ offset ∈ sackReads c body start, offset < start + body.length := by
  unfold sackReads
  refine forRange_invariant (fun _ (state : TcpConn × List Nat) =>
    ∀ offset ∈ state.2, offset < start + body.length) ?_ ?_
  · intro offset none
    cases none
  · intro i state within earlier
    split
    · intro offset member
      rcases List.mem_append.mp member with before | here
      · exact earlier offset before
      · -- A whole block fits below the end of the body.
        rw [List.mem_range'_1] at here
        omega
    · exact earlier

theorem optionReads_lt (kind : UInt8) (body : List UInt8) (syn : Bool) (start : Nat) :
    ∀ offset ∈ optionReads c kind body syn start, offset < start + body.length := by
  intro offset member
  unfold optionReads at member
  split_ifs at member with scale size blocks
  · rw [List.mem_singleton] at member
    omega
  · rw [List.mem_cons, List.mem_singleton] at member
    omega
  · exact sackReads_lt body start offset member
  · cases member

/-- The walk reads nothing past the end of the options. -/
theorem optsReadsFrom_lt (fuel : Nat) (c : TcpConn) (opt : List UInt8) (syn : Bool) (start : Nat) :
    ∀ offset ∈ optsReadsFrom fuel c opt syn start, offset < start + opt.length := by
  induction fuel generalizing c opt start with
  | zero =>
    intro offset none
    cases none
  | succ fuel ih =>
    cases opt with
    | nil =>
      intro offset none
      cases none
    | cons kind rest =>
      intro offset member
      simp only [optsReadsFrom, List.mem_cons] at member
      rw [List.length_cons]
      rcases member with here | member
      · omega
      split_ifs at member with marker padding
      · cases member
      · have later := ih _ _ _ offset member
        omega
      cases rest with
      | nil => cases member
      | cons olen more =>
        rw [List.mem_cons] at member
        simp only [List.length_cons] at member ⊢
        rcases member with size | member
        · omega
        split_ifs at member with wrong
        · cases member
        rcases List.mem_append.mp member with body | member
        · -- The body was checked to lie inside the options.
          have inside := optionReads_lt kind _ syn _ offset body
          simp only [List.length_take, List.length_drop, List.length_cons] at inside
          omega
        · have later := ih _ _ _ offset member
          simp only [List.length_drop, List.length_cons] at later
          omega

theorem parseOptsFrom_fuel (fuel extra : Nat) (c : TcpConn) (opt : List UInt8) (syn : Bool)
    (enough : opt.length ≤ fuel) :
    parseOptsFrom (fuel + extra) c opt syn = parseOptsFrom fuel c opt syn := by
  induction fuel generalizing c opt with
  | zero =>
    -- Without any byte there is nothing to walk over.
    obtain rfl : opt = [] := List.length_eq_zero_iff.mp (by omega)
    rw [Nat.zero_add]
    cases extra <;> rfl
  | succ fuel ih =>
    rw [Nat.succ_add_eq_add_succ]
    cases opt with
    | nil => rfl
    | cons kind rest =>
      rw [List.length_cons] at enough
      show parseOptsFrom (fuel + extra + 1) c (kind :: rest) syn = _
      simp only [parseOptsFrom]
      rw [ih c rest (by omega)]
      cases rest with
      | nil => rfl
      | cons olen more =>
        dsimp only
        rw [ih _ ((olen :: more).drop (olen.toNat - 1)) (by rw [List.length_drop]; omega)]

end Walk

section Blocks

variable {c : TcpConn}

theorem storedBlocks_pushSackBlock (c : TcpConn) (l r : Word) :
    storedBlocks (pushSackBlock c l r) = storedBlocks c ++ [(l, r)] := by
  simp only [storedBlocks, pushSackBlock, List.range_succ, List.map_append, List.map_cons,
    List.map_nil, Function.update_self]
  congr 1
  apply List.map_congr_left
  intro i member
  have before : i ≠ c.sackN := by
    have := List.mem_range.mp member
    omega
  rw [Function.update_of_ne before, Function.update_of_ne before]

theorem any_stored_iff (c : TcpConn) (l r : Word) :
    ((List.range c.sackN).any fun j => c.sackLeft j == l && c.sackRight j == r) = true ↔
      (l, r) ∈ storedBlocks c := by
  simp only [storedBlocks, List.any_eq_true, List.mem_map, Bool.and_eq_true, beq_iff_eq,
    Prod.mk.injEq]

theorem storedBlocks_addSackBlock (c : TcpConn) (l r : Word) :
    storedBlocks (addSackBlock c l r) =
      match clipReport c.sndUna c.sndNxt (l, r) with
      | none => storedBlocks c
      | some block =>
        if block ∈ storedBlocks c then storedBlocks c else storedBlocks c ++ [block] := by
  unfold addSackBlock clipReport
  cases tcpSeqBefore l r
  · rfl
  cases tcpSeqAfter r c.sndNxt
  swap
  · rfl
  cases tcpSeqBefore r c.sndUna
  swap
  · rfl
  -- The block reaches into what is in flight, and is registered unless it is there already.
  simp only [Bool.not_true, Bool.false_eq_true, if_false, Bool.not_false, Bool.and_self, if_true,
    any_stored_iff]
  generalize (if tcpSeqBefore l c.sndUna = true then c.sndUna else l) = left
  split
  · rfl
  · exact storedBlocks_pushSackBlock c left r

theorem length_storedBlocks (c : TcpConn) : (storedBlocks c).length = c.sackN := by
  simp [storedBlocks]

theorem eraseDups_snoc {α : Type*} [BEq α] [LawfulBEq α] (earlier : List α) (x : α) :
    (earlier ++ [x]).eraseDups =
      if x ∈ earlier then earlier.eraseDups else earlier.eraseDups ++ [x] := by
  rw [List.eraseDups_append]
  by_cases there : x ∈ earlier
  · simp [List.removeAll, there]
  · simp only [List.removeAll, List.filter_cons, List.elem_eq_mem, there, decide_false,
      Bool.not_false, if_true, List.filter_nil, if_false]
    rfl

def keepReport (una nxt : Word) (kept : List (Word × Word)) (report : Word × Word) :
    List (Word × Word) :=
  match clipReport una nxt report with
  | none => kept
  | some block => if kept.length < 2 ∧ block ∉ kept then kept ++ [block] else kept

theorem take_two_snoc {α : Type*} [BEq α] [LawfulBEq α] (earlier : List α) (x : α) :
    (earlier ++ [x]).eraseDups.take 2 =
      if (earlier.eraseDups.take 2).length < 2 ∧ x ∉ earlier.eraseDups.take 2 then
        earlier.eraseDups.take 2 ++ [x]
      else earlier.eraseDups.take 2 := by
  rw [eraseDups_snoc]
  by_cases few : earlier.eraseDups.length < 2
  · -- All the different entries so far count.
    have whole : earlier.eraseDups.take 2 = earlier.eraseDups :=
      List.take_of_length_le (by omega)
    rw [whole]
    by_cases there : x ∈ earlier
    · simp [there, whole]
    · rw [if_neg there, if_pos ⟨few, fun member => there (List.mem_eraseDups.mp member)⟩]
      exact List.take_of_length_le (by simp only [List.length_append, List.length_singleton]; omega)
  · have full : ¬(earlier.eraseDups.take 2).length < 2 := by
      rw [List.length_take]
      omega
    rw [if_neg (not_and_of_not_left _ full)]
    split
    · rfl
    · exact List.take_append_of_le_length (by omega)

theorem keptReports_snoc (una nxt : Word) (reports : List (Word × Word)) (report : Word × Word) :
    keptReports una nxt (reports ++ [report]) =
      keepReport una nxt (keptReports una nxt reports) report := by
  unfold keptReports keepReport
  rw [List.filterMap_append]
  cases clipped : clipReport una nxt report with
  | none => rw [List.filterMap_cons_none clipped, List.filterMap_nil, List.append_nil]
  | some block => rw [List.filterMap_cons_some clipped, List.filterMap_nil, take_two_snoc]

theorem storedBlocks_next (c : TcpConn) (l r : Word) :
    storedBlocks (if c.sackN < 2 then addSackBlock c l r else c) =
      keepReport c.sndUna c.sndNxt (storedBlocks c) (l, r) := by
  unfold keepReport
  rw [← length_storedBlocks]
  by_cases room : (storedBlocks c).length < 2
  · rw [if_pos room, storedBlocks_addSackBlock]
    cases clipReport c.sndUna c.sndNxt (l, r) with
    | none => rfl
    | some block =>
      by_cases there : block ∈ storedBlocks c
      · simp [there]
      · simp [there, room]
  · -- With two blocks registered nothing else is looked at.
    rw [if_neg room]
    cases clipReport c.sndUna c.sndNxt (l, r) with
    | none => rfl
    | some block => simp [room]

theorem nodup_keepReport (una nxt : Word) {kept : List (Word × Word)} (report : Word × Word)
    (distinct : kept.Nodup) : (keepReport una nxt kept report).Nodup := by
  unfold keepReport
  split
  · exact distinct
  · split
    · rename_i fresh
      exact List.nodup_append.mpr ⟨distinct, List.nodup_singleton _,
        fun a member b single same => fresh.2 (List.mem_singleton.mp single ▸ same ▸ member)⟩
    · exact distinct

theorem nodup_keptReports (una nxt : Word) (reports : List (Word × Word)) :
    (keptReports una nxt reports).Nodup := by
  induction reports using List.reverseRecOn with
  | nil => exact List.nodup_nil
  | append_singleton reports report ih =>
    rw [keptReports_snoc]
    exact nodup_keepReport una nxt report ih

theorem storedBlocks_parseSackBlocks (c : TcpConn) (body : List UInt8) :
    storedBlocks (parseSackBlocks c body) =
      keptReports c.sndUna c.sndNxt (bodyReports body) := by
  -- The invariant describes the reports looked at so far.
  have loop := @forRange_invariant _ (body.length / 8) (fun i c =>
      if c.sackN < 2 then
        addSackBlock c (be32 (body.drop (i * 8))) (be32 (body.drop (i * 8 + 4)))
      else c) (resetSack c)
    (fun done d => (d.sndUna = c.sndUna ∧ d.sndNxt = c.sndNxt) ∧
      storedBlocks d = keptReports c.sndUna c.sndNxt ((List.range done).map fun i =>
        (be32 (body.drop (i * 8)), be32 (body.drop (i * 8 + 4)))))
    ⟨⟨rfl, rfl⟩, rfl⟩ ?_
  · exact loop.2
  intro i d within held
  obtain ⟨⟨una, nxt⟩, stored⟩ := held
  refine ⟨?_, ?_⟩
  · split
    · obtain ⟨left, right, count, added⟩ :=
        addSackBlock_blocks d (be32 (body.drop (i * 8))) (be32 (body.drop (i * 8 + 4)))
      rw [added]
      exact ⟨una, nxt⟩
    · exact ⟨una, nxt⟩
  · rw [storedBlocks_next, stored, una, nxt, List.range_succ, List.map_append, List.map_cons,
      List.map_nil, keptReports_snoc]

theorem storedBlocks_applyOption (c : TcpConn) (kind : UInt8) (body : List UInt8) :
    storedBlocks (applyOption c kind body false) =
      if kind = 5 ∧ c.sackOk ∧ body.length ≥ 8 ∧ body.length % 8 = 0 then
        keptReports c.sndUna c.sndNxt (bodyReports body)
      else storedBlocks c := by
  simp only [applyOption, Bool.false_eq_true, and_false, if_false, Bool.not_false, true_and]
  split
  · exact storedBlocks_parseSackBlocks c body
  · rfl

theorem storedBlocks_parseOptsFrom (fuel : Nat) (c : TcpConn) (opt : List UInt8)
    (reports : List (Word × Word))
    (stored : storedBlocks c = keptReports c.sndUna c.sndNxt reports) :
    storedBlocks (parseOptsFrom fuel c opt false) =
      keptReports c.sndUna c.sndNxt (sackReportsFrom fuel c.sackOk opt reports) := by
  induction fuel generalizing c opt reports with
  | zero => exact stored
  | succ fuel ih =>
    cases opt with
    | nil => exact stored
    | cons kind rest =>
      simp only [parseOptsFrom, sackReportsFrom]
      split
      · exact stored
      split
      · exact ih c rest reports stored
      cases rest with
      | nil => exact stored
      | cons olen more =>
        dsimp only
        split
        · exact stored
        generalize ((olen :: more).drop 1).take (olen.toNat - 2) = body
        generalize (olen :: more).drop (olen.toNat - 1) = later
        -- The option changes nothing that the rest of the walk depends on but the blocks.
        have step := storedBlocks_applyOption c kind body
        obtain ⟨left, right, count, applied⟩ := applyOption_blocks c kind body
        rw [applied] at step ⊢
        refine ih { c with sackLeft := left, sackRight := right, sackN := count } later _ ?_
        rw [step]
        split
        · rfl
        · exact stored

theorem storedBlocks_tcpParseOpts (c : TcpConn) (opt : List UInt8) (syn : Bool) :
    storedBlocks (tcpParseOpts (resetSack c) opt syn) =
      keptReports c.sndUna c.sndNxt (sackReports c opt syn) := by
  cases syn with
  | false => exact storedBlocks_parseOptsFrom opt.length (resetSack c) opt [] rfl
  | true =>
    -- A connection request registers no block.
    obtain ⟨permitted, shift, size, parsed⟩ := tcpParseOpts_syn (resetSack c) opt
    rw [parsed]
    rfl

end Blocks

section Usable

variable {una nxt : Word}

theorem usableBlock_clipReport (near : (nxt - una).toNat < 2 ^ 31) {report block : Word × Word}
    (clipped : clipReport una nxt report = some block) :
    UsableBlock una nxt block ↔ block ≠ (una, una) := by
  unfold clipReport at clipped
  split at clipped
  swap
  · cases clipped
  rename_i accepted
  obtain rfl := Option.some.inj clipped
  simp only [Bool.and_eq_true, Bool.not_eq_true'] at accepted
  obtain ⟨⟨ordered, sent⟩, current⟩ := accepted
  obtain ⟨l, r⟩ := report
  dsimp only at ordered sent current ⊢
  -- Positions are counted from the oldest unacknowledged byte.
  have low := offset_lt_of_not_before current
  generalize right : (r - una).toNat = y at low
  obtain rfl : r = serial una y := right ▸ eq_serial_sub una r
  generalize high : (nxt - una).toNat = z at near
  obtain rfl : nxt = serial una z := high ▸ eq_serial_sub una nxt
  rw [tcpSeqAfter_serial una (by omega) (by omega), decide_eq_false_iff_not, Nat.not_lt] at sent
  unfold UsableBlock
  rw [right, high]
  by_cases stale : tcpSeqBefore l una = true
  · -- The block was clipped, so it is empty exactly if it ended where it now starts.
    rw [if_pos stale]
    have zero : (una - una).toNat = 0 := by simp
    dsimp only
    rw [zero]
    constructor
    · intro usable same
      rw [(Prod.mk.inj same).2, BitVec.sub_self] at right
      simp only [BitVec.toNat_zero] at right
      omega
    · intro other
      refine ⟨Nat.pos_of_ne_zero fun empty => other ?_, sent⟩
      rw [empty, serial_zero]
  · rw [if_neg stale]
    have fresh : tcpSeqBefore l una = false := by simpa using stale
    have start := offset_lt_of_not_before fresh
    generalize left : (l - una).toNat = x at start
    obtain rfl : l = serial una x := left ▸ eq_serial_sub una l
    rw [tcpSeqBefore_serial una (by omega) (by omega), decide_eq_true_eq] at ordered
    refine ⟨fun usable same => ?_, fun _ => ⟨ordered, sent⟩⟩
    have ends := (Prod.mk.inj same).2
    rw [ends, BitVec.sub_self] at right
    simp only [BitVec.toNat_zero] at right
    omega

theorem exists_of_mem_keptReports {reports : List (Word × Word)} {block : Word × Word}
    (member : block ∈ keptReports una nxt reports) :
    ∃ report, clipReport una nxt report = some block := by
  have among := List.mem_eraseDups.mp (List.mem_of_mem_take member)
  obtain ⟨report, -, clipped⟩ := List.mem_filterMap.mp among
  exact ⟨report, clipped⟩

end Usable

structure ParsesSafely (c : TcpConn) (opt : List UInt8) (syn : Bool) : Prop where
  /-- The walk ends by itself, however much fuel it is given. -/
  ends : ∀ extra, parseOptsFrom (opt.length + extra) (resetSack c) opt syn =
    tcpParseOpts (resetSack c) opt syn
  /-- Nothing outside the options is read. -/
  inside : ∀ offset ∈ optsReads (resetSack c) opt syn, offset < opt.length
  /-- At most two blocks are registered. -/
  few : (tcpParseOpts (resetSack c) opt syn).sackN ≤ 2
  /-- The registered blocks are all different. -/
  distinct : (storedBlocks (tcpParseOpts (resetSack c) opt syn)).Nodup
  /-- The registered blocks are usable. -/
  usable : ∀ block ∈ storedBlocks (tcpParseOpts (resetSack c) opt syn),
    UsableBlock c.sndUna c.sndNxt block

def inFlightConn : TcpConn := { zeroConn with sackOk := true, sndUna := 100, sndNxt := 200 }

end CatOs.Tcp
