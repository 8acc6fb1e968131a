import CatOs.Net.Tcp.OooStore
import CatOs.Net.Tcp.OptionSafety

/-! Data held out of order whose turn has come, and the blocks that are reported to the peer. -/

namespace CatOs.Tcp

def TcpOut.blocks (p : TcpOut) : List (Word × Word) :=
  match p.opts with
  | 1 :: 1 :: 5 :: olen :: rest => bodyReports (rest.take (olen.toNat - 2))
  | _ => []

def Delivers (c : TcpConn) : Prop :=
  ∀ i < tcpOooSlots, (c.ooo i).used = true → (c.ooo i).seq = c.rcvNxt →
    tcpBufSize < c.rx.rxn + (c.ooo i).len

instance (c : TcpConn) : Decidable (Delivers c) :=
  inferInstanceAs (Decidable (∀ i < tcpOooSlots, _ → _ → _))

def ReportsAhead (c : TcpConn) : Prop :=
  ∀ flags seq data, flags.has tcpFlagSyn = false →
    ∀ block ∈ (buildSegment c flags seq c.rcvNxt data).blocks,
      c.rx.rxn + (block.2 - block.1).toNat ≤ tcpBufSize → tcpSeqAfter block.1 c.rcvNxt = true

def Straddles (c : TcpConn) (seq : Word) (data : List UInt8) : Prop :=
  tcpSeqBefore seq c.rcvNxt = true ∧ (tcpQueueOoo c seq data).2 = true ∧
    c.rx.rxn + (seq + lenWord data.length - c.rcvNxt).toNat ≤ tcpBufSize

section Reports

variable (c : TcpConn)

def usedSlots : List OooSlot := [c.ooo 0, c.ooo 1].filter OooSlot.used

def OooSlot.block (slot : OooSlot) : Word × Word := (slot.seq, slot.seq + lenWord slot.len)

def blockBytes (block : Word × Word) : List UInt8 := be32Bytes block.1 ++ be32Bytes block.2

theorem length_blockBytes (block : Word × Word) : (blockBytes block).length = 8 := rfl

theorem tcpSackBlocks_eq : tcpSackBlocks c = (usedSlots c).length := by
  simp only [tcpSackBlocks, tcpOooSlots, forRange_succ, forRange_zero, usedSlots]
  by_cases first : (c.ooo 0).used = true <;> by_cases second : (c.ooo 1).used = true <;>
    simp [first, second]

theorem sackBlockBytes_eq :
    sackBlockBytes c (usedSlots c).length =
      ((usedSlots c).map OooSlot.block).flatMap blockBytes := by
  simp only [sackBlockBytes, tcpOooSlots, forRange_succ, forRange_zero, usedSlots]
  by_cases first : (c.ooo 0).used = true <;> by_cases second : (c.ooo 1).used = true <;>
    simp [first, second, OooSlot.block, blockBytes]

theorem bodyReports_blockBytes (block : Word × Word) (rest : List UInt8) :
    bodyReports (blockBytes block ++ rest) = block :: bodyReports rest := by
  have count : (blockBytes block ++ rest).length / 8 = rest.length / 8 + 1 := by
    rw [List.length_append, length_blockBytes]
    omega
  have later : ∀ n, (blockBytes block ++ rest).drop (8 + n) = rest.drop n := by
    intro n
    rw [← length_blockBytes block, List.drop_length_add_append]
  simp only [bodyReports, count, List.range_succ_eq_map, List.map_cons, List.map_map]
  congr 1
  · -- The two edges stand one behind the other.
    refine Prod.ext ?_ ?_
    · show be32 (be32Bytes block.1 ++ be32Bytes block.2 ++ rest) = block.1
      rw [List.append_assoc, be32_be32Bytes]
    · show be32 (be32Bytes block.2 ++ rest) = block.2
      rw [be32_be32Bytes]
  · apply List.map_congr_left
    intro i _
    show (be32 ((blockBytes block ++ rest).drop ((i + 1) * 8)),
      be32 ((blockBytes block ++ rest).drop ((i + 1) * 8 + 4))) = _
    rw [show (i + 1) * 8 = 8 + i * 8 by omega, show 8 + i * 8 + 4 = 8 + (i * 8 + 4) by omega,
      later, later]

theorem bodyReports_flatMap (blocks : List (Word × Word)) :
    bodyReports (blocks.flatMap blockBytes) = blocks := by
  induction blocks with
  | nil => rfl
  | cons block rest ih => rw [List.flatMap_cons, bodyReports_blockBytes, ih]

theorem length_flatMap_blockBytes (blocks : List (Word × Word)) :
    (blocks.flatMap blockBytes).length = 8 * blocks.length := by
  induction blocks with
  | nil => rfl
  | cons block rest ih =>
    rw [List.flatMap_cons, List.length_append, ih, length_blockBytes, List.length_cons]
    omega

theorem unpadded {opts : List UInt8} (whole : opts.length % 4 = 0) :
    opts ++ List.replicate ((4 - opts.length % 4) % 4) 1 = opts := by
  rw [whole]
  exact List.append_nil opts

theorem tcpBuildOpts_late (flags : Flags) (late : flags.has tcpFlagSyn = false) :
    tcpBuildOpts c flags =
      if (flags.has tcpFlagAck && c.sackOk) = true ∧ (usedSlots c).length ≠ 0 then
        [1, 1, 5, UInt8.ofNat (2 + 8 * (usedSlots c).length)] ++
          ((usedSlots c).map OooSlot.block).flatMap blockBytes
      else [] := by
  simp only [tcpBuildOpts, late, Bool.false_and, Bool.false_eq_true, if_false, List.nil_append,
    tcpSackBlocks_eq, sackBlockBytes_eq]
  by_cases permitted : (flags.has tcpFlagAck && c.sackOk) = true
  · by_cases none : (usedSlots c).length = 0
    · simp [none]
    · rw [if_pos permitted, if_pos none, if_pos ⟨permitted, none⟩]
      apply unpadded
      rw [List.length_append, length_flatMap_blockBytes]
      show (4 + _) % 4 = 0
      omega
  · rw [if_neg permitted, if_neg (fun both => permitted both.1)]
    rfl

theorem blocks_buildSegment (flags : Flags) (seq ack : Word) (data : List UInt8)
    (late : flags.has tcpFlagSyn = false) :
    ∀ block ∈ (buildSegment c flags seq ack data).blocks,
      block ∈ (usedSlots c).map OooSlot.block := by
  intro block member
  simp only [TcpOut.blocks, buildSegment, tcpBuildOpts_late c flags late] at member
  split_ifs at member with reported
  swap
  · cases member
  -- The length that is announced covers exactly the reported blocks.
  have few : (usedSlots c).length ≤ 2 := List.length_filter_le _ _
  have announced : (UInt8.ofNat (2 + 8 * (usedSlots c).length)).toNat - 2 =
      (((usedSlots c).map OooSlot.block).flatMap blockBytes).length := by
    rw [length_flatMap_blockBytes, List.length_map, UInt8.toNat_ofNat']
    omega
  simp only [List.cons_append, List.nil_append, announced, List.take_length,
    bodyReports_flatMap] at member
  exact member

end Reports

section Delivery

variable {c : TcpConn}

theorem Delivers.reportsAhead (delivers : Delivers c) (ok : StoreOk c) : ReportsAhead c := by
  intro flags seq data late block member room
  obtain ⟨slot, among, rfl⟩ := List.mem_map.mp (blocks_buildSegment c flags seq c.rcvNxt data late
    block member)
  obtain ⟨i, within, used, rfl⟩ : ∃ i < tcpOooSlots, (c.ooo i).used = true ∧ slot = c.ooo i := by
    obtain ⟨listed, used⟩ := List.mem_filter.mp among
    rcases List.mem_cons.mp listed with rfl | listed
    · exact ⟨0, by decide, used, rfl⟩
    · rw [List.mem_singleton.mp listed] at used ⊢
      exact ⟨1, by decide, used, rfl⟩
  have ahead := ok.ahead i within used
  have size := ok.size i within used
  simp only [tcpMss] at size
  -- The length of the block is that of the slot, so the slot would fit.
  have width : ((c.ooo i).seq + lenWord (c.ooo i).len - (c.ooo i).seq).toNat = (c.ooo i).len := by
    rw [add_sub_cancel_left, lenWord, BitVec.toNat_ofNat]
    exact Nat.mod_eq_of_lt (by omega)
  have fits : c.rx.rxn + (c.ooo i).len ≤ tcpBufSize := by
    simp only [OooSlot.block, width] at room
    exact room
  have elsewhere : (c.ooo i).seq ≠ c.rcvNxt := fun turn => by
    have full := delivers i within used turn
    omega
  have start : slotOffset c.rcvNxt (c.ooo i) ≠ 0 := by
    intro zero
    have same := seq_eq_serial c.rcvNxt (c.ooo i)
    rw [zero, serial_zero] at same
    exact elsewhere same
  show tcpSeqAfter (c.ooo i).seq c.rcvNxt = true
  rw [seq_eq_serial c.rcvNxt (c.ooo i)]
  nth_rewrite 3 [← serial_zero c.rcvNxt]
  rw [tcpSeqAfter_serial _ (by omega) (by omega), decide_eq_true_eq]
  omega

theorem delivers_inOrder (ok : StoreOk c) {seq : Word} {data : List UInt8}
    (inOrder : InOrder c seq data) : Delivers (tcpAcceptData c seq data).1 := by
  obtain ⟨rfl, short, fits⟩ := inOrder
  obtain ⟨-, -, -, waiting⟩ := (ok.append fits).tcpMergeOoo
  simp only [tcpAcceptData, ne_eq, not_true, if_false, if_pos (And.intro short fits)]
  exact fun i within => (waiting i within).blocked

theorem delivers_fillOoo {seq : Word} {data : List UInt8} {i trim : Nat}
    (queued : Queued c seq data i trim) :
    Delivers (fillOoo c i (seq + lenWord trim) (data.length - trim) (data.drop trim)) ↔
      Delivers c ∧ (seq + lenWord trim = c.rcvNxt →
        tcpBufSize < c.rx.rxn + (data.length - trim)) := by
  have short := queued.short
  simp only [tcpMss] at short
  have len : (data.length - trim) % 2 ^ 16 = data.length - trim := Nat.mod_eq_of_lt (by omega)
  have reads : ∀ j, (fillOoo c i (seq + lenWord trim) (data.length - trim) (data.drop trim)).ooo j =
      if j = i then _ else c.ooo j := fun j => setOoo_ooo c i j _
  constructor
  · intro delivers
    constructor
    · intro j within used turn
      have other : j ≠ i := fun same => by simp [same, queued.free] at used
      have kept := delivers j within
      rw [reads, if_neg other] at kept
      exact kept used turn
    · intro turn
      have here := delivers i queued.slot
      rw [reads, if_pos rfl] at here
      have full := here rfl turn
      simp only [len] at full
      exact full
  · intro both j within
    rw [reads]
    split
    · intro _ turn
      simp only [len]
      exact both.2 turn
    · exact both.1 j within

theorem Queued.front_iff {seq : Word} {data : List UInt8} {i trim : Nat}
    (queued : Queued c seq data i trim) (elsewhere : seq ≠ c.rcvNxt) :
    seq + lenWord trim = c.rcvNxt ↔ tcpSeqBefore seq c.rcvNxt = true := by
  have front := queued.front
  simp only [tcpSeqBefore, tcpSeqAfter, decide_eq_true_eq] at front ⊢
  split_ifs at front with after
  · subst front
    rw [show lenWord 0 = 0 from rfl, add_zero]
    exact iff_of_false elsewhere (by omega)
  · -- Neither after nor equal is before.
    have different : (seq - c.rcvNxt).toInt ≠ 0 := by
      intro zero
      have same : seq - c.rcvNxt = 0 := BitVec.toInt_inj.mp zero
      exact elsewhere (sub_eq_zero.mp same)
    exact iff_of_true front (by omega)

theorem kept_len {seq next : Word} {len trim : Nat} (short : len ≤ tcpMss)
    (front : seq + lenWord trim = next) (cut : trim < len) :
    (seq + lenWord len - next).toNat = len - trim := by
  simp only [tcpMss] at short
  have split : lenWord len = lenWord trim + lenWord (len - trim) := by
    rw [lenWord, lenWord, lenWord, ← BitVec.ofNat_add, Nat.add_sub_cancel' (by omega)]
  have rest : seq + lenWord len - next = lenWord (len - trim) := by
    rw [split, ← add_assoc, front, add_sub_cancel_left]
  rw [rest, lenWord, BitVec.toNat_ofNat]
  exact Nat.mod_eq_of_lt (by omega)

theorem delivers_tcpQueueOoo {seq : Word} {data : List UInt8} (elsewhere : seq ≠ c.rcvNxt) :
    Delivers (tcpQueueOoo c seq data).1 ↔ Delivers c ∧ ¬Straddles c seq data := by
  unfold Straddles
  rcases tcpQueueOoo_cases c seq data with same | ⟨i, trim, queued, stored⟩
  · rw [same]
    simp
  · rw [stored, delivers_fillOoo queued, queued.front_iff elsewhere]
    refine and_congr_right fun _ => ?_
    by_cases before : tcpSeqBefore seq c.rcvNxt = true
    · have front := (queued.front_iff elsewhere).mpr before
      simp only [before, kept_len queued.short front queued.cut, true_and, true_implies, not_le]
    · simp [before]

end Delivery

/--
After a segment nothing in the store is due, exactly in the cases that a merge follows or is idle.

Data in order is always followed by a merge.
Otherwise nothing may have been due before, and the segment may not straddle the next expected byte.
-/
theorem deliverable_delivered_iff {start c : TcpConn} (empty : EmptyStore start)
    (run : Run storeStep (fun _ _ => True) start c) (seq : Word) (data : List UInt8) :
    (Delivers (tcpAcceptData c seq data).1 ∧ ReportsAhead (tcpAcceptData c seq data).1) ↔
      InOrder c seq data ∨ (Delivers c ∧ ¬Straddles c seq data) := by
  have ok := (storeOk_of_run empty run).1
  have reports : ∀ delivers : Delivers (tcpAcceptData c seq data).1,
      ReportsAhead (tcpAcceptData c seq data).1 := fun delivers =>
    delivers.reportsAhead (ok.tcpAcceptData seq data).1
  rw [and_iff_left_of_imp reports]
  by_cases inOrder : InOrder c seq data
  · exact iff_of_true (delivers_inOrder ok inOrder) (.inl inOrder)
  rw [or_iff_right inOrder]
  by_cases elsewhere : seq = c.rcvNxt
  · -- Data in order that does not fit changes nothing, and does not straddle.
    have refused : (tcpAcceptData c seq data).1 = c := by
      simp only [tcpAcceptData]
      rw [if_neg (not_not.mpr elsewhere), if_neg (fun fits => inOrder ⟨elsewhere, fits⟩)]
    have behind : tcpSeqBefore seq c.rcvNxt = false := by simp [elsewhere, tcpSeqBefore]
    rw [refused, Straddles, behind]
    simp
  · have queued : (tcpAcceptData c seq data).1 = (tcpQueueOoo c seq data).1 := by
      simp only [tcpAcceptData]
      rw [if_pos elsewhere]
    rw [queued]
    exact delivers_tcpQueueOoo elsewhere

def pastHole : TcpConn := runInputs storeStep [.accept 102 [3, 4]] expecting

/-- The piece behind a hole is delivered with the piece that fills the hole. -/
theorem deliverable_delivered_iff_hole : Delivers (tcpAcceptData pastHole 100 [1, 2]).1 := by
  have empty : EmptyStore expecting := by decide
  have run : Run storeStep (fun _ _ => True) expecting pastHole :=
    Run.start.inputs [StoreOp.accept 102 [3, 4]] (allAllowed_true _ _)
  have inOrder : InOrder pastHole 100 [1, 2] := by decide
  exact ((deliverable_delivered_iff empty run 100 [1, 2]).mpr (.inl inOrder)).1

/-- A peer may be told selectively that the very next bytes have arrived, although they fit. -/
theorem straddling_segment_stuck :
    let c := runInputs storeStep [.accept 100 [1, 2, 3, 4], .accept 102 [3, 4, 5, 6]]
      { expecting with sackOk := true }
    (c.ooo 0).used = true ∧ (c.ooo 0).seq = c.rcvNxt ∧ c.rx.rxn + (c.ooo 0).len = 6 ∧
      (buildSegment c tcpFlagAck 0 c.rcvNxt []).blocks = [(c.rcvNxt, c.rcvNxt + 2)] ∧
      ¬Delivers c := by
  decide

end CatOs.Tcp
