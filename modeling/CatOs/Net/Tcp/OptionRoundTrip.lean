import CatOs.Net.Tcp.Deliverable

/-! What a peer reads from the options of a segment is what they were built from. -/

namespace CatOs.Tcp

def OooSlot.Covers (slot : OooSlot) (x : Word) : Prop := (x - slot.seq).toNat < slot.len

structure SlotsOk (c : TcpConn) : Prop where
  filled : ∀ i < tcpOooSlots, (c.ooo i).used = true → 1 ≤ (c.ooo i).len
  apart : ∀ i < tcpOooSlots, ∀ j < tcpOooSlots, i ≠ j → (c.ooo i).used = true →
    (c.ooo j).used = true → ∀ x, (c.ooo i).Covers x → ¬(c.ooo j).Covers x

def InFlight (c : TcpConn) (x : Word) : Prop :=
  tcpSeqAfter x c.sndUna = true ∧ tcpSeqAfter x c.sndNxt = false

instance (c : TcpConn) (x : Word) : Decidable (InFlight c x) := inferInstanceAs (Decidable (_ ∧ _))

section Store

variable {c : TcpConn}

theorem StoreOk.slotsOk (ok : StoreOk c) : SlotsOk c := by
  refine ⟨fun i within used => (ok.size i within used).1, ?_⟩
  intro i below j within different first second x covers other
  -- Both slots are placed relative to the next expected byte.
  have aheadFirst := ok.ahead i below first
  have aheadSecond := ok.ahead j within second
  have apart := ok.apart i below j within different first second
  unfold slotOffset at aheadFirst aheadSecond apart
  unfold OooSlot.Covers at covers other
  bv_omega

theorem mem_usedSlots {slot : OooSlot} (member : slot ∈ usedSlots c) :
    ∃ i < tcpOooSlots, slot = c.ooo i ∧ (c.ooo i).used = true := by
  obtain ⟨listed, used⟩ := List.mem_filter.mp member
  rcases List.mem_cons.mp listed with rfl | second
  · exact ⟨0, by decide, rfl, used⟩
  · rw [List.mem_singleton.mp second] at used ⊢
    exact ⟨1, by decide, rfl, used⟩

theorem SlotsOk.nodup (ok : SlotsOk c) : ((usedSlots c).map OooSlot.block).Nodup := by
  unfold usedSlots
  by_cases first : (c.ooo 0).used = true
  · by_cases second : (c.ooo 1).used = true
    · -- Two slots with one start would both hold the byte there.
      have different : (c.ooo 0).block ≠ (c.ooo 1).block := by
        intro same
        have start : (c.ooo 0).seq = (c.ooo 1).seq := (Prod.mk.inj same).1
        have covers : ∀ slot : OooSlot, 1 ≤ slot.len → slot.Covers slot.seq := by
          intro slot filled
          rw [OooSlot.Covers, BitVec.sub_self]
          exact filled
        have left := covers (c.ooo 0) (ok.filled 0 (by decide) first)
        have right := covers (c.ooo 1) (ok.filled 1 (by decide) second)
        rw [← start] at right
        exact ok.apart 0 (by decide) 1 (by decide) (by decide) first second _ left right
      simp [first, second, different]
    · simp [first, second]
  · by_cases second : (c.ooo 1).used = true
    · simp [first, second]
    · simp [first, second]

end Store

section Building

variable (c : TcpConn)

theorem tcpBuildOpts_syn (flags : Flags) (syn : flags.has tcpFlagSyn = true) :
    tcpBuildOpts c flags =
      if c.sackOk then [2, 4, 5, 180, 1, 1, 4, 2] else [2, 4, 5, 180] := by
  cases permitted : c.sackOk with
  | true =>
    simp only [tcpBuildOpts, syn, permitted, Bool.and_self, if_true]
    rfl
  | false =>
    simp only [tcpBuildOpts, syn, permitted, Bool.and_false, Bool.false_eq_true, if_true, if_false]
    rfl

theorem length_tcpBuildOpts_le (flags : Flags) :
    (tcpBuildOpts c flags).length ≤ 20 ∧ (tcpBuildOpts c flags).length % 4 = 0 := by
  cases syn : flags.has tcpFlagSyn with
  | true =>
    rw [tcpBuildOpts_syn c flags syn]
    split
    · decide
    · decide
  | false =>
    rw [tcpBuildOpts_late c flags syn]
    split
    · have few : (usedSlots c).length ≤ 2 := List.length_filter_le _ _
      rw [List.length_append, length_flatMap_blockBytes, List.length_map]
      simp only [List.length_cons, List.length_nil]
      omega
    · decide

end Building

section Reading

variable {c peer : TcpConn}

theorem tcpParseOpts_built_syn {flags : Flags} (syn : flags.has tcpFlagSyn = true)
    (fresh : peer.sackOk = false) :
    (tcpParseOpts peer (tcpBuildOpts c flags) true).peerMss = 1460 ∧
      (tcpParseOpts peer (tcpBuildOpts c flags) true).sackOk = c.sackOk := by
  rw [tcpBuildOpts_syn c flags syn]
  cases c.sackOk with
  | true => exact ⟨rfl, rfl⟩
  | false => exact ⟨rfl, fresh⟩

theorem sackReports_blocks (permitted : peer.sackOk = true) {blocks : List (Word × Word)}
    (some : 1 ≤ blocks.length) (few : blocks.length ≤ 2) :
    sackReports peer ([1, 1, 5, UInt8.ofNat (2 + 8 * blocks.length)] ++
      blocks.flatMap blockBytes) false = blocks := by
  have bytes := length_flatMap_blockBytes blocks
  have announced : (UInt8.ofNat (2 + 8 * blocks.length)).toNat = 2 + 8 * blocks.length := by
    rw [UInt8.toNat_ofNat']
    omega
  have all : (blocks.flatMap blockBytes).take (8 * blocks.length) = blocks.flatMap blockBytes := by
    rw [← bytes, List.take_length]
  show sackReportsFrom ((blocks.flatMap blockBytes).length + 1 + 1 + 1 + 1) peer.sackOk
    (1 :: 1 :: 5 :: UInt8.ofNat (2 + 8 * blocks.length) :: blocks.flatMap blockBytes) [] = blocks
  -- The padding is skipped, and the option takes all the bytes behind it.
  rw [sackReportsFrom, if_neg (by decide), if_pos rfl, sackReportsFrom, if_neg (by decide),
    if_pos rfl, sackReportsFrom, if_neg (by decide), if_neg (by decide)]
  dsimp only
  rw [announced, if_neg (by rw [List.length_cons]; omega), permitted, List.drop_succ_cons,
    List.drop_zero, Nat.add_sub_cancel_left, all,
    if_pos ⟨rfl, rfl, by rw [bytes]; omega, by rw [bytes]; omega⟩, bodyReports_flatMap,
    List.drop_of_length_le (by rw [List.length_cons]; omega), sackReportsFrom]

theorem clipReport_inFlight {slot : OooSlot} (filled : 1 ≤ slot.len)
    (start : InFlight peer slot.seq) (stop : InFlight peer (slot.seq + lenWord slot.len)) :
    clipReport peer.sndUna peer.sndNxt slot.block = some slot.block := by
  have short := slot.len_lt
  have ordered : tcpSeqBefore slot.seq (slot.seq + lenWord slot.len) = true := by
    have first : slot.seq = serial slot.seq 0 := (serial_zero _).symm
    rw [first, serial_lenWord, tcpSeqBefore_serial _ (by omega) (by omega), decide_eq_true_eq]
    omega
  -- What comes after a number does not come before it.
  have after : ∀ x, tcpSeqAfter x peer.sndUna = true → tcpSeqBefore x peer.sndUna = false := by
    intro x later
    rw [tcpSeqAfter, decide_eq_true_eq] at later
    rw [tcpSeqBefore, decide_eq_false_iff_not]
    omega
  unfold clipReport OooSlot.block
  dsimp only
  rw [ordered, stop.2, after _ stop.1, after _ start.1]
  rfl

theorem eraseDups_of_nodup {α : Type*} [BEq α] [LawfulBEq α] {entries : List α}
    (distinct : entries.Nodup) : entries.eraseDups = entries := by
  induction entries using List.reverseRecOn with
  | nil => rfl
  | append_singleton earlier x ih =>
    obtain ⟨before, -, different⟩ := List.nodup_append.mp distinct
    have new : x ∉ earlier := fun there => different x there x (List.mem_singleton.mpr rfl) rfl
    rw [eraseDups_snoc, if_neg new, ih before]

theorem keptReports_inFlight {una nxt : Word} {blocks : List (Word × Word)}
    (clipped : ∀ block ∈ blocks, clipReport una nxt block = some block) (distinct : blocks.Nodup)
    (few : blocks.length ≤ 2) : keptReports una nxt blocks = blocks := by
  have same : blocks.filterMap (clipReport una nxt) = blocks := by
    rw [List.filterMap_congr clipped, List.filterMap_some]
  rw [keptReports, same, eraseDups_of_nodup distinct, List.take_of_length_le few]

theorem storedBlocks_built {flags : Flags} (late : flags.has tcpFlagSyn = false)
    (ack : flags.has tcpFlagAck = true) (ok : SlotsOk c) (sends : c.sackOk = true)
    (takes : peer.sackOk = true)
    (inside : ∀ slot ∈ usedSlots c,
      InFlight peer slot.seq ∧ InFlight peer (slot.seq + lenWord slot.len)) :
    storedBlocks (tcpParseOpts (resetSack peer) (tcpBuildOpts c flags) false) =
      (usedSlots c).map OooSlot.block := by
  have few : ((usedSlots c).map OooSlot.block).length ≤ 2 := by
    rw [List.length_map]
    exact List.length_filter_le _ _
  have reported : sackReports peer (tcpBuildOpts c flags) false =
      (usedSlots c).map OooSlot.block := by
    rw [tcpBuildOpts_late c flags late, ack, sends]
    by_cases none : (usedSlots c).length = 0
    · rw [if_neg (fun both => both.2 none), List.length_eq_zero_iff.mp none]
      rfl
    · rw [if_pos ⟨rfl, none⟩]
      have some : 1 ≤ ((usedSlots c).map OooSlot.block).length := by
        rw [List.length_map]
        omega
      have read := sackReports_blocks takes some few
      rw [List.length_map] at read
      exact read
  rw [storedBlocks_tcpParseOpts, reported]
  refine keptReports_inFlight ?_ ok.nodup few
  intro block member
  obtain ⟨slot, held, rfl⟩ := List.mem_map.mp member
  obtain ⟨i, within, rfl, used⟩ := mem_usedSlots held
  exact clipReport_inFlight (ok.filled i within used) (inside _ held).1 (inside _ held).2

end Reading

def reporting : TcpConn :=
  runInputs storeStep [.accept 102 [3, 4]] { expecting with sackOk := true }

def reportedTo : TcpConn := { zeroConn with sackOk := true, sndUna := 100, sndNxt := 104 }

end CatOs.Tcp
