import CatOs.Net.Tcp.ScoreboardRun

/-! What decides how large the segments of a connection can become. -/

namespace CatOs.Tcp

def ethFrameMax : Nat := 1514

def txBufSize : Nat := 4096

def TcpOut.frameLen (p : TcpOut) : Nat := 14 + 20 + 20 + p.opts.length + p.data.length

def TcpOut.Fits (limit : Nat) (p : TcpOut) : Prop :=
  p.data.length ≤ limit ∧ p.frameLen ≤ ethFrameMax

structure SizeView where
  peerMss : Half
  sackOk : Bool
  ooo : Buffer OooSlot

def TcpConn.sizeView (c : TcpConn) : SizeView :=
  { peerMss := c.peerMss, sackOk := c.sackOk, ooo := c.ooo }

def dataOpts (c : TcpConn) : List UInt8 := tcpBuildOpts c (tcpFlagAck ||| tcpFlagPsh)

theorem effMss_congr {c d : TcpConn} (same : c.peerMss = d.peerMss) : effMss c = effMss d := by
  simp only [effMss, same]

theorem dataOpts_congr {c d : TcpConn} (same : c.sizeView = d.sizeView) :
    dataOpts c = dataOpts d := by
  have permitted : c.sackOk = d.sackOk := congrArg SizeView.sackOk same
  have slots : c.ooo = d.ooo := congrArg SizeView.ooo same
  show dataOpts { d with sackOk := c.sackOk, ooo := c.ooo } = dataOpts d
  rw [permitted, slots]

private theorem length_padded (opts : List UInt8) :
    (opts ++ List.replicate ((4 - opts.length % 4) % 4) 1).length ≤ opts.length + 3 := by
  rw [List.length_append, List.length_replicate]
  omega

theorem length_sackBlockBytes (c : TcpConn) (blocks : Nat) :
    (sackBlockBytes c blocks).length ≤ 16 := by
  -- The loop visits two slots and adds at most one block at each of them.
  have loop := @forRange_invariant (List UInt8 × Nat) tcpOooSlots (fun i state =>
      let slot := c.ooo i
      if state.2 ≠ 0 ∧ slot.used then
        (state.1 ++ be32Bytes slot.seq ++ be32Bytes (slot.seq + lenWord slot.len), state.2 - 1)
      else state) ([], blocks) (fun i state => state.1.length ≤ 8 * i) (Nat.zero_le _) ?_
  · exact loop
  · intro i state _ short
    show (ite _ _ _ : List UInt8 × Nat).1.length ≤ _
    split
    · simp only [List.length_append, be32Bytes, List.length_cons, List.length_nil]
      omega
    · omega

theorem length_tcpBuildOpts (c : TcpConn) (flags : Flags) :
    (tcpBuildOpts c flags).length ≤ 27 := by
  have blocks := length_sackBlockBytes c (tcpSackBlocks c)
  simp only [tcpBuildOpts]
  refine Nat.le_trans (length_padded _) (Nat.add_le_add_right ?_ 3)
  rw [List.length_append]
  have size : ∀ mss sack : List UInt8, mss.length ≤ 4 → sack.length ≤ 20 →
      mss.length + sack.length ≤ 24 := fun _ _ => Nat.add_le_add
  apply size
  · split <;> simp
  · split
    · simp
    split
    · split
      · rw [List.length_append]
        exact Nat.add_le_add_left blocks 4
      · simp
    · simp

theorem sizeView_tcpPutPkt (env : TcpEnv) (io : TcpIo) (flags : Flags) (seq ack : Word)
    (data : List UInt8) :
    (tcpPutPkt env io flags seq ack data).1.conn.sizeView = io.conn.sizeView :=
  eq_of_erased (eraseSender_tcpPutPkt ..) TcpConn.sizeView fun _ => rfl

end CatOs.Tcp
