import CatOs.Lib.Buffer
import CatOs.Lib.Serial
import CatOs.Lib.Word

/-! The transmission control block: its constants, its fields and its sequence comparisons. -/

namespace CatOs.Tcp

def tcpMaxConns : Nat := 64

def tcpMss : Nat := 1460

def tcpBufSize : Nat := 4096

def tcpTxSegMax : Nat := 8

def tcpOooSlots : Nat := 2

abbrev Flags := BitVec 8

def tcpFlagFin : Flags := 0x01

def tcpFlagSyn : Flags := 0x02

def tcpFlagRst : Flags := 0x04

def tcpFlagPsh : Flags := 0x08

def tcpFlagAck : Flags := 0x10

def tcpFlagSynack : Flags := 0x12

def tcpFlagFinack : Flags := 0x11

def Flags.has (flags flag : Flags) : Bool :=
  flags &&& flag != 0

inductive TcpState where
  | closed
  | listen
  | synSent
  | synReceived
  | established
  | finWait1
  | finWait2
  | closeWait
  | closing
  | lastAck
  | timeWait
  deriving DecidableEq, Repr

structure TcpRx where
  rxb : Buffer UInt8
  rxn : Nat
  rxn_le : rxn ≤ tcpBufSize

structure TcpSnd where
  sndb : Buffer UInt8
  sndUsed : Nat
  sndUsed_le : sndUsed ≤ tcpBufSize

theorem mod_half_lt (len : Nat) : len % 2 ^ 16 < 2 ^ 16 := Nat.mod_lt len (Nat.two_pow_pos 16)

structure OooSlot where
  seq : Word
  len : Nat
  len_lt : len < 2 ^ 16
  used : Bool
  data : Buffer UInt8

structure TxSeg where
  seq : Word
  len : Nat
  len_lt : len < 2 ^ 16
  used : Bool
  sacked : Bool
  lost : Bool
  retransmitted : Bool
  deriving DecidableEq, Repr

def noBackoff : Fin 7 := ⟨0, by decide⟩

/-- One slot of the connection table. -/
structure TcpConn where
  used : Bool
  accepted : Bool
  state : TcpState
  backlog : Nat
  rcvIsn : Word
  rcvNxt : Word
  sndIsn : Word
  sndNxt : Word
  sndUna : Word
  peerIp : Word
  peerPort : Half
  lport : Half
  peerWin : Half
  /-- The window last put on the wire. -/
  advWin : Half
  /-- The segment size the peer announced, or zero when it announced none. -/
  peerMss : Half
  rx : TcpRx
  ooo : Buffer OooSlot
  oooBytes : Word
  sackOk : Bool
  sackLeft : Buffer Word
  sackRight : Buffer Word
  sackN : Nat
  snd : TcpSnd
  tx : Buffer TxSeg
  txN : Nat
  rtoDeadline : Word
  /-- The back-off exponent only ever grows to six. -/
  rtoBackoff : Fin 7
  rtoAttempts : BitVec 8
  rtoTicks : Word
  rttStamp : Word
  rttSeq : Word
  srttTicks : Word
  rttvarTicks : Word
  rttPending : Bool
  rttRetransmitted : Bool
  cwnd : Word
  ssthresh : Word
  dupacks : Word
  fastRecovery : Bool
  recoverSeq : Word
  twUntil : Word
  persistDeadline : Word
  persistBackoff : Fin 7
  testSent : Bool
  testClosed : Bool
  dead : Bool
  nodelay : Bool
  rcvWscale : BitVec 8
  sndWscale : BitVec 8

def zeroConn : TcpConn :=
  { used := false, accepted := false, state := .closed, backlog := 0, rcvIsn := 0, rcvNxt := 0
    sndIsn := 0, sndNxt := 0, sndUna := 0, peerIp := 0, peerPort := 0, lport := 0, peerWin := 0
    advWin := 0, peerMss := 0, rx := { rxb := fun _ => 0, rxn := 0, rxn_le := Nat.zero_le _ }
    ooo := fun _ => { seq := 0, len := 0, len_lt := by decide, used := false, data := fun _ => 0 }
    oooBytes := 0
    sackOk := false, sackLeft := fun _ => 0, sackRight := fun _ => 0, sackN := 0
    snd := { sndb := fun _ => 0, sndUsed := 0, sndUsed_le := Nat.zero_le _ }
    tx := fun _ => { seq := 0, len := 0, len_lt := by decide, used := false, sacked := false
                     lost := false, retransmitted := false }
    txN := 0, rtoDeadline := 0, rtoBackoff := noBackoff, rtoAttempts := 0, rtoTicks := 0
    rttStamp := 0, rttSeq := 0, srttTicks := 0, rttvarTicks := 0, rttPending := false, rttRetransmitted := false
    cwnd := 0, ssthresh := 0, dupacks := 0, fastRecovery := false, recoverSeq := 0, twUntil := 0
    persistDeadline := 0, persistBackoff := noBackoff, testSent := false, testClosed := false
    dead := false, nodelay := false, rcvWscale := 0, sndWscale := 0 }

def lenWord (len : Nat) : Word := BitVec.ofNat 32 len

def tcpSeqAfter (a b : Word) : Bool := decide (0 < (a - b).toInt)

def tcpSeqBefore (a b : Word) : Bool := decide ((a - b).toInt < 0)

theorem tcpSeqAfter_serial (base : Word) {x y : Nat}
    (above : x < y + 2 ^ 31) (below : y < x + 2 ^ 31) :
    tcpSeqAfter (serial base x) (serial base y) = decide (y < x) := by
  simp only [tcpSeqAfter, serial_sub_toInt base above below]
  exact decide_eq_decide.mpr (by omega)

theorem tcpSeqBefore_serial (base : Word) {x y : Nat}
    (above : x < y + 2 ^ 31) (below : y < x + 2 ^ 31) :
    tcpSeqBefore (serial base x) (serial base y) = decide (x < y) := by
  simp only [tcpSeqBefore, serial_sub_toInt base above below]
  exact decide_eq_decide.mpr (by omega)

theorem offset_lt_of_not_before {a base : Word} (ahead : tcpSeqBefore a base = false) :
    (a - base).toNat < 2 ^ 31 := by
  rw [tcpSeqBefore, decide_eq_false_iff_not, not_lt, BitVec.toInt_eq_toNat_cond] at ahead
  split at ahead <;> omega

theorem offset_lt_of_after {a base : Word} (ahead : tcpSeqAfter a base = true) :
    0 < (a - base).toNat ∧ (a - base).toNat < 2 ^ 31 := by
  rw [tcpSeqAfter, decide_eq_true_eq, BitVec.toInt_eq_toNat_cond] at ahead
  split at ahead <;> omega

theorem offset_of_not_after {a base : Word} (behind : tcpSeqAfter a base = false) :
    (a - base).toNat = 0 ∨ 2 ^ 31 ≤ (a - base).toNat := by
  rw [tcpSeqAfter, decide_eq_false_iff_not, BitVec.toInt_eq_toNat_cond] at behind
  split at behind <;> omega

theorem serial_lenWord (base : Word) (position len : Nat) :
    serial base position + lenWord len = serial base (position + len) :=
  serial_add base position len

end CatOs.Tcp
