import CatOs.Net.Tcp.Step

/-! Connections and segments that differ only in where their sequence numbers start. -/

namespace CatOs.Tcp

def OooSlot.shift (j : Word) (slot : OooSlot) : OooSlot := { slot with seq := slot.seq + j }

def TxSeg.shift (k : Word) (seg : TxSeg) : TxSeg := { seg with seq := seg.seq + k }

/--
A connection with its sending numbers moved by one amount and its receiving numbers by another.

The numbers that a measurement and a recovery wait for are given apart, since they mean nothing
while there is none.
-/
def TcpConn.shift (k j rtt recover : Word) (c : TcpConn) : TcpConn :=
  { c with
    rcvIsn := c.rcvIsn + j
    rcvNxt := c.rcvNxt + j
    sndIsn := c.sndIsn + k
    sndNxt := c.sndNxt + k
    sndUna := c.sndUna + k
    ooo := OooSlot.shift j ∘ c.ooo
    sackLeft := (· + k) ∘ c.sackLeft
    sackRight := (· + k) ∘ c.sackRight
    tx := TxSeg.shift k ∘ c.tx
    rttSeq := rtt
    recoverSeq := recover }

structure Shifted (k j : Word) (c d : TcpConn) : Prop where
  moved : d = c.shift k j d.rttSeq d.recoverSeq
  rtt : c.rttPending = true → d.rttSeq = c.rttSeq + k
  recover : c.fastRecovery = true → d.recoverSeq = c.recoverSeq + k

def shiftWords (k : Word) : List UInt8 → List UInt8
  | a :: b :: c :: d :: rest => be32Bytes (be32 [a, b, c, d] + k) ++ shiftWords k rest
  | rest => rest

def shiftOptsFrom (k : Word) : Nat → List UInt8 → List UInt8
  | 0, opt => opt
  | _ + 1, [] => []
  | fuel + 1, kind :: rest =>
    if kind = 0 then kind :: rest
    else if kind = 1 then kind :: shiftOptsFrom k fuel rest
    else
      match rest with
      | [] => [kind]
      | olen :: tail =>
        if olen.toNat < 2 ∨ olen.toNat > tail.length + 2 then kind :: olen :: tail
        else
          let body := tail.take (olen.toNat - 2)
          kind :: olen :: ((if kind = 5 then shiftWords k body else body) ++
            shiftOptsFrom k fuel (tail.drop (olen.toNat - 2)))

def shiftOpts (k : Word) (opt : List UInt8) : List UInt8 := shiftOptsFrom k opt.length opt

def TcpIn.shift (k j : Word) (s : TcpIn) : TcpIn :=
  { s with seq := s.seq + j, ack := s.ack + k, opts := shiftOpts k s.opts }

def TcpOut.shift (k j : Word) (p : TcpOut) : TcpOut :=
  { p with seq := p.seq + k, ack := p.ack + j, opts := shiftOpts j p.opts }

structure ShiftedIo (k j : Word) (x y : TcpIo) : Prop where
  conn : Shifted k j x.conn y.conn
  calls : y.calls = x.calls
  wire : y.wire = x.wire.map (TcpOut.shift k j)
  accepted : y.accepted = x.accepted
  delivered : y.delivered = x.delivered

def TcpOp.shift (k j : Word) : TcpOp → TcpOp
  | .segment s => .segment (s.shift k j)
  | op => op

section Numbers

variable (k a b : Word)

@[simp] theorem tcpSeqAfter_shift : tcpSeqAfter (a + k) (b + k) = tcpSeqAfter a b := by
  simp only [tcpSeqAfter, add_sub_add_right_eq_sub]

@[simp] theorem tcpSeqBefore_shift : tcpSeqBefore (a + k) (b + k) = tcpSeqBefore a b := by
  simp only [tcpSeqBefore, add_sub_add_right_eq_sub]

theorem shift_lenWord (len : Nat) : a + k + lenWord len = a + lenWord len + k :=
  add_right_comm a k (lenWord len)

end Numbers

section Bytes

variable (k : Word)

@[simp] theorem length_shiftWords (bytes : List UInt8) :
    (shiftWords k bytes).length = bytes.length := by
  fun_induction shiftWords k bytes with
  | case1 a b c d rest ih =>
    simp only [be32Bytes, List.length_append, List.length_cons, List.length_nil, ih]
    omega
  | case2 => rfl

theorem shiftWords_be32Bytes (value : Word) (rest : List UInt8) :
    shiftWords k (be32Bytes value ++ rest) = be32Bytes (value + k) ++ shiftWords k rest := by
  have read : be32 (be32Bytes value) = value := by
    have whole := be32_be32Bytes value []
    rwa [List.append_nil] at whole
  show be32Bytes (be32 (be32Bytes value) + k) ++ shiftWords k rest = _
  rw [read]

theorem be32_shiftWords (n : Nat) (bytes : List UInt8) (whole : 4 * n + 4 ≤ bytes.length) :
    be32 ((shiftWords k bytes).drop (4 * n)) = be32 (bytes.drop (4 * n)) + k := by
  -- The words before the one that is read go by one at a time.
  induction n generalizing bytes with
  | zero =>
    match bytes with
    | a :: b :: c :: d :: rest => exact be32_be32Bytes (be32 [a, b, c, d] + k) (shiftWords k rest)
    | [] | [_] | [_, _] | [_, _, _] =>
      simp only [List.length_cons, List.length_nil] at whole
      omega
  | succ n ih =>
    match bytes with
    | a :: b :: c :: d :: rest =>
      simp only [List.length_cons] at whole
      have later := ih rest (by omega)
      have skip : 4 * (n + 1) = 4 * n + 4 := by omega
      rw [skip]
      exact later
    | [] | [_] | [_, _] | [_, _, _] =>
      simp only [List.length_cons, List.length_nil] at whole
      omega

@[simp] theorem length_shiftOptsFrom (fuel : Nat) (opt : List UInt8) :
    (shiftOptsFrom k fuel opt).length = opt.length := by
  induction fuel generalizing opt with
  | zero => rfl
  | succ fuel ih =>
    cases opt with
    | nil => rfl
    | cons kind rest =>
      simp only [shiftOptsFrom]
      split
      · rfl
      split
      · simp only [List.length_cons, ih]
      cases rest with
      | nil => rfl
      | cons olen tail =>
        simp only
        split
        · rfl
        · simp only [List.length_cons, List.length_append, ih, List.length_drop]
          split
          · simp only [length_shiftWords, List.length_take]
            omega
          · simp only [List.length_take]
            omega

theorem be32Bytes_be32 (a b c d : UInt8) : be32Bytes (be32 [a, b, c, d]) = [a, b, c, d] := by
  have byte : ∀ (x : UInt8) (v : BitVec 8), v = x.toBitVec → (⟨v⟩ : UInt8) = x := by
    intro x v same
    rw [same]
  simp only [be32Bytes, be32, List.getD_cons_zero, List.getD_cons_succ, List.cons.injEq, and_true]
  refine ⟨byte _ _ ?_, byte _ _ ?_, byte _ _ ?_, byte _ _ ?_⟩ <;>
    · ext i within
      simp only [BitVec.getElem_extractLsb', BitVec.getLsbD_append]
      grind

theorem shiftWords_zero (bytes : List UInt8) : shiftWords 0 bytes = bytes := by
  fun_induction shiftWords 0 bytes with
  | case1 a b c d rest ih => rw [add_zero, be32Bytes_be32, ih, List.cons_append, List.cons_append,
      List.cons_append, List.cons_append, List.nil_append]
  | case2 => rfl

theorem shiftOptsFrom_zero (fuel : Nat) (opt : List UInt8) : shiftOptsFrom 0 fuel opt = opt := by
  induction fuel generalizing opt with
  | zero => rfl
  | succ fuel ih =>
    cases opt with
    | nil => rfl
    | cons kind rest =>
      simp only [shiftOptsFrom, ih, shiftWords_zero, ite_self]
      split
      · rfl
      split
      · rfl
      cases rest with
      | nil => rfl
      | cons olen tail => simp only [List.take_append_drop, ite_self]

theorem TcpIn.shift_zero (s : TcpIn) : s.shift 0 0 = s := by
  simp only [TcpIn.shift, shiftOpts, shiftOptsFrom_zero, add_zero]

theorem TcpOut.shift_zero (p : TcpOut) : p.shift 0 0 = p := by
  simp only [TcpOut.shift, shiftOpts, shiftOptsFrom_zero, add_zero]

theorem TcpOut.map_shift_zero (wire : List TcpOut) : wire.map (TcpOut.shift 0 0) = wire := by
  rw [List.map_congr_left fun p _ => TcpOut.shift_zero p, List.map_id']

theorem TcpOp.shift_zero (op : TcpOp) : op.shift 0 0 = op := by
  cases op with
  | segment s => exact congrArg TcpOp.segment s.shift_zero
  | _ => rfl

end Bytes

end CatOs.Tcp
