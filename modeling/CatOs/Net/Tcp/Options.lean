import CatOs.Net.Tcp.Conn

/-! Header options: what a segment announces and what is announced to the peer. -/

namespace CatOs.Tcp

def be16 (bytes : List UInt8) : Half :=
  (bytes.getD 0 0).toBitVec ++ (bytes.getD 1 0).toBitVec

def be32 (bytes : List UInt8) : Word :=
  (bytes.getD 0 0).toBitVec ++ (bytes.getD 1 0).toBitVec ++ (bytes.getD 2 0).toBitVec ++
    (bytes.getD 3 0).toBitVec

def be32Bytes (value : Word) : List UInt8 :=
  [⟨value.extractLsb' 24 8⟩, ⟨value.extractLsb' 16 8⟩, ⟨value.extractLsb' 8 8⟩,
    ⟨value.extractLsb' 0 8⟩]

def be16Bytes (value : Half) : List UInt8 :=
  [⟨value.extractLsb' 8 8⟩, ⟨value.extractLsb' 0 8⟩]

theorem be16_be16Bytes (value : Half) (rest : List UInt8) :
    be16 (be16Bytes value ++ rest) = value := by
  apply BitVec.eq_of_getLsbD_eq
  intro i within
  simp only [be16, be16Bytes, List.cons_append, List.nil_append, List.getD_cons_zero,
    List.getD_cons_succ, BitVec.getLsbD_append, BitVec.getLsbD_extractLsb']
  by_cases low : i < 8
  · simp [low]
  · simp [low, show i - 8 < 8 by omega, show 8 + (i - 8) = i by omega]

theorem be32_be32Bytes (value : Word) (rest : List UInt8) :
    be32 (be32Bytes value ++ rest) = value := by
  apply BitVec.eq_of_getLsbD_eq
  intro i within
  simp only [be32, be32Bytes, List.cons_append, List.nil_append, List.getD_cons_zero,
    List.getD_cons_succ, BitVec.getLsbD_append, BitVec.getLsbD_extractLsb']
  -- Each bit comes from the byte that it falls into.
  by_cases first : i < 8
  · simp [first]
  by_cases second : i < 16
  · simp [first, show i - 8 < 8 by omega, show 8 + (i - 8) = i by omega]
  by_cases third : i < 24
  · simp [first, show ¬i - 8 < 8 by omega, show i - 8 - 8 < 8 by omega,
      show 16 + (i - 8 - 8) = i by omega]
  · simp [first, show ¬i - 8 < 8 by omega, show ¬i - 8 - 8 < 8 by omega,
      show i - 8 - 8 - 8 < 8 by omega, show 24 + (i - 8 - 8 - 8) = i by omega]

def resetSack (c : TcpConn) : TcpConn := { c with sackN := 0 }

def pushSackBlock (c : TcpConn) (l r : Word) : TcpConn :=
  { c with
    sackLeft := Function.update c.sackLeft c.sackN l
    sackRight := Function.update c.sackRight c.sackN r
    sackN := c.sackN + 1 }

def addSackBlock (c : TcpConn) (l r : Word) : TcpConn :=
  if !tcpSeqBefore l r then c
  else if tcpSeqAfter r c.sndNxt then c
  else if tcpSeqBefore r c.sndUna then c
  else
    let l := if tcpSeqBefore l c.sndUna then c.sndUna else l
    -- The same block reported twice in one segment is registered once.
    if (List.range c.sackN).any fun j => c.sackLeft j == l && c.sackRight j == r then c
    else pushSackBlock c l r

def parseSackBlocks (c : TcpConn) (body : List UInt8) : TcpConn :=
  forRange (body.length / 8) (fun i c =>
    if c.sackN < 2 then
      addSackBlock c (be32 (body.drop (i * 8))) (be32 (body.drop (i * 8 + 4)))
    else c) (resetSack c)

def applyOption (c : TcpConn) (kind : UInt8) (body : List UInt8) (syn : Bool) : TcpConn :=
  if kind = 4 ∧ body.length = 0 ∧ syn then { c with sackOk := true }
  else if kind = 3 ∧ body.length = 1 ∧ syn then
    let shift := (body.getD 0 0).toBitVec
    { c with rcvWscale := if shift > 14 then 14 else shift }
  else if kind = 2 ∧ body.length = 2 ∧ syn then
    let m := be16 body
    if m ≠ 0 then { c with peerMss := m } else c
  else if kind = 5 ∧ !syn ∧ c.sackOk ∧ body.length ≥ 8 ∧ body.length % 8 = 0 then
    parseSackBlocks c body
  else c

def parseOptsFrom : Nat → TcpConn → List UInt8 → Bool → TcpConn
  | 0, c, _, _ => c
  | _ + 1, c, [], _ => c
  | fuel + 1, c, kind :: rest, syn =>
    -- The end marker stops the walk and a padding byte is skipped.
    if kind = 0 then c
    else if kind = 1 then parseOptsFrom fuel c rest syn
    else
      match rest with
      | [] => c
      | olen :: _ =>
        let n := rest.length + 1
        if olen.toNat < 2 ∨ olen.toNat > n then c
        else
          let body := (rest.drop 1).take (olen.toNat - 2)
          parseOptsFrom fuel (applyOption c kind body syn) (rest.drop (olen.toNat - 1)) syn

def tcpParseOpts (c : TcpConn) (opt : List UInt8) (syn : Bool) : TcpConn :=
  parseOptsFrom opt.length c opt syn

theorem addSackBlock_blocks (c : TcpConn) (l r : Word) : ∃ left right count,
    addSackBlock c l r = { c with sackLeft := left, sackRight := right, sackN := count } := by
  simp only [addSackBlock]
  repeat' split
  all_goals exact ⟨_, _, _, rfl⟩

theorem parseSackBlocks_blocks (c : TcpConn) (body : List UInt8) : ∃ left right count,
    parseSackBlocks c body = { c with sackLeft := left, sackRight := right, sackN := count } := by
  unfold parseSackBlocks
  refine forRange_invariant (fun _ d => ∃ left right count,
    d = { c with sackLeft := left, sackRight := right, sackN := count }) ?_ ?_
  · exact ⟨c.sackLeft, c.sackRight, 0, rfl⟩
  intro i d _ earlier
  obtain ⟨left, right, count, rfl⟩ := earlier
  split
  · obtain ⟨left', right', count', added⟩ := addSackBlock_blocks
      { c with sackLeft := left, sackRight := right, sackN := count }
      (be32 (body.drop (i * 8))) (be32 (body.drop (i * 8 + 4)))
    exact ⟨left', right', count', added⟩
  · exact ⟨left, right, count, rfl⟩

theorem applyOption_blocks (c : TcpConn) (kind : UInt8) (body : List UInt8) :
    ∃ left right count, applyOption c kind body false =
      { c with sackLeft := left, sackRight := right, sackN := count } := by
  simp only [applyOption, Bool.false_eq_true, and_false, if_false]
  split
  · exact parseSackBlocks_blocks c body
  · exact ⟨_, _, _, rfl⟩

theorem applyOption_syn (c : TcpConn) (kind : UInt8) (body : List UInt8) :
    ∃ permitted shift size, applyOption c kind body true =
      { c with sackOk := permitted, rcvWscale := shift, peerMss := size } := by
  simp only [applyOption, Bool.not_true, Bool.false_eq_true, false_and, and_false, if_false]
  repeat' split
  all_goals exact ⟨_, _, _, rfl⟩

theorem tcpParseOpts_keeps (holds : TcpConn → Prop) {syn : Bool}
    (preserved : ∀ c kind body, holds c → holds (applyOption c kind body syn)) {c : TcpConn}
    (initially : holds c) (opt : List UInt8) : holds (tcpParseOpts c opt syn) := by
  unfold tcpParseOpts
  -- The walk consumes its fuel one option at a time, whatever options are left.
  generalize opt.length = fuel
  induction fuel generalizing c opt with
  | zero => exact initially
  | succ fuel ih =>
    cases opt with
    | nil => exact initially
    | cons kind rest =>
      simp only [parseOptsFrom]
      split
      · exact initially
      split
      · exact ih initially rest
      split
      · exact initially
      split
      · exact initially
      · exact ih (preserved c kind _ initially) _

theorem tcpParseOpts_blocks (c : TcpConn) (opt : List UInt8) : ∃ left right count,
    tcpParseOpts c opt false = { c with sackLeft := left, sackRight := right, sackN := count } := by
  refine tcpParseOpts_keeps (fun d => ∃ left right count,
    d = { c with sackLeft := left, sackRight := right, sackN := count }) ?_
    ⟨c.sackLeft, c.sackRight, c.sackN, rfl⟩ opt
  intro d kind body earlier
  obtain ⟨left, right, count, rfl⟩ := earlier
  obtain ⟨left', right', count', applied⟩ := applyOption_blocks
    { c with sackLeft := left, sackRight := right, sackN := count } kind body
  exact ⟨left', right', count', applied⟩

theorem tcpParseOpts_syn (c : TcpConn) (opt : List UInt8) : ∃ permitted shift size,
    tcpParseOpts c opt true =
      { c with sackOk := permitted, rcvWscale := shift, peerMss := size } := by
  refine tcpParseOpts_keeps (fun d => ∃ permitted shift size,
    d = { c with sackOk := permitted, rcvWscale := shift, peerMss := size }) ?_
    ⟨c.sackOk, c.rcvWscale, c.peerMss, rfl⟩ opt
  intro d kind body earlier
  obtain ⟨permitted, shift, size, rfl⟩ := earlier
  obtain ⟨permitted', shift', size', applied⟩ := applyOption_syn
    { c with sackOk := permitted, rcvWscale := shift, peerMss := size } kind body
  exact ⟨permitted', shift', size', applied⟩

def tcpSackBlocks (c : TcpConn) : Nat :=
  let n := forRange tcpOooSlots (fun i n => if (c.ooo i).used then n + 1 else n) 0
  if n > 2 then 2 else n

def sackBlockBytes (c : TcpConn) (blocks : Nat) : List UInt8 :=
  (forRange tcpOooSlots (fun i (state : List UInt8 × Nat) =>
    let slot := c.ooo i
    if state.2 ≠ 0 ∧ slot.used then
      (state.1 ++ be32Bytes slot.seq ++ be32Bytes (slot.seq + lenWord slot.len), state.2 - 1)
    else state) ([], blocks)).1

def tcpBuildOpts (c : TcpConn) (flags : Flags) : List UInt8 :=
  let mss : List UInt8 :=
    if flags.has tcpFlagSyn then [2, 4, UInt8.ofNat (tcpMss / 256), UInt8.ofNat tcpMss] else []
  let sack : List UInt8 :=
    if flags.has tcpFlagSyn && c.sackOk then [1, 1, 4, 2]
    else if flags.has tcpFlagAck && c.sackOk then
      let blocks := tcpSackBlocks c
      if blocks ≠ 0 then [1, 1, 5, UInt8.ofNat (2 + 8 * blocks)] ++ sackBlockBytes c blocks else []
    else []
  let o := mss ++ sack
  -- Padding brings the header to a multiple of four bytes.
  o ++ List.replicate ((4 - o.length % 4) % 4) 1

end CatOs.Tcp
