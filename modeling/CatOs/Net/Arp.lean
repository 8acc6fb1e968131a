import CatOs.Net.Checksum

/-! The address cache of the link: lookups, requests, answers, and the scan that drops entries. -/

namespace CatOs.Net

open Tcp (be16)

def arpCacheMax : Nat := 8

def arpReachTimeout : Word := 3000

def arpRetransTicks : Word := 100

def arpProbeMax : UInt8 := 3

def arpProbeTimeout : Word := 300

structure ArpEntry where
  ip : Word
  mac : Mac
  seenTick : Word
  reqTick : Word
  probes : UInt8
  deriving DecidableEq

structure ArpState where
  cache : Buffer ArpEntry
  n : Nat
  reqGate : Word

def ArpState.entries (s : ArpState) : List ArpEntry := s.cache.read 0 s.n

def ArpState.setEntry (s : ArpState) (i : Nat) (e : ArpEntry) : ArpState :=
  { s with cache := Function.update s.cache i e }

structure ArpPkt where
  op : Half
  sha : Mac
  spa : Word
  tha : Mac
  tpa : Word
  deriving DecidableEq

structure ArpConf where
  gMac : Mac
  gIp : Word

def arpCacheFill (ticks ip : Word) (mac : Mac) : ArpEntry :=
  { ip := ip, mac := mac, seenTick := ticks, reqTick := ticks, probes := 0 }

def arpLookup (s : ArpState) (ip : Word) : Option Nat :=
  (List.range s.n).find? fun i => (s.cache i).ip == ip

def arpCacheDel (idx : Nat) (s : ArpState) : ArpState :=
  { s with cache := s.cache.copyWithin idx (idx + 1) (s.n - 1 - idx), n := s.n - 1 }

def arpVictim (ticks : Word) (cache : Buffer ArpEntry) : Nat :=
  match (List.range arpCacheMax).find?
      (fun i => ticks - (cache i).seenTick ≥ arpReachTimeout) with
  | some i => i
  | none =>
    forRange (arpCacheMax - 1)
      (fun k e =>
        if ((cache (k + 1)).seenTick - (cache e).seenTick).toInt < 0 then k + 1 else e)
      0

def arpCacheAdd (ticks ip : Word) (mac : Mac) (s : ArpState) : ArpState :=
  match arpLookup s ip with
  | some i => s.setEntry i { s.cache i with mac := mac, seenTick := ticks, probes := 0 }
  | none =>
    if s.n < arpCacheMax then
      { s.setEntry s.n (arpCacheFill ticks ip mac) with n := s.n + 1 }
    else s.setEntry (arpVictim ticks s.cache) (arpCacheFill ticks ip mac)

def arpRequest (conf : ArpConf) (tx : Bool) (ticks ip : Word) (s : ArpState) :
    ArpState × Option ArpPkt :=
  let e := arpLookup s ip
  let last :=
    match e with
    | some i => (s.cache i).reqTick
    | none => s.reqGate
  if ticks - last < arpRetransTicks then (s, none)
  else if !tx then (s, none)
  else
    (match e with
      | some i => s.setEntry i { s.cache i with reqTick := ticks }
      | none => { s with reqGate := ticks },
      some { op := 1, sha := conf.gMac, spa := conf.gIp, tha := Vector.replicate 6 0, tpa := ip })

structure ArpResolved where
  arp : ArpState
  sent : Option ArpPkt
  mac : Option Mac

def arpResolve (conf : ArpConf) (tx : Bool) (ticks ip : Word) (s : ArpState) : ArpResolved :=
  if ip = 0xFFFFFFFF then { arp := s, sent := none, mac := some (Vector.replicate 6 0xFF) }
  else
    match arpLookup s ip with
    | some i =>
      if ticks - (s.cache i).seenTick ≥ arpReachTimeout ∧ (s.cache i).probes < arpProbeMax then
        let r := arpRequest conf tx ticks ip s
        match r.2 with
        | some pkt =>
          let probed :=
            r.1.setEntry i { r.1.cache i with probes := (r.1.cache i).probes + 1 }
          { arp := probed, sent := some pkt, mac := some (probed.cache i).mac }
        | none => { arp := r.1, sent := none, mac := some (r.1.cache i).mac }
      else { arp := s, sent := none, mac := some (s.cache i).mac }
    | none =>
      let r := arpRequest conf tx ticks ip s
      { arp := r.1, sent := r.2, mac := none }

def macAt (p : Buffer UInt8) (start : Nat) : Mac := Vector.ofFn fun i => p (start + i.val)

def arpPkt (p : Buffer UInt8) : ArpPkt where
  op := be16 (p.read (14 + 6) 2)
  sha := macAt p (14 + 8)
  spa := le32 (p.read (14 + 14) 4)
  tha := macAt p (14 + 18)
  tpa := le32 (p.read (14 + 24) 4)

def arpValid (p : Buffer UInt8) (len : Word) : Bool :=
  42 ≤ len && be16 (p.read 14 2) == 1 && be16 (p.read (14 + 2) 2) == 0x0800 && p (14 + 4) == 6 &&
    p (14 + 5) == 4

def arpHandle (conf : ArpConf) (tx : Bool) (ticks : Word) (p : Buffer UInt8) (len : Word)
    (s : ArpState) : ArpState × Option ArpPkt :=
  if !arpValid p len then (s, none)
  else
    let a := arpPkt p
    let s := arpCacheAdd ticks a.spa a.sha s
    if a.op = 1 ∧ a.tpa = conf.gIp ∧ tx then
      (s, some { op := 2, sha := conf.gMac, spa := conf.gIp, tha := a.sha, tpa := a.spa })
    else (s, none)

def arpDead (now : Word) (e : ArpEntry) : Bool :=
  !(now - e.seenTick < arpReachTimeout) &&
    (arpProbeMax ≤ e.probes && now - e.reqTick ≥ arpProbeTimeout)

def arpTick (now : Word) (s : ArpState) : ArpState :=
  forRange s.n
    (fun k current =>
      if arpDead now (current.cache (s.n - 1 - k)) then arpCacheDel (s.n - 1 - k) current
      else current)
    s

section Entries

variable {s : ArpState}

theorem length_entries (s : ArpState) : s.entries.length = s.n := Buffer.length_read _ _ _

theorem mem_entries {e : ArpEntry} : e ∈ s.entries ↔ ∃ i < s.n, s.cache i = e := by
  rw [ArpState.entries, Buffer.mem_read]
  simp only [Nat.zero_add]

theorem cache_mem_entries {i : Nat} (within : i < s.n) : s.cache i ∈ s.entries :=
  mem_entries.mpr ⟨i, within, rfl⟩

theorem getElem?_entries {i : Nat} (within : i < s.n) : s.entries[i]? = some (s.cache i) := by
  rw [ArpState.entries, Buffer.getElem?_read, if_pos within, Nat.zero_add]

theorem entries_setEntry (s : ArpState) (i : Nat) (e : ArpEntry) :
    (s.setEntry i e).entries = s.entries.set i e := Buffer.read_update _ _ _ _

theorem entries_arpCacheDel {idx : Nat} (within : idx < s.n) :
    (arpCacheDel idx s).entries = s.entries.eraseIdx idx := Buffer.read_copyWithin_gap _ within

theorem arpLookup_some {ip : Word} {i : Nat} (found : arpLookup s ip = some i) :
    i < s.n ∧ (s.cache i).ip = ip := by
  have member := List.mem_of_find?_eq_some found
  have named := List.find?_some found
  exact ⟨List.mem_range.mp member, beq_iff_eq.mp named⟩

theorem arpLookup_none {ip : Word} (missing : arpLookup s ip = none) :
    ∀ e ∈ s.entries, e.ip ≠ ip := by
  intro e member same
  obtain ⟨i, within, rfl⟩ := mem_entries.mp member
  have differs := List.find?_eq_none.mp missing i (List.mem_range.mpr within)
  exact differs (beq_iff_eq.mpr same)

theorem arpLookup_isSome {ip : Word} :
    (arpLookup s ip).isSome = true ↔ ∃ e ∈ s.entries, e.ip = ip := by
  cases found : arpLookup s ip with
  | none =>
    simp only [Option.isSome_none, Bool.false_eq_true, false_iff, not_exists, not_and]
    exact arpLookup_none found
  | some i =>
    obtain ⟨within, same⟩ := arpLookup_some found
    simp only [Option.isSome_some, true_iff]
    exact ⟨s.cache i, cache_mem_entries within, same⟩

inductive AddMove (ticks ip : Word) (mac : Mac) (s after : ArpState) : Prop
  | refreshed (i : Nat) (within : i < s.n) (same : (s.cache i).ip = ip)
      (changed : after =
        s.setEntry i { s.cache i with mac := mac, seenTick := ticks, probes := 0 })
  | appended (absent : ∀ e ∈ s.entries, e.ip ≠ ip) (room : s.n < arpCacheMax)
      (gate : after.reqGate = s.reqGate) (count : after.n = s.n + 1)
      (entries : after.entries = s.entries ++ [arpCacheFill ticks ip mac])
  | replaced (absent : ∀ e ∈ s.entries, e.ip ≠ ip) (full : ¬s.n < arpCacheMax)
      (changed : after =
        s.setEntry (arpVictim ticks s.cache) (arpCacheFill ticks ip mac))

theorem arpCacheAdd_move (ticks ip : Word) (mac : Mac) (s : ArpState) :
    AddMove ticks ip mac s (arpCacheAdd ticks ip mac s) := by
  unfold arpCacheAdd
  cases found : arpLookup s ip with
  | some i =>
    obtain ⟨within, same⟩ := arpLookup_some found
    exact .refreshed i within same rfl
  | none =>
    dsimp only
    split
    · rename_i room
      exact .appended (arpLookup_none found) room rfl rfl (Buffer.read_update_snoc _ _ _)
    · rename_i full
      exact .replaced (arpLookup_none found) full rfl

inductive ResolveMove (ticks ip : Word) (s : ArpState) (r : ArpResolved) : Prop
  | silent (sent : r.sent = none) (kept : r.arp = s)
  | probed (i : Nat) (pkt : ArpPkt) (within : i < s.n) (same : (s.cache i).ip = ip)
      (sent : r.sent = some pkt) (target : pkt.tpa = ip)
      (few : (s.cache i).probes < arpProbeMax)
      (due : ¬ticks - (s.cache i).reqTick < arpRetransTicks)
      (changed : r.arp = s.setEntry i
        { s.cache i with reqTick := ticks, probes := (s.cache i).probes + 1 })
  | asked (pkt : ArpPkt) (absent : ∀ e ∈ s.entries, e.ip ≠ ip) (sent : r.sent = some pkt)
      (target : pkt.tpa = ip) (due : ¬ticks - s.reqGate < arpRetransTicks)
      (changed : r.arp = { s with reqGate := ticks })

theorem arpRequest_cases (conf : ArpConf) (tx : Bool) (ticks ip : Word) (s : ArpState) :
    arpRequest conf tx ticks ip s = (s, none) ∨
    ∃ pkt : ArpPkt, pkt.tpa = ip ∧ (arpRequest conf tx ticks ip s).2 = some pkt ∧
      ((∃ i, arpLookup s ip = some i ∧ ¬ticks - (s.cache i).reqTick < arpRetransTicks ∧
          (arpRequest conf tx ticks ip s).1 =
            s.setEntry i { s.cache i with reqTick := ticks }) ∨
        (arpLookup s ip = none ∧ ¬ticks - s.reqGate < arpRetransTicks ∧
          (arpRequest conf tx ticks ip s).1 = { s with reqGate := ticks })) := by
  unfold arpRequest
  cases found : arpLookup s ip with
  | none =>
    dsimp only
    split
    · exact Or.inl rfl
    · rename_i due
      split
      · exact Or.inl rfl
      · exact Or.inr ⟨_, rfl, rfl, Or.inr ⟨rfl, due, rfl⟩⟩
  | some i =>
    dsimp only
    split
    · exact Or.inl rfl
    · rename_i due
      split
      · exact Or.inl rfl
      · exact Or.inr ⟨_, rfl, rfl, Or.inl ⟨i, rfl, due, rfl⟩⟩

theorem arpResolve_move (conf : ArpConf) (tx : Bool) (ticks ip : Word) (s : ArpState) :
    ResolveMove ticks ip s (arpResolve conf tx ticks ip s) := by
  unfold arpResolve
  split
  · exact .silent rfl rfl
  · rcases arpRequest_cases conf tx ticks ip s with kept | ⟨pkt, target, sent, how⟩
    · cases found : arpLookup s ip with
      | none =>
        dsimp only
        rw [kept]
        exact .silent rfl rfl
      | some i =>
        dsimp only
        split
        · rw [kept]
          exact .silent rfl rfl
        · exact .silent rfl rfl
    · rcases how with ⟨i, found, due, changed⟩ | ⟨missing, due, changed⟩
      · obtain ⟨within, same⟩ := arpLookup_some found
        rw [found]
        dsimp only
        split
        · rename_i stale
          rw [sent, changed]
          refine .probed i pkt within same rfl target stale.2 due ?_
          simp only [ArpState.setEntry, Function.update_self, Function.update_idem]
        · exact .silent rfl rfl
      · rw [missing]
        dsimp only
        exact .asked pkt (arpLookup_none missing) sent target due changed

theorem arpResolve_mac (conf : ArpConf) (tx : Bool) {ticks ip : Word} (s : ArpState)
    (single : ip ≠ 0xFFFFFFFF) :
    (arpResolve conf tx ticks ip s).mac = (arpLookup s ip).map fun i => (s.cache i).mac := by
  unfold arpResolve
  rw [if_neg single]
  cases found : arpLookup s ip with
  | none => rfl
  | some i =>
    dsimp only
    split
    · rcases arpRequest_cases conf tx ticks ip s with kept | ⟨pkt, -, sent, how⟩
      · rw [kept]
        rfl
      · rcases how with ⟨j, again, -, changed⟩ | ⟨missing, -, -⟩
        · obtain rfl : i = j := Option.some.inj (found.symm.trans again)
          rw [sent, changed]
          simp only [ArpState.setEntry, Function.update_self, Option.map_some]
        · rw [missing] at found
          cases found
    · rfl

theorem arpHandle_arp (conf : ArpConf) (tx : Bool) (ticks : Word) (p : Buffer UInt8) (len : Word)
    (s : ArpState) : (arpHandle conf tx ticks p len s).1 =
      if arpValid p len then arpCacheAdd ticks (arpPkt p).spa (arpPkt p).sha s else s := by
  unfold arpHandle
  cases arpValid p len with
  | false => rfl
  | true =>
    rw [if_neg (by decide), if_pos rfl]
    dsimp only
    split <;> rfl

theorem cache_of_entries {before rest : List ArpEntry} {e : ArpEntry}
    (entries : s.entries = before ++ e :: rest) :
    before.length < s.n ∧ s.cache before.length = e := by
  have entry : s.entries[before.length]? = some e := by
    rw [entries, List.getElem?_append_right (Nat.le_refl _), Nat.sub_self]
    rfl
  rw [ArpState.entries, Buffer.getElem?_read, Nat.zero_add] at entry
  split at entry
  · rename_i within
    exact ⟨within, Option.some.inj entry⟩
  · cases entry

theorem entries_scan {now : Word} {before rest : List ArpEntry} {e : ArpEntry} {i : Nat}
    (position : before.length = i) (entries : s.entries = before ++ e :: rest) :
    (if arpDead now (s.cache i) then arpCacheDel i s else s).entries =
      before ++ (if arpDead now e then rest else e :: rest) := by
  subst position
  obtain ⟨within, held⟩ := cache_of_entries entries
  rw [held]
  split
  · rw [entries_arpCacheDel within, entries, List.eraseIdx_append_of_length_le (Nat.le_refl _),
      Nat.sub_self, List.eraseIdx_cons_zero]
  · exact entries

theorem entries_arpTick (now : Word) (s : ArpState) :
    (arpTick now s).entries = s.entries.filter (fun e => !arpDead now e) ∧
      (arpTick now s).reqGate = s.reqGate := by
  -- After some passes the tail of the cache is filtered, and its front still as it was.
  have scanned := @forRange_invariant ArpState s.n (fun k current =>
      if arpDead now (current.cache (s.n - 1 - k)) then arpCacheDel (s.n - 1 - k) current
      else current) s
    (fun k current => current.entries = s.entries.take (s.n - k) ++
      (s.entries.drop (s.n - k)).filter (fun e => !arpDead now e) ∧
      current.reqGate = s.reqGate) ?_ ?_
  · rw [Nat.sub_self, List.take_zero, List.nil_append, List.drop_zero] at scanned
    exact scanned
  · rw [Nat.sub_zero, ← length_entries, List.take_length, List.drop_length]
    exact ⟨(List.append_nil _).symm, rfl⟩
  · intro k current below held
    obtain ⟨entries, gate⟩ := held
    have within : s.n - 1 - k < s.entries.length := by rw [length_entries]; omega
    have next : s.n - k = s.n - 1 - k + 1 := by omega
    rw [next, List.take_succ_eq_append_getElem within, List.append_assoc, List.singleton_append]
      at entries
    constructor
    · rw [entries_scan (by rw [List.length_take]; omega) entries,
        show s.n - (k + 1) = s.n - 1 - k by omega, List.drop_eq_getElem_cons within,
        List.filter_cons]
      cases arpDead now s.entries[s.n - 1 - k] <;> rfl
    · split
      · exact gate
      · exact gate

end Entries

end CatOs.Net
