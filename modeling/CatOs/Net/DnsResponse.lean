import CatOs.Net.DnsName

/-! Responses: a reference parser, and that the resolver takes the address that it finds. -/

namespace CatOs.Net

open Tcp (be16)

def NameAt (msg : List UInt8) (off past : Nat) : Prop :=
  ∃ labels jumps used, NameWalk msg off labels jumps used past ∧ jumps ≤ dnsNamePtrMax ∧
    used ≤ msg.length

inductive RefQuestions (msg : List UInt8) : Nat → Nat → Nat → Prop
  | done (off : Nat) : RefQuestions msg 0 off off
  | next {count off mid past : Nat} (name : NameAt msg off mid) (inside : mid + 4 ≤ msg.length)
      (rest : RefQuestions msg count (mid + 4) past) : RefQuestions msg (count + 1) off past

structure RefRecord (msg : List UInt8) (off : Nat) (r : DnsRecord) : Prop where
  name : ∃ mid, NameAt msg off mid ∧ mid + 10 ≤ msg.length ∧ r.rdata = mid + 10 ∧
    r.type = be16 (msg.drop mid) ∧ r.cls = be16 (msg.drop (mid + 2)) ∧
    r.rdlen = (be16 (msg.drop (mid + 8))).toNat
  inside : r.rdata + r.rdlen ≤ msg.length

inductive RefAddress (msg : List UInt8) : Nat → Nat → Word → Prop
  | here {count off : Nat} {r : DnsRecord} (record : RefRecord msg off r)
      (address : r.cls = 1 ∧ r.type = 1 ∧ r.rdlen = 4) :
      RefAddress msg (count + 1) off (le32 ((msg.drop r.rdata).take 4))
  | later {count off : Nat} {r : DnsRecord} {ip : Word} (record : RefRecord msg off r)
      (other : ¬(r.cls = 1 ∧ r.type = 1 ∧ r.rdlen = 4))
      (rest : RefAddress msg count (r.rdata + r.rdlen) ip) : RefAddress msg (count + 1) off ip

theorem dnsReadName_at (msg : List UInt8) (off : Nat) :
    ∃ r, dnsReadName msg off none 0 = .ok r ∧
      ∀ past, NameAt msg off past ↔ r.ok = true ∧ r.off = past := by
  have none : ∀ array, (Option.none : Option (List UInt8)) = some array → 0 ≤ array.length :=
    fun array _ => Nat.zero_le _
  obtain ⟨r, read, accepts, gives⟩ := dnsReadName_spec msg off none
  refine ⟨r, read, ?_⟩
  intro past
  constructor
  · intro found
    obtain ⟨labels, jumps, used, walk, few, bytes⟩ := found
    have yes := accepts.mpr
      ⟨labels, jumps, used, past, walk, few, bytes, fun given => absurd given Bool.false_ne_true⟩
    exact ⟨yes, (gives yes labels jumps used past walk).1⟩
  · intro found
    obtain ⟨yes, same⟩ := found
    obtain ⟨labels, jumps, used, past', walk, few, bytes, -⟩ := accepts.mp yes
    rw [(gives yes labels jumps used past' walk).1] at same
    exact ⟨labels, jumps, used, same ▸ walk, few, bytes⟩

/-- The questions are skipped exactly if the reference parser gets past them. -/
theorem skipQuestions_spec (msg : List UInt8) : ∀ count off : Nat,
    ∃ r, skipQuestions msg count off = .ok r ∧
      ∀ past, RefQuestions msg count off past ↔ r = some past := by
  intro count
  induction count with
  | zero =>
    intro off
    refine ⟨some off, rfl, ?_⟩
    intro past
    constructor
    · intro skipped
      cases skipped with
      | done => rfl
    · intro same
      rw [← Option.some.inj same]
      exact .done off
  | succ count ih =>
    intro off
    obtain ⟨name, read, names⟩ := dnsReadName_at msg off
    unfold skipQuestions
    rw [read]
    dsimp only
    by_cases good : name.ok = true ∧ name.off + 4 ≤ msg.length
    · rw [if_pos good]
      obtain ⟨r, skipped, rest⟩ := ih (name.off + 4)
      refine ⟨r, skipped, ?_⟩
      intro past
      rw [← rest past]
      constructor
      · intro found
        cases found with
        | next at_ inside further =>
          rw [((names _).mp at_).2]
          exact further
      · intro further
        exact .next ((names _).mpr ⟨good.1, rfl⟩) good.2 further
    · rw [if_neg good]
      refine ⟨none, rfl, ?_⟩
      intro past
      constructor
      · intro found
        cases found with
        | next at_ inside further =>
          obtain ⟨yes, same⟩ := (names _).mp at_
          exact absurd ⟨yes, same.symm ▸ inside⟩ good
      · intro same
        cases same

theorem be16_take {bytes : List UInt8} {count : Nat} (two : 2 ≤ count) :
    be16 (bytes.take count) = be16 bytes := by
  unfold be16
  rw [List.getD_eq_getElem?_getD, List.getD_eq_getElem?_getD, List.getElem?_take_of_lt (by omega),
    List.getElem?_take_of_lt (by omega), ← List.getD_eq_getElem?_getD,
    ← List.getD_eq_getElem?_getD]

theorem be16_header (msg : List UInt8) (mid field : Nat) (inside : field + 2 ≤ 10) :
    be16 (((msg.drop mid).take 10).drop field) = be16 (msg.drop (mid + field)) := by
  rw [List.drop_take, be16_take (by omega), List.drop_drop]

/-- A record is read exactly if the reference parser finds one. -/
theorem readRecord_spec (msg : List UInt8) (off : Nat) :
    ∃ r, readRecord msg off = .ok r ∧ ∀ record, RefRecord msg off record ↔ r = some record := by
  obtain ⟨name, read, names⟩ := dnsReadName_at msg off
  unfold readRecord
  rw [read]
  dsimp only
  -- Without a name, a header and its data inside the message there is no record.
  by_cases yes : name.ok = true
  · rw [yes, if_neg (by decide)]
    by_cases long : name.off + 10 > msg.length
    · rw [if_pos long]
      refine ⟨none, rfl, ?_⟩
      intro record
      constructor
      · intro found
        obtain ⟨mid, at_, inside, -⟩ := found.name
        rw [← ((names mid).mp at_).2] at inside
        omega
      · intro same
        cases same
    · rw [if_neg long, readRun_of_le (by omega)]
      dsimp only
      rw [be16_header msg name.off 8 (by decide), be16_header msg name.off 2 (by decide),
        be16_take (by decide)]
      split
      · rename_i outside
        refine ⟨none, rfl, ?_⟩
        intro record
        constructor
        · intro found
          obtain ⟨mid, at_, -, data, -, -, rdlen⟩ := found.name
          have inside := found.inside
          rw [data, rdlen, ← ((names mid).mp at_).2] at inside
          omega
        · intro same
          cases same
      · rename_i inside
        refine ⟨_, rfl, ?_⟩
        intro record
        constructor
        · intro found
          obtain ⟨mid, at_, -, data, type, cls, rdlen⟩ := found.name
          obtain rfl := ((names mid).mp at_).2
          cases record
          simp only at data type cls rdlen
          rw [data, type, cls, rdlen]
        · intro same
          rw [← Option.some.inj same]
          exact ⟨⟨name.off, (names _).mpr ⟨yes, rfl⟩, by omega, rfl, rfl, rfl, rfl⟩, by
            dsimp only
            omega⟩
  · rw [Bool.not_eq_true] at yes
    rw [yes, if_pos (by decide)]
    refine ⟨none, rfl, ?_⟩
    intro record
    constructor
    · intro found
      obtain ⟨mid, at_, -⟩ := found.name
      exact absurd (yes.symm.trans ((names mid).mp at_).1) Bool.false_ne_true
    · intro same
      cases same

theorem recordAlias_ok (msg : List UInt8) (r : DnsRecord) :
    ∃ found, recordAlias msg r = .ok found := by
  unfold recordAlias
  split
  · obtain ⟨name, read, -⟩ := dnsReadName_at msg r.rdata
    rw [read]
    exact ⟨_, rfl⟩
  · exact ⟨none, rfl⟩

theorem isAddress_iff (r : DnsRecord) :
    r.isAddress = true ↔ r.cls = 1 ∧ r.type = 1 ∧ r.rdlen = 4 := by
  simp only [DnsRecord.isAddress, Bool.and_eq_true, decide_eq_true_eq, and_assoc]

/-- The answers give an address exactly if the reference parser reaches it. -/
theorem readAnswers_spec (msg : List UInt8) : ∀ (count off : Nat) (lastCn : Option Nat),
    ∃ answer, readAnswers msg count off lastCn = .ok answer ∧
      ∀ ip, RefAddress msg count off ip ↔ answer = .address ip := by
  intro count
  induction count with
  | zero =>
    intro off lastCn
    refine ⟨_, rfl, ?_⟩
    intro ip
    constructor
    · intro found
      cases found
    · intro same
      split at same <;> cases same
  | succ count ih =>
    intro off lastCn
    obtain ⟨found, read, records⟩ := readRecord_spec msg off
    unfold readAnswers
    rw [read]
    cases found with
    | none =>
      refine ⟨_, rfl, ?_⟩
      intro ip
      constructor
      · intro reached
        cases reached with
        | here record _ | later record _ _ => cases (records _).mp record
      · intro same
        cases same
    | some r =>
      have record : RefRecord msg off r := (records r).mpr rfl
      dsimp only
      by_cases address : r.isAddress = true
      · have fields := (isAddress_iff r).mp address
        have inside := record.inside
        rw [fields.2.2] at inside
        rw [if_pos address, readRun_of_le inside]
        refine ⟨_, rfl, ?_⟩
        intro ip
        constructor
        · intro reached
          cases reached with
          | here other _ =>
            obtain rfl := Option.some.inj ((records _).mp other)
            rfl
          | later other differs _ =>
            obtain rfl := Option.some.inj ((records _).mp other)
            exact absurd fields differs
        · intro same
          rw [← DnsAnswer.address.inj same]
          exact .here record fields
      · rw [if_neg address]
        have differs : ¬(r.cls = 1 ∧ r.type = 1 ∧ r.rdlen = 4) :=
          fun fields => address ((isAddress_iff r).mpr fields)
        obtain ⟨cname, looked⟩ := recordAlias_ok msg r
        rw [looked]
        obtain ⟨answer, further, rest⟩ := ih (r.rdata + r.rdlen) (cname.or lastCn)
        refine ⟨answer, further, ?_⟩
        intro ip
        rw [← rest ip]
        constructor
        · intro reached
          cases reached with
          | here other same =>
            obtain rfl := Option.some.inj ((records _).mp other)
            exact absurd same differs
          | later other _ reached =>
            obtain rfl := Option.some.inj ((records _).mp other)
            exact reached
        · intro reached
          exact .later record differs reached

def dnsFlags (msg : List UInt8) : Half := be16 (msg.drop 2)

def dnsQdcount (msg : List UInt8) : Nat := (be16 (msg.drop 4)).toNat

def dnsAncount (msg : List UInt8) : Nat := (be16 (msg.drop 6)).toNat

def RefResponse (msg : List UInt8) (ip : Word) : Prop :=
  12 ≤ msg.length ∧ ∃ off, RefQuestions msg (dnsQdcount msg) 12 off ∧
    RefAddress msg (dnsAncount msg) off ip

/-- A whole response without an error gives an address exactly if the reference parser does. -/
theorem readResponse_spec {msg : List UInt8} (long : 12 ≤ msg.length)
    (good : dnsFlags msg &&& 0x000F = 0) (whole : dnsFlags msg &&& 0x0200 = 0) :
    ∃ answer, readResponse msg = .ok answer ∧
      ∀ ip, answer = .address ip ↔ RefResponse msg ip := by
  have field : ∀ start, start + 2 ≤ 12 →
      be16 (((msg.drop 0).take 12).drop start) = be16 (msg.drop start) := by
    intro start inside
    rw [List.drop_take, be16_take (by omega), List.drop_zero]
  unfold dnsFlags at good whole
  unfold readResponse
  rw [readRun_of_le (by omega)]
  dsimp only
  rw [field 2 (by decide), field 4 (by decide), field 6 (by decide),
    if_neg (not_not.mpr good), if_neg (not_not.mpr whole)]
  obtain ⟨found, skipped, questions⟩ := skipQuestions_spec msg (dnsQdcount msg) 12
  have skipped' : skipQuestions msg (be16 (msg.drop 4)).toNat 12 = .ok found := skipped
  rw [skipped']
  cases found with
  | none =>
    refine ⟨_, rfl, ?_⟩
    intro ip
    constructor
    · intro same
      cases same
    · intro reached
      obtain ⟨-, off, passed, -⟩ := reached
      cases (questions off).mp passed
  | some off =>
    have passed : RefQuestions msg (dnsQdcount msg) 12 off := (questions off).mpr rfl
    have only : ∀ {other}, RefQuestions msg (dnsQdcount msg) 12 other → other = off :=
      fun another => (Option.some.inj ((questions _).mp another)).symm
    dsimp only
    split
    · rename_i empty
      refine ⟨_, rfl, ?_⟩
      intro ip
      constructor
      · intro same
        cases same
      · intro reached
        obtain ⟨-, other, -, address⟩ := reached
        rw [dnsAncount, empty] at address
        cases address
    · obtain ⟨answer, read, addresses⟩ := readAnswers_spec msg (dnsAncount msg) off none
      refine ⟨answer, read, ?_⟩
      intro ip
      rw [← addresses ip]
      constructor
      · intro reached
        exact ⟨long, off, passed, reached⟩
      · intro reached
        obtain ⟨-, other, another, address⟩ := reached
        exact only another ▸ address

/-- An alias that is a name goes into the query in place of the old name, with room to spare. -/
theorem followCname_spec (rxb : List UInt8) (off : Nat) {pkt : List UInt8}
    (size : pkt.length = dnsPktSize) :
    ∃ after len, followCname rxb off pkt = .ok (after, len) ∧
      ∀ qlen, len = some qlen → ∃ labels, labels ≠ [] ∧
        (∃ jumps used past, NameWalk rxb off labels jumps used past) ∧
        (encodeLabels labels).length + 1 ≤ dnsQnameCap ∧
        qlen = 12 + (encodeLabels labels).length + 1 + 4 ∧
        after = pkt.take 12 ++ encodeLabels labels ++ [0] ++ [0, 1, 0, 1] ++ pkt.drop qlen := by
  have cap : dnsQnameCap = 80 := rfl
  have all : dnsPktSize = 96 := rfl
  have room : ∀ array, some (pkt.drop 12) = some array → dnsQnameCap ≤ array.length := by
    intro array same
    rw [← Option.some.inj same, List.length_drop]
    omega
  obtain ⟨r, read, accepts, gives⟩ := dnsReadName_spec rxb off room
  unfold followCname
  rw [read]
  dsimp only
  split
  · exact ⟨_, none, rfl, fun qlen given => absurd given (by simp)⟩
  · rename_i good
    have yes : r.ok = true := by
      by_contra no
      exact good (Or.inl (by simp [no]))
    obtain ⟨labels, jumps, used, past, walk, -, -, fits⟩ := accepts.mp yes
    obtain ⟨out, dlen⟩ := (gives yes labels jumps used past walk).2 _ rfl
    have inside := fits rfl
    rw [out, dlen, Option.getD_some, Option.getD_some]
    -- The front of the packet up to the new end of the name is what was written there.
    have front : pkt.take 12 ++ (encodeLabels labels ++ [0] ++
        (pkt.drop 12).drop ((encodeLabels labels).length + 1)) =
        (pkt.take 12 ++ encodeLabels labels ++ [0]) ++
          pkt.drop (pkt.take 12 ++ encodeLabels labels ++ [0]).length := by
      have header : (pkt.take 12).length = 12 := by
        rw [List.length_take]
        omega
      simp only [List.append_assoc, List.length_append, header, List.length_singleton,
        List.drop_drop]
    have length : (pkt.take 12 ++ encodeLabels labels ++ [0]).length =
        12 + ((encodeLabels labels).length + 1) := by
      rw [List.length_append, List.length_append, List.length_take, List.length_singleton]
      omega
    rw [front, ← length, writeRun_front (by
      rw [length, List.length_cons, List.length_cons, List.length_cons, List.length_singleton]
      omega)]
    refine ⟨_, _, rfl, ?_⟩
    intro qlen given
    have same : qlen = 16 + ((encodeLabels labels).length + 1) := (Option.some.inj given).symm
    refine ⟨labels, ?_, ⟨jumps, used, past, walk⟩, inside, by omega, ?_⟩
    · intro empty
      rw [dlen, empty] at good
      exact good (Or.inr (by decide))
    · congr 2
      rw [List.length_append, length, same]
      simp only [List.length_cons, List.length_nil]
      omega

/-- A response with the expected number gives an address exactly if the reference parser does. -/
theorem dns_response_parsed (txid : Half) (rxb : List UInt8) (named : be16 rxb = txid)
    (reply : dnsFlags rxb &&& 0x8000 ≠ 0) (good : dnsFlags rxb &&& 0x000F = 0)
    (whole : dnsFlags rxb &&& 0x0200 = 0) :
    ∃ answer, takeResponse txid rxb = .ok answer ∧
      (∀ ip, answer = some (.address ip) ↔ RefResponse rxb ip) ∧
      ∀ off pkt, answer = some (.cname off) → pkt.length = dnsPktSize →
        ∃ followed, followCname rxb off pkt = .ok followed := by
  have follows : ∀ off pkt, pkt.length = dnsPktSize →
      ∃ followed, followCname rxb off pkt = .ok followed := by
    intro off pkt size
    obtain ⟨after, len, followed, -⟩ := followCname_spec rxb off size
    exact ⟨_, followed⟩
  unfold takeResponse
  split
  · rename_i short
    refine ⟨none, rfl, ?_, fun off pkt same => absurd same (by simp)⟩
    intro ip
    constructor
    · intro same
      cases same
    · intro reached
      have long := reached.1
      omega
  · rename_i long
    have number : be16 ((rxb.drop 0).take 4) = be16 rxb := be16_take (by decide)
    have flags : be16 (((rxb.drop 0).take 4).drop 2) = dnsFlags rxb := by
      rw [List.drop_take, be16_take (by decide), List.drop_zero, dnsFlags]
    rw [readRun_of_le (by omega)]
    dsimp only
    rw [number, flags, if_neg (not_not.mpr named), if_neg reply]
    obtain ⟨answer, read, addresses⟩ := readResponse_spec (by omega) good whole
    rw [read]
    refine ⟨some answer, rfl, ?_, fun off pkt _ size => follows off pkt size⟩
    intro ip
    rw [← addresses ip]
    constructor
    · intro same
      exact Option.some.inj same
    · intro same
      rw [same]

def rootResponse : List UInt8 :=
  [0, 7, 0x80, 0, 0, 1, 0, 1, 0, 0, 0, 0] ++ [0, 0, 1, 0, 1] ++
    [0, 0, 1, 0, 1, 0, 0, 0, 9, 0, 4, 10, 0, 2, 15]

/-- The reference parser reaches the address of that response, and so it is given. -/
theorem dns_response_parsed_root :
    takeResponse 7 rootResponse = .ok (some (.address (le32 [10, 0, 2, 15]))) := by
  obtain ⟨answer, taken, addresses, -⟩ := dns_response_parsed 7 rootResponse (by decide)
    (by decide) (by decide) (by decide)
  have name : ∀ off, rootResponse[off]? = some 0 → NameAt rootResponse off (off + 1) :=
    fun off zero => ⟨[], 0, 0, .zero zero, by decide, by decide⟩
  have reached : RefResponse rootResponse (le32 [10, 0, 2, 15]) := by
    refine ⟨by decide, 17, .next (name 12 rfl) (by decide) (.done 17), ?_⟩
    have one : dnsAncount rootResponse = 1 := by decide
    rw [one]
    exact @RefAddress.here rootResponse 0 17 { type := 1, cls := 1, rdlen := 4, rdata := 28 }
      ⟨⟨18, name 17 rfl, by decide, rfl, by decide, by decide, by decide⟩, by decide⟩ (by decide)
  rw [taken, (addresses _).mpr reached]

end CatOs.Net
