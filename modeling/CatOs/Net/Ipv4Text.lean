import CatOs.Net.Dhcp

/-! Addresses as text: the reader of dotted quads, the decimal printer, and what they share. -/

namespace CatOs.Net

open Tcp (be32Bytes)
open Function

def dot : UInt8 := 46

def isDigit (c : UInt8) : Bool := 48 ≤ c && c ≤ 57

structure Ipv4Parse where
  value : Word
  octet : Word
  dots : Word
  digit : Bool

def parseIpv4From (text : Buffer UInt8) : Nat → Nat → Ipv4Parse → Option Word
  | 0, _, _ => none
  | left + 1, i, s =>
    let c := text i
    if isDigit c then
      let octet := s.octet * 10 + (c - 48).toBitVec.zeroExtend 32
      if octet > 255 then none
      else parseIpv4From text left (i + 1) { s with digit := true, octet := octet }
    else if c = dot ∧ s.digit ∧ s.dots < 3 then
      parseIpv4From text left (i + 1)
        { value := s.value <<< 8 ||| s.octet, octet := 0, dots := s.dots + 1, digit := false }
    else if c = 0 ∧ s.digit ∧ s.dots = 3 then some (hton32 (s.value <<< 8 ||| s.octet))
    else none

def netParseIpv4 (text : Option (Buffer UInt8)) (out : Bool) : Option Word :=
  match text, out with
  | some text, true => parseIpv4From text 16 0 { value := 0, octet := 0, dots := 0, digit := false }
  | _, _ => none

structure PingText where
  out : Buffer UInt8
  n : Word

def pingPutc (cap : Word) (c : UInt8) (t : PingText) : PingText :=
  { out := if t.n < cap then update t.out t.n.toNat c else t.out
    n := t.n + 1 }

def pingPuts (cap : Word) (s : List UInt8) (t : PingText) : PingText :=
  s.foldl (fun t c => pingPutc cap c t) t

def decDigits : Nat → Word → List UInt8
  | 0, _ => []
  | room + 1, v =>
    if v = 0 then [] else ⟨(48 + v % 10).truncate 8⟩ :: decDigits room (v / 10)

def pingPutdec (cap v : Word) (t : PingText) : PingText :=
  if v = 0 then pingPutc cap 48 t
  else (decDigits 10 v).reverse.foldl (fun t c => pingPutc cap c t) t

def pingPutip (cap ip : Word) (t : PingText) : PingText :=
  forRange 4
    (fun i t =>
      let t := pingPutdec cap (((le32Bytes ip).getD i 0).toBitVec.zeroExtend 32) t
      if i < 3 then pingPutc cap dot t else t)
    t

def pingFinish (cap : Word) (t : PingText) : PingText :=
  if cap = 0 then { t with n := 0 }
  else
    let n := if t.n ≥ cap then cap - 1 else t.n
    { out := update t.out n.toNat 0, n := n }

structure CString (text : Buffer UInt8) (chars : List UInt8) : Prop where
  held : text.read 0 chars.length = chars
  ended : text chars.length = 0
  inner : ∀ c ∈ chars, c ≠ 0

def decimalFrom (value : Nat) (run : List UInt8) : Nat :=
  run.foldl (fun value c => value * 10 + (c.toNat - 48)) value

structure IsOctet (run : List UInt8) : Prop where
  nonempty : run ≠ []
  digits : ∀ c ∈ run, isDigit c = true
  small : decimalFrom 0 run ≤ 255

def octetByte (run : List UInt8) : UInt8 := UInt8.ofNat (decimalFrom 0 run)

def decimalText (v : Word) : List UInt8 := if v = 0 then [48] else (decDigits 10 v).reverse

def ipText (ip : Word) : List UInt8 :=
  let part (i : Nat) : List UInt8 := decimalText (((le32Bytes ip).getD i 0).toBitVec.zeroExtend 32)
  part 0 ++ [dot] ++ part 1 ++ [dot] ++ part 2 ++ [dot] ++ part 3

theorem isDigit_iff (c : UInt8) : isDigit c = true ↔ 48 ≤ c.toNat ∧ c.toNat ≤ 57 := by
  simp only [isDigit, Bool.and_eq_true, decide_eq_true_eq, UInt8.le_iff_toNat_le]
  rfl

theorem isDigit_dot : isDigit dot = false := by decide

theorem le_decimalFrom (value : Nat) (run : List UInt8) : value ≤ decimalFrom value run := by
  induction run generalizing value with
  | nil => exact Nat.le_refl value
  | cons c rest ih => exact Nat.le_trans (by omega) (ih (value * 10 + (c.toNat - 48)))

theorem toNat_addDigit {octet : Word} {c : UInt8} (small : octet.toNat ≤ 255)
    (digit : isDigit c = true) :
    (octet * 10 + (c - 48).toBitVec.zeroExtend 32).toNat = octet.toNat * 10 + (c.toNat - 48) := by
  have range := (isDigit_iff c).mp digit
  have sub : (c - 48).toNat = c.toNat - 48 :=
    UInt8.toNat_sub_of_le _ _ (UInt8.le_iff_toNat_le.mpr range.1)
  have wide : ((c - 48).toBitVec.zeroExtend 32).toNat = c.toNat - 48 := by
    rw [BitVec.zeroExtend_eq_setWidth, BitVec.toNat_setWidth_of_le (by decide)]
    exact sub
  have ten : (10 : Word).toNat = 10 := rfl
  rw [BitVec.toNat_add, BitVec.toNat_mul, wide, ten]
  omega

def packOctets (value : Word) (octets : List Nat) : Word :=
  octets.foldl (fun value octet => value <<< 8 ||| BitVec.ofNat 32 octet) value

def Ipv4Parse.takeDigit (s : Ipv4Parse) (c : UInt8) : Ipv4Parse :=
  { s with digit := true, octet := s.octet * 10 + (c - 48).toBitVec.zeroExtend 32 }

def Ipv4Parse.takeDot (s : Ipv4Parse) : Ipv4Parse :=
  { value := s.value <<< 8 ||| s.octet, octet := 0, dots := s.dots + 1, digit := false }

structure RestOf (s : Ipv4Parse) (chars run : List UInt8) (runs : List (List UInt8)) : Prop where
  text : chars = run ++ runs.flatMap (fun run => dot :: run)
  parts : s.dots.toNat + runs.length = 3
  nonempty : s.digit = true ∨ run ≠ []
  digits : ∀ c ∈ run, isDigit c = true
  small : decimalFrom s.octet.toNat run ≤ 255
  octets : ∀ run ∈ runs, IsOctet run

theorem decimalFrom_takeDigit {s : Ipv4Parse} {c : UInt8} (small : s.octet.toNat ≤ 255)
    (digit : isDigit c = true) (more : List UInt8) :
    decimalFrom s.octet.toNat (c :: more) = decimalFrom (s.takeDigit c).octet.toNat more := by
  rw [Ipv4Parse.takeDigit, toNat_addDigit small digit]
  rfl

theorem restOf_digit {s : Ipv4Parse} {c : UInt8} {rest run : List UInt8}
    {runs : List (List UInt8)} (digit : isDigit c = true) (small : s.octet.toNat ≤ 255) :
    RestOf s (c :: rest) run runs ↔ ∃ more, run = c :: more ∧
      RestOf (s.takeDigit c) rest more runs := by
  have value := decimalFrom_takeDigit small digit
  constructor
  · intro found
    cases run with
    | nil =>
      -- An empty run would put a separator, or nothing, where the digit stands.
      exfalso
      have text := found.text
      cases runs with
      | nil => cases text
      | cons first others =>
        obtain ⟨rfl, -⟩ := List.cons.inj text
        rw [isDigit_dot] at digit
        cases digit
    | cons head more =>
      obtain ⟨rfl, text⟩ := List.cons.inj found.text
      exact ⟨more, rfl, text, found.parts, Or.inl rfl,
        fun d member => found.digits d (List.mem_cons_of_mem _ member),
        value more ▸ found.small, found.octets⟩
  · intro found
    obtain ⟨more, rfl, rest'⟩ := found
    refine ⟨congrArg (c :: ·) rest'.text, rest'.parts, Or.inr (List.cons_ne_nil c more), ?_,
      (value more).symm ▸ rest'.small, rest'.octets⟩
    intro d member
    rcases List.mem_cons.mp member with rfl | later
    · exact digit
    · exact rest'.digits d later

theorem toNat_takeDot {s : Ipv4Parse} (few : s.dots.toNat ≤ 3) :
    s.takeDot.dots.toNat = s.dots.toNat + 1 := by
  have one : (1 : Word).toNat = 1 := rfl
  rw [Ipv4Parse.takeDot, BitVec.toNat_add, one]
  omega

theorem restOf_dot {s : Ipv4Parse} {rest run : List UInt8} {runs : List (List UInt8)}
    (few : s.dots.toNat ≤ 3) (small : s.octet.toNat ≤ 255) :
    RestOf s (dot :: rest) run runs ↔ run = [] ∧ s.digit = true ∧ s.dots < 3 ∧
      ∃ next others, runs = next :: others ∧
        RestOf s.takeDot rest next others := by
  have three : s.dots < 3 ↔ s.dots.toNat < 3 := Iff.rfl
  have count := toNat_takeDot few
  constructor
  · intro found
    cases run with
    | cons head more =>
      obtain ⟨rfl, -⟩ := List.cons.inj found.text
      have digit := found.digits dot List.mem_cons_self
      rw [isDigit_dot] at digit
      cases digit
    | nil =>
      have seen : s.digit = true := found.nonempty.resolve_right (not_not.mpr rfl)
      cases runs with
      | nil => cases found.text
      | cons next others =>
        have parts := found.parts
        rw [List.length_cons] at parts
        have octet := found.octets next List.mem_cons_self
        refine ⟨rfl, seen, three.mpr (by omega), next, others, rfl,
          (List.cons.inj found.text).2, ?_, Or.inr octet.nonempty, octet.digits, octet.small,
          fun run member => found.octets run (List.mem_cons_of_mem _ member)⟩
        omega
  · intro found
    obtain ⟨rfl, seen, -, next, others, rfl, rest'⟩ := found
    have parts := rest'.parts
    refine ⟨congrArg (dot :: ·) rest'.text, by rw [List.length_cons]; omega, Or.inl seen,
      fun c member => absurd member List.not_mem_nil, small, ?_⟩
    intro run member
    rcases List.mem_cons.mp member with rfl | later
    · exact ⟨rest'.nonempty.resolve_left Bool.false_ne_true, rest'.digits, rest'.small⟩
    · exact rest'.octets run later

theorem restOf_nil {s : Ipv4Parse} {run : List UInt8} {runs : List (List UInt8)}
    (small : s.octet.toNat ≤ 255) :
    RestOf s [] run runs ↔ run = [] ∧ runs = [] ∧ s.digit = true ∧ s.dots = 3 := by
  have three : s.dots = 3 ↔ s.dots.toNat = 3 := BitVec.toNat_inj.symm
  constructor
  · intro found
    obtain ⟨rfl, none⟩ := List.append_eq_nil_iff.mp found.text.symm
    cases runs with
    | nil =>
      exact ⟨rfl, rfl, found.nonempty.resolve_right (not_not.mpr rfl), three.mpr found.parts⟩
    | cons next others => cases none
  · intro ended
    obtain ⟨rfl, rfl, seen, all⟩ := ended
    exact ⟨rfl, three.mp all, Or.inl seen, fun c member => absurd member List.not_mem_nil, small,
      fun run member => absurd member List.not_mem_nil⟩

theorem isDigit_or_dot_of_restOf {s : Ipv4Parse} {c : UInt8} {rest run : List UInt8}
    {runs : List (List UInt8)} (found : RestOf s (c :: rest) run runs) :
    isDigit c = true ∨ c = dot := by
  cases run with
  | cons head more =>
    obtain ⟨rfl, -⟩ := List.cons.inj found.text
    exact Or.inl (found.digits c List.mem_cons_self)
  | nil =>
    cases runs with
    | nil => cases found.text
    | cons next others => exact Or.inr (List.cons.inj found.text).1

def Completes (s : Ipv4Parse) (chars : List UInt8) (addr : Word) : Prop :=
  ∃ run runs, RestOf s chars run runs ∧ addr = hton32 (packOctets s.value
    (decimalFrom s.octet.toNat run :: runs.map (decimalFrom 0)))

theorem packOctets_cons (value octet : Word) (octets : List Nat) :
    packOctets value (octet.toNat :: octets) = packOctets (value <<< 8 ||| octet) octets := by
  rw [packOctets, List.foldl_cons, BitVec.ofNat_toNat, BitVec.setWidth_eq, packOctets]

theorem completes_digit {s : Ipv4Parse} {c : UInt8} {rest : List UInt8} {addr : Word}
    (digit : isDigit c = true) (small : s.octet.toNat ≤ 255) :
    Completes s (c :: rest) addr ↔
      (s.takeDigit c).octet.toNat ≤ 255 ∧ Completes (s.takeDigit c) rest addr := by
  have value := decimalFrom_takeDigit small digit
  constructor
  · intro found
    obtain ⟨run, runs, whole, same⟩ := found
    obtain ⟨more, rfl, rest'⟩ := (restOf_digit digit small).mp whole
    -- A run that is already too large would only grow.
    refine ⟨Nat.le_trans (le_decimalFrom _ more) rest'.small, more, runs, rest', ?_⟩
    rw [same, value]
    rfl
  · intro found
    obtain ⟨-, more, runs, rest', same⟩ := found
    refine ⟨c :: more, runs, (restOf_digit digit small).mpr ⟨more, rfl, rest'⟩, ?_⟩
    rw [same, value]
    rfl

theorem completes_dot {s : Ipv4Parse} {rest : List UInt8} {addr : Word}
    (few : s.dots.toNat ≤ 3) (small : s.octet.toNat ≤ 255) :
    Completes s (dot :: rest) addr ↔
      (s.digit = true ∧ s.dots < 3) ∧ Completes s.takeDot rest addr := by
  have packed : ∀ next others, packOctets s.value (decimalFrom s.octet.toNat [] ::
      (next :: others).map (decimalFrom 0)) =
      packOctets s.takeDot.value
        (decimalFrom s.takeDot.octet.toNat next :: others.map (decimalFrom 0)) := by
    intro next others
    exact packOctets_cons s.value s.octet _
  constructor
  · intro found
    obtain ⟨run, runs, whole, same⟩ := found
    obtain ⟨rfl, seen, open_, next, others, rfl, rest'⟩ := (restOf_dot few small).mp whole
    refine ⟨⟨seen, open_⟩, next, others, rest', ?_⟩
    rw [same, packed]
  · intro found
    obtain ⟨⟨seen, open_⟩, next, others, rest', same⟩ := found
    refine ⟨[], next :: others,
      (restOf_dot few small).mpr ⟨rfl, seen, open_, next, others, rfl, rest'⟩, ?_⟩
    rw [same, packed]

theorem completes_nil {s : Ipv4Parse} {addr : Word} (small : s.octet.toNat ≤ 255) :
    Completes s [] addr ↔
      (s.digit = true ∧ s.dots = 3) ∧ addr = hton32 (s.value <<< 8 ||| s.octet) := by
  have packed : packOctets s.value [s.octet.toNat] = s.value <<< 8 ||| s.octet :=
    packOctets_cons s.value s.octet []
  constructor
  · intro found
    obtain ⟨run, runs, whole, same⟩ := found
    obtain ⟨rfl, rfl, full⟩ := (restOf_nil small).mp whole
    exact ⟨full, same.trans (congrArg hton32 packed)⟩
  · intro found
    obtain ⟨full, same⟩ := found
    exact ⟨[], [], (restOf_nil small).mpr ⟨rfl, rfl, full⟩,
      same.trans (congrArg hton32 packed.symm)⟩

section Buffer

variable {text : Buffer UInt8} {left i : Nat} {s : Ipv4Parse}

theorem parseIpv4From_digit {c : UInt8}
    (head : text i = c) (digit : isDigit c = true) : parseIpv4From text (left + 1) i s =
      if (s.takeDigit c).octet.toNat ≤ 255 then parseIpv4From text left (i + 1) (s.takeDigit c)
      else none := by
  have bound : (s.takeDigit c).octet > 255 ↔ ¬(s.takeDigit c).octet.toNat ≤ 255 :=
    Nat.not_le.symm
  rw [parseIpv4From, head, if_pos digit]
  by_cases fits : (s.takeDigit c).octet.toNat ≤ 255
  · rw [if_pos fits]
    exact if_neg (fun large => bound.mp large fits)
  · rw [if_neg fits]
    exact if_pos (bound.mpr fits)

theorem parseIpv4From_dot (head : text i = dot) : parseIpv4From text (left + 1) i s =
      if s.digit = true ∧ s.dots < 3 then parseIpv4From text left (i + 1) s.takeDot
      else none := by
  rw [parseIpv4From, head, if_neg (by rw [isDigit_dot]; exact Bool.false_ne_true)]
  by_cases ends : s.digit = true ∧ s.dots < 3
  · rw [if_pos ends, if_pos ⟨rfl, ends⟩]
    rfl
  · rw [if_neg ends, if_neg (fun all => ends all.2), if_neg]
    intro all
    exact absurd all.1 (by decide)

theorem parseIpv4From_end (head : text i = 0) : parseIpv4From text (left + 1) i s =
      if s.digit = true ∧ s.dots = 3 then some (hton32 (s.value <<< 8 ||| s.octet))
      else none := by
  rw [parseIpv4From, head, if_neg (by decide), if_neg (fun all => absurd all.1 (by decide))]
  simp only [true_and]

theorem parseIpv4From_other {c : UInt8}
    (head : text i = c) (digit : ¬isDigit c = true) (separator : c ≠ dot) (inner : c ≠ 0) :
    parseIpv4From text (left + 1) i s = none := by
  rw [parseIpv4From, head, if_neg digit, if_neg (fun all => separator all.1),
    if_neg (fun all => inner all.1)]

end Buffer

/-- The reader accepts from any point on exactly the texts that complete an address in time. -/
theorem parseIpv4From_eq_some (text : Buffer UInt8) {addr : Word} (chars : List UInt8) :
    ∀ (left i : Nat) (s : Ipv4Parse), text.read i chars.length = chars →
      text (i + chars.length) = 0 → (∀ c ∈ chars, c ≠ 0) → s.octet.toNat ≤ 255 →
      s.dots.toNat ≤ 3 →
      (parseIpv4From text left i s = some addr ↔ chars.length < left ∧ Completes s chars addr) := by
  induction chars with
  | nil =>
    intro left i s _ ended _ small few
    cases left with
    | zero => simp [parseIpv4From]
    | succ left =>
      have last : text i = 0 := ended
      rw [parseIpv4From_end last, completes_nil small, Option.ite_none_right_eq_some]
      exact ⟨fun found => ⟨Nat.succ_pos left, found.1, (Option.some.inj found.2).symm⟩,
        fun found => ⟨found.2.1, congrArg some found.2.2.symm⟩⟩
  | cons c rest ih =>
    intro left i s held ended inner small few
    rw [List.length_cons, Nat.add_comm rest.length 1, Buffer.read_add, Buffer.read_one] at held
    obtain ⟨head, tail⟩ := List.cons.inj held
    rw [List.length_cons, Nat.add_comm rest.length 1, ← Nat.add_assoc] at ended
    have later : ∀ d ∈ rest, d ≠ 0 := fun d member => inner d (List.mem_cons_of_mem c member)
    cases left with
    | zero => simp [parseIpv4From]
    | succ left =>
      rw [List.length_cons, Nat.succ_lt_succ_iff]
      by_cases digit : isDigit c = true
      · rw [parseIpv4From_digit head digit, completes_digit digit small,
          Option.ite_none_right_eq_some, and_left_comm]
        apply and_congr_right
        intro fits
        exact ih left (i + 1) (s.takeDigit c) tail ended later fits few
      · by_cases separator : c = dot
        · subst separator
          rw [parseIpv4From_dot head, completes_dot few small, Option.ite_none_right_eq_some,
            and_left_comm]
          apply and_congr_right
          intro ends
          have count : s.takeDot.dots.toNat ≤ 3 := by
            have below : s.dots.toNat < 3 := ends.2
            rw [toNat_takeDot few]
            omega
          exact ih left (i + 1) s.takeDot tail ended later (Nat.zero_le 255) count
        · rw [parseIpv4From_other head digit separator (inner c List.mem_cons_self)]
          constructor
          · intro parsed
            cases parsed
          · intro found
            obtain ⟨-, run, runs, whole, -⟩ := found
            exact ((isDigit_or_dot_of_restOf whole).elim digit separator).elim

theorem toNat_packOctet {value : Word} {n octet : Nat} (held : value.toNat = n)
    (room : n < 16777216) (small : octet ≤ 255) :
    (value <<< 8 ||| BitVec.ofNat 32 octet).toNat = n * 256 + octet := by
  have shifted : n <<< 8 % 4294967296 = n <<< 8 := by
    rw [Nat.shiftLeft_eq]
    omega
  have low : octet % 4294967296 = octet := Nat.mod_eq_of_lt (by omega)
  rw [BitVec.toNat_or, BitVec.toNat_shiftLeft, BitVec.toNat_ofNat, held]
  simp only [Nat.reducePow, shifted, low]
  rw [← Nat.shiftLeft_add_eq_or_of_lt (by omega : octet < 2 ^ 8), Nat.shiftLeft_eq]

theorem byte_of_word {value : Word} (start digit : Nat)
    (held : value.toNat / 2 ^ start % 256 = digit) :
    (⟨value.extractLsb' start 8⟩ : UInt8) = UInt8.ofNat digit := by
  apply UInt8.toNat_inj.mp
  rw [UInt8.toNat_ofNat', ← held, Nat.mod_mod]
  change (value.extractLsb' start 8).toNat = _
  rw [BitVec.extractLsb'_toNat, Nat.shiftRight_eq_div_pow]

theorem hton32_packOctets {a b c d : Nat} (smallA : a ≤ 255) (smallB : b ≤ 255)
    (smallC : c ≤ 255) (smallD : d ≤ 255) : hton32 (packOctets 0 [a, b, c, d]) =
      le32 [UInt8.ofNat a, UInt8.ofNat b, UInt8.ofNat c, UInt8.ofNat d] := by
  -- Each octet moves the earlier ones up by one byte.
  have one := @toNat_packOctet 0 0 a rfl (by decide) smallA
  have two := toNat_packOctet one (by omega) smallB
  have three := toNat_packOctet two (by omega) smallC
  have four : (packOctets 0 [a, b, c, d]).toNat = _ := toNat_packOctet three (by omega) smallD
  have bytes : be32Bytes (packOctets 0 [a, b, c, d]) =
      [UInt8.ofNat a, UInt8.ofNat b, UInt8.ofNat c, UInt8.ofNat d] := by
    rw [be32Bytes, byte_of_word 24 a, byte_of_word 16 b, byte_of_word 8 c, byte_of_word 0 d]
    all_goals
      rw [four]
      omega
  rw [hton32, bytes]

theorem restOf_start {chars : List UInt8} {addr : Word} :
    Completes { value := 0, octet := 0, dots := 0, digit := false } chars addr ↔
      ∃ a b c d, IsOctet a ∧ IsOctet b ∧ IsOctet c ∧ IsOctet d ∧
        chars = a ++ [dot] ++ b ++ [dot] ++ c ++ [dot] ++ d ∧
        addr = le32 [octetByte a, octetByte b, octetByte c, octetByte d] := by
  constructor
  · intro found
    obtain ⟨a, runs, whole, same⟩ := found
    have three : runs.length = 3 := (Nat.zero_add _).symm.trans whole.parts
    obtain ⟨b, c, d, rfl⟩ := List.length_eq_three.mp three
    have first : IsOctet a :=
      ⟨whole.nonempty.resolve_left Bool.false_ne_true, whole.digits, whole.small⟩
    have second := whole.octets b (by simp)
    have third := whole.octets c (by simp)
    have fourth := whole.octets d (by simp)
    refine ⟨a, b, c, d, first, second, third, fourth, ?_, ?_⟩
    · rw [whole.text]
      simp
    · rw [same]
      exact hton32_packOctets first.small second.small third.small fourth.small
  · intro found
    obtain ⟨a, b, c, d, first, second, third, fourth, text, same⟩ := found
    refine ⟨a, [b, c, d], ⟨?_, rfl, Or.inr first.nonempty, first.digits, first.small, ?_⟩, ?_⟩
    · rw [text]
      simp
    · intro run member
      simp only [List.mem_cons, List.not_mem_nil, or_false] at member
      rcases member with rfl | rfl | rfl
      · exact second
      · exact third
      · exact fourth
    · rw [same]
      exact (hton32_packOctets first.small second.small third.small fourth.small).symm

theorem netParseIpv4_eq_some {text : Buffer UInt8} {chars : List UInt8}
    (string : CString text chars) {addr : Word} : netParseIpv4 (some text) true = some addr ↔
      chars.length ≤ 15 ∧ ∃ a b c d, IsOctet a ∧ IsOctet b ∧ IsOctet c ∧ IsOctet d ∧
        chars = a ++ [dot] ++ b ++ [dot] ++ c ++ [dot] ++ d ∧
        addr = le32 [octetByte a, octetByte b, octetByte c, octetByte d] := by
  have ended : text (0 + chars.length) = 0 := by
    rw [Nat.zero_add]
    exact string.ended
  rw [netParseIpv4, parseIpv4From_eq_some text chars 16 0 _ string.held ended string.inner
    (Nat.zero_le _) (Nat.zero_le _), restOf_start, Nat.lt_succ_iff]

theorem pingPuts_eq (cap : Word) (s : List UInt8) : ∀ t : PingText,
    t.n.toNat + s.length ≤ cap.toNat → pingPuts cap s t =
      { out := t.out.write t.n.toNat s, n := t.n + BitVec.ofNat 32 s.length } := by
  induction s with
  | nil =>
    intro t _
    simp [pingPuts]
  | cons c rest ih =>
    intro t room
    rw [List.length_cons] at room
    have bound := cap.isLt
    have one : (1 : Word).toNat = 1 := rfl
    have next : (t.n + 1).toNat = t.n.toNat + 1 := by
      rw [BitVec.toNat_add, one]
      omega
    have fits : t.n < cap := by
      change t.n.toNat < cap.toNat
      omega
    have put : pingPutc cap c t =
        { out := update t.out t.n.toNat c, n := t.n + 1 } := by
      rw [pingPutc, if_pos fits]
    have first : pingPuts cap (c :: rest) t = pingPuts cap rest (pingPutc cap c t) := rfl
    rw [first, put, ih _ (by dsimp only; omega)]
    dsimp only
    rw [next, Buffer.write_cons, List.length_cons, BitVec.add_assoc]
    congr 2
    rw [BitVec.ofNat_add, BitVec.add_comm]
    rfl

theorem pingPuts_append (cap : Word) (first second : List UInt8) (t : PingText) :
    pingPuts cap (first ++ second) t = pingPuts cap second (pingPuts cap first t) :=
  List.foldl_append

theorem pingPutdec_eq (cap v : Word) (t : PingText) :
    pingPutdec cap v t = pingPuts cap (decimalText v) t := by
  unfold pingPutdec decimalText
  split <;> rfl

theorem pingPutip_eq (cap ip : Word) (t : PingText) :
    pingPutip cap ip t = pingPuts cap (ipText ip) t := by
  have single : ∀ t, pingPutc cap dot t = pingPuts cap [dot] t := fun _ => rfl
  unfold pingPutip ipText
  simp only [forRange_succ, forRange_zero, pingPutdec_eq, single, pingPuts_append]
  rfl

theorem toNat_lowDigit (v : Word) :
    (⟨(48 + v % 10).truncate 8⟩ : UInt8).toNat = 48 + v.toNat % 10 := by
  change ((48 + v % 10).truncate 8).toNat = _
  have ten : (10 : Word).toNat = 10 := rfl
  have zero : (48 : Word).toNat = 48 := rfl
  rw [BitVec.truncate_eq_setWidth, BitVec.toNat_setWidth, BitVec.toNat_add, BitVec.toNat_umod, ten,
    zero]
  omega

theorem isDigit_of_mem_decDigits {room : Nat} {v : Word} {c : UInt8}
    (member : c ∈ decDigits room v) : isDigit c = true := by
  induction room generalizing v with
  | zero => exact absurd member List.not_mem_nil
  | succ room ih =>
    unfold decDigits at member
    split at member
    · exact absurd member List.not_mem_nil
    · rcases List.mem_cons.mp member with rfl | later
      · rw [isDigit_iff, toNat_lowDigit]
        omega
      · exact ih later

theorem decimalFrom_decDigits (room : Nat) : ∀ v : Word, v.toNat < 10 ^ room →
    decimalFrom 0 (decDigits room v).reverse = v.toNat := by
  induction room with
  | zero =>
    intro v small
    exact (Nat.lt_one_iff.mp small).symm
  | succ room ih =>
    intro v small
    unfold decDigits
    split
    · rename_i zero
      rw [zero]
      rfl
    · have ten : (v / 10).toNat = v.toNat / 10 := BitVec.toNat_udiv
      have rest := ih (v / 10) (by rw [ten]; omega)
      -- The lowest digit is read last.
      rw [List.reverse_cons, decimalFrom, List.foldl_append, List.foldl_cons, List.foldl_nil,
        toNat_lowDigit]
      change decimalFrom 0 (decDigits room (v / 10)).reverse * 10 + _ = _
      rw [rest, ten]
      omega

theorem length_decDigits (room : Nat) : ∀ (v : Word) (width : Nat), v.toNat < 10 ^ width →
    (decDigits room v).length ≤ width := by
  induction room with
  | zero => exact fun _ _ _ => Nat.zero_le _
  | succ room ih =>
    intro v width small
    unfold decDigits
    split
    · exact Nat.zero_le _
    · rename_i nonzero
      have ten : (v / 10).toNat = v.toNat / 10 := BitVec.toNat_udiv
      cases width with
      | zero => exact absurd (BitVec.eq_of_toNat_eq (Nat.lt_one_iff.mp small)) nonzero
      | succ width =>
        rw [List.length_cons]
        exact Nat.succ_le_succ (ih (v / 10) width (by rw [ten]; omega))

theorem decimalText_octet (byte : UInt8) :
    IsOctet (decimalText (byte.toBitVec.zeroExtend 32)) ∧
      octetByte (decimalText (byte.toBitVec.zeroExtend 32)) = byte ∧
      (decimalText (byte.toBitVec.zeroExtend 32)).length ≤ 3 := by
  generalize wide : byte.toBitVec.zeroExtend 32 = v
  have value : v.toNat = byte.toNat := by
    rw [← wide, BitVec.zeroExtend_eq_setWidth, BitVec.toNat_setWidth_of_le (by decide)]
    rfl
  have small := byte.toNat_lt
  by_cases zero : v = 0
  · have none : byte = 0 := by
      apply UInt8.toNat_inj.mp
      rw [← value, zero]
      rfl
    rw [zero, none]
    exact ⟨⟨by decide, by decide +kernel, by decide⟩, by decide, by decide⟩
  · have text : decimalText v = (decDigits 10 v).reverse := if_neg zero
    have decimal := decimalFrom_decDigits 10 v (by omega)
    rw [text]
    refine ⟨⟨?_, ?_, ?_⟩, ?_, ?_⟩
    · intro empty
      rw [empty] at decimal
      exact zero (BitVec.eq_of_toNat_eq decimal.symm)
    · intro c member
      exact isDigit_of_mem_decDigits (List.mem_reverse.mp member)
    · omega
    · rw [octetByte, decimal, value, UInt8.ofNat_toNat]
    · rw [List.length_reverse]
      exact length_decDigits 10 v 3 (by omega)

theorem le32_le32Bytes (value : Word) : le32 (le32Bytes value) = value :=
  Tcp.be32_be32Bytes value []

theorem ipText_octets (ip : Word) : (ipText ip).length ≤ 15 ∧
    ∃ a b c d, IsOctet a ∧ IsOctet b ∧ IsOctet c ∧ IsOctet d ∧
      ipText ip = a ++ [dot] ++ b ++ [dot] ++ c ++ [dot] ++ d ∧
      ip = le32 [octetByte a, octetByte b, octetByte c, octetByte d] := by
  have octet := fun i => decimalText_octet ((le32Bytes ip).getD i 0)
  constructor
  · have first := (octet 0).2.2
    have second := (octet 1).2.2
    have third := (octet 2).2.2
    have fourth := (octet 3).2.2
    simp only [ipText, List.length_append, List.length_cons, List.length_nil]
    omega
  · refine ⟨_, _, _, _, (octet 0).1, (octet 1).1, (octet 2).1, (octet 3).1, rfl, ?_⟩
    rw [(octet 0).2.1, (octet 1).2.1, (octet 2).2.1, (octet 3).2.1]
    exact (le32_le32Bytes ip).symm

theorem ne_zero_of_mem_ipText {ip : Word} {c : UInt8} (member : c ∈ ipText ip) : c ≠ 0 := by
  have digit : ∀ i, c ∈ decimalText (((le32Bytes ip).getD i 0).toBitVec.zeroExtend 32) → c ≠ 0 := by
    intro i inside same
    have range := (decimalText_octet ((le32Bytes ip).getD i 0)).1.digits c inside
    rw [same] at range
    exact absurd range (by decide)
  have separator : c ∈ [dot] → c ≠ 0 := by
    intro inside
    rw [List.mem_singleton.mp inside]
    decide
  simp only [ipText, List.mem_append] at member
  rcases member with (((((inside | inside) | inside) | inside) | inside) | inside) | inside
  · exact digit 0 inside
  · exact separator inside
  · exact digit 1 inside
  · exact separator inside
  · exact digit 2 inside
  · exact separator inside
  · exact digit 3 inside

theorem cstring_pingFinish {cap : Word} {t : PingText} {s : List UInt8}
    (room : t.n.toNat + s.length < cap.toNat) (inner : ∀ c ∈ s, c ≠ 0) :
    CString (fun i => (pingFinish cap (pingPuts cap s t)).out (t.n.toNat + i)) s := by
  have bound := cap.isLt
  have count : (t.n + BitVec.ofNat 32 s.length).toNat = t.n.toNat + s.length := by
    rw [BitVec.toNat_add, BitVec.toNat_ofNat]
    omega
  have finished : (pingFinish cap (pingPuts cap s t)).out =
      update (t.out.write t.n.toNat s) (t.n.toNat + s.length) 0 := by
    have nonzero : cap ≠ 0 := by
      intro zero
      rw [zero] at room
      exact absurd room (Nat.not_lt_zero _)
    have inside : ¬t.n + BitVec.ofNat 32 s.length ≥ cap := by
      apply Nat.not_le.mpr
      rw [count]
      exact room
    rw [pingPuts_eq cap s t (Nat.le_of_lt room), pingFinish, if_neg nonzero]
    dsimp only
    rw [if_neg inside, count]
  rw [finished]
  refine ⟨?_, update_self _ _ _, inner⟩
  apply List.ext_getElem (Buffer.length_read _ _ _)
  intro i within inside
  -- The mark of the end lies behind every character.
  simp only [Buffer.read, List.getElem_map, List.getElem_range, Nat.zero_add]
  rw [update_of_ne (by omega), Buffer.write_at _ _ _ inside]

/-- The reader accepts exactly the short dotted texts, and reads every printed address back. -/
theorem ipv4_text_round_trip :
    (∀ (text : Buffer UInt8) (chars : List UInt8), CString text chars → ∀ addr : Word,
      netParseIpv4 (some text) true = some addr ↔
        chars.length ≤ 15 ∧ ∃ a b c d, IsOctet a ∧ IsOctet b ∧ IsOctet c ∧ IsOctet d ∧
          chars = a ++ [dot] ++ b ++ [dot] ++ c ++ [dot] ++ d ∧
          addr = le32 [octetByte a, octetByte b, octetByte c, octetByte d]) ∧
    (∀ (ip cap : Word) (t : PingText), t.n.toNat + (ipText ip).length < cap.toNat →
      netParseIpv4
        (some fun i => (pingFinish cap (pingPutip cap ip t)).out (t.n.toNat + i)) true =
        some ip) := by
  constructor
  · intro text chars string addr
    exact netParseIpv4_eq_some string
  · intro ip cap t room
    rw [pingPutip_eq, netParseIpv4_eq_some
      (cstring_pingFinish room (fun c member => ne_zero_of_mem_ipText member))]
    exact ipText_octets ip

/-- An address is printed into the smallest buffer that holds its text, and read back. -/
theorem ipv4_text_round_trip_private :
    netParseIpv4 (some fun i =>
      (pingFinish 10 (pingPutip 10 (le32 [10, 0, 2, 15]) ⟨fun _ => 0, 0⟩)).out (0 + i)) true =
      some (le32 [10, 0, 2, 15]) :=
  ipv4_text_round_trip.2 (le32 [10, 0, 2, 15]) 10 ⟨fun _ => 0, 0⟩ (by decide)

end CatOs.Net
