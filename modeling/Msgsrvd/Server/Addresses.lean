/-
Which addresses the command line takes, and as what.

The scanner of an address stops where the last octet ends; what may follow is up to its
callers.
-/

import Msgsrvd.Server.Args

namespace Msgsrvd

open Bytestring

/-! ### Exact addresses -/

/-- The string does not begin with a digit. -/
def Stops (s : Bytes) : Prop := ∀ c ∈ s.head?, Decimal.isDigit c = false

def Octet (s : Bytes) (v : Nat) : Prop :=
  s ≠ [] ∧ Decimal.Digits s ∧ Decimal.value s = v ∧ v ≤ 255

/-- Four octets with single dots between them, and the address they are. -/
def Address (s : Bytes) (ip : Nat) : Prop :=
  ∃ a b c d va vb vc vd, Octet a va ∧ Octet b vb ∧ Octet c vc ∧ Octet d vd ∧
    s = a ++ 46 :: (b ++ 46 :: (c ++ 46 :: d)) ∧ ip = ((va * 256 + vb) * 256 + vc) * 256 + vd

theorem ipOctet_iff (s : Bytes) {v : Nat} (low : v ≤ 255) (digits w count : Nat) (rest : Bytes) :
    ipOctet v digits s = some (w, count, rest) ↔ ∃ front, s = front ++ rest ∧
      Decimal.Digits front ∧ Stops rest ∧ Decimal.valueFrom v front = w ∧ w ≤ 255 ∧
        count = digits + front.length := by
  induction s generalizing v digits with
  | nil =>
      rw [ipOctet, Option.some.injEq, Prod.mk.injEq, Prod.mk.injEq]
      constructor
      · rintro ⟨same, counted, empty⟩
        refine ⟨[], empty, fun c inside => absurd inside List.not_mem_nil, ?_, same, ?_,
          counted.symm⟩
        · rw [← empty]
          exact fun c inside => nomatch inside
        · rw [← same]
          exact low
      · rintro ⟨front, split, _digits, _stops, value, _low, counted⟩
        obtain ⟨none', empty⟩ := List.append_eq_nil_iff.mp split.symm
        rw [none'] at value counted
        exact ⟨value, counted.symm, empty.symm⟩
  | cons c tail ih =>
      rw [ipOctet]
      by_cases is : Decimal.isDigit c = true
      · rw [if_pos is]
        have begins {front : Bytes} (split : c :: tail = front ++ rest) (stops : Stops rest) :
            ∃ others, front = c :: others ∧ tail = others ++ rest := by
          cases front with
          | nil =>
              rw [List.nil_append] at split
              rw [stops c (by rw [← split]; rfl)] at is
              cases is
          | cons head others =>
              rw [List.cons_append, List.cons.injEq] at split
              exact ⟨others, by rw [split.1], split.2⟩
        by_cases high : v * 10 + Decimal.digitOf c > 255
        · rw [if_pos high]
          constructor
          · exact fun none' => nomatch none'
          · rintro ⟨front, split, _digits, stops, value, low', _counted⟩
            obtain ⟨others, shape, _after⟩ := begins split stops
            rw [shape, Decimal.valueFrom_cons] at value
            have grows := Decimal.valueFrom_le (v * 10 + Decimal.digitOf c) others
            omega
        · rw [if_neg high, ih (by omega)]
          constructor
          · rintro ⟨others, split, are, stops, value, low', counted⟩
            refine ⟨c :: others, by rw [split, List.cons_append],
              Decimal.Digits.cons.mpr ⟨is, are⟩, stops, ?_, low', ?_⟩
            · rw [Decimal.valueFrom_cons, value]
            · rw [List.length_cons, counted]
              omega
          · rintro ⟨front, split, are, stops, value, low', counted⟩
            obtain ⟨others, shape, after⟩ := begins split stops
            rw [shape] at are value counted
            rw [Decimal.valueFrom_cons] at value
            rw [List.length_cons] at counted
            exact ⟨others, after, (Decimal.Digits.cons.mp are).2, stops, value, low', by omega⟩
      · rw [if_neg is, Option.some.injEq, Prod.mk.injEq, Prod.mk.injEq]
        constructor
        · rintro ⟨same, counted, rest'⟩
          refine ⟨[], rest', fun c inside => absurd inside List.not_mem_nil, ?_, same, ?_,
            counted.symm⟩
          · rw [← rest']
            intro head inside
            rw [List.head?_cons, Option.mem_some_iff] at inside
            rw [← inside]
            exact Bool.eq_false_iff.mpr is
          · rw [← same]
            exact low
        · rintro ⟨front, split, are, _stops, value, _low, counted⟩
          cases front with
          | nil => exact ⟨value, counted.symm, split⟩
          | cons head others =>
              rw [List.cons_append, List.cons.injEq] at split
              rw [split.1] at is
              exact absurd (Decimal.Digits.cons.mp are).1 is

/-- What one octet adds to an address. -/
theorem octet_added {ip v : Nat} (room : ip < 2 ^ 24) (low : v ≤ 255) :
    (ip <<< 8 ||| v) % 2 ^ 32 = ip * 256 + v := by
  rw [← Nat.shiftLeft_add_eq_or_of_lt (show v < 2 ^ 8 by omega), Nat.shiftLeft_eq]
  omega

theorem octets_joined {va vb vc vd : Nat} (la : va ≤ 255) (lb : vb ≤ 255) (lc : vc ≤ 255)
    (ld : vd ≤ 255) :
    (((((((0 <<< 8 ||| va) % 2 ^ 32) <<< 8 ||| vb) % 2 ^ 32) <<< 8 ||| vc) % 2 ^ 32) <<< 8 ||| vd) %
      2 ^ 32 = ((va * 256 + vb) * 256 + vc) * 256 + vd := by
  rw [octet_added (Nat.pow_pos (by decide)) la, Nat.zero_mul, Nat.zero_add,
    octet_added (by omega) lb, octet_added (by omega) lc, octet_added (by omega) ld]

theorem ipOctet_octet {octet rest : Bytes} {v : Nat} (is : Octet octet v) (stops : Stops rest) :
    ipOctet 0 0 (octet ++ rest) = some (v, octet.length, rest) := by
  obtain ⟨_some, are, value, low⟩ := is
  exact (ipOctet_iff (octet ++ rest) (Nat.zero_le _) 0 v octet.length rest).mpr
    ⟨octet, rfl, are, stops, value, low, (Nat.zero_add _).symm⟩

/-- The last octet takes all the digits there are. -/
theorem parseIpFrom_last (ip : Nat) (s : Bytes) (out : Nat) (rest : Bytes) :
    parseIpFrom 1 ip s = some (out, rest) ↔ ∃ octet v, Octet octet v ∧ s = octet ++ rest ∧
      Stops rest ∧ out = (ip <<< 8 ||| v) % 2 ^ 32 := by
  rw [parseIpFrom]
  cases found : ipOctet 0 0 s with
  | none =>
      constructor
      · exact fun none' => nomatch none'
      · rintro ⟨octet, v, is, split, stops, _out⟩
        rw [split, ipOctet_octet is stops] at found
        cases found
  | some result =>
      obtain ⟨v, digits, rest'⟩ := result
      obtain ⟨front, split, are, stops, value, low, counted⟩ :=
        (ipOctet_iff s (Nat.zero_le _) 0 v digits rest').mp found
      simp only
      constructor
      · intro taken
        by_cases empty : digits = 0
        · rw [if_pos empty] at taken
          cases taken
        · rw [if_neg empty, if_pos trivial, Option.some.injEq, Prod.mk.injEq] at taken
          refine ⟨front, v, ⟨?_, are, value, low⟩, taken.2 ▸ split, taken.2 ▸ stops, taken.1.symm⟩
          rintro rfl
          exact empty counted
      · rintro ⟨octet, v', is, split', stops', out'⟩
        rw [split', ipOctet_octet is stops'] at found
        cases found
        have long := List.length_pos_of_ne_nil is.1
        rw [if_neg (by omega), if_pos trivial, out']

/-- An octet before the last ends at its dot. -/
theorem parseIpFrom_more (octets ip : Nat) (s : Bytes) (out : Nat) (rest : Bytes) :
    parseIpFrom (octets + 2) ip s = some (out, rest) ↔ ∃ octet v tail, Octet octet v ∧
      s = octet ++ 46 :: tail ∧
        parseIpFrom (octets + 1) ((ip <<< 8 ||| v) % 2 ^ 32) tail = some (out, rest) := by
  have dot (tail : Bytes) : Stops (46 :: tail) := by
    intro c inside
    rw [List.head?_cons, Option.mem_some_iff] at inside
    rw [← inside]
    decide
  rw [parseIpFrom]
  cases found : ipOctet 0 0 s with
  | none =>
      constructor
      · exact fun none' => nomatch none'
      · rintro ⟨octet, v, tail, is, split, _later⟩
        rw [split, ipOctet_octet is (dot tail)] at found
        cases found
  | some result =>
      obtain ⟨v, digits, rest'⟩ := result
      obtain ⟨front, split, are, stops, value, low, counted⟩ :=
        (ipOctet_iff s (Nat.zero_le _) 0 v digits rest').mp found
      simp only
      constructor
      · intro taken
        by_cases empty : digits = 0
        · rw [if_pos empty] at taken
          cases taken
        · rw [if_neg empty, if_neg (Nat.succ_ne_zero octets)] at taken
          cases rest' with
          | nil => cases taken
          | cons c tail =>
              simp only at taken
              by_cases other : c ≠ 46
              · rw [if_pos other] at taken
                cases taken
              · rw [if_neg other] at taken
                rw [not_not.mp other] at split
                refine ⟨front, v, tail, ⟨?_, are, value, low⟩, split, taken⟩
                rintro rfl
                exact empty counted
      · rintro ⟨octet, v', tail, is, split', later⟩
        rw [split', ipOctet_octet is (dot tail)] at found
        cases found
        have long := List.length_pos_of_ne_nil is.1
        rw [if_neg (by omega), if_neg (Nat.succ_ne_zero octets)]
        simp only
        rw [if_neg (fun other => other rfl)]
        exact later

/-- `parse_ip` takes the address at the front of a string, unless a digit follows it. -/
theorem parseIp_iff (s : Bytes) (ip : Nat) (rest : Bytes) :
    parseIp s = some (ip, rest) ↔
      ∃ address, s = address ++ rest ∧ Stops rest ∧ Address address ip := by
  unfold parseIp
  constructor
  · intro parsed
    obtain ⟨a, va, s1, first, split1, parsed1⟩ := (parseIpFrom_more 2 0 s ip rest).mp parsed
    obtain ⟨b, vb, s2, second, split2, parsed2⟩ := (parseIpFrom_more 1 _ s1 ip rest).mp parsed1
    obtain ⟨c, vc, s3, third, split3, parsed3⟩ := (parseIpFrom_more 0 _ s2 ip rest).mp parsed2
    obtain ⟨d, vd, fourth, split4, stops, out⟩ := (parseIpFrom_last _ s3 ip rest).mp parsed3
    refine ⟨a ++ 46 :: (b ++ 46 :: (c ++ 46 :: d)), ?_, stops, a, b, c, d, va, vb, vc, vd, first,
      second, third, fourth, rfl, ?_⟩
    · rw [split1, split2, split3, split4]
      simp only [List.append_assoc, List.cons_append]
    · rw [out, octets_joined first.2.2.2 second.2.2.2 third.2.2.2 fourth.2.2.2]
  · rintro ⟨address, split, stops, a, b, c, d, va, vb, vc, vd, first, second, third, fourth, shape,
      ip'⟩
    have whole : s = a ++ 46 :: (b ++ 46 :: (c ++ 46 :: (d ++ rest))) := by
      rw [split, shape]
      simp only [List.append_assoc, List.cons_append]
    refine (parseIpFrom_more 2 0 s ip rest).mpr ⟨a, va, _, first, whole, ?_⟩
    refine (parseIpFrom_more 1 _ _ ip rest).mpr ⟨b, vb, _, second, rfl, ?_⟩
    refine (parseIpFrom_more 0 _ _ ip rest).mpr ⟨c, vc, _, third, rfl, ?_⟩
    refine (parseIpFrom_last _ _ ip rest).mpr ⟨d, vd, fourth, rfl, stops, ?_⟩
    rw [octets_joined first.2.2.2 second.2.2.2 third.2.2.2 fourth.2.2.2, ip']

theorem parseIp_address {s : Bytes} {ip : Nat} (address : Address s ip) :
    parseIp s = some (ip, []) :=
  (parseIp_iff s ip []).mpr
    ⟨s, (List.append_nil s).symm, fun c inside => absurd inside (Option.not_mem_none c), address⟩

/-- An address followed by a byte that is no digit. -/
def Trailed (s : Bytes) : Prop :=
  ∃ address c rest ip, s = address ++ c :: rest ∧ Decimal.isDigit c = false ∧ Address address ip

/-- An address, a colon and a port. -/
def LeaderText (s : Bytes) (ip port : Nat) : Prop :=
  ∃ address digits, s = address ++ 58 :: digits ∧ Address address ip ∧ Numeral digits port ∧
    1 ≤ port ∧ port ≤ 65535

/-- An address, a colon, and digits whose word wraps to a port. -/
def PortWraps (s : Bytes) : Prop :=
  ∃ address digits ip, s = address ++ 58 :: digits ∧ Address address ip ∧
    Decimal.Wraps (2 ^ 64) digits ∧ 1 ≤ Decimal.value digits % 2 ^ 64 ∧
      Decimal.value digits % 2 ^ 64 ≤ 65535

theorem stops_cons {c : UInt8} (other : Decimal.isDigit c = false) (rest : Bytes) :
    Stops (c :: rest) := by
  intro head inside
  rw [List.head?_cons, Option.mem_some_iff] at inside
  rw [← inside]
  exact other

theorem bind_exact (a : MainArgs) (s : Bytes) :
    (∀ ip, setBind a s = .ok { a with bindText := s, bindIp := ip } ↔ Address s ip) ↔
      ¬ Trailed s := by
  have taken (ip : Nat) : setBind a s = .ok { a with bindText := s, bindIp := ip } ↔
      ∃ rest, parseIp s = some (ip, rest) := by
    unfold setBind
    cases parseIp s with
    | none =>
        constructor
        · exact fun none' => nomatch none'
        · rintro ⟨_rest, none'⟩
          cases none'
    | some parsed =>
        obtain ⟨ip', rest⟩ := parsed
        simp only
        constructor
        · intro same
          have ips : ip' = ip := congrArg MainArgs.bindIp (Except.ok.inj same)
          exact ⟨rest, by rw [ips]⟩
        · rintro ⟨_rest, same⟩
          cases same
          rfl
  simp only [taken]
  constructor
  · rintro exact' ⟨address, c, rest, ip, split, other, is⟩
    have parsed := (parseIp_iff s ip _).mpr ⟨address, split, stops_cons other rest, is⟩
    have whole := parseIp_address ((exact' ip).mp ⟨_, parsed⟩)
    rw [parsed] at whole
    cases whole
  · intro plain ip
    constructor
    · rintro ⟨rest, parsed⟩
      obtain ⟨address, split, stops, is⟩ := (parseIp_iff s ip rest).mp parsed
      cases rest with
      | nil =>
          rw [split, List.append_nil]
          exact is
      | cons c rest => exact absurd ⟨address, c, rest, ip, split, stops c rfl, is⟩ plain
    · exact fun address => ⟨[], parseIp_address address⟩

theorem parseAddr_some (s : Bytes) (out : SockaddrIn) :
    parseAddr s = some out ↔ ∃ address digits ip port, s = address ++ 58 :: digits ∧
      Address address ip ∧ parseU64 digits = some port ∧ 1 ≤ port ∧ port ≤ 65535 ∧
        out = sockaddrIn ip port := by
  unfold parseAddr
  constructor
  · intro parsed
    cases found : parseIp s with
    | none =>
        rw [found] at parsed
        cases parsed
    | some result =>
        obtain ⟨ip, rest⟩ := result
        obtain ⟨address, split, _stops, is⟩ := (parseIp_iff s ip rest).mp found
        rw [found] at parsed
        cases rest with
        | nil => cases parsed
        | cons c digits =>
            simp only at parsed
            by_cases other : c ≠ 58
            · rw [if_pos other] at parsed
              cases parsed
            · rw [if_neg other] at parsed
              rw [not_not.mp other] at split
              cases number : parseU64 digits with
              | none =>
                  rw [number] at parsed
                  cases parsed
              | some port =>
                  rw [number] at parsed
                  simp only at parsed
                  by_cases out' : port = 0 ∨ port > 65535
                  · rw [if_pos out'] at parsed
                    cases parsed
                  · rw [if_neg out'] at parsed
                    exact ⟨address, digits, ip, port, split, is, number, by omega, by omega,
                      (Option.some.inj parsed).symm⟩
  · rintro ⟨address, digits, ip, port, split, is, number, low, high, shape⟩
    rw [(parseIp_iff s ip _).mpr ⟨address, split, stops_cons (by decide) digits, is⟩]
    simp only
    rw [if_neg (fun other => other rfl), number]
    simp only
    rw [if_neg (by omega), shape]

/-- The text says which address and port it is. -/
theorem leaderText_unique {s address digits : Bytes} {ip : Nat}
    (split : s = address ++ 58 :: digits) (is : Address address ip)
    {address' digits' : Bytes} {ip' : Nat} (split' : s = address' ++ 58 :: digits')
    (is' : Address address' ip') : ip = ip' ∧ digits = digits' := by
  have one := (parseIp_iff s ip _).mpr ⟨address, split, stops_cons (by decide) digits, is⟩
  have two := (parseIp_iff s ip' _).mpr ⟨address', split', stops_cons (by decide) digits', is'⟩
  rw [one, Option.some.injEq, Prod.mk.injEq, List.cons.injEq] at two
  exact ⟨two.1, two.2.2⟩

theorem leader_exact (s : Bytes) :
    (∀ out, leaderAddr (some s) = .ok (some out) ↔
      ∃ ip port, LeaderText s ip port ∧ out = sockaddrIn ip port) ↔ ¬ PortWraps s := by
  have taken (out : SockaddrIn) : leaderAddr (some s) = .ok (some out) ↔
      parseAddr s = some out := by
    unfold leaderAddr
    simp only
    cases parseAddr s with
    | none =>
        constructor
        · exact fun none' => nomatch none'
        · exact fun none' => nomatch none'
    | some address =>
        constructor
        · intro same
          rw [Option.some.inj (Except.ok.inj same)]
        · intro same
          rw [Option.some.inj same]
  simp only [taken, parseAddr_some]
  constructor
  · rintro exact' ⟨address, digits, ip, split, is, wraps, low, high⟩
    obtain ⟨ip', port, ⟨address', digits', split', is', numeral, _range⟩, _out⟩ :=
      (exact' _).mp ⟨address, digits, ip, _, split, is, parseU64_wraps wraps, low, high, rfl⟩
    obtain ⟨_ips, same⟩ := leaderText_unique split is split' is'
    rw [same] at wraps
    exact numeral.not_wraps wraps
  · intro plain out
    constructor
    · rintro ⟨address, digits, ip, port, split, is, number, low, high, shape⟩
      by_cases wraps : Decimal.Wraps (2 ^ 64) digits
      · rw [parseU64_wraps wraps] at number
        cases number
        exact absurd ⟨address, digits, ip, split, is, wraps, low, high⟩ plain
      · exact ⟨ip, port, ⟨address, digits, split, is, (parseU64_exact wraps port).mp number, low,
          high⟩, shape⟩
    · rintro ⟨ip, port, ⟨address, digits, split, is, numeral, low, high⟩, shape⟩
      exact ⟨address, digits, ip, port, split, is,
        (parseU64_exact numeral.not_wraps port).mpr numeral, low, high, shape⟩

/-- **An address on the command line is exact or refused, unless more follows the one to bind
or the leader's port wraps.** -/
theorem addresses_exact (s : Bytes) :
    (∀ a : MainArgs,
      (∀ ip, setBind a s = .ok { a with bindText := s, bindIp := ip } ↔ Address s ip) ↔
        ¬ Trailed s) ∧
    ((∀ out, leaderAddr (some s) = .ok (some out) ↔
      ∃ ip port, LeaderText s ip port ∧ out = sockaddrIn ip port) ↔ ¬ PortWraps s) :=
  ⟨fun a => bind_exact a s, leader_exact s⟩

/-- `--bind 127.0.0.1x` is taken. -/
theorem bind_trailed : ¬ ∀ (a : MainArgs) (s : Bytes) (ip : Nat),
    setBind a s = .ok { a with bindText := s, bindIp := ip } ↔ Address s ip := by
  intro exact'
  have parsed : parseIp (ascii "127.0.0.1x") = some (0x7F000001, ascii "x") := by decide +kernel
  have taken : setBind {} (ascii "127.0.0.1x") =
      .ok { ({} : MainArgs) with bindText := ascii "127.0.0.1x", bindIp := 0x7F000001 } := by
    unfold setBind
    rw [parsed]
  have whole := parseIp_address ((exact' _ _ _).mp taken)
  rw [parsed] at whole
  exact absurd (congrArg (fun parsed => (parsed.map Prod.snd).getD []) whole) (by decide +kernel)

end Msgsrvd
