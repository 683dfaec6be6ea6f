/-
The command line: numbers, addresses, and the options that take them.

A string is the bytes before its NUL.
-/

import Msgsrvd.Lib.Decimal
import Msgsrvd.Server.Metrics

namespace Msgsrvd

open Bytestring

/-! ### Numbers and addresses -/

/-- Decimal only. -/
def parseU64 (s : Bytes) : Option Nat :=
  if s = [] then none else Decimal.readFrom (2 ^ 64) 0 s

/-- The digits of one octet: their value, how many they are, and what follows them. -/
def ipOctet : Nat → Nat → Bytes → Option (Nat × Nat × Bytes)
  | v, digits, [] => some (v, digits, [])
  | v, digits, c :: rest =>
      if Decimal.isDigit c = true then
        if v * 10 + Decimal.digitOf c > 255 then none
        else ipOctet (v * 10 + Decimal.digitOf c) (digits + 1) rest
      else some (v, digits, c :: rest)

/-- So many octets still to come; `.` stands between them. -/
def parseIpFrom : Nat → Nat → Bytes → Option (Nat × Bytes)
  | 0, ip, s => some (ip, s)
  | octets + 1, ip, s =>
      match ipOctet 0 0 s with
      | none => none
      | some (v, digits, rest) =>
          if digits = 0 then none
          else
            let ip := (ip <<< 8 ||| v) % 2 ^ 32
            if octets = 0 then some (ip, rest)
            else
              match rest with
              | [] => none
              | c :: rest => if c ≠ 46 then none else parseIpFrom octets ip rest

/-- The address, and what comes after it. -/
def parseIp (s : Bytes) : Option (Nat × Bytes) := parseIpFrom 4 0 s

def bswap16 (v : Nat) : Nat := (v >>> 8 ||| v <<< 8) % 2 ^ 16

def bswap32 (v : Nat) : Nat :=
  (v >>> 24 &&& 0x000000FF) ||| (v >>> 8 &&& 0x0000FF00) ||| (v <<< 8 &&& 0x00FF0000) |||
    (v <<< 24 &&& 0xFF000000)

def AF_INET : Nat := 2

/-- Port and address in network byte order; `sin_zero` is zero. -/
structure SockaddrIn where
  sinFamily : Nat
  sinPort : Nat
  sinAddr : Nat
  deriving DecidableEq, Repr

def sockaddrIn (ip port : Nat) : SockaddrIn := ⟨AF_INET, bswap16 port, bswap32 ip⟩

/-- `A.B.C.D:PORT` -/
def parseAddr (s : Bytes) : Option SockaddrIn :=
  match parseIp s with
  | none => none
  | some (_, []) => none
  | some (ip, c :: rest) =>
      if c ≠ 58 then none
      else
        match parseU64 rest with
        | none => none
        | some port => if port = 0 ∨ port > 65535 then none else some (sockaddrIn ip port)

/-- In memory the octets stand in the order in which they are written. -/
example : le 4 (bswap32 0x7F000001) = [127, 0, 0, 1] ∧ le 2 (bswap16 7400) = [28, 232] := by decide

/-! ### Options -/

inductive Flag where
  | selfcheck
  | inspect
  | dir
  | port
  | bind
  | leader
  | retainSegments
  | replicas
  | metricsPort
  | segmentSize
  deriving DecidableEq, Repr

def Flag.text : Flag → String
  | .selfcheck => "--selfcheck"
  | .inspect => "--inspect"
  | .dir => "--dir"
  | .port => "--port"
  | .bind => "--bind"
  | .leader => "--leader"
  | .retainSegments => "--retain-segments"
  | .replicas => "--replicas"
  | .metricsPort => "--metrics-port"
  | .segmentSize => "--segment-size"

def Flag.all : List Flag :=
  [.selfcheck, .inspect, .dir, .port, .bind, .leader, .retainSegments, .replicas, .metricsPort,
    .segmentSize]

/-- `str_eq` against one flag after another. -/
def flagOf (arg : Bytes) : Option Flag := Flag.all.find? (fun flag => ascii flag.text = arg)

def Flag.takesValue : Flag → Bool
  | .selfcheck | .inspect => false
  | _ => true

def DEFAULT_PORT : Nat := 7400
def DEFAULT_SEG_SIZE : Nat := 256 * 1024 * 1024

structure MainArgs where
  dir : Option Bytes := none
  leader : Option Bytes := none
  bindText : Bytes := ascii "127.0.0.1"
  bindIp : Nat := 0x7F000001
  port : Nat := DEFAULT_PORT
  segSize : Nat := DEFAULT_SEG_SIZE
  retain : Nat := 0
  replicas : Nat := 0
  metricsPort : Nat := 0
  selfcheck : Bool := false
  inspect : Bool := false

/-- What is printed before the exit, and whether the usage comes after it. -/
structure ArgError where
  text : Bytes
  usage : Bool

/-- A number between two bounds, and what is said of any other. -/
structure NumberOption where
  flag : Flag
  low : Nat
  high : Nat
  refusal : String
  get : MainArgs → Nat
  put : Nat → MainArgs → MainArgs

def NumberOption.read (option : NumberOption) (value : Bytes) : Option Nat :=
  match parseU64 value with
  | none => none
  | some v => if v < option.low ∨ v > option.high then none else some v

def NumberOption.set (option : NumberOption) (a : MainArgs) (value : Bytes) :
    Except ArgError MainArgs :=
  match option.read value with
  | none => .error ⟨ascii option.refusal, false⟩
  | some v => .ok (option.put v a)

def portOption : NumberOption where
  flag := .port
  low := 0
  high := 65535
  refusal := "msgsrvd: --port must be 0 to 65535\n"
  get := MainArgs.port
  put v a := { a with port := v }

def retainOption : NumberOption where
  flag := .retainSegments
  low := 0
  high := WAL_MAX_SEGMENTS
  refusal := "msgsrvd: --retain-segments must be 0 to 1024\n"
  get := MainArgs.retain
  put v a := { a with retain := v }

def replicasOption : NumberOption where
  flag := .replicas
  low := 0
  high := LOOP_MAX_REPLICAS
  refusal := "msgsrvd: --replicas must be 0 to 2\n"
  get := MainArgs.replicas
  put v a := { a with replicas := v }

def metricsPortOption : NumberOption where
  flag := .metricsPort
  low := 0
  high := 65535
  refusal := "msgsrvd: --metrics-port must be 0 to 65535\n"
  get := MainArgs.metricsPort
  put v a := { a with metricsPort := v }

/-- There is no upper bound. -/
def segmentSizeOption : NumberOption where
  flag := .segmentSize
  low := WAL_REC_MAX_SIZE
  high := 2 ^ 64 - 1
  refusal := "msgsrvd: --segment-size must hold one whole record\n"
  get := MainArgs.segSize
  put v a := { a with segSize := v }

def numberOptions : List NumberOption :=
  [portOption, retainOption, replicasOption, metricsPortOption, segmentSizeOption]

/-- Whatever follows the address is not looked at. -/
def setBind (a : MainArgs) (value : Bytes) : Except ArgError MainArgs :=
  match parseIp value with
  | none => .error ⟨ascii "msgsrvd: --bind wants an address like 192.0.2.13\n", false⟩
  | some (ip, _) => .ok { a with bindText := value, bindIp := ip }

def MainArgs.set (a : MainArgs) (value : Bytes) : Flag → Except ArgError MainArgs
  | .dir => .ok { a with dir := some value }
  | .port => portOption.set a value
  | .bind => setBind a value
  | .leader => .ok { a with leader := some value }
  | .retainSegments => retainOption.set a value
  | .replicas => replicasOption.set a value
  | .metricsPort => metricsPortOption.set a value
  | .segmentSize => segmentSizeOption.set a value
  | .selfcheck => .ok { a with selfcheck := true }
  | .inspect => .ok { a with inspect := true }

def needsValue (arg : Bytes) : ArgError :=
  ⟨ascii "msgsrvd: " ++ (arg ++ ascii " needs a value\n\n"), true⟩

def unrecognised (arg : Bytes) : ArgError :=
  ⟨ascii "msgsrvd: unrecognised argument: " ++ (arg ++ ascii "\n\n"), true⟩

/-- The loop over the arguments after the first. -/
def mainArgs : List Bytes → MainArgs → Except ArgError MainArgs
  | [], a => .ok a
  | [arg], a =>
      match flagOf arg with
      | none => .error (unrecognised arg)
      | some flag => if flag.takesValue = true then .error (needsValue arg) else a.set [] flag
  | arg :: value :: rest, a =>
      match flagOf arg with
      | none => .error (unrecognised arg)
      | some flag =>
          if flag.takesValue = true then
            match a.set value flag with
            | .error e => .error e
            | .ok a => mainArgs rest a
          else
            match a.set [] flag with
            | .error e => .error e
            | .ok a => mainArgs (value :: rest) a

/-- The cast to `int64_t`. -/
def i64 (v : Nat) : Int :=
  if v % 2 ^ 64 < 2 ^ 63 then (v % 2 ^ 64 : Nat) else (v % 2 ^ 64 : Nat) - 2 ^ 64

/-- What `main` goes on to do. -/
inductive MainRun where
  | selfcheck
  | usage
  | inspect (dir : Bytes) (segSize : Int)
  | server (dir : Bytes) (bindIp : Nat) (bindText : Bytes) (port : Nat) (segSize : Int)
      (leader : Option Bytes) (retain replicas metricsPort : Nat)

def mainRun (argv : List Bytes) : Except ArgError MainRun :=
  match mainArgs argv {} with
  | .error e => .error e
  | .ok a =>
      if a.selfcheck = true then .ok .selfcheck
      else
        match a.dir with
        | none => .ok .usage
        | some dir =>
            if a.inspect = true then .ok (.inspect dir (i64 a.segSize))
            else
              .ok (.server dir a.bindIp a.bindText (a.port % 2 ^ 16) (i64 a.segSize) a.leader
                a.retain a.replicas (a.metricsPort % 2 ^ 16))

/-- The leader's address, as `run_server` takes it from the text. -/
def leaderAddr : Option Bytes → Except ArgError (Option SockaddrIn)
  | none => .ok none
  | some leader =>
      match parseAddr leader with
      | none => .error ⟨ascii "msgsrvd: --leader wants an address like 192.0.2.13:7400\n", false⟩
      | some address => .ok (some address)

/-! ### Exact numbers -/

/-- The string is a number below 2^64, and which. -/
def Numeral (s : Bytes) (v : Nat) : Prop :=
  s ≠ [] ∧ Decimal.Digits s ∧ Decimal.value s = v ∧ v < 2 ^ 64

theorem parseU64_some (s : Bytes) (v : Nat) :
    parseU64 s = some v ↔ s ≠ [] ∧ Decimal.readFrom (2 ^ 64) 0 s = some v := by
  unfold parseU64
  by_cases empty : s = []
  · rw [if_pos empty]
    constructor
    · exact fun none' => nomatch none'
    · exact fun both => absurd empty both.1
  · rw [if_neg empty]
    exact (and_iff_right empty).symm

theorem wraps_some {s : Bytes} (wraps : Decimal.Wraps (2 ^ 64) s) : s ≠ [] := by
  rintro rfl
  exact absurd wraps.2.1 (by decide)

/-- A string whose word wraps is read as what is left of it. -/
theorem parseU64_wraps {s : Bytes} (wraps : Decimal.Wraps (2 ^ 64) s) :
    parseU64 s = some (Decimal.value s % 2 ^ 64) :=
  (parseU64_some s _).mpr ⟨wraps_some wraps,
    (Decimal.readFrom_iff s (by decide) _).mpr ⟨wraps.1, wraps.2.2, rfl⟩⟩

theorem parseU64_exact {s : Bytes} (plain : ¬ Decimal.Wraps (2 ^ 64) s) (v : Nat) :
    parseU64 s = some v ↔ Numeral s v := by
  rw [parseU64_some, (Decimal.readFrom_exact (by decide) s).mpr plain v]
  rfl

theorem Numeral.not_wraps {s : Bytes} {v : Nat} (numeral : Numeral s v) :
    ¬ Decimal.Wraps (2 ^ 64) s := by
  rintro ⟨_digits, high, _admitted⟩
  obtain ⟨_some, _are, value, low⟩ := numeral
  omega

theorem NumberOption.read_some (option : NumberOption) (s : Bytes) (v : Nat) :
    option.read s = some v ↔ parseU64 s = some v ∧ option.low ≤ v ∧ v ≤ option.high := by
  unfold NumberOption.read
  cases parseU64 s with
  | none =>
      constructor
      · exact fun none' => nomatch none'
      · exact fun both => nomatch both.1
  | some number =>
      simp only
      by_cases out : number < option.low ∨ number > option.high
      · rw [if_pos out]
        constructor
        · exact fun none' => nomatch none'
        · rintro ⟨same, low, high⟩
          cases same
          omega
      · rw [if_neg out]
        constructor
        · intro same
          cases same
          exact ⟨rfl, by omega, by omega⟩
        · exact fun both => both.1

/-- An option's number is exact unless the word wraps to one that is in range. -/
theorem NumberOption.read_exact (option : NumberOption) (s : Bytes) :
    (∀ v, option.read s = some v ↔ Numeral s v ∧ option.low ≤ v ∧ v ≤ option.high) ↔
      ¬ (Decimal.Wraps (2 ^ 64) s ∧ option.low ≤ Decimal.value s % 2 ^ 64 ∧
        Decimal.value s % 2 ^ 64 ≤ option.high) := by
  constructor
  · rintro exact' ⟨wraps, low, high⟩
    have read := (option.read_some s _).mpr ⟨parseU64_wraps wraps, low, high⟩
    exact ((exact' _).mp read).1.not_wraps wraps
  · intro plain v
    rw [option.read_some]
    by_cases wraps : Decimal.Wraps (2 ^ 64) s
    · rw [parseU64_wraps wraps]
      constructor
      · rintro ⟨same, low, high⟩
        cases same
        exact absurd ⟨wraps, low, high⟩ plain
      · exact fun both => absurd wraps both.1.not_wraps
    · rw [parseU64_exact wraps]

/-! ### The options of a run -/

/-- The value a flag is given last, as the loop pairs them. -/
def given (flag : Flag) : List Bytes → Option Bytes
  | [] => none
  | [_] => none
  | arg :: value :: rest =>
      match flagOf arg with
      | none => none
      | some other =>
          if other.takesValue = true then
            (given flag rest).or (if other = flag then some value else none)
          else given flag (value :: rest)

variable {option : NumberOption} {a b : MainArgs}

theorem NumberOption.set_ok {value : Bytes} (set : option.set a value = .ok b) :
    ∃ v, option.read value = some v ∧ b = option.put v a := by
  unfold NumberOption.set at set
  cases read : option.read value with
  | none =>
      rw [read] at set
      cases set
  | some v =>
      rw [read] at set
      exact ⟨v, rfl, (Except.ok.inj set).symm⟩

theorem put_number {other : NumberOption} (known : option ∈ numberOptions)
    (known' : other ∈ numberOptions) (v : Nat) (a : MainArgs) :
    option.get (other.put v a) = if other.flag = option.flag then v else option.get a := by
  simp only [numberOptions, List.mem_cons, List.not_mem_nil, or_false] at known known'
  rcases known with rfl | rfl | rfl | rfl | rfl <;>
    rcases known' with rfl | rfl | rfl | rfl | rfl <;> rfl

/-- Every flag is a number's, or leaves the numbers alone. -/
theorem set_puts {value : Bytes} {flag : Flag} (set : a.set value flag = .ok b) :
    (∃ other ∈ numberOptions, other.flag = flag ∧ other.set a value = .ok b) ∨
      ∀ option ∈ numberOptions, flag ≠ option.flag ∧ option.get b = option.get a := by
  have beside {flag : Flag} {b : MainArgs} (plain : ∀ option ∈ numberOptions, flag ≠ option.flag)
      (port : b.port = a.port) (retain : b.retain = a.retain) (replicas : b.replicas = a.replicas)
      (metrics : b.metricsPort = a.metricsPort) (size : b.segSize = a.segSize) :
      ∀ option ∈ numberOptions, flag ≠ option.flag ∧ option.get b = option.get a := by
    intro option known
    refine ⟨plain option known, ?_⟩
    simp only [numberOptions, List.mem_cons, List.not_mem_nil, or_false] at known
    rcases known with rfl | rfl | rfl | rfl | rfl
    · exact port
    · exact retain
    · exact replicas
    · exact metrics
    · exact size
  cases flag with
  | port => exact Or.inl ⟨portOption, by simp [numberOptions], rfl, set⟩
  | retainSegments => exact Or.inl ⟨retainOption, by simp [numberOptions], rfl, set⟩
  | replicas => exact Or.inl ⟨replicasOption, by simp [numberOptions], rfl, set⟩
  | metricsPort => exact Or.inl ⟨metricsPortOption, by simp [numberOptions], rfl, set⟩
  | segmentSize => exact Or.inl ⟨segmentSizeOption, by simp [numberOptions], rfl, set⟩
  | bind =>
      unfold MainArgs.set setBind at set
      cases parsed : parseIp value with
      | none =>
          rw [parsed] at set
          cases set
      | some address =>
          rw [parsed] at set
          cases set
          exact Or.inr (beside (by simp [numberOptions, portOption, retainOption, replicasOption,
            metricsPortOption, segmentSizeOption]) rfl rfl rfl rfl rfl)
  | dir | leader | selfcheck | inspect =>
      cases set
      exact Or.inr (beside (by simp [numberOptions, portOption, retainOption, replicasOption,
        metricsPortOption, segmentSizeOption]) rfl rfl rfl rfl rfl)

theorem set_number {value : Bytes} {flag : Flag} (set : a.set value flag = .ok b)
    (known : option ∈ numberOptions) :
    (flag = option.flag ∧ option.read value = some (option.get b)) ∨
      flag ≠ option.flag ∧ option.get b = option.get a := by
  rcases set_puts set with ⟨other, known', same, set'⟩ | beside
  · obtain ⟨v, read, puts⟩ := NumberOption.set_ok set'
    have number := put_number known known' v a
    rw [← puts] at number
    by_cases flags : other.flag = option.flag
    · rw [if_pos flags] at number
      have one : other = option := by
        simp only [numberOptions, List.mem_cons, List.not_mem_nil, or_false] at known known'
        rcases known with rfl | rfl | rfl | rfl | rfl <;>
          rcases known' with rfl | rfl | rfl | rfl | rfl <;> first | rfl | cases flags
      rw [number, ← one]
      exact Or.inl ⟨same.symm, read⟩
    · rw [if_neg flags] at number
      exact Or.inr ⟨same ▸ flags, number⟩
  · exact Or.inr (beside option known)

/-- Each number of a run is read from the value its flag was given last. -/
theorem mainArgs_number {argv : List Bytes} (known : option ∈ numberOptions)
    (parsed : mainArgs argv a = .ok b) :
    (given option.flag argv = none ∧ option.get b = option.get a) ∨
      ∃ s, given option.flag argv = some s ∧ option.read s = some (option.get b) := by
  have values : option.flag.takesValue = true := by
    simp only [numberOptions, List.mem_cons, List.not_mem_nil, or_false] at known
    rcases known with rfl | rfl | rfl | rfl | rfl <;> rfl
  induction argv, a using mainArgs.induct with
  | case1 a =>
      cases parsed
      exact Or.inl ⟨rfl, rfl⟩
  | case2 arg a none' =>
      rw [mainArgs, none'] at parsed
      cases parsed
  | case3 arg a flag found takes =>
      rw [mainArgs, found] at parsed
      simp only at parsed
      rw [if_pos takes] at parsed
      cases parsed
  | case4 arg a flag found takes =>
      rw [mainArgs, found] at parsed
      simp only at parsed
      rw [if_neg takes] at parsed
      rcases set_number parsed known with ⟨same, _read⟩ | ⟨_other, kept⟩
      · exact absurd (same ▸ values) takes
      · exact Or.inl ⟨rfl, kept⟩
  | case5 arg value rest a none' =>
      rw [mainArgs, none'] at parsed
      cases parsed
  | case6 arg value rest a flag found takes e failed =>
      rw [mainArgs, found] at parsed
      simp only at parsed
      rw [if_pos takes, failed] at parsed
      cases parsed
  | case7 arg value rest a flag found takes a' set ih =>
      rw [mainArgs, found] at parsed
      simp only at parsed
      rw [if_pos takes, set] at parsed
      have shape : given option.flag (arg :: value :: rest) =
          (given option.flag rest).or (if flag = option.flag then some value else none) := by
        rw [given, found]
        simp only
        rw [if_pos takes]
      rw [shape]
      rcases ih parsed with ⟨none', kept⟩ | ⟨s, later, read⟩
      · rw [none', Option.none_or, kept]
        rcases set_number set known with ⟨same, read⟩ | ⟨other, kept'⟩
        · rw [if_pos same]
          exact Or.inr ⟨value, rfl, read⟩
        · rw [if_neg other]
          exact Or.inl ⟨rfl, kept'⟩
      · rw [later]
        exact Or.inr ⟨s, rfl, read⟩
  | case8 arg value rest a flag found takes e failed =>
      rw [mainArgs, found] at parsed
      simp only at parsed
      rw [if_neg takes, failed] at parsed
      cases parsed
  | case9 arg value rest a flag found takes a' set ih =>
      rw [mainArgs, found] at parsed
      simp only at parsed
      rw [if_neg takes, set] at parsed
      have shape : given option.flag (arg :: value :: rest) =
          given option.flag (value :: rest) := by
        rw [given, found]
        simp only
        rw [if_neg takes]
      rw [shape]
      rcases set_number set known with ⟨same, _read⟩ | ⟨_other, kept⟩
      · exact absurd (same ▸ values) takes
      · rw [← kept]
        exact ih parsed

theorem i64_size (v : Nat) (fits : v < 2 ^ 64) : i64 v = v ∨ i64 v < WAL_REC_HEADER_SIZE := by
  unfold i64 WAL_REC_HEADER_SIZE
  rw [Nat.mod_eq_of_lt fits]
  split
  · exact Or.inl rfl
  · exact Or.inr (by omega)

/-- **Numbers on the command line are exact or refused, except those whose word wraps.** -/
theorem numbers_exact (s : Bytes) :
    ((∀ v, parseU64 s = some v ↔ Numeral s v) ↔ ¬ Decimal.Wraps (2 ^ 64) s) ∧
    (∀ option ∈ numberOptions,
      (∀ v, option.read s = some v ↔ Numeral s v ∧ option.low ≤ v ∧ v ≤ option.high) ↔
        ¬ (Decimal.Wraps (2 ^ 64) s ∧ option.low ≤ Decimal.value s % 2 ^ 64 ∧
          Decimal.value s % 2 ^ 64 ≤ option.high)) ∧
    ∀ argv a, mainArgs argv {} = .ok a → ∀ option ∈ numberOptions,
      (∀ s, given option.flag argv = some s → ¬ Decimal.Wraps (2 ^ 64) s) →
        (given option.flag argv = none ∧ option.get a = option.get {}) ∨
          ∃ s, given option.flag argv = some s ∧ Numeral s (option.get a) := by
  refine ⟨⟨fun exact' wraps => ?_, parseU64_exact⟩, fun option _known => option.read_exact s,
    fun argv a parsed option known plain => ?_⟩
  · exact ((exact' _).mp (parseU64_wraps wraps)).not_wraps wraps
  · rcases mainArgs_number known parsed with ⟨none', kept⟩ | ⟨s, found, read⟩
    · exact Or.inl ⟨none', kept⟩
    · have number := ((option.read_some s _).mp read).1
      exact Or.inr ⟨s, found, (parseU64_exact (plain s found) _).mp number⟩

/-- `--replicas 18446744073709551617` asks for one replica. -/
theorem number_replaced : ¬ ∀ s v, replicasOption.read s = some v ↔
    Numeral s v ∧ replicasOption.low ≤ v ∧ v ≤ replicasOption.high := by
  intro exact'
  have read : replicasOption.read (ascii "18446744073709551617") = some 1 ∧
      Decimal.value (ascii "18446744073709551617") ≠ 1 := by decide +kernel
  obtain ⟨numeral, _range⟩ := (exact' _ _).mp read.1
  exact read.2 numeral.2.2.1

end Msgsrvd
