import FaultLane.CrashIngest
import FaultLane.Fallible

set_option autoImplicit false

/-!
# The client address behind trusted proxies

`source_ip` of the crash ingest and its copy in the public demo. A request carries the lines of
`x-forwarded-for` in the order in which they arrived; the header map answers with the first.
-/
namespace FaultLane.SourceAddress
open Fallible RustText CrashIngest

/-! ## Addresses -/

inductive IpAddr where
  | v4 (bits : BitVec 32)
  | v6 (bits : BitVec 128)
  deriving DecidableEq, Repr

def toDigit (radix : Nat) (c : Char) : Option Nat :=
  let n := c.toNat
  let digit :=
    if isAsciiDigit c then some (n - 0x30)
    else if 0x41 ≤ n ∧ n ≤ 0x5A then some (n - 0x41 + 10)
    else if 0x61 ≤ n ∧ n ≤ 0x7A then some (n - 0x61 + 10)
    else none
  digit.filter (· < radix)

def readNumber (radix maxDigits bound : Nat) (allowZeroPrefix : Bool) (s : Text) :
    Option (Nat × Text) :=
  let digits := s.takeWhile fun c => (toDigit radix c).isSome
  let value := (digits.filterMap (toDigit radix)).foldl (fun acc d => acc * radix + d) 0
  if digits.length = 0 ∨ maxDigits < digits.length then none
  else if !allowZeroPrefix ∧ s.head? = some '0' ∧ 1 < digits.length then none
  else if value < bound then some (value, s.drop digits.length)
  else none

/-- The separator stands before every group but the first. -/
def readSeparator {α : Type} (separator : Char) (index : Nat)
    (inner : Text → Option (α × Text)) (s : Text) : Option (α × Text) :=
  if index = 0 then inner s
  else (stripPrefix [separator] s).bind inner

def readIpv4Groups : Nat → Nat → Text → Option (List Nat × Text)
  | 0, _, s => some ([], s)
  | remaining + 1, index, s => do
    let (group, rest) ← readSeparator '.' index (readNumber 10 3 256 false) s
    let (groups, rest) ← readIpv4Groups remaining (index + 1) rest
    return (group :: groups, rest)

def readIpv4Addr (s : Text) : Option (Nat × Text) :=
  (readIpv4Groups 4 0 s).map fun (groups, rest) =>
    (groups.foldl (fun acc octet => acc * 256 + octet) 0, rest)

/-- The groups read, and whether they end in an embedded IPv4 address. -/
def readIpv6Groups : Nat → Nat → Text → List Nat × Bool × Text
  | 0, _, s => ([], false, s)
  | remaining + 1, index, s =>
    match if remaining = 0 then none else readSeparator ':' index readIpv4Addr s with
    | some (address, rest) => ([address / 65536, address % 65536], true, rest)
    | none =>
      match readSeparator ':' index (readNumber 16 4 65536 true) s with
      | some (group, rest) =>
        let (groups, embedded, rest) := readIpv6Groups remaining (index + 1) rest
        (group :: groups, embedded, rest)
      | none => ([], false, s)

def readIpv6Addr (s : Text) : Option (Nat × Text) :=
  let number := fun groups : List Nat => groups.foldl (fun acc group => acc * 65536 + group) 0
  let (head, embedded, rest) := readIpv6Groups 8 0 s
  if head.length = 8 then some (number head, rest)
  else if embedded then none
  else
    (stripPrefix [':', ':'] rest).map fun rest =>
      let (tail, _, rest) := readIpv6Groups (8 - (head.length + 1)) 0 rest
      (number (head ++ List.replicate (8 - head.length - tail.length) 0 ++ tail), rest)

def readIpAddr (s : Text) : Option (IpAddr × Text) :=
  match readIpv4Addr s with
  | some (address, rest) => some (.v4 (BitVec.ofNat 32 address), rest)
  | none => (readIpv6Addr s).map fun (address, rest) => (.v6 (BitVec.ofNat 128 address), rest)

/-- `str::parse::<IpAddr>`: an address, and nothing after it. -/
def IpAddr.parse (s : Text) : Option IpAddr :=
  (readIpAddr s).bind fun (address, rest) => if rest.isEmpty then some address else none

/-! ## The last entry of a chain that a test accepts -/

def rightmost {α : Type} (accepts : α → Bool) (chain : List α) : Option α :=
  chain.reverse.find? accepts

section
variable {α : Type} {accepts : α → Bool}

theorem rightmost_append (front back : List α) :
    rightmost accepts (front ++ back) = (rightmost accepts back).or (rightmost accepts front) := by
  unfold rightmost
  rw [List.reverse_append, List.find?_append]

theorem rightmost_singleton (a : α) :
    rightmost accepts [a] = if accepts a then some a else none := by
  unfold rightmost
  rw [List.reverse_singleton, List.find?_singleton]

theorem rightmost_eq_none {chain : List α} :
    rightmost accepts chain = none ↔ ∀ a ∈ chain, accepts a = false := by
  unfold rightmost
  simp only [List.find?_eq_none, List.mem_reverse, Bool.not_eq_true]

theorem rightmost_of_suffix {front tail : List α} {a : α} (ha : accepts a = true)
    (htail : ∀ b ∈ tail, accepts b = false) :
    rightmost accepts (front ++ a :: tail) = some a := by
  have hlast : rightmost accepts (a :: tail) = some a := by
    rw [← List.singleton_append, rightmost_append, rightmost_eq_none.mpr htail,
      rightmost_singleton, if_pos ha, Option.none_or]
  rw [rightmost_append, hlast, Option.some_or]

end

/-! ## `source_ip` -/

inductive PublicDemoError where
  | invalidRequest
  | notFound
  | rateLimited (limit : Nat)
  | unavailable
  | internal
  deriving DecidableEq, Repr

section
variable {HeaderValue IpNet ε : Type} (toStr : HeaderValue → Option Text)
  (contains : IpNet → IpAddr → Bool)

def isTrusted (trustedProxies : List IpNet) (address : IpAddr) : Bool :=
  trustedProxies.any fun network => contains network address

def lastUntrusted (trustedProxies : List IpNet) (chain : List IpAddr) : Option IpAddr :=
  rightmost (fun address => !isTrusted contains trustedProxies address) chain

/-- The entries of a line, when each of them is an address. -/
def lineAddresses (forwarded : Text) : Option (List IpAddr) :=
  ((forwarded.splitOn ',').map trim).mapM IpAddr.parse

def sourceIpOr (invalidRequest : ε) (peer : IpAddr) (headers : List HeaderValue)
    (trustedProxies : List IpNet) : Except ε IpAddr :=
  if !isTrusted contains trustedProxies peer then .ok peer
  else do
    let forwarded ← okOr (headers.head?.bind toStr) invalidRequest
    let chain ← okOr (lineAddresses forwarded) invalidRequest
    refuse (chain = [] ∨ 16 < chain.length) invalidRequest
    okOr (lastUntrusted contains trustedProxies (chain ++ [peer])) invalidRequest

namespace CrashIngest

def sourceIp (peer : IpAddr) (headers : List HeaderValue) (trustedProxies : List IpNet) :
    Except IngestError IpAddr :=
  sourceIpOr toStr contains .invalidRequest peer headers trustedProxies

end CrashIngest

namespace PublicDemo

def sourceIp (peer : IpAddr) (headers : List HeaderValue) (trustedProxies : List IpNet) :
    Except PublicDemoError IpAddr :=
  sourceIpOr toStr contains .invalidRequest peer headers trustedProxies

end PublicDemo

/-! ## The chain of a request -/

/-- The addresses of all lines in order, when every line is made of addresses. -/
def forwardedChain (headers : List HeaderValue) : Option (List IpAddr) :=
  (headers.mapM fun value => (toStr value).bind lineAddresses).map List.flatten

/-- What the last hop outside the trusted networks is, over all lines and the peer. -/
def clientAddress (trustedProxies : List IpNet) (chain : List IpAddr) (peer : IpAddr) :
    Option IpAddr :=
  lastUntrusted contains trustedProxies (chain ++ [peer])

/-- The addresses that the first line holds, and those of the lines after it. -/
def firstAddresses (headers : List HeaderValue) : List IpAddr :=
  ((headers.head?.bind toStr).bind lineAddresses).getD []

def laterAddresses (headers : List HeaderValue) : List IpAddr :=
  (forwardedChain toStr headers.tail).getD []

/-- The peer speaks for itself, the lines after the first hold trusted addresses only, or their
last untrusted address is that of the first line. -/
def FirstLineDecides (trustedProxies : List IpNet) (peer : IpAddr)
    (headers : List HeaderValue) : Prop :=
  isTrusted contains trustedProxies peer = false ∨
    (∀ address ∈ laterAddresses toStr headers,
      isTrusted contains trustedProxies address = true) ∨
    lastUntrusted contains trustedProxies (laterAddresses toStr headers) =
      lastUntrusted contains trustedProxies (firstAddresses toStr headers)

instance (trustedProxies : List IpNet) (peer : IpAddr) (headers : List HeaderValue) :
    Decidable (FirstLineDecides toStr contains trustedProxies peer headers) :=
  inferInstanceAs (Decidable (_ ∨ _ ∨ _))

/-! ## What a request answers -/

section
variable {toStr contains} {trustedProxies : List IpNet} {peer : IpAddr}
  {headers : List HeaderValue} {chain : List IpAddr}

theorem lastUntrusted_append (front back : List IpAddr) :
    lastUntrusted contains trustedProxies (front ++ back) =
      (lastUntrusted contains trustedProxies back).or
        (lastUntrusted contains trustedProxies front) :=
  rightmost_append front back

theorem lastUntrusted_trusted (h : isTrusted contains trustedProxies peer = true) :
    lastUntrusted contains trustedProxies [peer] = none := by
  unfold lastUntrusted
  rw [rightmost_singleton, h, Bool.not_true, if_neg Bool.false_ne_true]

theorem lastUntrusted_untrusted (h : isTrusted contains trustedProxies peer = false) :
    lastUntrusted contains trustedProxies [peer] = some peer := by
  unfold lastUntrusted
  rw [rightmost_singleton, h, Bool.not_false, if_pos rfl]

theorem lastUntrusted_eq_none :
    lastUntrusted contains trustedProxies chain = none ↔
      ∀ address ∈ chain, isTrusted contains trustedProxies address = true := by
  unfold lastUntrusted
  rw [rightmost_eq_none]
  simp only [Bool.not_eq_false']

theorem lineAddresses_ne_nil {forwarded : Text} (h : lineAddresses forwarded = some chain) :
    chain ≠ [] := by
  unfold lineAddresses at h
  obtain ⟨entry, entries, hentries⟩ := List.exists_cons_of_ne_nil
    (List.splitOn_ne_nil ',' forwarded)
  rw [hentries, List.map_cons, List.mapM_cons] at h
  simp only [Option.bind_eq_bind, Option.bind_eq_some_iff, Option.pure_def,
    Option.some.injEq] at h
  obtain ⟨address, -, addresses, -, hchain⟩ := h
  rw [← hchain]
  exact List.cons_ne_nil _ _

theorem forwardedChain_nil : forwardedChain toStr [] = some [] := rfl

theorem forwardedChain_cons {value : HeaderValue}
    (h : forwardedChain toStr (value :: headers) = some chain) :
    ∃ forwarded first later, toStr value = some forwarded ∧
      lineAddresses forwarded = some first ∧ forwardedChain toStr headers = some later ∧
      chain = first ++ later := by
  unfold forwardedChain at h
  rw [List.mapM_cons] at h
  simp only [Option.map_eq_some_iff, Option.bind_eq_bind, Option.bind_eq_some_iff,
    Option.pure_def, Option.some.injEq] at h
  obtain ⟨lines, ⟨first, ⟨forwarded, hvalue, hfirst⟩, later, hlater, hlines⟩, hchain⟩ := h
  refine ⟨forwarded, first, later.flatten, hvalue, hfirst, ?_, ?_⟩
  · unfold forwardedChain
    rw [hlater, Option.map_some]
  · rw [← hchain, ← hlines, List.flatten_cons]

theorem sourceIpOr_untrusted {invalidRequest : ε}
    (h : isTrusted contains trustedProxies peer = false) (headers : List HeaderValue) :
    sourceIpOr toStr contains invalidRequest peer headers trustedProxies = .ok peer := by
  unfold sourceIpOr
  rw [h]
  rfl

/-- Behind a trusted peer the first line alone is read. -/
theorem sourceIpOr_trusted {invalidRequest : ε}
    (hpeer : isTrusted contains trustedProxies peer = true)
    (h : forwardedChain toStr headers = some chain) (hlen : chain.length ≤ 16) :
    sourceIpOr toStr contains invalidRequest peer headers trustedProxies =
      okOr (lastUntrusted contains trustedProxies (firstAddresses toStr headers))
        invalidRequest := by
  unfold sourceIpOr
  rw [hpeer]
  cases headers with
  | nil => rfl
  | cons value rest =>
    obtain ⟨forwarded, first, later, hvalue, hfirst, -, hchain⟩ := forwardedChain_cons h
    have hcount : ¬ (first = [] ∨ 16 < first.length) := by
      rw [hchain, List.length_append] at hlen
      have hne := lineAddresses_ne_nil hfirst
      rintro (hnil | hmany)
      · exact hne hnil
      · omega
    have hhead : firstAddresses toStr (value :: rest) = first := by
      unfold firstAddresses
      rw [List.head?_cons, Option.bind_some, hvalue, Option.bind_some, hfirst, Option.getD_some]
    rw [hhead, List.head?_cons, Option.bind_some, hvalue]
    simp only [Bool.not_true, Bool.false_eq_true, if_false, okOr_some, ok_bind, hfirst,
      refuse_of_not hcount]
    rw [lastUntrusted_append, lastUntrusted_trusted hpeer, Option.none_or]

theorem clientAddress_untrusted (h : isTrusted contains trustedProxies peer = false) :
    clientAddress contains trustedProxies chain peer = some peer := by
  unfold clientAddress
  rw [lastUntrusted_append, lastUntrusted_untrusted h, Option.some_or]

theorem clientAddress_trusted (hpeer : isTrusted contains trustedProxies peer = true)
    (h : forwardedChain toStr headers = some chain) :
    clientAddress contains trustedProxies chain peer =
      (lastUntrusted contains trustedProxies (laterAddresses toStr headers)).or
        (lastUntrusted contains trustedProxies (firstAddresses toStr headers)) := by
  unfold clientAddress
  rw [lastUntrusted_append, lastUntrusted_trusted hpeer, Option.none_or]
  cases headers with
  | nil =>
    rw [forwardedChain_nil] at h
    cases h
    rfl
  | cons value rest =>
    obtain ⟨forwarded, first, later, hvalue, hfirst, hlater, hchain⟩ := forwardedChain_cons h
    have hhead : firstAddresses toStr (value :: rest) = first := by
      unfold firstAddresses
      rw [List.head?_cons, Option.bind_some, hvalue, Option.bind_some, hfirst, Option.getD_some]
    have htail : laterAddresses toStr (value :: rest) = later := by
      unfold laterAddresses
      rw [List.tail_cons, hlater, Option.getD_some]
    rw [hhead, htail, hchain, lastUntrusted_append]

theorem okOr_inj {invalidRequest : ε} {o o' : Option IpAddr} :
    okOr o invalidRequest = okOr o' invalidRequest ↔ o = o' := by
  cases o <;> cases o' <;> simp [okOr]

/-- The answer is the client address exactly when the first line decides. -/
theorem sourceIpOr_exact_iff {invalidRequest : ε} (h : forwardedChain toStr headers = some chain)
    (hlen : chain.length ≤ 16) :
    sourceIpOr toStr contains invalidRequest peer headers trustedProxies =
        okOr (clientAddress contains trustedProxies chain peer) invalidRequest ↔
      FirstLineDecides toStr contains trustedProxies peer headers := by
  unfold FirstLineDecides
  cases hpeer : isTrusted contains trustedProxies peer with
  | false =>
    rw [sourceIpOr_untrusted hpeer, clientAddress_untrusted hpeer, okOr_some]
    exact ⟨fun _ => .inl rfl, fun _ => rfl⟩
  | true =>
    rw [sourceIpOr_trusted hpeer h hlen, clientAddress_trusted hpeer h, okOr_inj]
    rw [← lastUntrusted_eq_none]
    cases lastUntrusted contains trustedProxies (laterAddresses toStr headers) with
    | none => simp only [Option.none_or, true_or, or_true]
    | some a =>
      simp only [Option.some_or, reduceCtorEq, false_or, Bool.true_eq_false]
      exact eq_comm

end

/-! ## Forged lines -/

section
variable (trustedProxies : List IpNet) (peer : IpAddr)

/-- Both copies answer with the last untrusted address. -/
def Answers (headers : List HeaderValue) (chain : List IpAddr) : Prop :=
  CrashIngest.sourceIp toStr contains peer headers trustedProxies =
      okOr (clientAddress contains trustedProxies chain peer) .invalidRequest ∧
    PublicDemo.sourceIp toStr contains peer headers trustedProxies =
      okOr (clientAddress contains trustedProxies chain peer) .invalidRequest

/-- The chains differ to the left of the last untrusted address alone. -/
def SameHops (chain widened : List IpAddr) : Prop :=
  ∃ front front' address tail, chain ++ [peer] = front ++ address :: tail ∧
    widened ++ [peer] = front' ++ address :: tail ∧
    isTrusted contains trustedProxies address = false ∧
    ∀ hop ∈ tail, isTrusted contains trustedProxies hop = true

/-- Two requests through one peer, the second perhaps with more to the left. -/
structure Unforgeable (headers widened : List HeaderValue) (chain chain' : List IpAddr) :
    Prop where
  answers : Answers toStr contains trustedProxies peer headers chain
  answersWidened : Answers toStr contains trustedProxies peer widened chain'
  unchanged : SameHops contains trustedProxies peer chain chain' →
    CrashIngest.sourceIp toStr contains peer widened trustedProxies =
        CrashIngest.sourceIp toStr contains peer headers trustedProxies ∧
      PublicDemo.sourceIp toStr contains peer widened trustedProxies =
        PublicDemo.sourceIp toStr contains peer headers trustedProxies
  direct : isTrusted contains trustedProxies peer = false → ∀ lines : List HeaderValue,
    CrashIngest.sourceIp toStr contains peer lines trustedProxies = .ok peer ∧
      PublicDemo.sourceIp toStr contains peer lines trustedProxies = .ok peer

end

section
variable {toStr contains} {trustedProxies : List IpNet} {peer : IpAddr}

theorem answers_iff {headers : List HeaderValue} {chain : List IpAddr}
    (h : forwardedChain toStr headers = some chain) (hlen : chain.length ≤ 16) :
    Answers toStr contains trustedProxies peer headers chain ↔
      FirstLineDecides toStr contains trustedProxies peer headers := by
  unfold Answers CrashIngest.sourceIp PublicDemo.sourceIp
  rw [sourceIpOr_exact_iff h hlen, sourceIpOr_exact_iff h hlen, and_self]

theorem SameHops.clientAddress_eq {chain widened : List IpAddr}
    (h : SameHops contains trustedProxies peer chain widened) :
    clientAddress contains trustedProxies widened peer =
      clientAddress contains trustedProxies chain peer := by
  obtain ⟨front, front', address, tail, hchain, hwidened, haddress, htail⟩ := h
  unfold clientAddress
  have hhops : ∀ hop ∈ tail, (!isTrusted contains trustedProxies hop) = false := by
    intro hop hhop
    rw [htail hop hhop, Bool.not_true]
  have hlast : (!isTrusted contains trustedProxies address) = true := by
    rw [haddress, Bool.not_false]
  have hbefore : lastUntrusted contains trustedProxies (chain ++ [peer]) = some address := by
    rw [hchain]
    exact rightmost_of_suffix hlast hhops
  rw [hbefore, hwidened]
  exact rightmost_of_suffix hlast hhops

theorem unforgeable_iff (trustedProxies : List IpNet) (peer : IpAddr)
    (headers widened : List HeaderValue) (chain chain' : List IpAddr)
    (h : forwardedChain toStr headers = some chain) (hlen : chain.length ≤ 16)
    (h' : forwardedChain toStr widened = some chain') (hlen' : chain'.length ≤ 16) :
    Unforgeable toStr contains trustedProxies peer headers widened chain chain' ↔
      FirstLineDecides toStr contains trustedProxies peer headers ∧
        FirstLineDecides toStr contains trustedProxies peer widened := by
  rw [← answers_iff h hlen, ← answers_iff h' hlen']
  constructor
  · intro hu
    exact ⟨hu.answers, hu.answersWidened⟩
  · rintro ⟨ha, ha'⟩
    refine ⟨ha, ha', ?_, ?_⟩
    · intro hsame
      rw [ha.1, ha.2, ha'.1, ha'.2, hsame.clientAddress_eq]
      exact ⟨rfl, rfl⟩
    · intro hdirect lines
      exact ⟨sourceIpOr_untrusted hdirect lines, sourceIpOr_untrusted hdirect lines⟩

end
end

/-! ## A proxy that adds a line of its own -/

/-- `HeaderValue::to_str`, on the bytes of a line. -/
def visibleAscii (value : List UInt8) : Option Text :=
  if value.all fun b => b = 9 ∨ (32 ≤ b ∧ b < 127) then
    some (value.map fun b => Char.ofNat b.toNat)
  else none

structure Network where
  address : IpAddr
  prefixLength : Nat

/-- The leading bits of an address in its own family. -/
def Network.contains (network : Network) (address : IpAddr) : Bool :=
  match network.address, address with
  | .v4 a, .v4 b => a >>> (32 - network.prefixLength) = b >>> (32 - network.prefixLength)
  | .v6 a, .v6 b => a >>> (128 - network.prefixLength) = b >>> (128 - network.prefixLength)
  | _, _ => false

def ipv4 (a b c d : Nat) : IpAddr := .v4 (BitVec.ofNat 32 (((a * 256 + b) * 256 + c) * 256 + d))

def line (text : String) : List UInt8 := text.toUTF8.toList

def loopback : List Network := [⟨ipv4 127 0 0 0, 8⟩]

example : IpAddr.parse "::ffff:192.0.2.1".toList = some (.v6 0xffffc0000201) := by decide

theorem not_unforgeable_second_line : ¬ ∀ (trustedProxies : List Network) (peer : IpAddr)
    (headers widened : List (List UInt8)) (chain chain' : List IpAddr),
    forwardedChain visibleAscii headers = some chain → chain.length ≤ 16 →
    forwardedChain visibleAscii widened = some chain' → chain'.length ≤ 16 →
    Unforgeable visibleAscii Network.contains trustedProxies peer headers widened chain chain' := by
  intro h
  have hforged := (h loopback (ipv4 127 0 0 1) [line "198.51.100.8"]
    [line "203.0.113.7", line "198.51.100.8"] [ipv4 198 51 100 8]
    [ipv4 203 0 113 7, ipv4 198 51 100 8] (by decide +kernel) (by decide)
    (by decide +kernel) (by decide)).answersWidened.1
  revert hforged
  decide +kernel

/-- A proxy that extends the list of the first line. -/
theorem unforgeable_one_line :
    Unforgeable visibleAscii Network.contains loopback (ipv4 127 0 0 1) [line "198.51.100.8"]
      [line "203.0.113.7, 198.51.100.8"] [ipv4 198 51 100 8]
      [ipv4 203 0 113 7, ipv4 198 51 100 8] :=
  (unforgeable_iff loopback (ipv4 127 0 0 1) _ _ _ _ (by decide +kernel) (by decide)
    (by decide +kernel) (by decide)).mpr (by decide +kernel)

end FaultLane.SourceAddress
