import Madoka.Lib.Text

/-!
# Config

Node identifiers, virtual addresses and endpoints (`core/config.cpp`).
SHA-256 and `inet_pton` belong to OpenSSL and the C library; everything that
uses them takes them as an `External`.
-/

namespace Madoka

open Octets

abbrev NodeId := ByteArr 32
abbrev IPv6 := ByteArr 16
abbrev PublicKey := ByteArr 32

/-- The functions the sources take from OpenSSL and the C library:
`EVP_Q_digest("SHA256")` of a 32-byte key, and `inet_pton` for the two
address families. -/
structure External where
  sha256 : PublicKey → NodeId
  inetPton4 : Bytes → Bool
  inetPton6 : Bytes → Option IPv6

/-- What a C function sees of a `std::string` passed as `c_str()`. -/
def cStr (s : Bytes) : Bytes :=
  s.takeWhile (· ≠ 0)

def isDigit (c : UInt8) : Bool :=
  '0'.toUInt8 ≤ c ∧ c ≤ '9'.toUInt8

def decimal (digits : Bytes) : Nat :=
  digits.foldl (fun v c => v * 10 + (c.toNat - '0'.toNat)) 0

/-- `std::from_chars` into an `unsigned int` that has to use up the text. -/
def parsePort (value : Bytes) : Option UInt16 :=
  if value ≠ [] ∧ value.all isDigit ∧ decimal value ≤ 65535 then
    some (decimal value).toUInt16
  else none

theorem isDigit_of_mem_toDecimal {n : Nat} {c : UInt8} (h : c ∈ toDecimal n) :
    isDigit c = true := by
  obtain ⟨hlow, hhigh⟩ := toDecimal_digits h
  exact decide_eq_true ⟨hlow, hhigh⟩

/-- `std::string_view::rfind` of one character. -/
def rfind (c : UInt8) : Bytes → Option Nat
  | [] => none
  | x :: xs =>
      match rfind c xs with
      | some i => some (i + 1)
      | none => if x = c then some 0 else none

def parseEndpoint (x : External) (value : Bytes) : Option (Bytes × UInt16) :=
  if value = [] then none
  else if value.head? = some '['.toUInt8 then
    match value.idxOf? ']'.toUInt8 with
    | none => none
    | some closeBracket =>
        if closeBracket ≤ 1 then none
        else if value[closeBracket + 1]? ≠ some ':'.toUInt8 then none
        else
          let parsedAddress := (value.take closeBracket).drop 1
          if (x.inetPton6 (cStr parsedAddress)).isNone then none
          else (parsePort (value.drop (closeBracket + 2))).map fun port =>
            (parsedAddress, port)
  else
    match rfind ':'.toUInt8 value with
    | none => none
    | some lastColon =>
        if lastColon = 0 then none
        else
          let parsedAddress := value.take lastColon
          if !x.inetPton4 (cStr parsedAddress) then none
          else (parsePort (value.drop (lastColon + 1))).map fun port =>
            (parsedAddress, port)

/-- The test the callers of `parse_endpoint` make: it parses, and the port
is not zero. -/
def usableEndpoint (x : External) (endpoint : Bytes) : Bool :=
  match parseEndpoint x endpoint with
  | none => false
  | some (_, port) => port ≠ 0

/-- The network's prefix followed by the first half of the identifier. -/
def virtualAddress (network : IPv6) (id : NodeId) : IPv6 :=
  ⟨network.val.take 8 ++ id.val.take 8, by
    simp [network.property, id.property]⟩

def hexDigit (n : Nat) : UInt8 :=
  (ascii "0123456789abcdef").getD n 0

/-- Lowercase hexadecimal, two digits a byte. -/
def hex (bytes : Bytes) : Bytes :=
  bytes.flatMap fun byte => [hexDigit (byte.toNat / 16), hexDigit (byte.toNat % 16)]

private theorem hexDigit_inj {m n : Nat} (hm : m < 16) (hn : n < 16)
    (h : hexDigit m = hexDigit n) : m = n := by
  have key : ∀ i j : Fin 16, hexDigit i = hexDigit j → i = j := by decide
  exact congrArg Fin.val (key ⟨m, hm⟩ ⟨n, hn⟩ h)

theorem hex_injective : Function.Injective hex := by
  intro as bs h
  induction as generalizing bs with
  | nil =>
      cases bs with
      | nil => rfl
      | cons b bs => simp [hex] at h
  | cons a as ih =>
      cases bs with
      | nil => simp [hex] at h
      | cons b bs =>
          simp only [hex, List.flatMap_cons, List.cons_append, List.nil_append,
            List.cons.injEq] at h
          obtain ⟨h1, h2, h3⟩ := h
          have ha := a.toNat_lt
          have hb := b.toNat_lt
          have hq := hexDigit_inj (by omega) (by omega) h1
          have hr := hexDigit_inj (by omega) (by omega) h2
          have hab : a = b := UInt8.toNat_inj.mp (by omega)
          rw [hab, ih h3]

/-- The value of a hexadecimal digit, as `std::from_chars` of base 16 reads it. -/
def hexValue (c : UInt8) : Nat :=
  ((ascii "0123456789abcdef").idxOf? c).getD 0

def hexPairs : Bytes → Bytes
  | high :: low :: rest => (hexValue high * 16 + hexValue low).toUInt8 :: hexPairs rest
  | _ => []

def parseNodeId (value : Bytes) : Option NodeId :=
  if value.length ≠ 64 ∨ !value.all fun c => (ascii "0123456789abcdef").contains c then none
  else some (front 32 (hexPairs value))

theorem hexValue_hexDigit (i : Fin 16) : hexValue (hexDigit i) = i := by
  revert i
  decide

theorem hexPairs_hex (bytes : Bytes) : hexPairs (hex bytes) = bytes := by
  induction bytes with
  | nil => rfl
  | cons b rest ih =>
      have hhigh := hexValue_hexDigit ⟨b.toNat / 16, by have := b.toNat_lt; omega⟩
      have hlow := hexValue_hexDigit ⟨b.toNat % 16, Nat.mod_lt _ (by omega)⟩
      simp only at hhigh hlow
      show (hexValue (hexDigit (b.toNat / 16)) * 16 + hexValue (hexDigit (b.toNat % 16))).toUInt8
        :: hexPairs (hex rest) = b :: rest
      rw [hhigh, hlow, ih, Nat.div_add_mod' b.toNat 16]
      simp [Nat.toUInt8]

theorem hex_length (bytes : Bytes) : (hex bytes).length = 2 * bytes.length := by
  induction bytes with
  | nil => rfl
  | cons b rest ih =>
      show (hex rest).length + 1 + 1 = 2 * (rest.length + 1)
      omega

theorem hexDigit_mem (i : Fin 16) : hexDigit i ∈ ascii "0123456789abcdef" := by
  revert i
  decide

theorem mem_hex {bytes : Bytes} {c : UInt8} (h : c ∈ hex bytes) :
    c ∈ ascii "0123456789abcdef" := by
  obtain ⟨b, -, hc⟩ := List.mem_flatMap.mp h
  simp only [List.mem_cons, List.not_mem_nil, or_false] at hc
  rcases hc with rfl | rfl
  · exact hexDigit_mem ⟨b.toNat / 16, by have := b.toNat_lt; omega⟩
  · exact hexDigit_mem ⟨b.toNat % 16, Nat.mod_lt _ (by omega)⟩

theorem parseNodeId_hex (id : NodeId) : parseNodeId (hex id.val) = some id := by
  have hlength : (hex id.val).length = 64 := by rw [hex_length, id.property]
  have hdigits : (hex id.val).all (fun c => (ascii "0123456789abcdef").contains c) = true := by
    rw [List.all_eq_true]
    intro c hc
    exact List.contains_iff_mem.mpr (mem_hex hc)
  have hvalue : front 32 id.val = id := by
    have happend := front_append id []
    rwa [List.append_nil] at happend
  unfold parseNodeId
  rw [if_neg (by rw [hlength, hdigits]; decide), hexPairs_hex, hvalue]

/-- The reserved subnet address has an all-zero host part. -/
def validateIdentityAddress (localId : NodeId) : Except String Unit :=
  if (localId.val.take 8).all (· = 0) then
    .error "Local identity derives the reserved subnet address"
  else .ok ()

end Madoka
