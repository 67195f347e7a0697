import Mathlib.Data.List.Basic

/-!
# Addresses and their text

`address` (`address.cc`): an IP address and a port, printed by `operator<<` in one of two formats and
read by the constructor that takes a string, which splits at the first colon and resolves the two
parts. Of the results of the resolver it takes the first IPv4 endpoint and skips all others, so that the
text of an IPv6 address is never read.

The resolver and the text of an IPv6 address are Boost's. What is assumed of them is `ResolvesLiteral`,
`ResolvesNoOther` and `Unbracketed`; the text of an IPv4 address is its four bytes in decimal.
-/

namespace MsgpackRpc

namespace Net

/-- `boost::asio::ip::address_v4`, by its bytes. -/
structure AddressV4 where
  b0 : UInt8
  b1 : UInt8
  b2 : UInt8
  b3 : UInt8
  deriving DecidableEq, Repr

/-- `boost::asio::ip::address_v6`, with its scope. -/
structure AddressV6 where
  bytes : BitVec 128
  scope : UInt32 := 0
  deriving DecidableEq, Repr

/-- `boost::asio::ip::address`. -/
inductive IpAddress where
  | v4 (a : AddressV4)
  | v6 (a : AddressV6)
  deriving DecidableEq, Repr

/-- `address` (`address.h:26`). `operator==` (`address.cc:94`) compares both fields. -/
structure Address where
  ip : IpAddress
  port : UInt16
  deriving DecidableEq, Repr

/-- `is_v4` of an IP address. -/
def IpAddress.isV4 : IpAddress → Bool
  | .v4 _ => true
  | .v6 _ => false

/-- `address::is_v4` (`address.cc:79`). -/
def Address.isV4 (a : Address) : Bool := a.ip.isV4

/-! ## Printing -/

/-- A number as `operator<<` prints it. -/
def decimal (n : Nat) : List Char := Nat.toDigits 10 n

/-- `address_v4::to_string`. -/
def AddressV4.toText (a : AddressV4) : List Char :=
  decimal a.b0.toNat ++ '.' :: decimal a.b1.toNat ++ '.' :: decimal a.b2.toNat ++
    '.' :: decimal a.b3.toNat

section
variable (v6Text : AddressV6 → List Char)

/-- `ip::address::to_string`. -/
def IpAddress.toText : IpAddress → List Char
  | .v4 a => a.toText
  | .v6 a => v6Text a

/-- `operator<<` (`address.cc:106`). -/
def Address.toText (a : Address) : List Char :=
  if a.isV4 then a.ip.toText v6Text ++ ':' :: decimal a.port.toNat
  else '[' :: a.ip.toText v6Text ++ ']' :: ':' :: decimal a.port.toNat

end

/-! ## Reading -/

/-- `tcp::resolver`: the endpoints that a host and a service resolve to, or an exception. -/
abbrev Resolver := List Char → List Char → Option (List (IpAddress × UInt16))

/-- The exceptions of the constructors. -/
inductive Error where
  | invalidAddress (addr : List Char)
  | cantResolve (host : List Char)
  | resolver
  deriving DecidableEq, Repr

/-- The loop of `address::resolve`. -/
def resolveLoop (host : List Char) : List (IpAddress × UInt16) → Except Error Address
  | [] => .error (.cantResolve host)
  | ep :: it => if ep.1.isV4 then .ok ⟨ep.1, ep.2⟩ else resolveLoop host it

section
variable (resolver : Resolver)

/-- `address::resolve` (`address.cc:57`). -/
def resolve (host service : List Char) : Except Error Address :=
  match resolver host service with
  | none => .error .resolver
  | some it => resolveLoop host it

/-- `address::address(const std::string&)` (`address.cc:43`). -/
def Address.ofString (addr : List Char) : Except Error Address :=
  match addr.findIdx? (· == ':') with
  | none => .error (.invalidAddress addr)
  | some colonPos => resolve resolver (addr.take colonPos) (addr.drop (colonPos + 1))

end

/-! ## What is assumed of Boost -/

/-- A string that is the text of an IP address. -/
def Literal (v6Text : AddressV6 → List Char) (host : List Char) : Prop :=
  ∃ ip : IpAddress, host = ip.toText v6Text

/-- A string that may be the name of a host. -/
def HostName (host : List Char) : Prop :=
  ∀ c ∈ host, c.isAlphanum ∨ c = '-' ∨ c = '.' ∨ c = '_'

/-- The text of an address and the decimal port resolve to exactly that endpoint. -/
def ResolvesLiteral (resolver : Resolver) (v6Text : AddressV6 → List Char) (a : Address) : Prop :=
  ∃ it, resolver (a.ip.toText v6Text) (decimal a.port.toNat) = some it ∧ it ≠ [] ∧
    ∀ ep ∈ it, ep = (a.ip, a.port)

/-- What is neither a literal nor a host name does not resolve. -/
def ResolvesNoOther (resolver : Resolver) (v6Text : AddressV6 → List Char) : Prop :=
  ∀ host service, ¬ Literal v6Text host → ¬ HostName host → resolver host service = none

/-- The text of an IPv6 address has no bracket. -/
def Unbracketed (v6Text : AddressV6 → List Char) : Prop := ∀ a, '[' ∉ v6Text a

section
variable {resolver : Resolver} {v6Text : AddressV6 → List Char} {a : Address}

/-! ## Splitting -/

/-- A text is split at its first colon. -/
theorem ofString_split {host : List Char} (h : ':' ∉ host) (service : List Char) :
    Address.ofString resolver (host ++ ':' :: service) = resolve resolver host service := by
  have hnone : host.findIdx? (· == ':') = none := by
    rw [List.findIdx?_eq_none_iff]
    exact fun c hc => beq_eq_false_iff_ne.2 fun he => h (he ▸ hc)
  have hidx : (host ++ ':' :: service).findIdx? (· == ':') = some host.length := by
    rw [List.findIdx?_append, hnone, Option.none_or, List.findIdx?_cons,
      if_pos (beq_self_eq_true ':'), Option.map_some, Nat.zero_add]
  have hdrop : (host ++ ':' :: service).drop (host.length + 1) = service := by
    rw [← List.drop_drop, List.drop_left]
    rfl
  rw [Address.ofString, hidx]
  dsimp only
  rw [List.take_left, hdrop]

/-- A text that starts with a bracket is cut after it. -/
theorem ofString_bracket (resolver : Resolver) {rest : List Char} (h : ':' ∈ rest) :
    ∃ host service, Address.ofString resolver ('[' :: rest) =
      resolve resolver ('[' :: host) service := by
  have hsome : (rest.findIdx? (· == ':')).isSome = true := by
    rw [List.findIdx?_isSome, List.any_eq_true]
    exact ⟨':', h, rfl⟩
  obtain ⟨i, hi⟩ := Option.isSome_iff_exists.1 hsome
  have hidx : ('[' :: rest).findIdx? (· == ':') = some (i + 1) := by
    rw [List.findIdx?_cons, if_neg (by decide), hi]
    rfl
  refine ⟨rest.take i, rest.drop (i + 1), ?_⟩
  rw [Address.ofString, hidx]
  rfl

/-! ## Characters -/

theorem notMem_decimal {c : Char} (h : c.isDigit = false) (n : Nat) : c ∉ decimal n := by
  intro hc
  rw [Nat.isDigit_of_mem_toDigits (by decide) (by decide) hc] at h
  cases h

theorem notMem_toText {c : Char} (h : c.isDigit = false) (hdot : c ≠ '.') (a : AddressV4) :
    c ∉ a.toText := by
  simp [AddressV4.toText, notMem_decimal h, hdot]

/-! ## Resolving -/

/-- Only IPv4 addresses are taken. -/
theorem resolveLoop_isV4 {host : List Char} {it : List (IpAddress × UInt16)}
    (h : resolveLoop host it = .ok a) : a.isV4 = true := by
  induction it with
  | nil => cases h
  | cons ep it ih =>
    rw [resolveLoop] at h
    split at h
    · next hv4 =>
      cases h
      exact hv4
    · exact ih h

theorem ofString_isV4 {text : List Char} (h : Address.ofString resolver text = .ok a) :
    a.isV4 = true := by
  unfold Address.ofString at h
  split at h
  · cases h
  · unfold resolve at h
    split at h
    · cases h
    · exact resolveLoop_isV4 h

/-- The text of an IPv4 address is read back. -/
theorem ofString_toText_v4 (hlit : ResolvesLiteral resolver v6Text a) (h : a.isV4 = true) :
    Address.ofString resolver (a.toText v6Text) = .ok a := by
  obtain ⟨it, hit, hne, hall⟩ := hlit
  obtain ⟨ip, port⟩ := a
  cases ip with
  | v6 ip => cases h
  | v4 ip =>
    have hcolon : ':' ∉ (IpAddress.v4 ip).toText v6Text := notMem_toText rfl (by decide) ip
    rw [Address.toText, if_pos h, ofString_split hcolon, resolve, hit]
    cases it with
    | nil => exact absurd rfl hne
    | cons ep it =>
      rw [hall ep (.head _)]
      rfl

/-- What starts with a bracket is neither a literal nor a host name. -/
theorem resolver_bracket (hother : ResolvesNoOther resolver v6Text) (hv6 : Unbracketed v6Text)
    (host service : List Char) : resolver ('[' :: host) service = none := by
  refine hother _ _ ?_ ?_
  · rintro ⟨ip, hip⟩
    have hmem : '[' ∈ ip.toText v6Text := hip ▸ List.mem_cons_self
    cases ip with
    | v4 a => exact notMem_toText rfl (by decide) a hmem
    | v6 a => exact hv6 a hmem
  · intro hname
    exact absurd (hname '[' List.mem_cons_self) (by decide)

/-- The text of an IPv6 address is cut inside its brackets, and what is before the cut does not
resolve. -/
theorem ofString_toText_v6 (hother : ResolvesNoOther resolver v6Text) (hv6 : Unbracketed v6Text)
    (h : a.isV4 = false) : Address.ofString resolver (a.toText v6Text) = .error .resolver := by
  have htext : a.toText v6Text =
      '[' :: (a.ip.toText v6Text ++ ']' :: ':' :: decimal a.port.toNat) := by
    rw [Address.toText, h]
    rfl
  have hcolon : ':' ∈ a.ip.toText v6Text ++ ']' :: ':' :: decimal a.port.toNat := by simp
  obtain ⟨host, service, hcut⟩ := ofString_bracket resolver hcolon
  rw [htext, hcut, resolve, resolver_bracket hother hv6]

end

/-- **Address text round-trips for IPv4 and for nothing else.** The text that is printed for an IPv4
address is read back as that address, the text printed for an IPv6 address is refused, and no text
whatever is read as an IPv6 address. -/
theorem address_text (resolver : Resolver) (v6Text : AddressV6 → List Char) (a : Address)
    (hlit : ResolvesLiteral resolver v6Text a) (hother : ResolvesNoOther resolver v6Text)
    (hv6 : Unbracketed v6Text) :
    (a.isV4 = true → Address.ofString resolver (a.toText v6Text) = .ok a) ∧
      (a.isV4 = false → Address.ofString resolver (a.toText v6Text) = .error .resolver) ∧
      ∀ text b, Address.ofString resolver text = .ok b → b.isV4 = true :=
  ⟨ofString_toText_v4 hlit, ofString_toText_v6 hother hv6, fun _ _ => ofString_isV4⟩

/-- A resolver that knows one endpoint by its literal. -/
def knows (host service : List Char) (ep : IpAddress × UInt16) : Resolver := fun host' service' =>
  if host' = host ∧ service' = service then some [ep] else none

theorem knows_resolvesNoOther {v6Text : AddressV6 → List Char} (ip : IpAddress)
    (service : List Char) (ep : IpAddress × UInt16) :
    ResolvesNoOther (knows (ip.toText v6Text) service ep) v6Text := by
  intro host service' hlit _
  rw [knows, if_neg]
  rintro ⟨rfl, -⟩
  exact hlit ⟨ip, rfl⟩

/-- 127.0.0.1:80. -/
theorem address_text_localhost :
    let a : Address := ⟨.v4 ⟨127, 0, 0, 1⟩, 80⟩
    a.toText (fun _ => "::1".toList) = "127.0.0.1:80".toList ∧
      Address.ofString (knows "127.0.0.1".toList "80".toList (a.ip, a.port)) "127.0.0.1:80".toList =
        .ok a := by
  intro a
  have htext : a.toText (fun _ => "::1".toList) = "127.0.0.1:80".toList := by decide
  refine ⟨htext, ?_⟩
  rw [← htext]
  refine (address_text _ _ a ⟨[(a.ip, a.port)], by decide, by simp, by simp⟩
    (knows_resolvesNoOther a.ip _ _) ?_).1 rfl
  intro b
  show '[' ∉ "::1".toList
  decide

/-- [::1]:80, with a resolver that knows it: the constructor resolves "[" instead. -/
theorem address_text_loopback :
    let a : Address := ⟨.v6 ⟨1, 0⟩, 80⟩
    let resolver := knows "::1".toList "80".toList (a.ip, a.port)
    let v6Text : AddressV6 → List Char := fun _ => "::1".toList
    ResolvesLiteral resolver v6Text a ∧ ResolvesNoOther resolver v6Text ∧ Unbracketed v6Text ∧
      a.toText v6Text = "[::1]:80".toList ∧
      Address.ofString resolver "[::1]:80".toList = .error .resolver ∧
      ¬ ∃ b, Address.ofString resolver (a.toText v6Text) = .ok b ∧ b = a := by
  intro a resolver v6Text
  have htext : a.toText v6Text = "[::1]:80".toList := by decide
  have herr : Address.ofString resolver "[::1]:80".toList = .error .resolver := by decide
  refine ⟨⟨[(a.ip, a.port)], by decide, by simp, by simp⟩, knows_resolvesNoOther a.ip _ _, ?_, htext,
    herr, ?_⟩
  · intro b
    show '[' ∉ "::1".toList
    decide
  · rintro ⟨b, hb, -⟩
    rw [htext, herr] at hb
    cases hb

end Net

end MsgpackRpc
