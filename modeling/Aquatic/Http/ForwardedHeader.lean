import Aquatic.Common.TrustedEntries
import Aquatic.Common.Utf8
import Aquatic.Http.RequestParsing

/-!
# The forwarded header as a whole

Whatever a client puts in front of a header, the address next to it decides; and several
instances of the header are read like one that has their values behind commas.
-/

namespace Aquatic.Http
open HttpProtocol (withContext)
set_option autoImplicit false

/-- The values of the instances of a header, in order. -/
def valuesOf (headerName : List Char) (headers : List Header) : List (List UInt8) :=
  (headers.filter fun header => eqIgnoreAsciiCase header.name headerName).map Header.value

/-- Values behind each other, with a comma and some spaces in between. -/
def joinValues (spaces : Nat) : List (List UInt8) → List UInt8
  | [] => []
  | [value] => value
  | value :: values => value ++ 0x2c :: (List.replicate spaces 0x20 ++ joinValues spaces values)

/-- The header with all values at once. -/
def joinedHeader (headerName : List Char) (spaces : Nat) (headers : List Header) : Header :=
  ⟨headerName, joinValues spaces (valuesOf headerName headers)⟩

/-- The valid addresses of several values, if all of them are texts. -/
def addressesOf : List (List UInt8) → Option (List IpAddr)
  | [] => some []
  | value :: values => do
    let text ← fromUtf8 value
    let addresses ← addressesOf values
    return forwardedAddresses text ++ addresses

/-- Whose request it is, of the addresses in a header. -/
inductive ClientOf (proxies : TrustedProxies) : List IpAddr → Option IpAddr → Prop where
  | rightmostUntrusted (front : List IpAddr) (ip : IpAddr) (back : List IpAddr)
      (huntrusted : proxies.isTrusted ip = false)
      (htrusted : ∀ other ∈ back, proxies.isTrusted other = true) :
      ClientOf proxies (front ++ ip :: back) (some ip)
  | leftmost (ip : IpAddr) (addresses : List IpAddr)
      (htrusted : ∀ other ∈ ip :: addresses, proxies.isTrusted other = true) :
      ClientOf proxies (ip :: addresses) (some ip)
  | nobody : ClientOf proxies [] none

theorem fromUtf8_cons_space (bytes : List UInt8) :
    fromUtf8 (0x20 :: bytes) = (fromUtf8 bytes).map fun text => ' ' :: text := by
  have h := fromUtf8_append_cons [] bytes (show (0x20 : UInt8).toNat < 0x80 by decide)
  rw [List.nil_append, show fromUtf8 [] = some [] from rfl, Option.bind_some] at h
  exact h

theorem addresses_replicate_append (spaces : Nat) (bytes : List UInt8) :
    (fromUtf8 (List.replicate spaces 0x20 ++ bytes)).map forwardedAddresses =
      (fromUtf8 bytes).map forwardedAddresses := by
  induction spaces with
  | zero => rfl
  | succ spaces ih =>
    rw [List.replicate_succ, List.cons_append, fromUtf8_cons_space, Option.map_map, ← ih]
    apply congrArg (Option.map · _)
    funext text
    exact forwardedAddresses_cons_space text

theorem addresses_joinValues (spaces : Nat) (values : List (List UInt8)) :
    (fromUtf8 (joinValues spaces values)).map forwardedAddresses = addressesOf values := by
  induction values with
  | nil => rfl
  | cons value values ih =>
    cases values with
    | nil =>
      rw [joinValues, addressesOf, addressesOf]
      cases fromUtf8 value with
      | none => rfl
      | some text => exact congrArg some (List.append_nil _).symm
    | cons next values =>
      have hrest := (addresses_replicate_append spaces (joinValues spaces (next :: values))).trans ih
      rw [addressesOf, ← hrest, joinValues,
        fromUtf8_append_cons value _ (show (0x2c : UInt8).toNat < 0x80 by decide)]
      · cases fromUtf8 value with
        | none => rfl
        | some text =>
          cases fromUtf8 (List.replicate spaces 0x20 ++ joinValues spaces (next :: values)) with
          | none => rfl
          | some rest => exact congrArg some (forwardedAddresses_append_comma text rest)
      · intro h
        cases h

theorem eqIgnoreAsciiCase_self (name : List Char) : eqIgnoreAsciiCase name name = true := by
  rw [eqIgnoreAsciiCase, beq_self_eq_true]

theorem valuesOf_cons_of_eq {headerName : List Char} {header : Header}
    (h : eqIgnoreAsciiCase header.name headerName = true) (headers : List Header) :
    valuesOf headerName (header :: headers) = header.value :: valuesOf headerName headers := by
  rw [valuesOf, List.filter_cons, if_pos h, List.map_cons, valuesOf]

theorem valuesOf_cons_of_ne {headerName : List Char} {header : Header}
    (h : ¬ eqIgnoreAsciiCase header.name headerName = true) (headers : List Header) :
    valuesOf headerName (header :: headers) = valuesOf headerName headers := by
  rw [valuesOf, List.filter_cons, if_neg h, valuesOf]

theorem addresses_collectHeaderValues (headerName values : List Char) (headers : List Header) :
    (collectHeaderValues headerName values headers).toOption.map forwardedAddresses =
      (addressesOf (valuesOf headerName headers)).map (forwardedAddresses values ++ ·) := by
  induction headers generalizing values with
  | nil => exact congrArg some (List.append_nil _).symm
  | cons header headers ih =>
    by_cases hname : eqIgnoreAsciiCase header.name headerName = true
    · rw [collectHeaderValues, if_pos hname, valuesOf_cons_of_eq hname, addressesOf]
      cases fromUtf8 header.value with
      | none => rfl
      | some value =>
        have hvalues : forwardedAddresses
            ((if values.isEmpty then values else values ++ ", ".toList) ++ value) =
              forwardedAddresses values ++ forwardedAddresses value := by
          cases values with
          | nil => rw [forwardedAddresses_nil]; rfl
          | cons c values => exact forwardedAddresses_append (c :: values) value
        refine (ih _).trans ?_
        rw [hvalues]
        cases addressesOf (valuesOf headerName headers) with
        | none => rfl
        | some addresses => exact congrArg some (List.append_assoc _ _ _)
    · rw [collectHeaderValues, if_neg hname, valuesOf_cons_of_ne hname]
      exact ih values

section Proxies
variable (headerName : List Char) (headerFormat : ReverseProxyPeerIpHeaderFormat)
variable (proxies : TrustedProxies)

theorem parseForwardedHeader_eq (headers : List Header) :
    (parseForwardedHeader headerName headerFormat proxies headers).toOption =
      (addressesOf (valuesOf headerName headers)).bind proxies.clientAddress := by
  have haddresses := addresses_collectHeaderValues headerName [] headers
  rw [forwardedAddresses_nil] at haddresses
  cases headerFormat
  unfold parseForwardedHeader
  cases hvalues : collectHeaderValues headerName [] headers with
  | error err =>
    rw [hvalues] at haddresses
    cases hall : addressesOf (valuesOf headerName headers) with
    | none => rfl
    | some addresses => rw [hall] at haddresses; cases haddresses
  | ok values =>
    rw [hvalues] at haddresses
    cases hall : addressesOf (valuesOf headerName headers) with
    | none => rw [hall] at haddresses; cases haddresses
    | some addresses =>
      rw [hall] at haddresses
      obtain rfl : forwardedAddresses values = addresses := Option.some.inj haddresses
      cases values with
      | nil => rw [forwardedAddresses_nil]; rfl
      | cons c values =>
        rw [Option.bind_some, ← proxies.lastForwardedForIp_eq]
        cases hip : lastForwardedForIp (c :: values) proxies with
        | none => simp [hip, bind, Except.bind, withContext, Except.toOption]
        | some ip => simp [hip, bind, Except.bind, withContext, Except.toOption]

theorem parseForwardedHeader_joinedHeader (spaces : Nat) (headers : List Header) :
    (parseForwardedHeader headerName headerFormat proxies
        [joinedHeader headerName spaces headers]).toOption =
      (parseForwardedHeader headerName headerFormat proxies headers).toOption := by
  have hname : eqIgnoreAsciiCase (joinedHeader headerName spaces headers).name headerName = true :=
    eqIgnoreAsciiCase_self headerName
  have hjoined := addresses_joinValues spaces (valuesOf headerName headers)
  have hone := addresses_joinValues 0 [joinValues spaces (valuesOf headerName headers)]
  rw [parseForwardedHeader_eq, parseForwardedHeader_eq, valuesOf_cons_of_eq hname, ← hjoined]
  rw [joinValues] at hone
  exact congrArg (Option.bind · proxies.clientAddress) hone.symm

theorem clientOf_clientAddress (addresses : List IpAddr) :
    ClientOf proxies addresses (proxies.clientAddress addresses) := by
  unfold TrustedProxies.clientAddress
  cases hlast : proxies.lastUntrusted addresses with
  | some ip =>
    obtain ⟨front, back, hsplit, hback⟩ := proxies.split_of_lastUntrusted hlast
    rw [hsplit]
    exact .rightmostUntrusted front ip back (proxies.not_trusted_of_lastUntrusted hlast).2 hback
  | none =>
    have htrusted := proxies.lastUntrusted_eq_none_iff.mp hlast
    cases addresses with
    | nil => exact .nobody
    | cons ip addresses => exact .leftmost ip addresses htrusted

/-- What is in front of an untrusted address does not matter. -/
theorem clientAddress_append {addresses : List IpAddr}
    (h : ∃ ip ∈ addresses, proxies.isTrusted ip = false) (front : List IpAddr) :
    proxies.clientAddress (front ++ addresses) = proxies.clientAddress addresses := by
  unfold TrustedProxies.clientAddress
  cases hlast : proxies.lastUntrusted addresses with
  | some ip =>
    rw [proxies.lastUntrusted_append, hlast, Option.some_or, Option.some_or, Option.some_or]
  | none =>
    obtain ⟨ip, hmem, huntrusted⟩ := h
    rw [proxies.lastUntrusted_eq_none_iff.mp hlast ip hmem] at huntrusted
    cases huntrusted

theorem client_not_spoofed :
    (∀ supplied header, (∃ ip ∈ forwardedAddresses header, proxies.isTrusted ip = false) →
      lastForwardedForIp (supplied ++ ',' :: header) proxies =
        lastForwardedForIp header proxies) ∧
    (∀ headerName headerFormat spaces headers,
      (parseForwardedHeader headerName headerFormat proxies headers).toOption =
        (parseForwardedHeader headerName headerFormat proxies
          [joinedHeader headerName spaces headers]).toOption) ∧
    ∀ header, ClientOf proxies (forwardedAddresses header) (lastForwardedForIp header proxies) := by
  refine ⟨?_, ?_, ?_⟩
  · intro supplied header h
    rw [proxies.lastForwardedForIp_eq, proxies.lastForwardedForIp_eq,
      forwardedAddresses_append_comma]
    exact clientAddress_append proxies h _
  · intro headerName headerFormat spaces headers
    exact (parseForwardedHeader_joinedHeader headerName headerFormat proxies spaces headers).symm
  · intro header
    rw [proxies.lastForwardedForIp_eq]
    exact clientOf_clientAddress proxies _

end Proxies

def oneTrusted : TrustedProxies := ⟨TrustedProxies.oneNetwork TrustedProxies.tenNetwork⟩

/-- What the client has sent is in front of what its proxy has appended. -/
theorem client_not_spoofed_tenNetwork :
    lastForwardedForIp ("198.51.100.7".toList ++ ',' :: "203.0.113.9, 10.1.2.3".toList)
        oneTrusted =
      lastForwardedForIp "203.0.113.9, 10.1.2.3".toList oneTrusted :=
  (client_not_spoofed oneTrusted).1 _ _
    ⟨.v4 ⟨#v[203, 0, 113, 9]⟩, by decide, by decide⟩

end Aquatic.Http
