import AssetInventory.Lib.IpAddress

/-!
# The address of a client behind proxies

A proxy appends the address that it sees to `X-Forwarded-For`, so the last element of the header is
the only one that the proxy next to the server vouches for; what stands in front of it was chosen by
whoever connected to that proxy.

* `getClientIp`, `rateLimitKey`: what the server takes for the address, and for the key of its limits.
* `parseXff`: the walk over the header from the right.
* `isProxyHop`: the elements that the walk passes over.
* `unspoofable_iff`: the address does not depend on the part that the client chose exactly when the
  last element is not passed over.
-/

namespace AssetInventory.Server

open PyJson PyIp

/-! ## The code -/

/-- The ranges that are trusted when the settings name none. -/
def defaultCidrs : List String :=
  ["127.0.0.0/8", "::1/128", "10.0.0.0/8", "172.16.0.0/12", "192.168.0.0/16", "fc00::/7"]

/-- `_parse_trusted`.  What does not parse is left out. -/
def parseTrusted (trustedProxyCidrs : String) : List IpNetwork :=
  let nets := (((split ',' trustedProxyCidrs).map strip).filter (· ≠ "")).filterMap
    fun cidr => ipNetwork cidr.toList
  if nets = [] then defaultCidrs.filterMap fun cidr => ipNetwork cidr.toList else nets

def peerIsTrusted (nets : List IpNetwork) (peerIp : String) : Bool :=
  if peerIp = "" then false
  else
    match ipAddress peerIp.toList with
    | none => false
    | some ip => nets.any fun net => net.mem (ip.ipv4Mapped.getD ip)

def isProxyHop (nets : List IpNetwork) (raw : String) : Bool :=
  match ipAddress raw.toList with
  | none => false
  | some ip => ip.isLoopback || ip.isLinkLocal || peerIsTrusted nets (String.ofList ip.toText)

/-- The elements of the header. -/
def forwardedParts (xff : String) : List String := ((split ',' xff).map strip).filter (· ≠ "")

def parseXff (nets : List IpNetwork) (xff : String) : Option String :=
  match (forwardedParts xff).reverse.find? fun raw => !isProxyHop nets raw with
  | some raw => some raw
  -- only hops of proxies: the leftmost element
  | none => (forwardedParts xff).head?

/-- The part of a text in front of the first `sep`. -/
def before (sep : Char) (s : String) : String := (split sep s).headD ""

def normalize (ipStr : String) : String :=
  if ipStr = "" then ""
  else
    let ipStr := if '%' ∈ ipStr.toList then before '%' ipStr else ipStr
    let ipStr := if ipStr.toList.count ':' = 1 then before ':' ipStr else ipStr
    match ipAddress ipStr.toList with
    | none => ipStr
    | some ip => String.ofList (ip.ipv4Mapped.getD ip).toText

/-- What a request says of its sender. -/
structure ClientRequest where
  /-- The peer of the connection. -/
  clientHost : Option String
  xForwardedFor : Option String
  xRealIp : Option String

def getClientIp (nets : List IpNetwork) (trustedOverride : Option (List String))
    (request : ClientRequest) : Option String :=
  let peerNormalized := (given request.clientHost).map normalize
  let isTrusted := match given peerNormalized, trustedOverride with
    | none, _ => false
    | some peer, none => peerIsTrusted nets peer
    | some peer, some trusted => decide (peer ∈ trusted)
  let fromForwarded := (given request.xForwardedFor).bind fun xff => given (parseXff nets xff)
  let fromRealIp := (given request.xRealIp).map fun xri => normalize (strip xri)
  if isTrusted then
    match fromForwarded with
    | some realIp => some (normalize realIp)
    | none => fromRealIp.or peerNormalized
  else peerNormalized

def rateLimitKey (nets : List IpNetwork) (request : ClientRequest) : String :=
  (given (getClientIp nets none request)).getD "unknown"

/-! ## Behind a proxy -/

/-- A text that is one element of the header. -/
structure IsElement (a : String) : Prop where
  ne_empty : a ≠ ""
  no_comma : ',' ∉ a.toList
  stripped : strip a = a

/-- The header that a proxy passes on: the address `a` of the host that connected to it behind
whatever that host sent, if it sent the header at all. -/
def appendForwarded (chosen : Option String) (a : String) : String :=
  match chosen with
  | none => a
  | some header => header ++ ", " ++ a

/-- A request by way of a proxy. -/
def viaProxy (peer : String) (xRealIp : Option String) (a : String) (chosen : Option String) :
    ClientRequest where
  clientHost := some peer
  xForwardedFor := some (appendForwarded chosen a)
  xRealIp := xRealIp

/-- Nothing that the client puts in front of `a` has an influence on the result. -/
def Unspoofable (nets : List IpNetwork) (peer : String) (xRealIp : Option String) (a : String) :
    Prop :=
  ∀ p q : Option String,
    getClientIp nets none (viaProxy peer xRealIp a p) = getClientIp nets none (viaProxy peer xRealIp a q) ∧
      rateLimitKey nets (viaProxy peer xRealIp a p) = rateLimitKey nets (viaProxy peer xRealIp a q)

variable {a xff b peer : String}

theorem forwardedParts_element (ha : IsElement a) : forwardedParts a = [a] := by
  rw [forwardedParts, split_of_notMem ha.no_comma, List.map_singleton, ha.stripped]
  simp [ha.ne_empty]

theorem forwardedParts_header (ha : IsElement a) (header : String) :
    forwardedParts (header ++ ", " ++ a) = forwardedParts header ++ [a] := by
  have hcomma : ',' ∉ (" " ++ a).toList := by
    rw [String.toList_append]
    simpa using ha.no_comma
  have hsplit : header ++ ", " ++ a = header ++ String.singleton ',' ++ (" " ++ a) := by
    have : ", " = String.singleton ',' ++ " " := by decide
    rw [this, String.append_assoc, String.append_assoc, String.append_assoc]
  have hlast : ([a].filter fun s => decide (s ≠ "")) = [a] := by simp [ha.ne_empty]
  rw [hsplit, forwardedParts, split_append_cons hcomma, List.map_append, List.filter_append,
    List.map_singleton, strip_space_append, ha.stripped, hlast, forwardedParts]

/-- **The last element is the one that the proxy appended.** -/
theorem forwardedParts_append (ha : IsElement a) (chosen : Option String) :
    ∃ front, forwardedParts (appendForwarded chosen a) = front ++ [a] := by
  cases chosen with
  | none => exact ⟨[], forwardedParts_element ha⟩
  | some header => exact ⟨forwardedParts header, forwardedParts_header ha header⟩

theorem appendForwarded_ne_empty (ha : IsElement a) (chosen : Option String) :
    appendForwarded chosen a ≠ "" := by
  intro h
  obtain ⟨front, hfront⟩ := forwardedParts_append ha chosen
  rw [h] at hfront
  have : forwardedParts "" = [] := by decide
  rw [this] at hfront
  simp at hfront

variable {nets : List IpNetwork}

theorem parseXff_of_not_hop {front : List String}
    (hparts : forwardedParts xff = front ++ [a]) (h : isProxyHop nets a = false) :
    parseXff nets xff = some a := by
  rw [parseXff, hparts, List.reverse_append, List.reverse_singleton, List.singleton_append,
    List.find?_cons_of_pos (by rw [h]; rfl)]

theorem parseXff_of_hop (hparts : forwardedParts xff = [b, a]) (ha : isProxyHop nets a = true)
    (hb : isProxyHop nets b = false) : parseXff nets xff = some b := by
  rw [parseXff, hparts, List.reverse_cons, List.reverse_singleton, List.singleton_append,
    List.find?_cons_of_neg (by rw [ha]; decide), List.find?_cons_of_pos (by rw [hb]; rfl)]

theorem peerIsTrusted_empty (nets : List IpNetwork) : peerIsTrusted nets "" = false := rfl

theorem normalize_empty : normalize "" = "" := rfl

theorem getClientIp_viaProxy
    (hpeer : peerIsTrusted nets (normalize peer) = true) (xRealIp : Option String)
    (ha : IsElement a) (chosen : Option String) {realIp : String} (hne : realIp ≠ "")
    (h : parseXff nets (appendForwarded chosen a) = some realIp) :
    getClientIp nets none (viaProxy peer xRealIp a chosen) = some (normalize realIp) := by
  have hnorm : normalize peer ≠ "" := by
    intro hn
    rw [hn, peerIsTrusted_empty] at hpeer
    exact Bool.false_ne_true hpeer
  have hpne : peer ≠ "" := by
    intro hp
    exact hnorm (hp ▸ normalize_empty)
  simp only [getClientIp, viaProxy, given_of_ne hpne, Option.map_some, given_of_ne hnorm, hpeer,
    given_of_ne (appendForwarded_ne_empty ha chosen), Option.bind_some, h, given_of_ne hne,
    if_true]

/-- A text that is no address stands for itself when the walk goes past `a`. -/
theorem getClientIp_spoofed
    (hpeer : peerIsTrusted nets (normalize peer) = true) (xRealIp : Option String)
    (ha : IsElement a) (hhop : isProxyHop nets a = true) (hparts : forwardedParts b = [b])
    (hb : ipAddress b.toList = none) (hnorm : normalize b = b) (hne : b ≠ "") :
    getClientIp nets none (viaProxy peer xRealIp a (some b)) = some b := by
  have hnot : isProxyHop nets b = false := by rw [isProxyHop, hb]
  have hwalk : parseXff nets (appendForwarded (some b) a) = some b :=
    parseXff_of_hop (by rw [appendForwarded, forwardedParts_header ha, hparts]; rfl) hhop hnot
  rw [getClientIp_viaProxy hpeer xRealIp ha (some b) hne hwalk, hnorm]

/-- **The address cannot be spoofed** exactly when the walk stops at the element that the proxy
appended: when that element is not itself taken for the hop of a proxy. -/
theorem unspoofable_iff (trustedProxyCidrs peer : String) (xRealIp : Option String) (a : String)
    (hpeer : peerIsTrusted (parseTrusted trustedProxyCidrs) (normalize peer) = true)
    (ha : IsElement a) : Unspoofable (parseTrusted trustedProxyCidrs) peer xRealIp a ↔
      isProxyHop (parseTrusted trustedProxyCidrs) a = false := by
  constructor
  · intro h
    by_contra hhop
    rw [Bool.not_eq_false] at hhop
    have hx := getClientIp_spoofed hpeer xRealIp ha hhop (b := "x") (by decide) (by decide)
      (by decide) (by decide)
    have hy := getClientIp_spoofed hpeer xRealIp ha hhop (b := "y") (by decide) (by decide)
      (by decide) (by decide)
    have hsame := (h (some "x") (some "y")).1
    rw [hx, hy] at hsame
    exact absurd hsame (by decide)
  · intro h p q
    have hsame : ∀ chosen, getClientIp (parseTrusted trustedProxyCidrs) none
        (viaProxy peer xRealIp a chosen) = some (normalize a) := by
      intro chosen
      obtain ⟨front, hfront⟩ := forwardedParts_append ha chosen
      exact getClientIp_viaProxy hpeer xRealIp ha chosen ha.ne_empty (parseXff_of_not_hop hfront h)
    rw [rateLimitKey, rateLimitKey, hsame p, hsame q]
    exact ⟨rfl, rfl⟩

/-- `trusted_proxy_cidrs`, as the settings have it. -/
def exampleCidrs : String :=
  "127.0.0.0/8,::1/128,10.0.0.0/8,172.16.0.0/12,192.168.0.0/16,fc00::/7"

theorem unspoofable_iff_public :
    Unspoofable (parseTrusted exampleCidrs) "172.22.0.5" none "203.0.113.77" ↔
      isProxyHop (parseTrusted exampleCidrs) "203.0.113.77" = false :=
  unspoofable_iff exampleCidrs "172.22.0.5" none "203.0.113.77" (by decide)
    ⟨by decide, by decide, by decide⟩

/-- A client on the same network as the proxies chooses the address under which it is known. -/
theorem lan_client_spoofs :
    ¬ ∀ (trustedProxyCidrs peer : String) (xRealIp : Option String) (a : String),
        peerIsTrusted (parseTrusted trustedProxyCidrs) (normalize peer) = true → IsElement a →
        Unspoofable (parseTrusted trustedProxyCidrs) peer xRealIp a := by
  intro h
  have hspoof := (h exampleCidrs "172.22.0.5" none "10.8.0.8" (by decide)
    ⟨by decide, by decide, by decide⟩ (some "8.8.8.8") (some "1.1.1.1")).1
  exact absurd hspoof (by decide)

end AssetInventory.Server
