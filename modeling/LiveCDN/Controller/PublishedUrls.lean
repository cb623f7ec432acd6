import LiveCDN.Controller.Mesh
import LiveCDN.Library.UrlPort

/-!
# The ports of published URLs

The builders of `controller/scheduler.go` and `controller/mesh.go` write the port of a node behind
its host, but most of them leave out 80 and 443 whatever the scheme. A URL without a port leads to
443 with TLS and to 80 without.

So the URLs of a node lead to its port exactly when both its hosts do, the domain and the one for
other agents: the port is written, and the host does not end the authority, or the host alone leads
to the port (`publishedPorts_iff`). A plain host alone leads to the default port of the scheme
(`leadsToPort_iff_of_plain`).

Scope. The hosts of a node are any texts. A node without an IPv6 address has no URLs for it.
-/

set_option autoImplicit false
set_option relaxedAutoImplicit false

namespace LiveCDN.Controller.PublishedUrls

open NodeStore Endpoint Mesh Library.UrlPort

/-! ### Hosts -/

/-- The default port of the scheme of a node. -/
def defaultPort (node : NodeInfo) : ℤ := if node.tlsEnabled then 443 else 80

/-- The host of the URLs for other agents. -/
def agentHost (node : NodeInfo) : String :=
  if node.publicIPv6 ≠ "" then "[" ++ node.publicIPv6 ++ "]" else node.publicIP

/-- A host leads to the port of a node when the port is written or not: where it is written, the
host must not end the authority, and otherwise the host alone must lead to the port. -/
def Leads (node : NodeInfo) (isWritten : Prop) (host : String) : Prop :=
  (isWritten ∧ IsAuthority host.toList) ∨
    portOf (defaultPort node) (authority host.toList) = some node.port

/-- A host leads to the port of a node where 80 and 443 are not written. -/
def LeadsToPort (node : NodeInfo) (host : String) : Prop :=
  Leads node (node.port ≠ 80 ∧ node.port ≠ 443) host

/-- The URLs that are published for a node lead to its port. -/
structure PublishedPorts (node : NodeInfo) : Prop where
  flv : effectivePort (buildNodeFLVURL node).toList = some node.port
  hls : effectivePort (buildNodeHLSURL node).toList = some node.port
  cascadeRelay : effectivePort (buildCascadeRelayURL node).toList = some node.port
  cascadeEndpoint : effectivePort (buildCascadeEndpointURL node).toList = some node.port
  ipv6FLV : node.publicIPv6 ≠ "" → effectivePort (buildIPv6FLVURL node).toList = some node.port
  ipv6Cascade : node.publicIPv6 ≠ "" →
    effectivePort (buildIPv6CascadeURL node).toList = some node.port

/-! ### URLs -/

/-- The port that a URL of a node leads to is that of its authority. -/
theorem effectivePort_url (node : NodeInfo) (host : String) {path : String} {rest : List Char}
    (hpath : path.toList = '/' :: rest) :
    effectivePort (httpScheme node ++ "://" ++ host ++ path).toList =
      portOf (defaultPort node) (authority host.toList) := by
  unfold httpScheme defaultPort
  cases node.tlsEnabled with
  | false =>
    have hurl : ("http" ++ "://" ++ host ++ path).toList =
        "http://".toList ++ (host.toList ++ '/' :: rest) := by simp [hpath]
    rw [if_neg Bool.false_ne_true, if_neg Bool.false_ne_true, hurl, effectivePort_http,
      authority_append_path]
  | true =>
    have hurl : ("https" ++ "://" ++ host ++ path).toList =
        "https://".toList ++ (host.toList ++ '/' :: rest) := by simp [hpath]
    rw [if_pos rfl, if_pos rfl, hurl, effectivePort_https, authority_append_path]

/-- A host and a port. -/
theorem toList_hostPort (host : String) {port : ℤ} (hport : 0 ≤ port) :
    (hostPort host port).toList = host.toList ++ ':' :: Nat.toDigits 10 port.toNat := by
  obtain ⟨n, rfl⟩ := Int.eq_ofNat_of_zero_le hport
  have hdigits : (toString (n : ℤ)).toList = Nat.toDigits 10 n := Nat.toList_repr
  rw [hostPort, String.toList_append, String.toList_append, hdigits, List.append_assoc]
  rfl

/-- A URL leads to the port of a node exactly when its host does. Assumes: the port is not
negative. -/
theorem effectivePort_eq_iff {node : NodeInfo} (hport : 0 ≤ node.port) {isWritten : Prop}
    [Decidable isWritten] (host : String) {path : String} {rest : List Char}
    (hpath : path.toList = '/' :: rest) :
    effectivePort (httpScheme node ++ "://" ++
        (if isWritten then hostPort host node.port else host) ++ path).toList = some node.port ↔
      Leads node isWritten host := by
  have hdigits (c : Char) (hc : c ∈ Nat.toDigits 10 node.port.toNat) : c.isDigit = true :=
    Nat.isDigit_of_mem_toDigits (by decide) (by decide) hc
  rw [effectivePort_url node _ hpath]
  unfold Leads
  by_cases hwritten : isWritten
  · rw [if_pos hwritten, and_iff_right hwritten, toList_hostPort host hport]
    by_cases hhost : IsAuthority host.toList
    · rw [authority_append_port hdigits hhost, portOf_append_port _ _ Nat.toDigits_ne_nil hdigits,
        Nat.ofDigitChars_ten_toDigits, Int.toNat_of_nonneg hport]
      exact iff_of_true rfl (Or.inl hhost)
    · rw [authority_append_of_not hhost, or_iff_right hhost]
  · rw [if_neg hwritten, or_iff_right fun h ↦ hwritten h.1]

/-- Where more ports are written, a host leads to the port if it does without. -/
theorem Leads.mono {node : NodeInfo} {few many : Prop} {host : String} (hmany : few → many)
    (hleads : Leads node few host) : Leads node many host :=
  hleads.imp_left (And.imp_left hmany)

/-- Where the port of a node is not zero, the test for zero does nothing. -/
theorem leads_nonzero_iff {node : NodeInfo} {isWritten : Prop} (hport : node.port ≠ 0)
    (host : String) : Leads node (node.port ≠ 0 ∧ isWritten) host ↔ Leads node isWritten host := by
  unfold Leads
  rw [and_iff_right hport]

/-- A host without an end of the authority and without a colon, a bracket or a user name. -/
def IsPlain (host : String) : Prop :=
  IsAuthority host.toList ∧ ∀ c ∈ host.toList, boundsPort c = false

instance (host : String) : Decidable (IsPlain host) :=
  @instDecidableAnd _ _ inferInstance
    (List.decidableBAll (fun c : Char ↦ boundsPort c = false) host.toList)

/-- A plain host leads to the port of a node exactly when the port is written or is the default one.
-/
theorem leadsToPort_iff_of_plain {node : NodeInfo} {host : String} (hhost : IsPlain host) :
    LeadsToPort node host ↔
      (node.port ≠ 80 ∧ node.port ≠ 443) ∨ node.port = defaultPort node := by
  unfold LeadsToPort Leads
  rw [authority_of_isAuthority hhost.1, portOf_of_plain _ hhost.2, and_iff_left hhost.1,
    Option.some.injEq]
  exact or_congr_right eq_comm

/-- An IPv6 address without an end of the authority leads to the port exactly when a plain host
does. -/
theorem leadsToPort_iff_of_brackets {node : NodeInfo} {address : String}
    (haddress : IsAuthority address.toList) :
    LeadsToPort node ("[" ++ address ++ "]") ↔
      (node.port ≠ 80 ∧ node.port ≠ 443) ∨ node.port = defaultPort node := by
  have hlist : ("[" ++ address ++ "]").toList = '[' :: address.toList ++ [']'] := by simp
  have hauthority : IsAuthority ('[' :: address.toList ++ [']']) :=
    List.forall_mem_append.mpr ⟨List.forall_mem_cons.mpr ⟨by decide, haddress⟩,
      List.forall_mem_singleton.mpr (by decide)⟩
  unfold LeadsToPort Leads
  rw [hlist, authority_of_isAuthority hauthority, portOf_brackets, and_iff_left hauthority,
    Option.some.injEq]
  exact or_congr_right eq_comm

/-! ### The URLs of a node -/

variable {node : NodeInfo}

theorem effectivePort_playback (hlow : 1 ≤ node.port) {path : String} {rest : List Char}
    (hpath : path.toList = '/' :: rest) :
    effectivePort (buildPlaybackURL node path).toList = some node.port ↔
      LeadsToPort node node.domain :=
  (effectivePort_eq_iff (by omega) node.domain hpath).trans (leads_nonzero_iff (by omega) _)

theorem effectivePort_cascadeRelay (hlow : 1 ≤ node.port) :
    effectivePort (buildCascadeRelayURL node).toList = some node.port ↔
      LeadsToPort node (agentHost node) := by
  have hhost : buildCascadeRelayURL node = httpScheme node ++ "://" ++
      (if node.port ≠ 0 ∧ node.port ≠ 80 ∧ node.port ≠ 443 then hostPort (agentHost node) node.port
        else agentHost node) ++ "/live/{stream_key}.flv" := by
    unfold buildCascadeRelayURL agentHost
    split_ifs <;> rfl
  rw [hhost]
  exact (effectivePort_eq_iff (by omega) _ rfl).trans (leads_nonzero_iff (by omega) _)

theorem effectivePort_cascadeEndpoint (hlow : 1 ≤ node.port) :
    effectivePort (buildCascadeEndpointURL node).toList = some node.port ↔
      LeadsToPort node (agentHost node) :=
  (effectivePort_eq_iff (by omega) (agentHost node) rfl).trans (leads_nonzero_iff (by omega) _)

theorem effectivePort_ipv6FLV (hlow : 1 ≤ node.port) (hipv6 : node.publicIPv6 ≠ "") :
    effectivePort (buildIPv6FLVURL node).toList = some node.port ↔
      Leads node (node.port ≠ 80) (agentHost node) := by
  unfold buildIPv6FLVURL agentHost
  rw [if_neg hipv6, if_pos hipv6]
  exact (effectivePort_eq_iff (by omega) _ rfl).trans (leads_nonzero_iff (by omega) _)

theorem effectivePort_ipv6Cascade (hlow : 1 ≤ node.port) (hipv6 : node.publicIPv6 ≠ "") :
    effectivePort (buildIPv6CascadeURL node).toList = some node.port ↔
      Leads node True (agentHost node) := by
  have hport : 0 ≤ node.port := by omega
  have hurl : buildIPv6CascadeURL node = httpScheme node ++ "://" ++
      (if True then hostPort (agentHost node) node.port else agentHost node) ++
      "/cascade/{stream_key}.flv" := by
    unfold buildIPv6CascadeURL agentHost
    rw [if_neg hipv6, if_pos hipv6, if_pos trivial]
  rw [hurl]
  exact effectivePort_eq_iff hport _ rfl

/-- The URLs of a node lead to its port exactly when its hosts do. -/
theorem publishedPorts_iff (node : NodeInfo) (hlow : 1 ≤ node.port) :
    PublishedPorts node ↔ LeadsToPort node node.domain ∧ LeadsToPort node (agentHost node) := by
  constructor
  · intro hpublished
    exact ⟨(effectivePort_playback hlow rfl).mp hpublished.flv,
      (effectivePort_cascadeRelay hlow).mp hpublished.cascadeRelay⟩
  · rintro ⟨hdomain, hagent⟩
    exact {
      flv := (effectivePort_playback hlow rfl).mpr hdomain
      hls := (effectivePort_playback hlow rfl).mpr hdomain
      cascadeRelay := (effectivePort_cascadeRelay hlow).mpr hagent
      cascadeEndpoint := (effectivePort_cascadeEndpoint hlow).mpr hagent
      ipv6FLV := fun hipv6 ↦ (effectivePort_ipv6FLV hlow hipv6).mpr (hagent.mono And.left)
      ipv6Cascade := fun hipv6 ↦
        (effectivePort_ipv6Cascade hlow hipv6).mpr (hagent.mono fun _ ↦ trivial) }

/-- A node that registers with a port, with TLS or without. -/
def registeredNode (port : ℤ) (tlsEnabled : Bool) : NodeInfo :=
  MemoryStore.newNode 0 ⟨"n", "203.0.113.7", "2001:db8::7", port, "r", "i", 100, "n.example",
    "https", "", tlsEnabled, true, false⟩

/-- The URLs of a node with another port lead to it. -/
theorem publishedPorts_iff_port9090 : PublishedPorts (registeredNode 9090 true) :=
  (publishedPorts_iff (registeredNode 9090 true) (by decide)).mpr
    ⟨(leadsToPort_iff_of_plain (by decide)).mpr (Or.inl (by decide)),
      (leadsToPort_iff_of_brackets (by decide)).mpr (Or.inl (by decide))⟩

/-- Without TLS the URLs of a node with port 443 lead to 80, and with TLS those of a node with port
80 to 443. -/
theorem publishedPorts_counterexample :
    effectivePort (buildNodeFLVURL (registeredNode 443 false)).toList = some 80 ∧
      ¬ PublishedPorts (registeredNode 443 false) ∧
      effectivePort (buildNodeFLVURL (registeredNode 80 true)).toList = some 443 ∧
      ¬ PublishedPorts (registeredNode 80 true) := by
  have hplain : effectivePort (buildNodeFLVURL (registeredNode 443 false)).toList = some 80 := by
    decide
  have htls : effectivePort (buildNodeFLVURL (registeredNode 80 true)).toList = some 443 := by
    decide
  refine ⟨hplain, fun hpublished ↦ ?_, htls, fun hpublished ↦ ?_⟩
  · exact absurd (hplain.symm.trans hpublished.flv) (by decide)
  · exact absurd (htls.symm.trans hpublished.flv) (by decide)

end LiveCDN.Controller.PublishedUrls
