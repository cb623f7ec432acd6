import LiveCDN.Controller.NodeStore

/-!
# Endpoints handed to players

The addresses the scheduler builds for a node (`controller/scheduler.go`) and the record returned to
a player (`NodeEndpoint` of `common/types.go`). `endpoints` numbers the selected nodes in order;
the endpoints name the nodes they were built from, in the same order (`map_nodeID_endpoints`).
-/

set_option autoImplicit false
set_option relaxedAutoImplicit false

namespace LiveCDN.Controller.Endpoint

open NodeStore

/-! ### Addresses -/

/-- `fmt.Sprintf("%s:%d", host, port)`. -/
def hostPort (host : String) (port : ℤ) : String := host ++ ":" ++ toString port

/-- `https` with TLS, `http` without. -/
def httpScheme (node : NodeInfo) : String := if node.tlsEnabled then "https" else "http"

/-- `buildNodeURL`. -/
def buildNodeURL (node : NodeInfo) : String :=
  if node.protocol = "ws" ∨ node.protocol = "wss" then
    let wsScheme := if node.tlsEnabled then "wss" else "ws"
    let path := if node.wsPath = "" then "/ws/live" else node.wsPath
    wsScheme ++ "://" ++ node.domain ++ path
  else if node.protocol = "grpc" then httpScheme node ++ "://" ++ node.domain ++ "/grpc/live"
  else httpScheme node ++ "://" ++ node.domain ++ "/live/stream.m3u8"

/-- A playback address under the domain, with the port unless it is a default one. -/
def buildPlaybackURL (node : NodeInfo) (path : String) : String :=
  let host := if node.port ≠ 0 ∧ node.port ≠ 80 ∧ node.port ≠ 443 then
    hostPort node.domain node.port else node.domain
  httpScheme node ++ "://" ++ host ++ path

/-- `buildNodeFLVURL`. -/
def buildNodeFLVURL (node : NodeInfo) : String := buildPlaybackURL node "/live/{stream_key}.flv"

/-- `buildNodeHLSURL`. -/
def buildNodeHLSURL (node : NodeInfo) : String :=
  buildPlaybackURL node "/live/{stream_key}/stream.m3u8"

/-- `buildCascadeRelayURL`. -/
def buildCascadeRelayURL (node : NodeInfo) : String :=
  let host := if node.publicIPv6 ≠ "" then "[" ++ node.publicIPv6 ++ "]" else node.publicIP
  let host := if node.port ≠ 0 ∧ node.port ≠ 80 ∧ node.port ≠ 443 then hostPort host node.port
    else if node.publicIPv6 ≠ "" then "[" ++ node.publicIPv6 ++ "]" else host
  httpScheme node ++ "://" ++ host ++ "/live/{stream_key}.flv"

/-- `buildIPv6FLVURL`. -/
def buildIPv6FLVURL (node : NodeInfo) : String :=
  if node.publicIPv6 = "" then ""
  else
    let host := "[" ++ node.publicIPv6 ++ "]"
    let host := if node.port ≠ 0 ∧ node.port ≠ 80 then hostPort host node.port else host
    httpScheme node ++ "://" ++ host ++ "/live/{stream_key}.flv"

/-! ### Endpoints -/

/-- `NodeEndpoint`. -/
structure NodeEndpoint where
  nodeID : String
  url : String
  flvURL : String
  hlsURL : String
  domain : String
  port : ℤ
  protocol : String
  wsPath : String
  region : String
  isp : String
  priority : ℕ
  cascadeRelayURL : String
  ipv6FLVURL : String
  deriving DecidableEq, Repr

/-- The endpoint of a selected node. -/
def nodeEndpoint (priority : ℕ) (node : NodeInfo) : NodeEndpoint where
  nodeID := node.nodeID
  url := buildNodeURL node
  flvURL := buildNodeFLVURL node
  hlsURL := buildNodeHLSURL node
  domain := node.domain
  port := node.port
  protocol := node.protocol
  wsPath := node.wsPath
  region := node.region
  isp := node.isp
  priority := priority
  cascadeRelayURL := buildCascadeRelayURL node
  ipv6FLVURL := buildIPv6FLVURL node

/-- The endpoints of the selected nodes, the primary first. -/
def endpoints (selected : List NodeInfo) : List NodeEndpoint :=
  selected.mapIdx nodeEndpoint

/-- The endpoints name the selected nodes in order. -/
@[simp] theorem map_nodeID_endpoints (selected : List NodeInfo) :
    (endpoints selected).map NodeEndpoint.nodeID = selected.map NodeInfo.nodeID := by
  refine List.ext_getElem (by simp [endpoints]) fun i _ _ ↦ ?_
  simp [endpoints, nodeEndpoint]

@[simp] theorem endpoints_eq_nil_iff (selected : List NodeInfo) :
    endpoints selected = [] ↔ selected = [] := by
  rw [endpoints, List.mapIdx_eq_nil_iff]

end LiveCDN.Controller.Endpoint
