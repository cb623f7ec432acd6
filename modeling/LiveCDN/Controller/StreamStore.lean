import LiveCDN.Library.KeyedTable

/-!
# Streams of the controller

The record of a stream (`common/types.go`) and the store operations on streams
(`controller/store.go`), on records by value: a stream keeps its record under its key, live or
ended. The operations on records that several goroutines share are those of `KeyRotation`.
-/

set_option autoImplicit false
set_option relaxedAutoImplicit false

namespace LiveCDN.Controller.StreamStore

open Library.KeyedTable

/-! ### Records -/

/-- `LatencyUltra`. -/
def latencyUltra : String := "ultra"

/-- `LatencyStandard`. -/
def latencyStandard : String := "standard"

/-- `LatencyResilient`. -/
def latencyResilient : String := "resilient"

/-- `StreamInfo`. -/
structure StreamInfo where
  streamKey : String
  title : String
  originURL : String
  encryptKey : String
  encryptIV : String
  cipherSuite : String
  isLive : Bool
  createdAt : ℕ
  latencyMode : String
  deriving DecidableEq, Repr

/-! ### Operations -/

/-- `CreateStream`. -/
def createStream (streams : Table StreamInfo.streamKey) (info : StreamInfo) :
    Table StreamInfo.streamKey :=
  streams.put info

/-- `GetStream`. -/
def getStream (streams : Table StreamInfo.streamKey) (key : String) : Option StreamInfo :=
  streams.find? key

/-- `EndStream`. -/
def endStream (streams : Table StreamInfo.streamKey) (key : String) : Table StreamInfo.streamKey :=
  match streams.find? key with
  | none => streams
  | some info => streams.put { info with isLive := false }

end LiveCDN.Controller.StreamStore
