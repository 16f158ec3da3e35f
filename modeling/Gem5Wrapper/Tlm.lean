import Mathlib.Data.Nat.Notation
import Gem5Wrapper.Lib.FaultMachine

/-!
# TLM payloads and gem5 packets

The data the ports pass around: TLM phases and statuses, generic payloads with the extension
that carries the gem5 packet, and gem5 packets. Payloads, packets and sockets are named by
numbers; `none` is the null pointer.

A run may stop at an assertion, a reported FATAL or a panic of the code (`Fault`). The last
constructor is no fault of the code: it marks a call that the environment may not make.
-/

namespace Gem5Wrapper

open FaultMachine

/-- The address of a `tlm_generic_payload`. -/
abbrev Ptr := ℕ

/-- The address of a gem5 `Packet`. -/
abbrev PacketPtr := ℕ

/-- `tlm_phase`. -/
inductive Phase
  | beginReq
  | endReq
  | beginResp
  | endResp
  deriving DecidableEq, Repr

/-- `tlm_sync_enum`. -/
inductive SyncEnum
  | accepted
  | updated
  | completed
  deriving DecidableEq, Repr

/-- What a call of `nb_transport_fw` or `nb_transport_bw` gives back: the status, and the phase
and delay it leaves in its reference arguments. -/
structure Reply where
  status : SyncEnum
  phase : Phase
  delay : ℕ
  deriving DecidableEq, Repr

/-- `tlm_command`. -/
inductive Command
  | read
  | write
  | ignore
  deriving DecidableEq, Repr

/-- `tlm_response_status`. -/
inductive ResponseStatus
  | ok
  | incomplete
  | genericError
  | addressError
  | commandError
  | burstError
  | byteEnableError
  deriving DecidableEq, Repr

/-- `is_response_error`. -/
def ResponseStatus.isError (s : ResponseStatus) : Bool := s ≠ .ok

/-- `get_response_string`. -/
def ResponseStatus.string : ResponseStatus → String
  | ok => "TLM_OK_RESPONSE"
  | incomplete => "TLM_INCOMPLETE_RESPONSE"
  | genericError => "TLM_GENERIC_ERROR_RESPONSE"
  | addressError => "TLM_ADDRESS_ERROR_RESPONSE"
  | commandError => "TLM_COMMAND_ERROR_RESPONSE"
  | burstError => "TLM_BURST_ERROR_RESPONSE"
  | byteEnableError => "TLM_BYTE_ENABLE_ERROR_RESPONSE"

/-- Why a run stopped. -/
inductive Fault
  | scAssert (function condition : String)
  | assert (function condition : String)
  | fatal (id message : String)
  /-- `SC_REPORT_ERROR`, which throws. -/
  | report (id message : String)
  | panic (message : String)
  | undefinedBehaviour (what : String)
  | environment (what : String)
  deriving DecidableEq, Repr

/-! ## gem5 packets -/

/-- The attributes of a gem5 command that the ports ask for. -/
structure MemCmd where
  isRead : Bool := false
  isWrite : Bool := false
  isInvalidate : Bool := false
  needsResponse : Bool := false
  isResponse : Bool := false
  isSwapReq : Bool := false
  deriving DecidableEq, Repr

/-- The command of the response to a request. -/
def MemCmd.responseCommand (cmd : MemCmd) : MemCmd :=
  { cmd with needsResponse := false, isResponse := true, isSwapReq := false }

/-- A gem5 packet. -/
structure Packet where
  cmd : MemCmd
  addr : ℕ := 0
  size : ℕ := 0
  dataPtr : ℕ := 0
  requestorId : ℕ := 0
  cpuClusterId : Option ℕ := none
  cacheResponding : Bool := false
  payloadDelay : ℕ := 0
  headerDelay : ℕ := 0
  deriving DecidableEq, Repr

/-- `Packet::makeResponse`. -/
def Packet.makeResponse (pkt : Packet) : Packet := { pkt with cmd := pkt.cmd.responseCommand }

/-! ## Payloads -/

/-- `Gem5Extension`. `serial` numbers the extension objects in the order of their `new`; the
code never reads it. -/
structure Gem5Extension where
  packet : PacketPtr
  coreId : ℕ
  serial : ℕ
  deriving DecidableEq, Repr

/-- `tlm_generic_payload`, with the initial values of its constructor. -/
structure Payload where
  address : ℕ := 0
  command : Command := .ignore
  dataLength : ℕ := 0
  streamingWidth : ℕ := 0
  dataPtr : Option ℕ := none
  byteEnablePtr : Option ℕ := none
  responseStatus : ResponseStatus := .incomplete
  extension : Option Gem5Extension := none
  refCount : ℕ := 0
  hasMm : Bool := false
  deriving DecidableEq, Repr

/-- `tlm_generic_payload::reset`: the extensions go, the other attributes stay. -/
def Payload.reset (p : Payload) : Payload := { p with extension := none }

/-- The scheduled `PayloadEvent`s of a port: the payload and phase they carry and the tick they
are scheduled for. `txn` is the transaction that the sender of the phase means; the code never
reads it. -/
structure PayloadEvent where
  t : Ptr
  p : Phase
  tick : ℕ
  txn : ℕ
  deriving DecidableEq, Repr

end Gem5Wrapper
