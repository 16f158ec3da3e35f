import Gem5Wrapper.Access
import Gem5Wrapper.RouterRuns

/-!
# Errors from below

An access crosses the port, a router, and the memory or the bus below the router. Each of them
handles the response status of the payload, and none of them hands an error up: the router
overwrites what the memory sets, and the port looks at no status. `errors_reported_iff` gives the
accesses whose errors are not lost.
-/

namespace Gem5Wrapper

open FaultMachine
open Std (TreeMap)

/-! ## The bus -/

/-- `PortMapping`, with the assertion of its constructor. -/
structure PortMapping where
  start : ℕ
  finish : ℕ
  start_le_finish : start ≤ finish

/-- `PortMapping::contains`. -/
def PortMapping.contains (m : PortMapping) (addr : ℕ) : Bool := m.start ≤ addr ∧ addr ≤ m.finish

namespace SimpleBus

/-- `SimpleBus::decode`; `none` is -1. -/
def decode (ports : List PortMapping) (addr : ℕ) : Option ℕ :=
  ports.findIdx? fun m => m.contains addr

/-- `SimpleBus::transport`, with the `b_transport` of the targets. -/
def transport (ports : List PortMapping) (targets : ℕ → Payload → ℕ → Payload × ℕ) (p : Payload)
    (delay : ℕ) : Payload × ℕ :=
  match decode ports p.address with
  | none => ({ p with responseStatus := .addressError }, delay)
  | some id => targets id p delay

end SimpleBus

/-! ## The status on its way -/

/-- What is below a port: a router with its memory for each socket, and one bus with its targets. -/
structure Downstream (α : Type) where
  routers : ℕ → TxnRouter α
  memory : ℕ → Payload → ℕ → Payload × ℕ
  ports : List PortMapping
  targets : ℕ → Payload → ℕ → Payload × ℕ

variable {α : Type}

namespace Downstream

variable (d : Downstream α)

/-- The router behind a socket. -/
def bTransport : BTransport := fun s p delay =>
  (d.routers s).bTransport (d.memory s) (SimpleBus.transport d.ports d.targets) p delay

/-- The status that the memory, or the bus with its targets, sets. -/
def status (s : ℕ) (p : Payload) (delay : ℕ) : ResponseStatus :=
  if (d.routers s).toMem p.address then (d.memory s p delay).1.responseStatus
  else (SimpleBus.transport d.ports d.targets p delay).1.responseStatus

end Downstream

/-- An error is not lost: the router passes it back as it is, and the port does not complete the
packet. -/
def Reported (status passed : ResponseStatus) (completed : Prop) : Prop :=
  status.isError = true → passed = status ∧ ¬ completed

/-- Where the router overwrites the status, errors are lost. -/
theorem reported_ok {status : ResponseStatus} {completed : Prop} :
    Reported status .ok completed ↔ status.isError = false := by
  cases status <;> simp [Reported, ResponseStatus.isError]

/-- Where the router passes the status back, it depends on the port. -/
theorem reported_self {status : ResponseStatus} {completed : Prop} :
    Reported status status completed ↔ status.isError = false ∨ ¬ completed := by
  cases status <;> simp [Reported, ResponseStatus.isError]

/-- `pec` made the response of the packet. -/
def Completes (w w' : World) (k : ℕ) (packet : PacketPtr) : Prop :=
  w.trace.count (.makeResponse k packet) < w'.trace.count (.makeResponse k packet)

/-! ## The atomic path -/

variable {w w' : World} {packet : PacketPtr} {s delay : ℕ} {t : Ptr}

theorem World.acquire_packets (h : w.acquire t = .ok w') : w'.packets = w.packets := by
  simp only [World.acquire, bind_eq_ok, check_eq_ok, pure_eq_ok, Except.ok.injEq] at h
  obtain ⟨-, -, rfl⟩ := h
  rfl

theorem World.release_packets (h : w.release t = .ok w') : w'.packets = w.packets := by
  simp only [World.release, bind_eq_ok, check_eq_ok, pure_eq_ok] at h
  obtain ⟨-, -, h⟩ := h
  split_ifs at h <;> cases h <;> rfl

theorem World.packet2payload_packets (h : w.packet2payload packet t = .ok w') :
    w'.packets = w.packets := by
  simp only [World.packet2payload, bind_eq_ok, check_eq_ok] at h
  obtain ⟨-, -, h⟩ := h
  split_ifs at h <;> cases h <;> rfl

theorem World.prepare_packets (h : w.prepare packet s = .ok (t, w')) : w'.packets = w.packets := by
  simp only [World.prepare, bind_eq_ok, pure_eq_ok, Except.ok.injEq, Prod.mk.injEq] at h
  obtain ⟨w₁, h₁, w₂, h₂, -, rfl⟩ := h
  exact ((packet2payload_packets h₂).trans (acquire_packets h₁)).trans w.allocate_payloads.2

theorem World.executeAtomic_packets {target : BTransport} {call : Option (ℕ × Payload)}
    (h : w.executeAtomic packet s t target = .ok (call, delay, w')) : w'.packets = w.packets := by
  simp only [World.executeAtomic, World.bTransport] at h
  split_ifs at h <;>
    simp only [bind_eq_ok, pure_eq_ok, Except.ok.injEq, Prod.mk.injEq] at h
  · obtain ⟨-, -, -, -, rfl⟩ := h
    rfl
  · obtain ⟨-, -, rfl⟩ := h
    rfl
  · obtain ⟨-, -, -, -, rfl⟩ := h
    rfl

/-- The atomic path completes every packet that needs a response. -/
theorem World.recvAtomic_packets {target : BTransport} {call : Option (ℕ × Payload)}
    (h : w.recvAtomic packet target = .ok (call, delay, w')) :
    w'.packets packet = if (w.packets packet).cmd.needsResponse then
      (w.packets packet).makeResponse else w.packets packet := by
  simp only [World.recvAtomic, bind_eq_ok, pure_eq_ok, Except.ok.injEq, Prod.mk.injEq] at h
  obtain ⟨-, -, -, -, -, -, ⟨t, w₁⟩, hp, ⟨_, _, w₂⟩, hcall, w₃, hr, -, -, rfl⟩ := h
  have h₂ : w₂.packets = w.packets :=
    (World.executeAtomic_packets hcall).trans (World.prepare_packets hp)
  rw [World.release_packets hr]
  dsimp only
  split_ifs with hn hn' hn'
  · simp [World.setPacket, h₂]
  · simp_all
  · simp_all
  · rw [h₂]

/-- An error on the atomic path is not lost if the bus sets it, and gem5 expects no response. -/
theorem atomic_reported_iff (d : Downstream α) {p : Payload}
    (hreq : (w.packets packet).cmd.isResponse = false)
    (h : w.recvAtomic packet d.bTransport = .ok (some (s, p), delay, w')) :
    Reported (d.status s p 0) (d.bTransport s p 0).1.responseStatus
        ((w'.packets packet).cmd.isResponse = true) ↔
      (d.status s p 0).isError = false ∨ (d.routers s).toMem (w.packets packet).addr = false ∧
        (w.packets packet).cmd.needsResponse = false := by
  have haddr : p.address = (w.packets packet).addr := (Hands.atomic h).same.address
  have hcomp : (w'.packets packet).cmd.isResponse = (w.packets packet).cmd.needsResponse := by
    rw [World.recvAtomic_packets h]
    split_ifs with hn
    · exact hn.symm
    · simp [hreq, hn]
  by_cases hm : (d.routers s).toMem p.address = true
  · have hok : (d.bTransport s p 0).1.responseStatus = .ok := by
      simp [Downstream.bTransport, TxnRouter.bTransport, TxnRouter.setOk, hm]
    rw [hok, reported_ok]
    simp [← haddr, hm]
  · have hself : (d.bTransport s p 0).1.responseStatus = d.status s p 0 := by
      simp [Downstream.bTransport, TxnRouter.bTransport, Downstream.status, hm]
    rw [hself, reported_self, hcomp]
    simp [← haddr, hm]

/-! ## The timing path -/

namespace TxnRouter

variable {r r' : TxnRouter α} {x : α} {a : Answer α}

theorem nbTransportFw_payloads {ph : Phase} (h : r.nbTransportFw x ph delay = .ok r') :
    r'.payloads = r.payloads := by
  unfold nbTransportFw at h
  split_ifs at h
  cases h
  rfl

variable [DecidableEq α]

theorem calls_payloads {cs : List (Call α)} (h : r.calls cs = .ok r') :
    r'.payloads = r.payloads := by
  induction cs generalizing r with
  | nil => cases h; rfl
  | cons c cs ih =>
    simp only [calls, bind_eq_ok] at h
    obtain ⟨r₁, hc, h⟩ := h
    rw [ih h]
    unfold call at hc
    split at hc
    · simp only [bind_eq_ok] at hc
      obtain ⟨-, -, hc⟩ := hc
      exact (nbTransportFw_payloads hc :)
    · simp only [bind_eq_ok] at hc
      obtain ⟨-, -, hc⟩ := hc
      exact (nbTransportFw_payloads hc :)
    · cases hc

theorem sendResponse_payloads (h : r.sendResponse x a = .ok r') : r'.payloads = r.payloads := by
  simp only [sendResponse, bind_eq_ok, pure_eq_ok, Except.ok.injEq] at h
  obtain ⟨-, -, r₁, hc, rfl⟩ := h
  have hp : r₁.payloads = r.payloads := (calls_payloads hc :)
  cases a.reply.status <;> exact hp

/-- A router never hands an error of the memory back. -/
theorem memoryDone_status {m : Payload} (hx : r.process = some x) (h : r.memoryDone m a = .ok r') :
    (r'.payloads x).responseStatus = .ok := by
  have hset : (Function.update r.payloads x (setOk m) x).responseStatus = .ok := by simp [setOk]
  cases hrip : r.responseInProgress with
  | true =>
    simp only [memoryDone, hx, emit, hrip, if_true, bind_eq_ok, pure_eq_ok, Except.ok.injEq] at h
    obtain ⟨-, -, rfl⟩ := h
    exact hset
  | false =>
    cases htip : r.transactionInProgress with
    | none => simp [memoryDone, hx, emit, hrip, htip] at h
    | some y =>
      simp only [memoryDone, hx, emit, hrip, htip] at h
      rw [sendResponse_payloads h]
      exact hset

end TxnRouter

/-- No error on the timing path is reported, whatever the port does with the response. -/
theorem timing_reported_iff [DecidableEq α] {r r' : TxnRouter α} {x : α} {m : Payload}
    {a : Answer α} (hx : r.process = some x) (h : r.memoryDone m a = .ok r') (completed : Prop) :
    Reported m.responseStatus (r'.payloads x).responseStatus completed ↔
      m.responseStatus.isError = false := by
  rw [TxnRouter.memoryDone_status hx h, reported_ok]

/-! ## Two failing accesses -/

/-- Routers with a window from 0 to 4096, and a bus that maps nothing else. -/
def unmapped : Downstream ℕ where
  routers := fun _ => TxnRouter.smallRouter
  memory := fun _ p delay => ({ p with responseStatus := .ok }, delay)
  ports := [⟨0, 4095, by decide⟩]
  targets := fun _ p delay => ({ p with responseStatus := .ok }, delay)

/-- The bus knows no target for the read of `readWorld`. -/
theorem recvAtomic_unmapped : readWorld.recvAtomic 0 unmapped.bTransport =
    .ok (some (0, readPayload .incomplete 0 0), 0, readWorld.afterAtomic 0 unmapped.bTransport) :=
  rfl

/-- A router whose memory is at work on transaction 0. -/
def executing : TxnRouter ℕ :=
  { TxnRouter.smallRouter with transactionInProgress := some 0, process := some 0 }

/-- What a failing memory leaves. -/
def failed : Payload :=
  { address := 8, responseStatus := .genericError, refCount := 1, hasMm := true }

/-- The port of `readWorld` with its request channel blocked by a transaction of packet 0, when the
payload comes back from the router. -/
def respondWorld : World where
  port := {
    transactor := some 0
    transactorMulti := none
    helper := BlockingPacketHelper.init
      { socketNum := 1, blockingRequestMap := (∅ : TreeMap _ _).insert 0 (some 0) } 1 }
  packets := readWorld.packets
  payloads := fun _ => { TxnRouter.setOk failed with extension := some ⟨0, 0, 0⟩ }

/-- The event of the response. -/
def respondEvent : PayloadEvent := ⟨0, .beginResp, 0, 0⟩

theorem memoryDone_executing : ∃ r', executing.memoryDone failed ⟨[], ⟨.accepted, .beginResp, 0⟩⟩ =
    .ok r' ∧ respondWorld.payloads 0 = { r'.payloads 0 with extension := some ⟨0, 0, 0⟩ } :=
  ⟨_, rfl, rfl⟩

theorem pec_respondWorld : ∃ w', respondWorld.pec respondEvent {} = .ok w' := ⟨_, rfl⟩

/-! ## Both paths -/

/-- An error is reported on the atomic path exactly when the bus sets it for a packet without a
response, and never on the timing path. -/
theorem errors_reported_iff [DecidableEq α] (d : Downstream α) :
    (∀ (w w' : World) (packet : PacketPtr) (s delay : ℕ) (p : Payload),
      (w.packets packet).cmd.isResponse = false →
      w.recvAtomic packet d.bTransport = .ok (some (s, p), delay, w') →
      (Reported (d.status s p 0) (d.bTransport s p 0).1.responseStatus
          ((w'.packets packet).cmd.isResponse = true) ↔
        (d.status s p 0).isError = false ∨ (d.routers s).toMem (w.packets packet).addr = false ∧
          (w.packets packet).cmd.needsResponse = false)) ∧
    ∀ (r r' : TxnRouter α) (x : α) (m : Payload) (a : Answer α) (w w' : World) (e : PayloadEvent)
      (o : PecAnswers) (ext : Gem5Extension), r.process = some x → r.memoryDone m a = .ok r' →
      w.payloads e.t = { r'.payloads x with extension := some ext } → e.p = .beginResp →
      w.pec e o = .ok w' →
      (Reported m.responseStatus (r'.payloads x).responseStatus
          (Completes w w' ext.serial ext.packet) ↔ m.responseStatus.isError = false) :=
  ⟨fun _ _ _ _ _ _ hreq h => atomic_reported_iff d hreq h,
    fun _ _ _ _ _ _ _ _ _ _ hx h _ _ _ => timing_reported_iff hx h _⟩

/-- The read that no target answers, and a response whose memory has failed. -/
theorem errors_reported_iff_failing :
    (Reported (unmapped.status 0 (readPayload .incomplete 0 0) 0)
        (unmapped.bTransport 0 (readPayload .incomplete 0 0) 0).1.responseStatus
        (((readWorld.afterAtomic 0 unmapped.bTransport).packets 0).cmd.isResponse = true) ↔
      (unmapped.status 0 (readPayload .incomplete 0 0) 0).isError = false ∨
        (unmapped.routers 0).toMem (readWorld.packets 0).addr = false ∧
          (readWorld.packets 0).cmd.needsResponse = false) ∧
    ∃ (r' : TxnRouter ℕ) (w' : World),
      (Reported failed.responseStatus (r'.payloads 0).responseStatus
          (Completes respondWorld w' 0 0) ↔
        failed.responseStatus.isError = false) := by
  obtain ⟨r', hr, hp⟩ := memoryDone_executing
  obtain ⟨w', hw⟩ := pec_respondWorld
  exact ⟨(errors_reported_iff unmapped).1 _ _ _ _ _ _ rfl recvAtomic_unmapped, r', w',
    (errors_reported_iff unmapped).2 _ _ _ _ _ _ _ _ _ ⟨0, 0, 0⟩ rfl hr hp rfl hw⟩

/-- The address error is passed back, and the port makes a response all the same. -/
theorem not_errors_reported : ¬ ∀ (d : Downstream ℕ) (w w' : World) (packet : PacketPtr)
    (s delay : ℕ) (p : Payload), (w.packets packet).cmd.isResponse = false →
    w.recvAtomic packet d.bTransport = .ok (some (s, p), delay, w') →
    Reported (d.status s p 0) (d.bTransport s p 0).1.responseStatus
      ((w'.packets packet).cmd.isResponse = true) := by
  intro h
  exact ((h unmapped _ _ _ _ _ _ rfl recvAtomic_unmapped) rfl).2 rfl

end Gem5Wrapper
