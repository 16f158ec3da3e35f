import Gem5Wrapper.Calls
import Gem5Wrapper.PortSide

/-!
# Rules for the calls of the port

A call of the port is made of small steps: it shows something, changes the fields of the port,
releases a payload, makes the response of a packet, and lets gem5 make requests, which are calls
again. What all of these keep is kept by each call, however the calls nest.

`CallRule` is such a relation between the world before and after, and `StepRule` one that acts keep
as well. A fault on the way says that the environment broke off only if gem5 made a request.
-/

namespace Gem5Wrapper

open FaultMachine

namespace World

/-- What every small step of a call keeps. -/
structure CallRule (R : World → World → Prop) : Prop where
  refl : ∀ w, R w w
  trans : ∀ w w' w'', R w w' → R w' w'' → R w w''
  emit : ∀ w o, R w (w.emit o)
  port : ∀ (w : World) q, R w { w with port := q }
  release : ∀ w t w', w.release t = .ok w' → R w w'
  makeResponse : ∀ (w : World) p, R w (w.setPacket p (w.packets p).makeResponse)
  request : ∀ w r b w', w.gem5Request r = .ok (b, w') → R w w'

/-- What every act but the passing of time keeps. -/
structure StepRule (R : World → World → Prop) : Prop extends CallRule R where
  catchup : ∀ w, R w w.catchup
  events : ∀ (w : World) l, R w { w with events := l }
  acquire : ∀ w t w', w.acquire t = .ok w' → R w w'

variable {R : World → World → Prop} {w w' : World} {packet : PacketPtr} {t : Ptr}
  {e : PayloadEvent} {x : Gem5Extension}

theorem ends_updateBlockingMap (h : BlockingPacketHelper) (s : ℕ) (v : Option Ptr) (ty : PktType) :
    Ends (fun _ => True) (fun f => ¬ f.Outside) (h.updateBlockingMap s v ty) := by
  refine .check (fun _ => id) fun _ => ?_
  dsimp only
  split_ifs <;> first | trivial | exact id

theorem ends_getExtension (w : World) (t : Ptr) :
    Ends (fun _ => True) (fun f => ¬ f.Outside) (w.getExtension t) := by
  unfold getExtension
  split
  · trivial
  · exact id

theorem ends_release (w : World) (t : Ptr) :
    Ends (fun _ => True) (fun f => ¬ f.Outside) (w.release t) := by
  refine .check (fun _ => id) fun _ => ?_
  dsimp only
  split_ifs <;> trivial

namespace CallRule

section

variable (hR : CallRule R)

include hR

/-- A call that goes on after another one. -/
theorem ends {B : Fault → Prop} {r : Except Fault World} (h : R w w') (hr : Ends (R w') B r) :
    Ends (R w) B r :=
  hr.mono (fun u _ h' => hR.trans w w' u h h') fun _ _ => id

theorem nbTransportFw (w : World) (s : ℕ) (o : ℕ → Obs) :
    Ends (R w) (fun f => ¬ f.Outside) (w.nbTransportFw s o) := by
  unfold World.nbTransportFw
  split
  · exact hR.emit ..
  · exact .check (fun _ => id) fun _ => hR.emit ..
  · exact id

theorem sendEndResp (w : World) (t : Ptr) (x : Gem5Extension) :
    Ends (R w) (fun f => ¬ f.Outside) (w.sendEndResp t x) := by
  refine (hR.nbTransportFw w _ _).bind fun w' _ hw => ?_
  have hreleased : Ends (R (w'.emit (.release x.serial t))) (fun f => ¬ f.Outside)
      ((w'.emit (.release x.serial t)).release t) :=
    (ends_release _ t).mono (fun u hu _ => hR.release _ t u hu) fun _ _ => id
  exact hR.ends (hR.trans _ _ _ hw (hR.emit w' _)) hreleased

/-! ## Requests from inside a call -/

theorem gem5Requests (w : World) (rs : List Request) :
    Ends (R w) (fun f => rs = [] → ¬ f.Outside) (w.gem5Requests rs) := by
  induction rs generalizing w with
  | nil => exact hR.refl w
  | cons r rs ih =>
    unfold World.gem5Requests
    cases hr : w.gem5Request r with
    | error f => exact fun hn => absurd hn (by simp)
    | ok u =>
      refine hR.ends (hR.request w r u.1 u.2 hr) ((ih u.2).mono (fun _ _ h => h) fun f _ _ hn => ?_)
      cases hn

theorem sendTimingResp (w : World) (k : ℕ) (a : RespAnswer) :
    Ends (fun r => R w r.2) (fun f => a.requests = [] → ¬ f.Outside)
      (w.sendTimingResp k packet a) :=
  (hR.gem5Requests _ a.requests).bind fun _ _ hw => hR.trans _ _ _ (hR.emit w _) hw

/-! ## `pec` -/

theorem pecRequest (w : World) (e : PayloadEvent) (rs : List Request) :
    Ends (R w) (fun f => rs = [] → ¬ f.Outside) (w.pecRequest e rs) := by
  have hretry : ∀ u : World, R w u →
      Ends (R w) (fun f => rs = [] → ¬ f.Outside) (u.sendRetryReq e.txn rs) :=
    fun u hu => hR.ends (hR.trans _ _ _ hu (hR.emit u _)) (hR.gem5Requests ..)
  have hports : ∀ q q' : SCSlavePort, R w { { w with port := q } with port := q' } :=
    fun q q' => hR.trans _ _ _ (hR.port w q) (hR.port _ q')
  unfold World.pecRequest
  dsimp only
  split_ifs
  · exact hretry _ (hports _ _)
  · exact hR.port w _
  · refine .check (fun _ _ => id) fun _ => ?_
    refine ((ends_getExtension w _).mono (fun _ _ h => h) fun _ _ h _ => h).bind fun x _ _ => ?_
    refine ((ends_updateBlockingMap ..).mono (fun _ _ h => h) fun _ _ h _ => h).bind fun h _ _ => ?_
    refine Ends.bind (G := fun _ => True) ?_ fun retry _ _ => ?_
    · refine .check (fun _ _ => id) fun _ => ?_
      split
      · trivial
      · exact fun _ => id
    split_ifs
    · refine Ends.bind (G := fun _ => True) (.check (fun _ _ => id) fun _ => trivial)
        fun _ _ _ => ?_
      exact hretry _ (hports _ _)
    · exact hR.port w _
  · exact hR.refl w

theorem sendResponse (w : World) (x : Gem5Extension) (a : RespAnswer) :
    Ends (fun r => R w r.2) (fun f => a.requests = [] → ¬ f.Outside) (w.sendResponse x a) := by
  have hsent : ∀ u : World, R w u → Ends (fun r => R w r.2)
      (fun f => a.requests = [] → ¬ f.Outside)
      (if (u.packets x.packet).cmd.isResponse then
        u.sendTimingResp x.serial x.packet a >>= fun r => pure (!r.1, r.2)
      else pure (false, u)) := by
    intro u hu
    split_ifs
    · exact (hR.sendTimingResp u _ a).bind fun r _ hr => hR.trans _ _ _ hu hr
    · exact hu
  unfold World.sendResponse
  refine hsent _ ?_
  split_ifs
  · exact hR.trans _ _ _ (hR.makeResponse w _) (hR.emit ..)
  · exact hR.refl w

theorem blockResponse (w : World) (t : Ptr) (s : ℕ) :
    Ends (R w) (fun f => ¬ f.Outside) (w.blockResponse t s) := by
  unfold World.blockResponse
  split_ifs
  · exact hR.port w _
  · exact (ends_updateBlockingMap ..).bind fun _ _ _ => hR.port w _

theorem pecResponse (w : World) (e : PayloadEvent) (a : RespAnswer) :
    Ends (R w) (fun f => a.requests = [] → ¬ f.Outside) (w.pecResponse e a) := by
  unfold World.pecResponse
  split_ifs
  · refine .check (fun _ _ => id) fun _ => ?_
    refine ((ends_getExtension w _).mono (fun _ _ h => h) fun _ _ h _ => h).bind fun x _ _ => ?_
    refine Ends.bind (G := fun _ => True) ?_ fun _ _ _ => ?_
    · unfold assertNotBlocked
      split_ifs
      · exact ends_check.2 ⟨fun _ => trivial, fun _ _ => id⟩
      · refine Ends.bind (G := fun _ => True) ?_ fun _ _ _ =>
          ends_check.2 ⟨fun _ => trivial, fun _ _ => id⟩
        refine .check (fun _ _ => id) fun _ => ?_
        split
        · trivial
        · exact fun _ => id
    refine (hR.sendResponse w x a).bind fun r _ hr => ?_
    dsimp only
    split_ifs
    · exact hR.ends hr ((hR.blockResponse ..).mono (fun _ _ h => h) fun _ _ h _ => h)
    · exact hR.ends hr ((hR.sendEndResp ..).mono (fun _ _ h => h) fun _ _ h _ => h)
  · exact hR.refl w

/-- A callback of the port leaves its mark in the history, and goes on from there. -/
theorem pec (w : World) (e : PayloadEvent) (o : PecAnswers) :
    Ends (R (w.emit (.pec e.txn e.p)))
      (fun f => o.retry = [] → o.resp.requests = [] → ¬ f.Outside) (w.pec e o) :=
  ((hR.pecRequest ..).mono (fun _ _ h => h) fun _ _ h hr _ => h hr).bind fun _ _ hw =>
    hR.ends hw ((hR.pecResponse ..).mono (fun _ _ h => h) fun _ _ h _ hr => h hr)

/-! ## `recvRespRetry` -/

theorem takeResponse (w : World) :
    Ends (fun r => ∀ y ∈ r, R w y.2.2) (fun f => ¬ f.Outside) w.takeResponse := by
  unfold World.takeResponse
  split
  · refine (ends_getExtension ..).bind fun x _ _ y hy => ?_
    cases hy
    exact hR.port w _
  · refine (ends_getExtension ..).bind fun x _ _ => ?_
    refine (ends_updateBlockingMap ..).bind fun h _ _ y hy => ?_
    cases hy
    exact hR.port w _
  · intro y hy
    cases hy

theorem respRetryLoop (w : World) (answers : List RespAnswer) :
    Ends (R w) (fun _ => True) (w.respRetryLoop answers) := by
  induction answers generalizing w with
  | nil =>
    unfold World.respRetryLoop
    refine ((hR.takeResponse w).mono (fun _ _ h => h) fun _ _ _ => trivial).bind fun r _ hr => ?_
    cases r with
    | none => exact hR.refl w
    | some y => trivial
  | cons a answers ih =>
    unfold World.respRetryLoop
    refine ((hR.takeResponse w).mono (fun _ _ h => h) fun _ _ _ => trivial).bind fun r _ hr => ?_
    cases r with
    | none => exact hR.refl w
    | some y =>
      have hy : R w y.2.2 := hr y rfl
      refine ((hR.sendTimingResp y.2.2 _ a).mono (fun _ _ h => h) fun _ _ _ => trivial).bind
        fun r _ hw => ?_
      refine .check (fun _ => trivial) fun _ => ?_
      refine ((hR.sendEndResp ..).mono (fun _ _ h => h) fun _ _ _ => trivial).bind
        fun w' _ hw' => ?_
      exact hR.ends (hR.trans _ _ _ (hR.trans _ _ _ hy hw) hw') (ih w')

end

end CallRule

/-! ## Acts -/

/-- **What the small steps keep, each act but the passing of time keeps.** -/
theorem StepRule.step (hR : StepRule R) {a : Gem5Wrapper.Act} (h : w.step a = .ok w')
    (ha : ∀ d, a ≠ .advance d) : R w w' := by
  have hcall := hR.toCallRule
  cases a with
  | recvTimingReq r =>
    obtain ⟨⟨b, u⟩, hu, h⟩ := bind_eq_ok.1 h
    cases h
    exact hR.trans _ _ _ (hR.catchup w) (hR.request _ r b w' hu)
  | service o =>
    simp only [World.step] at h
    split at h
    · cases h
    · rename_i e q _
      obtain ⟨-, -, h⟩ := bind_eq_ok.1 h
      have hpec := (hcall.pec _ e o).of_eq_ok h
      refine hR.trans _ _ _ (hR.catchup w) (hR.trans _ _ _ (hR.events _ q) ?_)
      exact hR.trans _ _ _ (hR.emit ..) hpec
  | recvRespRetry answers =>
    obtain ⟨-, -, h⟩ := bind_eq_ok.1 h
    have hloop := (hcall.respRetryLoop _ answers).of_eq_ok h
    exact hR.trans _ _ _ (hR.catchup w) (hR.trans _ _ _ (hR.emit ..) hloop)
  | nbTransportBw k t ph delay =>
    cases h
    exact hR.trans _ _ _ (hR.emit w _) (hR.events ..)
  | targetAcquire k t => exact hR.trans _ _ _ (hR.emit w _) (hR.acquire _ t _ h)
  | targetRelease k t => exact hR.trans _ _ _ (hR.emit w _) (hR.release _ t _ h)
  | downstreamResponse p =>
    obtain ⟨-, -, h⟩ := bind_eq_ok.1 h
    cases h
    exact hR.makeResponse w p
  | advance d => exact absurd rfl (ha d)

end World

end Gem5Wrapper
