import Gem5Wrapper.Callbacks
import Gem5Wrapper.HostedQueue

/-!
# The event loop keeps the time of the closed system

The queue of the module has the events of the port in their order (`Queued`), and inside `simulate`
services them in time (`InTime`). So each step of a hosted system is a few steps of the closed
system, and what holds of every closed system holds of every hosted one.
-/

namespace Gem5Wrapper

open FaultMachine
open Function (update)

/-! ## What the port does to them -/

namespace World

variable {w w' : World} {packet : PacketPtr} {s : ℕ} {t : Ptr}

/-- Nothing is scheduled unless a target ends the request phase at once. -/
def Quiet (w w' : World) : Prop :=
  ∃ l, w'.trace = l ++ w.trace ∧
    ((∀ k t s a d r, .beginReq k t s a d r ∈ l → r.status = .accepted) → w'.events = w.events)

theorem quiet_of_events (h : w.Goes w') (he : w'.events = w.events) : w.Quiet w' := by
  obtain ⟨l, hl⟩ := h.history
  exact ⟨l, hl.symm, fun _ => he⟩

theorem release_events (h : w.release t = .ok w') : w'.events = w.events := by
  obtain ⟨_, _, h⟩ := bind_eq_ok.1 h
  dsimp only at h
  split_ifs at h <;> cases h <;> rfl

theorem sendBeginReq_events {reply : Reply} (hr : reply.status = .accepted)
    (h : w.sendBeginReq packet s reply = .ok w') : w'.events = w.events := by
  rw [sendBeginReq_eq] at h
  obtain ⟨⟨t, w₁⟩, hp, h⟩ := bind_eq_ok.1 h
  obtain ⟨w₂, hw, h⟩ := bind_eq_ok.1 h
  have hprep : w₁.events = w.events := ((prepare_frame hp).2 :)
  have hfw : w₂.events = w₁.events := by
    rw [nbTransportFw_eq] at hw
    obtain ⟨_, _, hw⟩ := bind_eq_ok.1 hw
    cases hw
    rfl
  have hreply : w'.events = w₂.events := by
    simp only [handleReply, hr] at h
    obtain ⟨_, _, h⟩ := bind_eq_ok.1 h
    split_ifs at h
    · cases h
      rfl
    · obtain ⟨_, _, h⟩ := bind_eq_ok.1 h
      cases h
      rfl
  exact hreply.trans (hfw.trans hprep)

theorem gem5Request_quiet {r : Request} {b : Bool} (h : w.gem5Request r = .ok (b, w')) :
    w.Quiet w' := by
  have hgoes := gem5Request_goes h
  obtain ⟨-, -, h⟩ := bind_eq_ok.1 h
  obtain ⟨-, -, h⟩ := bind_eq_ok.1 h
  obtain ⟨k, port, -, -, -, rfl⟩ | ⟨s, -, h⟩ := recvTimingReq_cases h
  · exact quiet_of_events hgoes rfl
  · obtain ⟨t, a, d, s', l, -, -, htr⟩ := sendBeginReq_trace h
    refine ⟨l ++ [.beginReq w.serial t s' a d r.reply, .allocate w.serial
      (w.setPacket r.packet r.content).allocate.1 r.packet
      ((w.setPacket r.packet r.content).packets r.packet).cmd.needsResponse],
      by rw [htr]; simp only [List.append_assoc]; rfl, fun hl => ?_⟩
    exact (sendBeginReq_events (hl _ _ _ _ _ _ (List.mem_append_right _ (.head _))) h :)

theorem quiet_callRule : CallRule Quiet where
  refl w := ⟨[], rfl, fun _ => rfl⟩
  trans w w' w'' h h' := by
    obtain ⟨l, hl, he⟩ := h
    obtain ⟨l', hl', he'⟩ := h'
    refine ⟨l' ++ l, by rw [hl', hl, List.append_assoc], fun ha => ?_⟩
    exact (he' fun k t s a d r hm => ha k t s a d r (List.mem_append_left _ hm)).trans
      (he fun k t s a d r hm => ha k t s a d r (List.mem_append_right _ hm))
  emit w o := ⟨[o], rfl, fun _ => rfl⟩
  port _ _ := ⟨[], rfl, fun _ => rfl⟩
  release _ _ _ h := quiet_of_events (release_goes h) (release_events h)
  makeResponse _ _ := ⟨[], rfl, fun _ => rfl⟩
  request _ _ _ _ h := gem5Request_quiet h

theorem Quiet.events_eq (h : w.Quiet w') (ha : AllAccepted w'.trace) : w'.events = w.events := by
  obtain ⟨l, hl, he⟩ := h
  exact he fun k t s a d r hm => ha k t s a d r (hl ▸ List.mem_append_left _ hm)

end World

/-! ## Steps of the closed system -/

namespace Hosted

open ClosedSystem (Obeyed Ok)

variable {c : Wiring} {y₀ y y' : ClosedSystem} {cs : List Call} {e : PayloadEvent}
  {q : List PayloadEvent} {o : PecAnswers} {h : Hosted}

/-- A call of gem5 is an act of the closed system. -/
theorem call_eq (y : ClosedSystem) (b : Call) : call y y.port.now b = y.step b.act := by
  cases b with
  | recvTimingReq r =>
    show (_ >>= _) = ((_ >>= _) >>= _)
    rw [bind_assoc]
    rfl
  | recvRespRetry answers => rfl

/-- So is the first event of the port, when it is due. -/
theorem process_eq (he : y.port.events = e :: q) (ht : e.tick = y.port.now) :
    process y y.port.now e o = y.step (.service o) := by
  have hw : y.port.step (.service o) = { y.port.catchup with events := q }.pec e o := by
    simp only [World.step, he]
    rw [check_pos ht]
    rfl
  show (_ >>= _) = (_ >>= _)
  rw [hw, he, List.erase_cons_head]
  rfl

/-- The world of the port goes on, and the calls it has shown are made. -/
theorem world_of_shows {w : World} (hs : shows y w = .ok y') : y'.port = w := by
  obtain ⟨R, _, hs⟩ := bind_eq_ok.1 hs
  cases hs
  rfl

theorem Call.quiet {b : Call} (hs : call y y.port.now b = .ok y') :
    y.port.catchup.Goes y'.port ∧ y.port.catchup.Quiet y'.port := by
  cases b with
  | recvTimingReq r =>
    obtain ⟨⟨_, w⟩, hw, hs⟩ := bind_eq_ok.1 hs
    obtain rfl := world_of_shows hs
    exact ⟨World.gem5Request_goes hw, World.gem5Request_quiet hw⟩
  | recvRespRetry answers =>
    obtain ⟨w, hw, hs⟩ := bind_eq_ok.1 hs
    obtain rfl := world_of_shows hs
    obtain ⟨_, _, hw⟩ := bind_eq_ok.1 hw
    have hgoes := (World.goes_stepRule.toCallRule.respRetryLoop _ answers).of_eq_ok hw
    have hquiet := (World.quiet_callRule.respRetryLoop _ answers).of_eq_ok hw
    exact ⟨.trans (World.goes_emit ..) hgoes,
      World.quiet_callRule.trans _ _ _ (World.quiet_callRule.emit ..) hquiet⟩

/-- Calls of gem5 take no time and leave the scheduled events alone. -/
theorem calls_ends (hok : ∀ y, Run ClosedSystem.step Obeyed y₀ y → Ok c y)
    (hr : Run ClosedSystem.step Obeyed y₀ y) (ho : CallsObeyed y y.port.now cs) :
    Ends (fun y' => Run ClosedSystem.step Obeyed y₀ y' ∧ y'.port.now = y.port.now ∧
      y'.port.events = y.port.events) Fault.Outside (calls y y.port.now cs) := by
  induction cs generalizing y with
  | nil => exact ⟨hr, rfl, rfl⟩
  | cons b cs ih =>
    obtain ⟨hb, hcs⟩ := ho
    have hends : Ends (fun _ => True) Fault.Outside (call y y.port.now b) := by
      rw [call_eq]
      exact ((hok y hr).step_ends hb).mono (fun _ _ _ => trivial) fun _ _ => id
    refine hends.bind fun y₁ hs _ => ?_
    have hr₁ : Run ClosedSystem.step Obeyed y₀ y₁ := hr.snoc hb ((call_eq y b).symm.trans hs)
    obtain ⟨hgoes, hquiet⟩ := Call.quiet hs
    have hall := (hok y₁ hr₁).joint.port.accepted
    rw [World.trace_view] at hall
    rw [hs] at hcs
    have hnow : y₁.port.now = y.port.now := hgoes.now
    have hev : y₁.port.events = y.port.events := hquiet.events_eq hall
    rw [← hnow, ← hev]
    exact ih hr₁ (hnow ▸ hcs)

/-- `pec` takes no time and leaves the events behind the first alone. -/
theorem process_ends (hok : ∀ y, Run ClosedSystem.step Obeyed y₀ y → Ok c y)
    (hr : Run ClosedSystem.step Obeyed y₀ y) (ho : y.Obeyed (.service o))
    (he : y.port.events = e :: q) (ht : e.tick = y.port.now) :
    Ends (fun y' => Run ClosedSystem.step Obeyed y₀ y' ∧ y'.port.now = y.port.now ∧
      y'.port.events = q) Fault.Outside (process y y.port.now e o) := by
  have hstep := process_eq (o := o) he ht
  have hends := (hok y hr).step_ends ho
  rw [← hstep] at hends
  refine hends.mono (fun y' hs hok' => ?_) fun _ _ => id
  have hr' : Run ClosedSystem.step Obeyed y₀ y' := hr.snoc ho (hstep.symm.trans hs)
  obtain ⟨w, hw, hs⟩ := bind_eq_ok.1 hs
  obtain rfl := world_of_shows hs
  have hgoes := (World.goes_stepRule.toCallRule.pec _ e o).of_eq_ok hw
  have hquiet := (World.quiet_callRule.pec _ e o).of_eq_ok hw
  have hall := hok'.joint.port.accepted
  rw [World.trace_view] at hall
  refine ⟨hr', hgoes.now, (hquiet.events_eq hall).trans ?_⟩
  show y.port.events.erase e = q
  rw [he, List.erase_cons_head]

theorem backward_events {w w' : World} {b : TxnRouter.Obs Transaction}
    (hs : ClosedSystem.backward w b = .ok w') : w'.events =
      (created w.now b).toList.foldr (TimedQueue.insert PayloadEvent.tick) w.events := by
  cases b with
  | acquire x =>
    obtain ⟨_, _, hs⟩ := bind_eq_ok.1 hs
    cases hs
    rfl
  | release x => exact (World.release_events hs :)
  | _ =>
    cases hs
    rfl

/-- The phases that a router sends are scheduled in their order. -/
theorem backwards_events {w w' : World} {t : List (TxnRouter.Obs Transaction)}
    (hs : ClosedSystem.backwards w t = .ok w') : w'.events =
      (t.filterMap (created w.now)).foldr (TimedQueue.insert PayloadEvent.tick) w.events := by
  induction t generalizing w' with
  | nil =>
    cases hs
    rfl
  | cons b t ih =>
    obtain ⟨w₁, h₁, h₂⟩ := bind_eq_ok.1 hs
    rw [backward_events h₂, ih h₁, (ClosedSystem.backwards_shown h₁).now, List.filterMap_cons]
    cases created w.now b <;> rfl

theorem le_tick_of_created {now : ℕ} {b : TxnRouter.Obs Transaction} (hb : created now b = some e) :
    now ≤ e.tick := by
  cases b <;> cases hb <;> exact Nat.le_add_right ..

/-- A callback takes no time and adds the events that it creates. -/
theorem callback_events {a : ClosedSystem.Act} {s : ℕ} (ha : routerOf a = some s)
    (hs : y.step a = .ok y') : y'.port.now = y.port.now ∧
      y'.port.events = (createdBy y y' s).foldl (fun l e => TimedQueue.insert PayloadEvent.tick e l)
        y.port.events ∧
      ∀ e ∈ createdBy y y' s, y.port.now ≤ e.tick := by
  obtain ⟨b, hb⟩ : ∃ b, y.step a = y.routerStep s b := by
    cases a <;> cases ha <;> exact ⟨_, rfl⟩
  rw [hb] at hs
  obtain ⟨r, _, hs⟩ := bind_eq_ok.1 hs
  obtain ⟨w, hw, hs⟩ := bind_eq_ok.1 hs
  cases hs
  have hnew : createdBy y ⟨w, update y.routers s r⟩ s =
      ((ClosedSystem.newer (y.routers s).trace r.trace).filterMap
        (created y.port.now)).reverse := by
    unfold createdBy
    dsimp only
    rw [Function.update_self]
  refine ⟨(ClosedSystem.backwards_shown hw).now, ?_, fun e he => ?_⟩
  · rw [hnew, List.foldl_reverse]
    exact backwards_events hw
  · rw [hnew, List.mem_reverse] at he
    obtain ⟨b, _, hb⟩ := List.mem_filterMap.1 he
    exact le_tick_of_created hb

/-! ## Steps of the hosted system -/

/-- A hosted system in the middle of a run. -/
structure Hosts (y₀ : ClosedSystem) (h : Hosted) : Prop where
  time : h.module.InTime
  run : Run ClosedSystem.step Obeyed y₀ h.system
  now : h.system.port.now = h.module.now
  queued : Queued h.event h.module.queue h.system.port.events

/-- What the module reports is its own, and inside `simulate` no fatal on gem5 time. -/
def Reports (h : Hosted) (f : Fault) : Prop :=
  f.Outside ∨ (∃ a, h.module.fault a = some f) ∧ h.module.Reports f

theorem Hosts.module_ends (hi : Hosts y₀ h) {a : Module.Act} (ha : h.module.Timely a) :
    Ends Module.InTime h.Reports (h.module.step a) :=
  (Module.step_ends hi.time ha).mono (fun _ _ hm => hm) fun f hf hr =>
    .inr ⟨⟨a, by rw [Module.fault, hf]⟩, hr⟩

/-- The module does something of its own. -/
theorem Hosts.module_step (hi : Hosts y₀ h) {a : Module.Act} (ha : h.module.Timely a)
    (hadv : ∀ d, a ≠ .advance d) (hq : ∀ m, h.module.step a = .ok m →
      Queued h.event m.queue h.system.port.events) :
    Ends (fun m => Hosts y₀ { h with module := m }) h.Reports (h.module.step a) :=
  (hi.module_ends ha).mono (fun m hm ht => ⟨ht, hi.run,
    hi.now.trans (Module.step_now hm hadv).symm, hq m hm⟩) fun _ _ => id

theorem Hosts.turn_ends (hok : ∀ y, Run ClosedSystem.step Obeyed y₀ y → Ok c y)
    (hi : Hosts y₀ h) {os : List QueueOp} (hp : h.Promised (.turn cs o os)) :
    Ends (Hosts y₀) h.Reports (h.step (.turn cs o os)) := by
  obtain ⟨hspared, hp⟩ := hp
  refine (hi.module_ends (a := .turn os) trivial).bind fun m hm ht => ?_
  have hnow := Module.step_now hm fun d => by simp
  obtain ⟨_, _, hturn⟩ := bind_eq_ok.1 hm
  obtain ⟨hdue, hq⟩ | ⟨g, hdue, htick, hnone, hsome⟩ := queued_turn hturn hspared hi.queued
  · rw [hdue]
    refine .check (fun _ => .inl trivial) fun _ => ?_
    exact ⟨ht, hi.run, hi.now.trans hnow.symm, hq⟩
  rw [hdue] at hp ⊢
  obtain ⟨hcalls, hservice⟩ := hp g rfl
  dsimp only
  rw [htick, ← hi.now] at hcalls ⊢
  cases hg : h.event g.id with
  | none =>
    refine ((calls_ends hok hi.run (hcalls hg)).mono (fun _ _ hy => hy) fun _ _ => .inl).bind
      fun y _ ⟨hr, hy, hev⟩ => ?_
    refine ⟨ht, hr, hy.trans (hi.now.trans hnow.symm), ?_⟩
    show Queued h.event m.queue y.port.events
    rw [hev]
    exact hnone hg
  | some e =>
    have hp := hservice (by simp [hg])
    obtain ⟨hdue, hl, hq⟩ := hsome e hg
    refine .check (fun _ => .inl trivial) fun _ => ?_
    have hends := process_ends hok hi.run hp hl (hdue.trans hi.now.symm)
    refine (hends.mono (fun _ _ hy => hy) fun _ _ => .inl).bind fun y _ ⟨hr, hy, hev⟩ => ?_
    refine ⟨ht, hr, hy.trans (hi.now.trans hnow.symm), ?_⟩
    show Queued (update h.event g.id none) m.queue y.port.events
    rw [hev]
    exact hq

theorem Hosts.callback_ends (hok : ∀ y, Run ClosedSystem.step Obeyed y₀ y → Ok c y)
    (hi : Hosts y₀ h) {a : ClosedSystem.Act} {ids : List ℕ} :
    Ends (Hosts y₀) h.Reports (h.step (.callback a ids)) := by
  unfold Hosted.step
  dsimp only
  split
  · exact .inl trivial
  rename_i s ha
  have hobeyed : h.system.Obeyed a := by
    cases a <;> cases ha <;> exact ⟨fun r hr => (by cases hr), trivial⟩
  refine (((hok _ hi.run).step_ends hobeyed).mono (fun _ _ hy => hy) fun _ _ => .inl).bind
    fun y hs hy => ?_
  obtain ⟨hnow, hev, htick⟩ := callback_events ha hs
  refine .check (fun _ => .inl trivial) fun hnew => ?_
  obtain ⟨hlen, -, -⟩ := hnew
  have hfst : (ids.zip (createdBy h.system y s)).map Prod.fst = ids :=
    List.map_fst_zip hlen.le
  have hsnd : (ids.zip (createdBy h.system y s)).map Prod.snd = createdBy h.system y s :=
    List.map_snd_zip hlen.ge
  have hdue : ∀ p ∈ ids.zip (createdBy h.system y s), h.module.now ≤ p.2.tick := by
    intro p hp
    rw [← hi.now]
    exact htick p.2 (hsnd ▸ List.mem_map_of_mem hp)
  refine (hi.module_ends (timely_schedules hdue)).bind fun m hm ht => ?_
  have hmnow := Module.step_now hm fun d => by simp
  refine ⟨ht, hi.run.snoc hobeyed hs, (hnow.trans hi.now).trans hmnow.symm, ?_⟩
  obtain ⟨_, _, hm⟩ := bind_eq_ok.1 hm
  have hq := queued_schedules hm hi.time.sorted hi.queued
  have hsame : y.port.events = (ids.zip (createdBy h.system y s)).foldl
      (fun l p => TimedQueue.insert PayloadEvent.tick p.2 l) h.system.port.events := by
    rw [hev, ← hsnd, List.foldl_map, hsnd]
  show Queued _ m.queue y.port.events
  rw [hsame]
  exact hq

theorem Hosts.process_ends (hok : ∀ y, Run ClosedSystem.step Obeyed y₀ y → Ok c y)
    (hi : Hosts y₀ h) {os : List QueueOp} (hp : h.Promised (.process cs os)) :
    Ends (Hosts y₀) h.Reports (h.step (.process cs os)) := by
  obtain ⟨hspared, hcalls, htimely⟩ := hp
  refine .check (fun _ => .inl trivial) fun _ => ?_
  refine (hi.module_ends htimely).bind fun m hm ht => ?_
  have hnow := Module.step_now hm fun d => by simp
  rw [← hi.now] at hcalls ⊢
  refine ((calls_ends hok hi.run hcalls).mono (fun _ _ hy => hy) fun _ _ => .inl).bind
    fun y _ ⟨hr, hy, hev⟩ => ?_
  refine ⟨ht, hr, hy.trans (hi.now.trans hnow.symm), ?_⟩
  show Queued h.event m.queue y.port.events
  rw [hev]
  obtain ⟨_, _, hm⟩ := bind_eq_ok.1 hm
  exact queued_ops hm hspared hi.queued

theorem Hosts.own_ends (hi : Hosts y₀ h) {a : Module.Act} (hp : h.Promised (.module a)) :
    Ends (Hosts y₀) h.Reports (h.step (.module a)) := by
  obtain ⟨htimely, hspared⟩ := hp
  have hgo : (∀ d, a ≠ .advance d) → (∀ m, h.module.step a = .ok m →
      Queued h.event m.queue h.system.port.events) →
      Ends (Hosts y₀) h.Reports (h.module.step a >>= fun m => pure { h with module := m }) :=
    fun hadv hq => (hi.module_step htimely hadv hq).bind fun _ _ hm => hm
  cases a with
  | turn os => exact .inl trivial
  | process os => exact .inl trivial
  | advance d => exact .inl trivial
  | eventLoop o =>
    refine hgo (fun d => by simp) fun m hm => ?_
    obtain ⟨_, _, hm⟩ := bind_eq_ok.1 hm
    exact (queued_eventLoop hm hspared hi.queued :)
  | serviceExternalEvent o =>
    refine hgo (fun d => by simp) fun m hm => ?_
    obtain ⟨_, _, hm⟩ := bind_eq_ok.1 hm
    exact (queued_serviceExternalEvent hm hspared hi.queued :)
  | resume =>
    refine hgo (fun d => by simp) fun m hm => ?_
    obtain ⟨_, _, hm⟩ := bind_eq_ok.1 hm
    exact queued_resume hm hspared hi.queued
  | simulate numCycles limit =>
    refine hgo (fun d => by simp) fun m hm => ?_
    obtain ⟨_, _, hm⟩ := bind_eq_ok.1 hm
    exact queued_simulate hm hi.queued
  | signal b =>
    refine hgo (fun d => by simp) fun m hm => ?_
    cases hm
    exact hi.queued
  | delta =>
    refine hgo (fun d => by simp) fun m hm => ?_
    obtain ⟨_, _, hm⟩ := bind_eq_ok.1 hm
    cases hm
    exact hi.queued

/-- The module lets no time pass over an event of the port. -/
theorem Hosts.advance_ends (hi : Hosts y₀ h) {d : ℕ} (hp : h.Promised (.advance d)) :
    Ends (Hosts y₀) h.Reports (h.step (.advance d)) := by
  refine .check (fun _ => .inl trivial) fun hcallbacks => ?_
  refine (hi.module_ends (a := .advance d) trivial).bind fun m hm ht => ?_
  obtain ⟨_, _, hm⟩ := bind_eq_ok.1 hm
  obtain ⟨_, _, hm⟩ := bind_eq_ok.1 hm
  cases hm
  have hlater : ∀ e ∈ h.system.port.events, h.system.port.now + d ≤ e.tick := by
    intro e he
    obtain hsim | hnil := hp
    · rw [← hi.queued.events] at he
      obtain ⟨g, hg, hge⟩ := List.mem_filterMap.1 he
      rw [← hi.queued.tick hg hge, hi.now]
      exact ht.future hsim g hg
    · rw [hnil] at he
      cases he
  have hobeyed : h.system.Obeyed (.advance d) := ⟨fun r hr => (by cases hr), trivial⟩
  have hstep : h.system.step (.advance d) = .ok { h.system with
      port := { h.system.port with now := h.system.port.now + d } } := by
    have hport : h.system.port.step (.advance d) =
        .ok { h.system.port with now := h.system.port.now + d } := by
      show (check _ _ >>= _) = _
      rw [check_pos hlater]
      rfl
    show (check _ _ >>= fun _ => h.system.portStep (.advance d)) = _
    rw [check_pos hcallbacks]
    show (h.system.port.step (.advance d) >>= _) = _
    rw [hport]
    show (ClosedSystem.forwards _ _ (ClosedSystem.newer _ _) >>= _) = _
    have hnew : ClosedSystem.newer h.system.port.trace
        { h.system.port with now := h.system.port.now + d }.trace = [] :=
      ClosedSystem.newer_append h.system.port.trace []
    rw [hnew]
    rfl
  exact ⟨ht, hi.run.snoc hobeyed hstep, congrArg (· + d) hi.now, hi.queued⟩

theorem Hosts.step_ends (hok : ∀ y, Run ClosedSystem.step Obeyed y₀ y → Ok c y)
    (hi : Hosts y₀ h) {a : Act} (hp : h.Promised a) : Ends (Hosts y₀) h.Reports (h.step a) := by
  cases a with
  | turn cs o os => exact hi.turn_ends hok hp
  | callback a ids => exact hi.callback_ends hok
  | process cs os => exact hi.process_ends hok hp
  | module a => exact hi.own_ends hp
  | advance d => exact hi.advance_ends hp

/-! ## Runs -/

/-- The event loop runs the closed system: the port is as in a run of the closed system, at the time
of the module, and its events are those of the queue, in their order. Nothing of the port goes
wrong, nor anything of the module on account of gem5 time. -/
structure OnTime (y₀ : ClosedSystem) (h : Hosted) : Prop where
  run : Run ClosedSystem.step Obeyed y₀ h.system
  now : h.system.port.now = h.module.now
  events : h.module.queue.filterMap (fun g => h.event g.id) = h.system.port.events
  due : ∀ g ∈ h.module.queue, ∀ e ∈ h.event g.id, g.tick = e.tick
  future : h.module.inSimulate = true → ∀ e ∈ h.system.port.events, h.system.port.now ≤ e.tick
  faults : ∀ a f, h.Promised a → h.step a = .error f → h.Reports f

/-- A read that an event of gem5 makes. gem5 refuses the response, and another event, which it then
schedules, asks for it. -/
def hostedRead : List Act :=
  [.process [] [.schedule ⟨1, 0, 0, .ordinary⟩], .module (.simulate 100000 0), .module .delta,
    .module (.eventLoop {}), .turn [.recvTimingReq (readRequest 0)] {} [], .turn [] {} [],
    .callback (.peqCb 0 0) [7], .module .delta, .module (.serviceExternalEvent {}), .turn [] {} [],
    .advance 10000, .module (.eventLoop {}), .turn [] {} [], .turn [] {} [], .advance 15000,
    .callback (.targetDone 0) [], .callback (.memoryDone 0 .ok) [7], .module .delta,
    .module (.serviceExternalEvent {}), .turn [] {} [], .advance 10000, .module (.eventLoop {}),
    .turn [] { resp := { accept := false } } [.schedule ⟨1, 36000, 0, .ordinary⟩], .turn [] {} [],
    .advance 1000, .module (.eventLoop {}), .turn [.recvRespRetry [{}]] {} []]

end Hosted

end Gem5Wrapper
