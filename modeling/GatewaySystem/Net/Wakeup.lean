import GatewaySystem.Net.Effects
import GatewaySystem.Net.Loop

/-!
# Wake-ups are not lost

A thread publishes first and notifies then, the reactor consumes the eventfd
first and looks at what was published then. So whatever was published behind
the last look of the reactor has left a trace: the eventfd is still counting,
or its thread has yet to notify. Each kind of publication is looked at in its
own part of the iteration, and `LoopPhase` tells from where on this look is
still to come.
-/

namespace GatewaySystem

namespace LoopPhase

/-- The reactor has yet to drain the responses in this iteration. -/
def seesResponses : LoopPhase → Bool
  | .dispatch | .drainResponses | .left => true
  | _ => false

/-- It has yet to drain the refused connections. -/
def seesRejected : LoopPhase → Bool
  | .dispatch | .drainResponses | .drainRejected | .left => true
  | _ => false

theorem seesResponses_of_seesRejected {phase : LoopPhase} (h : phase.seesRejected = false) :
    phase.seesResponses = false := by
  cases phase <;> first | rfl | cases h

/-- It has yet to evaluate `drainComplete`. -/
def seesExit : LoopPhase → Bool
  | .dispatch | .drainResponses | .drainRejected | .finish | .left => true
  | _ => false

end LoopPhase

namespace Server

variable {s t : Server} {phase : LoopPhase}

/-- What a handler leaves to the threads that wake the reactor. -/
structure Handled (s t : Server) : Prop where
  state : t.state = s.state
  requestQueue : t.requestQueue.stopped = s.requestQueue.stopped
  authQueue : t.authQueue.stopped = s.authQueue.stopped
  responseQueue : t.responseQueue = s.responseQueue
  rejected : t.rejectedResponseConnections = s.rejectedResponseConnections
  producers : t.producers = s.producers

theorem Handled.trans {u : Server} (h : Handled s t) (h' : Handled t u) : Handled s u where
  state := h'.state.trans h.state
  requestQueue := h'.requestQueue.trans h.requestQueue
  authQueue := h'.authQueue.trans h.authQueue
  responseQueue := h'.responseQueue.trans h.responseQueue
  rejected := h'.rejected.trans h.rejected
  producers := h'.producers.trans h.producers

theorem Frame.handled (h : Frame s t) : Handled s t where
  state := h.state
  requestQueue := by rw [h.requestQueue]
  authQueue := by rw [h.authQueue]
  responseQueue := h.responseQueue
  rejected := h.rejected
  producers := by rw [producers, producers, h.workers, h.authWorkers]

theorem Affects.handled {answers : Prop} (h : Affects False answers s t) : Handled s t :=
  h.frame.handled

theorem enqueueNext_handled (s : Server) (frame : Enqueue) (ctl : Bool) :
    Handled s (s.enqueueNext frame ctl) := by
  have hpoint : ∀ point, Handled s { s with point := point } :=
    fun _ => ⟨rfl, rfl, rfl, rfl, rfl, rfl⟩
  unfold enqueueNext
  split
  · exact (countAdmitted_affects .. : Affects False False s _).handled
  · unfold enqueueTask
    simp only
    split
    · exact ⟨rfl, rfl, BlockQueue.push_stopped .., rfl, rfl, rfl⟩
    · exact ⟨rfl, rfl, rfl, rfl, rfl, rfl⟩
  · unfold enqueueRequest
    simp only
    split
    · exact ⟨rfl, BlockQueue.push_stopped .., rfl, rfl, rfl, rfl⟩
    · exact ⟨rfl, rfl, rfl, rfl, rfl, rfl⟩
  · exact (hpoint _).trans (applyResponse_affects .. : Affects False True _ _).handled
  · simp only
    split
    · exact (hpoint _).trans (markReadEof_affects .. : Affects False False _ _).handled
    · exact hpoint _

/-- The handlers of the events. -/
theorem dispatch_handled {action : ReactorAction}
    (hallows : LoopPhase.dispatch.allows action = true)
    (h : s.reactorStep action = some t) : Handled s t := by
  cases reactorStep_move h with
  | accept => exact (handleAccept_affects .. : Affects False False s _).handled
  | read => exact (handleRead_affects .. : Affects False False s _).handled
  | enqueueNext => exact enqueueNext_handled ..
  | hangUp => exact (markReadEof_affects .. : Affects False False s _).handled
  | write => exact (handleWrite_affects .. : Affects False False s _).handled
  | socketError => exact (closeConnection_affects .. : Affects False False s _).handled
  | _ => cases hallows

/-- What the handlers called in a phase can do. -/
inductive HandledIn (s t : Server) : LoopPhase → Prop
  /-- `beginDraining` touches no response. -/
  | begin (failed : Bool) (hstate : t.state = s.state)
      (hresponses : t.responseQueue = s.responseQueue)
      (hrejected : t.rejectedResponseConnections = s.rejectedResponseConnections)
      (hproducers : t.producers = s.producers) : HandledIn s t (.begin failed)
  | dispatch (h : Handled s t) : HandledIn s t .dispatch
  | drainResponses (queue : BlockQueue Response) (h : Handled { s with responseQueue := queue } t) :
      HandledIn s t .drainResponses
  | left (hstate : s.state = .stopped) (hstate' : t.state = .stopped)
      (hproducers : t.producers = s.producers) : HandledIn s t .left

theorem reactorStep_handledIn {action : ReactorAction} (hallows : phase.allows action = true)
    (h : s.reactorStep action = some t) : HandledIn s t phase := by
  unfold LoopPhase.allows at hallows
  split at hallows
  · next failed ctl =>
      cases reactorStep_move h with
      | beginDrainingNext phase =>
          cases phase with
          | stopRequests | stopAuth => exact .begin failed rfl rfl rfl rfl
          | modifyEvents =>
              have hframe := (foldl_affects
                (fun s _ => modifyConnectionEvents_affects s _ _ _) _ _ :
                Affects False False { s with point := .boundary }
                  (s.beginDrainingNext .modifyEvents ctl)).handled
              exact .begin failed hframe.state hframe.responseQueue hframe.rejected
                hframe.producers
  iterate 6 exact .dispatch (dispatch_handled rfl h)
  · cases reactorStep_move h with
    | drainResponse response queue =>
        exact .drainResponses queue (applyResponse_affects .. : Affects False True _ _).handled
  · cases reactorStep_move h with
    | stopQueues hstopped => exact .left hstopped hstopped rfl
  · cases reactorStep_move h with
    | closeAll hstopped =>
        have hframe := (closeAll_affects s : Affects False False s _).handled
        exact .left hstopped (hframe.state.trans hstopped) hframe.producers
  · cases hallows

theorem HandledIn.state (h : HandledIn s t phase) : t.state = s.state := by
  cases h with
  | begin _ hstate => exact hstate
  | dispatch h => exact h.state
  | drainResponses _ h => exact h.state
  | left hstate hstate' => exact hstate'.trans hstate.symm

theorem HandledIn.producers (h : HandledIn s t phase) : t.producers = s.producers := by
  cases h with
  | begin _ _ _ _ hproducers => exact hproducers
  | dispatch h => exact h.producers
  | drainResponses _ h => exact h.producers
  | left _ _ hproducers => exact hproducers

/-- The list of refused connections is taken whole. -/
theorem drainRejected_handled (h : s.reactorStep .drainRejected = some t) :
    Handled { s with rejectedResponseConnections := [] } t := by
  obtain ⟨-, ⟨⟩⟩ := Option.ite_none_right_eq_some.mp h
  exact (foldl_affects closeRejected_affects _ _ : Affects False False _ _).handled

/-- The evaluation of `drainComplete` stops the server or only closes
connections. -/
theorem drainComplete_handled (h : s.reactorStep .drainComplete = some t) :
    s.state = .draining ∧ Handled { s with state := t.state } t ∧
      (t.state = .draining ∨ t.state = .stopped ∧ s.workFinished = true) := by
  obtain ⟨hguard, ⟨⟩⟩ := Option.ite_none_right_eq_some.mp h
  simp only [Bool.and_eq_true, decide_eq_true_eq] at hguard
  have hframe := (drainComplete_affects s : Affects False False s _).handled
  have hsame := hframe.state.trans hguard.2
  refine ⟨hguard.2, ?_, ?_⟩
  · split
    · exact ⟨rfl, hframe.requestQueue, hframe.authQueue, hframe.responseQueue, hframe.rejected,
        hframe.producers⟩
    · exact ⟨rfl, hframe.requestQueue, hframe.authQueue, hframe.responseQueue, hframe.rejected,
        hframe.producers⟩
  · split
    · next hcomplete =>
        refine .inr ⟨rfl, ?_⟩
        unfold drainComplete at hcomplete
        split at hcomplete
        · next hfinished => exact hfinished
        · cases hcomplete
    · exact .inl hsame

end Server

namespace Loop

variable {library : Json.Library} {args : Server.StartArgs} {shutdownTimeoutMs : ℤ} {l l' : Loop}

/-- Some thread is between the change of its state and its `notify`. -/
def Owing (l : Loop) : Prop := l.notifying ≠ [] ∨ .stopping ∈ l.server.producers

/-- The reactor is or will be woken. -/
def Awake (l : Loop) : Prop := 0 < l.eventfd ∨ l.Owing

/-! ## A running server -/

/-- In a running server nothing has ended. -/
structure Fresh (l : Loop) : Prop where
  requests : l.server.requestQueue.stopped = false
  auths : l.server.authQueue.stopped = false
  phase : ∀ failed, l.phase ≠ .begin failed
  producers : .stopping ∉ l.server.producers
  exit : l.exitUnseen = false

theorem Move.fresh (h : Move library shutdownTimeoutMs l l')
    (hl : l.server.state = .running → l.Fresh) (hrun : l'.server.state = .running) : l'.Fresh := by
  have hsame : ∀ {k : Loop}, k.server = l.server → (∀ failed, k.phase ≠ .begin failed) →
      k.exitUnseen = l.exitUnseen → k.server.state = .running → k.Fresh := by
    intro k hserver hphase hexit hrun
    have hfresh := hl (hserver ▸ hrun)
    exact ⟨hserver ▸ hfresh.requests, hserver ▸ hfresh.auths, hphase, hserver ▸ hfresh.producers,
      hexit ▸ hfresh.exit⟩
  cases h with
  | leave | wake | retry | begun | dispatched | drained | idle | early =>
      exact hsame rfl nofun rfl hrun
  | wait => exact hsame rfl nofun rfl hrun
  | consume hphase => exact hsame rfl (by simp [hphase]) rfl hrun
  | notify | request =>
      have hfresh := hl hrun
      exact ⟨hfresh.requests, hfresh.auths, hfresh.phase, hfresh.producers, hfresh.exit⟩
  | pull body =>
      have hfresh : l.Fresh := hl (by
        unfold Server.pullConfig at hrun
        split at hrun <;> exact hrun)
      unfold Server.pullConfig
      split <;>
        exact ⟨hfresh.requests, hfresh.auths, hfresh.phase, hfresh.producers, hfresh.exit⟩
  | tick duration =>
      have hfresh := hl hrun
      exact ⟨hfresh.requests, hfresh.auths, hfresh.phase, hfresh.producers, hfresh.exit⟩
  | begin failed outcome hphase hserver =>
      obtain ⟨-, ⟨⟩⟩ := Option.ite_none_right_eq_some.mp hserver
      cases hrun
  | handle hallows hserver =>
      have hhandled := Server.reactorStep_handledIn hallows hserver
      have hfresh := hl (hhandled.state.symm.trans hrun)
      have hphase := hfresh.phase
      generalize l.phase = phase at hhandled hphase ⊢
      cases hhandled with
      | begin failed => exact absurd rfl (hphase failed)
      | dispatch h | drainResponses _ h =>
          exact ⟨h.requestQueue.trans hfresh.requests, h.authQueue.trans hfresh.auths,
            hphase, fun hmem => hfresh.producers (h.producers ▸ hmem), hfresh.exit⟩
      | left hstate hstate' => cases hstate'.symm.trans hrun
  | rejected hphase hserver =>
      have h := Server.drainRejected_handled hserver
      have hfresh := hl (h.state.symm.trans hrun)
      exact ⟨h.requestQueue.trans hfresh.requests, h.authQueue.trans hfresh.auths,
        nofun, fun hmem => hfresh.producers (h.producers ▸ hmem), hfresh.exit⟩
  | evaluate hphase hserver =>
      obtain ⟨-, -, hstate | ⟨hstate, -⟩⟩ := Server.drainComplete_handled hserver
      · cases hstate.symm.trans hrun
      · cases hstate.symm.trans hrun
  | expire hphase hlate hserver =>
      obtain ⟨-, ⟨⟩⟩ := Option.ite_none_right_eq_some.mp hserver
      cases hrun
  | produce thread published last _ hserver hproduces =>
      have hfresh := hl (hproduces.frame.state.symm.trans hrun)
      have hnone : ¬ (.stopping ∈ l.server.producers ∨ l.server.requestQueue.stopped = true ∨
          l.server.authQueue.stopped = true) := by
        rw [hfresh.requests, hfresh.auths]
        simpa using hfresh.producers
      refine ⟨hproduces.requestQueue.trans hfresh.requests,
        hproduces.authQueue.trans hfresh.auths, hfresh.phase,
        fun hmem => hnone (hproduces.exited (.inr hmem)), ?_⟩
      simp only [publish, hfresh.exit, Bool.false_or]
      exact Bool.eq_false_iff.mpr fun hlast => hnone (hproduces.exited (.inl hlast))

/-- In the middle of an iteration the server is not stopped. -/
def Alive (l : Loop) : Prop := l.phase ≠ .check → l.phase ≠ .left → l.server.state ≠ .stopped

theorem Move.alive (h : Move library shutdownTimeoutMs l l') (hl : l.Alive) : l'.Alive := by
  have hsame : ∀ {k : Loop}, k.server.state = l.server.state → l.phase ≠ .check →
      l.phase ≠ .left → k.Alive := by
    intro k hstate hcheck hleft _ _
    rw [hstate]
    exact hl hcheck hleft
  cases h with
  | leave => exact fun _ hleft => absurd rfl hleft
  | retry | begun | idle | early | expire => exact fun hcheck _ => absurd rfl hcheck
  | begin failed outcome _ hserver =>
      obtain ⟨-, ⟨⟩⟩ := Option.ite_none_right_eq_some.mp hserver
      exact fun _ _ => nofun
  | wait hold hstate =>
      rcases hold with hold | hold
      · exact fun _ _ => hstate hold
      · exact hsame rfl (by simp [hold]) (by simp [hold])
  | wake hold | dispatched hold | drained hold | consume hold =>
      exact hsame rfl (by simp [hold]) (by simp [hold])
  | handle hallows hserver =>
      intro hcheck hleft
      rw [(Server.reactorStep_handledIn hallows hserver).state]
      exact hl hcheck hleft
  | rejected hold hserver =>
      exact hsame (Server.drainRejected_handled hserver).state (by simp [hold]) (by simp [hold])
  | evaluate hold hserver =>
      intro hcheck hleft hstopped
      simp only [if_pos hstopped] at hcheck
      exact hcheck rfl
  | produce thread published last _ hserver hproduces =>
      intro hcheck hleft
      exact fun hstopped => hl hcheck hleft (hproduces.frame.state.symm.trans hstopped)
  | notify | request | tick => exact fun hcheck hleft => hl hcheck hleft
  | pull body =>
      intro hcheck hleft
      unfold Server.pullConfig
      split <;> exact hl hcheck hleft

/-! ## What was published -/

/-- Whatever was published and is not yet to be seen in this iteration has left
a trace. -/
structure Woken (l : Loop) : Prop where
  responses : l.phase.seesResponses = false → l.server.responseQueue.items ≠ [] → l.Awake
  rejected : l.phase.seesRejected = false → l.server.rejectedResponseConnections ≠ [] → l.Awake
  exit : l.phase.seesExit = false → l.exitUnseen = true → l.Awake
  stop : l.phase = .wait → (l.stopRequested || l.signalStopRequested) = true →
    l.server.state = .running → l.Awake

theorem notify_pos (eventfd : ℕ) : 0 < ReactorNotifier.notify eventfd := by
  unfold ReactorNotifier.notify
  split
  · exact Nat.succ_pos eventfd
  · next hfull => exact Nat.lt_of_lt_of_le (by decide) (Nat.not_lt.mp hfull)

/-- Outside of the handling of events a trace stays. -/
theorem Move.awake (h : Move library shutdownTimeoutMs l l') (hphase : l.phase ≠ .dispatch)
    (hl : l.Awake) : l'.Awake := by
  have hsame : ∀ {k : Loop}, k.eventfd = l.eventfd → k.notifying = l.notifying →
      k.server.producers = l.server.producers → k.Awake := by
    intro k heventfd hnotifying hproducers
    rw [Awake, Owing, heventfd, hnotifying, hproducers]
    exact hl
  cases h with
  | consume hdispatch => exact absurd hdispatch hphase
  | begin failed outcome _ hserver =>
      obtain ⟨-, ⟨⟩⟩ := Option.ite_none_right_eq_some.mp hserver
      exact hsame rfl rfl rfl
  | handle hallows hserver =>
      exact hsame rfl rfl (Server.reactorStep_handledIn hallows hserver).producers
  | rejected _ hserver => exact hsame rfl rfl (Server.drainRejected_handled hserver).producers
  | evaluate _ hserver => exact hsame rfl rfl (Server.drainComplete_handled hserver).2.1.producers
  | expire _ _ hserver =>
      obtain ⟨-, ⟨⟩⟩ := Option.ite_none_right_eq_some.mp hserver
      exact hsame rfl rfl rfl
  | pull body =>
      refine hsame rfl rfl ?_
      unfold Server.pullConfig
      split <;> rfl
  | produce thread published last _ hserver hproduces =>
      cases published with
      | true => exact .inr (.inl (List.cons_ne_nil _ _))
      | false =>
          rcases hl with heventfd | hnotifying | hstopping
          · exact .inl heventfd
          · exact .inr (.inl hnotifying)
          · exact .inr (.inr ((hproduces.stopping hstopping).resolve_left nofun))
  | notify hthread => exact .inl (notify_pos l.eventfd)
  | request => exact .inr (.inl (List.cons_ne_nil _ _))
  | _ => exact hsame rfl rfl rfl

/-- A response that was pushed after the drain, or a connection that was put on
the list after it was taken, has left a trace. -/
structure Traced (l l' : Loop) : Prop where
  responses : l'.phase.seesResponses = false → l'.server.responseQueue.items ≠ [] →
    l'.Awake ∨ l.phase.seesResponses = false ∧ l.server.responseQueue.items ≠ []
  rejected : l'.phase.seesRejected = false → l'.server.rejectedResponseConnections ≠ [] →
    l'.Awake ∨ l.phase.seesRejected = false ∧ l.server.rejectedResponseConnections ≠ []

theorem Traced.of_awake (h : l'.Awake) : Traced l l' := ⟨fun _ _ => .inl h, fun _ _ => .inl h⟩

/-- A step that adds nothing, and does not go past a drain. -/
theorem Traced.of_same (hphase : l'.phase = l.phase ∨ l.phase.seesRejected = false)
    (hresponses : l'.server.responseQueue = l.server.responseQueue)
    (hrejected : l'.server.rejectedResponseConnections = l.server.rejectedResponseConnections) :
    Traced l l' := by
  refine ⟨fun hsees hitems => .inr ⟨?_, hresponses ▸ hitems⟩,
    fun hsees hitems => .inr ⟨?_, hrejected ▸ hitems⟩⟩ <;> rcases hphase with hphase | hphase
  · rwa [← hphase]
  · exact LoopPhase.seesResponses_of_seesRejected hphase
  · rwa [← hphase]
  · exact hphase

/-- What a step has to show: whatever is published after it was published before
and not yet to be seen, or there is a trace. -/
theorem Woken.of_move (hl : l.Woken) (hawake : l.phase ≠ .dispatch → l.Awake → l'.Awake)
    (htraced : Traced l l')
    (hexit : l'.phase.seesExit = false → l'.exitUnseen = true →
      l'.Awake ∨ l.phase.seesExit = false ∧ l.exitUnseen = true)
    (hstop : l'.phase = .wait → (l'.stopRequested || l'.signalStopRequested) = true →
      l'.server.state = .running → l'.Awake ∨ l.phase = .wait ∧
        (l.stopRequested || l.signalStopRequested) = true ∧ l.server.state = .running) :
    l'.Woken where
  responses hphase hitems := by
    rcases htraced.responses hphase hitems with h | ⟨hphase, hitems⟩
    · exact h
    · exact hawake (fun hdispatch => by rw [hdispatch] at hphase; cases hphase)
        (hl.responses hphase hitems)
  rejected hphase hitems := by
    rcases htraced.rejected hphase hitems with h | ⟨hphase, hitems⟩
    · exact h
    · exact hawake (fun hdispatch => by rw [hdispatch] at hphase; cases hphase)
        (hl.rejected hphase hitems)
  exit hphase hexited := by
    rcases hexit hphase hexited with h | ⟨hphase, hexited⟩
    · exact h
    · exact hawake (fun hdispatch => by rw [hdispatch] at hphase; cases hphase)
        (hl.exit hphase hexited)
  stop hphase hflag hrun := by
    rcases hstop hphase hflag hrun with h | ⟨hphase, hflag, hrun⟩
    · exact h
    · exact hawake (fun hdispatch => by cases hphase.symm.trans hdispatch)
        (hl.stop hphase hflag hrun)

theorem awake_publish {server : Server} (thread : Notifier) (last : Bool) :
    (l.publish thread server true last).Awake := .inr (.inl (List.cons_ne_nil _ _))

theorem Move.traced (h : Move library shutdownTimeoutMs l l') : Traced l l' := by
  cases h with
  | leave | wake | dispatched => exact ⟨by rintro ⟨⟩, by rintro ⟨⟩⟩
  | begin failed outcome hold hserver =>
      obtain ⟨-, ⟨⟩⟩ := Option.ite_none_right_eq_some.mp hserver
      exact .of_same (.inr (by rw [hold]; cases failed <;> rfl)) rfl rfl
  | wait hold =>
      exact .of_same (.inr (by rcases hold with hold | hold <;> rw [hold] <;> rfl)) rfl rfl
  | retry hold | begun hold | idle hold | early hold =>
      exact .of_same (.inr (by rw [hold]; rfl)) rfl rfl
  | consume | tick => exact .of_same (.inl rfl) rfl rfl
  | handle hallows hserver =>
      have hhandled := Server.reactorStep_handledIn hallows hserver
      generalize hphase : l.phase = phase at hhandled
      cases hhandled with
      | begin failed hstate hresponses hrejected =>
          exact .of_same (.inr (by rw [hphase]; rfl)) hresponses hrejected
      | dispatch | drainResponses | left =>
          constructor <;> simp only [hphase] <;> rintro ⟨⟩
  | drained _ hnone => exact ⟨fun _ hitems => absurd hnone hitems, by rintro ⟨⟩⟩
  | rejected hold hserver =>
      have hhandled := Server.drainRejected_handled hserver
      exact ⟨fun _ hitems => .inr ⟨by rw [hold]; rfl, hhandled.responseQueue ▸ hitems⟩,
        fun _ hitems => absurd hhandled.rejected hitems⟩
  | evaluate hold hserver =>
      have hhandled := (Server.drainComplete_handled hserver).2.1
      exact .of_same (.inr (by rw [hold]; rfl)) hhandled.responseQueue hhandled.rejected
  | expire hold _ hserver =>
      obtain ⟨-, ⟨⟩⟩ := Option.ite_none_right_eq_some.mp hserver
      exact ⟨fun _ hitems => absurd rfl hitems,
        fun _ hitems => .inr ⟨by rw [hold]; rfl, hitems⟩⟩
  | produce thread published last _ hserver hproduces =>
      cases published with
      | true => exact .of_awake (awake_publish thread _)
      | false =>
          obtain ⟨hresponses, hrejected⟩ := hproduces.silent rfl
          exact .of_same (.inl rfl) hresponses hrejected
  | notify => exact .of_awake (.inl (notify_pos l.eventfd))
  | request => exact .of_awake (.inr (.inl (List.cons_ne_nil _ _)))
  | pull body =>
      refine .of_same (.inl rfl) ?_ ?_ <;> simp only [Server.pullConfig] <;> split <;> rfl

/-- An exit of the last producer after `drainComplete` was evaluated has left a
trace. In a running server, which does not evaluate it, none has exited. -/
theorem Move.exit (h : Move library shutdownTimeoutMs l l')
    (hfresh : l.server.state = .running → l.Fresh) (halive : l.Alive)
    (hphase : l'.phase.seesExit = false) (hexit : l'.exitUnseen = true) :
    l'.Awake ∨ l.phase.seesExit = false ∧ l.exitUnseen = true := by
  cases h with
  | leave | wake | dispatched | drained | rejected => cases hphase
  | begin failed outcome hold hserver =>
      refine .inr ⟨?_, hexit⟩
      rw [hold]
      cases failed <;> rfl
  | wait hold =>
      refine .inr ⟨?_, hexit⟩
      rcases hold with hold | hold <;> rw [hold] <;> rfl
  | retry hold | begun hold | early hold | expire hold => exact .inr ⟨by rw [hold]; rfl, hexit⟩
  | consume hold =>
      rw [hold] at hphase
      cases hphase
  | handle hallows hserver => exact .inr ⟨hphase, hexit⟩
  | idle hold hstate =>
      cases hserver : l.server.state with
      | running => cases (hfresh hserver).exit.symm.trans hexit
      | draining => exact absurd hserver hstate
      | stopped => exact absurd hserver (halive (by simp [hold]) (by simp [hold]))
  | evaluate => cases hexit
  | produce thread published last _ hserver hproduces =>
      cases hlast : last with
      | true =>
          rcases hproduces.exit hlast with rfl | hstopping
          · exact .inl (awake_publish thread _)
          · exact .inl (.inr (.inr hstopping))
      | false =>
          refine .inr ⟨hphase, ?_⟩
          simpa [publish, hlast] using hexit
  | notify => exact .inl (.inl (notify_pos l.eventfd))
  | request => exact .inl (.inr (.inl (List.cons_ne_nil _ _)))
  | pull | tick => exact .inr ⟨hphase, hexit⟩

/-- A stop that was requested after the test of the flags has left a trace. -/
theorem Move.stop (h : Move library shutdownTimeoutMs l l')
    (hfresh : l.server.state = .running → l.Fresh) (hphase : l'.phase = .wait)
    (hflag : (l'.stopRequested || l'.signalStopRequested) = true)
    (hrun : l'.server.state = .running) :
    l'.Awake ∨ l.phase = .wait ∧ (l.stopRequested || l.signalStopRequested) = true ∧
      l.server.state = .running := by
  cases h with
  | leave | wake | dispatched | drained | begin | retry | begun | idle | early | rejected
    | expire => cases hphase
  | wait hold _ hstop =>
      rcases hold with hold | hold
      · exact absurd hrun (hstop hold hflag)
      · exact absurd hold ((hfresh hrun).phase false)
  | consume hold => cases hold.symm.trans hphase
  | handle hallows hserver =>
      have hhandled := Server.reactorStep_handledIn hallows hserver
      exact .inr ⟨hphase, hflag, hhandled.state.symm.trans hrun⟩
  | evaluate hold hserver =>
      simp only at hphase
      split at hphase <;> cases hphase
  | produce thread published last _ hserver hproduces =>
      exact .inr ⟨hphase, hflag, hproduces.frame.state.symm.trans hrun⟩
  | notify => exact .inl (.inl (notify_pos l.eventfd))
  | request => exact .inl (.inr (.inl (List.cons_ne_nil _ _)))
  | pull body =>
      refine .inr ⟨hphase, hflag, ?_⟩
      unfold Server.pullConfig at hrun
      split at hrun <;> exact hrun
  | tick => exact .inr ⟨hphase, hflag, hrun⟩

/-- What every step of a loop keeps. -/
structure Sound (l : Loop) : Prop where
  fresh : l.server.state = .running → l.Fresh
  alive : l.Alive
  woken : l.Woken

theorem Move.sound (h : Move library shutdownTimeoutMs l l') (hl : l.Sound) : l'.Sound where
  fresh := h.fresh hl.fresh
  alive := h.alive hl.alive
  woken := hl.woken.of_move h.awake h.traced
    (h.exit hl.fresh hl.alive) (h.stop hl.fresh)

theorem enter_sound {now : ℤ} {s : Server} (hstart : Server.start args now = some s) :
    (enter s).Sound := by
  rw [Server.start_eq_some hstart]
  refine ⟨fun _ => ⟨rfl, rfl, by rintro _ ⟨⟩, ?_, rfl⟩, fun hcheck => absurd rfl hcheck, ?_⟩
  · simp [enter, Server.producers, Server.started, NormalWorker.producer, AuthWorker.producer]
  · exact ⟨fun _ h => absurd rfl h, fun _ h => absurd rfl h, by rintro _ ⟨⟩, by rintro ⟨⟩⟩

theorem sound (h : Transition.Reachable (reactorLoop library args shutdownTimeoutMs) l) :
    l.Sound := by
  refine Transition.ReachableBy.invariant (I := Sound) ?_ ?_ h
  · rintro l ⟨now, s, hstart, rfl⟩
    exact enter_sound hstart
  · exact fun l action l' _ hl _ hstep => (step_move hstep).sound hl

/-- While the reactor is blocked in `epoll_wait`, a response in the queue, a
connection on the list of refused ones, a stop requested of a running server or
an exit of the last producer that `drainComplete` has not seen means that the
eventfd counts or that a thread has yet to notify. -/
theorem no_lost_wakeup (h : Transition.Reachable (reactorLoop library args shutdownTimeoutMs) l)
    (hphase : l.phase = .wait)
    (hpublished : l.server.responseQueue.items ≠ [] ∨
      l.server.rejectedResponseConnections ≠ [] ∨
      (l.stopRequested = true ∨ l.signalStopRequested = true) ∧ l.server.state = .running ∨
      l.exitUnseen = true) :
    0 < l.eventfd ∨ l.notifying ≠ [] ∨ .stopping ∈ l.server.producers := by
  have hwoken := (sound h).woken
  rcases hpublished with hitems | hitems | ⟨hflag, hrun⟩ | hexit
  · exact hwoken.responses (by rw [hphase]; rfl) hitems
  · exact hwoken.rejected (by rw [hphase]; rfl) hitems
  · exact hwoken.stop hphase (Bool.or_eq_true_iff.mpr hflag) hrun
  · exact hwoken.exit (by rw [hphase]; rfl) hexit

/-- A response was pushed while the reactor waits, and the eventfd is still at
zero. -/
theorem no_lost_wakeup_answered :
    Sample.answered.eventfd = 0 ∧
      (Sample.answered.notifying ≠ [] ∨ .stopping ∈ Sample.answered.server.producers) := by
  have hzero : Sample.answered.eventfd = 0 := by decide +kernel
  have hitems : Sample.answered.server.responseQueue.items ≠ [] := by decide +kernel
  refine ⟨hzero, (no_lost_wakeup Sample.answered_reachable (by decide +kernel)
    (.inl hitems)).resolve_left ?_⟩
  rw [hzero]
  exact Nat.lt_irrefl 0

end Loop

end GatewaySystem
