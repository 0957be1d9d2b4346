import RosserialServer.Proof.PollLoop
import RosserialServer.Proof.Provenance

/-!
# Left alone, a node comes to rest

When nothing new arrives and no message is sent, what is left is work the node has
already: bytes that the port hands over, bytes that it takes, and handlers that a tick
runs, with the port at work between its polls or between two ticks. In whatever order this
happens, it ends (`node_settles`), and it ends only when everything received has been handed
over and everything queued is written.

The measure is what the port has not handed over, what it has not taken and the handlers
not paid for yet; `handlers_paid` says that there is an end to those.
-/

namespace RosserialServer

open MemBlock

/-- The handler reports an error. -/
def ReadyHandler.isFailure : ReadyHandler → Bool
  | .failed _ => true
  | .progressed _ => false
  | .posted _ _ _ => false

theorem ReadyHandler.fate_of_success {x : ReadyHandler} (h : x.isFailure = false) :
    x.fate ≠ some .discarded := by
  cases x with
  | posted callback off len => simp [ReadyHandler.fate]
  | progressed op =>
      cases op with
      | read off size atLeast got => simp [ReadyHandler.fate]
      | write op =>
          show (if op.sent < op.buffer.length then none else some Fate.delivered) ≠ some .discarded
          split
          · simp
          · simp
  | failed op => exact absurd h (by simp [ReadyHandler.isFailure])

theorem ReadyHandler.outcome_of_success {x : ReadyHandler} (h : x.isFailure = false) :
    x.outcome ≠ some .failed := by
  cases x with
  | posted callback off len => simp [ReadyHandler.outcome]
  | progressed op => simp [ReadyHandler.outcome]
  | failed op => exact absurd h (by simp [ReadyHandler.isFailure])

/-- A writer that has written everything has written the frames of all calls. -/
theorem WriteWorld.Orderly.port_of_idle {s : WriteWorld} (h : s.Orderly)
    (hidle : s.writer.sendBufs = []) : s.port = s.calls.flatten := by
  have hacc : s.calls = s.settled.map Prod.fst ++ s.writer.sendBufs := h.accounted
  have hserial := h.serial
  rw [hidle] at hserial
  rw [h.clean.port, hacc, hidle, List.append_nil]
  generalize hno : ([] : List (List UInt8)) = bufs at hserial
  generalize hops : s.inFlight = ops at hserial
  cases hserial with
  | idle =>
      unfold WriteWorld.underWay
      rw [hops]
      exact List.append_nil _
  | busy _ => exact absurd hno (by simp)

/-- The port hands over what has arrived, or takes what is written. -/
def PortActivity.isOwn : PortActivity → Bool
  | .receive _ _ => true
  | .take _ _ => true
  | .arrive _ => false
  | .fail _ => false

namespace NodeWorld

/-- A tick with no new bytes and no failure, and something to do at its first poll. -/
def OwnTick (w : NodeWorld) (during : List (List PortActivity)) : Prop :=
  (∀ activities ∈ during, ∀ activity ∈ activities, activity.isOwn = true)
    ∧ (w.ready ≠ [] ∨ during.headD [] ≠ [])

instance (w : NodeWorld) (during : List (List PortActivity)) : Decidable (w.OwnTick during) :=
  inferInstanceAs (Decidable (_ ∧ _))

/--
What happens by itself: the port hands over what has arrived and takes what is written,
between two ticks or between the polls of one, and the timer fires. A tick whose first poll
finds nothing to do leaves the node as it is, and is no step.
-/
def ownStep (env : RosEnv) (w : NodeWorld) : NodeEvent → Option NodeWorld
  | .port activity => if activity.isOwn then w.step env (.port activity) else none
  | .message _ _ => none
  | .tick during => if w.OwnTick during then w.step env (.tick during) else none

variable {env : RosEnv} {w w' : NodeWorld}

/-! ## A tick of a node left alone -/

/-- Nothing new has come since `w`: every handler since then was there, or reports no error. -/
structure Alone (w w' : NodeWorld) : Prop where
  received : w'.received = w.received
  messages : w'.messages = w.messages
  failures : ∀ x ∈ w'.ran ++ w'.ready, x ∈ w.ran ++ w.ready ∨ x.isFailure = false

theorem Alone.refl (w : NodeWorld) : Alone w w := ⟨rfl, rfl, fun _ hx => Or.inl hx⟩

theorem Alone.trans {w'' : NodeWorld} (h : Alone w w') (h' : Alone w' w'') : Alone w w'' := by
  refine ⟨h'.received.trans h.received, h'.messages.trans h.messages, ?_⟩
  intro x hx
  rcases h'.failures x hx with hx | hx
  · exact h.failures x hx
  · exact Or.inr hx

/-- Left alone, no read fails. -/
theorem Alone.reads_well (h : Alone w w')
    (hwell : ∀ x ∈ w.ran ++ w.ready, x.outcome ≠ some .failed) :
    ∀ x ∈ w'.ran, x.outcome ≠ some .failed := by
  intro x hx
  rcases h.failures x (List.mem_append_left _ hx) with hold | hnew
  · exact hwell x hold
  · exact ReadyHandler.outcome_of_success hnew

/-- Nor does a write. -/
theorem Alone.writes_well (h : Alone w w')
    (hwell : ∀ x ∈ w.ran ++ w.ready, x.fate ≠ some .discarded) :
    ∀ x ∈ w'.ran, x.fate ≠ some .discarded := by
  intro x hx
  rcases h.failures x (List.mem_append_left _ hx) with hold | hnew
  · exact hwell x hold
  · exact ReadyHandler.fate_of_success hnew

/-- One more handler is ready, which reports no error. -/
theorem Alone.ready {x : ReadyHandler} (hx : x.isFailure = false)
    (hreceived : w'.received = w.received) (hmessages : w'.messages = w.messages)
    (hran : w'.ran = w.ran) (hready : w'.ready = w.ready ++ [x]) : Alone w w' := by
  refine ⟨hreceived, hmessages, ?_⟩
  intro y hy
  rw [hran, hready, ← List.append_assoc] at hy
  rcases List.mem_append.mp hy with hy | hy
  · exact Or.inl hy
  · obtain rfl := List.mem_singleton.mp hy
    exact Or.inr hx

/-- Nothing new has come since `w`, and what has been done since then stays done. -/
structure Onward (w w' : NodeWorld) : Prop where
  alone : Alone w w'
  arrived : w'.arrived.length ≤ w.arrived.length
  port : w.port.length ≤ w'.port.length
  ran : w.ran.length ≤ w'.ran.length

theorem Onward.refl (w : NodeWorld) : Onward w w :=
  ⟨Alone.refl w, Nat.le_refl _, Nat.le_refl _, Nat.le_refl _⟩

theorem Onward.trans {w'' : NodeWorld} (h : Onward w w') (h' : Onward w' w'') : Onward w w'' :=
  ⟨h.alone.trans h'.alone, Nat.le_trans h'.arrived h.arrived, Nat.le_trans h.port h'.port,
    Nat.le_trans h.ran h'.ran⟩

/-- Bytes have been handed over or taken since `w`, or a handler has been run. -/
def Further (w w' : NodeWorld) : Prop :=
  w'.arrived.length < w.arrived.length ∨ w.port.length < w'.port.length
    ∨ w.ran.length < w'.ran.length

theorem Further.onward {w'' : NodeWorld} (h : Further w w') (h' : Onward w' w'') :
    Further w w'' := by
  have harr := h'.arrived
  have hport := h'.port
  have hran := h'.ran
  unfold Further at h ⊢
  omega

/-- What the port does by itself uses up what has arrived, or what is to be written. -/
theorem own_activity {a : PortActivity} (hown : a.isOwn = true) (h : w.activityStep a = some w') :
    Onward w w' ∧ Further w w' := by
  cases a with
  | arrive chunk => exact absurd hown (by simp [PortActivity.isOwn])
  | fail i => exact absurd hown (by simp [PortActivity.isOwn])
  | receive i n =>
      dsimp only [activityStep] at h
      split at h
      · split at h
        · rename_i hn
          obtain rfl := Option.some.inj h
          have hless : (w.arrived.drop n).length < w.arrived.length := by
            rw [List.length_drop]
            omega
          exact ⟨⟨Alone.ready rfl rfl rfl rfl rfl, Nat.le_of_lt hless, Nat.le_refl _,
            Nat.le_refl _⟩, Or.inl hless⟩
        · exact absurd h (by simp)
      · exact absurd h (by simp)
  | take i n =>
      dsimp only [activityStep] at h
      split at h
      · split at h
        · rename_i op _ hn
          obtain rfl := Option.some.inj h
          have hmore : w.port.length < (w.port ++ slice op.buffer op.sent n).length := by
            rw [List.length_append, length_slice hn.2]
            omega
          exact ⟨⟨Alone.ready rfl rfl rfl rfl rfl, Nat.le_refl _, Nat.le_of_lt hmore,
            Nat.le_refl _⟩, Or.inr (Or.inl hmore)⟩
        · exact absurd h (by simp)
      · exact absurd h (by simp)

/-- A handler that is run has been run. -/
theorem handler_onward {x : ReadyHandler} {ready : List ReadyHandler}
    (hready : w.ready = x :: ready) :
    Onward w ({ w with ready := ready, ran := w.ran ++ [x] }.runHandler env x).settle
      ∧ Further w ({ w with ready := ready, ran := w.ran ++ [x] }.runHandler env x).settle := by
  obtain ⟨c, reader, writer, session, pending, escaped, hsame, -⟩ :=
    runHandler_spec env { w with ready := ready, ran := w.ran ++ [x] } x
  rw [hsame]
  obtain ⟨stopped, hstopped, -⟩ := settle_spec { w with
    reader := reader, writer := writer, session := session, pending := pending
    ready := ready ++ posts c, stopped := w.stopped, escaped := escaped, ran := w.ran ++ [x] }
  rw [hstopped]
  have hmore : w.ran.length < (w.ran ++ [x]).length := by
    rw [List.length_append, List.length_singleton]
    omega
  refine ⟨⟨⟨rfl, rfl, ?_⟩, Nat.le_refl _, Nat.le_refl _, Nat.le_of_lt hmore⟩,
    Or.inr (Or.inr hmore)⟩
  intro y hy
  rw [hready]
  dsimp only at hy
  rw [← List.append_assoc, List.append_assoc w.ran] at hy
  rcases List.mem_append.mp hy with hy | hy
  · exact Or.inl hy
  · obtain ⟨callback, off, len, rfl⟩ := mem_posts hy
    exact Or.inr rfl

theorem settle_onward (w : NodeWorld) : Onward w w.settle := by
  obtain ⟨stopped, hstopped, -⟩ := settle_spec w
  rw [hstopped]
  exact ⟨⟨rfl, rfl, fun _ hx => Or.inl hx⟩, Nat.le_refl _, Nat.le_refl _, Nat.le_refl _⟩

/-- A poll leads on, and further if it finds a handler. -/
theorem pollOne_onward (env : RosEnv) (w : NodeWorld) :
    Onward w (w.pollOne env).1
      ∧ (w.stopped = false → w.ready ≠ [] → Further w (w.pollOne env).1) := by
  rcases pollOne_cases env w with ⟨hp, hstopped⟩ | ⟨hp, -, hnone⟩ | ⟨x, ready, -, hready, hp⟩
  · rw [hp]
    exact ⟨Onward.refl w, fun hgo => absurd (hstopped.symm.trans hgo) (by simp)⟩
  · rw [hp]
    exact ⟨settle_onward w, fun _ hsome => absurd hnone hsome⟩
  · rw [hp]
    exact ⟨(handler_onward hready).1, fun _ _ => (handler_onward hready).2⟩

/-- The port at work by itself leads on, and further if it does anything. -/
theorem activities_onward {activities : List PortActivity}
    (hown : ∀ a ∈ activities, a.isOwn = true)
    (h : Lts.exec activityStep w activities = some w') :
    Onward w w' ∧ (activities ≠ [] → Further w w') := by
  induction activities generalizing w with
  | nil =>
      obtain rfl := Option.some.inj h
      exact ⟨Onward.refl w, fun hne => absurd rfl hne⟩
  | cons a activities ih =>
      obtain ⟨u, ha, hrest⟩ := Lts.exec_cons.mp h
      obtain ⟨honward, hfurther⟩ := own_activity (hown a (by simp)) ha
      have hthen := (ih (fun a ha => hown a (by simp [ha])) hrest).1
      exact ⟨honward.trans hthen, fun _ => hfurther.onward hthen⟩

theorem own_head {during : List (List PortActivity)}
    (hown : ∀ activities ∈ during, ∀ a ∈ activities, a.isOwn = true) :
    ∀ a ∈ during.headD [], a.isOwn = true := by
  cases during with
  | nil => simp
  | cons activities during => exact hown activities (by simp)

/-- One round of the loop of a tick, and whether the loop ends with it. -/
theorem pollLoop_cases {left : Nat} {during : List (List PortActivity)}
    (h : pollLoop env (left + 1) during w = some w') :
    ∃ u, Lts.exec activityStep w (during.headD []) = some u
      ∧ (w' = (u.pollOne env).1
        ∨ pollLoop env left during.tail (u.pollOne env).1 = some w') := by
  rw [pollLoop] at h
  cases ha : Lts.exec activityStep w (during.headD []) with
  | none =>
      rw [ha] at h
      exact absurd h (by simp)
  | some u =>
      rw [ha] at h
      dsimp only at h
      refine ⟨u, rfl, ?_⟩
      split at h
      · exact Or.inr h
      · exact Or.inl (Option.some.inj h).symm

/-- **The loop of a tick leads on**, whatever the port does by itself between its polls. -/
theorem pollLoop_onward {left : Nat} {during : List (List PortActivity)}
    (hown : ∀ activities ∈ during, ∀ a ∈ activities, a.isOwn = true)
    (h : pollLoop env left during w = some w') : Onward w w' := by
  induction left generalizing during w with
  | zero =>
      obtain rfl := Option.some.inj h
      exact Onward.refl w
  | succ left ih =>
      obtain ⟨u, ha, hend⟩ := pollLoop_cases h
      have hhead : ∀ a ∈ during.headD [], a.isOwn = true := own_head hown
      have hround := (activities_onward hhead ha).1.trans (pollOne_onward env u).1
      rcases hend with rfl | hrest
      · exact hround
      · exact hround.trans (ih (fun as has => hown as (List.mem_of_mem_tail has)) hrest)

/-- **A tick of its own gets further.** -/
theorem tick_further {during : List (List PortActivity)} (hstopped : w.stopped = false)
    (hown : w.OwnTick during) (h : w.runIoContect env during = some w') :
    Onward w w' ∧ Further w w' := by
  obtain ⟨v, hloop, rfl⟩ := Option.map_eq_some_iff.mp h
  have hmain : Onward w v ∧ Further w v := by
    have hfirst : pollLoop env (50 + 1) during w = some v := hloop
    obtain ⟨u, ha, hend⟩ := pollLoop_cases hfirst
    obtain ⟨hstart, hactive⟩ := activities_onward (own_head hown.1) ha
    obtain ⟨hpoll, hruns⟩ := pollOne_onward env u
    have hround := hstart.trans hpoll
    -- the port has done something before the first poll, or that poll runs a handler
    have hfurther : Further w (u.pollOne env).1 := by
      by_cases hnone : during.headD [] = []
      · rw [hnone] at ha
        obtain rfl := Option.some.inj ha
        exact hruns hstopped (hown.2.resolve_right (not_not_intro hnone))
      · exact (hactive hnone).onward hpoll
    rcases hend with rfl | hrest
    · exact ⟨hround, hfurther⟩
    · have hthen := pollLoop_onward
        (fun as has => hown.1 as (List.mem_of_mem_tail has)) hrest
      exact ⟨hround.trans hthen, hfurther.onward hthen⟩
  split
  · exact ⟨hmain.1.trans ⟨⟨rfl, rfl, fun _ hx => Or.inl hx⟩, Nat.le_refl _, Nat.le_refl _,
      Nat.le_refl _⟩, hmain.2⟩
  · exact hmain

theorem pollLoop_ends (env : RosEnv) (left : Nat) (w : NodeWorld) :
    ∃ w', pollLoop env left [] w = some w' := by
  induction left generalizing w with
  | zero => exact ⟨w, rfl⟩
  | succ left ih =>
      rw [pollLoop]
      dsimp only [List.headD_nil, Lts.exec_nil, List.tail_nil]
      split
      · exact ih _
      · exact ⟨_, rfl⟩

/-- A tick with nothing at the port always ends. -/
theorem tick_ends (env : RosEnv) (w : NodeWorld) : ∃ w', w.runIoContect env [] = some w' := by
  obtain ⟨v, hv⟩ : ∃ v, pollLoop env handlerLimit [] w = some v :=
    pollLoop_ends env handlerLimit w
  exact ⟨_, congrArg (Option.map _) hv⟩

/-! ## One step of its own -/

/-- **What a node can do by itself**, and that it gets further with it. -/
theorem ownStep_spec {e : NodeEvent} (hawake : w.escaped = none → w.stopped = false)
    (hs : w.ownStep env e = some w') : w.step env e = some w' ∧ Onward w w' ∧ Further w w' := by
  cases e with
  | message topicId deserialized => exact absurd hs (by simp [ownStep])
  | port activity =>
      dsimp only [ownStep] at hs
      split at hs
      · rename_i hown
        refine ⟨hs, ?_⟩
        dsimp only [step] at hs
        split at hs
        · exact absurd hs (by simp)
        · exact own_activity hown hs
      · exact absurd hs (by simp)
  | tick during =>
      dsimp only [ownStep] at hs
      split at hs
      · rename_i hown
        refine ⟨hs, ?_⟩
        dsimp only [step] at hs
        split at hs
        · exact absurd hs (by simp)
        · rename_i hgo
          exact tick_further (hawake (by simpa using hgo)) hown hs
      · exact absurd hs (by simp)

/-! ## What waits for the port -/

/-- The operation is as it was started, or has asked the port again because it is not complete. -/
def Unfinished : Operation → Prop
  | .read _ _ atLeast got => got = [] ∨ got.length < atLeast
  | .write op => op.sent = 0 ∨ op.sent < op.buffer.length

theorem startRead_pending (w : NodeWorld) (c : Option (Continuation Handler)) :
    ∀ op ∈ (w.startRead c).pending, op ∈ w.pending ∨ Unfinished op := by
  have hadded : ∀ new : Operation, Unfinished new →
      ∀ op ∈ w.pending ++ [new], op ∈ w.pending ∨ Unfinished op := by
    intro new hnew op hop
    rcases List.mem_append.mp hop with hop | hop
    · exact Or.inl hop
    · rw [List.mem_singleton.mp hop]
      exact Or.inr hnew
  match c with
  | none => exact fun op hop => Or.inl hop
  | some (.post callback off len) => exact fun op hop => Or.inl hop
  | some (.asyncRead off size atLeast) => exact hadded _ (Or.inl rfl)
  | some (.asyncReadSome off size) => exact hadded _ (Or.inl rfl)

theorem startWrite_pending (w : NodeWorld) (started : Option (List UInt8)) :
    ∀ op ∈ (w.startWrite started).pending, op ∈ w.pending ∨ Unfinished op := by
  intro op hop
  rcases List.mem_append.mp hop with hop | hop
  · exact Or.inl hop
  · obtain ⟨buffer, -, rfl⟩ := Option.map_eq_some_iff.mp (Option.mem_toList.mp hop)
    exact Or.inr (Or.inl rfl)

theorem perform_pending (w : NodeWorld) (next : Next Handler) :
    ∀ op ∈ (w.perform next).pending, op ∈ w.pending ∨ Unfinished op := by
  cases next with
  | escape f => exact fun op hop => Or.inl hop
  | read n callback => exact startRead_pending { w with reader := (w.reader.read n callback).1 } _

/-- What a handler starts is unfinished. -/
theorem runHandler_pending (env : RosEnv) (w : NodeWorld) (h : ReadyHandler) :
    ∀ op ∈ (w.runHandler env h).pending, op ∈ w.pending ∨ Unfinished op := by
  have hread : ∀ (ec : Bool) (n : Nat), ∀ op ∈ (w.readCallback ec n).pending,
      op ∈ w.pending ∨ Unfinished op := fun ec n =>
    startRead_pending { w with reader := (w.reader.readCallback ec n).1 } _
  have hwrite : ∀ error : Bool, ∀ op ∈ (w.writeEcCallback error).pending,
      op ∈ w.pending ∨ Unfinished op := fun error =>
    startWrite_pending { w with writer := (w.writer.writeEcCallback error).1 } _
  cases h with
  | posted callback off len =>
      cases callback with
      | none => exact fun op hop => Or.inl hop
      | some k =>
          let out := handle (journalled env) k w.session
            (RosStream.ofBuffer (slice w.reader.mem off len))
          exact perform_pending { w with session := out.1 } out.2
  | progressed op =>
      unfold runHandler
      cases op with
      | read off size atLeast got =>
          dsimp only
          split
          · rename_i hmore
            intro op hop
            rcases List.mem_append.mp hop with hop | hop
            · exact Or.inl hop
            · rw [List.mem_singleton.mp hop]
              exact Or.inr (Or.inr hmore.1)
          · exact hread false got.length
      | write op =>
          dsimp only
          split
          · rename_i hmore
            intro op hop
            rcases List.mem_append.mp hop with hop | hop
            · exact Or.inl hop
            · rw [List.mem_singleton.mp hop]
              exact Or.inr (Or.inr hmore)
          · exact hwrite false
  | failed op =>
      cases op with
      | read off size atLeast got => exact hread true 0
      | write op => exact hwrite true

theorem activityStep_pending {a : PortActivity} (h : w.activityStep a = some w') :
    ∀ op ∈ w'.pending, op ∈ w.pending := by
  unfold activityStep at h
  cases a with
  | arrive chunk =>
      obtain rfl := Option.some.inj h
      exact fun op hop => hop
  | receive i n =>
      dsimp only at h
      split at h
      · split at h
        · obtain rfl := Option.some.inj h
          exact fun op hop => List.mem_of_mem_eraseIdx hop
        · exact absurd h (by simp)
      · exact absurd h (by simp)
  | take i n =>
      dsimp only at h
      split at h
      · split at h
        · obtain rfl := Option.some.inj h
          exact fun op hop => List.mem_of_mem_eraseIdx hop
        · exact absurd h (by simp)
      · exact absurd h (by simp)
  | fail i =>
      dsimp only at h
      split at h
      · exact absurd h (by simp)
      · obtain rfl := Option.some.inj h
        exact fun op hop => List.mem_of_mem_eraseIdx hop

theorem settle_pending (w : NodeWorld) : w.settle.pending = w.pending := by
  obtain ⟨stopped, hsame, -⟩ := settle_spec w
  rw [hsame]

/-- **Everything that waits for the port is unfinished.** -/
theorem unfinished_reachable {es : List NodeEvent} (hx : Lts.exec (step env) start es = some w) :
    ∀ op ∈ w.pending, Unfinished op := by
  have hstart : ∀ op ∈ start.pending, Unfinished op := by
    intro op hop
    rcases perform_pending _ readAsyncHead op hop with hno | hnew
    · exact absurd hno (by simp)
    · exact hnew
  refine node_invariant (I := fun w => ∀ op ∈ w.pending, Unfinished op) ?_ ?_ hstart hx
  · intro u u' _ hI ht op hop
    cases ht with
    | activity ha => exact hI op (activityStep_pending ha op hop)
    | @handler x ready _ _ =>
        rw [settle_pending] at hop
        rcases runHandler_pending env { u with ready := ready, ran := u.ran ++ [x] } x op hop with
          hold | hnew
        · exact hI op hold
        · exact hnew
    | idle _ =>
        rw [settle_pending] at hop
        exact hI op hop
    | restart => exact hI op hop
  · intro u u' topicId deserialized _ hI hm op hop
    unfold message at hm
    split at hm
    · exact absurd hm (by simp)
    · split at hm
      · obtain rfl := Option.some.inj hm
        exact hI op hop
      · obtain rfl := Option.some.inj hm
        rcases startWrite_pending _ _ op hop with hold | hnew
        · exact hI op hold
        · exact hnew

end NodeWorld

/-! ## How much there is to do -/

/-- The frame of a message is determined by it. -/
theorem frame_unique {frame frame' : List UInt8}
    {m : SerialSubscriber × Except StdException (Option MsgObject)} (h : IsFrameOf frame m)
    (h' : IsFrameOf frame' m) : frame = frame' := by
  obtain ⟨serialMsg, hsub, rfl⟩ := h
  obtain ⟨serialMsg', hsub', rfl⟩ := h'
  obtain rfl := Except.ok.inj (hsub.symm.trans hsub')
  rfl

theorem frames_unique {frames frames' : List (List UInt8)}
    {messages : List (SerialSubscriber × Except StdException (Option MsgObject))}
    (h : List.Forall₂ IsFrameOf frames messages) (h' : List.Forall₂ IsFrameOf frames' messages) :
    frames = frames' := by
  induction h generalizing frames' with
  | nil =>
      cases h' with
      | nil => rfl
  | cons hone _ ih =>
      cases h' with
      | cons hone' hrest' => rw [frame_unique hone hone', ih hrest']

theorem frames_pos {frames : List (List UInt8)}
    {messages : List (SerialSubscriber × Except StdException (Option MsgObject))}
    (h : List.Forall₂ IsFrameOf frames messages) : ∀ frame ∈ frames, 0 < frame.length := by
  induction h with
  | nil => simp
  | cons hone _ ih =>
      obtain ⟨serialMsg, -, rfl⟩ := hone
      intro frame hframe
      rcases List.mem_cons.mp hframe with rfl | hframe
      · rw [Packet.length_bytes]
        omega
      · exact ih frame hframe

/-- The port never has more than all frames. -/
theorem port_le {pieces frames : List (List UInt8)}
    (h : List.Forall₂ (fun piece frame => piece <+: frame) pieces frames) :
    pieces.flatten.length ≤ frames.flatten.length := by
  induction h with
  | nil => exact Nat.le_refl _
  | cons hone _ ih =>
      have hle := hone.length_le
      rw [List.flatten_cons, List.flatten_cons, List.length_append, List.length_append]
      omega

/-! ## At rest -/

def Operation.isRead : Operation → Bool
  | .read _ _ _ _ => true
  | .write _ => false

/-- There is nothing left to do, unless more arrives or is sent. -/
structure Rested (w : NodeWorld) : Prop where
  ready : w.ready = []
  written : w.writer.sendBufs = []
  /-- All that arrived has been handed over, or nothing asks for it. -/
  handedOver : w.arrived = [] ∨ ∀ op ∈ w.pending, op.isRead = false

section Rest

variable {env : RosEnv} {w : NodeWorld}

/-- What is outstanding when no handler is ready waits for the port. -/
theorem outstanding_waits {x : ReadyHandler} (hready : w.ready = []) (hx : x ∈ w.outstanding) :
    ∃ op ∈ w.pending, x = .progressed op := by
  unfold NodeWorld.outstanding at hx
  rw [hready, List.append_nil] at hx
  obtain ⟨op, hop, rfl⟩ := List.mem_map.mp hx
  exact ⟨op, hop, rfl⟩

/-- A write that waits can be given to the port. -/
theorem stuck_written {s : WriteWorld} {ws rs : List ReadyHandler} (hesc : w.escaped = none)
    (hst : Lts.Stuck (NodeWorld.ownStep env) w) (hready : w.ready = [])
    (hunfinished : ∀ op ∈ w.pending, NodeWorld.Unfinished op) (hperm : w.outstanding.Perm (rs ++ ws))
    (hw : WriteHalf w s ws) : w.writer.sendBufs = [] := by
  obtain ⟨events, -, hx⟩ := hw.runs
  have hserial := WriteWorld.serial_reachable hx
  rw [← hw.writer]
  cases hw.side with
  | idle hidle =>
      rw [hidle] at hserial
      generalize s.writer.sendBufs = bufs at hserial ⊢
      generalize hno : ([] : List WriteOp) = ops at hserial
      cases hserial with
      | idle => rfl
      | busy _ => exact absurd hno (by simp)
  | @writing op hone =>
      exfalso
      obtain ⟨op', hop, heq⟩ := outstanding_waits hready (hperm.symm.subset
        (List.mem_append_right rs (List.mem_singleton.mpr rfl)))
      injection heq with hsame
      subst hsame
      obtain ⟨-, -, -, rest, hbufs⟩ := WriteWorld.serial_inFlight (i := 0) hserial (by rw [hone]; rfl)
      -- the buffer is a whole frame, so there is something to give
      have hcall : op.buffer ∈ s.calls := by
        have hacc : s.calls = s.settled.map Prod.fst ++ s.writer.sendBufs :=
          WriteWorld.accounted_reachable hx
        rw [hacc, hbufs]
        exact List.mem_append_right _ List.mem_cons_self
      have hsome := frames_pos hw.calls _ hcall
      have hroom : op.sent + 1 ≤ op.buffer.length := by
        rcases hunfinished _ hop with hzero | hlt
        · omega
        · exact hlt
      obtain ⟨i, hi, hget⟩ := List.getElem_of_mem hop
      have hnone : w.step env (.port (.take i 1)) = none := hst (.port (.take i 1))
      unfold NodeWorld.step at hnone
      rw [if_neg (by rw [hesc]; simp)] at hnone
      dsimp only [NodeWorld.activityStep] at hnone
      rw [List.getElem?_eq_getElem hi, hget] at hnone
      dsimp only at hnone
      rw [if_pos ⟨Nat.one_pos, hroom⟩] at hnone
      exact absurd hnone (by simp)
  | @failed op hone =>
      exfalso
      obtain ⟨op', -, heq⟩ := outstanding_waits hready (hperm.symm.subset
        (List.mem_append_right rs (List.mem_singleton.mpr rfl)))
      exact absurd heq (by simp)

/-- A read that waits can be given what has arrived. -/
theorem stuck_handedOver {r : ReadWorld Handler (Session Journal)} {s : WriteWorld}
    {ws rs : List ReadyHandler} (hesc : w.escaped = none)
    (hst : Lts.Stuck (NodeWorld.ownStep env) w) (hready : w.ready = [])
    (hunfinished : ∀ op ∈ w.pending, NodeWorld.Unfinished op) (hperm : w.outstanding.Perm (rs ++ ws))
    (hr : ReadHalf env w r rs) (hw : WriteHalf w s ws) :
    w.arrived = [] ∨ ∀ op ∈ w.pending, op.isRead = false := by
  cases hr.side with
  | silent _ _ =>
      right
      intro op hop
      have hmem : ReadyHandler.progressed op ∈ w.outstanding :=
        List.mem_append_left _ (List.mem_map_of_mem hop)
      have hside := hw.side.shape.2 _ (hperm.subset hmem)
      cases op with
      | read off size atLeast got => exact absurd hside (by simp [ReadyHandler.ofRead])
      | write op => rfl
  | posted _ _ _ =>
      exfalso
      obtain ⟨op, -, heq⟩ := outstanding_waits hready (hperm.symm.subset
        (List.mem_append_left ws (List.mem_singleton.mpr rfl)))
      exact absurd heq (by simp)
  | @reading c off size atLeast got hio hp _ _ _ =>
      left
      by_contra hmore
      obtain ⟨op, hop, heq⟩ := outstanding_waits hready (hperm.symm.subset
        (List.mem_append_left ws (List.mem_singleton.mpr rfl)))
      injection heq with hsame
      subst hsame
      obtain ⟨hpos, hfits⟩ := hr.fits hio hp
      have hroom : got.length + 1 ≤ size := by
        rcases hunfinished _ hop with rfl | hlt
        · rw [List.length_nil]
          omega
        · omega
      have hsome := List.length_pos_of_ne_nil hmore
      obtain ⟨i, hi, hget⟩ := List.getElem_of_mem hop
      have hnone : w.step env (.port (.receive i 1)) = none := hst (.port (.receive i 1))
      unfold NodeWorld.step at hnone
      rw [if_neg (by rw [hesc]; simp)] at hnone
      dsimp only [NodeWorld.activityStep] at hnone
      rw [List.getElem?_eq_getElem hi, hget] at hnone
      dsimp only at hnone
      rw [if_pos ⟨Nat.one_pos, hroom, hsome⟩] at hnone
      exact absurd hnone (by simp)
  | failed _ _ _ =>
      exfalso
      obtain ⟨op, -, heq⟩ := outstanding_waits hready (hperm.symm.subset
        (List.mem_append_left ws (List.mem_singleton.mpr rfl)))
      exact absurd heq (by simp)

/-- **A node that can do nothing by itself is at rest.** -/
theorem stuck_rested {es : List NodeEvent}
    (hx : Lts.exec (NodeWorld.step env) .start es = some w)
    (hst : Lts.Stuck (NodeWorld.ownStep env) w) (hesc : w.escaped = none) : Rested w := by
  have hready : w.ready = [] := by
    by_contra hne
    obtain ⟨v, hv⟩ := NodeWorld.tick_ends env w
    have hown : w.OwnTick [] := ⟨by simp, Or.inl hne⟩
    have hnone := hst (.tick [])
    unfold NodeWorld.ownStep NodeWorld.step at hnone
    dsimp only at hnone
    rw [if_pos hown, if_neg (by rw [hesc]; simp)] at hnone
    exact absurd (hv.symm.trans hnone) (by simp)
  obtain ⟨r, s, rs, ws, hperm, hr, hw⟩ := simulates_reachable hx
  have hunfinished := NodeWorld.unfinished_reachable hx
  exact ⟨hready, stuck_written hesc hst hready hunfinished hperm hw,
    stuck_handedOver hesc hst hready hunfinished hperm hr hw⟩

/-- The last state is one that the node can reach, too. -/
theorem settles_reachable {es : List NodeEvent}
    (hx : Lts.exec (NodeWorld.step env) .start es = some w) :
    Lts.Inevitably (NodeWorld.ownStep env)
      (fun w' => (∃ es', Lts.exec (NodeWorld.step env) .start es' = some w')
        ∧ NodeWorld.Alone w w' ∧ (w'.escaped = none → Rested w')) w := by
  obtain ⟨r, s, rs, ws, -, -, hw⟩ := simulates_reachable hx
  -- the port can take no more than the frames of the messages there are
  have hport : ∀ u es', Lts.exec (NodeWorld.step env) .start es' = some u →
      u.messages = w.messages → u.port.length ≤ s.calls.flatten.length := by
    intro u es' hu hmessages
    obtain ⟨_, s', _, _, -, -, hw'⟩ := simulates_reachable hu
    obtain ⟨events, -, hrun⟩ := hw'.runs
    obtain ⟨pieces, hpieces, hflat⟩ := WriteWorld.pieces_of_calls hrun
    have hcalls := hw'.calls
    rw [hmessages] at hcalls
    have hle := port_le hpieces
    rw [← hflat, hw'.port, frames_unique hcalls hw.calls] at hle
    exact hle
  let bytes := s.calls.flatten.length
  let handlers := 2 * w.received.length + bytes + w.messages.length + 1
  refine Lts.Inevitably.of_measure
    (I := fun u => (∃ es', Lts.exec (NodeWorld.step env) .start es' = some u) ∧ NodeWorld.Alone w u)
    (fun u => u.arrived.length + (bytes - u.port.length) + (handlers - u.ran.length)) ?_ ?_ ?_ w
    ⟨⟨es, hx⟩, NodeWorld.Alone.refl w⟩
  · rintro u e u' ⟨⟨es', hu⟩, halone⟩ hs
    obtain ⟨hstep, honward, -⟩ := NodeWorld.ownStep_spec (NodeWorld.awake_reachable hu) hs
    exact ⟨⟨es' ++ [e], Lts.exec_snoc hu hstep⟩, halone.trans honward.alone⟩
  · rintro u e u' ⟨⟨es', hu⟩, halone⟩ hs
    obtain ⟨hstep, honward, hfurther⟩ := NodeWorld.ownStep_spec (NodeWorld.awake_reachable hu) hs
    have hnext := Lts.exec_snoc hu hstep
    have hsame := halone.trans honward.alone
    have hpaid := handlers_paid hnext
    have hle := hport u' _ hnext hsame.messages
    rw [hsame.received, hsame.messages] at hpaid
    have harr := honward.arrived
    have hmore := honward.port
    have hran := honward.ran
    unfold NodeWorld.Further at hfurther
    omega
  · rintro u ⟨⟨es', hu⟩, halone⟩ hst
    exact ⟨⟨es', hu⟩, halone, stuck_rested hu hst⟩

end Rest

/--
**Left alone, a node comes to rest.** From whatever state it has reached, handing over what
has arrived, taking what is written and firing the timer come to an end in any order, the
port at work during a tick included. If nothing has escaped by then, every message is written
and all that was received has been handed over, unless the session no longer asks for it.
-/
theorem node_settles (env : RosEnv) (es : List NodeEvent) (w : NodeWorld)
    (hx : Lts.exec (NodeWorld.step env) .start es = some w) :
    Lts.Inevitably (NodeWorld.ownStep env)
      (fun w' => w'.received = w.received ∧ w'.messages = w.messages
        ∧ (w'.escaped = none → w'.ready = [] ∧ w'.writer.sendBufs = []
          ∧ (w'.arrived = [] ∨ ∀ op ∈ w'.pending, op.isRead = false))) w := by
  refine (settles_reachable hx).mono ?_
  rintro w' ⟨-, halone, hrest⟩
  refine ⟨halone.received, halone.messages, fun hesc => ?_⟩
  have hrested := hrest hesc
  exact ⟨hrested.ready, hrested.written, hrested.handedOver⟩

set_option maxRecDepth 4000 in
/-- Two bytes have been handed over, and one has not. -/
theorem node_settles_two :
    ∃ w, Lts.exec (NodeWorld.step (dataEnv .boolean 1)) .start
        [.port (.arrive [3, 4, 5]), .port (.receive 0 2)] = some w
      ∧ w.ready.length = 1 ∧ w.arrived = [5]
      ∧ Lts.Inevitably (NodeWorld.ownStep (dataEnv .boolean 1))
        (fun w' => w'.received = w.received ∧ w'.messages = w.messages
          ∧ (w'.escaped = none → w'.ready = [] ∧ w'.writer.sendBufs = []
            ∧ (w'.arrived = [] ∨ ∀ op ∈ w'.pending, op.isRead = false))) w := by
  have hrun : ∃ w, Lts.exec (NodeWorld.step (dataEnv .boolean 1)) .start
        [.port (.arrive [3, 4, 5]), .port (.receive 0 2)] = some w
      ∧ w.ready.length = 1 ∧ w.arrived = [5] := ⟨_, rfl, rfl, rfl⟩
  obtain ⟨w, hx, hone, harr⟩ := hrun
  exact ⟨w, hx, hone, harr, node_settles _ _ w hx⟩

/--
**Every message gets out.** If no write has failed so far, all messages delivered so far end
up on the port, each of them whole, and in their order.
-/
theorem messages_written (env : RosEnv) (es : List NodeEvent) (w : NodeWorld)
    (hx : Lts.exec (NodeWorld.step env) .start es = some w)
    (hwell : ∀ x ∈ w.ran ++ w.ready, x.fate ≠ some .discarded) :
    Lts.Inevitably (NodeWorld.ownStep env)
      (fun w' => w'.escaped = none →
        ∃ frames, List.Forall₂ IsFrameOf frames w.messages ∧ w'.port = frames.flatten) w := by
  refine (settles_reachable hx).mono ?_
  rintro w' ⟨⟨es', hx'⟩, halone, hrest⟩ hesc
  obtain ⟨r, s, rs, ws, -, -, hw⟩ := simulates_reachable hx'
  have horderly := hw.orderly (halone.writes_well hwell)
  have hcalls := hw.calls
  rw [halone.messages] at hcalls
  refine ⟨s.calls, hcalls, ?_⟩
  rw [← hw.port]
  exact horderly.port_of_idle (by rw [hw.writer]; exact (hrest hesc).written)

/-- One message, of which the port has taken nothing yet. -/
theorem messages_written_one :
    ∃ w, Lts.exec (NodeWorld.step (dataEnv .boolean 1)) .start
        [.port (.arrive subscribePacket.bytes), .port (.receive 0 31), .tick [],
          .message 101 (.ok (some [[.raw [1]]]))] = some w
      ∧ w.port = []
      ∧ Lts.Inevitably (NodeWorld.ownStep (dataEnv .boolean 1))
        (fun w' => w'.escaped = none → ∃ frames : List (List UInt8), frames.length = 1
          ∧ w'.port = frames.flatten) w := by
  have hrun : (Lts.exec (NodeWorld.step (dataEnv .boolean 1)) .start
        [.port (.arrive subscribePacket.bytes), .port (.receive 0 31), .tick [],
          .message 101 (.ok (some [[.raw [1]]]))]).map
      (fun w => (w.port, w.messages.length,
        (w.ran ++ w.ready).all fun x => x.fate != some .discarded)) = some ([], 1, true) := by
    decide +kernel
  obtain ⟨w, hx, hends⟩ := Option.map_eq_some_iff.mp hrun
  obtain ⟨hport, hrest⟩ := Prod.mk.inj hends
  obtain ⟨hone, hwell⟩ := Prod.mk.inj hrest
  have hfine : ∀ x ∈ w.ran ++ w.ready, x.fate ≠ some .discarded := by
    intro x hmem
    exact bne_iff_ne.mp (List.all_eq_true.mp hwell x hmem)
  refine ⟨w, hx, hport, (messages_written _ _ w hx hfine).mono ?_⟩
  intro w' hw' hesc
  obtain ⟨frames, hframes, hall⟩ := hw' hesc
  exact ⟨frames, hframes.length_eq.trans hone, hall⟩

end RosserialServer
