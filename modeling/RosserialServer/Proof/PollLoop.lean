import RosserialServer.Lib.Fifo
import RosserialServer.Proof.NodeRefine

/-!
# The poll loop

`run_io_contect` serves the queue of ready handlers from the front, and handlers are only
ever added at the back. So the handlers run in the order they became ready, and a tick
runs all of those it finds: there are no more than two of them, one of each buffer, and
the loop ends before its limit only when the queue is empty (`tick_serves`). What becomes
ready meanwhile is served too, up to the limit.

How many handlers there are at all is a matter of the traffic. Each is paid for by a byte
that has arrived, a byte that was written, or a message (`handlers_bounded`): the loop
never runs handlers that only keep each other going.
-/

namespace RosserialServer

open Fifo

namespace NodeWorld

variable {env : RosEnv}

/-! ## The queue -/

/-- What activity at the port makes ready: what is in the queue after it, if nothing was before. -/
def readied (w : NodeWorld) (a : PortActivity) : List ReadyHandler :=
  (({ w with ready := [] } : NodeWorld).activityStep a).elim [] NodeWorld.ready

def activitiesReadied : NodeWorld → List PortActivity → List ReadyHandler
  | _, [] => []
  | w, a :: activities =>
      w.readied a ++ (w.activityStep a).elim [] fun w => w.activitiesReadied activities

/-- What a poll makes ready, by the handler it runs. -/
def pollReadied (env : RosEnv) (w : NodeWorld) : List ReadyHandler :=
  if w.stopped then []
  else
    match w.ready with
    | [] => []
    | h :: _ => ({ w with ready := [], ran := w.ran ++ [h] }.runHandler env h).ready

/-- What becomes ready during the loop of a tick, in the order it does. -/
def loopReadied (env : RosEnv) : Nat → List (List PortActivity) → NodeWorld → List ReadyHandler
  | 0, _, _ => []
  | left + 1, during, w =>
      w.activitiesReadied (during.headD [])
        ++ (Lts.exec activityStep w (during.headD [])).elim [] fun w =>
          w.pollReadied env
            ++ if (w.pollOne env).2 ∧ (w.pollOne env).1.escaped = none then
              loopReadied env left during.tail (w.pollOne env).1
            else []

/-- What becomes ready during a tick. -/
def tickReadied (env : RosEnv) (w : NodeWorld) (during : List (List PortActivity)) :
    List ReadyHandler :=
  loopReadied env handlerLimit during w

theorem startRead_ready (w : NodeWorld) (c : Option (Continuation Handler)) :
    (w.startRead c).ready = w.ready ++ posts c := by
  match c with
  | none => exact (List.append_nil _).symm
  | some (.post callback off len) => rfl
  | some (.asyncRead off size atLeast) => exact (List.append_nil _).symm
  | some (.asyncReadSome off size) => exact (List.append_nil _).symm

theorem perform_ready (w : NodeWorld) (next : Next Handler) :
    (w.perform next).ready
      = w.ready ++ (({ w with ready := [] } : NodeWorld).perform next).ready := by
  cases next with
  | escape f => exact (List.append_nil _).symm
  | read n callback =>
      unfold perform
      dsimp only
      rw [startRead_ready, startRead_ready]
      rfl

/-- **A handler only appends to the queue**, and what it appends does not depend on it. -/
theorem runHandler_ready (env : RosEnv) (w : NodeWorld) (h : ReadyHandler) :
    (w.runHandler env h).ready
      = w.ready ++ (({ w with ready := [] } : NodeWorld).runHandler env h).ready := by
  have hread : ∀ (ec : Bool) (n : Nat), (w.readCallback ec n).ready
      = w.ready ++ (({ w with ready := [] } : NodeWorld).readCallback ec n).ready := by
    intro ec n
    unfold readCallback
    dsimp only
    rw [startRead_ready, startRead_ready]
    rfl
  cases h with
  | posted callback off len =>
      cases callback with
      | none => exact (List.append_nil _).symm
      | some k =>
          let out := handle (journalled env) k w.session
            (RosStream.ofBuffer (MemBlock.slice w.reader.mem off len))
          exact perform_ready { w with session := out.1 } out.2
  | progressed op =>
      unfold runHandler
      cases op with
      | read off size atLeast got =>
          dsimp only
          split
          · exact (List.append_nil _).symm
          · exact hread false got.length
      | write op =>
          dsimp only
          split
          · exact (List.append_nil _).symm
          · exact (List.append_nil _).symm
  | failed op =>
      cases op with
      | read off size atLeast got => exact hread true 0
      | write op => exact (List.append_nil _).symm

/-- **So does activity at the port.** -/
theorem activityStep_ready {w w' : NodeWorld} {a : PortActivity} (h : w.activityStep a = some w') :
    w'.ready = w.ready ++ w.readied a := by
  unfold readied
  unfold activityStep at h ⊢
  cases a with
  | arrive chunk =>
      obtain rfl := Option.some.inj h
      exact (List.append_nil _).symm
  | receive i n =>
      dsimp only at h ⊢
      split at h
      · split at h
        · rename_i hn
          obtain rfl := Option.some.inj h
          rw [if_pos hn]
          rfl
        · exact absurd h (by simp)
      · exact absurd h (by simp)
  | take i n =>
      dsimp only at h ⊢
      split at h
      · split at h
        · rename_i hn
          obtain rfl := Option.some.inj h
          rw [if_pos hn]
          rfl
        · exact absurd h (by simp)
      · exact absurd h (by simp)
  | fail i =>
      dsimp only at h ⊢
      split at h
      · exact absurd h (by simp)
      · obtain rfl := Option.some.inj h
        rfl

theorem runHandler_queue (env : RosEnv) (w : NodeWorld) (h : ReadyHandler) :
    (w.runHandler env h).ran = w.ran ∧ (w.runHandler env h).stopped = w.stopped := by
  obtain ⟨c, _, _, _, _, _, hsame, -⟩ := runHandler_spec env w h
  rw [hsame]
  exact ⟨rfl, rfl⟩

/-- A context that is stopped has nothing outstanding. -/
def Quiescent (w : NodeWorld) : Prop := w.stopped = true → w.ready = [] ∧ w.pending = []

theorem settle_quiescent {w : NodeWorld} (h : w.stopped = false) : w.settle.Quiescent := by
  unfold Quiescent settle
  split
  · rename_i hnone
    exact fun _ => hnone
  · intro hs
    rw [h] at hs
    exact absurd hs (by simp)

theorem settle_queue (w : NodeWorld) : w.settle.ready = w.ready ∧ w.settle.ran = w.ran := by
  obtain ⟨stopped, hsame, -⟩ := settle_spec w
  rw [hsame]
  exact ⟨rfl, rfl⟩

/-- What activity at the port leaves of the queue. -/
theorem activities_serve {es : List PortActivity} {w w' : NodeWorld} (hq : w.Quiescent)
    (hx : Lts.exec activityStep w es = some w') :
    Serves w.ready (w.activitiesReadied es) w'.ready [] ∧ w'.ran = w.ran ∧ w'.Quiescent := by
  induction es generalizing w with
  | nil =>
      obtain rfl := Option.some.inj hx
      exact ⟨Serves.refl _, rfl, hq⟩
  | cons a es ih =>
      obtain ⟨u, ha, hrest⟩ := Lts.exec_cons.mp hx
      have hready := activityStep_ready ha
      obtain ⟨reader, pending, added, arrived, received, port, hsame, hnone⟩ := activityStep_spec ha
      have hquiet : u.Quiescent := by
        rw [hsame]
        intro hstop
        obtain ⟨hr, hp⟩ := hq hstop
        obtain ⟨hadded, hp'⟩ := hnone hp
        refine ⟨?_, hp'⟩
        dsimp only
        rw [hr, hadded, List.append_nil]
      obtain ⟨hserves, hran, hq'⟩ := ih hquiet hrest
      refine ⟨?_, hran.trans (by rw [hsame]), hq'⟩
      have hone : Serves w.ready (w.readied a) u.ready [] := by
        rw [hready]
        exact Serves.push _ _
      rw [activitiesReadied, ha]
      exact hone.trans hserves

/-! ## One tick -/

/-- What the loop has done when it ends. -/
theorem pollLoop_serves (left : Nat) {during : List (List PortActivity)} {w w' : NodeWorld}
    (hq : w.Quiescent) (hx : pollLoop env left during w = some w') :
    ∃ done, w'.ran = w.ran ++ done
      ∧ Serves w.ready (loopReadied env left during w) w'.ready done ∧ done.length ≤ left
      ∧ (w'.escaped = none → done.length = left ∨ w'.ready = []) := by
  induction left generalizing during w with
  | zero =>
      obtain rfl := Option.some.inj hx
      exact ⟨[], (List.append_nil _).symm, Serves.refl _, Nat.le_refl _, fun _ => Or.inl rfl⟩
  | succ left ih =>
      rw [pollLoop] at hx
      cases ha : Lts.exec activityStep w (during.headD []) with
      | none =>
          rw [ha] at hx
          exact absurd hx (by simp)
      | some u =>
          rw [ha] at hx
          dsimp only at hx
          obtain ⟨hserves, hran, hu⟩ := activities_serve hq ha
          have hmade : loopReadied env (left + 1) during w = w.activitiesReadied (during.headD [])
              ++ (u.pollReadied env
                ++ if (u.pollOne env).2 ∧ (u.pollOne env).1.escaped = none then
                  loopReadied env left during.tail (u.pollOne env).1 else []) := by
            rw [loopReadied, ha]
            rfl
          rcases pollOne_cases env u with ⟨hp, hstop⟩ | ⟨hp, hgo, hempty⟩ | ⟨h, ready, hs, hr, hp⟩
          · -- stopped: there is nothing to run
            have hnone : loopReadied env (left + 1) during w
                = w.activitiesReadied (during.headD []) := by
              rw [hmade, hp, pollReadied, if_pos hstop, if_neg (by simp), List.append_nil,
                List.append_nil]
            rw [hp] at hx
            obtain rfl : u = w' := by simpa using hx
            refine ⟨[], by rw [hran, List.append_nil], ?_, Nat.zero_le _, fun _ => Or.inr (hu hstop).1⟩
            rw [hnone]
            exact hserves
          · have hnone : loopReadied env (left + 1) during w
                = w.activitiesReadied (during.headD []) := by
              rw [hmade, hp, pollReadied, if_neg (by rw [hgo]; simp), hempty, if_neg (by simp)]
              simp only [List.append_nil]
            rw [hp] at hx
            obtain rfl : u.settle = w' := by simpa using hx
            obtain ⟨hready, hran'⟩ := settle_queue u
            refine ⟨[], by rw [hran', hran, List.append_nil], ?_, Nat.zero_le _, fun _ => Or.inr ?_⟩
            · rw [hnone, hready]
              exact hserves
            · rw [hready, hempty]
          · let v := (({ u with ready := ready, ran := u.ran ++ [h] } : NodeWorld).runHandler env h)
            have hready := runHandler_ready env { u with ready := ready, ran := u.ran ++ [h] } h
            obtain ⟨hran', hstopped⟩ :=
              runHandler_queue env { u with ready := ready, ran := u.ran ++ [h] } h
            obtain ⟨hready', hran''⟩ := settle_queue v
            have hposted : u.pollReadied env
                = (({ u with ready := [], ran := u.ran ++ [h] } : NodeWorld).runHandler env h).ready := by
              rw [pollReadied, if_neg (by rw [hs]; simp), hr]
            -- the handler is taken from the front, and what it posts goes to the back
            have hone : Serves w.ready (w.activitiesReadied (during.headD []) ++ u.pollReadied env)
                v.settle.ready [h] := by
              have hpop : Serves u.ready (u.pollReadied env) (ready ++ u.pollReadied env) [h] := by
                rw [hr]
                exact Serves.pop h ready _
              rw [hready', hready, ← hposted]
              exact hserves.trans hpop
            have hrun : v.settle.ran = w.ran ++ [h] := by
              rw [hran'', hran']
              show u.ran ++ [h] = _
              rw [hran]
            have hquiet : v.settle.Quiescent := settle_quiescent (hstopped.trans hs)
            rw [hp] at hx hmade
            dsimp only at hx hmade
            split at hx
            · rename_i hgo
              rw [if_pos hgo, ← List.append_assoc] at hmade
              obtain ⟨done, hdone, hserve, hle, hend⟩ := ih hquiet hx
              refine ⟨h :: done, ?_, ?_, Nat.succ_le_succ hle, ?_⟩
              · rw [hdone, hrun, List.append_assoc]
                rfl
              · rw [hmade]
                exact hone.trans hserve
              · intro hesc
                rcases hend hesc with hfull | hnil
                · exact Or.inl (congrArg (· + 1) hfull)
                · exact Or.inr hnil
            · rename_i hstop
              rw [if_neg hstop, List.append_nil] at hmade
              obtain rfl := Option.some.inj hx
              refine ⟨[h], hrun, ?_, by simp, fun hesc => ?_⟩
              · rw [hmade]
                exact hone
              · exact absurd ⟨rfl, hesc⟩ hstop

/-- Between two events, a node that goes on is not stopped. -/
theorem awake_reachable {es : List NodeEvent} {w : NodeWorld}
    (hx : Lts.exec (step env) start es = some w) (hesc : w.escaped = none) : w.stopped = false := by
  have hstart : start.escaped = none → start.stopped = false := by
    intro _
    obtain ⟨c, reader, pending, hsame⟩ := start_spec
    rw [hsame]
  have hawake : w.escaped = none → w.stopped = false := by
    refine Lts.exec_invariant (I := fun w => w.escaped = none → w.stopped = false) ?_ hstart hx
    intro u e u' hI hs hesc'
    unfold step at hs
    split at hs
    · exact absurd hs (by simp)
    · rename_i hgo
      have hu : u.escaped = none := by simpa using hgo
      cases e with
      | port a =>
          obtain ⟨reader, pending, added, arrived, received, port, rfl, -⟩ := activityStep_spec hs
          exact hI hu
      | message topicId deserialized =>
          dsimp only at hs
          unfold message at hs
          split at hs
          · exact absurd hs (by simp)
          · split at hs
            · obtain rfl := Option.some.inj hs
              exact absurd hesc' (by simp)
            · obtain rfl := Option.some.inj hs
              exact hI hu
      | tick during =>
          dsimp only at hs
          unfold runIoContect at hs
          obtain ⟨v, -, rfl⟩ := Option.map_eq_some_iff.mp hs
          by_cases hrestart : v.escaped = none ∧ v.stopped = true
          · rw [if_pos hrestart]
          · rw [if_neg hrestart] at hesc' ⊢
            cases hv : v.stopped with
            | false => rfl
            | true => exact absurd ⟨hesc', hv⟩ hrestart
  exact hawake hesc

/-- No more than two handlers are ever ready: one of each buffer. -/
theorem ready_reachable {es : List NodeEvent} {w : NodeWorld}
    (hx : Lts.exec (step env) start es = some w) : w.ready.length ≤ 2 := by
  obtain ⟨r, s, rs, ws, hperm, hr, hw⟩ := simulates_reachable hx
  have hlen := hperm.length_eq
  have hrs := hr.side.shape.1
  have hws := hw.side.shape.1
  unfold outstanding at hlen
  rw [List.length_append, List.length_append] at hlen
  omega

end NodeWorld

/--
**A tick serves all it finds.** The handlers run in the order they became ready, those that
become ready during the tick included, and at most 51 of them in a tick. Unless something
escapes, all that were ready when it began have run when it ends, and so has everything else
that became ready, or the limit was reached.
-/
theorem tick_serves (env : RosEnv) (es : List NodeEvent) (w w' : NodeWorld)
    (during : List (List PortActivity)) (hx : Lts.exec (NodeWorld.step env) .start es = some w)
    (ht : w.step env (.tick during) = some w') :
    ∃ done, w'.ran = w.ran ++ done
      ∧ Serves w.ready (w.tickReadied env during) w'.ready done ∧ done.length ≤ 51
      ∧ (w'.escaped = none → w.ready <+: done ∧ w'.stopped = false
        ∧ (done.length < 51 → w'.ready = [])) := by
  have hready := NodeWorld.ready_reachable hx
  have hnext : Lts.exec (NodeWorld.step env) .start (es ++ [.tick during]) = some w' :=
    Lts.exec_snoc hx ht
  unfold NodeWorld.step at ht
  split at ht
  · exact absurd ht (by simp)
  · rename_i hgo
    have hesc : w.escaped = none := by simpa using hgo
    have hq : w.Quiescent := by
      intro hstop
      rw [NodeWorld.awake_reachable hx hesc] at hstop
      exact absurd hstop (by simp)
    dsimp only at ht
    unfold NodeWorld.runIoContect at ht
    obtain ⟨v, hv, rfl⟩ := Option.map_eq_some_iff.mp ht
    obtain ⟨done, hran, hserves, hle, hend⟩ := NodeWorld.pollLoop_serves NodeWorld.handlerLimit hq hv
    -- restarting the context moves nothing
    have hsame : ∀ u : NodeWorld,
        (u = if v.escaped = none ∧ v.stopped = true then { v with stopped := false } else v) →
        u.ran = v.ran ∧ u.ready = v.ready ∧ u.escaped = v.escaped := by
      rintro u rfl
      split
      · exact ⟨rfl, rfl, rfl⟩
      · exact ⟨rfl, rfl, rfl⟩
    obtain ⟨hran', hready', hesc'⟩ := hsame _ rfl
    refine ⟨done, hran'.trans hran, by rw [hready']; exact hserves, hle, fun hgoes => ?_⟩
    refine ⟨?_, NodeWorld.awake_reachable hnext hgoes, fun hlt => ?_⟩
    · rw [hesc'] at hgoes
      rcases hend hgoes with hfull | hnil
      · refine hserves.prefix_of_le ?_
        rw [hfull]
        unfold NodeWorld.handlerLimit
        omega
      · rw [hnil] at hserves
        exact hserves.prefix_of_nil
    · rw [hesc'] at hgoes
      rcases hend hgoes with hfull | hnil
      · unfold NodeWorld.handlerLimit at hfull
        omega
      · rw [hready', hnil]

set_option maxRecDepth 4000 in
/-- Two bytes that are no frame, read at once, take a tick three handlers. -/
theorem tick_serves_two :
    ∃ w w' done, Lts.exec (NodeWorld.step (dataEnv .boolean 1)) .start
        [.port (.arrive [3, 4]), .port (.receive 0 2)] = some w
      ∧ w.step (dataEnv .boolean 1) (.tick []) = some w' ∧ w'.escaped = none
      ∧ w'.ran = w.ran ++ done ∧ w.ready <+: done ∧ w'.ready = []
      ∧ done = w.ready ++ w.tickReadied (dataEnv .boolean 1) [] := by
  have hrun : ∃ w w', Lts.exec (NodeWorld.step (dataEnv .boolean 1)) .start
        [.port (.arrive [3, 4]), .port (.receive 0 2)] = some w
      ∧ w.step (dataEnv .boolean 1) (.tick []) = some w' ∧ w'.escaped = none
      ∧ w'.ran.length = w.ran.length + 3 := ⟨_, _, rfl, rfl, rfl, rfl⟩
  obtain ⟨w, w', hx, ht, hesc, hlen⟩ := hrun
  obtain ⟨done, hran, hserves, -, hend⟩ := tick_serves _ _ w w' [] hx ht
  obtain ⟨hfirst, -, hnil⟩ := hend hesc
  rw [hran, List.length_append] at hlen
  have hempty := hnil (by omega)
  unfold Serves at hserves
  rw [hempty, List.append_nil] at hserves
  exact ⟨w, w', done, hx, ht, hesc, hran, hfirst, hempty, hserves.symm⟩

/-! ## What the handlers are paid with -/

/-- The deliveries and failures so far, of a read buffer that follows its stream or is silent. -/
def Metered (stream : List UInt8) (past : List PortEvent)
    (r : ReadWorld Handler (Session Journal)) : Prop :=
  (∃ used rest next, stream = used ++ rest ∧ ReadWorld.Tracks readerCapacity r next rest
    ∧ (past.filterMap PortEvent.outcome).length ≤ used.length)
  ∨ (r.serviceIo = [] ∧ (past.filterMap PortEvent.outcome).length ≤ stream.length + 1)

theorem metered_step {dispatch : Dispatch Journal} {stream : List UInt8} {past : List PortEvent}
    {r r' : ReadWorld Handler (Session Journal)} {e : PortEvent} (h : Metered stream past r)
    (hs : r.step (handle dispatch) e = some r') : Metered stream (past ++ [e]) r' := by
  unfold Metered
  rw [List.filterMap_append, List.length_append]
  obtain ⟨hesc, hcases⟩ := ReadWorld.step_cases hs
  rcases h with ⟨used, rest, next, rfl, ht, hle⟩ | ⟨hio, hle⟩
  · rcases hcases with ⟨rfl, chunk, wire, hw, rfl⟩ |
      ⟨i, n, c, off, size, d, rfl, hc, hp, hmin, hmax, hav, rfl⟩ |
      ⟨i, c, off, size, d, rfl, hc, -, rfl⟩ |
      ⟨i, callback, off, len, rfl, hc, rfl⟩
    · exact Or.inl ⟨used, rest, next, rfl, ReadWorld.arrive_tracks ht hw, hle⟩
    · exact Or.inl ⟨used, rest, next, rfl,
        (ReadWorld.transfer_tracks ht hesc hc hp hmin hmax hav).2, hle⟩
    · -- the one failure there can be: nothing is started after it
      refine Or.inr ⟨?_, ?_⟩
      · show r.serviceIo.eraseIdx i ++ [] = []
        rw [List.append_nil]
        exact ht.eraseIdx hc
      · rw [List.length_append]
        simp only [List.filterMap_cons, PortEvent.outcome, List.filterMap_nil, List.length_singleton]
        omega
    · -- a delivery is one of a chunk that is not empty
      obtain ⟨chunk, rest', next', rfl, hneed, -, -, ht'⟩ :=
        ReadWorld.run_tracks (handle dispatch) ht hesc hc
      have hpos := (flat (handle dispatch) readerCapacity).need_pos _ _ hneed
      refine Or.inl ⟨used ++ chunk, rest', next', (List.append_assoc _ _ _).symm, ht', ?_⟩
      rw [List.length_append]
      simp only [List.filterMap_cons, PortEvent.outcome, List.filterMap_nil, List.length_singleton]
      omega
  · rcases hcases with ⟨rfl, chunk, wire, hw, rfl⟩ | ⟨i, _, c, _, _, _, -, hc, -⟩ |
      ⟨i, c, _, _, _, -, hc, -⟩ | ⟨i, _, _, _, -, hc, -⟩
    · exact Or.inr ⟨hio, hle⟩
    all_goals rw [hio] at hc; exact absurd hc (by simp)

theorem outcomes_reachable {dispatch : Dispatch Journal} {tables : Journal}
    {wire : List (List UInt8)} {es : List PortEvent} {r : ReadWorld Handler (Session Journal)}
    (hx : Lts.exec (ReadWorld.step (handle dispatch)) (startRead tables wire) es = some r) :
    (es.filterMap PortEvent.outcome).length ≤ wire.flatten.length + 1 := by
  have hstart : Metered wire.flatten [] (startRead tables wire) :=
    Or.inl ⟨[], wire.flatten, _, rfl, ReadWorld.start_tracks _ _ _ wire, Nat.le_refl _⟩
  have hend : Metered wire.flatten ([] ++ es) r := by
    refine Lts.exec_history (Q := fun _ => True) ?_ (fun _ _ => trivial) hstart hx
    intro past u e u' hI _ hs
    exact metered_step hI hs
  rw [List.nil_append] at hend
  rcases hend with ⟨used, rest, next, hst, -, hle⟩ | ⟨-, hle⟩
  · rw [hst, List.length_append]
    omega
  · exact hle

namespace ReadyHandler

/-- The port has given a read some bytes. -/
def isReceipt : ReadyHandler → Bool
  | .progressed (.read _ _ _ _) => true
  | .progressed (.write _) => false
  | .failed _ => false
  | .posted _ _ _ => false

/-- The port has taken some of a write. -/
def isTaking : ReadyHandler → Bool
  | .progressed (.write _) => true
  | .progressed (.read _ _ _ _) => false
  | .failed _ => false
  | .posted _ _ _ => false

end ReadyHandler

/-- Each handler is one of four. -/
theorem length_by_kind (hs : List ReadyHandler) :
    hs.length = (hs.filterMap ReadyHandler.outcome).length + hs.countP ReadyHandler.isReceipt
      + hs.countP ReadyHandler.isTaking + hs.countP ReadyHandler.isLoss := by
  induction hs with
  | nil => rfl
  | cons h hs ih =>
      rw [List.length_cons, ih]
      rcases h with _ | ⟨_ | _⟩ | ⟨_ | _⟩
      all_goals
        simp only [List.filterMap_cons, ReadyHandler.outcome, List.countP_cons, List.length_cons,
          ReadyHandler.isReceipt, ReadyHandler.isTaking, ReadyHandler.isLoss, if_true,
          Bool.false_eq_true, if_false]
        omega

/-- What the handlers have been paid with, apart from deliveries and the failure of a read. -/
structure Paid (w : NodeWorld) : Prop where
  /-- With bytes that have been handed over. -/
  receipts : (w.ran ++ w.ready).countP ReadyHandler.isReceipt + w.arrived.length ≤ w.received.length
  /-- With bytes that were written. -/
  takings : (w.ran ++ w.ready).countP ReadyHandler.isTaking ≤ w.port.length
  /-- With messages that have left the queue. -/
  losses : w.ran.countP ReadyHandler.isLoss + w.writer.sendBufs.length ≤ w.messages.length

section Paying

variable {env : RosEnv} {w w' : NodeWorld}

/-- A write that fails is that of a frame in the queue. -/
theorem loss_queued {r : ReadWorld Handler (Session Journal)} {s : WriteWorld} {x : ReadyHandler}
    {ready : List ReadyHandler} (h : Simulates env w r s) (hready : w.ready = x :: ready)
    (hx : x.isLoss = true) : 0 < w.writer.sendBufs.length := by
  obtain ⟨rs, ws, hperm, hr, hw⟩ := h
  have hout := (NodeWorld.outstanding_ready hready).symm.trans hperm
  cases x with
  | posted callback off len => exact absurd hx (by simp [ReadyHandler.isLoss])
  | progressed op => exact absurd hx (by simp [ReadyHandler.isLoss])
  | failed op =>
      cases op with
      | read off size atLeast got => exact absurd hx (by simp [ReadyHandler.isLoss])
      | write op =>
          obtain ⟨rfl, -⟩ := write_part hout rfl hr.side hw.side
          cases hw.side with
          | failed hflight =>
              obtain ⟨es, -, hx⟩ := hw.runs
              obtain ⟨-, -, -, rest, hbufs⟩ := WriteWorld.serial_inFlight (i := 0)
                (WriteWorld.serial_reachable hx) (by rw [hflight]; rfl)
              rw [← hw.writer, hbufs, List.length_cons]
              omega

theorem posts_kind (c : Option (Continuation Handler)) :
    (NodeWorld.posts c).countP ReadyHandler.isReceipt = 0
      ∧ (NodeWorld.posts c).countP ReadyHandler.isTaking = 0 := by
  constructor
  · refine List.countP_eq_zero.mpr fun x hx => ?_
    obtain ⟨callback, off, len, rfl⟩ := NodeWorld.mem_posts hx
    simp [ReadyHandler.isReceipt]
  · refine List.countP_eq_zero.mpr fun x hx => ?_
    obtain ⟨callback, off, len, rfl⟩ := NodeWorld.mem_posts hx
    simp [ReadyHandler.isTaking]

theorem paid_activity {a : PortActivity} (h : Paid w) (ha : w.activityStep a = some w') :
    Paid w' := by
  obtain ⟨hreceipts, htakings, hlosses⟩ := h
  unfold NodeWorld.activityStep at ha
  cases a with
  | arrive chunk =>
      obtain rfl := Option.some.inj ha
      refine ⟨?_, htakings, hlosses⟩
      dsimp only
      rw [List.length_append, List.length_append]
      omega
  | receive i n =>
      dsimp only at ha
      split at ha
      · split at ha
        · rename_i hn
          obtain rfl := Option.some.inj ha
          -- the one handler more is paid with the bytes taken
          refine ⟨?_, ?_, hlosses⟩
          · dsimp only
            rw [← List.append_assoc, List.countP_append, List.length_drop]
            simp only [List.countP_cons, List.countP_nil, ReadyHandler.isReceipt, if_true]
            omega
          · dsimp only
            rw [← List.append_assoc, List.countP_append]
            exact htakings
        · exact absurd ha (by simp)
      · exact absurd ha (by simp)
  | take i n =>
      dsimp only at ha
      split at ha
      · split at ha
        · rename_i hn
          obtain rfl := Option.some.inj ha
          refine ⟨?_, ?_, hlosses⟩
          · dsimp only
            rw [← List.append_assoc, List.countP_append]
            exact hreceipts
          · dsimp only
            rw [← List.append_assoc, List.countP_append, List.length_append,
              MemBlock.length_slice hn.2]
            simp only [List.countP_cons, List.countP_nil, ReadyHandler.isTaking, if_true]
            omega
        · exact absurd ha (by simp)
      · exact absurd ha (by simp)
  | fail i =>
      dsimp only at ha
      split at ha
      · exact absurd ha (by simp)
      · obtain rfl := Option.some.inj ha
        refine ⟨?_, ?_, hlosses⟩
        · dsimp only
          rw [← List.append_assoc, List.countP_append]
          exact hreceipts
        · dsimp only
          rw [← List.append_assoc, List.countP_append]
          exact htakings

theorem Paid.settle (h : Paid w) : Paid w.settle := by
  obtain ⟨stopped, hsame, -⟩ := NodeWorld.settle_spec w
  rw [hsame]
  exact ⟨h.receipts, h.takings, h.losses⟩

theorem paid_handler {r : ReadWorld Handler (Session Journal)} {s : WriteWorld} {x : ReadyHandler}
    {ready : List ReadyHandler} (h : Paid w) (hsim : Simulates env w r s)
    (hready : w.ready = x :: ready) :
    Paid ({ w with ready := ready, ran := w.ran ++ [x] }.runHandler env x) := by
  obtain ⟨hreceipts, htakings, hlosses⟩ := h
  obtain ⟨c, reader, writer, session, pending, escaped, hsame, -, hle, hempty, -⟩ :=
    NodeWorld.runHandler_spec env { w with ready := ready, ran := w.ran ++ [x] } x
  rw [hsame]
  obtain ⟨hnoReceipt, hnoTaking⟩ := posts_kind c
  -- the handler has only moved from one list to the other
  rw [hready, List.append_cons] at hreceipts htakings
  refine ⟨?_, ?_, ?_⟩
  · dsimp only
    rw [← List.append_assoc, List.countP_append, hnoReceipt]
    exact hreceipts
  · dsimp only
    rw [← List.append_assoc, List.countP_append, hnoTaking]
    exact htakings
  · dsimp only at hle ⊢
    rw [List.countP_append, List.countP_cons, List.countP_nil]
    cases hx : x.isLoss with
    | false =>
        simp only [Bool.false_eq_true, if_false]
        omega
    | true =>
        -- what it is paid with is the frame whose write has failed
        have hqueued := loss_queued hsim hready hx
        rw [hempty hx, List.length_nil]
        simp only [if_true]
        omega

theorem paid_message {topicId : UInt16} {deserialized : Except StdException (Option MsgObject)}
    (h : Paid w) (hm : w.message topicId deserialized = some w') : Paid w' := by
  obtain ⟨hreceipts, htakings, hlosses⟩ := h
  unfold NodeWorld.message at hm
  split at hm
  · exact absurd hm (by simp)
  · rename_i sub _
    cases hsub : (sub.streamDeserialized.subscribe deserialized).2 with
    | error f =>
        rw [callback_of_failure hsub] at hm
        obtain rfl := Option.some.inj hm
        exact ⟨hreceipts, htakings, hlosses⟩
    | ok serialMsg =>
        obtain ⟨started, hcall⟩ := callback_of_buffer hsub w.writer
        rw [hcall] at hm
        obtain rfl := Option.some.inj hm
        obtain ⟨pending, hsame, -⟩ := NodeWorld.startWrite_spec
          { w with
            writer := ⟨w.writer.sendBufs ++ [(framed serialMsg sub.topicInfo.topicId).bytes]⟩
            messages := w.messages ++ [(sub, deserialized)] } started
        rw [hsame]
        refine ⟨hreceipts, htakings, ?_⟩
        dsimp only
        rw [List.length_append, List.length_append, List.length_singleton, List.length_singleton]
        omega

theorem paid_reachable {es : List NodeEvent}
    (hx : Lts.exec (NodeWorld.step env) .start es = some w) : Paid w := by
  have hstart : Paid .start := by
    obtain ⟨c, reader, pending, hsame⟩ := NodeWorld.start_spec
    obtain ⟨hnoReceipt, hnoTaking⟩ := posts_kind c
    rw [hsame]
    exact ⟨Nat.le_of_eq hnoReceipt, Nat.le_of_eq hnoTaking, Nat.le_refl _⟩
  refine simulated_invariant ?_ ?_ hstart hx
  · intro u u' r s hsim hpaid ht
    cases ht with
    | activity ha => exact paid_activity hpaid ha
    | handler _ hready => exact (paid_handler hpaid hsim hready).settle
    | idle _ => exact hpaid.settle
    | restart => exact ⟨hpaid.receipts, hpaid.takings, hpaid.losses⟩
  · intro u u' r s topicId deserialized _ hpaid hm
    exact paid_message hpaid hm

/-- All handlers that have run, with what is left to pay more of them with. -/
theorem handlers_paid {es : List NodeEvent} (hx : Lts.exec (NodeWorld.step env) .start es = some w) :
    w.ran.length + w.arrived.length + w.writer.sendBufs.length
      ≤ 2 * w.received.length + w.port.length + w.messages.length + 1 := by
  obtain ⟨r, s, rs, ws, -, hr, -⟩ := simulates_reachable hx
  obtain ⟨wire, events, hwire, houtcome, hread⟩ := hr.runs []
  rw [List.flatten_nil, List.append_nil] at hwire
  have houtcomes := outcomes_reachable hread
  rw [houtcome, hwire] at houtcomes
  obtain ⟨hreceipts, htakings, hlosses⟩ := paid_reachable hx
  rw [List.countP_append] at hreceipts htakings
  rw [length_by_kind w.ran]
  omega

end Paying

/--
**Nothing spins.** A node that runs has run no more handlers than twice the bytes it has
received, the bytes it has written, the messages it has been given, and one.
-/
theorem handlers_bounded (env : RosEnv) (es : List NodeEvent) (w : NodeWorld)
    (hx : Lts.exec (NodeWorld.step env) .start es = some w) :
    w.ran.length ≤ 2 * w.received.length + w.port.length + w.messages.length + 1 := by
  have hpaid := handlers_paid hx
  omega

set_option maxRecDepth 4000 in
/-- Two bytes that are no frame are worth three handlers. -/
theorem handlers_bounded_two :
    ∃ w, Lts.exec (NodeWorld.step (dataEnv .boolean 1)) .start
        [.port (.arrive [3, 4]), .port (.receive 0 2), .tick []] = some w
      ∧ w.ran.length = 3
      ∧ w.ran.length ≤ 2 * w.received.length + w.port.length + w.messages.length + 1 := by
  have hrun : ∃ w, Lts.exec (NodeWorld.step (dataEnv .boolean 1)) .start
        [.port (.arrive [3, 4]), .port (.receive 0 2), .tick []] = some w
      ∧ w.ran.length = 3 := ⟨_, rfl, rfl⟩
  obtain ⟨w, hx, hlen⟩ := hrun
  exact ⟨w, hx, hlen, handlers_bounded _ _ w hx⟩

end RosserialServer
