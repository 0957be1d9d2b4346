import RosserialServer.Proof.WriteOrder
import RosserialServer.Session.Node

/-!
# What the node does, one thing at a time

A call of `run_io_contect` is many things: activity at the port, handlers, an end. `Turn`
is one of them, and `node_invariant` the rule that what every turn and every message keeps,
every run of the node keeps.

Whatever a turn does, it takes at most one operation or handler away and puts at most one
in its place. `outstanding` is all of them, those that wait and those that are ready.
-/

namespace RosserialServer

open MemBlock

/-- The handler stands for a write that has failed. -/
def ReadyHandler.isLoss : ReadyHandler → Bool
  | .failed (.write _) => true
  | .failed (.read _ _ _ _) => false
  | .progressed _ => false
  | .posted _ _ _ => false

/-- The handler is a callback of the session. -/
def ReadyHandler.isPosted : ReadyHandler → Bool
  | .posted _ _ _ => true
  | .progressed _ => false
  | .failed _ => false

namespace NodeWorld

variable {env : RosEnv}

/-- One thing that happens at the port or in `service_io_`. -/
inductive Turn (env : RosEnv) (w : NodeWorld) : NodeWorld → Prop where
  | activity {a : PortActivity} {w' : NodeWorld} : w.activityStep a = some w' → Turn env w w'
  /-- `poll_one` runs the first handler. -/
  | handler {h : ReadyHandler} {ready : List ReadyHandler} :
      w.stopped = false → w.ready = h :: ready →
      Turn env w ({ w with ready := ready, ran := w.ran ++ [h] }.runHandler env h).settle
  /-- `poll_one` finds no handler. -/
  | idle : w.ready = [] → Turn env w w.settle
  | restart : Turn env w { w with stopped := false }

/--
**All that activity at the port can do.** It appends to the queue, and does not reach the
session, the write buffer or the subscriptions.
-/
theorem activityStep_spec {w w' : NodeWorld} {a : PortActivity} (h : w.activityStep a = some w') :
    ∃ reader pending added arrived received port, w' = { w with
        reader := reader, pending := pending, ready := w.ready ++ added, arrived := arrived
        received := received, port := port }
      ∧ (w.pending = [] → added = [] ∧ pending = []) := by
  unfold activityStep at h
  cases a with
  | arrive chunk =>
      obtain rfl := Option.some.inj h
      exact ⟨w.reader, w.pending, [], _, _, w.port, by rw [List.append_nil], fun hp => ⟨rfl, hp⟩⟩
  | receive i n =>
      dsimp only at h
      split at h
      · rename_i hop
        split at h
        · obtain rfl := Option.some.inj h
          refine ⟨_, _, _, _, w.received, w.port, rfl, fun hp => ?_⟩
          rw [hp] at hop
          exact absurd hop (by simp)
        · exact absurd h (by simp)
      · exact absurd h (by simp)
  | take i n =>
      dsimp only at h
      split at h
      · rename_i hop
        split at h
        · obtain rfl := Option.some.inj h
          refine ⟨w.reader, _, _, w.arrived, w.received, _, rfl, fun hp => ?_⟩
          rw [hp] at hop
          exact absurd hop (by simp)
        · exact absurd h (by simp)
      · exact absurd h (by simp)
  | fail i =>
      dsimp only at h
      split at h
      · exact absurd h (by simp)
      · rename_i hop
        obtain rfl := Option.some.inj h
        refine ⟨w.reader, _, _, w.arrived, w.received, w.port, rfl, fun hp => ?_⟩
        rw [hp] at hop
        exact absurd hop (by simp)

/-- Nothing escapes at the port. -/
theorem activityStep_escaped {w w' : NodeWorld} {a : PortActivity}
    (h : w.activityStep a = some w') : w'.escaped = w.escaped := by
  obtain ⟨reader, pending, added, arrived, received, port, rfl, -⟩ := activityStep_spec h
  rfl

/-- Activity at the port is that many turns. -/
theorem activities_invariant {I : NodeWorld → Prop}
    (hturn : ∀ w w', w.escaped = none → I w → Turn env w w' → I w') {es : List PortActivity}
    {w w' : NodeWorld} (hesc : w.escaped = none) (hI : I w)
    (hx : Lts.exec activityStep w es = some w') : w'.escaped = none ∧ I w' := by
  refine Lts.exec_invariant (I := fun w => w.escaped = none ∧ I w) ?_ ⟨hesc, hI⟩ hx
  rintro u e u' ⟨hu, hI⟩ hs
  exact ⟨(activityStep_escaped hs).trans hu, hturn u u' hu hI (.activity hs)⟩

/-- What a poll does: nothing, because the context is stopped or no handler is ready, or a turn. -/
theorem pollOne_cases (env : RosEnv) (w : NodeWorld) :
    (w.pollOne env = (w, false) ∧ w.stopped = true)
      ∨ (w.pollOne env = (w.settle, false) ∧ w.stopped = false ∧ w.ready = [])
      ∨ ∃ h ready, w.stopped = false ∧ w.ready = h :: ready ∧ w.pollOne env
        = (({ w with ready := ready, ran := w.ran ++ [h] }.runHandler env h).settle, true) := by
  unfold pollOne
  cases hs : w.stopped with
  | true => exact Or.inl ⟨rfl, rfl⟩
  | false =>
      rw [if_neg (by simp)]
      cases hr : w.ready with
      | nil => exact Or.inr (Or.inl ⟨rfl, rfl, rfl⟩)
      | cons h ready => exact Or.inr (Or.inr ⟨h, ready, rfl, rfl, rfl⟩)

theorem pollLoop_invariant {I : NodeWorld → Prop}
    (hturn : ∀ w w', w.escaped = none → I w → Turn env w w' → I w') (left : Nat)
    {during : List (List PortActivity)} {w w' : NodeWorld} (hesc : w.escaped = none) (hI : I w)
    (hx : pollLoop env left during w = some w') : I w' := by
  induction left generalizing during w with
  | zero =>
      obtain rfl := Option.some.inj hx
      exact hI
  | succ left ih =>
      rw [pollLoop] at hx
      cases ha : Lts.exec activityStep w (during.headD []) with
      | none =>
          rw [ha] at hx
          exact absurd hx (by simp)
      | some u =>
          rw [ha] at hx
          dsimp only at hx
          obtain ⟨hu, hIu⟩ := activities_invariant hturn hesc hI ha
          rcases pollOne_cases env u with ⟨hp, -⟩ | ⟨hp, -, hr⟩ | ⟨h, ready, hs, hr, hp⟩
          · rw [hp] at hx
            obtain rfl : u = w' := by simpa using hx
            exact hIu
          · rw [hp] at hx
            obtain rfl : u.settle = w' := by simpa using hx
            exact hturn u _ hu hIu (.idle hr)
          · rw [hp] at hx
            have hnext := hturn u _ hu hIu (.handler hs hr)
            dsimp only at hx
            split at hx
            · rename_i hgo
              exact ih hgo.2 hnext hx
            · obtain rfl := Option.some.inj hx
              exact hnext

/-- What all turns keep, an event that is no message keeps. -/
theorem step_invariant {I : NodeWorld → Prop}
    (hturn : ∀ w w', w.escaped = none → I w → Turn env w w' → I w') {e : NodeEvent}
    {w w' : NodeWorld} (he : ∀ topicId deserialized, e ≠ .message topicId deserialized) (hI : I w)
    (hs : w.step env e = some w') : I w' := by
  unfold step at hs
  split at hs
  · exact absurd hs (by simp)
  · rename_i hgo
    have hesc : w.escaped = none := by simpa using hgo
    cases e with
    | port a => exact hturn w w' hesc hI (.activity hs)
    | message topicId deserialized => exact absurd rfl (he topicId deserialized)
    | tick during =>
        dsimp only at hs
        unfold runIoContect at hs
        obtain ⟨v, hv, rfl⟩ := Option.map_eq_some_iff.mp hs
        have hIv := pollLoop_invariant hturn handlerLimit hesc hI hv
        split
        · rename_i hgo
          exact hturn v _ hgo.1 hIv .restart
        · exact hIv

theorem step_message {topicId : UInt16} {deserialized : Except StdException (Option MsgObject)}
    {w w' : NodeWorld} (hs : w.step env (.message topicId deserialized) = some w') :
    w.escaped = none ∧ w.message topicId deserialized = some w' := by
  unfold step at hs
  split at hs
  · exact absurd hs (by simp)
  · rename_i hgo
    exact ⟨by simpa using hgo, hs⟩

/-- **The invariant rule of the node.** -/
theorem node_invariant {I : NodeWorld → Prop}
    (hturn : ∀ w w', w.escaped = none → I w → Turn env w w' → I w')
    (hmessage : ∀ w w' topicId deserialized, w.escaped = none → I w →
      w.message topicId deserialized = some w' → I w')
    {es : List NodeEvent} {w w' : NodeWorld} (hI : I w) (hx : Lts.exec (step env) w es = some w') :
    I w' := by
  refine Lts.exec_invariant ?_ hI hx
  intro u e u' hI hs
  by_cases he : ∃ topicId deserialized, e = .message topicId deserialized
  · obtain ⟨topicId, deserialized, rfl⟩ := he
    obtain ⟨hesc, hm⟩ := step_message hs
    exact hmessage u u' topicId deserialized hesc hI hm
  · exact step_invariant hturn (fun t d ht => he ⟨t, d, ht⟩) hI hs

/-! ## What is outstanding -/

/-- The operations that wait, and the handlers that are ready. -/
def outstanding (w : NodeWorld) : List ReadyHandler :=
  w.pending.map .progressed ++ w.ready

/-- What a read buffer asks for is outstanding then. -/
def asked : Option (Continuation Handler) → List ReadyHandler
  | none => []
  | some (.post callback off len) => [.posted callback off len]
  | some (.asyncRead off size atLeast) => [.progressed (.read off size atLeast [])]
  | some (.asyncReadSome off size) => [.progressed (.read off size 1 [])]

theorem outstanding_pend (w : NodeWorld) (op : Operation) :
    ({ w with pending := w.pending ++ [op] } : NodeWorld).outstanding.Perm
      (.progressed op :: w.outstanding) := by
  unfold outstanding
  rw [List.map_append, List.append_assoc]
  exact List.perm_middle

theorem outstanding_post (w : NodeWorld) (h : ReadyHandler) :
    ({ w with ready := w.ready ++ [h] } : NodeWorld).outstanding.Perm (h :: w.outstanding) := by
  unfold outstanding
  rw [← List.append_assoc]
  exact List.perm_append_singleton h _

/-- What of it is a handler already: a callback that is posted. -/
def posts : Option (Continuation Handler) → List ReadyHandler
  | some (.post callback off len) => [.posted callback off len]
  | some (.asyncRead _ _ _) => []
  | some (.asyncReadSome _ _) => []
  | none => []

theorem mem_posts {c : Option (Continuation Handler)} {x : ReadyHandler} (h : x ∈ posts c) :
    ∃ callback off len, x = .posted callback off len := by
  match c with
  | none => exact absurd h (by simp [posts])
  | some (.post callback off len) => exact ⟨callback, off, len, List.mem_singleton.mp h⟩
  | some (.asyncRead off size atLeast) => exact absurd h (by simp [posts])
  | some (.asyncReadSome off size) => exact absurd h (by simp [posts])

/-- Starting a read adds what is asked for, at the back, and changes nothing else. -/
theorem startRead_spec (w : NodeWorld) (c : Option (Continuation Handler)) :
    ∃ pending, w.startRead c = { w with pending := pending, ready := w.ready ++ posts c }
      ∧ (w.startRead c).outstanding.Perm (asked c ++ w.outstanding) := by
  match c with
  | none => exact ⟨w.pending, by rw [posts, List.append_nil]; rfl, List.Perm.refl _⟩
  | some (.post callback off len) => exact ⟨_, rfl, outstanding_post w _⟩
  | some (.asyncRead off size atLeast) =>
      exact ⟨_, by rw [posts, List.append_nil]; rfl, outstanding_pend w _⟩
  | some (.asyncReadSome off size) =>
      exact ⟨_, by rw [posts, List.append_nil]; rfl, outstanding_pend w _⟩

/-- What a callback asks for at its end leaves the rest of the node alone. -/
theorem perform_spec (w : NodeWorld) (next : Next Handler) :
    ∃ c reader pending escaped, w.perform next
        = { w with
            reader := reader
            pending := pending
            ready := w.ready ++ posts c
            escaped := escaped }
      ∧ ((∀ f, next ≠ .escape f) → escaped = w.escaped) := by
  cases next with
  | escape f =>
      exact ⟨none, w.reader, w.pending, some f, by rw [posts, List.append_nil]; rfl,
        fun hno => absurd rfl (hno f)⟩
  | read n callback =>
      obtain ⟨pending, hsame, -⟩ :=
        startRead_spec { w with reader := (w.reader.read n callback).1 }
          (w.reader.read n callback).2
      exact ⟨_, _, pending, w.escaped, hsame, fun _ => rfl⟩

/-- A node that starts has done nothing but ask for its first byte. -/
theorem start_spec :
    ∃ c reader pending, start
      = { reader := reader, writer := ⟨[]⟩, session := { tables := .new, dispatched := [] }
          pending := pending, ready := posts c, stopped := false, escaped := none
          arrived := [], received := [], port := [], ran := [], messages := [] } := by
  obtain ⟨c, reader, pending, escaped, hsame, hgoes⟩ := perform_spec
    { reader := .new readerCapacity, writer := ⟨[]⟩
      session := { tables := .new, dispatched := [] }
      pending := [], ready := [], stopped := false, escaped := none
      arrived := [], received := [], port := [], ran := [], messages := [] } readAsyncHead
  obtain rfl := hgoes (by simp [readAsyncHead])
  exact ⟨c, reader, pending, hsame⟩

/-- The write that a locked section starts, if any. -/
def launched (started : Option (List UInt8)) : List ReadyHandler :=
  (started.map fun buffer => ReadyHandler.progressed (.write ⟨buffer, 0⟩)).toList

theorem startWrite_spec (w : NodeWorld) (started : Option (List UInt8)) :
    ∃ pending, w.startWrite started = { w with pending := pending }
      ∧ (w.startWrite started).outstanding.Perm (launched started ++ w.outstanding) := by
  refine ⟨_, rfl, ?_⟩
  cases started with
  | none =>
      have hsame : w.startWrite none = w := by
        unfold startWrite
        rw [Option.map_none, Option.toList_none, List.append_nil]
      rw [hsame]
      exact List.Perm.refl _
  | some buffer => exact outstanding_pend w _

/-- A handler is taken from the front. -/
theorem outstanding_ready {w : NodeWorld} {h : ReadyHandler} {ready : List ReadyHandler}
    (hr : w.ready = h :: ready) :
    w.outstanding.Perm (h :: ({ w with ready := ready } : NodeWorld).outstanding) := by
  unfold outstanding
  rw [hr]
  exact List.perm_middle

/-- An operation that waited is replaced by a handler. -/
theorem outstanding_activity {w : NodeWorld} {i : Nat} {op : Operation}
    (hop : w.pending[i]? = some op) (h : ReadyHandler) :
    ∃ rest, w.outstanding.Perm (.progressed op :: rest)
      ∧ ({ w with pending := w.pending.eraseIdx i, ready := w.ready ++ [h] }
          : NodeWorld).outstanding.Perm (h :: rest) := by
  obtain ⟨hi, rfl⟩ := List.getElem?_eq_some_iff.mp hop
  refine ⟨(w.pending.eraseIdx i).map .progressed ++ w.ready, ?_, ?_⟩
  · have hperm := (List.getElem_cons_eraseIdx_perm hi).symm.map ReadyHandler.progressed
    exact hperm.append_right w.ready
  · unfold outstanding
    rw [← List.append_assoc]
    exact List.perm_append_singleton h _

/-- Finding nothing outstanding only stops the context. -/
theorem settle_spec (w : NodeWorld) :
    ∃ stopped, w.settle = { w with stopped := stopped }
      ∧ (stopped = true → w.stopped = true ∨ (w.ready = [] ∧ w.pending = [])) := by
  unfold settle
  split
  · rename_i hnone
    exact ⟨true, rfl, fun _ => Or.inr hnone⟩
  · exact ⟨w.stopped, rfl, Or.inl⟩

/-! ## What a handler does -/

/-- A callback of the session only adds to what was dispatched. -/
theorem handle_dispatched {τ : Type} (dispatch : Dispatch τ) (k : Handler) (session : Session τ)
    (readStream : RosStream) :
    session.dispatched <+: (handle dispatch k session readStream).1.dispatched := by
  cases k with
  | readAsyncFirst => exact List.prefix_refl _
  | readAsyncSecond => exact List.prefix_refl _
  | readLength => exact List.prefix_refl _
  | readBody topicId =>
      unfold handle readBody
      dsimp only
      split
      · exact List.prefix_refl _
      · split
        · exact List.prefix_refl _
        · split
          · exact List.prefix_refl _
          · split
            · exact List.prefix_append _ _
            · exact List.prefix_append _ _

/--
**What a handler leaves alone.** It posts callbacks at the back of the queue, and adds to
what was dispatched. Only the handler of a write touches the writer, and never makes its
queue longer; after an error it is empty. Only a callback can end the node.
-/
theorem runHandler_spec (env : RosEnv) (w : NodeWorld) (h : ReadyHandler) :
    ∃ c reader writer session pending escaped, w.runHandler env h
        = { w with
            reader := reader
            writer := writer
            session := session
            pending := pending
            ready := w.ready ++ posts c
            escaped := escaped }
      ∧ w.session.dispatched <+: session.dispatched
      ∧ writer.sendBufs.length ≤ w.writer.sendBufs.length ∧ (h.isLoss = true → writer.sendBufs = [])
      ∧ (h.isPosted = false → escaped = w.escaped) := by
  have hread : ∀ (ec : Bool) (n : Nat), ∃ c reader pending, w.readCallback ec n
      = { w with reader := reader, pending := pending, ready := w.ready ++ posts c } := by
    intro ec n
    obtain ⟨pending, hsame, -⟩ := startRead_spec
      { w with reader := (w.reader.readCallback ec n).1 } (w.reader.readCallback ec n).2
    exact ⟨_, _, pending, hsame⟩
  have hagain : ∀ op, ({ w with pending := w.pending ++ [op] } : NodeWorld)
      = { w with pending := w.pending ++ [op], ready := w.ready ++ posts none } := by
    intro op
    rw [posts, List.append_nil]
  cases h with
  | posted callback off len =>
      cases callback with
      | none =>
          refine ⟨none, w.reader, w.writer, w.session, w.pending, some (.thrown .badFunctionCall), ?_,
            List.prefix_refl _, Nat.le_refl _, by simp [ReadyHandler.isLoss],
            by simp [ReadyHandler.isPosted]⟩
          rw [posts, List.append_nil]
          rfl
      | some k =>
          let out := handle (journalled env) k w.session
            (RosStream.ofBuffer (slice w.reader.mem off len))
          obtain ⟨c, reader, pending, escaped, hsame, -⟩ :=
            perform_spec { w with session := out.1 } out.2
          exact ⟨c, reader, w.writer, out.1, pending, escaped, hsame,
            handle_dispatched (journalled env) k w.session _, Nat.le_refl _,
            by simp [ReadyHandler.isLoss], by simp [ReadyHandler.isPosted]⟩
  | progressed op =>
      cases op with
      | read off size atLeast got =>
          unfold runHandler
          dsimp only
          split
          · rw [hagain]
            exact ⟨none, _, _, _, _, _, rfl, List.prefix_refl _, Nat.le_refl _,
              by simp [ReadyHandler.isLoss], fun _ => rfl⟩
          · obtain ⟨c, reader, pending, hsame⟩ := hread false got.length
            rw [hsame]
            exact ⟨c, _, _, _, _, _, rfl, List.prefix_refl _, Nat.le_refl _,
              by simp [ReadyHandler.isLoss], fun _ => rfl⟩
      | write op =>
          unfold runHandler
          dsimp only
          split
          · rw [hagain]
            exact ⟨none, _, _, _, _, _, rfl, List.prefix_refl _, Nat.le_refl _,
              by simp [ReadyHandler.isLoss], fun _ => rfl⟩
          · obtain ⟨pending, hsame, -⟩ := startWrite_spec
              { w with writer := (w.writer.writeEcCallback false).1 } (w.writer.writeEcCallback false).2
            refine ⟨none, w.reader, (w.writer.writeEcCallback false).1, w.session, pending, w.escaped,
              ?_, List.prefix_refl _, ?_, by simp [ReadyHandler.isLoss], fun _ => rfl⟩
            · rw [posts, List.append_nil]
              exact hsame
            · rw [(WriteWorld.complete_queue w.writer.sendBufs).1, List.length_tail]
              omega
  | failed op =>
      cases op with
      | read off size atLeast got =>
          obtain ⟨c, reader, pending, hsame⟩ := hread true 0
          exact ⟨c, _, _, _, _, _, hsame, List.prefix_refl _, Nat.le_refl _,
            by simp [ReadyHandler.isLoss], fun _ => rfl⟩
      | write op =>
          obtain ⟨pending, hsame, -⟩ := startWrite_spec { w with writer := ⟨[]⟩ } none
          refine ⟨none, w.reader, ⟨[]⟩, w.session, pending, w.escaped, ?_, List.prefix_refl _,
            Nat.zero_le _, fun _ => rfl, fun _ => rfl⟩
          rw [posts, List.append_nil]
          exact hsame

end NodeWorld

end RosserialServer
