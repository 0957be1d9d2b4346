import RosserialServer.Transport.AsyncWriteBuffer

/-!
# Writes are serialized

Every safety fact about the write side follows from one shape, `Serial`: the queue is
empty and nothing is in flight, or exactly one write is in flight and it is that of the
front of the queue. The emptiness of `send_bufs_` is then a sound "busy" flag: a
caller that finds the queue empty is the only one to start a write, and a handler that
runs has the write it completes at the front.

What the port receives is a second invariant, `Clean`, of the runs without an error. It
needs no induction of its own over the interleavings: it is `Serial` plus what each
event adds to the port.
-/

namespace RosserialServer

open MemBlock

namespace WriteWorld

/-! ## What one event can do -/

/-- **Everything an event can do.** -/
theorem step_cases {w w' : WriteWorld} {e : WriteEvent} (h : w.step e = some w') :
    (∃ serialMsg topicId writeBuf, e = .call serialMsg topicId
        ∧ packagingMsg serialMsg topicId = .ok writeBuf
        ∧ w' = { w with packaged := w.packaged ++ [writeBuf.getVector] })
    ∨ (∃ i payload, e = .lock i ∧ w.packaged[i]? = some payload
        ∧ w' = { w with
            writer := (w.writer.enqueue payload).1
            packaged := w.packaged.eraseIdx i
            calls := w.calls ++ [payload] }.launch (w.writer.enqueue payload).2)
    ∨ (∃ i n op, e = .transfer i n ∧ w.inFlight[i]? = some op ∧ 0 < n
        ∧ op.sent + n ≤ op.buffer.length
        ∧ w' = { w with
            inFlight := w.inFlight.set i { op with sent := op.sent + n }
            port := w.port ++ slice op.buffer op.sent n })
    ∨ (∃ i op, e = .complete i ∧ w.inFlight[i]? = some op ∧ op.sent = op.buffer.length
        ∧ w' = { w with
            writer := (w.writer.writeEcCallback false).1
            inFlight := w.inFlight.eraseIdx i
            settled := w.settled ++ (w.writer.sendBufs.take 1).map fun frame =>
              (frame, Fate.delivered) }.launch (w.writer.writeEcCallback false).2)
    ∨ (∃ i op, e = .fail i ∧ w.inFlight[i]? = some op
        ∧ w' = { w with
            writer := (w.writer.writeEcCallback true).1
            inFlight := w.inFlight.eraseIdx i
            settled := w.settled ++ w.writer.sendBufs.map fun frame =>
              (frame, Fate.discarded) }.launch (w.writer.writeEcCallback true).2) := by
  unfold step at h
  cases e with
  | call serialMsg topicId =>
      left
      dsimp only at h
      split at h
      · exact absurd h (by simp)
      · rename_i writeBuf hp
        exact ⟨serialMsg, topicId, writeBuf, rfl, hp, (Option.some.inj h).symm⟩
  | lock i =>
      right; left
      dsimp only at h
      split at h
      · exact absurd h (by simp)
      · rename_i payload hp
        exact ⟨i, payload, rfl, hp, (Option.some.inj h).symm⟩
  | transfer i n =>
      right; right; left
      dsimp only at h
      split at h
      · exact absurd h (by simp)
      · rename_i op hop
        split at h
        · rename_i hn
          exact ⟨i, n, op, rfl, hop, hn.1, hn.2, (Option.some.inj h).symm⟩
        · exact absurd h (by simp)
  | complete i =>
      right; right; right; left
      dsimp only at h
      split at h
      · exact absurd h (by simp)
      · rename_i op hop
        split at h
        · rename_i hsent
          exact ⟨i, op, rfl, hop, hsent, (Option.some.inj h).symm⟩
        · exact absurd h (by simp)
  | fail i =>
      right; right; right; right
      dsimp only at h
      split at h
      · exact absurd h (by simp)
      · rename_i op hop
        exact ⟨i, op, rfl, hop, (Option.some.inj h).symm⟩

/-! ## At most one write, that of the front -/

/-- The queue and the writes in flight, in step. -/
inductive Serial : List (List UInt8) → List WriteOp → Prop where
  | idle : Serial [] []
  | busy {frame : List UInt8} {rest : List (List UInt8)} {sent : Nat} :
      sent ≤ frame.length → Serial (frame :: rest) [⟨frame, sent⟩]

/-- A write that starts is that of the front of the queue, with nothing sent yet. -/
theorem serial_launch (bufs : List (List UInt8)) :
    Serial bufs ((bufs.head?.map fun buffer => (⟨buffer, 0⟩ : WriteOp)).toList) := by
  cases bufs with
  | nil => exact Serial.idle
  | cons frame rest => exact Serial.busy (Nat.zero_le _)

/-- The one write in flight has index 0, and its buffer is the front of the queue. -/
theorem serial_inFlight {bufs : List (List UInt8)} {ops : List WriteOp} {i : Nat} {op : WriteOp}
    (h : Serial bufs ops) (hop : ops[i]? = some op) :
    i = 0 ∧ ops = [op] ∧ op.sent ≤ op.buffer.length ∧ ∃ rest, bufs = op.buffer :: rest := by
  cases h with
  | idle => exact absurd hop (by simp)
  | @busy frame rest sent hle =>
      cases i with
      | zero =>
          obtain rfl : (⟨frame, sent⟩ : WriteOp) = op := by simpa using hop
          exact ⟨rfl, rfl, hle, rest, rfl⟩
      | succ i => exact absurd hop (by simp)

/-- What each event leaves in the queue and in flight, from a serial state. -/
theorem lock_queue {bufs : List (List UInt8)} {ops : List WriteOp} (h : Serial bufs ops)
    (payload : List UInt8) :
    ((AsyncWriteBuffer.mk bufs).enqueue payload).1.sendBufs = bufs ++ [payload]
      ∧ Serial (bufs ++ [payload])
        (ops ++ (((AsyncWriteBuffer.mk bufs).enqueue payload).2.map
          fun buffer => (⟨buffer, 0⟩ : WriteOp)).toList) := by
  cases h with
  | idle => exact ⟨rfl, Serial.busy (Nat.zero_le _)⟩
  | busy hle => exact ⟨rfl, Serial.busy hle⟩

theorem complete_queue (bufs : List (List UInt8)) :
    ((AsyncWriteBuffer.mk bufs).writeEcCallback false).1.sendBufs = bufs.tail
      ∧ ((AsyncWriteBuffer.mk bufs).writeEcCallback false).2 = bufs.tail.head? := by
  cases bufs with
  | nil => exact ⟨rfl, rfl⟩
  | cons frame rest =>
      cases rest with
      | nil => exact ⟨rfl, rfl⟩
      | cons frame' rest => exact ⟨rfl, rfl⟩

theorem step_serial {w w' : WriteWorld} {e : WriteEvent}
    (h : Serial w.writer.sendBufs w.inFlight) (hs : w.step e = some w') :
    Serial w'.writer.sendBufs w'.inFlight := by
  rcases step_cases hs with ⟨_, _, _, _, _, rfl⟩ | ⟨i, payload, _, _, rfl⟩ |
    ⟨i, n, op, _, hop, _, hle, rfl⟩ | ⟨i, op, _, hop, _, rfl⟩ | ⟨i, op, _, hop, rfl⟩
  · exact h
  · -- a caller starts a write only if the queue was empty, and then nothing was in flight
    have hq := lock_queue h payload
    show Serial (w.writer.enqueue payload).1.sendBufs _
    rw [hq.1]
    exact hq.2
  · obtain ⟨rfl, hops, _, rest, hbufs⟩ := serial_inFlight h hop
    show Serial w.writer.sendBufs (w.inFlight.set 0 _)
    rw [hops, hbufs]
    exact Serial.busy hle
  · -- the handler pops the frame it wrote and starts the next
    obtain ⟨rfl, hops, _⟩ := serial_inFlight h hop
    have hq := complete_queue w.writer.sendBufs
    show Serial (w.writer.writeEcCallback false).1.sendBufs (w.inFlight.eraseIdx 0 ++ _)
    rw [hops, hq.1, hq.2]
    exact serial_launch w.writer.sendBufs.tail
  · obtain ⟨rfl, hops, _⟩ := serial_inFlight h hop
    show Serial [] (w.inFlight.eraseIdx 0 ++ [])
    rw [hops]
    exact Serial.idle

theorem serial_reachable {es : List WriteEvent} {w : WriteWorld}
    (h : Lts.exec step init es = some w) : Serial w.writer.sendBufs w.inFlight := by
  refine Lts.exec_invariant (I := fun w => Serial w.writer.sendBufs w.inFlight) ?_ Serial.idle h
  intro u e u' hI hs
  exact step_serial hI hs

/-! ## Every frame is accounted for -/

/-- Frames leave the queue in the order they entered it. -/
def Accounted (w : WriteWorld) : Prop := w.calls = w.settled.map Prod.fst ++ w.writer.sendBufs

theorem step_accounted {w w' : WriteWorld} {e : WriteEvent}
    (h : Serial w.writer.sendBufs w.inFlight) (ha : w.Accounted) (hs : w.step e = some w') :
    w'.Accounted := by
  unfold Accounted at ha ⊢
  rcases step_cases hs with ⟨_, _, _, _, _, rfl⟩ | ⟨i, payload, _, _, rfl⟩ |
    ⟨i, n, op, _, _, _, _, rfl⟩ | ⟨i, op, _, hop, _, rfl⟩ | ⟨i, op, _, _, rfl⟩
  · exact ha
  · show w.calls ++ [payload] = w.settled.map Prod.fst ++ (w.writer.enqueue payload).1.sendBufs
    rw [(lock_queue h payload).1, ha, List.append_assoc]
  · exact ha
  · obtain ⟨-, -, -, rest, hbufs⟩ := serial_inFlight h hop
    show w.calls = (w.settled ++ (w.writer.sendBufs.take 1).map _).map Prod.fst
      ++ (w.writer.writeEcCallback false).1.sendBufs
    rw [(complete_queue w.writer.sendBufs).1, ha, hbufs]
    simp
  · show w.calls = (w.settled ++ w.writer.sendBufs.map _).map Prod.fst ++ []
    rw [ha, List.map_append, List.map_map, List.append_nil]
    exact congrArg _ (List.map_id _).symm

theorem accounted_reachable {es : List WriteEvent} {w : WriteWorld}
    (h : Lts.exec step init es = some w) : w.Accounted := by
  have hboth : Serial w.writer.sendBufs w.inFlight ∧ w.Accounted := by
    refine Lts.exec_invariant
      (I := fun w => Serial w.writer.sendBufs w.inFlight ∧ w.Accounted) ?_ ⟨Serial.idle, rfl⟩ h
    intro u e u' hI hs
    exact ⟨step_serial hI.1 hs, step_accounted hI.1 hI.2 hs⟩
  exact hboth.2

/-- The frame a call builds, for the events that are calls. -/
def frameOf : WriteEvent → Option (List UInt8)
  | .call serialMsg topicId => (packagingMsg serialMsg topicId).toOption.map WriteBuffer.getVector
  | _ => none

/-- No call is forgotten and none is counted twice. -/
theorem calls_perm {es : List WriteEvent} {w w' : WriteWorld} (h : Lts.exec step w es = some w') :
    (w'.calls ++ w'.packaged).Perm (w.calls ++ w.packaged ++ es.filterMap frameOf) := by
  induction es generalizing w with
  | nil =>
      simp only [Lts.exec_nil, Option.some.injEq] at h
      subst h
      simp
  | cons e es ih =>
      obtain ⟨t, ht, hr⟩ := Lts.exec_cons.mp h
      refine (ih hr).trans ?_
      rcases step_cases ht with ⟨b, topicId, writeBuf, rfl, hp, rfl⟩ | ⟨i, payload, rfl, hp, rfl⟩ |
        ⟨i, n, op, rfl, _, _, _, rfl⟩ | ⟨i, op, rfl, _, _, rfl⟩ | ⟨i, op, rfl, _, rfl⟩
      · have hf : frameOf (.call b topicId) = some writeBuf.getVector := by
          show (packagingMsg b topicId).toOption.map WriteBuffer.getVector = _
          rw [hp]; rfl
        rw [List.filterMap_cons_some hf]
        simp
      · -- the locked caller's frame moves from one list to the other
        rw [List.filterMap_cons_none rfl]
        refine List.Perm.append_right _ ?_
        show (w.calls ++ [payload] ++ w.packaged.eraseIdx i).Perm (w.calls ++ w.packaged)
        rw [List.append_assoc]
        refine List.Perm.append_left _ ?_
        obtain ⟨hi, rfl⟩ := List.getElem?_eq_some_iff.mp hp
        exact List.getElem_cons_eraseIdx_perm hi
      · rw [List.filterMap_cons_none rfl]
      · rw [List.filterMap_cons_none rfl]; rfl
      · rw [List.filterMap_cons_none rfl]; rfl

/-! ## Runs without an error -/

/-- The part of the writes in flight that the port has taken. -/
def underWay (w : WriteWorld) : List UInt8 := w.inFlight.flatMap fun op => op.buffer.take op.sent

/-- What the port has received when no write has failed. -/
structure Clean (w : WriteWorld) : Prop where
  /-- Every frame that left the queue was delivered. -/
  delivered : ∀ f ∈ w.settled, f.2 = .delivered
  /-- The port holds those frames, then a prefix of the one in flight. -/
  port : w.port = (w.settled.map Prod.fst).flatten ++ w.underWay

/-- The steps of a run in which no write fails. -/
def cleanStep (w : WriteWorld) (e : WriteEvent) : Option WriteWorld :=
  if e.isFail then none else w.step e

theorem cleanStep_some {w w' : WriteWorld} {e : WriteEvent} (h : w.cleanStep e = some w') :
    e.isFail = false ∧ w.step e = some w' := by
  unfold cleanStep at h
  split at h
  · exact absurd h (by simp)
  · rename_i he
    exact ⟨by simpa using he, h⟩

/-- A write that has just started has handed nothing to the port. -/
theorem underWay_launch (w : WriteWorld) (started : Option (List UInt8)) :
    (w.launch started).underWay = w.underWay := by
  cases started with
  | none => simp [launch, underWay]
  | some buffer => simp [launch, underWay]

theorem step_clean {w w' : WriteWorld} {e : WriteEvent}
    (h : Serial w.writer.sendBufs w.inFlight) (hc : w.Clean) (hs : w.cleanStep e = some w') :
    w'.Clean := by
  obtain ⟨hq, hs⟩ := cleanStep_some hs
  rcases step_cases hs with ⟨_, _, _, _, _, rfl⟩ | ⟨i, payload, _, _, rfl⟩ |
    ⟨i, n, op, _, hop, _, hle, rfl⟩ | ⟨i, op, _, hop, hsent, rfl⟩ | ⟨i, op, rfl, _, rfl⟩
  · exact ⟨hc.delivered, hc.port⟩
  · refine ⟨hc.delivered, ?_⟩
    rw [underWay_launch]
    exact hc.port
  · obtain ⟨rfl, hops, _⟩ := serial_inFlight h hop
    refine ⟨hc.delivered, ?_⟩
    show w.port ++ slice op.buffer op.sent n = (w.settled.map Prod.fst).flatten ++ _
    have hw : w.underWay = op.buffer.take op.sent := by unfold underWay; rw [hops]; simp
    rw [hc.port, hw, List.append_assoc]
    congr 1
    unfold underWay
    rw [hops]
    simp [slice, List.take_add]
  · -- what was under way is the whole frame now
    obtain ⟨rfl, hops, _, rest, hbufs⟩ := serial_inFlight h hop
    have hw : w.underWay = op.buffer := by
      unfold underWay; rw [hops]; simp [hsent]
    refine ⟨?_, ?_⟩
    · intro f hf
      rcases List.mem_append.mp hf with hf | hf
      · exact hc.delivered f hf
      · obtain ⟨frame, _, rfl⟩ := List.mem_map.mp hf
        rfl
    · rw [underWay_launch]
      show w.port = ((w.settled ++ (w.writer.sendBufs.take 1).map _).map Prod.fst).flatten
        ++ (w.inFlight.eraseIdx 0).flatMap _
      rw [hc.port, hw, hops, hbufs]
      simp
  · exact absurd hq (by simp [WriteEvent.isFail])

/-- All that a state reached without an error satisfies. -/
structure Orderly (w : WriteWorld) : Prop where
  serial : Serial w.writer.sendBufs w.inFlight
  accounted : w.Accounted
  clean : w.Clean

theorem init_orderly : init.Orderly :=
  ⟨Serial.idle, rfl, by simp [init], by simp [init, underWay]⟩

theorem step_orderly {w w' : WriteWorld} {e : WriteEvent} (h : w.Orderly)
    (hs : w.cleanStep e = some w') : w'.Orderly :=
  ⟨step_serial h.serial (cleanStep_some hs).2,
    step_accounted h.serial h.accounted (cleanStep_some hs).2, step_clean h.serial h.clean hs⟩

/-! ## The queue drains -/

/-- The steps of the port and of callers that have already framed their message. -/
def drainStep (w : WriteWorld) (e : WriteEvent) : Option WriteWorld :=
  match e with
  | .call _ _ => none
  | e => w.cleanStep e

theorem drainStep_some {w w' : WriteWorld} {e : WriteEvent} (h : w.drainStep e = some w') :
    frameOf e = none ∧ w.cleanStep e = some w' := by
  unfold drainStep at h
  cases e with
  | call serialMsg topicId => exact absurd h (by simp)
  | lock i => exact ⟨rfl, h⟩
  | transfer i n => exact ⟨rfl, h⟩
  | complete i => exact ⟨rfl, h⟩
  | fail i => exact ⟨rfl, h⟩

/-- What the port still has to take, with one step for each completion and each lock. -/
def work (w : WriteWorld) : Nat :=
  (w.packaged.map fun f => f.length + 2).sum + (w.writer.sendBufs.map fun f => f.length + 1).sum
    - (w.inFlight.map WriteOp.sent).sum

/-- Taking one element out of a list takes its share out of a sum over the list. -/
theorem sum_eraseIdx {α : Type} (f : α → Nat) {l : List α} {i : Nat} {x : α}
    (h : l[i]? = some x) : f x + ((l.eraseIdx i).map f).sum = (l.map f).sum := by
  obtain ⟨hi, rfl⟩ := List.getElem?_eq_some_iff.mp h
  have hp := (List.getElem_cons_eraseIdx_perm hi).map f
  have := hp.sum_eq
  rwa [List.map_cons, List.sum_cons] at this

theorem launch_work (w : WriteWorld) (started : Option (List UInt8)) :
    (w.launch started).work = w.work := by
  cases started with
  | none => simp [launch, work]
  | some buffer => simp [launch, work]

/-- No more has been sent than is queued. -/
theorem serial_sent_le {bufs : List (List UInt8)} {ops : List WriteOp} (h : Serial bufs ops) :
    (ops.map WriteOp.sent).sum ≤ (bufs.map fun f => f.length + 1).sum := by
  cases h with
  | idle => exact Nat.le_refl _
  | busy hle =>
      simp only [List.map_cons, List.sum_cons, List.map_nil, List.sum_nil]
      omega

theorem drain_work {w w' : WriteWorld} {e : WriteEvent} (h : w.Orderly)
    (hs : w.drainStep e = some w') : w'.work < w.work := by
  obtain ⟨hd, hs⟩ := drainStep_some hs
  obtain ⟨hq, hs⟩ := cleanStep_some hs
  have hser := h.serial
  rcases step_cases hs with ⟨b, topicId, _, rfl, hp, _⟩ | ⟨i, payload, _, hp, rfl⟩ |
    ⟨i, n, op, _, hop, hn, hle, rfl⟩ | ⟨i, op, _, hop, hsent, rfl⟩ | ⟨i, op, rfl, _, _⟩
  · exact absurd hd (by simp [frameOf, hp, Except.toOption])
  · -- the frame's weight drops by one when it is queued
    have hpk := sum_eraseIdx (fun f : List UInt8 => f.length + 2) hp
    have hle := serial_sent_le hser
    rw [launch_work]
    unfold work
    show ((w.packaged.eraseIdx i).map _).sum + (((w.writer.enqueue payload).1.sendBufs).map _).sum
      - (w.inFlight.map _).sum < _
    rw [(lock_queue hser payload).1, List.map_append, List.sum_append]
    simp only [List.map_cons, List.map_nil, List.sum_cons, List.sum_nil]
    omega
  · obtain ⟨rfl, hops, _, rest, hbufs⟩ := serial_inFlight hser hop
    unfold work
    rw [hops, hbufs]
    simp only [List.set_cons_zero, List.map_cons, List.sum_cons, List.map_nil, List.sum_nil]
    omega
  · obtain ⟨rfl, hops, _, rest, hbufs⟩ := serial_inFlight hser hop
    rw [launch_work]
    unfold work
    show _ + (((w.writer.writeEcCallback false).1.sendBufs).map _).sum
      - ((w.inFlight.eraseIdx 0).map _).sum < _
    rw [(complete_queue w.writer.sendBufs).1, hops, hbufs]
    simp only [List.eraseIdx_cons_zero, List.tail_cons, List.map_cons, List.sum_cons,
      List.map_nil, List.sum_nil]
    omega
  · exact absurd hq (by simp [WriteEvent.isFail])

/-- A world that cannot move has nothing left to write. -/
theorem stuck_drained {w : WriteWorld} (h : w.Orderly) (hst : Lts.Stuck drainStep w) :
    w.packaged = [] ∧ w.writer.sendBufs = [] ∧ w.inFlight = [] := by
  have hpk : w.packaged = [] := by
    cases hp : w.packaged with
    | nil => rfl
    | cons payload rest =>
        have := hst (.lock 0)
        simp [drainStep, cleanStep, WriteEvent.isFail, step, hp] at this
  have hser := h.serial
  cases hops : w.inFlight with
  | nil =>
      rw [hops] at hser
      generalize w.writer.sendBufs = bufs at hser ⊢
      generalize hno : ([] : List WriteOp) = ops at hser
      cases hser with
      | idle => exact ⟨hpk, rfl, rfl⟩
      | busy _ => exact absurd hno (by simp)
  | cons op rest =>
      exfalso
      have hop : w.inFlight[0]? = some op := by rw [hops]; rfl
      obtain ⟨-, -, hle, -⟩ := serial_inFlight hser hop
      -- the write can go on, or it is complete and its handler can run
      by_cases hsent : op.sent = op.buffer.length
      · have := hst (.complete 0)
        simp [drainStep, cleanStep, WriteEvent.isFail, step, hops, hsent] at this
      · have := hst (.transfer 0 1)
        have hroom : op.sent + 1 ≤ op.buffer.length := by omega
        simp [drainStep, cleanStep, WriteEvent.isFail, step, hops, hroom] at this

/-- `w'` comes after `w` with no call in between: only waiting callers took the lock. -/
def Onward (w w' : WriteWorld) : Prop :=
  ∃ later, w'.calls = w.calls ++ later ∧ (later ++ w'.packaged).Perm w.packaged

theorem onward_step {w w' w'' : WriteWorld} {e : WriteEvent} (h : Onward w w')
    (hs : w'.drainStep e = some w'') : Onward w w'' := by
  obtain ⟨later, hcalls, hperm⟩ := h
  obtain ⟨hd, hs⟩ := drainStep_some hs
  rcases step_cases (cleanStep_some hs).2 with ⟨b, topicId, _, rfl, hp, _⟩ |
    ⟨i, payload, _, hp, rfl⟩ | ⟨i, n, op, _, _, _, _, rfl⟩ | ⟨i, op, _, _, _, rfl⟩ |
    ⟨i, op, _, _, rfl⟩
  · exact absurd hd (by simp [frameOf, hp, Except.toOption])
  · refine ⟨later ++ [payload], ?_, ?_⟩
    · show w'.calls ++ [payload] = _
      rw [hcalls, List.append_assoc]
    · show (later ++ [payload] ++ w'.packaged.eraseIdx i).Perm w.packaged
      obtain ⟨hi, rfl⟩ := List.getElem?_eq_some_iff.mp hp
      rw [List.append_assoc]
      exact (List.Perm.append_left _ (List.getElem_cons_eraseIdx_perm hi)).trans hperm
  · exact ⟨later, hcalls, hperm⟩
  · exact ⟨later, hcalls, hperm⟩
  · exact ⟨later, hcalls, hperm⟩

/-- Everything that was queued or waiting has been written, in the order of the locks. -/
structure Drained (w w' : WriteWorld) : Prop where
  idle : w'.writer.sendBufs = [] ∧ w'.inFlight = []
  port : w'.port = w'.calls.flatten
  calls : ∃ later, w'.calls = w.calls ++ later ∧ later.Perm w.packaged

/-- **Whatever is pending is written**, if no write fails and no call is added. -/
theorem drains {w : WriteWorld} (h : w.Orderly) :
    Lts.Inevitably drainStep (Drained w) w := by
  refine Lts.Inevitably.of_measure (I := fun w' => w'.Orderly ∧ Onward w w') work ?_ ?_ ?_ w
    ⟨h, [], by simp, by simp⟩
  · intro s e s' hI hs
    exact ⟨step_orderly hI.1 (drainStep_some hs).2, onward_step hI.2 hs⟩
  · intro s e s' hI hs
    exact drain_work hI.1 hs
  · intro s hI hst
    obtain ⟨hpk, hbufs, hops⟩ := stuck_drained hI.1 hst
    obtain ⟨later, hcalls, hperm⟩ := hI.2
    have hacc : s.calls = s.settled.map Prod.fst ++ s.writer.sendBufs := hI.1.accounted
    refine ⟨⟨hbufs, hops⟩, ?_, later, hcalls, ?_⟩
    · rw [hI.1.clean.port, hacc, hbufs]
      unfold underWay
      rw [hops]
      simp
    · rwa [hpk, List.append_nil] at hperm

/-! ## After an error -/

/-- The steps in which no caller takes the lock. -/
def unlockedStep (w : WriteWorld) (e : WriteEvent) : Option WriteWorld :=
  match e with
  | .lock _ => none
  | e => w.step e

/-- An idle writer stays idle until a caller takes the lock. -/
theorem idle_until_lock {w w' : WriteWorld} {es : List WriteEvent}
    (h : w.writer.sendBufs = [] ∧ w.inFlight = [])
    (hx : Lts.exec unlockedStep w es = some w') :
    w'.writer.sendBufs = [] ∧ w'.inFlight = [] := by
  refine Lts.exec_invariant (I := fun w => w.writer.sendBufs = [] ∧ w.inFlight = []) ?_ h hx
  intro s e s' hI hs
  cases e with
  | lock i => exact absurd hs (by simp [unlockedStep])
  | call serialMsg topicId =>
      rcases step_cases (e := .call serialMsg topicId) hs with ⟨_, _, _, _, _, rfl⟩ |
        ⟨_, _, he, _⟩ | ⟨_, _, _, he, _⟩ | ⟨_, _, he, _⟩ | ⟨_, _, he, _⟩
      · exact hI
      all_goals exact absurd he (by simp)
  | transfer i n => exact absurd hs (by simp [unlockedStep, step, hI.2])
  | complete i => exact absurd hs (by simp [unlockedStep, step, hI.2])
  | fail i => exact absurd hs (by simp [unlockedStep, step, hI.2])

/-- A caller that finds the writer idle starts the write of its own frame. -/
theorem idle_lock {w w' : WriteWorld} {j : Nat}
    (h : w.writer.sendBufs = [] ∧ w.inFlight = []) (hs : w.step (.lock j) = some w') :
    ∃ payload, w.packaged[j]? = some payload ∧ w'.writer.sendBufs = [payload]
      ∧ w'.inFlight = [⟨payload, 0⟩] := by
  rcases step_cases hs with ⟨_, _, _, he, _⟩ | ⟨i, payload, he, hp, rfl⟩ |
    ⟨_, _, _, he, _⟩ | ⟨_, _, he, _⟩ | ⟨_, _, he, _⟩
  · exact absurd he (by simp)
  · obtain rfl : j = i := by injection he
    have henq : w.writer.enqueue payload = (⟨[payload]⟩, some payload) := by
      unfold AsyncWriteBuffer.enqueue
      rw [h.1]
      rfl
    refine ⟨payload, hp, ?_, ?_⟩
    · show (w.writer.enqueue payload).1.sendBufs = [payload]
      rw [henq]
    · show w.inFlight ++ ((w.writer.enqueue payload).2.map _).toList = _
      rw [henq, h.2]
      rfl
  all_goals exact absurd he (by simp)

/-! ## The result -/

/--
**Writes are serialized.** In every reachable state at most one write is in flight,
exactly when the queue is nonempty, and it is that of the front. Without an error the
port holds the frames of the calls, whole and in the order of the locks, up to the one
under way, and every pending frame gets there. An error discards exactly the queued
frames, and the next caller to take the lock starts a write again.
-/
theorem writes_serialized :
    (∀ es w, Lts.exec step init es = some w →
      w.inFlight.length ≤ 1 ∧ (w.inFlight ≠ [] ↔ w.writer.sendBufs ≠ [])
        ∧ ∀ op ∈ w.inFlight, w.writer.sendBufs.head? = some op.buffer)
    ∧ (∀ es w, Lts.exec cleanStep init es = some w →
      w.calls = w.settled.map Prod.fst ++ w.writer.sendBufs
        ∧ (∀ f ∈ w.settled, f.2 = .delivered)
        ∧ w.port = (w.settled.map Prod.fst).flatten ++ w.underWay
        ∧ (w.calls ++ w.packaged).Perm (es.filterMap frameOf)
        ∧ Lts.Inevitably drainStep (Drained w) w)
    ∧ (∀ es w i w', Lts.exec step init es = some w → w.step (.fail i) = some w' →
      w.calls = w.settled.map Prod.fst ++ w.writer.sendBufs
        ∧ w' = { w with
            writer := ⟨[]⟩
            inFlight := []
            settled := w.settled ++ w.writer.sendBufs.map fun frame => (frame, .discarded) }
        ∧ ∀ fs u j u', Lts.exec unlockedStep w' fs = some u → u.step (.lock j) = some u' →
          ∃ payload, u.packaged[j]? = some payload ∧ u'.writer.sendBufs = [payload]
            ∧ u'.inFlight = [⟨payload, 0⟩]) := by
  refine ⟨?_, ?_, ?_⟩
  · intro es w hx
    have h := serial_reachable hx
    generalize w.writer.sendBufs = bufs at h ⊢
    generalize w.inFlight = ops at h ⊢
    cases h with
    | idle => simp
    | busy hle => simp
  · intro es w hx
    have h : w.Orderly :=
      Lts.exec_invariant (fun _ _ _ hI hs => step_orderly hI hs) init_orderly hx
    have hperm := calls_perm (Lts.exec_mono (fun _ _ _ hs => (cleanStep_some hs).2) hx)
    exact ⟨h.accounted, h.clean.delivered, h.clean.port, by simpa [init] using hperm, drains h⟩
  · intro es w i w' hx hs
    have h := serial_reachable hx
    have hacc : w.Accounted := accounted_reachable hx
    rcases step_cases hs with ⟨_, _, _, he, _⟩ | ⟨_, _, he, _⟩ | ⟨_, _, _, he, _⟩ |
      ⟨_, _, he, _⟩ | ⟨k, op, _, hop, rfl⟩
    · exact absurd he (by simp)
    · exact absurd he (by simp)
    · exact absurd he (by simp)
    · exact absurd he (by simp)
    · obtain ⟨rfl, hops, _⟩ := serial_inFlight h hop
      have hidle : w.inFlight.eraseIdx 0 ++ [] = [] := by rw [hops]; rfl
      refine ⟨hacc, ?_, ?_⟩
      · show ({ w with
            writer := ⟨[]⟩
            inFlight := w.inFlight.eraseIdx 0 ++ []
            settled := _ } : WriteWorld) = _
        rw [hidle]
      · intro fs u j u' hfs hlock
        exact idle_lock (idle_until_lock ⟨rfl, hidle⟩ hfs) hlock

/--
Three frames are queued, and the port takes two bytes of the second when its write fails.
The first has been delivered, the other two are discarded, and a fourth call writes again.
-/
theorem writes_serialized_failure :
    ∃ w w', Lts.exec step init [.call (.new 0) 101, .call (.new 0) 102, .call (.new 0) 103,
        .call (.new 0) 104, .lock 0, .lock 0, .lock 0, .transfer 0 8, .complete 0,
        .transfer 0 2] = some w
      ∧ w.port.length = 10
      ∧ w.inFlight.length ≤ 1
      ∧ w.calls = w.settled.map Prod.fst ++ w.writer.sendBufs
      ∧ w.step (.fail 0) = some w'
      ∧ w'.settled.map Prod.snd = [.delivered, .discarded, .discarded]
      ∧ ∃ payload u, w'.packaged = [payload] ∧ w'.step (.lock 0) = some u
        ∧ u.inFlight = [⟨payload, 0⟩] := by
  have hrun : (Lts.exec step init [.call (.new 0) 101, .call (.new 0) 102, .call (.new 0) 103,
        .call (.new 0) 104, .lock 0, .lock 0, .lock 0, .transfer 0 8, .complete 0,
        .transfer 0 2]).map
      (fun w => (w.port.length, (w.step (.fail 0)).map fun w' =>
        (w'.settled.map Prod.snd, w'.packaged.length, (w'.step (.lock 0)).isSome)))
        = some (10, some ([.delivered, .discarded, .discarded], 1, true)) := by
    decide +kernel
  obtain ⟨w, hx, hends⟩ := Option.map_eq_some_iff.mp hrun
  obtain ⟨hport, hrest⟩ := Prod.mk.inj hends
  obtain ⟨w', hfail, hends⟩ := Option.map_eq_some_iff.mp hrest
  obtain ⟨hfates, hrest⟩ := Prod.mk.inj hends
  obtain ⟨hone, hlock⟩ := Prod.mk.inj hrest
  obtain ⟨u, hu⟩ := Option.isSome_iff_exists.mp hlock
  obtain ⟨payload, hpayload⟩ := List.length_eq_one_iff.mp hone
  obtain ⟨hle, -, -⟩ := writes_serialized.1 _ w hx
  obtain ⟨hcalls, -, hnext⟩ := writes_serialized.2.2 _ w 0 w' hx hfail
  obtain ⟨payload', hfirst, -, hwrites⟩ := hnext [] w' 0 u rfl hu
  rw [hpayload] at hfirst
  obtain rfl := Option.some.inj hfirst
  exact ⟨w, w', hx, hport, hle, hcalls, hfail, hfates, payload, u, hpayload, hu, hwrites⟩

end WriteWorld

end RosserialServer
